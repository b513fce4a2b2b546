import ProgramSearch.Proofs.Batch
import ProgramSearch.Proofs.Ranking.Contents

/-!
# Ranking many queries

A query may be ranked by itself, among many, or in a slot of a padded batch. The outcome is the
same: the slots of the batches that the fit queries make lead back to the places of these queries
in the input, and an unfit query takes no slot.
-/
namespace ProgramSearch

open ProgramSearch.Embedding

/-- An unfit vector is not blamed on the batch. -/
theorem Query.checkVector_error_ne_batch {dimension : Nat} {v : Embedding}
    {failure : Failure} (h : Query.checkVector dimension v = .error failure) (fault : BatchFault) :
    failure ≠ .batch fault := by
  rw [checkVector] at h
  split at h
  · rename_i cause hcause
    obtain rfl : cause = failure := Except.error.inj h
    rcases ShardBuilder.vectorFailure?_eq_some hcause with ⟨_, _, rfl⟩ | ⟨_, rfl⟩ <;> simp
  · contradiction

namespace Scanner

variable {s : Scanner}

/-- What becomes of the query at a place of the input when it is ranked by itself. -/
def outcome (s : Scanner) (place : Nat) (query : Embedding) : Except Failure Ranked :=
  (s.searchOne query).map fun r => { r with query := place }

theorem outcome_of_fit {query : Embedding} (fit : Query.checkVector s.dimension query = .ok ())
    (place threads : Nat) : s.outcome place query = .ok ⟨place, s.rankOne threads query⟩ := by
  rw [outcome, searchOne_of_fit fit, rankOne_threads s threads]
  rfl

theorem outcome_of_unfit {query : Embedding} {failure : Failure}
    (unfit : Query.checkVector s.dimension query = .error failure) (place : Nat) :
    s.outcome place query = .error failure := by
  rw [outcome, searchOne_of_unfit unfit]
  rfl

/-- The next ranking goes to the next query that is fit. -/
theorem assign_eq (s : Scanner) (threads index : Nat) (queries : List Embedding) :
    s.assign index queries (s.rank threads
      (queries.filter fun q => (Query.checkVector s.dimension q).isOk)) =
      (queries.zipIdx index).map fun p => s.outcome p.2 p.1 := by
  induction queries generalizing index with
  | nil => rfl
  | cons q queries ih =>
    rw [assign, List.zipIdx_cons, List.map_cons, List.filter_cons]
    cases check : Query.checkVector s.dimension q with
    | error failure =>
      exact congrArg₂ List.cons (outcome_of_unfit check index).symm (ih (index + 1))
    | ok =>
      exact congrArg₂ List.cons (outcome_of_fit check index threads).symm (ih (index + 1))

theorem searchMany_eq (s : Scanner) (queries : List Embedding) (threads : Nat) :
    s.searchMany queries threads = queries.zipIdx.map fun p => s.outcome p.2 p.1 :=
  assign_eq s threads 0 queries

/-- The hits of a query under its place in the input. -/
def ranking (s : Scanner) (threads : Nat) (p : Query × Nat) : Ranked :=
  ⟨p.2, s.rankOne threads p.1.embedding⟩

section Batches

variable {batchSize : Nat} (positive : 0 < batchSize) (threads : Nat)
include positive

/-- The slots of a batch, counted from where it starts, are the places of its queries among the
chosen ones. -/
theorem placed_group {chosen group : List (Query × Nat)} {b : Nat}
    (h : (groupsOf batchSize chosen)[b]? = some group) :
    (do let ranked ← s.searchBatch (.ofGroup batchSize s.dimension (group.map Prod.fst)) threads
        ranked.mapM (Ranked.placed (chosen.map Prod.snd) (b * batchSize))) =
      .ok (group.map (s.ranking threads)) := by
  rw [searchBatch_of_dimension (by rfl), ok_bind, Batch.queries_ofGroup, mapM_eq_ok_iff]
  apply List.ext_getElem?
  intro i
  cases hi : group[i]? with
  | none => simp [hi]
  | some p =>
    have hplace := getElem?_groupsOf positive h (List.getElem?_eq_some_iff.mp hi).1
    simp [hi, hplace, Ranked.placed, ranking]

/-- All chosen queries are ranked, each under its place in the input. -/
theorem mapM_batches (chosen : List (Query × Nat)) :
    (((groupsOf batchSize (chosen.map Prod.fst)).map
      (Batch.ofGroup batchSize s.dimension)).zipIdx.mapM fun (batch, b) => do
        let ranked ← s.searchBatch batch threads
        ranked.mapM (Ranked.placed (chosen.map Prod.snd) (b * batchSize))) =
      .ok ((groupsOf batchSize chosen).map (List.map (s.ranking threads))) := by
  rw [mapM_eq_ok_iff, groupsOf_map, List.map_map]
  apply List.ext_getElem?
  intro b
  cases hb : (groupsOf batchSize chosen)[b]? with
  | none => simp [hb]
  | some group => simpa [hb] using placed_group positive threads hb

end Batches

theorem mem_fitPlaces {queries : List Query} {q : Query} {place : Nat} :
    (q, place) ∈ s.fitPlaces queries ↔
      queries[place]? = some q ∧ q.check s.dimension = .ok () := by
  rw [fitPlaces, List.mem_filter, List.mk_mem_zipIdx_iff_getElem?]
  cases q.check s.dimension <;> simp [Except.isOk, Except.toBool]

/-- No two queries have one place, so a ranking is found under the place of its query. -/
theorem find?_ranking {queries : List Query} {q : Query} {place : Nat} (threads : Nat)
    (h : (q, place) ∈ s.fitPlaces queries) :
    ((s.fitPlaces queries).map (s.ranking threads)).find? (·.query == place) =
      some (s.ranking threads (q, place)) := by
  have hfound : (((s.fitPlaces queries).map (s.ranking threads)).find?
      (·.query == place)).isSome :=
    List.find?_isSome.mpr ⟨_, List.mem_map_of_mem h, by simp [ranking]⟩
  obtain ⟨r, hr⟩ := Option.isSome_iff_exists.mp hfound
  obtain ⟨⟨q', place'⟩, hmem, rfl⟩ := List.mem_map.mp (List.mem_of_find?_eq_some hr)
  obtain rfl : place' = place := by simpa [ranking] using List.find?_some hr
  have hq : queries[place']? = some q := (mem_fitPlaces.mp h).1
  rw [(mem_fitPlaces.mp hmem).1] at hq
  rw [hr, Option.some.inj hq]

theorem rankBatches_eq {queries : List Query} {batchSize : Nat} (positive : 0 < batchSize)
    (threads : Nat) :
    s.rankBatches queries batchSize threads =
      .ok (queries.zipIdx.map fun p => s.outcome p.2 p.1.embedding) := by
  have hfit : ∀ q ∈ (s.fitPlaces queries).map Prod.fst, q.check s.dimension = .ok () := by
    intro q hq
    obtain ⟨⟨_, place⟩, hmem, rfl⟩ := List.mem_map.mp hq
    exact (mem_fitPlaces.mp hmem).2
  simp only [rankBatches, Batch.split_of_fit positive hfit, ok_bind, mapM_batches positive threads,
    ← List.map_flatten, groupsOf_flatten]
  refine congrArg Except.ok (List.map_congr_left ?_)
  rintro ⟨q, place⟩ hmem
  have hplace := List.mk_mem_zipIdx_iff_getElem?.mp hmem
  cases check : q.check s.dimension with
  | error failure => simp only [outcome_of_unfit check]
  | ok =>
    have hfound := find?_ranking threads (mem_fitPlaces.mpr ⟨hplace, check⟩)
    simp only [hfound, outcome_of_fit check place threads, ranking]

theorem outcome_ne_notRanked (s : Scanner) (place : Nat) (query : Embedding) :
    s.outcome place query ≠ .error (.batch .notRanked) := by
  cases check : Query.checkVector s.dimension query with
  | error failure =>
    rw [outcome_of_unfit check]
    exact fun h => Query.checkVector_error_ne_batch check .notRanked (Except.error.inj h)
  | ok => simp [outcome_of_fit check place 1]

/-- Every list of queries is ranked in batches of any positive size. The outcome of a query is that
of a search for it alone, under its place in the input: the same failure or the same hits. A search
for all of them at once gives the same outcomes. No slot leads out of the input, which would fail
all queries, and no query is left without a ranking. -/
theorem rankBatches_eq_searchOne (s : Scanner) (queries : List Query) {batchSize : Nat}
    (positive : 0 < batchSize) (threads threads' : Nat) :
    ∃ outcomes, s.rankBatches queries batchSize threads = .ok outcomes ∧
      s.searchMany (queries.map (·.embedding)) threads' = outcomes ∧
      outcomes.length = queries.length ∧
      .error (.batch .notRanked) ∉ outcomes ∧
      ∀ (place : Nat) (q : Query), queries[place]? = some q →
        (∀ failure, s.searchOne q.embedding = .error failure →
          outcomes[place]? = some (.error failure)) ∧
        ∀ r, s.searchOne q.embedding = .ok r → outcomes[place]? = some (.ok ⟨place, r.hits⟩) := by
  refine ⟨_, rankBatches_eq positive threads, ?_, ?_, ?_, fun place q hq => ?_⟩
  · rw [searchMany_eq, List.zipIdx_map, List.map_map]
    rfl
  · rw [List.length_map, List.length_zipIdx]
  · intro hmem
    obtain ⟨⟨q, place⟩, -, h⟩ := List.mem_map.mp hmem
    exact outcome_ne_notRanked s place q.embedding h
  · rw [List.getElem?_map, List.getElem?_zipIdx, hq]
    constructor
    · intro failure hone
      simp [outcome, hone, Except.map]
    · intro r hone
      simp [outcome, hone, Except.map]

/-- Fit queries beside one that is too short and one that is infinite, in batches of two: the last
fit query stands in the second batch and is the fifth of the input. -/
theorem rankBatches_of_mixed_queries :
    0 < 2 ∧ ∃ outcomes, (sampleScanner 2).rankBatches
        [⟨[1.0], .null⟩, ⟨[], .null⟩, ⟨[2.0], .null⟩, ⟨[Float32.ofBits 0x7F800000], .null⟩,
          ⟨[3.0], .null⟩] 2 3 = .ok outcomes ∧
      outcomes[1]? = some (.error (.dimensionMismatch 1 0)) ∧
      outcomes[3]? = some (.error (.notFinite 0)) ∧
      outcomes[4]? = some (.ok ⟨4, (sampleScanner 2).rankOne 1 [3.0]⟩) := by
  have positive : 0 < 2 := by decide
  obtain ⟨outcomes, hranked, -, -, -, hat⟩ := rankBatches_eq_searchOne (sampleScanner 2)
    [⟨[1.0], .null⟩, ⟨[], .null⟩, ⟨[2.0], .null⟩, ⟨[Float32.ofBits 0x7F800000], .null⟩,
      ⟨[3.0], .null⟩] positive 3 1
  refine ⟨positive, outcomes, hranked, ?_, ?_, ?_⟩
  · exact (hat 1 _ rfl).1 _ (searchOne_of_unfit rfl)
  · exact (hat 3 _ rfl).1 _ (searchOne_of_unfit rfl)
  · exact (hat 4 _ rfl).2 _ (searchOne_of_fit rfl)

end Scanner

end ProgramSearch
