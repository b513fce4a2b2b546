import ProgramSearch.Proofs.Database.Filling
import ProgramSearch.Proofs.Ranking.StableSort

/-!
# What a search shows

The hits of a query are the beginning of a stable sort by score of the entries that a scan meets.
How the entries are spread over shards has no part in this: it shows in the places of the hits
only. There are as many hits as entries that are met, up to the limit; a scan meets all entries
unless the dimension is 0, and then none.
-/
namespace ProgramSearch

/-- What a hit shows apart from its place. -/
def Hit.content (hit : Hit) : Record × Float32 := (hit.record, hit.score)

def Hit.place (hit : Hit) : Nat × Nat := (hit.shard, hit.row)

/-- A result with its hits' records and scores, without the places. -/
def Ranked.content (r : Ranked) : Nat × List (Record × Float32) := (r.query, r.hits.map Hit.content)

namespace Scanner

/-- The entries that a scan meets. -/
def scanned (s : Scanner) : List Entry := if s.dimension = 0 then [] else s.database.entries

/-- An entry as a query sees it. -/
def valued (s : Scanner) (query : Embedding) (e : Entry) : Record × Float32 :=
  (e.1, s.metric.score query query.norm e.2 e.2.norm)

/-- A score at least as high. -/
def ratedNotBelow (a b : Record × Float32) : Bool := orderKey b.2 ≤ orderKey a.2

/-- All rows of the database as hits, in scan order. -/
def allHits (s : Scanner) (query : Embedding) : List Hit := (s.allScores query).filterMap s.hit?

theorem scored_of_hit? {s : Scanner} {row : Scored} {hit : Hit} (h : s.hit? row = some hit) :
    hit.scored = row := by
  rw [hit?_eq] at h
  obtain ⟨record, -, rfl⟩ := Option.map_eq_some_iff.mp h
  rfl

theorem hit?_scored {s : Scanner} {query : Embedding} {hit : Hit} (h : hit ∈ s.allHits query) :
    s.hit? hit.scored = some hit := by
  obtain ⟨row, -, hrow⟩ := List.mem_filterMap.mp h
  rw [scored_of_hit? hrow, hrow]

/-- The hits of a query are sorted as hits, not only as rows. -/
theorem rankOne_eq_mergeSort (s : Scanner) (threads : Nat) (query : Embedding) :
    s.rankOne threads query =
      ((s.allHits query).mergeSort fun a b => a.scored.notBelow b.scored).take s.topK := by
  have hall : (s.allHits query).map Hit.scored = s.allScores query :=
    filterMap_hit?_scored s query (List.Subset.refl _)
  have hsort : (s.allScores query).mergeSort Scored.notBelow =
      ((s.allHits query).mergeSort fun a b => a.scored.notBelow b.scored).map Hit.scored := by
    rw [← hall]
    exact (List.map_mergeSort (f := Hit.scored) (s := Scored.notBelow) fun _ _ _ _ => rfl).symm
  rw [rankOne_eq, hsort, ← List.map_take, List.filterMap_map]
  conv_rhs => rw [← List.filterMap_some (l := List.take _ _)]
  apply List.filterMap_congr
  intro hit hhit
  exact hit?_scored (List.mem_mergeSort.mp (List.mem_of_mem_take hhit))

/-- A shard shows its entries in order. -/
theorem hits_shard {s : Scanner} (h : s.database.Intact) (query : Embedding) {shard : Shard}
    {index : Nat} (hshard : s.database.shards[index]? = some shard) :
    ((shard.rows.map (s.scoreRow query query.norm index shard)).filterMap s.hit?).map Hit.content =
      if s.dimension = 0 then [] else shard.entries.map (s.valued query) := by
  have hmem : shard ∈ s.database.shards := Array.mem_of_getElem? hshard
  have hdimension : shard.dimension = s.dimension := h.dimension shard hmem
  have hintact := h.shards shard hmem
  split
  · rename_i hzero
    rw [hintact.rows_of_dimension_zero (hdimension.trans hzero)]
    rfl
  · rename_i hzero
    rw [hintact.rows (by omega), List.map_filterMap, List.filterMap_map, List.filterMap_map]
    conv_rhs => rw [← List.zipIdx_map_fst 0 shard.entries, List.map_map, ← List.filterMap_eq_map]
    apply List.filterMap_congr
    rintro ⟨e, row⟩ he
    have hrow := List.mk_mem_zipIdx_iff_getElem?.mp he
    simp [hit?_eq, scoreRow, recordAt?, hshard, hintact.record?, hintact.norm?, hrow, valued,
      Hit.content]

/-- All rows of a database show the entries that a scan meets, in order. -/
theorem allHits_content {s : Scanner} (h : s.database.Intact) (query : Embedding) :
    (s.allHits query).map Hit.content = s.scanned.map (s.valued query) := by
  have hall : s.allScores query = s.scores query s.database.shards.toList.zipIdx := rfl
  have hscanned : s.scanned = s.database.shards.toList.flatMap fun shard =>
      if s.dimension = 0 then [] else shard.entries := by
    rw [scanned]
    split
    · simp
    · rfl
  rw [allHits, hall, scores, List.filterMap_flatMap, List.map_flatMap, hscanned, List.map_flatMap]
  conv_rhs => rw [← List.zipIdx_map_fst 0 s.database.shards.toList, List.flatMap_map]
  apply List.flatMap_congr
  rintro ⟨shard, index⟩ hmem
  have hshard := List.mk_mem_zipIdx_iff_getElem?.mp hmem
  rw [Array.getElem?_toList] at hshard
  refine (hits_shard h query hshard).trans ?_
  split <;> rfl

/-- The records and scores of a ranking are the beginning of a stable sort of the entries. -/
theorem rankOne_content {s : Scanner} (h : s.database.Intact) (threads : Nat) (query : Embedding) :
    (s.rankOne threads query).map Hit.content =
      ((s.scanned.map (s.valued query)).mergeSort ratedNotBelow).take s.topK := by
  rw [rankOne_eq_mergeSort, List.map_take, ← allHits_content h]
  congr 1
  exact List.map_mergeSort fun _ _ _ _ => rfl

theorem rankOne_threads (s : Scanner) (threads : Nat) (query : Embedding) :
    s.rankOne threads query = s.rankOne 1 query := by
  rw [rankOne_eq, rankOne_eq]

theorem searchOne_of_fit {s : Scanner} {query : Embedding}
    (fit : Query.checkVector s.dimension query = .ok ()) :
    s.searchOne query = .ok ⟨0, s.rankOne 1 query⟩ := by
  rw [searchOne, fit, ok_bind]
  rfl

theorem searchOne_of_unfit {s : Scanner} {query : Embedding} {failure : Failure}
    (unfit : Query.checkVector s.dimension query = .error failure) :
    s.searchOne query = .error failure := by
  rw [searchOne, unfit]
  rfl

theorem searchBatch_of_dimension {s : Scanner} {batch : Batch}
    (dimension : batch.dimension = s.dimension) (threads : Nat) :
    s.searchBatch batch threads = .ok (batch.queries.map fun (slot, q) =>
      ⟨slot, s.rankOne threads q.embedding⟩) := by
  simp only [searchBatch, dimension, bne_self_eq_false, Bool.false_eq_true, if_false, rank,
    List.map_map, List.zipWith_map_right, List.zipWith_self]
  rfl

section Length

variable {s : Scanner}

/-- No place is shown twice. -/
theorem places_rankOne_nodup (s : Scanner) (threads : Nat) (query : Embedding) :
    ((s.rankOne threads query).map Hit.place).Nodup := by
  have hearlier : ((s.allScores query).map fun row => (row.shard, row.row)).Nodup := by
    rw [List.Nodup, List.pairwise_map]
    refine (s.allScores_earlier query).imp fun {a b} h => ?_
    rw [Scored.Earlier] at h
    rw [ne_eq, Prod.mk.injEq]
    omega
  have hsorted := ((List.mergeSort_perm (s.allScores query) Scored.notBelow).map
    fun row => (row.shard, row.row)).nodup_iff.mpr hearlier
  have hplaces : (s.rankOne threads query).map Hit.place =
      (((s.allScores query).mergeSort Scored.notBelow).take s.topK).map
        fun row => (row.shard, row.row) := by
    rw [rankOne_eq]
    conv_rhs => rw [← filterMap_hit?_scored s query fun row h =>
      List.mem_mergeSort.mp (List.mem_of_mem_take h), List.map_map]
    rfl
  rw [hplaces, List.map_take]
  exact hsorted.sublist (List.take_sublist _ _)

theorem length_rankOne (h : s.database.Intact) (threads : Nat) (query : Embedding) :
    (s.rankOne threads query).length =
      min s.topK (if s.dimension = 0 then 0 else s.database.size) := by
  have hlength := congrArg List.length (rankOne_content h threads query)
  rw [List.length_map, List.length_take, List.length_mergeSort, List.length_map] at hlength
  rw [hlength, scanned, h.size_eq]
  split <;> rfl

/-- The hits of a complete ranking: as many as the limit and the database allow, and no place
twice. -/
structure Complete (s : Scanner) (hits : List Hit) : Prop where
  length_eq : hits.length = min s.topK s.database.size
  places : (hits.map Hit.place).Nodup

theorem complete_rankOne_iff (h : s.database.Intact) (threads : Nat) (query : Embedding) :
    s.Complete (s.rankOne threads query) ↔
      0 < s.dimension ∨ s.topK = 0 ∨ s.database.size = 0 := by
  have hlength := length_rankOne h threads query
  constructor
  · intro complete
    rw [complete.length_eq] at hlength
    split at hlength <;> omega
  · intro hcase
    refine ⟨?_, places_rankOne_nodup s threads query⟩
    rw [hlength]
    split <;> omega

end Length

/-- In a database that was built by the operations of the library, every fit query is answered, by
itself and in a batch, and no place is shown twice. The ranking is complete exactly if the
dimension is positive, the limit is 0 or there is no record: with dimension 0 there are no hits. -/
theorem search_complete_iff {s : Scanner} (built : s.database.Built) (threads : Nat) :
    (∀ query, Query.checkVector s.dimension query = .ok () →
        ∃ r, s.searchOne query = .ok r ∧ (r.hits.map Hit.place).Nodup ∧
          r.hits.length = min s.topK (if s.dimension = 0 then 0 else s.database.size) ∧
          (s.Complete r.hits ↔ 0 < s.dimension ∨ s.topK = 0 ∨ s.database.size = 0)) ∧
      ∀ batch : Batch, batch.dimension = s.dimension →
        ∃ ranked, s.searchBatch batch threads = .ok ranked ∧
          ranked.map (·.query) = batch.queries.map (·.1) ∧
          ∀ r ∈ ranked, (r.hits.map Hit.place).Nodup ∧
            r.hits.length = min s.topK (if s.dimension = 0 then 0 else s.database.size) ∧
            (s.Complete r.hits ↔ 0 < s.dimension ∨ s.topK = 0 ∨ s.database.size = 0) := by
  have hintact := built.intact
  constructor
  · intro query fit
    exact ⟨_, searchOne_of_fit fit, places_rankOne_nodup s 1 query, length_rankOne hintact 1 query,
      complete_rankOne_iff hintact 1 query⟩
  · intro batch dimension
    refine ⟨_, searchBatch_of_dimension dimension threads, ?_, fun r hr => ?_⟩
    · rw [List.map_map]
      rfl
    · obtain ⟨⟨slot, q⟩, -, rfl⟩ := List.mem_map.mp hr
      exact ⟨places_rankOne_nodup s threads q.embedding, length_rankOne hintact threads q.embedding,
        complete_rankOne_iff hintact threads q.embedding⟩

/-- Three records that fit dimension 1, two of them alike to every query, and one that does not
fit. -/
def sampleStream : List Entry :=
  [(⟨"A.java", "a", "", .none⟩, [1.0]), (⟨"A.java", "b", "", .none⟩, [2.0]),
    (⟨"B.java", "c", "", .none⟩, [1.0, 2.0]), (⟨"B.java", "d", "", .none⟩, [1.0])]

theorem filter_sampleStream : sampleStream.filter (Entry.fits 1) =
    [(⟨"A.java", "a", "", .none⟩, [1.0]), (⟨"A.java", "b", "", .none⟩, [2.0]),
      (⟨"B.java", "d", "", .none⟩, [1.0])] := rfl

/-- The sample in shards of the given capacity. -/
def sampleDatabase (capacity : Nat) : Database :=
  (Database.empty 1).extended (groupsOf capacity (sampleStream.filter (Entry.fits 1)))

def sampleScanner (capacity : Nat) : Scanner := ⟨sampleDatabase capacity, 2, .squaredEuclidean, 1⟩

theorem addRecords_sampleStream (capacity : Nat) :
    ∃ skipped, (Database.empty 1).addRecords sampleStream capacity =
      .ok (sampleDatabase capacity, skipped) :=
  ⟨_, Database.addRecords_eq (Database.empty 1) sampleStream capacity⟩

theorem built_sampleDatabase (capacity : Nat) : (sampleDatabase capacity).Built := by
  obtain ⟨skipped, hadd⟩ := addRecords_sampleStream capacity
  exact .addRecords (.empty 1) hadd

theorem entries_sampleDatabase (capacity : Nat) :
    (sampleDatabase capacity).entries = sampleStream.filter (Entry.fits 1) := by
  obtain ⟨skipped, hadd⟩ := addRecords_sampleStream capacity
  exact Database.entries_addRecords hadd

theorem size_sampleDatabase (capacity : Nat) : (sampleDatabase capacity).size = 3 := by
  rw [(built_sampleDatabase capacity).intact.size_eq, entries_sampleDatabase, filter_sampleStream]
  rfl

/-- Two of the three records are found, by one query and in a padded batch. -/
theorem search_complete_of_sample :
    (sampleDatabase 2).Built ∧ Query.checkVector 1 [1.0] = .ok () ∧
      (∃ r, (sampleScanner 2).searchOne [1.0] = .ok r ∧ r.hits.length = 2 ∧
        (r.hits.map Hit.place).Nodup) ∧
      ∃ ranked,
        (sampleScanner 2).searchBatch ⟨1, [.query ⟨[1.0], .null⟩, .padding]⟩ 3 = .ok ranked ∧
        ranked.map (·.query) = [0] ∧ ∀ r ∈ ranked, (sampleScanner 2).Complete r.hits := by
  have built : (sampleScanner 2).database.Built := built_sampleDatabase 2
  have fit : Query.checkVector 1 [1.0] = .ok () := rfl
  obtain ⟨hone, hbatch⟩ := search_complete_iff built 3
  refine ⟨built, fit, ?_, ?_⟩
  · obtain ⟨r, hr, hplaces, hlength, -⟩ := hone [1.0] fit
    refine ⟨r, hr, hlength.trans ?_, hplaces⟩
    have hsize : (sampleScanner 2).database.size = 3 := size_sampleDatabase 2
    rw [hsize]
    rfl
  · obtain ⟨ranked, hranked, hslots, hall⟩ :=
      hbatch ⟨1, [.query ⟨[1.0], .null⟩, .padding]⟩ rfl
    exact ⟨ranked, hranked, hslots, fun r hr => (hall r hr).2.2.mpr (.inl Nat.one_pos)⟩

/-- A database with one record, of dimension 0. -/
def flatDatabase : Database := (Database.empty 0).extended [[(⟨"A.java", "a", "", .none⟩, [])]]

theorem built_flatDatabase : flatDatabase.Built := by
  have hadd : (Database.empty 0).addRecords [(⟨"A.java", "a", "", .none⟩, [])] 1 =
      .ok (flatDatabase, 0) := rfl
  exact .addRecords (.empty 0) hadd

/-- A record of dimension 0 is counted, but no search finds it. -/
theorem search_misses_flat_record :
    flatDatabase.Built ∧ Query.checkVector 0 [] = .ok () ∧ min 1 flatDatabase.size = 1 ∧
      (⟨flatDatabase, 1, .squaredEuclidean, 1⟩ : Scanner).searchOne [] = .ok ⟨0, []⟩ := by
  refine ⟨built_flatDatabase, rfl, rfl, ?_⟩
  rw [searchOne_of_fit rfl]
  have hlength := length_rankOne (s := ⟨flatDatabase, 1, .squaredEuclidean, 1⟩)
    built_flatDatabase.intact 1 []
  rw [List.eq_nil_of_length_eq_zero hlength]

section Partition

/-- Rankings that agree but for the places are handed out alike. -/
theorem assign_content_congr {s t : Scanner} (dimension : s.dimension = t.dimension)
    (queries : List Embedding) (index : Nat) {ranked ranked' : List (List Hit)}
    (h : ranked.map (List.map Hit.content) = ranked'.map (List.map Hit.content)) :
    (s.assign index queries ranked).map (Except.map Ranked.content) =
      (t.assign index queries ranked').map (Except.map Ranked.content) := by
  induction queries generalizing index ranked ranked' with
  | nil => rfl
  | cons q queries ih =>
    rw [assign, assign, dimension]
    cases Query.checkVector t.dimension q with
    | error failure => exact congrArg (_ :: ·) (ih (index + 1) h)
    | ok =>
      have htail : ranked.tail.map (List.map Hit.content) =
          ranked'.tail.map (List.map Hit.content) := by
        rw [List.map_tail, List.map_tail, h]
      have hhead : (ranked.headD []).map Hit.content = (ranked'.headD []).map Hit.content := by
        cases ranked <;> cases ranked' <;> simp_all
      simp only [List.map_cons, Except.map, Ranked.content, hhead]
      exact congrArg (_ :: ·) (ih (index + 1) htail)

variable {s t : Scanner} (hs : s.database.Built) (ht : t.database.Built)
  (dimension : s.dimension = t.dimension) (entries : s.database.entries = t.database.entries)
  (metric : s.metric = t.metric) (topK : s.topK = t.topK)
include hs ht dimension entries metric topK

theorem rankOne_content_congr (threads threads' : Nat) (query : Embedding) :
    (s.rankOne threads query).map Hit.content = (t.rankOne threads' query).map Hit.content := by
  have hvalued : s.valued query = t.valued query := by
    funext e
    rw [valued, valued, metric]
  rw [rankOne_content hs.intact, rankOne_content ht.intact, scanned, scanned, dimension, entries,
    hvalued, topK]

/-- Two databases that hold the same entries in the same order, however they are cut into shards,
answer every search alike, whatever the numbers of workers: the same failures, and the same records
with the same scores in the same order. -/
theorem search_eq_of_entries_eq (threads threads' : Nat) :
    (∀ query, (s.searchOne query).map Ranked.content = (t.searchOne query).map Ranked.content) ∧
      (∀ batch, (s.searchBatch batch threads).map (List.map Ranked.content) =
        (t.searchBatch batch threads').map (List.map Ranked.content)) ∧
      ∀ queries, (s.searchMany queries threads).map (Except.map Ranked.content) =
        (t.searchMany queries threads').map (Except.map Ranked.content) := by
  have hrank := fun query threads threads' =>
    rankOne_content_congr hs ht dimension entries metric topK threads threads' query
  refine ⟨fun query => ?_, fun batch => ?_, fun queries => ?_⟩
  · cases check : Query.checkVector t.dimension query with
    | error failure =>
      rw [searchOne_of_unfit check, searchOne_of_unfit (dimension ▸ check)]
    | ok =>
      rw [searchOne_of_fit check, searchOne_of_fit (dimension ▸ check)]
      exact congrArg (fun hits => Except.ok (0, hits)) (hrank query 1 1)
  · by_cases hbatch : batch.dimension = s.dimension
    · rw [searchBatch_of_dimension hbatch, searchBatch_of_dimension (hbatch.trans dimension)]
      simp only [Except.map, List.map_map]
      congr 1
      apply List.map_congr_left
      rintro ⟨slot, q⟩ -
      exact congrArg (Prod.mk slot) (hrank q.embedding threads threads')
    · rw [searchBatch, searchBatch, ← dimension, if_pos (by simpa using hbatch),
        if_pos (by simpa using hbatch)]
  · rw [searchMany, searchMany, dimension]
    apply assign_content_congr dimension
    rw [rank, rank, List.map_map, List.map_map]
    exact List.map_congr_left fun query _ => hrank query threads threads'

end Partition

/-- Three shards and one shard of the same records are searched alike, with four workers or one. -/
theorem search_of_two_capacities :
    (sampleDatabase 1).Built ∧ (sampleDatabase 3).Built ∧
      (sampleDatabase 1).entries = (sampleDatabase 3).entries ∧
      (sampleDatabase 1).shards.size = 3 ∧ (sampleDatabase 3).shards.size = 1 ∧
      ((sampleScanner 1).searchOne [1.0]).map Ranked.content =
        ((sampleScanner 3).searchOne [1.0]).map Ranked.content ∧
      ((sampleScanner 1).searchMany [[2.0], []] 4).map (Except.map Ranked.content) =
        ((sampleScanner 3).searchMany [[2.0], []] 1).map (Except.map Ranked.content) := by
  have built (capacity : Nat) : (sampleScanner capacity).database.Built :=
    built_sampleDatabase capacity
  have hentries : (sampleScanner 1).database.entries = (sampleScanner 3).database.entries :=
    (entries_sampleDatabase 1).trans (entries_sampleDatabase 3).symm
  have halike := search_eq_of_entries_eq (built 1) (built 3) rfl hentries rfl rfl 4 1
  refine ⟨built 1, built 3, hentries, ?_, ?_, halike.1 [1.0], halike.2.2 [[2.0], []]⟩ <;>
    simp [sampleDatabase, Database.extended, Database.empty, filter_sampleStream, groupsOf]

end Scanner
end ProgramSearch
