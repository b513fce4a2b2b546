import ProgramSearch.Evaluation.Precision

/-!
# First hits over a run

What the counters of first hits hold after any number of queries. A query without a match has the
rank `topK`, and a rank is compared with every cut-off, so such a query is counted at the cut-offs
above `topK`, where no hit of it lies.
-/
namespace ProgramSearch

namespace KindTotals

/-- A rank lies below a cut-off if there is a match among the first hits, or if there is none at
all and the rank that stands for none lies below. -/
theorem firstRank_lt_iff (topK p : Nat) (hits : List Bool) :
    firstRank topK hits < p ↔ (hits.take p).any id = true ∨ hits.any id = false ∧ topK < p := by
  simp only [List.any_eq_true, List.any_eq_false, id_eq, exists_eq_right]
  rw [firstRank]
  cases h : hits.idxOf? true with
  | none =>
    have hmem : true ∉ hits := List.idxOf?_eq_none_iff.mp h
    have htake : true ∉ hits.take p := fun hm => hmem (List.mem_of_mem_take hm)
    have hnone : ∀ x ∈ hits, ¬ x = true := fun x hx hxt => hmem (hxt ▸ hx)
    simp only [Option.getD_none, htake, false_or]
    exact ⟨fun hp => ⟨hnone, hp⟩, fun hp => hp.2⟩
  | some i =>
    obtain ⟨hlt, hget, hfirst⟩ := List.idxOf?_eq_some_iff.mp h
    have hmem : true ∈ hits := List.mem_of_getElem hget
    rw [Option.getD_some, List.mem_take_iff_getElem]
    constructor
    · intro hp
      exact .inl ⟨i, by omega, hget⟩
    · rintro (⟨j, hj, hjget⟩ | ⟨hnone, -⟩)
      · by_cases hij : j < i
        · exact absurd hjget (hfirst j hij)
        · omega
      · exact absurd rfl (hnone true hmem)

end KindTotals

namespace PrecisionTracker

/-- The tracker after queries, each with its ranked records. -/
def recordAll (t : PrecisionTracker) (queries : List (Desired × List Record)) : PrecisionTracker :=
  queries.foldl (fun t q => (t.record q.1 q.2).1) t

/-- The queries that have a matching hit among their first `p` hits. -/
def hitsWithin (kind : MatchKind) (p : Nat) (queries : List (Desired × List Record)) : Nat :=
  queries.countP fun q => (q.2.take p).any (q.1.fits kind)

/-- The queries that have no matching hit. -/
def unmatched (kind : MatchKind) (queries : List (Desired × List Record)) : Nat :=
  queries.countP fun q => !q.2.any (q.1.fits kind)

variable (kind : MatchKind)

theorem hitsWithin_cons (p : Nat) (q : Desired × List Record)
    (queries : List (Desired × List Record)) :
    hitsWithin kind p (q :: queries) = hitsWithin kind p [q] + hitsWithin kind p queries := by
  have h : q :: queries = [q] ++ queries := rfl
  rw [h, hitsWithin, List.countP_append]
  rfl

theorem unmatched_cons (q : Desired × List Record) (queries : List (Desired × List Record)) :
    unmatched kind (q :: queries) = unmatched kind [q] + unmatched kind queries := by
  have h : q :: queries = [q] ++ queries := rfl
  rw [h, unmatched, List.countP_append]
  rfl

theorem totals_record (t : PrecisionTracker) (d : Desired) (records : List Record) :
    (t.record d records).1.totals kind =
      (t.totals kind).record t.topK t.hitPoints (records.map (d.fits kind)) := by
  cases kind <;> rfl

/-- One query adds to the counters at the cut-offs above the rank of its first match. -/
theorem firstHits_record (t : PrecisionTracker) {n : Nat → Nat}
    (h : (t.totals kind).firstHits = t.hitPoints.map n) (q : Desired × List Record) :
    ((t.record q.1 q.2).1.totals kind).firstHits = t.hitPoints.map fun p =>
      n p + hitsWithin kind p [q] + if t.topK < p then unmatched kind [q] else 0 := by
  rw [totals_record, KindTotals.record, h, List.zipWith_map_left, List.zipWith_self]
  apply List.map_congr_left
  intro p _
  have hrank := KindTotals.firstRank_lt_iff t.topK p (q.2.map (q.1.fits kind))
  rw [← List.map_take, List.any_map, List.any_map, Function.id_comp] at hrank
  simp only [hrank, hitsWithin, unmatched, List.countP_cons, List.countP_nil, Nat.zero_add]
  cases hwithin : (q.2.take p).any (q.1.fits kind) with
  | true =>
    obtain ⟨r, hr, hfits⟩ := List.any_eq_true.mp hwithin
    have hany : q.2.any (q.1.fits kind) = true :=
      List.any_eq_true.mpr ⟨r, List.mem_of_mem_take hr, hfits⟩
    simp [hany]
  | false =>
    cases hany : q.2.any (q.1.fits kind) with
    | true => simp
    | false => simp; split <;> rfl

/-- A run keeps the cut-offs, and its counters grow by what its queries add. -/
theorem firstHits_recordAll (queries : List (Desired × List Record)) (t : PrecisionTracker)
    {n : Nat → Nat} (h : (t.totals kind).firstHits = t.hitPoints.map n) :
    ((t.recordAll queries).totals kind).firstHits = t.hitPoints.map fun p =>
      n p + hitsWithin kind p queries + if t.topK < p then unmatched kind queries else 0 := by
  induction queries generalizing t n with
  | nil => simpa [recordAll, hitsWithin, unmatched] using h
  | cons q queries ih =>
    have hstep := firstHits_record kind t h q
    have hrun := ih (t.record q.1 q.2).1 hstep
    rw [recordAll, List.foldl_cons]
    refine hrun.trans ?_
    apply List.map_congr_left
    intro p _
    have htopK : (t.record q.1 q.2).1.topK = t.topK := rfl
    rw [hitsWithin_cons kind p q queries, unmatched_cons kind q queries, htopK]
    split <;> omega

theorem queries_recordAll (queries : List (Desired × List Record)) (t : PrecisionTracker) :
    (t.recordAll queries).queries = t.queries + queries.length := by
  induction queries generalizing t with
  | nil => rfl
  | cons q queries ih =>
    have hrun := ih (t.record q.1 q.2).1
    rw [recordAll, List.foldl_cons]
    refine hrun.trans ?_
    have hstep : (t.record q.1 q.2).1.queries = t.queries + 1 := rfl
    rw [hstep, List.length_cons]
    omega

/-- The share of a report is taken over all queries of the run. -/
theorem firstHitShare_report (t : PrecisionTracker) {r : KindReport} (h : r ∈ t.report.kinds) :
    r.firstHitShare =
      (t.totals r.kind).firstHits.map fun n => ratio n.toFloat t.queries.toFloat := by
  simp only [report, List.mem_map] at h
  obtain ⟨kind, -, rfl⟩ := h
  rfl

/-- The counters of a run: at the cut-offs above `topK` also the queries without a match count.
They count the queries with a match within each cut-off exactly if there is no such cut-off or no
such query. -/
theorem firstHits_eq (topK : Nat) (points : List Nat) (queries : List (Desired × List Record)) :
    (((start topK points).recordAll queries).totals kind).firstHits = points.map (fun p =>
        hitsWithin kind p queries + if max topK 1 < p then unmatched kind queries else 0) ∧
      ((((start topK points).recordAll queries).totals kind).firstHits =
          points.map (fun p => hitsWithin kind p queries) ↔
        (∀ p ∈ points, p ≤ max topK 1) ∨ unmatched kind queries = 0) ∧
      ∀ r ∈ ((start topK points).recordAll queries).report.kinds, r.kind = kind →
        r.firstHitShare = (((start topK points).recordAll queries).totals kind).firstHits.map
          fun n => ratio n.toFloat queries.length.toFloat := by
  have hempty : ((start topK points).totals kind).firstHits = points.map fun _ => 0 := by
    cases kind <;> rfl
  have hrun : (((start topK points).recordAll queries).totals kind).firstHits =
      points.map fun p => 0 + hitsWithin kind p queries +
        if max topK 1 < p then unmatched kind queries else 0 :=
    firstHits_recordAll kind queries (start topK points) hempty
  simp only [Nat.zero_add] at hrun
  refine ⟨hrun, ?_, ?_⟩
  · rw [hrun, List.map_inj_left]
    constructor
    · intro h
      by_cases hu : unmatched kind queries = 0
      · exact .inr hu
      · refine .inl fun p hp => ?_
        have hpoint := h p hp
        by_cases hlt : max topK 1 < p
        · rw [if_pos hlt] at hpoint
          omega
        · omega
    · rintro (h | h) p hp
      · rw [if_neg (Nat.not_lt.mpr (h p hp)), Nat.add_zero]
      · simp [h]
  · rintro r hr rfl
    have hqueries : ((start topK points).recordAll queries).queries = queries.length :=
      (queries_recordAll queries (start topK points)).trans (Nat.zero_add _)
    rw [firstHitShare_report _ hr, hqueries]

/-- A query with one hit, which does not match. -/
def strayQuery : Desired × List Record :=
  (⟨0, ["open"], [], none⟩, [⟨"A.java", "m", "", ⟨["close"], [], none⟩⟩])

/-- Above `topK` such a query is counted, though it has no match. -/
theorem firstHits_counts_unmatched :
    (((start 3 [2, 5]).recordAll [strayQuery]).totals .api).firstHits = [0, 1] ∧
      [2, 5].map (fun p => hitsWithin .api p [strayQuery]) = [0, 0] := by
  constructor <;> rfl

end PrecisionTracker
end ProgramSearch
