import ProgramSearch.Proofs.Double.Whole
import ProgramSearch.Proofs.Evaluation.FirstHits

/-!
# Counters over a run

The counters of a run are sums over its queries, so they depend neither on the order of the queries
nor on how a run is cut in two. The total of the ranks is kept in double precision: it is such a
sum as long as double precision has it, and depends on the order above that. A rank is counted from
one in 64 bits, which the rank of a query without a match may exceed.
-/
namespace ProgramSearch

/-- The rank of one kind. -/
def FirstRanks.of (r : FirstRanks) : MatchKind → Nat
  | .api => r.api
  | .sequence => r.sequence
  | .ast => r.ast
  | .body => r.body

theorem KindTotals.place_of_lt {rank : Nat} (h : rank < 2 ^ 64 - 1) :
    KindTotals.place rank = rank + 1 :=
  Nat.mod_eq_of_lt (show rank + 1 < 2 ^ 64 by omega)

/-- The greatest number of 64 bits is followed by zero. -/
example : KindTotals.place (2 ^ 64 - 1) = 0 := rfl

namespace PrecisionTracker

/-- What is returned for the queries of a run, one after another. -/
def returned (t : PrecisionTracker) : List (Desired × List Record) → List FirstRanks
  | [] => []
  | q :: rest => (t.record q.1 q.2).2 :: (t.record q.1 q.2).1.returned rest

/-- The rank of a query: the place of its first match, or `topK` if there is none. -/
inductive IsFirstRank (topK : Nat) (kind : MatchKind) (q : Desired × List Record) : Nat → Prop where
  | hit {rank : Nat} {r : Record} (place : q.2[rank]? = some r) (fits : q.1.fits kind r = true)
    (first : ∀ r' ∈ q.2.take rank, q.1.fits kind r' = false) : IsFirstRank topK kind q rank
  | none (unmatched : ∀ r ∈ q.2, q.1.fits kind r = false) : IsFirstRank topK kind q topK

variable (kind : MatchKind)

/-- The matching hits among the first `p` hits of each query. -/
def matchesWithin (p : Nat) (queries : List (Desired × List Record)) : Nat :=
  (queries.map fun q => (q.2.take p).countP (q.1.fits kind)).sum

/-- The ranks that a run returns, counted from one and added up. -/
def rankSum (t : PrecisionTracker) (queries : List (Desired × List Record)) : Nat :=
  ((t.returned queries).map fun r => r.of kind + 1).sum

/-! ### Ranks -/

theorem isFirstRank_firstRank (topK : Nat) (q : Desired × List Record) :
    IsFirstRank topK kind q (KindTotals.firstRank topK (q.2.map (q.1.fits kind))) := by
  rw [KindTotals.firstRank]
  cases h : (q.2.map (q.1.fits kind)).idxOf? true with
  | none =>
    have hmem := List.idxOf?_eq_none_iff.mp h
    refine .none fun r hr => Bool.eq_false_iff.mpr fun hfits => hmem ?_
    exact List.mem_map.mpr ⟨r, hr, hfits⟩
  | some rank =>
    obtain ⟨hlt, hget, hfirst⟩ := List.idxOf?_eq_some_iff.mp h
    rw [List.length_map] at hlt
    rw [List.getElem_map] at hget
    rw [Option.getD_some]
    refine .hit (List.getElem?_eq_getElem hlt) hget fun r hr => ?_
    obtain ⟨j, hj, rfl⟩ := List.mem_take_iff_getElem.mp hr
    simpa using hfirst j (by omega)

variable {kind} in
/-- A rank is a place among the hits unless it is `topK`. -/
theorem IsFirstRank.lt {topK rank bound : Nat} {q : Desired × List Record}
    (h : IsFirstRank topK kind q rank) (htop : topK < bound) (hlength : q.2.length ≤ bound) :
    rank < bound := by
  cases h with
  | hit place => exact Nat.lt_of_lt_of_le (List.getElem?_eq_some_iff.mp place).1 hlength
  | none => exact htop

theorem of_record (t : PrecisionTracker) (q : Desired × List Record) :
    (t.record q.1 q.2).2.of kind = KindTotals.firstRank t.topK (q.2.map (q.1.fits kind)) := by
  cases kind <;> rfl

theorem of_returned (t : PrecisionTracker) (queries : List (Desired × List Record)) :
    (t.returned queries).map (·.of kind) =
      queries.map fun q => KindTotals.firstRank t.topK (q.2.map (q.1.fits kind)) := by
  induction queries generalizing t with
  | nil => rfl
  | cons q rest ih =>
    have hrest := ih (t.record q.1 q.2).1
    rw [returned, List.map_cons, List.map_cons, of_record, hrest]
    rfl

theorem rankSum_eq (t : PrecisionTracker) (queries : List (Desired × List Record)) :
    t.rankSum kind queries =
      (queries.map fun q => KindTotals.firstRank t.topK (q.2.map (q.1.fits kind)) + 1).sum := by
  have hranks := congrArg (fun ranks => (ranks.map (· + 1)).sum) (of_returned kind t queries)
  simpa only [List.map_map, rankSum, Function.comp_def] using hranks

theorem rankSum_cons (t : PrecisionTracker) (q : Desired × List Record)
    (rest : List (Desired × List Record)) :
    t.rankSum kind (q :: rest) =
      KindTotals.firstRank t.topK (q.2.map (q.1.fits kind)) + 1 + t.rankSum kind rest := by
  rw [rankSum_eq, rankSum_eq, List.map_cons, List.sum_cons]

theorem rankSum_append (t : PrecisionTracker) (queries queries' : List (Desired × List Record)) :
    t.rankSum kind (queries ++ queries') = t.rankSum kind queries + t.rankSum kind queries' := by
  rw [rankSum_eq, rankSum_eq, rankSum_eq, List.map_append, List.sum_append_nat]

theorem rankSum_perm (t : PrecisionTracker) {queries queries' : List (Desired × List Record)}
    (h : queries.Perm queries') : t.rankSum kind queries = t.rankSum kind queries' := by
  rw [rankSum_eq, rankSum_eq]
  exact (h.map _).sum_nat

/-- The ranks, counted from one, are added up in order if 64 bits have all of them. -/
theorem rankTotal_eq_foldl (queries : List (Desired × List Record)) (t : PrecisionTracker)
    (htop : t.topK < 2 ^ 64 - 1) (hlength : ∀ q ∈ queries, q.2.length < 2 ^ 64) :
    ((t.recordAll queries).totals kind).rankTotal =
      (t.returned queries).foldl (fun total r => total + (r.of kind + 1).toFloat)
        (t.totals kind).rankTotal := by
  induction queries generalizing t with
  | nil => rfl
  | cons q rest ih =>
    rw [List.forall_mem_cons] at hlength
    have hrank : KindTotals.firstRank t.topK (q.2.map (q.1.fits kind)) < 2 ^ 64 - 1 :=
      (isFirstRank_firstRank kind t.topK q).lt htop (by omega)
    have hstep : ((t.record q.1 q.2).1.totals kind).rankTotal =
        (t.totals kind).rankTotal + ((t.record q.1 q.2).2.of kind + 1).toFloat := by
      rw [totals_record, of_record, KindTotals.record, KindTotals.place_of_lt hrank]
    rw [returned, List.foldl_cons, ← hstep]
    exact ih (t.record q.1 q.2).1 htop hlength.2

/-- In double precision the total is the sum of the ranks as long as that has it. -/
theorem rankTotal_recordAll (queries : List (Desired × List Record)) (t : PrecisionTracker)
    {n : Nat} (h : (t.totals kind).rankTotal = n.toFloat)
    (bound : n + t.rankSum kind queries ≤ 2 ^ 53) :
    ((t.recordAll queries).totals kind).rankTotal = (n + t.rankSum kind queries).toFloat := by
  induction queries generalizing t n with
  | nil => exact h
  | cons q rest ih =>
    -- Ranks only add to the sum, so its bound is one for all sums on the way.
    rw [rankSum_cons, ← Nat.add_assoc] at bound ⊢
    have hrank : KindTotals.firstRank t.topK (q.2.map (q.1.fits kind)) < 2 ^ 64 - 1 := by omega
    have hstep : ((t.record q.1 q.2).1.totals kind).rankTotal =
        (n + (KindTotals.firstRank t.topK (q.2.map (q.1.fits kind)) + 1)).toFloat := by
      rw [totals_record, KindTotals.record, h, KindTotals.place_of_lt hrank]
      exact Double.toFloat_add (Nat.le_trans (Nat.le_add_right _ _) bound)
    have hrest : (t.record q.1 q.2).1.rankSum kind rest = t.rankSum kind rest := by
      rw [rankSum_eq, rankSum_eq]
      rfl
    have hrun := ih (t.record q.1 q.2).1 hstep (by rwa [hrest])
    rw [hrest] at hrun
    exact hrun

/-! ### Matches -/

theorem matchesWithin_cons (p : Nat) (q : Desired × List Record)
    (rest : List (Desired × List Record)) :
    matchesWithin kind p (q :: rest) =
      (q.2.take p).countP (q.1.fits kind) + matchesWithin kind p rest := by
  rw [matchesWithin, List.map_cons, List.sum_cons, matchesWithin]

theorem matchesWithin_append (p : Nat) (queries queries' : List (Desired × List Record)) :
    matchesWithin kind p (queries ++ queries') =
      matchesWithin kind p queries + matchesWithin kind p queries' := by
  rw [matchesWithin, List.map_append, List.sum_append_nat, matchesWithin, matchesWithin]

theorem matchesWithin_perm (p : Nat) {queries queries' : List (Desired × List Record)}
    (h : queries.Perm queries') : matchesWithin kind p queries = matchesWithin kind p queries' :=
  (h.map _).sum_nat

theorem matchesWithin_le (p : Nat) (queries : List (Desired × List Record)) :
    matchesWithin kind p queries ≤ p * queries.length := by
  induction queries with
  | nil => exact Nat.le_refl 0
  | cons q rest ih =>
    have hfirst : (q.2.take p).countP (q.1.fits kind) ≤ p :=
      Nat.le_trans List.countP_le_length (List.length_take_le p q.2)
    rw [matchesWithin_cons, List.length_cons, Nat.mul_succ]
    omega

theorem matchesWithin_mono {p p' : Nat} (h : p ≤ p') (queries : List (Desired × List Record)) :
    matchesWithin kind p queries ≤ matchesWithin kind p' queries := by
  induction queries with
  | nil => exact Nat.le_refl 0
  | cons q rest ih =>
    rw [matchesWithin_cons, matchesWithin_cons]
    exact Nat.add_le_add ((List.take_sublist_take_left h).countP_le) ih

theorem matchCounts_recordAll (queries : List (Desired × List Record)) (t : PrecisionTracker)
    {n : Nat → Nat} (h : (t.totals kind).matchCounts = t.hitPoints.map n) :
    ((t.recordAll queries).totals kind).matchCounts =
      t.hitPoints.map fun p => n p + matchesWithin kind p queries := by
  induction queries generalizing t n with
  | nil => exact h
  | cons q rest ih =>
    have hstep : ((t.record q.1 q.2).1.totals kind).matchCounts =
        t.hitPoints.map fun p => n p + (q.2.take p).countP (q.1.fits kind) := by
      rw [totals_record, KindTotals.record, h, List.zipWith_map_left, List.zipWith_self]
      refine List.map_congr_left fun p _ => ?_
      rw [← List.map_take, List.countP_map, Function.id_comp]
    refine (ih (t.record q.1 q.2).1 hstep).trans ?_
    refine List.map_congr_left fun p _ => ?_
    rw [matchesWithin_cons, Nat.add_assoc]

/-! ### First hits -/

/-- What the counter of first hits holds at a cut-off. -/
def firstHitsWithin (topK p : Nat) (queries : List (Desired × List Record)) : Nat :=
  hitsWithin kind p queries + if max topK 1 < p then unmatched kind queries else 0

theorem firstHitsWithin_append (topK p : Nat) (queries queries' : List (Desired × List Record)) :
    firstHitsWithin kind topK p (queries ++ queries') =
      firstHitsWithin kind topK p queries + firstHitsWithin kind topK p queries' := by
  simp only [firstHitsWithin, hitsWithin, unmatched, List.countP_append]
  split <;> omega

theorem firstHitsWithin_perm (topK p : Nat) {queries queries' : List (Desired × List Record)}
    (h : queries.Perm queries') :
    firstHitsWithin kind topK p queries = firstHitsWithin kind topK p queries' := by
  rw [firstHitsWithin, firstHitsWithin, hitsWithin, hitsWithin, unmatched, unmatched,
    h.countP_eq, h.countP_eq]

/-! ### Runs from the start -/

section Run

variable (topK : Nat) (points : List Nat) (queries : List (Desired × List Record))

theorem firstHits_run :
    (((start topK points).recordAll queries).totals kind).firstHits =
      points.map (firstHitsWithin kind topK · queries) := by
  have hempty : ((start topK points).totals kind).firstHits = points.map fun _ => 0 := by
    cases kind <;> rfl
  refine (firstHits_recordAll kind queries (start topK points) hempty).trans ?_
  refine List.map_congr_left fun p _ => ?_
  rw [Nat.zero_add]
  rfl

theorem matchCounts_run :
    (((start topK points).recordAll queries).totals kind).matchCounts =
      points.map (matchesWithin kind · queries) := by
  have hempty : ((start topK points).totals kind).matchCounts = points.map fun _ => 0 := by
    cases kind <;> rfl
  refine (matchCounts_recordAll kind queries (start topK points) hempty).trans ?_
  exact List.map_congr_left fun p _ => Nat.zero_add _

theorem rankTotal_run {topK : Nat} {points : List Nat} {queries : List (Desired × List Record)}
    (bound : (start topK points).rankSum kind queries ≤ 2 ^ 53) :
    (((start topK points).recordAll queries).totals kind).rankTotal =
      ((start topK points).rankSum kind queries).toFloat := by
  have hempty : ((start topK points).totals kind).rankTotal = (0 : Nat).toFloat := by
    cases kind <;> rfl
  have hrun := rankTotal_recordAll kind queries (start topK points) hempty
  rw [Nat.zero_add] at hrun
  exact hrun bound

theorem isFirstRank_returned (t : PrecisionTracker) :
    (t.returned queries).length = queries.length ∧
      ∀ p ∈ queries.zip (t.returned queries), IsFirstRank t.topK kind p.1 (p.2.of kind) := by
  induction queries generalizing t with
  | nil => exact ⟨rfl, by simp⟩
  | cons q rest ih =>
    obtain ⟨hlength, hranks⟩ := ih (t.record q.1 q.2).1
    refine ⟨congrArg (· + 1) hlength, ?_⟩
    rw [returned, List.zip_cons_cons, List.forall_mem_cons, of_record]
    exact ⟨isFirstRank_firstRank kind t.topK q, hranks⟩

theorem queries_run : ((start topK points).recordAll queries).queries = queries.length := by
  rw [queries_recordAll]
  exact Nat.zero_add _

variable {topK points queries} {queries' : List (Desired × List Record)}

/-- As long as double precision has the total, the order of the queries does not show in it. -/
theorem rankTotal_perm (h : queries.Perm queries')
    (bound : (start topK points).rankSum kind queries ≤ 2 ^ 53) :
    (((start topK points).recordAll queries').totals kind).rankTotal =
      (((start topK points).recordAll queries).totals kind).rankTotal := by
  have hsum := rankSum_perm kind (start topK points) h
  rw [rankTotal_run kind bound, rankTotal_run kind (hsum ▸ bound), hsum]

theorem rankTotal_append
    (bound : (start topK points).rankSum kind (queries ++ queries') ≤ 2 ^ 53) :
    (((start topK points).recordAll (queries ++ queries')).totals kind).rankTotal =
      (((start topK points).recordAll queries).totals kind).rankTotal +
        (((start topK points).recordAll queries').totals kind).rankTotal := by
  have hsum := rankSum_append kind (start topK points) queries queries'
  have hfirst : (start topK points).rankSum kind queries ≤ 2 ^ 53 := by omega
  have hsecond : (start topK points).rankSum kind queries' ≤ 2 ^ 53 := by omega
  rw [rankTotal_run kind bound, hsum, rankTotal_run kind hfirst, rankTotal_run kind hsecond,
    Double.toFloat_add (hsum ▸ bound)]

end Run

/-- What a run returns and counts, for each kind. Each query has the rank of its first match. At
each cut-off the matching hits are counted, which are no more than the cut-off allows and grow with
it. The ranks, counted from one, are added up in order and in double precision if `topK` is not the
greatest number of 64 bits; as long as double precision has the sum, it is the total. Another order
of the queries leaves the counters as they are, and those of two runs, one after the other, add up;
for the total of the ranks under the same bound. -/
theorem counters_of_run (topK : Nat) (points : List Nat) (queries : List (Desired × List Record)) :
    let before := start topK points
    let after := before.recordAll queries
    ((before.returned queries).length = queries.length ∧
      ∀ p ∈ queries.zip (before.returned queries),
        IsFirstRank (max topK 1) kind p.1 (p.2.of kind)) ∧
    (after.totals kind).matchCounts = points.map (matchesWithin kind · queries) ∧
    (∀ p, matchesWithin kind p queries ≤ p * queries.length) ∧
    (∀ p p', p ≤ p' → matchesWithin kind p queries ≤ matchesWithin kind p' queries) ∧
    (topK < 2 ^ 64 - 1 → (∀ q ∈ queries, q.2.length < 2 ^ 64) →
      (after.totals kind).rankTotal =
        (before.returned queries).foldl (fun total r => total + (r.of kind + 1).toFloat) 0) ∧
    (before.rankSum kind queries ≤ 2 ^ 53 →
      (after.totals kind).rankTotal = (before.rankSum kind queries).toFloat) ∧
    (∀ queries', queries.Perm queries' →
      let other := before.recordAll queries'
      other.queries = after.queries ∧
      (other.totals kind).firstHits = (after.totals kind).firstHits ∧
      (other.totals kind).matchCounts = (after.totals kind).matchCounts ∧
      (before.rankSum kind queries ≤ 2 ^ 53 →
        (other.totals kind).rankTotal = (after.totals kind).rankTotal)) ∧
    ∀ queries',
      let other := before.recordAll queries'
      let both := before.recordAll (queries ++ queries')
      both.queries = after.queries + other.queries ∧
      (both.totals kind).firstHits =
        List.zipWith (· + ·) (after.totals kind).firstHits (other.totals kind).firstHits ∧
      (both.totals kind).matchCounts =
        List.zipWith (· + ·) (after.totals kind).matchCounts (other.totals kind).matchCounts ∧
      (before.rankSum kind (queries ++ queries') ≤ 2 ^ 53 →
        (both.totals kind).rankTotal =
          (after.totals kind).rankTotal + (other.totals kind).rankTotal) := by
  intro before after
  refine ⟨isFirstRank_returned kind queries before, matchCounts_run kind topK points queries,
    (matchesWithin_le kind · queries), fun p p' h => matchesWithin_mono kind h queries,
    fun htop hlength => ?_, rankTotal_run kind, fun queries' h => ?_, fun queries' => ?_⟩
  · have hbefore : before.topK < 2 ^ 64 - 1 := by
      show max topK 1 < 2 ^ 64 - 1
      omega
    rw [rankTotal_eq_foldl kind queries before hbefore hlength]
    cases kind <;> rfl
  · intro other
    refine ⟨?_, ?_, ?_, rankTotal_perm kind h⟩
    · simp only [other, after, before, queries_run, h.length_eq]
    · simp only [other, after, before, firstHits_run, firstHitsWithin_perm kind topK _ h]
    · simp only [other, after, before, matchCounts_run, matchesWithin_perm kind _ h]
  · intro other both
    refine ⟨?_, ?_, ?_, rankTotal_append kind⟩
    · simp only [both, other, after, before, queries_run, List.length_append]
    · simp only [both, other, after, before, firstHits_run, List.zipWith_map, List.zipWith_self,
        firstHitsWithin_append]
    · simp only [both, other, after, before, matchCounts_run, List.zipWith_map, List.zipWith_self,
        matchesWithin_append]

/-- A query whose only hit matches. -/
def foundQuery : Desired × List Record :=
  (⟨0, ["open"], [], none⟩, [⟨"A.java", "m", "", ⟨["open"], [], none⟩⟩])

/-- A query without a match and one with a match, in both orders and one run after the other. -/
theorem counters_of_two_queries :
    let before := start 3 [2, 5]
    let queries := [strayQuery, foundQuery]
    2 ≤ 5 ∧ matchesWithin .api 2 queries ≤ matchesWithin .api 5 queries ∧
      3 < 2 ^ 64 - 1 ∧ (∀ q ∈ queries, q.2.length < 2 ^ 64) ∧
      ((before.recordAll queries).totals .api).rankTotal =
        (before.returned queries).foldl (fun total r => total + (r.of .api + 1).toFloat) 0 ∧
      queries.Perm queries.reverse ∧
      before.rankSum .api (queries ++ queries.reverse) ≤ 2 ^ 53 ∧
      ((before.recordAll queries).totals .api).rankTotal = (5 : Nat).toFloat ∧
      ((before.recordAll queries.reverse).totals .api).rankTotal = (5 : Nat).toFloat ∧
      ((before.recordAll (queries ++ queries.reverse)).totals .api).rankTotal =
        (5 : Nat).toFloat + (5 : Nat).toFloat := by
  intro before queries
  have hgrows : 2 ≤ 5 := by decide
  have htop : 3 < 2 ^ 64 - 1 := by decide
  have hlength : ∀ q ∈ queries, q.2.length < 2 ^ 64 := by simp [queries, strayQuery, foundQuery]
  have hperm : queries.Perm queries.reverse := (List.reverse_perm queries).symm
  have hsum : before.rankSum .api queries ≤ 2 ^ 53 := by decide
  have hboth : before.rankSum .api (queries ++ queries.reverse) ≤ 2 ^ 53 := by decide
  obtain ⟨-, -, -, hmono, hfold, htotal, horder, happend⟩ := counters_of_run .api 3 [2, 5] queries
  have hfirst : ((before.recordAll queries).totals .api).rankTotal = (5 : Nat).toFloat :=
    htotal hsum
  have hsecond := ((horder queries.reverse hperm).2.2.2 hsum).trans hfirst
  refine ⟨hgrows, hmono 2 5 hgrows, htop, hlength, hfold htop hlength, hperm, hboth, hfirst,
    hsecond, ?_⟩
  rw [(happend queries.reverse).2.2.2 hboth, hfirst, hsecond]

/-- With a large `topK` the order shows. Behind the large rank of a query without a match the ranks
of two queries with a match are lost, and in front of it they are not. -/
theorem rankTotal_depends_on_order :
    let before := start (2 ^ 53 - 1) [1]
    let queries := [strayQuery, foundQuery, foundQuery]
    (∀ q ∈ queries, q.2.length ≤ 2 ^ 53 - 1) ∧ queries.Perm queries.reverse ∧
      before.rankSum .api queries = 2 ^ 53 + 2 ∧
      ((before.recordAll queries).totals .api).rankTotal = (2 ^ 53 : Nat).toFloat ∧
      ((before.recordAll queries.reverse).totals .api).rankTotal = (2 ^ 53 + 2 : Nat).toFloat ∧
      (2 ^ 53 : Nat).toFloat ≠ (2 ^ 53 + 2 : Nat).toFloat := by
  refine ⟨?_, (List.reverse_perm _).symm, rfl, rfl, rfl, by decide⟩
  simp [strayQuery, foundQuery]

end PrecisionTracker
end ProgramSearch
