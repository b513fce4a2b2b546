import ProgramSearch.Proofs.Ranking.Order

/-!
# Bounded queues and merging

What a bounded queue holds after a scan, and what a merge of ranked lists yields: in both cases a
beginning of the ranking of everything that was entered.
-/
namespace ProgramSearch.Scored

/-- `kept` are best rows among those scanned: the others rank behind them, and `limit` of them are
kept as soon as there are so many. -/
structure Best (limit : Nat) (kept scanned : List Scored) : Prop where
  others : ∃ left, (kept ++ left).Perm scanned ∧ ∀ a ∈ kept, ∀ b ∈ left, a.before b
  length : kept.length = min limit scanned.length

theorem best_nil (limit : Nat) : Best limit [] [] := ⟨⟨[], by simp, by simp⟩, by simp⟩

/-- A row that leaves a full queue ranks behind those that stay, and before those that left. -/
theorem Best.offer {limit : Nat} {kept scanned : List Scored} (h : Best limit kept scanned)
    (s : Scored) : Best limit (offer limit kept s) (s :: scanned) := by
  obtain ⟨left, perm, hbefore⟩ := h.others
  have hlen := h.length
  have hall := perm.length_eq
  rw [List.length_append] at hall
  by_cases room : kept.length < limit
  · have hleft : left = [] := List.eq_nil_of_length_eq_zero (by omega)
    rw [Scored.offer, if_pos room]
    refine ⟨⟨left, perm.cons s, by simp [hleft]⟩, ?_⟩
    simp only [List.length_cons]
    omega
  · rw [Scored.offer, if_neg room]
    have hperm := Queue.pop_perm (fun a b => b.before a) s kept
    have hlast := Queue.pop_le (fun a b => b.before a)
      (fun a b c hab hbc => before_trans c b a hbc hab) (fun a b => before_total b a) s kept
    generalize Queue.pop (fun a b => b.before a) s kept = taken at hperm hlast
    obtain ⟨worst, stay⟩ := taken
    have hcount := hperm.length_eq
    simp only [List.length_cons] at hcount
    refine ⟨⟨worst :: left, ?_, fun a ha b hb => ?_⟩, ?_⟩
    · exact List.perm_middle.trans ((hperm.append_right left).trans (perm.cons s))
    · have ha' : a ∈ s :: kept := hperm.subset (List.mem_cons_of_mem _ ha)
      rcases List.mem_cons.mp hb with rfl | hb
      · exact hlast a ha'
      · rcases List.mem_cons.mp (hperm.subset (List.mem_cons_self ..)) with rfl | hworst
        · exact hbefore a (hperm.cons_inv.subset ha) b hb
        · exact before_trans a worst b (hlast a ha') (hbefore worst hworst b hb)
    · simp only [List.length_cons]
      omega

theorem Best.perm {limit : Nat} {kept scanned others : List Scored} (h : Best limit kept scanned)
    (perm : scanned.Perm others) : Best limit kept others := by
  obtain ⟨left, hperm, hbefore⟩ := h.others
  exact ⟨⟨left, hperm.trans perm, hbefore⟩, perm.length_eq ▸ h.length⟩

theorem Best.foldl_offer {limit : Nat} {kept scanned : List Scored} (h : Best limit kept scanned)
    (rows : List Scored) :
    Best limit (rows.foldl (Scored.offer limit) kept) (rows ++ scanned) := by
  induction rows generalizing kept scanned with
  | nil => exact h
  | cons s rows ih => exact (ih (h.offer s)).perm List.perm_middle

/-- The best rows, put in order, are the beginning of the ranking. -/
theorem Best.ranking {limit : Nat} {kept scanned : List Scored} (h : Best limit kept scanned)
    (placed : Placed scanned) : ranking kept = (ranking scanned).take limit := by
  obtain ⟨left, perm, hbefore⟩ := h.others
  have hlen := h.length
  have hall := perm.length_eq
  rw [List.length_append] at hall
  have hsplit : Scored.ranking scanned = Scored.ranking kept ++ Scored.ranking left := by
    apply ranking_eq placed
    · exact ((ranking_perm kept).append (ranking_perm left)).trans perm
    · rw [List.pairwise_append]
      refine ⟨ranking_before kept, ranking_before left, fun a ha b hb => ?_⟩
      exact hbefore a ((ranking_perm kept).subset ha) b ((ranking_perm left).subset hb)
  rw [hsplit]
  by_cases room : scanned.length < limit
  · have hleft : left = [] := List.eq_nil_of_length_eq_zero (by omega)
    rw [List.take_of_length_le]
    · simp [hleft, Scored.ranking]
    · simp only [List.length_append, length_ranking]
      omega
  · have hkept : limit = (Scored.ranking kept).length := by
      rw [length_ranking]
      omega
    rw [hkept, List.take_left]

/-- What a bounded queue holds after a scan, put in order. -/
theorem ranking_foldl_offer (limit : Nat) {rows : List Scored} (placed : Placed rows) :
    ranking (rows.foldl (offer limit) []) = (ranking rows).take limit := by
  have hbest := (best_nil limit).foldl_offer rows
  rw [List.append_nil] at hbest
  exact hbest.ranking placed

/-- A row that ranks before all others is the first of the ranking. -/
theorem ranking_cons {rows others : List Scored} {best : Scored} (placed : Placed rows)
    (perm : (best :: others).Perm rows) (first : ∀ b ∈ rows, best.before b) :
    ranking rows = best :: ranking others := by
  apply ranking_eq placed (((ranking_perm others).cons best).trans perm)
  rw [List.pairwise_cons]
  refine ⟨fun b hb => first b (perm.subset ?_), ranking_before others⟩
  exact List.mem_cons_of_mem _ ((ranking_perm others).subset hb)

/-- The rows of the lists that a merge reads. -/
def headed (lists : List (Scored × List Scored)) : List Scored :=
  lists.flatMap fun list => list.1 :: list.2

/-- The first of the heads is the first of all rows, and the merge goes on with the others. -/
theorem mergeHeads_eq (limit : Nat) (lists : List (Scored × List Scored))
    (placed : Placed (headed lists))
    (sorted : ∀ list ∈ lists, (list.1 :: list.2).Pairwise (before · ·)) :
    mergeHeads limit lists = (ranking (headed lists)).take limit := by
  induction limit generalizing lists with
  | zero => simp [mergeHeads]
  | succ limit ih =>
    cases lists with
    | nil => simp [mergeHeads, headed, ranking]
    | cons list lists =>
      have hperm := Queue.pop_perm (fun a b => a.1.before b.1) list lists
      have hhead := Queue.pop_le (fun a b => a.1.before b.1)
        (fun a b c => before_trans a.1 b.1 c.1) (fun a b => before_total a.1 b.1) list lists
      rw [mergeHeads]
      generalize Queue.pop (fun a b => a.1.before b.1) list lists = taken at hperm hhead
      obtain ⟨⟨best, rest⟩, others⟩ := taken
      have hrows : (best :: (rest ++ headed others)).Perm (headed (list :: lists)) :=
        List.Perm.flatMap_right (fun source : Scored × List Scored => source.1 :: source.2) hperm
      have hfirst : ∀ b ∈ headed (list :: lists), best.before b := by
        intro b hb
        obtain ⟨source, hsource, hb⟩ := List.mem_flatMap.mp hb
        rcases List.mem_cons.mp hb with rfl | hb
        · exact hhead source hsource
        · exact before_trans _ _ _ (hhead source hsource)
            (List.rel_of_pairwise_cons (sorted source hsource) hb)
      have hplaced : Placed (rest ++ headed others) :=
        placed.subset fun b hb => hrows.subset (List.mem_cons_of_mem _ hb)
      have hothers : ∀ other ∈ others, (other.1 :: other.2).Pairwise (before · ·) :=
        fun other ho => sorted other (hperm.subset (List.mem_cons_of_mem _ ho))
      rw [ranking_cons placed hrows hfirst, List.take_succ_cons]
      cases rest with
      | nil => exact congrArg (best :: ·) (ih others hplaced hothers)
      | cons next rest =>
        refine congrArg (best :: ·) (ih ((next, rest) :: others) hplaced fun other ho => ?_)
        rcases List.mem_cons.mp ho with rfl | ho
        · exact (sorted _ (hperm.subset (List.mem_cons_self ..))).of_cons
        · exact hothers other ho

theorem headed_filterMap (lists : List (List Scored)) :
    headed (lists.filterMap headed?) = lists.flatten := by
  induction lists with
  | nil => rfl
  | cons list lists ih =>
    cases list with
    | nil => exact ih
    | cons s rest =>
      simp only [List.flatten_cons, ← ih]
      rfl

/-- A merge of ranked lists yields the beginning of the ranking of all their rows. -/
theorem merge_eq (limit : Nat) (lists : List (List Scored)) (placed : Placed lists.flatten)
    (sorted : ∀ list ∈ lists, list.Pairwise (before · ·)) :
    merge limit lists = (ranking lists.flatten).take limit := by
  rw [← headed_filterMap] at placed ⊢
  apply mergeHeads_eq limit _ placed
  intro source hsource
  obtain ⟨list, hlist, heq⟩ := List.mem_filterMap.mp hsource
  cases list with
  | nil => simp [headed?] at heq
  | cons s rest =>
    obtain rfl : (s, rest) = source := Option.some.inj heq
    exact sorted _ hlist

end ProgramSearch.Scored
