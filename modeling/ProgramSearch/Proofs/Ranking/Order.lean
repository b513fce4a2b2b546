import ProgramSearch.Proofs.Sorting
import ProgramSearch.Ranking

/-!
# The order of a ranking

Scores compare as integers and places as pairs of numbers, so the order of a ranking is total and
transitive. Rows that come from different places are never equivalent in it; hence such rows have
exactly one ranking, and it is the stable sort of their scan by score alone.
-/
namespace ProgramSearch.Scored

theorem before_iff (a b : Scored) :
    a.before b = true ↔ orderKey b.score < orderKey a.score ∨
      orderKey a.score = orderKey b.score ∧
        (a.shard < b.shard ∨ a.shard = b.shard ∧ a.row ≤ b.row) := by
  simp only [before, bne_iff_ne, ne_eq]
  split
  · simp only [decide_eq_true_eq]
    omega
  · split <;> simp only [decide_eq_true_eq] <;> omega

theorem before_trans (a b c : Scored) (hab : a.before b) (hbc : b.before c) : a.before c := by
  rw [before_iff] at *
  omega

theorem before_total (a b : Scored) : a.before b || b.before a := by
  rw [Bool.or_eq_true, before_iff, before_iff]
  omega

/-- The place of `a` is met before that of `b` in a scan. -/
def Earlier (a b : Scored) : Prop := a.shard < b.shard ∨ a.shard = b.shard ∧ a.row < b.row

/-- No place holds two different rows. -/
def Placed (rows : List Scored) : Prop :=
  ∀ a ∈ rows, ∀ b ∈ rows, a.shard = b.shard → a.row = b.row → a = b

theorem Placed.subset {rows others : List Scored} (h : Placed rows) (hs : others ⊆ rows) :
    Placed others :=
  fun a ha b hb => h a (hs ha) b (hs hb)

theorem placed_of_earlier {rows : List Scored} (h : rows.Pairwise Earlier) : Placed rows := by
  induction rows with
  | nil => simp [Placed]
  | cons c rows ih =>
    rw [List.pairwise_cons] at h
    intro a ha b hb hs hr
    rcases List.mem_cons.mp ha with hac | ha <;> rcases List.mem_cons.mp hb with hbc | hb
    · rw [hac, hbc]
    · have := hac ▸ h.1 b hb
      unfold Earlier at this
      omega
    · have := hbc ▸ h.1 a ha
      unfold Earlier at this
      omega
    · exact ih h.2 a ha b hb hs hr

/-- Rows from different places are ranked in one way only. -/
theorem eq_of_perm_of_before {rows others : List Scored} (placed : Placed rows)
    (perm : rows.Perm others) (h : rows.Pairwise (before · ·)) (h' : others.Pairwise (before · ·)) :
    rows = others := by
  refine List.Perm.eq_of_pairwise (fun a b ha hb hab hba => ?_) h h' perm
  rw [before_iff] at hab hba
  exact placed a ha b (perm.mem_iff.mpr hb) (by omega) (by omega)

/-- The rows in the order of a ranking. -/
def ranking (rows : List Scored) : List Scored := rows.mergeSort before

theorem ranking_perm (rows : List Scored) : (ranking rows).Perm rows := List.mergeSort_perm _ _

theorem ranking_before (rows : List Scored) : (ranking rows).Pairwise (before · ·) :=
  List.pairwise_mergeSort before_trans before_total rows

@[simp] theorem length_ranking (rows : List Scored) : (ranking rows).length = rows.length :=
  (ranking_perm rows).length_eq

/-- Any ordered arrangement of the rows is their ranking. -/
theorem ranking_eq {rows others : List Scored} (placed : Placed rows) (perm : others.Perm rows)
    (h : others.Pairwise (before · ·)) : ranking rows = others :=
  (eq_of_perm_of_before (placed.subset perm.subset) (perm.trans (ranking_perm rows).symm) h
    (ranking_before rows)).symm

/-- The ranking of a whole is the merge of the rankings of its parts. -/
theorem ranking_append {rows others : List Scored} (placed : Placed (rows ++ others)) :
    ranking (rows ++ others) = (ranking rows).merge (ranking others) before := by
  apply ranking_eq placed
  · exact (List.merge_perm_append _).trans ((ranking_perm rows).append (ranking_perm others))
  · exact List.pairwise_merge before_trans before_total _ _ (ranking_before _) (ranking_before _)

/-- A score at least as high. -/
def notBelow (a b : Scored) : Bool := orderKey b.score ≤ orderKey a.score

/-- A stable sort by score leaves rows that were scanned in order in the order of a ranking. -/
theorem stable_sort_before {rows : List Scored} (h : rows.Pairwise Earlier) :
    (rows.mergeSort notBelow).Pairwise (before · ·) := by
  refine (pairwise_mergeSort_stable (byScore_trans score) (byScore_total score) h).imp ?_
  rintro a b ⟨hle, hties⟩
  rw [decide_eq_true_eq] at hle hties
  rw [before_iff]
  rcases Int.lt_or_eq_of_le hle with hlt | heq
  · exact .inl hlt
  · have hplace := hties (Int.le_of_eq heq.symm)
    exact .inr ⟨heq.symm, hplace.imp_right fun hrow => ⟨hrow.1, Nat.le_of_lt hrow.2⟩⟩

/-- A stable sort of a scan by score alone is the ranking of the scan. -/
theorem stable_sort_eq_ranking {rows : List Scored} (h : rows.Pairwise Earlier) :
    rows.mergeSort notBelow = ranking rows :=
  (ranking_eq (placed_of_earlier h) (List.mergeSort_perm _ _) (stable_sort_before h)).symm

end ProgramSearch.Scored
