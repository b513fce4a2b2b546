import ProgramSearch.Embedding

/-!
# Stable sorts

A stable sort leaves elements that it does not tell apart as they stood. Sorts by score compare the
patterns of scores, so their order is total.
-/
namespace ProgramSearch

variable {α : Type}

section Stable

variable {le : α → α → Bool} (trans : ∀ a b c, le a b → le b c → le a c)
  (total : ∀ a b, le a b || le b a)

include trans total

/-- The element that is sorted in last was met first, so it goes in front of its equals. -/
theorem pairwise_mergeSort_stable {R : α → α → Prop} {xs : List α} (h : xs.Pairwise R) :
    (xs.mergeSort le).Pairwise fun a b => le a b ∧ (le b a → R a b) := by
  induction xs with
  | nil => simp
  | cons a xs ih =>
    rw [List.pairwise_cons] at h
    obtain ⟨above, below, hsort, hrest, habove⟩ := List.mergeSort_cons trans total a xs
    have hle := List.pairwise_mergeSort trans total (a :: xs)
    have hinner := ih h.2
    rw [hsort, List.pairwise_append, List.pairwise_cons] at hle
    rw [hrest, List.pairwise_append] at hinner
    rw [hsort, List.pairwise_append, List.pairwise_cons]
    have hmet : ∀ b ∈ below, R a b := fun b hb =>
      h.1 b (List.mem_mergeSort.mp (hrest ▸ List.mem_append_right above hb))
    refine ⟨hinner.1, ⟨fun b hb => ⟨hle.2.1.1 b hb, fun _ => hmet b hb⟩, hinner.2.1⟩,
      fun b hb c hc => ?_⟩
    rcases List.mem_cons.mp hc with rfl | hc
    · refine ⟨hle.2.2 b hb c List.mem_cons_self, fun hback => ?_⟩
      have hfront := habove b hb
      rw [hback] at hfront
      contradiction
    · exact hinner.2.2 b hb c hc

end Stable

theorem zipIdx_index_lt (xs : List α) : xs.zipIdx.Pairwise (·.2 < ·.2) := by
  rw [← List.pairwise_map (f := Prod.snd) (R := (· < ·)), List.zipIdx_map_snd]
  exact List.pairwise_lt_range' 1

/-! ### Sorting by score -/

variable (score : α → Float32)

theorem byScore_trans (a b c : α) (hab : decide (orderKey (score b) ≤ orderKey (score a)))
    (hbc : decide (orderKey (score c) ≤ orderKey (score b))) :
    decide (orderKey (score c) ≤ orderKey (score a)) := by
  rw [decide_eq_true_eq] at *
  omega

theorem byScore_total (a b : α) : decide (orderKey (score b) ≤ orderKey (score a)) ||
    decide (orderKey (score a) ≤ orderKey (score b)) := by
  rw [Bool.or_eq_true, decide_eq_true_eq, decide_eq_true_eq]
  omega

end ProgramSearch
