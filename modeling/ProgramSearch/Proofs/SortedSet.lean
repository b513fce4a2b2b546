import Mathlib.Data.List.Nodup
import ProgramSearch.Evidence

/-!
# Sorted sets of texts

The texts of a list, each once and in increasing order. Such lists are sets: two of them are equal
exactly if they have the same texts.
-/
namespace ProgramSearch

variable {s : String} {xs ys : List String}

theorem mem_dedupAdjacent : s ∈ dedupAdjacent xs ↔ s ∈ xs := by
  fun_induction dedupAdjacent xs with
  | case1 => rfl
  | case2 => rfl
  | case3 a b rest same ih =>
    obtain rfl : a = b := by simpa using same
    simp [ih]
  | case4 a b rest differ ih => simp [ih]

/-- Of a sorted list, a strictly increasing one is left. -/
theorem pairwise_dedupAdjacent (h : xs.Pairwise (· ≤ ·)) : (dedupAdjacent xs).Pairwise (· < ·) := by
  fun_induction dedupAdjacent xs with
  | case1 => exact .nil
  | case2 a => exact List.pairwise_singleton _ a
  | case3 a b rest same ih => exact ih h.of_cons
  | case4 a b rest differ ih =>
    refine List.pairwise_cons.mpr ⟨fun c hc => ?_, ih h.of_cons⟩
    obtain ⟨hab, hb⟩ : a ≤ b ∧ ∀ c ∈ rest, b ≤ c :=
      ⟨List.rel_of_pairwise_cons h List.mem_cons_self, (List.pairwise_cons.mp h.of_cons).1⟩
    have hlt : a < b := String.not_le.mp fun hba => differ (by simp [String.le_antisymm hab hba])
    rcases List.mem_cons.mp (mem_dedupAdjacent.mp hc) with rfl | hrest
    · exact hlt
    · exact String.not_le.mp fun hca => String.not_le.mpr hlt (String.le_trans (hb c hrest) hca)

theorem mem_sortedSet : s ∈ sortedSet xs ↔ s ∈ xs := by
  rw [sortedSet, mem_dedupAdjacent, List.mem_mergeSort]

theorem pairwise_sortedSet (xs : List String) : (sortedSet xs).Pairwise (· < ·) := by
  apply pairwise_dedupAdjacent
  have hsorted : (xs.mergeSort fun a b => decide (a ≤ b)).Pairwise fun a b => decide (a ≤ b) :=
    List.pairwise_mergeSort (fun a b c => by simpa using String.le_trans)
      (fun a b => by simpa using String.le_total a b) xs
  exact hsorted.imp (by simp)

theorem nodup_of_pairwise_lt (h : xs.Pairwise (· < ·)) : xs.Nodup := by
  refine h.imp ?_
  rintro a b hlt rfl
  exact String.lt_irrefl a hlt

/-- A strictly increasing list is the set of the texts that it has. -/
theorem sortedSet_eq (increasing : ys.Pairwise (· < ·)) (same : ∀ s, s ∈ xs ↔ s ∈ ys) :
    sortedSet xs = ys := by
  have hperm : (sortedSet xs).Perm ys :=
    (List.perm_ext_iff_of_nodup (nodup_of_pairwise_lt (pairwise_sortedSet xs))
      (nodup_of_pairwise_lt increasing)).mpr fun s => by rw [mem_sortedSet, same s]
  refine hperm.eq_of_pairwise ?_ (pairwise_sortedSet xs) increasing
  intro a b _ _ hab hba
  exact absurd (String.lt_trans hab hba) (String.lt_irrefl a)

theorem sortedSet_eq_iff : sortedSet xs = sortedSet ys ↔ ∀ s, s ∈ xs ↔ s ∈ ys := by
  constructor
  · intro h s
    rw [← mem_sortedSet, h, mem_sortedSet]
  · intro same
    exact sortedSet_eq (pairwise_sortedSet ys) fun s => by rw [same s, mem_sortedSet]

end ProgramSearch
