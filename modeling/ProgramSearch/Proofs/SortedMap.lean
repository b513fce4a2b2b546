import Mathlib.Data.List.Nodup
import ProgramSearch.Json.Value

/-!
# Lists sorted by key

Members that are set one after the other, each under a key of its own, are kept as they are, in the
order of their keys. The order leaves no choice: the same members make the same list.
-/
namespace ProgramSearch.Json

/-- The keys increase strictly. -/
abbrev Sorted {α : Type} (members : List (String × α)) : Prop := members.Pairwise (·.1 < ·.1)

variable {α : Type} {members done others : List (String × α)} {key : String} {a : α}
  {m : String × α}

theorem mem_setMember (sorted : Sorted done) :
    m ∈ setMember key a done ↔ m = (key, a) ∨ m ∈ done ∧ m.1 ≠ key := by
  induction done with
  | nil => simp [setMember]
  | cons first rest ih =>
    obtain ⟨k, b⟩ := first
    obtain ⟨hfirst, hrest⟩ := List.pairwise_cons.mp sorted
    have hother (hle : ¬ k < key) : ∀ m ∈ rest, m.1 ≠ key := fun m hm heq =>
      hle (heq ▸ hfirst m hm)
    rw [setMember]
    split
    · next hlt =>
      have hne : k ≠ key := fun heq => String.lt_irrefl _ (heq ▸ hlt)
      have hle : ¬ k < key := Std.not_gt_of_lt hlt
      grind
    · split
      · next hlt =>
        have hne : k ≠ key := fun heq => String.lt_irrefl _ (heq ▸ hlt)
        grind
      · next hge hle =>
        obtain rfl : k = key := String.le_antisymm (String.not_lt.mp hge) (String.not_lt.mp hle)
        grind

theorem sorted_setMember (sorted : Sorted done) : Sorted (setMember key a done) := by
  induction done with
  | nil => exact List.pairwise_singleton _ _
  | cons first rest ih =>
    obtain ⟨k, b⟩ := first
    obtain ⟨hfirst, hrest⟩ := List.pairwise_cons.mp sorted
    rw [setMember]
    split
    · next hlt =>
      refine List.pairwise_cons.mpr ⟨fun m hm => ?_, sorted⟩
      rcases List.mem_cons.mp hm with rfl | hm
      · exact hlt
      · exact String.lt_trans hlt (hfirst m hm)
    · split
      · next hlt =>
        refine List.pairwise_cons.mpr ⟨fun m hm => ?_, ih hrest⟩
        rcases (mem_setMember hrest).mp hm with rfl | ⟨hm, -⟩
        · exact hlt
        · exact hfirst m hm
      · next hge hle =>
        obtain rfl : k = key := String.le_antisymm (String.not_lt.mp hge) (String.not_lt.mp hle)
        exact List.pairwise_cons.mpr ⟨hfirst, hrest⟩

/-- Members with different new keys are all kept. -/
theorem foldl_setMember (sorted : Sorted done) (distinct : (members.map (·.1)).Nodup)
    (fresh : ∀ m ∈ done, m.1 ∉ members.map (·.1)) :
    Sorted (members.foldl (fun done m => setMember m.1 m.2 done) done) ∧
      ∀ m, m ∈ members.foldl (fun done m => setMember m.1 m.2 done) done ↔
        m ∈ members ∨ m ∈ done := by
  induction members generalizing done with
  | nil => exact ⟨sorted, fun m => by simp⟩
  | cons member members ih =>
    rw [List.map_cons, List.nodup_cons] at distinct
    have hfresh : ∀ m ∈ setMember member.1 member.2 done, m.1 ∉ members.map (·.1) := by
      intro m hm
      rcases (mem_setMember sorted).mp hm with rfl | ⟨hm, -⟩
      · exact distinct.1
      · exact fun hmem => fresh m hm (List.mem_cons_of_mem _ hmem)
    obtain ⟨hsorted, hmem⟩ := ih (sorted_setMember sorted) distinct.2 hfresh
    refine ⟨hsorted, fun m => ?_⟩
    have hkept : m ∈ setMember member.1 member.2 done ↔ m = member ∨ m ∈ done := by
      rw [mem_setMember sorted]
      refine or_congr_right (and_iff_left_of_imp fun hm heq => fresh m hm ?_)
      exact heq ▸ List.mem_cons_self
    rw [List.foldl_cons, hmem, hkept, List.mem_cons, or_left_comm, or_assoc]

theorem Sorted.nodup (sorted : Sorted members) : members.Nodup := by
  refine List.Pairwise.imp ?_ sorted
  rintro m _ hlt rfl
  exact String.lt_irrefl m.1 hlt

theorem Sorted.eq_of_perm (sorted : Sorted members) (sorted' : Sorted others)
    (perm : members.Perm others) : members = others := by
  refine perm.eq_of_pairwise ?_ sorted sorted'
  intro m m' _ _ hlt hlt'
  exact absurd (String.lt_trans hlt hlt') (String.lt_irrefl m.1)

end ProgramSearch.Json
