import ProgramSearch.Group

/-!
# The groups of a list

Together the groups are the list, in order; only the last may be shorter, and no other cut of the
list is like that. A full group at the front of a list is its first group, and the place of an
element in its group tells its place in the list.
-/
namespace ProgramSearch

variable {α β : Type} {size : Nat}

theorem groupsOf_flatten (size : Nat) (xs : List α) : (groupsOf size xs).flatten = xs := by
  fun_induction groupsOf size xs with
  | case1 => rfl
  | case2 x rest ih => simp [ih]

theorem mem_of_mem_groupsOf {xs group : List α} {x : α} (h : group ∈ groupsOf size xs)
    (hx : x ∈ group) : x ∈ xs := by
  rw [← groupsOf_flatten size xs]
  exact List.mem_flatten_of_mem h hx

theorem groupsOf_append {group : List α} (rest : List α) (h : group.length = max size 1) :
    groupsOf size (group ++ rest) = group :: groupsOf size rest := by
  cases group with
  | nil =>
    rw [List.length_nil] at h
    omega
  | cons x group =>
    have hlength : group.length = size - 1 := by
      rw [List.length_cons] at h
      omega
    rw [List.cons_append, groupsOf, ← hlength, List.take_left, List.drop_left]

theorem groupsOf_of_length_le {group : List α} (h : group.length ≤ max size 1) (ne : group ≠ []) :
    groupsOf size group = [group] := by
  cases group with
  | nil => exact absurd rfl ne
  | cons x group =>
    have hlength : group.length ≤ size - 1 := by
      rw [List.length_cons] at h
      omega
    rw [groupsOf, List.take_of_length_le hlength, List.drop_of_length_le hlength, groupsOf]

/-- A list cut into groups: all but the last are full, and none is empty or too long. -/
structure IsCut (size : Nat) (xs : List α) (groups : List (List α)) : Prop where
  flatten_eq : groups.flatten = xs
  full : ∀ group ∈ groups.dropLast, group.length = size
  bounds : ∀ group ∈ groups, group ≠ [] ∧ group.length ≤ size

/-- A group goes in front of other groups if it is full. -/
theorem IsCut.cons {group rest : List α} {groups : List (List α)} (h : IsCut size rest groups)
    (ne : group ≠ []) (hle : group.length ≤ size) (full : groups ≠ [] → group.length = size) :
    IsCut size (group ++ rest) (group :: groups) := by
  refine ⟨by rw [List.flatten_cons, h.flatten_eq], fun g hg => ?_, fun g hg => ?_⟩
  · cases groups with
    | nil => simp at hg
    | cons next others =>
      rw [List.dropLast_cons_of_ne_nil (List.cons_ne_nil next others)] at hg
      obtain rfl | hg := List.mem_cons.mp hg
      · exact full (List.cons_ne_nil next others)
      · exact h.full g hg
  · obtain rfl | hg := List.mem_cons.mp hg
    · exact ⟨ne, hle⟩
    · exact h.bounds g hg

theorem IsCut.tail {xs group : List α} {groups : List (List α)}
    (h : IsCut size xs (group :: groups)) : IsCut size groups.flatten groups := by
  refine ⟨rfl, fun g hg => h.full g ?_, fun g hg => h.bounds g (List.mem_cons_of_mem _ hg)⟩
  rw [List.dropLast_cons_of_ne_nil (List.ne_nil_of_mem ((List.dropLast_sublist groups).mem hg))]
  exact List.mem_cons_of_mem _ hg

theorem isCut_groupsOf (size : Nat) (xs : List α) : IsCut (max size 1) xs (groupsOf size xs) := by
  fun_induction groupsOf size xs with
  | case1 => exact ⟨rfl, by simp, by simp⟩
  | case2 x rest ih =>
    have hlength : (x :: rest.take (size - 1)).length = min (size - 1) rest.length + 1 := by
      rw [List.length_cons, List.length_take]
    have hcut := ih.cons (List.cons_ne_nil x (rest.take (size - 1))) (by omega) fun hgroups => by
      have hrest : ¬ rest.length ≤ size - 1 := fun hshort => by
        rw [List.drop_of_length_le hshort, groupsOf] at hgroups
        contradiction
      omega
    rwa [List.cons_append, List.take_append_drop] at hcut

/-- There is one cut only. -/
theorem isCut_iff {xs : List α} {groups : List (List α)} :
    IsCut (max size 1) xs groups ↔ groups = groupsOf size xs := by
  refine ⟨fun h => ?_, fun h => h ▸ isCut_groupsOf size xs⟩
  induction groups generalizing xs with
  | nil => rw [← h.flatten_eq, List.flatten_nil, groupsOf]
  | cons group groups ih =>
    obtain ⟨ne, hle⟩ := h.bounds group List.mem_cons_self
    rw [← h.flatten_eq, List.flatten_cons]
    cases groups with
    | nil => rw [List.flatten_nil, List.append_nil, groupsOf_of_length_le hle ne]
    | cons next others =>
      have full : group.length = max size 1 := by
        refine h.full group ?_
        rw [List.dropLast_cons_of_ne_nil (List.cons_ne_nil next others)]
        exact List.mem_cons_self
      rw [groupsOf_append _ full, ← ih h.tail]

theorem groupsOf_map (f : α → β) (size : Nat) (xs : List α) :
    groupsOf size (xs.map f) = (groupsOf size xs).map (List.map f) := by
  fun_induction groupsOf size xs with
  | case1 => rw [List.map_nil, groupsOf, List.map_nil]
  | case2 x rest ih =>
    rw [List.map_cons, groupsOf, ← List.map_take, ← List.map_drop, ih]
    rfl

/-- Where the elements of a group stand in the list. -/
theorem getElem?_groupsOf (positive : 0 < size) {xs group : List α} {b i : Nat}
    (h : (groupsOf size xs)[b]? = some group) (hi : i < group.length) :
    xs[b * size + i]? = group[i]? := by
  fun_induction groupsOf size xs generalizing b with
  | case1 => simp at h
  | case2 x rest ih =>
    cases b with
    | zero =>
      obtain rfl : x :: rest.take (size - 1) = group := by simpa using h
      rw [List.length_cons, List.length_take] at hi
      cases i with
      | zero => simp
      | succ i => simp [show i < size - 1 by omega]
    | succ b =>
      rw [List.getElem?_cons_succ] at h
      have hplace : (b + 1) * size + i = (size - 1 + (b * size + i)) + 1 := by
        rw [Nat.succ_mul]
        omega
      rw [← ih h, hplace, List.getElem?_cons_succ, List.getElem?_drop]

end ProgramSearch
