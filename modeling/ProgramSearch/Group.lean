/-!
# Cutting lists into groups
-/
namespace ProgramSearch

/-- Consecutive groups of `size` elements; only the last may be shorter, and none is empty. A
size of zero counts as one. -/
def groupsOf {α : Type} (size : Nat) (xs : List α) : List (List α) :=
  match xs with
  | [] => []
  | x :: rest => (x :: rest.take (size - 1)) :: groupsOf size (rest.drop (size - 1))
termination_by xs.length
decreasing_by
  simp only [List.length_drop, List.length_cons]
  omega

end ProgramSearch
