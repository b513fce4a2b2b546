import ProgramSearch.Text.Words

/-!
# Comparable bodies

Two program texts are compared after documentation comments are removed and runs of blanks are
collapsed. A documentation comment runs from `/**` to the next `*/` behind it; without such an
end there is no comment.
-/
namespace ProgramSearch.Text

/-- The text behind the next end of a comment. -/
def afterEnd? : List Char → Option (List Char)
  | [] => none
  | '*' :: '/' :: rest => some rest
  | _ :: rest => afterEnd? rest

theorem afterEnd?_length {s rest : List Char} (h : afterEnd? s = some rest) :
    rest.length < s.length := by
  fun_induction afterEnd? s with
  | case1 => simp at h
  | case2 tail =>
    cases h
    simp only [List.length_cons]
    omega
  | case3 c tail _ ih =>
    have := ih h
    simp only [List.length_cons]
    omega

/-- The text without its documentation comments. A start without an end leaves the whole rest as
it is, since an end for any later start would be one for it too. -/
def withoutDocs (s : List Char) : List Char :=
  match s with
  | [] => []
  | '/' :: '*' :: '*' :: inside =>
    match _h : afterEnd? inside with
    | some rest => withoutDocs rest
    | none => '/' :: '*' :: '*' :: inside
  | c :: rest => c :: withoutDocs rest
termination_by s.length
decreasing_by
  · have := afterEnd?_length _h
    simp only [List.length_cons]
    omega
  · simp only [List.length_cons]
    omega

/-- The words of a text outside documentation comments, one blank apart. -/
def normalizeBody (body : String) : String :=
  collapse (String.ofList (withoutDocs body.toList))

end ProgramSearch.Text
