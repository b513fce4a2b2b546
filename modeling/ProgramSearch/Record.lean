import ProgramSearch.Json.Value

/-!
# Program records

An indexed program: where it comes from, its text, and the labels that only evaluation reads.
-/
namespace ProgramSearch

/-- What is known about a program's behaviour, for offline evaluation. -/
structure Labels where
  apiCalls : List String
  sequence : List String
  ast : Option Json.Value
deriving Inhabited

def Labels.none : Labels := ⟨[], [], Option.none⟩

def Labels.isEmpty (l : Labels) : Bool :=
  l.apiCalls.isEmpty && l.sequence.isEmpty && l.ast.isNone

structure Record where
  fileName : String
  methodName : String
  body : String
  labels : Labels
deriving Inhabited

open Json in
/-- The written form; labels are left out when there are none. -/
def Record.json (r : Record) : Value :=
  let labels :=
    if r.labels.isEmpty then [] else
      let ast := match r.labels.ast with
        | some v => [("ast", v)]
        | none => []
      [("labels", Value.object ([("api_calls", .strings r.labels.apiCalls),
        ("sequence", .strings r.labels.sequence)] ++ ast))]
  .object ([("file_name", .string r.fileName), ("method_name", .string r.methodName),
    ("body", .string r.body)] ++ labels)

end ProgramSearch
