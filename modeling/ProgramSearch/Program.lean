import ProgramSearch.Evidence
import ProgramSearch.Json.Shape
import ProgramSearch.Record
import ProgramSearch.Embedding

/-!
# Program objects

How a program object of a corpus becomes a record with its embedding. Some members have two
names; an object that uses both at once is refused.
-/
namespace ProgramSearch.Program

open Json

/-- The texts of a list; other elements are passed over. -/
def texts (v : Value) : List String := ((v.array?).getD []).filterMap (·.string?)

/-- The first of the longest lists. -/
def firstLongest (lists : List (List String)) : List String :=
  lists.foldl (fun best calls => if best.length < calls.length then calls else best) []

/-- The calls of a sequence object. -/
def callsOf (item : Value) : List String := ((item.get? "calls").map texts).getD []

/-- The sequence of a program: a flat list of texts, or the longest of several sequence objects. -/
def longestSequence : Value → List String
  | .array items =>
    if items.all (·.string?.isSome) then items.filterMap (·.string?)
    else firstLongest (items.map callsOf)
  | _ => []

/-- A flat vector, or a matrix with one row. -/
def embedding : Value → Except Fault Embedding
  | .array [.array row] => (Value.array row).list Value.single
  | v => v.list Value.single

/-- The member that goes by one of the given names; it may go by only one of them. -/
def memberOf (members : List (String × Value)) (names : List String) :
    Except Fault (Option Value) :=
  match members.filter fun (key, _) => names.contains key with
  | [] => .ok none
  | [(_, v)] => .ok (some v)
  | _ => .error (.duplicateField (names.headD ""))

/-- A member that is null counts as absent. -/
def present : Option Value → Option Value
  | some .null => none
  | v => v

/-- Reads the record of a program from the members other than the embedding. -/
def record (members : List (String × Value)) : Except Fault Record := do
  let file ← required "file" (← memberOf members ["file", "fileName"])
  let method ← required "method" (← memberOf members ["method", "methodName"])
  let body ← memberOf members ["body"]
  let calls ← memberOf members ["apicalls", "testapicalls"]
  let sequences ← memberOf members ["sequences"]
  let ast ← memberOf members ["ast"]
  let calls ← match present calls with
    | some v => v.list Value.text
    | none => .ok []
  return {
    fileName := ← file.text
    methodName := ← method.text
    body := ← match body with
      | some v => v.text
      | none => .ok ""
    labels := {
      apiCalls := sortedSet calls
      sequence := ((present sequences).map longestSequence).getD []
      ast := present ast } }

/-- Reads a program object whose embedding is the member `field`; that member is used for nothing
else. -/
def parse (field : String) : Value → Except Fault (Record × Embedding)
  | .object members => do
    let v ← required field (members.lookup field)
    let embedding ← embedding v
    let record ← record (members.filter fun (key, _) => key != field)
    return (record, embedding)
  | v => v.mismatch "a program object"

end ProgramSearch.Program
