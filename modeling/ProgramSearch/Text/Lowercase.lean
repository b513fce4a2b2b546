import ProgramSearch.Text.CaseTable

/-!
# Lower-casing

Full lower-casing: the dotted capital I becomes two characters, and a capital sigma that ends a
word becomes the final form.
-/
namespace ProgramSearch.Text

def lowercaseChar (c : Char) : Char :=
  if c.toNat < 128 then c.toLower
  else match lowercaseRuns.find? (·.has c.toNat) with
    | some run => Char.ofNat (c.toNat + run.shift).toNat
    | none => c

/-- Whether the first character that is not passed over has case. -/
def meetsCased (cs : List Char) : Bool :=
  match cs.dropWhile (fun c => inRanges caseIgnorable c.toNat) with
  | c :: _ => inRanges cased c.toNat
  | [] => false

/-- Lower-cases the text behind `before`, which is in reverse order. -/
def lowercaseFrom (before : List Char) : List Char → List Char
  | [] => []
  | c :: rest =>
    let lower :=
      if c == 'Σ' then [if meetsCased before && !meetsCased rest then 'ς' else 'σ']
      else if c == 'İ' then ['i', '\u0307']
      else [lowercaseChar c]
    lower ++ lowercaseFrom (c :: before) rest

def lowercase (s : String) : String := String.ofList (lowercaseFrom [] s.toList)

end ProgramSearch.Text
