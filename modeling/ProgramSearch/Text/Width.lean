import ProgramSearch.Text.CaseTable
import ProgramSearch.Text.WidthTable

/-!
# Width of text

How many columns of a terminal a character and a line of text take.
-/
namespace ProgramSearch.Text

/-- The columns of a character; control characters take none. -/
def columns (c : Char) : Nat :=
  let n := c.toNat
  if n < 0x20 || n == 0x7F then 0
  else if n < 0x80 then 1
  else if inRanges narrowest n then 0
  else if inRanges wide n then 2
  else 1

def width (s : String) : Nat := s.foldl (fun n c => n + columns c) 0

def blanks (n : Nat) : String := String.ofList (List.replicate n ' ')

end ProgramSearch.Text
