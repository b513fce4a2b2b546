/-!
# Lines

A line ends with a line feed, which may have a carriage return before it; the last line needs no
end. Lines are read from bytes, one after the other, as far as they are text.
-/
namespace ProgramSearch.Text

/-- The lines of a file, without their line ends; `line` holds, in reverse, what was read of the
first. -/
def splitLines (line : List UInt8) : List UInt8 → List (List UInt8)
  | [] => if line.isEmpty then [] else [line.reverse]
  | b :: rest =>
    if b == 0x0A then
      (match line with
        | 0x0D :: line => line.reverse
        | line => line.reverse) :: splitLines [] rest
    else splitLines (b :: line) rest

/-- The texts of lines up to the first that is none, and whether there was no such line. -/
def textsOf : List (List UInt8) → List String × Bool
  | [] => ([], true)
  | line :: rest =>
    match String.fromUTF8? ⟨line.toArray⟩ with
    | some text =>
      let (texts, complete) := textsOf rest
      (text :: texts, complete)
    | none => ([], false)

/-- The lines of a file as far as they are text, and whether all of them are. -/
def lines (bytes : List UInt8) : List String × Bool := textsOf (splitLines [] bytes)

end ProgramSearch.Text
