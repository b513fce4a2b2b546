import ProgramSearch.Json.Text
import ProgramSearch.Report.Grid
import ProgramSearch.Text.Lowercase

/-!
# Presentation of results

Results are shown as tables or as JSON. Long cells are cut where a terminal limits the width, and
some words are emphasized where colours are wanted.
-/
namespace ProgramSearch.Report

inductive OutputFormat where
  | table
  | json
deriving Repr, DecidableEq, Inhabited

namespace OutputFormat

/-- Reads a format, in any letter case. -/
def parse? (s : String) : Option OutputFormat :=
  match Text.lowercase s with
  | "table" => some table
  | "json" => some json
  | _ => none

def unknownMessage (s : String) : String := s!"Unknown output format: '{s}'"

end OutputFormat

structure Presentation where
  format : OutputFormat
  /-- The width of the terminal, which is taken to hold every table; none when the output goes
  elsewhere, and then cells are shown in full. -/
  wrap : Option Nat
  colored : Bool
deriving Repr, DecidableEq, Inhabited

/-- Ways to emphasize a word. -/
inductive Emphasis where
  | title
  | count
  | heading
  | alarm
  | caution
  | aside

/-- The display attributes of an emphasis, by number. -/
def Emphasis.attributes : Emphasis → String
  | title => "1;36"
  | count => "32"
  | heading => "1"
  | alarm => "1;31"
  | caution => "1;33"
  | aside => "2"

def Presentation.emphasize (p : Presentation) (e : Emphasis) (text : String) : String :=
  if p.colored then "\x1b[" ++ e.attributes ++ "m" ++ text ++ "\x1b[0m" else text

/-- A column of a table: its header, the member of each row that fills it, and how. -/
structure Column where
  header : String
  key : String
  /-- The most characters that are shown where width is limited. -/
  limit : Option Nat := none
  right : Bool := false
deriving Repr, DecidableEq, Inhabited

open Json

/-- The text of a value in a cell. -/
def cellText : Value → String
  | .null => "-"
  | .string s => s
  | .array items => s!"[{items.length} items]"
  | v => v.compact

/-- The first characters of a text, with three points for what is left out where they fit. -/
def truncate (limit : Nat) (text : String) : String :=
  if text.length ≤ limit then text
  else if limit ≤ 3 then String.ofList (text.toList.take limit)
  else String.ofList (text.toList.take (limit - 3)) ++ "..."

namespace Presentation

def cell (p : Presentation) (row : Value) (column : Column) : String :=
  let text := cellText ((row.get? column.key).getD .null)
  match column.limit, p.wrap with
  | some limit, some _ => truncate limit text
  | _, _ => text

/-- A table with one line for each row. Numbers in cells are in double precision. -/
def table (p : Presentation) (columns : List Column) (rows : List Value) : String :=
  if rows.isEmpty then "(no results)"
  else
    { rows := columns.map (·.header) :: rows.map fun row => columns.map (p.cell row.widen)
      right := (columns.zipIdx.filter (·.1.right)).map (·.2) : Grid }.draw

end Presentation

/-- A table of labelled values. -/
def labelled (pairs : List (String × String)) : String :=
  Grid.draw ⟨pairs.map fun (label, value) => [label, value], [0]⟩

/-- One value on each line. -/
def jsonLines (values : List Value) : String := "\n".intercalate (values.map Value.compact)

end ProgramSearch.Report
