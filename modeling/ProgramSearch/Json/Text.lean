import ProgramSearch.Decimal.Layout
import ProgramSearch.Json.Value

/-!
# Written JSON

Two layouts: `compact` has no blanks at all, `pretty` puts each element on a line of its own,
indented by two blanks a level. Members are written in the order the value holds them.
-/
namespace ProgramSearch.Json

def Number.text : Number → String
  | .integer n => toString n
  | .double x => (Decimal.readDouble x).json
  | .single x => (Decimal.readSingle x).json

/-- Quotes, backslashes and control characters are escaped; all else stands for itself. -/
def escape (c : Char) : String :=
  if c == '"' then "\\\""
  else if c == '\\' then "\\\\"
  else if c == '\n' then "\\n"
  else if c == '\r' then "\\r"
  else if c == '\t' then "\\t"
  else if c == '\x08' then "\\b"
  else if c == '\x0c' then "\\f"
  else if c.toNat < 0x20 then "\\u" ++ Decimal.hex 4 c.toNat
  else c.toString

def quoted (s : String) : String :=
  "\"" ++ s.foldl (fun text c => text ++ escape c) "" ++ "\""

def openBrace : String := "\x7b"

def closeBrace : String := "\x7d"

/-- What a layout leaves open: the start of a line at each level, and the gap between the colon of
a member and its value. -/
structure Layout where
  line : Nat → String
  gap : String

mutual

/-- A value in a layout. Each part of an array or object starts a line, and so does the end. -/
def Value.laid (layout : Layout) (level : Nat) : Value → String
  | .null => "null"
  | .bool b => if b then "true" else "false"
  | .number n => n.text
  | .string s => quoted s
  | .array [] => "[]"
  | .array items => "[" ++ laidItems layout (level + 1) items ++ layout.line level ++ "]"
  | .object [] => openBrace ++ closeBrace
  | .object members =>
    openBrace ++ laidMembers layout (level + 1) members ++ layout.line level ++ closeBrace

def laidItems (layout : Layout) (level : Nat) : List Value → String
  | [] => ""
  | [v] => layout.line level ++ v.laid layout level
  | v :: rest => layout.line level ++ v.laid layout level ++ "," ++ laidItems layout level rest

def laidMembers (layout : Layout) (level : Nat) : List (String × Value) → String
  | [] => ""
  | [(k, v)] => layout.line level ++ quoted k ++ ":" ++ layout.gap ++ v.laid layout level
  | (k, v) :: rest =>
    layout.line level ++ quoted k ++ ":" ++ layout.gap ++ v.laid layout level ++ "," ++
      laidMembers layout level rest

end

namespace Layout

def compact : Layout := ⟨fun _ => "", ""⟩

def pretty : Layout := ⟨fun level => "\n" ++ String.ofList (List.replicate (2 * level) ' '), " "⟩

end Layout

def Value.compact (v : Value) : String := v.laid .compact 0

def Value.pretty (v : Value) : String := v.laid .pretty 0

end ProgramSearch.Json
