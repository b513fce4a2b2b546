import ProgramSearch.Json.Document
import ProgramSearch.Json.Text

/-!
# Reading values of a given shape

Readers of numbers, texts, lists and records, from values and from documents. A record is read
in the order of its members, so that the first thing wrong in the text is what gets reported;
members that no field asks for are skipped.
-/
namespace ProgramSearch.Json

/-- A text in double quotes, with quotes, backslashes and control characters escaped. -/
def shown (s : String) : String :=
  let one (c : Char) : String :=
    if c == '"' then "\\\""
    else if c == '\\' then "\\\\"
    else if c == '\n' then "\\n"
    else if c == '\r' then "\\r"
    else if c == '\t' then "\\t"
    else if c.toNat == 0 then "\\0"
    else if c.toNat < 0x20 || c.toNat == 0x7F then
      "\\u" ++ openBrace ++ String.ofList (Nat.toDigits 16 c.toNat) ++ closeBrace
    else c.toString
  "\"" ++ s.foldl (fun text c => text ++ one c) "" ++ "\""

/-- How a value is named in a complaint about its type. -/
def Number.described : Number → String
  | .integer n => "integer " ++ Fault.ticked (toString n)
  | n => "floating point " ++ Fault.ticked n.text

def Value.described : Value → String
  | .null => "null"
  | .bool b => "boolean " ++ Fault.ticked (toString b)
  | .number n => n.described
  | .string s => "string " ++ shown s
  | .array _ => "sequence"
  | .object _ => "map"

def Value.mismatch {α : Type} (v : Value) (expected : String) : Except Fault α :=
  .error (.wrongType v.described expected)

/-- A number in single precision: integers are rounded once, doubles a second time. -/
def Number.toSingle : Number → Float32
  | .integer n =>
    if n < 0 then -(n.natAbs.toUInt64.toFloat32) else n.natAbs.toUInt64.toFloat32
  | .double x => x.toFloat32
  | .single x => x

def Number.toDouble : Number → Float
  | .integer n => if n < 0 then -(n.natAbs.toUInt64.toFloat) else n.natAbs.toUInt64.toFloat
  | .double x => x
  | .single x => x.toFloat

namespace Value

def single : Value → Except Fault Float32
  | .number n => .ok n.toSingle
  | v => v.mismatch "f32"

def double : Value → Except Fault Float
  | .number n => .ok n.toDouble
  | v => v.mismatch "f64"

def count : Value → Except Fault Nat
  | .number (.integer n) =>
    if 0 ≤ n then .ok n.toNat
    else .error (.wrongValue (Number.integer n).described "usize")
  | v => v.mismatch "usize"

def text : Value → Except Fault String
  | .string s => .ok s
  | v => v.mismatch "a string"

def flag : Value → Except Fault Bool
  | .bool b => .ok b
  | v => v.mismatch "a boolean"

def list {α : Type} (reader : Value → Except Fault α) : Value → Except Fault (List α)
  | .array items => items.mapM reader
  | v => v.mismatch "a sequence"

end Value

/-- A reader of scalars works on documents too; a container is handed on without its contents,
which a scalar reader refuses anyway. -/
def Doc.scalar {α : Type} (reader : Value → Except Fault α) : Doc → Except Fault α
  | .array _ _ => reader (.array [])
  | .object _ _ => reader (.object [])
  | d => do reader (← d.content 0)

def Doc.list {α : Type} (reader : Doc → Except Fault α) : Doc → Except Fault (List α)
  | .array items ending => do
    let as ← items.mapM reader
    match ending with
    | some damage => .error damage.fault
    | none => .ok as
  | d => d.scalar (·.mismatch "a sequence")

/-- Walks the members of a record in text order. `step` receives the fields; a field that comes
twice is refused, any other member is skipped. -/
def walkMembers {σ : Type} (fields : List String) (step : σ → String → Doc → Except Fault σ) :
    List String → σ → List (Except Fault String × Doc) → Except Fault σ
  | _, state, [] => .ok state
  | seen, state, (key, d) :: rest => do
    let key ← key
    if fields.contains key then
      if seen.contains key then .error (.duplicateField key)
      else walkMembers fields step (key :: seen) (← step state key d) rest
    else do
      d.skip
      walkMembers fields step seen state rest

/-- Walks a record written as an array, whose elements are the fields in order. Where the array
ends early, the fields left over must be `optional`. -/
def walkElements {σ : Type} (name : String) (total : Nat) (optional : List String)
    (step : σ → String → Doc → Except Fault σ) (ending : Option Damage) :
    Nat → σ → List String → List Doc → Except Fault σ
  | _, state, [], [] =>
    match ending.map Damage.fault with
    | some .endInValue | some .expectedCommaOrBracket => .error .trailingText
    | some fault => .error fault
    | none => .ok state
  | _, _, [], _ :: _ => .error .trailingText
  | position, state, field :: fields, [] =>
    match ending with
    | some damage => .error damage.fault
    | none =>
      if optional.contains field then
        walkElements name total optional step ending (position + 1) state fields []
      else
        .error (.wrongLength position
          ("struct " ++ name ++ " with " ++ toString total ++ " element" ++
            (if total == 1 then "" else "s")))
  | position, state, field :: fields, d :: rest => do
    walkElements name total optional step ending (position + 1) (← step state field d) fields rest

/-- Reads a record from a document, from its members or from its elements. -/
def Doc.record {σ : Type} (name : String) (fields optional : List String)
    (step : σ → String → Doc → Except Fault σ) (start : σ) : Doc → Except Fault σ
  | .object members ending => do
    let state ← walkMembers fields step [] start members
    match ending with
    | some damage => .error damage.fault
    | none => .ok state
  | .array items ending => walkElements name fields.length optional step ending 0 start fields items
  | d => d.scalar (·.mismatch ("struct " ++ name))

/-- A record in a value: the members of an object, or the elements of an array under the names of
the fields. -/
def Value.fields (name : String) (fields : List String) : Value → Except Fault Value
  | .object members => .ok (.object members)
  | .array items =>
    if items.length == fields.length then .ok (.object (fields.zip items))
    else .error (.wrongLength items.length
      ("struct " ++ name ++ " with " ++ toString fields.length ++ " elements"))
  | v => v.mismatch ("struct " ++ name)

/-- Reads a member, if it is there. -/
def Value.field? {α : Type} (v : Value) (name : String) (reader : Value → Except Fault α) :
    Except Fault (Option α) :=
  match v.get? name with
  | some w => some <$> reader w
  | none => .ok none

/-- The value of a field that must be there. -/
def required {α : Type} (name : String) : Option α → Except Fault α
  | some a => .ok a
  | none => .error (.missingField name)

end ProgramSearch.Json
