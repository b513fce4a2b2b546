import ProgramSearch.Json.Numeral

/-!
# Documents: a JSON text as far as it reads

Reading a text never fails as a whole. It gives a document, which holds all that could be read,
in order, and marks where and why reading stopped. What a damaged text means is then decided by
whoever walks the document: a walk that needs only the beginning is not disturbed by damage
behind it. Numerals and strings keep faults of their own, which count only where they are used.
-/
namespace ProgramSearch.Json

/-- Where a text stops being readable: the fault that a reader of the place meets, and the one
that a reader meets who only passes over it. -/
structure Damage where
  fault : Fault
  passing : Fault := fault
deriving Repr, DecidableEq, Inhabited

inductive Doc where
  | null
  | bool (b : Bool)
  | number (n : Numeral)
  | string (s : Except Fault String)
  | array (items : List Doc) (ending : Option Damage)
  | object (members : List (Except Fault String × Doc)) (ending : Option Damage)
  | broken (damage : Damage)
deriving Inhabited

/-- A fault that stops every reader in the same way. -/
def Fault.damage (fault : Fault) : Damage := { fault }

namespace Byte

abbrev Bytes := List UInt8

@[match_pattern] abbrev quote : UInt8 := 0x22
@[match_pattern] abbrev plus : UInt8 := 0x2B
@[match_pattern] abbrev comma : UInt8 := 0x2C
@[match_pattern] abbrev minus : UInt8 := 0x2D
@[match_pattern] abbrev point : UInt8 := 0x2E
@[match_pattern] abbrev colon : UInt8 := 0x3A
@[match_pattern] abbrev openBracket : UInt8 := 0x5B
@[match_pattern] abbrev backslash : UInt8 := 0x5C
@[match_pattern] abbrev closeBracket : UInt8 := 0x5D
@[match_pattern] abbrev openBrace : UInt8 := 0x7B
@[match_pattern] abbrev closeBrace : UInt8 := 0x7D
@[match_pattern] abbrev letterE : UInt8 := 0x45
@[match_pattern] abbrev letterSmallE : UInt8 := 0x65
@[match_pattern] abbrev letterF : UInt8 := 0x66
@[match_pattern] abbrev letterN : UInt8 := 0x6E
@[match_pattern] abbrev letterT : UInt8 := 0x74
@[match_pattern] abbrev letterU : UInt8 := 0x75

def isBlank (b : UInt8) : Bool := b == 0x20 || b == 0x09 || b == 0x0A || b == 0x0D

def isDigit (b : UInt8) : Bool := 0x30 ≤ b && b ≤ 0x39

def digit (b : UInt8) : Nat := b.toNat - 0x30

def hexDigit? (b : UInt8) : Option Nat :=
  if isDigit b then some (digit b)
  else if 0x41 ≤ b && b ≤ 0x46 then some (b.toNat - 0x41 + 10)
  else if 0x61 ≤ b && b ≤ 0x66 then some (b.toNat - 0x61 + 10)
  else none

def skipBlank (s : Bytes) : Bytes := s.dropWhile isBlank

end Byte

open Byte

/-- Reads the rest of a literal word. -/
def readWord : Bytes → Bytes → Except Fault Bytes
  | [], s => .ok s
  | _ :: _, [] => .error .endInValue
  | w :: ws, b :: s => if w == b then readWord ws s else .error .expectedWord

def takeDigits (s : Bytes) : List Nat × Bytes :=
  ((s.takeWhile isDigit).map digit, s.dropWhile isDigit)

/-- Reads digits of which there must be at least one. -/
def readDigits (s : Bytes) : Except Fault (List Nat × Bytes) :=
  match takeDigits s with
  | ([], []) => .error .endInValue
  | ([], _ :: _) => .error .badNumber
  | (ds, rest) => .ok (ds, rest)

def readWhole (s : Bytes) : Except Fault (List Nat × Bytes) := do
  match ← readDigits s with
  | (0 :: _ :: _, _) => .error .badNumber
  | (ds, rest) => .ok (ds, rest)

def readFraction (s : Bytes) : Except Fault (Option (List Nat) × Bytes) :=
  match s with
  | point :: s => do
    let (ds, s) ← readDigits s
    .ok (some ds, s)
  | s => .ok (none, s)

/-- Reads the digits of an exponent with their sign. -/
def readScale (s : Bytes) : Except Fault (Option (Bool × List Nat) × Bytes) :=
  match s with
  | minus :: s => do
    let (ds, s) ← readDigits s
    .ok (some (true, ds), s)
  | plus :: s => do
    let (ds, s) ← readDigits s
    .ok (some (false, ds), s)
  | s => do
    let (ds, s) ← readDigits s
    .ok (some (false, ds), s)

def readExponent (s : Bytes) : Except Fault (Option (Bool × List Nat) × Bytes) :=
  match s with
  | letterE :: s => readScale s
  | letterSmallE :: s => readScale s
  | s => .ok (none, s)

/-- Reads a numeral behind its sign. -/
def readNumeral (negative : Bool) (s : Bytes) : Except Fault (Numeral × Bytes) := do
  let (whole, s) ← readWhole s
  let (fraction, s) ← readFraction s
  let (exponent, s) ← readExponent s
  return (⟨negative, whole, fraction, exponent⟩, s)

/-- Reads the four digits of a `\u` escape. -/
def readHex4 : Bytes → Except Fault (Nat × Bytes)
  | a :: b :: c :: d :: s =>
    match hexDigit? a, hexDigit? b, hexDigit? c, hexDigit? d with
    | some a, some b, some c, some d => .ok (((a * 16 + b) * 16 + c) * 16 + d, s)
    | _, _, _, _ => .error .badEscape
  | _ => .error .endInString

/-- The bytes of an escaped code point, and the text behind it. A leading surrogate takes the
trailing one that must follow it; `soft` is a fault that spoils the string without ending it. -/
structure Escape where
  bytes : Bytes
  soft : Option Fault
  rest : Bytes

def codePoint (n : Nat) : Bytes := (String.utf8EncodeChar (Char.ofNat n))

/-- Reads the trailing surrogate that must follow the leading one `n`. -/
def readTrailing (n : Nat) (s : Bytes) : Except Fault Escape :=
  match s with
  | [] => .error .endInString
  | [backslash] => .error .endInString
  | backslash :: letterU :: s => do
    let (m, s) ← readHex4 s
    if 0xDC00 ≤ m && m ≤ 0xDFFF then
      return ⟨codePoint (0x10000 + (n - 0xD800) * 0x400 + (m - 0xDC00)), none, s⟩
    else return ⟨[], some .loneSurrogate, s⟩
  | s => return ⟨[], some .brokenSurrogatePair, s⟩

def readUnicode (s : Bytes) : Except Fault Escape := do
  let (n, s) ← readHex4 s
  if 0xDC00 ≤ n && n ≤ 0xDFFF then return ⟨[], some .loneSurrogate, s⟩
  else if 0xD800 ≤ n && n ≤ 0xDBFF then readTrailing n s
  else return ⟨codePoint n, none, s⟩

def readEscape (s : Bytes) : Except Fault Escape :=
  match s with
  | [] => .error .endInString
  | 0x22 :: s => .ok ⟨[0x22], none, s⟩
  | 0x5C :: s => .ok ⟨[0x5C], none, s⟩
  | 0x2F :: s => .ok ⟨[0x2F], none, s⟩
  | 0x62 :: s => .ok ⟨[0x08], none, s⟩
  | 0x66 :: s => .ok ⟨[0x0C], none, s⟩
  | 0x6E :: s => .ok ⟨[0x0A], none, s⟩
  | 0x72 :: s => .ok ⟨[0x0D], none, s⟩
  | 0x74 :: s => .ok ⟨[0x09], none, s⟩
  | 0x75 :: s => readUnicode s
  | _ => .error .badEscape

/-- The text of a string whose bytes were collected in reverse. -/
def closeString (collected : Bytes) (soft : Option Fault) : Except Fault String :=
  match soft with
  | some fault => .error fault
  | none =>
    match String.fromUTF8? ⟨collected.reverse.toArray⟩ with
    | some text => .ok text
    | none => .error .badCodePoint

/-- The damage of a string that never ends properly: who uses it meets its first soft fault, if
there is one. -/
def spoiled (soft : Option Fault) (fault : Fault) : Damage := ⟨soft.getD fault, fault⟩

/-- Reads a string behind its opening quote. The first soft fault is remembered. -/
def readString : Nat → Bytes → Option Fault → Bytes → Except Damage (Except Fault String × Bytes)
  | 0, _, soft, _ => .error (spoiled soft .endInString)
  | _ + 1, _, soft, [] => .error (spoiled soft .endInString)
  | fuel + 1, collected, soft, b :: s =>
    if b == quote then .ok (closeString collected soft, s)
    else if b == backslash then
      match readEscape s with
      | .ok e => readString fuel (e.bytes.reverse ++ collected) (soft <|> e.soft) e.rest
      | .error fault => .error (spoiled soft fault)
    else if b < 0x20 then .error (spoiled soft .controlCharacter)
    else readString fuel (b :: collected) soft s

/-- Where reading goes on, or nothing when it stopped inside. -/
abbrev Onward := Option Bytes

def Doc.ofItems : List Doc × Option Damage × Onward → Doc × Onward
  | (items, ending, rest) => (.array items ending, rest)

def Doc.ofMembers : List (Except Fault String × Doc) × Option Damage × Onward → Doc × Onward
  | (members, ending, rest) => (.object members ending, rest)

def Doc.ofText : Except Damage (Except Fault String × Bytes) → Doc × Onward
  | .ok (text, rest) => (.string text, some rest)
  | .error damage => (.broken damage, none)

def Doc.ofWord (d : Doc) : Except Fault Bytes → Doc × Onward
  | .ok rest => (d, some rest)
  | .error fault => (.broken fault.damage, none)

def Doc.ofNumeral : Except Fault (Numeral × Bytes) → Doc × Onward
  | .ok (n, rest) => (.number n, some rest)
  | .error fault => (.broken ⟨fault, .badNumber⟩, none)

mutual

/-- Reads one value. A level of nesting takes three calls and at least one byte, so three units
of fuel for each byte, and three more, are enough. -/
def readValue : Nat → Bytes → Doc × Onward
  | 0, _ => (.broken Fault.endInValue.damage, none)
  | fuel + 1, s =>
    match skipBlank s with
    | [] => (.broken Fault.endInValue.damage, none)
    | openBracket :: s => Doc.ofItems (readItems fuel true s)
    | openBrace :: s => Doc.ofMembers (readMembers fuel true s)
    | quote :: s => Doc.ofText (readString fuel [] none s)
    | letterN :: s => Doc.ofWord .null (readWord [0x75, 0x6C, 0x6C] s)
    | letterT :: s => Doc.ofWord (.bool true) (readWord [0x72, 0x75, 0x65] s)
    | letterF :: s => Doc.ofWord (.bool false) (readWord [0x61, 0x6C, 0x73, 0x65] s)
    | minus :: s => Doc.ofNumeral (readNumeral true s)
    | b :: s =>
      if isDigit b then Doc.ofNumeral (readNumeral false (b :: s))
      else (.broken Fault.expectedValue.damage, none)

/-- Reads the elements of an array; `first` says that none was read yet. -/
def readItems : Nat → Bool → Bytes → List Doc × Option Damage × Onward
  | 0, _, _ => ([], some Fault.endInArray.damage, none)
  | fuel + 1, first, s =>
    match skipBlank s with
    | [] => ([], some Fault.endInArray.damage, none)
    | closeBracket :: s => ([], none, some s)
    | b :: s =>
      if first then readItem fuel (b :: s)
      else if b == comma then
        match skipBlank s with
        | [] => ([], some Fault.endInValue.damage, none)
        | closeBracket :: _ => ([], some ⟨.trailingComma, .expectedValue⟩, none)
        | s => readItem fuel s
      else ([], some Fault.expectedCommaOrBracket.damage, none)

/-- Reads one element and those behind it. -/
def readItem : Nat → Bytes → List Doc × Option Damage × Onward
  | 0, _ => ([], some Fault.endInArray.damage, none)
  | fuel + 1, s =>
    match readValue fuel s with
    | (item, none) => ([item], some Fault.endInArray.damage, none)
    | (item, some rest) =>
      let (items, ending, rest) := readItems fuel false rest
      (item :: items, ending, rest)

/-- Reads the members of an object; `first` says that none was read yet. -/
def readMembers :
    Nat → Bool → Bytes → List (Except Fault String × Doc) × Option Damage × Onward
  | 0, _, _ => ([], some Fault.endInObject.damage, none)
  | fuel + 1, first, s =>
    match skipBlank s with
    | [] => ([], some Fault.endInObject.damage, none)
    | closeBrace :: s => ([], none, some s)
    | b :: s =>
      if first then
        if b == quote then readMember fuel s else ([], some Fault.keyNotString.damage, none)
      else if b == comma then
        match skipBlank s with
        | [] => ([], some ⟨.endInValue, .endInObject⟩, none)
        | closeBrace :: _ => ([], some ⟨.trailingComma, .keyNotString⟩, none)
        | quote :: s => readMember fuel s
        | _ => ([], some Fault.keyNotString.damage, none)
      else ([], some Fault.expectedCommaOrBrace.damage, none)

/-- Reads one member behind the quote of its key, and those behind it. -/
def readMember : Nat → Bytes → List (Except Fault String × Doc) × Option Damage × Onward
  | 0, _ => ([], some Fault.endInObject.damage, none)
  | fuel + 1, s =>
    match readString fuel [] none s with
    | .error damage => ([], some damage, none)
    | .ok (key, s) =>
      match skipBlank s with
      | [] => ([(key, .broken Fault.endInObject.damage)], some Fault.endInObject.damage, none)
      | colon :: s =>
        match readValue fuel s with
        | (v, none) => ([(key, v)], some Fault.endInObject.damage, none)
        | (v, some rest) =>
          let (members, ending, rest) := readMembers fuel false rest
          ((key, v) :: members, ending, rest)
      | _ => ([(key, .broken Fault.expectedColon.damage)], some Fault.expectedColon.damage, none)

end

/-- A text as one value, and whether something other than blanks follows it. -/
structure Document where
  root : Doc
  trailing : Bool

def Document.ofBytes (s : Bytes) : Document :=
  match readValue (3 * s.length + 3) s with
  | (root, none) => ⟨root, false⟩
  | (root, some rest) => ⟨root, !(skipBlank rest).isEmpty⟩

def Document.ofString (text : String) : Document := ofBytes text.toUTF8.data.toList

/-- Runs a reader over the root; text behind the value is a fault once the reader is content. -/
def Document.decode {α : Type} (d : Document) (reader : Doc → Except Fault α) : Except Fault α := do
  let a ← reader d.root
  if d.trailing then .error .trailingText else .ok a

/-- Containers may nest this deep where values are read, not merely skipped. -/
def maxDepth : Nat := 127

mutual

/-- The value of a document, with members in text order and repeated keys kept; `room` is how
many levels of containers may still be opened. -/
def Doc.content (room : Nat) : Doc → Except Fault Value
  | .null => .ok .null
  | .bool b => .ok (.bool b)
  | .number n => .number <$> n.number
  | .string s => .string <$> s
  | .array items ending =>
    match room with
    | 0 => .error .tooDeep
    | room + 1 => do
      let vs ← contentItems room items
      match ending with
      | some damage => .error damage.fault
      | none => .ok (.array vs)
  | .object members ending =>
    match room with
    | 0 => .error .tooDeep
    | room + 1 => do
      let vs ← contentMembers room members
      match ending with
      | some damage => .error damage.fault
      | none => .ok (.object vs)
  | .broken damage => .error damage.fault

def contentItems (room : Nat) : List Doc → Except Fault (List Value)
  | [] => .ok []
  | d :: rest => do
    let v ← d.content room
    let vs ← contentItems room rest
    .ok (v :: vs)

def contentMembers (room : Nat) :
    List (Except Fault String × Doc) → Except Fault (List (String × Value))
  | [] => .ok []
  | (key, d) :: rest => do
    let k ← key
    let v ← d.content room
    let vs ← contentMembers room rest
    .ok ((k, v) :: vs)

end

/-- The value of a document in normal form. -/
def Doc.value (room : Nat) (d : Doc) : Except Fault Value := Value.normal <$> d.content room

mutual

/-- The first fault that stops a reader which skips the document without using it. -/
def Doc.skip : Doc → Except Fault Unit
  | .array items ending => do
    skipItems items
    match ending with
    | some damage => .error damage.passing
    | none => .ok ()
  | .object members ending => do
    skipMembers members
    match ending with
    | some damage => .error damage.passing
    | none => .ok ()
  | .broken damage => .error damage.passing
  | _ => .ok ()

def skipItems : List Doc → Except Fault Unit
  | [] => .ok ()
  | d :: rest => do
    d.skip
    skipItems rest

def skipMembers : List (Except Fault String × Doc) → Except Fault Unit
  | [] => .ok ()
  | (_, d) :: rest => do
    d.skip
    skipMembers rest

end

/-- Reads a text as one value in normal form. -/
def parse (text : String) : Except Fault Value :=
  (Document.ofString text).decode (Doc.value maxDepth)

end ProgramSearch.Json
