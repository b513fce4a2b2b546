import ProgramSearch.Toml.Number

/-!
# TOML documents

A document is a sequence of lines: each gives a table its header, gives a key its value, or holds
no more than a comment. Only values may go over several lines.
-/
namespace ProgramSearch.Toml

def skipSpace (cs : Chars) : Chars := cs.dropWhile isSpace

/-- Drops blanks, line ends and comments; inside a comment, all up to the end of its line. -/
def skipBlank (inComment : Bool) : Chars → Chars
  | '\r' :: '\n' :: rest => skipBlank false rest
  | c :: rest =>
    if c == '\n' then skipBlank false rest
    else if inComment then (if isPlain c then skipBlank true rest else c :: rest)
    else if isSpace c then skipBlank false rest
    else if c == '#' then skipBlank true rest
    else c :: rest
  | [] => []

/-- What follows the end of this line, on which only blanks and a comment may be left. -/
def endOfLine (cs : Chars) : Option Chars :=
  let cs := skipSpace cs
  let cs := match cs with
    | '#' :: rest => rest.dropWhile isPlain
    | cs => cs
  match cs with
  | [] => some []
  | '\n' :: rest => some rest
  | '\r' :: '\n' :: rest => some rest
  | _ => none

def isBare (c : Char) : Bool := c.isAlphanum || c == '_' || c == '-'

/-- Reads one part of a key. -/
def readPart (cs : Chars) : Option (String × Chars) :=
  match cs with
  | '"' :: _ | '\'' :: _ => readQuoted cs
  | cs =>
    let name := cs.takeWhile isBare
    if name.isEmpty then none else some (String.ofList name, cs.drop name.length)

/-- Reads the parts of a dotted key. `fuel` bounds their number. -/
def readParts : Nat → Chars → Option (List String × Chars)
  | 0, _ => none
  | fuel + 1, cs => do
    let (part, cs) ← readPart (skipSpace cs)
    match skipSpace cs with
    | '.' :: cs =>
      let (parts, cs) ← readParts fuel cs
      return (part :: parts, cs)
    | cs => return ([part], cs)

/-- A key has fewer parts, and containers nest less deep. -/
def depthLimit : Nat := 80

/-- A dotted key: the parts on the way, and the last one. -/
structure Key where
  path : List String
  last : String

/-- Reads a key and the blanks around it. -/
def readKey (cs : Chars) : Option (Key × Chars) := do
  let (parts, cs) ← readParts (depthLimit - 1) cs
  let last ← parts.getLast?
  return (⟨parts.dropLast, last⟩, cs)

mutual

/-- Reads a value. `room` is how many containers may still be opened, and `fuel` bounds the values
read. -/
def readValue (fuel room : Nat) (cs : Chars) : Option (Value × Chars) :=
  match fuel, cs with
  | 0, _ => none
  | fuel + 1, '[' :: rest =>
    match room with
    | 0 => none
    | room + 1 => do
      let (items, rest) ← readItems fuel room rest
      return (.array items, rest)
  | fuel + 1, '\x7b' :: rest =>
    match room with
    | 0 => none
    | room + 1 =>
      match skipSpace rest with
      | '\x7d' :: rest => some (.table [], rest)
      | rest => do
        let (members, rest) ← readMembers fuel room [] rest
        return (.table (closeMembers members), rest)
  | _ + 1, '"' :: _ | _ + 1, '\'' :: _ => do
    let (text, rest) ← readText cs
    return (.string text, rest)
  | _ + 1, 't' :: 'r' :: 'u' :: 'e' :: rest => some (.bool true, rest)
  | _ + 1, 'f' :: 'a' :: 'l' :: 's' :: 'e' :: rest => some (.bool false, rest)
  | _ + 1, cs => readNumber cs

/-- Reads the rest of an array; a comma may follow its last item. -/
def readItems (fuel room : Nat) (cs : Chars) : Option (List Value × Chars) :=
  match fuel with
  | 0 => none
  | fuel + 1 =>
    match skipBlank false cs with
    | ']' :: rest => some ([], rest)
    | cs => do
      let (v, cs) ← readValue fuel room cs
      match skipBlank false cs with
      | ',' :: cs =>
        let (vs, rest) ← readItems fuel room cs
        return (v :: vs, rest)
      | ']' :: rest => return ([v], rest)
      | _ => none

/-- Reads the members of a table on one line, up to its closing brace. -/
def readMembers (fuel room : Nat) (done : Members) (cs : Chars) : Option (Members × Chars) :=
  match fuel with
  | 0 => none
  | fuel + 1 => do
    let (key, cs) ← readKey cs
    let (v, cs) ← readValue fuel room (skipSpace (← skip '=' cs))
    let done ← done.assign key.path key.last v
    match skipSpace cs with
    | ',' :: cs => readMembers fuel room done cs
    | '\x7d' :: rest => return (done, rest)
    | _ => none

end

/-- What a line says. -/
inductive Line where
  | table (key : Key)
  | element (key : Key)
  | assign (key : Key) (v : Value)

/-- Reads a line that is not blank. -/
def readStatement (cs : Chars) : Option (Line × Chars) :=
  match cs with
  | '[' :: '[' :: rest => do
    let (key, rest) ← readKey rest
    return (.element key, ← skip ']' (← skip ']' rest))
  | '[' :: rest => do
    let (key, rest) ← readKey rest
    return (.table key, ← skip ']' rest)
  | cs => do
    let (key, rest) ← readKey cs
    let rest ← skip '=' rest
    let (v, rest) ← readValue (2 * rest.length + 2) (depthLimit - 1) (skipSpace rest)
    return (.assign key v, rest)

/-- A document as far as it has been read: the root table, and the path to the table whose lines
are being read. -/
structure Reading where
  root : Members
  place : List String

def Reading.add (r : Reading) : Line → Option Reading
  | .table key => do return ⟨← r.root.openTable key.path key.last, key.path ++ [key.last]⟩
  | .element key => do return ⟨← r.root.openElement key.path key.last, key.path ++ [key.last]⟩
  | .assign key v => do
    let root ← Members.descend false (fun _ members => members.assign key.path key.last v)
      r.place .header r.root
    return { r with root }

/-- Reads all lines. `fuel` bounds their number. -/
def readDocument : Nat → Reading → Chars → Option Reading
  | 0, _, _ => none
  | fuel + 1, r, cs =>
    match skipSpace cs with
    | [] => some r
    | c :: cs =>
      if c == '#' || c == '\n' || c == '\r' then do
        readDocument fuel r (← endOfLine (c :: cs))
      else do
        let (line, rest) ← readStatement (c :: cs)
        readDocument fuel (← r.add line) (← endOfLine rest)

/-- The root table of a text; a byte order mark before it does not count. -/
def parse? (text : String) : Option Value := do
  let cs := match text.toList with
    | '\uFEFF' :: cs => cs
    | cs => cs
  let r ← readDocument (cs.length + 1) ⟨[], []⟩ cs
  return .table (closeMembers r.root)

end ProgramSearch.Toml
