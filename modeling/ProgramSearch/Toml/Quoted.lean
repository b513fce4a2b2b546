import ProgramSearch.Toml.Value

/-!
# Quoted TOML texts

Texts in double quotes know escapes, texts in single quotes do not. Three quotes enclose texts of
several lines, in which up to two quotes stand for themselves. Every reader returns what follows
the text.
-/
namespace ProgramSearch.Toml

def isSpace (c : Char) : Bool := c == ' ' || c == '\t'

/-- Characters that are neither control characters nor line ends; a tab is one of them. -/
def isPlain (c : Char) : Bool := c == '\t' || (0x20 ≤ c.toNat && c.toNat != 0x7F)

def hexDigit? (c : Char) : Option Nat :=
  if '0' ≤ c && c ≤ '9' then some (c.toNat - '0'.toNat)
  else if 'a' ≤ c && c ≤ 'f' then some (c.toNat - 'a'.toNat + 10)
  else if 'A' ≤ c && c ≤ 'F' then some (c.toNat - 'A'.toNat + 10)
  else none

/-- The character of a code point in hexadecimal digits. -/
def codePoint? (digits : List Char) : Option Char := do
  let n ← digits.foldlM (fun n c => do return 16 * n + (← hexDigit? c)) 0
  if n.isValidChar then some (Char.ofNat n) else none

/-- The escapes of one character. -/
def simpleEscape? (c : Char) : Option Char :=
  [('b', '\x08'), ('t', '\t'), ('n', '\n'), ('f', '\x0c'), ('r', '\r'), ('"', '"'),
    ('\\', '\\')].lookup c

/-- Reads the character of an escape, behind its backslash. -/
def readEscape : List Char → Option (Char × List Char)
  | 'u' :: a :: b :: c :: d :: rest => do return (← codePoint? [a, b, c, d], rest)
  | 'U' :: a :: b :: c :: d :: e :: f :: g :: h :: rest => do
    return (← codePoint? [a, b, c, d, e, f, g, h], rest)
  | c :: rest => do return (← simpleEscape? c, rest)
  | [] => none

/-- Reads a text of one line behind its opening quote. `fuel` bounds its characters. -/
def readLine (quote : Char) (escape : Bool) : Nat → List Char → Option (List Char × List Char)
  | 0, _ | _, [] => none
  | fuel + 1, c :: rest =>
    if c == quote then some ([], rest)
    else do
      let (c, rest) ←
        if escape && c == '\\' then readEscape rest
        else if isPlain c then some (c, rest)
        else none
      let (text, rest) ← readLine quote escape fuel rest
      return (c :: text, rest)

/-- Drops the line end behind a backslash with all blanks and line ends that follow. -/
def continuation? (cs : List Char) : Option (List Char) :=
  match cs.dropWhile isSpace with
  | '\n' :: rest => some (dropBlank rest)
  | '\r' :: '\n' :: rest => some (dropBlank rest)
  | _ => none
where
  dropBlank : List Char → List Char
    | '\r' :: '\n' :: rest => dropBlank rest
    | c :: rest => if isSpace c || c == '\n' then dropBlank rest else c :: rest
    | [] => []

/-- What closes a text of several lines: three quotes, and up to two quotes before them that still
belong to the text. -/
def closing? (quote : Char) (cs : List Char) : Option (Nat × List Char) :=
  let quotes := (cs.takeWhile (· == quote)).length
  if quotes < 3 then none
  else
    let used := min quotes 5
    some (used - 3, cs.drop used)

/-- Reads one character of a text of several lines, or drops the line end behind a backslash. -/
def readInner (escape : Bool) : List Char → Option (Option Char × List Char)
  | '\r' :: '\n' :: rest => some (some '\n', rest)
  | '\n' :: rest => some (some '\n', rest)
  | c :: rest =>
    if escape && c == '\\' then
      match continuation? rest with
      | some rest => some (none, rest)
      | none => do
        let (c, rest) ← readEscape rest
        return (some c, rest)
    else if isPlain c then some (some c, rest)
    else none
  | [] => none

/-- Reads a text of several lines behind its opening quotes. `fuel` bounds its characters. -/
def readLines (quote : Char) (escape : Bool) : Nat → List Char → Option (List Char × List Char)
  | 0, _ => none
  | fuel + 1, cs =>
    match closing? quote cs with
    | some (inside, rest) => some (List.replicate inside quote, rest)
    | none => do
      let (c, rest) ← readInner escape cs
      let (text, rest) ← readLines quote escape fuel rest
      return (c.toList ++ text, rest)

/-- A line end directly behind the opening quotes does not belong to the text. -/
def dropFirstLineEnd : List Char → List Char
  | '\n' :: rest => rest
  | '\r' :: '\n' :: rest => rest
  | cs => cs

def asText (r : List Char × List Char) : String × List Char := (String.ofList r.1, r.2)

/-- Reads a text of one line. -/
def readQuoted : List Char → Option (String × List Char)
  | '"' :: cs => asText <$> readLine '"' true (cs.length + 1) cs
  | '\'' :: cs => asText <$> readLine '\'' false (cs.length + 1) cs
  | _ => none

/-- Reads a text of any form. -/
def readText : List Char → Option (String × List Char)
  | '"' :: '"' :: '"' :: cs => asText <$> readLines '"' true (cs.length + 1) (dropFirstLineEnd cs)
  | '\'' :: '\'' :: '\'' :: cs =>
    asText <$> readLines '\'' false (cs.length + 1) (dropFirstLineEnd cs)
  | cs => readQuoted cs

end ProgramSearch.Toml
