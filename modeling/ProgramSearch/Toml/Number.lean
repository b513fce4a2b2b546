import ProgramSearch.Toml.Quoted

/-!
# TOML numbers and dates

Integers of four bases, floating numbers, and dates and times. Every reader returns what follows
what it has read.
-/
namespace ProgramSearch.Toml

abbrev Chars := List Char

def isDecimal (c : Char) : Bool := '0' ≤ c && c ≤ '9'

/-- Digits, of which one has been read; a single underscore may stand between two. -/
def moreDigits (isDigit : Char → Bool) : Chars → Option (Chars × Chars)
  | [] => some ([], [])
  | ['_'] => none
  | '_' :: c :: rest =>
    if isDigit c then do
      let (digits, rest) ← moreDigits isDigit rest
      return (c :: digits, rest)
    else none
  | c :: rest =>
    if isDigit c then do
      let (digits, rest) ← moreDigits isDigit rest
      return (c :: digits, rest)
    else some ([], c :: rest)

/-- Digits, at least one. -/
def readDigits (isDigit : Char → Bool) : Chars → Option (Chars × Chars)
  | c :: rest =>
    if isDigit c then do
      let (digits, rest) ← moreDigits isDigit rest
      return (c :: digits, rest)
    else none
  | [] => none

def valueOf (base : Nat) (digits : Chars) : Nat :=
  digits.foldl (fun n c => base * n + (hexDigit? c).getD 0) 0

def readSign : Chars → Bool × Chars
  | '-' :: rest => (true, rest)
  | '+' :: rest => (false, rest)
  | cs => (false, cs)

/-- Decimal digits of an integer: a leading zero stands alone. -/
def readWhole : Chars → Option (Chars × Chars)
  | '0' :: rest => some (['0'], rest)
  | cs => readDigits isDecimal cs

/-- Integers have 64 bits, one of them the sign. -/
def integer? (n : Int) : Option Value :=
  if -0x8000000000000000 ≤ n && n < 0x8000000000000000 then some (.integer n) else none

def readBase (base : Nat) (isDigit : Char → Bool) (cs : Chars) : Option (Value × Chars) := do
  let (digits, rest) ← readDigits isDigit cs
  return (← integer? (valueOf base digits), rest)

def isHexadecimal (c : Char) : Bool := (hexDigit? c).isSome

def isOctal (c : Char) : Bool := '0' ≤ c && c ≤ '7'

def isBinary (c : Char) : Bool := c == '0' || c == '1'

def readInteger : Chars → Option (Value × Chars)
  | '0' :: 'x' :: rest => readBase 16 isHexadecimal rest
  | '0' :: 'o' :: rest => readBase 8 isOctal rest
  | '0' :: 'b' :: rest => readBase 2 isBinary rest
  | cs => do
    let (negative, cs) := readSign cs
    let (digits, rest) ← readWhole cs
    let n : Int := valueOf 10 digits
    return (← integer? (if negative then -n else n), rest)

/-- A whole number times a power of ten, rounded to double precision. -/
def scaled (digits : Chars) (exponent : Int) : Float :=
  let n := valueOf 10 digits
  let size := exponent + digits.length
  if n == 0 || size < -400 then 0
  else if 400 < exponent + (toString n).length then 1 / 0
  else Float.ofScientific n (exponent < 0) exponent.natAbs

def readExponent : Chars → Option (Int × Chars)
  | c :: rest =>
    if c == 'e' || c == 'E' then do
      let (negative, rest) := readSign rest
      let (digits, rest) ← readDigits isDecimal rest
      let n : Int := valueOf 10 digits
      return (if negative then -n else n, rest)
    else none
  | [] => none

/-- The digits behind the point and the exponent, of which one may be missing. -/
def readTail (cs : Chars) : Option (Chars × Int × Chars) :=
  match cs with
  | '.' :: cs => do
    let (fraction, rest) ← readDigits isDecimal cs
    match rest with
    | 'e' :: _ | 'E' :: _ => do
      let (exponent, rest) ← readExponent rest
      return (fraction, exponent, rest)
    | rest => return (fraction, 0, rest)
  | cs => do
    let (exponent, rest) ← readExponent cs
    return ([], exponent, rest)

/-- A number with a fraction, an exponent or both; one that is too large above zero is
refused. -/
def readFraction (cs : Chars) : Option (Value × Chars) := do
  let (negative, cs) := readSign cs
  let (whole, cs) ← readWhole cs
  let (fraction, exponent, rest) ← readTail cs
  let x := scaled (whole ++ fraction) (exponent - fraction.length)
  if negative then return (.float (-x), rest)
  else if x.isInf then none
  else return (.float x, rest)

def readSpecial (cs : Chars) : Option (Value × Chars) :=
  let (negative, cs) := readSign cs
  let signed (x : Float) : Value := .float (if negative then -x else x)
  match cs with
  | 'i' :: 'n' :: 'f' :: rest => some (signed (1 / 0), rest)
  | 'n' :: 'a' :: 'n' :: rest => some (signed (0 / 0), rest)
  | _ => none

/-- Reads a number of exactly `n` digits that lies between the bounds. -/
def readField (n low high : Nat) (cs : Chars) : Option (Nat × Chars) :=
  let digits := cs.take n
  if digits.length == n && digits.all isDecimal then
    let k := valueOf 10 digits
    if low ≤ k && k ≤ high then some (k, cs.drop n) else none
  else none

def skip (mark : Char) : Chars → Option Chars
  | c :: rest => if c == mark then some rest else none
  | [] => none

def isLeap (year : Nat) : Bool := year % 4 == 0 && (year % 100 != 0 || year % 400 == 0)

def daysIn (year month : Nat) : Nat :=
  if month == 2 then (if isLeap year then 29 else 28)
  else if [4, 6, 9, 11].contains month then 30
  else 31

/-- Skips a date of the calendar. -/
def skipDate (cs : Chars) : Option Chars := do
  let (year, cs) ← readField 4 0 9999 cs
  let (month, cs) ← readField 2 1 12 (← skip '-' cs)
  let (_, cs) ← readField 2 1 (daysIn year month) (← skip '-' cs)
  return cs

/-- Skips a time of the day; the seconds go up to 60. -/
def skipTime (cs : Chars) : Option Chars := do
  let (_, cs) ← readField 2 0 23 cs
  let (_, cs) ← readField 2 0 59 (← skip ':' cs)
  let (_, cs) ← readField 2 0 60 (← skip ':' cs)
  match cs with
  | '.' :: cs =>
    let digits := cs.takeWhile isDecimal
    if digits.isEmpty then none else return cs.drop digits.length
  | cs => return cs

/-- Skips an offset from universal time, which need not be there. -/
def skipOffset (cs : Chars) : Option Chars :=
  match cs with
  | 'Z' :: rest | 'z' :: rest => some rest
  | '+' :: rest | '-' :: rest => do
    let (_, rest) ← readField 2 0 23 rest
    let (_, rest) ← readField 2 0 59 (← skip ':' rest)
    return rest
  | cs => some cs

/-- Skips a time behind its date; where no time follows, the date stands alone. -/
def skipTimeOfDate : Chars → Option Chars
  | c :: rest =>
    if c == 'T' || c == 't' || c == ' ' then
      match skipTime rest with
      | some rest => skipOffset rest
      | none => some (c :: rest)
    else some (c :: rest)
  | [] => some []

def readDate (cs : Chars) : Option (Value × Chars) := do
  let rest ←
    match skipDate cs with
    | some rest => skipTimeOfDate rest
    | none => skipTime cs
  return (.date (String.ofList (cs.take (cs.length - rest.length))), rest)

/-- Reads a date, a floating number or an integer. -/
def readNumber (cs : Chars) : Option (Value × Chars) :=
  readDate cs <|> readSpecial cs <|> readFraction cs <|> readInteger cs

end ProgramSearch.Toml
