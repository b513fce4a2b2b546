import ProgramSearch.Decimal.Shortest

/-!
# Layouts of decimal text

Three layouts are used: the natural one of JSON numbers, which is positional for moderate
magnitudes and scientific otherwise; the plain one of messages, which is always positional; and
the fixed one of tables, which shows a set number of places.
-/
namespace ProgramSearch.Decimal

/-- Magnitudes of `10 ^ low` up to but not including `10 ^ (high + 1)` are written positionally. -/
structure Positional where
  low : Int
  high : Int

/-- JSON numbers are positional from `0.00001` up to sixteen integer digits. -/
def jsonPositional : Positional := ⟨-5, 15⟩

/-- Positional text; `point` adds a fraction to an integer, so that it reads as a decimal. -/
def Scaled.positional (d : Scaled) (point : Bool) : List Char :=
  let ds := Decimal.digits d.digits
  let places := (-d.exponent).toNat
  if places == 0 then
    ds ++ zeros d.exponent.toNat ++ (if point then ['.', '0'] else [])
  else if places < ds.length then
    ds.take (ds.length - places) ++ '.' :: ds.drop (ds.length - places)
  else '0' :: '.' :: zeros (places - ds.length) ++ ds

/-- One digit, the fraction if there is one, and a signed exponent (`1e-6`, `2.5e+16`). -/
def Scaled.scientific (d : Scaled) : List Char :=
  let ds := Decimal.digits d.digits
  let e : Int := d.exponent + ds.length - 1
  let mark := if e < 0 then ['e', '-'] else ['e', '+']
  ds.take 1 ++ (if ds.length > 1 then '.' :: ds.drop 1 else []) ++ mark ++
    Decimal.digits e.natAbs

/-- The natural layout: positional within the given range, scientific outside. -/
def Scaled.natural (d : Scaled) (range : Positional) : List Char :=
  let e : Int := d.exponent + (Decimal.digits d.digits).length - 1
  if d.digits == 0 || (range.low ≤ e && e ≤ range.high) then d.positional true else d.scientific

def signed (negative : Bool) (text : List Char) : String :=
  String.ofList (if negative then '-' :: text else text)

/-- A JSON number; JSON has no infinities, so those become `null`. -/
def Reading.json : Reading → String
  | .finite negative m => signed negative (m.shortest.natural jsonPositional)
  | _ => "null"

/-- The number as it stands in a message: never an exponent, no fraction for an integer. -/
def Reading.plain : Reading → String
  | .finite negative m => signed negative (m.shortest.positional false)
  | .infinite negative => signed negative ['i', 'n', 'f']
  | .notNumber => "NaN"

/-- The number with `places` digits after the point; the exact value is rounded, and a half goes
to the even neighbour. -/
def Reading.fixed (places : Nat) : Reading → String
  | .finite negative m =>
    let (num, den) := m.fraction
    signed negative (Scaled.positional ⟨roundDiv (num * Nat.pow 10 places) den, -(places : Int)⟩ false)
  | .infinite negative => signed negative ['i', 'n', 'f']
  | .notNumber => "NaN"

end ProgramSearch.Decimal
