import ProgramSearch.Decimal.Basic

/-!
# The fewest digits that read back

A binary value owns the interval of reals that round to it. `shortest` finds the decimal with the
fewest digits inside that interval, and of the two on the same grid the nearer one. If any point
of a grid lies in the interval, so does one of the value's two neighbours on that grid, so only
those two are tried.
-/
namespace ProgramSearch.Decimal

/-- A decimal `digits * 10 ^ exponent`. -/
structure Scaled where
  digits : Nat
  exponent : Int
deriving Repr, DecidableEq

/-- The rounding interval of a magnitude, over one denominator. -/
structure Span where
  low : Nat
  value : Nat
  high : Nat
  den : Nat
  closed : Bool

def Magnitude.span (m : Magnitude) : Span :=
  let up := Nat.pow 2 (m.exponent - 2).toNat
  { low := (4 * m.significand - if m.narrowBelow then 1 else 2) * up
    value := 4 * m.significand * up
    high := (4 * m.significand + 2) * up
    den := Nat.pow 2 (2 - m.exponent).toNat
    closed := m.significand % 2 == 0 }

/-- Whether `num / den` lies in the interval. -/
def Span.has (s : Span) (num den : Nat) : Bool :=
  if s.closed then s.low * den ≤ num * s.den && num * s.den ≤ s.high * den
  else s.low * den < num * s.den && num * s.den < s.high * den

/-- The nearer of the value's neighbours on the grid of multiples of `10 ^ k` that lies in the
interval. -/
def Span.onGrid (s : Span) (k : Int) : Option Scaled :=
  let up := Nat.pow 10 k.toNat
  let down := Nat.pow 10 (-k).toNat
  let below := s.value * down / (s.den * up)
  let rest := s.value * down % (s.den * up)
  let hit (n : Nat) := s.has (n * up) down
  match hit below, hit (below + 1) with
  | true, true =>
    if 2 * rest > s.den * up || (2 * rest == s.den * up && below % 2 == 1) then
      some ⟨below + 1, k⟩
    else some ⟨below, k⟩
  | true, false => some ⟨below, k⟩
  | false, true => some ⟨below + 1, k⟩
  | false, false => none

/-- The power of ten at or below `num / den`, for a positive fraction. -/
def leadingExponent (num den : Nat) : Int :=
  let guess : Int := (digits num).length - (digits den).length
  if num * Nat.pow 10 (-guess).toNat < den * Nat.pow 10 guess.toNat then guess - 1 else guess

/-- Tries grids from the coarsest; seventeen digits always suffice for a binary64 value. -/
def Span.search (s : Span) (lead : Int) : Nat → Nat → Option Scaled
  | 0, _ => none
  | fuel + 1, n =>
    match s.onGrid (lead + 1 - n) with
    | some d => some d
    | none => s.search lead fuel (n + 1)

/-- Removes trailing zeros of the digits. -/
def Scaled.reduce : Nat → Scaled → Scaled
  | 0, d => d
  | fuel + 1, d =>
    if d.digits != 0 && d.digits % 10 == 0 then
      reduce fuel ⟨d.digits / 10, d.exponent + 1⟩
    else d

def Magnitude.shortest (m : Magnitude) : Scaled :=
  if m.significand == 0 then ⟨0, 0⟩ else
  let s := m.span
  ((s.search (leadingExponent s.value s.den) 18 1).getD ⟨s.value / s.den, 0⟩).reduce 400

end ProgramSearch.Decimal
