import ProgramSearch.Json.Fault
import ProgramSearch.Json.Value

/-!
# Numerals

A numeral is kept as its digits until someone asks for its value, so that a number which is too
large is a fault only where it is used. Whole numerals are integers as far as 64 bits hold them.
All other values are doubles, computed from the leading digits that fit 64 bits and one scaling
by a power of ten.
-/
namespace ProgramSearch.Json

structure Numeral where
  negative : Bool
  whole : List Nat
  fraction : Option (List Nat)
  exponent : Option (Bool × List Nat)
deriving Repr, DecidableEq, Inhabited

namespace Numeral

def maxWord : Nat := 0xFFFFFFFFFFFFFFFF

/-- Extends `n` by digits as long as the result fits a word; returns the digits left over. -/
def extend (n : Nat) : List Nat → Nat × List Nat
  | [] => (n, [])
  | d :: rest => if n * 10 + d ≤ maxWord then extend (n * 10 + d) rest else (n, d :: rest)

def ofDigits (ds : List Nat) : Nat := ds.foldl (fun n d => n * 10 + d) 0

def powerOfTen (k : Nat) : Float := Float.ofScientific 1 false k

/-- Multiplies by `10 ^ exponent` in double arithmetic; steps of `10 ^ 308` bring very small
values into the range of one division. -/
def scale : Nat → Float → Int → Except Fault Float
  | 0, x, _ => .ok x
  | fuel + 1, x, exponent =>
    if exponent.natAbs ≤ 308 then
      if 0 ≤ exponent then
        let y := x * powerOfTen exponent.natAbs
        if y.isInf then .error .numberTooLarge else .ok y
      else .ok (x / powerOfTen exponent.natAbs)
    else if x == 0 then .ok x
    else if 0 ≤ exponent then .error .numberTooLarge
    else scale fuel (x / powerOfTen 308) (exponent + 308)

def signed (negative : Bool) (x : Float) : Float := if negative then -x else x

/-- The largest exponent that is read digit by digit. -/
def maxExponent : Nat := 0x7FFFFFFF

/-- The double that the digits denote. -/
def double (n : Numeral) : Except Fault Float := do
  let (significand, dropped) := extend 0 n.whole
  let (significand, places) :=
    match n.fraction with
    | none => (significand, 0)
    | some ds =>
      let (s, left) := extend significand ds
      (s, ds.length - left.length)
  let start : Int := dropped.length - places
  match n.exponent with
  | none => signed n.negative <$> scale 4 significand.toUInt64.toFloat start
  | some (down, ds) =>
    let e := ofDigits ds
    if e > maxExponent then
      if significand != 0 && !down then .error .numberTooLarge
      else .ok (signed n.negative 0)
    else
      signed n.negative <$>
        scale 4 significand.toUInt64.toFloat (if down then start - e else start + e)

/-- A whole numeral in the 64-bit range is an integer; minus zero is a double. -/
def number (n : Numeral) : Except Fault Number :=
  let whole := ofDigits n.whole
  if n.fraction.isNone && n.exponent.isNone then
    if n.negative then
      if whole != 0 && whole ≤ 0x8000000000000000 then .ok (.integer (-whole)) else .double <$> n.double
    else if whole ≤ maxWord then .ok (.integer whole)
    else .double <$> n.double
  else .double <$> n.double

end Numeral

end ProgramSearch.Json
