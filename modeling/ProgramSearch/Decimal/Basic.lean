/-!
# Binary values as exact fractions

The magnitude of a finite binary value is a natural number times a power of two. Everything that
turns a value into decimal text starts from this form, so it needs natural-number arithmetic only.
-/
namespace ProgramSearch.Decimal

/-- The magnitude `significand * 2 ^ exponent`. `narrowBelow` marks the least significand of a
binade: the next smaller value is then only half as far away as the next larger one. -/
structure Magnitude where
  significand : Nat
  exponent : Int
  narrowBelow : Bool
deriving Repr, DecidableEq

/-- What a bit pattern stands for. -/
inductive Reading where
  | finite (negative : Bool) (magnitude : Magnitude)
  | infinite (negative : Bool)
  | notNumber
deriving Repr, DecidableEq

/-- Splits a pattern into sign, exponent and fraction; a zero exponent field means a subnormal
value, a full one an infinity or no number at all. -/
def readBits (exponentBits fractionBits : Nat) (bits : Nat) : Reading :=
  let fraction := bits % Nat.pow 2 fractionBits
  let field := bits / Nat.pow 2 fractionBits % Nat.pow 2 exponentBits
  let negative := bits / Nat.pow 2 (fractionBits + exponentBits) % 2 == 1
  let bias : Int := Nat.pow 2 (exponentBits - 1) - 1 + fractionBits
  if field == Nat.pow 2 exponentBits - 1 then
    if fraction == 0 then .infinite negative else .notNumber
  else if field == 0 then .finite negative ⟨fraction, 1 - bias, false⟩
  else .finite negative ⟨Nat.pow 2 fractionBits + fraction, field - bias, fraction == 0 && field != 1⟩

def readSingle (x : Float32) : Reading := readBits 8 23 x.toBits.toNat

def readDouble (x : Float) : Reading := readBits 11 52 x.toBits.toNat

/-- The magnitude as numerator and denominator. -/
def Magnitude.fraction (m : Magnitude) : Nat × Nat :=
  (m.significand * Nat.pow 2 m.exponent.toNat, Nat.pow 2 (-m.exponent).toNat)

/-- The nearest integer to `num / den`; a half goes to the even neighbour. -/
def roundDiv (num den : Nat) : Nat :=
  let q := num / den
  let r := num % den
  if 2 * r > den || (2 * r == den && q % 2 == 1) then q + 1 else q

/-- The decimal digits of `n`, most significant first. -/
def digits (n : Nat) : List Char := Nat.toDigits 10 n

def zeros (n : Nat) : List Char := List.replicate n '0'

/-- `n` in lower-case hexadecimal, padded with zeros to `width` digits. -/
def hex (width n : Nat) : String :=
  let ds := Nat.toDigits 16 n
  String.ofList (List.replicate (width - ds.length) '0' ++ ds)

end ProgramSearch.Decimal
