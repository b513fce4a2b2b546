/-!
# Embeddings

Vectors of single-precision numbers. Sums run from left to right and start from minus zero, the
neutral element of rounded addition.
-/
namespace ProgramSearch

abbrev Embedding := List Float32

namespace Embedding

def sum (v : Embedding) : Float32 := v.foldl (· + ·) (-0.0)

def dot (a b : Embedding) : Float32 := sum (List.zipWith (· * ·) a b)

def norm (v : Embedding) : Float32 := (dot v v).sqrt

/-- The position of the first value that is infinite or no number. -/
def badPosition? (v : Embedding) : Option Nat := v.findIdx? fun x => !x.isFinite

end Embedding

/-- The pattern a score is ordered by. An invalid operation yields the negative pattern that
stands for no number, so such a score ranks below every other. -/
def orderBits (x : Float32) : UInt32 := if x.isNaN then 0xFFC00000 else x.toBits

/-- The total order of single-precision patterns, as an integer: sign and magnitude, with minus
zero below plus zero. -/
def orderKey (x : Float32) : Int :=
  let bits := (orderBits x).toNat
  if bits < 0x80000000 then bits else -(bits - 0x80000000 : Nat) - 1

end ProgramSearch
