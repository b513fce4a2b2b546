import ProgramSearch.Json.Shape
import ProgramSearch.Model.Failure

/-!
# Model weights

A weights file holds named tensors of single-precision numbers: the length of a JSON header in
eight bytes, the header with the shape and place of each tensor, and the numbers one after
another, all with the lowest byte first.
-/
namespace ProgramSearch

structure Tensor where
  shape : List Nat
  values : List Float32
deriving Inhabited

structure Weights where
  tensors : List (String × Tensor)
deriving Inhabited

namespace Weights

open Json

def lowBytes (count n : Nat) : List UInt8 :=
  (List.range count).map fun i => (n / Nat.pow 256 i % 256).toUInt8

def ofLowBytes (bytes : List UInt8) : Nat := bytes.foldr (fun b n => n * 256 + b.toNat) 0

def valueBytes (x : Float32) : List UInt8 := lowBytes 4 x.toBits.toNat

/-- The numbers of a run of bytes. -/
def values : List UInt8 → List Float32
  | a :: b :: c :: d :: rest => Float32.ofBits (ofLowBytes [a, b, c, d]).toUInt32 :: values rest
  | _ => []

/-- The header entries of tensors whose numbers start at byte `offset`. -/
def entries (offset : Nat) : List (String × Tensor) → List (String × Value)
  | [] => []
  | (name, t) :: rest =>
    let stop := offset + 4 * t.values.length
    (name, .object [("dtype", .string "F32"), ("shape", .array (t.shape.map .nat)),
      ("data_offsets", .array [.nat offset, .nat stop])]) :: entries stop rest

def toBytes (w : Weights) : List UInt8 :=
  let header := (Value.object (entries 0 w.tensors)).compact.toUTF8.data.toList
  lowBytes 8 header.length ++ header ++ w.tensors.flatMap fun (_, t) => t.values.flatMap valueBytes

/-- What the header says about one tensor: its shape and the bytes it occupies. -/
structure Entry where
  name : String
  shape : List Nat
  start : Nat
  stop : Nat

def entry (name : String) (v : Value) : Option Entry := do
  let shape ← ((← v.get? "shape").list Value.count).toOption
  let offsets ← ((← v.get? "data_offsets").list Value.count).toOption
  match v.get? "dtype", offsets with
  | some (.string "F32"), [start, stop] => some ⟨name, shape, start, stop⟩
  | _, _ => none

def maxWord : Nat := 0xFFFFFFFFFFFFFFFF

def maxHeader : Nat := 100000000

/-- What is wrong with the places of tensors in `size` bytes: each must begin where the one before
it ends and be as long as its shape says, and the last must end where the bytes end. -/
def fault? (offset size : Nat) : List Entry → Option WeightFault
  | [] => if offset == size then none else some .wrongEnd
  | e :: rest =>
    let length := 4 * e.shape.foldl (· * ·) 1
    if e.start != offset || e.stop < e.start then some (.misplaced e.name)
    else if maxWord < length then some .shapeTooLarge
    else if e.stop - e.start != length then some .wrongLength
    else fault? e.stop size rest

/-- The entries of a header in the order of their places. -/
def entriesOf (header : Value) : Option (List Entry) := do
  match header with
  | .object members =>
    let entries ← (members.filter (·.1 != "__metadata__")).mapM fun (name, v) => entry name v
    return entries.mergeSort fun a b => a.start < b.start || (a.start == b.start && a.stop ≤ b.stop)
  | _ => none

/-- The header of a file, and the bytes behind it. -/
def splitHeader (bytes : List UInt8) : Except WeightFault (Value × List UInt8) := do
  let size := ofLowBytes (bytes.take 8)
  let rest := bytes.drop 8
  if bytes.length < 8 then throw .noHeader
  if maxHeader < size then throw .headerTooLarge
  if rest.length < size then throw .headerCut
  match String.fromUTF8? ⟨(rest.take size).toArray⟩ with
  | none => throw .headerNotText
  | some text =>
    match Json.parse text with
    | .error _ => throw .badHeader
    | .ok header => return (header, rest.drop size)

/-- Reads a weights file. -/
def ofBytes (bytes : List UInt8) : Except WeightFault Weights := do
  let (header, data) ← splitHeader bytes
  match entriesOf header with
  | none => throw .badHeader
  | some entries =>
    match fault? 0 data.length entries with
    | some fault => throw fault
    | none =>
      return ⟨entries.map fun e =>
        (e.name, ⟨e.shape, values ((data.drop e.start).take (e.stop - e.start))⟩)⟩

/-- The tensor of a name and shape. -/
def get (w : Weights) (name : String) (shape : List Nat) : Except ModelFailure Tensor :=
  match w.tensors.lookup name with
  | none => .error (.tensor (.missing name))
  | some t =>
    if t.shape == shape then .ok t else .error (.tensor (.wrongShape name shape t.shape))

end Weights

end ProgramSearch
