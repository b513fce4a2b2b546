import ProgramSearch.Failure
import ProgramSearch.Json.Shape
import ProgramSearch.Shard

/-!
# Queries

A query is an embedding with metadata that is passed through. Queries are ranked in batches of a
fixed number of slots; the last batch may be filled up with padding.
-/
namespace ProgramSearch

open ProgramSearch.Embedding

structure Query where
  embedding : Embedding
  metadata : Json.Value
deriving Inhabited

namespace Query

/-- A vector is fit when it has the dimension asked for and all its values are finite. -/
def checkVector (dimension : Nat) (v : Embedding) : Except Failure Unit :=
  match ShardBuilder.vectorFailure? dimension v with
  | some failure => .error failure
  | none => .ok ()

def check (q : Query) (dimension : Nat) : Except Failure Unit := checkVector dimension q.embedding

end Query

inductive Slot where
  | query (q : Query)
  | padding
deriving Inhabited

def Slot.isPadding : Slot → Bool
  | padding => true
  | query _ => false

def Slot.query? : Slot → Option Query
  | query q => some q
  | padding => none

/-- What becomes of a last batch that is not full. -/
inductive PaddingPolicy where
  | pad
  | reject
deriving Repr, DecidableEq

structure Batch where
  dimension : Nat
  slots : List Slot
deriving Inhabited

namespace Batch

def size (b : Batch) : Nat := b.slots.length

/-- The queries of a batch with their slots. -/
def queries (b : Batch) : List (Nat × Query) :=
  b.slots.zipIdx.filterMap fun (slot, i) => slot.query?.map fun q => (i, q)

def padding (b : Batch) : Nat := b.slots.countP Slot.isPadding

def isPadded (b : Batch) : Bool := 0 < b.padding

/-- Why `queries` cannot be batched. A wrong length anywhere is reported before a value that is
not finite, and that before an unfilled last batch. -/
def fault? (queries : List Query) (batchSize dimension : Nat) (policy : PaddingPolicy) :
    Option BatchFault :=
  let wrongLength := queries.zipIdx.findSome? fun (q, i) =>
    if q.embedding.length != dimension then
      some (BatchFault.wrongDimension i q.embedding.length dimension)
    else none
  let unfit := queries.zipIdx.findSome? fun (q, i) =>
    (badPosition? q.embedding).map (BatchFault.notFinite i)
  if batchSize == 0 then some .sizeZero
  else match wrongLength, unfit with
    | some fault, _ => some fault
    | none, some fault => some fault
    | none, none =>
      if queries.length % batchSize != 0 && policy == .reject then
        some (.unfilled queries.length batchSize)
      else none

/-- Queries that are being split: the batches that are full, and the slots of the next one. -/
structure Splitting where
  batches : Array Batch
  slots : Array Slot

/-- A query takes the next slot. When it is the last one the slots become a batch. -/
def Splitting.add (batchSize dimension : Nat) (s : Splitting) (q : Query) : Splitting :=
  let slots := s.slots.push (.query q)
  if slots.size == batchSize then ⟨s.batches.push ⟨dimension, slots.toList⟩, #[]⟩
  else { s with slots }

/-- The slots that are left over become a batch that is filled up with padding. -/
def Splitting.finish (batchSize dimension : Nat) (s : Splitting) : List Batch :=
  if s.slots.isEmpty then s.batches.toList
  else (s.batches.push ⟨dimension, (s.slots.rightpad batchSize .padding).toList⟩).toList

/-- Splits queries into batches of exactly `batchSize` slots. -/
def split (queries : List Query) (batchSize dimension : Nat) (policy : PaddingPolicy) :
    Except Failure (List Batch) :=
  match fault? queries batchSize dimension policy with
  | some fault => .error (.batch fault)
  | none =>
    .ok ((queries.foldl (Splitting.add batchSize dimension) ⟨#[], #[]⟩).finish batchSize dimension)

/-- All queries in one batch without padding; no queries make a batch without slots. -/
def single (queries : List Query) (dimension : Nat) : Except Failure Batch := do
  let batches ← split queries (max queries.length 1) dimension .reject
  return batches.getLast?.getD ⟨dimension, []⟩

end Batch

end ProgramSearch
