import ProgramSearch.Failure
import ProgramSearch.Record
import ProgramSearch.Embedding

/-!
# Shards

A shard holds a bounded number of records together with one row-major matrix of their embeddings.
A builder accepts records one by one and refuses those whose embedding does not fit.
-/
namespace ProgramSearch

open ProgramSearch.Embedding

structure Shard where
  dimension : Nat
  records : Array Record
  matrix : Array Float32
  norms : Array Float32
deriving Inhabited

namespace Shard

def size (s : Shard) : Nat := s.records.size

def isEmpty (s : Shard) : Bool := s.size == 0

def record? (s : Shard) (row : Nat) : Option Record := s.records[row]?

def norm? (s : Shard) (row : Nat) : Option Float32 := s.norms[row]?

/-- The embedding of a row, if the matrix reaches that far. -/
def embedding? (s : Shard) (row : Nat) : Option Embedding :=
  let start := row * s.dimension
  if start + s.dimension ≤ s.matrix.size then
    some (s.matrix.extract start (start + s.dimension)).toList
  else none

/-- How wide a row of a scan is; a scan walks the matrix, and every step takes some of it. -/
def stride (s : Shard) : Nat := max s.dimension 1

/-- The rows that a scan meets, with their numbers. Vectors of dimension 0 leave nothing to
scan. -/
def rows (s : Shard) : List (Nat × Embedding) :=
  (List.range (min s.size (s.matrix.size / s.stride))).map fun row =>
    (row, (s.matrix.extract (row * s.stride) (row * s.stride + s.stride)).toList)

end Shard

structure ShardBuilder where
  dimension : Nat
  capacity : Nat
  records : Array Record
  matrix : Array Float32
  norms : Array Float32
  skipped : Nat

namespace ShardBuilder

/-- An empty builder; a capacity of zero counts as one. -/
def empty (dimension capacity : Nat) : ShardBuilder :=
  ⟨dimension, max capacity 1, #[], #[], #[], 0⟩

def size (b : ShardBuilder) : Nat := b.records.size

def isEmpty (b : ShardBuilder) : Bool := b.size == 0

def isFull (b : ShardBuilder) : Bool := b.capacity ≤ b.size

/-- What is wrong with a vector for the given dimension. -/
def vectorFailure? (dimension : Nat) (v : Embedding) : Option Failure :=
  if v.length != dimension then some (.dimensionMismatch dimension v.length)
  else match badPosition? v with
    | some position => some (.notFinite position)
    | none => none

/-- Appends a record with its embedding. A full builder refuses everything; otherwise an
embedding of the wrong length, or with values that are not finite, is refused and counted. -/
def push (b : ShardBuilder) (record : Record) (v : Embedding) : ShardBuilder × Option Failure :=
  if b.isFull then (b, some (.shardFull b.capacity))
  else match vectorFailure? b.dimension v with
    | some failure => ({ b with skipped := b.skipped + 1 }, some failure)
    | none =>
      ({ b with
          records := b.records.push record
          matrix := b.matrix ++ v
          norms := b.norms.push (norm v) }, none)

def finish (b : ShardBuilder) : Shard := ⟨b.dimension, b.records, b.matrix, b.norms⟩

end ShardBuilder

end ProgramSearch
