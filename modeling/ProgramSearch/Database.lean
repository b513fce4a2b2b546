import ProgramSearch.Shard

/-!
# Databases

An ordered list of shards of one dimension. The order of the shards, and of the rows within each,
is the scan order, which also breaks ties between equal scores.
-/
namespace ProgramSearch

open ProgramSearch.Embedding

structure Database where
  dimension : Nat
  shards : Array Shard
  size : Nat
deriving Inhabited

namespace Database

def empty (dimension : Nat) : Database := ⟨dimension, #[], 0⟩

def isEmpty (db : Database) : Bool := db.size == 0

/-- Appends a shard at the end of the scan order. -/
def pushShard (db : Database) (shard : Shard) : Except Failure Database :=
  if shard.dimension != db.dimension then
    .error (.dimensionMismatch db.dimension shard.dimension)
  else .ok { db with shards := db.shards.push shard, size := db.size + shard.size }

/-- Removes the shard added last. -/
def popShard? (db : Database) : Option (Shard × Database) :=
  match db.shards.back? with
  | none => none
  | some shard => some (shard, { db with shards := db.shards.pop, size := db.size - shard.size })

/-- A database together with the shard that is being filled, and the records skipped so far in
shards that were closed. -/
structure Filling where
  database : Database
  builder : ShardBuilder
  skipped : Nat

/-- Adds one record; a full shard is closed first. Records with unfit vectors are skipped. -/
def Filling.add (capacity : Nat) (f : Filling) (entry : Record × Embedding) :
    Except Failure Filling := do
  let f ←
    if f.builder.isFull then do
      let database ← f.database.pushShard f.builder.finish
      pure ⟨database, .empty f.database.dimension capacity, f.skipped + f.builder.skipped⟩
    else pure f
  match f.builder.push entry.1 entry.2 with
  | (builder, none) | (builder, some (.dimensionMismatch _ _)) | (builder, some (.notFinite _)) =>
    .ok { f with builder }
  | (_, some failure) => .error failure

/-- Appends the records in shards of `capacity` rows; also returns how many were skipped. -/
def addRecords (db : Database) (entries : List (Record × Embedding)) (capacity : Nat) :
    Except Failure (Database × Nat) := do
  let f ← entries.foldlM (Filling.add capacity) ⟨db, .empty db.dimension capacity, 0⟩
  let skipped := f.skipped + f.builder.skipped
  if f.builder.isEmpty then .ok (f.database, skipped)
  else do
    let database ← f.database.pushShard f.builder.finish
    .ok (database, skipped)

end Database

end ProgramSearch
