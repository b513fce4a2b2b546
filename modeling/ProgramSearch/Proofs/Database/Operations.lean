import Mathlib
import ProgramSearch.Proofs.Database.Filling

/-!
# Operations on a database

A database is a stack of shards that keeps count of their rows. The count stays right under any
operations, also those that are refused, so it can always be reduced by the rows of the shard that
is taken off.
-/
namespace ProgramSearch.Database

/-- The database with further shards on top of its own. -/
def stacked (db : Database) (shards : List Shard) : Database :=
  { db with
    shards := db.shards ++ shards.toArray
    size := db.size + (shards.map Shard.size).sum }

variable {db : Database} {dimension : Nat}

theorem stacked_nil (db : Database) : db.stacked [] = db := by
  simp [stacked]

theorem stacked_stacked (db : Database) (shards others : List Shard) :
    (db.stacked shards).stacked others = db.stacked (shards ++ others) := by
  simp [stacked, Nat.add_assoc]

theorem extended_eq_stacked (db : Database) (groups : List (List Entry)) :
    db.extended groups = db.stacked (groups.map (Shard.ofEntries db.dimension)) := by
  simp [extended, stacked, List.length_flatten, Function.comp_def]

/-! ### What the operations do -/

theorem pushShard_of_dimension {s : Shard} (h : s.dimension = db.dimension) :
    db.pushShard s = .ok (db.stacked [s]) := by
  rw [pushShard, h, bne_self_eq_false, if_neg Bool.false_ne_true]
  simp [stacked]

theorem pushShard_of_other {s : Shard} (h : s.dimension ≠ db.dimension) :
    db.pushShard s = .error (.dimensionMismatch db.dimension s.dimension) := by
  rw [pushShard, if_pos (bne_iff_ne.mpr h)]

theorem addRecords_eq_stacked (db : Database) (entries : List Entry) (capacity : Nat) :
    ∃ added skipped, (∀ s ∈ added, s.dimension = db.dimension) ∧
      db.addRecords entries capacity = .ok (db.stacked added, skipped) := by
  refine ⟨_, _, ?_, (addRecords_eq db entries capacity).trans (by rw [extended_eq_stacked])⟩
  exact List.forall_mem_map.mpr fun _ _ => rfl

theorem popShard?_stacked (db : Database) (s : Shard) :
    (db.stacked [s]).popShard? = some (s, db) := by
  simp [popShard?, stacked]

theorem pushShards_of_dimension {shards : List Shard}
    (h : ∀ s ∈ shards, s.dimension = db.dimension) :
    shards.foldlM pushShard db = .ok (db.stacked shards) := by
  induction shards generalizing db with
  | nil => rw [stacked_nil]; rfl
  | cons s rest ih =>
    obtain ⟨hs, hrest⟩ := List.forall_mem_cons.mp h
    have htail : rest.foldlM pushShard (db.stacked [s]) = .ok ((db.stacked [s]).stacked rest) :=
      ih hrest
    rw [List.foldlM_cons, pushShard_of_dimension hs, ok_bind, htail, stacked_stacked,
      List.singleton_append]

/-- Takes off a number of shards. -/
def popShards? : Nat → Database → Option (List Shard × Database)
  | 0, db => some ([], db)
  | k + 1, db => do
    let (s, db) ← db.popShard?
    let (shards, db) ← popShards? k db
    return (s :: shards, db)

/-- Shards come off in the order opposite to the one in which they were put on. -/
theorem popShards?_stacked (db : Database) (shards : List Shard) :
    popShards? shards.length (db.stacked shards.reverse) = some (shards, db) := by
  induction shards with
  | nil => exact congrArg (fun db => some ([], db)) db.stacked_nil
  | cons s rest ih =>
    rw [List.reverse_cons, List.length_cons, popShards?, ← stacked_stacked, popShard?_stacked]
    simp only [Option.bind_eq_bind, Option.bind_some, ih]
    rfl

/-! ### Sequences of operations -/

inductive Operation where
  | push (shard : Shard)
  | pop
  | add (entries : List Entry) (capacity : Nat)

/-- The database after an operation. One that fails leaves it as it was. -/
def perform (db : Database) : Operation → Database
  | .push shard =>
    match db.pushShard shard with
    | .ok db' => db'
    | .error _ => db
  | .pop =>
    match db.popShard? with
    | some (_, db') => db'
    | none => db
  | .add entries capacity =>
    match db.addRecords entries capacity with
    | .ok (db', _) => db'
    | .error _ => db

def performAll (db : Database) (operations : List Operation) : Database :=
  operations.foldl perform db

theorem perform_push_of_other {s : Shard} (h : s.dimension ≠ db.dimension) :
    db.perform (.push s) = db := by
  rw [perform, pushShard_of_other h]

/-- All shards have the dimension of the database, and its size is the number of their rows. -/
structure Counted (dimension : Nat) (db : Database) : Prop where
  dimension_eq : db.dimension = dimension
  shards : ∀ s ∈ db.shards, s.dimension = dimension
  size_eq : db.size = (db.shards.toList.map Shard.size).sum

theorem counted_empty (dimension : Nat) : (empty dimension).Counted dimension :=
  ⟨rfl, by simp [empty], rfl⟩

namespace Counted

theorem stacked (h : db.Counted dimension) {shards : List Shard}
    (hshards : ∀ s ∈ shards, s.dimension = db.dimension) :
    (db.stacked shards).Counted dimension := by
  refine ⟨h.dimension_eq, fun s hs => ?_, ?_⟩
  · rcases Array.mem_append.mp hs with hold | hnew
    · exact h.shards s hold
    · exact (hshards s (List.mem_toArray.mp hnew)).trans h.dimension_eq
  · simp [Database.stacked, h.size_eq]

/-- The rows of the shard on top are a part of all rows. -/
theorem size_popShard (h : db.Counted dimension) {s : Shard} {db' : Database}
    (hpop : db.popShard? = some (s, db')) :
    db.size = (db'.shards.toList.map Shard.size).sum + s.size := by
  obtain ⟨shards, hshards, rfl⟩ := popShard?_eq_some hpop
  rw [h.size_eq, hshards]
  simp

theorem popShard (h : db.Counted dimension) {s : Shard} {db' : Database}
    (hpop : db.popShard? = some (s, db')) : db'.Counted dimension := by
  have hsize := h.size_popShard hpop
  obtain ⟨shards, hshards, rfl⟩ := popShard?_eq_some hpop
  refine ⟨h.dimension_eq, fun t ht => h.shards t ?_, Nat.sub_eq_of_eq_add hsize⟩
  rw [hshards]
  exact Array.mem_push_of_mem s ht

theorem perform (h : db.Counted dimension) (operation : Operation) :
    (db.perform operation).Counted dimension := by
  cases operation with
  | push s =>
    by_cases hs : s.dimension = db.dimension
    · rw [Database.perform, pushShard_of_dimension hs]
      exact h.stacked (List.forall_mem_singleton.mpr hs)
    · rw [perform_push_of_other hs]
      exact h
  | pop =>
    rw [Database.perform]
    cases hpop : db.popShard? with
    | none => exact h
    | some popped => exact h.popShard hpop
  | add entries capacity =>
    obtain ⟨added, skipped, hadded, hadd⟩ := addRecords_eq_stacked db entries capacity
    rw [Database.perform, hadd]
    exact h.stacked hadded

theorem performAll (h : db.Counted dimension) (operations : List Operation) :
    (db.performAll operations).Counted dimension := by
  induction operations generalizing db with
  | nil => exact h
  | cons operation rest ih => exact ih (h.perform operation)

/-- Shards without rows do not count. -/
theorem isEmpty_iff (h : db.Counted dimension) :
    db.isEmpty = true ↔ ∀ s ∈ db.shards, s.size = 0 := by
  rw [isEmpty, beq_iff_eq, h.size_eq, List.sum_eq_zero_iff_forall_eq_nat, List.forall_mem_map]
  exact forall_congr' fun s => by rw [Array.mem_toList_iff]

end Counted

/-- After any operations on a new database its size is the number of the rows of its shards, so it
is empty exactly if they all are, and no shard that is taken off has more rows. All shards have the
dimension of the database, and pushing one of another dimension fails and changes nothing. Adding
records puts shards behind the others. What was pushed is taken off again in the opposite order, and
then the database is the one before. -/
theorem counted_performAll_empty (dimension : Nat) (operations : List Operation) :
    let db := (empty dimension).performAll operations
    db.Counted dimension ∧
      (db.isEmpty = true ↔ ∀ s ∈ db.shards, s.size = 0) ∧
      (∀ s db', db.popShard? = some (s, db') → s.size ≤ db.size) ∧
      (∀ s, s.dimension ≠ dimension →
        db.pushShard s = .error (.dimensionMismatch dimension s.dimension) ∧
          db.perform (.push s) = db) ∧
      (∀ entries capacity, ∃ added db' skipped,
        db.addRecords entries capacity = .ok (db', skipped) ∧
          db'.shards = db.shards ++ added) ∧
      ∀ pushed : List Shard, (∀ s ∈ pushed, s.dimension = dimension) →
        ∃ db', pushed.foldlM pushShard db = .ok db' ∧
          db'.popShards? pushed.length = some (pushed.reverse, db) := by
  intro db
  have hcounted : db.Counted dimension := (counted_empty dimension).performAll operations
  refine ⟨hcounted, hcounted.isEmpty_iff, fun s db' hpop => ?_, fun s hs => ?_,
    fun entries capacity => ?_, fun pushed hpushed => ?_⟩
  · rw [hcounted.size_popShard hpop]
    exact Nat.le_add_left _ _
  · have hother : s.dimension ≠ db.dimension := hcounted.dimension_eq ▸ hs
    exact ⟨hcounted.dimension_eq ▸ pushShard_of_other hother, perform_push_of_other hother⟩
  · obtain ⟨added, skipped, -, hadd⟩ := addRecords_eq_stacked db entries capacity
    exact ⟨added.toArray, _, skipped, hadd, rfl⟩
  · refine ⟨_, pushShards_of_dimension (hcounted.dimension_eq ▸ hpushed), ?_⟩
    have hpop := popShards?_stacked db pushed.reverse
    rwa [List.reverse_reverse, List.length_reverse] at hpop

/-- A shard of another dimension is pushed, two records are added in shards of one row each, and the
second shard is taken off. Two shards that are pushed then are taken off again. -/
theorem counted_performAll_empty_of_three :
    let entries : List Entry := [(default, [1.0]), (default, [2.0])]
    let other := Shard.ofEntries 2 []
    let db := (empty 1).performAll [.push other, .add entries 1, .pop]
    let pushed := [Shard.ofEntries 1 [], Shard.ofEntries 1 entries]
    db.size = 1 ∧ (∃ s rest, db.popShard? = some (s, rest) ∧ s.size ≤ db.size) ∧
      other.dimension ≠ 1 ∧ db.perform (.push other) = db ∧
      (∀ s ∈ pushed, s.dimension = 1) ∧
        ∃ db', pushed.foldlM pushShard db = .ok db' ∧
          db'.popShards? 2 = some (pushed.reverse, db) := by
  intro entries other db pushed
  have hother : other.dimension ≠ 1 := by decide
  have hpushed : ∀ s ∈ pushed, s.dimension = 1 := by simp [pushed]
  obtain ⟨-, -, hpop, hreject, -, hback⟩ :=
    counted_performAll_empty 1 [.push other, .add entries 1, .pop]
  exact ⟨rfl, ⟨_, _, rfl, hpop _ _ rfl⟩, hother, (hreject other hother).2, hpushed,
    hback pushed hpushed⟩

end ProgramSearch.Database
