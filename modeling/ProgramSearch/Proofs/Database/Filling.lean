import ProgramSearch.Proofs.Database.Contents
import ProgramSearch.Proofs.Group
import ProgramSearch.Proofs.Results

/-!
# Filling a database

Adding records to a database appends the shards of their groups: the entries that fit, in order,
in groups of the given capacity. Hence every database that is built by the operations of the
library is intact: its shards have its dimension, each of them is that of its entries, and the size
is the number of all entries.
-/
namespace ProgramSearch

namespace ShardBuilder

/-- What a builder has stored so far. -/
structure Holds (b : ShardBuilder) (entries : List Entry) : Prop where
  stored : b.finish = .ofEntries b.dimension entries
  fit : ∀ e ∈ entries, Entry.fits b.dimension e = true

variable {b : ShardBuilder} {entries : List Entry}

theorem holds_empty (dimension capacity : Nat) : (empty dimension capacity).Holds [] :=
  ⟨rfl, by simp⟩

theorem Holds.size_eq (h : b.Holds entries) : b.size = entries.length := by
  have hsize := congrArg Shard.size h.stored
  rwa [Shard.size_ofEntries] at hsize

theorem Holds.intact (h : b.Holds entries) : b.finish.Intact := by
  rw [h.stored]
  exact Shard.intact_ofEntries h.fit

theorem vectorFailure?_eq_some {dimension : Nat} {v : Embedding} {failure : Failure}
    (h : vectorFailure? dimension v = some failure) :
    (∃ expected actual, failure = .dimensionMismatch expected actual) ∨
      ∃ position, failure = .notFinite position := by
  rw [vectorFailure?] at h
  split at h
  · exact .inl ⟨_, _, (Option.some.inj h).symm⟩
  · split at h
    · exact .inr ⟨_, (Option.some.inj h).symm⟩
    · contradiction

theorem push_of_full (full : b.isFull = true) (e : Entry) :
    b.push e.1 e.2 = (b, some (.shardFull b.capacity)) := by
  rw [push, if_pos full]

/-- The builder after a fit entry. -/
def store (b : ShardBuilder) (e : Entry) : ShardBuilder :=
  { b with
    records := b.records.push e.1
    matrix := b.matrix ++ e.2
    norms := b.norms.push e.2.norm }

theorem push_of_fits {e : Entry} (room : b.isFull = false)
    (fits : Entry.fits b.dimension e = true) : b.push e.1 e.2 = (b.store e, none) := by
  rw [Entry.fits, Option.isNone_iff_eq_none] at fits
  rw [push, room, fits]
  rfl

theorem push_of_not_fits {e : Entry} (room : b.isFull = false)
    (unfit : Entry.fits b.dimension e = false) :
    ∃ failure, vectorFailure? b.dimension e.2 = some failure ∧
      b.push e.1 e.2 = ({ b with skipped := b.skipped + 1 }, some failure) := by
  rw [Entry.fits, Option.isNone_eq_false_iff] at unfit
  obtain ⟨failure, hfailure⟩ := Option.isSome_iff_exists.mp unfit
  exact ⟨failure, hfailure, by rw [push, room, hfailure]; rfl⟩

theorem Holds.store (h : b.Holds entries) {e : Entry}
    (fits : Entry.fits b.dimension e = true) : (b.store e).Holds (entries ++ [e]) := by
  constructor
  · have hstored := h.stored
    simp only [finish, Shard.ofEntries, Shard.mk.injEq, true_and] at hstored
    obtain ⟨hrecords, hmatrix, hnorms⟩ := hstored
    simp [ShardBuilder.store, finish, Shard.ofEntries, hrecords, hmatrix, hnorms]
  · intro other hother
    rcases List.mem_append.mp hother with hold | hnew
    · exact h.fit other hold
    · rwa [List.mem_singleton.mp hnew]

/-- A refused entry leaves what is stored. -/
theorem Holds.push (h : b.Holds entries) (e : Entry) :
    ∃ entries', (b.push e.1 e.2).1.Holds entries' := by
  cases room : b.isFull with
  | true => exact ⟨entries, by rw [push_of_full room]; exact h⟩
  | false =>
    cases fits : Entry.fits b.dimension e with
    | true => exact ⟨entries ++ [e], by rw [push_of_fits room fits]; exact h.store fits⟩
    | false =>
      obtain ⟨failure, -, hpush⟩ := push_of_not_fits room fits
      exact ⟨entries, by rw [hpush]; exact ⟨h.stored, h.fit⟩⟩

end ShardBuilder

namespace Database

/-- The database with further shards, each given by its entries. -/
def extended (db : Database) (groups : List (List Entry)) : Database :=
  { db with
    shards := db.shards ++ (groups.map (Shard.ofEntries db.dimension)).toArray
    size := db.size + groups.flatten.length }

theorem extended_nil (db : Database) : db.extended [] = db := by
  simp [extended]

theorem extended_extended (db : Database) (groups others : List (List Entry)) :
    (db.extended groups).extended others = db.extended (groups ++ others) := by
  simp [extended, Nat.add_assoc]

theorem pushShard_ofEntries (db : Database) (entries : List Entry) :
    db.pushShard (.ofEntries db.dimension entries) = .ok (db.extended [entries]) := by
  simp [pushShard, extended]

namespace Filling

/-- What the shard that is being filled holds. -/
structure Holds (capacity : Nat) (f : Filling) (entries : List Entry) : Prop where
  dimension_eq : f.builder.dimension = f.database.dimension
  capacity_eq : f.builder.capacity = max capacity 1
  held : f.builder.Holds entries
  length_le : entries.length ≤ max capacity 1

/-- Ends the filling: an empty shard is not kept. -/
def close (f : Filling) : Except Failure (Database × Nat) :=
  let skipped := f.skipped + f.builder.skipped
  if f.builder.isEmpty then .ok (f.database, skipped)
  else do
    let database ← f.database.pushShard f.builder.finish
    .ok (database, skipped)

variable {capacity : Nat} {f : Filling} {entries : List Entry}

theorem holds_empty (db : Database) (capacity skipped : Nat) :
    Holds capacity ⟨db, .empty db.dimension capacity, skipped⟩ [] :=
  ⟨rfl, rfl, ShardBuilder.holds_empty _ _, Nat.zero_le _⟩

theorem Holds.isFull_iff (h : f.Holds capacity entries) :
    f.builder.isFull = true ↔ entries.length = max capacity 1 := by
  rw [ShardBuilder.isFull, decide_eq_true_eq, h.capacity_eq, h.held.size_eq]
  have := h.length_le
  omega

theorem Holds.pushShard (h : f.Holds capacity entries) :
    f.database.pushShard f.builder.finish = .ok (f.database.extended [entries]) := by
  rw [h.held.stored, h.dimension_eq, pushShard_ofEntries]

/-- The filling that starts a new shard behind the one it had. -/
def renewed (capacity : Nat) (f : Filling) (entries : List Entry) : Filling :=
  ⟨f.database.extended [entries], .empty f.database.dimension capacity,
    f.skipped + f.builder.skipped⟩

theorem holds_renewed (capacity : Nat) (f : Filling) (entries : List Entry) :
    (f.renewed capacity entries).Holds capacity [] :=
  holds_empty (f.database.extended [entries]) capacity _

/-- A full shard is closed before the next entry is looked at. -/
theorem Holds.add_of_full (h : f.Holds capacity entries) (full : entries.length = max capacity 1)
    (e : Entry) : f.add capacity e = (f.renewed capacity entries).add capacity e := by
  have hroom : (f.renewed capacity entries).builder.isFull = false := by
    rw [Bool.eq_false_iff, ne_eq, (holds_renewed capacity f entries).isFull_iff, List.length_nil]
    omega
  rw [add, add, h.isFull_iff.mpr full, hroom, if_pos rfl, if_neg Bool.false_ne_true, h.pushShard]
  rfl

/-- While there is room, a fit entry joins the others and an unfit one is counted. -/
theorem Holds.add_of_room (h : f.Holds capacity entries) (room : entries.length < max capacity 1)
    (e : Entry) :
    ∃ f', f.add capacity e = .ok f' ∧ f'.database = f.database ∧
      f'.Holds capacity (entries ++ [e].filter (Entry.fits f.database.dimension)) ∧
      f'.skipped + f'.builder.skipped = f.skipped + f.builder.skipped +
        [e].countP (fun e => !Entry.fits f.database.dimension e) := by
  have hroom : f.builder.isFull = false := by
    rw [Bool.eq_false_iff, ne_eq, h.isFull_iff]
    omega
  rw [add, hroom, if_neg Bool.false_ne_true, ← h.dimension_eq]
  cases fits : Entry.fits f.builder.dimension e with
  | true =>
    rw [List.filter_cons_of_pos fits, List.filter_nil]
    refine ⟨{ f with builder := f.builder.store e }, ?_, rfl,
      ⟨h.dimension_eq, h.capacity_eq, h.held.store fits, ?_⟩, ?_⟩
    · simp only [pure_bind, ShardBuilder.push_of_fits hroom fits]
    · rw [List.length_append, List.length_singleton]
      omega
    · simp [fits, ShardBuilder.store]
  | false =>
    obtain ⟨failure, hfailure, hpush⟩ := ShardBuilder.push_of_not_fits hroom fits
    rw [List.filter_cons_of_neg (by simp [fits]), List.filter_nil, List.append_nil]
    refine ⟨{ f with builder := { f.builder with skipped := f.builder.skipped + 1 } }, ?_, rfl,
      ⟨h.dimension_eq, h.capacity_eq, ⟨h.held.stored, h.held.fit⟩, h.length_le⟩, ?_⟩
    · simp only [pure_bind, hpush]
      rcases ShardBuilder.vectorFailure?_eq_some hfailure with ⟨_, _, rfl⟩ | ⟨_, rfl⟩ <;> rfl
    · simp [fits, Nat.add_assoc]

theorem Holds.close_eq (h : f.Holds capacity entries) :
    f.close = .ok (f.database.extended (groupsOf capacity entries),
      f.skipped + f.builder.skipped) := by
  rw [close, ShardBuilder.isEmpty, h.held.size_eq]
  cases entries with
  | nil => rw [groupsOf, extended_nil]; rfl
  | cons e rest =>
    rw [groupsOf_of_length_le h.length_le (List.cons_ne_nil e rest), h.pushShard]
    rfl

/-- A run over further entries appends the groups of all entries that fit, those in the shard that
is being filled included. -/
theorem Holds.foldlM_close (h : f.Holds capacity entries) (rest : List Entry) :
    rest.foldlM (add capacity) f >>= close =
      .ok (f.database.extended (groupsOf capacity
          (entries ++ rest.filter (Entry.fits f.database.dimension))),
        f.skipped + f.builder.skipped +
          rest.countP fun e => !Entry.fits f.database.dimension e) := by
  induction rest generalizing f entries with
  | nil => simpa using h.close_eq
  | cons e rest ih =>
    have hroom {f : Filling} {entries : List Entry} (h : f.Holds capacity entries)
        (room : entries.length < max capacity 1) :
        (e :: rest).foldlM (add capacity) f >>= close =
          .ok (f.database.extended (groupsOf capacity
              (entries ++ (e :: rest).filter (Entry.fits f.database.dimension))),
            f.skipped + f.builder.skipped +
              (e :: rest).countP fun e => !Entry.fits f.database.dimension e) := by
      obtain ⟨f', hadd, hdatabase, hholds, hskipped⟩ := h.add_of_room room e
      have hsplit : e :: rest = [e] ++ rest := rfl
      rw [List.foldlM_cons, hadd, ok_bind, ih hholds, hskipped, hdatabase, hsplit,
        List.filter_append, List.countP_append, List.append_assoc, Nat.add_assoc]
    by_cases full : entries.length = max capacity 1
    · have hrun := hroom (holds_renewed capacity f entries) (by rw [List.length_nil]; omega)
      rw [List.foldlM_cons, ← h.add_of_full full e, ← List.foldlM_cons] at hrun
      rw [hrun, groupsOf_append _ full, List.nil_append]
      simp only [renewed, extended_extended]
      rfl
    · exact hroom h (by have := h.length_le; omega)

end Filling

/-- Adding records never fails: it appends the groups of the entries that fit, and counts the
others. -/
theorem addRecords_eq (db : Database) (entries : List Entry) (capacity : Nat) :
    db.addRecords entries capacity =
      .ok (db.extended (groupsOf capacity (entries.filter (Entry.fits db.dimension))),
        entries.countP fun e => !Entry.fits db.dimension e) := by
  have hrun := (Filling.holds_empty db capacity 0).foldlM_close entries
  rw [List.nil_append] at hrun
  refine hrun.trans ?_
  simp [ShardBuilder.empty]

/-- All entries of a database, in scan order. -/
def entries (db : Database) : List Entry := db.shards.toList.flatMap Shard.entries

/-- The parts of a database belong together. -/
structure Intact (db : Database) : Prop where
  dimension : ∀ s ∈ db.shards, s.dimension = db.dimension
  shards : ∀ s ∈ db.shards, s.Intact
  size_eq : db.size = db.entries.length

theorem intact_empty (dimension : Nat) : (empty dimension).Intact :=
  ⟨by simp [empty], by simp [empty], rfl⟩

theorem Intact.pushShard {db db' : Database} {s : Shard} (h : db.Intact) (hs : s.Intact)
    (hpush : db.pushShard s = .ok db') : db'.Intact := by
  rw [Database.pushShard] at hpush
  split at hpush
  · contradiction
  · rename_i hdimension
    obtain rfl := Except.ok.inj hpush
    rw [bne_iff_ne, ne_eq, not_not] at hdimension
    refine ⟨fun t ht => ?_, fun t ht => ?_, ?_⟩
    · rcases Array.mem_push.mp ht with ht | rfl
      · exact h.dimension t ht
      · exact hdimension
    · rcases Array.mem_push.mp ht with ht | rfl
      · exact h.shards t ht
      · exact hs
    · simp [entries, h.size_eq, hs.length_entries]

theorem popShard?_eq_some {db db' : Database} {s : Shard} (h : db.popShard? = some (s, db')) :
    ∃ shards : Array Shard, db.shards = shards.push s ∧
      db' = { db with shards, size := db.size - s.size } := by
  rw [popShard?] at h
  split at h
  · contradiction
  · rename_i last hlast
    obtain ⟨shards, hshards⟩ := Array.back?_eq_some_iff.mp hlast
    simp only [Option.some.injEq, Prod.mk.injEq, hshards, Array.pop_push] at h
    obtain ⟨rfl, rfl⟩ := h
    exact ⟨shards, hshards, rfl⟩

theorem Intact.popShard {db db' : Database} {s : Shard} (h : db.Intact)
    (hpop : db.popShard? = some (s, db')) : s.Intact ∧ db'.Intact := by
  obtain ⟨shards, hshards, rfl⟩ := popShard?_eq_some hpop
  have hmem : ∀ t ∈ shards, t ∈ db.shards := fun t ht => hshards ▸ Array.mem_push_of_mem _ ht
  have hintact : s.Intact := h.shards s (hshards ▸ Array.mem_push_self)
  have hsize := h.size_eq
  simp only [entries, hshards, Array.toList_push, List.flatMap_append, List.flatMap_singleton,
    List.length_append, hintact.length_entries] at hsize
  refine ⟨hintact, fun t ht => h.dimension t (hmem t ht), fun t ht => h.shards t (hmem t ht), ?_⟩
  rw [hsize, Nat.add_sub_cancel]
  rfl

/-- What is appended shows behind what was there. -/
theorem entries_extended (db : Database) {groups : List (List Entry)}
    (h : ∀ group ∈ groups, ∀ e ∈ group, Entry.fits db.dimension e = true) :
    (db.extended groups).entries = db.entries ++ groups.flatten := by
  rw [entries, extended, Array.toList_append, List.flatMap_append,
    Shard.flatMap_entries_ofEntries h, entries]

theorem Intact.extended {db : Database} (h : db.Intact) {groups : List (List Entry)}
    (hfit : ∀ group ∈ groups, ∀ e ∈ group, Entry.fits db.dimension e = true) :
    (db.extended groups).Intact := by
  have hshards : ∀ s ∈ (db.extended groups).shards, s ∈ db.shards ∨
      ∃ group ∈ groups, Shard.ofEntries db.dimension group = s := by
    simp [Database.extended]
  refine ⟨fun s hs => ?_, fun s hs => ?_, ?_⟩
  · rcases hshards s hs with hold | ⟨group, -, rfl⟩
    · exact h.dimension s hold
    · rfl
  · rcases hshards s hs with hold | ⟨group, hgroup, rfl⟩
    · exact h.shards s hold
    · exact Shard.intact_ofEntries (hfit group hgroup)
  · rw [entries_extended db hfit, List.length_append, ← h.size_eq]
    rfl

/-- The groups that adding records appends hold the entries that fit, and nothing else. -/
theorem fits_of_mem_groups {dimension capacity : Nat} {entries group : List Entry}
    (h : group ∈ groupsOf capacity (entries.filter (Entry.fits dimension))) :
    ∀ e ∈ group, Entry.fits dimension e = true :=
  fun _ he => List.of_mem_filter (mem_of_mem_groupsOf h he)

/-- Adding records adds the entries that fit, whatever the capacity. -/
theorem entries_addRecords {db db' : Database} {entries : List Entry} {capacity skipped : Nat}
    (h : db.addRecords entries capacity = .ok (db', skipped)) :
    db'.entries = db.entries ++ entries.filter (Entry.fits db.dimension) := by
  rw [addRecords_eq, Except.ok.injEq, Prod.mk.injEq] at h
  rw [← h.1, entries_extended db fun group hgroup => fits_of_mem_groups hgroup, groupsOf_flatten]

theorem Intact.addRecords {db db' : Database} (h : db.Intact) {entries : List Entry}
    {capacity skipped : Nat} (hadd : db.addRecords entries capacity = .ok (db', skipped)) :
    db'.Intact := by
  rw [addRecords_eq, Except.ok.injEq, Prod.mk.injEq] at hadd
  rw [← hadd.1]
  exact h.extended fun group hgroup => fits_of_mem_groups hgroup

end Database

/-- The builders that records are pushed to, one after another. -/
inductive ShardBuilder.Built : ShardBuilder → Prop where
  | empty (dimension capacity : Nat) : Built (.empty dimension capacity)
  | push {b : ShardBuilder} (h : Built b) (e : Entry) : Built (b.push e.1 e.2).1

theorem ShardBuilder.Built.exists_holds {b : ShardBuilder} (h : b.Built) :
    ∃ entries, b.Holds entries := by
  induction h with
  | empty dimension capacity => exact ⟨[], holds_empty dimension capacity⟩
  | push _ e ih =>
    obtain ⟨entries, hholds⟩ := ih
    exact hholds.push e

/-- The databases that the operations of the library lead to. What is added comes from a builder or
was taken out of such a database. -/
inductive Database.Built : Database → Prop where
  | empty (dimension : Nat) : Built (.empty dimension)
  | pushShard {db db' : Database} {b : ShardBuilder} (h : Built db) (hb : b.Built)
      (hpush : db.pushShard b.finish = .ok db') : Built db'
  | popShard {db db' : Database} {s : Shard} (h : Built db)
      (hpop : db.popShard? = some (s, db')) : Built db'
  | moveShard {db db' other rest : Database} {s : Shard} (h : Built db) (ho : Built other)
      (hpop : other.popShard? = some (s, rest)) (hpush : db.pushShard s = .ok db') : Built db'
  | addRecords {db db' : Database} {entries : List Entry} {capacity skipped : Nat} (h : Built db)
      (hadd : db.addRecords entries capacity = .ok (db', skipped)) : Built db'

theorem Database.Built.intact {db : Database} (h : db.Built) : db.Intact := by
  induction h with
  | empty dimension => exact intact_empty dimension
  | pushShard _ hb hpush ih =>
    obtain ⟨entries, hholds⟩ := hb.exists_holds
    exact ih.pushShard hholds.intact hpush
  | popShard _ hpop ih => exact (ih.popShard hpop).2
  | moveShard _ _ hpop hpush ih iho => exact ih.pushShard (iho.popShard hpop).1 hpush
  | addRecords _ hadd ih => exact ih.addRecords hadd

end ProgramSearch
