import ProgramSearch.Corpus.Reader
import ProgramSearch.Proofs.Database.Filling

/-!
# Collecting the records of a file

What a file leads to depends on its items alone: the programs that are accepted with an embedding
that fits are stored, in order, in shards of the capacity, and all other items are counted as
skipped.
-/
namespace ProgramSearch

/-- The records that a file has led to, each with its embedding, in order. -/
def FileOutcome.entries (o : FileOutcome) : List Entry := o.shards.flatMap Shard.entries

namespace Corpus

/-- The entry of a program that is accepted with an embedding that fits. -/
def Item.entry? (field : String) (dimension : Nat) : Item → Option Entry
  | .malformed => none
  | .program v => (Program.parse field v).toOption.filter (Entry.fits dimension)

/-- The entries among some items, in order. -/
def entriesOf (field : String) (dimension : Nat) (items : List Item) : List Entry :=
  items.filterMap (Item.entry? field dimension)

section EntriesOf

variable {field : String} {dimension : Nat} {item : Item} {items : List Item} {e : Entry}

theorem entriesOf_cons_of_none (h : item.entry? field dimension = none) :
    entriesOf field dimension (item :: items) = entriesOf field dimension items :=
  List.filterMap_cons_none h

theorem entriesOf_cons_of_some (h : item.entry? field dimension = some e) :
    entriesOf field dimension (item :: items) = e :: entriesOf field dimension items :=
  List.filterMap_cons_some h

theorem length_entriesOf_le (field : String) (dimension : Nat) (items : List Item) :
    (entriesOf field dimension items).length ≤ items.length :=
  List.length_filterMap_le _ _

theorem fits_of_mem_entriesOf (h : e ∈ entriesOf field dimension items) :
    Entry.fits dimension e = true := by
  obtain ⟨item, -, hitem⟩ := List.mem_filterMap.mp h
  cases item with
  | malformed => contradiction
  | program v => exact (Option.filter_eq_some_iff.mp hitem).2

end EntriesOf

namespace Sink

/-- What the shard that is being filled holds. -/
structure Holds (s : Sink) (entries : List Entry) : Prop where
  dimension_eq : s.builder.dimension = s.dimension
  capacity_eq : s.builder.capacity = max s.capacity 1
  held : s.builder.Holds entries
  length_le : entries.length ≤ max s.capacity 1

/-- What a sink comes to that holds `entries` and takes further items. -/
def collected (s : Sink) (entries : List Entry) (items : List Item) : Sink :=
  let stored := entriesOf s.field s.dimension items
  { s with
    builder := .empty s.dimension s.capacity
    shards := s.shards ++ (groupsOf s.capacity (entries ++ stored)).map (.ofEntries s.dimension)
    accepted := s.accepted + stored.length
    skipped := s.skipped + s.builder.skipped + (items.length - stored.length) }

/-- The sink once an entry was offered to its builder. -/
def offered (s : Sink) (e : Entry) : Sink :=
  match s.builder.push e.1 e.2 with
  | (builder, none) => { s with builder, accepted := s.accepted + 1 }
  | (builder, some _) => { s with builder }

variable {s : Sink} {entries : List Entry} {item : Item} {e : Entry}

theorem holds_start (settings : LoadSettings) : (start settings).Holds [] :=
  ⟨rfl, rfl, ShardBuilder.holds_empty _ _, Nat.zero_le _⟩

theorem Holds.isFull_iff (h : s.Holds entries) :
    s.builder.isFull = true ↔ entries.length = max s.capacity 1 := by
  rw [ShardBuilder.isFull, decide_eq_true_eq, h.capacity_eq, h.held.size_eq]
  have := h.length_le
  omega

theorem Holds.flush_eq (h : s.Holds entries) : s.flush = s.collected entries [] := by
  have hshards : (if s.builder.isEmpty then s.shards else s.shards ++ [s.builder.finish]) =
      s.shards ++ (groupsOf s.capacity entries).map (.ofEntries s.dimension) := by
    rw [ShardBuilder.isEmpty, h.held.size_eq]
    cases entries with
    | nil => simp [groupsOf]
    | cons e rest =>
      rw [groupsOf_of_length_le h.length_le (List.cons_ne_nil e rest), h.held.stored,
        h.dimension_eq]
      simp
  rw [flush, hshards]
  simp [collected, entriesOf]

theorem Holds.flush (h : s.Holds entries) : s.flush.Holds [] := by
  rw [h.flush_eq]
  exact ⟨rfl, rfl, ShardBuilder.holds_empty _ _, Nat.zero_le _⟩

/-- Closing a full shard changes nothing about what the sink comes to. -/
theorem Holds.collected_flush (h : s.Holds entries) (full : entries.length = max s.capacity 1)
    (items : List Item) : s.flush.collected [] items = s.collected entries items := by
  have hone : groupsOf s.capacity entries = [entries] := by
    simpa [groupsOf] using groupsOf_append [] full
  rw [h.flush_eq]
  simp [collected, entriesOf, ShardBuilder.empty, groupsOf_append _ full, hone]

/-- A refused item is counted and nothing else. -/
theorem collected_of_refused (h : item.entry? s.field s.dimension = none) (items : List Item) :
    ({ s with skipped := s.skipped + 1 } : Sink).collected entries items =
      s.collected entries (item :: items) := by
  have hle := length_entriesOf_le s.field s.dimension items
  simp only [collected, entriesOf_cons_of_none h, List.length_cons, Sink.mk.injEq, true_and]
  omega

/-- While there is room, an entry that fits joins the others and an unfit one is counted. -/
theorem Holds.offered (h : s.Holds entries) (room : entries.length < max s.capacity 1)
    (hitem : item.entry? s.field s.dimension = (some e).filter (Entry.fits s.dimension)) :
    ∃ entries', (s.offered e).Holds entries' ∧
      ∀ items, (s.offered e).collected entries' items = s.collected entries (item :: items) := by
  have hroom : s.builder.isFull = false := by
    rw [Bool.eq_false_iff, ne_eq, h.isFull_iff]
    omega
  rw [← h.dimension_eq] at hitem
  cases fits : Entry.fits s.builder.dimension e with
  | true =>
    rw [Option.filter_some_pos fits, h.dimension_eq] at hitem
    have hoffered : s.offered e =
        { s with builder := s.builder.store e, accepted := s.accepted + 1 } := by
      rw [Sink.offered, ShardBuilder.push_of_fits hroom fits]
    rw [hoffered]
    refine ⟨entries ++ [e], ⟨h.dimension_eq, h.capacity_eq, h.held.store fits, ?_⟩, fun items => ?_⟩
    · rw [List.length_append, List.length_singleton]
      exact Nat.succ_le_of_lt room
    · simp [collected, entriesOf_cons_of_some hitem, ShardBuilder.store]
      omega
  | false =>
    rw [Option.filter_some_neg (by simp [fits]), h.dimension_eq] at hitem
    obtain ⟨failure, -, hpush⟩ := ShardBuilder.push_of_not_fits hroom fits
    have hoffered : s.offered e =
        { s with builder := { s.builder with skipped := s.builder.skipped + 1 } } := by
      rw [Sink.offered, hpush]
    rw [hoffered]
    refine ⟨entries, ⟨h.dimension_eq, h.capacity_eq, ⟨h.held.stored, h.held.fit⟩, h.length_le⟩,
      fun items => ?_⟩
    have hle := length_entriesOf_le s.field s.dimension items
    simp only [collected, entriesOf_cons_of_none hitem, List.length_cons, Sink.mk.injEq, true_and]
    omega

theorem Holds.store (h : s.Holds entries)
    (hitem : item.entry? s.field s.dimension = (some e).filter (Entry.fits s.dimension)) :
    ∃ entries', (s.store e.1 e.2).Holds entries' ∧
      ∀ items, (s.store e.1 e.2).collected entries' items =
        s.collected entries (item :: items) := by
  have hstore : s.store e.1 e.2 = (if s.builder.isFull then s.flush else s).offered e := rfl
  rw [hstore]
  by_cases full : s.builder.isFull = true
  · have hroom : ([] : List Entry).length < max s.flush.capacity 1 := by
      rw [List.length_nil]
      omega
    have hflushed : item.entry? s.flush.field s.flush.dimension =
        (some e).filter (Entry.fits s.flush.dimension) := hitem
    obtain ⟨entries', hholds, hcollected⟩ := h.flush.offered hroom hflushed
    rw [if_pos full]
    refine ⟨entries', hholds, fun items => ?_⟩
    rw [hcollected, h.collected_flush (h.isFull_iff.mp full)]
  · rw [if_neg full]
    refine h.offered ?_ hitem
    have hne := mt h.isFull_iff.mpr full
    have := h.length_le
    omega

theorem Holds.accept (h : s.Holds entries) (item : Item) :
    ∃ entries', (s.accept item).Holds entries' ∧
      ∀ items, (s.accept item).collected entries' items =
        s.collected entries (item :: items) := by
  have refused : ({ s with skipped := s.skipped + 1 } : Sink).Holds entries :=
    ⟨h.dimension_eq, h.capacity_eq, h.held, h.length_le⟩
  cases item with
  | malformed => exact ⟨entries, refused, collected_of_refused rfl⟩
  | program v =>
    rw [Sink.accept]
    cases hparse : Program.parse s.field v with
    | error fault =>
      refine ⟨entries, refused, collected_of_refused ?_⟩
      rw [Item.entry?, hparse]
      rfl
    | ok e =>
      refine h.store ?_
      rw [Item.entry?, hparse]
      rfl

/-- A sink that has taken all items and closes its last shard has collected them. -/
theorem Holds.foldl_accept_flush (h : s.Holds entries) (items : List Item) :
    (items.foldl Sink.accept s).flush = s.collected entries items := by
  induction items generalizing s entries with
  | nil => exact h.flush_eq
  | cons item items ih =>
    obtain ⟨entries', hholds, hcollected⟩ := h.accept item
    rw [List.foldl_cons, ih hholds, hcollected]

end Sink

/-- What a file with some items leads to. -/
def outcomeOf (settings : LoadSettings) (path : String) (items : List Item) (complete : Bool) :
    FileOutcome :=
  let stored := entriesOf settings.embeddingField settings.dimension items
  { path
    shards := (groupsOf settings.capacity stored).map (.ofEntries settings.dimension)
    accepted := stored.length
    skipped := items.length - stored.length
    status := if complete then .parsed else .failed }

/-- A sink that has taken some items and ends has come to what they lead to. -/
theorem Sink.finish_foldl_accept (settings : LoadSettings) (path : String) (items : List Item)
    (status : FileStatus) :
    (items.foldl Sink.accept (Sink.start settings)).finish path status =
      { outcomeOf settings path items true with status } := by
  simp only [Sink.finish, (Sink.holds_start settings).foldl_accept_flush]
  simp [outcomeOf, Sink.collected, Sink.start, ShardBuilder.empty]

theorem loadFile_of_readBytes {t : FileTree} {settings : LoadSettings} {path : String}
    {bytes : List UInt8} (read : t.readBytes path = .ok bytes) :
    loadFile t settings path =
      outcomeOf settings path (items path bytes).1 (items path bytes).2 := by
  rw [loadFile, read]
  exact Sink.finish_foldl_accept settings path _ _

theorem entries_outcomeOf (settings : LoadSettings) (path : String) (items : List Item)
    (complete : Bool) :
    (outcomeOf settings path items complete).entries =
      entriesOf settings.embeddingField settings.dimension items := by
  rw [FileOutcome.entries, outcomeOf, Shard.flatMap_entries_ofEntries, groupsOf_flatten]
  exact fun group hgroup e he => fits_of_mem_entriesOf (mem_of_mem_groupsOf hgroup he)

/-- Settings for programs whose embedding, under `e`, is empty. -/
def flatSettings (location : String) : LoadSettings := ⟨location, 0, 4, 1, ⟨1, none⟩, "e", none⟩

end Corpus

end ProgramSearch
