import Mathlib
import ProgramSearch.Proofs.Corpus.Collecting

/-!
# Streams of entries

Records reach a database in two ways: as entries that are added at once, and as the items of a file
that a sink takes one by one. Both lead to the same shards, and these are named by the one cut of
the entries that fit.
-/
namespace ProgramSearch.Corpus

/-- The entry that an item is read as, whether or not it fits. -/
def Item.parsed? (field : String) : Item → Option Entry
  | .malformed => none
  | .program v => (Program.parse field v).toOption

/-- Items are read first and their embeddings looked at afterwards. -/
theorem entriesOf_eq_filter (field : String) (dimension : Nat) (items : List Item) :
    entriesOf field dimension items =
      (items.filterMap (Item.parsed? field)).filter (Entry.fits dimension) := by
  have hitem : Item.entry? field dimension =
      fun item => (Item.parsed? field item).filter (Entry.fits dimension) := by
    funext item
    cases item <;> rfl
  rw [List.filter_filterMap, entriesOf, hitem]

variable {dimension : Nat}

theorem filter_fits (entries : List Entry) :
    (entries.filter fun e => e.2.length = dimension ∧ ∀ x ∈ e.2, x.isFinite = true) =
      entries.filter (Entry.fits dimension) := by
  refine List.filter_congr fun e _ => ?_
  rw [Bool.eq_iff_iff, decide_eq_true_iff, Entry.fits_iff]

theorem countP_not_fits (entries : List Entry) :
    (entries.countP fun e => e.2.length ≠ dimension ∨ ∃ x ∈ e.2, x.isFinite = false) =
      entries.countP fun e => !Entry.fits dimension e := by
  refine List.countP_congr fun e _ => ?_
  rw [decide_eq_true_iff, Bool.not_eq_true', ← Bool.not_eq_true, Entry.fits_iff, not_and_or]
  simp

theorem sum_size_ofEntries (groups : List (List Entry)) :
    ((groups.map (Shard.ofEntries dimension)).map Shard.size).sum = groups.flatten.length := by
  have hsizes : Shard.size ∘ Shard.ofEntries dimension = List.length :=
    funext fun _ => Shard.size_ofEntries
  rw [List.map_map, hsizes, List.length_flatten]

/-- There is one cut of the entries that have the right length and no bad values. Adding entries to a
database never fails, appends the shards of its groups and counts the other entries; and a sink that
is fed items of which the same entries are read, among any others, ends with the same shards, each
of its items either stored or skipped. -/
theorem cut_of_entries (db : Database) (entries : List Entry) (capacity : Nat) :
    ∃ groups,
      IsCut (max capacity 1)
        (entries.filter fun e => e.2.length = db.dimension ∧ ∀ x ∈ e.2, x.isFinite = true)
        groups ∧
      (∀ other, IsCut (max capacity 1)
        (entries.filter fun e => e.2.length = db.dimension ∧ ∀ x ∈ e.2, x.isFinite = true)
        other → other = groups) ∧
      let shards := groups.map (Shard.ofEntries db.dimension)
      db.addRecords entries capacity =
        .ok ({ db with
            shards := db.shards ++ shards.toArray
            size := db.size + groups.flatten.length },
          entries.countP fun e => e.2.length ≠ db.dimension ∨ ∃ x ∈ e.2, x.isFinite = false) ∧
      ∀ (settings : LoadSettings) (items : List Item) (path : String) (status : FileStatus),
        settings.dimension = db.dimension → settings.capacity = capacity →
        items.filterMap (Item.parsed? settings.embeddingField) = entries →
          ∃ accepted skipped,
            (items.foldl Sink.accept (Sink.start settings)).finish path status =
              ⟨path, shards, accepted, skipped, status⟩ ∧
            accepted = (shards.map Shard.size).sum ∧ accepted + skipped = items.length := by
  refine ⟨groupsOf capacity (entries.filter (Entry.fits db.dimension)), ?_, ?_, ?_, ?_⟩
  · rw [filter_fits]
    exact isCut_groupsOf capacity _
  · rw [filter_fits]
    exact fun other hother => isCut_iff.mp hother
  · rw [countP_not_fits]
    exact db.addRecords_eq entries capacity
  · intro settings items path status hdimension hcapacity hread
    have hstored : entriesOf settings.embeddingField settings.dimension items =
        entries.filter (Entry.fits db.dimension) := by
      rw [entriesOf_eq_filter, hread, hdimension]
    have hle := length_entriesOf_le settings.embeddingField settings.dimension items
    refine ⟨(entries.filter (Entry.fits db.dimension)).length,
      items.length - (entries.filter (Entry.fits db.dimension)).length, ?_, ?_, ?_⟩
    · rw [Sink.finish_foldl_accept, outcomeOf, hstored, hdimension, hcapacity]
    · rw [sum_size_ofEntries, groupsOf_flatten]
    · rw [hstored] at hle
      omega

/-- A program object with the given embedding. -/
def sampleProgram (method : String) (v : Embedding) : Item :=
  .program (.object [("file", .string "A"), ("method", .string method),
    ("e", .array (v.map fun x => .number (.single x)))])

def sampleEntry (method : String) (v : Embedding) : Entry :=
  (⟨"A", method, "", ⟨sortedSet [], [], none⟩⟩, v)

/-- Three programs that fit dimension 1; in front of the last one an item that is no program and a
program that does not fit. -/
def sampleItems : List Item :=
  [sampleProgram "a" [1.0], sampleProgram "b" [2.0], .malformed, sampleProgram "c" [1.0, 2.0],
    sampleProgram "d" [1.0]]

def sampleEntries : List Entry :=
  [sampleEntry "a" [1.0], sampleEntry "b" [2.0], sampleEntry "c" [1.0, 2.0], sampleEntry "d" [1.0]]

/-- The unfit program meets a shard that is full. -/
theorem cut_of_entries_sample :
    sampleItems.filterMap (Item.parsed? "e") = sampleEntries ∧
      ∃ db, (Database.empty 1).addRecords sampleEntries 2 = .ok (db, 1) ∧ db.size = 3 ∧
        db.shards.toList = [[sampleEntry "a" [1.0], sampleEntry "b" [2.0]],
          [sampleEntry "d" [1.0]]].map (Shard.ofEntries 1) ∧
        (sampleItems.foldl Sink.accept (Sink.start ⟨".", 1, 2, 1, ⟨1, none⟩, "e", none⟩)).finish
          "a.json" .parsed = ⟨"a.json", db.shards.toList, 3, 2, .parsed⟩ := by
  have hread : sampleItems.filterMap (Item.parsed? "e") = sampleEntries := rfl
  obtain ⟨groups, -, honly, hadd, hsink⟩ := cut_of_entries (.empty 1) sampleEntries 2
  obtain ⟨accepted, skipped, hfinish, haccepted, hcount⟩ :=
    hsink ⟨".", 1, 2, 1, ⟨1, none⟩, "e", none⟩ sampleItems "a.json" .parsed rfl rfl hread
  obtain rfl := honly
    [[sampleEntry "a" [1.0], sampleEntry "b" [2.0]], [sampleEntry "d" [1.0]]] (by
      rw [filter_fits]
      exact ⟨rfl, by decide, by decide⟩)
  rw [sum_size_ofEntries] at haccepted
  subst haccepted
  obtain rfl : skipped = 2 := Nat.add_left_cancel hcount
  rw [countP_not_fits] at hadd
  refine ⟨hread, _, hadd, rfl, ?_, ?_⟩
  · simp [Database.empty]
  · rw [hfinish]
    simp [Database.empty]

end ProgramSearch.Corpus
