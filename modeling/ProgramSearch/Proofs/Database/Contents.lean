import Mathlib.Data.List.Basic
import ProgramSearch.Database

/-!
# The contents of a shard

A shard keeps records, embeddings and norms apart. In every shard that a builder makes they belong
together: the shard is that of its entries, each a record with a fit embedding, and a scan meets
these entries in order, unless the dimension is 0.
-/
namespace ProgramSearch

/-- A record with its embedding. -/
abbrev Entry := Record × Embedding

/-- Whether a shard of the given dimension takes an entry. -/
def Entry.fits (dimension : Nat) (e : Entry) : Bool :=
  (ShardBuilder.vectorFailure? dimension e.2).isNone

theorem Embedding.badPosition?_eq_none_iff {v : Embedding} :
    badPosition? v = none ↔ ∀ x ∈ v, x.isFinite = true := by
  simp [badPosition?, List.findIdx?_eq_none_iff]

theorem ShardBuilder.vectorFailure?_eq_none_iff {dimension : Nat} {v : Embedding} :
    vectorFailure? dimension v = none ↔
      v.length = dimension ∧ Embedding.badPosition? v = none := by
  rw [vectorFailure?]
  by_cases hlength : v.length = dimension <;>
    cases Embedding.badPosition? v <;> simp [hlength]

theorem Entry.fits_iff {dimension : Nat} {e : Entry} :
    Entry.fits dimension e = true ↔
      e.2.length = dimension ∧ ∀ x ∈ e.2, x.isFinite = true := by
  rw [Entry.fits, Option.isNone_iff_eq_none, ShardBuilder.vectorFailure?_eq_none_iff,
    Embedding.badPosition?_eq_none_iff]

theorem Entry.length_of_fits {dimension : Nat} {e : Entry} (h : Entry.fits dimension e = true) :
    e.2.length = dimension :=
  (Entry.fits_iff.mp h).1

/-- Rows of one width, laid end to end, are found again at the multiples of the width. -/
theorem drop_take_flatten {α : Type} {width : Nat} {rows : List (List α)}
    (h : ∀ row ∈ rows, row.length = width) {i : Nat} {row : List α} (hrow : rows[i]? = some row) :
    (rows.flatten.drop (i * width)).take width = row := by
  induction rows generalizing i with
  | nil => simp at hrow
  | cons first rows ih =>
    have hfirst := h first List.mem_cons_self
    cases i with
    | zero =>
      obtain rfl : first = row := by simpa using hrow
      rw [Nat.zero_mul, List.drop_zero, List.flatten_cons, ← hfirst, List.take_left]
    | succ i =>
      rw [List.getElem?_cons_succ] at hrow
      rw [List.flatten_cons, Nat.succ_mul, Nat.add_comm, ← List.drop_drop, ← hfirst,
        List.drop_left, hfirst]
      exact ih (fun other ho => h other (List.mem_cons_of_mem _ ho)) hrow

theorem length_flatten_of_width {α : Type} {width : Nat} {rows : List (List α)}
    (h : ∀ row ∈ rows, row.length = width) : rows.flatten.length = rows.length * width := by
  rw [List.length_flatten, List.map_congr_left h, List.map_const', List.sum_replicate_nat]

/-- A place among all rows tells the row and the place in it. -/
theorem getElem?_flatten_of_width {α : Type} {width : Nat} {rows : List (List α)}
    (positive : 0 < width) (h : ∀ row ∈ rows, row.length = width) (i : Nat) :
    rows.flatten[i]? = rows[i / width]?.bind fun row => row[i % width]? := by
  cases hrow : rows[i / width]? with
  | none =>
    have hrows : rows.length ≤ i / width := List.getElem?_eq_none_iff.mp hrow
    have hlength : rows.flatten.length ≤ i := by
      rw [length_flatten_of_width h]
      exact (Nat.le_div_iff_mul_le positive).mp hrows
    exact List.getElem?_eq_none_iff.mpr hlength
  | some row =>
    have hplace : i / width * width + i % width = i := Nat.div_add_mod' i width
    have hinside : i % width < width := Nat.mod_lt i positive
    simp only [Option.bind_some]
    rw [← drop_take_flatten h hrow, List.getElem?_take_of_lt hinside, List.getElem?_drop, hplace]

namespace Shard

/-- The shard of some entries. -/
def ofEntries (dimension : Nat) (entries : List Entry) : Shard where
  dimension := dimension
  records := (entries.map (·.1)).toArray
  matrix := (entries.map (·.2)).flatten.toArray
  norms := (entries.map (·.2.norm)).toArray

/-- The records of a shard, each with the embedding in its row. -/
def entries (s : Shard) : List Entry :=
  s.records.toList.zipIdx.filterMap fun (record, row) => (s.embedding? row).map (record, ·)

/-- The parts of a shard belong together. -/
structure Intact (s : Shard) : Prop where
  stored : s = ofEntries s.dimension s.entries
  fit : ∀ e ∈ s.entries, Entry.fits s.dimension e = true

section OfEntries

variable {dimension : Nat} {entries : List Entry}

@[simp] theorem dimension_ofEntries : (ofEntries dimension entries).dimension = dimension := rfl

@[simp] theorem size_ofEntries : (ofEntries dimension entries).size = entries.length := by
  simp [size, ofEntries]

theorem record?_ofEntries (row : Nat) :
    (ofEntries dimension entries).record? row = entries[row]?.map (·.1) := by
  simp [record?, ofEntries]

theorem norm?_ofEntries (row : Nat) :
    (ofEntries dimension entries).norm? row = entries[row]?.map (·.2.norm) := by
  simp [norm?, ofEntries]

variable (lengths : ∀ e ∈ entries, e.2.length = dimension)
include lengths

theorem width_of_lengths : ∀ row ∈ entries.map (·.2), row.length = dimension := by
  intro row hrow
  obtain ⟨e, he, rfl⟩ := List.mem_map.mp hrow
  exact lengths e he

theorem size_matrix_ofEntries :
    (ofEntries dimension entries).matrix.size = entries.length * dimension := by
  rw [ofEntries, List.size_toArray, length_flatten_of_width (width_of_lengths lengths),
    List.length_map]

theorem extract_matrix_ofEntries {row : Nat} {e : Entry} (h : entries[row]? = some e) :
    ((ofEntries dimension entries).matrix.extract (row * dimension)
      (row * dimension + dimension)).toList = e.2 := by
  rw [Array.toList_extract, List.extract_eq_take_drop, Nat.add_sub_cancel_left]
  exact drop_take_flatten (width_of_lengths lengths) (by rw [List.getElem?_map, h]; rfl)

theorem embedding?_ofEntries {row : Nat} {e : Entry} (h : entries[row]? = some e) :
    (ofEntries dimension entries).embedding? row = some e.2 := by
  obtain ⟨hlt, -⟩ := List.getElem?_eq_some_iff.mp h
  have hroom : row * dimension + dimension ≤ entries.length * dimension := by
    rw [← Nat.succ_mul]
    exact Nat.mul_le_mul_right dimension hlt
  rw [embedding?, dimension_ofEntries, size_matrix_ofEntries lengths, if_pos hroom,
    extract_matrix_ofEntries lengths h]

theorem entries_ofEntries : (ofEntries dimension entries).entries = entries := by
  have hrecords : (ofEntries dimension entries).records.toList = entries.map (·.1) := rfl
  rw [Shard.entries, hrecords, List.zipIdx_map, List.filterMap_map]
  conv_rhs => rw [← List.zipIdx_map_fst 0 entries, ← List.filterMap_eq_map]
  apply List.filterMap_congr
  rintro ⟨e, row⟩ he
  have hrow := List.mk_mem_zipIdx_iff_getElem?.mp he
  simp [embedding?_ofEntries lengths hrow]

/-- A scan meets the entries of a shard in order. -/
theorem rows_ofEntries (positive : 0 < dimension) :
    (ofEntries dimension entries).rows = entries.zipIdx.map fun (e, row) => (row, e.2) := by
  have hstride : (ofEntries dimension entries).stride = dimension :=
    Nat.max_eq_left positive
  rw [rows, hstride, size_matrix_ofEntries lengths, Nat.mul_div_cancel _ positive, size_ofEntries,
    Nat.min_self]
  apply List.ext_getElem?
  intro row
  rw [List.getElem?_map, List.getElem?_map, List.getElem?_zipIdx]
  cases h : entries[row]? with
  | none =>
    rw [List.getElem?_eq_none_iff] at h
    rw [List.getElem?_eq_none (by simpa using h)]
    rfl
  | some e =>
    obtain ⟨hlt, -⟩ := List.getElem?_eq_some_iff.mp h
    rw [List.getElem?_range hlt, Option.map_some, extract_matrix_ofEntries lengths h,
      Option.map_some, Option.map_some, Nat.zero_add]

end OfEntries

/-- The shards of some groups hold together what the groups hold. -/
theorem flatMap_entries_ofEntries {dimension : Nat} {groups : List (List Entry)}
    (h : ∀ group ∈ groups, ∀ e ∈ group, Entry.fits dimension e = true) :
    (groups.map (ofEntries dimension)).flatMap entries = groups.flatten := by
  induction groups with
  | nil => rfl
  | cons group groups ih =>
    have hgroup := entries_ofEntries fun e he =>
      Entry.length_of_fits (h group List.mem_cons_self e he)
    rw [List.map_cons, List.flatMap_cons, hgroup, List.flatten_cons,
      ih fun other hother => h other (List.mem_cons_of_mem _ hother)]

theorem intact_ofEntries {dimension : Nat} {entries : List Entry}
    (h : ∀ e ∈ entries, Entry.fits dimension e = true) : (ofEntries dimension entries).Intact := by
  have hentries := entries_ofEntries fun e he => Entry.length_of_fits (h e he)
  constructor
  · rw [hentries, dimension_ofEntries]
  · rwa [hentries]

namespace Intact

variable {s : Shard} (h : s.Intact)
include h

theorem length_entries : s.entries.length = s.size := by
  rw [h.stored, size_ofEntries, ← h.stored]

theorem lengths : ∀ e ∈ s.entries, e.2.length = s.dimension :=
  fun e he => Entry.length_of_fits (h.fit e he)

theorem record? (row : Nat) : s.record? row = s.entries[row]?.map (·.1) := by
  conv_lhs => rw [h.stored]
  exact record?_ofEntries row

theorem norm? (row : Nat) : s.norm? row = s.entries[row]?.map (·.2.norm) := by
  conv_lhs => rw [h.stored]
  exact norm?_ofEntries row

theorem rows (positive : 0 < s.dimension) :
    s.rows = s.entries.zipIdx.map fun (e, row) => (row, e.2) := by
  conv_lhs => rw [h.stored]
  exact rows_ofEntries h.lengths positive

/-- Where there are no values there is nothing to scan. -/
theorem rows_of_dimension_zero (hzero : s.dimension = 0) : s.rows = [] := by
  have hmatrix : s.matrix.size = 0 := by
    conv_lhs => rw [h.stored]
    rw [size_matrix_ofEntries h.lengths, hzero, Nat.mul_zero]
  rw [Shard.rows, hmatrix, Nat.zero_div, Nat.min_zero, List.range_zero, List.map_nil]

end Intact
end Shard
end ProgramSearch
