import ProgramSearch.Proofs.Database.Contents
import ProgramSearch.Proofs.Group
import ProgramSearch.Proofs.Results
import ProgramSearch.Query

/-!
# Batches of queries

The loop that splits queries makes a batch of each of their groups, and the last group is filled up
with padding. So the slots of all batches are the queries in order with the padding behind them, and
the place of a query tells its batch and its slot.
-/
namespace ProgramSearch

open ProgramSearch.Embedding

namespace Query

variable {dimension : Nat}

theorem checkVector_eq_ok_iff {v : Embedding} :
    checkVector dimension v = .ok () ↔ v.length = dimension ∧ badPosition? v = none := by
  rw [checkVector, ← ShardBuilder.vectorFailure?_eq_none_iff]
  cases ShardBuilder.vectorFailure? dimension v <;> simp

/-- The embedding has the dimension asked for and its values are finite. -/
def Fits (dimension : Nat) (q : Query) : Prop :=
  q.embedding.length = dimension ∧ ∀ x ∈ q.embedding, x.isFinite = true

theorem check_eq_ok_iff {q : Query} : q.check dimension = .ok () ↔ q.Fits dimension := by
  rw [check, checkVector_eq_ok_iff, badPosition?_eq_none_iff, Fits]

end Query

namespace Batch

variable {batchSize dimension : Nat}

/-- A group of queries as one batch, filled up to the batch size. -/
def ofGroup (batchSize dimension : Nat) (group : List Query) : Batch :=
  ⟨dimension, group.map .query ++ List.replicate (batchSize - group.length) .padding⟩

/-- The padding of a batch holds no query. -/
theorem queries_ofGroup (batchSize dimension : Nat) (group : List Query) :
    (ofGroup batchSize dimension group).queries = group.zipIdx.map Prod.swap := by
  rw [queries, ofGroup, List.zipIdx_append, List.filterMap_append]
  refine (congrArg₂ List.append ?_ (List.filterMap_eq_nil_iff.mpr ?_)).trans (List.append_nil _)
  · rw [List.zipIdx_map, List.filterMap_map, ← List.filterMap_eq_map]
    rfl
  · rintro ⟨slot, i⟩ hp
    obtain rfl : slot = .padding := List.eq_of_mem_replicate (List.fst_mem_of_mem_zipIdx hp)
    rfl

/-! ### The loop -/

namespace Splitting

theorem add_of_room {waiting : List Query} (room : waiting.length + 1 < batchSize)
    (closed : Array Batch) (q : Query) :
    add batchSize dimension ⟨closed, (waiting.map .query).toArray⟩ q =
      ⟨closed, ((waiting ++ [q]).map .query).toArray⟩ := by
  simp [add, Nat.ne_of_lt room]

theorem add_of_last {waiting : List Query} (last : waiting.length + 1 = batchSize)
    (closed : Array Batch) (q : Query) :
    add batchSize dimension ⟨closed, (waiting.map .query).toArray⟩ q =
      ⟨closed.push (ofGroup batchSize dimension (waiting ++ [q])), #[]⟩ := by
  simp [add, ofGroup, last]

theorem finish_eq {waiting : List Query} (room : waiting.length < batchSize)
    (closed : Array Batch) :
    finish batchSize dimension ⟨closed, (waiting.map .query).toArray⟩ =
      closed.toList ++ (groupsOf batchSize waiting).map (ofGroup batchSize dimension) := by
  cases waiting with
  | nil => simp [finish, groupsOf]
  | cons q rest =>
    have hle : (q :: rest).length ≤ max batchSize 1 := by omega
    rw [groupsOf_of_length_le hle (List.cons_ne_nil q rest)]
    simp [finish, ofGroup, Array.rightpad]

/-- A run over further queries makes batches of the groups of all of them, those that wait for a
full batch included. -/
theorem finish_foldl {waiting : List Query} (room : waiting.length < batchSize)
    (closed : Array Batch) (queries : List Query) :
    (queries.foldl (add batchSize dimension) ⟨closed, (waiting.map .query).toArray⟩).finish
        batchSize dimension =
      closed.toList ++
        (groupsOf batchSize (waiting ++ queries)).map (ofGroup batchSize dimension) := by
  -- A step changes both what waits and what is closed.
  induction queries generalizing closed waiting with
  | nil => rw [List.foldl_nil, List.append_nil, finish_eq room]
  | cons q queries ih =>
    have hsplit : waiting ++ q :: queries = (waiting ++ [q]) ++ queries := by simp
    have hlength : (waiting ++ [q]).length = waiting.length + 1 := List.length_append
    rw [List.foldl_cons, hsplit]
    by_cases last : waiting.length + 1 = batchSize
    · have hroom : ([] : List Query).length < batchSize := by rw [List.length_nil]; omega
      have hempty := ih hroom (closed.push (ofGroup batchSize dimension (waiting ++ [q])))
      rw [add_of_last last, groupsOf_append _ (by omega)]
      simpa using hempty
    · rw [add_of_room (by omega), ih (by omega)]

end Splitting

/-! ### Which queries are split -/

theorem findSome?_zipIdx_eq_none_iff {α β : Type} {xs : List α} {f : α × Nat → Option β}
    {fit : α → Prop} (h : ∀ x i, f (x, i) = none ↔ fit x) :
    xs.zipIdx.findSome? f = none ↔ ∀ x ∈ xs, fit x := by
  rw [List.findSome?_eq_none_iff]
  constructor
  · intro hnone x hx
    obtain ⟨i, hi⟩ := List.getElem?_of_mem hx
    exact (h x i).mp (hnone (x, i) (List.mk_mem_zipIdx_iff_getElem?.mpr hi))
  · rintro hfit ⟨x, i⟩ hp
    exact (h x i).mpr (hfit x (List.fst_mem_of_mem_zipIdx hp))

/-- Queries are split unless there are no slots, an embedding is unfit or the last batch is not full
and must be. -/
theorem fault?_eq_none_iff {queries : List Query} {policy : PaddingPolicy} :
    fault? queries batchSize dimension policy = none ↔
      0 < batchSize ∧ (∀ q ∈ queries, q.Fits dimension) ∧
        (policy = .reject → batchSize ∣ queries.length) := by
  -- Only whether there is a fault matters here, not which one is reported first.
  unfold fault? Query.Fits
  extract_lets wrongLength unfit
  have hlength : wrongLength = none ↔ ∀ q ∈ queries, q.embedding.length = dimension :=
    findSome?_zipIdx_eq_none_iff fun q i => by simp
  have hfinite : unfit = none ↔ ∀ q ∈ queries, ∀ x ∈ q.embedding, x.isFinite = true :=
    findSome?_zipIdx_eq_none_iff fun q i => by
      rw [Option.map_eq_none_iff, badPosition?_eq_none_iff]
  simp only [forall_and, ← hlength, ← hfinite, Nat.dvd_iff_mod_eq_zero]
  clear_value wrongLength unfit
  rcases Nat.eq_zero_or_pos batchSize with rfl | positive
  · simp
  · cases wrongLength <;> cases unfit <;> cases policy <;> simp [Nat.ne_of_gt positive, positive]

theorem split_of_fault?_eq_none {queries : List Query} {policy : PaddingPolicy}
    (positive : 0 < batchSize) (h : fault? queries batchSize dimension policy = none) :
    split queries batchSize dimension policy =
      .ok ((groupsOf batchSize queries).map (ofGroup batchSize dimension)) := by
  have hroom : ([] : List Query).length < batchSize := positive
  rw [split, h]
  exact congrArg Except.ok (Splitting.finish_foldl hroom #[] queries)

/-- Fit queries can be batched whatever their number, since the last batch is filled up. -/
theorem split_of_fit {queries : List Query} (positive : 0 < batchSize)
    (fit : ∀ q ∈ queries, q.check dimension = .ok ()) :
    split queries batchSize dimension .pad =
      .ok ((groupsOf batchSize queries).map (ofGroup batchSize dimension)) := by
  have hfit : ∀ q ∈ queries, q.Fits dimension := fun q hq => Query.check_eq_ok_iff.mp (fit q hq)
  exact split_of_fault?_eq_none positive (fault?_eq_none_iff.mpr ⟨positive, hfit, nofun⟩)

/-! ### The slots of all batches -/

theorem size_ofGroup {group : List Query} (h : group.length ≤ batchSize) :
    (ofGroup batchSize dimension group).size = batchSize := by
  rw [size, ofGroup, List.length_append, List.length_map, List.length_replicate]
  omega

theorem mem_queries {b : Batch} {i : Nat} {q : Query} :
    (i, q) ∈ b.queries ↔ b.slots[i]? = some (.query q) := by
  rw [queries, List.mem_filterMap]
  constructor
  · rintro ⟨⟨slot, j⟩, hslot, hquery⟩
    cases slot with
    | padding => contradiction
    | query q' =>
      obtain ⟨rfl, rfl⟩ : j = i ∧ q' = q := by simpa [Slot.query?] using hquery
      exact List.mk_mem_zipIdx_iff_getElem?.mp hslot
  · intro h
    exact ⟨(.query q, i), List.mk_mem_zipIdx_iff_getElem?.mpr h, rfl⟩

theorem map_snd_queries (b : Batch) : b.queries.map Prod.snd = b.slots.filterMap Slot.query? := by
  have hslots : b.slots.zipIdx.map Prod.fst = b.slots := List.zipIdx_map_fst 0 b.slots
  rw [queries, List.map_filterMap, ← hslots, List.filterMap_map, hslots]
  refine List.filterMap_congr ?_
  rintro ⟨slot, i⟩ -
  cases slot <;> rfl

/-- How many slots are missing in a batch that is not empty. -/
theorem neg_emod_of_le {n : Nat} (hpos : 0 < n) (hle : n ≤ batchSize) :
    (-(n : Int) % batchSize).toNat = batchSize - n := by
  have hshift : -(n : Int) = ((batchSize - n : Nat) : Int) + batchSize * (-1) := by omega
  rw [hshift, Int.add_mul_emod_self_left, Int.emod_eq_of_lt (by omega) (by omega),
    Int.toNat_natCast]

/-- A full batch changes nothing about that. -/
theorem neg_emod_add (n : Nat) :
    -((batchSize + n : Nat) : Int) % batchSize = -(n : Int) % batchSize := by
  rw [Int.natCast_add, Int.neg_add, Int.add_comm, Int.add_neg_emod_self]

/-- The batches hold the queries in order, and the slots that are missing at the end are padding. -/
theorem slots_groups (dimension : Nat) (positive : 0 < batchSize) (queries : List Query) :
    ((groupsOf batchSize queries).map (ofGroup batchSize dimension)).flatMap (·.slots) =
      queries.map .query ++
        List.replicate (-(queries.length : Int) % batchSize).toNat .padding := by
  fun_induction groupsOf batchSize queries with
  | case1 => simp
  | case2 q rest ih =>
    rw [List.map_cons, List.flatMap_cons, ih, ofGroup]
    -- Slots are missing in the last batch only; any other is full.
    by_cases hlast : rest.length ≤ batchSize - 1
    · have hmissing : (-((q :: rest).length : Int) % batchSize).toNat =
          batchSize - (q :: rest).length :=
        neg_emod_of_le (Nat.succ_pos _) (by rw [List.length_cons]; omega)
      rw [List.take_of_length_le hlast, List.drop_of_length_le hlast, hmissing]
      simp
    · have hfull : (q :: rest.take (batchSize - 1)).length = batchSize := by
        rw [List.length_cons, List.length_take]
        omega
      have hlength : (q :: rest).length = batchSize + (rest.drop (batchSize - 1)).length := by
        rw [List.length_cons, List.length_drop]
        omega
      rw [hlength, neg_emod_add, hfull, Nat.sub_self, List.replicate_zero, List.append_nil,
        ← List.append_assoc, ← List.map_append, List.cons_append, List.take_append_drop]

section Slots

variable {batches : List Batch} {queries : List Query} {missing : Nat}
  (slots : batches.flatMap (·.slots) = queries.map .query ++ List.replicate missing .padding)
include slots

theorem queries_of_slots : (batches.flatMap (·.queries)).map Prod.snd = queries := by
  have hqueries : (queries.map Slot.query).filterMap Slot.query? = queries := by
    rw [List.filterMap_map]
    exact List.filterMap_some
  calc (batches.flatMap (·.queries)).map Prod.snd
      = (batches.flatMap (·.slots)).filterMap Slot.query? := by
        simp only [List.map_flatMap, List.filterMap_flatMap, map_snd_queries]
    _ = queries := by
        rw [slots, List.filterMap_append, hqueries, List.filterMap_replicate_of_none rfl,
          List.append_nil]

/-- In batches of one size, the place of a query tells its batch and its slot. -/
theorem placed_of_slots (positive : 0 < batchSize) (size : ∀ b ∈ batches, b.size = batchSize)
    (i : Nat) (q : Query) :
    queries[i]? = some q ↔
      ∃ b, batches[i / batchSize]? = some b ∧ (i % batchSize, q) ∈ b.queries := by
  have hwidth : ∀ slots ∈ batches.map (·.slots), slots.length = batchSize :=
    List.forall_mem_map.mpr size
  have hslot : (batches.flatMap (·.slots))[i]? = some (.query q) ↔
      ∃ b, batches[i / batchSize]? = some b ∧ (i % batchSize, q) ∈ b.queries := by
    rw [List.flatMap_def, getElem?_flatten_of_width positive hwidth, List.getElem?_map,
      Option.bind_map]
    simp only [Option.bind_eq_some_iff, Function.comp_apply, mem_queries]
  rw [← hslot, slots]
  by_cases hi : i < queries.length
  · rw [List.getElem?_append_left (by rwa [List.length_map])]
    simp
  · have houtside : queries[i]? = none := List.getElem?_eq_none (by omega)
    rw [List.getElem?_append_right (by rw [List.length_map]; omega), houtside]
    simp [List.getElem?_replicate]

end Slots

theorem padding_ofGroup (batchSize dimension : Nat) (group : List Query) :
    (ofGroup batchSize dimension group).padding = batchSize - group.length := by
  rw [padding, ofGroup, List.countP_append, List.countP_map, List.countP_replicate]
  simp [Slot.isPadding, Function.comp_def]

/-- The batches of some queries: all of one size, with the queries in the order of the slots and
padding in the last slots of the last batch only. -/
structure IsSplit (batchSize dimension : Nat) (queries : List Query) (batches : List Batch) :
    Prop where
  dimension_eq : ∀ b ∈ batches, b.dimension = dimension
  size_eq : ∀ b ∈ batches, b.size = batchSize
  queries_eq : (batches.flatMap (·.queries)).map Prod.snd = queries
  placed : ∀ i q, queries[i]? = some q ↔
    ∃ b, batches[i / batchSize]? = some b ∧ (i % batchSize, q) ∈ b.queries
  full : ∀ b ∈ batches.dropLast, b.isPadded = false
  slots_eq : batches.flatMap (·.slots) =
    queries.map .query ++ List.replicate (-(queries.length : Int) % batchSize).toNat .padding

theorem isSplit_groups (positive : 0 < batchSize) (queries : List Query) :
    IsSplit batchSize dimension queries
      ((groupsOf batchSize queries).map (ofGroup batchSize dimension)) := by
  have hcut := isCut_groupsOf batchSize queries
  rw [Nat.max_eq_left positive] at hcut
  have hslots := slots_groups dimension positive queries
  have hsize : ∀ b ∈ (groupsOf batchSize queries).map (ofGroup batchSize dimension),
      b.size = batchSize :=
    List.forall_mem_map.mpr fun group hgroup => size_ofGroup (hcut.bounds group hgroup).2
  refine ⟨List.forall_mem_map.mpr fun _ _ => rfl, hsize, queries_of_slots hslots,
    placed_of_slots hslots positive hsize, ?_, hslots⟩
  rw [← List.map_dropLast]
  refine List.forall_mem_map.mpr fun group hgroup => ?_
  rw [isPadded, padding_ofGroup, hcut.full group hgroup, Nat.sub_self]
  rfl

/-- All fit queries make one batch without padding, also if there are none. -/
theorem single_of_fit {queries : List Query} (fit : ∀ q ∈ queries, q.Fits dimension) :
    single queries dimension = .ok ⟨dimension, queries.map .query⟩ := by
  cases queries with
  | nil => rfl
  | cons q rest =>
    have positive : 0 < (q :: rest).length := Nat.succ_pos _
    have hmax : max (q :: rest).length 1 = (q :: rest).length := Nat.max_eq_left positive
    have hfault : fault? (q :: rest) (q :: rest).length dimension .reject = none :=
      fault?_eq_none_iff.mpr ⟨positive, fit, fun _ => Nat.dvd_refl _⟩
    rw [single, hmax, split_of_fault?_eq_none positive hfault, ok_bind,
      groupsOf_of_length_le (Nat.le_max_left _ _) (List.cons_ne_nil q rest)]
    simp [ofGroup, pure, Except.pure]

/-- Queries cannot be split exactly if there are no slots, an embedding is unfit, or the last batch
is not full and must be. Otherwise the batches are of the size asked for and hold the queries in
order, each in the slot that its place tells, and only the slots that the last batch lacks are
padding. A single batch holds all fit queries without any padding. -/
theorem split_outcome (queries : List Query) (batchSize dimension : Nat) (policy : PaddingPolicy) :
    ((∃ failure, split queries batchSize dimension policy = .error failure) ↔
      batchSize = 0 ∨ (∃ q ∈ queries, ¬ q.Fits dimension) ∨
        policy = .reject ∧ ¬ batchSize ∣ queries.length) ∧
    (∀ batches, split queries batchSize dimension policy = .ok batches →
      IsSplit batchSize dimension queries batches) ∧
    ((∀ q ∈ queries, q.Fits dimension) →
      ∃ b, single queries dimension = .ok b ∧ b.dimension = dimension ∧
        b.slots = queries.map .query ∧ b.size = queries.length ∧ b.isPadded = false) := by
  refine ⟨?_, fun batches hsplit => ?_, fun fit => ?_⟩
  · have hfault : (∃ failure, split queries batchSize dimension policy = .error failure) ↔
        fault? queries batchSize dimension policy ≠ none := by
      rw [split]
      cases fault? queries batchSize dimension policy <;> simp
    rw [hfault, ne_eq, fault?_eq_none_iff]
    simp only [Classical.not_and_iff_not_or_not, Classical.not_imp, Classical.not_forall,
      Nat.not_lt, Nat.le_zero]
  · cases hfault : fault? queries batchSize dimension policy with
    | some fault =>
      rw [split, hfault] at hsplit
      contradiction
    | none =>
      have positive := (fault?_eq_none_iff.mp hfault).1
      rw [split_of_fault?_eq_none positive hfault] at hsplit
      obtain rfl := Except.ok.inj hsplit
      exact isSplit_groups positive queries
  · refine ⟨_, single_of_fit fit, rfl, rfl, List.length_map _, ?_⟩
    simp [isPadded, padding, Slot.isPadding, Function.comp_def]

/-- Three queries in batches of two: the last batch has one padding slot, which a caller that
rejects padding does not get. Two of them make a single batch. -/
theorem split_outcome_of_three :
    let queries : List Query := [⟨[1.0], .null⟩, ⟨[2.0], .null⟩, ⟨[3.0], .null⟩]
    (∃ failure, split queries 2 1 .reject = .error failure) ∧
    (∃ batches, split queries 2 1 .pad = .ok batches ∧
      (∃ b, batches[1]? = some b ∧ (0, ⟨[3.0], .null⟩) ∈ b.queries) ∧
      batches.flatMap (·.slots) = queries.map .query ++ [.padding]) ∧
    ∃ b, single queries 1 = .ok b ∧ b.size = 3 := by
  intro queries
  have fit : ∀ q ∈ queries, q.Fits 1 := by
    intro q hq
    refine Query.check_eq_ok_iff.mp ?_
    simp only [queries, List.mem_cons, List.not_mem_nil, or_false] at hq
    rcases hq with rfl | rfl | rfl <;> rfl
  obtain ⟨hreject, -, hsingle⟩ := split_outcome queries 2 1 .reject
  obtain ⟨-, hbatches, -⟩ := split_outcome queries 2 1 .pad
  refine ⟨hreject.mpr (.inr (.inr ⟨rfl, by decide⟩)), ?_, ?_⟩
  · have hsplit : split queries 2 1 .pad = _ :=
      split_of_fit (by decide) fun q hq => Query.check_eq_ok_iff.mpr (fit q hq)
    have hlaid := hbatches _ hsplit
    exact ⟨_, hsplit, (hlaid.placed 2 _).mp rfl, hlaid.slots_eq⟩
  · obtain ⟨b, hb, -, -, hsize, -⟩ := hsingle fit
    exact ⟨b, hb, hsize⟩

end Batch
end ProgramSearch
