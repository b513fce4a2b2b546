import ProgramSearch.Proofs.Database.Filling

/-!
# Runs of pushes

A builder takes a record with its embedding as a whole or not at all. So after any run of pushes the
rows of its shard are the accepted ones, in order.
-/
namespace ProgramSearch.ShardBuilder

/-- What a push does that is refused, and why it is. -/
inductive Refusal (b : ShardBuilder) (v : Embedding) : ShardBuilder → Failure → Prop where
  | full (full : b.capacity ≤ b.size) : Refusal b v b (.shardFull b.capacity)
  | length (room : b.size < b.capacity) (wrong : v.length ≠ b.dimension) :
    Refusal b v { b with skipped := b.skipped + 1 } (.dimensionMismatch b.dimension v.length)
  | value {position : Nat} {x : Float32} (room : b.size < b.capacity)
    (right : v.length = b.dimension) (hx : v[position]? = some x) (bad : x.isFinite = false)
    (first : ∀ y ∈ v.take position, y.isFinite = true) :
    Refusal b v { b with skipped := b.skipped + 1 } (.notFinite position)

/-- The builder after some pushes. -/
def pushAll (b : ShardBuilder) (entries : List Entry) : ShardBuilder :=
  entries.foldl (fun b e => (b.push e.1 e.2).1) b

/-- The entries whose pushes succeed, in order. -/
def accepted (b : ShardBuilder) : List Entry → List Entry
  | [] => []
  | e :: rest =>
    match b.push e.1 e.2 with
    | (b', none) => e :: accepted b' rest
    | (b', some _) => accepted b' rest

variable {b : ShardBuilder} {held : List Entry} {e : Entry}

/-- An unfit vector is refused for its length or, if that is right, for its first bad value. -/
theorem refusal_of_vectorFailure? {v : Embedding} {failure : Failure}
    (room : b.size < b.capacity) (h : vectorFailure? b.dimension v = some failure) :
    b.Refusal v { b with skipped := b.skipped + 1 } failure := by
  rw [vectorFailure?] at h
  by_cases hlength : v.length = b.dimension
  · rw [if_neg (by simpa using hlength)] at h
    split at h
    · rename_i position hbad
      obtain rfl := Option.some.inj h
      obtain ⟨hlt, hx, hfirst⟩ := List.findIdx?_eq_some_iff_getElem.mp hbad
      refine .value room hlength (List.getElem?_eq_getElem hlt) (by simpa using hx) ?_
      intro y hy
      obtain ⟨i, hi, rfl⟩ := List.mem_take_iff_getElem.mp hy
      simpa using hfirst i (by omega)
    · contradiction
  · rw [if_pos (by simpa using hlength)] at h
    obtain rfl := Option.some.inj h
    exact .length room hlength

/-- A push stores its entry or is refused. -/
theorem push_cases (b : ShardBuilder) (e : Entry) :
    (b.size < b.capacity ∧ Entry.fits b.dimension e = true ∧
        b.push e.1 e.2 = (b.store e, none)) ∨
      ∃ b' failure, b.Refusal e.2 b' failure ∧ b.push e.1 e.2 = (b', some failure) := by
  cases room : b.isFull with
  | true => exact .inr ⟨_, _, .full (of_decide_eq_true room), push_of_full room e⟩
  | false =>
    have hroom : b.size < b.capacity := Nat.lt_of_not_le (of_decide_eq_false room)
    cases fits : Entry.fits b.dimension e with
    | true => exact .inl ⟨hroom, rfl, push_of_fits room fits⟩
    | false =>
      obtain ⟨failure, hfailure, hpush⟩ := push_of_not_fits room fits
      exact .inr ⟨_, failure, refusal_of_vectorFailure? hroom hfailure, hpush⟩

/-- What a builder holds after pushes and how it was set up; refusals show in the count alone. -/
structure Grown (b : ShardBuilder) (dimension capacity : Nat) (held : List Entry) : Prop where
  dimension_eq : b.dimension = dimension
  capacity_eq : b.capacity = capacity
  held : b.Holds held
  size_le : b.size ≤ capacity

variable {dimension capacity : Nat}

theorem grown_empty (dimension capacity : Nat) :
    (empty dimension capacity).Grown dimension (max capacity 1) [] :=
  ⟨rfl, rfl, holds_empty dimension capacity, Nat.zero_le _⟩

theorem Grown.store (h : b.Grown dimension capacity held) (room : b.size < b.capacity)
    (fits : Entry.fits b.dimension e = true) :
    (b.store e).Grown dimension capacity (held ++ [e]) := by
  have hholds := h.held.store fits
  refine ⟨h.dimension_eq, h.capacity_eq, hholds, ?_⟩
  rw [hholds.size_eq, List.length_append, List.length_singleton, ← h.held.size_eq, ← h.capacity_eq]
  exact room

theorem Grown.refuse {b' : ShardBuilder} {v : Embedding} {failure : Failure}
    (h : b.Grown dimension capacity held) (hrefusal : b.Refusal v b' failure) :
    b'.Grown dimension capacity held := by
  cases hrefusal with
  | full => exact h
  | length | value =>
    exact ⟨h.dimension_eq, h.capacity_eq, ⟨h.held.stored, h.held.fit⟩, h.size_le⟩

/-- After a run a builder holds what it held and, behind that, the accepted entries. -/
theorem Grown.pushAll (h : b.Grown dimension capacity held) (entries : List Entry) :
    (b.pushAll entries).Grown dimension capacity (held ++ b.accepted entries) := by
  induction entries generalizing b held with
  | nil => simpa [pushAll, accepted] using h
  | cons e rest ih =>
    rw [pushAll, List.foldl_cons, accepted]
    obtain ⟨room, fits, hpush⟩ | ⟨b', failure, hrefusal, hpush⟩ := push_cases b e
    · have hrun := ih (h.store room fits)
      rw [List.append_assoc] at hrun
      rw [hpush]
      exact hrun
    · rw [hpush]
      exact ih (h.refuse hrefusal)

/-- After any run of pushes the builder holds no more than its capacity allows, the next push is
refused for a reason and without a trace but the count, or stored; and the rows of the finished
shard are the entries whose pushes succeeded, each with its record, its vector and its norm. -/
theorem rows_of_pushes (dimension capacity : Nat) (pushes : List Entry) :
    let b := (empty dimension capacity).pushAll pushes
    let stored := (empty dimension capacity).accepted pushes
    b.dimension = dimension ∧ b.capacity = max capacity 1 ∧ b.size ≤ max capacity 1 ∧
      (∀ (e : Entry) (failure : Failure), (b.push e.1 e.2).2 = some failure →
        b.Refusal e.2 (b.push e.1 e.2).1 failure) ∧
      b.finish.size = stored.length ∧
      ∀ row < b.finish.size, ∃ e, stored[row]? = some e ∧
        b.finish.record? row = some e.1 ∧ b.finish.embedding? row = some e.2 ∧
        b.finish.norm? row = some e.2.norm := by
  intro b stored
  have hgrown : b.Grown dimension (max capacity 1) stored :=
    (grown_empty dimension capacity).pushAll pushes
  have hsize : b.finish.size = stored.length := hgrown.held.size_eq
  refine ⟨hgrown.dimension_eq, hgrown.capacity_eq, hgrown.size_le, ?_, hsize, ?_⟩
  · intro e failure hfailure
    obtain ⟨-, -, hpush⟩ | ⟨b', failure', hrefusal, hpush⟩ := push_cases b e
    · rw [hpush] at hfailure
      contradiction
    · rw [hpush] at hfailure ⊢
      obtain rfl := Option.some.inj hfailure
      exact hrefusal
  · intro row hrow
    obtain ⟨e, hentry⟩ : ∃ e, stored[row]? = some e :=
      ⟨_, List.getElem?_eq_getElem (hsize ▸ hrow)⟩
    have lengths : ∀ e ∈ stored, e.2.length = b.dimension := fun e he =>
      Entry.length_of_fits (hgrown.held.fit e he)
    refine ⟨e, hentry, ?_, ?_, ?_⟩
    · rw [hgrown.held.stored, Shard.record?_ofEntries, hentry]
      rfl
    · rw [hgrown.held.stored, Shard.embedding?_ofEntries lengths hentry]
    · rw [hgrown.held.stored, Shard.norm?_ofEntries, hentry]
      rfl

end ProgramSearch.ShardBuilder
