import ProgramSearch.Proofs.SortedMap

/-!
# Values whose members stand in another order

A value may hold the members of its objects in any order. Where the keys of each object differ, the
normal form is one of these orders and forgets which one was given. For values without numbers the
comparison of values is equality.
-/
namespace ProgramSearch.Json

mutual

/-- The first value is the second with the members of its objects in some order, at every level. -/
inductive Value.Reordered : Value → Value → Prop where
  | null : Value.Reordered .null .null
  | bool (b : Bool) : Value.Reordered (.bool b) (.bool b)
  | number (n : Number) : Value.Reordered (.number n) (.number n)
  | string (s : String) : Value.Reordered (.string s) (.string s)
  | array {items items' : List Value} (each : ReorderedItems items items') :
      Value.Reordered (.array items) (.array items')
  | object {members between members' : List (String × Value)} (perm : members.Perm between)
      (each : ReorderedMembers between members') :
      Value.Reordered (.object members) (.object members')

inductive ReorderedItems : List Value → List Value → Prop where
  | nil : ReorderedItems [] []
  | cons {v w : Value} {vs ws : List Value} (head : v.Reordered w) (tail : ReorderedItems vs ws) :
      ReorderedItems (v :: vs) (w :: ws)

inductive ReorderedMembers : List (String × Value) → List (String × Value) → Prop where
  | nil : ReorderedMembers [] []
  | cons {key : String} {v w : Value} {vs ws : List (String × Value)} (head : v.Reordered w)
      (tail : ReorderedMembers vs ws) : ReorderedMembers ((key, v) :: vs) ((key, w) :: ws)

end

mutual

/-- A value without numbers, where the keys of each object differ. -/
def Value.Plain : Value → Prop
  | .number _ => False
  | .array items => PlainItems items
  | .object members => (members.map (·.1)).Nodup ∧ PlainMembers members
  | _ => True

def PlainItems : List Value → Prop
  | [] => True
  | v :: rest => v.Plain ∧ PlainItems rest

def PlainMembers : List (String × Value) → Prop
  | [] => True
  | (_, v) :: rest => v.Plain ∧ PlainMembers rest

end

section Members

variable {members members' : List (String × Value)}

theorem plainMembers_iff : PlainMembers members ↔ ∀ m ∈ members, m.2.Plain := by
  induction members with
  | nil => simp [PlainMembers]
  | cons m rest ih => rw [PlainMembers, ih, List.forall_mem_cons]

theorem ReorderedMembers.keys (h : ReorderedMembers members members') :
    members.map (·.1) = members'.map (·.1) := by
  induction members generalizing members' with
  | nil =>
    cases h
    rfl
  | cons m rest ih =>
    cases h with
    | cons head tail => rw [List.map_cons, List.map_cons, ih tail]

/-- A member with its value in normal form. -/
def normalMember (m : String × Value) : String × Value := (m.1, m.2.normal)

theorem normalMembers_eq (done members : List (String × Value)) :
    normalMembers done members =
      (members.map normalMember).foldl (fun done m => setMember m.1 m.2 done) done := by
  induction members generalizing done with
  | nil => rw [normalMembers, List.map_nil, List.foldl_nil]
  | cons m rest ih => rw [normalMembers, ih, List.map_cons, List.foldl_cons, normalMember]

/-- The normal form keeps each member, sorted by key. -/
theorem sorted_normalMembers (distinct : (members.map (·.1)).Nodup) :
    Sorted (normalMembers [] members) ∧
      (normalMembers [] members).Perm (members.map normalMember) := by
  have hkeys : ((members.map normalMember).map (·.1)) = members.map (·.1) := by
    rw [List.map_map]
    rfl
  rw [← hkeys] at distinct
  obtain ⟨hsorted, hmem⟩ := foldl_setMember .nil distinct (by simp)
  rw [normalMembers_eq]
  refine ⟨hsorted, (List.perm_ext_iff_of_nodup hsorted.nodup distinct.of_map).mpr fun m => ?_⟩
  rw [hmem, or_iff_left List.not_mem_nil]

end Members

section Normal

mutual

theorem Value.Reordered.plain : ∀ (w : Value) {v : Value}, v.Reordered w → w.Plain → v.Plain
  | .null, _, .null, _ => trivial
  | .bool _, _, .bool _, _ => trivial
  | .string _, _, .string _, _ => trivial
  | .array items, _, .array each, plain => by
    rw [Value.Plain] at plain ⊢
    exact ReorderedItems.plain items each plain
  | .object members, _, .object perm each, plain => by
    rw [Value.Plain] at plain ⊢
    have hplain := plainMembers_iff.mp (ReorderedMembers.plain members each plain.2)
    exact ⟨(perm.map (·.1)).nodup_iff.mpr (each.keys ▸ plain.1),
      plainMembers_iff.mpr fun m hm => hplain m (perm.mem_iff.mp hm)⟩

theorem ReorderedItems.plain : ∀ (items : List Value) {others : List Value},
    ReorderedItems others items → PlainItems items → PlainItems others
  | [], _, .nil, _ => trivial
  | v :: rest, _, .cons head tail, plain =>
    ⟨Value.Reordered.plain v head plain.1, ReorderedItems.plain rest tail plain.2⟩

theorem ReorderedMembers.plain : ∀ (members : List (String × Value))
    {others : List (String × Value)},
    ReorderedMembers others members → PlainMembers members → PlainMembers others
  | [], _, .nil, _ => trivial
  | (_, v) :: rest, _, .cons head tail, plain =>
    ⟨Value.Reordered.plain v head plain.1, ReorderedMembers.plain rest tail plain.2⟩

end

mutual

/-- The normal form does not depend on the order of members. -/
theorem Value.Reordered.normal_eq : ∀ (w : Value) {v : Value}, v.Reordered w → w.Plain →
    v.normal = w.normal
  | .null, _, .null, _ => rfl
  | .bool _, _, .bool _, _ => rfl
  | .string _, _, .string _, _ => rfl
  | .array items, _, .array each, plain => by
    rw [Value.Plain] at plain
    rw [Value.normal, Value.normal, ReorderedItems.normal_eq items each plain]
  | .object members, _, @Value.Reordered.object others _ _ perm each, plain => by
    rw [Value.Plain] at plain
    have hdistinct : (others.map (·.1)).Nodup :=
      (perm.map (·.1)).nodup_iff.mpr (each.keys ▸ plain.1)
    obtain ⟨hsorted, hperm⟩ := sorted_normalMembers hdistinct
    obtain ⟨hsorted', hperm'⟩ := sorted_normalMembers plain.1
    have hsame : (others.map normalMember).Perm (members.map normalMember) := by
      rw [← ReorderedMembers.normal_eq members each plain.2]
      exact perm.map normalMember
    rw [Value.normal, Value.normal,
      hsorted.eq_of_perm hsorted' (hperm.trans (hsame.trans hperm'.symm))]

theorem ReorderedItems.normal_eq : ∀ (items : List Value) {others : List Value},
    ReorderedItems others items → PlainItems items → normalItems others = normalItems items
  | [], _, .nil, _ => rfl
  | v :: rest, _, .cons head tail, plain => by
    rw [normalItems, normalItems, Value.Reordered.normal_eq v head plain.1,
      ReorderedItems.normal_eq rest tail plain.2]

theorem ReorderedMembers.normal_eq : ∀ (members : List (String × Value))
    {others : List (String × Value)}, ReorderedMembers others members → PlainMembers members →
    others.map normalMember = members.map normalMember
  | [], _, .nil, _ => rfl
  | (_, v) :: rest, _, .cons head tail, plain => by
    rw [List.map_cons, List.map_cons, normalMember, normalMember,
      Value.Reordered.normal_eq v head plain.1, ReorderedMembers.normal_eq rest tail plain.2]

end

mutual

/-- The normal form is the value in one of its orders. -/
theorem Value.normal_reordered : ∀ v : Value, v.Plain → v.normal.Reordered v
  | .null, _ => .null
  | .bool b, _ => .bool b
  | .string s, _ => .string s
  | .array items, plain => by
    rw [Value.Plain] at plain
    exact .array (normalItems_reordered items plain)
  | .object members, plain => by
    rw [Value.Plain] at plain
    exact .object (sorted_normalMembers plain.1).2 (normalMember_reordered members plain.2)

theorem normalItems_reordered : ∀ items : List Value, PlainItems items →
    ReorderedItems (normalItems items) items
  | [], _ => .nil
  | v :: rest, plain =>
    .cons (Value.normal_reordered v plain.1) (normalItems_reordered rest plain.2)

theorem normalMember_reordered : ∀ members : List (String × Value), PlainMembers members →
    ReorderedMembers (members.map normalMember) members
  | [], _ => .nil
  | (_, v) :: rest, plain =>
    .cons (Value.normal_reordered v plain.1) (normalMember_reordered rest plain.2)

end

end Normal

section Same

theorem Number.same_refl (n : Number) : n.same n = true := by
  cases n <;> simp [Number.same, sameDouble]

mutual

theorem Value.same_refl : ∀ v : Value, v.same v = true
  | .null => rfl
  | .bool b => by simp [Value.same]
  | .number n => by rw [Value.same, n.same_refl]
  | .string s => by simp [Value.same]
  | .array items => by rw [Value.same, sameItems_refl items]
  | .object members => by rw [Value.same, sameMembers_refl members]

theorem sameItems_refl : ∀ items : List Value, sameItems items items = true
  | [] => rfl
  | v :: rest => by rw [sameItems, v.same_refl, sameItems_refl rest, Bool.and_self]

theorem sameMembers_refl : ∀ members : List (String × Value), sameMembers members members = true
  | [] => rfl
  | (key, v) :: rest => by
    rw [sameMembers, v.same_refl, sameMembers_refl rest, beq_self_eq_true, Bool.and_self,
      Bool.and_self]

end

mutual

/-- Values without numbers that compare as the same are equal. -/
theorem Value.eq_of_same : ∀ (v w : Value), v.Plain → v.same w = true → v = w
  | .null, w, _, same => by cases w <;> simp_all [Value.same]
  | .bool b, w, _, same => by cases w <;> simp_all [Value.same]
  | .string s, w, _, same => by cases w <;> simp_all [Value.same]
  | .array items, w, plain, same => by
    cases w with
    | array others =>
      rw [Value.Plain] at plain
      rw [Value.same] at same
      rw [eq_of_sameItems items others plain same]
    | _ => simp [Value.same] at same
  | .object members, w, plain, same => by
    cases w with
    | object others =>
      rw [Value.Plain] at plain
      rw [Value.same] at same
      rw [eq_of_sameMembers members others plain.2 same]
    | _ => simp [Value.same] at same

theorem eq_of_sameItems : ∀ items others : List Value, PlainItems items →
    sameItems items others = true → items = others
  | [], others, _, same => by cases others <;> simp_all [sameItems]
  | v :: rest, others, plain, same => by
    cases others with
    | nil => simp [sameItems] at same
    | cons w others =>
      rw [sameItems, Bool.and_eq_true] at same
      rw [Value.eq_of_same v w plain.1 same.1, eq_of_sameItems rest others plain.2 same.2]

theorem eq_of_sameMembers : ∀ members others : List (String × Value), PlainMembers members →
    sameMembers members others = true → members = others
  | [], others, _, same => by cases others <;> simp_all [sameMembers]
  | (key, v) :: rest, others, plain, same => by
    cases others with
    | nil => simp [sameMembers] at same
    | cons m others =>
      rw [sameMembers, Bool.and_eq_true, Bool.and_eq_true] at same
      rw [eq_of_beq same.1.1, Value.eq_of_same v m.2 plain.1 same.1.2,
        eq_of_sameMembers rest others plain.2 same.2]

end

theorem Value.same_iff {v w : Value} (plain : v.Plain) : v.same w = true ↔ v = w :=
  ⟨Value.eq_of_same v w plain, fun h => h ▸ v.same_refl⟩

end Same

end ProgramSearch.Json
