import Mathlib.Data.List.Forall2
import ProgramSearch.Json.Value
import ProgramSearch.Proofs.Json.Depth
import ProgramSearch.Proofs.Results

/-!
# What the value of a document says about it

A string or an object is the value of its own kind of document only. A document nests as deep as
its value does.
-/
namespace ProgramSearch.Json

variable {room : Nat} {v : Value}

theorem content_array_ok {items : List Doc} {ending : Option Damage}
    (h : (Doc.array items ending).content room = .ok v) :
    ending = none ∧ ∃ left vs, room = left + 1 ∧ contentItems left items = .ok vs ∧
      v = .array vs := by
  cases room with
  | zero => contradiction
  | succ left =>
    rw [Doc.content] at h
    obtain ⟨vs, hvs, h⟩ := bind_ok h
    cases ending with
    | some damage => contradiction
    | none => exact ⟨rfl, left, vs, rfl, hvs, (Except.ok.inj h).symm⟩

theorem content_object_ok {docs : List (Except Fault String × Doc)} {ending : Option Damage}
    (h : (Doc.object docs ending).content room = .ok v) :
    ending = none ∧ ∃ left members, room = left + 1 ∧ contentMembers left docs = .ok members ∧
      v = .object members := by
  cases room with
  | zero => contradiction
  | succ left =>
    rw [Doc.content] at h
    obtain ⟨members, hmembers, h⟩ := bind_ok h
    cases ending with
    | some damage => contradiction
    | none => exact ⟨rfl, left, members, rfl, hmembers, (Except.ok.inj h).symm⟩

theorem content_eq_string {d : Doc} {s : String} (h : d.content room = .ok (.string s)) :
    d = .string (.ok s) := by
  cases d with
  | string text =>
    obtain ⟨s', rfl, hs⟩ := map_ok h
    rw [Value.string.inj hs]
  | number n =>
    obtain ⟨_, -, hn⟩ := map_ok h
    contradiction
  | array items ending =>
    obtain ⟨-, _, _, -, -, hv⟩ := content_array_ok h
    contradiction
  | object docs ending =>
    obtain ⟨-, _, _, -, -, hv⟩ := content_object_ok h
    contradiction
  | _ => simp [Doc.content] at h

/-- The document of an object is an object that ends properly. -/
theorem content_eq_object {d : Doc} {members : List (String × Value)}
    (h : d.content room = .ok (.object members)) :
    ∃ docs left, d = .object docs none ∧ room = left + 1 ∧
      contentMembers left docs = .ok members := by
  cases d with
  | object docs ending =>
    obtain ⟨rfl, left, members', hroom, hmembers, hv⟩ := content_object_ok h
    obtain rfl := Value.object.inj hv
    exact ⟨docs, left, rfl, hroom, hmembers⟩
  | number n =>
    obtain ⟨_, -, hn⟩ := map_ok h
    contradiction
  | string text =>
    obtain ⟨_, -, hs⟩ := map_ok h
    contradiction
  | array items ending =>
    obtain ⟨-, _, _, -, -, hv⟩ := content_array_ok h
    contradiction
  | _ => simp [Doc.content] at h

/-- The members of a document that has a value, one by one. -/
theorem forall₂_of_contentMembers {docs : List (Except Fault String × Doc)}
    {members : List (String × Value)} (h : contentMembers room docs = .ok members) :
    List.Forall₂ (fun d m => d.1 = .ok m.1 ∧ d.2.content room = .ok m.2) docs members := by
  induction docs generalizing members with
  | nil =>
    obtain rfl := Except.ok.inj h
    exact .nil
  | cons d docs ih =>
    obtain ⟨key, d⟩ := d
    rw [contentMembers] at h
    obtain ⟨k, hkey, h⟩ := bind_ok h
    obtain ⟨v, hv, h⟩ := bind_ok h
    obtain ⟨vs, hvs, h⟩ := bind_ok h
    obtain rfl := Except.ok.inj h
    exact .cons ⟨hkey, hv⟩ (ih hvs)

mutual

/-- How many levels of arrays and objects a value has. -/
def Value.depth : Value → Nat
  | .array items => itemsDepth items + 1
  | .object members => membersDepth members + 1
  | _ => 0

def itemsDepth : List Value → Nat
  | [] => 0
  | v :: rest => max v.depth (itemsDepth rest)

def membersDepth : List (String × Value) → Nat
  | [] => 0
  | (_, v) :: rest => max v.depth (membersDepth rest)

end

mutual

/-- A document with a value nests as deep as the value, and there was room for it. -/
theorem depth_of_content : ∀ (d : Doc) {room : Nat} {v : Value}, d.content room = .ok v →
    d.depth = v.depth ∧ v.depth ≤ room
  | .null, _, _, h => by
    obtain rfl := Except.ok.inj h
    exact ⟨rfl, Nat.zero_le _⟩
  | .bool b, _, _, h => by
    obtain rfl := Except.ok.inj h
    exact ⟨rfl, Nat.zero_le _⟩
  | .number n, _, _, h => by
    obtain ⟨_, -, rfl⟩ := map_ok h
    exact ⟨rfl, Nat.zero_le _⟩
  | .string s, _, _, h => by
    obtain ⟨_, -, rfl⟩ := map_ok h
    exact ⟨rfl, Nat.zero_le _⟩
  | .array items ending, _, _, h => by
    obtain ⟨-, left, vs, rfl, hvs, rfl⟩ := content_array_ok h
    obtain ⟨hdepth, hroom⟩ := depth_of_contentItems items hvs
    rw [Doc.depth, Value.depth, hdepth]
    exact ⟨rfl, Nat.succ_le_succ hroom⟩
  | .object docs ending, _, _, h => by
    obtain ⟨-, left, members, rfl, hmembers, rfl⟩ := content_object_ok h
    obtain ⟨hdepth, hroom⟩ := depth_of_contentMembers docs hmembers
    rw [Doc.depth, Value.depth, hdepth]
    exact ⟨rfl, Nat.succ_le_succ hroom⟩
  | .broken damage, _, _, h => by contradiction

theorem depth_of_contentItems : ∀ (docs : List Doc) {room : Nat} {vs : List Value},
    contentItems room docs = .ok vs → depthItems docs = itemsDepth vs ∧ itemsDepth vs ≤ room
  | [], _, _, h => by
    obtain rfl := Except.ok.inj h
    exact ⟨rfl, Nat.zero_le _⟩
  | d :: docs, _, _, h => by
    obtain ⟨v, hv, h⟩ := bind_ok h
    obtain ⟨vs, hvs, h⟩ := bind_ok h
    obtain rfl := Except.ok.inj h
    obtain ⟨hdepth, hroom⟩ := depth_of_content d hv
    obtain ⟨hrest, hrestRoom⟩ := depth_of_contentItems docs hvs
    rw [depthItems, itemsDepth, hdepth, hrest]
    exact ⟨rfl, Nat.max_le.mpr ⟨hroom, hrestRoom⟩⟩

theorem depth_of_contentMembers : ∀ (docs : List (Except Fault String × Doc)) {room : Nat}
    {members : List (String × Value)}, contentMembers room docs = .ok members →
    depthMembers docs = membersDepth members ∧ membersDepth members ≤ room
  | [], _, _, h => by
    obtain rfl := Except.ok.inj h
    exact ⟨rfl, Nat.zero_le _⟩
  | (_, d) :: docs, _, _, h => by
    obtain ⟨key, -, h⟩ := bind_ok h
    obtain ⟨v, hv, h⟩ := bind_ok h
    obtain ⟨members, hmembers, h⟩ := bind_ok h
    obtain rfl := Except.ok.inj h
    obtain ⟨hdepth, hroom⟩ := depth_of_content d hv
    obtain ⟨hrest, hrestRoom⟩ := depth_of_contentMembers docs hmembers
    rw [depthMembers, membersDepth, hdepth, hrest]
    exact ⟨rfl, Nat.max_le.mpr ⟨hroom, hrestRoom⟩⟩

end

theorem depth_le_of_content {d : Doc} (h : d.content room = .ok v) : d.depth ≤ room := by
  obtain ⟨hdepth, hroom⟩ := depth_of_content d h
  rwa [hdepth]

theorem depthMembers_le_iff {docs : List (Except Fault String × Doc)} :
    depthMembers docs ≤ room ↔ ∀ d ∈ docs, d.2.depth ≤ room := by
  induction docs with
  | nil => simp [depthMembers]
  | cons d docs ih => rw [depthMembers, Nat.max_le, ih, List.forall_mem_cons]

end ProgramSearch.Json
