import ProgramSearch.Json.Document

/-!
# How deep a document nests

Whether values may nest this deep or that deep makes no difference to a document that does not.
-/
namespace ProgramSearch.Json

mutual

/-- How many levels of arrays and objects a document has. -/
def Doc.depth : Doc → Nat
  | .array items _ => depthItems items + 1
  | .object members _ => depthMembers members + 1
  | _ => 0

def depthItems : List Doc → Nat
  | [] => 0
  | d :: rest => max d.depth (depthItems rest)

def depthMembers : List (Except Fault String × Doc) → Nat
  | [] => 0
  | (_, d) :: rest => max d.depth (depthMembers rest)

end

mutual

theorem content_of_depth_le {room room' : Nat} (d : Doc) (h : d.depth ≤ room)
    (h' : d.depth ≤ room') : d.content room = d.content room' := by
  cases d with
  | array items ending =>
    rw [Doc.depth] at h h'
    obtain ⟨room, rfl⟩ := Nat.exists_eq_add_of_le' h
    obtain ⟨room', rfl⟩ := Nat.exists_eq_add_of_le' h'
    rw [← Nat.add_assoc, ← Nat.add_assoc, Doc.content, Doc.content,
      contentItems_of_depth_le items (Nat.le_add_left _ room) (Nat.le_add_left _ room')]
  | object members ending =>
    rw [Doc.depth] at h h'
    obtain ⟨room, rfl⟩ := Nat.exists_eq_add_of_le' h
    obtain ⟨room', rfl⟩ := Nat.exists_eq_add_of_le' h'
    rw [← Nat.add_assoc, ← Nat.add_assoc, Doc.content, Doc.content,
      contentMembers_of_depth_le members (Nat.le_add_left _ room) (Nat.le_add_left _ room')]
  | _ => rw [Doc.content, Doc.content]

theorem contentItems_of_depth_le {room room' : Nat} (items : List Doc)
    (h : depthItems items ≤ room) (h' : depthItems items ≤ room') :
    contentItems room items = contentItems room' items := by
  cases items with
  | nil => rw [contentItems, contentItems]
  | cons d rest =>
    rw [depthItems, Nat.max_le] at h h'
    rw [contentItems, contentItems, content_of_depth_le d h.1 h'.1,
      contentItems_of_depth_le rest h.2 h'.2]

theorem contentMembers_of_depth_le {room room' : Nat}
    (members : List (Except Fault String × Doc)) (h : depthMembers members ≤ room)
    (h' : depthMembers members ≤ room') :
    contentMembers room members = contentMembers room' members := by
  cases members with
  | nil => rw [contentMembers, contentMembers]
  | cons member rest =>
    obtain ⟨key, d⟩ := member
    rw [depthMembers, Nat.max_le] at h h'
    rw [contentMembers, contentMembers, content_of_depth_le d h.1 h'.1,
      contentMembers_of_depth_le rest h.2 h'.2]

end

/-- A document has the same value wherever there is room for it. -/
theorem value_of_depth_le {room room' : Nat} {d : Doc} (h : d.depth ≤ room) (h' : d.depth ≤ room') :
    d.value room = d.value room' := by
  rw [Doc.value, Doc.value, content_of_depth_le d h h']

end ProgramSearch.Json
