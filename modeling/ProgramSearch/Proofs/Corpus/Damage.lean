import ProgramSearch.Proofs.Corpus.Collecting
import ProgramSearch.Proofs.Corpus.Names
import ProgramSearch.Proofs.Json.Contents
import ProgramSearch.Proofs.Json.Cut
import ProgramSearch.Proofs.Json.Stopping
import ProgramSearch.Proofs.Program

/-!
# Damaged files

What was read of a file before a damage is kept: a file that is cut short leads to the first
records of the whole file, in the same order.
-/
namespace ProgramSearch

namespace Json

variable {d d' : Doc} {room : Nat} {members : List (String × Value)}

/-- A document whose value is an object was read to its end. -/
theorem exists_members_of_value (h : d.value room = .ok (.object members)) :
    ∃ members, d = .object members none := by
  obtain ⟨v, hcontent, hnormal⟩ := map_ok h
  obtain ⟨content, rfl⟩ : ∃ content, v = .object content := by
    cases v with
    | object content => exact ⟨content, rfl⟩
    | _ => simp [Value.normal] at hnormal
  obtain ⟨docs, -, hobject, -⟩ := content_eq_object hcontent
  exact ⟨docs, hobject⟩

/-- An object that was read to its end is not changed by what follows. -/
theorem Doc.Begins.eq_of_value (h : d.Begins d') (hvalue : d.value room = .ok (.object members)) :
    d' = d := by
  obtain ⟨members, rfl⟩ := exists_members_of_value hvalue
  cases h
  rfl

end Json

namespace Corpus

open Json

/-- The entries among some values. -/
def entriesAmong (field : String) (dimension : Nat) (vs : List Value) : List Entry :=
  entriesOf field dimension (vs.map .program)

/-- The entries among some values are the first among others. -/
def Precede (field : String) (dimension : Nat) (vs ws : List Value) : Prop :=
  entriesAmong field dimension vs <+: entriesAmong field dimension ws

section Programs

variable {field : String} {dimension room : Nat} {vs ws : List Value}

theorem entriesAmong_append (vs ws : List Value) :
    entriesAmong field dimension (vs ++ ws) =
      entriesAmong field dimension vs ++ entriesAmong field dimension ws := by
  rw [entriesAmong, List.map_append, entriesOf, List.filterMap_append]
  rfl

theorem Precede.nil (ws : List Value) : Precede field dimension [] ws := List.nil_prefix

theorem Precede.refl (vs : List Value) : Precede field dimension vs vs := List.prefix_rfl

theorem Precede.append (h : Precede field dimension vs ws) (more : List Value) :
    Precede field dimension vs (ws ++ more) := by
  rw [Precede, entriesAmong_append]
  exact h.trans (List.prefix_append _ _)

theorem Precede.behind (h : Precede field dimension vs ws) (common : List Value) :
    Precede field dimension (common ++ vs) (common ++ ws) := by
  rw [Precede, entriesAmong_append, entriesAmong_append]
  exact (List.prefix_append_right_inj _).mpr h

/-- Only an object can be an entry. -/
theorem Precede.of_not_object {v : Value} (h : ∀ members, v ≠ .object members) (ws : List Value) :
    Precede field dimension [v] ws := by
  have hnone : entriesAmong field dimension [v] = [] := by
    refine entriesOf_cons_of_none ?_
    rw [Item.entry?]
    cases hparse : Program.parse field v with
    | error fault => rfl
    | ok e =>
      obtain ⟨members, rfl⟩ := Program.exists_members_of_parse hparse
      exact absurd rfl (h members)
  rw [Precede, hnone]
  exact List.nil_prefix

variable {ending ending' : Option Damage} {d d' : Doc}

theorem elements_of_ok {v : Value} (h : d.value room = .ok v) (items : List Doc) :
    (elements room ending (d :: items)).1 = v :: (elements room ending items).1 := by
  rw [elements, h]

theorem elements_of_error {fault : Fault} (h : d.value room = .error fault) (items : List Doc) :
    (elements room ending (d :: items)).1 = [] := by
  rw [elements, h]

/-- Elements that both arrays have in front change nothing. -/
theorem Precede.elements_append {items items' : List Doc}
    (h : Precede field dimension (elements room ending items).1 (elements room ending' items').1)
    (common : List Doc) :
    Precede field dimension (elements room ending (common ++ items)).1
      (elements room ending' (common ++ items')).1 := by
  induction common with
  | nil => exact h
  | cons d common ih =>
    rw [List.cons_append, List.cons_append]
    cases hvalue : d.value room with
    | error fault =>
      rw [elements_of_error hvalue]
      exact .nil _
    | ok v =>
      rw [elements_of_ok hvalue, elements_of_ok hvalue]
      exact ih.behind [v]

/-- An element that was cut is no entry unless it was read to its end. -/
theorem Precede.elements_cut (h : d.Begins d') (others : List Doc) :
    Precede field dimension (elements room ending [d]).1
      (elements room ending' (d' :: others)).1 := by
  cases hvalue : d.value room with
  | error fault =>
    rw [elements_of_error hvalue]
    exact .nil _
  | ok v =>
    rw [elements_of_ok hvalue]
    by_cases hobject : ∃ members, v = .object members
    · obtain ⟨members, rfl⟩ := hobject
      rw [h.eq_of_value hvalue, elements_of_ok hvalue]
      exact (Precede.nil _).behind [.object members]
    · exact .of_not_object (fun members heq => hobject ⟨members, heq⟩) _

/-- The programs of a member, which has some only under their name. -/
def ownPrograms (room : Nat) (key : String) (d : Doc) : List Value :=
  if key = "programs" then (programs room d).1 else []

/-- A member offers its own programs, and those of the others follow unless it stops the reading. -/
theorem memberPrograms_cons (room : Nat) (key : String) (d : Doc) :
    (∀ ending others, (memberPrograms room ending ((.ok key, d) :: others)).1 =
      ownPrograms room key d ++ (memberPrograms room ending others).1) ∨
    ∀ ending others, (memberPrograms room ending ((.ok key, d) :: others)).1 =
      ownPrograms room key d := by
  by_cases hkey : key = "programs"
  · subst hkey
    rw [ownPrograms, if_pos rfl]
    rcases hprograms : programs room d with ⟨vs, _ | fault⟩
    · left
      intro ending others
      rw [memberPrograms, if_pos (beq_self_eq_true _), hprograms]
    · right
      intro ending others
      rw [memberPrograms, if_pos (beq_self_eq_true _), hprograms]
  · rw [ownPrograms, if_neg hkey]
    cases hskip : d.skip with
    | ok =>
      left
      intro ending others
      rw [memberPrograms, if_neg (by simpa using hkey), hskip]
    | error fault =>
      right
      intro ending others
      rw [memberPrograms, if_neg (by simpa using hkey), hskip]

theorem exists_memberPrograms (room : Nat) (ending : Option Damage) (key : String) (d : Doc)
    (others : List (Except Fault String × Doc)) :
    ∃ more, (memberPrograms room ending ((.ok key, d) :: others)).1 =
      ownPrograms room key d ++ more := by
  rcases memberPrograms_cons room key d with hgoes | hstops
  · exact ⟨_, hgoes ending others⟩
  · exact ⟨[], by rw [hstops, List.append_nil]⟩

theorem memberPrograms_singleton (room : Nat) (ending : Option Damage) (key : String) (d : Doc) :
    (memberPrograms room ending [(.ok key, d)]).1 = ownPrograms room key d := by
  rcases memberPrograms_cons room key d with hgoes | hstops
  · rw [hgoes, memberPrograms, List.append_nil]
  · exact hstops ending []

/-- Members that both objects have in front change nothing. -/
theorem Precede.memberPrograms_append {members members' : List (Except Fault String × Doc)}
    (h : Precede field dimension (memberPrograms room ending members).1
      (memberPrograms room ending' members').1) (common : List (Except Fault String × Doc)) :
    Precede field dimension (memberPrograms room ending (common ++ members)).1
      (memberPrograms room ending' (common ++ members')).1 := by
  induction common with
  | nil => exact h
  | cons member common ih =>
    obtain ⟨key | key, d⟩ := member
    · exact .refl _
    · rw [List.cons_append, List.cons_append]
      rcases memberPrograms_cons room key d with hgoes | hstops
      · rw [hgoes, hgoes]
        exact ih.behind _
      · rw [hstops, hstops]
        exact .refl _

/-- A member that was cut offers the first entries of the whole member. -/
theorem Precede.memberPrograms_cut
    (h : Precede field dimension (programs room d).1 (programs room d').1)
    (key : Except Fault String) (others : List (Except Fault String × Doc)) :
    Precede field dimension (memberPrograms room ending [(key, d)]).1
      (memberPrograms room ending' ((key, d') :: others)).1 := by
  cases key with
  | error fault => exact .nil _
  | ok key =>
    obtain ⟨more, hmore⟩ := exists_memberPrograms room ending' key d' others
    rw [memberPrograms_singleton, hmore]
    refine Precede.append ?_ more
    by_cases hkey : key = "programs"
    · rw [ownPrograms, ownPrograms, if_pos hkey, if_pos hkey]
      exact h
    · rw [ownPrograms, if_neg hkey]
      exact .nil _

/-- What a cut document offers are the first entries of the whole document. -/
theorem Precede.programs_cut (h : d.Begins d') (room : Nat) :
    Precede field dimension (programs room d).1 (programs room d').1 := by
  -- The induction is on the place of the cut, from the document down to the value it is in.
  induction h generalizing room with
  | refl => exact .refl _
  | broken => exact .nil _
  | number => exact .nil _
  | array items others damage ending =>
    cases room with
    | zero => exact .nil _
    | succ room =>
      have hnil : Precede field dimension (elements room (some damage) []).1
          (elements room ending others).1 := .nil _
      have hcut := hnil.elements_append items
      rwa [List.append_nil] at hcut
  | element h items others damage ending ih =>
    cases room with
    | zero => exact .nil _
    | succ room => exact (Precede.elements_cut h others).elements_append items
  | object members others damage ending =>
    cases room with
    | zero => exact .nil _
    | succ room =>
      have hnil : Precede field dimension (memberPrograms room (some damage) []).1
          (memberPrograms room ending others).1 := .nil _
      have hcut := hnil.memberPrograms_append members
      rwa [List.append_nil] at hcut
  | member h key members others damage ending ih =>
    cases room with
    | zero => exact .nil _
    | succ room =>
      exact (Precede.memberPrograms_cut (ih room) key others).memberPrograms_append members

end Programs

/-- A file of one document that is a beginning of another leads to the first of its entries: what
stands behind the cut, or damage there, never changes, reorders or removes a record in front of
it. -/
theorem entries_isPrefix_of_cut {t t' : FileTree} {path path' : String} {bytes more : List UInt8}
    (settings : LoadSettings) (document : isLineDelimited path = false)
    (document' : isLineDelimited path' = false) (read : t.readBytes path = .ok bytes)
    (read' : t'.readBytes path' = .ok (bytes ++ more)) :
    (loadFile t settings path).entries <+: (loadFile t' settings path').entries := by
  rw [loadFile_of_readBytes read, loadFile_of_readBytes read', entries_outcomeOf,
    entries_outcomeOf, items, items, document, document']
  exact Precede.programs_cut (root_begins_append bytes more) maxDepth

/-- A file with two programs up to a place in a key of the second. -/
def cutFile : List UInt8 :=
  "[\x7b\"file\":\"A\",\"method\":\"m\",\"e\":[]\x7d,\x7b\"file\":\"B\",\"meth".toUTF8.data.toList

/-- What follows in this file. -/
def cutOff : List UInt8 := "od\":\"m\",\"e\":[]\x7d]".toUTF8.data.toList

/-- What the file, whole or cut, leads to. -/
def sampleOutcome (bytes : List UInt8) : FileOutcome :=
  loadFile (.single "a.json" bytes) (flatSettings "a.json") "a.json"

theorem entries_isPrefix_of_cut_in_key :
    isLineDelimited "a.json" = false ∧
      (FileTree.single "a.json" cutFile).readBytes "a.json" = .ok cutFile ∧
      (FileTree.single "a.json" (cutFile ++ cutOff)).readBytes "a.json" = .ok (cutFile ++ cutOff) ∧
      (sampleOutcome cutFile).entries.map (·.1.fileName) = ["A"] ∧
      (sampleOutcome (cutFile ++ cutOff)).entries.map (·.1.fileName) = ["A", "B"] ∧
      (sampleOutcome cutFile).entries <+: (sampleOutcome (cutFile ++ cutOff)).entries := by
  have name : Path.IsName "a.json" := by decide
  have document : isLineDelimited "a.json" = false := name.isLineDelimited rfl
  have read := FileTree.readBytes_single name cutFile
  have read' := FileTree.readBytes_single name (cutFile ++ cutOff)
  refine ⟨document, read, read', ?_, ?_, entries_isPrefix_of_cut _ document document read read'⟩
  · rw [sampleOutcome, loadFile_of_readBytes read, entries_outcomeOf, items, document]
    rfl
  · rw [sampleOutcome, loadFile_of_readBytes read', entries_outcomeOf, items, document]
    rfl

end Corpus

end ProgramSearch
