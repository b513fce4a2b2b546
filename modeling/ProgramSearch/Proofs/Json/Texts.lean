import Mathlib.Data.List.Forall2
import ProgramSearch.Proofs.Json.Reading
import ProgramSearch.Proofs.Json.Stopping

/-!
# Texts put together

The texts of some documents, with commas between them and brackets around them, are the text of
the array of these documents; a key and a text in braces are the text of an object.
-/
namespace ProgramSearch.Json

open Byte

/-- Some bytes are the text of one document, with blanks around it. -/
def Reads (s : Bytes) (d : Doc) : Prop :=
  ∃ rest, readValue (3 * s.length + 3) s = (d, some rest) ∧ skipBlank rest = []

theorem skipBlank_skipBlank (s : Bytes) : skipBlank (skipBlank s) = skipBlank s := by
  induction s with
  | nil => rfl
  | cons b s ih => cases hblank : isBlank b <;> simp_all [skipBlank]

/-- Blanks in front of a value do not count. -/
theorem readValue_skipBlank (fuel : Nat) (s : Bytes) :
    readValue fuel (skipBlank s) = readValue fuel s := by
  cases fuel with
  | zero => rfl
  | succ fuel => rw [readValue, readValue, skipBlank_skipBlank]

namespace Reads

variable {s : Bytes} {d : Doc}

theorem append (h : Reads s d) {tail : Bytes} (ends : Ends tail) {fuel : Nat}
    (enough : 3 * s.length + 3 ≤ fuel) :
    ∃ rest, readValue fuel (s ++ tail) = (d, some (rest ++ tail)) ∧ skipBlank rest = [] := by
  obtain ⟨rest, hread, hrest⟩ := h
  have hmore := (undisturbed tail (fuel - (3 * s.length + 3)) (3 * s.length + 3)).value hread
    (.of_ends ends)
  rw [Nat.add_sub_cancel' enough] at hmore
  exact ⟨rest, hmore, hrest⟩

/-- A text does not start with the end of an array. -/
theorem head (h : Reads s d) : ∃ b s', skipBlank s = b :: s' ∧ b ≠ closeBracket := by
  obtain ⟨rest, hread, -⟩ := h
  rw [readValue] at hread
  cases hs : skipBlank s with
  | nil =>
    rw [hs] at hread
    cases hread
  | cons b s' =>
    refine ⟨b, s', rfl, ?_⟩
    rintro rfl
    rw [hs] at hread
    cases hread

/-- A text reads alike with blanks in front of it. -/
theorem behind_blank (h : Reads s d) {lead : Bytes} (blank : skipBlank lead = []) :
    Reads (lead ++ s) d := by
  have enough : 3 * s.length + 3 ≤ 3 * (lead ++ s).length + 3 := by
    rw [List.length_append]
    omega
  have ends : Ends [] := trivial
  obtain ⟨rest, hread, hrest⟩ := h.append ends enough
  rw [List.append_nil, List.append_nil] at hread
  refine ⟨rest, ?_, hrest⟩
  rw [← readValue_skipBlank, skipBlank_append_of_blank blank, readValue_skipBlank, hread]

theorem ofBytes (h : Reads s d) : Document.ofBytes s = ⟨d, false⟩ := by
  obtain ⟨rest, hread, hrest⟩ := h
  rw [Document.ofBytes, hread]
  simp [hrest]

/-- A text that has a value is read to its end. -/
theorem of_content {room : Nat} {v : Value} (h : (Document.ofBytes s).root.content room = .ok v)
    (complete : (Document.ofBytes s).trailing = false) : Reads s (Document.ofBytes s).root := by
  rcases hread : readValue (3 * s.length + 3) s with ⟨root, onward⟩
  cases onward with
  | none =>
    rw [Document.ofBytes, hread] at h
    exact absurd h (content_of_stopped room v hread)
  | some rest =>
    rw [Document.ofBytes, hread] at complete ⊢
    exact ⟨rest, hread, by simpa using complete⟩

theorem of_parse {text : String} {v : Value} (h : Json.parse text = .ok v) :
    Reads text.toUTF8.data.toList (Document.ofString text).root := by
  obtain ⟨v', hvalue, h⟩ := bind_ok h
  have complete : (Document.ofString text).trailing = false := by
    cases htrailing : (Document.ofString text).trailing with
    | false => rfl
    | true =>
      rw [htrailing] at h
      contradiction
  rw [Doc.value] at hvalue
  cases hcontent : (Document.ofString text).root.content maxDepth with
  | error fault =>
    rw [hcontent] at hvalue
    contradiction
  | ok w => exact of_content hcontent complete

theorem parse {text : String} (h : Reads text.toUTF8.data.toList d) :
    Json.parse text = d.value maxDepth := by
  rw [Json.parse, Document.ofString, h.ofBytes, Document.decode]
  cases d.value maxDepth <;> rfl

/-- Where a value was read, there is a byte that is visible. -/
theorem exists_visible (h : Reads s d) : ∃ b ∈ s, 0x21 ≤ b.toNat ∧ b.toNat ≤ 0x7E := by
  obtain ⟨rest, hread, -⟩ := h
  rw [readValue] at hread
  cases hs : skipBlank s with
  | nil =>
    rw [hs] at hread
    cases hread
  | cons b s' =>
    have hmem : b ∈ s := by
      have hsuffix : skipBlank s <:+ s := List.dropWhile_suffix isBlank
      exact hsuffix.subset (hs ▸ List.mem_cons_self)
    refine ⟨b, hmem, ?_⟩
    rw [hs] at hread
    split at hread <;> rename_i heq
    · cases heq
    all_goals obtain ⟨rfl, rfl⟩ := List.cons.inj heq
    case h_9 =>
      split at hread
      · rename_i digit
        simp only [isDigit, Bool.and_eq_true, decide_eq_true_eq, UInt8.le_iff_toNat_le] at digit
        exact ⟨Nat.le_trans (by decide) digit.1, Nat.le_trans digit.2 (by decide)⟩
      · cases hread
    all_goals decide

end Reads

/-- The texts behind the first of an array, each with its comma. -/
def othersText (texts : List Bytes) : Bytes := texts.flatMap (comma :: ·)

/-- The text of an array from the texts of its elements. -/
def arrayText : List Bytes → Bytes
  | [] => [openBracket, closeBracket]
  | text :: others => openBracket :: (text ++ (othersText others ++ [closeBracket]))

/-- The text of an object from the texts of its members. -/
def objectText : List Bytes → Bytes
  | [] => [Byte.openBrace, Byte.closeBrace]
  | text :: others => Byte.openBrace :: (text ++ (othersText others ++ [Byte.closeBrace]))

/-- The text of a member, from what stands between the quotes of its key and the text of its
value. -/
def memberText (key text : Bytes) : Bytes := quote :: (key ++ quote :: colon :: text)

/-- Some bytes are the text of a member, with blanks in front of it. -/
inductive ReadsMember : Bytes → Except Fault String × Doc → Prop where
  | intro {lead key text : Bytes} {name : Except Fault String} {d : Doc}
    (blank : skipBlank lead = [])
    (hkey : readString (key.length + 1) [] none (key ++ [quote]) = .ok (name, []))
    (htext : Reads text d) : ReadsMember (lead ++ memberText key text) (name, d)

theorem ends_othersText (texts : List Bytes) (tail : Bytes) :
    Ends (othersText texts ++ closeBracket :: tail) := by
  cases texts <;> exact ⟨by decide, by decide, by decide, by decide⟩

theorem length_othersText (text : Bytes) (texts : List Bytes) :
    (othersText (text :: texts)).length = text.length + (othersText texts).length + 1 := by
  simp only [othersText, List.flatMap_cons, List.length_append, List.length_cons]
  omega

/-- The elements from the next one on. -/
theorem readItem_text {text : Bytes} {d : Doc} (h : Reads text d) {tail : Bytes}
    {fuel : Nat} (enough : 3 * text.length + 3 ≤ fuel) (ends : Ends tail) {items : List Doc}
    {onward : Onward} (others : ∀ rest, skipBlank rest = [] →
      readItems fuel false (rest ++ tail) = (items, none, onward)) :
    readItem (fuel + 1) (skipBlank (text ++ tail)) = (d :: items, none, onward) := by
  obtain ⟨rest, hread, hblank⟩ := h.append ends enough
  rw [readItem, readValue_skipBlank, hread]
  simp only [others rest hblank]

theorem readItems_othersText {texts : List Bytes} {docs : List Doc}
    (h : List.Forall₂ Reads texts docs) (tail : Bytes) {rest : Bytes} (blank : skipBlank rest = [])
    {fuel : Nat} (enough : 3 * (othersText texts).length + 3 ≤ fuel) :
    readItems fuel false (rest ++ (othersText texts ++ closeBracket :: tail)) =
      (docs, none, some tail) := by
  induction h generalizing rest fuel with
  | nil =>
    obtain ⟨fuel, rfl⟩ : ∃ n, fuel = n + 1 := ⟨fuel - 1, by omega⟩
    refine readItems_close ?_
    rw [skipBlank_append_of_blank blank]
    rfl
  | @cons text d texts docs htext hothers ih =>
    rw [length_othersText] at enough
    obtain ⟨fuel, rfl⟩ : ∃ n, fuel = n + 2 := ⟨fuel - 2, by omega⟩
    have hcomma : skipBlank (rest ++ (othersText (text :: texts) ++ closeBracket :: tail)) =
        comma :: (text ++ (othersText texts ++ closeBracket :: tail)) := by
      rw [skipBlank_append_of_blank blank, othersText, List.flatMap_cons, List.append_assoc]
      rfl
    obtain ⟨b, s', hs, hb⟩ := htext.head
    have hnext := skipBlank_append hs (othersText texts ++ closeBracket :: tail)
    rw [readItems_next hcomma hnext hb, ← hnext]
    refine readItem_text htext (by omega) (ends_othersText texts tail) ?_
    exact fun rest blank => ih blank (by omega)

theorem Reads.array {texts : List Bytes} {docs : List Doc} (h : List.Forall₂ Reads texts docs) :
    Reads (arrayText texts) (.array docs none) := by
  refine ⟨[], ?_, rfl⟩
  cases h with
  | nil => rfl
  | @cons text d texts docs htext hothers =>
    generalize hfuel : 3 * (arrayText (text :: texts)).length = fuel
    rw [arrayText, List.length_cons, List.length_append, List.length_append, List.length_singleton]
      at hfuel
    obtain ⟨b, s', hs, hb⟩ := htext.head
    have hfirst := skipBlank_append hs (othersText texts ++ [closeBracket])
    have hitems : readItems (fuel + 2) true (text ++ (othersText texts ++ [closeBracket])) =
        (d :: docs, none, some []) := by
      rw [readItems_first hfirst hb, ← hfirst]
      refine readItem_text htext (by omega) (ends_othersText texts []) ?_
      exact fun rest blank => readItems_othersText hothers [] blank (by omega)
    have harray : readValue (fuel + 3) (arrayText (text :: texts)) =
        Doc.ofItems
          (readItems (fuel + 2) true (text ++ (othersText texts ++ [closeBracket]))) := rfl
    rw [harray, hitems]
    rfl

theorem ends_othersText_closeBrace (texts : List Bytes) (tail : Bytes) :
    Ends (othersText texts ++ Byte.closeBrace :: tail) := by
  cases texts <;> exact ⟨by decide, by decide, by decide, by decide⟩

/-- The members from the next one on. -/
theorem ReadsMember.exists_behind {text : Bytes} {member : Except Fault String × Doc}
    (h : ReadsMember text member) {tail : Bytes} {fuel : Nat} (enough : 3 * text.length + 3 ≤ fuel)
    (ends : Ends tail) {members : List (Except Fault String × Doc)} {onward : Onward}
    (others : ∀ rest, skipBlank rest = [] →
      readMembers fuel false (rest ++ tail) = (members, none, onward)) :
    ∃ behind, skipBlank (text ++ tail) = quote :: behind ∧
      readMember (fuel + 1) behind = (member :: members, none, onward) := by
  obtain @⟨lead, key, text, name, d, blank, hkey, htext⟩ := h
  rw [memberText, List.length_append, List.length_cons, List.length_append, List.length_cons,
    List.length_cons] at enough
  refine ⟨key ++ quote :: colon :: (text ++ tail), ?_, ?_⟩
  · rw [List.append_assoc, skipBlank_append_of_blank blank, memberText, List.cons_append,
      List.append_assoc]
    rfl
  · have hname := readString_append hkey (fuel - (key.length + 1)) (colon :: (text ++ tail))
    rw [Nat.add_sub_cancel' (by omega), List.append_assoc] at hname
    have henough : 3 * text.length + 3 ≤ fuel := by omega
    obtain ⟨rest, hread, hblank⟩ := htext.append ends henough
    exact readMember_value hname rfl hread (others rest hblank)

theorem readMembers_othersText {texts : List Bytes} {members : List (Except Fault String × Doc)}
    (h : List.Forall₂ ReadsMember texts members) (tail : Bytes) {rest : Bytes}
    (blank : skipBlank rest = []) {fuel : Nat} (enough : 3 * (othersText texts).length + 3 ≤ fuel) :
    readMembers fuel false (rest ++ (othersText texts ++ Byte.closeBrace :: tail)) =
      (members, none, some tail) := by
  induction h generalizing rest fuel with
  | nil =>
    obtain ⟨fuel, rfl⟩ : ∃ n, fuel = n + 1 := ⟨fuel - 1, by omega⟩
    refine readMembers_close ?_
    rw [skipBlank_append_of_blank blank]
    rfl
  | @cons text member texts members htext hothers ih =>
    rw [length_othersText] at enough
    obtain ⟨fuel, rfl⟩ : ∃ n, fuel = n + 2 := ⟨fuel - 2, by omega⟩
    have hcomma : skipBlank (rest ++ (othersText (text :: texts) ++ Byte.closeBrace :: tail)) =
        comma :: (text ++ (othersText texts ++ Byte.closeBrace :: tail)) := by
      rw [skipBlank_append_of_blank blank, othersText, List.flatMap_cons, List.append_assoc]
      rfl
    have hfirst : 3 * text.length + 3 ≤ fuel := by omega
    obtain ⟨behind, hbehind, hmember⟩ :=
      htext.exists_behind hfirst (ends_othersText_closeBrace texts tail)
        fun rest blank => ih blank (by omega)
    rw [readMembers_comma hcomma, hbehind]
    exact hmember

theorem Reads.object {texts : List Bytes} {members : List (Except Fault String × Doc)}
    (h : List.Forall₂ ReadsMember texts members) :
    Reads (objectText texts) (.object members none) := by
  refine ⟨[], ?_, rfl⟩
  cases h with
  | nil => rfl
  | @cons text member texts members htext hothers =>
    generalize hfuel : 3 * (objectText (text :: texts)).length = fuel
    rw [objectText, List.length_cons, List.length_append, List.length_append,
      List.length_singleton] at hfuel
    have hfirst : 3 * text.length + 3 ≤ fuel := by omega
    obtain ⟨behind, hbehind, hmember⟩ :=
      htext.exists_behind hfirst (ends_othersText_closeBrace texts [])
        fun rest blank => readMembers_othersText hothers [] blank (by omega)
    have hobject : readValue (fuel + 3) (objectText (text :: texts)) =
        Doc.ofMembers (readMembers (fuel + 2) true
          (text ++ (othersText texts ++ [Byte.closeBrace]))) := rfl
    rw [hobject, readMembers_first hbehind, hmember]
    rfl

end ProgramSearch.Json
