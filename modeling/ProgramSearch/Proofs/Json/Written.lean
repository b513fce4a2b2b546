import Mathlib.Tactic.IntervalCases
import ProgramSearch.Json.Text
import ProgramSearch.Proofs.Json.Blanks
import ProgramSearch.Proofs.Json.Depth
import ProgramSearch.Proofs.Json.Reordered
import ProgramSearch.Proofs.Text.Bytes

/-!
# Written values are read back

Both layouts of a value without numbers are texts of that value: all of the text is read, what was
escaped comes back as it was, and the members stand in the order in which they were written.
-/
namespace ProgramSearch.Json

open Byte Text

section Strings

/-- What is escaped in a string comes back. -/
theorem readEscape_escape {c : Char} (h : c.toNat < 0x20 ∨ c = '"' ∨ c = '\\') :
    ∃ e, utf8 (escape c) = backslash :: e ∧
      readEscape e = .ok ⟨String.utf8EncodeChar c, none, []⟩ := by
  rcases h with hcontrol | rfl | rfl
  · obtain ⟨n, hn⟩ : ∃ n, c.toNat = n := ⟨_, rfl⟩
    rw [hn] at hcontrol
    rw [← Char.ofNat_toNat c, hn]
    interval_cases n <;> exact ⟨_, rfl, rfl⟩
  · exact ⟨_, rfl, rfl⟩
  · exact ⟨_, rfl, rfl⟩

theorem escape_of_plain {c : Char} (h : ¬(c.toNat < 0x20 ∨ c = '"' ∨ c = '\\')) :
    utf8 (escape c) = String.utf8EncodeChar c := by
  have hne : ∀ d : Char, d.toNat < 0x20 → ¬(c == d) = true := by
    rintro d hd heq
    exact h (.inl (eq_of_beq heq ▸ hd))
  rw [not_or, not_or] at h
  have hquote : ¬(c == '"') = true := fun heq => h.2.1 (eq_of_beq heq)
  have hbackslash : ¬(c == '\\') = true := fun heq => h.2.2 (eq_of_beq heq)
  rw [escape, if_neg hquote, if_neg hbackslash, if_neg (hne _ (by decide)),
    if_neg (hne _ (by decide)), if_neg (hne _ (by decide)), if_neg (hne _ (by decide)),
    if_neg (hne _ (by decide)), if_neg h.1, utf8_eq_flatMap]
  simp

/-- A byte that stands for itself in a string. -/
def Literal (b : UInt8) : Prop := b ≠ quote ∧ b ≠ backslash ∧ ¬ b < 0x20

theorem literal_of_plain {c : Char} (h : ¬(c.toNat < 0x20 ∨ c = '"' ∨ c = '\\')) :
    ∀ b ∈ String.utf8EncodeChar c, Literal b := by
  rw [not_or, not_or] at h
  intro b hb
  by_cases small : b.toNat < 128
  · have hnumber := (utf8EncodeChar_of_mem hb small).2
    refine ⟨?_, ?_, ?_⟩
    · rintro rfl
      exact h.2.1 (Char.toNat_inj.mp hnumber)
    · rintro rfl
      exact h.2.2 (Char.toNat_inj.mp hnumber)
    · rw [UInt8.lt_iff_toNat_lt, ← hnumber]
      exact h.1
  · refine ⟨?_, ?_, ?_⟩
    · rintro rfl
      exact small (by decide)
    · rintro rfl
      exact small (by decide)
    · rw [UInt8.lt_iff_toNat_lt]
      exact fun hlt => small (Nat.lt_trans hlt (by decide))

theorem readString_literal {bytes : Bytes} (h : ∀ b ∈ bytes, Literal b) (fuel : Nat)
    (collected s : Bytes) :
    readString (fuel + bytes.length) collected none (bytes ++ s) =
      readString fuel (bytes.reverse ++ collected) none s := by
  induction bytes generalizing collected with
  | nil => rfl
  | cons b bytes ih =>
    obtain ⟨hb, hbytes⟩ := List.forall_mem_cons.mp h
    rw [List.length_cons, ← Nat.add_assoc, List.cons_append, readString,
      if_neg (mt eq_of_beq hb.1), if_neg (mt eq_of_beq hb.2.1), if_neg hb.2.2, ih hbytes,
      List.reverse_cons, List.append_assoc]
    rfl

/-- A written character is read as its bytes, with some of the fuel that it has bytes. -/
theorem readString_escape (c : Char) : ∃ spent ≤ (utf8 (escape c)).length,
    ∀ fuel collected s, readString (fuel + spent) collected none (utf8 (escape c) ++ s) =
      readString fuel ((String.utf8EncodeChar c).reverse ++ collected) none s := by
  by_cases h : c.toNat < 0x20 ∨ c = '"' ∨ c = '\\'
  · obtain ⟨e, hbytes, hescape⟩ := readEscape_escape h
    rw [hbytes]
    refine ⟨1, Nat.le_add_left 1 _, fun fuel collected s => ?_⟩
    rw [List.cons_append, readString, readEscape_append hescape s]
    rfl
  · rw [escape_of_plain h]
    exact ⟨_, Nat.le_refl _, fun fuel collected s =>
      readString_literal (literal_of_plain h) fuel collected s⟩

/-- The bytes that some characters are written as in a string. -/
def escaped (cs : List Char) : Bytes := cs.flatMap fun c => utf8 (escape c)

/-- The bytes between the quotes of a written string. -/
def keyBytes (s : String) : Bytes := escaped s.toList

theorem utf8_foldl_escape (cs : List Char) (text : String) :
    utf8 (cs.foldl (fun text c => text ++ escape c) text) = utf8 text ++ escaped cs := by
  induction cs generalizing text with
  | nil => exact (List.append_nil _).symm
  | cons c cs ih =>
    rw [List.foldl_cons, ih, utf8_append, List.append_assoc, escaped, escaped, List.flatMap_cons]

theorem utf8_quoted (s : String) : utf8 (quoted s) = quote :: (keyBytes s ++ [quote]) := by
  have hquote : utf8 "\"" = [quote] := rfl
  rw [quoted, utf8_append, utf8_append, hquote, String.foldl_eq_foldl_toList, utf8_foldl_escape]
  rfl

theorem readString_escaped (cs : List Char) {fuel : Nat} (enough : (escaped cs).length ≤ fuel)
    (collected : Bytes) :
    readString (fuel + 1) collected none (escaped cs ++ [quote]) =
      .ok (closeString ((cs.flatMap String.utf8EncodeChar).reverse ++ collected) none, []) := by
  induction cs generalizing fuel collected with
  | nil => rfl
  | cons c cs ih =>
    rw [escaped, List.flatMap_cons, List.length_append] at enough
    obtain ⟨spent, hspent, hstep⟩ := readString_escape c
    obtain ⟨left, rfl⟩ := Nat.exists_eq_add_of_le' (Nat.le_trans hspent (by omega : _ ≤ fuel))
    have hleft : (escaped cs).length ≤ left := by
      rw [escaped]
      omega
    rw [escaped, List.flatMap_cons, List.append_assoc, Nat.add_right_comm, hstep, ← escaped,
      ih hleft, List.flatMap_cons, List.reverse_append, List.append_assoc]

theorem readString_keyBytes (s : String) :
    readString ((keyBytes s).length + 1) [] none (keyBytes s ++ [quote]) = .ok (.ok s, []) := by
  rw [keyBytes, readString_escaped s.toList (Nat.le_refl _), List.append_nil, closeString,
    List.reverse_reverse, ← utf8_eq_flatMap, fromUTF8?_utf8]

end Strings

section Texts

/-- A document has a value wherever there is room for it. -/
def Doc.Holds (d : Doc) (v : Value) : Prop := ∀ room, d.depth ≤ room → d.content room = .ok v

/-- A text of a value: all of it is read, and what is read has that value, with the members in the
same order. -/
structure IsTextOf (text : String) (v : Value) : Prop where
  complete : (Document.ofString text).trailing = false
  holds : (Document.ofString text).root.Holds v

/-- Some bytes are a text of a value, with blanks around it. -/
def Spells (s : Bytes) (v : Value) : Prop := ∃ d, Reads s d ∧ d.Holds v

/-- Some bytes are a text of a member, with blanks around it. -/
def SpellsMember (s : Bytes) (m : String × Value) : Prop :=
  ∃ d, ReadsMember s (.ok m.1, d) ∧ d.Holds m.2

variable {s lead trail : Bytes} {v : Value}

theorem Spells.isTextOf {text : String} (h : Spells (utf8 text) v) : IsTextOf text v := by
  obtain ⟨d, hreads, hholds⟩ := h
  have hdocument : Document.ofString text = ⟨d, false⟩ := hreads.ofBytes
  exact ⟨by rw [hdocument], by rw [hdocument]; exact hholds⟩

theorem Spells.behind_blank (h : Spells s v) (blank : skipBlank lead = []) :
    Spells (lead ++ s) v := by
  obtain ⟨d, hreads, hholds⟩ := h
  exact ⟨d, hreads.behind_blank blank, hholds⟩

theorem Spells.append_blank (h : Spells s v) (blank : skipBlank trail = []) :
    Spells (s ++ trail) v := by
  obtain ⟨d, hreads, hholds⟩ := h
  exact ⟨d, (reads_append_blank_iff blank).mpr hreads, hholds⟩

theorem Spells.member (h : Spells s v) (key : String) (blank : skipBlank lead = []) :
    SpellsMember (lead ++ memberText (keyBytes key) s) (key, v) := by
  obtain ⟨d, hreads, hholds⟩ := h
  exact ⟨d, .intro blank (readString_keyBytes key) hreads, hholds⟩

theorem SpellsMember.append_blank {m : String × Value} (h : SpellsMember s m)
    (blank : skipBlank trail = []) : SpellsMember (s ++ trail) m := by
  obtain ⟨d, ⟨hlead, hkey, htext⟩, hholds⟩ := h
  refine ⟨d, ?_, hholds⟩
  simp only [memberText, List.append_assoc, List.cons_append]
  exact .intro hlead hkey ((reads_append_blank_iff blank).mpr htext)

theorem Spells.array {texts : List Bytes} {items : List Value}
    (h : List.Forall₂ Spells texts items) : Spells (arrayText texts) (.array items) := by
  obtain ⟨docs, hreads, hholds⟩ : ∃ docs, List.Forall₂ Reads texts docs ∧
      ∀ room, depthItems docs ≤ room → contentItems room docs = .ok items := by
    induction h with
    | nil => exact ⟨[], .nil, fun room _ => rfl⟩
    | cons head _ ih =>
      obtain ⟨d, hreads, hholds⟩ := head
      obtain ⟨docs, hrest, hcontent⟩ := ih
      refine ⟨d :: docs, .cons hreads hrest, fun room enough => ?_⟩
      rw [depthItems, Nat.max_le] at enough
      rw [contentItems, hholds room enough.1, hcontent room enough.2]
      rfl
  refine ⟨_, Reads.array hreads, fun room enough => ?_⟩
  obtain ⟨room, rfl⟩ := Nat.exists_eq_add_of_le' enough
  rw [Doc.depth, ← Nat.add_assoc, Doc.content, hholds _ (Nat.le_add_left _ _)]
  rfl

theorem Spells.object {texts : List Bytes} {members : List (String × Value)}
    (h : List.Forall₂ SpellsMember texts members) :
    Spells (objectText texts) (.object members) := by
  obtain ⟨docs, hreads, hholds⟩ : ∃ docs, List.Forall₂ ReadsMember texts docs ∧
      ∀ room, depthMembers docs ≤ room → contentMembers room docs = .ok members := by
    induction h with
    | nil => exact ⟨[], .nil, fun room _ => rfl⟩
    | @cons _ m _ _ head _ ih =>
      obtain ⟨d, hreads, hholds⟩ := head
      obtain ⟨docs, hrest, hcontent⟩ := ih
      refine ⟨(.ok m.1, d) :: docs, .cons hreads hrest, fun room enough => ?_⟩
      rw [depthMembers, Nat.max_le] at enough
      rw [contentMembers, hholds room enough.1, hcontent room enough.2]
      rfl
  refine ⟨_, Reads.object hreads, fun room enough => ?_⟩
  obtain ⟨room, rfl⟩ := Nat.exists_eq_add_of_le' enough
  rw [Doc.depth, ← Nat.add_assoc, Doc.content, hholds _ (Nat.le_add_left _ _)]
  rfl

/-- Texts of some elements, one after the other, with commas between them. -/
inductive Listed {β : Type} (spells : Bytes → β → Prop) : Bytes → List β → Prop where
  | last {s : Bytes} {b : β} (h : spells s b) : Listed spells s [b]
  | more {s rest : Bytes} {b : β} {bs : List β} (h : spells s b) (hrest : Listed spells rest bs) :
      Listed spells (s ++ comma :: rest) (b :: bs)

theorem Listed.exists_texts {β : Type} {spells : Bytes → β → Prop} {bs : List β}
    (h : Listed spells s bs) :
    ∃ text others, s = text ++ othersText others ∧ List.Forall₂ spells (text :: others) bs := by
  induction h with
  | last h => exact ⟨_, [], by simp [othersText], .cons h .nil⟩
  | @more s _ _ _ h _ ih =>
    obtain ⟨text, others, rfl, hall⟩ := ih
    exact ⟨s, text :: others, by simp [othersText], .cons h hall⟩

theorem Listed.append {β : Type} {spells : Bytes → β → Prop} {bs : List β}
    (h : Listed spells s bs) (closed : ∀ {s b}, spells s b → spells (s ++ trail) b) :
    Listed spells (s ++ trail) bs := by
  induction h with
  | last h => exact .last (closed h)
  | more h _ ih =>
    rw [List.append_assoc]
    exact .more h ih

theorem Listed.array {items : List Value} (h : Listed Spells s items) :
    Spells (openBracket :: (s ++ [closeBracket])) (.array items) := by
  obtain ⟨text, others, rfl, hall⟩ := h.exists_texts
  rw [List.append_assoc]
  exact Spells.array hall

theorem Listed.object {members : List (String × Value)} (h : Listed SpellsMember s members) :
    Spells (Byte.openBrace :: (s ++ [Byte.closeBrace])) (.object members) := by
  obtain ⟨text, others, rfl, hall⟩ := h.exists_texts
  rw [List.append_assoc]
  exact Spells.object hall

theorem spells_quoted (s : String) : Spells (utf8 (quoted s)) (.string s) := by
  refine ⟨.string (.ok s), ⟨[], ?_, rfl⟩, fun _ _ => rfl⟩
  have hmore := readString_append (readString_keyBytes s) (2 * (keyBytes s).length + 7) []
  rw [List.append_nil] at hmore
  rw [utf8_quoted]
  generalize hfuel : 3 * (quote :: (keyBytes s ++ [quote])).length + 3 = fuel
  rw [List.length_cons, List.length_append, List.length_singleton] at hfuel
  obtain rfl : (keyBytes s).length + 1 + (2 * (keyBytes s).length + 7) + 1 = fuel := by omega
  have hstring : readValue ((keyBytes s).length + 1 + (2 * (keyBytes s).length + 7) + 1)
      (quote :: (keyBytes s ++ [quote])) =
        Doc.ofText (readString ((keyBytes s).length + 1 + (2 * (keyBytes s).length + 7)) [] none
          (keyBytes s ++ [quote])) := rfl
  rw [hstring, hmore]
  rfl

end Texts

section Layouts

/-- A layout adds nothing but blanks. -/
structure Layout.Blank (layout : Layout) : Prop where
  line : ∀ level, skipBlank (utf8 (layout.line level)) = []
  gap : skipBlank (utf8 layout.gap) = []

theorem Layout.blank_compact : Layout.compact.Blank := ⟨fun _ => rfl, rfl⟩

theorem Layout.blank_pretty : Layout.pretty.Blank := by
  refine ⟨fun level => ?_, rfl⟩
  have hline : utf8 "\n" = [0x0A] := rfl
  rw [Layout.pretty, utf8_append, hline, utf8_eq_flatMap, String.toList_ofList,
    skipBlank_eq_nil_iff]
  intro b hb
  rcases List.mem_cons.mp hb with rfl | hb
  · rfl
  · obtain ⟨c, hc, hb⟩ := List.mem_flatMap.mp hb
    rw [List.eq_of_mem_replicate hc] at hb
    obtain rfl := List.mem_singleton.mp hb
    rfl

variable {layout : Layout}

theorem utf8_member (layout : Layout) (level : Nat) (key : String) (v : Value) :
    utf8 (layout.line level ++ quoted key ++ ":" ++ layout.gap ++ v.laid layout level) =
      utf8 (layout.line level) ++
        memberText (keyBytes key) (utf8 layout.gap ++ utf8 (v.laid layout level)) := by
  have hcolon : utf8 ":" = [colon] := rfl
  simp only [utf8_append, utf8_quoted, hcolon, memberText, List.append_assoc, List.cons_append,
    List.nil_append]

mutual

/-- A value without numbers reads back from any layout. -/
theorem Value.spells_laid (blank : layout.Blank) : ∀ (v : Value) (level : Nat), v.Plain →
    Spells (utf8 (v.laid layout level)) v
  | .null, _, _ => ⟨.null, ⟨[], rfl, rfl⟩, fun _ _ => rfl⟩
  | .bool true, _, _ => ⟨.bool true, ⟨[], rfl, rfl⟩, fun _ _ => rfl⟩
  | .bool false, _, _ => ⟨.bool false, ⟨[], rfl, rfl⟩, fun _ _ => rfl⟩
  | .string s, _, _ => spells_quoted s
  | .array [], _, _ => Spells.array .nil
  | .array (v :: rest), level, plain => by
    rw [Value.Plain] at plain
    have hlisted := (listed_laidItems blank (v :: rest) (level + 1) plain (by simp)).append
      fun h => h.append_blank (blank.line level)
    have htext : utf8 ((Value.array (v :: rest)).laid layout level) =
        openBracket :: (utf8 (laidItems layout (level + 1) (v :: rest)) ++
          utf8 (layout.line level) ++ [closeBracket]) := by
      rw [Value.laid, utf8_append, utf8_append, utf8_append]
      · rfl
      · nofun
    rw [htext]
    exact hlisted.array
  | .object [], _, _ => Spells.object .nil
  | .object (m :: rest), level, plain => by
    rw [Value.Plain] at plain
    have hlisted := (listed_laidMembers blank (m :: rest) (level + 1) plain.2 (by simp)).append
      fun h => h.append_blank (blank.line level)
    have htext : utf8 ((Value.object (m :: rest)).laid layout level) =
        Byte.openBrace :: (utf8 (laidMembers layout (level + 1) (m :: rest)) ++
          utf8 (layout.line level) ++ [Byte.closeBrace]) := by
      rw [Value.laid, utf8_append, utf8_append, utf8_append]
      · rfl
      · nofun
    rw [htext]
    exact hlisted.object

theorem listed_laidItems (blank : layout.Blank) : ∀ (items : List Value) (level : Nat),
    PlainItems items → items ≠ [] → Listed Spells (utf8 (laidItems layout level items)) items
  | [], _, _, ne => absurd rfl ne
  | [v], level, plain, _ => by
    rw [laidItems, utf8_append]
    exact .last ((Value.spells_laid blank v level plain.1).behind_blank (blank.line level))
  | v :: w :: rest, level, plain, _ => by
    have hcomma : utf8 "," = [comma] := rfl
    rw [laidItems, utf8_append, utf8_append, utf8_append, hcomma, List.append_assoc _ [comma]]
    · exact .more ((Value.spells_laid blank v level plain.1).behind_blank (blank.line level))
        (listed_laidItems blank (w :: rest) level plain.2 (by simp))
    · nofun

theorem listed_laidMembers (blank : layout.Blank) :
    ∀ (members : List (String × Value)) (level : Nat), PlainMembers members → members ≠ [] →
      Listed SpellsMember (utf8 (laidMembers layout level members)) members
  | [], _, _, ne => absurd rfl ne
  | [(key, v)], level, plain, _ => by
    rw [laidMembers, utf8_member]
    exact .last (((Value.spells_laid blank v level plain.1).behind_blank blank.gap).member key
      (blank.line level))
  | (key, v) :: m :: rest, level, plain, _ => by
    have hcomma : utf8 "," = [comma] := rfl
    rw [laidMembers, utf8_append, utf8_append, utf8_member, hcomma, List.append_assoc _ [comma]]
    · exact .more (((Value.spells_laid blank v level plain.1).behind_blank blank.gap).member key
        (blank.line level)) (listed_laidMembers blank (m :: rest) level plain.2 (by simp))
    · nofun

end

theorem isTextOf_laid (blank : layout.Blank) {v : Value} (plain : v.Plain) (level : Nat) :
    IsTextOf (v.laid layout level) v := (Value.spells_laid blank v level plain).isTextOf

end Layouts

end ProgramSearch.Json
