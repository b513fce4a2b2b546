import Mathlib.Data.List.TakeWhile
import ProgramSearch.Proofs.Json.Fuel
import ProgramSearch.Proofs.Json.Texts

/-!
# Blanks behind a text

Blanks behind a value do not help to read it: whatever can be read with them can be read without.
Hence a text with blanks behind it reads like the text.
-/
namespace ProgramSearch.Json

open Byte

theorem skipBlank_eq_nil_iff {s : Bytes} : skipBlank s = [] ↔ ∀ b ∈ s, isBlank b = true := by
  rw [skipBlank, List.dropWhile_eq_nil_iff]

theorem isBlank_iff {b : UInt8} :
    isBlank b = true ↔ b = 0x20 ∨ b = 0x09 ∨ b = 0x0A ∨ b = 0x0D := by
  simp [isBlank, or_assoc]

/-- Blanks are none of the bytes that values are made of. -/
theorem hexDigit?_of_blank {b : UInt8} (h : isBlank b = true) : hexDigit? b = none := by
  rcases isBlank_iff.mp h with rfl | rfl | rfl | rfl <;> rfl

section Scanners

variable {s rest tail : Bytes} (blank : skipBlank tail = [])
include blank

theorem ends_of_blank : Ends tail := by
  cases tail with
  | nil => trivial
  | cons b tail =>
    have hb := skipBlank_eq_nil_iff.mp blank b List.mem_cons_self
    rcases isBlank_iff.mp hb with rfl | rfl | rfl | rfl <;>
      exact ⟨by decide, by decide, by decide, by decide⟩

theorem quote_not_mem_of_blank : quote ∉ tail := by
  intro hquote
  have hblank := skipBlank_eq_nil_iff.mp blank quote hquote
  contradiction

theorem append_ne_of_blank {b : UInt8} (plain : isBlank b = false)
    (h : ∀ s', s = b :: s' → False) : ∀ s', s ++ tail = b :: s' → False := by
  intro s' heq
  cases s with
  | nil =>
    rw [List.nil_append] at heq
    have hblank := skipBlank_eq_nil_iff.mp blank b (heq ▸ List.mem_cons_self)
    rw [plain] at hblank
    contradiction
  | cons c s => exact h s (by rw [(List.cons.inj heq).1])

theorem readWord_of_blank {word : Bytes} (plain : word.all (!isBlank ·) = true)
    (h : readWord word (s ++ tail) = .ok rest) : ∃ left, readWord word s = .ok left := by
  fun_induction readWord word s with
  | case1 s => exact ⟨s, rfl⟩
  | case2 w ws =>
    cases tail with
    | nil => contradiction
    | cons b tail =>
      have hb := skipBlank_eq_nil_iff.mp blank b List.mem_cons_self
      rw [List.nil_append, readWord] at h
      split at h
      · rename_i heq
        obtain rfl : w = b := by simpa using heq
        rw [List.all_cons, hb] at plain
        contradiction
      · contradiction
  | case3 w ws b s same ih =>
    rw [List.cons_append, readWord, if_pos same] at h
    rw [List.all_cons, Bool.and_eq_true] at plain
    exact ih plain.2 h
  | case4 w ws b s differ =>
    rw [List.cons_append, readWord, if_neg differ] at h
    contradiction

theorem readDigits_of_blank {ds : List Nat} (h : readDigits (s ++ tail) = .ok (ds, rest)) :
    ∃ left, readDigits s = .ok (ds, left) := by
  rw [readDigits, takeDigits_append s fun _ => ends_of_blank blank] at h
  rw [readDigits]
  rcases htaken : takeDigits s with ⟨_ | ⟨d, taken⟩, left⟩
  · rw [htaken] at h
    dsimp only at h
    generalize left ++ tail = behind at h
    cases behind <;> contradiction
  · rw [htaken] at h
    rw [← (Prod.mk.inj (Except.ok.inj h)).1]
    exact ⟨left, rfl⟩

theorem readWhole_of_blank {ds : List Nat} (h : readWhole (s ++ tail) = .ok (ds, rest)) :
    ∃ left, readWhole s = .ok (ds, left) := by
  obtain ⟨⟨taken, behind⟩, htaken, h⟩ := bind_ok h
  obtain ⟨left, hleft⟩ := readDigits_of_blank blank htaken
  rw [readWhole, hleft, ok_bind]
  split at h
  · contradiction
  · rename_i hzero heq
    obtain ⟨rfl, rfl⟩ := Prod.mk.inj heq
    obtain ⟨rfl, rfl⟩ := Prod.mk.inj (Except.ok.inj h)
    refine ⟨left, ?_⟩
    split <;> simp_all

theorem readFraction_of_blank {ds : Option (List Nat)}
    (h : readFraction (s ++ tail) = .ok (ds, rest)) : ∃ left, readFraction s = .ok (ds, left) := by
  fun_cases readFraction s with
  | case1 s =>
    rw [List.cons_append, readFraction] at h
    obtain ⟨⟨taken, behind⟩, htaken, h⟩ := bind_ok h
    obtain ⟨left, hleft⟩ := readDigits_of_blank blank htaken
    obtain ⟨rfl, rfl⟩ := Prod.mk.inj (Except.ok.inj h)
    rw [hleft]
    exact ⟨left, rfl⟩
  | case2 =>
    rename_i hpoint
    have hnone : readFraction (s ++ tail) = .ok (none, s ++ tail) :=
      readFraction_append (readFraction.eq_2 s hpoint) fun _ => ends_of_blank blank
    rw [hnone] at h
    obtain ⟨rfl, rfl⟩ := Prod.mk.inj (Except.ok.inj h)
    exact ⟨s, rfl⟩

theorem readScale_of_blank {e : Option (Bool × List Nat)}
    (h : readScale (s ++ tail) = .ok (e, rest)) : ∃ left, readScale s = .ok (e, left) := by
  fun_cases readScale s with
  | case3 =>
    rename_i hminus hplus
    rw [readScale.eq_3 _ (append_ne_of_blank blank rfl hminus)
      (append_ne_of_blank blank rfl hplus)] at h
    obtain ⟨⟨taken, behind⟩, htaken, h⟩ := bind_ok h
    obtain ⟨left, hleft⟩ := readDigits_of_blank blank htaken
    obtain ⟨rfl, rfl⟩ := Prod.mk.inj (Except.ok.inj h)
    rw [hleft]
    exact ⟨left, rfl⟩
  | _ s =>
    rw [List.cons_append, readScale] at h
    obtain ⟨⟨taken, behind⟩, htaken, h⟩ := bind_ok h
    obtain ⟨left, hleft⟩ := readDigits_of_blank blank htaken
    obtain ⟨rfl, rfl⟩ := Prod.mk.inj (Except.ok.inj h)
    rw [hleft]
    exact ⟨left, rfl⟩

theorem readExponent_of_blank {e : Option (Bool × List Nat)}
    (h : readExponent (s ++ tail) = .ok (e, rest)) : ∃ left, readExponent s = .ok (e, left) := by
  fun_cases readExponent s with
  | case3 =>
    rename_i hlarge hsmall
    have hnone : readExponent (s ++ tail) = .ok (none, s ++ tail) :=
      readExponent_append (readExponent.eq_3 s hlarge hsmall) fun _ => ends_of_blank blank
    rw [hnone] at h
    obtain ⟨rfl, rfl⟩ := Prod.mk.inj (Except.ok.inj h)
    exact ⟨s, rfl⟩
  | _ s =>
    rw [List.cons_append, readExponent] at h
    exact readScale_of_blank blank h

theorem readNumeral_of_blank {negative : Bool} {n : Numeral}
    (h : readNumeral negative (s ++ tail) = .ok (n, rest)) :
    ∃ left, readNumeral negative s = .ok (n, left) := by
  have ends {left : Bytes} : left = [] → Ends tail := fun _ => ends_of_blank blank
  obtain ⟨⟨whole, s₁⟩, hwhole, h⟩ := bind_ok h
  obtain ⟨left₁, hleft₁⟩ := readWhole_of_blank blank hwhole
  rw [readWhole_append hleft₁ ends] at hwhole
  obtain ⟨-, rfl⟩ := Prod.mk.inj (Except.ok.inj hwhole)
  obtain ⟨⟨fraction, s₂⟩, hfraction, h⟩ := bind_ok h
  obtain ⟨left₂, hleft₂⟩ := readFraction_of_blank blank hfraction
  rw [readFraction_append hleft₂ ends] at hfraction
  obtain ⟨-, rfl⟩ := Prod.mk.inj (Except.ok.inj hfraction)
  obtain ⟨⟨exponent, s₃⟩, hexponent, h⟩ := bind_ok h
  obtain ⟨left₃, hleft₃⟩ := readExponent_of_blank blank hexponent
  obtain ⟨rfl, -⟩ := Prod.mk.inj (Except.ok.inj h)
  refine ⟨left₃, ?_⟩
  simp only [readNumeral, hleft₁, hleft₂, hleft₃, ok_bind]
  rfl

theorem readHex4_of_blank {n : Nat} (h : readHex4 (s ++ tail) = .ok (n, rest)) :
    ∃ left, readHex4 s = .ok (n, left) := by
  obtain ⟨digits, hsplit, hdigits, hread⟩ := exists_digits_of_readHex4 h
  rcases List.append_eq_append_iff.mp hsplit with ⟨more, rfl, rfl⟩ | ⟨left, rfl, -⟩
  · -- Digits that reach into the blanks would be blanks.
    obtain rfl : more = [] := by
      refine List.eq_nil_iff_forall_not_mem.mpr fun b hb => ?_
      have hblank := skipBlank_eq_nil_iff.mp blank b (List.mem_append_left rest hb)
      exact hdigits b (List.mem_append_right s hb) (hexDigit?_of_blank hblank)
    have hs := hread []
    rw [List.append_nil, List.append_nil] at hs
    exact ⟨[], hs⟩
  · exact ⟨left, hread left⟩

/-- Where an escape needs blanks, nothing but blanks and a backslash follows it. -/
theorem readTrailing_of_blank {n : Nat} {e : Escape} (h : readTrailing n (s ++ tail) = .ok e) :
    (∃ e', readTrailing n s = .ok e') ∨ quote ∉ e.rest := by
  fun_cases readTrailing n s with
  | case1 =>
    right
    exact fun hmem => quote_not_mem_of_blank blank ((suffix_of_readTrailing h).subset hmem)
  | case2 =>
    right
    intro hmem
    rcases List.mem_cons.mp ((suffix_of_readTrailing h).subset hmem) with heq | htail
    · contradiction
    · exact quote_not_mem_of_blank blank htail
  | case3 s =>
    rw [List.cons_append, List.cons_append, readTrailing] at h
    obtain ⟨⟨m, left⟩, hm, -⟩ := bind_ok h
    obtain ⟨left, hleft⟩ := readHex4_of_blank blank hm
    left
    rw [hleft, ok_bind]
    dsimp only
    split_ifs <;> exact ⟨_, rfl⟩
  | case4 => exact .inl ⟨_, rfl⟩

theorem readUnicode_of_blank {e : Escape} (h : readUnicode (s ++ tail) = .ok e) :
    (∃ e', readUnicode s = .ok e') ∨ quote ∉ e.rest := by
  obtain ⟨⟨n, behind⟩, hn, h⟩ := bind_ok h
  obtain ⟨left, hleft⟩ := readHex4_of_blank blank hn
  rw [readHex4_append hleft tail] at hn
  obtain ⟨-, rfl⟩ := Prod.mk.inj (Except.ok.inj hn)
  rw [readUnicode, hleft, ok_bind]
  dsimp only at h ⊢
  split_ifs at h ⊢
  · exact .inl ⟨_, rfl⟩
  · exact readTrailing_of_blank blank h
  · exact .inl ⟨_, rfl⟩

theorem readEscape_of_blank {e : Escape} (h : readEscape (s ++ tail) = .ok e) :
    (∃ e', readEscape s = .ok e') ∨ quote ∉ e.rest := by
  fun_cases readEscape s with
  | case1 =>
    right
    exact fun hmem => quote_not_mem_of_blank blank ((suffix_of_readEscape h).subset hmem)
  | case10 s => exact readUnicode_of_blank blank h
  | case11 => cases s <;> simp_all [readEscape]
  | _ s => exact .inl ⟨_, rfl⟩

omit blank in
/-- A string needs its closing quote. -/
theorem quote_mem_of_readString {fuel : Nat} {collected : Bytes} {soft : Option Fault}
    {text : Except Fault String} (h : readString fuel collected soft s = .ok (text, rest)) :
    quote ∈ s := by
  fun_induction readString fuel collected soft s with
  | case3 fuel collected soft b s isQuote =>
    rw [beq_iff_eq] at isQuote
    exact isQuote ▸ List.mem_cons_self
  | case4 fuel collected soft b s noQuote isEscape e hescape ih =>
    exact List.mem_cons_of_mem b ((suffix_of_readEscape hescape).subset (ih h))
  | case7 fuel collected soft b s noQuote noEscape isPlain ih =>
    exact List.mem_cons_of_mem b (ih h)
  | _ => contradiction

theorem readString_of_blank {fuel : Nat} {collected : Bytes} {soft : Option Fault}
    {text : Except Fault String}
    (h : readString fuel collected soft (s ++ tail) = .ok (text, rest)) :
    ∃ left, readString fuel collected soft s = .ok (text, left) := by
  fun_induction readString fuel collected soft s with
  | case1 => contradiction
  | case2 => exact absurd (quote_mem_of_readString h) (quote_not_mem_of_blank blank)
  | case3 fuel collected soft b s isQuote =>
    rw [List.cons_append, readString, if_pos isQuote] at h
    rw [(Prod.mk.inj (Except.ok.inj h)).1]
    exact ⟨s, rfl⟩
  | case4 fuel collected soft b s noQuote isEscape e hescape ih =>
    rw [List.cons_append, readString, if_neg noQuote, if_pos isEscape,
      readEscape_append hescape] at h
    exact ih h
  | case5 fuel collected soft b s noQuote isEscape fault hescape =>
    rw [List.cons_append, readString, if_neg noQuote, if_pos isEscape] at h
    cases happend : readEscape (s ++ tail) with
    | error fault =>
      rw [happend] at h
      contradiction
    | ok e =>
      rw [happend] at h
      rcases readEscape_of_blank blank happend with ⟨e', he'⟩ | hquote
      · rw [hescape] at he'
        contradiction
      · exact absurd (quote_mem_of_readString h) hquote
  | case6 fuel collected soft b s noQuote noEscape control =>
    rw [List.cons_append, readString, if_neg noQuote, if_neg noEscape, if_pos control] at h
    contradiction
  | case7 fuel collected soft b s noQuote noEscape isPlain ih =>
    rw [List.cons_append, readString, if_neg noQuote, if_neg noEscape, if_neg isPlain] at h
    exact ih h

end Scanners

/-- What reading gets through with `tail` behind the text, it gets through without. -/
structure Unaided (tail : Bytes) (fuel : Nat) : Prop where
  value : ∀ {s}, (readValue fuel (s ++ tail)).2.isSome = true → (readValue fuel s).2.isSome = true
  items : ∀ {first s}, (readItems fuel first (s ++ tail)).2.2.isSome = true →
    (readItems fuel first s).2.2.isSome = true
  item : ∀ {s}, (readItem fuel (s ++ tail)).2.2.isSome = true →
    (readItem fuel s).2.2.isSome = true
  members : ∀ {first s}, (readMembers fuel first (s ++ tail)).2.2.isSome = true →
    (readMembers fuel first s).2.2.isSome = true
  member : ∀ {s}, (readMember fuel (s ++ tail)).2.2.isSome = true →
    (readMember fuel s).2.2.isSome = true

section Unaided

variable {fuel : Nat} {s tail : Bytes} (blank : skipBlank tail = [])
include blank

theorem isSome_ofText_of_blank {collected : Bytes} {soft : Option Fault}
    (h : (Doc.ofText (readString fuel collected soft (s ++ tail))).2.isSome = true) :
    (Doc.ofText (readString fuel collected soft s)).2.isSome = true := by
  cases htext : readString fuel collected soft (s ++ tail) with
  | error damage =>
    rw [htext] at h
    contradiction
  | ok read =>
    obtain ⟨left, hleft⟩ := readString_of_blank blank htext
    rw [hleft]
    rfl

theorem isSome_ofWord_of_blank {d : Doc} {word : Bytes} (plain : word.all (!isBlank ·) = true)
    (h : (Doc.ofWord d (readWord word (s ++ tail))).2.isSome = true) :
    (Doc.ofWord d (readWord word s)).2.isSome = true := by
  cases hword : readWord word (s ++ tail) with
  | error fault =>
    rw [hword] at h
    contradiction
  | ok read =>
    obtain ⟨left, hleft⟩ := readWord_of_blank blank plain hword
    rw [hleft]
    rfl

theorem isSome_ofNumeral_of_blank {negative : Bool}
    (h : (Doc.ofNumeral (readNumeral negative (s ++ tail))).2.isSome = true) :
    (Doc.ofNumeral (readNumeral negative s)).2.isSome = true := by
  cases hnumeral : readNumeral negative (s ++ tail) with
  | error fault =>
    rw [hnumeral] at h
    contradiction
  | ok read =>
    obtain ⟨left, hleft⟩ := readNumeral_of_blank blank hnumeral
    rw [hleft]
    rfl

theorem Unaided.value_step (ih : Unaided tail fuel)
    (h : (readValue (fuel + 1) (s ++ tail)).2.isSome = true) :
    (readValue (fuel + 1) s).2.isSome = true := by
  rw [← List.append_nil s]
  cases valueStep s with
  | stop damage hstop =>
    rw [hstop fuel tail blank] at h
    contradiction
  | array rest _ hrest =>
    rw [hrest] at h
    rw [hrest, List.append_nil]
    exact ih.items h
  | object rest _ hrest =>
    rw [hrest] at h
    rw [hrest, List.append_nil]
    exact ih.members h
  | text rest _ hrest =>
    rw [hrest] at h
    rw [hrest, List.append_nil]
    exact isSome_ofText_of_blank blank h
  | word d word rest plain _ hrest =>
    rw [hrest] at h
    rw [hrest, List.append_nil]
    exact isSome_ofWord_of_blank blank plain h
  | numeral negative rest _ hrest =>
    rw [hrest] at h
    rw [hrest, List.append_nil]
    exact isSome_ofNumeral_of_blank blank h

theorem Unaided.items_step (ih : Unaided tail fuel) {first : Bool}
    (h : (readItems (fuel + 1) first (s ++ tail)).2.2.isSome = true) :
    (readItems (fuel + 1) first s).2.2.isSome = true := by
  rw [← List.append_nil s]
  cases itemsStep first s with
  | stop damage hstop =>
    rw [hstop fuel tail blank] at h
    contradiction
  | close rest _ hrest =>
    rw [hrest]
    rfl
  | item rest _ hrest =>
    rw [hrest] at h
    rw [hrest, List.append_nil]
    exact ih.item h

theorem Unaided.exists_left (ih : Unaided tail fuel)
    (h : (readValue fuel (s ++ tail)).2.isSome = true) :
    ∃ d left, readValue fuel s = (d, some left) ∧
      readValue fuel (s ++ tail) = (d, some (left ++ tail)) := by
  have hsome := ih.value h
  rcases hread : readValue fuel s with ⟨d, _ | left⟩
  · rw [hread] at hsome
    contradiction
  · have happend := (undisturbed tail 0 fuel).value hread (.of_ends (ends_of_blank blank))
    exact ⟨d, left, rfl, happend⟩

theorem Unaided.item_step (ih : Unaided tail fuel)
    (h : (readItem (fuel + 1) (s ++ tail)).2.2.isSome = true) :
    (readItem (fuel + 1) s).2.2.isSome = true := by
  rw [readItem] at h ⊢
  cases hsome : (readValue fuel (s ++ tail)).2.isSome with
  | false =>
    rcases happend : readValue fuel (s ++ tail) with ⟨item, _ | rest⟩ <;>
      rw [happend] at h hsome <;> contradiction
  | true =>
    obtain ⟨item, left, hread, happend⟩ := ih.exists_left blank hsome
    rw [happend] at h
    rw [hread]
    exact ih.items h

theorem Unaided.member_step (ih : Unaided tail fuel)
    (h : (readMember (fuel + 1) (s ++ tail)).2.2.isSome = true) :
    (readMember (fuel + 1) s).2.2.isSome = true := by
  cases happend : readString fuel [] none (s ++ tail) with
  | error damage =>
    rw [readMember_of_error happend] at h
    contradiction
  | ok read =>
    obtain ⟨key, behind⟩ := read
    obtain ⟨left, hkey⟩ := readString_of_blank blank happend
    have hkey' : readString fuel [] none (s ++ tail) = .ok (key, left ++ tail) :=
      readString_append hkey 0 tail
    cases colonStep left with
    | stop damage hstop =>
      rw [hstop fuel _ key tail blank hkey'] at h
      contradiction
    | colon rest _ hcolon =>
      have hrest := hcolon []
      rw [List.append_nil, List.append_nil] at hrest
      rw [readMember_colon hkey' (hcolon tail)] at h
      rw [readMember_colon hkey hrest]
      cases hsome : (readValue fuel (rest ++ tail)).2.isSome with
      | false =>
        rcases happend : readValue fuel (rest ++ tail) with ⟨v, _ | left⟩ <;>
          rw [happend] at h hsome <;> contradiction
      | true =>
        obtain ⟨v, left, hread, happend⟩ := ih.exists_left blank hsome
        rw [happend] at h
        rw [hread]
        exact ih.members h

theorem Unaided.members_step (ih : Unaided tail fuel) {first : Bool}
    (h : (readMembers (fuel + 1) first (s ++ tail)).2.2.isSome = true) :
    (readMembers (fuel + 1) first s).2.2.isSome = true := by
  rw [← List.append_nil s]
  cases membersStep first s with
  | stop damage hstop =>
    rw [hstop fuel tail blank] at h
    contradiction
  | close rest _ hrest =>
    rw [hrest]
    rfl
  | member rest _ hrest =>
    rw [hrest] at h
    rw [hrest, List.append_nil]
    exact ih.member h

theorem unaided_of_blank (fuel : Nat) : Unaided tail fuel := by
  induction fuel with
  | zero => constructor <;> nofun
  | succ fuel ih =>
    exact ⟨ih.value_step blank, ih.items_step blank, ih.item_step blank, ih.members_step blank,
      ih.member_step blank⟩

/-- A text reads alike with blanks behind it. -/
theorem reads_append_blank_iff {d : Doc} : Reads (s ++ tail) d ↔ Reads s d := by
  have hlength : (s ++ tail).length = s.length + tail.length := List.length_append
  constructor
  · rintro ⟨rest, hread, hrest⟩
    obtain ⟨d', left, hleft, happend⟩ :=
      (unaided_of_blank blank _).exists_left blank (by rw [hread]; rfl)
    rw [happend] at hread
    cases hread
    refine ⟨left, ?_, ?_⟩
    · exact (readValue_of_enough (by omega) (by omega)).trans hleft
    · rw [skipBlank_eq_nil_iff] at hrest ⊢
      exact fun b hb => hrest b (List.mem_append_left tail hb)
  · intro h
    have enough : 3 * s.length + 3 ≤ 3 * (s ++ tail).length + 3 := by omega
    obtain ⟨rest, hread, hrest⟩ := h.append (ends_of_blank blank) enough
    exact ⟨rest ++ tail, hread, by rw [skipBlank_append_of_blank hrest, blank]⟩

end Unaided

end ProgramSearch.Json
