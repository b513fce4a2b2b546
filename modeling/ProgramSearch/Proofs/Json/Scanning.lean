import Mathlib.Tactic.SplitIfs
import ProgramSearch.Json.Document
import ProgramSearch.Proofs.Results

/-!
# What follows a word, a numeral or a string

A literal word, a numeral or a string that was read is read in the same way when more bytes follow,
unless they would continue a numeral which ends where the text does, and when there is more fuel.
-/
namespace ProgramSearch.Json

open Byte

/-- Bytes that do not continue a numeral. -/
def Ends : Bytes → Prop
  | [] => True
  | b :: _ => isDigit b = false ∧ b ≠ point ∧ b ≠ letterE ∧ b ≠ letterSmallE

section Scanners

variable {s rest tail : Bytes}

theorem skipBlank_append {b : UInt8} (h : skipBlank s = b :: rest) (tail : Bytes) :
    skipBlank (s ++ tail) = b :: (rest ++ tail) := by
  rw [skipBlank, List.dropWhile_append, ← skipBlank, h]
  rfl

theorem readWord_append {word : Bytes} (h : readWord word s = .ok rest) (tail : Bytes) :
    readWord word (s ++ tail) = .ok (rest ++ tail) := by
  fun_induction readWord word s with
  | case1 => rw [readWord, ← Except.ok.inj h]
  | case2 => contradiction
  | case3 w ws b s same ih => rw [List.cons_append, readWord, if_pos same, ih h]
  | case4 => contradiction

theorem cons_append_ne {b c : UInt8} (h : ∀ s', b :: s = c :: s' → False) (tail : Bytes) :
    ∀ s', b :: s ++ tail = c :: s' → False :=
  fun _ heq => h s (by rw [(List.cons.inj heq).1])

theorem takeDigits_append (s : Bytes) (ends : (takeDigits s).2 = [] → Ends tail) :
    takeDigits (s ++ tail) = ((takeDigits s).1, (takeDigits s).2 ++ tail) := by
  induction s with
  | nil =>
    cases tail with
    | nil => rfl
    | cons b tail => simp [takeDigits, (ends rfl).1]
  | cons b s ih =>
    simp only [takeDigits, Prod.mk.injEq] at ih ends
    cases hdigit : isDigit b <;> simp_all [takeDigits]

theorem readDigits_append {ds : List Nat} (h : readDigits s = .ok (ds, rest))
    (ends : rest = [] → Ends tail) : readDigits (s ++ tail) = .ok (ds, rest ++ tail) := by
  rw [readDigits] at h ⊢
  cases hds : takeDigits s with
  | mk taken left =>
    rw [hds] at h
    cases taken with
    | nil => cases left <;> contradiction
    | cons d taken =>
      obtain ⟨rfl, rfl⟩ := Prod.mk.inj (Except.ok.inj h)
      rw [takeDigits_append s (by rw [hds]; exact ends), hds]

theorem readWhole_append {ds : List Nat} (h : readWhole s = .ok (ds, rest))
    (ends : rest = [] → Ends tail) : readWhole (s ++ tail) = .ok (ds, rest ++ tail) := by
  rw [readWhole] at h ⊢
  obtain ⟨⟨taken, left⟩, htaken, h⟩ := bind_ok h
  split at h
  · contradiction
  · rename_i hzero heq
    obtain ⟨rfl, rfl⟩ := Prod.mk.inj heq
    obtain ⟨rfl, rfl⟩ := Prod.mk.inj (Except.ok.inj h)
    rw [readDigits_append htaken ends, ok_bind]
    split <;> simp_all

theorem readFraction_append {ds : Option (List Nat)} (h : readFraction s = .ok (ds, rest))
    (ends : rest = [] → Ends tail) : readFraction (s ++ tail) = .ok (ds, rest ++ tail) := by
  fun_cases readFraction s with
  | case1 s =>
    obtain ⟨⟨taken, left⟩, htaken, h⟩ := bind_ok h
    obtain ⟨rfl, rfl⟩ := Prod.mk.inj (Except.ok.inj h)
    rw [List.cons_append, readFraction, readDigits_append htaken ends, ok_bind]
  | case2 =>
    rename_i hpoint
    rw [readFraction.eq_2 s hpoint] at h
    obtain ⟨rfl, rfl⟩ := Prod.mk.inj (Except.ok.inj h)
    cases s with
    | nil =>
      rw [List.nil_append, readFraction.eq_2]
      rintro s' rfl
      exact (ends rfl).2.1 rfl
    | cons b s =>
      rw [readFraction.eq_2]
      exact cons_append_ne hpoint tail

theorem readScale_append {e : Option (Bool × List Nat)} (h : readScale s = .ok (e, rest))
    (ends : rest = [] → Ends tail) : readScale (s ++ tail) = .ok (e, rest ++ tail) := by
  fun_cases readScale s with
  | case1 s =>
    obtain ⟨⟨taken, left⟩, htaken, h⟩ := bind_ok h
    obtain ⟨rfl, rfl⟩ := Prod.mk.inj (Except.ok.inj h)
    rw [List.cons_append, readScale, readDigits_append htaken ends, ok_bind]
  | case2 s =>
    obtain ⟨⟨taken, left⟩, htaken, h⟩ := bind_ok h
    obtain ⟨rfl, rfl⟩ := Prod.mk.inj (Except.ok.inj h)
    rw [List.cons_append, readScale, readDigits_append htaken ends, ok_bind]
  | case3 =>
    rename_i hminus hplus
    rw [readScale.eq_3 s hminus hplus] at h
    obtain ⟨⟨taken, left⟩, htaken, h⟩ := bind_ok h
    obtain ⟨rfl, rfl⟩ := Prod.mk.inj (Except.ok.inj h)
    cases s with
    | nil => contradiction
    | cons b s =>
      rw [readScale.eq_3, readDigits_append htaken ends, ok_bind]
      · exact cons_append_ne hminus tail
      · exact cons_append_ne hplus tail

theorem readExponent_append {e : Option (Bool × List Nat)} (h : readExponent s = .ok (e, rest))
    (ends : rest = [] → Ends tail) : readExponent (s ++ tail) = .ok (e, rest ++ tail) := by
  fun_cases readExponent s with
  | case1 s =>
    rw [List.cons_append, readExponent]
    exact readScale_append h ends
  | case2 s =>
    rw [List.cons_append, readExponent]
    exact readScale_append h ends
  | case3 =>
    rename_i hlarge hsmall
    rw [readExponent.eq_3 s hlarge hsmall] at h
    obtain ⟨rfl, rfl⟩ := Prod.mk.inj (Except.ok.inj h)
    cases s with
    | nil =>
      rw [List.nil_append, readExponent.eq_3]
      · rintro s' rfl
        exact (ends rfl).2.2.1 rfl
      · rintro s' rfl
        exact (ends rfl).2.2.2 rfl
    | cons b s =>
      rw [readExponent.eq_3]
      · exact cons_append_ne hlarge tail
      · exact cons_append_ne hsmall tail

theorem readNumeral_append {negative : Bool} {n : Numeral}
    (h : readNumeral negative s = .ok (n, rest)) (ends : rest = [] → Ends tail) :
    readNumeral negative (s ++ tail) = .ok (n, rest ++ tail) := by
  rw [readNumeral] at h ⊢
  obtain ⟨⟨whole, s₁⟩, hwhole, h⟩ := bind_ok h
  obtain ⟨⟨fraction, s₂⟩, hfraction, h⟩ := bind_ok h
  obtain ⟨⟨exponent, s₃⟩, hexponent, h⟩ := bind_ok h
  obtain ⟨rfl, rfl⟩ := Prod.mk.inj (Except.ok.inj h)
  -- Where one part ends with the text, so do those behind it, which are then empty.
  have ends₂ : s₂ = [] → Ends tail := by
    rintro rfl
    exact ends (Prod.mk.inj (Except.ok.inj hexponent)).2.symm
  have ends₁ : s₁ = [] → Ends tail := by
    rintro rfl
    exact ends₂ (Prod.mk.inj (Except.ok.inj hfraction)).2.symm
  simp only [readWhole_append hwhole ends₁, readFraction_append hfraction ends₂,
    readExponent_append hexponent ends, ok_bind]
  rfl

/-- The four digits of an escape, which are read alike whatever follows. -/
theorem exists_digits_of_readHex4 {n : Nat} (h : readHex4 s = .ok (n, rest)) :
    ∃ digits, s = digits ++ rest ∧ (∀ b ∈ digits, hexDigit? b ≠ none) ∧
      ∀ tail, readHex4 (digits ++ tail) = .ok (n, tail) := by
  fun_cases readHex4 s with
  | case1 a b c d s a' b' c' d' ha hb hc hd =>
    simp only [readHex4, ha, hb, hc, hd] at h
    obtain ⟨rfl, rfl⟩ := Prod.mk.inj (Except.ok.inj h)
    exact ⟨[a, b, c, d], rfl, by simp [ha, hb, hc, hd], by simp [readHex4, ha, hb, hc, hd]⟩
  | case2 a b c d s hdigits => simp_all [readHex4]
  | case3 hshort => simp_all [readHex4]

theorem readHex4_append {n : Nat} (h : readHex4 s = .ok (n, rest)) (tail : Bytes) :
    readHex4 (s ++ tail) = .ok (n, rest ++ tail) := by
  obtain ⟨digits, rfl, -, hread⟩ := exists_digits_of_readHex4 h
  rw [List.append_assoc, hread]

/-- An escape with more bytes behind it. -/
def Escape.extend (e : Escape) (tail : Bytes) : Escape := { e with rest := e.rest ++ tail }

theorem readTrailing_append {n : Nat} {e : Escape} (h : readTrailing n s = .ok e) (tail : Bytes) :
    readTrailing n (s ++ tail) = .ok (e.extend tail) := by
  fun_cases readTrailing n s with
  | case1 => contradiction
  | case2 => contradiction
  | case3 s =>
    rw [readTrailing] at h
    obtain ⟨⟨m, left⟩, hm, h⟩ := bind_ok h
    rw [List.cons_append, List.cons_append, readTrailing, readHex4_append hm, ok_bind]
    dsimp only at h ⊢
    split_ifs at h ⊢ <;>
    · rw [← Except.ok.inj h]
      simp only [Escape.extend, pure, Except.pure]
  | case4 =>
    rename_i hnil hone hpair
    rw [readTrailing.eq_4 n s hnil hone hpair] at h
    rw [← Except.ok.inj h, readTrailing.eq_4]
    · rfl
    all_goals
      cases s with
      | nil => contradiction
      | cons b s => cases s <;> simp_all

theorem readUnicode_append {e : Escape} (h : readUnicode s = .ok e) (tail : Bytes) :
    readUnicode (s ++ tail) = .ok (e.extend tail) := by
  rw [readUnicode] at h ⊢
  obtain ⟨⟨n, left⟩, hn, h⟩ := bind_ok h
  simp only [readHex4_append hn, ok_bind]
  dsimp only at h
  split_ifs at h ⊢
  · rw [← Except.ok.inj h]
    rfl
  · exact readTrailing_append h tail
  · rw [← Except.ok.inj h]
    rfl

theorem readEscape_append {e : Escape} (h : readEscape s = .ok e) (tail : Bytes) :
    readEscape (s ++ tail) = .ok (e.extend tail) := by
  fun_cases readEscape s with
  | case1 => contradiction
  | case10 s => exact readUnicode_append h tail
  | case11 => simp_all [readEscape]
  | _ s =>
    obtain rfl := Except.ok.inj h
    rfl

theorem readString_append {fuel : Nat} {collected : Bytes} {soft : Option Fault}
    {text : Except Fault String} (h : readString fuel collected soft s = .ok (text, rest))
    (more : Nat) (tail : Bytes) :
    readString (fuel + more) collected soft (s ++ tail) = .ok (text, rest ++ tail) := by
  fun_induction readString fuel collected soft s with
  | case1 => contradiction
  | case2 => contradiction
  | case3 fuel collected soft b s isQuote =>
    obtain ⟨rfl, rfl⟩ := Prod.mk.inj (Except.ok.inj h)
    rw [Nat.succ_add, List.cons_append, readString, if_pos isQuote]
  | case4 fuel collected soft b s noQuote isEscape e hescape ih =>
    rw [Nat.succ_add, List.cons_append, readString, if_neg noQuote, if_pos isEscape,
      readEscape_append hescape]
    exact ih h
  | case5 => contradiction
  | case6 => contradiction
  | case7 fuel collected soft b s noQuote noEscape isPlain ih =>
    rw [Nat.succ_add, List.cons_append, readString, if_neg noQuote, if_neg noEscape,
      if_neg isPlain]
    exact ih h

end Scanners

end ProgramSearch.Json
