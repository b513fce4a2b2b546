import Mathlib.Data.List.Basic
import Mathlib.Tactic.SplitIfs

/-!
# The bytes of a text

A byte below 128 is the only one of a character with its number; all bytes of other characters are
larger.
-/
namespace ProgramSearch.Text

/-- The bytes of a text. -/
abbrev utf8 (s : String) : List UInt8 := s.toUTF8.data.toList

theorem utf8_append (s t : String) : utf8 (s ++ t) = utf8 s ++ utf8 t := by
  simp only [utf8, String.toUTF8_eq_toByteArray, String.toByteArray_append, ByteArray.data_append,
    Array.toList_append]

theorem utf8_eq_flatMap (s : String) : utf8 s = s.toList.flatMap String.utf8EncodeChar := by
  rw [utf8, String.toUTF8_eq_toByteArray, ← String.utf8Encode_toList, List.utf8Encode]
  simp

theorem fromUTF8?_utf8 (s : String) : String.fromUTF8? ⟨(utf8 s).toArray⟩ = some s := by
  rw [String.fromUTF8?, Array.toArray_toList, String.toUTF8_eq_toByteArray, dif_pos s.isValidUTF8]
  rfl

theorem utf8_inj {s t : String} (h : utf8 s = utf8 t) : s = t := by
  have hread := fromUTF8?_utf8 s
  rw [h, fromUTF8?_utf8] at hread
  exact (Option.some.inj hread).symm

theorem utf8EncodeChar_of_lt {c : Char} (small : c.toNat < 128) :
    String.utf8EncodeChar c = [UInt8.ofNat c.toNat] := by
  rw [String.utf8EncodeChar]
  exact if_pos (Nat.le_of_lt_succ small)

theorem le_toNat_of_mem_utf8EncodeChar {c : Char} {b : UInt8} (large : 128 ≤ c.toNat)
    (h : b ∈ String.utf8EncodeChar c) : 128 ≤ b.toNat := by
  have hlarge : ¬ c.val.toNat ≤ 127 := Nat.not_le_of_lt large
  have hbyte : ∀ n, 128 ≤ n → n < 256 → 128 ≤ (UInt8.ofNat n).toNat := by
    intro n hlow hhigh
    rwa [UInt8.toNat_ofNat', Nat.mod_eq_of_lt hhigh]
  rw [String.utf8EncodeChar, if_neg hlarge] at h
  split_ifs at h <;> simp only [List.mem_cons, List.not_mem_nil, or_false] at h
  · rcases h with rfl | rfl <;> exact hbyte _ (by omega) (by omega)
  · rcases h with rfl | rfl | rfl <;> exact hbyte _ (by omega) (by omega)
  · rcases h with rfl | rfl | rfl | rfl <;> exact hbyte _ (by omega) (by omega)

/-- A byte below 128 is a character. -/
theorem utf8EncodeChar_of_mem {c : Char} {b : UInt8} (h : b ∈ String.utf8EncodeChar c)
    (plain : b.toNat < 128) : String.utf8EncodeChar c = [b] ∧ c.toNat = b.toNat := by
  by_cases small : c.toNat < 128
  · rw [utf8EncodeChar_of_lt small] at h ⊢
    obtain rfl := List.mem_singleton.mp h
    rw [UInt8.toNat_ofNat']
    exact ⟨rfl, by omega⟩
  · have hlarge := le_toNat_of_mem_utf8EncodeChar (by omega) h
    omega

theorem exists_char_of_mem_utf8 {s : String} {b : UInt8} (h : b ∈ utf8 s) (plain : b.toNat < 128) :
    ∃ c ∈ s.toList, c.toNat = b.toNat := by
  rw [utf8_eq_flatMap] at h
  obtain ⟨c, hc, hb⟩ := List.mem_flatMap.mp h
  exact ⟨c, hc, (utf8EncodeChar_of_mem hb plain).2⟩

/-- A text whose last byte is below 128 ends with that character. -/
theorem exists_eq_append_of_utf8 {s : String} {front : List UInt8} {b : UInt8}
    (h : utf8 s = front ++ [b]) (plain : b.toNat < 128) :
    ∃ t, s = t ++ String.singleton (Char.ofNat b.toNat) ∧ utf8 t = front := by
  rcases List.eq_nil_or_concat s.toList with hnil | ⟨cs, c, hcs⟩
  · rw [utf8_eq_flatMap, hnil] at h
    simp at h
  · obtain rfl : s = String.ofList cs ++ String.singleton c := by
      rw [← String.toList_inj, hcs]
      simp
    have hsplit : utf8 (String.ofList cs) ++ String.utf8EncodeChar c = front ++ [b] := by
      rw [← h, utf8_append, utf8_eq_flatMap (String.singleton c)]
      simp
    have hlast := congrArg List.getLast? hsplit
    rw [List.getLast?_append_of_ne_nil _ String.utf8EncodeChar_ne_nil, List.getLast?_concat]
      at hlast
    obtain ⟨hsingle, hnumber⟩ := utf8EncodeChar_of_mem (List.mem_of_getLast? hlast) plain
    rw [hsingle] at hsplit
    refine ⟨String.ofList cs, ?_, List.append_cancel_right hsplit⟩
    rw [← hnumber, Char.ofNat_toNat]

end ProgramSearch.Text
