import Mathlib

/-!
# Whole numbers in double precision

Double precision has every whole number up to `2 ^ 53`, and a sum of two of them that is no larger
is exact.
-/
namespace ProgramSearch.Double

open Float.Model (Format UnpackedFloat)
open Float.Model.UnpackedFloat

theorem log2_mul_two_pow {n : Nat} (hn : n ≠ 0) (k : Nat) : (n * 2 ^ k).log2 = n.log2 + k := by
  have hpow := Nat.two_pow_pos k
  have hfirst := Nat.log2_self_le hn
  have hlast := Nat.lt_log2_self (n := n)
  rw [Nat.log2_eq_iff (Nat.mul_ne_zero hn hpow.ne'), Nat.pow_add, Nat.add_right_comm, Nat.pow_add]
  exact ⟨Nat.mul_le_mul_right _ hfirst, Nat.mul_lt_mul_of_pos_right hlast hpow⟩

/-! ### Rounding what needs none -/

theorem targetExponent_eq (total : Int) :
    Format.binary64.targetExponent total = max (total - 53) (-1074) := rfl

/-- Zero bits are shifted out without a trace. -/
theorem shiftRight_exact (m k : Nat) :
    ExtendedMantissa.ofMantissaAndAccuracy (m * 2 ^ k) .exact >>> k = ⟨m, false, false⟩ := by
  rw [ExtendedMantissa.ofMantissaAndAccuracy]
  induction k generalizing m with
  | zero => rw [Nat.pow_zero, Nat.mul_one]; rfl
  | succ k ih =>
    have hstep (em : ExtendedMantissa) : em >>> (k + 1) = (em >>> k).shiftRightOne := rfl
    have hsplit : m * 2 ^ (k + 1) = m * 2 * 2 ^ k := by rw [Nat.pow_succ', Nat.mul_assoc]
    rw [hstep, hsplit, ih (m * 2), ExtendedMantissa.shiftRightOne]
    simp

/-- The leading bit of a mantissa is not stored. -/
theorem toNat_implicit (m : BitVec 52) : (1#1 ++ m).toNat = 2 ^ 52 + m.toNat := by
  rw [BitVec.toNat_append, Nat.shiftLeft_eq, Nat.or_comm, Nat.or_comm m.toNat]
  have h := Nat.two_pow_add_eq_or_of_lt m.isLt 1
  simpa using h.symm

/-- A mantissa with all its bits, at an exponent that the format has. -/
structure Full (m : Nat) (e : Int) : Prop where
  low : 2 ^ 52 ≤ m
  high : m < 2 ^ 53
  least : -1074 ≤ e
  greatest : e ≤ 971

namespace Full

variable {m : Nat} {e : Int} (h : Full m e)
include h

theorem pos : 0 < m := Nat.lt_of_lt_of_le (Nat.two_pow_pos 52) h.low

theorem log2_eq : m.log2 = 52 := (Nat.log2_eq_iff h.pos.ne').mpr ⟨h.low, h.high⟩

theorem targetExponent (k : Nat) :
    Format.binary64.targetExponent (Float.Model.totalExponent (m * 2 ^ k) (e - k)) = e := by
  have hleast := h.least
  rw [targetExponent_eq, Float.Model.totalExponent, log2_mul_two_pow h.pos.ne', h.log2_eq]
  omega

theorem shiftToTargetExponent (k : Nat) :
    shiftToTargetExponent .binary64 (m * 2 ^ k) (e - k) .exact = (⟨m, false, false⟩, e) := by
  have hamount : (e - (e - k)).toNat = k := by omega
  rw [UnpackedFloat.shiftToTargetExponent, h.targetExponent, shiftToExponent, hamount,
    shiftRight_exact, Int.sub_add_cancel]

/-- Zeros behind the mantissa are dropped. -/
theorem roundWithAccuracy (s : Sign) (k : Nat) :
    roundWithAccuracy .binary64 s (m * 2 ^ k) (e - k) .exact = .finite s m e h.pos := by
  have hagain := h.shiftToTargetExponent 0
  rw [Nat.pow_zero, Nat.mul_one, Int.natCast_zero, Int.sub_zero] at hagain
  have hrounded : (⟨m, false, false⟩ : ExtendedMantissa).roundedMantissa = m := rfl
  simp only [UnpackedFloat.roundWithAccuracy, h.shiftToTargetExponent, hrounded, hagain]
  exact dif_neg h.pos.ne'

theorem round_of_long (s : Sign) (k : Nat) :
    round .binary64 s (m * 2 ^ k) (e - k) = .finite s m e h.pos := by
  have hamount : (e - k - e).toNat = 0 := by omega
  rw [UnpackedFloat.round, h.targetExponent, decreaseExponent, hamount, Nat.shiftLeft_zero,
    Int.natCast_zero, Int.sub_zero]
  exact h.roundWithAccuracy s k

/-- Zeros that the mantissa lacks are filled in. -/
theorem round_of_short (s : Sign) {n k : Nat} (hn : n * 2 ^ k = m) :
    round .binary64 s n (e + k) = .finite s m e h.pos := by
  have hne : n ≠ 0 := by
    rintro rfl
    exact h.pos.ne (Nat.zero_mul _ ▸ hn)
  have hlog : n.log2 + k = 52 := by rw [← log2_mul_two_pow hne, hn, h.log2_eq]
  have htarget : Format.binary64.targetExponent (Float.Model.totalExponent n (e + k)) = e := by
    have hleast := h.least
    rw [targetExponent_eq, Float.Model.totalExponent]
    omega
  have hamount : (e + k - e).toNat = k := by omega
  have hround := h.roundWithAccuracy s 0
  rw [Nat.pow_zero, Nat.mul_one, Int.natCast_zero, Int.sub_zero] at hround
  rw [UnpackedFloat.round, htarget, decreaseExponent, hamount, Nat.shiftLeft_eq, hn,
    Int.add_sub_cancel]
  exact hround

/-- Rounding depends on the value alone: what has the value of a full mantissa becomes that. The
values are compared in units of `2 ^ (-d)`. -/
theorem round_of_value (s : Sign) {n d : Nat} {e' : Int} (hd : -d ≤ e) (hd' : -d ≤ e')
    (value : n * 2 ^ (e' + d).toNat = m * 2 ^ (e + d).toNat) :
    round .binary64 s n e' = .finite s m e h.pos := by
  by_cases hle : e' ≤ e
  · obtain ⟨k, hk⟩ : ∃ k : Nat, e' = e - k := ⟨(e - e').toNat, by omega⟩
    have hsplit : (e + d).toNat = k + (e' + d).toNat := by omega
    rw [hsplit, Nat.pow_add, ← Nat.mul_assoc] at value
    rw [hk, Nat.eq_of_mul_eq_mul_right (Nat.two_pow_pos _) value]
    exact h.round_of_long s k
  · obtain ⟨k, hk⟩ : ∃ k : Nat, e' = e + k := ⟨(e' - e).toNat, by omega⟩
    have hsplit : (e' + d).toNat = k + (e + d).toNat := by omega
    rw [hsplit, Nat.pow_add, ← Nat.mul_assoc] at value
    rw [hk]
    exact h.round_of_short s (Nat.eq_of_mul_eq_mul_right (Nat.two_pow_pos _) value)

theorem pack (s : Sign) :
    UnpackedFloat.pack .binary64 (.finite s m e h.pos) =
      packComponents .binary64 s (BitVec.ofNat 11 (e + 1075).toNat) (BitVec.ofNat 52 m) := by
  have hbias : (e + (Format.binary64.exponentBias : Nat) + (52 : Nat)).toNat =
      (e + 1075).toNat := by
    have : Format.binary64.exponentBias = 1023 := rfl
    omega
  have hsmall : ¬ 2 ^ 11 ≤ (e + 1075).toNat + 1 := by
    have := h.greatest
    omega
  have hbits : m.log2 + 1 = Format.binary64.mantissaBits := by rw [h.log2_eq]; rfl
  simp only [UnpackedFloat.pack, hbias, if_neg hsmall, if_pos hbits]

/-- A full mantissa is stored as it is. -/
theorem unpack_pack (s : Sign) :
    unpack .binary64 (UnpackedFloat.pack .binary64 (.finite s m e h.pos)) =
      .finite s m e h.pos := by
  have hleast := h.least
  have hgreatest := h.greatest
  have hlow := h.low
  have hhigh := h.high
  have hexponent : (BitVec.ofNat 11 (e + 1075).toNat).toNat = (e + 1075).toNat := by
    rw [BitVec.toNat_ofNat]
    omega
  rw [h.pack]
  simp only [unpack, unpackExponent_packComponents, unpackMantissa_packComponents,
    unpackSign_packComponents, Sign.ofBitVec_toBitVec]
  have hne : BitVec.ofNat 11 (e + 1075).toNat ≠ -1#11 := by
    intro heq
    rw [heq] at hexponent
    have : (-1#11).toNat = 2047 := rfl
    omega
  have hne' : BitVec.ofNat 11 (e + 1075).toNat ≠ 0#11 := by
    intro heq
    rw [heq] at hexponent
    have : (0#11).toNat = 0 := rfl
    omega
  have hmantissa : (1#1 ++ BitVec.ofNat 52 m).toNat = m := by
    rw [toNat_implicit, BitVec.toNat_ofNat]
    omega
  have hbias : ((e + 1075).toNat : Int) - ((Format.binary64.exponentBias : Nat) + (52 : Nat)) =
      e := by
    have : Format.binary64.exponentBias = 1023 := rfl
    omega
  simp only [hne, hne', if_false, hexponent, hmantissa, hbias]

end Full

theorem normalize_natCast {n : Nat} (positive : 0 < n) (e : Int) (s : Sign) :
    normalize .binary64 n e s = round .binary64 .positive n e := by
  have hcompare : compare (n : Int) 0 = .gt := Int.compare_eq_gt.mpr (by omega)
  rw [UnpackedFloat.normalize, hcompare, Int.toNat_natCast]

/-- What a whole number is in double precision. -/
def whole (n : Nat) : UnpackedFloat := UnpackedFloat.ofNat .binary64 n

/-- A full mantissa that has the value of a whole number. -/
structure IsWhole (n m : Nat) (e : Int) : Prop extends Full m e where
  unit : -52 ≤ e
  value : n * 2 ^ 52 = m * 2 ^ (e + 52).toNat

theorem exists_isWhole {n : Nat} (positive : 0 < n) (hn : n ≤ 2 ^ 53) : ∃ m e, IsWhole n m e := by
  -- The greatest number has one bit too many, but that bit is zero.
  obtain rfl | hlt := Nat.eq_or_lt_of_le hn
  · exact ⟨2 ^ 52, 1, ⟨by decide, by decide, by decide, by decide⟩, by decide, by decide⟩
  · have hlog : n.log2 < 53 := (Nat.log2_lt positive.ne').mpr hlt
    obtain ⟨k, hk⟩ : ∃ k, n.log2 + k = 52 := ⟨52 - n.log2, by omega⟩
    have hfull : (n * 2 ^ k).log2 = 52 := by rw [log2_mul_two_pow positive.ne', hk]
    obtain ⟨low, high⟩ :=
      (Nat.log2_eq_iff (Nat.mul_pos positive (Nat.two_pow_pos k)).ne').mp hfull
    have hsplit : 52 = k + (-(k : Int) + 52).toNat := by omega
    refine ⟨n * 2 ^ k, -k, ⟨low, high, by omega, by omega⟩, by omega, ?_⟩
    rw [Nat.mul_assoc, ← Nat.pow_add, ← hsplit]

theorem IsWhole.round_eq {n m : Nat} {e : Int} (h : IsWhole n m e) {n' : Nat} {e' : Int}
    (unit : -52 ≤ e') (value : n' * 2 ^ (e' + 52).toNat = n * 2 ^ 52) :
    round .binary64 .positive n' e' = .finite .positive m e h.pos :=
  h.toFull.round_of_value .positive (d := 52) h.unit unit (value.trans h.value)

theorem IsWhole.whole_eq {n m : Nat} {e : Int} (h : IsWhole n m e) :
    whole n = .finite .positive m e h.pos := by
  have positive : 0 < n := by
    have hvalue := h.value
    have := Nat.mul_pos h.pos (Nat.two_pow_pos (e + 52).toNat)
    omega
  exact (normalize_natCast positive 0 .positive).trans (h.round_eq (by decide) rfl)

theorem unpack_pack_whole {n : Nat} (hn : n ≤ 2 ^ 53) :
    unpack .binary64 (UnpackedFloat.pack .binary64 (whole n)) = whole n := by
  obtain rfl | positive := Nat.eq_zero_or_pos n
  · rfl
  · obtain ⟨m, e, h⟩ := exists_isWhole positive hn
    rw [h.whole_eq, h.toFull.unpack_pack]

theorem add_finite {m m' : Nat} {e e' : Int} (hm : 0 < m) (hm' : 0 < m') :
    add .binary64 (.finite .positive m e hm) (.finite .positive m' e' hm') =
      round .binary64 .positive
        (m * 2 ^ (e - min e e').toNat + m' * 2 ^ (e' - min e e').toNat) (min e e') := by
  have hpos : 0 < m * 2 ^ (e - min e e').toNat + m' * 2 ^ (e' - min e e').toNat :=
    Nat.add_pos_left (Nat.mul_pos hm (Nat.two_pow_pos _)) _
  rw [← normalize_natCast hpos _ .positive, Int.natCast_add, ← Nat.shiftLeft_eq,
    ← Nat.shiftLeft_eq]
  rfl

/-- A sum of whole numbers is exact if double precision has it. -/
theorem add_whole {a b : Nat} (hab : a + b ≤ 2 ^ 53) :
    add .binary64 (whole a) (whole b) = whole (a + b) := by
  obtain rfl | ha := Nat.eq_zero_or_pos a
  · rw [Nat.zero_add]
    obtain rfl | hb := Nat.eq_zero_or_pos b
    · rfl
    · obtain ⟨m, e, h⟩ := exists_isWhole hb (by omega)
      rw [h.whole_eq]
      rfl
  · obtain ⟨m, e, h⟩ := exists_isWhole ha (by omega)
    obtain rfl | hb := Nat.eq_zero_or_pos b
    · rw [Nat.add_zero, h.whole_eq]
      rfl
    · obtain ⟨m', e', h'⟩ := exists_isWhole hb (by omega)
      obtain ⟨m'', e'', h''⟩ := exists_isWhole (Nat.add_pos_left ha b) hab
      have hunit := h.unit
      have hunit' := h'.unit
      have hsplit : (e + 52).toNat = (e - min e e').toNat + (min e e' + 52).toNat := by omega
      have hsplit' : (e' + 52).toNat = (e' - min e e').toNat + (min e e' + 52).toNat := by omega
      rw [h.whole_eq, h'.whole_eq, h''.whole_eq, add_finite]
      refine h''.round_eq (by omega) ?_
      rw [Nat.add_mul, Nat.mul_assoc, Nat.mul_assoc, ← Nat.pow_add, ← Nat.pow_add, ← hsplit,
        ← hsplit', ← h.value, ← h'.value, Nat.add_mul]

theorem mul_one_whole {n : Nat} (hn : n ≤ 2 ^ 53) :
    mul .binary64 (whole n) (whole 1) = whole n := by
  obtain rfl | positive := Nat.eq_zero_or_pos n
  · rfl
  · obtain ⟨m, e, h⟩ := exists_isWhole positive hn
    rw [h.whole_eq]
    exact h.toFull.roundWithAccuracy .positive 52

theorem toFloat_eq {n : Nat} (hn : n ≤ 2 ^ 53) :
    n.toFloat = .ofModel (Float.Model.pack (whole n)) := by
  obtain rfl | hlt := Nat.eq_or_lt_of_le hn
  · rfl
  · have hword : n.toUInt64.toNat = n := by
      rw [Nat.toUInt64_eq, UInt64.toNat_ofNat']
      omega
    -- Numbers that fit in a mantissa are scaled by a power of ten, here by one.
    have hfast : n.toFloat = n.toUInt64.toFloat * .ofModel (.pack (whole 1)) := by
      change Float.ofScientific n false 0 = _
      rw [Float.ofScientific, dif_pos ⟨hlt, by decide⟩]
      rfl
    have hproduct : Float.Model.pack (mul .binary64
        (unpack .binary64 (UnpackedFloat.pack .binary64 (whole n.toUInt64.toNat)))
        (unpack .binary64 (UnpackedFloat.pack .binary64 (whole 1)))) =
          Float.Model.pack (whole n) := by
      rw [hword, unpack_pack_whole hn, unpack_pack_whole (by decide), mul_one_whole hn]
    exact hfast.trans (congrArg Float.ofModel hproduct)

/-- Up to `2 ^ 53` whole numbers are added as they are. -/
theorem toFloat_add {a b : Nat} (hab : a + b ≤ 2 ^ 53) :
    a.toFloat + b.toFloat = (a + b).toFloat := by
  rw [toFloat_eq (Nat.le_trans (Nat.le_add_right a b) hab),
    toFloat_eq (Nat.le_trans (Nat.le_add_left b a) hab), toFloat_eq hab, ← add_whole hab]
  have hsum : Float.Model.pack (add .binary64
      (unpack .binary64 (UnpackedFloat.pack .binary64 (whole a)))
      (unpack .binary64 (UnpackedFloat.pack .binary64 (whole b)))) =
        Float.Model.pack (add .binary64 (whole a) (whole b)) := by
    rw [unpack_pack_whole (by omega), unpack_pack_whole (by omega)]
  exact congrArg Float.ofModel hsum

end ProgramSearch.Double
