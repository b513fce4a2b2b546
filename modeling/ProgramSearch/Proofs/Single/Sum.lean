import ProgramSearch.Proofs.Single.Pattern

/-!
# Sums of single-precision numbers

What rounded addition does to the scores of a search: a finite sum has finite parts, zero is
neutral for all numbers but minus zero, which no other sum makes, and numbers that are not above
zero have sums that are not above zero.
-/
namespace ProgramSearch.Single

open Float.Model (Format UnpackedFloat)
open Float.Model.UnpackedFloat

/-! ### Finite sums -/

theorem isFinite_of_stored {u : UnpackedFloat} (h : (stored u).isFinite = true) :
    u.isFinite = true := by
  cases u with
  | notANumber => exact h
  | infinity s => rwa [stored_infinity] at h
  | zero s => rfl
  | finite s m e hm => rfl

theorem isFinite_of_add_decoded {u v : UnpackedFloat}
    (h : (add .binary32 u v).isFinite = true) : u.isFinite = true ∧ v.isFinite = true := by
  cases u with
  | notANumber => contradiction
  | infinity s =>
    cases v with
    | infinity t => cases s <;> cases t <;> contradiction
    | _ => contradiction
  | zero s =>
    cases v with
    | zero t => exact ⟨rfl, rfl⟩
    | finite t m e hm => exact ⟨rfl, rfl⟩
    | _ => contradiction
  | finite s m e hm =>
    cases v with
    | zero t => exact ⟨rfl, rfl⟩
    | finite t m' e' hm' => exact ⟨rfl, rfl⟩
    | _ => contradiction

/-- A sum is finite only if both parts are. -/
theorem isFinite_of_add {x y : Float32} (h : (x + y).isFinite = true) :
    x.isFinite = true ∧ y.isFinite = true :=
  isFinite_of_add_decoded (isFinite_of_stored h)

/-! ### Rounding -/

theorem targetExponent_eq (total : Int) :
    Format.binary32.targetExponent total = max (total - 24) (-149) := rfl

theorem mantissa_shiftRight (em : ExtendedMantissa) (n : Nat) :
    (em >>> n).mantissa = em.mantissa / 2 ^ n := by
  induction n with
  | zero => exact (Nat.div_one _).symm
  | succ n ih =>
    have hstep : (em >>> (n + 1)).mantissa = (em >>> n).mantissa / 2 := rfl
    rw [hstep, ih, Nat.div_div_eq_div_mul, Nat.pow_succ]

theorem mantissa_ofMantissaAndAccuracy (m : Nat) (a : Accuracy) :
    (ExtendedMantissa.ofMantissaAndAccuracy m a).mantissa = m := by
  cases a with
  | exact => rfl
  | inexact o => cases o <;> rfl

theorem le_roundToNearestEven (m : Nat) (a : Accuracy) : m ≤ a.roundToNearestEven m := by
  cases a with
  | exact => exact Nat.le_refl m
  | inexact o => cases o <;> simp [Accuracy.roundToNearestEven]

/-- A mantissa that is shifted to the target exponent loses its last bits only, and keeps as many
as the format holds. -/
theorem shiftToTargetExponent_bounds {m : Nat} (hm : 0 < m) {e : Int} (he : -149 ≤ e)
    (a : Accuracy) :
    0 < (shiftToTargetExponent .binary32 m e a).1.mantissa ∧
      (shiftToTargetExponent .binary32 m e a).1.mantissa < 2 ^ 24 ∧
      -149 ≤ (shiftToTargetExponent .binary32 m e a).2 := by
  simp only [shiftToTargetExponent, shiftToExponent, mantissa_shiftRight,
    mantissa_ofMantissaAndAccuracy, targetExponent_eq, Float.Model.totalExponent]
  have hle := Nat.log2_self_le (Nat.ne_of_gt hm)
  have hlt := Nat.lt_log2_self (n := m)
  generalize hk : (max ((m.log2 : Int) + 1 + e - 24) (-149) - e).toNat = k
  have hkle : k ≤ m.log2 := by omega
  have hklt : m.log2 + 1 ≤ 24 + k := by omega
  refine ⟨?_, ?_, by omega⟩
  · exact Nat.div_pos (Nat.le_trans (Nat.pow_le_pow_right Nat.two_pos hkle) hle)
      (Nat.two_pow_pos k)
  · rw [Nat.div_lt_iff_lt_mul (Nat.two_pow_pos k), ← Nat.pow_add]
    exact Nat.lt_of_lt_of_le hlt (Nat.pow_le_pow_right Nat.two_pos hklt)

theorem roundWithAccuracy_finite (s : Sign) {m : Nat} (hm : 0 < m) {e : Int} (he : -149 ≤ e)
    (a : Accuracy) :
    ∃ m' e' hm', roundWithAccuracy .binary32 s m e a = .finite s m' e' hm' ∧ m' < 2 ^ 24 ∧
      -149 ≤ e' := by
  obtain ⟨hfirst, -, hlow⟩ := shiftToTargetExponent_bounds hm he a
  have hrounded := Nat.lt_of_lt_of_le hfirst (le_roundToNearestEven _
    (shiftToTargetExponent .binary32 m e a).1.accuracy)
  obtain ⟨hsecond, hfits, hlow⟩ := shiftToTargetExponent_bounds hrounded hlow .exact
  exact ⟨_, _, hsecond, dif_neg (Nat.ne_of_gt hsecond), hfits, hlow⟩

/-- Nothing is rounded to zero. -/
theorem round_finite (s : Sign) {m : Nat} (hm : 0 < m) {e : Int} (he : -149 ≤ e) :
    ∃ m' e' hm', round .binary32 s m e = .finite s m' e' hm' ∧ m' < 2 ^ 24 ∧ -149 ≤ e' := by
  apply roundWithAccuracy_finite
  · simp only [Nat.shiftLeft_eq]
    exact Nat.mul_pos hm (Nat.two_pow_pos _)
  · simp only [targetExponent_eq]
    omega

/-- The sum of two finite numbers, before it is stored: plus zero, or a number with the sign of the
exact sum. -/
theorem normalize_cases (n : Int) {e : Int} (he : -149 ≤ e) :
    normalize .binary32 n e .positive = .zero .positive ∨
      ∃ s m e' hm, normalize .binary32 n e .positive = .finite s m e' hm ∧ m < 2 ^ 24 ∧
        -149 ≤ e' ∧ (s = .positive → 0 < n) := by
  rw [UnpackedFloat.normalize]
  split
  · next h =>
    have hn := Int.compare_eq_lt.mp h
    obtain ⟨m, e', hm, hround, hfits, hlow⟩ :=
      round_finite .negative (m := (-n).toNat) (by omega) he
    exact .inr ⟨_, _, _, hm, hround, hfits, hlow, fun hs => by contradiction⟩
  · exact .inl rfl
  · next h =>
    have hn := Int.compare_eq_gt.mp h
    obtain ⟨m, e', hm, hround, hfits, hlow⟩ := round_finite .positive (m := n.toNat) (by omega) he
    exact .inr ⟨_, _, _, hm, hround, hfits, hlow, fun _ => hn⟩

/-! ### Sums of numbers that are not above zero -/

theorem sign_of_isAbove {b : BitVec Format.binary32.numBits}
    (h : isAbove (unpack .binary32 b) = true) : Sign.ofBitVec (unpackSign b) = .positive := by
  cases hs : Sign.ofBitVec (unpackSign b) with
  | positive => rfl
  | negative =>
    simp only [unpack, hs] at h
    split at h
    · split at h <;> contradiction
    · split at h
      · split at h <;> contradiction
      · contradiction

theorem isAbove_of_stored {u : UnpackedFloat} (h : isAbove (stored u) = true) :
    isAbove u = true := by
  cases u with
  | notANumber => rwa [stored_notANumber] at h
  | infinity s => rwa [stored_infinity] at h
  | zero s => rwa [stored_zero] at h
  | finite s m e hm =>
    have hs := sign_of_isAbove h
    rw [pack_finite, apply_ite unpackSign, packedInfinity, unpackSign_packComponents,
      unpackSign_packComponents, ite_self] at hs
    cases s with
    | negative => contradiction
    | positive => rfl

theorem isAbove_normalize {n : Int} (hn : n ≤ 0) {e : Int} (he : -149 ≤ e) :
    isAbove (normalize .binary32 n e .positive) = false := by
  obtain h | ⟨s, m, e', hm, h, -, -, hs⟩ := normalize_cases n he
  · rw [h]
    rfl
  · rw [h]
    cases s with
    | negative => rfl
    | positive =>
      have := hs rfl
      omega

theorem isAbove_add {u v : UnpackedFloat} (heldu : Held u) (heldv : Held v)
    (hu : isAbove u = false) (hv : isAbove v = false) :
    isAbove (add .binary32 u v) = false := by
  cases u with
  | notANumber => rfl
  | infinity s =>
    cases s with
    | positive => contradiction
    | negative =>
      cases v with
      | infinity t => cases t <;> rfl
      | _ => rfl
  | zero s =>
    cases v with
    | notANumber => rfl
    | zero t => cases s <;> cases t <;> rfl
    | _ => exact hv
  | finite s m e hm =>
    cases v with
    | notANumber => rfl
    | infinity t => exact hv
    | zero t => exact hu
    | finite t m' e' hm' =>
      have hlow := heldu.low rfl
      have hlow' := heldv.low rfl
      cases s with
      | positive => contradiction
      | negative =>
        cases t with
        | positive => contradiction
        | negative =>
          exact isAbove_normalize (Int.add_nonpos
            (Int.neg_nonpos_of_nonneg (Int.natCast_nonneg _))
            (Int.neg_nonpos_of_nonneg (Int.natCast_nonneg _))) (by omega)

theorem not_zero_lt_add {x y : Float32} (hx : ¬ 0 < x) (hy : ¬ 0 < y) : ¬ 0 < x + y := by
  rw [zero_lt_iff, Bool.not_eq_true] at *
  refine Bool.eq_false_iff.mpr fun h => ?_
  have hsum : isAbove (add .binary32 (decode x) (decode y)) = true := isAbove_of_stored h
  rw [isAbove_add (held_decode x) (held_decode y) hx hy] at hsum
  contradiction

/-! ### Minus zero -/

theorem parts_of_unpack_zero {b : BitVec Format.binary32.numBits} {t : Sign}
    (h : unpack .binary32 b = .zero t) : unpackExponent b = 0#8 ∧ unpackMantissa b = 0#23 := by
  simp only [unpack] at h
  split at h
  · split at h <;> contradiction
  · split at h
    · next he =>
      split at h
      · next hm => exact ⟨he, hm⟩
      · contradiction
    · contradiction

/-- A number of the format is not stored as zero. -/
theorem stored_finite_ne_zero (s t : Sign) {m : Nat} {e : Int} (hm : 0 < m) (hfits : m < 2 ^ 24)
    (he : -149 ≤ e) : stored (.finite s m e hm) ≠ .zero t := by
  intro h
  obtain ⟨hexponent, hmantissa⟩ := parts_of_unpack_zero h
  rw [pack_finite] at hexponent hmantissa
  by_cases hlarge : 2 ^ 8 ≤ (e + 150).toNat + 1
  · rw [if_pos hlarge, packedInfinity, unpackExponent_packComponents] at hexponent
    contradiction
  · rw [if_neg hlarge, unpackExponent_packComponents] at hexponent
    rw [if_neg hlarge, unpackMantissa_packComponents] at hmantissa
    have hbiased := BitVec.toNat_eq.mp hexponent
    have hbits := BitVec.toNat_eq.mp hmantissa
    have hlog : m.log2 < 24 := (Nat.log2_lt (by omega)).mpr hfits
    by_cases hnormal : m.log2 + 1 = 24
    · have hfits : (e + 150).toNat < 2 ^ 8 := by omega
      rw [if_pos hnormal, BitVec.toNat_ofNat, Nat.mod_eq_of_lt hfits] at hbiased
      change _ = 0 at hbiased
      omega
    · have hlt : m < 2 ^ 23 := (Nat.log2_lt (by omega)).mp (by omega)
      rw [BitVec.toNat_ofNat, Nat.mod_eq_of_lt hlt] at hbits
      change _ = 0 at hbits
      omega

theorem stored_normalize_ne (n : Int) {e : Int} (he : -149 ≤ e) :
    stored (normalize .binary32 n e .positive) ≠ .zero .negative := by
  obtain h | ⟨s, m, e', hm, h, hfits, hlow, -⟩ := normalize_cases n he
  · simp [h]
  · rw [h]
    exact stored_finite_ne_zero s .negative hm hfits hlow

theorem stored_add_ne {u v : UnpackedFloat} (heldu : Held u) (heldv : Held v)
    (hu : u ≠ .zero .negative) : stored (add .binary32 u v) ≠ .zero .negative := by
  cases u with
  | notANumber => simp [add]
  | infinity s =>
    cases v with
    | infinity t =>
      rw [add]
      split <;> simp
    | _ => simp [add]
  | zero s =>
    cases v with
    | zero t =>
      cases s with
      | negative => contradiction
      | positive => cases t <;> simp [add]
    | finite t m e hm => simp [add, heldv.stored_eq]
    | _ => simp [add]
  | finite s m e hm =>
    cases v with
    | zero t => simp [add, heldu.stored_eq]
    | finite t m' e' hm' =>
      have hlow := heldu.low rfl
      have hlow' := heldv.low rfl
      exact stored_normalize_ne _ (by omega)
    | _ => simp [add]

theorem decode_minus_zero : decode (-0.0) = .zero .negative := rfl

theorem decode_zero : decode 0 = .zero .positive := rfl

theorem decode_ne {x : Float32} (hx : x ≠ -0.0) : decode x ≠ .zero .negative :=
  fun h => hx (decode_inj h)

/-- Only minus zero and minus zero add up to minus zero. -/
theorem add_ne_minus_zero {x : Float32} (hx : x ≠ -0.0) (y : Float32) : x + y ≠ -0.0 := by
  intro h
  apply stored_add_ne (held_decode x) (held_decode y) (decode_ne hx)
  rw [← decode_add, h, decode_minus_zero]

theorem add_zero_decoded {u : UnpackedFloat} (hu : u ≠ .zero .negative) :
    add .binary32 u (.zero .positive) = u := by
  cases u with
  | zero s =>
    cases s with
    | negative => contradiction
    | positive => rfl
  | _ => rfl

/-- Zero is neutral but for minus zero. -/
theorem add_zero {x : Float32} (hx : x ≠ -0.0) : x + 0 = x := by
  apply decode_inj
  rw [decode_add, decode_zero, add_zero_decoded (decode_ne hx), (held_decode x).stored_eq]

end ProgramSearch.Single
