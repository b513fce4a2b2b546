import ProgramSearch.Proofs.Single.Pattern

/-!
# Comparing numbers and comparing patterns

A number that is below another has the smaller pattern, too. The converse fails for the two zeros
only, of which the negative one has the smaller pattern.
-/
namespace ProgramSearch.Single

open Float.Model (Format UnpackedFloat)
open Float.Model.UnpackedFloat

/-! ### Patterns by sign and lower bits -/

/-- A mantissa at an exponent has the lower bits `n`: only at the least exponent may its leading
bit be missing. -/
structure Lower (m : Nat) (e : Int) (n : Nat) : Prop where
  value : (n : Int) = m + (e + 149) * 2 ^ 23
  least : -149 ≤ e
  narrow : m < 2 ^ 24
  full : -149 < e → 2 ^ 23 ≤ m
  below : n < 0x7F800000

/-- Exponents count before mantissas, as in the lower bits. -/
theorem Lower.compare_eq_lt_iff {m m' n n' : Nat} {e e' : Int} (h : Lower m e n)
    (h' : Lower m' e' n') : (compare e e').then (compare m m') = .lt ↔ n < n' := by
  obtain ⟨value, least, narrow, full, -⟩ := h
  obtain ⟨value', least', narrow', full', -⟩ := h'
  rw [Ordering.then_eq_lt, Int.compare_eq_lt, Int.compare_eq_eq, Nat.compare_eq_lt]
  omega

theorem Lower.pos {m n : Nat} {e : Int} (h : Lower m e n) (hm : 0 < m) : 0 < n := by
  obtain ⟨value, least, -, -, -⟩ := h
  omega

/-- The pattern of sign `s` with the lower bits `n` stands for the number. -/
inductive Stands : UnpackedFloat → Sign → Nat → Prop where
  | zero (s : Sign) : Stands (.zero s) s 0
  | finite {s : Sign} {m n : Nat} {e : Int} {hm : 0 < m} (lower : Lower m e n) :
    Stands (.finite s m e hm) s n
  | infinity (s : Sign) : Stands (.infinity s) s 0x7F800000

theorem toNat_unpackMantissa (b : BitVec Format.binary32.numBits) :
    (unpackMantissa b).toNat = b.toNat % 2 ^ 23 := by
  rw [unpackMantissa_def]
  rfl

theorem ofBitVec_unpackSign (b : BitVec Format.binary32.numBits) :
    Sign.ofBitVec (unpackSign b) = if b.toNat < 2 ^ 31 then .positive else .negative := by
  have hsign : (unpackSign b).toNat = b.toNat / 2 ^ 31 % 2 := by
    rw [unpackSign_def, BitVec.extractLsb'_toNat, Nat.shiftRight_eq_div_pow]
    rfl
  have hlt : b.toNat < 2 ^ 32 := b.isLt
  have hzero : unpackSign b = 0#1 ↔ b.toNat < 2 ^ 31 := by
    rw [← BitVec.toNat_inj, hsign]
    change _ = 0 ↔ _
    omega
  simp only [Sign.ofBitVec, hzero]

theorem stands_unpack (b : BitVec Format.binary32.numBits)
    (number : unpack .binary32 b ≠ .notANumber) :
    Stands (unpack .binary32 b) (if b.toNat < 2 ^ 31 then .positive else .negative)
      (b.toNat % 2 ^ 31) := by
  have hbias : Format.binary32.exponentBias = 127 := rfl
  have hlt : b.toNat < 2 ^ 32 := b.isLt
  have hmantissa := toNat_unpackMantissa b
  have hexponent := toNat_unpackExponent b
  have hnone : unpackMantissa b = 0#23 ↔ b.toNat % 2 ^ 23 = 0 := by
    rw [← BitVec.toNat_inj, hmantissa]
    rfl
  have hlast : unpackExponent b = -1#8 ↔ b.toNat / 2 ^ 23 % 2 ^ 8 = 255 := by
    rw [← BitVec.toNat_inj, hexponent]
    rfl
  have hfirst : unpackExponent b = 0#8 ↔ b.toNat / 2 ^ 23 % 2 ^ 8 = 0 := by
    rw [← BitVec.toNat_inj, hexponent]
    rfl
  simp only [unpack, hbias, ofBitVec_unpackSign] at number ⊢
  split
  · next last =>
    rw [if_pos last] at number
    rw [hlast] at last
    split
    · next none =>
      rw [hnone] at none
      have hlower : b.toNat % 2 ^ 31 = 0x7F800000 := by omega
      rw [hlower]
      exact .infinity _
    · next some =>
      rw [if_neg some] at number
      contradiction
  · next other =>
    rw [hlast] at other
    split
    · next first =>
      rw [hfirst] at first
      split
      · next none =>
        rw [hnone] at none
        have hlower : b.toNat % 2 ^ 31 = 0 := by omega
        rw [hlower]
        exact .zero _
      · -- Without a leading bit the exponent is the least one.
        constructor; constructor <;> omega
    · next inner =>
      rw [hfirst] at inner
      have hfull : (1#1 ++ unpackMantissa b).toNat = 2 ^ 23 + b.toNat % 2 ^ 23 := by
        rw [BitVec.toNat_append, ← Nat.shiftLeft_add_eq_or_of_lt (BitVec.isLt _), hmantissa]
        rfl
      constructor; constructor <;> omega

/-! ### The order of patterns -/

/-- The place of a pattern in the order of scores. -/
def place : Sign → Nat → Int
  | .positive, n => n
  | .negative, n => -n - 1

theorem exists_stands {x : Float32} (number : x.isNaN = false) :
    ∃ s n, Stands (decode x) s n ∧ orderKey x = place s n := by
  have hdecode : decode x ≠ .notANumber := by
    intro hnone
    change (decode x).isNaN = false at number
    rw [hnone] at number
    contradiction
  refine ⟨_, _, stands_unpack (pattern x) hdecode, ?_⟩
  have hlt : x.toBits.toNat < 2 ^ 32 := x.toBits.toNat_lt
  have hpattern : (pattern x).toNat = x.toBits.toNat := rfl
  simp only [orderKey, orderBits, number, Bool.false_eq_true, if_false, hpattern]
  by_cases h : x.toBits.toNat < 2 ^ 31 <;> simp only [h, if_true, if_false, place] <;> omega

variable {u v : UnpackedFloat} {n k : Nat}

theorem Stands.compare_positive (hu : Stands u .positive n) (hv : Stands v .positive k) :
    u.compare v = some .lt ↔ n < k := by
  cases hu with
  | zero =>
    cases hv with
    | zero => exact iff_of_false nofun (Nat.lt_irrefl 0)
    | @finite _ _ _ _ hm lower => exact iff_of_true rfl (lower.pos hm)
    | infinity => exact iff_of_true rfl (by decide)
  | finite lower =>
    cases hv with
    | zero => exact iff_of_false nofun (Nat.not_lt_zero n)
    | finite lower' => exact Option.some_inj.trans (lower.compare_eq_lt_iff lower')
    | infinity => exact iff_of_true rfl lower.below
  | infinity =>
    cases hv with
    | zero => exact iff_of_false nofun (Nat.not_lt_zero _)
    | finite lower => exact iff_of_false nofun (Nat.lt_asymm lower.below)
    | infinity => exact iff_of_false nofun (Nat.lt_irrefl _)

theorem Stands.compare_negative (hu : Stands u .negative n) (hv : Stands v .negative k) :
    u.compare v = some .lt ↔ k < n := by
  cases hu with
  | zero =>
    cases hv with
    | zero => exact iff_of_false nofun (Nat.lt_irrefl 0)
    | finite lower => exact iff_of_false nofun (Nat.not_lt_zero k)
    | infinity => exact iff_of_false nofun (Nat.not_lt_zero _)
  | @finite _ _ _ _ hm lower =>
    cases hv with
    | zero => exact iff_of_true rfl (lower.pos hm)
    | finite lower' =>
      rw [← lower'.compare_eq_lt_iff lower, ← Int.compare_swap, ← Nat.compare_swap,
        ← Ordering.swap_then]
      exact Option.some_inj
    | infinity => exact iff_of_false nofun (Nat.lt_asymm lower.below)
  | infinity =>
    cases hv with
    | zero => exact iff_of_true rfl (by decide)
    | finite lower => exact iff_of_true rfl lower.below
    | infinity => exact iff_of_false nofun (Nat.lt_irrefl _)

/-- No number without its sign is below one with it. -/
theorem Stands.not_positive_lt_negative (hu : Stands u .positive n) (hv : Stands v .negative k) :
    u.compare v ≠ some .lt := by
  cases hu <;> cases hv <;> nofun

/-- A number with its sign is below each without it, but the zeros are equal. -/
theorem Stands.negative_lt_positive (hu : Stands u .negative n) (hv : Stands v .positive k) :
    u.compare v = some .lt ∨ n = 0 ∧ k = 0 := by
  cases hu with
  | zero =>
    cases hv with
    | zero => exact .inr ⟨rfl, rfl⟩
    | _ => exact .inl rfl
  | _ => cases hv <;> exact .inl rfl

theorem Stands.place_lt_iff {s t : Sign} (hu : Stands u s n) (hv : Stands v t k) :
    place s n < place t k ↔
      u.compare v = some .lt ∨ place s n = -1 ∧ place t k = 0 := by
  cases s <;> cases t <;> simp only [place]
  · rw [hu.compare_negative hv]
    omega
  · exact iff_of_true (by omega) ((hu.negative_lt_positive hv).imp_right fun _ => by omega)
  · refine iff_of_false (by omega) ?_
    rintro (hlt | ⟨hn, -⟩)
    · exact hu.not_positive_lt_negative hv hlt
    · omega
  · rw [hu.compare_positive hv]
    omega

theorem lt_iff_compare {x y : Float32} :
    x < y ↔ (decode x).compare (decode y) = some .lt := by
  have hmodel : x < y ↔ decide (x.toModel < y.toModel) = true := Iff.rfl
  have hlt : x.toModel < y.toModel ↔ (decode x).lt (decode y) = true := Iff.rfl
  rw [hmodel, decide_eq_true_iff, hlt, UnpackedFloat.lt, beq_iff_eq]

/-- The order of patterns is that of numbers, save that minus zero comes before zero. -/
theorem orderKey_lt_iff {x y : Float32} (hx : x.isNaN = false) (hy : y.isNaN = false) :
    orderKey x < orderKey y ↔ x < y ∨ orderKey x = -1 ∧ orderKey y = 0 := by
  obtain ⟨s, n, hdecode, hplace⟩ := exists_stands hx
  obtain ⟨t, k, hdecode', hplace'⟩ := exists_stands hy
  rw [hplace, hplace', lt_iff_compare, hdecode.place_lt_iff hdecode']

theorem not_lt_negInfinity (x : Float32) : ¬ x < Float32.ofBits 0xFF800000 := by
  intro h
  have hcompare : (decode x).compare (.infinity .negative) = some .lt := lt_iff_compare.mp h
  cases hx : decode x with
  | infinity s =>
    rw [hx] at hcompare
    cases s <;> cases hcompare
  | notANumber | zero s | finite s m e hm =>
    rw [hx] at hcompare
    cases hcompare

end ProgramSearch.Single
