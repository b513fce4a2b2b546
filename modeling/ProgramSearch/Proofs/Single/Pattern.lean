import Mathlib
import ProgramSearch.Embedding

/-!
# Patterns of single-precision numbers

A pattern of 32 bits and what it stands for determine each other. A score that is neither finite
nor above zero comes after every finite score in the order of patterns.
-/
namespace ProgramSearch.Single

open Float.Model (Format UnpackedFloat)
open Float.Model.UnpackedFloat

def pattern (x : Float32) : BitVec Format.binary32.numBits := x.toBits.toBitVec

/-- What the pattern of a number stands for. -/
def decode (x : Float32) : UnpackedFloat := unpack .binary32 (pattern x)

theorem pack_finite (s : Sign) (m : Nat) (e : Int) (hm : 0 < m) :
    pack .binary32 (.finite s m e hm) =
      if 2 ^ 8 ≤ (e + 150).toNat + 1 then packedInfinity .binary32 s
      else packComponents .binary32 s
        (if m.log2 + 1 = 24 then BitVec.ofNat 8 (e + 150).toNat else 0#8) (BitVec.ofNat 23 m) := by
  have hbias : Format.binary32.exponentBias = 127 := rfl
  have hbits : Format.binary32.mantissaBits = 24 := rfl
  have hbiased : (e + (127 : Nat) + (23 : Nat)).toNat = (e + 150).toNat := by omega
  simp only [pack, hbias, hbits, hbiased]
  split
  · rfl
  · split <;> rfl

/-- A pattern is recovered from what it stands for. -/
theorem pack_decode (x : Float32) : pack .binary32 (decode x) = pattern x :=
  pack_unpack_of_valid x.toModel.valid

theorem decode_inj {x y : Float32} (h : decode x = decode y) : x = y := by
  have hpattern : pattern x = pattern y := by rw [← pack_decode x, h, pack_decode y]
  obtain ⟨⟨⟨b⟩, _⟩⟩ := x
  obtain ⟨⟨⟨c⟩, _⟩⟩ := y
  obtain rfl : b = c := hpattern
  rfl

/-- A result after it was stored as a pattern. -/
def stored (u : UnpackedFloat) : UnpackedFloat := unpack .binary32 (pack .binary32 u)

theorem decode_add (x y : Float32) :
    decode (x + y) = stored (add .binary32 (decode x) (decode y)) := rfl

@[simp] theorem stored_infinity (s : Sign) : stored (.infinity s) = .infinity s := by
  cases s <;> rfl

@[simp] theorem stored_zero (s : Sign) : stored (.zero s) = .zero s := by
  cases s <;> rfl

@[simp] theorem stored_notANumber : stored .notANumber = .notANumber := rfl

/-- A pattern stands for the number: it is stored unchanged, and its exponent is in range. -/
structure Held (u : UnpackedFloat) : Prop where
  stored_eq : stored u = u
  low : ∀ {s m e hm}, u = .finite s m e hm → -149 ≤ e

theorem exponent_ge (x : Float32) {s : Sign} {m : Nat} {e : Int} {hm : 0 < m}
    (h : decode x = .finite s m e hm) : -149 ≤ e := by
  have hbias : Format.binary32.exponentBias = 127 := rfl
  simp only [decode, unpack, hbias] at h
  split at h
  · split at h <;> contradiction
  · split at h
    · split at h
      · contradiction
      · injection h
        omega
    · next hne =>
      have hpos := mt BitVec.eq_of_toNat_eq hne
      rw [BitVec.toNat_ofNat, Nat.zero_mod] at hpos
      injection h
      omega

theorem held_decode (x : Float32) : Held (decode x) :=
  ⟨congrArg (unpack .binary32) (pack_decode x), exponent_ge x⟩

/-! ### Above zero -/

def isAbove : UnpackedFloat → Bool
  | .infinity .positive => true
  | .finite .positive .. => true
  | _ => false

theorem zero_lt_iff (x : Float32) : 0 < x ↔ isAbove (decode x) = true := by
  have h : 0 < x ↔ (UnpackedFloat.zero .positive).lt (decode x) = true := by
    change decide (Float32.toModel 0 < x.toModel) = true ↔ _
    rw [decide_eq_true_iff]
    rfl
  rw [h]
  cases decode x with
  | notANumber => decide
  | infinity s => cases s <;> decide
  | zero s => cases s <;> decide
  | finite s m e hm => cases s <;> simp [UnpackedFloat.lt, UnpackedFloat.compare, isAbove]

/-! ### The order of patterns -/

theorem toNat_unpackExponent (b : BitVec Format.binary32.numBits) :
    (unpackExponent b).toNat = b.toNat / 2 ^ 23 % 2 ^ 8 := by
  simp [unpackExponent, Nat.shiftRight_eq_div_pow]

/-- The patterns of finite numbers are below those of the infinity of their sign. -/
theorem toNat_toBits_of_isFinite {x : Float32} (h : x.isFinite = true) :
    x.toBits.toNat < 0x7F800000 ∨ 0x80000000 ≤ x.toBits.toNat ∧ x.toBits.toNat < 0xFF800000 := by
  have hexponent : (unpackExponent (pattern x)).toNat ≠ 2 ^ 8 - 1 := by
    intro hlast
    have hall : unpackExponent (pattern x) = -1#8 := BitVec.eq_of_toNat_eq hlast
    change (decode x).isFinite = true at h
    rw [decode, unpack, if_pos hall] at h
    split at h <;> contradiction
  rw [toNat_unpackExponent] at hexponent
  have hlt : x.toBits.toNat < 2 ^ 32 := x.toBits.toNat_lt
  change x.toBits.toNat / 2 ^ 23 % 2 ^ 8 ≠ 2 ^ 8 - 1 at hexponent
  omega

theorem isNaN_of_isFinite {x : Float32} (h : x.isFinite = true) : x.isNaN = false := by
  change (decode x).isFinite = true at h
  change (decode x).isNaN = false
  cases hx : decode x with
  | notANumber =>
    rw [hx] at h
    contradiction
  | _ => rfl

/-- A score that is neither finite nor above zero comes after all finite ones. -/
theorem orderKey_lt {x y : Float32} (hx : x.isFinite = true) (hy : y.isFinite = false)
    (habove : ¬ 0 < y) : orderKey y < orderKey x := by
  have hbits := toNat_toBits_of_isFinite hx
  have hxkey : -(0x7F800000 : Int) ≤ orderKey x := by
    rw [orderKey, orderBits, isNaN_of_isFinite hx]
    simp only [Bool.false_eq_true, if_false]
    split <;> omega
  have hykey : orderKey y ≤ -(0x7F800000 : Int) - 1 := by
    rw [zero_lt_iff] at habove
    change (decode y).isFinite = false at hy
    cases hdecoded : decode y with
    | notANumber =>
      obtain rfl : y = Float32.ofBits 0x7FC00000 := decode_inj hdecoded
      decide
    | infinity s =>
      cases s with
      | positive =>
        rw [hdecoded] at habove
        contradiction
      | negative =>
        obtain rfl : y = Float32.ofBits 0xFF800000 := decode_inj hdecoded
        decide
    | zero s =>
      rw [hdecoded] at hy
      contradiction
    | finite s m e hm =>
      rw [hdecoded] at hy
      contradiction
  omega

end ProgramSearch.Single
