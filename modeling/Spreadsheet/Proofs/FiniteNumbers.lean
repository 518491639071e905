import Mathlib
import Spreadsheet.Number
/-!
# Finite numbers

A float is finite unless its exponent is the greatest there is. So changing the
sign of a finite float leaves it finite, `isFinite_neg`, and so is any count that
fits into 64 bits, `isFinite_ofNat`. The text of a finite number has no letters,
`not_isAlpha_text`.
-/

namespace Spreadsheet.Number

open Float.Model
open Float.Model.UnpackedFloat (Sign Accuracy ExtendedMantissa shiftToTargetExponent
  roundWithAccuracy unpackExponent unpackExponent_packComponents packedZero)

/-- The float is zero, or it is a whole number times a power of two whose exponent is at most
`k`. -/
def Within (k : Int) : UnpackedFloat → Prop
  | .zero _ => True
  | .finite _ _ e _ => e ≤ k
  | _ => False

section
variable {k l : Int} {u : UnpackedFloat} {b : BitVec Format.binary64.numBits}

theorem Within.mono (h : Within k u) (hkl : k ≤ l) : Within l u := by
  cases u with
  | finite s m e hm => exact Int.le_trans h hkl
  | zero s => trivial
  | infinity s => exact h
  | notANumber => exact h

theorem Within.neg (h : Within k u) : Within k u.neg := by
  cases u <;> exact h

/-! ## Packing -/

theorem isFinite_unpack (h : unpackExponent b ≠ -1#11) :
    (UnpackedFloat.unpack Format.binary64 b).isFinite = true := by
  unfold UnpackedFloat.unpack
  dsimp only
  rw [if_neg h]
  split
  · split <;> rfl
  · rfl

/-- A float is unpacked to one whose exponent is what its exponent bits say. -/
theorem within_unpack (h : unpackExponent b ≠ -1#11) (hk : -1074 ≤ k)
    (hle : ((unpackExponent b).toNat : Int) - 1075 ≤ k) :
    Within k (UnpackedFloat.unpack Format.binary64 b) := by
  unfold UnpackedFloat.unpack
  dsimp only
  rw [if_neg h]
  split
  · rename_i hzero
    split
    · trivial
    · show ((unpackExponent b).toNat : Int) - 1075 + 1 ≤ k
      rw [hzero]
      exact hk
  · exact hle

/-- The exponent bits of a packed float are those of its exponent, or none. -/
theorem unpackExponent_pack (h : Within k u) (hk : -1074 ≤ k) (hk' : k ≤ 971) :
    unpackExponent (UnpackedFloat.pack Format.binary64 u) ≠ -1#11 ∧
      ((unpackExponent (UnpackedFloat.pack Format.binary64 u)).toNat : Int) - 1075 ≤ k := by
  have hzero : (0#11 : BitVec 11) ≠ -1#11 ∧ (((0#11 : BitVec 11).toNat : Nat) : Int) - 1075 ≤ k :=
    ⟨by decide, by simp; omega⟩
  unfold UnpackedFloat.pack
  split
  · exact h.elim
  · exact h.elim
  · rw [packedZero, unpackExponent_packComponents]
    exact hzero
  · rename_i s m e hm
    have he : e ≤ k := h
    have hexponent : (e + Format.binary64.exponentBias +
        Format.binary64.mantissaBitsWithoutImplicit).toNat + 1 < 2 ^ 11 := by
      simp [Format.exponentBias]
      omega
    dsimp only
    rw [if_neg (Nat.not_le.2 hexponent)]
    split
    · rw [unpackExponent_packComponents]
      have hnat : (BitVec.ofNat 11 (e + Format.binary64.exponentBias +
          Format.binary64.mantissaBitsWithoutImplicit).toNat).toNat = (e + 1075).toNat := by
        rw [BitVec.toNat_ofNat, Nat.mod_eq_of_lt (Nat.lt_of_succ_lt hexponent), Int.add_assoc]
        rfl
      have hsmall : (e + 1075).toNat + 1 < 2 ^ 11 := by omega
      constructor
      · intro heq
        rw [heq] at hnat
        rw [← hnat] at hsmall
        exact absurd hsmall (by decide)
      · refine Int.le_trans (Int.le_of_eq (congrArg (fun n : Nat => (n : Int) - 1075) hnat)) ?_
        omega
    · rw [unpackExponent_packComponents]
      exact hzero

theorem within_unpack_pack (h : Within k u) (hk : -1074 ≤ k) (hk' : k ≤ 971) :
    Within k (UnpackedFloat.unpack Format.binary64 (UnpackedFloat.pack Format.binary64 u)) := by
  obtain ⟨hones, hle⟩ := unpackExponent_pack h hk hk'
  exact within_unpack hones hk hle

theorem isFinite_pack (h : Within 971 u) : (Float.ofModel (Float.Model.pack u)).isFinite :=
  isFinite_unpack (unpackExponent_pack h (by decide) (Int.le_refl _)).1

theorem within_of_isFinite (h : (UnpackedFloat.unpack Format.binary64 b).isFinite) :
    Within 971 (UnpackedFloat.unpack Format.binary64 b) := by
  have hones : unpackExponent b ≠ -1#11 := by
    intro hones
    unfold UnpackedFloat.unpack at h
    dsimp only at h
    rw [if_pos hones] at h
    split at h <;> cases h
  have hlt : (unpackExponent b).toNat < 2047 := by
    refine Nat.lt_of_le_of_ne (Nat.le_of_lt_succ (unpackExponent b).isLt) ?_
    exact fun heq => hones (BitVec.eq_of_toNat_eq heq)
  refine within_unpack hones (by decide) ?_
  generalize (unpackExponent b).toNat = n at hlt ⊢
  omega

theorem mantissa_unpack {s : Sign} {m : Nat} {e : Int} {hm : 0 < m}
    (h : UnpackedFloat.unpack Format.binary64 b = .finite s m e hm) : m < 2 ^ 53 := by
  unfold UnpackedFloat.unpack at h
  dsimp only at h
  split at h
  · split at h <;> cases h
  · split at h
    · split at h
      · cases h
      · cases h
        exact Nat.lt_trans (BitVec.isLt _) (by decide)
    · cases h
      exact BitVec.isLt _

end

/-- Changing the sign of a finite float leaves it finite. -/
theorem isFinite_neg {x : Float} (h : x.isFinite) : (-x).isFinite :=
  isFinite_pack (Within.neg (within_of_isFinite (b := x.toModel.toBits.toBitVec) h))

/-! ## Rounding -/

theorem mantissa_shiftRight (em : ExtendedMantissa) (k : Nat) :
    (em >>> k).mantissa ≤ em.mantissa := by
  induction k with
  | zero => exact Nat.le_refl _
  | succ k ih => exact Nat.le_trans (Nat.div_le_self _ _) ih

theorem roundedMantissa_le (em : ExtendedMantissa) : em.roundedMantissa ≤ em.mantissa + 1 := by
  unfold ExtendedMantissa.roundedMantissa
  cases em.accuracy with
  | exact => exact Nat.le_succ _
  | inexact order =>
    cases order with
    | eq =>
      simp only [Accuracy.roundToNearestEven]
      omega
    | lt => exact Nat.le_succ _
    | gt => exact Nat.le_refl _

section
variable {m a : Nat} {e b : Int}

theorem log2_le (hm : m < 2 ^ a) : m.log2 ≤ a := by
  by_cases h0 : m = 0
  · simp [h0]
  · exact Nat.le_of_lt ((Nat.log2_lt h0).2 hm)

theorem shiftToTargetExponent_le (acc : Accuracy) (hm : m < 2 ^ a) (he : e ≤ b)
    (hb : -1074 ≤ b + a) :
    (shiftToTargetExponent Format.binary64 m e acc).1.mantissa ≤ m ∧
      (shiftToTargetExponent Format.binary64 m e acc).2 ≤ b + a := by
  have hlog := log2_le hm
  constructor
  · refine Nat.le_trans (mantissa_shiftRight _ _) ?_
    rcases acc with _ | _ | _ | _ <;> exact Nat.le_refl m
  · show e + _ ≤ _
    simp [Format.targetExponent, totalExponent, Format.mantissaBits, Format.minExponent]
    omega

/-- Rounding raises the exponent by no more than the bits of the mantissa, and the same again if
the mantissa carries over. -/
theorem within_roundWithAccuracy (s : Sign) (acc : Accuracy) (hm : m + 1 < 2 ^ a) (he : e ≤ b)
    (hb : -1074 ≤ b + a) : Within (b + 2 * a) (roundWithAccuracy Format.binary64 s m e acc) := by
  obtain ⟨hmantissa, hexponent⟩ := shiftToTargetExponent_le acc (Nat.lt_of_succ_lt hm) he hb
  unfold roundWithAccuracy
  generalize shiftToTargetExponent Format.binary64 m e acc = first at hmantissa hexponent ⊢
  have hrounded : first.1.roundedMantissa < 2 ^ a := by
    have := roundedMantissa_le first.1
    omega
  have hsecond := (shiftToTargetExponent_le .exact hrounded hexponent (by omega)).2
  dsimp only
  split
  · trivial
  · show _ ≤ _
    omega

/-- A product has an exponent no greater than the sum of both, but for the bits of the product of
the mantissas. -/
theorem within_mul {s t : Sign} {n : Nat} {f k : Int} {hm : 0 < m} {hn : 0 < n}
    (hmantissa : m * n + 1 < 2 ^ a) (he : e + f ≤ b) (hb : -1074 ≤ b + a) (hk : b + 2 * a ≤ k) :
    Within k (UnpackedFloat.mul Format.binary64 (.finite s m e hm) (.finite t n f hn)) :=
  (within_roundWithAccuracy _ .exact hmantissa he hb).mono hk

end

/-! ## Counts -/

section
variable {n : Nat}

/-- A count is shifted until it fills the mantissa, so far that it does not exceed it. -/
theorem shiftLeft_count_lt (h : n < 2 ^ 53) :
    n <<< (0 - Format.binary64.targetExponent (totalExponent n 0)).toNat + 1 < 2 ^ 54 := by
  rw [Nat.shiftLeft_eq]
  by_cases h0 : n = 0
  · simp [h0]
  · have hlog : n.log2 < 53 := (Nat.log2_lt h0).2 h
    have hshift : (0 - Format.binary64.targetExponent (totalExponent n 0)).toNat = 52 - n.log2 := by
      simp [Format.targetExponent, totalExponent, Format.mantissaBits, Format.minExponent]
      omega
    have hpow : 2 ^ (n.log2 + 1) * 2 ^ (52 - n.log2) = 2 ^ 53 := by
      rw [← Nat.pow_add]
      congr 1
      omega
    have hlt : n * 2 ^ (52 - n.log2) < 2 ^ (n.log2 + 1) * 2 ^ (52 - n.log2) :=
      Nat.mul_lt_mul_of_pos_right Nat.lt_log2_self (Nat.two_pow_pos _)
    rw [hshift]
    omega

theorem within_ofNat (h : n < 2 ^ 53) : Within 108 (UnpackedFloat.ofNat Format.binary64 n) := by
  unfold UnpackedFloat.ofNat UnpackedFloat.ofInt UnpackedFloat.normalize
  split
  · rename_i hlt
    have hneg : (n : Int) < 0 := Int.compare_eq_lt.1 hlt
    omega
  · trivial
  · exact within_roundWithAccuracy (b := 0) .positive .exact (shiftLeft_count_lt h)
      (Int.sub_le_self _ (Int.natCast_nonneg _)) (by decide)

theorem within_mul_one {u : UnpackedFloat} (h : Within 108 u)
    (hmantissa : ∀ s m e hm, u = .finite s m e hm → m < 2 ^ 53) :
    Within 971 (UnpackedFloat.mul Format.binary64 u
      (Float.ofBits 4607182418800017408).toModel.unpack) := by
  have hone : (Float.ofBits 4607182418800017408).toModel.unpack =
      .finite .positive (2 ^ 52) (-52) (by decide) := rfl
  rw [hone]
  cases u with
  | notANumber => exact h.elim
  | infinity s => exact h.elim
  | zero s => trivial
  | finite s m e hm =>
    have hm' : m < 2 ^ 53 := hmantissa s m e hm rfl
    have he : e ≤ 108 := h
    have hproduct : m * 2 ^ 52 + 1 < 2 ^ 106 := by omega
    exact within_mul (b := 56) hproduct (by omega) (by decide) (by decide)

/-- A count that fills no more than the mantissa is exact. -/
theorem isFinite_ofNat_small (h : n < 2 ^ 53) : (Float.ofNat n).isFinite := by
  have hcast : n.toUInt64.toNat = n := UInt64.toNat_ofNat_of_lt (Nat.lt_trans h (by decide))
  have hwithin : Within 108 (UnpackedFloat.ofNat Format.binary64 n.toUInt64.toNat) := by
    rw [hcast]
    exact within_ofNat h
  show (Float.ofScientific n false 0).isFinite
  unfold Float.ofScientific
  rw [dif_pos ⟨h, by decide⟩]
  exact isFinite_pack (within_mul_one (within_unpack_pack hwithin (by decide) (by decide))
    fun _ _ _ _ => mantissa_unpack)

/-- A greater count is shifted into the mantissa and rounded. -/
theorem within_ofScientific (h : n < 2 ^ 64) :
    Within 971 (UnpackedFloat.ofScientific Format.binary64 n 0) := by
  have hmantissa : n <<< Format.binary64.mantissaBits * 10 ^ (0 : Int).toNat + 1 < 2 ^ 118 := by
    have hbits : Format.binary64.mantissaBits = 53 := rfl
    rw [hbits, Nat.shiftLeft_eq, Int.toNat_zero]
    omega
  have hexponent : -(Format.binary64.mantissaBits : Int) + 0 ≤ -53 := Int.le_refl _
  have hpow : ¬ (0 : Int) > 2 ^ Format.binary64.exponentBits := by decide
  have hlog : ¬ (0 : Int) < -(2 ^ Format.binary64.exponentBits + (n.log2 : Int)) := by
    omega
  unfold UnpackedFloat.ofScientific
  by_cases h0 : n = 0
  · rw [dif_pos h0]
    trivial
  · rw [dif_neg h0, if_neg hpow, if_neg hlog, if_pos (Int.le_refl 0)]
    refine within_mul (a := 118) (b := -53) ?_ ?_ ?_ ?_
    · exact hmantissa
    · exact hexponent
    · decide
    · decide

/-- A count is finite as a float if it fits into 64 bits. -/
theorem isFinite_ofNat (h : n < 2 ^ 64) : (Float.ofNat n).isFinite := by
  by_cases hsmall : n < 2 ^ 53
  · exact isFinite_ofNat_small hsmall
  · show (Float.ofScientific n false 0).isFinite
    unfold Float.ofScientific
    rw [dif_neg fun h => hsmall h.1]
    exact isFinite_pack (within_ofScientific h)

end

/-! ## The text of a number -/

theorem isDigit_or_point_layout {digits : List Char} (h : ∀ c ∈ digits, c.isDigit)
    (exponent : Int) : ∀ c ∈ Decimal.layout digits exponent, c.isDigit ∨ c = '.' := by
  have hzeros : ∀ n, ∀ c ∈ List.replicate n '0', c.isDigit := by
    intro n c hc
    rw [(List.mem_replicate.1 hc).2]
    rfl
  intro c hc
  unfold Decimal.layout at hc
  split at hc
  · exact .inl ((List.mem_append.1 hc).elim (h c) (hzeros _ c))
  · dsimp only at hc
    split at hc
    · rcases List.mem_append.1 hc with hc | hc
      · exact .inl (h c (List.mem_of_mem_take hc))
      · rcases List.mem_cons.1 hc with rfl | hc
        · exact .inr rfl
        · exact .inl (h c (List.mem_of_mem_drop hc))
    · rcases List.mem_append.1 hc with hc | hc
      · rcases List.mem_cons.1 hc with rfl | hc
        · exact .inl rfl
        · rcases List.mem_cons.1 hc with rfl | hc
          · exact .inr rfl
          · exact .inl (hzeros _ c hc)
      · exact .inl (h c hc)

theorem isDigit_or_point_text (d : Decimal) : ∀ c ∈ d.text, c.isDigit ∨ c = '.' := by
  unfold Decimal.text
  refine isDigit_or_point_layout (fun c hc => ?_) _
  exact Nat.isDigit_of_mem_toDigits (by decide) (by decide) (List.mem_of_mem_take hc)

theorem not_isAlpha_of_isDigit_or_point {c : Char} (h : c.isDigit ∨ c = '.') : ¬ c.isAlpha := by
  rcases h with h | rfl
  · simp only [Char.isDigit, Char.isAlpha, Char.isUpper, Char.isLower, Bool.and_eq_true,
      Bool.or_eq_true, decide_eq_true_eq, ge_iff_le, UInt32.le_iff_toNat_le] at h ⊢
    simp only [UInt32.reduceToNat, Char.reduceVal] at h ⊢
    omega
  · decide

theorem kind_of_isFinite {x : Float} (h : x.isFinite) : x.isNaN = false ∧ x.isInf = false := by
  have hkind : ∀ u : UnpackedFloat, u.isFinite → u.isNaN = false ∧ u.isInf = false := by
    intro u hu
    cases u with
    | notANumber => cases hu
    | infinity s => cases hu
    | zero s => exact ⟨rfl, rfl⟩
    | finite s m e hm => exact ⟨rfl, rfl⟩
  exact hkind _ h

/-- The text of a finite number has no letters, so it is neither that of an infinity nor that of
what is no number. -/
theorem not_isAlpha_text {x : Float} (h : x.isFinite) : ∀ c ∈ (text x).toList, ¬ c.isAlpha := by
  obtain ⟨hnan, hinf⟩ := kind_of_isFinite h
  have hdigits : ∀ d : Decimal, ∀ c ∈ d.text, ¬ c.isAlpha :=
    fun d c hc => not_isAlpha_of_isDigit_or_point (isDigit_or_point_text d c hc)
  unfold text
  rw [hnan, hinf]
  dsimp only
  split
  · cases ‹_›
  · split
    · exact List.forall_mem_singleton.2 (by decide)
    · rw [String.toList_ofList]
      split
      · exact List.forall_mem_cons.2 ⟨by decide, hdigits _⟩
      · exact hdigits _

end Spreadsheet.Number
