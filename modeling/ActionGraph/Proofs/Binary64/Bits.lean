import ActionGraph.Binary64.Basic
import Mathlib

/-!
A float and its bits. The float that is made from bits keeps their sign, their exponent and their digits,
so a float is made again from its own bits.
-/

namespace ActionGraph.Binary64

open Float.Model Float.Model.UnpackedFloat

variable {b : BitVec Format.binary64.numBits} {exponent : BitVec Format.binary64.exponentBits}
  {mantissa : BitVec Format.binary64.mantissaBitsWithoutImplicit}

theorem packComponents_parts (made : unpackExponent b = exponent)
    (digits : unpackMantissa b = mantissa) :
    packComponents .binary64 (Sign.ofBitVec (unpackSign b)) exponent mantissa = b := by
  have sign : ∀ v : BitVec 1, (Sign.ofBitVec v).toBitVec = v := by decide
  subst made digits
  simp only [packComponents, sign, unpackSign, unpackExponent, unpackMantissa, BitVec.extractLsb]
  ext i
  grind

/-- The digits of a float that is not among the smallest have a leading one that the bits leave out. -/
theorem toNat_leading (mantissa : BitVec 52) : (1#1 ++ mantissa).toNat = 2 ^ 52 + mantissa.toNat := by
  rw [BitVec.toNat_append, Nat.shiftLeft_eq, Nat.or_comm]
  exact (Nat.or_two_pow_eq_add_of_lt mantissa.isLt).trans (Nat.add_comm _ _)

theorem log2_leading {m : Nat} (low : 2 ^ 52 ≤ m) (high : m < 2 ^ 53) : m.log2 = 52 := by
  have some : m ≠ 0 := by omega
  apply Nat.le_antisymm
  · exact Nat.le_of_lt_succ ((Nat.log2_lt some).mpr high)
  · exact (Nat.le_log2 some).mpr low

theorem pack_small {sign : Sign} {m : Nat} {e : Int} (positive : 0 < m) (short : m < 2 ^ 52) (least : e = -1074) :
    UnpackedFloat.pack .binary64 (.finite sign m e positive) = packComponents .binary64 sign 0 (BitVec.ofNat 52 m) := by
  have digits : ¬ m.log2 + 1 = Format.binary64.mantissaBits := by
    have few : m.log2 < 52 := (Nat.log2_lt (by omega)).mpr short
    have all : Format.binary64.mantissaBits = 53 := rfl
    omega
  subst least
  rw [UnpackedFloat.pack, if_neg digits]
  exact if_neg (by decide)

theorem pack_large {sign : Sign} {m biased : Nat} {e : Int} (positive : 0 < m) (low : 2 ^ 52 ≤ m) (high : m < 2 ^ 53)
    (exponent : e = biased - 1075) (most : biased < 2047) :
    UnpackedFloat.pack .binary64 (.finite sign m e positive) =
      packComponents .binary64 sign (BitVec.ofNat 11 biased) (BitVec.ofNat 52 m) := by
  have digits : m.log2 + 1 = Format.binary64.mantissaBits := congrArg (· + 1) (log2_leading low high)
  have same : (e + Format.binary64.exponentBias + Format.binary64.mantissaBitsWithoutImplicit).toNat = biased := by
    have bias : Format.binary64.exponentBias = 1023 := rfl
    rw [bias]
    dsimp only
    omega
  rw [UnpackedFloat.pack, if_pos digits]
  dsimp only
  rw [same]
  exact if_neg (by omega)

theorem pack_unpack (valid : Format.binary64.Valid b) :
    UnpackedFloat.pack .binary64 (UnpackedFloat.unpack .binary64 b) = b := by
  have bound := (unpackMantissa b).isLt
  have room := (unpackExponent b).isLt
  simp only [Nat.reducePow] at bound room
  unfold UnpackedFloat.unpack
  dsimp only
  split
  · rename_i all
    split
    · exact packComponents_parts all ‹_›
    · exact (valid.eq_packedNaN all ‹_›).symm
  · rename_i some
    have notAll : (unpackExponent b).toNat ≠ 2047 := fun h => some (BitVec.eq_of_toNat_eq h)
    split
    · rename_i none
      split
      · exact packComponents_parts none ‹_›
      · have least : (unpackExponent b).toNat = 0 := by
          rw [none]
          rfl
        rw [pack_small _ bound (by rw [least]; rfl)]
        exact packComponents_parts none (by simp)
    · have leading := toNat_leading (unpackMantissa b)
      refine (pack_large _ (by omega) (by omega) rfl (by omega)).trans ?_
      apply packComponents_parts
      · simp
      · apply BitVec.eq_of_toNat_eq
        rw [BitVec.toNat_ofNat, leading]
        exact ((Nat.add_mod_left _ _).trans (Nat.mod_eq_of_lt bound)).symm

theorem ofBits_toBits (x : Float) : Float.ofBits x.toBits = x := by
  obtain ⟨bits, valid⟩ := x
  have packed := pack_unpack valid
  simp only [Float.ofBits, Float.toBits, Float.Model.ofBits, Float.Model.pack, packed]

end ActionGraph.Binary64
