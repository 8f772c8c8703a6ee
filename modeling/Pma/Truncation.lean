import Mathlib.Data.Int.ModEq

namespace Pma.Truncation

/-!
# Numbers in variables of a width

An integer that is assigned to an unsigned variable is reduced modulo the power
of two of its width, and an unsigned number in a signed variable keeps its bits.
Nothing here mentions a particular program.
-/

/-- A 32-bit variable keeps the rest modulo `2 ^ 32`. -/
theorem toNat_ofInt32 (number : Int) :
    ((UInt32.ofInt number).toNat : Int) = number % 2 ^ 32 := by
  have low := Int.emod_nonneg number (b := 2 ^ 32) (by decide)
  have high := Int.emod_lt_of_pos number (b := 2 ^ 32) (by decide)
  have within : (number % 2 ^ 32).toNat < UInt32.size := by
    change (number % 2 ^ 32).toNat < 2 ^ 32
    omega
  unfold UInt32.ofInt
  rw [UInt32.toNat_ofNat_of_lt' within]
  exact Int.toNat_of_nonneg low

/-- A 64-bit variable keeps the rest modulo `2 ^ 64`. -/
theorem toNat_ofInt64 (number : Int) :
    ((UInt64.ofInt number).toNat : Int) = number % 2 ^ 64 := by
  have low := Int.emod_nonneg number (b := 2 ^ 64) (by decide)
  have high := Int.emod_lt_of_pos number (b := 2 ^ 64) (by decide)
  have within : (number % 2 ^ 64).toNat < UInt64.size := by
    change (number % 2 ^ 64).toNat < 2 ^ 64
    omega
  unfold UInt64.ofInt
  rw [UInt64.toNat_ofNat_of_lt' within]
  exact Int.toNat_of_nonneg low

/-- A signed variable keeps an unsigned number that has no bit for the sign. -/
theorem toInt_toInt32
    {number : UInt32}
    (fits : number.toNat < 2 ^ 31) :
    number.toInt32.toInt = number.toNat := by
  change number.toBitVec.toInt = number.toBitVec.toNat
  exact BitVec.toInt_eq_toNat_of_lt (by
    change 2 * number.toNat < 2 ^ 32
    omega)

/-- And any other number is below zero there. -/
theorem toInt_toInt32_neg
    {number : UInt32}
    (large : 2 ^ 31 ≤ number.toNat) :
    number.toInt32.toInt < 0 := by
  change number.toBitVec.toInt < 0
  rw [BitVec.toInt_eq_toNat_cond, if_neg (by
    change ¬2 * number.toNat < 2 ^ 32
    omega)]
  have below : number.toBitVec.toNat < 2 ^ 32 := number.toBitVec.isLt
  omega

/-- A sum with an unsigned number is right if it has no bit for the sign. -/
theorem toInt_add_toInt32
    {first : Int32}
    {second : UInt32}
    (nonnegative : 0 ≤ first.toInt)
    (fits : first.toInt + second.toNat < 2 ^ 31) :
    (first + second.toInt32).toInt = first.toInt + second.toNat := by
  rw [Int32.toInt_add, toInt_toInt32 (by omega)]
  exact Int.bmod_eq_of_le (by omega) (by omega)

/-- A signed number that is not negative is the same as an unsigned one. -/
theorem toNat_toUInt32
    {number : Int32}
    (nonnegative : 0 ≤ number.toInt) :
    (number.toUInt32.toNat : Int) = number.toInt := by
  rw [Int32.toNat_toUInt32_of_le (Int32.le_iff_toInt_le.mpr nonnegative)]
  exact Int.toNat_of_nonneg nonnegative

end Pma.Truncation
