import Mathlib.Algebra.Order.Floor.Ring
import Mathlib.Data.Int.Log
import Mathlib.Data.Rat.Floor
import Mathlib.Tactic.Linarith
import Mathlib.Tactic.Ring

namespace Pma.Rounding

/-!
# Binary floating point

Rounding to a number of binary digits, to the nearest and of two to the even one.
The exponent is not bounded, so this is arithmetic of a binary format as long as
nothing overflows or gets subnormal.  All that is needed of it is that it keeps
the order and what has few digits.
-/

/-! ## Integers -/

/-- The nearest integer, and the even one where there are two. -/
def nearest (x : ℚ) : ℤ :=
  if 2 * (x - ⌊x⌋) < 1 then
    ⌊x⌋
  else if 1 < 2 * (x - ⌊x⌋) then
    ⌊x⌋ + 1
  else if ⌊x⌋ % 2 = 0 then
    ⌊x⌋
  else
    ⌊x⌋ + 1

theorem floor_le_nearest (x : ℚ) : ⌊x⌋ ≤ nearest x := by
  unfold nearest
  split_ifs <;> omega

theorem nearest_le_floor_add_one (x : ℚ) : nearest x ≤ ⌊x⌋ + 1 := by
  unfold nearest
  split_ifs <;> omega

theorem nearest_intCast (n : ℤ) : nearest n = n := by
  unfold nearest
  rw [Int.floor_intCast, if_pos (by norm_num)]

theorem nearest_mono
    {x y : ℚ}
    (le : x ≤ y) :
    nearest x ≤ nearest y := by
  rcases (Int.floor_le_floor le).lt_or_eq with below | same
  · exact ((nearest_le_floor_add_one x).trans below).trans (floor_le_nearest y)
  · unfold nearest
    rw [same]
    split_ifs <;> first | omega | linarith

/-! ## Binary digits -/

/-- The unit of the last of the digits behind the first one. -/
def ulp (digits : ℕ) (x : ℚ) : ℚ :=
  2 ^ (Int.log 2 x - digits)

/-- A positive number with as many binary digits behind the first one. -/
def roundPositive (digits : ℕ) (x : ℚ) : ℚ :=
  nearest (x / ulp digits x) * ulp digits x

/-- A number with as many binary digits behind the first one. -/
def round (digits : ℕ) (x : ℚ) : ℚ :=
  if x < 0 then -roundPositive digits (-x) else roundPositive digits x

/-- To binary32. -/
def single (x : ℚ) : ℚ :=
  round 23 x

/-- To binary64. -/
def double (x : ℚ) : ℚ :=
  round 52 x

/-- What remains of a number when it becomes an integer. -/
def truncate (x : ℚ) : ℤ :=
  if x < 0 then ⌈x⌉ else ⌊x⌋

variable {digits : ℕ} {x y : ℚ}

theorem ulp_pos (digits : ℕ) (x : ℚ) : 0 < ulp digits x := by
  unfold ulp
  exact zpow_pos (by norm_num) _

theorem round_of_nonneg
    (nonnegative : 0 ≤ x) :
    round digits x = roundPositive digits x :=
  if_neg (not_lt.mpr nonnegative)

/-- What is a number of units is kept. -/
theorem roundPositive_of_units
    {n : ℤ}
    (units : x = n * ulp digits x) :
    roundPositive digits x = x := by
  have quotient : x / ulp digits x = n := by
    rw [div_eq_iff (ulp_pos digits x).ne']
    exact units
  unfold roundPositive
  rw [quotient, nearest_intCast]
  exact units.symm

/-- A power of two from the binade on stays below what is rounded. -/
theorem le_roundPositive
    (positive : 0 < x) :
    2 ^ Int.log 2 x ≤ roundPositive digits x := by
  have first : (2 : ℚ) ^ Int.log 2 x ≤ x := Int.zpow_log_le_self (by norm_num) positive
  have units : (2 : ℚ) ^ Int.log 2 x = ((2 ^ digits : ℤ) : ℚ) * ulp digits x := by
    unfold ulp
    push_cast
    rw [← zpow_natCast, ← zpow_add₀ (by norm_num)]
    congr 1
    omega
  have quotient : ((2 ^ digits : ℤ) : ℚ) ≤ x / ulp digits x := by
    rw [le_div_iff₀ (ulp_pos digits x), ← units]
    exact first
  have rounded := nearest_mono quotient
  rw [nearest_intCast] at rounded
  rw [units]
  exact mul_le_mul_of_nonneg_right (by exact_mod_cast rounded) (ulp_pos digits x).le

/-- And the next power stays above. -/
theorem roundPositive_le
    (digits : ℕ)
    (x : ℚ) :
    roundPositive digits x ≤ 2 ^ (Int.log 2 x + 1) := by
  have last : x < (2 : ℚ) ^ (Int.log 2 x + 1) := Int.lt_zpow_succ_log_self (by norm_num) x
  have units :
      (2 : ℚ) ^ (Int.log 2 x + 1) = ((2 ^ (digits + 1) : ℤ) : ℚ) * ulp digits x := by
    unfold ulp
    push_cast
    rw [← zpow_natCast, ← zpow_add₀ (by norm_num)]
    congr 1
    push_cast
    omega
  have quotient : x / ulp digits x ≤ ((2 ^ (digits + 1) : ℤ) : ℚ) := by
    rw [div_le_iff₀ (ulp_pos digits x), ← units]
    exact last.le
  have rounded := nearest_mono quotient
  rw [nearest_intCast] at rounded
  rw [units]
  exact mul_le_mul_of_nonneg_right (by exact_mod_cast rounded) (ulp_pos digits x).le

theorem roundPositive_mono
    (positive : 0 < x)
    (le : x ≤ y) :
    roundPositive digits x ≤ roundPositive digits y := by
  have logs : Int.log 2 x ≤ Int.log 2 y := Int.log_mono_right positive le
  rcases logs.lt_or_eq with below | same
  · calc roundPositive digits x
        ≤ 2 ^ (Int.log 2 x + 1) := roundPositive_le digits x
      _ ≤ 2 ^ Int.log 2 y := zpow_le_zpow_right₀ (by norm_num) below
      _ ≤ roundPositive digits y := le_roundPositive (lt_of_lt_of_le positive le)
  · have units : ulp digits x = ulp digits y := by
      unfold ulp
      rw [same]
    unfold roundPositive
    rw [units]
    refine mul_le_mul_of_nonneg_right ?_ (ulp_pos digits y).le
    exact_mod_cast nearest_mono (div_le_div_of_nonneg_right le (ulp_pos digits y).le)

theorem round_zero (digits : ℕ) : round digits 0 = 0 := by
  rw [round_of_nonneg (le_refl 0)]
  exact roundPositive_of_units (n := 0) (by rw [Int.cast_zero, zero_mul])

/-- Rounding keeps the order of what is not negative. -/
theorem round_mono
    (nonnegative : 0 ≤ x)
    (le : x ≤ y) :
    round digits x ≤ round digits y := by
  rcases nonnegative.lt_or_eq with positive | rfl
  · rw [round_of_nonneg nonnegative, round_of_nonneg (nonnegative.trans le)]
    exact roundPositive_mono positive le
  · rw [round_zero, round_of_nonneg le]
    rcases le.lt_or_eq with positive | rfl
    · exact (zpow_nonneg (by norm_num) _).trans (le_roundPositive positive)
    · rw [← round_of_nonneg (le_refl 0), round_zero]

/-- A natural number that has few enough digits is kept. -/
theorem round_natCast
    {n : ℕ}
    (few : n < 2 ^ (digits + 1)) :
    round digits n = n := by
  rw [round_of_nonneg (Nat.cast_nonneg n)]
  have log : Nat.log 2 n ≤ digits := Nat.lt_succ_iff.mp (Nat.log_lt_of_lt_pow' (by omega) few)
  refine roundPositive_of_units (n := n * 2 ^ (digits - Nat.log 2 n)) ?_
  unfold ulp
  rw [Int.log_natCast]
  push_cast
  rw [mul_assoc, ← zpow_natCast, ← zpow_add₀ (by norm_num), Nat.cast_sub log]
  have exponent :
      ((digits : ℤ) - (Nat.log 2 n : ℤ)) + ((Nat.log 2 n : ℤ) - (digits : ℤ)) = 0 := by
    omega
  rw [exponent, zpow_zero, mul_one]

/-- Rounding stays above a natural number with few digits. -/
theorem natCast_le_round
    {n : ℕ}
    (few : n < 2 ^ (digits + 1))
    (above : (n : ℚ) ≤ x) :
    (n : ℚ) ≤ round digits x :=
  calc (n : ℚ)
      = round digits n := (round_natCast few).symm
    _ ≤ round digits x := round_mono (Nat.cast_nonneg n) above

/-- And below one. -/
theorem round_le_natCast
    {n : ℕ}
    (few : n < 2 ^ (digits + 1))
    (nonnegative : 0 ≤ x)
    (below : x ≤ n) :
    round digits x ≤ n :=
  calc round digits x
      ≤ round digits n := round_mono nonnegative below
    _ = n := round_natCast few

theorem round_nonneg
    (digits : ℕ)
    (nonnegative : 0 ≤ x) :
    0 ≤ round digits x := by
  rw [← round_zero digits]
  exact round_mono (le_refl 0) nonnegative

end Pma.Rounding
