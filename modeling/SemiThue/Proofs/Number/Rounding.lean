/-
Rounding, to whole numbers and to the numbers of the binary format.

The nearest whole number is never further away than a half, and a whole number is its own nearest one. The binary
format holds every natural number below 2 ^ 53, because 53 binary digits are enough for it: the last one that the
format keeps has a weight of one or less, so the number is a whole multiple of it and rounding has nothing to do.
From there on whole numbers get lost.
-/
import Mathlib.Data.Rat.Floor
import Mathlib.Tactic.FieldSimp
import Mathlib.Tactic.Linarith
import Mathlib.Tactic.Positivity
import Mathlib.Tactic.Ring
import SemiThue.Number.Binary64

set_option autoImplicit false

namespace SemiThue.Number

variable {q : Rat}

/-! ## The nearest whole number -/

/-- **A number is at most a half away from the nearest whole number.** -/
theorem abs_nearestInt_sub_le (q : Rat) : |(nearestInt q : Rat) - q| ≤ 1 / 2 := by
  have above := Rat.floor_le q
  have below := Rat.lt_floor_add_one q
  push_cast at below
  rw [abs_le]
  simp only [nearestInt]
  by_cases low : q - q.floor < 1 / 2
  · rw [if_pos low]
    constructor <;> linarith
  · rw [if_neg low]
    by_cases high : 1 / 2 < q - q.floor
    · rw [if_pos high]
      push_cast
      constructor <;> linarith
    · rw [if_neg high]
      -- halfway, both neighbours will do
      by_cases even : q.floor % 2 = 0
      · rw [if_pos even]
        constructor <;> linarith
      · rw [if_neg even]
        push_cast
        constructor <;> linarith

theorem nearestInt_intCast (n : Int) : nearestInt n = n := by
  have none_left : (n : Rat) - (n : Rat).floor < 1 / 2 := by
    rw [Rat.floor_intCast, sub_self]
    norm_num
  rw [nearestInt, if_pos none_left, Rat.floor_intCast]

theorem nearestInt_nonneg (nonneg : 0 ≤ q) : 0 ≤ nearestInt q := by
  have near := (abs_le.1 (abs_nearestInt_sub_le q)).1
  have low : (-1 : Rat) < nearestInt q := by linarith
  have low : -1 < nearestInt q := by exact_mod_cast low
  omega

/-- Behind an odd number the upper half is rounded up, and what lies halfway is too. -/
theorem nearestInt_eq_add_one_iff {n : Int} (odd : n % 2 = 1) (low : (n : Rat) ≤ q) (high : q < n + 1) :
    nearestInt q = n + 1 ↔ (n : Rat) + 1 / 2 ≤ q := by
  have floor : q.floor = n := Int.floor_eq_iff.2 ⟨low, high⟩
  have not_even : ¬n % 2 = 0 := by omega
  simp only [nearestInt, floor, if_neg not_even]
  by_cases before : q - n < 1 / 2
  · rw [if_pos before]
    constructor
    · intro same
      omega
    · intro behind
      linarith
  · rw [if_neg before, ite_self]
    constructor
    · intro _
      linarith
    · intro _
      rfl

/-! ## The nearest number of the binary format -/

theorem twoPow_pos (e : Int) : 0 < twoPow e := by
  unfold twoPow
  split <;> positivity

theorem twoPow_of_nonpos {e : Int} (small : e ≤ 0) : twoPow e = 1 / 2 ^ (-e).toNat := by
  unfold twoPow
  by_cases one : 0 ≤ e
  · obtain rfl : e = 0 := by omega
    norm_num
  · rw [if_neg one]

theorem nearestBinary64_nonneg (nonneg : 0 ≤ q) : 0 ≤ nearestBinary64 q := by
  have scale := twoPow_pos (lastExponent q)
  unfold nearestBinary64
  by_cases zero : q = 0
  · rw [if_pos zero]
  · rw [if_neg zero, if_neg (not_lt.2 nonneg)]
    have multiple := nearestInt_nonneg (div_nonneg nonneg scale.le)
    have multiple : (0 : Rat) ≤ nearestInt (q / twoPow (lastExponent q)) := by exact_mod_cast multiple
    exact mul_nonneg multiple scale.le

/-- The last digit that the format keeps of a natural number with at most 53 digits is no further left than the
units. -/
theorem lastExponent_natCast_nonpos {n : Nat} (few : n < 2 ^ 53) : lastExponent n ≤ 0 := by
  have size : n.log2 ≤ 52 := by
    by_cases zero : n = 0
    · rw [zero, Nat.log2_zero]
      omega
    · have := (Nat.log2_lt zero).2 few
      omega
  have digits : (n : Rat).num.natAbs.log2 = n.log2 := by rw [Rat.num_natCast, Int.natAbs_natCast]
  have whole : (n : Rat).den.log2 = 0 := by
    rw [Rat.den_natCast]
    decide
  simp only [lastExponent, digits, whole, leastExponent]
  by_cases zero : n = 0
  · split <;> omega
  · -- the number is not smaller than the power of two with as many digits
    have reached : ¬(n : Rat) < twoPow ((n.log2 : Int) - (0 : Nat)) := by
      rw [not_lt, Nat.cast_zero, sub_zero, twoPow, if_pos (Int.natCast_nonneg _), Int.toNat_natCast]
      exact_mod_cast Nat.log2_self_le zero
    rw [if_neg reached]
    omega

/-- **The binary format holds the natural numbers below 2 ^ 53.** -/
theorem nearestBinary64_natCast {n : Nat} (few : n < 2 ^ 53) : nearestBinary64 n = n := by
  unfold nearestBinary64
  by_cases zero : (n : Rat) = 0
  · rw [if_pos zero, zero]
  · rw [if_neg zero, if_neg (not_lt.2 (Nat.cast_nonneg n)), twoPow_of_nonpos (lastExponent_natCast_nonpos few)]
    generalize (-lastExponent (n : Rat)).toNat = places
    have scaled : (n : Rat) / (1 / 2 ^ places) = ((n * 2 ^ places : Int) : Rat) := by
      push_cast
      field_simp
    rw [scaled, nearestInt_intCast]
    push_cast
    field_simp

end SemiThue.Number
