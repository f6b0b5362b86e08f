import Mathlib.Algebra.Order.Floor.Ring
import Mathlib.Tactic.Linarith

/-!
# Numbers as integers

The conversion of a floating-point number to an `int`, for exact numbers: it drops the fraction.

## Main definitions

* `trunc`: the conversion

## Main results

* `trunc_le_iff`: when a truncated number is at most an integer
* `trunc_eq_zero_iff`: when a number is truncated to zero
-/

namespace Cpp

variable {K : Type} [Field K] [LinearOrder K] [FloorRing K]

/-- The conversion of a number to an `int`. -/
def trunc (a : K) : ℤ := if 0 ≤ a then ⌊a⌋ else ⌈a⌉

variable [IsStrictOrderedRing K] {a : K}

@[simp] theorem trunc_intCast (n : ℤ) : trunc (n : K) = n := by
  unfold trunc
  rw [Int.floor_intCast, Int.ceil_intCast, ite_self]

/-- A number that is truncated, below an integer. -/
theorem trunc_le_iff (n : ℤ) : trunc a ≤ n ↔ if 0 ≤ n then a < n + 1 else a ≤ n := by
  unfold trunc
  split
  · rename_i ha
    rw [← Int.lt_add_one_iff, Int.floor_lt, Int.cast_add, Int.cast_one]
    split
    · exact Iff.rfl
    · rename_i hn
      have hneg : (n : K) + 1 ≤ 0 := by
        rw [← Int.cast_one, ← Int.cast_add, ← Int.cast_zero, Int.cast_le]
        omega
      exact iff_of_false (not_lt.mpr (le_trans hneg ha)) (by linarith)
  · rename_i ha
    have ha : a < 0 := not_le.mp ha
    rw [Int.ceil_le]
    split
    · rename_i hn
      have hpos : (0 : K) ≤ n := by exact_mod_cast hn
      exact iff_of_true (by linarith) (by linarith)
    · exact Iff.rfl

/-- What is below one in magnitude is truncated to zero. -/
theorem trunc_eq_zero_iff : trunc a = 0 ↔ |a| < 1 := by
  unfold trunc
  split
  · rename_i ha
    rw [Int.floor_eq_zero_iff, Set.mem_Ico, and_iff_right ha, abs_of_nonneg ha]
  · rename_i ha
    have ha : a < 0 := not_le.mp ha
    rw [Int.ceil_eq_zero_iff, Set.mem_Ioc, and_iff_left ha.le, abs_of_neg ha, neg_lt]

/-- Truncation moves a number by less than one. -/
theorem sub_one_lt_trunc (a : K) : a - 1 < trunc a := by
  unfold trunc
  split
  · exact Int.sub_one_lt_floor a
  · exact lt_of_lt_of_le (sub_one_lt a) (Int.le_ceil a)

/-- A truncated number is not above a positive one that is not smaller. -/
theorem trunc_le {c : K} (hc : 0 ≤ c) (hac : a ≤ c) : (trunc a : K) ≤ c := by
  unfold trunc
  split
  · exact le_trans (Int.floor_le a) hac
  · rename_i ha
    have hneg : ⌈a⌉ ≤ 0 := Int.ceil_le.mpr (by simpa using (not_le.mp ha).le)
    exact le_trans (by exact_mod_cast hneg) hc

end Cpp
