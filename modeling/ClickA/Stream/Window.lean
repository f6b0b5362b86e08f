import Mathlib.Algebra.BigOperators.Intervals
import Mathlib.Algebra.Order.BigOperators.Group.Finset
import Mathlib.Data.Rat.Floor
import Mathlib.Tactic.Linarith

/-!
# Sums over a window

The sum of the values around a place of a sequence, which goes on with its first and its last value
beyond its ends, and their mean as an integer. A window that moves gains a value and loses one.

## Main definitions

* `windowSum`, `windowMean`: the sum and the nearest integer to the mean

## Main results

* `windowSum_zero`, `windowSum_succ`: the first window, and one that moves
* `windowMean_eq`: the mean without fractions
* `windowMean_le`: it is bounded as the values are
-/

namespace Stream

variable {f : ℕ → ℕ} {r n j c : ℕ}

/-- The sum over the window around the place `j` of a sequence of length `n`. -/
def windowSum (r n : ℕ) (f : ℕ → ℕ) (j : ℕ) : ℕ :=
  ∑ k ∈ Finset.range (2 * r + 1), f (min (j + k - r) (n - 1))

/-- The nearest integer to the mean. There is only one: the window has an odd width. -/
def windowMean (r n : ℕ) (f : ℕ → ℕ) (j : ℕ) : ℕ :=
  (round ((windowSum r n f j : ℚ) / (2 * r + 1 : ℕ))).toNat

theorem windowSum_congr {g : ℕ → ℕ} (hn : 0 < n) (h : ∀ j < n, f j = g j) :
    windowSum r n f j = windowSum r n g j :=
  Finset.sum_congr rfl fun _ _ => h _ (by omega)

/-- The first window, with the value that it loses and without the one that it gains. -/
theorem windowSum_zero (hr : r < n) :
    windowSum r n f 0 + f 0 = ((r + 1) * f 0 + ∑ j ∈ Finset.range r, f j) + f r := by
  have hbefore : ∑ k ∈ Finset.range r, f (min (0 + k - r) (n - 1)) = r * f 0 := by
    rw [Finset.sum_const_nat fun k hk => ?_, Finset.card_range]
    congr 1
    have hlt := Finset.mem_range.mp hk
    omega
  have hbehind : ∑ k ∈ Finset.range (r + 1), f (min (0 + (r + k) - r) (n - 1))
      = ∑ k ∈ Finset.range r, f k + f r := by
    rw [← Finset.sum_range_succ]
    refine Finset.sum_congr rfl fun k hk => ?_
    congr 1
    have hlt := Finset.mem_range.mp hk
    omega
  rw [windowSum, show 2 * r + 1 = r + (r + 1) by omega, Finset.sum_range_add, hbefore, hbehind]
  ring

/-- A window that moves gains the value at its new end and loses the one at its old end. -/
theorem windowSum_succ (r n : ℕ) (f : ℕ → ℕ) (j : ℕ) :
    windowSum r n f (j + 1) + f (min (j - r) (n - 1))
      = windowSum r n f j + f (min (j + 1 + r) (n - 1)) := by
  have hlast : j + (2 * r + 1) - r = j + 1 + r := by omega
  have hfirst : j + 0 - r = j - r := by omega
  calc windowSum r n f (j + 1) + f (min (j - r) (n - 1))
      = ∑ k ∈ Finset.range (2 * r + 1), f (min (j + (k + 1) - r) (n - 1))
          + f (min (j + 0 - r) (n - 1)) := by
        rw [hfirst, windowSum]
        simp only [Nat.add_right_comm j 1, Nat.add_assoc]
    _ = ∑ k ∈ Finset.range (2 * r + 1 + 1), f (min (j + k - r) (n - 1)) :=
        (Finset.sum_range_succ' (fun k => f (min (j + k - r) (n - 1))) _).symm
    _ = windowSum r n f j + f (min (j + 1 + r) (n - 1)) := by
        rw [Finset.sum_range_succ, hlast, windowSum]

theorem windowSum_le (hn : 0 < n) (h : ∀ j < n, f j ≤ c) :
    windowSum r n f j ≤ (2 * r + 1) * c := by
  calc windowSum r n f j ≤ ∑ _k ∈ Finset.range (2 * r + 1), c :=
        Finset.sum_le_sum fun _ _ => h _ (by omega)
    _ = (2 * r + 1) * c := by rw [Finset.sum_const_nat fun _ _ => rfl, Finset.card_range]

/-- A mean and a half as a fraction. -/
theorem mean_add_half (S r : ℕ) : (S : ℚ) / (2 * r + 1 : ℕ) + 1 / 2
    = (2 * S + (2 * r + 1) : ℕ) / (2 * (2 * r + 1) : ℕ) := by
  have hpos : (0 : ℚ) < (2 * r + 1 : ℕ) := by exact_mod_cast Nat.succ_pos _
  push_cast at hpos ⊢
  field_simp

/-- The nearest integer without fractions. -/
theorem windowMean_eq (r n : ℕ) (f : ℕ → ℕ) (j : ℕ) :
    windowMean r n f j = (2 * windowSum r n f j + (2 * r + 1)) / (2 * (2 * r + 1)) := by
  rw [windowMean, round_eq, mean_add_half, Rat.floor_natCast_div_natCast]
  exact Int.toNat_natCast _

theorem nearest_le {S : ℕ} (h : S ≤ (2 * r + 1) * c) :
    (2 * S + (2 * r + 1)) / (2 * (2 * r + 1)) ≤ c := by
  rw [← Nat.lt_succ_iff, Nat.div_lt_iff_lt_mul (by omega)]
  calc 2 * S + (2 * r + 1) ≤ 2 * ((2 * r + 1) * c) + (2 * r + 1) := by omega
    _ < (c + 1) * (2 * (2 * r + 1)) := by
      ring_nf
      omega

/-- A bound of the values is one of their mean. -/
theorem windowMean_le (hn : 0 < n) (h : ∀ j < n, f j ≤ c) : windowMean r n f j ≤ c := by
  rw [windowMean_eq]
  exact nearest_le (windowSum_le hn h)

end Stream
