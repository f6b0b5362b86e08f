import Mathlib.Algebra.Order.Field.Power
import Mathlib.Data.Int.Log
import Mathlib.Data.Rat.Floor
import Mathlib.Tactic.Linarith
import Mathlib.Tactic.NormNum
import Mathlib.Tactic.Positivity
import Mathlib.Tactic.Ring

/-!
# Single precision

A number as a `float`: the nearest one, and the even one of two that are as near. What is too large
becomes the largest `float`, as where a stream reads a number.

## Main definitions

* `roundEven`: the nearest integer
* `binary32`: the nearest `float`

## Main results

* `le_roundEven_iff`: when a number is rounded to an even integer or more
* `abs_binary32_sub_le_two_zpow`, `abs_binary32_sub_le_mul`: how far a `float` is from the number
* `binary32_natCast`: an integer of 24 bits is a `float`
* `one_le_abs_binary32_iff`: when a number becomes a `float` that is not below one
-/

namespace Cpp

/-- The nearest integer, and the even one of two. -/
def roundEven (q : ℚ) : ℤ :=
  if Int.fract q < 1 / 2 ∨ Int.fract q = 1 / 2 ∧ Even ⌊q⌋ then ⌊q⌋ else ⌊q⌋ + 1

/-- The distance between the `float`s next to a number: they have 24 bits, of which the last is not
below the 149th behind the point. -/
def ulp (x : ℚ) : ℚ := 2 ^ max (Int.log 2 |x| - 23) (-149)

/-- The largest `float`. -/
def maxFloat : ℚ := (2 ^ 24 - 1) * 2 ^ 104

/-- A number as a `float`. -/
def binary32 (x : ℚ) : ℚ :=
  let magnitude := min (roundEven (|x| / ulp x) * ulp x) maxFloat
  if x < 0 then -magnitude else magnitude

variable {q x : ℚ} {n : ℤ}

theorem floor_le_roundEven (q : ℚ) : ⌊q⌋ ≤ roundEven q := by
  unfold roundEven
  split_ifs
  · exact le_rfl
  · exact Int.le_add_one le_rfl

theorem roundEven_nonneg (h : 0 ≤ q) : 0 ≤ roundEven q :=
  (Int.floor_nonneg.mpr h).trans (floor_le_roundEven q)

/-- A number is rounded to an even integer or more from half below it on. -/
theorem le_roundEven_iff (hn : Even n) : n ≤ roundEven q ↔ (n : ℚ) - 1 / 2 ≤ q := by
  have hfract := Int.floor_add_fract q
  have hlow := Int.fract_nonneg q
  have hhigh := Int.fract_lt_one q
  rcases lt_trichotomy ⌊q⌋ (n - 1) with hfloor | hfloor | hfloor
  · have hcast : (⌊q⌋ : ℚ) + 1 ≤ n - 1 := by exact_mod_cast hfloor
    refine iff_of_false ?_ (by linarith)
    unfold roundEven
    split_ifs
    · omega
    · omega
  · have hodd : ¬ Even ⌊q⌋ := by
      rw [hfloor, Int.not_even_iff_odd]
      exact hn.sub_odd odd_one
    have hcast : (⌊q⌋ : ℚ) = n - 1 := by exact_mod_cast hfloor
    unfold roundEven
    split_ifs with hround
    · refine iff_of_false (by omega) ?_
      rcases hround with hless | ⟨-, heven⟩
      · linarith
      · exact absurd heven hodd
    · have hhalf : 1 / 2 ≤ Int.fract q := not_lt.mp fun hless => hround (.inl hless)
      exact iff_of_true (by omega) (by linarith)
  · have hle : n ≤ ⌊q⌋ := by omega
    have hcast : (n : ℚ) ≤ ⌊q⌋ := by exact_mod_cast hle
    exact iff_of_true (hle.trans (floor_le_roundEven q)) (by linarith)

theorem ulp_pos (x : ℚ) : 0 < ulp x := zpow_pos two_pos _

/-- What the magnitude of a `float` is compared with. -/
theorem abs_binary32 (x : ℚ) :
    |binary32 x| = min (roundEven (|x| / ulp x) * ulp x) maxFloat := by
  have hround : (0 : ℚ) ≤ roundEven (|x| / ulp x) := by
    exact_mod_cast roundEven_nonneg (div_nonneg (abs_nonneg x) (ulp_pos x).le)
  have hmin : 0 ≤ min (roundEven (|x| / ulp x) * ulp x) maxFloat :=
    le_min (mul_nonneg hround (ulp_pos x).le) (by norm_num [maxFloat])
  unfold binary32
  split_ifs
  · rw [abs_neg, abs_of_nonneg hmin]
  · exact abs_of_nonneg hmin

/-- A number that is not below one is not rounded below it. -/
theorem one_le_round_of_le (h : 1 ≤ |x|) : 1 ≤ roundEven (|x| / ulp x) * ulp x := by
  have hpos : 0 < |x| := one_pos.trans_le h
  have hlog : 0 ≤ Int.log 2 |x| := by
    rw [Int.log_of_one_le_right 2 h]
    exact Int.natCast_nonneg _
  have hulp : ulp x = 2 ^ (Int.log 2 |x| - 23) := by
    rw [ulp, max_eq_left (by omega)]
  have hbits : (2 : ℚ) ^ 23 * ulp x = 2 ^ Int.log 2 |x| := by
    rw [hulp, ← zpow_natCast, ← zpow_add₀ two_ne_zero]
    congr 1
    omega
  have hle : (2 : ℚ) ^ 23 ≤ |x| / ulp x := by
    rw [le_div_iff₀ (ulp_pos x), hbits]
    exact Int.zpow_log_le_self one_lt_two hpos
  have hround : (2 : ℤ) ^ 23 ≤ roundEven (|x| / ulp x) :=
    (Int.le_floor.mpr (by exact_mod_cast hle)).trans (floor_le_roundEven _)
  calc (1 : ℚ) ≤ 2 ^ Int.log 2 |x| := one_le_zpow₀ one_le_two hlog
    _ = 2 ^ 23 * ulp x := hbits.symm
    _ ≤ roundEven (|x| / ulp x) * ulp x :=
      mul_le_mul_of_nonneg_right (by exact_mod_cast hround) (ulp_pos x).le

/-- Below one, the distance is that of a power of two. -/
theorem exists_ulp_of_lt (h : |x| < 1) : ∃ k : ℕ, 23 ≤ k ∧ (2 : ℚ) ^ k * ulp x = 1 := by
  have hlog : Int.log 2 |x| ≤ 0 := by
    rw [Int.log_of_right_le_one 2 h.le]
    exact neg_nonpos.mpr (Int.natCast_nonneg _)
  obtain ⟨k, hk⟩ := Int.eq_ofNat_of_zero_le
    (show 0 ≤ -max (Int.log 2 |x| - 23) (-149) by omega)
  refine ⟨k, by omega, ?_⟩
  rw [ulp, ← zpow_natCast, ← zpow_add₀ two_ne_zero, ← hk, neg_add_cancel, zpow_zero]

/-- A number below one is rounded to one when it is at most half of the distance below. -/
theorem one_le_round_iff_of_lt (h : |x| < 1) :
    1 ≤ roundEven (|x| / ulp x) * ulp x ↔ 1 - ulp x / 2 ≤ |x| := by
  obtain ⟨k, hk, hone⟩ := exists_ulp_of_lt h
  have heven : Even ((2 : ℤ) ^ k) := (even_two).pow_of_ne_zero (by omega)
  have hhalf : ((2 : ℚ) ^ k - 1 / 2) * ulp x = 1 - ulp x / 2 := by
    rw [sub_mul, hone]
    ring
  calc 1 ≤ roundEven (|x| / ulp x) * ulp x
      ↔ (2 : ℚ) ^ k * ulp x ≤ roundEven (|x| / ulp x) * ulp x := by rw [hone]
    _ ↔ (2 : ℚ) ^ k ≤ roundEven (|x| / ulp x) := mul_le_mul_iff_left₀ (ulp_pos x)
    _ ↔ (2 : ℤ) ^ k ≤ roundEven (|x| / ulp x) := by exact_mod_cast Iff.rfl
    _ ↔ (2 : ℚ) ^ k - 1 / 2 ≤ |x| / ulp x := by
      rw [le_roundEven_iff heven]
      push_cast
      rfl
    _ ↔ 1 - ulp x / 2 ≤ |x| := by rw [le_div_iff₀ (ulp_pos x), hhalf]

/-- **A number becomes a `float` that is not below one in magnitude if and only if it is at most
half of the distance below one.** -/
theorem one_le_abs_binary32_iff : 1 ≤ |binary32 x| ↔ 1 - 1 / 2 ^ 25 ≤ |x| := by
  have hmax : (1 : ℚ) ≤ maxFloat := by norm_num [maxFloat]
  rw [abs_binary32, le_min_iff, and_iff_left hmax]
  rcases le_or_gt 1 |x| with hle | hlt
  · exact iff_of_true (one_le_round_of_le hle) (by linarith)
  rw [one_le_round_iff_of_lt hlt]
  rcases le_or_gt (1 / 2) |x| with hhalf | hhalf
  · have hpos : 0 < |x| := one_half_pos.trans_le hhalf
    have hlog : Int.log 2 |x| = -1 := by
      refine le_antisymm (Int.lt_add_one_iff.mp ((Int.lt_zpow_iff_log_lt one_lt_two hpos).mp ?_))
        ((Int.zpow_le_iff_le_log one_lt_two hpos).mp ?_)
      · simpa using hlt
      · simpa using hhalf
    have hulp : ulp x / 2 = 1 / 2 ^ 25 := by
      rw [ulp, hlog]
      norm_num
    rw [hulp]
  · obtain ⟨k, hk, hone⟩ := exists_ulp_of_lt hlt
    have hbits : (2 : ℚ) ^ 23 ≤ 2 ^ k := pow_le_pow_right₀ one_le_two hk
    have hulp : ulp x ≤ 1 / 2 ^ 23 := by
      rw [le_div_iff₀ (by positivity), ← hone, mul_comm]
      exact mul_le_mul_of_nonneg_right hbits (ulp_pos x).le
    exact iff_of_false (by linarith) (by linarith)

/-! ## The error -/

/-- The nearest integer is at most a half away. -/
theorem abs_roundEven_sub_le (q : ℚ) : |roundEven q - q| ≤ 1 / 2 := by
  have hfract := Int.floor_add_fract q
  have hlow := Int.fract_nonneg q
  have hhigh := Int.fract_lt_one q
  rw [abs_le]
  unfold roundEven
  split_ifs with hround
  · have hhalf : Int.fract q ≤ 1 / 2 := by
      rcases hround with hless | ⟨heq, -⟩
      · exact hless.le
      · exact heq.le
    exact ⟨by linarith, by linarith⟩
  · have hhalf : 1 / 2 ≤ Int.fract q := not_lt.mp fun hless => hround (.inl hless)
    push_cast
    exact ⟨by linarith, by linarith⟩

@[simp] theorem roundEven_intCast (n : ℤ) : roundEven (n : ℚ) = n := by
  unfold roundEven
  rw [Int.fract_intCast, Int.floor_intCast, if_pos (.inl one_half_pos)]

/-- The nearest multiple of a distance is at most a half of it away. -/
theorem abs_roundEven_div_mul_sub_le {u : ℚ} (hu : 0 < u) (q : ℚ) :
    |roundEven (q / u) * u - q| ≤ u / 2 := by
  have hmul : roundEven (q / u) * u - q = (roundEven (q / u) - q / u) * u := by
    rw [sub_mul, div_mul_cancel₀ _ hu.ne']
  rw [hmul, abs_mul, abs_of_pos hu]
  calc |roundEven (q / u) - q / u| * u
      ≤ 1 / 2 * u := mul_le_mul_of_nonneg_right (abs_roundEven_sub_le _) hu.le
    _ = u / 2 := by ring

/-- A number that is not too large is at most half of the distance from its `float`. -/
theorem abs_binary32_sub_le (h : |x| ≤ maxFloat) : |binary32 x - x| ≤ ulp x / 2 := by
  have hround := abs_roundEven_div_mul_sub_le (ulp_pos x) |x|
  have hmin : abs (min (roundEven (|x| / ulp x) * ulp x) maxFloat - |x|) ≤ ulp x / 2 := by
    rcases min_cases ((roundEven (|x| / ulp x) : ℚ) * ulp x) maxFloat with ⟨hval, -⟩ | ⟨hval, hlt⟩
    · rw [hval]
      exact hround
    · rw [hval, abs_of_nonneg (sub_nonneg.mpr h)]
      have hle := (abs_le.mp hround).2
      linarith
  unfold binary32
  split_ifs with hneg
  · rw [abs_of_neg hneg] at hmin ⊢
    rw [← abs_neg]
    convert hmin using 2
    ring
  · rw [abs_of_nonneg (not_lt.mp hneg)] at hmin ⊢
    exact hmin

@[simp] theorem binary32_zero : binary32 0 = 0 := by
  unfold binary32
  rw [abs_zero, zero_div, ← Int.cast_zero, roundEven_intCast, Int.cast_zero, zero_mul,
    if_neg (lt_irrefl 0)]
  exact min_eq_left (by norm_num [maxFloat])

/-- The error of a number below a power of two. -/
theorem abs_binary32_sub_le_two_zpow {k : ℤ} (hk : -125 ≤ k) (hk' : k ≤ 127) (h : |x| < 2 ^ k) :
    |binary32 x - x| ≤ 2 ^ (k - 25) := by
  have hmax : (2 : ℚ) ^ k ≤ maxFloat := by
    refine (zpow_le_zpow_right₀ one_le_two hk').trans ?_
    norm_num [maxFloat]
  rcases eq_or_ne x 0 with rfl | hx
  · rw [binary32_zero, sub_zero, abs_zero]
    exact (zpow_pos two_pos _).le
  have hulp : ulp x ≤ 2 ^ (k - 24) := by
    have hlog := (Int.lt_zpow_iff_log_lt one_lt_two (abs_pos.mpr hx)).mp (by exact_mod_cast h)
    exact zpow_le_zpow_right₀ one_le_two (by omega)
  calc |binary32 x - x| ≤ ulp x / 2 := abs_binary32_sub_le (h.le.trans hmax)
    _ ≤ 2 ^ (k - 24) / 2 := div_le_div_of_nonneg_right hulp zero_le_two
    _ = 2 ^ (k - 25) := by
      rw [div_eq_mul_inv, ← zpow_sub_one₀ two_ne_zero]
      congr 1
      omega

/-- The error of a number in the range of the `float`s with 24 bits, relative to it. -/
theorem abs_binary32_sub_le_mul (h : 1 / 2 ^ 126 ≤ |x|) (h' : |x| ≤ maxFloat) :
    |binary32 x - x| ≤ |x| / 2 ^ 24 := by
  have hpos : 0 < |x| := lt_of_lt_of_le (by positivity) h
  have hlog : -126 ≤ Int.log 2 |x| := by
    refine (Int.zpow_le_iff_le_log one_lt_two hpos).mp ?_
    simpa using h
  have hulp : ulp x * 2 ^ 23 ≤ |x| := by
    rw [ulp, max_eq_left (by omega), ← zpow_natCast (2 : ℚ) 23, ← zpow_add₀ two_ne_zero]
    refine le_trans (le_of_eq ?_) (Int.zpow_log_le_self one_lt_two hpos)
    congr 1
    omega
  calc |binary32 x - x| ≤ ulp x / 2 := abs_binary32_sub_le h'
    _ = ulp x * 2 ^ 23 / 2 ^ 24 := by ring
    _ ≤ |x| / 2 ^ 24 := div_le_div_of_nonneg_right hulp (by positivity)

/-- An integer of 24 bits is a `float`. -/
theorem binary32_natCast {m : ℕ} (hm : m < 2 ^ 24) : binary32 (m : ℚ) = m := by
  have hcast : (m : ℚ) ≤ 2 ^ 24 := by exact_mod_cast hm.le
  have hmax : (m : ℚ) ≤ maxFloat := hcast.trans (by norm_num [maxFloat])
  have hlog : Int.log 2 (m : ℚ) ≤ 23 := by
    rcases Nat.eq_zero_or_pos m with rfl | hpos
    · rw [Nat.cast_zero, Int.log_zero_right]
      omega
    · have hcast0 : (0 : ℚ) < m := by exact_mod_cast hpos
      refine Int.lt_add_one_iff.mp ((Int.lt_zpow_iff_log_lt one_lt_two hcast0).mp ?_)
      exact_mod_cast hm
  obtain ⟨k, hk⟩ := Int.eq_ofNat_of_zero_le (show 0 ≤ -max (Int.log 2 |(m : ℚ)| - 23) (-149) by
    rw [Nat.abs_cast]
    omega)
  have hulp : ulp (m : ℚ) = 1 / 2 ^ k := by
    rw [ulp, ← neg_neg (max _ _), hk, zpow_neg, one_div, zpow_natCast]
  have hround : (roundEven (|(m : ℚ)| / ulp m) : ℚ) * ulp m = m := by
    have hint : |(m : ℚ)| / ulp m = ((m * 2 ^ k : ℤ) : ℚ) := by
      rw [Nat.abs_cast, hulp]
      push_cast
      rw [div_div_eq_mul_div, div_one]
    rw [hint, roundEven_intCast, ← hint, div_mul_cancel₀ _ (ulp_pos _).ne', Nat.abs_cast]
  unfold binary32
  rw [hround, if_neg (not_lt.mpr (Nat.cast_nonneg m)), min_eq_left hmax]

end Cpp
