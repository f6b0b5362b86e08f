import ClickA.Processing.Grouping
import Mathlib.Data.List.Count
import Mathlib.Data.Int.Init
import Mathlib.Order.Bounds.Basic

/-!
# The statistics of an image

The constructor of `Image` in `processing.cpp`, without smoothing: one loop over the pixels that
makes a histogram and keeps the brightest value, the most frequent value and the sum, in an `int` of
32 bits. A sum that leaves the `int` is undefined in C++; here it wraps around.

## Main definitions

* `Loop`, `analyzePixel`: the variables of the loop, and its body
* `analyze`: the constructor
* `Exact`: the statistics are those of the pixels

## Main results

* `exact_iff`: the statistics are exact if and only if the sum of the pixels fits
-/

namespace ClickA.Processing

/-! ## The code -/

/-- The variables of the loop. No count leaves the `int`: it is at most the number of pixels. -/
structure Loop where
  histogram : ℕ → ℕ
  maxCount : ℕ
  sum : ℤ
  histBrightest : ℕ
  histPeak : ℕ

/-- The variables before the loop. `histPeak` has no value yet. -/
def Loop.start (histPeak : ℕ) : Loop := ⟨fun _ => 0, 0, 0, 0, histPeak⟩

/-- The body of the loop. -/
def analyzePixel (s : Loop) (value : ℕ) : Loop :=
  if value > 1023 then s
  else
    let histogram := Function.update s.histogram value (s.histogram value + 1)
    let peak : ℕ × ℕ :=
      if histogram value > s.maxCount then (histogram value, value) else (s.maxCount, s.histPeak)
    { histogram
      maxCount := peak.1
      sum := Int.bmod (s.sum + value) (2 ^ 32)
      histBrightest := if value > s.histBrightest then value else s.histBrightest
      histPeak := peak.2 }

/-- An image with the other statistics. -/
structure Analyzed extends Image where
  histBrightest : ℕ
  histPeak : ℕ

/-- The constructor: the image of some pixels. The mean is an `int` that becomes a `uint16_t`. -/
def analyze (uninitialized w h : ℕ) (data : List ℕ) (hdata : data.length = w * h) : Analyzed :=
  let s := data.foldl analyzePixel (Loop.start uninitialized)
  { w, h, data, length_data := hdata
    histMean := ((s.sum.tdiv (w * h : ℕ)) % 2 ^ 16).toNat
    histBrightest := s.histBrightest
    histPeak := s.histPeak }

/-! ## The loop -/

/-- What the variables are behind some pixels. -/
structure Counted (l : List ℕ) (s : Loop) : Prop where
  histogram : ∀ v, s.histogram v = l.count v
  maxCount : s.maxCount = l.count s.histPeak
  most : ∀ v, l.count v ≤ s.maxCount
  sum : s.sum = Int.bmod l.sum (2 ^ 32)
  brightest : ∀ v ∈ l, v ≤ s.histBrightest
  attained : s.histBrightest ∈ l ∨ s.histBrightest = 0

/-- One more pixel is counted. -/
theorem Counted.snoc {l : List ℕ} {s : Loop} (h : Counted l s) {value : ℕ} (hvalue : value ≤ 1023) :
    Counted (l ++ [value]) (analyzePixel s value) := by
  have hhistogram (v : ℕ) :
      Function.update s.histogram value (s.histogram value + 1) v = (l ++ [value]).count v := by
    rw [List.count_append, List.count_singleton, Function.update_apply, h.histogram, h.histogram]
    by_cases hv : v = value
    · simp [hv]
    · rw [if_neg hv, if_neg (by simpa using Ne.symm hv), add_zero]
  have hother {v : ℕ} (hv : v ≠ value) : (l ++ [value]).count v = l.count v := by
    rw [List.count_append, List.count_singleton, if_neg (by simpa using hv.symm), add_zero]
  have hsum : Int.bmod (s.sum + value) (2 ^ 32) = Int.bmod ((l ++ [value]).sum : ℕ) (2 ^ 32) := by
    rw [h.sum, List.sum_append, List.sum_singleton, Int.bmod_add_bmod, Int.natCast_add]
  have hbright : ∀ v ∈ l ++ [value],
      v ≤ if value > s.histBrightest then value else s.histBrightest := by
    intro v hv
    rcases List.mem_append.mp hv with hold | hnew
    · have hle := h.brightest v hold
      split
      · omega
      · exact hle
    · obtain rfl := List.mem_singleton.mp hnew
      split
      · exact le_refl _
      · omega
  have hattained : (if value > s.histBrightest then value else s.histBrightest) ∈ l ++ [value] ∨
      (if value > s.histBrightest then value else s.histBrightest) = 0 := by
    split
    · left
      simp
    · exact h.attained.imp_left (List.mem_append_left _)
  unfold analyzePixel
  rw [if_neg (not_lt.mpr hvalue)]
  dsimp only
  rw [hhistogram value]
  by_cases hpeak : (l ++ [value]).count value > s.maxCount
  · rw [if_pos hpeak]
    refine ⟨hhistogram, rfl, fun v => ?_, hsum, hbright, hattained⟩
    by_cases hv : v = value
    · rw [hv]
    · rw [hother hv]
      exact le_trans (h.most v) hpeak.le
  · rw [if_neg hpeak]
    have hne : s.histPeak ≠ value := by
      intro heq
      apply hpeak
      rw [h.maxCount, heq, List.count_append, List.count_singleton_self]
      exact Nat.lt_succ_self _
    refine ⟨hhistogram, ?_, fun v => ?_, hsum, hbright, hattained⟩
    · rw [hother hne]
      exact h.maxCount
    · by_cases hv : v = value
      · rw [hv]
        exact not_lt.mp hpeak
      · rw [hother hv]
        exact h.most v

/-- The loop has counted the pixels. -/
theorem counted (uninitialized : ℕ) (data : List ℕ) (hvalues : ∀ v ∈ data, v ≤ 1023) :
    Counted data (data.foldl analyzePixel (Loop.start uninitialized)) := by
  induction data using List.reverseRecOn with
  | nil => exact ⟨fun _ => rfl, rfl, fun _ => le_refl 0, rfl, by simp, Or.inr rfl⟩
  | append_singleton l value ih =>
    rw [List.foldl_concat]
    exact (ih fun v hv => hvalues v (List.mem_append_left _ hv)).snoc (hvalues value (by simp))

/-! ## The statistics -/

/-- The statistics are those of the pixels. -/
structure Exact (img : Analyzed) : Prop where
  histMean : img.histMean = img.data.sum / (img.w * img.h)
  histBrightest : IsGreatest {v | v ∈ img.data} img.histBrightest
  histPeak : ∀ v, img.data.count v ≤ img.data.count img.histPeak

/-- The brightest value and the most frequent one are right in any case. -/
theorem brightest_and_peak (uninitialized : ℕ) {w h : ℕ} {data : List ℕ}
    (hdata : data.length = w * h)
    (hne : 0 < w * h) (hvalues : ∀ v ∈ data, v ≤ 1023) :
    IsGreatest {v | v ∈ data} (analyze uninitialized w h data hdata).histBrightest ∧
      ∀ v, data.count v ≤ data.count (analyze uninitialized w h data hdata).histPeak := by
  have hcounted := counted uninitialized data hvalues
  refine ⟨⟨?_, fun v hv => hcounted.brightest v hv⟩, fun v => ?_⟩
  · rcases hcounted.attained with hmem | hzero
    · exact hmem
    · obtain ⟨v, hv⟩ := List.exists_mem_of_length_pos (hdata.symm ▸ hne : 0 < data.length)
      have hle := hcounted.brightest v hv
      show (data.foldl analyzePixel (Loop.start uninitialized)).histBrightest ∈ data
      rw [hzero] at hle ⊢
      rwa [Nat.le_zero.mp hle] at hv
  · show data.count v ≤ data.count (data.foldl analyzePixel (Loop.start uninitialized)).histPeak
    rw [← hcounted.maxCount]
    exact hcounted.most v

theorem sum_le {data : List ℕ} (hvalues : ∀ v ∈ data, v ≤ 1023) :
    data.sum ≤ data.length * 1023 := by
  exact List.sum_le_card_nsmul data 1023 hvalues

/-- The sum of a frame of the sensor wraps around once at most. -/
theorem bmod_sum {sum : ℕ} (hsum : sum < 2 ^ 32 + 2 ^ 31) :
    Int.bmod sum (2 ^ 32) = if sum < 2 ^ 31 then (sum : ℤ) else (sum : ℤ) - 2 ^ 32 := by
  unfold Int.bmod
  dsimp only
  split
  · split
    · omega
    · omega
  · split
    · omega
    · omega

/-- A sum that fits gives the mean. -/
theorem mean_of_lt {sum n : ℕ} (hsum : sum ≤ n * 1023) (hfits : sum < 2 ^ 31) :
    (((Int.bmod sum (2 ^ 32)).tdiv n) % 2 ^ 16).toNat = sum / n := by
  have hmean : sum / n ≤ 1023 := Nat.div_le_of_le_mul hsum
  rw [bmod_sum (by omega), if_pos hfits, ← Int.ofNat_tdiv]
  generalize sum / n = mean at hmean
  omega

/-- A sum that does not fit gives another number. -/
theorem mean_of_le {sum n : ℕ} (hsensor : n ≤ 2592 * 1944) (hsum : sum ≤ n * 1023)
    (hlarge : 2 ^ 31 ≤ sum) : (((Int.bmod sum (2 ^ 32)).tdiv n) % 2 ^ 16).toNat ≠ sum / n := by
  have hn : 0 < n := by omega
  have hmean : sum / n ≤ 1023 := Nat.div_le_of_le_mul hsum
  have hpos : 1 ≤ sum / n := (Nat.one_le_div_iff hn).mpr (by omega)
  rw [bmod_sum (by omega), if_neg (not_lt.mpr hlarge)]
  rcases lt_or_ge sum (2 ^ 32) with hbelow | habove
  · have hquotient : (2 ^ 32 - sum) / n ≤ 1023 := Nat.div_le_of_le_mul (by omega)
    have hneg : ((sum : ℤ) - 2 ^ 32) = -((2 ^ 32 - sum : ℕ) : ℤ) := by omega
    rw [hneg, Int.neg_tdiv, ← Int.ofNat_tdiv]
    generalize sum / n = mean at hmean hpos
    generalize (2 ^ 32 - sum) / n = quotient at hquotient
    omega
  · have hless : (sum - 2 ^ 32) / n ≤ (sum - n) / n := Nat.div_le_div_right (by omega)
    have hstep : (sum - n) / n + 1 = sum / n := by
      rw [← Nat.add_div_right _ hn, Nat.sub_add_cancel (by omega)]
    have hrest : ((sum : ℤ) - 2 ^ 32) = ((sum - 2 ^ 32 : ℕ) : ℤ) := by omega
    rw [hrest, ← Int.ofNat_tdiv]
    generalize sum / n = mean at hmean hpos hstep
    generalize (sum - 2 ^ 32) / n = quotient at hless
    omega

/-- The mean of a frame. -/
theorem histMean_analyze {uninitialized w h : ℕ} {data : List ℕ} (hdata : data.length = w * h)
    (hvalues : ∀ v ∈ data, v ≤ 1023) : (analyze uninitialized w h data hdata).histMean
      = ((Int.bmod data.sum (2 ^ 32)).tdiv (w * h : ℕ) % 2 ^ 16).toNat := by
  rw [← (counted uninitialized data hvalues).sum]
  rfl

/-- Where the sum does not fit, the mean is another number. -/
theorem not_exact_of_le {uninitialized w h : ℕ} {data : List ℕ} (hdata : data.length = w * h)
    (hsensor : w * h ≤ 2592 * 1944) (hvalues : ∀ v ∈ data, v ≤ 1023) (hlarge : 2 ^ 31 ≤ data.sum) :
    ¬ Exact (analyze uninitialized w h data hdata) := by
  intro hexact
  have hsum : data.sum ≤ w * h * 1023 := hdata ▸ sum_le hvalues
  exact mean_of_le hsensor hsum hlarge ((histMean_analyze hdata hvalues).symm.trans hexact.histMean)

/-- For each nonempty frame of the sensor, with values of ten bits, the statistics are exact if and
only if the sum of the values is less than `2 ^ 31`. -/
theorem exact_iff (uninitialized w h : ℕ) (data : List ℕ) (hdata : data.length = w * h)
    (hne : 0 < w * h) (hsensor : w * h ≤ 2592 * 1944) (hvalues : ∀ v ∈ data, v ≤ 1023) :
    Exact (analyze uninitialized w h data hdata) ↔ data.sum < 2 ^ 31 := by
  have hsum : data.sum ≤ w * h * 1023 := hdata ▸ sum_le hvalues
  constructor
  · intro hexact
    by_contra hlarge
    exact not_exact_of_le hdata hsensor hvalues (not_lt.mp hlarge) hexact
  · intro hfits
    obtain ⟨hbrightest, hpeak⟩ := brightest_and_peak uninitialized hdata hne hvalues
    exact ⟨(histMean_analyze hdata hvalues).trans (mean_of_lt hsum hfits), hbrightest, hpeak⟩

/-- A small frame. -/
theorem exact_iff_small :
    Exact (analyze 0 2 1 [3, 5] rfl) ↔ [3, 5].sum < 2 ^ 31 :=
  exact_iff 0 2 1 [3, 5] rfl (by decide) (by decide) (by decide)

/-- A frame of pixels of one value. -/
def uniform (w h value : ℕ) : Analyzed :=
  analyze 0 w h (List.replicate (w * h) value) List.length_replicate

/-- The whole sensor, saturated: the mean is not the value of each pixel. -/
theorem not_exact_saturated : ¬ Exact (uniform 2592 1944 1023) := by
  apply not_exact_of_le
  · exact le_refl _
  · intro v hv
    exact (List.eq_of_mem_replicate hv).le
  · rw [List.sum_replicate]
    show 2 ^ 31 ≤ 2592 * 1944 * 1023
    omega

end ClickA.Processing
