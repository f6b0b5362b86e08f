import ClickA.Cpp.Binary32
import ClickA.Cpp.Convert
import ClickA.Cpp.Loop
import ClickA.Processing.Grouping
import ClickA.Stream.Window

/-!
# The blur

`Image::applyFastBlur` of `processing.cpp`: a box blur in several passes, each over the rows and
then over the columns. Along a line the sum over the box is not computed anew for each pixel: the
loops add the value that comes in and subtract the one that goes out. It is multiplied by the
inverse of the width in single precision. The arrays have the length of the frame, and an access
beyond it has no result here. The radius and the number of passes are whole numbers, as the callers
give them, and the widths of the boxes are computed with exact numbers. The passes are counted in an
`int8_t`, so that from 128 passes on the loop has no end.

## Main definitions

* `Line`, `enter`, `middle`, `leave`, `blurLine`: the loops along a row or a column
* `blurPass`, `passLoop`, `applyFastBlur`: a pass, the loop over them, and the function
* `smooth`: the means over the boxes

## Main results

* `blurred_eq`: the multiplication gives the nearest integer to the mean
* `applyFastBlur_eq`: the function stays inside its arrays exactly when the boxes fit into the
  frame, and then each pixel is the mean over its box
* `applyFastBlur_ne_ok`: from 128 passes on it does not return
-/

namespace ClickA.Processing

open Cpp (binary32 trunc)
open Stream (windowSum windowMean)

/-! ## The code -/

/-- The variables of the loops along a line. -/
structure Line where
  ti : ℕ
  li : ℕ
  ri : ℕ
  val : ℤ
  temp : List ℕ

/-- `val*iarr + 0.5f` as a `uint16_t`. -/
def blurred (r : ℕ) (val : ℤ) : ℕ :=
  let iarr := binary32 (1 / binary32 (r + r + 1 : ℕ))
  (trunc (binary32 (binary32 (binary32 val * iarr) + 1 / 2)) % 2 ^ 16).toNat

/-- The part of the loops that is the same: `val` changes, a pixel is written, and the next one is
behind it. -/
def Line.emit (stride r : ℕ) (s : Line) (change : ℤ) : Option Line :=
  let val := s.val + change
  if s.ti < s.temp.length then
    some { s with val, temp := s.temp.set s.ti (blurred r val), ti := s.ti + stride }
  else none

section

variable (data : List ℕ) (stride r : ℕ)

/-- The body of the first loop: the box is over the first end. -/
def enter (fv : ℕ) (s : Line) : Option Line := do
  let right ← data[s.ri]?
  let s ← s.emit stride r (right - fv)
  some { s with ri := s.ri + stride }

/-- The body of the second loop: the box is inside. -/
def middle (s : Line) : Option Line := do
  let right ← data[s.ri]?
  let left ← data[s.li]?
  let s ← s.emit stride r (right - left)
  some { s with ri := s.ri + stride, li := s.li + stride }

/-- The body of the third loop: the box is over the second end. -/
def leave (lv : ℕ) (s : Line) : Option Line := do
  let left ← data[s.li]?
  let s ← s.emit stride r (lv - left)
  some { s with li := s.li + stride }

/-- The blur of the line that begins at `ti` and has `n` pixels, `stride` apart. -/
def blurLine (n ti : ℕ) (temp : List ℕ) : Option (List ℕ) := do
  let fv ← data[ti]?
  let lv ← data[ti + stride * (n - 1)]?
  let val ← (List.range' 0 r).foldlM (fun val j => do
    let v ← data[ti + stride * j]?
    some (val + v)) ((r + 1) * fv)
  let s ← (List.range' 0 (r + 1)).foldlM (fun s _ => enter data stride r fv s)
    { ti, li := ti, ri := ti + stride * r, val := (val : ℕ), temp }
  let s ← (List.range' (r + 1) (n - r - (r + 1))).foldlM (fun s _ => middle data stride r s) s
  let s ← (List.range' (n - r) r).foldlM (fun s _ => leave data stride r lv s) s
  some s.temp

end

/-- One pass. `temp` is a copy of `data` before the rows, and it is copied back behind them. -/
def blurPass (w h r : ℕ) (data : List ℕ) : Option (List ℕ) := do
  let data ← (List.range' 0 h).foldlM (fun temp i => blurLine data 1 r w (i * w) temp) data
  (List.range' 0 w).foldlM (fun temp i => blurLine data w r h i temp) data

/-- `wl`: the width of the smaller box. The root becomes an integer, so a fraction under it does not
matter. -/
def boxWidth (radius passes : ℕ) : ℕ :=
  let wl := Nat.sqrt (12 * radius * radius / passes + 1)
  if wl % 2 = 0 then wl - 1 else wl

/-- `m`: the number of passes with the smaller box. -/
def smallBoxes (radius passes : ℕ) : ℤ :=
  let wl : ℚ := boxWidth radius passes
  trunc ((12 * radius * radius - passes * wl * wl - 4 * passes * wl - 3 * passes) / (-4 * wl - 4)
    + 1 / 2)

/-- The radius of the box in a pass. -/
def boxRadius (radius passes : ℕ) (n : ℤ) : ℕ :=
  let wl := boxWidth radius passes
  ((if n < smallBoxes radius passes then wl else wl + 2) - 1) / 2

/-- Why there is no result: an access was outside the arrays, or the loop is still running. -/
inductive Unfinished
  | outside
  | running
deriving DecidableEq, Repr

/-- `n++` on an `int8_t`: behind 127 comes -128. -/
def nextPass (n : ℤ) : ℤ := (n + 1 + 2 ^ 7) % 2 ^ 8 - 2 ^ 7

/-- The loop over the passes, in a number of turns. -/
def passLoop (w h radius passes : ℕ) : ℕ → ℤ → List ℕ → Except Unfinished (List ℕ)
  | 0, n, data => if n < passes then .error .running else .ok data
  | turns + 1, n, data =>
    if n < passes then
      match blurPass w h (boxRadius radius passes n) data with
      | some data => passLoop w h radius passes turns (nextPass n) data
      | none => .error .outside
    else .ok data

/-- The function: the pixels behind it, after a number of turns of its loop. -/
def applyFastBlur (img : Image) (radius : ℤ) (passes turns : ℕ) : Except Unfinished (List ℕ) :=
  if radius < 1 then .ok img.data
  else passLoop img.w img.h radius.toNat passes turns 0 img.data

/-! ## The multiplication -/

/-- A number that is nearer to a fraction with an odd numerator and an even denominator than the
next integer can be. -/
theorem floor_eq_div_of_odd {a b : ℕ} {q : ℚ} (hb : 0 < b) (ha : Odd a)
    (hq : |q - (a : ℚ) / (2 * b : ℕ)| < 1 / (2 * b : ℕ)) : ⌊q⌋ = (a / (2 * b) : ℕ) := by
  have hpos : (0 : ℚ) < (2 * b : ℕ) := by exact_mod_cast Nat.mul_pos two_pos hb
  obtain ⟨hlow, hhigh⟩ := abs_sub_lt_iff.mp hq
  have hsplit := Nat.div_add_mod a (2 * b)
  have hlt := Nat.mod_lt a (Nat.mul_pos two_pos hb)
  have hone : 1 ≤ a % (2 * b) := by
    have hodd : Odd (a % (2 * b)) := by
      rwa [Nat.odd_iff, Nat.mod_mul_right_mod, ← Nat.odd_iff]
    exact hodd.pos
  have hdown : ((a / (2 * b) : ℕ) : ℚ) + 1 / (2 * b : ℕ) ≤ a / (2 * b : ℕ) := by
    rw [← sub_nonneg, ← sub_sub, sub_right_comm, ← sub_div, sub_nonneg, le_div_iff₀ hpos]
    have hle : a / (2 * b) * (2 * b) + 1 ≤ a := by
      rw [Nat.mul_comm]
      omega
    have hcast : ((a / (2 * b) : ℕ) : ℚ) * (2 * b : ℕ) + 1 ≤ a := by exact_mod_cast hle
    linarith
  have hup : (a : ℚ) / (2 * b : ℕ) + 1 / (2 * b : ℕ) ≤ ((a / (2 * b) : ℕ) : ℚ) + 1 := by
    rw [← add_div, div_le_iff₀ hpos]
    have hle : a + 1 ≤ (a / (2 * b) + 1) * (2 * b) := by
      rw [Nat.add_mul, Nat.mul_comm (a / (2 * b)), one_mul]
      omega
    exact_mod_cast hle
  refine Int.floor_eq_iff.mpr ⟨?_, ?_⟩
  · rw [Int.cast_natCast]
    linarith
  · rw [Int.cast_natCast]
    linarith

variable {r : ℕ}

/-- The inverse of the width in single precision. -/
theorem abs_iarr_sub_le (hr : r < 2 ^ 10) :
    |binary32 (1 / binary32 (r + r + 1 : ℕ)) - 1 / (r + r + 1 : ℕ)|
      ≤ 1 / (r + r + 1 : ℕ) / 2 ^ 24 := by
  have hpos : (0 : ℚ) < (r + r + 1 : ℕ) := by exact_mod_cast Nat.succ_pos _
  have hwidth : ((r + r + 1 : ℕ) : ℚ) ≤ 2 ^ 11 := by
    exact_mod_cast (show r + r + 1 ≤ 2 ^ 11 by omega)
  have habs : |1 / ((r + r + 1 : ℕ) : ℚ)| = 1 / (r + r + 1 : ℕ) := abs_of_pos (one_div_pos.mpr hpos)
  rw [Cpp.binary32_natCast (by omega)]
  have herror := Cpp.abs_binary32_sub_le_mul (x := 1 / ((r + r + 1 : ℕ) : ℚ)) ?_ ?_
  · rwa [habs] at herror
  · rw [habs]
    refine one_div_le_one_div_of_le hpos (hwidth.trans ?_)
    norm_num
  · rw [habs, div_le_iff₀ hpos]
    have hone : (1 : ℚ) ≤ (r + r + 1 : ℕ) := by exact_mod_cast Nat.le_add_left 1 _
    have hmax : (1 : ℚ) ≤ Cpp.maxFloat := by norm_num [Cpp.maxFloat]
    exact one_le_mul_of_one_le_of_one_le hmax hone

/-- The product is rounded, and so is the sum with a half. -/
theorem abs_rounded_sub_lt {product mean : ℚ} (hmean0 : 0 ≤ mean) (hmean : mean ≤ 1023)
    (hproduct : |product - mean| ≤ 1023 / 2 ^ 24) :
    |binary32 (binary32 product + 1 / 2) - (mean + 1 / 2)| < 1 / 2 ^ 12 := by
  have herror : (2 : ℚ) ^ (10 - 25 : ℤ) = 1 / 2 ^ 15 := by norm_num
  obtain ⟨hlow, hhigh⟩ := abs_le.mp hproduct
  have hfirst := Cpp.abs_binary32_sub_le_two_zpow (x := product) (k := 10) (by decide) (by decide)
    (abs_lt.mpr ⟨by norm_num; linarith, by norm_num; linarith⟩)
  rw [herror] at hfirst
  obtain ⟨hlow₁, hhigh₁⟩ := abs_le.mp hfirst
  have hsecond := Cpp.abs_binary32_sub_le_two_zpow (x := binary32 product + 1 / 2) (k := 10)
    (by decide) (by decide) (abs_lt.mpr ⟨by norm_num; linarith, by norm_num; linarith⟩)
  rw [herror] at hsecond
  obtain ⟨hlow₂, hhigh₂⟩ := abs_le.mp hsecond
  exact abs_lt.mpr ⟨by linarith, by linarith⟩

/-- The multiplication gives the nearest integer to the mean. -/
theorem blurred_eq {S : ℕ} (hr : r < 2 ^ 10) (hS : S ≤ (2 * r + 1) * 1023) :
    blurred r S = (2 * S + (2 * r + 1)) / (2 * (2 * r + 1)) := by
  have hwidth : r + r + 1 = 2 * r + 1 := by omega
  have hinv := abs_iarr_sub_le hr
  unfold blurred
  rw [hwidth] at hinv ⊢
  have hcast : ((S : ℤ) : ℚ) = (S : ℕ) := Int.cast_natCast S
  rw [hcast, Cpp.binary32_natCast (lt_of_le_of_lt hS (by omega))]
  generalize binary32 (1 / binary32 (2 * r + 1 : ℕ)) = iarr at hinv ⊢
  have hpos : (0 : ℚ) < (2 * r + 1 : ℕ) := by exact_mod_cast Nat.succ_pos _
  have hS0 : (0 : ℚ) ≤ S := Nat.cast_nonneg S
  have hmean : (S : ℚ) / (2 * r + 1 : ℕ) ≤ 1023 := by
    rw [div_le_iff₀ hpos, mul_comm]
    exact_mod_cast hS
  have hproduct : |(S : ℚ) * iarr - S / (2 * r + 1 : ℕ)| ≤ 1023 / 2 ^ 24 := by
    calc |(S : ℚ) * iarr - S / (2 * r + 1 : ℕ)|
        = S * |iarr - 1 / (2 * r + 1 : ℕ)| := by
          rw [← mul_one_div, ← mul_sub, abs_mul, abs_of_nonneg hS0]
      _ ≤ S * (1 / (2 * r + 1 : ℕ) / 2 ^ 24) := mul_le_mul_of_nonneg_left hinv hS0
      _ = S / (2 * r + 1 : ℕ) / 2 ^ 24 := by ring
      _ ≤ 1023 / 2 ^ 24 := div_le_div_of_nonneg_right hmean (by positivity)
  have hnear := abs_rounded_sub_lt (div_nonneg hS0 hpos.le) hmean hproduct
  have hgap : (1 : ℚ) / 2 ^ 12 ≤ 1 / (2 * (2 * r + 1) : ℕ) := by
    refine one_div_le_one_div_of_le (by exact_mod_cast Nat.mul_pos two_pos (Nat.succ_pos _)) ?_
    exact_mod_cast (show 2 * (2 * r + 1) ≤ 2 ^ 12 by omega)
  rw [Stream.mean_add_half] at hnear
  have hfloor := floor_eq_div_of_odd (Nat.succ_pos _) ⟨S + r, by omega⟩ (hnear.trans_le hgap)
  have hvalue : (2 * S + (2 * r + 1)) / (2 * (2 * r + 1)) ≤ 1023 := Stream.nearest_le hS
  generalize (2 * S + (2 * r + 1)) / (2 * (2 * r + 1)) = value at hfloor hvalue ⊢
  have hnonneg : 0 ≤ binary32 (binary32 (S * iarr) + 1 / 2) := by
    rw [← Int.floor_nonneg, hfloor]
    exact Int.natCast_nonneg value
  dsimp only
  rw [trunc, if_pos hnonneg, hfloor]
  omega

/-! ## A line -/

section

variable {data temp : List ℕ} {f : ℕ → ℕ} {stride n base j : ℕ} {s : Line}

/-- What is written before the pixel `j` of a line, and the sum that its box will have. -/
structure Written (temp : List ℕ) (f : ℕ → ℕ) (stride r n base j : ℕ) (s : Line) : Prop where
  ti : s.ti = base + stride * j
  val : j < n → s.val + (f (min (r + j) (n - 1)) - f (j - (r + 1)) : ℤ) = windowSum r n f j
  length : s.temp.length = temp.length
  done : ∀ i < j, s.temp[base + stride * i]? = some (blurred r (windowSum r n f i))
  rest : ∀ p, (∀ i < j, p ≠ base + stride * i) → s.temp[p]? = temp[p]?

/-- And the places of the values that come in and go out. -/
structure Swept (temp : List ℕ) (f : ℕ → ℕ) (stride r n base j : ℕ) (s : Line) : Prop
    extends Written temp f stride r n base j s where
  li : s.li = base + stride * (j - (r + 1))
  ri : s.ri = base + stride * min (r + j) n

/-- The pixel `j` is written. -/
theorem Written.emit (h : Written temp f stride r n base j s) (hstride : 0 < stride) (hj : j < n)
    (hbound : base + stride * j < temp.length) (change : ℤ)
    (hchange : change = f (min (r + j) (n - 1)) - f (j - (r + 1))) :
    ∃ s', s.emit stride r change = some s' ∧ Written temp f stride r n base (j + 1) s' ∧
      s'.li = s.li ∧ s'.ri = s.ri := by
  have hval : s.val + change = windowSum r n f j := by
    rw [hchange]
    exact h.val hj
  have hlt : s.ti < s.temp.length := by rwa [h.ti, h.length]
  refine ⟨_, if_pos hlt, ⟨?_, fun hnext => ?_, ?_, fun i hi => ?_, fun p hp => ?_⟩, rfl, rfl⟩
  · rw [h.ti, Nat.mul_succ, Nat.add_assoc]
  · have hmove := Stream.windowSum_succ r n f j
    rw [min_eq_left (show j - r ≤ n - 1 by omega)] at hmove
    dsimp only
    rw [hval, Nat.add_sub_add_right, show r + (j + 1) = j + 1 + r by omega]
    omega
  · dsimp only
    rw [List.length_set, h.length]
  · dsimp only
    rw [h.ti, hval]
    rcases Nat.lt_succ_iff_lt_or_eq.mp hi with hold | rfl
    · have hne : base + stride * j ≠ base + stride * i := by
        have hmul := Nat.mul_lt_mul_of_pos_left hold hstride
        omega
      rw [List.getElem?_set_ne hne]
      exact h.done i hold
    · exact List.getElem?_set_self (by rwa [h.length])
  · dsimp only
    rw [h.ti, List.getElem?_set_ne (hp j (Nat.lt_succ_self j)).symm]
    exact h.rest p fun i hi => hp i (Nat.lt_succ_of_lt hi)

/-- Before the first pixel, with the sum of the box one place before it. -/
theorem swept_start {val : ℕ} (hr : r < n)
    (hval : val = (r + 1) * f 0 + ∑ i ∈ Finset.range r, f i) :
    Swept temp f stride r n base 0
      { ti := base, li := base, ri := base + stride * r, val := (val : ℕ), temp } := by
  refine ⟨⟨rfl, fun hn => ?_, rfl, fun i hi => absurd hi (Nat.not_lt_zero i), fun p _ => rfl⟩, ?_,
    ?_⟩
  · have hzero := Stream.windowSum_zero (f := f) hr
    rw [← hval] at hzero
    dsimp only
    rw [Nat.add_zero, min_eq_left (by omega), Nat.zero_sub]
    omega
  · dsimp only
    rw [Nat.zero_sub, Nat.mul_zero, Nat.add_zero]
  · dsimp only
    rw [Nat.add_zero, min_eq_left (by omega)]

variable (hstride : 0 < stride) (hr : 2 * r + 1 ≤ n)
  (hline : ∀ j < n, data[base + stride * j]? = some (f j))
  (hbound : ∀ j < n, base + stride * j < temp.length)

include hstride hr hline hbound

/-- A turn of the first loop. -/
theorem Swept.enter (h : Swept temp f stride r n base j s) (hj : j < r + 1) :
    ∃ s', enter data stride r (f 0) s = some s' ∧ Swept temp f stride r n base (j + 1) s' := by
  have hright : data[s.ri]? = some (f (r + j)) := by
    rw [h.ri, min_eq_left (by omega)]
    exact hline _ (by omega)
  obtain ⟨s', hemit, hwritten, hli, hri⟩ := h.toWritten.emit hstride (by omega)
    (hbound j (by omega)) (f (r + j) - f 0) (by
      rw [min_eq_left (by omega), Nat.sub_eq_zero_of_le (by omega)])
  refine ⟨{ s' with ri := s.ri + stride }, ?_, ⟨hwritten.1, hwritten.2, hwritten.3, hwritten.4,
    hwritten.5⟩, ?_, ?_⟩
  · unfold Processing.enter
    rw [hright, Option.bind_eq_bind, Option.bind_some, hemit, Option.bind_eq_bind, Option.bind_some,
      hri]
  · dsimp only
    rw [hli, h.li, Nat.sub_eq_zero_of_le (by omega), Nat.sub_eq_zero_of_le (by omega)]
  · dsimp only
    rw [h.ri, min_eq_left (by omega), min_eq_left (by omega), Nat.add_assoc, ← Nat.mul_succ]
    rfl

/-- A turn of the second loop. -/
theorem Swept.middle (h : Swept temp f stride r n base j s) (hj : r + 1 ≤ j) (hj' : j < n - r) :
    ∃ s', middle data stride r s = some s' ∧ Swept temp f stride r n base (j + 1) s' := by
  have hright : data[s.ri]? = some (f (r + j)) := by
    rw [h.ri, min_eq_left (by omega)]
    exact hline _ (by omega)
  have hleft : data[s.li]? = some (f (j - (r + 1))) := by
    rw [h.li]
    exact hline _ (by omega)
  obtain ⟨s', hemit, hwritten, hli, hri⟩ := h.toWritten.emit hstride (by omega)
    (hbound j (by omega)) (f (r + j) - f (j - (r + 1))) (by rw [min_eq_left (by omega)])
  refine ⟨{ s' with ri := s.ri + stride, li := s.li + stride }, ?_, ⟨hwritten.1, hwritten.2,
    hwritten.3, hwritten.4, hwritten.5⟩, ?_, ?_⟩
  · unfold Processing.middle
    rw [hright, Option.bind_eq_bind, Option.bind_some, hleft, Option.bind_eq_bind, Option.bind_some,
      hemit, Option.bind_some, hri, hli]
  · dsimp only
    rw [h.li, Nat.add_assoc, ← Nat.mul_succ, Nat.succ_eq_add_one, Nat.sub_add_comm hj]
  · dsimp only
    rw [h.ri, min_eq_left (by omega), min_eq_left (by omega), Nat.add_assoc, ← Nat.mul_succ]
    rfl

/-- A turn of the third loop. -/
theorem Swept.leave (h : Swept temp f stride r n base j s) (hj : n - r ≤ j) (hj' : j < n) :
    ∃ s', leave data stride r (f (n - 1)) s = some s' ∧
      Swept temp f stride r n base (j + 1) s' := by
  have hleft : data[s.li]? = some (f (j - (r + 1))) := by
    rw [h.li]
    exact hline _ (by omega)
  obtain ⟨s', hemit, hwritten, hli, hri⟩ := h.toWritten.emit hstride (by omega)
    (hbound j (by omega)) (f (n - 1) - f (j - (r + 1))) (by rw [min_eq_right (by omega)])
  refine ⟨{ s' with li := s.li + stride }, ?_, ⟨hwritten.1, hwritten.2,
    hwritten.3, hwritten.4, hwritten.5⟩, ?_, ?_⟩
  · unfold Processing.leave
    rw [hleft, Option.bind_eq_bind, Option.bind_some, hemit, Option.bind_eq_bind, Option.bind_some,
      hli]
  · dsimp only
    rw [h.li, Nat.add_assoc, ← Nat.mul_succ, Nat.succ_eq_add_one, Nat.sub_add_comm (by omega)]
  · dsimp only
    rw [hri, h.ri, min_eq_right (by omega), min_eq_right (by omega)]

/-- The line is blurred, and nothing else is. -/
theorem exists_blurLine : ∃ temp', blurLine data stride r n base temp = some temp' ∧
    temp'.length = temp.length ∧
    (∀ j < n, temp'[base + stride * j]? = some (blurred r (windowSum r n f j))) ∧
    ∀ p, (∀ j < n, p ≠ base + stride * j) → temp'[p]? = temp[p]? := by
  have hfirst : data[base]? = some (f 0) := hline 0 (by omega)
  have hlast : data[base + stride * (n - 1)]? = some (f (n - 1)) := hline (n - 1) (by omega)
  obtain ⟨val, hsum, hval⟩ := Cpp.exists_foldlM_range' (a := 0) (k := r)
    (f := fun val j => do
      let v ← data[base + stride * j]?
      some (val + v)) (I := fun j val => val = (r + 1) * f 0 + ∑ i ∈ Finset.range j, f i)
    (s := (r + 1) * f 0) (by simp) (fun j s _ hj hs => by
      refine ⟨s + f j, ?_, by rw [hs, Finset.sum_range_succ, Nat.add_assoc]⟩
      rw [hline j (by omega), Option.bind_eq_bind, Option.bind_some])
  rw [Nat.zero_add] at hval
  have hswept : Swept temp f stride r n base 0 _ := swept_start (by omega) hval
  obtain ⟨s₁, hloop₁, h₁⟩ := Cpp.exists_foldlM_range' (a := 0) (k := r + 1)
    (f := fun s _ => enter data stride r (f 0) s) hswept
    (fun j s _ hj h => h.enter hstride hr hline hbound (by omega))
  rw [Nat.zero_add] at h₁
  obtain ⟨s₂, hloop₂, h₂⟩ := Cpp.exists_foldlM_range' (a := r + 1) (k := n - r - (r + 1))
    (f := fun s _ => middle data stride r s) h₁
    (fun j s hj hj' h => h.middle hstride hr hline hbound hj (by omega))
  rw [show r + 1 + (n - r - (r + 1)) = n - r by omega] at h₂
  obtain ⟨s₃, hloop₃, h₃⟩ := Cpp.exists_foldlM_range' (a := n - r) (k := r)
    (f := fun s _ => leave data stride r (f (n - 1)) s) h₂
    (fun j s hj hj' h => h.leave hstride hr hline hbound hj (by omega))
  rw [Nat.sub_add_cancel (by omega)] at h₃
  refine ⟨s₃.temp, ?_, h₃.length, h₃.done, h₃.rest⟩
  refine Option.bind_eq_some_iff.mpr ⟨_, hfirst, ?_⟩
  refine Option.bind_eq_some_iff.mpr ⟨_, hlast, ?_⟩
  refine Option.bind_eq_some_iff.mpr ⟨_, hsum, ?_⟩
  refine Option.bind_eq_some_iff.mpr ⟨_, hloop₁, ?_⟩
  refine Option.bind_eq_some_iff.mpr ⟨_, hloop₂, ?_⟩
  exact Option.bind_eq_some_iff.mpr ⟨_, hloop₃, rfl⟩

end

/-! ## The lines of a frame -/

section

variable {data temp : List ℕ} {stride n lines size : ℕ}

/-- The lines of a frame are blurred one after the other, when they do not meet. -/
theorem exists_blurLines (data temp : List ℕ) (base : ℕ → ℕ) (hr : 2 * r + 1 ≤ n)
    (hstride : 0 < stride) (hdata : data.length = size)
    (htemp : temp.length = size) (hinside : ∀ i < lines, ∀ j < n, base i + stride * j < size)
    (hapart : ∀ i < lines, ∀ i' < lines, ∀ j < n, ∀ j' < n,
      base i + stride * j = base i' + stride * j' → i = i') :
    ∃ temp', (List.range' 0 lines).foldlM
        (fun temp i => blurLine data stride r n (base i) temp) temp = some temp' ∧
      temp'.length = size ∧ ∀ i < lines, ∀ j < n, temp'[base i + stride * j]? =
        some (blurred r (windowSum r n (fun j => data.getD (base i + stride * j) 0) j)) := by
  obtain ⟨temp', hloop, hlength, hdone⟩ := Cpp.exists_foldlM_range' (a := 0) (k := lines)
    (f := fun temp i => blurLine data stride r n (base i) temp) (s := temp)
    (I := fun k temp => temp.length = size ∧ ∀ i < k, ∀ j < n, temp[base i + stride * j]? =
      some (blurred r (windowSum r n (fun j => data.getD (base i + stride * j) 0) j)))
    ⟨htemp, fun i hi => absurd hi (Nat.not_lt_zero i)⟩ (fun k temp _ hk ⟨hlength, hdone⟩ => by
      rw [Nat.zero_add] at hk
      obtain ⟨temp', hblur, hlength', hnew, hrest⟩ := exists_blurLine hstride hr
        (f := fun j => data.getD (base k + stride * j) 0)
        (fun j hj => by
          have hlt := hinside k hk j hj
          rw [List.getD_eq_getElem?_getD, List.getElem?_eq_getElem (by omega), Option.getD_some])
        (fun j hj => by rw [hlength]; exact hinside k hk j hj)
      refine ⟨temp', hblur, hlength'.trans hlength, fun i hi j hj => ?_⟩
      rcases Nat.lt_succ_iff_lt_or_eq.mp hi with hold | rfl
      · rw [hrest _ fun j' hj' heq => absurd (hapart i (by omega) k hk j hj j' hj' heq) hold.ne]
        exact hdone i hold j hj
      · exact hnew j hj)
  rw [Nat.zero_add] at hdone
  exact ⟨temp', hloop, hlength, hdone⟩

/-- A turn of the first loop goes on to the next value. -/
theorem ri_of_enter {fv : ℕ} {s s' : Line} (h : enter data stride r fv s = some s') :
    s'.ri = s.ri + stride := by
  obtain ⟨right, -, h⟩ := Option.bind_eq_some_iff.mp h
  obtain ⟨s₁, hemit, h⟩ := Option.bind_eq_some_iff.mp h
  have hri : s₁.ri = s.ri := by
    rw [← Option.some.inj (Option.ite_none_right_eq_some.mp hemit).2]
  rw [← Option.some.inj h, ← hri]

/-- The first loop of a line reads the pixel where the first box ends. -/
theorem blurLine_eq_none {ti : ℕ} (h : data.length ≤ ti + stride * (2 * r)) :
    blurLine data stride r n ti temp = none := by
  rw [Option.eq_none_iff_forall_ne_some]
  intro temp' hblur
  obtain ⟨fv, -, hblur⟩ := Option.bind_eq_some_iff.mp hblur
  obtain ⟨lv, -, hblur⟩ := Option.bind_eq_some_iff.mp hblur
  obtain ⟨val, -, hblur⟩ := Option.bind_eq_some_iff.mp hblur
  obtain ⟨s, hloop, -⟩ := Option.bind_eq_some_iff.mp hblur
  obtain ⟨t, hri, hsome⟩ := Cpp.exists_isSome_of_foldlM_range'
    (I := fun j s => s.ri = ti + stride * (r + j)) rfl (fun j s s' hstep hri => by
      rw [ri_of_enter hstep, hri, Nat.add_assoc, ← Nat.mul_succ]
      rfl) hloop (Nat.zero_le r) (by omega)
  obtain ⟨s', hstep⟩ := Option.isSome_iff_exists.mp hsome
  obtain ⟨right, hright, -⟩ := Option.bind_eq_some_iff.mp hstep
  rw [hri, ← two_mul, List.getElem?_eq_none h] at hright
  exact absurd hright (by simp)

theorem blurLines_eq_none (base : ℕ → ℕ) {i : ℕ} (hi : i < lines)
    (h : data.length ≤ base i + stride * (2 * r)) :
    (List.range' 0 lines).foldlM (fun temp i => blurLine data stride r n (base i) temp) temp
      = none := by
  rw [Option.eq_none_iff_forall_ne_some]
  intro temp' hloop
  obtain ⟨t, -, hsome⟩ := Cpp.exists_isSome_of_foldlM_range' (I := fun _ _ => True) trivial
    (fun _ _ _ _ _ => trivial) hloop (Nat.zero_le i) (by omega)
  rw [blurLine_eq_none h] at hsome
  exact absurd hsome (by simp)

end

/-! ## The passes -/

/-- The pixels of a frame, row by row. -/
def table (w h : ℕ) (p : ℕ → ℕ → ℕ) : List ℕ :=
  (List.range (w * h)).map fun k => p (k / w) (k % w)

/-- The means over the boxes in the rows, and then in the columns. -/
def smooth (w h r : ℕ) (p : ℕ → ℕ → ℕ) (i j : ℕ) : ℕ :=
  windowMean r h (fun i' => windowMean r w (p i') j) i

/-- What the first passes make of some pixels. -/
def smoothed (w h radius passes : ℕ) (p : ℕ → ℕ → ℕ) : ℕ → ℕ → ℕ → ℕ
  | 0 => p
  | pass + 1 => smooth w h (boxRadius radius passes pass) (smoothed w h radius passes p pass)

section

variable {w h : ℕ} {p : ℕ → ℕ → ℕ} {data : List ℕ}

theorem length_table : (table w h p).length = w * h := by
  rw [table, List.length_map, List.length_range]

theorem rowMajor_lt {i j : ℕ} (hi : i < h) (hj : j < w) : i * w + j < w * h := by
  calc i * w + j < i * w + w := by omega
    _ = (i + 1) * w := (Nat.succ_mul i w).symm
    _ ≤ w * h := by
      rw [Nat.mul_comm w h]
      exact Nat.mul_le_mul_right w hi

theorem rowMajor_div (i : ℕ) {j : ℕ} (hj : j < w) : (i * w + j) / w = i := by
  rw [Nat.mul_comm, Nat.mul_add_div (by omega), Nat.div_eq_of_lt hj, Nat.add_zero]

theorem rowMajor_mod (i : ℕ) {j : ℕ} (hj : j < w) : (i * w + j) % w = j := by
  rw [Nat.mul_comm, Nat.mul_add_mod, Nat.mod_eq_of_lt hj]

theorem column_place (w i j : ℕ) : j + w * i = i * w + j := by
  rw [Nat.add_comm, Nat.mul_comm]

theorem getElem?_table {i j : ℕ} (hi : i < h) (hj : j < w) :
    (table w h p)[i * w + j]? = some (p i j) := by
  rw [table, List.getElem?_map, List.getElem?_range (rowMajor_lt hi hj), Option.map_some,
    rowMajor_div i hj, rowMajor_mod i hj]

theorem getD_table {i j : ℕ} (hi : i < h) (hj : j < w) :
    (table w h p).getD (i * w + j) 0 = p i j := by
  rw [List.getD_eq_getElem?_getD, getElem?_table hi hj, Option.getD_some]

/-- The pixels of a frame are known when each of them is. -/
theorem eq_table (hw : 0 < w) (hlength : data.length = w * h)
    (hdata : ∀ i < h, ∀ j < w, data[i * w + j]? = some (p i j)) : data = table w h p := by
  refine List.ext_getElem? fun k => ?_
  rcases Nat.lt_or_ge k (w * h) with hk | hk
  · have hi : k / w < h := Nat.div_lt_of_lt_mul hk
    have hj : k % w < w := Nat.mod_lt k hw
    have hplace : k / w * w + k % w = k := Nat.div_add_mod' k w
    have hleft := hdata _ hi _ hj
    have hright := getElem?_table (p := p) hi hj
    rw [hplace] at hleft hright
    rw [hleft, hright]
  · rw [List.getElem?_eq_none (by omega), List.getElem?_eq_none (by rw [length_table]; omega)]

/-- The code computes a mean. -/
theorem blurred_windowSum {n : ℕ} {f : ℕ → ℕ} (hn : 0 < n) (hr : r < 2 ^ 10)
    (hf : ∀ j < n, f j ≤ 1023) (j : ℕ) : blurred r (windowSum r n f j) = windowMean r n f j := by
  rw [Stream.windowMean_eq]
  exact blurred_eq hr (Stream.windowSum_le hn hf)

/-- The rows of a frame. -/
theorem exists_rows (hlength : data.length = w * h) (hfit : 2 * r + 1 ≤ w) :
    ∃ rows, (List.range' 0 h).foldlM (fun temp i => blurLine data 1 r w (i * w) temp) data
        = some rows ∧ rows.length = w * h ∧ ∀ i < h, ∀ j < w, rows[i * w + j]? =
        some (blurred r (windowSum r w (fun j => data.getD (i * w + j) 0) j)) := by
  obtain ⟨rows, hloop, hlength, hrows⟩ := exists_blurLines data data (· * w) hfit
    one_pos hlength hlength
    (fun i hi j hj => by rw [one_mul]; exact rowMajor_lt hi hj)
    (fun i hi i' hi' j hj j' hj' heq => by
      rw [one_mul, one_mul] at heq
      rw [← rowMajor_div i hj, heq, rowMajor_div i' hj'])
  simp only [one_mul] at hrows
  exact ⟨rows, hloop, hlength, hrows⟩

variable (hw : 0 < w) (hh : 0 < h)

include hw

theorem rows_table (hr : r < 2 ^ 10) (hfit : 2 * r + 1 ≤ w) (hp : ∀ i < h, ∀ j < w, p i j ≤ 1023) :
    (List.range' 0 h).foldlM (fun temp i => blurLine (table w h p) 1 r w (i * w) temp) (table w h p)
      = some (table w h fun i j => windowMean r w (p i) j) := by
  obtain ⟨rows, hloop, hlength, hrows⟩ := exists_rows (length_table (p := p)) hfit
  rw [hloop]
  refine congrArg some (eq_table hw hlength fun i hi j hj => ?_)
  rw [hrows i hi j hj, Stream.windowSum_congr hw fun j hj => getD_table hi hj,
    blurred_windowSum hw hr (hp i hi)]

include hh

/-- The columns of a frame. -/
theorem columns_table (hr : r < 2 ^ 10) (hfit : 2 * r + 1 ≤ h)
    (hp : ∀ i < h, ∀ j < w, p i j ≤ 1023) :
    (List.range' 0 w).foldlM (fun temp i => blurLine (table w h p) w r h i temp) (table w h p)
      = some (table w h fun i j => windowMean r h (fun i' => p i' j) i) := by
  obtain ⟨columns, hloop, hlength, hcolumns⟩ := exists_blurLines (table w h p)
    (table w h p) id hfit hw length_table length_table
    (fun j hj i hi => by
      rw [id, column_place]
      exact rowMajor_lt hi hj)
    (fun j hj j' hj' i hi i' hi' heq => by
      rw [id, id, column_place, column_place] at heq
      rw [← rowMajor_mod i hj, heq, rowMajor_mod i' hj'])
  rw [show (fun temp i => blurLine (table w h p) w r h i temp) = fun temp i =>
    blurLine (table w h p) w r h (id i) temp from rfl, hloop]
  refine congrArg some (eq_table hw hlength fun i hi j hj => ?_)
  have hpixel := hcolumns j hj i hi
  rw [id, column_place] at hpixel
  have hline : ∀ i < h, (table w h p).getD (j + w * i) 0 = p i j := fun i hi => by
    rw [column_place]
    exact getD_table hi hj
  rw [hpixel, Stream.windowSum_congr hh hline, blurred_windowSum hh hr fun i hi => hp i hi j hj]

/-- A pass. -/
theorem blurPass_table (hsmall : h < 2 ^ 11) (hp : ∀ i < h, ∀ j < w, p i j ≤ 1023) :
    blurPass w h r (table w h p) =
      if 2 * r + 1 ≤ w ∧ 2 * r + 1 ≤ h then some (table w h (smooth w h r p)) else none := by
  split_ifs with hfit
  · refine Option.bind_eq_some_iff.mpr ⟨_, rows_table hw (by omega) hfit.1 hp, ?_⟩
    exact columns_table hw hh (by omega) hfit.2 fun i hi j hj =>
      Stream.windowMean_le hw fun j hj => hp i hi j hj
  unfold blurPass
  by_cases hrow : 2 * r + 1 ≤ w
  · obtain ⟨rows, hloop, hlength, -⟩ := exists_rows (length_table (p := p)) hrow
    rw [hloop]
    refine blurLines_eq_none id hw ?_
    rw [hlength, id, Nat.zero_add]
    exact Nat.mul_le_mul_left w (by omega)
  · rw [blurLines_eq_none (· * w) (Nat.sub_lt hh one_pos) ?_]
    · rfl
    · obtain ⟨m, rfl⟩ : ∃ m, h = m + 1 := ⟨h - 1, by omega⟩
      rw [length_table, one_mul, Nat.add_sub_cancel, Nat.mul_succ, Nat.mul_comm]
      exact Nat.add_le_add_left (by omega) _

/-- The blurred pixels are at most as bright as the pixels. -/
theorem smooth_le {c : ℕ} (hp : ∀ i < h, ∀ j < w, p i j ≤ c) (i j : ℕ) : smooth w h r p i j ≤ c :=
  Stream.windowMean_le hh fun i' hi' => Stream.windowMean_le hw fun j' hj' => hp i' hi' j' hj'

theorem smoothed_le {c : ℕ} (radius passes : ℕ) (hp : ∀ i < h, ∀ j < w, p i j ≤ c) (pass : ℕ) :
    ∀ i < h, ∀ j < w, smoothed w h radius passes p pass i j ≤ c := by
  induction pass with
  | zero => exact hp
  | succ pass ih => exact fun i _ j _ => smooth_le hw hh ih i j

end

/-- The box of each pass fits into the frame. -/
def BoxesFit (w h radius passes : ℕ) : Prop :=
  ∀ pass < passes,
    2 * boxRadius radius passes pass + 1 ≤ w ∧ 2 * boxRadius radius passes pass + 1 ≤ h

instance (w h radius passes : ℕ) : Decidable (BoxesFit w h radius passes) :=
  inferInstanceAs (Decidable (∀ pass < passes, _ ∧ _))

theorem nextPass_natCast {pass : ℕ} (h : pass + 1 < 2 ^ 7) : nextPass pass = (pass + 1 : ℕ) := by
  rw [nextPass]
  omega

/-- The loop from one of its passes on, when there are at most 127. -/
theorem passLoop_eq {w h passes turns pass : ℕ} {p : ℕ → ℕ → ℕ} (radius : ℕ) (hw : 0 < w)
    (hh : 0 < h) (hsmall : h < 2 ^ 11) (hp : ∀ i < h, ∀ j < w, p i j ≤ 1023)
    (hcounter : passes < 2 ^ 7) (hpass : pass ≤ passes) (hturns : passes ≤ pass + turns) :
    passLoop w h radius passes turns pass (table w h (smoothed w h radius passes p pass)) =
      if ∀ k, pass ≤ k → k < passes →
        2 * boxRadius radius passes k + 1 ≤ w ∧ 2 * boxRadius radius passes k + 1 ≤ h then
        .ok (table w h (smoothed w h radius passes p passes))
      else .error .outside := by
  induction turns generalizing pass with
  | zero =>
    obtain rfl : pass = passes := by omega
    rw [passLoop, if_neg (by omega), if_pos fun k hk hlt => absurd hlt (Nat.not_lt.mpr hk)]
  | succ turns ih =>
    rw [passLoop]
    rcases Nat.eq_or_lt_of_le hpass with rfl | hlt
    · rw [if_neg (by omega), if_pos fun k hk hlt => absurd hlt (Nat.not_lt.mpr hk)]
    · rw [if_pos (by exact_mod_cast hlt),
        blurPass_table hw hh hsmall (smoothed_le hw hh radius passes hp pass)]
      -- either this pass goes outside, or the rest of the loop decides
      by_cases hfit : 2 * boxRadius radius passes pass + 1 ≤ w ∧
          2 * boxRadius radius passes pass + 1 ≤ h
      · rw [if_pos hfit]
        dsimp only
        rw [nextPass_natCast (by omega)]
        refine (ih (by omega) (by omega)).trans (if_congr ?_ rfl rfl)
        constructor
        · intro hrest k hk hlt
          rcases Nat.eq_or_lt_of_le hk with rfl | hk
          · exact hfit
          · exact hrest k hk hlt
        · exact fun hall k hk hlt => hall k (by omega) hlt
      · rw [if_neg hfit, if_neg fun hall => hfit (hall pass (Nat.le_refl pass) hlt)]

/-- **The blur of a frame of the camera stays inside its arrays exactly when the boxes fit into the
frame, and then each pass replaces each pixel by the nearest integer to the mean over its box**, if
there are 1 to 127 passes. -/
theorem applyFastBlur_eq (img : Image) (radius passes turns : ℕ) (hradius : 1 ≤ radius)
    (hpasses : 1 ≤ passes ∧ passes < 2 ^ 7) (hturns : passes ≤ turns)
    (hw : 0 < img.w) (hh : 0 < img.h) (hsmall : img.h < 2 ^ 11)
    (hvalues : ∀ v ∈ img.data, v ≤ 1023) :
    applyFastBlur img radius passes turns =
      if BoxesFit img.w img.h radius passes then
        .ok (table img.w img.h (smoothed img.w img.h radius passes
          (fun i j => img.data.getD (i * img.w + j) 0) passes))
      else .error .outside := by
  set p : ℕ → ℕ → ℕ := fun i j => img.data.getD (i * img.w + j) 0 with hpdef
  have hdata : img.data = table img.w img.h p := eq_table hw img.length_data fun i hi j hj => by
    have hlt := rowMajor_lt hi hj
    rw [hpdef]
    dsimp only
    rw [List.getD_eq_getElem?_getD, List.getElem?_eq_getElem (by rw [img.length_data]; omega),
      Option.getD_some]
  have hp : ∀ i < img.h, ∀ j < img.w, p i j ≤ 1023 := fun i hi j hj =>
    hvalues _ (List.mem_of_getElem? (by rw [hdata]; exact getElem?_table hi hj))
  have hloop := passLoop_eq radius hw hh hsmall hp hpasses.2 (Nat.zero_le passes)
    (by omega : passes ≤ 0 + turns)
  rw [smoothed, ← hdata] at hloop
  unfold applyFastBlur
  rw [if_neg (by omega), Int.toNat_natCast]
  exact hloop.trans (if_congr (forall_congr' fun k => by simp) rfl rfl)

/-- From 128 passes on the counter never gets there. -/
theorem applyFastBlur_ne_ok (img : Image) {radius : ℤ} {passes : ℕ} (hradius : 1 ≤ radius)
    (hpasses : 2 ^ 7 ≤ passes) (turns : ℕ) (data : List ℕ) :
    applyFastBlur img radius passes turns ≠ .ok data := by
  have hloop : ∀ (turns : ℕ) (n : ℤ) (data' : List ℕ), n < 2 ^ 7 →
      passLoop img.w img.h radius.toNat passes turns n data' ≠ .ok data := by
    intro turns
    induction turns with
    | zero =>
      intro n data' hn
      rw [passLoop, if_pos (by omega)]
      exact nofun
    | succ turns ih =>
      intro n data' hn
      rw [passLoop, if_pos (by omega)]
      split
      · exact ih _ _ (by unfold nextPass; omega)
      · exact nofun
  rw [applyFastBlur, if_neg (by omega)]
  exact hloop turns 0 img.data (by decide)

/-- A bright pixel in the middle of nine. -/
def bright9 : Image where
  w := 3
  h := 3
  data := [0, 0, 0, 0, 900, 0, 0, 0, 0]
  length_data := rfl
  histMean := 100

theorem applyFastBlur_bright9 : applyFastBlur bright9 1 2 2 =
    if BoxesFit 3 3 1 2 then
      .ok (table 3 3 (smoothed 3 3 1 2 (fun i j => bright9.data.getD (i * 3 + j) 0) 2))
    else .error .outside :=
  applyFastBlur_eq bright9 1 2 2 (by decide) (by decide) (by decide) (by decide) (by decide)
    (by decide) (by decide)

end ClickA.Processing
