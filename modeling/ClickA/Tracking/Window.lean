import ClickA.Camera.Windows
import ClickA.Cpp.Convert
import Mathlib.Data.Rat.Floor

/-!
# The window of a tracked spot

`Tracking::updateTrackingWindow` of `tracking.cpp`: when a spot is too close to an edge of the
window, or the window does not have the size for the spot, a new window around the spot is computed
and quantized. The coordinates of the spot and its width are exact numbers here.

## Main definitions

* `updateTrackingWindow`: the function
* `Legal`: a window is on the sensor and on its grid, and has a point inside
* `Fits`: a window around a point ends on the sensor

## Main results

* `legal_iff`: a new window is legal if and only if the window around the spot fits on both axes
-/

namespace ClickA.Tracking

open Pat (AOI cameraWidth cameraHeight)
open Camera (OnSensor)
open Cpp (trunc trunc_le_iff sub_one_lt_trunc trunc_le)

variable {K : Type} [Field K] [LinearOrder K] [FloorRing K]

/-! ## The code -/

/-- `TRACK_MIN_SPOT_LIMIT`. -/
def trackMinSpotLimit : ℤ := 25

/-- `TRACK_WINDOW_SIZE_TOLERANCE`. -/
def trackWindowSizeTolerance : ℤ := 10

/-- The smallest multiple of a grid that is not smaller, of a positive number. -/
def padded (grid n : ℤ) : ℤ := if n.tmod grid ≠ 0 then n + (grid - n.tmod grid) else n

/-- The clamping and quantization of an axis: the offset and the length. -/
def quantize (grid x width : ℤ) : ℤ × ℤ :=
  if x ≥ 0 then
    let temp := x.tmod grid
    (x - temp, padded grid (width + temp))
  else (0, padded grid (width + x))

/-- The new window, around a spot at a place of the sensor. -/
def newWindow (spotWidth x y : K) : AOI :=
  let width := trunc (spotWidth + 2 * trackMinSpotLimit)
  let height := width
  let x := trunc (x - width.tdiv 2)
  let y := trunc (y - height.tdiv 2)
  let (x, width) := quantize 16 x width
  let (y, height) := quantize 8 y height
  ⟨x, y, width, height⟩

/-- The discrepancy of a size is above the tolerance. -/
def Discrepant (size : ℤ) (spotWidth : K) : Prop :=
  |(size : K) - (spotWidth + 2 * trackMinSpotLimit)| > ↑(30 + trackWindowSizeTolerance)

/-- A coordinate of the centroid is too close to an edge of the window. -/
def OutOfBounds (size : ℤ) (spotWidth x : K) : Prop :=
  let distanceLimit := if spotWidth > trackMinSpotLimit then spotWidth else (trackMinSpotLimit : K)
  x < distanceLimit ∨ x > size - distanceLimit

instance (size : ℤ) (spotWidth : K) : Decidable (Discrepant size spotWidth) :=
  inferInstanceAs (Decidable (_ < _))

instance (size : ℤ) (spotWidth x : K) : Decidable (OutOfBounds size spotWidth x) :=
  inferInstanceAs (Decidable (_ ∨ _))

/-- `updateTrackingWindow`, with a frame of an area, a spot of a width at a place of the frame, and
the window that is updated. -/
def updateTrackingWindow (area : AOI) (spotWidth spotX spotY : K) (window : AOI) : AOI :=
  if Discrepant window.w spotWidth ∨ Discrepant window.h spotWidth ∨
      OutOfBounds window.w spotWidth spotX ∨ OutOfBounds window.h spotWidth spotY then
    newWindow spotWidth (area.x + spotX) (area.y + spotY)
  else window

variable [IsStrictOrderedRing K]

/-! ## The grid -/

section Grid

variable {grid n m x width size : ℤ} (hgrid : 0 < grid)
include hgrid

/-- A padded number is the next multiple. -/
theorem padded_spec (hn : 0 < n) :
    grid ∣ padded grid n ∧ n ≤ padded grid n ∧ padded grid n < n + grid := by
  unfold padded
  rw [Int.tmod_eq_emod_of_nonneg hn.le]
  have hlow := Int.emod_nonneg n hgrid.ne'
  have hhigh := Int.emod_lt_of_pos n hgrid
  have hdiv := Int.mul_ediv_add_emod n grid
  split
  · refine ⟨⟨n / grid + 1, ?_⟩, by omega, by omega⟩
    rw [mul_add, mul_one]
    omega
  · rename_i hmod
    refine ⟨Int.dvd_of_emod_eq_zero (not_not.mp hmod), le_refl _, by omega⟩

/-- Below a multiple, a number is padded to at most that one. -/
theorem padded_le_iff (hn : 0 < n) (hm : grid ∣ m) : padded grid n ≤ m ↔ n ≤ m := by
  obtain ⟨hdvd, hle, hlt⟩ := padded_spec hgrid hn
  constructor
  · exact le_trans hle
  · intro hnm
    obtain ⟨k, hk⟩ := hdvd
    obtain ⟨l, rfl⟩ := hm
    rw [hk] at hlt ⊢
    apply Int.mul_le_mul_of_nonneg_left ?_ hgrid.le
    have hnext : grid * k < grid * (l + 1) := by
      rw [mul_add, mul_one]
      omega
    exact Int.lt_add_one_iff.mp (Int.lt_of_mul_lt_mul_left hnext hgrid.le)

/-- A quantized part is on the grid, holds the part, and ends below a multiple if and only if the
part does. -/
theorem quantize_spec (hwidth : 0 < width) (hend : 0 < x + width) (hsize : grid ∣ size) :
    0 ≤ (quantize grid x width).1 ∧ 0 < (quantize grid x width).2 ∧
    grid ∣ (quantize grid x width).1 ∧ grid ∣ (quantize grid x width).2 ∧
    (quantize grid x width).1 ≤ max x 0 ∧
    x + width ≤ (quantize grid x width).1 + (quantize grid x width).2 ∧
    ((quantize grid x width).1 + (quantize grid x width).2 ≤ size ↔ x + width ≤ size) := by
  unfold quantize
  split
  · rename_i hx
    dsimp only
    rw [Int.tmod_eq_emod_of_nonneg hx]
    have hlow := Int.emod_nonneg x hgrid.ne'
    have hhigh : x % grid ≤ x := by
      have hdiv := Int.mul_ediv_add_emod x grid
      have hquotient : 0 ≤ grid * (x / grid) := mul_nonneg hgrid.le (Int.ediv_nonneg hx hgrid.le)
      omega
    have hdvd : grid ∣ x - x % grid := Int.dvd_self_sub_emod
    obtain ⟨hpadded, hle, -⟩ := padded_spec hgrid (n := width + x % grid) (by omega)
    have hbelow := padded_le_iff hgrid (n := width + x % grid) (by omega) (Int.dvd_sub hsize hdvd)
    refine ⟨by omega, by omega, hdvd, hpadded, by omega, by omega, ?_⟩
    rw [← le_sub_iff_add_le', hbelow]
    omega
  · rename_i hx
    dsimp only
    obtain ⟨hpadded, hle, -⟩ := padded_spec hgrid (n := width + x) (by omega)
    have hbelow := padded_le_iff hgrid (n := width + x) (by omega) hsize
    refine ⟨le_refl _, by omega, dvd_zero _, hpadded, by omega, by omega, ?_⟩
    rw [zero_add, hbelow]
    omega

end Grid

/-! ## The new window -/

/-- A window is on the sensor and on the grid of the camera, with a point inside. -/
structure Legal (window : AOI) (x y : K) : Prop where
  onSensor : OnSensor window
  gridX : 16 ∣ window.x
  gridWidth : 16 ∣ window.w
  gridY : 8 ∣ window.y
  gridHeight : 8 ∣ window.h
  fromX : window.x ≤ x
  toX : x < window.x + window.w
  fromY : window.y ≤ y
  toY : y < window.y + window.h

/-- An area is on the sensor, and a spot is in it. -/
structure InFrame (area : AOI) (spotX spotY : K) : Prop where
  onSensor : OnSensor area
  fromX : 0 ≤ spotX
  toX : spotX < area.w
  fromY : 0 ≤ spotY
  toY : spotY < area.h

/-- The size of a window around a spot of a width. -/
def sizeFor (spotWidth : K) : ℤ := ⌊spotWidth⌋ + 50

/-- Around a center, the part of a window behind it ends on the sensor. A window that is larger than
the sensor begins before it, where the offset is rounded up. -/
def Fits (size : ℤ) (spotWidth center : K) : Prop :=
  let behind := sizeFor spotWidth - sizeFor spotWidth / 2
  if sizeFor spotWidth ≤ size then center < size - behind + 1 else center ≤ size - behind

/-- One axis of a new window. -/
theorem axis_spec {grid size width : ℤ} {center : K} (hgrid : 0 < grid) (hsize : grid ∣ size)
    (hwidth : 2 ≤ width) (hcenter : 0 ≤ center) :
    let axis := quantize grid (trunc (center - (width.tdiv 2 : ℤ))) width
    (0 ≤ axis.1 ∧ 0 < axis.2 ∧ grid ∣ axis.1 ∧ grid ∣ axis.2) ∧
    ((axis.1 : K) ≤ center ∧ center < axis.1 + axis.2) ∧
    (axis.1 + axis.2 ≤ size ↔
      if width ≤ size then center < size - ((width - width / 2 : ℤ) : K) + 1
      else center ≤ size - ((width - width / 2 : ℤ) : K)) := by
  intro axis
  have hhalf : width.tdiv 2 = width / 2 := Int.tdiv_eq_ediv_of_nonneg (by omega)
  set x : ℤ := trunc (center - (width.tdiv 2 : ℤ)) with hx
  have hbegin : center - (width / 2 : ℤ) - 1 < x := by
    rw [hx, hhalf]
    exact sub_one_lt_trunc _
  have hend : center < x + width := by
    have hrest : ((width / 2 : ℤ) : K) + 1 ≤ (width : K) := by
      exact_mod_cast (by omega : width / 2 + 1 ≤ width)
    linarith
  have hpos : 0 < x + width := by
    have : (0 : K) < x + width := lt_of_le_of_lt hcenter hend
    exact_mod_cast this
  obtain ⟨h0, hlength, hdvd, hdvd', hmax, hlast, hiff⟩ :=
    quantize_spec hgrid (by omega : 0 < width) hpos hsize
  refine ⟨⟨h0, hlength, hdvd, hdvd'⟩, ⟨?_, ?_⟩, ?_⟩
  · have hmax' : ((max x 0 : ℤ) : K) ≤ center := by
      rw [Int.cast_max, Int.cast_zero]
      apply max_le ?_ hcenter
      apply trunc_le hcenter
      rw [hhalf, sub_le_self_iff]
      exact_mod_cast (by omega : 0 ≤ width / 2)
    exact le_trans (by exact_mod_cast hmax) hmax'
  · apply lt_of_lt_of_le hend
    exact_mod_cast hlast
  · rw [hiff, ← le_sub_iff_add_le, hx, trunc_le_iff, hhalf]
    simp only [sub_nonneg]
    push_cast
    split
    · constructor
      · intro h
        linarith
      · intro h
        linarith
    · constructor
      · intro h
        linarith
      · intro h
        linarith

/-- The size of a new window. -/
theorem trunc_size {spotWidth : K} (hwidth : 0 ≤ spotWidth) :
    trunc (spotWidth + 2 * trackMinSpotLimit) = sizeFor spotWidth := by
  have hlimit : (2 * trackMinSpotLimit : K) = (50 : ℤ) := by
    unfold trackMinSpotLimit
    norm_num
  unfold trunc sizeFor
  rw [hlimit, Int.floor_add_intCast, if_pos]
  have : (0 : K) ≤ (50 : ℤ) := by norm_num
  linarith

/-- When the window of a spot in a frame changes, the new one is legal if and only if the part
behind the center fits on both axes. -/
theorem legal_iff (area : AOI) (spotWidth spotX spotY : K) (window : AOI)
    (hframe : InFrame area spotX spotY) (hwidth : 0 ≤ spotWidth)
    (hchanged : updateTrackingWindow area spotWidth spotX spotY window ≠ window) :
    Legal (updateTrackingWindow area spotWidth spotX spotY window) (area.x + spotX)
      (area.y + spotY) ↔
      Fits cameraWidth spotWidth (area.x + spotX) ∧
          Fits cameraHeight spotWidth (area.y + spotY) := by
  have hnew : updateTrackingWindow area spotWidth spotX spotY window
      = newWindow spotWidth (area.x + spotX) (area.y + spotY) := by
    unfold updateTrackingWindow at hchanged ⊢
    split at hchanged
    · rw [if_pos ‹_›]
    · exact absurd rfl hchanged
  have hx : (0 : K) ≤ area.x + spotX :=
      add_nonneg (by exact_mod_cast hframe.onSensor.startX) hframe.fromX
  have hy : (0 : K) ≤ area.y + spotY :=
      add_nonneg (by exact_mod_cast hframe.onSensor.startY) hframe.fromY
  have hsize : 2 ≤ sizeFor spotWidth := by
    have hfloor := Int.floor_nonneg.mpr hwidth
    unfold sizeFor
    omega
  obtain ⟨⟨hx0, hw, hdvdX, hdvdW⟩, ⟨hfromX, htoX⟩, hendX⟩ := axis_spec
    (by decide : (0 : ℤ) < 16) (by decide : (16 : ℤ) ∣ cameraWidth) hsize hx
  obtain ⟨⟨hy0, hh, hdvdY, hdvdH⟩, ⟨hfromY, htoY⟩, hendY⟩ := axis_spec
    (by decide : (0 : ℤ) < 8) (by decide : (8 : ℤ) ∣ cameraHeight) hsize hy
  rw [hnew]
  unfold newWindow Fits
  rw [trunc_size hwidth]
  dsimp only
  rw [← hendX, ← hendY]
  constructor
  · intro h
    exact ⟨h.onSensor.endX, h.onSensor.endY⟩
  · rintro ⟨hlastX, hlastY⟩
    exact ⟨⟨hx0, hy0, hw, hh, hlastX, hlastY⟩, hdvdX, hdvdW, hdvdY, hdvdH, hfromX, htoX, hfromY,
      htoY⟩

/-- The whole sensor. -/
def fullWindow : AOI := ⟨0, 0, cameraWidth, cameraHeight⟩

/-- A spot in the middle of the sensor. -/
theorem legal_iff_middle :
    Legal (updateTrackingWindow fullWindow 3 (1296 : ℚ) 972 fullWindow)
        (fullWindow.x + 1296 : ℚ) (fullWindow.y + 972) ↔
      Fits cameraWidth (3 : ℚ) (fullWindow.x + 1296) ∧ Fits cameraHeight (3 : ℚ)
          (fullWindow.y + 972) := by
  apply legal_iff fullWindow 3 1296 972 fullWindow
  · refine ⟨⟨?_, ?_, ?_, ?_, ?_, ?_⟩, ?_, ?_, ?_, ?_⟩
    all_goals decide +kernel
  · decide +kernel
  · decide +kernel

/-- A spot of six pixels next to the right edge. -/
theorem not_legal_right :
    InFrame fullWindow (2585 : ℚ) 972 ∧
    updateTrackingWindow fullWindow 3 (2585 : ℚ) 972 fullWindow ≠ fullWindow ∧
    ¬ Legal (updateTrackingWindow fullWindow 3 (2585 : ℚ) 972 fullWindow) (2585 : ℚ) 972 := by
  refine ⟨⟨⟨?_, ?_, ?_, ?_, ?_, ?_⟩, ?_, ?_, ?_, ?_⟩, ?_, fun h => ?_⟩
  case refine_12 =>
    have hend := h.onSensor.endX
    revert hend
    decide +kernel
  all_goals decide +kernel

end ClickA.Tracking
