import ClickA.Pat.State

/-!
# Windows on the sensor

`Camera::setCenteredWindow` of `camera.cpp`, with the sizes that the PAT process gives it: those of
the calibration, a commanded one, and what the acquisition makes of it when it fails.

## Main definitions

* `setCenteredWindow`: the window that is written
* `Passed`: the sizes
* `OnSensor`: a window is a part of the sensor

## Main results

* `onSensor_setCenteredWindow_iff`: the window is on the sensor if and only if its lower edge is
  clamped, or in reach
-/

namespace ClickA.Camera

open Pat (AOI cameraWidth cameraHeight)

/-! ## The code -/

/-- `setCenteredWindow`, on one axis of a size: the offset and the length. -/
def centeredAxis (size x w : ℤ) : ℤ × ℤ :=
  if x > w.tdiv 2 then
    let x := x - w.tdiv 2
    if x + w > size then (x, size - x) else (x, w)
  else (0, x + w.tdiv 2)

/-- `setCenteredWindow`: the window that is written to the settings of the camera. -/
def setCenteredWindow (x y w : ℤ) : AOI :=
  let (startX, width) := centeredAxis cameraWidth x w
  let (startY, height) := centeredAxis cameraHeight y w
  ⟨startX, startY, width, height⟩

/-- `CALIB_BIG_WINDOW`. -/
def calibBigWindow : ℤ := 600

/-- `CALIB_SMALL_WINDOW`. -/
def calibSmallWindow : ℤ := 300

/-- `TRACK_ACQUISITION_WINDOW`. -/
def trackAcquisitionWindow : ℤ := 500

/-- The sizes of the centered windows. -/
inductive Passed : ℤ → Prop
  | big : Passed calibBigWindow
  | small : Passed calibSmallWindow
  | initial : Passed trackAcquisitionWindow
  /-- `CMD_PL_UPDATE_ACQUISITION_PARAMS`. -/
  | commanded (w : ℤ) : 0 ≤ w → w ≤ cameraHeight → Passed w
  /-- A failed acquisition. -/
  | grown (w : ℤ) : Passed w → w < cameraHeight → Passed (w + 100)

/-! ## The window -/

/-- A window is a part of the sensor, with a pixel. -/
structure OnSensor (window : AOI) : Prop where
  startX : 0 ≤ window.x
  startY : 0 ≤ window.y
  width : 0 < window.w
  height : 0 < window.h
  endX : window.x + window.w ≤ cameraWidth
  endY : window.y + window.h ≤ cameraHeight

/-- No size is larger than the last growth makes it. -/
theorem Passed.lt {w : ℤ} (h : Passed w) : w < cameraHeight + 100 := by
  cases h with
  | big => simp [calibBigWindow, cameraHeight]
  | small => simp [calibSmallWindow, cameraHeight]
  | initial => simp [trackAcquisitionWindow, cameraHeight]
  | commanded _ _ hle => omega
  | grown w _ hlt => omega

/-- On an axis, the part begins on the sensor and is not empty. -/
theorem centeredAxis_begins {size x w : ℤ} (hx : 0 ≤ x) (hsize : x < size) (hw : 2 ≤ w) :
    0 ≤ (centeredAxis size x w).1 ∧ 0 < (centeredAxis size x w).2 := by
  have hhalf : w.tdiv 2 = w / 2 := Int.tdiv_eq_ediv_of_nonneg (by omega)
  unfold centeredAxis
  rw [hhalf]
  split
  · dsimp only
    split
    · exact ⟨by omega, by omega⟩
    · exact ⟨by omega, by omega⟩
  · exact ⟨le_refl _, by omega⟩

/-- It ends on the sensor if and only if it is clamped, or half a window behind the center does. -/
theorem centeredAxis_ends_iff {size x w : ℤ} (hw : 2 ≤ w) :
    (centeredAxis size x w).1 + (centeredAxis size x w).2 ≤ size ↔
      w / 2 < x ∨ x + w / 2 ≤ size := by
  have hhalf : w.tdiv 2 = w / 2 := Int.tdiv_eq_ediv_of_nonneg (by omega)
  unfold centeredAxis
  rw [hhalf]
  split
  · rename_i hbehind
    refine iff_of_true ?_ (Or.inl hbehind)
    dsimp only
    split
    · dsimp only
      omega
    · dsimp only
      omega
  · rename_i hbefore
    dsimp only
    constructor
    · intro hend
      right
      omega
    · rintro (hbehind | hend)
      · exact absurd hbehind hbefore
      · omega

/-- For each center on the sensor and each size that the process passes, the window is on the sensor
if and only if the center is more than half a size from the upper edge, or at least half a size from
the lower one. -/
theorem onSensor_setCenteredWindow_iff (x y w : ℤ) (hx : 0 ≤ x ∧ x < cameraWidth)
    (hy : 0 ≤ y ∧ y < cameraHeight) (hw : 2 ≤ w) (hpassed : Passed w) :
    OnSensor (setCenteredWindow x y w) ↔ w / 2 < y ∨ y + w / 2 ≤ cameraHeight := by
  obtain ⟨hstartX, hwidth⟩ := centeredAxis_begins hx.1 hx.2 hw
  obtain ⟨hstartY, hheight⟩ := centeredAxis_begins hy.1 hy.2 hw
  have hendX : (centeredAxis cameraWidth x w).1 + (centeredAxis cameraWidth x w).2 ≤
      cameraWidth := by
    rw [centeredAxis_ends_iff hw]
    have hlt := hpassed.lt
    simp only [cameraHeight, cameraWidth] at hlt ⊢
    omega
  rw [← centeredAxis_ends_iff hw]
  constructor
  · intro h
    exact h.endY
  · intro hendY
    exact ⟨hstartX, hstartY, hwidth, hheight, hendX, hendY⟩

/-- A window of the calibration. -/
theorem onSensor_setCenteredWindow_iff_calibration :
    OnSensor (setCenteredWindow 1296 972 600) ↔
      (600 : ℤ) / 2 < 972 ∨ (972 : ℤ) + 600 / 2 ≤ cameraHeight :=
  onSensor_setCenteredWindow_iff 1296 972 600 (by decide) (by decide) (by decide) Passed.big

/-- Fifteen failed acquisitions from the initial size, at the center of the sensor. -/
theorem not_onSensor_grown : Passed 2000 ∧ ¬ OnSensor (setCenteredWindow 1296 972 2000) := by
  constructor
  · have hgrown (n : ℕ) (hn : n ≤ 15) : Passed (500 + 100 * n) := by
      induction n with
      | zero => exact Passed.initial
      | succ n ih =>
        have hprevious := ih (by omega)
        have hnext := Passed.grown _ hprevious (by unfold cameraHeight; omega)
        rw [show (500 + 100 * ((n + 1 : ℕ) : ℤ)) = 500 + 100 * (n : ℤ) + 100 by omega]
        exact hnext
    exact hgrown 15 (le_refl _)
  · intro h
    have hend := h.endY
    revert hend
    decide

end ClickA.Camera
