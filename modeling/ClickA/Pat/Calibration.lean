import ClickA.Pat.State

/-!
# Calibration

`calibration.cpp`: what the calibration and the tests of the laser and the FSM do with the camera
and the FSM, and when they succeed.

## Main definitions

* `calibrationRun`: `Calibration::run`
* `checkLaserOn`, `checkLaserOff`, `testFSM`: the tests
-/

namespace ClickA.Pat

/-- `CALIB_MIN_BRIGHTNESS`. -/
def calibMinBrightness : ℕ := 100

/-- `CALIB_GOOD_PEAKTOMAX_DISTANCE`. -/
def calibGoodPeaktomaxDistance : ℕ := 100

/-- `CALIB_FSM_DISPLACEMENT_TOL`. -/
def calibFsmDisplacementTol : ℤ := 100

/-- `CALIB_FSM_MAX`, times a number of points. -/
def calibFsmMax (i : ℕ) : Float := (Float32.ofNat i * 1.0 / 100).toFloat

section Calibration

variable (env : Env)

/-- `Calibration::findExposureRange`. -/
def findExposureRange : Proc World Bool := do
  emit .camera
  ask env.exposureRange

/-- A point of the spiral: the spot that is seen there, if there is one. -/
def calibrationPoint (i : ℕ) : Proc World (Option Group) := do
  let omega := 2 * mPi * (0.05 : Float32).toFloat
  emit (.setNormalizedAngles (calibFsmMax i * (omega * i.toFloat).cos)
    (calibFsmMax i * (omega * i.toFloat).sin))
  match ← requestFrame env with
  | some frame =>
    if frame.numGroups > 0 then
      let spot := frame.onSensor (frame.groups.headD {})
      if i = 0 then
        modify fun w => { w with
          calib := spot
          centerOffsetX := toInt (spot.x - Float.ofInt (cameraWidth / 2))
          centerOffsetY := toInt (spot.y - Float.ofInt (cameraHeight / 2)) }
      return some spot
    else return none
  | none => return none

/-- `Calibration::run`, up to its result. -/
def calibrate : Proc World Bool := do
  emit (.setNormalizedAngles 0 0)
  if ← findExposureRange env then
    emit .camera
    let points ← (List.range 100).foldlM (fun points i => do
      return points ++ (← calibrationPoint env i).toList) []
    emit (.setNormalizedAngles 0 0)
    emit .camera
    if points.length < 50 then return false
    else
      emit .parameters
      return true
  else return false

/-- `Calibration::run`. -/
def calibrationRun : Proc World Bool := do
  let success ← calibrate env
  emit (.calibrationRun success)
  return success

/-- The checks of `Calibration::checkLaserOn` on a frame. -/
def Frame.showsLaser (frame : Frame) : Bool :=
  frame.histBrightest > calibMinBrightness && frame.histBrightest > frame.histPeak &&
    frame.histBrightest - frame.histPeak > calibGoodPeaktomaxDistance && frame.numGroups > 0 &&
    (frame.groups.headD {}).valueMax ≥ calibMinBrightness

/-- `Calibration::checkLaserOn`. -/
def checkLaserOn : Proc World Bool := do
  match ← requestFrame env with
  | some frame =>
    if frame.showsLaser then
      modify fun w => { w with calib := frame.onSensor (frame.groups.headD {}) }
      return true
    else return false
  | none => return false

/-- `Calibration::checkLaserOff`. -/
def checkLaserOff : Proc World Bool := do
  match ← requestFrame env with
  | some frame => return frame.histBrightest ≤ calibMinBrightness
  | none => return false

/-- The FSM is moved, and the spot is seen to have moved from where it was. -/
def checkMoved (x y : Float) (coordinate : Group → Float) (old : ℤ) : Proc World Bool := do
  emit (.setNormalizedAngles x y)
  if ← checkLaserOn env then
    let w ← get
    return |toInt (coordinate w.calib - Float.ofInt old)| > calibFsmDisplacementTol
  else return false

/-- `Calibration::testFSM`. -/
def testFSM : Proc World Bool := do
  emit (.setNormalizedAngles 0 0)
  if ← checkLaserOn env then
    let x := toInt (← get).calib.x
    logImage env
    if ← checkMoved env 1 0 Group.x x then
      let y := toInt (← get).calib.y
      logImage env
      if ← checkMoved env 1 1 Group.y y then
        let x := toInt (← get).calib.x
        logImage env
        if ← checkMoved env 0 1 Group.x x then
          let y := toInt (← get).calib.y
          logImage env
          checkMoved env 0 0 Group.y y
        else return false
      else return false
    else return false
  else return false

end Calibration

end ClickA.Pat
