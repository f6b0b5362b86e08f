import ClickA.Pat.Commands
import ClickA.Pat.Calibration

/-!
# The phases of a session

The cases of the switch of the main loop. The process looks for the beacon, and then points at it in
open or closed loop until it is lost.

## Main definitions

* `runAcquisition`: the search for the beacon
* `seeSpot`: what a frame shows of a spot that is tracked
* `runPhase`: the switch
-/

namespace ClickA.Pat

/-- `STATUS_MAIN`. -/
def statusMain : UInt32 := 0x05

/-- `TRACK_ACQUISITION_BRIGHTNESS`. -/
def trackAcquisitionBrightness : ℕ := 200

/-- `TRACK_MAX_SPOT_DIFFERENCE`. -/
def trackMaxSpotDifference : Float := 500

/-- `TRACK_GUESS_EXPOSURE`. -/
def trackGuessExposure : ℤ := 100

/-- `TRACK_MIN_EXPOSURE`. -/
def trackMinExposure : ℤ := 10

/-- `TRACK_ACQUISITION_EXP_INCREMENT`. -/
def trackAcquisitionExpIncrement : ℤ := 300

/-- `PERIOD_BEACON_LOSS`, in nanoseconds. -/
def periodBeaconLoss : ℤ := 3000000000

/-- `PERIOD_CALIB_LOSS`, in nanoseconds. -/
def periodCalibLoss : ℤ := 3000000000

/-- `PERIOD_TX_ADCS`, in nanoseconds. -/
def periodTxAdcs : ℤ := 1000000000

/-! ## Acquisition -/

section Acquisition

variable (env : Env)

/-- The search listens for a command that ends it. Other commands are taken as well. -/
def receivedEnd : Proc World Bool := do
  match ← receiveCommand env with
  | some (code, _) =>
    match Command.ofCode code with
    | some .endPat =>
      modify fun w => { w with receivedEndPatCmd := true }
      return true
    | some .endProcess =>
      modify fun w => { w with receivedEndProcessCmd := true }
      return true
    | _ => return false
  | none => return false

/-- A frame is verified, and the camera tuned. -/
def tune : Proc World Bool := do
  emit .camera
  let tuning ← ask env.tuned
  match tuning.spot with
  | some spot => modify fun w => { w with beacon := spot }
  | none => pure ()
  return tuning.success

/-- Another exposure is tried, if it is in the range. -/
def tryExposure (inRange : Bool) : Proc World Bool := do
  if inRange then
    emit (.status statusMain)
    tune env
  else return false

/-- How long the loop over the exposures may go on. -/
def searchBound (maxExposure : ℤ) (searchingUp searchingDown : Bool)
    (exposureUp exposureDown : ℤ) : ℕ :=
  (maxExposure + 1 - exposureUp).toNat + (exposureDown + 1 - trackMinExposure).toNat +
    searchingUp.toNat + searchingDown.toNat

/-- Each round tries an exposure, or ends the search in a direction. -/
theorem searchBound_lt (maxExposure : ℤ) {searchingUp searchingDown : Bool}
    (exposureUp exposureDown : ℤ) (h : (searchingUp || searchingDown) = true) :
    searchBound maxExposure (searchingUp && exposureUp ≤ maxExposure)
        (searchingDown && trackMinExposure ≤ exposureDown)
        (if exposureUp ≤ maxExposure then exposureUp + trackAcquisitionExpIncrement else exposureUp)
        (if trackMinExposure ≤ exposureDown then exposureDown - trackAcquisitionExpIncrement
          else exposureDown) <
      searchBound maxExposure searchingUp searchingDown exposureUp exposureDown := by
  have hincrement : 0 < trackAcquisitionExpIncrement := by decide
  have hup := Bool.toNat_le searchingUp
  have hdown := Bool.toNat_le searchingDown
  have hone : 1 ≤ searchingUp.toNat + searchingDown.toNat := by
    cases searchingUp with
    | true => exact Nat.le_add_right 1 _
    | false =>
      obtain rfl : searchingDown = true := h
      exact Nat.le_add_left 1 _
  unfold searchBound
  -- a direction that is within its bound takes a step, and one that is beyond it ends
  by_cases hexposureUp : exposureUp ≤ maxExposure
  · by_cases hexposureDown : trackMinExposure ≤ exposureDown
    · simp only [hexposureUp, hexposureDown, decide_true, Bool.and_true, if_true]
      omega
    · simp only [hexposureUp, hexposureDown, decide_true, decide_false, Bool.and_true,
        Bool.and_false, Bool.toNat_false, if_true, if_false]
      omega
  · by_cases hexposureDown : trackMinExposure ≤ exposureDown
    · simp only [hexposureUp, hexposureDown, decide_true, decide_false, Bool.and_true,
        Bool.and_false, Bool.toNat_false, if_true, if_false]
      omega
    · simp only [hexposureUp, hexposureDown, decide_false, Bool.and_false, Bool.toNat_false,
        if_false]
      omega

/-- The loop over the exposures above and below the first one. -/
def search (maxExposure : ℤ) (searchingUp searchingDown : Bool) (exposureUp exposureDown : ℤ) :
    Proc World Bool :=
  if searchingUp || searchingDown then do
    if ← receivedEnd env then return false
    else if ← tryExposure env (exposureUp ≤ maxExposure) then return true
    else if ← receivedEnd env then return false
    else if ← tryExposure env (trackMinExposure ≤ exposureDown) then return true
    else
      search maxExposure (searchingUp && exposureUp ≤ maxExposure)
        (searchingDown && trackMinExposure ≤ exposureDown)
        (if exposureUp ≤ maxExposure then exposureUp + trackAcquisitionExpIncrement else exposureUp)
        (if trackMinExposure ≤ exposureDown then exposureDown - trackAcquisitionExpIncrement
          else exposureDown)
  else return false
termination_by searchBound maxExposure searchingUp searchingDown exposureUp exposureDown
decreasing_by exact searchBound_lt maxExposure exposureUp exposureDown ‹_›

/-- `Tracking::runAcquisition`. -/
def runAcquisition : Proc World Bool := do
  let maxExposure := (← get).maxBcnExposure
  emit .camera
  if ← tune env then return true
  else
    search env maxExposure true true (trackGuessExposure + trackAcquisitionExpIncrement)
      (trackGuessExposure - trackAcquisitionExpIncrement)

end Acquisition

/-! ## Spots -/

/-- What a frame shows of a spot that is tracked. -/
inductive Sight
  | noFrame
  | failure
  | changed
  | accepted (spot : Group)

/-- How much a spot of a frame differs from the one before. -/
def spotDifference (frame : Frame) (old new : Group) : Float :=
  let new := frame.onSensor new
  let distance := (new.x - old.x).abs + (new.y - old.y).abs
  if old.pixelCount = 0 then distance
  else distance + Float.ofInt |(new.pixelCount : ℤ) - old.pixelCount| +
    Float.ofInt |(new.valueMax / 2 : ℕ) - ((old.valueMax / 2 : ℕ) : ℤ)|

/-- `Tracking::findSpotCandidate`: the index of the spot that differs least, and its difference. -/
def findSpotCandidate (frame : Frame) (old : Group) : ℤ × Float :=
  frame.groups.zipIdx.foldl (fun best group =>
    let difference := spotDifference frame old group.1
    if difference < best.2 then (group.2, difference) else best) (0, 1e10)

/-- What a frame shows of a spot, with the brightness it must have. -/
def seeSpot (minBrightness : ℕ) (old : Group) : Option Frame → Sight
  | none => .noFrame
  | some frame =>
    if frame.histBrightest > minBrightness then
      if frame.numGroups > 0 then
        let (spotIndex, propertyDifference) := findSpotCandidate frame old
        if spotIndex ≥ 0 then
          let spot := frame.groups.getD spotIndex.toNat {}
          if spot.valueMax > minBrightness then
            if propertyDifference < trackMaxSpotDifference then .accepted (frame.onSensor spot)
            else .changed
          else .failure
        else .failure
      else .failure
    else .failure

section Phases

variable (env : Env)

/-- A frame is requested, with the exposure and the window of a spot. -/
def lookFor (minBrightness : ℕ) (old : Group) : Proc World Sight := do
  emit .camera
  return seeSpot minBrightness old (← requestFrame env)

/-- The beacon is lost, if it was known. -/
def loseBeacon : Proc World Unit := do
  if (← get).haveBeaconKnowledge then
    let now ← ask env.clock
    modify fun w => { w with haveBeaconKnowledge := false, startBeaconLoss := now }

/-- The calibration spot is lost, if it was known. -/
def loseCalib : Proc World Unit := do
  if (← get).haveCalibKnowledge then
    let now ← ask env.clock
    modify fun w => { w with haveCalibKnowledge := false, startCalibLoss := now }

/-- The errors of the pointing are sent to the bus, if they are wanted and a second has passed. -/
def sendFeedback : Proc World Unit := do
  if (← get).sendBusFeedback then
    let now ← ask env.clock
    let w ← get
    if now - w.timePrevTxAdcs > periodTxAdcs then
      emit (.txAdcs (centroid2angles w.beacon.x w.beacon.y))
      let now ← ask env.clock
      modify fun w => { w with timePrevTxAdcs := now }

/-- The offsets are dithered, if it is time, and something is done behind that. -/
def dither (next : Proc World Unit) : Proc World Unit := do
  if (← get).ditheringOn then
    let now ← ask env.clock
    let w ← get
    if longerThan (now - w.timePrevDither) w.params.periodDitherTxOffsets then
      if w.ditherCount = 0 then
        modify fun w => { w with offsetInit := w.offsets }
      else
        modify fun w => { w with offsets := ditherOffsets w.ditherCount w.offsetInit w.params }
        next
      let now ← ask env.clock
      modify fun w => { w with ditherCount := w.ditherCount + 1, timePrevDither := now }

/-- The point where the calibration spot has to be, given the beacon. -/
def World.setPoint (w : World) : Float × Float :=
  (Float.ofInt cameraWidth - w.beacon.x + w.offsets.x.toFloat,
    Float.ofInt cameraHeight - w.beacon.y + w.offsets.y.toFloat)

/-- The static point. -/
def World.staticPoint (w : World) : Float × Float :=
  (Float.ofInt cameraWidth / 2 + w.offsets.x.toFloat,
    Float.ofInt cameraHeight / 2 + w.offsets.y.toFloat)

/-- Pointing in open loop, given the beacon. Not during an alignment of the beacon. -/
def pointAtBeacon : Proc World Unit := do
  let w ← get
  if w.bcnAlignment = false then pointTo w.setPoint.1 w.setPoint.2

def pointAtStatic : Proc World Unit := do
  let w ← get
  pointTo w.staticPoint.1 w.staticPoint.2

/-! ## Phases -/

/-- `CALIBRATION`. -/
def calibrationPhase : Proc World Unit := do
  if ← laser env then
    if ← calibrationRun env then
      emit .camera
      modify fun w => { w with haveCalibKnowledge := true, phase := .acquisition }
    else modify fun w => { w with haveCalibKnowledge := false, phase := .calibration }
  else modify fun w => { w with haveCalibKnowledge := false, phase := .calibration }

/-- `ACQUISITION`, when the beacon is found. -/
def acquired : Proc World Unit := do
  modify fun w => { w with haveBeaconKnowledge := true }
  emit .camera
  if (← get).acqImgSaved = false then
    logImage env
    modify fun w => { w with acqImgSaved := true }
  pointAtBeacon
  modify fun w => { w with phase := if w.openLoop then .openLoop else .clInit }

/-- `ACQUISITION`, when it is not found. -/
def notAcquired : Proc World Unit := do
  let w ← get
  if w.receivedEndPatCmd then logImage env
  else if w.receivedEndProcessCmd then
    logImage env
    modify fun w => { w with operational := false }
  else modify fun w => { w with haveBeaconKnowledge := false, phase := .acquisition }

/-- `ACQUISITION`. -/
def acquisitionPhase : Proc World Unit := do
  if ← laser env then
    if ← runAcquisition env then acquired env
    else notAcquired env
  else modify fun w => { w with haveBeaconKnowledge := false, phase := .acquisition }

/-- `CL_INIT`. -/
def clInitPhase : Proc World Unit :=
  modify fun w => { w with calib := { w.calib with pixelCount := 0 }, phase := .clBeacon }

/-- Where the beacon was looked for, and is lost for too long, it has to be acquired. -/
def checkBeaconLoss : Proc World Unit := do
  if (← get).haveBeaconKnowledge = false then
    let now ← ask env.clock
    if now - (← get).startBeaconLoss > periodBeaconLoss then
      modify fun w => { w with phase := .acquisition }

/-- `CL_BEACON`. A frame that does not arrive is no loss. -/
def clBeaconPhase : Proc World Unit := do
  if ← laser env then
    match ← lookFor env trackAcquisitionBrightness (← get).beacon with
    | .accepted spot =>
      modify fun w => { w with haveBeaconKnowledge := true, beacon := spot }
      sendFeedback env
    | .noFrame => pure ()
    | .failure | .changed => loseBeacon env
  else loseBeacon env
  modify fun w => { w with phase := .clCalib }
  checkBeaconLoss env

/-- `CL_CALIB`, when the spot is seen: control in closed loop. -/
def controlClosedLoop (spot : Group) : Proc World Unit := do
  modify fun w => { w with haveCalibKnowledge := true, calib := spot }
  let w ← get
  emit (.control w.calib.x w.calib.y w.setPoint.1 w.setPoint.2)
  dither env (pure ())

/-- `CL_CALIB`. A spot that changed is no loss. -/
def clCalibPhase : Proc World Unit := do
  if ← laser env then
    match ← lookFor env calibMinBrightness (← get).calib with
    | .accepted spot => controlClosedLoop env spot
    | .changed => pure ()
    | .failure | .noFrame => loseCalib env
  else loseCalib env
  modify fun w => { w with phase := .clBeacon }
  if (← get).haveCalibKnowledge = false then
    let now ← ask env.clock
    if now - (← get).startCalibLoss > periodCalibLoss then
      modify fun w => { w with phase := .openLoop }

/-- `OPEN_LOOP`. -/
def openLoopPhase : Proc World Unit := do
  if ← laser env then
    match ← lookFor env trackAcquisitionBrightness (← get).beacon with
    | .accepted spot =>
      modify fun w => { w with haveBeaconKnowledge := true, beacon := spot }
      pointAtBeacon
      sendFeedback env
      dither env (pure ())
    | .noFrame | .failure | .changed => loseBeacon env
  else loseBeacon env
  checkBeaconLoss env

/-- `STATIC_POINT`. -/
def staticPointPhase : Proc World Unit := do
  let w ← get
  if w.staticPointingInitialized = false then
    if w.haveCalibKnowledge then pointAtStatic
    else emit (.setNormalizedAngles 0 0)
    modify fun w => { w with staticPointingInitialized := true }
  else if w.haveCalibKnowledge then dither env pointAtStatic

/-- The switch over the phase. -/
def runPhase : Proc World Unit := do
  let phase := (← get).phase
  emit (.phase phase)
  match phase with
  | .calibration => calibrationPhase env
  | .acquisition => acquisitionPhase env
  | .clInit => clInitPhase
  | .clBeacon => clBeaconPhase env
  | .clCalib => clCalibPhase env
  | .openLoop => openLoopPhase env
  | .staticPoint => staticPointPhase env

/-- The statements of a phase. -/
def Phase.statements : Phase → Proc World Unit
  | .calibration => calibrationPhase env
  | .acquisition => acquisitionPhase env
  | .clInit => clInitPhase
  | .clBeacon => clBeaconPhase env
  | .clCalib => clCalibPhase env
  | .openLoop => openLoopPhase env
  | .staticPoint => staticPointPhase env

/-- The switch notes the phase and runs its statements. -/
theorem ensures_runPhase_iff {Q : Unit → World → Prop} {w : World} :
    Python.Ensures (runPhase env) Q w ↔ Python.Ensures (w.phase.statements env) Q
      { w with trace := w.trace ++ [.phase w.phase] } := Iff.rfl

end Phases

end ClickA.Pat
