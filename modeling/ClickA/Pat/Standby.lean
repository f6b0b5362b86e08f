import ClickA.Pat.Calibration
import ClickA.Pat.Commands
import ClickA.Python.Text

/-!
# Standby

The commands of the standby loop: the sessions that they start, the settings, the images, the tests
and the self test.

## Main definitions

* `startPat` and its variants: the commands that start a session
* `selfTest`: the self test
* `standbyCommand`: the switch of the standby loop
* `standbyStatus`: the status that the loop publishes
-/

namespace ClickA.Pat

open Python (Bytes ascii)
open Cpp

section Sessions

variable (env : Env)

/-! ## Sessions -/

/-- A session is started by a command with a flag, which sets some variables. -/
def startSession (set : World → World) (data : Bytes) : Proc World Unit := do
  let mainEntryFlag := atoi data
  if mainEntryFlag = skipCalibFlag then
    modify set
    modify fun w => { w with
      phase := if w.haveCalibKnowledge then .acquisition else .calibration
      standby := false }
  else if mainEntryFlag = doCalibFlag then
    modify set
    modify fun w => { w with phase := .calibration, standby := false }
  calculateTxOffsets env

/-- `CMD_START_PAT`. -/
def startPat (data : Bytes) : Proc World Unit := startSession env id data

/-- `CMD_START_PAT_OPEN_LOOP`. -/
def startPatOpenLoop (data : Bytes) : Proc World Unit :=
  startSession env (fun w => { w with openLoop := true }) data

/-- `CMD_START_PAT_BUS_FEEDBACK`. -/
def startPatBusFeedback (data : Bytes) : Proc World Unit :=
  startSession env (fun w => { w with sendBusFeedback := true }) data

/-- `CMD_START_PAT_OPEN_LOOP_BUS_FEEDBACK`. -/
def startPatOpenLoopBusFeedback (data : Bytes) : Proc World Unit :=
  startSession env (fun w => { w with openLoop := true, sendBusFeedback := true }) data

/-- `CMD_START_PAT_STATIC_POINT`. -/
def startPatStaticPoint : Proc World Unit := do
  modify fun w => { w with phase := .staticPoint, standby := false }
  calculateTxOffsets env

/-- `CMD_BCN_ALIGN`. -/
def bcnAlign : Proc World Unit :=
  modify fun w => { w with
    phase := .acquisition
    bcnAlignment := true
    openLoop := true
    standby := false }

/-! ## Images and pointing -/

/-- The window of `CMD_GET_IMAGE`, with another center. -/
def setGetImageCenterX (centerX : ℤ) : Proc World Unit :=
  modify fun w =>
    if |centerX| ≤ cameraWidth / 2 - w.getImageWindow.w.tdiv 2 then
      { w with getImageWindow :=
        { w.getImageWindow with x := cameraWidth / 2 + centerX - w.getImageWindow.w.tdiv 2 } }
    else w

def setGetImageCenterY (centerY : ℤ) : Proc World Unit :=
  modify fun w =>
    if |centerY| ≤ cameraHeight / 2 - w.getImageWindow.h.tdiv 2 then
      { w with getImageWindow :=
        { w.getImageWindow with y := cameraHeight / 2 + centerY - w.getImageWindow.h.tdiv 2 } }
    else w

/-- The window of `CMD_GET_IMAGE`, with another size. -/
def setGetImageWindowWidth (width : ℤ) : Proc World Unit :=
  modify fun w =>
    if width ≤ cameraWidth then { w with getImageWindow := { w.getImageWindow with w := width } }
    else w

def setGetImageWindowHeight (height : ℤ) : Proc World Unit :=
  modify fun w =>
    if height ≤ cameraHeight then { w with getImageWindow := { w.getImageWindow with h := height } }
    else w

/-- A commanded exposure, between `MIN_EXPOSURE` and `MAX_EXPOSURE`. -/
def commandExposure (data : Bytes) : ℤ := min (max (atoi data) 10) 1000000

/-- `CMD_GET_IMAGE`. -/
def getImage (data : Bytes) : Proc World Unit := do
  let w ← get
  emit (.getImage (commandExposure data) w.getImageWindow)
  logImage env

/-- `CMD_TX_ALIGN`. -/
def txAlign : Proc World Unit := do
  let w ← get
  if w.haveCalibKnowledge then
    pointTo (Float.ofInt cameraWidth / 2 + w.offsets.x.toFloat)
      (Float.ofInt cameraHeight / 2 + w.offsets.y.toFloat)

/-- `CMD_UPDATE_FSM_X` and `CMD_UPDATE_FSM_Y`: the calibration spot is moved. -/
def updateFsm (move : Group → Group) : Proc World Unit := do
  if (← get).haveCalibKnowledge then
    modify fun w => { w with calib := move w.calib }
    let w ← get
    emit (.controlOpenLoop w.calib.x w.calib.y)

/-! ## Tests -/

/-- `CMD_CALIB_TEST`. -/
def calibTest : Proc World Unit := do
  if ← laser env then
    if ← calibrationRun env then
      emit .camera
      modify fun w => { w with haveCalibKnowledge := true }
    else modify fun w => { w with haveCalibKnowledge := false }

/-- One round of `CMD_CALIB_LASER_TEST`. -/
def calibLaserRound : Proc World Unit := do
  if ← laser env then
    if ← checkLaserOn env then
      logImage env
      if ← laser env then
        if ← checkLaserOff env then
          logImage env

/-- `CMD_CALIB_LASER_TEST`. -/
def calibLaserTest : Proc World Unit := do
  emit .camera
  emit (.setNormalizedAngles 0 0)
  calibLaserRound env
  calibLaserRound env

/-- `CMD_FSM_TEST`. -/
def fsmTest : Proc World Unit := do
  emit .camera
  if ← laser env then
    let _ ← testFSM env

/-- The artificial centroid of a second of `CMD_TEST_BUS_FEEDBACK`: the signs of its coordinates. -/
def testCentroidSigns (i : ℕ) : ℤ × ℤ :=
  if i < 90 / 9 then (1, 0)
  else if i < 2 * 90 / 9 then (1, 1)
  else if i < 3 * 90 / 9 then (0, 1)
  else if i < 4 * 90 / 9 then (-1, 1)
  else if i < 5 * 90 / 9 then (-1, 0)
  else if i < 6 * 90 / 9 then (-1, -1)
  else if i < 7 * 90 / 9 then (0, -1)
  else if i < 8 * 90 / 9 then (1, -1)
  else (0, 0)

/-- `CMD_TEST_BUS_FEEDBACK`. -/
def testBusFeedback : Proc World Unit := do
  (List.range (90 - 1)).foldlM (fun _ i => do
    let (x, y) := testCentroidSigns i
    emit (.txAdcs (centroid2angles (Float.ofInt (x * 5 + cameraWidth / 2))
      (Float.ofInt (y * 5 + cameraHeight / 2))))) ()
  emit (.txAdcs ⟨0, 0⟩)

end Sessions

/-! ## Self test -/

section SelfTest

variable (env : Env)

/-- `self_test_error_buffer`. The stream writes no 0 behind its text, is never reset, and keeps what
does not fit elsewhere. -/
def selfTestErrorBuffer (stream : String) : Bytes :=
  memcpy (uninitialized env.errorBuffer bufferSize) (ascii stream)

/-- The `error` of `send_packet_self_test`: the text of the buffer up to its first 0, in the zeroed
array. Without a 0 there, what is behind the buffer is copied over what is behind the packet; the
model goes on as if nothing was overwritten. -/
def selfTestError (stream : String) : Option Bytes := do
  let buffer := selfTestErrorBuffer env stream
  let n ← strlen buffer
  return memcpy (List.replicate bufferSize 0) (buffer.take (n + 1))

/-- A message of the self test. -/
def report (text : String) : Proc World Unit :=
  modify fun w => { w with selfTestStream := w.selfTestStream ++ text }

/-- A test that passes or fails. -/
def Verdict.ofBool (passed : Bool) : Verdict := if passed then .pass else .fail

/-- The test of the FPGA, in the standby loop and where the camera is initialized. -/
def selfTestFpga : Proc World Verdict := do
  if ← fpgaComms env then return .pass
  else
    report "FPGA Comms Fault\n"
    return .fail

/-- One round of the laser test. -/
def selfTestLaserRound : Proc World Unit := do
  if ← laser env then
    if ← checkLaserOn env then
      logImage env
      if ← laser env then
        if ← checkLaserOff env then
          logImage env
          modify fun w => { w with laserTestsPassed := w.laserTestsPassed + 1 }
        else
          report "(Laser Test) laserOff check failed!\n"
          logImage env
      else report "(Laser Test) laserOff FPGA command failed!\n"
    else
      report "(Laser Test) laserOn check failed!\n"
      logImage env
  else report "(Laser Test) laserOn FPGA command failed!\n"

/-- The laser test. Its count is only reset when the laser goes on. -/
def selfTestLaser : Proc World Verdict := do
  emit (.setNormalizedAngles 0 0)
  if ← laser env then
    let _ ← findExposureRange env
    emit .camera
    modify fun w => { w with laserTestsPassed := 0 }
    selfTestLaserRound env
    selfTestLaserRound env
  else report "(Laser Test) laserOn FPGA command failed!\n"
  return .ofBool ((← get).laserTestsPassed = 2)

/-- The FSM test. -/
def selfTestFsm : Proc World Verdict := do
  if ← laser env then
    if ← testFSM env then return .pass
    else
      report "(FSM Test) FSM test failed.\n"
      return .fail
  else
    report "(FSM Test) laserOn FPGA command failed!\n"
    return .null

/-- The checks of the calibration test, on a calibration that succeeded. -/
def checkCalibration : Proc World Verdict := do
  let w ← get
  if |w.centerOffsetX| ≤ 100 then
    if |w.centerOffsetY| ≤ 100 then
      let (s00, s11) ← ask env.sensitivity
      if s00 / s11 - 1 / Float.sqrt 2 ≤ 0.1 then
        modify fun w => { w with selfTestPassed := true }
        report "None"
        return .pass
      else
        report "(Calibration Test) Sensitivity ratio check failed.\n"
        return .fail
    else
      report ("(Calibration Test) Y offset (" ++ toString w.centerOffsetY ++ ") check failed.\n")
      return .fail
  else
    report ("(Calibration Test) X offset (" ++ toString w.centerOffsetX ++ ") check failed.\n")
    return .fail

/-- The calibration test. -/
def selfTestCalibration : Proc World Verdict := do
  if ← calibrationRun env then
    emit .camera
    modify fun w => { w with haveCalibKnowledge := true }
    checkCalibration env
  else
    report "(Calibration Test) Calibration failed.\n"
    return .fail

/-- The tests behind those of the camera and the FPGA: the verdicts on the laser, the FSM and the
calibration. A test behind one that does not pass is not done. -/
def selfTestDevices : Proc World (Verdict × Verdict × Verdict) := do
  let laser ← selfTestLaser env
  if laser = .pass then
    let fsm ← selfTestFsm env
    if fsm = .pass then return (laser, fsm, ← selfTestCalibration env)
    else return (laser, fsm, .null)
  else return (laser, .null, .null)

/-- `CMD_SELF_TEST`, behind the test of the camera. -/
def selfTestOthers : Proc World Unit := do
  let fpga ← selfTestFpga env
  -- the condition of the other tests assigns the verdict on the camera
  let camera := Verdict.pass
  let devices ← if camera = .pass ∧ fpga = .pass then selfTestDevices env
    else pure (Verdict.null, Verdict.null, Verdict.null)
  modify fun w => { w with selfTestFailed := w.selfTestFailed || !w.selfTestPassed }
  emit (.selfTest ⟨camera, fpga, devices.1, devices.2.1, devices.2.2⟩
    (selfTestError env (← get).selfTestStream))

/-- `CMD_SELF_TEST`. -/
def selfTest : Proc World Unit := do
  let camera := Verdict.ofBool (← get).cameraInitialized
  if camera = .fail then report "Camera Fault\n"
  selfTestOthers env

end SelfTest

/-! ## The loop -/

section Loop

variable (env : Env)

/-- The switch over the command. -/
def standbyCommand (command : Option Command) (data : Bytes) : Proc World Unit :=
  match command with
  | some .startPat => startPat env data
  | some .startPatOpenLoop => startPatOpenLoop env data
  | some .startPatStaticPoint => startPatStaticPoint env
  | some .startPatBusFeedback => startPatBusFeedback env data
  | some .startPatOpenLoopBusFeedback => startPatOpenLoopBusFeedback env data
  | some .setGetImageCenterX => setGetImageCenterX (atoi data)
  | some .setGetImageCenterY => setGetImageCenterY (atoi data)
  | some .setGetImageWindowWidth => setGetImageWindowWidth (atoi data)
  | some .setGetImageWindowHeight => setGetImageWindowHeight (atoi data)
  | some .getImage => getImage env data
  | some .calibTest => calibTest env
  | some .calibLaserTest => calibLaserTest env
  | some .fsmTest => fsmTest env
  | some .bcnAlign => bcnAlign
  | some .setBeaconX => modify fun w => { w with
      beacon := { w.beacon with x := Float.ofInt (atoi data + cameraWidth / 2) } }
  | some .setBeaconY => modify fun w => { w with
      beacon := { w.beacon with y := Float.ofInt (atoi data + cameraHeight / 2) } }
  | some .setBeaconMaxExp => modify fun w => { w with maxBcnExposure := atoi data }
  | some .txAlign => txAlign
  | some .updateTxOffsetX => modify fun w => { w with
      offsets := { w.offsets with x := Float32.ofInt (atoi data) } }
  | some .updateTxOffsetY => modify fun w => { w with
      offsets := { w.offsets with y := Float32.ofInt (atoi data) } }
  | some .updatePeriodCalculateTxOffset => modify fun w => { w with
      params := { w.params with periodCalculateTxOffsets := Float32.ofInt (atoi data) } }
  | some .enableDitherTxOffset => modify fun w => { w with ditheringOn := true }
  | some .updatePeriodDitherTxOffset => modify fun w => { w with
      params := { w.params with periodDitherTxOffsets := Float32.ofInt (atoi data) } }
  | some .updateFsmX => updateFsm fun calib =>
      { calib with x := calib.x + Float.ofInt (atoi data) }
  | some .updateFsmY => updateFsm fun calib =>
      { calib with y := calib.y + Float.ofInt (atoi data) }
  | some .testBusFeedback => testBusFeedback
  | some .selfTest => selfTest env
  | some .endProcess => modify fun w => { w with standby := false, operational := false }
  -- the size of the beacon's window is not part of the state
  | some .setBeaconWindowSize => return ()
  -- unknown commands
  | some .endPat | none => return ()

/-- The status that is published in standby. -/
def standbyStatus (w : World) : UInt32 :=
  if w.selfTestPassed then 0x03
  else if w.selfTestFailed then 0x04
  else if w.haveCalibKnowledge then 0x02
  else 0x01

/-- An iteration of the standby loop. -/
def standbyIteration : Proc World Unit := do
  emit (.status (standbyStatus (← get)))
  match ← receiveCommand env with
  | some (code, data) => standbyCommand env (Command.ofCode code) data
  | none => return ()

end Loop

end ClickA.Pat
