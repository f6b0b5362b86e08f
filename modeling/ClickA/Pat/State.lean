import ClickA.Pat.Packets

/-!
# The state of the PAT process

`main.cpp`: the variables of `main`, what the process gets from its devices and ports, and the trace
of what it does with them.

## Main definitions

* `Event`: what the process does
* `World`: the variables of the process, and its trace
* `Env`: the frames, commands and confirmations that it gets
* `ask`, `emit`: something is asked of the environment, or done
-/

namespace ClickA.Pat

open Python (Bytes)

/-! ## Images -/

/-- `CAMERA_WIDTH`. -/
def cameraWidth : ℤ := 2592

/-- `CAMERA_HEIGHT`. -/
def cameraHeight : ℤ := 1944

/-- `Group`. -/
structure Group where
  x : Float := 0
  y : Float := 0
  valueMax : ℕ := 0
  valueSum : ℕ := 0
  pixelCount : ℕ := 0

/-- `AOI`. -/
structure AOI where
  x : ℤ
  y : ℤ
  w : ℤ
  h : ℤ
deriving DecidableEq, Repr

/-- An `Image`, with the groups that `performPixelGrouping` finds, unless there are too many. -/
structure Frame where
  area : AOI
  histBrightest : ℕ
  histPeak : ℕ
  found : Option (List Group)

/-- What `performPixelGrouping` returns. -/
def Frame.numGroups (frame : Frame) : ℤ :=
  match frame.found with
  | some groups => groups.length
  | none => -1

/-- The groups, which are read where `performPixelGrouping() > 0`. -/
def Frame.groups (frame : Frame) : List Group := frame.found.getD []

/-- A spot of a frame, at its place on the sensor. -/
def Frame.onSensor (frame : Frame) (spot : Group) : Group :=
  { spot with
    x := Float.ofInt frame.area.x + spot.x
    y := Float.ofInt frame.area.y + spot.y }

/-- The conversion of a `double` to an `int`. -/
def toInt (x : Float) : ℤ := x.toInt32.toInt

/-! ## Offsets -/

/-- `tx_offsets`. -/
structure TxOffsets where
  x : Float32
  y : Float32

/-- The parameters of the offsets, with their defaults. -/
structure OffsetParams where
  periodCalculateTxOffsets : Float32 := 1000
  periodDitherTxOffsets : Float32 := 10
  txOffsetXDefault : Float32 := -20
  txOffsetYDefault : Float32 := 120
  txOffsetSlopeX : Float32 := 0.34619
  txOffsetBiasX : Float32 := -29.464
  txOffsetQuadraticY : Float32 := 0.0084797
  txOffsetSlopeY : Float32 := -0.34707
  txOffsetBiasY : Float32 := 123.46
  txOffsetDitherXRadius : Float32 := 4
  txOffsetDitherYRadius : Float32 := 1
  ditherCountPeriod : ℤ := 10

/-- The offsets that `calculateTxOffsets` computes from a temperature. -/
def offsetsAt (params : OffsetParams) (temperature : Float32) : TxOffsets where
  x := params.txOffsetSlopeX * temperature + params.txOffsetBiasX
  y := params.txOffsetQuadraticY * temperature * temperature +
    params.txOffsetSlopeY * temperature + params.txOffsetBiasY

/-- `M_PI`. -/
def mPi : Float := 3.14159265358979323846

/-- `ditherOffsets`, around some offsets. -/
def ditherOffsets (count : ℤ) (start : TxOffsets) (params : OffsetParams) : TxOffsets :=
  let count := count.tmod params.ditherCountPeriod
  let t := Float32.ofInt count / Float32.ofInt params.ditherCountPeriod
  let angle := 2 * mPi * t.toFloat
  { x := ((t * params.txOffsetDitherXRadius).toFloat * angle.cos + start.x.toFloat).toFloat32
    y := ((t * params.txOffsetDitherYRadius).toFloat * angle.sin + start.y.toFloat).toFloat32 }

/-- The angles of `centroid2angles`, in radians. -/
structure ErrorAngles where
  x : Float32
  y : Float32

/-- `centroid2angles`. -/
def centroid2angles (x y : Float) : ErrorAngles where
  x := ((-0.0000986547085 : Float32).toFloat * x + (0.127856502 : Float32).toFloat).toFloat32
  y := ((-0.0000986547085 : Float32).toFloat * y + (0.095892377 : Float32).toFloat).toFloat32

/-- A time in nanoseconds is longer than a period in seconds. -/
def longerThan (elapsed : ℤ) (period : Float32) : Bool :=
  Float.ofInt elapsed / 1e9 > period.toFloat

/-! ## Events -/

/-- `Phase`. -/
inductive Phase
  | calibration
  | acquisition
  | clInit
  | clBeacon
  | clCalib
  | openLoop
  | staticPoint
deriving DecidableEq, Repr

/-- The verdicts of a self test: `PASS_SELF_TEST`, `FAIL_SELF_TEST`, `NULL_SELF_TEST`. -/
inductive Verdict
  | pass
  | fail
  | null
deriving DecidableEq, Repr

/-- The verdicts of a self test packet. -/
structure Verdicts where
  camera : Verdict
  fpga : Verdict
  laser : Verdict
  fsm : Verdict
  calibration : Verdict
deriving DecidableEq, Repr

/-- What the process does. -/
inductive Event
  /-- A control packet is received. -/
  | command (command : UInt16)
  /-- `Camera::initialize` returns. -/
  | cameraInitialize (initialized : Bool)
  /-- `camera.config` is dereferenced, or a frame is requested. -/
  | camera
  /-- `CMD_GET_IMAGE` dereferences `camera.config`, for an exposure and a window. -/
  | getImage (exposure : ℤ) (window : AOI)
  /-- The sensitivity matrix and the affine parameters are calculated. -/
  | parameters
  /-- `Calibration::run` returns. -/
  | calibrationRun (success : Bool)
  /-- `Tracking::controlOpenLoop`. -/
  | controlOpenLoop (x y : Float)
  /-- `Tracking::control`. -/
  | control (x y spX spY : Float)
  /-- `FSM::setNormalizedAngles`, elsewhere. -/
  | setNormalizedAngles (x y : Float)
  /-- The main loop comes to its switch. -/
  | phase (phase : Phase)
  /-- `send_packet_pat_status`. -/
  | status (flag : UInt32)
  /-- `send_packet_self_test`, with the `error` of the packet unless the copy overruns it. -/
  | selfTest (verdicts : Verdicts) (error : Option Bytes)
  /-- `send_packet_tx_adcs`. -/
  | txAdcs (angles : ErrorAngles)

/-! ## Variables -/

/-- Where the process is: in the loop that initializes the camera, in the standby loop, in the main
loop, or at its end. -/
inductive Place
  | cameraInit
  | standby
  | main
  | ended
deriving DecidableEq, Repr

/-- The variables of `main`, and of the objects it uses. The process has polled its control socket,
commanded the laser and tested the FPGA `polls`, `lasers` and `comms` times, and asked for something
else `time` times. -/
structure World where
  place : Place := .cameraInit
  polls : ℕ := 0
  lasers : ℕ := 0
  comms : ℕ := 0
  time : ℕ := 0
  trace : List Event := []
  phase : Phase := .calibration
  beacon : Group := { x := Float.ofInt (cameraWidth / 2), y := Float.ofInt (cameraHeight / 2) }
  calib : Group := {}
  getImageWindow : AOI := ⟨cameraWidth / 2 - 600 / 2, cameraHeight / 2 - 600 / 2, 600, 600⟩
  haveBeaconKnowledge : Bool := false
  haveCalibKnowledge : Bool := false
  openLoop : Bool := false
  sendBusFeedback : Bool := false
  bcnAlignment : Bool := false
  maxBcnExposure : ℤ := 100000
  staticPointingInitialized : Bool := false
  operational : Bool := true
  standby : Bool := true
  cameraInitialized : Bool := false
  centerOffsetX : ℤ := 0
  centerOffsetY : ℤ := 0
  laserTestsPassed : ℕ := 0
  selfTestPassed : Bool := false
  selfTestFailed : Bool := false
  selfTestStream : String := ""
  params : OffsetParams := {}
  offsets : TxOffsets := ⟨-20, 120⟩
  ditherCount : ℤ := 0
  ditheringOn : Bool := false
  offsetInit : TxOffsets := ⟨0, 0⟩
  acqImgSaved : Bool := false
  receivedEndPatCmd : Bool := false
  receivedEndProcessCmd : Bool := false
  startBeaconLoss : ℤ := 0
  startCalibLoss : ℤ := 0
  timePrevHeartbeat : ℤ := 0
  timePrevTxAdcs : ℤ := 0
  timePrevTxOffset : ℤ := 0
  timePrevDither : ℤ := 0

/-- The result of `windowAndTune` on a frame of an acquisition: whether it succeeds, and the last
spot that it copied to the beacon. It does not succeed without one. -/
structure Tuning where
  success : Bool
  spot : Option Group
  isSome_spot : success = true → spot.isSome = true

/-- What the process gets, the `n`-th time it asks for something. -/
structure Env where
  /-- The parameters of `offsetParams.csv`, if there are any. -/
  offsetParams : Option OffsetParams
  /-- What `self_test_error_buffer` holds before anything is streamed into it. -/
  errorBuffer : ℕ → UInt8
  /-- The control packet that is received in a poll, if there is one in time. -/
  message : ℕ → Option Bytes
  /-- What is on the stack then. -/
  garbage : ℕ → ℕ → UInt8
  /-- `laserOn` and `laserOff`. -/
  laser : ℕ → Bool
  /-- `check_fpga_comms`. -/
  fpgaComms : ℕ → Bool
  /-- The process was interrupted. -/
  stop : ℕ → Bool
  /-- `Camera::initialize`. -/
  cameraInitialize : ℕ → Bool
  /-- `get_temperature`. -/
  temperature : ℕ → Option Float32
  /-- `steady_clock::now`, in nanoseconds. -/
  clock : ℕ → ℤ
  /-- `Camera::waitForFrame`, and the frame. -/
  frame : ℕ → Option Frame
  /-- `Calibration::findExposureRange`. -/
  exposureRange : ℕ → Bool
  /-- The elements `s00` and `s11` of the sensitivity matrix. -/
  sensitivity : ℕ → Float × Float
  /-- A frame of an acquisition is verified, and the camera tuned on its spot. -/
  tuned : ℕ → Tuning

/-! ## Statements -/

/-- Something is asked of the environment. -/
def ask {α : Type} (f : ℕ → α) : Proc World α :=
  modifyGet fun w => (f w.time, { w with time := w.time + 1 })

theorem wp_ask {α : Type} {f : ℕ → α} {Q : α → World → Prop} {E : Empty → World → Prop}
    {w : World} : Python.Wp (ask f) Q E w ↔ Q (f w.time) { w with time := w.time + 1 } := Iff.rfl

/-- Something is done. -/
def emit (e : Event) : Proc World Unit := modify fun w => { w with trace := w.trace ++ [e] }

section Statements

variable (env : Env)

/-- `laserOn` and `laserOff`, of which only the result matters here. -/
def laser : Proc World Bool :=
  modifyGet fun w => (env.laser w.lasers, { w with lasers := w.lasers + 1 })

/-- `check_fpga_comms`. -/
def fpgaComms : Proc World Bool :=
  modifyGet fun w => (env.fpgaComms w.comms, { w with comms := w.comms + 1 })

/-- `calculateTxOffsets`. -/
def calculateTxOffsets : Proc World Unit := do
  match ← ask env.temperature with
  | some temperature => modify fun w => { w with offsets := offsetsAt w.params temperature }
  | none => return ()

/-- A frame is requested, and waited for. -/
def requestFrame : Proc World (Option Frame) := do
  emit .camera
  ask env.frame

/-- `logImage`. -/
def logImage : Proc World Unit := do
  let _ ← requestFrame env

/-- The calibration spot is expected at a point, and `Tracking::controlOpenLoop` steers there. -/
def pointTo (x y : Float) : Proc World Unit := do
  modify fun w => { w with
    calib := { w.calib with x := Float.ofInt (toInt x), y := Float.ofInt (toInt y) } }
  emit (.controlOpenLoop x y)

end Statements

end ClickA.Pat
