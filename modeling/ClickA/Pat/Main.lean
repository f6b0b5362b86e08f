import ClickA.Pat.Phases
import ClickA.Pat.Standby

/-!
# The PAT process

`main` of `main.cpp`: the loop that initializes the camera, the standby loop and the main loop. A
step is one iteration of a loop.

## Main definitions

* `boot`: what the process does before its first loop
* `cameraInitIteration`, `standbyStep`, `mainStep`: an iteration of each loop
* `step`, `state`: a step, and the state behind some steps
* `commanded`: a process that gets some control packets
-/

namespace ClickA.Pat

open Python (Bytes)

/-- `STATUS_CAMERA_INIT`. -/
def statusCameraInit : UInt32 := 0x00

/-- `PERIOD_HEARTBEAT_TLM`, in nanoseconds. -/
def periodHeartbeatTlm : ℤ := 500000000

section Main

variable (env : Env)

/-! ## Between the loops -/

/-- The end of the process: the laser is switched off, and the FSM reset. -/
def finish : Proc World Unit := do
  let _ ← laser env
  emit (.setNormalizedAngles 0 0)
  modify fun w => { w with place := .ended }

/-- Behind the main loop: the standby loop again, or the end. -/
def leaveMain : Proc World Unit := do
  modify fun w => { w with standby := true }
  if (← get).operational then
    if ← ask env.stop then finish env
    else modify fun w => { w with place := .standby }
  else finish env

/-- Behind the standby loop: the main loop, if a session was started. -/
def leaveStandby : Proc World Unit := do
  modify fun w => { w with receivedEndPatCmd := false, acqImgSaved := false }
  let w ← get
  if w.operational && !w.standby then modify fun w => { w with place := .main }
  else leaveMain env

/-- Behind the initialization of the camera: the FSM is set up, and the loops begin. -/
def leaveCameraInit : Proc World Unit := do
  emit (.setNormalizedAngles 0 0)
  if ← ask env.stop then finish env
  else if (← get).standby then modify fun w => { w with place := .standby }
  else leaveStandby env

/-! ## Iterations -/

/-- `Camera::initialize`. -/
def cameraInitialize : Proc World Unit := do
  let initialized ← ask env.cameraInitialize
  emit (.cameraInitialize initialized)
  modify fun w => { w with cameraInitialized := initialized }

/-- The self test while the camera is not initialized. -/
def cameraInitSelfTest : Proc World Unit := do
  report "Camera Initialization Failed! Error:NULL device"
  let fpga ← selfTestFpga env
  emit (.selfTest ⟨.fail, fpga, .null, .null, .null⟩ (selfTestError env (← get).selfTestStream))

/-- Another try to initialize the camera. -/
def retryCameraInit : Proc World Unit := do
  cameraInitialize env
  if ← ask env.stop then modify fun w => { w with place := .ended }
  else if (← get).cameraInitialized then leaveCameraInit env

/-- An iteration of the loop that initializes the camera. -/
def cameraInitIteration : Proc World Unit := do
  emit (.status statusCameraInit)
  match ← receiveCommand env with
  | some (code, _) =>
    match Command.ofCode code with
    | some .startPatStaticPoint =>
      modify fun w => { w with phase := .staticPoint, standby := false }
      leaveCameraInit env
    | some .selfTest =>
      cameraInitSelfTest env
      retryCameraInit env
    | some .endProcess => modify fun w => { w with place := .ended }
    | _ => retryCameraInit env
  | none => retryCameraInit env

/-- An iteration of the standby loop, and what is behind the loop if it ends. -/
def standbyStep : Proc World Unit := do
  if ← ask env.stop then
    modify fun w => { w with operational := false }
    leaveStandby env
  else
    standbyIteration env
    if (← get).standby = false then leaveStandby env

/-- The command of an iteration of the main loop. It may end the loop. -/
def mainCommand : Proc World Bool := do
  match ← receiveCommand env with
  | some (code, data) =>
    match Command.ofCode code with
    | some .endPat => return true
    | some .endProcess =>
      modify fun w => { w with operational := false }
      return true
    | some .updateTxOffsetX =>
      modify fun w => { w with offsets := { w.offsets with x := Float32.ofInt (atoi data) } }
      return false
    | some .updateTxOffsetY =>
      modify fun w => { w with offsets := { w.offsets with y := Float32.ofInt (atoi data) } }
      return false
    | _ => return false
  | none => return false

/-- A command that an acquisition received may end the loop, too. -/
def acquisitionCommand : Proc World Bool := do
  let w ← get
  if w.receivedEndPatCmd then return true
  else if w.receivedEndProcessCmd then
    modify fun w => { w with operational := false }
    return true
  else return false

/-- The heartbeat, if it is time. -/
def heartbeat : Proc World Unit := do
  let now ← ask env.clock
  if now - (← get).timePrevHeartbeat > periodHeartbeatTlm then
    emit (.status statusMain)
    let now ← ask env.clock
    modify fun w => { w with timePrevHeartbeat := now }

/-- The offsets are calculated again, if it is time. -/
def updateTxOffsets : Proc World Unit := do
  let now ← ask env.clock
  let w ← get
  if longerThan (now - w.timePrevTxOffset) w.params.periodCalculateTxOffsets then
    calculateTxOffsets env
    let now ← ask env.clock
    modify fun w => { w with timePrevTxOffset := now }
    if w.ditheringOn then modify fun w => { w with offsetInit := w.offsets, ditherCount := 0 }

/-- An iteration of the main loop, and whether it ends the loop. -/
def mainIteration : Proc World Bool := do
  if ← ask env.stop then
    modify fun w => { w with operational := false }
    return true
  else if ← mainCommand env then return true
  else if ← acquisitionCommand then return true
  else
    heartbeat env
    updateTxOffsets env
    runPhase env
    return !(← get).operational

/-- An iteration of the main loop, and what is behind the loop if it ends. -/
def mainStep : Proc World Unit := do
  if ← mainIteration env then leaveMain env

/-! ## Runs -/

/-- An iteration of the loop where the process is. -/
def iteration : Proc World Unit := do
  match (← get).place with
  | .cameraInit => cameraInitIteration env
  | .standby => standbyStep env
  | .main => mainStep env
  | .ended => return ()

/-- What the process does before its first loop. -/
def boot : Proc World Unit := do
  match env.offsetParams with
  | some params => modify fun w => { w with
      params := params
      offsets := ⟨params.txOffsetXDefault, params.txOffsetYDefault⟩ }
  | none => pure ()
  calculateTxOffsets env
  cameraInitialize env
  if (← get).cameraInitialized then leaveCameraInit env

end Main

/-- A step of the process. -/
def step (env : Env) (w : World) : World := (iteration env).after w

/-- The state behind `n` steps. -/
def state (env : Env) : ℕ → World
  | 0 => (boot env).after {}
  | n + 1 => step env (state env n)

/-- A spot of twelve pixels, in the middle of a frame of 600 columns and rows. -/
def onlySpot : Group where
  x := 300
  y := 300
  valueMax := 300
  valueSum := 3000
  pixelCount := 12

def spotFrame : Frame where
  area := ⟨996, 672, 600, 600⟩
  histBrightest := 300
  histPeak := 3
  found := some [onlySpot]

/-- A process that gets some control packets, and whose FPGA always confirms. -/
def commanded (cameraInitialized : Bool) (messages : List Bytes) : Env where
  offsetParams := none
  errorBuffer _ := 0
  message n := messages[n]?
  garbage _ _ := 0
  laser _ := true
  fpgaComms _ := true
  stop _ := false
  cameraInitialize _ := cameraInitialized
  temperature _ := none
  clock _ := 0
  frame _ := none
  exposureRange _ := false
  sensitivity _ := (1, 1)
  tuned _ := ⟨false, none, nofun⟩

end ClickA.Pat
