import ClickA.Commands.Arrival
import ClickA.Python.Calendar

/-!
# Runs of a command handler

`commandhandler.py`: the time at tone, the self test and the debug mode, and the main loop over the
workloads that the handler receives. An exception ends the process; when it is started again its
FPGA client is new, and the time is not to be set. Heartbeats and logs are left out.

## Main definitions

* `toneFormat`, `timeAtTone`: the branch of `APID_TIME_AT_TONE`
* `setTimeCommand`: the command that sets the clock
* `selfTest`, `debugMode`: the branches of `CMD_PL_SELF_TEST` and `CMD_PL_DEBUG_MODE`
* `otherCommand`: the branches that `Command` does not have
* `Turn`, `turn`, `serve`: a workload, what the main loop does with it, and a run
-/

namespace ClickA.Commands

open Python Options

/-! ## Constants -/

/-- `APID_TIME_AT_TONE`. -/
def apidTimeAtTone : ℕ := 0x280

/-- `CMD_PL_SELF_TEST`, and its tests. -/
def cmdPlSelfTest : ℕ := 0x80
def generalSelfTest : ℕ := 0x00
def laserSelfTest : ℕ := 0x01
def patSelfTest : ℕ := 0x02

/-- `CMD_PL_DWNLINK_MODE`. -/
def cmdPlDwnlinkMode : ℕ := 0xE0

/-- `CMD_PL_DEBUG_MODE`. -/
def cmdPlDebugMode : ℕ := 0xD0

/-- `PAT_CMD_SELF_TEST`. -/
def patCmdSelfTest : ℕ := 0x10

section Branches

variable (env : Env)

/-! ## The time at tone -/

/-- `!L6QB4QB`: the time at tone. -/
def toneFormat : Format :=
  network ([.I] ++ List.replicate 6 (.uint 8) ++ [.B] ++ List.replicate 4 (.uint 8) ++ [.B])

/-- The command that sets the clock to a date. The year of a tone has four digits. -/
def setTimeCommand (setTime : StructTime) : Bytes :=
  ascii "timedatectl set-time '" ++ (zeroPadded 4 setTime.tmYear.toNat ++ (ascii "-" ++
    (zeroPadded 2 setTime.tmMon ++ (ascii "-" ++ (zeroPadded 2 setTime.tmMday ++ (ascii " " ++
      (zeroPadded 2 setTime.tmHour ++ (ascii ":" ++ (zeroPadded 2 setTime.tmMin ++ (ascii ":" ++
        (zeroPadded 2 setTime.tmSec ++ ascii "'")))))))))))

/-- `APID_TIME_AT_TONE`. A `time_t` is as large as an `int`. -/
def timeAtTone (payload : Bytes) : Stmt Unit := do
  if 0 < (← get).timeSetEnable then
    match ← raise (unpack toneFormat payload) with
    | .int taiSecs :: _ =>
      let setTime ← raise (gmtime env.maxint (taiSecs - 37))
      system env (setTimeCommand setTime)
      modify fun w => { w with timeSetEnable := w.timeSetEnable - 1 }
    | _ => throw (.raised .structError)

/-! ## The self test and the debug mode -/

/-- `set_hk_ch_period`. -/
def setHkChPeriod (newPeriod : ℕ) : Stmt Unit := do
  let payload ← raise (pack (native [.I]) [.int newPeriod])
  sendToHk env hkControlCh payload

/-- A script of a self test. Housekeeping waits longer for a heartbeat meanwhile. -/
def runTestScript (script : Bytes) : Stmt Unit := do
  setHkChPeriod env 150
  tryCatch (system env script) fun _ => pure ()
  setHkChPeriod env hkChCheckPd

/-- `CMD_PL_SELF_TEST`, which is not acknowledged. -/
def selfTest (patStatusFlag : ℤ) (payload : Bytes) : Stmt Unit := do
  match ← raise (unpack (network [.B]) payload) with
  | [.int testId] =>
    if testId = generalSelfTest then
      runTestScript env (ascii "python /root/test/general_functionality_test.py")
    else if testId = laserSelfTest then
      runTestScript env (ascii "python /root/test/automated_laser_checks.py")
    else if testId = patSelfTest then
      if standby patStatusFlag then
        initializeCalLaser env
        sendPat patCmdSelfTest []
      else if statusIs patStatusFlag patStatusCameraInit then sendPat patCmdSelfTest []
  | _ => throw (.raised .structError)

/-- `CMD_PL_DEBUG_MODE`. A text and a number are added for the log. -/
def debugMode : Stmt Unit := throw (.raised .typeError)

/-- What the main loop does for an id that `Command` does not have. The downlink mode is a
parameter. -/
def otherCommand (dwnlinkMode : Stmt Unit) (patStatusFlag : ℤ) (cmdId : ℕ) (payload : Bytes) :
    Stmt Unit :=
  if cmdId = apidTimeAtTone then timeAtTone env payload
  else if cmdId = cmdPlSelfTest then selfTest env patStatusFlag payload
  else if cmdId = cmdPlDwnlinkMode then dwnlinkMode
  else if cmdId = cmdPlDebugMode then debugMode
  else pure ()

end Branches

/-! ## Runs -/

section Runs

variable (dwnlinkMode : Env → Stmt Unit)

/-- A workload, and what the command handler finds outside then. -/
structure Turn where
  env : Env
  patStatusFlag : ℤ
  raw : Bytes

/-- What the main loop does with the workload. -/
def Turn.body (t : Turn) : Stmt Unit :=
  workload (fun env => otherCommand env (dwnlinkMode env) t.patStatusFlag) t.env t.patStatusFlag
    t.raw

/-- The process is started again. -/
def restarted (w : World) : World := { w with fpga := Client.init, timeSetEnable := 0 }

/-- A turn of the main loop. An exception ends the process. -/
def turn (w : World) (t : Turn) : World :=
  match t.body dwnlinkMode w with
  | .ok _ w' => w'
  | .error _ w' => restarted w'

/-- A run over workloads. -/
def serve (turns : List Turn) (w : World) : World := turns.foldl (turn dwnlinkMode) w

/-- The turn ends without an exception. -/
def Turn.ends (t : Turn) (w : World) : Bool := endsIn (t.body dwnlinkMode) (fun _ => true) w

/-- The id of the workload is this one. -/
def Turn.HasId (t : Turn) (cmdId : ℕ) : Prop :=
  ∃ s ms payload, RxCommandPacket.decode t.raw = .ok (cmdId, s, ms, payload)

end Runs

end ClickA.Commands
