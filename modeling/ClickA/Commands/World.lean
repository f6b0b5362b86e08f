import ClickA.Client.Interface
import ClickA.Files.Moves
import ClickA.Handler.Capture

/-!
# What the command handler acts on

`commandhandler.py`: the sockets to housekeeping, to PAT and to the packetizer, the FPGA, the disk
and the shell, and the functions of the command handler that use them. What it prints and logs is
left out.

## Main definitions

* `Err`, `Env`, `World`: what is raised, what the command handler finds outside, and its state
* `ackToHk`: `ack_to_hk`
* `sendPat`: the message of `send_pat_command` is sent
* `readReg`, `writeReg`, `initializeCalLaser`: the calls of the FPGA, and `initialize_cal_laser`
* `setPatMode`, `getPatMode`, `stopPat`: `set_pat_mode`, `get_pat_mode`, `stop_pat`
-/

namespace ClickA.Commands

open Python Options Fpga Handler

/-- What is raised: by the answer of the FPGA, by a statement on files, and other exceptions. -/
inductive Err
  | fpga (f : Client.Fault)
  | files (e : Files.Err)
  | raised (e : Exn)
deriving DecidableEq

/-- What the command handler finds outside: its process id, which the log of its start has packed
already, the largest `int`, its disk and its FPGA client, and what the commands of a shell and the
reports of exceptions are. -/
structure Env where
  pid : ℕ
  pid_lt : pid < 2 ^ 16
  maxint : ℕ
  files : Files.Env
  fpga : Client.Env
  shell : Bytes → Files.Host → Files.Host
  report : Err → Bytes

/-- The disk and the packets to the packetizer, the FPGA client, the messages to housekeeping and to
PAT, the commands to the shell, and `TIME_SET_ENABLE`. -/
structure World where
  host : Files.Host := {}
  fpga : Client.State := Client.init
  hkSent : List Bytes := []
  patSent : List Bytes := []
  executed : List Bytes := []
  timeSetEnable : ℕ := 0

abbrev Stmt := EStateM Err World

/-- A statement without effects. -/
def raise {α : Type} : Except Exn α → Stmt α
  | .ok a => pure a
  | .error e => throw (.raised e)

/-- A statement on the disk, or one that sends to the packetizer. -/
def onHost {α : Type} (x : Files.Stmt α) : Stmt α := fun w =>
  match x w.host with
  | .ok a h => .ok a { w with host := h }
  | .error e h => .error (.files e) { w with host := h }

/-- A packet is sent to the packetizer. -/
def sendTx (apid : ℕ) (payload : Bytes) : Stmt Unit := onHost (Files.sendPacket apid payload)

section Statements

variable (env : Env)

/-- `os.system`. A command with a null byte is refused. -/
def system (command : Bytes) : Stmt Unit := do
  if command.contains 0 then throw (.raised .typeError)
  modify fun w => { w with
    executed := w.executed ++ [command]
    host := env.shell command w.host }

/-! ## Housekeeping -/

/-- A control packet is sent to housekeeping. -/
def sendToHk (command : ℕ) (payload : Bytes) : Stmt Unit := do
  let raw ← raise (HKControlPacket.encode env.pid command payload)
  modify fun w => { w with hkSent := w.hkSent ++ [raw] }

/-- `ack_to_hk`. -/
def ackToHk (cmdId status : ℕ) : Stmt Unit := do
  let payload ← raise (pack (native [.H, .H]) [.int cmdId, .int status])
  sendToHk env hkControlAck payload

/-! ## The FPGA -/

/-- What a request of the client raises. -/
def Err.ofRequest : Client.Fault → Err
  | .zmqError => .fpga .zmqError
  | .raised e => .raised e

/-- A statement of the FPGA client, with its exceptions as those of the command handler. -/
def onClient {α : Type} (raised : Client.Fault → Err) (x : Client.ClientM α) : Stmt α := fun w =>
  match x w.fpga with
  | .ok a s => .ok a { w with fpga := s }
  | .error f s => .error (raised f) { w with fpga := s }

/-- `fpga.read_reg`: the request, and its answer. -/
def readReg (addr size : ℕ) : Stmt Client.RegValue := do
  let future ← onClient .ofRequest (Client.readRegAsync env.fpga addr size)
  onClient .fpga (Client.wait env.fpga future)

/-- `fpga.write_reg`: the request, and its answer. -/
def writeReg (addr : ℕ) (value : Client.WriteValue) : Stmt Client.RegValue := do
  let future ← onClient .ofRequest (Client.writeRegAsync env.fpga addr value)
  onClient .fpga (Client.wait env.fpga future)

/-- `fpga.write_reg` of an integer, whose value is not used. -/
def setReg (addr : ℕ) (n : ℤ) : Stmt Unit := do
  let _ ← writeReg env addr (.int n)

/-- `value == n`. -/
def equals : Client.RegValue → ℤ → Bool
  | .single (.int m), n => m = n
  | .single (.float x), n => x == Float.ofInt n
  | _, _ => false

/-- `heaters_on` or `calib_diode_on` of `Power`, if the register does not say that they are on. -/
def switchOn (addr : ℕ) : Stmt Unit := do
  if !equals (← readReg env addr 1) 85 then setReg env addr 85

/-- `initialize_cal_laser`. At last the diode is switched off. -/
def initializeCalLaser : Stmt Unit := do
  switchOn env po3
  switchOn env cal
  setReg env dacSetup 1
  setReg env dac1D calLaserDacSetting
  setReg env cal 15

/-! ## PAT -/

/-- A command is sent to PAT. -/
def sendPat (command : ℕ) (payload : Bytes) : Stmt Unit := do
  let raw ← raise (sendPatCommand command payload)
  modify fun w => { w with patSent := w.patSent ++ [raw] }

/-- `pat_mode_list`. -/
def patModeList : List ℕ :=
  [patCmdStartPat, patCmdStartPatOpenLoop, patCmdStartPatStaticPoint, patCmdStartPatBusFeedback,
    patCmdStartPatOpenLoopBusFeedback, patCmdBcnAlign]

/-- `PAT_MODE_FILENAME`. -/
def patModeFilename : Bytes := ascii "/root/lib/patMode.txt"

/-- `set_pat_mode`. -/
def setPatMode (modeId : ℕ) : Files.Stmt Unit := do
  if modeId ∈ patModeList then
    let patModeFile ← Files.openWrite env.files patModeFilename
    Files.write env.files patModeFile (str modeId)

/-- The default mode is set. -/
def resetPatMode : Files.Stmt ℕ := do
  setPatMode env patCmdStartPat
  return patCmdStartPat

/-- `get_pat_mode`. -/
def getPatMode : Files.Stmt ℕ := do
  if ← Files.pathExists env.files patModeFilename then
    let patModeFile ← Files.openRead env.files patModeFilename
    match intOf (← Files.readAll env.files patModeFile) with
    | .ok modeId =>
      if modeId ∈ patModeList.map Int.ofNat then return modeId.toNat else resetPatMode env
    | .error _ => resetPatMode env
  else resetPatMode env

/-- `stop_pat`. -/
def stopPat : Stmt Unit := do
  sendPat patCmdEndProcess []
  system env (ascii "systemctl --user stop pat")

/-- `pat_status_is`, of a `pat_status_flag` that is `-1` if no status came. -/
def statusIs (patStatusFlag : ℤ) (patStatusCheck : ℕ) : Bool :=
  if patStatusFlag ∈ patStatusList.map Int.ofNat then patStatusFlag == patStatusCheck else false

/-- PAT is in standby. -/
def standby (patStatusFlag : ℤ) : Bool :=
  statusIs patStatusFlag patStatusStandby || statusIs patStatusFlag patStatusStandbyCalibrated ||
    statusIs patStatusFlag patStatusStandbySelfTestPassed ||
    statusIs patStatusFlag patStatusStandbySelfTestFailed

/-- PAT is in standby and calibrated. -/
def calibrated (patStatusFlag : ℤ) : Bool :=
  statusIs patStatusFlag patStatusStandbyCalibrated ||
    statusIs patStatusFlag patStatusStandbySelfTestPassed

end Statements

/-- The status as it is tested for a capture. -/
theorem statusIs_natCast (patStatusFlag patStatusCheck : ℕ) :
    statusIs patStatusFlag patStatusCheck = patStatusIs patStatusFlag patStatusCheck := by
  unfold statusIs patStatusIs
  have hmem : (patStatusFlag : ℤ) ∈ patStatusList.map Int.ofNat ↔
      patStatusFlag ∈ patStatusList := by
    simp only [List.mem_map]
    constructor
    · rintro ⟨status, hstatus, heq⟩
      rwa [← Int.ofNat.inj heq]
    · exact fun hstatus => ⟨_, hstatus, rfl⟩
  have hbeq : ((patStatusFlag : ℤ) == patStatusCheck) = (patStatusFlag == patStatusCheck) := by
    rw [Bool.eq_iff_iff, beq_iff_eq, beq_iff_eq, Int.natCast_inj]
  simp only [hmem, hbeq]

theorem standby_natCast (patStatusFlag : ℕ) : standby patStatusFlag = inStandby patStatusFlag := by
  unfold standby inStandby
  simp only [statusIs_natCast]

end ClickA.Commands
