import ClickA.Commands.World

/-!
# The commands

`commandhandler.py`: the branches of the main loop, one for each command. The time at tone, the self
test and the downlink and debug modes are left out.

## Main definitions

* `Command`, `Command.id`: the commands and their ids
* `Command.format`: the format that a command unpacks its payload with
* `Command.handle`: what the main loop does for a command
-/

namespace ClickA.Commands

open Python Options Fpga Handler

/-- The commands. -/
inductive Command
  | reboot
  | shutdown
  | enableTime
  | execFile
  | listFile
  | autoDownlinkFile
  | disassembleFile
  | requestFile
  | uplinkFile
  | assembleFile
  | validateFile
  | moveFile
  | deleteFile
  | autoAssembleFile
  | setPatMode
  | singleCapture
  | calibLaserTest
  | fsmTest
  | runCalibration
  | testAdcsFeedback
  | updateAcquisitionParams
  | txAlign
  | updateTxOffsets
  | updateFsmAngles
  | enterPatMain
  | exitPatMain
  | endPatProcess
  | setFpga
  | getFpga
  | setHk
  | echo
  | noop
  | updateSeedParams
deriving DecidableEq, Repr

/-- `CMD_ID`. -/
def Command.id : Command → ℕ
  | reboot => cmdPlReboot
  | shutdown => cmdPlShutdown
  | enableTime => cmdPlEnableTime
  | execFile => cmdPlExecFile
  | listFile => cmdPlListFile
  | autoDownlinkFile => cmdPlAutoDownlinkFile
  | disassembleFile => cmdPlDisassembleFile
  | requestFile => cmdPlRequestFile
  | uplinkFile => cmdPlUplinkFile
  | assembleFile => cmdPlAssembleFile
  | validateFile => cmdPlValidateFile
  | moveFile => cmdPlMoveFile
  | deleteFile => cmdPlDeleteFile
  | autoAssembleFile => cmdPlAutoAssembleFile
  | setPatMode => cmdPlSetPatMode
  | singleCapture => cmdPlSingleCapture
  | calibLaserTest => cmdPlCalibLaserTest
  | fsmTest => cmdPlFsmTest
  | runCalibration => cmdPlRunCalibration
  | testAdcsFeedback => cmdPlTestAdcsFeedback
  | updateAcquisitionParams => cmdPlUpdateAcquisitionParams
  | txAlign => cmdPlTxAlign
  | updateTxOffsets => cmdPlUpdateTxOffsets
  | updateFsmAngles => cmdPlUpdateFsmAngles
  | enterPatMain => cmdPlEnterPatMain
  | exitPatMain => cmdPlExitPatMain
  | endPatProcess => cmdPlEndPatProcess
  | setFpga => cmdPlSetFpga
  | getFpga => cmdPlGetFpga
  | setHk => cmdPlSetHk
  | echo => cmdPlEcho
  | noop => cmdPlNoop
  | updateSeedParams => cmdPlUpdateSeedParams

/-! ## Payloads -/

/-- `!BHB%dI`: the registers of `CMD_PL_SET_FPGA`. -/
def setFpgaFormat (size : ℕ) : Format :=
    network ([.B, .H, .B] ++ List.replicate ((size - 4) / 4) .I)

/-- `!%dI`: the registers of `CMD_PL_UPDATE_SEED_PARAMS`, three more than `(size - 4)//4`. -/
def seedFormat (size : ℕ) : Format := network (List.replicate (((size : ℤ) - 4) / 4 + 3).toNat .I)

/-- The format that a command unpacks a payload with, if it unpacks one. Where a count is negative
in the source, the payload is too short for the rest of the format. -/
def Command.format (size : ℕ) : Command → Option Format
  | execFile => some (network [.B, .B, .H, .s (size - 4)])
  | listFile => some (network [.H, .s (size - 2)])
  | autoDownlinkFile => some (network [.H, .H, .H, .s (size - 6)])
  | disassembleFile => some (network [.H, .H, .H, .s (size - 6)])
  | requestFile => some (network [.H, .B, .H, .H])
  | uplinkFile => some (network [.H, .H, .H, .H, .s (size - 8)])
  | assembleFile => some (network [.H, .H, .s (size - 4)])
  | validateFile => some (network [.s 16, .H, .s (size - 18)])
  | moveFile => some (network [.H, .H, .s (size - 4)])
  | deleteFile => some (network [.B, .H, .s (size - 3)])
  | autoAssembleFile => some (network [.H, .s 16, .H, .s (size - 20)])
  | setPatMode => some (network [.B])
  | singleCapture => some (network [.H, .H, .H, .H, .I])
  | calibLaserTest => some (network [.I])
  | fsmTest => some (network [.I])
  | updateAcquisitionParams => some (network [.H, .H, .H, .I])
  | updateTxOffsets => some (network [.H, .H, .H, .B, .H])
  | updateFsmAngles => some (network [.H, .H])
  | setFpga => some (setFpgaFormat size)
  | getFpga => some (network [.B, .H, .B])
  | setHk => some (network [.s 6])
  | echo => some (network [.s size])
  | updateSeedParams => some (seedFormat size)
  | _ => none

section Branches

variable (env : Env)

/-- A test of the status. What is accepted is done and acknowledged; what is not is answered with an
error. -/
def accept (accepted : Bool) (cmdId : ℕ) (body : Stmt Unit) : Stmt Unit := do
  if accepted then
    body
    ackToHk env cmdId cmdAck
  else ackToHk env cmdId cmdErr

/-! ## Processes and files -/

/-- `CMD_PL_REBOOT`. -/
def reboot : Stmt Unit := do
  ackToHk env cmdPlReboot cmdAck
  system env (ascii "shutdown -r now")

/-- `CMD_PL_SHUTDOWN`. -/
def shutdown : Stmt Unit := do
  ackToHk env cmdPlShutdown cmdAck
  system env (ascii "shutdown now")

/-- `CMD_PL_ENABLE_TIME`. -/
def enableTime : Stmt Unit := do
  modify fun w => { w with timeSetEnable := 1 }
  ackToHk env cmdPlEnableTime cmdAck

/-- `CMD_PL_EXEC_FILE`. -/
def execFile (payload : Bytes) : Stmt Unit := do
  match ← raise (unpack (network [.B, .B, .H, .s (payload.length - 4)]) payload) with
  | [.int outputToFile, .int fileOutNum, .int filePathLen, .str filePathPayload] =>
    let filePath := filePathPayload.take filePathLen.toNat
    let redirect := ascii " > /root/log/" ++ str fileOutNum.toNat ++ ascii ".log"
    tryCatch (do
      system env (if outputToFile ≠ 0 then filePath ++ redirect else filePath)
      ackToHk env cmdPlExecFile cmdAck) fun _ => ackToHk env cmdPlExecFile cmdErr
  | _ => throw (.raised .structError)

/-- `os.listdir`. A path with a null byte is refused. -/
def listdir (path : Bytes) : Stmt (List Name) := do
  if path.contains 0 then throw (.raised .typeError)
  onHost (Files.listdir env.files path)

/-- `CMD_PL_LIST_FILE`. The command is acknowledged before the list is sent. -/
def listFile (payload : Bytes) : Stmt Unit := do
  match ← raise (unpack (network [.H, .s (payload.length - 2)]) payload) with
  | [.int directoryPathLen, .str directoryPathPayload] =>
    let returnData ← tryCatch (do
      let directoryListing ← listdir env (directoryPathPayload.take directoryPathLen.toNat)
      ackToHk env cmdPlListFile cmdAck
      return directoryListing.flatMap (· ++ ascii "\n")) fun e => do
        ackToHk env cmdPlListFile cmdErr
        return ascii "ERROR CMD PL_LIST_FILE: " ++ env.report e
    sendTx tlmListFile returnData
  | _ => throw (.raised .structError)

/-- A command of `filehandling.py`. -/
def fileCommand (cmdId : ℕ) (x : Files.Stmt Unit) : Stmt Unit := do
  onHost x
  ackToHk env cmdId cmdAck

/-! ## PAT -/

/-- A mode is set and acknowledged, if it is one. -/
def selectMode (patModeCmd : ℕ) : Stmt Unit := do
  if patModeCmd ∈ patModeList then
    onHost (setPatMode env patModeCmd)
    ackToHk env cmdPlSetPatMode cmdAck
  else ackToHk env cmdPlSetPatMode cmdErr

/-- `CMD_PL_SET_PAT_MODE`. -/
def setMode (payload : Bytes) : Stmt Unit := do
  match ← raise (unpack (network [.B]) payload) with
  | [.int patModeCmd] =>
    selectMode env patModeCmd.toNat
    let _ ← onHost (getPatMode env)
  | _ => throw (.raised .structError)

/-- `CMD_PL_SINGLE_CAPTURE`. -/
def capture (patStatusFlag : ℤ) (payload : Bytes) : Stmt Unit := do
  let c ← raise (Capture.decode payload)
  accept env (standby patStatusFlag && decide c.InBounds) cmdPlSingleCapture
    (Part.all.forM fun part => sendPat part.command (strInt (c.value part)))

/-- An exposure between the bounds of the camera. -/
def clampExposure (expCmd : ℕ) : ℕ :=
  if expCmd < cameraMinExp then cameraMinExp
  else if expCmd > cameraMaxExp then cameraMaxExp else expCmd

/-- `CMD_PL_CALIB_LASER_TEST`. Another command is acknowledged when PAT is not in standby. -/
def calibLaserTest (patStatusFlag : ℤ) (payload : Bytes) : Stmt Unit := do
  match ← raise (unpack (network [.I]) payload) with
  | [.int expCmd] =>
    if standby patStatusFlag then
      initializeCalLaser env
      sendPat patCmdCalibLaserTest (str (clampExposure expCmd.toNat))
      ackToHk env cmdPlCalibLaserTest cmdAck
    else ackToHk env cmdPlSingleCapture cmdErr
  | _ => throw (.raised .structError)

/-- `CMD_PL_FSM_TEST`. -/
def fsmTest (patStatusFlag : ℤ) (payload : Bytes) : Stmt Unit := do
  match ← raise (unpack (network [.I]) payload) with
  | [.int expCmd] =>
    accept env (standby patStatusFlag) cmdPlFsmTest do
      initializeCalLaser env
      sendPat patCmdFsmTest (str (clampExposure expCmd.toNat))
  | _ => throw (.raised .structError)

/-- `CMD_PL_RUN_CALIBRATION`. -/
def runCalibration (patStatusFlag : ℤ) : Stmt Unit :=
  accept env (standby patStatusFlag) cmdPlRunCalibration do
    initializeCalLaser env
    sendPat patCmdCalibTest []

/-- `CMD_PL_TEST_ADCS_FEEDBACK`. -/
def testAdcsFeedback (patStatusFlag : ℤ) : Stmt Unit :=
  accept env (standby patStatusFlag) cmdPlTestAdcsFeedback (sendPat patCmdTestBusFeedback [])

/-- The parameters of the acquisition. -/
structure Acquisition where
  bcnRelX : ℤ
  bcnRelY : ℤ
  bcnWindowSize : ℕ
  bcnMaxExp : ℕ
deriving DecidableEq, Repr

namespace Acquisition

/-- `struct.unpack('!hhHI', payload)`. -/
def decode (payload : Bytes) : Except Exn Acquisition := do
  match ← unpack (network [.H, .H, .H, .I]) payload with
  | [.int bcnRelX, .int bcnRelY, .int bcnWindowSize, .int bcnMaxExp] =>
    return ⟨toShort bcnRelX, toShort bcnRelY, bcnWindowSize.toNat, bcnMaxExp.toNat⟩
  | _ => .error .structError

/-- The bounds that the command handler checks. -/
def InBounds (a : Acquisition) : Prop :=
  |a.bcnRelX| < (cameraWidth / 2 : ℕ) ∧ |a.bcnRelY| < (cameraHeight / 2 : ℕ) ∧
    a.bcnWindowSize ≤ cameraHeight ∧ cameraMinExp < a.bcnMaxExp ∧ a.bcnMaxExp < cameraMaxExp

instance (a : Acquisition) : Decidable a.InBounds := inferInstanceAs (Decidable (_ ∧ _))

end Acquisition

/-- `CMD_PL_UPDATE_ACQUISITION_PARAMS`. Nothing is acknowledged when a parameter is out of bounds,
and another command when PAT is not in standby. -/
def updateAcquisitionParams (patStatusFlag : ℤ) (payload : Bytes) : Stmt Unit := do
  let a ← raise (Acquisition.decode payload)
  if standby patStatusFlag then
    if a.InBounds then
      sendPat patCmdSetBeaconX (strInt a.bcnRelX)
      sendPat patCmdSetBeaconY (strInt a.bcnRelY)
      sendPat patCmdSetBeaconWindowSize (str a.bcnWindowSize)
      sendPat patCmdSetBeaconMaxExp (str a.bcnMaxExp)
      ackToHk env cmdPlUpdateAcquisitionParams cmdAck
  else ackToHk env cmdPlTxAlign cmdErr

/-- `CMD_PL_TX_ALIGN`. -/
def txAlign (patStatusFlag : ℤ) : Stmt Unit :=
  accept env (calibrated patStatusFlag) cmdPlTxAlign (sendPat patCmdTxAlign [])

/-- A message is sent if a test holds. -/
def sendPatIf (sends : Bool) (command : ℕ) (payload : Bytes) : Stmt Unit := do
  if sends then sendPat command payload

/-- The messages of `CMD_PL_UPDATE_TX_OFFSETS`. -/
def txOffsets (patStatusFlag txUpdateX txUpdateY : ℤ) (txOffsetCalcPd enableDither ditherPd : ℕ) :
    Stmt Unit := do
  sendPatIf (|txUpdateX| < (cameraWidth / 2 : ℕ)) patCmdUpdateTxOffsetX (strInt txUpdateX)
  sendPatIf (|txUpdateY| < (cameraHeight / 2 : ℕ)) patCmdUpdateTxOffsetY (strInt txUpdateY)
  if standby patStatusFlag then
    sendPat patCmdUpdatePeriodCalculateTxOffset (str txOffsetCalcPd)
    if enableDither = patEnableDither then
      sendPat patCmdEnableDitherTxOffset (str enableDither)
      sendPat patCmdUpdatePeriodDitherTxOffset (str ditherPd)

/-- `CMD_PL_UPDATE_TX_OFFSETS`. -/
def updateTxOffsets (patStatusFlag : ℤ) (payload : Bytes) : Stmt Unit := do
  match ← raise (unpack (network [.H, .H, .H, .B, .H]) payload) with
  | [.int txUpdateX, .int txUpdateY, .int txOffsetCalcPd, .int enableDither, .int ditherPd] =>
    accept env (standby patStatusFlag || statusIs patStatusFlag patStatusMain) cmdPlUpdateTxOffsets
      (txOffsets patStatusFlag (toShort txUpdateX) (toShort txUpdateY) txOffsetCalcPd.toNat
        enableDither.toNat ditherPd.toNat)
  | _ => throw (.raised .structError)

/-- `CMD_PL_UPDATE_FSM_ANGLES`. -/
def updateFsmAngles (patStatusFlag : ℤ) (payload : Bytes) : Stmt Unit := do
  match ← raise (unpack (network [.H, .H]) payload) with
  | [.int x, .int y] =>
    let fsmUpdateX := toShort x
    let fsmUpdateY := toShort y
    accept env (calibrated patStatusFlag) cmdPlUpdateFsmAngles do
      sendPatIf (|fsmUpdateX| < (cameraHeight / 2 : ℕ)) patCmdUpdateFsmX (strInt fsmUpdateX)
      sendPatIf (|fsmUpdateY| < (cameraHeight / 2 : ℕ)) patCmdUpdateFsmY (strInt fsmUpdateY)
  | _ => throw (.raised .structError)

/-- PAT is told to enter its main mode. -/
def enterMain (flag : ℕ) : Stmt Unit := do
  let patModeId ← onHost (getPatMode env)
  sendPat patModeId (str flag)

/-- `CMD_PL_ENTER_PAT_MAIN`. -/
def enterPatMain (patStatusFlag : ℤ) : Stmt Unit := do
  if calibrated patStatusFlag then
    enterMain env patSkipCalibFlag
    ackToHk env cmdPlEnterPatMain cmdAck
  else if statusIs patStatusFlag patStatusStandby ||
      statusIs patStatusFlag patStatusStandbySelfTestFailed then
    enterMain env patDoCalibFlag
    ackToHk env cmdPlEnterPatMain cmdAck
  else ackToHk env cmdPlEnterPatMain cmdErr

/-- `CMD_PL_EXIT_PAT_MAIN`. -/
def exitPatMain (patStatusFlag : ℤ) : Stmt Unit :=
  accept env (statusIs patStatusFlag patStatusMain) cmdPlExitPatMain (sendPat patCmdEndPat [])

/-- `CMD_PL_END_PAT_PROCESS`. -/
def endPatProcess : Stmt Unit := do
  stopPat env
  ackToHk env cmdPlEndPatProcess cmdAck

/-! ## The FPGA -/

/-- The values of an answer, as a list. A `long` is no `int`. -/
def valuesOf : Client.RegValue → Option (List Value)
  | .single (.int n) => if -env.maxint - 1 ≤ n ∧ n ≤ env.maxint then some [.int n] else none
  | .list values => some values
  | _ => none

/-- `value != n`. -/
def differs : Value → ℤ → Bool
  | .int m, n => m ≠ n
  | .float x, n => x != Float.ofInt n
  | .str _, _ => true

/-- How many of the registers that were read differ from what was written. -/
def countErrors (numRegisters : ℕ) (checkWriteData : List Value) (writeData : List ℤ) :
    Except Exn ℕ :=
  (List.range numRegisters).foldlM (fun numErrors i => do
    return numErrors + (differs (← index checkWriteData i) (← index writeData i)).toNat) 0

/-- The registers that were written are compared with what is read. -/
def compareRegs (numRegisters : ℕ) (checkWriteData : List Value) (writeData : List ℤ) :
    Stmt Unit := do
  let numErrors ← raise (countErrors numRegisters checkWriteData writeData)
  ackToHk env cmdPlSetFpga (if numErrors = 0 then cmdAck else cmdErr)

/-- The integers that were unpacked. -/
def ints : List Value → List ℤ
  | .int n :: values => n :: ints values
  | _ => []

/-- `CMD_PL_SET_FPGA`. Nothing is acknowledged for a wrong number of registers, and another command
for an answer that is neither an `int` nor a list. -/
def setFpga (payload : Bytes) : Stmt Unit := do
  match ints (← raise (unpack (setFpgaFormat payload.length) payload)) with
  | _rqNumber :: startAddr :: numRegisters :: writeData =>
    if numRegisters = writeData.length then
      let _ ← writeReg env startAddr.toNat (.list writeData)
      match valuesOf env (← readReg env startAddr.toNat numRegisters.toNat) with
      | some checkWriteData => compareRegs env numRegisters.toNat checkWriteData writeData
      | none => ackToHk env cmdPlGetFpga cmdErr
  | _ => throw (.raised .structError)

/-- `!BHB%dI`: the answer to `CMD_PL_GET_FPGA`. -/
def packRegs (rqNumber startAddr : ℕ) (readData : List Value) : Except Exn Bytes :=
  pack (network ([.B, .H, .B] ++ List.replicate readData.length .I))
    ([.int rqNumber, .int startAddr, .int readData.length] ++ readData)

/-- `CMD_PL_GET_FPGA`. -/
def getFpga (payload : Bytes) : Stmt Unit := do
  match ← raise (unpack (network [.B, .H, .B]) payload) with
  | [.int rqNumber, .int startAddr, .int numRegisters] =>
    match valuesOf env (← readReg env startAddr.toNat numRegisters.toNat) with
    | some readData =>
      if numRegisters ≠ readData.length then ackToHk env cmdPlGetFpga cmdErr
      else
        sendTx tlmGetFpga (← raise (packRegs rqNumber.toNat startAddr.toNat readData))
        ackToHk env cmdPlGetFpga cmdAck
    | none => ackToHk env cmdPlGetFpga cmdErr
  | _ => throw (.raised .structError)

/-- `check_write_data` of `CMD_PL_UPDATE_SEED_PARAMS`, whose type is not tested. -/
def elements : Client.RegValue → Except Exn (List Value)
  | .list values => .ok values
  | .str text => .ok (text.map fun b => .str [b])
  | _ => .error .typeError

/-- `CMD_PL_UPDATE_SEED_PARAMS`. It acknowledges `CMD_PL_SET_FPGA`. -/
def updateSeedParams (payload : Bytes) : Stmt Unit := do
  match ints (← raise (unpack (seedFormat payload.length) payload)) with
  | _rqNumber :: startAddr :: numRegisters :: writeData =>
    if numRegisters = writeData.length then
      let _ ← writeReg env startAddr.toNat (.list writeData)
      let value ← readReg env startAddr.toNat numRegisters.toNat
      compareRegs env numRegisters.toNat (← raise (elements value)) writeData
  | _ => throw (.raised .structError)

/-! ## Housekeeping and tests -/

/-- `CMD_PL_SET_HK`. -/
def setHk (payload : Bytes) : Stmt Unit := do
  match ← raise (unpack (network [.s 6]) payload) with
  | [.str setHkPayload] =>
    sendToHk env cmdPlSetHk setHkPayload
    ackToHk env cmdPlSetHk cmdAck
  | _ => throw (.raised .structError)

/-- `CMD_PL_ECHO`. -/
def echo (payload : Bytes) : Stmt Unit := do
  match ← raise (unpack (network [.s payload.length]) payload) with
  | [.str echoPayload] =>
    sendTx tlmEcho echoPayload
    ackToHk env cmdPlEcho cmdAck
  | _ => throw (.raised .structError)

/-- `CMD_PL_NOOP`. -/
def noop : Stmt Unit := ackToHk env cmdPlNoop cmdAck

/-- What the main loop does for a command. -/
def Command.handle (patStatusFlag : ℤ) (payload : Bytes) : Command → Stmt Unit
  | .reboot => Commands.reboot env
  | .shutdown => Commands.shutdown env
  | .enableTime => Commands.enableTime env
  | .execFile => Commands.execFile env payload
  | .listFile => Commands.listFile env payload
  | .autoDownlinkFile => fileCommand env cmdPlAutoDownlinkFile
      (Files.autoDownlinkFile env.files payload)
  | .disassembleFile => fileCommand env cmdPlDisassembleFile
      (Files.disassembleFile env.files payload)
  | .requestFile => fileCommand env cmdPlRequestFile (Files.requestFile env.files payload)
  | .uplinkFile => fileCommand env cmdPlUplinkFile (Files.uplinkFile env.files payload)
  | .assembleFile => fileCommand env cmdPlAssembleFile (Files.assembleFile env.files payload)
  | .validateFile => fileCommand env cmdPlValidateFile (Files.validateFile env.files payload)
  | .moveFile => fileCommand env cmdPlMoveFile (Files.moveFile env.files payload)
  | .deleteFile => fileCommand env cmdPlDeleteFile (Files.delFile env.files payload)
  | .autoAssembleFile => fileCommand env cmdPlAutoAssembleFile
      (Files.autoAssembleFile env.files payload)
  | .setPatMode => setMode env payload
  | .singleCapture => capture env patStatusFlag payload
  | .calibLaserTest => Commands.calibLaserTest env patStatusFlag payload
  | .fsmTest => Commands.fsmTest env patStatusFlag payload
  | .runCalibration => Commands.runCalibration env patStatusFlag
  | .testAdcsFeedback => Commands.testAdcsFeedback env patStatusFlag
  | .updateAcquisitionParams => Commands.updateAcquisitionParams env patStatusFlag payload
  | .txAlign => Commands.txAlign env patStatusFlag
  | .updateTxOffsets => Commands.updateTxOffsets env patStatusFlag payload
  | .updateFsmAngles => Commands.updateFsmAngles env patStatusFlag payload
  | .enterPatMain => Commands.enterPatMain env patStatusFlag
  | .exitPatMain => Commands.exitPatMain env patStatusFlag
  | .endPatProcess => Commands.endPatProcess env
  | .setFpga => Commands.setFpga env payload
  | .getFpga => Commands.getFpga env payload
  | .setHk => Commands.setHk env payload
  | .echo => Commands.echo env payload
  | .noop => Commands.noop env
  | .updateSeedParams => Commands.updateSeedParams env payload

end Branches

end ClickA.Commands
