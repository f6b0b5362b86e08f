import ClickA.Housekeeping.ResetTimer
import ClickA.Housekeeping.Telemetry
import ClickA.Ipc.Control
import Mathlib.Data.List.AList

/-!
# Housekeeping

`housekeeping.py`: housekeeping keeps a watchdog for each command handler, for PAT and for the load
balancer. A process whose watchdog expires is restarted. The watchdog of a command handler is found
in a dictionary under the handler's process id, which changes with each restart. Two timers start
the periodic checks of the FPGA and of the system.

## Main definitions

* `WatchdogTimer`: a watchdog
* `Housekeeper`, `Stmt`: the state of housekeeping, and the statements on it
* `restartProcess`: `restart_process`
* `handleHkCommand`: `handle_hk_command`
* `checkSys`, `checkFpga`: the periodic checks
* `Statement.run`: the statements of the loop of `run`
* `Alarm.ring`: what the other threads do
-/

namespace ClickA.Housekeeping

open Python Options

/-- What is raised: `AttributeError`, and the other exceptions. -/
inductive Err
  | attributeError
  | raised (e : Exn)
deriving DecidableEq, Repr

/-! ## Watchdogs -/

/-- The function that a watchdog calls when it expires. -/
inductive Alert
  | missingCh (inst : ℕ)
  | missingPat
  | missingLb
deriving DecidableEq, Repr

/-- A `WatchdogTimer`, and where its `threading.Timer` is. Each `start` but the first comes behind a
`cancel`, so that no other timer of it waits. -/
structure WatchdogTimer where
  timeout : ℕ
  function : Alert
  timer : Option Phase := none
deriving DecidableEq, Repr

namespace WatchdogTimer

/-- `cancel`, which has no effect behind the expiry. -/
def cancel (wd : WatchdogTimer) : Except Err WatchdogTimer :=
  match wd.timer with
  | none => .error .attributeError
  | some .waiting => .ok { wd with timer := some .cancelled }
  | some _ => .ok wd

/-- `set_timeout`. -/
def setTimeout (wd : WatchdogTimer) (timeout : ℕ) : WatchdogTimer := { wd with timeout }

/-- `start`. -/
def start (wd : WatchdogTimer) : WatchdogTimer := { wd with timer := some .waiting }

/-- `kick`. -/
def kick (wd : WatchdogTimer) : Except Err WatchdogTimer := return (← wd.cancel).start

/-- The timer waits. -/
def Running (wd : WatchdogTimer) : Prop := wd.timer = some .waiting

instance (wd : WatchdogTimer) : Decidable wd.Running := inferInstanceAs (Decidable (_ = _))

end WatchdogTimer

/-! ## The state -/

/-- The state of housekeeping. The watchdogs of the command handlers are the objects `watchdogs`, in
the order in which they were created, and `chHeartbeatWds` refers to them. The service manager runs
the command handlers with the process ids `services`, and `fpgaReads` threads read the FPGA. -/
structure Housekeeper where
  services : List ℕ
  chPids : List ℕ
  chHeartbeatWds : AList fun _ : ℕ => ℕ
  watchdogs : List WatchdogTimer
  patHealthWd : WatchdogTimer
  lbHeartbeatWd : WatchdogTimer
  fpgaCheckTimer : ResetTimer
  sysCheckTimer : ResetTimer
  allPktsSendEnable : ℕ := 1
  fpgaReqEnable : ℕ := 1
  sysHkSendEnable : ℕ := 1
  patHkSendEnable : ℕ := 1
  chHkSendEnable : ℕ := 1
  chRestartEnable : ℕ := 1
  patRestartEnable : ℕ := 1
  fpgaRestartEnable : ℕ := 1
  lbRestartEnable : ℕ := 1
  fpgaCheckPeriod : ℕ := hkFpgaCheckPd
  sysCheckPeriod : ℕ := hkSysCheckPd
  chHeartbeatPeriod : ℕ := hkChCheckPd
  patHealthPeriod : ℕ := hkPatCheckPd
  lbHeartbeatPeriod : ℕ := hkLbCheckPd
  fpgaCheckFlag : Bool := false
  sysCheckFlag : Bool := false
  missingChQueue : List ℕ := []
  missingPatFlag : Bool := false
  missingFpgaFlag : Bool := false
  missingLbFlag : Bool := false
  fpgaReads : ℕ := 0
  fpgaQueue : List Client.RegValue := []
  sysHkCount : ℕ := 0
  fpgaHkCount : ℕ := 0
  ackCmdCount : ℕ := 0
  errCmdCount : ℕ := 0
  lastAckCmdId : ℕ := 0
  lastErrCmdId : ℕ := 0
  packetBuf : List Bytes := []
  sent : List Bytes := []

namespace Housekeeper

def setServices (h : Housekeeper) (services : List ℕ) : Housekeeper := { h with services }

def setChPid (h : Housekeeper) (inst pid : ℕ) : Housekeeper :=
  { h with chPids := h.chPids.set inst pid }

def setWds (h : Housekeeper) (chHeartbeatWds : AList fun _ : ℕ => ℕ) : Housekeeper :=
  { h with chHeartbeatWds }

def setWatchdog (h : Housekeeper) (wd : ℕ) (object : WatchdogTimer) : Housekeeper :=
  { h with watchdogs := h.watchdogs.set wd object }

def setPatHealthWd (h : Housekeeper) (patHealthWd : WatchdogTimer) : Housekeeper :=
  { h with patHealthWd }

def setLbHeartbeatWd (h : Housekeeper) (lbHeartbeatWd : WatchdogTimer) : Housekeeper :=
  { h with lbHeartbeatWd }

def setFpgaCheckTimer (h : Housekeeper) (fpgaCheckTimer : ResetTimer) : Housekeeper :=
  { h with fpgaCheckTimer }

def setSysCheckTimer (h : Housekeeper) (sysCheckTimer : ResetTimer) : Housekeeper :=
  { h with sysCheckTimer }

def setFpgaCheckPeriod (h : Housekeeper) (fpgaCheckPeriod : ℕ) : Housekeeper :=
  { h with fpgaCheckPeriod }

def setSysCheckPeriod (h : Housekeeper) (sysCheckPeriod : ℕ) : Housekeeper :=
  { h with sysCheckPeriod }

def setPatHealthPeriod (h : Housekeeper) (patHealthPeriod : ℕ) : Housekeeper :=
  { h with patHealthPeriod }

def setLbHeartbeatPeriod (h : Housekeeper) (lbHeartbeatPeriod : ℕ) : Housekeeper :=
  { h with lbHeartbeatPeriod }

def setFpgaQueue (h : Housekeeper) (fpgaQueue : List Client.RegValue) : Housekeeper :=
  { h with fpgaQueue }

def setFpgaReads (h : Housekeeper) (fpgaReads : ℕ) : Housekeeper := { h with fpgaReads }

def setSysHkCount (h : Housekeeper) (sysHkCount : ℕ) : Housekeeper := { h with sysHkCount }

def setFpgaHkCount (h : Housekeeper) (fpgaHkCount : ℕ) : Housekeeper := { h with fpgaHkCount }

/-- The flag of a check is set or cleared. -/
def setCheckFlag (h : Housekeeper) : Check → Bool → Housekeeper
  | .fpga, fpgaCheckFlag => { h with fpgaCheckFlag }
  | .sys, sysCheckFlag => { h with sysCheckFlag }

def setChHeartbeatPeriod (h : Housekeeper) (chHeartbeatPeriod : ℕ) : Housekeeper :=
  { h with chHeartbeatPeriod }

def setMissingChQueue (h : Housekeeper) (missingChQueue : List ℕ) : Housekeeper :=
  { h with missingChQueue }

/-- The flags of a command, one bit each. -/
def setEnables (h : Housekeeper) (flags : ℕ) : Housekeeper :=
  { h with
    allPktsSendEnable := (flags >>> 7) &&& 1
    fpgaReqEnable := (flags >>> 6) &&& 1
    sysHkSendEnable := (flags >>> 5) &&& 1
    patHkSendEnable := (flags >>> 4) &&& 1
    chRestartEnable := (flags >>> 3) &&& 1
    patRestartEnable := (flags >>> 2) &&& 1
    fpgaRestartEnable := (flags >>> 1) &&& 1
    lbRestartEnable := (flags >>> 0) &&& 1 }

def queuePacket (h : Housekeeper) (raw : Bytes) : Housekeeper :=
  { h with packetBuf := h.packetBuf ++ [raw] }

end Housekeeper

abbrev Stmt := EStateM Err Housekeeper

/-- A statement without effects. -/
def raise {α : Type} : Except Exn α → Stmt α
  | .ok a => pure a
  | .error e => throw (.raised e)

/-- A statement on a watchdog. -/
def attempt {α : Type} : Except Err α → Stmt α
  | .ok a => pure a
  | .error e => throw e

/-- `send_exception`, with `RAISE_ENABLE`. The exceptions of housekeeping have no number, so that
the `AttributeError` is left that was caught when it was looked for. -/
def sendException {α : Type} (report : Err → Bytes) (e : Err) : Stmt α := do
  modify fun h => { h with sent := h.sent ++ [report e] }
  throw .attributeError

/-! ## Restarts -/

section Restart

variable (report : Err → Bytes)

/-- `get_service_pid`, of a command handler: a process id of 0 is an error. -/
def getServicePid (inst : ℕ) : Stmt ℕ := do
  let pid := (← get).services.getD inst 0
  if pid = 0 then sendException report (.raised .valueError) else return pid

/-- `self.ch_heartbeat_wds[pid]`. -/
def chHeartbeatWd (pid : ℕ) : Stmt ℕ := do
  match (← get).chHeartbeatWds.lookup pid with
  | some wd => return wd
  | none => throw (.raised .keyError)

/-- A method of the watchdog of a command handler. -/
def onWatchdog (method : WatchdogTimer → Except Err WatchdogTimer) (wd : ℕ) : Stmt Unit := do
  let object ← raise (index (← get).watchdogs wd)
  let object ← attempt (method object)
  modify (·.setWatchdog wd object)

/-- A command handler has a new process id: its watchdog is found under that, and started again. -/
def updateChPid (inst chPid : ℕ) : Stmt Unit := do
  let oldChPid ← raise (index (← get).chPids inst)
  modify (·.setChPid inst chPid)
  onWatchdog WatchdogTimer.cancel (← chHeartbeatWd oldChPid)
  let oldWd ← chHeartbeatWd oldChPid
  modify fun h => h.setWds (h.chHeartbeatWds.erase oldChPid)
  modify fun h => h.setWds (h.chHeartbeatWds.insert chPid oldWd)
  onWatchdog (fun wd => .ok wd.start) (← chHeartbeatWd chPid)

/-- The service manager restarts one command handler, or all of them. -/
def restartService (inst pid : ℕ) : Stmt Unit :=
  modify fun h => h.setServices (h.services.set inst pid)

def restartTarget (pids : ℕ → ℕ) : Stmt Unit :=
  modify (·.setServices ((List.range commandHandlersCount).map pids))

/-- A restart is reported. -/
def reportRestart (processId instanceNum : ℕ) : Stmt Unit := do
  let payload ← raise (pack (network [.B, .B]) [.int processId, .int instanceNum])
  let rawErrPkt ← raise (TxPacket.encode errHkRestart payload)
  modify (·.queuePacket rawErrPkt)

/-- The branches of `restart_process`, where the service manager runs the command handlers that it
restarts with the process ids `pids`. -/
def restartCh (pids : ℕ → ℕ) (processId instanceNum : ℕ) : Stmt Unit := do
  if processId = hkChId ∧ (← get).chRestartEnable ≠ 0 then
    restartService instanceNum (pids instanceNum)
    updateChPid instanceNum (← getServicePid report instanceNum)

def restartPat (processId : ℕ) : Stmt Unit := do
  if processId = hkPatId ∧ (← get).patRestartEnable ≠ 0 then
    let wd ← attempt (← get).patHealthWd.cancel
    modify (·.setPatHealthWd wd.start)

def restartLb (pids : ℕ → ℕ) (processId : ℕ) : Stmt Unit := do
  if processId = hkLbId ∧ (← get).lbRestartEnable ≠ 0 then
    let wd ← attempt (← get).lbHeartbeatWd.cancel
    modify (·.setLbHeartbeatWd wd.start)
    restartTarget pids
    (List.range commandHandlersCount).foldlM
      (fun _ i => do updateChPid i (← getServicePid report i)) ()

/-- `restart_process`. The FPGA server is only restarted by the service manager. -/
def restartProcess (pids : ℕ → ℕ) (processId instanceNum : ℕ) : Stmt Unit :=
  tryCatch (do
    restartCh report pids processId instanceNum
    restartPat processId
    restartLb report pids processId
    reportRestart processId instanceNum)
  (sendException report)

end Restart

/-! ## Messages -/

/-- `handle_hk_pkt`. Data of the FPGA and of the system are a payload already. -/
def handleHkPkt (data : Bytes) (processId : ℕ) : Stmt Unit := do
  let (apid, payload, txFlag) ←
    if processId = hkPatId then do
      let pkt ← raise (PATHealthPacket.decode data)
      pure (tlmHkPat, pkt.telemetryString, pkt.txBool)
    else if processId = hkFpgaId then pure (tlmHkFpgaMap, data, false)
    else if processId = hkSysId then pure (tlmHkSys, data, false)
    else if processId = hkChId then do
      let (origin, _, text) ← raise (HKControlPacket.decode data)
      pure (tlmHkCh, str origin ++ ascii ": " ++ text, false)
    else throw (.raised .nameError)
  if processId ≠ hkPatId ∨ txFlag then
    let rawPkt ← raise (TxPacket.encode apid payload)
    modify (·.queuePacket rawPkt)

/-- A check timer is cancelled, set and started. -/
def resetCheckTimer (t : ResetTimer) (interval : ℕ) : Except Err ResetTimer :=
  match t.cancel with
  | some t => .ok (t.setInterval interval).start
  | none => .error .attributeError

/-- A watchdog is cancelled, set and started. -/
def resetWatchdog (timeout : ℕ) (wd : WatchdogTimer) : Except Err WatchdogTimer := do
  return ((← wd.cancel).setTimeout timeout).start

/-- The timers of the checks get their new periods. -/
def resetChecks (newFpgaCheckPd newSysCheckPd : ℕ) : Stmt Unit := do
  modify (·.setFpgaCheckPeriod (max newFpgaCheckPd hkFpgaCheckPdMin))
  let t ← attempt (resetCheckTimer (← get).fpgaCheckTimer (max newFpgaCheckPd hkFpgaCheckPdMin))
  modify (·.setFpgaCheckTimer t)
  modify (·.setSysCheckPeriod (max newSysCheckPd hkSysCheckPdMin))
  let t ← attempt (resetCheckTimer (← get).sysCheckTimer (max newSysCheckPd hkSysCheckPdMin))
  modify (·.setSysCheckTimer t)

/-- The watchdogs of the command handlers get their new timeout. -/
def resetChWatchdogs (newChHeartbeatPd : ℕ) : Stmt Unit := do
  let chHeartbeatPeriod := max newChHeartbeatPd hkChCheckPdMin
  modify (·.setChHeartbeatPeriod chHeartbeatPeriod)
  (← get).chPids.foldlM
    (fun _ chPid => do onWatchdog (resetWatchdog chHeartbeatPeriod) (← chHeartbeatWd chPid)) ()

/-- The watchdogs of PAT and of the load balancer get their new timeouts. -/
def resetOtherWatchdogs (newLbHeartbeatPd newPatHealthPd : ℕ) : Stmt Unit := do
  modify (·.setPatHealthPeriod (max newPatHealthPd hkPatCheckPdMin))
  let wd ← attempt (resetWatchdog (max newPatHealthPd hkPatCheckPdMin) (← get).patHealthWd)
  modify (·.setPatHealthWd wd)
  modify (·.setLbHeartbeatPeriod (max newLbHeartbeatPd hkLbCheckPdMin))
  let wd ← attempt (resetWatchdog (max newLbHeartbeatPd hkLbCheckPdMin) (← get).lbHeartbeatWd)
  modify (·.setLbHeartbeatWd wd)

/-- `handle_hk_command`. -/
def handleHkCommand (command : Bytes) : Stmt Unit := do
  match ← raise (unpack (native [.B, .B, .B, .B, .B, .B]) command) with
  | [.int flags, .int newFpgaCheckPd, .int newSysCheckPd, .int newChHeartbeatPd,
      .int newLbHeartbeatPd, .int newPatHealthPd] =>
    modify (·.setEnables flags.toNat)
    resetChecks newFpgaCheckPd.toNat newSysCheckPd.toNat
    resetChWatchdogs newChHeartbeatPd.toNat
    resetOtherWatchdogs newLbHeartbeatPd.toNat newPatHealthPd.toNat
  | _ => throw (.raised .structError)

/-- The largest period so far: the timeouts of the other command handlers are compared with the new
period, each by itself. -/
def chHbPeriodMax (origin chPeriod : ℕ) : Stmt (Option ℕ) := do
  (← get).chPids.foldlM (fun periodMax chPid => do
    if chPid ≠ origin then
      let wd ← raise (index (← get).watchdogs (← chHeartbeatWd chPid))
      return some (max chPeriod wd.timeout)
    else return periodMax) none

/-- A command handler sets its period. -/
def handleChPeriod (origin : ℕ) (payload : Bytes) : Stmt Unit := do
  match ← raise (unpack (native [.I]) payload) with
  | [.int period] =>
    let chPeriod := max period.toNat hkChCheckPdMin
    match ← chHbPeriodMax origin chPeriod with
    | some chHbPeriodMax =>
      modify (·.setChHeartbeatPeriod chHbPeriodMax)
      onWatchdog (resetWatchdog chPeriod) (← chHeartbeatWd origin)
    | none => throw (.raised .nameError)
  | _ => throw (.raised .structError)

/-- What is received on `hk_control_socket`. -/
def handleControl (message : Bytes) : Stmt Unit := do
  let (origin, command, payload) ← raise (HKControlPacket.decode message)
  if command = hkControlAck then
    match ← raise (unpack (native [.H, .H]) payload) with
    | [.int cmdId, .int status] =>
      if status = cmdAck then
        modify fun h => { h with ackCmdCount := h.ackCmdCount + 1, lastAckCmdId := cmdId.toNat }
      else if status = cmdErr then
        modify fun h => { h with errCmdCount := h.errCmdCount + 1, lastErrCmdId := cmdId.toNat }
    | _ => throw (.raised .structError)
  else if command = hkControlLog then
    if (← get).chHkSendEnable ≠ 0 then handleHkPkt message hkChId
  else if command = hkControlCh then handleChPeriod origin payload
  else if command = cmdPlSetHk then handleHkCommand payload

/-- What is received on `ch_heartbeat_socket`. The exception for a process id that is not known is
reported, and goes no further. -/
def handleHeartbeat (report : Err → Bytes) (message : Bytes) : Stmt Unit := do
  let (origin, _) ← raise (HeartbeatPacket.decode message)
  tryCatch (do onWatchdog WatchdogTimer.kick (← chHeartbeatWd origin)) fun e =>
    tryCatch (sendException report e) fun _ => pure ()

/-- A command handler is missing. -/
def handleMissingCh (report : Err → Bytes) (pids : ℕ → ℕ) : Stmt Unit := do
  match (← get).missingChQueue with
  | [] => pure ()
  | inst :: queue =>
    modify (·.setMissingChQueue queue)
    restartProcess report pids hkChId inst

/-- PAT, the FPGA server or the load balancer is missing. -/
def handleMissingPat (report : Err → Bytes) (pids : ℕ → ℕ) : Stmt Unit := do
  if (← get).missingPatFlag then
    restartProcess report pids hkPatId 0
    modify fun h => { h with missingPatFlag := false }

def handleMissingFpga (report : Err → Bytes) (pids : ℕ → ℕ) : Stmt Unit := do
  if (← get).missingFpgaFlag then
    restartProcess report pids hkFpgaId 0
    modify fun h => { h with missingFpgaFlag := false }

def handleMissingLb (report : Err → Bytes) (pids : ℕ → ℕ) : Stmt Unit := do
  if (← get).missingLbFlag then
    restartProcess report pids hkLbId 0
    modify fun h => { h with missingLbFlag := false }

/-- What is received on `pat_health_socket`. -/
def handlePatHealth (message : Bytes) : Stmt Unit := do
  if (← get).patHkSendEnable ≠ 0 then handleHkPkt message hkPatId
  let wd ← attempt (← get).patHealthWd.kick
  modify (·.setPatHealthWd wd)

/-- What is received on `lb_heartbeat_socket`. -/
def handleLbHeartbeat (message : Bytes) : Stmt Unit := do
  let _ ← raise (HeartbeatPacket.decode message)
  let wd ← attempt (← get).lbHeartbeatWd.kick
  modify (·.setLbHeartbeatWd wd)

/-! ## Periodic checks -/

/-- `init_fpga_read`: another thread reads the FPGA. -/
def initFpgaRead : Stmt Unit := do
  if (← get).fpgaReqEnable ≠ 0 then modify fun h => h.setFpgaReads (h.fpgaReads + 1)

/-- The check of the FPGA is due. -/
def handleFpgaCheck : Stmt Unit := do
  if (← get).fpgaCheckFlag then
    initFpgaRead
    modify (·.setCheckFlag .fpga false)

/-- `enables`, one bit each. -/
def Housekeeper.enables (h : Housekeeper) : ℕ :=
  (h.allPktsSendEnable &&& 1) <<< 7 ||| (h.fpgaReqEnable &&& 1) <<< 6 |||
    (h.sysHkSendEnable &&& 1) <<< 5 ||| (h.patHkSendEnable &&& 1) <<< 4 |||
    (h.chRestartEnable &&& 1) <<< 3 ||| (h.patRestartEnable &&& 1) <<< 2 |||
    (h.fpgaRestartEnable &&& 1) <<< 1 ||| (h.lbRestartEnable &&& 1) <<< 0

/-- What the check of the system packs first, one byte each. -/
def Housekeeper.sysBytes (h : Housekeeper) : List ℕ :=
  [h.sysHkCount % 256, h.enables, h.fpgaCheckPeriod, h.sysCheckPeriod, h.chHeartbeatPeriod,
    h.lbHeartbeatPeriod, h.patHealthPeriod, h.ackCmdCount % 256, h.lastAckCmdId &&& 0xFF,
    h.errCmdCount % 256, h.lastErrCmdId &&& 0xFF]

/-- The boot count. An exception for it is reported, and goes no further. -/
def packBootCount (report : Err → Bytes) (bootIds : Option ℕ) : Stmt Bytes :=
  tryCatch (raise (bootCount bootIds)) fun e => do
    tryCatch (sendException report e) fun _ => pure ()
    raise (packAll .I [0xFFFFFFFF])

/-- `check_sys`, where `psutil` is what it reads, unless that raises an exception. -/
def checkSys (report : Err → Bytes) (bootIds : Option ℕ) (psutil : Except Err Readings) :
    Stmt Bytes := do
  let head ← raise (packAll .B (← get).sysBytes)
  let boots ← packBootCount report bootIds
  let readings ← attempt psutil
  let memory ← raise readings.memory
  let procInfo ← raise readings.procInfo
  modify fun h => h.setSysHkCount (h.sysHkCount + 1)
  return head ++ (boots ++ (memory ++ procInfo))

/-- The packet of the system, if that is enabled. -/
def sendSysHk (report : Err → Bytes) (bootIds : Option ℕ) (psutil : Except Err Readings) :
    Stmt Unit := do
  if (← get).sysHkSendEnable ≠ 0 then
    let message ← checkSys report bootIds psutil
    handleHkPkt message hkSysId

/-- The check of the system is due. -/
def handleSysCheck (report : Err → Bytes) (bootIds : Option ℕ) (psutil : Except Err Readings) :
    Stmt Unit := do
  if (← get).sysCheckFlag then
    sendSysHk report bootIds psutil
    modify (·.setCheckFlag .sys false)

/-- `check_fpga`. -/
def checkFpga (answer : Client.RegValue) : Stmt Bytes := do
  let head ← raise (packAll .B [(← get).fpgaHkCount % 256])
  let registers ← raise (packAnswer answer)
  modify fun h => h.setFpgaHkCount (h.fpgaHkCount + 1)
  return head ++ registers

/-- An answer of the FPGA waits. -/
def handleFpgaAnswer : Stmt Unit := do
  match (← get).fpgaQueue with
  | [] => pure ()
  | answer :: queue =>
    modify (·.setFpgaQueue queue)
    let pkt ← checkFpga answer
    handleHkPkt pkt hkFpgaId

/-! ## The loop -/

/-- A message is handled, if it was received. -/
def onMessage (message : Option Bytes) (handle : Bytes → Stmt Unit) : Stmt Unit :=
  match message with
  | none => pure ()
  | some message => handle message

/-- The packets are sent, if that is enabled. -/
def sendPackets : Stmt Unit :=
  modify fun h => { h with
    packetBuf := []
    sent := if h.allPktsSendEnable ≠ 0 then h.sent ++ h.packetBuf else h.sent }

/-- The statements of the loop of `run`, in their order. The service manager runs the command
handlers that are restarted with the process ids that are given. The check of the system finds the
list of boots with some number of lines, if it can be read, and what `psutil` says. A socket has no
message, or one. -/
inductive Statement
  | fpgaCheck
  | sysCheck (bootIds : Option ℕ) (psutil : Except Err Readings)
  | missingCh (pid : ℕ)
  | missingPat
  | missingFpga
  | missingLb (pids : ℕ → ℕ)
  | fpgaAnswer
  | patHealth (message : Option Bytes)
  | lbHeartbeat (message : Option Bytes)
  | chHeartbeat (message : Option Bytes)
  | control (message : Option Bytes)
  | sendPackets

namespace Statement

/-- The place of a statement in the loop. -/
def place : Statement → ℕ
  | fpgaCheck => 0
  | sysCheck .. => 1
  | missingCh _ => 2
  | missingPat => 3
  | missingFpga => 4
  | missingLb _ => 5
  | fpgaAnswer => 6
  | patHealth _ => 7
  | lbHeartbeat _ => 8
  | chHeartbeat _ => 9
  | control _ => 10
  | sendPackets => 11

/-- The number of statements, behind which the next iteration begins. -/
def count : ℕ := 12

/-- A statement of the loop. PAT and the FPGA server have one instance each. -/
def run (report : Err → Bytes) : Statement → Stmt Unit
  | fpgaCheck => handleFpgaCheck
  | sysCheck bootIds psutil => handleSysCheck report bootIds psutil
  | missingCh pid => handleMissingCh report fun _ => pid
  | missingPat => handleMissingPat report fun _ => 0
  | missingFpga => handleMissingFpga report fun _ => 0
  | missingLb pids => handleMissingLb report pids
  | fpgaAnswer => handleFpgaAnswer
  | patHealth message => onMessage message handlePatHealth
  | lbHeartbeat message => onMessage message handleLbHeartbeat
  | chHeartbeat message => onMessage message (handleHeartbeat report)
  | control message => onMessage message handleControl
  | sendPackets => Housekeeping.sendPackets

end Statement

/-! ## The begin -/

/-- `__init__`, when the service manager runs the command handlers with the process ids `pids`, and
the first lines of `run`, which start the timers and the watchdogs. -/
def startup (pids : ℕ → ℕ) : Except Err Housekeeper := do
  let chPids := (List.range commandHandlersCount).map pids
  let chHeartbeatWds : AList fun _ : ℕ => ℕ :=
    (List.range commandHandlersCount).foldl (fun wds i => wds.insert (pids i) i) ∅
  if 0 ∈ chPids then .error .attributeError
  else .ok {
    services := chPids
    chPids
    chHeartbeatWds
    watchdogs := (List.range commandHandlersCount).map fun i => {
      timeout := hkChCheckPd
      function := .missingCh i
      timer := if chHeartbeatWds.lookup (pids i) = some i then some .waiting else none }
    patHealthWd := { timeout := hkPatCheckPd, function := .missingPat, timer := some .waiting }
    lbHeartbeatWd := { timeout := hkLbCheckPd, function := .missingLb, timer := some .waiting }
    fpgaCheckTimer := ResetTimer.start { interval := hkFpgaCheckPd }
    sysCheckTimer := ResetTimer.start { interval := hkSysCheckPd } }

/-- A watchdog of a command handler expires, if its timer waits. -/
def expire (wd : ℕ) (h : Housekeeper) : Housekeeper :=
  match h.watchdogs[wd]? with
  | some object =>
    if object.timer = some .waiting then
      let h := h.setWatchdog wd { object with timer := some .over }
      match object.function with
      | .missingCh inst => { h with missingChQueue := h.missingChQueue ++ [inst] }
      | .missingPat => { h with missingPatFlag := true }
      | .missingLb => { h with missingLbFlag := true }
    else h
  | none => h

namespace Housekeeper

variable (h : Housekeeper)

/-- The timer of a check. -/
def checkTimer : Check → ResetTimer
  | .fpga => h.fpgaCheckTimer
  | .sys => h.sysCheckTimer

def setCheckTimer : Check → ResetTimer → Housekeeper
  | .fpga, t => h.setFpgaCheckTimer t
  | .sys, t => h.setSysCheckTimer t

end Housekeeper

/-- What the other threads do: a watchdog expires, of a command handler, of PAT or of the load
balancer, a thread that reads the FPGA finds the server missing or gets an answer, or the callback
of the `i`-th timer of a check calls its function or starts the next timer. -/
inductive Alarm
  | ch (inst : Fin commandHandlersCount)
  | pat
  | fpga
  | lb
  | fpgaAnswer (answer : Client.RegValue)
  | check (c : Check) (i : ℕ)
  | again (c : Check) (i : ℕ)

/-- What happens then. -/
def Alarm.ring (h : Housekeeper) : Alarm → Housekeeper
  | .ch inst => expire inst h
  | .pat =>
    if h.patHealthWd.timer = some .waiting then
      { h.setPatHealthWd { h.patHealthWd with timer := some .over } with missingPatFlag := true }
    else h
  | .fpga =>
    if 0 < h.fpgaReads then { h with fpgaReads := h.fpgaReads - 1, missingFpgaFlag := true } else h
  | .lb =>
    if h.lbHeartbeatWd.timer = some .waiting then
      { h.setLbHeartbeatWd { h.lbHeartbeatWd with timer := some .over } with missingLbFlag := true }
    else h
  | .fpgaAnswer answer =>
    if 0 < h.fpgaReads then
      { h with fpgaReads := h.fpgaReads - 1, fpgaQueue := h.fpgaQueue ++ [answer] }
    else h
  | .check c i =>
    match (h.checkTimer c).alert i with
    | some t => (h.setCheckTimer c t).setCheckFlag c true
    | none => h
  | .again c i =>
    match (h.checkTimer c).restart i with
    | some t => h.setCheckTimer c t
    | none => h

end ClickA.Housekeeping
