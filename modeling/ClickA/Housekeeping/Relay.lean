import ClickA.Files.Host
import ClickA.Housekeeping.Main
import ClickA.Pat.Health

/-!
# Housekeeping relays the log of PAT

What PAT logs is queued as packets for the bus, and the loop sends them at its end, among packets of
other kinds. Commands may disable this and enable it again, and an exception may end the loop.

## Main definitions

* `telemetry`: the lines of PAT among packets for the bus
* `HealthMessage`: a message that PAT has sent
* `Activity`, `Activity.run`: what housekeeping does
* `Relayed`, `Complete`: the lines that it passes on

## Main results

* `relayed_run`: the lines are passed on in their order, and all of them while that is enabled
-/

namespace ClickA.Housekeeping

open Python Options

/-- The line in a packet for the bus, if it is the telemetry of PAT. -/
def patLine (raw : Bytes) : Option Bytes :=
  match TxPacket.decode raw with
  | .ok (apid, payload) => if apid = tlmHkPat then some payload else none
  | .error _ => none

/-- The lines of PAT among some packets. -/
def telemetry (packets : List Bytes) : List Bytes := packets.filterMap patLine

/-- The lines that were sent, and then those that wait. -/
def Housekeeper.lines (h : Housekeeper) : List Bytes := telemetry (h.sent ++ h.packetBuf)

/-- What PAT says is sent. -/
def Housekeeper.Relays (h : Housekeeper) : Prop :=
  h.patHkSendEnable ≠ 0 ∧ h.allPktsSendEnable ≠ 0

/-- A message that PAT has sent. -/
structure HealthMessage where
  pid : UInt32
  health : Pat.Health
  plain : health.Plain
  raw : Bytes
  sent : health.message pid = some raw

/-- The flags of a `CMD_PL_SET_HK` with both of these enables. -/
def EnablesBoth (payload : Bytes) : Prop := ∀ flags ∈ payload.head?,
  (flags.toNat >>> 7) &&& 1 ≠ 0 ∧ (flags.toNat >>> 4) &&& 1 ≠ 0

/-- A control message leaves it enabled that the lines of PAT are sent. -/
def LeavesEnabled (raw : Bytes) : Prop := ∀ origin payload,
  HKControlPacket.decode raw = .ok (origin, cmdPlSetHk, payload) → EnablesBoth payload

/-- What housekeeping does: another thread does something, or a message of PAT or another statement
of the loop is handled. -/
inductive Activity
  | alarm (alarm : Alarm)
  | health (m : HealthMessage)
  | statement (st : Statement) (hst : ∀ message, st ≠ .patHealth message)

namespace Activity

def run (report : Err → Bytes) : Activity → Stmt Unit
  | alarm a => modify a.ring
  | health m => (Statement.patHealth (some m.raw)).run report
  | statement st _ => st.run report

/-- The lines that PAT has for the telemetry. -/
def lines : Activity → List Bytes
  | health m => m.health.lines
  | _ => []

/-- No command disables that the lines of PAT are sent. -/
def Enables : Activity → Prop
  | statement (.control (some raw)) _ => LeavesEnabled raw
  | _ => True

end Activity

/-- The statements of a run, one after the other. -/
def activities (report : Err → Bytes) (as : List Activity) : Stmt Unit := as.forM (·.run report)

/-! ## What is left as it is -/

/-- The lines stay as they are, and what is enabled. -/
structure Same (h h' : Housekeeper) : Prop where
  sent : telemetry h'.sent = telemetry h.sent
  packetBuf : telemetry h'.packetBuf = telemetry h.packetBuf
  patHkSendEnable : h'.patHkSendEnable = h.patHkSendEnable
  allPktsSendEnable : h'.allPktsSendEnable = h.allPktsSendEnable

instance : Std.Refl Same := ⟨fun _ => ⟨rfl, rfl, rfl, rfl⟩⟩

instance : IsTrans Housekeeper Same :=
  ⟨fun _ _ _ h h' => ⟨h'.sent.trans h.sent, h'.packetBuf.trans h.packetBuf,
    h'.patHkSendEnable.trans h.patHkSendEnable, h'.allPktsSendEnable.trans h.allPktsSendEnable⟩⟩

section Same

variable {α : Type} {report : Err → Bytes} {pids : ℕ → ℕ}

@[simp] theorem telemetry_append (l l' : List Bytes) :
    telemetry (l ++ l') = telemetry l ++ telemetry l' := List.filterMap_append

theorem telemetry_concat_of_none (l : List Bytes) {raw : Bytes} (h : patLine raw = none) :
    telemetry (l ++ [raw]) = telemetry l := by
  rw [telemetry_append, telemetry, telemetry, List.filterMap_cons_none h, List.filterMap_nil,
    List.append_nil]

/-- A packet is of its own kind. -/
theorem patLine_of_encode {apid : ℕ} {payload raw : Bytes}
    (h : TxPacket.encode apid payload = .ok raw) :
    patLine raw = if apid = tlmHkPat then some payload else none := by
  rw [patLine, TxPacket.decode_encode h]

theorem keeps_get : Keeps Same (get : Stmt Housekeeper) := fun h => refl_of Same h

theorem keeps_modify {f : Housekeeper → Housekeeper} (hf : ∀ h, Same h (f h)) :
    Keeps Same (modify f : Stmt Unit) := hf

theorem keeps_raise (x : Except Exn α) : Keeps Same (raise x) := by
  intro h
  cases x with
  | ok a => exact refl_of Same h
  | error e => exact refl_of Same h

theorem keeps_attempt (x : Except Err α) : Keeps Same (attempt x) := by
  intro h
  cases x with
  | ok a => exact refl_of Same h
  | error e => exact refl_of Same h

theorem keeps_queuePacket {apid : ℕ} (payload : Bytes) (hne : apid ≠ tlmHkPat) :
    Keeps Same (do
      let raw ← raise (TxPacket.encode apid payload)
      modify (·.queuePacket raw)) := by
  intro h
  rw [wp_bind]
  cases hencode : TxPacket.encode apid payload with
  | ok raw =>
    have hline : patLine raw = none := by rw [patLine_of_encode hencode, if_neg hne]
    exact ⟨rfl, telemetry_concat_of_none _ hline, rfl, rfl⟩
  | error e => exact refl_of Same h

theorem keeps_sendException (hreport : ∀ e, patLine (report e) = none) (e : Err) :
    Keeps Same (sendException report e : Stmt α) :=
  keeps_bind (keeps_modify fun _ => ⟨telemetry_concat_of_none _ (hreport e), rfl, rfl, rfl⟩)
    fun _ => keeps_throw _

theorem keeps_getServicePid (hreport : ∀ e, patLine (report e) = none) (inst : ℕ) :
    Keeps Same (getServicePid report inst) :=
  keeps_bind keeps_get fun _ => keeps_ite (keeps_sendException hreport _) (keeps_pure _)

theorem keeps_chHeartbeatWd (pid : ℕ) : Keeps Same (chHeartbeatWd pid) := by
  refine keeps_bind keeps_get fun h => ?_
  split
  · exact keeps_pure _
  · exact keeps_throw _

theorem keeps_onWatchdog (method : WatchdogTimer → Except Err WatchdogTimer) (wd : ℕ) :
    Keeps Same (onWatchdog method wd) :=
  keeps_bind keeps_get fun _ => keeps_bind (keeps_raise _) fun _ =>
    keeps_bind (keeps_attempt _) fun _ => keeps_modify fun _ => ⟨rfl, rfl, rfl, rfl⟩

theorem keeps_updateChPid (inst chPid : ℕ) : Keeps Same (updateChPid inst chPid) := by
  refine keeps_bind keeps_get fun _ => keeps_bind (keeps_raise _) fun oldChPid => ?_
  refine keeps_bind (keeps_modify fun _ => ⟨rfl, rfl, rfl, rfl⟩) fun _ => ?_
  refine keeps_bind (keeps_chHeartbeatWd _) fun _ => keeps_bind (keeps_onWatchdog _ _) fun _ => ?_
  refine keeps_bind (keeps_chHeartbeatWd _) fun _ => ?_
  refine keeps_bind (keeps_modify fun _ => ⟨rfl, rfl, rfl, rfl⟩) fun _ => ?_
  refine keeps_bind (keeps_modify fun _ => ⟨rfl, rfl, rfl, rfl⟩) fun _ => ?_
  exact keeps_bind (keeps_chHeartbeatWd _) fun _ => keeps_onWatchdog _ _

theorem keeps_restartCh (pids : ℕ → ℕ)
    (hreport : ∀ e, patLine (report e) = none) (processId inst : ℕ) :
    Keeps Same (restartCh report pids processId inst) := by
  refine keeps_bind keeps_get fun h => keeps_ite ?_ (keeps_pure _)
  refine keeps_bind (keeps_modify fun _ => ⟨rfl, rfl, rfl, rfl⟩) fun _ => ?_
  exact keeps_bind (keeps_getServicePid hreport _) fun _ => keeps_updateChPid _ _

theorem keeps_restartPat (processId : ℕ) : Keeps Same (restartPat processId) := by
  refine keeps_bind keeps_get fun h => keeps_ite ?_ (keeps_pure _)
  exact keeps_bind keeps_get fun _ => keeps_bind (keeps_attempt _) fun _ =>
    keeps_modify fun _ => ⟨rfl, rfl, rfl, rfl⟩

theorem keeps_restartLb (pids : ℕ → ℕ)
    (hreport : ∀ e, patLine (report e) = none) (processId : ℕ) :
    Keeps Same (restartLb report pids processId) := by
  refine keeps_bind keeps_get fun h => keeps_ite ?_ (keeps_pure _)
  refine keeps_bind keeps_get fun _ => keeps_bind (keeps_attempt _) fun _ => ?_
  refine keeps_bind (keeps_modify fun _ => ⟨rfl, rfl, rfl, rfl⟩) fun _ => ?_
  refine keeps_bind (keeps_modify fun _ => ⟨rfl, rfl, rfl, rfl⟩) fun _ => ?_
  exact keeps_foldlM (fun _ _ => keeps_bind (keeps_getServicePid hreport _) fun _ =>
    keeps_updateChPid _ _) _ _

theorem keeps_reportRestart (processId inst : ℕ) : Keeps Same (reportRestart processId inst) := by
  have hapid : errHkRestart ≠ tlmHkPat := by simp [errHkRestart, tlmHkPat]
  rw [reportRestart]
  refine keeps_bind ?_ ?_
  · exact keeps_raise _
  · exact fun payload => keeps_queuePacket payload hapid

set_option maxRecDepth 4000 in
/-- A process is restarted. -/
theorem keeps_restartProcess (hreport : ∀ e, patLine (report e) = none) (processId inst : ℕ) :
    Keeps Same (restartProcess report pids processId inst) := by
  have hch := keeps_restartCh pids hreport processId inst
  have hlb := keeps_restartLb pids hreport processId
  refine keeps_tryCatch ?_ fun e => keeps_sendException hreport e
  exact keeps_bind hch fun _ => keeps_bind (keeps_restartPat _) fun _ => keeps_bind hlb fun _ =>
    keeps_reportRestart _ _

/-- Data that are not of PAT are queued. -/
theorem keeps_handleHkPkt (data : Bytes) {processId : ℕ} (hne : processId ≠ hkPatId) :
    Keeps Same (handleHkPkt data processId) := by
  have hqueue : ∀ apid payload, apid ≠ tlmHkPat → Keeps Same (if processId ≠ hkPatId ∨ false then do
      let rawPkt ← raise (TxPacket.encode apid payload)
      modify (·.queuePacket rawPkt)
    else pure ()) := fun _ _ hapid => keeps_ite (keeps_queuePacket _ hapid) (keeps_pure _)
  rw [handleHkPkt, if_neg hne]
  refine keeps_ite (hqueue tlmHkFpgaMap _ (by simp [tlmHkFpgaMap, tlmHkPat])) ?_
  refine keeps_ite (hqueue tlmHkSys _ (by simp [tlmHkSys, tlmHkPat])) ?_
  refine keeps_ite (keeps_bind (keeps_raise _) fun _ => ?_) fun h => refl_of Same h
  exact hqueue tlmHkCh _ (by simp [tlmHkCh, tlmHkPat])

theorem keeps_chHbPeriodMax (origin chPeriod : ℕ) : Keeps Same (chHbPeriodMax origin chPeriod) := by
  refine keeps_bind keeps_get fun _ => keeps_foldlM (fun _ chPid => keeps_ite ?_ (keeps_pure _)) _ _
  refine keeps_bind keeps_get fun _ => keeps_bind (keeps_chHeartbeatWd _) fun _ => ?_
  exact keeps_bind (keeps_raise _) fun _ => keeps_pure _

theorem keeps_handleChPeriod (origin : ℕ) (payload : Bytes) :
    Keeps Same (handleChPeriod origin payload) := by
  refine keeps_bind (keeps_raise _) fun values => ?_
  split
  · refine keeps_bind (keeps_chHbPeriodMax _ _) fun periodMax => ?_
    split
    · refine keeps_bind (keeps_modify fun _ => ⟨rfl, rfl, rfl, rfl⟩) fun _ => ?_
      exact keeps_bind (keeps_chHeartbeatWd _) fun _ => keeps_onWatchdog _ _
    · exact keeps_throw _
  · exact keeps_throw _

/-- The new periods are set. -/
theorem keeps_resets (fpgaPd sysPd chPd lbPd patPd : ℕ) : Keeps Same (do
    resetChecks fpgaPd sysPd
    resetChWatchdogs chPd
    resetOtherWatchdogs lbPd patPd) := by
  have hchecks : Keeps Same (resetChecks fpgaPd sysPd) := by
    refine keeps_bind (keeps_modify fun _ => ⟨rfl, rfl, rfl, rfl⟩) fun _ => ?_
    refine keeps_bind keeps_get fun _ => keeps_bind (keeps_attempt _) fun _ => ?_
    refine keeps_bind (keeps_modify fun _ => ⟨rfl, rfl, rfl, rfl⟩) fun _ => ?_
    refine keeps_bind (keeps_modify fun _ => ⟨rfl, rfl, rfl, rfl⟩) fun _ => ?_
    refine keeps_bind keeps_get fun _ => keeps_bind (keeps_attempt _) fun _ => ?_
    exact keeps_modify fun _ => ⟨rfl, rfl, rfl, rfl⟩
  have hch : Keeps Same (resetChWatchdogs chPd) := by
    refine keeps_bind (keeps_modify fun _ => ⟨rfl, rfl, rfl, rfl⟩) fun _ => ?_
    refine keeps_bind keeps_get fun _ => keeps_foldlM (fun _ _ => ?_) _ _
    exact keeps_bind (keeps_chHeartbeatWd _) fun _ => keeps_onWatchdog _ _
  have hothers : Keeps Same (resetOtherWatchdogs lbPd patPd) := by
    refine keeps_bind (keeps_modify fun _ => ⟨rfl, rfl, rfl, rfl⟩) fun _ => ?_
    refine keeps_bind keeps_get fun _ => keeps_bind (keeps_attempt _) fun _ => ?_
    refine keeps_bind (keeps_modify fun _ => ⟨rfl, rfl, rfl, rfl⟩) fun _ => ?_
    refine keeps_bind (keeps_modify fun _ => ⟨rfl, rfl, rfl, rfl⟩) fun _ => ?_
    refine keeps_bind keeps_get fun _ => keeps_bind (keeps_attempt _) fun _ => ?_
    exact keeps_modify fun _ => ⟨rfl, rfl, rfl, rfl⟩
  exact keeps_bind hchecks fun _ => keeps_bind hch fun _ => hothers

theorem keeps_handleHeartbeat (hreport : ∀ e, patLine (report e) = none) (message : Bytes) :
    Keeps Same (handleHeartbeat report message) := by
  refine keeps_bind (keeps_raise _) fun packet => keeps_tryCatch ?_ fun e => ?_
  · exact keeps_bind (keeps_chHeartbeatWd _) fun _ => keeps_onWatchdog _ _
  · exact keeps_tryCatch (keeps_sendException hreport e) fun _ => keeps_pure _

theorem keeps_handleLbHeartbeat (message : Bytes) : Keeps Same (handleLbHeartbeat message) := by
  refine keeps_bind (keeps_raise _) fun _ => keeps_bind keeps_get fun _ => ?_
  exact keeps_bind (keeps_attempt _) fun _ => keeps_modify fun _ => ⟨rfl, rfl, rfl, rfl⟩

/-- Missing processes are restarted. -/
theorem keeps_handleMissingCh (hreport : ∀ e, patLine (report e) = none) :
    Keeps Same (handleMissingCh report pids) := by
  refine keeps_bind keeps_get fun h => ?_
  split
  · exact keeps_pure _
  · refine keeps_bind (keeps_modify fun _ => ⟨rfl, rfl, rfl, rfl⟩) fun _ => ?_
    exact keeps_restartProcess hreport _ _

theorem keeps_missing (hreport : ∀ e, patLine (report e) = none) {flag : Housekeeper → Bool}
    {f : Housekeeper → Housekeeper} (processId inst : ℕ) (hf : ∀ h, Same h (f h)) : Keeps Same (do
      if flag (← get) then
        restartProcess report pids processId inst
        modify f) :=
  keeps_bind keeps_get fun _ => keeps_ite
    (keeps_bind (keeps_restartProcess hreport _ _) fun _ => keeps_modify hf) (keeps_pure _)

theorem keeps_handleMissingPat (hreport : ∀ e, patLine (report e) = none) :
    Keeps Same (handleMissingPat report pids) :=
  keeps_missing hreport _ _ fun _ => ⟨rfl, rfl, rfl, rfl⟩

theorem keeps_handleMissingFpga (hreport : ∀ e, patLine (report e) = none) :
    Keeps Same (handleMissingFpga report pids) :=
  keeps_missing hreport _ _ fun _ => ⟨rfl, rfl, rfl, rfl⟩

theorem keeps_handleMissingLb (hreport : ∀ e, patLine (report e) = none) :
    Keeps Same (handleMissingLb report pids) :=
  keeps_missing hreport _ _ fun _ => ⟨rfl, rfl, rfl, rfl⟩

attribute [local irreducible] packAll packAnswer bootCount

/-- Periodic checks are made. -/
theorem keeps_handleFpgaCheck : Keeps Same handleFpgaCheck := by
  refine keeps_bind keeps_get fun _ => keeps_ite (keeps_bind ?_ fun _ => ?_) (keeps_pure _)
  · exact keeps_bind keeps_get fun _ =>
      keeps_ite (keeps_modify fun _ => ⟨rfl, rfl, rfl, rfl⟩) (keeps_pure _)
  · exact keeps_modify fun _ => ⟨rfl, rfl, rfl, rfl⟩

theorem keeps_checkSys (hreport : ∀ e, patLine (report e) = none) (bootIds : Option ℕ)
    (psutil : Except Err Readings) : Keeps Same (checkSys report bootIds psutil) := by
  have hboots : Keeps Same (packBootCount report bootIds) := by
    refine keeps_tryCatch (keeps_raise _) fun e => keeps_bind ?_ fun _ => keeps_raise _
    exact keeps_tryCatch (keeps_sendException hreport e) fun _ => keeps_pure _
  refine keeps_bind keeps_get fun _ => keeps_bind (keeps_raise _) fun _ => ?_
  refine keeps_bind hboots fun _ => keeps_bind (keeps_attempt _) fun _ => ?_
  refine keeps_bind (keeps_raise _) fun _ => keeps_bind (keeps_raise _) fun _ => ?_
  exact keeps_bind (keeps_modify fun _ => ⟨rfl, rfl, rfl, rfl⟩) fun _ => keeps_pure _

theorem keeps_handleSysCheck (hreport : ∀ e, patLine (report e) = none) (bootIds : Option ℕ)
    (psutil : Except Err Readings) : Keeps Same (handleSysCheck report bootIds psutil) := by
  refine keeps_bind keeps_get fun _ => keeps_ite (keeps_bind ?_ fun _ => ?_) (keeps_pure _)
  · refine keeps_bind keeps_get fun _ => keeps_ite ?_ (keeps_pure _)
    exact keeps_bind (keeps_checkSys hreport bootIds psutil) fun message =>
      keeps_handleHkPkt message (by decide)
  · exact keeps_modify fun _ => ⟨rfl, rfl, rfl, rfl⟩

theorem keeps_handleFpgaAnswer : Keeps Same handleFpgaAnswer := by
  refine keeps_bind keeps_get fun h => ?_
  split
  · exact keeps_pure _
  · refine keeps_bind (keeps_modify fun _ => ⟨rfl, rfl, rfl, rfl⟩) fun _ => ?_
    refine keeps_bind ?_ fun pkt => keeps_handleHkPkt pkt (by decide)
    refine keeps_bind keeps_get fun _ => keeps_bind (keeps_raise _) fun _ => ?_
    refine keeps_bind (keeps_raise _) fun _ => ?_
    exact keeps_bind (keeps_modify fun _ => ⟨rfl, rfl, rfl, rfl⟩) fun _ => keeps_pure _

theorem keeps_onMessage {handle : Bytes → Stmt Unit} (h : ∀ message, Keeps Same (handle message))
    (message : Option Bytes) : Keeps Same (onMessage message handle) := by
  cases message with
  | none => exact keeps_pure _
  | some message => exact h message

/-- A timer that runs out queues nothing. -/
theorem same_ring (a : Alarm) (h : Housekeeper) : Same h (a.ring h) := by
  cases a with
  | ch inst =>
    rw [Alarm.ring, expire]
    split
    · split
      · split <;> exact ⟨rfl, rfl, rfl, rfl⟩
      · exact refl_of Same h
    · exact refl_of Same h
  | pat =>
    rw [Alarm.ring]
    split
    · exact ⟨rfl, rfl, rfl, rfl⟩
    · exact refl_of Same h
  | fpga =>
    rw [Alarm.ring]
    split
    · exact ⟨rfl, rfl, rfl, rfl⟩
    · exact refl_of Same h
  | fpgaAnswer answer =>
    rw [Alarm.ring]
    split
    · exact ⟨rfl, rfl, rfl, rfl⟩
    · exact refl_of Same h
  | check c i =>
    rw [Alarm.ring]
    split
    · cases c <;> exact ⟨rfl, rfl, rfl, rfl⟩
    · exact refl_of Same h
  | again c i =>
    rw [Alarm.ring]
    split
    · cases c <;> exact ⟨rfl, rfl, rfl, rfl⟩
    · exact refl_of Same h
  | lb =>
    rw [Alarm.ring]
    split
    · exact ⟨rfl, rfl, rfl, rfl⟩
    · exact refl_of Same h

end Same

/-! ## What is relayed -/

/-- At most these lines are passed on, in their order, behind those before them. -/
def Relayed (lines : List Bytes) (h h' : Housekeeper) : Prop :=
  h'.lines.Sublist (h.lines ++ lines)

/-- All of these lines are passed on, and what follows as well. -/
def Complete (lines : List Bytes) (h h' : Housekeeper) : Prop :=
  h.Relays → h'.Relays ∧ h'.lines = h.lines ++ lines

section Step

variable {report : Err → Bytes} {h h' : Housekeeper}

theorem Same.lines (hsame : Same h h') : h'.lines = h.lines := by
  rw [Housekeeper.lines, telemetry_append, hsame.sent, hsame.packetBuf, ← telemetry_append,
    ← Housekeeper.lines]

theorem Same.relays (hsame : Same h h') (hrelays : h.Relays) : h'.Relays := by
  rw [Housekeeper.Relays, hsame.patHkSendEnable, hsame.allPktsSendEnable]
  exact hrelays

theorem relayed_of_lines (hlines : h'.lines = h.lines) (lines : List Bytes) :
    Relayed lines h h' := by
  rw [Relayed, hlines]
  exact List.sublist_append_left _ _

theorem relayed_of_append {lines : List Bytes} (hlines : h'.lines = h.lines ++ lines) :
    Relayed lines h h' := by
  rw [Relayed, hlines]

/-- What a statement does that leaves the lines as they are. -/
theorem wp_of_keeps {x : Stmt Unit} (hx : Keeps Same x) (h : Housekeeper) :
    Wp x (fun _ h' => Relayed [] h h' ∧ Complete [] h h') (fun _ h' => Relayed [] h h') h := by
  refine (hx h).mono (fun _ h' hsame => ?_) fun _ h' hsame => relayed_of_lines hsame.lines _
  refine ⟨relayed_of_lines hsame.lines _, fun hrelays => ⟨hsame.relays hrelays, ?_⟩⟩
  rw [hsame.lines, List.append_nil]

/-- A command sets what is enabled, and leaves the lines as they are. -/
theorem wp_handleHkCommand (payload : Bytes) (h : Housekeeper) :
    Wp (handleHkCommand payload)
      (fun _ h' => h'.lines = h.lines ∧ (EnablesBoth payload → h'.Relays))
      (fun _ h' => h'.lines = h.lines) h := by
  rw [handleHkCommand, wp_bind]
  cases hunpack : unpack (native [.B, .B, .B, .B, .B, .B]) payload with
  | error e => exact rfl
  | ok values =>
    obtain ⟨a, b, c, d, e, f, rfl⟩ : ∃ a b c d e f : UInt8, payload = [a, b, c, d, e, f] := by
      have hlen : payload.length = 6 := length_of_unpack hunpack
      match payload, hlen with
      | [a, b, c, d, e, f], _ => exact ⟨a, b, c, d, e, f, rfl⟩
    obtain rfl := Except.ok.inj hunpack
    have hflags : Int.toNat (leNat [a] : ℤ) = a.toNat := by simp [leNat]
    show Wp (modify (·.setEnables (Int.toNat (leNat [a] : ℤ))) >>= fun _ => do
      resetChecks (Int.toNat (leNat [b] : ℤ)) (Int.toNat (leNat [c] : ℤ))
      resetChWatchdogs (Int.toNat (leNat [d] : ℤ))
      resetOtherWatchdogs (Int.toNat (leNat [e] : ℤ)) (Int.toNat (leNat [f] : ℤ))) _ _ h
    rw [wp_bind, wp_modify, hflags]
    refine (keeps_resets _ _ _ _ _ _).mono (fun _ h' hsame => ⟨hsame.lines, fun henables => ?_⟩)
      fun _ h' hsame => hsame.lines
    obtain ⟨hall, hpat⟩ := henables a (Option.mem_some.mpr rfl)
    exact hsame.relays ⟨hpat, hall⟩

/-- What is received on the control socket. -/
theorem wp_handleControl (raw : Bytes) (h : Housekeeper) :
    Wp (handleControl raw)
      (fun _ h' => Relayed [] h h' ∧ (LeavesEnabled raw → Complete [] h h'))
      (fun _ h' => Relayed [] h h') h := by
  have hkept : ∀ {x : Stmt Unit}, Keeps Same x → Wp x
      (fun _ h' => Relayed [] h h' ∧ (LeavesEnabled raw → Complete [] h h'))
      (fun _ h' => Relayed [] h h') h := fun hx =>
    (wp_of_keeps hx h).mono (fun _ _ ⟨hrelayed, hcomplete⟩ => ⟨hrelayed, fun _ => hcomplete⟩)
      fun _ _ hrelayed => hrelayed
  rw [handleControl, wp_bind]
  cases hdecode : HKControlPacket.decode raw with
  | error e => exact relayed_of_lines rfl _
  | ok packet =>
    obtain ⟨origin, command, payload⟩ := packet
    rw [raise, wp_pure]
    dsimp only
    split
    · refine hkept (keeps_bind (keeps_raise _) fun values => ?_)
      split
      · refine keeps_ite (keeps_modify fun _ => ⟨rfl, rfl, rfl, rfl⟩) ?_
        exact keeps_ite (keeps_modify fun _ => ⟨rfl, rfl, rfl, rfl⟩) (keeps_pure _)
      · exact keeps_throw _
    · split
      · refine hkept (keeps_bind keeps_get fun _ => keeps_ite ?_ (keeps_pure _))
        exact keeps_handleHkPkt _ (by decide)
      · split
        · exact hkept (keeps_handleChPeriod _ _)
        · split
          · next hcommand =>
            subst hcommand
            refine (wp_handleHkCommand payload h).mono ?_ fun _ h' hlines =>
              relayed_of_lines hlines _
            rintro _ h' ⟨hlines, henables⟩
            refine ⟨relayed_of_lines hlines _, fun hleaves _ =>
              ⟨henables (hleaves _ _ hdecode), ?_⟩⟩
            rw [hlines, List.append_nil]
          · exact hkept (keeps_pure _)

/-- A packet with a line is queued. -/
theorem lines_queuePacket {line raw : Bytes} (hraw : TxPacket.encode tlmHkPat line = .ok raw) :
    (h.queuePacket raw).lines = h.lines ++ [line] := by
  have hline : telemetry [raw] = [line] := by
    rw [telemetry, List.filterMap_cons_some (patLine_of_encode hraw |>.trans (if_pos rfl)),
      List.filterMap_nil]
  show telemetry (h.sent ++ (h.packetBuf ++ [raw])) = telemetry (h.sent ++ h.packetBuf) ++ [line]
  rw [← List.append_assoc, telemetry_append, hline]

/-- A packet of PAT is queued if it is for the telemetry. -/
theorem wp_handleHkPkt_pat {raw : Bytes} {packet : PATHealthPacket}
    (hdecode : PATHealthPacket.decode raw = .ok packet) (h : Housekeeper) :
    Wp (handleHkPkt raw hkPatId)
      (fun _ h' => h'.lines = h.lines ++ (if packet.txBool then [packet.telemetryString] else []) ∧
        (h.Relays → h'.Relays))
      (fun _ h' => h'.lines = h.lines) h := by
  rw [handleHkPkt, if_pos rfl, hdecode]
  show Wp (if hkPatId ≠ hkPatId ∨ packet.txBool then do
      let rawPkt ← raise (TxPacket.encode tlmHkPat packet.telemetryString)
      modify (·.queuePacket rawPkt)
    else pure ()) _ _ h
  cases htx : packet.txBool with
  | false => exact ⟨(List.append_nil _).symm, id⟩
  | true =>
    rw [if_pos (.inr rfl), wp_bind]
    cases hencode : TxPacket.encode tlmHkPat packet.telemetryString with
    | ok rawPkt => exact ⟨lines_queuePacket hencode, id⟩
    | error e => exact rfl

/-- What is received on the socket of PAT. -/
theorem wp_handlePatHealth (m : HealthMessage) (h : Housekeeper) :
    Wp (handlePatHealth m.raw)
      (fun _ h' => Relayed m.health.lines h h' ∧ Complete m.health.lines h h')
      (fun _ h' => Relayed m.health.lines h h') h := by
  obtain ⟨packet, hdecode, -, hlines⟩ := Pat.Health.decode_message m.plain m.sent
  have hkick : Keeps Same (do
      let wd ← attempt (← get).patHealthWd.kick
      modify (·.setPatHealthWd wd)) := keeps_bind keeps_get fun _ =>
    keeps_bind (keeps_attempt _) fun _ => keeps_modify fun _ => ⟨rfl, rfl, rfl, rfl⟩
  rw [← hlines, handlePatHealth, wp_bind, wp_get]
  split
  · next henable =>
    rw [wp_bind]
    refine (wp_handleHkPkt_pat hdecode h).mono ?_ fun _ h' hsame => relayed_of_lines hsame _
    rintro _ h₁ ⟨hqueued, hrelays⟩
    refine (hkick h₁).mono (fun _ h' hsame => ?_) fun _ h' hsame => ?_
    · have hlines' := hsame.lines.trans hqueued
      exact ⟨relayed_of_append hlines', fun hbefore => ⟨hsame.relays (hrelays hbefore), hlines'⟩⟩
    · exact relayed_of_append (hsame.lines.trans hqueued)
  · -- not enabled: the message is dropped
    next henable =>
    refine (hkick h).mono (fun _ h' hsame => ⟨relayed_of_lines hsame.lines _, fun hbefore => ?_⟩)
      fun _ h' hsame => relayed_of_lines hsame.lines _
    exact absurd hbefore.1 henable

/-- The end of the loop: what waits is sent, or dropped when that is not enabled. -/
theorem wp_sendPackets (h : Housekeeper) : Wp sendPackets
    (fun _ h' => Relayed [] h h' ∧ Complete [] h h') (fun _ h' => Relayed [] h h') h := by
  rw [sendPackets, wp_modify]
  by_cases hall : h.allPktsSendEnable ≠ 0
  · rw [if_pos hall]
    have hlines : telemetry ((h.sent ++ h.packetBuf) ++ []) = h.lines ++ [] := by
      rw [List.append_nil, List.append_nil, Housekeeper.lines]
    exact ⟨relayed_of_append hlines, fun hrelays => ⟨hrelays, hlines⟩⟩
  · rw [if_neg hall]
    refine ⟨?_, fun hrelays => absurd hrelays.2 hall⟩
    show (telemetry (h.sent ++ [])).Sublist (telemetry (h.sent ++ h.packetBuf) ++ [])
    rw [List.append_nil, List.append_nil, telemetry_append]
    exact List.sublist_append_left _ _

/-- One step: at most its lines are passed on, and all of them where that is enabled. -/
theorem Activity.wp_run (hreport : ∀ e, patLine (report e) = none) (a : Activity)
    (h : Housekeeper) : Wp (a.run report)
      (fun _ h' => Relayed a.lines h h' ∧ (a.Enables → Complete a.lines h h'))
      (fun _ h' => Relayed a.lines h h') h := by
  have hkept : ∀ {x : Stmt Unit}, Keeps Same x → Wp x
      (fun _ h' => Relayed [] h h' ∧ (a.Enables → Complete [] h h'))
      (fun _ h' => Relayed [] h h') h := fun hx =>
    (wp_of_keeps hx h).mono (fun _ _ ⟨hrelayed, hcomplete⟩ => ⟨hrelayed, fun _ => hcomplete⟩)
      fun _ _ hrelayed => hrelayed
  cases a with
  | alarm a => exact hkept (keeps_modify (same_ring a))
  | health m =>
    exact (wp_handlePatHealth m h).mono
      (fun _ _ ⟨hrelayed, hcomplete⟩ => ⟨hrelayed, fun _ => hcomplete⟩) fun _ _ hrelayed => hrelayed
  | statement st hst =>
    cases st with
    | fpgaCheck => exact hkept keeps_handleFpgaCheck
    | sysCheck bootIds psutil => exact hkept (keeps_handleSysCheck hreport bootIds psutil)
    | fpgaAnswer => exact hkept keeps_handleFpgaAnswer
    | missingCh pid => exact hkept (keeps_handleMissingCh hreport)
    | missingPat => exact hkept (keeps_handleMissingPat hreport)
    | missingFpga => exact hkept (keeps_handleMissingFpga hreport)
    | missingLb pids => exact hkept (keeps_handleMissingLb hreport)
    | patHealth message => exact absurd rfl (hst message)
    | lbHeartbeat message => exact hkept (keeps_onMessage keeps_handleLbHeartbeat message)
    | chHeartbeat message => exact hkept (keeps_onMessage (keeps_handleHeartbeat hreport) message)
    | control message =>
      cases message with
      | none => exact hkept (keeps_pure _)
      | some raw => exact wp_handleControl raw h
    | sendPackets =>
      exact (wp_sendPackets h).mono
        (fun _ _ ⟨hrelayed, hcomplete⟩ => ⟨hrelayed, fun _ => hcomplete⟩)
        fun _ _ hrelayed => hrelayed

end Step

/-! ## Runs -/

section Run

variable {report : Err → Bytes} {pids : ℕ → ℕ} {h : Housekeeper}

theorem Relayed.trans {l l' : List Bytes} {h₁ h' : Housekeeper} (h₀ : Relayed l h h₁)
    (h₂ : Relayed l' h₁ h') : Relayed (l ++ l') h h' := by
  rw [Relayed, ← List.append_assoc]
  exact List.Sublist.trans h₂ (h₀.append_right l')

theorem Complete.trans {l l' : List Bytes} {h₁ h' : Housekeeper} (h₀ : Complete l h h₁)
    (h₂ : Complete l' h₁ h') : Complete (l ++ l') h h' := by
  intro hrelays
  obtain ⟨hrelays₁, hlines₁⟩ := h₀ hrelays
  obtain ⟨hrelays', hlines'⟩ := h₂ hrelays₁
  exact ⟨hrelays', by rw [hlines', hlines₁, List.append_assoc]⟩

/-- The lines are relayed behind what was there before. -/
theorem wp_runs (hreport : ∀ e, patLine (report e) = none) (as : List Activity) (h : Housekeeper) :
    Wp (activities report as)
      (fun _ h' => Relayed (as.flatMap Activity.lines) h h' ∧
        ((∀ a ∈ as, a.Enables) → Complete (as.flatMap Activity.lines) h h'))
      (fun _ h' => Relayed (as.flatMap Activity.lines) h h') h := by
  induction as generalizing h with
  | nil =>
    have hlines : h.lines = h.lines ++ [] := (List.append_nil _).symm
    exact ⟨relayed_of_append hlines, fun _ hrelays => ⟨hrelays, hlines⟩⟩
  | cons a as ih =>
    show Wp (a.run report >>= fun _ => activities report as) _ _ h
    rw [wp_bind, List.flatMap_cons]
    refine (a.wp_run hreport h).mono ?_ ?_
    · rintro _ h₁ ⟨hrelayed, hcomplete⟩
      refine (ih h₁).mono ?_ fun _ h' hrelayed' => hrelayed.trans hrelayed'
      rintro _ h' ⟨hrelayed', hcomplete'⟩
      refine ⟨hrelayed.trans hrelayed', fun henables => (hcomplete ?_).trans (hcomplete' ?_)⟩
      · exact henables a List.mem_cons_self
      · exact fun a' ha' => henables a' (List.mem_cons_of_mem a ha')
    · -- the exception ends the run
      intro _ h' hrelayed
      exact hrelayed.trans (relayed_of_lines rfl _)

/-- At the begin nothing is sent or waits, and everything is enabled. -/
theorem relays_of_startup (hstart : startup pids = .ok h) : h.lines = [] ∧ h.Relays := by
  unfold startup at hstart
  dsimp only at hstart
  split at hstart
  · cases hstart
  · obtain rfl := Except.ok.inj hstart
    exact ⟨rfl, one_ne_zero, one_ne_zero⟩

/-- **Housekeeping relays the log of PAT**: in every run, whatever else is handled between, the
lines are sent at most once each and in their order, also when an exception ends it. They are all
sent, or wait for the end of the loop, if no command has disabled it. -/
theorem relayed_run
    (hreport : ∀ e, ∃ payload, TxPacket.encode Files.errGenException payload = .ok (report e))
    (hstart : startup pids = .ok h) (as : List Activity) :
    Wp (activities report as)
      (fun _ h' => (telemetry h'.sent).Sublist (as.flatMap Activity.lines) ∧
        ((∀ a ∈ as, a.Enables) →
          telemetry h'.sent ++ telemetry h'.packetBuf = as.flatMap Activity.lines))
      (fun _ h' => (telemetry h'.sent).Sublist (as.flatMap Activity.lines)) h := by
  have hother : ∀ e, patLine (report e) = none := by
    intro e
    obtain ⟨payload, hencode⟩ := hreport e
    exact (patLine_of_encode hencode).trans (if_neg (by simp [Files.errGenException, tlmHkPat]))
  obtain ⟨hnone, hrelays⟩ := relays_of_startup hstart
  have hsent : ∀ {h' : Housekeeper}, Relayed (as.flatMap Activity.lines) h h' →
      (telemetry h'.sent).Sublist (as.flatMap Activity.lines) := by
    intro h' hrelayed
    rw [Relayed, hnone, List.nil_append, Housekeeper.lines, telemetry_append] at hrelayed
    exact (List.sublist_append_left _ _).trans hrelayed
  refine (wp_runs hother as h).mono ?_ fun _ h' hrelayed => hsent hrelayed
  rintro _ h' ⟨hrelayed, hcomplete⟩
  refine ⟨hsent hrelayed, fun henables => ?_⟩
  have hlines := (hcomplete henables hrelays).2
  rw [hnone, List.nil_append, Housekeeper.lines, telemetry_append] at hlines
  exact hlines

/-- A line that is logged where the buffer was 0 before is sent with the packets of the loop. -/
theorem relayed_run_line : ∃ m : HealthMessage,
    m.health = .log (fun _ => 0) (ascii "0.01") [ascii "Camera", ascii "ready"] ∧
      ∃ h, startup (fun i => 100 + i) = .ok h ∧
        Wp (activities (fun _ => leBytes 2 Files.errGenException ++ leBytes 2 0)
          [.health m, .statement .sendPackets fun _ => Statement.noConfusion])
          (fun _ h' => (telemetry h'.sent).Sublist [ascii "[0.01] Camera ready "] ∧
            telemetry h'.sent ++ telemetry h'.packetBuf = [ascii "[0.01] Camera ready "])
          (fun _ h' => (telemetry h'.sent).Sublist [ascii "[0.01] Camera ready "]) h := by
  have hplain : 0 ∉ Pat.logLine (ascii "0.01") [ascii "Camera", ascii "ready"] := by decide
  have hsome : (Pat.log 7 (fun _ => 0) (ascii "0.01") [ascii "Camera", ascii "ready"]).isSome :=
    (Pat.log_isSome_iff hplain).mpr ⟨255, by decide, by decide, rfl⟩
  obtain ⟨raw, hraw⟩ := Option.isSome_iff_exists.mp hsome
  have hstart : ∃ h, startup (fun i => 100 + i) = .ok h := ⟨_, rfl⟩
  obtain ⟨h, hstart⟩ := hstart
  refine ⟨⟨7, .log (fun _ => 0) (ascii "0.01") [ascii "Camera", ascii "ready"], hplain, raw, hraw⟩,
    rfl, h, hstart, ?_⟩
  have hreport : TxPacket.encode Files.errGenException [] =
      .ok (leBytes 2 Files.errGenException ++ leBytes 2 0) := pack_HH (by decide) (by decide)
  refine (relayed_run (fun _ => ⟨_, hreport⟩) hstart _).mono
    (fun _ h' ⟨hsent, hall⟩ => ⟨hsent, hall ?_⟩) fun _ h' hsent => hsent
  intro a ha
  rcases List.mem_pair.mp ha with rfl | rfl
  · trivial
  · trivial

end Run

end ClickA.Housekeeping
