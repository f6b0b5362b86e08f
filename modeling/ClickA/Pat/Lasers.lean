import ClickA.Pat.Link

/-!
# The calibration laser

`laserOn` and `laserOff` write the register of the calibration laser and wait for the confirmation.
The answers are matched by request number and channel, and both operations use the same ones: a late
answer to one write confirms the next one.

## Main definitions

* `laserOn`, `laserOff`: the operations on the laser
* `Op`, `run`: what the process does on the link
* `Genuine`: an operation that returns true has had its write executed
* `Undisturbed`: no answer to an earlier write of the laser with this number is outstanding

## Main results

* `genuine_of_undisturbed`: a write of the laser that is confirmed is executed
* `genuine_run`: so are those of a run
-/

namespace ClickA.Pat

open Python (Ensures Runs runs_bind runs_pure runs_ite bind_of_ok)

/-- `CALIB_CH`. -/
def calibCh : UInt16 := 0x20

/-- `CALIB_ON`. -/
def calibOn : UInt8 := 0x55

/-- `CALIB_OFF`. -/
def calibOff : UInt8 := 0x0F

/-- `HEATER_CH`. -/
def heaterCh : UInt16 := 0x23

/-- `HEATER_ON`. -/
def heaterOn : UInt8 := 0x55

/-- `LD_BIAS_CH`. -/
def ldBiasCh : UInt16 := 0x21

/-- `LD_BIAS_ON`. -/
def ldBiasOn : UInt8 := 0x55

/-- `LD_BIAS_OFF`. -/
def ldBiasOff : UInt8 := 0x0F

/-- `FSM_A_CH`. -/
def fsmACh : UInt16 := 0x08

/-- `FSM_B_CH`. -/
def fsmBCh : UInt16 := 0x09

/-- `FSM_C_CH`. -/
def fsmCCh : UInt16 := 0x0A

/-- `TEMPERATURE_CH`. -/
def temperatureCh : UInt16 := 202

/-! ## Operations -/

section Operations

variable (server : Server)

/-- `laserOn`. -/
def laserOn (requestNumber : UInt8) : Proc Link Bool := do
  if ← checkFpgaMapValue server.sockets heaterCh heaterOn requestNumber then
    -- the heater is on
    server.sockets.send ⟨write, requestNumber, calibCh, calibOn⟩
    checkFpgaMapWriteRequest server.sockets calibCh requestNumber
  else
    server.sockets.send ⟨write, requestNumber, heaterCh, heaterOn⟩
    if ← checkFpgaMapWriteRequest server.sockets heaterCh requestNumber then
      server.sockets.send ⟨write, requestNumber, calibCh, calibOn⟩
      checkFpgaMapWriteRequest server.sockets calibCh requestNumber
    else return false

/-- `laserOff`. -/
def laserOff (requestNumber : UInt8) : Proc Link Bool := do
  server.sockets.send ⟨write, requestNumber, calibCh, calibOff⟩
  checkFpgaMapWriteRequest server.sockets calibCh requestNumber

/-- `fsm_request_number` is counted up, modulo 255. -/
def nextFsmRequest : Proc Link Unit :=
  modify fun s => { s with
    fsmRequestNumber := UInt8.ofNat ((s.fsmRequestNumber.toNat + 1) % 0xFF) }

/-- `FSM::fsmWrite`. -/
def fsmWrite (channel : UInt16) (data : UInt8) : Proc Link Unit := do
  let requestNumber := (← get).fsmRequestNumber
  if ← checkFpgaMapValue server.sockets ldBiasCh ldBiasOn requestNumber then
    server.sockets.send ⟨write, requestNumber, channel, data⟩
    let _ ← checkFpgaMapWriteRequest server.sockets channel requestNumber
    nextFsmRequest
  else
    server.sockets.send ⟨write, requestNumber, ldBiasCh, ldBiasOn⟩
    if ← checkFpgaMapWriteRequest server.sockets ldBiasCh requestNumber then
      server.sockets.send ⟨write, requestNumber, channel, data⟩
      let _ ← checkFpgaMapWriteRequest server.sockets channel requestNumber
      nextFsmRequest
    else return ()

/-- `FSM::sendCommand`, of three bytes. -/
def sendCommand (a b c : UInt8) : Proc Link Unit := do
  fsmWrite server fsmACh a
  fsmWrite server fsmBCh b
  fsmWrite server fsmCCh c

/-- The write at the end of `FSM::resetFSM`, which is not confirmed. -/
def ldBiasReset : Proc Link Unit := do
  let requestNumber := (← get).fsmRequestNumber
  server.sockets.send ⟨write, requestNumber, ldBiasCh, ldBiasOff⟩
  nextFsmRequest

/-- What the process does on the link. -/
inductive Op
  | laserOn (requestNumber : UInt8)
  | laserOff (requestNumber : UInt8)
  | sendCommand (a b c : UInt8)
  | ldBiasReset
  | getTemperature (requestNumber : UInt8)
  | checkFpgaComms
deriving DecidableEq, Repr

/-- An operation is done. -/
def Op.exec : Op → Proc Link Unit
  | .laserOn requestNumber => do
    let _ ← Pat.laserOn server requestNumber
  | .laserOff requestNumber => do
    let _ ← Pat.laserOff server requestNumber
  | .sendCommand a b c => Pat.sendCommand server a b c
  | .ldBiasReset => Pat.ldBiasReset server
  | .getTemperature requestNumber => do
    let _ ← Pat.getTemperature server.sockets temperatureCh requestNumber
  | .checkFpgaComms => do
    let _ ← Pat.checkFpgaComms server.sockets

/-- Some operations are done. -/
def run (s : Link) (ops : List Op) : Link := ops.foldl (fun s op => (op.exec server).after s) s

/-- A property holds before each operation of a run. -/
def Throughout (P : Link → Op → Prop) : Link → List Op → Prop
  | _, [] => True
  | s, op :: ops => P s op ∧ Throughout P ((op.exec server).after s) ops

end Operations

/-! ## Confirmations -/

/-- A request that was sent in between is executed. -/
def Written (request : FpgaRequest) (s s' : Link) : Prop :=
  ∃ k, s.sent.length ≤ k ∧ k < s'.executed ∧ s'.sent[k]? = some request

/-- No answer to a write of the laser with this number is outstanding. -/
def Link.Clear (s : Link) (requestNumber : UInt8) : Prop :=
  ∀ request ∈ s.sent.drop s.taken, request.channel = calibCh → request.requestNum ≠ requestNumber

/-- The register of the laser is written, and the write confirmed. -/
def calibWrite (server : Server) (data requestNumber : UInt8) : Proc Link Bool := do
  server.sockets.send ⟨write, requestNumber, calibCh, data⟩
  checkFpgaMapWriteRequest server.sockets calibCh requestNumber

/-- What `laserOn` does before it writes the register of the laser. -/
def heaterReady (server : Server) (requestNumber : UInt8) : Proc Link Bool := do
  if ← checkFpgaMapValue server.sockets heaterCh heaterOn requestNumber then return true
  else
    server.sockets.send ⟨write, requestNumber, heaterCh, heaterOn⟩
    checkFpgaMapWriteRequest server.sockets heaterCh requestNumber

/-- An operation on the laser that returns true has had its write executed. -/
def Genuine (server : Server) (s : Link) : Op → Prop
  | .laserOn requestNumber => Ensures (laserOn server requestNumber)
      (fun on s' => on = true → Written ⟨write, requestNumber, calibCh, calibOn⟩ s s') s
  | .laserOff requestNumber => Ensures (laserOff server requestNumber)
      (fun off s' => off = true → Written ⟨write, requestNumber, calibCh, calibOff⟩ s s') s
  | _ => True

/-- When an operation writes the register of the laser, no answer to an earlier write of it with the
same number is outstanding. -/
def Undisturbed (server : Server) (s : Link) : Op → Prop
  | .laserOn requestNumber => Ensures (heaterReady server requestNumber)
      (fun ready s' => ready = true → s'.Clear requestNumber) s
  | .laserOff requestNumber => s.Clear requestNumber
  | _ => True

section Confirmations

variable {server : Server} {s s' s'' : Link} {requestNumber data : UInt8}

theorem laserOn_eq : laserOn server requestNumber = (do
    if ← heaterReady server requestNumber then calibWrite server calibOn requestNumber
    else return false) := by
  unfold laserOn heaterReady calibWrite
  rw [bind_assoc]
  congr 1
  funext heaterIsOn
  cases heaterIsOn with
  | true => rfl
  | false => rw [if_neg Bool.false_ne_true, if_neg Bool.false_ne_true, bind_assoc]

theorem Written.of_follows {request : FpgaRequest} (h : s.Follows s')
    (hwritten : Written request s' s'') : Written request s s'' := by
  obtain ⟨k, hle, hlt, hsent⟩ := hwritten
  exact ⟨k, h.sent.length_le.trans hle, hlt, hsent⟩

/-- **A write of the laser that is confirmed is executed**, if no answer to an earlier one is
outstanding. -/
theorem ensures_calibWrite (h : s.Clear requestNumber) :
    Ensures (calibWrite server data requestNumber) (fun confirmed s' =>
      confirmed = true → Written ⟨write, requestNumber, calibCh, data⟩ s s') s := by
  unfold calibWrite
  rw [Ensures, Python.wp_bind]
  refine (ensures_checkFpgaMapWriteRequest server calibCh requestNumber _).imp ?_
  rintro confirmed s' ⟨hwaits, hconfirmed⟩ htrue
  obtain ⟨k, request, hle, hlt, hsent, hnumber, hchannel⟩ := hconfirmed htrue
  have hsent' : s'.sent = s.sent ++ [⟨write, requestNumber, calibCh, data⟩] := hwaits.sent
  have hexecuted : k < s'.executed := hlt.trans_le s'.taken_le
  have hge : s.sent.length ≤ k := by
    by_contra hearlier
    have hk : k < s.sent.length := Nat.not_le.mp hearlier
    have hget : s.sent[k]? = some request := by
      rw [← hsent]
      exact (List.getElem?_append_left hk).symm
    have hdrop : request ∈ s.sent.drop s.taken := by
      rw [List.mem_iff_getElem?]
      refine ⟨k - s.taken, ?_⟩
      rw [List.getElem?_drop, Nat.add_sub_cancel' hle, hget]
    exact h request hdrop hchannel hnumber
  have hbound := hexecuted.trans_le s'.executed_le
  rw [hsent', List.length_append, List.length_singleton] at hbound
  obtain rfl : k = s.sent.length := Nat.le_antisymm (Nat.le_of_lt_succ hbound) hge
  refine ⟨s.sent.length, le_rfl, hexecuted, ?_⟩
  rw [hsent', List.getElem?_concat_length]

theorem runs_heaterReady (server : Server) (requestNumber : UInt8) :
    Runs Link.Follows (heaterReady server requestNumber) := by
  refine runs_bind (runs_checkFpgaMapValue server _ _ _) fun heaterIsOn => ?_
  refine runs_ite (runs_pure true) ?_
  exact runs_bind (runs_send _) fun _ => runs_checkFpgaMapWriteRequest server _ _

/-- An operation on the laser that is not disturbed is genuine. -/
theorem genuine_of_undisturbed {op : Op} (h : Undisturbed server s op) : Genuine server s op := by
  cases op with
  | laserOn requestNumber =>
    unfold Genuine
    dsimp only
    rw [laserOn_eq, Ensures, Python.wp_bind]
    refine ((runs_heaterReady server requestNumber s).and h).imp ?_
    rintro ready s' ⟨hfollows, hclear⟩
    cases ready with
    | false => exact fun htrue => by cases htrue
    | true =>
      refine (ensures_calibWrite (hclear rfl)).imp ?_
      intro on s'' hwritten hon
      exact (hwritten hon).of_follows hfollows
  | laserOff requestNumber => exact ensures_calibWrite h
  | sendCommand a b c => trivial
  | ldBiasReset => trivial
  | getTemperature requestNumber => trivial
  | checkFpgaComms => trivial

/-- **In a run whose operations on the laser are not disturbed, they are genuine.** -/
theorem genuine_run (server : Server) (s : Link) (ops : List Op)
    (h : Throughout server (Undisturbed server) s ops) :
    Throughout server (Genuine server) s ops := by
  induction ops generalizing s with
  | nil => trivial
  | cons op ops ih =>
    obtain ⟨hop, hops⟩ := h
    exact ⟨genuine_of_undisturbed hop, ih _ hops⟩

/-! ## Late answers -/

/-- A server whose answers all carry `0x55`, and that stops for some polls. -/
def stopping (start stop : ℕ) : Server where
  pid := 1
  garbage := fun _ _ => 0
  answer := fun _ request => FPGAMapRequestPacket.headerBytes 1 request.requestNum.toNat
    (FPGAMapAnswerPacket.combinedFlag request.readWrite.toNat 0) request.channel.toNat 4 ++
      [0, 0, 0, 0x55]
  executes := fun n => if start ≤ n ∧ n < stop then 0 else 1
  delivery := fun n => if start ≤ n ∧ n < stop then .late else .own
  isAnswer := by
    intro k request
    refine ⟨false, [0, 0, 0, 0x55], ?_⟩
    exact FPGAMapAnswerPacket.encode_eq _ _ (by decide) request.requestNum.toNat_lt
      request.channel.toNat_lt (by decide) (by decide)
  isForeign := by
    intro n message h
    split at h
    · cases h
    · cases h

theorem genuine_run_prompt :
    Throughout (stopping 0 0) (Genuine (stopping 0 0)) .start [.laserOff 0, .laserOff 0] := by
  refine genuine_run (stopping 0 0) .start [.laserOff 0, .laserOff 0] ⟨?_, ?_, trivial⟩
  · unfold Undisturbed Link.Clear
    decide
  · unfold Undisturbed Link.Clear
    decide +kernel

/-- What the process does on the link before its first command. -/
def startup : List Op := [.getTemperature 0, .sendCommand 0x28 0x00 0x01,
    .sendCommand 0x38 0x00 0x01,
  .sendCommand 0x20 0x00 0x0F, .sendCommand 0x30 0x00 0x00, .sendCommand 0x00 0x55 0xF0,
  .sendCommand 0x01 0x55 0xF0, .sendCommand 0x03 0x55 0xF0, .sendCommand 0x12 0x55 0xF0]

/-- `laserOff` returns true before its write is executed. -/
def early (server : Server) (requestNumber : UInt8) (s : Link) : Bool :=
  match laserOff server requestNumber s with
  | .ok off s' => off && decide (s'.executed ≤ s.sent.length)
  | .error e _ => nomatch e

theorem not_genuine_of_early (h : early server requestNumber s = true) :
    ¬ Genuine server s (.laserOff requestNumber) := by
  intro hgenuine
  obtain ⟨off, s', hoff, hwritten⟩ := Python.ensures_iff.mp hgenuine
  unfold early at h
  rw [hoff] at h
  obtain ⟨htrue, hle⟩ := Bool.and_eq_true_iff.mp h
  obtain ⟨k, hk, hexecuted, -⟩ := hwritten htrue
  exact absurd (hk.trans_lt hexecuted) (Nat.not_lt.mpr (of_decide_eq_true hle))

theorem Throughout.last {P : Link → Op → Prop} {ops : List Op} {op : Op}
    (h : Throughout server P s (ops ++ [op])) :
    P (run server s ops) op := by
  induction ops generalizing s with
  | nil => exact h.1
  | cons op' ops ih => exact ih h.2

theorem not_throughout_of_early {ops : List Op}
    (h : early server requestNumber (run server s ops) = true) :
    ¬ Throughout server (Genuine server) s (ops ++ [.laserOff requestNumber]) := by
  intro hthroughout
  exact not_genuine_of_early h hthroughout.last

/-- The write of a `laserOn` times out, and its answer confirms the `laserOff` that follows. -/
theorem not_genuine_run : ¬ Throughout (stopping 50 150) (Genuine (stopping 50 150)) .start
    (startup ++ [.laserOn 0] ++ [.laserOff 0]) := by
  refine not_throughout_of_early ?_
  decide +kernel

end Confirmations

end ClickA.Pat
