import ClickA.Client.Registers
import ClickA.Commands.Dispatch
import ClickA.Files.Faults

/-!
# What is sent to housekeeping

Statements of the command handler by what they send to housekeeping: nothing that acknowledges a
command, or an acknowledgement.

## Main definitions

* `isAck`, `Acknowledges`: an acknowledgement, and one of a command
* `Sends`, `Silent`: the acknowledgements that are sent between two states, and none
* `AckedWith`: one message is sent, the acknowledgement of a command with a status
* `AcknowledgedOnce`: exactly one acknowledgement is sent, and it is one of the command
* `Settles`: a statement acknowledges a command once if and only if a condition holds
* `Calls`: a statement is silent, and only an answer of the FPGA raises

## Main results

* `settles_bind`, `Settles.bind`, `settles_ack`: the rules of `Settles`
* `calls_sendPat`, `calls_initializeCalLaser`: the messages to PAT, and the calibration laser
-/

namespace ClickA.Commands

open Python Options Fpga Handler

/-- A message to housekeeping is an acknowledgement. -/
def isAck (raw : Bytes) : Bool :=
  match HKControlPacket.decode raw with
  | .ok (_, command, _) => command = hkControlAck
  | .error _ => false

/-- A message is the acknowledgement of a command. -/
def Acknowledges (raw : Bytes) (cmdId : ℕ) : Prop :=
  ∃ (origin : ℕ) (payload : Bytes) (status : ℕ),
    HKControlPacket.decode raw = .ok (origin, hkControlAck, payload) ∧
      unpack (native [.H, .H]) payload = .ok [.int cmdId, .int status]

/-- The acknowledgements that are sent between two states. -/
def Sends (acks : List Bytes) (w w' : World) : Prop :=
  ∃ new, w'.hkSent = w.hkSent ++ new ∧ new.filter isAck = acks

/-- No acknowledgement is sent. -/
def Silent (w w' : World) : Prop := Sends [] w w'

/-- A list is one acknowledgement, of a command. -/
def Single (acks : List Bytes) (cmdId : ℕ) : Prop := ∃ raw, acks = [raw] ∧ Acknowledges raw cmdId

/-- Exactly one acknowledgement is sent, and it is one of the command. -/
def AcknowledgedOnce (cmdId : ℕ) (w w' : World) : Prop :=
    ∃ acks, Sends acks w w' ∧ Single acks cmdId

/-- One message is sent to housekeeping, the acknowledgement of a command with a status. -/
def AckedWith (cmdId status : ℕ) (w w' : World) : Prop :=
  ∃ raw origin payload, w'.hkSent = w.hkSent ++ [raw] ∧
    HKControlPacket.decode raw = .ok (origin, hkControlAck, payload) ∧
      unpack (native [.H, .H]) payload = .ok [.int cmdId, .int status]

/-- The state behind a statement, however it ends. -/
def after {α : Type} (x : Stmt α) (w : World) : World :=
  match x w with
  | .ok _ w' => w'
  | .error _ w' => w'

/-- The command is acknowledged once if and only if a condition holds. -/
def Outcome (good : Prop) (cmdId : ℕ) (w w' : World) : Prop :=
  ∃ acks, Sends acks w w' ∧ (Single acks cmdId ↔ good)

/-- A statement acknowledges the command once if and only if a condition holds, where no answer of
the FPGA raises. -/
def Settles {α : Type} (good : Prop) (cmdId : ℕ) (x : Stmt α) (w : World) : Prop :=
  Wp x (fun _ w' => Outcome good cmdId w w')
    (fun e w' => (∃ f, e = .fpga f) ∨ Outcome good cmdId w w') w

/-- A statement is silent, and only an answer of the FPGA raises. -/
def Calls {α : Type} (x : Stmt α) : Prop :=
  ∀ w, Wp x (fun _ w' => Silent w w') (fun e _ => ∃ f, e = .fpga f) w

variable {env : Env} {α β : Type} {w w' w'' : World} {acks acks' : List Bytes} {good good' : Prop}
  {cmdId cmdId' status command addr n : ℕ} {x : Stmt α} {f : α → Stmt β} {payload raw text : Bytes}

/-! ## Packets -/

/-- A payload of the right length is unpacked. -/
theorem unpack_of_length {fmt : Format} (h : raw.length = calcsize fmt) :
    unpack fmt raw = .ok (unpackFrom fmt.native 0 fmt.codes raw) :=
  if_pos h

theorem exists_encode_control (hcommand : command < 2 ^ 16) (hpayload : payload.length < 2 ^ 32) :
    ∃ raw, HKControlPacket.encode env.pid command payload = .ok raw := by
  unfold HKControlPacket.encode
  rw [pack, packFrom_cons (by decide), packOne_H env.pid_lt, ok_bind, packFrom_cons (by decide),
    packOne_H hcommand, ok_bind, packFrom_cons (by decide), packOne_I hpayload, ok_bind]
  simp [packFrom, packOne]

/-- What `initialize_cal_laser` writes. -/
theorem payload_calLaser : Client.payload po3 (.int 85) = .ok [0, 0, 0, 85] ∧
    Client.payload cal (.int 85) = .ok [0, 0, 0, 85] ∧
    Client.payload dacSetup (.int 1) = .ok [1, 0, 0, 0] ∧
    Client.payload dac1D (.int calLaserDacSetting) = .ok [0, 0, 0x2C, 0x1A] ∧
    Client.payload cal (.int 15) = .ok [0, 0, 0, 15] :=
  ⟨rfl, rfl, rfl, rfl, rfl⟩

-- a goal about a statement is not computed
attribute [local irreducible] pack HKControlPacket.encode TxPacket.encode sendPatCommand
  FPGAMapRequestPacket.encode

/-! ## Acknowledgements -/

theorem Sends.trans (h : Sends acks w w') (h' : Sends acks' w' w'') :
    Sends (acks ++ acks') w w'' := by
  obtain ⟨new, heq, rfl⟩ := h
  obtain ⟨new', heq', rfl⟩ := h'
  refine ⟨new ++ new', ?_, List.filter_append ..⟩
  rw [heq', heq, List.append_assoc]

theorem Sends.inj (h : Sends acks w w') (h' : Sends acks' w w') : acks = acks' := by
  obtain ⟨new, heq, rfl⟩ := h
  obtain ⟨new', heq', rfl⟩ := h'
  rw [heq] at heq'
  rw [List.append_cancel_left heq']

theorem silent_of_eq (h : w'.hkSent = w.hkSent) : Silent w w' :=
  ⟨[], by rw [h, List.append_nil], rfl⟩

instance : Std.Refl Silent := ⟨fun _ => silent_of_eq rfl⟩

instance : IsTrans World Silent := ⟨fun _ _ _ h h' => h.trans h'⟩

theorem Acknowledges.inj (h : Acknowledges raw cmdId) (h' : Acknowledges raw cmdId') :
    cmdId = cmdId' := by
  obtain ⟨origin, payload, status, hdecode, hunpack⟩ := h
  obtain ⟨origin', payload', status', hdecode', hunpack'⟩ := h'
  rw [hdecode, Except.ok.injEq, Prod.mk.injEq, Prod.mk.injEq] at hdecode'
  obtain ⟨-, -, rfl⟩ := hdecode'
  rw [hunpack, Except.ok.injEq, List.cons.injEq] at hunpack'
  simpa using hunpack'.1

theorem AckedWith.inj {status' : ℕ} (h : AckedWith cmdId status w w')
    (h' : AckedWith cmdId' status' w w') : cmdId = cmdId' ∧ status = status' := by
  obtain ⟨raw, origin, payload, hsent, hdecode, hunpack⟩ := h
  obtain ⟨raw', origin', payload', hsent', hdecode', hunpack'⟩ := h'
  obtain rfl : raw = raw' := by simpa using hsent.symm.trans hsent'
  rw [hdecode, Except.ok.injEq, Prod.mk.injEq, Prod.mk.injEq] at hdecode'
  obtain ⟨-, -, rfl⟩ := hdecode'
  simpa using Except.ok.inj (hunpack.symm.trans hunpack')

theorem not_single_nil : ¬ Single [] cmdId := by
  rintro ⟨raw, heq, -⟩
  cases heq

/-- What is sent decides how a command is acknowledged. -/
theorem Outcome.acknowledgedOnce_iff (h : Outcome good cmdId w w') :
    AcknowledgedOnce cmdId w w' ↔ good := by
  obtain ⟨acks, hsends, hiff⟩ := h
  rw [← hiff]
  constructor
  · rintro ⟨acks', hsends', hsingle⟩
    rwa [hsends.inj hsends']
  · exact fun hsingle => ⟨acks, hsends, hsingle⟩

theorem Outcome.of_silent (h : Silent w w') (hgood : ¬ good) : Outcome good cmdId w w' :=
  ⟨[], h, iff_of_false not_single_nil hgood⟩

/-- Nothing is acknowledged before. -/
theorem Outcome.before (h : Silent w w') (h' : Outcome good cmdId w' w'') :
    Outcome good cmdId w w'' := by
  obtain ⟨acks, hsends, hiff⟩ := h'
  exact ⟨[] ++ acks, h.trans hsends, hiff⟩

/-- Nothing is acknowledged behind. -/
theorem Outcome.behind (h : Outcome good cmdId w w') (h' : Silent w' w'') :
    Outcome good cmdId w w'' := by
  obtain ⟨acks, hsends, hiff⟩ := h
  refine ⟨acks ++ [], hsends.trans h', ?_⟩
  rwa [List.append_nil]

/-! ## Statements -/

@[simp] theorem wp_raise_ok {a : α} {Q : α → World → Prop} {E : Err → World → Prop} :
    Wp (raise (.ok a)) Q E w ↔ Q a w := Iff.rfl

@[simp] theorem wp_raise_error {e : Exn} {Q : α → World → Prop} {E : Err → World → Prop} :
    Wp (raise (α := α) (.error e)) Q E w ↔ E (.raised e) w := Iff.rfl

theorem wp_onHost {y : Files.Stmt α} {Q : α → World → Prop} {E : Err → World → Prop} :
    Wp (onHost y) Q E w ↔ Wp y (fun a h => Q a { w with host := h })
      (fun e h => E (.files e) { w with host := h }) w.host := by
  unfold onHost Wp
  dsimp only
  cases y w.host with
  | ok a h => rfl
  | error e h => rfl

theorem wp_onClient {y : Client.ClientM α} {raised : Client.Fault → Err} {Q : α → World → Prop}
    {E : Err → World → Prop} :
    Wp (onClient raised y) Q E w ↔ Wp y (fun a s => Q a { w with fpga := s })
      (fun e s => E (raised e) { w with fpga := s }) w.fpga := by
  unfold onClient Wp
  dsimp only
  cases y w.fpga with
  | ok a s => rfl
  | error e s => rfl

/-- The disk has no part in what is sent to housekeeping. -/
theorem silent_onHost (y : Files.Stmt α) : Keeps Silent (onHost y) := by
  intro w
  rw [wp_onHost]
  exact wp_true.mono (fun _ _ _ => silent_of_eq rfl) fun _ _ _ => silent_of_eq rfl

theorem silent_sendTx (apid : ℕ) (payload : Bytes) : Keeps Silent (sendTx apid payload) :=
  silent_onHost _

theorem silent_system (command : Bytes) : Keeps Silent (system env command) := by
  intro w
  unfold system
  by_cases hnul : command.contains 0 = true
  · rw [if_pos hnul]
    exact silent_of_eq rfl
  · rw [if_neg hnul]
    exact silent_of_eq rfl

/-- A control packet is sent. -/
theorem wp_sendToHk {Q : Unit → World → Prop} {E : Err → World → Prop} (hcommand : command < 2 ^ 16)
    (hpayload : payload.length < 2 ^ 32)
    (h : ∀ raw, HKControlPacket.decode raw = .ok (env.pid, command, payload) →
      Q () { w with hkSent := w.hkSent ++ [raw] }) : Wp (sendToHk env command payload) Q E w := by
  obtain ⟨raw, hraw⟩ := exists_encode_control hcommand hpayload
  unfold sendToHk
  rw [hraw, wp_bind, wp_raise_ok, wp_modify]
  exact h raw (HKControlPacket.decode_encode hraw)

/-- **`ack_to_hk` sends one acknowledgement**, of its command and with its status. -/
theorem ensures_ackedWith (hcmdId : cmdId < 2 ^ 16) (hstatus : status < 2 ^ 16)
    (hsame : w'.hkSent = w.hkSent) :
    Ensures (ackToHk env cmdId status) (fun _ w'' => AckedWith cmdId status w w'') w' := by
  have hpack := pack_HH hcmdId hstatus
  unfold ackToHk
  rw [hpack, Ensures, wp_bind, wp_raise_ok]
  apply wp_sendToHk (by decide) (by simp)
  intro raw hdecode
  have hunpack := unpack_pack (.cons (exact_int 2 _) (.cons (exact_int 2 _) .nil)) hpack
  exact ⟨raw, env.pid, _, congrArg (· ++ [raw]) hsame, hdecode, hunpack⟩

theorem ensures_ackToHk (hcmdId : cmdId < 2 ^ 16) (hstatus : status < 2 ^ 16) :
    Ensures (ackToHk env cmdId status)
      (fun _ w' => ∃ raw, Sends [raw] w w' ∧ Acknowledges raw cmdId) w := by
  refine (ensures_ackedWith hcmdId hstatus rfl).imp ?_
  rintro _ w' ⟨raw, origin, payload, hsent, hdecode, hunpack⟩
  refine ⟨raw, ⟨[raw], hsent, ?_⟩, origin, payload, status, hdecode, hunpack⟩
  rw [List.filter_cons_of_pos (by simp [isAck, hdecode]), List.filter_nil]

/-! ## Settling -/

/-- The statement goes on from where nothing is acknowledged yet. -/
theorem settles_bind (hx : Wp x (fun a w' => Silent w w' ∧ Settles good cmdId (f a) w')
    (fun e w' => (∃ f, e = .fpga f) ∨ Silent w w' ∧ ¬ good) w) :
      Settles good cmdId (x >>= f) w := by
  unfold Settles
  rw [wp_bind]
  refine hx.mono ?_ ?_
  · rintro a w' ⟨hsilent, hsettles⟩
    refine hsettles.mono (fun _ _ houtcome => houtcome.before hsilent) ?_
    rintro e w'' (hfpga | houtcome)
    · exact Or.inl hfpga
    · exact Or.inr (houtcome.before hsilent)
  · rintro e w' (hfpga | ⟨hsilent, hgood⟩)
    · exact Or.inl hfpga
    · exact Or.inr (.of_silent hsilent hgood)

/-- What is silent behind an acknowledgement leaves it the only one. -/
theorem Settles.bind (hx : Settles good cmdId x w) (hf : ∀ a, Keeps Silent (f a)) :
    Settles good cmdId (x >>= f) w := by
  unfold Settles
  rw [wp_bind]
  refine hx.mono ?_ fun _ _ houtcome => houtcome
  intro a w' houtcome
  refine (hf a w').mono ?_ ?_
  · exact fun _ _ hsilent => houtcome.behind hsilent
  · exact fun _ _ hsilent => Or.inr (houtcome.behind hsilent)

theorem settles_of_silent (hx : Keeps Silent x) (hgood : ¬ good) : Settles good cmdId x w :=
  (hx w).mono (fun _ _ hsilent => .of_silent hsilent hgood) fun _ _ hsilent =>
    Or.inr (.of_silent hsilent hgood)

/-- An acknowledgement is the right one if and only if it is that of the command. -/
theorem settles_ack (hcmdId : cmdId' < 2 ^ 16) (hstatus : status < 2 ^ 16)
    (h : cmdId' = cmdId ↔ good) : Settles good cmdId (ackToHk env cmdId' status) w := by
  refine (ensures_ackToHk hcmdId hstatus).mono ?_ fun _ _ hfalse => hfalse.elim
  rintro _ w' ⟨raw, hsends, hacknowledges⟩
  refine ⟨[raw], hsends, ?_⟩
  rw [← h]
  constructor
  · rintro ⟨raw', heq, hacknowledges'⟩
    obtain rfl := List.singleton_inj.mp heq
    exact hacknowledges.inj hacknowledges'
  · rintro rfl
    exact ⟨raw, rfl, hacknowledges⟩

theorem Settles.congr (hx : Settles good cmdId x w) (h : good ↔ good') :
    Settles good' cmdId x w := by
  rwa [← propext h]

/-- A value that is unpacked or decoded. -/
theorem settles_raise_bind {a : α} {y : Except Exn α} (hy : y = .ok a)
    (h : Settles good cmdId (f a) w) :
    Settles good cmdId (raise y >>= f) w := by
  apply settles_bind
  rw [hy, wp_raise_ok]
  exact ⟨refl_of Silent w, h⟩

/-! ## Calls -/

theorem calls_pure (a : α) : Calls (pure a : Stmt α) := fun w => refl_of Silent w

theorem calls_bind (hx : Calls x) (hf : ∀ a, Calls (f a)) : Calls (x >>= f) := by
  intro w
  rw [wp_bind]
  refine (hx w).mono ?_ fun _ _ hfpga => hfpga
  intro a w' hsilent
  exact (hf a w').mono (fun _ _ hsilent' => trans_of Silent hsilent hsilent') fun _ _ hfpga => hfpga

theorem calls_ite {p : Prop} [Decidable p] {y : Stmt α} (hx : Calls x) (hy : Calls y) :
    Calls (if p then x else y) := by
  split
  · exact hx
  · exact hy

/-- The calls before an acknowledgement. -/
theorem Calls.bind (hx : Calls x) (hf : ∀ a w', Settles good cmdId (f a) w') :
    Settles good cmdId (x >>= f) w := by
  apply settles_bind
  refine (hx w).mono ?_ ?_
  · exact fun a w' hsilent => ⟨hsilent, hf a w'⟩
  · exact fun _ _ hfpga => Or.inl hfpga

theorem calls_sendPat (hcommand : command < 2 ^ 16) (htext : text.length < patCmdPayloadSize) :
    Calls (sendPat command text) := by
  intro w
  unfold sendPat
  rw [sendPatCommand_eq hcommand htext, wp_bind, wp_raise_ok, wp_modify]
  exact silent_of_eq rfl

/-- A command without a payload. -/
theorem calls_sendPat_nil (hcommand : command < 2 ^ 16) : Calls (sendPat command []) :=
  calls_sendPat hcommand (by decide)

theorem calls_sendPat_str (hcommand : command < 2 ^ 16) (hn : n < 2 ^ 32) :
    Calls (sendPat command (str n)) := by
  apply calls_sendPat hcommand
  have hlength : (str n).length ≤ 10 := (length_str_le_iff (by decide)).mpr (by omega)
  exact lt_of_le_of_lt hlength (by decide)

theorem calls_sendPat_strInt {z : ℤ} (hcommand : command < 2 ^ 16) (hz : z.natAbs < 10 ^ 10) :
    Calls (sendPat command (strInt z)) :=
  calls_sendPat hcommand (lt_of_le_of_lt (length_strInt_le hz) (by decide))

theorem calls_sendPatIf {sends : Bool} (h : Calls (sendPat command text)) :
    Calls (sendPatIf sends command text) :=
  calls_ite h (calls_pure ())

/-! ## The FPGA -/

theorem wp_wait (future : ℕ) : Wp (onClient .fpga (Client.wait env.fpga future))
    (fun _ w' => Silent w w') (fun e _ => ∃ f, e = .fpga f) w := by
  rw [wp_onClient]
  exact wp_true.mono (fun _ _ _ => silent_of_eq rfl) fun f _ _ => ⟨f, rfl⟩

/-- Only an answer raises for a read. -/
theorem calls_readReg (haddr : addr < 2 ^ 16) (hn : n < 2 ^ 30) : Calls (readReg env addr n) := by
  intro w
  have hvalid : FPGAMapRequestPacket.Valid
      ⟨env.fpga.pid, w.fpga.ticked.token, 0, addr, n * 4, []⟩ := by
    have htoken : w.fpga.ticked.token < 255 := Nat.mod_lt _ (by decide)
    refine ⟨env.fpga.pid_lt, ?_, Or.inl rfl, haddr, ?_, fun _ => rfl,
      fun h => absurd h Nat.zero_ne_one⟩
    · show w.fpga.ticked.token < 2 ^ 8
      omega
    · show n * 4 < 2 ^ 32
      omega
  unfold readReg Client.readRegAsync
  rw [wp_bind, wp_onClient, wp_bind, wp_of_ok (Client.getToken_eq w.fpga),
    wp_of_ok (Client.sendRequest_of_ok hvalid.encode_eq)]
  exact wp_wait _

/-- Only an answer raises for a write whose value is packed. -/
theorem calls_writeReg {value : Client.WriteValue} {data : Bytes} (haddr : addr < 2 ^ 16)
    (hdata : Client.payload addr value = .ok data) (hmod : data.length % 4 = 0)
    (hlength : data.length < 2 ^ 32) : Calls (writeReg env addr value) := by
  intro w
  have hvalid : (Client.writeRequest env.fpga w.fpga addr data).Valid :=
    Client.valid_writeRequest haddr hmod hlength
  unfold writeReg
  rw [wp_bind, wp_onClient, wp_of_ok (Client.writeRegAsync_of_ok hdata hvalid.encode_eq)]
  exact wp_wait _

theorem calls_setReg {m : ℤ} {data : Bytes} (haddr : addr < 2 ^ 16)
    (hdata : Client.payload addr (.int m) = .ok data) (hlength : data.length = 4) :
    Calls (setReg env addr m) := by
  apply calls_bind (calls_writeReg haddr hdata (by rw [hlength]) (by rw [hlength]; decide))
  exact fun _ => calls_pure ()

theorem calls_switchOn {data : Bytes} (haddr : addr < 2 ^ 16)
    (hdata : Client.payload addr (.int 85) = .ok data) (hlength : data.length = 4) :
    Calls (switchOn env addr) := by
  apply calls_bind (calls_readReg haddr (by decide))
  exact fun _ => calls_ite (calls_setReg haddr hdata hlength) (calls_pure ())

/-- `initialize_cal_laser` is silent. -/
theorem calls_initializeCalLaser : Calls (initializeCalLaser env) := by
  obtain ⟨hheaters, hdiode, hsetup, hdac, hoff⟩ := payload_calLaser
  apply calls_bind (calls_switchOn (by decide) hheaters rfl)
  intro _
  apply calls_bind (calls_switchOn (by decide) hdiode rfl)
  intro _
  apply calls_bind (calls_setReg (by decide) hsetup rfl)
  intro _
  apply calls_bind (calls_setReg (by decide) hdac rfl)
  intro _
  exact calls_setReg (by decide) hoff rfl

end ClickA.Commands
