import ClickA.Commands.Acknowledged

/-!
# Registers that a command writes

`CMD_PL_SET_FPGA` and `CMD_PL_UPDATE_SEED_PARAMS` carry a list of register values for one call of
`fpga.write_reg`. The number of values is inferred from the size of the payload, and has to fit both
the format and the number that the payload carries.

## Main definitions

* `Callees`: what a branch calls, so that the same branch may be run with the calls logged
* `RegisterWrite`: the two commands
* `calls`: the calls of `fpga.write_reg` that a command makes
* `Expresses`, `Consistent`: a payload makes a command write a list, and no payload makes it write
  one of another length than the payload says

## Main results

* `run_own`, `erases_run`: the branches are those of the command handler, logged or not
* `calls_eq`: what a payload makes a command write
* `expressible_iff`: each list is expressible in a command if and only if it is `CMD_PL_SET_FPGA`
-/

namespace ClickA.Commands

open Python Options Fpga Handler

attribute [local irreducible] pack unpack HKControlPacket.encode FPGAMapRequestPacket.encode

/-! ## What a branch calls -/

/-- The statements that the branches are made of. -/
structure Callees (m : Type → Type) where
  raise : {α : Type} → Except Exn α → m α
  writeReg : ℕ → Client.WriteValue → m Client.RegValue
  readReg : ℕ → ℕ → m Client.RegValue
  ackToHk : ℕ → ℕ → m Unit

namespace Callees

variable {m : Type → Type} [Monad m] (callees : Callees m) (env : Env)

/-- The registers that were written are compared with what is read. -/
def compareRegs (numRegisters : ℕ) (checkWriteData : List Value) (writeData : List ℤ) : m Unit := do
  let numErrors ← callees.raise (countErrors numRegisters checkWriteData writeData)
  callees.ackToHk cmdPlSetFpga (if numErrors = 0 then cmdAck else cmdErr)

/-- The branch of `CMD_PL_SET_FPGA`. -/
def setFpga (payload : Bytes) : m Unit := do
  match ints (← callees.raise (unpack (setFpgaFormat payload.length) payload)) with
  | _rqNumber :: startAddr :: numRegisters :: writeData =>
    -- another number of registers is logged, and no more
    if numRegisters = writeData.length then
      let _ ← callees.writeReg startAddr.toNat (.list writeData)
      match valuesOf env (← callees.readReg startAddr.toNat numRegisters.toNat) with
      | some checkWriteData => callees.compareRegs numRegisters.toNat checkWriteData writeData
      | none => callees.ackToHk cmdPlGetFpga cmdErr
  | _ => callees.raise (.error .structError)

/-- The branch of `CMD_PL_UPDATE_SEED_PARAMS`. -/
def updateSeedParams (payload : Bytes) : m Unit := do
  match ints (← callees.raise (unpack (seedFormat payload.length) payload)) with
  | _rqNumber :: startAddr :: numRegisters :: writeData =>
    if numRegisters = writeData.length then
      let _ ← callees.writeReg startAddr.toNat (.list writeData)
      let value ← callees.readReg startAddr.toNat numRegisters.toNat
      callees.compareRegs numRegisters.toNat (← callees.raise (elements value)) writeData
  | _ => callees.raise (.error .structError)

end Callees

/-- The statements of the command handler. -/
def own (env : Env) : Callees Stmt where
  raise := raise
  writeReg := writeReg env
  readReg := readReg env
  ackToHk := ackToHk env

/-! ## The two commands -/

/-- The commands that write registers. -/
inductive RegisterWrite
  | setFpga
  | updateSeedParams
deriving DecidableEq, Repr

namespace RegisterWrite

def command : RegisterWrite → Command
  | setFpga => .setFpga
  | updateSeedParams => .updateSeedParams

/-- The format of a payload. -/
def format (size : ℕ) : RegisterWrite → Format
  | setFpga => setFpgaFormat size
  | updateSeedParams => seedFormat size

/-- The request numbers and the start addresses that a payload carries are below these. -/
def limits : RegisterWrite → ℕ × ℕ
  | setFpga => (2 ^ 8, 2 ^ 16)
  | updateSeedParams => (2 ^ 32, 2 ^ 32)

/-- The branch of a command, by what it calls. -/
def run {m : Type → Type} [Monad m] (callees : Callees m) (env : Env) (payload : Bytes) :
    RegisterWrite → m Unit
  | setFpga => callees.setFpga env payload
  | updateSeedParams => callees.updateSeedParams payload

variable {env : Env} {c : RegisterWrite} {payload : Bytes}

theorem command_format (size : ℕ) : c.command.format size = some (c.format size) := by
  cases c with
  | setFpga => rfl
  | updateSeedParams => rfl

/-- The branches are those of the command handler. -/
theorem run_own (patStatusFlag : ℤ) :
    c.run (own env) env payload = c.command.handle env patStatusFlag payload := by
  cases c with
  | setFpga => rfl
  | updateSeedParams => rfl

end RegisterWrite

/-! ## The calls that are made -/

/-- A statement beside a log of the calls of `fpga.write_reg`. -/
abbrev Logged := EStateM Err (World × List (ℕ × Client.WriteValue))

/-- A statement that is not logged. -/
def onWorld {α : Type} (x : Stmt α) : Logged α := fun s =>
  match x s.1 with
  | .ok a w => .ok a (w, s.2)
  | .error e w => .error e (w, s.2)

/-- The statements of the command handler, with each call of `fpga.write_reg` logged before it is
made. -/
def logged (env : Env) : Callees Logged where
  raise := fun x => onWorld (raise x)
  writeReg := fun addr value => do
    modify fun s => (s.1, s.2 ++ [(addr, value)])
    onWorld (writeReg env addr value)
  readReg := fun addr size => onWorld (readReg env addr size)
  ackToHk := fun cmdId status => onWorld (ackToHk env cmdId status)

/-- The log behind a statement, whose exception is caught. -/
def logOf (x : Logged Unit) (w : World) : List (ℕ × Client.WriteValue) :=
  match x (w, []) with
  | .ok _ s => s.2
  | .error _ s => s.2

/-- The calls of `fpga.write_reg` that a command makes for a payload. -/
def calls (env : Env) (c : RegisterWrite) (payload : Bytes) (w : World) :
    List (ℕ × Client.WriteValue) :=
  logOf (c.run (logged env) env payload) w

section Erase

variable {α β : Type} {env : Env}

/-- Without its log, a statement is another one. -/
def Erases (x : Logged α) (y : Stmt α) : Prop :=
  ∀ s, Wp x (fun a s' => y s.1 = .ok a s'.1) (fun e s' => y s.1 = .error e s'.1) s

theorem erases_onWorld (x : Stmt α) : Erases (onWorld x) x := by
  intro s
  unfold Wp onWorld
  cases x s.1 with
  | ok a w => rfl
  | error e w => rfl

theorem Erases.bind {x : Logged α} {y : Stmt α} {f : α → Logged β} {g : α → Stmt β}
    (hx : Erases x y) (hf : ∀ a, Erases (f a) (g a)) : Erases (x >>= f) (y >>= g) := by
  intro s
  rw [wp_bind]
  refine (hx s).mono ?_ ?_
  · intro a s' h
    rw [bind_of_ok h]
    exact hf a s'
  · intro e s' h
    exact bind_of_error h

theorem erases_raise (x : Except Exn α) : Erases ((logged env).raise x) ((own env).raise x) :=
  erases_onWorld (raise x)

theorem erases_readReg (addr size : ℕ) :
    Erases ((logged env).readReg addr size) ((own env).readReg addr size) :=
  erases_onWorld (readReg env addr size)

theorem erases_ackToHk (cmdId status : ℕ) :
    Erases ((logged env).ackToHk cmdId status) ((own env).ackToHk cmdId status) :=
  erases_onWorld (ackToHk env cmdId status)

theorem erases_writeReg (addr : ℕ) (value : Client.WriteValue) :
    Erases ((logged env).writeReg addr value) ((own env).writeReg addr value) :=
  fun s => erases_onWorld (writeReg env addr value) (s.1, s.2 ++ [(addr, value)])

theorem erases_compareRegs (num : ℕ) (values : List Value) (writeData : List ℤ) :
    Erases ((logged env).compareRegs num values writeData)
      ((own env).compareRegs num values writeData) :=
  (erases_raise _).bind fun _ => erases_ackToHk _ _

/-- **A command whose calls are logged does what it does.** -/
theorem erases_run (env : Env) (c : RegisterWrite) (payload : Bytes) :
    Erases (c.run (logged env) env payload) (c.run (own env) env payload) := by
  cases c with
  | setFpga =>
    refine (erases_raise _).bind fun values => ?_
    rcases ints values with _ | ⟨rqNumber, _ | ⟨startAddr, _ | ⟨num, writeData⟩⟩⟩
    · exact erases_raise (.error .structError)
    · exact erases_raise (.error .structError)
    · exact erases_raise (.error .structError)
    dsimp only
    split
    · refine (erases_writeReg _ _).bind fun _ => (erases_readReg _ _).bind fun value => ?_
      cases valuesOf env value with
      | some checkWriteData => exact erases_compareRegs _ _ _
      | none => exact erases_ackToHk _ _
    · exact erases_onWorld (pure ())
  | updateSeedParams =>
    refine (erases_raise _).bind fun values => ?_
    rcases ints values with _ | ⟨rqNumber, _ | ⟨startAddr, _ | ⟨num, writeData⟩⟩⟩
    · exact erases_raise (.error .structError)
    · exact erases_raise (.error .structError)
    · exact erases_raise (.error .structError)
    dsimp only
    split
    · refine (erases_writeReg _ _).bind fun _ => (erases_readReg _ _).bind fun value => ?_
      exact (erases_raise _).bind fun checkWriteData => erases_compareRegs _ _ _
    · exact erases_onWorld (pure ())

end Erase

/-! ## What a payload makes a command write -/

section Writes

variable {env : Env} {c : RegisterWrite} {payload : Bytes} {w : World}

/-- The calls for the fields of a payload: at most one, with the values behind the first three. -/
def writes : List ℤ → List (ℕ × Client.WriteValue)
  | _rqNumber :: startAddr :: numRegisters :: writeData =>
    if numRegisters = writeData.length then [(startAddr.toNat, .list writeData)] else []
  | _ => []

/-- The log is left alone. -/
def SameLog (s s' : World × List (ℕ × Client.WriteValue)) : Prop := s'.2 = s.2

instance : Std.Refl SameLog := ⟨fun _ => rfl⟩

instance : IsTrans (World × List (ℕ × Client.WriteValue)) SameLog := ⟨fun _ _ _ h h' => h'.trans h⟩

theorem keeps_onWorld {α : Type} (x : Stmt α) : Keeps SameLog (onWorld x) := by
  intro s
  unfold Wp onWorld
  cases x s.1 with
  | ok a w => rfl
  | error e w => rfl

theorem keeps_compareRegs (num : ℕ) (values : List Value) (writeData : List ℤ) :
    Keeps SameLog ((logged env).compareRegs num values writeData) :=
  keeps_bind (keeps_onWorld _) fun _ => keeps_onWorld _

/-- However a statement ends, its log is this one. -/
def LogsTo (x : Logged Unit) (log : List (ℕ × Client.WriteValue)) (w : World) : Prop :=
  Wp x (fun _ s' => s'.2 = log) (fun _ s' => s'.2 = log) (w, [])

theorem logOf_eq {x : Logged Unit} {log : List (ℕ × Client.WriteValue)} (h : LogsTo x log w) :
    logOf x w = log := by
  unfold LogsTo Wp at h
  unfold logOf
  cases hx : x (w, []) with
  | ok a s =>
    rw [hx] at h
    exact h
  | error e s =>
    rw [hx] at h
    exact h

theorem logsTo_of_keeps {x : Logged Unit} (h : Keeps SameLog x) : LogsTo x [] w := h (w, [])

/-- A call is logged, and nothing behind it. -/
theorem logsTo_writeReg {addr : ℕ} {value : Client.WriteValue} {f : Client.RegValue → Logged Unit}
    (h : ∀ v, Keeps SameLog (f v)) :
    LogsTo ((logged env).writeReg addr value >>= f) [(addr, value)] w :=
  keeps_bind (keeps_onWorld (writeReg env addr value)) h (w, [(addr, value)])

theorem logsTo_raise_bind {α : Type} {a : α} {f : α → Logged Unit}
    {log : List (ℕ × Client.WriteValue)} (h : LogsTo (f a) log w) :
    LogsTo ((logged env).raise (.ok a) >>= f) log w := h

/-- The branches make the calls for the fields of their payload. -/
theorem logsTo_run {values : List Value}
    (h : unpack (c.format payload.length) payload = .ok values) :
    LogsTo (c.run (logged env) env payload) (writes (ints values)) w := by
  have hack (cmdId status : ℕ) : Keeps SameLog ((logged env).ackToHk cmdId status) :=
    keeps_onWorld (ackToHk env cmdId status)
  have hraise {α : Type} (x : Except Exn α) : Keeps SameLog ((logged env).raise x) :=
    keeps_onWorld (raise x)
  have hread (addr size : ℕ) : Keeps SameLog ((logged env).readReg addr size) :=
    keeps_onWorld (readReg env addr size)
  cases c with
  | setFpga =>
    show LogsTo (Callees.setFpga (logged env) env payload) _ w
    unfold Callees.setFpga
    rw [show unpack (setFpgaFormat payload.length) payload = .ok values from h]
    apply logsTo_raise_bind
    rcases ints values with _ | ⟨rqNumber, _ | ⟨startAddr, _ | ⟨num, writeData⟩⟩⟩
    · exact logsTo_of_keeps (hraise _)
    · exact logsTo_of_keeps (hraise _)
    · exact logsTo_of_keeps (hraise _)
    dsimp only [writes]
    split
    · refine logsTo_writeReg fun _ => keeps_bind (hread _ _) fun value => ?_
      cases valuesOf env value with
      | some checkWriteData => exact keeps_compareRegs _ _ _
      | none => exact hack _ _
    · exact logsTo_of_keeps (keeps_pure ())
  | updateSeedParams =>
    show LogsTo (Callees.updateSeedParams (logged env) payload) _ w
    unfold Callees.updateSeedParams
    rw [show unpack (seedFormat payload.length) payload = .ok values from h]
    apply logsTo_raise_bind
    rcases ints values with _ | ⟨rqNumber, _ | ⟨startAddr, _ | ⟨num, writeData⟩⟩⟩
    · exact logsTo_of_keeps (hraise _)
    · exact logsTo_of_keeps (hraise _)
    · exact logsTo_of_keeps (hraise _)
    dsimp only [writes]
    split
    · refine logsTo_writeReg fun _ => keeps_bind (hread _ _) fun value => ?_
      exact keeps_bind (hraise _) fun checkWriteData => keeps_compareRegs _ _ _
    · exact logsTo_of_keeps (keeps_pure ())

/-- A payload that is not unpacked makes no call. -/
theorem logsTo_run_of_error {e : Exn} (h : unpack (c.format payload.length) payload = .error e) :
    LogsTo (c.run (logged env) env payload) [] w := by
  cases c with
  | setFpga =>
    show LogsTo (Callees.setFpga (logged env) env payload) _ w
    unfold Callees.setFpga
    rw [show unpack (setFpgaFormat payload.length) payload = .error e from h]
    rfl
  | updateSeedParams =>
    show LogsTo (Callees.updateSeedParams (logged env) payload) _ w
    unfold Callees.updateSeedParams
    rw [show unpack (seedFormat payload.length) payload = .error e from h]
    rfl

/-- **What a payload makes a command write.** -/
theorem calls_eq (env : Env) (c : RegisterWrite) (payload : Bytes) (w : World) :
    calls env c payload w =
      match unpack (c.format payload.length) payload with
      | .ok values => writes (ints values)
      | .error _ => [] := by
  cases h : unpack (c.format payload.length) payload with
  | ok values => exact logOf_eq (logsTo_run h)
  | error e => exact logOf_eq (logsTo_run_of_error h)

end Writes

/-! ## Expressible lists -/

/-- A payload is unpacked into these fields, and makes a command call `fpga.write_reg` once, with
this address and list. -/
structure Expresses (env : Env) (c : RegisterWrite) (payload : Bytes) (rqNumber startAddr : ℕ)
    (writeData : List ℤ) : Prop where
  unpacks : ∃ values, unpack (c.format payload.length) payload = .ok values ∧
    ints values = (rqNumber : ℤ) :: startAddr :: writeData.length :: writeData
  writes : ∀ w, calls env c payload w = [(startAddr, .list writeData)]

/-- What a payload makes a command write is a list of the length that the payload says. -/
def Consistent (env : Env) (c : RegisterWrite) : Prop :=
  ∀ payload w, ∀ call ∈ calls env c payload w, ∃ values writeData,
    unpack (c.format payload.length) payload = .ok values ∧ call.2 = .list writeData ∧
      (ints values)[2]? = some (writeData.length : ℤ)

section Expressible

variable {env : Env} {c : RegisterWrite} {rqNumber startAddr : ℕ} {writeData : List ℤ}

theorem ints_map (ns : List ℤ) : ints (ns.map .int) = ns := by
  induction ns with
  | nil => rfl
  | cons n ns ih => rw [List.map_cons, ints, ih]

/-- The calls for the fields of a payload have the length that is among them. -/
theorem length_of_mem_writes {fields : List ℤ} {call : ℕ × Client.WriteValue}
    (h : call ∈ writes fields) : ∃ writeData, call.2 = .list writeData ∧
      fields[2]? = some (writeData.length : ℤ) := by
  rcases fields with _ | ⟨rqNumber, _ | ⟨startAddr, _ | ⟨num, writeData⟩⟩⟩
  · cases h
  · cases h
  · cases h
  rw [writes] at h
  split at h
  · next hnum =>
    obtain rfl := List.mem_singleton.mp h
    exact ⟨writeData, rfl, congrArg some hnum⟩
  · cases h

theorem consistent (env : Env) (c : RegisterWrite) : Consistent env c := by
  intro payload w call hcall
  rw [calls_eq] at hcall
  cases h : unpack (c.format payload.length) payload with
  | error e =>
    rw [h] at hcall
    cases hcall
  | ok values =>
    rw [h] at hcall
    obtain ⟨writeData, hvalue, hlength⟩ := length_of_mem_writes hcall
    exact ⟨values, writeData, rfl, hvalue, hlength⟩

theorem exists_packFrom_cons {m : Bool} {code : Code} {codes : List Code} {v : Value}
    {vs : List Value} {off : ℕ} (hcode : code ≠ .x) (hfirst : ∃ b, packOne m code v = .ok b)
    (hrest : ∃ raw, packFrom m (off + gap m off code + code.size) codes vs = .ok raw) :
    ∃ raw, packFrom m off (code :: codes) (v :: vs) = .ok raw := by
  obtain ⟨b, hb⟩ := hfirst
  obtain ⟨rest, hrest⟩ := hrest
  rw [packFrom_cons hcode, hb, ok_bind, hrest, ok_bind]
  exact ⟨_, rfl⟩

theorem exists_packOne_uint {m : Bool} {k n : ℕ} (h : n < 256 ^ k) :
    ∃ b, packOne m (.uint k) (.int n) = .ok b := ⟨_, packInt_natCast h⟩

/-- Words of 32 bits are packed one behind the other, and unpacked again. -/
theorem exists_packFrom_words {ns : List ℤ} (h : ∀ n ∈ ns, 0 ≤ n ∧ n < 2 ^ 32) (off : ℕ) :
    (∃ raw, packFrom false off (List.replicate ns.length .I) (ns.map .int) = .ok raw) ∧
      List.Forall₂ (Exact false) (List.replicate ns.length .I) (ns.map .int) := by
  induction ns generalizing off with
  | nil => exact ⟨⟨[], rfl⟩, .nil⟩
  | cons n ns ih =>
    obtain ⟨hn, hns⟩ := List.forall_mem_cons.mp h
    obtain ⟨hrest, hexact⟩ := ih hns (off + gap false off .I + Code.size .I)
    obtain ⟨k, rfl⟩ := Int.eq_ofNat_of_zero_le hn.1
    have hk : k < 256 ^ 4 := by exact_mod_cast hn.2
    rw [List.length_cons, List.replicate_succ, List.map_cons]
    exact ⟨exists_packFrom_cons (by decide) (exists_packOne_uint hk) hrest,
      .cons (exact_int 4 _) hexact⟩

/-- The payload of `CMD_PL_SET_FPGA` for a list. -/
theorem exists_payload (hrqNumber : rqNumber < 2 ^ 8) (hstartAddr : startAddr < 2 ^ 16)
    (hlength : writeData.length < 2 ^ 8) (hwords : ∀ n ∈ writeData, 0 ≤ n ∧ n < 2 ^ 32) :
    ∃ payload : Bytes, payload.length = 4 + 4 * writeData.length ∧
      ∃ values, unpack (setFpgaFormat payload.length) payload = .ok values ∧
        ints values = (rqNumber : ℤ) :: startAddr :: writeData.length :: writeData := by
  let fields : List ℤ := (rqNumber : ℤ) :: startAddr :: writeData.length :: writeData
  obtain ⟨hrest, hexact⟩ := exists_packFrom_words hwords 4
  obtain ⟨payload, hpack⟩ : ∃ payload,
      pack (network ([.B, .H, .B] ++ List.replicate writeData.length .I)) (fields.map .int) =
        .ok payload := by
    unfold pack
    refine exists_packFrom_cons (by decide) (exists_packOne_uint (by omega)) ?_
    refine exists_packFrom_cons (by decide) (exists_packOne_uint (by omega)) ?_
    exact exists_packFrom_cons (by decide) (exists_packOne_uint (by omega)) hrest
  have hlen := (length_of_pack hpack).trans (calcsize_registers writeData.length)
  have hformat : setFpgaFormat payload.length =
      network ([.B, .H, .B] ++ List.replicate writeData.length .I) := by
    unfold setFpgaFormat
    rw [hlen, Nat.add_sub_cancel_left, Nat.mul_div_cancel_left _ (by decide)]
  have hfilter : ((network ([.B, .H, .B] ++ List.replicate writeData.length .I)).codes.filter
      (· ≠ .x)) = .B :: .H :: .B :: List.replicate writeData.length .I := by
    refine List.filter_eq_self.mpr fun code hcode => ?_
    simp only [List.cons_append, List.nil_append, List.mem_cons, List.mem_replicate] at hcode
    rcases hcode with rfl | rfl | rfl | ⟨-, rfl⟩
    · rfl
    · rfl
    · rfl
    · rfl
  refine ⟨payload, hlen, fields.map .int, ?_, ints_map fields⟩
  rw [hformat]
  refine unpack_pack ?_ hpack
  rw [hfilter]
  exact .cons (exact_int 1 _) (.cons (exact_int 2 _) (.cons (exact_int 1 _) hexact))

/-- `CMD_PL_SET_FPGA` expresses each list. -/
theorem exists_expresses (env : Env) (hrqNumber : rqNumber < 2 ^ 8)
    (hstartAddr : startAddr < 2 ^ 16) (hlength : writeData.length < 2 ^ 8)
    (hwords : ∀ n ∈ writeData, 0 ≤ n ∧ n < 2 ^ 32) : ∃ payload, payload.length < 2 ^ 16 ∧
      Expresses env .setFpga payload rqNumber startAddr writeData := by
  obtain ⟨payload, hlen, values, hunpack, hints⟩ :=
    exists_payload hrqNumber hstartAddr hlength hwords
  refine ⟨payload, by omega, ⟨values, hunpack, hints⟩, fun w => ?_⟩
  rw [calls_eq, show unpack (RegisterWrite.setFpga.format payload.length) payload = .ok values from
    hunpack]
  dsimp only
  rw [hints, writes, if_pos rfl]
  rfl

/-- `CMD_PL_UPDATE_SEED_PARAMS` expresses none. -/
theorem not_expresses_updateSeedParams (payload : Bytes) :
    ¬ Expresses env .updateSeedParams payload rqNumber startAddr writeData := by
  rintro ⟨⟨values, hunpack, -⟩, -⟩
  -- the format has twelve bytes behind the words, where the count allows for four
  exact calcsize_seedFormat_ne payload.length (length_of_unpack hunpack)

end Expressible

/-- **Each list of registers is expressible in a command exactly when it is `CMD_PL_SET_FPGA`.** No
payload makes either command write a list of another length than it says. -/
theorem expressible_iff (env : Env) (c : RegisterWrite) {rqNumber startAddr : ℕ}
    {writeData : List ℤ} (hrqNumber : rqNumber < c.limits.1) (hstartAddr : startAddr < c.limits.2)
    (hlength : writeData.length < 2 ^ 8) (hwords : ∀ n ∈ writeData, 0 ≤ n ∧ n < 2 ^ 32) :
    (∃ workload s ms payload,
        RxCommandPacket.decode workload = .ok (c.command.id, s, ms, payload) ∧
          Expresses env c payload rqNumber startAddr writeData) ∧ Consistent env c ↔
      c = .setFpga := by
  rw [and_iff_left (consistent env c)]
  cases c with
  | setFpga =>
    refine iff_of_true ?_ rfl
    obtain ⟨payload, hpayload, hexpresses⟩ :=
      exists_expresses env hrqNumber hstartAddr hlength hwords
    obtain ⟨workload, hencode⟩ : ∃ workload,
        RxCommandPacket.encode cmdPlSetFpga 0 0 payload = .ok workload :=
      ⟨_, RxCommandPacket.encode_eq (by decide) hpayload (by decide) (by decide)⟩
    exact ⟨workload, 0, 0, payload,
      RxCommandPacket.decode_encode (by decide) hpayload (by decide) (by decide) hencode,
      hexpresses⟩
  | updateSeedParams =>
    refine iff_of_false ?_ (by decide)
    rintro ⟨workload, s, ms, payload, -, hexpresses⟩
    exact not_expresses_updateSeedParams payload hexpresses

/-- The first channel of a DAC. -/
theorem expressible_iff_dac : (∃ workload s ms payload,
    RxCommandPacket.decode workload = .ok (RegisterWrite.setFpga.command.id, s, ms, payload) ∧
      Expresses quietEnv .setFpga payload 1 502 [512]) ∧ Consistent quietEnv .setFpga ↔
    RegisterWrite.setFpga = .setFpga :=
  expressible_iff quietEnv .setFpga (by decide) (by decide) (by decide) (by decide)

/-- The set point of the seed laser. -/
theorem not_expresses_seed : ¬ ∃ workload s ms payload,
    RxCommandPacket.decode workload =
      .ok (RegisterWrite.updateSeedParams.command.id, s, ms, payload) ∧
      Expresses quietEnv .updateSeedParams payload 1 400 [1000] := by
  rintro ⟨workload, s, ms, payload, -, hexpresses⟩
  exact not_expresses_updateSeedParams payload hexpresses

end ClickA.Commands
