import ClickA.Client.Registers
import ClickA.Fpga.Power
import ClickA.Machine.Run

/-!
# The power state of the DACs

`DAC.enable_output` and `DAC.disable_output` of `fpga_map.py` write a mask of eight channels to
`DAC_ENABLE`, with a mode above it. The server hands the whole mask to the first DAC, and to the
second one the bits of the mode: a mask of the first four channels does what it says, but one of the
last four does not reach them.

## Main definitions

* `PowerCall`: a call of either method
* `System`: a client and the server, with the modes that the calls have commanded
* `InStep`: each channel is in the mode of the last call whose mask contains it
* `Follows`: the calls that do what they say

## Main results

* `System.exists_step`: what a call does to the outputs
* `inStep_iff`: the outputs are in step throughout a run if and only if each of its calls follows
-/

namespace ClickA.Client

open Python Options Fpga

/-! ## The calls -/

/-- `DAC_OEN` and `DAC_HIGHZ` of `fpga_map.py`. -/
def dacOen : ℕ := 0b00 <<< 8

def dacHighZ : ℕ := 0b11 <<< 8

section Methods

variable (env : Env)

/-- `DAC.enable_output`. -/
def enableOutput (mask : ℕ) : ClientM RegValue :=
  writeReg env dacEnable (.int (dacOen ||| mask : ℕ))

/-- `DAC.disable_output`. -/
def disableOutput (mask : ℕ) : ClientM RegValue :=
  writeReg env dacEnable (.int (dacHighZ ||| mask : ℕ))

end Methods

/-- A call of `enable_output` or `disable_output`, with a mask of eight channels. -/
structure PowerCall where
  enable : Bool
  mask : ℕ
  lt : mask < 256

namespace PowerCall

variable (call : PowerCall)

/-- The method that is called. -/
def run (env : Env) : ClientM RegValue :=
  if call.enable then enableOutput env call.mask else disableOutput env call.mask

/-- The mode that the channels of the mask are to be in. -/
def mode : Mode := if call.enable then .normal else .highImpedance

/-- What a call is for. -/
def command (outs : Outputs) : Outputs := fun channel =>
  if call.mask.testBit channel then call.mode else outs channel

/-- The value that is written. -/
def value : ℕ := (if call.enable then dacOen else dacHighZ) ||| call.mask

/-- A call does what it says. To enable, it selects a channel of the first DAC only without the two
that reach into the mode, and the channels that it selects of the second DAC are enabled already. To
disable, it selects the first two channels of the second DAC, or they are disabled already, as are
the others that it selects there. -/
def Follows (outs : Outputs) : Prop :=
  if call.enable then (call.mask &&& 0x0F = 0 ∨ call.mask &&& 0x30 = 0) ∧
    ∀ channel, 4 ≤ channel → channel < 8 → call.mask.testBit channel → outs channel = .normal
  else (∀ channel, 4 ≤ channel → channel < 6 → call.mask.testBit channel ∨
      outs channel = .highImpedance) ∧
    ∀ channel, 6 ≤ channel → channel < 8 → call.mask.testBit channel →
      outs channel = .highImpedance

end PowerCall

/-! ## A client and the server -/

/-- A client and the server, and the modes that the calls have commanded. -/
structure System where
  client : State
  loop : Loop
  world : World
  commanded : Outputs

/-- The server gets a request. -/
def served (server : Fpga.Env) (s : Loop × World) (req : FPGAMapRequestPacket) :
    Option (Loop × World) :=
  match req.encode with
  | .ok raw =>
    match iteration server s.1 (.message raw) s.2 with
    | .ok loop world => some (loop, world)
    | .error _ _ => none
  | .error _ => none

/-- A call: the server gets what the client sends. The client may get any answers, in time or not,
and an exception of the call is caught. -/
def System.step (env : Env) (server : Fpga.Env) (s : System) (call : PowerCall) : Option System :=
  let client := after (call.run env) s.client
  -- what the call has sent stands behind what was sent before it
  ((client.sent.drop s.client.sent.length).foldlM (served server) (s.loop, s.world)).map
    fun served => ⟨client, served.1, served.2, call.command s.commanded⟩

/-- Each of the eight channels is in the mode of the last call whose mask contains it. -/
def InStep (initial : Outputs) (s : System) : Prop :=
  ∀ channel < 8, outputs initial s.world channel = s.commanded channel

/-! ## What a call sends -/

section Sent

variable {env : Env} {s : State}

/-- Nothing is sent. -/
def Unsent (s s' : State) : Prop := s'.sent = s.sent

instance : Std.Refl Unsent := ⟨fun _ => rfl⟩

instance : IsTrans State Unsent := ⟨fun _ _ _ h h' => h'.trans h⟩

theorem keeps_pureStatement {α : Type} (x : Except Exn α) : Keeps Unsent (pureStatement x) :=
  keeps_lift _

theorem keeps_modify {f : State → State} (h : ∀ s, Unsent s (f s)) :
    Keeps Unsent (modify f : ClientM PUnit) := h

theorem keeps_getFuture (fut : ℕ) : Keeps Unsent (getFuture fut) := by
  intro s
  unfold getFuture
  rw [wp_bind, wp_get]
  cases s.futures[fut]? with
  | some future => exact refl_of Unsent s
  | none => exact refl_of Unsent s

/-- A failed receive drops the queue, and no more. -/
theorem keeps_dropOnError {α : Type} {x : ClientM α} (h : Keeps Unsent x) :
    Keeps Unsent (dropOnError x) := by
  intro s
  have hs := h s
  cases hx : x s with
  | ok a s' =>
    have hdrop : dropOnError x s = .ok a s' := by
      unfold dropOnError
      rw [hx]
    rw [wp_of_ok hx] at hs
    rwa [wp_of_ok hdrop]
  | error e s' =>
    rw [wp_of_error hx] at hs
    cases e with
    -- an error of the socket drops the queue of the futures, another one leaves it
    | zmqError =>
      have hdrop : dropOnError x s = .error .zmqError s'.drop := by
        unfold dropOnError
        rw [hx]
      rw [wp_of_error hdrop]
      exact hs
    | raised e =>
      have hdrop : dropOnError x s = .error (.raised e) s' := by
        unfold dropOnError
        rw [hx]
      rwa [wp_of_error hdrop]

theorem keeps_recv : Keeps Unsent (recv env) := by
  intro s
  unfold recv
  rw [wp_bind, wp_get, wp_bind, wp_modify]
  split
  · rfl
  · rfl

theorem keeps_receiveOne (current : ℕ) : Keeps Unsent (receiveOne env current) := by
  unfold receiveOne getPacket
  refine keeps_bind (keeps_bind (keeps_dropOnError keeps_recv) fun _ => keeps_pureStatement _)
    fun pck => ?_
  refine keeps_bind (keeps_getFuture current) fun future => ?_
  refine keeps_bind (keeps_pureStatement _) fun _ => ?_
  exact keeps_bind (keeps_pureStatement _) fun value => keeps_modify fun _ => rfl

theorem keeps_receiveFrom (target : ℕ) (l : List ℕ) : Keeps Unsent (receiveFrom env target l) := by
  induction l with
  | nil => exact keeps_throw _
  | cons current pending ih =>
    rw [receiveFrom]
    refine keeps_bind (keeps_modify fun _ => rfl) fun _ => ?_
    exact keeps_bind (keeps_receiveOne current) fun _ => keeps_ite (keeps_pure _) ih

/-- A wait sends nothing. -/
theorem keeps_wait (fut : ℕ) : Keeps Unsent (wait env fut) := by
  have hreceive : Keeps Unsent (receive env fut) := fun s => keeps_receiveFrom fut s.pending s
  have hvalue : Keeps Unsent (do
      let future ← getFuture fut
      return future.value) := keeps_bind (keeps_getFuture fut) fun _ => keeps_pure _
  unfold wait
  refine keeps_bind (keeps_getFuture fut) fun future => ?_
  exact keeps_ite (keeps_bind hreceive fun _ => hvalue) hvalue

/-- A write that is packed sends one request, whatever its answer. -/
theorem sent_after_writeReg {addr : ℕ} {value : WriteValue} {data raw : Bytes}
    (hdata : payload addr value = .ok data)
    (h : (writeRequest env s addr data).encode = .ok raw) :
    (after (writeReg env addr value) s).sent = s.sent ++ [writeRequest env s addr data] := by
  unfold writeReg
  rw [after_bind (writeRegAsync_of_ok hdata h)]
  exact after_of_wp (keeps_wait _ _)

/-- An integer of a register is packed, and decoded again by the server. -/
theorem exists_payload_int {addr k : ℕ} {cs : List Code} {n : ℤ} (hcs : IntFormat cs k)
    (htype : registerType addr = .codes cs) (h : 0 ≤ n ∧ n < 256 ^ k) : ∃ data,
    payload addr (.int n) = .ok data ∧ data.length = 4 ∧ decodeReg addr data = .ok (.int n) := by
  obtain ⟨data, hdata⟩ := (encodeReg_int_iff hcs htype).mpr h
  have hlen := length_encodeReg hdata
  refine ⟨data, hdata, hlen, ?_⟩
  rw [encodeReg_of_type htype] at hdata
  rw [decodeReg, htype, RegisterType.format, ok_bind, unpack_pack_int hcs hdata]
  rfl

/-- The server decodes the value of a write of one register. -/
theorem valuesIn_writeRequest (env : Env) (s : State) {addr : ℕ} {data : Bytes} {v : Value}
    (hlen : data.length = 4) (hdecode : decodeReg addr data = .ok v) :
    registerNumber (writeRequest env s addr data) = 1 ∧
      valuesIn (writeRequest env s addr data) = .ok [v] := by
  have hnumber : registerNumber (writeRequest env s addr data) = 1 := by
    show data.length / 4 = 1
    rw [hlen]
  refine ⟨hnumber, ?_⟩
  rw [valuesIn, if_pos ⟨Nat.one_ne_zero, by rw [hnumber]; exact Nat.one_ne_zero⟩, addresses,
    hnumber]
  show decodeRegs [addr] data = _
  rw [decodeRegs, List.take_of_length_le hlen.le, hdecode]
  rfl

end Sent

/-! ## What a call does -/

section Call

variable {env : Env} {server : Fpga.Env} {call : PowerCall} {outs outs' : Outputs}

theorem PowerCall.value_lt (call : PowerCall) : call.value < 256 ^ 2 := by
  have hmode : (if call.enable then dacOen else dacHighZ) < 2 ^ 16 := by
    split
    · decide
    · decide
  have hvalue : call.value < 2 ^ 16 := Nat.or_lt_two_pow hmode (call.lt.trans (by omega))
  omega

theorem PowerCall.run_eq (call : PowerCall) (env : Env) :
    call.run env = writeReg env dacEnable (.int call.value) := by
  unfold PowerCall.run PowerCall.value
  cases call.enable with
  | true =>
    unfold enableOutput
    rw [if_pos rfl, if_pos rfl]
  | false =>
    unfold disableOutput
    rw [if_neg Bool.false_ne_true, if_neg Bool.false_ne_true]

/-- A request that is served to the end goes through. -/
theorem exists_served {req : FPGAMapRequestPacket} {s : Loop × World} {Q : World → Prop}
    (hreq : req.Valid)
    (h : Ensures (serve server req s.1.regBuffer) (fun _ world' => Q world') s.2) :
    ∃ s', served server s req = some s' ∧ Q s'.2 := by
  obtain ⟨raw, hencode⟩ : ∃ raw, req.encode = .ok raw := ⟨_, hreq.encode_eq⟩
  have hiteration : Ensures (iteration server s.1 (.message raw)) (fun _ world' => Q world') s.2 :=
    (wp_iteration_message (FPGAMapRequestPacket.decode_encode hreq hencode)).mpr h
  obtain ⟨loop', world', hserved, hq⟩ := ensures_iff.mp hiteration
  refine ⟨(loop', world'), ?_, hq⟩
  unfold served
  rw [hencode]
  dsimp only
  rw [hserved]

/-- **A call hands its value to the DACs.** -/
theorem System.exists_step (env : Env) (server : Fpga.Env) (s : System) (call : PowerCall) :
    ∃ s', System.step env server s call = some s' ∧ s'.commanded = call.command s.commanded ∧
      ∀ initial, outputs initial s'.world = enabled call.value (outputs initial s.world) := by
  obtain ⟨data, hdata, hlen, hdecode⟩ := exists_payload_int .short
    (show registerType dacEnable = .codes _ by decide)
    ⟨Int.natCast_nonneg call.value, by exact_mod_cast call.value_lt⟩
  have hvalid : (writeRequest env s.client dacEnable data).Valid :=
    valid_writeRequest (by decide) (by omega) (by omega)
  obtain ⟨hnumber, hvalues⟩ := valuesIn_writeRequest env s.client hlen hdecode
  obtain ⟨⟨loop', world'⟩, hserved, hsends⟩ := exists_served (s := (s.loop, s.world)) hvalid
    (show Ensures (serve server _ _) _ _ from
      ensures_serve_dacEnable hvalid rfl hnumber hvalues)
  have hsent := sent_after_writeReg hdata hvalid.encode_eq
  refine ⟨⟨after (call.run env) s.client, loop', world', call.command s.commanded⟩, ?_, rfl,
    fun initial => outputs_append hsends⟩
  unfold System.step
  dsimp only
  rw [call.run_eq, hsent, List.drop_left, List.foldlM_cons, hserved]
  rfl

/-! ## Which calls follow -/

/-- What a call makes of a channel depends on that channel only. -/
theorem enabled_congr {channel : ℕ} (h : outs channel = outs' channel) :
    enabled call.value outs channel = enabled call.value outs' channel := by
  unfold PowerCall.value
  cases call.enable with
  | true =>
    show enabled (0 ||| call.mask) outs channel = enabled (0 ||| call.mask) outs' channel
    rw [Nat.zero_or, enabled_oen call.lt, enabled_oen call.lt, h]
  | false =>
    show enabled (0x300 ||| call.mask) outs channel = enabled (0x300 ||| call.mask) outs' channel
    rw [enabled_highZ call.lt, enabled_highZ call.lt, h]

/-- Two halves of a mask by their bits. -/
theorem halves_mask : ∀ mask < 256, (mask &&& 0x0F = 0 ↔ ∀ i < 4, mask.testBit i = false) ∧
    (mask &&& 0x30 = 0 ↔ Mode.ofBits (mask >>> 4 &&& 0b11) = .normal) := by
  decide +kernel

/-- An enabled mask does what it says. -/
theorem enables_iff {mask : ℕ} (hmask : mask < 256) :
    (∀ channel < 8, enabled mask outs channel =
      if mask.testBit channel then .normal else outs channel) ↔
      (mask &&& 0x0F = 0 ∨ mask &&& 0x30 = 0) ∧
        ∀ channel, 4 ≤ channel → channel < 8 → mask.testBit channel → outs channel = .normal := by
  obtain ⟨hlow, hmode⟩ := halves_mask mask hmask
  simp only [enabled_oen hmask, hlow, hmode]
  constructor
  · intro h
    refine ⟨?_, fun channel hle hlt hbit => ?_⟩
    · by_contra hnot
      obtain ⟨hbits, hne⟩ := not_or.mp hnot
      simp only [not_forall, Bool.not_eq_false] at hbits
      obtain ⟨i, hi, hbit⟩ := hbits
      have hnormal := h i (by omega)
      rw [if_pos ⟨hi, hbit⟩, if_pos hbit] at hnormal
      exact hne hnormal
    -- the second DAC hears nothing, and its channels stay as they are
    · have hnormal := h channel hlt
      rwa [if_neg (by omega), if_pos hbit] at hnormal
  · rintro ⟨hfirst, hsecond⟩ channel hlt
    by_cases hbit : mask.testBit channel
    · rw [if_pos hbit]
      by_cases hthr : channel < 4
      · rw [if_pos ⟨hthr, hbit⟩]
        refine hfirst.resolve_left fun hnone => ?_
        rw [hnone channel hthr] at hbit
        cases hbit
      · rw [if_neg fun h => hthr h.1]
        exact hsecond channel (by omega) hlt hbit
    · rw [if_neg fun h => hbit h.2, if_neg hbit]

/-- A disabled mask does what it says. -/
theorem disables_iff {mask : ℕ} (hmask : mask < 256) :
    (∀ channel < 8, enabled (0x300 ||| mask) outs channel =
      if mask.testBit channel then .highImpedance else outs channel) ↔
      (∀ channel, 4 ≤ channel → channel < 6 → mask.testBit channel ∨
        outs channel = .highImpedance) ∧
        ∀ channel, 6 ≤ channel → channel < 8 → mask.testBit channel →
          outs channel = .highImpedance := by
  simp only [enabled_highZ hmask]
  constructor
  · intro h
    refine ⟨fun channel hle hlt => ?_, fun channel hle hlt hbit => ?_⟩
    · by_cases hbit : mask.testBit channel
      · exact .inl hbit
      · have hsame := h channel (by omega)
        rw [if_pos (by omega), if_neg hbit] at hsame
        exact .inr hsame.symm
    · have hsame := h channel hlt
      rwa [if_neg (by omega), if_pos hbit] at hsame
  · rintro ⟨hfirst, hlast⟩ channel hlt
    by_cases hbit : mask.testBit channel
    · rw [if_pos hbit]
      split
      · rfl
      · next hnot =>
        refine hlast channel ?_ hlt hbit
        by_contra hless
        have hcases : channel = 4 ∨ channel = 5 ∨ channel < 4 := by omega
        exact hnot (hcases.imp_right (Or.imp_right fun h => ⟨h, hbit⟩))
    · rw [if_neg hbit]
      split
      · next hor =>
        rcases hor with rfl | rfl | ⟨-, hbit'⟩
        · exact ((hfirst 4 (by decide) (by decide)).resolve_left hbit).symm
        · exact ((hfirst 5 (by decide) (by decide)).resolve_left hbit).symm
        · exact absurd hbit' hbit
      · rfl

/-- A call does what it is for exactly when it follows. -/
theorem PowerCall.follows_iff (call : PowerCall) (outs : Outputs) :
    (∀ channel < 8, enabled call.value outs channel = call.command outs channel) ↔
      call.Follows outs := by
  unfold PowerCall.Follows PowerCall.command PowerCall.value PowerCall.mode
  cases call.enable with
  | true =>
    simp only [if_true, dacOen, Nat.zero_shiftLeft, Nat.zero_or]
    exact enables_iff call.lt
  | false =>
    simp only [Bool.false_eq_true, if_false]
    exact disables_iff call.lt

end Call

/-! ## Runs -/

/-- A client and the server whose outputs are in the modes that are taken as commanded. -/
def System.start (client : State) (loop : Loop) (world : World) (initial : Outputs) : System :=
  ⟨client, loop, world, outputs initial world⟩

/-- A call changes no channel outside its mask. -/
def Confined (env : Env) (server : Fpga.Env) (initial : Outputs) (s : System) (call : PowerCall) :
    Prop :=
  ∀ s', System.step env server s call = some s' → ∀ channel < 8, ¬ call.mask.testBit channel →
    outputs initial s'.world channel = outputs initial s.world channel

section Runs

variable {env : Env} {server : Fpga.Env} {initial : Outputs} {s s' : System} {call : PowerCall}

/-- Outputs that are in step are so behind a call exactly when it follows. -/
theorem inStep_step_iff (h : InStep initial s) (hstep : System.step env server s call = some s') :
    InStep initial s' ↔ call.Follows s.commanded := by
  obtain ⟨s'', hstep', hcommanded, houtputs⟩ := System.exists_step env server s call
  obtain rfl := Option.some.inj (hstep.symm.trans hstep')
  rw [← call.follows_iff]
  unfold InStep
  rw [hcommanded, houtputs initial]
  refine forall₂_congr fun channel hlt => ?_
  rw [enabled_congr (h channel hlt)]

/-- Each call is served. -/
theorem isSome_step (env : Env) (server : Fpga.Env) (s : System) (call : PowerCall) :
    (System.step env server s call).isSome := by
  obtain ⟨s', hstep, -⟩ := System.exists_step env server s call
  exact Option.isSome_of_eq_some hstep

/-- Outputs that are in step before and behind a call have changed in its mask only. -/
theorem confined_of_inStep (h : InStep initial s)
    (hnext : ∀ s', System.step env server s call = some s' → InStep initial s') :
    Confined env server initial s call := by
  intro s' hstep channel hlt hbit
  obtain ⟨s'', hstep', hcommanded, -⟩ := System.exists_step env server s call
  obtain rfl := Option.some.inj (hstep.symm.trans hstep')
  rw [hnext s' hstep channel hlt, hcommanded, h channel hlt]
  exact if_neg hbit

end Runs

/-- **Throughout a run, each channel is in the mode of the last call whose mask contains it, and no
call changes another one, if and only if each call follows.** -/
theorem inStep_iff (env : Env) (server : Fpga.Env) (initial : Outputs) (client : State)
    (loop : Loop) (world : World) (calls : List PowerCall) :
    (Machine.run (System.step env server) (System.start client loop world initial) calls).isSome ∧
      (Machine.Always (System.step env server) (InStep initial)
          (System.start client loop world initial) calls ∧
        Machine.Along (System.step env server) (Confined env server initial)
          (System.start client loop world initial) calls ↔
      Machine.Along (System.step env server) (fun s call => call.Follows s.commanded)
        (System.start client loop world initial) calls) := by
  have hrun := Machine.isSome_run (isSome_step env server) (System.start client loop world initial)
    calls
  have hstart : InStep initial (System.start client loop world initial) := fun _ _ => rfl
  have hiff : Machine.Always (System.step env server) (InStep initial)
        (System.start client loop world initial) calls ↔
      Machine.Along (System.step env server) (fun s call => call.Follows s.commanded)
        (System.start client loop world initial) calls :=
    Machine.always_iff_along (fun _ h => h)
      (fun s call s' h hfollows hstep => (inStep_step_iff h hstep).mpr hfollows)
      (fun s call s' h hnot hstep hnext => hnot ((inStep_step_iff h hstep).mp hnext)) hstart hrun
  refine ⟨hrun, ?_⟩
  rw [← hiff]
  exact ⟨fun h => h.1, fun h => ⟨h, h.along fun _ _ => confined_of_inStep⟩⟩

/-- An FPGA that echoes what it gets. -/
def echoes : Fpga.Env where
  reply := fun _ out => ([0, 0] ++ out).take out.length
  length_reply := fun _ out => by
    rw [List.length_take, List.length_append]
    exact Nat.min_eq_left (Nat.le_add_left _ _)
  clock := fun _ => 0
  patience := fun _ => 0

/-- `DAC.disable_output(DAC_BIST_A)`. -/
def disableBistA : PowerCall := ⟨false, 0b00000001, by decide⟩

/-- A server whose answers are in time. -/
def promptServer : Env := constantServer (fun _ => 0) (fun _ => 0) fun _ => true

/-- A new client, a new server, and outputs that are all enabled. -/
def enabledSystem : System := System.start init ⟨none, fun _ => none⟩ ⟨[], []⟩ fun _ => .normal

/-- To disable the first channel disables the first one of the second DAC too. -/
theorem not_inStep_disableBistA :
    ¬ (Machine.Always (System.step promptServer echoes) (InStep fun _ => .normal) enabledSystem
        [disableBistA] ∧
      Machine.Along (System.step promptServer echoes)
        (Confined promptServer echoes fun _ => .normal) enabledSystem [disableBistA]) := by
  rintro ⟨hinStep, -⟩
  have hstart : InStep (fun _ => .normal) enabledSystem := fun _ _ => rfl
  obtain ⟨s', hstep, -⟩ := System.exists_step promptServer echoes enabledSystem disableBistA
  have hfollows := (inStep_step_iff hstart hstep).mp (hinStep.2 s' hstep)
  rcases hfollows.1 4 (by decide) (by decide) with hbit | hdisabled
  · exact absurd hbit (by decide)
  · cases hdisabled

end ClickA.Client
