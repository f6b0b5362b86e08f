import ClickA.Client.Power

/-!
# Reading the DAC channels back

The registers of the DAC channels are virtual: the server keeps no value of them, and answers a
request with the values that it carries. A request that reads carries none, which the server takes
for zeros.

## Main definitions

* `InDacBlock`: the requests of DAC channels
* `lastWritten`, `ReadsLast`: what was last written to a register, and a read that returns it
* `Serves`: a client whose answers are those of the server, and come in time
* `Idle`, `Reached`: a client between its calls

## Main results

* `ensures_serve_dacBlock`: what the server answers to a request of DAC channels
* `readsLast_zero_iff`: a read returns what was last written if and only if that is zero
* `idle_of_reached`: a client is idle behind any calls
* `exists_writeReg_dac`, `exists_readReg_dac`: what the calls of DAC channels return
-/

namespace ClickA.Client

open Python Options Fpga

/-! ## What the server answers -/

/-- A request of DAC channels. -/
def InDacBlock (req : FPGAMapRequestPacket) : Prop :=
  dac1A ≤ req.startAddr ∧ req.startAddr + registerNumber req ≤ dac1A + 8

instance (req : FPGAMapRequestPacket) : Decidable (InDacBlock req) :=
  inferInstanceAs (Decidable (_ ∧ _))

/-- A message is the answer to a request with this data, and no error. -/
def Encodes (req : FPGAMapRequestPacket) (encData raw : Bytes) : Prop :=
  FPGAMapAnswerPacket.encode req.returnAddr req.rqNumber req.rwFlag 0 req.startAddr encData.length
    encData = .ok raw

section Server

variable {req : FPGAMapRequestPacket} {raw encData : Bytes} {values : List Value}

/-- The server answers with the values that the request carries. -/
theorem ensures_serve_dacBlock (hreq : req.Valid) (hblock : InDacBlock req) :
    ∃ values encData, valuesIn req = .ok values ∧ List.Forall₂ DacValue (addresses req) values ∧
      encodeRegs req.startAddr values = .ok encData ∧ ∀ server regs w,
        Ensures (serve server req regs)
          (fun _ w' => ∃ raw, w'.answers = w.answers ++ [raw] ∧ Encodes req encData raw) w := by
  obtain ⟨hstart, hend⟩ := hblock
  unfold dac1A at hstart hend
  obtain ⟨values, hvalues, hall⟩ := valuesIn_dacs hreq (by omega) (by omega)
  have hfits : DacFits req := fun hreset => by
    unfold dacReset at hreset
    omega
  obtain ⟨encData, hencode⟩ := (exists_encodeRegs_dacs_iff (by omega) (by omega) hvalues hall).mpr
    hfits
  have hdrop : 502 - req.startAddr = 0 := by omega
  rw [hdrop, List.drop_zero] at hencode
  refine ⟨values, encData, hvalues, hall, hencode, fun server regs w => ?_⟩
  have hin : req.startAddr ≠ edfaInStr := by
    unfold edfaInStr
    omega
  have hout : req.startAddr ≠ edfaOutStr := by
    unfold edfaOutStr
    omega
  have hpayload : encodePayload req.startAddr (.list values) = .ok encData := by
    rw [encodePayload_list (registerType_ne_str hin hout)]
    exact hencode
  have hsize : encData.length < 2 ^ 32 := by
    have hlen := length_encodeRegs hencode
    have hcount := length_valuesIn hvalues
    omega
  unfold serve
  rw [if_neg hin, if_neg hout, Ensures, wp_bind, hvalues, wp_lift_ok, if_neg (by omega),
    serveVirtual_eq (not_mem_edfa_of_dacs (by omega))]
  refine (ensures_dacLoop (by omega) (by omega) hvalues hall).bind ?_
  rintro ⟨valuesOut, regs'⟩ w₁ ⟨hquiet, rfl⟩
  dsimp only
  rw [hdrop, List.drop_zero]
  have hraw := FPGAMapAnswerPacket.encode_eq req.rwFlag 0 hreq.returnAddr hreq.rqNumber
    hreq.startAddr hsize (length_encodePayload_mod hpayload)
  unfold answer
  rw [Ensures, wp_bind, wp_bind, hpayload, wp_lift_ok, wp_bind, hraw, wp_lift_ok, wp_modify]
  exact ⟨_, congrArg (· ++ _) hquiet, hraw⟩

/-- The number of a register is decoded by the client. -/
theorem decodeOne_encodeReg {addr k : ℕ} {cs : List Code} {n : ℤ} (hcs : IntFormat cs k)
    (htype : registerType addr = .codes cs) (h : encodeReg addr (.int n) = .ok raw) :
    decodeOne addr raw = .ok (.int n) := by
  rw [encodeReg_of_type htype] at h
  rw [decodeOne, htype, RegisterType.format, ok_bind, unpack_pack_int hcs h, ok_bind,
    index_cons_zero]

theorem decodeList_encodeRegs {start : ℕ} (hstart : 502 ≤ start)
    (hend : start + values.length ≤ 510) (hints : ∀ v ∈ values, ∃ n : ℕ, v = .int n)
    (h : encodeRegs start values = .ok raw) :
    decodeList start values.length raw = .ok values := by
  induction values generalizing start raw with
  | nil => rfl
  | cons v values ih =>
    obtain ⟨⟨n, rfl⟩, hrests⟩ := List.forall_mem_cons.mp hints
    rw [List.length_cons] at hend
    rw [encodeRegs] at h
    obtain ⟨first, hfirst, h⟩ := bind_eq_ok.mp h
    obtain ⟨rest, hrest, h⟩ := bind_eq_ok.mp h
    obtain rfl := Except.ok.inj h
    have hlen := length_encodeReg hfirst
    obtain ⟨cs, hcs, htype⟩ := exists_intFormat (show 499 ≤ start ∧ start < 510 by omega)
    rw [List.length_cons, decodeList, List.take_left' hlen, List.drop_left' hlen,
      decodeOne_encodeReg hcs htype hfirst, ok_bind, ih (by omega) (by omega) hrests hrest]
    rfl

/-- What a client gets for some values. -/
def regValue : List Value → RegValue
  | [] => .none
  | [v] => .single v
  | vs => .list vs

/-- The client gets the values that the server answers with. -/
theorem decodePayload_dacBlock (hblock : InDacBlock req) (hvalues : valuesIn req = .ok values)
    (hall : List.Forall₂ DacValue (addresses req) values)
    (hencode : encodeRegs req.startAddr values = .ok encData) (rwFlag : ℕ) :
    decodePayload ⟨req.returnAddr, req.rqNumber, rwFlag, 0, req.startAddr, encData.length,
      encData⟩ = .ok (regValue values) := by
  obtain ⟨hstart, hend⟩ := hblock
  unfold dac1A at hstart hend
  have hints : ∀ v ∈ values, ∃ n : ℕ, v = .int n := by
    intro v hv
    obtain ⟨i, hi, rfl⟩ := List.getElem_of_mem hv
    obtain ⟨n, hn, -⟩ := hall.get (hall.length_eq ▸ hi) hi
    exact ⟨n, hn⟩
  have hlen := length_encodeRegs hencode
  have hcount := length_valuesIn hvalues
  have hlist := decodeList_encodeRegs hstart (by omega) hints hencode
  have htype : registerType req.startAddr ≠ .str := registerType_ne_str
    (by unfold edfaInStr; omega) (by unfold edfaOutStr; omega)
  unfold decodePayload
  dsimp only
  rcases values with _ | ⟨v, _ | ⟨v', values⟩⟩
  · rw [if_pos (by simpa using hlen)]
    rfl
  · have hone : decodeOne req.startAddr encData = .ok v := by
      have hfour : encData.take 4 = encData := List.take_of_length_le (by
        rw [hlen, List.length_singleton])
      rw [List.length_singleton, decodeList, hfour] at hlist
      obtain ⟨v', hv', hrest⟩ := bind_eq_ok.mp hlist
      obtain ⟨vs, -, hcons⟩ := bind_eq_ok.mp hrest
      obtain ⟨rfl, -⟩ := List.cons_eq_cons.mp (Except.ok.inj hcons)
      exact hv'
    rw [List.length_singleton] at hlen
    rw [if_neg (by omega), if_neg htype, if_neg (by omega), hone]
    rfl
  · rw [List.length_cons, List.length_cons] at hlen hlist
    rw [if_neg (by omega), if_neg htype, if_pos (by omega),
      show encData.length / 4 = values.length + 1 + 1 by omega, hlist]
    rfl

end Server

/-! ## Histories of writes -/

/-- The value that a request carries for a register. -/
def carried (req : FPGAMapRequestPacket) (addr : ℕ) : Option ℤ :=
  match valuesIn req with
  | .ok values =>
    match values[addr - req.startAddr]? with
    | some (.int n) => if req.startAddr ≤ addr then some n else none
    | _ => none
  | .error _ => none

/-- The last value that requests carry for a register. -/
def lastWritten (writes : List FPGAMapRequestPacket) (addr : ℕ) : Option ℤ :=
  writes.foldl (fun last req => (carried req addr).or last) none

/-- A write of DAC channels. -/
structure DacWrite (req : FPGAMapRequestPacket) : Prop where
  valid : req.Valid
  writes : req.rwFlag = 1
  block : InDacBlock req

/-- A read of one DAC channel. -/
structure DacRead (req : FPGAMapRequestPacket) : Prop where
  valid : req.Valid
  reads : req.rwFlag = 0
  size : req.size = 4
  block : InDacBlock req

/-- The server serves some writes and a read, and the client gets the last value that was written
to the register, if there is one. -/
def ReadsLast (server : Fpga.Env) (s : Loop × World) (writes : List FPGAMapRequestPacket)
    (req : FPGAMapRequestPacket) : Prop :=
  ∃ s' s'' raw pck v, writes.foldlM (served server) s = some s' ∧
    served server s' req = some s'' ∧ s''.2.answers = s'.2.answers ++ [raw] ∧
      FPGAMapAnswerPacket.decode raw = .ok pck ∧ decodePayload pck = .ok (.single (.int v)) ∧
        ∀ n, lastWritten writes req.startAddr = some n → v = n

section History

variable {server : Fpga.Env} {req : FPGAMapRequestPacket} {writes : List FPGAMapRequestPacket}

/-- What is encoded is decoded. -/
theorem Encodes.decode {encData raw : Bytes} (h : Encodes req encData raw) (hreq : req.Valid)
    (hmod : encData.length % 4 = 0) :
    FPGAMapAnswerPacket.decode raw = .ok
      ⟨req.returnAddr, req.rqNumber, req.rwFlag, 0, req.startAddr, encData.length, encData⟩ := by
  have hrw : req.rwFlag % 2 = req.rwFlag := by
    rcases hreq.rwFlag with hread | hwrite
    · rw [hread]
    · rw [hwrite]
  have hdecode := FPGAMapAnswerPacket.decode_encode hmod h
  rwa [hrw] at hdecode

/-- A request that reads carries zeros. -/
theorem valuesIn_read (h : req.rwFlag = 0) :
    valuesIn req = .ok (List.replicate (registerNumber req) (.int 0)) :=
  if_neg fun hwrite => hwrite.1 h

/-- The client reads a message as an answer with these values. -/
def Gives (req : FPGAMapRequestPacket) (values : List Value) (raw : Bytes) : Prop :=
  ∃ pck, FPGAMapAnswerPacket.decode raw = .ok pck ∧ pck.startAddr = req.startAddr ∧
    pck.rqNumber = req.rqNumber ∧ pck.rwFlag = req.rwFlag ∧ pck.error = 0 ∧
      decodePayload pck = .ok (regValue values)

/-- **The client gets the values that its request carries.** -/
theorem ensures_serve_gives (hreq : req.Valid) (hblock : InDacBlock req) :
    ∃ values, valuesIn req = .ok values ∧ ∀ server regs w, Ensures (serve server req regs)
      (fun _ w' => ∃ raw, w'.answers = w.answers ++ [raw] ∧ Gives req values raw) w := by
  obtain ⟨values, encData, hvalues, hall, hencode, hserve⟩ := ensures_serve_dacBlock hreq hblock
  refine ⟨values, hvalues, fun server regs w => (hserve server regs w).imp ?_⟩
  rintro _ w' ⟨raw, hanswers, hraw⟩
  have hmod : encData.length % 4 = 0 := by
    rw [length_encodeRegs hencode, Nat.mul_mod_right]
  exact ⟨raw, hanswers, _, hraw.decode hreq hmod, rfl, rfl, rfl, rfl,
    decodePayload_dacBlock hblock hvalues hall hencode _⟩

/-- Each write is served. -/
theorem exists_served_writes (server : Fpga.Env) (h : ∀ req ∈ writes, DacWrite req)
    (s : Loop × World) :
    ∃ s', writes.foldlM (served server) s = some s' := by
  induction writes generalizing s with
  | nil => exact ⟨s, rfl⟩
  | cons req writes ih =>
    obtain ⟨hfirst, hrest⟩ := List.forall_mem_cons.mp h
    obtain ⟨values, -, hserve⟩ := ensures_serve_gives hfirst.valid hfirst.block
    obtain ⟨s₁, hserved, -⟩ := exists_served hfirst.valid (hserve server _ s.2)
    rw [List.foldlM_cons, hserved]
    exact ih hrest s₁

/-- **After any writes, a read of a DAC channel returns what was last written to it exactly when
that is zero.** -/
theorem readsLast_zero_iff (hwrites : ∀ req ∈ writes, DacWrite req) (hread : DacRead req)
    (s : Loop × World) : ReadsLast server s writes req ↔
      ∀ n, lastWritten writes req.startAddr = some n → n = 0 := by
  have hnumber : registerNumber req = 1 := by
    unfold registerNumber
    rw [hread.size]
  obtain ⟨values, hvalues, hserve⟩ := ensures_serve_gives hread.valid hread.block
  -- the read carries a zero, and this is what is answered
  obtain rfl := Except.ok.inj (hvalues.symm.trans (valuesIn_read hread.reads))
  rw [hnumber] at hserve
  obtain ⟨s', hs'⟩ := exists_served_writes server hwrites s
  obtain ⟨s'', hs'', raw, hanswers, pck, hpck, -, -, -, -, hvalue⟩ :=
    exists_served hread.valid (hserve server _ s'.2)
  constructor
  · rintro ⟨t', t'', raw', pck', v, ht', ht'', hanswers', hpck', hvalue', hlast⟩ n hn
    obtain rfl := Option.some.inj (hs'.symm.trans ht')
    obtain rfl := Option.some.inj (hs''.symm.trans ht'')
    obtain rfl : raw = raw' := by simpa using hanswers.symm.trans hanswers'
    obtain rfl := Except.ok.inj (hpck.symm.trans hpck')
    have hzero := Except.ok.inj (hvalue.symm.trans hvalue')
    simp only [List.replicate_one, regValue, RegValue.single.injEq, Value.int.injEq] at hzero
    rw [← hlast n hn, hzero]
  · intro hzero
    exact ⟨s', s'', raw, pck, 0, hs', hs'', hanswers, hpck, hvalue,
      fun n hn => (hzero n hn).symm⟩

end History

/-! ## A client between its calls -/

/-- The answers come in time, and those to requests of DAC channels are what the server answers, in
whatever state it is. -/
structure Serves (env : Env) (server : Fpga.Env) : Prop where
  prompt : ∀ n, env.arrives n = true
  reply : ∀ i req, req.Valid → InDacBlock req → ∃ s s', served server s req = some s' ∧
    s'.2.answers = s.2.answers ++ [env.reply i req]

/-- A client that waits for no answer. -/
structure Idle (s : State) : Prop extends Queued s where
  none : s.pending = []
  read : s.read = s.sent.length

/-- A call of a method that waits for its answer. -/
inductive SyncCall
  | readReg (addr size : ℕ)
  | writeReg (addr : ℕ) (value : WriteValue)

def SyncCall.run (env : Env) : SyncCall → ClientM RegValue
  | readReg addr size => Client.readReg env addr size
  | writeReg addr value => Client.writeReg env addr value

/-- A client behind such calls, whose exceptions are caught. -/
def Reached (env : Env) (s : State) : Prop :=
  ∃ calls : List SyncCall, s = calls.foldl (fun s call => after (call.run env) s) init

section Calls

-- a goal about a call is not computed
attribute [local irreducible] FPGAMapRequestPacket.encode payload receiveOne

variable {env : Env} {server : Fpga.Env} {s : State} {req : FPGAMapRequestPacket} {addr size : ℕ}
  {value : WriteValue} {Q : ℕ → State → Prop} {E : Fault → State → Prop}

theorem wp_sendRequest {requestNumber rwFlag : ℕ} {data : Bytes} (herror : ∀ e, E e s)
    (hok : ∀ req, req.Valid → Q s.futures.length (s.requested req)) :
    Wp (sendRequest env requestNumber addr rwFlag size data) Q E s := by
  cases hencode : FPGAMapRequestPacket.encode
      ⟨env.pid, requestNumber, rwFlag, addr, size, data⟩ with
  | error e =>
    rw [wp_of_error (sendRequest_of_error hencode)]
    exact herror _
  | ok raw =>
    rw [wp_of_ok (sendRequest_of_ok hencode)]
    exact hok _ (FPGAMapRequestPacket.valid_of_encode hencode)

/-- A call takes a token, and may send a request. -/
theorem wp_readRegAsync (herror : ∀ e, E e s.ticked)
    (hok : ∀ req, req.Valid → Q s.futures.length (s.ticked.requested req)) :
    Wp (readRegAsync env addr size) Q E s := by
  unfold readRegAsync
  rw [wp_bind, wp_of_ok (getToken_eq s)]
  exact wp_sendRequest herror hok

theorem wp_writeRegAsync (herror : ∀ e, E e s.ticked)
    (hok : ∀ req, req.Valid → Q s.futures.length (s.ticked.requested req)) :
    Wp (writeRegAsync env addr value) Q E s := by
  unfold writeRegAsync
  rw [wp_bind, wp_of_ok (getToken_eq s), wp_bind]
  cases payload addr value with
  | error e => exact herror _
  | ok data => exact wp_sendRequest herror hok

theorem idle_init : Idle init := ⟨queued_init, rfl, rfl⟩

theorem Idle.ticked (h : Idle s) : Idle s.ticked := ⟨h.toQueued.ticked, h.none, h.read⟩

/-- The one future of the queue is taken from it. -/
theorem Idle.popped (h : Idle s) (hreq : req.Valid) :
    (s.requested req).pending = [s.futures.length] ∧
      Popped s.futures.length { s.requested req with pending := [] } := by
  have hpending : (s.requested req).pending = [s.futures.length] := by
    show s.pending ++ [s.futures.length] = [s.futures.length]
    rw [h.none, List.nil_append]
  exact ⟨hpending, (h.toQueued.requested hreq).popped hpending⟩

/-- The answer to the one request that was sent leaves the client idle. -/
theorem Idle.answered (h : Idle s) (hreq : req.Valid) :
    Idle { s.requested req with pending := [] }.answered := by
  refine ⟨(h.popped hreq).2.answered, rfl, ?_⟩
  show s.read + 1 = (s.sent ++ [req]).length
  rw [List.length_append, List.length_singleton, h.read]

theorem Idle.valued (h : Idle s) (fut : ℕ) (v : RegValue) : Idle (s.valued fut v) :=
  ⟨h.toQueued.valued fut v, h.none, h.read⟩

/-- A wait for the one request that was sent leaves the client idle, whatever it gets. -/
theorem Idle.wp_wait (h : Idle s) (hprompt : ∀ n, env.arrives n = true) (hreq : req.Valid) :
    Wp (wait env s.futures.length) (fun _ s' => Idle s') (fun _ s' => Idle s')
      (s.requested req) := by
  obtain ⟨hpending, hpopped⟩ := h.popped hreq
  have hfuture : (s.requested req).futures[s.futures.length]? = some (futureOf req) :=
    List.getElem?_concat_length
  have hround : Wp (receiveOne env s.futures.length)
      (fun _ s' => Idle s' ∧ ∃ future, s'.futures[s.futures.length]? = some future)
      (fun _ s' => Idle s') { s.requested req with pending := [] } := by
    refine wp_receiveOne hpopped ?_ ?_
    · intro hlate
      exact absurd (hlate.symm.trans (hprompt _)) Bool.false_ne_true
    · intro _ req' future pck v _ _ hfuture' _ _
      refine ⟨fun _ => h.answered hreq, fun _ _ => h.answered hreq, fun _ _ => ⟨?_, ?_⟩⟩
      · exact (h.answered hreq).valued _ v
      · rw [getElem?_valued, show State.futures _ = _ from rfl]
        exact ⟨_, congrArg (Option.map _) hfuture'⟩
  refine wp_wait_value ?_ ?_ ?_
  · intro hnone
    rw [hfuture] at hnone
    cases hnone
  · intro future hsome hvalid
    obtain rfl := Option.some.inj (hfuture.symm.trans hsome)
    cases hvalid
  · intro future hsome hvalid
    unfold receive
    rw [wp_bind, wp_get, hpending, receiveFrom, wp_bind, wp_modify, wp_bind]
    refine hround.mono ?_ fun _ _ hidle => hidle
    rintro _ s' ⟨hidle, future', hfuture'⟩
    rw [if_pos rfl]
    exact ⟨future', hfuture', hidle⟩

/-- A call leaves the client idle. -/
theorem Idle.call (h : Idle s) (hprompt : ∀ n, env.arrives n = true) (call : SyncCall) :
    Idle (after (call.run env) s) := by
  apply after_of_wp
  cases call with
  | readReg addr size =>
    show Wp (readReg env addr size) _ _ s
    unfold readReg
    rw [wp_bind]
    exact wp_readRegAsync (fun _ => h.ticked) fun req hreq => h.ticked.wp_wait hprompt hreq
  | writeReg addr value =>
    show Wp (writeReg env addr value) _ _ s
    unfold writeReg
    rw [wp_bind]
    exact wp_writeRegAsync (fun _ => h.ticked) fun req hreq => h.ticked.wp_wait hprompt hreq

/-- **A client is idle behind any calls.** -/
theorem idle_of_reached (hprompt : ∀ n, env.arrives n = true) (h : Reached env s) : Idle s := by
  obtain ⟨calls, rfl⟩ := h
  induction calls using List.reverseRecOn with
  | nil => exact idle_init
  | append_singleton calls call ih =>
    rw [List.foldl_append]
    exact ih.call hprompt call

/-- The answer to a request of DAC channels gives the values that it carries. -/
theorem Serves.gives (h : Serves env server) (i : ℕ) (hreq : req.Valid) (hblock : InDacBlock req) :
    ∃ values, valuesIn req = .ok values ∧ Gives req values (env.reply i req) := by
  obtain ⟨values, hvalues, hserve⟩ := ensures_serve_gives hreq hblock
  obtain ⟨t, t', ht', hreply⟩ := h.reply i req hreq hblock
  obtain ⟨t'', ht'', raw, hraw, hgives⟩ := exists_served hreq (hserve server _ t.2)
  obtain rfl := Option.some.inj (ht'.symm.trans ht'')
  obtain rfl : env.reply i req = raw := by simpa using hreply.symm.trans hraw
  exact ⟨values, hvalues, hgives⟩

/-- A wait for the one request that was sent gets the values that its answer gives. -/
theorem Idle.wait_of_gives (h : Idle s) (hprompt : ∀ n, env.arrives n = true) (hreq : req.Valid)
    {values : List Value} (hgives : Gives req values (env.reply s.read req)) :
    ∃ s', wait env s.futures.length (s.requested req) = .ok (regValue values) s' ∧ Idle s' := by
  obtain ⟨pck, hpck, haddr, hrq, hrw, herror, hv⟩ := hgives
  have hfuture : (s.requested req).futures[s.futures.length]? = some (futureOf req) :=
    List.getElem?_concat_length
  have hsent : (s.requested req).sent[(s.requested req).read]? = some req := by
    show (s.sent ++ [req])[s.read]? = some req
    rw [h.read, List.getElem?_concat_length]
  exact ⟨_, wait_of_answer (h.popped hreq).1 hfuture rfl (hprompt _) hsent ⟨rfl, rfl, rfl⟩ hpck
    haddr hrq hrw herror hv, (h.answered hreq).valued _ _⟩

/-- A write of DAC channels returns, and leaves the client idle. -/
theorem exists_writeReg_dac (hserves : Serves env server) (h : Idle s) {startAddr : ℕ}
    {writeData : List ℤ} (hstart : dac1A ≤ startAddr)
    (hend : startAddr + writeData.length ≤ dac1A + 8)
    (hfits : ∀ n ∈ writeData, 0 ≤ n ∧ n < 2 ^ 16) :
    ∃ fut s₁ v s₂, writeRegAsync env startAddr (.list writeData) s = .ok fut s₁ ∧
      wait env fut s₁ = .ok v s₂ ∧ Idle s₂ := by
  unfold dac1A at hstart hend
  have hrange : AllInRange startAddr (writeData.map .int) := by
    intro i hi
    rw [List.length_map] at hi
    rw [List.getElem_map]
    obtain ⟨hnonneg, hlt⟩ := hfits _ (List.getElem_mem hi)
    have hmem : startAddr + i ∈ dacBlock := by
      unfold dacBlock dac1A
      rw [List.mem_range'_1]
      omega
    exact .int .short (registerType_dac _ hmem) ⟨hnonneg, by omega⟩
  obtain ⟨data, -, hdata, -⟩ := hrange.exists_encodeRegs
  have hlen := length_encodeRegs hdata
  rw [List.length_map] at hlen
  rw [← payload_list hrange] at hdata
  have hreq : (writeRequest env s startAddr data).Valid :=
    valid_writeRequest (by omega) (by omega) (by omega)
  have hblock : InDacBlock (writeRequest env s startAddr data) := by
    unfold InDacBlock registerNumber writeRequest dac1A
    dsimp only
    omega
  obtain ⟨values, -, hgives⟩ := hserves.gives s.ticked.read hreq hblock
  obtain ⟨s₂, hwait, hidle⟩ := h.ticked.wait_of_gives hserves.prompt hreq hgives
  exact ⟨_, _, _, s₂, writeRegAsync_of_ok hdata hreq.encode_eq, hwait, hidle⟩

/-- A read of DAC channels returns zeros. -/
theorem exists_readReg_dac (hserves : Serves env server) (h : Idle s) {startAddr numRegisters : ℕ}
    (hstart : dac1A ≤ startAddr) (hend : startAddr + numRegisters ≤ dac1A + 8) :
    ∃ fut s₁ s₂, readRegAsync env startAddr numRegisters s = .ok fut s₁ ∧
      wait env fut s₁ = .ok (regValue (List.replicate numRegisters (.int 0))) s₂ ∧ Idle s₂ := by
  unfold dac1A at hstart hend
  let req : FPGAMapRequestPacket := ⟨env.pid, s.ticked.token, 0, startAddr, numRegisters * 4, []⟩
  have htoken : s.ticked.token < 255 := Nat.mod_lt _ (by decide)
  have hreq : req.Valid := ⟨env.pid_lt, htoken.trans (by decide), .inl rfl,
    (by omega : startAddr < 2 ^ 16), (by omega : numRegisters * 4 < 2 ^ 32), fun _ => rfl,
    fun hwrite => absurd hwrite Nat.zero_ne_one⟩
  have hnumber : registerNumber req = numRegisters := Nat.mul_div_cancel _ (by decide)
  have hblock : InDacBlock req := by
    unfold InDacBlock dac1A
    rw [hnumber]
    exact ⟨hstart, hend⟩
  have hasync : readRegAsync env startAddr numRegisters s =
      .ok s.futures.length (s.ticked.requested req) := by
    unfold readRegAsync
    rw [bind_of_ok (getToken_eq s)]
    exact sendRequest_of_ok hreq.encode_eq
  obtain ⟨values, hvalues, hgives⟩ := hserves.gives s.ticked.read hreq hblock
  obtain rfl := Except.ok.inj (hvalues.symm.trans (valuesIn_read rfl))
  rw [hnumber] at hgives
  obtain ⟨s₂, hwait, hidle⟩ := h.ticked.wait_of_gives hserves.prompt hreq hgives
  exact ⟨_, _, s₂, hasync, hwait, hidle⟩

end Calls

/-! ## Such a client -/

/-- The values that a request carries. -/
def carriedData (req : FPGAMapRequestPacket) : Payload :=
  match valuesIn req with
  | .ok values => .list values
  | .error _ => .list []

theorem exists_carriedData {req : FPGAMapRequestPacket} (hreq : req.Valid)
    (hblock : InDacBlock req) : ∃ encData,
    encodePayload req.startAddr (carriedData req) = .ok encData ∧ encData.length < 2 ^ 32 ∧
      ∀ server regs w, Ensures (serve server req regs)
        (fun _ w' => ∃ raw, w'.answers = w.answers ++ [raw] ∧ Encodes req encData raw) w := by
  obtain ⟨values, encData, hvalues, -, hencode, hserve⟩ := ensures_serve_dacBlock hreq hblock
  obtain ⟨hstart, hend⟩ := hblock
  unfold dac1A at hstart hend
  have hlen := length_encodeRegs hencode
  have hcount := length_valuesIn hvalues
  have htype : registerType req.startAddr ≠ .str := registerType_ne_str
    (by unfold edfaInStr; omega) (by unfold edfaOutStr; omega)
  refine ⟨encData, ?_, by omega, hserve⟩
  unfold carriedData
  rw [hvalues]
  exact (encodePayload_list htype values).trans hencode

theorem one_lt_pidRange : 1 < 2 ^ 32 := by decide

/-- Answers as the server sends them for DAC channels, and with zeros otherwise, in time. -/
def dacServer : Env where
  pid := 1
  pid_lt := one_lt_pidRange
  reply := fun i req =>
    if InDacBlock req then serverReply (carriedData req) 0 req
    else serverReply (constantData (fun _ => 0) i req) 0 req
  serverAnswer := by
    intro i req hreq
    split
    · next hblock =>
      obtain ⟨encData, hencode, hlen, -⟩ := exists_carriedData hreq hblock
      exact ⟨_, 0, encData, hencode, encode_serverReply hreq hencode hlen 0⟩
    · obtain ⟨encData, hencode, hlen⟩ := exists_constantData (fun _ => 0) i req
      exact ⟨_, 0, encData, hencode, encode_serverReply hreq hencode hlen 0⟩
  arrives := fun _ => true

theorem serves_dacServer (server : Fpga.Env) : Serves dacServer server where
  prompt _ := rfl
  reply i req hreq hblock := by
    obtain ⟨encData, hencode, hlen, hserve⟩ := exists_carriedData hreq hblock
    obtain ⟨s', hs', raw, hanswers, hraw⟩ := exists_served
      (s := (⟨none, fun _ => none⟩, ⟨[], []⟩)) hreq (hserve server _ _)
    refine ⟨_, s', hs', ?_⟩
    have hreply : dacServer.reply i req = serverReply (carriedData req) 0 req := if_pos hblock
    rw [hanswers, hreply]
    have hsame := Except.ok.inj (hraw.symm.trans (encode_serverReply hreq hencode hlen 0))
    exact congrArg (_ ++ [·]) hsame

end ClickA.Client
