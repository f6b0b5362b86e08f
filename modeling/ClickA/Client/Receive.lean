import ClickA.Client.Interface
import ClickA.Fpga.Raw

/-!
# What a wait receives

The answer of the server to a request is always decoded, by the fields of the request. A round of a
wait compares them with the future it took from the queue.

## Main definitions

* `Matches`: a request has the fields of a future

## Main results

* `exists_answer`: the answer to a request is decoded
* `receiveOne_timeout`, `receiveOne_answer`: what one round does
-/

namespace ClickA.Client

open Python Options Fpga

/-! ## Answers are decoded -/

section Answers

variable {addr : ℕ}

/-- What is encoded for a register is decoded. -/
theorem exists_decodeOne {value : Value} {raw : Bytes} (h : encodeReg addr value = .ok raw) :
    ∃ v, decodeOne addr raw = .ok v := by
  obtain ⟨fmt, hfmt, hpack⟩ := bind_eq_ok.mp h
  have hlen := length_encodeReg h
  have hunpack : unpack fmt raw = .ok (unpackFrom fmt.native 0 fmt.codes raw) := by
    refine if_pos ?_
    rw [hlen, calcsize_of_format hfmt]
  unfold decodeOne
  rw [hfmt, ok_bind, hunpack, ok_bind]
  rcases known_registerType addr with hstr | ⟨cs, hcs, hcodes⟩
  · rw [hstr] at hfmt
    exact absurd hfmt (by simp [RegisterType.format])
  · rw [hcodes] at hfmt
    obtain rfl := Except.ok.inj hfmt
    unfold formats at hcs
    simp only [List.mem_cons, List.not_mem_nil, or_false] at hcs
    rcases hcs with rfl | rfl | rfl | rfl | rfl
    · exact ⟨_, rfl⟩
    · exact ⟨_, rfl⟩
    · exact ⟨_, rfl⟩
    · exact ⟨_, rfl⟩
    · exact absurd hpack (by simp [pack, packFrom])

theorem exists_decodeList {values : List Value} {raw : Bytes}
    (h : encodeRegs addr values = .ok raw) :
    ∃ vs, decodeList addr values.length raw = .ok vs := by
  induction values generalizing addr raw with
  | nil => exact ⟨[], rfl⟩
  | cons value values ih =>
    rw [encodeRegs] at h
    obtain ⟨first, hfirst, h⟩ := bind_eq_ok.mp h
    obtain ⟨rest, hrest, h⟩ := bind_eq_ok.mp h
    obtain rfl := Except.ok.inj h
    have hlen := length_encodeReg hfirst
    have htake : (first ++ rest).take 4 = first := by rw [← hlen, List.take_left]
    have hdrop : (first ++ rest).drop 4 = rest := by rw [← hlen, List.drop_left]
    obtain ⟨v, hv⟩ := exists_decodeOne hfirst
    obtain ⟨vs, hvs⟩ := ih hrest
    rw [List.length_cons, decodeList, htake, hdrop, hv, ok_bind, hvs, ok_bind]
    exact ⟨v :: vs, rfl⟩

/-- What the server encodes is decoded. -/
theorem exists_decodePayload {data : Payload} {encData : Bytes} {pck : FPGAMapAnswerPacket}
    (h : encodePayload addr data = .ok encData) (haddr : pck.startAddr = addr)
    (hsize : pck.size = encData.length) (hdata : pck.readData = encData) :
    ∃ v, decodePayload pck = .ok v := by
  unfold decodePayload
  rw [haddr, hsize, hdata]
  by_cases hzero : encData.length = 0
  · exact ⟨.none, if_pos hzero⟩
  rw [if_neg hzero]
  cases data with
  | str b =>
    rw [encodePayload] at h
    split at h
    · next hstr =>
      obtain ⟨lstr, hlstr, h⟩ := bind_eq_ok.mp h
      obtain rfl := Except.ok.inj h
      have hlen : lstr.length = 4 := length_of_pack hlstr
      have hslice : slice (lstr ++ padded b) 0 4 = lstr := by
        rw [show ((4 : ℤ)) = ((4 : ℕ) : ℤ) from rfl, slice_zero, ← hlen, List.take_left]
      have hunpack : unpack (native [.I]) lstr = .ok (unpackFrom true 0 [.I] lstr) := by
        refine if_pos ?_
        rw [hlen]
        rfl
      rw [if_pos hstr, hslice, hunpack]
      exact ⟨_, rfl⟩
    · next hstr =>
      rw [if_neg hstr]
      split at h
      · obtain rfl := Except.ok.inj h
        exact absurd rfl hzero
      · have hlen := length_encodeReg h
        obtain ⟨v, hv⟩ := exists_decodeOne h
        rw [if_neg (by omega), hv]
        exact ⟨.single v, rfl⟩
  | list vs =>
    rw [encodePayload] at h
    split at h
    · exact absurd h (by simp)
    · next hstr =>
      have hlen := length_encodeRegs h
      rw [if_neg hstr]
      by_cases hmore : encData.length > 4
      · obtain ⟨vs', hvs'⟩ := exists_decodeList h
        rw [if_pos hmore, hlen, Nat.mul_div_cancel_left _ (by decide), hvs']
        exact ⟨.list vs', rfl⟩
      · rw [if_neg hmore]
        obtain ⟨value, rfl⟩ := List.length_eq_one_iff.mp (by omega : vs.length = 1)
        rw [encodeRegs] at h
        obtain ⟨first, hfirst, h⟩ := bind_eq_ok.mp h
        obtain ⟨rest, hrest, h⟩ := bind_eq_ok.mp h
        obtain rfl := Except.ok.inj hrest
        obtain rfl := Except.ok.inj h
        obtain ⟨v, hv⟩ := exists_decodeOne hfirst
        rw [List.append_nil, hv]
        exact ⟨.single v, rfl⟩

/-- **The answer to a request is decoded, with the fields of the request and a value.** -/
theorem exists_answer {req : FPGAMapRequestPacket} {raw : Bytes} (hreq : req.Valid)
    (h : ServerAnswer req raw) : ∃ pck v, FPGAMapAnswerPacket.decode raw = .ok pck ∧
      pck.startAddr = req.startAddr ∧ pck.rqNumber = req.rqNumber ∧ pck.rwFlag = req.rwFlag ∧
      decodePayload pck = .ok v := by
  obtain ⟨data, errorFlag, encData, hencode, hraw⟩ := h
  have hdecode := FPGAMapAnswerPacket.decode_encode (length_encodePayload_mod hencode) hraw
  obtain ⟨v, hv⟩ : ∃ v, decodePayload ⟨req.returnAddr, req.rqNumber, req.rwFlag % 2, errorFlag % 2,
    req.startAddr, encData.length, encData⟩ = .ok v := exists_decodePayload hencode rfl rfl rfl
  refine ⟨_, v, hdecode, rfl, rfl, ?_, hv⟩
  rcases hreq.rwFlag with hread | hwrite
  · rw [hread]
  · rw [hwrite]

/-! ## A server -/

/-- The value of the `i`-th answer, for registers of the FPGA. -/
def constantData (value : ℕ → UInt8) (i : ℕ) (req : FPGAMapRequestPacket) : Payload :=
  if req.startAddr < 128 then .list [.int (value i).toNat] else .str []

theorem exists_constantData (value : ℕ → UInt8) (i : ℕ) (req : FPGAMapRequestPacket) :
    ∃ encData, encodePayload req.startAddr (constantData value i req) = .ok encData ∧
      encData.length < 2 ^ 32 := by
  unfold constantData
  split
  · next h128 =>
    obtain ⟨encData, hencode⟩ := (exists_encodeRegs_raw_iff h128.le [value i]).mpr h128
    have hlen := length_encodeRegs hencode
    refine ⟨encData, ?_, by rw [hlen, List.length_map, List.length_singleton]; decide⟩
    rw [encodePayload_list (registerType_raw_ne_str h128)]
    exact hencode
  · rw [encodePayload]
    split
    · exact ⟨[0, 0, 0, 0], rfl, by decide⟩
    · exact ⟨[], rfl, by decide⟩

/-- The message of an answer. -/
def serverReply (data : Payload) (errorFlag : ℕ) (req : FPGAMapRequestPacket) : Bytes :=
  match encodePayload req.startAddr data with
  | .ok encData =>
    match FPGAMapAnswerPacket.encode req.returnAddr req.rqNumber req.rwFlag errorFlag req.startAddr
      encData.length encData with
    | .ok raw => raw
    | .error _ => []
  | .error _ => []

theorem encode_serverReply {req : FPGAMapRequestPacket} {data : Payload} {encData : Bytes}
    (hreq : req.Valid) (h : encodePayload req.startAddr data = .ok encData)
    (hlen : encData.length < 2 ^ 32) (errorFlag : ℕ) :
    FPGAMapAnswerPacket.encode req.returnAddr req.rqNumber req.rwFlag errorFlag req.startAddr
      encData.length encData = .ok (serverReply data errorFlag req) := by
  have hencode := FPGAMapAnswerPacket.encode_eq req.rwFlag errorFlag hreq.returnAddr hreq.rqNumber
    hreq.startAddr hlen (length_encodePayload_mod h)
  unfold serverReply
  rw [h]
  dsimp only
  rw [hencode]

/-- A server whose registers have a value for each answer, with an error flag. -/
def constantServer (value : ℕ → UInt8) (errorFlag : ℕ → ℕ) (arrives : ℕ → Bool) : Env where
  pid := 1
  pid_lt := by decide
  reply := fun i req => serverReply (constantData value i req) (errorFlag i) req
  serverAnswer := by
    intro i req hreq
    obtain ⟨encData, hencode, hlen⟩ := exists_constantData value i req
    exact ⟨_, errorFlag i, encData, hencode, encode_serverReply hreq hencode hlen (errorFlag i)⟩
  arrives := arrives

/-- What the client reads from an answer to a read or write of one register of the FPGA. -/
theorem decode_constantServer {req : FPGAMapRequestPacket} (hreq : req.Valid)
    (h128 : req.startAddr < 128) (value : ℕ → UInt8) (errorFlag : ℕ → ℕ) (arrives : ℕ → Bool)
    (i : ℕ) : ∃ pck, FPGAMapAnswerPacket.decode
        ((constantServer value errorFlag arrives).reply i req) = .ok pck ∧
      pck.startAddr = req.startAddr ∧ pck.rqNumber = req.rqNumber ∧ pck.rwFlag = req.rwFlag ∧
      pck.error = errorFlag i % 2 ∧ decodePayload pck = .ok (.single (.int (value i).toNat)) := by
  have hdata : encodePayload req.startAddr (constantData value i req) = .ok [0, 0, 0, value i] := by
    have hpack : packOne true .B (.int (value i).toNat) = .ok [value i] := by
      rw [packOne, packInt_natCast (by simpa using (value i).toNat_lt)]
      simp [ordered, leBytes]
    unfold constantData
    rw [if_pos h128, encodePayload_list (registerType_raw_ne_str h128), encodeRegs,
      encodeReg_of_type (registerType_raw h128)]
    simp [pack, packFrom, gap, Code.align, Nat.mod_one, hpack, encodeRegs]
  have hencode := encode_serverReply hreq hdata (by simp) (errorFlag i)
  have hdecode := FPGAMapAnswerPacket.decode_encode (length_encodePayload_mod hdata) hencode
  have hrw : req.rwFlag % 2 = req.rwFlag := by
    rcases hreq.rwFlag with hread | hwrite
    · rw [hread]
    · rw [hwrite]
  refine ⟨_, hdecode, rfl, rfl, hrw, rfl, ?_⟩
  unfold decodePayload
  have hunpack : unpack (native [.x, .x, .x, .B]) [0, 0, 0, value i] =
      .ok [.int (value i).toNat] := by
    have hsize : ([0, 0, 0, value i] : Bytes).length = calcsize (native [.x, .x, .x, .B]) := rfl
    rw [unpack, if_pos hsize]
    simp [unpackFrom, unpackOne, gap, Code.align, Code.size, Nat.mod_one, leNat]
  have hone : decodeOne req.startAddr [0, 0, 0, value i] = .ok (.int (value i).toNat) := by
    unfold decodeOne
    rw [registerType_raw h128, RegisterType.format, ok_bind, hunpack, ok_bind, index_cons_zero]
  dsimp only
  rw [if_neg (by simp), if_neg (registerType_raw_ne_str h128), if_neg (by simp), hone, ok_bind]
  rfl

end Answers

/-! ## One round -/

/-- A request has the fields of a future. -/
def Matches (req : FPGAMapRequestPacket) (future : Future) : Prop :=
  req.startAddr = future.addr ∧ req.rqNumber = future.token ∧ req.rwFlag = future.wrFlag

instance (req : FPGAMapRequestPacket) (future : Future) : Decidable (Matches req future) :=
  inferInstanceAs (Decidable (_ ∧ _))

/-- The state after a receive that times out. -/
def State.timedOut (s : State) : State := { s with receives := s.receives + 1 }.drop

/-- The state after an answer is read. -/
def State.answered (s : State) : State :=
  { s with receives := s.receives + 1, read := s.read + 1 }

/-- The state after a future gets its value. -/
def State.valued (s : State) (fut : ℕ) (value : RegValue) : State :=
  s.update fut fun future => { future with value := value, valid := true }

section Round

variable {env : Env} {s : State} {current : ℕ} {req : FPGAMapRequestPacket} {future : Future}
  {pck : FPGAMapAnswerPacket} {v : RegValue}

theorem recv_timeout (h : env.arrives s.receives = false) :
    recv env s = .error .zmqError { s with receives := s.receives + 1 } := by
  unfold recv
  rw [bind_get, bind_modify, h]
  rfl

theorem recv_answer (h : env.arrives s.receives = true) (hreq : s.sent[s.read]? = some req) :
    recv env s = .ok (env.reply s.read req) s.answered := by
  unfold recv
  rw [bind_get, bind_modify, h, hreq]
  rfl

theorem getFuture_eq {fut : ℕ} (h : s.futures[fut]? = some future) :
    getFuture fut s = .ok future s := by
  unfold getFuture
  rw [bind_get, h]
  rfl

theorem getFuture_none {fut : ℕ} (h : s.futures[fut]? = none) :
    getFuture fut s = .error (.raised .nameError) s := by
  unfold getFuture
  rw [bind_get, h]
  rfl

/-- A round without an answer drops the queue. -/
theorem receiveOne_timeout (h : env.arrives s.receives = false) :
    receiveOne env current s = .error .zmqError s.timedOut := by
  have hpacket : getPacket env s = .error .zmqError s.timedOut := by
    refine bind_of_error ?_
    rw [dropOnError, recv_timeout h]
    rfl
  exact bind_of_error hpacket

/-- A round with an answer compares its fields. -/
theorem receiveOne_answer (h : env.arrives s.receives = true)
    (hreq : s.sent[s.read]? = some req) (hfuture : s.futures[current]? = some future)
    (hpck : FPGAMapAnswerPacket.decode (env.reply s.read req) = .ok pck)
    (haddr : pck.startAddr = req.startAddr) (hrq : pck.rqNumber = req.rqNumber)
    (hrw : pck.rwFlag = req.rwFlag) (hv : decodePayload pck = .ok v) :
    receiveOne env current s =
      if Matches req future then
        if pck.error ≠ 0 then .error (.raised .valueError) s.answered
        else .ok () (s.answered.valued current v)
      else .error (.raised .assertionError) s.answered := by
  have hpacket : getPacket env s = .ok pck s.answered := by
    have hmessage : dropOnError (recv env) s = .ok (env.reply s.read req) s.answered := by
      rw [dropOnError, recv_answer h hreq]
    unfold getPacket
    rw [bind_of_ok hmessage, hpck]
    rfl
  have hget : getFuture current s.answered = .ok future s.answered := getFuture_eq hfuture
  unfold receiveOne
  rw [bind_of_ok hpacket, bind_of_ok hget, haddr, hrq, hrw, hv]
  by_cases hmatches : Matches req future
  · rw [if_pos hmatches]
    obtain ⟨h₁, h₂, h₃⟩ := hmatches
    rw [checkAssert_of h₁, checkAssert_of h₂, checkAssert_of h₃]
    by_cases herror : pck.error ≠ 0
    · simp only [if_pos herror]
      rfl
    · simp only [if_neg herror]
      rfl
  · rw [if_neg hmatches]
    refine bind_of_error ?_
    by_cases h₁ : req.startAddr = future.addr
    · rw [checkAssert_of h₁, ok_bind]
      by_cases h₂ : req.rqNumber = future.token
      · have h₃ : ¬ req.rwFlag = future.wrFlag := fun h₃ => hmatches ⟨h₁, h₂, h₃⟩
        rw [checkAssert_of h₂, ok_bind, checkAssert_of_not h₃]
        rfl
      · rw [checkAssert_of_not h₂]
        rfl
    · rw [checkAssert_of_not h₁]
      rfl

end Round

end ClickA.Client
