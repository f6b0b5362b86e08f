import ClickA.Fpga.Raw

/-!
# Register isolation

A word of a transfer has seven bits for an address. The server chooses the branch of a request by
its start only, so a range that runs past 127 wraps around to the registers from 0 on: these words
are sent before the answer turns out not to exist.

## Main definitions

* `Confined`: the words of a transfer address registers of the request's range
* `Isolated`: an iteration issues such transfers only

## Main results

* `wp_serve_xfers`: what is sent to the FPGA for a request
* `isolated_iff`: the range starts at 0, ends below 128, or holds a write that cannot be sent
-/

namespace ClickA.Fpga

open Python Options

/-! ## Words -/

section Words

variable {addrs ws : List ℕ} {vals : List Value} {dataIn : Bytes}

/-- The address field of a word. -/
theorem addrByte_and (addr w : ℕ) : (addrByte addr w).toNat &&& 0x7F = addr % 128 := by
  have haddr : addr &&& 0x7F = addr % 128 := Nat.and_two_pow_sub_one_eq_mod addr 7
  have hdir : (w &&& 1) <<< 7 = 2 ^ 7 * (w % 2) := by
    rw [Nat.and_one_is_mod, Nat.shiftLeft_eq, Nat.mul_comm]
  have hlt : addr % 128 < 2 ^ 7 := Nat.mod_lt _ (by decide)
  have hsum : addr % 128 ||| 2 ^ 7 * (w % 2) = 2 ^ 7 * (w % 2) + addr % 128 := by
    rw [Nat.or_comm, Nat.two_pow_add_eq_or_of_lt hlt]
  unfold addrByte
  rw [haddr, hdir, hsum, UInt8.toNat_ofNat']
  show _ &&& 2 ^ 7 - 1 = _
  rw [Nat.and_two_pow_sub_one_eq_mod]
  omega

/-- A word that is sent has the address of a register, and a direction. -/
theorem exists_addrByte_of_encAll (h : encAll addrs ws vals = .ok dataIn) {k : ℕ} {b : UInt8}
    (hb : dataIn[2 * k]? = some b) : ∃ addr ∈ addrs, ∃ w ∈ ws, b = addrByte addr w := by
  induction addrs generalizing ws vals dataIn k with
  | nil =>
    obtain rfl := Except.ok.inj h
    simp at hb
  | cons addr addrs ih =>
    cases ws with
    | nil =>
      obtain rfl := Except.ok.inj h
      simp at hb
    | cons w ws =>
      cases vals with
      | nil =>
        obtain rfl := Except.ok.inj h
        simp at hb
      | cons val vals =>
        rw [encAll] at h
        obtain ⟨word, hword, h⟩ := bind_eq_ok.mp h
        obtain ⟨rest, hrest, h⟩ := bind_eq_ok.mp h
        obtain rfl := Except.ok.inj h
        cases val with
        | int n =>
          obtain rfl := Except.ok.inj hword
          cases k with
          | zero =>
            obtain rfl := Option.some.inj hb
            exact ⟨addr, List.mem_cons_self, w, List.mem_cons_self, rfl⟩
          | succ k =>
            obtain ⟨addr', haddr', w', hw', heq⟩ := ih hrest (k := k) hb
            exact ⟨addr', List.mem_cons_of_mem _ haddr', w', List.mem_cons_of_mem _ hw', heq⟩
        | float x => simp [enc] at hword
        | str b => simp [enc] at hword

/-- What is sent are integers. -/
theorem exists_int_of_encAll (h : encAll addrs ws vals = .ok dataIn)
    (haddrs : vals.length ≤ addrs.length) (hws : vals.length ≤ ws.length) :
    ∀ v ∈ vals, ∃ n : ℤ, v = .int n := by
  induction vals generalizing addrs ws dataIn with
  | nil => exact fun v hv => absurd hv List.not_mem_nil
  | cons val vals ih =>
    cases addrs with
    | nil => simp at haddrs
    | cons addr addrs =>
      cases ws with
      | nil => simp at hws
      | cons w ws =>
        rw [encAll] at h
        obtain ⟨word, hword, h⟩ := bind_eq_ok.mp h
        obtain ⟨rest, hrest, -⟩ := bind_eq_ok.mp h
        intro v hv
        rcases List.mem_cons.mp hv with rfl | hv
        · cases v with
          | int n => exact ⟨n, rfl⟩
          | float x => simp [enc] at hword
          | str b => simp [enc] at hword
        · exact ih hrest (Nat.le_of_succ_le_succ haddrs) (Nat.le_of_succ_le_succ hws) v hv

theorem getElem?_words (w addr : ℕ) {ns : List ℤ} {k : ℕ} (h : k < ns.length) :
    (words w addr ns)[2 * k]? = some (addrByte (addr + k) w) := by
  induction ns generalizing addr k with
  | nil => simp at h
  | cons n ns ih =>
    cases k with
    | zero => rfl
    | succ k =>
      have hrest := ih (addr + 1) (Nat.lt_of_succ_lt_succ h)
      rw [Nat.add_right_comm] at hrest
      exact hrest

end Words

/-! ## The values of a range past the registers of the FPGA -/

section Values

variable {req : FPGAMapRequestPacket} {values : List Value}

theorem getElem?_of_decodeRegs {addrs : List ℕ} {data : Bytes}
    (h : decodeRegs addrs data = .ok values) {i : ℕ} (hi : i < addrs.length) :
    ∃ v pl, values[i]? = some v ∧ decodeReg addrs[i] pl = .ok v := by
  induction addrs generalizing data values i with
  | nil => simp at hi
  | cons addr addrs ih =>
    rw [decodeRegs] at h
    obtain ⟨value, hvalue, h⟩ := bind_eq_ok.mp h
    obtain ⟨rest, hrest, h⟩ := bind_eq_ok.mp h
    obtain rfl := Except.ok.inj h
    cases i with
    | zero => exact ⟨value, _, rfl, hvalue⟩
    | succ i => exact ih hrest (Nat.lt_of_succ_lt_succ hi)

/-- Between the registers of the FPGA and the temperatures there are no types. -/
theorem registerType_gap {addr : ℕ} (hle : 128 ≤ addr) (hlt : addr < 200) :
    registerType addr = .codes [.x, .x, .x, .x] := by
  have hall : ∀ i < 72, registerType (128 + i) = .codes [.x, .x, .x, .x] := by decide
  have haddr := hall (addr - 128) (by omega)
  rwa [Nat.add_sub_cancel' hle] at haddr

/-- What is read, and what is written before the temperatures, are integers. -/
theorem exists_valuesIn_int (hreq : req.Valid)
    (h : req.rwFlag = 0 ∨ req.startAddr + registerNumber req ≤ 200) :
    ∃ ns : List ℤ, valuesIn req = .ok (ns.map .int) ∧ ns.length = registerNumber req := by
  rcases h with hread | hend
  · refine ⟨List.replicate (registerNumber req) 0, ?_, List.length_replicate⟩
    unfold valuesIn
    rw [if_neg fun h => h.1 hread, List.map_replicate]
  · obtain ⟨values, hvalues, hall⟩ := valuesIn_spec (P := fun _ v => ∃ n : ℤ, v = .int n) hreq
      (fun _ _ => ⟨0, rfl⟩) fun addr haddr pl hlen => by
        have hlt := (mem_addresses_iff addr).mp haddr
        rcases Nat.lt_or_ge addr 128 with h128 | h128
        · obtain ⟨n, hn, -⟩ := decodeReg_int .byte (registerType_raw h128) hlen
          exact ⟨_, hn, n, rfl⟩
        · refine ⟨.int 0, ?_, 0, rfl⟩
          have hunpack : unpack (native [.x, .x, .x, .x]) pl = .ok [] := if_pos hlen
          unfold decodeReg
          rw [registerType_gap h128 (by omega)]
          show (unpack (native [.x, .x, .x, .x]) pl >>= _) = _
          rw [hunpack]
          rfl
    obtain ⟨ns, rfl⟩ := exists_map_int fun v hv => by
      obtain ⟨i, hi, rfl⟩ := List.getElem_of_mem hv
      exact hall.get (hall.length_eq ▸ hi) hi
    refine ⟨ns, hvalues, ?_⟩
    rw [← length_valuesIn hvalues, List.length_map]

/-- A write that reaches the temperatures is not sent. -/
theorem requestWords_temperature (hwrite : req.rwFlag = 1) (hstart : req.startAddr ≤ 200)
    (hend : 200 < req.startAddr + registerNumber req) (dataIn : Bytes) :
    requestWords req ≠ .ok dataIn := by
  intro h
  obtain ⟨values, hvalues, hwords⟩ := bind_eq_ok.mp h
  have hlen := length_valuesIn hvalues
  have hint := exists_int_of_encAll hwords (by rw [hlen, length_addresses])
    (by rw [hlen, List.length_replicate])
  have hsome : req.rwFlag ≠ 0 ∧ registerNumber req ≠ 0 := by omega
  rw [valuesIn, if_pos hsome] at hvalues
  have hi : 200 - req.startAddr < (addresses req).length := by
    rw [length_addresses]
    omega
  obtain ⟨v, pl, hv, hdecode⟩ := getElem?_of_decodeRegs hvalues hi
  have haddr : (addresses req)[200 - req.startAddr] = 200 := by
    simp [addresses, hstart]
  obtain ⟨n, rfl⟩ := hint v (List.mem_of_getElem? hv)
  have htype : registerType 200 = .codes [.f] := by decide
  rw [haddr, decodeReg, htype] at hdecode
  obtain ⟨fmt, hfmt, hdecode⟩ := bind_eq_ok.mp hdecode
  obtain rfl := Except.ok.inj hfmt
  obtain ⟨vs, hvs, hdecode⟩ := bind_eq_ok.mp hdecode
  unfold unpack at hvs
  split_ifs at hvs
  obtain rfl := Except.ok.inj hvs
  exact absurd (Except.ok.inj hdecode) Value.noConfusion

end Values

/-! ## What is sent -/

/-- The words of a transfer, without the trailing zeros, address registers of the request. -/
def Confined (req : FPGAMapRequestPacket) (xfer : Bytes) : Prop :=
  ∃ dataIn, xfer = dataIn ++ [0, 0] ∧ ∀ k b, dataIn[2 * k]? = some b →
    req.startAddr ≤ b.toNat &&& 0x7F ∧
      b.toNat &&& 0x7F < req.startAddr + registerNumber req

/-- The transfers since a state are confined. -/
def ConfinedSince (req : FPGAMapRequestPacket) (w w' : World) : Prop :=
  ∃ sent, w'.xfers = w.xfers ++ sent ∧ ∀ xfer ∈ sent, Confined req xfer

/-- However an iteration ends that receives a request of registers of the FPGA, its transfers
address registers of the request. -/
def Isolated (env : Env) (w : World) (state : Loop) (raw : Bytes) : Prop :=
  ∀ req, FPGAMapRequestPacket.decode raw = .ok req → req.startAddr < 128 →
    Wp (iteration env state (.message raw)) (fun _ w' => ConfinedSince req w w')
      (fun _ w' => ConfinedSince req w w') w

/-- The range begins with register 0, ends below 128, or is a write that reaches the
temperatures. -/
def Wrapless (raw : Bytes) : Prop :=
  ∀ req, FPGAMapRequestPacket.decode raw = .ok req → req.startAddr < 128 →
    req.startAddr = 0 ∨ req.startAddr + registerNumber req ≤ 128 ∨
      req.rwFlag = 1 ∧ 200 < req.startAddr + registerNumber req

/-- The transfers of a request. -/
def requestXfers (req : FPGAMapRequestPacket) : List Bytes :=
  match requestWords req with
  | .ok dataIn => [dataIn ++ [0, 0]]
  | .error _ => []

section Sent

variable {env : Env} {w : World} {req : FPGAMapRequestPacket} {regs : Edfa.Regs}

theorem wp_answer_xfers (data : Payload) (errorFlag : ℕ) (w : World) :
    Wp (answer req data errorFlag) (fun _ w' => w'.xfers = w.xfers)
      (fun _ w' => w'.xfers = w.xfers) w := by
  unfold answer
  cases encodePayload req.startAddr data with
  | error e => rfl
  | ok encData =>
    rw [wp_bind, wp_lift_ok, wp_bind]
    cases FPGAMapAnswerPacket.encode req.returnAddr req.rqNumber req.rwFlag errorFlag
        req.startAddr encData.length encData with
    | error e => rfl
    | ok raw => rfl

/-- However it ends, a request is one transfer, or none when its values cannot be sent. -/
theorem wp_serve_xfers (h128 : req.startAddr < 128) :
    Wp (serve env req regs) (fun _ w' => w'.xfers = w.xfers ++ requestXfers req)
      (fun _ w' => w'.xfers = w.xfers ++ requestXfers req) w := by
  rw [serve_raw_eq h128]
  cases hvalues : valuesIn req with
  | error e =>
    have hnone : requestXfers req = [] := by
      unfold requestXfers requestWords
      rw [hvalues]
      rfl
    rw [hnone, List.append_nil]
    rfl
  | ok values =>
    have hwords : requestWords req =
        encAll (addresses req) (List.replicate (registerNumber req) req.rwFlag) values := by
      unfold requestWords
      rw [hvalues, ok_bind]
    unfold requestXfers
    rw [hwords, wp_bind, wp_lift_ok, wp_bind]
    unfold serveRaw
    rw [wp_bind]
    cases hdata : encAll (addresses req)
      (List.replicate (registerNumber req) req.rwFlag) values with
    | error e =>
      unfold transfer
      rw [hdata, wp_bind, wp_lift_error]
      exact (List.append_nil _).symm
    | ok dataIn =>
      rw [wp_of_ok (transfer_of_encAll hdata)]
      exact wp_answer_xfers _ _ (w.sent dataIn)

/-- The transfers of a request decide whether it is isolated. -/
theorem wp_serve_confined_iff (h128 : req.startAddr < 128) :
    Wp (serve env req regs) (fun _ w' => ConfinedSince req w w')
      (fun _ w' => ConfinedSince req w w') w ↔ ∀ xfer ∈ requestXfers req, Confined req xfer := by
  have hxfers : Wp (serve env req regs) (fun _ w' => w'.xfers = w.xfers ++ requestXfers req)
      (fun _ w' => w'.xfers = w.xfers ++ requestXfers req) w := wp_serve_xfers h128
  have hiff {w' : World} (hw : w'.xfers = w.xfers ++ requestXfers req) :
      ConfinedSince req w w' ↔ ∀ xfer ∈ requestXfers req, Confined req xfer := by
    constructor
    · rintro ⟨sent, hsent, hall⟩
      rwa [List.append_cancel_left (hw.symm.trans hsent)]
    · exact fun hall => ⟨_, hw, hall⟩
  constructor
  · intro h
    by_contra hnot
    refine not_wp_false ((h.and hxfers).mono ?_ ?_)
    · exact fun _ w' h => hnot ((hiff h.2).mp h.1)
    · exact fun _ w' h => hnot ((hiff h.2).mp h.1)
  · intro h
    refine hxfers.mono ?_ ?_
    · exact fun _ w' hw => (hiff hw).mpr h
    · exact fun _ w' hw => (hiff hw).mpr h

/-- A range that does not wrap, or begins with register 0, is confined. -/
theorem confined_of_requestWords {dataIn : Bytes} (hwords : requestWords req = .ok dataIn)
    (h : req.startAddr = 0 ∨ req.startAddr + registerNumber req ≤ 128) :
    Confined req (dataIn ++ [0, 0]) := by
  refine ⟨dataIn, rfl, fun k b hb => ?_⟩
  obtain ⟨values, -, hdata⟩ := bind_eq_ok.mp hwords
  obtain ⟨addr, haddr, dir, -, rfl⟩ := exists_addrByte_of_encAll hdata hb
  have hrange := (mem_addresses_iff addr).mp haddr
  have hle := Nat.mod_le addr 128
  rw [addrByte_and]
  rcases h with hzero | hend
  · omega
  · rw [Nat.mod_eq_of_lt (by omega)]
    exact hrange

/-- A range that wraps sends register 0 a word. -/
theorem not_confined_rawWords {ns : List ℤ} (hlen : ns.length = registerNumber req)
    (hpos : 0 < req.startAddr) (h128 : req.startAddr < 128)
    (hend : 128 < req.startAddr + registerNumber req) :
    ¬ Confined req (rawWords req ns ++ [0, 0]) := by
  rintro ⟨dataIn, hdata, hall⟩
  obtain rfl : rawWords req ns = dataIn := List.append_cancel_right hdata
  have hword : 128 - req.startAddr < ns.length := by omega
  have hbyte := getElem?_words req.rwFlag req.startAddr hword
  rw [Nat.add_sub_cancel' h128.le] at hbyte
  obtain ⟨hle, -⟩ := hall (128 - req.startAddr) _ hbyte
  rw [addrByte_and] at hle
  omega

/-- **The transfers of a request stay in its range exactly when the range does not wrap around, or
cannot be sent.** -/
theorem isolated_iff (env : Env) (w : World) (state : Loop) (raw : Bytes) :
    Isolated env w state raw ↔ Wrapless raw := by
  unfold Isolated Wrapless
  refine forall_congr' fun req => forall_congr' fun hdecode => forall_congr' fun h128 => ?_
  have hreq := FPGAMapRequestPacket.valid_of_decode hdecode
  rw [wp_iteration_message hdecode, wp_serve_confined_iff h128]
  constructor
  · intro h
    -- the range wraps around, and a write in it stays below the temperatures, so that it is sent
    by_contra hnot
    obtain ⟨hpos, hend, hwrite⟩ : req.startAddr ≠ 0 ∧
        128 < req.startAddr + registerNumber req ∧
        (req.rwFlag = 1 → req.startAddr + registerNumber req ≤ 200) := by
      push Not at hnot
      exact hnot
    obtain ⟨ns, hvalues, hlen⟩ := exists_valuesIn_int hreq (hreq.rwFlag.imp_right hwrite)
    unfold requestXfers at h
    rw [requestWords_eq hvalues hlen] at h
    exact not_confined_rawWords hlen (Nat.pos_of_ne_zero hpos) h128 hend
      (h _ List.mem_cons_self)
  · intro h xfer hxfer
    unfold requestXfers at hxfer
    cases hwords : requestWords req with
    | error e =>
      rw [hwords] at hxfer
      exact absurd hxfer List.not_mem_nil
    | ok dataIn =>
      rw [hwords] at hxfer
      obtain rfl := List.mem_singleton.mp hxfer
      rcases h with hzero | hend | ⟨hwrite, hend⟩
      · exact confined_of_requestWords hwords (.inl hzero)
      · exact confined_of_requestWords hwords (.inr hend)
      · exact absurd hwords (requestWords_temperature hwrite (by omega) hend dataIn)

/-- A write of the registers 127 and 128 writes register 0. -/
theorem not_isolated_wrap :
    ¬ Isolated ones ⟨[], []⟩ ⟨none, fun _ => none⟩
      [1, 0, 0, 0, 1, 1, 127, 0, 8, 0, 0, 0, 0, 0, 0, 5, 0, 0, 0, 6] := by
  intro h
  let req : FPGAMapRequestPacket := ⟨1, 1, 1, 127, 8, [0, 0, 0, 5, 0, 0, 0, 6]⟩
  have hdecode : FPGAMapRequestPacket.decode
      [1, 0, 0, 0, 1, 1, 127, 0, 8, 0, 0, 0, 0, 0, 0, 5, 0, 0, 0, 6] = .ok req := by decide
  have hreq := FPGAMapRequestPacket.valid_of_decode hdecode
  have h128 : req.startAddr < 128 := by decide
  have htwo : registerNumber req = 2 := by
    show 8 / 4 = 2
    rfl
  have hconfined := h req hdecode h128
  rw [wp_iteration_message hdecode, wp_serve_confined_iff h128] at hconfined
  obtain ⟨ns, hvalues, hlen⟩ := exists_valuesIn_int hreq (.inr (by rw [htwo]; decide))
  unfold requestXfers at hconfined
  rw [requestWords_eq hvalues hlen] at hconfined
  exact not_confined_rawWords hlen (by decide) h128 (by rw [htwo]; decide)
    (hconfined _ List.mem_cons_self)

end Sent

end ClickA.Fpga
