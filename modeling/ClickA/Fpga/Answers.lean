import ClickA.Fpga.Raw

/-!
# One answer for each request

A client matches answers to its requests by their order, so an iteration of the server must answer
the request it receives once. It does not for every request: an unknown register is answered apart,
and some requests raise, which ends the server.

## Main definitions

* `AnswersOnce`: an iteration ends, with one answer to the request received and none otherwise
* `Answerable`: the requests that are answered once whatever the FPGA returns

## Main results

* `ensures_serveInStr`, `ensures_serveOutStr`, `ensures_serveRaw`, `ensures_serveVirtual_currents`,
  `ensures_serveVirtual_dacs`: the requests that are answered once
-/

namespace ClickA.Fpga

open Python Options

/-- An answer that carries the fields of the request. -/
def AnswersTo (req : FPGAMapRequestPacket) (raw : Bytes) : Prop :=
  ∃ pck, FPGAMapAnswerPacket.decode raw = .ok pck ∧ pck.returnAddr = req.returnAddr ∧
    pck.rqNumber = req.rqNumber ∧ pck.rwFlag = req.rwFlag ∧ pck.startAddr = req.startAddr

/-- One answer is sent, to the request. -/
def Answered (req : FPGAMapRequestPacket) (w w' : World) : Prop :=
  ∃ raw, w'.answers = w.answers ++ [raw] ∧ AnswersTo req raw

/-- Whatever the FPGA, the clock and the timeouts do, an iteration ends. If it received a request,
it has sent one answer, to that request; if it received none, it has sent none. -/
def AnswersOnce (state : Loop) : Received → Prop
  | .message raw => ∀ req, FPGAMapRequestPacket.decode raw = .ok req → ∀ env w,
    Ensures (iteration env state (.message raw)) (fun _ w' => Answered req w w') w
  | .error errno => ∀ env w,
    Ensures (iteration env state (.error errno)) (fun _ w' => w'.answers = w.answers) w

/-- The values of a range that begins before the DAC channels are packed as if they belonged to the
registers from its start on: the one that meets `DAC_RESET` has to be a byte. -/
def DacFits (req : FPGAMapRequestPacket) : Prop :=
  req.startAddr ≤ dacReset → ∀ values, valuesIn req = .ok values →
    ∀ n, values[1003 - 2 * req.startAddr]? = some (.int n) → n < 256

/-- A string of the EDFA that is complete, the EDFA's reply, no register, registers of the FPGA,
currents, or registers of the DACs. -/
def Answerable (req : FPGAMapRequestPacket) : Prop :=
  if req.startAddr = edfaInStr then
    req.rwFlag = 1 ∧ 4 ≤ req.size ∧ leNat (req.writeData.take 4) + 4 ≤ req.size
  else req.startAddr = edfaOutStr ∨ registerNumber req = 0 ∨
    req.startAddr + registerNumber req ≤ 128 ∨
    300 ≤ req.startAddr ∧ req.startAddr + registerNumber req ≤ 304 ∨
    499 ≤ req.startAddr ∧ req.startAddr + registerNumber req ≤ 510 ∧ DacFits req

/-- What is received is answerable, or nothing is received in time. -/
def AnswerableReceived : Received → Prop
  | .message raw => ∀ req, FPGAMapRequestPacket.decode raw = .ok req → Answerable req
  | .error errno => errno = .eagain

section Once

variable {env : Env} {req : FPGAMapRequestPacket} {w : World} {values : List Value}
  {regs : Edfa.Regs}

/-! ## Requests that are answered -/

/-- An answer behind statements that send nothing. -/
theorem ensures_answer_of_quiet {data : Payload} {encData : Bytes} {w' : World} (hreq : req.Valid)
    (h : encodePayload req.startAddr data = .ok encData) (hlen : encData.length < 2 ^ 32)
    (errorFlag : ℕ) (hquiet : Quiet w w') :
    Ensures (answer req data errorFlag) (fun _ w'' => Answered req w w'') w' := by
  refine (ensures_answer hreq h hlen errorFlag w').imp ?_
  rintro _ w'' ⟨raw, rfl, hraw⟩
  refine ⟨raw, ?_, _, hraw, rfl, rfl, rfl, rfl⟩
  rw [hquiet]

/-- A string is encoded with its length. -/
theorem encodePayload_str {addr : ℕ} {b : Bytes} (h : registerType addr = .str)
    (hlen : b.length < 2 ^ 32) :
    encodePayload addr (.str b) = .ok (leBytes 4 b.length ++ padded b) := by
  have hpack : pack (native [.I]) [.int b.length] = .ok (leBytes 4 b.length) := by
    simp [pack, packFrom, gap, Code.align, packOne_I hlen]
  rw [encodePayload, if_pos h, hpack]
  rfl

theorem length_padded_le (b : Bytes) : (padded b).length ≤ b.length + 3 := by
  rw [padded, List.length_append, List.length_replicate]
  omega

theorem ensures_serveOutStr (hreq : req.Valid) (hstart : req.startAddr = edfaOutStr) :
    Ensures (serveOutStr env req) (fun _ w' => Answered req w w') w := by
  have htype : registerType req.startAddr = .str := by
    rw [hstart]
    decide
  refine (Edfa.ensures_readString env w).bind ?_
  rintro ⟨error, edfaOutStr⟩ w' ⟨hquiet, hle⟩
  dsimp only at hle ⊢
  have hpadded := length_padded_le edfaOutStr
  refine ensures_answer_of_quiet hreq (encodePayload_str htype (by omega)) ?_ error hquiet
  rw [List.length_append, length_leBytes]
  omega

/-- Four bytes are unpacked as a number. -/
theorem unpack_uint {raw : Bytes} (h : raw.length = 4) :
    unpack (native [.I]) raw = .ok [.int (leNat raw)] := by
  have htake : raw.take 4 = raw := List.take_of_length_le h.le
  rw [unpack, if_pos (by rw [h]; rfl)]
  simp [unpackFrom, unpackOne, gap, Code.align, Code.size, htake]

theorem ensures_serveInStr (hreq : req.Valid) (hstart : req.startAddr = edfaInStr)
    (hwrite : req.rwFlag = 1) (h4 : 4 ≤ req.size)
    (hlen : leNat (req.writeData.take 4) + 4 ≤ req.size) :
    Ensures (serveInStr env req) (fun _ w' => Answered req w w') w := by
  have htype : registerType req.startAddr = .str := by
    rw [hstart]
    decide
  have htake : (req.writeData.take 4).length = 4 := by
    rw [List.length_take, (hreq.write hwrite).1]
    omega
  have hslice : slice req.writeData 0 4 = req.writeData.take 4 := slice_zero req.writeData 4
  refine (Edfa.runs_resetFifo env w).bind ?_
  intro _ w' hquiet
  rw [checkAssert_of (by omega : req.size > 3), hslice, unpack_uint htake, Ensures, wp_bind,
    wp_lift_ok, wp_bind, wp_lift_ok, index_cons_zero, ok_bind, bits, wp_bind, wp_lift_ok,
      Int.toNat_natCast,
    checkAssert_of hlen, wp_bind, wp_lift_ok]
  refine (Edfa.runs_writeString env _ w').bind ?_
  intro errorFlag w'' hquiet'
  exact ensures_answer_of_quiet hreq (encodePayload_str htype (by decide)) (by decide) _
    (trans_of Quiet hquiet hquiet')

theorem ensures_serveRaw (hreq : req.Valid) (h128 : req.startAddr < 128)
    (hend : req.startAddr + registerNumber req ≤ 128) {ns : List ℤ}
    (hlen : ns.length = registerNumber req) :
    Ensures (serveRaw env req (ns.map .int)) (fun _ w' => Answered req w w') w := by
  have hvalues : (rawResults env w req ns).2.length = ns.length := length_rawResults_snd env w ns
  obtain ⟨encData, hencode⟩ := (exists_encodeRegs_raw_iff h128.le
    (rawResults env w req ns).2).mpr (by omega)
  have hbound := length_encodeRegs hencode
  rw [List.length_map] at hbound
  rw [← encodePayload_list (registerType_raw_ne_str h128)] at hencode
  unfold Ensures Wp
  rw [serveRaw_eq hlen]
  exact ensures_answer_of_quiet hreq hencode (by omega) _ rfl

/-! ## Virtual registers that are answered -/

/-- Without a register of the EDFA the register buffer is left as it is. -/
theorem serveVirtual_eq (h : ∀ addr ∈ addresses req, addr ∉ edfaParsedBlock) :
    serveVirtual env req values regs =
      (do
        let (valuesOut, regs) ← ((addresses req).zip values).foldlM (virtualReg env req) ([], regs)
        answer req (.list valuesOut) 0
        return regs) := by
  have hany : (addresses req).any (· ∈ edfaParsedBlock) = false := by
    rw [List.any_eq_false]
    intro addr haddr
    simpa using h addr haddr
  have hrefresh : refreshEdfa env req regs = pure regs := by
    unfold refreshEdfa
    rw [if_neg (by simp [hany])]
  unfold serveVirtual
  rw [hrefresh, pure_bind]

/-- Values that are collected in silence, and can be encoded, are answered. -/
theorem ensures_serveVirtual (hreq : req.Valid) (hvirtual : registerType req.startAddr ≠ .str)
    (hedfa : ∀ addr ∈ addresses req, addr ∉ edfaParsedBlock)
    (hloop : Ensures (((addresses req).zip values).foldlM (virtualReg env req) ([], regs))
      (fun acc w' => Quiet w w' ∧ acc.1.length ≤ 128 ∧
        ∃ encData, encodeRegs req.startAddr acc.1 = .ok encData) w) :
    Ensures (serveVirtual env req values regs) (fun _ w' => Answered req w w') w := by
  rw [serveVirtual_eq hedfa]
  refine hloop.bind ?_
  rintro ⟨valuesOut, regs⟩ w' ⟨hquiet, hlen, encData, hencode⟩
  dsimp only at hlen hencode ⊢
  have hbound := length_encodeRegs hencode
  rw [← encodePayload_list hvirtual] at hencode
  exact (ensures_answer_of_quiet hreq hencode (by omega) 0 hquiet).bind fun _ _ h => h

/-- No register. -/
theorem ensures_serveVirtual_of_none (hreq : req.Valid)
    (hvirtual : registerType req.startAddr ≠ .str) (hnone : registerNumber req = 0) :
    Ensures (serveVirtual env req values regs) (fun _ w' => Answered req w w') w := by
  have hnil : addresses req = [] := List.length_eq_zero_iff.mp ((length_addresses req).trans hnone)
  refine ensures_serveVirtual hreq hvirtual (by simp [hnil]) ?_
  rw [hnil, List.zip_nil_left]
  exact ⟨rfl, Nat.zero_le _, [], rfl⟩

/-- Each current gives a float. -/
theorem ensures_currents {l : List (ℕ × Value)} (h : ∀ p ∈ l, p.1 ∈ currentBlock)
    (valuesOut : List Value) : Ensures (l.foldlM (virtualReg env req) (valuesOut, regs))
      (fun acc w' => Quiet w w' ∧ ∃ xs : List Float, xs.length = l.length ∧
        acc.1 = valuesOut ++ xs.map .float) w := by
  induction l generalizing valuesOut w with
  | nil => exact ⟨rfl, [], rfl, (List.append_nil _).symm⟩
  | cons reg l ih =>
    obtain ⟨addr, value⟩ := reg
    rw [List.foldlM_cons, virtualReg_current (h _ List.mem_cons_self), bind_assoc]
    refine (ensures_current env addr w).bind ?_
    rintro _ w₁ ⟨hfirst, x, rfl⟩
    rw [pure_bind]
    refine (ih (fun p hp => h p (List.mem_cons_of_mem _ hp)) _).imp ?_
    rintro acc w' ⟨hquiet, xs, hlen, hacc⟩
    refine ⟨trans_of Quiet hfirst hquiet, x :: xs, ?_, ?_⟩
    · rw [List.length_cons, List.length_cons, hlen]
    · rw [hacc, List.append_assoc, List.map_cons]
      rfl

theorem ensures_serveVirtual_currents (hreq : req.Valid) (hstart : 300 ≤ req.startAddr)
    (hend : req.startAddr + registerNumber req ≤ 304) (hsome : registerNumber req ≠ 0)
    (hlen : values.length = registerNumber req) :
    Ensures (serveVirtual env req values regs) (fun _ w' => Answered req w w') w := by
  have hmem (addr : ℕ) (haddr : req.startAddr ≤ addr ∧
      addr < req.startAddr + registerNumber req) : addr ∈ currentBlock := by
    unfold currentBlock
    rw [List.mem_range'_1]
    omega
  refine ensures_serveVirtual hreq ?_ ?_ ?_
  · rw [registerType_current _ (hmem _ ⟨le_rfl, by omega⟩)]
    exact RegisterType.noConfusion
  · intro addr haddr hedfa
    have hrange := (mem_addresses_iff addr).mp haddr
    unfold edfaParsedBlock at hedfa
    rw [List.mem_range'_1] at hedfa
    omega
  · refine (ensures_currents (fun p hp => hmem _ ?_) []).imp ?_
    · exact (mem_addresses_iff _).mp (List.of_mem_zip hp).1
    · rintro ⟨valuesOut, regs⟩ w' ⟨hquiet, xs, hxs, hout⟩
      have hcount : xs.length = registerNumber req := by
        rw [hxs, List.length_zip, length_addresses, hlen, Nat.min_self]
      dsimp only at hout ⊢
      rw [List.nil_append] at hout
      subst hout
      refine ⟨hquiet, by rw [List.length_map]; omega, encodeRegs_eq_ok_iff.mpr fun i hi => ?_⟩
      rw [List.length_map] at hi
      rw [List.getElem_map]
      exact exists_encodeReg_float (registerType_current _ (hmem _ ⟨by omega, by omega⟩)) _

/-! ## Registers of the DACs -/

/-- The bytes of a register of the DACs. -/
def dacWidth (addr : ℕ) : ℕ := if addr = dacSetup then 4 else if addr = dacReset then 1 else 2

/-- A value of a register of the DACs. -/
def DacValue (addr : ℕ) (v : Value) : Prop := ∃ n : ℕ, v = .int n ∧ n < 256 ^ dacWidth addr

theorem exists_intFormat {addr : ℕ} (h : 499 ≤ addr ∧ addr < 510) :
    ∃ cs, IntFormat cs (dacWidth addr) ∧ registerType addr = .codes cs := by
  have hcases : addr = dacSetup ∨ addr = dacEnable ∨ addr = dacReset ∨ 502 ≤ addr := by
    unfold dacSetup dacEnable dacReset
    omega
  rcases hcases with rfl | rfl | rfl | hchannel
  · exact ⟨_, .long, by decide⟩
  · exact ⟨_, .short, by decide⟩
  · exact ⟨_, .byte, by decide⟩
  · have hwidth : dacWidth addr = 2 := by
      unfold dacWidth dacSetup dacReset
      rw [if_neg (by omega), if_neg (by omega)]
    rw [hwidth]
    refine ⟨_, .short, registerType_dac addr ?_⟩
    unfold dacBlock dac1A
    rw [List.mem_range'_1]
    omega

/-- The values of a range of registers of the DACs. -/
theorem valuesIn_dacs (hreq : req.Valid) (hstart : 499 ≤ req.startAddr)
    (hend : req.startAddr + registerNumber req ≤ 510) :
    ∃ values, valuesIn req = .ok values ∧ List.Forall₂ DacValue (addresses req) values := by
  refine valuesIn_spec hreq (fun addr _ => ⟨0, rfl, Nat.pow_pos (by decide)⟩) ?_
  intro addr haddr pl hlen
  have hrange := (mem_addresses_iff addr).mp haddr
  have hdac : 499 ≤ addr ∧ addr < 510 := by omega
  obtain ⟨cs, hcs, htype⟩ := exists_intFormat hdac
  obtain ⟨n, hn, hlt⟩ := decodeReg_int hcs htype hlen
  exact ⟨_, hn, n, rfl, hlt⟩

/-- The channels give their values, the registers before them none. -/
theorem ensures_dacs {start : ℕ} {values : List Value} (hstart : 499 ≤ start)
    (hend : start + values.length ≤ 510) (hint : ∀ v ∈ values, ∃ n : ℤ, v = .int n)
    (valuesOut : List Value) :
    Ensures (((List.range' start values.length).zip values).foldlM (virtualReg env req)
      (valuesOut, regs)) (fun acc w' => Quiet w w' ∧
        acc.1 = valuesOut ++ values.drop (502 - start)) w := by
  induction values generalizing start valuesOut w with
  | nil => exact ⟨rfl, by rw [List.drop_nil, List.append_nil]⟩
  | cons v values ih =>
    obtain ⟨n, rfl⟩ := hint v List.mem_cons_self
    have hint' : ∀ v ∈ values, ∃ n : ℤ, v = .int n := fun v hv =>
      hint v (List.mem_cons_of_mem _ hv)
    rw [List.length_cons] at hend
    rw [List.length_cons, List.range'_succ, List.zip_cons_cons, List.foldlM_cons]
    rcases Nat.lt_or_ge start 502 with hsetup | hchannel
    · have hcases : start = dacSetup ∨ start = dacEnable ∨ start = dacReset := by
        unfold dacSetup dacEnable dacReset
        omega
      refine (ensures_virtualReg_setup hcases n w).bind ?_
      rintro _ w₁ ⟨hfirst, rfl⟩
      refine (ih (by omega) (by omega) hint' _).imp ?_
      rintro acc w' ⟨hquiet, hacc⟩
      have hdrop : 502 - start = (502 - (start + 1)) + 1 := by omega
      rw [hdrop, List.drop_succ_cons]
      exact ⟨trans_of Quiet hfirst hquiet, hacc⟩
    · have hmem : start ∈ dacBlock := by
        unfold dacBlock dac1A
        rw [List.mem_range'_1]
        omega
      rw [virtualReg_dacBlock hmem, bind_assoc]
      refine (ensures_dacChannel hmem n w).bind ?_
      rintro _ w₁ ⟨hfirst, rfl⟩
      rw [pure_bind]
      refine (ih (by omega) (by omega) hint' _).imp ?_
      rintro acc w' ⟨hquiet, hacc⟩
      refine ⟨trans_of Quiet hfirst hquiet, ?_⟩
      rw [hacc, Nat.sub_eq_zero_of_le hchannel, Nat.sub_eq_zero_of_le (by omega), List.drop_zero,
        List.drop_zero, List.append_assoc]
      rfl

/-- The values of the channels are encoded from the start of the range on: only `DAC_RESET` takes
less than a channel. -/
theorem exists_encodeRegs_dacs_iff (hstart : 499 ≤ req.startAddr)
    (hend : req.startAddr + registerNumber req ≤ 510) (hvalues : valuesIn req = .ok values)
    (hall : List.Forall₂ DacValue (addresses req) values) :
    (∃ encData, encodeRegs req.startAddr (values.drop (502 - req.startAddr)) = .ok encData) ↔
      DacFits req := by
  have hlen := length_valuesIn hvalues
  have hget (i : ℕ) (hi : i < values.length) : DacValue (req.startAddr + i) values[i] := by
    have hi' : i < (addresses req).length := by
      rw [length_addresses]
      omega
    have hpair := hall.get hi' hi
    have haddr : (addresses req).get ⟨i, hi'⟩ = req.startAddr + i := by
      simp [addresses]
    rw [haddr] at hpair
    exact hpair
  rw [encodeRegs_eq_ok_iff]
  simp only [List.length_drop, List.getElem_drop]
  unfold DacFits
  constructor
  -- the value at the place of `DAC_RESET` is that of a register behind it
  · intro h hreset values' hvalues' n hn
    obtain rfl := Except.ok.inj (hvalues.symm.trans hvalues')
    unfold dacReset at hreset
    obtain ⟨hi, hvalue⟩ := List.getElem?_eq_some_iff.mp hn
    have hplace : 502 - req.startAddr + (501 - req.startAddr) = 1003 - 2 * req.startAddr := by omega
    obtain ⟨raw, hraw⟩ := h (501 - req.startAddr) (by omega)
    simp only [hplace, hvalue] at hraw
    have htype : registerType (req.startAddr + (501 - req.startAddr)) =
        .codes [.x, .x, .x, .B] := by
      rw [Nat.add_sub_cancel' hreset]
      decide
    exact ((encodeReg_int_iff .byte htype).mp ⟨raw, hraw⟩).2
  · intro hfits i hi
    obtain ⟨n, hn, hlt⟩ := hget (502 - req.startAddr + i) (by omega)
    have hdac : 499 ≤ req.startAddr + i ∧ req.startAddr + i < 510 := by omega
    obtain ⟨cs, hcs, htype⟩ := exists_intFormat hdac
    rw [hn, encodeReg_int_iff hcs htype]
    refine ⟨Int.natCast_nonneg n, ?_⟩
    have hchannel : dacWidth (req.startAddr + (502 - req.startAddr + i)) = 2 := by
      unfold dacWidth dacSetup dacReset
      rw [if_neg (by omega), if_neg (by omega)]
    rw [hchannel] at hlt
    by_cases hreset : req.startAddr + i = dacReset
    · unfold dacReset at hreset
      have hplace : 502 - req.startAddr + i = 1003 - 2 * req.startAddr := by omega
      have hbyte := hfits (by unfold dacReset; omega) values hvalues n (by
        rw [← hplace, List.getElem?_eq_getElem (by omega), hn])
      unfold dacWidth dacSetup dacReset
      rw [if_neg (by omega), if_pos hreset]
      simpa using hbyte
    · unfold dacWidth
      rw [if_neg hreset]
      split
      · push_cast
        omega
      · exact_mod_cast hlt

/-- What the loop does with a range of registers of the DACs. -/
theorem ensures_dacLoop (hstart : 499 ≤ req.startAddr)
    (hend : req.startAddr + registerNumber req ≤ 510) (hvalues : valuesIn req = .ok values)
    (hall : List.Forall₂ DacValue (addresses req) values) :
    Ensures (((addresses req).zip values).foldlM (virtualReg env req) ([], regs))
      (fun acc w' => Quiet w w' ∧ acc.1 = values.drop (502 - req.startAddr)) w := by
  have hlen := length_valuesIn hvalues
  have hint : ∀ v ∈ values, ∃ n : ℤ, v = .int n := by
    intro v hv
    obtain ⟨i, hi, rfl⟩ := List.getElem_of_mem hv
    obtain ⟨n, hn, -⟩ := hall.get (hall.length_eq ▸ hi) hi
    exact ⟨n, hn⟩
  unfold addresses
  rw [← hlen]
  exact ensures_dacs hstart (by omega) hint []

theorem not_mem_edfa_of_dacs (hend : req.startAddr + registerNumber req ≤ 510) :
    ∀ addr ∈ addresses req, addr ∉ edfaParsedBlock := by
  intro addr haddr hedfa
  have hrange := (mem_addresses_iff addr).mp haddr
  unfold edfaParsedBlock at hedfa
  rw [List.mem_range'_1] at hedfa
  omega

theorem ensures_serveVirtual_dacs (hreq : req.Valid) (hstart : 499 ≤ req.startAddr)
    (hend : req.startAddr + registerNumber req ≤ 510) (hvirtual : registerType req.startAddr ≠ .str)
    (hvalues : valuesIn req = .ok values) (hall : List.Forall₂ DacValue (addresses req) values)
    (hfits : DacFits req) :
    Ensures (serveVirtual env req values regs) (fun _ w' => Answered req w w') w := by
  refine ensures_serveVirtual hreq hvirtual (not_mem_edfa_of_dacs hend) ?_
  refine (ensures_dacLoop hstart hend hvalues hall).imp ?_
  rintro ⟨valuesOut, regs⟩ w' ⟨hquiet, rfl⟩
  have hlen := length_valuesIn hvalues
  refine ⟨hquiet, ?_, (exists_encodeRegs_dacs_iff hstart hend hvalues hall).mpr hfits⟩
  rw [List.length_drop]
  omega

/-- A value that does not fit ends the server. -/
theorem raises_serveVirtual_dacs (hstart : 499 ≤ req.startAddr)
    (hend : req.startAddr + registerNumber req ≤ 510) (hvirtual : registerType req.startAddr ≠ .str)
    (hvalues : valuesIn req = .ok values) (hall : List.Forall₂ DacValue (addresses req) values)
    (hfits : ¬ DacFits req) : Raises (serveVirtual env req values regs) w := by
  rw [serveVirtual_eq (not_mem_edfa_of_dacs hend)]
  refine (ensures_dacLoop hstart hend hvalues hall).raises_bind ?_
  rintro ⟨valuesOut, regs⟩ w' ⟨-, rfl⟩
  refine (raises_answer ?_ 0 w').bind
  rw [encodePayload_list hvirtual]
  exact mt (exists_encodeRegs_dacs_iff hstart hend hvalues hall).mp hfits

end Once

end ClickA.Fpga
