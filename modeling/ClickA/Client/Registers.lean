import ClickA.Client.Queue
import ClickA.Fpga.Server

/-!
# Register values on the wire

Register values pass four codecs: the client packs what it writes in one format, and the server
decodes it register by register; the server encodes its answer register by register, and the client
decodes it.

## Main definitions

* `InRange`: the numbers of a register
* `Same`: a number, and what a register makes of it
* `Written`, `WrittenString`: what the server decodes from a write
* `Answered`, `AnsweredString`: what the client decodes from an answer

## Main results

* `payload_list`: the client packs a list as the server encodes it
* `survive`: values and strings survive both ways
-/

namespace ClickA.Client

open Python Options Fpga

/-! ## Numbers -/

/-- A float that `f` packs without loss. -/
def Single (x : Float) : Prop := (Float32.ofBits x.toFloat32.toBits).toFloat = x

/-- An integer that a single-precision float holds exactly. -/
def IntSingle (n : ℤ) : Prop := ∃ (m : ℤ) (e : ℕ), n = m * 2 ^ e ∧ |m| < 2 ^ 24 ∧ e ≤ 104

/-- The numbers of a register: those of its integer type, or single-precision floats, which may be
integers. -/
inductive InRange (addr : ℕ) : Value → Prop
  | int {cs : List Code} {k : ℕ} {n : ℤ} (hcs : IntFormat cs k)
      (htype : registerType addr = .codes cs)
      (h : 0 ≤ n ∧ n < 256 ^ k) : InRange addr (.int n)
  | float {x : Float} (htype : registerType addr = .codes [.f]) (h : Single x) :
      InRange addr (.float x)
  | intSingle {n : ℤ} (htype : registerType addr = .codes [.f]) (hn : IntSingle n)
      (hfinite : (Float.ofInt n).isInf = false) (h : Single (Float.ofInt n)) : InRange addr (.int n)

/-- Equal numbers: a register of floats returns an integer as a float. -/
inductive Same : Value → Value → Prop
  | refl (v : Value) : Same v v
  | float (n : ℤ) : Same (.int n) (.float (Float.ofInt n))

/-! ## One register -/

section Register

variable {addr : ℕ} {v : Value}

/-- A register with numbers in its range has a type. -/
theorem InRange.exists_codes (h : InRange addr v) : ∃ cs ∈ formats, registerType addr = .codes cs ∧
    cs ≠ [.x, .x, .x, .x] := by
  cases h with
  | int hcs htype h => cases hcs <;> exact ⟨_, by decide, htype, by decide⟩
  | float htype h => exact ⟨_, by decide, htype, by decide⟩
  | intSingle htype hn hfinite h => exact ⟨_, by decide, htype, by decide⟩

theorem unpack_f {x : Float} (h : Single x) :
    unpack (native [.f]) (leBytes 4 x.toFloat32.toBits.toNat) = .ok [.float x] := by
  have hlt : x.toFloat32.toBits.toNat < 256 ^ 4 := x.toFloat32.toBits.toNat_lt
  have hlen : (leBytes 4 x.toFloat32.toBits.toNat).length = calcsize (native [.f]) :=
      length_leBytes 4 _
  have htake : (leBytes 4 x.toFloat32.toBits.toNat).take 4 = leBytes 4 x.toFloat32.toBits.toNat :=
    List.take_of_length_le (Nat.le_of_eq (length_leBytes 4 _))
  have hbits : UInt32.ofNat (leNat (leBytes 4 x.toFloat32.toBits.toNat)) = x.toFloat32.toBits := by
    rw [leNat_leBytes hlt]
    exact UInt32.ofNat_toNat
  have hone : unpackOne true .f (leBytes 4 x.toFloat32.toBits.toNat) = .float x := by
    show Value.float (Float32.ofBits (UInt32.ofNat (leNat _))).toFloat = _
    rw [ordered_native, hbits, h]
  rw [unpack, if_pos hlen]
  show Except.ok [unpackOne true .f ((leBytes 4 x.toFloat32.toBits.toNat).take 4)] = _
  rw [htake, hone]

theorem unpack_pack_int {cs : List Code} {k : ℕ} {n : ℤ} {raw : Bytes} (hcs : IntFormat cs k)
    (h : pack (native cs) [.int n] = .ok raw) : unpack (native cs) raw = .ok [.int n] := by
  apply unpack_pack _ h
  cases hcs
  · exact .cons (exact_int 1 n) .nil
  · exact .cons (exact_int 2 n) .nil
  · exact .cons (exact_int 4 n) .nil

/-- A number of a register is encoded, and decoded again by both sides. -/
theorem InRange.exists_encodeReg (h : InRange addr v) : ∃ raw v', encodeReg addr v = .ok raw ∧
    decodeReg addr raw = .ok v' ∧ decodeOne addr raw = .ok v' ∧ Same v v' := by
  obtain ⟨cs, raw, v', htype, hencode, hunpack, hsame⟩ :
    ∃ cs raw v', registerType addr = .codes cs ∧
      encodeReg addr v = .ok raw ∧ unpack (native cs) raw = .ok [v'] ∧ Same v v' := by
    -- an integer may be the value of a register of single precision
    cases h with
    | int hcs htype h =>
      obtain ⟨raw, hraw⟩ := (encodeReg_int_iff hcs htype).mpr h
      refine ⟨_, raw, _, htype, hraw, ?_, .refl _⟩
      rw [encodeReg_of_type htype] at hraw
      exact unpack_pack_int hcs hraw
    | float htype h =>
      refine ⟨_, _, _, htype, ?_, unpack_f h, .refl _⟩
      rw [encodeReg_of_type htype]
      rfl
    | @intSingle n htype hn hfinite h =>
      refine ⟨_, leBytes 4 (Float.ofInt n).toFloat32.toBits.toNat, _, htype, ?_, unpack_f h,
        .float n⟩
      rw [encodeReg_of_type htype]
      simp [pack, packFrom, packOne, hfinite, packFloat, gap, Code.align, ordered]
  have hformat : (registerType addr).format = .ok (native cs) := by
    rw [htype]
    rfl
  refine ⟨raw, v', hencode, ?_, ?_, hsame⟩
  · rw [decodeReg, hformat, ok_bind, hunpack]
    rfl
  · rw [decodeOne, hformat, ok_bind, hunpack]
    rfl

end Register

/-! ## Registers in a row -/

section Registers

variable {addr : ℕ} {vs : List Value}

/-- Numbers for the registers from an address on. -/
def AllInRange (addr : ℕ) (vs : List Value) : Prop :=
  ∀ i (h : i < vs.length), InRange (addr + i) vs[i]

theorem AllInRange.head {v : Value} (h : AllInRange addr (v :: vs)) : InRange addr v :=
  h 0 (Nat.zero_lt_succ _)

theorem AllInRange.tail {v : Value} (h : AllInRange addr (v :: vs)) : AllInRange (addr + 1) vs := by
  intro i hi
  have hnext := h (i + 1) (Nat.succ_lt_succ hi)
  rwa [← Nat.add_assoc, Nat.add_right_comm] at hnext

/-- Numbers are encoded one behind the other, and decoded again by both sides. -/
theorem AllInRange.exists_encodeRegs (h : AllInRange addr vs) :
    ∃ raw vs', encodeRegs addr vs = .ok raw ∧
    decodeRegs (List.range' addr vs.length) raw = .ok vs' ∧
      decodeList addr vs.length raw = .ok vs' ∧
    List.Forall₂ Same vs vs' := by
  induction vs generalizing addr with
  | nil => exact ⟨[], [], rfl, rfl, rfl, .nil⟩
  | cons v vs ih =>
    obtain ⟨first, v', hfirst, hdecode, hone, hsame⟩ := h.head.exists_encodeReg
    obtain ⟨rest, vs', hrest, hdecodes, hlist, hsames⟩ := ih h.tail
    have hlen := length_encodeReg hfirst
    have htake : (first ++ rest).take 4 = first := by rw [← hlen, List.take_left]
    have hdrop : (first ++ rest).drop 4 = rest := by rw [← hlen, List.drop_left]
    refine ⟨first ++ rest, v' :: vs', ?_, ?_, ?_, .cons hsame hsames⟩
    · rw [encodeRegs, hfirst, ok_bind, hrest]
      rfl
    · rw [List.length_cons, List.range'_succ, decodeRegs, htake, hdrop, hdecode, ok_bind, hdecodes]
      rfl
    · rw [List.length_cons, decodeList, htake, hdrop, hone, ok_bind, hlist]
      rfl

/-- In one format, each register starts behind the others without a gap. -/
theorem packFrom_append {off : ℕ} (hoff : off % 4 = 0) {cs : List Code} (hcs : cs ∈ formats)
    (hne : cs ≠ [.x, .x, .x, .x]) (rest : List Code) (v : Value) (vs : List Value) :
    packFrom true off (cs ++ rest) (v :: vs) = (do
      let raw ← pack (native cs) [v]
      let more ← packFrom true (off + 4) rest vs
      return raw ++ more) := by
  have hshort : (2 - (off + 2) % 2) % 2 = 0 := by omega
  have hlong : (4 - off % 4) % 4 = 0 := by omega
  unfold formats at hcs
  simp only [List.mem_cons, List.not_mem_nil, or_false] at hcs
  rcases hcs with rfl | rfl | rfl | rfl | rfl
  · cases hv : packOne true .B v <;>
      simp [pack, packFrom, hv, gap, Code.align, Code.size, Nat.mod_one, pure, Except.pure]
  · cases hv : packOne true .H v <;>
      simp [pack, packFrom, hv, gap, Code.align, Code.size, hshort, pure, Except.pure]
  · cases hv : packOne true .I v <;>
      simp [pack, packFrom, hv, gap, Code.align, Code.size, hlong, pure, Except.pure]
  · cases hv : packOne true .f v <;>
      simp [pack, packFrom, hv, gap, Code.align, Code.size, hlong, pure, Except.pure]
  · exact absurd rfl hne

/-- The formats of registers with numbers. -/
theorem AllInRange.mapM_toCodes (h : AllInRange addr vs) : ∃ css : List (List Code),
    ((List.range' addr vs.length).mapM fun ad => RegisterType.toCodes (registerType ad)) = .ok css ∧
    ∀ off, off % 4 = 0 → packFrom true off css.flatten vs = encodeRegs addr vs := by
  induction vs generalizing addr with
  | nil => exact ⟨[], rfl, fun _ _ => rfl⟩
  | cons v vs ih =>
    obtain ⟨css, hcss, hpack⟩ := ih h.tail
    obtain ⟨cs, hcs, htype, hne⟩ := h.head.exists_codes
    refine ⟨cs :: css, ?_, fun off hoff => ?_⟩
    · rw [List.length_cons, List.range'_succ, List.mapM_cons, htype, hcss]
      rfl
    · have hoff' : (off + 4) % 4 = 0 := by omega
      rw [List.flatten_cons, packFrom_append hoff hcs hne, encodeRegs, encodeReg_of_type htype,
        hpack (off + 4) hoff']

/-- **The client packs a list in one format as the server encodes it register by register.** -/
theorem payload_list {ns : List ℤ} (h : AllInRange addr (ns.map .int)) :
    payload addr (.list ns) = encodeRegs addr (ns.map .int) := by
  obtain ⟨css, hcss, hpack⟩ := h.mapM_toCodes
  rw [List.length_map] at hcss
  rw [payload, hcss, ok_bind]
  exact hpack 0 rfl

theorem payload_int (addr : ℕ) (n : ℤ) : payload addr (.int n) = encodeReg addr (.int n) := rfl

/-- Only registers up to 850 have a type. -/
theorem InRange.lt {v : Value} (h : InRange addr v) : addr < 851 := by
  obtain ⟨cs, -, htype, hne⟩ := h.exists_codes
  by_contra hle
  apply hne
  have hnone : fpgaTelemRegs[addr - fpgaTelem]? = none := by
    apply List.getElem?_eq_none
    have hlen : fpgaTelemRegs.length = 51 := rfl
    rw [hlen]
    unfold fpgaTelem
    omega
  have hdefault : baseType addr = .codes [.x, .x, .x, .x] := by
    unfold baseType temperatureBlock currentBlock dacBlock dacSetup dacEnable dacReset dac1A
      edfaInStr
      edfaOutStr edfaEnPin edfaMode edfaDiodeOn edfaMysteryTemp edfaPowerIn edfaPowerOut
          edfaPreCurrent
      edfaPrePower edfaPumpCurrent edfaCaseTemp
    simp only [List.mem_range'_1]
    repeat rw [if_neg (by omega)]
  have hbase : registerType addr = baseType addr := by
    unfold registerType
    split
    · rfl
    · rw [hnone]
  exact RegisterType.codes.inj (htype.symm.trans (hbase.trans hdefault))

theorem AllInRange.lt (h : AllInRange addr vs) (hne : vs ≠ []) : addr + vs.length ≤ 851 := by
  have hpos : 0 < vs.length := List.length_pos_iff.mpr hne
  have hlast := (h (vs.length - 1) (by omega)).lt
  omega

theorem AllInRange.ne_str (h : AllInRange addr vs) (hne : vs ≠ []) : registerType addr ≠ .str := by
  obtain ⟨v, vs, rfl⟩ := List.exists_cons_of_ne_nil hne
  obtain ⟨cs, -, htype, -⟩ := h.head.exists_codes
  rw [htype]
  exact RegisterType.noConfusion

end Registers

/-! ## Writes -/

section Writes

variable {env : Env} {s s' : State} {addr fut : ℕ} {value : WriteValue} {data : Bytes} {ns : List ℤ}
  {vs : List Value}

/-- The numbers that the server decodes from a write are those that the client was given. -/
def Written (env : Env) (addr : ℕ) (value : WriteValue) (ns : List ℤ) : Prop :=
  ∀ s, ∃ fut s' req raw, writeRegAsync env addr value s = .ok fut s' ∧ s'.sent = s.sent ++ [req] ∧
    req.encode = .ok raw ∧ FPGAMapRequestPacket.decode raw = .ok req ∧
    req.startAddr ≠ edfaInStr ∧ req.startAddr ≠ edfaOutStr ∧
    ∃ vs, valuesIn req = .ok vs ∧ List.Forall₂ Same (ns.map .int) vs

/-- The string that the server hands to the EDFA for a request is the one that the client was
given. -/
def HandsOver (req : FPGAMapRequestPacket) (b : Bytes) : Prop :=
  ∀ server, serveInStr server req = do
    Edfa.resetFifo server
    let errorFlag ← Edfa.writeString server b
    answer req (.str []) errorFlag.toNat

/-- The same for a string. Only the size field of a request limits it. -/
structure WrittenString (env : Env) (b : Bytes) (s : State) : Prop where
  sent : b.length + 8 ≤ 2 ^ 32 → ∃ fut s', writeRegAsync env edfaInStr (.str b) s = .ok fut s'
  decoded : ∀ fut s', writeRegAsync env edfaInStr (.str b) s = .ok fut s' → ∃ req raw,
    s'.sent = s.sent ++ [req] ∧ req.encode = .ok raw ∧ FPGAMapRequestPacket.decode raw = .ok req ∧
    req.startAddr = edfaInStr ∧ HandsOver req b

/-- The request of a write. -/
def writeRequest (env : Env) (s : State) (addr : ℕ) (data : Bytes) : FPGAMapRequestPacket :=
  ⟨env.pid, s.ticked.token, 1, addr, data.length, data⟩

theorem writeRegAsync_of_ok {raw : Bytes} (hdata : payload addr value = .ok data)
    (h : (writeRequest env s addr data).encode = .ok raw) : writeRegAsync env addr value s =
      .ok s.futures.length (s.ticked.requested (writeRequest env s addr data)) := by
  unfold writeRegAsync
  rw [bind_of_ok (getToken_eq s)]
  have hpayload : pureStatement (payload addr value) s.ticked = .ok data s.ticked := by
    unfold pureStatement
    rw [hdata]
    rfl
  rw [bind_of_ok hpayload]
  exact sendRequest_of_ok h

/-- A write that does not raise was encoded. -/
theorem exists_of_writeRegAsync (h : writeRegAsync env addr value s = .ok fut s') :
    ∃ data raw, payload addr value = .ok data ∧ (writeRequest env s addr data).encode = .ok raw ∧
      s' = s.ticked.requested (writeRequest env s addr data) := by
  cases hdata : payload addr value with
  | error e =>
    exfalso
    unfold writeRegAsync at h
    rw [bind_of_ok (getToken_eq s), hdata] at h
    exact absurd h (by simp [pureStatement, lift, bind, EStateM.bind, Except.mapError])
  | ok data =>
    cases hraw : (writeRequest env s addr data).encode with
    | error e =>
      exfalso
      unfold writeRegAsync at h
      have hpayload : pureStatement (payload addr value) s.ticked = .ok data s.ticked := by
        unfold pureStatement
        rw [hdata]
        rfl
      rw [bind_of_ok (getToken_eq s), bind_of_ok hpayload] at h
      have herror := sendRequest_of_error (s := s.ticked) hraw
      exact absurd (h.symm.trans herror) (by simp)
    | ok raw =>
      rw [writeRegAsync_of_ok hdata hraw] at h
      obtain ⟨-, rfl⟩ := EStateM.Result.ok.inj h
      exact ⟨data, raw, rfl, hraw, rfl⟩

theorem valid_writeRequest (haddr : addr < 2 ^ 16) (hmod : data.length % 4 = 0)
    (hlen : data.length < 2 ^ 32) : (writeRequest env s addr data).Valid where
  returnAddr := env.pid_lt
  rqNumber := by
    have htoken : s.ticked.token < 255 := Nat.mod_lt _ (by decide)
    show s.ticked.token < 2 ^ 8
    omega
  rwFlag := .inr rfl
  startAddr := haddr
  size := hlen
  read h := absurd h (by simp [writeRequest])
  write _ := ⟨rfl, hmod⟩

/-- The server decodes what the client packs. -/
theorem written_of_encodeRegs (hne : ns ≠ []) (h : AllInRange addr (ns.map .int))
    (hvalue : payload addr value = encodeRegs addr (ns.map .int)) : Written env addr value ns := by
  intro s
  obtain ⟨data, vs, hdata, hdecode, -, hsame⟩ := h.exists_encodeRegs
  have hlen := length_encodeRegs hdata
  rw [List.length_map] at hlen hdecode
  have hbound := h.lt (by simpa using hne)
  rw [List.length_map] at hbound
  have hpos : 0 < ns.length := List.length_pos_iff.mpr hne
  have hvalid : (writeRequest env s addr data).Valid :=
    valid_writeRequest (by omega) (by omega) (by omega)
  have hraw := hvalid.encode_eq
  have hnumber : registerNumber (writeRequest env s addr data) = ns.length := by
    show data.length / 4 = ns.length
    omega
  have hstr := h.ne_str (by simpa using hne)
  refine ⟨_, _, _, _, writeRegAsync_of_ok (hvalue.trans hdata) hraw, rfl, hraw,
    FPGAMapRequestPacket.decode_encode hvalid hraw, ?_, ?_, vs, ?_, hsame⟩
  · rintro hsame
    apply hstr
    rw [show addr = edfaInStr from hsame]
    rfl
  · rintro hsame
    apply hstr
    rw [show addr = edfaOutStr from hsame]
    rfl
  · rw [valuesIn, if_pos ⟨Nat.one_ne_zero, by omega⟩, addresses, hnumber]
    exact hdecode

theorem pack_I {n : ℕ} (h : n < 2 ^ 32) : pack (native [.I]) [.int n] = .ok (leBytes 4 n) := by
  rw [pack, packFrom_cons Code.noConfusion, packOne_I h, ok_bind]
  simp [packFrom, gap, Code.align]

/-- A string is sent behind its length. -/
theorem payload_str (addr : ℕ) {b : Bytes} (h : b.length < 2 ^ 32) :
    payload addr (.str b) = .ok (leBytes 4 b.length ++ padded b) := by
  rw [payload, pack_I h, ok_bind]
  rfl

theorem unpack_leBytes {n : ℕ} (h : n < 2 ^ 32) :
    unpack (native [.I]) (leBytes 4 n) = .ok [.int n] :=
  unpack_pack (.cons (exact_int 4 n) .nil) (pack_I h)

theorem lt_of_payload_str {b : Bytes} (h : payload addr (.str b) = .ok data) :
    b.length < 2 ^ 32 := by
  obtain ⟨lstr, hlstr, -⟩ := bind_eq_ok.mp h
  exact (FPGAMapRequestPacket.lt_of_packFrom hlstr).1

/-- A string behind its length, without what it is filled up with. -/
theorem slice_padded (b : Bytes) :
    slice (leBytes 4 b.length ++ padded b) 0 4 = leBytes 4 b.length ∧
    slice (leBytes 4 b.length ++ padded b) 4 (4 + b.length) = b := by
  have hlen := length_leBytes 4 b.length
  constructor
  · rw [show (4 : ℤ) = ((4 : ℕ) : ℤ) from rfl, slice_zero]
    exact List.take_left' hlen
  · have hslice := slice_nat (leBytes 4 b.length ++ padded b) 4 (4 + b.length)
    push_cast at hslice
    rw [hslice, List.take_append, hlen, Nat.add_sub_cancel_left, List.take_of_length_le (by omega),
      List.drop_left' hlen, padded, List.take_left]

theorem lift_ok_bind {ε σ α β : Type} (a : α) (f : α → EStateM ε σ β) :
    (lift (.ok a) >>= f) = f a := rfl

/-- The server hands over the string. -/
theorem handsOver_of_data {req : FPGAMapRequestPacket} {b : Bytes} (hlt : b.length < 2 ^ 32)
    (hdata : req.writeData = leBytes 4 b.length ++ padded b)
    (hsize : req.size = req.writeData.length) :
    HandsOver req b := by
  intro server
  have hlen : req.size = 4 + b.length + (4 - b.length % 4) % 4 := by
    rw [hsize, hdata, padded]
    simp [Nat.add_assoc]
  obtain ⟨hfirst, hrest⟩ := slice_padded b
  have hthree : checkAssert (req.size > 3) = .ok () := checkAssert_of (by omega)
  have hfits : checkAssert (req.size ≥ b.length + 4) = .ok () := checkAssert_of (by omega)
  have hunpack : unpack (native [.I]) (slice req.writeData 0 4) = .ok [.int b.length] := by
    rw [hdata, hfirst]
    exact unpack_leBytes hlt
  have hlength : (index [Value.int b.length] 0 >>= bits) = .ok b.length := by
    rw [index_cons_zero, ok_bind]
    rfl
  unfold serveInStr
  apply congrArg (Edfa.resetFifo server >>= ·)
  funext _
  rw [hthree, lift_ok_bind, hunpack, lift_ok_bind, hlength, lift_ok_bind, hfits, lift_ok_bind,
    hdata]
  rw [hrest]

theorem length_payload_str (b : Bytes) :
    (leBytes 4 b.length ++ padded b).length = 4 + b.length + (4 - b.length % 4) % 4 := by
  rw [padded]
  simp [Nat.add_assoc]

theorem writtenString (env : Env) (b : Bytes) (s : State) : WrittenString env b s where
  sent hlen := by
    have hdata := payload_str edfaInStr (b := b) (by omega)
    have hlength := length_payload_str b
    have hvalid : (writeRequest env s edfaInStr (leBytes 4 b.length ++ padded b)).Valid :=
      valid_writeRequest (by decide) (by omega) (by omega)
    exact ⟨_, _, writeRegAsync_of_ok hdata hvalid.encode_eq⟩
  decoded fut s' h := by
    obtain ⟨data, raw, hdata, hraw, rfl⟩ := exists_of_writeRegAsync h
    have hlt := lt_of_payload_str hdata
    rw [payload_str edfaInStr hlt] at hdata
    obtain rfl := Except.ok.inj hdata
    have hvalid := FPGAMapRequestPacket.valid_of_encode hraw
    exact ⟨_, raw, rfl, hraw, FPGAMapRequestPacket.decode_encode hvalid hraw, rfl,
      handsOver_of_data hlt rfl rfl⟩

end Writes

/-! ## Answers -/

section Answers

variable {req : FPGAMapRequestPacket} {vs : List Value}

/-- What a client gets for a list: a list of equal numbers, or the number of a list of one. -/
inductive Returns : List Value → RegValue → Prop
  | single {v v' : Value} (h : Same v v') : Returns [v] (.single v')
  | list {vs vs' : List Value} (hmany : 2 ≤ vs.length) (h : List.Forall₂ Same vs vs') :
      Returns vs (.list vs')

/-- The answer with a list is sent, and the client gets the list. -/
def Answered (req : FPGAMapRequestPacket) (vs : List Value) : Prop :=
  ∀ errorFlag w, Ensures (answer req (.list vs) errorFlag) (fun _ w' => ∃ raw pck value,
    w' = { w with answers := w.answers ++ [raw] } ∧ FPGAMapAnswerPacket.decode raw = .ok pck ∧
    decodePayload pck = .ok value ∧ Returns vs value) w

/-- The same for a string. Only the size field of an answer limits it. -/
structure AnsweredString (req : FPGAMapRequestPacket) (b : Bytes) (errorFlag : ℕ) (w : World) :
    Prop where
  sent : b.length + 8 ≤ 2 ^ 32 → Ensures (answer req (.str b) errorFlag) (fun _ _ => True) w
  decoded : Allows (answer req (.str b) errorFlag) (fun _ w' => ∃ raw pck,
    w' = { w with answers := w.answers ++ [raw] } ∧ FPGAMapAnswerPacket.decode raw = .ok pck ∧
    decodePayload pck = .ok (.str b)) w

/-- The client decodes what the server encodes. -/
theorem decodePayload_list (pck : FPGAMapAnswerPacket) (hne : vs ≠ [])
    (h : AllInRange pck.startAddr vs)
    (hencode : encodeRegs pck.startAddr vs = .ok pck.readData)
    (hsize : pck.size = pck.readData.length) :
    ∃ value, decodePayload pck = .ok value ∧ Returns vs value := by
  obtain ⟨raw, vs', hraw, -, hlist, hsames⟩ := h.exists_encodeRegs
  obtain rfl := Except.ok.inj (hraw.symm.trans hencode)
  have hlen := length_encodeRegs hraw
  have hpos : 0 < vs.length := List.length_pos_iff.mpr hne
  unfold decodePayload
  rw [if_neg (by omega), if_neg (h.ne_str hne)]
  by_cases hmany : pck.size > 4
  · rw [if_pos hmany, show pck.size / 4 = vs.length by omega, hlist]
    exact ⟨.list vs', rfl, .list (by omega) hsames⟩
  · rw [if_neg hmany]
    obtain ⟨v, rfl⟩ := List.length_eq_one_iff.mp (by omega : vs.length = 1)
    obtain ⟨first, v', hfirst, -, hone, hsame⟩ := h.head.exists_encodeReg
    have hdata : encodeRegs pck.startAddr [v] = .ok first := by
      rw [encodeRegs, hfirst]
      simp [encodeRegs]
    obtain rfl := Except.ok.inj (hdata.symm.trans hraw)
    rw [hone]
    exact ⟨.single v', rfl, .single hsame⟩

theorem decodePayload_str (pck : FPGAMapAnswerPacket) {b : Bytes}
    (hstr : registerType pck.startAddr = .str) (hlt : b.length < 2 ^ 32)
    (hdata : pck.readData = leBytes 4 b.length ++ padded b)
    (hsize : pck.size = pck.readData.length) :
    decodePayload pck = .ok (.str b) := by
  have hlen := length_payload_str b
  rw [← hdata, ← hsize] at hlen
  obtain ⟨hfirst, hrest⟩ := slice_padded b
  unfold decodePayload
  rw [if_neg (by omega), if_pos hstr, hdata, hfirst, unpack_leBytes hlt, ok_bind, index_cons_zero,
    ok_bind]
  show pure (RegValue.str (slice (leBytes 4 b.length ++ padded b) 4 (b.length + 4))) = _
  rw [Int.add_comm, hrest]
  rfl

theorem answered (hreq : req.Valid) (hne : vs ≠ []) (h : AllInRange req.startAddr vs) :
    Answered req vs := by
  intro errorFlag w
  obtain ⟨encData, vs', hencode, -⟩ := h.exists_encodeRegs
  have hlen := length_encodeRegs hencode
  have hbound := h.lt hne
  have hpayload : encodePayload req.startAddr (.list vs) = .ok encData := by
    rw [encodePayload, if_neg (h.ne_str hne)]
    exact hencode
  apply (ensures_answer hreq hpayload (by omega) errorFlag w).imp
  rintro _ w' ⟨raw, rfl, hraw⟩
  obtain ⟨value, hvalue, hreturns⟩ := decodePayload_list
    ⟨req.returnAddr, req.rqNumber, req.rwFlag, errorFlag % 2, req.startAddr, encData.length,
      encData⟩
    hne h hencode rfl
  exact ⟨raw, _, value, rfl, hraw, hvalue, hreturns⟩

/-- The server sends a string as the client does. -/
theorem encodePayload_str (hstr : registerType req.startAddr = .str) (b : Bytes) :
    encodePayload req.startAddr (.str b) = payload req.startAddr (.str b) := by
  rw [encodePayload, if_pos hstr]
  rfl

theorem answeredString (hreq : req.Valid) (hstr : registerType req.startAddr = .str) (b : Bytes)
    (errorFlag : ℕ) (w : World) : AnsweredString req b errorFlag w where
  sent hlen := by
    have hencode := encodePayload_str hstr b
    rw [payload_str req.startAddr (by omega)] at hencode
    have hlength := length_payload_str b
    exact (ensures_answer hreq hencode (by omega) errorFlag w).imp fun _ _ _ => trivial
  decoded := by
    unfold answer
    cases hencode : encodePayload req.startAddr (.str b) with
    | error e => trivial
    | ok encData =>
      have hmod := length_encodePayload_mod hencode
      rw [encodePayload_str hstr] at hencode
      have hlt := lt_of_payload_str hencode
      rw [payload_str req.startAddr hlt] at hencode
      rw [Allows, wp_bind, wp_lift_ok, wp_bind]
      cases hraw : FPGAMapAnswerPacket.encode req.returnAddr req.rqNumber req.rwFlag errorFlag
          req.startAddr encData.length encData with
      | error e => trivial
      | ok raw =>
        rw [wp_lift_ok, wp_modify]
        exact ⟨raw, _, rfl, FPGAMapAnswerPacket.decode_encode hmod hraw,
          decodePayload_str _ hstr hlt (Except.ok.inj hencode).symm rfl⟩

end Answers

/-! ## Both ways -/

/-- What is written from an address on, and what is answered there. -/
structure Survive (env : Env) (addr : ℕ) : Prop where
  list : ∀ ns : List ℤ, ns ≠ [] → AllInRange addr (ns.map .int) → Written env addr (.list ns) ns
  int : ∀ n : ℤ, InRange addr (.int n) → Written env addr (.int n) [n]
  string : ∀ b s, WrittenString env b s
  answeredList : ∀ (req : FPGAMapRequestPacket) (vs : List Value), req.Valid →
      req.startAddr = addr →
    vs ≠ [] → AllInRange addr vs → Answered req vs
  answeredString : ∀ (req : FPGAMapRequestPacket) (b : Bytes) (errorFlag : ℕ)
      (w : World), req.Valid →
    req.startAddr = addr → registerType addr = .str → AnsweredString req b errorFlag w

theorem allInRange_singleton {addr : ℕ} {v : Value} (h : InRange addr v) : AllInRange addr [v] := by
  intro i hi
  obtain rfl : i = 0 := by simpa using hi
  exact h

/-- Values and strings survive the way from the client to the server, and the way back. -/
theorem survive (env : Env) (addr : ℕ) : Survive env addr where
  list ns hne h := written_of_encodeRegs hne h (payload_list h)
  int n h := by
    have hall : AllInRange addr ([n].map .int) := allInRange_singleton h
    apply written_of_encodeRegs (by simp) hall
    rw [payload_int, List.map_singleton, encodeRegs]
    cases encodeReg addr (.int n) with
    | error e => rfl
    | ok raw => simp [encodeRegs]
  string b s := writtenString env b s
  answeredList req vs hreq haddr hne h := by
    subst haddr
    exact answered hreq hne h
  answeredString req b errorFlag w hreq haddr hstr := by
    subst haddr
    exact answeredString hreq hstr b errorFlag w

/-- A list over the end of a block: `DAC_RESET` takes a byte, and the first channel takes two. -/
theorem survive_dac : Written (constantServer (fun _ => 0) (fun _ => 0) fun _ => true) dacReset
    (.list [3, 1000]) [3, 1000] := by
  apply (survive _ dacReset).list [3, 1000] (by simp)
  intro i hi
  match i, hi with
  | 0, _ => exact .int .byte (by decide) (by decide)
  | 1, _ => exact .int .short (by decide) (by decide)

end ClickA.Client
