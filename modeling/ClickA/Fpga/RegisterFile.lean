import ClickA.Fpga.ErrorFlag
import ClickA.Fpga.Reading
import ClickA.Stream.Written

/-!
# The register file

If the FPGA keeps what is written to its registers, then the server is a register file for its
clients: a request that reads is answered with what the requests before it have last written,
whichever client they came from and whatever virtual registers were served in between. These touch
the registers of the DACs and of the UART only, and those of the telemetry packet if they write it.

## Main definitions

* `writesOf`, `writeLog`: what transfers write
* `Env.Stores`: an FPGA that echoes addresses, and keeps what is written to some registers
* `requestWrites`, `touched`: what a request writes to the registers, and where the server writes
  otherwise
* `run`, `served`: the loop, and the requests that it serves

## Main results

* `writesWithin_serveVirtual`: virtual registers touch a few registers only
* `stored_run`: what the registers hold after a run
* `answered_of_run`: what a request of registers is answered with
-/

namespace ClickA.Fpga

open Python Options Stream

/-! ## What transfers write -/

/-- The writes of a transfer: the words with the bit of the direction, address and value. -/
def writesOf : Bytes → List (ℕ × UInt8)
  | b :: v :: l =>
    if b.toNat.testBit 7 then (b.toNat &&& 0x7F, v) :: writesOf l else writesOf l
  | _ => []

/-- The writes of transfers, in order. -/
def writeLog (xfers : List Bytes) : List (ℕ × UInt8) := xfers.flatMap writesOf

/-- An FPGA that echoes the address of each word of the transfers, and answers a word of a transfer
that writes nothing with what the register holds, if that is one of those that keep what is written
to them. -/
structure Env.Stores (env : Env) (initial : ℕ → UInt8) (S : ℕ → Prop) (xfers : List Bytes) :
    Prop where
  echo : ∀ i out k, xfers[i]? = some out → 2 * k + 2 < out.length →
    (env.reply i out)[2 * k + 2]? = out[2 * k]?
  read : ∀ i out k b, xfers[i]? = some out → writesOf out = [] → out[2 * k]? = some b →
    2 * k + 3 < out.length → S (b.toNat &&& 0x7F) → (env.reply i out)[2 * k + 3]? =
      some (stored initial (writeLog (xfers.take i)) (b.toNat &&& 0x7F))

section Writes

theorem writeLog_append (xfers xfers' : List Bytes) :
    writeLog (xfers ++ xfers') = writeLog xfers ++ writeLog xfers' := List.flatMap_append

/-- A write is a word of the transfer. -/
theorem exists_of_mem_writesOf {xfer : Bytes} {p : ℕ × UInt8} (h : p ∈ writesOf xfer) :
    ∃ k b, xfer[2 * k]? = some b ∧ b.toNat.testBit 7 ∧ b.toNat &&& 0x7F = p.1 := by
  induction xfer using writesOf.induct with
  | case1 b v l hbit ih =>
    rw [writesOf, if_pos hbit] at h
    rcases List.mem_cons.mp h with rfl | h
    · exact ⟨0, b, rfl, hbit, rfl⟩
    · obtain ⟨k, c, hc, hrest⟩ := ih h
      exact ⟨k + 1, c, hc, hrest⟩
  | case2 b v l hbit ih =>
    rw [writesOf, if_neg hbit] at h
    obtain ⟨k, c, hc, hrest⟩ := ih h
    exact ⟨k + 1, c, hc, hrest⟩
  | case3 l hshort =>
    rw [writesOf] at h
    · exact absurd h List.not_mem_nil
    · exact hshort

/-- The writes of words of one direction, behind which nothing is written. -/
theorem writesOf_words (dir addr : ℕ) (ns : List ℤ) (h : addr + ns.length ≤ 128) :
    writesOf (words dir addr ns ++ [0, 0]) =
      if dir.testBit 0 then (List.range' addr ns.length).zip (ns.map valByte) else [] := by
  induction ns generalizing addr with
  | nil =>
    rw [words]
    split_ifs <;> rfl
  | cons n ns ih =>
    rw [List.length_cons] at h
    have hrest := ih (addr + 1) (by omega)
    rw [words, List.cons_append, List.cons_append, writesOf, testBit_addrByte, addrByte_and,
      Nat.mod_eq_of_lt (by omega), hrest]
    by_cases hdir : dir.testBit 0 = true
    · rw [if_pos hdir, if_pos hdir, if_pos hdir, List.length_cons, List.range'_succ, List.map_cons,
        List.zip_cons_cons]
    · rw [if_neg hdir, if_neg hdir, if_neg hdir]

end Writes

/-! ## Virtual registers touch a few registers only -/

/-- The transfers since a state write to some registers only. -/
def WritesWithin (T : List ℕ) (w w' : World) : Prop :=
  ∃ sent, w'.xfers = w.xfers ++ sent ∧ ∀ p ∈ writeLog sent, p.1 ∈ T

instance (T : List ℕ) : Std.Refl (WritesWithin T) :=
  ⟨fun _ => ⟨[], (List.append_nil _).symm, fun _ hp => absurd hp List.not_mem_nil⟩⟩

instance (T : List ℕ) : IsTrans World (WritesWithin T) where
  trans := by
    rintro w₁ w₂ w₃ ⟨sent, hsent, hall⟩ ⟨sent', hsent', hall'⟩
    refine ⟨sent ++ sent', by rw [hsent', hsent, List.append_assoc], fun p hp => ?_⟩
    rw [writeLog_append] at hp
    exact (List.mem_append.mp hp).elim (hall p) (hall' p)

/-- The registers of the DACs, and the transmit register of the UART. -/
def serverRegs : List ℕ := [thrA, thrB, thrC, fsmA, fsmB, fsmC, etx]

/-- The registers that the server may write to for a request of virtual registers: those of the
telemetry packet too, if the request writes it. -/
def touched (req : FPGAMapRequestPacket) : List ℕ :=
  serverRegs ++ if req.rwFlag ≠ 0 ∧ fpgaTelem ∈ addresses req then fpgaTelemRegs else []

section Within

variable {env : Env} {T : List ℕ} {req : FPGAMapRequestPacket} {α : Type}

/-- What writes no register but `ETX`. -/
theorem Keeps.writesWithin {x : Server α} (h : Keeps Spares x) (hT : etx ∈ T) :
    Keeps (WritesWithin T) x := by
  refine h.imp ?_
  rintro w w' ⟨sent, hsent, hall⟩
  refine ⟨sent, hsent, fun p hp => ?_⟩
  obtain ⟨xfer, hxfer, hp⟩ := List.mem_flatMap.mp hp
  obtain ⟨k, b, hb, hbit, haddr⟩ := exists_of_mem_writesOf hp
  rw [← haddr, hall xfer hxfer k b hb hbit]
  exact hT

/-- A transfer writes to its registers only. -/
theorem writesWithin_transfer {addrs ws : List ℕ} (h : ∀ addr ∈ addrs, addr % 128 ∈ T)
    (values : List Value) : Keeps (WritesWithin T) (transfer env addrs ws values) := fun w => by
  cases hdata : encAll addrs ws values with
  | error e =>
    unfold transfer
    rw [hdata, wp_bind, wp_lift_error]
    exact refl_of (WritesWithin T) w
  | ok dataIn =>
    rw [wp_of_ok (transfer_of_encAll hdata)]
    refine ⟨[dataIn ++ [0, 0]], rfl, fun p hp => ?_⟩
    rw [writeLog, List.flatMap_singleton] at hp
    obtain ⟨k, b, hb, hbit, haddr⟩ := exists_of_mem_writesOf hp
    rcases Nat.lt_or_ge (2 * k) dataIn.length with hlt | hle
    · rw [List.getElem?_append_left hlt] at hb
      obtain ⟨addr, hmem, dir, -, rfl⟩ := exists_addrByte_of_encAll hdata hb
      rw [← haddr, addrByte_and]
      exact h addr hmem
    · rw [List.getElem?_append_right hle] at hb
      have hzero : b = 0 := by
        rcases List.mem_pair.mp (List.mem_of_getElem? hb) with rfl | rfl <;> rfl
      rw [hzero] at hbit
      exact absurd hbit (by decide)

variable (hT : serverRegs ⊆ T)

include hT

theorem writesWithin_writeCommand (targetDac command : ℕ) :
    Keeps (WritesWithin T) (Dac.writeCommand env targetDac command) := by
  unfold Dac.writeCommand
  cases haddr : Dac.dacAddr targetDac with
  | none => exact keeps_pure _
  | some addr =>
    refine keeps_bind (writesWithin_transfer (fun a ha => hT ?_) _) fun _ => keeps_pure _
    have hmem : ∀ a ∈ [thrA, thrB, thrC, fsmA, fsmB, fsmC], a % 128 ∈ serverRegs := by decide
    unfold Dac.dacAddr at haddr
    split_ifs at haddr
    all_goals
      obtain rfl := Option.some.inj haddr
      refine hmem a ?_
      simp only [List.mem_cons, List.not_mem_nil, or_false] at ha ⊢
      omega

theorem writesWithin_reset (targetDac isPor : ℕ) :
    Keeps (WritesWithin T) (Dac.reset env targetDac isPor) :=
  keeps_ite (writesWithin_writeCommand hT _ _) (writesWithin_writeCommand hT _ _)

theorem writesWithin_setReference (targetDac refEnabled : ℕ) :
    Keeps (WritesWithin T) (Dac.setReference env targetDac refEnabled) :=
  keeps_ite (writesWithin_writeCommand hT _ _) (writesWithin_writeCommand hT _ _)

theorem writesWithin_setOutputMode (mask : ℕ) :
    Keeps (WritesWithin T) (Dac.setOutputMode env mask) := by
  unfold Dac.setOutputMode
  dsimp only
  have hhigh : Keeps (WritesWithin T) (if mask &&& 0xFF00 ≠ 0 then
      Dac.writeCommand env 2 (Dac.dacPower ||| (mask &&& 0x300) >>> 4 ||| (mask &&& 0xFF00) >>> 8)
      else pure PUnit.unit) := keeps_ite (writesWithin_writeCommand hT _ _) (keeps_pure _)
  split
  · exact keeps_bind (writesWithin_writeCommand hT _ _) fun _ => hhigh
  · exact hhigh

theorem writesWithin_init (targetDac : ℕ) : Keeps (WritesWithin T) (Dac.init env targetDac) :=
  keeps_bind (writesWithin_reset hT _ _) fun _ =>
    keeps_bind (writesWithin_setReference hT _ _) fun _ => writesWithin_setOutputMode hT 0

theorem writesWithin_resetDacs (value : ℕ) : Keeps (WritesWithin T) (resetDacs env value) := by
  unfold resetDacs
  dsimp only
  have hfsm : Keeps (WritesWithin T) (if value &&& 0b10 ≠ 0 then
      Dac.reset env 2 ((value &&& 0b1000) >>> 3) else pure PUnit.unit) :=
    keeps_ite (writesWithin_reset hT _ _) (keeps_pure _)
  split
  · exact keeps_bind (writesWithin_reset hT _ _) fun _ =>
      keeps_bind (writesWithin_setReference hT _ _) fun _ => hfsm
  · exact hfsm

theorem writesWithin_writeAndUpdate (targetChan value : ℕ) :
    Keeps (WritesWithin T) (Dac.writeAndUpdate env targetChan value) := by
  unfold Dac.writeAndUpdate checkAsserts
  rw [if_pos rfl]
  exact keeps_bind (keeps_lift _) fun _ => writesWithin_writeCommand hT _ _

theorem writesWithin_dacChannel (addr : ℕ) (value : Value) :
    Keeps (WritesWithin T) (dacChannel env req addr value) := by
  unfold dacChannel
  generalize addr - dac1A = targetChan
  dsimp only
  split
  · exact keeps_bind (keeps_lift _) fun command =>
      keeps_bind (writesWithin_writeAndUpdate hT _ command) fun _ => keeps_pure _
  · exact keeps_pure _

/-- The registers of the telemetry packet are written in the direction of the request. -/
theorem writesWithin_telemRegs (htelem : req.rwFlag ≠ 0 → fpgaTelemRegs ⊆ T) (value : Value)
    (regs : Edfa.Regs) : Keeps (WritesWithin T) (telemRegs env req value regs) := by
  have hetx : etx ∈ T := hT (by decide)
  by_cases hread : req.rwFlag = 0
  · exact Keeps.writesWithin (spares_telemRegs hread value regs) hetx
  have htelem := htelem hread
  refine keeps_foldlM_of_mem (fun _ addr haddr => keeps_bind ?_ fun _ => keeps_pure _) _
  unfold telemReg
  split_ifs with htemp hcurrent hdac hedfa
  · exact Keeps.writesWithin (spares_temperature addr) hetx
  · exact Keeps.writesWithin (spares_current addr) hetx
  · exact writesWithin_dacChannel hT addr value
  · exact keeps_lift _
  · refine keeps_bind (writesWithin_transfer (fun a ha => ?_) _) fun _ =>
      keeps_bind (keeps_lift _) fun _ => keeps_pure _
    have hraw : ∀ addr ∈ fpgaTelemRegs, addr ∈ temperatureBlock ∨ addr ∈ currentBlock ∨
        addr ∈ dacBlock ∨ addr ∈ edfaParsedBlock ∨ addr < 128 := by decide
    have hlt : addr < 128 := by
      rcases hraw addr haddr with h | h | h | h | h
      · exact absurd h htemp
      · exact absurd h hcurrent
      · exact absurd h hdac
      · exact absurd h hedfa
      · exact h
    rw [List.mem_singleton.mp ha, Nat.mod_eq_of_lt hlt]
    exact htelem haddr

theorem writesWithin_answer (data : Payload) (errorFlag : ℕ) :
    Keeps (WritesWithin T) (answer req data errorFlag) :=
  Keeps.writesWithin (spares_answer data errorFlag) (hT (by decide))

/-- One virtual register. -/
theorem writesWithin_virtualReg {reg : ℕ × Value}
    (htelem : req.rwFlag ≠ 0 → reg.1 = fpgaTelem → fpgaTelemRegs ⊆ T)
    (acc : List Value × Edfa.Regs) :
    Keeps (WritesWithin T) (virtualReg env req acc reg) := by
  obtain ⟨valuesOut, regs⟩ := acc
  obtain ⟨addr, value⟩ := reg
  have hetx : etx ∈ T := hT (by decide)
  have hlift {β γ : Type} {y : Except Exn β} {f : β → Server Unit} {c : γ}
      (hf : ∀ b, Keeps (WritesWithin T) (f b)) :
      Keeps (WritesWithin T) (lift y >>= fun b => f b >>= fun _ => pure c) :=
    keeps_bind (keeps_lift _) fun b => keeps_bind (hf b) fun _ => keeps_pure _
  unfold virtualReg
  dsimp only
  split_ifs with htemp hcurrent hedfa hsetup henable hreset hdac htel
  · exact keeps_bind (Keeps.writesWithin (spares_temperature addr) hetx) fun _ => keeps_pure _
  · exact keeps_bind (Keeps.writesWithin (spares_current addr) hetx) fun _ => keeps_pure _
  · exact keeps_bind (keeps_lift _) fun _ => keeps_pure _
  · exact hlift fun target => writesWithin_init hT target
  · exact hlift fun mask => writesWithin_setOutputMode hT mask
  · exact hlift fun value => writesWithin_resetDacs hT value
  · exact keeps_bind (writesWithin_dacChannel hT addr value) fun _ => keeps_pure _
  · exact keeps_bind (Keeps.writesWithin (spares_updateEdfa env regs) hetx) fun regs =>
      keeps_bind (writesWithin_telemRegs hT (fun hwrite => htelem hwrite htel) value regs)
        fun _ => keeps_pure _
  · exact keeps_bind (writesWithin_answer hT _ _) fun _ => keeps_pure _

theorem writesWithin_serveVirtual (htouched : touched req ⊆ T) (values : List Value)
    (regs : Edfa.Regs) : Keeps (WritesWithin T) (serveVirtual env req values regs) := by
  have hetx : etx ∈ T := hT (by decide)
  have hrefresh : Keeps (WritesWithin T) (refreshEdfa env req regs) := by
    unfold refreshEdfa
    refine keeps_ite (fun w => ?_) (keeps_pure _)
    rw [wp_bind, wp_get]
    exact keeps_ite (Keeps.writesWithin (spares_updateEdfa env regs) hetx) (keeps_pure _) w
  refine keeps_bind hrefresh fun regs => keeps_bind (keeps_foldlM_of_mem (fun acc reg hreg => ?_) _)
    ?_
  · refine writesWithin_virtualReg hT (fun hwrite haddr => ?_) acc
    have hmem : fpgaTelem ∈ addresses req := haddr ▸ (List.of_mem_zip hreg).1
    exact fun a ha => htouched (List.mem_append_right _ (by rwa [if_pos ⟨hwrite, hmem⟩]))
  · rintro ⟨valuesOut, regs⟩
    exact keeps_bind (writesWithin_answer hT _ _) fun _ => keeps_pure _

end Within

/-- A request that does not begin with a register of the FPGA writes to those that it touches. -/
theorem writesWithin_serve {env : Env} {req : FPGAMapRequestPacket} (h128 : 128 ≤ req.startAddr)
    (regs : Edfa.Regs) : Keeps (WritesWithin (touched req)) (serve env req regs) := by
  have hT : serverRegs ⊆ touched req := List.subset_append_left _ _
  have hetx : etx ∈ touched req := hT (by decide)
  unfold serve
  refine keeps_ite ?_ <| keeps_ite ?_ ?_
  · refine keeps_bind (keeps_bind ?_ fun _ => keeps_bind (keeps_lift _) fun _ =>
      keeps_bind (keeps_lift _) fun _ => keeps_bind (keeps_lift _) fun _ =>
        keeps_bind (keeps_lift _) fun _ => ?_) fun _ => keeps_pure _
    · exact Keeps.writesWithin (keeps_bind (spares_readString env) fun _ => keeps_pure _) hetx
    · exact keeps_bind (Keeps.writesWithin (spares_writeString env _) hetx) fun _ =>
        writesWithin_answer hT _ _
  · refine keeps_bind (keeps_bind (Keeps.writesWithin (spares_readString env) hetx) ?_) fun _ =>
      keeps_pure _
    rintro ⟨error, edfaOutStr⟩
    exact writesWithin_answer hT _ _
  · refine keeps_bind (keeps_lift _) fun values => ?_
    rw [if_neg (Nat.not_lt.mpr h128)]
    exact writesWithin_serveVirtual hT (List.Subset.refl _) values regs

/-! ## Registers of the FPGA -/

/-- The last of each four bytes. -/
def lastBytes : Bytes → Bytes
  | _ :: _ :: _ :: b :: l => b :: lastBytes l
  | _ => []

/-- What a request writes: a register of the FPGA takes the last of its four bytes. -/
def requestWrites (req : FPGAMapRequestPacket) : List (ℕ × UInt8) :=
  if req.startAddr < 128 ∧ req.rwFlag = 1 then (addresses req).zip (lastBytes req.writeData) else []

section Raw

variable {env : Env} {req : FPGAMapRequestPacket} {w : World} {regs : Edfa.Regs}

theorem decodeReg_raw {addr : ℕ} (h : addr < 128) (a b c d : UInt8) :
    decodeReg addr [a, b, c, d] = .ok (.int d.toNat) := by
  simp [decodeReg, registerType_raw h, RegisterType.format, unpack, calcsize, endFrom, unpackFrom,
    gap, unpackOne, Code.align, Code.size, leNat, native]

theorem encodeReg_raw {addr : ℕ} (h : addr < 128) (b : UInt8) :
    encodeReg addr (.int b.toNat) = .ok [0, 0, 0, b] := by
  have hb : b.toNat < 256 := b.toNat_lt
  rw [encodeReg_of_type (registerType_raw h)]
  simp [pack, packFrom, gap, Code.align, packOne, packInt, leBytes, hb]

/-- The data of registers of the FPGA: their values are in the last bytes. -/
theorem decodeRegs_raw {addrs : List ℕ} {data : Bytes} (h : ∀ addr ∈ addrs, addr < 128)
    (hlen : data.length = 4 * addrs.length) :
    decodeRegs addrs data = .ok ((lastBytes data).map fun b => .int b.toNat) := by
  induction addrs generalizing data with
  | nil =>
    obtain rfl := List.length_eq_zero_iff.mp hlen
    rfl
  | cons addr addrs ih =>
    rw [List.length_cons] at hlen
    match data, hlen with
    | a :: b :: c :: d :: data, hlen =>
      have hlen : data.length = 4 * addrs.length := by
        simp only [List.length_cons] at hlen
        omega
      have hrest := ih (fun addr' h' => h addr' (List.mem_cons_of_mem addr h')) hlen
      rw [decodeRegs, List.take_succ_cons, List.take_succ_cons, List.take_succ_cons,
        List.take_succ_cons, List.take_zero, decodeReg_raw (h addr List.mem_cons_self), ok_bind,
        List.drop_succ_cons, List.drop_succ_cons, List.drop_succ_cons, List.drop_succ_cons,
        List.drop_zero, hrest, lastBytes]
      rfl

theorem encodeRegs_raw (addr : ℕ) (bs : Bytes) (h : addr + bs.length ≤ 128) :
    encodeRegs addr (bs.map fun b => .int b.toNat) = .ok (bs.flatMap fun b => [0, 0, 0, b]) := by
  induction bs generalizing addr with
  | nil => rfl
  | cons b bs ih =>
    rw [List.length_cons] at h
    rw [List.map_cons, encodeRegs, encodeReg_raw (by omega), ok_bind, ih (addr + 1) (by omega)]
    rfl

theorem valByte_toNat (b : UInt8) : valByte (b.toNat : ℤ) = b := by
  have hb := b.toNat_lt
  unfold valByte
  apply UInt8.toNat_inj.mp
  rw [UInt8.toNat_ofNat']
  omega

theorem length_lastBytes (data : Bytes) : (lastBytes data).length = data.length / 4 := by
  induction data using lastBytes.induct with
  | case1 a b c d data ih =>
    rw [lastBytes, List.length_cons, ih]
    simp only [List.length_cons]
    omega
  | case2 data hshort =>
    have hlt : data.length < 4 := by
      match data with
      | [] | [_] | [_, _] | [_, _, _] => simp
      | a :: b :: c :: d :: l => exact absurd rfl (hshort a b c d l)
    rw [lastBytes, List.length_nil]
    · omega
    · exact hshort

/-- A request to write sends the last byte of each word. -/
theorem valuesIn_write (hend : req.startAddr + registerNumber req ≤ 128)
    (hwrite : req.rwFlag = 1) (hlen : req.writeData.length = 4 * registerNumber req) :
    valuesIn req = .ok (((lastBytes req.writeData).map fun b => (b.toNat : ℤ)).map .int) := by
  rw [List.map_map]
  have hlen4 : req.writeData.length = 4 * (addresses req).length := by rwa [length_addresses]
  have hdecode := decodeRegs_raw (fun addr haddr => by
    have hrange := (mem_addresses_iff addr).mp haddr
    omega) hlen4
  by_cases hnone : registerNumber req = 0
  · have hnil : req.writeData = [] := by
      rw [hnone] at hlen
      exact List.length_eq_zero_iff.mp hlen
    rw [valuesIn, if_neg (by omega), hnone, hnil]
    rfl
  · rw [valuesIn, if_pos ⟨by omega, hnone⟩, hdecode]
    rfl

/-- The transfer of a request, and what it writes. -/
theorem exists_rawWords (hreq : req.Valid) (h128 : req.startAddr < 128)
    (hend : req.startAddr + registerNumber req ≤ 128) : ∃ ns : List ℤ,
      valuesIn req = .ok (ns.map .int) ∧ ns.length = registerNumber req ∧
      writesOf (rawWords req ns ++ [0, 0]) = requestWrites req := by
  rcases hreq.rwFlag with hread | hwrite
  · have hvalues : valuesIn req =
        .ok ((List.replicate (registerNumber req) (0 : ℤ)).map .int) := by
      rw [List.map_replicate]
      exact if_neg fun h => h.1 hread
    refine ⟨_, hvalues, List.length_replicate, ?_⟩
    rw [rawWords, writesOf_words _ _ _ (by rwa [List.length_replicate]), hread, requestWrites,
      if_neg (by decide), if_neg (by omega)]
  · obtain ⟨hlen, hmod⟩ := hreq.write hwrite
    have hcount : ((lastBytes req.writeData).map fun b => (b.toNat : ℤ)).length =
        registerNumber req := by
      rw [List.length_map, length_lastBytes, hlen, registerNumber]
    refine ⟨_, valuesIn_write hend hwrite (by rw [registerNumber]; omega), hcount, ?_⟩
    have hbytes : ((lastBytes req.writeData).map fun b => (b.toNat : ℤ)).map valByte =
        lastBytes req.writeData := by
      rw [List.map_map]
      exact (List.map_congr_left fun b _ => valByte_toNat b).trans (List.map_id _)
    rw [rawWords, writesOf_words _ _ _ (by rwa [hcount]), hwrite, if_pos (by decide), hbytes,
      hcount, requestWrites, if_pos ⟨h128, hwrite⟩, addresses]

/-- The answer to a request has the values that the transfer returned. -/
theorem ensures_serve_rawWords (env : Env) (hreq : req.Valid) (h128 : req.startAddr < 128)
    (hend : req.startAddr + registerNumber req ≤ 128) {ns : List ℤ}
    (hvalues : valuesIn req = .ok (ns.map .int)) (hlen : ns.length = registerNumber req)
    (regs : Edfa.Regs) (w : World) :
    Ensures (serve env req regs) (fun _ w' => ∃ answer,
      w' = { w.sent (rawWords req ns) with answers := w.answers ++ [answer] } ∧ Answers req
        (mismatches (registerNumber req) (rawWords req ns) (env.replyTo w (rawWords req ns)))
        ((rawResults env w req ns).2.flatMap fun b => [0, 0, 0, b]) answer) w := by
  have hout : (rawResults env w req ns).2.length = ns.length := length_rawResults_snd env w ns
  have hencode := encodeRegs_raw req.startAddr (rawResults env w req ns).2 (by omega)
  have hbound := length_encodeRegs hencode
  rw [List.length_map, hout, hlen] at hbound
  rw [← encodePayload_list (registerType_raw_ne_str h128)] at hencode
  have hwords : (rawWords req ns).length = 2 * registerNumber req := by
    rw [rawWords, length_words, hlen]
  have hcount : (rawResults env w req ns).1.count true =
      mismatches (registerNumber req) (rawWords req ns) (env.replyTo w (rawWords req ns)) :=
    count_results hwords (by rw [length_replyTo, hwords])
  rw [serve_raw_eq h128, hvalues, Ensures, wp_bind, wp_lift_ok, wp_bind]
  unfold Wp
  rw [serveRaw_eq hlen, hcount]
  exact ensures_answer hreq hencode (by omega) _ _

end Raw

/-! ## An FPGA that keeps what is written -/

section Stores

variable {env : Env} {initial : ℕ → UInt8} {S : ℕ → Prop} {w : World}
  {req : FPGAMapRequestPacket} {ns : List ℤ}

/-- No echo is wrong. -/
theorem mismatches_of_stores (hlen : ns.length = registerNumber req)
    (h : env.Stores initial S (w.sent (rawWords req ns)).xfers) :
    mismatches (registerNumber req) (rawWords req ns) (env.replyTo w (rawWords req ns)) = 0 := by
  have hwords : (rawWords req ns).length = 2 * registerNumber req := by
    rw [rawWords, length_words, hlen]
  rw [mismatches, List.countP_eq_zero]
  intro k hk
  have hk := List.mem_range.mp hk
  have hecho := h.echo w.xfers.length (rawWords req ns ++ [0, 0]) k
    List.getElem?_concat_length (by rw [List.length_append, hwords]; simp; omega)
  rw [List.getElem?_append_left (by omega)] at hecho
  rw [wrongEcho, Env.replyTo, hecho]
  simp

/-- A read returns what the registers hold. -/
theorem rawResults_of_stores (hlen : ns.length = registerNumber req) (hread : req.rwFlag = 0)
    (hend : req.startAddr + registerNumber req ≤ 128) (hS : ∀ addr ∈ addresses req, S addr)
    (h : env.Stores initial S (w.sent (rawWords req ns)).xfers) :
    (rawResults env w req ns).2 =
      (addresses req).map fun addr => stored initial (writeLog w.xfers) addr := by
  have hwords : (rawWords req ns).length = 2 * registerNumber req := by
    rw [rawWords, length_words, hlen]
  have hnone : writesOf (rawWords req ns ++ [0, 0]) = [] := by
    rw [rawWords, writesOf_words _ _ _ (by omega), hread, if_neg (by decide)]
  have htake : (w.sent (rawWords req ns)).xfers.take w.xfers.length = w.xfers := List.take_left
  apply List.ext_getElem?
  intro k
  rcases Nat.lt_or_ge k (registerNumber req) with hk | hk
  · have hbyte : (rawWords req ns ++ [0, 0])[2 * k]? = some (addrByte (req.startAddr + k) 0) := by
      rw [List.getElem?_append_left (by omega), rawWords, hread]
      exact getElem?_words 0 req.startAddr (by omega)
    have haddr : (addrByte (req.startAddr + k) 0).toNat &&& 0x7F = req.startAddr + k := by
      rw [addrByte_and, Nat.mod_eq_of_lt (by omega)]
    have hmem : S (req.startAddr + k) := hS _ ((mem_addresses_iff _).mpr (by omega))
    have hvalue := h.read w.xfers.length (rawWords req ns ++ [0, 0]) k _
      List.getElem?_concat_length hnone hbyte (by rw [List.length_append, hwords]; simp; omega)
      (haddr.symm ▸ hmem)
    rw [htake, haddr] at hvalue
    rw [rawResults, results, getElem?_everyOther, List.getElem?_drop, Nat.add_comm 3, Env.replyTo,
      hvalue, List.getElem?_map, addresses, List.getElem?_range' hk]
    simp
  · rw [List.getElem?_eq_none (by rw [length_rawResults_snd, hlen]; exact hk),
      List.getElem?_eq_none (by rw [List.length_map, length_addresses]; exact hk)]

end Stores

/-! ## Runs -/

/-- The iterations of the loop for what is received. -/
def run (env : Env) (state : Loop) (rs : List Received) : Server Loop :=
  rs.foldlM (iteration env) state

/-- The request that an iteration serves, behind the last one. -/
def serves (last : Option FPGAMapRequestPacket) : Received → Option FPGAMapRequestPacket
  | .message raw => (FPGAMapRequestPacket.decode raw).toOption
  | .error .eagain => none
  | .error .other => last

/-- The requests that iterations serve. -/
def served : Option FPGAMapRequestPacket → List Received → List FPGAMapRequestPacket
  | _, [] => []
  | last, r :: rs => (serves last r).toList ++ served ((serves last r).or last) rs

/-- Virtual registers among the requests do not touch the registers. -/
def Untouched (S : ℕ → Prop) (reqs : List FPGAMapRequestPacket) : Prop :=
  ∀ req ∈ reqs, 128 ≤ req.startAddr → ∀ addr ∈ touched req, ¬ S addr

section Runs

variable {env : Env} {initial : ℕ → UInt8} {S : ℕ → Prop} {req : FPGAMapRequestPacket} {addr : ℕ}

/-- Behind a request that is served, a register holds what the request wrote, or what it held
before. -/
theorem stored_serve (initial : ℕ → UInt8) (hreq : req.Valid) (huntouched : Untouched S [req])
    (haddr : S addr) (regs : Edfa.Regs) (w : World) :
    Allows (serve env req regs) (fun _ w' => stored initial (writeLog w'.xfers) addr =
      stored initial (writeLog w.xfers ++ requestWrites req) addr) w := by
  rcases Nat.lt_or_ge req.startAddr 128 with h128 | h128
  · rcases Nat.lt_or_ge 128 (req.startAddr + registerNumber req) with hend | hend
    · exact Allows.imp (raises_serve_raw h128 hend) fun _ _ h => h.elim
    · obtain ⟨ns, hvalues, hlen, hwrites⟩ := exists_rawWords hreq h128 hend
      have hserve := ensures_serve_rawWords env hreq h128 hend hvalues hlen regs w
      refine Ensures.allows (hserve.imp ?_)
      rintro _ w' ⟨answer, rfl, -⟩
      show stored initial (writeLog (w.xfers ++ [rawWords req ns ++ [0, 0]])) addr = _
      rw [writeLog_append, writeLog, writeLog, List.flatMap_singleton, hwrites]
  · have hnone : requestWrites req = [] := if_neg (by omega)
    rw [hnone, List.append_nil]
    refine ((writesWithin_serve h128 regs).allows w).imp ?_
    rintro _ w' ⟨sent, hsent, hall⟩
    rw [hsent, writeLog_append]
    refine stored_append_of_notMem fun hmem => ?_
    obtain ⟨p, hp, rfl⟩ := List.mem_map.mp hmem
    exact huntouched req (List.mem_singleton_self _) h128 p.1 (hall p hp) haddr

/-- So for an iteration, and the request that it served is the last one behind it. -/
theorem stored_iteration (initial : ℕ → UInt8) {state : Loop} {r : Received}
    (hlast : ∀ req, state.req = some req → req.Valid)
    (huntouched : Untouched S (serves state.req r).toList) (haddr : S addr) (w : World) :
    Allows (iteration env state r) (fun state' w' =>
      stored initial (writeLog w'.xfers) addr = stored initial
        (writeLog w.xfers ++ (serves state.req r).toList.flatMap requestWrites) addr ∧
      state'.req = (serves state.req r).or state.req ∧
      ∀ req, state'.req = some req → req.Valid) w := by
  have hserved {req : FPGAMapRequestPacket} (hreq : req.Valid)
      (hserves : serves state.req r = some req) :
      Allows (do
        let regs ← serve env req state.regBuffer
        return (⟨some req, regs⟩ : Loop)) (fun state' w' =>
          stored initial (writeLog w'.xfers) addr = stored initial
            (writeLog w.xfers ++ (serves state.req r).toList.flatMap requestWrites) addr ∧
          state'.req = (serves state.req r).or state.req ∧
          ∀ req, state'.req = some req → req.Valid) w := by
    rw [hserves] at huntouched ⊢
    refine (stored_serve initial hreq huntouched haddr _ w).bind
      fun regs w' hw' => ⟨?_, rfl, ?_⟩
    · rw [hw', Option.toList_some, List.flatMap_singleton]
    · intro req' hreq'
      obtain rfl := Option.some.inj hreq'
      exact hreq
  cases r with
  | message raw =>
    unfold iteration
    dsimp only
    cases hdecode : FPGAMapRequestPacket.decode raw with
    | error e => trivial
    | ok req =>
      rw [Allows, wp_bind, wp_lift_ok]
      refine hserved (FPGAMapRequestPacket.valid_of_decode hdecode) ?_
      rw [serves, hdecode]
      rfl
  | error errno =>
    cases errno with
    | eagain => exact ⟨congrArg (stored initial · addr) (List.append_nil _).symm, rfl, hlast⟩
    | other =>
      obtain ⟨last, regBuffer⟩ := state
      cases last with
      | none => trivial
      | some req => exact hserved (hlast req rfl) rfl

/-- **Behind any run, a register holds what the requests have last written.** -/
theorem stored_run {rs : List Received} {state : Loop} {log : List (ℕ × UInt8)} {w : World}
    (hlast : ∀ req, state.req = some req → req.Valid)
    (huntouched : Untouched S (served state.req rs)) (haddr : S addr)
    (hlog : stored initial (writeLog w.xfers) addr = stored initial log addr) :
    Allows (run env state rs) (fun _ w' => stored initial (writeLog w'.xfers) addr =
      stored initial (log ++ (served state.req rs).flatMap requestWrites) addr) w := by
  induction rs generalizing state log w with
  | nil =>
    show stored initial (writeLog w.xfers) addr = stored initial (log ++ []) addr
    rw [hlog, List.append_nil]
  | cons r rs ih =>
    have hfirst : Untouched S (serves state.req r).toList := fun req hreq =>
      huntouched req (List.mem_append_left _ hreq)
    have hrest : Untouched S (served ((serves state.req r).or state.req) rs) := fun req hreq =>
      huntouched req (List.mem_append_right _ hreq)
    rw [run, List.foldlM_cons]
    refine (stored_iteration initial hlast hfirst haddr w).bind ?_
    rintro state' w' ⟨hstored, hreq, hlast'⟩
    rw [← hreq] at hrest
    have hlater := ih hlast' hrest (hstored.trans (stored_append_congr hlog _))
    rw [List.append_assoc, ← List.flatMap_append, hreq] at hlater
    exact hlater

/-- The loop before its first iteration. -/
def Loop.init : Loop := ⟨none, fun _ => none⟩

/-- **Behind any run, a request of registers of the FPGA is answered once, without an error, and a
read returns what the requests before it have last written.** -/
theorem answered_of_run {rs : List Received} {raw : Bytes} {state : Loop} {w : World}
    (hrun : run env .init rs ⟨[], []⟩ = .ok state w) (huntouched : Untouched S (served none rs))
    (hdecode : FPGAMapRequestPacket.decode raw = .ok req) (h128 : req.startAddr < 128)
    (hend : req.startAddr + registerNumber req ≤ 128) (hS : ∀ addr ∈ addresses req, S addr)
    (hstores : env.Stores initial S (w.xfers ++ requestXfers req)) :
    Ensures (iteration env state (.message raw)) (fun _ w' => ∃ answer data : Bytes,
      w'.answers = w.answers ++ [answer] ∧
      FPGAMapAnswerPacket.decode answer =
        .ok ⟨req.returnAddr, req.rqNumber, req.rwFlag, 0, req.startAddr, data.length, data⟩ ∧
      (req.rwFlag = 0 → data = (addresses req).flatMap fun addr =>
        [0, 0, 0, stored initial ((served none rs).flatMap requestWrites) addr])) w := by
  have hreq := FPGAMapRequestPacket.valid_of_decode hdecode
  obtain ⟨ns, hvalues, hlen, -⟩ := exists_rawWords hreq h128 hend
  have hxfers : w.xfers ++ requestXfers req = (w.sent (rawWords req ns)).xfers := by
    rw [requestXfers, requestWords_eq hvalues hlen]
    rfl
  rw [hxfers] at hstores
  have hserve := ensures_serve_rawWords env hreq h128 hend hvalues hlen state.regBuffer w
  rw [mismatches_of_stores hlen hstores] at hserve
  rw [Ensures, wp_iteration_message hdecode]
  refine Ensures.imp hserve ?_
  rintro _ w' ⟨answer, rfl, hanswer⟩
  refine ⟨answer, _, rfl, hanswer, fun hread => ?_⟩
  rw [rawResults_of_stores hlen hread hend hS hstores, List.flatMap_map]
  refine List.flatMap_congr fun addr haddr => ?_
  have hnone : ∀ req, Loop.init.req = some req → req.Valid := fun _ h => by cases h
  have hstored : Allows (run env .init rs) (fun _ w' => stored initial (writeLog w'.xfers) addr =
      stored initial ([] ++ (served Loop.init.req rs).flatMap requestWrites) addr) ⟨[], []⟩ :=
    stored_run hnone huntouched (hS addr haddr) rfl
  rw [Allows, wp_of_ok hrun] at hstored
  rw [hstored, List.nil_append]
  rfl

/-- An FPGA that echoes the address of a word, and answers with five. -/
def fives : Env where
  reply _ out :=
    match out with
    | [a, _, _, _] => [0, 0, a, 5]
    | out => List.replicate out.length 0
  length_reply _ out := by
    split
    · rfl
    · exact List.length_replicate
  clock _ := 0
  patience _ := 0

/-- Behind a write of five to register 32, it keeps what is written to that register. -/
theorem stores_fives : fives.Stores (fun _ => 0) (· = 32)
    [[addrByte 32 1, 5, 0, 0], [addrByte 32 0, 0, 0, 0]] where
  echo i out k hout hk := by
    match i, hout with
    | 0, hout | 1, hout =>
      obtain rfl := Option.some.inj hout
      obtain rfl : k = 0 := by simp at hk; omega
      rfl
  read i out k b hout hnone hb hk _ := by
    match i, hout with
    | 0, hout =>
      obtain rfl := Option.some.inj hout
      exact absurd hnone (by decide)
    | 1, hout =>
      obtain rfl := Option.some.inj hout
      obtain rfl : k = 0 := by simp at hk; omega
      obtain rfl := Option.some.inj hb
      decide

/-- A write of five to register 32, and a read of it. -/
theorem answered_of_run_fives : ∃ state w,
    run fives .init [.message [1, 0, 0, 0, 1, 1, 32, 0, 4, 0, 0, 0, 0, 0, 0, 5]] ⟨[], []⟩ =
      .ok state w ∧
    Ensures (iteration fives state (.message [2, 0, 0, 0, 1, 0, 32, 0, 4, 0, 0, 0]))
      (fun _ w' => ∃ answer data : Bytes, w'.answers = w.answers ++ [answer] ∧
        FPGAMapAnswerPacket.decode answer = .ok ⟨2, 1, 0, 0, 32, data.length, data⟩ ∧
        (0 = 0 → data = [32].flatMap fun addr => [0, 0, 0, stored (fun _ => 0)
          ((served none [.message [1, 0, 0, 0, 1, 1, 32, 0, 4, 0, 0, 0, 0, 0, 0, 5]]).flatMap
            requestWrites) addr])) w := by
  have huntouched : Untouched (· = 32)
      (served none [.message [1, 0, 0, 0, 1, 1, 32, 0, 4, 0, 0, 0, 0, 0, 0, 5]]) := by
    intro req hreq h128
    obtain rfl : req = ⟨1, 1, 1, 32, 4, [0, 0, 0, 5]⟩ := List.mem_singleton.mp hreq
    exact absurd h128 (by decide)
  have hdecode : FPGAMapRequestPacket.decode [2, 0, 0, 0, 1, 0, 32, 0, 4, 0, 0, 0] =
      .ok ⟨2, 1, 0, 32, 4, []⟩ := rfl
  exact ⟨_, _, rfl, answered_of_run rfl huntouched hdecode (by decide) (by decide) (by decide)
    stores_fives⟩

end Runs

end ClickA.Fpga
