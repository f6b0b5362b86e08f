import ClickA.Fpga.Isolation
import ClickA.Fpga.Virtual

/-!
# Requests that read

What a request that reads sends to the FPGA: the branches of the loop that write are not reached, or
have no operand, but for the commands to the EDFA, which leave by the transmit register of its UART.

## Main definitions

* `WritesEtxOnly`, `Spares`: a transfer, or all those since a state, write no register but `ETX`

## Main results

* `spares_transfer`, `spares_writeReg_etx`: the transfers that spare the registers
* `spares_fline`, `spares_telemRegs`, `spares_virtualReg`: the branches of the loop
* `spares_serve`: a request that reads
-/

namespace ClickA.Fpga

open Python Options

/-! ## Words that write -/

/-- A transfer writes no register but `ETX`. Bit 7 of the first byte of a word is its direction. -/
def WritesEtxOnly (xfer : Bytes) : Prop :=
  ∀ k b, xfer[2 * k]? = some b → b.toNat.testBit 7 → b.toNat &&& 0x7F = etx

/-- The transfers since a state write no register but `ETX`. -/
def Spares (w w' : World) : Prop :=
  ∃ sent, w'.xfers = w.xfers ++ sent ∧ ∀ xfer ∈ sent, WritesEtxOnly xfer

theorem spares_of_xfers_eq {w w' : World} (h : w'.xfers = w.xfers) : Spares w w' :=
  ⟨[], by rw [h, List.append_nil], fun _ hxfer => absurd hxfer List.not_mem_nil⟩

instance : Std.Refl Spares := ⟨fun _ => spares_of_xfers_eq rfl⟩

instance : IsTrans World Spares where
  trans := by
    rintro w₁ w₂ w₃ ⟨sent, hsent, hall⟩ ⟨sent', hsent', hall'⟩
    refine ⟨sent ++ sent', by rw [hsent', hsent, List.append_assoc], fun xfer hxfer => ?_⟩
    rcases List.mem_append.mp hxfer with hxfer | hxfer
    · exact hall xfer hxfer
    · exact hall' xfer hxfer

/-- The direction of a word. -/
theorem testBit_addrByte (addr w : ℕ) : (addrByte addr w).toNat.testBit 7 = w.testBit 0 := by
  have haddr : (addr &&& 0x7F).testBit 7 = false :=
    Nat.testBit_lt_two_pow (Nat.and_lt_two_pow addr (by decide))
  -- the address has seven bits, and the direction is put above them
  have hlt : addr &&& 0x7F ||| (w &&& 1) <<< 7 < 2 ^ 8 := by
    refine Nat.or_lt_two_pow (Nat.and_lt_two_pow _ (by decide)) ?_
    have hle : w &&& 1 ≤ 1 := Nat.and_le_right
    rw [Nat.shiftLeft_eq]
    omega
  rw [addrByte, UInt8.toNat_ofNat', Nat.mod_eq_of_lt hlt, Nat.testBit_or, haddr, Bool.false_or,
    Nat.testBit_shiftLeft]
  simp

section Transfers

variable {env : Env} {addrs ws : List ℕ} {values : List Value} {w : World} {dataIn : Bytes}

/-- The two bytes at the end of a transfer write nothing. -/
theorem writesEtxOnly_append (h : ∀ k b, dataIn[2 * k]? = some b → b.toNat.testBit 7 →
    b.toNat &&& 0x7F = etx) : WritesEtxOnly (dataIn ++ [0, 0]) := by
  intro k b hb hbit
  rcases Nat.lt_or_ge (2 * k) dataIn.length with hlt | hle
  · rw [List.getElem?_append_left hlt] at hb
    exact h k b hb hbit
  · rw [List.getElem?_append_right hle] at hb
    have hzero : b = 0 := by
      rcases List.mem_pair.mp (List.mem_of_getElem? hb) with rfl | rfl <;> rfl
    rw [hzero] at hbit
    exact absurd hbit (by decide)

/-- A transfer that reads writes nothing. -/
theorem spares_transfer (hws : ∀ dir ∈ ws, dir = 0) :
    Keeps Spares (transfer env addrs ws values) := fun w => by
  cases h : encAll addrs ws values with
  | error e =>
    unfold transfer
    rw [h, wp_bind, wp_lift_error]
    exact spares_of_xfers_eq rfl
  | ok dataIn =>
    rw [wp_of_ok (transfer_of_encAll h)]
    refine ⟨_, rfl, fun xfer hxfer => ?_⟩
    obtain rfl := List.mem_singleton.mp hxfer
    refine writesEtxOnly_append fun k b hb hbit => ?_
    obtain ⟨addr, -, dir, hdir, rfl⟩ := exists_addrByte_of_encAll h hb
    rw [testBit_addrByte, hws dir hdir] at hbit
    exact absurd hbit (by decide)

theorem spares_readReg (addr : ℕ) : Keeps Spares (readReg env addr) :=
  keeps_bind (spares_transfer fun _ hdir => List.mem_singleton.mp hdir) fun _ =>
    keeps_bind (keeps_lift _) fun _ => keeps_pure _

theorem spares_writeReg_etx (value : ℕ) : Keeps Spares (writeReg env etx value) := fun w => by
  obtain ⟨failed, h⟩ : ∃ failed, writeReg env etx value w =
    .ok failed (w.sent (words 1 etx [(value : ℤ)])) := writeReg_eq etx value
  rw [wp_of_ok h]
  refine ⟨_, rfl, fun xfer hxfer => ?_⟩
  obtain rfl := List.mem_singleton.mp hxfer
  refine writesEtxOnly_append fun k b hb _ => ?_
  cases k with
  | zero =>
    obtain rfl := Option.some.inj hb
    rw [addrByte_and]
    rfl
  | succ k =>
    have hlength : (words 1 etx [(value : ℤ)]).length ≤ 2 * (k + 1) := by
      show 2 ≤ 2 * (k + 1)
      omega
    rw [List.getElem?_eq_none hlength] at hb
    cases hb

end Transfers

/-! ## The EDFA -/

section Edfa

variable (env : Env)

theorem spares_readLoop (readMax empty error : ℕ) (chars : Bytes) :
    Keeps Spares (Edfa.readLoop env readMax empty error chars) := by
  induction readMax generalizing empty error chars with
  | zero => exact keeps_pure _
  | succ readMax ih =>
    rw [Edfa.readLoop]
    refine keeps_ite (keeps_pure _) ?_
    refine keeps_bind (spares_transfer (by decide)) fun p => ?_
    exact keeps_bind (keeps_lift _) fun _ => keeps_bind (keeps_lift _) fun _ => ih _ _ _

theorem spares_readString : Keeps Spares (Edfa.readString env) :=
  keeps_bind (spares_readReg _) fun _ => spares_readLoop env _ _ _ _

theorem spares_awaitTxReady (patience : ℕ) : Keeps Spares (Edfa.awaitTxReady env patience) := by
  induction patience with
  | zero => exact keeps_bind (spares_readReg flg) fun _ => keeps_ite (keeps_pure _) (keeps_pure _)
  | succ patience ih => exact keeps_bind (spares_readReg flg) fun _ => keeps_ite (keeps_pure _) ih

/-- The characters of a command go to `ETX`. -/
theorem spares_writeChars (txStr : Bytes) (patience : ℕ) :
    Keeps Spares (Edfa.writeChars env txStr patience) := by
  induction txStr generalizing patience with
  | nil => exact keeps_pure _
  | cons char txStr ih =>
    refine keeps_bind (spares_awaitTxReady env patience) fun ready => ?_
    cases ready with
    | none => exact keeps_pure _
    | some patience => exact keeps_bind (spares_writeReg_etx _) fun _ => ih patience

theorem spares_writeString (txStr : Bytes) : Keeps Spares (Edfa.writeString env txStr) := fun w =>
  spares_writeChars env txStr _ w

theorem spares_fline : Keeps Spares (Edfa.fline env) := by
  refine keeps_bind (keeps_bind (spares_readString env) fun _ => keeps_pure _) fun _ =>
    keeps_bind (spares_writeString env _) fun _ => keeps_bind (spares_readString env) ?_
  rintro ⟨error, reply⟩
  dsimp only
  split
  · exact keeps_pure _
  · exact keeps_pure _

theorem spares_updateEdfa (regs : Edfa.Regs) : Keeps Spares (updateEdfa env regs) :=
  keeps_bind (spares_fline env) fun _ => keeps_lift _

end Edfa

/-! ## Virtual registers -/

section Virtual

variable {env : Env} {req : FPGAMapRequestPacket}

theorem spares_temperature (addr : ℕ) : Keeps Spares (temperature env addr) :=
  keeps_bind (spares_readReg _) fun _ => keeps_bind (spares_readReg _) fun _ =>
    keeps_bind (keeps_lift _) fun _ => keeps_pure _

theorem spares_current (addr : ℕ) : Keeps Spares (current env addr) :=
  keeps_bind (spares_readReg _) fun _ => keeps_bind (spares_readReg _) fun _ => keeps_pure _

/-- A channel is written by requests that write only. -/
theorem spares_dacChannel (hread : req.rwFlag = 0) (addr : ℕ) (value : Value) :
    Keeps Spares (dacChannel env req addr value) := by
  unfold dacChannel
  dsimp only
  rw [if_neg (not_not.mpr hread)]
  exact keeps_pure _

theorem spares_telemRegs (hread : req.rwFlag = 0) (value : Value) (regs : Edfa.Regs) :
    Keeps Spares (telemRegs env req value regs) := by
  refine keeps_foldlM (fun _ addr => keeps_bind ?_ fun _ => keeps_pure _) _ _
  refine keeps_ite (spares_temperature addr) <| keeps_ite (spares_current addr) <|
    keeps_ite (spares_dacChannel hread addr value) <| keeps_ite ?_ (keeps_lift _)
  have hdir : ∀ dir ∈ [req.rwFlag], dir = 0 := fun dir hdir => by
    rw [List.mem_singleton.mp hdir, hread]
  exact keeps_bind (spares_transfer hdir) fun _ => keeps_bind (keeps_lift _) fun _ => keeps_pure _

theorem spares_answer (data : Payload) (errorFlag : ℕ) :
    Keeps Spares (answer req data errorFlag) := fun w =>
  (wp_answer_xfers data errorFlag w).mono (fun _ _ => spares_of_xfers_eq)
    fun _ _ => spares_of_xfers_eq

theorem init_zero (env : Env) : Dac.init env 0 = pure () := by
  have hnone (command : ℕ) : Dac.writeCommand env 0 command = pure () := rfl
  unfold Dac.init Dac.reset Dac.setReference Dac.setOutputMode
  dsimp only
  rw [if_pos Nat.one_ne_zero, if_pos Nat.one_ne_zero, hnone, hnone, if_neg (by decide),
    if_neg (by decide)]
  rfl

theorem setOutputMode_zero (env : Env) : Dac.setOutputMode env 0 = pure () := by
  unfold Dac.setOutputMode
  dsimp only
  rw [if_neg (by decide), if_neg (by decide)]

theorem resetDacs_zero (env : Env) : resetDacs env 0 = pure () := by
  unfold resetDacs
  dsimp only
  rw [if_neg (by decide), if_neg (by decide)]

/-- With a zero for its operand no command reaches a DAC: it names no DAC, and masks no channel. -/
theorem spares_virtualReg (hread : req.rwFlag = 0) (acc : List Value × Edfa.Regs) (addr : ℕ) :
    Keeps Spares (virtualReg env req acc (addr, .int 0)) := by
  obtain ⟨valuesOut, regs⟩ := acc
  have hbits : bits (.int 0) = .ok 0 := rfl
  -- `DAC_SETUP`, `DAC_ENABLE` and `DAC_RESET` do not look at `rw_flag`
  have hzero {x : ℕ → Server Unit} (hx : x 0 = pure ()) : Keeps Spares (do
      let operand ← lift (bits (.int 0))
      x operand
      return (valuesOut, regs)) := fun w => by
    rw [hbits, wp_bind, wp_lift_ok, hx, wp_bind, wp_pure, wp_pure]
    exact refl_of Spares w
  unfold virtualReg
  refine keeps_ite ?_ <| keeps_ite ?_ <| keeps_ite ?_ <| keeps_ite ?_ <| keeps_ite ?_ <|
    keeps_ite ?_ <| keeps_ite ?_ <| keeps_ite ?_ ?_
  · exact keeps_bind (spares_temperature addr) fun _ => keeps_pure _
  · exact keeps_bind (spares_current addr) fun _ => keeps_pure _
  · exact keeps_bind (keeps_lift _) fun _ => keeps_pure _
  · exact hzero (init_zero env)
  · exact hzero (setOutputMode_zero env)
  · exact hzero (resetDacs_zero env)
  · exact keeps_bind (spares_dacChannel hread addr _) fun _ => keeps_pure _
  · exact keeps_bind (spares_updateEdfa env regs) fun _ =>
      keeps_bind (spares_telemRegs hread _ _) fun _ => keeps_pure _
  · exact keeps_bind (spares_answer _ _) fun _ => keeps_pure _

theorem zip_replicate {α β : Type} (l : List α) (b : β) :
    l.zip (List.replicate l.length b) = l.map fun a => (a, b) := by
  induction l with
  | nil => rfl
  | cons a l ih => rw [List.length_cons, List.replicate_succ, List.zip_cons_cons, ih, List.map_cons]

/-- The values of a request that reads are zeros. -/
theorem spares_serveVirtual (hread : req.rwFlag = 0) (regs : Edfa.Regs) :
    Keeps Spares (serveVirtual env req (List.replicate (registerNumber req) (.int 0)) regs) := by
  have hrefresh : Keeps Spares (refreshEdfa env req regs) := by
    unfold refreshEdfa
    refine keeps_ite (fun w => ?_) (keeps_pure _)
    rw [wp_bind, wp_get]
    exact keeps_ite (spares_updateEdfa env regs) (keeps_pure _) w
  have hzip : (addresses req).zip (List.replicate (registerNumber req) (Value.int 0)) =
      (addresses req).map fun addr => (addr, .int 0) := by
    rw [← length_addresses]
    exact zip_replicate _ _
  refine keeps_bind hrefresh fun regs => ?_
  rw [hzip, List.foldlM_map]
  refine keeps_bind (keeps_foldlM (fun acc addr => spares_virtualReg hread acc addr) _ _) ?_
  rintro ⟨valuesOut, regs⟩
  exact keeps_bind (spares_answer _ _) fun _ => keeps_pure _

end Virtual

/-- A request that reads writes no register but `ETX`. -/
theorem spares_serve {env : Env} {req : FPGAMapRequestPacket} (hread : req.rwFlag = 0)
    (hstart : req.startAddr ≠ edfaInStr) (regs : Edfa.Regs) :
    Keeps Spares (serve env req regs) := by
  have hvalues : valuesIn req = .ok (List.replicate (registerNumber req) (.int 0)) :=
    if_neg fun hwrite => hwrite.1 hread
  have hdirs : ∀ dir ∈ List.replicate (registerNumber req) req.rwFlag, dir = 0 :=
    fun dir hdir => (List.eq_of_mem_replicate hdir).trans hread
  unfold serve
  rw [if_neg hstart]
  refine keeps_ite ?_ ?_
  · refine keeps_bind (keeps_bind (spares_readString env) ?_) fun _ => keeps_pure _
    rintro ⟨error, edfaOutStr⟩
    exact spares_answer _ _
  · intro w
    rw [hvalues, wp_bind, wp_lift_ok]
    refine keeps_ite ?_ (spares_serveVirtual hread regs) w
    refine keeps_bind (keeps_bind (spares_transfer hdirs) ?_) fun _ => keeps_pure _
    rintro ⟨errors, valuesOut⟩
    exact spares_answer _ _

/-- **An iteration that serves a request that reads writes no register but `ETX`**, also where it
raises: when the request arrives, and when it is served again after an error of the socket. -/
theorem reading_spares {env : Env} {req : FPGAMapRequestPacket} (hread : req.rwFlag = 0)
    (hstart : req.startAddr ≠ edfaInStr) (state : Loop) :
    (∀ raw, FPGAMapRequestPacket.decode raw = .ok req →
      Keeps Spares (iteration env state (.message raw))) ∧
    (state.req = some req → Keeps Spares (iteration env state (.error .other))) := by
  constructor
  · intro raw hdecode w
    rw [wp_iteration_message hdecode]
    exact spares_serve hread hstart _ w
  · intro hreq
    unfold iteration
    rw [hreq]
    exact keeps_bind (spares_serve hread hstart _) fun _ => keeps_pure _

/-- The whole block of the EDFA. -/
theorem reading_spares_edfa :
    (∀ raw, FPGAMapRequestPacket.decode raw = .ok ⟨1, 1, 0, 602, 40, []⟩ →
      Keeps Spares (iteration ones ⟨none, fun _ => none⟩ (.message raw))) ∧
    ((⟨none, fun _ => none⟩ : Loop).req = some ⟨1, 1, 0, 602, 40, []⟩ →
      Keeps Spares (iteration ones ⟨none, fun _ => none⟩ (.error .other))) :=
  reading_spares rfl (by decide) _

end ClickA.Fpga
