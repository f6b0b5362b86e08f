import ClickA.Fpga.AnswersOnce

/-!
# The power commands of the DACs

A DAC of the AD5664 family takes commands of 24 bits: a power command selects channels by its low
four bits, and bits 5:4 are the mode of the selected ones. The FPGA hands a command to a DAC when a
transfer has written the three registers of the DAC. The server makes the commands of the value of
`DAC_ENABLE`: a mask of eight channels in its low byte, and a mode above it.

## Main definitions

* `Mode`, `power`: the mode of an output, and a power command
* `commandOf`, `outputs`: the commands that transfers carry, and the outputs behind them
* `enabled`: the outputs behind the commands for a value of `DAC_ENABLE`

## Main results

* `ensures_setOutputMode`, `ensures_serve_dacEnable`: what the server sends for such a value
* `enabled_oen`, `enabled_highZ`: the outputs behind a mask without a mode, and with that of a high
  impedance
-/

namespace ClickA.Fpga

open Python Options

/-! ## The DACs -/

/-- The mode of an output: bits 5:4 of a power command. -/
inductive Mode
  | normal
  | ground1K
  | ground100K
  | highImpedance
deriving DecidableEq, Repr

def Mode.ofBits (n : ℕ) : Mode :=
  if n = 0 then .normal else if n = 1 then .ground1K else if n = 2 then .ground100K
  else .highImpedance

/-- The outputs of both DACs: 0 to 3 belong to the first one, and 4 to 7 to the second. -/
abbrev Outputs := ℕ → Mode

/-- A DAC obeys a command. Only a power command touches the modes. -/
def power (targetDac command : ℕ) (outs : Outputs) : Outputs := fun channel =>
  if command &&& 0x380000 = Dac.dacPower ∧ channel / 4 + 1 = targetDac ∧
      command.testBit (channel % 4) then Mode.ofBits (command >>> 4 &&& 0b11)
  else outs channel

/-- The command that a transfer carries, and the DAC that it is for. -/
def commandOf : Bytes → Option (ℕ × ℕ)
  | [a, high, b, mid, c, low, _, _] =>
    let command := high.toNat <<< 16 ||| mid.toNat <<< 8 ||| low.toNat
    -- the addresses say which DAC the three bytes are for
    if [a, b, c] = [addrByte thrA 1, addrByte thrB 1, addrByte thrC 1] then some (1, command)
    else if [a, b, c] = [addrByte fsmA 1, addrByte fsmB 1, addrByte fsmC 1] then some (2, command)
    else none
  | _ => none

/-- What a transfer does to the outputs. -/
def obey (outs : Outputs) (xfer : Bytes) : Outputs :=
  match commandOf xfer with
  | some (targetDac, command) => power targetDac command outs
  | none => outs

/-- The outputs behind the transfers of the server. -/
def outputs (initial : Outputs) (w : World) : Outputs := w.xfers.foldl obey initial

theorem outputs_append {initial : Outputs} {w w' : World} {xfers : List Bytes}
    (h : w'.xfers = w.xfers ++ xfers) :
    outputs initial w' = xfers.foldl obey (outputs initial w) := by
  unfold outputs
  rw [h, List.foldl_append]

/-! ## What the server sends -/

/-- The transfer of a command, from the first register of a DAC on. -/
def commandXfer (addr command : ℕ) : Bytes :=
  words 1 addr [((command &&& 0x3F0000) >>> 16 : ℕ), ((command &&& 0x00FF00) >>> 8 : ℕ),
    (command &&& 0x0000FF : ℕ)] ++ [0, 0]

/-- The transfers for a value of `DAC_ENABLE`. -/
def enableXfers (mask : ℕ) : List Bytes :=
  (if mask &&& 0x00FF ≠ 0 then
    [commandXfer thrA (Dac.dacPower ||| (mask &&& 0x300) >>> 4 ||| mask &&& 0x00FF)] else []) ++
  (if mask &&& 0xFF00 ≠ 0 then
    [commandXfer fsmA (Dac.dacPower ||| (mask &&& 0x300) >>> 4 ||| (mask &&& 0xFF00) >>> 8)]
    else [])

section Sent

variable {env : Env} {w : World} {req : FPGAMapRequestPacket} {regs : Edfa.Regs}

/-- Some transfers are sent. -/
def Sends (xfers : List Bytes) (w w' : World) : Prop := w'.xfers = w.xfers ++ xfers

theorem Sends.trans {xfers xfers' : List Bytes} {w₁ w₂ w₃ : World} (h : Sends xfers w₁ w₂)
    (h' : Sends xfers' w₂ w₃) : Sends (xfers ++ xfers') w₁ w₃ := by
  unfold Sends at h h' ⊢
  rw [h', h, List.append_assoc]

theorem ensures_writeCommand {targetDac addr : ℕ}
    (haddr : Dac.dacAddr targetDac = some (List.range' addr 3)) (command : ℕ) (w : World) :
    Ensures (Dac.writeCommand env targetDac command)
      (fun _ w' => Sends [commandXfer addr command] w w') w := by
  unfold Dac.writeCommand
  rw [haddr]
  have htransfer : transfer env (List.range' addr 3) [1, 1, 1] _ w = _ := transfer_eq 1 addr
    [((command &&& 0x3F0000) >>> 16 : ℕ), ((command &&& 0x00FF00) >>> 8 : ℕ),
      (command &&& 0x0000FF : ℕ)]
  dsimp only
  rw [Ensures, wp_bind, wp_of_ok htransfer]
  rfl

/-- A command to each DAC whose byte of the value is not zero. -/
theorem ensures_setOutputMode (mask : ℕ) (w : World) :
    Ensures (Dac.setOutputMode env mask) (fun _ w' => Sends (enableXfers mask) w w') w := by
  have hnone (w : World) : Sends [] w w := (List.append_nil _).symm
  have hhigh (w : World) : Ensures (if mask &&& 0xFF00 ≠ 0 then
      Dac.writeCommand env 2 (Dac.dacPower ||| (mask &&& 0x300) >>> 4 ||| (mask &&& 0xFF00) >>> 8)
      else pure PUnit.unit) (fun _ w' => Sends (if mask &&& 0xFF00 ≠ 0 then
        [commandXfer fsmA (Dac.dacPower ||| (mask &&& 0x300) >>> 4 ||| (mask &&& 0xFF00) >>> 8)]
        else []) w w') w := by
    split
    · exact ensures_writeCommand rfl _ w
    · exact hnone w
  unfold Dac.setOutputMode enableXfers
  dsimp only
  by_cases hlow : mask &&& 0x00FF ≠ 0
  · rw [if_pos hlow, if_pos hlow]
    exact (ensures_writeCommand rfl _ w).bind fun _ w₁ hsends =>
      (hhigh w₁).imp fun _ _ hsends' => hsends.trans hsends'
  · rw [if_neg hlow, if_neg hlow]
    exact hhigh w

/-- A write of `DAC_ENABLE` is served, with the commands for its value. -/
theorem ensures_serve_dacEnable (hreq : req.Valid) (hstart : req.startAddr = dacEnable)
    (hnumber : registerNumber req = 1) {n : ℤ} (hvalues : valuesIn req = .ok [.int n]) :
    Ensures (serve env req regs) (fun _ w' => Sends (enableXfers n.toNat) w w') w := by
  have haddresses : addresses req = [dacEnable] := by
    rw [addresses, hnumber, hstart]
    rfl
  have hedfa : ∀ addr ∈ addresses req, addr ∉ edfaParsedBlock := by
    rw [haddresses]
    decide
  have henable : virtualReg env req ([], regs) (dacEnable, .int n) = (do
      let mask ← lift (bits (.int n))
      Dac.setOutputMode env mask
      return ([], regs)) := by
    unfold virtualReg
    dsimp only
    rw [if_neg (by decide), if_neg (by decide), if_neg (by decide), if_neg (by decide), if_pos rfl]
  have hencode : encodePayload req.startAddr (.list []) = .ok [] := by
    rw [hstart]
    rfl
  have hloop : Ensures ([(dacEnable, Value.int n)].foldlM (virtualReg env req) ([], regs))
      (fun acc w' => acc.1 = [] ∧ Sends (enableXfers n.toNat) w w') w := by
    rw [List.foldlM_cons, henable, Ensures, wp_bind, bits, wp_bind, wp_lift_ok]
    exact (ensures_setOutputMode _ w).bind fun _ _ hsends => ⟨rfl, hsends⟩
  unfold serve
  rw [if_neg (by rw [hstart]; decide), if_neg (by rw [hstart]; decide), hvalues, Ensures, wp_bind,
    wp_lift_ok, if_neg (by rw [hstart]; decide), serveVirtual_eq hedfa, haddresses]
  refine hloop.bind ?_
  rintro ⟨valuesOut, regs'⟩ w₁ ⟨rfl, hsends⟩
  refine (ensures_answer hreq hencode (by decide) 0 w₁).bind ?_
  rintro _ w₂ ⟨raw, rfl, -⟩
  exact hsends

end Sent

/-! ## What the DACs make of it -/

/-- The outputs behind the commands for a value of `DAC_ENABLE`. -/
def enabled (value : ℕ) (outs : Outputs) : Outputs := (enableXfers value).foldl obey outs

section Enabled

variable {mask : ℕ} {outs : Outputs}

/-- A command is handed to the DAC as it was made. -/
theorem commandOf_commandXfer : ∀ mask < 256, ∀ mode ∈ [0, 0x30],
    commandOf (commandXfer thrA (Dac.dacPower ||| mode ||| mask)) =
        some (1, Dac.dacPower ||| mode ||| mask) ∧
      commandOf (commandXfer fsmA (Dac.dacPower ||| mode ||| mask)) =
        some (2, Dac.dacPower ||| mode ||| mask) := by
  decide +kernel

/-- The fields of such a command. The upper half of the mask reaches into the mode. -/
theorem fields_command : ∀ mask < 256, ∀ mode ∈ [0, 0x30],
    (Dac.dacPower ||| mode ||| mask) &&& 0x380000 = Dac.dacPower ∧
      (∀ i < 4, (Dac.dacPower ||| mode ||| mask).testBit i = mask.testBit i) ∧
      (Dac.dacPower ||| mode ||| mask) >>> 4 &&& 0b11 = (mode ||| mask) >>> 4 &&& 0b11 := by
  decide +kernel

theorem power_command {mode targetDac : ℕ} (hmask : mask < 256) (hmode : mode ∈ [0, 0x30])
    (channel : ℕ) : power targetDac (Dac.dacPower ||| mode ||| mask) outs channel =
      if channel / 4 + 1 = targetDac ∧ mask.testBit (channel % 4) then
        Mode.ofBits ((mode ||| mask) >>> 4 &&& 0b11)
      else outs channel := by
  obtain ⟨hcommand, hbits, hfield⟩ := fields_command mask hmask mode hmode
  unfold power
  rw [hcommand, hfield, hbits _ (Nat.mod_lt _ (by decide))]
  simp only [true_and]

/-- The parts of a value without a mode, and with that of a high impedance. -/
theorem parts_value : ∀ mask < 256, mask &&& 0x300 = 0 ∧ mask &&& 0x00FF = mask ∧
    mask &&& 0xFF00 = 0 ∧ (0x300 ||| mask) &&& 0x300 = 0x300 ∧
      (0x300 ||| mask) &&& 0x00FF = mask ∧ (0x300 ||| mask) &&& 0xFF00 = 0x300 ∧
        (0x30 ||| mask) >>> 4 &&& 0b11 = 3 := by
  decide +kernel

/-- The first DAC hears of the low byte of the value, if it is not zero. -/
theorem foldl_obey_thr (outs : Outputs) (mode : ℕ) (hmask : mask < 256)
    (hmode : mode ∈ [0, 0x30]) (channel : ℕ) :
    (if mask ≠ 0 then [commandXfer thrA (Dac.dacPower ||| mode ||| mask)] else []).foldl obey outs
        channel =
      if channel < 4 ∧ mask.testBit channel then Mode.ofBits ((mode ||| mask) >>> 4 &&& 0b11)
      else outs channel := by
  have hselected : channel / 4 + 1 = 1 ∧ mask.testBit (channel % 4) ↔
      channel < 4 ∧ mask.testBit channel := by
    rcases Nat.lt_or_ge channel 4 with hlt | hge
    · rw [Nat.mod_eq_of_lt hlt]
      simp [hlt, Nat.div_eq_of_lt hlt]
    · have hdiv : channel / 4 + 1 ≠ 1 := by omega
      exact iff_of_false (fun h => hdiv h.1) fun h => (Nat.not_lt.mpr hge) h.1
  by_cases hzero : mask = 0
  · rw [if_neg (not_not.mpr hzero), hzero]
    simp
  · rw [if_pos hzero]
    show obey outs (commandXfer thrA (Dac.dacPower ||| mode ||| mask)) channel = _
    rw [obey, (commandOf_commandXfer mask hmask mode hmode).1]
    dsimp only
    rw [power_command hmask hmode]
    simp only [hselected]

/-- Without a mode, the first DAC takes its mode out of the upper half of the mask, and the second
one hears nothing. -/
theorem enabled_oen (hmask : mask < 256) (channel : ℕ) : enabled mask outs channel =
    if channel < 4 ∧ mask.testBit channel then Mode.ofBits (mask >>> 4 &&& 0b11)
    else outs channel := by
  obtain ⟨hmode, hlow, hhigh, -⟩ := parts_value mask hmask
  have hfirst := foldl_obey_thr outs 0 hmask (by decide) channel
  rw [Nat.zero_or] at hfirst
  unfold enabled enableXfers
  rw [hmode, hlow, hhigh, if_neg (not_not.mpr rfl), List.append_nil]
  exact hfirst

/-- With the mode of a high impedance, the first DAC does what the mask says, and the second one
takes the bits of the mode for a mask of its first two channels. -/
theorem enabled_highZ (hmask : mask < 256) (channel : ℕ) : enabled (0x300 ||| mask) outs channel =
    if channel = 4 ∨ channel = 5 ∨ channel < 4 ∧ mask.testBit channel then .highImpedance
    else outs channel := by
  obtain ⟨-, -, -, hmode, hlow, hhigh, hfield⟩ := parts_value mask hmask
  have hfirst := foldl_obey_thr outs 0x30 hmask (by decide) channel
  -- the mask of the second DAC is 0b11, whatever was asked for
  have hsecond : ∀ channel, channel / 4 + 1 = 2 ∧ Nat.testBit 3 (channel % 4) ↔
      channel = 4 ∨ channel = 5 := by
    intro channel
    constructor
    · rintro ⟨hdac, hbit⟩
      have hlt : channel % 4 < 2 := by
        by_contra hge
        have hfalse : Nat.testBit 3 (channel % 4) = false :=
          Nat.testBit_lt_two_pow (by
            calc 3 < 2 ^ 2 := by decide
              _ ≤ 2 ^ (channel % 4) := Nat.pow_le_pow_right (by decide) (by omega))
        rw [hfalse] at hbit
        exact absurd hbit (by decide)
      omega
    · rintro (rfl | rfl) <;> decide
  unfold enabled enableXfers
  rw [hmode, hlow, hhigh, if_pos (by decide : 0x300 ≠ 0), List.foldl_append]
  show obey _ (commandXfer fsmA (Dac.dacPower ||| 0x30 ||| 3)) channel = _
  rw [obey, (commandOf_commandXfer 3 (by decide) 0x30 (by decide)).2]
  dsimp only
  rw [power_command (by decide) (by decide)]
  simp only [hsecond]
  by_cases hfsm : channel = 4 ∨ channel = 5
  · rw [if_pos hfsm, if_pos (hfsm.imp_right .inl)]
    rfl
  · rw [if_neg hfsm]
    refine hfirst.trans ?_
    rw [hfield]
    refine if_congr ?_ rfl rfl
    tauto

end Enabled

end ClickA.Fpga
