import ClickA.Fpga.Server

/-!
# Virtual registers

What the loop over virtual registers does in each block: which blocks give a value, which may raise,
and that an unknown register is answered at once.

## Main definitions

* `Handled`: the registers the loop knows
* `Grows`: no answer is taken back

## Main results

* `virtualReg_unknown`: an unknown register is answered
* `keeps_virtualReg`: a register sends answers only
* `ensures_current`, `ensures_dacChannel`, `runs_resetDacs`: the branches that end normally
-/

namespace ClickA.Fpga

open Python Options

/-- The registers that the loop over virtual registers knows. -/
def Handled (addr : ℕ) : Prop :=
  addr ∈ temperatureBlock ∨ addr ∈ currentBlock ∨ addr ∈ edfaParsedBlock ∨ addr = dacSetup ∨
    addr = dacEnable ∨ addr = dacReset ∨ addr ∈ dacBlock ∨ addr = fpgaTelem

instance (addr : ℕ) : Decidable (Handled addr) := inferInstanceAs (Decidable (_ ∨ _))

/-- The known registers, as ranges. -/
theorem handled_iff (addr : ℕ) : Handled addr ↔
    200 ≤ addr ∧ addr < 206 ∨ 300 ≤ addr ∧ addr < 304 ∨ 602 ≤ addr ∧ addr < 612 ∨
      499 ≤ addr ∧ addr < 510 ∨ addr = 800 := by
  unfold Handled temperatureBlock currentBlock edfaParsedBlock dacBlock dac1A dacSetup dacEnable
    dacReset fpgaTelem
  simp only [List.mem_range'_1]
  omega

/-- No answer is taken back. -/
def Grows (w w' : World) : Prop := w.answers.length ≤ w'.answers.length

instance : Std.Refl Grows := ⟨fun _ => Nat.le_refl _⟩

instance : IsTrans World Grows := ⟨fun _ _ _ => Nat.le_trans⟩

theorem Quiet.grows {w w' : World} (h : Quiet w w') : Grows w w' :=
  (congrArg List.length h).ge

section Keeps

variable {α : Type} {x : Server α}

theorem keeps_grows (h : Keeps Quiet x) : Keeps Grows x := fun w =>
  (h w).mono (fun _ _ hq => hq.grows) (fun _ _ hq => hq.grows)

variable (env : Env) (req : FPGAMapRequestPacket)

theorem keeps_answer (data : Payload) (errorFlag : ℕ) :
    Keeps Grows (answer req data errorFlag) := by
  refine keeps_bind (keeps_lift _) fun _ => keeps_bind (keeps_lift _) fun _ => fun w => ?_
  rw [wp_modify]
  show w.answers.length ≤ (w.answers ++ [_]).length
  rw [List.length_append]
  exact Nat.le_add_right _ _

theorem keeps_temperature (addr : ℕ) : Keeps Quiet (temperature env addr) :=
  keeps_bind (runs_readReg env _).keeps fun _ => keeps_bind (runs_readReg env _).keeps fun _ =>
    keeps_bind (keeps_lift _) fun _ => keeps_pure _

/-- A current is a float. -/
theorem ensures_current (addr : ℕ) (w : World) :
    Ensures (current env addr) (fun v w' => Quiet w w' ∧ ∃ x, v = .float x) w := by
  unfold current
  simp only [Ensures, wp_bind, wp_of_ok (readReg_eq _), wp_pure]
  exact ⟨rfl, _, rfl⟩

theorem runs_current (addr : ℕ) : Runs Quiet (current env addr) := fun w =>
  (ensures_current env addr w).imp fun _ _ h => h.1

theorem keeps_writeAndUpdate (targetChan value : ℕ) :
    Keeps Quiet (Dac.writeAndUpdate env targetChan value) := by
  unfold Dac.writeAndUpdate checkAsserts
  rw [if_pos rfl]
  exact keeps_bind (keeps_lift _) fun _ => (Dac.runs_writeCommand env _ _).keeps

theorem keeps_dacChannel (addr : ℕ) (value : Value) :
    Keeps Quiet (dacChannel env req addr value) := by
  unfold dacChannel
  generalize addr - dac1A = targetChan
  dsimp only
  split
  · exact keeps_bind (keeps_lift _) fun command =>
      keeps_bind (keeps_writeAndUpdate env _ command) fun _ => keeps_pure _
  · exact keeps_pure _

theorem keeps_updateEdfa (regs : Edfa.Regs) : Keeps Quiet (updateEdfa env regs) :=
  keeps_bind (Edfa.runs_fline env).keeps fun _ => keeps_lift _

theorem keeps_transfer (addrs ws : List ℕ) (values : List Value) :
    Keeps Quiet (transfer env addrs ws values) := fun w => by
  cases h : encAll addrs ws values with
  | error e =>
    unfold transfer
    rw [h, wp_bind, wp_lift_error]
    rfl
  | ok dataIn =>
    rw [wp_of_ok (transfer_of_encAll h)]
    rfl

theorem keeps_telemReg (value : Value) (regs : Edfa.Regs) (addr : ℕ) :
    Keeps Quiet (telemReg env req value regs addr) :=
  keeps_ite (keeps_temperature env addr) <| keeps_ite (runs_current env addr).keeps <|
    keeps_ite (keeps_dacChannel env req addr value) <|
      keeps_ite (keeps_bind (keeps_transfer env _ _ _) fun _ =>
        keeps_bind (keeps_lift _) fun _ => keeps_pure _) (keeps_lift _)

theorem keeps_telemRegs (value : Value) (regs : Edfa.Regs) :
    Keeps Quiet (telemRegs env req value regs) :=
  keeps_foldlM (fun _ addr => keeps_bind (keeps_telemReg env req value regs addr) fun _ =>
    keeps_pure _) _ _

theorem runs_resetDacs (value : ℕ) : Runs Quiet (resetDacs env value) := by
  unfold resetDacs
  dsimp only
  have hfsm : Runs Quiet (if value &&& 0b10 ≠ 0 then
      Dac.reset env 2 ((value &&& 0b1000) >>> 3) else pure PUnit.unit) :=
    runs_ite (Dac.runs_reset env _ _) (runs_pure _)
  split
  · exact runs_bind (Dac.runs_reset env _ _) fun _ =>
      runs_bind (Dac.runs_setReference env _ _) fun _ => hfsm
  · exact hfsm

/-- One register sends answers only. -/
theorem keeps_virtualReg (acc : List Value × Edfa.Regs) (reg : ℕ × Value) :
    Keeps Grows (virtualReg env req acc reg) := by
  obtain ⟨valuesOut, regs⟩ := acc
  obtain ⟨addr, value⟩ := reg
  have hlift {β γ : Type} {y : Except Exn β} {f : β → Server Unit} {c : γ}
      (hf : ∀ b, Keeps Quiet (f b)) :
      Keeps Grows (lift y >>= fun b => f b >>= fun _ => pure c) :=
    keeps_grows (keeps_bind (keeps_lift _) fun b => keeps_bind (hf b) fun _ => keeps_pure _)
  unfold virtualReg
  refine keeps_ite ?_ <| keeps_ite ?_ <| keeps_ite ?_ <| keeps_ite ?_ <| keeps_ite ?_ <|
    keeps_ite ?_ <| keeps_ite ?_ <| keeps_ite ?_ ?_
  · exact keeps_grows (keeps_bind (keeps_temperature env addr) fun _ => keeps_pure _)
  · exact keeps_grows (keeps_bind (runs_current env addr).keeps fun _ => keeps_pure _)
  · exact keeps_grows (keeps_bind (keeps_lift _) fun _ => keeps_pure _)
  · exact hlift fun target => (Dac.runs_init env target).keeps
  · exact hlift fun mask => (Dac.runs_setOutputMode env mask).keeps
  · exact hlift fun value => (runs_resetDacs env value).keeps
  · exact keeps_grows (keeps_bind (keeps_dacChannel env req addr value) fun _ => keeps_pure _)
  · exact keeps_grows (keeps_bind (keeps_updateEdfa env regs) fun regs =>
      keeps_bind (keeps_telemRegs env req value regs) fun _ => keeps_pure _)
  · exact keeps_bind (keeps_answer req _ _) fun _ => keeps_pure _

/-- An unknown register is answered at once. -/
theorem virtualReg_unknown {addr : ℕ} (h : ¬ Handled addr) (valuesOut : List Value)
    (regs : Edfa.Regs) (value : Value) :
    virtualReg env req (valuesOut, regs) (addr, value) =
      (do
        answer req (.str []) 1
        return (valuesOut, regs)) := by
  unfold Handled at h
  push Not at h
  obtain ⟨htemp, hcurrent, hedfa, hsetup, henable, hreset, hdac, htelem⟩ := h
  unfold virtualReg
  dsimp only
  rw [if_neg htemp, if_neg hcurrent, if_neg hedfa, if_neg hsetup, if_neg henable, if_neg hreset,
    if_neg hdac, if_neg htelem]

end Keeps

/-! ## The values of a request -/

section Values

variable {req : FPGAMapRequestPacket} {values : List Value}

theorem length_addresses (req : FPGAMapRequestPacket) :
    (addresses req).length = registerNumber req := List.length_range'

theorem mem_addresses_iff (addr : ℕ) : addr ∈ addresses req ↔
    req.startAddr ≤ addr ∧ addr < req.startAddr + registerNumber req := List.mem_range'_1

theorem length_decodeRegs {addrs : List ℕ} {data : Bytes} (h : decodeRegs addrs data = .ok values) :
    values.length = addrs.length := by
  induction addrs generalizing data values with
  | nil =>
    obtain rfl := Except.ok.inj h
    rfl
  | cons addr addrs ih =>
    rw [decodeRegs] at h
    obtain ⟨value, -, h⟩ := bind_eq_ok.mp h
    obtain ⟨rest, hrest, h⟩ := bind_eq_ok.mp h
    obtain rfl := Except.ok.inj h
    rw [List.length_cons, List.length_cons, ih hrest]

/-- A request has one value for each register. -/
theorem length_valuesIn (h : valuesIn req = .ok values) : values.length = registerNumber req := by
  unfold valuesIn at h
  split at h
  · rw [length_decodeRegs h, length_addresses]
  · obtain rfl := Except.ok.inj h
    exact List.length_replicate

/-- What holds of zero, and of each register's value, holds of the values of a request. -/
theorem valuesIn_spec {P : ℕ → Value → Prop} (hreq : req.Valid)
    (hread : ∀ addr ∈ addresses req, P addr (.int 0))
    (hwrite : ∀ addr ∈ addresses req, ∀ pl : Bytes, pl.length = 4 →
      ∃ v, decodeReg addr pl = .ok v ∧ P addr v) :
    ∃ values, valuesIn req = .ok values ∧ List.Forall₂ P (addresses req) values := by
  unfold valuesIn
  split
  · next h =>
    obtain ⟨hlen, hmod⟩ := hreq.write (hreq.rwFlag.resolve_left h.1)
    refine decodeRegs_spec hwrite ?_
    rw [hlen, length_addresses, registerNumber]
    omega
  · refine ⟨_, rfl, ?_⟩
    rw [List.forall₂_iff_get]
    refine ⟨by rw [length_addresses, List.length_replicate], fun i hi hi' => ?_⟩
    have hzero : (List.replicate (registerNumber req) (Value.int 0)).get ⟨i, hi'⟩ = .int 0 :=
      List.getElem_replicate hi'
    rw [hzero]
    exact hread _ (List.get_mem _ _)

end Values

/-! ## The blocks -/

section Blocks

variable {env : Env} {req : FPGAMapRequestPacket} {addr : ℕ} {valuesOut : List Value}
  {regs : Edfa.Regs} {value : Value}

theorem virtualReg_temperature (h : addr ∈ temperatureBlock) :
    virtualReg env req (valuesOut, regs) (addr, value) =
      (do
        let temp ← temperature env addr
        return (valuesOut ++ [temp], regs)) := by
  unfold virtualReg
  dsimp only
  rw [if_pos h]

theorem virtualReg_current (h : addr ∈ currentBlock) :
    virtualReg env req (valuesOut, regs) (addr, value) =
      (do
        let temp ← current env addr
        return (valuesOut ++ [temp], regs)) := by
  have htemp : addr ∉ temperatureBlock := by
    unfold currentBlock at h
    unfold temperatureBlock
    rw [List.mem_range'_1] at h ⊢
    omega
  unfold virtualReg
  dsimp only
  rw [if_neg htemp, if_pos h]

theorem virtualReg_dacBlock (h : addr ∈ dacBlock) :
    virtualReg env req (valuesOut, regs) (addr, value) =
      (do
        let out ← dacChannel env req addr value
        return (valuesOut ++ [out], regs)) := by
  have hothers : addr ∉ temperatureBlock ∧ addr ∉ currentBlock ∧ addr ∉ edfaParsedBlock ∧
      addr ≠ dacSetup ∧ addr ≠ dacEnable ∧ addr ≠ dacReset := by
    unfold dacBlock dac1A at h
    unfold temperatureBlock currentBlock edfaParsedBlock dacSetup dacEnable dacReset
    simp only [List.mem_range'_1] at h ⊢
    omega
  obtain ⟨htemp, hcurrent, hedfa, hsetup, henable, hreset⟩ := hothers
  unfold virtualReg
  dsimp only
  rw [if_neg htemp, if_neg hcurrent, if_neg hedfa, if_neg hsetup, if_neg henable, if_neg hreset,
    if_pos h]

/-- A register that sets the DACs up gives no value. -/
theorem ensures_virtualReg_setup (h : addr = dacSetup ∨ addr = dacEnable ∨ addr = dacReset)
    (n : ℤ) (w : World) : Ensures (virtualReg env req (valuesOut, regs) (addr, .int n))
      (fun acc w' => Quiet w w' ∧ acc = (valuesOut, regs)) w := by
  have hrun {x : Server Unit} (hx : Runs Quiet x) :
      Ensures (do x; return (valuesOut, regs))
          (fun acc w' => Quiet w w' ∧ acc = (valuesOut, regs)) w := by
    exact (hx w).bind fun _ _ hq => ⟨hq, rfl⟩
  unfold virtualReg
  dsimp only
  rcases h with rfl | rfl | rfl
  · rw [if_neg (by decide), if_neg (by decide), if_neg (by decide), if_pos rfl]
    exact hrun (Dac.runs_init env _)
  · rw [if_neg (by decide), if_neg (by decide), if_neg (by decide), if_neg (by decide), if_pos rfl]
    exact hrun (Dac.runs_setOutputMode env _)
  · rw [if_neg (by decide), if_neg (by decide), if_neg (by decide), if_neg (by decide),
      if_neg (by decide), if_pos rfl]
    exact hrun (runs_resetDacs env _)

/-- A DAC channel gives the value of the request. -/
theorem ensures_dacChannel (h : addr ∈ dacBlock) (n : ℤ) (w : World) :
    Ensures (dacChannel env req addr (.int n)) (fun out w' => Quiet w w' ∧ out = .int n) w := by
  have hchan : addr - dac1A < 8 := by
    unfold dacBlock dac1A at h
    unfold dac1A
    rw [List.mem_range'_1] at h
    omega
  unfold dacChannel
  generalize addr - dac1A = targetChan at hchan
  dsimp only
  split
  · rw [Ensures, wp_bind, bits, wp_lift_ok]
    exact (Dac.runs_writeAndUpdate env hchan _ w).bind fun _ _ hq => ⟨hq, rfl⟩
  · exact ⟨rfl, rfl⟩

end Blocks

end ClickA.Fpga
