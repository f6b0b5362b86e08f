import ClickA.Fpga.AnswersOnce

/-!
# One value for each register

The answer to a request of virtual registers is made of the values that the loop has collected, by
their places. Three registers of the DACs give none, so that the values of the registers behind them
move up.

## Main definitions

* `Silent`: the registers that give no value
* `branchValue`, `Gives`: the value that the branch of another register gives
* `OneEach`: an answer has one value for each register, in the order of their addresses

## Main results

* `allows_virtualReg`, `allows_virtualLoop`: one register, and the loop
* `allows_serveVirtual`: the answer holds what the registers that are not silent give
* `oneEach_iff`: an answer has one value for each register if and only if none of them is silent
-/

namespace ClickA.Fpga

open Python Options

/-- The registers that set the DACs up: the loop collects no value of them. -/
def Silent (addr : ℕ) : Prop := addr = dacSetup ∨ addr = dacEnable ∨ addr = dacReset

instance (addr : ℕ) : Decidable (Silent addr) := inferInstanceAs (Decidable (_ ∨ _))

theorem not_silent : ∀ addr ∈ temperatureBlock ++ currentBlock ++ edfaParsedBlock ++ dacBlock,
    ¬ Silent addr := by decide

/-- The value that the branch of a register gives. -/
def branchValue (env : Env) (req : FPGAMapRequestPacket) (regs : Edfa.Regs) (reg : ℕ × Value) :
    Server Value :=
  if reg.1 ∈ temperatureBlock then temperature env reg.1
  else if reg.1 ∈ currentBlock then current env reg.1
  else if reg.1 ∈ edfaParsedBlock then lift (buffered regs reg.1)
  else dacChannel env req reg.1 reg.2

/-- The branch of a register gives a value. -/
def Gives (env : Env) (req : FPGAMapRequestPacket) (regs : Edfa.Regs) (reg : ℕ × Value)
    (out : Value) : Prop :=
  ∃ w w', branchValue env req regs reg w = .ok out w'

/-- The data of an answer are one value for each register, in the order of their addresses, each
packed by the type of its register. Any value may stand for a register that is silent. -/
def OneEach (env : Env) (req : FPGAMapRequestPacket) (regs : Edfa.Regs) (raw : Bytes) : Prop :=
  ∃ values outs encData, valuesIn req = .ok values ∧
    List.Forall₂ (fun reg out => Silent reg.1 ∨ Gives env req regs reg out)
      ((addresses req).zip values) outs ∧
    encodeRegs req.startAddr outs = .ok encData ∧ Answers req 0 encData raw

section Loop

variable {env : Env} {req : FPGAMapRequestPacket} {regs : Edfa.Regs} {valuesOut : List Value}
  {reg : ℕ × Value} {w : World}

/-- A statement that leaves the clients alone gives what it gives. -/
theorem allows_collected {x : Server Value} (hquiet : Keeps Quiet x) :
    Allows (do
      let out ← x
      return (valuesOut ++ [out], regs)) (fun acc w' => Quiet w w' ∧ acc.2 = regs ∧
        ∃ out, acc.1 = valuesOut ++ [out] ∧ ∃ w w', x w = .ok out w') w := by
  rw [Allows, wp_bind]
  cases hx : x w with
  | ok out w' =>
    have hq : Quiet w w' := (wp_of_ok hx).mp (hquiet w)
    rw [wp_of_ok hx, wp_pure]
    exact ⟨hq, rfl, out, rfl, w, w', hx⟩
  | error e w' =>
    rw [wp_of_error hx]
    trivial

theorem allows_silent {x : ℕ → Server Unit} (hquiet : ∀ n, Keeps Quiet (x n)) (value : Value) :
    Allows (do
      let operand ← lift (bits value)
      x operand
      return (valuesOut, regs)) (fun acc w' => Quiet w w' ∧ acc = (valuesOut, regs)) w := by
  have hkeeps : Keeps Quiet (lift (bits value) >>= x) := keeps_bind (keeps_lift _) hquiet
  rw [← bind_assoc, Allows, wp_bind]
  exact (hkeeps.allows w).imp fun _ _ hq => ⟨hq, rfl⟩

/-- A register gives its value, or nothing if it is silent. -/
theorem allows_virtualReg (hhandled : Handled reg.1) (htelem : reg.1 ≠ fpgaTelem) :
    Allows (virtualReg env req (valuesOut, regs) reg) (fun acc w' => Quiet w w' ∧ acc.2 = regs ∧
      if Silent reg.1 then acc.1 = valuesOut
      else ∃ out, acc.1 = valuesOut ++ [out] ∧ Gives env req regs reg out) w := by
  obtain ⟨addr, value⟩ := reg
  have hloud {x : Server Value} (hnot : ¬ Silent addr)
      (hx : branchValue env req regs (addr, value) = x) (hquiet : Keeps Quiet x) :
      Allows (do
        let out ← x
        return (valuesOut ++ [out], regs)) (fun acc w' => Quiet w w' ∧ acc.2 = regs ∧
          if Silent addr then acc.1 = valuesOut
          else ∃ out, acc.1 = valuesOut ++ [out] ∧ Gives env req regs (addr, value) out) w := by
    refine (allows_collected hquiet).imp fun acc w' hacc => ?_
    rw [if_neg hnot]
    unfold Gives
    rw [hx]
    exact hacc
  have hquiet {x : ℕ → Server Unit} (hsilent : Silent addr) (hx : ∀ n, Keeps Quiet (x n)) :
      Allows (do
        let operand ← lift (bits value)
        x operand
        return (valuesOut, regs)) (fun acc w' => Quiet w w' ∧ acc.2 = regs ∧
          if Silent addr then acc.1 = valuesOut
          else ∃ out, acc.1 = valuesOut ++ [out] ∧ Gives env req regs (addr, value) out) w := by
    refine (allows_silent hx value).imp ?_
    rintro acc w' ⟨hq, rfl⟩
    rw [if_pos hsilent]
    exact ⟨hq, rfl, rfl⟩
  unfold virtualReg
  dsimp only
  by_cases htemp : addr ∈ temperatureBlock
  · rw [if_pos htemp]
    exact hloud (not_silent addr (by simp [htemp])) (if_pos htemp) (keeps_temperature env addr)
  rw [if_neg htemp]
  by_cases hcurrent : addr ∈ currentBlock
  · rw [if_pos hcurrent]
    exact hloud (not_silent addr (by simp [hcurrent])) ((if_neg htemp).trans (if_pos hcurrent))
      (runs_current env addr).keeps
  rw [if_neg hcurrent]
  by_cases hedfa : addr ∈ edfaParsedBlock
  · rw [if_pos hedfa]
    exact hloud (not_silent addr (by simp [hedfa]))
      ((if_neg htemp).trans ((if_neg hcurrent).trans (if_pos hedfa))) (keeps_lift _)
  rw [if_neg hedfa]
  by_cases hsetup : addr = dacSetup
  · rw [if_pos hsetup]
    exact hquiet (.inl hsetup) fun n => (Dac.runs_init env n).keeps
  rw [if_neg hsetup]
  by_cases henable : addr = dacEnable
  · rw [if_pos henable]
    exact hquiet (.inr (.inl henable)) fun n => (Dac.runs_setOutputMode env n).keeps
  rw [if_neg henable]
  by_cases hreset : addr = dacReset
  · rw [if_pos hreset]
    exact hquiet (.inr (.inr hreset)) fun n => (runs_resetDacs env n).keeps
  rw [if_neg hreset]
  have hdac : addr ∈ dacBlock := by
    unfold Handled at hhandled
    tauto
  rw [if_pos hdac]
  exact hloud (not_silent addr (by simp [hdac]))
    ((if_neg htemp).trans ((if_neg hcurrent).trans (if_neg hedfa)))
    (keeps_dacChannel env req addr value)

/-- The loop collects the values of the registers that are not silent. -/
theorem allows_virtualLoop {l : List (ℕ × Value)}
    (hhandled : ∀ reg ∈ l, Handled reg.1 ∧ reg.1 ≠ fpgaTelem) :
    Allows (l.foldlM (virtualReg env req) ([], regs)) (fun acc w' => Quiet w w' ∧ acc.2 = regs ∧
      List.Forall₂ (Gives env req regs) (l.filter (¬ Silent ·.1)) acc.1) w := by
  have hloop := wp_foldlM (ε := Exn) (f := virtualReg env req) (l := l) (b := ([], regs)) (s := w)
    (E := fun _ _ => True)
    (I := fun rest acc w' => Quiet w w' ∧ acc.2 = regs ∧ ∃ done, l = done ++ rest ∧
      List.Forall₂ (Gives env req regs) (done.filter (¬ Silent ·.1)) acc.1) ?_
    ⟨rfl, rfl, [], rfl, .nil⟩
  · refine Allows.imp hloop ?_
    rintro acc w' ⟨hq, hregs, done, hdone, hall⟩
    rw [List.append_nil] at hdone
    rw [hdone]
    exact ⟨hq, hregs, hall⟩
  · rintro reg rest ⟨valuesOut, regs'⟩ w₁ ⟨hq, rfl, done, hdone, hall⟩
    obtain ⟨hreg, htelem⟩ := hhandled reg (by rw [hdone]; simp)
    refine (allows_virtualReg hreg htelem).mono ?_ fun _ _ _ => trivial
    rintro ⟨valuesOut', regs''⟩ w₂ ⟨hq', rfl, hout⟩
    refine ⟨trans_of Quiet hq hq', rfl, done ++ [reg], by rw [hdone]; simp, ?_⟩
    rw [List.filter_append]
    by_cases hsilent : Silent reg.1
    · rw [if_pos hsilent] at hout
      rw [show valuesOut' = valuesOut from hout]
      simpa [hsilent] using hall
    · rw [if_neg hsilent] at hout
      obtain ⟨out, hout, hgives⟩ := hout
      rw [show valuesOut' = valuesOut ++ [out] from hout]
      refine List.rel_append hall ?_
      simpa [hsilent] using hgives

end Loop

section Answer

variable {env : Env} {req : FPGAMapRequestPacket} {regs : Edfa.Regs} {values : List Value}
  {w : World}

/-- An answer that is sent carries the values by their places. -/
theorem allows_answer_list (hreq : req.Valid) (htype : registerType req.startAddr ≠ .str)
    {outs : List Value} (hlen : outs.length ≤ registerNumber req) :
    Allows (answer req (.list outs) 0) (fun _ w' => ∃ encData raw,
      encodeRegs req.startAddr outs = .ok encData ∧ w'.answers = w.answers ++ [raw] ∧
        Answers req 0 encData raw) w := by
  by_cases h : ∃ encData, encodePayload req.startAddr (.list outs) = .ok encData
  · obtain ⟨encData, hencode⟩ := h
    have hregs : encodeRegs req.startAddr outs = .ok encData := by
      rwa [encodePayload, if_neg htype] at hencode
    have hsize : encData.length < 2 ^ 32 := by
      have hsize := hreq.size
      rw [length_encodeRegs hregs]
      unfold registerNumber at hlen
      omega
    refine (ensures_answer hreq hencode hsize 0 w).allows.imp ?_
    rintro _ w' ⟨raw, rfl, hanswers⟩
    exact ⟨encData, raw, hregs, rfl, hanswers⟩
  · exact (raises_answer h 0 w).imp fun _ _ hfalse => hfalse.elim

/-- The answer holds what the registers that are not silent give. -/
theorem allows_serveVirtual (hreq : req.Valid) (htype : registerType req.startAddr ≠ .str)
    (hhandled : ∀ addr ∈ addresses req, Handled addr ∧ addr ≠ fpgaTelem)
    (hvalues : valuesIn req = .ok values) :
    Allows (serveVirtual env req values regs) (fun regs' w' => ∃ outs encData raw,
      List.Forall₂ (Gives env req regs') (((addresses req).zip values).filter (¬ Silent ·.1)) outs ∧
        encodeRegs req.startAddr outs = .ok encData ∧ w'.answers = w.answers ++ [raw] ∧
          Answers req 0 encData raw) w := by
  unfold serveVirtual
  refine (keeps_refreshEdfa.allows w).bind fun regs₁ w₁ hq => ?_
  refine (allows_virtualLoop fun reg hreg => hhandled _ (List.of_mem_zip hreg).1).bind ?_
  rintro ⟨outs, regs₂⟩ w₂ ⟨hq', rfl, hall⟩
  have hlen : outs.length ≤ registerNumber req := by
    rw [← hall.length_eq, ← length_valuesIn hvalues]
    refine (List.length_filter_le _ _).trans ?_
    rw [List.length_zip]
    exact min_le_right _ _
  refine (allows_answer_list hreq htype hlen).bind ?_
  rintro _ w₃ ⟨encData, raw, hencode, hraw, hanswers⟩
  exact ⟨outs, encData, raw, hall, hencode, by rw [hraw, hq', hq], hanswers⟩

theorem allows_serve_values (hreq : req.Valid) (hstart : 128 ≤ req.startAddr)
    (hin : req.startAddr ≠ edfaInStr) (hout : req.startAddr ≠ edfaOutStr)
    (hhandled : ∀ addr ∈ addresses req, Handled addr ∧ addr ≠ fpgaTelem) :
    Allows (serve env req regs) (fun regs' w' => ∃ values outs encData raw,
      valuesIn req = .ok values ∧
        List.Forall₂ (Gives env req regs')
          (((addresses req).zip values).filter (¬ Silent ·.1)) outs ∧
          encodeRegs req.startAddr outs = .ok encData ∧ w'.answers = w.answers ++ [raw] ∧
            Answers req 0 encData raw) w := by
  unfold serve
  rw [if_neg hin, if_neg hout, Allows, wp_bind]
  cases hvalues : valuesIn req with
  | error e => trivial
  | ok values =>
    rw [wp_lift_ok, if_neg (Nat.not_lt.mpr hstart)]
    refine (allows_serveVirtual hreq (registerType_ne_str hin hout) hhandled hvalues).imp ?_
    rintro _ _ ⟨outs, encData, raw, h⟩
    exact ⟨values, outs, encData, raw, rfl, h⟩

/-- The data of an answer are those that were sent. -/
theorem Answers.unique {encData encData' raw : Bytes} (h : Answers req 0 encData raw)
    (h' : Answers req 0 encData' raw) : encData = encData' := by
  unfold Answers at h h'
  rw [h, Except.ok.injEq, FPGAMapAnswerPacket.mk.injEq] at h'
  exact h'.2.2.2.2.2.2

/-- No register is dropped exactly when none is silent. -/
theorem length_filter_eq_iff (hvalues : valuesIn req = .ok values) :
    (((addresses req).zip values).filter (¬ Silent ·.1)).length =
      ((addresses req).zip values).length ↔ ∀ addr ∈ addresses req, ¬ Silent addr := by
  have hlen : (addresses req).length ≤ values.length := by
    rw [length_valuesIn hvalues, length_addresses]
  rw [List.length_filter_eq_length_iff]
  constructor
  · intro h addr haddr
    rw [← List.map_fst_zip hlen] at haddr
    obtain ⟨reg, hreg, rfl⟩ := List.mem_map.mp haddr
    exact of_decide_eq_true (h reg hreg)
  · intro h reg hreg
    exact decide_eq_true (h reg.1 (List.of_mem_zip hreg).1)

variable {regs' : Edfa.Regs} {w' : World}

/-- A silent register leaves fewer values than registers. -/
theorem loud_of_oneEach (hreq : req.Valid) (hstart : 128 ≤ req.startAddr)
    (hin : req.startAddr ≠ edfaInStr) (hout : req.startAddr ≠ edfaOutStr)
    (hhandled : ∀ addr ∈ addresses req, Handled addr ∧ addr ≠ fpgaTelem)
    (hserve : serve env req regs w = .ok regs' w')
    (h : ∃ raw, w'.answers = w.answers ++ [raw] ∧ OneEach env req regs' raw) :
    ∀ addr ∈ addresses req, ¬ Silent addr := by
  obtain ⟨values, outs, encData, raw, hvalues, hall, hencode, hraw, hanswers⟩ :=
    (wp_of_ok hserve).mp (allows_serve_values hreq hstart hin hout hhandled)
  obtain ⟨raw', hraw', values', outs', encData', hvalues', hall', hencode', hanswers'⟩ := h
  obtain rfl : values = values' := Except.ok.inj (hvalues.symm.trans hvalues')
  obtain rfl : raw = raw' := by simpa using hraw.symm.trans hraw'
  obtain rfl := hanswers.unique hanswers'
  rw [← length_filter_eq_iff hvalues]
  have hlength := length_encodeRegs hencode
  rw [length_encodeRegs hencode'] at hlength
  rw [hall.length_eq, hall'.length_eq]
  omega

theorem oneEach_of_loud (hreq : req.Valid) (hstart : 128 ≤ req.startAddr)
    (hin : req.startAddr ≠ edfaInStr) (hout : req.startAddr ≠ edfaOutStr)
    (hhandled : ∀ addr ∈ addresses req, Handled addr ∧ addr ≠ fpgaTelem)
    (hserve : serve env req regs w = .ok regs' w') (h : ∀ addr ∈ addresses req, ¬ Silent addr) :
    ∃ raw, w'.answers = w.answers ++ [raw] ∧ OneEach env req regs' raw := by
  obtain ⟨values, outs, encData, raw, hvalues, hall, hencode, hraw, hanswers⟩ :=
    (wp_of_ok hserve).mp (allows_serve_values hreq hstart hin hout hhandled)
  rw [← length_filter_eq_iff hvalues, List.length_filter_eq_length_iff, ← List.filter_eq_self] at h
  rw [h] at hall
  exact ⟨raw, hraw, values, outs, encData, hvalues, hall.imp fun _ _ => .inr, hencode, hanswers⟩

end Answer

/-- **An answer has one value for each register exactly when none of them is silent**: where an
answer is sent to a request of virtual registers. -/
theorem oneEach_iff {env : Env} {req : FPGAMapRequestPacket} {regs regs' : Edfa.Regs} {w w' : World}
    (hreq : req.Valid) (hstart : 128 ≤ req.startAddr) (hin : req.startAddr ≠ edfaInStr)
    (hout : req.startAddr ≠ edfaOutStr)
    (hhandled : ∀ addr ∈ addresses req, Handled addr ∧ addr ≠ fpgaTelem)
    (hserve : serve env req regs w = .ok regs' w') :
    (∃ raw, w'.answers = w.answers ++ [raw] ∧ OneEach env req regs' raw) ↔
      ∀ addr ∈ addresses req, ¬ Silent addr :=
  ⟨loud_of_oneEach hreq hstart hin hout hhandled hserve,
    oneEach_of_loud hreq hstart hin hout hhandled hserve⟩

/-- A request that reads `DAC_RESET` and the first channel of a DAC. -/
def resetRequest : FPGAMapRequestPacket := ⟨1, 1, 0, 501, 8, []⟩

theorem valid_resetRequest : resetRequest.Valid where
  returnAddr := by decide
  rqNumber := by decide
  rwFlag := .inl rfl
  startAddr := by decide
  size := by decide
  read := fun _ => rfl
  write := fun h => absurd h (by decide)

/-- The answer to it. -/
def resetAnswer : Bytes := [1, 0, 0, 0, 1, 0, 245, 1, 4, 0, 0, 0, 0, 0, 0, 0]

theorem serve_resetRequest : serve ones resetRequest (fun _ => none) ⟨[], []⟩ =
    .ok (fun _ => none) ⟨[], [resetAnswer]⟩ := rfl

theorem oneEach_iff_reset :
    (∃ raw, [resetAnswer] = [] ++ [raw] ∧ OneEach ones resetRequest (fun _ => none) raw) ↔
      ∀ addr ∈ addresses resetRequest, ¬ Silent addr :=
  oneEach_iff valid_resetRequest (by decide) (by decide) (by decide) (by decide) serve_resetRequest

/-- The value of the channel stands for `DAC_RESET`. -/
theorem not_oneEach_reset :
    ¬ ∃ raw, [resetAnswer] = [] ++ [raw] ∧ OneEach ones resetRequest (fun _ => none) raw :=
  fun h => loud_of_oneEach valid_resetRequest (by decide) (by decide) (by decide) (by decide)
    serve_resetRequest h 501 (by decide) (.inr (.inr rfl))

end ClickA.Fpga
