import ClickA.Fpga.Answers

/-!
# Requests that are not answered once

Of the other requests, some are answered twice and some end the server, whatever the FPGA returns or
for some of what it may return.

## Main definitions

* `UnknownAhead`: the invariant of a loop with an unknown register
* `Hot`, `Noisy`: an FPGA with temperatures out of range, and one whose EDFA sends line ends only

## Main results

* `answersOnce_iff`: an iteration answers once exactly when its request is answerable
-/

namespace ClickA.Fpga

open Python Options

section Unknown

variable {env : Env} {req : FPGAMapRequestPacket} {w : World} {values : List Value}
  {regs : Edfa.Regs}

/-- An answer behind statements that send answers only. -/
theorem allows_answer_of_grows {w' : World} {n : ℕ} (data : Payload) (errorFlag : ℕ)
    (h : w.answers.length + n ≤ w'.answers.length) :
    Allows (answer req data errorFlag)
      (fun _ w'' => w.answers.length + (n + 1) ≤ w''.answers.length) w' := by
  refine (allows_answer req data errorFlag w').imp ?_
  intro _ w'' hlen
  omega

theorem keeps_refreshEdfa : Keeps Quiet (refreshEdfa env req regs) := by
  unfold refreshEdfa
  refine keeps_ite (fun w => ?_) (keeps_pure _)
  rw [wp_bind, wp_get]
  exact keeps_ite (keeps_updateEdfa env regs) (keeps_pure _) w

theorem keeps_virtualLoop : Keeps Grows (((addresses req).zip values).foldlM (virtualReg env req)
    ([], regs)) := keeps_foldlM (keeps_virtualReg env req) _ _

/-- An unknown register has been answered, or is still to come. -/
def UnknownAhead (w : World) (l : List (ℕ × Value)) (w' : World) : Prop :=
  w.answers.length + 1 ≤ w'.answers.length ∨
    w.answers.length ≤ w'.answers.length ∧ ∃ p ∈ l, ¬ Handled p.1

/-- Each register of the loop keeps the invariant. -/
theorem allows_virtualReg_unknownAhead (reg : ℕ × Value) (l : List (ℕ × Value))
    (acc : List Value × Edfa.Regs) {w' : World} (h : UnknownAhead w (reg :: l) w') :
    Allows (virtualReg env req acc reg) (fun _ w'' => UnknownAhead w l w'') w' := by
  obtain ⟨addr, value⟩ := reg
  obtain ⟨valuesOut, regs⟩ := acc
  rcases h with hdone | ⟨hgrows, p, hp, hnot⟩
  · refine ((keeps_virtualReg env req _ _).allows w').imp fun acc w'' h => .inl ?_
    exact hdone.trans h
  · by_cases haddr : Handled addr
    · refine ((keeps_virtualReg env req _ _).allows w').imp fun acc w'' h => .inr ⟨?_, p, ?_, hnot⟩
      · exact hgrows.trans h
      · exact (List.mem_cons.mp hp).resolve_left fun heq => hnot (heq ▸ haddr)
    · rw [virtualReg_unknown env req haddr]
      exact (allows_answer_of_grows (n := 0) _ _ hgrows).bind fun _ w'' h => .inl h

/-- An unknown register is answered, and the request too. -/
theorem allows_serveVirtual_unknown (hlen : values.length = registerNumber req)
    (hunknown : ∃ addr ∈ addresses req, ¬ Handled addr) :
    Allows (serveVirtual env req values regs)
      (fun _ w' => w.answers.length + 2 ≤ w'.answers.length) w := by
  have hpair : ∃ p ∈ (addresses req).zip values, ¬ Handled p.1 := by
    obtain ⟨addr, haddr, hnot⟩ := hunknown
    obtain ⟨i, hi, rfl⟩ := List.getElem_of_mem haddr
    have hi' : i < ((addresses req).zip values).length := by
      rw [List.length_zip, hlen, length_addresses, Nat.min_self, ← length_addresses]
      exact hi
    refine ⟨_, List.getElem_mem hi', ?_⟩
    rw [List.getElem_zip]
    exact hnot
  unfold serveVirtual
  refine (keeps_refreshEdfa.allows w).bind fun regs w₁ hrefresh => ?_
  have hloop : Allows (((addresses req).zip values).foldlM (virtualReg env req) ([], regs))
      (fun _ w' => UnknownAhead w [] w') w₁ :=
    wp_foldlM (fun reg l acc _ h => allows_virtualReg_unknownAhead reg l acc h)
      (.inr ⟨hrefresh.grows, hpair⟩)
  refine hloop.bind ?_
  rintro ⟨valuesOut, regs⟩ w' (hdone | ⟨-, p, hp, -⟩)
  · exact (allows_answer_of_grows _ _ hdone).bind fun _ w'' h => h
  · exact absurd hp List.not_mem_nil

/-- A request that is served to the end is answered. -/
theorem allows_serve (env : Env) (req : FPGAMapRequestPacket) (regs : Edfa.Regs) (w : World) :
    Allows (serve env req regs) (fun _ w' => w.answers.length + 1 ≤ w'.answers.length) w := by
  have hanswer {data : Payload} {errorFlag : ℕ} {w' : World} (h : Grows w w') :
      Allows (answer req data errorFlag)
        (fun _ w'' => w.answers.length + 1 ≤ w''.answers.length) w' :=
    allows_answer_of_grows (n := 0) data errorFlag h
  have hgrows {α : Type} {x : Server α} {w' : World} (hx : Keeps Quiet x) (h : Grows w w') :
      Allows x (fun _ w'' => Grows w w'') w' :=
    ((keeps_grows hx).allows w').imp fun _ _ h' => trans_of Grows h h'
  unfold serve
  split
  · refine Allows.bind ?_ fun _ _ h => h
    -- each statement before the answer may raise, but none takes an answer back
    unfold serveInStr
    refine (hgrows (Edfa.runs_resetFifo env).keeps (Nat.le_refl _)).bind fun _ _ h => ?_
    refine (hgrows (keeps_lift _) h).bind fun _ _ h => ?_
    refine (hgrows (keeps_lift _) h).bind fun _ _ h => ?_
    refine (hgrows (keeps_lift _) h).bind fun _ _ h => ?_
    refine (hgrows (keeps_lift _) h).bind fun _ _ h => ?_
    exact (hgrows (Edfa.runs_writeString env _).keeps h).bind fun _ _ h => hanswer h
  · split
    · refine Allows.bind ?_ fun _ _ h => h
      unfold serveOutStr
      exact (hgrows (Edfa.runs_readString env).keeps (Nat.le_refl _)).bind fun _ _ h => hanswer h
    · refine (hgrows (keeps_lift _) (Nat.le_refl _)).bind fun values _ h => ?_
      split
      · refine Allows.bind ?_ fun _ _ h => h
        unfold serveRaw
        exact (hgrows (keeps_transfer env _ _ _) h).bind fun _ _ h => hanswer h
      · unfold serveVirtual
        refine (hgrows keeps_refreshEdfa h).bind fun regs w₁ h => ?_
        refine ((keeps_virtualLoop.allows w₁).imp fun _ _ h' => trans_of Grows h h').bind
          fun _ _ h => ?_
        exact (hanswer h).bind fun _ _ h => h

end Unknown

/-! ## Requests that the FPGA can spoil -/

/-- Every register that is read has the value 80: such a temperature is out of range. -/
def Hot (env : Env) : Prop := ∀ w reg, valueAt (env.replyTo w (words 0 reg [0])) 3 = 80

/-- The EDFA sends line ends without pause, and time has passed. -/
structure Noisy (env : Env) : Prop where
  flags : ∀ w, valueAt (env.replyTo w (words 0 efl [0])) 3 = 0
  chars : ∀ w, (results (words 0 erf [0, 0]) (env.replyTo w (words 0 erf [0, 0]))).2 = [10, 0]
  clock : ∀ n, env.clock n = 1.0

theorem exists_hot : ∃ env, Hot env := by
  let env : Env := {
    reply := fun _ out => List.replicate out.length 80
    length_reply := fun _ _ => List.length_replicate
    clock := fun _ => 0
    patience := fun _ => 0 }
  exact ⟨env, fun _ _ => rfl⟩

theorem exists_noisy : ∃ env, Noisy env := by
  let env : Env := {
    reply := fun _ out =>
      if out.length = 6 then [0, 0, 0, 10, 0, 0] else List.replicate out.length 0
    length_reply := fun _ out => by
      split
      · next h => exact h.symm
      · exact List.length_replicate
    clock := fun _ => 1.0
    patience := fun _ => 0 }
  exact ⟨env, fun _ => rfl, fun _ => rfl, fun _ => rfl⟩

section Spoiled

variable {env : Env} {req : FPGAMapRequestPacket} {w : World} {values : List Value}
  {regs : Edfa.Regs}

/-- The argument of the square root is negative. -/
theorem raises_temperature (henv : Hot env) (addr : ℕ) : Raises (temperature env addr) w := by
  have hdecode : decodeTemperature 80 80 = .error .valueError := by decide +kernel
  unfold temperature
  rw [Raises, Allows, wp_bind, wp_of_ok (readReg_eq _), wp_bind, wp_of_ok (readReg_eq _), henv,
    henv, hdecode]
  trivial

/-- The loop does not get past a register that raises. -/
theorem raises_virtualLoop (hlen : values.length = registerNumber req)
    (hsome : registerNumber req ≠ 0)
    (h : ∀ value, Raises (virtualReg env req ([], regs) (req.startAddr, value)) w) :
    Raises (((addresses req).zip values).foldlM (virtualReg env req) ([], regs)) w := by
  obtain ⟨n, hn⟩ := Nat.exists_eq_succ_of_ne_zero hsome
  obtain ⟨value, values, rfl⟩ := List.exists_cons_of_length_eq_add_one (hlen.trans hn)
  unfold addresses
  rw [hn, List.range'_succ, List.zip_cons_cons, List.foldlM_cons]
  exact (h value).bind

theorem raises_serveVirtual_temperatures (henv : Hot env) (hstart : 200 ≤ req.startAddr)
    (hend : req.startAddr + registerNumber req ≤ 206) (hlen : values.length = registerNumber req)
    (hsome : registerNumber req ≠ 0) : Raises (serveVirtual env req values regs) w := by
  have hedfa : ∀ addr ∈ addresses req, addr ∉ edfaParsedBlock := by
    intro addr haddr hedfa
    have hrange := (mem_addresses_iff addr).mp haddr
    unfold edfaParsedBlock at hedfa
    rw [List.mem_range'_1] at hedfa
    omega
  have hmem : req.startAddr ∈ temperatureBlock := by
    unfold temperatureBlock
    rw [List.mem_range'_1]
    omega
  rw [serveVirtual_eq hedfa]
  refine (raises_virtualLoop hlen hsome fun value => ?_).bind
  rw [virtualReg_temperature hmem]
  exact (raises_temperature henv req.startAddr).bind

/-- Every character that is read is a line end. -/
theorem ensures_readLoop_noisy (henv : Noisy env) (readMax error : ℕ) (chars : Bytes) :
    Ensures (Edfa.readLoop env readMax 0 error chars)
      (fun result _ => result.2 = chars ++ List.replicate readMax 10) w := by
  induction readMax generalizing error chars w with
  | zero => exact (List.append_nil chars).symm
  | succ readMax ih =>
    have htransfer : transfer env [erf, efl] [0, 0] [.int 0, .int 0] w = _ :=
      transfer_eq 0 erf [0, 0]
    rw [Edfa.readLoop, if_neg (by decide), Ensures, wp_bind, wp_of_ok htransfer]
    dsimp only
    rw [henv.chars]
    refine Ensures.imp (ih _ (chars ++ [10])) ?_
    rintro result w' hread
    rw [hread, List.append_assoc, List.replicate_succ]
    rfl

/-- The second line of the EDFA is empty. -/
theorem ensures_fline_noisy (henv : Noisy env) :
    Ensures (Edfa.fline env) (fun line _ => line = []) w := by
  unfold Edfa.fline
  refine (Edfa.runs_resetFifo env w).bind fun _ w₁ _ => ?_
  refine (Edfa.runs_writeString env _ w₁).bind fun _ w₂ _ => ?_
  have hread : Ensures (Edfa.readString env)
      (fun result _ => result.2 = List.replicate 1200 10) w₂ := by
    unfold Edfa.readString
    rw [Ensures, wp_bind, wp_of_ok (readReg_eq efl), henv.flags]
    exact ensures_readLoop_noisy henv 1200 0 []
  refine hread.bind ?_
  rintro ⟨error, reply⟩ w₃ hreply
  dsimp only at hreply ⊢
  rw [hreply, List.replicate_succ, splitAt_cons, List.replicate_succ, splitAt_cons]
  rfl

/-- Such a line is not parsed. -/
theorem raises_updateEdfa (henv : Noisy env) : Raises (updateEdfa env regs) w := by
  refine (ensures_fline_noisy henv).raises_bind ?_
  rintro _ w' rfl
  exact raises_lift (by rintro ⟨regs', h⟩; exact absurd h (by simp [split, Edfa.parse, index]))

theorem raises_serveVirtual_edfa (henv : Noisy env) (hedfa : req.startAddr ∈ edfaParsedBlock)
    (hsome : registerNumber req ≠ 0) : Raises (serveVirtual env req values regs) w := by
  have hany : (addresses req).any (· ∈ edfaParsedBlock) = true := by
    rw [List.any_eq_true]
    refine ⟨req.startAddr, (mem_addresses_iff _).mpr ⟨le_rfl, by omega⟩, by simpa using hedfa⟩
  have hclock : env.clock w.xfers.length - lastEdfaUpdate > edfaVirtualRegsGoodFor := by
    rw [henv.clock]
    decide +kernel
  unfold serveVirtual
  refine Raises.bind ?_
  unfold refreshEdfa
  rw [if_pos hany, Raises, Allows, wp_bind, wp_get, if_pos hclock]
  exact raises_updateEdfa henv

theorem raises_serveVirtual_telem (henv : Noisy env) (hstart : req.startAddr = fpgaTelem)
    (hlen : values.length = registerNumber req) (hsome : registerNumber req ≠ 0) :
    Raises (serveVirtual env req values regs) w := by
  have hedfa : ∀ addr ∈ addresses req, addr ∉ edfaParsedBlock := by
    intro addr haddr hedfa
    have hrange := (mem_addresses_iff addr).mp haddr
    unfold edfaParsedBlock at hedfa
    unfold fpgaTelem at hstart
    rw [List.mem_range'_1] at hedfa
    omega
  rw [serveVirtual_eq hedfa]
  refine (raises_virtualLoop hlen hsome fun value => ?_).bind
  have hbranch : virtualReg env req ([], regs) (fpgaTelem, value) =
      (do
        let regs ← updateEdfa env regs
        let valuesOut ← telemRegs env req value regs
        return (valuesOut, regs)) := by
    unfold virtualReg
    dsimp only
    rw [if_neg (by decide), if_neg (by decide), if_neg (by decide), if_neg (by decide),
      if_neg (by decide), if_neg (by decide), if_neg (by decide), if_pos rfl]
  rw [hstart, hbranch]
  exact (raises_updateEdfa henv).bind

/-- A string that is not complete, or that is read, ends the server. -/
theorem raises_serveInStr (hreq : req.Valid) (h : ¬ (req.rwFlag = 1 ∧ 4 ≤ req.size ∧
    leNat (req.writeData.take 4) + 4 ≤ req.size)) : Raises (serveInStr env req) w := by
  refine Ensures.raises_bind (Edfa.runs_resetFifo env w) ?_
  intro _ w' _
  have hslice : slice req.writeData 0 4 = req.writeData.take 4 := slice_zero req.writeData 4
  rw [hslice]
  by_cases hsize : req.size > 3
  · rw [checkAssert_of hsize, Raises, Allows, wp_bind, wp_lift_ok]
    rcases hreq.rwFlag with hread | hwrite
    · rw [hreq.read hread]
      trivial
    · have htake : (req.writeData.take 4).length = 4 := by
        rw [List.length_take, (hreq.write hwrite).1]
        omega
      have hlen : ¬ req.size ≥ leNat (req.writeData.take 4) + 4 := by
        intro hlen
        exact h ⟨hwrite, hsize, hlen⟩
      rw [unpack_uint htake, wp_bind, wp_lift_ok, index_cons_zero, ok_bind, bits, wp_bind,
        wp_lift_ok, Int.toNat_natCast, checkAssert_of_not hlen]
      trivial
  · rw [checkAssert_of_not hsize]
    trivial

end Spoiled

/-! ## Exactly these requests -/

section Exact

variable {req : FPGAMapRequestPacket} {regs : Edfa.Regs}

/-- A request without registers has no values. -/
theorem valuesIn_of_none (hnone : registerNumber req = 0) : valuesIn req = .ok [] := by
  unfold valuesIn
  rw [if_neg fun h => h.2 hnone, hnone]
  rfl

/-- The values of currents are unpacked. -/
theorem exists_valuesIn_currents (hreq : req.Valid) (hstart : 300 ≤ req.startAddr)
    (hend : req.startAddr + registerNumber req ≤ 304) : ∃ values, valuesIn req = .ok values := by
  obtain ⟨values, hvalues, -⟩ := valuesIn_spec (P := fun _ _ => True) hreq
    (fun _ _ => trivial) fun addr haddr pl hlen => by
      have hrange := (mem_addresses_iff addr).mp haddr
      have hmem : addr ∈ currentBlock := by
        unfold currentBlock
        rw [List.mem_range'_1]
        omega
      obtain ⟨x, hx⟩ := decodeReg_float (registerType_current addr hmem) hlen
      exact ⟨_, hx, trivial⟩
  exact ⟨values, hvalues⟩

/-- Virtual registers of an answerable request are answered. -/
theorem ensures_serveVirtual_of_answerable (hreq : req.Valid) (hin : req.startAddr ≠ edfaInStr)
    (hout : req.startAddr ≠ edfaOutStr) (h128 : 128 ≤ req.startAddr) (h : Answerable req)
    (env : Env) (w : World) : ∃ values, valuesIn req = .ok values ∧
      Ensures (serveVirtual env req values regs) (fun _ w' => Answered req w w') w := by
  have htype := registerType_ne_str hin hout
  rw [Answerable, if_neg hin] at h
  by_cases hnone : registerNumber req = 0
  · exact ⟨[], valuesIn_of_none hnone, ensures_serveVirtual_of_none hreq htype hnone⟩
  · rcases h with hout' | hnone' | hend | ⟨hstart, hend⟩ | ⟨hstart, hend, hfits⟩
    · exact absurd hout' hout
    · exact absurd hnone' hnone
    · omega
    · obtain ⟨values, hvalues⟩ := exists_valuesIn_currents hreq hstart hend
      exact ⟨values, hvalues, ensures_serveVirtual_currents hreq hstart hend hnone
        (length_valuesIn hvalues)⟩
    · obtain ⟨values, hvalues, hall⟩ := valuesIn_dacs hreq hstart hend
      exact ⟨values, hvalues, ensures_serveVirtual_dacs hreq hstart hend htype hvalues hall hfits⟩

/-- An answerable request is answered once. -/
theorem ensures_serve (hreq : req.Valid) (h : Answerable req) (env : Env) (w : World) :
    Ensures (serve env req regs) (fun _ w' => Answered req w w') w := by
  have hreturn {x : Server Unit} {w : World} (hx : Ensures x (fun _ w' => Answered req w w') w) :
      Ensures (do x; return regs) (fun _ w' => Answered req w w') w :=
    hx.bind fun _ _ h => h
  unfold serve
  split
  · next hin =>
    rw [Answerable, if_pos hin] at h
    obtain ⟨hwrite, hsize, hlen⟩ := h
    exact hreturn (ensures_serveInStr hreq hin hwrite hsize hlen)
  · next hin =>
    split
    · next hout => exact hreturn (ensures_serveOutStr hreq hout)
    · next hout =>
      rcases Nat.lt_or_ge req.startAddr 128 with h128 | h128
      · have hend : req.startAddr + registerNumber req ≤ 128 := by
          rw [Answerable, if_neg hin] at h
          omega
        obtain ⟨ns, hns, hlen⟩ := valuesIn_raw hreq hend
        rw [hns, Ensures, wp_bind, wp_lift_ok, if_pos h128]
        exact hreturn (ensures_serveRaw hreq h128 hend hlen)
      · obtain ⟨values, hvalues, hserve⟩ :=
          ensures_serveVirtual_of_answerable hreq hin hout h128 h env w
        rw [hvalues, Ensures, wp_bind, wp_lift_ok, if_neg (Nat.not_lt.mpr h128)]
        exact hserve

/-- Virtual registers that are answered once, whatever the FPGA returns, are answerable. -/
theorem answerable_of_serveVirtual {values : List Value} (hin : req.startAddr ≠ edfaInStr)
    (hout : req.startAddr ≠ edfaOutStr) (hreq : req.Valid) (hvalues : valuesIn req = .ok values)
    (h : ∀ env w,
      Ensures (serveVirtual env req values regs) (fun _ w' => Answered req w w') w) :
    Answerable req := by
  have htype := registerType_ne_str hin hout
  have hlen := length_valuesIn hvalues
  rw [Answerable, if_neg hin]
  by_cases hsome : registerNumber req = 0
  · exact .inr (.inl hsome)
  obtain ⟨hot, hhot⟩ := exists_hot
  obtain ⟨noisy, hnoisy⟩ := exists_noisy
  let w₀ : World := ⟨[], []⟩
  have hknown (addr : ℕ) (hle : req.startAddr ≤ addr)
      (hlt : addr < req.startAddr + registerNumber req) : Handled addr := by
    by_contra hnot
    obtain ⟨-, w', ⟨raw, hone, -⟩, htwo⟩ := (h hot w₀).of_allows
      (allows_serveVirtual_unknown hlen ⟨addr, (mem_addresses_iff addr).mpr ⟨hle, hlt⟩, hnot⟩)
    rw [hone, List.length_append, List.length_singleton] at htwo
    omega
  have hbefore {b : ℕ} (hb : ¬ Handled b) (hle : req.startAddr ≤ b) :
      req.startAddr + registerNumber req ≤ b := by
    by_contra hlt
    exact hb (hknown b hle (by omega))
  have hfirst := (handled_iff req.startAddr).mp (hknown _ le_rfl (by omega))
  rcases hfirst with ⟨hstart, hlt⟩ | ⟨hstart, hlt⟩ | ⟨hstart, hlt⟩ | ⟨hstart, hlt⟩ | htelem
  · have hend := hbefore (b := 206) (by decide) (by omega)
    exact absurd (h hot w₀)
      (raises_serveVirtual_temperatures hhot hstart hend hlen hsome).not_ensures
  · exact .inr (.inr (.inr (.inl ⟨hstart, hbefore (by decide) (by omega)⟩)))
  · have hmem : req.startAddr ∈ edfaParsedBlock := by
      unfold edfaParsedBlock
      rw [List.mem_range'_1]
      omega
    exact absurd (h noisy w₀) (raises_serveVirtual_edfa hnoisy hmem hsome).not_ensures
  · have hend := hbefore (b := 510) (by decide) (by omega)
    obtain ⟨values', hvalues', hall⟩ := valuesIn_dacs hreq hstart hend
    obtain rfl := Except.ok.inj (hvalues.symm.trans hvalues')
    refine .inr (.inr (.inr (.inr ⟨hstart, hend, ?_⟩)))
    by_contra hfits
    exact absurd (h hot w₀)
      (raises_serveVirtual_dacs hstart hend htype hvalues hall hfits).not_ensures
  · exact absurd (h noisy w₀) (raises_serveVirtual_telem hnoisy htelem hlen hsome).not_ensures

/-- A request that is answered once, whatever the FPGA returns, is answerable. -/
theorem answerable_of_serve (hreq : req.Valid) (h : ∀ env w,
    Ensures (serve env req regs) (fun _ w' => Answered req w w') w) : Answerable req := by
  obtain ⟨hot, -⟩ := exists_hot
  -- which branch raises depends on the request alone, so that one environment will do
  let w₀ : World := ⟨[], []⟩
  by_cases hin : req.startAddr = edfaInStr
  · rw [Answerable, if_pos hin]
    by_contra hnot
    have hraises : Raises (serve hot req regs) w₀ := by
      unfold serve
      rw [if_pos hin]
      exact (raises_serveInStr hreq hnot).bind
    exact hraises.not_ensures (h hot w₀)
  · by_cases hout : req.startAddr = edfaOutStr
    · rw [Answerable, if_neg hin]
      exact .inl hout
    · have hserve (env : Env) : serve env req regs = (do
          let values ← lift (valuesIn req)
          if req.startAddr < 128 then
            serveRaw env req values
            return regs
          else serveVirtual env req values regs) := by
        unfold serve
        rw [if_neg hin, if_neg hout]
      cases hvalues : valuesIn req with
      | error e =>
        have hraises : Raises (serve hot req regs) w₀ := by
          rw [hserve, hvalues]
          trivial
        exact absurd (h hot w₀) hraises.not_ensures
      | ok values =>
        simp only [hserve, hvalues, Ensures, wp_bind, wp_lift_ok] at h
        rcases Nat.lt_or_ge req.startAddr 128 with h128 | h128
        · simp only [if_pos h128] at h
          rw [Answerable, if_neg hin]
          refine .inr (.inr (.inl ?_))
          by_contra hend
          have hraises : Raises (serveRaw hot req values) w₀ :=
            raises_serveRaw h128 (Nat.lt_of_not_le hend) (length_valuesIn hvalues)
          exact hraises.bind.not_ensures (h hot w₀)
        · simp only [if_neg (Nat.not_lt.mpr h128)] at h
          exact answerable_of_serveVirtual hin hout hreq hvalues h

/-- **An iteration answers once exactly when what it receives is answerable.** -/
theorem answersOnce_iff (state : Loop) (received : Received) :
    AnswersOnce state received ↔ AnswerableReceived received := by
  cases received with
  | message raw =>
    unfold AnswersOnce AnswerableReceived
    refine forall_congr' fun req => forall_congr' fun hdecode => ?_
    have hreq := FPGAMapRequestPacket.valid_of_decode hdecode
    have hiteration (env : Env) (w : World) :
        Ensures (iteration env state (.message raw)) (fun _ w' => Answered req w w') w ↔
          Ensures (serve env req state.regBuffer) (fun _ w' => Answered req w w') w :=
      wp_iteration_message hdecode
    simp only [hiteration]
    exact ⟨answerable_of_serve hreq, fun h => ensures_serve hreq h⟩
  | error errno =>
    unfold AnswersOnce AnswerableReceived
    cases errno with
    | eagain => exact iff_of_true (fun _ _ => rfl) rfl
    | other =>
      refine iff_of_false ?_ (by decide)
      intro h
      obtain ⟨env, -⟩ := exists_hot
      have hnone := h env ⟨[], []⟩
      obtain ⟨req, regBuffer⟩ := state
      cases req with
      | none => exact hnone
      | some req =>
        have hserve : Allows (iteration env ⟨some req, regBuffer⟩ (.error .other))
            (fun _ w' => 1 ≤ w'.answers.length) ⟨[], []⟩ :=
          (allows_serve env req regBuffer ⟨[], []⟩).bind fun _ _ h => h
        obtain ⟨-, w', hsame, hgrows⟩ := hnone.of_allows hserve
        rw [hsame] at hgrows
        exact absurd hgrows (by decide)

/-- A read of register 700, which the server does not know, is answered twice. -/
theorem not_answersOnce_unknownRegister :
    ¬ AnswersOnce ⟨none, fun _ => none⟩
      (.message [1, 0, 0, 0, 1, 0, 0xBC, 0x02, 4, 0, 0, 0]) := by
  intro h
  let req : FPGAMapRequestPacket := ⟨1, 1, 0, 700, 4, []⟩
  have hdecode : FPGAMapRequestPacket.decode [1, 0, 0, 0, 1, 0, 0xBC, 0x02, 4, 0, 0, 0] =
      .ok req := by decide
  obtain ⟨env, -⟩ := exists_hot
  have hone : registerNumber req = 1 := by
    show 4 / 4 = 1
    rfl
  have hvalues : valuesIn req = .ok [.int 0] := by
    unfold valuesIn
    rw [if_neg (by decide), hone]
    rfl
  -- the branch of an unknown register appends an answer of its own
  have hunknown : ∃ addr ∈ addresses req, ¬ Handled addr :=
    ⟨700, (mem_addresses_iff 700).mpr ⟨le_rfl, by rw [hone]; decide⟩, by decide⟩
  have hserve : Allows (serve env req fun _ => none) (fun _ w' => 2 ≤ w'.answers.length)
      ⟨[], []⟩ := by
    have hvirtual : ¬ req.startAddr < 128 := by decide
    unfold serve
    rw [if_neg (by decide), if_neg (by decide), hvalues, Allows, wp_bind, wp_lift_ok,
      if_neg hvirtual]
    exact allows_serveVirtual_unknown hone.symm hunknown
  have hiteration : Allows (iteration env ⟨none, fun _ => none⟩
      (.message [1, 0, 0, 0, 1, 0, 0xBC, 0x02, 4, 0, 0, 0]))
      (fun _ w' => 2 ≤ w'.answers.length) ⟨[], []⟩ :=
    (wp_iteration_message hdecode).mpr hserve
  obtain ⟨-, w', ⟨answer, hsingle, -⟩, htwo⟩ := (h req hdecode env ⟨[], []⟩).of_allows hiteration
  rw [hsingle] at htwo
  exact absurd htwo (by simp)

end Exact

end ClickA.Fpga
