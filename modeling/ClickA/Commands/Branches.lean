import ClickA.Commands.Silent

/-!
# The branches of the main loop

What each branch of the main loop acknowledges, but for those of the FPGA.

## Main definitions

* `Command.Meets`: when a command is acknowledged exactly once and as itself

## Main results

* `settles_accept`, `settles_fileCommand`: branches with a test of the status, and commands on files
* `settles_setMode`, `settles_calibLaserTest`, `settles_updateAcquisitionParams`,
  `settles_enterPatMain`: branches that do not always acknowledge their command
-/

namespace ClickA.Commands

open Python Options Fpga Handler

attribute [local irreducible] pack unpack HKControlPacket.encode TxPacket.encode sendPatCommand
  FPGAMapRequestPacket.encode

/-! ## Conditions -/

section Conditions

variable (env : Env) (w : World) (payload : Bytes)

/-- The registers that were written are read back as an `int` or as a list, which is not too
short. -/
def ReadsBack (startAddr numRegisters : ℕ) (writeData : List ℤ) : Prop :=
  Allows (do
    let _ ← writeReg env startAddr (.list writeData)
    readReg env startAddr numRegisters)
  (fun value _ => ∃ values, valuesOf env value = some values ∧ numRegisters ≤ values.length) w

/-- The number of registers is right, their types pack the data, and they are read back. -/
def SetsRegs : Prop :=
  ∃ values rqNumber startAddr numRegisters writeData,
    unpack (setFpgaFormat payload.length) payload = .ok values ∧
    ints values = rqNumber :: startAddr :: numRegisters :: writeData ∧
    numRegisters = writeData.length ∧
    (∃ data, Client.payload startAddr.toNat (.list writeData) = .ok data) ∧
    ReadsBack env w startAddr.toNat numRegisters.toNat writeData

/-- A list of the right length is packed for the ground. -/
def GetsRegs : Prop :=
  ∃ rqNumber startAddr numRegisters : ℕ,
    unpack (network [.B, .H, .B]) payload = .ok [.int rqNumber, .int startAddr, .int numRegisters] ∧
    Allows (readReg env startAddr numRegisters) (fun value _ => ∀ readData,
      valuesOf env value = some readData → numRegisters = readData.length →
        ∃ data, packRegs rqNumber startAddr readData = .ok data) w

/-- When a command is acknowledged once and as itself: its statement on files ends normally, PAT is
in standby for the laser test, the parameters of an acquisition are in bounds too, and the registers
are written and read as they were asked for. -/
def Command.Meets (patStatusFlag : ℤ) : Command → Prop
  | autoDownlinkFile => Ends (Files.autoDownlinkFile env.files payload) w.host
  | disassembleFile => Ends (Files.disassembleFile env.files payload) w.host
  | requestFile => Ends (Files.requestFile env.files payload) w.host
  | uplinkFile => Ends (Files.uplinkFile env.files payload) w.host
  | assembleFile => Ends (Files.assembleFile env.files payload) w.host
  | validateFile => Ends (Files.validateFile env.files payload) w.host
  | moveFile => Ends (Files.moveFile env.files payload) w.host
  | deleteFile => Ends (Files.delFile env.files payload) w.host
  | autoAssembleFile => Ends (Files.autoAssembleFile env.files payload) w.host
  | setPatMode => ∃ patModeCmd : ℕ, unpack (network [.B]) payload = .ok [.int patModeCmd] ∧
      (patModeCmd ∈ patModeList → Ends (Commands.setPatMode env patModeCmd) w.host)
  | enterPatMain => standby patStatusFlag = true → Ends (getPatMode env) w.host
  | calibLaserTest => standby patStatusFlag = true
  | updateAcquisitionParams => standby patStatusFlag = true ∧
      ∃ a, Acquisition.decode payload = .ok a ∧ a.InBounds
  | setFpga => SetsRegs env w payload
  | getFpga => GetsRegs env w payload
  | _ => True

end Conditions

variable {env : Env} {w : World} {patStatusFlag : ℤ} {payload workload : Bytes} {c : Command}
  {cmdId status command addr n : ℕ} {accepted : Bool} {body : Stmt Unit} {good : Prop}

/-! ## Statements -/

theorem ensures_own (hcmdId : cmdId < 2 ^ 16) (hstatus : status < 2 ^ 16) :
    Ensures (ackToHk env cmdId status) (fun _ w' => Outcome True cmdId w w') w := by
  refine (ensures_ackToHk hcmdId hstatus).imp ?_
  rintro _ w' ⟨raw, hsends, hacknowledges⟩
  exact ⟨[raw], hsends, iff_of_true ⟨raw, rfl, hacknowledges⟩ trivial⟩

theorem settles_own (hcmdId : cmdId < 2 ^ 16) (hstatus : status < 2 ^ 16) (hgood : good) :
    Settles good cmdId (ackToHk env cmdId status) w :=
  settles_ack hcmdId hstatus (iff_of_true rfl hgood)

/-- What is accepted is acknowledged, and so is what is not. -/
theorem settles_accept (hcmdId : cmdId < 2 ^ 16) (hbody : accepted = true → Calls body) :
    Settles True cmdId (accept env accepted cmdId body) w := by
  unfold accept
  split
  · rename_i haccepted
    apply (hbody haccepted).bind
    exact fun _ _ => settles_own hcmdId (by decide) trivial
  · exact settles_own hcmdId (by decide) trivial

/-- A command on files is acknowledged if and only if its statement ends normally. -/
theorem settles_fileCommand (hcmdId : cmdId < 2 ^ 16) (x : Files.Stmt Unit) :
    Settles (Ends x w.host) cmdId (fileCommand env cmdId x) w := by
  apply settles_bind
  rw [wp_onHost]
  by_cases hends : Ends x w.host
  · refine hends.mono ?_ fun _ _ hfalse => hfalse.elim
    exact fun _ _ _ => ⟨silent_of_eq rfl, settles_own hcmdId (by decide) hends⟩
  · refine (raises_of_not_ends hends).mono (fun _ _ hfalse => hfalse.elim) ?_
    exact fun _ _ _ => Or.inr ⟨silent_of_eq rfl, hends⟩

/-! ## Processes and files -/

theorem settles_execFile
    (h : payload.length = calcsize (network [.B, .B, .H, .s (payload.length - 4)])) :
    Settles True cmdPlExecFile (execFile env payload) w := by
  obtain ⟨outputToFile, fileOutNum, filePathLen, filePathPayload, hunpack⟩ :
      ∃ (a b n : ℕ) (rest : Bytes), unpack (network [.B, .B, .H, .s (payload.length - 4)]) payload =
        .ok [.int a, .int b, .int n, .str rest] := ⟨_, _, _, _, unpack_of_length h⟩
  unfold execFile
  apply settles_raise_bind hunpack
  dsimp only
  unfold Settles
  rw [wp_tryCatch, wp_bind]
  refine (silent_system _ w).mono ?_ ?_
  · intro _ w' hsilent
    refine (ensures_own (by decide) (by decide)).mono ?_ fun _ _ hfalse => hfalse.elim
    exact fun _ _ houtcome => houtcome.before hsilent
  · intro _ w' hsilent
    refine (ensures_own (by decide) (by decide)).mono ?_ fun _ _ hfalse => hfalse.elim
    exact fun _ _ houtcome => houtcome.before hsilent

theorem silent_listdir (path : Bytes) : Keeps Silent (listdir env path) := by
  intro w
  unfold listdir
  by_cases hnul : path.contains 0 = true
  · rw [if_pos hnul]
    exact silent_of_eq rfl
  · rw [if_neg hnul]
    exact silent_onHost _ w

theorem settles_listFile (h : payload.length = calcsize (network [.H, .s (payload.length - 2)])) :
    Settles True cmdPlListFile (listFile env payload) w := by
  obtain ⟨directoryPathLen, directoryPathPayload, hunpack⟩ : ∃ (n : ℕ) (rest : Bytes),
      unpack (network [.H, .s (payload.length - 2)]) payload = .ok [.int n, .str rest] :=
    ⟨_, _, unpack_of_length h⟩
  have hown {α : Type} (status : ℕ) (hstatus : status < 2 ^ 16) (a : α) {w' : World}
      (hsilent : Silent w w') : Ensures (do ackToHk env cmdPlListFile status; return a)
        (fun _ w'' => Outcome True cmdPlListFile w w'') w' := by
    refine (ensures_own (by decide) hstatus).bind ?_
    exact fun _ _ houtcome => houtcome.before hsilent
  unfold listFile
  apply settles_raise_bind hunpack
  dsimp only
  refine Settles.bind ?_ fun _ => silent_sendTx _ _
  unfold Settles
  rw [wp_tryCatch, wp_bind]
  refine (silent_listdir _ w).mono ?_ ?_
  · intro _ w' hsilent
    exact (hown cmdAck (by decide) _ hsilent).mono (fun _ _ houtcome => houtcome)
      fun _ _ hfalse => hfalse.elim
  · intro _ w' hsilent
    exact (hown cmdErr (by decide) _ hsilent).mono (fun _ _ houtcome => houtcome)
      fun _ _ hfalse => hfalse.elim

/-! ## PAT -/

/-- A mode that was read is one. -/
theorem allows_getPatMode (h : Files.Host) :
    Allows (getPatMode env) (fun modeId _ => modeId ∈ patModeList) h := by
  have hreset (h : Files.Host) :
      Allows (resetPatMode env) (fun modeId _ => modeId ∈ patModeList) h := by
    refine Allows.bind wp_true ?_
    exact fun _ _ _ => List.mem_cons_self
  refine Allows.bind (Q := fun _ _ => True) wp_true ?_
  intro hexists h' _
  split
  · refine Allows.bind (Q := fun _ _ => True) wp_true ?_
    intro patModeFile h' _
    refine Allows.bind (Q := fun _ _ => True) wp_true ?_
    intro text h' _
    split
    · rename_i modeId _
      split
      · rename_i hmem
        obtain ⟨mode, hmode, rfl⟩ := List.mem_map.mp hmem
        exact hmode
      · exact hreset h'
    · exact hreset h'
  · exact hreset h'

theorem settles_setMode (h : payload.length = calcsize (network [.B])) :
    Settles (Command.Meets env w payload patStatusFlag .setPatMode) cmdPlSetPatMode
      (setMode env payload) w := by
  obtain ⟨patModeCmd, hunpack⟩ : ∃ n : ℕ, unpack (network [.B]) payload = .ok [.int n] :=
    ⟨_, unpack_of_length h⟩
  have hmeets : Command.Meets env w payload patStatusFlag .setPatMode ↔
      (patModeCmd ∈ patModeList → Ends (setPatMode env patModeCmd) w.host) := by
    constructor
    · rintro ⟨n, hn, hends⟩
      rw [hunpack] at hn
      simp only [Except.ok.injEq, List.cons.injEq, Value.int.injEq, Int.natCast_inj, and_true] at hn
      rwa [hn]
    · exact fun hends => ⟨patModeCmd, hunpack, hends⟩
  unfold setMode
  apply settles_raise_bind hunpack
  refine Settles.bind (Settles.congr ?_ hmeets.symm) ?_
  · show Settles _ _ (selectMode env patModeCmd) w
    unfold selectMode
    split
    · rename_i hmem
      exact (settles_fileCommand (by decide) _).congr (by simp only [hmem, forall_const])
    · rename_i hmem
      exact settles_own (by decide) (by decide) fun hmem' => absurd hmem' hmem
  · intro _
    exact keeps_bind (silent_onHost _) fun _ => keeps_pure ()

theorem settles_capture (h : payload.length = calcsize (network [.H, .H, .H, .H, .I])) :
    Settles True cmdPlSingleCapture (capture env patStatusFlag payload) w := by
  obtain ⟨c, hdecode⟩ : ∃ c, Capture.decode payload = .ok c := by
    obtain ⟨x, y, width, height, exp, hunpack⟩ : ∃ x y width height exp : ℕ,
        unpack (network [.H, .H, .H, .H, .I]) payload =
          .ok [.int x, .int y, .int width, .int height, .int exp] :=
              ⟨_, _, _, _, _, unpack_of_length h⟩
    unfold Capture.decode
    rw [hunpack]
    exact ⟨_, rfl⟩
  unfold capture
  apply settles_raise_bind hdecode
  apply settles_accept (by decide)
  intro haccepted
  rw [Bool.and_eq_true, decide_eq_true_eq] at haccepted
  have hpart (part : Part) : Calls (sendPat part.command (strInt (c.value part))) :=
    calls_sendPat part.command_lt (haccepted.2.length_text part)
  show Calls (List.forM Part.all _)
  unfold Part.all
  exact calls_bind (hpart _) fun _ => calls_bind (hpart _) fun _ => calls_bind (hpart _) fun _ =>
    calls_bind (hpart _) fun _ => calls_bind (hpart _) fun _ => calls_pure ()

theorem clampExposure_lt (expCmd : ℕ) : clampExposure expCmd < 2 ^ 32 := by
  unfold clampExposure
  split
  · decide
  · split
    · decide
    · rename_i hle
      have hmax : cameraMaxExp < 2 ^ 32 := by decide
      omega

/-- The laser is set up, and a test is started. -/
theorem calls_exposureTest (hcommand : command < 2 ^ 16) (expCmd : ℕ) : Calls (do
    initializeCalLaser env
    sendPat command (str (clampExposure expCmd))) :=
  calls_bind calls_initializeCalLaser fun _ => calls_sendPat_str hcommand (clampExposure_lt expCmd)

theorem exists_unpack_I (h : payload.length = calcsize (network [.I])) :
    ∃ n : ℕ, unpack (network [.I]) payload = .ok [.int n] :=
  ⟨_, unpack_of_length h⟩

theorem settles_calibLaserTest (h : payload.length = calcsize (network [.I])) :
    Settles (standby patStatusFlag = true) cmdPlCalibLaserTest
      (calibLaserTest env patStatusFlag payload) w := by
  obtain ⟨expCmd, hunpack⟩ := exists_unpack_I h
  unfold calibLaserTest
  apply settles_raise_bind hunpack
  dsimp only
  split
  · rename_i hstandby
    apply calls_initializeCalLaser.bind
    intro _ w'
    apply (calls_sendPat_str (by decide) (clampExposure_lt _)).bind
    exact fun _ _ => settles_own (by decide) (by decide) hstandby
  · rename_i hstandby
    exact settles_ack (by decide) (by decide) (iff_of_false (by decide) hstandby)

theorem settles_fsmTest (h : payload.length = calcsize (network [.I])) :
    Settles True cmdPlFsmTest (fsmTest env patStatusFlag payload) w := by
  obtain ⟨expCmd, hunpack⟩ := exists_unpack_I h
  unfold fsmTest
  apply settles_raise_bind hunpack
  exact settles_accept (by decide) fun _ => calls_exposureTest (by decide) _

theorem settles_runCalibration :
    Settles True cmdPlRunCalibration (runCalibration env patStatusFlag) w :=
  settles_accept (by decide) fun _ =>
    calls_bind calls_initializeCalLaser fun _ => calls_sendPat_nil (by decide)

theorem settles_updateAcquisitionParams
    (h : payload.length = calcsize (network [.H, .H, .H, .I])) :
    Settles (standby patStatusFlag = true ∧ ∃ a, Acquisition.decode payload = .ok a ∧ a.InBounds)
      cmdPlUpdateAcquisitionParams (updateAcquisitionParams env patStatusFlag payload) w := by
  obtain ⟨a, hdecode⟩ : ∃ a, Acquisition.decode payload = .ok a := by
    obtain ⟨x, y, size, exp, hunpack⟩ : ∃ x y size exp : ℕ,
        unpack (network [.H, .H, .H, .I]) payload = .ok [.int x, .int y, .int size, .int exp] :=
      ⟨_, _, _, _, unpack_of_length h⟩
    unfold Acquisition.decode
    rw [hunpack]
    exact ⟨_, rfl⟩
  have hgood : (standby patStatusFlag = true ∧ a.InBounds) ↔
      standby patStatusFlag = true ∧ ∃ a, Acquisition.decode payload = .ok a ∧ a.InBounds := by
    rw [hdecode]
    simp
  refine Settles.congr ?_ hgood
  unfold updateAcquisitionParams
  apply settles_raise_bind hdecode
  split
  · rename_i hstandby
    split
    · rename_i hbounds
      have hparts := hbounds
      obtain ⟨hx, hy, hsize, -, hexp⟩ := hparts
      simp only [cameraWidth, cameraHeight, cameraMaxExp] at hx hy hsize hexp
      rw [abs_lt] at hx hy
      apply (calls_sendPat_strInt (by decide) (by omega)).bind
      intro _ _
      apply (calls_sendPat_strInt (by decide) (by omega)).bind
      intro _ _
      apply (calls_sendPat_str (by decide) (by omega)).bind
      intro _ _
      apply (calls_sendPat_str (by decide) (by omega)).bind
      exact fun _ _ => settles_own (by decide) (by decide) ⟨hstandby, hbounds⟩
    · rename_i hbounds
      exact settles_of_silent (keeps_pure ()) fun hgood => hbounds hgood.2
  · rename_i hstandby
    exact settles_ack (by decide) (by decide)
      (iff_of_false (by decide) fun hgood => hstandby hgood.1)

theorem natAbs_toShort (hn : n < 256 ^ 2) : (toShort n).natAbs < 10 ^ 10 := by
  unfold toShort
  split
  · omega
  · omega

attribute [local irreducible] toShort

theorem settles_updateTxOffsets (h : payload.length = calcsize (network [.H, .H, .H, .B, .H])) :
    Settles True cmdPlUpdateTxOffsets (updateTxOffsets env patStatusFlag payload) w := by
  have hunpacked : ∃ x y pd dither ditherPd : ℕ, unpack (network [.H, .H, .H, .B, .H]) payload =
      .ok [.int x, .int y, .int pd, .int dither, .int ditherPd] ∧
      x < 256 ^ 2 ∧ y < 256 ^ 2 ∧ pd < 256 ^ 2 ∧ dither < 256 ^ 1 ∧ ditherPd < 256 ^ 2 :=
    ⟨_, _, _, _, _, unpack_of_length h, leNat_take_lt 2 _, leNat_take_lt 2 _,
      leNat_take_lt 2 _,
      leNat_take_lt 1 _, leNat_take_lt 2 _⟩
  obtain ⟨x, y, pd, dither, ditherPd, hunpack, hx, hy, hpd, hdither, hditherPd⟩ := hunpacked
  unfold updateTxOffsets
  apply settles_raise_bind hunpack
  refine settles_accept (by decide) fun _ => ?_
  unfold txOffsets
  apply calls_bind (calls_sendPatIf (calls_sendPat_strInt (by decide) (natAbs_toShort hx)))
  intro _
  apply calls_bind (calls_sendPatIf (calls_sendPat_strInt (by decide) (natAbs_toShort hy)))
  intro _
  apply calls_ite _ (calls_pure ())
  apply calls_bind (calls_sendPat_str (by decide) (by simp; omega))
  intro _
  apply calls_ite _ (calls_pure ())
  apply calls_bind (calls_sendPat_str (by decide) (by simp; omega))
  intro _
  exact calls_sendPat_str (by decide) (by simp; omega)

theorem settles_updateFsmAngles (h : payload.length = calcsize (network [.H, .H])) :
    Settles True cmdPlUpdateFsmAngles (updateFsmAngles env patStatusFlag payload) w := by
  have hunpacked : ∃ x y : ℕ, unpack (network [.H, .H]) payload = .ok [.int x, .int y] ∧
      x < 256 ^ 2 ∧ y < 256 ^ 2 :=
    ⟨_, _, unpack_of_length h, leNat_take_lt 2 _, leNat_take_lt 2 _⟩
  obtain ⟨x, y, hunpack, hx, hy⟩ := hunpacked
  unfold updateFsmAngles
  apply settles_raise_bind hunpack
  refine settles_accept (by decide) fun _ => ?_
  apply calls_bind (calls_sendPatIf (calls_sendPat_strInt (by decide) (natAbs_toShort hx)))
  intro _
  exact calls_sendPatIf (calls_sendPat_strInt (by decide) (natAbs_toShort hy))

theorem settles_testAdcsFeedback :
    Settles True cmdPlTestAdcsFeedback (testAdcsFeedback env patStatusFlag) w :=
  settles_accept (by decide) fun _ => calls_sendPat_nil (by decide)

theorem settles_txAlign : Settles True cmdPlTxAlign (txAlign env patStatusFlag) w :=
  settles_accept (by decide) fun _ => calls_sendPat_nil (by decide)

theorem settles_exitPatMain : Settles True cmdPlExitPatMain (exitPatMain env patStatusFlag) w :=
  settles_accept (by decide) fun _ => calls_sendPat_nil (by decide)

/-- PAT enters its main mode if the file of its mode does not raise. -/
theorem settles_enterMain (flag : ℕ) (hflag : flag < 2 ^ 32) :
    Settles (Ends (getPatMode env) w.host) cmdPlEnterPatMain (do
      enterMain env flag
      ackToHk env cmdPlEnterPatMain cmdAck) w := by
  have hmode : ∀ modeId ∈ patModeList, modeId < 2 ^ 16 := by decide
  unfold enterMain
  rw [bind_assoc]
  apply settles_bind
  rw [wp_onHost]
  by_cases hends : Ends (getPatMode env) w.host
  · refine (Wp.and hends (allows_getPatMode w.host)).mono ?_ fun _ _ hfalse => hfalse.1.elim
    rintro modeId h ⟨-, hmem⟩
    refine ⟨silent_of_eq rfl, ?_⟩
    apply (calls_sendPat_str (hmode modeId hmem) hflag).bind
    exact fun _ _ => settles_own (by decide) (by decide) hends
  · refine (raises_of_not_ends hends).mono (fun _ _ hfalse => hfalse.elim) ?_
    exact fun _ _ _ => Or.inr ⟨silent_of_eq rfl, hends⟩

/-- The statuses in which PAT enters its main mode are those of standby. -/
theorem standby_eq : standby patStatusFlag = (calibrated patStatusFlag ||
    (statusIs patStatusFlag patStatusStandby ||
      statusIs patStatusFlag patStatusStandbySelfTestFailed)) := by
  unfold standby calibrated
  grind

theorem settles_enterPatMain :
    Settles (standby patStatusFlag = true → Ends (getPatMode env) w.host) cmdPlEnterPatMain
      (enterPatMain env patStatusFlag) w := by
  have hgood (hstandby : standby patStatusFlag = true) : Ends (getPatMode env) w.host ↔
      (standby patStatusFlag = true → Ends (getPatMode env) w.host) := by
    simp only [hstandby, forall_const]
  rw [standby_eq] at *
  unfold enterPatMain
  split
  · rename_i hcalibrated
    exact (settles_enterMain _ (by decide)).congr (hgood (by rw [hcalibrated, Bool.true_or]))
  · split
    · rename_i hstandby
      exact (settles_enterMain _ (by decide)).congr (hgood (by rw [hstandby, Bool.or_true]))
    · rename_i hcalibrated hstandby
      refine settles_own (by decide) (by decide) fun hin => ?_
      rw [Bool.or_eq_true] at hin
      exact (hin.elim hcalibrated hstandby).elim

/-- PAT is told to end, and its service is stopped. -/
theorem settles_endPatProcess : Settles True cmdPlEndPatProcess (endPatProcess env) w := by
  have hstop : ¬ (ascii "systemctl --user stop pat").contains 0 = true := by decide
  have hcalls : Calls (stopPat env) := by
    refine calls_bind (calls_sendPat_nil (by decide)) fun _ w => ?_
    unfold system
    rw [if_neg hstop]
    exact silent_of_eq rfl
  apply hcalls.bind
  exact fun _ _ => settles_own (by decide) (by decide) trivial

/-! ## Processes, housekeeping and tests -/

theorem settles_reboot : Settles True cmdPlReboot (reboot env) w :=
  (settles_own (by decide) (by decide) trivial).bind fun _ => silent_system _

theorem settles_shutdown : Settles True cmdPlShutdown (shutdown env) w :=
  (settles_own (by decide) (by decide) trivial).bind fun _ => silent_system _

theorem settles_enableTime : Settles True cmdPlEnableTime (enableTime env) w := by
  have hcalls : Calls (modify fun w => { w with timeSetEnable := 1 } : Stmt Unit) :=
    fun _ => silent_of_eq rfl
  apply hcalls.bind
  exact fun _ _ => settles_own (by decide) (by decide) trivial

/-- A control packet for housekeeping itself is no acknowledgement. -/
theorem settles_setHk (h : payload.length = calcsize (network [.s 6])) :
    Settles True cmdPlSetHk (setHk env payload) w := by
  obtain ⟨setHkPayload, hunpack, hlength⟩ : ∃ b : Bytes,
      unpack (network [.s 6]) payload = .ok [.str b] ∧ b.length ≤ 6 :=
    ⟨_, unpack_of_length h, List.length_take_le _ _⟩
  have hother : cmdPlSetHk ≠ hkControlAck := by decide
  unfold setHk
  apply settles_raise_bind hunpack
  apply settles_bind
  apply wp_sendToHk (by decide) (by omega)
  intro raw hdecode
  have hack : ¬ isAck raw = true := by
    unfold isAck
    rw [hdecode, decide_eq_true_eq]
    exact hother
  refine ⟨⟨[raw], rfl, ?_⟩, settles_own (by decide) (by decide) trivial⟩
  rw [List.filter_cons_of_neg hack, List.filter_nil]

/-- A packet to the ground is sent. -/
theorem calls_sendTx (hcommand : command < 2 ^ 16) (hpayload : payload.length < 2 ^ 16) :
    Calls (sendTx command payload) := by
  intro w
  have hencode := TxPacket.encode_eq hcommand hpayload
  unfold sendTx Files.sendPacket
  rw [wp_onHost, hencode]
  exact silent_of_eq rfl

theorem settles_echo (h : payload.length = calcsize (network [.s payload.length]))
    (hpayload : payload.length < 2 ^ 16) : Settles True cmdPlEcho (echo env payload) w := by
  obtain ⟨echoPayload, hunpack, hlength⟩ : ∃ b : Bytes,
      unpack (network [.s payload.length]) payload = .ok [.str b] ∧ b.length ≤ payload.length :=
    ⟨_, unpack_of_length h, List.length_take_le _ _⟩
  unfold echo
  apply settles_raise_bind hunpack
  apply (calls_sendTx (by decide) (lt_of_le_of_lt hlength hpayload)).bind
  exact fun _ _ => settles_own (by decide) (by decide) trivial

end ClickA.Commands
