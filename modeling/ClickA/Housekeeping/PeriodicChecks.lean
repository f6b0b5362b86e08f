import ClickA.Housekeeping.Alive

/-!
# The periodic checks

The checks of the FPGA and of the system are statements of the loop. The check of the system packs
the period of the command handlers into one byte, outside any `try`, and what `psutil` raises goes
out of the loop as well.

## Main definitions

* `Readings.Fit`: the processes fit the packet
* `Housekeeper.Checkable`: the check of the system goes through
* `Logged`: what it may change

## Main results

* `ensures_handleFpgaCheck`, `ensures_handleFpgaAnswer`: the check of the FPGA ends normally
* `handleSysCheck_eq`, `raises_handleSysCheck`: when the check of the system does
-/

namespace ClickA.Housekeeping

open Python Options

/-- The processes are few enough for a packet. -/
def Readings.Fit (r : Readings) : Prop :=
  35 + (r.processes.flatMap Process.info).length < 2 ^ 16

/-- If the check of the system is due and enabled, the period of the command handlers fits a byte,
and `psutil` reads what fits the packet. -/
def Housekeeper.Checkable (h : Housekeeper) (psutil : Except Err Readings) : Prop :=
  h.sysCheckFlag = true → h.sysHkSendEnable ≠ 0 →
    h.chHeartbeatPeriod < 2 ^ 8 ∧ ∃ r, psutil = .ok r ∧ r.Fit

variable {report : Err → Bytes} {h h' h'' : Housekeeper} {bootIds : Option ℕ}
  {psutil : Except Err Readings} {answer : Client.RegValue}

theorem Unmoved.trans (h₁ : Unmoved h h') (h₂ : Unmoved h' h'') : Unmoved h h'' where
  alive := h₂.alive
  services := h₂.services.trans h₁.services
  timeouts alert := (h₂.timeouts alert).trans (h₁.timeouts alert)

attribute [local irreducible] packAll packAnswer bootCount TxPacket.encode

/-! ## Packets -/

section Packets

variable {apid processId : ℕ} {data : Bytes}

/-- Data that are a payload already, of the FPGA or of the system. -/
inductive Ready : ℕ → ℕ → Prop
  | fpga : Ready hkFpgaId tlmHkFpgaMap
  | sys : Ready hkSysId tlmHkSys

theorem Ready.handleHkPkt_bind (hready : Ready processId apid) (data : Bytes) :
    handleHkPkt data processId = (do
      let rawPkt ← raise (TxPacket.encode apid data)
      modify (·.queuePacket rawPkt)) := by
  cases hready with
  | fpga => rfl
  | sys => rfl

/-- They are queued if they are short enough. -/
theorem handleHkPkt_eq (hready : Ready processId apid) (hlen : data.length < 2 ^ 16) :
    ∃ raw, handleHkPkt data processId h = .ok () (h.queuePacket raw) := by
  have hapid : apid < 2 ^ 16 := by
    cases hready with
    | fpga => decide
    | sys => decide
  rw [hready.handleHkPkt_bind, bind_of_ok (raise_eq (TxPacket.encode_eq hapid hlen))]
  exact ⟨_, rfl⟩

theorem raises_handleHkPkt (hready : Ready processId apid) (hlen : 2 ^ 16 ≤ data.length) :
    Raises (handleHkPkt data processId) h := by
  rw [hready.handleHkPkt_bind]
  refine (allows_raise _).bind ?_
  rintro raw _ ⟨-, hencode⟩
  obtain ⟨-, hlt, -⟩ := TxPacket.encode_eq_ok_iff.mp hencode
  exact absurd hlt (Nat.not_lt.mpr hlen)

end Packets

/-! ## The FPGA -/

/-- The registers are asked for. -/
theorem ensures_handleFpgaCheck (halive : Alive h) :
    Ensures handleFpgaCheck (fun _ h' => Unmoved h h') h := by
  rw [handleFpgaCheck, Ensures, wp_bind, wp_get]
  split
  · rw [initFpgaRead, wp_bind, wp_bind, wp_get]
    split
    · exact Unmoved.of_vital halive rfl
    · exact Unmoved.of_vital halive rfl
  · exact Unmoved.refl halive

theorem ensures_checkFpga (halive : Alive h) (hanswer : IsTelemetry answer) :
    Ensures (checkFpga answer)
      (fun data h' => Unmoved h h' ∧ data.length = 1 + 4 * fpgaTelemRegs.length) h := by
  have hcount : ∀ n ∈ [h.fpgaHkCount % 256], n < 256 ^ 1 :=
    List.forall_mem_singleton.mpr (Nat.mod_lt _ (by decide))
  obtain ⟨head, hhead, hheadLen⟩ := exists_packAll (k := 1) hcount
  obtain ⟨registers, hregisters, hlen⟩ := exists_packAnswer hanswer
  rw [checkFpga, Ensures, wp_bind, wp_get, wp_bind]
  refine (wp_of_ok (raise_eq hhead)).mpr ?_
  rw [wp_bind]
  refine (wp_of_ok (raise_eq hregisters)).mpr ?_
  rw [wp_bind, wp_modify, wp_pure, List.length_append, hheadLen, hlen]
  exact ⟨Unmoved.of_vital halive rfl, rfl⟩

/-- An answer is packed and queued. -/
theorem ensures_handleFpgaAnswer (halive : Alive h) :
    Ensures handleFpgaAnswer (fun _ h' => Unmoved h h') h := by
  rw [handleFpgaAnswer, Ensures, wp_bind, wp_get]
  cases hqueue : h.fpgaQueue with
  | nil => exact Unmoved.refl halive
  | cons answer queue =>
    obtain ⟨hperiods, hanswers⟩ := halive.fits
    have hanswers' : ∀ a ∈ answer :: queue, IsTelemetry a := hqueue ▸ hanswers
    obtain ⟨hanswer, hrest⟩ := List.forall_mem_cons.mp hanswers'
    have halive₁ : Alive (h.setFpgaQueue queue) :=
      halive.of_eq (halive.toRegistered.of_eq rfl rfl rfl) rfl rfl halive.patHealthWd
        halive.lbHeartbeatWd halive.checkTimers rfl ⟨hperiods, hrest⟩
    have hunmoved₁ : Unmoved h (h.setFpgaQueue queue) :=
      ⟨halive₁, rfl, fun alert => .refl alert h⟩
    dsimp only
    rw [wp_bind, wp_modify]
    refine (ensures_checkFpga halive₁ hanswer).bind ?_
    rintro data h₂ ⟨hunmoved₂, hlen⟩
    have hlt : data.length < 2 ^ 16 := by
      rw [hlen]
      decide
    obtain ⟨raw, hraw⟩ := handleHkPkt_eq (h := h₂) .fpga hlt
    apply (wp_of_ok hraw).mpr
    exact (hunmoved₁.trans hunmoved₂).trans (Unmoved.of_vital hunmoved₂.alive rfl)

/-! ## The system -/

/-- Only what is queued, reported and counted has changed, and the flag. -/
def Logged (h h' : Housekeeper) : Prop :=
  ∃ packetBuf sent sysHkCount sysCheckFlag,
    h' = { h with packetBuf, sent, sysHkCount, sysCheckFlag }

theorem Logged.refl (h : Housekeeper) : Logged h h := ⟨_, _, _, _, rfl⟩

theorem Logged.trans (h₁ : Logged h h') (h₂ : Logged h' h'') : Logged h h'' := by
  obtain ⟨_, _, _, _, rfl⟩ := h₁
  obtain ⟨_, _, _, _, rfl⟩ := h₂
  exact ⟨_, _, _, _, rfl⟩

theorem Logged.unmoved (hlogged : Logged h h') (halive : Alive h) : Unmoved h h' := by
  obtain ⟨_, _, _, _, rfl⟩ := hlogged
  exact Unmoved.of_vital halive rfl

/-- The enables are one byte. -/
theorem enables_lt (h : Housekeeper) : h.enables < 2 ^ 8 := by
  have hbit (n : ℕ) {k : ℕ} (hk : k < 8) : (n &&& 1) <<< k < 2 ^ 8 := by
    rw [Nat.and_one_is_mod, Nat.shiftLeft_eq]
    calc n % 2 * 2 ^ k ≤ 1 * 2 ^ 7 :=
          Nat.mul_le_mul (by omega) (Nat.pow_le_pow_right (by decide) (by omega))
      _ < 2 ^ 8 := by decide
  unfold Housekeeper.enables
  refine Nat.or_lt_two_pow (Nat.or_lt_two_pow (Nat.or_lt_two_pow (Nat.or_lt_two_pow
    (Nat.or_lt_two_pow (Nat.or_lt_two_pow (Nat.or_lt_two_pow ?_ ?_) ?_) ?_) ?_) ?_) ?_) ?_
  all_goals exact hbit _ (by decide)

/-- All but the period of the command handlers always fit a byte. -/
theorem sysBytes_lt (halive : Alive h) (hperiod : h.chHeartbeatPeriod < 2 ^ 8) :
    ∀ n ∈ h.sysBytes, n < 256 ^ 1 := by
  obtain ⟨hperiods, -⟩ := halive.fits
  simp only [Housekeeper.checked, List.forall_mem_cons] at hperiods
  obtain ⟨hfpga, hsys, hlb, hpat, -⟩ := hperiods
  have hmask (n : ℕ) : n &&& 0xFF < 256 := Nat.and_lt_two_pow n (show 0xFF < 2 ^ 8 by decide)
  have hcount (n : ℕ) : n % 256 < 256 := Nat.mod_lt n (by decide)
  simp only [Housekeeper.sysBytes, List.forall_mem_cons]
  exact ⟨hcount _, enables_lt h, hfpga, hsys, hperiod, hlb, hpat, hcount _, hmask _, hcount _,
    hmask _, List.forall_mem_nil _⟩

/-- The boot count is four bytes, whether it could be read or not. -/
theorem ensures_packBootCount (report : Err → Bytes) (bootIds : Option ℕ) (h : Housekeeper) :
    Ensures (packBootCount report bootIds) (fun boots h' => Logged h h' ∧ boots.length = 4) h := by
  have hunknown : ∀ n ∈ [0xFFFFFFFF], n < 256 ^ 4 := by decide
  obtain ⟨unknown, hpack, hlen⟩ := exists_packAll (k := 4) hunknown
  rw [packBootCount, Ensures, wp_tryCatch]
  cases hcount : bootCount bootIds with
  | ok boots => exact ⟨.refl h, length_bootCount hcount⟩
  | error e =>
    rw [raise, wp_throw, wp_bind, wp_tryCatch, sendException, wp_bind, wp_modify, wp_throw, wp_pure]
    refine (wp_of_ok (raise_eq hpack)).mpr ?_
    exact ⟨⟨_, _, _, _, rfl⟩, hlen⟩

/-- What the check of the system packs, if the period fits and `psutil` returns. -/
theorem ensures_checkSys (report : Err → Bytes) (bootIds : Option ℕ) (halive : Alive h)
    (hperiod : h.chHeartbeatPeriod < 2 ^ 8) {r : Readings} (hpsutil : psutil = .ok r) :
    Ensures (checkSys report bootIds psutil) (fun data h' =>
      Logged h h' ∧ data.length = 35 + (r.processes.flatMap Process.info).length) h := by
  obtain ⟨head, hhead, hheadLen⟩ := exists_packAll (k := 1) (sysBytes_lt halive hperiod)
  obtain ⟨memory, hmemory, hmemoryLen⟩ := exists_memory r
  obtain ⟨procInfo, hprocInfo, hprocLen⟩ := exists_procInfo r
  rw [checkSys, Ensures, wp_bind, wp_get, wp_bind]
  refine (wp_of_ok (raise_eq hhead)).mpr ?_
  refine (ensures_packBootCount report bootIds h).bind ?_
  rintro boots h₁ ⟨hlogged, hboots⟩
  rw [Ensures, wp_bind]
  refine (wp_of_ok (attempt_eq hpsutil)).mpr ?_
  rw [wp_bind]
  refine (wp_of_ok (raise_eq hmemory)).mpr ?_
  rw [wp_bind]
  refine (wp_of_ok (raise_eq hprocInfo)).mpr ?_
  rw [wp_bind, wp_modify, wp_pure]
  refine ⟨hlogged.trans ⟨_, _, _, _, rfl⟩, ?_⟩
  simp only [List.length_append, hheadLen, hboots, hmemoryLen, hprocLen, Housekeeper.sysBytes,
    List.length_cons, List.length_nil]
  omega

/-- Nothing is packed without. -/
theorem allows_checkSys (report : Err → Bytes) (bootIds : Option ℕ) (psutil : Except Err Readings)
    (h : Housekeeper) : Allows (checkSys report bootIds psutil)
      (fun _ _ => h.chHeartbeatPeriod < 2 ^ 8 ∧ ∃ r, psutil = .ok r) h := by
  rw [checkSys, Allows, wp_bind, wp_get]
  refine (allows_raise _).bind ?_
  rintro head h₀ ⟨-, hhead⟩
  have hperiod : h.chHeartbeatPeriod < 2 ^ 8 := by
    by_contra hlarge
    have hmem : h.chHeartbeatPeriod ∈ h.sysBytes := by simp [Housekeeper.sysBytes]
    obtain ⟨e, he⟩ := packAll_error (k := 1) hmem (Nat.not_lt.mp hlarge)
    cases he.symm.trans hhead
  refine (ensures_packBootCount report bootIds h₀).allows.bind ?_
  rintro boots h₁ -
  refine (allows_attempt _).bind ?_
  rintro r h₂ ⟨-, hpsutil⟩
  exact wp_true.mono (fun _ _ _ => ⟨hperiod, r, hpsutil⟩) fun _ _ _ => trivial

/-- The packet of the system is queued, if that is enabled. -/
theorem ensures_sendSysHk (report : Err → Bytes) (bootIds : Option ℕ) (halive : Alive h)
    (hcheckable : h.Checkable psutil) (hflag : h.sysCheckFlag = true) :
    Ensures (sendSysHk report bootIds psutil) (fun _ h' => Logged h h') h := by
  rw [sendSysHk, Ensures, wp_bind, wp_get]
  split
  · next henable =>
    obtain ⟨hperiod, r, hpsutil, hfit⟩ := hcheckable hflag henable
    refine (ensures_checkSys report bootIds halive hperiod hpsutil).bind ?_
    rintro data h₁ ⟨hlogged, hlen⟩
    have hlt : data.length < 2 ^ 16 := hlen ▸ hfit
    obtain ⟨raw, hraw⟩ := handleHkPkt_eq (h := h₁) .sys hlt
    apply (wp_of_ok hraw).mpr
    exact hlogged.trans ⟨_, _, _, _, rfl⟩
  · exact .refl h

/-- The check of the system goes through. -/
theorem handleSysCheck_eq (report : Err → Bytes) (bootIds : Option ℕ) (halive : Alive h)
    (hcheckable : h.Checkable psutil) :
    ∃ h', handleSysCheck report bootIds psutil h = .ok () h' ∧ Logged h h' := by
  have hrun : Ensures (handleSysCheck report bootIds psutil) (fun _ h' => Logged h h') h := by
    rw [handleSysCheck, Ensures, wp_bind, wp_get]
    split
    · next hflag =>
      refine (ensures_sendSysHk report bootIds halive hcheckable hflag).bind ?_
      intro _ h₁ hlogged
      exact hlogged.trans ⟨_, _, _, _, rfl⟩
    · exact .refl h
  obtain ⟨_, h', hok, hlogged⟩ := ensures_iff.mp hrun
  exact ⟨h', hok, hlogged⟩

/-- Otherwise an exception goes out of the loop. -/
theorem raises_handleSysCheck (halive : Alive h) (hnot : ¬ h.Checkable psutil) :
    Raises (handleSysCheck report bootIds psutil) h := by
  simp only [Housekeeper.Checkable, not_forall] at hnot
  obtain ⟨hflag, henable, hnot⟩ := hnot
  rw [handleSysCheck, Raises, Allows, wp_bind, wp_get, if_pos hflag]
  refine Raises.bind ?_
  rw [sendSysHk, Raises, Allows, wp_bind, wp_get, if_pos henable]
  -- a packet is made only if the period fits and `psutil` returns, and then it is too long
  by_cases hmade : h.chHeartbeatPeriod < 2 ^ 8 ∧ ∃ r, psutil = .ok r
  · obtain ⟨hperiod, r, hpsutil⟩ := hmade
    refine (ensures_checkSys report bootIds halive hperiod hpsutil).raises_bind ?_
    rintro data h₁ ⟨-, hlen⟩
    apply raises_handleHkPkt .sys
    by_contra hlt
    have hfit : r.Fit := by rwa [Readings.Fit, ← hlen, ← Nat.not_le]
    exact hnot ⟨hperiod, r, hpsutil, hfit⟩
  · refine (allows_checkSys report bootIds psutil h).bind ?_
    exact fun _ _ hmade' => absurd hmade' hmade

end ClickA.Housekeeping
