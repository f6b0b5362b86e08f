import ClickA.Housekeeping.Restarts

/-!
# What keeps housekeeping alive

Each statement of the loop ends normally where each command handler has its entry, and keeps that
so. The exception is the period of a command handler that was replaced: its process id is not known
any more, and a `KeyError` leaves the loop.

## Main definitions

* `Alive`: what each statement keeps
* `SameTimeout`: a watchdog keeps its timeout
* `Unmoved`, `Restarted`, `Read`, `PeriodRead`: what has become of the state behind a statement
* `Housekeeper.chTimeout`, `Housekeeper.others`: the timeouts and the other command handlers

## Main results

* `ensures_handleMissingCh`, `ensures_handleMissingPat`, `ensures_handleMissingFpga`,
  `ensures_handleMissingLb`: what restarts missing processes ends normally
* `ensures_handleHeartbeat`, `ensures_handleLbHeartbeat`, `ensures_handleHkCommand`: so does what
  receives heartbeats and commands
* `chHbPeriodMax_eq`: the period that is reported when one of them is set
* `ensures_handleChPeriod`, `raises_handleChPeriod`: a period is expected of a process id that is
  known
-/

namespace ClickA.Housekeeping

open Python Options

variable {report : Err → Bytes} {h h' : Housekeeper} {inst pid origin wd : ℕ} {pids : ℕ → ℕ}
  {object : WatchdogTimer} {message : Bytes}

/-- What the periodic checks find fits: periods of one byte, and registers with their types. -/
def Fits (checked : List ℕ × List Client.RegValue) : Prop :=
  (∀ period ∈ checked.1, period < 2 ^ 8) ∧ ∀ answer ∈ checked.2, IsTelemetry answer

theorem Fits.setChecks (hfits : Fits h.checked) {fpgaPd sysPd : ℕ} (hfpga : fpgaPd < 2 ^ 8)
    (hsys : sysPd < 2 ^ 8) :
    Fits ((h.setFpgaCheckPeriod fpgaPd).setSysCheckPeriod sysPd).checked := by
  obtain ⟨hperiods, hanswers⟩ := hfits
  refine ⟨fun period hmem => ?_, hanswers⟩
  rcases List.mem_cons.mp hmem with rfl | hmem
  · exact hfpga
  · rcases List.mem_cons.mp hmem with rfl | hmem
    · exact hsys
    · exact hperiods period (List.mem_cons_of_mem _ (List.mem_cons_of_mem _ hmem))

theorem Fits.setOthers (hfits : Fits h.checked) {lbPd patPd : ℕ} (hlb : lbPd < 2 ^ 8)
    (hpat : patPd < 2 ^ 8) :
    Fits ((h.setPatHealthPeriod patPd).setLbHeartbeatPeriod lbPd).checked := by
  obtain ⟨hperiods, hanswers⟩ := hfits
  refine ⟨?_, hanswers⟩
  obtain ⟨hfpga, hsys, -⟩ : h.fpgaCheckPeriod < 2 ^ 8 ∧ h.sysCheckPeriod < 2 ^ 8 ∧ True :=
    ⟨hperiods _ List.mem_cons_self, hperiods _ (List.mem_cons_of_mem _ List.mem_cons_self), trivial⟩
  exact List.forall_mem_cons.mpr ⟨hfpga, List.forall_mem_cons.mpr ⟨hsys,
    List.forall_mem_cons.mpr ⟨hlb, List.forall_mem_singleton.mpr hpat⟩⟩⟩

/-- Each command handler has its entry, everything that may be cancelled was started, and what the
periodic checks find fits. -/
structure Alive (h : Housekeeper) : Prop extends Registered h where
  current : h.chPids = h.services
  patHealthWd : h.patHealthWd.timer ≠ none
  lbHeartbeatWd : h.lbHeartbeatWd.timer ≠ none
  checkTimers : h.fpgaCheckTimer.timer ≠ none ∧ h.sysCheckTimer.timer ≠ none
  queue : ∀ inst ∈ h.missingChQueue, inst < commandHandlersCount
  fits : Fits h.checked

/-- The timeout of the watchdog that gives an alert. -/
def timeoutOf (h : Housekeeper) : Alert → Option ℕ
  | .missingCh inst => h.watchdogs[inst]?.map WatchdogTimer.timeout
  | .missingPat => some h.patHealthWd.timeout
  | .missingLb => some h.lbHeartbeatWd.timeout

/-- The timeout of a watchdog is the same. -/
def SameTimeout (alert : Alert) (h h' : Housekeeper) : Prop :=
    timeoutOf h' alert = timeoutOf h alert

theorem SameTimeout.refl (alert : Alert) (h : Housekeeper) : SameTimeout alert h h := rfl

theorem SameTimeout.of_kept (hkept : Kept h h') (alert : Alert) : SameTimeout alert h h' := by
  cases alert with
  | missingCh inst => exact hkept.timeouts inst
  | missingPat => exact congrArg some hkept.otherTimeouts.1
  | missingLb => exact congrArg some hkept.otherTimeouts.2

theorem SameTimeout.setPatHealthWd (htimeout : object.timeout = h.patHealthWd.timeout)
    (alert : Alert) :
    SameTimeout alert h (h.setPatHealthWd object) := by
  cases alert with
  | missingCh inst => rfl
  | missingPat => exact congrArg some htimeout
  | missingLb => rfl

theorem SameTimeout.setLbHeartbeatWd (htimeout : object.timeout = h.lbHeartbeatWd.timeout)
    (alert : Alert) : SameTimeout alert h (h.setLbHeartbeatWd object) := by
  cases alert with
  | missingCh inst => rfl
  | missingPat => rfl
  | missingLb => exact congrArg some htimeout

theorem SameTimeout.setWatchdog_ne (object : WatchdogTimer) {alert : Alert}
    (hne : alert ≠ .missingCh wd) : SameTimeout alert h (h.setWatchdog wd object) := by
  cases alert with
  | missingCh inst =>
    show (h.watchdogs.set wd object)[inst]?.map _ = _
    have hne' : wd ≠ inst := by
      rintro rfl
      exact hne rfl
    rw [List.getElem?_set_ne hne', timeoutOf]
  | missingPat => rfl
  | missingLb => rfl

theorem SameTimeout.setWatchdog (hobject : h.watchdogs[wd]? = some object)
    {object' : WatchdogTimer} (htimeout : object'.timeout = object.timeout) (alert : Alert) :
    SameTimeout alert h (h.setWatchdog wd object') := by
  by_cases hsame : alert = .missingCh wd
  · subst hsame
    show (h.watchdogs.set wd object')[wd]?.map _ = _
    rw [List.getElem?_set_self (List.getElem?_eq_some_iff.mp hobject).1, timeoutOf, hobject]
    simp [htimeout]
  · exact .setWatchdog_ne object' hsame

/-- A watchdog is put in the place of one that calls the same function. -/
theorem Registered.setWatchdog (hreg : Registered h) (hobject : h.watchdogs[wd]? = some object)
    {object' : WatchdogTimer} (hfunction : object'.function = object.function)
    (hstarted : object'.timer ≠ none) : Registered (h.setWatchdog wd object') where
  length := hreg.length
  entries := hreg.entries
  watchdogs i hi := by
    show ∃ object'', (h.watchdogs.set wd object')[i]? = some object'' ∧ _
    obtain ⟨old, hold, hmissing, hstarted'⟩ := hreg.watchdogs i hi
    by_cases hsame : wd = i
    · subst hsame
      obtain rfl := Option.some.inj (hobject.symm.trans hold)
      exact ⟨object', List.getElem?_set_self (List.getElem?_eq_some_iff.mp hobject).1,
        hfunction.trans hmissing, hstarted⟩
    · rw [List.getElem?_set_ne hsame]
      exact ⟨old, hold, hmissing, hstarted'⟩

theorem Alive.setWatchdog (halive : Alive h) (hobject : h.watchdogs[wd]? = some object)
    {object' : WatchdogTimer} (hfunction : object'.function = object.function)
    (hstarted : object'.timer ≠ none) : Alive (h.setWatchdog wd object') :=
  ⟨halive.toRegistered.setWatchdog hobject hfunction hstarted, halive.current, halive.patHealthWd,
    halive.lbHeartbeatWd, halive.checkTimers, halive.queue, halive.fits⟩

theorem Alive.of_eq (halive : Alive h) (hreg : Registered h') (hpids : h'.chPids = h.chPids)
    (hservices : h'.services = h.services) (hpat : h'.patHealthWd.timer ≠ none)
    (hlb : h'.lbHeartbeatWd.timer ≠ none)
    (htimers : h'.fpgaCheckTimer.timer ≠ none ∧ h'.sysCheckTimer.timer ≠ none)
    (hqueue : h'.missingChQueue = h.missingChQueue) (hfits : Fits h'.checked) : Alive h' :=
  ⟨hreg, by rw [hpids, hservices, halive.current], hpat, hlb, htimers, by
    rw [hqueue]
    exact halive.queue, hfits⟩

/-! ## Missing processes -/

/-- What has become of the state behind a statement that restarts nothing and reads no period. -/
structure Unmoved (h h' : Housekeeper) : Prop where
  alive : Alive h'
  services : h'.services = h.services
  timeouts : ∀ alert, SameTimeout alert h h'

theorem Unmoved.refl (halive : Alive h) : Unmoved h h :=
  ⟨halive, rfl, fun alert => .refl alert h⟩

/-- The parts of the state that housekeeping lives on. -/
def Housekeeper.vital (h : Housekeeper) :=
  (h.services, h.chPids, h.chHeartbeatWds, h.watchdogs, h.patHealthWd, h.lbHeartbeatWd,
    h.fpgaCheckTimer, h.sysCheckTimer, h.missingChQueue, h.checked)

theorem Unmoved.of_vital (halive : Alive h) (hvital : h'.vital = h.vital) : Unmoved h h' := by
  simp only [Housekeeper.vital, Prod.mk.injEq] at hvital
  obtain ⟨hservices, hpids, hwds, hwatchdogs, hpat, hlb, hfpga, hsys, hqueue, hchecked⟩ := hvital
  refine ⟨⟨halive.toRegistered.of_eq hpids hwds hwatchdogs, ?_, ?_, ?_, ?_, ?_, ?_⟩, hservices,
    fun alert => ?_⟩
  · rw [hpids, hservices, halive.current]
  · rw [hpat]
    exact halive.patHealthWd
  · rw [hlb]
    exact halive.lbHeartbeatWd
  · rw [hfpga, hsys]
    exact halive.checkTimers
  · rw [hqueue]
    exact halive.queue
  · rw [hchecked]
    exact halive.fits
  · cases alert with
    | missingCh inst => rw [SameTimeout, timeoutOf, timeoutOf, hwatchdogs]
    | missingPat => rw [SameTimeout, timeoutOf, timeoutOf, hpat]
    | missingLb => rw [SameTimeout, timeoutOf, timeoutOf, hlb]

/-- What has become of it when command handlers may have been restarted with the process ids
`pids`. -/
structure Restarted (pids : Set ℕ) (h h' : Housekeeper) : Prop where
  alive : Alive h'
  services : ∀ i pid : ℕ, h'.services[i]? = some pid → h.services[i]? = some pid ∨ pid ∈ pids
  timeouts : ∀ alert, SameTimeout alert h h'

theorem Unmoved.restarted {pids : Set ℕ} (h₁ : Unmoved h h') : Restarted pids h h' := by
  refine ⟨h₁.alive, fun i pid hpid => .inl ?_, h₁.timeouts⟩
  rw [← h₁.services]
  exact hpid

theorem restartProcess_skip (report : Err → Bytes) (pids : ℕ → ℕ) {processId : ℕ}
    (hch : ¬ (processId = hkChId ∧ h.chRestartEnable ≠ 0))
    (hpat : ¬ (processId = hkPatId ∧ h.patRestartEnable ≠ 0))
    (hlb : ¬ (processId = hkLbId ∧ h.lbRestartEnable ≠ 0)) (hid : processId < 2 ^ 8)
    (hinst : inst < 2 ^ 8) :
    ∃ raw, restartProcess report pids processId inst h = .ok () (h.queuePacket raw) := by
  obtain ⟨raw, hraw⟩ : ∃ raw, reportRestart processId inst h = .ok () (h.queuePacket raw) :=
    reportRestart_eq hid hinst
  refine ⟨raw, ?_⟩
  apply tryCatch_of_ok
  rw [bind_of_ok (restartCh_skip hch), bind_of_ok (restartPat_skip hpat),
    bind_of_ok (restartLb_skip hlb), hraw]

theorem restartProcess_pat (report : Err → Bytes) (pids : ℕ → ℕ)
    (hpat : h.patHealthWd.timer ≠ none) :
    ∃ object raw, object.timeout = h.patHealthWd.timeout ∧
      (restartProcess report pids hkPatId 0 h = .ok () (h.queuePacket raw) ∨
      restartProcess report pids hkPatId 0 h =
        .ok () ((h.setPatHealthWd (WatchdogTimer.start object)).queuePacket raw)) := by
  have hid : hkPatId < 2 ^ 8 := by decide
  have hinst : 0 < 2 ^ 8 := by decide
  -- PAT is restarted if that is enabled, and reported anyway
  by_cases henable : h.patRestartEnable = 0
  · obtain ⟨raw, hraw⟩ := restartProcess_skip (h := h) report pids
      (by simp [hkPatId, hkChId]) (by simp [henable]) (by simp [hkPatId, hkLbId]) hid hinst
    exact ⟨h.patHealthWd, raw, rfl, .inl hraw⟩
  · obtain ⟨object, hcancel, -, htimeout, -⟩ := cancel_of_started hpat
    have hrun : restartPat hkPatId h = .ok () (h.setPatHealthWd object.start) := by
      rw [restartPat, bind_get, if_pos ⟨rfl, henable⟩, bind_get, hcancel]
      rfl
    generalize hh₁ : h.setPatHealthWd object.start = h₁ at hrun
    obtain ⟨raw, hraw⟩ : ∃ raw, reportRestart hkPatId 0 h₁ = .ok () (h₁.queuePacket raw) :=
      reportRestart_eq hid hinst
    refine ⟨object, raw, htimeout, .inr ?_⟩
    rw [hh₁]
    apply tryCatch_of_ok
    rw [bind_of_ok (restartCh_skip (by simp [hkPatId, hkChId])), bind_of_ok hrun,
      bind_of_ok (restartLb_skip (by simp [hkPatId, hkLbId])), hraw]

/-- A command handler is restarted with a process id that no other has. -/
theorem ensures_handleMissingCh (halive : Alive h) (hzero : pid ≠ 0) (hfresh : pid ∉ h.services) :
    Ensures (handleMissingCh report fun _ => pid) (fun _ h' => Restarted {pid} h h') h := by
  rw [handleMissingCh, Ensures, wp_bind, wp_get]
  cases hqueue : h.missingChQueue with
  | nil => exact (Unmoved.refl halive).restarted
  | cons inst queue =>
    have hinst : inst < commandHandlersCount := halive.queue inst (by simp [hqueue])
    have hrest : ∀ i ∈ queue, i < commandHandlersCount :=
        fun i hi => halive.queue i (by simp [hqueue, hi])
    dsimp only
    rw [wp_bind, wp_modify]
    have hreg₁ : Registered (h.setMissingChQueue queue) := halive.toRegistered.of_eq rfl rfl rfl
    by_cases henable : h.chRestartEnable = 0
    · have hid : hkChId < 2 ^ 8 := by decide
      have hinst' : inst < 2 ^ 8 := hinst.trans (by decide)
      obtain ⟨raw, hrun⟩ := restartProcess_skip (h := h.setMissingChQueue queue) report
        (fun _ => pid) (fun hne => hne.2 henable) (by simp [hkChId, hkPatId])
        (by simp [hkChId, hkLbId]) hid hinst'
      apply (wp_of_ok hrun).mpr
      exact ⟨⟨hreg₁.of_eq rfl rfl rfl, halive.current, halive.patHealthWd, halive.lbHeartbeatWd,
        halive.checkTimers, hrest, halive.fits⟩, fun i p hp => .inl hp, fun alert => .refl alert h⟩
    · have hlt : inst < h.services.length := by
        rw [← halive.current, halive.length]
        exact hinst
      obtain ⟨old, object, raw, hold, hobject, hrun⟩ := restartProcess_ch report
        (fun _ => pid) hreg₁ hinst hlt henable hzero
      apply (wp_of_ok hrun).mpr
      have hreg₂ : Registered ((h.setMissingChQueue queue).setServices (h.services.set inst pid)) :=
        hreg₁.of_eq rfl rfl rfl
      have hnot : Fresh ((h.setMissingChQueue queue).setServices (h.services.set inst pid)) inst
          pid := by
        intro j hj hsame
        apply hfresh
        rw [← halive.current]
        exact List.mem_of_getElem? hsame
      refine ⟨⟨(hreg₂.updated hold hobject hnot).of_eq rfl rfl rfl, ?_,
        halive.patHealthWd, halive.lbHeartbeatWd, halive.checkTimers, hrest, halive.fits⟩,
        fun i p hp => ?_,
        SameTimeout.setWatchdog hobject rfl⟩
      · show h.chPids.set inst pid = h.services.set inst pid
        rw [halive.current]
      · have hp' : (h.services.set inst pid)[i]? = some p := hp
        by_cases hsame : inst = i
        · subst hsame
          rw [List.getElem?_set_self hlt] at hp'
          exact .inr (Option.some.inj hp').symm
        · rw [List.getElem?_set_ne hsame] at hp'
          exact .inl hp'

theorem ensures_handleMissingPat (halive : Alive h) :
    Ensures (handleMissingPat report pids) (fun _ h' => Unmoved h h') h := by
  rw [handleMissingPat, Ensures, wp_bind, wp_get]
  cases hflag : h.missingPatFlag with
  | false => exact Unmoved.refl halive
  | true =>
    rw [if_pos rfl, wp_bind]
    obtain ⟨object, raw, htimeout, hrun | hrun⟩ :=
      restartProcess_pat report pids halive.patHealthWd
    · apply (wp_of_ok hrun).mpr
      exact Unmoved.of_vital halive rfl
    · apply (wp_of_ok hrun).mpr
      refine ⟨⟨halive.toRegistered.of_eq rfl rfl rfl, halive.current, ?_,
        halive.lbHeartbeatWd, halive.checkTimers, halive.queue, halive.fits⟩, rfl,
        SameTimeout.setPatHealthWd htimeout⟩
      show (WatchdogTimer.start object).timer ≠ none
      simp [WatchdogTimer.start]

theorem ensures_handleMissingFpga (halive : Alive h) :
    Ensures (handleMissingFpga report pids) (fun _ h' => Unmoved h h') h := by
  rw [handleMissingFpga, Ensures, wp_bind, wp_get]
  cases hflag : h.missingFpgaFlag with
  | false => exact Unmoved.refl halive
  | true =>
    rw [if_pos rfl, wp_bind]
    have hid : hkFpgaId < 2 ^ 8 := by decide
    have hinst : 0 < 2 ^ 8 := by decide
    obtain ⟨raw, hrun⟩ := restartProcess_skip (h := h) report pids (by simp [hkFpgaId, hkChId])
      (by simp [hkFpgaId, hkPatId]) (by simp [hkFpgaId, hkLbId]) hid hinst
    apply (wp_of_ok hrun).mpr
    exact Unmoved.of_vital halive rfl

/-- All command handlers are restarted with process ids that none of them had. -/
theorem ensures_handleMissingLb (halive : Alive h) (hzero : ∀ i < commandHandlersCount, pids i ≠ 0)
    (hapart : Apart pids h.services) :
    Ensures (handleMissingLb report pids)
      (fun _ h' => Restarted (Set.range fun i : Fin commandHandlersCount => pids i) h h') h := by
  rw [handleMissingLb, Ensures, wp_bind, wp_get]
  cases hflag : h.missingLbFlag with
  | false => exact (Unmoved.refl halive).restarted
  | true =>
    rw [if_pos rfl, wp_bind]
    have hinst : 0 < 2 ^ 8 := by decide
    by_cases henable : h.lbRestartEnable = 0
    · have hid : hkLbId < 2 ^ 8 := by decide
      obtain ⟨raw, hrun⟩ := restartProcess_skip (h := h) report pids (by simp [hkLbId, hkChId])
        (by simp [hkLbId, hkPatId]) (by simp [henable]) hid hinst
      apply (wp_of_ok hrun).mpr
      exact Unmoved.restarted (Unmoved.of_vital halive rfl)
    · rw [← halive.current] at hapart
      refine (ensures_restartProcess_lb halive.toRegistered halive.lbHeartbeatWd henable hinst hzero
        hapart).imp ?_
      rintro _ h' ⟨hmoving, hkept⟩
      refine ⟨⟨hmoving.registered.of_eq rfl rfl rfl, ?_, hkept.patHealthWd halive.patHealthWd,
        hkept.lbHeartbeatWd halive.lbHeartbeatWd, ?_, ?_, ?_⟩, fun i p hp => .inr ?_,
        fun alert => ?_⟩
      · show h'.chPids = h'.services
        rw [hmoving.services]
        apply List.ext_getElem?
        intro i
        rw [hmoving.chPids]
        by_cases hi : i < commandHandlersCount
        · simp [hi]
        · have hlen : h.chPids.length ≤ i := by rw [halive.length]; omega
          simp [hi, hlen]
      · show h'.fpgaCheckTimer.timer ≠ none ∧ h'.sysCheckTimer.timer ≠ none
        rw [hkept.checkTimers.1, hkept.checkTimers.2]
        exact halive.checkTimers
      · show ∀ inst ∈ h'.missingChQueue, inst < commandHandlersCount
        rw [hkept.missingChQueue]
        exact halive.queue
      · show Fits h'.checked
        rw [hkept.checked]
        exact halive.fits
      · have hp' : h'.services[i]? = some p := hp
        rw [hmoving.services] at hp'
        obtain ⟨j, hj, rfl⟩ := List.mem_map.mp (List.mem_of_getElem? hp')
        exact ⟨⟨j, List.mem_range.mp hj⟩, rfl⟩
      · have hsame := SameTimeout.of_kept hkept alert
        cases alert with
        | missingCh inst => exact hsame
        | missingPat => exact hsame
        | missingLb => exact hsame

/-! ## Messages -/

/-- What has become of the state when a message was read. -/
structure Read (h h' : Housekeeper) : Prop where
  alive : Alive h'
  services : h'.services = h.services

/-- The process ids are the same behind a message. -/
theorem Read.chPids (hread : Read h h') (halive : Alive h) : h'.chPids = h.chPids := by
  rw [hread.alive.current, hread.services, halive.current]

theorem kick_of_started (hstarted : object.timer ≠ none) :
    ∃ object', object.kick = .ok object' ∧ object'.timer = some .waiting ∧
      object'.timeout = object.timeout ∧ object'.function = object.function := by
  obtain ⟨cancelled, hcancel, -, htimeout, hfunction⟩ := cancel_of_started hstarted
  exact ⟨cancelled.start, by rw [WatchdogTimer.kick, hcancel]; rfl, rfl, htimeout, hfunction⟩

theorem resetWatchdog_of_started (timeout : ℕ) (hstarted : object.timer ≠ none) :
    ∃ object', resetWatchdog timeout object = .ok object' ∧ object'.timer = some .waiting ∧
      object'.timeout = timeout ∧ object'.function = object.function := by
  obtain ⟨cancelled, hcancel, -, -, hfunction⟩ := cancel_of_started hstarted
  exact ⟨(cancelled.setTimeout timeout).start, by rw [resetWatchdog, hcancel]; rfl, rfl, rfl,
    hfunction⟩

/-- The watchdog of a process id that is known. -/
theorem Alive.exists_of_lookup (halive : Alive h) (hwd : h.chHeartbeatWds.lookup pid = some wd) :
    ∃ object, h.watchdogs[wd]? = some object ∧ object.timer ≠ none := by
  have hpid := (halive.entries pid wd).mp hwd
  have hlt : wd < commandHandlersCount := by
    rw [← halive.length]
    exact (List.getElem?_eq_some_iff.mp hpid).1
  obtain ⟨object, hobject, -, hstarted⟩ := halive.watchdogs wd hlt
  exact ⟨object, hobject, hstarted⟩

theorem chHeartbeatWd_of_unknown (hwd : h.chHeartbeatWds.lookup pid = none) :
    chHeartbeatWd pid h = .error (.raised .keyError) h := by
  simp [chHeartbeatWd, bind_get, hwd]
  rfl

/-- A heartbeat is read, of a process id that is known or not. -/
theorem ensures_handleHeartbeat {time : Float} (halive : Alive h)
    (hdecode : HeartbeatPacket.decode message = .ok (origin, time)) :
    Ensures (handleHeartbeat report message)
      (fun _ h' => Unmoved h h') h := by
  rw [handleHeartbeat, hdecode, raise, Ensures, wp_bind, wp_pure]
  dsimp only
  rw [wp_tryCatch, wp_bind]
  cases hwd : h.chHeartbeatWds.lookup origin with
  | none =>
    apply (wp_of_error (chHeartbeatWd_of_unknown hwd)).mpr
    exact Unmoved.of_vital halive rfl
  | some wd =>
    obtain ⟨object, hobject, hstarted⟩ := halive.exists_of_lookup hwd
    obtain ⟨object', hkick, hwaiting, htimeout, hfunction⟩ := kick_of_started hstarted
    apply (wp_of_ok (chHeartbeatWd_eq hwd)).mpr
    apply (wp_of_ok (onWatchdog_eq hobject hkick)).mpr
    have hstarted' : object'.timer ≠ none := by simp [hwaiting]
    exact ⟨halive.setWatchdog hobject hfunction hstarted', rfl,
      SameTimeout.setWatchdog hobject htimeout⟩

/-- A heartbeat of the load balancer is read. -/
theorem ensures_handleLbHeartbeat {time : Float} (halive : Alive h)
    (hdecode : HeartbeatPacket.decode message = .ok (origin, time)) :
    Ensures (handleLbHeartbeat message)
      (fun _ h' => Unmoved h h') h := by
  obtain ⟨object, hkick, hwaiting, htimeout, -⟩ := kick_of_started halive.lbHeartbeatWd
  rw [handleLbHeartbeat, hdecode, raise, Ensures, wp_bind, wp_pure, wp_bind, wp_get, hkick]
  refine ⟨halive.of_eq (halive.toRegistered.of_eq rfl rfl rfl) rfl rfl halive.patHealthWd ?_
    halive.checkTimers rfl halive.fits, rfl, SameTimeout.setLbHeartbeatWd htimeout⟩
  show object.timer ≠ none
  simp [hwaiting]

/-! ### `CMD_PL_SET_HK` -/

theorem Read.trans {h'' : Housekeeper} (hh' : Read h h') (hh'' : Read h' h'') : Read h h'' :=
  ⟨hh''.alive, hh''.services.trans hh'.services⟩

theorem resetCheckTimer_of_started {t : ResetTimer} (interval : ℕ) (hstarted : t.timer ≠ none) :
    ∃ t', resetCheckTimer t interval = .ok t' ∧ t'.timer ≠ none := by
  obtain ⟨i, hi⟩ := Option.ne_none_iff_exists'.mp hstarted
  have hcancel : t.cancel =
      some (if t.phase i = some .waiting then t.setPhase i .cancelled else t) := by
    simp [ResetTimer.cancel, hi]
  refine ⟨_, by rw [resetCheckTimer, hcancel], ?_⟩
  simp [ResetTimer.start]

theorem ensures_resetChecks (halive : Alive h) {fpgaPd sysPd : ℕ} (hfpga : fpgaPd < 2 ^ 8)
    (hsys : sysPd < 2 ^ 8) : Ensures (resetChecks fpgaPd sysPd) (fun _ h' => Read h h') h := by
  obtain ⟨fpga, hfpgaReset, hfpgaStarted⟩ :=
    resetCheckTimer_of_started (max fpgaPd hkFpgaCheckPdMin) halive.checkTimers.1
  obtain ⟨sys, hsysReset, hsysStarted⟩ :=
    resetCheckTimer_of_started (max sysPd hkSysCheckPdMin) halive.checkTimers.2
  have hfpga' : max fpgaPd hkFpgaCheckPdMin < 2 ^ 8 := max_lt hfpga (by decide)
  have hsys' : max sysPd hkSysCheckPdMin < 2 ^ 8 := max_lt hsys (by decide)
  have hfits : Fits (((h.setFpgaCheckPeriod (max fpgaPd hkFpgaCheckPdMin)).setSysCheckPeriod
      (max sysPd hkSysCheckPdMin)).checked) := halive.fits.setChecks hfpga' hsys'
  rw [resetChecks, Ensures, wp_bind, wp_modify, wp_bind, wp_get, wp_bind]
  refine (wp_of_ok (attempt_eq hfpgaReset)).mpr ?_
  rw [wp_bind, wp_modify, wp_bind, wp_modify, wp_bind, wp_get, wp_bind]
  refine (wp_of_ok (attempt_eq hsysReset)).mpr ?_
  rw [wp_modify]
  exact ⟨halive.of_eq (halive.toRegistered.of_eq rfl rfl rfl) rfl rfl halive.patHealthWd
    halive.lbHeartbeatWd ⟨hfpgaStarted, hsysStarted⟩ rfl hfits, rfl⟩

theorem ensures_resetOtherWatchdogs (halive : Alive h) {lbPd patPd : ℕ} (hlb : lbPd < 2 ^ 8)
    (hpat : patPd < 2 ^ 8) : Ensures (resetOtherWatchdogs lbPd patPd) (fun _ h' => Read h h' ∧
      h'.watchdogs = h.watchdogs ∧ h'.chHeartbeatPeriod = h.chHeartbeatPeriod) h := by
  obtain ⟨pat, hpatReset, hpatWaiting, -⟩ :=
    resetWatchdog_of_started (max patPd hkPatCheckPdMin) halive.patHealthWd
  obtain ⟨lb, hlbReset, hlbWaiting, -⟩ :=
    resetWatchdog_of_started (max lbPd hkLbCheckPdMin) halive.lbHeartbeatWd
  have hpat' : max patPd hkPatCheckPdMin < 2 ^ 8 := max_lt hpat (by decide)
  have hlb' : max lbPd hkLbCheckPdMin < 2 ^ 8 := max_lt hlb (by decide)
  have hfits : Fits (((h.setPatHealthPeriod (max patPd hkPatCheckPdMin)).setLbHeartbeatPeriod
      (max lbPd hkLbCheckPdMin)).checked) := halive.fits.setOthers hlb' hpat'
  rw [resetOtherWatchdogs, Ensures, wp_bind, wp_modify, wp_bind, wp_get, wp_bind]
  refine (wp_of_ok (attempt_eq hpatReset)).mpr ?_
  rw [wp_bind, wp_modify, wp_bind, wp_modify, wp_bind, wp_get, wp_bind]
  refine (wp_of_ok (attempt_eq hlbReset)).mpr ?_
  rw [wp_modify]
  refine ⟨⟨halive.of_eq (halive.toRegistered.of_eq rfl rfl rfl) rfl rfl ?_ ?_ halive.checkTimers
    rfl hfits, rfl⟩, rfl, rfl⟩
  · show pat.timer ≠ none
    simp [hpatWaiting]
  · show lb.timer ≠ none
    simp [hlbWaiting]

/-- The watchdog of a process id that is known gets a timeout. -/
theorem ensures_resetWatchdog (halive : Alive h) (hpid : h.chPids[wd]? = some pid) (timeout : ℕ) :
    Ensures (do onWatchdog (resetWatchdog timeout) (← chHeartbeatWd pid))
      (fun _ h' => Read h h' ∧ h'.chHeartbeatPeriod = h.chHeartbeatPeriod ∧
        timeoutOf h' (.missingCh wd) = some timeout ∧
        ∀ alert, alert ≠ .missingCh wd → SameTimeout alert h h') h := by
  have hwd := (halive.entries pid wd).mpr hpid
  obtain ⟨object, hobject, hstarted⟩ := halive.exists_of_lookup hwd
  obtain ⟨object', hreset, hwaiting, htimeout, hfunction⟩ :=
    resetWatchdog_of_started timeout hstarted
  have hstarted' : object'.timer ≠ none := by simp [hwaiting]
  rw [Ensures, wp_bind]
  apply (wp_of_ok (chHeartbeatWd_eq hwd)).mpr
  apply (wp_of_ok (onWatchdog_eq hobject hreset)).mpr
  refine ⟨⟨halive.setWatchdog hobject hfunction hstarted', rfl⟩, rfl, ?_, fun _ halert =>
    SameTimeout.setWatchdog_ne object' halert⟩
  show (h.watchdogs.set wd object')[wd]?.map WatchdogTimer.timeout = some timeout
  rw [List.getElem?_set_self (List.getElem?_eq_some_iff.mp hobject).1, Option.map_some, htimeout]

/-- The watchdogs of all command handlers get one timeout. -/
theorem ensures_resetChWatchdogs (halive : Alive h) (period : ℕ) :
    Ensures (resetChWatchdogs period) (fun _ h' => Read h h' ∧
      ∀ wd < commandHandlersCount, timeoutOf h' (.missingCh wd) = some h'.chHeartbeatPeriod) h := by
  rw [resetChWatchdogs, Ensures, wp_bind, wp_modify, wp_bind, wp_get]
  generalize hnew : max period hkChCheckPdMin = newPeriod
  generalize hh₁ : h.setChHeartbeatPeriod newPeriod = h₁
  have halive₁ : Alive h₁ := by
    rw [← hh₁]
    exact Unmoved.alive (Unmoved.of_vital halive rfl)
  have hservices : h₁.services = h.services := by rw [← hh₁]; rfl
  have hperiod : h₁.chHeartbeatPeriod = newPeriod := by rw [← hh₁]; rfl
  let I (rest : List ℕ) (_ : Unit) (s : Housekeeper) : Prop :=
    Read h s ∧ s.chHeartbeatPeriod = newPeriod ∧ rest ⊆ h₁.chPids ∧ ∀ wd pid : ℕ,
      h₁.chPids[wd]? = some pid → pid ∈ rest ∨ timeoutOf s (.missingCh wd) = some newPeriod
  have hloop : Ensures (h₁.chPids.foldlM (fun _ chPid => do
      onWatchdog (resetWatchdog newPeriod) (← chHeartbeatWd chPid)) ())
      (fun b s => I [] b s) h₁ := by
    have hstart : I h₁.chPids () h₁ := by
      refine ⟨⟨halive₁, hservices⟩, hperiod, List.Subset.refl _, fun wd pid hpid => ?_⟩
      exact .inl (List.mem_of_getElem? hpid)
    refine wp_foldlM ?_ hstart
    rintro pid rest b s ⟨hread, hperiod, hrest, hleft⟩
    have hpids : s.chPids = h₁.chPids := by
      rw [hread.chPids halive, ← hh₁]
      rfl
    obtain ⟨wd, hwd⟩ := List.mem_iff_getElem?.mp (hrest List.mem_cons_self)
    rw [← hpids] at hwd
    refine (ensures_resetWatchdog hread.alive hwd _).imp ?_
    rintro _ s' ⟨hread', hperiod', hown, hothers⟩
    refine ⟨hread.trans hread', hperiod'.trans hperiod,
      fun p hp => hrest (List.mem_cons_of_mem _ hp), fun i p hp => ?_⟩
    by_cases hsame : i = wd
    · exact .inr (hsame ▸ hown)
    · rcases hleft i p hp with hmem | hdone
      · rcases List.mem_cons.mp hmem with rfl | hmem
        · rw [← hpids] at hp
          exact absurd (hread.alive.inj hp hwd) hsame
        · exact .inl hmem
      · refine .inr (Eq.trans (hothers _ ?_) hdone)
        rintro ⟨⟩
        exact hsame rfl
  refine hloop.imp ?_
  rintro _ s ⟨hread, hperiod, -, hdone⟩
  refine ⟨hread, fun wd hwd => ?_⟩
  obtain ⟨pid, -, hpid, -⟩ := halive₁.exists_of_lt hwd
  rcases hdone wd pid hpid with hmem | hdone
  · exact absurd hmem List.not_mem_nil
  · rw [hdone, hperiod]

/-- `CMD_PL_SET_HK` is handled. -/
theorem ensures_handleHkCommand {command : Bytes} (halive : Alive h) (hlen : command.length = 6) :
    Ensures (handleHkCommand command) (fun _ h' => Read h h' ∧
      ∀ wd < commandHandlersCount, timeoutOf h' (.missingCh wd) = some h'.chHeartbeatPeriod) h := by
  obtain ⟨flags, fpgaPd, sysPd, chPd, lbPd, patPd, rfl⟩ :
      ∃ a b c d e f : UInt8, command = [a, b, c, d, e, f] := by
    match command, hlen with
    | [a, b, c, d, e, f], _ => exact ⟨a, b, c, d, e, f, rfl⟩
  have hbyte (b : UInt8) : (leNat [b] : ℤ).toNat < 2 ^ 8 := leNat_lt [b]
  have hunpack : unpack (native [.B, .B, .B, .B, .B, .B])
      [flags, fpgaPd, sysPd, chPd, lbPd, patPd] =
        .ok [.int (leNat [flags]), .int (leNat [fpgaPd]), .int (leNat [sysPd]),
          .int (leNat [chPd]), .int (leNat [lbPd]), .int (leNat [patPd])] := rfl
  rw [handleHkCommand, hunpack, raise, Ensures, wp_bind, wp_pure]
  dsimp only
  rw [wp_bind, wp_modify]
  generalize hh₁ : h.setEnables (leNat [flags] : ℤ).toNat = h₁
  have hread₁ : Read h h₁ := by
    rw [← hh₁]
    exact ⟨Unmoved.alive (Unmoved.of_vital halive rfl), rfl⟩
  refine Ensures.bind (ensures_resetChecks hread₁.alive (hbyte _) (hbyte _)) ?_
  intro _ h₂ hread₂
  refine Ensures.bind (ensures_resetChWatchdogs hread₂.alive _) ?_
  rintro _ h₃ ⟨hread₃, htimeouts⟩
  refine (ensures_resetOtherWatchdogs hread₃.alive (hbyte _) (hbyte _)).imp ?_
  rintro _ h₄ ⟨hread₄, hwatchdogs, hperiod⟩
  refine ⟨hread₁.trans (hread₂.trans (hread₃.trans hread₄)), fun wd hwd => ?_⟩
  rw [timeoutOf, hwatchdogs, hperiod]
  exact htimeouts wd hwd

/-! ### `HK_CONTROL_CH` -/

/-- The timeout of the watchdog that is found under a process id. -/
def Housekeeper.chTimeout (h : Housekeeper) (pid : ℕ) : Option ℕ :=
  (h.chHeartbeatWds.lookup pid).bind fun wd => timeoutOf h (.missingCh wd)

/-- The process ids of the other command handlers. -/
def Housekeeper.others (h : Housekeeper) (origin : ℕ) : List ℕ := h.chPids.filter (· ≠ origin)

theorem Registered.chTimeout_eq (hreg : Registered h) (hpid : h.chPids[wd]? = some pid) :
    h.chTimeout pid = timeoutOf h (.missingCh wd) := by
  rw [Housekeeper.chTimeout, (hreg.entries pid wd).mpr hpid, Option.bind_some]

/-- A turn of the loop: another command handler is compared. -/
theorem compare_eq (halive : Alive h) (chPeriod : ℕ) (hmem : pid ∈ h.chPids) :
    ((do let wd ← raise (index (← get).watchdogs (← chHeartbeatWd pid))
         return some (max chPeriod wd.timeout)) : Stmt (Option ℕ)) h =
      .ok ((h.chTimeout pid).map (max chPeriod)) h := by
  obtain ⟨wd, hpid⟩ := List.mem_iff_getElem?.mp hmem
  have hwd := (halive.entries pid wd).mpr hpid
  obtain ⟨object, hobject, -⟩ := halive.exists_of_lookup hwd
  have hindex : index h.watchdogs wd = .ok object := by rw [index, hobject]
  rw [bind_get, bind_of_ok (chHeartbeatWd_eq hwd), hindex, halive.chTimeout_eq hpid, timeoutOf,
    hobject]
  rfl

/-- The loop forgets what it compared before: only the last other command handler counts. -/
theorem chHbPeriodMax_eq (halive : Alive h) (origin chPeriod : ℕ) :
    chHbPeriodMax origin chPeriod h = .ok ((h.others origin).getLast?.bind fun pid =>
      (h.chTimeout pid).map (max chPeriod)) h := by
  have hloop : ∀ pids ⊆ h.chPids, ∀ periodMax : Option ℕ, (pids.foldlM (fun periodMax chPid => do
      if chPid ≠ origin then
        let wd ← raise (index (← get).watchdogs (← chHeartbeatWd chPid))
        return some (max chPeriod wd.timeout)
      else return periodMax) periodMax : Stmt (Option ℕ)) h =
        .ok ((pids.filter (· ≠ origin)).getLast?.elim periodMax fun pid =>
          (h.chTimeout pid).map (max chPeriod)) h := by
    intro pids
    induction pids with
    | nil => exact fun _ _ => rfl
    | cons pid pids ih =>
      intro hpids periodMax
      obtain ⟨hmem, hrest⟩ := List.cons_subset.mp hpids
      rw [List.foldlM_cons]
      -- another handler overwrites what those before it have left
      by_cases hne : pid ≠ origin
      · have hfilter : (pid :: pids).filter (· ≠ origin) = pid :: pids.filter (· ≠ origin) :=
          List.filter_cons_of_pos (decide_eq_true hne)
        rw [if_pos hne, bind_of_ok (compare_eq halive chPeriod hmem), ih hrest, hfilter,
          List.getLast?_cons]
        cases (pids.filter (· ≠ origin)).getLast? with
        | none => rfl
        | some last => rfl
      · have hfilter : (pid :: pids).filter (· ≠ origin) = pids.filter (· ≠ origin) :=
          List.filter_cons_of_neg (by rwa [decide_eq_true_eq])
        rw [if_neg hne, pure_bind, ih hrest, hfilter]
  rw [chHbPeriodMax, bind_get, hloop _ (List.Subset.refl _)]
  cases hlast : (h.chPids.filter (· ≠ origin)).getLast? with
  | none => rw [Housekeeper.others, hlast]; rfl
  | some last => rw [Housekeeper.others, hlast]; rfl

/-- Another command handler has another process id. -/
theorem Registered.exists_ne (hreg : Registered h) (origin : ℕ) :
    ∃ pid ∈ h.chPids, pid ≠ origin := by
  obtain ⟨first, -, hfirst, -⟩ := hreg.exists_of_lt (show 0 < commandHandlersCount by decide)
  obtain ⟨second, -, hsecond, -⟩ := hreg.exists_of_lt (show 1 < commandHandlersCount by decide)
  by_cases hsame : first = origin
  · refine ⟨second, List.mem_of_getElem? hsecond, ?_⟩
    rintro rfl
    rw [hsame] at hfirst
    exact absurd (hreg.inj hfirst hsecond) (by decide)
  · exact ⟨first, List.mem_of_getElem? hfirst, hsame⟩

/-- The statements of `handleChPeriod` behind the decoding. -/
theorem handleChPeriod_eq {period : ℕ} {payload : Bytes}
    (hpayload : pack (native [.I]) [.int period] = .ok payload) :
    handleChPeriod origin payload = (do
      match ← chHbPeriodMax origin (max period hkChCheckPdMin) with
      | some chHbPeriodMax =>
        modify (·.setChHeartbeatPeriod chHbPeriodMax)
        onWatchdog (resetWatchdog (max period hkChCheckPdMin)) (← chHeartbeatWd origin)
      | none => throw (.raised .nameError)) := by
  have hunpack : unpack (native [.I]) payload = .ok [.int period] :=
    unpack_pack (.cons (exact_int 4 _) .nil) hpayload
  rw [handleChPeriod, hunpack]
  rfl

/-- There is a last other command handler. -/
theorem Alive.exists_last (halive : Alive h) (origin : ℕ) :
    ∃ last timeout, (h.others origin).getLast? = some last ∧ h.chTimeout last = some timeout := by
  obtain ⟨pid, hpid, hne⟩ := halive.exists_ne origin
  have hmem : pid ∈ h.others origin := List.mem_filter.mpr ⟨hpid, decide_eq_true hne⟩
  cases hlast : (h.others origin).getLast? with
  | none => exact absurd hmem (List.getLast?_eq_none_iff.mp hlast ▸ List.not_mem_nil)
  | some last =>
    have hlast' := List.mem_of_mem_filter (List.mem_of_getLast? hlast)
    obtain ⟨wd, hwd⟩ := List.mem_iff_getElem?.mp hlast'
    obtain ⟨object, hobject, -⟩ := halive.exists_of_lookup ((halive.entries last wd).mpr hwd)
    refine ⟨last, object.timeout, rfl, ?_⟩
    rw [halive.chTimeout_eq hwd, timeoutOf, hobject, Option.map_some]

/-- What has become of the state when the command handler with the watchdog `wd` set its period:
the period that is reported is the larger one of its own and of the last other one's. -/
structure PeriodRead (origin wd chPeriod : ℕ) (h h' : Housekeeper) : Prop extends Read h h' where
  period : ∃ last timeout, (h.others origin).getLast? = some last ∧
    h.chTimeout last = some timeout ∧ h'.chHeartbeatPeriod = max chPeriod timeout
  own : timeoutOf h' (.missingCh wd) = some chPeriod
  others : ∀ alert, alert ≠ .missingCh wd → SameTimeout alert h h'

/-- The period of a command handler that runs is set. -/
theorem ensures_handleChPeriod {period : ℕ} {payload : Bytes} (halive : Alive h)
    (hpayload : pack (native [.I]) [.int period] = .ok payload)
    (hpid : h.chPids[wd]? = some origin) :
    Ensures (handleChPeriod origin payload)
      (fun _ h' => PeriodRead origin wd (max period hkChCheckPdMin) h h') h := by
  obtain ⟨last, timeout, hlast, htimeout⟩ := halive.exists_last origin
  rw [handleChPeriod_eq hpayload, Ensures, wp_bind]
  apply (wp_of_ok (chHbPeriodMax_eq halive origin _)).mpr
  rw [hlast, Option.bind_some, htimeout, Option.map_some]
  dsimp only
  rw [wp_bind, wp_modify]
  generalize max period hkChCheckPdMin = chPeriod
  generalize hh₁ : h.setChHeartbeatPeriod (max chPeriod timeout) = h₁
  have halive₁ : Alive h₁ := by
    rw [← hh₁]
    exact Unmoved.alive (Unmoved.of_vital halive rfl)
  have hpid₁ : h₁.chPids[wd]? = some origin := by
    rw [← hh₁]
    exact hpid
  refine (ensures_resetWatchdog halive₁ hpid₁ _).imp ?_
  rintro _ h₂ ⟨hread, hperiod, hown, hothers⟩
  rw [← hh₁] at hread hperiod hothers
  exact ⟨⟨hread.alive, hread.services⟩, ⟨last, timeout, hlast, htimeout, hperiod⟩, hown, hothers⟩

/-- The period of one that was replaced is not expected. -/
theorem raises_handleChPeriod {period : ℕ} {payload : Bytes} (halive : Alive h)
    (hpayload : pack (native [.I]) [.int period] = .ok payload) (hpid : origin ∉ h.chPids) :
    Raises (handleChPeriod origin payload) h := by
  obtain ⟨last, timeout, hlast, htimeout⟩ := halive.exists_last origin
  have hunknown : h.chHeartbeatWds.lookup origin = none := by
    by_contra hknown
    obtain ⟨wd, hwd⟩ := Option.ne_none_iff_exists'.mp hknown
    exact hpid (List.mem_of_getElem? ((halive.entries origin wd).mp hwd))
  rw [handleChPeriod_eq hpayload, Raises, Allows, wp_bind]
  apply (wp_of_ok (chHbPeriodMax_eq halive origin _)).mpr
  rw [hlast, Option.bind_some, htimeout, Option.map_some]
  dsimp only
  rw [wp_bind, wp_modify, wp_bind]
  generalize max period hkChCheckPdMin = chPeriod
  have hunknown' : (h.setChHeartbeatPeriod (max chPeriod timeout)).chHeartbeatWds.lookup origin =
      none := hunknown
  exact (wp_of_error (chHeartbeatWd_of_unknown hunknown')).mpr trivial

end ClickA.Housekeeping
