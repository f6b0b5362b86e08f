import ClickA.Housekeeping.Main

/-!
# The watchdogs of the command handlers

Each restart of a command handler gives it another process id, and its watchdog is put under that.
If all of them are restarted, one after another gets its new process id.

## Main definitions

* `Registered`: the dictionary has one entry for each command handler
* `Kept`: what restarts leave as it was

## Main results

* `restartProcess_ch`: what becomes of a command handler that is restarted
* `ensures_restartProcess_lb`: behind a restart of all of them, each has its entry
* `allows_restartProcess_lost`: unless one gets the old process id of one that comes later
-/

namespace ClickA.Housekeeping

open Python Options

variable {report : Err → Bytes} {h h' : Housekeeper} {inst pid old wd : ℕ} {object : WatchdogTimer}

section Statements

variable {α : Type} {a : α}

theorem raise_eq {x : Except Exn α} (hx : x = .ok a) : raise x h = .ok a h := by
  rw [hx]
  rfl

theorem attempt_eq {x : Except Err α} (hx : x = .ok a) : attempt x h = .ok a h := by
  rw [hx]
  rfl

end Statements

/-! ## A new process id -/

theorem onWatchdog_eq {method : WatchdogTimer → Except Err WatchdogTimer} {object' : WatchdogTimer}
    (hobject : h.watchdogs[wd]? = some object) (hmethod : method object = .ok object') :
    onWatchdog method wd h = .ok () (h.setWatchdog wd object') := by
  simp [onWatchdog, bind_get, index, hobject, hmethod, raise, attempt]
  rfl

theorem chHeartbeatWd_eq (hwd : h.chHeartbeatWds.lookup pid = some wd) :
    chHeartbeatWd pid h = .ok wd h := by
  simp [chHeartbeatWd, bind_get, hwd]
  rfl

/-- A watchdog that was started is cancelled, and it is the same watchdog. -/
theorem cancel_of_started (h : object.timer ≠ none) :
    ∃ object', object.cancel = .ok object' ∧ object'.timer ≠ none ∧
      object'.timeout = object.timeout ∧ object'.function = object.function := by
  obtain ⟨timeout, function, timer⟩ := object
  rcases timer with _ | phase
  · exact absurd rfl h
  · cases phase <;> exact ⟨_, rfl, by simp, rfl, rfl⟩

/-- The state behind a new process id. -/
def Housekeeper.updated (h : Housekeeper) (inst pid old wd : ℕ) (object : WatchdogTimer) :
    Housekeeper :=
  ((h.setChPid inst pid).setWds ((h.chHeartbeatWds.erase old).insert pid wd)).setWatchdog wd
    object.start

theorem updateChPid_eq (hold : h.chPids[inst]? = some old)
    (hwd : h.chHeartbeatWds.lookup old = some wd) (hobject : h.watchdogs[wd]? = some object)
    (hstarted : object.timer ≠ none) :
    updateChPid inst pid h = .ok () (h.updated inst pid old wd object) := by
  obtain ⟨object', hcancel, -, htimeout, hfunction⟩ := cancel_of_started hstarted
  have hsame : object'.start = object.start := by
    simp [WatchdogTimer.start, htimeout, hfunction]
  have hindex : raise (index h.chPids inst) h = .ok old h := raise_eq (by rw [index, hold])
  have hfind : chHeartbeatWd old (h.setChPid inst pid) = .ok wd (h.setChPid inst pid) :=
    chHeartbeatWd_eq hwd
  have hcancelled : onWatchdog WatchdogTimer.cancel wd (h.setChPid inst pid) =
      .ok () ((h.setChPid inst pid).setWatchdog wd object') := onWatchdog_eq hobject hcancel
  generalize hh₁ : (h.setChPid inst pid).setWatchdog wd object' = h₁ at hcancelled
  have hwds₁ : h₁.chHeartbeatWds = h.chHeartbeatWds := by rw [← hh₁]; rfl
  have hfind₁ : chHeartbeatWd old h₁ = .ok wd h₁ := chHeartbeatWd_eq (by rw [hwds₁, hwd])
  have hstart : (chHeartbeatWd pid >>= onWatchdog fun wd => .ok wd.start)
      (h₁.setWds ((h₁.chHeartbeatWds.erase old).insert pid wd)) =
        .ok () ((h₁.setWds ((h₁.chHeartbeatWds.erase old).insert pid wd)).setWatchdog wd
          object'.start) := by
    have hlt : wd < h.watchdogs.length := (List.getElem?_eq_some_iff.mp hobject).1
    have hobject' : h₁.watchdogs[wd]? = some object' := by
      rw [← hh₁]
      exact List.getElem?_set_self hlt
    rw [bind_of_ok (chHeartbeatWd_eq (AList.lookup_insert _))]
    exact onWatchdog_eq hobject' rfl
  unfold updateChPid
  rw [bind_get, bind_of_ok hindex, bind_modify, bind_of_ok hfind, bind_of_ok hcancelled,
    bind_of_ok hfind₁, bind_modify, bind_modify]
  refine hstart.trans ?_
  rw [← hh₁, hsame]
  simp [Housekeeper.updated, Housekeeper.setWatchdog, Housekeeper.setWds, Housekeeper.setChPid]

/-! ## One entry for each command handler -/

/-- The dictionary has one entry for each command handler, under its process id, and it is the
watchdog that was created for it. -/
structure Registered (h : Housekeeper) : Prop where
  length : h.chPids.length = commandHandlersCount
  entries : ∀ pid wd, h.chHeartbeatWds.lookup pid = some wd ↔ h.chPids[wd]? = some pid
  watchdogs : ∀ inst < commandHandlersCount, ∃ object, h.watchdogs[inst]? = some object ∧
    object.function = .missingCh inst ∧ object.timer ≠ none

/-- Only the process ids, the dictionary and the watchdogs matter. -/
theorem Registered.of_eq (hreg : Registered h) (hpids : h'.chPids = h.chPids)
    (hwds : h'.chHeartbeatWds = h.chHeartbeatWds) (hwatchdogs : h'.watchdogs = h.watchdogs) :
    Registered h' where
  length := by rw [hpids, hreg.length]
  entries := by rw [hpids, hwds]; exact hreg.entries
  watchdogs := by rw [hwatchdogs]; exact hreg.watchdogs

/-- The process ids of two command handlers differ. -/
theorem Registered.inj (h : Registered h') {i j : ℕ} (hi : h'.chPids[i]? = some pid)
    (hj : h'.chPids[j]? = some pid) : i = j := by
  have hwi := (h.entries pid i).mpr hi
  have hwj := (h.entries pid j).mpr hj
  exact Option.some.inj (hwi.symm.trans hwj)

/-- The process id of a command handler is none of the others'. -/
def Fresh (h : Housekeeper) (inst pid : ℕ) : Prop := ∀ j, j ≠ inst → h.chPids[j]? ≠ some pid

/-- An instance has a process id and a watchdog. -/
theorem Registered.exists_of_lt (h : Registered h') (hinst : inst < commandHandlersCount) :
    ∃ old object, h'.chPids[inst]? = some old ∧ h'.watchdogs[inst]? = some object ∧
      object.function = .missingCh inst ∧ object.timer ≠ none := by
  obtain ⟨object, hobject, hfunction, hstarted⟩ := h.watchdogs inst hinst
  rw [← h.length] at hinst
  exact ⟨_, object, List.getElem?_eq_getElem hinst, hobject, hfunction, hstarted⟩

theorem Registered.updated (h : Registered h') (hold : h'.chPids[inst]? = some old)
    (hobject : h'.watchdogs[inst]? = some object) (hfresh : Fresh h' inst pid) :
    Registered (h'.updated inst pid old inst object) where
  length := by
    show (h'.chPids.set inst pid).length = commandHandlersCount
    rw [List.length_set, h.length]
  entries q wd := by
    show ((h'.chHeartbeatWds.erase old).insert pid inst).lookup q = some wd ↔
      (h'.chPids.set inst pid)[wd]? = some q
    have hlt : inst < h'.chPids.length := (List.getElem?_eq_some_iff.mp hold).1
    have hlookup := (h.entries old inst).mpr hold
    by_cases hwd : wd = inst
    · subst hwd
      rw [List.getElem?_set_self hlt]
      by_cases hq : q = pid
      · subst hq
        simp
      · rw [AList.lookup_insert_ne hq]
        have hgone : (h'.chHeartbeatWds.erase old).lookup q ≠ some wd := by
          intro hfound
          by_cases hqold : q = old
          · rw [hqold, AList.lookup_erase] at hfound
            exact absurd hfound (by simp)
          · rw [AList.lookup_erase_ne hqold] at hfound
            have hpid := (h.entries q wd).mp hfound
            exact hqold (Option.some.inj (hpid.symm.trans hold))
        simp [hgone, Ne.symm hq]
    · rw [List.getElem?_set_ne (Ne.symm hwd)]
      by_cases hq : q = pid
      · subst hq
        have hnot := hfresh wd hwd
        simp [hnot, Ne.symm hwd]
      · rw [AList.lookup_insert_ne hq]
        by_cases hqold : q = old
        · subst hqold
          have hnot : h'.chPids[wd]? ≠ some q := by
            intro hpid
            have hfound := (h.entries q wd).mpr hpid
            exact hwd (Option.some.inj (hfound.symm.trans hlookup))
          simp [hnot]
        · rw [AList.lookup_erase_ne hqold]
          exact h.entries q wd
  watchdogs i hi := by
    show ∃ object', (h'.watchdogs.set inst object.start)[i]? = some object' ∧ _
    obtain ⟨object', hobject', hfunction, hstarted⟩ := h.watchdogs i hi
    by_cases hsame : inst = i
    · subst hsame
      obtain rfl := Option.some.inj (hobject'.symm.trans hobject)
      have hlt : inst < h'.watchdogs.length := (List.getElem?_eq_some_iff.mp hobject).1
      exact ⟨_, List.getElem?_set_self hlt, hfunction, by simp [WatchdogTimer.start]⟩
    · rw [List.getElem?_set_ne hsame]
      exact ⟨object', hobject', hfunction, hstarted⟩

/-- What the periodic checks find, but for the period of the command handlers: the other periods,
and the answers of the FPGA that wait. -/
def Housekeeper.checked (h : Housekeeper) : List ℕ × List Client.RegValue :=
  ([h.fpgaCheckPeriod, h.sysCheckPeriod, h.lbHeartbeatPeriod, h.patHealthPeriod], h.fpgaQueue)

/-- What restarts leave as it was: the timeouts, the flags, the queue and what the checks find. No
watchdog is put back to before its first `start`. -/
structure Kept (h h' : Housekeeper) : Prop where
  timeouts : ∀ wd : ℕ, h'.watchdogs[wd]?.map WatchdogTimer.timeout =
    h.watchdogs[wd]?.map WatchdogTimer.timeout
  otherTimeouts : h'.patHealthWd.timeout = h.patHealthWd.timeout ∧
    h'.lbHeartbeatWd.timeout = h.lbHeartbeatWd.timeout
  patHealthWd : h.patHealthWd.timer ≠ none → h'.patHealthWd.timer ≠ none
  lbHeartbeatWd : h.lbHeartbeatWd.timer ≠ none → h'.lbHeartbeatWd.timer ≠ none
  checkTimers : h'.fpgaCheckTimer = h.fpgaCheckTimer ∧ h'.sysCheckTimer = h.sysCheckTimer
  enables : h'.chRestartEnable = h.chRestartEnable ∧ h'.lbRestartEnable = h.lbRestartEnable
  missingChQueue : h'.missingChQueue = h.missingChQueue
  checked : h'.checked = h.checked

namespace Kept

theorem trans {h'' : Housekeeper} (hh' : Kept h h') (hh'' : Kept h' h'') : Kept h h'' where
  timeouts wd := (hh''.timeouts wd).trans (hh'.timeouts wd)
  otherTimeouts := ⟨hh''.otherTimeouts.1.trans hh'.otherTimeouts.1,
    hh''.otherTimeouts.2.trans hh'.otherTimeouts.2⟩
  patHealthWd hstarted := hh''.patHealthWd (hh'.patHealthWd hstarted)
  lbHeartbeatWd hstarted := hh''.lbHeartbeatWd (hh'.lbHeartbeatWd hstarted)
  checkTimers := ⟨hh''.checkTimers.1.trans hh'.checkTimers.1,
      hh''.checkTimers.2.trans hh'.checkTimers.2⟩
  enables := ⟨hh''.enables.1.trans hh'.enables.1, hh''.enables.2.trans hh'.enables.2⟩
  missingChQueue := hh''.missingChQueue.trans hh'.missingChQueue
  checked := hh''.checked.trans hh'.checked

theorem updated (hobject : h.watchdogs[wd]? = some object) (inst pid old : ℕ) :
    Kept h (h.updated inst pid old wd object) := by
  refine ⟨fun i => ?_, ⟨rfl, rfl⟩, id, id, ⟨rfl, rfl⟩, ⟨rfl, rfl⟩, rfl, rfl⟩
  show (h.watchdogs.set wd object.start)[i]?.map _ = _
  by_cases hsame : wd = i
  · subst hsame
    have hlt : wd < h.watchdogs.length := (List.getElem?_eq_some_iff.mp hobject).1
    rw [List.getElem?_set_self hlt, hobject]
    rfl
  · rw [List.getElem?_set_ne hsame]

theorem setServices (h : Housekeeper) (services : List ℕ) : Kept h (h.setServices services) :=
  ⟨fun _ => rfl, ⟨rfl, rfl⟩, id, id, ⟨rfl, rfl⟩, ⟨rfl, rfl⟩, rfl, rfl⟩

theorem queuePacket (h : Housekeeper) (raw : Bytes) : Kept h (h.queuePacket raw) :=
  ⟨fun _ => rfl, ⟨rfl, rfl⟩, id, id, ⟨rfl, rfl⟩, ⟨rfl, rfl⟩, rfl, rfl⟩

theorem startLbHeartbeatWd {wd : WatchdogTimer} (htimeout : wd.timeout = h.lbHeartbeatWd.timeout) :
    Kept h (h.setLbHeartbeatWd wd.start) :=
  ⟨fun _ => rfl, ⟨rfl, htimeout⟩, id, fun _ => by simp [Housekeeper.setLbHeartbeatWd,
      WatchdogTimer.start],
    ⟨rfl, rfl⟩, ⟨rfl, rfl⟩, rfl, rfl⟩

end Kept

/-! ## Restarts -/

theorem getServicePid_eq (hpid : h.services.getD inst 0 = pid) (hzero : pid ≠ 0) :
    getServicePid report inst h = .ok pid h := by
  simp only [getServicePid, bind_get, hpid, if_neg hzero]
  rfl

theorem reportRestart_eq {processId : ℕ} (hp : processId < 2 ^ 8) (hinst : inst < 2 ^ 8) :
    ∃ raw, reportRestart processId inst h = .ok () (h.queuePacket raw) := by
  have hpack : pack (network [.B, .B]) [.int processId, .int inst] =
      .ok (leBytes 1 processId ++ leBytes 1 inst) := by
    have hp' : packOne false .B (.int processId) = .ok (leBytes 1 processId) := packInt_natCast hp
    have hi' : packOne false .B (.int inst) = .ok (leBytes 1 inst) := packInt_natCast hinst
    simp [pack, packFrom, gap, hp', hi']
  generalize hpayload : leBytes 1 processId ++ leBytes 1 inst = payload at hpack
  have hlen : payload.length < 2 ^ 16 := by simp [← hpayload]
  have happid : errHkRestart < 2 ^ 16 := by decide
  refine ⟨leBytes 2 errHkRestart ++ (leBytes 2 payload.length ++ payload), ?_⟩
  unfold reportRestart
  rw [hpack]
  show (raise (TxPacket.encode errHkRestart payload) >>= _) h = _
  rw [TxPacket.encode_eq happid hlen]
  rfl

theorem tryCatch_of_ok {α : Type} {x : Stmt α} {handle : Err → Stmt α} {a : α}
    (hx : x h = .ok a h') : tryCatch x handle h = .ok a h' := by
  show EStateM.tryCatch x handle h = .ok a h'
  simp only [EStateM.tryCatch, hx]

variable {pids : ℕ → ℕ}

section Skip

variable {processId : ℕ}

theorem restartCh_skip (hskip : ¬ (processId = hkChId ∧ h.chRestartEnable ≠ 0)) :
    restartCh report pids processId inst h = .ok () h := by
  rw [restartCh, bind_get, if_neg hskip]
  rfl

theorem restartPat_skip (hskip : ¬ (processId = hkPatId ∧ h.patRestartEnable ≠ 0)) :
    restartPat processId h = .ok () h := by
  rw [restartPat, bind_get, if_neg hskip]
  rfl

theorem restartLb_skip (hskip : ¬ (processId = hkLbId ∧ h.lbRestartEnable ≠ 0)) :
    restartLb report pids processId h = .ok () h := by
  rw [restartLb, bind_get, if_neg hskip]
  rfl

end Skip

/-- A command handler is restarted. -/
theorem restartProcess_ch (report : Err → Bytes) (pids : ℕ → ℕ) (hreg : Registered h)
    (hinst : inst < commandHandlersCount)
    (hservices : inst < h.services.length) (henable : h.chRestartEnable ≠ 0)
    (hzero : pids inst ≠ 0) :
    ∃ old object raw, h.chPids[inst]? = some old ∧ h.watchdogs[inst]? = some object ∧
      restartProcess report pids hkChId inst h = .ok ()
        (((h.setServices (h.services.set inst (pids inst))).updated inst (pids inst) old inst
          object).queuePacket raw) := by
  obtain ⟨old, object, hold, hobject, -, hstarted⟩ := hreg.exists_of_lt hinst
  have hlookup : h.chHeartbeatWds.lookup old = some inst := (hreg.entries old inst).mpr hold
  generalize hh₁ : h.setServices (h.services.set inst (pids inst)) = h₁
  have hpid : h₁.services.getD inst 0 = pids inst := by
    rw [← hh₁]
    show (h.services.set inst (pids inst)).getD inst 0 = pids inst
    rw [List.getD_eq_getElem?_getD, List.getElem?_set_self hservices, Option.getD_some]
  have hupdate : updateChPid inst (pids inst) h₁ =
      .ok () (h₁.updated inst (pids inst) old inst object) := by
    subst hh₁
    exact updateChPid_eq hold hlookup hobject hstarted
  have hch : restartCh report pids hkChId inst h =
      .ok () (h₁.updated inst (pids inst) old inst object) := by
    rw [restartCh, bind_get, if_pos ⟨rfl, henable⟩]
    show (getServicePid report inst >>= updateChPid inst) (h.setServices _) = _
    rw [hh₁, bind_of_ok (getServicePid_eq hpid hzero), hupdate]
  generalize hh₂ : h₁.updated inst (pids inst) old inst object = h₂ at hch
  have hinst' : inst < 2 ^ 8 := hinst.trans (by decide)
  have hid : hkChId < 2 ^ 8 := by decide
  obtain ⟨raw, hraw⟩ : ∃ raw, reportRestart hkChId inst h₂ = .ok () (h₂.queuePacket raw) :=
    reportRestart_eq hid hinst'
  refine ⟨old, object, raw, hold, hobject, ?_⟩
  rw [hh₂]
  apply tryCatch_of_ok
  rw [bind_of_ok hch, bind_of_ok (restartPat_skip (by simp [hkChId, hkPatId])),
    bind_of_ok (restartLb_skip (by simp [hkChId, hkLbId])), hraw]

/-- Behind the first `k` command handlers, each of which has its new process id. -/
structure Moving (pids : ℕ → ℕ) (old : List ℕ) (k : ℕ) (h : Housekeeper) : Prop where
  registered : Registered h
  services : h.services = (List.range commandHandlersCount).map pids
  chPids : ∀ j : ℕ, h.chPids[j]? = if j < k then some (pids j) else old[j]?
  running : ∀ j < k, ∀ object, h.watchdogs[j]? = some object → object.timer = some .waiting

/-- New process ids that differ from each other, and from the old ones of the handlers that come
later. -/
structure Apart (pids : ℕ → ℕ) (old : List ℕ) : Prop where
  distinct : ∀ i j, i < commandHandlersCount → j < commandHandlersCount → pids i = pids j → i = j
  later : ∀ i j, i < j → j < commandHandlersCount → old[j]? ≠ some (pids i)

variable {olds : List ℕ} {k : ℕ}

theorem Moving.step (hmoving : Moving pids olds k h) (hk : k < commandHandlersCount)
    (hzero : pids k ≠ 0) (hapart : Apart pids olds) :
    Ensures (getServicePid report k >>= updateChPid k)
      (fun _ h' => Moving pids olds (k + 1) h' ∧ Kept h h') h := by
  obtain ⟨old, object, hold, hobject, -, hstarted⟩ := hmoving.registered.exists_of_lt hk
  have hlookup : h.chHeartbeatWds.lookup old = some k := (hmoving.registered.entries old k).mpr hold
  have hpid : h.services.getD k 0 = pids k := by
    rw [hmoving.services, List.getD_eq_getElem?_getD]
    simp [hk]
  have hfresh : Fresh h k (pids k) := by
    intro j hj
    rw [hmoving.chPids]
    split
    · next hlt =>
      intro heq
      exact hj (hapart.distinct j k (hlt.trans hk) hk (Option.some.inj heq))
    · next hle =>
      by_cases hcount : j < commandHandlersCount
      · exact hapart.later k j (by omega) hcount
      · intro heq
        have hnone := hmoving.chPids j
        rw [if_neg hle, heq] at hnone
        have hlt := (List.getElem?_eq_some_iff.mp hnone).1
        rw [hmoving.registered.length] at hlt
        exact hcount hlt
  have hrun : (getServicePid report k >>= updateChPid k) h =
      .ok () (h.updated k (pids k) old k object) := by
    rw [bind_of_ok (getServicePid_eq hpid hzero)]
    exact updateChPid_eq hold hlookup hobject hstarted
  apply (wp_of_ok hrun).mpr
  refine ⟨⟨hmoving.registered.updated hold hobject hfresh, hmoving.services, ?_, ?_⟩,
    .updated hobject ..⟩
  · intro j
    show (h.chPids.set k (pids k))[j]? = _
    by_cases hj : j = k
    · subst hj
      rw [List.getElem?_set_self (List.getElem?_eq_some_iff.mp hold).1, if_pos (Nat.lt_succ_self j)]
    · rw [List.getElem?_set_ne (Ne.symm hj), hmoving.chPids]
      have hiff : j < k ↔ j < k + 1 := by omega
      simp only [hiff]
  · intro j hj object' hobject'
    have hset : (h.watchdogs.set k object.start)[j]? = some object' := hobject'
    by_cases hjk : j = k
    · subst hjk
      rw [List.getElem?_set_self (List.getElem?_eq_some_iff.mp hobject).1] at hset
      rw [← Option.some.inj hset]
      rfl
    · rw [List.getElem?_set_ne (Ne.symm hjk)] at hset
      exact hmoving.running j (by omega) object' hset

/-- Before the first command handler gets its new process id. -/
theorem Moving.zero (hreg : Registered h)
    (hservices : h.services = (List.range commandHandlersCount).map pids) :
    Moving pids h.chPids 0 h :=
  ⟨hreg, hservices, fun j => by simp, fun j hj => absurd hj (Nat.not_lt_zero j)⟩

/-- The loop over the command handlers. -/
theorem Moving.loop (report : Err → Bytes) {h₀ : Housekeeper} (hmoving : Moving pids olds 0 h)
    (hkept : Kept h₀ h)
    (hzero : ∀ i < commandHandlersCount, pids i ≠ 0) (hapart : Apart pids olds) :
    Ensures ((List.range commandHandlersCount).foldlM
      (fun _ i => do updateChPid i (← getServicePid report i)) ())
      (fun _ h' => Moving pids olds commandHandlersCount h' ∧ Kept h₀ h') h := by
  -- the first `k` command handlers are registered under their new process ids
  let I (rest : List ℕ) (_ : Unit) (s : Housekeeper) : Prop := ∃ k, k ≤ commandHandlersCount ∧
    rest = (List.range commandHandlersCount).drop k ∧ Moving pids olds k s ∧ Kept h₀ s
  have hstart : I (List.range commandHandlersCount) () h :=
    ⟨0, Nat.zero_le _, rfl, hmoving, hkept⟩
  have hloop : Ensures ((List.range commandHandlersCount).foldlM
      (fun _ i => do updateChPid i (← getServicePid report i)) ()) (fun b s => I [] b s) h := by
    refine wp_foldlM ?_ hstart
    rintro i rest b s ⟨k, hk, hrest, hmoving, hkept⟩
    have hlt : k < commandHandlersCount := by
      by_contra hle
      rw [List.drop_eq_nil_of_le (by rw [List.length_range]; omega)] at hrest
      exact absurd hrest (by simp)
    rw [List.drop_eq_getElem_cons (by rwa [List.length_range])] at hrest
    obtain ⟨rfl, rfl⟩ := List.cons.inj hrest
    rw [List.getElem_range]
    refine (hmoving.step hlt (hzero k hlt) hapart).imp ?_
    rintro _ s' ⟨hmoving', hkept'⟩
    exact ⟨k + 1, hlt, rfl, hmoving', hkept.trans hkept'⟩
  refine hloop.imp ?_
  rintro _ h' ⟨k, hk, hnil, hmoving', hkept'⟩
  have hlen := congrArg List.length hnil
  rw [List.length_nil, List.length_drop, List.length_range] at hlen
  obtain rfl : k = commandHandlersCount := by omega
  exact ⟨hmoving', hkept'⟩

/-- All command handlers are restarted, with the load balancer. -/
theorem ensures_restartProcess_lb (hreg : Registered h) (hlb : h.lbHeartbeatWd.timer ≠ none)
    (henable : h.lbRestartEnable ≠ 0) (hinst : inst < 2 ^ 8)
    (hzero : ∀ i < commandHandlersCount, pids i ≠ 0) (hapart : Apart pids h.chPids) :
    Ensures (restartProcess report pids hkLbId inst)
      (fun _ h' => Moving pids h.chPids commandHandlersCount h' ∧ Kept h h') h := by
  obtain ⟨object, hcancel, -, htimeout, -⟩ := cancel_of_started hlb
  generalize hh₁ : (h.setLbHeartbeatWd object.start).setServices
    ((List.range commandHandlersCount).map pids) = h₁
  have hmoving : Moving pids h.chPids 0 h₁ := by
    have hreg₁ : Registered h₁ := by
      rw [← hh₁]
      exact hreg.of_eq rfl rfl rfl
    have hservices : h₁.services = (List.range commandHandlersCount).map pids := by rw [← hh₁]; rfl
    have hpids : h₁.chPids = h.chPids := by rw [← hh₁]; rfl
    rw [← hpids]
    exact .zero hreg₁ hservices
  have hkept : Kept h h₁ := by
    subst hh₁
    exact (Kept.startLbHeartbeatWd htimeout).trans (.setServices ..)
  obtain ⟨_, h₂, hrun, hmoved, hkept₂⟩ :=
    ensures_iff.mp (hmoving.loop report hkept hzero hapart)
  have hlbRun : restartLb report pids hkLbId h = .ok () h₂ := by
    rw [restartLb, bind_get, if_pos ⟨rfl, henable⟩, bind_get]
    rw [show attempt h.lbHeartbeatWd.cancel = pure object by rw [hcancel]; rfl]
    subst hh₁
    exact hrun
  have hid : hkLbId < 2 ^ 8 := by decide
  obtain ⟨raw, hraw⟩ : ∃ raw, reportRestart hkLbId inst h₂ = .ok () (h₂.queuePacket raw) :=
    reportRestart_eq hid hinst
  have hall : restartProcess report pids hkLbId inst h = .ok () (h₂.queuePacket raw) := by
    apply tryCatch_of_ok
    rw [bind_of_ok (restartCh_skip (by simp [hkLbId, hkChId])),
      bind_of_ok (restartPat_skip (by simp [hkLbId, hkPatId])), bind_of_ok hlbRun, hraw]
  apply (wp_of_ok hall).mpr
  refine ⟨⟨hmoved.registered.of_eq rfl rfl rfl, hmoved.services, hmoved.chPids, hmoved.running⟩, ?_⟩
  exact hkept₂.trans (.queuePacket ..)

/-! ## A watchdog that is overwritten -/

attribute [local irreducible] pack TxPacket.encode

/-- A watchdog is found under no process id. -/
def Lost (wd : ℕ) (h : Housekeeper) : Prop := ∀ pid, h.chHeartbeatWds.lookup pid ≠ some wd

/-- A watchdog is found under one process id at most. -/
def Only (wd pid : ℕ) (h : Housekeeper) : Prop :=
  ∀ q, h.chHeartbeatWds.lookup q = some wd → q = pid

theorem allows_raise {α : Type} (x : Except Exn α) :
    Allows (raise x) (fun a h' => h' = h ∧ x = .ok a) h := by
  cases x with
  | ok a => exact ⟨rfl, rfl⟩
  | error e => trivial

theorem allows_attempt {α : Type} (x : Except Err α) :
    Allows (attempt x) (fun a h' => h' = h ∧ x = .ok a) h := by
  cases x with
  | ok a => exact ⟨rfl, rfl⟩
  | error e => trivial

theorem allows_chHeartbeatWd (pid : ℕ) : Allows (chHeartbeatWd pid)
    (fun wd h' => h' = h ∧ h.chHeartbeatWds.lookup pid = some wd) h := by
  rw [chHeartbeatWd, Allows, wp_bind, wp_get]
  split
  · next wd hwd => exact ⟨rfl, hwd⟩
  · trivial

theorem allows_onWatchdog (method : WatchdogTimer → Except Err WatchdogTimer) (wd : ℕ) :
    Allows (onWatchdog method wd) (fun _ h' => ∃ object, h' = h.setWatchdog wd object) h := by
  rw [onWatchdog, Allows, wp_bind, wp_get]
  refine (allows_raise _).bind ?_
  rintro object _ ⟨rfl, -⟩
  refine (allows_attempt _).bind ?_
  rintro object' _ ⟨rfl, -⟩
  exact ⟨object', rfl⟩

theorem allows_getServicePid (inst : ℕ) : Allows (getServicePid report inst)
    (fun pid h' => h' = h ∧ pid = h.services.getD inst 0) h := by
  by_cases hzero : h.services.getD inst 0 = 0
  · have hraise : getServicePid report inst h = sendException report (.raised .valueError) h := by
      simp only [getServicePid, bind_get, hzero, if_true]
    exact (wp_congr hraise).mpr trivial
  · exact (wp_of_ok (getServicePid_eq rfl hzero)).mpr ⟨rfl, rfl⟩

/-- What a new process id does to the dictionary. -/
theorem allows_updateChPid (inst pid : ℕ) : Allows (updateChPid inst pid)
    (fun _ h' => ∃ old wd, h.chPids[inst]? = some old ∧ h.chHeartbeatWds.lookup old = some wd ∧
      h'.services = h.services ∧ h'.chPids = h.chPids.set inst pid ∧
        h'.chHeartbeatWds = (h.chHeartbeatWds.erase old).insert pid wd) h := by
  rw [updateChPid, Allows, wp_bind, wp_get]
  refine (allows_raise _).bind ?_
  rintro old h ⟨rfl, hindex⟩
  have hold : h.chPids[inst]? = some old := by
    by_contra hne
    rw [index] at hindex
    split at hindex
    · next a ha => exact hne (ha.trans (congrArg some (Except.ok.inj hindex)))
    · exact absurd hindex (by simp)
  rw [Allows, wp_bind, wp_modify]
  refine (allows_chHeartbeatWd old).bind ?_
  rintro wd _ ⟨rfl, hwd⟩
  refine (allows_onWatchdog _ wd).bind ?_
  rintro _ _ ⟨object, rfl⟩
  refine (allows_chHeartbeatWd old).bind ?_
  rintro wd' _ ⟨rfl, hwd'⟩
  rw [Allows, wp_bind, wp_modify, wp_bind, wp_modify]
  refine (allows_chHeartbeatWd pid).bind ?_
  rintro wd'' _ ⟨rfl, -⟩
  refine (allows_onWatchdog _ wd'').imp ?_
  rintro _ _ ⟨object', rfl⟩
  exact ⟨old, wd', hold, hwd', rfl, rfl, rfl⟩

theorem Lost.of_updated {old p : ℕ} (hlost : Lost wd h) {wd' : ℕ}
    (hwd' : h.chHeartbeatWds.lookup old = some wd')
    (hwds : h'.chHeartbeatWds = (h.chHeartbeatWds.erase old).insert p wd') : Lost wd h' := by
  intro q hfound
  rw [hwds] at hfound
  by_cases hq : q = p
  · subst hq
    rw [AList.lookup_insert] at hfound
    exact hlost old (hwd'.trans hfound)
  · rw [AList.lookup_insert_ne hq] at hfound
    by_cases hqold : q = old
    · subst hqold
      rw [AList.lookup_erase] at hfound
      exact absurd hfound (by simp)
    · rw [AList.lookup_erase_ne hqold] at hfound
      exact hlost q hfound

/-- The entry of another command handler moves. -/
theorem Only.of_updated {key p : ℕ} (honly : Only wd key h) {wd' : ℕ} (hne : old ≠ key)
    (hwd' : h.chHeartbeatWds.lookup old = some wd')
    (hwds : h'.chHeartbeatWds = (h.chHeartbeatWds.erase old).insert p wd') :
    Only wd key h' ∧ (p = key → Lost wd h') := by
  have hother : wd' ≠ wd := by
    rintro rfl
    exact hne (honly old hwd')
  have hfound : ∀ q, h'.chHeartbeatWds.lookup q = some wd → q ≠ p ∧ q = key := by
    intro q hq
    rw [hwds] at hq
    by_cases hqp : q = p
    · subst hqp
      rw [AList.lookup_insert] at hq
      exact absurd (Option.some.inj hq) hother
    · rw [AList.lookup_insert_ne hqp] at hq
      by_cases hqold : q = old
      · subst hqold
        rw [AList.lookup_erase] at hq
        exact absurd hq (by simp)
      · rw [AList.lookup_erase_ne hqold] at hq
        exact ⟨hqp, honly q hq⟩
  refine ⟨fun q hq => (hfound q hq).2, ?_⟩
  rintro rfl q hq
  exact (hfound q hq).1 (hfound q hq).2

theorem allows_restartProcess {Q : Unit → Housekeeper → Prop} {processId : ℕ}
    (hbody : Allows (do
      restartCh report pids processId inst
      restartPat processId
      restartLb report pids processId
      reportRestart processId inst) Q h) :
    Allows (restartProcess report pids processId inst) Q h := by
  rw [restartProcess, Allows, wp_tryCatch]
  exact hbody.mono (fun _ _ hQ => hQ) fun _ _ _ => trivial

theorem allows_reportRestart {processId : ℕ} (hlost : Lost wd h) :
    Allows (reportRestart processId inst) (fun _ h' => Lost wd h') h := by
  rw [reportRestart]
  refine (allows_raise _).bind ?_
  rintro payload _ ⟨rfl, -⟩
  refine (allows_raise _).bind ?_
  rintro raw _ ⟨rfl, -⟩
  exact hlost

/-- The loop over the command handlers, where one gets the old process id of a later one. -/
theorem allows_loop_lost {i j : ℕ} (hreg : Registered h) (hij : i < j)
    (hj : j < commandHandlersCount) (hreused : h.chPids[j]? = some (pids i))
    (hservices : h.services = (List.range commandHandlersCount).map pids) :
    Allows ((List.range commandHandlersCount).foldlM
      (fun _ i => do updateChPid i (← getServicePid report i)) ()) (fun _ h' => Lost j h') h := by
  -- the entry of `j` is the only one for its watchdog until `i` gets its process id, and lost then
  let I (rest : List ℕ) (_ : Unit) (s : Housekeeper) : Prop := ∃ k, k ≤ commandHandlersCount ∧
    rest = (List.range commandHandlersCount).drop k ∧ s.services = h.services ∧
      (k ≤ i → Only j (pids i) s ∧ ∀ m, k ≤ m → s.chPids[m]? = h.chPids[m]?) ∧
      (i < k → Lost j s)
  have hstart : I (List.range commandHandlersCount) () h := by
    refine ⟨0, Nat.zero_le _, rfl, rfl, fun _ => ⟨fun q hq => ?_, fun _ _ => rfl⟩,
      fun hlt => absurd hlt (Nat.not_lt_zero i)⟩
    have hq' := (hreg.entries q j).mp hq
    exact Option.some.inj (hq'.symm.trans hreused)
  have hloop : Allows ((List.range commandHandlersCount).foldlM
      (fun _ i => do updateChPid i (← getServicePid report i)) ()) (fun b s => I [] b s) h := by
    refine wp_foldlM ?_ hstart
    rintro c rest b s ⟨k, hk, hrest, hservices', honly, hlost⟩
    have hlt : k < commandHandlersCount := by
      by_contra hle
      rw [List.drop_eq_nil_of_le (by rw [List.length_range]; omega)] at hrest
      exact absurd hrest (by simp)
    rw [List.drop_eq_getElem_cons (by rwa [List.length_range])] at hrest
    obtain ⟨rfl, rfl⟩ := List.cons.inj hrest
    rw [List.getElem_range]
    refine (allows_getServicePid k).bind ?_
    rintro pid s ⟨rfl, hpid⟩
    have hnew : pid = pids k := by
      rw [hpid, hservices', hservices, List.getD_eq_getElem?_getD]
      simp [hlt]
    refine (allows_updateChPid k pid).imp ?_
    rintro _ s' ⟨old, wd, hold, hwd, hsame, hpids, hwds⟩
    rw [hnew] at hwds hpids
    refine ⟨k + 1, hlt, rfl, hsame.trans hservices', fun hle => ?_, fun hgt => ?_⟩
    · obtain ⟨honly, hkept⟩ := honly (by omega)
      have hne : old ≠ pids i := by
        rintro rfl
        rw [hkept k le_rfl] at hold
        exact absurd (hreg.inj hold hreused) (by omega)
      refine ⟨(honly.of_updated hne hwd hwds).1, fun m hm => ?_⟩
      rw [hpids, List.getElem?_set_ne (by omega), hkept m (by omega)]
    · by_cases hki : k = i
      · subst hki
        obtain ⟨honly, hkept⟩ := honly le_rfl
        have hne : old ≠ pids k := by
          rintro rfl
          rw [hkept k le_rfl] at hold
          exact absurd (hreg.inj hold hreused) (by omega)
        exact (honly.of_updated hne hwd hwds).2 rfl
      · exact (hlost (by omega)).of_updated hwd hwds
  refine hloop.imp ?_
  rintro _ h' ⟨k, hk, hnil, -, -, hlost⟩
  have hlen := congrArg List.length hnil
  rw [List.length_nil, List.length_drop, List.length_range] at hlen
  exact hlost (by omega)

/-- **A watchdog is lost, if its old process id goes to a command handler that comes before.** -/
theorem allows_restartProcess_lost {i j : ℕ} (hreg : Registered h) (henable : h.lbRestartEnable ≠ 0)
    (hij : i < j) (hj : j < commandHandlersCount) (hreused : h.chPids[j]? = some (pids i)) :
    Allows (restartProcess report pids hkLbId inst) (fun _ h' => Lost j h') h := by
  apply allows_restartProcess
  have hch : restartCh report pids hkLbId inst h = .ok () h :=
    restartCh_skip (by simp [hkLbId, hkChId])
  have hpat : restartPat hkLbId h = .ok () h := restartPat_skip (by simp [hkLbId, hkPatId])
  rw [Allows, wp_congr (bind_of_ok hch), wp_congr (bind_of_ok hpat)]
  have hlb : Allows (restartLb report pids hkLbId) (fun _ h' => Lost j h') h := by
    rw [restartLb, Allows, wp_bind, wp_get, if_pos ⟨rfl, henable⟩, wp_bind, wp_get]
    refine (allows_attempt _).bind ?_
    rintro object h ⟨rfl, -⟩
    rw [Allows, wp_bind, wp_modify, restartTarget, wp_bind, wp_modify]
    have hreg' : Registered ((h.setLbHeartbeatWd object.start).setServices
      ((List.range commandHandlersCount).map pids)) := hreg.of_eq rfl rfl rfl
    exact allows_loop_lost hreg' hij hj hreused rfl
  refine hlb.bind ?_
  intro _ h' hlost
  exact allows_reportRestart hlost

end ClickA.Housekeeping
