import ClickA.Housekeeping.Watchdogs

/-!
# Runs of restarts

Command handlers are restarted one by one, or all of them with the load balancer. The service
manager may give a process id that was used before, as long as the command handlers that run have
different ones.

## Main definitions

* `Restart`, `runs`: a sequence of restarts
* `Watched`: each command handler has its watchdog, and it runs
* `Reports`: what the service manager reports
* `Spared`: no command handler gets the old process id of one that comes later

## Main results

* `watched_iff`: when each command handler is watched behind each restart
-/

namespace ClickA.Housekeeping

open Python Options

/-- One command handler is restarted, or all of them. By then the watchdogs of those that are
restarted may have expired. -/
inductive Restart
  | ch (inst pid : ℕ) (expired : Bool)
  | lb (pids : ℕ → ℕ) (expired : List ℕ)

namespace Restart

variable (report : Err → Bytes)

/-- A restart. -/
def run : Restart → Stmt Unit
  | .ch inst pid expired => do
    modify fun h => if expired then expire inst h else h
    restartProcess report (fun _ => pid) hkChId inst
  | .lb pids expired => do
    modify fun h => expired.foldl (fun h wd => expire wd h) h
    restartProcess report pids hkLbId 0

/-- The process ids behind a restart. -/
def after (old : List ℕ) : Restart → List ℕ
  | .ch inst pid _ => old.set inst pid
  | .lb pids _ => (List.range commandHandlersCount).map pids

/-- There is such a command handler, and behind the restart all of them have process ids that are
not zero and differ. -/
structure Valid (old : List ℕ) (r : Restart) : Prop where
  inst : ∀ inst pid expired, r = .ch inst pid expired → inst < commandHandlersCount
  nonzero : 0 ∉ r.after old
  nodup : (r.after old).Nodup

/-- No command handler gets the old process id of one that comes later. -/
def Spares (old : List ℕ) : Restart → Prop
  | .ch .. => True
  | .lb pids _ => ∀ i j, i < j → j < commandHandlersCount → old[j]? ≠ some (pids i)

end Restart

/-- A sequence of restarts. -/
def runs (report : Err → Bytes) : List Restart → Stmt Unit
  | [] => pure ()
  | r :: rs => do
    r.run report
    runs report rs

/-- The service manager reports process ids that are not zero and differ. -/
def Reports : List ℕ → List Restart → Prop
  | _, [] => True
  | old, r :: rs => r.Valid old ∧ Reports (r.after old) rs

/-- No command handler gets the old process id of one that comes later, in any restart. -/
def Spared : List ℕ → List Restart → Prop
  | _, [] => True
  | old, r :: rs => r.Spares old ∧ Spared (r.after old) rs

/-- Each command handler has one entry, under its process id, with the watchdog that was created for
it, and that watchdog runs. -/
structure Watched (h : Housekeeper) : Prop extends Registered h where
  current : h.chPids = h.services
  running : ∀ inst < commandHandlersCount, ∀ object, h.watchdogs[inst]? = some object →
    object.timer = some .waiting

/-- And the process ids are these, and restarts are enabled. -/
structure Stable (old : List ℕ) (h : Housekeeper) : Prop extends Watched h where
  services : h.services = old
  lbHeartbeatWd : h.lbHeartbeatWd.timer ≠ none
  chEnable : h.chRestartEnable ≠ 0
  lbEnable : h.lbRestartEnable ≠ 0

variable {report : Err → Bytes} {h h' : Housekeeper} {old : List ℕ} {inst pid wd : ℕ}
  {pids : ℕ → ℕ} {expired : List ℕ} {rs : List Restart}

/-- What an expiry leaves as it was. -/
structure Expired (h h' : Housekeeper) : Prop where
  services : h'.services = h.services
  chPids : h'.chPids = h.chPids
  chHeartbeatWds : h'.chHeartbeatWds = h.chHeartbeatWds
  functions : ∀ (wd : ℕ) (object : WatchdogTimer), h.watchdogs[wd]? = some object → ∃ object',
    h'.watchdogs[wd]? = some object' ∧ object'.function = object.function ∧
      (object.timer ≠ none → object'.timer ≠ none)
  lbHeartbeatWd : h'.lbHeartbeatWd = h.lbHeartbeatWd
  enables : h'.chRestartEnable = h.chRestartEnable ∧ h'.lbRestartEnable = h.lbRestartEnable

theorem Expired.refl (h : Housekeeper) : Expired h h :=
  ⟨rfl, rfl, rfl, fun _ object hobject => ⟨object, hobject, rfl, id⟩, rfl, rfl, rfl⟩

theorem Expired.trans {h'' : Housekeeper} (hh' : Expired h h') (hh'' : Expired h' h'') :
    Expired h h'' where
  services := hh''.services.trans hh'.services
  chPids := hh''.chPids.trans hh'.chPids
  chHeartbeatWds := hh''.chHeartbeatWds.trans hh'.chHeartbeatWds
  functions wd object hobject := by
    obtain ⟨object', hobject', hfunction, hstarted⟩ := hh'.functions wd object hobject
    obtain ⟨object'', hobject'', hfunction', hstarted'⟩ := hh''.functions wd object' hobject'
    exact ⟨object'', hobject'', hfunction'.trans hfunction, fun h => hstarted' (hstarted h)⟩
  lbHeartbeatWd := hh''.lbHeartbeatWd.trans hh'.lbHeartbeatWd
  enables := ⟨hh''.enables.1.trans hh'.enables.1, hh''.enables.2.trans hh'.enables.2⟩

theorem expired_setWatchdog {object : WatchdogTimer} (hobject : h.watchdogs[wd]? = some object)
    (phase : Phase) : Expired h (h.setWatchdog wd { object with timer := some phase }) := by
  refine ⟨rfl, rfl, rfl, fun i object' hobject' => ?_, rfl, rfl, rfl⟩
  show ∃ object'', (h.watchdogs.set wd _)[i]? = some object'' ∧ _
  by_cases hsame : wd = i
  · subst hsame
    obtain rfl := Option.some.inj (hobject.symm.trans hobject')
    have hlt : wd < h.watchdogs.length := (List.getElem?_eq_some_iff.mp hobject).1
    exact ⟨_, List.getElem?_set_self hlt, rfl, fun _ => by simp⟩
  · rw [List.getElem?_set_ne hsame]
    exact ⟨object', hobject', rfl, id⟩

theorem expired_expire (wd : ℕ) (h : Housekeeper) : Expired h (expire wd h) := by
  unfold expire
  split
  · next object hobject =>
    split
    · have hset := expired_setWatchdog hobject .over
      generalize h.setWatchdog wd { object with timer := some .over } = h' at hset
      dsimp only
      split
      · exact ⟨hset.services, hset.chPids, hset.chHeartbeatWds, hset.functions, hset.lbHeartbeatWd,
          hset.enables⟩
      · exact ⟨hset.services, hset.chPids, hset.chHeartbeatWds, hset.functions, hset.lbHeartbeatWd,
          hset.enables⟩
      · exact ⟨hset.services, hset.chPids, hset.chHeartbeatWds, hset.functions, hset.lbHeartbeatWd,
          hset.enables⟩
    · exact .refl h
  · exact .refl h

theorem watchdogs_expire_ne {i : ℕ} (hne : wd ≠ i) :
    (expire wd h).watchdogs[i]? = h.watchdogs[i]? := by
  have hset (object : WatchdogTimer) : (h.watchdogs.set wd object)[i]? = h.watchdogs[i]? :=
    List.getElem?_set_ne hne
  unfold expire
  split
  · split
    · dsimp only
      split <;> exact hset _
    · rfl
  · rfl

theorem expired_foldl (expired : List ℕ) (h : Housekeeper) :
    Expired h (expired.foldl (fun h wd => expire wd h) h) := by
  induction expired generalizing h with
  | nil => exact .refl h
  | cons wd expired ih => exact (expired_expire wd h).trans (ih (expire wd h))

theorem Registered.of_expired (hreg : Registered h) (hexpired : Expired h h') : Registered h' where
  length := by rw [hexpired.chPids, hreg.length]
  entries pid wd := by rw [hexpired.chHeartbeatWds, hexpired.chPids, hreg.entries]
  watchdogs inst hinst := by
    obtain ⟨object, hobject, hfunction, hstarted⟩ := hreg.watchdogs inst hinst
    obtain ⟨object', hobject', hsame, hstarted'⟩ := hexpired.functions inst object hobject
    exact ⟨object', hobject', hsame.trans hfunction, hstarted' hstarted⟩

/-! ## One restart -/

/-- A command handler that is restarted is watched again, as the others are. -/
theorem Stable.ch {expired : Bool} (hstable : Stable old h)
    (hvalid : (Restart.ch inst pid expired).Valid old) :
    Ensures ((Restart.ch inst pid expired).run report)
      (fun _ h' => Stable (old.set inst pid) h') h := by
  have hinst := hvalid.inst inst pid expired rfl
  rw [Restart.run, Ensures, wp_bind, wp_modify]
  generalize hh₁ : (if expired = true then expire inst h else h) = h₁
  have hexpired : Expired h h₁ := by
    rw [← hh₁]
    split
    · exact expired_expire inst h
    · exact .refl h
  have hothers : ∀ i, inst ≠ i → h₁.watchdogs[i]? = h.watchdogs[i]? := by
    intro i hne
    rw [← hh₁]
    split
    · exact watchdogs_expire_ne hne
    · rfl
  have hreg := hstable.toRegistered.of_expired hexpired
  have holds : h₁.chPids = old := by rw [hexpired.chPids, hstable.current, hstable.services]
  have hlen : old.length = commandHandlersCount := by rw [← holds, hreg.length]
  have hset : (old.set inst pid)[inst]? = some pid := List.getElem?_set_self (by omega)
  have hzero : pid ≠ 0 := by
    rintro rfl
    exact hvalid.nonzero (List.mem_of_getElem? hset)
  have hfresh : Fresh h₁ inst pid := by
    intro j hj hsame
    rw [holds, ← List.getElem?_set_ne (Ne.symm hj), ← hset] at hsame
    have hltj : inst < (old.set inst pid).length := by rw [List.length_set]; omega
    exact hj ((List.getElem?_inj hltj hvalid.nodup).mp hsame.symm).symm
  have henable : h₁.chRestartEnable ≠ 0 := by
    rw [hexpired.enables.1]
    exact hstable.chEnable
  have hservices : h₁.services = old := hexpired.services.trans hstable.services
  have hltservices : inst < h₁.services.length := by
    rw [hservices]
    omega
  obtain ⟨oldPid, object, raw, hold, hobject, hrun⟩ :=
    restartProcess_ch report (fun _ => pid) hreg hinst hltservices henable hzero
  apply (wp_of_ok hrun).mpr
  have hreg' : Registered (h₁.setServices (h₁.services.set inst pid)) :=
    hreg.of_eq rfl rfl rfl
  refine ⟨⟨(hreg'.updated hold hobject hfresh).of_eq rfl rfl rfl, ?_, ?_⟩, ?_, ?_, henable, ?_⟩
  · show h₁.chPids.set inst pid = h₁.services.set inst pid
    rw [holds, hservices]
  · intro i hi object' hobject'
    have hset' : (h₁.watchdogs.set inst object.start)[i]? = some object' := hobject'
    by_cases hsame : inst = i
    · subst hsame
      rw [List.getElem?_set_self (List.getElem?_eq_some_iff.mp hobject).1] at hset'
      rw [← Option.some.inj hset']
      rfl
    · rw [List.getElem?_set_ne hsame, hothers i hsame] at hset'
      exact hstable.running i hi object' hset'
  · show h₁.services.set inst pid = old.set inst pid
    rw [hservices]
  · show h₁.lbHeartbeatWd.timer ≠ none
    rw [hexpired.lbHeartbeatWd]
    exact hstable.lbHeartbeatWd
  · show h₁.lbRestartEnable ≠ 0
    rw [hexpired.enables.2]
    exact hstable.lbEnable

theorem apart_of_valid (hvalid : (Restart.lb pids expired).Valid old)
    (hspares : (Restart.lb pids expired).Spares old) : Apart pids old := by
  refine ⟨fun i j hi hj hsame => ?_, hspares⟩
  have hnodup : ((List.range commandHandlersCount).map pids).Nodup := hvalid.nodup
  exact List.inj_on_of_nodup_map hnodup (List.mem_range.mpr hi) (List.mem_range.mpr hj) hsame

/-- The command handlers that are restarted with the load balancer are watched again, if none of
them gets the old process id of one that comes later. -/
theorem Stable.lb (hstable : Stable old h) (hvalid : (Restart.lb pids expired).Valid old)
    (hspares : (Restart.lb pids expired).Spares old) :
    Ensures ((Restart.lb pids expired).run report)
      (fun _ h' => Stable ((List.range commandHandlersCount).map pids) h') h := by
  rw [Restart.run, Ensures, wp_bind, wp_modify]
  have hexpired := expired_foldl expired h
  generalize expired.foldl (fun h wd => expire wd h) h = h₁ at hexpired
  have hreg := hstable.toRegistered.of_expired hexpired
  have holds : h₁.chPids = old := by rw [hexpired.chPids, hstable.current, hstable.services]
  have hlb : h₁.lbHeartbeatWd.timer ≠ none := by
    rw [hexpired.lbHeartbeatWd]
    exact hstable.lbHeartbeatWd
  have henable : h₁.lbRestartEnable ≠ 0 := by
    rw [hexpired.enables.2]
    exact hstable.lbEnable
  have hzero : ∀ i < commandHandlersCount, pids i ≠ 0 := by
    intro i hi hzero
    apply hvalid.nonzero
    exact List.mem_map.mpr ⟨i, List.mem_range.mpr hi, hzero⟩
  have hapart : Apart pids h₁.chPids := by
    rw [holds]
    exact apart_of_valid hvalid hspares
  have hinst : 0 < 2 ^ 8 := by decide
  refine (ensures_restartProcess_lb hreg hlb henable hinst hzero hapart).imp ?_
  rintro _ h' ⟨hmoving, hkept⟩
  refine ⟨⟨hmoving.registered, ?_, hmoving.running⟩, hmoving.services, hkept.lbHeartbeatWd hlb, ?_,
    ?_⟩
  · rw [hmoving.services]
    apply List.ext_getElem?
    intro i
    rw [hmoving.chPids]
    by_cases hi : i < commandHandlersCount
    · simp [hi]
    · have hlen : h₁.chPids.length ≤ i := by rw [hreg.length]; omega
      simp [hi, hlen]
  · rw [hkept.enables.1, hexpired.enables.1]
    exact hstable.chEnable
  · rw [hkept.enables.2]
    exact henable

/-- Otherwise one of the watchdogs is lost. -/
theorem Stable.not_watched (hstable : Stable old h)
    (hspares : ¬ (Restart.lb pids expired).Spares old) :
    Allows ((Restart.lb pids expired).run report) (fun _ h' => ¬ Watched h') h := by
  rw [Restart.run, Allows, wp_bind, wp_modify]
  have hexpired := expired_foldl expired h
  generalize expired.foldl (fun h wd => expire wd h) h = h₁ at hexpired
  have hreg := hstable.toRegistered.of_expired hexpired
  have holds : h₁.chPids = old := by rw [hexpired.chPids, hstable.current, hstable.services]
  have henable : h₁.lbRestartEnable ≠ 0 := by
    rw [hexpired.enables.2]
    exact hstable.lbEnable
  simp only [Restart.Spares, not_forall, not_not] at hspares
  obtain ⟨i, j, hij, hj, hreused⟩ := hspares
  rw [← holds] at hreused
  refine (allows_restartProcess_lost hreg henable hij hj hreused).imp ?_
  intro _ h' hlost hwatched
  obtain ⟨pid, -, hpid, -⟩ := hwatched.exists_of_lt hj
  exact hlost pid ((hwatched.entries pid j).mpr hpid)

/-! ## Runs -/

/-- What holds behind each restart holds before the first, and behind each of the others. -/
theorem forall_prefix_runs {r : Restart} {Q : Housekeeper → Prop} :
    (∀ before, before <+: r :: rs → Ensures (runs report before) (fun _ h => Q h) h) ↔
      Q h ∧ ∀ before, before <+: rs → Ensures (r.run report)
        (fun _ h' => Ensures (runs report before) (fun _ h => Q h) h') h := by
  constructor
  · intro hall
    refine ⟨hall [] (List.nil_prefix), fun before hbefore => ?_⟩
    have hrun := hall (r :: before) (List.cons_prefix_cons.mpr ⟨rfl, hbefore⟩)
    rwa [runs, Ensures, wp_bind] at hrun
  · rintro ⟨hnow, hlater⟩ before hbefore
    cases before with
    | nil => exact hnow
    | cons r' before =>
      obtain ⟨rfl, hrest⟩ := List.cons_prefix_cons.mp hbefore
      rw [runs, Ensures, wp_bind]
      exact hlater before hrest

/-- Each command handler is watched behind each restart, if none gets the old process id of one that
comes later. -/
theorem Stable.forall_watched (hstable : Stable old h) (hreports : Reports old rs) :
    (∀ before, before <+: rs → Ensures (runs report before) (fun _ h => Watched h) h) ↔
      Spared old rs := by
  induction rs generalizing old h with
  | nil =>
    refine iff_of_true (fun before hbefore => ?_) trivial
    rw [List.prefix_nil.mp hbefore]
    exact hstable.toWatched
  | cons r rs ih =>
    obtain ⟨hvalid, hreports⟩ := hreports
    rw [forall_prefix_runs, Spared, and_iff_right hstable.toWatched]
    by_cases hspares : r.Spares old
    · have hnext : Ensures (r.run report) (fun _ h' => Stable (r.after old) h') h := by
        cases r with
        | ch inst pid expired => exact hstable.ch hvalid
        | lb pids expired => exact hstable.lb hvalid hspares
      obtain ⟨_, h', hrun, hstable'⟩ := ensures_iff.mp hnext
      rw [and_iff_right hspares, ← ih hstable' hreports]
      have hcongr (before : List Restart) : Ensures (r.run report)
          (fun _ h' => Ensures (runs report before) (fun _ h => Watched h) h') h ↔
            Ensures (runs report before) (fun _ h => Watched h) h' := wp_of_ok hrun
      simp only [hcongr]
    · refine iff_of_false (fun hall => ?_) fun hspared => hspares hspared.1
      cases r with
      | ch inst pid expired => exact hspares trivial
      | lb pids expired =>
        obtain ⟨_, h', hwatched, hnot⟩ :=
          (hall [] List.nil_prefix).of_allows (hstable.not_watched hspares)
        exact hnot hwatched

/-- The dictionary that is built one entry after another. -/
theorem lookup_foldl_insert {n : ℕ} (hnodup : ((List.range n).map pids).Nodup) (pid wd : ℕ) :
    ((List.range n).foldl (fun (wds : AList fun _ : ℕ => ℕ) i => wds.insert (pids i) i) ∅).lookup
      pid =
      some wd ↔ wd < n ∧ pids wd = pid := by
  induction n with
  | zero => simp
  | succ n ih =>
    have hinj := List.inj_on_of_nodup_map hnodup
    rw [List.range_succ, List.map_append, List.nodup_append] at hnodup
    rw [List.range_succ, List.foldl_append, List.foldl_cons, List.foldl_nil]
    by_cases hpid : pid = pids n
    · rw [hpid, AList.lookup_insert]
      constructor
      · intro hwd
        obtain rfl := Option.some.inj hwd
        exact ⟨Nat.lt_succ_self n, rfl⟩
      · rintro ⟨hlt, hsame⟩
        exact congrArg some (hinj (List.mem_range.mpr (Nat.lt_succ_self n)) (List.mem_range.mpr hlt)
          hsame.symm)
    · rw [AList.lookup_insert_ne hpid, ih hnodup.1]
      constructor
      · rintro ⟨hlt, hsame⟩
        exact ⟨Nat.lt_succ_of_lt hlt, hsame⟩
      · rintro ⟨hlt, rfl⟩
        refine ⟨lt_of_le_of_ne (Nat.le_of_lt_succ hlt) ?_, rfl⟩
        rintro rfl
        exact hpid rfl

/-- Housekeeping starts with the process ids that the service manager reports. -/
theorem Stable.of_startup (hstart : startup pids = .ok h)
    (hnodup : ((List.range commandHandlersCount).map pids).Nodup) :
    Stable ((List.range commandHandlersCount).map pids) h := by
  have hlookup := lookup_foldl_insert hnodup
  unfold startup at hstart
  dsimp only at hstart
  generalize (List.range commandHandlersCount).foldl
    (fun (wds : AList fun _ : ℕ => ℕ) i => wds.insert (pids i) i) ∅ = wds at hstart hlookup
  split at hstart
  · exact absurd hstart (by simp)
  · obtain rfl := Except.ok.inj hstart
    have hwatchdog : ∀ inst < commandHandlersCount, ((List.range commandHandlersCount).map fun i =>
        ({ timeout := hkChCheckPd, function := .missingCh i,
           timer := if wds.lookup (pids i) = some i then some .waiting else none } :
          WatchdogTimer))[inst]? =
        some { timeout := hkChCheckPd, function := .missingCh inst, timer := some .waiting } := by
      intro inst hinst
      have hfound : wds.lookup (pids inst) = some inst := (hlookup _ _).mpr ⟨hinst, rfl⟩
      rw [List.getElem?_map, List.getElem?_range hinst]
      simp only [Option.map_some, hfound, if_true]
    refine ⟨⟨⟨by simp, fun pid wd => ?_, fun inst hinst => ?_⟩, rfl,
      fun inst hinst object hobject => ?_⟩,
      rfl, by simp, by simp, by simp⟩
    · show wds.lookup pid = some wd ↔ ((List.range commandHandlersCount).map pids)[wd]? = some pid
      rw [hlookup]
      by_cases hwd : wd < commandHandlersCount <;> simp [hwd]
    · exact ⟨_, hwatchdog inst hinst, rfl, by simp⟩
    · have hsame := (hwatchdog inst hinst).symm.trans hobject
      rw [← Option.some.inj hsame]

/-- **Each command handler is watched behind each restart, if no load-balancer restart gives a
command handler the old process id of one that comes later, and only then.** -/
theorem watched_iff (hstart : startup pids = .ok h)
    (hnodup : ((List.range commandHandlersCount).map pids).Nodup)
    (hreports : Reports ((List.range commandHandlersCount).map pids) rs) :
    (∀ before, before <+: rs → Ensures (runs report before) (fun _ h => Watched h) h) ↔
      Spared ((List.range commandHandlersCount).map pids) rs :=
  (Stable.of_startup hstart hnodup).forall_watched hreports

/-- A command handler is restarted, all of them with the load balancer, where the second one gets
the old process id of the first, another one, and all of them again. -/
def severalRestarts : List Restart :=
  [.ch 1 103 true, .lb (fun i => [110, 100, 111].getD i 0) [0, 2], .ch 2 101 false,
    .lb (fun i => 120 + i) [1]]

theorem watched_iff_several : ∃ h, startup (fun i => 100 + i) = .ok h ∧
    ((∀ before, before <+: severalRestarts →
      Ensures (runs (fun _ => []) before) (fun _ h => Watched h) h) ↔
        Spared [100, 101, 102] severalRestarts) := by
  obtain ⟨h, hstart⟩ : ∃ h, startup (fun i => 100 + i) = .ok h := ⟨_, rfl⟩
  have hreports : Reports [100, 101, 102] severalRestarts := by
    refine ⟨⟨?_, by decide, by decide⟩, ⟨nofun, by decide, by decide⟩,
      ⟨?_, by decide, by decide⟩, ⟨nofun, by decide, by decide⟩, trivial⟩
    · rintro _ _ _ ⟨⟩
      decide
    · rintro _ _ _ ⟨⟩
      decide
  exact ⟨h, hstart, watched_iff hstart (by decide) hreports⟩

/-- The first command handler gets the old process id of the second one. -/
theorem not_watched_overwritten : ¬ ∀ (report : Err → Bytes) (pids : ℕ → ℕ) (h : Housekeeper)
    (rs : List Restart), startup pids = .ok h →
      ((List.range commandHandlersCount).map pids).Nodup →
        Reports ((List.range commandHandlersCount).map pids) rs →
          ∀ before, before <+: rs → Ensures (runs report before) (fun _ h => Watched h) h := by
  intro hclaim
  obtain ⟨h, hstart⟩ : ∃ h, startup (fun i => 100 + i) = .ok h := ⟨_, rfl⟩
  have hnodup : ((List.range commandHandlersCount).map (fun i => 100 + i)).Nodup := by decide
  have hreports : Reports ((List.range commandHandlersCount).map (fun i => 100 + i))
      [Restart.lb (fun i => 101 + i) []] := by
    refine ⟨⟨?_, by decide, by decide⟩, trivial⟩
    rintro _ _ _ ⟨⟩
  have hwatched := hclaim (fun _ => []) _ h _ hstart hnodup hreports _ (List.prefix_refl _)
  have hstable := Stable.of_startup hstart hnodup
  have hspares : ¬ (Restart.lb (fun i => 101 + i) []).Spares
      ((List.range commandHandlersCount).map (fun i => 100 + i)) :=
    fun hspares => hspares 0 1 (by decide) (by decide) rfl
  rw [runs, Ensures, wp_bind] at hwatched
  obtain ⟨_, h', hafter, hnot⟩ := Ensures.of_allows hwatched (hstable.not_watched hspares)
  exact hnot hafter

end ClickA.Housekeeping
