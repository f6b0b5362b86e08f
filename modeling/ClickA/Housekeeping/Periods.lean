import ClickA.Housekeeping.Survival
import ClickA.Machine.Run
import Mathlib.Order.Bounds.Basic

/-!
# The period of the command handlers

Housekeeping reports one period for all command handlers. It is found again whenever one of them
sets its own: but the loop over the others keeps the last of them only.

## Main definitions

* `controlStep`: a control message as a step
* `LargestInForce`: the period that is reported is the largest timeout
* `LastDecides`: no command handler has a larger timeout than the last other one and the new period

## Main results

* `PeriodRead.largest_iff`: when the period is the largest one behind a new period
* `always_largest_iff`: when it is in each state of a run
-/

namespace ClickA.Housekeeping

open Python Options Machine

/-- A control message, as a step. -/
def controlStep (h : Housekeeper) (m : Control) : Option Housekeeper :=
  match handleControl m.raw h with
  | .ok _ h' => some h'
  | .error _ _ => none

/-- A period comes from a command handler that is registered. -/
def Control.FromRegistered (h : Housekeeper) (m : Control) : Prop :=
  ∀ newPeriod, m.content = .period newPeriod → m.pid ∈ h.chPids

/-- The timeouts of the watchdogs of the command handlers. -/
def Housekeeper.timeoutsInForce (h : Housekeeper) : Set ℕ :=
  {timeout | ∃ pid ∈ h.chPids, h.chTimeout pid = some timeout}

/-- The period that is reported is the largest one in force. -/
def LargestInForce (h : Housekeeper) : Prop := IsGreatest h.timeoutsInForce h.chHeartbeatPeriod

/-- At a new period, no other command handler has a timeout that is larger than the period and than
the timeout of the last other one. -/
def LastDecides (h : Housekeeper) (m : Control) : Prop :=
  ∀ newPeriod last lastTimeout, m.content = .period newPeriod →
    (h.others m.pid).getLast? = some last → h.chTimeout last = some lastTimeout →
      ∀ pid ∈ h.others m.pid, ∀ timeout, h.chTimeout pid = some timeout →
        timeout ≤ max (max newPeriod hkChCheckPdMin) lastTimeout

variable {h h' : Housekeeper} {m : Control} {ms : List Control} {pids : ℕ → ℕ}
  {origin pid wd chPeriod timeout : ℕ}

/-! ## One message -/

/-- A process id is the one of a command handler. -/
theorem Registered.mem_chPids_iff (hreg : Registered h) :
    pid ∈ h.chPids ↔ ∃ wd < commandHandlersCount, h.chPids[wd]? = some pid := by
  rw [List.mem_iff_getElem?]
  constructor
  · rintro ⟨wd, hwd⟩
    exact ⟨wd, hreg.length ▸ (List.getElem?_eq_some_iff.mp hwd).1, hwd⟩
  · rintro ⟨wd, -, hwd⟩
    exact ⟨wd, hwd⟩

/-- When all timeouts are the period, it is the largest one. -/
theorem Registered.largestInForce (hreg : Registered h)
    (hall : ∀ wd < commandHandlersCount,
      timeoutOf h (.missingCh wd) = some h.chHeartbeatPeriod) : LargestInForce h := by
  have hsame (pid : ℕ) (hpid : pid ∈ h.chPids) : h.chTimeout pid = some h.chHeartbeatPeriod := by
    obtain ⟨wd, hlt, hwd⟩ := hreg.mem_chPids_iff.mp hpid
    rw [hreg.chTimeout_eq hwd, hall wd hlt]
  constructor
  · obtain ⟨pid, -, hwd, -⟩ := hreg.exists_of_lt (show 0 < commandHandlersCount by decide)
    have hpid := List.mem_of_getElem? hwd
    exact ⟨pid, hpid, hsame pid hpid⟩
  · rintro timeout ⟨pid, hpid, htimeout⟩
    exact (Option.some.inj (htimeout.symm.trans (hsame pid hpid))).le

/-- Behind a new period, the timeouts are the period and those of the other command handlers. -/
theorem PeriodRead.mem_timeoutsInForce (hread : PeriodRead origin wd chPeriod h h')
    (halive : Alive h) (hpid : h.chPids[wd]? = some origin) :
    timeout ∈ h'.timeoutsInForce ↔
      timeout = chPeriod ∨ ∃ pid ∈ h.others origin, h.chTimeout pid = some timeout := by
  have hpids := hread.chPids halive
  have hown : h'.chTimeout origin = some chPeriod := by
    rw [hread.alive.chTimeout_eq (hpids ▸ hpid), hread.own]
  have hother (pid : ℕ) (hmem : pid ∈ h.chPids) (hne : pid ≠ origin) :
      h'.chTimeout pid = h.chTimeout pid := by
    obtain ⟨i, hi⟩ := List.mem_iff_getElem?.mp hmem
    have hi' : i ≠ wd := by
      rintro rfl
      exact hne (Option.some.inj (hi.symm.trans hpid))
    rw [hread.alive.chTimeout_eq (hpids ▸ hi), halive.chTimeout_eq hi]
    exact hread.others _ fun hsame => hi' (Alert.missingCh.inj hsame)
  constructor
  · rintro ⟨pid, hmem, htimeout⟩
    rw [hpids] at hmem
    by_cases hne : pid = origin
    · subst hne
      exact .inl (Option.some.inj (htimeout.symm.trans hown))
    · rw [hother pid hmem hne] at htimeout
      exact .inr ⟨pid, List.mem_filter.mpr ⟨hmem, decide_eq_true hne⟩, htimeout⟩
  · rintro (rfl | ⟨pid, hmem, htimeout⟩)
    · exact ⟨origin, hpids ▸ List.mem_of_getElem? hpid, hown⟩
    · obtain ⟨hmem, hne⟩ := List.mem_filter.mp hmem
      refine ⟨pid, hpids ▸ hmem, ?_⟩
      rw [hother pid hmem (of_decide_eq_true hne), htimeout]

/-- Behind a new period, the period that is reported is the largest one if and only if no other
timeout is larger. -/
theorem PeriodRead.largest_iff (hread : PeriodRead origin wd chPeriod h h') (halive : Alive h)
    (hpid : h.chPids[wd]? = some origin) :
    LargestInForce h' ↔ ∀ pid ∈ h.others origin, ∀ timeout, h.chTimeout pid = some timeout →
      timeout ≤ h'.chHeartbeatPeriod := by
  constructor
  · intro hlargest pid hmem timeout htimeout
    exact hlargest.2 ((hread.mem_timeoutsInForce halive hpid).mpr (.inr ⟨pid, hmem, htimeout⟩))
  · intro hall
    obtain ⟨last, lastTimeout, hlast, hlastTimeout, hperiod⟩ := hread.period
    constructor
    · rw [hread.mem_timeoutsInForce halive hpid, hperiod]
      rcases max_choice chPeriod lastTimeout with hmax | hmax
      · exact .inl hmax
      · rw [hmax]
        exact .inr ⟨last, List.mem_of_getLast? hlast, hlastTimeout⟩
    · intro timeout htimeout
      rcases (hread.mem_timeoutsInForce halive hpid).mp htimeout with rfl | ⟨pid, hmem, htimeout⟩
      · rw [hperiod]
        exact le_max_left _ _
      · exact hall pid hmem timeout htimeout

/-! ## Runs -/

/-- A control message of a command handler that is registered is handled. The largest period is in
force behind it if and only if the last other command handler decides. -/
theorem exists_controlStep (halive : Alive h) (hfrom : m.FromRegistered h) :
    ∃ h', controlStep h m = some h' ∧ Read h h' ∧ (LargestInForce h' ↔ LastDecides h m) := by
  cases hcontent : m.content with
  | period newPeriod =>
    obtain ⟨payload, hpayload, hhandle⟩ := handleControl_period hcontent
    obtain ⟨wd, hpid⟩ := List.mem_iff_getElem?.mp (hfrom newPeriod hcontent)
    obtain ⟨_, h', hok, hread⟩ := ensures_iff.mp (ensures_handleChPeriod halive hpayload hpid)
    refine ⟨h', by rw [controlStep, hhandle, hok], hread.toRead, ?_⟩
    obtain ⟨last, lastTimeout, hlast, hlastTimeout, hperiod⟩ := hread.period
    rw [hread.largest_iff halive hpid, hperiod]
    constructor
    · intro hall newPeriod' last' lastTimeout' hcontent' hlast' hlastTimeout'
      obtain rfl : newPeriod = newPeriod' := Content.period.inj (hcontent.symm.trans hcontent')
      obtain rfl := Option.some.inj (hlast.symm.trans hlast')
      obtain rfl := Option.some.inj (hlastTimeout.symm.trans hlastTimeout')
      exact hall
    · intro hdecides
      exact hdecides newPeriod last lastTimeout hcontent hlast hlastTimeout
  | setHk payload =>
    obtain ⟨command, hlen, hhandle⟩ := handleControl_setHk hcontent
    obtain ⟨_, h', hok, hread, hall⟩ := ensures_iff.mp (ensures_handleHkCommand halive hlen)
    refine ⟨h', by rw [controlStep, hhandle, hok], hread, ?_⟩
    refine iff_of_true (hread.alive.toRegistered.largestInForce hall) ?_
    intro newPeriod last lastTimeout hperiod
    exact absurd (hcontent.symm.trans hperiod) (by simp)

/-- The period of a command handler that is not registered is not handled. -/
theorem fromRegistered_of_step (halive : Alive h) (hstep : controlStep h m = some h') :
    m.FromRegistered h := by
  intro newPeriod hcontent
  by_contra hpid
  obtain ⟨payload, hpayload, hhandle⟩ := handleControl_period hcontent
  obtain ⟨e, h', herror, -⟩ := (raises_handleChPeriod halive hpayload hpid).exists_error
  rw [controlStep, hhandle, herror] at hstep
  exact absurd hstep (by simp)

/-! ## Runs -/

/-- The messages of command handlers that are registered are all handled. -/
theorem Alive.isSome_run (halive : Alive h) (hfrom : ∀ m ∈ ms, m.FromRegistered h) :
    (run controlStep h ms).isSome := by
  induction ms generalizing h with
  | nil => rfl
  | cons m ms ih =>
    obtain ⟨h', hstep, hread, -⟩ := exists_controlStep halive (hfrom m List.mem_cons_self)
    rw [run_cons, hstep, Option.bind_some]
    refine ih hread.alive fun m' hm' newPeriod hcontent => ?_
    rw [hread.chPids halive]
    exact hfrom m' (List.mem_cons_of_mem m hm') newPeriod hcontent

/-- From a state in which the largest period is in force, it is so in each state of a run if and
only if the last other command handler always decides. -/
theorem Alive.always_largest (halive : Alive h) (hlargest : LargestInForce h)
    (hfrom : ∀ m ∈ ms, m.FromRegistered h) :
    Always controlStep LargestInForce h ms ↔ Along controlStep LastDecides h ms := by
  have hstep (h h' : Housekeeper) (m : Control) (halive : Alive h)
      (hstep : controlStep h m = some h') :
      Alive h' ∧ (LargestInForce h' ↔ LastDecides h m) := by
    obtain ⟨h'', hstep', hread, hiff⟩ :=
      exists_controlStep halive (fromRegistered_of_step halive hstep)
    obtain rfl := Option.some.inj (hstep.symm.trans hstep')
    exact ⟨hread.alive, hiff⟩
  refine always_iff_along (fun h (hinv : Alive h ∧ LargestInForce h) => hinv.2) ?_ ?_
    ⟨halive, hlargest⟩ (halive.isSome_run hfrom)
  · rintro h m h' ⟨halive, -⟩ hdecides hnext
    obtain ⟨halive', hiff⟩ := hstep h h' m halive hnext
    exact ⟨halive', hiff.mpr hdecides⟩
  · rintro h m h' ⟨halive, -⟩ hnot hnext
    exact mt (hstep h h' m halive hnext).2.mp hnot

/-- At the begin all watchdogs have the period that is reported. -/
theorem largestInForce_of_startup (hstart : startup pids = .ok h)
    (hnodup : ((List.range commandHandlersCount).map pids).Nodup) : LargestInForce h := by
  have hreg : Registered h := (Stable.of_startup hstart hnodup).toRegistered
  apply hreg.largestInForce
  unfold startup at hstart
  dsimp only at hstart
  split at hstart
  · exact absurd hstart (by simp)
  · intro wd hwd
    obtain rfl := Except.ok.inj hstart
    rw [timeoutOf, List.getElem?_map, List.getElem?_range hwd]
    rfl

/-- **The period that is reported is the largest one in force, in each state of a run, if no new
period finds a command handler with a larger timeout than the last other one, and only then.** -/
theorem always_largest_iff (hstart : startup pids = .ok h)
    (hnodup : ((List.range commandHandlersCount).map pids).Nodup)
    (hfrom : ∀ m ∈ ms, m.FromRegistered h) :
    Always controlStep LargestInForce h ms ↔ Along controlStep LastDecides h ms :=
  (Sound.of_startup hstart hnodup).alive.always_largest (largestInForce_of_startup hstart hnodup)
    hfrom

/-- Each command handler sets a period, the last one first. -/
def threePeriods : List Control :=
  [⟨2, 102, .period 150, _, rfl⟩, ⟨0, 100, .period 50, _, rfl⟩, ⟨1, 101, .period 200, _, rfl⟩]

theorem always_largest_iff_three : ∃ h, startup (fun i => 100 + i) = .ok h ∧
    (Always controlStep LargestInForce h threePeriods ↔
      Along controlStep LastDecides h threePeriods) := by
  obtain ⟨h, hstart⟩ : ∃ h, startup (fun i => 100 + i) = .ok h := ⟨_, rfl⟩
  refine ⟨h, hstart, ?_⟩
  apply always_largest_iff hstart (by decide)
  obtain rfl := Except.ok.inj hstart
  intro m hm newPeriod hcontent
  have hpid : m.pid ∈ [100, 101, 102] := by
    simp only [threePeriods, List.mem_cons, List.not_mem_nil, or_false] at hm
    obtain rfl | rfl | rfl := hm <;> decide
  exact hpid

/-- The first command handler sets a period. -/
def fiftySeconds : Control := ⟨0, 100, .period 50, _, rfl⟩

/-- The last command handler sets a period. -/
def twentySeconds : Control := ⟨2, 102, .period 20, _, rfl⟩

/-- The first command handler sets a period of 50 s, and then the last one a period of 20 s: the
period that is reported is 20 s. -/
theorem not_always_largest : ¬ ∀ (pids : ℕ → ℕ) (h : Housekeeper) (ms : List Control),
    startup pids = .ok h → ((List.range commandHandlersCount).map pids).Nodup →
      (∀ m ∈ ms, m.FromRegistered h) → Always controlStep LargestInForce h ms := by
  intro hclaim
  obtain ⟨h, hstart⟩ : ∃ h, startup (fun i => 100 + i) = .ok h := ⟨_, rfl⟩
  have hnodup : ((List.range commandHandlersCount).map fun i => 100 + i).Nodup := by decide
  have hfrom : ∀ m ∈ [fiftySeconds, twentySeconds], m.FromRegistered h := by
    obtain rfl := Except.ok.inj hstart
    intro m hm newPeriod hcontent
    rcases List.mem_cons.mp hm with rfl | hm
    · exact List.mem_of_getElem? (show [100, 101, 102][0]? = some 100 from rfl)
    · obtain rfl := List.mem_singleton.mp hm
      exact List.mem_of_getElem? (show [100, 101, 102][2]? = some 102 from rfl)
  -- the first message would have to leave the larger timeout to the last other handler
  have halong := ((Sound.of_startup hstart hnodup).alive.always_largest
    (largestInForce_of_startup hstart hnodup) hfrom).mp (hclaim _ h _ hstart hnodup hfrom)
  obtain ⟨h', hstep, hlast, hlastTimeout, hother, hotherTimeout⟩ :
      ∃ h', controlStep h fiftySeconds = some h' ∧ (h'.others 102).getLast? = some 101 ∧
        h'.chTimeout 101 = some 10 ∧ 100 ∈ h'.others 102 ∧ h'.chTimeout 100 = some 50 := by
    obtain rfl := Except.ok.inj hstart
    refine ⟨_, rfl, ?_, ?_, ?_, ?_⟩
    · rfl
    · rfl
    · exact List.mem_of_getElem? (show [100, 101][0]? = some 100 from rfl)
    · rfl
  have hle : 50 ≤ max (max 20 hkChCheckPdMin) 10 :=
    (halong.2 h' hstep).1 20 101 10 rfl hlast hlastTimeout 100 hother 50 hotherTimeout
  exact absurd hle (by decide)

end ClickA.Housekeeping
