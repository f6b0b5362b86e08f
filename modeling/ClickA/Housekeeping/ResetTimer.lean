import ClickA.Options
import Mathlib.Data.List.Infix
import Mathlib.Logic.Function.Basic

/-!
# The timers of the periodic checks

`housekeeping.py`: a `ResetTimer` starts a `threading.Timer`, whose callback calls a function and
then starts the next one. The callback runs in a thread of its own, while the main thread handles
`CMD_PL_SET_HK` commands, which cancel the timer, set its interval and start it.

## Main definitions

* `ResetTimer`: the timer, with every `threading.Timer` that it started
* `commandOps`: what a command does to the two timers
* `Checks`, `step`: the steps of the threads
* `lateCancels`: how often a command cancels a timer whose callback has begun

## Main results

* `balanced_run`: there is one chain of timers, and one more for each late cancel
* `pending_of_run`: when at most one timer is pending
-/

namespace ClickA.Housekeeping

open Options

/-- Where a `threading.Timer` is: it waits, it is cancelled, its callback has called the function,
or its callback is over. -/
inductive Phase
  | waiting
  | cancelled
  | alerted
  | over
deriving DecidableEq, Repr

/-- A `threading.Timer` that was started. -/
structure Timer where
  interval : ℕ
  phase : Phase
deriving DecidableEq, Repr

/-- A `ResetTimer`: the timers that it started, in their order, and which of them is
`self.timer`. -/
structure ResetTimer where
  interval : ℕ
  timers : List Timer := []
  timer : Option ℕ := none
deriving DecidableEq, Repr

namespace ResetTimer

/-- Where a timer is, if it was started. -/
def phase (t : ResetTimer) (i : ℕ) : Option Phase := t.timers[i]?.map Timer.phase

/-- A timer that was started goes to another phase. -/
def setPhase (t : ResetTimer) (i : ℕ) (phase : Phase) : ResetTimer :=
  match t.timers[i]? with
  | some timer => { t with timers := t.timers.set i { timer with phase } }
  | none => t

/-- `start`. -/
def start (t : ResetTimer) : ResetTimer :=
  { t with timers := t.timers ++ [⟨t.interval, .waiting⟩], timer := some t.timers.length }

/-- `set_interval`. -/
def setInterval (t : ResetTimer) (interval : ℕ) : ResetTimer := { t with interval }

/-- `cancel`, which has no effect once the callback has begun. Before the first `start` it raises
`AttributeError`. -/
def cancel (t : ResetTimer) : Option ResetTimer := do
  let i ← t.timer
  return if t.phase i = some .waiting then t.setPhase i .cancelled else t

/-- The first step of the callback of a timer: the function is called. -/
def alert (t : ResetTimer) (i : ℕ) : Option ResetTimer :=
  if t.phase i = some .waiting then some (t.setPhase i .alerted) else none

/-- The second step of the callback: the next timer is started. -/
def restart (t : ResetTimer) (i : ℕ) : Option ResetTimer :=
  if t.phase i = some .alerted then some (t.setPhase i .over).start else none

/-- How many timers are in one of some phases. -/
def count (t : ResetTimer) (phases : List Phase) : ℕ := t.timers.countP (·.phase ∈ phases)

/-- How many timers are pending. -/
def pending (t : ResetTimer) : ℕ := t.count [.waiting]

/-- How many timers are pending, or will be followed by one that is. -/
def live (t : ResetTimer) : ℕ := t.count [.waiting, .alerted]

/-- No callback is in progress. -/
def Quiet (t : ResetTimer) : Prop := ∀ timer ∈ t.timers, timer.phase ≠ .alerted

instance (t : ResetTimer) : Decidable t.Quiet := inferInstanceAs (Decidable (∀ _ ∈ _, _))

variable {t : ResetTimer} {i j : ℕ} {phase phase' : Phase} {phases : List Phase}

@[simp] theorem interval_setPhase : (t.setPhase i phase).interval = t.interval := by
  unfold setPhase
  split <;> rfl

@[simp] theorem timer_setPhase : (t.setPhase i phase).timer = t.timer := by
  unfold setPhase
  split <;> rfl

@[simp] theorem interval_start : t.start.interval = t.interval := rfl

@[simp] theorem count_start :
    t.start.count phases = t.count phases + if .waiting ∈ phases then 1 else 0 := by
  by_cases h : Phase.waiting ∈ phases <;> simp [start, count, h]

theorem exists_of_phase (h : t.phase i = some phase) :
    ∃ hi : i < t.timers.length, t.timers[i].phase = phase ∧
      ∀ phase', t.setPhase i phase' =
        { t with timers := t.timers.set i { t.timers[i] with phase := phase' } } := by
  obtain ⟨timer, htimer, hphase⟩ := Option.map_eq_some_iff.mp h
  obtain ⟨hi, rfl⟩ := List.getElem?_eq_some_iff.mp htimer
  refine ⟨hi, hphase, fun phase' => ?_⟩
  rw [setPhase, htimer]

/-- A timer that goes to another phase is counted there. -/
theorem count_setPhase (phase' : Phase) (phases : List Phase) (h : t.phase i = some phase) :
    (t.setPhase i phase').count phases + (if phase ∈ phases then 1 else 0) =
      t.count phases + if phase' ∈ phases then 1 else 0 := by
  obtain ⟨hi, hphase, hset⟩ := exists_of_phase h
  have hpos : phase ∈ phases → 0 < t.count phases := by
    intro hmem
    apply List.countP_pos_iff.mpr
    exact ⟨t.timers[i], List.getElem_mem hi, by simpa [hphase] using hmem⟩
  rw [hset, count, List.countP_set hi, hphase]
  simp only [decide_eq_true_eq]
  split <;> split <;> simp_all [count]

theorem phase_setPhase_self (h : t.phase i = some phase) :
    (t.setPhase i phase').phase i = some phase' := by
  obtain ⟨hi, -, hset⟩ := exists_of_phase h
  rw [hset]
  simp [ResetTimer.phase, hi]

theorem phase_setPhase_ne (hne : i ≠ j) : (t.setPhase i phase').phase j = t.phase j := by
  unfold setPhase
  split
  · simp [ResetTimer.phase, hne]
  · rfl

/-- A timer that is in a phase behind `set_phase` has its interval from before. -/
theorem mem_setPhase {timer : Timer} (h : timer ∈ (t.setPhase i phase).timers)
    (hne : timer.phase ≠ phase) : timer ∈ t.timers := by
  unfold setPhase at h
  split at h
  · rcases List.mem_or_eq_of_mem_set h with hmem | rfl
    · exact hmem
    · exact absurd rfl hne
  · exact h

end ResetTimer

/-! ## The threads -/

/-- The two periodic checks. -/
inductive Check
  | fpga
  | sys
deriving DecidableEq, Repr

/-- What the main thread does to a timer in one step. -/
inductive Op
  | cancel
  | setInterval (interval : ℕ)
  | start
deriving DecidableEq, Repr

def Op.run : Op → ResetTimer → Option ResetTimer
  | .cancel, t => t.cancel
  | .setInterval interval, t => some (t.setInterval interval)
  | .start, t => some t.start

/-- What a command does to one timer. -/
def resetOps (interval : ℕ) : List Op := [.cancel, .setInterval interval, .start]

/-- `handle_hk_command`, on the timers of the checks. -/
def commandOps (newFpgaCheckPd newSysCheckPd : ℕ) : List (Check × Op) :=
  (resetOps (max newFpgaCheckPd hkFpgaCheckPdMin)).map (Check.fpga, ·) ++
    (resetOps (max newSysCheckPd hkSysCheckPdMin)).map (Check.sys, ·)

/-- The timers, and what the main thread still does to them in the command that it handles. -/
structure Checks where
  timer : Check → ResetTimer
  program : List (Check × Op)

/-- `run` starts the timers first. -/
def Checks.start : Checks where
  timer
    | .fpga => { interval := hkFpgaCheckPd }
    | .sys => { interval := hkSysCheckPd }
  program := [(.fpga, .start), (.sys, .start)]

/-- A step of a thread: a command arrives, the main thread goes on with it, and the callback of a
timer calls its function and then starts the next timer. -/
inductive Event
  | command (newFpgaCheckPd newSysCheckPd : ℕ)
  | main
  | alert (check : Check) (i : ℕ)
  | restart (check : Check) (i : ℕ)
deriving DecidableEq, Repr

namespace Checks

/-- One timer changes. -/
def set (s : Checks) (check : Check) (t : ResetTimer) : Checks :=
  { s with timer := Function.update s.timer check t }

/-- One step. The next command is handled when the one before it is over. -/
def step (s : Checks) : Event → Option Checks
  | .command newFpgaCheckPd newSysCheckPd =>
    if s.program = [] then some { s with program := commandOps newFpgaCheckPd newSysCheckPd }
    else none
  | .main =>
    match s.program with
    | [] => none
    | (check, op) :: program => do return { s.set check (← op.run (s.timer check)) with program }
  | .alert check i => do return s.set check (← (s.timer check).alert i)
  | .restart check i => do return s.set check (← (s.timer check).restart i)

/-- The steps of a run. -/
def run : Checks → List Event → Option Checks
  | s, [] => some s
  | s, e :: es => do run (← s.step e) es

/-- The main thread cancels a timer whose callback has begun. -/
def Late (s : Checks) (check : Check) (e : Event) : Prop :=
  e = .main ∧ s.program.head? = some (check, .cancel) ∧
    (s.timer check).timer.bind (s.timer check).phase = some .alerted

instance (s : Checks) (check : Check) (e : Event) : Decidable (s.Late check e) :=
  inferInstanceAs (Decidable (_ ∧ _ ∧ _))

/-- How many late cancels of a timer a run has. -/
def lateCancels (check : Check) : Checks → List Event → ℕ
  | _, [] => 0
  | s, e :: es =>
    (if s.Late check e then 1 else 0) + ((s.step e).map (lateCancels check · es)).getD 0

/-- What the main thread still does to one of the timers. -/
def ops (s : Checks) (check : Check) : List Op :=
  s.program.filterMap fun p => if p.1 = check then some p.2 else none

end Checks

/-! ## Chains of timers

A timer that waits, or whose callback will start the next, is a chain. A command ends the chain of
`self.timer` and starts another, unless the callback has begun. -/

/-- There are `k + 1` chains, counted as they will be behind the command. -/
structure Balanced (t : ResetTimer) (ops : List Op) (k : ℕ) : Prop where
  shape : ∃ interval, ops <:+ resetOps interval
  balance : t.live + ops.count .start = 1 + k + ops.count .cancel
  current : t.timer.bind t.phase = some .waiting ∨ t.timer.bind t.phase = some .alerted ∨
    (Op.start ∈ ops ∧ Op.cancel ∉ ops)
  interval : k = 0 → ∀ timer ∈ t.timers, timer.phase = .waiting → timer.interval = t.interval

namespace Balanced

variable {t t' : ResetTimer} {ops : List Op} {k i : ℕ}

/-- The next command is handled. -/
theorem command (h : Balanced t [] k) (interval : ℕ) : Balanced t (resetOps interval) k where
  shape := ⟨interval, List.suffix_refl _⟩
  balance := by
    have hbalance := h.balance
    simp [resetOps] at hbalance ⊢
    omega
  current := by
    rcases h.current with hwaiting | halerted | ⟨hmem, -⟩
    · exact .inl hwaiting
    · exact .inr (.inl halerted)
    · exact absurd hmem List.not_mem_nil
  interval := h.interval

theorem tail {op : Op} (h : ∃ interval, op :: ops <:+ resetOps interval) :
    ∃ interval, ops <:+ resetOps interval := by
  obtain ⟨interval, hsuffix⟩ := h
  exact ⟨interval, (List.suffix_cons op ops).trans hsuffix⟩

/-- The operations of a command are done in their order. -/
theorem eq_of_cons {op : Op} (h : ∃ interval, op :: ops <:+ resetOps interval) :
    (op = .cancel ∧ ∃ interval, ops = [.setInterval interval, .start]) ∨
      ((∃ interval, op = .setInterval interval) ∧ ops = [.start]) ∨ (op = .start ∧ ops = []) := by
  obtain ⟨interval, hsuffix⟩ := h
  simp only [resetOps, List.suffix_cons_iff, List.suffix_nil] at hsuffix
  rcases hsuffix with h | h | h | h
  · obtain ⟨rfl, rfl⟩ := List.cons.inj h
    exact .inl ⟨rfl, interval, rfl⟩
  · obtain ⟨rfl, rfl⟩ := List.cons.inj h
    exact .inr (.inl ⟨⟨interval, rfl⟩, rfl⟩)
  · obtain ⟨rfl, rfl⟩ := List.cons.inj h
    exact .inr (.inr ⟨rfl, rfl⟩)
  · exact absurd h (by simp)

/-- Another chain is there, if the callback of the timer that is cancelled has begun. -/
theorem cancel (h : Balanced t (.cancel :: ops) k) : ∃ t', t.cancel = some t' ∧
    Balanced t' ops (k + if t.timer.bind t.phase = some .alerted then 1 else 0) := by
  have hbalance := h.balance
  obtain ⟨-, interval, rfl⟩ : Op.cancel = .cancel ∧ ∃ interval,
    ops = [.setInterval interval, .start] := by
    simpa using eq_of_cons h.shape
  have hcurrent : Op.start ∈ [Op.setInterval interval, Op.start] ∧
      Op.cancel ∉ [Op.setInterval interval, Op.start] := by simp
  -- the current timer waits, or its callback has begun
  rcases h.current with hwaiting | halerted | ⟨-, hnot⟩
  · obtain ⟨i, htimer, hphase⟩ := Option.bind_eq_some_iff.mp hwaiting
    refine ⟨t.setPhase i .cancelled, by simp [ResetTimer.cancel, htimer, hphase], ?_⟩
    rw [hwaiting, if_neg (by decide)]
    refine ⟨tail h.shape, ?_, .inr (.inr hcurrent), ?_⟩
    · have hcount := ResetTimer.count_setPhase .cancelled [.waiting, .alerted] hphase
      simp [ResetTimer.live] at hcount hbalance ⊢
      omega
    · intro hk timer hmem htimer
      rw [ResetTimer.interval_setPhase]
      have hne : timer.phase ≠ .cancelled := by simp [htimer]
      exact h.interval hk timer (ResetTimer.mem_setPhase hmem hne) htimer
  · obtain ⟨i, htimer, hphase⟩ := Option.bind_eq_some_iff.mp halerted
    refine ⟨t, by simp [ResetTimer.cancel, htimer, hphase], ?_⟩
    rw [halerted, if_pos rfl]
    refine ⟨tail h.shape, ?_, .inr (.inr hcurrent), fun hk => absurd hk (by omega)⟩
    simp at hbalance ⊢
    omega
  · exact absurd List.mem_cons_self hnot

/-- While a command without a late cancel sets the interval, no timer waits. -/
theorem setInterval {interval : ℕ} (h : Balanced t (.setInterval interval :: ops) k) :
    Balanced (t.setInterval interval) ops k := by
  obtain ⟨-, rfl⟩ : (∃ interval', Op.setInterval interval = .setInterval interval') ∧
      ops = [.start] := by simpa using eq_of_cons h.shape
  have hbalance : t.live + 1 = 1 + k := by simpa using h.balance
  refine ⟨tail h.shape, ?_, .inr (.inr (by simp)), fun hk timer hmem hphase => ?_⟩
  · show t.live + 1 = 1 + k + 0
    exact hbalance
  · have hlive : 0 < t.live := by
      apply List.countP_pos_iff.mpr
      exact ⟨timer, hmem, by simp [hphase]⟩
    omega

theorem interval_start (h : ∀ timer ∈ t.timers, timer.phase = .waiting →
    timer.interval = t.interval) :
    ∀ timer ∈ t.start.timers, timer.phase = .waiting → timer.interval = t.start.interval := by
  intro timer hmem hphase
  rcases List.mem_append.mp hmem with hmem | hmem
  · exact h timer hmem hphase
  · rw [List.mem_singleton.mp hmem]
    rfl

theorem current_start : t.start.timer.bind t.start.phase = some .waiting := by
  simp [ResetTimer.start, ResetTimer.phase]

theorem start (h : Balanced t (.start :: ops) k) : Balanced t.start ops k := by
  obtain ⟨-, rfl⟩ : Op.start = .start ∧ ops = [] := by simpa using eq_of_cons h.shape
  refine ⟨tail h.shape, ?_, .inl current_start, fun hk => interval_start (h.interval hk)⟩
  have hbalance := h.balance
  simp [ResetTimer.live] at hbalance ⊢
  omega

/-- The chain goes on. -/
theorem alert (h : Balanced t ops k) (halert : t.alert i = some t') : Balanced t' ops k := by
  unfold ResetTimer.alert at halert
  split at halert
  · next hphase =>
    obtain rfl := Option.some.inj halert
    refine ⟨h.shape, ?_, ?_, ?_⟩
    · have hcount := ResetTimer.count_setPhase .alerted [.waiting, .alerted] hphase
      have hbalance := h.balance
      simp [ResetTimer.live] at hcount hbalance ⊢
      omega
    -- the callback may be that of another timer
    · rw [ResetTimer.timer_setPhase]
      rcases hcurrent : t.timer with _ | j
      · simpa [hcurrent] using h.current
      · by_cases hij : i = j
        · subst hij
          exact .inr (.inl (ResetTimer.phase_setPhase_self hphase))
        · simpa [hcurrent, ResetTimer.phase_setPhase_ne hij] using h.current
    · intro hk timer hmem hwaiting
      rw [ResetTimer.interval_setPhase]
      have hne : timer.phase ≠ .alerted := by simp [hwaiting]
      exact h.interval hk timer (ResetTimer.mem_setPhase hmem hne) hwaiting
  · exact absurd halert (by simp)

/-- The chain goes on with the next timer. -/
theorem restart (h : Balanced t ops k) (hrestart : t.restart i = some t') : Balanced t' ops k := by
  unfold ResetTimer.restart at hrestart
  split at hrestart
  · next hphase =>
    obtain rfl := Option.some.inj hrestart
    refine ⟨h.shape, ?_, .inl current_start, fun hk => interval_start ?_⟩
    · have hcount := ResetTimer.count_setPhase .over [.waiting, .alerted] hphase
      have hbalance := h.balance
      simp [ResetTimer.live] at hcount hbalance ⊢
      omega
    · intro timer hmem hwaiting
      rw [ResetTimer.interval_setPhase]
      have hne : timer.phase ≠ .over := by simp [hwaiting]
      exact h.interval hk timer (ResetTimer.mem_setPhase hmem hne) hwaiting
  · exact absurd hrestart (by simp)

end Balanced

/-! ## Runs -/

namespace Checks

variable {s s' : Checks} {check : Check} {e : Event} {es : List Event} {k : ℕ}

@[simp] theorem ops_cons (timer : Check → ResetTimer) (op : Op) (program : List (Check × Op)) :
    ops ⟨timer, (check, op) :: program⟩ check = op :: ops ⟨timer, program⟩ check := by
  simp [ops]

theorem ops_cons_of_ne {check' : Check} (hne : check' ≠ check) (timer : Check → ResetTimer)
    (op : Op)
    (program : List (Check × Op)) :
    ops ⟨timer, (check', op) :: program⟩ check = ops ⟨timer, program⟩ check := by
  simp [ops, hne]

theorem ops_commandOps (check : Check) (timer : Check → ResetTimer)
    (newFpgaCheckPd newSysCheckPd : ℕ) :
    ∃ interval, ops ⟨timer, commandOps newFpgaCheckPd newSysCheckPd⟩ check =
      resetOps interval := by
  cases check
  · exact ⟨max newFpgaCheckPd hkFpgaCheckPdMin, by simp [ops, commandOps, resetOps]⟩
  · exact ⟨max newSysCheckPd hkSysCheckPdMin, by simp [ops, commandOps, resetOps]⟩

/-- What is balanced stays so when another timer changes. -/
theorem balanced_set {check' : Check} {t : ResetTimer}
    (h : Balanced (s.timer check) (s.ops check) k)
    (ht : check' = check → Balanced t (s.ops check) k) :
    Balanced ((s.set check' t).timer check) ((s.set check' t).ops check) k := by
  by_cases hsame : check' = check
  · subst hsame
    have htimer : (s.set check' t).timer check' = t := Function.update_self ..
    rw [htimer]
    exact ht rfl
  · have htimer : (s.set check' t).timer check = s.timer check :=
      Function.update_of_ne (Ne.symm hsame) ..
    rw [htimer]
    exact h

/-- The main thread goes on. -/
theorem balanced_main (h : Balanced (s.timer check) (s.ops check) k)
    (hstep : s.step .main = some s') :
    Balanced (s'.timer check) (s'.ops check) (k + if s.Late check .main then 1 else 0) := by
  obtain ⟨timer, program⟩ := s
  cases program with
  | nil => exact absurd hstep (by simp [step])
  | cons p program =>
    obtain ⟨check', op⟩ := p
    obtain ⟨t, ht, hs'⟩ := Option.bind_eq_some_iff.mp hstep
    obtain rfl := Option.some.inj hs'
    by_cases hsame : check' = check
    · subst hsame
      have htimer : Function.update timer check' t check' = t := Function.update_self ..
      rw [ops_cons] at h
      show Balanced (Function.update timer check' t check') (ops ⟨timer, program⟩ check') _
      rw [htimer]
      cases op with
      | cancel =>
        obtain ⟨t', ht', hbalanced⟩ := h.cancel
        obtain rfl := Option.some.inj (ht.symm.trans ht')
        simpa [Late] using hbalanced
      | setInterval interval =>
        obtain rfl := Option.some.inj ht
        simpa [Late] using h.setInterval
      | start =>
        obtain rfl := Option.some.inj ht
        simpa [Late] using h.start
    · have htimer : Function.update timer check' t check = timer check :=
        Function.update_of_ne (Ne.symm hsame) ..
      rw [ops_cons_of_ne hsame] at h
      show Balanced (Function.update timer check' t check) (ops ⟨timer, program⟩ check) _
      rw [htimer]
      simpa [Late, hsame] using h

/-- One step, with one chain more for a late cancel. -/
theorem balanced_step (h : Balanced (s.timer check) (s.ops check) k) (hstep : s.step e = some s') :
    Balanced (s'.timer check) (s'.ops check) (k + if s.Late check e then 1 else 0) := by
  cases e with
  | main => exact balanced_main h hstep
  | command newFpgaCheckPd newSysCheckPd =>
    rw [if_neg (by simp [Late])]
    by_cases hnil : s.program = []
    · rw [step, if_pos hnil] at hstep
      obtain rfl := Option.some.inj hstep
      obtain ⟨interval, hops⟩ := ops_commandOps check s.timer newFpgaCheckPd newSysCheckPd
      have hnone : s.ops check = [] := by simp [ops, hnil]
      rw [hops]
      rw [hnone] at h
      exact h.command interval
    · rw [step, if_neg hnil] at hstep
      exact absurd hstep (by simp)
  | alert check' i =>
    rw [if_neg (by simp [Late])]
    obtain ⟨t, ht, hs'⟩ := Option.bind_eq_some_iff.mp hstep
    obtain rfl := Option.some.inj hs'
    refine balanced_set h ?_
    rintro rfl
    exact h.alert ht
  | restart check' i =>
    rw [if_neg (by simp [Late])]
    obtain ⟨t, ht, hs'⟩ := Option.bind_eq_some_iff.mp hstep
    obtain rfl := Option.some.inj hs'
    refine balanced_set h ?_
    rintro rfl
    exact h.restart ht

/-- **There is one chain of timers, and one more for each late cancel.** -/
theorem balanced_run (h : Balanced (s.timer check) (s.ops check) k) (hrun : run s es = some s') :
    Balanced (s'.timer check) (s'.ops check) (k + lateCancels check s es) := by
  induction es generalizing s k with
  | nil =>
    obtain rfl := Option.some.inj hrun
    exact h
  | cons e es ih =>
    obtain ⟨s₁, hstep, hrun⟩ := Option.bind_eq_some_iff.mp hrun
    have hrest := ih (balanced_step h hstep) hrun
    rw [lateCancels, hstep, ← Nat.add_assoc]
    exact hrest

theorem balanced_start (check : Check) : Balanced (start.timer check) (start.ops check) 0 := by
  have hops : start.ops check = [.start] := by cases check <;> rfl
  have hlive : (start.timer check).live = 0 := by cases check <;> rfl
  have hnone : (start.timer check).timers = [] := by cases check <;> rfl
  refine ⟨⟨0, ?_⟩, by simp [hops, hlive], .inr (.inr (by simp [hops])), by simp [hnone]⟩
  rw [hops]
  exact ⟨[.cancel, .setInterval 0], rfl⟩

/-- Once no callback is in progress, what lives is pending. -/
theorem pending_eq_live {t : ResetTimer} (h : t.Quiet) : t.pending = t.live := by
  apply List.countP_congr
  intro timer hmem
  have hne := h timer hmem
  simp [hne]

/-- **Once no callback of a timer is in progress, at most one is pending, with the commanded
interval, if no command has cancelled it late; and behind a command, only then.** -/
theorem pending_of_run (hrun : run start es = some s) (hquiet : (s.timer check).Quiet) :
    (lateCancels check start es = 0 → (s.timer check).pending ≤ 1 ∧
      ∀ timer ∈ (s.timer check).timers, timer.phase = .waiting →
        timer.interval = (s.timer check).interval) ∧
    (s.program = [] → ((s.timer check).pending ≤ 1 ↔ lateCancels check start es = 0)) := by
  have h := balanced_run (balanced_start check) hrun
  rw [Nat.zero_add] at h
  have hbalance := h.balance
  rw [pending_eq_live hquiet]
  constructor
  · intro hzero
    have hcount : (s.ops check).count .cancel ≤ (s.ops check).count .start := by
      obtain ⟨interval, hsuffix⟩ := h.shape
      simp only [resetOps, List.suffix_cons_iff, List.suffix_nil] at hsuffix
      rcases hsuffix with h | h | h | h <;> simp [h]
    exact ⟨by omega, h.interval hzero⟩
  · intro hnil
    have hops : s.ops check = [] := by simp [ops, hnil]
    rw [hops] at hbalance
    simp at hbalance
    omega

/-- A check, and then a command. -/
theorem pending_of_run_command : ∃ s, run start [.main, .main, .alert .fpga 0, .restart .fpga 0,
    .command 3 2, .main, .main, .main, .main, .main, .main] = some s ∧
      (s.timer .fpga).pending ≤ 1 := by
  have hrun : ∃ s, run start [.main, .main, .alert .fpga 0, .restart .fpga 0, .command 3 2, .main,
      .main, .main, .main, .main, .main] = some s ∧ (s.timer .fpga).Quiet := ⟨_, rfl, by decide⟩
  obtain ⟨s, hrun, hquiet⟩ := hrun
  exact ⟨s, hrun, ((pending_of_run hrun hquiet).1 (by decide)).1⟩

/-- A command is handled between the two steps of the callback: both start a timer. -/
theorem not_pending_between : ¬ ∀ (check : Check) (es : List Event) (s : Checks),
    run start es = some s → (s.timer check).Quiet → (s.timer check).pending ≤ 1 := by
  intro hclaim
  have hpending := hclaim .fpga [.main, .main, .alert .fpga 0, .command 5 1, .main, .main, .main,
    .restart .fpga 0, .main, .main, .main] _ rfl (by decide)
  exact absurd hpending (by decide)

end Checks

end ClickA.Housekeeping
