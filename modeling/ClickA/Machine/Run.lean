import Mathlib.Data.List.Basic

/-!
# Runs of a machine

A machine goes from state to state by actions. An action may be impossible in a state.

## Main definitions

* `run`: the state behind some actions
* `Always`: what holds in each state of a run
* `Along`: what holds of each action of a run, in the state before it

## Main results

* `along_of_invariant`: what an invariant implies holds of each action
* `run_eq_of_measure`: a run arrives at a state when each of its actions decreases a measure
* `along_congr`: two conditions on actions that agree under an invariant
* `always_of_along`, `along_of_always`, `always_iff_along`: a property holds in each state of a run
  if and only if a condition holds before each action
-/

namespace Machine

variable {σ α : Type} {step : σ → α → Option σ} {s s' : σ} {a : α} {as : List α} {Inv P : σ → Prop}
  {C C' : σ → α → Prop}

/-- The state behind some actions, if each of them is possible. -/
def run (step : σ → α → Option σ) : σ → List α → Option σ
  | s, [] => some s
  | s, a :: as => (step s a).bind fun s' => run step s' as

/-- In each state of a run. -/
def Always (step : σ → α → Option σ) (P : σ → Prop) : σ → List α → Prop
  | s, [] => P s
  | s, a :: as => P s ∧ ∀ s', step s a = some s' → Always step P s' as

/-- Before each action of a run. -/
def Along (step : σ → α → Option σ) (C : σ → α → Prop) : σ → List α → Prop
  | _, [] => True
  | s, a :: as => C s a ∧ ∀ s', step s a = some s' → Along step C s' as

theorem run_cons : run step s (a :: as) = (step s a).bind fun s' => run step s' as := rfl

/-- The first action of a run is possible, and the run goes on behind it. -/
theorem run_cons_eq_some {s'' : σ} :
    run step s (a :: as) = some s'' ↔ ∃ s', step s a = some s' ∧ run step s' as = some s'' :=
  Option.bind_eq_some_iff

/-- A run is possible when each action is. -/
theorem isSome_run (h : ∀ s a, (step s a).isSome) (s : σ) (as : List α) :
    (run step s as).isSome := by
  induction as generalizing s with
  | nil => rfl
  | cons a as ih =>
    obtain ⟨s', hstep⟩ := Option.isSome_iff_exists.mp (h s a)
    rw [run_cons, hstep]
    exact ih s'

/-- What holds in each state of a run holds in its first one. -/
theorem Always.first (h : Always step P s as) : P s := by
  cases as with
  | nil => exact h
  | cons a as => exact h.1

/-- What holds in each state of a run holds at its end. -/
theorem Always.last (h : Always step P s as) (hrun : run step s as = some s') : P s' := by
  induction as generalizing s with
  | nil =>
    obtain rfl := Option.some.inj hrun
    exact h
  | cons a as ih =>
    obtain ⟨s₁, hstep, hrest⟩ := run_cons_eq_some.mp hrun
    exact ih (h.2 s₁ hstep) hrest

/-- A condition on actions that holds when a property does before and behind them. -/
theorem Always.along (h : Always step P s as)
    (hC : ∀ s a, P s → (∀ s', step s a = some s' → P s') → C s a) : Along step C s as := by
  induction as generalizing s with
  | nil => trivial
  | cons a as ih =>
    obtain ⟨hnow, hthen⟩ := h
    exact ⟨hC s a hnow fun s' hstep => (hthen s' hstep).first, fun s' hstep => ih (hthen s' hstep)⟩

/-- The condition on an action behind others. -/
theorem Along.behind {bs : List α} (h : Along step C s (as ++ bs))
    (hrun : run step s as = some s') :
    Along step C s' bs := by
  induction as generalizing s with
  | nil =>
    obtain rfl := Option.some.inj hrun
    exact h
  | cons a as ih =>
    obtain ⟨s₁, hstep, hrest⟩ := run_cons_eq_some.mp hrun
    exact ih (h.2 s₁ hstep) hrest

/-- A condition on actions that an invariant implies. -/
theorem along_of_invariant (I : σ → Prop) (hkeeps : ∀ s a s', I s → step s a = some s' → I s')
    (hC : ∀ s a, I s → C s a) (hs : I s) : Along step C s as := by
  induction as generalizing s with
  | nil => trivial
  | cons a as ih => exact ⟨hC s a hs, fun s' hstep => ih (hkeeps s a s' hs hstep)⟩

/-- A run arrives at a state, and stays there, when each of its actions decreases a measure that is
zero in that state only. -/
theorem run_eq_of_measure (μ : σ → ℕ)
    (hstep : ∀ s, Inv s → ∀ a ∈ as, ∃ s', step s a = some s' ∧ Inv s' ∧ μ s' ≤ μ s - 1)
    (hend : ∀ s, Inv s → μ s = 0 → s = s') (hs : Inv s) (hlong : μ s ≤ as.length) :
    run step s as = some s' := by
  induction as generalizing s with
  | nil => exact congrArg some (hend s hs (Nat.le_zero.mp hlong))
  | cons a as ih =>
    obtain ⟨s₁, hfirst, hs₁, hless⟩ := hstep s hs a List.mem_cons_self
    rw [run_cons, hfirst, Option.bind_some]
    rw [List.length_cons] at hlong
    exact ih (fun s hs a ha => hstep s hs a (List.mem_cons_of_mem _ ha)) hs₁ (by omega)

/-- Conditions that agree on each action that is possible, under an invariant. -/
theorem along_congr (hkeeps : ∀ s a s', Inv s → step s a = some s' → Inv s')
    (hagree : ∀ s a s', Inv s → step s a = some s' → (C s a ↔ C' s a)) (hs : Inv s)
    (hrun : (run step s as).isSome) : Along step C s as ↔ Along step C' s as := by
  induction as generalizing s with
  | nil => exact Iff.rfl
  | cons a as ih =>
    obtain ⟨s'', hrun⟩ := Option.isSome_iff_exists.mp hrun
    obtain ⟨s', hstep, hrest⟩ := run_cons_eq_some.mp hrun
    have hlater := ih (hkeeps s a s' hs hstep) (Option.isSome_iff_exists.mpr ⟨s'', hrest⟩)
    constructor
    · rintro ⟨hnow, hthen⟩
      refine ⟨(hagree s a s' hs hstep).mp hnow, fun s₁ hs₁ => ?_⟩
      obtain rfl := Option.some.inj (hstep.symm.trans hs₁)
      exact hlater.mp (hthen s' hstep)
    · rintro ⟨hnow, hthen⟩
      refine ⟨(hagree s a s' hs hstep).mpr hnow, fun s₁ hs₁ => ?_⟩
      obtain rfl := Option.some.inj (hstep.symm.trans hs₁)
      exact hlater.mpr (hthen s' hstep)

/-- A property holds in each state of a run when a condition holds before each action, if an action
under the condition keeps an invariant that implies the property. -/
theorem always_of_along (hholds : ∀ s, Inv s → P s)
    (hkeeps : ∀ s a s', Inv s → C s a → step s a = some s' → Inv s') (hs : Inv s)
    (h : Along step C s as) : Always step P s as := by
  induction as generalizing s with
  | nil => exact hholds s hs
  | cons a as ih =>
    obtain ⟨hnow, hthen⟩ := h
    exact ⟨hholds s hs, fun s' hstep => ih (hkeeps s a s' hs hnow hstep) (hthen s' hstep)⟩

/-- A condition holds before each action of a run when a property holds in each state, if an action
without the condition breaks the property. -/
theorem along_of_always (hkeeps : ∀ s a s', Inv s → C s a → step s a = some s' → Inv s')
    (hbreaks : ∀ a ∈ as, ∀ s s', Inv s → ¬ C s a → step s a = some s' → ¬ P s') (hs : Inv s)
    (hrun : (run step s as).isSome) (h : Always step P s as) : Along step C s as := by
  induction as generalizing s with
  | nil => trivial
  | cons a as ih =>
    obtain ⟨s'', hrun⟩ := Option.isSome_iff_exists.mp hrun
    obtain ⟨s', hstep, hrest⟩ := run_cons_eq_some.mp hrun
    have hnext : Always step P s' as := h.2 s' hstep
    have hnow : C s a := by
      by_contra hnot
      exact hbreaks a List.mem_cons_self s s' hs hnot hstep hnext.first
    refine ⟨hnow, fun s₁ hs₁ => ?_⟩
    obtain rfl := Option.some.inj (hstep.symm.trans hs₁)
    exact ih (fun a ha => hbreaks a (List.mem_cons_of_mem _ ha)) (hkeeps s a s' hs hnow hstep)
      (Option.isSome_iff_exists.mpr ⟨s'', hrest⟩) hnext

/-- A property holds in each state of a run if and only if a condition holds before each action,
when an action under the condition keeps an invariant that implies the property, and another one
breaks the property. -/
theorem always_iff_along (hholds : ∀ s, Inv s → P s)
    (hkeeps : ∀ s a s', Inv s → C s a → step s a = some s' → Inv s')
    (hbreaks : ∀ s a s', Inv s → ¬ C s a → step s a = some s' → ¬ P s') (hs : Inv s)
    (hrun : (run step s as).isSome) : Always step P s as ↔ Along step C s as :=
  ⟨along_of_always hkeeps (fun a _ s s' => hbreaks s a s') hs hrun,
    always_of_along hholds hkeeps hs⟩

end Machine
