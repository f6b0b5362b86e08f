import ClickA.Python.Effect
import Mathlib.Data.List.Range

/-!
# Observed statements

The states in the middle of a statement are observed by a list that is kept beside its state. The
statement does not see the list: without it, the statement is what it was before.

## Main definitions

* `observed`, `unobserved`: a statement beside the observations, which it adds to or not
* `Erases x' x`: without its observations, `x'` is `x`
* `Records`: the observations go on with the numbers of a counter

## Main results

* `erases_bind`, `erases_ite`: the rules of erasure
* `ensures_observed`, `runs_observed`, `runs_unobserved`: what the statements record
-/

namespace Python

variable {ε σ κ α β : Type}

/-- A statement that is not observed. -/
def unobserved (x : EStateM ε σ α) : EStateM ε (σ × List κ) α := fun s =>
  match x s.1 with
  | .ok a s' => .ok a (s', s.2)
  | .error e s' => .error e (s', s.2)

/-- A statement whose states are observed when it ends normally. -/
def observed (f : σ → σ → κ) (x : EStateM ε σ α) : EStateM ε (σ × List κ) α := fun s =>
  match x s.1 with
  | .ok a s' => .ok a (s', s.2 ++ [f s.1 s'])
  | .error e s' => .error e (s', s.2)

/-- A result without the observations. -/
def erase : EStateM.Result ε (σ × List κ) α → EStateM.Result ε σ α
  | .ok a s => .ok a s.1
  | .error e s => .error e s.1

/-- Without its observations, a statement is another one. -/
def Erases (x' : EStateM ε (σ × List κ) α) (x : EStateM ε σ α) : Prop := ∀ s, erase (x' s) = x s.1

section Erases

variable {x : EStateM ε σ α} {x' : EStateM ε (σ × List κ) α} {f : α → EStateM ε σ β}
  {f' : α → EStateM ε (σ × List κ) β}

theorem erases_pure (a : α) : Erases (pure a : EStateM ε (σ × List κ) α) (pure a) := fun _ => rfl

theorem erases_unobserved (x : EStateM ε σ α) :
    Erases (unobserved x : EStateM ε (σ × List κ) α) x := by
  intro s
  unfold unobserved erase
  cases x s.1 with
  | ok a s' => rfl
  | error e s' => rfl

theorem erases_observed (g : σ → σ → κ) (x : EStateM ε σ α) : Erases (observed g x) x := by
  intro s
  unfold observed erase
  cases x s.1 with
  | ok a s' => rfl
  | error e s' => rfl

theorem erases_bind (hx : Erases x' x) (hf : ∀ a, Erases (f' a) (f a)) :
    Erases (x' >>= f') (x >>= f) := by
  intro s
  have hx := hx s
  cases h : x' s with
  | ok a t =>
    rw [h] at hx
    rw [bind_of_ok h, bind_of_ok hx.symm]
    exact hf a t
  | error e t =>
    rw [h] at hx
    rw [bind_of_error h, bind_of_error hx.symm]
    rfl

theorem erases_ite {p : Prop} [Decidable p] {y : EStateM ε σ α} {y' : EStateM ε (σ × List κ) α}
    (hx : Erases x' x) (hy : Erases y' y) :
    Erases (if p then x' else y') (if p then x else y) := by
  split
  · exact hx
  · exact hy

/-- What a statement ensures, it ensures beside its observations. -/
theorem Erases.ensures {Q : α → σ → Prop} {s : σ × List κ} (h : Erases x' x)
    (hx : Ensures x Q s.1) : Ensures x' (fun a s' => Q a s'.1) s := by
  have hsame := h s
  unfold Ensures Wp at hx ⊢
  cases hx' : x' s with
  | ok a t =>
    rw [hx'] at hsame
    rw [← hsame] at hx
    exact hx
  | error e t =>
    rw [hx'] at hsame
    rw [← hsame] at hx
    exact hx

/-- A statement that is observed adds its observation. -/
theorem ensures_observed {g : σ → σ → κ} {Q : α → σ → Prop} {s : σ × List κ}
    (hx : Ensures x Q s.1) :
    Ensures (observed g x) (fun a s' => Q a s'.1 ∧ s'.2 = s.2 ++ [g s.1 s'.1]) s := by
  unfold Ensures Wp at hx ⊢
  unfold observed
  cases hs : x s.1 with
  | ok a s' =>
    rw [hs] at hx
    exact ⟨hx, rfl⟩
  | error e s' =>
    rw [hs] at hx
    exact hx

end Erases

/-! ## Records -/

/-- The observations go on with the numbers of a counter, and each of them has a property. -/
def Records (counter : σ → ℕ) (number : κ → ℕ) (P : κ → Prop) (s s' : σ × List κ) : Prop :=
  ∃ added, s'.2 = s.2 ++ added ∧ added.map number = List.range' (counter s.1) added.length ∧
    counter s'.1 = counter s.1 + added.length ∧ ∀ o ∈ added, P o

section Records

variable {counter : σ → ℕ} {number : κ → ℕ} {P : κ → Prop} {x : EStateM ε σ α}

instance : Std.Refl (Records counter number P) :=
  ⟨fun s => ⟨[], (List.append_nil s.2).symm, rfl, rfl, fun _ ho => absurd ho List.not_mem_nil⟩⟩

instance : IsTrans (σ × List κ) (Records counter number P) := by
  constructor
  rintro s₁ s₂ s₃ ⟨added, hadded, hnumbers, hcounter, hP⟩ ⟨added', hadded', hnumbers', hcounter',
    hP'⟩
  refine ⟨added ++ added', ?_, ?_, ?_, fun o ho => ?_⟩
  · rw [hadded', hadded, List.append_assoc]
  · rw [List.map_append, hnumbers, hnumbers', hcounter, List.length_append,
      ← List.range'_append_1]
  · rw [hcounter', hcounter, List.length_append, Nat.add_assoc]
  · rcases List.mem_append.mp ho with ho | ho
    · exact hP o ho
    · exact hP' o ho

/-- A statement that is not observed leaves the counter alone. -/
theorem runs_unobserved (h : Runs (fun s s' => counter s' = counter s) x) :
    Runs (Records counter number P) (unobserved x) := by
  intro s
  have hx := h s.1
  unfold Ensures Wp at hx ⊢
  unfold unobserved
  cases hs : x s.1 with
  | ok a s' =>
    rw [hs] at hx
    exact ⟨[], (List.append_nil s.2).symm, rfl, hx, fun _ ho => absurd ho List.not_mem_nil⟩
  | error e s' =>
    rw [hs] at hx
    exact hx

/-- A statement that is observed counts one on. -/
theorem runs_observed {f : σ → σ → κ} (h : ∀ s, Ensures x (fun _ s' => number (f s s') = counter s ∧
      counter s' = counter s + 1 ∧ P (f s s')) s) :
    Runs (Records counter number P) (observed f x) := by
  intro s
  refine (ensures_observed (h s.1)).imp ?_
  rintro a s' ⟨⟨hnumber, hcounter, hP⟩, hadded⟩
  refine ⟨[f s.1 s'.1], hadded, congrArg (fun n => [n]) hnumber, hcounter, fun o ho => ?_⟩
  rw [List.mem_singleton.mp ho]
  exact hP

/-- What was observed stays. -/
theorem Records.mem {s s' : σ × List κ} {o : κ} (h : Records counter number P s s') (ho : o ∈ s.2) :
    o ∈ s'.2 := by
  obtain ⟨added, hadded, -⟩ := h
  rw [hadded]
  exact List.mem_append_left added ho

end Records

end Python
