import Mathlib.Order.Nat

/-!
# Watching for a loss

Something is watched in a run: in some steps it is seen, and in others it is missed. A flag says
whether it is in sight, and a start says when it was missed first. Whoever keeps the flag and the
start only looks at one step, so what they say about the steps before is an invariant of the run.

## Main definitions

* `InSight`: it was seen, and has not been missed since
* `FirstMiss`: it was missed first in a step, and has not been seen since
* `Watch`: how a flag and a start are kept in each step

## Main results

* `Watch.inSight`: where the flag is set, it is in sight
* `Watch.started`: where the flag is not set, the start is the time of the first miss
* `Watch.of_missed`: **behind a miss the flag is not set, and the start is the time of the first
  miss**
-/

namespace Stream

section Watch

variable {τ : Type*} {seen missed tracked : ℕ → Prop} {flag : ℕ → Bool} {start time : ℕ → τ}
  {m n : ℕ}

/-- Before a step, it was seen, and has not been missed since. -/
def InSight (seen missed : ℕ → Prop) (n : ℕ) : Prop :=
  ∃ k < n, seen k ∧ ∀ j, k < j → j < n → ¬ missed j

/-- Before a step, it was missed first in step `m`, and has not been seen since. -/
structure FirstMiss (seen missed : ℕ → Prop) (m n : ℕ) : Prop where
  lt : m < n
  inSight : InSight seen missed m
  missed : missed m
  unseen : ∀ j, m ≤ j → j < n → ¬ seen j

theorem InSight.of_seen (h : seen n) : InSight seen missed (n + 1) :=
  ⟨n, Nat.lt_succ_self n, h, fun _ hlt hle => absurd hle (Nat.not_lt.mpr hlt)⟩

theorem InSight.succ (h : InSight seen missed n) (hmissed : ¬ missed n) :
    InSight seen missed (n + 1) := by
  obtain ⟨k, hlt, hseen, hnone⟩ := h
  refine ⟨k, hlt.trans (Nat.lt_succ_self n), hseen, fun j hj hjn => ?_⟩
  rcases Nat.lt_succ_iff_lt_or_eq.mp hjn with hjn | rfl
  · exact hnone j hj hjn
  · exact hmissed

theorem InSight.firstMiss (h : InSight seen missed n) (hmissed : missed n) (hseen : ¬ seen n) :
    FirstMiss seen missed n (n + 1) where
  lt := Nat.lt_succ_self n
  inSight := h
  missed := hmissed
  unseen j hj hjn := by
    obtain rfl : j = n := Nat.le_antisymm (Nat.le_of_lt_succ hjn) hj
    exact hseen

theorem FirstMiss.succ (h : FirstMiss seen missed m n) (hseen : ¬ seen n) :
    FirstMiss seen missed m (n + 1) where
  lt := h.lt.trans (Nat.lt_succ_self n)
  inSight := h.inSight
  missed := h.missed
  unseen j hj hjn := by
    rcases Nat.lt_succ_iff_lt_or_eq.mp hjn with hjn | rfl
    · exact h.unseen j hj hjn
    · exact hseen

/-- A flag and a start are kept in each step. Where it is not tracked, the flag may be cleared
without a start, so whoever begins to track it has to see it first. -/
structure Watch (seen missed tracked : ℕ → Prop) (flag : ℕ → Bool) (start time : ℕ → τ) : Prop where
  zero : flag 0 = false ∧ ¬ tracked 0
  found : ∀ n, seen n → flag (n + 1) = true
  within : ∀ n, missed n → tracked n ∧ ¬ seen n
  lost : ∀ n, missed n → flag n = true → flag (n + 1) = false ∧ start (n + 1) = time n
  still : ∀ n, missed n → flag n = false → flag (n + 1) = false ∧ start (n + 1) = start n
  idle : ∀ n, ¬ seen n → ¬ missed n → flag (n + 1) = true → flag n = true
  kept : ∀ n, ¬ seen n → ¬ missed n → tracked (n + 1) →
    flag (n + 1) = true ∨ tracked n ∧ flag (n + 1) = flag n ∧ start (n + 1) = start n

/-- Where the flag is set, it is in sight. -/
theorem Watch.inSight (h : Watch seen missed tracked flag start time) (hflag : flag n = true) :
    InSight seen missed n := by
  induction n with
  | zero => cases h.zero.1.symm.trans hflag
  | succ n ih =>
    by_cases hseen : seen n
    · exact .of_seen hseen
    · by_cases hmissed : missed n
      · cases hbefore : flag n with
        | true => cases (h.lost n hmissed hbefore).1.symm.trans hflag
        | false => cases (h.still n hmissed hbefore).1.symm.trans hflag
      · exact (ih (h.idle n hseen hmissed hflag)).succ hmissed

/-- Behind a miss the flag is not set, and the start is the time of the first miss, if it was so
before. -/
theorem Watch.step (h : Watch seen missed tracked flag start time) (hmissed : missed n)
    (hn : flag n = true ∨ ∃ m, FirstMiss seen missed m n ∧ start n = time m) :
    flag (n + 1) = false ∧ ∃ m, FirstMiss seen missed m (n + 1) ∧ start (n + 1) = time m := by
  have hseen := (h.within n hmissed).2
  cases hflag : flag n with
  | true =>
    obtain ⟨hlost, hstart⟩ := h.lost n hmissed hflag
    exact ⟨hlost, n, (h.inSight hflag).firstMiss hmissed hseen, hstart⟩
  | false =>
    obtain ⟨hstill, hstart⟩ := h.still n hmissed hflag
    rcases hn with htrue | ⟨m, hfirst, htime⟩
    · cases hflag.symm.trans htrue
    · exact ⟨hstill, m, hfirst.succ hseen, hstart.trans htime⟩

/-- Where it is tracked and the flag is not set, the start is the time of the first miss. -/
theorem Watch.started (h : Watch seen missed tracked flag start time) (htracked : tracked n) :
    flag n = true ∨ ∃ m, FirstMiss seen missed m n ∧ start n = time m := by
  induction n with
  | zero => exact absurd htracked h.zero.2
  | succ n ih =>
    by_cases hseen : seen n
    · exact .inl (h.found n hseen)
    · by_cases hmissed : missed n
      · exact .inr (h.step hmissed (ih (h.within n hmissed).1)).2
      · rcases h.kept n hseen hmissed htracked with hflag | ⟨hbefore, hflag, hstart⟩
        · exact .inl hflag
        · rcases ih hbefore with htrue | ⟨m, hfirst, htime⟩
          · exact .inl (hflag.trans htrue)
          · exact .inr ⟨m, hfirst.succ hseen, hstart.trans htime⟩

/-- **Behind a miss the flag is not set, and the start is the time of the first miss.** -/
theorem Watch.of_missed (h : Watch seen missed tracked flag start time) (hmissed : missed n) :
    flag (n + 1) = false ∧ ∃ m, FirstMiss seen missed m (n + 1) ∧ start (n + 1) = time m :=
  h.step hmissed (h.started (h.within n hmissed).1)

end Watch

end Stream
