import Mathlib.Data.List.Basic

/-!
# Sweeps

A sweep is a loop over the values of a counter: each value in a range is tried, and the loop ends
with the first one that passes, or when the counter leaves the range. The next value may be
undefined. Fuel bounds the number of trials; a sweep returns if some fuel is enough.

## Main definitions

* `sweep`: the loop

## Main results

* `isSome_sweep`: a sweep returns when each failed trial decreases a measure
* `sweep_eq_none`: a sweep does not return when an invariant keeps it going
* `sweep_mono`: more fuel does not change what is returned
* `sweep_keeps`: what each trial keeps, the sweep keeps
* `sweep_passed`: the value that is returned is the one of the last trial
-/

namespace Machine

variable {α σ : Type} (inRange : α → Bool) (next : α → Option α) (trial : α → σ → Bool × σ)

/-- The value that passed, if there is one, and the state behind the loop. -/
def sweep : ℕ → α → σ → Option (Option α × σ)
  | 0, _, _ => none
  | fuel + 1, e, s =>
    if inRange e then
      if (trial e s).1 then some (some e, (trial e s).2)
      else (next e).bind fun e' => sweep fuel e' (trial e s).2
    else some (none, s)

variable {inRange next trial} {fuel : ℕ} {e : α} {s : σ} (Inv : α → σ → Prop)

/-- When each failed trial goes on to a value with a smaller measure, the sweep returns with as much
fuel. -/
theorem isSome_sweep (μ : α → σ → ℕ)
    (hstep : ∀ e s, Inv e s → inRange e → (trial e s).1 = false →
      ∃ e', next e = some e' ∧ Inv e' (trial e s).2 ∧ μ e' (trial e s).2 < μ e s)
    (hinv : Inv e s) (hfuel : μ e s < fuel) : (sweep inRange next trial fuel e s).isSome := by
  induction fuel generalizing e s with
  | zero => exact absurd hfuel (Nat.not_lt_zero _)
  | succ fuel ih =>
    unfold sweep
    by_cases hrange : inRange e
    · rw [if_pos hrange]
      cases htrial : (trial e s).1 with
      | true => rfl
      | false =>
        obtain ⟨e', hnext, hinv', hless⟩ := hstep e s hinv hrange htrial
        rw [if_neg Bool.false_ne_true, hnext, Option.bind_some]
        exact ih hinv' (by omega)
    · rw [if_neg hrange]
      rfl

/-- When each value is in the range and fails, the sweep does not return. -/
theorem sweep_eq_none
    (hstep : ∀ e s, Inv e s → inRange e ∧ (trial e s).1 = false ∧
      ∀ e', next e = some e' → Inv e' (trial e s).2)
    (hinv : Inv e s) : sweep inRange next trial fuel e s = none := by
  induction fuel generalizing e s with
  | zero => rfl
  | succ fuel ih =>
    obtain ⟨hrange, htrial, hnext⟩ := hstep e s hinv
    unfold sweep
    rw [if_pos hrange, htrial, if_neg Bool.false_ne_true]
    cases he : next e with
    | none => rfl
    | some e' =>
      rw [Option.bind_some]
      exact ih (hnext e' he)

omit Inv in
/-- More fuel does not change what is returned. -/
theorem sweep_mono {fuel' : ℕ} {r : Option α × σ} (hle : fuel ≤ fuel')
    (h : sweep inRange next trial fuel e s = some r) :
    sweep inRange next trial fuel' e s = some r := by
  induction fuel generalizing fuel' e s with
  | zero => cases h
  | succ fuel ih =>
    obtain ⟨fuel', rfl⟩ : ∃ k, fuel' = k + 1 := ⟨fuel' - 1, by omega⟩
    rw [sweep] at h ⊢
    by_cases hrange : inRange e
    · rw [if_pos hrange] at h ⊢
      cases htrial : (trial e s).1 with
      | true =>
        rw [htrial, if_pos rfl] at h
        rw [if_pos rfl]
        exact h
      | false =>
        rw [htrial, if_neg Bool.false_ne_true] at h
        rw [if_neg Bool.false_ne_true]
        obtain ⟨e', hnext, h⟩ := Option.bind_eq_some_iff.mp h
        rw [hnext, Option.bind_some]
        exact ih (by omega) h
    · rw [if_neg hrange] at h ⊢
      exact h

/-- What each trial keeps of the state, the sweep keeps. -/
theorem sweep_keeps {P : σ → Prop} {r : Option α × σ}
    (hstep : ∀ e s, Inv e s → inRange e → P (trial e s).2 ∧
      ∀ e', next e = some e' → Inv e' (trial e s).2)
    (hinv : Inv e s) (hs : P s) (h : sweep inRange next trial fuel e s = some r) : P r.2 := by
  induction fuel generalizing e s with
  | zero => cases h
  | succ fuel ih =>
    rw [sweep] at h
    by_cases hrange : inRange e
    · obtain ⟨hkept, hnext⟩ := hstep e s hinv hrange
      rw [if_pos hrange] at h
      split at h
      · obtain rfl := Option.some.inj h
        exact hkept
      · obtain ⟨e', he', h⟩ := Option.bind_eq_some_iff.mp h
        exact ih (hnext e' he') hkept h
    · rw [if_neg hrange] at h
      obtain rfl := Option.some.inj h
      exact hs

omit Inv in
/-- The state behind a sweep that passed is the one behind its last trial. -/
theorem sweep_passed {e' : α} {s' : σ}
    (h : sweep inRange next trial fuel e s = some (some e', s')) :
    ∃ s₀, trial e' s₀ = (true, s') := by
  induction fuel generalizing e s with
  | zero => cases h
  | succ fuel ih =>
    rw [sweep] at h
    split at h
    · split at h
      · next hpassed =>
        cases h
        exact ⟨s, Prod.ext hpassed rfl⟩
      · obtain ⟨next, -, h⟩ := Option.bind_eq_some_iff.mp h
        exact ih h
    · cases h

end Machine
