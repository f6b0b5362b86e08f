import ClickA.Machine.Run
import Mathlib.Algebra.Order.Ring.Defs

/-!
# Contraction

A value of a state that each action scales down, without a change of its sign, is scaled down by the
power of the factor in a run.

## Main definitions

* `Scaled`: a value is a part of another one

## Main results

* `scaled_run`: the value behind a run
-/

namespace Machine

variable {σ α K : Type} {step : σ → α → Option σ} {s s' : σ} {as : List α}
  {C : σ → α → Prop} {Inv : σ → Prop}

/-- A value is a part of another one, at most the part `q`. -/
def Scaled [Mul K] [Zero K] [LE K] (q e e' : K) : Prop := ∃ k, 0 ≤ k ∧ k ≤ q ∧ e' = k * e

variable [CommRing K] [PartialOrder K] [IsOrderedRing K] {q q' e e' e'' : K}

theorem Scaled.refl (e : K) : Scaled 1 e e := ⟨1, zero_le_one, le_refl 1, (one_mul e).symm⟩

theorem Scaled.trans (h : Scaled q e e') (h' : Scaled q' e' e'') : Scaled (q * q') e e'' := by
  obtain ⟨k, hk, hkq, rfl⟩ := h
  obtain ⟨k', hk', hkq', rfl⟩ := h'
  refine ⟨k * k', mul_nonneg hk hk', mul_le_mul hkq hkq' hk' (hk.trans hkq), ?_⟩
  rw [mul_left_comm, mul_assoc]

/-- When each action scales a value by the part `q` at most, `n` actions scale it by `q ^ n`. -/
theorem scaled_run (f : σ → K) (hkeeps : ∀ s a s', Inv s → C s a → step s a = some s' → Inv s')
    (hstep : ∀ s a s', Inv s → C s a → step s a = some s' → Scaled q (f s) (f s')) (hs : Inv s)
    (h : Along step C s as) (hrun : run step s as = some s') :
    Scaled (q ^ as.length) (f s) (f s') := by
  induction as generalizing s with
  | nil =>
    obtain rfl := Option.some.inj hrun
    rw [List.length_nil, pow_zero]
    exact Scaled.refl (f s)
  | cons a as ih =>
    obtain ⟨s₁, hfirst, hrest⟩ := run_cons_eq_some.mp hrun
    obtain ⟨hnow, hthen⟩ := h
    rw [List.length_cons, pow_succ']
    exact (hstep s a s₁ hs hnow hfirst).trans
      (ih (hkeeps s a s₁ hs hnow hfirst) (hthen s₁ hfirst) hrest)

end Machine
