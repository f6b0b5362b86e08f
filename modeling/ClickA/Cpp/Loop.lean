import Mathlib.Data.List.Basic

/-!
# Loops over a counter

`for(int j = a; j < a + k; j++)` over a statement that may leave the bounds of an array.

## Main results

* `exists_foldlM_range'`: a loop whose turns keep an invariant ends with it
* `exists_isSome_of_foldlM_range'`: each turn of a loop that ends was possible
-/

namespace Cpp

variable {σ : Type*} {f : σ → ℕ → Option σ} {I : ℕ → σ → Prop} {a k j : ℕ} {s s' : σ}

theorem foldlM_range'_succ (f : σ → ℕ → Option σ) (a k : ℕ) (s : σ) :
    (List.range' a (k + 1)).foldlM f s
      = (f s a).bind fun s' => (List.range' (a + 1) k).foldlM f s' := by
  rw [List.range'_succ, List.foldlM_cons]
  rfl

/-- A loop ends when each of its turns does and keeps an invariant. -/
theorem exists_foldlM_range' (h : I a s)
    (hstep : ∀ j s, a ≤ j → j < a + k → I j s → ∃ s', f s j = some s' ∧ I (j + 1) s') :
    ∃ s', (List.range' a k).foldlM f s = some s' ∧ I (a + k) s' := by
  induction k generalizing a s with
  | zero => exact ⟨s, rfl, h⟩
  | succ k ih =>
    obtain ⟨s₁, hfirst, h₁⟩ := hstep a s (Nat.le_refl a) (by omega) h
    obtain ⟨s', hrest, h'⟩ := ih h₁ fun j s hj hj' => hstep j s (by omega) (by omega)
    refine ⟨s', ?_, by rwa [Nat.add_right_comm] at h'⟩
    rw [foldlM_range'_succ, hfirst]
    exact hrest

/-- Each turn of a loop that ends was possible, in a state with what the turns keep. -/
theorem exists_isSome_of_foldlM_range' (h : I a s)
    (hstep : ∀ j s s', f s j = some s' → I j s → I (j + 1) s')
    (hloop : (List.range' a k).foldlM f s = some s') (hj : a ≤ j) (hj' : j < a + k) :
    ∃ t, I j t ∧ (f t j).isSome := by
  induction k generalizing a s with
  | zero => omega
  | succ k ih =>
    rw [foldlM_range'_succ, Option.bind_eq_some_iff] at hloop
    obtain ⟨s₁, hfirst, hrest⟩ := hloop
    rcases Nat.eq_or_lt_of_le hj with rfl | hlt
    · exact ⟨s, h, by rw [hfirst, Option.isSome_some]⟩
    · exact ih (hstep a s s₁ hfirst h) hrest hlt (by omega)

end Cpp
