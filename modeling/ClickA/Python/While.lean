import ClickA.Python.Effect

/-!
# Loops with a condition

`while` over a statement with effects. Fuel bounds the number of turns; a loop that runs out of it
returns nothing.

## Main definitions

* `whileLoop`: the loop

## Main results

* `ensures_whileLoop`: a loop whose turns keep an invariant ends where the condition fails
* `wp_whileLoop_of_raises`: a loop does not end when one of its turns raises
-/

namespace Python

variable {ε σ α : Type} {cond : α → Prop} [DecidablePred cond] {body : α → EStateM ε σ α}
  {I : ℕ → α → σ → Prop} {n : ℕ} {a : α} {s : σ}

/-- `while cond: body`, over a variable that the turns assign. -/
def whileLoop (cond : α → Prop) [DecidablePred cond] (body : α → EStateM ε σ α) :
    ℕ → α → EStateM ε σ (Option α)
  | 0, _ => pure none
  | fuel + 1, a => if cond a then do whileLoop cond body fuel (← body a) else pure (some a)

/-- A loop ends behind `n` turns when the condition holds before each of them and fails then. The
invariant speaks about the turns that are done. -/
theorem ensures_whileLoop
    (hturn : ∀ k < n, ∀ a s, I k a s → cond a ∧ Ensures (body a) (I (k + 1)) s)
    (hend : ∀ a s, I n a s → ¬ cond a) (h : I 0 a s) :
    Ensures (whileLoop cond body (n + 1) a) (fun r s' => ∃ a', r = some a' ∧ I n a' s') s := by
  induction n generalizing I a s with
  | zero =>
    rw [whileLoop, if_neg (hend a s h)]
    exact ⟨a, rfl, h⟩
  | succ n ih =>
    obtain ⟨hcond, hbody⟩ := hturn 0 (Nat.succ_pos n) a s h
    rw [whileLoop, if_pos hcond]
    refine hbody.bind fun a' s' h' => ?_
    exact ih (I := fun k => I (k + 1)) (fun k hk => hturn (k + 1) (Nat.succ_lt_succ hk)) hend h'

/-- A loop does not end normally, with any fuel, when the condition holds before `n` turns and the
next one raises. -/
theorem wp_whileLoop_of_raises {E : ε → σ → Prop}
    (hturn : ∀ k < n, ∀ a s, I k a s → cond a ∧ Ensures (body a) (I (k + 1)) s)
    (hraise : ∀ a s, I n a s → cond a ∧ Wp (body a) (fun _ _ => False) E s) (h : I 0 a s)
    (fuel : ℕ) : Wp (whileLoop cond body fuel a) (fun r _ => r = none) E s := by
  induction n generalizing I a s fuel with
  | zero =>
    cases fuel with
    | zero => rfl
    | succ fuel =>
      obtain ⟨hcond, hbody⟩ := hraise a s h
      rw [whileLoop, if_pos hcond, wp_bind]
      exact hbody.mono (fun _ _ hfalse => hfalse.elim) fun _ _ he => he
  | succ n ih =>
    cases fuel with
    | zero => rfl
    | succ fuel =>
      obtain ⟨hcond, hbody⟩ := hturn 0 (Nat.succ_pos n) a s h
      rw [whileLoop, if_pos hcond, wp_bind]
      refine hbody.mono (fun a' s' h' => ?_) fun _ _ hfalse => hfalse.elim
      exact ih (I := fun k => I (k + 1)) (fun k hk => hturn (k + 1) (Nat.succ_lt_succ hk)) hraise h'
        fuel

end Python
