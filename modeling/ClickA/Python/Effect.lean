import ClickA.Python.Basic

/-!
# Statements with effects

A statement that changes a state and may raise is a value of `EStateM ε σ α`: what it did before it
raised stays done. This file has the rules for pre- and postconditions of such statements.

## Main definitions

* `lift`: a statement without effects
* `Wp`: the weakest precondition, for a normal end and for an exception
* `Ensures`, `Ends`, `Raises`: a statement ends normally, or never does
* `endsIn`, `returned`: where it ends and what it returns, as it is evaluated
* `Keeps`, `Runs`: a statement keeps a relation, and ends normally too
* `Confines`: a statement keeps a relation, and raises exceptions of a kind only

## Main results

* `wp_bind`, `Ensures.bind`, `Allows.bind`: the rule of sequencing
* `wp_foldlM`, `wp_forM`, `keeps_foldlM`, `runs_foldlM`: loops over a list, with an invariant
-/

namespace Python

variable {ε σ α β γ : Type}

/-- A statement without effects. -/
def lift (x : Except ε α) : EStateM ε σ α := fun s =>
  match x with
  | .ok a => .ok a s
  | .error e => .error e s

/-- The weakest precondition: `Q` holds where the statement ends, and `E` where it raises. -/
def Wp (x : EStateM ε σ α) (Q : α → σ → Prop) (E : ε → σ → Prop) (s : σ) : Prop :=
  match x s with
  | .ok a s' => Q a s'
  | .error e s' => E e s'

/-- The statement ends normally, in `Q`. -/
abbrev Ensures (x : EStateM ε σ α) (Q : α → σ → Prop) (s : σ) : Prop :=
  Wp x Q (fun _ _ => False) s

/-- Where the statement ends normally it does so in `Q`. -/
abbrev Allows (x : EStateM ε σ α) (Q : α → σ → Prop) (s : σ) : Prop :=
  Wp x Q (fun _ _ => True) s

/-- The statement does not end normally. -/
abbrev Raises (x : EStateM ε σ α) (s : σ) : Prop := Allows x (fun _ _ => False) s

/-- The statement ends normally. -/
abbrev Ends (x : EStateM ε σ α) (s : σ) : Prop := Ensures x (fun _ _ => True) s

/-- However the statement ends, the states before and after it are related. -/
def Keeps (R : σ → σ → Prop) (x : EStateM ε σ α) : Prop :=
  ∀ s, Wp x (fun _ s' => R s s') (fun _ s' => R s s') s

/-- The statement ends normally, and the states before and after it are related. -/
def Runs (R : σ → σ → Prop) (x : EStateM ε σ α) : Prop := ∀ s, Ensures x (fun _ s' => R s s') s

/-- However the statement ends, the states before and after it are related, and what it raises is of
a kind. -/
def Confines (R : σ → σ → Prop) (P : ε → Prop) (x : EStateM ε σ α) : Prop :=
  ∀ s, Wp x (fun _ s' => R s s') (fun e s' => R s s' ∧ P e) s

section Rules

variable {x : EStateM ε σ α} {f : α → EStateM ε σ β} {Q Q' : α → σ → Prop} {E E' : ε → σ → Prop}
  {s s' : σ} {a : α} {e : ε}

/-- A block goes on from where its first statement ends. -/
theorem bind_of_ok (h : x s = .ok a s') : (x >>= f) s = f a s' := by
  show EStateM.bind x f s = _
  rw [EStateM.bind, h]

theorem bind_of_error (h : x s = .error e s') : (x >>= f) s = .error e s' := by
  show EStateM.bind x f s = _
  rw [EStateM.bind, h]

theorem bind_get {f : σ → EStateM ε σ β} : (get >>= f) s = f s s := rfl

theorem bind_modify {g : σ → σ} {f : PUnit → EStateM ε σ β} :
    (modify g >>= f) s = f ⟨⟩ (g s) := rfl

theorem wp_of_ok (h : x s = .ok a s') : Wp x Q E s ↔ Q a s' := by
  rw [Wp, h]

theorem wp_of_error (h : x s = .error e s') : Wp x Q E s ↔ E e s' := by
  rw [Wp, h]

@[simp] theorem wp_pure : Wp (pure a : EStateM ε σ α) Q E s ↔ Q a s := Iff.rfl

@[simp] theorem wp_throw : Wp (throw e : EStateM ε σ α) Q E s ↔ E e s := Iff.rfl

@[simp] theorem wp_lift_ok : Wp (lift (.ok a) : EStateM ε σ α) Q E s ↔ Q a s := Iff.rfl

@[simp] theorem wp_lift_error : Wp (lift (.error e) : EStateM ε σ α) Q E s ↔ E e s := Iff.rfl

@[simp] theorem wp_get {Q : σ → σ → Prop} : Wp (get : EStateM ε σ σ) Q E s ↔ Q s s := Iff.rfl

@[simp] theorem wp_modify {g : σ → σ} {Q : PUnit → σ → Prop} :
    Wp (modify g : EStateM ε σ PUnit) Q E s ↔ Q ⟨⟩ (g s) := Iff.rfl

/-- A block holds `Q` behind it when its first statement makes the rest do so. -/
@[simp] theorem wp_bind {Q : β → σ → Prop} :
    Wp (x >>= f) Q E s ↔ Wp x (fun a s' => Wp (f a) Q E s') E s := by
  show (match EStateM.bind x f s with | .ok b s' => Q b s' | .error e s' => E e s') ↔ _
  unfold EStateM.bind Wp
  cases x s <;> rfl

/-- A handler goes on from where the statement raised. -/
@[simp] theorem wp_tryCatch {handle : ε → EStateM ε σ α} :
    Wp (tryCatch x handle) Q E s ↔ Wp x Q (fun e s' => Wp (handle e) Q E s') s := by
  show (match EStateM.tryCatch x handle s with
    | .ok a s' => Q a s'
    | .error e s' => E e s') ↔ _
  unfold EStateM.tryCatch Wp
  cases x s <;> rfl

theorem Wp.mono (h : Wp x Q E s) (hQ : ∀ a s', Q a s' → Q' a s') (hE : ∀ e s', E e s' → E' e s') :
    Wp x Q' E' s := by
  unfold Wp at h ⊢
  cases hx : x s with
  | ok a s' => exact hQ a s' (by rw [hx] at h; exact h)
  | error e s' => exact hE e s' (by rw [hx] at h; exact h)

/-- Two statements that do the same have the same preconditions. -/
theorem wp_congr {y : EStateM ε σ α} (h : x s = y s') : Wp x Q E s ↔ Wp y Q E s' := by
  unfold Wp
  rw [h]

/-- Two postconditions hold together. -/
theorem Wp.and (h : Wp x Q E s) (h' : Wp x Q' E' s) :
    Wp x (fun a s' => Q a s' ∧ Q' a s') (fun e s' => E e s' ∧ E' e s') s := by
  unfold Wp at h h' ⊢
  cases hx : x s with
  | ok a s' =>
    rw [hx] at h h'
    exact ⟨h, h'⟩
  | error e s' =>
    rw [hx] at h h'
    exact ⟨h, h'⟩

theorem wp_true : Wp x (fun _ _ => True) (fun _ _ => True) s := by
  unfold Wp
  cases x s with
  | ok a s' => trivial
  | error e s' => trivial

/-- A statement ends somehow. -/
theorem not_wp_false : ¬ Wp x (fun _ _ => False) (fun _ _ => False) s := by
  unfold Wp
  cases x s with
  | ok a s' => exact id
  | error e s' => exact id

theorem ensures_iff : Ensures x Q s ↔ ∃ a s', x s = .ok a s' ∧ Q a s' := by
  unfold Ensures Wp
  cases x s with
  | ok a s' => exact ⟨fun h => ⟨a, s', rfl, h⟩, fun ⟨_, _, heq, h⟩ => by cases heq; exact h⟩
  | error e s' => exact ⟨False.elim, fun ⟨_, _, heq, _⟩ => by cases heq⟩

/-- The statement ends normally where a test holds. -/
def endsIn (x : EStateM ε σ α) (p : σ → Bool) (s : σ) : Bool :=
  match x s with
  | .ok _ s' => p s'
  | .error _ _ => false

theorem endsIn_iff {p : σ → Bool} :
    endsIn x p s = true ↔ Ensures x (fun _ s' => p s' = true) s := by
  unfold endsIn Ensures Wp
  cases x s with
  | ok a s' => exact Iff.rfl
  | error e s' => exact ⟨Bool.noConfusion, False.elim⟩

/-- What the statement returns where it ends normally. -/
def returned (x : EStateM ε σ α) (s : σ) : Option α :=
  match x s with
  | .ok a _ => some a
  | .error _ _ => none

theorem exists_of_returned (h : returned x s = some a) : ∃ s', x s = .ok a s' := by
  unfold returned at h
  cases hx : x s with
  | ok a' s' =>
    rw [hx] at h
    obtain rfl := Option.some.inj h
    exact ⟨s', rfl⟩
  | error e s' =>
    rw [hx] at h
    cases h

/-- A statement that may only raise, raises. -/
theorem Wp.exists_error (h : Wp x (fun _ _ => False) E s) : ∃ e s', x s = .error e s' ∧ E e s' := by
  unfold Wp at h
  cases hx : x s with
  | ok a s' =>
    rw [hx] at h
    exact h.elim
  | error e s' =>
    rw [hx] at h
    exact ⟨e, s', rfl, h⟩

/-- Where a statement ends normally, it is one that does. -/
theorem Wp.ensures (h : Wp x Q E s) : Wp x (fun a s' => Q a s' ∧ Ensures x Q s) E s := by
  unfold Ensures
  unfold Wp at h ⊢
  cases hx : x s with
  | ok a s' =>
    rw [hx] at h
    exact ⟨h, h⟩
  | error e s' =>
    rw [hx] at h
    exact h

theorem Ensures.imp (h : Ensures x Q s) (hQ : ∀ a s', Q a s' → Q' a s') : Ensures x Q' s :=
  h.mono hQ fun _ _ hfalse => hfalse

theorem Ensures.and (h : Ensures x Q s) (h' : Ensures x Q' s) :
    Ensures x (fun a s' => Q a s' ∧ Q' a s') s :=
  (Wp.and h h').mono (fun _ _ hq => hq) fun _ _ hfalse => hfalse.1

/-- The rest of a block begins where its first statement ends. -/
theorem Ensures.bind {Q' : β → σ → Prop} (h : Ensures x Q s)
    (hf : ∀ a s', Q a s' → Ensures (f a) Q' s') : Ensures (x >>= f) Q' s := by
  rw [Ensures, wp_bind]
  exact h.imp hf

theorem Allows.imp (h : Allows x Q s) (hQ : ∀ a s', Q a s' → Q' a s') : Allows x Q' s :=
  h.mono hQ fun _ _ _ => trivial

theorem Allows.bind {Q' : β → σ → Prop} (h : Allows x Q s)
    (hf : ∀ a s', Q a s' → Allows (f a) Q' s') : Allows (x >>= f) Q' s := by
  rw [Allows, wp_bind]
  exact h.imp hf

theorem Ensures.allows (h : Ensures x Q s) : Allows x Q s :=
  h.mono (fun _ _ hq => hq) fun _ _ _ => trivial

/-- A statement that ends normally ends where it may. -/
theorem Ensures.of_allows (h : Ensures x Q s) (h' : Allows x Q' s) :
    ∃ a s', Q a s' ∧ Q' a s' := by
  obtain ⟨a, s', heq, hq⟩ := ensures_iff.mp h
  exact ⟨a, s', hq, (wp_of_ok heq).mp h'⟩

/-- A block does not end normally when its first statement does not. -/
theorem Raises.bind (h : Raises x s) : Raises (x >>= f) s := by
  rw [Raises, Allows, wp_bind]
  exact h.mono (fun _ _ hfalse => hfalse.elim) fun _ _ _ => trivial

/-- A block does not end normally when its rest does not. -/
theorem Ensures.raises_bind (h : Ensures x Q s) (hf : ∀ a s', Q a s' → Raises (f a) s') :
    Raises (x >>= f) s := by
  rw [Raises, Allows, wp_bind]
  exact h.mono hf fun _ _ hfalse => hfalse.elim

theorem raises_lift {y : Except ε α} (h : ¬ ∃ a, y = .ok a) : Raises (lift y) s := by
  cases y with
  | ok a => exact absurd ⟨a, rfl⟩ h
  | error e => trivial

/-- A statement that does not end normally raises. -/
theorem raises_of_not_ends (h : ¬ Ends x s) : Raises x s := by
  unfold Ends Ensures Wp at h
  unfold Raises Allows Wp
  cases hx : x s with
  | ok a s' =>
    rw [hx] at h
    exact h trivial
  | error e s' => trivial

theorem Raises.not_ensures (h : Raises x s) : ¬ Ensures x Q s := fun h' => by
  obtain ⟨-, -, -, hfalse⟩ := h'.of_allows h
  exact hfalse

end Rules

/-! ## Loops -/

/-- A loop over a list: the invariant speaks about the elements that are left. -/
theorem wp_foldlM {f : β → γ → EStateM ε σ β} {I : List γ → β → σ → Prop} {E : ε → σ → Prop}
    {l : List γ} {b : β} {s : σ}
    (hstep : ∀ c cs b s, I (c :: cs) b s → Wp (f b c) (fun b' s' => I cs b' s') E s)
    (h : I l b s) : Wp (l.foldlM f b) (fun b' s' => I [] b' s') E s := by
  induction l generalizing b s with
  | nil => exact h
  | cons c cs ih =>
    rw [List.foldlM_cons, wp_bind]
    refine (hstep c cs b s h).mono ?_ ?_
    · intro b' s' h'
      exact ih h'
    · exact fun _ _ he => he

/-- A loop that only has effects. -/
theorem wp_forM {f : γ → EStateM ε σ PUnit} {I : List γ → σ → Prop} {E : ε → σ → Prop}
    {l : List γ} {s : σ}
    (hstep : ∀ c cs s, I (c :: cs) s → Wp (f c) (fun _ s' => I cs s') E s)
    (h : I l s) : Wp (l.forM f) (fun _ s' => I [] s') E s := by
  induction l generalizing s with
  | nil => exact h
  | cons c cs ih =>
    show Wp (f c >>= fun _ => cs.forM f) _ _ s
    rw [wp_bind]
    exact (hstep c cs s h).mono (fun _ s' h' => ih h') fun _ _ he => he

section Keeps

variable {R : σ → σ → Prop} {x : EStateM ε σ α} {f : α → EStateM ε σ β}

theorem Keeps.allows (h : Keeps R x) (s : σ) : Allows x (fun _ s' => R s s') s :=
  (h s).mono (fun _ _ hr => hr) fun _ _ _ => trivial

theorem keeps_pure [Std.Refl R] (a : α) : Keeps R (pure a : EStateM ε σ α) := fun s => refl_of R s

theorem keeps_get [Std.Refl R] : Keeps R (get : EStateM ε σ σ) := fun s => refl_of R s

theorem keeps_throw [Std.Refl R] (e : ε) : Keeps R (throw e : EStateM ε σ α) := fun s => refl_of R s

theorem keeps_lift [Std.Refl R] (x : Except ε α) : Keeps R (lift x : EStateM ε σ α) := by
  intro s
  cases x with
  | ok a => exact refl_of R s
  | error e => exact refl_of R s

theorem keeps_bind [IsTrans σ R] (hx : Keeps R x) (hf : ∀ a, Keeps R (f a)) :
    Keeps R (x >>= f) := by
  intro s
  rw [wp_bind]
  refine (hx s).mono ?_ ?_
  · intro a s' hs
    exact (hf a s').mono (fun _ _ h => trans_of R hs h) (fun _ _ h => trans_of R hs h)
  · exact fun _ _ h => h

theorem keeps_ite {p : Prop} [Decidable p] {y : EStateM ε σ α} (hx : Keeps R x) (hy : Keeps R y) :
    Keeps R (if p then x else y) := by
  split
  · exact hx
  · exact hy

/-- What a test raises leaves the state as it is. -/
theorem keeps_guard [Std.Refl R] {p : Prop} [Decidable p] {e : ε} {f : β → EStateM ε σ α}
    (hx : Keeps R x) : Keeps R (if p then throw e >>= f else x) := by
  split
  · intro s
    rw [wp_bind, wp_throw]
    exact refl_of R s
  · exact hx

theorem keeps_tryCatch [IsTrans σ R] {handle : ε → EStateM ε σ α} (hx : Keeps R x)
    (hhandle : ∀ e, Keeps R (handle e)) : Keeps R (tryCatch x handle) := by
  intro s
  rw [wp_tryCatch]
  refine (hx s).mono (fun _ _ hr => hr) ?_
  intro e s' hr
  exact (hhandle e s').mono (fun _ _ hr' => trans_of R hr hr') fun _ _ hr' => trans_of R hr hr'

theorem Keeps.and {R' : σ → σ → Prop} (h : Keeps R x) (h' : Keeps R' x) :
    Keeps (fun s s' => R s s' ∧ R' s s') x := fun s => (h s).and (h' s)

theorem Keeps.imp {R' : σ → σ → Prop} (h : Keeps R x) (hR : ∀ s s', R s s' → R' s s') :
    Keeps R' x := fun s => (h s).mono (fun _ s' => hR s s') fun _ s' => hR s s'

/-- What is kept is kept from a state on that is related to the one before. -/
theorem Keeps.trans [IsTrans σ R] {s s' : σ} (hx : Keeps R x) (h : R s s') :
    Wp x (fun _ s'' => R s s'') (fun _ s'' => R s s'') s' :=
  (hx s').mono (fun _ _ h' => trans_of R h h') fun _ _ h' => trans_of R h h'

theorem keeps_foldlM_of_mem [Std.Refl R] [IsTrans σ R] {f : β → γ → EStateM ε σ β} {l : List γ}
    (hf : ∀ b, ∀ c ∈ l, Keeps R (f b c)) (b : β) : Keeps R (l.foldlM f b) := by
  induction l generalizing b with
  | nil => exact keeps_pure b
  | cons c cs ih =>
    rw [List.foldlM_cons]
    exact keeps_bind (hf b c List.mem_cons_self)
      (ih fun b c' hc' => hf b c' (List.mem_cons_of_mem c hc'))

theorem keeps_foldlM [Std.Refl R] [IsTrans σ R] {f : β → γ → EStateM ε σ β}
    (hf : ∀ b c, Keeps R (f b c)) (l : List γ) (b : β) : Keeps R (l.foldlM f b) :=
  keeps_foldlM_of_mem (fun b c _ => hf b c) b

theorem keeps_forM [Std.Refl R] [IsTrans σ R] {f : γ → EStateM ε σ PUnit}
    (hf : ∀ c, Keeps R (f c)) (l : List γ) : Keeps R (l.forM f) := by
  induction l with
  | nil => exact keeps_pure _
  | cons c cs ih => exact keeps_bind (hf c) fun _ => ih

end Keeps

section Confines

variable {R : σ → σ → Prop} {P : ε → Prop} {x : EStateM ε σ α} {f : α → EStateM ε σ β}

theorem Confines.keeps (h : Confines R P x) : Keeps R x := fun s =>
  (h s).mono (fun _ _ hr => hr) fun _ _ hr => hr.1

theorem confines_pure [Std.Refl R] (a : α) : Confines R P (pure a : EStateM ε σ α) := fun s =>
  refl_of R s

theorem confines_throw [Std.Refl R] {e : ε} (he : P e) :
    Confines R P (throw e : EStateM ε σ α) := fun s => ⟨refl_of R s, he⟩

theorem confines_get [Std.Refl R] : Confines R P (get : EStateM ε σ σ) := fun s => refl_of R s

theorem confines_bind [IsTrans σ R] (hx : Confines R P x) (hf : ∀ a, Confines R P (f a)) :
    Confines R P (x >>= f) := by
  intro s
  rw [wp_bind]
  refine (hx s).mono ?_ fun _ _ h => h
  intro a s' hs
  exact (hf a s').mono (fun _ _ h => trans_of R hs h) fun _ _ h => ⟨trans_of R hs h.1, h.2⟩

theorem confines_ite {p : Prop} [Decidable p] {y : EStateM ε σ α} (hx : Confines R P x)
    (hy : Confines R P y) : Confines R P (if p then x else y) := by
  split
  · exact hx
  · exact hy

theorem confines_guard [Std.Refl R] {p : Prop} [Decidable p] {e : ε} {f : β → EStateM ε σ α}
    (he : P e) (hx : Confines R P x) : Confines R P (if p then throw e >>= f else x) := by
  split
  · intro s
    rw [wp_bind, wp_throw]
    exact ⟨refl_of R s, he⟩
  · exact hx

theorem confines_tryCatch [IsTrans σ R] {handle : ε → EStateM ε σ α} (hx : Confines R P x)
    (hhandle : ∀ e, P e → Confines R P (handle e)) : Confines R P (tryCatch x handle) := by
  intro s
  rw [wp_tryCatch]
  refine (hx s).mono (fun _ _ hr => hr) ?_
  rintro e s' ⟨hr, he⟩
  exact (hhandle e he s').mono (fun _ _ hr' => trans_of R hr hr') fun _ _ hr' =>
    ⟨trans_of R hr hr'.1, hr'.2⟩

theorem confines_foldlM [Std.Refl R] [IsTrans σ R] {f : β → γ → EStateM ε σ β}
    (hf : ∀ b c, Confines R P (f b c)) (l : List γ) (b : β) : Confines R P (l.foldlM f b) := by
  induction l generalizing b with
  | nil => exact confines_pure b
  | cons c cs ih =>
    rw [List.foldlM_cons]
    exact confines_bind (hf b c) ih

end Confines

section Runs

variable {R : σ → σ → Prop} {x : EStateM ε σ α} {f : α → EStateM ε σ β}

theorem Runs.keeps (h : Runs R x) : Keeps R x := fun s =>
  (h s).mono (fun _ _ hr => hr) (fun _ _ hfalse => hfalse.elim)

theorem runs_pure [Std.Refl R] (a : α) : Runs R (pure a : EStateM ε σ α) := fun s => refl_of R s

theorem runs_bind [IsTrans σ R] (hx : Runs R x) (hf : ∀ a, Runs R (f a)) : Runs R (x >>= f) := by
  intro s
  rw [Ensures, wp_bind]
  refine (hx s).mono ?_ ?_
  · intro a s' hs
    exact (hf a s').mono (fun _ _ h => trans_of R hs h) (fun _ _ h => h)
  · exact fun _ _ h => h

theorem runs_ite {p : Prop} [Decidable p] {y : EStateM ε σ α} (hx : Runs R x) (hy : Runs R y) :
    Runs R (if p then x else y) := by
  split
  · exact hx
  · exact hy

theorem runs_foldlM [Std.Refl R] [IsTrans σ R] {f : β → γ → EStateM ε σ β}
    (hf : ∀ b c, Runs R (f b c)) (l : List γ) (b : β) : Runs R (l.foldlM f b) := by
  induction l generalizing b with
  | nil => exact runs_pure b
  | cons c cs ih =>
    rw [List.foldlM_cons]
    exact runs_bind (hf b c) ih

/-- A block keeps a relation when its first statement does, and the rest from where that ends. -/
theorem Ensures.bind_trans [IsTrans σ R] {Q : α → σ → Prop} {s : σ}
    (h : Ensures x (fun a s' => R s s' ∧ Q a s') s)
    (hf : ∀ a s', Q a s' → Ensures (f a) (fun _ s'' => R s' s'') s') :
    Ensures (x >>= f) (fun _ s'' => R s s'') s := by
  refine h.bind ?_
  rintro a s' ⟨hs, hq⟩
  exact (hf a s' hq).imp fun _ _ hs' => trans_of R hs hs'

/-- A block goes on from a state that is related to the one before. -/
theorem Runs.trans [IsTrans σ R] {s s' : σ} (hx : Runs R x) (h : R s s') :
    Ensures x (fun _ s'' => R s s'') s' :=
  (hx s').imp fun _ _ h' => trans_of R h h'

theorem Runs.imp {R' : σ → σ → Prop} (h : Runs R x) (hR : ∀ s s', R s s' → R' s s') : Runs R' x :=
  fun s => (h s).imp fun _ s' => hR s s'

end Runs

end Python
