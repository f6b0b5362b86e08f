import ClickA.Client.OwnAnswers

/-!
# Error isolation

A wait reads the answers to all futures before its own in the queue. It raises at the first of them
that has an error: the future of that answer has left the queue without a value, and the futures
behind it are still to be waited for.

## Main definitions

* `OwnOutcome`: a wait raises, or returns, what its own answer says
* `Undisturbed`: the errors in the queue do not change what a wait does
* `EveryWait`: what holds of every wait of a program

## Main results

* `ownOutcome_iff`: a wait has its own outcome exactly when it is undisturbed
* `everyWait_ownOutcome_iff`: the same for all waits of a program
-/

namespace ClickA.Client

open Python Options Fpga

/-- A wait raises a `ValueError` if the answer to its own future has an error, and returns the value
of that answer otherwise. -/
structure OwnOutcome (env : Env) (s : State) (fut : ℕ) : Prop where
  raises : Flagged env s fut → ∃ s', wait env fut s = .error (.raised .valueError) s'
  returns : ¬ Flagged env s fut → ∃ v s', wait env fut s = .ok v s' ∧ OwnValue env s fut v

/-- If the future's own answer has an error, so has one that is still in the queue. Otherwise no
answer before it in the queue has one. -/
structure Undisturbed (env : Env) (s : State) (fut : ℕ) : Prop where
  flagged : Flagged env s fut → ∃ g ∈ s.pending, Flagged env s g
  clean : ¬ Flagged env s fut → ∀ g ∈ s.pending, g < fut → ¬ Flagged env s g

/-- `P` holds of every future that a program waits for, in the state before the wait. -/
def EveryWait (env : Env) (P : State → ℕ → Prop) : State → List Call → Prop
  | _, [] => True
  | s, call :: calls =>
    (∀ fut, call = .wait fut → fut < s.futures.length → P s fut) ∧
      EveryWait env P (step env s call) calls

/-- No answer is lost, and of the futures whose answer was read those without an error have their
value. -/
structure Settled (env : Env) (s : State) : Prop extends Owned env s where
  aligned : QueueAligned s
  clean : ∀ (fut : ℕ) (future : Future), s.futures[fut]? = some future → future.valid = true →
    ¬ Flagged env s fut
  waiting : ∀ (fut : ℕ) (future : Future), s.futures[fut]? = some future → ¬ Flagged env s fut →
    (s.read ≤ fut ↔ future.valid = false)

section Settled

variable {env : Env} {s : State} {current target fut : ℕ}

theorem settled_init : Settled env init :=
  ⟨owned_init, rfl, fun _ _ h => absurd h (by simp [init]), fun _ _ h => absurd h (by simp [init])⟩

theorem Settled.ticked (h : Settled env s) : Settled env s.ticked :=
  ⟨h.toOwned.ticked, h.aligned, h.clean, h.waiting⟩

/-- The queue holds the futures whose answers are not read. -/
theorem Settled.mem_pending_iff (h : Settled env s) (g : ℕ) :
    g ∈ s.pending ↔ s.read ≤ g ∧ g < s.sent.length := by
  have hunread := h.unread
  rw [h.aligned, List.mem_range'_1]
  omega

/-- A new request does not change the answers to the others. -/
theorem flagged_requested_iff {req : FPGAMapRequestPacket} (hlt : fut < s.sent.length) :
    Flagged env (s.requested req) fut ↔ Flagged env s fut := by
  unfold Flagged
  have hsent : (s.requested req).sent[fut]? = s.sent[fut]? := List.getElem?_append_left hlt
  rw [hsent]

theorem Settled.requested {req : FPGAMapRequestPacket} (h : Settled env s) (hreq : req.Valid) :
    Settled env (s.requested req) := by
  have hlength := h.length
  have hqueued := h.toQueued.requested hreq
  have hold {fut : ℕ} {future : Future} (hfuture : (s.requested req).futures[fut]? = some future)
      (hlt : fut < s.sent.length) : s.futures[fut]? = some future := by
    rw [← hfuture]
    exact (List.getElem?_append_left (hlength ▸ hlt)).symm
  have hnew {fut : ℕ} {future : Future} (hfuture : (s.requested req).futures[fut]? = some future)
      (hge : s.sent.length ≤ fut) : future.valid = false := by
    have hfuture : (s.futures ++ [futureOf req])[fut]? = some future := hfuture
    rw [List.getElem?_append_right (hlength ▸ hge)] at hfuture
    obtain ⟨_, hnew⟩ := List.getElem?_eq_some_iff.mp hfuture
    rw [List.getElem_singleton] at hnew
    rw [← hnew]
    rfl
  refine ⟨h.toOwned.requested hreq, ?_, ?_, ?_⟩
  · rw [hqueued.aligned_iff]
    show (s.pending ++ [s.futures.length]).length + s.read = (s.sent ++ [req]).length
    have haligned := h.toQueued.aligned_iff.mp h.aligned
    rw [List.length_append, List.length_append, List.length_singleton, List.length_singleton]
    omega
  · intro fut future hfuture hvalid
    rcases Nat.lt_or_ge fut s.sent.length with hlt | hge
    · rw [flagged_requested_iff hlt]
      exact h.clean fut future (hold hfuture hlt) hvalid
    · exact absurd ((hnew hfuture hge).symm.trans hvalid) Bool.false_ne_true
  · intro fut future hfuture hflag
    show s.read ≤ fut ↔ _
    rcases Nat.lt_or_ge fut s.sent.length with hlt | hge
    · rw [flagged_requested_iff hlt] at hflag
      exact h.waiting fut future (hold hfuture hlt) hflag
    · have hunread := h.unread
      exact iff_of_true (by omega) (hnew hfuture hge)

theorem flagged_congr {s' : State} (h : s'.sent = s.sent) :
    Flagged env s' fut ↔ Flagged env s fut := by
  unfold Flagged
  rw [h]

/-- The answer to be read next is that of the head of the queue. -/
theorem Settled.read_eq {l : List ℕ} (h : Settled env s) (hl : s.pending = current :: l) :
    s.read = current := by
  have hlen := h.toQueued.aligned_iff.mp h.aligned
  have hcurrent := (h.toQueued.popped hl).current
  rw [hl, List.length_cons] at hlen
  dsimp only at hcurrent
  omega

/-- A round reads the answer to the future it takes, and raises exactly when it has an error. -/
theorem wp_receiveOne_settled {l : List ℕ} (harrives : ∀ n, env.arrives n = true)
    (h : Settled env s) (hl : s.pending = current :: l) :
    Wp (receiveOne env current)
      (fun _ s' => Settled env s' ∧ s'.pending = l ∧ s'.sent = s.sent ∧ ¬ Flagged env s current ∧
        ∃ future, s'.futures[current]? = some future ∧ future.valid = true)
      (fun e s' => Settled env s' ∧ e = .raised .valueError ∧ Flagged env s current)
      { s with pending := l } := by
  have hpopped := h.toQueued.popped hl
  have hlen := h.toQueued.aligned_iff.mp h.aligned
  obtain rfl := h.read_eq hl
  rw [hl, List.length_cons] at hlen
  have hround := wp_receiveOne_owned h.toOwned hl (not_confused_of_aligned h.toQueued h.aligned)
  have hread : Wp (receiveOne env s.read)
      (fun _ s' => s'.sent = s.sent ∧ s'.pending = l ∧ s'.read = s.read + 1 ∧
        ¬ Flagged env s s.read ∧ ∃ v, s'.futures = (s.valued s.read v).futures)
      (fun e s' => s'.sent = s.sent ∧ s'.pending = l ∧ s'.read = s.read + 1 ∧
        e = .raised .valueError ∧ Flagged env s s.read ∧ s'.futures = s.futures)
      { s with pending := l } := by
    refine wp_receiveOne hpopped ?_ ?_
    · intro hlate
      exact absurd (hlate.symm.trans (harrives s.receives)) Bool.false_ne_true
    · intro _ req future pck v hreq _ hfuture hpck _
      obtain ⟨req', hreq', -, hmatches⟩ := h.future s.read future hfuture
      obtain rfl := Option.some.inj (hreq.symm.trans hreq')
      refine ⟨fun hnot => absurd hmatches hnot, fun _ hne => ?_, fun _ hzero => ?_⟩
      · exact ⟨rfl, rfl, rfl, rfl, ⟨req, pck, hreq, hpck, hne⟩, rfl⟩
      · refine ⟨rfl, rfl, rfl, ?_, v, rfl⟩
        rintro ⟨req', pck', hreq', hpck', hne⟩
        obtain rfl := Option.some.inj (hreq.symm.trans hreq')
        obtain rfl := Except.ok.inj (hpck.symm.trans hpck')
        exact hne hzero
  have haligned {s' : State} (howned : Owned env s') (hsent : s'.sent = s.sent)
      (hpending : s'.pending = l) (hnext : s'.read = s.read + 1) : QueueAligned s' := by
    rw [howned.toQueued.aligned_iff, hsent, hpending, hnext]
    omega
  refine (hround.and hread).mono ?_ ?_
  · rintro _ s' ⟨⟨howned, -, -, hvalue⟩, hsent, hpending, hnext, hflag, v, hfutures⟩
    refine ⟨⟨howned, haligned howned hsent hpending hnext, ?_, ?_⟩, hpending, hsent, hflag, hvalue⟩
    · intro fut future hfuture hvalid
      rw [flagged_congr hsent]
      rw [hfutures, getElem?_valued] at hfuture
      obtain ⟨future', hfuture', heq⟩ := Option.map_eq_some_iff.mp hfuture
      by_cases hfut : s.read = fut
      · exact hfut ▸ hflag
      · rw [if_neg hfut] at heq
        subst heq
        exact h.clean fut future' hfuture' hvalid
    · intro fut future hfuture hclean
      rw [flagged_congr hsent] at hclean
      rw [hfutures, getElem?_valued] at hfuture
      rw [hnext]
      obtain ⟨future', hfuture', heq⟩ := Option.map_eq_some_iff.mp hfuture
      by_cases hfut : s.read = fut
      · rw [if_pos hfut] at heq
        subst heq
        exact iff_of_false (by omega) Bool.noConfusion
      · rw [if_neg hfut] at heq
        subst heq
        rw [← h.waiting fut future' hfuture' hclean]
        omega
  · rintro e s' ⟨howned, hsent, hpending, hnext, he, hflag, hfutures⟩
    refine ⟨⟨howned, haligned howned hsent hpending hnext, ?_, ?_⟩, he, hflag⟩
    · intro fut future hfuture hvalid
      rw [flagged_congr hsent]
      rw [hfutures] at hfuture
      exact h.clean fut future hfuture hvalid
    · intro fut future hfuture hclean
      rw [flagged_congr hsent] at hclean
      rw [hfutures] at hfuture
      rw [hnext, ← h.waiting fut future hfuture hclean]
      have hne : s.read ≠ fut := by
        rintro rfl
        exact hclean hflag
      omega

/-! ## The wait for one future -/

/-- A wait raises when an answer with an error comes before its own, or is its own. -/
theorem receive_flagged {g : ℕ} (harrives : ∀ n, env.arrives n = true) (h : Settled env s)
    (hg : g ∈ s.pending) (hflag : Flagged env s g) (hbefore : target ∈ s.pending → g ≤ target) :
    ∃ s', receive env target s = .error (.raised .valueError) s' := by
  have hreceive : Wp (receive env target) (fun _ _ => False)
      (fun e _ => e = .raised .valueError) s := by
    unfold receive
    rw [wp_bind, wp_get]
    refine wp_receiveFrom (Q := fun _ => False)
      (J := fun l s' => Settled env s' ∧ s'.pending = l ∧ s'.sent = s.sent ∧ g ∈ l ∧
        (target ∈ l → g ≤ target)) ?_ ?_ ⟨h, rfl, rfl, hg, hbefore⟩
    · rintro s' ⟨-, -, -, hnil, -⟩
      exact absurd hnil List.not_mem_nil
    · rintro c l s' ⟨hs, hl, hsent, hmem, hfirst⟩
      refine (wp_receiveOne_settled harrives hs hl).mono ?_ fun e _ he => he.2.1
      rintro _ s'' ⟨hs', hl', hsent', hclean, -⟩
      have hne : g ≠ c := by
        rintro rfl
        rw [flagged_congr hsent] at hclean
        exact hclean hflag
      -- the queue is in order, so that the round was for an earlier request
      have hcg : c < g := by
        have hread := ((hs.mem_pending_iff g).mp (hl ▸ hmem)).1
        rw [hs.read_eq hl] at hread
        omega
      have hrest : g ∈ l := List.mem_of_ne_of_mem hne hmem
      split
      · next heq =>
        have hle := hfirst (heq ▸ List.mem_cons_self)
        omega
      · exact ⟨hs', hl', hsent'.trans hsent, hrest, fun hmem =>
          hfirst (List.mem_cons_of_mem c hmem)⟩
  obtain ⟨e, s', hs', rfl⟩ := hreceive.exists_error
  exact ⟨s', hs'⟩

/-- A wait for a future that has left the queue finds the queue empty in the end. -/
theorem receive_exhausted (harrives : ∀ n, env.arrives n = true) (h : Settled env s)
    (htarget : target ∉ s.pending) (hclean : ∀ g ∈ s.pending, ¬ Flagged env s g) :
    ∃ s', receive env target s = .error (.raised .indexError) s' := by
  have hreceive : Wp (receive env target) (fun _ _ => False)
      (fun e _ => e = .raised .indexError) s := by
    unfold receive
    rw [wp_bind, wp_get]
    refine wp_receiveFrom (Q := fun _ => False)
      (J := fun l s' => Settled env s' ∧ s'.pending = l ∧ s'.sent = s.sent ∧ target ∉ l ∧
        ∀ g ∈ l, ¬ Flagged env s g) (fun _ _ => rfl) ?_ ⟨h, rfl, rfl, htarget, hclean⟩
    rintro c l s' ⟨hs, hl, hsent, hnot, hall⟩
    refine (wp_receiveOne_settled harrives hs hl).mono ?_ ?_
    · rintro _ s'' ⟨hs', hl', hsent', -, -⟩
      rw [if_neg fun heq : c = target => hnot (heq ▸ List.mem_cons_self)]
      exact ⟨hs', hl', hsent'.trans hsent, fun hmem => hnot (List.mem_cons_of_mem c hmem),
        fun g hg => hall g (List.mem_cons_of_mem c hg)⟩
    · rintro e s'' ⟨-, -, hflag⟩
      rw [flagged_congr hsent] at hflag
      exact absurd hflag (hall c List.mem_cons_self)
  obtain ⟨e, s', hs', rfl⟩ := hreceive.exists_error
  exact ⟨s', hs'⟩

/-- A wait returns when no answer up to its own has an error. -/
theorem ensures_wait (harrives : ∀ n, env.arrives n = true) (h : Settled env s)
    (hfut : fut < s.futures.length) (hclean : ∀ g ∈ s.pending, g ≤ fut → ¬ Flagged env s g)
    (hown : ¬ Flagged env s fut) : Ensures (wait env fut) (fun v _ => OwnValue env s fut v) s := by
  refine wp_wait_value ?_ ?_ ?_
  · intro hnone
    exact absurd (List.getElem?_eq_none_iff.mp hnone) (Nat.not_le_of_lt hfut)
  · exact fun future hfuture hvalid => h.own fut future hfuture hvalid
  · intro future hfuture hvalid
    have hmem : fut ∈ s.pending := by
      rw [h.mem_pending_iff]
      exact ⟨(h.waiting fut future hfuture hown).mpr hvalid, h.length ▸ hfut⟩
    unfold receive
    rw [wp_bind, wp_get]
    refine wp_receiveFrom (Q := fun s' => ∃ future', s'.futures[fut]? = some future' ∧
        OwnValue env s fut future'.value)
      (J := fun l s' => Settled env s' ∧ s'.pending = l ∧ s'.sent = s.sent ∧ fut ∈ l ∧
        ∀ g ∈ l, g ≤ fut → ¬ Flagged env s g) ?_ ?_ ⟨h, rfl, rfl, hmem, hclean⟩
    · rintro s' ⟨-, -, -, hnil, -⟩
      exact absurd hnil List.not_mem_nil
    · rintro c l s' ⟨hs, hl, hsent, hin, hall⟩
      have hle : c ≤ fut := by
        have hread := ((hs.mem_pending_iff fut).mp (hl ▸ hin)).1
        rw [hs.read_eq hl] at hread
        exact hread
      refine (wp_receiveOne_settled harrives hs hl).mono ?_ ?_
      · rintro _ s'' ⟨hs', hl', hsent', -, future', hfuture', hvalid'⟩
        split
        · next heq =>
          subst heq
          have hvalue := hs'.own c future' hfuture' hvalid'
          unfold OwnValue at hvalue
          rw [hsent', hsent] at hvalue
          exact ⟨future', hfuture', hvalue⟩
        · next hne =>
          exact ⟨hs', hl', hsent'.trans hsent, List.mem_of_ne_of_mem (Ne.symm hne) hin,
            fun g hg => hall g (List.mem_cons_of_mem c hg)⟩
      · rintro e s'' ⟨-, -, hflag⟩
        rw [flagged_congr hsent] at hflag
        exact hall c List.mem_cons_self hle hflag

/-- **A wait has its own outcome exactly when it is undisturbed.** -/
theorem ownOutcome_iff (harrives : ∀ n, env.arrives n = true) (h : Settled env s)
    (hfut : fut < s.futures.length) : OwnOutcome env s fut ↔ Undisturbed env s fut := by
  have hfuture := List.getElem?_eq_getElem hfut
  have hinvalid (hflag : Flagged env s fut) : s.futures[fut].valid = false := by
    by_contra htrue
    rw [Bool.not_eq_false] at htrue
    exact h.clean fut _ hfuture htrue hflag
  constructor
  · rintro ⟨hraises, hreturns⟩
    refine ⟨fun hflag => ?_, fun hclean g hg hlt hflag => ?_⟩
    · by_contra hnone
      push Not at hnone
      obtain ⟨s₁, hs₁⟩ := hraises hflag
      obtain ⟨s₂, hs₂⟩ := receive_exhausted harrives h (fun hmem => hnone fut hmem hflag) hnone
      have herror := wait_of_error hfuture (hinvalid hflag) hs₂
      exact absurd (hs₁.symm.trans herror) (by simp)
    · obtain ⟨v, s₁, hs₁, -⟩ := hreturns hclean
      obtain ⟨s₂, hs₂⟩ := receive_flagged harrives h hg hflag fun _ => hlt.le
      have hread := ((h.mem_pending_iff g).mp hg).1
      have hvalid := (h.waiting fut _ hfuture hclean).mp (by omega)
      have herror := wait_of_error hfuture hvalid hs₂
      exact absurd (hs₁.symm.trans herror) (by simp)
  · rintro ⟨hflagged, hclean⟩
    refine ⟨fun hflag => ?_, fun hown => ?_⟩
    · have hvalid := hinvalid hflag
      by_cases hmem : fut ∈ s.pending
      · obtain ⟨s', hs'⟩ := receive_flagged harrives h hmem hflag fun _ => Nat.le_refl fut
        exact ⟨s', wait_of_error hfuture hvalid hs'⟩
      · obtain ⟨g, hg, hgflag⟩ := hflagged hflag
        obtain ⟨s', hs'⟩ := receive_flagged harrives h hg hgflag fun hin => absurd hin hmem
        exact ⟨s', wait_of_error hfuture hvalid hs'⟩
    · have hbefore : ∀ g ∈ s.pending, g ≤ fut → ¬ Flagged env s g := by
        intro g hg hle
        rcases Nat.eq_or_lt_of_le hle with rfl | hlt
        · exact hown
        · exact hclean hown g hg hlt
      exact ensures_iff.mp (ensures_wait harrives h hfut hbefore hown)

/-! ## The waits of a program -/

/-- Every call keeps the futures settled. -/
theorem Settled.step (harrives : ∀ n, env.arrives n = true) (h : Settled env s) (call : Call) :
    Settled env (step env s call) := by
  by_cases hcall : ∃ fut, call = .wait fut
  · obtain ⟨fut, rfl⟩ := hcall
    refine after_of_wp (wp_wait h fun future _ _ => ?_)
    unfold receive
    rw [wp_bind, wp_get]
    refine wp_receiveFrom (J := fun l s' => Settled env s' ∧ s'.pending = l) (fun _ h => h.1) ?_
      ⟨h, rfl⟩
    rintro c l s' ⟨hs, hl⟩
    refine (wp_receiveOne_settled harrives hs hl).mono ?_ fun _ _ he => he.1
    rintro _ s'' ⟨hs', hl', -⟩
    split
    · exact hs'
    · exact ⟨hs', hl'⟩
  · push Not at hcall
    exact step_request hcall h.ticked fun req hreq _ => h.ticked.requested hreq

theorem Settled.run (harrives : ∀ n, env.arrives n = true) (h : Settled env s) (calls : List Call) :
    Settled env (run env s calls) := by
  induction calls generalizing s with
  | nil => exact h
  | cons call calls ih => exact ih (h.step harrives call)

theorem everyWait_append {P : State → ℕ → Prop} {calls calls' : List Call} :
    EveryWait env P s (calls ++ calls') ↔
      EveryWait env P s calls ∧ EveryWait env P (run env s calls) calls' := by
  induction calls generalizing s with
  | nil => exact (iff_of_eq (true_and _)).symm
  | cons call calls ih =>
    show _ ∧ EveryWait env P (step env s call) (calls ++ calls') ↔ _
    rw [ih, ← and_assoc]
    rfl

theorem Settled.everyWait_congr {P Q : State → ℕ → Prop} {calls : List Call}
    (harrives : ∀ n, env.arrives n = true) (h : Settled env s)
    (hiff : ∀ s fut, Settled env s → fut < s.futures.length → (P s fut ↔ Q s fut)) :
    EveryWait env P s calls ↔ EveryWait env Q s calls := by
  induction calls generalizing s with
  | nil => exact Iff.rfl
  | cons call calls ih =>
    refine and_congr ?_ (ih (h.step harrives call))
    exact forall_congr' fun fut => forall_congr' fun _ => forall_congr' fun hfut =>
      hiff s fut h hfut

end Settled

/-- **All waits of a program have their own outcome exactly when they are undisturbed.** No answer
is lost. -/
theorem everyWait_ownOutcome_iff (env : Env) (calls : List Call)
    (harrives : ∀ n, env.arrives n = true) : EveryWait env (OwnOutcome env) init calls ↔
      EveryWait env (Undisturbed env) init calls :=
  settled_init.everyWait_congr harrives fun _ _ h hfut => ownOutcome_iff harrives h hfut

/-! ## An error in the queue -/

section Example

variable {env : Env} {s : State} {fut : ℕ}

/-- A wait for the only future in the queue is undisturbed. -/
theorem undisturbed_of_pending_eq (h : s.pending = [fut]) : Undisturbed env s fut := by
  refine ⟨fun hflag => ⟨fut, h ▸ List.mem_singleton_self fut, hflag⟩, fun _ g hg hlt => ?_⟩
  rw [h, List.mem_singleton] at hg
  omega

/-- The constructor waits for its own answer only. -/
theorem everyWait_connectCalls : EveryWait env (Undisturbed env) init connectCalls := by
  refine ⟨fun fut hcall _ => absurd hcall (by simp), fun fut hcall _ => ?_, trivial⟩
  obtain rfl := Call.wait.inj hcall
  rw [step_connect]
  exact undisturbed_of_pending_eq rfl

/-- An answer of the server has an error where the server says so. -/
theorem flagged_constantServer {value : ℕ → UInt8} {errorFlag : ℕ → ℕ} {arrives : ℕ → Bool}
    {req : FPGAMapRequestPacket} (hreq : req.Valid) (h128 : req.startAddr < 128)
    (hsent : s.sent[fut]? = some req) :
    Flagged (constantServer value errorFlag arrives) s fut ↔ errorFlag fut % 2 ≠ 0 := by
  obtain ⟨pck, hpck, -, -, -, herror, -⟩ :=
    decode_constantServer hreq h128 value errorFlag arrives fut
  constructor
  · rintro ⟨req', pck', hreq', hpck', hne⟩
    obtain rfl := Option.some.inj (hsent.symm.trans hreq')
    obtain rfl := Except.ok.inj (hpck.symm.trans hpck')
    rw [← herror]
    exact hne
  · intro hne
    rw [← herror] at hne
    exact ⟨req, pck, hsent, hpck, hne⟩

theorem exists_read {addr : ℕ} (haddr : addr < 2 ^ 16) : ∃ req : FPGAMapRequestPacket, req.Valid ∧
    req.startAddr = addr ∧ step env s (.readRegAsync addr 1) = s.ticked.requested req :=
  ⟨readRequest env s addr, valid_readRequest haddr, rfl,
      step_readRegAsync (valid_readRequest haddr)⟩

/-- A wait for the second of two futures is disturbed by the error of the first one. -/
theorem not_ownOutcome_second {req req' : FPGAMapRequestPacket}
    (harrives : ∀ n, env.arrives n = true)
    (h : Settled env ((s.ticked.requested req).ticked.requested req')) (hpending : s.pending = [])
    (hfutures : s.futures.length = 1)
    (hflag : Flagged env ((s.ticked.requested req).ticked.requested req') 1)
    (hclean : ¬ Flagged env ((s.ticked.requested req).ticked.requested req') 2) :
    ¬ OwnOutcome env ((s.ticked.requested req).ticked.requested req') 2 := by
  have hlength : ((s.ticked.requested req).ticked.requested req').futures.length = 3 := by
    show (s.futures ++ [_] ++ [_]).length = 3
    rw [List.length_append, List.length_append, hfutures]
    rfl
  have hqueue : ((s.ticked.requested req).ticked.requested req').pending = [1, 2] := by
    show s.pending ++ [s.futures.length] ++ [(s.futures ++ [_]).length] = [1, 2]
    rw [List.length_append, hpending, hfutures]
    rfl
  intro hown
  have hundisturbed := (ownOutcome_iff harrives h (hlength ▸ (by decide : 2 < 3))).mp hown
  exact hundisturbed.clean hclean 1 (hqueue ▸ List.mem_cons_self) (by decide) hflag

end Example

/-- A server whose second answer has an error. -/
def flaggedServer : Env := constantServer (fun _ => 7)
    (fun i => if i = 1 then 1 else 0) fun _ => true

theorem run_connect_flaggedServer : (run flaggedServer init connectCalls).pending = [] ∧
    (run flaggedServer init connectCalls).futures.length = 1 ∧
    (run flaggedServer init connectCalls).sent.length = 1 := by
  obtain ⟨pck, hpck, haddr, hrq, hrw, herror, hv⟩ := decode_constantServer
    (valid_connectRequest flaggedServer) (by decide) (fun _ => 7) (fun i => if i = 1 then 1 else 0)
    (fun _ => true) 0
  have hconnect : run flaggedServer init connectCalls = _ :=
    run_connect rfl hpck haddr hrq hrw herror hv
  rw [hconnect]
  exact ⟨rfl, rfl, rfl⟩

/-- A read whose answer has an error, after the constructor. -/
theorem everyWait_flaggedServer : EveryWait flaggedServer (OwnOutcome flaggedServer) init
    (connectCalls ++ [.readRegAsync 10 1, .wait 1]) := by
  refine (everyWait_ownOutcome_iff flaggedServer _ fun _ => rfl).mpr ?_
  rw [everyWait_append]
  refine ⟨everyWait_connectCalls, fun fut hcall _ => absurd hcall (by simp), fun fut hcall _ => ?_,
    trivial⟩
  obtain rfl := Call.wait.inj hcall
  obtain ⟨hpending, hfutures, -⟩ := run_connect_flaggedServer
  generalize run flaggedServer init connectCalls = s at *
  obtain ⟨req, -, -, hread⟩ : ∃ req : FPGAMapRequestPacket, req.Valid ∧ req.startAddr = 10 ∧
    step flaggedServer s (.readRegAsync 10 1) = s.ticked.requested req := exists_read (by decide)
  rw [hread]
  refine undisturbed_of_pending_eq ?_
  show s.pending ++ [s.futures.length] = [1]
  rw [hpending, hfutures, List.nil_append]

/-- **The error of another answer.** Two registers are read, and the answer to the first read has an
error. The wait for the second one raises a `ValueError`, and its own answer has no error. -/
theorem not_everyWait_flaggedServer : ¬ EveryWait flaggedServer (OwnOutcome flaggedServer) init
    (connectCalls ++ [.readRegAsync 10 1, .readRegAsync 11 1, .wait 2]) := by
  obtain ⟨hpending, hfutures, hsent⟩ := run_connect_flaggedServer
  have hsettled : Settled flaggedServer (run flaggedServer init connectCalls) :=
    settled_init.run (fun _ => rfl) connectCalls
  rw [everyWait_append]
  rintro ⟨-, -, -, hwait, -⟩
  generalize run flaggedServer init connectCalls = s at *
  obtain ⟨req, hvalid, haddr, hread⟩ : ∃ req : FPGAMapRequestPacket, req.Valid ∧
    req.startAddr = 10 ∧ step flaggedServer s (.readRegAsync 10 1) = s.ticked.requested req :=
    exists_read (by decide)
  obtain ⟨req', hvalid', haddr', hread'⟩ : ∃ req' : FPGAMapRequestPacket, req'.Valid ∧
    req'.startAddr = 11 ∧ step flaggedServer (s.ticked.requested req) (.readRegAsync 11 1) =
      (s.ticked.requested req).ticked.requested req' := exists_read (by decide)
  rw [hread, hread'] at hwait
  have hsecond : ((s.ticked.requested req).ticked.requested req').sent[1]? = some req := by
    show (s.sent ++ [req] ++ [req'])[1]? = some req
    rw [List.append_assoc, List.getElem?_append_right hsent.le, hsent]
    rfl
  have hthird : ((s.ticked.requested req).ticked.requested req').sent[2]? = some req' := by
    show (s.sent ++ [req] ++ [req'])[2]? = some req'
    rw [List.append_assoc, List.getElem?_append_right (by omega), hsent]
    rfl
  -- the second request is the read of register 10, and the only one whose answer has an error
  have hflag : Flagged flaggedServer ((s.ticked.requested req).ticked.requested req') 1 :=
    (flagged_constantServer hvalid (haddr ▸ by decide) hsecond).mpr (by decide)
  have hclean : ¬ Flagged flaggedServer ((s.ticked.requested req).ticked.requested req') 2 := by
    intro hflag'
    exact absurd (flagged_constantServer hvalid' (haddr' ▸ by decide) hthird |>.mp hflag')
      (by decide)
  have hlength : 2 < ((s.ticked.requested req).ticked.requested req').futures.length := by
    show 2 < (s.futures ++ [_] ++ [_]).length
    rw [List.length_append, List.length_append, hfutures, List.length_singleton,
      List.length_singleton]
    exact Nat.lt_succ_self 2
  refine not_ownOutcome_second (fun _ => rfl) ?_ hpending hfutures hflag hclean
    (hwait 2 rfl hlength)
  exact (hsettled.ticked.requested hvalid).ticked.requested hvalid'

end ClickA.Client
