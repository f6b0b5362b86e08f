import ClickA.Client.Queue

/-!
# Alignment

An answer is told apart by its place only: the oldest answer that is not read has to be that of the
oldest future of the queue. A receive that times out drops the queue, but not the answers that are
still to come, so every later wait reads the answer to an earlier request.

## Main definitions

* `NextAnswered`: the next round of a wait does not raise when its answer is there
* `Timely`: no receive so far has timed out

## Main results

* `aligned_run_iff`: the answers that are not read are those of the queue exactly when no receive
  has timed out
* `reaches_connect`: the constructor is a run of calls, so this holds of it too
-/

namespace ClickA.Client

open Python Options Fpga

/-- The answer to a future's request carries an error. -/
def Flagged (env : Env) (s : State) (fut : ℕ) : Prop :=
  ∃ req pck, s.sent[fut]? = some req ∧
    FPGAMapAnswerPacket.decode (env.reply fut req) = .ok pck ∧ pck.error ≠ 0

/-- Once the answer to the oldest future of the queue is there, and has no error, a round for it
does not raise. -/
def NextAnswered (env : Env) (s : State) : Prop :=
  ∀ fut pending, s.pending = fut :: pending → env.arrives s.receives = true →
    ¬ Flagged env s fut → Ensures (receiveOne env fut) (fun _ _ => True)
      { s with pending := pending }

/-- No receive so far has timed out. -/
def Timely (env : Env) (s : State) : Prop := ∀ n < s.receives, env.arrives n = true

section Aligned

variable {env : Env} {s : State} {current : ℕ}

theorem timely_succ_iff (n : ℕ) : (∀ k < n + 1, env.arrives k = true) ↔
    (∀ k < n, env.arrives k = true) ∧ env.arrives n = true := by
  constructor
  · exact fun h => ⟨fun k hk => h k (by omega), h n (by omega)⟩
  · rintro ⟨h, hn⟩ k hk
    rcases Nat.lt_succ_iff_lt_or_eq.mp hk with hlt | rfl
    · exact h k hlt
    · exact hn

/-- The queue is aligned as long as no receive times out. -/
def AlignedIffTimely (env : Env) (s : State) : Prop :=
  Queued s ∧ (s.pending.length + s.read = s.sent.length ↔ Timely env s)

theorem aligned_init : AlignedIffTimely env init :=
  ⟨queued_init, iff_of_true rfl fun n hn => absurd hn (Nat.not_lt_zero n)⟩

theorem AlignedIffTimely.requested {req : FPGAMapRequestPacket} (h : AlignedIffTimely env s)
    (hreq : req.Valid) :
    AlignedIffTimely env (s.requested req) := by
  refine ⟨h.1.requested hreq, ?_⟩
  show (s.pending ++ [s.futures.length]).length + s.read = (s.sent ++ [req]).length ↔ Timely env s
  rw [← h.2, List.length_append, List.length_append, List.length_singleton, List.length_singleton]
  omega

/-- A timeout ends the alignment, and an answer keeps it. -/
theorem wp_receiveOne_aligned {l : List ℕ} (h : AlignedIffTimely env s)
    (hl : s.pending = current :: l) :
    Wp (receiveOne env current) (fun _ s' => AlignedIffTimely env s' ∧ s'.pending = l)
      (fun _ s' => AlignedIffTimely env s') { s with pending := l } := by
  have hpopped := h.1.popped hl
  have hiff := h.2
  have hunread := hpopped.unreadCurrent
  rw [hl, List.length_cons] at hiff
  dsimp only at hunread
  refine wp_receiveOne hpopped ?_ ?_
  -- the queue is cleared, and the late answer is still to come
  · intro hlate
    refine ⟨hpopped.toQueued.timedOut, ?_⟩
    show 0 + s.read = s.sent.length ↔ ∀ n < s.receives + 1, env.arrives n = true
    refine iff_of_false (by omega) ?_
    intro htimely
    exact absurd (hlate.symm.trans (htimely s.receives (Nat.lt_succ_self _))) Bool.false_ne_true
  · intro harrives req future pck v _ _ _ _ _
    have hanswered : AlignedIffTimely env { s with pending := l }.answered := by
      refine ⟨hpopped.answered, ?_⟩
      show l.length + (s.read + 1) = s.sent.length ↔ ∀ n < s.receives + 1, env.arrives n = true
      rw [timely_succ_iff, and_iff_left harrives]
      show _ ↔ Timely env s
      rw [← hiff]
      omega
    refine ⟨fun _ => hanswered, fun _ _ => hanswered, fun _ _ => ⟨⟨?_, hanswered.2⟩, rfl⟩⟩
    exact hanswered.1.valued current v

theorem aligned_run (calls : List Call) : AlignedIffTimely env (run env init calls) := by
  refine run_induction aligned_init (fun _ h => ⟨h.1.ticked, h.2⟩)
    (fun _ _ h hreq => h.requested hreq) ?_ calls
  intro s fut h
  refine wp_wait h fun future _ _ => ?_
  unfold receive
  rw [wp_bind, wp_get]
  refine wp_receiveFrom (J := fun l s => AlignedIffTimely env s ∧ s.pending = l)
    (fun _ h => h.1) ?_ ⟨h, rfl⟩
  rintro c l s ⟨h, hl⟩
  refine (wp_receiveOne_aligned h hl).mono ?_ fun _ _ h => h
  intro _ s' hs'
  split
  · exact hs'.1
  · exact hs'

/-- In an aligned queue the next answer is that of the next future. -/
theorem nextAnswered_of_aligned (h : Queued s) (haligned : QueueAligned s) :
    NextAnswered env s := by
  intro fut pending hpending harrives hflag
  have hpopped := h.popped hpending
  have hlen := h.aligned_iff.mp haligned
  have hcurrent := hpopped.current
  rw [hpending, List.length_cons] at hlen
  dsimp only at hcurrent
  obtain rfl : s.read = fut := by omega
  refine wp_receiveOne hpopped
    (fun hlate => absurd (hlate.symm.trans harrives) Bool.false_ne_true) ?_
  intro _ req future pck v hreq _ hfuture hpck _
  obtain ⟨req', hreq', -, hmatches⟩ := h.future s.read future hfuture
  obtain rfl := Option.some.inj (hreq.symm.trans hreq')
  have herror : pck.error = 0 := by
    by_contra hne
    exact hflag ⟨req, pck, hreq, hpck, hne⟩
  exact ⟨fun hnot => hnot hmatches, fun _ hne => hne herror, fun _ _ => trivial⟩

/-- **The answers that are not read are those of the queue, and the next one is accepted, exactly
when no receive so far has timed out.** -/
theorem aligned_run_iff (env : Env) (calls : List Call) :
    QueueAligned (run env init calls) ∧ NextAnswered env (run env init calls) ↔
      Timely env (run env init calls) := by
  have hqueued : Queued (run env init calls) := queued_run calls
  have haligned : AlignedIffTimely env (run env init calls) := aligned_run calls
  rw [← haligned.2, ← hqueued.aligned_iff]
  exact ⟨fun h => h.1, fun h => ⟨h, nextAnswered_of_aligned hqueued h⟩⟩

/-- The calls of the constructor that is answered, or times out, at once. -/
def connectCalls : List Call := [.writeRegAsync 127 (.str []), .wait 0]

/-- The constructor that is answered at once leaves no answer behind. -/
theorem run_connect {v : RegValue} {pck : FPGAMapAnswerPacket} (harrives : env.arrives 0 = true)
    (hpck : FPGAMapAnswerPacket.decode (env.reply 0 (connectRequest env)) = .ok pck)
    (haddr : pck.startAddr = 127) (hrq : pck.rqNumber = 1) (hrw : pck.rwFlag = 1)
    (herror : pck.error = 0) (hv : decodePayload pck = .ok v) : run env init connectCalls =
      { init.ticked.requested (connectRequest env) with pending := [] }.answered.valued 0 v := by
  have hpending : (init.ticked.requested (connectRequest env)).pending = [0] := rfl
  have hwait := wait_of_answer hpending rfl rfl harrives rfl ⟨rfl, rfl, rfl⟩ hpck haddr hrq hrw
    herror hv
  have hrun : run env init connectCalls =
      after (wait env 0) (init.ticked.requested (connectRequest env)) := by
    unfold run connectCalls
    rw [List.foldl_cons, List.foldl_cons, List.foldl_nil, step_connect]
    rfl
  exact hrun.trans (after_of_ok hwait)

/-- A request that times out leaves its answer behind. -/
theorem not_queueAligned_late (hlate : env.arrives 0 = false) :
    ¬ QueueAligned (run env init connectCalls) := by
  have hrun : run env init connectCalls = _ := run_late step_connect rfl hlate
  intro haligned
  have hlen := congrArg List.length haligned
  have hpending : (run env init connectCalls).pending = [] := congrArg State.pending hrun
  have hread : (run env init connectCalls).read = 0 := congrArg State.read hrun
  have hsent : (run env init connectCalls).sent = [connectRequest env] := congrArg State.sent hrun
  rw [List.length_range', hpending, hread, hsent] at hlen
  exact absurd hlen Nat.zero_ne_one

/-- A server whose answers are late. -/
def lateServer : Env := constantServer (fun _ => 0) (fun _ => 0) fun _ => false

/-- The first try of the constructor times out, and there is an answer too many from then on. -/
theorem not_aligned_lateServer : ¬ (QueueAligned (run lateServer init connectCalls) ∧
    NextAnswered lateServer (run lateServer init connectCalls)) :=
  fun h => not_queueAligned_late rfl h.1

end Aligned

/-! ## Methods that wait -/

section Reaches

variable {env : Env} {s : State}

/-- A statement is a run of calls. -/
def Reaches (env : Env) {α : Type} (x : ClientM α) : Prop :=
    ∀ s, ∃ calls, after x s = run env s calls

theorem run_append (s : State) (calls calls' : List Call) :
    run env s (calls ++ calls') = run env (run env s calls) calls' := List.foldl_append

/-- The rest of a block goes on from where its first statement ends. -/
theorem Reaches.bind {α β : Type} {x : ClientM α} {f : α → ClientM β} (hx : Reaches env x)
    (hf : ∀ a, Reaches env (f a)) : Reaches env (x >>= f) := by
  intro s
  obtain ⟨calls, hcalls⟩ := hx s
  cases h : x s with
  | ok a s' =>
    obtain ⟨calls', hcalls'⟩ := hf a s'
    refine ⟨calls ++ calls', ?_⟩
    rw [run_append, ← hcalls, after_of_ok h, after_bind h, hcalls']
  | error e s' =>
    refine ⟨calls, ?_⟩
    rw [← hcalls, after_of_error h]
    exact after_of_error (bind_of_error h)

theorem reaches_pure {α : Type} (a : α) : Reaches env (pure a) := fun _ => ⟨[], rfl⟩

/-- A call is a run. -/
theorem reaches_of_step {α : Type} {x : ClientM α} (call : Call)
    (h : ∀ s, step env s call = after x s) : Reaches env x := fun s => ⟨[call], (h s).symm⟩

theorem reaches_wait (fut : ℕ) : Reaches env (wait env fut) :=
  reaches_of_step (.wait fut) fun _ => rfl

theorem reaches_readRegAsync (addr size : ℕ) : Reaches env (readRegAsync env addr size) :=
  reaches_of_step (.readRegAsync addr size) fun _ => rfl

theorem reaches_writeRegAsync (addr : ℕ) (value : WriteValue) :
    Reaches env (writeRegAsync env addr value) :=
  reaches_of_step (.writeRegAsync addr value) fun _ => rfl

theorem reaches_readReg (addr size : ℕ) : Reaches env (readReg env addr size) :=
  (reaches_readRegAsync addr size).bind reaches_wait

theorem reaches_writeReg (addr : ℕ) (value : WriteValue) : Reaches env (writeReg env addr value) :=
  (reaches_writeRegAsync addr value).bind reaches_wait

theorem reaches_waitAll (futs : List ℕ) : Reaches env (waitAll env futs) := by
  unfold waitAll
  induction futs with
  | nil => exact reaches_pure []
  | cons fut futs ih =>
    rw [List.mapM_cons]
    exact (reaches_wait fut).bind fun _ => ih.bind fun _ => reaches_pure _

section Retry

variable {x : ClientM RegValue} {tries : ℕ} {s' : State}

theorem retry_of_ok {v : RegValue} (h : x s = .ok v s') : retry x (tries + 1) s = .ok () s' := by
  simp only [retry, h]

theorem retry_of_raised {e : Exn} (h : x s = .error (.raised e) s') :
    retry x (tries + 1) s = .error (.raised e) s' := by
  simp only [retry, h]

/-- A statement is tried again after a timeout only. -/
theorem retry_of_zmqError (tries : ℕ) (h : x s = .error .zmqError s') :
    retry x (tries + 1) s = if tries = 0 then .error .zmqError s' else retry x tries s' := by
  simp only [retry, h]

theorem Reaches.retry (hx : Reaches env x) (tries : ℕ) : Reaches env (retry x tries) := by
  induction tries with
  | zero => exact fun _ => ⟨[], rfl⟩
  | succ tries ih =>
    intro s
    obtain ⟨calls, hcalls⟩ := hx s
    cases h : x s with
    | ok v s' =>
      rw [after_of_ok h] at hcalls
      rw [after_of_ok (retry_of_ok h)]
      exact ⟨calls, hcalls⟩
    | error e s' =>
      rw [after_of_error h] at hcalls
      cases e with
      | raised e =>
        rw [after_of_error (retry_of_raised h)]
        exact ⟨calls, hcalls⟩
      | zmqError =>
        have hretry := retry_of_zmqError tries h
        by_cases hlast : tries = 0
        · rw [if_pos hlast] at hretry
          rw [after_of_error hretry]
          exact ⟨calls, hcalls⟩
        · rw [if_neg hlast] at hretry
          obtain ⟨calls', hcalls'⟩ := ih s'
          refine ⟨calls ++ calls', ?_⟩
          unfold after at hcalls' ⊢
          rw [hretry, run_append, ← hcalls]
          exact hcalls'

end Retry

/-- **The constructor is a run of calls.** -/
theorem reaches_connect : Reaches env (connect env) := (reaches_writeReg 127 (.str [])).retry 50

end Reaches

end ClickA.Client
