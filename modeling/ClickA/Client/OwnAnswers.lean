import ClickA.Client.Alignment

/-!
# Own answers

After a timeout a client reads the answers to its earlier requests. It tells them apart by address,
direction and token, and the token is counted modulo 255: an abandoned request whose fields come
again is answered to a later future.

## Main definitions

* `OwnValue`: the value that the answer to a future's own request holds
* `Confused`: the next round accepts the answer to another request
* `ReturnsOwn`: every wait of a program that returns, returns its own value

## Main results

* `returnsOwn_of_unconfused`: waits return their own values unless a round is confused
-/

namespace ClickA.Client

open Python Options Fpga

/-- The value of the answer to a future's own request. -/
def OwnValue (env : Env) (s : State) (fut : ℕ) (v : RegValue) : Prop :=
  ∃ req pck, s.sent[fut]? = some req ∧
    FPGAMapAnswerPacket.decode (env.reply fut req) = .ok pck ∧ decodePayload pck = .ok v

/-- The oldest answer that is not read is there and has no error. It belongs to another request than
the oldest future of the queue, but has the address, the token and the direction of that future. -/
def Confused (env : Env) (s : State) : Prop :=
  ∃ fut pending future req pck, s.pending = fut :: pending ∧ s.futures[fut]? = some future ∧
    env.arrives s.receives = true ∧ s.sent[s.read]? = some req ∧ s.read ≠ fut ∧
    Matches req future ∧ FPGAMapAnswerPacket.decode (env.reply s.read req) = .ok pck ∧ pck.error = 0

/-- No wait of a program that has to receive begins in a confused state. -/
def Unconfused (env : Env) : State → List Call → Prop
  | _, [] => True
  | s, call :: calls =>
    (∀ fut future, call = .wait fut → s.futures[fut]? = some future → future.valid = false →
      ¬ Confused env s) ∧ Unconfused env (step env s call) calls

/-- Every wait of a program that returns, returns the value of its own answer. -/
def ReturnsOwn (env : Env) : State → List Call → Prop
  | _, [] => True
  | s, call :: calls =>
    (∀ fut v s', call = .wait fut → wait env fut s = .ok v s' → OwnValue env s' fut v) ∧
      ReturnsOwn env (step env s call) calls

/-- Every value that a future has is its own. -/
structure Owned (env : Env) (s : State) : Prop extends Queued s where
  own : ∀ (fut : ℕ) (future : Future), s.futures[fut]? = some future → future.valid = true →
    OwnValue env s fut future.value

section Owned

variable {env : Env} {s : State} {current fut : ℕ}

theorem owned_init : Owned env init :=
  ⟨queued_init, fun fut future h => absurd h (by simp [init])⟩

theorem Owned.ticked (h : Owned env s) : Owned env s.ticked := ⟨h.toQueued.ticked, h.own⟩

theorem Owned.requested {req : FPGAMapRequestPacket} (h : Owned env s) (hreq : req.Valid) :
    Owned env (s.requested req) := by
  refine ⟨h.toQueued.requested hreq, fun fut future hfuture hvalid => ?_⟩
  have hfuture : (s.futures ++ [futureOf req])[fut]? = some future := hfuture
  rcases Nat.lt_or_ge fut s.futures.length with hlt | hge
  · rw [List.getElem?_append_left hlt] at hfuture
    obtain ⟨req', pck, hreq', hpck, hv⟩ := h.own fut future hfuture hvalid
    refine ⟨req', pck, ?_, hpck, hv⟩
    show (s.sent ++ [req])[fut]? = some req'
    rw [List.getElem?_append_left (h.length ▸ hlt)]
    exact hreq'
  · rw [List.getElem?_append_right hge] at hfuture
    obtain ⟨hi, hnew⟩ := List.getElem?_eq_some_iff.mp hfuture
    rw [List.getElem_singleton] at hnew
    rw [← hnew] at hvalid
    exact absurd hvalid Bool.false_ne_true

/-- In an aligned queue no round is confused. -/
theorem not_confused_of_aligned (h : Queued s) (haligned : QueueAligned s) : ¬ Confused env s := by
  rintro ⟨fut, pending, -, -, -, hpending, -, -, -, hne, -⟩
  have hlen := h.aligned_iff.mp haligned
  have hcurrent := (h.popped hpending).current
  rw [hpending, List.length_cons] at hlen
  dsimp only at hcurrent
  omega

/-- A round that is not confused keeps values their own, and so does the next one. -/
theorem wp_receiveOne_owned {l : List ℕ} (h : Owned env s) (hl : s.pending = current :: l)
    (hclear : ¬ Confused env s) :
    Wp (receiveOne env current) (fun _ s' => Owned env s' ∧ s'.pending = l ∧ ¬ Confused env s' ∧
        ∃ future, s'.futures[current]? = some future ∧ future.valid = true)
      (fun _ s' => Owned env s') { s with pending := l } := by
  have hpopped := h.toQueued.popped hl
  refine wp_receiveOne hpopped ?_ ?_
  · intro _
    refine ⟨hpopped.toQueued.timedOut, fun fut future hfuture hvalid => ?_⟩
    obtain ⟨future', timeOut, hfuture', rfl⟩ := getElem?_timedOut hfuture
    exact h.own fut future' hfuture' hvalid
  · intro harrives req future pck v hreq _ hfuture hpck hv
    have hanswered : Owned env { s with pending := l }.answered := ⟨hpopped.answered, h.own⟩
    refine ⟨fun _ => hanswered, fun _ _ => hanswered, fun hmatches herror => ?_⟩
    have hown : s.read = current := by
      by_contra hne
      exact hclear ⟨current, l, future, req, pck, hl, hfuture, harrives, hreq, hne, hmatches, hpck,
        herror⟩
    have hqueued := hpopped.answered.valued current v
    have haligned : QueueAligned ({ s with pending := l }.answered.valued current v) := by
      have hcurrent := hpopped.current
      rw [hqueued.aligned_iff]
      show l.length + (s.read + 1) = s.sent.length
      dsimp only at hcurrent
      omega
    refine ⟨⟨hqueued, ?_⟩, rfl, not_confused_of_aligned hqueued haligned, ?_⟩
    · intro fut future' hfuture' hvalid
      rw [getElem?_valued] at hfuture'
      obtain ⟨future'', hfuture'', heq⟩ := Option.map_eq_some_iff.mp hfuture'
      by_cases hfut : current = fut
      · rw [if_pos hfut] at heq
        subst hfut heq
        exact ⟨req, pck, hown ▸ hreq, hown ▸ hpck, hv⟩
      · rw [if_neg hfut] at heq
        subst heq
        exact h.own fut future'' hfuture'' hvalid
    · refine ⟨{ future with value := v, valid := true }, ?_, rfl⟩
      rw [getElem?_valued]
      show Option.map _ s.futures[current]? = _
      have hsame : s.futures[current]? = some future := hfuture
      rw [hsame, Option.map_some, if_pos rfl]

/-- A wait that does not begin in a confused state returns its own value. -/
theorem wp_wait_owned (h : Owned env s) (hclear : ∀ future, s.futures[fut]? = some future →
      future.valid = false → ¬ Confused env s) :
    Wp (wait env fut) (fun v s' => Owned env s' ∧ OwnValue env s' fut v)
      (fun _ s' => Owned env s') s := by
  refine wp_wait_value (fun _ => h) ?_ ?_
  · intro future hfuture hvalid
    exact ⟨h, h.own fut future hfuture hvalid⟩
  · intro future hfuture hvalid
    unfold receive
    rw [wp_bind, wp_get]
    refine wp_receiveFrom (Q := fun s' => ∃ future', s'.futures[fut]? = some future' ∧
      Owned env s' ∧ OwnValue env s' fut future'.value)
      (J := fun l s => Owned env s ∧ s.pending = l ∧ ¬ Confused env s) (fun _ h => h.1) ?_
      ⟨h, rfl, hclear future hfuture hvalid⟩
    rintro c l s ⟨hs, hl, hunconfused⟩
    refine (wp_receiveOne_owned hs hl hunconfused).mono ?_ fun _ _ h => h
    rintro _ s' ⟨hs', hl', hunconfused', future', hfuture', hvalid'⟩
    split
    · next hc =>
      subst hc
      exact ⟨future', hfuture', hs', hs'.own c future' hfuture' hvalid'⟩
    · exact ⟨hs', hl', hunconfused'⟩

/-- Every call keeps values their own. -/
theorem Owned.step (h : Owned env s) {call : Call} (hclear : ∀ fut future, call = .wait fut →
      s.futures[fut]? = some future → future.valid = false → ¬ Confused env s) :
    Owned env (step env s call) := by
  by_cases hcall : ∃ fut, call = .wait fut
  · obtain ⟨fut, rfl⟩ := hcall
    refine after_of_wp ((wp_wait_owned h fun future => hclear fut future rfl).mono ?_ ?_)
    · exact fun _ _ h => h.1
    · exact fun _ _ h => h
  · push Not at hcall
    exact step_request hcall h.ticked fun req hreq _ => h.ticked.requested hreq

theorem returnsOwn_of_owned {calls : List Call} (h : Owned env s)
    (hclear : Unconfused env s calls) : ReturnsOwn env s calls := by
  induction calls generalizing s with
  | nil => trivial
  | cons call calls ih =>
    obtain ⟨hcall, hrest⟩ := hclear
    refine ⟨?_, ih (h.step hcall) hrest⟩
    rintro fut v s' rfl hwait
    have hown := wp_wait_owned h fun future => hcall fut future rfl
    rw [wp_of_ok hwait] at hown
    exact hown.2

end Owned

/-- **A program whose waits are not confused gets its own answers.** -/
theorem returnsOwn_of_unconfused (env : Env) (calls : List Call)
    (h : Unconfused env init calls) : ReturnsOwn env init calls := returnsOwn_of_owned owned_init h

/-- A client whose answers are never late is never confused. -/
theorem unconfused_of_timely {env : Env} (hprompt : ∀ n, env.arrives n = true)
    (calls calls' : List Call) : Unconfused env (run env init calls) calls' := by
  induction calls' generalizing calls with
  | nil => trivial
  | cons call calls' ih =>
    have hnext := ih (calls ++ [call])
    rw [run_append] at hnext
    refine ⟨fun _ _ _ _ _ => ?_, hnext⟩
    have haligned : QueueAligned (run env init calls) := by
      rw [(queued_run calls).aligned_iff, (aligned_run calls).2]
      exact fun n _ => hprompt n
    exact not_confused_of_aligned (queued_run calls) haligned

/-- A read that is answered in time. -/
theorem returnsOwn_read_example :
    ReturnsOwn (constantServer (fun _ => 7) (fun _ => 0) fun _ => true) init
      (connectCalls ++ [.readRegAsync 10 1, .wait 1]) :=
  returnsOwn_of_unconfused _ _ (unconfused_of_timely (fun _ => rfl) [] _)

/-! ## A token that comes again -/

section Wrap

variable {env : Env}

theorem returnsOwn_append {s : State} {calls calls' : List Call}
    (h : ReturnsOwn env s (calls ++ calls')) : ReturnsOwn env (run env s calls) calls' := by
  induction calls generalizing s with
  | nil => exact h
  | cons call calls ih => exact ih h.2

/-- A number of reads of register 10, one after the other, by a new client. -/
def reads (n : ℕ) : List Call :=
  connectCalls ++ (List.range n).flatMap fun i => [.readRegAsync 10 1, .wait (i + 1)]

theorem reads_succ (n : ℕ) : reads (n + 1) = reads n ++ [.readRegAsync 10 1, .wait (n + 1)] := by
  unfold reads
  rw [List.range_succ, List.flatMap_append, List.flatMap_singleton, List.append_assoc]

/-- The state after the constructor and reads whose answers are all late. -/
structure AfterLateReads (env : Env) (n : ℕ) (s : State) : Prop where
  token : s.token = (n + 1) % 255
  pending : s.pending = []
  length : s.futures.length = n + 1
  sentLength : s.sent.length = n + 1
  first : 0 < n → s.sent[1]? = some ⟨env.pid, 2, 0, 10, 1 * 4, []⟩
  read : s.read = 1
  receives : s.receives = n + 1

theorem afterLateReads_zero {v : RegValue} {pck : FPGAMapAnswerPacket}
    (harrives : env.arrives 0 = true)
    (hpck : FPGAMapAnswerPacket.decode (env.reply 0 (connectRequest env)) = .ok pck)
    (haddr : pck.startAddr = 127) (hrq : pck.rqNumber = 1) (hrw : pck.rwFlag = 1)
    (herror : pck.error = 0) (hv : decodePayload pck = .ok v) :
    AfterLateReads env 0 (run env init (reads 0)) := by
  unfold reads
  rw [List.range_zero, List.flatMap_nil, List.append_nil,
    run_connect harrives hpck haddr hrq hrw herror hv]
  exact ⟨rfl, rfl, rfl, rfl, fun h => absurd h (Nat.lt_irrefl 0), rfl, rfl⟩

theorem afterLateReads {n : ℕ} (hlate : ∀ k < n, env.arrives (k + 1) = false)
    (hzero : AfterLateReads env 0 (run env init (reads 0))) :
    AfterLateReads env n (run env init (reads n)) := by
  induction n with
  | zero => exact hzero
  | succ n ih =>
    obtain ⟨htoken, hpending, hlength, hsent, hfirst, hread, hreceives⟩ :=
      ih fun k hk => hlate k (by omega)
    rw [reads_succ, run_append]
    generalize run env init (reads n) = s at *
    have hlast := hlate n (Nat.lt_succ_self n)
    rw [← hreceives] at hlast
    have hcall : step env s (.readRegAsync 10 1) = s.ticked.requested (readRequest env s 10) :=
      step_readRegAsync (valid_readRequest (by decide))
    have hrun := run_late hcall hpending hlast
    rw [hlength] at hrun
    rw [hrun]
    refine ⟨?_, rfl, ?_, ?_, fun _ => ?_, hread, ?_⟩
    · show (s.token + 1) % 255 = (n + 1 + 1) % 255
      rw [htoken]
      omega
    · show (s.futures ++ [_]).length = n + 1 + 1
      rw [List.length_append, hlength]
      rfl
    · show (s.sent ++ [_]).length = n + 1 + 1
      rw [List.length_append, hsent]
      rfl
    · show (s.sent ++ [readRequest env s 10])[1]? = _
      rcases Nat.eq_zero_or_pos n with rfl | hpos
      · have htwo : s.ticked.token = 2 := by
          show (s.token + 1) % 255 = 2
          rw [htoken]
        rw [List.getElem?_append_right hsent.le, hsent, readRequest, htwo]
        rfl
      · rw [List.getElem?_append_left (by omega)]
        exact hfirst hpos
    · show s.receives + 1 = n + 1 + 1
      rw [hreceives]

/-- The read after 255 late ones has the token of the first one, and gets its answer. -/
theorem wait_reads {v : RegValue} {pck : FPGAMapAnswerPacket} {req : FPGAMapRequestPacket}
    {s : State}
    (h : AfterLateReads env 255 s) (harrives : env.arrives 256 = true)
    (hreq : req = ⟨env.pid, 2, 0, 10, 1 * 4, []⟩)
    (hpck : FPGAMapAnswerPacket.decode (env.reply 1 req) = .ok pck)
    (haddr : pck.startAddr = req.startAddr) (hrq : pck.rqNumber = req.rqNumber)
    (hrw : pck.rwFlag = req.rwFlag) (herror : pck.error = 0) (hv : decodePayload pck = .ok v) :
    ∃ s', wait env 256 (step env s (.readRegAsync 10 1)) = .ok v s' ∧ s'.sent[256]? = some req := by
  obtain ⟨htoken, hpending, hlength, hsent, hfirst, hread, hreceives⟩ := h
  have htwo : s.ticked.token = 2 := by
    show (s.token + 1) % 255 = 2
    rw [htoken]
  have hrequest : step env s (.readRegAsync 10 1) = s.ticked.requested (readRequest env s 10) :=
    step_readRegAsync (valid_readRequest (by decide))
  rw [readRequest, htwo, ← hreq] at hrequest
  rw [hrequest]
  have hlast : (s.sent ++ [req])[256]? = some req := by
    have hplace : 256 = s.sent.length := hsent.symm
    rw [hplace]
    exact List.getElem?_concat_length
  have hfuture : (s.futures ++ [futureOf req])[256]? = some (futureOf req) := by
    have hplace : 256 = s.futures.length := hlength.symm
    rw [hplace]
    exact List.getElem?_concat_length
  have hqueue : s.pending ++ [s.futures.length] = [256] := by
    rw [hpending, hlength, List.nil_append]
  have holdest : (s.sent ++ [req])[s.read]? = some req := by
    rw [hread, List.getElem?_append_left (by omega), hreq]
    exact hfirst (by decide)
  rw [← hread] at hpck
  have harrives' : env.arrives s.receives = true := by
    rw [hreceives]
    exact harrives
  have hwait := wait_of_answer (s := s.ticked.requested req) hqueue hfuture rfl harrives' holdest
    ⟨rfl, rfl, rfl⟩ hpck haddr hrq hrw herror hv
  exact ⟨_, hwait, hlast⟩

/-- The read after 255 late ones returns another value than its own. -/
theorem not_returnsOwn_reads {v v' : RegValue} {pck pck' : FPGAMapAnswerPacket}
    {req : FPGAMapRequestPacket} (hzero : AfterLateReads env 0 (run env init (reads 0)))
    (hlate : ∀ k < 255, env.arrives (k + 1) = false) (harrives : env.arrives 256 = true)
    (hreq : req = ⟨env.pid, 2, 0, 10, 1 * 4, []⟩)
    (hpck : FPGAMapAnswerPacket.decode (env.reply 1 req) = .ok pck)
    (haddr : pck.startAddr = req.startAddr) (hrq : pck.rqNumber = req.rqNumber)
    (hrw : pck.rwFlag = req.rwFlag) (herror : pck.error = 0) (hv : decodePayload pck = .ok v)
    (hpck' : FPGAMapAnswerPacket.decode (env.reply 256 req) = .ok pck')
    (hv' : decodePayload pck' = .ok v') (hne : v ≠ v') : ¬ ReturnsOwn env init (reads 256) := by
  intro h
  rw [reads_succ 255] at h
  obtain ⟨-, hown, -⟩ := returnsOwn_append h
  obtain ⟨s', hwait, hsent⟩ := wait_reads (afterLateReads hlate hzero) harrives hreq hpck haddr hrq
    hrw herror hv
  obtain ⟨req₁, pck₁, hreq₁, hpck₁, hv₁⟩ := hown 256 v s' rfl hwait
  obtain rfl := Option.some.inj (hsent.symm.trans hreq₁)
  obtain rfl := Except.ok.inj (hpck'.symm.trans hpck₁)
  exact hne (Except.ok.inj (hv₁.symm.trans hv'))

/-- The values of the register: it is 7 for the first read. -/
def wrapValue (i : ℕ) : UInt8 := if i = 1 then 7 else 0

/-- The answers to 255 reads are late. -/
def wrapArrives (n : ℕ) : Bool := n = 0 || 256 ≤ n

/-- **A value that is not the future's own.** The server is late for 255 reads of a register, whose
value is 7 at first and 0 then. The next read returns 7. -/
theorem not_returnsOwn_wrap :
    ¬ ReturnsOwn (constantServer wrapValue (fun _ => 0) wrapArrives) init (reads 256) := by
  have hreq : FPGAMapRequestPacket.Valid ⟨1, 2, 0, 10, 1 * 4, []⟩ :=
    ⟨by decide, by decide, .inl rfl, by decide, by decide, fun _ => rfl,
      fun h => absurd h (by decide)⟩
  obtain ⟨pck₀, hpck₀, haddr₀, hrq₀, hrw₀, herror₀, hv₀⟩ := decode_constantServer
    (valid_connectRequest (constantServer wrapValue (fun _ => 0) wrapArrives)) (by decide) wrapValue
    (fun _ => 0) wrapArrives 0
  obtain ⟨pck, hpck, haddr, hrq, hrw, herror, hv⟩ := decode_constantServer hreq (by decide)
    wrapValue (fun _ => 0) wrapArrives 1
  obtain ⟨pck', hpck', -, -, -, -, hv'⟩ := decode_constantServer hreq (by decide)
    wrapValue (fun _ => 0) wrapArrives 256
  have hfirst : (constantServer wrapValue (fun _ => 0) wrapArrives).arrives 0 = true := rfl
  have hzero := afterLateReads_zero hfirst hpck₀ haddr₀ hrq₀ hrw₀ herror₀ hv₀
  -- only the first answer and the last one come in time
  refine not_returnsOwn_reads hzero ?_ rfl rfl hpck haddr hrq hrw herror hv hpck' hv' ?_
  · intro k hk
    show wrapArrives (k + 1) = false
    unfold wrapArrives
    simp
    omega
  · intro heq
    injection heq with heq
    injection heq with heq
    exact absurd heq (by decide)

end Wrap

end ClickA.Client
