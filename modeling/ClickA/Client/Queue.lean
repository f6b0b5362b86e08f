import ClickA.Client.Receive
import Mathlib.Data.List.Induction

/-!
# The queue of a client

The queue of a client holds the last of its futures, in the order of their requests, and none of
their answers was read. It may have lost earlier futures whose answers are still to come.

## Main definitions

* `Queued`: the invariant of the queue
* `QueueAligned`: the answers that are not read are those of the queue

## Main results

* `wp_receiveFrom`: the rule of the loop of a wait
* `run_induction`: what requests and waits keep holds after every program
* `queued_run`: every program keeps the queue
-/

namespace ClickA.Client

open Python Options Fpga

/-- Futures and requests belong together, and the queue holds the last of them. -/
structure Queued (s : State) : Prop where
  length : s.futures.length = s.sent.length
  future : ∀ (i : ℕ) (future : Future), s.futures[i]? = some future →
    ∃ req, s.sent[i]? = some req ∧ req.Valid ∧ Matches req future
  pending : s.pending = List.range' (s.sent.length - s.pending.length) s.pending.length
  unread : s.pending.length + s.read ≤ s.sent.length

/-- The answers that are not read correspond, one to one and in order, to the queue. -/
def QueueAligned (s : State) : Prop :=
  s.pending = List.range' s.read (s.sent.length - s.read)

/-- A future was taken from the queue, and its answer is still to be read. -/
structure Popped (current : ℕ) (s : State) : Prop extends Queued s where
  current : current + s.pending.length + 1 = s.sent.length
  unreadCurrent : s.pending.length + s.read < s.sent.length

/-- The future of a request. -/
def futureOf (req : FPGAMapRequestPacket) : Future :=
  { token := req.rqNumber, addr := req.startAddr, wrFlag := req.rwFlag, size := req.size }

/-- The state after a token is taken. -/
def State.ticked (s : State) : State := { s with token := (s.token + 1) % 255 }

/-- The state after a request. -/
def State.requested (s : State) (req : FPGAMapRequestPacket) : State :=
  { s with
    sent := s.sent ++ [req]
    futures := s.futures ++ [futureOf req]
    pending := s.pending ++ [s.futures.length] }

section Queued

variable {s : State} {current : ℕ} {pending : List ℕ} {req : FPGAMapRequestPacket}

/-- A queue is aligned when no answer is lost. -/
theorem Queued.aligned_iff (h : Queued s) :
    QueueAligned s ↔ s.pending.length + s.read = s.sent.length := by
  unfold QueueAligned
  have hunread := h.unread
  constructor
  · intro halign
    have hlen := congrArg List.length halign
    rw [List.length_range'] at hlen
    omega
  · intro hlen
    have hstart : s.sent.length - s.pending.length = s.read := by omega
    have hrest : s.sent.length - s.read = s.pending.length := by omega
    rw [hrest, ← hstart]
    exact h.pending

theorem queued_init : Queued init := by
  refine ⟨rfl, ?_, rfl, Nat.le_refl 0⟩
  intro i future hfuture
  exact absurd hfuture (by simp [init])

theorem Queued.ticked (h : Queued s) : Queued s.ticked :=
  ⟨h.length, h.future, h.pending, h.unread⟩

theorem Queued.requested (h : Queued s) (hreq : req.Valid) : Queued (s.requested req) := by
  have hle : s.pending.length ≤ s.sent.length := by
    have hunread := h.unread
    omega
  refine ⟨?_, ?_, ?_, ?_⟩
  · show (s.futures ++ [futureOf req]).length = (s.sent ++ [req]).length
    rw [List.length_append, List.length_append, h.length]
    rfl
  · intro i future hfuture
    have hfuture : (s.futures ++ [futureOf req])[i]? = some future := hfuture
    show ∃ r, (s.sent ++ [req])[i]? = some r ∧ _
    rcases Nat.lt_or_ge i s.futures.length with hi | hi
    · rw [List.getElem?_append_left hi] at hfuture
      rw [List.getElem?_append_left (h.length ▸ hi)]
      exact h.future i future hfuture
    · rw [List.getElem?_append_right hi] at hfuture
      obtain ⟨hi', hfuture⟩ := List.getElem?_eq_some_iff.mp hfuture
      rw [List.length_singleton] at hi'
      obtain rfl : i = s.sent.length := by
        have hlen := h.length
        omega
      rw [List.getElem_singleton] at hfuture
      rw [List.getElem?_concat_length]
      exact ⟨req, rfl, hreq, hfuture ▸ ⟨rfl, rfl, rfl⟩⟩
  · show s.pending ++ [s.futures.length] = List.range' ((s.sent ++ [req]).length -
      (s.pending ++ [s.futures.length]).length) (s.pending ++ [s.futures.length]).length
    have hstart : s.sent.length + 1 - (s.pending.length + 1) =
        s.sent.length - s.pending.length := by omega
    have hlast : s.sent.length - s.pending.length + s.pending.length = s.futures.length := by
      rw [h.length]
      omega
    rw [List.length_append, List.length_append, List.length_singleton, List.length_singleton,
      hstart, List.range'_1_concat, hlast, ← h.pending]
  · show (s.pending ++ [s.futures.length]).length + s.read ≤ (s.sent ++ [req]).length
    have hunread := h.unread
    rw [List.length_append, List.length_append, List.length_singleton, List.length_singleton]
    omega

/-- A future is taken from the queue. -/
theorem Queued.popped (h : Queued s) (hpending : s.pending = current :: pending) :
    Popped current { s with pending := pending } := by
  obtain ⟨hlength, hfuture, hrange, hunread⟩ := h
  rw [hpending, List.length_cons] at hrange hunread
  rw [List.range'_succ] at hrange
  obtain ⟨hcurrent, hrest⟩ := List.cons_eq_cons.mp hrange
  have hstart : s.sent.length - pending.length = s.sent.length - (pending.length + 1) + 1 := by
    omega
  refine ⟨⟨hlength, hfuture, ?_, ?_⟩, ?_, ?_⟩
  · show pending = List.range' (s.sent.length - pending.length) pending.length
    rw [hstart]
    exact hrest
  · show pending.length + s.read ≤ s.sent.length
    omega
  · show current + pending.length + 1 = s.sent.length
    omega
  · show pending.length + s.read < s.sent.length
    omega

/-- A popped future has its request. -/
theorem Popped.exists_future (h : Popped current s) : ∃ future req,
    s.futures[current]? = some future ∧ s.sent[current]? = some req ∧ Matches req future := by
  have hlt : current < s.futures.length := by
    have hcurrent := h.current
    rw [h.length]
    omega
  obtain ⟨req, hreq, -, hmatches⟩ := h.future current _ (List.getElem?_eq_getElem hlt)
  exact ⟨_, req, List.getElem?_eq_getElem hlt, hreq, hmatches⟩

/-- The answer to be read belongs to a request. -/
theorem Popped.exists_request (h : Popped current s) :
    ∃ req, s.sent[s.read]? = some req ∧ req.Valid := by
  have hlt : s.read < s.futures.length := by
    have hunread := h.unreadCurrent
    rw [h.length]
    omega
  obtain ⟨req, hreq, hvalid, -⟩ := h.future s.read _ (List.getElem?_eq_getElem hlt)
  exact ⟨req, hreq, hvalid⟩

theorem Popped.answered (h : Popped current s) : Queued s.answered := by
  refine ⟨h.length, h.future, h.pending, ?_⟩
  have hunread := h.unreadCurrent
  show s.pending.length + (s.read + 1) ≤ s.sent.length
  omega

/-- The futures after one of them gets its value. -/
theorem getElem?_valued (s : State) (fut : ℕ) (value : RegValue) (i : ℕ) :
    (s.valued fut value).futures[i]? = s.futures[i]?.map fun future =>
      if fut = i then { future with value := value, valid := true } else future :=
  List.getElem?_modify _ _ _ _

/-- A future gets its value. -/
theorem Queued.valued (h : Queued s) (fut : ℕ) (value : RegValue) :
    Queued (s.valued fut value) := by
  refine ⟨?_, ?_, h.pending, h.unread⟩
  · show (s.futures.modify fut _).length = s.sent.length
    rw [List.length_modify]
    exact h.length
  · intro i future hfuture
    rw [getElem?_valued] at hfuture
    obtain ⟨future', hfuture', heq⟩ := Option.map_eq_some_iff.mp hfuture
    obtain ⟨req, hreq, hvalid, hmatches⟩ := h.future i future' hfuture'
    refine ⟨req, hreq, hvalid, ?_⟩
    split at heq
    · rw [← heq]
      exact hmatches
    · rw [← heq]
      exact hmatches

theorem length_timedOut (s : State) : s.timedOut.futures.length = s.futures.length := by
  have hfold (futs : List ℕ) (futures : List Future) :
      (futs.foldl (fun futures fut =>
        futures.modify fut fun future => { future with timeOut := true }) futures).length =
          futures.length := by
    induction futs generalizing futures with
    | nil => rfl
    | cons fut futs ih => rw [List.foldl_cons, ih, List.length_modify]
  exact hfold s.pending s.futures

/-- A timeout leaves the futures as they are, but for a mark. -/
theorem getElem?_timedOut {i : ℕ} {future : Future} (h : s.timedOut.futures[i]? = some future) :
    ∃ future' timeOut, s.futures[i]? = some future' ∧
      future = { future' with timeOut := timeOut } := by
  have hfold (futs : List ℕ) {futures : List Future} {future : Future}
      (h : (futs.foldl (fun futures fut => futures.modify fut fun future =>
        { future with timeOut := true }) futures)[i]? = some future) :
      ∃ future' timeOut, futures[i]? = some future' ∧
        future = { future' with timeOut := timeOut } := by
    induction futs generalizing futures with
    | nil => exact ⟨future, future.timeOut, h, rfl⟩
    | cons fut futs ih =>
      obtain ⟨future₁, timeOut, h₁, rfl⟩ := ih h
      rw [List.getElem?_modify] at h₁
      obtain ⟨future₂, h₂, rfl⟩ := Option.map_eq_some_iff.mp h₁
      refine ⟨future₂, timeOut, h₂, ?_⟩
      split
      · rfl
      · rfl
  exact hfold s.pending h

/-- A timeout drops the queue. -/
theorem Queued.timedOut (h : Queued s) : Queued s.timedOut := by
  refine ⟨?_, ?_, rfl, ?_⟩
  · rw [length_timedOut]
    exact h.length
  · intro i future hfuture
    obtain ⟨future', timeOut, hfuture', rfl⟩ := getElem?_timedOut hfuture
    exact h.future i future' hfuture'
  · show 0 + s.read ≤ s.sent.length
    have hunread := h.unread
    omega

end Queued

/-! ## Rounds and loops -/

section Loop

variable {env : Env} {s : State} {current target : ℕ} {E : Fault → State → Prop}

/-- What a round keeps: it times out, its answer has other fields or an error, or it gets a
value. -/
theorem wp_receiveOne {Q : Unit → State → Prop} (h : Popped current s)
    (htimeout : env.arrives s.receives = false → E .zmqError s.timedOut)
    (hanswer : env.arrives s.receives = true → ∀ req future pck v, s.sent[s.read]? = some req →
      req.Valid → s.futures[current]? = some future →
      FPGAMapAnswerPacket.decode (env.reply s.read req) = .ok pck → decodePayload pck = .ok v →
        (¬ Matches req future → E (.raised .assertionError) s.answered) ∧
        (Matches req future → pck.error ≠ 0 → E (.raised .valueError) s.answered) ∧
        (Matches req future → pck.error = 0 → Q () (s.answered.valued current v))) :
    Wp (receiveOne env current) Q E s := by
  cases harrives : env.arrives s.receives with
  | false =>
    rw [wp_of_error (receiveOne_timeout harrives)]
    exact htimeout harrives
  | true =>
    obtain ⟨req, hreq, hvalid⟩ := h.exists_request
    obtain ⟨future, -, hfuture, -, -⟩ := h.exists_future
    obtain ⟨pck, v, hpck, haddr, hrq, hrw, hv⟩ := exists_answer hvalid
      (env.serverAnswer s.read req hvalid)
    obtain ⟨hdiffers, herror, hok⟩ := hanswer harrives req future pck v hreq hvalid hfuture hpck hv
    unfold Wp
    rw [receiveOne_answer harrives hreq hfuture hpck haddr hrq hrw hv]
    by_cases hmatches : Matches req future
    · rw [if_pos hmatches]
      by_cases hflag : pck.error = 0
      · rw [if_neg (not_not_intro hflag)]
        exact hok hmatches hflag
      · rw [if_pos hflag]
        exact herror hmatches hflag
    · rw [if_neg hmatches]
      exact hdiffers hmatches

/-- The rule of the loop: `J` holds before each round, with what is left of the queue. -/
theorem wp_receiveFrom {Q : State → Prop} {J : List ℕ → State → Prop} {l : List ℕ}
    (hnil : ∀ s, J [] s → E (.raised .indexError) s)
    (hstep : ∀ c l s, J (c :: l) s → Wp (receiveOne env c)
      (fun _ s' => if c = target then Q s' else J l s') E { s with pending := l })
    (h : J l s) : Wp (receiveFrom env target l) (fun _ s' => Q s') E s := by
  induction l generalizing s with
  | nil => exact hnil s h
  | cons c l ih =>
    rw [receiveFrom, wp_bind, wp_modify, wp_bind]
    refine (hstep c l s h).mono ?_ ?_
    · intro _ s' hs'
      by_cases hc : c = target
      · rw [if_pos hc] at hs'
        rw [if_pos hc]
        exact hs'
      · rw [if_neg hc] at hs'
        rw [if_neg hc]
        exact ih hs'
    · exact fun _ _ he => he

/-- A wait keeps what its rounds keep: it has none when the future has its value. -/
theorem wp_wait {I : State → Prop} {fut : ℕ} (h : I s) (hreceive : ∀ future,
      s.futures[fut]? = some future → future.valid = false →
      Wp (receive env fut) (fun _ s' => I s') (fun _ s' => I s') s) :
    Wp (wait env fut) (fun _ s' => I s') (fun _ s' => I s') s := by
  have hget (s' : State) (hs' : I s') : Wp (do
        let future ← getFuture fut
        return future.value) (fun _ s' => I s') (fun _ s' => I s') s' := by
    rw [wp_bind]
    cases hfuture : s'.futures[fut]? with
    | none =>
      rw [wp_of_error (getFuture_none hfuture)]
      exact hs'
    | some future =>
      rw [wp_of_ok (getFuture_eq hfuture)]
      exact hs'
  unfold wait
  rw [wp_bind]
  cases hfuture : s.futures[fut]? with
  | none =>
    rw [wp_of_error (getFuture_none hfuture)]
    exact h
  | some future =>
    rw [wp_of_ok (getFuture_eq hfuture)]
    by_cases hvalid : future.valid = false
    · rw [if_pos hvalid, wp_bind]
      exact (hreceive future hfuture hvalid).mono (fun _ s' hs' => hget s' hs')
        fun _ _ he => he
    · rw [if_neg hvalid]
      exact hget s h

/-- A wait returns the value of its future, before or after its rounds. -/
theorem wp_wait_value {Q : RegValue → State → Prop} {fut : ℕ}
    (hnone : s.futures[fut]? = none → E (.raised .nameError) s)
    (hvalid : ∀ future, s.futures[fut]? = some future → future.valid = true → Q future.value s)
    (hreceive : ∀ future, s.futures[fut]? = some future → future.valid = false →
      Wp (receive env fut) (fun _ s' => ∃ future', s'.futures[fut]? = some future' ∧
        Q future'.value s') E s) : Wp (wait env fut) Q E s := by
  have hvalue {s' : State} {future : Future} (h : s'.futures[fut]? = some future)
      (hq : Q future.value s') : Wp (do
        let future ← getFuture fut
        return future.value) Q E s' := by
    rw [wp_bind, wp_of_ok (getFuture_eq h)]
    exact hq
  unfold wait
  rw [wp_bind]
  cases hfuture : s.futures[fut]? with
  | none =>
    rw [wp_of_error (getFuture_none hfuture)]
    exact hnone hfuture
  | some future =>
    rw [wp_of_ok (getFuture_eq hfuture)]
    cases hflag : future.valid with
    | true =>
      rw [if_neg (by simp)]
      exact hvalue hfuture (hvalid future hfuture hflag)
    | false =>
      rw [if_pos rfl, wp_bind]
      refine (hreceive future hfuture hflag).mono ?_ fun _ _ he => he
      rintro _ s' ⟨future', hfuture', hq⟩
      exact hvalue hfuture' hq

/-! ## Single waits -/

theorem wait_of_error {fut : ℕ} {future : Future} {e : Fault} {s' : State}
    (h : s.futures[fut]? = some future) (hvalid : future.valid = false)
    (hreceive : receive env fut s = .error e s') : wait env fut s = .error e s' := by
  unfold wait
  rw [bind_of_ok (getFuture_eq h), if_pos hvalid, bind_of_error hreceive]

theorem wait_of_ok {fut : ℕ} {future future' : Future} {s' : State}
    (h : s.futures[fut]? = some future) (hvalid : future.valid = false)
    (hreceive : receive env fut s = .ok () s') (h' : s'.futures[fut]? = some future') :
    wait env fut s = .ok future'.value s' := by
  unfold wait
  rw [bind_of_ok (getFuture_eq h), if_pos hvalid, bind_of_ok hreceive]
  show (getFuture fut >>= fun future => pure future.value) s' = _
  rw [bind_of_ok (getFuture_eq h')]
  rfl

/-- A wait raises what its first round raises. -/
theorem receive_of_error {pending : List ℕ} {e : Fault} {s' : State}
    (h : s.pending = current :: pending)
    (hround : receiveOne env current { s with pending := pending } = .error e s') :
    receive env target s = .error e s' := by
  unfold receive
  rw [bind_get, h, receiveFrom, bind_modify, bind_of_error hround]

theorem receive_of_ok {pending : List ℕ} {s' : State} (h : s.pending = current :: pending)
    (hround : receiveOne env current { s with pending := pending } = .ok () s') :
    receive env current s = .ok () s' := by
  unfold receive
  rw [bind_get, h, receiveFrom, bind_modify, bind_of_ok hround, if_pos rfl]
  rfl

/-- A future gets the value of the answer that matches it. -/
theorem wait_of_answer {fut : ℕ} {future : Future} {req : FPGAMapRequestPacket}
    {pck : FPGAMapAnswerPacket} {v : RegValue} (hpending : s.pending = [fut])
    (hfuture : s.futures[fut]? = some future) (hvalid : future.valid = false)
    (harrives : env.arrives s.receives = true) (hreq : s.sent[s.read]? = some req)
    (hmatches : Matches req future)
    (hpck : FPGAMapAnswerPacket.decode (env.reply s.read req) = .ok pck)
    (haddr : pck.startAddr = req.startAddr) (hrq : pck.rqNumber = req.rqNumber)
    (hrw : pck.rwFlag = req.rwFlag) (herror : pck.error = 0) (hv : decodePayload pck = .ok v) :
    wait env fut s = .ok v ({ s with pending := [] }.answered.valued fut v) := by
  have hround : receiveOne env fut { s with pending := [] } =
      .ok () ({ s with pending := [] }.answered.valued fut v) := by
    rw [receiveOne_answer (s := { s with pending := [] }) harrives hreq hfuture hpck haddr hrq hrw
      hv,
      if_pos hmatches, if_neg (not_not_intro herror)]
  have hvalue : ({ s with pending := [] }.answered.valued fut v).futures[fut]? =
      some { future with value := v, valid := true } := by
    show (s.futures.modify fut _)[fut]? = _
    rw [List.getElem?_modify, hfuture]
    show some (if fut = fut then _ else _) = _
    rw [if_pos rfl]
  exact wait_of_ok hfuture hvalid (receive_of_ok hpending hround) hvalue

end Loop

/-! ## Runs -/

section Run

variable {env : Env} {s : State}

/-- The state after a statement is one of those it ends in. -/
theorem after_of_wp {α : Type} {x : ClientM α} {I : State → Prop}
    (h : Wp x (fun _ s' => I s') (fun _ s' => I s') s) : I (after x s) := by
  unfold Wp at h
  unfold after
  cases hx : x s with
  | ok a s' =>
    rw [hx] at h
    exact h
  | error e s' =>
    rw [hx] at h
    exact h

theorem getToken_eq (s : State) : getToken s = .ok s.ticked.token s.ticked := by
  unfold getToken
  rw [bind_modify, bind_get]
  rfl

theorem after_of_ok {α : Type} {x : ClientM α} {a : α} {s' : State} (h : x s = .ok a s') :
    after x s = s' := by
  unfold after
  rw [h]

theorem after_of_error {α : Type} {x : ClientM α} {e : Fault} {s' : State}
    (h : x s = .error e s') : after x s = s' := by
  unfold after
  rw [h]

theorem after_bind {α β : Type} {x : ClientM α} {f : α → ClientM β} {a : α} {s' : State}
    (h : x s = .ok a s') : after (x >>= f) s = after (f a) s' := by
  unfold after
  rw [bind_of_ok h]

section Send

variable {requestNumber startAddress rwFlag size : ℕ} {data : Bytes}

/-- A request that is encoded is sent. -/
theorem sendRequest_of_ok {raw : Bytes} (h : FPGAMapRequestPacket.encode
      ⟨env.pid, requestNumber, rwFlag, startAddress, size, data⟩ = .ok raw) :
    sendRequest env requestNumber startAddress rwFlag size data s = .ok s.futures.length
      (s.requested ⟨env.pid, requestNumber, rwFlag, startAddress, size, data⟩) := by
  unfold sendRequest
  rw [h]
  rfl

/-- A request that is not encoded is not sent. -/
theorem sendRequest_of_error {e : Exn} (h : FPGAMapRequestPacket.encode
      ⟨env.pid, requestNumber, rwFlag, startAddress, size, data⟩ = .error e) :
    sendRequest env requestNumber startAddress rwFlag size data s = .error (.raised e) s := by
  unfold sendRequest
  rw [h]
  rfl

theorem after_sendRequest {I : State → Prop} (h : I s)
    (hreq : ∀ req, req.Valid → req.rqNumber = requestNumber → I (s.requested req)) :
    I (after (sendRequest env requestNumber startAddress rwFlag size data) s) := by
  unfold after
  cases hencode : FPGAMapRequestPacket.encode
      ⟨env.pid, requestNumber, rwFlag, startAddress, size, data⟩ with
  | error e =>
    rw [sendRequest_of_error hencode]
    exact h
  | ok raw =>
    rw [sendRequest_of_ok hencode]
    exact hreq _ (FPGAMapRequestPacket.valid_of_encode hencode) rfl

end Send

/-- A call that is no wait takes a token, and may send a request. -/
theorem step_request {I : State → Prop} {call : Call} (hcall : ∀ fut, call ≠ .wait fut)
    (htick : I s.ticked)
    (hreq : ∀ req, req.Valid → req.rqNumber = s.ticked.token → I (s.ticked.requested req)) :
    I (step env s call) := by
  cases call with
  | readRegAsync addr size =>
    show I (after (readRegAsync env addr size) s)
    unfold readRegAsync
    rw [after_bind (getToken_eq s)]
    exact after_sendRequest htick hreq
  | writeRegAsync addr value =>
    show I (after (writeRegAsync env addr value) s)
    unfold writeRegAsync
    rw [after_bind (getToken_eq s)]
    cases payload addr value with
    | error e => exact htick
    | ok data => exact after_sendRequest htick hreq
  | wait fut => exact absurd rfl (hcall fut)

/-- A read that is well formed is sent. -/
theorem step_readRegAsync {addr size : ℕ}
    (h : FPGAMapRequestPacket.Valid ⟨env.pid, s.ticked.token, 0, addr, size * 4, []⟩) :
    step env s (.readRegAsync addr size) =
      s.ticked.requested ⟨env.pid, s.ticked.token, 0, addr, size * 4, []⟩ := by
  have htoken : after (readRegAsync env addr size) s =
      after (sendRequest env s.ticked.token addr 0 (size * 4) []) s.ticked :=
    after_bind (getToken_eq s)
  exact htoken.trans (after_of_ok (sendRequest_of_ok h.encode_eq))

/-- A write whose payload is packed is sent. -/
theorem step_writeRegAsync {addr : ℕ} {value : WriteValue} {data : Bytes}
    (hdata : payload addr value = .ok data)
    (h : FPGAMapRequestPacket.Valid ⟨env.pid, s.ticked.token, 1, addr, data.length, data⟩) :
    step env s (.writeRegAsync addr value) =
      s.ticked.requested ⟨env.pid, s.ticked.token, 1, addr, data.length, data⟩ := by
  have htoken : after (writeRegAsync env addr value) s = after (do
      let data ← pureStatement (payload addr value)
      sendRequest env s.ticked.token addr 1 data.length data) s.ticked :=
    after_bind (getToken_eq s)
  have hpayload : pureStatement (payload addr value) s.ticked = .ok data s.ticked := by
    unfold pureStatement
    rw [hdata]
    rfl
  rw [after_bind hpayload] at htoken
  exact htoken.trans (after_of_ok (sendRequest_of_ok h.encode_eq))

/-- What tokens, requests and waits keep holds after every program. -/
theorem run_induction {I : State → Prop} (hinit : I init) (htick : ∀ s, I s → I s.ticked)
    (hreq : ∀ s req, I s → req.Valid → I (s.requested req))
    (hwait : ∀ s fut, I s → Wp (wait env fut) (fun _ s' => I s') (fun _ s' => I s') s)
    (calls : List Call) : I (run env init calls) := by
  induction calls using List.reverseRecOn with
  | nil => exact hinit
  | append_singleton calls call ih =>
    unfold run at ih ⊢
    rw [List.foldl_append, List.foldl_cons, List.foldl_nil]
    by_cases hcall : ∃ fut, call = .wait fut
    · obtain ⟨fut, rfl⟩ := hcall
      exact after_of_wp (hwait _ fut ih)
    · push Not at hcall
      exact step_request hcall (htick _ ih) fun req hvalid _ => hreq _ req (htick _ ih) hvalid

/-- **Every program keeps the queue.** -/
theorem queued_run (calls : List Call) : Queued (run env init calls) := by
  refine run_induction queued_init (fun _ h => h.ticked)
    (fun _ _ h hreq => h.requested hreq) ?_ calls
  intro s fut h
  refine wp_wait h fun future _ _ => ?_
  unfold receive
  rw [wp_bind, wp_get]
  refine wp_receiveFrom (J := fun l s => Queued s ∧ s.pending = l) (fun _ h => h.1) ?_ ⟨h, rfl⟩
  rintro c l s ⟨h, hl⟩
  have hpopped := h.popped hl
  refine wp_receiveOne hpopped (fun _ => hpopped.toQueued.timedOut) ?_
  intro _ req future pck v _ _ _ _ _
  refine ⟨fun _ => hpopped.answered, fun _ _ => hpopped.answered, fun _ _ => ?_⟩
  split
  · exact hpopped.answered.valued c v
  · exact ⟨hpopped.answered.valued c v, rfl⟩

/-! ## Late answers -/

/-- The request of a read of one register. -/
def readRequest (env : Env) (s : State) (addr : ℕ) : FPGAMapRequestPacket :=
  ⟨env.pid, s.ticked.token, 0, addr, 1 * 4, []⟩

theorem valid_readRequest {addr : ℕ} (h : addr < 2 ^ 16) : (readRequest env s addr).Valid := by
  have htoken : s.ticked.token < 255 := Nat.mod_lt _ (by decide)
  have hsize : 1 * 4 < 2 ^ 32 := by decide
  exact ⟨env.pid_lt, htoken.trans (by decide), .inl rfl, h, hsize, fun _ => rfl,
    fun hwrite => absurd hwrite Nat.zero_ne_one⟩

/-- The write of the constructor, as its first request. -/
def connectRequest (env : Env) : FPGAMapRequestPacket := ⟨env.pid, 1, 1, 127, 4, [0, 0, 0, 0]⟩

theorem valid_connectRequest (env : Env) : (connectRequest env).Valid :=
  ⟨env.pid_lt, (by decide : 1 < 2 ^ 8), .inr rfl, (by decide : 127 < 2 ^ 16),
    (by decide : 4 < 2 ^ 32), fun h => absurd h Nat.one_ne_zero,
    fun _ => ⟨rfl, (by decide : 4 % 4 = 0)⟩⟩

theorem step_connect : step env init (.writeRegAsync 127 (.str [])) =
    init.ticked.requested (connectRequest env) := by
  have hpayload : payload 127 (.str []) = .ok [0, 0, 0, 0] := rfl
  exact step_writeRegAsync hpayload (valid_connectRequest env)

/-- A request whose answer is late loses its future. -/
theorem run_late {call : Call} {req : FPGAMapRequestPacket}
    (hcall : step env s call = s.ticked.requested req) (hnone : s.pending = [])
    (hlate : env.arrives s.receives = false) : run env s [call, .wait s.futures.length] =
      { s.ticked.requested req with pending := [], receives := s.receives + 1 } := by
  have hpending : (s.ticked.requested req).pending = [s.futures.length] := by
    show s.pending ++ [s.futures.length] = [s.futures.length]
    rw [hnone, List.nil_append]
  have hfuture : (s.ticked.requested req).futures[s.futures.length]? = some (futureOf req) :=
    List.getElem?_concat_length
  have hround : receiveOne env s.futures.length { s.ticked.requested req with pending := [] } =
      .error .zmqError _ := receiveOne_timeout hlate
  have hwait := wait_of_error hfuture rfl (receive_of_error hpending hround)
  unfold run
  rw [List.foldl_cons, List.foldl_cons, List.foldl_nil, hcall]
  exact after_of_error hwait

end Run

end ClickA.Client
