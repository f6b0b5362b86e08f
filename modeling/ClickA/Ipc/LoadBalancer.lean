import ClickA.Machine.Run
import Mathlib.Data.List.Flatten
import Mathlib.Data.List.Perm.Basic
import Mathlib.Data.List.Nodup
import Mathlib.Order.Basic

/-!
# The load balancer

`ipc_loadbalancer.py` and `router.py`: the router takes commands one by one, and sends each to a
worker of which its socket has an announcement, in any order of the peers. An announcement stays in
the socket when its sender is restarted, and what is sent to a worker that is gone is dropped.

## Main definitions

* `Worker`, `Balancer`: a command handler with its REQ socket, and the router with all of them
* `Action`, `step`: what happens
* `Delivered`: no command is lost or doubled, and workers receive commands that they are ready for
* `Spares`: the announcement that is used is of a worker that is there, and no restart takes a
  command with it

## Main results

* `delivered_iff`: when each command is delivered
-/

namespace ClickA.LoadBalancer

open Machine

/-- Where a worker is: before its first `send_ready`, in `poll_request` behind a `send_ready`, or
between `poll_request` and the next `send_ready`. -/
inductive Phase
  | starting
  | waiting
  | handling
deriving DecidableEq, Repr

/-- A worker that runs: its identity, and what its socket has received. -/
structure Worker (γ : Type) where
  identity : ℕ
  phase : Phase := .starting
  inbox : List γ := []
deriving DecidableEq, Repr

namespace Worker

variable {γ : Type}

/-- `send_ready`. -/
def announce (w : Worker γ) : Worker γ := { w with phase := .waiting }

/-- A request comes to the socket. -/
def deliver (payload : γ) (w : Worker γ) : Worker γ := { w with inbox := w.inbox ++ [payload] }

/-- `poll_request`, when there is a request. -/
def receive (w : Worker γ) : Worker γ := { w with phase := .handling, inbox := w.inbox.tail }

end Worker

/-- The workers that run, and the router: the announcements in its ROUTER socket, and the command
that it sends. The identities, the commands that were taken, what was received by which
worker, and the announcements are recorded. -/
structure Balancer (γ : Type) where
  workers : List (Worker γ) := []
  used : List ℕ := []
  tokens : List ℕ := []
  request : Option γ := none
  taken : List γ := []
  received : List (ℕ × γ) := []
  announced : List ℕ := []

/-- A worker is started, or sends `ready`. The router takes a command, or ends its `send_request`
with an announcement. A worker receives a request, or is restarted. -/
inductive Action (γ : Type)
  | start (identity : ℕ)
  | sendReady (identity : ℕ)
  | take (payload : γ)
  | dispatch (address : ℕ)
  | receive (identity : ℕ)
  | restart (old new : ℕ)

section Step

variable {γ : Type}

/-- The worker with an identity. -/
def worker (s : Balancer γ) (identity : ℕ) : Option (Worker γ) :=
  s.workers.find? fun w => w.identity = identity

/-- The workers, with a change of one. -/
def update (identity : ℕ) (f : Worker γ → Worker γ) (workers : List (Worker γ)) : List (Worker γ) :=
  workers.map fun w => if w.identity = identity then f w else w

/-- A worker has no identity that was used before. It sends `ready` once for each request, and it is
idle when it is restarted. What is sent to an identity that no worker has is dropped. -/
def step (s : Balancer γ) : Action γ → Option (Balancer γ)
  | .start identity =>
    if identity ∈ s.used then none
    else some { s with workers := s.workers ++ [{ identity }], used := identity :: s.used }
  | .sendReady identity => do
    let w ← worker s identity
    if w.phase = .waiting then none
    else some { s with
      workers := update identity Worker.announce s.workers
      tokens := s.tokens ++ [identity]
      announced := s.announced ++ [identity] }
  | .take payload =>
    match s.request with
    | none => some { s with request := some payload, taken := s.taken ++ [payload] }
    | some _ => none
  | .dispatch address => do
    let payload ← s.request
    if address ∈ s.tokens then some { s with
      workers := update address (Worker.deliver payload) s.workers
      tokens := s.tokens.erase address
      request := none }
    else none
  | .receive identity => do
    let w ← worker s identity
    match w.phase, w.inbox with
    | .waiting, payload :: _ => some { s with
        workers := update identity Worker.receive s.workers
        received := s.received ++ [(identity, payload)] }
    | _, _ => none
  | .restart old new => do
    let w ← worker s old
    if w.phase = .handling ∨ new ∈ s.used then none
    else some { s with
      workers := s.workers.filter (fun w => w.identity ≠ old) ++ [{ identity := new }]
      used := new :: s.used }

/-- Each command that was taken was received once, waits once at a worker that can receive it, or is
being sent. A worker has received no more commands than it has announced itself ready for. -/
structure Delivered (s : Balancer γ) : Prop where
  exactlyOnce : s.taken.Perm
    (s.received.map Prod.snd ++ s.workers.flatMap Worker.inbox ++ s.request.toList)
  waits : ∀ w ∈ s.workers, w.inbox ≠ [] → (step s (.receive w.identity)).isSome
  announced : ∀ identity,
    (s.received.filter fun r => r.1 = identity).length ≤ s.announced.count identity

/-- The announcement that is used is of a worker that runs, and a worker is restarted before
something was sent to it. -/
def Spares (s : Balancer γ) : Action γ → Prop
  | .dispatch address => ∃ w ∈ s.workers, w.identity = address
  | .restart old _ => ∀ w ∈ s.workers, w.identity = old → w.inbox = []
  | _ => True

end Step

/-! ## Workers -/

section Workers

variable {γ : Type} {s s' : Balancer γ} {w : Worker γ} {workers : List (Worker γ)} {identity : ℕ}
  {f : Worker γ → Worker γ}

theorem worker_eq_some (h : worker s identity = some w) : w ∈ s.workers ∧ w.identity = identity :=
  ⟨List.mem_of_find?_eq_some h, by simpa using List.find?_some h⟩

theorem mem_update : w ∈ update identity f workers ↔
    (w ∈ workers ∧ w.identity ≠ identity) ∨ ∃ w' ∈ workers, w'.identity = identity ∧ w = f w' := by
  unfold update
  rw [List.mem_map]
  constructor
  · rintro ⟨w', hw', rfl⟩
    by_cases hsame : w'.identity = identity
    · rw [if_pos hsame]
      exact .inr ⟨w', hw', hsame, rfl⟩
    · rw [if_neg hsame]
      exact .inl ⟨hw', hsame⟩
  · rintro (⟨hw, hne⟩ | ⟨w', hw', hsame, rfl⟩)
    · exact ⟨w, hw, if_neg hne⟩
    · exact ⟨w', hw', if_pos hsame⟩

theorem map_identity_update (f : Worker γ → Worker γ) (hf : ∀ w, (f w).identity = w.identity) :
    (update identity f workers).map Worker.identity = workers.map Worker.identity := by
  unfold update
  rw [List.map_map]
  apply List.map_congr_left
  intro w hw
  rw [Function.comp_apply]
  split
  · exact hf w
  · rfl

theorem update_of_not_mem (h : ∀ w ∈ workers, w.identity ≠ identity) :
    update identity f workers = workers := by
  unfold update
  conv_rhs => rw [← List.map_id workers]
  apply List.map_congr_left
  intro w hw
  exact if_neg (h w hw)

/-- One worker changes. -/
theorem exists_update (hnodup : (workers.map Worker.identity).Nodup) (hw : w ∈ workers)
    (f : Worker γ → Worker γ) : ∃ pre post, workers = pre ++ w :: post ∧
      update w.identity f workers = pre ++ f w :: post := by
  obtain ⟨pre, post, rfl⟩ := List.append_of_mem hw
  refine ⟨pre, post, rfl, ?_⟩
  rw [List.map_append, List.map_cons] at hnodup
  obtain ⟨-, hpost, hdisjoint⟩ := List.nodup_append.mp hnodup
  have hpre : ∀ w' ∈ pre, w'.identity ≠ w.identity := fun w' hw' =>
    hdisjoint _ (List.mem_map_of_mem hw') _ List.mem_cons_self
  have hpost' : ∀ w' ∈ post, w'.identity ≠ w.identity := by
    intro w' hw' hsame
    apply (List.nodup_cons.mp hpost).1
    rw [← hsame]
    exact List.mem_map_of_mem hw'
  have hself : update w.identity f [w] = [f w] := by simp [update]
  have hsplit : update w.identity f (pre ++ w :: post) =
      update w.identity f pre ++ (update w.identity f [w] ++ update w.identity f post) := by
    simp [update]
  rw [hsplit, update_of_not_mem hpre, update_of_not_mem hpost', hself]
  rfl

/-- The worker with an identity is found. -/
theorem worker_of_mem (hnodup : (s.workers.map Worker.identity).Nodup) (hw : w ∈ s.workers) :
    worker s w.identity = some w := by
  obtain ⟨w', hw'⟩ : ∃ w', worker s w.identity = some w' := by
    apply Option.isSome_iff_exists.mp
    exact List.find?_isSome.mpr ⟨w, hw, by simp⟩
  obtain ⟨hmem, hsame⟩ := worker_eq_some hw'
  rw [hw', List.inj_on_of_nodup_map hnodup hmem hw hsame]

end Workers

/-! ## What the steps keep -/

section Sound

variable {γ : Type} {s s' : Balancer γ} {w : Worker γ} {identity new : ℕ} {payload : γ}

/-- How many requests a worker has received. -/
def receivedBy (s : Balancer γ) (identity : ℕ) : ℕ :=
  (s.received.filter fun r => r.1 = identity).length

/-- The identities are those that were used. Each command is in one place, and each announcement
pays for one request. -/
structure Sound (s : Balancer γ) : Prop where
  nodup : (s.workers.map Worker.identity).Nodup
  used : ∀ w ∈ s.workers, w.identity ∈ s.used
  tokens : ∀ identity ∈ s.tokens, identity ∈ s.used
  exactlyOnce : s.taken.Perm
    (s.received.map Prod.snd ++ s.workers.flatMap Worker.inbox ++ s.request.toList)
  load : ∀ w ∈ s.workers,
    s.tokens.count w.identity + w.inbox.length ≤ if w.phase = .waiting then 1 else 0
  credit : ∀ identity, receivedBy s identity + s.tokens.count identity ≤ s.announced.count identity
  creditOf : ∀ w ∈ s.workers, receivedBy s w.identity + s.tokens.count w.identity + w.inbox.length ≤
    s.announced.count w.identity

/-- A worker that is not ready has nothing to receive. -/
theorem Sound.waiting_of_ne_nil (hsound : Sound s) (hw : w ∈ s.workers) (hne : w.inbox ≠ []) :
    w.phase = .waiting := by
  have hload := hsound.load w hw
  have hpos : 0 < w.inbox.length := List.length_pos_iff.mpr hne
  by_contra hphase
  rw [if_neg hphase] at hload
  omega

theorem Sound.delivered (hsound : Sound s) : Delivered s where
  exactlyOnce := hsound.exactlyOnce
  waits w hw hne := by
    have hphase := hsound.waiting_of_ne_nil hw hne
    obtain ⟨payload, inbox, hinbox⟩ := List.exists_cons_of_ne_nil hne
    simp [step, worker_of_mem hsound.nodup hw, hphase, hinbox]
  announced identity := Nat.le_trans (Nat.le_add_right _ _) (hsound.credit identity)

theorem flatMap_inbox_update (identity : ℕ) (f : Worker γ → Worker γ)
    (hf : ∀ w, (f w).inbox = w.inbox) (workers : List (Worker γ)) :
    (update identity f workers).flatMap Worker.inbox = workers.flatMap Worker.inbox := by
  unfold update
  rw [List.flatMap_map]
  apply List.flatMap_congr
  intro w hw
  split
  · exact hf w
  · rfl

theorem receivedBy_append (s : Balancer γ) (identity i : ℕ) (payload : γ)
    (workers : List (Worker γ)) :
    receivedBy { s with workers, received := s.received ++ [(identity, payload)] } i =
      receivedBy s i + if identity = i then 1 else 0 := by
  show (List.filter _ (s.received ++ [(identity, payload)])).length = _
  rw [List.filter_append, List.length_append, List.filter_singleton]
  by_cases hsame : identity = i <;> simp [hsame, receivedBy]

theorem flatMap_inbox_filter {workers : List (Worker γ)} {old : ℕ}
    (hidle : ∀ w ∈ workers, w.identity = old → w.inbox = []) :
    (workers.filter fun w => w.identity ≠ old).flatMap Worker.inbox =
      workers.flatMap Worker.inbox := by
  induction workers with
  | nil => rfl
  | cons w workers ih =>
    have hrest := ih fun w' hw' => hidle w' (List.mem_cons_of_mem _ hw')
    by_cases hold : w.identity = old
    · rw [List.filter_cons_of_neg (by simpa using hold), hrest, List.flatMap_cons,
        hidle w List.mem_cons_self hold, List.nil_append]
    · rw [List.filter_cons_of_pos (by simpa using hold), List.flatMap_cons, List.flatMap_cons,
        hrest]

/-- A new worker has nothing to receive, and has announced nothing. -/
theorem Sound.start (hsound : Sound s) (hnew : new ∉ s.used) :
    Sound { s with workers := s.workers ++ [{ identity := new }], used := new :: s.used } where
  nodup := by
    rw [List.map_append, List.nodup_append]
    refine ⟨hsound.nodup, List.nodup_singleton _, ?_⟩
    intro a ha b hb
    obtain ⟨w, hw, rfl⟩ := List.mem_map.mp ha
    obtain rfl : b = new := by simpa using hb
    rintro rfl
    exact hnew (hsound.used w hw)
  used w hw := by
    rcases List.mem_append.mp hw with hw | hw
    · exact List.mem_cons_of_mem _ (hsound.used w hw)
    · rw [List.mem_singleton.mp hw]
      exact List.mem_cons_self
  tokens i hi := List.mem_cons_of_mem _ (hsound.tokens i hi)
  exactlyOnce := by
    rw [List.flatMap_append, List.flatMap_singleton, List.append_nil]
    exact hsound.exactlyOnce
  load w hw := by
    rcases List.mem_append.mp hw with hw | hw
    · exact hsound.load w hw
    · rw [List.mem_singleton.mp hw]
      have hnone : s.tokens.count new = 0 :=
          List.count_eq_zero.mpr fun hmem => hnew (hsound.tokens _ hmem)
      simp [hnone]
  credit := hsound.credit
  creditOf w hw := by
    rcases List.mem_append.mp hw with hw | hw
    · exact hsound.creditOf w hw
    · rw [List.mem_singleton.mp hw]
      exact hsound.credit new

/-- A worker announces itself. -/
theorem Sound.sendReady (hsound : Sound s) (hw : w ∈ s.workers) (hphase : w.phase ≠ .waiting) :
    Sound { s with
      workers := update w.identity Worker.announce s.workers
      tokens := s.tokens ++ [w.identity]
      announced := s.announced ++ [w.identity] } where
  nodup := by
    show ((update w.identity Worker.announce s.workers).map Worker.identity).Nodup
    rw [map_identity_update Worker.announce fun _ => rfl]
    exact hsound.nodup
  used w' hw' := by
    rcases mem_update.mp hw' with ⟨hw', -⟩ | ⟨w'', hw'', -, rfl⟩
    · exact hsound.used w' hw'
    · exact hsound.used w'' hw''
  tokens i hi := by
    rcases List.mem_append.mp hi with hi | hi
    · exact hsound.tokens i hi
    · rw [List.mem_singleton.mp hi]
      exact hsound.used w hw
  exactlyOnce := by
    have hinboxes : (update w.identity Worker.announce s.workers).flatMap Worker.inbox =
        s.workers.flatMap Worker.inbox := flatMap_inbox_update _ Worker.announce (fun _ => rfl) _
    rw [hinboxes]
    exact hsound.exactlyOnce
  load w' hw' := by
    rw [List.count_append]
    rcases mem_update.mp hw' with ⟨hw', hne⟩ | ⟨w'', hw'', hsame, rfl⟩
    · rw [List.count_singleton, if_neg (by simpa using Ne.symm hne)]
      exact hsound.load w' hw'
    · obtain rfl := List.inj_on_of_nodup_map hsound.nodup hw'' hw hsame
      have hload := hsound.load w'' hw
      rw [if_neg hphase] at hload
      show s.tokens.count w''.identity + [w''.identity].count w''.identity + w''.inbox.length ≤ 1
      rw [List.count_singleton_self]
      omega
  credit i := by
    have hcredit := hsound.credit i
    rw [List.count_append, List.count_append]
    show receivedBy s i + _ ≤ _
    omega
  creditOf w' hw' := by
    rw [List.count_append, List.count_append]
    show receivedBy s w'.identity + _ + _ ≤ _
    rcases mem_update.mp hw' with ⟨hw', -⟩ | ⟨w'', hw'', -, rfl⟩
    · have hcredit := hsound.creditOf w' hw'
      omega
    · have hcredit := hsound.creditOf w'' hw''
      show receivedBy s w''.identity + (s.tokens.count w''.identity +
          [w.identity].count w''.identity)
        + w''.inbox.length ≤ s.announced.count w''.identity + [w.identity].count w''.identity
      omega

/-- The router takes a command. -/
theorem Sound.take (hsound : Sound s) (hrequest : s.request = none) (payload : γ) :
    Sound { s with request := some payload, taken := s.taken ++ [payload] } where
  nodup := hsound.nodup
  used := hsound.used
  tokens := hsound.tokens
  exactlyOnce := by
    have honce := hsound.exactlyOnce
    rw [hrequest, Option.toList_none, List.append_nil] at honce
    exact honce.append_right [payload]
  load := hsound.load
  credit := hsound.credit
  creditOf := hsound.creditOf

/-- What is delivered waits at its worker. -/
theorem flatMap_inbox_deliver (hnodup : (s.workers.map Worker.identity).Nodup) (hw : w ∈ s.workers)
    (payload : γ) : ((update w.identity (Worker.deliver payload) s.workers).flatMap
      Worker.inbox).Perm
      (s.workers.flatMap Worker.inbox ++ [payload]) := by
  obtain ⟨pre, post, hsplit, hupdate⟩ := exists_update hnodup hw (Worker.deliver payload)
  rw [hupdate, hsplit, List.flatMap_append, List.flatMap_append, List.flatMap_cons,
    List.flatMap_cons,
    List.append_assoc, List.append_assoc]
  apply List.Perm.append_left
  show (w.inbox ++ [payload] ++ post.flatMap Worker.inbox).Perm _
  rw [List.append_assoc]
  exact List.Perm.append_left _ List.perm_append_comm

/-- What is received does not wait any longer. -/
theorem flatMap_inbox_receive (hnodup : (s.workers.map Worker.identity).Nodup) (hw : w ∈ s.workers)
    {inbox : List γ} (hinbox : w.inbox = payload :: inbox) : (s.workers.flatMap Worker.inbox).Perm
      ([payload] ++ (update w.identity Worker.receive s.workers).flatMap Worker.inbox) := by
  obtain ⟨pre, post, hsplit, hupdate⟩ := exists_update hnodup hw Worker.receive
  have hrest : w.receive.inbox = inbox := by
    show w.inbox.tail = inbox
    rw [hinbox]
    rfl
  rw [hupdate, hsplit, List.flatMap_append, List.flatMap_append, List.flatMap_cons,
    List.flatMap_cons,
    hinbox, hrest]
  exact List.perm_middle

/-- The router sends a command to a worker that announced itself. -/
theorem Sound.dispatch (hsound : Sound s) (hrequest : s.request = some payload)
    (hw : w ∈ s.workers) (htoken : w.identity ∈ s.tokens) :
    Sound { s with
      workers := update w.identity (Worker.deliver payload) s.workers
      tokens := s.tokens.erase w.identity
      request := none } where
  nodup := by
    show ((update w.identity (Worker.deliver payload) s.workers).map Worker.identity).Nodup
    rw [map_identity_update (Worker.deliver payload) fun _ => rfl]
    exact hsound.nodup
  used w' hw' := by
    rcases mem_update.mp hw' with ⟨hw', -⟩ | ⟨w'', hw'', -, rfl⟩
    · exact hsound.used w' hw'
    · exact hsound.used w'' hw''
  tokens i hi := hsound.tokens i (List.mem_of_mem_erase hi)
  exactlyOnce := by
    have honce := hsound.exactlyOnce
    rw [hrequest, List.append_assoc] at honce
    rw [Option.toList_none, List.append_nil]
    exact honce.trans ((flatMap_inbox_deliver hsound.nodup hw payload).symm.append_left _)
  load w' hw' := by
    rcases mem_update.mp hw' with ⟨hw', hne⟩ | ⟨w'', hw'', hsame, rfl⟩
    · rw [List.count_erase_of_ne hne]
      exact hsound.load w' hw'
    · obtain rfl := List.inj_on_of_nodup_map hsound.nodup hw'' hw hsame
      have hload := hsound.load w'' hw
      have hpos := List.count_pos_iff.mpr htoken
      show (s.tokens.erase w''.identity).count w''.identity + (w''.inbox ++ [payload]).length ≤
        if w''.phase = .waiting then 1 else 0
      rw [List.count_erase_self, List.length_append, List.length_singleton]
      omega
  credit i := by
    have hcredit := hsound.credit i
    have hshrinks : (s.tokens.erase w.identity).count i ≤ s.tokens.count i :=
      List.erase_sublist.count_le i
    show receivedBy s i + (s.tokens.erase w.identity).count i ≤ s.announced.count i
    omega
  creditOf w' hw' := by
    rcases mem_update.mp hw' with ⟨hw', hne⟩ | ⟨w'', hw'', hsame, rfl⟩
    · rw [List.count_erase_of_ne hne]
      exact hsound.creditOf w' hw'
    · have hcredit := hsound.creditOf w'' hw''
      have hpos := List.count_pos_iff.mpr htoken
      show receivedBy s w''.identity + (s.tokens.erase w.identity).count w''.identity +
        (w''.inbox ++ [payload]).length ≤ s.announced.count w''.identity
      rw [hsame] at hcredit ⊢
      rw [List.count_erase_self, List.length_append, List.length_singleton]
      omega

/-- A worker receives a command. -/
theorem Sound.receive (hsound : Sound s) (hw : w ∈ s.workers) (hphase : w.phase = .waiting)
    {inbox : List γ} (hinbox : w.inbox = payload :: inbox) :
    Sound { s with
      workers := update w.identity Worker.receive s.workers
      received := s.received ++ [(w.identity, payload)] } where
  nodup := by
    show ((update w.identity Worker.receive s.workers).map Worker.identity).Nodup
    rw [map_identity_update Worker.receive fun _ => rfl]
    exact hsound.nodup
  used w' hw' := by
    rcases mem_update.mp hw' with ⟨hw', -⟩ | ⟨w'', hw'', -, rfl⟩
    · exact hsound.used w' hw'
    · exact hsound.used w'' hw''
  tokens := hsound.tokens
  exactlyOnce := by
    apply hsound.exactlyOnce.trans
    rw [List.map_append, List.append_assoc (s.received.map Prod.snd)
      ([(w.identity, payload)].map Prod.snd)]
    apply List.Perm.append_right
    exact (flatMap_inbox_receive hsound.nodup hw hinbox).append_left _
  load w' hw' := by
    rcases mem_update.mp hw' with ⟨hw', -⟩ | ⟨w'', hw'', hsame, rfl⟩
    · exact hsound.load w' hw'
    · obtain rfl := List.inj_on_of_nodup_map hsound.nodup hw'' hw hsame
      have hload := hsound.load w'' hw
      rw [if_pos hphase, hinbox, List.length_cons] at hload
      show s.tokens.count w''.identity + w''.inbox.tail.length ≤ 0
      rw [hinbox, List.tail_cons]
      omega
  credit i := by
    have hcredit := hsound.credit i
    have hcreditOf := hsound.creditOf w hw
    rw [receivedBy_append]
    rw [hinbox, List.length_cons] at hcreditOf
    show receivedBy s i + (if w.identity = i then 1 else 0) + s.tokens.count i ≤ s.announced.count i
    split
    · subst i
      omega
    · omega
  creditOf w' hw' := by
    rw [receivedBy_append]
    rcases mem_update.mp hw' with ⟨hw', hne⟩ | ⟨w'', hw'', hsame, rfl⟩
    · rw [if_neg (Ne.symm hne)]
      exact hsound.creditOf w' hw'
    · obtain rfl := List.inj_on_of_nodup_map hsound.nodup hw'' hw hsame
      have hcreditOf := hsound.creditOf w'' hw
      rw [hinbox, List.length_cons] at hcreditOf
      show receivedBy s w''.identity + (if w''.identity = w''.identity then 1 else 0) +
        s.tokens.count w''.identity + w''.inbox.tail.length ≤ s.announced.count w''.identity
      rw [if_pos rfl, hinbox, List.tail_cons]
      omega

/-- A worker goes, with nothing to receive. -/
theorem Sound.remove (hsound : Sound s) {old : ℕ}
    (hidle : ∀ w ∈ s.workers, w.identity = old → w.inbox = []) :
    Sound { s with workers := s.workers.filter fun w => w.identity ≠ old } where
  nodup := (List.filter_sublist.map _).nodup hsound.nodup
  used w hw := hsound.used w (List.mem_of_mem_filter hw)
  tokens := hsound.tokens
  exactlyOnce := by
    rw [flatMap_inbox_filter hidle]
    exact hsound.exactlyOnce
  load w hw := hsound.load w (List.mem_of_mem_filter hw)
  credit := hsound.credit
  creditOf w hw := hsound.creditOf w (List.mem_of_mem_filter hw)

/-- A step of the router and of the workers, when no command is sent to a worker that is gone. -/
theorem sound_step (hsound : Sound s) {a : Action γ} (hspares : Spares s a)
    (hstep : step s a = some s') :
    Sound s' := by
  cases a with
  | start identity =>
    rw [step, Option.ite_none_left_eq_some] at hstep
    obtain ⟨hnew, hstep⟩ := hstep
    rw [← Option.some.inj hstep]
    exact hsound.start hnew
  | sendReady identity =>
    obtain ⟨w, hw, hstep⟩ := Option.bind_eq_some_iff.mp hstep
    obtain ⟨hphase, hstep⟩ := Option.ite_none_left_eq_some.mp hstep
    obtain ⟨hmem, rfl⟩ := worker_eq_some hw
    rw [← Option.some.inj hstep]
    exact hsound.sendReady hmem hphase
  | take payload =>
    cases hrequest : s.request with
    | none =>
      simp only [step, hrequest] at hstep
      rw [← Option.some.inj hstep]
      exact hsound.take hrequest payload
    | some other => simp [step, hrequest] at hstep
  | dispatch address =>
    obtain ⟨payload, hrequest, hstep⟩ := Option.bind_eq_some_iff.mp hstep
    obtain ⟨htoken, hstep⟩ := Option.ite_none_right_eq_some.mp hstep
    obtain ⟨w, hw, rfl⟩ := hspares
    rw [← Option.some.inj hstep]
    exact hsound.dispatch hrequest hw htoken
  | receive identity =>
    obtain ⟨w, hw, hstep⟩ := Option.bind_eq_some_iff.mp hstep
    obtain ⟨hmem, rfl⟩ := worker_eq_some hw
    split at hstep
    · next payload inbox hphase hinbox =>
      rw [← Option.some.inj hstep]
      exact hsound.receive hmem hphase hinbox
    · exact absurd hstep (by simp)
  | restart old new =>
    obtain ⟨w, hw, hstep⟩ := Option.bind_eq_some_iff.mp hstep
    obtain ⟨hfree, hstep⟩ := Option.ite_none_left_eq_some.mp hstep
    rw [← Option.some.inj hstep]
    exact (hsound.remove hspares).start fun hused => hfree (.inr hused)

/-- The commands that the router took, and those that are somewhere. -/
theorem Delivered.length (h : Delivered s) : s.taken.length =
    s.received.length + (s.workers.flatMap Worker.inbox).length + s.request.toList.length := by
  rw [h.exactlyOnce.length_eq, List.length_append, List.length_append, List.length_map]

theorem length_flatMap_inbox_filter {workers : List (Worker γ)} {old : ℕ} (hw : w ∈ workers)
    (hold : w.identity = old) (hne : w.inbox ≠ []) :
    ((workers.filter fun w => w.identity ≠ old).flatMap Worker.inbox).length <
      (workers.flatMap Worker.inbox).length := by
  obtain ⟨pre, post, rfl⟩ := List.append_of_mem hw
  have hle : ∀ workers : List (Worker γ),
      ((workers.filter fun w => w.identity ≠ old).flatMap Worker.inbox).length ≤
        (workers.flatMap Worker.inbox).length := fun workers =>
    (List.filter_sublist.flatMap Worker.inbox).length_le
  have hpos : 0 < w.inbox.length := List.length_pos_iff.mpr hne
  have hpre := hle pre
  have hpost := hle post
  rw [List.filter_append, List.filter_cons_of_neg (by simpa using hold)]
  simp only [List.flatMap_append, List.flatMap_cons, List.length_append]
  omega

/-- Otherwise, a command is lost. -/
theorem not_delivered_step (hsound : Sound s) {a : Action γ} (hspares : ¬ Spares s a)
    (hstep : step s a = some s') : ¬ Delivered s' := by
  intro hdelivered
  have hbefore := hsound.delivered.length
  have hafter := hdelivered.length
  cases a with
  | dispatch address =>
    have hgone : ∀ w ∈ s.workers, w.identity ≠ address := fun w hw hsame =>
      hspares ⟨w, hw, hsame⟩
    obtain ⟨payload, hrequest, hstep⟩ := Option.bind_eq_some_iff.mp hstep
    obtain ⟨htoken, hstep⟩ := Option.ite_none_right_eq_some.mp hstep
    rw [update_of_not_mem hgone] at hstep
    rw [← Option.some.inj hstep] at hafter
    simp [hrequest] at hbefore hafter
    omega
  | restart old new =>
    obtain ⟨w, hw, hold, hne⟩ : ∃ w ∈ s.workers, w.identity = old ∧ w.inbox ≠ [] := by
      simpa [Spares] using hspares
    obtain ⟨w', hw', hstep⟩ := Option.bind_eq_some_iff.mp hstep
    obtain ⟨hfree, hstep⟩ := Option.ite_none_left_eq_some.mp hstep
    rw [← Option.some.inj hstep] at hafter
    have hless := length_flatMap_inbox_filter hw hold hne
    simp only [List.flatMap_append, List.length_append, List.flatMap_singleton, List.length_nil]
      at hafter
    omega
  | start => exact hspares trivial
  | sendReady => exact hspares trivial
  | take => exact hspares trivial
  | receive => exact hspares trivial

/-- No worker has started. -/
theorem sound_empty : Sound ({} : Balancer γ) where
  nodup := List.nodup_nil
  used _ hw := absurd hw List.not_mem_nil
  tokens _ hi := absurd hi List.not_mem_nil
  exactlyOnce := List.Perm.refl _
  load _ hw := absurd hw List.not_mem_nil
  credit _ := Nat.le_refl _
  creditOf _ hw := absurd hw List.not_mem_nil

/-- In a run, each command that the router takes is received once, by a worker that has announced
itself for it, if and only if the router uses no announcement of a worker that is gone, and no
worker is restarted with a command in its socket. -/
theorem delivered_iff {actions : List (Action γ)} (hrun : (run step {} actions).isSome) :
    Always step Delivered {} actions ↔ Along step Spares {} actions :=
  always_iff_along (fun _ => Sound.delivered) (fun _ _ _ hsound => sound_step hsound)
    (fun _ _ _ hsound => not_delivered_step hsound) sound_empty hrun

/-- Two workers announce themselves, the later announcement is used first, and a worker is restarted
between two commands. -/
theorem delivered_iff_restarted : Always step Delivered ({} : Balancer ℕ)
      [.start 1, .start 2, .sendReady 1, .sendReady 2, .take 7, .dispatch 2, .receive 2, .start 3,
        .take 8, .dispatch 1, .receive 1, .sendReady 1, .restart 3 4, .sendReady 4, .take 9,
        .dispatch 4, .receive 4] ↔
    Along step Spares ({} : Balancer ℕ)
      [.start 1, .start 2, .sendReady 1, .sendReady 2, .take 7, .dispatch 2, .receive 2, .start 3,
        .take 8, .dispatch 1, .receive 1, .sendReady 1, .restart 3 4, .sendReady 4, .take 9,
        .dispatch 4, .receive 4] :=
  delivered_iff (by decide)

/-- A worker announces itself and is restarted. Its announcement is used, and the command is
dropped. -/
theorem not_delivered_stale :
    (run step ({} : Balancer ℕ)
      [.start 1, .sendReady 1, .restart 1 2, .take 7, .dispatch 1]).isSome ∧
    ¬ Always step Delivered ({} : Balancer ℕ)
      [.start 1, .sendReady 1, .restart 1 2, .take 7, .dispatch 1] := by
  have hrun : run step ({} : Balancer ℕ)
      [.start 1, .sendReady 1, .restart 1 2, .take 7, .dispatch 1] =
      some { workers := [{ identity := 2 }], used := [2, 1], taken := [7], announced := [1] } := rfl
  refine ⟨by rw [hrun]; rfl, fun halways => ?_⟩
  -- the command was taken, and it is nowhere
  have hlength := (halways.last hrun).length
  exact absurd hlength (by decide)

end Sound

end ClickA.LoadBalancer
