import ClickA.Pat.Answers

/-!
# The link to the FPGA server

The server executes the requests of the PAT process in their order and answers each of them once. It
may take any time for a request, and an answer may take any time to arrive. The answers to other
processes arrive on the same socket.

## Main definitions

* `Link`: the requests, how many of them are executed, and how many answers were taken
* `Server`: what the server answers, and when
* `Server.sockets`: the sockets of the process
* `Source`: where a message comes from
* `Link.Follows`: the process sends requests, and the server goes on

## Main results

* `ensures_listen`: where the answer comes from that a search returns
* `ensures_checkFpgaMapWriteRequest`: a write is confirmed by an answer to a request with its number
  and channel
-/

namespace ClickA.Pat

open Python (Bytes Ensures Runs runs_bind runs_pure)

/-- The requests of the PAT process, in their order. The server has executed the first `executed`,
and the process has taken the answers to the first `taken`. -/
structure Link where
  sent : List FpgaRequest := []
  executed : ℕ := 0
  taken : ℕ := 0
  polls : ℕ := 0
  fsmRequestNumber : UInt8 := 0
  executed_le : executed ≤ sent.length := by decide
  taken_le : taken ≤ executed := by decide

/-- The link before the first request. -/
def Link.start : Link := {}

/-- What arrives while the process polls: nothing, its next answer, or another message. -/
inductive Delivery
  | late
  | own
  | foreign (message : Bytes)

/-- The bytes of an answer to a request, with some data, with an error or without. -/
def IsAnswer (returnAddr : ℕ) (request : FpgaRequest) (raw : Bytes) : Prop :=
  ∃ (error : Bool) (data : Bytes), FPGAMapAnswerPacket.encode returnAddr request.requestNum.toNat
    request.readWrite.toNat error.toNat request.channel.toNat data.length data = .ok raw

/-- The bytes of an answer to another process. -/
def IsForeign (pid : UInt32) (raw : Bytes) : Prop :=
  ∃ returnAddr request, returnAddr ≠ pid.toNat ∧ IsAnswer returnAddr request raw

/-- The answers of the server, how many requests it executes up to each poll, and what arrives. -/
structure Server where
  pid : UInt32
  garbage : ℕ → ℕ → UInt8
  answer : ℕ → FpgaRequest → Bytes
  executes : ℕ → ℕ
  delivery : ℕ → Delivery
  isAnswer : ∀ k request, IsAnswer pid.toNat request (answer k request)
  isForeign : ∀ n message, delivery n = .foreign message → IsForeign pid message

namespace Server

variable (server : Server)

/-- `send_packet_fpga_map_request`. -/
def send (request : FpgaRequest) : Proc Link Unit :=
  modify fun s => { s with
    sent := s.sent ++ [request]
    executed_le := by
      rw [List.length_append]
      exact s.executed_le.trans (Nat.le_add_right _ _) }

/-- The server goes on until the end of a poll. -/
def advance (s : Link) : Link where
  sent := s.sent
  executed := min (s.executed + server.executes s.polls) s.sent.length
  taken := s.taken
  polls := s.polls + 1
  fsmRequestNumber := s.fsmRequestNumber
  executed_le := Nat.min_le_right _ _
  taken_le := Nat.le_min.mpr
    ⟨s.taken_le.trans (Nat.le_add_right _ _), s.taken_le.trans s.executed_le⟩

/-- What is taken at the end of a poll. An own answer is only there when its request is executed. -/
def take (delivery : Delivery) (s : Link) : Option Bytes × Link :=
  match delivery with
  | .late => (none, s)
  | .foreign message => (some message, s)
  | .own =>
    if h : s.taken < s.executed then
      (some (server.answer s.taken (s.sent.get ⟨s.taken, h.trans_le s.executed_le⟩)),
        { s with taken := s.taken + 1, taken_le := h })
    else (none, s)

/-- `zmq::poll`, and the message that is received. -/
def poll : Proc Link (Option Bytes) :=
  modifyGet fun s => server.take (server.delivery s.polls) (server.advance s)

/-- The sockets to the server. -/
def sockets : Sockets Link where
  pid := server.pid
  send := send
  poll := server.poll
  garbage := fun s => server.garbage s.polls

end Server

/-! ## Searches -/

/-- While the process waits, the server goes on and answers are taken. -/
structure Link.Waits (s s' : Link) : Prop where
  sent : s'.sent = s.sent
  executed : s.executed ≤ s'.executed
  taken : s.taken ≤ s'.taken

/-- A message is for another process, or answers a request whose answer was not taken before. -/
def Source (server : Server) (s s' : Link) (message : Bytes) : Prop :=
  IsForeign server.pid message ∨ ∃ k request, s.taken ≤ k ∧ k < s'.taken ∧
    s.sent[k]? = some request ∧ IsAnswer server.pid.toNat request message

section Searches

variable {server : Server} {s s' s'' : Link} {message : Bytes}

theorem Link.Waits.refl (s : Link) : s.Waits s := ⟨rfl, le_rfl, le_rfl⟩

theorem Link.Waits.trans (h : s.Waits s') (h' : s'.Waits s'') : s.Waits s'' :=
  ⟨h'.sent.trans h.sent, h.executed.trans h'.executed, h.taken.trans h'.taken⟩

/-- A message that is taken later was not taken before either. -/
theorem Source.of_waits (h : s.Waits s') (hsource : Source server s' s'' message) :
    Source server s s'' message := by
  rcases hsource with hforeign | ⟨k, request, hle, hlt, hsent, hanswer⟩
  · exact .inl hforeign
  · refine .inr ⟨k, request, h.taken.trans hle, hlt, ?_, hanswer⟩
    rw [← h.sent]
    exact hsent

theorem waits_advance (server : Server) (s : Link) : s.Waits (server.advance s) :=
  ⟨rfl, Nat.le_min.mpr ⟨Nat.le_add_right _ _, s.executed_le⟩, le_rfl⟩

/-- **What a poll takes**: nothing, a message to another process, or the next answer. -/
theorem ensures_poll (server : Server) (s : Link) :
    Ensures server.sockets.poll (fun m s' => s.Waits s' ∧
      ∀ message, m = some message → Source server s s' message) s := by
  have hadvance := waits_advance server s
  show s.Waits (server.take (server.delivery s.polls) (server.advance s)).2 ∧ ∀ message,
    (server.take (server.delivery s.polls) (server.advance s)).1 = some message →
      Source server s (server.take (server.delivery s.polls) (server.advance s)).2 message
  cases hdelivery : server.delivery s.polls with
  | late => exact ⟨hadvance, fun _ hnone => by cases hnone⟩
  | foreign message =>
    refine ⟨hadvance, ?_⟩
    intro message' hsome
    cases hsome
    exact .inl (server.isForeign _ _ hdelivery)
  | own =>
    unfold Server.take
    dsimp only
    split
    · next hlt =>
      refine ⟨⟨rfl, hadvance.executed, Nat.le_succ _⟩, ?_⟩
      intro message hsome
      cases hsome
      refine .inr ⟨s.taken, _, le_rfl, Nat.lt_succ_self _, ?_, server.isAnswer _ _⟩
      exact List.getElem?_eq_getElem _
    · exact ⟨hadvance, fun _ hnone => by cases hnone⟩

/-- **What a search returns** was accepted, and comes from a message that it took. -/
theorem ensures_listen {α : Type} (server : Server) (receive : (ℕ → UInt8) → Bytes → α)
    (accept : α → Bool) (n : ℕ) (s : Link) :
    Ensures (listen server.sockets receive accept n) (fun result s' => s.Waits s' ∧
      ∀ answer, result = some answer → accept answer = true ∧
        ∃ garbage message, answer = receive garbage message ∧ Source server s s' message) s := by
  induction n generalizing s with
  | zero => exact ⟨.refl s, fun _ hnone => by cases hnone⟩
  | succ n ih =>
    have hlater {s' : Link} (hwaits : s.Waits s') :
        Ensures (listen server.sockets receive accept n) (fun result s'' => s.Waits s'' ∧
          ∀ answer, result = some answer → accept answer = true ∧
            ∃ garbage message, answer = receive garbage message ∧
                Source server s s'' message) s' := by
      refine (ih s').imp ?_
      rintro result s'' ⟨hwaits', hresult⟩
      refine ⟨hwaits.trans hwaits', ?_⟩
      intro answer hsome
      obtain ⟨haccept, garbage, message, heq, hsource⟩ := hresult answer hsome
      exact ⟨haccept, garbage, message, heq, hsource.of_waits hwaits⟩
    refine (ensures_poll server s).bind ?_
    rintro m s' ⟨hwaits, hmessage⟩
    cases m with
    | none => exact hlater hwaits
    | some message =>
      show Ensures (if accept (receive _ message) then _ else _) _ s'
      split
      · next haccept =>
        refine ⟨hwaits, ?_⟩
        intro answer hsome
        cases hsome
        exact ⟨haccept, _, message, rfl, hmessage message rfl⟩
      · exact hlater hwaits

/-- The answer to a request with a number and a channel is taken, and was not before. -/
def Fresh (s s' : Link) (requestNumber : UInt8) (channel : UInt16) : Prop :=
  ∃ k request, s.taken ≤ k ∧ k < s'.taken ∧ s.sent[k]? = some request ∧
    request.requestNum = requestNumber ∧ request.channel = channel

/-- An answer that is for this process comes from such a request. -/
theorem fresh_of_isFor {direction : Bool} {garbage : ℕ → UInt8} {requestNumber : UInt8}
    {channel : UInt16} (hsource : Source server s s' message)
    (h : (receivePacketFpgaMapAnswer direction garbage message).isFor server.pid requestNumber
      channel = true) : Fresh s s' requestNumber channel := by
  have hfields {returnAddr : ℕ} {request : FpgaRequest}
      (hanswer : IsAnswer returnAddr request message) : returnAddr = server.pid.toNat ∧
        request.requestNum = requestNumber ∧ request.channel = channel := by
    obtain ⟨error, data, hencode⟩ := hanswer
    obtain ⟨dataToRead, hreceive⟩ := receive_encode hencode direction garbage
    have hra := (FPGAMapAnswerPacket.of_encode hencode).1
    rw [hreceive] at h
    unfold FpgaAnswer.isFor at h
    rw [UInt8.ofNat_toNat, UInt16.ofNat_toNat, Bool.and_eq_true, Bool.and_eq_true, beq_iff_eq,
      beq_iff_eq, beq_iff_eq] at h
    obtain ⟨⟨hpid, hnumber⟩, hchannel⟩ := h
    refine ⟨?_, hnumber.symm, hchannel.symm⟩
    rw [hpid]
    exact (UInt32.toNat_ofNat_of_lt hra).symm
  rcases hsource with ⟨returnAddr, request, hne, hanswer⟩ |
    ⟨k, request, hle, hlt, hsent, hanswer⟩
  · exact absurd (hfields hanswer).1 hne
  · exact ⟨k, request, hle, hlt, hsent, (hfields hanswer).2⟩

/-- **What confirms a write**: the answer to a request with its number and channel. -/
theorem ensures_checkFpgaMapWriteRequest (server : Server) (channel : UInt16)
    (requestNumber : UInt8) (s : Link) :
    Ensures (checkFpgaMapWriteRequest server.sockets channel requestNumber) (fun confirmed s' =>
      s.Waits s' ∧ (confirmed = true → Fresh s s' requestNumber channel)) s := by
  unfold checkFpgaMapWriteRequest
  refine (ensures_listen server _ _ _ s).bind ?_
  rintro result s' ⟨hwaits, hresult⟩
  refine ⟨hwaits, ?_⟩
  intro hconfirmed
  cases result with
  | none => cases hconfirmed
  | some answer =>
    obtain ⟨hfor, garbage, message, rfl, hsource⟩ := hresult answer rfl
    exact fresh_of_isFor hsource hfor

end Searches

/-! ## Requests -/

/-- The process sends requests, and the server goes on. -/
structure Link.Follows (s s' : Link) : Prop where
  sent : s.sent <+: s'.sent
  executed : s.executed ≤ s'.executed
  taken : s.taken ≤ s'.taken

section Requests

variable {server : Server} {s s' : Link}

instance : Std.Refl Link.Follows := ⟨fun _ => ⟨List.prefix_rfl, le_rfl, le_rfl⟩⟩

instance : IsTrans Link Link.Follows := ⟨fun _ _ _ h h' =>
  ⟨h.sent.trans h'.sent, h.executed.trans h'.executed, h.taken.trans h'.taken⟩⟩

theorem Link.Waits.follows (h : s.Waits s') : s.Follows s' :=
  ⟨h.sent ▸ List.prefix_rfl, h.executed, h.taken⟩

theorem runs_send (request : FpgaRequest) : Runs Link.Follows (Server.send request) := by
  intro s
  exact ⟨List.prefix_append _ _, le_rfl, le_rfl⟩

theorem runs_listen {α : Type} (server : Server) (receive : (ℕ → UInt8) → Bytes → α)
    (accept : α → Bool) (n : ℕ) : Runs Link.Follows (listen server.sockets receive accept n) := by
  intro s
  exact (ensures_listen server receive accept n s).imp fun _ _ h => h.1.follows

theorem runs_checkFpgaMapWriteRequest (server : Server) (channel : UInt16)
    (requestNumber : UInt8) :
    Runs Link.Follows (checkFpgaMapWriteRequest server.sockets channel requestNumber) := by
  intro s
  exact (ensures_checkFpgaMapWriteRequest server channel requestNumber s).imp
    fun _ _ h => h.1.follows

theorem runs_checkFpgaMapValue (server : Server) (channel : UInt16) (data requestNumber : UInt8) :
    Runs Link.Follows (checkFpgaMapValue server.sockets channel data requestNumber) :=
  runs_bind (runs_send _) fun _ => runs_bind (runs_listen server _ _ _) fun _ => runs_pure _

end Requests

end ClickA.Pat
