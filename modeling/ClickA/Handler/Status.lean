import ClickA.Ipc.Control
import ClickA.Machine.Run

/-!
# The status of PAT

`commandhandler.py`: the command handler subscribes to the status of PAT. It reads at most one
status in each iteration of its main loop, and commands are accepted by the status that it read
last.

## Main definitions

* `Status`: a status of PAT, and its message
* `getPatStatus`, `updatePatStatus`: how the command handler polls
* `CommandHandler`, `Action`, `step`: the command handler, and what happens
* `Current`: a command is tested against the newest status before the poll
* `Caught`: the poll found no status, or the oldest one that it found is equal to the newest one

## Main results

* `current_iff`: when commands are tested against the newest status
-/

namespace ClickA.Handler

open Python Machine

/-! ## Statuses -/

/-- A status that PAT sends, with its process. -/
structure Status where
  pid : ℕ
  status : ℕ
  pid_lt : pid < 2 ^ 32
  status_lt : status < 2 ^ 32

/-- `send_packet_pat_status`. -/
def Status.message (s : Status) : Bytes := leBytes 4 s.pid ++ leBytes 4 s.status

/-- `get_pat_status`: whether a status is there, and the oldest one with its sender. -/
def getPatStatus : List Bytes → Except Exn (Bool × ℤ × ℤ)
  | message :: _ => do
    let (returnAddr, statusFlag) ← PATStatusPacket.decode message
    return (true, statusFlag, returnAddr)
  | [] => return (false, -1, -1)

/-- `update_pat_status`. -/
def updatePatStatus (statusFlag : ℤ) (messages : List Bytes) : Except Exn ℤ := do
  let (receivedStatus, newStatusFlag, _) ← getPatStatus messages
  return if receivedStatus then newStatusFlag else statusFlag

theorem Status.encode_eq (s : Status) : PATStatusPacket.encode s.pid s.status = .ok s.message := by
  rw [PATStatusPacket.encode, pack, native, packFrom_cons Code.noConfusion, packOne_I s.pid_lt,
    ok_bind,
    packFrom_cons Code.noConfusion, packOne_I s.status_lt, ok_bind]
  simp [message, packFrom, gap, Code.align, Code.size]

theorem Status.decode_message (s : Status) :
    PATStatusPacket.decode s.message = .ok (s.pid, s.status) :=
  PATStatusPacket.decode_encode s.encode_eq

theorem getPatStatus_cons (s : Status) (messages : List Bytes) :
    getPatStatus (s.message :: messages) = .ok (true, s.status, s.pid) := by
  rw [getPatStatus, s.decode_message, ok_bind]
  rfl

theorem updatePatStatus_cons (statusFlag : ℤ) (s : Status) (messages : List Bytes) :
    updatePatStatus statusFlag (s.message :: messages) = .ok s.status := by
  rw [updatePatStatus, getPatStatus_cons, ok_bind]
  rfl

/-! ## The main loop -/

/-- Where the command handler is: it polls up to ten times when it starts, and then once in each
iteration. -/
inductive Place
  | startup (i : ℕ)
  | loop
  | iteration
deriving DecidableEq, Repr

/-- The statuses that came and that the command handler has not read, and its `pat_status_flag`. All
statuses that came are recorded, also as they were at the last poll, and what that poll found. -/
structure CommandHandler where
  place : Place := .startup 0
  unread : List Status := []
  patStatusFlag : ℤ := -1
  delivered : List Status := []
  before : List Status := []
  found : List Status := []

/-- A status comes. The command handler polls, and tests the status for a command. -/
inductive Action
  | publish (status : Status)
  | poll
  | test

/-- An iteration may take as long as it likes, with any number of tests. -/
def step (s : CommandHandler) : Action → Option CommandHandler
  | .publish status => some { s with
      unread := s.unread ++ [status]
      delivered := s.delivered ++ [status] }
  | .poll =>
    match s.place with
    | .startup i => do
      let (patReceivedStatus, patStatusFlag, _) ←
        (getPatStatus (s.unread.map Status.message)).toOption
      some { s with
        place := if patReceivedStatus ∨ i + 1 = 10 then .loop else .startup (i + 1)
        unread := s.unread.tail
        patStatusFlag }
    | _ => do
      let patStatusFlag ← (updatePatStatus s.patStatusFlag (s.unread.map Status.message)).toOption
      some { s with
        place := .iteration
        unread := s.unread.tail
        patStatusFlag
        before := s.delivered
        found := s.unread }
  | .test => if s.place = .iteration then some s else none

/-- `pat_status_flag` is the newest status that came before the poll of the iteration. -/
def Current (s : CommandHandler) : Action → Prop
  | .test => ∀ status ∈ s.before.getLast?, s.patStatusFlag = status.status
  | _ => True

/-- The poll of the iteration found no status, or the oldest one that it found is equal to the
newest one. -/
def Caught (s : CommandHandler) : Action → Prop
  | .test => ∀ oldest ∈ s.found.head?, ∀ newest ∈ s.found.getLast?, oldest.status = newest.status
  | _ => True

/-! ## What the steps keep -/

/-- Statuses are read in order, and the flag is the newest status when none is unread. -/
structure CommandHandler.Sound (s : CommandHandler) : Prop where
  suffix : s.unread <:+ s.delivered
  newest : s.unread = [] → ∀ status ∈ s.delivered.getLast?, s.patStatusFlag = status.status
  startup : ∀ i, s.place = .startup i → s.unread = s.delivered
  polledSuffix : s.found <:+ s.before
  polledNone : s.place = .iteration → s.found = [] →
    ∀ status ∈ s.before.getLast?, s.patStatusFlag = status.status
  polledOldest : s.place = .iteration → ∀ oldest ∈ s.found.head?, s.patStatusFlag = oldest.status

variable {s s' : CommandHandler} {action : Action} {actions : List Action}

theorem getLast?_of_suffix {α : Type} {xs ys : List α} (h : xs <:+ ys) (hne : xs ≠ []) :
    ys.getLast? = xs.getLast? := by
  obtain ⟨pre, rfl⟩ := h
  obtain ⟨x, hx⟩ := Option.isSome_iff_exists.mp (List.getLast?_isSome.mpr hne)
  rw [List.getLast?_append, hx]
  rfl

/-- When one status is unread, it is the newest one. -/
theorem CommandHandler.Sound.last (hsound : s.Sound) {status : Status}
    (hunread : s.unread = [status]) :
    s.delivered.getLast? = some status := by
  have hlast := getLast?_of_suffix hsound.suffix (by simp [hunread])
  rw [hlast, hunread]
  rfl

theorem CommandHandler.Sound.publish (hsound : s.Sound) (status : Status) :
    { s with unread := s.unread ++ [status], delivered := s.delivered ++ [status] }.Sound where
  suffix := by
    obtain ⟨pre, hpre⟩ := hsound.suffix
    refine ⟨pre, ?_⟩
    rw [← List.append_assoc, hpre]
  newest hnil := absurd hnil (by simp)
  startup i hi := by rw [hsound.startup i hi]
  polledSuffix := hsound.polledSuffix
  polledNone := hsound.polledNone
  polledOldest := hsound.polledOldest

/-- One status is read. -/
theorem CommandHandler.Sound.read (hsound : s.Sound) {status : Status} {rest : List Status}
    (hunread : s.unread = status :: rest) :
    rest <:+ s.delivered ∧ (rest = [] → ∀ last ∈ s.delivered.getLast?,
      (status.status : ℤ) = last.status) := by
  constructor
  · apply List.IsSuffix.trans _ hsound.suffix
    rw [hunread]
    exact List.suffix_cons status rest
  · intro hrest last hlast
    subst hrest
    rw [hsound.last hunread] at hlast
    rw [Option.some.inj hlast]

/-- The flag behind a poll. -/
def polledFlag (patStatusFlag : ℤ) : List Status → ℤ
  | [] => patStatusFlag
  | status :: _ => status.status

theorem step_poll_startup {i : ℕ} (hplace : s.place = .startup i) : step s .poll = some { s with
    place := if s.unread ≠ [] ∨ i + 1 = 10 then .loop else .startup (i + 1)
    unread := s.unread.tail
    patStatusFlag := polledFlag (-1) s.unread } := by
  cases hunread : s.unread with
  | nil => simp [step, hplace, hunread, getPatStatus, polledFlag, Except.toOption]
  | cons status rest =>
    simp [step, hplace, hunread, getPatStatus_cons, polledFlag, Except.toOption]

theorem step_poll (hplace : ∀ i, s.place ≠ .startup i) : step s .poll = some { s with
    place := .iteration
    unread := s.unread.tail
    patStatusFlag := polledFlag s.patStatusFlag s.unread
    before := s.delivered
    found := s.unread } := by
  have hupdate : updatePatStatus s.patStatusFlag (s.unread.map Status.message) =
      .ok (polledFlag s.patStatusFlag s.unread) := by
    cases s.unread with
    | nil => rfl
    | cons status rest => exact updatePatStatus_cons _ status _
  cases h : s.place with
  | startup i => exact absurd h (hplace i)
  | loop => simp [step, h, hupdate, Except.toOption]
  | iteration => simp [step, h, hupdate, Except.toOption]

/-- A poll reads the oldest unread status. -/
theorem CommandHandler.Sound.poll (hsound : s.Sound) {patStatusFlag : ℤ}
    (hnone : s.unread = [] → ∀ status ∈ s.delivered.getLast?, patStatusFlag = status.status) :
    s.unread.tail <:+ s.delivered ∧ (s.unread.tail = [] →
      ∀ status ∈ s.delivered.getLast?, polledFlag patStatusFlag s.unread = status.status) := by
  cases hunread : s.unread with
  | nil => exact ⟨List.nil_suffix, fun _ => hnone hunread⟩
  | cons status rest => exact hsound.read hunread

theorem CommandHandler.Sound.pollStartup (hsound : s.Sound) {i : ℕ}
    (hplace : s.place = .startup i) :
    { s with
      place := if s.unread ≠ [] ∨ i + 1 = 10 then .loop else .startup (i + 1)
      unread := s.unread.tail
      patStatusFlag := polledFlag (-1) s.unread }.Sound := by
  have hall := hsound.startup i hplace
  have hnone : s.unread = [] → ∀ status ∈ s.delivered.getLast?, (-1 : ℤ) = status.status := by
    intro hnil status hstatus
    rw [← hall, hnil] at hstatus
    exact absurd hstatus (by simp)
  have hpoll := hsound.poll hnone
  refine { suffix := hpoll.1, newest := hpoll.2, startup := ?_, polledSuffix := hsound.polledSuffix,
           polledNone := ?_, polledOldest := ?_ }
  · intro j hj
    have hnil : s.unread = [] := by
      by_contra hne
      simp [hne] at hj
    rw [← hall]
    show s.unread.tail = s.unread
    rw [hnil]
    rfl
  all_goals
    intro hiteration
    simp only at hiteration
    split at hiteration <;> exact absurd hiteration Place.noConfusion

theorem CommandHandler.Sound.pollLoop (hsound : s.Sound) :
    { s with
      place := .iteration
      unread := s.unread.tail
      patStatusFlag := polledFlag s.patStatusFlag s.unread
      before := s.delivered
      found := s.unread }.Sound := by
  have hpoll := hsound.poll hsound.newest
  refine { suffix := hpoll.1, newest := hpoll.2, startup := fun i hi => absurd hi Place.noConfusion,
           polledSuffix := hsound.suffix, polledNone := fun _ hfound => ?_,
           polledOldest := fun _ oldest holdest => ?_ }
  · apply hpoll.2
    rw [show s.unread = [] from hfound]
    rfl
  · obtain ⟨rest, hunread⟩ := List.head?_eq_some_iff.mp holdest
    show polledFlag s.patStatusFlag s.unread = _
    rw [show s.unread = oldest :: rest from hunread]
    rfl

theorem sound_step (hsound : s.Sound) (hstep : step s action = some s') : s'.Sound := by
  cases action with
  | publish status =>
    rw [← Option.some.inj hstep]
    exact hsound.publish status
  | test =>
    obtain ⟨-, hstep⟩ := Option.ite_none_right_eq_some.mp hstep
    rw [← Option.some.inj hstep]
    exact hsound
  | poll =>
    by_cases hplace : ∃ i, s.place = .startup i
    · obtain ⟨i, hplace⟩ := hplace
      rw [step_poll_startup hplace] at hstep
      rw [← Option.some.inj hstep]
      exact hsound.pollStartup hplace
    · rw [step_poll (not_exists.mp hplace)] at hstep
      rw [← Option.some.inj hstep]
      exact hsound.pollLoop

/-- A test uses the newest status when the poll found at most that one. -/
theorem current_iff_caught (hsound : s.Sound) (hstep : step s action = some s') :
    Current s action ↔ Caught s action := by
  cases action with
  | publish status => exact Iff.rfl
  | poll => exact Iff.rfl
  | test =>
    obtain ⟨hplace, -⟩ := Option.ite_none_right_eq_some.mp hstep
    rcases hfound : s.found with _ | ⟨oldest, rest⟩
    · refine iff_of_true (hsound.polledNone hplace hfound) ?_
      intro oldest holdest
      rw [hfound] at holdest
      exact absurd holdest (by simp)
    · have hlast := getLast?_of_suffix hsound.polledSuffix (by simp [hfound])
      have hflag := hsound.polledOldest hplace oldest (by simp [hfound])
      have hhead : s.found.head? = some oldest := by rw [hfound]; rfl
      show (∀ status ∈ s.before.getLast?, s.patStatusFlag = status.status) ↔
        ∀ first ∈ s.found.head?, ∀ newest ∈ s.found.getLast?, first.status = newest.status
      rw [hlast, hflag, hhead]
      simp

theorem sound_empty : CommandHandler.Sound {} where
  suffix := List.suffix_rfl
  newest _ _ hstatus := absurd hstatus (by simp)
  startup _ _ := rfl
  polledSuffix := List.suffix_rfl
  polledNone hplace := absurd hplace Place.noConfusion
  polledOldest hplace := absurd hplace Place.noConfusion

/-- In each run, each command is tested against the newest status that came before the poll of its
iteration, if and only if each such poll found no status, or the oldest one that it found is equal
to the newest one. -/
theorem current_iff (hrun : (run step {} actions).isSome) :
    Along step Current {} actions ↔ Along step Caught {} actions := by
  have hagree : ∀ s a s', CommandHandler.Sound s → step s a = some s' →
      (Current s a ↔ Caught s a) :=
    fun _ _ _ => current_iff_caught
  exact along_congr (fun _ _ _ => sound_step) hagree sound_empty hrun

/-- Statuses of one process. -/
def standbyStatus : Status := ⟨100, Options.patStatusStandby, by decide, by decide⟩

def mainStatus : Status := ⟨100, Options.patStatusMain, by decide, by decide⟩

/-- Two equal statuses came before the poll. -/
theorem current_iff_standby : Along step Current {}
      [.poll, .publish standbyStatus, .poll, .publish standbyStatus, .publish standbyStatus, .poll,
          .test,
        .poll, .test] ↔
    Along step Caught {}
      [.poll, .publish standbyStatus, .poll, .publish standbyStatus, .publish standbyStatus, .poll,
          .test,
        .poll, .test] :=
  current_iff (by rfl)

/-- PAT goes from standby to its main loop while the command handler is busy. The next iteration
reads the older status, and a command is tested against it. -/
theorem not_current_behind :
    (run step {}
      [.publish standbyStatus, .poll, .publish standbyStatus, .publish mainStatus, .poll,
          .test]).isSome ∧
    ¬ Along step Current {}
      [.publish standbyStatus, .poll, .publish standbyStatus, .publish mainStatus, .poll,
          .test] := by
  refine ⟨by rfl, fun halong => ?_⟩
  have hrun : run step {}
      [.publish standbyStatus, .poll, .publish standbyStatus, .publish mainStatus, .poll] = some
        { place := .iteration
          unread := [mainStatus]
          patStatusFlag := Options.patStatusStandby
          delivered := [standbyStatus, standbyStatus, mainStatus]
          before := [standbyStatus, standbyStatus, mainStatus]
          found := [standbyStatus, mainStatus] } := rfl
  have hsplit : Along step Current {} ([.publish standbyStatus, .poll, .publish standbyStatus,
      .publish mainStatus, .poll] ++ [.test]) := halong
  have htest := (hsplit.behind hrun).1
  exact absurd (htest mainStatus rfl) (by decide)

end ClickA.Handler
