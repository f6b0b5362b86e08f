import Mathlib.Algebra.Order.Ring.Int
import Mathlib.Data.List.Basic

/-!
# Requests to the camera

`camera.cpp` asks mvIMPACT's driver for a frame and waits for one. The driver is a parameter, of
which its documentation says that it works on the requests in their order, so that a request whose
wait timed out stays in its queue, and the next wait ends with its frame, which was exposed with
older settings. Before an acquisition, `ignoreNextFrames` takes as many frames as `queuedCount` says
from the queue; a frame that is not good it counts twice.

## Main definitions

* `FunctionInterface`, `FunctionInterface.InOrder`: the driver, and what is documented of it
* `State`: the settings, the driver, and the count of its requests
* `requestFrame`, `waitForFrame`, `unlockRequest`, `ignoreNextFrames`, `takeFrame`: the operations
* `Event`, `run`: the uses of the camera
* `spoiled`, `timeouts`: the frames counted twice, and the waits that timed out

## Main results

* `sound_run`: what every run keeps
* `length_queue_takes`: how many requests a run of frames leaves behind
* `taken_number`: how old a frame is
-/

namespace ClickA.Camera

/-! ## The driver -/

/-- A request to the driver: the settings it is made with, and how many the driver had accepted
before, which tells requests apart. -/
structure Request (σ : Type) where
  number : ℕ
  settings : σ
deriving DecidableEq

/-- What `getRequest` returns: the request that the frame answers, and `isOK`. -/
structure Frame (σ : Type) where
  request : Request σ
  isOK : Bool

/-- mvIMPACT's `FunctionInterface`, on the states of the driver. A state has what the camera will
deliver, and when. -/
structure FunctionInterface (σ δ : Type) where
  imageRequestSingle : Request σ → δ → ℤ × δ
  /-- The wait of `CAMERA_MAX_WAIT`. -/
  imageRequestWaitFor : δ → ℤ × δ
  isRequestNrValid : δ → ℤ → Bool
  getRequest : δ → ℤ → Frame σ
  imageRequestUnlock : ℤ → δ → δ

def dmrNoError : ℤ := 0

variable {σ δ : Type} (fi : FunctionInterface σ δ) (queue : δ → List (Request σ))

/-- **The driver answers its requests in their order**: one that is accepted is queued behind the
others, a wait that ends with a valid number ends with the first, and no other operation changes the
queue. A number stays valid when its request is unlocked. -/
structure FunctionInterface.InOrder : Prop where
  accepted (r : Request σ) (s : δ) : (fi.imageRequestSingle r s).1 = dmrNoError →
    queue (fi.imageRequestSingle r s).2 = queue s ++ [r]
  refused (r : Request σ) (s : δ) : (fi.imageRequestSingle r s).1 ≠ dmrNoError →
    queue (fi.imageRequestSingle r s).2 = queue s
  answered {s s' : δ} {nr : ℤ} : fi.imageRequestWaitFor s = (nr, s') →
    fi.isRequestNrValid s' nr = true → queue s = (fi.getRequest s' nr).request :: queue s'
  unanswered {s s' : δ} {nr : ℤ} : fi.imageRequestWaitFor s = (nr, s') →
    fi.isRequestNrValid s' nr = false → queue s' = queue s
  unlocked (nr : ℤ) (s : δ) : queue (fi.imageRequestUnlock nr s) = queue s
  stays (nr : ℤ) (s : δ) : fi.isRequestNrValid s nr = true →
    fi.isRequestNrValid (fi.imageRequestUnlock nr s) nr = true

/-! ## The code -/

/-- The camera: its settings, the driver, how many requests that has accepted, `frameId` and
`queuedCount`. -/
structure State (σ δ : Type) where
  config : σ
  driver : δ
  requested : ℕ
  frameId : ℤ
  queuedCount : ℤ

/-- `Camera::initialize`, for a device that is found. It leaves `frameId` as it is. -/
def initializeCamera (config : σ) (driver : δ) (frameId : ℤ) : State σ δ :=
  ⟨config, driver, 0, frameId, 0⟩

/-- `requestFrame`: the driver accepts the request, or it does not. -/
def requestFrame (c : State σ δ) : State σ δ × Bool :=
  let (result, driver) := fi.imageRequestSingle ⟨c.requested, c.config⟩ c.driver
  if result = dmrNoError then
    ({ c with
      driver := driver
      requested := c.requested + 1
      queuedCount := c.queuedCount + 1 }, true)
  else ({ c with driver := driver }, false)

def unlockRequest (c : State σ δ) : State σ δ :=
  if fi.isRequestNrValid c.driver c.frameId then
    { c with
      driver := fi.imageRequestUnlock c.frameId c.driver
      queuedCount := c.queuedCount - 1 }
  else c

/-- `waitForFrame`: a frame that is not good is unlocked. -/
def waitForFrame (c : State σ δ) : State σ δ × Bool :=
  let (frameId, driver) := fi.imageRequestWaitFor c.driver
  let c := { c with driver := driver, frameId := frameId }
  if fi.isRequestNrValid c.driver c.frameId then
    if (fi.getRequest c.driver c.frameId).isOK then (c, true) else (unlockRequest fi c, false)
  else (c, false)

def ignoreNextFrames : ℕ → State σ δ → State σ δ
  | 0, c => c
  | n + 1, c => ignoreNextFrames n (unlockRequest fi (waitForFrame fi c).1)

/-- A frame is requested and waited for, whether or not the request is accepted, and `Image::Image`
copies it and unlocks its request. -/
def takeFrame (c : State σ δ) : State σ δ × Option (Request σ) :=
  match waitForFrame fi (requestFrame fi c).1 with
  | (c, true) => (unlockRequest fi c, some (fi.getRequest c.driver c.frameId).request)
  | (c, false) => (c, none)

/-! ## Runs -/

/-- The settings are written, a frame is taken, or the frames that were requested before are
ignored. -/
inductive Event (σ : Type)
  | configure (config : σ)
  | take
  | skip

def step (c : State σ δ) : Event σ → State σ δ
  | .configure config => { c with config := config }
  | .take => (takeFrame fi c).1
  | .skip => ignoreNextFrames fi c.queuedCount.toNat c

def run (c : State σ δ) (es : List (Event σ)) : State σ δ := es.foldl (step fi) c

/-- What a wait leaves in `frameId` and in the driver. -/
def waited (c : State σ δ) : State σ δ :=
  { c with
    driver := (fi.imageRequestWaitFor c.driver).2
    frameId := (fi.imageRequestWaitFor c.driver).1 }

/-- The next wait ends with a frame. -/
def Delivers (c : State σ δ) : Prop :=
  fi.isRequestNrValid (waited fi c).driver (waited fi c).frameId = true

/-- The frame that the next wait ends with is not good. -/
def Spoils (c : State σ δ) : Prop :=
  Delivers fi c ∧ (fi.getRequest (waited fi c).driver (waited fi c).frameId).isOK = false

instance (c : State σ δ) : Decidable (Delivers fi c) := inferInstanceAs (Decidable (_ = true))

instance (c : State σ δ) : Decidable (Spoils fi c) := inferInstanceAs (Decidable (_ ∧ _))

/-- How many of the frames that are ignored are not good. -/
def spoiledBy : ℕ → State σ δ → ℕ
  | 0, _ => 0
  | n + 1, c =>
    (if Spoils fi c then 1 else 0) + spoiledBy n (unlockRequest fi (waitForFrame fi c).1)

/-- How many of the frames that a run ignores are not good. -/
def spoiled : State σ δ → List (Event σ) → ℕ
  | _, [] => 0
  | c, .skip :: es => spoiledBy fi c.queuedCount.toNat c + spoiled (step fi c .skip) es
  | c, e :: es => spoiled (step fi c e) es

/-- How many waits for a frame of a run timed out. -/
def timeouts : State σ δ → List (Event σ) → ℕ
  | _, [] => 0
  | c, .take :: es =>
    (if Delivers fi (requestFrame fi c).1 then 0 else 1) + timeouts (step fi c .take) es
  | c, e :: es => timeouts (step fi c e) es

/-- The waits for the frames that are ignored all end with one. -/
def InTime : ℕ → State σ δ → Prop
  | 0, _ => True
  | n + 1, c => Delivers fi c ∧ InTime n (unlockRequest fi (waitForFrame fi c).1)

instance decidableInTime : (n : ℕ) → (c : State σ δ) → Decidable (InTime fi n c)
  | 0, _ => .isTrue trivial
  | n + 1, c =>
    have := decidableInTime n (unlockRequest fi (waitForFrame fi c).1)
    inferInstanceAs (Decidable (_ ∧ _))

/-- Frames are taken, with settings that may change, and every request is accepted. -/
def Takes : State σ δ → List (Event σ) → Prop
  | _, [] => True
  | c, .configure config :: es => Takes (step fi c (.configure config)) es
  | c, .take :: es => (requestFrame fi c).2 = true ∧ Takes (step fi c .take) es
  | _, .skip :: _ => False

instance decidableTakes : (c : State σ δ) → (es : List (Event σ)) → Decidable (Takes fi c es)
  | _, [] => .isTrue trivial
  | c, .configure config :: es => decidableTakes (step fi c (.configure config)) es
  | c, .take :: es =>
    have := decidableTakes (step fi c .take) es
    inferInstanceAs (Decidable (_ ∧ _))
  | _, .skip :: _ => .isFalse not_false

/-! ## What the operations do -/

/-- The queue has the last requests, in their order, and the count is its length, less the frames
that were counted twice. -/
structure Sound (c : State σ δ) (twice : ℕ) : Prop where
  numbered : ∃ first, c.requested = first + (queue c.driver).length ∧
    (queue c.driver).map Request.number = List.range' first (queue c.driver).length
  count : c.queuedCount + twice = (queue c.driver).length

variable {fi queue} {c c' : State σ δ} {r : Request σ} {twice again n : ℕ} {es : List (Event σ)}

theorem unlockRequest_of_valid (h : fi.isRequestNrValid c.driver c.frameId = true) :
    unlockRequest fi c = { c with
      driver := fi.imageRequestUnlock c.frameId c.driver
      queuedCount := c.queuedCount - 1 } :=
  if_pos h

theorem waitForFrame_of_not_delivers (h : ¬ Delivers fi c) :
    waitForFrame fi c = (waited fi c, false) :=
  if_neg h

theorem waitForFrame_of_spoils (h : Spoils fi c) :
    waitForFrame fi c = (unlockRequest fi (waited fi c), false) :=
  (if_pos h.1).trans (if_neg (Bool.not_eq_true _ ▸ h.2))

theorem waitForFrame_of_good (h : Delivers fi c) (hgood : ¬ Spoils fi c) :
    waitForFrame fi c = (waited fi c, true) :=
  (if_pos h).trans (if_pos ((Bool.not_eq_false _).mp fun hbad => hgood ⟨h, hbad⟩))

theorem requested_unlockRequest (c : State σ δ) :
    (unlockRequest fi c).requested = c.requested := by
  unfold unlockRequest
  split <;> rfl

/-- The first request leaves the queue, and is counted. -/
theorem Sound.tail (h : Sound queue c twice) (hqueue : queue c.driver = r :: queue c'.driver)
    (hrequested : c'.requested = c.requested)
    (hcount : c'.queuedCount + 1 + again = c.queuedCount) : Sound queue c' (twice + again) := by
  obtain ⟨⟨first, hfirst, hnumbers⟩, hlen⟩ := h
  rw [hqueue, List.length_cons] at hfirst hlen
  rw [hqueue, List.map_cons, List.length_cons, List.range'_succ] at hnumbers
  refine ⟨⟨first + 1, by omega, (List.cons.inj hnumbers).2⟩, ?_⟩
  push_cast at hlen ⊢
  omega

theorem Sound.of_eq (h : Sound queue c twice) (hqueue : queue c'.driver = queue c.driver)
    (hrequested : c'.requested = c.requested) (hcount : c'.queuedCount = c.queuedCount) :
    Sound queue c' twice := by
  obtain ⟨hnumbered, hlen⟩ := h
  rw [← hqueue, ← hrequested] at hnumbered
  exact ⟨hnumbered, by rw [hcount, hlen, hqueue]⟩

section InOrder

variable (hfi : fi.InOrder queue)
include hfi

theorem queue_requestFrame_of_accepted (h : (requestFrame fi c).2 = true) :
    queue (requestFrame fi c).1.driver = queue c.driver ++ [⟨c.requested, c.config⟩] ∧
      (requestFrame fi c).1.requested = c.requested + 1 ∧
      (requestFrame fi c).1.queuedCount = c.queuedCount + 1 := by
  unfold requestFrame at h ⊢
  by_cases hresult : (fi.imageRequestSingle ⟨c.requested, c.config⟩ c.driver).1 = dmrNoError
  · simp only [if_pos hresult]
    exact ⟨hfi.accepted _ _ hresult, trivial, trivial⟩
  · simp only [if_neg hresult] at h
    exact absurd h Bool.false_ne_true

theorem queue_requestFrame_of_refused (h : (requestFrame fi c).2 = false) :
    queue (requestFrame fi c).1.driver = queue c.driver ∧
      (requestFrame fi c).1.requested = c.requested ∧
      (requestFrame fi c).1.queuedCount = c.queuedCount := by
  unfold requestFrame at h ⊢
  by_cases hresult : (fi.imageRequestSingle ⟨c.requested, c.config⟩ c.driver).1 = dmrNoError
  · simp only [if_pos hresult] at h
    exact absurd h.symm Bool.false_ne_true
  · simp only [if_neg hresult]
    exact ⟨hfi.refused _ _ hresult, trivial, trivial⟩

theorem queue_waited_of_delivers (h : Delivers fi c) :
    queue c.driver = (fi.getRequest (waited fi c).driver (waited fi c).frameId).request ::
      queue (waited fi c).driver :=
  hfi.answered rfl h

theorem queue_waited_of_not_delivers (h : ¬ Delivers fi c) :
    queue (waited fi c).driver = queue c.driver :=
  hfi.unanswered rfl ((Bool.not_eq_true _).mp h)

theorem queue_unlockRequest (c : State σ δ) :
    queue (unlockRequest fi c).driver = queue c.driver := by
  unfold unlockRequest
  split
  · exact hfi.unlocked _ _
  · rfl

/-- Unlocking a frame that is not good leaves the queue as the wait did. -/
theorem queue_waitForFrame (c : State σ δ) :
    queue (waitForFrame fi c).1.driver = queue (waited fi c).driver := by
  by_cases hdelivers : Delivers fi c
  · by_cases hspoils : Spoils fi c
    · rw [waitForFrame_of_spoils hspoils, queue_unlockRequest hfi]
    · rw [waitForFrame_of_good hdelivers hspoils]
  · rw [waitForFrame_of_not_delivers hdelivers]

theorem queue_takeFrame (c : State σ δ) :
    queue (takeFrame fi c).1.driver = queue (waited fi (requestFrame fi c).1).driver := by
  rw [← queue_waitForFrame hfi, takeFrame]
  rcases waitForFrame fi (requestFrame fi c).1 with ⟨c', - | -⟩
  · rfl
  · exact queue_unlockRequest hfi c'

/-- A frame that is not good is unlocked twice. -/
theorem unlockRequest_unlockRequest (h : fi.isRequestNrValid c.driver c.frameId = true) :
    (unlockRequest fi (unlockRequest fi c)).queuedCount = c.queuedCount - 1 - 1 := by
  rw [unlockRequest_of_valid h]
  exact congrArg State.queuedCount
    (unlockRequest_of_valid (c := { c with driver := _, queuedCount := _ }) (hfi.stays _ _ h))

theorem sound_requestFrame (h : Sound queue c twice) :
    Sound queue (requestFrame fi c).1 twice := by
  cases hresult : (requestFrame fi c).2 with
  | false =>
    obtain ⟨hqueue, hrequested, hcount⟩ := queue_requestFrame_of_refused hfi hresult
    exact h.of_eq hqueue hrequested hcount
  | true =>
    obtain ⟨hqueue, hrequested, hcount⟩ := queue_requestFrame_of_accepted hfi hresult
    obtain ⟨⟨first, hfirst, hnumbers⟩, hlen⟩ := h
    refine ⟨⟨first, ?_, ?_⟩, ?_⟩
    · rw [hqueue, hrequested, List.length_append, List.length_singleton, hfirst, Nat.add_assoc]
    · rw [hqueue, List.map_append, hnumbers, List.length_append, List.length_singleton,
        List.range'_concat]
      simp [hfirst]
    · rw [hqueue, hcount, List.length_append, List.length_singleton]
      push_cast
      omega

/-- **A frame that is taken is counted once**, good or not. -/
theorem sound_takeFrame (h : Sound queue c twice) : Sound queue (takeFrame fi c).1 twice := by
  have hrequest := sound_requestFrame hfi h
  unfold takeFrame
  generalize (requestFrame fi c).1 = c at hrequest ⊢
  by_cases hdelivers : Delivers fi c
  · have hfirst := queue_waited_of_delivers hfi hdelivers
    rw [← queue_unlockRequest hfi (waited fi c)] at hfirst
    have hsound : Sound queue (unlockRequest fi (waited fi c)) (twice + 0) := by
      refine hrequest.tail hfirst (requested_unlockRequest (waited fi c)) ?_
      rw [unlockRequest_of_valid hdelivers]
      simp [waited]
    by_cases hspoils : Spoils fi c
    · rwa [waitForFrame_of_spoils hspoils]
    · rwa [waitForFrame_of_good hdelivers hspoils]
  · rw [waitForFrame_of_not_delivers hdelivers]
    exact hrequest.of_eq (queue_waited_of_not_delivers hfi hdelivers) rfl rfl

/-- **A frame that is ignored is counted once, and twice if it is not good.** -/
theorem sound_unlockRequest_waitForFrame (h : Sound queue c twice) :
    Sound queue (unlockRequest fi (waitForFrame fi c).1)
      (twice + if Spoils fi c then 1 else 0) := by
  by_cases hdelivers : Delivers fi c
  · have hfirst := queue_waited_of_delivers hfi hdelivers
    rw [← queue_unlockRequest hfi (waited fi c)] at hfirst
    by_cases hspoils : Spoils fi c
    · rw [waitForFrame_of_spoils hspoils, if_pos hspoils]
      rw [← queue_unlockRequest hfi (unlockRequest fi _)] at hfirst
      refine h.tail hfirst ?_ ?_
      · rw [requested_unlockRequest, requested_unlockRequest]
        rfl
      · rw [unlockRequest_unlockRequest hfi hdelivers]
        simp [waited]
    · rw [waitForFrame_of_good hdelivers hspoils, if_neg hspoils]
      refine h.tail hfirst (requested_unlockRequest _) ?_
      rw [unlockRequest_of_valid hdelivers]
      simp [waited]
  · rw [waitForFrame_of_not_delivers hdelivers, if_neg fun hspoils => hdelivers hspoils.1]
    have hsame : unlockRequest fi (waited fi c) = waited fi c := if_neg hdelivers
    rw [hsame]
    exact h.of_eq (queue_waited_of_not_delivers hfi hdelivers) rfl rfl

/-- **Of the frames that are ignored, those that are not good are counted twice.** -/
theorem sound_ignoreNextFrames (h : Sound queue c twice) (n : ℕ) :
    Sound queue (ignoreNextFrames fi n c) (twice + spoiledBy fi n c) := by
  induction n generalizing c twice with
  | zero => exact h
  | succ n ih =>
    have hrest := ih (sound_unlockRequest_waitForFrame hfi h)
    rwa [Nat.add_assoc] at hrest

/-- **In every run, the queue has the last requests, and the count is its length, less the frames
that were not good when they were ignored.** -/
theorem sound_run (h : Sound queue c twice) (es : List (Event σ)) :
    Sound queue (run fi c es) (twice + spoiled fi c es) := by
  induction es generalizing c twice with
  | nil => exact h
  | cons e es ih =>
    cases e with
    | configure config => exact ih (c := { c with config := config }) ⟨h.numbered, h.count⟩
    | take => exact ih (sound_takeFrame hfi h)
    | skip =>
      have hrest := ih (sound_ignoreNextFrames hfi h c.queuedCount.toNat)
      rwa [Nat.add_assoc] at hrest

/-! ## The age of a frame -/

/-- Where no wait times out, as many frames are ignored as there are. -/
theorem queue_ignoreNextFrames (h : InTime fi n c) :
    queue (ignoreNextFrames fi n c).driver = (queue c.driver).drop n := by
  induction n generalizing c with
  | zero => rfl
  | succ n ih =>
    obtain ⟨hdelivers, hrest⟩ := h
    rw [ignoreNextFrames, ih hrest, queue_waited_of_delivers hfi hdelivers, List.drop_succ_cons,
      queue_unlockRequest hfi, queue_waitForFrame hfi]

/-- A wait that times out leaves its request behind. -/
theorem length_queue_takeFrame (haccepted : (requestFrame fi c).2 = true) :
    (queue (takeFrame fi c).1.driver).length =
      (queue c.driver).length + if Delivers fi (requestFrame fi c).1 then 0 else 1 := by
  have hlen : (queue (requestFrame fi c).1.driver).length = (queue c.driver).length + 1 := by
    rw [(queue_requestFrame_of_accepted hfi haccepted).1, List.length_append,
      List.length_singleton]
  rw [queue_takeFrame hfi]
  by_cases hdelivers : Delivers fi (requestFrame fi c).1
  · rw [queue_waited_of_delivers hfi hdelivers, List.length_cons] at hlen
    rw [if_pos hdelivers]
    exact Nat.succ.inj hlen
  · rw [queue_waited_of_not_delivers hfi hdelivers, if_neg hdelivers, hlen]

/-- **Each wait that times out leaves one request behind, until frames are ignored.** -/
theorem length_queue_takes (hes : Takes fi c es) :
    (queue (run fi c es).driver).length = (queue c.driver).length + timeouts fi c es := by
  induction es generalizing c with
  | nil => rfl
  | cons e es ih =>
    cases e with
    | configure config => exact ih hes
    | take =>
      have hrest := ih hes.2
      rw [step, length_queue_takeFrame hfi hes.1, Nat.add_assoc] at hrest
      exact hrest
    | skip => exact hes.elim

/-- A frame is as many requests old as there were in the queue. -/
theorem taken_of_sound (h : Sound queue c twice) (haccepted : (requestFrame fi c).2 = true)
    (htaken : (takeFrame fi c).2 = some r) : r.number + (queue c.driver).length = c.requested ∧
      (r = ⟨c.requested, c.config⟩ ↔ (queue c.driver).length = 0) := by
  obtain ⟨⟨first, hrequested, hnumbers⟩, -⟩ := h
  have hqueue := (queue_requestFrame_of_accepted hfi haccepted).1
  have hfirst : ∃ rest, queue (requestFrame fi c).1.driver = r :: rest := by
    unfold takeFrame at htaken
    by_cases hdelivers : Delivers fi (requestFrame fi c).1
    · by_cases hspoils : Spoils fi (requestFrame fi c).1
      · rw [waitForFrame_of_spoils hspoils] at htaken
        exact absurd htaken (Option.some_ne_none _).symm
      · rw [waitForFrame_of_good hdelivers hspoils] at htaken
        obtain rfl := Option.some.inj htaken
        exact ⟨_, queue_waited_of_delivers hfi hdelivers⟩
    · rw [waitForFrame_of_not_delivers hdelivers] at htaken
      exact absurd htaken (Option.some_ne_none _).symm
  obtain ⟨rest, hfirst⟩ := hfirst
  rw [hqueue] at hfirst
  cases hold : queue c.driver with
  | nil =>
    rw [hold, List.nil_append] at hfirst
    obtain rfl := (List.cons.inj hfirst).1
    exact ⟨Nat.add_zero _, by simp⟩
  | cons old olds =>
    rw [hold, List.cons_append] at hfirst
    obtain rfl := (List.cons.inj hfirst).1
    rw [hold, List.map_cons, List.length_cons, List.range'_succ] at hnumbers
    rw [hold, List.length_cons] at hrequested
    have hnumber : old.number = first := (List.cons.inj hnumbers).1
    refine ⟨by rw [hnumber, List.length_cons, hrequested], ?_⟩
    constructor
    · intro heq
      have hnew : old.number = c.requested := congrArg Request.number heq
      omega
    · intro hzero
      exact absurd hzero (Nat.succ_ne_zero _)

/-- The requests that are left when frames were ignored. -/
theorem length_queue_skip (h : Sound queue c twice) (hintime : InTime fi c.queuedCount.toNat c) :
    (queue (step fi c .skip).driver).length = min (queue c.driver).length twice := by
  have hcount := h.count
  rw [step, queue_ignoreNextFrames hfi hintime, List.length_drop]
  omega

end InOrder

theorem sound_initializeCamera (config : σ) (frameId : ℤ) {driver : δ}
    (hdriver : queue driver = []) : Sound queue (initializeCamera config driver frameId) 0 := by
  refine ⟨⟨0, ?_⟩, ?_⟩ <;> simp [initializeCamera, hdriver]

/-- **With a driver that answers its requests in their order, in every run, behind frames that were
ignored in time, a frame that is taken is as many requests old as there were waits that timed out
since, and frames that were not good when they were ignored before, unless the queue was shorter. It
is the one that was requested, with the settings of that time, if and only if no wait has timed out
since, and the queue had been empty or no frame not good.** -/
theorem taken_number (hfi : fi.InOrder queue) (config : σ) (frameId : ℤ) {driver : δ}
    (hdriver : queue driver = []) (es₁ es₂ : List (Event σ)) {c₁ c₂ : State σ δ}
    (hrun₁ : run fi (initializeCamera config driver frameId) es₁ = c₁)
    (hintime : InTime fi c₁.queuedCount.toNat c₁) (hes₂ : Takes fi (step fi c₁ .skip) es₂)
    (hrun₂ : run fi c₁ (.skip :: es₂) = c₂) (haccepted : (requestFrame fi c₂).2 = true)
    (htaken : (takeFrame fi c₂).2 = some r) {twice late : ℕ}
    (htwice : spoiled fi (initializeCamera config driver frameId) es₁ = twice)
    (hlate : timeouts fi (step fi c₁ .skip) es₂ = late) :
    r.number + (min (queue c₁.driver).length twice + late) = c₂.requested ∧
      (r = ⟨c₂.requested, c₂.config⟩ ↔ late = 0 ∧ (queue c₁.driver = [] ∨ twice = 0)) := by
  have hsound₁ := sound_run hfi (sound_initializeCamera config frameId hdriver) es₁
  rw [hrun₁, htwice, Nat.zero_add] at hsound₁
  have hsound₂ := sound_run hfi hsound₁ (.skip :: es₂)
  rw [hrun₂] at hsound₂
  have hlen : (queue c₂.driver).length = min (queue c₁.driver).length twice + late := by
    rw [← length_queue_skip hfi hsound₁ hintime, ← hlate, ← length_queue_takes hfi hes₂, ← hrun₂]
    rfl
  obtain ⟨hnumber, hown⟩ := taken_of_sound hfi hsound₂ haccepted htaken
  rw [hlen] at hnumber hown
  refine ⟨hnumber, hown.trans ?_⟩
  rw [← List.length_eq_zero_iff]
  omega

/-- A driver of three request objects, which take turns, and of which the waits end as they are
listed, with a frame that is good or not or with an error. -/
structure Device (σ : Type) where
  queue : List (Request σ)
  objects : ℤ → Frame σ
  waits : List (Option Bool)

def device : FunctionInterface σ (Device σ) where
  imageRequestSingle r s :=
    if s.queue.length < 3 then (dmrNoError, { s with queue := s.queue ++ [r] }) else (-2108, s)
  imageRequestWaitFor s :=
    match s.waits, s.queue with
    | some ok :: waits, r :: rest =>
      ((r.number % 3 : ℕ), ⟨rest, Function.update s.objects (r.number % 3 : ℕ) ⟨r, ok⟩, waits⟩)
    | _, _ => (-2109, { s with waits := s.waits.tail })
  isRequestNrValid _ nr := 0 ≤ nr ∧ nr < 3
  getRequest s nr := s.objects nr
  imageRequestUnlock _ s := s

theorem device_inOrder : (device (σ := σ)).InOrder Device.queue where
  accepted r s h := by
    simp only [device] at h ⊢
    split at h
    · rw [if_pos ‹_›]
    · exact absurd h (show ¬ (-2108 : ℤ) = dmrNoError by decide)
  refused r s h := by
    simp only [device] at h ⊢
    split at h
    · exact absurd rfl h
    · rw [if_neg ‹_›]
  answered := by
    rintro ⟨queue, objects, waits⟩ s' nr h hvalid
    obtain ⟨rfl, rfl⟩ := Prod.mk.inj h
    rcases waits with - | ⟨- | ok, waits⟩ <;> rcases queue with - | ⟨r, rest⟩ <;>
      simp_all [device]
  unanswered := by
    rintro ⟨queue, objects, waits⟩ s' nr h hvalid
    obtain ⟨rfl, rfl⟩ := Prod.mk.inj h
    rcases waits with - | ⟨- | ok, waits⟩ <;> rcases queue with - | ⟨r, rest⟩ <;>
      simp_all [device]
    omega
  unlocked _ _ := rfl
  stays _ _ h := h

/-- Three waits time out, the request behind them is refused, and of the two frames that are then
ignored one is not good. Two more waits time out, and one of their frames is ignored. A wait for a
frame of the beacon times out, and the frame of the calibration laser that is taken next is the
other one of before. -/
theorem taken_number_late :
    let c₁ := run device (initializeCamera 100 ⟨[], fun _ => ⟨⟨0, 0⟩, false⟩,
        [none, none, none, some true, some false, some true, none, none, some true, none,
          some true]⟩ 7)
      [.take, .take, .take, .take, .skip, .take, .take]
    let c₂ := run device c₁ [.skip, .take, .configure 50]
    (takeFrame device c₂).2 = some ⟨4, 100⟩ ∧
      4 + (min c₁.driver.queue.length 1 + 1) = c₂.requested ∧
      ((⟨4, 100⟩ : Request ℕ) = ⟨c₂.requested, c₂.config⟩ ↔
        1 = 0 ∧ (c₁.driver.queue = [] ∨ 1 = 0)) := by
  intro c₁ c₂
  have htaken : (takeFrame device c₂).2 = some ⟨4, 100⟩ := by decide +kernel
  exact ⟨htaken, taken_number device_inOrder 100 7 rfl _ [.take, .configure 50] rfl
    (by decide +kernel) (by decide +kernel) rfl (by decide +kernel) htaken (by decide +kernel)
    (by decide +kernel)⟩

end ClickA.Camera
