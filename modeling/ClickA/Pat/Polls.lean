import ClickA.Pat.Steps
import ClickA.Python.Observe

/-!
# Polls of a session

In a session the process polls its control socket at the begin of each iteration, and twice in each
round of the search for the beacon. A step is observed at its polls.

## Main definitions

* `Poll`: a poll of a session, with the states before and after it
* `Observed.mainStep`: a step of a session, with its polls observed
* `polls`: the polls of a step

## Main results

* `erases_mainStep`: the process does not see the observations
* `polled_mainStep`, `polls_step`: all polls of a session are observed, with what holds of each of
  them
-/

namespace ClickA.Pat

open Python (Bytes Ensures Runs Erases Records observed unobserved erases_bind erases_ite
  erases_observed erases_pure erases_unobserved runs_bind runs_foldlM runs_ite runs_observed
  runs_pure runs_unobserved wp_bind wp_get wp_modify)

/-- A poll of the control socket in a session, and whether the search made it. -/
structure Poll where
  searching : Bool
  before : World
  after : World

/-! ## Observed steps -/

namespace Observed

variable (env : Env)

/-- `mainCommand`, whose poll is observed. -/
def mainCommand : Proc (World × List Poll) Bool :=
  observed (fun w w' => ⟨false, w, w'⟩) (Pat.mainCommand env)

/-- `receivedEnd`, whose poll is observed. -/
def receivedEnd : Proc (World × List Poll) Bool :=
  observed (fun w w' => ⟨true, w, w'⟩) (Pat.receivedEnd env)

/-- `search`, whose polls are observed. -/
def search (maxExposure : ℤ) (searchingUp searchingDown : Bool) (exposureUp exposureDown : ℤ) :
    Proc (World × List Poll) Bool :=
  if searchingUp || searchingDown then do
    if ← receivedEnd env then return false
    else if ← unobserved (tryExposure env (exposureUp ≤ maxExposure)) then return true
    else if ← receivedEnd env then return false
    else if ← unobserved (tryExposure env (trackMinExposure ≤ exposureDown)) then return true
    else
      search maxExposure (searchingUp && exposureUp ≤ maxExposure)
        (searchingDown && trackMinExposure ≤ exposureDown)
        (if exposureUp ≤ maxExposure then exposureUp + trackAcquisitionExpIncrement else exposureUp)
        (if trackMinExposure ≤ exposureDown then exposureDown - trackAcquisitionExpIncrement
          else exposureDown)
  else return false
termination_by searchBound maxExposure searchingUp searchingDown exposureUp exposureDown
decreasing_by exact searchBound_lt maxExposure exposureUp exposureDown ‹_›

/-- `runAcquisition`, whose polls are observed. -/
def runAcquisition : Proc (World × List Poll) Bool := do
  let w ← unobserved get
  unobserved (emit .camera)
  if ← unobserved (tune env) then return true
  else
    search env w.maxBcnExposure true true (trackGuessExposure + trackAcquisitionExpIncrement)
      (trackGuessExposure - trackAcquisitionExpIncrement)

/-- `acquisitionPhase`, whose polls are observed. -/
def acquisitionPhase : Proc (World × List Poll) Unit := do
  if ← unobserved (laser env) then
    if ← runAcquisition env then unobserved (acquired env)
    else unobserved (notAcquired env)
  else
    unobserved (modify fun w => { w with haveBeaconKnowledge := false, phase := .acquisition })

/-- `runPhase`, whose polls are observed. -/
def runPhase : Proc (World × List Poll) Unit := do
  let w ← unobserved get
  unobserved (emit (.phase w.phase))
  match w.phase with
  | .calibration => unobserved (calibrationPhase env)
  | .acquisition => acquisitionPhase env
  | .clInit => unobserved clInitPhase
  | .clBeacon => unobserved (clBeaconPhase env)
  | .clCalib => unobserved (clCalibPhase env)
  | .openLoop => unobserved (openLoopPhase env)
  | .staticPoint => unobserved (staticPointPhase env)

/-- `approach`, whose poll is observed. -/
def approach : Proc (World × List Poll) Bool := do
  if ← unobserved (ask env.stop) then
    unobserved (modify fun w => { w with operational := false })
    return true
  else if ← mainCommand env then return true
  else if ← unobserved acquisitionCommand then return true
  else
    unobserved (heartbeat env)
    unobserved (updateTxOffsets env)
    return false

/-- `mainIteration`, whose polls are observed. -/
def mainIteration : Proc (World × List Poll) Bool := do
  if ← approach env then return true
  else
    runPhase env
    let w ← unobserved get
    return !w.operational

/-- `mainStep`, whose polls are observed. -/
def mainStep : Proc (World × List Poll) Unit := do
  if ← mainIteration env then unobserved (leaveMain env)

end Observed

/-- The polls of a step, where it is one of a session. -/
def polls (env : Env) (n : ℕ) : List Poll :=
  if (state env n).place = .main then ((Observed.mainStep env).after (state env n, [])).2 else []

/-! ## Erasure -/

section Erases

variable (env : Env)

theorem erases_search (maxExposure : ℤ) (searchingUp searchingDown : Bool)
    (exposureUp exposureDown : ℤ) :
    Erases (Observed.search env maxExposure searchingUp searchingDown exposureUp exposureDown)
      (search env maxExposure searchingUp searchingDown exposureUp exposureDown) := by
  induction searchingUp, searchingDown, exposureUp, exposureDown using
      search.induct maxExposure with
  | case1 searchingUp searchingDown exposureUp exposureDown h ih =>
    rw [search, Observed.search, if_pos h, if_pos h]
    refine erases_bind (erases_observed _ _) fun ended => erases_ite (erases_pure _) ?_
    refine erases_bind (erases_unobserved _) fun tuned => erases_ite (erases_pure _) ?_
    refine erases_bind (erases_observed _ _) fun ended => erases_ite (erases_pure _) ?_
    exact erases_bind (erases_unobserved _) fun tuned => erases_ite (erases_pure _) ih
  | case2 searchingUp searchingDown exposureUp exposureDown h =>
    rw [search, Observed.search, if_neg h, if_neg h]
    exact erases_pure _

theorem erases_acquisitionPhase :
    Erases (Observed.acquisitionPhase env) (acquisitionPhase env) := by
  have hacquisition : Erases (Observed.runAcquisition env) (runAcquisition env) := by
    refine erases_bind (erases_unobserved _) fun w => ?_
    refine erases_bind (erases_unobserved _) fun _ =>
      erases_bind (erases_unobserved _) fun tuned => ?_
    exact erases_ite (erases_pure _) (erases_search env _ _ _ _ _)
  refine erases_bind (erases_unobserved _) fun lit => erases_ite ?_ (erases_unobserved _)
  refine erases_bind hacquisition fun found => ?_
  exact erases_ite (erases_unobserved _) (erases_unobserved _)

theorem erases_approach : Erases (Observed.approach env) (approach env) := by
  refine erases_bind (erases_unobserved _) fun stopped => erases_ite ?_ ?_
  · exact erases_bind (erases_unobserved _) fun _ => erases_pure _
  · refine erases_bind (erases_observed _ _) fun ended => erases_ite (erases_pure _) ?_
    refine erases_bind (erases_unobserved _) fun ended => erases_ite (erases_pure _) ?_
    refine erases_bind (erases_unobserved _) fun _ => erases_bind (erases_unobserved _) fun _ => ?_
    exact erases_pure _

/-- **The process does not see the observations.** -/
theorem erases_mainStep : Erases (Observed.mainStep env) (mainStep env) := by
  have hphase : Erases (Observed.runPhase env) (runPhase env) := by
    refine erases_bind (erases_unobserved _) fun w => erases_bind (erases_unobserved _) fun _ => ?_
    cases w.phase with
    | acquisition => exact erases_acquisitionPhase env
    | _ => exact erases_unobserved _
  unfold mainStep
  rw [mainIteration_eq]
  refine erases_bind ?_ fun ended => erases_ite (erases_unobserved _) (erases_pure _)
  refine erases_bind (erases_approach env) fun ended => erases_ite (erases_pure _) ?_
  exact erases_bind hphase fun _ => erases_bind (erases_unobserved _) fun w => erases_pure _

end Erases

/-! ## Statements that do not poll -/

/-- Two states between which the process has not polled. -/
def SamePolls (w w' : World) : Prop := w'.polls = w.polls

instance : Std.Refl SamePolls := ⟨fun _ => rfl⟩

instance : IsTrans World SamePolls := ⟨fun _ _ _ h h' => h'.trans h⟩

section SamePolls

variable {env : Env}

theorem samePolls_modify {f : World → World} (h : ∀ w, (f w).polls = w.polls) :
    Runs SamePolls (modify f : Proc World Unit) := fun w => h w

theorem samePolls_get : Runs SamePolls (get : Proc World World) := fun _ => rfl

theorem samePolls_ask {α : Type} (f : ℕ → α) : Runs SamePolls (ask f) := fun _ => rfl

theorem samePolls_emit (e : Event) : Runs SamePolls (emit e) := fun _ => rfl

theorem samePolls_laser : Runs SamePolls (laser env) := fun _ => rfl

theorem samePolls_requestFrame : Runs SamePolls (requestFrame env) :=
  runs_bind (samePolls_emit _) fun _ => samePolls_ask _

theorem samePolls_logImage : Runs SamePolls (logImage env) :=
  runs_bind samePolls_requestFrame fun _ => runs_pure _

theorem samePolls_lookFor (minBrightness : ℕ) (old : Group) :
    Runs SamePolls (lookFor env minBrightness old) :=
  runs_bind (samePolls_emit _) fun _ => runs_bind samePolls_requestFrame fun _ => runs_pure _

theorem samePolls_calibrationRun : Runs SamePolls (calibrationRun env) := by
  have hpoint (i : ℕ) : Runs SamePolls (calibrationPoint env i) := by
    refine runs_bind (samePolls_emit _) fun _ => runs_bind samePolls_requestFrame fun frame => ?_
    cases frame with
    | none => exact runs_pure _
    | some frame =>
      refine runs_ite ?_ (runs_pure _)
      dsimp only
      split
      · exact runs_bind (samePolls_modify fun _ => rfl) fun _ => runs_pure _
      · exact runs_pure _
  have hcalibrate : Runs SamePolls (calibrate env) := by
    refine runs_bind (samePolls_emit _) fun _ => ?_
    refine runs_bind (runs_bind (samePolls_emit _) fun _ => samePolls_ask _) fun found => ?_
    refine runs_ite ?_ (runs_pure _)
    refine runs_bind (samePolls_emit _) fun _ => ?_
    refine runs_bind (runs_foldlM (fun points i => ?_) _ _) fun points => ?_
    · exact runs_bind (hpoint i) fun spot => runs_pure _
    refine runs_bind (samePolls_emit _) fun _ => runs_bind (samePolls_emit _) fun _ => ?_
    exact runs_ite (runs_pure _) (runs_bind (samePolls_emit _) fun _ => runs_pure _)
  exact runs_bind hcalibrate fun success => runs_bind (samePolls_emit _) fun _ => runs_pure _

theorem samePolls_tune : Runs SamePolls (tune env) := by
  unfold tune
  refine runs_bind (samePolls_emit _) fun _ => runs_bind (samePolls_ask _) fun tuning => ?_
  cases tuning.spot with
  | none => exact runs_bind (runs_pure _) fun _ => runs_pure _
  | some spot => exact runs_bind (samePolls_modify fun _ => rfl) fun _ => runs_pure _

theorem samePolls_tryExposure (inRange : Bool) : Runs SamePolls (tryExposure env inRange) := by
  unfold tryExposure
  exact runs_ite (runs_bind (samePolls_emit _) fun _ => samePolls_tune) (runs_pure _)

theorem samePolls_loseBeacon : Runs SamePolls (loseBeacon env) := by
  refine runs_bind samePolls_get fun _ => runs_ite ?_ (runs_pure _)
  exact runs_bind (samePolls_ask _) fun _ => samePolls_modify fun _ => rfl

theorem samePolls_loseCalib : Runs SamePolls (loseCalib env) := by
  refine runs_bind samePolls_get fun _ => runs_ite ?_ (runs_pure _)
  exact runs_bind (samePolls_ask _) fun _ => samePolls_modify fun _ => rfl

theorem samePolls_checkBeaconLoss : Runs SamePolls (checkBeaconLoss env) := by
  refine runs_bind samePolls_get fun w => runs_ite ?_ (runs_pure _)
  refine runs_bind (samePolls_ask _) fun now => runs_bind samePolls_get fun w => ?_
  exact runs_ite (samePolls_modify fun _ => rfl) (runs_pure _)

theorem samePolls_sendFeedback : Runs SamePolls (sendFeedback env) := by
  refine runs_bind samePolls_get fun w => runs_ite ?_ (runs_pure _)
  refine runs_bind (samePolls_ask _) fun now => runs_bind samePolls_get fun w => ?_
  refine runs_ite ?_ (runs_pure _)
  refine runs_bind (samePolls_emit _) fun _ => runs_bind (samePolls_ask _) fun now => ?_
  exact samePolls_modify fun _ => rfl

theorem samePolls_dither {next : Proc World Unit} (hnext : Runs SamePolls next) :
    Runs SamePolls (dither env next) := by
  unfold dither
  refine runs_bind samePolls_get fun w => runs_ite ?_ (runs_pure _)
  refine runs_bind (samePolls_ask _) fun now => runs_bind samePolls_get fun w => ?_
  refine runs_ite ?_ (runs_pure _)
  have hlast : Runs SamePolls (do
      let now ← ask env.clock
      modify fun w => { w with ditherCount := w.ditherCount + 1, timePrevDither := now }) :=
    runs_bind (samePolls_ask _) fun now => samePolls_modify fun _ => rfl
  refine runs_ite (runs_bind (samePolls_modify fun _ => rfl) fun _ => hlast) ?_
  exact runs_bind (samePolls_modify fun _ => rfl) fun _ => runs_bind hnext fun _ => hlast

theorem samePolls_pointTo (x y : Float) : Runs SamePolls (pointTo x y) :=
  runs_bind (samePolls_modify fun _ => rfl) fun _ => samePolls_emit _

theorem samePolls_pointAtBeacon : Runs SamePolls pointAtBeacon :=
  runs_bind samePolls_get fun _ => runs_ite (samePolls_pointTo _ _) (runs_pure _)

theorem samePolls_calibrationPhase : Runs SamePolls (calibrationPhase env) := by
  unfold calibrationPhase
  have hfails : Runs SamePolls (modify fun w : World =>
      { w with haveCalibKnowledge := false, phase := .calibration } : Proc World Unit) :=
    samePolls_modify fun _ => rfl
  refine runs_bind samePolls_laser fun lit => runs_ite ?_ hfails
  refine runs_bind samePolls_calibrationRun fun success => runs_ite ?_ hfails
  exact runs_bind (samePolls_emit _) fun _ => samePolls_modify fun _ => rfl

theorem samePolls_acquired : Runs SamePolls (acquired env) := by
  unfold acquired
  have hpoints : Runs SamePolls (do
      pointAtBeacon
      modify fun w => { w with phase := if w.openLoop then .openLoop else .clInit }) :=
    runs_bind samePolls_pointAtBeacon fun _ => samePolls_modify fun _ => rfl
  refine runs_bind (samePolls_modify fun _ => rfl) fun _ => runs_bind (samePolls_emit _) fun _ => ?_
  refine runs_bind samePolls_get fun w => runs_ite ?_ hpoints
  exact runs_bind samePolls_logImage fun _ => runs_bind (samePolls_modify fun _ => rfl) fun _ =>
    hpoints

theorem samePolls_notAcquired : Runs SamePolls (notAcquired env) := by
  refine runs_bind samePolls_get fun w => runs_ite samePolls_logImage ?_
  refine runs_ite ?_ (samePolls_modify fun _ => rfl)
  exact runs_bind samePolls_logImage fun _ => samePolls_modify fun _ => rfl

theorem samePolls_clBeaconPhase : Runs SamePolls (clBeaconPhase env) := by
  unfold clBeaconPhase
  have hends : Runs SamePolls (do
      modify fun w => { w with phase := .clCalib }
      checkBeaconLoss env) :=
    runs_bind (samePolls_modify fun _ => rfl) fun _ => samePolls_checkBeaconLoss
  have hlost : Runs SamePolls (do
      loseBeacon env
      modify fun w => { w with phase := .clCalib }
      checkBeaconLoss env) := runs_bind samePolls_loseBeacon fun _ => hends
  refine runs_bind samePolls_laser fun lit => runs_ite ?_ hlost
  refine runs_bind samePolls_get fun w => runs_bind (samePolls_lookFor _ _) fun sight => ?_
  cases sight with
  | accepted spot =>
    refine runs_bind (samePolls_modify fun _ => rfl) fun _ => ?_
    exact runs_bind samePolls_sendFeedback fun _ => hends
  | noFrame => exact hends
  | failure => exact hlost
  | changed => exact hlost

theorem samePolls_clCalibPhase : Runs SamePolls (clCalibPhase env) := by
  unfold clCalibPhase
  have hends : Runs SamePolls (do
      modify fun w => { w with phase := .clBeacon }
      if (← get).haveCalibKnowledge = false then
        let now ← ask env.clock
        if now - (← get).startCalibLoss > periodCalibLoss then
          modify fun w => { w with phase := .openLoop } : Proc World Unit) := by
    refine runs_bind (samePolls_modify fun _ => rfl) fun _ => runs_bind samePolls_get fun w => ?_
    refine runs_ite ?_ (runs_pure _)
    refine runs_bind (samePolls_ask _) fun now => runs_bind samePolls_get fun w => ?_
    exact runs_ite (samePolls_modify fun _ => rfl) (runs_pure _)
  have hlose : Runs SamePolls (loseCalib env) := samePolls_loseCalib
  have hlost := runs_bind hlose fun _ => hends
  refine runs_bind samePolls_laser fun lit => runs_ite ?_ hlost
  refine runs_bind samePolls_get fun w => runs_bind (samePolls_lookFor _ _) fun sight => ?_
  cases sight with
  | accepted spot =>
    refine runs_bind ?_ fun _ => hends
    refine runs_bind (samePolls_modify fun _ => rfl) fun _ => runs_bind samePolls_get fun w => ?_
    exact runs_bind (samePolls_emit _) fun _ => samePolls_dither (runs_pure _)
  | changed => exact hends
  | failure => exact hlost
  | noFrame => exact hlost

theorem samePolls_openLoopPhase : Runs SamePolls (openLoopPhase env) := by
  unfold openLoopPhase
  have hlost : Runs SamePolls (do
      loseBeacon env
      checkBeaconLoss env) := runs_bind samePolls_loseBeacon fun _ => samePolls_checkBeaconLoss
  refine runs_bind samePolls_laser fun lit => runs_ite ?_ hlost
  refine runs_bind samePolls_get fun w => runs_bind (samePolls_lookFor _ _) fun sight => ?_
  cases sight with
  | accepted spot =>
    refine runs_bind (samePolls_modify fun _ => rfl) fun _ => ?_
    refine runs_bind samePolls_pointAtBeacon fun _ => runs_bind samePolls_sendFeedback fun _ => ?_
    exact runs_bind (samePolls_dither (runs_pure _)) fun _ => samePolls_checkBeaconLoss
  | noFrame => exact hlost
  | failure => exact hlost
  | changed => exact hlost

theorem samePolls_staticPointPhase : Runs SamePolls (staticPointPhase env) := by
  unfold staticPointPhase
  have hpoint : Runs SamePolls pointAtStatic :=
    runs_bind samePolls_get fun w => samePolls_pointTo _ _
  refine runs_bind samePolls_get fun w => runs_ite (runs_ite ?_ ?_) ?_
  · exact runs_bind hpoint fun _ => samePolls_modify fun _ => rfl
  · exact runs_bind (samePolls_emit _) fun _ => samePolls_modify fun _ => rfl
  · exact runs_ite (samePolls_dither hpoint) (runs_pure _)

theorem samePolls_acquisitionCommand : Runs SamePolls acquisitionCommand := by
  refine runs_bind samePolls_get fun _ => runs_ite (runs_pure _) (runs_ite ?_ (runs_pure _))
  exact runs_bind (samePolls_modify fun _ => rfl) fun _ => runs_pure _

theorem samePolls_heartbeat : Runs SamePolls (heartbeat env) := by
  refine runs_bind (samePolls_ask _) fun now => runs_bind samePolls_get fun w => ?_
  refine runs_ite ?_ (runs_pure _)
  refine runs_bind (samePolls_emit _) fun _ => runs_bind (samePolls_ask _) fun now => ?_
  exact samePolls_modify fun _ => rfl

theorem samePolls_updateTxOffsets : Runs SamePolls (updateTxOffsets env) := by
  have hoffsets : Runs SamePolls (calculateTxOffsets env) := by
    refine runs_bind (samePolls_ask _) fun temperature => ?_
    cases temperature with
    | none => exact runs_pure _
    | some temperature => exact samePolls_modify fun _ => rfl
  refine runs_bind (samePolls_ask _) fun now => runs_bind samePolls_get fun w => ?_
  refine runs_ite ?_ (runs_pure _)
  refine runs_bind hoffsets fun _ => runs_bind (samePolls_ask _) fun now => ?_
  refine runs_bind (samePolls_modify fun _ => rfl) fun _ => ?_
  exact runs_bind samePolls_get fun w => runs_ite (samePolls_modify fun _ => rfl) (runs_pure _)

theorem samePolls_leaveMain : Runs SamePolls (leaveMain env) := by
  have hfinish : Runs SamePolls (finish env) := by
    refine runs_bind samePolls_laser fun _ => runs_bind (samePolls_emit _) fun _ => ?_
    exact samePolls_modify fun _ => rfl
  refine runs_bind (samePolls_modify fun _ => rfl) fun _ => runs_bind samePolls_get fun w => ?_
  refine runs_ite (runs_bind (samePolls_ask _) fun stopped => ?_) hfinish
  exact runs_ite hfinish (samePolls_modify fun _ => rfl)

end SamePolls

/-! ## Records -/

/-- The packet that the next poll takes. -/
def World.nextPacket (env : Env) (w : World) : Option (UInt16 × Bytes) :=
  (env.message w.polls).map (receivePacketPatControl (env.garbage w.polls))

/-- The polls go on with the count of the process, and each of them has a property. -/
abbrev Polled (P : Poll → Prop) : World × List Poll → World × List Poll → Prop :=
  Records World.polls (fun poll => poll.before.polls) P

section Polled

variable {env : Env} {P : Poll → Prop}

theorem ensures_nextPacket (env : Env) (w : World) :
    Ensures (receiveCommand env) (fun packet w' => packet = w.nextPacket env ∧
      w'.polls = w.polls + 1 ∧ w'.offsets = w.offsets) w := by
  unfold receiveCommand World.nextPacket
  rw [Ensures, wp_bind, wp_get, wp_bind, wp_modify]
  cases env.message w.polls with
  | none => exact ⟨rfl, rfl, rfl⟩
  | some message => exact ⟨rfl, rfl, rfl⟩

theorem polls_mainCommand (env : Env) (w : World) :
    Ensures (mainCommand env) (fun _ w' => w'.polls = w.polls + 1) w := by
  unfold mainCommand
  refine (ensures_nextPacket env w).bind ?_
  rintro packet w₁ ⟨-, hpolls, -⟩
  cases packet with
  | none => exact hpolls
  | some packet =>
    dsimp only
    split
    · exact hpolls
    · exact hpolls
    · exact hpolls
    · exact hpolls
    · exact hpolls

theorem polls_receivedEnd (env : Env) (w : World) :
    Ensures (receivedEnd env) (fun _ w' => w'.polls = w.polls + 1) w := by
  unfold receivedEnd
  refine (ensures_nextPacket env w).bind ?_
  rintro packet w₁ ⟨-, hpolls, -⟩
  cases packet with
  | none => exact hpolls
  | some packet =>
    dsimp only
    split
    · exact hpolls
    · exact hpolls
    · exact hpolls

theorem polled_unobserved {α : Type} {x : Proc World α} (h : Runs SamePolls x) :
    Runs (Polled P) (unobserved x) := runs_unobserved h

theorem polled_tryExposure (inRange : Bool) :
    Runs (Polled P) (unobserved (tryExposure env inRange)) :=
  polled_unobserved (samePolls_tryExposure inRange)

section Steps

variable (hmain : ∀ w, Ensures (mainCommand env) (fun _ w' => P ⟨false, w, w'⟩) w)
  (hsearch : ∀ w, Ensures (receivedEnd env) (fun _ w' => P ⟨true, w, w'⟩) w)

include hmain in
theorem polled_approach : Runs (Polled P) (Observed.approach env) := by
  have hcommand : Runs (Polled P) (Observed.mainCommand env) := by
    apply runs_observed
    intro w
    exact ((polls_mainCommand env w).and (hmain w)).imp fun _ _ ⟨hpolls, h⟩ => ⟨rfl, hpolls, h⟩
  refine runs_bind (polled_unobserved (samePolls_ask _)) fun stopped => runs_ite ?_ ?_
  · exact runs_bind (polled_unobserved (samePolls_modify fun _ => rfl)) fun _ => runs_pure _
  · refine runs_bind hcommand fun ended => runs_ite (runs_pure _) ?_
    refine runs_bind (polled_unobserved samePolls_acquisitionCommand) fun ended => ?_
    refine runs_ite (runs_pure _) ?_
    refine runs_bind (polled_unobserved samePolls_heartbeat) fun _ => ?_
    exact runs_bind (polled_unobserved samePolls_updateTxOffsets) fun _ => runs_pure _

include hsearch

theorem polled_receivedEnd : Runs (Polled P) (Observed.receivedEnd env) := by
  apply runs_observed
  intro w
  exact ((polls_receivedEnd env w).and (hsearch w)).imp fun _ _ ⟨hpolls, h⟩ => ⟨rfl, hpolls, h⟩

theorem polled_search (maxExposure : ℤ) (searchingUp searchingDown : Bool)
    (exposureUp exposureDown : ℤ) : Runs (Polled P)
      (Observed.search env maxExposure searchingUp searchingDown exposureUp exposureDown) := by
  induction searchingUp, searchingDown, exposureUp, exposureDown using
      search.induct maxExposure with
  | case1 searchingUp searchingDown exposureUp exposureDown h ih =>
    rw [Observed.search, if_pos h]
    refine runs_bind (polled_receivedEnd hsearch) fun ended => runs_ite (runs_pure _) ?_
    refine runs_bind (polled_tryExposure _) fun tuned => runs_ite (runs_pure _) ?_
    refine runs_bind (polled_receivedEnd hsearch) fun ended => runs_ite (runs_pure _) ?_
    exact runs_bind (polled_tryExposure _) fun tuned => runs_ite (runs_pure _) ih
  | case2 searchingUp searchingDown exposureUp exposureDown h =>
    rw [Observed.search, if_neg h]
    exact runs_pure _

theorem polled_runPhase : Runs (Polled P) (Observed.runPhase env) := by
  have hget : Runs (Polled P) (unobserved get) := polled_unobserved samePolls_get
  have hemit (e : Event) : Runs (Polled P) (unobserved (emit e)) :=
    polled_unobserved (samePolls_emit e)
  have hacquisition : Runs (Polled P) (Observed.acquisitionPhase env) := by
    refine runs_bind (polled_unobserved samePolls_laser) fun lit => runs_ite ?_ ?_
    · refine runs_bind ?_ fun found => runs_ite (polled_unobserved samePolls_acquired)
        (polled_unobserved samePolls_notAcquired)
      refine runs_bind hget fun w => runs_bind (hemit _) fun _ => ?_
      refine runs_bind (polled_unobserved samePolls_tune) fun tuned => ?_
      exact runs_ite (runs_pure _) (polled_search hsearch _ _ _ _ _)
    · exact polled_unobserved (samePolls_modify fun _ => rfl)
  refine runs_bind hget fun w => runs_bind (hemit _) fun _ => ?_
  cases w.phase with
  | calibration => exact polled_unobserved samePolls_calibrationPhase
  | acquisition => exact hacquisition
  | clInit => exact polled_unobserved (samePolls_modify fun _ => rfl)
  | clBeacon => exact polled_unobserved samePolls_clBeaconPhase
  | clCalib => exact polled_unobserved samePolls_clCalibPhase
  | openLoop => exact polled_unobserved samePolls_openLoopPhase
  | staticPoint => exact polled_unobserved samePolls_staticPointPhase

include hmain

/-- **All polls of a session are observed**, with what holds of the polls at its begin and of those
of the search. -/
theorem polled_mainStep : Runs (Polled P) (Observed.mainStep env) := by
  have hiteration : Runs (Polled P) (Observed.mainIteration env) := by
    refine runs_bind (polled_approach hmain) fun ended => runs_ite (runs_pure _) ?_
    refine runs_bind (polled_runPhase hsearch) fun _ => ?_
    exact runs_bind (polled_unobserved samePolls_get) fun w => runs_pure _
  refine runs_bind hiteration fun ended => ?_
  exact runs_ite (polled_unobserved samePolls_leaveMain) (runs_pure _)

/-- The polls of a step of a session are numbered on, up to the count of the next step. -/
theorem polls_step {n : ℕ} (h : (state env n).place = .main) :
    (polls env n).map (fun poll => poll.before.polls) =
        List.range' (state env n).polls (polls env n).length ∧
      (state env (n + 1)).polls = (state env n).polls + (polls env n).length ∧
      ∀ poll ∈ polls env n, P poll := by
  let s := (Observed.mainStep env).after (state env n, [])
  have hpolls : polls env n = s.2 := if_pos h
  have hstate : state env (n + 1) = s.1 := by
    have hstep : Ensures (mainStep env) (fun _ w' => w' = state env (n + 1)) (state env n) := by
      apply Proc.ensures_iff.mpr
      show _ = (iteration env).after (state env n)
      unfold iteration Proc.after
      rw [Python.bind_get, h]
    have hsame : Ensures (Observed.mainStep env) (fun _ s' => s'.1 = state env (n + 1))
        (state env n, []) :=
      (erases_mainStep env).ensures (Q := fun _ w' => w' = state env (n + 1)) hstep
    exact (Proc.ensures_iff.mp hsame).symm
  obtain ⟨added, hadded, hnumbers, hcount, hP⟩ : Polled P (state env n, []) s :=
    Proc.after_of_ensures (polled_mainStep hmain hsearch (state env n, []))
  rw [List.nil_append] at hadded
  rw [hpolls, hstate, hadded]
  exact ⟨hnumbers, hcount, hP⟩

end Steps

end Polled

end ClickA.Pat
