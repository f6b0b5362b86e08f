import ClickA.Pat.Senses

/-!
# What the process has found out

The process finds out where the beacon and the calibration spot are, and whether its self tests
pass. The phases of a session, the calibration test and the self test are what it finds that out
with: all the other statements of the process leave its findings alone.

## Main definitions

* `World.findings`: what the process has found out
* `Works P`: two states with the same findings, and what happens in between has a property

## Main results

* `works_standbyCommand`: the other commands of the standby loop
* `ensures_selfTestCalibration`: the calibration of the self test
* `works_cameraInitIteration`, `works_leaveStandby`, `works_leaveMain`: between the loops
* `works_mainCommand`, `works_updateTxOffsets`, …: what an iteration of the main loop does before it
  comes to its phase
-/

namespace ClickA.Pat

open Python (Bytes Ensures Runs runs_bind runs_pure runs_ite runs_foldlM wp_bind wp_get wp_modify)
open Stream (Extends)

/-! ## Findings -/

/-- What the process has found out about the spots and itself, and when it lost the spots. -/
structure Findings where
  haveBeaconKnowledge : Bool
  haveCalibKnowledge : Bool
  startBeaconLoss : ℤ
  startCalibLoss : ℤ
  selfTestPassed : Bool
  selfTestFailed : Bool

def World.findings (w : World) : Findings :=
  ⟨w.haveBeaconKnowledge, w.haveCalibKnowledge, w.startBeaconLoss, w.startCalibLoss,
    w.selfTestPassed, w.selfTestFailed⟩

/-- Two states with the same findings, and what happens in between has a property. -/
abbrev Works : (Event → Prop) → World → World → Prop := Agrees World.findings

/-- The event does not say what the process has found out. -/
def Event.Mute : Event → Prop
  | .status _ | .selfTest _ _ | .calibrationRun _ => False
  | _ => True

theorem Event.Senses.mute {e : Event} (h : e.Senses) : e.Mute := by
  cases e <;> trivial

section Works

variable {P : Event → Prop} {α : Type} {env : Env} {w w' : World}

/-- The devices do not find out anything by themselves. -/
theorem Agrees.works (h : Senses P w w') : Works P w w' := by
  have hfindings : w'.settings.findings = w.settings.findings := congrArg World.findings h.same
  exact ⟨hfindings, h.adds⟩

theorem runs_works {x : Proc World α} (h : Runs (Senses P) x) : Runs (Works P) x :=
  h.imp fun _ _ => Agrees.works

theorem works_ask (f : ℕ → α) : Runs (Works P) (ask f) := runs_works (senses_ask f)

theorem works_emit {e : Event} (h : P e) : Runs (Works P) (emit e) := runs_works (senses_emit h)

theorem works_laser : Runs (Works P) (laser env) := fun _ => ⟨rfl, .of_eq rfl⟩

/-! ## The offsets -/

theorem works_calculateTxOffsets : Runs (Works P) (calculateTxOffsets env) := by
  unfold calculateTxOffsets
  refine runs_bind (works_ask _) fun temperature => ?_
  cases temperature with
  | none => exact runs_pure _
  | some temperature => exact agrees_modify fun _ => ⟨rfl, rfl⟩

theorem works_updateTxOffsets : Runs (Works P) (updateTxOffsets env) := by
  unfold updateTxOffsets
  refine runs_bind (works_ask _) fun now => runs_bind agrees_get fun w => ?_
  refine runs_ite ?_ (runs_pure _)
  refine runs_bind works_calculateTxOffsets fun _ => runs_bind (works_ask _) fun now => ?_
  refine runs_bind (agrees_modify fun _ => ⟨rfl, rfl⟩) fun _ => ?_
  exact runs_ite (agrees_modify fun _ => ⟨rfl, rfl⟩) (runs_pure _)

theorem works_dither {next : Proc World Unit} (h : Runs (Works P) next) :
    Runs (Works P) (dither env next) := by
  have hcount : Runs (Works P) (do
      let now ← ask env.clock
      modify fun w : World => { w with
        ditherCount := w.ditherCount + 1, timePrevDither := now }) :=
    runs_bind (works_ask _) fun now => agrees_modify fun _ => ⟨rfl, rfl⟩
  unfold dither
  refine runs_bind agrees_get fun w => runs_ite ?_ (runs_pure _)
  refine runs_bind (works_ask _) fun now => runs_bind agrees_get fun w => ?_
  refine runs_ite ?_ (runs_pure _)
  split
  · exact runs_bind (agrees_modify fun _ => ⟨rfl, rfl⟩) fun _ => hcount
  · refine runs_bind (agrees_modify fun _ => ⟨rfl, rfl⟩) fun _ => ?_
    exact runs_bind h fun _ => hcount

/-! ## Commands -/

theorem works_startSession {set : World → World} (data : Bytes)
    (h : ∀ w, (set w).findings = w.findings ∧ (set w).trace = w.trace) :
    Runs (Works P) (startSession env set data) := by
  have hset : Runs (Works P) (modify set : Proc World Unit) := agrees_modify h
  have hoffsets : Runs (Works P) (calculateTxOffsets env) := works_calculateTxOffsets
  unfold startSession
  dsimp only
  split
  · refine runs_bind hset fun _ => runs_bind (agrees_modify fun w => ?_) fun _ => hoffsets
    exact ⟨rfl, rfl⟩
  · split
    · refine runs_bind hset fun _ => runs_bind (agrees_modify fun w => ?_) fun _ => hoffsets
      exact ⟨rfl, rfl⟩
    · exact hoffsets

theorem works_setWindow (p : World → Prop) [DecidablePred p] (window : World → AOI) :
    Runs (Works P) (modify fun w => if p w then { w with getImageWindow := window w } else w :
      Proc World Unit) := by
  refine agrees_modify fun w => ?_
  split
  · exact ⟨rfl, rfl⟩
  · exact ⟨rfl, rfl⟩

variable (hP : ∀ e : Event, e.Mute → P e)
include hP

theorem works_pointTo (x y : Float) : Runs (Works P) (pointTo x y) :=
  runs_bind (agrees_modify fun _ => ⟨rfl, rfl⟩) fun _ => works_emit (hP _ trivial)

theorem works_txAlign : Runs (Works P) txAlign := by
  unfold txAlign
  refine runs_bind agrees_get fun w => ?_
  exact runs_ite (works_pointTo hP _ _) (runs_pure _)

theorem works_updateFsm (move : Group → Group) : Runs (Works P) (updateFsm move) := by
  unfold updateFsm
  refine runs_bind agrees_get fun w => runs_ite ?_ (runs_pure _)
  refine runs_bind (agrees_modify fun _ => ⟨rfl, rfl⟩) fun _ => ?_
  exact runs_bind agrees_get fun w => works_emit (hP _ trivial)

theorem works_logImage : Runs (Works P) (logImage env) :=
  runs_works (senses_logImage fun e he => hP e he.mute)

theorem works_checkLaserOn : Runs (Works P) (checkLaserOn env) :=
  runs_works (senses_checkLaserOn fun e he => hP e he.mute)

theorem works_checkLaserOff : Runs (Works P) (checkLaserOff env) :=
  runs_works (senses_checkLaserOff fun e he => hP e he.mute)

theorem works_testFSM : Runs (Works P) (testFSM env) :=
  runs_works (senses_testFSM fun e he => hP e he.mute)

theorem works_getImage (data : Bytes) : Runs (Works P) (getImage env data) := by
  refine runs_bind agrees_get fun w => ?_
  exact runs_bind (works_emit (hP _ trivial)) fun _ => works_logImage hP

theorem works_calibLaserTest : Runs (Works P) (calibLaserTest env) := by
  have hround : Runs (Works P) (calibLaserRound env) := by
    unfold calibLaserRound
    refine runs_bind works_laser fun on => runs_ite ?_ (runs_pure _)
    refine runs_bind (works_checkLaserOn hP) fun seen => runs_ite ?_ (runs_pure _)
    refine runs_bind (works_logImage hP) fun _ => ?_
    refine runs_bind works_laser fun off => runs_ite ?_ (runs_pure _)
    refine runs_bind (works_checkLaserOff hP) fun dark => ?_
    exact runs_ite (works_logImage hP) (runs_pure _)
  unfold calibLaserTest
  refine runs_bind (works_emit (hP _ trivial)) fun _ => ?_
  refine runs_bind (works_emit (hP _ trivial)) fun _ => ?_
  exact runs_bind hround fun _ => hround

theorem works_fsmTest : Runs (Works P) (fsmTest env) := by
  unfold fsmTest
  refine runs_bind (works_emit (hP _ trivial)) fun _ => runs_bind works_laser fun on => ?_
  exact runs_ite (runs_bind (works_testFSM hP) fun _ => runs_pure _) (runs_pure _)

theorem works_testBusFeedback : Runs (Works P) testBusFeedback := by
  unfold testBusFeedback
  refine runs_bind (runs_foldlM (fun _ i => ?_) _ _) fun _ => works_emit (hP _ trivial)
  exact works_emit (hP _ trivial)

/-- A calibration reports its result last. -/
theorem works_calibrationRun (env : Env) (w : World) :
    Ensures (calibrationRun env) (fun success w' => ∃ w₁, Works P w w₁ ∧
      w' = { w₁ with trace := w₁.trace ++ [.calibrationRun success] }) w := by
  unfold calibrationRun
  refine (senses_calibrate (fun e he => hP e he.mute) env w).bind ?_
  rintro success w₁ ⟨h₁, -⟩
  exact ⟨w₁, h₁.works, rfl⟩

/-- **The commands of the standby loop**, other than the calibration test and the self test. -/
theorem works_standbyCommand {command : Option Command} (hcalib : command ≠ some .calibTest)
    (htest : command ≠ some .selfTest) (data : Bytes) :
    Runs (Works P) (standbyCommand env command data) := by
  unfold standbyCommand
  cases command with
  | none => exact runs_pure _
  | some command =>
    cases command with
    | startPat => exact works_startSession data fun _ => ⟨rfl, rfl⟩
    | startPatOpenLoop => exact works_startSession data fun _ => ⟨rfl, rfl⟩
    | startPatBusFeedback => exact works_startSession data fun _ => ⟨rfl, rfl⟩
    | startPatOpenLoopBusFeedback => exact works_startSession data fun _ => ⟨rfl, rfl⟩
    | startPatStaticPoint =>
      exact runs_bind (agrees_modify fun _ => ⟨rfl, rfl⟩) fun _ => works_calculateTxOffsets
    | updateTxOffsetX => exact agrees_modify fun _ => ⟨rfl, rfl⟩
    | updateTxOffsetY => exact agrees_modify fun _ => ⟨rfl, rfl⟩
    | endPat => exact runs_pure _
    | getImage => exact works_getImage hP data
    | calibTest => exact absurd rfl hcalib
    | calibLaserTest => exact works_calibLaserTest hP
    | fsmTest => exact works_fsmTest hP
    | bcnAlign => exact agrees_modify fun _ => ⟨rfl, rfl⟩
    | txAlign => exact works_txAlign hP
    | updateFsmX => exact works_updateFsm hP _
    | updateFsmY => exact works_updateFsm hP _
    | selfTest => exact absurd rfl htest
    | endProcess => exact agrees_modify fun _ => ⟨rfl, rfl⟩
    | setBeaconX => exact agrees_modify fun _ => ⟨rfl, rfl⟩
    | setBeaconY => exact agrees_modify fun _ => ⟨rfl, rfl⟩
    | setBeaconWindowSize => exact runs_pure _
    | setBeaconMaxExp => exact agrees_modify fun _ => ⟨rfl, rfl⟩
    | setGetImageCenterX => exact works_setWindow _ _
    | setGetImageCenterY => exact works_setWindow _ _
    | setGetImageWindowWidth => exact works_setWindow _ _
    | setGetImageWindowHeight => exact works_setWindow _ _
    | updatePeriodCalculateTxOffset => exact agrees_modify fun _ => ⟨rfl, rfl⟩
    | enableDitherTxOffset => exact agrees_modify fun _ => ⟨rfl, rfl⟩
    | updatePeriodDitherTxOffset => exact agrees_modify fun _ => ⟨rfl, rfl⟩
    | testBusFeedback => exact works_testBusFeedback hP

/-! ## The self test -/

theorem works_selfTestLaser : Runs (Works P) (selfTestLaser env) := by
  have hreport (text : String) : Runs (Works P) (report text) := runs_works (senses_report text)
  have hlog : Runs (Works P) (logImage env) := works_logImage hP
  have hround : Runs (Works P) (selfTestLaserRound env) := by
    unfold selfTestLaserRound
    refine runs_bind works_laser fun on => runs_ite ?_ (hreport _)
    refine runs_bind (works_checkLaserOn hP) fun seen => runs_ite ?_ ?_
    · refine runs_bind hlog fun _ => runs_bind works_laser fun off => runs_ite ?_ (hreport _)
      refine runs_bind (works_checkLaserOff hP) fun dark => runs_ite ?_ ?_
      · exact runs_bind hlog fun _ => agrees_modify fun _ => ⟨rfl, rfl⟩
      · exact runs_bind (hreport _) fun _ => hlog
    · exact runs_bind (hreport _) fun _ => hlog
  have hverdict : Runs (Works P) (do
      return Verdict.ofBool ((← get).laserTestsPassed = 2) : Proc World Verdict) :=
    runs_bind agrees_get fun w => runs_pure _
  unfold selfTestLaser
  refine runs_bind (works_emit (hP _ trivial)) fun _ => ?_
  refine runs_bind works_laser fun on => runs_ite ?_ ?_
  · refine runs_bind (runs_works (senses_findExposureRange fun e he => hP e he.mute)) fun _ => ?_
    refine runs_bind (works_emit (hP _ trivial)) fun _ => ?_
    refine runs_bind (agrees_modify fun _ => ⟨rfl, rfl⟩) fun _ => ?_
    exact runs_bind hround fun _ => runs_bind hround fun _ => hverdict
  · exact runs_bind (hreport _) fun _ => hverdict

theorem works_selfTestFsm : Runs (Works P) (selfTestFsm env) := by
  have hreport (text : String) : Runs (Works P) (report text) := runs_works (senses_report text)
  unfold selfTestFsm
  refine runs_bind works_laser fun on => runs_ite ?_ ?_
  · refine runs_bind (works_testFSM hP) fun passed => runs_ite (runs_pure _) ?_
    exact runs_bind (hreport _) fun _ => runs_pure _
  · exact runs_bind (hreport _) fun _ => runs_pure _

omit hP in
/-- The checks of a calibration set the variable that the self test passed. -/
theorem ensures_checkCalibration (env : Env) (w : World) :
    Ensures (checkCalibration env) (fun verdict w' =>
      w'.findings = { w.findings with
        selfTestPassed := w.selfTestPassed || verdict = .pass } ∧
      Extends P w.trace w'.trace) w := by
  have hfail (w₁ : World) (h : Works P w w₁) (text : String) : Ensures (do
      report text
      return Verdict.fail : Proc World Verdict) (fun verdict w' =>
        w'.findings = { w.findings with
          selfTestPassed := w.selfTestPassed || verdict = .pass } ∧
        Extends P w.trace w'.trace) w₁ := by
    refine (Runs.trans (runs_works (senses_report text)) h).bind fun _ w₂ h₂ => ?_
    refine ⟨h₂.same.trans ?_, h₂.adds⟩
    rw [decide_eq_false (by decide), Bool.or_false]
    rfl
  unfold checkCalibration
  rw [Ensures, wp_bind, wp_get]
  split
  · split
    · refine (works_ask (P := P) env.sensitivity w).bind fun s w₁ h₁ => ?_
      obtain ⟨s00, s11⟩ := s
      dsimp only
      split
      · have hpassed : w₁.findings = w.findings := h₁.same
        refine ⟨?_, h₁.adds⟩
        show { w₁.findings with selfTestPassed := true } = _
        rw [hpassed, decide_eq_true rfl, Bool.or_true]
      · exact hfail w₁ h₁ _
    · exact hfail w (refl_of (Works P) w) _
  · exact hfail w (refl_of (Works P) w) _

/-- The calibration of a self test may renew the knowledge of the calibration spot. -/
theorem ensures_selfTestCalibration (env : Env) (w : World) :
    Ensures (selfTestCalibration env) (fun verdict w' => ∃ success,
      w'.findings = { w.findings with
        haveCalibKnowledge := w.haveCalibKnowledge || success
        selfTestPassed := w.selfTestPassed || verdict = .pass } ∧
      ∃ calibrated, Extends P w.trace calibrated ∧
        Extends P (calibrated ++ [.calibrationRun success]) w'.trace) w := by
  unfold selfTestCalibration
  refine (works_calibrationRun hP env w).bind ?_
  rintro success _ ⟨w₁, h₁, rfl⟩
  have hfindings : w₁.findings = w.findings := h₁.same
  cases success with
  | false =>
    refine Ensures.bind (runs_works (senses_report (P := P) _) _) fun _ w₂ h₂ => ?_
    refine ⟨false, h₂.same.trans ?_, w₁.trace, h₁.adds, h₂.adds⟩
    rw [decide_eq_false (by decide), Bool.or_false, Bool.or_false]
    exact hfindings
  | true =>
    rw [if_pos rfl, Ensures, wp_bind, emit, wp_modify, wp_bind, wp_modify]
    refine (ensures_checkCalibration (P := P) env _).imp ?_
    rintro verdict w₂ ⟨hfindings₂, hadds⟩
    have hcamera : Extends P (w₁.trace ++ [.calibrationRun true])
        (w₁.trace ++ [.calibrationRun true] ++ [.camera]) := .concat (hP _ trivial)
    refine ⟨true, hfindings₂.trans ?_, w₁.trace, h₁.adds, hcamera.trans hadds⟩
    rw [Bool.or_true]
    show { w₁.findings with
      haveCalibKnowledge := true
      selfTestPassed := w₁.findings.selfTestPassed || decide (verdict = Verdict.pass) } = _
    rw [hfindings]
    rfl

/-! ## The main loop -/

theorem works_receiveCommand : Runs (Works P) (receiveCommand env) :=
  runs_works (senses_receiveCommand fun _ => hP _ trivial)

theorem works_mainCommand : Runs (Works P) (mainCommand env) := by
  unfold mainCommand
  refine runs_bind (works_receiveCommand hP) fun packet => ?_
  cases packet with
  | none => exact runs_pure _
  | some packet =>
    dsimp only
    split
    · exact runs_pure _
    · refine runs_bind (agrees_modify ?_) fun _ => runs_pure _
      exact fun _ => ⟨rfl, rfl⟩
    · refine runs_bind (agrees_modify ?_) fun _ => runs_pure _
      exact fun _ => ⟨rfl, rfl⟩
    · refine runs_bind (agrees_modify ?_) fun _ => runs_pure _
      exact fun _ => ⟨rfl, rfl⟩
    · exact runs_pure _

omit hP in
theorem works_acquisitionCommand : Runs (Works P) acquisitionCommand := by
  unfold acquisitionCommand
  refine runs_bind agrees_get fun w => runs_ite (runs_pure _) ?_
  refine runs_ite ?_ (runs_pure _)
  exact runs_bind (agrees_modify fun _ => ⟨rfl, rfl⟩) fun _ => runs_pure _

omit hP in
/-- The heartbeat reports that the process is in its main loop. -/
theorem works_heartbeat (hstatus : P (.status statusMain)) : Runs (Works P) (heartbeat env) := by
  unfold heartbeat
  refine runs_bind (works_ask _) fun now => runs_bind agrees_get fun w => ?_
  refine runs_ite ?_ (runs_pure _)
  refine runs_bind (works_emit hstatus) fun _ => runs_bind (works_ask _) fun now => ?_
  exact agrees_modify fun _ => ⟨rfl, rfl⟩

theorem works_sendFeedback : Runs (Works P) (sendFeedback env) := by
  unfold sendFeedback
  refine runs_bind agrees_get fun w => runs_ite ?_ (runs_pure _)
  refine runs_bind (works_ask _) fun now => runs_bind agrees_get fun w => ?_
  refine runs_ite ?_ (runs_pure _)
  refine runs_bind (works_emit (hP _ trivial)) fun _ => runs_bind (works_ask _) fun now => ?_
  exact agrees_modify fun _ => ⟨rfl, rfl⟩

theorem works_pointAtBeacon : Runs (Works P) pointAtBeacon := by
  unfold pointAtBeacon
  refine runs_bind agrees_get fun w => ?_
  exact runs_ite (works_pointTo hP _ _) (runs_pure _)

theorem works_staticPointPhase : Runs (Works P) (staticPointPhase env) := by
  have hpoint : Runs (Works P) pointAtStatic := runs_bind agrees_get fun w => works_pointTo hP _ _
  have hdone : Runs (Works P) (modify fun w => { w with staticPointingInitialized := true } :
      Proc World Unit) := agrees_modify fun _ => ⟨rfl, rfl⟩
  unfold staticPointPhase
  refine runs_bind agrees_get fun w => runs_ite (runs_ite ?_ ?_) ?_
  · exact runs_bind hpoint fun _ => hdone
  · exact runs_bind (works_emit (hP _ trivial)) fun _ => hdone
  · exact runs_ite (works_dither hpoint) (runs_pure _)

/-! ## Between the loops -/

theorem works_finish : Runs (Works P) (finish env) := by
  unfold finish
  refine runs_bind works_laser fun _ => runs_bind (works_emit (hP _ trivial)) fun _ => ?_
  exact agrees_modify fun _ => ⟨rfl, rfl⟩

theorem works_leaveMain : Runs (Works P) (leaveMain env) := by
  unfold leaveMain
  refine runs_bind (agrees_modify fun _ => ⟨rfl, rfl⟩) fun _ => ?_
  refine runs_bind agrees_get fun w => runs_ite ?_ (works_finish hP)
  refine runs_bind (works_ask _) fun stopped => runs_ite (works_finish hP) ?_
  exact agrees_modify fun _ => ⟨rfl, rfl⟩

theorem works_leaveStandby : Runs (Works P) (leaveStandby env) := by
  unfold leaveStandby
  refine runs_bind (agrees_modify fun _ => ⟨rfl, rfl⟩) fun _ => ?_
  refine runs_bind agrees_get fun w => runs_ite ?_ (works_leaveMain hP)
  exact agrees_modify fun _ => ⟨rfl, rfl⟩

theorem works_leaveCameraInit : Runs (Works P) (leaveCameraInit env) := by
  unfold leaveCameraInit
  refine runs_bind (works_emit (hP _ trivial)) fun _ => ?_
  refine runs_bind (works_ask _) fun stopped => runs_ite (works_finish hP) ?_
  refine runs_bind agrees_get fun w => runs_ite ?_ (works_leaveStandby hP)
  exact agrees_modify fun _ => ⟨rfl, rfl⟩

theorem works_cameraInitialize : Runs (Works P) (cameraInitialize env) := by
  unfold cameraInitialize
  refine runs_bind (works_ask _) fun initialized => ?_
  refine runs_bind (works_emit (hP _ trivial)) fun _ => ?_
  exact agrees_modify fun _ => ⟨rfl, rfl⟩

/-- The loop that initializes the camera reports its status, and answers a self test. -/
theorem works_cameraInitIteration (hstatus : P (.status statusCameraInit))
    (htest : ∀ verdicts text, P (.selfTest verdicts text)) :
    Runs (Works P) (cameraInitIteration env) := by
  have hretry : Runs (Works P) (retryCameraInit env) := by
    unfold retryCameraInit
    refine runs_bind (works_cameraInitialize hP) fun _ => ?_
    refine runs_bind (works_ask _) fun stopped => runs_ite ?_ ?_
    · exact agrees_modify fun _ => ⟨rfl, rfl⟩
    · refine runs_bind agrees_get fun w => ?_
      exact runs_ite (works_leaveCameraInit hP) (runs_pure _)
  have hself : Runs (Works P) (cameraInitSelfTest env) := by
    unfold cameraInitSelfTest
    refine runs_bind (runs_works (senses_report _)) fun _ => ?_
    refine runs_bind (runs_works senses_selfTestFpga) fun fpga => ?_
    exact runs_bind agrees_get fun w => works_emit (htest _ _)
  unfold cameraInitIteration
  refine runs_bind (works_emit hstatus) fun _ => ?_
  refine runs_bind (works_receiveCommand hP) fun packet => ?_
  cases packet with
  | none => exact hretry
  | some packet =>
    dsimp only
    split
    · refine runs_bind (agrees_modify ?_) fun _ => works_leaveCameraInit hP
      exact fun _ => ⟨rfl, rfl⟩
    · exact runs_bind hself fun _ => hretry
    · exact agrees_modify fun _ => ⟨rfl, rfl⟩
    · exact hretry

theorem works_boot : Runs (Works P) (boot env) := by
  have hrest : Runs (Works P) (do
      calculateTxOffsets env
      cameraInitialize env
      if (← get).cameraInitialized then leaveCameraInit env) := by
    refine runs_bind works_calculateTxOffsets fun _ => ?_
    refine runs_bind (works_cameraInitialize hP) fun _ => runs_bind agrees_get fun w => ?_
    exact runs_ite (works_leaveCameraInit hP) (runs_pure _)
  unfold boot
  cases env.offsetParams with
  | none => exact hrest
  | some params => exact runs_bind (agrees_modify fun _ => ⟨rfl, rfl⟩) fun _ => hrest

end Works

end ClickA.Pat
