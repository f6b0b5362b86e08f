import ClickA.Pat.Steering

/-!
# Steering over a run

The commands of the standby loop and the ends of the loops keep the invariant too, so it holds
behind every step of the process.

## Main definitions

* `Command.prescribes`: the flags of a session, by the command that starts it
* `Command.Enters`: the phases in which a command starts a session

## Main results

* `ensures_start`: what a command that starts a session does
* `advances_standbyCommand`: the other commands keep the modes
* `steered_state`: **the process only steers behind a successful calibration**
-/

namespace ClickA.Pat

open Python (Bytes Ensures Runs runs_bind runs_pure runs_ite wp_bind wp_get)
open Stream (Extends Preceded)

/-! ## Starting a session -/

/-- The flags that a session has, by the command that starts it. -/
def Command.prescribes : Command → Option Flags
  | .startPat => some ⟨false, false, false⟩
  | .startPatOpenLoop => some ⟨true, false, false⟩
  | .startPatBusFeedback => some ⟨false, true, false⟩
  | .startPatOpenLoopBusFeedback => some ⟨true, true, false⟩
  | .bcnAlign => some ⟨true, false, true⟩
  | .startPatStaticPoint => some ⟨false, false, false⟩
  | _ => none

/-- The phases in which a command starts a session. -/
def Command.Enters (w : World) (phase : Phase) : Command → Prop
  | .startPatStaticPoint => phase = .staticPoint
  | .bcnAlign => phase = .acquisition
  | _ => phase = .calibration ∨ phase = .acquisition ∧ w.haveCalibKnowledge = true

/-- Some flags are set. -/
def World.raise (w : World) (flags : Flags) : World :=
  { w with
    openLoop := w.openLoop || flags.openLoop
    sendBusFeedback := w.sendBusFeedback || flags.sendBusFeedback
    bcnAlignment := w.bcnAlignment || flags.bcnAlignment }

/-- A session begins. -/
def World.start (w : World) (phase : Phase) : World := { w with phase := phase, standby := false }

section Start

variable {P : Event → Prop} {env : Env} {command : Command} {flags : Flags} {phase : Phase}

/-- A command with a flag starts a session, or only calculates the offsets. -/
theorem ensures_startSession {set : World → World} {w : World} (hset : set w = w.raise flags)
    (data : Bytes) :
    Ensures (startSession env set data) (fun _ w' => Quiet P w w' ∨
      ∃ phase, (phase = .calibration ∨ phase = .acquisition ∧ w.haveCalibKnowledge = true) ∧
        Quiet P ((w.raise flags).start phase) w') w := by
  have hoffsets (w : World) : Ensures (calculateTxOffsets env) (fun _ w' => Quiet P w w') w :=
    quiet_calculateTxOffsets w
  unfold startSession
  dsimp only
  split
  · show Ensures (calculateTxOffsets env) _ ((set w).start
      (if (set w).haveCalibKnowledge then .acquisition else .calibration))
    rw [hset]
    refine (hoffsets _).imp fun _ w' h => .inr ⟨_, ?_, h⟩
    show (if w.haveCalibKnowledge = true then Phase.acquisition else Phase.calibration) = _ ∨
      (if w.haveCalibKnowledge = true then Phase.acquisition else Phase.calibration) = _ ∧ _
    by_cases hknown : w.haveCalibKnowledge = true
    · rw [if_pos hknown]
      exact .inr ⟨rfl, hknown⟩
    · rw [if_neg hknown]
      exact .inl rfl
  · split
    · show Ensures (calculateTxOffsets env) _ ((set w).start .calibration)
      rw [hset]
      exact (hoffsets _).imp fun _ w' h => .inr ⟨_, .inl rfl, h⟩
    · exact (hoffsets w).imp fun _ w' h => .inl h

/-- **What a command that starts a session does**: it sets its flags and begins the session, or only
calculates the offsets. -/
theorem ensures_start (env : Env) (h : command.prescribes = some flags) (data : Bytes) (w : World) :
    Ensures (standbyCommand env (some command) data) (fun _ w' => Quiet P w w' ∨
      ∃ phase, command.Enters w phase ∧ Quiet P ((w.raise flags).start phase) w') w := by
  cases command <;> cases h
  case startPat =>
    have hset : w = w.raise ⟨false, false, false⟩ := by simp [World.raise]
    exact ensures_startSession hset data
  case startPatOpenLoop =>
    have hset : { w with openLoop := true } = w.raise ⟨true, false, false⟩ := by simp [World.raise]
    exact ensures_startSession hset data
  case startPatBusFeedback =>
    have hset : { w with sendBusFeedback := true } = w.raise ⟨false, true, false⟩ := by
      simp [World.raise]
    exact ensures_startSession hset data
  case startPatOpenLoopBusFeedback =>
    have hset : { w with openLoop := true, sendBusFeedback := true } =
        w.raise ⟨true, true, false⟩ := by
      simp [World.raise]
    exact ensures_startSession hset data
  case startPatStaticPoint =>
    have hstart : w.start .staticPoint = (w.raise ⟨false, false, false⟩).start .staticPoint := by
      simp [World.raise]
    have hoffsets : Runs (Quiet P) (calculateTxOffsets env) := quiet_calculateTxOffsets
    show Ensures (calculateTxOffsets env) _ (w.start .staticPoint)
    exact (hoffsets _).imp fun _ w' h => .inr ⟨_, rfl, hstart ▸ h⟩
  case bcnAlign =>
    have hstart : ({ w with
        phase := .acquisition, bcnAlignment := true, openLoop := true, standby := false } : World) =
        (w.raise ⟨true, false, true⟩).start .acquisition := by
      simp [World.raise, World.start]
    exact .inr ⟨_, rfl, hstart ▸ refl_of (Quiet P) _⟩

/-- A session begins in a phase that is ready. -/
theorem Steerable.start {w : World} (hw : Steerable w) (h : command.prescribes = some flags)
    (henters : command.Enters w phase) : Steerable ((w.raise flags).start phase) where
  steered := hw.steered
  known := hw.known
  ready := by
    have hcalib (henters : phase = .calibration ∨
        phase = .acquisition ∧ w.haveCalibKnowledge = true) :
        phase.Ready ((w.raise flags).start phase) := by
      rcases henters with rfl | ⟨rfl, hknown⟩
      · trivial
      · exact .inl (hw.known hknown)
    cases command <;> cases h
    case startPat => exact hcalib henters
    case startPatOpenLoop => exact hcalib henters
    case startPatBusFeedback => exact hcalib henters
    case startPatOpenLoopBusFeedback => exact hcalib henters
    case startPatStaticPoint =>
      obtain rfl : phase = .staticPoint := henters
      trivial
    case bcnAlign =>
      obtain rfl : phase = .acquisition := henters
      exact .inr (Bool.or_true _)
  aligned := by
    have hflags : flags.bcnAlignment = true → flags.openLoop = true := by
      cases command <;> cases h <;> decide
    intro haligned
    rcases Bool.or_eq_true_iff.mp haligned with haligned | haligned
    · exact Bool.or_eq_true_iff.mpr (.inl (hw.aligned haligned))
    · exact Bool.or_eq_true_iff.mpr (.inr (hflags haligned))

end Start

/-! ## The other commands -/

section Commands

variable {P : Event → Prop} {env : Env}

theorem runs_advances {α : Type} {x : Proc World α} (h : Runs Unsteered x) : Runs Advances x :=
  h.imp fun _ _ => Quiet.advances

theorem advances_txAlign : Runs Advances txAlign := by
  intro w
  unfold txAlign
  rw [Ensures, wp_bind, wp_get]
  split
  · rename_i hw
    exact ensures_of_known (quiet_pointTo _ _) hw
  · exact refl_of Advances w

/-- The calibration spot is moved, and steered to. -/
theorem quiet_move (move : Group → Group) : Runs (Quiet fun e => ¬ e.UsesCamera) (do
    modify fun w : World => { w with calib := move w.calib }
    let w ← get
    emit (.controlOpenLoop w.calib.x w.calib.y)) := by
  refine runs_bind (quiet_modify fun _ => ⟨rfl, rfl, rfl⟩) fun _ => ?_
  exact runs_bind quiet_get fun w => quiet_emit id

theorem advances_updateFsm (move : Group → Group) : Runs Advances (updateFsm move) := by
  intro w
  unfold updateFsm
  rw [Ensures, wp_bind, wp_get]
  split
  · rename_i hw
    exact ensures_of_known (quiet_move move) hw
  · exact refl_of Advances w

theorem advances_calibTest : Runs Advances (calibTest env) := by
  unfold calibTest
  refine runs_bind advances_laser fun on => runs_ite ?_ (runs_pure _)
  intro w
  refine Ensures.bind_trans (calibrationRun_advances env w) fun success w₁ hcalibrated => ?_
  cases success with
  | false => exact advances_of_trace rfl rfl (fun _ htrue => by cases htrue) fun hw => hw.ready
  | true =>
    have hcamera : Extends (fun _ => True) w₁.trace (w₁.trace ++ [.camera]) := .concat trivial
    exact advances_of_calibrated (fun _ => hcalibrated rfl) rfl hcamera

theorem quiet_getImage (data : Bytes) : Runs Unsteered (getImage env data) :=
  runs_bind quiet_get fun _ => runs_bind (quiet_emit id) fun _ => quiet_logImage

theorem advances_calibLaserTest : Runs Advances (calibLaserTest env) := by
  have hround : Runs Advances (calibLaserRound env) := by
    unfold calibLaserRound
    refine runs_bind advances_laser fun on => runs_ite ?_ (runs_pure _)
    refine runs_bind (runs_advances quiet_checkLaserOn) fun seen => runs_ite ?_ (runs_pure _)
    refine runs_bind (runs_advances quiet_logImage) fun _ => ?_
    refine runs_bind advances_laser fun off => runs_ite ?_ (runs_pure _)
    refine runs_bind (runs_advances quiet_checkLaserOff) fun dark => ?_
    exact runs_ite (runs_advances quiet_logImage) (runs_pure _)
  unfold calibLaserTest
  refine runs_bind (runs_advances (quiet_emit id)) fun _ => ?_
  refine runs_bind (runs_advances (quiet_emit id)) fun _ => ?_
  exact runs_bind hround fun _ => hround

theorem advances_fsmTest : Runs Advances (fsmTest env) := by
  unfold fsmTest
  refine runs_bind (runs_advances (quiet_emit id)) fun _ => runs_bind advances_laser fun on => ?_
  exact runs_ite (runs_bind (runs_advances quiet_testFSM) fun _ => runs_pure _) (runs_pure _)

/-! ### Self test -/

theorem advances_selfTestLaserRound : Runs Advances (selfTestLaserRound env) := by
  have hreport (text : String) : Runs Advances (report text) := runs_advances (quiet_report text)
  unfold selfTestLaserRound
  refine runs_bind advances_laser fun on => runs_ite ?_ (hreport _)
  refine runs_bind (runs_advances quiet_checkLaserOn) fun seen => runs_ite ?_ ?_
  · refine runs_bind (runs_advances quiet_logImage) fun _ => ?_
    refine runs_bind advances_laser fun off => runs_ite ?_ (hreport _)
    refine runs_bind (runs_advances quiet_checkLaserOff) fun dark => runs_ite ?_ ?_
    · refine runs_bind (runs_advances quiet_logImage) fun _ => ?_
      exact advances_modify fun _ => ⟨rfl, rfl, rfl, rfl⟩
    · exact runs_bind (hreport _) fun _ => runs_advances quiet_logImage
  · exact runs_bind (hreport _) fun _ => runs_advances quiet_logImage

theorem advances_selfTestLaser : Runs Advances (selfTestLaser env) := by
  have hverdict : Runs Advances (do
      return Verdict.ofBool ((← get).laserTestsPassed = 2) : Proc World Verdict) :=
    runs_bind (runs_advances quiet_get) fun w => runs_pure _
  unfold selfTestLaser
  refine runs_bind (runs_advances (quiet_emit id)) fun _ => ?_
  refine runs_bind advances_laser fun on => runs_ite ?_ ?_
  · refine runs_bind (runs_advances quiet_findExposureRange) fun _ => ?_
    refine runs_bind (runs_advances (quiet_emit id)) fun _ => ?_
    refine runs_bind (advances_modify fun _ => ⟨rfl, rfl, rfl, rfl⟩) fun _ => ?_
    refine runs_bind advances_selfTestLaserRound fun _ => ?_
    exact runs_bind advances_selfTestLaserRound fun _ => hverdict
  · exact runs_bind (runs_advances (quiet_report _)) fun _ => hverdict

theorem advances_selfTestFsm : Runs Advances (selfTestFsm env) := by
  unfold selfTestFsm
  refine runs_bind advances_laser fun on => runs_ite ?_ ?_
  · refine runs_bind (runs_advances quiet_testFSM) fun passed => runs_ite (runs_pure _) ?_
    exact runs_bind (runs_advances (quiet_report _)) fun _ => runs_pure _
  · exact runs_bind (runs_advances (quiet_report _)) fun _ => runs_pure _

theorem advances_checkCalibration : Runs Advances (checkCalibration env) := by
  have hfail (text : String) : Runs Advances (do
      report text
      return Verdict.fail : Proc World Verdict) :=
    runs_bind (runs_advances (quiet_report text)) fun _ => runs_pure _
  unfold checkCalibration
  refine runs_bind (runs_advances quiet_get) fun w => runs_ite (runs_ite ?_ (hfail _)) (hfail _)
  refine runs_bind (runs_advances (quiet_ask _)) fun s => runs_ite ?_ (hfail _)
  refine runs_bind (advances_modify fun _ => ⟨rfl, rfl, rfl, rfl⟩) fun _ => ?_
  exact runs_bind (runs_advances (quiet_report _)) fun _ => runs_pure _

theorem advances_selfTestCalibration : Runs Advances (selfTestCalibration env) := by
  intro w
  unfold selfTestCalibration
  refine Ensures.bind_trans (calibrationRun_advances env w) fun success w₁ hcalibrated => ?_
  cases success with
  | false => exact runs_bind (runs_advances (quiet_report _)) (fun _ => runs_pure _) w₁
  | true =>
    have hcamera : Extends (fun _ => True) w₁.trace (w₁.trace ++ [.camera]) := .concat trivial
    refine advances_checkCalibration.trans ?_
    exact advances_of_calibrated (fun _ => hcalibrated rfl) rfl hcamera

theorem advances_selfTest : Runs Advances (selfTest env) := by
  have hdevices : Runs Advances (selfTestDevices env) := by
    unfold selfTestDevices
    refine runs_bind advances_selfTestLaser fun laser => runs_ite ?_ (runs_pure _)
    refine runs_bind advances_selfTestFsm fun fsm => runs_ite ?_ (runs_pure _)
    exact runs_bind advances_selfTestCalibration fun _ => runs_pure _
  have hothers : Runs Advances (selfTestOthers env) := by
    unfold selfTestOthers
    refine runs_bind (runs_advances quiet_selfTestFpga) fun fpga => ?_
    have hpacket (devices : Verdict × Verdict × Verdict) : Runs Advances (do
        modify fun w => { w with selfTestFailed := w.selfTestFailed || !w.selfTestPassed }
        emit (.selfTest ⟨.pass, fpga, devices.1, devices.2.1, devices.2.2⟩
          (selfTestError env (← get).selfTestStream))) := by
      refine runs_bind (advances_modify fun _ => ⟨rfl, rfl, rfl, rfl⟩) fun _ => ?_
      exact runs_bind (runs_advances quiet_get) fun w => runs_advances (quiet_emit id)
    exact runs_ite (runs_bind hdevices hpacket) (runs_bind (runs_pure _) hpacket)
  unfold selfTest
  refine runs_bind (runs_advances quiet_get) fun w => ?_
  exact runs_ite (runs_bind (runs_advances (quiet_report _)) fun _ => hothers) hothers

/-! ### The switch -/

/-- A window is set, if it is in bounds. -/
theorem quiet_setWindow (p : World → Prop) [DecidablePred p] (window : World → AOI) :
    Runs (Quiet P) (modify fun w => if p w then { w with getImageWindow := window w } else w :
      Proc World Unit) := by
  refine quiet_modify fun w => ?_
  split
  · exact ⟨rfl, rfl, rfl⟩
  · exact ⟨rfl, rfl, rfl⟩

/-- **The other commands keep the modes.** -/
theorem advances_standbyCommand {command : Option Command}
    (hstart : command.bind Command.prescribes = none) (hend : command ≠ some .endProcess)
    (data : Bytes) : Runs Advances (standbyCommand env command data) := by
  unfold standbyCommand
  cases command with
  | none => exact runs_pure _
  | some command =>
    -- a session starts with a command that prescribes its modes, and these are excluded
    cases command with
    | startPat => cases hstart
    | startPatOpenLoop => cases hstart
    | startPatStaticPoint => cases hstart
    | startPatBusFeedback => cases hstart
    | startPatOpenLoopBusFeedback => cases hstart
    | updateTxOffsetX => exact advances_modify fun _ => ⟨rfl, rfl, rfl, rfl⟩
    | updateTxOffsetY => exact advances_modify fun _ => ⟨rfl, rfl, rfl, rfl⟩
    | endPat => exact runs_pure _
    | getImage => exact runs_advances (quiet_getImage data)
    | calibTest => exact advances_calibTest
    | calibLaserTest => exact advances_calibLaserTest
    | fsmTest => exact advances_fsmTest
    | bcnAlign => cases hstart
    | txAlign => exact advances_txAlign
    | updateFsmX => exact advances_updateFsm _
    | updateFsmY => exact advances_updateFsm _
    | selfTest => exact advances_selfTest
    | endProcess => exact absurd rfl hend
    | setBeaconX => exact advances_modify fun _ => ⟨rfl, rfl, rfl, rfl⟩
    | setBeaconY => exact advances_modify fun _ => ⟨rfl, rfl, rfl, rfl⟩
    | setBeaconWindowSize => exact runs_pure _
    | setBeaconMaxExp => exact advances_modify fun _ => ⟨rfl, rfl, rfl, rfl⟩
    | setGetImageCenterX => exact runs_advances (quiet_setWindow _ _)
    | setGetImageCenterY => exact runs_advances (quiet_setWindow _ _)
    | setGetImageWindowWidth => exact runs_advances (quiet_setWindow _ _)
    | setGetImageWindowHeight => exact runs_advances (quiet_setWindow _ _)
    | updatePeriodCalculateTxOffset => exact advances_modify fun _ => ⟨rfl, rfl, rfl, rfl⟩
    | enableDitherTxOffset => exact advances_modify fun _ => ⟨rfl, rfl, rfl, rfl⟩
    | updatePeriodDitherTxOffset => exact advances_modify fun _ => ⟨rfl, rfl, rfl, rfl⟩
    | testBusFeedback => exact runs_advances (quiet_testBusFeedback not_steers_of_idle)

/-- Every command keeps the invariant. -/
theorem develops_standbyCommand (command : Option Command) (data : Bytes) :
    Runs Develops (standbyCommand env command data) := by
  by_cases hend : command = some .endProcess
  · subst hend
    intro w
    exact ⟨.of_eq rfl, fun hw => hw.of_flags rfl hw.steered hw.known hw.ready⟩
  · cases hstart : command.bind Command.prescribes with
    | none =>
      exact (advances_standbyCommand hstart hend data).imp fun _ _ => Advances.toDevelops
    | some flags =>
      obtain ⟨command, rfl, hprescribes⟩ := Option.bind_eq_some_iff.mp hstart
      intro w
      have hspec := ensures_start (P := fun e => ¬ e.Steers) env hprescribes data w
      refine hspec.imp fun _ w' h => ?_
      rcases h with hquiet | ⟨phase, henters, hquiet⟩
      · exact (Quiet.advances hquiet).toDevelops
      · have hadvances := Quiet.advances hquiet
        refine ⟨hadvances.adds, fun hw => hadvances.steerable ?_⟩
        exact hw.start hprescribes henters

end Commands

/-! ## The loops -/

section Loops

variable {env : Env}

theorem runs_develops {α : Type} {x : Proc World α} (h : Runs Unsteered x) : Runs Develops x :=
  h.imp fun _ _ hquiet => hquiet.advances.toDevelops

/-- The process goes on elsewhere. -/
theorem develops_modify {f : World → World} (h : ∀ w, (f w).flags = w.flags ∧
    (f w).knowledge = w.knowledge ∧ (f w).trace = w.trace) :
    Runs Develops (modify f : Proc World Unit) := by
  intro w
  obtain ⟨hflags, hknowledge, htrace⟩ := h w
  have hphase : (f w).phase = w.phase := congrArg Knowledge.phase hknowledge
  have hknown : (f w).haveCalibKnowledge = w.haveCalibKnowledge :=
    congrArg Knowledge.haveCalibKnowledge hknowledge
  refine develops_of_trace hflags htrace (fun hw => ?_) fun hw => ?_
  · rw [hknown]
    exact hw.known
  · rw [hphase]
    exact hw.ready

theorem develops_finish : Runs Develops (finish env) := by
  unfold finish
  refine runs_bind (advances_laser.imp fun _ _ => Advances.toDevelops) fun _ => ?_
  refine runs_bind (runs_develops (quiet_emit id)) fun _ => ?_
  exact develops_modify fun _ => ⟨rfl, rfl, rfl⟩

theorem develops_leaveMain : Runs Develops (leaveMain env) := by
  unfold leaveMain
  refine runs_bind (develops_modify fun _ => ⟨rfl, rfl, rfl⟩) fun _ => ?_
  refine runs_bind (runs_develops quiet_get) fun w => runs_ite ?_ develops_finish
  refine runs_bind (runs_develops (quiet_ask _)) fun stopped => runs_ite develops_finish ?_
  exact develops_modify fun _ => ⟨rfl, rfl, rfl⟩

theorem develops_leaveStandby : Runs Develops (leaveStandby env) := by
  unfold leaveStandby
  refine runs_bind (develops_modify fun _ => ⟨rfl, rfl, rfl⟩) fun _ => ?_
  refine runs_bind (runs_develops quiet_get) fun w => runs_ite ?_ develops_leaveMain
  exact develops_modify fun _ => ⟨rfl, rfl, rfl⟩

theorem develops_leaveCameraInit : Runs Develops (leaveCameraInit env) := by
  unfold leaveCameraInit
  refine runs_bind (runs_develops (quiet_emit id)) fun _ => ?_
  refine runs_bind (runs_develops (quiet_ask _)) fun stopped => runs_ite develops_finish ?_
  refine runs_bind (runs_develops quiet_get) fun w => runs_ite ?_ develops_leaveStandby
  exact develops_modify fun _ => ⟨rfl, rfl, rfl⟩

theorem develops_cameraInitialize : Runs Develops (cameraInitialize env) := by
  unfold cameraInitialize
  refine runs_bind (runs_develops (quiet_ask _)) fun initialized => ?_
  refine runs_bind (runs_develops (quiet_emit id)) fun _ => ?_
  exact develops_modify fun _ => ⟨rfl, rfl, rfl⟩

theorem develops_retryCameraInit : Runs Develops (retryCameraInit env) := by
  unfold retryCameraInit
  refine runs_bind develops_cameraInitialize fun _ => ?_
  refine runs_bind (runs_develops (quiet_ask _)) fun stopped => runs_ite ?_ ?_
  · exact develops_modify fun _ => ⟨rfl, rfl, rfl⟩
  · refine runs_bind (runs_develops quiet_get) fun w => ?_
    exact runs_ite develops_leaveCameraInit (runs_pure _)

theorem develops_cameraInitIteration : Runs Develops (cameraInitIteration env) := by
  unfold cameraInitIteration
  refine runs_bind (runs_develops (quiet_emit id)) fun _ => ?_
  refine runs_bind (runs_develops (quiet_receiveCommand not_steers_of_idle)) fun packet => ?_
  cases packet with
  | none => exact develops_retryCameraInit
  | some packet =>
    dsimp only
    split
    · refine runs_bind (fun w => ?_) fun _ => develops_leaveCameraInit
      exact develops_of_trace rfl rfl (fun hw => hw.known) fun _ => trivial
    · exact runs_bind (runs_develops (quiet_cameraInitSelfTest not_steers_of_idle)) fun _ =>
        develops_retryCameraInit
    · exact develops_modify fun _ => ⟨rfl, rfl, rfl⟩
    · exact develops_retryCameraInit

theorem develops_standbyIteration : Runs Develops (standbyIteration env) := by
  unfold standbyIteration
  refine runs_bind (runs_develops quiet_get) fun w => ?_
  refine runs_bind (runs_develops (quiet_emit id)) fun _ => ?_
  refine runs_bind (runs_develops (quiet_receiveCommand not_steers_of_idle)) fun packet => ?_
  cases packet with
  | none => exact runs_pure _
  | some packet => exact develops_standbyCommand _ _

theorem develops_standbyStep : Runs Develops (standbyStep env) := by
  unfold standbyStep
  refine runs_bind (runs_develops (quiet_ask _)) fun stopped => runs_ite ?_ ?_
  · exact runs_bind (develops_modify fun _ => ⟨rfl, rfl, rfl⟩) fun _ => develops_leaveStandby
  · refine runs_bind develops_standbyIteration fun _ => ?_
    refine runs_bind (runs_develops quiet_get) fun w => ?_
    exact runs_ite develops_leaveStandby (runs_pure _)

/-- An iteration of the main loop keeps the modes. -/
theorem advances_mainIteration : Runs Advances (mainIteration env) := by
  unfold mainIteration
  refine runs_bind (runs_advances (quiet_ask _)) fun stopped => runs_ite ?_ ?_
  · exact runs_bind (advances_modify fun _ => ⟨rfl, rfl, rfl, rfl⟩) fun _ => runs_pure _
  · refine runs_bind (runs_advances (quiet_mainCommand not_steers_of_idle)) fun ended => ?_
    refine runs_ite (runs_pure _) ?_
    refine runs_bind (runs_advances quiet_acquisitionCommand) fun ended => ?_
    refine runs_ite (runs_pure _) ?_
    refine runs_bind (runs_advances (quiet_heartbeat not_steers_of_idle)) fun _ => ?_
    refine runs_bind (runs_advances quiet_updateTxOffsets) fun _ => ?_
    refine runs_bind advances_runPhase fun _ => ?_
    exact runs_bind (runs_advances quiet_get) fun w => runs_pure _

/-- **An iteration keeps the invariant.** -/
theorem develops_iteration : Runs Develops (iteration env) := by
  intro w
  unfold iteration
  rw [Ensures, wp_bind, wp_get]
  cases w.place with
  | cameraInit => exact develops_cameraInitIteration w
  | standby => exact develops_standbyStep w
  | main =>
    have hmain : Runs Develops (mainStep env) := by
      unfold mainStep
      refine runs_bind (advances_mainIteration.imp fun _ _ => Advances.toDevelops) fun ended => ?_
      exact runs_ite develops_leaveMain (runs_pure _)
    exact hmain w
  | ended => exact refl_of Develops w

theorem develops_boot : Runs Develops (boot env) := by
  have hrest : Runs Develops (do
      calculateTxOffsets env
      cameraInitialize env
      if (← get).cameraInitialized then leaveCameraInit env) := by
    refine runs_bind (runs_develops quiet_calculateTxOffsets) fun _ => ?_
    refine runs_bind develops_cameraInitialize fun _ => ?_
    refine runs_bind (runs_develops quiet_get) fun w => ?_
    exact runs_ite develops_leaveCameraInit (runs_pure _)
  unfold boot
  cases env.offsetParams with
  | none => exact hrest
  | some params => exact runs_bind (develops_modify fun _ => ⟨rfl, rfl, rfl⟩) fun _ => hrest

end Loops

/-! ## Runs -/

theorem steerable_state (env : Env) (n : ℕ) : Steerable (state env n) := by
  induction n with
  | zero =>
    have hinit : Steerable {} := ⟨.nil, (by cases ·), trivial, (by cases ·)⟩
    exact (Proc.after_of_ensures (develops_boot _)).steerable hinit
  | succ n ih => exact (Proc.after_of_ensures (develops_iteration _)).steerable ih

/-- **The process only steers behind a successful calibration**, which has calculated the
parameters. -/
theorem steered_state (env : Env) (n : ℕ) :
    Preceded Event.Steers [.parameters, .calibrationRun true] (state env n).trace :=
  (steerable_state env n).steered

end ClickA.Pat
