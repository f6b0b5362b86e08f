import ClickA.Pat.Sessions

/-!
# The camera

A camera that was never initialized has no configuration to dereference. The loop that initializes
it can be left by a session in static pointing, and behind that the process comes to the standby
loop, whose commands do not check the camera.

## Main definitions

* `NeedsCamera`: what a step gets makes it use the camera
* `Spares`: between two states, the camera is not used

## Main results

* `spares_iteration`: a step that does not need the camera does not use it
* `guarded_of_spared`: **a camera that was not initialized is not used**, where no step needs it
* `not_guarded_getImage`: `CMD_GET_IMAGE` behind a session in static pointing uses it
-/

namespace ClickA.Pat

open Python (Bytes Ensures Runs runs_bind runs_pure runs_ite wp_bind wp_get wp_modify)
open Stream (Extends Preceded)

/-! ## Steps that need the camera -/

/-- The command that the next poll receives. -/
def nextCommand (env : Env) (w : World) : Option Command :=
  (env.message w.polls).bind fun message =>
    Command.ofCode (receivePacketPatControl (env.garbage w.polls) message).1

/-- A command of the standby loop needs the camera. The tests of the calibration and the self test
first switch the laser on, and the self test asks the FPGA before that. -/
def Command.NeedsCamera (env : Env) (w : World) : Command → Prop
  | .getImage | .calibLaserTest | .fsmTest => True
  | .calibTest => env.laser w.lasers = true
  | .selfTest => env.fpgaComms w.comms = true ∧ env.laser w.lasers = true
  | _ => False

/-- A phase needs the camera, when the laser is switched. -/
def Phase.NeedsCamera : Phase → Prop
  | .clInit | .staticPoint => False
  | _ => True

/-- A step needs the camera: the standby loop receives a command that does, or an iteration of the
main loop comes to such a phase. -/
def NeedsCamera (env : Env) (w : World) : Prop :=
  match w.place with
  | .standby => env.stop w.time = false ∧
      ∃ command, nextCommand env w = some command ∧ command.NeedsCamera env w
  | .main => env.stop w.time = false ∧ nextCommand env w ≠ some .endPat ∧
      nextCommand env w ≠ some .endProcess ∧ w.receivedEndPatCmd = false ∧
      w.receivedEndProcessCmd = false ∧ w.phase.NeedsCamera ∧ env.laser w.lasers = true
  | .cameraInit | .ended => False

/-! ## Statements that spare the camera -/

/-- The camera is not used between two states, and no laser test has passed. -/
structure Spares (w w' : World) : Prop where
  adds : Extends (fun e => ¬ e.UsesCamera) w.trace w'.trace
  laserTestsPassed : w'.laserTestsPassed = w.laserTestsPassed

instance : Std.Refl Spares := ⟨fun _ => ⟨.of_eq rfl, rfl⟩⟩

instance : IsTrans World Spares := ⟨fun _ _ _ h h' =>
  ⟨h.adds.trans h'.adds, h'.laserTestsPassed.trans h.laserTestsPassed⟩⟩

theorem not_usesCamera_of_idle (e : Event) (h : e.Idle) : ¬ e.UsesCamera := h.2

section Statements

variable {α : Type} {env : Env} {w w' : World} {x : Proc World α}

theorem Quiet.spares (h : Quiet (fun e => ¬ e.UsesCamera) w w') : Spares w w' :=
  ⟨h.adds, h.laserTestsPassed⟩

theorem runs_spares (h : Runs (Quiet fun e => ¬ e.UsesCamera) x) : Runs Spares x :=
  h.imp fun _ _ => Quiet.spares

theorem spares_modify {f : World → World} (h : ∀ w, (f w).trace = w.trace ∧
    (f w).laserTestsPassed = w.laserTestsPassed) :
    Runs Spares (modify f : Proc World Unit) := by
  intro w
  obtain ⟨htrace, htests⟩ := h w
  exact ⟨.of_eq htrace, htests⟩

theorem spares_emit {e : Event} (h : ¬ e.UsesCamera) : Runs Spares (emit e) :=
  runs_spares (quiet_emit h)

theorem spares_laser : Runs Spares (laser env) := fun _ => ⟨.of_eq rfl, rfl⟩

/-- The laser is not switched, and the statement goes on without it. -/
theorem spares_unlit {f : Bool → Proc World α} (hlaser : env.laser w.lasers = false)
    (hf : Runs Spares (f false)) : Ensures (laser env >>= f) (fun _ w' => Spares w w') w := by
  rw [Ensures, wp_bind]
  show Ensures (f (env.laser w.lasers)) _ { w with lasers := w.lasers + 1 }
  rw [hlaser]
  exact hf.trans ⟨.of_eq rfl, rfl⟩

/-! ### The phases -/

theorem spares_checkBeaconLoss : Runs Spares (checkBeaconLoss env) := by
  unfold checkBeaconLoss
  refine runs_bind (runs_spares quiet_get) fun w => runs_ite ?_ (runs_pure _)
  refine runs_bind (runs_spares (quiet_ask _)) fun now => ?_
  refine runs_bind (runs_spares quiet_get) fun w => runs_ite ?_ (runs_pure _)
  exact spares_modify fun _ => ⟨rfl, rfl⟩

theorem spares_loseCalib : Runs Spares (loseCalib env) := by
  unfold loseCalib
  refine runs_bind (runs_spares quiet_get) fun w => runs_ite ?_ (runs_pure _)
  exact runs_bind (runs_spares (quiet_ask _)) fun now => spares_modify fun _ => ⟨rfl, rfl⟩

theorem spares_staticPointPhase : Runs Spares (staticPointPhase env) := by
  have hpointed : Runs Spares (modify fun w => { w with
      staticPointingInitialized := true } : Proc World Unit) :=
    spares_modify fun _ => ⟨rfl, rfl⟩
  unfold staticPointPhase
  refine runs_bind (runs_spares quiet_get) fun w => runs_ite ?_ (runs_ite ?_ (runs_pure _))
  · refine runs_ite ?_ ?_
    · exact runs_bind (runs_spares quiet_pointAtStatic) fun _ => hpointed
    · exact runs_bind (spares_emit id) fun _ => hpointed
  · exact runs_spares (quiet_dither quiet_pointAtStatic)

/-- **A phase spares the camera**, if it does not need it or the laser is not switched. -/
theorem spares_runPhase (h : w.phase.NeedsCamera → env.laser w.lasers = false) :
    Ensures (runPhase env) (fun _ w' => Spares w w') w := by
  have hphases (phase : Phase) {w : World}
      (h : phase.NeedsCamera → env.laser w.lasers = false) :
      Ensures (phase.statements env) (fun _ w' => Spares w w') w := by
    cases phase with
    | calibration =>
      refine spares_unlit (h trivial) ?_
      exact spares_modify fun _ => ⟨rfl, rfl⟩
    | acquisition =>
      refine spares_unlit (h trivial) ?_
      exact spares_modify fun _ => ⟨rfl, rfl⟩
    | clInit => exact ⟨.of_eq rfl, rfl⟩
    | clBeacon =>
      refine spares_unlit (h trivial) ?_
      refine runs_bind (runs_spares quiet_loseBeacon) fun _ => ?_
      exact runs_bind (spares_modify fun _ => ⟨rfl, rfl⟩) fun _ => spares_checkBeaconLoss
    | clCalib =>
      refine spares_unlit (h trivial) ?_
      refine runs_bind spares_loseCalib fun _ => ?_
      refine runs_bind (spares_modify fun _ => ⟨rfl, rfl⟩) fun _ => ?_
      refine runs_bind (runs_spares quiet_get) fun w => runs_ite ?_ (runs_pure _)
      refine runs_bind (runs_spares (quiet_ask _)) fun now => ?_
      refine runs_bind (runs_spares quiet_get) fun w => runs_ite ?_ (runs_pure _)
      exact spares_modify fun _ => ⟨rfl, rfl⟩
    | openLoop =>
      refine spares_unlit (h trivial) ?_
      exact runs_bind (runs_spares quiet_loseBeacon) fun _ => spares_checkBeaconLoss
    | staticPoint => exact spares_staticPointPhase w
  have hphase : Spares w { w with trace := w.trace ++ [.phase w.phase] } := ⟨.concat id, rfl⟩
  have hspares := @hphases w.phase { w with trace := w.trace ++ [.phase w.phase] } h
  exact (ensures_runPhase_iff env).mpr (hspares.imp fun _ w' h' => trans_of Spares hphase h')

/-! ### The self test -/

/-- The verdict on the FPGA is what the FPGA answers. -/
theorem ensures_selfTestFpga (env : Env) (w : World) :
    Ensures (selfTestFpga env) (fun verdict w' => Spares w w' ∧ w'.lasers = w.lasers ∧
      (verdict = .pass → env.fpgaComms w.comms = true)) w := by
  unfold selfTestFpga
  rw [Ensures, wp_bind]
  show Ensures (if env.fpgaComms w.comms = true then _ else _) _ { w with comms := w.comms + 1 }
  split
  · rename_i hpassed
    exact ⟨⟨.of_eq rfl, rfl⟩, rfl, fun _ => hpassed⟩
  · exact ⟨⟨.of_eq rfl, rfl⟩, rfl, fun hfalse => by cases hfalse⟩

/-- Where the laser is not switched, and no test has passed before, the laser test does not pass. -/
theorem spares_selfTestLaser (hlaser : env.laser w.lasers = false)
    (htests : w.laserTestsPassed = 0) :
    Ensures (selfTestLaser env) (fun verdict w' => Spares w w' ∧ verdict = .fail) w := by
  unfold selfTestLaser
  rw [Ensures, wp_bind, emit, wp_modify, laser, wp_bind]
  show Python.Wp (if env.laser w.lasers = true then _ else _) _ _
    { w with trace := w.trace ++ [Event.setNormalizedAngles 0 0], lasers := w.lasers + 1 }
  rw [hlaser, if_neg Bool.false_ne_true]
  refine ⟨⟨.concat id, rfl⟩, ?_⟩
  show Verdict.ofBool (decide (w.laserTestsPassed = 2)) = .fail
  rw [htests]
  rfl

theorem spares_selfTest (h : ¬ Command.selfTest.NeedsCamera env w)
    (htests : w.laserTestsPassed = 0) :
    Ensures (selfTest env) (fun _ w' => Spares w w') w := by
  have hothers {w : World} (h : ¬ Command.selfTest.NeedsCamera env w)
      (htests : w.laserTestsPassed = 0) :
      Ensures (selfTestOthers env) (fun _ w' => Spares w w') w := by
    have hpacket (fpga : Verdict) (devices : Verdict × Verdict × Verdict) : Runs Spares (do
        modify fun w => { w with selfTestFailed := w.selfTestFailed || !w.selfTestPassed }
        emit (.selfTest ⟨.pass, fpga, devices.1, devices.2.1, devices.2.2⟩
          (selfTestError env (← get).selfTestStream))) := by
      refine runs_bind (spares_modify fun _ => ⟨rfl, rfl⟩) fun _ => ?_
      exact runs_bind (runs_spares quiet_get) fun w => spares_emit id
    unfold selfTestOthers
    refine (ensures_selfTestFpga env w).bind ?_
    rintro fpga w₁ ⟨h₁, hlasers, hpassed⟩
    dsimp only
    split
    · rename_i hpass
      have hlaser : env.laser w₁.lasers = false := by
        rw [hlasers]
        exact Bool.eq_false_iff.mpr fun hlaser => h ⟨hpassed hpass.2, hlaser⟩
      have hdevices : Ensures (selfTestDevices env) (fun _ w' => Spares w₁ w') w₁ := by
        unfold selfTestDevices
        refine (spares_selfTestLaser hlaser (h₁.laserTestsPassed.trans htests)).bind ?_
        rintro verdict w₂ ⟨h₂, rfl⟩
        exact h₂
      exact hdevices.bind fun devices w₂ h₂ => (hpacket fpga devices).trans (trans_of Spares h₁ h₂)
    · exact (hpacket fpga _).trans h₁
  unfold selfTest
  rw [Ensures, wp_bind, wp_get]
  dsimp only
  split
  · rw [wp_bind, report, wp_modify]
    have hafter :=
      @hothers { w with selfTestStream := w.selfTestStream ++ "Camera Fault\n" } h htests
    exact hafter.imp fun _ _ h' => ⟨h'.adds, h'.laserTestsPassed⟩
  · exact hothers h htests

end Statements

/-! ## The standby loop -/

section Standby

variable {env : Env} {w : World}

theorem quiet_txAlign : Runs (Quiet fun e => ¬ e.UsesCamera) txAlign :=
  runs_bind quiet_get fun _ => runs_ite (quiet_pointTo _ _) (runs_pure _)

theorem quiet_updateFsm (move : Group → Group) :
    Runs (Quiet fun e => ¬ e.UsesCamera) (updateFsm move) :=
  runs_bind quiet_get fun _ => runs_ite (quiet_move move) (runs_pure _)

/-- **A command of the standby loop spares the camera**, if it does not need it. -/
theorem spares_standbyCommand {command : Option Command}
    (h : ∀ c, command = some c → ¬ c.NeedsCamera env w) (htests : w.laserTestsPassed = 0)
    (data : Bytes) : Ensures (standbyCommand env command data) (fun _ w' => Spares w w') w := by
  cases hstart : command.bind Command.prescribes with
  | some flags =>
    obtain ⟨command, rfl, hprescribes⟩ := Option.bind_eq_some_iff.mp hstart
    have hspec := ensures_start (P := fun _ => False) env hprescribes data w
    refine hspec.imp fun _ w' h => ?_
    rcases h with hquiet | ⟨phase, -, hquiet⟩
    · exact (hquiet.mono fun _ => False.elim).spares
    · have hspares := (hquiet.mono fun _ => False.elim).spares
      exact ⟨hspares.adds, hspares.laserTestsPassed⟩
  | none =>
    have hset {f : World → World} (hf : ∀ w, (f w).trace = w.trace ∧
        (f w).laserTestsPassed = w.laserTestsPassed) :
        Ensures (modify f : Proc World Unit) (fun _ w' => Spares w w') w := spares_modify hf w
    have hrun {x : Proc World Unit} (hx : Runs (Quiet fun e => ¬ e.UsesCamera) x) :
        Ensures x (fun _ w' => Spares w w') w := runs_spares hx w
    unfold standbyCommand
    cases command with
    | none => exact refl_of Spares w
    | some command =>
      have hneeds := h command rfl
      cases command with
      | startPat => cases hstart
      | startPatOpenLoop => cases hstart
      | startPatStaticPoint => cases hstart
      | startPatBusFeedback => cases hstart
      | startPatOpenLoopBusFeedback => cases hstart
      | updateTxOffsetX => exact hset fun _ => ⟨rfl, rfl⟩
      | updateTxOffsetY => exact hset fun _ => ⟨rfl, rfl⟩
      | endPat => exact refl_of Spares w
      | getImage => exact absurd trivial hneeds
      | calibTest =>
        exact spares_unlit (Bool.eq_false_iff.mpr hneeds) (runs_pure _)
      | calibLaserTest => exact absurd trivial hneeds
      | fsmTest => exact absurd trivial hneeds
      | bcnAlign => cases hstart
      | txAlign => exact hrun quiet_txAlign
      | updateFsmX => exact hrun (quiet_updateFsm _)
      | updateFsmY => exact hrun (quiet_updateFsm _)
      | selfTest => exact spares_selfTest hneeds htests
      | endProcess => exact hset fun _ => ⟨rfl, rfl⟩
      | setBeaconX => exact hset fun _ => ⟨rfl, rfl⟩
      | setBeaconY => exact hset fun _ => ⟨rfl, rfl⟩
      | setBeaconWindowSize => exact refl_of Spares w
      | setBeaconMaxExp => exact hset fun _ => ⟨rfl, rfl⟩
      | setGetImageCenterX => exact hrun (quiet_setWindow _ _)
      | setGetImageCenterY => exact hrun (quiet_setWindow _ _)
      | setGetImageWindowWidth => exact hrun (quiet_setWindow _ _)
      | setGetImageWindowHeight => exact hrun (quiet_setWindow _ _)
      | updatePeriodCalculateTxOffset => exact hset fun _ => ⟨rfl, rfl⟩
      | enableDitherTxOffset => exact hset fun _ => ⟨rfl, rfl⟩
      | updatePeriodDitherTxOffset => exact hset fun _ => ⟨rfl, rfl⟩
      | testBusFeedback => exact hrun (quiet_testBusFeedback not_usesCamera_of_idle)

end Standby

/-! ## The loops -/

section Loops

variable {env : Env} {w : World}

theorem spares_finish : Runs Spares (finish env) := by
  unfold finish
  refine runs_bind spares_laser fun _ => runs_bind (spares_emit id) fun _ => ?_
  exact spares_modify fun _ => ⟨rfl, rfl⟩

theorem spares_leaveMain : Runs Spares (leaveMain env) := by
  unfold leaveMain
  refine runs_bind (spares_modify fun _ => ⟨rfl, rfl⟩) fun _ => ?_
  refine runs_bind (runs_spares quiet_get) fun w => runs_ite ?_ spares_finish
  refine runs_bind (runs_spares (quiet_ask _)) fun stopped => runs_ite spares_finish ?_
  exact spares_modify fun _ => ⟨rfl, rfl⟩

theorem spares_leaveStandby : Runs Spares (leaveStandby env) := by
  unfold leaveStandby
  refine runs_bind (spares_modify fun _ => ⟨rfl, rfl⟩) fun _ => ?_
  refine runs_bind (runs_spares quiet_get) fun w => runs_ite ?_ spares_leaveMain
  exact spares_modify fun _ => ⟨rfl, rfl⟩

theorem spares_leaveCameraInit : Runs Spares (leaveCameraInit env) := by
  unfold leaveCameraInit
  refine runs_bind (spares_emit id) fun _ => ?_
  refine runs_bind (runs_spares (quiet_ask _)) fun stopped => runs_ite spares_finish ?_
  refine runs_bind (runs_spares quiet_get) fun w => runs_ite ?_ spares_leaveStandby
  exact spares_modify fun _ => ⟨rfl, rfl⟩

theorem spares_cameraInitialize : Runs Spares (cameraInitialize env) := by
  unfold cameraInitialize
  refine runs_bind (runs_spares (quiet_ask _)) fun initialized => ?_
  refine runs_bind (spares_emit id) fun _ => ?_
  exact spares_modify fun _ => ⟨rfl, rfl⟩

/-- The loop that initializes the camera does not use it. -/
theorem spares_cameraInitIteration : Runs Spares (cameraInitIteration env) := by
  have hretry : Runs Spares (retryCameraInit env) := by
    unfold retryCameraInit
    refine runs_bind spares_cameraInitialize fun _ => ?_
    refine runs_bind (runs_spares (quiet_ask _)) fun stopped => runs_ite ?_ ?_
    · exact spares_modify fun _ => ⟨rfl, rfl⟩
    · refine runs_bind (runs_spares quiet_get) fun w => ?_
      exact runs_ite spares_leaveCameraInit (runs_pure _)
  unfold cameraInitIteration
  refine runs_bind (spares_emit id) fun _ => ?_
  refine runs_bind (runs_spares (quiet_receiveCommand not_usesCamera_of_idle)) fun packet => ?_
  cases packet with
  | none => exact hretry
  | some packet =>
    dsimp only
    split
    · exact runs_bind (spares_modify fun _ => ⟨rfl, rfl⟩) fun _ => spares_leaveCameraInit
    · refine runs_bind (runs_spares ?_) fun _ => hretry
      exact quiet_cameraInitSelfTest not_usesCamera_of_idle
    · exact spares_modify fun _ => ⟨rfl, rfl⟩
    · exact hretry

/-- What a poll receives is the next command. -/
theorem ensures_nextCommand (env : Env) (w : World) :
    Ensures (receiveCommand env) (fun packet w' => Spares w w' ∧ w'.lasers = w.lasers ∧
      w'.comms = w.comms ∧ w'.receivedEndPatCmd = w.receivedEndPatCmd ∧
      w'.receivedEndProcessCmd = w.receivedEndProcessCmd ∧
      packet.bind (fun packet => Command.ofCode packet.1) = nextCommand env w) w := by
  unfold receiveCommand nextCommand
  rw [Ensures, wp_bind, wp_get, wp_bind, wp_modify]
  cases env.message w.polls with
  | none => exact ⟨⟨.of_eq rfl, rfl⟩, rfl, rfl, rfl, rfl, rfl⟩
  | some message => exact ⟨⟨.concat id, rfl⟩, rfl, rfl, rfl, rfl, rfl⟩

theorem Command.needsCamera_congr {w' : World} (hlasers : w'.lasers = w.lasers)
    (hcomms : w'.comms = w.comms) (command : Command) :
    command.NeedsCamera env w' ↔ command.NeedsCamera env w := by
  unfold Command.NeedsCamera
  rw [hlasers, hcomms]

/-- An iteration of the standby loop spares the camera, if its command does not need it. -/
theorem spares_standbyIteration
    (h : ∀ command, nextCommand env w = some command → ¬ command.NeedsCamera env w)
    (htests : w.laserTestsPassed = 0) :
    Ensures (standbyIteration env) (fun _ w' => Spares w w') w := by
  have hstatus : Spares w { w with trace := w.trace ++ [.status (standbyStatus w)] } :=
    ⟨.concat id, rfl⟩
  unfold standbyIteration
  rw [Ensures, wp_bind, wp_get, wp_bind, emit, wp_modify]
  refine (ensures_nextCommand env _).bind ?_
  rintro packet w₁ ⟨h₁, hlasers, hcomms, -, -, hnext⟩
  have h₁ := trans_of Spares hstatus h₁
  cases packet with
  | none => exact h₁
  | some packet =>
    have hneeds (command : Command) (hcommand : Command.ofCode packet.1 = some command) :
        ¬ command.NeedsCamera env w₁ := by
      rw [Command.needsCamera_congr hlasers hcomms]
      exact h command (hnext.symm.trans hcommand)
    refine (spares_standbyCommand hneeds (h₁.laserTestsPassed.trans htests) packet.2).imp ?_
    exact fun _ w₂ h₂ => trans_of Spares h₁ h₂

theorem spares_standbyStep (hplace : w.place = .standby) (h : ¬ NeedsCamera env w)
    (htests : w.laserTestsPassed = 0) :
    Ensures (standbyStep env) (fun _ w' => Spares w w') w := by
  unfold NeedsCamera at h
  rw [hplace] at h
  have htime : Spares w { w with time := w.time + 1 } := ⟨.of_eq rfl, rfl⟩
  unfold standbyStep
  rw [Ensures, wp_bind]
  show Ensures (if env.stop w.time = true then _ else _) _ { w with time := w.time + 1 }
  split
  · refine Runs.trans ?_ htime
    exact runs_bind (spares_modify fun _ => ⟨rfl, rfl⟩) fun _ => spares_leaveStandby
  · rename_i hstop
    have hcommand (command : Command) (hnext : nextCommand env w = some command) :
        ¬ command.NeedsCamera env w :=
      fun hneeds => h ⟨Bool.eq_false_iff.mpr hstop, command, hnext, hneeds⟩
    have hiteration := @spares_standbyIteration env { w with time := w.time + 1 } hcommand htests
    refine hiteration.bind fun _ w₁ h₁ => ?_
    refine Runs.trans ?_ (trans_of Spares htime h₁)
    exact runs_bind (runs_spares quiet_get) fun w => runs_ite spares_leaveStandby (runs_pure _)

/-- The command of an iteration of the main loop: if it does not end the loop, it is not one that
does. -/
theorem ensures_mainCommand (env : Env) (w : World) :
    Ensures (mainCommand env) (fun ended w' => Quiet Event.Idle w w' ∧
      w'.receivedEndPatCmd = w.receivedEndPatCmd ∧
      w'.receivedEndProcessCmd = w.receivedEndProcessCmd ∧ (ended = false →
        nextCommand env w ≠ some .endPat ∧ nextCommand env w ≠ some .endProcess)) w := by
  refine Ensures.and (quiet_mainCommand (fun _ => id) w) ?_
  unfold mainCommand
  refine (ensures_nextCommand env w).bind ?_
  rintro packet w₁ ⟨-, -, -, hendPat, hendProcess, hnext⟩
  cases packet with
  | none =>
    rw [← hnext]
    exact ⟨hendPat, hendProcess, fun _ => ⟨(by cases ·), (by cases ·)⟩⟩
  | some packet =>
    obtain ⟨code, data⟩ := packet
    have hnext : Command.ofCode code = nextCommand env w := hnext
    rw [← hnext]
    dsimp only
    generalize Command.ofCode code = command
    split
    · exact ⟨hendPat, hendProcess, (by cases ·)⟩
    · exact ⟨hendPat, hendProcess, (by cases ·)⟩
    · exact ⟨hendPat, hendProcess, fun _ => ⟨(by cases ·), (by cases ·)⟩⟩
    · exact ⟨hendPat, hendProcess, fun _ => ⟨(by cases ·), (by cases ·)⟩⟩
    · rename_i hnotEndPat hnotEndProcess _ _
      exact ⟨hendPat, hendProcess, fun _ => ⟨hnotEndPat, hnotEndProcess⟩⟩

/-- A command that an acquisition received ends the loop. -/
theorem ensures_acquisitionCommand (w : World) :
    Ensures acquisitionCommand (fun ended w' => Quiet Event.Idle w w' ∧ (ended = false →
      w.receivedEndPatCmd = false ∧ w.receivedEndProcessCmd = false)) w := by
  refine Ensures.and (quiet_acquisitionCommand w) ?_
  unfold acquisitionCommand
  rw [Ensures, wp_bind, wp_get]
  split
  · exact (by cases ·)
  · rename_i hendPat
    split
    · exact (by cases ·)
    · rename_i hendProcess
      exact fun _ => ⟨Bool.eq_false_iff.mpr hendPat, Bool.eq_false_iff.mpr hendProcess⟩

/-- An iteration of the main loop spares the camera, if it does not need it. -/
theorem spares_mainIteration (hplace : w.place = .main) (h : ¬ NeedsCamera env w) :
    Ensures (mainIteration env) (fun _ w' => Spares w w') w := by
  unfold NeedsCamera at h
  rw [hplace] at h
  have hspares {w w' : World} (hidle : Quiet Event.Idle w w') : Spares w w' :=
    (hidle.mono not_usesCamera_of_idle).spares
  have hidle {α : Type} {x : Proc World α} (hx : Runs (Quiet Event.Idle) x) {w₁ : World}
      (h₁ : Quiet Event.Idle w w₁) : Ensures x (fun _ w₂ => Quiet Event.Idle w w₂) w₁ :=
    hx.trans h₁
  have htime : Quiet Event.Idle w { w with time := w.time + 1 } := ⟨rfl, rfl, .of_eq rfl⟩
  unfold mainIteration
  rw [Ensures, wp_bind]
  show Ensures (if env.stop w.time = true then _ else _) _ { w with time := w.time + 1 }
  split
  · refine Runs.trans ?_ (hspares htime)
    exact runs_bind (spares_modify fun _ => ⟨rfl, rfl⟩) fun _ => runs_pure _
  · rename_i hstop
    refine (ensures_mainCommand env _).bind ?_
    rintro ended w₁ ⟨h₁, hendPat, hendProcess, hcommand⟩
    have h₁ := htime.trans h₁
    cases ended with
    | true => exact hspares h₁
    | false =>
      refine (ensures_acquisitionCommand w₁).bind ?_
      rintro ended w₂ ⟨h₂, hreceived⟩
      have h₂ := h₁.trans h₂
      cases ended with
      | true => exact hspares h₂
      | false =>
        refine (hidle (quiet_heartbeat fun _ => id) h₂).bind fun _ w₃ h₃ => ?_
        refine (hidle quiet_updateTxOffsets h₃).bind fun _ w₄ h₄ => ?_
        have hunlit (hneeds : w₄.phase.NeedsCamera) : env.laser w₄.lasers = false := by
          rw [h₄.phase] at hneeds
          rw [h₄.lasers]
          refine Bool.eq_false_iff.mpr fun hlaser => h ?_
          obtain ⟨hnotEndPat, hnotEndProcess⟩ := hcommand rfl
          obtain ⟨hreceivedPat, hreceivedProcess⟩ := hreceived rfl
          exact ⟨Bool.eq_false_iff.mpr hstop, hnotEndPat, hnotEndProcess,
            hendPat.symm.trans hreceivedPat, hendProcess.symm.trans hreceivedProcess, hneeds,
                hlaser⟩
        refine (spares_runPhase hunlit).bind fun _ w₅ h₅ => ?_
        exact trans_of Spares (hspares h₄) h₅

/-- **A step that does not need the camera does not use it.** -/
theorem spares_iteration (h : ¬ NeedsCamera env w) (htests : w.laserTestsPassed = 0) :
    Ensures (iteration env) (fun _ w' => Spares w w') w := by
  unfold iteration
  rw [Ensures, wp_bind, wp_get]
  cases hplace : w.place with
  | cameraInit => exact spares_cameraInitIteration w
  | standby => exact spares_standbyStep hplace h htests
  | main =>
    refine (spares_mainIteration hplace h).bind fun ended w₁ h₁ => ?_
    exact (runs_ite spares_leaveMain (runs_pure _)).trans h₁
  | ended => exact refl_of Spares w

theorem spares_boot : Runs Spares (boot env) := by
  have hrest : Runs Spares (do
      calculateTxOffsets env
      cameraInitialize env
      if (← get).cameraInitialized then leaveCameraInit env) := by
    refine runs_bind (runs_spares quiet_calculateTxOffsets) fun _ => ?_
    refine runs_bind spares_cameraInitialize fun _ => ?_
    refine runs_bind (runs_spares quiet_get) fun w => ?_
    exact runs_ite spares_leaveCameraInit (runs_pure _)
  unfold boot
  cases env.offsetParams with
  | none => exact hrest
  | some params => exact runs_bind (spares_modify fun _ => ⟨rfl, rfl⟩) fun _ => hrest

end Loops

/-! ## Runs -/

section States

variable {env : Env}

/-- Where the camera was not initialized, it was not used, and no laser test has passed. -/
structure Guarded (w : World) : Prop where
  preceded : Preceded Event.UsesCamera [.cameraInitialize true] w.trace
  untested : .cameraInitialize true ∉ w.trace → w.laserTestsPassed = 0

theorem Guarded.spares {w w' : World} (h : Guarded w) (hspares : Spares w w') : Guarded w' where
  preceded := h.preceded.extends hspares.adds
  untested hnot := by
    rw [hspares.laserTestsPassed]
    exact h.untested fun hmem => hnot (hspares.adds.subset hmem)

/-- **A camera that was not initialized is not used**, in a run where no step before its
initialization needs it. -/
theorem guarded_of_spared (env : Env)
    (h : ∀ n, .cameraInitialize true ∉ (state env n).trace → ¬ NeedsCamera env (state env n))
    (n : ℕ) : Preceded Event.UsesCamera [.cameraInitialize true] (state env n).trace := by
  have hguarded : Guarded (state env n) := by
    induction n with
    | zero =>
      have hinit : Guarded {} := ⟨.nil, fun _ => rfl⟩
      exact hinit.spares (Proc.after_of_ensures (spares_boot _))
    | succ n ih =>
      by_cases hmem : .cameraInitialize true ∈ (state env n).trace
      · have hadds := (Proc.after_of_ensures (@develops_iteration env (state env n))).adds
        have hrequired : [.cameraInitialize true] ⊆ (state env n).trace :=
          List.cons_subset.mpr ⟨hmem, List.nil_subset _⟩
        exact ⟨ih.preceded.extends_of_subset hrequired hadds, fun hnot =>
          absurd (hadds.subset hmem) hnot⟩
      · exact ih.spares (Proc.after_of_ensures (spares_iteration (h n hmem) (ih.untested hmem)))
  exact hguarded.preceded

theorem not_needsCamera_of_static {w : World} (hplace : w.place = .main)
    (hphase : w.phase = .staticPoint) : ¬ NeedsCamera env w := by
  unfold NeedsCamera
  rw [hplace]
  rintro ⟨-, -, -, -, -, hneeds, -⟩
  rw [hphase] at hneeds
  exact hneeds

/-- A session in static pointing does not need the camera. -/
theorem not_needsCamera_of_ended (hzero : (state env 0).place = .cameraInit)
    (hplace : (state env 1).place = .main) (hphase : (state env 1).phase = .staticPoint)
    (hended : (state env 2).place = .ended) (n : ℕ) : ¬ NeedsCamera env (state env n) := by
  match n with
  | 0 =>
    unfold NeedsCamera
    rw [hzero]
    exact id
  | 1 => exact not_needsCamera_of_static hplace hphase
  | n + 2 =>
    unfold NeedsCamera
    rw [ended_of_le hended (Nat.le_add_left 2 n)]
    exact id

theorem guarded_staticPoint : Preceded Event.UsesCamera [.cameraInitialize true]
    (state (commanded false [controlPacket 0x02 [], controlPacket 0x11 []]) 2).trace := by
  refine guarded_of_spared _ (fun n _ => not_needsCamera_of_ended ?_ ?_ ?_ ?_ n) 2
  · decide +kernel
  · decide +kernel
  · decide +kernel
  · decide +kernel

instance : DecidablePred Event.UsesCamera
  | .camera | .getImage _ _ => .isTrue trivial
  | .command _ | .cameraInitialize _ | .parameters | .calibrationRun _ | .controlOpenLoop _ _
  | .control _ _ _ _ | .setNormalizedAngles _ _ | .phase _ | .status _ | .selfTest _ _
  | .txAdcs _ => .isFalse id

/-- The result of `Camera::initialize`. -/
def Event.initialized : Event → Bool
  | .cameraInitialize initialized => initialized
  | _ => false

theorem not_preceded_of_uses {trace : List Event} (huses : ∃ e ∈ trace, e.UsesCamera)
    (hnot : ∀ e ∈ trace, e.initialized = false) :
    ¬ Preceded Event.UsesCamera [.cameraInitialize true] trace := by
  intro hpreceded
  obtain ⟨e, hmem, he⟩ := huses
  obtain ⟨before, after, rfl⟩ := List.append_of_mem hmem
  have hrequired := hpreceded before e after rfl he
  have hinitialize : .cameraInitialize true ∈ before := hrequired (List.mem_singleton_self _)
  cases hnot _ (List.mem_append_left _ hinitialize)

/-- Behind a session in static pointing, `CMD_GET_IMAGE` uses a camera that was never
initialized. -/
theorem not_guarded_getImage : ¬ Preceded Event.UsesCamera [.cameraInitialize true]
    (state (commanded false [controlPacket 0x02 [], controlPacket 0x07 [],
      controlPacket 0x08 []]) 3).trace := by
  refine not_preceded_of_uses ?_ ?_
  · decide +kernel
  · decide +kernel

end States

end ClickA.Pat
