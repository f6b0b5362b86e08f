import ClickA.Pat.Senses

/-!
# Statements that leave the session alone

Most statements of the PAT process use its devices and count what they asked for. They leave alone
where the process is, its modes and what it knows.

## Main definitions

* `Flags`, `Mode`, `Knowledge`: the variables that a session depends on
* `Quiet P`: two states with the same modes and knowledge, and what happens in between has a
  property

## Main results

* `quiet_heartbeat`, `quiet_sendFeedback`, `quiet_mainCommand`, …: the statements that use no camera
* `Agrees.quiet`: the devices leave the session alone
* `ensures_calibrationRun`: a calibration that succeeds has calculated the parameters
-/

namespace ClickA.Pat

open Python (Ensures Runs runs_bind runs_pure runs_ite runs_foldlM)
open Stream (Extends)

/-! ## Relations -/

/-- The variables by which the sessions differ. -/
structure Flags where
  openLoop : Bool
  sendBusFeedback : Bool
  bcnAlignment : Bool
deriving DecidableEq

/-- Where the process is, and the modes of a session. -/
structure Mode where
  place : Place
  standby : Bool
  flags : Flags

/-- The phase, and what the process knows of the calibration, the static point and the laser. -/
structure Knowledge where
  phase : Phase
  haveCalibKnowledge : Bool
  staticPointingInitialized : Bool
  laserTestsPassed : ℕ
  lasers : ℕ

def World.flags (w : World) : Flags := ⟨w.openLoop, w.sendBusFeedback, w.bcnAlignment⟩

def World.mode (w : World) : Mode := ⟨w.place, w.standby, w.flags⟩

def World.knowledge (w : World) : Knowledge :=
  ⟨w.phase, w.haveCalibKnowledge, w.staticPointingInitialized, w.laserTestsPassed, w.lasers⟩

/-- Two states with the same modes and knowledge, and what happens in between has a property. -/
structure Quiet (P : Event → Prop) (w w' : World) : Prop where
  mode : w'.mode = w.mode
  knowledge : w'.knowledge = w.knowledge
  adds : Extends P w.trace w'.trace

section Quiet

variable {P Q : Event → Prop} {w w' w'' : World}

theorem Quiet.trans (h : Quiet P w w') (h' : Quiet P w' w'') : Quiet P w w'' :=
  ⟨h'.mode.trans h.mode, h'.knowledge.trans h.knowledge, h.adds.trans h'.adds⟩

instance : Std.Refl (Quiet P) := ⟨fun _ => ⟨rfl, rfl, .of_eq rfl⟩⟩

instance : IsTrans World (Quiet P) := ⟨fun _ _ _ => Quiet.trans⟩

theorem Quiet.mono (h : Quiet P w w') (hPQ : ∀ e, P e → Q e) : Quiet Q w w' :=
  ⟨h.mode, h.knowledge, h.adds.mono hPQ⟩

theorem Quiet.flags (h : Quiet P w w') : w'.flags = w.flags := congrArg Mode.flags h.mode

theorem Quiet.phase (h : Quiet P w w') : w'.phase = w.phase := congrArg Knowledge.phase h.knowledge

theorem Quiet.haveCalibKnowledge (h : Quiet P w w') :
    w'.haveCalibKnowledge = w.haveCalibKnowledge :=
  congrArg Knowledge.haveCalibKnowledge h.knowledge

theorem Quiet.staticPointingInitialized (h : Quiet P w w') :
    w'.staticPointingInitialized = w.staticPointingInitialized :=
  congrArg Knowledge.staticPointingInitialized h.knowledge

theorem Quiet.laserTestsPassed (h : Quiet P w w') : w'.laserTestsPassed = w.laserTestsPassed :=
  congrArg Knowledge.laserTestsPassed h.knowledge

theorem Quiet.lasers (h : Quiet P w w') : w'.lasers = w.lasers :=
  congrArg Knowledge.lasers h.knowledge

/-- The devices leave the session alone. -/
theorem Agrees.quiet (h : Senses P w w') : Quiet P w w' where
  mode := by
    have hmode : w'.settings.mode = w.settings.mode := congrArg World.mode h.same
    exact hmode
  knowledge := by
    have hknowledge : w'.settings.knowledge = w.settings.knowledge :=
      congrArg World.knowledge h.same
    exact hknowledge
  adds := h.adds

end Quiet

/-! ## Statements that use no camera -/

section Idle

variable {P : Event → Prop} {α : Type} {env : Env}

/-- Other variables are changed. -/
theorem quiet_modify {f : World → World} (h : ∀ w, (f w).mode = w.mode ∧
    (f w).knowledge = w.knowledge ∧ (f w).trace = w.trace) :
    Runs (Quiet P) (modify f : Proc World Unit) := by
  intro w
  obtain ⟨hmode, hknowledge, htrace⟩ := h w
  exact ⟨hmode, hknowledge, .of_eq htrace⟩

theorem quiet_get : Runs (Quiet P) (get : Proc World World) := fun w => refl_of (Quiet P) w

theorem quiet_ask (f : ℕ → α) : Runs (Quiet P) (ask f) := fun _ => ⟨rfl, rfl, .of_eq rfl⟩

theorem quiet_emit {e : Event} (h : P e) : Runs (Quiet P) (emit e) := fun _ => ⟨rfl, rfl, .concat h⟩

theorem quiet_report (text : String) : Runs (Quiet P) (report text) :=
  quiet_modify fun _ => ⟨rfl, rfl, rfl⟩

theorem quiet_calculateTxOffsets : Runs (Quiet P) (calculateTxOffsets env) := by
  unfold calculateTxOffsets
  refine runs_bind (quiet_ask _) fun temperature => ?_
  cases temperature with
  | none => exact runs_pure _
  | some temperature => exact quiet_modify fun _ => ⟨rfl, rfl, rfl⟩

theorem quiet_selfTestFpga : Runs (Quiet P) (selfTestFpga env) :=
  senses_selfTestFpga.imp fun _ _ => Agrees.quiet

theorem quiet_loseBeacon : Runs (Quiet P) (loseBeacon env) := by
  unfold loseBeacon
  refine runs_bind quiet_get fun w => runs_ite ?_ (runs_pure _)
  exact runs_bind (quiet_ask _) fun now => quiet_modify fun _ => ⟨rfl, rfl, rfl⟩

theorem quiet_updateTxOffsets : Runs (Quiet P) (updateTxOffsets env) := by
  unfold updateTxOffsets
  refine runs_bind (quiet_ask _) fun now => runs_bind quiet_get fun w => ?_
  refine runs_ite ?_ (runs_pure _)
  refine runs_bind quiet_calculateTxOffsets fun _ => runs_bind (quiet_ask _) fun now => ?_
  refine runs_bind (quiet_modify fun _ => ⟨rfl, rfl, rfl⟩) fun _ => ?_
  exact runs_ite (quiet_modify fun _ => ⟨rfl, rfl, rfl⟩) (runs_pure _)

theorem quiet_acquisitionCommand : Runs (Quiet P) acquisitionCommand := by
  unfold acquisitionCommand
  refine runs_bind quiet_get fun w => runs_ite (runs_pure _) ?_
  refine runs_ite ?_ (runs_pure _)
  exact runs_bind (quiet_modify fun _ => ⟨rfl, rfl, rfl⟩) fun _ => runs_pure _

theorem quiet_dither {next : Proc World Unit} (h : Runs (Quiet P) next) :
    Runs (Quiet P) (dither env next) := by
  unfold dither
  refine runs_bind quiet_get fun w => runs_ite ?_ (runs_pure _)
  refine runs_bind (quiet_ask _) fun now => runs_bind quiet_get fun w => ?_
  refine runs_ite ?_ (runs_pure _)
  have hcount : Runs (Quiet P) (do
      let now ← ask env.clock
      modify fun w : World => { w with
        ditherCount := w.ditherCount + 1, timePrevDither := now }) :=
    runs_bind (quiet_ask _) fun now => quiet_modify fun _ => ⟨rfl, rfl, rfl⟩
  split
  · exact runs_bind (quiet_modify fun _ => ⟨rfl, rfl, rfl⟩) fun _ => hcount
  · refine runs_bind (quiet_modify fun _ => ⟨rfl, rfl, rfl⟩) fun _ => ?_
    exact runs_bind h fun _ => hcount

variable (hP : ∀ e : Event, e.Idle → P e)
include hP

theorem quiet_receiveCommand : Runs (Quiet P) (receiveCommand env) :=
  (senses_receiveCommand fun _ => hP _ ⟨id, id⟩).imp fun _ _ => Agrees.quiet

theorem quiet_sendFeedback : Runs (Quiet P) (sendFeedback env) := by
  unfold sendFeedback
  refine runs_bind quiet_get fun w => runs_ite ?_ (runs_pure _)
  refine runs_bind (quiet_ask _) fun now => runs_bind quiet_get fun w => ?_
  refine runs_ite ?_ (runs_pure _)
  refine runs_bind (quiet_emit (hP _ ⟨id, id⟩)) fun _ => runs_bind (quiet_ask _) fun now => ?_
  exact quiet_modify fun _ => ⟨rfl, rfl, rfl⟩

theorem quiet_heartbeat : Runs (Quiet P) (heartbeat env) := by
  unfold heartbeat
  refine runs_bind (quiet_ask _) fun now => runs_bind quiet_get fun w => ?_
  refine runs_ite ?_ (runs_pure _)
  refine runs_bind (quiet_emit (hP _ ⟨id, id⟩)) fun _ => runs_bind (quiet_ask _) fun now => ?_
  exact quiet_modify fun _ => ⟨rfl, rfl, rfl⟩

theorem quiet_mainCommand : Runs (Quiet P) (mainCommand env) := by
  unfold mainCommand
  refine runs_bind (quiet_receiveCommand hP) fun packet => ?_
  cases packet with
  | none => exact runs_pure _
  | some packet =>
    dsimp only
    split
    · exact runs_pure _
    · refine runs_bind (quiet_modify ?_) fun _ => runs_pure _
      exact fun _ => ⟨rfl, rfl, rfl⟩
    · refine runs_bind (quiet_modify ?_) fun _ => runs_pure _
      exact fun _ => ⟨rfl, rfl, rfl⟩
    · refine runs_bind (quiet_modify ?_) fun _ => runs_pure _
      exact fun _ => ⟨rfl, rfl, rfl⟩
    · exact runs_pure _

theorem quiet_cameraInitSelfTest : Runs (Quiet P) (cameraInitSelfTest env) := by
  unfold cameraInitSelfTest
  refine runs_bind (quiet_report _) fun _ => runs_bind quiet_selfTestFpga fun fpga => ?_
  exact runs_bind quiet_get fun w => quiet_emit (hP _ ⟨id, id⟩)

theorem quiet_testBusFeedback : Runs (Quiet P) testBusFeedback := by
  unfold testBusFeedback
  refine runs_bind (runs_foldlM (fun _ i => ?_) _ _) fun _ => quiet_emit (hP _ ⟨id, id⟩)
  exact quiet_emit (hP _ ⟨id, id⟩)

end Idle

/-! ## Statements that do not steer -/

/-- Two states with the same modes and knowledge, and nothing is steered in between. -/
abbrev Unsteered : World → World → Prop := Quiet fun e => ¬ e.Steers

theorem not_steers_of_idle (e : Event) (h : e.Idle) : ¬ e.Steers := h.1

section Unsteered

variable {env : Env}

theorem runs_unsteered {α : Type} {x : Proc World α} (h : Runs (Senses fun e => ¬ e.Steers) x) :
    Runs Unsteered x := h.imp fun _ _ => Agrees.quiet

theorem quiet_logImage : Runs Unsteered (logImage env) :=
  runs_unsteered (senses_logImage fun _ => Event.Senses.not_steers)

theorem quiet_findExposureRange : Runs Unsteered (findExposureRange env) :=
  runs_unsteered (senses_findExposureRange fun _ => Event.Senses.not_steers)

/-! ### Calibration -/

/-- What a successful calibration leaves in the trace. -/
def calibration : List Event := [.parameters, .calibrationRun true]

theorem ensures_calibrationRun (env : Env) (w : World) :
    Ensures (calibrationRun env) (fun success w' =>
      Unsteered w w' ∧ (success = true → calibration ⊆ w'.trace)) w := by
  unfold calibrationRun
  refine (senses_calibrate (P := fun e => ¬ e.Steers)
    (fun _ => Event.Senses.not_steers) env w).bind ?_
  rintro success w₁ ⟨h₁, hparameters⟩
  have hemit : Runs Unsteered (emit (.calibrationRun success)) := quiet_emit id
  refine ⟨h₁.quiet.trans (hemit w₁), ?_⟩
  rintro rfl
  show calibration ⊆ w₁.trace ++ [.calibrationRun true]
  refine List.cons_subset.mpr ⟨List.mem_append_left _ (hparameters rfl), ?_⟩
  exact List.subset_append_right _ _

/-! ### Tests -/

theorem quiet_checkLaserOn : Runs Unsteered (checkLaserOn env) :=
  runs_unsteered (senses_checkLaserOn fun _ => Event.Senses.not_steers)

theorem quiet_checkLaserOff : Runs Unsteered (checkLaserOff env) :=
  runs_unsteered (senses_checkLaserOff fun _ => Event.Senses.not_steers)

theorem quiet_testFSM : Runs Unsteered (testFSM env) :=
  runs_unsteered (senses_testFSM fun _ => Event.Senses.not_steers)

/-! ### Acquisition -/

theorem quiet_lookFor (minBrightness : ℕ) (old : Group) :
    Runs Unsteered (lookFor env minBrightness old) :=
  runs_unsteered (senses_lookFor (fun _ => Event.Senses.not_steers) minBrightness old)

theorem quiet_runAcquisition : Runs Unsteered (runAcquisition env) :=
  runs_unsteered (senses_runAcquisition (fun _ => Event.Senses.not_steers) fun _ => id)

end Unsteered

end ClickA.Pat
