import ClickA.Pat.Works

/-!
# Statements that look for one spot

The phases of a session look for the beacon or for the calibration spot, and the calibrations look
for the latter. What the process has found out beside that spot stays the same.

## Main definitions

* `World.besideBeacon`, `World.besideCalib`: what the process has found out beside a spot

## Main results

* `beside_clBeaconPhase`, `beside_openLoopPhase`, `beside_acquisitionPhase`: the phases that look
  for the beacon
* `beside_clCalibPhase`, `beside_calibrationPhase`, `beside_calibTest`: the statements that look for
  the calibration spot
-/

namespace ClickA.Pat

open Python (Ensures Runs runs_bind runs_pure runs_ite)
open Stream (Extends)

/-- What the process has found out beside the beacon. -/
def World.besideBeacon (w : World) : Findings :=
  { w.findings with haveBeaconKnowledge := false, startBeaconLoss := 0 }

/-- What the process has found out beside the calibration spot. -/
def World.besideCalib (w : World) : Findings :=
  { w.findings with haveCalibKnowledge := false, startCalibLoss := 0 }

section Spots

variable {P : Event → Prop} {α : Type} {env : Env} {w w' : World}

theorem Agrees.besideBeacon (h : Works P w w') : Agrees World.besideBeacon P w w' := by
  refine ⟨?_, h.adds⟩
  unfold World.besideBeacon
  rw [h.same]

theorem Agrees.besideCalib (h : Works P w w') : Agrees World.besideCalib P w w' := by
  refine ⟨?_, h.adds⟩
  unfold World.besideCalib
  rw [h.same]

theorem runs_besideBeacon {x : Proc World α} (h : Runs (Works P) x) :
    Runs (Agrees World.besideBeacon P) x := h.imp fun _ _ => Agrees.besideBeacon

theorem runs_besideCalib {x : Proc World α} (h : Runs (Works P) x) :
    Runs (Agrees World.besideCalib P) x := h.imp fun _ _ => Agrees.besideCalib

/-! ## The beacon -/

theorem beside_loseBeacon : Runs (Agrees World.besideBeacon P) (loseBeacon env) := by
  unfold loseBeacon
  refine runs_bind agrees_get fun w => runs_ite ?_ (runs_pure _)
  exact runs_bind (runs_besideBeacon (works_ask _)) fun now => agrees_modify fun _ => ⟨rfl, rfl⟩

theorem beside_checkBeaconLoss : Runs (Agrees World.besideBeacon P) (checkBeaconLoss env) := by
  unfold checkBeaconLoss
  refine runs_bind agrees_get fun w => runs_ite ?_ (runs_pure _)
  refine runs_bind (runs_besideBeacon (works_ask _)) fun now => runs_bind agrees_get fun w => ?_
  exact runs_ite (agrees_modify fun _ => ⟨rfl, rfl⟩) (runs_pure _)

variable (hP : ∀ e : Event, e.Mute → P e)
include hP

/-- A spot is looked for, and something is done with what is seen. -/
theorem besideBeacon_lookFor (minBrightness : ℕ) (spot : World → Group)
    {next : Sight → Proc World Unit}
    (h : ∀ sight, Runs (Agrees World.besideBeacon P) (next sight)) :
    Runs (Agrees World.besideBeacon P) (do next (← lookFor env minBrightness (spot (← get)))) := by
  refine runs_bind agrees_get fun w => runs_bind (runs_besideBeacon (runs_works ?_)) h
  exact senses_lookFor (fun e he => hP e he.mute) minBrightness (spot w)

theorem beside_clBeaconPhase : Runs (Agrees World.besideBeacon P) (clBeaconPhase env) := by
  have hcheck : Runs (Agrees World.besideBeacon P) (do
      modify fun w => { w with phase := .clCalib }
      checkBeaconLoss env) :=
    runs_bind (agrees_modify fun _ => ⟨rfl, rfl⟩) fun _ => beside_checkBeaconLoss
  unfold clBeaconPhase
  refine runs_bind (runs_besideBeacon works_laser) fun on => runs_ite ?_ ?_
  · refine besideBeacon_lookFor hP _ World.beacon fun sight => ?_
    cases sight with
    | accepted spot =>
      refine runs_bind (agrees_modify ?_) fun _ => ?_
      · exact fun _ => ⟨rfl, rfl⟩
      · exact runs_bind (runs_besideBeacon (works_sendFeedback hP)) fun _ => hcheck
    | noFrame => exact hcheck
    | failure => exact runs_bind beside_loseBeacon fun _ => hcheck
    | changed => exact runs_bind beside_loseBeacon fun _ => hcheck
  · exact runs_bind beside_loseBeacon fun _ => hcheck

theorem beside_openLoopPhase : Runs (Agrees World.besideBeacon P) (openLoopPhase env) := by
  unfold openLoopPhase
  refine runs_bind (runs_besideBeacon works_laser) fun on => runs_ite ?_ ?_
  · refine besideBeacon_lookFor hP _ World.beacon fun sight => ?_
    cases sight with
    | accepted spot =>
      refine runs_bind (agrees_modify ?_) fun _ => ?_
      · exact fun _ => ⟨rfl, rfl⟩
      · refine runs_bind (runs_besideBeacon (works_pointAtBeacon hP)) fun _ => ?_
        refine runs_bind (runs_besideBeacon (works_sendFeedback hP)) fun _ => ?_
        exact runs_bind (runs_besideBeacon (works_dither (runs_pure _))) fun _ =>
          beside_checkBeaconLoss
    | noFrame => exact runs_bind beside_loseBeacon fun _ => beside_checkBeaconLoss
    | failure => exact runs_bind beside_loseBeacon fun _ => beside_checkBeaconLoss
    | changed => exact runs_bind beside_loseBeacon fun _ => beside_checkBeaconLoss
  · exact runs_bind beside_loseBeacon fun _ => beside_checkBeaconLoss

theorem beside_acquisitionPhase (hstatus : ∀ flag, P (.status flag)) :
    Runs (Agrees World.besideBeacon P) (acquisitionPhase env) := by
  have hlog : Runs (Agrees World.besideBeacon P) (logImage env) :=
      runs_besideBeacon (works_logImage hP)
  have hacquire : Runs (Agrees World.besideBeacon P) (runAcquisition env) :=
    runs_besideBeacon (runs_works (senses_runAcquisition (fun e he => hP e he.mute) hstatus))
  have hpoint : Runs (Agrees World.besideBeacon P) (do
      pointAtBeacon
      modify fun w => { w with phase := if w.openLoop then .openLoop else .clInit }) :=
    runs_bind (runs_besideBeacon (works_pointAtBeacon hP)) fun _ => agrees_modify fun _ =>
      ⟨rfl, rfl⟩
  unfold acquisitionPhase acquired notAcquired
  refine runs_bind (runs_besideBeacon works_laser) fun on => runs_ite ?_ ?_
  · refine runs_bind hacquire fun found => runs_ite ?_ ?_
    · refine runs_bind (agrees_modify fun _ => ⟨rfl, rfl⟩) fun _ => ?_
      refine runs_bind (runs_besideBeacon (works_emit (hP _ trivial))) fun _ => ?_
      refine runs_bind agrees_get fun w => runs_ite ?_ hpoint
      refine runs_bind hlog fun _ => ?_
      exact runs_bind (agrees_modify fun _ => ⟨rfl, rfl⟩) fun _ => hpoint
    · refine runs_bind agrees_get fun w => runs_ite hlog (runs_ite ?_ ?_)
      · exact runs_bind hlog fun _ => agrees_modify fun _ => ⟨rfl, rfl⟩
      · exact agrees_modify fun _ => ⟨rfl, rfl⟩
  · exact agrees_modify fun _ => ⟨rfl, rfl⟩

/-! ## The calibration spot -/

omit hP in
theorem beside_loseCalib : Runs (Agrees World.besideCalib P) (loseCalib env) := by
  unfold loseCalib
  refine runs_bind agrees_get fun w => runs_ite ?_ (runs_pure _)
  exact runs_bind (runs_besideCalib (works_ask _)) fun now => agrees_modify fun _ => ⟨rfl, rfl⟩

/-- A spot is looked for, and something is done with what is seen. -/
theorem besideCalib_lookFor (minBrightness : ℕ) (spot : World → Group)
    {next : Sight → Proc World Unit}
    (h : ∀ sight, Runs (Agrees World.besideCalib P) (next sight)) :
    Runs (Agrees World.besideCalib P) (do next (← lookFor env minBrightness (spot (← get)))) := by
  refine runs_bind agrees_get fun w => runs_bind (runs_besideCalib (runs_works ?_)) h
  exact senses_lookFor (fun e he => hP e he.mute) minBrightness (spot w)

theorem beside_clCalibPhase : Runs (Agrees World.besideCalib P) (clCalibPhase env) := by
  have hcheck : Runs (Agrees World.besideCalib P) (do
      modify fun w => { w with phase := .clBeacon }
      if (← get).haveCalibKnowledge = false then
        let now ← ask env.clock
        if now - (← get).startCalibLoss > periodCalibLoss then
          modify fun w => { w with phase := .openLoop }) := by
    refine runs_bind (agrees_modify fun _ => ⟨rfl, rfl⟩) fun _ => ?_
    refine runs_bind agrees_get fun w => runs_ite ?_ (runs_pure _)
    refine runs_bind (runs_besideCalib (works_ask _)) fun now => runs_bind agrees_get fun w => ?_
    exact runs_ite (agrees_modify fun _ => ⟨rfl, rfl⟩) (runs_pure _)
  unfold clCalibPhase controlClosedLoop
  refine runs_bind (runs_besideCalib works_laser) fun on => runs_ite ?_ ?_
  · refine besideCalib_lookFor hP _ World.calib fun sight => ?_
    cases sight with
    | accepted spot =>
      refine runs_bind (runs_bind (agrees_modify ?_) fun _ => ?_) fun _ => hcheck
      · exact fun _ => ⟨rfl, rfl⟩
      · refine runs_bind agrees_get fun w => ?_
        refine runs_bind (runs_besideCalib (works_emit (hP _ trivial))) fun _ => ?_
        exact runs_besideCalib (works_dither (runs_pure _))
    | changed => exact hcheck
    | failure => exact runs_bind beside_loseCalib fun _ => hcheck
    | noFrame => exact runs_bind beside_loseCalib fun _ => hcheck
  · exact runs_bind beside_loseCalib fun _ => hcheck

variable (hcalib : ∀ success, P (.calibrationRun success))
include hcalib

theorem beside_calibrationRun : Runs (Agrees World.besideCalib P) (calibrationRun env) := by
  intro w
  refine (works_calibrationRun hP env w).imp ?_
  rintro success _ ⟨w₁, h₁, rfl⟩
  have hresult : Agrees World.besideCalib P w₁
      { w₁ with trace := w₁.trace ++ [.calibrationRun success] } := ⟨rfl, .concat (hcalib _)⟩
  exact trans_of (Agrees World.besideCalib P) h₁.besideCalib hresult

theorem beside_calibTest : Runs (Agrees World.besideCalib P) (calibTest env) := by
  unfold calibTest
  refine runs_bind (runs_besideCalib works_laser) fun on => runs_ite ?_ (runs_pure _)
  refine runs_bind (beside_calibrationRun hP hcalib) fun success => runs_ite ?_ ?_
  · refine runs_bind (runs_besideCalib (works_emit (hP _ trivial))) fun _ => ?_
    exact agrees_modify fun _ => ⟨rfl, rfl⟩
  · exact agrees_modify fun _ => ⟨rfl, rfl⟩

theorem beside_calibrationPhase : Runs (Agrees World.besideCalib P) (calibrationPhase env) := by
  unfold calibrationPhase
  refine runs_bind (runs_besideCalib works_laser) fun on => runs_ite ?_ ?_
  · refine runs_bind (beside_calibrationRun hP hcalib) fun success => runs_ite ?_ ?_
    · refine runs_bind (runs_besideCalib (works_emit (hP _ trivial))) fun _ => ?_
      exact agrees_modify fun _ => ⟨rfl, rfl⟩
    · exact agrees_modify fun _ => ⟨rfl, rfl⟩
  · exact agrees_modify fun _ => ⟨rfl, rfl⟩

end Spots

end ClickA.Pat
