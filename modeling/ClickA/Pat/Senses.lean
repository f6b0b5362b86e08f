import ClickA.Pat.Main
import ClickA.Stream.History

/-!
# Statements that use the devices

The tests, the calibration and the acquisition use the camera, the FSM and the FPGA. They change
what the process sees, and count what it asks for: all its other variables stay the same.

## Main definitions

* `World.settings`: a state without what the devices show
* `Agrees f P`: two states that agree on something, and what happens in between has a property
* `Senses P`: two states with the same settings

## Main results

* `senses_calibrate`, `senses_testFSM`, `senses_runAcquisition`, …: the statements that use the
  devices
-/

namespace ClickA.Pat

open Python (Ensures Runs runs_bind runs_pure runs_ite runs_foldlM)
open Stream (Extends)

/-! ## Events -/

/-- `Tracking` steers the FSM, with the parameters of the calibration. -/
def Event.Steers : Event → Prop
  | .controlOpenLoop _ _ | .control _ _ _ _ => True
  | _ => False

/-- The event needs a camera. -/
def Event.UsesCamera : Event → Prop
  | .camera | .getImage _ _ => True
  | _ => False

/-- The event neither steers nor uses the camera. -/
def Event.Idle (e : Event) : Prop := ¬ e.Steers ∧ ¬ e.UsesCamera

/-- The event uses the devices for a test, a calibration or an acquisition. -/
def Event.Senses : Event → Prop
  | .command _ | .camera | .parameters | .setNormalizedAngles _ _ => True
  | _ => False

theorem Event.Senses.not_steers {e : Event} (h : e.Senses) : ¬ e.Steers := by
  cases e <;> first | exact id | exact h.elim

/-! ## Settings -/

/-- A state without what the devices show, and without what the process has asked for. -/
def World.settings (w : World) : World :=
  { w with
    polls := 0
    comms := 0
    time := 0
    trace := []
    beacon := {}
    calib := {}
    centerOffsetX := 0
    centerOffsetY := 0
    selfTestStream := ""
    receivedEndPatCmd := false
    receivedEndProcessCmd := false }

/-- Two states that agree on something, and what happens in between has a property. -/
structure Agrees {κ : Type} (f : World → κ) (P : Event → Prop) (w w' : World) : Prop where
  same : f w' = f w
  adds : Extends P w.trace w'.trace

section Agrees

variable {κ κ' : Type} {f : World → κ} {f' : World → κ'} {P Q : Event → Prop} {w w' : World}

instance : Std.Refl (Agrees f P) := ⟨fun _ => ⟨rfl, .of_eq rfl⟩⟩

instance : IsTrans World (Agrees f P) :=
  ⟨fun _ _ _ h h' => ⟨h'.same.trans h.same, h.adds.trans h'.adds⟩⟩

theorem Agrees.mono (h : Agrees f P w w') (hf : f w' = f w → f' w' = f' w)
    (hPQ : ∀ e, P e → Q e) : Agrees f' Q w w' := ⟨hf h.same, h.adds.mono hPQ⟩

theorem agrees_modify {g : World → World} (h : ∀ w, f (g w) = f w ∧ (g w).trace = w.trace) :
    Runs (Agrees f P) (modify g : Proc World Unit) := by
  intro w
  obtain ⟨hsame, htrace⟩ := h w
  exact ⟨hsame, .of_eq htrace⟩

theorem agrees_get : Runs (Agrees f P) (get : Proc World World) := fun w => refl_of (Agrees f P) w

end Agrees

/-- Two states with the same settings, and what happens in between has a property. -/
abbrev Senses : (Event → Prop) → World → World → Prop := Agrees World.settings

section Senses

variable {P : Event → Prop} {α : Type} {env : Env}

/-- A variable that the devices do not show is the same. -/
theorem Agrees.variable {w w' : World} (h : Senses P w w') (g : World → α)
    (hg : ∀ w, g w.settings = g w) : g w' = g w := by
  rw [← hg w', h.same, hg w]

theorem senses_ask (f : ℕ → α) : Runs (Senses P) (ask f) := fun _ => ⟨rfl, .of_eq rfl⟩

theorem senses_fpgaComms : Runs (Senses P) (fpgaComms env) := fun _ => ⟨rfl, .of_eq rfl⟩

theorem senses_emit {e : Event} (h : P e) : Runs (Senses P) (emit e) := fun _ => ⟨rfl, .concat h⟩

theorem senses_report (text : String) : Runs (Senses P) (report text) :=
  agrees_modify fun _ => ⟨rfl, rfl⟩

theorem senses_selfTestFpga : Runs (Senses P) (selfTestFpga env) := by
  unfold selfTestFpga
  refine runs_bind senses_fpgaComms fun passed => runs_ite (runs_pure _) ?_
  exact runs_bind (senses_report _) fun _ => runs_pure _

theorem senses_receiveCommand (hP : ∀ code, P (.command code)) :
    Runs (Senses P) (receiveCommand env) := by
  unfold receiveCommand
  refine runs_bind agrees_get fun w => ?_
  refine runs_bind (agrees_modify fun _ => ⟨rfl, rfl⟩) fun _ => ?_
  cases env.message w.polls with
  | none => exact runs_pure _
  | some message => exact runs_bind (senses_emit (hP _)) fun _ => runs_pure _

variable (hP : ∀ e : Event, e.Senses → P e)
include hP

theorem senses_requestFrame : Runs (Senses P) (requestFrame env) :=
  runs_bind (senses_emit (hP _ trivial)) fun _ => senses_ask _

theorem senses_logImage : Runs (Senses P) (logImage env) :=
  runs_bind (senses_requestFrame hP) fun _ => runs_pure _

theorem senses_findExposureRange : Runs (Senses P) (findExposureRange env) :=
  runs_bind (senses_emit (hP _ trivial)) fun _ => senses_ask _

/-! ### Calibration -/

theorem senses_calibrationPoint (i : ℕ) : Runs (Senses P) (calibrationPoint env i) := by
  unfold calibrationPoint
  refine runs_bind (senses_emit (hP _ trivial)) fun _ => ?_
  refine runs_bind (senses_requestFrame hP) fun frame => ?_
  cases frame with
  | none => exact runs_pure _
  | some frame =>
    refine runs_ite ?_ (runs_pure _)
    dsimp only
    split
    · exact runs_bind (agrees_modify fun _ => ⟨rfl, rfl⟩) fun _ => runs_pure _
    · exact runs_pure _

/-- `Calibration::run` calculates the parameters before it returns true. -/
theorem senses_calibrate (env : Env) (w : World) :
    Ensures (calibrate env) (fun success w' =>
      Senses P w w' ∧ (success = true → .parameters ∈ w'.trace)) w := by
  unfold calibrate
  have hemit {e : Event} (he : e.Senses) : Runs (Senses P) (emit e) := senses_emit (hP e he)
  have hpoints : Runs (Senses P) ((List.range 100).foldlM (fun points i => do
      return points ++ (← calibrationPoint env i).toList) []) :=
    runs_foldlM (fun points i => runs_bind (senses_calibrationPoint hP i) fun spot => runs_pure _)
      _ _
  refine (hemit (e := .setNormalizedAngles 0 0) trivial w).bind fun _ w₁ h₁ => ?_
  refine (senses_findExposureRange hP w₁).bind fun found w₂ h₂ => ?_
  have h₂ := trans_of (Senses P) h₁ h₂
  cases found with
  | false => exact ⟨h₂, fun htrue => by cases htrue⟩
  | true =>
    refine (hemit (e := .camera) trivial w₂).bind fun _ w₃ h₃ => ?_
    refine (hpoints w₃).bind fun points w₄ h₄ => ?_
    refine (hemit (e := .setNormalizedAngles 0 0) trivial w₄).bind fun _ w₅ h₅ => ?_
    refine (hemit (e := .camera) trivial w₅).bind fun _ w₆ h₆ => ?_
    have h₄ := trans_of (Senses P) h₃ h₄
    have h₆ := trans_of (Senses P) (trans_of (Senses P) h₂ h₄) (trans_of (Senses P) h₅ h₆)
    split
    · exact ⟨h₆, fun htrue => by cases htrue⟩
    · have hlast : Senses P w₆ { w₆ with trace := w₆.trace ++ [.parameters] } :=
        ⟨rfl, .concat (hP _ trivial)⟩
      refine ⟨trans_of (Senses P) h₆ hlast, ?_⟩
      exact fun _ => List.mem_append_right _ (List.mem_singleton_self _)

/-! ### Tests -/

theorem senses_checkLaserOn : Runs (Senses P) (checkLaserOn env) := by
  unfold checkLaserOn
  refine runs_bind (senses_requestFrame hP) fun frame => ?_
  cases frame with
  | none => exact runs_pure _
  | some frame =>
    refine runs_ite ?_ (runs_pure _)
    exact runs_bind (agrees_modify fun _ => ⟨rfl, rfl⟩) fun _ => runs_pure _

theorem senses_checkLaserOff : Runs (Senses P) (checkLaserOff env) := by
  unfold checkLaserOff
  refine runs_bind (senses_requestFrame hP) fun frame => ?_
  cases frame with
  | none => exact runs_pure _
  | some frame => exact runs_pure _

theorem senses_checkMoved (x y : Float) (coordinate : Group → Float) (old : ℤ) :
    Runs (Senses P) (checkMoved env x y coordinate old) := by
  unfold checkMoved
  refine runs_bind (senses_emit (hP _ trivial)) fun _ => ?_
  refine runs_bind (senses_checkLaserOn hP) fun on => ?_
  exact runs_ite (runs_bind agrees_get fun w => runs_pure _) (runs_pure _)

theorem senses_testFSM : Runs (Senses P) (testFSM env) := by
  have hlog {next : World → Proc World Bool} (h : ∀ w, Runs (Senses P) (next w)) :
      Runs (Senses P) (do
        let w ← get
        logImage env
        next w) :=
    runs_bind agrees_get fun w => runs_bind (senses_logImage hP) fun _ => h w
  have hmoved {x y : Float} {coordinate : Group → Float} {old : ℤ} {next : Proc World Bool}
      (h : Runs (Senses P) next) :
      Runs (Senses P) (do
        if ← checkMoved env x y coordinate old then next else return false) :=
    runs_bind (senses_checkMoved hP x y coordinate old) fun moved => runs_ite h (runs_pure _)
  unfold testFSM
  refine runs_bind (senses_emit (hP _ trivial)) fun _ => ?_
  refine runs_bind (senses_checkLaserOn hP) fun on => ?_
  refine runs_ite ?_ (runs_pure _)
  refine hlog fun w₁ => hmoved <| hlog fun w₂ => hmoved <| hlog fun w₃ => hmoved ?_
  exact hlog fun w₄ => senses_checkMoved hP _ _ _ _

/-! ### Acquisition -/

theorem senses_lookFor (minBrightness : ℕ) (old : Group) :
    Runs (Senses P) (lookFor env minBrightness old) := by
  refine runs_bind (senses_emit (hP _ trivial)) fun _ => ?_
  exact runs_bind (senses_requestFrame hP) fun _ => runs_pure _

theorem senses_tune : Runs (Senses P) (tune env) := by
  unfold tune
  refine runs_bind (senses_emit (hP _ trivial)) fun _ => runs_bind (senses_ask _) fun tuning => ?_
  cases tuning.spot with
  | none => exact runs_bind (runs_pure _) fun _ => runs_pure _
  | some spot =>
    refine runs_bind (agrees_modify ?_) fun _ => runs_pure _
    exact fun _ => ⟨rfl, rfl⟩

theorem senses_receivedEnd : Runs (Senses P) (receivedEnd env) := by
  unfold receivedEnd
  refine runs_bind (senses_receiveCommand fun _ => hP _ trivial) fun packet => ?_
  cases packet with
  | none => exact runs_pure _
  | some packet =>
    dsimp only
    split
    · refine runs_bind (agrees_modify ?_) fun _ => runs_pure _
      exact fun _ => ⟨rfl, rfl⟩
    · refine runs_bind (agrees_modify ?_) fun _ => runs_pure _
      exact fun _ => ⟨rfl, rfl⟩
    · exact runs_pure _

/-- The search reports the status of the process, too. -/
theorem senses_tryExposure (hstatus : ∀ flag, P (.status flag)) (inRange : Bool) :
    Runs (Senses P) (tryExposure env inRange) := by
  unfold tryExposure
  exact runs_ite (runs_bind (senses_emit (hstatus _)) fun _ => senses_tune hP) (runs_pure _)

theorem senses_search (hstatus : ∀ flag, P (.status flag)) (maxExposure : ℤ)
    (searchingUp searchingDown : Bool) (exposureUp exposureDown : ℤ) :
    Runs (Senses P)
      (search env maxExposure searchingUp searchingDown exposureUp exposureDown) := by
  have htry (inRange : Bool) : Runs (Senses P) (tryExposure env inRange) :=
    senses_tryExposure hP hstatus inRange
  induction searchingUp, searchingDown, exposureUp, exposureDown using
      search.induct maxExposure with
  | case1 searchingUp searchingDown exposureUp exposureDown h ih =>
    rw [search, if_pos h]
    refine runs_bind (senses_receivedEnd hP) fun ended => runs_ite (runs_pure _) ?_
    refine runs_bind (htry _) fun tuned => runs_ite (runs_pure _) ?_
    refine runs_bind (senses_receivedEnd hP) fun ended => runs_ite (runs_pure _) ?_
    exact runs_bind (htry _) fun tuned => runs_ite (runs_pure _) ih
  | case2 searchingUp searchingDown exposureUp exposureDown h =>
    rw [search, if_neg h]
    exact runs_pure _

theorem senses_runAcquisition (hstatus : ∀ flag, P (.status flag)) :
    Runs (Senses P) (runAcquisition env) := by
  unfold runAcquisition
  refine runs_bind agrees_get fun w => runs_bind (senses_emit (hP _ trivial)) fun _ => ?_
  refine runs_bind (senses_tune hP) fun tuned => runs_ite (runs_pure _) ?_
  exact senses_search hP hstatus _ _ _ _ _

end Senses

end ClickA.Pat
