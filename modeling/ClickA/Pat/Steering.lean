import ClickA.Pat.Quiet

/-!
# Steering with a calibration

`Tracking` steers the FSM with the parameters that a calibration calculates. Where the process
steers depends on its phase, on what it knows of the calibration, and on whether a beacon is
aligned; the invariant links these to what happened before.

## Main definitions

* `Calibrated`: a calibration has succeeded
* `Phase.Ready`: what a phase needs
* `Steerable`: the invariant
* `Develops`, `Advances`: two states between which the invariant is kept, and the modes too
* `Stays`, `Leaves`: the same from a phase, which is kept or may be left

## Main results

* `leaves_clBeaconPhase`, `leaves_clCalibPhase`, `leaves_openLoopPhase`: the phases that steer keep
  the invariant
* `advances_runPhase`: all the phases do
-/

namespace ClickA.Pat

open Python (Ensures Runs runs_bind runs_pure runs_ite wp_bind wp_get)
open Stream (Extends Preceded)

/-! ## The invariant -/

/-- A calibration has succeeded, and calculated the parameters. -/
def Calibrated (w : World) : Prop := calibration ⊆ w.trace

/-- What a phase needs. An acquisition and the phase in open loop do not steer while a beacon is
aligned. -/
def Phase.Ready (w : World) : Phase → Prop
  | .calibration | .staticPoint => True
  | .acquisition | .openLoop => Calibrated w ∨ w.bcnAlignment = true
  | .clInit | .clBeacon | .clCalib => Calibrated w

structure Steerable (w : World) : Prop where
  steered : Preceded Event.Steers calibration w.trace
  known : w.haveCalibKnowledge = true → Calibrated w
  ready : w.phase.Ready w
  /-- A beacon is aligned in open loop. -/
  aligned : w.bcnAlignment = true → w.openLoop = true

/-- Two states, of which the second one keeps the invariant. -/
structure Develops (w w' : World) : Prop where
  adds : Extends (fun _ => True) w.trace w'.trace
  steerable : Steerable w → Steerable w'

/-- The modes are kept, too. -/
structure Advances (w w' : World) : Prop extends Develops w w' where
  mode : w'.mode = w.mode

section Relations

variable {P : Event → Prop} {p q : Phase} {w w' w'' : World}

theorem Develops.trans (h : Develops w w') (h' : Develops w' w'') : Develops w w'' :=
  ⟨h.adds.trans h'.adds, h'.steerable ∘ h.steerable⟩

theorem Advances.trans (h : Advances w w') (h' : Advances w' w'') : Advances w w'' :=
  ⟨h.toDevelops.trans h'.toDevelops, h'.mode.trans h.mode⟩

instance : Std.Refl Develops := ⟨fun _ => ⟨.of_eq rfl, id⟩⟩

instance : IsTrans World Develops := ⟨fun _ _ _ => Develops.trans⟩

instance : Std.Refl Advances := ⟨fun w => ⟨refl_of Develops w, rfl⟩⟩

instance : IsTrans World Advances := ⟨fun _ _ _ => Advances.trans⟩

theorem Calibrated.mono (h : Calibrated w) (htrace : w.trace ⊆ w'.trace) : Calibrated w' :=
  List.Subset.trans h htrace

theorem Phase.Ready.mono (h : p.Ready w) (htrace : w.trace ⊆ w'.trace)
    (haligned : w'.bcnAlignment = w.bcnAlignment) : p.Ready w' := by
  cases p with
  | calibration => trivial
  | acquisition => exact h.imp (Calibrated.mono · htrace) haligned.trans
  | clInit => exact h.mono htrace
  | clBeacon => exact h.mono htrace
  | clCalib => exact h.mono htrace
  | openLoop => exact h.imp (Calibrated.mono · htrace) haligned.trans
  | staticPoint => trivial

/-- Behind a calibration, every phase is ready. -/
theorem Phase.Ready.of_calibrated (h : Calibrated w) (p : Phase) : p.Ready w := by
  cases p with
  | calibration => trivial
  | acquisition => exact .inl h
  | clInit => exact h
  | clBeacon => exact h
  | clCalib => exact h
  | openLoop => exact .inl h
  | staticPoint => trivial

theorem Steerable.ready_of (h : Steerable w) (hphase : w.phase = p) : p.Ready w := hphase ▸ h.ready

theorem Steerable.of_flags (h : Steerable w) (hflags : w'.flags = w.flags)
    (hsteered : Preceded Event.Steers calibration w'.trace)
    (hknown : w'.haveCalibKnowledge = true → Calibrated w')
    (hready : w'.phase.Ready w') : Steerable w' := by
  refine ⟨hsteered, hknown, hready, ?_⟩
  have haligned : w'.bcnAlignment = w.bcnAlignment := congrArg Flags.bcnAlignment hflags
  have hopen : w'.openLoop = w.openLoop := congrArg Flags.openLoop hflags
  rw [haligned, hopen]
  exact h.aligned

theorem Steerable.of_quiet (hw : Steerable w) (h : Quiet P w w')
    (hsteered : Preceded Event.Steers calibration w'.trace) : Steerable w' := by
  refine hw.of_flags h.flags hsteered ?_ ?_
  · rw [h.haveCalibKnowledge]
    exact fun hknown => (hw.known hknown).mono h.adds.subset
  · rw [h.phase]
    exact hw.ready.mono h.adds.subset (congrArg Flags.bcnAlignment h.flags)

/-- What does not steer keeps the invariant. -/
theorem Quiet.advances (h : Unsteered w w') : Advances w w' where
  adds := h.adds.mono fun _ _ => trivial
  steerable hw := hw.of_quiet h (hw.steered.extends h.adds)
  mode := h.mode

/-- Behind a calibration, anything may steer, and every phase may be entered. -/
theorem advances_of_calibrated (h : Steerable w → Calibrated w) (hmode : w'.mode = w.mode)
    (hadds : Extends P w.trace w'.trace) : Advances w w' where
  adds := hadds.mono fun _ _ => trivial
  mode := hmode
  steerable hw := by
    have hcalibrated := (h hw).mono hadds.subset
    refine hw.of_flags (congrArg Mode.flags hmode) ?_ (fun _ => hcalibrated) ?_
    · exact hw.steered.extends_of_subset (h hw) hadds
    · exact .of_calibrated hcalibrated _

/-- The knowledge or the phase changes. -/
theorem develops_of_trace (hflags : w'.flags = w.flags) (htrace : w'.trace = w.trace)
    (hknown : Steerable w → w'.haveCalibKnowledge = true → Calibrated w)
    (hready : Steerable w → w'.phase.Ready w) : Develops w w' where
  adds := .of_eq htrace
  steerable hw := by
    have hsubset : w.trace ⊆ w'.trace := htrace ▸ List.Subset.refl w.trace
    refine hw.of_flags hflags (htrace.symm ▸ hw.steered) ?_ ?_
    · exact fun h => (hknown hw h).mono hsubset
    · exact (hready hw).mono hsubset (congrArg Flags.bcnAlignment hflags)

theorem advances_of_trace (hmode : w'.mode = w.mode) (htrace : w'.trace = w.trace)
    (hknown : Steerable w → w'.haveCalibKnowledge = true → Calibrated w)
    (hready : Steerable w → w'.phase.Ready w) : Advances w w' :=
  ⟨develops_of_trace (congrArg Mode.flags hmode) htrace hknown hready, hmode⟩

end Relations

/-! ## From a phase -/

/-- From a phase, the invariant and the modes are kept. -/
def Leaves (p : Phase) (w w' : World) : Prop := w.phase = p → Advances w w'

/-- From a phase, the phase is kept, too. -/
def Stays (p : Phase) (w w' : World) : Prop := w.phase = p → w'.phase = p ∧ Advances w w'

section Phases

variable {P : Event → Prop} {p q : Phase} {w w' : World} {α β : Type}
  {x : Proc World α} {f : α → Proc World β}

instance : Std.Refl (Stays p) := ⟨fun w h => ⟨h, refl_of Advances w⟩⟩

instance : IsTrans World (Stays p) := ⟨fun _ _ _ h h' hp => by
  obtain ⟨hp', hadvances⟩ := h hp
  obtain ⟨hp'', hadvances'⟩ := h' hp'
  exact ⟨hp'', hadvances.trans hadvances'⟩⟩

theorem Stays.leaves (h : Stays p w w') : Leaves p w w' := fun hp => (h hp).2

theorem Quiet.stays (h : Unsteered w w') : Stays p w w' :=
  fun hp => ⟨h.phase.trans hp, h.advances⟩

/-- Other variables are changed. -/
theorem advances_modify {f : World → World} (h : ∀ w, (f w).mode = w.mode ∧
    (f w).phase = w.phase ∧ (f w).haveCalibKnowledge = w.haveCalibKnowledge ∧
    (f w).trace = w.trace) :
    Runs Advances (modify f : Proc World Unit) := by
  intro w
  obtain ⟨hmode, hphase, hknown, htrace⟩ := h w
  refine advances_of_trace hmode htrace (fun hw => ?_) fun hw => ?_
  · rw [hknown]
    exact hw.known
  · rw [hphase]
    exact hw.ready

/-- Where the calibration is known, anything may steer. -/
theorem ensures_of_known (hx : Runs (Quiet P) x) (hw : w.haveCalibKnowledge = true) :
    Ensures x (fun _ w' => Advances w w') w :=
  (hx w).imp fun _ _ h =>
    advances_of_calibrated (fun hsteerable => hsteerable.known hw) h.mode h.adds

/-- In a phase that is only reached behind a calibration, anything may steer. -/
theorem Quiet.stays_of_ready (h : Quiet P w w') (hp : ∀ w, p.Ready w → Calibrated w) :
    Stays p w w' := by
  intro hphase
  refine ⟨h.phase.trans hphase, advances_of_calibrated ?_ h.mode h.adds⟩
  intro hw
  exact hp w (hw.ready_of hphase)

/-- A phase goes on, and may be left at its end. -/
theorem leaves_bind (hx : Runs (Stays p) x) (hf : ∀ a, Runs (Leaves p) (f a)) :
    Runs (Leaves p) (x >>= f) := by
  intro w
  refine (hx w).bind fun a w₁ h₁ => ?_
  refine (hf a w₁).imp fun b w₂ h₂ hp => ?_
  obtain ⟨hp', hadvances⟩ := h₁ hp
  exact hadvances.trans (h₂ hp')

/-- Another phase is entered, which is ready where the first one is. -/
theorem leaves_enter {y : Proc World α} (hpq : ∀ w, p.Ready w → q.Ready w)
    (hy : Runs (Leaves q) y) :
    Runs (Leaves p) (do
      modify fun w => { w with phase := q }
      y) := by
  intro w
  refine (hy _).imp fun a w' h hp => ?_
  have henter : Advances w { w with phase := q } :=
    advances_of_trace rfl rfl (fun hw => hw.known) fun hw => hpq w (hw.ready_of hp)
  exact henter.trans (h rfl)

end Phases

/-! ## The phases -/

section Statements

variable {P : Event → Prop} {env : Env} {p : Phase}

theorem advances_laser : Runs Advances (laser env) := fun _ =>
  advances_of_trace rfl rfl (fun hw => hw.known) fun hw => hw.ready

theorem stays_laser : Runs (Stays p) (laser env) := fun _ hp =>
  ⟨hp, advances_of_trace rfl rfl (fun hw => hw.known) fun hw => hw.ready⟩

theorem quiet_pointTo (x y : Float) : Runs (Quiet fun e => ¬ e.UsesCamera) (pointTo x y) := by
  unfold pointTo
  refine runs_bind (quiet_modify ?_) fun _ => quiet_emit id
  exact fun _ => ⟨rfl, rfl, rfl⟩

theorem quiet_pointAtStatic : Runs (Quiet fun e => ¬ e.UsesCamera) pointAtStatic :=
  runs_bind quiet_get fun _ => quiet_pointTo _ _

theorem stays_loseCalib : Runs (Stays p) (loseCalib env) := by
  unfold loseCalib
  refine runs_bind (quiet_get.imp fun _ _ => Quiet.stays) fun w => runs_ite ?_ (runs_pure _)
  refine runs_bind ((quiet_ask _).imp fun _ _ => Quiet.stays) fun now => ?_
  intro w hp
  exact ⟨hp, advances_of_trace rfl rfl (fun _ hfalse => by cases hfalse) fun hw => hw.ready⟩

/-- The FSM is steered to the beacon, except while it is aligned. -/
theorem stays_pointAtBeacon (hp : ∀ w, p.Ready w → Calibrated w ∨ w.bcnAlignment = true) :
    Runs (Stays p) pointAtBeacon := by
  intro w
  show Ensures (if w.bcnAlignment = false then pointTo w.setPoint.1 w.setPoint.2 else pure ()) _ w
  split
  · rename_i haligned
    refine (quiet_pointTo _ _ w).imp fun _ w' h hphase => ?_
    refine ⟨h.phase.trans hphase, advances_of_calibrated (fun hw => ?_) h.mode h.adds⟩
    rcases hp w (hw.ready_of hphase) with hcalibrated | htrue
    · exact hcalibrated
    · cases htrue.symm.trans haligned
  · exact refl_of (Stays p) w

/-- Behind a calibration that succeeds, every phase may be entered. -/
theorem calibrationRun_advances (env : Env) (w : World) :
    Ensures (calibrationRun env) (fun success w' =>
      Advances w w' ∧ (success = true → Calibrated w')) w :=
  (ensures_calibrationRun env w).imp fun _ _ h => ⟨h.1.advances, h.2⟩

theorem advances_calibrationPhase : Runs Advances (calibrationPhase env) := by
  have hfailed : Runs Advances (modify fun w => { w with
      haveCalibKnowledge := false, phase := .calibration } : Proc World Unit) := by
    intro w
    refine advances_of_trace rfl rfl (fun _ htrue => ?_) fun _ => trivial
    cases htrue
  unfold calibrationPhase
  refine runs_bind advances_laser fun on => runs_ite ?_ hfailed
  intro w
  refine Ensures.bind_trans (calibrationRun_advances env w) fun success w₁ hcalibrated => ?_
  cases success with
  | false => exact hfailed w₁
  | true =>
    have hcamera : Extends (fun _ => True) w₁.trace (w₁.trace ++ [.camera]) := .concat trivial
    exact advances_of_calibrated (fun _ => hcalibrated rfl) rfl hcamera

/-- A block that does not steer keeps the phase. -/
theorem runs_stays {α : Type} {x : Proc World α} (h : Runs Unsteered x) : Runs (Stays p) x :=
  h.imp fun _ _ => Quiet.stays

theorem stays_modify {f : World → World} (h : ∀ w, (f w).mode = w.mode ∧
    (f w).knowledge = w.knowledge ∧ (f w).trace = w.trace) :
    Runs (Stays p) (modify f : Proc World Unit) :=
  runs_stays (quiet_modify h)

theorem leaves_acquired : Runs (Leaves .acquisition) (acquired env) := by
  unfold acquired
  refine leaves_bind (stays_modify fun _ => ⟨rfl, rfl, rfl⟩) fun _ => ?_
  refine leaves_bind (runs_stays (quiet_emit id)) fun _ => ?_
  refine leaves_bind (runs_stays quiet_get) fun w₁ => ?_
  have hrest : Runs (Leaves .acquisition) (do
      pointAtBeacon
      modify fun w => { w with phase := if w.openLoop then .openLoop else .clInit }) := by
    refine leaves_bind (stays_pointAtBeacon fun _ => id) fun _ => ?_
    intro w hphase
    refine advances_of_trace rfl rfl (fun hw => hw.known) fun hw => ?_
    have hready : Calibrated w ∨ w.bcnAlignment = true := hw.ready_of hphase
    show Phase.Ready w (if w.openLoop then .openLoop else .clInit)
    split
    · exact hready
    · rename_i hopen
      exact hready.resolve_right fun haligned => hopen (hw.aligned haligned)
  split
  · refine leaves_bind (runs_stays quiet_logImage) fun _ => ?_
    refine leaves_bind (stays_modify fun _ => ⟨rfl, rfl, rfl⟩) fun _ => hrest
  · exact hrest

theorem stays_notAcquired : Runs (Stays .acquisition) (notAcquired env) := by
  unfold notAcquired
  refine runs_bind (runs_stays quiet_get) fun w₁ => ?_
  refine runs_ite (runs_stays quiet_logImage) (runs_ite ?_ ?_)
  · refine runs_bind (runs_stays quiet_logImage) fun _ => stays_modify ?_
    exact fun _ => ⟨rfl, rfl, rfl⟩
  · intro w hphase
    exact ⟨rfl, advances_of_trace rfl rfl (fun hw => hw.known) fun hw => hw.ready_of hphase⟩

theorem leaves_acquisitionPhase : Runs (Leaves .acquisition) (acquisitionPhase env) := by
  unfold acquisitionPhase
  refine leaves_bind stays_laser fun off => ?_
  cases off with
  | false =>
    intro w hphase
    exact advances_of_trace rfl rfl (fun hw => hw.known) fun hw => hw.ready_of hphase
  | true =>
    refine leaves_bind (runs_stays quiet_runAcquisition) fun found => runs_ite leaves_acquired ?_
    exact stays_notAcquired.imp fun _ _ => Stays.leaves

theorem leaves_clInitPhase : Runs (Leaves .clInit) clInitPhase := by
  intro w hphase
  refine advances_of_trace rfl rfl (fun hw => hw.known) fun hw => ?_
  have hready : Calibrated w := hw.ready_of hphase
  exact hready

theorem leaves_checkBeaconLoss (hp : ∀ w, p.Ready w → Calibrated w ∨ w.bcnAlignment = true) :
    Runs (Leaves p) (checkBeaconLoss env) := by
  have hpure : Runs (Leaves p) (pure () : Proc World Unit) := fun w _ => refl_of Advances w
  unfold checkBeaconLoss
  refine leaves_bind (runs_stays quiet_get) fun w₁ => runs_ite ?_ hpure
  refine leaves_bind (runs_stays (quiet_ask _)) fun now => ?_
  refine leaves_bind (runs_stays quiet_get) fun w₂ => runs_ite ?_ hpure
  intro w hphase
  refine advances_of_trace rfl rfl (fun hw => hw.known) fun hw => ?_
  exact hp w (hw.ready_of hphase)

theorem leaves_clBeaconPhase : Runs (Leaves .clBeacon) (clBeaconPhase env) := by
  unfold clBeaconPhase
  have hrest : Runs (Leaves .clBeacon) (do
      modify fun w => { w with phase := .clCalib }
      checkBeaconLoss env) :=
    leaves_enter (fun _ => id) (leaves_checkBeaconLoss fun _ => .inl)
  refine leaves_bind stays_laser fun off => ?_
  cases off with
  | false => exact leaves_bind (runs_stays quiet_loseBeacon) fun _ => hrest
  | true =>
    refine leaves_bind (runs_stays quiet_get) fun w₁ => ?_
    refine leaves_bind (runs_stays (quiet_lookFor _ _)) fun sight => ?_
    cases sight with
    | noFrame => exact hrest
    | failure => exact leaves_bind (runs_stays quiet_loseBeacon) fun _ => hrest
    | changed => exact leaves_bind (runs_stays quiet_loseBeacon) fun _ => hrest
    | accepted spot =>
      refine leaves_bind (stays_modify fun _ => ⟨rfl, rfl, rfl⟩) fun _ => ?_
      exact leaves_bind (runs_stays (quiet_sendFeedback not_steers_of_idle)) fun _ => hrest

theorem stays_controlClosedLoop (spot : Group) :
    Runs (Stays .clCalib) (controlClosedLoop env spot) := by
  have hcontrol {x : Proc World Unit} (h : Runs (Quiet fun _ => True) x) :
      Runs (Stays .clCalib) x :=
    h.imp fun _ _ hquiet => hquiet.stays_of_ready fun _ => id
  unfold controlClosedLoop
  refine runs_bind ?_ fun _ => runs_bind (runs_stays quiet_get) fun w₁ => ?_
  · intro w hphase
    exact ⟨hphase, advances_of_trace rfl rfl (fun hw _ => hw.ready_of hphase) fun hw => hw.ready⟩
  · refine runs_bind (hcontrol (quiet_emit trivial)) fun _ => hcontrol (quiet_dither ?_)
    exact runs_pure _

theorem leaves_clCalibPhase : Runs (Leaves .clCalib) (clCalibPhase env) := by
  have hpure : Runs (Leaves .clBeacon) (pure () : Proc World Unit) := fun w _ => refl_of Advances w
  have hrest : Runs (Leaves .clCalib) (do
      modify fun w => { w with phase := .clBeacon }
      if (← get).haveCalibKnowledge = false then
        let now ← ask env.clock
        if now - (← get).startCalibLoss > periodCalibLoss then
          modify fun w => { w with phase := .openLoop }) := by
    refine leaves_enter (fun _ => id) ?_
    refine leaves_bind (runs_stays quiet_get) fun w₁ => runs_ite ?_ hpure
    refine leaves_bind (runs_stays (quiet_ask _)) fun now => ?_
    refine leaves_bind (runs_stays quiet_get) fun w₂ => runs_ite ?_ hpure
    intro w hphase
    exact advances_of_trace rfl rfl (fun hw => hw.known) fun hw => .inl (hw.ready_of hphase)
  unfold clCalibPhase
  refine leaves_bind stays_laser fun on => ?_
  cases on with
  | false => exact leaves_bind stays_loseCalib fun _ => hrest
  | true =>
    refine leaves_bind (runs_stays quiet_get) fun w₁ => ?_
    refine leaves_bind (runs_stays (quiet_lookFor _ _)) fun sight => ?_
    cases sight with
    | noFrame => exact leaves_bind stays_loseCalib fun _ => hrest
    | failure => exact leaves_bind stays_loseCalib fun _ => hrest
    | changed => exact hrest
    | accepted spot => exact leaves_bind (stays_controlClosedLoop spot) fun _ => hrest

theorem leaves_openLoopPhase : Runs (Leaves .openLoop) (openLoopPhase env) := by
  unfold openLoopPhase
  have hrest : Runs (Leaves .openLoop) (checkBeaconLoss env) := leaves_checkBeaconLoss fun _ => id
  refine leaves_bind stays_laser fun off => ?_
  cases off with
  | false => exact leaves_bind (runs_stays quiet_loseBeacon) fun _ => hrest
  | true =>
    refine leaves_bind (runs_stays quiet_get) fun w₁ => ?_
    refine leaves_bind (runs_stays (quiet_lookFor _ _)) fun sight => ?_
    cases sight with
    | noFrame => exact leaves_bind (runs_stays quiet_loseBeacon) fun _ => hrest
    | failure => exact leaves_bind (runs_stays quiet_loseBeacon) fun _ => hrest
    | changed => exact leaves_bind (runs_stays quiet_loseBeacon) fun _ => hrest
    | accepted spot =>
      refine leaves_bind (stays_modify fun _ => ⟨rfl, rfl, rfl⟩) fun _ => ?_
      refine leaves_bind (stays_pointAtBeacon fun _ => id) fun _ => ?_
      refine leaves_bind (runs_stays (quiet_sendFeedback not_steers_of_idle)) fun _ => ?_
      exact leaves_bind (runs_stays (quiet_dither (runs_pure _))) fun _ => hrest

/-- The static point is steered to where the calibration is known. -/
theorem advances_staticPointPhase : Runs Advances (staticPointPhase env) := by
  have hpointed : Runs Advances (modify fun w => { w with
      staticPointingInitialized := true } : Proc World Unit) :=
    advances_modify fun _ => ⟨rfl, rfl, rfl, rfl⟩
  unfold staticPointPhase
  intro w
  rw [Ensures, wp_bind, wp_get]
  split
  · split
    · rename_i hw
      have hpoint := ensures_of_known quiet_pointAtStatic hw
      refine Ensures.bind_trans (hpoint.imp fun _ _ h => ⟨h, trivial⟩) ?_
      exact fun _ w₁ _ => hpointed w₁
    · refine runs_bind ?_ (fun _ => hpointed) w
      exact (quiet_emit id).imp fun _ _ => Quiet.advances
  · split
    · rename_i hw
      exact ensures_of_known (quiet_dither quiet_pointAtStatic) hw
    · exact refl_of Advances w

/-- **The phases keep the invariant.** -/
theorem advances_runPhase : Runs Advances (runPhase env) := by
  intro w
  rw [ensures_runPhase_iff]
  have hphase : Unsteered w { w with trace := w.trace ++ [.phase w.phase] } :=
    ⟨rfl, rfl, .concat id⟩
  have hphases : Runs (Leaves w.phase) (w.phase.statements env) := by
    cases w.phase with
    | calibration => exact advances_calibrationPhase.imp fun _ _ h _ => h
    | acquisition => exact leaves_acquisitionPhase
    | clInit => exact leaves_clInitPhase
    | clBeacon => exact leaves_clBeaconPhase
    | clCalib => exact leaves_clCalibPhase
    | openLoop => exact leaves_openLoopPhase
    | staticPoint => exact advances_staticPointPhase.imp fun _ _ h _ => h
  exact (hphases _).imp fun _ w' h => hphase.advances.trans (h rfl)

end Statements

end ClickA.Pat
