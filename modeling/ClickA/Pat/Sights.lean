import ClickA.Pat.Spots
import ClickA.Pat.Steps

/-!
# Sights of the spots

Each iteration of a phase that tracks a spot accepts it or misses it. Where it is missed, the
process has to clear what it knows of the spot and to keep the time of the first miss, so that it
gives the spot up when it was lost for too long. The three phases do so by hand in each of their
branches, and two branches do not: that of a frame of the beacon that does not arrive in closed
loop, and that of a calibration spot that changed.

## Main definitions

* `World.sightBeacon`, `World.sightCalib`: what an iteration sees of a spot
* `BeaconLost`, `CalibLost`: a spot is not known, and given up if it was lost for too long
* `Renews`: what is known of the calibration spot is renewed by the calibrations that succeed

## Main results

* `ensures_clBeaconPhase`, `ensures_openLoopPhase`, `ensures_clCalibPhase`: an iteration of a phase
-/

namespace ClickA.Pat

open Python (Bytes Ensures Runs runs_bind runs_pure runs_ite wp_bind wp_get wp_modify)
open Stream (Extends)

/-! ## Looking -/

/-- A spot is accepted. -/
def Sight.Accepts : Sight → Prop
  | .accepted _ => True
  | _ => False

/-- What an iteration sees of a spot, where it comes to its switch. It does not look for the spot
where the laser is not confirmed. -/
def World.sight (env : Env) (minBrightness : ℕ) (spot : Group) (w : World) : Sight :=
  if env.laser w.lasers then seeSpot minBrightness spot (env.frame w.time) else .failure

/-- What an iteration sees of the beacon. -/
def World.sightBeacon (env : Env) (w : World) : Sight :=
  w.sight env trackAcquisitionBrightness w.beacon

/-- What an iteration sees of the calibration spot. -/
def World.sightCalib (env : Env) (w : World) : Sight := w.sight env calibMinBrightness w.calib

/-- The time that the process reads first when it has looked. -/
def World.timeBehindLook (env : Env) (w : World) : ℤ :=
  env.clock (if env.laser w.lasers then w.time + 1 else w.time)

/-- The time that the process has read last. -/
def World.lastTime (env : Env) (w : World) : ℤ := env.clock (w.time - 1)

/-- The state where the laser is commanded, and what was looked for has arrived or not. -/
def World.look (env : Env) (w : World) : World :=
  if env.laser w.lasers then
    { w with
      lasers := w.lasers + 1
      time := w.time + 1
      trace := w.trace ++ [.camera] ++ [.camera] }
  else { w with lasers := w.lasers + 1 }

section Look

variable {env : Env} {w : World}

theorem clock_look : env.clock (w.look env).time = w.timeBehindLook env := by
  unfold World.look World.timeBehindLook
  split
  · rfl
  · rfl

theorem findings_look : (w.look env).findings = w.findings := by
  unfold World.look
  split
  · rfl
  · rfl

/-- A phase looks for a spot, and goes on with what it sees. -/
theorem ensures_look {minBrightness : ℕ} {spot : World → Group} {next : Sight → Proc World Unit}
    {unlit : Proc World Unit} {Q : World → Prop}
    (hspot : spot { w with lasers := w.lasers + 1 } = spot w)
    (hlit : env.laser w.lasers = true →
      Ensures (next (w.sight env minBrightness (spot w))) (fun _ w' => Q w') (w.look env))
    (hunlit : env.laser w.lasers = false → Ensures unlit (fun _ w' => Q w') (w.look env)) :
    Ensures (do
      if ← laser env then next (← lookFor env minBrightness (spot (← get))) else unlit)
      (fun _ w' => Q w') w := by
  unfold World.sight World.look at hlit
  unfold World.look at hunlit
  show Ensures (if env.laser w.lasers = true then
      (do next (← lookFor env minBrightness (spot (← get)))) else unlit) _
    { w with lasers := w.lasers + 1 }
  cases hlaser : env.laser w.lasers with
  | true =>
    have hlit := hlit hlaser
    rw [hlaser, if_pos rfl, if_pos rfl, ← hspot] at hlit
    exact hlit
  | false =>
    have hunlit := hunlit hlaser
    rw [hlaser, if_neg (by simp)] at hunlit
    exact hunlit

end Look

/-! ## Losing the beacon -/

/-- The beacon is not known, and it was lost at a time. If that was too long ago, it is given up. -/
structure BeaconLost (env : Env) (start : ℤ) (w : World) : Prop where
  unknown : w.haveBeaconKnowledge = false
  since : w.startBeaconLoss = start
  givenUp : w.phase = .acquisition ↔ w.lastTime env - start > periodBeaconLoss

section Beacon

variable {env : Env} {w : World}

/-- The start of the loss, where the beacon is not seen. -/
def World.beaconStart (w : World) (now : ℤ) : ℤ :=
  if w.haveBeaconKnowledge then now else w.startBeaconLoss

theorem ensures_loseBeacon (env : Env) (w : World) :
    Ensures (loseBeacon env) (fun _ w' => w'.haveBeaconKnowledge = false ∧
      w'.startBeaconLoss = w.beaconStart (env.clock w.time) ∧ w'.phase = w.phase) w := by
  unfold loseBeacon World.beaconStart
  rw [Ensures, wp_bind, wp_get]
  split
  · exact ⟨rfl, rfl, rfl⟩
  · rename_i hunknown
    exact ⟨Bool.eq_false_iff.mpr hunknown, rfl, rfl⟩

theorem ensures_checkBeaconLoss (hunknown : w.haveBeaconKnowledge = false)
    (hphase : w.phase ≠ .acquisition) :
    Ensures (checkBeaconLoss env) (fun _ w' => BeaconLost env w.startBeaconLoss w') w := by
  unfold checkBeaconLoss
  rw [Ensures, wp_bind, wp_get, if_pos hunknown]
  show Ensures (if env.clock w.time - w.startBeaconLoss > periodBeaconLoss then _ else _) _
    { w with time := w.time + 1 }
  split
  · rename_i hlong
    exact ⟨hunknown, rfl, iff_of_true rfl hlong⟩
  · rename_i hshort
    exact ⟨hunknown, rfl, iff_of_false hphase hshort⟩

/-- Where the beacon is known, it is not given up. -/
theorem ensures_checkBeaconLoss_known (hknown : w.haveBeaconKnowledge = true) :
    Ensures (checkBeaconLoss env) (fun _ w' => w'.haveBeaconKnowledge = true) w := by
  unfold checkBeaconLoss
  rw [Ensures, wp_bind, wp_get, if_neg (by simp [hknown])]
  exact hknown

/-- An iteration looks for the beacon. -/
structure LooksForBeacon (env : Env) (slips : Prop) (w w' : World) : Prop where
  found : (w.sightBeacon env).Accepts → w'.haveBeaconKnowledge = true
  lost : ¬ (w.sightBeacon env).Accepts → ¬ slips →
    BeaconLost env (w.beaconStart (w.timeBehindLook env)) w'
  slipped : slips → w'.haveBeaconKnowledge = true

/-- `CL_BEACON` forgets the loss where the frame does not arrive. -/
def World.SlipsBeacon (env : Env) (w : World) : Prop :=
  w.sightBeacon env = .noFrame ∧ w.haveBeaconKnowledge = true

theorem beaconStart_look : (w.look env).beaconStart (env.clock (w.look env).time) =
    w.beaconStart (w.timeBehindLook env) := by
  have hknown : (w.look env).haveBeaconKnowledge = w.haveBeaconKnowledge :=
    congrArg Findings.haveBeaconKnowledge findings_look
  have hstart : (w.look env).startBeaconLoss = w.startBeaconLoss :=
    congrArg Findings.startBeaconLoss findings_look
  unfold World.beaconStart
  rw [hknown, hstart, clock_look]

/-- The beacon is accepted, and what is done with it does not change what is known of it. -/
theorem ensures_accepted {x next : Proc World Unit} (hx : Runs (Works fun _ => True) x)
    (hnext : ∀ w₁, w₁.haveBeaconKnowledge = true →
      Ensures next (fun _ w' => w'.haveBeaconKnowledge = true) w₁)
    (hknown : w.haveBeaconKnowledge = true) : Ensures (do
      x
      next) (fun _ w' => w'.haveBeaconKnowledge = true) w := by
  refine (hx w).bind fun _ w₁ h₁ => hnext w₁ ?_
  exact (congrArg Findings.haveBeaconKnowledge h₁.same).trans hknown

/-- **An iteration of `CL_BEACON`** covers the loss of the beacon, unless its frame does not
arrive. -/
theorem ensures_clBeaconPhase (env : Env) (w : World) :
    Ensures (clBeaconPhase env) (fun _ w' => LooksForBeacon env (w.SlipsBeacon env) w w') w := by
  have hlose (hnot : ¬ (w.sightBeacon env).Accepts) (hslips : w.sightBeacon env ≠ .noFrame) :
      Ensures (do
        loseBeacon env
        modify fun w => { w with phase := .clCalib }
        checkBeaconLoss env)
        (fun _ w' => LooksForBeacon env (w.SlipsBeacon env) w w') (w.look env) := by
    refine (ensures_loseBeacon env _).bind ?_
    rintro _ w₁ ⟨hunknown, hstart, -⟩
    rw [Ensures, wp_bind, wp_modify]
    have hcheck := @ensures_checkBeaconLoss env { w₁ with phase := .clCalib } hunknown (by simp)
    refine hcheck.imp fun _ w' hlost => ?_
    refine ⟨fun haccepts => absurd haccepts hnot, fun _ _ => ?_, fun h => absurd h.1 hslips⟩
    rw [beaconStart_look] at hstart
    rw [← hstart]
    exact hlost
  unfold clBeaconPhase
  refine ensures_look rfl (fun hlit => ?_) fun hunlit => ?_
  · dsimp only
    rw [← World.sightBeacon]
    -- a frame that does not arrive loses nothing
    cases hsight : w.sightBeacon env with
    | accepted spot =>
      have haccepts : (w.sightBeacon env).Accepts := by
        rw [hsight]
        trivial
      have hfeedback : Runs (Works fun _ => True) (sendFeedback env) :=
        works_sendFeedback fun _ _ => trivial
      rw [Ensures, wp_bind, wp_modify]
      refine (ensures_accepted hfeedback (fun w₁ hknown => ?_) rfl).imp fun _ w' hknown => ?_
      · rw [Ensures, wp_bind, wp_modify]
        exact @ensures_checkBeaconLoss_known env { w₁ with phase := .clCalib } hknown
      · exact ⟨fun _ => hknown, fun hnot => absurd haccepts hnot, fun _ => hknown⟩
    | noFrame =>
      have hnot : ¬ (w.sightBeacon env).Accepts := by
        rw [hsight]
        exact id
      have hsame : (w.look env).findings = w.findings := findings_look
      cases hknown : w.haveBeaconKnowledge with
      | true =>
        have hlook : (w.look env).haveBeaconKnowledge = true :=
          (congrArg Findings.haveBeaconKnowledge hsame).trans hknown
        rw [Ensures, wp_bind, wp_modify]
        have hcheck := @ensures_checkBeaconLoss_known env
            { w.look env with phase := .clCalib } hlook
        refine hcheck.imp fun _ w' hknown' => ?_
        exact ⟨fun _ => hknown', fun _ hslips => absurd ⟨hsight, hknown⟩ hslips, fun _ => hknown'⟩
      | false =>
        have hlook : (w.look env).haveBeaconKnowledge = false :=
          (congrArg Findings.haveBeaconKnowledge hsame).trans hknown
        have hstart : (w.look env).startBeaconLoss = w.beaconStart (w.timeBehindLook env) := by
          unfold World.beaconStart
          rw [hknown]
          exact congrArg Findings.startBeaconLoss hsame
        have hcheck := @ensures_checkBeaconLoss env { w.look env with phase := .clCalib } hlook
          (by simp)
        rw [Ensures, wp_bind, wp_modify]
        refine hcheck.imp fun _ w' hlost => ?_
        refine ⟨fun haccepts => absurd haccepts hnot, fun _ _ => ?_, fun hslips => ?_⟩
        · rw [← hstart]
          exact hlost
        · cases hknown.symm.trans hslips.2
    | failure => exact hlose (by rw [hsight]; exact id) (by rw [hsight]; simp)
    | changed => exact hlose (by rw [hsight]; exact id) (by rw [hsight]; simp)
  · refine hlose ?_ ?_
    · unfold World.sightBeacon World.sight
      rw [hunlit]
      exact id
    · unfold World.sightBeacon World.sight
      rw [hunlit]
      simp

/-- **An iteration of `OPEN_LOOP`** covers the loss of the beacon. -/
theorem ensures_openLoopPhase (hphase : w.phase = .openLoop) :
    Ensures (openLoopPhase env) (fun _ w' => LooksForBeacon env False w w') w := by
  -- here each miss loses the beacon, one without a frame too
  have hlose (hnot : ¬ (w.sightBeacon env).Accepts) :
      Ensures (do
        loseBeacon env
        checkBeaconLoss env) (fun _ w' => LooksForBeacon env False w w') (w.look env) := by
    refine (ensures_loseBeacon env _).bind ?_
    rintro _ w₁ ⟨hunknown, hstart, hphase₁⟩
    have hlook : (w.look env).phase = w.phase := by
      unfold World.look
      split
      · rfl
      · rfl
    have hcheck := @ensures_checkBeaconLoss env w₁ hunknown
      (by rw [hphase₁, hlook, hphase]; simp)
    refine hcheck.imp fun _ w' hlost => ?_
    refine ⟨fun haccepts => absurd haccepts hnot, fun _ _ => ?_, False.elim⟩
    rw [beaconStart_look] at hstart
    rw [← hstart]
    exact hlost
  unfold openLoopPhase
  refine ensures_look rfl (fun hlit => ?_) fun hunlit => ?_
  · dsimp only
    rw [← World.sightBeacon]
    cases hsight : w.sightBeacon env with
    | accepted spot =>
      have haccepts : (w.sightBeacon env).Accepts := by
        rw [hsight]
        trivial
      have hpoint : Runs (Works fun _ => True) pointAtBeacon :=
        works_pointAtBeacon fun _ _ => trivial
      have hfeedback : Runs (Works fun _ => True) (sendFeedback env) :=
        works_sendFeedback fun _ _ => trivial
      have hdither : Runs (Works fun _ => True) (dither env (pure ())) := works_dither (runs_pure _)
      rw [Ensures, wp_bind, wp_modify]
      have hknown : Ensures (do
          pointAtBeacon
          sendFeedback env
          dither env (pure ())
          checkBeaconLoss env) (fun _ w' => w'.haveBeaconKnowledge = true)
          { w.look env with haveBeaconKnowledge := true, beacon := spot } :=
        ensures_accepted hpoint (fun _ h₁ => ensures_accepted hfeedback (fun _ h₂ =>
          ensures_accepted hdither (fun _ h₃ => ensures_checkBeaconLoss_known h₃) h₂) h₁) rfl
      refine hknown.imp fun _ w' hknown => ?_
      exact ⟨fun _ => hknown, fun hnot => absurd haccepts hnot, False.elim⟩
    | noFrame => exact hlose (by rw [hsight]; exact id)
    | failure => exact hlose (by rw [hsight]; exact id)
    | changed => exact hlose (by rw [hsight]; exact id)
  · refine hlose ?_
    unfold World.sightBeacon World.sight
    rw [hunlit]
    exact id

end Beacon

/-! ## Losing the calibration spot -/

/-- The calibration spot is not known, and it was lost at a time. If that was too long ago, the
process goes on in open loop. -/
structure CalibLost (env : Env) (start : ℤ) (w : World) : Prop where
  unknown : w.haveCalibKnowledge = false
  since : w.startCalibLoss = start
  givenUp : w.phase = .openLoop ↔ w.lastTime env - start > periodCalibLoss

section Calib

variable {env : Env} {w : World}

/-- The start of the loss, where the calibration spot is not seen. -/
def World.calibStart (w : World) (now : ℤ) : ℤ :=
  if w.haveCalibKnowledge then now else w.startCalibLoss

theorem ensures_loseCalib (env : Env) (w : World) :
    Ensures (loseCalib env) (fun _ w' => w'.haveCalibKnowledge = false ∧
      w'.startCalibLoss = w.calibStart (env.clock w.time)) w := by
  unfold loseCalib World.calibStart
  rw [Ensures, wp_bind, wp_get]
  split
  · exact ⟨rfl, rfl⟩
  · rename_i hunknown
    exact ⟨Bool.eq_false_iff.mpr hunknown, rfl⟩

/-- The end of `CL_CALIB`. -/
def checkCalibLoss (env : Env) : Proc World Unit := do
  modify fun w => { w with phase := .clBeacon }
  if (← get).haveCalibKnowledge = false then
    let now ← ask env.clock
    if now - (← get).startCalibLoss > periodCalibLoss then
      modify fun w => { w with phase := .openLoop }

theorem ensures_checkCalibLoss (hunknown : w.haveCalibKnowledge = false) :
    Ensures (checkCalibLoss env) (fun _ w' => CalibLost env w.startCalibLoss w') w := by
  unfold checkCalibLoss
  rw [Ensures, wp_bind, wp_modify, wp_bind, wp_get, if_pos hunknown]
  show Ensures (if env.clock w.time - w.startCalibLoss > periodCalibLoss then _ else _) _
    { w with time := w.time + 1, phase := .clBeacon }
  split
  · rename_i hlong
    exact ⟨hunknown, rfl, iff_of_true rfl hlong⟩
  · rename_i hshort
    exact ⟨hunknown, rfl, iff_of_false (by simp) hshort⟩

theorem ensures_checkCalibLoss_known (hknown : w.haveCalibKnowledge = true) :
    Ensures (checkCalibLoss env) (fun _ w' => w'.haveCalibKnowledge = true) w := by
  unfold checkCalibLoss
  rw [Ensures, wp_bind, wp_modify, wp_bind, wp_get, if_neg (by simp [hknown])]
  exact hknown

/-- An iteration looks for the calibration spot. -/
structure LooksForCalib (env : Env) (slips : Prop) (w w' : World) : Prop where
  found : (w.sightCalib env).Accepts → w'.haveCalibKnowledge = true
  lost : ¬ (w.sightCalib env).Accepts → ¬ slips →
    CalibLost env (w.calibStart (w.timeBehindLook env)) w'
  slipped : slips → w'.haveCalibKnowledge = true

/-- `CL_CALIB` forgets the loss where the spot changed. -/
def World.SlipsCalib (env : Env) (w : World) : Prop :=
  w.sightCalib env = .changed ∧ w.haveCalibKnowledge = true

theorem calibStart_look : (w.look env).calibStart (env.clock (w.look env).time) =
    w.calibStart (w.timeBehindLook env) := by
  have hknown : (w.look env).haveCalibKnowledge = w.haveCalibKnowledge :=
    congrArg Findings.haveCalibKnowledge findings_look
  have hstart : (w.look env).startCalibLoss = w.startCalibLoss :=
    congrArg Findings.startCalibLoss findings_look
  unfold World.calibStart
  rw [hknown, hstart, clock_look]

theorem works_controlClosedLoop (env : Env) (spot : Group) (w : World) :
    Ensures (controlClosedLoop env spot) (fun _ w' => w'.haveCalibKnowledge = true) w := by
  have hdither : Runs (Works fun _ => True) (dither env (pure ())) := works_dither (runs_pure _)
  unfold controlClosedLoop
  rw [Ensures, wp_bind, wp_modify, wp_bind, wp_get, wp_bind, emit, wp_modify]
  exact (hdither _).imp fun _ w' h => congrArg Findings.haveCalibKnowledge h.same

/-- **An iteration of `CL_CALIB`** covers the loss of the calibration spot, unless the spot
changed. -/
theorem ensures_clCalibPhase (env : Env) (w : World) :
    Ensures (clCalibPhase env) (fun _ w' => LooksForCalib env (w.SlipsCalib env) w w') w := by
  have hlose (hnot : ¬ (w.sightCalib env).Accepts) (hslips : w.sightCalib env ≠ .changed) :
      Ensures (do
        loseCalib env
        checkCalibLoss env)
        (fun _ w' => LooksForCalib env (w.SlipsCalib env) w w') (w.look env) := by
    refine (ensures_loseCalib env _).bind ?_
    rintro _ w₁ ⟨hunknown, hstart⟩
    refine (ensures_checkCalibLoss hunknown).imp fun _ w' hlost => ?_
    refine ⟨fun haccepts => absurd haccepts hnot, fun _ _ => ?_, fun h => absurd h.1 hslips⟩
    rw [calibStart_look] at hstart
    rw [← hstart]
    exact hlost
  unfold clCalibPhase
  refine ensures_look rfl (fun hlit => ?_) fun hunlit => ?_
  · dsimp only
    rw [← World.sightCalib]
    -- a spot that changed loses nothing
    cases hsight : w.sightCalib env with
    | accepted spot =>
      have haccepts : (w.sightCalib env).Accepts := by
        rw [hsight]
        trivial
      refine (works_controlClosedLoop env spot _).bind fun _ w₁ hknown => ?_
      refine (@ensures_checkCalibLoss_known env w₁ hknown).imp fun _ w' hknown' => ?_
      exact ⟨fun _ => hknown', fun hnot => absurd haccepts hnot, fun _ => hknown'⟩
    | changed =>
      have hnot : ¬ (w.sightCalib env).Accepts := by
        rw [hsight]
        exact id
      have hsame : (w.look env).findings = w.findings := findings_look
      cases hknown : w.haveCalibKnowledge with
      | true =>
        have hlook : (w.look env).haveCalibKnowledge = true :=
          (congrArg Findings.haveCalibKnowledge hsame).trans hknown
        refine (@ensures_checkCalibLoss_known env (w.look env) hlook).imp fun _ w' hknown' => ?_
        exact ⟨fun _ => hknown', fun _ hslips => absurd ⟨hsight, hknown⟩ hslips, fun _ => hknown'⟩
      | false =>
        have hlook : (w.look env).haveCalibKnowledge = false :=
          (congrArg Findings.haveCalibKnowledge hsame).trans hknown
        have hstart : (w.look env).startCalibLoss = w.calibStart (w.timeBehindLook env) := by
          unfold World.calibStart
          rw [hknown]
          exact congrArg Findings.startCalibLoss hsame
        refine (ensures_checkCalibLoss hlook).imp fun _ w' hlost => ?_
        refine ⟨fun haccepts => absurd haccepts hnot, fun _ _ => ?_, fun hslips => ?_⟩
        · rw [← hstart]
          exact hlost
        · cases hknown.symm.trans hslips.2
    | failure => exact hlose (by rw [hsight]; exact id) (by rw [hsight]; simp)
    | noFrame => exact hlose (by rw [hsight]; exact id) (by rw [hsight]; simp)
  · refine hlose ?_ ?_
    · unfold World.sightCalib World.sight
      rw [hunlit]
      exact id
    · unfold World.sightCalib World.sight
      rw [hunlit]
      simp

end Calib

/-! ## The other phases -/

/-- The event is no calibration that succeeds. -/
def Event.Uncalibrated (e : Event) : Prop := e ≠ .calibrationRun true

theorem Event.Mute.uncalibrated {e : Event} (h : e.Mute) : e.Uncalibrated := by
  rintro rfl
  exact h

/-- The spots that the process knows. -/
def World.spots (w : World) : Bool × Bool := (w.haveBeaconKnowledge, w.haveCalibKnowledge)

/-- Only a calibration that succeeds renews what is known of the calibration spot. What is known of
the beacon stays the same. -/
structure Renews (w w' : World) : Prop where
  beacon : w'.haveBeaconKnowledge = w.haveBeaconKnowledge
  calib : ∃ events, w'.trace = w.trace ++ events ∧
    (.calibrationRun true ∈ events → w'.haveCalibKnowledge = true) ∧
    (.calibrationRun true ∉ events → w'.haveCalibKnowledge = true → w.haveCalibKnowledge = true)

section Renews

variable {env : Env} {w w₁ w' : World}

theorem Agrees.spots {P : Event → Prop} (h : Works P w w') : Agrees World.spots P w w' := by
  have hbeacon : w'.haveBeaconKnowledge = w.haveBeaconKnowledge :=
    congrArg Findings.haveBeaconKnowledge h.same
  have hcalib : w'.haveCalibKnowledge = w.haveCalibKnowledge :=
    congrArg Findings.haveCalibKnowledge h.same
  exact ⟨Prod.ext hbeacon hcalib, h.adds⟩

theorem Agrees.renews (h : Agrees World.spots Event.Uncalibrated w w') : Renews w w' where
  beacon := congrArg Prod.fst h.same
  calib := by
    obtain ⟨events, htrace, hevents⟩ := h.adds
    have hcalib : w'.haveCalibKnowledge = w.haveCalibKnowledge := congrArg Prod.snd h.same
    exact ⟨events, htrace, fun hmem => absurd rfl (hevents _ hmem), fun _ => hcalib.symm.trans⟩

/-- What happens before a calibration, and behind it. -/
theorem Renews.between (hbefore : Agrees World.spots Event.Uncalibrated w w₁) (h : Renews w₁ w')
    {w'' : World} (hafter : Agrees World.spots Event.Uncalibrated w' w'') : Renews w w'' where
  beacon := by
    have hbeacon : w₁.haveBeaconKnowledge = w.haveBeaconKnowledge := congrArg Prod.fst hbefore.same
    have hbeacon' : w''.haveBeaconKnowledge = w'.haveBeaconKnowledge :=
      congrArg Prod.fst hafter.same
    exact hbeacon'.trans (h.beacon.trans hbeacon)
  calib := by
    obtain ⟨before, hbeforeTrace, hbeforeEvents⟩ := hbefore.adds
    obtain ⟨events, htrace, hrenews, hkeeps⟩ := h.calib
    obtain ⟨after, hafterTrace, hafterEvents⟩ := hafter.adds
    have hcalib : w₁.haveCalibKnowledge = w.haveCalibKnowledge := congrArg Prod.snd hbefore.same
    have hcalib' : w''.haveCalibKnowledge = w'.haveCalibKnowledge := congrArg Prod.snd hafter.same
    refine ⟨before ++ events ++ after, ?_, fun hmem => ?_, fun hnot hknown => ?_⟩
    · rw [hafterTrace, htrace, hbeforeTrace, List.append_assoc, List.append_assoc,
        List.append_assoc]
    · rcases List.mem_append.mp hmem with hmem | hmem
      · rcases List.mem_append.mp hmem with hmem | hmem
        · exact absurd rfl (hbeforeEvents _ hmem)
        · exact hcalib'.trans (hrenews hmem)
      · exact absurd rfl (hafterEvents _ hmem)
    · have hevents : .calibrationRun true ∉ events := fun hmem =>
        hnot (List.mem_append_left _ (List.mem_append_right _ hmem))
      exact hcalib.symm.trans (hkeeps hevents (hcalib'.symm.trans hknown))

/-- A calibration that reports its result, and keeps it. -/
theorem Renews.of_result {success : Bool} (hbefore : Works Event.Uncalibrated w w₁)
    (hbeacon : w'.haveBeaconKnowledge = w₁.haveBeaconKnowledge)
    (htrace : Extends Event.Uncalibrated (w₁.trace ++ [.calibrationRun success]) w'.trace)
    (hrenews : success = true → w'.haveCalibKnowledge = true)
    (hkeeps : success = false → w'.haveCalibKnowledge = true → w₁.haveCalibKnowledge = true) :
    Renews w w' := by
  refine Renews.between hbefore.spots ⟨hbeacon, ?_⟩ (refl_of _ w')
  obtain ⟨events, hevents, hnone⟩ := htrace
  refine ⟨.calibrationRun success :: events, ?_, fun hmem => ?_, fun hnot => hkeeps ?_⟩
  · rw [hevents, List.append_assoc]
    rfl
  · rcases List.mem_cons.mp hmem with heq | hmem
    · cases heq
      exact hrenews rfl
    · exact absurd rfl (hnone _ hmem)
  · cases success with
    | false => rfl
    | true => exact absurd List.mem_cons_self hnot

theorem renews_calibTest (env : Env) (w : World) :
    Ensures (calibTest env) (fun _ w' => Renews w w') w := by
  have hlaser : Runs (Works Event.Uncalibrated) (laser env) := works_laser
  unfold calibTest
  refine (hlaser w).bind fun on w₁ h₁ => ?_
  split
  · refine (works_calibrationRun (fun _ => Event.Mute.uncalibrated) env w₁).bind ?_
    rintro success _ ⟨w₂, h₂, rfl⟩
    have h₂ := trans_of (Works Event.Uncalibrated) h₁ h₂
    cases success with
    | false =>
      exact .of_result h₂ rfl (.of_eq rfl) (by cases ·) fun _ hfalse => by cases hfalse
    | true =>
      have hcamera : Extends Event.Uncalibrated (w₂.trace ++ [.calibrationRun true])
          (w₂.trace ++ [.calibrationRun true] ++ [.camera]) :=
              .concat (by simp [Event.Uncalibrated])
      exact .of_result h₂ rfl hcamera (fun _ => rfl) (by cases ·)
  · exact h₁.spots.renews

/-- `CALIBRATION` ends with a calibration that succeeds. -/
theorem renews_calibrationPhase (env : Env) (w : World) :
    Ensures (calibrationPhase env) (fun _ w' => Renews w w' ∧ (w'.phase = .calibration ∨
      w'.phase = .acquisition ∧ w'.haveCalibKnowledge = true)) w := by
  have hlaser : Runs (Works Event.Uncalibrated) (laser env) := works_laser
  unfold calibrationPhase
  refine (hlaser w).bind fun on w₁ h₁ => ?_
  split
  · refine (works_calibrationRun (fun _ => Event.Mute.uncalibrated) env w₁).bind ?_
    rintro success _ ⟨w₂, h₂, rfl⟩
    have h₂ := trans_of (Works Event.Uncalibrated) h₁ h₂
    cases success with
    | false =>
      refine ⟨.of_result h₂ rfl (.of_eq rfl) (by cases ·) ?_, .inl rfl⟩
      exact fun _ hfalse => by cases hfalse
    | true =>
      have hcamera : Extends Event.Uncalibrated (w₂.trace ++ [.calibrationRun true])
          (w₂.trace ++ [.calibrationRun true] ++ [.camera]) :=
              .concat (by simp [Event.Uncalibrated])
      refine ⟨.of_result h₂ rfl hcamera (fun _ => rfl) (by cases ·), ?_⟩
      exact .inr ⟨rfl, rfl⟩
  · refine ⟨⟨congrArg Findings.haveBeaconKnowledge h₁.same, ?_⟩, .inl rfl⟩
    obtain ⟨events, htrace, hevents⟩ := h₁.adds
    exact ⟨events, htrace, fun hmem => absurd rfl (hevents _ hmem), fun _ hfalse => by cases hfalse⟩

theorem renews_selfTest (env : Env) (w : World) :
    Ensures (selfTest env) (fun _ w' => Renews w w') w := by
  have hmute (e : Event) (he : e.Mute) : e.Uncalibrated := he.uncalibrated
  have hdevices (w : World) : Ensures (selfTestDevices env) (fun _ w' => Renews w w') w := by
    unfold selfTestDevices
    refine (works_selfTestLaser hmute w).bind fun laser w₁ h₁ => ?_
    split
    · refine (works_selfTestFsm hmute w₁).bind fun fsm w₂ h₂ => ?_
      have h₂ := trans_of (Works Event.Uncalibrated) h₁ h₂
      split
      · refine (ensures_selfTestCalibration hmute env w₂).bind ?_
        rintro verdict w₃ ⟨success, hfindings, calibrated, hbefore, hafter⟩
        have hworks : Works Event.Uncalibrated w₂ { w₂ with trace := calibrated } := ⟨rfl, hbefore⟩
        have hcalib : w₃.haveCalibKnowledge = (w₂.haveCalibKnowledge || success) :=
          congrArg Findings.haveCalibKnowledge hfindings
        refine .of_result (trans_of (Works _) h₂ hworks) ?_ hafter ?_ ?_
        · exact congrArg Findings.haveBeaconKnowledge hfindings
        · rintro rfl
          rw [hcalib, Bool.or_true]
        · rintro rfl hknown
          rwa [hcalib, Bool.or_false] at hknown
      · exact h₂.spots.renews
    · exact h₁.spots.renews
  have hothers (w : World) : Ensures (selfTestOthers env) (fun _ w' => Renews w w') w := by
    have hpacket {w₁ : World} {fpga : Verdict} {devices : Verdict × Verdict × Verdict}
        (h : Renews w w₁) : Ensures (do
          modify fun w => { w with selfTestFailed := w.selfTestFailed || !w.selfTestPassed }
          emit (.selfTest ⟨.pass, fpga, devices.1, devices.2.1, devices.2.2⟩
            (selfTestError env (← get).selfTestStream)) : Proc World Unit)
          (fun _ w' => Renews w w') w₁ := by
      refine Renews.between (refl_of _ w) h ⟨rfl, .concat ?_⟩
      simp [Event.Uncalibrated]
    unfold selfTestOthers
    refine (runs_works (senses_selfTestFpga (P := Event.Uncalibrated)) w).bind fun fpga w₁ h₁ => ?_
    dsimp only
    split
    · refine (hdevices w₁).bind fun devices w₂ h₂ => ?_
      exact hpacket (.between h₁.spots h₂ (refl_of _ w₂))
    · exact hpacket h₁.spots.renews
  unfold selfTest
  rw [Ensures, wp_bind, wp_get]
  dsimp only
  split
  · refine (runs_works (senses_report (P := Event.Uncalibrated) _) w).bind fun _ w₁ h₁ => ?_
    exact (hothers w₁).imp fun _ w' h => .between h₁.spots h (refl_of _ w')
  · exact hothers w

/-- The phase behind an acquisition: it goes on, or ends in a phase that fits the mode. -/
def World.FitsMode (w : World) : Prop :=
  w.phase = .acquisition ∨ w.phase = .openLoop ∨ w.phase = .clInit ∧ w.openLoop = false

/-- The beacon is found, and the process goes on to another phase. -/
theorem ensures_acquired (env : Env) (w : World) : Ensures (acquired env) (fun _ w' =>
    w'.phase ≠ .acquisition ∧ w'.FitsMode ∧ w'.haveBeaconKnowledge = true) w := by
  have hpoint (w : World) (hknown : w.haveBeaconKnowledge = true) : Ensures (do
      pointAtBeacon
      modify fun w => { w with phase := if w.openLoop then .openLoop else .clInit })
      (fun _ w' => w'.phase ≠ .acquisition ∧ w'.FitsMode ∧ w'.haveBeaconKnowledge = true) w := by
    refine (works_pointAtBeacon (P := fun _ => True) (fun _ _ => trivial) w).bind fun _ w₁ h₁ => ?_
    have hknown₁ := (congrArg Findings.haveBeaconKnowledge h₁.same).trans hknown
    show (if w₁.openLoop = true then Phase.openLoop else Phase.clInit) ≠ .acquisition ∧
      World.FitsMode { w₁ with phase := if w₁.openLoop then .openLoop else .clInit } ∧ _
    cases hopen : w₁.openLoop with
    | true => exact ⟨by simp, .inr (.inl rfl), hknown₁⟩
    | false => exact ⟨by simp, .inr (.inr ⟨rfl, rfl⟩), hknown₁⟩
  unfold acquired
  rw [Ensures, wp_bind, wp_modify, wp_bind, emit, wp_modify, wp_bind, wp_get]
  split
  · refine (works_logImage (P := fun _ => True) (fun _ _ => trivial) _).bind fun _ w₁ h₁ => ?_
    rw [Ensures, wp_bind, wp_modify]
    have hknown : w₁.haveBeaconKnowledge = true := congrArg Findings.haveBeaconKnowledge h₁.same
    exact hpoint { w₁ with acqImgSaved := true } hknown
  · exact hpoint _ rfl

/-- `ACQUISITION` ends where the beacon is found. -/
theorem ensures_acquisitionPhase (env : Env) (hphase : w.phase = .acquisition) :
    Ensures (acquisitionPhase env) (fun _ w' => w'.FitsMode ∧
      (w'.phase ≠ .acquisition → w'.haveBeaconKnowledge = true) ∧
      (w'.phase = .acquisition → w'.haveBeaconKnowledge = true →
        w.haveBeaconKnowledge = true)) w := by
  have hacquire : Runs (Senses fun _ => True) (runAcquisition env) :=
    senses_runAcquisition (fun _ _ => trivial) fun _ => trivial
  have hlog : Runs (Senses fun _ => True) (logImage env) := senses_logImage fun _ _ => trivial
  unfold acquisitionPhase
  rw [Ensures, wp_bind]
  show Ensures (if env.laser w.lasers = true then _ else _) _ { w with lasers := w.lasers + 1 }
  split
  · refine (hacquire _).bind fun found w₁ h₁ => ?_
    have hphase₁ : w₁.phase = .acquisition := (h₁.variable World.phase fun _ => rfl).trans hphase
    have hknown₁ : w₁.haveBeaconKnowledge = w.haveBeaconKnowledge :=
      h₁.variable World.haveBeaconKnowledge fun _ => rfl
    cases found with
    | true =>
      refine (ensures_acquired env w₁).imp fun _ w' h => ?_
      exact ⟨h.2.1, fun _ => h.2.2, fun hfalse => absurd hfalse h.1⟩
    | false =>
      have hstays {w₂ : World} (h₂ : Senses (fun _ => True) w₁ w₂) : w₂.FitsMode ∧
          (w₂.phase ≠ .acquisition → w₂.haveBeaconKnowledge = true) ∧
          (w₂.phase = .acquisition → w₂.haveBeaconKnowledge = true →
            w.haveBeaconKnowledge = true) := by
        have hphase₂ := (h₂.variable World.phase fun _ => rfl).trans hphase₁
        have hknown₂ := (h₂.variable World.haveBeaconKnowledge fun _ => rfl).trans hknown₁
        exact ⟨.inl hphase₂, fun hnot => absurd hphase₂ hnot, fun _ => hknown₂.symm.trans⟩
      show Ensures (notAcquired env) _ w₁
      unfold notAcquired
      rw [Ensures, wp_bind, wp_get]
      split
      · exact (hlog w₁).imp fun _ w₂ h₂ => hstays h₂
      · split
        · refine (hlog w₁).bind fun _ w₂ h₂ => ?_
          have hstays := hstays h₂
          exact hstays
        · exact ⟨.inl rfl, fun hnot => absurd rfl hnot, fun _ hfalse => by cases hfalse⟩
  · exact ⟨.inl rfl, fun hnot => absurd rfl hnot, fun _ hfalse => by cases hfalse⟩

/-- The phase stays what it is, or the beacon is given up. -/
def GivesUp (w w' : World) : Prop := w'.phase = w.phase ∨ w'.phase = .acquisition

instance : Std.Refl GivesUp := ⟨fun _ => .inl rfl⟩

instance : IsTrans World GivesUp := ⟨fun _ _ _ h h' => by
  rcases h' with h' | h'
  · exact h.imp h'.trans h'.trans
  · exact .inr h'⟩

theorem Quiet.givesUp {P : Event → Prop} (h : Quiet P w w') : GivesUp w w' := .inl h.phase

/-- `OPEN_LOOP` goes on, or the beacon is given up. -/
theorem givesUp_openLoopPhase : Runs GivesUp (openLoopPhase env) := by
  have hquiet {α : Type} {x : Proc World α} (hx : Runs Unsteered x) : Runs GivesUp x :=
    hx.imp fun _ _ => Quiet.givesUp
  have hpoint : Runs GivesUp pointAtBeacon := by
    unfold pointAtBeacon
    refine runs_bind (hquiet quiet_get) fun w => runs_ite ?_ (runs_pure _)
    exact (quiet_pointTo _ _).imp fun _ _ => Quiet.givesUp
  have hcheck : Runs GivesUp (checkBeaconLoss env) := by
    unfold checkBeaconLoss
    refine runs_bind (hquiet quiet_get) fun w => runs_ite ?_ (runs_pure _)
    refine runs_bind (hquiet (quiet_ask _)) fun now => runs_bind (hquiet quiet_get) fun w => ?_
    exact runs_ite (fun _ => .inr rfl) (runs_pure _)
  have hlose : Runs GivesUp (do
      loseBeacon env
      checkBeaconLoss env) := runs_bind (hquiet quiet_loseBeacon) fun _ => hcheck
  unfold openLoopPhase
  refine runs_bind (fun _ => .inl rfl) fun on => runs_ite ?_ hlose
  refine runs_bind (hquiet quiet_get) fun w => ?_
  refine runs_bind (hquiet (quiet_lookFor _ _)) fun sight => ?_
  cases sight with
  | accepted spot =>
    refine runs_bind (fun _ => .inl rfl) fun _ => runs_bind hpoint fun _ => ?_
    refine runs_bind (hquiet (quiet_sendFeedback fun _ => And.left)) fun _ => ?_
    exact runs_bind (hquiet (quiet_dither (runs_pure _))) fun _ => hcheck
  | noFrame => exact hlose
  | failure => exact hlose
  | changed => exact hlose

/-- `STATIC_POINT` goes on. -/
theorem ensures_staticPointPhase (env : Env) (w : World) :
    Ensures (staticPointPhase env) (fun _ w' => w'.phase = w.phase) w := by
  have hpoint : Runs (Quiet fun e => ¬ e.UsesCamera) pointAtStatic := quiet_pointAtStatic
  have hemit : Runs (Quiet fun e => ¬ e.UsesCamera) (emit (.setNormalizedAngles 0 0)) :=
    quiet_emit id
  unfold staticPointPhase
  rw [Ensures, wp_bind, wp_get]
  split
  · split
    · exact (hpoint w).bind fun _ w₁ h₁ => h₁.phase
    · exact (hemit w).bind fun _ w₁ h₁ => h₁.phase
  · split
    · exact (quiet_dither hpoint w).imp fun _ w₁ h₁ => h₁.phase
    · exact rfl

end Renews

end ClickA.Pat
