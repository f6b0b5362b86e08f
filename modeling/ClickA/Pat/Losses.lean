import ClickA.Pat.Sights
import ClickA.Stream.Watch

/-!
# Losing the spots

Over a run of the process, the flag of a spot is set by the iterations that accept it and by the
calibrations and acquisitions that succeed, and the time of its loss by the first miss behind that.

## Main definitions

* `SeesBeacon`, `MissesBeacon`, `SeesCalib`, `MissesCalib`: the iterations of a run that do so
* `BeaconCovered`, `CalibCovered`: the loss timer of a spot covers a miss
* `Slips`: an iteration takes a branch that forgets the loss

## Main results

* `watch_beacon`, `watch_calib`: the flags and the starts are kept as those of a watch
* `covered_iff`: **the loss timers cover every miss if and only if no iteration slips**
* `not_covered_lostFrame`: a frame that does not arrive
-/

namespace ClickA.Pat

open Python (Bytes Ensures Runs runs_bind runs_pure runs_ite wp_bind wp_get wp_modify)
open Stream (Extends FirstMiss Watch)

/-! ## Between sessions -/

/-- A session begins in a phase that does not look for a spot yet. It begins with the acquisition in
open loop, or where the calibration spot is known. -/
def Entered (w : World) : Prop :=
  (w.phase = .calibration ∨ w.phase = .acquisition ∨ w.phase = .staticPoint) ∧
    (w.phase = .acquisition → w.openLoop = true ∨ w.haveCalibKnowledge = true)

/-- What a step outside of the main loop does with the spots. -/
structure Awaits (w w' : World) : Prop where
  renews : Renews w w'
  main : w'.place = .main → Entered w'

section Awaits

variable {env : Env} {w : World}

theorem renews_standbyCommand (env : Env) (command : Option Command) (data : Bytes) (w : World) :
    Ensures (standbyCommand env command data) (fun _ w' => Renews w w') w := by
  by_cases hcalib : command = some .calibTest
  · rw [hcalib]
    exact renews_calibTest env w
  · by_cases htest : command = some .selfTest
    · rw [htest]
      exact renews_selfTest env w
    · refine (works_standbyCommand (P := Event.Uncalibrated) ?_ hcalib htest data w).imp ?_
      · exact fun _ => Event.Mute.uncalibrated
      · exact fun _ w' h => h.spots.renews

/-- The phases in which a command starts a session. -/
theorem entered_of_enters {command : Command} {flags : Flags} {phase : Phase}
    (hprescribes : command.prescribes = some flags) (henters : command.Enters w phase) :
    Entered ((w.raise flags).start phase) := by
  have hcalib (henters : phase = .calibration ∨
      phase = .acquisition ∧ w.haveCalibKnowledge = true) :
      Entered ((w.raise flags).start phase) := by
    rcases henters with rfl | ⟨rfl, hknown⟩
    · exact ⟨.inl rfl, (by cases ·)⟩
    · exact ⟨.inr (.inl rfl), fun _ => .inr hknown⟩
  cases command <;> cases hprescribes
  case startPat => exact hcalib henters
  case startPatOpenLoop => exact hcalib henters
  case startPatBusFeedback => exact hcalib henters
  case startPatOpenLoopBusFeedback => exact hcalib henters
  case startPatStaticPoint =>
    obtain rfl : phase = .staticPoint := henters
    exact ⟨.inr (.inr rfl), (by cases ·)⟩
  case bcnAlign =>
    obtain rfl : phase = .acquisition := henters
    exact ⟨.inr (.inl rfl), fun _ => .inl (Bool.or_true _)⟩

theorem Entered.congr {w' : World} (h : Entered w) (hphase : w'.phase = w.phase)
    (hflags : w'.flags = w.flags) (hcalib : w'.haveCalibKnowledge = w.haveCalibKnowledge) :
    Entered w' := by
  have hopen : w'.openLoop = w.openLoop := congrArg Flags.openLoop hflags
  unfold Entered
  rw [hphase, hopen, hcalib]
  exact h

theorem awaits_standbyStep (hplace : w.place = .standby) (hstandby : w.standby = true) :
    Ensures (standbyStep env) (fun _ w' => Awaits w w') w := by
  have hmute (e : Event) (he : e.Mute) : e.Uncalibrated := he.uncalibrated
  have htaken : Senses Event.Uncalibrated w (taken env w) :=
    senses_taken hmute (by simp [Event.Uncalibrated])
  have hplace' : (taken env w).place = .standby :=
    (htaken.variable World.place fun _ => rfl).trans hplace
  have hstandby' : (taken env w).standby = true :=
    (htaken.variable World.standby fun _ => rfl).trans hstandby
  -- `Q` is what the command leaves behind, and the departure to the main loop keeps it
  refine standbyStep_of_command
    (Q := fun w₁ => Renews w w₁ ∧ w₁.place ≠ .main ∧
      (w₁.standby = false → w₁.operational = true → Entered w₁)) ?_ ?_ ?_
  · rintro w₁ w₂ ⟨hrenews, hnot, hentered⟩ hdeparts
    have hworks : Works Event.Uncalibrated w₁ w₂ := hdeparts.works.mono (fun hsame => hsame) hmute
    refine ⟨.between (refl_of _ w) hrenews hworks.spots, fun hmain => ?_⟩
    obtain ⟨hphase, hflags, hstarted⟩ := hdeparts.main hmain
    obtain ⟨hended, hoperational⟩ := hstarted.resolve_left hnot
    refine (hentered hended hoperational).congr hphase hflags ?_
    exact congrArg Findings.haveCalibKnowledge hworks.same
  · intro _
    have hworks : Works Event.Uncalibrated w w.interrupt := ⟨rfl, .of_eq rfl⟩
    refine ⟨hworks.spots.renews, ?_, fun _ hfalse => by cases hfalse⟩
    show w.place ≠ .main
    rw [hplace]
    simp
  · intro _ data
    have hcommand := (renews_standbyCommand env (nextCommand env w) data (taken env w)).and
      (ensures_standbyCommand (nextCommand env w) data (taken env w))
    refine hcommand.imp ?_
    rintro _ w₁ ⟨hrenews, hmode⟩
    refine ⟨.between htaken.works.spots hrenews (refl_of _ w₁), ?_⟩
    rcases hmode with hmode | ⟨hsame, hended, hoperational⟩ |
      ⟨command, flags, phase, -, hprescribes, henters, hquiet⟩
    · have hplace₁ : w₁.place = .standby := (congrArg Mode.place hmode).trans hplace'
      have hstandby₁ : w₁.standby = true := (congrArg Mode.standby hmode).trans hstandby'
      refine ⟨by simp [hplace₁], fun hfalse => ?_⟩
      cases hfalse.symm.trans hstandby₁
    · refine ⟨by simp [hsame, hplace'], fun _ htrue => ?_⟩
      cases hoperational.symm.trans htrue
    · have hplace₁ : w₁.place = .standby := (congrArg Mode.place hquiet.mode).trans hplace'
      refine ⟨by simp [hplace₁], fun _ _ => ?_⟩
      exact (entered_of_enters hprescribes henters).congr hquiet.phase hquiet.flags
        hquiet.haveCalibKnowledge

theorem awaits_cameraInitIteration (hplace : w.place = .cameraInit) (hstandby : w.standby = true) :
    Ensures (cameraInitIteration env) (fun _ w' => Awaits w w') w := by
  have hworks : Runs (Works Event.Uncalibrated) (cameraInitIteration env) :=
    works_cameraInitIteration (fun _ => Event.Mute.uncalibrated) (by simp [Event.Uncalibrated])
      (by simp [Event.Uncalibrated])
  refine ((hworks w).and (begins_cameraInitIteration hplace hstandby)).imp ?_
  rintro _ w' ⟨hworks, hbegins⟩
  refine ⟨hworks.spots.renews, fun hmain => ?_⟩
  rcases hbegins with hresting | ⟨-, flags, hstarts⟩
  · exact absurd hmain hresting.place
  · have hphase : w'.phase = .staticPoint := (hstarts.static rfl).1
    refine ⟨.inr (.inr hphase), fun hacquisition => ?_⟩
    cases hphase.symm.trans hacquisition

/-- A step outside of the main loop. -/
theorem awaits_step (env : Env) (h : Resting w) : Awaits w (step env w) := by
  refine Proc.after_of_ensures (Q := Awaits w) ?_
  unfold iteration
  rw [Ensures, wp_bind, wp_get]
  cases hplace : w.place with
  | cameraInit =>
    have hstandby : w.standby = true := h.standby.resolve_right (by simp [hplace])
    exact awaits_cameraInitIteration hplace hstandby
  | standby =>
    have hstandby : w.standby = true := h.standby.resolve_right (by simp [hplace])
    exact awaits_standbyStep hplace hstandby
  | main => exact absurd hplace h.place
  | ended =>
    have hsame : Agrees World.spots Event.Uncalibrated w w := refl_of _ w
    exact ⟨hsame.renews, fun hmain => absurd hmain h.place⟩

end Awaits

/-! ## Sessions -/

/-- An iteration of a session comes to its switch, in a phase. -/
structure Reaches (env : Env) (phase : Phase) (n : ℕ) : Prop where
  main : (state env n).place = .main
  goes : (approach env).value (state env n) = false
  phase : (state env n).phase = phase

/-- The state where an iteration comes to its switch. -/
def atSwitch (env : Env) (n : ℕ) : World := switch env (state env n)

/-- An iteration misses the beacon, in `CL_BEACON` or `OPEN_LOOP`. -/
def MissesBeacon (env : Env) (n : ℕ) : Prop :=
  (Reaches env .clBeacon n ∨ Reaches env .openLoop n) ∧
    ¬ ((atSwitch env n).sightBeacon env).Accepts

/-- An iteration accepts the beacon, in `CL_BEACON` or `OPEN_LOOP`, or finds it in `ACQUISITION`. -/
def SeesBeacon (env : Env) (n : ℕ) : Prop :=
  (Reaches env .clBeacon n ∨ Reaches env .openLoop n) ∧
      ((atSwitch env n).sightBeacon env).Accepts ∨
    Reaches env .acquisition n ∧ (state env (n + 1)).phase ≠ .acquisition

/-- An iteration misses the calibration spot, in `CL_CALIB`. -/
def MissesCalib (env : Env) (n : ℕ) : Prop :=
  Reaches env .clCalib n ∧ ¬ ((atSwitch env n).sightCalib env).Accepts

/-- An iteration accepts the calibration spot, in `CL_CALIB`, or a calibration succeeds. -/
def SeesCalib (env : Env) (n : ℕ) : Prop :=
  Reaches env .clCalib n ∧ ((atSwitch env n).sightCalib env).Accepts ∨
    .calibrationRun true ∈ events env n

/-- The time that an iteration reads when it has looked for its spot. -/
def missTime (env : Env) (n : ℕ) : ℤ := (atSwitch env n).timeBehindLook env

/-- The loss timer of the beacon covers the miss of an iteration: the flag is cleared, the start is
the time of the first miss since the beacon was seen, and the process goes back to the acquisition
if that was too long ago. -/
def BeaconCovered (env : Env) (n : ℕ) : Prop :=
  ∃ m, FirstMiss (SeesBeacon env) (MissesBeacon env) m (n + 1) ∧
    BeaconLost env (missTime env m) (state env (n + 1))

/-- The loss timer of the calibration spot covers the miss of an iteration. -/
def CalibCovered (env : Env) (n : ℕ) : Prop :=
  ∃ m, FirstMiss (SeesCalib env) (MissesCalib env) m (n + 1) ∧
    CalibLost env (missTime env m) (state env (n + 1))

/-- An iteration takes one of the branches that forget the loss of a spot: a frame does not arrive
in `CL_BEACON` where the beacon is known, or the spot changed in `CL_CALIB` where it is known. -/
def Slips (env : Env) (n : ℕ) : Prop :=
  Reaches env .clBeacon n ∧ (atSwitch env n).SlipsBeacon env ∨
    Reaches env .clCalib n ∧ (atSwitch env n).SlipsCalib env

section Sessions

variable {env : Env} {p q : Phase} {n : ℕ} {w w' : World}

theorem Reaches.eq (h : Reaches env p n) (h' : Reaches env q n) : p = q :=
  h.phase.symm.trans h'.phase

theorem works_atSwitch (env : Env) (n : ℕ) :
    Works Event.Uncalibrated (state env n) (atSwitch env n) :=
  Proc.after_of_ensures (works_approach (fun _ => Event.Mute.uncalibrated)
    (by simp [Event.Uncalibrated]) (state env n))

theorem quiet_atSwitch (env : Env) (n : ℕ) : Quiet Event.Idle (state env n) (atSwitch env n) :=
  Proc.after_of_ensures (quiet_approach (state env n))

/-- The process is in the phase of its switch. -/
def World.enter (w : World) : World := { w with trace := w.trace ++ [.phase w.phase] }

/-- A step that comes to its switch is that of its phase. -/
theorem settles_step {Q : World → Prop} (h : Reaches env p n)
    (hphase : Ensures (runPhase env) (fun _ w' => Q w') (atSwitch env n)) :
    ∃ w₁, Q w₁ ∧ Settles w₁ (state env (n + 1)) := by
  refine Proc.after_of_ensures (Q := fun w' => ∃ w₁, Q w₁ ∧ Settles w₁ w') ?_
  unfold iteration
  rw [Ensures, wp_bind, wp_get, h.main]
  exact mainStep_of_phase (fun w₁ w₂ hq hsettles => ⟨w₁, hq, hsettles⟩) h.goes hphase

/-- The switch over the phase. -/
theorem ensures_runPhase {Q : World → Prop} (h : Reaches env p n)
    (hphase : Ensures (p.statements env) (fun _ w' => Q w') (atSwitch env n).enter) :
    Ensures (runPhase env) (fun _ w' => Q w') (atSwitch env n) := by
  have hp : (atSwitch env n).phase = p := (quiet_atSwitch env n).phase.trans h.phase
  rw [ensures_runPhase_iff, hp]
  rwa [World.enter, hp] at hphase

theorem BeaconLost.settles {start : ℤ} (h : BeaconLost env start w) (hsettles : Settles w w') :
    BeaconLost env start w' where
  unknown := (congrArg Findings.haveBeaconKnowledge hsettles.works.same).trans h.unknown
  since := (congrArg Findings.startBeaconLoss hsettles.works.same).trans h.since
  givenUp := by
    unfold World.lastTime
    rw [hsettles.phase, hsettles.time]
    exact h.givenUp

theorem CalibLost.settles {start : ℤ} (h : CalibLost env start w) (hsettles : Settles w w') :
    CalibLost env start w' where
  unknown := (congrArg Findings.haveCalibKnowledge hsettles.works.same).trans h.unknown
  since := (congrArg Findings.startCalibLoss hsettles.works.same).trans h.since
  givenUp := by
    unfold World.lastTime
    rw [hsettles.phase, hsettles.time]
    exact h.givenUp

/-- The switch only adds that the process has come to it. -/
theorem works_enter (env : Env) (n : ℕ) :
    Works Event.Uncalibrated (state env n) (atSwitch env n).enter := by
  have henter : Works Event.Uncalibrated (atSwitch env n) (atSwitch env n).enter :=
    ⟨rfl, .concat (by simp [Event.Uncalibrated])⟩
  exact trans_of (Works _) (works_atSwitch env n) henter

/-- What a phase keeps, a step keeps. -/
theorem agrees_step {κ : Type} {f : World → κ} (hf : ∀ w w' : World, w'.findings = w.findings →
      f w' = f w) {w₁ : World} (h : Agrees f Event.Uncalibrated (atSwitch env n).enter w₁)
    (hsettles : Settles w₁ (state env (n + 1))) :
    Agrees f Event.Uncalibrated (state env n) (state env (n + 1)) := by
  have hbefore := (works_enter env n).mono (hf _ _) fun _ => id
  have hafter := hsettles.works.mono (hf _ _) fun _ => Event.Mute.uncalibrated
  exact trans_of (Agrees f _) (trans_of (Agrees f _) hbefore h) hafter

/-- **An iteration that looks for the beacon.** -/
theorem looksForBeacon_step (h : Reaches env .clBeacon n ∨ Reaches env .openLoop n) :
    LooksForBeacon env (Slips env n) (atSwitch env n) (state env (n + 1)) ∧
      Agrees World.besideBeacon Event.Uncalibrated (state env n) (state env (n + 1)) := by
  have hmute (e : Event) (he : e.Mute) : e.Uncalibrated := he.uncalibrated
  have hstep {w₁ : World} (hlooks : LooksForBeacon env (Slips env n) (atSwitch env n).enter w₁)
      (hsettles : Settles w₁ (state env (n + 1))) :
      LooksForBeacon env (Slips env n) (atSwitch env n) (state env (n + 1)) := by
    have hknown : (state env (n + 1)).haveBeaconKnowledge = w₁.haveBeaconKnowledge :=
      congrArg Findings.haveBeaconKnowledge hsettles.works.same
    exact ⟨fun haccepts => hknown.trans (hlooks.found haccepts),
      fun hnot hslips => (hlooks.lost hnot hslips).settles hsettles,
      fun hslips => hknown.trans (hlooks.slipped hslips)⟩
  have hbeside (w w' : World) (hsame : w'.findings = w.findings) :
      w'.besideBeacon = w.besideBeacon := by
    unfold World.besideBeacon
    rw [hsame]
  rcases h with h | h
  · have hphase := (ensures_clBeaconPhase env (atSwitch env n).enter).and
      (beside_clBeaconPhase hmute (atSwitch env n).enter)
    obtain ⟨w₁, ⟨hlooks, hagrees⟩, hsettles⟩ := settles_step h (ensures_runPhase h hphase)
    refine ⟨hstep ?_ hsettles, agrees_step hbeside hagrees hsettles⟩
    -- a frame that does not arrive slips in the closed loop
    have hslips : Slips env n ↔ (atSwitch env n).SlipsBeacon env := by
      refine ⟨fun hslips => ?_, fun hslips => .inl ⟨h, hslips⟩⟩
      rcases hslips with ⟨-, hslips⟩ | ⟨h', -⟩
      · exact hslips
      · cases h.eq h'
    rw [hslips]
    exact hlooks
  · have hopen : (atSwitch env n).enter.phase = .openLoop :=
      (quiet_atSwitch env n).phase.trans h.phase
    have hphase := (@ensures_openLoopPhase env _ hopen).and
      (beside_openLoopPhase hmute (atSwitch env n).enter)
    obtain ⟨w₁, ⟨hlooks, hagrees⟩, hsettles⟩ := settles_step h (ensures_runPhase h hphase)
    refine ⟨hstep ?_ hsettles, agrees_step hbeside hagrees hsettles⟩
    have hslips : Slips env n ↔ False := by
      refine ⟨fun hslips => ?_, False.elim⟩
      rcases hslips with ⟨h', -⟩ | ⟨h', -⟩
      · cases h.eq h'
      · cases h.eq h'
    rw [hslips]
    exact hlooks

theorem givesUp_openLoop (h : Reaches env .openLoop n) :
    (state env (n + 1)).phase = .openLoop ∨ (state env (n + 1)).phase = .acquisition := by
  have hopen : (atSwitch env n).enter.phase = .openLoop :=
    (quiet_atSwitch env n).phase.trans h.phase
  obtain ⟨w₁, hgivesUp, hsettles⟩ :=
    settles_step h (ensures_runPhase h (givesUp_openLoopPhase (atSwitch env n).enter))
  rw [hsettles.phase]
  exact hgivesUp.imp_left (·.trans hopen)

/-- **An iteration that looks for the calibration spot.** -/
theorem looksForCalib_step (h : Reaches env .clCalib n) :
    LooksForCalib env (Slips env n) (atSwitch env n) (state env (n + 1)) ∧
      Agrees World.besideCalib Event.Uncalibrated (state env n) (state env (n + 1)) := by
  have hbeside (w w' : World) (hsame : w'.findings = w.findings) :
      w'.besideCalib = w.besideCalib := by
    unfold World.besideCalib
    rw [hsame]
  have hphase := (ensures_clCalibPhase env (atSwitch env n).enter).and
    (beside_clCalibPhase (fun _ => Event.Mute.uncalibrated) (atSwitch env n).enter)
  obtain ⟨w₁, ⟨hlooks, hagrees⟩, hsettles⟩ := settles_step h (ensures_runPhase h hphase)
  refine ⟨?_, agrees_step hbeside hagrees hsettles⟩
  have hslips : Slips env n ↔ (atSwitch env n).SlipsCalib env := by
    refine ⟨fun hslips => ?_, fun hslips => .inr ⟨h, hslips⟩⟩
    rcases hslips with ⟨h', -⟩ | ⟨-, hslips⟩
    · cases h.eq h'
    · exact hslips
  rw [hslips]
  have hknown : (state env (n + 1)).haveCalibKnowledge = w₁.haveCalibKnowledge :=
    congrArg Findings.haveCalibKnowledge hsettles.works.same
  exact ⟨fun haccepts => hknown.trans (hlooks.found haccepts),
    fun hnot hslips => (hlooks.lost hnot hslips).settles hsettles,
    fun hslips => hknown.trans (hlooks.slipped hslips)⟩

/-- A step is outside of the main loop, or ends it before its switch, or comes to its switch. -/
theorem step_cases (env : Env) (n : ℕ) : Resting (state env n) ∨
    (Resting (state env (n + 1)) ∧
      Works Event.Uncalibrated (state env n) (state env (n + 1))) ∨
    ∃ p, Reaches env p n := by
  rcases main_or_resting env n with hmain | hresting
  · cases hgoes : (approach env).value (state env n) with
    | true =>
      refine .inr (.inl ?_)
      refine Proc.after_of_ensures (Q := fun w' =>
        Resting w' ∧ Works Event.Uncalibrated (state env n) w') ?_
      unfold iteration
      rw [Ensures, wp_bind, wp_get, hmain]
      refine (mainStep_of_ended (P := Event.Uncalibrated) hgoes ?_ ?_).imp fun _ w' h => h.symm
      · exact fun _ => Event.Mute.uncalibrated
      · simp [Event.Uncalibrated]
    | false => exact .inr (.inr ⟨_, hmain, hgoes, rfl⟩)
  · exact .inl hresting

/-- The iterations that look for no spot, and how they leave what is known. -/
theorem renews_calibration (h : Reaches env .calibration n) :
    Renews (state env n) (state env (n + 1)) ∧ ((state env (n + 1)).phase = .calibration ∨
      (state env (n + 1)).phase = .acquisition ∧
        (state env (n + 1)).haveCalibKnowledge = true) := by
  obtain ⟨w₁, ⟨hrenews, hphase⟩, hsettles⟩ :=
    settles_step h (ensures_runPhase h (renews_calibrationPhase env (atSwitch env n).enter))
  have hafter : Works Event.Uncalibrated w₁ (state env (n + 1)) :=
    hsettles.works.mono (fun hsame => hsame) fun _ => Event.Mute.uncalibrated
  refine ⟨.between (works_enter env n).spots hrenews hafter.spots, ?_⟩
  have hknown : (state env (n + 1)).haveCalibKnowledge = w₁.haveCalibKnowledge :=
    congrArg Findings.haveCalibKnowledge hafter.same
  rw [hsettles.phase, hknown]
  exact hphase

theorem agrees_acquisition (h : Reaches env .acquisition n) :
    Agrees World.besideBeacon Event.Uncalibrated (state env n) (state env (n + 1)) ∧
      (state env (n + 1)).FitsMode ∧
      ((state env (n + 1)).phase ≠ .acquisition →
        (state env (n + 1)).haveBeaconKnowledge = true) ∧
      ((state env (n + 1)).phase = .acquisition →
        (state env (n + 1)).haveBeaconKnowledge = true →
          (state env n).haveBeaconKnowledge = true) := by
  have hacquisition : (atSwitch env n).enter.phase = .acquisition :=
    (quiet_atSwitch env n).phase.trans h.phase
  have hbeside (w w' : World) (hsame : w'.findings = w.findings) :
      w'.besideBeacon = w.besideBeacon := by
    unfold World.besideBeacon
    rw [hsame]
  have hphase := (ensures_acquisitionPhase env hacquisition).and
    (beside_acquisitionPhase (P := Event.Uncalibrated) (fun _ => Event.Mute.uncalibrated)
      (by simp [Event.Uncalibrated]) (atSwitch env n).enter)
  obtain ⟨w₁, ⟨hfound, hagrees⟩, hsettles⟩ := settles_step h (ensures_runPhase h hphase)
  refine ⟨agrees_step hbeside hagrees hsettles, ?_⟩
  have hknown : (state env (n + 1)).haveBeaconKnowledge = w₁.haveBeaconKnowledge :=
    congrArg Findings.haveBeaconKnowledge hsettles.works.same
  have hbefore : (atSwitch env n).enter.haveBeaconKnowledge =
      (state env n).haveBeaconKnowledge :=
    congrArg Findings.haveBeaconKnowledge (works_enter env n).same
  have hopen : (state env (n + 1)).openLoop = w₁.openLoop :=
    congrArg Flags.openLoop hsettles.flags
  unfold World.FitsMode
  rw [hsettles.phase, hknown, hopen, ← hbefore]
  exact hfound

theorem works_clInit (h : Reaches env .clInit n) :
    Works Event.Uncalibrated (state env n) (state env (n + 1)) := by
  have hinit : Runs (Works Event.Uncalibrated) clInitPhase := agrees_modify fun _ => ⟨rfl, rfl⟩
  obtain ⟨w₁, hagrees, hsettles⟩ :=
    settles_step h (ensures_runPhase h (hinit (atSwitch env n).enter))
  exact agrees_step (fun _ _ => id) hagrees hsettles

theorem works_staticPoint (h : Reaches env .staticPoint n) :
    Works Event.Uncalibrated (state env n) (state env (n + 1)) ∧
      (state env (n + 1)).phase = .staticPoint := by
  have hstatic : (atSwitch env n).enter.phase = .staticPoint :=
    (quiet_atSwitch env n).phase.trans h.phase
  have hphase := (works_staticPointPhase (P := Event.Uncalibrated)
    (fun _ => Event.Mute.uncalibrated) (atSwitch env n).enter).and
      (ensures_staticPointPhase env (atSwitch env n).enter)
  obtain ⟨w₁, ⟨hagrees, hstays⟩, hsettles⟩ := settles_step h (ensures_runPhase h hphase)
  refine ⟨agrees_step (fun _ _ => id) hagrees hsettles, ?_⟩
  rw [hsettles.phase, hstays, hstatic]

end Sessions

/-! ## Runs -/

/-- The beacon is tracked, once it was acquired. -/
def TracksBeacon (w : World) : Prop :=
  w.place = .main ∧
    (w.phase = .clInit ∨ w.phase = .clBeacon ∨ w.phase = .clCalib ∨ w.phase = .openLoop)

/-- The calibration spot is tracked in a session in closed loop, once the calibration has
succeeded. -/
def TracksCalib (w : World) : Prop :=
  w.place = .main ∧ (w.phase = .clInit ∨ w.phase = .clBeacon ∨ w.phase = .clCalib ∨
    w.openLoop = false ∧ (w.phase = .acquisition ∨ w.phase = .openLoop))

section Runs

variable {env : Env} {p : Phase} {n : ℕ}

theorem not_tracksBeacon_of_entered {w : World} (h : Entered w) : ¬ TracksBeacon w := by
  rintro ⟨-, hphase⟩
  rcases h.1 with h | h | h <;> simp [h] at hphase

theorem not_seesBeacon_of_misses (h : MissesBeacon env n) : ¬ SeesBeacon env n := by
  rintro (⟨-, haccepts⟩ | ⟨hreaches, -⟩)
  · exact h.2 haccepts
  · rcases h.1 with h | h
    · cases h.eq hreaches
    · cases h.eq hreaches

/-- The flag of the beacon, in an iteration that neither sees nor misses it. -/
theorem beacon_idle (hsees : ¬ SeesBeacon env n) (hmisses : ¬ MissesBeacon env n) :
    ((state env (n + 1)).haveBeaconKnowledge = true → (state env n).haveBeaconKnowledge = true) ∧
    (TracksBeacon (state env (n + 1)) → TracksBeacon (state env n) ∧
      (state env (n + 1)).haveBeaconKnowledge = (state env n).haveBeaconKnowledge ∧
      (state env (n + 1)).startBeaconLoss = (state env n).startBeaconLoss) := by
  have hlooks (h : Reaches env .clBeacon n ∨ Reaches env .openLoop n) : False :=
    hmisses ⟨h, fun haccepts => hsees (.inl ⟨h, haccepts⟩)⟩
  rcases step_cases env n with hresting | ⟨hresting, hworks⟩ | ⟨p, h⟩
  · have hawaits : Awaits (state env n) (state env (n + 1)) := awaits_step env hresting
    refine ⟨fun hknown => hawaits.renews.beacon.symm.trans hknown, fun htracks => ?_⟩
    exact absurd htracks (not_tracksBeacon_of_entered (hawaits.main htracks.1))
  · have hknown : (state env (n + 1)).haveBeaconKnowledge = (state env n).haveBeaconKnowledge :=
      congrArg Findings.haveBeaconKnowledge hworks.same
    exact ⟨hknown.symm.trans, fun htracks => absurd htracks.1 hresting.place⟩
  · cases p with
    | calibration =>
      obtain ⟨hrenews, hphase⟩ := renews_calibration h
      refine ⟨fun hknown => hrenews.beacon.symm.trans hknown, fun htracks => ?_⟩
      rcases hphase with hphase | ⟨hphase, -⟩
      · simp [TracksBeacon, hphase] at htracks
      · simp [TracksBeacon, hphase] at htracks
    | acquisition =>
      obtain ⟨-, -, -, hstays⟩ := agrees_acquisition h
      have hphase : (state env (n + 1)).phase = .acquisition :=
        Decidable.of_not_not fun hnot => hsees (.inr ⟨h, hnot⟩)
      refine ⟨hstays hphase, fun htracks => ?_⟩
      simp [TracksBeacon, hphase] at htracks
    | clInit =>
      have hsame := (works_clInit h).same
      have hknown : (state env (n + 1)).haveBeaconKnowledge = (state env n).haveBeaconKnowledge :=
        congrArg Findings.haveBeaconKnowledge hsame
      refine ⟨hknown.symm.trans, fun _ => ⟨⟨h.main, .inl h.phase⟩, hknown, ?_⟩⟩
      exact congrArg Findings.startBeaconLoss hsame
    | clBeacon => exact (hlooks (.inl h)).elim
    | clCalib =>
      have hsame := (looksForCalib_step h).2.same
      have hknown : (state env (n + 1)).haveBeaconKnowledge = (state env n).haveBeaconKnowledge :=
        congrArg Findings.haveBeaconKnowledge hsame
      refine ⟨hknown.symm.trans, fun _ => ⟨⟨h.main, .inr (.inr (.inl h.phase))⟩, hknown, ?_⟩⟩
      exact congrArg Findings.startBeaconLoss hsame
    | openLoop => exact (hlooks (.inr h)).elim
    | staticPoint =>
      obtain ⟨hworks, hphase⟩ := works_staticPoint h
      have hknown : (state env (n + 1)).haveBeaconKnowledge = (state env n).haveBeaconKnowledge :=
        congrArg Findings.haveBeaconKnowledge hworks.same
      refine ⟨hknown.symm.trans, fun htracks => ?_⟩
      simp [TracksBeacon, hphase] at htracks

/-- What a miss of the beacon leaves, where no branch forgets it. -/
theorem beacon_lost (hmisses : MissesBeacon env n) (hslips : ¬ Slips env n) :
    BeaconLost env ((state env n).beaconStart (missTime env n)) (state env (n + 1)) := by
  have hlost := (looksForBeacon_step hmisses.1).1.lost hmisses.2 hslips
  have hsame := (works_atSwitch env n).same
  have hknown : (atSwitch env n).haveBeaconKnowledge = (state env n).haveBeaconKnowledge :=
    congrArg Findings.haveBeaconKnowledge hsame
  have hstart : (atSwitch env n).startBeaconLoss = (state env n).startBeaconLoss :=
    congrArg Findings.startBeaconLoss hsame
  unfold World.beaconStart at hlost ⊢
  rw [hknown, hstart] at hlost
  exact hlost

/-- **The flag and the start of the beacon are kept as those of a watch**, where no iteration
slips. -/
theorem watch_beacon (h : ∀ n, ¬ Slips env n) : Watch (SeesBeacon env) (MissesBeacon env)
    (fun n => TracksBeacon (state env n)) (fun n => (state env n).haveBeaconKnowledge)
    (fun n => (state env n).startBeaconLoss) (missTime env) where
  zero := by
    have hboot : Works (fun _ => True) {} (state env 0) :=
      Proc.after_of_ensures (works_boot (fun _ _ => trivial) {})
    refine ⟨congrArg Findings.haveBeaconKnowledge hboot.same, fun htracks => ?_⟩
    exact (resting_zero env).place htracks.1
  found n hsees := by
    rcases hsees with ⟨hlooks, haccepts⟩ | ⟨hreaches, hfound⟩
    · exact (looksForBeacon_step hlooks).1.found haccepts
    · exact (agrees_acquisition hreaches).2.2.1 hfound
  within n hmisses := by
    refine ⟨?_, not_seesBeacon_of_misses hmisses⟩
    rcases hmisses.1 with hreaches | hreaches
    · exact ⟨hreaches.main, .inr (.inl hreaches.phase)⟩
    · exact ⟨hreaches.main, .inr (.inr (.inr hreaches.phase))⟩
  lost n hmisses hflag := by
    have hlost := beacon_lost hmisses (h n)
    unfold World.beaconStart at hlost
    rw [hflag, if_pos rfl] at hlost
    exact ⟨hlost.unknown, hlost.since⟩
  still n hmisses hflag := by
    have hlost := beacon_lost hmisses (h n)
    unfold World.beaconStart at hlost
    rw [hflag, if_neg (by simp)] at hlost
    exact ⟨hlost.unknown, hlost.since⟩
  idle n hsees hmisses := (beacon_idle hsees hmisses).1
  kept n hsees hmisses htracks := .inr ((beacon_idle hsees hmisses).2 htracks)

/-! ### The calibration spot -/

theorem not_mem_events (h : Extends Event.Uncalibrated (state env n).trace
    (state env (n + 1)).trace) : .calibrationRun true ∉ events env n := by
  obtain ⟨added, htrace, hadded⟩ := h
  rw [events_eq htrace]
  exact fun hmem => hadded _ hmem rfl

/-- What is known of the calibration spot is renewed by the calibrations that succeed. -/
def CalibRenewed (env : Env) (n : ℕ) : Prop :=
  (.calibrationRun true ∈ events env n → (state env (n + 1)).haveCalibKnowledge = true) ∧
    (.calibrationRun true ∉ events env n →
      (state env (n + 1)).haveCalibKnowledge = true → (state env n).haveCalibKnowledge = true)

theorem Renews.renewed (h : Renews (state env n) (state env (n + 1))) : CalibRenewed env n := by
  obtain ⟨added, htrace, hrenews, hkeeps⟩ := h.calib
  unfold CalibRenewed
  rw [events_eq htrace]
  exact ⟨hrenews, hkeeps⟩

theorem renewed_of_besideBeacon (h : Agrees World.besideBeacon Event.Uncalibrated (state env n)
    (state env (n + 1))) : CalibRenewed env n := by
  have hknown : (state env (n + 1)).haveCalibKnowledge = (state env n).haveCalibKnowledge :=
    congrArg Findings.haveCalibKnowledge h.same
  exact ⟨fun hmem => absurd hmem (not_mem_events h.adds), fun _ => hknown.symm.trans⟩

/-- A session goes on with the same modes. -/
theorem openLoop_step (h : Reaches env p n) (hmain : (state env (n + 1)).place = .main) :
    (state env (n + 1)).openLoop = (state env n).openLoop := by
  rcases mode_step env h.main with hresting | hmode
  · exact absurd hmain hresting.place
  · exact congrArg (fun mode => mode.flags.openLoop) hmode

/-- The flag of the calibration spot, in an iteration that does not look for it. -/
theorem calib_idle (hnot : ¬ Reaches env .clCalib n) : CalibRenewed env n ∧
    (TracksCalib (state env (n + 1)) → (state env (n + 1)).haveCalibKnowledge = true ∨
      TracksCalib (state env n) ∧
        (state env (n + 1)).haveCalibKnowledge = (state env n).haveCalibKnowledge ∧
        (state env (n + 1)).startCalibLoss = (state env n).startCalibLoss) := by
  have hbeacon (hbeside : Agrees World.besideBeacon Event.Uncalibrated
      (state env n) (state env (n + 1)))
      (hbefore : TracksCalib (state env (n + 1)) → TracksCalib (state env n)) :
      CalibRenewed env n ∧ (TracksCalib (state env (n + 1)) →
        (state env (n + 1)).haveCalibKnowledge = true ∨ TracksCalib (state env n) ∧
          (state env (n + 1)).haveCalibKnowledge = (state env n).haveCalibKnowledge ∧
          (state env (n + 1)).startCalibLoss = (state env n).startCalibLoss) := by
    refine ⟨renewed_of_besideBeacon hbeside, fun htracks => .inr ⟨hbefore htracks, ?_, ?_⟩⟩
    · exact congrArg Findings.haveCalibKnowledge hbeside.same
    · exact congrArg Findings.startCalibLoss hbeside.same
  rcases step_cases env n with hresting | ⟨hresting, hworks⟩ | ⟨p, h⟩
  · have hawaits : Awaits (state env n) (state env (n + 1)) := awaits_step env hresting
    refine ⟨hawaits.renews.renewed, fun htracks => .inl ?_⟩
    obtain ⟨hphase, hentered⟩ := hawaits.main htracks.1
    rcases hphase with hphase | hphase | hphase
    · simp [TracksCalib, hphase] at htracks
    · rcases hentered hphase with hopen | hknown
      · simp [TracksCalib, hphase, hopen] at htracks
      · exact hknown
    · simp [TracksCalib, hphase] at htracks
  · exact ⟨hworks.spots.renews.renewed, fun htracks => absurd htracks.1 hresting.place⟩
  · cases p with
    | calibration =>
      obtain ⟨hrenews, hphase⟩ := renews_calibration h
      refine ⟨hrenews.renewed, fun htracks => ?_⟩
      rcases hphase with hphase | ⟨-, hknown⟩
      · simp [TracksCalib, hphase] at htracks
      · exact .inl hknown
    | acquisition =>
      obtain ⟨hbeside, hfits, -⟩ := agrees_acquisition h
      refine hbeacon hbeside fun htracks => ⟨h.main, .inr (.inr (.inr ⟨?_, .inl h.phase⟩))⟩
      refine (openLoop_step h htracks.1).symm.trans ?_
      rcases hfits with hphase | hphase | ⟨-, hclosed⟩
      · simpa [TracksCalib, hphase, htracks.1] using htracks
      · simpa [TracksCalib, hphase, htracks.1] using htracks
      · exact hclosed
    | clInit =>
      exact hbeacon (works_clInit h).besideBeacon fun _ => ⟨h.main, .inl h.phase⟩
    | clBeacon =>
      exact hbeacon (looksForBeacon_step (.inl h)).2 fun _ => ⟨h.main, .inr (.inl h.phase)⟩
    | clCalib => exact absurd h hnot
    | openLoop =>
      refine hbeacon (looksForBeacon_step (.inr h)).2 fun htracks =>
        ⟨h.main, .inr (.inr (.inr ⟨?_, .inr h.phase⟩))⟩
      refine (openLoop_step h htracks.1).symm.trans ?_
      rcases givesUp_openLoop h with hphase | hphase
      · simpa [TracksCalib, hphase, htracks.1] using htracks
      · simpa [TracksCalib, hphase, htracks.1] using htracks
    | staticPoint =>
      obtain ⟨hworks, hphase⟩ := works_staticPoint h
      refine ⟨hworks.spots.renews.renewed, fun htracks => ?_⟩
      simp [TracksCalib, hphase] at htracks

theorem not_reaches_of_unseen (hsees : ¬ SeesCalib env n) (hmisses : ¬ MissesCalib env n) :
    ¬ Reaches env .clCalib n :=
  fun h => hmisses ⟨h, fun haccepts => hsees (.inl ⟨h, haccepts⟩)⟩

theorem calib_lost (hmisses : MissesCalib env n) (hslips : ¬ Slips env n) :
    CalibLost env ((state env n).calibStart (missTime env n)) (state env (n + 1)) := by
  have hlost := (looksForCalib_step hmisses.1).1.lost hmisses.2 hslips
  have hsame := (works_atSwitch env n).same
  have hknown : (atSwitch env n).haveCalibKnowledge = (state env n).haveCalibKnowledge :=
    congrArg Findings.haveCalibKnowledge hsame
  have hstart : (atSwitch env n).startCalibLoss = (state env n).startCalibLoss :=
    congrArg Findings.startCalibLoss hsame
  unfold World.calibStart at hlost ⊢
  rw [hknown, hstart] at hlost
  exact hlost

/-- **The flag and the start of the calibration spot are kept as those of a watch**, where no
iteration slips. -/
theorem watch_calib (h : ∀ n, ¬ Slips env n) : Watch (SeesCalib env) (MissesCalib env)
    (fun n => TracksCalib (state env n)) (fun n => (state env n).haveCalibKnowledge)
    (fun n => (state env n).startCalibLoss) (missTime env) where
  zero := by
    have hboot : Works (fun _ => True) {} (state env 0) :=
      Proc.after_of_ensures (works_boot (fun _ _ => trivial) {})
    refine ⟨congrArg Findings.haveCalibKnowledge hboot.same, fun htracks => ?_⟩
    exact (resting_zero env).place htracks.1
  found n hsees := by
    by_cases hreaches : Reaches env .clCalib n
    · rcases hsees with ⟨-, haccepts⟩ | hmem
      · exact (looksForCalib_step hreaches).1.found haccepts
      · exact absurd hmem (not_mem_events (looksForCalib_step hreaches).2.adds)
    · rcases hsees with ⟨hreaches', -⟩ | hmem
      · exact absurd hreaches' hreaches
      · exact (calib_idle hreaches).1.1 hmem
  within n hmisses := by
    refine ⟨⟨hmisses.1.main, .inr (.inr (.inl hmisses.1.phase))⟩, ?_⟩
    rintro (⟨-, haccepts⟩ | hmem)
    · exact hmisses.2 haccepts
    · exact not_mem_events (looksForCalib_step hmisses.1).2.adds hmem
  lost n hmisses hflag := by
    have hlost := calib_lost hmisses (h n)
    unfold World.calibStart at hlost
    rw [hflag, if_pos rfl] at hlost
    exact ⟨hlost.unknown, hlost.since⟩
  still n hmisses hflag := by
    have hlost := calib_lost hmisses (h n)
    unfold World.calibStart at hlost
    rw [hflag, if_neg (by simp)] at hlost
    exact ⟨hlost.unknown, hlost.since⟩
  idle n hsees hmisses :=
    (calib_idle (not_reaches_of_unseen hsees hmisses)).1.2 fun hmem => hsees (.inr hmem)
  kept n hsees hmisses htracks :=
    (calib_idle (not_reaches_of_unseen hsees hmisses)).2 htracks

/-! ### Both spots -/

/-- A branch that forgets the loss keeps the flag, where it should be cleared. -/
theorem not_covered_of_slips (hslips : Slips env n) :
    MissesBeacon env n ∧ ¬ BeaconCovered env n ∨ MissesCalib env n ∧ ¬ CalibCovered env n := by
  have hforgets := hslips
  rcases hslips with ⟨h, hsight, -⟩ | ⟨h, hsight, -⟩
  · have hknown := (looksForBeacon_step (.inl h)).1.slipped hforgets
    refine .inl ⟨⟨.inl h, ?_⟩, fun ⟨_, _, hlost⟩ => ?_⟩
    · rw [hsight]
      exact id
    · cases hlost.unknown.symm.trans hknown
  · have hknown := (looksForCalib_step h).1.slipped hforgets
    refine .inr ⟨⟨h, ?_⟩, fun ⟨_, _, hlost⟩ => ?_⟩
    · rw [hsight]
      exact id
    · cases hlost.unknown.symm.trans hknown

theorem beaconCovered_of_misses (h : ∀ n, ¬ Slips env n) (hmisses : MissesBeacon env n) :
    BeaconCovered env n := by
  obtain ⟨-, m, hfirst, hstart⟩ := (watch_beacon h).of_missed hmisses
  have hlost := beacon_lost hmisses (h n)
  have hsame : (state env n).beaconStart (missTime env n) = missTime env m :=
    hlost.since.symm.trans hstart
  exact ⟨m, hfirst, hsame ▸ hlost⟩

theorem calibCovered_of_misses (h : ∀ n, ¬ Slips env n) (hmisses : MissesCalib env n) :
    CalibCovered env n := by
  obtain ⟨-, m, hfirst, hstart⟩ := (watch_calib h).of_missed hmisses
  have hlost := calib_lost hmisses (h n)
  have hsame : (state env n).calibStart (missTime env n) = missTime env m :=
    hlost.since.symm.trans hstart
  exact ⟨m, hfirst, hsame ▸ hlost⟩

/-- **The loss timers cover every miss of a run if and only if no iteration slips.** -/
theorem covered_iff (env : Env) :
    (∀ n, (MissesBeacon env n → BeaconCovered env n) ∧ (MissesCalib env n → CalibCovered env n)) ↔
      ∀ n, ¬ Slips env n := by
  constructor
  · intro hcovered n hslips
    rcases not_covered_of_slips hslips with ⟨hmisses, hnot⟩ | ⟨hmisses, hnot⟩
    · exact hnot ((hcovered n).1 hmisses)
    · exact hnot ((hcovered n).2 hmisses)
  · exact fun h n => ⟨beaconCovered_of_misses h, calibCovered_of_misses h⟩

end Runs

/-! ## A frame that does not arrive -/

section LostFrame

variable {env : Env} {p q : Phase} {w : World} {n : ℕ}

/-- A process that acquires the beacon at once, and gets no frames any more when its session
begins. -/
def lostFrame : Env := { commanded true [controlPacket 0x09 [],
    controlPacket 0x00 [0x36, 0x35, 0x35, 0x33, 0x35]] with
  exposureRange := fun _ => true
  frame := fun n => if n < 60 then some spotFrame else none
  tuned := fun _ => ⟨true, some onlySpot, fun _ => rfl⟩ }

/-- A session in closed loop goes on, with no more commands and no more frames. -/
structure Waits (phase : Phase) (w : World) : Prop where
  goes : w.course.Goes
  phase : w.phase = phase
  openLoop : w.openLoop = false
  polls : 2 ≤ w.polls
  time : 60 ≤ w.time

theorem approach_of_waits (h : Waits p w) :
    Ensures (approach lostFrame) (fun ended w' => ended = false ∧ GoesOn w w' ∧
      w.polls < w'.polls) w := by
  have hpolls := h.polls
  have hnone : lostFrame.message w.polls = none := by
    apply List.getElem?_eq_none
    exact hpolls
  exact goesOn_approach (fun _ => rfl) rfl hnone h.goes

theorem reaches_of_waits (h : Waits p (state lostFrame n)) : Reaches lostFrame p n where
  main := h.goes.place
  goes := (Proc.ensures_iff.mp (approach_of_waits h)).1
  phase := h.phase

/-- A phase that does not end the session leads to the next one. -/
theorem waits_step (h : Waits p (state lostFrame n)) (hphase : Ensures (match p with
      | .calibration => calibrationPhase lostFrame
      | .acquisition => acquisitionPhase lostFrame
      | .clInit => clInitPhase
      | .clBeacon => clBeaconPhase lostFrame
      | .clCalib => clCalibPhase lostFrame
      | .openLoop => openLoopPhase lostFrame
      | .staticPoint => staticPointPhase lostFrame)
      (fun _ w' => GoesOn (atSwitch lostFrame n).enter w' ∧ w'.phase = q)
      (atSwitch lostFrame n).enter) : Waits q (state lostFrame (n + 1)) := by
  have hreaches := reaches_of_waits h
  obtain ⟨w₁, ⟨hgoes, hq⟩, hsettles⟩ := settles_step hreaches (ensures_runPhase hreaches hphase)
  have happroach : GoesOn (state lostFrame n) (atSwitch lostFrame n) :=
    (Proc.ensures_iff.mp (approach_of_waits h)).2.1
  have henter : GoesOn (atSwitch lostFrame n) (atSwitch lostFrame n).enter := ⟨le_rfl, le_rfl, rfl⟩
  have hgoes := trans_of GoesOn (trans_of GoesOn happroach henter) hgoes
  have hcourse : w₁.course.Goes := hgoes.same ▸ h.goes
  have hopen : w₁.openLoop = (state lostFrame n).openLoop := congrArg Course.openLoop hgoes.same
  rw [hsettles.stays hcourse.operational]
  exact ⟨hcourse, hq, hopen.trans h.openLoop, h.polls.trans hgoes.polls, h.time.trans hgoes.time⟩

theorem goesOn_pointAtBeacon : Runs GoesOn pointAtBeacon := by
  unfold pointAtBeacon pointTo
  refine runs_bind goesOn_get fun w => runs_ite ?_ (runs_pure _)
  exact runs_bind (goesOn_modify fun _ => ⟨rfl, rfl, rfl⟩) fun _ => goesOn_emit _

theorem goesOn_logImage : Runs GoesOn (logImage env) := by
  unfold logImage requestFrame
  refine runs_bind (runs_bind (goesOn_emit _) fun _ => goesOn_ask _) fun _ => runs_pure _

/-- Where the beacon is acquired for a session in closed loop, its control begins. -/
theorem goesOn_acquired (hopen : w.openLoop = false) :
    Ensures (acquired env) (fun _ w' => GoesOn w w' ∧ w'.phase = .clInit) w := by
  have hclosed {w₁ : World} (h : GoesOn w w₁) : w₁.openLoop = false :=
    (congrArg Course.openLoop h.same).trans hopen
  have hpoints (w₁ : World) (h : GoesOn w w₁) : Ensures (do
      pointAtBeacon
      modify fun w => { w with phase := if w.openLoop then .openLoop else .clInit })
      (fun _ w' => GoesOn w w' ∧ w'.phase = .clInit) w₁ := by
    refine (goesOn_pointAtBeacon.trans h).bind fun _ w₂ h₂ => ⟨⟨h₂.time, h₂.polls, h₂.same⟩, ?_⟩
    exact if_neg (by simp [hclosed h₂])
  unfold acquired
  rw [Ensures, wp_bind, wp_modify, wp_bind, emit, wp_modify, wp_bind, wp_get]
  split
  · refine (goesOn_logImage.trans ⟨le_rfl, le_rfl, rfl⟩).bind fun _ w₁ h₁ => ?_
    rw [Ensures, wp_bind, wp_modify]
    exact hpoints _ ⟨h₁.time, h₁.polls, h₁.same⟩
  · exact hpoints _ ⟨le_rfl, le_rfl, rfl⟩

/-- The first frame is enough. -/
theorem goesOn_acquisitionPhase (hopen : w.openLoop = false) :
    Ensures (acquisitionPhase lostFrame) (fun _ w' => GoesOn w w' ∧ w'.phase = .clInit) w := by
  show Ensures (acquired lostFrame) _ _
  refine Ensures.imp (goesOn_acquired ?_) ?_
  · exact hopen
  · rintro _ w' ⟨h, hphase⟩
    exact ⟨⟨(Nat.le_succ _).trans h.time, h.polls, h.same⟩, hphase⟩

theorem waits_acquisition (h : Waits .acquisition (state lostFrame n)) :
    Waits .clInit (state lostFrame (n + 1)) := by
  apply waits_step h
  have hsame : (atSwitch lostFrame n).enter.course = (state lostFrame n).course :=
    (Proc.ensures_iff.mp (approach_of_waits h)).2.1.same
  exact goesOn_acquisitionPhase ((congrArg Course.openLoop hsame).trans h.openLoop)

theorem waits_clInit (h : Waits .clInit (state lostFrame n)) :
    Waits .clBeacon (state lostFrame (n + 1)) := by
  apply waits_step h
  exact ⟨⟨le_rfl, le_rfl, rfl⟩, rfl⟩

set_option maxRecDepth 10000 in
theorem waits_lostFrame : Waits .acquisition (state lostFrame 2) where
  goes := by constructor <;> decide +kernel
  phase := by decide +kernel
  openLoop := by decide +kernel
  polls := by decide +kernel
  time := by decide +kernel

theorem frame_lostFrame {t : ℕ} (h : 60 ≤ t) : lostFrame.frame t = none := if_neg (by omega)

/-- Where the beacon was acquired, an iteration of `CL_BEACON` forgets the loss. -/
theorem slips_of_waits (h : Waits .clBeacon (state lostFrame n))
    (hknown : (state lostFrame n).haveBeaconKnowledge = true) : Slips lostFrame n := by
  have htime : 60 ≤ (atSwitch lostFrame n).time :=
    h.time.trans (Proc.ensures_iff.mp (approach_of_waits h)).2.1.time
  refine .inl ⟨reaches_of_waits h, ?_, ?_⟩
  · show seeSpot _ _ (lostFrame.frame (atSwitch lostFrame n).time) = .noFrame
    rw [frame_lostFrame htime]
    rfl
  · exact (congrArg Findings.haveBeaconKnowledge (works_atSwitch lostFrame n).same).trans hknown

/-- The session comes to `CL_BEACON`, and knows the beacon there. -/
theorem slips_of_acquisition (h : Waits .acquisition (state lostFrame n)) :
    Slips lostFrame (n + 1 + 1) := by
  have hacquisition := waits_acquisition h
  have hacquired : (state lostFrame (n + 1)).haveBeaconKnowledge = true := by
    apply (agrees_acquisition (reaches_of_waits h)).2.2.1
    rw [hacquisition.phase]
    simp
  apply slips_of_waits (waits_clInit hacquisition)
  have hsame := (works_clInit (reaches_of_waits hacquisition)).same
  exact (congrArg Findings.haveBeaconKnowledge hsame).trans hacquired

/-- The frame of the first iteration of `CL_BEACON` does not arrive, and the loss is forgotten. -/
theorem not_covered_lostFrame : ¬ ∀ n, (MissesBeacon lostFrame n → BeaconCovered lostFrame n) ∧
    (MissesCalib lostFrame n → CalibCovered lostFrame n) := by
  intro hcovered
  rcases not_covered_of_slips (slips_of_acquisition waits_lostFrame) with
    ⟨hmisses, hnot⟩ | ⟨hmisses, hnot⟩
  · exact hnot ((hcovered _).1 hmisses)
  · exact hnot ((hcovered _).2 hmisses)

end LostFrame

end ClickA.Pat
