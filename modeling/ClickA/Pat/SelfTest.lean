import ClickA.Pat.Spots
import ClickA.Pat.Steps

/-!
# The self test

A self test in standby sends a packet with its verdicts, and the process publishes behind it whether
it passed. Four things get in between: the verdict on the camera is assigned and not compared, the
count of the laser test is left over where the laser does not go on, the variable that a test passed
is never cleared, and no 0 is written behind the text that the tests stream into a buffer, from
which it is copied to the packet.

## Main definitions

* `componentVerdicts`: what a self test is meant to find
* `SelfTests`: a step takes `CMD_SELF_TEST` in standby
* `Current`: the packet of a self test, and the status behind it, say what the test found
* `Afresh`: nothing is left over where a self test begins

## Main results

* `ensures_selfTest`: what a self test sends, where nothing is left over
* `current_of_afresh`: **the status of a self test is current**, in a run where nothing is left over
* `not_current_camera`: a camera that was never initialized passes the self test
-/

namespace ClickA.Pat

open Python (Bytes ascii Ensures Runs runs_bind runs_pure runs_ite wp_bind wp_get wp_modify)
open Stream (Extends)
open Cpp (strlen mem_memcpy_uninitialized)

/-! ## Verdicts -/

/-- The verdicts of a self test that passes. -/
def Verdicts.allPass : Verdicts := ⟨.pass, .pass, .pass, .pass, .pass⟩

/-- The verdicts in a self test packet that the copy of the error does not overrun. -/
def Event.verdicts : Event → Option Verdicts
  | .selfTest verdicts (some _) => some verdicts
  | _ => none

/-- The event reports the status of the process, or a self test. -/
def Event.Reports : Event → Prop
  | .status _ | .selfTest _ _ => True
  | _ => False

/-- No round of the laser test is counted. -/
def World.uncounted (w : World) : World := { w with laserTestsPassed := 0 }

/-- The verdicts on the camera, the FPGA and the other devices. -/
def verdictsOf (camera fpga : Verdict) (devices : Verdict × Verdict × Verdict) : Verdicts :=
  ⟨camera, fpga, devices.1, devices.2.1, devices.2.2⟩

/-- What a self test is meant to find: the verdict on the camera is compared as that on the FPGA is,
and the rounds of the laser test are counted from zero. -/
def componentVerdicts (env : Env) : Proc World Verdicts := do
  let camera := Verdict.ofBool (← get).cameraInitialized
  let fpga ← selfTestFpga env
  modify World.uncounted
  if camera = .pass ∧ fpga = .pass then return verdictsOf camera fpga (← selfTestDevices env)
  else return verdictsOf camera fpga (.null, .null, .null)

/-- A step takes `CMD_SELF_TEST` in standby. -/
def SelfTests (env : Env) (n : ℕ) : Prop :=
  (state env n).place = .standby ∧ env.stop (state env n).time = false ∧
    nextCommand env (state env n) = some .selfTest

/-- What the self test in a step is meant to find. -/
def found (env : Env) (n : ℕ) : Verdicts :=
  (componentVerdicts env).value (taken env (state env n))

/-- The text that is streamed up to the end of the self test in a step, with what it finds. -/
def streamed (env : Env) (n : ℕ) : String :=
  ((componentVerdicts env).after (taken env (state env n))).selfTestStream

/-- The packet of the self test in a step says what the test found, and so does each status that is
published in standby behind it, up to the next self test. -/
structure Current (env : Env) (n : ℕ) : Prop where
  packet : (events env n).filterMap Event.verdicts = [found env n]
  status : ∀ k, n < k → (∀ m, n < m → m < k → ¬ SelfTests env m) →
    (state env k).place = .standby → ∀ flag, .status flag ∈ events env k →
      flag = if found env n = .allPass then 0x03 else 0x04

/-- Nothing is left over where the self test of a step begins: the camera is initialized, the count
of an earlier laser test is not taken for that of this one, no test behind one that passed fails,
and a 0 is left in the buffer behind the text. -/
structure Afresh (env : Env) (n : ℕ) : Prop where
  camera : (state env n).cameraInitialized = true
  laser : (state env n).laserTestsPassed = 2 → env.fpgaComms (state env n).comms = true →
    env.laser (state env n).lasers = true
  passed : (state env n).selfTestPassed = true → found env n = .allPass
  ended : ∃ i, (ascii (streamed env n)).length ≤ i ∧ i < bufferSize ∧ env.errorBuffer i = 0

/-! ## One self test -/

/-- The value of a test, and the text that is streamed up to its end. -/
def Proc.finding {α : Type} (x : Proc World α) (w : World) : α × String :=
  (x.value w, (x.after w).selfTestStream)

theorem Proc.finding_bind {α β : Type} {x : Proc World α} {f : α → Proc World β} {w : World} :
    Proc.finding (x >>= f) w = Proc.finding (f (x.value w)) (x.after w) := by
  unfold Proc.finding
  rw [Proc.value_bind, Proc.after_bind]

theorem Proc.finding_bind_of_ok {α β : Type} {x : Proc World α} {f : α → Proc World β}
    {w w' : World} {a : α} (h : x w = .ok a w') :
    Proc.finding (x >>= f) w = Proc.finding (f a) w' := by
  rw [Proc.finding_bind]
  unfold Proc.value Proc.after
  rw [h]

section Test

variable {P : Event → Prop} {env : Env} {w : World}

theorem Event.Mute.not_reports {e : Event} (h : e.Mute) : ¬ e.Reports := by
  cases e <;> first | exact id | exact h.elim

/-- The count is reset where the laser goes on, so it does not matter what it was. -/
theorem selfTestLaser_reset (h : env.laser w.lasers = true) :
    selfTestLaser env w.uncounted = selfTestLaser env w := by
  unfold selfTestLaser
  show (if env.laser w.lasers = true then _ else _ : Proc World _) _ =
    (if env.laser w.lasers = true then _ else _ : Proc World _) _
  rw [if_pos h]
  rfl

/-- Where the laser does not go on, the verdict depends on the count that is left over. -/
theorem selfTestLaser_unlit (h : env.laser w.lasers = false) :
    (selfTestLaser env).finding w = (.ofBool (w.laserTestsPassed = 2),
      w.selfTestStream ++ "(Laser Test) laserOn FPGA command failed!\n") := by
  unfold selfTestLaser
  show Proc.finding (if env.laser w.lasers = true then _ else _ : Proc World _) _ = _
  rw [if_neg (Bool.eq_false_iff.mp h)]
  rfl

/-- The devices are found the same, whatever count is left over, if it is not taken for a new
one. -/
theorem selfTestDevices_reset (h : w.laserTestsPassed = 2 → env.laser w.lasers = true) :
    (selfTestDevices env).finding w.uncounted = (selfTestDevices env).finding w := by
  cases hlaser : env.laser w.lasers with
  | true =>
    unfold selfTestDevices
    rw [Proc.finding_bind, Proc.finding_bind]
    unfold Proc.value Proc.after
    rw [selfTestLaser_reset hlaser]
  | false =>
    have hcount : w.laserTestsPassed ≠ 2 := fun htwo => by cases hlaser.symm.trans (h htwo)
    have hunlit {w : World} (hlaser : env.laser w.lasers = false)
        (hcount : w.laserTestsPassed ≠ 2) : (selfTestDevices env).finding w =
          ((.fail, .null, .null),
            w.selfTestStream ++ "(Laser Test) laserOn FPGA command failed!\n") := by
      obtain ⟨hvalue, hstream⟩ := Prod.mk.inj (selfTestLaser_unlit hlaser)
      have hfail : (selfTestLaser env).value w = .fail := by
        rw [hvalue, Verdict.ofBool, decide_eq_false hcount]
        rfl
      unfold selfTestDevices
      rw [Proc.finding_bind, hfail, ← hstream]
      rfl
    rw [hunlit hlaser hcount]
    exact hunlit hlaser (show (0 : ℕ) ≠ 2 by decide)

/-- The FPGA answered. -/
def World.answered (w : World) : World := { w with comms := w.comms + 1 }

theorem selfTestFpga_answered (h : env.fpgaComms w.comms = true) :
    selfTestFpga env w = .ok .pass w.answered := by
  unfold selfTestFpga
  show (if env.fpgaComms w.comms = true then _ else _ : Proc World _) _ = _
  rw [if_pos h]
  rfl

theorem selfTestFpga_unanswered (h : env.fpgaComms w.comms = false) :
    ∃ w', selfTestFpga env w = .ok .fail w' ∧ Works P w w' := by
  have hspec : Ensures (selfTestFpga env) (fun fpga w' => Works P w w') w :=
    runs_works senses_selfTestFpga w
  have hvalue : Ensures (selfTestFpga env) (fun fpga _ => fpga = .fail) w := by
    unfold selfTestFpga
    show Ensures (if env.fpgaComms w.comms = true then _ else _ : Proc World _) _ _
    rw [if_neg (Bool.eq_false_iff.mp h)]
    exact rfl
  obtain ⟨fpga, w', heq, hworks, rfl⟩ := Python.ensures_iff.mp (hspec.and hvalue)
  exact ⟨w', heq, hworks⟩

/-- What a self test is meant to find, where the camera is initialized and the FPGA answers. -/
theorem componentVerdicts_answered (hcamera : w.cameraInitialized = true)
    (hfpga : env.fpgaComms w.comms = true)
    (h : w.laserTestsPassed = 2 → env.laser w.lasers = true) :
    (componentVerdicts env).finding w =
      ((selfTestDevices env).finding w.answered).map (verdictsOf .pass .pass) id := by
  unfold componentVerdicts
  show Proc.finding (selfTestFpga env >>= _) w = _
  rw [Proc.finding_bind_of_ok (selfTestFpga_answered hfpga), hcamera,
    ← selfTestDevices_reset (w := w.answered) h]
  show Proc.finding (do return verdictsOf .pass .pass (← selfTestDevices env))
    w.answered.uncounted = _
  rw [Proc.finding_bind]
  rfl

/-- Without an answer of the FPGA, the devices are not tested. -/
theorem componentVerdicts_unanswered (hcamera : w.cameraInitialized = true)
    {w' : World} (hfail : selfTestFpga env w = .ok .fail w') :
    (componentVerdicts env).finding w =
      (verdictsOf .pass .fail (.null, .null, .null), w'.selfTestStream) := by
  unfold componentVerdicts
  show Proc.finding (selfTestFpga env >>= _) w = _
  rw [Proc.finding_bind_of_ok hfail, hcamera]
  rfl

theorem verdictsOf_eq_allPass {devices : Verdict × Verdict × Verdict} :
    verdictsOf .pass .pass devices = .allPass ↔ devices = (.pass, .pass, .pass) := by
  obtain ⟨laser, fsm, calibration⟩ := devices
  simp [verdictsOf, Verdicts.allPass]

/-- The tests of the devices pass if all of them do, and only then. -/
theorem ensures_selfTestDevices (env : Env) (w : World) :
    Ensures (selfTestDevices env) (fun devices w' =>
      w'.selfTestPassed = (w.selfTestPassed || devices = (.pass, .pass, .pass)) ∧
      w'.selfTestFailed = w.selfTestFailed ∧
      Extends (fun e => ¬ e.Reports) w.trace w'.trace) w := by
  have hquiet {w₁ : World} (h : Works (fun e => ¬ e.Reports) w w₁)
      {devices : Verdict × Verdict × Verdict} (hdevices : devices ≠ (.pass, .pass, .pass)) :
      w₁.selfTestPassed = (w.selfTestPassed || devices = (.pass, .pass, .pass)) ∧
        w₁.selfTestFailed = w.selfTestFailed ∧
        Extends (fun e => ¬ e.Reports) w.trace w₁.trace := by
    rw [decide_eq_false hdevices, Bool.or_false]
    have hpassed : w₁.selfTestPassed = w.selfTestPassed := congrArg Findings.selfTestPassed h.same
    exact ⟨hpassed, congrArg Findings.selfTestFailed h.same, h.adds⟩
  unfold selfTestDevices
  refine (works_selfTestLaser (fun _ => Event.Mute.not_reports) w).bind fun laser w₁ h₁ => ?_
  split
  · rename_i hlaser
    refine (works_selfTestFsm (fun _ => Event.Mute.not_reports) w₁).bind fun fsm w₂ h₂ => ?_
    have h₂ := trans_of (Works fun e => ¬ e.Reports) h₁ h₂
    split
    · rename_i hfsm
      refine (ensures_selfTestCalibration (fun _ => Event.Mute.not_reports) env w₂).bind ?_
      rintro verdict w₃ ⟨success, hfindings, calibrated, hbefore, hafter⟩
      have hpassed : w₂.selfTestPassed = w.selfTestPassed :=
        congrArg Findings.selfTestPassed h₂.same
      have hfailed : w₂.selfTestFailed = w.selfTestFailed :=
        congrArg Findings.selfTestFailed h₂.same
      refine ⟨?_, (congrArg Findings.selfTestFailed hfindings).trans hfailed, ?_⟩
      · refine (congrArg Findings.selfTestPassed hfindings).trans ?_
        rw [hlaser, hfsm, ← hpassed]
        simp
      · exact h₂.adds.trans (hbefore.trans (.trans (.concat id) hafter))
    · rename_i hfsm
      exact hquiet h₂ fun heq => hfsm (congrArg (fun devices => devices.2.1) heq)
  · rename_i hlaser
    exact hquiet h₁ fun heq => hlaser (congrArg Prod.fst heq)

/-- A self test publishes its packet last, and keeps that it failed where no test has passed. -/
structure Tested (verdicts : Verdicts) (error : Option Bytes) (w w' : World) : Prop where
  passed : w'.selfTestPassed = (w.selfTestPassed || verdicts = .allPass)
  failed : w'.selfTestFailed = (w.selfTestFailed || !w'.selfTestPassed)
  packet : ∃ before, Extends (fun e => ¬ e.Reports) w.trace before ∧
    w'.trace = before ++ [.selfTest verdicts error]

/-- The end of a self test, where the tests found what they are meant to find. -/
theorem ensures_selfTestPacket {w₁ : World} {fpga : Verdict} {devices : Verdict × Verdict × Verdict}
    (hfinding : (componentVerdicts env).finding w =
      (verdictsOf .pass fpga devices, w₁.selfTestStream))
    (hpassed : w₁.selfTestPassed = (w.selfTestPassed || verdictsOf .pass fpga devices = .allPass))
    (hfailed : w₁.selfTestFailed = w.selfTestFailed)
    (hadds : Extends (fun e => ¬ e.Reports) w.trace w₁.trace) : Ensures (do
      modify fun w => { w with selfTestFailed := w.selfTestFailed || !w.selfTestPassed }
      emit (.selfTest ⟨.pass, fpga, devices.1, devices.2.1, devices.2.2⟩
        (selfTestError env (← get).selfTestStream)) : Proc World Unit)
    (fun _ w' => Tested ((componentVerdicts env).value w)
      (selfTestError env ((componentVerdicts env).after w).selfTestStream) w w') w₁ := by
  obtain ⟨hvalue, hstream⟩ := Prod.mk.inj hfinding
  rw [hvalue, hstream]
  refine ⟨hpassed, ?_, w₁.trace, hadds, rfl⟩
  rw [← hfailed]

/-- What the tests behind that of the camera send. -/
theorem ensures_selfTestOthers (hcamera : w.cameraInitialized = true)
    (h : w.laserTestsPassed = 2 → env.fpgaComms w.comms = true → env.laser w.lasers = true) :
    Ensures (selfTestOthers env) (fun _ w' => Tested ((componentVerdicts env).value w)
      (selfTestError env ((componentVerdicts env).after w).selfTestStream) w w') w := by
  unfold selfTestOthers
  cases hfpga : env.fpgaComms w.comms with
  | true =>
    rw [Ensures, wp_bind, Python.wp_of_ok (selfTestFpga_answered hfpga)]
    obtain ⟨hpassed, hfailed, hadds⟩ :=
      Proc.ensures_iff.mp (ensures_selfTestDevices env w.answered)
    have hvalue : Ensures (selfTestDevices env) (fun devices w' =>
        devices = (selfTestDevices env).value w.answered ∧
        w' = (selfTestDevices env).after w.answered) w.answered :=
      Proc.ensures_iff.mpr ⟨rfl, rfl⟩
    show Ensures (selfTestDevices env >>= _) _ w.answered
    refine hvalue.bind ?_
    rintro _ _ ⟨rfl, rfl⟩
    refine ensures_selfTestPacket ?_ (hpassed.trans ?_) hfailed hadds
    · exact componentVerdicts_answered hcamera hfpga fun htwo => h htwo hfpga
    · exact congrArg (w.selfTestPassed || ·) (decide_eq_decide.mpr verdictsOf_eq_allPass.symm)
  | false =>
    obtain ⟨w₁, hfail, hworks⟩ := selfTestFpga_unanswered (P := fun e => ¬ e.Reports) hfpga
    rw [Ensures, wp_bind, Python.wp_of_ok hfail]
    have hpassed : w₁.selfTestPassed = w.selfTestPassed :=
      congrArg Findings.selfTestPassed hworks.same
    refine ensures_selfTestPacket (componentVerdicts_unanswered hcamera hfail) ?_
      (congrArg Findings.selfTestFailed hworks.same) hworks.adds
    rw [hpassed, decide_eq_false (by simp [verdictsOf, Verdicts.allPass]), Bool.or_false]

/-- **What a self test sends**, where the camera is initialized and no count is left over. -/
theorem ensures_selfTest (hcamera : w.cameraInitialized = true)
    (h : w.laserTestsPassed = 2 → env.fpgaComms w.comms = true → env.laser w.lasers = true) :
    Ensures (selfTest env) (fun _ w' => Tested ((componentVerdicts env).value w)
      (selfTestError env ((componentVerdicts env).after w).selfTestStream) w w') w := by
  have hpass : Verdict.ofBool w.cameraInitialized = .pass := by
    rw [hcamera]
    rfl
  unfold selfTest
  rw [Ensures, wp_bind, wp_get]
  dsimp only
  rw [hpass, if_neg (by simp)]
  exact ensures_selfTestOthers hcamera h

/-- The packet has its error, if a 0 is left in the buffer behind the text. -/
theorem selfTestError_isSome {stream : String}
    (h : ∃ i, (ascii stream).length ≤ i ∧ i < bufferSize ∧ env.errorBuffer i = 0) :
    ∃ error, selfTestError env stream = some error := by
  have hmem : 0 ∈ selfTestErrorBuffer env stream := mem_memcpy_uninitialized.mpr (.inr h)
  rw [selfTestError, strlen, if_pos hmem]
  exact ⟨_, rfl⟩

end Test

/-! ## Other statements -/

/-- Whether a self test has passed, and whether one has failed. -/
def World.tests (w : World) : Bool × Bool := (w.selfTestPassed, w.selfTestFailed)

section Others

variable {P : Event → Prop} {κ : Type} {env : Env} {w w' : World}

theorem Agrees.tests (h : Works P w w') : Agrees World.tests P w w' := by
  have hpassed : w'.selfTestPassed = w.selfTestPassed := congrArg Findings.selfTestPassed h.same
  have hfailed : w'.selfTestFailed = w.selfTestFailed := congrArg Findings.selfTestFailed h.same
  exact ⟨Prod.ext hpassed hfailed, h.adds⟩

theorem tests_of_besideBeacon (h : Agrees World.besideBeacon P w w') :
    Agrees World.tests P w w' := by
  have hpassed : w'.selfTestPassed = w.selfTestPassed := congrArg Findings.selfTestPassed h.same
  have hfailed : w'.selfTestFailed = w.selfTestFailed := congrArg Findings.selfTestFailed h.same
  exact ⟨Prod.ext hpassed hfailed, h.adds⟩

theorem tests_of_besideCalib (h : Agrees World.besideCalib P w w') :
    Agrees World.tests P w w' := by
  have hpassed : w'.selfTestPassed = w.selfTestPassed := congrArg Findings.selfTestPassed h.same
  have hfailed : w'.selfTestFailed = w.selfTestFailed := congrArg Findings.selfTestFailed h.same
  exact ⟨Prod.ext hpassed hfailed, h.adds⟩

/-- A session does no self test. -/
theorem tests_runPhase : Runs (Agrees World.tests fun _ => True) (runPhase env) := by
  have hmute (e : Event) (_ : e.Mute) : True := trivial
  unfold runPhase
  refine runs_bind agrees_get fun w => ?_
  refine runs_bind ((works_emit trivial).imp fun _ _ => Agrees.tests) fun _ => ?_
  cases w.phase with
  | calibration =>
    exact (beside_calibrationPhase hmute fun _ => trivial).imp fun _ _ => tests_of_besideCalib
  | acquisition =>
    exact (beside_acquisitionPhase hmute fun _ => trivial).imp fun _ _ => tests_of_besideBeacon
  | clInit => exact agrees_modify fun _ => ⟨rfl, rfl⟩
  | clBeacon => exact (beside_clBeaconPhase hmute).imp fun _ _ => tests_of_besideBeacon
  | clCalib => exact (beside_clCalibPhase hmute).imp fun _ _ => tests_of_besideCalib
  | openLoop => exact (beside_openLoopPhase hmute).imp fun _ _ => tests_of_besideBeacon
  | staticPoint => exact (works_staticPointPhase hmute).imp fun _ _ => Agrees.tests

theorem tests_mainStep (env : Env) (w : World) :
    Ensures (mainStep env) (fun _ w' => w'.tests = w.tests) w := by
  have hmute (e : Event) (_ : e.Mute) : True := trivial
  cases hended : (approach env).value w with
  | true =>
    refine (mainStep_of_ended (P := fun _ => True) hended hmute trivial).imp ?_
    exact fun _ w' h => h.1.tests.same
  | false =>
    have happroach : Works (fun _ => True) w (switch env w) :=
      Proc.after_of_ensures (works_approach hmute trivial w)
    refine mainStep_of_phase (Q := fun w' => w'.tests = w.tests) ?_ hended ?_
    · intro w₁ w₂ h₁ hsettles
      exact hsettles.works.tests.same.trans h₁
    · refine (tests_runPhase (switch env w)).imp fun _ w' h => ?_
      exact h.same.trans happroach.tests.same

end Others

/-! ## Steps -/

section Steps

variable {P : Event → Prop} {env : Env} {w : World}

/-- The event publishes no other status. -/
def Event.Publishes (flag : UInt32) (e : Event) : Prop := ∀ other, e = .status other → other = flag

theorem Event.Mute.publishes {flag : UInt32} {e : Event} (h : e.Mute) : e.Publishes flag := by
  rintro other rfl
  exact h.elim

/-- **The standby loop only publishes its status**, and only a self test changes it. -/
theorem tests_standbyStep
    (h : env.stop w.time = false → nextCommand env w ≠ some .selfTest) :
    Ensures (standbyStep env) (fun _ w' =>
      Agrees World.tests (Event.Publishes (standbyStatus w)) w w') w := by
  have hmute (e : Event) (he : e.Mute) : e.Publishes (standbyStatus w) := he.publishes
  have hcalib (success : Bool) : (Event.calibrationRun success).Publishes (standbyStatus w) :=
    fun _ hfalse => by cases hfalse
  refine standbyStep_of_command
    (Q := fun w' => Agrees World.tests (Event.Publishes (standbyStatus w)) w w') ?_ ?_ ?_
  · intro w₁ w₂ h₁ hdeparts
    have htests := hdeparts.works.tests
    exact trans_of (Agrees World.tests _) h₁ (htests.mono (fun hsame => hsame) hmute)
  · exact fun _ => ⟨rfl, .of_eq rfl⟩
  · intro hgoes data
    have htaken : Agrees World.tests (Event.Publishes (standbyStatus w)) w (taken env w) :=
      (senses_taken hmute fun _ hflag => by cases hflag; rfl).works.tests
    refine Runs.trans ?_ htaken
    by_cases hcalibTest : nextCommand env w = some .calibTest
    · rw [hcalibTest]
      exact (beside_calibTest hmute hcalib).imp fun _ _ => tests_of_besideCalib
    · exact (works_standbyCommand hmute hcalibTest (h hgoes) data).imp fun _ _ => Agrees.tests

/-- The event is no self test packet, and publishes no other status. -/
def Event.Before (flag : UInt32) (e : Event) : Prop := e.verdicts = none ∧ e.Publishes flag

theorem Event.Mute.before {flag : UInt32} {e : Event} (h : e.Mute) : e.Before flag := by
  refine ⟨?_, h.publishes⟩
  cases e with
  | selfTest verdicts text => exact h.elim
  | _ => rfl

theorem Event.before_of_not_reports {flag : UInt32} {e : Event} (h : ¬ e.Reports) :
    e.Before flag := by
  cases e with
  | selfTest verdicts text => exact absurd trivial h
  | status other => exact absurd trivial h
  | _ => exact ⟨rfl, fun _ hother => by cases hother⟩

theorem filterMap_verdicts_of_before {flag : UInt32} {events : List Event}
    (h : ∀ e ∈ events, e.Before flag) : events.filterMap Event.verdicts = [] :=
  List.filterMap_eq_nil_iff.mpr fun e he => (h e he).1

/-- The step of a self test sends its packet, and publishes the status that was current before. -/
structure Answers (verdicts : Verdicts) (w w' : World) : Prop where
  passed : w'.selfTestPassed = (w.selfTestPassed || verdicts = .allPass)
  failed : w'.selfTestFailed = (w.selfTestFailed || !w'.selfTestPassed)
  packet : ∃ events, w'.trace = w.trace ++ events ∧
    events.filterMap Event.verdicts = [verdicts] ∧ ∀ e ∈ events, e.Publishes (standbyStatus w)

theorem Answers.works {verdicts : Verdicts} {w₁ w₂ : World} (h : Answers verdicts w w₁)
    (hworks : Works Event.Mute w₁ w₂) : Answers verdicts w w₂ where
  passed := (congrArg Findings.selfTestPassed hworks.same).trans h.passed
  failed := by
    have hpassed : w₂.selfTestPassed = w₁.selfTestPassed :=
      congrArg Findings.selfTestPassed hworks.same
    rw [hpassed]
    exact (congrArg Findings.selfTestFailed hworks.same).trans h.failed
  packet := by
    obtain ⟨events, htrace, hverdicts, hpublishes⟩ := h.packet
    obtain ⟨after, hafter, hmute⟩ := hworks.adds
    have hbefore (e : Event) (he : e ∈ after) : e.Before (standbyStatus w) := (hmute e he).before
    refine ⟨events ++ after, ?_, ?_, ?_⟩
    · rw [hafter, htrace, List.append_assoc]
    · rw [List.filterMap_append, hverdicts, filterMap_verdicts_of_before hbefore]
      rfl
    · intro e he
      rcases List.mem_append.mp he with he | he
      · exact hpublishes e he
      · exact (hbefore e he).2

/-- What a self test does, behind what happened before it in its step. -/
theorem Tested.answers {verdicts : Verdicts} {error : Bytes} {w₁ w₂ : World}
    (hworks : Works (Event.Before (standbyStatus w)) w w₁)
    (h : Tested verdicts (some error) w₁ w₂) : Answers verdicts w w₂ where
  passed := by
    have hpassed : w₁.selfTestPassed = w.selfTestPassed :=
      congrArg Findings.selfTestPassed hworks.same
    rw [h.passed, hpassed]
  failed := by
    have hfailed : w₁.selfTestFailed = w.selfTestFailed :=
      congrArg Findings.selfTestFailed hworks.same
    rw [h.failed, hfailed]
  packet := by
    obtain ⟨before, hextends, htrace⟩ := h.packet
    have hbefore : Extends (Event.Before (standbyStatus w)) w.trace before :=
      hworks.adds.trans (hextends.mono fun _ => Event.before_of_not_reports)
    obtain ⟨events, rfl, hevents⟩ := hbefore
    refine ⟨events ++ [.selfTest verdicts (some error)], ?_, ?_, ?_⟩
    · rw [htrace, List.append_assoc]
    · rw [List.filterMap_append, filterMap_verdicts_of_before hevents]
      rfl
    · intro e he
      rcases List.mem_append.mp he with he | he
      · exact (hevents e he).2
      · rw [List.mem_singleton.mp he]
        exact fun _ hother => by cases hother

/-- **The step of a self test**, where nothing is left over. -/
theorem answers_standbyStep (hstop : env.stop w.time = false)
    (hcommand : nextCommand env w = some .selfTest) (hcamera : w.cameraInitialized = true)
    (h : w.laserTestsPassed = 2 → env.fpgaComms w.comms = true → env.laser w.lasers = true)
    (hended : ∃ i, (ascii ((componentVerdicts env).after (taken env w)).selfTestStream).length ≤ i ∧
      i < bufferSize ∧ env.errorBuffer i = 0) :
    Ensures (standbyStep env) (fun _ w' =>
      Answers ((componentVerdicts env).value (taken env w)) w w') w := by
  have htaken : Senses (Event.Before (standbyStatus w)) w (taken env w) :=
    senses_taken (fun _ => Event.Mute.before) ⟨rfl, fun _ hflag => by cases hflag; rfl⟩
  have hcamera' : (taken env w).cameraInitialized = true :=
    (htaken.variable World.cameraInitialized fun _ => rfl).trans hcamera
  have hcount : (taken env w).laserTestsPassed = w.laserTestsPassed :=
    htaken.variable World.laserTestsPassed fun _ => rfl
  have hlasers : (taken env w).lasers = w.lasers := htaken.variable World.lasers fun _ => rfl
  refine standbyStep_of_command
    (Q := fun w' => Answers ((componentVerdicts env).value (taken env w)) w w') ?_ ?_ ?_
  · exact fun w₁ w₂ h₁ hdeparts => h₁.works hdeparts.works
  · intro hstopped
    cases hstop.symm.trans hstopped
  · intro _ data
    rw [hcommand]
    have htest := @ensures_selfTest env (taken env w) hcamera'
      (by rw [hcount, hlasers, taken_comms]; exact h)
    obtain ⟨error, herror⟩ := selfTestError_isSome hended
    rw [herror] at htest
    exact htest.imp fun _ w' => Tested.answers htaken.works

/-- The other steps do not change what the self tests found. -/
theorem tests_step (h : w.place = .standby → env.stop w.time = false →
    nextCommand env w ≠ some .selfTest) : (step env w).tests = w.tests := by
  refine Proc.after_of_ensures (Q := fun w' : World => w'.tests = w.tests) ?_
  unfold iteration
  rw [Ensures, wp_bind, wp_get]
  cases hplace : w.place with
  | cameraInit =>
    have hworks : Runs (Works fun _ => True) (cameraInitIteration env) :=
      works_cameraInitIteration (fun _ _ => trivial) trivial fun _ _ => trivial
    exact (hworks w).imp fun _ w' h => h.tests.same
  | standby => exact (tests_standbyStep (h hplace)).imp fun _ w' h => h.same
  | main => exact tests_mainStep env w
  | ended => exact rfl

end Steps

/-! ## Runs -/

section States

variable {env : Env} {k n : ℕ}

/-- A step takes its self test where it takes its command. -/
theorem answers_step (h : SelfTests env n) (hafresh : Afresh env n) :
    Answers (found env n) (state env n) (state env (n + 1)) := by
  obtain ⟨hplace, hstop, hcommand⟩ := h
  refine Proc.after_of_ensures (Q := Answers (found env n) (state env n)) ?_
  unfold iteration
  rw [Ensures, wp_bind, wp_get, hplace]
  exact answers_standbyStep hstop hcommand hafresh.camera hafresh.laser
    hafresh.ended

/-- What a self test found stays what it is, up to the next one. -/
theorem tests_of_le (hle : n + 1 ≤ k) (h : ∀ m, n < m → m < k → ¬ SelfTests env m) :
    (state env k).tests = (state env (n + 1)).tests := by
  induction k, hle using Nat.le_induction with
  | base => rfl
  | succ k hle ih =>
    refine Eq.trans (tests_step fun hplace hstop hcommand => ?_)
      (ih fun m hm hmk => h m hm (hmk.trans (Nat.lt_succ_self k)))
    exact h k hle (Nat.lt_succ_self k) ⟨hplace, hstop, hcommand⟩

/-- A status that is published in standby is that of the state. -/
theorem published_standby (hplace : (state env k).place = .standby)
    (hafresh : SelfTests env k → Afresh env k) {flag : UInt32}
    (hflag : .status flag ∈ events env k) : flag = standbyStatus (state env k) := by
  by_cases htest : SelfTests env k
  · obtain ⟨events, htrace, -, hpublishes⟩ := (answers_step htest (hafresh htest)).packet
    rw [events_eq htrace] at hflag
    exact hpublishes _ hflag _ rfl
  · have hstep : Ensures (iteration env) (fun _ w' => Agrees World.tests
        (Event.Publishes (standbyStatus (state env k))) (state env k) w') (state env k) := by
      unfold iteration
      rw [Ensures, wp_bind, wp_get, hplace]
      exact tests_standbyStep fun hstop hcommand => htest ⟨hplace, hstop, hcommand⟩
    obtain ⟨events, htrace, hpublishes⟩ := (Proc.after_of_ensures hstep).adds
    rw [events_eq htrace] at hflag
    exact hpublishes _ hflag _ rfl

/-- **The status of a self test is current**, in a run where nothing is left over where a self test
begins. -/
theorem current_of_afresh (env : Env) (h : ∀ n, SelfTests env n → Afresh env n) (n : ℕ)
    (htest : SelfTests env n) : Current env n := by
  have hanswers := answers_step htest (h n htest)
  constructor
  · obtain ⟨events, htrace, hverdicts, -⟩ := hanswers.packet
    rw [events_eq htrace]
    exact hverdicts
  · intro k hlt hnone hplace flag hflag
    have htests := tests_of_le hlt hnone
    have hpassed : (state env k).selfTestPassed = (state env (n + 1)).selfTestPassed :=
      congrArg Prod.fst htests
    have hfailed : (state env k).selfTestFailed = (state env (n + 1)).selfTestFailed :=
      congrArg Prod.snd htests
    rw [published_standby hplace (h k) hflag, standbyStatus, hpassed, hfailed, hanswers.failed,
      hanswers.passed]
    by_cases hfound : found env n = .allPass
    · rw [decide_eq_true hfound, Bool.or_true, if_pos rfl, if_pos hfound]
    · have hnever : (state env n).selfTestPassed = false :=
        Bool.eq_false_iff.mpr fun hsticky => hfound ((h n htest).passed hsticky)
      rw [decide_eq_false hfound, hnever, if_neg hfound]
      simp

/-- Three self tests: the laser goes on but not for the FSM, it is not seen, and the FPGA does not
answer. -/
def severalTests : Env := { commanded true [controlPacket 0x10 [], controlPacket 0x10 [],
    controlPacket 0x10 [], controlPacket 0x11 []] with
  errorBuffer := fun i => if i < 200 then 0x55 else 0
  laser := fun n => n != 5
  fpgaComms := fun n => n != 2
  frame := fun n =>
    if n = 5 ∨ n = 9 then some spotFrame
    else some ⟨⟨0, 0, 2592, 1944⟩, 10, 10, some []⟩ }

theorem current_severalTests :
    Current severalTests 0 ∧ Current severalTests 1 ∧ Current severalTests 2 := by
  have htests : ∀ n < 3, nextCommand severalTests (state severalTests n) = some .selfTest ∧
      (state severalTests n).place = .standby := by
    decide +kernel
  have hended : (state severalTests 4).place = .ended := by decide +kernel
  have hafresh : ∀ n, SelfTests severalTests n → Afresh severalTests n := by
    intro n htest
    have hlt : n < 4 :=
      Nat.lt_of_not_le fun hle => by cases htest.1.symm.trans (ended_of_le hended hle)
    constructor
    · exact (by decide +kernel : ∀ n < 4, (state severalTests n).cameraInitialized = true) n hlt
    · exact (by decide +kernel : ∀ n < 4, (state severalTests n).laserTestsPassed = 2 →
        severalTests.fpgaComms (state severalTests n).comms = true →
        severalTests.laser (state severalTests n).lasers = true) n hlt
    · exact (by decide +kernel : ∀ n < 4, (state severalTests n).selfTestPassed = true →
        found severalTests n = .allPass) n hlt
    · exact ⟨200, (by decide +kernel :
        ∀ n < 4, (ascii (streamed severalTests n)).length ≤ 200) n hlt, by decide, rfl⟩
  have hcurrent : ∀ n < 3, Current severalTests n := fun n hn =>
    current_of_afresh _ hafresh n ⟨(htests n hn).2, rfl, (htests n hn).1⟩
  exact ⟨hcurrent 0 (by decide), hcurrent 1 (by decide), hcurrent 2 (by decide)⟩

/-- Behind a session in static pointing, a camera that was never initialized passes the self
test. -/
theorem not_current_camera :
    SelfTests (commanded false [controlPacket 0x02 [], controlPacket 0x07 [],
      controlPacket 0x10 []]) 2 ∧
    ¬ Current (commanded false [controlPacket 0x02 [], controlPacket 0x07 [],
      controlPacket 0x10 []]) 2 := by
  refine ⟨⟨?_, rfl, ?_⟩, fun hcurrent => ?_⟩
  · decide +kernel
  · decide +kernel
  · have hpacket := hcurrent.packet
    revert hpacket
    decide +kernel

end States

end ClickA.Pat
