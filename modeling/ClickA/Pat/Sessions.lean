import ClickA.Pat.Steered

/-!
# Sessions

A session is a stay in the main loop. It is started by a command, which prescribes its flags, and a
session in static pointing steers the FSM to the static point first.

## Main definitions

* `StartsSession`, `InSession`: a session, and the states in it
* `Own`: a session behaves as its own command prescribes
* `Isolated`: all sessions do
* `Clean`: nothing is left over where a session starts

## Main results

* `begins_step`: a session begins with a command that sets its flags
* `isolated_of_clean`: **where nothing is left over, sessions do not leak into each other**
* `not_isolated_openLoop`: a session in open loop leaves its flag to the next one
-/

namespace ClickA.Pat

open Python (Bytes Ensures Runs runs_bind runs_pure runs_ite wp_bind wp_get wp_modify)
open Stream (Extends)

/-! ## Sessions -/

/-- The code of a command that is received. -/
def Event.code : Event → Option UInt16
  | .command code => some code
  | _ => none

/-- The last command among some events. -/
def received (events : List Event) : Option Command :=
  (events.filterMap Event.code).getLast?.bind Command.ofCode

/-- What happens in a step. -/
def events (env : Env) (n : ℕ) : List Event :=
  (state env (n + 1)).trace.drop (state env n).trace.length

/-- The static point is commanded to the FSM. -/
def World.staticPointCommand (w : World) : Event :=
  if w.haveCalibKnowledge then .controlOpenLoop w.staticPoint.1 w.staticPoint.2
  else .setNormalizedAngles 0 0

/-- A session starts in a step. -/
def StartsSession (env : Env) (k : ℕ) : Prop :=
  (state env k).place ≠ .main ∧ (state env (k + 1)).place = .main

/-- A state is in the session that starts in step `k`. -/
def InSession (env : Env) (k n : ℕ) : Prop :=
  StartsSession env k ∧ k < n ∧ ∀ m, k < m → m ≤ n → (state env m).place = .main

/-- In a state of a session, the flags are those that the command of the session prescribes, and
behind the first iteration of a session in static pointing the static point was commanded. -/
def Own (env : Env) (k n : ℕ) : Prop :=
  ∃ command, received (events env k) = some command ∧
    command.prescribes = some (state env n).flags ∧
    (command = .startPatStaticPoint → k + 1 < n →
      (state env (k + 2)).staticPointCommand ∈ events env (k + 1))

/-- Sessions do not leak into each other. -/
def Isolated (env : Env) : Prop := ∀ k n, InSession env k n → Own env k n

/-- Each flag that is set is prescribed. -/
def Flags.Within (flags prescribed : Flags) : Prop :=
  (flags.openLoop = true → prescribed.openLoop = true) ∧
    (flags.sendBusFeedback = true → prescribed.sendBusFeedback = true) ∧
    (flags.bcnAlignment = true → prescribed.bcnAlignment = true)

/-- Where a session starts, no flag is set that its command does not prescribe, and for a session in
static pointing, no static point was commanded before. -/
def Clean (env : Env) (k : ℕ) : Prop :=
  ∀ command, received (events env k) = some command →
    (∀ flags, command.prescribes = some flags → (state env k).flags.Within flags) ∧
    (command = .startPatStaticPoint → (state env k).staticPointingInitialized = false)

/-! ## Between sessions -/

/-- The process is between sessions, or at its end. -/
structure Resting (w : World) : Prop where
  place : w.place ≠ .main
  standby : w.standby = true ∨ w.place = .ended

/-- The command of a session is received, and sets its flags. -/
structure Starts (w w' : World) (command : Command) (flags : Flags) : Prop where
  prescribes : command.prescribes = some flags
  standby : w'.standby = false
  received : ∃ events, w'.trace = w.trace ++ events ∧ received events = some command
  flags : w'.flags = (w.raise flags).flags
  static : command = .startPatStaticPoint → w'.phase = .staticPoint ∧
    w'.staticPointingInitialized = w.staticPointingInitialized

/-- The command stays the last one behind other events, and before events that are no commands. -/
theorem received_append {command : Command} {before events : List Event}
    (h : received events = some command) : received (before ++ events) = some command := by
  unfold received at h ⊢
  rw [List.filterMap_append, List.getLast?_append]
  cases hlast : (events.filterMap Event.code).getLast? with
  | none =>
    rw [hlast] at h
    cases h
  | some code =>
    rw [hlast] at h
    exact h

theorem received_concat {events : List Event} {e : Event} (h : e.code = none) :
    received (events ++ [e]) = received events := by
  unfold received
  rw [List.filterMap_append, List.filterMap_cons_none h, List.filterMap_nil, List.append_nil]

theorem flags_raise (w : World) (flags : Flags) : (w.raise flags).flags =
    ⟨w.flags.openLoop || flags.openLoop, w.flags.sendBusFeedback || flags.sendBusFeedback,
      w.flags.bcnAlignment || flags.bcnAlignment⟩ := rfl

section Loops

variable {env : Env} {w w₁ w' : World} {command : Command} {flags : Flags}

/-- The command of a session is the last one, also behind a statement that leaves it alone. -/
theorem Starts.after (h : Starts w₁ w' command flags) (hquiet : Quiet Event.Idle w w₁) :
    Starts w w' command flags where
  prescribes := h.prescribes
  standby := h.standby
  received := by
    obtain ⟨events, htrace, hreceived⟩ := h.received
    obtain ⟨before, hbefore, -⟩ := hquiet.adds
    refine ⟨before ++ events, ?_, ?_⟩
    · rw [htrace, hbefore, List.append_assoc]
    · exact received_append hreceived
  flags := by
    have hflags : w₁.flags = w.flags := hquiet.flags
    rw [h.flags, flags_raise, flags_raise, hflags]
  static hstatic := by
    obtain ⟨hphase, hpointed⟩ := h.static hstatic
    exact ⟨hphase, hpointed.trans hquiet.staticPointingInitialized⟩

/-- The main loop is entered. -/
theorem Starts.enter (h : Starts w w' command flags) :
    Starts w { w' with receivedEndPatCmd := false, acqImgSaved := false, place := .main } command
      flags :=
  ⟨h.prescribes, h.standby, h.received, h.flags, h.static⟩

theorem ensures_finish (env : Env) (w : World) : Ensures (finish env) (fun _ w' => Resting w') w :=
  ⟨(by cases ·), .inr rfl⟩

theorem ensures_leaveMain (env : Env) (w : World) :
    Ensures (leaveMain env) (fun _ w' => Resting w') w := by
  unfold leaveMain
  show Ensures (if w.operational = true then _ else finish env) _ { w with standby := true }
  split
  · show Ensures (if env.stop w.time = true then finish env else _) _ _
    split
    · exact ensures_finish env _
    · exact ⟨(by cases ·), .inl rfl⟩
  · exact ensures_finish env _

/-- Behind the standby loop, the main loop begins if a session was started. -/
theorem ensures_leaveStandby (env : Env) (w : World) :
    Ensures (leaveStandby env) (fun _ w' => Resting w' ∨ w.operational = true ∧
      w.standby = false ∧
        w' = { w with receivedEndPatCmd := false, acqImgSaved := false, place := .main }) w := by
  unfold leaveStandby
  show Ensures (if (w.operational && !w.standby) = true then _ else leaveMain env) _
    { w with receivedEndPatCmd := false, acqImgSaved := false }
  split
  · rename_i h
    obtain ⟨hoperational, hstandby⟩ := Bool.and_eq_true_iff.mp h
    exact .inr ⟨hoperational, by simpa using hstandby, rfl⟩
  · exact (ensures_leaveMain env _).imp fun _ _ => .inl

theorem ensures_receiveCommand (env : Env) (w : World) :
    Ensures (receiveCommand env) (fun packet w' => Quiet Event.Idle w w' ∧
      ∀ code data, packet = some (code, data) → w'.trace = w.trace ++ [.command code]) w := by
  refine Ensures.and (quiet_receiveCommand (fun _ => id) w) ?_
  unfold receiveCommand
  rw [Ensures, wp_bind, wp_get, wp_bind, wp_modify]
  cases env.message w.polls with
  | none =>
    intro code data hpacket
    cases hpacket
  | some message =>
    intro code data hpacket
    cases hpacket
    rfl

/-- A command starts a session, or ends the process, or the modes stay what they are. -/
theorem ensures_standbyCommand (received : Option Command) (data : Bytes) (w : World) :
    Ensures (standbyCommand env received data) (fun _ w' => w'.mode = w.mode ∨
      w'.place = w.place ∧ w'.standby = false ∧ w'.operational = false ∨
      ∃ command flags phase, received = some command ∧
        command.prescribes = some flags ∧ command.Enters w phase ∧
        Quiet (fun _ => False) ((w.raise flags).start phase) w') w := by
  by_cases hend : received = some .endProcess
  · rw [hend]
    exact .inr (.inl ⟨rfl, rfl, rfl⟩)
  · cases hstart : received.bind Command.prescribes with
    | none => exact (advances_standbyCommand hstart hend data w).imp fun _ _ h => .inl h.mode
    | some flags =>
      obtain ⟨command, rfl, hprescribes⟩ := Option.bind_eq_some_iff.mp hstart
      have hspec := ensures_start (P := fun _ => False) env hprescribes data w
      refine hspec.imp fun _ w' h => ?_
      rcases h with hquiet | ⟨phase, henters, hquiet⟩
      · exact .inl hquiet.mode
      · exact .inr (.inr ⟨command, flags, phase, rfl, hprescribes, henters, hquiet⟩)

/-- An iteration of the standby loop starts a session by its command, or ends the process, or the
modes stay what they are. -/
theorem ensures_standbyIteration (env : Env) (w : World) :
    Ensures (standbyIteration env) (fun _ w' => w'.mode = w.mode ∨
      w'.standby = false ∧ w'.operational = false ∨
      ∃ command flags, Starts w w' command flags) w := by
  unfold standbyIteration
  rw [Ensures, wp_bind, wp_get]
  have hstatus : Quiet Event.Idle w { w with trace := w.trace ++ [.status (standbyStatus w)] } :=
    ⟨rfl, rfl, .concat ⟨id, id⟩⟩
  refine (ensures_receiveCommand env _).bind ?_
  rintro packet w₁ ⟨h₁, htrace⟩
  have h₁ := hstatus.trans h₁
  cases packet with
  | none => exact .inl h₁.mode
  | some packet =>
    refine (ensures_standbyCommand (Command.ofCode packet.1) packet.2 w₁).imp fun _ w' h => ?_
    rcases h with hmode | ⟨-, hended⟩ |
      ⟨command, flags, phase, hcommand, hprescribes, henters, hquiet⟩
    · exact .inl (hmode.trans h₁.mode)
    · exact .inr (.inl hended)
    · have hstandby : w'.standby = false := congrArg Mode.standby hquiet.mode
      refine .inr (.inr ⟨command, flags, hprescribes, hstandby, ?_, ?_, ?_⟩)
      · have htrace' : w'.trace = w₁.trace := Extends.eq hquiet.adds
        refine ⟨[.status (standbyStatus w), .command packet.1], ?_, hcommand⟩
        rw [htrace', htrace packet.1 packet.2 rfl, List.append_assoc]
        rfl
      · rw [hquiet.flags]
        show (w₁.raise flags).flags = (w.raise flags).flags
        have hflags : w₁.flags = w.flags := h₁.flags
        rw [flags_raise, flags_raise, hflags]
      · rintro rfl
        obtain rfl : phase = .staticPoint := henters
        refine ⟨hquiet.phase, hquiet.staticPointingInitialized.trans ?_⟩
        exact h₁.staticPointingInitialized

/-- **A step of the standby loop starts a session by its command**, or the process goes on between
sessions. -/
theorem begins_standbyStep (hplace : w.place = .standby) (hstandby : w.standby = true) :
    Ensures (standbyStep env) (fun _ w' => Resting w' ∨
      w'.place = .main ∧ ∃ command flags, Starts w w' command flags) w := by
  have hask : Ensures (ask env.stop) (fun stopped w' => Quiet Event.Idle w w') w := quiet_ask _ w
  unfold standbyStep
  refine hask.bind fun stopped w₁ h₁ => ?_
  cases stopped with
  | true =>
    rw [if_pos rfl, Ensures, wp_bind, wp_modify]
    refine (ensures_leaveStandby env _).imp fun _ w' h => ?_
    rcases h with hresting | ⟨hfalse, -, -⟩
    · exact .inl hresting
    · cases hfalse
  | false =>
    refine (ensures_standbyIteration env w₁).bind fun _ w₂ h₂ => ?_
    show Ensures (if w₂.standby = false then leaveStandby env else pure ()) _ w₂
    rcases h₂ with hmode | ⟨hstandby₂, hended⟩ | ⟨command, flags, hbegins⟩
    · have hplace₂ : w₂.place = .standby :=
        (congrArg Mode.place (hmode.trans h₁.mode)).trans hplace
      have hstandby₂ : w₂.standby = true :=
        (congrArg Mode.standby (hmode.trans h₁.mode)).trans hstandby
      rw [if_neg (by simp [hstandby₂])]
      exact .inl ⟨by simp [hplace₂], .inl hstandby₂⟩
    · rw [if_pos hstandby₂]
      refine (ensures_leaveStandby env w₂).imp fun _ w' h => ?_
      rcases h with hresting | ⟨hoperational, -, -⟩
      · exact .inl hresting
      · cases hended.symm.trans hoperational
    · rw [if_pos hbegins.standby]
      refine (ensures_leaveStandby env w₂).imp fun _ w' h => ?_
      rcases h with hresting | ⟨-, -, rfl⟩
      · exact .inl hresting
      · exact .inr ⟨rfl, command, flags, (hbegins.after h₁).enter⟩

/-- Behind the initialization of the camera, the main loop begins if a session was started. -/
theorem ensures_leaveCameraInit (env : Env) (w : World) :
    Ensures (leaveCameraInit env) (fun _ w' => Resting w' ∨ w.standby = false ∧
      w' = { w with
        trace := w.trace ++ [.setNormalizedAngles 0 0]
        time := w.time + 1
        receivedEndPatCmd := false
        acqImgSaved := false
        place := .main }) w := by
  unfold leaveCameraInit
  show Ensures (if env.stop w.time = true then finish env else _) _
    { w with trace := w.trace ++ [.setNormalizedAngles 0 0], time := w.time + 1 }
  split
  · exact (ensures_finish env _).imp fun _ _ => .inl
  · rw [Ensures, wp_bind, wp_get]
    split
    · rename_i hstandby
      exact .inl ⟨(by cases ·), .inl hstandby⟩
    · refine (ensures_leaveStandby env _).imp fun _ w' h => ?_
      rcases h with hresting | ⟨-, hstandby, rfl⟩
      · exact .inl hresting
      · exact .inr ⟨hstandby, rfl⟩

/-- Where the camera is initialized, the process goes to the standby loop. -/
theorem ensures_cameraReady (hplace : w.place = .cameraInit) (hstandby : w.standby = true) :
    Ensures (do if (← get).cameraInitialized then leaveCameraInit env) (fun _ w' => Resting w')
      w := by
  rw [Ensures, wp_bind, wp_get]
  split
  · refine (ensures_leaveCameraInit env _).imp fun _ w' h => ?_
    rcases h with hresting | ⟨hfalse, -⟩
    · exact hresting
    · cases hfalse.symm.trans hstandby
  · exact ⟨by simp [hplace], .inl hstandby⟩

theorem ensures_retryCameraInit (hplace : w.place = .cameraInit) (hstandby : w.standby = true) :
    Ensures (retryCameraInit env) (fun _ w' => Resting w') w := by
  unfold retryCameraInit
  have hinit : Ensures (cameraInitialize env) (fun _ w' =>
      w'.place = .cameraInit ∧ w'.standby = true) w := ⟨hplace, hstandby⟩
  refine hinit.bind ?_
  rintro _ w₁ ⟨hplace₁, hstandby₁⟩
  rw [Ensures, wp_bind]
  show Ensures (if env.stop w₁.time = true then _ else _) _ { w₁ with time := w₁.time + 1 }
  split
  · exact ⟨(by cases ·), .inr rfl⟩
  · exact ensures_cameraReady hplace₁ hstandby₁

/-- Where the camera is not initialized, only a session in static pointing starts. -/
theorem begins_cameraInitIteration (hplace : w.place = .cameraInit) (hstandby : w.standby = true) :
    Ensures (cameraInitIteration env) (fun _ w' => Resting w' ∨
      w'.place = .main ∧ ∃ flags, Starts w w' .startPatStaticPoint flags) w := by
  have hretry {w₁ : World} (h : Quiet Event.Idle w w₁) :
      Ensures (retryCameraInit env) (fun _ w' => Resting w' ∨
        w'.place = .main ∧ ∃ flags, Starts w w' .startPatStaticPoint flags) w₁ := by
    refine (ensures_retryCameraInit ?_ ?_).imp fun _ _ => .inl
    · exact (congrArg Mode.place h.mode).trans hplace
    · exact (congrArg Mode.standby h.mode).trans hstandby
  have hstatus : Quiet Event.Idle w { w with trace := w.trace ++ [.status statusCameraInit] } :=
    ⟨rfl, rfl, .concat ⟨id, id⟩⟩
  unfold cameraInitIteration
  rw [Ensures, wp_bind, emit, wp_modify]
  refine (ensures_receiveCommand env _).bind ?_
  rintro packet w₁ ⟨h₁, htrace⟩
  have h₁ := hstatus.trans h₁
  cases packet with
  | none => exact hretry h₁
  | some packet =>
    obtain ⟨code, data⟩ := packet
    dsimp only
    split
    · rename_i hcommand
      refine (ensures_leaveCameraInit env _).imp fun _ w' h => ?_
      rcases h with hresting | ⟨-, rfl⟩
      · exact .inl hresting
      · refine .inr ⟨rfl, ⟨false, false, false⟩, rfl, rfl, ?_, ?_, ?_⟩
        · refine ⟨[.status statusCameraInit, .command code] ++ [.setNormalizedAngles 0 0], ?_, ?_⟩
          · show w₁.trace ++ [_] = _
            rw [htrace code data rfl, List.append_assoc, List.append_assoc]
            rfl
          · rw [received_concat rfl]
            exact hcommand
        · have hflags : w₁.flags = w.flags := h₁.flags
          rw [flags_raise, Bool.or_false, Bool.or_false, Bool.or_false]
          exact hflags
        · exact fun _ => ⟨rfl, h₁.staticPointingInitialized⟩
    · have hself : Ensures (cameraInitSelfTest env) (fun _ w' => Quiet Event.Idle w₁ w') w₁ :=
        quiet_cameraInitSelfTest (fun _ => id) w₁
      exact hself.bind fun _ w₂ h₂ => hretry (h₁.trans h₂)
    · exact .inl ⟨(by cases ·), .inr rfl⟩
    · exact hretry h₁

/-- A step of the main loop keeps the modes, or ends the session. -/
theorem ensures_mainStep (env : Env) (w : World) :
    Ensures (mainStep env) (fun _ w' => Resting w' ∨ w'.mode = w.mode) w := by
  unfold mainStep
  refine (advances_mainIteration w).bind fun ended w₁ h₁ => ?_
  cases ended with
  | true => exact (ensures_leaveMain env w₁).imp fun _ _ => .inl
  | false => exact .inr h₁.mode

/-- The static point is commanded, if it was not before. -/
theorem points_runPhase (hphase : w.phase = .staticPoint)
    (hpointed : w.staticPointingInitialized = false) :
    Ensures (runPhase env) (fun _ w' =>
      ∃ events, w'.trace = w.trace ++ events ∧ w'.staticPointCommand ∈ events) w := by
  unfold runPhase
  rw [Ensures, wp_bind, wp_get, wp_bind, emit, wp_modify, hphase]
  show Ensures (staticPointPhase env) _
    { w with trace := w.trace ++ [.phase .staticPoint], phase := .staticPoint }
  unfold staticPointPhase
  rw [Ensures, wp_bind, wp_get, if_pos hpointed]
  by_cases hknown : w.haveCalibKnowledge = true
  · rw [if_pos hknown]
    refine ⟨[.phase .staticPoint, .controlOpenLoop w.staticPoint.1 w.staticPoint.2], ?_, ?_⟩
    · exact List.append_assoc _ _ _
    · show (if w.haveCalibKnowledge = true then Event.controlOpenLoop _ _ else _) ∈ _
      rw [if_pos hknown]
      exact List.mem_cons_of_mem _ (List.mem_singleton_self _)
  · rw [if_neg hknown]
    refine ⟨[.phase .staticPoint, .setNormalizedAngles 0 0], ?_, ?_⟩
    · exact List.append_assoc _ _ _
    · show (if w.haveCalibKnowledge = true then _ else Event.setNormalizedAngles 0 0) ∈ _
      rw [if_neg hknown]
      exact List.mem_cons_of_mem _ (List.mem_singleton_self _)

/-- **The first iteration of a session in static pointing commands the static point**, unless it
ends the session. -/
theorem points_mainStep (env : Env) (hphase : w.phase = .staticPoint)
    (hpointed : w.staticPointingInitialized = false) :
    Ensures (mainStep env) (fun _ w' => Resting w' ∨
      ∃ events, w'.trace = w.trace ++ events ∧ w'.staticPointCommand ∈ events) w := by
  have hidle {α : Type} {x : Proc World α} (h : Runs (Quiet Event.Idle) x) {w₁ : World}
      (h₁ : Quiet Event.Idle w w₁) : Ensures x (fun _ w₂ => Quiet Event.Idle w w₂) w₁ :=
    h.trans h₁
  have hiteration : Ensures (mainIteration env) (fun ended w' => ended = true ∨
      ∃ events, w'.trace = w.trace ++ events ∧ w'.staticPointCommand ∈ events) w := by
    unfold mainIteration
    refine (hidle (quiet_ask _) (refl_of _ w)).bind fun stopped w₁ h₁ => ?_
    cases stopped with
    | true => exact .inl rfl
    | false =>
      refine (hidle (quiet_mainCommand fun _ => id) h₁).bind fun ended w₂ h₂ => ?_
      cases ended with
      | true => exact .inl rfl
      | false =>
        refine (hidle quiet_acquisitionCommand h₂).bind fun ended w₃ h₃ => ?_
        cases ended with
        | true => exact .inl rfl
        | false =>
          refine (hidle (quiet_heartbeat fun _ => id) h₃).bind fun _ w₄ h₄ => ?_
          refine (hidle quiet_updateTxOffsets h₄).bind fun _ w₅ h₅ => ?_
          have hphase₅ := h₅.phase.trans hphase
          have hpointed₅ := h₅.staticPointingInitialized.trans hpointed
          refine (points_runPhase hphase₅ hpointed₅).bind ?_
          rintro _ w₆ ⟨events, htrace, hmem⟩
          obtain ⟨before, hbefore, -⟩ := h₅.adds
          refine .inr ⟨before ++ events, ?_, List.mem_append_right _ hmem⟩
          show w₆.trace = _
          rw [htrace, hbefore, List.append_assoc]
  unfold mainStep
  refine hiteration.bind fun ended w₁ h₁ => ?_
  cases ended with
  | true => exact (ensures_leaveMain env w₁).imp fun _ _ => .inl
  | false =>
    rcases h₁ with hfalse | hpoints
    · cases hfalse
    · exact .inr hpoints

end Loops

/-! ## Runs -/

section States

variable {env : Env} {k n : ℕ}

/-- **A session begins with its command.** -/
theorem begins_step (env : Env) {w : World} (h : Resting w) : Resting (step env w) ∨
    (step env w).place = .main ∧ ∃ command flags, Starts w (step env w) command flags := by
  refine Proc.after_of_ensures (Q := fun w' => Resting w' ∨
    w'.place = .main ∧ ∃ command flags, Starts w w' command flags) ?_
  unfold iteration
  rw [Ensures, wp_bind, wp_get]
  cases hplace : w.place with
  | cameraInit =>
    have hstandby : w.standby = true := h.standby.resolve_right (by simp [hplace])
    refine (begins_cameraInitIteration hplace hstandby).imp fun _ w' hbegins => ?_
    rcases hbegins with hresting | ⟨hmain, flags, hstarts⟩
    · exact .inl hresting
    · exact .inr ⟨hmain, _, flags, hstarts⟩
  | standby =>
    have hstandby : w.standby = true := h.standby.resolve_right (by simp [hplace])
    exact begins_standbyStep hplace hstandby
  | main => exact absurd hplace h.place
  | ended => exact .inl h

/-- A session goes on with the same modes, or ends. -/
theorem mode_step (env : Env) {w : World} (h : w.place = .main) :
    Resting (step env w) ∨ (step env w).mode = w.mode := by
  refine Proc.after_of_ensures (Q := fun w' => Resting w' ∨ w'.mode = w.mode) ?_
  unfold iteration
  rw [Ensures, wp_bind, wp_get, h]
  exact ensures_mainStep env w

theorem resting_boot {w : World} (hplace : w.place = .cameraInit) (hstandby : w.standby = true) :
    Ensures (boot env) (fun _ w' => Resting w') w := by
  have hrest {w₁ : World} (h₁ : w₁.mode = w.mode) : Ensures (do
      calculateTxOffsets env
      cameraInitialize env
      if (← get).cameraInitialized then leaveCameraInit env) (fun _ w' => Resting w') w₁ := by
    have hoffsets : Runs (Quiet Event.Idle) (calculateTxOffsets env) := quiet_calculateTxOffsets
    refine (hoffsets w₁).bind fun _ w₂ h₂ => ?_
    have h₂ := h₂.mode.trans h₁
    have hinit : Ensures (cameraInitialize env) (fun _ w' => w'.mode = w.mode) w₂ := h₂
    refine hinit.bind fun _ w₃ h₃ => ?_
    have hplace₃ : w₃.place = .cameraInit := (congrArg Mode.place h₃).trans hplace
    have hstandby₃ : w₃.standby = true := (congrArg Mode.standby h₃).trans hstandby
    exact ensures_cameraReady hplace₃ hstandby₃
  unfold boot
  cases env.offsetParams with
  | none => exact hrest rfl
  | some params => exact hrest rfl

theorem resting_zero (env : Env) : Resting (state env 0) :=
  Proc.after_of_ensures (resting_boot rfl rfl)

/-- A state is in the main loop, or between sessions. -/
theorem main_or_resting (env : Env) (n : ℕ) :
    (state env n).place = .main ∨ Resting (state env n) := by
  induction n with
  | zero => exact .inr (resting_zero env)
  | succ n ih =>
    rcases ih with hmain | hresting
    · rcases mode_step env hmain with hresting | hmode
      · exact .inr hresting
      · exact .inl ((congrArg Mode.place hmode).trans hmain)
    · exact (begins_step env hresting).symm.imp And.left id

theorem begins_of_starts (h : StartsSession env k) :
    ∃ command flags, Starts (state env k) (state env (k + 1)) command flags := by
  have hresting := (main_or_resting env k).resolve_left h.1
  rcases begins_step env hresting with hresting' | ⟨-, hbegins⟩
  · exact absurd h.2 hresting'.place
  · exact hbegins

theorem events_eq {added : List Event}
    (h : (state env (n + 1)).trace = (state env n).trace ++ added) : events env n = added := by
  unfold events
  rw [h, List.drop_left]

/-- A session keeps the flags that it begins with. -/
theorem flags_of_inSession (h : InSession env k n) :
    (state env n).flags = (state env (k + 1)).flags := by
  obtain ⟨-, hlt, hmain⟩ := h
  induction n, hlt using Nat.le_induction with
  | base => rfl
  | succ n hle ih =>
    have hn := hmain n hle (Nat.le_succ n)
    have hflags := ih fun m hm hmn => hmain m hm (hmn.trans (Nat.le_succ n))
    rcases mode_step env hn with hresting | hmode
    · exact absurd (hmain (n + 1) (hle.trans (Nat.le_succ n)) le_rfl) hresting.place
    · exact (congrArg Mode.flags hmode).trans hflags

/-- Flags that are prescribed add nothing. -/
theorem raise_of_within {w : World} {flags : Flags} (h : w.flags.Within flags) :
    (w.raise flags).flags = flags := by
  obtain ⟨hopen, hfeedback, haligned⟩ := h
  have hor {a b : Bool} (hab : a = true → b = true) : (a || b) = b := by
    cases a with
    | false => rfl
    | true => exact (hab rfl).symm
  rw [flags_raise, hor hopen, hor hfeedback, hor haligned]

/-- **A session behaves as its command prescribes**, if nothing is left over where it starts. -/
theorem own_of_clean (h : InSession env k n) (hclean : Clean env k) : Own env k n := by
  obtain ⟨command, flags, hbegins⟩ := begins_of_starts h.1
  obtain ⟨added, htrace, hreceived⟩ := hbegins.received
  rw [← events_eq htrace] at hreceived
  obtain ⟨hwithin, hstatic⟩ := hclean command hreceived
  refine ⟨command, hreceived, ?_, ?_⟩
  · rw [flags_of_inSession h, hbegins.flags, raise_of_within (hwithin flags hbegins.prescribes)]
    exact hbegins.prescribes
  · intro hcommand hlt
    obtain ⟨hphase, hpointed⟩ := hbegins.static hcommand
    have hpoints := points_mainStep env hphase (hpointed.trans (hstatic hcommand))
    have hmain := h.2.2 (k + 1) (Nat.lt_succ_self k) hlt.le
    have hstep : Resting (state env (k + 2)) ∨ ∃ added,
        (state env (k + 2)).trace = (state env (k + 1)).trace ++ added ∧
          (state env (k + 2)).staticPointCommand ∈ added := by
      refine Proc.after_of_ensures (Q := fun w' => Resting w' ∨ ∃ added,
        w'.trace = (state env (k + 1)).trace ++ added ∧ w'.staticPointCommand ∈ added) ?_
      unfold iteration
      rw [Ensures, wp_bind, wp_get, hmain]
      exact hpoints
    rcases hstep with hresting | ⟨added, htrace, hmem⟩
    · exact absurd (h.2.2 (k + 2) (Nat.lt_add_of_pos_right Nat.two_pos) hlt) hresting.place
    · rw [events_eq htrace]
      exact hmem

/-- **Sessions do not leak into each other**, in a run where nothing is left over where a session
starts. -/
theorem isolated_of_clean (env : Env) (h : ∀ k, StartsSession env k → Clean env k) :
    Isolated env :=
  fun _ _ hsession => own_of_clean hsession (h _ hsession.1)

end States

/-! ## A session in open loop -/

section OpenLoop

variable {env : Env} {k n : ℕ}

/-- The process stays at its end. -/
theorem ended_of_le (h : (state env k).place = .ended) (hle : k ≤ n) :
    (state env n).place = .ended := by
  induction n, hle using Nat.le_induction with
  | base => exact h
  | succ n hle ih =>
    have hstep : Ensures (iteration env) (fun _ w' => w'.place = .ended) (state env n) := by
      unfold iteration
      rw [Ensures, wp_bind, wp_get, ih]
      exact ih
    exact Proc.after_of_ensures hstep

/-- A process that ends behind its first session has no other one. -/
theorem isolated_of_ended (hzero : (state env 0).flags = ⟨false, false, false⟩)
    (hpointed : (state env 0).staticPointingInitialized = false)
    (hmain : (state env 1).place = .main) (hended : (state env 2).place = .ended) :
    ∀ k, StartsSession env k → Clean env k := by
  rintro k ⟨hnot, hstart⟩
  match k with
  | 0 =>
    intro command _
    refine ⟨fun flags _ => ?_, fun _ => hpointed⟩
    rw [hzero]
    exact ⟨(by cases ·), (by cases ·), (by cases ·)⟩
  | 1 => exact absurd hmain hnot
  | k + 2 =>
    cases (ended_of_le hended (Nat.le_add_left 2 (k + 1))).symm.trans hstart

theorem isolated_openLoop :
    InSession (commanded true [controlPacket 0x01 [0x34, 0x33, 0x36, 0x39, 0x30],
      controlPacket 0x11 []]) 0 1 ∧
    Isolated (commanded true [controlPacket 0x01 [0x34, 0x33, 0x36, 0x39, 0x30],
      controlPacket 0x11 []]) := by
  refine ⟨⟨⟨?_, ?_⟩, Nat.zero_lt_one, fun m hm hm' => ?_⟩,
    isolated_of_clean _ (isolated_of_ended ?_ ?_ ?_ ?_)⟩
  · decide +kernel
  · decide +kernel
  · obtain rfl : m = 1 := Nat.le_antisymm hm' hm
    decide +kernel
  · decide +kernel
  · decide +kernel
  · decide +kernel
  · decide +kernel

theorem not_isolated_of_flags (k : ℕ) (command : Command) (hstart : StartsSession env k)
    (hreceived : received (events env k) = some command)
    (hflags : command.prescribes ≠ some (state env (k + 1)).flags) : ¬ Isolated env := by
  intro hisolated
  have hsession : InSession env k (k + 1) := by
    refine ⟨hstart, Nat.lt_succ_self k, fun m hm hm' => ?_⟩
    obtain rfl : m = k + 1 := Nat.le_antisymm hm' hm
    exact hstart.2
  obtain ⟨command', hreceived', hprescribes, -⟩ := hisolated k (k + 1) hsession
  obtain rfl : command = command' := Option.some.inj (hreceived.symm.trans hreceived')
  exact hflags hprescribes

/-- Behind a session in open loop, the session of `CMD_START_PAT` is in open loop, too. -/
theorem not_isolated_openLoop :
    ¬ Isolated (commanded true [controlPacket 0x01 [0x34, 0x33, 0x36, 0x39, 0x30],
      controlPacket 0x07 [], controlPacket 0x00 [0x34, 0x33, 0x36, 0x39, 0x30]]) := by
  refine not_isolated_of_flags 2 .startPat ⟨?_, ?_⟩ ?_ ?_
  · decide +kernel
  · decide +kernel
  · decide +kernel
  · decide +kernel

end OpenLoop

end ClickA.Pat
