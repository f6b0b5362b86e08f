import ClickA.Pat.CameraAccess
import ClickA.Pat.Works

/-!
# The parts of a step

An iteration of the standby loop publishes its status, takes a command and handles it. An iteration
of the main loop comes to its phase, if nothing ends it before. Behind an iteration the process may
leave its loop.

## Main definitions

* `taken`: the state where an iteration of the standby loop has taken its command
* `approach`, `switch`: an iteration of the main loop comes to its phase
* `Departs`: the process may leave the standby loop
* `Settles`: it may leave the main loop behind its phase

## Main results

* `standbyStep_of_command`: a step of the standby loop is that of its command
* `mainStep_of_phase`: a step of the main loop that comes to its phase is that of the phase
* `mainStep_of_ended`: another one ends the session
-/

namespace ClickA.Pat

open Python (Bytes Ensures Runs runs_bind runs_pure runs_ite wp_bind wp_get wp_modify)
open Stream (Extends)

/-! ## Values -/

/-- The value of a statement of the process. -/
def Proc.value {σ α : Type} (x : Proc σ α) (s : σ) : α :=
  match x s with
  | .ok a _ => a
  | .error e _ => nomatch e

/-- A statement of the process always ends, with its value in the state behind it. -/
theorem Proc.ensures_iff {σ α : Type} {Q : α → σ → Prop} {x : Proc σ α} {s : σ} :
    Ensures x Q s ↔ Q (x.value s) (x.after s) := by
  unfold Ensures Python.Wp Proc.value Proc.after
  cases x s with
  | ok a s' => exact Iff.rfl
  | error e _ => exact nomatch e

theorem Proc.value_bind {σ α β : Type} {x : Proc σ α} {f : α → Proc σ β} {s : σ} :
    Proc.value (x >>= f) s = Proc.value (f (x.value s)) (x.after s) := by
  unfold Proc.value Proc.after
  show (match EStateM.bind x f s with | .ok b _ => b | .error e _ => nomatch e) = _
  unfold EStateM.bind
  cases x s with
  | ok a s' => rfl
  | error e _ => exact nomatch e

theorem Proc.after_bind {σ α β : Type} {x : Proc σ α} {f : α → Proc σ β} {s : σ} :
    Proc.after (x >>= f) s = Proc.after (f (x.value s)) (x.after s) := by
  unfold Proc.value Proc.after
  show (match EStateM.bind x f s with | .ok _ s' => s' | .error e _ => nomatch e) = _
  unfold EStateM.bind
  cases x s with
  | ok a s' => rfl
  | error e _ => exact nomatch e

theorem Proc.value_bind_of_ok {σ α β : Type} {x : Proc σ α} {f : α → Proc σ β} {s s' : σ} {a : α}
    (h : x s = .ok a s') : Proc.value (x >>= f) s = Proc.value (f a) s' := by
  unfold Proc.value
  rw [Python.bind_of_ok h]

/-! ## The standby loop -/

/-- The standby loop has published its status, and polls for a command. -/
def World.publish (w : World) : World :=
  { w with time := w.time + 1, trace := w.trace ++ [.status (standbyStatus w)] }

/-- The state where an iteration of the standby loop has taken its command. -/
def taken (env : Env) (w : World) : World := (receiveCommand env).after w.publish

/-- The process may leave the standby loop, for the main loop only if a session was started. -/
structure Departs (w w' : World) : Prop where
  works : Works Event.Mute w w'
  main : w'.place = .main → w'.phase = w.phase ∧ w'.flags = w.flags ∧
    (w.place = .main ∨ w.standby = false ∧ w.operational = true)

section Standby

variable {P : Event → Prop} {env : Env} {w : World}

theorem departs_leaveStandby (env : Env) (w : World) :
    Ensures (leaveStandby env) (fun _ w' => Departs w w') w := by
  have hworks : Ensures (leaveStandby env) (fun _ w' => Works Event.Mute w w') w :=
    works_leaveStandby (fun _ => id) w
  refine (hworks.and (ensures_leaveStandby env w)).imp ?_
  rintro _ w' ⟨hworks, hleave⟩
  refine ⟨hworks, fun hmain => ?_⟩
  rcases hleave with hresting | ⟨hoperational, hstandby, rfl⟩
  · exact absurd hmain hresting.place
  · exact ⟨rfl, rfl, .inr ⟨hstandby, hoperational⟩⟩

/-- Before its command, an iteration of the standby loop only publishes its status. -/
theorem senses_taken (hmute : ∀ e : Event, e.Mute → P e) (hstatus : P (.status (standbyStatus w))) :
    Senses P w (taken env w) := by
  have hpublish : Senses P w w.publish := ⟨rfl, .concat hstatus⟩
  refine Proc.after_of_ensures (Q := fun w' => Senses P w w') ?_
  exact (senses_receiveCommand fun _ => hmute _ trivial).trans hpublish

theorem taken_comms (env : Env) (w : World) : (taken env w).comms = w.comms := by
  refine Proc.after_of_ensures (Q := fun w' : World => w'.comms = w.comms) ?_
  exact (ensures_nextCommand env w.publish).imp fun _ _ h => h.2.2.1

/-- The process was interrupted in the standby loop. -/
def World.interrupt (w : World) : World := { w with time := w.time + 1, operational := false }

/-- **A step of the standby loop is that of its command**, and then the process may leave the
loop. -/
theorem standbyStep_of_command {Q Q' : World → Prop}
    (hleave : ∀ w₁ w₂, Q w₁ → Departs w₁ w₂ → Q' w₂)
    (hstop : env.stop w.time = true → Q w.interrupt)
    (hcommand : env.stop w.time = false → ∀ data,
      Ensures (standbyCommand env (nextCommand env w) data) (fun _ w' => Q w') (taken env w)) :
    Ensures (standbyStep env) (fun _ w' => Q' w') w := by
  unfold standbyStep
  rw [Ensures, wp_bind]
  show Ensures (if env.stop w.time = true then _ else _) _ { w with time := w.time + 1 }
  split
  · rename_i hstopped
    rw [Ensures, wp_bind, wp_modify]
    refine (departs_leaveStandby env w.interrupt).imp fun _ w' hdeparts => ?_
    exact hleave w.interrupt w' (hstop hstopped) hdeparts
  · rename_i hgoes
    have hreceived : Ensures (receiveCommand env) (fun packet w' => w' = taken env w ∧
        packet.bind (fun packet => Command.ofCode packet.1) = nextCommand env w) w.publish := by
      have hnext := Proc.ensures_iff.mp (ensures_nextCommand env w.publish)
      exact Proc.ensures_iff.mpr ⟨rfl, hnext.2.2.2.2.2⟩
    have hgoes := hcommand (Bool.eq_false_iff.mpr hgoes)
    have hiteration : Ensures (standbyIteration env) (fun _ w' => Q w')
        { w with time := w.time + 1 } := by
      unfold standbyIteration
      rw [Ensures, wp_bind, wp_get, wp_bind, emit, wp_modify]
      refine hreceived.bind ?_
      rintro packet _ ⟨rfl, hnext⟩
      rw [← hnext] at hgoes
      cases packet with
      | none => exact hgoes []
      | some packet => exact hgoes packet.2
    refine hiteration.bind fun _ w₁ h₁ => ?_
    rw [Ensures, wp_bind, wp_get]
    split
    · exact (departs_leaveStandby env w₁).imp fun _ w' hdeparts => hleave w₁ w' h₁ hdeparts
    · exact hleave w₁ w₁ h₁ ⟨refl_of _ w₁, fun hmain => ⟨rfl, rfl, .inl hmain⟩⟩

end Standby

/-! ## The main loop -/

/-- An iteration of the main loop up to its phase, and whether it ends the loop there. -/
def approach (env : Env) : Proc World Bool := do
  if ← ask env.stop then
    modify fun w => { w with operational := false }
    return true
  else if ← mainCommand env then return true
  else if ← acquisitionCommand then return true
  else
    heartbeat env
    updateTxOffsets env
    return false

/-- The state where an iteration of the main loop comes to its switch. -/
def switch (env : Env) (w : World) : World := (approach env).after w

/-- The process may leave the main loop behind its phase. -/
structure Settles (w w' : World) : Prop where
  works : Works Event.Mute w w'
  phase : w'.phase = w.phase
  flags : w'.flags = w.flags
  time : w'.time = w.time
  stays : w.operational = true → w' = w

section Main

variable {P : Event → Prop} {env : Env} {w : World}

/-- An iteration of the main loop is its approach, and its phase if nothing has ended it before. -/
theorem mainIteration_eq (env : Env) : mainIteration env = do
    if ← approach env then return true
    else
      runPhase env
      return !(← get).operational := by
  unfold mainIteration approach
  rw [bind_assoc]
  refine bind_congr fun stopped => ?_
  cases stopped with
  | true => rfl
  | false =>
    refine Eq.trans (bind_congr fun ended => ?_) (bind_assoc _ _ _).symm
    cases ended with
    | true => rfl
    | false =>
      refine Eq.trans (bind_congr fun ended => ?_) (bind_assoc _ _ _).symm
      cases ended with
      | true => rfl
      | false =>
        simp only [Bool.false_eq_true, if_false, bind_assoc, pure_bind]

/-- The approach only takes a command, and reports that the process is in its main loop. -/
theorem works_approach (hmute : ∀ e : Event, e.Mute → P e) (hstatus : P (.status statusMain)) :
    Runs (Works P) (approach env) := by
  unfold approach
  refine runs_bind (works_ask _) fun stopped => runs_ite ?_ ?_
  · exact runs_bind (agrees_modify fun _ => ⟨rfl, rfl⟩) fun _ => runs_pure _
  · refine runs_bind (works_mainCommand hmute) fun ended => runs_ite (runs_pure _) ?_
    refine runs_bind works_acquisitionCommand fun ended => runs_ite (runs_pure _) ?_
    refine runs_bind (works_heartbeat hstatus) fun _ => ?_
    exact runs_bind works_updateTxOffsets fun _ => runs_pure _

theorem quiet_approach : Runs (Quiet Event.Idle) (approach env) := by
  unfold approach
  refine runs_bind (quiet_ask _) fun stopped => runs_ite ?_ ?_
  · exact runs_bind (quiet_modify fun _ => ⟨rfl, rfl, rfl⟩) fun _ => runs_pure _
  · refine runs_bind (quiet_mainCommand fun _ => id) fun ended => runs_ite (runs_pure _) ?_
    refine runs_bind quiet_acquisitionCommand fun ended => runs_ite (runs_pure _) ?_
    refine runs_bind (quiet_heartbeat fun _ => id) fun _ => ?_
    exact runs_bind quiet_updateTxOffsets fun _ => runs_pure _

/-- The approach ends with what it says, where it switches over the phase. -/
theorem ensures_approach (hmute : ∀ e : Event, e.Mute → P e) (hstatus : P (.status statusMain)) :
    Ensures (approach env) (fun ended w' => ended = (approach env).value w ∧ w' = switch env w ∧
      Works P w w') w :=
  Proc.ensures_iff.mpr ⟨rfl, rfl, Proc.ensures_iff.mp (works_approach hmute hstatus w)⟩

/-- What ends an iteration before its phase ends the session. -/
theorem mainStep_of_ended (h : (approach env).value w = true)
    (hmute : ∀ e : Event, e.Mute → P e) (hstatus : P (.status statusMain)) :
    Ensures (mainStep env) (fun _ w' => Works P w w' ∧ Resting w') w := by
  unfold mainStep
  rw [mainIteration_eq, bind_assoc]
  refine (ensures_approach hmute hstatus).bind ?_
  rintro _ w₁ ⟨rfl, -, h₁⟩
  rw [h]
  have hleave : Ensures (leaveMain env) (fun _ w' => Works P w₁ w') w₁ := works_leaveMain hmute w₁
  refine (hleave.and (ensures_leaveMain env w₁)).imp ?_
  rintro _ w' ⟨hworks, hresting⟩
  exact ⟨trans_of (Works P) h₁ hworks, hresting⟩

/-- Where the process has to end, it leaves the main loop at once. -/
theorem settles_leaveMain (h : w.operational = false) :
    Ensures (leaveMain env) (fun _ w' => Settles w w') w := by
  have hworks : Ensures (leaveMain env) (fun _ w' => Works Event.Mute w w') w :=
    works_leaveMain (fun _ => id) w
  have hfinish : Ensures (leaveMain env) (fun _ w' =>
      w'.phase = w.phase ∧ w'.flags = w.flags ∧ w'.time = w.time) w := by
    unfold leaveMain
    show Ensures (if w.operational = true then _ else finish env) _ { w with standby := true }
    rw [if_neg (Bool.eq_false_iff.mp h)]
    exact ⟨rfl, rfl, rfl⟩
  refine (hworks.and hfinish).imp fun _ w' ⟨hworks, hphase, hflags, htime⟩ => ?_
  refine ⟨hworks, hphase, hflags, htime, fun hoperational => ?_⟩
  cases h.symm.trans hoperational

/-- **A step that comes to its phase is that of the phase**, and then the process may leave the
loop. -/
theorem mainStep_of_phase {Q Q' : World → Prop} (hsettle : ∀ w₁ w₂, Q w₁ → Settles w₁ w₂ → Q' w₂)
    (h : (approach env).value w = false)
    (hphase : Ensures (runPhase env) (fun _ w' => Q w') (switch env w)) :
    Ensures (mainStep env) (fun _ w' => Q' w') w := by
  unfold mainStep
  rw [mainIteration_eq, bind_assoc]
  refine (ensures_approach (P := fun _ => True) (fun _ _ => trivial) trivial).bind ?_
  rintro _ _ ⟨rfl, rfl, -⟩
  rw [h]
  show Ensures ((do
      runPhase env
      return !(← get).operational) >>= fun ended => if ended = true then leaveMain env else pure ())
    _ (switch env w)
  rw [bind_assoc]
  refine hphase.bind fun _ w₁ h₁ => ?_
  show Ensures (if (!w₁.operational) = true then leaveMain env else pure ()) _ w₁
  split
  · rename_i hended
    have hoperational : w₁.operational = false := by simpa using hended
    exact (settles_leaveMain hoperational).imp fun _ w' hsettles => hsettle w₁ w' h₁ hsettles
  · exact hsettle w₁ w₁ h₁ ⟨refl_of _ w₁, rfl, rfl, rfl, fun _ => rfl⟩

end Main

/-! ## A session that goes on -/

/-- What decides whether a session goes on, and how it points. -/
structure Course where
  place : Place
  operational : Bool
  receivedEndPatCmd : Bool
  receivedEndProcessCmd : Bool
  openLoop : Bool
  offsets : TxOffsets

def World.course (w : World) : Course :=
  ⟨w.place, w.operational, w.receivedEndPatCmd, w.receivedEndProcessCmd, w.openLoop, w.offsets⟩

/-- Nothing is going to end the session. -/
structure Course.Goes (course : Course) : Prop where
  place : course.place = .main
  operational : course.operational = true
  pat : course.receivedEndPatCmd = false
  process : course.receivedEndProcessCmd = false

/-- Time goes on, and the session with it. -/
structure GoesOn (w w' : World) : Prop where
  time : w.time ≤ w'.time
  polls : w.polls ≤ w'.polls
  same : w'.course = w.course

instance : Std.Refl GoesOn := ⟨fun _ => ⟨le_rfl, le_rfl, rfl⟩⟩

instance : IsTrans World GoesOn :=
  ⟨fun _ _ _ h h' => ⟨h.time.trans h'.time, h.polls.trans h'.polls, h'.same.trans h.same⟩⟩

section GoesOn

variable {env : Env} {w : World}

theorem goesOn_modify {f : World → World} (h : ∀ w, (f w).time = w.time ∧ (f w).polls = w.polls ∧
    (f w).course = w.course) : Runs GoesOn (modify f : Proc World Unit) := by
  intro w
  obtain ⟨htime, hpolls, hsame⟩ := h w
  exact ⟨htime.ge, hpolls.ge, hsame⟩

theorem goesOn_ask {α : Type} (f : ℕ → α) : Runs GoesOn (ask f) :=
  fun _ => ⟨Nat.le_succ _, le_rfl, rfl⟩

theorem goesOn_emit (e : Event) : Runs GoesOn (emit e) := goesOn_modify fun _ => ⟨rfl, rfl, rfl⟩

theorem goesOn_get : Runs GoesOn (get : Proc World World) := fun w => refl_of GoesOn w

theorem goesOn_heartbeat : Runs GoesOn (heartbeat env) := by
  unfold heartbeat
  refine runs_bind (goesOn_ask _) fun now => runs_bind goesOn_get fun w => ?_
  refine runs_ite ?_ (runs_pure _)
  refine runs_bind (goesOn_emit _) fun _ => runs_bind (goesOn_ask _) fun now => ?_
  exact goesOn_modify fun _ => ⟨rfl, rfl, rfl⟩

/-- The offsets are not calculated again where the temperature is not read. -/
theorem goesOn_updateTxOffsets (htemperature : ∀ n, env.temperature n = none) :
    Runs GoesOn (updateTxOffsets env) := by
  have hoffsets : Runs GoesOn (calculateTxOffsets env) := by
    unfold calculateTxOffsets
    intro w
    rw [Ensures, wp_bind, wp_ask, htemperature]
    exact ⟨Nat.le_succ _, le_rfl, rfl⟩
  unfold updateTxOffsets
  refine runs_bind (goesOn_ask _) fun now => runs_bind goesOn_get fun w => ?_
  refine runs_ite ?_ (runs_pure _)
  refine runs_bind hoffsets fun _ => runs_bind (goesOn_ask _) fun now => ?_
  refine runs_bind (goesOn_modify fun _ => ⟨rfl, rfl, rfl⟩) fun _ => ?_
  exact runs_ite (goesOn_modify fun _ => ⟨rfl, rfl, rfl⟩) (runs_pure _)

/-- An iteration comes to its switch where no command arrives and nothing has ended the session. -/
theorem goesOn_approach (htemperature : ∀ n, env.temperature n = none)
    (hstop : env.stop w.time = false) (hnone : env.message w.polls = none) (hgoes : w.course.Goes) :
    Ensures (approach env) (fun ended w' => ended = false ∧ GoesOn w w' ∧
      w.polls < w'.polls) w := by
  have hpat : w.receivedEndPatCmd = false := hgoes.pat
  have hprocess : w.receivedEndProcessCmd = false := hgoes.process
  have htime : GoesOn w { w with time := w.time + 1, polls := w.polls + 1 } :=
    ⟨Nat.le_succ _, Nat.le_succ _, rfl⟩
  have hcommand : Ensures (mainCommand env) (fun ended w' => ended = false ∧
      w' = { w with time := w.time + 1, polls := w.polls + 1 }) { w with time := w.time + 1 } := by
    unfold mainCommand receiveCommand
    rw [Ensures, wp_bind, wp_bind, wp_get, wp_bind, wp_modify]
    simp only [hnone]
    exact ⟨rfl, rfl⟩
  unfold approach
  rw [Ensures, wp_bind]
  show Ensures (if env.stop w.time = true then _ else _) _ { w with time := w.time + 1 }
  rw [if_neg (Bool.eq_false_iff.mp hstop)]
  refine hcommand.bind ?_
  rintro _ _ ⟨rfl, rfl⟩
  rw [if_neg (by simp)]
  have hacquisition : Ensures acquisitionCommand (fun ended w' => ended = false ∧
      w' = { w with time := w.time + 1, polls := w.polls + 1 })
      { w with time := w.time + 1, polls := w.polls + 1 } := by
    unfold acquisitionCommand
    rw [Ensures, wp_bind, wp_get, if_neg (by simp [hpat]), if_neg (by simp [hprocess])]
    exact ⟨rfl, rfl⟩
  refine hacquisition.bind ?_
  rintro _ _ ⟨rfl, rfl⟩
  rw [if_neg (by simp)]
  refine (goesOn_heartbeat _).bind fun _ w₁ h₁ => ?_
  refine (goesOn_updateTxOffsets htemperature w₁).bind fun _ w₂ h₂ => ?_
  have hlast := trans_of GoesOn h₁ h₂
  exact ⟨rfl, trans_of GoesOn htime hlast, hlast.polls⟩

end GoesOn

end ClickA.Pat
