import ClickA.Pat.Polls

/-!
# Updates of the offsets

The loop of a session updates the offsets by the commands that it takes. The search for the beacon
only looks for the end of the session: an update that it takes is lost.

## Main definitions

* `World.nextUpdate`: the update that the next poll takes
* `Poll.Updates`: the update that the poll takes is made
* `Poll.Drops`: the search takes an update that is still to be made

## Main results

* `polls_numbers`: all polls of a session are observed
* `updated_iff`: **the updates are made if and only if the search drops none**
-/

namespace ClickA.Pat

open Python (Bytes Ensures Runs unobserved ensures_observed erases_unobserved runs_bind runs_ite
  runs_pure)

/-! ## Updates -/

/-- The components of the offsets. -/
inductive Axis
  | x
  | y
deriving DecidableEq

/-- A component of the offsets. -/
def TxOffsets.component (offsets : TxOffsets) : Axis → Float32
  | .x => offsets.x
  | .y => offsets.y

/-- The update of a component that a packet commands, and its value. -/
def update (code : UInt16) (data : Bytes) : Option (Axis × Float32) :=
  match Command.ofCode code with
  | some .updateTxOffsetX => some (.x, Float32.ofInt (atoi data))
  | some .updateTxOffsetY => some (.y, Float32.ofInt (atoi data))
  | _ => none

/-- The update that the next poll takes. -/
def World.nextUpdate (env : Env) (w : World) : Option (Axis × Float32) :=
  (w.nextPacket env).bind fun packet => update packet.1 packet.2

/-- The update that the poll takes is made. -/
def Poll.Updates (env : Env) (poll : Poll) : Prop :=
  ∀ axis value, poll.before.nextUpdate env = some (axis, value) →
    poll.after.offsets.component axis = value

/-- The search takes an update, and the component has another value. -/
def Poll.Drops (env : Env) (poll : Poll) : Prop :=
  poll.searching = true ∧ ∃ axis value, poll.before.nextUpdate env = some (axis, value) ∧
    poll.before.offsets.component axis ≠ value

section Updates

variable {env : Env} {w : World} {n : ℕ}

/-- The loop of the session makes the update that it takes. -/
theorem updates_mainCommand (env : Env) (w : World) :
    Ensures (mainCommand env) (fun _ w' => Poll.Updates env ⟨false, w, w'⟩) w := by
  unfold mainCommand
  refine (ensures_nextPacket env w).bind ?_
  rintro packet w₁ ⟨hpacket, -, -⟩
  suffices h : Ensures _ (fun _ w' => ∀ axis value,
      (packet.bind fun packet => update packet.1 packet.2) = some (axis, value) →
        w'.offsets.component axis = value) w₁ from
    h.imp fun _ _ h axis value hnext => h axis value (hpacket ▸ hnext)
  cases packet with
  | none => exact fun axis value h => by cases h
  | some packet =>
    obtain ⟨code, data⟩ := packet
    dsimp only [Option.bind_some]
    unfold update
    cases Command.ofCode code with
    | none => exact fun axis value h => by cases h
    | some command =>
      cases command with
      | updateTxOffsetX =>
        rintro axis value ⟨⟩
        rfl
      | updateTxOffsetY =>
        rintro axis value ⟨⟩
        rfl
      | _ => exact fun axis value h => by cases h

/-- The search leaves the offsets alone, whatever it takes. -/
theorem offsets_receivedEnd (env : Env) (w : World) :
    Ensures (receivedEnd env) (fun _ w' => w'.offsets = w.offsets) w := by
  unfold receivedEnd
  refine (ensures_nextPacket env w).bind ?_
  rintro packet w₁ ⟨-, -, hoffsets⟩
  cases packet with
  | none => exact hoffsets
  | some packet =>
    dsimp only
    split
    · exact hoffsets
    · exact hoffsets
    · exact hoffsets

/-- A poll makes the update that it takes if and only if it does not drop it. -/
def Poll.Exact (env : Env) (poll : Poll) : Prop := poll.Updates env ↔ ¬ poll.Drops env

theorem exact_mainCommand (env : Env) (w : World) :
    Ensures (mainCommand env) (fun _ w' => Poll.Exact env ⟨false, w, w'⟩) w :=
  (updates_mainCommand env w).imp fun _ _ h => iff_of_true h fun hdrops => by cases hdrops.1

theorem exact_receivedEnd (env : Env) (w : World) :
    Ensures (receivedEnd env) (fun _ w' => Poll.Exact env ⟨true, w, w'⟩) w := by
  refine (offsets_receivedEnd env w).imp fun _ w' hoffsets => ?_
  unfold Poll.Exact Poll.Updates Poll.Drops
  rw [hoffsets]
  constructor
  · rintro h ⟨-, axis, value, hnext, hother⟩
    exact hother (h axis value hnext)
  · intro h axis value hnext
    by_contra hother
    exact h ⟨rfl, axis, value, hnext, hother⟩

/-- **All polls of a session are observed**, in their order. -/
theorem polls_numbers (h : (state env n).place = .main) :
    (polls env n).map (fun poll => poll.before.polls) =
        List.range' (state env n).polls (polls env n).length ∧
      (state env (n + 1)).polls = (state env n).polls + (polls env n).length := by
  obtain ⟨hnumbers, hcount, -⟩ := polls_step (exact_mainCommand env) (exact_receivedEnd env) h
  exact ⟨hnumbers, hcount⟩

theorem exact_of_mem {poll : Poll} (h : poll ∈ polls env n) : poll.Exact env := by
  by_cases hmain : (state env n).place = .main
  · exact (polls_step (exact_mainCommand env) (exact_receivedEnd env) hmain).2.2 poll h
  · unfold polls at h
    rw [if_neg hmain] at h
    exact absurd h List.not_mem_nil

/-- **The updates that a process takes in its sessions are made if and only if the search drops
none.** -/
theorem updated_iff (env : Env) : (∀ n, ∀ poll ∈ polls env n, poll.Updates env) ↔
    ∀ n, ∀ poll ∈ polls env n, ¬ poll.Drops env :=
  forall_congr' fun _ => forall₂_congr fun _ h => exact_of_mem h

end Updates

/-! ## An update in a search -/

/-- A process that does not find the beacon, and gets updates of an offset while it searches. -/
def lostUpdate : Env := { commanded true [] with
  message := fun n => if n = 0 then some (controlPacket 0x09 [])
    else if n = 1 then some (controlPacket 0x00 [0x36, 0x35, 0x35, 0x33, 0x35])
    else if n = 2 then none
    else some (controlPacket 0x05 [0x35])
  exposureRange := fun _ => true
  frame := fun _ => some spotFrame }

section LostUpdate

variable {w : World} {s : World × List Poll}

theorem nextUpdate_lostUpdate (h : 2 < w.polls) :
    w.nextUpdate lostUpdate = some (.x, Float32.ofInt 5) := by
  have hmessage : lostUpdate.message w.polls = some (controlPacket 0x05 [0x35]) := by
    show (if _ then _ else if _ then _ else if _ then _ else _) = _
    rw [if_neg (by omega), if_neg (by omega), if_neg (by omega)]
  have hpacket : receivePacketPatControl (fun _ => 0) (controlPacket 0x05 [0x35]) =
      (0x05, payload [0x35]) := by decide +kernel
  have hvalue : atoi (payload [0x35]) = 5 := by decide
  have hgarbage : lostUpdate.garbage w.polls = fun _ => 0 := rfl
  unfold World.nextUpdate World.nextPacket
  rw [hmessage, hgarbage, Option.map_some, Option.bind_some, hpacket]
  exact congrArg (fun value => some (Axis.x, Float32.ofInt value)) hvalue

set_option maxRecDepth 10000 in
theorem course_lostUpdate : (state lostUpdate 2).course.Goes ∧
    (state lostUpdate 2).phase = .acquisition ∧ (state lostUpdate 2).polls = 2 ∧
    (state lostUpdate 2).offsets.x ≠ Float32.ofInt 5 := by
  refine ⟨?_, by decide +kernel, by decide +kernel, ?_⟩
  · constructor <;> decide +kernel
  · have hx : (state lostUpdate 2).offsets.x.toBits = (-20 : Float32).toBits := by decide +kernel
    have hother : (-20 : Float32).toBits ≠ (Float32.ofInt 5).toBits := by decide +kernel
    intro h
    exact hother (hx.symm.trans (congrArg Float32.toBits h))

/-- A poll that was observed stays, whatever the statement does behind it. -/
theorem dropped_of_polled {α : Type} {x : Proc (World × List Poll) α}
    (hx : Runs (Polled fun _ => True) x) (h : ∃ poll ∈ s.2, poll.Drops lostUpdate) :
    Ensures x (fun _ s' => ∃ poll ∈ s'.2, poll.Drops lostUpdate) s := by
  obtain ⟨poll, hmem, hdrops⟩ := h
  exact (hx s).imp fun _ s' hpolled => ⟨poll, hpolled.mem hmem, hdrops⟩

theorem polled_true (env : Env) (w : World) : Ensures (receivedEnd env) (fun _ _ => True) w :=
  (polls_receivedEnd env w).imp fun _ _ _ => trivial

/-- The next poll gets an update that is still to be made. -/
structure AwaitsUpdate (s : World × List Poll) : Prop where
  polls : 2 < s.1.polls
  offset : s.1.offsets.x ≠ Float32.ofInt 5

theorem awaitsUpdate_unobserved {α : Type} {x : Proc World α} {Q : α → Prop}
    (hx : ∀ w, Ensures x (fun a w' => Q a ∧ w'.polls = w.polls ∧ w'.offsets = w.offsets) w)
    (h : AwaitsUpdate s) : Ensures (unobserved x) (fun a s' => Q a ∧ AwaitsUpdate s') s := by
  refine ((erases_unobserved x).ensures (hx s.1)).imp ?_
  rintro a s' ⟨ha, hpolls, hoffsets⟩
  refine ⟨ha, ?_, ?_⟩
  · rw [hpolls]
    exact h.polls
  · rw [hoffsets]
    exact h.offset

/-- The first poll of the search drops its update. -/
theorem drops_search (h : AwaitsUpdate s) (maxExposure exposureUp exposureDown : ℤ) :
    Ensures (Observed.search lostUpdate maxExposure true true exposureUp exposureDown)
      (fun _ s' => ∃ poll ∈ s'.2, poll.Drops lostUpdate) s := by
  have hreceived : Runs (Polled fun _ => True) (Observed.receivedEnd lostUpdate) :=
    polled_receivedEnd (polled_true lostUpdate)
  have hloop (maxExposure : ℤ) (searchingUp searchingDown : Bool) (exposureUp exposureDown : ℤ) :
      Runs (Polled fun _ => True)
        (Observed.search lostUpdate maxExposure searchingUp searchingDown exposureUp
            exposureDown) :=
    polled_search (polled_true lostUpdate) _ _ _ _ _
  rw [Observed.search, if_pos (Bool.or_true true)]
  refine (ensures_observed (polled_true lostUpdate s.1)).bind fun ended s₁ h₁ => ?_
  have hdrops : ∃ poll ∈ s₁.2, poll.Drops lostUpdate := by
    refine ⟨⟨true, s.1, s₁.1⟩, ?_, rfl, .x, _, nextUpdate_lostUpdate h.polls, h.offset⟩
    rw [h₁.2]
    exact List.mem_append_right _ (List.mem_singleton_self _)
  refine dropped_of_polled (runs_ite (runs_pure _) ?_) hdrops
  refine runs_bind (polled_tryExposure _) fun tuned => runs_ite (runs_pure _) ?_
  refine runs_bind hreceived fun ended => runs_ite (runs_pure _) ?_
  refine runs_bind (polled_tryExposure _) fun tuned => runs_ite (runs_pure _) ?_
  exact hloop _ _ _ _ _

/-- The beacon is not found at once, and the search begins. -/
theorem drops_runPhase (hphase : s.1.phase = .acquisition) (h : AwaitsUpdate s) :
    Ensures (Observed.runPhase lostUpdate)
      (fun _ s' => ∃ poll ∈ s'.2, poll.Drops lostUpdate) s := by
  have hget : Ensures (unobserved get : Proc (World × List Poll) World)
      (fun w s' => w.phase = .acquisition ∧ AwaitsUpdate s') s := ⟨hphase, h⟩
  unfold Observed.runPhase
  refine hget.bind fun w s₁ h₁ => ?_
  have hemit (e : Event) (s : World × List Poll) (h : AwaitsUpdate s) :
      Ensures (unobserved (emit e)) (fun _ s' => True ∧ AwaitsUpdate s') s :=
    awaitsUpdate_unobserved (Q := fun _ => True) (fun _ => ⟨trivial, rfl, rfl⟩) h
  have hlaser (s : World × List Poll) (h : AwaitsUpdate s) :
      Ensures (unobserved (laser lostUpdate)) (fun lit s' => lit = true ∧ AwaitsUpdate s') s :=
    awaitsUpdate_unobserved (fun _ => ⟨rfl, rfl, rfl⟩) h
  have htune (s : World × List Poll) (h : AwaitsUpdate s) :
      Ensures (unobserved (tune lostUpdate)) (fun tuned s' => tuned = false ∧ AwaitsUpdate s') s :=
    awaitsUpdate_unobserved (fun _ => ⟨rfl, rfl, rfl⟩) h
  have hphase₁ := h₁.1
  refine (hemit _ s₁ h₁.2).bind fun _ s₂ h₂ => ?_
  rw [hphase₁]
  refine (hlaser s₂ h₂.2).bind ?_
  rintro _ s₃ ⟨rfl, h₃⟩
  have hacquisition : Ensures (Observed.runAcquisition lostUpdate)
      (fun _ s' => ∃ poll ∈ s'.2, poll.Drops lostUpdate) s₃ := by
    have hget : Ensures (unobserved get : Proc (World × List Poll) World)
      (fun _ s' => AwaitsUpdate s') s₃ := h₃
    refine hget.bind fun w s₄ h₄ => (hemit _ s₄ h₄).bind fun _ s₅ h₅ => ?_
    refine (htune s₅ h₅.2).bind ?_
    rintro _ s₆ ⟨rfl, h₆⟩
    exact drops_search h₆ _ _ _
  refine hacquisition.bind fun found s₄ h₄ => dropped_of_polled ?_ h₄
  exact runs_ite (polled_unobserved samePolls_acquired) (polled_unobserved samePolls_notAcquired)

theorem drops_mainStep (hgoes : w.course.Goes) (hphase : w.phase = .acquisition)
    (hpolls : w.polls = 2) (hoffset : w.offsets.x ≠ Float32.ofInt 5) :
    Ensures (Observed.mainStep lostUpdate)
      (fun _ s' => ∃ poll ∈ s'.2, poll.Drops lostUpdate) (w, []) := by
  have hnone : lostUpdate.message w.polls = none := by
    rw [hpolls]
    rfl
  have happroach : Ensures (approach lostUpdate) (fun ended w' => ended = false ∧
      w'.phase = .acquisition ∧ 2 < w'.polls ∧ w'.offsets.x ≠ Float32.ofInt 5) w := by
    refine ((goesOn_approach (fun _ => rfl) rfl hnone hgoes).and (quiet_approach w)).imp ?_
    rintro ended w' ⟨⟨hended, hgoesOn, hpolled⟩, hquiet⟩
    have hoffsets : w'.offsets = w.offsets := congrArg Course.offsets hgoesOn.same
    refine ⟨hended, hquiet.phase.trans hphase, hpolls ▸ hpolled, ?_⟩
    rw [hoffsets]
    exact hoffset
  have hiteration : Ensures (Observed.mainIteration lostUpdate)
      (fun _ s' => ∃ poll ∈ s'.2, poll.Drops lostUpdate) (w, []) := by
    refine ((erases_approach lostUpdate).ensures happroach).bind ?_
    rintro _ s₁ ⟨rfl, hphase₁, hpolls₁, hoffset₁⟩
    refine (drops_runPhase hphase₁ ⟨hpolls₁, hoffset₁⟩).bind fun _ s₂ h₂ => ?_
    exact dropped_of_polled
      (runs_bind (polled_unobserved samePolls_get) fun w => runs_pure (!w.operational)) h₂
  refine hiteration.bind fun ended s₁ h₁ => dropped_of_polled ?_ h₁
  exact runs_ite (polled_unobserved samePolls_leaveMain) (runs_pure _)

theorem drops_polls {n : ℕ} (hgoes : (state lostUpdate n).course.Goes)
    (hphase : (state lostUpdate n).phase = .acquisition) (hpolls : (state lostUpdate n).polls = 2)
    (hoffset : (state lostUpdate n).offsets.x ≠ Float32.ofInt 5) :
    ∃ poll ∈ polls lostUpdate n, poll.Drops lostUpdate := by
  have hmain : (state lostUpdate n).place = .main := hgoes.place
  have hdrops := Proc.ensures_iff.mp (drops_mainStep hgoes hphase hpolls hoffset)
  unfold polls
  rw [if_pos hmain]
  exact hdrops

/-- The search for the beacon takes an update of an offset, which is not made. -/
theorem not_updated_lostUpdate :
    ¬ ∀ n, ∀ poll ∈ polls lostUpdate n, poll.Updates lostUpdate := by
  intro hupdated
  obtain ⟨hgoes, hphase, hpolls, hoffset⟩ := course_lostUpdate
  obtain ⟨poll, hmem, hdrops⟩ := drops_polls hgoes hphase hpolls hoffset
  exact (exact_of_mem hmem).mp (hupdated _ poll hmem) hdrops

end LostUpdate

end ClickA.Pat
