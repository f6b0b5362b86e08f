import ClickA.Tracking.ExposureControl

/-!
# Acquisition

`Tracking::runAcquisition` of `tracking.cpp`: a frame is taken at a guessed exposure, then at larger
and at smaller ones in turns, until one of them shows the beacon and its exposure is tuned. Before
each of them a command may end the search.

## Main definitions

* `Acquisition`: the state, with the exposures at which the beacon was looked for
* `runAcquisition`: the function
* `Searched`: what a search has done
* `Acquired`: what the acquisition has done

## Main results

* `runAcquisition_searches`: it returns, and has looked for the beacon at the exposures from the
  guessed one upwards
-/

namespace ClickA.Tracking

open Calibration Machine

variable {K : Type} [Ring K]

/-- `TRACK_GUESS_EXPOSURE`. -/
def trackGuessExposure : ℤ := 100

/-- `TRACK_ACQUISITION_EXP_INCREMENT`. -/
def trackAcquisitionExpIncrement : ℤ := 300

/-- `TRACK_ACQUISITION_BRIGHTNESS`. -/
def trackAcquisitionBrightness : ℕ := 200

/-- `TRACK_GOOD_PEAKTOMAX_DISTANCE`. -/
def trackGoodPeaktomaxDistance : ℕ := 100

/-- `CMD_END_PAT` and `CMD_END_PROCESS`. -/
def cmdEndPat : UInt16 := 0x07
def cmdEndProcess : UInt16 := 0x11

/-- What the acquisition has of the camera and the beacon, how often it has polled for a command,
which commands have ended it, and at which exposures it has looked for the beacon. -/
structure Acquisition (K : Type) where
  tuned : Tuned K
  polls : ℕ := 0
  receivedEndPatCmd : Bool := false
  receivedEndProcessCmd : Bool := false
  attempts : List ℤ := []

namespace Acquisition

/-- A command has ended it. -/
def Ended (s : Acquisition K) : Prop := s.receivedEndPatCmd ∨ s.receivedEndProcessCmd

end Acquisition

/-- `verifyFrame`. -/
def verifyFrame (frame : Frame K) : Bool :=
  frame.histBrightest > trackAcquisitionBrightness ∧ frame.histBrightest > frame.histPeak ∧
    frame.histBrightest - frame.histPeak > trackGoodPeaktomaxDistance ∧ frame.numGroups > 0

section Code

variable (frames : ℕ → Option (Frame K)) (commands : ℕ → Option UInt16) (maxExposure : ℤ)
  (fuel : ℕ)

/-- A command is received, if there is one. It may end the acquisition. -/
def listen (s : Acquisition K) : Bool × Acquisition K :=
  let s' := { s with polls := s.polls + 1 }
  match commands s.polls with
  | some command =>
    if command = cmdEndPat then (true, { s' with receivedEndPatCmd := true })
    else if command = cmdEndProcess then (true, { s' with receivedEndProcessCmd := true })
    else (false, s')
  | none => (false, s')

/-- An exposure is written and a frame is taken. If it shows the beacon, its exposure is tuned:
`windowAndTune`. -/
def attempt (exposure : ℤ) (s : Acquisition K) : Option (Bool × Acquisition K) :=
  let frame := frames s.tuned.taken
  let tuned : Tuned K := { s.tuned with exposeUs := exposure, taken := s.tuned.taken + 1 }
  let s := { s with tuned, attempts := s.attempts ++ [exposure] }
  match frame with
  | some frame =>
    if verifyFrame frame then
      (autoTuneExposure frames fuel maxExposure tuned).map fun (found, tuned) =>
        (found, { s with tuned })
    else some (false, s)
  | none => some (false, s)

/-- A direction of the search, and the next exposure in it. -/
structure Direction where
  searching : Bool
  exposure : ℤ

/-- A turn in one direction: it returns, or goes on with the next exposure. -/
def turn (inRange : ℤ → Bool) (increment : ℤ) (direction : Direction) (s : Acquisition K) :
    Option (Option Bool × Direction × Acquisition K) :=
  let (ends, s) := listen commands s
  if ends then some (some false, direction, s)
  else if inRange direction.exposure then do
    let (found, s) ← attempt frames maxExposure fuel direction.exposure s
    if found then some (some true, direction, s)
    else do
      let exposure ← asInt (direction.exposure + increment)
      some (none, { direction with exposure }, s)
  else some (none, { direction with searching := false }, s)

/-- The loop, of so many turns at most. -/
def search : ℕ → Direction → Direction → Acquisition K → Option (Bool × Acquisition K)
  | 0, _, _, _ => none
  | turns + 1, up, down, s =>
    if up.searching || down.searching then do
      let (returned, up, s) ← turn frames commands maxExposure fuel (· ≤ maxExposure)
        trackAcquisitionExpIncrement up s
      match returned with
      | some found => some (found, s)
      | none => do
        let (returned, down, s) ← turn frames commands maxExposure fuel (· ≥ trackMinExposure)
          (-trackAcquisitionExpIncrement) down s
        match returned with
        | some found => some (found, s)
        | none => search turns up down s
    else some (false, s)

/-- `runAcquisition`, of a beacon in the window that is set. -/
def runAcquisition (turns : ℕ) (s : Acquisition K) : Option (Bool × Acquisition K) := do
  let (found, s) ← attempt frames maxExposure fuel trackGuessExposure s
  let up : Direction := ⟨true, trackGuessExposure + trackAcquisitionExpIncrement⟩
  let down : Direction := ⟨true, trackGuessExposure - trackAcquisitionExpIncrement⟩
  if found then some (true, s)
  else search frames commands maxExposure fuel turns up down s

end Code

/-! ## An attempt -/

/-- An exposure that the camera may have: at least the minimum, and at most the guessed one or the
limit. -/
def Allowed (maxExposure exposure : ℤ) : Prop :=
  trackMinExposure ≤ exposure ∧ (exposure ≤ trackGuessExposure ∨ exposure ≤ maxExposure)

section Attempt

variable {frames : ℕ → Option (Frame K)} {maxExposure exposure : ℤ} {fuel fuel' : ℕ}
  {t : Tuned K} {s : Acquisition K} {found : Bool}

theorem autoTuneExposure_mono {r : Bool × Tuned K} (hle : fuel ≤ fuel')
    (h : autoTuneExposure frames fuel maxExposure t = some r) :
    autoTuneExposure frames fuel' maxExposure t = some r := by
  unfold autoTuneExposure at h ⊢
  dsimp only at h ⊢
  split at h
  · exact h
  · next frame spot hseen =>
    split at h
    · next hnear => rw [if_pos hnear]; exact h
    · next hnear =>
      rw [if_neg hnear]
      obtain ⟨swept, hswept, h⟩ := Option.map_eq_some_iff.mp h
      refine Option.map_eq_some_iff.mpr ⟨swept, ?_, h⟩
      split at hswept
      · next hbright =>
        rw [if_pos hbright]
        exact sweep_mono hle hswept
      · next hbright =>
        rw [if_neg hbright]
        obtain ⟨first, hfirst, hswept⟩ := Option.bind_eq_some_iff.mp hswept
        exact Option.bind_eq_some_iff.mpr ⟨first, hfirst, sweep_mono hle hswept⟩

theorem tryExposure_exposeUs (desaturating : Bool) :
    (tryExposure frames desaturating exposure t).2.exposeUs = exposure := by
  unfold tryExposure Tuned.spot
  dsimp only
  split
  · rfl
  · rfl

theorem allowed_decreaseExposure {r : Option ℤ × Tuned K} {from_ : ℤ}
    (hfrom : Allowed maxExposure from_) (ht : Allowed maxExposure t.exposeUs)
    (h : decreaseExposure frames fuel from_ t = some r) : Allowed maxExposure r.2.exposeUs := by
  obtain ⟨hlow, hhigh⟩ := hfrom
  have hless {e : ℤ} (he : trackMinExposure ≤ e) : e - e.tdiv trackTuningExpDivider ≤ e := by
    rw [trackMinExposure] at he
    rw [trackTuningExpDivider, Int.tdiv_eq_ediv_of_nonneg (by omega)]
    omega
  refine sweep_keeps (P := fun t => Allowed maxExposure t.exposeUs) (fun e _ => e ≤ from_) ?_
    (hless hlow) ht h
  intro e t he hrange
  obtain ⟨hmin, -⟩ := of_decide_eq_true hrange
  rw [tryExposure_exposeUs]
  refine ⟨⟨hmin, hhigh.imp he.trans he.trans⟩, ?_⟩
  rintro e' ⟨⟩
  exact (hless hmin).trans he

theorem allowed_increaseExposure {r : Option ℤ × Tuned K} {from_ : ℤ}
    (hfrom : trackMinExposure ≤ from_) (ht : Allowed maxExposure t.exposeUs)
    (h : increaseExposure frames fuel maxExposure from_ t = some r) :
    Allowed maxExposure r.2.exposeUs := by
  have hgrown {e e' : ℤ} (he : trackMinExposure ≤ e) (he' : grown e = some e') :
      trackMinExposure ≤ e' := by
    unfold grown at he'
    split at he'
    · obtain rfl := Option.some.inj he'
      exact he.trans (lt_grow he).le
    · cases he'
  obtain ⟨first, hfirst, h⟩ := Option.bind_eq_some_iff.mp h
  refine sweep_keeps (P := fun t => Allowed maxExposure t.exposeUs)
    (fun e _ => trackMinExposure ≤ e) ?_ (hgrown hfrom hfirst) ht h
  intro e t he hrange
  rw [tryExposure_exposeUs]
  exact ⟨⟨he, .inr (of_decide_eq_true hrange)⟩, fun e' he' => hgrown he he'⟩

/-- The exposures of the tuning are allowed. -/
theorem allowed_autoTuneExposure {r : Bool × Tuned K} (ht : Allowed maxExposure t.exposeUs)
    (h : autoTuneExposure frames fuel maxExposure t = some r) :
    Allowed maxExposure r.2.exposeUs := by
  unfold autoTuneExposure at h
  dsimp only at h
  split at h
  · obtain rfl := Option.some.inj h
    exact ht
  · split at h
    · obtain rfl := Option.some.inj h
      exact ht
    · have hspot : Allowed maxExposure (t.spot frames).2.exposeUs := ht
      obtain ⟨swept, hswept, rfl⟩ := Option.map_eq_some_iff.mp h
      split at hswept
      · exact allowed_decreaseExposure hspot hspot hswept
      · exact allowed_increaseExposure hspot.1 hspot hswept

/-- The beacon is the spot of the last frame. -/
def Shown (frames : ℕ → Option (Frame K)) (t : Tuned K) : Prop :=
  ∃ n frame spot, t.taken = n + 1 ∧ frames n = some frame ∧ frame.spot = some spot ∧
    t.beacon = frame.onSensor spot

omit [Ring K] in
/-- The spot that is seen is the one of the frame that is taken. -/
theorem spot_seen {frame : Frame K} {spot : Spot K} (h : (t.spot frames).1 = some (frame, spot)) :
    frames t.taken = some frame ∧ frame.spot = some spot := by
  obtain ⟨frame', hframe, h⟩ := Option.bind_eq_some_iff.mp h
  obtain ⟨spot', hspot, h⟩ := Option.map_eq_some_iff.mp h
  cases h
  exact ⟨hframe, hspot⟩

theorem shown_tryExposure {desaturating : Bool} {t' : Tuned K}
    (h : tryExposure frames desaturating exposure t = (true, t')) : Shown frames t' := by
  unfold tryExposure at h
  dsimp only at h
  split at h
  · next frame spot hseen =>
    obtain ⟨hframe, hspot⟩ := spot_seen hseen
    obtain ⟨-, rfl⟩ := Prod.mk.inj h
    exact ⟨t.taken, frame, spot, rfl, hframe, hspot, rfl⟩
  · cases h

/-- A tuning that succeeds has the spot of its last frame. -/
theorem shown_autoTuneExposure {t' : Tuned K}
    (h : autoTuneExposure frames fuel maxExposure t = some (true, t')) : Shown frames t' := by
  unfold autoTuneExposure at h
  dsimp only at h
  split at h
  · cases h
  · next frame spot hseen =>
    split at h
    · obtain ⟨hframe, hspot⟩ := spot_seen hseen
      cases h
      exact ⟨t.taken, frame, spot, rfl, hframe, hspot, rfl⟩
    · obtain ⟨⟨passed, t₁⟩, hswept, h⟩ := Option.map_eq_some_iff.mp h
      obtain ⟨hsome, rfl⟩ := Prod.mk.inj h
      obtain ⟨e, rfl⟩ := Option.isSome_iff_exists.mp hsome
      split at hswept
      · obtain ⟨s₀, htrial⟩ := sweep_passed hswept
        exact shown_tryExposure htrial
      · obtain ⟨first, -, hswept⟩ := Option.bind_eq_some_iff.mp hswept
        obtain ⟨s₀, htrial⟩ := sweep_passed hswept
        exact shown_tryExposure htrial

/-- What an attempt at an exposure has done. -/
structure Attempted (frames : ℕ → Option (Frame K)) (maxExposure exposure : ℤ)
    (s s' : Acquisition K) (found : Bool) : Prop where
  attempts : s'.attempts = s.attempts ++ [exposure]
  allowed : Allowed maxExposure s'.tuned.exposeUs
  polls : s'.polls = s.polls
  endPat : s'.receivedEndPatCmd = s.receivedEndPatCmd
  endProcess : s'.receivedEndProcessCmd = s.receivedEndProcessCmd
  shown : found = true → Shown frames s'.tuned

/-- An attempt returns, and any more fuel gives the same. -/
theorem exists_attempt (frames : ℕ → Option (Frame K)) (hmax : maxExposure ≤ 1952257861)
    (hallowed : Allowed maxExposure exposure) (s : Acquisition K) :
    ∃ fuel₀ found s', Attempted frames maxExposure exposure s s' found ∧
      ∀ fuel ≥ fuel₀, attempt frames maxExposure fuel exposure s = some (found, s') := by
  let tuned : Tuned K := { s.tuned with exposeUs := exposure, taken := s.tuned.taken + 1 }
  let s₁ : Acquisition K := { s with tuned, attempts := s.attempts ++ [exposure] }
  have hfailed : Attempted frames maxExposure exposure s s₁ false :=
    ⟨rfl, hallowed, rfl, rfl, rfl, Bool.false_ne_true.elim⟩
  unfold attempt
  dsimp only
  split
  · split
    · -- the beacon is seen, and its exposure is tuned
      have hreturns : ∃ fuel, (autoTuneExposure frames fuel maxExposure tuned).isSome := by
        rw [autoTuneExposure_returns_iff hallowed.1]
        rintro ⟨-, hover⟩
        refine not_overflows hmax ?_ _ hover
        rcases hallowed.2 with hguess | hlimit
        · exact hguess.trans (by decide)
        · exact hlimit.trans hmax
      obtain ⟨fuel₀, hsome⟩ := hreturns
      obtain ⟨⟨found, t⟩, htuned⟩ := Option.isSome_iff_exists.mp hsome
      refine ⟨fuel₀, found, { s₁ with tuned := t }, ⟨rfl, ?_, rfl, rfl, rfl, ?_⟩, ?_⟩
      · exact allowed_autoTuneExposure hallowed htuned
      · rintro rfl
        exact shown_autoTuneExposure htuned
      · intro fuel hfuel
        rw [autoTuneExposure_mono hfuel htuned]
        rfl
    · exact ⟨0, false, s₁, hfailed, fun _ _ => rfl⟩
  · exact ⟨0, false, s₁, hfailed, fun _ _ => rfl⟩

end Attempt

/-! ## The search -/

/-- A command that ends the acquisition. -/
def IsEnd (command : Option UInt16) : Prop :=
  command = some cmdEndPat ∨ command = some cmdEndProcess

/-- The exposures of the search upwards, so many of them. -/
def upwards (first : ℤ) (n : ℕ) : List ℤ :=
  (List.range n).map fun k : ℕ => first + trackAcquisitionExpIncrement * (k : ℤ)

/-- What a search has done that began at an exposure upwards. It has looked for the beacon at the
exposures from there on, one after the other, up to the one where it has found it, to the limit, or
to a command that ends it; such a command is the last one that it polls; and the beacon that it has
found is the spot of the last frame. -/
structure Searched (frames : ℕ → Option (Frame K)) (commands : ℕ → Option UInt16)
    (maxExposure first : ℤ) (s s' : Acquisition K) (found : Bool) : Prop where
  attempts : ∃ n : ℕ, s'.attempts = s.attempts ++ upwards first n ∧
    (∀ exposure ∈ upwards first n, exposure ≤ maxExposure) ∧
    (found = false → s'.Ended ∨ maxExposure < first + trackAcquisitionExpIncrement * (n : ℤ))
  allowed : Allowed maxExposure s.tuned.exposeUs → Allowed maxExposure s'.tuned.exposeUs
  ended : s'.Ended → s.Ended ∨ found = false
  heeded : ∀ i, s.polls ≤ i → i < s'.polls → IsEnd (commands i) →
    i + 1 = s'.polls ∧ s'.Ended ∧ found = false
  shown : found = true → Shown frames s'.tuned

section Search

variable {frames : ℕ → Option (Frame K)} {commands : ℕ → Option UInt16} {maxExposure first : ℤ}
  {s s' : Acquisition K} {found : Bool} {fuel : ℕ}

theorem upwards_succ (first : ℤ) (n : ℕ) :
    upwards first (n + 1) = first :: upwards (first + trackAcquisitionExpIncrement) n := by
  unfold upwards
  rw [List.range_succ_eq_map, List.map_cons, List.map_map, Nat.cast_zero, mul_zero, add_zero]
  congr 1
  apply List.map_congr_left
  intro k _
  simp only [Function.comp_apply, Nat.cast_succ, mul_add, mul_one]
  omega

omit [Ring K] in
/-- A poll leaves the camera and the attempts as they are, and ends the acquisition if it receives
such a command. -/
theorem listen_spec (commands : ℕ → Option UInt16) (s : Acquisition K) :
    (listen commands s).2.tuned = s.tuned ∧ (listen commands s).2.attempts = s.attempts ∧
      (listen commands s).2.polls = s.polls + 1 ∧
      ((listen commands s).1 = true ↔ IsEnd (commands s.polls)) ∧
      ((listen commands s).2.Ended ↔ s.Ended ∨ (listen commands s).1 = true) := by
  unfold listen IsEnd
  dsimp only
  split
  · next command hcommand =>
    rw [hcommand, Option.some_inj, Option.some_inj]
    split
    · next h => exact ⟨rfl, rfl, rfl, by simp [h], by simp [Acquisition.Ended]⟩
    · split
      · next h => exact ⟨rfl, rfl, rfl, by simp [h], by simp [Acquisition.Ended]⟩
      · next h₁ h₂ => exact ⟨rfl, rfl, rfl, by simp [h₁, h₂], by simp [Acquisition.Ended]⟩
  · next hcommand =>
    rw [hcommand]
    exact ⟨rfl, rfl, rfl, by simp, by simp [Acquisition.Ended]⟩

/-- The beacon was found. -/
theorem searched_found (hshown : Shown frames s.tuned) :
    Searched frames commands maxExposure first s s true := by
  refine ⟨⟨0, ?_, ?_, ?_⟩, id, .inl, ?_, fun _ => hshown⟩
  · rw [upwards, List.range_zero, List.map_nil, List.append_nil]
  · intro exposure hexposure
    cases hexposure
  · intro h
    cases h
  · intro i hle hlt
    omega

/-- The limit was passed. -/
theorem searched_past (hpast : maxExposure < first) :
    Searched frames commands maxExposure first s s false := by
  refine ⟨⟨0, ?_, ?_, fun _ => .inr ?_⟩, id, .inl, ?_, Bool.false_ne_true.elim⟩
  · rw [upwards, List.range_zero, List.map_nil, List.append_nil]
  · intro exposure hexposure
    cases hexposure
  · rw [Nat.cast_zero, mul_zero, add_zero]
    exact hpast
  · intro i hle hlt
    omega

/-- A command has ended the search. -/
theorem searched_ended (hlisten : (listen commands s).1 = true) :
    Searched frames commands maxExposure first s (listen commands s).2 false := by
  obtain ⟨htuned, hattempts, hpolls, -, hended⟩ := listen_spec commands s
  refine ⟨⟨0, ?_, ?_, fun _ => .inl (hended.mpr (.inr hlisten))⟩, ?_, fun _ => .inr rfl, ?_,
    Bool.false_ne_true.elim⟩
  · rw [hattempts, upwards, List.range_zero, List.map_nil, List.append_nil]
  · intro exposure hexposure
    cases hexposure
  · rw [htuned]
    exact id
  · intro i hle hlt _
    exact ⟨by omega, hended.mpr (.inr hlisten), rfl⟩

/-- A poll that does not end the search, and what the search does behind it. -/
theorem Searched.poll (hlisten : (listen commands s).1 = false)
    (h : Searched frames commands maxExposure first (listen commands s).2 s' found) :
    Searched frames commands maxExposure first s s' found := by
  obtain ⟨htuned, hattempts, hpolls, hend, hended⟩ := listen_spec commands s
  rw [hlisten] at hend hended
  obtain ⟨htried, hallowed, hlast, hheeded, hshown⟩ := h
  rw [hattempts] at htried
  rw [htuned] at hallowed
  refine ⟨htried, hallowed, fun h' => (hlast h').imp (fun h => ?_) id, fun i hle hlt hi => ?_,
    hshown⟩
  · exact (hended.mp h).resolve_right Bool.false_ne_true
  · rcases Nat.eq_or_lt_of_le hle with rfl | hlater
    · exact absurd (hend.mpr hi) Bool.false_ne_true
    · exact hheeded i (by omega) hlt hi

/-- An attempt, and what the search does from the next exposure on. -/
theorem Searched.cons {s₁ : Acquisition K} {here : Bool} (hfirst : first ≤ maxExposure)
    (hattempt : Attempted frames maxExposure first s s₁ here)
    (h : Searched frames commands maxExposure (first + trackAcquisitionExpIncrement) s₁ s' found) :
    Searched frames commands maxExposure first s s' found := by
  obtain ⟨hattempts, hexposure, hpolls, hendPat, hendProcess, -⟩ := hattempt
  obtain ⟨⟨n, htried, hbelow, hcomplete⟩, hallowed, hended, hheeded, hshown⟩ := h
  have hkept : s₁.Ended → s.Ended := by
    rw [Acquisition.Ended, Acquisition.Ended, hendPat, hendProcess]
    exact id
  rw [hpolls] at hheeded
  refine ⟨⟨n + 1, ?_, ?_, ?_⟩, fun _ => hallowed hexposure, fun h => (hended h).imp hkept id,
    hheeded, hshown⟩
  · rw [htried, hattempts, upwards_succ, List.append_assoc, List.singleton_append]
  · rw [upwards_succ]
    exact List.forall_mem_cons.mpr ⟨hfirst, hbelow⟩
  · intro hfound
    refine (hcomplete hfound).imp id fun hlast => ?_
    rw [Nat.cast_succ, mul_add, mul_one]
    omega

/-- A turn out of the range is only a poll. -/
theorem turn_outOfRange (inRange : ℤ → Bool) {increment : ℤ} {direction : Direction}
    (hrange : inRange direction.exposure = false) :
    turn frames commands maxExposure fuel inRange increment direction s =
      some (if (listen commands s).1 then (some false, direction, (listen commands s).2)
        else (none, { direction with searching := false }, (listen commands s).2)) := by
  unfold turn
  cases hlisten : listen commands s with
  | mk ends s₁ =>
    cases ends with
    | true => rfl
    | false =>
      dsimp only
      rw [if_neg Bool.false_ne_true, hrange, if_neg Bool.false_ne_true, if_neg Bool.false_ne_true]

/-- A turn in the range that is not ended tries its exposure, and goes on to the next one if the
beacon is not there. -/
theorem turn_inRange (inRange : ℤ → Bool) {increment : ℤ} (direction : Direction)
    (hlisten : (listen commands s).1 = false) (hrange : inRange direction.exposure = true)
    (hattempt : attempt frames maxExposure fuel direction.exposure (listen commands s).2 =
      some (found, s')) (hnext : asInt (direction.exposure + increment) =
        some (direction.exposure + increment)) :
    turn frames commands maxExposure fuel inRange increment direction s =
      some (if found then (some true, direction, s')
        else (none, { direction with exposure := direction.exposure + increment }, s')) := by
  unfold turn
  cases hs : listen commands s with
  | mk ends s₁ =>
    rw [hs] at hlisten hattempt
    dsimp only at hlisten hattempt ⊢
    rw [hlisten, if_neg Bool.false_ne_true, hrange, if_pos rfl, hattempt]
    cases found with
    | true => rfl
    | false =>
      rw [hnext]
      rfl

/-- A turn that a command ends. -/
theorem turn_ended {inRange : ℤ → Bool} {increment : ℤ} {direction : Direction}
    (hlisten : (listen commands s).1 = true) :
    turn frames commands maxExposure fuel inRange increment direction s =
      some (some false, direction, (listen commands s).2) := by
  unfold turn
  cases hs : listen commands s with
  | mk ends s₁ =>
    rw [hs] at hlisten
    dsimp only at hlisten ⊢
    rw [hlisten, if_pos rfl]

/-- The loop returns with a turn upwards that does. -/
theorem search_returns {up up' down : Direction} {turns : ℕ} (hup : up.searching = true)
    (hturn : turn frames commands maxExposure fuel (· ≤ maxExposure) trackAcquisitionExpIncrement
      up s = some (some found, up', s')) :
    search frames commands maxExposure fuel (turns + 1) up down s = some (found, s') := by
  rw [search, hup, Bool.true_or, if_pos rfl, hturn]
  rfl

/-- Behind a turn upwards that goes on, the one downwards only polls. -/
theorem search_goesOn {up up' down : Direction} {turns : ℕ} (hup : up.searching = true)
    (hdown : down.exposure < trackMinExposure)
    (hturn : turn frames commands maxExposure fuel (· ≤ maxExposure) trackAcquisitionExpIncrement
      up s = some (none, up', s')) :
    search frames commands maxExposure fuel (turns + 1) up down s =
      if (listen commands s').1 then some (false, (listen commands s').2)
      else search frames commands maxExposure fuel turns up' { down with searching := false }
        (listen commands s').2 := by
  have hrange : decide (down.exposure ≥ trackMinExposure) = false :=
    decide_eq_false (not_le.mpr hdown)
  rw [search, hup, Bool.true_or, if_pos rfl, hturn]
  simp only [Option.bind_eq_bind, Option.bind_some]
  rw [turn_outOfRange (· ≥ trackMinExposure) hrange, Option.bind_some]
  cases (listen commands s').1 with
  | true => rfl
  | false => rfl

/-- From an exposure above the limit on, upwards and downwards are only polled. -/
theorem exists_search_past (frames : ℕ → Option (Frame K)) (hpast : maxExposure < first)
    (down : Direction) (hdown : down.exposure < trackMinExposure) : ∃ s',
      Searched frames commands maxExposure first s s' false ∧ ∀ fuel turns,
        search frames commands maxExposure fuel (turns + 2) ⟨true, first⟩ down s =
          some (false, s') := by
  have hup : decide (first ≤ maxExposure) = false := decide_eq_false (not_le.mpr hpast)
  cases hfirst : (listen commands s).1 with
  | true =>
    exact ⟨_, searched_ended hfirst, fun fuel turns => search_returns rfl (turn_ended hfirst)⟩
  | false =>
    have hturn (fuel : ℕ) : turn frames commands maxExposure fuel (· ≤ maxExposure)
        trackAcquisitionExpIncrement ⟨true, first⟩ s =
          some (none, ⟨false, first⟩, (listen commands s).2) := by
      rw [turn_outOfRange (· ≤ maxExposure) hup, hfirst, if_neg Bool.false_ne_true]
    cases hsecond : (listen commands (listen commands s).2).1 with
    | true =>
      refine ⟨_, (searched_ended hsecond).poll hfirst, fun fuel turns => ?_⟩
      rw [search_goesOn rfl hdown (hturn fuel), if_pos hsecond]
    | false =>
      refine ⟨_, ((searched_past hpast).poll hsecond).poll hfirst, fun fuel turns => ?_⟩
      rw [search_goesOn rfl hdown (hturn fuel), hsecond, if_neg Bool.false_ne_true, search,
        Bool.or_self, if_neg Bool.false_ne_true]

/-- **The search ends**: upwards it tries one exposure after the other, and downwards none. -/
theorem exists_search (frames : ℕ → Option (Frame K)) (commands : ℕ → Option UInt16)
    (s : Acquisition K) (hmax : maxExposure ≤ 1952257861) (n : ℕ)
    (hfirst : trackMinExposure ≤ first)
    (hn : maxExposure < first + trackAcquisitionExpIncrement * (n : ℤ)) (down : Direction)
    (hdown : down.exposure < trackMinExposure) : ∃ fuel₀ found s',
      Searched frames commands maxExposure first s s' found ∧ ∀ fuel ≥ fuel₀, ∀ turns,
        search frames commands maxExposure fuel (turns + n + 2) ⟨true, first⟩ down s =
          some (found, s') := by
  induction n generalizing first s down with
  | zero =>
    rw [Nat.cast_zero, mul_zero, add_zero] at hn
    obtain ⟨s', hsearched, hreturns⟩ := exists_search_past frames hn down hdown
    exact ⟨0, false, s', hsearched, fun fuel _ turns => hreturns fuel turns⟩
  | succ n ih =>
    rcases lt_or_ge maxExposure first with hpast | hrange
    · obtain ⟨s', hsearched, hreturns⟩ := exists_search_past frames hpast down hdown
      exact ⟨0, false, s', hsearched, fun fuel _ turns => hreturns fuel (turns + (n + 1))⟩
    cases hlisten : (listen commands s).1 with
    | true =>
      exact ⟨0, false, _, searched_ended hlisten,
        fun fuel _ turns => search_returns rfl (turn_ended hlisten)⟩
    | false =>
      obtain ⟨fuel₀, found, s₁, hattempted, hattempt⟩ :=
        exists_attempt frames hmax ⟨hfirst, .inr hrange⟩ (listen commands s).2
      have hnext : asInt (first + trackAcquisitionExpIncrement) =
          some (first + trackAcquisitionExpIncrement) := by
        rw [trackMinExposure] at hfirst
        rw [trackAcquisitionExpIncrement]
        exact asInt_eq (by omega) (by omega)
      have hturn {fuel : ℕ} (hfuel : fuel ≥ fuel₀) := turn_inRange (· ≤ maxExposure)
        ⟨true, first⟩ hlisten (decide_eq_true hrange) (hattempt fuel hfuel) hnext
      cases found with
      | true =>
        refine ⟨fuel₀, true, s₁, ?_, fun fuel hfuel turns => search_returns rfl (hturn hfuel)⟩
        exact ((searched_found (hattempted.shown rfl)).cons hrange hattempted).poll hlisten
      | false =>
        cases hbetween : (listen commands s₁).1 with
        | true =>
          refine ⟨fuel₀, false, _,
            ((searched_ended hbetween).cons hrange hattempted).poll hlisten, ?_⟩
          intro fuel hfuel turns
          exact (search_goesOn rfl hdown (hturn hfuel)).trans (if_pos hbetween)
        | false =>
          have hmin : trackMinExposure ≤ first + trackAcquisitionExpIncrement :=
            hfirst.trans (le_add_of_nonneg_right (by decide))
          have hlimit : maxExposure <
              first + trackAcquisitionExpIncrement + trackAcquisitionExpIncrement * (n : ℤ) := by
            rw [Nat.cast_succ, mul_add, mul_one] at hn
            omega
          obtain ⟨fuel₁, found, s', hsearched, hreturns⟩ :=
            ih (listen commands s₁).2 hmin hlimit { down with searching := false } hdown
          refine ⟨max fuel₀ fuel₁, found, s',
            ((hsearched.poll hbetween).cons hrange hattempted).poll hlisten, ?_⟩
          intro fuel hfuel turns
          refine (search_goesOn rfl hdown (hturn (le_of_max_le_left hfuel))).trans ?_
          rw [hbetween, if_neg Bool.false_ne_true]
          exact hreturns fuel (le_of_max_le_right hfuel) turns

end Search

/-! ## The acquisition -/

/-- What an acquisition has done. It has looked for the beacon at the guessed exposure, and then at
the ones above it, one after the other, up to the one where it has found it, to the limit, or to a
command that ends it; such a command is the last one that it polls. The camera has an allowed
exposure, and the beacon that it has found is the spot of the last frame. -/
structure Acquired (frames : ℕ → Option (Frame K)) (commands : ℕ → Option UInt16) (maxExposure : ℤ)
    (s s' : Acquisition K) (found : Bool) : Prop where
  attempts : ∃ n : ℕ, s'.attempts = s.attempts ++ upwards trackGuessExposure (n + 1) ∧
    (∀ exposure ∈ upwards trackGuessExposure (n + 1), Allowed maxExposure exposure) ∧
    (found = false → s'.Ended ∨
      maxExposure < trackGuessExposure + trackAcquisitionExpIncrement * (n + 1 : ℤ))
  allowed : Allowed maxExposure s'.tuned.exposeUs
  ended : s'.Ended → s.Ended ∨ found = false
  heeded : ∀ i, s.polls ≤ i → i < s'.polls → IsEnd (commands i) →
    i + 1 = s'.polls ∧ s'.Ended ∧ found = false
  shown : found = true → Shown frames s'.tuned

/-- The attempt at the guessed exposure, and what the search has done behind it. -/
theorem acquired_of_searched {frames : ℕ → Option (Frame K)} {commands : ℕ → Option UInt16}
    {maxExposure : ℤ} {s s₁ s' : Acquisition K} {here found : Bool}
    (hattempt : Attempted frames maxExposure trackGuessExposure s s₁ here)
    (h : Searched frames commands maxExposure (trackGuessExposure + trackAcquisitionExpIncrement) s₁
      s' found) : Acquired frames commands maxExposure s s' found := by
  obtain ⟨hattempts, hexposure, hpolls, hendPat, hendProcess, -⟩ := hattempt
  obtain ⟨⟨n, htried, hbelow, hcomplete⟩, hallowed, hended, hheeded, hshown⟩ := h
  have hkept : s₁.Ended → s.Ended := by
    rw [Acquisition.Ended, Acquisition.Ended, hendPat, hendProcess]
    exact id
  rw [hpolls] at hheeded
  refine ⟨⟨n, ?_, ?_, ?_⟩, hallowed hexposure, fun h => (hended h).imp hkept id, hheeded, hshown⟩
  · rw [htried, hattempts, upwards_succ, List.append_assoc, List.singleton_append]
  · rw [upwards_succ, List.forall_mem_cons]
    refine ⟨⟨by decide, .inl le_rfl⟩, fun exposure hmem => ⟨?_, .inr (hbelow exposure hmem)⟩⟩
    obtain ⟨k, -, rfl⟩ := List.mem_map.mp hmem
    simp only [trackMinExposure, trackGuessExposure, trackAcquisitionExpIncrement]
    omega
  · intro hfound
    refine (hcomplete hfound).imp id fun hlast => ?_
    rw [mul_add, mul_one]
    omega

/-- **The acquisition ends**: with any frames and commands it returns, and has looked for the beacon
at the exposures from the guessed one upwards. -/
theorem runAcquisition_searches (frames : ℕ → Option (Frame K)) (commands : ℕ → Option UInt16)
    {maxExposure : ℤ} (hmax : maxExposure ≤ 1952257861) (s : Acquisition K) :
    ∃ enough found s', Acquired frames commands maxExposure s s' found ∧
      ∀ fuel ≥ enough, ∀ turns ≥ enough,
        runAcquisition frames commands maxExposure fuel turns s = some (found, s') := by
  have hguess : Allowed maxExposure trackGuessExposure := ⟨by decide, .inl le_rfl⟩
  obtain ⟨fuel₀, here, s₁, hattempted, hattempt⟩ := exists_attempt frames hmax hguess s
  cases here with
  | true =>
    refine ⟨fuel₀, true, s₁, ?_, fun fuel hfuel turns _ => ?_⟩
    · exact acquired_of_searched hattempted (searched_found (hattempted.shown rfl))
    · rw [runAcquisition, hattempt fuel hfuel]
      rfl
  | false =>
    have hfirst : trackMinExposure ≤ trackGuessExposure + trackAcquisitionExpIncrement := by decide
    have hlimit : maxExposure < trackGuessExposure + trackAcquisitionExpIncrement +
        trackAcquisitionExpIncrement * (maxExposure.toNat : ℤ) := by
      simp only [trackGuessExposure, trackAcquisitionExpIncrement]
      omega
    -- the first exposure downwards is below the minimum
    obtain ⟨fuel₁, found, s', hsearched, hreturns⟩ := exists_search frames commands s₁ hmax
      maxExposure.toNat hfirst hlimit ⟨true, trackGuessExposure - trackAcquisitionExpIncrement⟩
        (by decide)
    refine ⟨max (max fuel₀ fuel₁) (maxExposure.toNat + 2), found, s',
      acquired_of_searched hattempted hsearched, fun fuel hfuel turns hturns => ?_⟩
    have hturns : turns = turns - (maxExposure.toNat + 2) + maxExposure.toNat + 2 := by omega
    rw [runAcquisition, hattempt fuel (by omega)]
    simp only [Option.bind_eq_bind, Option.bind_some, Bool.false_eq_true, if_false]
    rw [hturns]
    exact hreturns fuel (by omega) _

/-- A command that does not end the search, and one that does. -/
def laterEnd (i : ℕ) : Option UInt16 :=
  if i = 1 then some 0x10 else if i = 6 then some cmdEndPat else none

/-- The beacon is too dark in the first frame, and gets brighter. -/
theorem runAcquisition_searches_brightening :
    ∃ enough found s', Acquired brightening laterEnd 100000 ⟨beforeTuning, 0, false, false, []⟩ s'
        found ∧
      ∀ fuel ≥ enough, ∀ turns ≥ enough, runAcquisition brightening laterEnd 100000 fuel turns
        ⟨beforeTuning, 0, false, false, []⟩ = some (found, s') :=
  runAcquisition_searches brightening laterEnd (by decide) _

end ClickA.Tracking
