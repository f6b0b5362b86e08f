import ClickA.Machine.Sweep
import ClickA.Pat.State
import Mathlib.Algebra.Ring.Defs

/-!
# The exposure of the calibration

`findExposureRange` of `calibration.cpp`, with `verifyFrame` and `windowAndTune`: exposures are
tried until a frame shows the spot, and the exposure is tuned with more frames. The frames are those
that the camera delivers, one for each request, or none where the wait fails; what is read from the
exposure setting is what was written last.

## Main definitions

* `Spot`, `Frame`: what is seen of a frame
* `verifyFrame`, `windowAndTune`, `findExposureRange`: the functions
* `Stuck`: a frame at the minimum exposure with which the tuning does not end

## Main results

* `findExposureRange_returns_iff`: the search ends if and only if it does not get stuck at the
  minimum exposure
-/

namespace ClickA.Calibration

open Machine
open Pat (AOI)

/-! ## Frames -/

/-- A `Group` of pixels. -/
structure Spot (K : Type) where
  x : K
  y : K
  valueMax : ℕ
  valueSum : ℕ
  pixelCount : ℕ
deriving DecidableEq, Repr

/-- An `Image`: its area and statistics, and the groups that `performPixelGrouping` finds, unless
there are too many. -/
structure Frame (K : Type) where
  area : AOI
  histBrightest : ℕ
  histPeak : ℕ
  found : Option (List (Spot K))

variable {K : Type}

/-- What `performPixelGrouping` returns. -/
def Frame.numGroups (frame : Frame K) : ℤ :=
  match frame.found with
  | some groups => groups.length
  | none => -1

/-- `groups[0]`, where `performPixelGrouping() > 0`. -/
def Frame.spot (frame : Frame K) : Option (Spot K) :=
  if frame.numGroups > 0 then (frame.found.getD []).head? else none

/-- The properties of a spot, at its place on the sensor. -/
def Frame.onSensor [Ring K] (frame : Frame K) (spot : Spot K) : Spot K :=
  { spot with x := frame.area.x + spot.x, y := frame.area.y + spot.y }

/-! ## The code -/

/-- `CALIB_MIN_BRIGHTNESS`. -/
def calibMinBrightness : ℕ := 100

/-- `CALIB_GOOD_PEAKTOMAX_DISTANCE`. -/
def calibGoodPeaktomaxDistance : ℕ := 100

/-- `CALIB_HAPPY_BRIGHTNESS`. -/
def calibHappyBrightness : ℕ := 300

/-- `CALIB_TUNING_TOLERANCE`. -/
def calibTuningTolerance : ℤ := 200

/-- `CALIB_MIN_EXPOSURE`. -/
def calibMinExposure : ℤ := 10

/-- `CALIB_MAX_EXPOSURE`. -/
def calibMaxExposure : ℤ := 1000

/-- `CALIB_EXP_INCREMENT`. -/
def calibExpIncrement : ℤ := 50

/-- `CALIB_EXP_DIVIDER`. -/
def calibExpDivider : ℤ := 15

/-- How many frames were requested, the exposure that was written last, and `preferredExpo`. -/
structure Tuning where
  taken : ℕ
  exposeUs : ℤ
  preferredExpo : ℤ
deriving DecidableEq, Repr

section Code

variable (frames : ℕ → Option (Frame K)) (fuel : ℕ)

/-- `requestFrame` and `waitForFrame`. -/
def Tuning.frame (s : Tuning) : Option (Frame K) × Tuning :=
  (frames s.taken, { s with taken := s.taken + 1 })

/-- `verifyFrame`. -/
def verifyFrame (frame : Frame K) (s : Tuning) : Bool × Tuning :=
  if frame.histBrightest > calibMinBrightness ∧ frame.histBrightest > frame.histPeak ∧
      frame.histBrightest - frame.histPeak > calibGoodPeaktomaxDistance ∧ frame.numGroups > 0 then
    (true, { s with preferredExpo := s.exposeUs })
  else (false, s)

/-- The brightness of a spot is on the side that `test` looks for. -/
def Spot.passes (desaturating : Bool) (happyBrightness : ℕ) (spot : Spot K) : Bool :=
  if desaturating then spot.valueMax ≤ happyBrightness else spot.valueMax ≥ happyBrightness

/-- An exposure is written, and `test`. -/
def tryExposure (desaturating : Bool) (exposure : ℤ) (s : Tuning) : Bool × Tuning :=
  let (frame, s) := ({ s with exposeUs := exposure } : Tuning).frame frames
  match frame.bind Frame.spot with
  | some spot => (spot.passes desaturating calibHappyBrightness, s)
  | none => (false, s)

/-- The loop that decreases the exposure. -/
def decreaseExposure (exposure : ℤ) (s : Tuning) : Option (Option ℤ × Tuning) :=
  sweep (fun exposure => exposure ≥ calibMinExposure ∧ exposure.tdiv calibExpDivider ≥ 1)
    (fun exposure => some (exposure - exposure.tdiv calibExpDivider)) (tryExposure frames true) fuel
    (exposure - exposure.tdiv calibExpDivider) s

/-- The loop that increases the exposure. -/
def increaseExposure (exposure : ℤ) (s : Tuning) : Option (Option ℤ × Tuning) :=
  sweep (fun exposure => exposure ≤ calibMaxExposure)
    (fun exposure => some (exposure + exposure.tdiv calibExpDivider))
    (tryExposure frames false) fuel
    (exposure + exposure.tdiv calibExpDivider) s

/-- The end of the tuning: the exposure that passed, or else a limit, which is written. -/
def settle (limit : ℤ) : Option ℤ × Tuning → Bool × Tuning
  | (some exposure, s) => (true, { s with preferredExpo := exposure })
  | (none, s) => (true, { s with preferredExpo := limit, exposeUs := limit })

/-- `windowAndTune`, of a frame that was verified. -/
def windowAndTune (s : Tuning) : Option (Bool × Tuning) :=
  let (frame, s) := ({ s with exposeUs := s.preferredExpo } : Tuning).frame frames
  match frame.bind Frame.spot with
  | none => some (false, s)
  | some spot =>
    if |(spot.valueMax : ℤ) - calibHappyBrightness| < calibTuningTolerance then some (true, s)
    else if spot.valueMax > calibHappyBrightness then
      (decreaseExposure frames fuel s.preferredExpo s).map (settle calibMinExposure)
    else (increaseExposure frames fuel s.preferredExpo s).map (settle calibMaxExposure)

/-- A frame is requested, verified and tuned. -/
def attempt (s : Tuning) : Option (Bool × Tuning) :=
  let (frame, s) := s.frame frames
  match frame with
  | none => some (false, s)
  | some frame =>
    let (verified, s) := verifyFrame frame s
    if verified then windowAndTune frames fuel s else some (false, s)

/-- The loop over the exposures. -/
def searchExposure : ℕ → ℤ → Tuning → Option (Bool × Tuning)
  | 0, _, _ => none
  | n + 1, exposure, s =>
    if exposure ≤ calibMaxExposure then
      (attempt frames fuel { s with exposeUs := exposure }).bind fun (found, s) =>
        if found then some (true, s) else searchExposure n (exposure + calibExpIncrement) s
    else some (false, s)

/-- `findExposureRange`. -/
def findExposureRange (s : Tuning) : Option (Bool × Tuning) :=
  (attempt frames fuel { s with exposeUs := calibMinExposure }).bind fun (found, s) =>
    if found then some (true, s) else searchExposure frames fuel fuel calibMinExposure s

end Code

/-! ## The loops -/

section Loops

variable {frames : ℕ → Option (Frame K)} {fuel : ℕ} {s : Tuning} {exposure : ℤ}

/-- The spot of a frame that is delivered. -/
def spotAt (frames : ℕ → Option (Frame K)) (n : ℕ) : Option (Spot K) := (frames n).bind Frame.spot

/-- A trial takes one frame. -/
theorem tryExposure_eq (desaturating : Bool) : tryExposure frames desaturating exposure s =
    ((spotAt frames s.taken).any (Spot.passes desaturating calibHappyBrightness),
      { s with exposeUs := exposure, taken := s.taken + 1 }) := by
  unfold tryExposure Tuning.frame
  dsimp only
  unfold spotAt
  cases (frames s.taken).bind Frame.spot with
  | none => rfl
  | some spot => rfl

/-- The exposure does not decrease for ever. -/
theorem isSome_decreaseExposure (hpos : 0 ≤ exposure) (hexposure : exposure ≤ calibMaxExposure)
    (hfuel : 1001 ≤ fuel) : (decreaseExposure frames fuel exposure s).isSome := by
  unfold decreaseExposure
  apply isSome_sweep (fun _ _ => True) fun e _ => e.toNat
  · rintro e s - hrange -
    refine ⟨_, rfl, trivial, ?_⟩
    obtain ⟨hmin, hstep⟩ := of_decide_eq_true hrange
    simp only [calibMinExposure] at hmin
    omega
  · trivial
  · have hstep := Int.tdiv_nonneg hpos (by decide : 0 ≤ calibExpDivider)
    simp only [calibMaxExposure] at hexposure
    omega

/-- From fifteen on, the exposure does not increase for ever. -/
theorem isSome_increaseExposure (hexposure : 15 ≤ exposure) (hfuel : 1001 ≤ fuel) :
    (increaseExposure frames fuel exposure s).isSome := by
  have hgrows {e : ℤ} (he : 15 ≤ e) : e + 1 ≤ e + e.tdiv calibExpDivider := by
    rw [calibExpDivider, Int.tdiv_eq_ediv_of_nonneg (by omega)]
    omega
  unfold increaseExposure
  apply isSome_sweep (fun e _ => 15 ≤ e) fun e _ => (1001 - e).toNat
  · rintro e s he hrange -
    have hrange := of_decide_eq_true hrange
    have hnext := hgrows he
    refine ⟨_, rfl, by omega, ?_⟩
    simp only [calibMaxExposure] at hrange
    omega
  · have := hgrows hexposure
    omega
  · have := hgrows hexposure
    omega

/-- The spot of a frame is bright enough for a loop that increases the exposure. -/
def Bright (frames : ℕ → Option (Frame K)) (happyBrightness n : ℕ) : Prop :=
  ∃ spot, spotAt frames n = some spot ∧ happyBrightness ≤ spot.valueMax

theorem any_passes_iff (happyBrightness n : ℕ) :
    (spotAt frames n).any (Spot.passes false happyBrightness) = true ↔
      Bright frames happyBrightness n := by
  unfold Bright
  cases spotAt frames n with
  | none => simp
  | some spot => simp [Spot.passes]

theorem tryExposure_false_iff (n : ℕ) (hn : s.taken = n) :
    (tryExposure frames false exposure s).1 = true ↔ Bright frames calibHappyBrightness n := by
  rw [tryExposure_eq, hn]
  exact any_passes_iff _ _

/-- At the minimum exposure the next exposure is the same one. -/
theorem min_step : calibMinExposure + calibMinExposure.tdiv calibExpDivider = calibMinExposure :=
    rfl

/-- At the minimum exposure the loop ends with a bright frame. -/
theorem isSome_increaseExposure_min {m : ℕ} (hm : s.taken ≤ m)
    (hbright : Bright frames calibHappyBrightness m)
    (hfuel : m + 1 ≤ fuel) : (increaseExposure frames fuel calibMinExposure s).isSome := by
  unfold increaseExposure
  rw [min_step]
  apply isSome_sweep (fun e s => e = calibMinExposure ∧ s.taken ≤ m) fun _ s => m - s.taken
  · rintro e s ⟨rfl, hle⟩ - htrial
    have hne : s.taken ≠ m := by
      intro heq
      rw [(tryExposure_false_iff m heq).mpr hbright] at htrial
      exact absurd htrial (by decide)
    refine ⟨_, congrArg some min_step, ?_⟩
    rw [tryExposure_eq]
    dsimp only
    exact ⟨⟨rfl, by omega⟩, by omega⟩
  · exact ⟨rfl, hm⟩
  · omega

/-- Without a bright frame it does not end. -/
theorem increaseExposure_min_eq_none (hdark : ∀ k, s.taken ≤ k →
    ¬ Bright frames calibHappyBrightness k) :
    increaseExposure frames fuel calibMinExposure s = none := by
  unfold increaseExposure
  rw [min_step]
  apply sweep_eq_none fun e t => e = calibMinExposure ∧ s.taken ≤ t.taken
  · rintro e t ⟨rfl, hle⟩
    refine ⟨by decide, ?_, ?_⟩
    · rw [Bool.eq_false_iff, Ne, tryExposure_false_iff _ rfl]
      exact hdark _ hle
    · intro e' he'
      obtain rfl := Option.some.inj he'
      refine ⟨min_step, ?_⟩
      rw [tryExposure_eq]
      dsimp only
      omega
  · exact ⟨rfl, le_refl _⟩

/-! ## Attempts -/

/-- A frame is delivered and verified. -/
def VerifiedAt (frames : ℕ → Option (Frame K)) (n : ℕ) : Prop :=
  ∃ frame, frames n = some frame ∧ frame.histBrightest > calibMinBrightness ∧
    frame.histBrightest > frame.histPeak ∧
    frame.histBrightest - frame.histPeak > calibGoodPeaktomaxDistance ∧ frame.numGroups > 0

/-- The spot of a frame is too dark, beyond the tolerance. -/
def Dim (frames : ℕ → Option (Frame K)) (happyBrightness : ℕ) (tolerance : ℤ) (n : ℕ) : Prop :=
  ∃ spot, spotAt frames n = some spot ∧ (spot.valueMax : ℤ) ≤ happyBrightness - tolerance

/-- At the minimum exposure, a frame is verified, the next one is too dark, and none of the later
ones is bright. -/
def Stuck (frames : ℕ → Option (Frame K)) (n : ℕ) : Prop :=
  VerifiedAt frames n ∧ Dim frames calibHappyBrightness calibTuningTolerance (n + 1) ∧
    ∀ k, n + 2 ≤ k → ¬ Bright frames calibHappyBrightness k

/-- An attempt without a verified frame takes one frame. -/
theorem attempt_of_not_verified (h : ¬ VerifiedAt frames s.taken) :
    attempt frames fuel s = some (false, { s with taken := s.taken + 1 }) := by
  unfold attempt Tuning.frame
  dsimp only
  cases hframe : frames s.taken with
  | none => rfl
  | some frame =>
    have hfails : ¬ (frame.histBrightest > calibMinBrightness ∧
        frame.histBrightest > frame.histPeak ∧
        frame.histBrightest - frame.histPeak > calibGoodPeaktomaxDistance ∧ frame.numGroups > 0) :=
      fun hchecks => h ⟨frame, hframe, hchecks⟩
    simp only [verifyFrame, if_neg hfails]
    rfl

/-- An attempt with a verified frame is the tuning. -/
theorem attempt_of_verified (h : VerifiedAt frames s.taken) : attempt frames fuel s =
    windowAndTune frames fuel { s with taken := s.taken + 1, preferredExpo := s.exposeUs } := by
  obtain ⟨frame, hframe, hchecks⟩ := h
  unfold attempt Tuning.frame
  simp only [hframe, verifyFrame, if_pos hchecks]
  rfl

/-- What the tuning does, by the brightness of the next spot. -/
theorem windowAndTune_eq : windowAndTune frames fuel s =
    let t : Tuning := { s with exposeUs := s.preferredExpo, taken := s.taken + 1 }
    match spotAt frames s.taken with
    | none => some (false, t)
    | some spot =>
      if |(spot.valueMax : ℤ) - calibHappyBrightness| < calibTuningTolerance then some (true, t)
      else if spot.valueMax > calibHappyBrightness then
        (decreaseExposure frames fuel s.preferredExpo t).map (settle calibMinExposure)
      else (increaseExposure frames fuel s.preferredExpo t).map (settle calibMaxExposure) := by
  unfold windowAndTune Tuning.frame
  rfl

/-- The tuning of a spot that is seen is never given up. -/
theorem windowAndTune_true {spot : Spot K} (hspot : spotAt frames s.taken = some spot)
    {r : Bool × Tuning}
    (h : windowAndTune frames fuel s = some r) : r.1 = true := by
  have hsettle (limit : ℤ) (r : Option ℤ × Tuning) : (settle limit r).1 = true := by
    obtain ⟨passed, s⟩ := r
    cases passed with
    | none => rfl
    | some exposure => rfl
  rw [windowAndTune_eq, hspot] at h
  dsimp only at h
  split at h
  · obtain rfl := Option.some.inj h
    rfl
  split at h
  · obtain ⟨r', -, rfl⟩ := Option.map_eq_some_iff.mp h
    exact hsettle _ r'
  · obtain ⟨r', -, rfl⟩ := Option.map_eq_some_iff.mp h
    exact hsettle _ r'

/-- The tuning ends from every exposure but the minimum one. -/
theorem isSome_windowAndTune (hmin : 15 ≤ s.preferredExpo)
    (hmax : s.preferredExpo ≤ calibMaxExposure)
    (hfuel : 1001 ≤ fuel) : (windowAndTune frames fuel s).isSome := by
  rw [windowAndTune_eq]
  cases spotAt frames s.taken with
  | none => rfl
  | some spot =>
    dsimp only
    split
    · rfl
    split
    · rw [Option.isSome_map]
      exact isSome_decreaseExposure (by omega) hmax hfuel
    · rw [Option.isSome_map]
      exact isSome_increaseExposure hmin hfuel

/-- Stuck at the minimum exposure, an attempt does not end. -/
theorem attempt_eq_none (hmin : s.exposeUs = calibMinExposure) (h : Stuck frames s.taken) :
    attempt frames fuel s = none := by
  obtain ⟨hverified, ⟨spot, hspot, hdim⟩, hdark⟩ := h
  have hdim : (spot.valueMax : ℤ) ≤ 100 := hdim
  rw [attempt_of_verified hverified, windowAndTune_eq]
  dsimp only
  rw [hspot]
  dsimp only
  rw [if_neg, if_neg, Option.map_eq_none_iff, hmin]
  · apply increaseExposure_min_eq_none
    intro k hk
    exact hdark k hk
  · simp only [calibHappyBrightness]
    omega
  · simp only [calibHappyBrightness, calibTuningTolerance, not_lt]
    rw [le_abs]
    omega

/-- At the minimum exposure, an attempt that is not stuck ends. -/
theorem exists_isSome_attempt (hmin : s.exposeUs = calibMinExposure) (h : ¬ Stuck frames s.taken) :
    ∃ bound, ∀ fuel, bound ≤ fuel → (attempt frames fuel s).isSome := by
  by_cases hverified : VerifiedAt frames s.taken
  · simp only [attempt_of_verified hverified, windowAndTune_eq, hmin]
    cases hspot : spotAt frames (s.taken + 1) with
    | none => exact ⟨0, fun _ _ => rfl⟩
    | some spot =>
      dsimp only
      by_cases hnear : |(spot.valueMax : ℤ) - calibHappyBrightness| < calibTuningTolerance
      · simp only [if_pos hnear]
        exact ⟨0, fun _ _ => rfl⟩
      simp only [if_neg hnear]
      by_cases hbright : spot.valueMax > calibHappyBrightness
      · simp only [if_pos hbright, Option.isSome_map]
        refine ⟨1001, fun fuel hfuel => ?_⟩
        exact isSome_decreaseExposure (by decide) (by decide) hfuel
      · simp only [if_neg hbright, Option.isSome_map]
        have hdim : Dim frames calibHappyBrightness calibTuningTolerance (s.taken + 1) := by
          refine ⟨spot, hspot, ?_⟩
          simp only [calibHappyBrightness, calibTuningTolerance, not_lt] at hnear hbright ⊢
          rcases le_abs.mp hnear with habove | hbelow
          · omega
          · omega
        have hlater : ∃ k, s.taken + 2 ≤ k ∧ Bright frames calibHappyBrightness k := by
          by_contra hnone
          exact h ⟨hverified, hdim, fun k hk hk' => hnone ⟨k, hk, hk'⟩⟩
        obtain ⟨k, hk, hbright⟩ := hlater
        refine ⟨k + 1, fun fuel hfuel => ?_⟩
        exact isSome_increaseExposure_min hk hbright hfuel
  · simp only [attempt_of_not_verified hverified]
    exact ⟨0, fun _ _ => rfl⟩

/-- An attempt that ends without success has taken one frame that is not verified, or two of which
the second one shows no spot. -/
theorem attempt_false {s' : Tuning} (h : attempt frames fuel s = some (false, s')) :
    (¬ VerifiedAt frames s.taken ∧ s'.taken = s.taken + 1) ∨
      (VerifiedAt frames s.taken ∧ spotAt frames (s.taken + 1) = none ∧
          s'.taken = s.taken + 2) := by
  by_cases hverified : VerifiedAt frames s.taken
  · right
    rw [attempt_of_verified hverified] at h
    cases hspot : spotAt frames (s.taken + 1) with
    | none =>
      rw [windowAndTune_eq] at h
      dsimp only at h
      rw [hspot] at h
      obtain rfl := (Prod.mk.inj (Option.some.inj h)).2
      exact ⟨hverified, rfl, rfl⟩
    | some spot => exact absurd (windowAndTune_true hspot h) Bool.false_ne_true
  · left
    rw [attempt_of_not_verified hverified] at h
    obtain rfl := (Prod.mk.inj (Option.some.inj h)).2
    exact ⟨hverified, rfl⟩

/-! ## The search -/

/-- Beyond the minimum exposure, an attempt ends. -/
theorem isSome_attempt (hmin : 15 ≤ s.exposeUs) (hmax : s.exposeUs ≤ calibMaxExposure)
    (hfuel : 1001 ≤ fuel) :
    (attempt frames fuel s).isSome := by
  by_cases hverified : VerifiedAt frames s.taken
  · rw [attempt_of_verified hverified]
    exact isSome_windowAndTune hmin hmax hfuel
  · rw [attempt_of_not_verified hverified]
    rfl

/-- Beyond the minimum exposure, the search ends. -/
theorem isSome_searchExposure {n : ℕ} (hexposure : 15 ≤ exposure) (hfuel : 1001 ≤ fuel)
    (hpos : 0 < n)
    (hn : 1001 - exposure < n) : (searchExposure frames fuel n exposure s).isSome := by
  induction n generalizing exposure s with
  | zero => exact absurd hpos (Nat.lt_irrefl 0)
  | succ n ih =>
    unfold searchExposure
    by_cases hmax : exposure ≤ calibMaxExposure
    · rw [if_pos hmax]
      have hends : (attempt frames fuel { s with exposeUs := exposure }).isSome :=
        isSome_attempt hexposure hmax hfuel
      obtain ⟨⟨found, s'⟩, hattempt⟩ := Option.isSome_iff_exists.mp hends
      rw [hattempt, Option.bind_some]
      cases found with
      | true => rfl
      | false =>
        simp only [calibMaxExposure] at hmax
        simp only [Bool.false_eq_true, if_false, calibExpIncrement]
        exact ih (by omega) (by omega) (by omega)
    · rw [if_neg hmax]
      rfl

/-- The frames with which an attempt at the minimum exposure begins: the first one, and the one
behind a first attempt without success. -/
def AtMinimum (frames : ℕ → Option (Frame K)) (start n : ℕ) : Prop :=
  n = start ∨ (n = start + 1 ∧ ¬ VerifiedAt frames start) ∨
    (n = start + 2 ∧ VerifiedAt frames start ∧ spotAt frames (start + 1) = none)

/-- The state behind an attempt without success. -/
theorem attempt_false_eq {n : ℕ} (hne : n ≠ s.taken) (hn : AtMinimum frames s.taken n) :
    ∃ s', s'.taken = n ∧ ∀ fuel, attempt frames fuel s = some (false, s') := by
  rcases hn with heq | ⟨rfl, hverified⟩ | ⟨rfl, hverified, hspot⟩
  · exact absurd heq hne
  · exact ⟨{ s with taken := s.taken + 1 }, rfl, fun _ => attempt_of_not_verified hverified⟩
  · refine ⟨{ s with exposeUs := s.exposeUs, preferredExpo := s.exposeUs, taken := s.taken + 2 },
      rfl, ?_⟩
    intro fuel
    rw [attempt_of_verified hverified, windowAndTune_eq]
    dsimp only
    rw [hspot]

/-- The search ends if and only if no attempt at the minimum exposure gets stuck. -/
theorem findExposureRange_returns_iff (s : Tuning) :
    (∃ fuel, (findExposureRange frames fuel s).isSome)
      ↔ ¬ ∃ n, AtMinimum frames s.taken n ∧ Stuck frames n := by
  set t : Tuning := { s with exposeUs := calibMinExposure } with ht
  constructor
  · rintro ⟨fuel, hreturns⟩ ⟨n, hn, hstuck⟩
    unfold findExposureRange at hreturns
    by_cases hfirst : n = s.taken
    · rw [attempt_eq_none (s := t) rfl (hfirst ▸ hstuck)] at hreturns
      exact absurd hreturns Bool.false_ne_true
    · obtain ⟨s', rfl, hattempt⟩ := attempt_false_eq (s := t) hfirst hn
      rw [hattempt fuel, Option.bind_some] at hreturns
      cases fuel with
      | zero => exact absurd hreturns Bool.false_ne_true
      | succ fuel =>
        have hnone : attempt frames (fuel + 1) { s' with exposeUs := calibMinExposure } = none :=
          attempt_eq_none rfl hstuck
        simp only [Bool.false_eq_true, if_false, searchExposure] at hreturns
        rw [if_pos (by decide), hnone] at hreturns
        exact absurd hreturns Bool.false_ne_true
  · intro hfree
    have hends {s' : Tuning} (hn : AtMinimum frames s.taken s'.taken) :
        ∃ bound, ∀ fuel, bound ≤ fuel →
        (attempt frames fuel { s' with exposeUs := calibMinExposure }).isSome :=
      exists_isSome_attempt rfl fun hstuck => hfree ⟨s'.taken, hn, hstuck⟩
    by_cases hsecond : ∃ n, n ≠ s.taken ∧ AtMinimum frames s.taken n
    · obtain ⟨n, hne, hn⟩ := hsecond
      obtain ⟨s', rfl, hattempt⟩ := attempt_false_eq (s := t) hne hn
      obtain ⟨bound, hbound⟩ := hends hn
      refine ⟨bound + 1001 + 1, ?_⟩
      unfold findExposureRange
      rw [hattempt, Option.bind_some]
      simp only [Bool.false_eq_true, if_false]
      unfold searchExposure
      obtain ⟨⟨found, s''⟩, hagain⟩ :=
        Option.isSome_iff_exists.mp (hbound (bound + 1001 + 1) (by omega))
      rw [if_pos (by decide), hagain, Option.bind_some]
      cases found with
      | true => rfl
      | false =>
        simp only [Bool.false_eq_true, if_false, calibMinExposure, calibExpIncrement]
        exact isSome_searchExposure (by omega) (by omega) (by omega) (by omega)
    · obtain ⟨bound, hbound⟩ := hends (Or.inl rfl)
      refine ⟨bound, ?_⟩
      obtain ⟨⟨found, s'⟩, hattempt⟩ := Option.isSome_iff_exists.mp (hbound bound (le_refl _))
      unfold findExposureRange
      rw [hattempt, Option.bind_some]
      cases found with
      | true => rfl
      | false =>
        rcases attempt_false hattempt with ⟨hverified, -⟩ | ⟨hverified, hspot, -⟩
        · exact absurd ⟨s.taken + 1, by omega, Or.inr (Or.inl ⟨rfl, hverified⟩)⟩ hsecond
        · exact absurd ⟨s.taken + 2, by omega, Or.inr (Or.inr ⟨rfl, hverified, hspot⟩)⟩ hsecond

end Loops

end ClickA.Calibration
