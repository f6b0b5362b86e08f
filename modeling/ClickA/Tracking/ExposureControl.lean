import ClickA.Machine.Run
import ClickA.Tracking.Exposure

/-!
# The exposure of the closed loop

`Tracking::controlExposure` of `tracking.cpp`: with each frame of the closed loop, the exposure goes
a tenth towards the brightness. An `int` that overflows is undefined.

## Main definitions

* `controlExposure`: the function
* `TooBright`, `TooDim`: the brightness is not within the tolerance
* `Admitted`: the exposures between the limits
* `Steered`: what a call must return

## Main results

* `controlExposure_eq`: the branches of a call
* `run_tooBright`, `run_tooDim`: calls arrive at a limit
* `controlExposure_converges`: a call stays within the limits and goes towards the brightness, and
  calls arrive at a limit
-/

namespace ClickA.Tracking

open Machine

/-! ## The code -/

/-- `TRACK_EXP_CONTROL_TOLERANCE`. -/
def trackExpControlTolerance : ℤ := 150

/-- `TRACK_EXP_CONTROL_DIVIDER`. -/
def trackExpControlDivider : ℤ := 10

/-- A number as an `int`. -/
def asInt (n : ℤ) : Option ℤ := if -2 ^ 31 ≤ n ∧ n < 2 ^ 31 then some n else none

/-- `controlExposure`. -/
def controlExposure (valueMax exposure maxBcnExposure : ℤ) : Option ℤ := do
  let brightnessDifference ← asInt (valueMax - trackHappyBrightness)
  if (← asInt |brightnessDifference|) > trackExpControlTolerance then
    if brightnessDifference > 0 then
      let newExposure ← asInt (exposure - exposure.tdiv trackExpControlDivider)
      if newExposure > trackMinExposure then pure newExposure else pure trackMinExposure
    else
      let newExposure ← asInt (exposure + exposure.tdiv trackExpControlDivider)
      if newExposure < maxBcnExposure then pure newExposure else pure maxBcnExposure
  else pure exposure

/-! ## A call -/

/-- A brightness is an `int`, and so is its distance from the aim. -/
def IsBrightness (valueMax : ℤ) : Prop :=
  -2 ^ 31 < valueMax - trackHappyBrightness ∧ valueMax < 2 ^ 31

/-- The spot is too bright. -/
def TooBright (valueMax : ℤ) : Prop := trackExpControlTolerance < valueMax - trackHappyBrightness

/-- The spot is too dim. -/
def TooDim (valueMax : ℤ) : Prop := trackExpControlTolerance < trackHappyBrightness - valueMax

/-- The exposures that the loop may use with a maximum. -/
def Admitted (maxBcnExposure exposure : ℤ) : Prop :=
  trackMinExposure ≤ exposure ∧ exposure ≤ maxBcnExposure

variable {valueMax exposure maxBcnExposure : ℤ} {readings : List ℤ}

theorem asInt_eq {n : ℤ} (hlow : -2 ^ 31 ≤ n) (hhigh : n < 2 ^ 31) : asInt n = some n :=
  if_pos ⟨hlow, hhigh⟩

/-- The distance from the aim is an `int`. -/
theorem difference_asInt (hvalue : IsBrightness valueMax) :
    asInt (valueMax - trackHappyBrightness) = some (valueMax - trackHappyBrightness) ∧
      asInt |valueMax - trackHappyBrightness| = some |valueMax - trackHappyBrightness| := by
  obtain ⟨hlow, hhigh⟩ := hvalue
  simp only [trackHappyBrightness] at hlow ⊢
  have habs : |valueMax - (700 : ℕ)| < 2 ^ 31 := abs_lt.mpr ⟨hlow, by omega⟩
  have hpos := abs_nonneg (valueMax - (700 : ℕ))
  exact ⟨asInt_eq (by omega) (by omega), asInt_eq (by omega) habs⟩

/-- The three branches of a call. -/
theorem controlExposure_eq (hvalue : IsBrightness valueMax) :
    controlExposure valueMax exposure maxBcnExposure =
      if |valueMax - trackHappyBrightness| > trackExpControlTolerance then
        if valueMax - trackHappyBrightness > 0 then
          (asInt (exposure - exposure.tdiv trackExpControlDivider)).map (max trackMinExposure)
        else (asInt (exposure + exposure.tdiv trackExpControlDivider)).map (min maxBcnExposure)
      else some exposure := by
  have hmax (n : ℤ) : (if n > trackMinExposure then some n else some trackMinExposure) =
      some (max trackMinExposure n) := by
    rw [← apply_ite, max_def_lt]
  have hmin (n : ℤ) : (if n < maxBcnExposure then some n else some maxBcnExposure) =
      some (min maxBcnExposure n) := by
    rw [← apply_ite, min_comm, min_def_lt]
  obtain ⟨hdiff, habs⟩ := difference_asInt hvalue
  unfold controlExposure
  simp only [Option.bind_eq_bind, Option.pure_def, hdiff, habs, Option.bind_some, hmax, hmin,
    Option.map_eq_bind]
  rfl

/-- Within the tolerance the exposure stays. -/
theorem controlExposure_of_tolerable (hvalue : IsBrightness valueMax)
    (hnear : |valueMax - trackHappyBrightness| ≤ trackExpControlTolerance) :
    controlExposure valueMax exposure maxBcnExposure = some exposure := by
  rw [controlExposure_eq hvalue, if_neg (not_lt.mpr hnear)]

/-- A spot that is too bright takes a tenth from the exposure. -/
theorem controlExposure_of_tooBright (hvalue : IsBrightness valueMax)
    (hbright : TooBright valueMax) (hexposure : 0 ≤ exposure) (hfits : exposure < 2 ^ 31) :
    controlExposure valueMax exposure maxBcnExposure =
      some (max trackMinExposure (exposure - exposure / 10)) := by
  have hfar : |valueMax - trackHappyBrightness| > trackExpControlTolerance :=
    lt_of_lt_of_le hbright (le_abs_self _)
  have hpos : valueMax - trackHappyBrightness > 0 := lt_trans (by decide) hbright
  have htenth : exposure.tdiv trackExpControlDivider = exposure / 10 :=
    Int.tdiv_eq_ediv_of_nonneg hexposure
  rw [controlExposure_eq hvalue, if_pos hfar, if_pos hpos, htenth,
    asInt_eq (by omega) (by omega), Option.map_some]

/-- A spot that is too dim adds a tenth to the exposure. -/
theorem controlExposure_of_tooDim (hvalue : IsBrightness valueMax) (hdim : TooDim valueMax)
    (hexposure : 0 ≤ exposure) (hfits : exposure ≤ 10000000) :
    controlExposure valueMax exposure maxBcnExposure =
      some (min maxBcnExposure (exposure + exposure / 10)) := by
  have hfar : |valueMax - trackHappyBrightness| > trackExpControlTolerance := by
    rw [abs_sub_comm]
    exact lt_of_lt_of_le hdim (le_abs_self _)
  have hneg : ¬ valueMax - trackHappyBrightness > 0 := by
    simp only [TooDim, trackExpControlTolerance] at hdim
    omega
  have htenth : exposure.tdiv trackExpControlDivider = exposure / 10 :=
    Int.tdiv_eq_ediv_of_nonneg hexposure
  rw [controlExposure_eq hvalue, if_pos hfar, if_neg hneg, htenth,
    asInt_eq (by omega) (by omega), Option.map_some]

/-- What a call must return: an exposure between the limits, and towards the brightness. -/
structure Steered (valueMax maxBcnExposure exposure exposure' : ℤ) : Prop where
  admitted : Admitted maxBcnExposure exposure'
  tolerable : |valueMax - trackHappyBrightness| ≤ trackExpControlTolerance → exposure' = exposure
  bright : TooBright valueMax →
    exposure' < exposure ∨ exposure = trackMinExposure ∧ exposure' = trackMinExposure
  dim : TooDim valueMax →
    exposure < exposure' ∨ exposure = maxBcnExposure ∧ exposure' = maxBcnExposure

/-- From ten on, a tenth of an exposure is not zero. -/
theorem Admitted.tenth (he : Admitted maxBcnExposure exposure) : 1 ≤ exposure / 10 := by
  obtain ⟨hlow, -⟩ := he
  simp only [trackMinExposure] at hlow
  omega

/-- The result of a call that decreases the exposure. -/
theorem steered_of_tooBright (he : Admitted maxBcnExposure exposure)
    (hbright : TooBright valueMax) :
    Steered valueMax maxBcnExposure exposure (max trackMinExposure (exposure - exposure / 10)) := by
  have htenth := he.tenth
  obtain ⟨hlow, hhigh⟩ := he
  have hless : exposure - exposure / 10 < exposure := by omega
  refine ⟨⟨le_max_left _ _, ?_⟩, fun hnear => ?_, fun _ => ?_, fun hdim => ?_⟩
  · exact max_le (le_trans hlow hhigh) (le_trans hless.le hhigh)
  · exact absurd (lt_of_lt_of_le hbright (le_abs_self _)) (not_lt.mpr hnear)
  · rcases eq_or_lt_of_le hlow with hmin | hmin
    · exact .inr ⟨hmin.symm, max_eq_left (hmin ▸ hless.le)⟩
    · exact .inl (max_lt hmin hless)
  · simp only [TooBright, TooDim, trackExpControlTolerance] at hbright hdim
    omega

/-- The result of a call that increases the exposure. -/
theorem steered_of_tooDim (he : Admitted maxBcnExposure exposure) (hdim : TooDim valueMax) :
    Steered valueMax maxBcnExposure exposure (min maxBcnExposure (exposure + exposure / 10)) := by
  have htenth := he.tenth
  obtain ⟨hlow, hhigh⟩ := he
  have hmore : exposure < exposure + exposure / 10 := by omega
  refine ⟨⟨?_, min_le_left _ _⟩, fun hnear => ?_, fun hbright => ?_, fun _ => ?_⟩
  · exact le_min (le_trans hlow hhigh) (le_trans hlow hmore.le)
  · rw [abs_sub_comm] at hnear
    exact absurd (lt_of_lt_of_le hdim (le_abs_self _)) (not_lt.mpr hnear)
  · simp only [TooBright, TooDim, trackExpControlTolerance] at hbright hdim
    omega
  · rcases eq_or_lt_of_le hhigh with hmax | hmax
    · exact .inr ⟨hmax, min_eq_left (hmax ▸ hmore.le)⟩
    · exact .inl (lt_min hmax hmore)

/-- A call returns an exposure between the limits, and towards the brightness. -/
theorem controlExposure_steered (hM : maxBcnExposure ≤ 10000000)
    (he : Admitted maxBcnExposure exposure) (hvalue : IsBrightness valueMax) :
    ∃ exposure', controlExposure valueMax exposure maxBcnExposure = some exposure' ∧
      Steered valueMax maxBcnExposure exposure exposure' := by
  have hpos : 0 ≤ exposure := le_trans (by decide) he.1
  have hfits : exposure ≤ 10000000 := le_trans he.2 hM
  by_cases hnear : |valueMax - trackHappyBrightness| ≤ trackExpControlTolerance
  · refine ⟨exposure, controlExposure_of_tolerable hvalue hnear, he, fun _ => rfl, ?_, ?_⟩
    · intro hbright
      exact absurd (le_trans (le_abs_self _) hnear) (not_le.mpr hbright)
    · intro hdim
      rw [abs_sub_comm] at hnear
      exact absurd (le_trans (le_abs_self _) hnear) (not_le.mpr hdim)
  · rcases lt_abs.mp (not_le.mp hnear) with hbright | hdim
    · exact ⟨_, controlExposure_of_tooBright hvalue hbright hpos (by omega),
        steered_of_tooBright he hbright⟩
    · rw [neg_sub] at hdim
      exact ⟨_, controlExposure_of_tooDim hvalue hdim hpos hfits, steered_of_tooDim he hdim⟩

/-! ## Many calls -/

/-- A call with the next reading, as a step. -/
def controlStep (maxBcnExposure exposure valueMax : ℤ) : Option ℤ :=
  controlExposure valueMax exposure maxBcnExposure

/-- While the spot stays too bright, the exposure arrives at the minimum. -/
theorem run_tooBright (hM : maxBcnExposure ≤ 10000000) (he : Admitted maxBcnExposure exposure)
    (hvalues : ∀ v ∈ readings, IsBrightness v ∧ TooBright v)
    (hlong : (exposure - trackMinExposure).toNat ≤ readings.length) :
    run (controlStep maxBcnExposure) exposure readings = some trackMinExposure := by
  -- each call takes something from the distance to the minimum, until there is none
  apply run_eq_of_measure (fun e => (e - trackMinExposure).toNat) _ _ he hlong
  · intro e he v hv
    obtain ⟨hvalue, hbright⟩ := hvalues v hv
    obtain ⟨e', hcall, hsteered⟩ := controlExposure_steered hM he hvalue
    refine ⟨e', hcall, hsteered.admitted, ?_⟩
    rcases hsteered.bright hbright with hless | ⟨-, rfl⟩
    · omega
    · omega
  · intro e he hzero
    have hlow := he.1
    omega

/-- While the spot stays too dim, the exposure arrives at the maximum. -/
theorem run_tooDim (hM : maxBcnExposure ≤ 10000000) (he : Admitted maxBcnExposure exposure)
    (hvalues : ∀ v ∈ readings, IsBrightness v ∧ TooDim v)
    (hlong : (maxBcnExposure - exposure).toNat ≤ readings.length) :
    run (controlStep maxBcnExposure) exposure readings = some maxBcnExposure := by
  apply run_eq_of_measure (fun e => (maxBcnExposure - e).toNat) _ _ he hlong
  · intro e he v hv
    obtain ⟨hvalue, hdim⟩ := hvalues v hv
    obtain ⟨e', hcall, hsteered⟩ := controlExposure_steered hM he hvalue
    refine ⟨e', hcall, hsteered.admitted, ?_⟩
    rcases hsteered.dim hdim with hless | ⟨-, rfl⟩
    · omega
    · omega
  · intro e he hzero
    have hhigh := he.2
    omega

/-- For each maximum and each exposure between the limits, a call with any brightness returns an
exposure between the limits that goes towards the brightness, and some number of calls is enough to
arrive at the minimum when the spot stays too bright, and at the maximum when it stays too dim. -/
theorem controlExposure_converges (maxBcnExposure exposure : ℤ)
    (hM : trackMinExposure ≤ maxBcnExposure ∧ maxBcnExposure ≤ 10000000)
    (he : Admitted maxBcnExposure exposure) :
    (∀ valueMax, IsBrightness valueMax →
      ∃ exposure', controlExposure valueMax exposure maxBcnExposure = some exposure' ∧
        Steered valueMax maxBcnExposure exposure exposure') ∧
    (∃ n, ∀ readings : List ℤ, (∀ v ∈ readings, IsBrightness v ∧ TooBright v) →
      n ≤ readings.length →
        run (controlStep maxBcnExposure) exposure readings = some trackMinExposure) ∧
    (∃ n, ∀ readings : List ℤ, (∀ v ∈ readings, IsBrightness v ∧ TooDim v) →
      n ≤ readings.length →
        run (controlStep maxBcnExposure) exposure readings = some maxBcnExposure) :=
  ⟨fun _ hvalue => controlExposure_steered hM.2 he hvalue,
    ⟨_, fun _ hvalues hlong => run_tooBright hM.2 he hvalues hlong⟩,
    ⟨_, fun _ hvalues hlong => run_tooDim hM.2 he hvalues hlong⟩⟩

/-- The first exposure of the tracking, with the maximum that it starts with. -/
theorem controlExposure_converges_start :
    (∀ valueMax, IsBrightness valueMax →
      ∃ exposure', controlExposure valueMax 100 100000 = some exposure' ∧
        Steered valueMax 100000 100 exposure') ∧
    (∃ n, ∀ readings : List ℤ, (∀ v ∈ readings, IsBrightness v ∧ TooBright v) →
      n ≤ readings.length → run (controlStep 100000) 100 readings = some trackMinExposure) ∧
    (∃ n, ∀ readings : List ℤ, (∀ v ∈ readings, IsBrightness v ∧ TooDim v) →
      n ≤ readings.length → run (controlStep 100000) 100 readings = some 100000) :=
  controlExposure_converges 100000 100 (by decide) ⟨by decide, by decide⟩

end ClickA.Tracking
