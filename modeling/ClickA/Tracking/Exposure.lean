import ClickA.Calibration.Exposure

/-!
# The exposure of a tracked spot

`Tracking::autoTuneExposure` of `tracking.cpp`: the exposure is increased or decreased until the
spot has the brightness. An exposure that leaves the `int` is undefined.

## Main definitions

* `autoTuneExposure`: the function
* `Overflows`: the exposures leave the `int`

## Main results

* `autoTuneExposure_returns_iff`: the tuning ends if and only if the exposures do not leave the
  `int`
* `tuning_returns_iff`: with the search of the calibration
-/

namespace ClickA.Tracking

open Calibration Machine

variable {K : Type} [Ring K]

/-! ## The code -/

/-- `TRACK_HAPPY_BRIGHTNESS`. -/
def trackHappyBrightness : ℕ := 700

/-- `TRACK_TUNING_TOLERANCE`. -/
def trackTuningTolerance : ℤ := 150

/-- `TRACK_TUNING_EXP_DIVIDER`. -/
def trackTuningExpDivider : ℤ := 10

/-- `TRACK_MIN_EXPOSURE`. -/
def trackMinExposure : ℤ := 10

/-- How many frames were requested, the exposure that was written last, and the beacon. -/
structure Tuned (K : Type) where
  taken : ℕ
  exposeUs : ℤ
  beacon : Spot K

/-- The next exposure upwards. -/
def grow (exposure : ℤ) : ℤ := exposure + exposure.tdiv trackTuningExpDivider

/-- The next exposure upwards, as an `int`. -/
def grown (exposure : ℤ) : Option ℤ := if grow exposure < 2 ^ 31 then some (grow exposure) else none

section Code

variable (frames : ℕ → Option (Frame K)) (fuel : ℕ)

/-- `requestFrame` and `waitForFrame`, and the spot if there is one. -/
def Tuned.spot (s : Tuned K) : Option (Frame K × Spot K) × Tuned K :=
  ((frames s.taken).bind fun frame => frame.spot.map fun spot =>
      (frame, spot), { s with taken := s.taken + 1 })

/-- An exposure is written, and `test`. -/
def tryExposure (desaturating : Bool) (exposure : ℤ) (s : Tuned K) : Bool × Tuned K :=
  let (seen, s) := ({ s with exposeUs := exposure } : Tuned K).spot frames
  match seen with
  | some (frame, spot) =>
    (spot.passes desaturating trackHappyBrightness, { s with beacon := frame.onSensor spot })
  | none => (false, s)

/-- The loop that decreases the exposure. -/
def decreaseExposure (exposure : ℤ) (s : Tuned K) : Option (Option ℤ × Tuned K) :=
  sweep (fun exposure => exposure ≥ trackMinExposure ∧ exposure.tdiv trackTuningExpDivider ≥ 1)
    (fun exposure => some (exposure - exposure.tdiv trackTuningExpDivider))
    (tryExposure frames true) fuel
    (exposure - exposure.tdiv trackTuningExpDivider) s

/-- The loop that increases the exposure. -/
def increaseExposure (maxExposure exposure : ℤ) (s : Tuned K) : Option (Option ℤ × Tuned K) :=
  (grown exposure).bind fun exposure =>
    sweep (fun exposure => exposure ≤ maxExposure) grown (tryExposure frames false) fuel exposure s

/-- `autoTuneExposure`. -/
def autoTuneExposure (maxExposure : ℤ) (s : Tuned K) : Option (Bool × Tuned K) :=
  let (seen, s) := s.spot frames
  match seen with
  | none => some (false, s)
  | some (frame, spot) =>
    if |(spot.valueMax : ℤ) - trackHappyBrightness| < trackTuningTolerance then
      some (true, { s with beacon := frame.onSensor spot })
    else
      let swept :=
        if spot.valueMax > trackHappyBrightness then decreaseExposure frames fuel s.exposeUs s
        else increaseExposure frames fuel maxExposure s.exposeUs s
      swept.map fun (passed, s) => (passed.isSome, s)

end Code

/-! ## The loops -/

section Loops

variable {frames : ℕ → Option (Frame K)} {fuel : ℕ} {s : Tuned K} {exposure maxExposure : ℤ}

omit [Ring K] in
theorem spot_eq : (s.spot frames).1.map Prod.snd = spotAt frames s.taken := by
  unfold Tuned.spot spotAt
  dsimp only
  cases frames s.taken with
  | none => rfl
  | some frame =>
    dsimp only [Option.bind_some]
    cases frame.spot with
    | none => rfl
    | some spot => rfl

/-- A trial takes one frame. -/
theorem tryExposure_taken (desaturating : Bool) :
    (tryExposure frames desaturating exposure s).2.taken = s.taken + 1 := by
  unfold tryExposure Tuned.spot
  dsimp only
  split
  · rfl
  · rfl

theorem tryExposure_iff :
    (tryExposure frames false exposure s).1 = true ↔
      Bright frames trackHappyBrightness s.taken := by
  rw [← any_passes_iff, ← spot_eq]
  unfold tryExposure Tuned.spot
  dsimp only
  cases (frames s.taken).bind fun frame => frame.spot.map fun spot => (frame, spot) with
  | none => rfl
  | some seen => rfl

/-- From an exposure on, the exposures leave the `int` before the loop ends. -/
def Overflows (frames : ℕ → Option (Frame K)) (maxExposure exposure : ℤ) (n : ℕ) : Prop :=
  ∃ k, 2 ^ 31 ≤ grow^[k] exposure ∧
    ∀ j < k, grow^[j] exposure ≤ maxExposure ∧ ¬ Bright frames trackHappyBrightness (n + j)

omit [Ring K] in
/-- One exposure further. -/
theorem overflows_iff_grow {n : ℕ} (hexposure : exposure < 2 ^ 31) :
    Overflows frames maxExposure exposure n ↔ exposure ≤ maxExposure ∧
      ¬ Bright frames trackHappyBrightness n ∧ Overflows frames maxExposure (grow exposure)
          (n + 1) := by
  constructor
  · rintro ⟨k, hlarge, hbefore⟩
    cases k with
    | zero => exact absurd hlarge (not_le.mpr hexposure)
    | succ k =>
      obtain ⟨hmax, hdark⟩ := hbefore 0 (Nat.succ_pos k)
      refine ⟨hmax, hdark, k, hlarge, fun j hj => ?_⟩
      obtain ⟨hmax', hdark'⟩ := hbefore (j + 1) (Nat.succ_lt_succ hj)
      refine ⟨hmax', ?_⟩
      rwa [show n + 1 + j = n + (j + 1) by omega]
  · rintro ⟨hmax, hdark, k, hlarge, hbefore⟩
    refine ⟨k + 1, hlarge, fun j hj => ?_⟩
    cases j with
    | zero => exact ⟨hmax, hdark⟩
    | succ j =>
      obtain ⟨hmax', hdark'⟩ := hbefore j (Nat.lt_of_succ_lt_succ hj)
      refine ⟨hmax', ?_⟩
      rwa [show n + (j + 1) = n + 1 + j by omega]

/-- The exposure does not decrease for ever. -/
theorem exists_isSome_decreaseExposure :
    ∃ fuel, (decreaseExposure frames fuel exposure s).isSome := by
  unfold decreaseExposure
  set first := exposure - exposure.tdiv trackTuningExpDivider
  refine ⟨first.toNat + 1, ?_⟩
  apply isSome_sweep (fun _ _ => True) fun e _ => e.toNat
  · rintro e s - hrange -
    refine ⟨_, rfl, trivial, ?_⟩
    obtain ⟨hmin, hstep⟩ := of_decide_eq_true hrange
    simp only [trackMinExposure] at hmin
    omega
  · trivial
  · omega

/-- From ten on, an exposure grows. -/
theorem lt_grow (hexposure : 10 ≤ exposure) : exposure < grow exposure := by
  rw [grow, trackTuningExpDivider, Int.tdiv_eq_ediv_of_nonneg (by omega)]
  omega

/-- The loop that increases the exposure ends if and only if the exposures do not leave the
`int`. -/
theorem increaseExposure_returns_iff (hexposure : 10 ≤ exposure) :
    (∃ fuel, (increaseExposure frames fuel maxExposure exposure s).isSome)
      ↔ ¬ Overflows frames maxExposure (grow exposure) s.taken := by
  have hgrow := lt_grow hexposure
  unfold increaseExposure grown
  by_cases hfirst : grow exposure < 2 ^ 31
  · simp only [if_pos hfirst, Option.bind_some]
    generalize grow exposure = first at hgrow hfirst
    constructor
    -- an overflow stays ahead at each exposure, so that no fuel is enough
    · rintro ⟨fuel, hreturns⟩ hover
      rw [sweep_eq_none fun e s => e < 2 ^ 31 ∧ Overflows frames maxExposure e s.taken] at hreturns
      · exact absurd hreturns Bool.false_ne_true
      · rintro e s ⟨hfits, hover⟩
        obtain ⟨hmax, hdark, hnext⟩ := (overflows_iff_grow hfits).mp hover
        refine ⟨decide_eq_true hmax, ?_, fun e' he' => ?_⟩
        · rw [Bool.eq_false_iff, Ne, tryExposure_iff]
          exact hdark
        · split at he'
          · obtain rfl := Option.some.inj he'
            rw [tryExposure_taken]
            exact ⟨‹_›, hnext⟩
          · exact absurd he' (Option.some_ne_none _).symm
      · exact ⟨hfirst, hover⟩
    · intro hover
      refine ⟨(2 ^ 31 - first).toNat + 1, ?_⟩
      apply isSome_sweep (fun e s => 10 ≤ e ∧ e < 2 ^ 31 ∧ ¬ Overflows frames maxExposure e s.taken)
        fun e _ => (2 ^ 31 - e).toNat
      · rintro e s ⟨hmin, hfits, hover⟩ hrange htrial
        have hdark : ¬ Bright frames trackHappyBrightness s.taken := by
          apply mt tryExposure_iff.mpr
          rw [htrial]
          exact Bool.false_ne_true
        have hnext : ¬ Overflows frames maxExposure (grow e) (s.taken + 1) := by
          intro hlater
          exact hover ((overflows_iff_grow hfits).mpr ⟨of_decide_eq_true hrange, hdark, hlater⟩)
        have hfits' : grow e < 2 ^ 31 := by
          by_contra hlarge
          exact hnext ⟨0, not_lt.mp hlarge, fun j hj => absurd hj (Nat.not_lt_zero j)⟩
        have hless := lt_grow hmin
        refine ⟨grow e, if_pos hfits', ?_⟩
        rw [tryExposure_taken]
        exact ⟨⟨by omega, hfits', hnext⟩, by omega⟩
      · exact ⟨by omega, hfirst, hover⟩
      · omega
  · simp only [if_neg hfirst]
    refine iff_of_false ?_ ?_
    · rintro ⟨fuel, hreturns⟩
      exact absurd hreturns Bool.false_ne_true
    · intro hnot
      exact hnot ⟨0, not_lt.mp hfirst, fun j hj => absurd hj (Nat.not_lt_zero j)⟩

/-- The first frame shows a spot that is too dark, and the exposures leave the `int` before a later
one is bright. -/
def TuningOverflows (frames : ℕ → Option (Frame K)) (maxExposure exposure : ℤ) (n : ℕ) : Prop :=
  Dim frames trackHappyBrightness trackTuningTolerance n ∧
    Overflows frames maxExposure (grow exposure) (n + 1)

/-- The tuning ends if and only if the exposures do not leave the `int`. -/
theorem autoTuneExposure_returns_iff (hexposure : trackMinExposure ≤ s.exposeUs) :
    (∃ fuel, (autoTuneExposure frames fuel maxExposure s).isSome)
      ↔ ¬ TuningOverflows frames maxExposure s.exposeUs s.taken := by
  have hspot : (s.spot frames).1.map Prod.snd = spotAt frames s.taken := spot_eq
  unfold autoTuneExposure TuningOverflows Dim
  rw [← hspot]
  unfold Tuned.spot
  dsimp only
  cases (frames s.taken).bind fun frame => frame.spot.map fun spot => (frame, spot) with
  | none => simp
  | some seen =>
    obtain ⟨frame, spot⟩ := seen
    dsimp only [Option.map_some]
    have hdim : (∃ spot', some spot = some spot' ∧
        (spot'.valueMax : ℤ) ≤ trackHappyBrightness - trackTuningTolerance) ↔
            spot.valueMax ≤ 550 := by
      simp only [Option.some.injEq, exists_eq_left', trackHappyBrightness, trackTuningTolerance]
      omega
    rw [hdim]
    by_cases hnear : |(spot.valueMax : ℤ) - trackHappyBrightness| < trackTuningTolerance
    · simp only [if_pos hnear, Option.isSome_some, exists_const, true_iff]
      rintro ⟨hdark, -⟩
      simp only [trackHappyBrightness, trackTuningTolerance, abs_lt] at hnear
      omega
    simp only [if_neg hnear, Option.isSome_map]
    by_cases hbright : spot.valueMax > trackHappyBrightness
    · simp only [if_pos hbright]
      refine iff_of_true exists_isSome_decreaseExposure ?_
      rintro ⟨hdark, -⟩
      simp only [trackHappyBrightness] at hbright
      omega
    · simp only [if_neg hbright]
      have hdark : spot.valueMax ≤ 550 := by
        simp only [trackHappyBrightness, trackTuningTolerance, not_lt] at hnear hbright
        rcases le_abs.mp hnear with habove | hbelow
        · omega
        · omega
      rw [and_iff_right hdark]
      exact increaseExposure_returns_iff hexposure

omit [Ring K] in
/-- No exposure leaves the `int` when neither the first one nor the limit is too close to its
end. -/
theorem not_overflows (hmax : maxExposure ≤ 1952257861) (hexposure : exposure ≤ 1952257861)
    (n : ℕ) :
    ¬ Overflows frames maxExposure (grow exposure) n := by
  have hfits {e : ℤ} (he : e ≤ 1952257861) : grow e < 2 ^ 31 := by
    rw [grow, trackTuningExpDivider]
    rcases le_or_gt 0 e with hpos | hneg
    · rw [Int.tdiv_eq_ediv_of_nonneg hpos]
      omega
    · have hquotient : 0 ≤ (-e).tdiv 10 := Int.tdiv_nonneg (by omega) (by decide)
      rw [Int.neg_tdiv] at hquotient
      omega
  rintro ⟨k, hlarge, hbefore⟩
  cases k with
  | zero => exact absurd (hfits hexposure) (not_lt.mpr hlarge)
  | succ k =>
    have hlast := (hbefore k (Nat.lt_succ_self k)).1
    rw [Function.iterate_succ_apply'] at hlarge
    exact absurd (hfits (le_trans hlast hmax)) (not_lt.mpr hlarge)

/-- The search of the calibration ends if and only if it does not get stuck at the minimum exposure,
and the tuning of the tracking, from an exposure of at least the minimum one, if and only if the
exposures do not leave the `int`. -/
theorem tuning_returns_iff (frames : ℕ → Option (Frame K)) (s : Tuning) (t : Tuned K)
    (maxExposure : ℤ)
    (hexposure : trackMinExposure ≤ t.exposeUs) :
    ((∃ fuel, (findExposureRange frames fuel s).isSome)
      ↔ ¬ ∃ n, AtMinimum frames s.taken n ∧ Stuck frames n) ∧
    ((∃ fuel, (autoTuneExposure frames fuel maxExposure t).isSome)
      ↔ ¬ TuningOverflows frames maxExposure t.exposeUs t.taken) :=
  ⟨findExposureRange_returns_iff s, autoTuneExposure_returns_iff hexposure⟩

end Loops

/-- A spot with a brightness. -/
def spotOf (valueMax : ℕ) : Spot ℚ := ⟨100, 100, valueMax, 10 * valueMax, 12⟩

/-- A frame of the calibration window with a spot. -/
def frameOf (valueMax : ℕ) : Frame ℚ := ⟨⟨996, 672, 600, 600⟩, valueMax, 3, some [spotOf valueMax]⟩

/-- The states before the tuning. -/
def beforeSearch : Tuning := ⟨0, 10, 0⟩

/-- The state before the tuning of the tracking. -/
def beforeTuning : Tuned ℚ := ⟨0, 100, spotOf 0⟩

/-- A spot gets brighter, and every third frame is lost. -/
def brightening (n : ℕ) : Option (Frame ℚ) :=
  if n % 3 = 1 then none else some (frameOf (120 + 60 * n))

theorem tuning_returns_iff_brightening :
    ((∃ fuel, (findExposureRange brightening fuel beforeSearch).isSome)
      ↔ ¬ ∃ n, AtMinimum brightening 0 n ∧ Stuck brightening n) ∧
    ((∃ fuel, (autoTuneExposure brightening fuel 100000 beforeTuning).isSome)
      ↔ ¬ TuningOverflows brightening 100000 100 0) :=
  tuning_returns_iff brightening beforeSearch beforeTuning 100000 (by decide)

/-- A spot that is bright enough in the first frame, and too dark in each later one. -/
def dimming (n : ℕ) : Option (Frame ℚ) := some (frameOf (if n = 0 then 150 else 80))

/-- At the minimum exposure the search goes on for ever. -/
theorem not_returns_dimming : ¬ ∃ fuel, (findExposureRange dimming fuel beforeSearch).isSome := by
  have hstuck : Stuck dimming 0 := by
    refine ⟨⟨frameOf 150, rfl, by decide⟩, ⟨spotOf 80, rfl, by decide⟩, ?_⟩
    rintro k hk ⟨spot, hspot, hbright⟩
    have hlater : dimming k = some (frameOf 80) := by
      unfold dimming
      rw [if_neg (by omega)]
    unfold spotAt at hspot
    rw [hlater] at hspot
    obtain rfl := Option.some.inj hspot
    exact absurd hbright (by decide)
  rintro ⟨fuel, hreturns⟩
  unfold findExposureRange at hreturns
  rw [attempt_eq_none rfl hstuck] at hreturns
  exact absurd hreturns Bool.false_ne_true

end ClickA.Tracking
