import ClickA.Calibration.Affine
import ClickA.Calibration.Exposure

/-!
# A run of the calibration

`Calibration::run` of `calibration.cpp`: the exposure is found, the mirror goes through a pattern of
a hundred points, and the spots that are seen give the parameters. The arithmetic is exact here.

## Main definitions

* `Calibrated`: the parameters, with the points that they were computed from
* `run`: the function
* `Collinear`, `Parallel`: points on a line, and differences in one direction

## Main results

* `nonsingular_iff`: the two determinants of a successful run are not zero if and only if the points
  are not collinear and the first differences not parallel
-/

namespace ClickA.Calibration

open LeastSquares

variable {K : Type} [Field K]

/-! ## The code -/

/-- What a run changes: the state of the tuning, the parameters, and the properties of the spot.
`points` are the pairs before they are centred. -/
structure Calibrated (K : Type) where
  tuning : Tuning
  sensitivity : Matrix K
  affine : Affine K
  calib : Spot K
  points : List (Pair K)

/-- The loop over the pattern: the state of the camera, the pairs, and the properties of the first
spot. -/
structure Measured (K : Type) where
  tuning : Tuning
  points : List (Pair K)
  calib : Spot K

section Code

variable (frames : ℕ → Option (Frame K)) (pattern : ℕ → K × K) (fuel : ℕ)

/-- A point of the pattern, behind the move of the mirror. -/
def measurePoint (s : Measured K) (i : ℕ) : Measured K :=
  let (frame, tuning) := s.tuning.frame frames
  match frame with
  | none => { s with tuning }
  | some frame =>
    match frame.spot with
    | none => { s with tuning }
    | some spot =>
      let spot := frame.onSensor spot
      { tuning
        points := s.points ++ [⟨spot.x, spot.y, (pattern i).1, (pattern i).2⟩]
        calib := if i = 0 then spot else s.calib }

/-- `run`. The angles of the pattern are given. -/
def run (s : Calibrated K) : Option (Bool × Calibrated K) :=
  (findExposureRange frames fuel s.tuning).map fun (success, tuning) =>
    if success then
      let tuning := { tuning with exposeUs := tuning.preferredExpo }
      let measured := (List.range 100).foldl (measurePoint frames pattern) ⟨tuning, [], s.calib⟩
      let s := { s with
        tuning := measured.tuning
        calib := measured.calib
        points := measured.points }
      if s.points.length < 50 then (false, s)
      else
        let sensitivity := calculateSensitivityMatrix s.points
        let affine := (calculateAffineParameters s.points).1
        (true, { s with sensitivity, affine })
    else (false, { s with tuning })

end Code

/-! ## The points -/

/-- The pair of a point of the pattern, with the frame behind some others. -/
def pairAt (frames : ℕ → Option (Frame K)) (pattern : ℕ → K × K) (start i : ℕ) : Option (Pair K) :=
  (frames (start + i)).bind fun frame => frame.spot.map fun spot =>
    ⟨frame.area.x + spot.x, frame.area.y + spot.y, (pattern i).1, (pattern i).2⟩

section Points

variable {frames : ℕ → Option (Frame K)} {pattern : ℕ → K × K} {fuel : ℕ} {s s' : Calibrated K}

/-- The loop takes the frames in turn, and keeps the pairs of those that show a spot. -/
theorem foldl_measurePoint (s : Measured K) (n : ℕ) :
    ((List.range n).foldl (measurePoint frames pattern) s).tuning.taken = s.tuning.taken + n ∧
    ((List.range n).foldl (measurePoint frames pattern) s).points
      = s.points ++ (List.range n).filterMap (pairAt frames pattern s.tuning.taken) := by
  induction n with
  | zero => simp
  | succ n ih =>
    obtain ⟨htaken, hpoints⟩ := ih
    rw [List.range_succ, List.foldl_concat, List.filterMap_append, ← List.append_assoc, ← hpoints]
    set t := (List.range n).foldl (measurePoint frames pattern) s
    unfold measurePoint Tuning.frame
    simp only [List.filterMap_cons, List.filterMap_nil, pairAt, ← htaken]
    cases frames t.tuning.taken with
    | none =>
      simp
      omega
    | some frame =>
      cases hspot : frame.spot with
      | none =>
        simp [hspot]
        omega
      | some spot =>
        simp [hspot, Frame.onSensor]
        omega

/-- The points of a successful run, and the parameters that are stored. -/
theorem run_spec (hrun : run frames pattern fuel s = some (true, s')) :
    ∃ start, s'.points = (List.range 100).filterMap (pairAt frames pattern start) ∧
      50 ≤ s'.points.length ∧ s'.sensitivity = (sums (deltas s'.points)).product ∧
      s'.affine = (calculateAffineParameters s'.points).1 := by
  unfold run at hrun
  obtain ⟨⟨success, tuning⟩, -, hresult⟩ := Option.map_eq_some_iff.mp hrun
  dsimp only at hresult
  cases success with
  | false => exact absurd (Prod.mk.inj hresult).1 Bool.false_ne_true
  | true =>
    rw [if_pos rfl] at hresult
    split at hresult
    · exact absurd (Prod.mk.inj hresult).1 Bool.false_ne_true
    · rename_i hlength
      obtain rfl := (Prod.mk.inj hresult).2
      refine ⟨tuning.taken, ?_, not_lt.mp hlength, rfl, rfl⟩
      exact (foldl_measurePoint _ 100).2

/-! ## The determinants -/

/-- The points on the detector lie on a line. -/
def Collinear (points : List (Pair K)) : Prop :=
  ∃ a b c : K, (a ≠ 0 ∨ b ≠ 0) ∧ ∀ p ∈ points, a * p.x0 + b * p.y0 = c

/-- The differences on the detector have one direction. -/
def Parallel (differences : List (Pair K)) : Prop :=
  ∃ a b : K, (a ≠ 0 ∨ b ≠ 0) ∧ ∀ p ∈ differences, a * p.x0 + b * p.y0 = 0

variable [LinearOrder K] [IsStrictOrderedRing K]

theorem d_eq_zero_iff_parallel (differences : List (Pair K)) :
    (sums differences).d = 0 ↔ Parallel differences := by
  rw [d_sums]
  exact gram_eq_zero_iff differences Pair.x0 Pair.y0

theorem d_eq_zero_iff_collinear {points : List (Pair K)} (hne : points ≠ []) :
    (sums (centredPairs points)).d = 0 ↔ Collinear points := by
  have hlength : (points.length : K) ≠ 0 :=
    Nat.cast_ne_zero.mpr fun hzero => hne (List.length_eq_zero_iff.mp hzero)
  rw [d_centredPairs, gram_eq_zero_iff]
  constructor
  · rintro ⟨a, b, hab, hzero⟩
    refine ⟨a, b, a * mean points Pair.x0 + b * mean points Pair.y0, hab, fun p hp => ?_⟩
    have hp := hzero p hp
    simp only [centred] at hp
    linear_combination hp
  · rintro ⟨a, b, c, hab, hline⟩
    have hmean : mean points (fun _ => (0 : K)) =
        a * mean points Pair.x0 + b * mean points Pair.y0 + -c := by
      apply mean_plane points hlength
      intro p hp
      linear_combination hline p hp
    have hzero : mean points (fun _ => (0 : K)) = 0 := by simp [mean]
    refine ⟨a, b, hab, fun p hp => ?_⟩
    simp only [centred]
    linear_combination hline p hp + hmean - hzero

/-- When a run returns true, its points are the spots of a hundred frames that show one, and its
parameters are those of the points; both determinants are not zero if and only if the differences of
the first quarter are not parallel and the points not collinear. -/
theorem nonsingular_iff (hrun : run frames pattern fuel s = some (true, s')) :
    (∃ start, s'.points = (List.range 100).filterMap (pairAt frames pattern start)) ∧
    s'.sensitivity = (sums (deltas s'.points)).product ∧
    s'.affine = (calculateAffineParameters s'.points).1 ∧
    (((sums (deltas s'.points)).d ≠ 0 ∧ (sums (centredPairs s'.points)).d ≠ 0) ↔
      ¬ Parallel (deltas s'.points) ∧ ¬ Collinear s'.points) := by
  obtain ⟨start, hpoints, hlength, hsensitivity, haffine⟩ := run_spec hrun
  refine ⟨⟨start, hpoints⟩, hsensitivity, haffine, ?_⟩
  have hne : s'.points ≠ [] := by
    intro hnil
    simp [hnil] at hlength
  rw [Ne, Ne, d_eq_zero_iff_parallel, d_eq_zero_iff_collinear hne]

end Points

/-! ## Two runs -/

/-- A frame with a spot at a place. -/
def spotFrame (x y : ℚ) : Frame ℚ :=
  ⟨⟨1146, 822, 300, 300⟩, 300, 3, some [⟨x, y, 300, 3000, 12⟩]⟩

/-- The state before a run. -/
def uncalibrated : Calibrated ℚ where
  tuning := ⟨0, 10, 0⟩
  sensitivity := ⟨0, 0, 0, 0⟩
  affine := ⟨0, 0, 0, 0, 0, 0⟩
  calib := ⟨0, 0, 0, 0, 0⟩
  points := []

/-- A pattern on a square. -/
def square (i : ℕ) : ℚ × ℚ := ((i % 10 : ℕ) / 100, (i / 10 : ℕ) / 100)

/-- The spot follows the mirror. -/
def moving (n : ℕ) : Option (Frame ℚ) := some (spotFrame (n % 10 : ℕ) (n / 10 : ℕ))

/-- The mirror is stuck. -/
def stuck (_ : ℕ) : Option (Frame ℚ) := some (spotFrame 150 150)

/-- A run in which the spot moves. -/
theorem nonsingular_iff_moving : ∃ s', run moving square 1 uncalibrated = some (true, s') ∧
    (((sums (deltas s'.points)).d ≠ 0 ∧ (sums (centredPairs s'.points)).d ≠ 0) ↔
      ¬ Parallel (deltas s'.points) ∧ ¬ Collinear s'.points) := by
  have hsuccess : (run moving square 1 uncalibrated).map Prod.fst = some true := by decide +kernel
  obtain ⟨⟨success, s'⟩, hrun, rfl⟩ := Option.map_eq_some_iff.mp hsuccess
  exact ⟨s', hrun, (nonsingular_iff hrun).2.2.2⟩

/-- A run in which the mirror is stuck returns true with two determinants that are zero. -/
theorem not_nonsingular_stuck : ∃ s', run stuck square 1 uncalibrated = some (true, s') ∧
    (sums (deltas s'.points)).d = 0 ∧ (sums (centredPairs s'.points)).d = 0 := by
  have hresult : (run stuck square 1 uncalibrated).map (fun r =>
      (r.1, (sums (deltas r.2.points)).d, (sums (centredPairs r.2.points)).d)) =
          some (true, 0, 0) := by
    decide +kernel
  obtain ⟨⟨success, s'⟩, hrun, hvalues⟩ := Option.map_eq_some_iff.mp hresult
  obtain ⟨rfl, hzero⟩ := Prod.mk.inj hvalues
  obtain ⟨hdeltas, hcentred⟩ := Prod.mk.inj hzero
  exact ⟨s', hrun, hdeltas, hcentred⟩

end ClickA.Calibration
