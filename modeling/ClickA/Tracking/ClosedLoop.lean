import ClickA.Calibration.Run
import ClickA.Machine.Contraction
import ClickA.Tracking.Control

/-!
# The closed loop on calibrated optics

The optics puts the spot of the laser where an affine map sends it to the angles of the mirror. A
calibration whose points lie on the map finds its linear part, and `control` then moves the mirror
to the angles at which the spot is at the set point: the error never changes its sign, and it
shrinks by a part in each call.

## Main definitions

* `Affine.linear`: the linear part of an affine map
* `Follows`: a call sees the spot where the optics puts it
* `rate`: the part of the error that a call takes away at least

## Main results

* `sensitivity_eq_linear`: a calibration finds the linear part
* `scaled_axis`: what a call makes of the error of an axis
* `scaled_of_calibrated`: what a run of calls behind a calibration does
-/

namespace ClickA.Tracking

open Calibration LeastSquares Machine

variable {K : Type} [Field K]

/-- The linear part of an affine map. -/
def Affine.linear (t : Affine K) : Matrix K := ⟨t.a00, t.a01, t.a10, t.a11⟩

/-! ## The calibration -/

section Calibrated

variable {t : Affine K} {points : List (Pair K)}

/-- The points lie on an affine map. -/
def OnMap (t : Affine K) (points : List (Pair K)) : Prop :=
  ∀ p ∈ points, t.affineTransformX p.x0 p.y0 = p.x1 ∧ t.affineTransformY p.x0 p.y0 = p.y1

instance [DecidableEq K] (t : Affine K) (points : List (Pair K)) : Decidable (OnMap t points) :=
  inferInstanceAs (Decidable (∀ p ∈ points, _ ∧ _))

/-- The differences of points on an affine map lie on its linear part. -/
theorem deltas_linear (h : OnMap t points) {p : Pair K} (hp : p ∈ deltas points) :
    t.a00 * p.x0 + t.a01 * p.y0 = p.x1 ∧ t.a10 * p.x0 + t.a11 * p.y0 = p.y1 := by
  obtain ⟨i, hi, rfl⟩ := List.mem_map.mp hp
  have hrange := List.mem_range'_1.mp hi
  have hmem {j : ℕ} (hj : j < points.length) : points.getD j ⟨0, 0, 0, 0⟩ ∈ points := by
    rw [List.getD_eq_getElem?_getD, List.getElem?_eq_getElem hj, Option.getD_some]
    exact List.getElem_mem hj
  obtain ⟨hx, hy⟩ := h _ (hmem (show i < points.length by omega))
  obtain ⟨hx', hy'⟩ := h _ (hmem (show i - 1 < points.length by omega))
  simp only [Affine.affineTransformX, Affine.affineTransformY] at hx hy hx' hy'
  constructor
  · simp only [Pair.delta]
    linear_combination hx - hx'
  · simp only [Pair.delta]
    linear_combination hy - hy'

/-- The sensitivity matrix of points on an affine map is its linear part. -/
theorem sensitivity_eq_linear (h : OnMap t points) (hd : (sums (deltas points)).d ≠ 0) :
    calculateSensitivityMatrix points = Affine.linear t := by
  obtain ⟨⟨hx0, hy0⟩, hx1, hy1⟩ := product_spec _ hd
  rw [d_sums] at hd
  have hdot (w : Pair K → K) :
      dot (deltas points) Pair.x1 w
        = t.a00 * dot (deltas points) Pair.x0 w + t.a01 * dot (deltas points) Pair.y0 w ∧
      dot (deltas points) Pair.y1 w
        = t.a10 * dot (deltas points) Pair.x0 w + t.a11 * dot (deltas points) Pair.y0 w := by
    constructor
    · rw [dot_congr _ _ _ w (fun p hp => (deltas_linear h hp).1.symm) fun _ _ => rfl, dot_add_left,
        dot_mul_left, dot_mul_left]
    · rw [dot_congr _ _ _ w (fun p hp => (deltas_linear h hp).2.symm) fun _ _ => rfl, dot_add_left,
        dot_mul_left, dot_mul_left]
  unfold calculateSensitivityMatrix
  generalize (sums (deltas points)).product = a at hx0 hy0 hx1 hy1 ⊢
  rw [sums_eq] at hx0 hy0 hx1 hy1
  simp only at hx0 hy0 hx1 hy1
  rw [(hdot _).1] at hx0 hy0
  rw [(hdot _).2] at hx1 hy1
  -- the rows solve the same normal equations as those of the map
  obtain ⟨h0, h1⟩ := eq_of_normal _ _ _ hd hx0 hy0
  obtain ⟨h2, h3⟩ := eq_of_normal _ _ _ hd hx1 hy1
  cases a
  exact (Matrix.mk.injEq ..).mpr ⟨h0, h1, h2, h3⟩

end Calibrated

/-! ## An axis -/

variable [LinearOrder K]

/-- The part of the error that a call takes away at least, when the last one was `tau` before. -/
def rate (tau : K) : K := min (calibFsmMaxDelta / (2 : ℕ)) (tau * trackControlI)

variable [IsStrictOrderedRing K] {action target ts tau : K}

/-- An action that stays in its range is not changed by the anti-windup. -/
theorem antiWindup_eq {d : K} (hlow : -1 ≤ action + d) (hhigh : action + d ≤ 1) :
    antiWindup action d = action + d := by
  rcases antiWindup_cases action d with ⟨h, -⟩ | ⟨h, -⟩ | ⟨-, -, h⟩
  · exact absurd hhigh (not_le.mpr h)
  · exact absurd hlow (not_le.mpr h)
  · exact h

omit [IsStrictOrderedRing K] in
theorem rate_le_half (tau : K) : rate tau ≤ calibFsmMaxDelta / 2 := min_le_left _ _

theorem rate_nonneg (htau : 0 < tau) : 0 ≤ rate tau :=
  le_min (div_nonneg calibFsmMaxDelta_pos.le zero_le_two)
    (mul_nonneg htau.le (by norm_num [trackControlI]))

/-- The limited delta takes at least the part `rate` of the error away, and at most all of it. -/
theorem limit_between {e : K} (he : |e| ≤ 2) (htau : 0 < tau) (hts : tau ≤ ts)
    (hts' : ts ≤ trackControlMaxTs) :
    ∃ part, rate tau ≤ part ∧ part ≤ 1 ∧ limit (e * ts * trackControlI) = part * e := by
  have hrate : rate tau ≤ ts * trackControlI :=
    (min_le_right _ _).trans (mul_le_mul_of_nonneg_right hts (by norm_num [trackControlI]))
  have hwhole : ts * trackControlI ≤ 1 := by
    calc ts * trackControlI ≤ trackControlMaxTs * trackControlI :=
          mul_le_mul_of_nonneg_right hts' (by norm_num [trackControlI])
      _ ≤ 1 := by norm_num [trackControlMaxTs, trackControlI]
  unfold limit
  split_ifs with hlarge
  · have hpos : (0 : K) < calibFsmMaxDelta := calibFsmMaxDelta_pos
    have hepos : 0 < e := by
      by_contra hneg
      have hle : e * ts * trackControlI ≤ 0 := by
        rw [mul_assoc]
        exact mul_nonpos_of_nonpos_of_nonneg (not_lt.mp hneg)
          (mul_nonneg (htau.le.trans hts) (by norm_num [trackControlI]))
      linarith
    rw [abs_of_pos hepos] at he
    refine ⟨calibFsmMaxDelta / e, ?_, ?_, (div_mul_cancel₀ _ hepos.ne').symm⟩
    · exact (rate_le_half tau).trans (div_le_div_of_nonneg_left hpos.le hepos he)
    · rw [div_le_one hepos]
      calc calibFsmMaxDelta ≤ e * (ts * trackControlI) := by
            rw [← mul_assoc]
            exact hlarge.le
        _ ≤ e * 1 := mul_le_mul_of_nonneg_left hwhole hepos.le
        _ = e := mul_one e
  · exact ⟨ts * trackControlI, hrate, hwhole, by ring⟩

/-- The error of an axis becomes a part of it: it neither grows nor changes its sign. -/
theorem scaled_axis (haction : Saturated action) (htarget : Saturated target) (htau : 0 < tau)
    (hts : tau ≤ ts) (hts' : ts ≤ trackControlMaxTs) :
    Scaled (1 - rate tau) (target - action)
      (target - antiWindup action (limit ((target - action) * ts * trackControlI))) := by
  obtain ⟨hlow, hhigh⟩ := haction
  obtain ⟨hlow', hhigh'⟩ := htarget
  have habs : |target - action| ≤ 2 := abs_le.mpr ⟨by linarith, by linarith⟩
  obtain ⟨part, hpart, hone, heq⟩ := limit_between habs htau hts hts'
  have hpart0 : 0 ≤ part := (rate_nonneg htau).trans hpart
  have hnew : action + part * (target - action) = (1 - part) * action + part * target := by ring
  have hlow'' : -1 ≤ action + part * (target - action) := by
    rw [hnew]
    nlinarith only [hlow, hlow', hpart0, hone]
  have hhigh'' : action + part * (target - action) ≤ 1 := by
    rw [hnew]
    nlinarith only [hhigh, hhigh', hpart0, hone]
  rw [heq, antiWindup_eq hlow'' hhigh'']
  exact ⟨1 - part, by linarith, by linarith, by ring⟩

/-! ## Runs -/

/-- A call of the loop: the calibration and the set point are given, the spot is where the optics
puts it, and the last call was `tau` before at least. -/
structure Follows (t : Affine K) (sensitivity : Matrix K) (spX spY tau : K) (s : Actions K)
    (c : Call K) : Prop where
  calibration : c.calibration = sensitivity
  spX : c.spX = spX
  spY : c.spY = spY
  seenX : t.affineTransformX c.x c.y = s.actionX
  seenY : t.affineTransformY c.x c.y = s.actionY
  later : tau ≤ c.now - s.lastUpdate

omit [IsStrictOrderedRing K] in
/-- The time that a call counts. -/
theorem elapsed_between {s : Actions K} {c : Call K} (htau : tau ≤ trackControlMaxTs)
    (h : tau ≤ c.now - s.lastUpdate) :
    tau ≤ s.elapsed c ∧ s.elapsed c ≤ trackControlMaxTs := by
  unfold Actions.elapsed
  dsimp only
  split_ifs with hlong
  · exact ⟨htau, le_refl _⟩
  · exact ⟨h, not_lt.mp hlong⟩

variable {t : Affine K} {spX spY : K} {s s' : Actions K} {c : Call K}

omit [LinearOrder K] [IsStrictOrderedRing K] in
/-- The error that a call computes is what the angles lack. -/
theorem transform_linear (spX spY : K) (h : t.affineTransformX c.x c.y = s.actionX)
    (h' : t.affineTransformY c.x c.y = s.actionY) :
    (Affine.linear t).transformDx (spX - c.x) (spY - c.y)
      = t.affineTransformX spX spY - s.actionX ∧
    (Affine.linear t).transformDy (spX - c.x) (spY - c.y)
      = t.affineTransformY spX spY - s.actionY := by
  rw [← h, ← h']
  simp only [Affine.linear, Matrix.transformDx, Matrix.transformDy, Affine.affineTransformX,
    Affine.affineTransformY]
  exact ⟨by ring, by ring⟩

/-- A call scales the errors of both axes down. -/
theorem scaled_control (hs : InRange s) (hspX : Saturated (t.affineTransformX spX spY))
    (hspY : Saturated (t.affineTransformY spX spY)) (htau : 0 < tau)
    (htau' : tau ≤ trackControlMaxTs) (h : Follows t (Affine.linear t) spX spY tau s c) :
    Scaled (1 - rate tau) (t.affineTransformX spX spY - s.actionX)
        (t.affineTransformX spX spY - (control s c).actionX) ∧
      Scaled (1 - rate tau) (t.affineTransformY spX spY - s.actionY)
        (t.affineTransformY spX spY - (control s c).actionY) := by
  obtain ⟨hts, hts'⟩ := elapsed_between htau' h.later
  obtain ⟨hx, hy⟩ := transform_linear spX spY h.seenX h.seenY
  unfold control
  dsimp only
  rw [h.calibration, h.spX, h.spY, hx, hy]
  exact ⟨scaled_axis hs.1 hspX htau hts hts', scaled_axis hs.2 hspY htau hts hts'⟩

/-- **Behind a calibration whose points lie on an affine map, a run of calls that see the spot where
the map puts it moves both angles to those of the set point: in each call the errors lose the part
`rate` at least, and they never change their signs.** -/
theorem scaled_of_calibrated {frames : ℕ → Option (Frame K)} {pattern : ℕ → K × K} {fuel : ℕ}
    {uncalibrated calibrated : Calibrated K} {calls : List (Call K)}
    (hrun : Calibration.run frames pattern fuel uncalibrated = some (true, calibrated))
    (hoptics : OnMap t calibrated.points) (hne : ¬ Parallel (deltas calibrated.points))
    (hspX : Saturated (t.affineTransformX spX spY)) (hspY : Saturated (t.affineTransformY spX spY))
    (htau : 0 < tau) (htau' : tau ≤ trackControlMaxTs) (hs : InRange s)
    (hcalls : Along step (Follows t calibrated.sensitivity spX spY tau) s calls)
    (hend : Machine.run step s calls = some s') :
    Scaled ((1 - rate tau) ^ calls.length) (t.affineTransformX spX spY - s.actionX)
        (t.affineTransformX spX spY - s'.actionX) ∧
      Scaled ((1 - rate tau) ^ calls.length) (t.affineTransformY spX spY - s.actionY)
        (t.affineTransformY spX spY - s'.actionY) := by
  obtain ⟨-, -, -, hsensitivity, -⟩ := run_spec hrun
  have hlinear : calibrated.sensitivity = Affine.linear t := by
    rw [hsensitivity]
    exact sensitivity_eq_linear hoptics fun hzero => hne ((d_eq_zero_iff_parallel _).mp hzero)
  rw [hlinear] at hcalls
  have hkeeps (s : Actions K) (c : Call K) (s' : Actions K) (_ : InRange s)
      (_ : Follows t (Affine.linear t) spX spY tau s c) (hstep : step s c = some s') :
      InRange s' := by
    obtain rfl := Option.some.inj hstep
    exact inRange_control s c
  constructor
  · refine scaled_run (fun s => t.affineTransformX spX spY - s.actionX) hkeeps
      (fun s c s' hs hc hstep => ?_) hs hcalls hend
    obtain rfl := Option.some.inj hstep
    exact (scaled_control hs hspX hspY htau htau' hc).1
  · refine scaled_run (fun s => t.affineTransformY spX spY - s.actionY) hkeeps
      (fun s c s' hs hc hstep => ?_) hs hcalls hend
    obtain rfl := Option.some.inj hstep
    exact (scaled_control hs hspX hspY htau htau' hc).2

/-! ## A run -/

/-- The frames of a calibration in which the spot follows the mirror. -/
def following (n : ℕ) : Option (Frame ℚ) :=
  some (spotFrame ((n - 2) % 10 : ℕ) ((n - 2) / 10 : ℕ))

/-- The optics of these frames. -/
def optics : Affine ℚ := ⟨1 / 100, 0, 0, 1 / 100, -1146 / 100, -822 / 100⟩

/-- A call with a set point at a distance of fifty pixels. -/
def callAt (sensitivity : Matrix ℚ) : Call ℚ := ⟨1 / 20, sensitivity, 1146, 822, 1196, 822⟩

theorem scaled_of_calibrated_following : ∃ calibrated s',
    Calibration.run following square 1 uncalibrated = some (true, calibrated) ∧
    Machine.run step start [callAt calibrated.sensitivity] = some s' ∧
    Scaled ((1 - rate (1 / 20)) ^ [callAt calibrated.sensitivity].length)
        (optics.affineTransformX 1196 822 - start.actionX)
        (optics.affineTransformX 1196 822 - s'.actionX) ∧
      Scaled ((1 - rate (1 / 20)) ^ [callAt calibrated.sensitivity].length)
        (optics.affineTransformY 1196 822 - start.actionY)
        (optics.affineTransformY 1196 822 - s'.actionY) := by
  have hresult : (Calibration.run following square 1 uncalibrated).map (fun r =>
      (r.1, decide (OnMap optics r.2.points), decide ((sums (deltas r.2.points)).d = 0))) =
          some (true, true, false) := by
    decide +kernel
  obtain ⟨⟨success, calibrated⟩, hrun, hvalues⟩ := Option.map_eq_some_iff.mp hresult
  obtain ⟨rfl, hvalues⟩ := Prod.mk.inj hvalues
  obtain ⟨hoptics, hd⟩ := Prod.mk.inj hvalues
  have hne : ¬ Parallel (deltas calibrated.points) := fun h =>
    of_decide_eq_false hd ((d_eq_zero_iff_parallel _).mpr h)
  have hseen : optics.affineTransformX 1146 822 = start.actionX ∧
      optics.affineTransformY 1146 822 = start.actionY := by
    norm_num [Affine.affineTransformX, Affine.affineTransformY, optics, start]
  have hcalls : Along step (Follows optics calibrated.sensitivity 1196 822 (1 / 20)) start
      [callAt calibrated.sensitivity] := by
    refine ⟨⟨rfl, rfl, rfl, hseen.1, hseen.2, ?_⟩, fun _ _ => trivial⟩
    norm_num [callAt, start]
  have hinside : Saturated (optics.affineTransformX 1196 822) ∧
      Saturated (optics.affineTransformY 1196 822) := by
    norm_num [Saturated, Affine.affineTransformX, Affine.affineTransformY, optics]
  have hpossible : ∀ (s : Actions ℚ) (c : Call ℚ), (step s c).isSome := fun _ _ => rfl
  obtain ⟨s', hend⟩ := Option.isSome_iff_exists.mp
    (isSome_run hpossible start [callAt calibrated.sensitivity])
  exact ⟨calibrated, s', hrun, hend, scaled_of_calibrated hrun (of_decide_eq_true hoptics) hne
    hinside.1 hinside.2 (by norm_num) (by norm_num [trackControlMaxTs])
    (by simp [InRange, Saturated, start]) hcalls hend⟩

end ClickA.Tracking
