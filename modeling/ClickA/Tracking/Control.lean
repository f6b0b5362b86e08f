import ClickA.Calibration.Affine
import ClickA.Machine.Run
import Mathlib.Algebra.Order.Group.Abs

/-!
# The closed loop

`Tracking::control` of `tracking.cpp`: the error on the detector is transformed to the mirror,
integrated and added to the action on each axis. The arithmetic is exact here.

## Main definitions

* `Actions`: the actions
* `control`: the function
* `Bounded`: what a call must leave
* `Slow`: the integral delta of a call is not below the limit

## Main results

* `bounded_iff`: a run of calls is bounded if and only if each is slow
-/

namespace ClickA.Tracking

open Calibration Machine

variable {K : Type} [Field K] [LinearOrder K]

/-! ## The code -/

/-- `CALIB_FSM_MAX_DELTA`. -/
def calibFsmMaxDelta : K := 3 / 1000

/-- `TRACK_CONTROL_I`. -/
def trackControlI : K := 8

/-- `TRACK_CONTROL_MAX_TS`. -/
def trackControlMaxTs : K := 5 / 100

/-- The fields of `Tracking` that the loop uses, and the angles that the mirror was given last. -/
structure Actions (K : Type) where
  actionX : K
  actionY : K
  lastUpdate : K
  angles : K × K
deriving Repr

/-- A call of `control`: its arguments, the time, and the sensitivity matrix of the calibration. -/
structure Call (K : Type) where
  now : K
  calibration : Matrix K
  x : K
  y : K
  spX : K
  spY : K

/-- `Ts`. -/
def Actions.elapsed (s : Actions K) (c : Call K) : K :=
  let diff := c.now - s.lastUpdate
  if diff > trackControlMaxTs then trackControlMaxTs else diff

/-- The limit of an integral delta. -/
def limit (d : K) : K := if d > calibFsmMaxDelta then calibFsmMaxDelta else d

/-- The anti-windup of an axis. -/
def antiWindup (action d : K) : K :=
  if |action + d| > 1 then
    if action + d > 1 then 1
    else if action + d < -1 then -1
    else action
  else action + d

/-- `control`. -/
def control (s : Actions K) (c : Call K) : Actions K :=
  let ts := s.elapsed c
  let ex := c.calibration.transformDx (c.spX - c.x) (c.spY - c.y)
  let ey := c.calibration.transformDy (c.spX - c.x) (c.spY - c.y)
  let dxFSM := limit (ex * ts * trackControlI)
  let dyFSM := limit (ey * ts * trackControlI)
  let actionX := antiWindup s.actionX dxFSM
  let actionY := antiWindup s.actionY dyFSM
  { actionX, actionY, angles := (actionX, actionY), lastUpdate := c.now }

/-- A call as a step. -/
def step (s : Actions K) (c : Call K) : Option (Actions K) := some (control s c)

/-! ## One axis -/

/-- An action is in its range. -/
def Saturated (action : K) : Prop := -1 ≤ action ∧ action ≤ 1

variable [IsStrictOrderedRing K] {action d : K}

omit [IsStrictOrderedRing K] in
theorem limit_le : limit d ≤ calibFsmMaxDelta := by
  unfold limit
  split
  · exact le_refl _
  · exact not_lt.mp ‹_›

theorem calibFsmMaxDelta_pos : (0 : K) < calibFsmMaxDelta := by
  unfold calibFsmMaxDelta
  positivity

/-- The three results of the anti-windup. -/
theorem antiWindup_cases (action d : K) :
    (1 < action + d ∧ antiWindup action d = 1) ∨ (action + d < -1 ∧ antiWindup action d = -1) ∨
      (-1 ≤ action + d ∧ action + d ≤ 1 ∧ antiWindup action d = action + d) := by
  unfold antiWindup
  rcases lt_or_ge 1 (action + d) with hhigh | hhigh
  · left
    rw [if_pos (lt_of_lt_of_le hhigh (le_abs_self _)), if_pos hhigh]
    exact ⟨hhigh, rfl⟩
  rcases lt_or_ge (action + d) (-1) with hlow | hlow
  · right
    left
    have habs : |action + d| > 1 := lt_abs.mpr (Or.inr (lt_neg_of_lt_neg hlow))
    rw [if_pos habs, if_neg (not_lt.mpr hhigh), if_pos hlow]
    exact ⟨hlow, rfl⟩
  · right
    right
    rw [if_neg (not_lt.mpr (abs_le.mpr ⟨hlow, hhigh⟩))]
    exact ⟨hlow, hhigh, rfl⟩

theorem saturated_antiWindup (action d : K) : Saturated (antiWindup action d) := by
  rcases antiWindup_cases action d with ⟨-, h⟩ | ⟨-, h⟩ | ⟨hlow, hhigh, h⟩
  · rw [h]
    exact ⟨by linarith, le_refl _⟩
  · rw [h]
    exact ⟨le_refl _, by linarith⟩
  · rw [h]
    exact ⟨hlow, hhigh⟩

/-- The change of an action is in the limit if and only if the delta is not below the limit, or the
action is at the lower end. -/
theorem change_le_iff (haction : Saturated action) :
    |antiWindup action (limit d) - action| ≤ calibFsmMaxDelta
      ↔ -calibFsmMaxDelta ≤ d ∨ action ≤ -1 + calibFsmMaxDelta := by
  have hpos : (0 : K) < calibFsmMaxDelta := calibFsmMaxDelta_pos
  have hle : limit d ≤ calibFsmMaxDelta := limit_le
  have hlow : -calibFsmMaxDelta ≤ d ↔ -calibFsmMaxDelta ≤ limit d := by
    unfold limit
    split
    · exact iff_of_true (by linarith) (by linarith)
    · exact Iff.rfl
  rw [hlow, abs_le]
  obtain ⟨hmin, hmax⟩ := haction
  rcases antiWindup_cases action (limit d) with ⟨hsum, h⟩ | ⟨hsum, h⟩ | ⟨hge, hsum, h⟩
  · rw [h]
    exact iff_of_true ⟨by linarith, by linarith⟩ (Or.inl (by linarith))
  · rw [h]
    constructor
    · rintro ⟨hchange, -⟩
      right
      linarith
    · rintro (hdelta | hend)
      · exact ⟨by linarith, by linarith⟩
      · exact ⟨by linarith, by linarith⟩
  · rw [h, add_sub_cancel_left]
    constructor
    · rintro ⟨hchange, -⟩
      exact Or.inl hchange
    · rintro (hdelta | hend)
      · exact ⟨hdelta, hle⟩
      · exact ⟨by linarith, hle⟩

/-! ## Runs -/

/-- Behind a call both actions are in their range and have changed by at most
`CALIB_FSM_MAX_DELTA`. -/
def Bounded (s : Actions K) (c : Call K) : Prop :=
  Saturated (control s c).actionX ∧ Saturated (control s c).actionY ∧
    |(control s c).actionX - s.actionX| ≤ calibFsmMaxDelta ∧
    |(control s c).actionY - s.actionY| ≤ calibFsmMaxDelta

/-- The error of an axis in the elapsed time is not below the limit, or the action is at the lower
end. -/
def NotBelow (action e ts : K) : Prop :=
  -calibFsmMaxDelta ≤ e * ts * trackControlI ∨ action ≤ -1 + calibFsmMaxDelta

/-- No axis moves down too fast. -/
def Slow (s : Actions K) (c : Call K) : Prop :=
  NotBelow s.actionX (c.calibration.transformDx (c.spX - c.x) (c.spY - c.y)) (s.elapsed c) ∧
  NotBelow s.actionY (c.calibration.transformDy (c.spX - c.x) (c.spY - c.y)) (s.elapsed c)

/-- Both actions are in their range. -/
def InRange (s : Actions K) : Prop := Saturated s.actionX ∧ Saturated s.actionY

theorem inRange_control (s : Actions K) (c : Call K) : InRange (control s c) :=
  ⟨saturated_antiWindup _ _, saturated_antiWindup _ _⟩

/-- One call is bounded if and only if it is slow. -/
theorem bounded_call_iff {s : Actions K} (hs : InRange s) (c : Call K) :
    Bounded s c ↔ Slow s c := by
  constructor
  · rintro ⟨-, -, hx, hy⟩
    exact ⟨(change_le_iff hs.1).mp hx, (change_le_iff hs.2).mp hy⟩
  · rintro ⟨hx, hy⟩
    exact ⟨(inRange_control s c).1, (inRange_control s c).2, (change_le_iff hs.1).mpr hx,
      (change_le_iff hs.2).mpr hy⟩

/-- From actions in their range, each call of a run is bounded if and only if each is slow. -/
theorem bounded_iff (s : Actions K) (calls : List (Call K)) (hs : InRange s) :
    Along step Bounded s calls ↔ Along step Slow s calls := by
  refine along_congr (?_ : ∀ s c s', InRange s → step s c = some s' → InRange s') ?_ hs
    (isSome_run (fun _ _ => rfl) s calls)
  · rintro s c s' - hstep
    obtain rfl := Option.some.inj hstep
    exact inRange_control s c
  · intro s c s' hs hstep
    exact bounded_call_iff hs c

/-- A call with the error `e` on the first axis, behind the longest time. -/
def callX (e : ℚ) : Call ℚ where
  now := trackControlMaxTs
  calibration := ⟨1, 0, 0, 1⟩
  x := 0
  y := 0
  spX := e
  spY := 0

/-- The actions at the start. -/
def start : Actions ℚ := ⟨0, 0, 0, (0, 0)⟩

/-- Three calls, with errors on both axes. -/
def threeCalls : List (Call ℚ) :=
  [callX 1, { callX (1 / 100) with now := 3 / 50, spY := -1 / 200 },
    { callX (-1 / 50) with now := 1 / 4, calibration := ⟨2, 1, 1, 2⟩, x := 1 / 10 }]

theorem bounded_iff_threeCalls : InRange start ∧
    (Along step Bounded start threeCalls ↔ Along step Slow start threeCalls) :=
  ⟨by simp [InRange, Saturated, start], bounded_iff start threeCalls
      (by simp [InRange, Saturated, start])⟩

/-- A large error downwards is not. -/
theorem not_bounded_down :
    InRange start ∧ ¬ Along step Bounded start [callX (-1)] := by
  refine ⟨by simp [InRange, Saturated, start], fun h => ?_⟩
  have hchange := h.1.2.2.1
  revert hchange
  decide +kernel

end ClickA.Tracking
