import ClickA.Algebra.LeastSquares

/-!
# The parameters of the calibration

`calculateAffineParameters` and `calculateSensitivityMatrix` of `calibration.cpp`: pairs of a point
on the detector and the angles of the mirror give an affine map from one to the other, and a matrix
from changes of one to changes of the other. The arithmetic is exact here.

## Main definitions

* `Pair`: a point of the detector, and one of the mirror
* `Sums`: the two matrices of sums, with the inverse of one
* `calculateAffineParameters`, `calculateSensitivityMatrix`: the functions

## Main results

* `leastSquares`: the affine map has the least sum of squared distances
-/

namespace ClickA.Calibration

open LeastSquares

variable {K : Type} [Field K]

/-! ## The code -/

/-- `Pair`: source and destination, detector to FSM. -/
@[ext]
structure Pair (K : Type) where
  x0 : K
  y0 : K
  x1 : K
  y1 : K
deriving DecidableEq, Repr

/-- A matrix of two rows, as the code indexes it. -/
structure Matrix (K : Type) where
  m0 : K
  m1 : K
  m2 : K
  m3 : K
deriving DecidableEq, Repr

/-- `YXSum` and `XXSum`. -/
structure Sums (K : Type) where
  yx : Matrix K
  xx : Matrix K

/-- A pair is added to the sums. -/
def Sums.add (s : Sums K) (p : Pair K) : Sums K where
  yx := ⟨s.yx.m0 + p.x1 * p.x0, s.yx.m1 + p.x1 * p.y0, s.yx.m2 + p.y1 * p.x0, s.yx.m3 + p.y1 * p.y0⟩
  xx := ⟨s.xx.m0 + p.x0 * p.x0, s.xx.m1 + p.x0 * p.y0, s.xx.m2 + p.y0 * p.x0, s.xx.m3 + p.y0 * p.y0⟩

/-- The sums over all pairs. -/
def sums (data : List (Pair K)) : Sums K := data.foldl Sums.add ⟨⟨0, 0, 0, 0⟩, ⟨0, 0, 0, 0⟩⟩

/-- `d`, the determinant of `XXSum`. -/
def Sums.d (s : Sums K) : K := s.xx.m0 * s.xx.m3 - s.xx.m1 * s.xx.m2

/-- `XXSumInv`. -/
def Sums.xxInv (s : Sums K) : Matrix K :=
    ⟨s.xx.m3 / s.d, -s.xx.m1 / s.d, -s.xx.m2 / s.d, s.xx.m0 / s.d⟩

/-- The product of `YXSum` and `XXSumInv`. -/
def Sums.product (s : Sums K) : Matrix K where
  m0 := s.yx.m0 * s.xxInv.m0 + s.yx.m1 * s.xxInv.m2
  m1 := s.yx.m0 * s.xxInv.m1 + s.yx.m1 * s.xxInv.m3
  m2 := s.yx.m2 * s.xxInv.m0 + s.yx.m3 * s.xxInv.m2
  m3 := s.yx.m2 * s.xxInv.m1 + s.yx.m3 * s.xxInv.m3

/-- The parameters of an affine map from the detector to the FSM. -/
@[ext]
structure Affine (K : Type) where
  a00 : K
  a01 : K
  a10 : K
  a11 : K
  t0 : K
  t1 : K
deriving DecidableEq, Repr

/-- `affineTransformX`. -/
def Affine.affineTransformX (t : Affine K) (x y : K) : K := t.a00 * x + t.a01 * y + t.t0

/-- `affineTransformY`. -/
def Affine.affineTransformY (t : Affine K) (x y : K) : K := t.a10 * x + t.a11 * y + t.t1

/-- `centers`, before the division. -/
def total (data : List (Pair K)) : Pair K :=
  data.foldl (fun c p => ⟨c.x0 + p.x0, c.y0 + p.y0, c.x1 + p.x1, c.y1 + p.y1⟩) ⟨0, 0, 0, 0⟩

/-- `centers`. -/
def centers (data : List (Pair K)) : Pair K :=
  let c := total data
  ⟨c.x0 / data.length, c.y0 / data.length, c.x1 / data.length, c.y1 / data.length⟩

/-- The centred points. -/
def centredPairs (data : List (Pair K)) : List (Pair K) :=
  let c := centers data
  data.map fun p => ⟨p.x0 - c.x0, p.y0 - c.y0, p.x1 - c.x1, p.y1 - c.y1⟩

/-- `calculateAffineParameters`: the parameters, and the points that it leaves centred. -/
def calculateAffineParameters (data : List (Pair K)) : Affine K × List (Pair K) :=
  let c := centers data
  let data := centredPairs data
  let a := (sums data).product
  ({ a00 := a.m0, a01 := a.m1, a10 := a.m2, a11 := a.m3
     t0 := c.x1 - a.m0 * c.x0 - a.m1 * c.y0
     t1 := c.y1 - a.m2 * c.x0 - a.m3 * c.y0 }, data)

/-- The difference of two measurements. -/
def Pair.delta (p q : Pair K) : Pair K := ⟨p.x0 - q.x0, p.y0 - q.y0, p.x1 - q.x1, p.y1 - q.y1⟩

/-- `deltas`, between the first measurements. -/
def deltas (data : List (Pair K)) : List (Pair K) :=
  (List.range' 1 (data.length / 4 - 1)).map fun i =>
    (data.getD i ⟨0, 0, 0, 0⟩).delta (data.getD (i - 1) ⟨0, 0, 0, 0⟩)

/-- `calculateSensitivityMatrix`. -/
def calculateSensitivityMatrix (data : List (Pair K)) : Matrix K := (sums (deltas data)).product

/-- `transformDx`. -/
def Matrix.transformDx (s : Matrix K) (x y : K) : K := s.m0 * x + s.m1 * y

/-- `transformDy`. -/
def Matrix.transformDy (s : Matrix K) (x y : K) : K := s.m2 * x + s.m3 * y

/-! ## The sums -/

theorem sums_eq (data : List (Pair K)) : sums data =
    { yx := ⟨dot data Pair.x1 Pair.x0, dot data Pair.x1 Pair.y0, dot data Pair.y1 Pair.x0,
        dot data Pair.y1 Pair.y0⟩
      xx := ⟨dot data Pair.x0 Pair.x0, dot data Pair.x0 Pair.y0, dot data Pair.y0 Pair.x0,
        dot data Pair.y0 Pair.y0⟩ } := by
  have hfold (s : Sums K) : data.foldl Sums.add s =
      { yx := ⟨s.yx.m0 + dot data Pair.x1 Pair.x0, s.yx.m1 + dot data Pair.x1 Pair.y0,
          s.yx.m2 + dot data Pair.y1 Pair.x0, s.yx.m3 + dot data Pair.y1 Pair.y0⟩
        xx := ⟨s.xx.m0 + dot data Pair.x0 Pair.x0, s.xx.m1 + dot data Pair.x0 Pair.y0,
          s.xx.m2 + dot data Pair.y0 Pair.x0, s.xx.m3 + dot data Pair.y0 Pair.y0⟩ } := by
    induction data generalizing s with
    | nil => simp
    | cons p data ih =>
      rw [List.foldl_cons, ih]
      simp only [Sums.add, dot_cons, add_assoc]
  rw [sums, hfold]
  simp

/-- The determinant is a Gram determinant. -/
theorem d_sums (data : List (Pair K)) : (sums data).d = gram data Pair.x0 Pair.y0 := by
  rw [sums_eq]
  rfl

/-- The product solves the normal equations of the rows. -/
theorem product_spec (s : Sums K) (hd : s.d ≠ 0) :
    (s.product.m0 * s.xx.m0 + s.product.m1 * s.xx.m2 = s.yx.m0 ∧
      s.product.m0 * s.xx.m1 + s.product.m1 * s.xx.m3 = s.yx.m1) ∧
    (s.product.m2 * s.xx.m0 + s.product.m3 * s.xx.m2 = s.yx.m2 ∧
      s.product.m2 * s.xx.m1 + s.product.m3 * s.xx.m3 = s.yx.m3) := by
  have hdef : s.d = s.xx.m0 * s.xx.m3 - s.xx.m1 * s.xx.m2 := rfl
  simp only [Sums.product, Sums.xxInv]
  refine ⟨⟨?_, ?_⟩, ?_, ?_⟩
  all_goals
    field_simp
    rw [hdef]
    ring

theorem total_eq (data : List (Pair K)) : total data =
    ⟨(data.map Pair.x0).sum, (data.map Pair.y0).sum, (data.map Pair.x1).sum,
      (data.map Pair.y1).sum⟩ := by
  have hfold (c : Pair K) :
      data.foldl (fun c p => ⟨c.x0 + p.x0, c.y0 + p.y0, c.x1 + p.x1, c.y1 + p.y1⟩) c =
        ⟨c.x0 + (data.map Pair.x0).sum, c.y0 + (data.map Pair.y0).sum,
          c.x1 + (data.map Pair.x1).sum, c.y1 + (data.map Pair.y1).sum⟩ := by
    induction data generalizing c with
    | nil => simp
    | cons p data ih =>
      rw [List.foldl_cons, ih]
      simp only [List.map_cons, List.sum_cons, add_assoc]
  rw [total, hfold]
  simp

/-- The centers are the means. -/
theorem centers_eq (data : List (Pair K)) :
    centers data = ⟨mean data Pair.x0, mean data Pair.y0, mean data Pair.x1,
      mean data Pair.y1⟩ := by
  simp only [centers, total_eq, mean]

theorem centredPairs_eq (data : List (Pair K)) : centredPairs data = data.map fun p =>
    ⟨centred data Pair.x0 p, centred data Pair.y0 p, centred data Pair.x1 p,
      centred data Pair.y1 p⟩ := by
  simp only [centredPairs, centers_eq, centred]

/-- The sums over the centred points. -/
theorem sums_centredPairs (data : List (Pair K)) :
    let x0 := centred data Pair.x0
    let y0 := centred data Pair.y0
    let x1 := centred data Pair.x1
    let y1 := centred data Pair.y1
    sums (centredPairs data) =
      { yx := ⟨dot data x1 x0, dot data x1 y0, dot data y1 x0, dot data y1 y0⟩
        xx := ⟨dot data x0 x0, dot data x0 y0, dot data y0 x0, dot data y0 y0⟩ } := by
  intro x0 y0 x1 y1
  rw [sums_eq, centredPairs_eq]
  simp only [dot_map]
  rfl

/-- The determinant of the centred points. -/
theorem d_centredPairs (data : List (Pair K)) :
    (sums (centredPairs data)).d = gram data (centred data Pair.x0) (centred data Pair.y0) := by
  rw [sums_centredPairs]
  rfl

/-! ## Least squares -/

/-- The sum of the squared distances between the images of the points and the points of the FSM. -/
def Affine.distances (t : Affine K) (data : List (Pair K)) : K :=
  (data.map fun p => (t.affineTransformX p.x0 p.y0 - p.x1) ^ 2
    + (t.affineTransformY p.x0 p.y0 - p.y1) ^ 2).sum

theorem distances_eq (t : Affine K) (data : List (Pair K)) : t.distances data =
    error data Pair.x0 Pair.y0 Pair.x1 t.a00 t.a01 t.t0
      + error data Pair.x0 Pair.y0 Pair.y1 t.a10 t.a11 t.t1 := by
  unfold Affine.distances error
  induction data with
  | nil => simp
  | cons p data ih =>
    rw [List.map_cons, List.sum_cons, ih, dot_cons, dot_cons]
    simp only [Affine.affineTransformX, Affine.affineTransformY]
    ring

/-- With a determinant there are points. -/
theorem length_ne_zero [CharZero K] {data : List (Pair K)} (hd : (sums (centredPairs data)).d ≠ 0) :
    (data.length : K) ≠ 0 := by
  rw [d_centredPairs] at hd
  cases data with
  | nil => simp [gram] at hd
  | cons p data => exact Nat.cast_ne_zero.mpr (Nat.succ_ne_zero _)

/-- When the matrix of the centred points has a determinant, the affine map that is calculated has
the least sum of squared distances of all affine maps; a map on which the pairs lie is recovered. -/
theorem leastSquares [LinearOrder K] [IsStrictOrderedRing K] (data : List (Pair K))
    (hd : (sums (centredPairs data)).d ≠ 0) :
    (∀ t : Affine K, (calculateAffineParameters data).1.distances data ≤ t.distances data) ∧
    ∀ t : Affine K, (∀ p ∈ data, t.affineTransformX p.x0 p.y0 = p.x1 ∧
      t.affineTransformY p.x0 p.y0 = p.y1) →
      (calculateAffineParameters data).1 = t := by
  have hlength := length_ne_zero hd
  obtain ⟨⟨hx0, hy0⟩, hx1, hy1⟩ := product_spec _ hd
  have hgram := hd
  rw [d_centredPairs] at hgram
  have hsums := sums_centredPairs data
  simp only at hsums
  have hparameters : (calculateAffineParameters data).1 = {
      a00 := (sums (centredPairs data)).product.m0, a01 := (sums (centredPairs data)).product.m1
      a10 := (sums (centredPairs data)).product.m2, a11 := (sums (centredPairs data)).product.m3
      t0 := mean data Pair.x1 - (sums (centredPairs data)).product.m0 * mean data Pair.x0
        - (sums (centredPairs data)).product.m1 * mean data Pair.y0
      t1 := mean data Pair.y1 - (sums (centredPairs data)).product.m2 * mean data Pair.x0
        - (sums (centredPairs data)).product.m3 * mean data Pair.y0 } := by
    simp only [calculateAffineParameters, centers_eq]
  generalize (sums (centredPairs data)).product = a at hx0 hy0 hx1 hy1 hparameters
  rw [hsums] at hx0 hy0 hx1 hy1
  constructor
  · intro t
    -- the errors of the two coordinates are least on their own
    rw [distances_eq, distances_eq, hparameters]
    exact add_le_add (error_least hlength hx0 hy0 t.a00 t.a01 t.t0)
      (error_least hlength hx1 hy1 t.a10 t.a11 t.t1)
  · intro t hplane
    obtain ⟨h00, h01, ht0⟩ := eq_of_plane hlength hx0 hy0 hgram fun p hp => (hplane p hp).1
    obtain ⟨h10, h11, ht1⟩ := eq_of_plane hlength hx1 hy1 hgram fun p hp => (hplane p hp).2
    rw [hparameters]
    exact Affine.ext h00 h01 h10 h11 ht0 ht1

/-- Three points that a map moves. -/
theorem leastSquares_three :
    (calculateAffineParameters [(⟨0, 0, 1, 2⟩ : Pair ℚ), ⟨1, 0, 3, 2⟩, ⟨0, 1, 1, 5⟩]).1 =
      ⟨2, 0, 0, 3, 1, 2⟩ := by
  apply (leastSquares _ ?_).2
  · simp [Affine.affineTransformX, Affine.affineTransformY]
    norm_num
  · decide +kernel

end ClickA.Calibration
