import Mathlib.Algebra.BigOperators.Group.List.Basic
import Mathlib.Algebra.Order.Field.Basic
import Mathlib.Tactic.LinearCombination
import Mathlib.Tactic.FieldSimp
import Mathlib.Tactic.Linarith
import Mathlib.Tactic.Ring

/-!
# Least squares over a list

Functions on the elements of a list, with the sum of their products as an inner product. A fit whose
residual is orthogonal to the directions in which it may be changed has the least sum of squares.
Two functions are dependent if and only if their Gram determinant is zero.

## Main definitions

* `dot`: the inner product
* `mean`, `centred`: the mean of a function, and the function around it
* `gram`: the Gram determinant of two functions
* `error`: the sum of the squared errors of a plane over two functions

## Main results

* `dot_residual_le`: an orthogonal residual is the shortest one
* `gram_eq_zero_iff`: the Gram determinant is zero if and only if the functions are dependent
* `error_least`: the normal equations give a plane with the least error
* `eq_of_plane`: points on one plane are fitted by that plane only
-/

namespace LeastSquares

variable {ι κ K : Type} [Field K] (l : List ι) (f f' g u v z : ι → K)

/-! ## The inner product -/

/-- The sum of the products. -/
def dot (l : List ι) (f g : ι → K) : K := (l.map fun i => f i * g i).sum

@[simp] theorem dot_nil : dot [] f g = 0 := rfl

@[simp] theorem dot_cons (i : ι) : dot (i :: l) f g = f i * g i + dot l f g := by
  simp [dot]

theorem dot_comm : dot l f g = dot l g f := by
  simp only [dot, mul_comm]

/-- The functions matter on the list only. -/
theorem dot_congr {g' : ι → K} (hf : ∀ i ∈ l, f i = f' i) (hg : ∀ i ∈ l, g i = g' i) :
    dot l f g = dot l f' g' := by
  unfold dot
  apply congrArg List.sum
  apply List.map_congr_left
  intro i hi
  rw [hf i hi, hg i hi]

theorem dot_map (e : κ → ι) (l : List κ) : dot (l.map e) f g = dot l (f ∘ e) (g ∘ e) := by
  simp only [dot, List.map_map]
  rfl

theorem dot_add_left : dot l (fun i => f i + f' i) g = dot l f g + dot l f' g := by
  induction l with
  | nil => simp
  | cons i l ih =>
    simp only [dot_cons, ih]
    ring

theorem dot_mul_left (c : K) : dot l (fun i => c * f i) g = c * dot l f g := by
  induction l with
  | nil => simp
  | cons i l ih =>
    simp only [dot_cons, ih]
    ring

theorem dot_sub_left : dot l (fun i => f i - f' i) g = dot l f g - dot l f' g := by
  induction l with
  | nil => simp
  | cons i l ih =>
    simp only [dot_cons, ih]
    ring

theorem dot_add_right : dot l g (fun i => f i + f' i) = dot l g f + dot l g f' := by
  rw [dot_comm, dot_add_left, dot_comm l f, dot_comm l f']

theorem dot_mul_right (c : K) : dot l g (fun i => c * f i) = c * dot l g f := by
  rw [dot_comm, dot_mul_left, dot_comm]

/-- With a constant, the sum. -/
theorem dot_const_right (c : K) : dot l f (fun _ => c) = c * (l.map f).sum := by
  induction l with
  | nil => simp
  | cons i l ih =>
    simp only [dot_cons, ih, List.map_cons, List.sum_cons]
    ring

/-! ## Means -/

theorem sum_sub (c : K) : (l.map fun i => f i - c).sum = (l.map f).sum - l.length * c := by
  induction l with
  | nil => simp
  | cons i l ih =>
    simp only [List.map_cons, List.sum_cons, List.length_cons, Nat.cast_succ, ih]
    ring

/-- The mean of a function on the list. -/
def mean (l : List ι) (f : ι → K) : K := (l.map f).sum / l.length

/-- A function around its mean. -/
def centred (l : List ι) (f : ι → K) (i : ι) : K := f i - mean l f

variable {l} in
/-- Around the mean, the sum is zero. -/
theorem sum_centred (hne : (l.length : K) ≠ 0) : (l.map (centred l f)).sum = 0 := by
  have hsum : (l.map (centred l f)).sum = (l.map f).sum - l.length * mean l f := sum_sub l f _
  rw [hsum, mean, mul_div_cancel₀ _ hne, sub_self]

/-- The mean of points on a plane is on the plane. -/
theorem mean_plane {u v z : ι → K} {a b t : K} (hne : (l.length : K) ≠ 0)
    (hplane : ∀ i ∈ l, a * u i + b * v i + t = z i) :
    mean l z = a * mean l u + b * mean l v + t := by
  have hsum : (l.map z).sum = a * (l.map u).sum + b * (l.map v).sum + l.length * t := by
    clear hne
    induction l with
    | nil => simp
    | cons i l ih =>
      have hhead := hplane i List.mem_cons_self
      have htail := ih fun j hj => hplane j (List.mem_cons_of_mem i hj)
      simp only [List.map_cons, List.sum_cons, List.length_cons, Nat.cast_succ, htail]
      linear_combination -hhead
  unfold mean
  rw [hsum]
  field_simp

/-! ## Order -/

section Order

variable [LinearOrder K] [IsStrictOrderedRing K]

theorem dot_self_nonneg : 0 ≤ dot l f f := by
  induction l with
  | nil => simp
  | cons i l ih =>
    rw [dot_cons]
    exact add_nonneg (mul_self_nonneg _) ih

/-- Only a function that is zero on the list has the square zero. -/
theorem dot_self_eq_zero : dot l f f = 0 ↔ ∀ i ∈ l, f i = 0 := by
  induction l with
  | nil => simp
  | cons i l ih =>
    rw [dot_cons, add_eq_zero_iff_of_nonneg (mul_self_nonneg _) (dot_self_nonneg l f), ih,
      mul_self_eq_zero, List.forall_mem_cons]

/-- A fit whose residual is orthogonal to a change of it is not farther than the changed one. -/
theorem dot_residual_le (h : dot l (fun i => z i - f i) (fun i => g i - f i) = 0) :
    dot l (fun i => z i - f i) (fun i => z i - f i)
      ≤ dot l (fun i => z i - g i) (fun i => z i - g i) := by
  have hexpand : dot l (fun i => z i - g i) (fun i => z i - g i)
      = dot l (fun i => z i - f i) (fun i => z i - f i)
        - 2 * dot l (fun i => z i - f i) (fun i => g i - f i)
        + dot l (fun i => g i - f i) (fun i => g i - f i) := by
    clear h
    induction l with
    | nil => simp
    | cons i l ih =>
      simp only [dot_cons, ih]
      ring
  rw [hexpand, h]
  linarith [dot_self_nonneg l fun i => g i - f i]

end Order

/-! ## The Gram determinant -/

/-- The determinant of the inner products of two functions. -/
def gram (l : List ι) (u v : ι → K) : K := dot l u u * dot l v v - dot l u v * dot l v u

/-- With a Gram determinant, no combination vanishes on the list. -/
theorem eq_zero_of_gram_ne_zero {a b : K} (hgram : gram l u v ≠ 0)
    (hzero : ∀ i ∈ l, a * u i + b * v i = 0) : a = 0 ∧ b = 0 := by
  have hdot (w : ι → K) : a * dot l u w + b * dot l v w = 0 := by
    rw [← dot_mul_left, ← dot_mul_left, ← dot_add_left,
      dot_congr l _ (fun _ => 0) w hzero fun _ _ => rfl]
    simp [dot]
  have hu := hdot u
  have hv := hdot v
  constructor
  · apply (mul_eq_zero.mp ?_).resolve_right hgram
    unfold gram
    linear_combination dot l v v * hu - dot l v u * hv
  · apply (mul_eq_zero.mp ?_).resolve_right hgram
    unfold gram
    linear_combination dot l u u * hv - dot l u v * hu

/-- With a Gram determinant, the normal equations determine the coefficients. -/
theorem eq_of_normal {a b a' b' : K} (hgram : gram l u v ≠ 0)
    (hu : a * dot l u u + b * dot l v u = a' * dot l u u + b' * dot l v u)
    (hv : a * dot l u v + b * dot l v v = a' * dot l u v + b' * dot l v v) : a = a' ∧ b = b' := by
  constructor
  · apply sub_eq_zero.mp
    apply (mul_eq_zero.mp ?_).resolve_right hgram
    unfold gram
    linear_combination dot l v v * hu - dot l v u * hv
  · apply sub_eq_zero.mp
    apply (mul_eq_zero.mp ?_).resolve_right hgram
    unfold gram
    linear_combination dot l u u * hv - dot l u v * hu

/-- The Gram determinant is zero if and only if a combination of the functions vanishes on the
list. -/
theorem gram_eq_zero_iff [LinearOrder K] [IsStrictOrderedRing K] :
    gram l u v = 0 ↔ ∃ a b : K, (a ≠ 0 ∨ b ≠ 0) ∧ ∀ i ∈ l, a * u i + b * v i = 0 := by
  constructor
  · intro hgram
    by_cases hu : dot l u u = 0
    · refine ⟨1, 0, Or.inl one_ne_zero, fun i hi => ?_⟩
      rw [(dot_self_eq_zero l u).mp hu i hi]
      simp
    -- The part of `v` orthogonal to `u` has the square zero.
    · refine ⟨dot l u v, -dot l u u, Or.inr (neg_ne_zero.mpr hu), ?_⟩
      rw [← dot_self_eq_zero l fun i => dot l u v * u i + -dot l u u * v i]
      simp only [dot_add_left, dot_add_right, dot_mul_left, dot_mul_right]
      unfold gram at hgram
      rw [dot_comm l v u] at hgram ⊢
      linear_combination dot l u u * hgram
  · rintro ⟨a, b, hne, hzero⟩
    by_contra hgram
    obtain ⟨ha, hb⟩ := eq_zero_of_gram_ne_zero l u v hgram hzero
    exact hne.elim (fun h => h ha) fun h => h hb

/-! ## Planes -/

/-- The sum of the squared errors of a plane over two functions. -/
def error (l : List ι) (u v z : ι → K) (a b t : K) : K :=
  dot l (fun i => z i - (a * u i + b * v i + t)) fun i => z i - (a * u i + b * v i + t)

section Planes

variable {l u v z} {a b : K}

/-- The error of a plane through the means is orthogonal to a direction if its centred part is. -/
theorem dot_error_centred (w : ι → K) (hw : a * dot l (centred l u) (centred l w)
      + b * dot l (centred l v) (centred l w) = dot l (centred l z) (centred l w)) :
    dot l (fun i => z i - (a * u i + b * v i + (mean l z - a * mean l u - b * mean l v)))
      (centred l w) = 0 := by
  have herror (i : ι) : z i - (a * u i + b * v i + (mean l z - a * mean l u - b * mean l v))
      = centred l z i - (a * centred l u i + b * centred l v i) := by
    simp only [centred]
    ring
  simp only [herror, dot_sub_left, dot_add_left, dot_mul_left]
  rw [hw, sub_self]

variable (hne : (l.length : K) ≠ 0)
  (hu : a * dot l (centred l u) (centred l u) + b * dot l (centred l v) (centred l u)
    = dot l (centred l z) (centred l u))
  (hv : a * dot l (centred l u) (centred l v) + b * dot l (centred l v) (centred l v)
    = dot l (centred l z) (centred l v))
include hne hu hv

/-- The normal equations give a plane with the least error. -/
theorem error_least [LinearOrder K] [IsStrictOrderedRing K] (a' b' t' : K) :
    error l u v z a b (mean l z - a * mean l u - b * mean l v) ≤ error l u v z a' b' t' := by
  apply dot_residual_le
  set t := mean l z - a * mean l u - b * mean l v with ht
  -- The change of the plane is spanned by the two centred functions and a constant.
  have hchange (i : ι) : a' * u i + b' * v i + t' - (a * u i + b * v i + t)
      = (a' - a) * centred l u i + (b' - b) * centred l v i
        + ((a' - a) * mean l u + (b' - b) * mean l v + t' - t) := by
    simp only [centred]
    ring
  have hconst (c : K) : dot l (fun i => z i - (a * u i + b * v i + t)) (fun _ => c) = 0 := by
    have hmean (i : ι) : z i - (a * u i + b * v i + t)
        = centred l z i - (a * centred l u i + b * centred l v i) := by
      simp only [centred, ht]
      ring
    have hzero (f : ι → K) : dot l (centred l f) (fun _ => c) = 0 := by
      rw [dot_const_right, sum_centred f hne, mul_zero]
    simp only [hmean, dot_sub_left, dot_add_left, dot_mul_left, hzero]
    ring
  simp only [hchange, dot_add_right, dot_mul_right, hconst]
  rw [show dot l (fun i => z i - (a * u i + b * v i + t)) (fun i => centred l u i) = 0
      from dot_error_centred u hu,
    show dot l (fun i => z i - (a * u i + b * v i + t)) (fun i => centred l v i) = 0
      from dot_error_centred v hv]
  ring

/-- Points on one plane are fitted by that plane only. -/
theorem eq_of_plane {a' b' t' : K} (hgram : gram l (centred l u) (centred l v) ≠ 0)
    (hplane : ∀ i ∈ l, a' * u i + b' * v i + t' = z i) :
    a = a' ∧ b = b' ∧ mean l z - a * mean l u - b * mean l v = t' := by
  have hmean : mean l z = a' * mean l u + b' * mean l v + t' := mean_plane l hne hplane
  have hz : ∀ i ∈ l, centred l z i = a' * centred l u i + b' * centred l v i := by
    intro i hi
    simp only [centred]
    linear_combination -hplane i hi - hmean
  have hdot (w : ι → K) : dot l (centred l z) w
      = a' * dot l (centred l u) w + b' * dot l (centred l v) w := by
    rw [dot_congr l _ _ w hz fun _ _ => rfl, dot_add_left, dot_mul_left, dot_mul_left]
  rw [hdot] at hu hv
  have ha : a = a' := by
    apply sub_eq_zero.mp
    apply (mul_eq_zero.mp ?_).resolve_right hgram
    unfold gram
    linear_combination dot l (centred l v) (centred l v) * hu
      - dot l (centred l v) (centred l u) * hv
  have hb : b = b' := by
    apply sub_eq_zero.mp
    apply (mul_eq_zero.mp ?_).resolve_right hgram
    unfold gram
    linear_combination dot l (centred l u) (centred l u) * hv
      - dot l (centred l u) (centred l v) * hu
  refine ⟨ha, hb, ?_⟩
  rw [ha, hb, hmean]
  ring

end Planes

end LeastSquares
