import Mathlib.Data.List.Basic

/-!
# Cutting a list into segments

A list is cut into segments of a given length; the last one holds the rest, and is the only one for
a short list.

## Main definitions

* `Segment n`: a list of at most `n` symbols
* `segments n hn l`: the segments of `l`
* `piece n l i`: the segment at a position

## Main results

* `flatMap_segments`: the segments put together are the list
* `length_segments`: how many there are
* `flatten_pieces`: the first segments put together
-/

namespace Stream

variable {α : Type*} {n : ℕ}

/-- A list of at most `n` symbols. -/
abbrev Segment (α : Type*) (n : ℕ) := {s : List α // s.length ≤ n}

/-- The segments of a list. -/
def segments (hn : 0 < n) (l : List α) : List (Segment α n) :=
  if h : n < l.length then
    ⟨l.take n, List.length_take_le n l⟩ :: segments hn (l.drop n)
  else [⟨l, Nat.le_of_not_lt h⟩]
termination_by l.length
decreasing_by
  rw [List.length_drop]
  omega

variable (hn : 0 < n) {l : List α}

theorem segments_of_lt (h : n < l.length) :
    segments hn l = ⟨l.take n, List.length_take_le n l⟩ :: segments hn (l.drop n) := by
  rw [segments, dif_pos h]

theorem segments_of_le (h : l.length ≤ n) : segments hn l = [⟨l, h⟩] := by
  rw [segments, dif_neg (Nat.not_lt.mpr h)]

theorem segments_ne_nil : segments hn l ≠ [] := by
  rw [segments]
  split <;> simp

/-- The segments put together are the list. -/
theorem flatMap_segments : (segments hn l).flatMap Subtype.val = l := by
  induction l using segments.induct hn with
  | case1 l h ih => rw [segments_of_lt hn h, List.flatMap_cons, ih, List.take_append_drop]
  | case2 l h => simp [segments_of_le hn (Nat.le_of_not_lt h)]

theorem length_segments : (segments hn l).length = (l.length - 1) / n + 1 := by
  induction l using segments.induct hn with
  | case1 l h ih =>
    have hsub : l.length - 1 = (l.length - n - 1) + n := by omega
    rw [segments_of_lt hn h, List.length_cons, ih, List.length_drop, hsub, Nat.add_div_right _ hn]
  | case2 l h =>
    have hlt : (l.length - 1) / n = 0 := Nat.div_eq_of_lt (by omega)
    rw [segments_of_le hn (Nat.le_of_not_lt h), hlt, List.length_singleton]

/-- One segment holds a list of its length. -/
theorem length_segments_eq_one_iff : (segments hn l).length = 1 ↔ l.length ≤ n := by
  rw [length_segments]
  constructor
  · intro h
    have hlt := (Nat.div_eq_zero_iff_lt hn).mp (Nat.succ.inj h)
    omega
  · intro h
    rw [Nat.div_eq_of_lt (by omega)]

/-! ## Segments by their position -/

/-- The segment at a position, which is empty behind the list. -/
def piece (n : ℕ) (l : List α) (i : ℕ) : List α := (l.drop (i * n)).take n

theorem length_piece_le {i : ℕ} : (piece n l i).length ≤ n := List.length_take_le _ _

/-- The first segments put together are the begin of the list. -/
theorem flatten_pieces (k : ℕ) : ((List.range k).map (piece n l)).flatten = l.take (k * n) := by
  induction k with
  | zero => simp
  | succ k ih =>
    rw [List.range_succ, List.map_append, List.flatten_append, ih, Nat.succ_mul, List.take_add]
    simp [piece]

end Stream
