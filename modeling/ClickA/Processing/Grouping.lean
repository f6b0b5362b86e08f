import ClickA.Graph.Search
import Mathlib.Algebra.Order.BigOperators.Group.Finset
import Mathlib.Algebra.Order.Group.Abs
import Mathlib.Algebra.Ring.Int.Defs
import Mathlib.Algebra.Ring.Nat
import Mathlib.Data.Finset.Lattice.Fold
import Mathlib.Data.Rat.Defs
import Mathlib.Order.Lattice.Nat

/-!
# Pixel grouping

`Image::performPixelGrouping` of `processing.cpp`: the pixels of a frame that are brighter than a
threshold are put into groups of neighbours, with a recursive search. The groups say where the spots
of a frame are. Their coordinates are computed with exact numbers here.

## Main definitions

* `Image`, `Group`: a frame, and a group of pixels
* `Sorter`: `std::sort`
* `propagateGroup`, `scanPixel`, `performPixelGrouping`: the functions
* `bright`, `spots`, `describe`: the bright pixels, their components, and what a group says of one
-/

namespace ClickA.Processing

/-! ## The code -/

/-- `MAX_GROUPS`. -/
def maxGroups : ℕ := 50

/-- `MAX_ACTIVE_PIXELS`. -/
def maxActivePixels : ℕ := 100000

/-- `MIN_PIXELS_PER_GROUP`. -/
def minPixelsPerGroup : ℕ := 2

/-- `THRESHOLD_SAFETY_OFFSET`. -/
def thresholdSafetyOffset : ℕ := 50

/-- A frame: its area, the values of its pixels row by row, and their mean. -/
structure Image where
  w : ℕ
  h : ℕ
  data : List ℕ
  length_data : data.length = w * h
  histMean : ℕ

/-- `data[index]`. -/
def Image.value (img : Image) (index : ℤ) : ℕ := img.data.getD index.toNat 0

/-- The index of a pixel. -/
def Image.index (img : Image) (p : ℤ × ℤ) : ℤ := p.1 * img.w + p.2

/-- A group of pixels. -/
@[ext]
structure Group where
  x : ℚ := 0
  y : ℚ := 0
  valueMax : ℕ := 0
  valueSum : ℕ := 0
  pixelCount : ℕ := 0
deriving DecidableEq, Repr

/-- `std::sort`, with the order of groups: some list of the same groups in which none is behind one
with a smaller maximum. -/
structure Sorter where
  sort : List Group → List Group
  perm : ∀ groups, (sort groups).Perm groups
  sorted : ∀ groups, (sort groups).Pairwise fun g g' => g'.valueMax ≤ g.valueMax

/-- A pixel is acknowledged in a group. -/
def acknowledge (img : Image) (p : ℤ × ℤ) (g : Group) : Group :=
  let value := img.value (img.index p)
  { pixelCount := (g.pixelCount + 1) % 2 ^ 32
    valueSum := (g.valueSum + value) % 2 ^ 32
    x := g.x + (p.2 * value : ℤ)
    y := g.y + (p.1 * value : ℤ)
    valueMax := if value > g.valueMax then value else g.valueMax }

/-- What the propagation changes. -/
structure Propagation where
  groups : List Group
  groupedPixels : Finset ℤ

/-- The offsets of the loops over the neighbours. -/
def offsets : List (ℤ × ℤ) :=
  [(-1, -1), (-1, 0), (-1, 1), (0, -1), (0, 0), (0, 1), (1, -1), (1, 0), (1, 1)]

/-- A pixel is in the frame. -/
def Image.contains (img : Image) (p : ℤ × ℤ) : Bool :=
  0 ≤ p.1 && p.1 < img.h && 0 ≤ p.2 && p.2 < img.w

/-- `propagateGroup`, of a pixel. -/
def propagateGroup (img : Image) (threshold currentGroup : ℕ) :
    ℕ → Propagation → ℤ × ℤ → Option Propagation
  | 0, _, _ => none
  | fuel + 1, s, p =>
    let s : Propagation := {
      groups := s.groups.modify currentGroup (acknowledge img p)
      groupedPixels := insert (img.index p) s.groupedPixels }
    if s.groupedPixels.card > maxActivePixels then some s
    else offsets.foldlM (fun s d =>
      let q := (p.1 + d.1, p.2 + d.2)
      if img.contains q then
        if img.index q ∉ s.groupedPixels ∧ img.value (img.index q) > threshold then
          propagateGroup img threshold currentGroup fuel s q
        else some s
      else some s) s

/-- The scan, with `currentGroup`. -/
structure Scan extends Propagation where
  currentGroup : ℕ

/-- How the scan ends early: it is out of fuel, or the function returns. -/
inductive Stop
  | outOfFuel
  | returned (value : ℤ) (groups : List Group)

/-- The centroid of a group. -/
def Group.centroid (g : Group) : Group := { g with x := g.x / g.valueSum, y := g.y / g.valueSum }

section Perform

variable (sorter : Sorter) (fuel : ℕ) (img : Image)

/-- The scan of a pixel. -/
def scanPixel (threshold : ℕ) (s : Scan) (p : ℤ × ℤ) : Except Stop Scan :=
  if img.value (img.index p) > threshold ∧ img.index p ∉ s.groupedPixels then
    match propagateGroup img threshold s.currentGroup fuel ⟨s.groups ++ [{}],
      s.groupedPixels⟩ p with
    | none => .error .outOfFuel
    | some ⟨groups, groupedPixels⟩ =>
      if (groups.getD s.currentGroup {}).pixelCount < minPixelsPerGroup then
        .ok ⟨⟨groups.dropLast, groupedPixels⟩, s.currentGroup⟩
      else if groupedPixels.card > maxActivePixels then .error (.returned (-1) [])
      else
        let groups := groups.modify s.currentGroup Group.centroid
        if s.currentGroup + 1 > maxGroups then .error (.returned (-1) (sorter.sort groups))
        else .ok ⟨⟨groups, groupedPixels⟩, s.currentGroup + 1⟩
  else .ok s

/-- The pixels in the order of the scan. -/
def Image.pixels : List (ℤ × ℤ) :=
  (List.range img.h).flatMap fun (i : ℕ) => (List.range img.w).map fun (j : ℕ) => (↑i, ↑j)

/-- `performPixelGrouping`: the returned number, and the groups. -/
def performPixelGrouping (threshold : ℕ) : Option (ℤ × List Group) :=
  let threshold := if threshold = 0 then (img.histMean +
    thresholdSafetyOffset) % 2 ^ 16 else threshold
  match img.pixels.foldlM (scanPixel sorter fuel img threshold) ⟨⟨[], ∅⟩, 0⟩ with
  | .ok s =>
    let groups := if s.groups.length > 0 then sorter.sort s.groups else s.groups
    some (groups.length, groups)
  | .error (.returned value groups) => some (value, groups)
  | .error .outOfFuel => none

end Perform

/-! ## The spots of a frame -/

section Spots

variable (img : Image) (threshold : ℕ)

/-- The bright pixels. -/
def bright : Finset (ℤ × ℤ) :=
  (img.pixels.filter fun p => img.value (img.index p) > threshold).toFinset

/-- Two pixels touch each other, diagonally too. -/
def Adjacent (p q : ℤ × ℤ) : Prop := |p.1 - q.1| ≤ 1 ∧ |p.2 - q.2| ≤ 1

/-- Two pixels are connected by bright pixels. -/
def Connected : ℤ × ℤ → ℤ × ℤ → Prop :=
  Relation.ReflTransGen fun p q =>
      p ∈ bright img threshold ∧ q ∈ bright img threshold ∧ Adjacent p q

open Classical in
/-- The bright pixels that are connected with one. -/
noncomputable def component (p : ℤ × ℤ) : Finset (ℤ × ℤ) :=
  (bright img threshold).filter (Connected img threshold p)

/-- The components of the bright pixels that have enough of them. -/
noncomputable def spots : Finset (Finset (ℤ × ℤ)) :=
  ((bright img threshold).image (component img threshold)).filter fun c =>
      minPixelsPerGroup ≤ c.card

/-- The group of a spot. -/
def describe (c : Finset (ℤ × ℤ)) : Group where
  x := (∑ p ∈ c, (p.2 * img.value (img.index p) : ℤ) : ℤ) /
    (∑ p ∈ c, img.value (img.index p) : ℕ)
  y := (∑ p ∈ c, (p.1 * img.value (img.index p) : ℤ) : ℤ) /
    (∑ p ∈ c, img.value (img.index p) : ℕ)
  valueMax := c.sup fun p => img.value (img.index p)
  valueSum := ∑ p ∈ c, img.value (img.index p)
  pixelCount := c.card

end Spots

end ClickA.Processing
