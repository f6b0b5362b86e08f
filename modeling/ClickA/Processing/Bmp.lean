import ClickA.Processing.Grouping
import Mathlib.Tactic.Ring

/-!
# The telemetry image

`Image::saveBMP` of `processing.cpp`: a frame that is too high is downsampled by 2 or 4, and each
pixel is reduced to eight bits. The rows are appended from the last one to the first one.

## Main definitions

* `Image.ratio`, `Image.imgData`: the factor, and the bytes
* `Image.anImage`: a pixel of the bitmap
* `Faithful`: the bitmap is a downsampling of the frame

## Main results

* `faithful_iff`: the bitmap is faithful if and only if the factor is less than 4, or a wrong pixel
  in the sum of each block does not matter
-/

namespace ClickA.Processing

/-! ## The code -/

/-- `LINK_MAX_FRAME_HEIGHT`. -/
def linkMaxFrameHeight : ℕ := 640

namespace Image

variable (img : Image)

/-- `ratio`. -/
def ratio : ℕ :=
  if img.h > linkMaxFrameHeight then
    let ratio := img.h / linkMaxFrameHeight + 1
    if ratio = 3 ∨ ratio > 4 then 4 else ratio
  else 1

/-- `newHeight`. -/
def newHeight : ℕ := if img.h > linkMaxFrameHeight then img.h / img.ratio else img.h

/-- `newWidth`. -/
def newWidth : ℕ := if img.h > linkMaxFrameHeight then img.w / img.ratio else img.w

/-- The indices of the terms of a pixel. -/
def terms (i j : ℕ) : List ℕ :=
  match img.ratio with
  | 1 => [i * img.w + j]
  | 2 =>
    let ii0 := i * img.w * 2
    let ii1 := ii0 + img.w
    let jj0 := 2 * j
    let jj1 := jj0 + 1
    [ii0 + jj0, ii0 + jj1, ii1 + jj0, ii1 + jj1]
  | _ =>
    let ii0 := i * img.w * 4
    let ii1 := ii0 + img.w
    let ii2 := ii1 + img.w
    let ii3 := ii2 + img.w
    let jj0 := 4 * j
    let jj1 := jj0 + 1
    let jj2 := jj1 + 1
    let jj3 := jj2 + 1
    [ii0 + jj0, ii0 + jj1, ii0 + jj2, ii0 + jj3,
      ii1 + jj0, ii1 + jj1, ii1 + jj2, ii1 + jj3,
      ii2 + jj0, ii2 + jj1, ii1 + jj2, ii2 + jj3,
      ii3 + jj0, ii3 + jj1, ii1 + jj2, ii3 + jj3]

/-- How far the sum of the terms is shifted. -/
def shift : ℕ :=
  match img.ratio with
  | 1 => 2
  | 2 => 4
  | _ => 6

/-- The byte of a pixel. -/
def byte (i j : ℕ) : ℕ := (((img.terms i j).map fun k =>
    img.data.getD k 0).sum >>> img.shift) % 2 ^ 8

/-- `ImgData`, from the last row to the first one. -/
def imgData : List ℕ :=
  (List.range img.newHeight).reverse.flatMap fun i => (List.range img.newWidth).map fun j =>
      img.byte i j

/-- The pixel of `AnImage` in a column and a row. -/
def anImage (i j : ℕ) : Option ℕ := img.imgData[j * img.newWidth + i]?

/-! ## The bitmap -/

/-- The index of a place in a block of the frame. -/
def place (r c : ℕ) (d : ℕ × ℕ) : ℕ := (r * img.ratio + d.1) * img.w + (c * img.ratio + d.2)

/-- The value at a place in a block. -/
def atPlace (r c : ℕ) (d : ℕ × ℕ) : ℕ := img.data.getD (img.place r c d) 0

/-- The sum of a block of the frame. -/
def blockSum (r c : ℕ) : ℕ :=
  ((List.range img.ratio).map fun a => ((List.range img.ratio).map fun b =>
      img.atPlace r c (a, b)).sum).sum

end Image

/-- Every index that is read is inside the frame, and each pixel of the bitmap, in a row counted
from the bottom, is the mean of a block, without the two lowest of ten bits. -/
structure Faithful (img : Image) : Prop where
  inside : ∀ r < img.newHeight, ∀ c < img.newWidth, ∀ k ∈ img.terms r c, k < img.data.length
  mean : ∀ r < img.newHeight, ∀ c < img.newWidth,
    img.anImage c (img.newHeight - 1 - r) = some (img.blockSum r c / (4 * img.ratio ^ 2))

/-- Rows of one length: the element of a row and a column. -/
theorem getElem?_flatMap_rows {α β : Type} (l : List α) (f : α → List β) {n : ℕ}
    (hrows : ∀ a ∈ l, (f a).length = n) {q r : ℕ} (hr : r < n) :
    (l.flatMap f)[q * n + r]? = l[q]?.bind fun a => (f a)[r]? := by
  induction l generalizing q with
  | nil => simp
  | cons a l ih =>
    have hlength : (f a).length = n := hrows a List.mem_cons_self
    rw [List.flatMap_cons]
    cases q with
    | zero =>
      rw [List.getElem?_append_left (by omega)]
      simp
    | succ q =>
      have hindex : (q + 1) * n + r - (f a).length = q * n + r := by
        rw [hlength, Nat.succ_mul]
        omega
      rw [List.getElem?_append_right (by rw [hlength, Nat.succ_mul]; omega), hindex,
        ih fun b hb => hrows b (List.mem_cons_of_mem a hb)]
      rfl

section Pixels

variable {img : Image} {r c : ℕ}

/-- The pixel of a row that is counted from the bottom. -/
theorem anImage_eq (hr : r < img.newHeight) (hc : c < img.newWidth) :
    img.anImage c (img.newHeight - 1 - r) = some (img.byte r c) := by
  unfold Image.anImage Image.imgData
  rw [getElem?_flatMap_rows _ _ (fun a _ => by simp) hc, List.getElem?_reverse (by simp; omega)]
  simp only [List.length_range]
  rw [List.getElem?_range (by omega), Option.bind_some, List.getElem?_map,
    List.getElem?_range hc, show img.newHeight - 1 - (img.newHeight - 1 - r) = r by omega]
  rfl

/-- The three factors. -/
theorem ratio_cases (img : Image) : (img.h ≤ 640 ∧ img.ratio = 1) ∨
    (640 < img.h ∧ img.h ≤ 1279 ∧ img.ratio = 2) ∨ (1280 ≤ img.h ∧ img.ratio = 4) := by
  unfold Image.ratio linkMaxFrameHeight
  dsimp only
  split
  · split
    · omega
    · omega
  · omega

/-- Each place of a block is inside the frame. -/
theorem place_lt {d : ℕ × ℕ} (hr : r < img.newHeight) (hc : c < img.newWidth) (ha : d.1 < img.ratio)
    (hb : d.2 < img.ratio) : img.place r c d < img.data.length := by
  have hblock {n k q a : ℕ} (hk : k < n / q) (ha : a < q) : k * q + a < n := by
    have hnext : (k + 1) * q ≤ n := le_trans (Nat.mul_le_mul_right q hk) (Nat.div_mul_le_self n q)
    rw [Nat.succ_mul] at hnext
    omega
  have hrow : r * img.ratio + d.1 < img.h := by
    unfold Image.newHeight at hr
    split at hr
    · exact hblock hr ha
    · rcases ratio_cases img with ⟨-, hratio⟩ | ⟨hlarge, -, -⟩ | ⟨hlarge, -⟩
      · rw [hratio] at ha ⊢
        omega
      · simp only [linkMaxFrameHeight] at *
        omega
      · simp only [linkMaxFrameHeight] at *
        omega
  have hcolumn : c * img.ratio + d.2 < img.w := by
    unfold Image.newWidth at hc
    split at hc
    · exact hblock hc hb
    · rcases ratio_cases img with ⟨-, hratio⟩ | ⟨hlarge, -, -⟩ | ⟨hlarge, -⟩
      · rw [hratio] at hb ⊢
        omega
      · simp only [linkMaxFrameHeight] at *
        omega
      · simp only [linkMaxFrameHeight] at *
        omega
  rw [img.length_data]
  unfold Image.place
  calc (r * img.ratio + d.1) * img.w + (c * img.ratio + d.2)
      < (r * img.ratio + d.1) * img.w + img.w := Nat.add_lt_add_left hcolumn _
    _ = (r * img.ratio + d.1 + 1) * img.w := (Nat.succ_mul _ _).symm
    _ ≤ img.h * img.w := Nat.mul_le_mul_right _ hrow
    _ = img.w * img.h := Nat.mul_comm _ _

/-! ## The three factors -/

/-- The places that the code reads with the factor 4: the third one of the second row stands for
those below it. -/
def readPlaces : List (ℕ × ℕ) :=
  [(0, 0), (0, 1), (0, 2), (0, 3), (1, 0), (1, 1), (1, 2), (1, 3),
    (2, 0), (2, 1), (1, 2), (2, 3), (3, 0), (3, 1), (1, 2), (3, 3)]

theorem terms_one (hratio : img.ratio = 1) : img.terms r c = [(0, 0)].map (img.place r c) := by
  unfold Image.terms Image.place
  rw [hratio]
  simp

theorem terms_two (hratio : img.ratio = 2) :
    img.terms r c = [(0, 0), (0, 1), (1, 0), (1, 1)].map (img.place r c) := by
  unfold Image.terms Image.place
  rw [hratio]
  simp only [List.map_cons, List.map_nil, List.cons.injEq, and_true]
  refine ⟨?_, ?_, ?_, ?_⟩
  all_goals ring

theorem terms_four (hratio : img.ratio = 4) : img.terms r c = readPlaces.map (img.place r c) := by
  unfold Image.terms Image.place readPlaces
  rw [hratio]
  simp only [List.map_cons, List.map_nil, List.cons.injEq, and_true]
  refine ⟨?_, ?_, ?_, ?_, ?_, ?_, ?_, ?_, ?_, ?_, ?_, ?_, ?_, ?_, ?_, ?_⟩
  all_goals ring

/-- Every index that is read is inside the frame. -/
theorem terms_inside (hr : r < img.newHeight) (hc : c < img.newWidth) :
    ∀ k ∈ img.terms r c, k < img.data.length := by
  have hplaces {l : List (ℕ × ℕ)} (hterms : img.terms r c = l.map (img.place r c))
      (hl : ∀ d ∈ l, d.1 < img.ratio ∧ d.2 < img.ratio) :
          ∀ k ∈ img.terms r c, k < img.data.length := by
    intro k hk
    rw [hterms] at hk
    obtain ⟨d, hd, rfl⟩ := List.mem_map.mp hk
    exact place_lt hr hc (hl d hd).1 (hl d hd).2
  rcases ratio_cases img with ⟨-, hratio⟩ | ⟨-, -, hratio⟩ | ⟨-, hratio⟩
  · exact hplaces (terms_one hratio) (by rw [hratio]; decide)
  · exact hplaces (terms_two hratio) (by rw [hratio]; decide)
  · exact hplaces (terms_four hratio) (by rw [hratio]; decide)

/-- The byte of a pixel, from the places that are read. -/
theorem byte_eq {l : List (ℕ × ℕ)} {shift : ℕ} (hterms : img.terms r c = l.map (img.place r c))
    (hshift : img.shift = shift) :
    img.byte r c = (l.map (img.atPlace r c)).sum / 2 ^ shift % 2 ^ 8 := by
  unfold Image.byte
  rw [hterms, hshift, Nat.shiftRight_eq_div_pow, List.map_map]
  rfl

/-- What the sum of sixteen terms is: two values are replaced by the one above them. -/
def readSum (img : Image) (r c : ℕ) : ℕ :=
  img.blockSum r c + 2 * img.atPlace r c (1, 2) - img.atPlace r c (2, 2) - img.atPlace r c (3, 2)

section Values

variable (hvalues : ∀ v ∈ img.data, v ≤ 1023)
include hvalues

theorem atPlace_le (d : ℕ × ℕ) : img.atPlace r c d ≤ 1023 := by
  unfold Image.atPlace
  rw [List.getD_eq_getElem?_getD]
  cases hk : img.data[img.place r c d]? with
  | none => simp
  | some v => exact hvalues v (List.mem_of_getElem? hk)

/-- The byte of a pixel is right for the factors 1 and 2. -/
theorem byte_of_le (hh : img.h ≤ 1279) : img.byte r c = img.blockSum r c / (4 * img.ratio ^ 2) := by
  have hle (d : ℕ × ℕ) : img.atPlace r c d ≤ 1023 := atPlace_le hvalues d
  rcases ratio_cases img with ⟨-, hratio⟩ | ⟨-, -, hratio⟩ | ⟨hlarge, -⟩
  · have hshift : img.shift = 2 := by simp only [Image.shift, hratio]
    rw [byte_eq (terms_one hratio) hshift, Image.blockSum, hratio]
    have := hle (0, 0)
    simp only [List.range_succ, List.range_zero, List.nil_append, List.map_cons, List.map_nil,
      List.sum_cons,
      List.sum_nil]
    omega
  · have hshift : img.shift = 4 := by simp only [Image.shift, hratio]
    rw [byte_eq (terms_two hratio) hshift, Image.blockSum, hratio]
    have := hle (0, 0)
    have := hle (0, 1)
    have := hle (1, 0)
    have := hle (1, 1)
    simp only [List.range_succ, List.range_zero, List.nil_append, List.cons_append, List.map_cons,
      List.map_nil, List.sum_cons, List.sum_nil]
    omega
  · omega

/-- The byte of a pixel for the factor 4. -/
theorem byte_of_ge (hh : 1280 ≤ img.h) : img.byte r c = readSum img r c / 64 := by
  have hratio : img.ratio = 4 := by
    rcases ratio_cases img with ⟨hsmall, -⟩ | ⟨-, hsmall, -⟩ | ⟨-, hratio⟩
    · omega
    · omega
    · exact hratio
  have hshift : img.shift = 6 := by simp only [Image.shift, hratio]
  -- one value of the block is read for three places
  have hblock : (readPlaces.map (img.atPlace r c)).sum + img.atPlace r c (2, 2) +
      img.atPlace r c (3, 2) =
      img.blockSum r c + 2 * img.atPlace r c (1, 2) := by
    rw [Image.blockSum, hratio]
    simp only [readPlaces, List.range_succ, List.range_zero, List.nil_append, List.cons_append,
      List.map_cons,
      List.map_nil, List.sum_cons, List.sum_nil]
    ring
  have hsum : (readPlaces.map (img.atPlace r c)).sum = readSum img r c := by
    unfold readSum
    omega
  have hbound : (readPlaces.map (img.atPlace r c)).sum ≤ 16 * 1023 := by
    apply List.sum_le_card_nsmul
    intro v hv
    obtain ⟨d, -, rfl⟩ := List.mem_map.mp hv
    exact atPlace_le hvalues d
  rw [byte_eq (terms_four hratio) hshift, ← hsum]
  omega

/-- For each frame with values of ten bits, the bitmap is faithful if and only if the frame has less
than 1280 rows, or in each block of sixteen pixels two values of the third column, of the third and
fourth rows, may be replaced by the one of the second row. -/
theorem faithful_iff : Faithful img ↔ img.h ≤ 1279 ∨
    ∀ r < img.newHeight, ∀ c < img.newWidth, readSum img r c / 64 = img.blockSum r c / 64 := by
  constructor
  · intro h
    rcases le_or_gt img.h 1279 with hh | hh
    · exact Or.inl hh
    · right
      intro r hr c hc
      have hmean := h.mean r hr c hc
      rw [anImage_eq hr hc, byte_of_ge hvalues hh] at hmean
      rw [Option.some.inj hmean]
      rcases ratio_cases img with ⟨hsmall, -⟩ | ⟨-, hsmall, -⟩ | ⟨-, hratio⟩
      · omega
      · omega
      · rw [hratio]
        rfl
  · intro h
    refine ⟨fun r hr c hc => terms_inside hr hc, fun r hr c hc => ?_⟩
    rw [anImage_eq hr hc]
    rcases le_or_gt img.h 1279 with hh | hh
    · rw [byte_of_le hvalues hh]
    · rcases ratio_cases img with ⟨hsmall, -⟩ | ⟨-, hsmall, -⟩ | ⟨-, hratio⟩
      · omega
      · omega
      · rw [byte_of_ge hvalues hh, (h.resolve_left (not_le.mpr hh)) r hr c hc, hratio]
        rfl

end Values

end Pixels

/-- A frame of 8 columns and 1280 rows, with a dark and a bright half. -/
def twoHalves : Image where
  w := 8
  h := 1280
  data := List.replicate 5120 8 ++ List.replicate 5120 1023
  length_data := by rw [List.length_append, List.length_replicate, List.length_replicate]
  histMean := 515

theorem faithful_iff_twoHalves : twoHalves.ratio = 4 ∧ (Faithful twoHalves ↔
    twoHalves.h ≤ 1279 ∨ ∀ r < twoHalves.newHeight, ∀ c < twoHalves.newWidth,
      readSum twoHalves r c / 64 = twoHalves.blockSum r c / 64) := by
  refine ⟨rfl, faithful_iff fun v hv => ?_⟩
  rcases List.mem_append.mp hv with hv | hv
  · rw [List.eq_of_mem_replicate hv]
    decide
  · rw [List.eq_of_mem_replicate hv]

/-- A frame of 4 columns and 1280 rows, dark but for the third pixel of the second row. -/
def hotPixel : Image where
  w := 4
  h := 1280
  data := List.replicate 6 0 ++ 1023 :: List.replicate 5113 0
  length_data := by
    rw [List.length_append, List.length_cons, List.length_replicate, List.length_replicate]
  histMean := 0

theorem getD_hotPixel (k : ℕ) : hotPixel.data.getD k 0 = if k = 6 then 1023 else 0 := by
  have hdark (n i : ℕ) : (List.replicate n 0)[i]?.getD 0 = 0 := by
    rw [List.getElem?_replicate]
    split
    · rfl
    · rfl
  show (List.replicate 6 0 ++ 1023 :: List.replicate 5113 0).getD k 0 = _
  rw [List.getD_eq_getElem?_getD]
  rcases Nat.lt_or_ge k 6 with hk | hk
  · rw [List.getElem?_append_left (by simpa using hk), hdark, if_neg (by omega)]
  · rw [List.getElem?_append_right (by simpa using hk), List.length_replicate]
    rcases Nat.eq_or_lt_of_le hk with rfl | hlt
    · rfl
    · obtain ⟨i, hi⟩ : ∃ i, k - 6 = i + 1 := ⟨k - 7, by omega⟩
      rw [hi, List.getElem?_cons_succ, hdark, if_neg (by omega)]

/-- The bright pixel is counted three times. -/
theorem not_faithful_hotPixel : ¬ Faithful hotPixel := by
  intro h
  have hvalues : ∀ v ∈ hotPixel.data, v ≤ 1023 := by
    intro v hv
    rcases List.mem_append.mp hv with hdark | hrest
    · rw [List.eq_of_mem_replicate hdark]
      omega
    · rcases List.mem_cons.mp hrest with rfl | hdark
      · exact le_refl _
      · rw [List.eq_of_mem_replicate hdark]
        omega
  have hmean := h.mean 0 (by decide) 0 (by decide)
  rw [anImage_eq (by decide) (by decide), byte_of_ge hvalues (by decide)] at hmean
  -- the sums are 3 * 1023 and 1023
  unfold readSum Image.blockSum Image.atPlace at hmean
  simp only [getD_hotPixel] at hmean
  revert hmean
  decide

end ClickA.Processing
