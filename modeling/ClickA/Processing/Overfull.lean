import ClickA.Processing.Groups

/-!
# Frames with too many bright pixels

`Image::performPixelGrouping` looks at the number of grouped pixels behind each group that is large
enough. The group that goes beyond the number of pixels that may be active is cut short. When the
groups before it have exactly that number of pixels, it is cut to one pixel, and dropped like a hot
pixel.

## Main definitions

* `covered`, `spotsOf`: the components of some pixels
* `AtCap`: the components up to a pixel have exactly as many pixels as may be active

## Main results

* `scan_cases`: how a scan goes on
* `overfull_iff`: a frame with too many bright pixels is rejected if and only if no components end
  at that number
-/

namespace ClickA.Processing

open Graph

/-! ## The components of some pixels -/

section Spec

variable (img : Image) (threshold : ℕ) (looked : List (ℤ × ℤ))

/-- The bright pixels that are connected with some pixels. -/
noncomputable def covered : Finset (ℤ × ℤ) :=
  (looked.toFinset ∩ bright img threshold).biUnion (component img threshold)

/-- The spots of some pixels. -/
noncomputable def spotsOf : Finset (Finset (ℤ × ℤ)) :=
  ((looked.toFinset ∩ bright img threshold).image (component img threshold)).filter
    fun c => minPixelsPerGroup ≤ c.card

/-- The components of some pixels are too many, or too large. -/
def TooMany : Prop :=
  maxActivePixels < (covered img threshold looked).card ∨
      maxGroups < (spotsOf img threshold looked).card

/-- The components of some pixels have exactly as many pixels as may be active, in not more spots
than there may be groups, and a bright pixel belongs to none of them. -/
def Filled (p : ℤ × ℤ) : Prop :=
  p ∈ bright img threshold ∧ p ∉ covered img threshold looked ∧
    (covered img threshold looked).card = maxActivePixels ∧
      (spotsOf img threshold looked).card ≤ maxGroups

/-- In the order of the scan, the components up to some pixel have exactly as many pixels as may be
active, and there is a component behind them. -/
def AtCap : Prop :=
  ∃ before p after, img.pixels = before ++ p :: after ∧ Filled img threshold before p

end Spec

section Scan

variable {sorter : Sorter} {fuel threshold : ℕ} {img : Image} {p q : ℤ × ℤ}
  {looked : List (ℤ × ℤ)} {pieces : List (List (ℤ × ℤ))}

theorem mem_covered : q ∈ covered img threshold looked ↔
    ∃ p ∈ looked, p ∈ bright img threshold ∧ Connected img threshold p q := by
  unfold covered
  simp only [Finset.mem_biUnion, Finset.mem_inter, List.mem_toFinset]
  constructor
  · rintro ⟨p, ⟨hp, hbright⟩, hq⟩
    exact ⟨p, hp, hbright, (mem_component hbright).mp hq⟩
  · rintro ⟨p, hp, hbright, hq⟩
    exact ⟨p, ⟨hp, hbright⟩, (mem_component hbright).mpr hq⟩

theorem covered_subset_bright : covered img threshold looked ⊆ bright img threshold := by
  intro q hq
  obtain ⟨p, -, hbright, hconnected⟩ := mem_covered.mp hq
  exact mem_bright_of_connected hbright hconnected

theorem covered_mono {looked' : List (ℤ × ℤ)} (h : looked ⊆ looked') :
    covered img threshold looked ⊆ covered img threshold looked' := by
  intro q hq
  obtain ⟨p, hp, hbright, hconnected⟩ := mem_covered.mp hq
  exact mem_covered.mpr ⟨p, h hp, hbright, hconnected⟩

/-- More pixels do not make the components fewer. -/
theorem TooMany.append (h : TooMany img threshold looked) {more : List (ℤ × ℤ)} :
    TooMany img threshold (looked ++ more) := by
  have hsub : looked ⊆ looked ++ more := List.subset_append_left _ _
  rcases h with hpixels | hspots
  · left
    exact hpixels.trans_le (Finset.card_le_card (covered_mono hsub))
  · right
    apply hspots.trans_le
    apply Finset.card_le_card
    apply Finset.filter_subset_filter
    apply Finset.image_subset_image
    apply Finset.inter_subset_inter_right
    intro p hp
    exact List.mem_toFinset.mpr (hsub (List.mem_toFinset.mp hp))

/-- A bright pixel belongs to its component. -/
theorem mem_covered_self (hp : p ∈ bright img threshold) (hlooked : p ∈ looked) :
    p ∈ covered img threshold looked :=
  mem_covered.mpr ⟨p, hlooked, hp, .refl⟩

/-- Behind a pixel that no component covers, more pixels are covered. -/
theorem Filled.lt_card (h : Filled img threshold looked p) {after : List (ℤ × ℤ)} :
    maxActivePixels < (covered img threshold (looked ++ p :: after)).card := by
  obtain ⟨hbright, hnew, hcard, -⟩ := h
  rw [← hcard]
  apply Finset.card_lt_card
  rw [Finset.ssubset_iff_of_subset (covered_mono (List.subset_append_left _ _))]
  exact ⟨p, mem_covered_self hbright (by simp), hnew⟩

/-- The components that the scan has found are those of the pixels that it has looked at. -/
structure Found (img : Image) (threshold : ℕ) (looked : List (ℤ × ℤ))
    (pieces : List (List (ℤ × ℤ))) :
    Prop extends Scanned img threshold looked pieces where
  rooted : ∀ c ∈ pieces, ∃ u ∈ c, u ∈ looked

namespace Found

theorem toFinset_flatten (h : Found img threshold looked pieces) :
    pieces.flatten.toFinset = covered img threshold looked := by
  ext t
  rw [List.mem_toFinset, List.mem_flatten, mem_covered]
  constructor
  · rintro ⟨c, hc, ht⟩
    obtain ⟨u, hu, hlooked⟩ := h.rooted c hc
    refine ⟨u, hlooked, h.bright u (List.mem_flatten.mpr ⟨c, hc, hu⟩), ?_⟩
    exact reaches_iff.mp ((h.found.component c hc u hu t).mp ht)
  · rintro ⟨u, hlooked, hbright, hconnected⟩
    have hcovered := h.found.covers u (List.mem_filter.mpr ⟨hlooked, decide_eq_true hbright⟩)
    obtain ⟨c, hc, hu⟩ := List.mem_flatten.mp hcovered
    exact ⟨c, hc, (h.found.component c hc u hu t).mpr (reaches_iff.mpr hconnected)⟩

theorem card_covered (h : Found img threshold looked pieces) :
    (covered img threshold looked).card = pieces.flatten.length := by
  rw [← h.toFinset_flatten, List.toFinset_card_of_nodup h.found.nodup]

theorem mem_flatten (h : Found img threshold looked pieces) :
    q ∈ pieces.flatten ↔ q ∈ covered img threshold looked := by
  rw [← h.toFinset_flatten, List.mem_toFinset]

theorem spotsOf_eq (h : Found img threshold looked pieces) :
    spotsOf img threshold looked = ((pieces.filter large).map List.toFinset).toFinset := by
  ext c
  unfold spotsOf
  simp only [Finset.mem_filter, Finset.mem_image, Finset.mem_inter, List.mem_toFinset, List.mem_map,
    List.mem_filter]
  constructor
  · rintro ⟨⟨u, ⟨hlooked, hbright⟩, rfl⟩, hcard⟩
    obtain ⟨d, hd, hu⟩ := List.mem_flatten.mp (h.mem_flatten.mpr (mem_covered_self hbright hlooked))
    have hsame := h.toFinset_eq hd hu
    refine ⟨d, ⟨hd, ?_⟩, hsame⟩
    rw [← hsame, List.toFinset_card_of_nodup (h.nodup_piece hd)] at hcard
    exact decide_eq_true hcard
  · rintro ⟨d, ⟨hd, hlarge⟩, rfl⟩
    obtain ⟨u, hu, hlooked⟩ := h.rooted d hd
    refine ⟨⟨u, ⟨hlooked, h.bright u (List.mem_flatten.mpr ⟨d, hd, hu⟩)⟩,
      (h.toFinset_eq hd hu).symm⟩, ?_⟩
    rw [List.toFinset_card_of_nodup (h.nodup_piece hd)]
    exact of_decide_eq_true hlarge

theorem card_spotsOf (h : Found img threshold looked pieces) :
    (spotsOf img threshold looked).card = (pieces.filter large).length := by
  have hnodup : ((pieces.filter large).map List.toFinset).Nodup :=
    (List.filter_sublist.map _).nodup h.nodup_toFinset
  rw [h.spotsOf_eq, List.toFinset_card_of_nodup hnodup, List.length_map]

theorem tooMany_iff (h : Found img threshold looked pieces) : TooMany img threshold looked ↔
    maxActivePixels < pieces.flatten.length ∨ maxGroups < (pieces.filter large).length := by
  unfold TooMany
  rw [h.card_covered, h.card_spotsOf]

theorem nil : Found img threshold [] [] where
  found := .nil
  bright _ hu := absurd hu List.not_mem_nil
  rooted _ hc := absurd hc List.not_mem_nil

/-- The scan looks at a pixel that is not bright, or that belongs to a component. -/
theorem skip (h : Found img threshold looked pieces)
    (hskip : p ∈ Processing.bright img threshold → p ∈ pieces.flatten) :
    Found img threshold (looked ++ [p]) pieces where
  toScanned := h.toScanned.skip hskip
  rooted c hc := by
    obtain ⟨u, hu, hlooked⟩ := h.rooted c hc
    exact ⟨u, hu, List.mem_append_left _ hlooked⟩

/-- The scan finds the component of a new pixel. -/
theorem grow (h : Found img threshold looked pieces) {new : List (ℤ × ℤ)}
    (hp : p ∈ Processing.bright img threshold) (hold : p ∉ pieces.flatten)
    (hgrown : Grown (next img threshold) [p] pieces.flatten new) :
    Found img threshold (looked ++ [p]) (pieces ++ [new]) where
  toScanned := h.toScanned.grow hp hold hgrown
  rooted c hc := by
    rcases List.mem_append.mp hc with hc | hc
    · obtain ⟨u, hu, hlooked⟩ := h.rooted c hc
      exact ⟨u, hu, List.mem_append_left _ hlooked⟩
    · rw [List.mem_singleton.mp hc]
      exact ⟨p, (h.found.mem_iff next_symm hold hgrown p).mpr .refl, by simp⟩

end Found

/-! ## The scan -/

theorem length_next_le (p : ℤ × ℤ) : (next img threshold p).length ≤ 9 := by
  unfold next
  split
  · exact (List.length_filter_le _ _).trans_eq (List.length_map _)
  · exact Nat.zero_le 9

/-- Beyond the number of pixels that may be active, a group is cut before its counter overflows. -/
theorem length_new_lt {seen new : List (ℤ × ℤ)}
    (hvisit : visitUpTo (next img threshold) maxActivePixels fuel seen p = some (seen ++ new)) :
    new.length < 2 ^ 32 := by
  have hle := length_visitUpTo_le length_next_le hvisit
  rw [List.length_append] at hle
  simp only [maxActivePixels] at hle
  omega

/-- What a search finds is covered. -/
theorem mem_covered_of_visit {seen seen' : List (ℤ × ℤ)} (hp : p ∈ bright img threshold)
    (hlooked : p ∈ looked) (hold : p ∉ seen) (hseen : ∀ u ∈ seen, u ∈ covered img threshold looked)
    (hvisit : visitUpTo (next img threshold) maxActivePixels fuel seen p = some seen') :
    ∀ u ∈ seen', u ∈ covered img threshold looked := by
  apply visitUpTo_keeps ?_ hold hseen hvisit
  intro s u hs _ hreach t ht
  rcases List.mem_append.mp ht with ht | ht
  · exact hs t ht
  · rw [List.mem_singleton.mp ht]
    exact mem_covered.mpr ⟨p, hlooked, hp, reaches_iff.mp hreach⟩

/-- **How the scan of a new pixel ends, as long as a pixel more may be active**: its component is
found, or the frame is rejected because there is too much. -/
theorem scanPixel_new (sorter : Sorter) (h : Found img threshold looked pieces)
    (hfew : ¬ TooMany img threshold looked)
    (hfuel : maxActivePixels + 1 ≤ fuel) (hp : p ∈ bright img threshold) (hold : p ∉ pieces.flatten)
    (hroom : pieces.flatten.length < maxActivePixels) :
    (∃ pieces', scanPixel sorter fuel img threshold (scanned img pieces) p =
      .ok (scanned img pieces') ∧
      Found img threshold (looked ++ [p]) pieces' ∧ ¬ TooMany img threshold (looked ++ [p])) ∨
    (∃ groups, scanPixel sorter fuel img threshold (scanned img pieces) p =
      .error (.returned (-1) groups) ∧ TooMany img threshold (looked ++ [p])) := by
  obtain ⟨seen', hvisit⟩ := exists_visitUpTo (show 0 < fuel by omega)
    (show maxActivePixels + 1 ≤ fuel + pieces.flatten.length by omega)
  obtain ⟨new, rfl⟩ := prefix_of_visitUpTo hold hvisit
  have hscan : scanPixel sorter fuel img threshold (scanned img pieces) p =
      grow sorter img pieces new :=
    scanPixel_visit h.seen (length_new_lt hvisit) hp hold hvisit
  have hflatten : (pieces ++ [new]).flatten = pieces.flatten ++ new := by
    rw [List.flatten_append, List.flatten_singleton]
  by_cases hcap : (pieces ++ [new]).flatten.length ≤ maxActivePixels
  · have hvisit' := (visitUpTo_eq_some_iff (hflatten ▸ hcap)).mp hvisit
    obtain ⟨new', hsame, hgrown⟩ := grown_of_visit hvisit' hold
    obtain rfl := List.append_cancel_left hsame
    have hfound := h.grow hp hold hgrown
    by_cases hgroups : ((pieces ++ [new]).filter large).length ≤ maxGroups
    · left
      refine ⟨pieces ++ [new], hscan.trans (grow_of_le hcap hgroups), hfound, ?_⟩
      rw [hfound.tooMany_iff]
      omega
    · right
      have hlarge : ¬ new.length < minPixelsPerGroup := by
        intro hsmall
        apply hgroups
        have hfilter : [new].filter large = [] := by
          rw [List.filter_eq_nil_iff]
          simpa [large] using hsmall
        rw [List.filter_append, hfilter, List.append_nil]
        by_contra hmany
        exact hfew (h.tooMany_iff.mpr (.inr (Nat.not_le.mp hmany)))
      have hends : grow sorter img pieces new = .error (.returned (-1)
          (sorter.sort (((pieces ++ [new]).filter large).map (pieceGroup img)))) := by
        unfold grow
        rw [if_neg hlarge, if_neg (Nat.not_lt.mpr hcap), if_pos (Nat.not_le.mp hgroups)]
      exact ⟨_, hscan.trans hends, hfound.tooMany_iff.mpr (.inr (Nat.not_le.mp hgroups))⟩
  · right
    have hover := Nat.not_le.mp hcap
    have hlarge : ¬ new.length < minPixelsPerGroup := by
      rw [hflatten, List.length_append] at hover
      unfold minPixelsPerGroup
      omega
    refine ⟨[], ?_, .inl ?_⟩
    · rw [hscan]
      unfold grow
      rw [if_neg hlarge, if_pos hover]
    · have hbefore : ∀ u ∈ pieces.flatten, u ∈ covered img threshold (looked ++ [p]) := fun u hu =>
        covered_mono (List.subset_append_left _ _) (h.mem_flatten.mp hu)
      have hcovered := mem_covered_of_visit hp (by simp) hold hbefore hvisit
      calc maxActivePixels < (pieces.flatten ++ new).length := hflatten ▸ hover
        _ = (pieces.flatten ++ new).toFinset.card :=
          (List.toFinset_card_of_nodup (h.seen.upTo hp hold hvisit).nodup).symm
        _ ≤ (covered img threshold (looked ++ [p])).card :=
          Finset.card_le_card fun u hu => hcovered u (List.mem_toFinset.mp hu)

/-- How the scan of a pixel ends. -/
theorem scanPixel_cases (sorter : Sorter) (h : Found img threshold looked pieces)
    (hfew : ¬ TooMany img threshold looked)
    (hfuel : maxActivePixels + 1 ≤ fuel) (hp : img.contains p = true) :
    (∃ pieces', scanPixel sorter fuel img threshold (scanned img pieces) p =
      .ok (scanned img pieces') ∧
      Found img threshold (looked ++ [p]) pieces' ∧ ¬ TooMany img threshold (looked ++ [p])) ∨
    (∃ groups, scanPixel sorter fuel img threshold (scanned img pieces) p =
      .error (.returned (-1) groups) ∧ TooMany img threshold (looked ++ [p])) ∨
    Filled img threshold looked p := by
  rw [h.tooMany_iff] at hfew
  by_cases hnew : p ∈ bright img threshold ∧ p ∉ pieces.flatten
  · obtain ⟨hbright, hold⟩ := hnew
    by_cases hroom : pieces.flatten.length < maxActivePixels
    · rcases scanPixel_new sorter h (by rwa [h.tooMany_iff]) hfuel hbright hold
        hroom with hgoes | hends
      · exact .inl hgoes
      · exact .inr (.inl hends)
    · right
      right
      refine ⟨hbright, mt h.mem_flatten.mpr hold, ?_, ?_⟩
      · rw [h.card_covered]
        omega
      · rw [h.card_spotsOf]
        omega
  · left
    have hskip : p ∈ bright img threshold → p ∈ pieces.flatten := not_and_not_right.mp hnew
    have hfound := h.skip hskip
    refine ⟨pieces, scanPixel_skip h.seen hp hskip, hfound, ?_⟩
    rwa [hfound.tooMany_iff]

/-- **How a scan ends**: it passes all pixels, or the frame is rejected because there is too much,
or the components up to some pixel are as large as they may be. -/
theorem scan_cases (sorter : Sorter) (hfuel : maxActivePixels + 1 ≤ fuel) (ps : List (ℤ × ℤ))
    (hps : ∀ p ∈ ps, img.contains p = true) (h : Found img threshold looked pieces)
    (hfew : ¬ TooMany img threshold looked) :
    (∃ pieces', ps.foldlM (scanPixel sorter fuel img threshold) (scanned img pieces) =
      .ok (scanned img pieces') ∧ Found img threshold (looked ++ ps) pieces' ∧
      ¬ TooMany img threshold (looked ++ ps)) ∨
    (∃ groups, ps.foldlM (scanPixel sorter fuel img threshold) (scanned img pieces) =
      .error (.returned (-1) groups) ∧ TooMany img threshold (looked ++ ps)) ∨
    ∃ before p after, ps = before ++ p :: after ∧ Filled img threshold (looked ++ before) p := by
  induction ps generalizing looked pieces with
  | nil =>
    left
    rw [List.append_nil]
    exact ⟨pieces, rfl, h, hfew⟩
  | cons p ps ih =>
    rw [List.foldlM_cons]
    rcases scanPixel_cases sorter h hfew hfuel (hps p List.mem_cons_self) with
      ⟨pieces₁, hscan, h₁, hfew₁⟩ | ⟨groups, hscan, hmany⟩ | hfilled
    · rw [hscan]
      rcases ih (fun q hq => hps q (List.mem_cons_of_mem _ hq)) h₁ hfew₁ with
        ⟨pieces₂, hrest, h₂, hfew₂⟩ | ⟨groups, hrest, hmany⟩ |
        ⟨before, q, after, rfl, hfilled⟩
      · left
        rw [List.append_assoc] at h₂ hfew₂
        exact ⟨pieces₂, hrest, h₂, hfew₂⟩
      · right
        left
        rw [List.append_assoc] at hmany
        exact ⟨groups, hrest, hmany⟩
      · right
        right
        rw [List.append_assoc] at hfilled
        exact ⟨p :: before, q, after, rfl, hfilled⟩
    · right
      left
      rw [hscan]
      rw [List.append_cons]
      exact ⟨groups, rfl, hmany.append⟩
    · right
      right
      rw [← List.append_nil looked] at hfilled
      exact ⟨[], p, ps, rfl, hfilled⟩

/-- **When as many pixels as may be active are grouped, each new one is dropped like a hot
pixel.** -/
theorem scan_full (sorter : Sorter) (hfuel : 0 < fuel) (ps : List (ℤ × ℤ))
    (hps : ∀ p ∈ ps, img.contains p = true) (hseen : Seen img threshold pieces.flatten)
    (hfull : maxActivePixels ≤ pieces.flatten.length) :
    ∃ pieces', ps.foldlM (scanPixel sorter fuel img threshold) (scanned img pieces) =
      .ok (scanned img pieces') := by
  induction ps generalizing pieces with
  | nil => exact ⟨pieces, rfl⟩
  | cons p ps ih =>
    have hp := hps p List.mem_cons_self
    have hrest : ∀ q ∈ ps, img.contains q = true := fun q hq => hps q (List.mem_cons_of_mem _ hq)
    rw [List.foldlM_cons]
    by_cases hnew : p ∈ bright img threshold ∧ p ∉ pieces.flatten
    · obtain ⟨hbright, hold⟩ := hnew
      obtain ⟨n, rfl⟩ := Nat.exists_eq_add_one.mpr hfuel
      have hvisit : visitUpTo (next img threshold) maxActivePixels (n + 1) pieces.flatten p =
          some (pieces.flatten ++ [p]) := visitUpTo_beyond (Nat.lt_succ_of_le hfull)
      have hscan : scanPixel sorter (n + 1) img threshold (scanned img pieces) p =
          .ok (scanned img (pieces ++ [[p]])) := by
        rw [scanPixel_visit hseen (Nat.one_lt_two_pow (by decide)) hbright hold hvisit]
        exact if_pos Nat.one_lt_two
      have hflatten : (pieces ++ [[p]]).flatten = pieces.flatten ++ [p] := by
        rw [List.flatten_append, List.flatten_singleton]
      rw [hscan]
      apply ih hrest
      · rw [hflatten]
        exact hseen.concat hbright hold
      · rw [hflatten, List.length_append]
        omega
    · have hskip : p ∈ bright img threshold → p ∈ pieces.flatten := not_and_not_right.mp hnew
      rw [scanPixel_skip hseen hp hskip]
      exact ih hrest hseen hfull

theorem perform_of_returned (hthreshold : 0 < threshold) {value : ℤ} {groups : List Group}
    (hscan : img.pixels.foldlM (scanPixel sorter fuel img threshold) (scanned img []) =
      .error (.returned value groups)) :
    performPixelGrouping sorter fuel img threshold = some (value, groups) := by
  have hscan' : img.pixels.foldlM (scanPixel sorter fuel img threshold) ⟨⟨[], ∅⟩, 0⟩ =
      .error (.returned value groups) := hscan
  unfold performPixelGrouping
  rw [if_neg (Nat.pos_iff_ne_zero.mp hthreshold)]
  dsimp only
  rw [hscan']

theorem not_tooMany_nil : ¬ TooMany img threshold [] := by
  rw [Found.nil.tooMany_iff]
  exact not_or.mpr ⟨Nat.not_lt_zero _, Nat.not_lt_zero _⟩

/-- When some components have as many pixels as may be active, a number of groups is returned. -/
theorem returned_of_atCap (sorter : Sorter) (hthreshold : 0 < threshold)
    (hfuel : maxActivePixels + 1 ≤ fuel) (h : AtCap img threshold) :
    ∃ (n : ℕ) (groups : List Group),
      performPixelGrouping sorter fuel img threshold = some ((n : ℤ), groups) := by
  obtain ⟨before, p, after, hpixels, hfilled⟩ := h
  have hcontains : ∀ q ∈ before ++ p :: after, img.contains q = true := by
    intro q hq
    rw [← hpixels] at hq
    exact mem_pixels.mp hq
  rcases scan_cases sorter hfuel before (fun q hq =>
    hcontains q (List.mem_append_left _ hq)) Found.nil
    not_tooMany_nil with ⟨pieces, hscan, hfound, -⟩ | ⟨-, -, hmany⟩ | ⟨before', q, after', rfl,
      hfilled'⟩
  · rw [List.nil_append] at hfound
    have hfull : maxActivePixels ≤ pieces.flatten.length := by
      rw [← hfound.card_covered, hfilled.2.2.1]
    obtain ⟨pieces', hrest⟩ := scan_full sorter (show 0 < fuel by omega) (p :: after)
      (fun q hq => hcontains q (List.mem_append_right _ hq)) hfound.seen hfull
    refine ⟨_, _, perform_of_scan hthreshold (s := scanned img pieces') ?_⟩
    rw [hpixels, List.foldlM_append, hscan]
    exact hrest
  · rcases hmany with hpixels | hspots
    · exact absurd hfilled.2.2.1 hpixels.ne'
    · exact absurd hfilled.2.2.2 (Nat.not_le.mpr hspots)
  · exact absurd hfilled.2.2.1 hfilled'.lt_card.ne'

theorem AtCap.lt_card (h : AtCap img threshold) :
    maxActivePixels < (bright img threshold).card := by
  obtain ⟨before, p, after, -, hfilled⟩ := h
  have hafter : maxActivePixels < (covered img threshold (before ++ p :: after)).card :=
    hfilled.lt_card
  exact hafter.trans_le (Finset.card_le_card covered_subset_bright)

/-- **A frame with too many bright pixels is rejected if and only if, in the order of the scan, no
components have exactly as many pixels as may be active.** -/
theorem overfull_iff (sorter : Sorter) (hthreshold : 0 < threshold)
    (hactive : maxActivePixels < (bright img threshold).card) (hfuel : maxActivePixels + 1 ≤ fuel) :
    (∃ groups, performPixelGrouping sorter fuel img threshold = some (-1, groups)) ↔
      ¬ AtCap img threshold := by
  constructor
  · rintro ⟨groups, hreturns⟩ hcap
    obtain ⟨n, groups', hreturns'⟩ := returned_of_atCap sorter hthreshold hfuel hcap
    rw [hreturns] at hreturns'
    have hvalue : (-1 : ℤ) = n := congrArg Prod.fst (Option.some.inj hreturns')
    omega
  · intro hcap
    rcases scan_cases sorter hfuel img.pixels (fun _ =>
      mem_pixels.mp) Found.nil not_tooMany_nil with
      ⟨pieces, -, -, hfew⟩ | ⟨groups, hscan, -⟩ | ⟨before, p, after, hpixels, hfilled⟩
    · exfalso
      apply hfew
      left
      apply hactive.trans_le
      apply Finset.card_le_card
      intro p hp
      exact mem_covered_self hp (mem_pixels.mpr (mem_bright.mp hp).1)
    · exact ⟨groups, perform_of_returned hthreshold hscan⟩
    · exact absurd ⟨before, p, after, hpixels, hfilled⟩ hcap

/-! ## Scattered pixels -/

/-- A frame with a bright pixel in each even column of each even row. -/
def scatteredFrame : Image where
  w := 2000
  h := 201
  data := (List.range (2000 * 201)).map fun k => if k / 2000 % 2 = 0 ∧ k % 2 = 0 then 5 else 0
  length_data := by rw [List.length_map, List.length_range]
  histMean := 1

theorem getD_scattered {n : ℕ} (hn : n < 2000 * 201) :
    scatteredFrame.data.getD n 0 = if n / 2000 % 2 = 0 ∧ n % 2 = 0 then 5 else 0 := by
  unfold scatteredFrame
  rw [List.getD_eq_getElem?_getD, List.getElem?_map, List.getElem?_range hn]
  rfl

theorem mem_bright_scattered : p ∈ bright scatteredFrame 3 ↔
    (0 ≤ p.1 ∧ p.1 < 201) ∧ (0 ≤ p.2 ∧ p.2 < 2000) ∧ p.1 % 2 = 0 ∧ p.2 % 2 = 0 := by
  rw [mem_bright, contains_iff]
  show ((0 ≤ p.1 ∧ p.1 < 201) ∧ 0 ≤ p.2 ∧ p.2 < 2000) ∧ _ ↔ _
  rw [and_assoc]
  refine and_congr_right fun hrow => and_congr_right fun hcolumn => ?_
  have hindex : (scatteredFrame.index p).toNat < 2000 * 201 := by
    show (p.1 * 2000 + p.2).toNat < _
    omega
  have hvalue : scatteredFrame.value (scatteredFrame.index p) =
      if (scatteredFrame.index p).toNat / 2000 % 2 = 0 ∧
          (scatteredFrame.index p).toNat % 2 = 0 then 5
      else 0 := getD_scattered hindex
  have hplace : scatteredFrame.index p = p.1 * 2000 + p.2 := rfl
  rw [hvalue, hplace]
  split
  · omega
  · omega

/-- No bright pixel of it touches another one. -/
theorem connected_scattered (h : Connected scatteredFrame 3 p q) : q = p := by
  induction h with
  | refl => rfl
  | tail _ hstep ih =>
    obtain ⟨hbright, hbright', hx, hy⟩ := hstep
    rw [mem_bright_scattered] at hbright hbright'
    rw [abs_le] at hx hy
    rw [← ih]
    apply Prod.ext
    · omega
    · omega

theorem component_scattered (hp : p ∈ bright scatteredFrame 3) :
    component scatteredFrame 3 p = {p} := by
  ext q
  rw [mem_component hp, Finset.mem_singleton]
  constructor
  · exact connected_scattered
  · rintro rfl
    exact .refl

/-- The first 200 rows have exactly as many bright pixels as may be active. -/
theorem card_covered_scattered :
    (covered scatteredFrame 3 ((List.range 200).flatMap fun (i : ℕ) =>
      (List.range 2000).map fun (j : ℕ) => ((i : ℤ), (j : ℤ)))).card = maxActivePixels := by
  have himage : covered scatteredFrame 3 ((List.range 200).flatMap fun (i : ℕ) =>
      (List.range 2000).map fun (j : ℕ) => ((i : ℤ), (j : ℤ))) =
      (Finset.range 100 ×ˢ Finset.range 1000).image fun d => ((2 * d.1 : ℤ), (2 * d.2 : ℤ)) := by
    ext p
    rw [mem_covered]
    simp only [List.mem_flatMap, List.mem_map, List.mem_range, Finset.mem_image, Finset.mem_product,
      Finset.mem_range]
    constructor
    · rintro ⟨_, ⟨i, hi, j, hj, rfl⟩, hbright, hconnected⟩
      -- each bright pixel is a component of its own, at an even row and column
      obtain rfl := connected_scattered hconnected
      obtain ⟨-, -, hrow, hcolumn⟩ := mem_bright_scattered.mp hbright
      dsimp only at hrow hcolumn
      refine ⟨(i / 2, j / 2), ⟨by omega, by omega⟩, ?_⟩
      apply Prod.ext
      · dsimp only
        omega
      · dsimp only
        omega
    · rintro ⟨⟨i, j⟩, ⟨hi, hj⟩, rfl⟩
      refine ⟨_, ⟨2 * i, by omega, 2 * j, by omega, rfl⟩, ?_, ?_⟩
      · rw [mem_bright_scattered]
        dsimp only
        omega
      · push_cast
        exact .refl
  have hinjective : Function.Injective fun d : ℕ × ℕ => ((2 * d.1 : ℤ), (2 * d.2 : ℤ)) := by
    intro d d' h
    obtain ⟨hrow, hcolumn⟩ := Prod.mk.inj h
    apply Prod.ext
    · omega
    · omega
  rw [himage, Finset.card_image_of_injective _ hinjective, Finset.card_product, Finset.card_range,
    Finset.card_range]
  rfl

theorem atCap_scattered : AtCap scatteredFrame 3 := by
  refine ⟨(List.range 200).flatMap fun (i : ℕ) => (List.range 2000).map fun (j : ℕ) =>
    (↑i, ↑j), (200, 0),
    (List.range 1999).map fun (j : ℕ) => (200, ↑(j + 1)), ?_, ?_, ?_, card_covered_scattered, ?_⟩
  · have hrows : List.range 201 = List.range 200 ++ [200] := List.range_succ
    have hcolumns : List.range 2000 = 0 :: (List.range 1999).map Nat.succ := List.range_succ_eq_map
    unfold Image.pixels scatteredFrame
    rw [hrows, List.flatMap_append, List.flatMap_singleton, hcolumns, List.map_cons, List.map_map]
    rfl
  · rw [mem_bright_scattered]
    decide
  · rw [mem_covered]
    rintro ⟨p, hp, -, hconnected⟩
    obtain rfl := connected_scattered hconnected
    simp only [List.mem_flatMap, List.mem_map, List.mem_range, Prod.mk.injEq] at hp
    obtain ⟨i, hi, j, -, hrow, -⟩ := hp
    omega
  · have hnone : spotsOf scatteredFrame 3 ((List.range 200).flatMap fun (i : ℕ) =>
        (List.range 2000).map fun (j : ℕ) => ((i : ℤ), (j : ℤ))) = ∅ := by
      unfold spotsOf
      rw [Finset.filter_eq_empty_iff]
      intro c hc
      obtain ⟨p, hp, rfl⟩ := Finset.mem_image.mp hc
      rw [component_scattered (Finset.mem_inter.mp hp).2, Finset.card_singleton]
      decide
    rw [hnone]
    exact Nat.zero_le _

theorem overfull_iff_scattered :
    (∃ groups, performPixelGrouping stableSorter (maxActivePixels + 1) scatteredFrame 3 =
      some (-1, groups)) ↔ ¬ AtCap scatteredFrame 3 :=
  overfull_iff stableSorter (by decide) atCap_scattered.lt_card le_rfl

/-- The frame of scattered pixels has too many of them, but is not rejected. -/
theorem not_rejected_scattered : maxActivePixels < (bright scatteredFrame 3).card ∧
    ¬ ∃ groups, performPixelGrouping stableSorter (maxActivePixels + 1) scatteredFrame 3 =
      some (-1, groups) := by
  refine ⟨atCap_scattered.lt_card, ?_⟩
  rintro ⟨groups, hrejected⟩
  obtain ⟨n, groups', hreturns⟩ :=
    returned_of_atCap stableSorter (by decide : 0 < 3) le_rfl atCap_scattered
  rw [hrejected] at hreturns
  have hvalue : (-1 : ℤ) = n := congrArg Prod.fst (Option.some.inj hreturns)
  omega

end Scan

end ClickA.Processing
