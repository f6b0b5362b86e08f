import ClickA.Processing.Components

/-!
# The groups of a frame

The scan finds the components of the bright pixels, and keeps a group for each that is large enough.

## Main definitions

* `pieceGroup`: the group of a component that was found
* `Scanned`: the state of the scan behind some pixels

## Main results

* `pieceGroup_eq`: a group says what it should of its pixels
* `scanPixel_visit`, `exists_scanPixel`: what the scan of a pixel does
* `grouped`: `performPixelGrouping` computes the spots
-/

namespace ClickA.Processing

open Graph

/-! ## What a group says -/

section Acknowledge

variable {img : Image} {new : List (ℤ × ℤ)} {g : Group}

/-- The value of a pixel. -/
def Image.at (img : Image) (p : ℤ × ℤ) : ℕ := img.value (img.index p)

theorem acknowledgeAll_cons (p : ℤ × ℤ) (g : Group) :
    acknowledgeAll img (p :: new) g = acknowledgeAll img new (acknowledge img p g) := rfl

/-- As long as the counters do not overflow, a group counts and sums its pixels. -/
structure Sums (img : Image) (new : List (ℤ × ℤ)) (g g' : Group) : Prop where
  pixelCount : g'.pixelCount = g.pixelCount + new.length
  valueSum : g'.valueSum = g.valueSum + (new.map img.at).sum
  valueMax : g'.valueMax = max g.valueMax (new.toFinset.sup img.at)
  x : g'.x = g.x + ((new.map fun p => p.2 * (img.at p : ℤ)).sum : ℤ)
  y : g'.y = g.y + ((new.map fun p => p.1 * (img.at p : ℤ)).sum : ℤ)

theorem sums_acknowledgeAll (hcount : g.pixelCount + new.length < 2 ^ 32)
    (hsum : g.valueSum + (new.map img.at).sum < 2 ^ 32) :
    Sums img new g (acknowledgeAll img new g) := by
  induction new generalizing g with
  | nil =>
    exact ⟨rfl, rfl, by simp [acknowledgeAll], by simp [acknowledgeAll], by simp [acknowledgeAll]⟩
  | cons p new ih =>
    rw [List.length_cons] at hcount
    rw [List.map_cons, List.sum_cons] at hsum
    have hpixels : (acknowledge img p g).pixelCount = g.pixelCount + 1 :=
      Nat.mod_eq_of_lt (by omega)
    have hvalues : (acknowledge img p g).valueSum = g.valueSum + img.at p :=
      Nat.mod_eq_of_lt (show g.valueSum + img.at p < 2 ^ 32 by omega)
    have hmax : (acknowledge img p g).valueMax = max g.valueMax (img.at p) := by
      show (if img.at p > g.valueMax then img.at p else g.valueMax) = _
      split
      · next h => exact (max_eq_right h.le).symm
      · next h => exact (max_eq_left (Nat.not_lt.mp h)).symm
    obtain ⟨hcount', hsum', hmax', hx', hy'⟩ := ih (g := acknowledge img p g) (by omega) (by omega)
    rw [← acknowledgeAll_cons] at hcount' hsum' hmax' hx' hy'
    refine ⟨?_, ?_, ?_, ?_, ?_⟩
    · rw [hcount', hpixels, List.length_cons]
      omega
    · rw [hsum', hvalues, List.map_cons, List.sum_cons, Nat.add_assoc]
    · rw [hmax', hmax, List.toFinset_cons, Finset.sup_insert, max_assoc]
    · have hx : (acknowledge img p g).x = g.x + (p.2 * (img.at p : ℤ) : ℤ) := rfl
      rw [hx', hx, List.map_cons, List.sum_cons]
      push_cast
      rw [add_assoc]
    · have hy : (acknowledge img p g).y = g.y + (p.1 * (img.at p : ℤ) : ℤ) := rfl
      rw [hy', hy, List.map_cons, List.sum_cons]
      push_cast
      rw [add_assoc]

theorem pixelCount_mod (g : Group) (new : List (ℤ × ℤ)) :
    (acknowledgeAll img new g).pixelCount % 2 ^ 32 = (g.pixelCount + new.length) % 2 ^ 32 := by
  induction new generalizing g with
  | nil => rfl
  | cons p new ih =>
    rw [acknowledgeAll_cons, ih, List.length_cons]
    show ((g.pixelCount + 1) % 2 ^ 32 + new.length) % 2 ^ 32 = _
    omega

theorem pixelCount_lt (hg : g.pixelCount < 2 ^ 32) :
    (acknowledgeAll img new g).pixelCount < 2 ^ 32 := by
  induction new generalizing g with
  | nil => exact hg
  | cons p new ih => exact ih (Nat.mod_lt _ (by decide))

/-- As long as its counter does not overflow, a group counts its pixels. -/
theorem pixelCount_acknowledgeAll (hlength : new.length < 2 ^ 32) :
    (acknowledgeAll img new {}).pixelCount = new.length := by
  have hlt : (acknowledgeAll img new {}).pixelCount < 2 ^ 32 := pixelCount_lt (by decide)
  rw [← Nat.mod_eq_of_lt hlt, pixelCount_mod]
  show (0 + new.length) % 2 ^ 32 = _
  rw [Nat.zero_add, Nat.mod_eq_of_lt hlength]

/-- The group of a component that was found. -/
def pieceGroup (img : Image) (c : List (ℤ × ℤ)) : Group := (acknowledgeAll img c {}).centroid

theorem sum_at_le (hvalues : ∀ value ∈ img.data, value ≤ 1023) (c : List (ℤ × ℤ)) :
    (c.map img.at).sum ≤ c.length * 1023 := by
  have hat : ∀ p, img.at p ≤ 1023 := by
    intro p
    unfold Image.at Image.value
    rw [List.getD_eq_getElem?_getD]
    cases h : img.data[(img.index p).toNat]? with
    | none => exact Nat.zero_le _
    | some value => exact hvalues value (List.mem_of_getElem? h)
  induction c with
  | nil => exact Nat.le_refl _
  | cons p c ih =>
    have hp := hat p
    rw [List.map_cons, List.sum_cons, List.length_cons]
    omega

/-- The counters of a group do not overflow. -/
theorem sums_piece (hvalues : ∀ value ∈ img.data, value ≤ 1023) {c : List (ℤ × ℤ)}
    (hlen : c.length ≤ maxActivePixels) : Sums img c {} (acknowledgeAll img c {}) := by
  have hle := sum_at_le hvalues c
  unfold maxActivePixels at hlen
  apply sums_acknowledgeAll
  · show 0 + c.length < 2 ^ 32
    omega
  · show 0 + (c.map img.at).sum < 2 ^ 32
    omega

/-- **The group of a component says what it should.** -/
theorem pieceGroup_eq (hvalues : ∀ value ∈ img.data, value ≤ 1023) {c : List (ℤ × ℤ)}
    (hnodup : c.Nodup) (hlen : c.length ≤ maxActivePixels) :
    pieceGroup img c = describe img c.toFinset := by
  obtain ⟨hcount, hsum, hmax, hx, hy⟩ := sums_piece hvalues hlen
  -- the sums over the list are those over the set, since no pixel is counted twice
  have hsum' : (acknowledgeAll img c {}).valueSum = ∑ p ∈ c.toFinset, img.at p := by
    rw [hsum, List.sum_toFinset _ hnodup]
    exact Nat.zero_add _
  have hx' : (acknowledgeAll img c {}).x = (∑ p ∈ c.toFinset, (p.2 * (img.at p : ℤ)) : ℤ) := by
    rw [hx, List.sum_toFinset _ hnodup]
    exact zero_add _
  have hy' : (acknowledgeAll img c {}).y = (∑ p ∈ c.toFinset, (p.1 * (img.at p : ℤ)) : ℤ) := by
    rw [hy, List.sum_toFinset _ hnodup]
    exact zero_add _
  apply Group.ext
  · show (acknowledgeAll img c {}).x / (acknowledgeAll img c {}).valueSum = _
    rw [hx', hsum']
    rfl
  · show (acknowledgeAll img c {}).y / (acknowledgeAll img c {}).valueSum = _
    rw [hy', hsum']
    rfl
  · show (acknowledgeAll img c {}).valueMax = _
    rw [hmax]
    exact max_eq_right (Nat.zero_le _)
  · exact hsum'
  · show (acknowledgeAll img c {}).pixelCount = _
    rw [hcount, describe, List.toFinset_card_of_nodup hnodup]
    exact Nat.zero_add _

end Acknowledge

/-! ## The scan -/

section Scan

variable {sorter : Sorter} {fuel threshold : ℕ} {img : Image} {p : ℤ × ℤ} {looked : List (ℤ × ℤ)}
  {pieces : List (List (ℤ × ℤ))}

/-- A component is large enough. -/
def large (c : List (ℤ × ℤ)) : Bool := minPixelsPerGroup ≤ c.length

/-- The state of the scan, with the components that were found. -/
def scanned (img : Image) (pieces : List (List (ℤ × ℤ))) : Scan :=
  ⟨⟨(pieces.filter large).map (pieceGroup img), indices img pieces.flatten⟩,
      (pieces.filter large).length⟩

/-- The components of the bright pixels that the scan has looked at. -/
structure Scanned (img : Image) (threshold : ℕ) (looked : List (ℤ × ℤ))
    (pieces : List (List (ℤ × ℤ))) :
    Prop where
  found : Pieces (next img threshold) (looked.filter (· ∈ bright img threshold)) pieces
  bright : ∀ u ∈ pieces.flatten, u ∈ bright img threshold

theorem Scanned.seen (h : Scanned img threshold looked pieces) :
    Seen img threshold pieces.flatten :=
  ⟨h.found.nodup, h.bright⟩

/-- A component that was found is one. -/
theorem Scanned.toFinset_eq (h : Scanned img threshold looked pieces) {c : List (ℤ × ℤ)}
    (hc : c ∈ pieces) {u : ℤ × ℤ} (hu : u ∈ c) : c.toFinset = component img threshold u := by
  have hbright := h.bright u (List.mem_flatten.mpr ⟨c, hc, hu⟩)
  ext t
  rw [List.mem_toFinset, mem_component hbright, h.found.component c hc u hu, reaches_iff]

theorem Scanned.nodup_piece (h : Scanned img threshold looked pieces) {c : List (ℤ × ℤ)}
    (hc : c ∈ pieces) : c.Nodup := (List.nodup_flatten.mp h.found.nodup).1 c hc

/-- Different components are found. -/
theorem Scanned.nodup_toFinset (h : Scanned img threshold looked pieces) :
    (pieces.map List.toFinset).Nodup := by
  have hdisjoint := (List.nodup_flatten.mp h.found.nodup).2
  rw [List.Nodup, List.pairwise_map]
  apply hdisjoint.imp_of_mem
  intro c d hc hd hcd hsame
  obtain ⟨u, hu⟩ := List.exists_mem_of_ne_nil c (h.found.nonempty c hc)
  have hud : u ∈ d := by
    rw [← List.mem_toFinset, ← hsame, List.mem_toFinset]
    exact hu
  exact hcd hu hud

/-- The large components are spots. -/
theorem Scanned.mem_spots (h : Scanned img threshold looked pieces) {c : List (ℤ × ℤ)}
    (hc : c ∈ pieces.filter large) : c.toFinset ∈ spots img threshold := by
  obtain ⟨hc, hlarge⟩ := List.mem_filter.mp hc
  obtain ⟨u, hu⟩ := List.exists_mem_of_ne_nil c (h.found.nonempty c hc)
  have hbright := h.bright u (List.mem_flatten.mpr ⟨c, hc, hu⟩)
  rw [spots, Finset.mem_filter, Finset.mem_image]
  refine ⟨⟨u, hbright, (h.toFinset_eq hc hu).symm⟩, ?_⟩
  rw [List.toFinset_card_of_nodup (h.nodup_piece hc)]
  simpa [large] using hlarge

theorem Scanned.length_le (h : Scanned img threshold looked pieces) :
    (pieces.filter large).length ≤ (spots img threshold).card := by
  have hnodup : ((pieces.filter large).map List.toFinset).Nodup :=
    (List.filter_sublist.map _).nodup h.nodup_toFinset
  calc (pieces.filter large).length = ((pieces.filter large).map List.toFinset).toFinset.card := by
        rw [List.toFinset_card_of_nodup hnodup, List.length_map]
    _ ≤ (spots img threshold).card := by
        apply Finset.card_le_card
        intro c hc
        obtain ⟨d, hd, rfl⟩ := List.mem_map.mp (List.mem_toFinset.mp hc)
        exact h.mem_spots hd

/-- A pixel that is not bright, or that belongs to a component, is looked at. -/
theorem Scanned.skip (h : Scanned img threshold looked pieces)
    (hskip : p ∈ Processing.bright img threshold → p ∈ pieces.flatten) :
    Scanned img threshold (looked ++ [p]) pieces where
  found := by
    rw [List.filter_append]
    by_cases hbright : p ∈ Processing.bright img threshold
    · rw [List.filter_cons_of_pos (by simpa using hbright)]
      exact h.found.skip (hskip hbright)
    · rw [List.filter_cons_of_neg (by simpa using hbright), List.filter_nil, List.append_nil]
      exact h.found
  bright := h.bright

/-- The component of a new pixel is found. -/
theorem Scanned.grow (h : Scanned img threshold looked pieces) {new : List (ℤ × ℤ)}
    (hp : p ∈ Processing.bright img threshold) (hnew : p ∉ pieces.flatten)
    (hgrown : Grown (next img threshold) [p] pieces.flatten new) :
    Scanned img threshold (looked ++ [p]) (pieces ++ [new]) where
  found := by
    rw [List.filter_append, List.filter_cons_of_pos (by simpa using hp)]
    exact h.found.grow next_symm hnew hgrown
  bright := by
    rw [List.flatten_append, List.flatten_singleton]
    exact (h.seen.append (by simpa using hp) hgrown).bright

/-- The scan passes a pixel that is not bright, or that is in a group. -/
theorem scanPixel_skip (hold : Seen img threshold pieces.flatten) (hp : img.contains p = true)
    (hskip : p ∈ bright img threshold → p ∈ pieces.flatten) :
    scanPixel sorter fuel img threshold (scanned img pieces) p = .ok (scanned img pieces) := by
  apply if_neg
  rintro ⟨hvalue, hindex⟩
  exact hindex ((mem_indices hold.bright hp).mpr (hskip (mem_bright.mpr ⟨hp, hvalue⟩)))

theorem modify_concat {α : Type} (xs : List α) (x : α) (f : α → α) :
    (xs ++ [x]).modify xs.length f = xs ++ [f x] := by
  induction xs with
  | nil => rfl
  | cons y xs ih => rw [List.cons_append, List.length_cons, List.modify_succ_cons, ih,
      List.cons_append]

/-- What the scan makes of a new pixel. -/
def grow (sorter : Sorter) (img : Image) (pieces : List (List (ℤ × ℤ))) (new : List (ℤ × ℤ)) :
    Except Stop Scan :=
  if new.length < minPixelsPerGroup then .ok (scanned img (pieces ++ [new]))
  else if (pieces ++ [new]).flatten.length > maxActivePixels then .error (.returned (-1) [])
  else if ((pieces ++ [new]).filter large).length > maxGroups then
    .error (.returned (-1) (sorter.sort (((pieces ++ [new]).filter large).map (pieceGroup img))))
  else .ok (scanned img (pieces ++ [new]))

/-- **The scan of a new pixel.** -/
theorem scanPixel_visit (hold : Seen img threshold pieces.flatten) {new : List (ℤ × ℤ)}
    (hlength : new.length < 2 ^ 32) (hp : p ∈ bright img threshold) (hnew : p ∉ pieces.flatten)
    (hvisit : visitUpTo (next img threshold) maxActivePixels fuel pieces.flatten p =
      some (pieces.flatten ++ new)) :
    scanPixel sorter fuel img threshold (scanned img pieces) p = grow sorter img pieces new := by
  obtain ⟨hcontains, hvalue⟩ := mem_bright.mp hp
  have hfresh : img.index p ∉ indices img pieces.flatten :=
    mt (mem_indices hold.bright hcontains).mp hnew
  have hlen : (pieces.filter large).length = ((pieces.filter large).map (pieceGroup img)).length :=
    (List.length_map _).symm
  have hpropagate : propagateGroup img threshold (pieces.filter large).length fuel
      ⟨(pieces.filter large).map (pieceGroup img) ++ [({} : Group)], indices img pieces.flatten⟩ p =
      some ⟨(pieces.filter large).map (pieceGroup img) ++ [acknowledgeAll img new ({} : Group)],
        indices img (pieces.flatten ++ new)⟩ := by
    rw [propagateGroup_upTo _ hold hp hnew hvisit, propagated, hlen, modify_concat]
  have hcard := (hold.upTo hp hnew hvisit).card_indices
  have hcount : (acknowledgeAll img new {}).pixelCount = new.length :=
      pixelCount_acknowledgeAll hlength
  have hget : ((pieces.filter large).map (pieceGroup img) ++
      [acknowledgeAll img new ({} : Group)]).getD
      (pieces.filter large).length {} = acknowledgeAll img new {} := by
    rw [hlen, List.getD_eq_getElem?_getD, List.getElem?_concat_length]
    rfl
  unfold scanPixel scanned grow
  rw [if_pos ⟨hvalue, hfresh⟩]
  simp only [hpropagate, hget, hcount, List.flatten_append, List.flatten_singleton,
    List.filter_append,
    hcard]
  by_cases hlarge : minPixelsPerGroup ≤ new.length
  · have hfilter : [new].filter large = [new] := by simp [large, hlarge]
    have hmodify : ((pieces.filter large).map (pieceGroup img) ++
        [acknowledgeAll img new ({} : Group)]).modify (pieces.filter large).length Group.centroid =
        (pieces.filter large ++ [new]).map (pieceGroup img) := by
      rw [hlen, modify_concat, List.map_append]
      rfl
    have hscanned : scanned img (pieces ++ [new]) =
        ⟨⟨(pieces.filter large ++ [new]).map (pieceGroup img),
        indices img (pieces.flatten ++ new)⟩, (pieces.filter large).length + 1⟩ := by
      unfold scanned
      rw [List.filter_append, hfilter, List.flatten_append, List.flatten_singleton,
        List.length_append,
        List.length_singleton]
    rw [if_neg (Nat.not_lt.mpr hlarge), if_neg (Nat.not_lt.mpr hlarge), hfilter, hmodify, hscanned,
      List.length_append, List.length_append, List.length_singleton]
  · have hfilter : [new].filter large = [] := by simp [large, hlarge]
    have hscanned : scanned img (pieces ++ [new]) = ⟨⟨(pieces.filter large).map (pieceGroup img),
        indices img (pieces.flatten ++ new)⟩, (pieces.filter large).length⟩ := by
      unfold scanned
      rw [List.filter_append, hfilter, List.flatten_append, List.flatten_singleton, List.append_nil]
    rw [if_pos (Nat.not_le.mp hlarge), if_pos (Nat.not_le.mp hlarge), List.dropLast_concat,
      hscanned]

/-- The scan finds the component of a new pixel. -/
theorem grow_of_le {new : List (ℤ × ℤ)}
    (hactive : (pieces ++ [new]).flatten.length ≤ maxActivePixels)
    (hgroups : ((pieces ++ [new]).filter large).length ≤ maxGroups) :
    grow sorter img pieces new = .ok (scanned img (pieces ++ [new])) := by
  unfold grow
  rw [if_neg (Nat.not_lt.mpr hactive), if_neg (Nat.not_lt.mpr hgroups), ite_self]

/-- **What the scan of a pixel does.** -/
theorem exists_scanPixel (h : Scanned img threshold looked pieces)
    (hactive : (bright img threshold).card ≤ maxActivePixels)
    (hspots : (spots img threshold).card ≤ maxGroups)
    (hfuel : (bright img threshold).card ≤ fuel) (hp : img.contains p = true) :
    ∃ pieces', scanPixel sorter fuel img threshold (scanned img pieces) p =
      .ok (scanned img pieces') ∧
      Scanned img threshold (looked ++ [p]) pieces' := by
  by_cases hnew : p ∈ bright img threshold ∧ p ∉ pieces.flatten
  · obtain ⟨hbright, hold⟩ := hnew
    have hclosed : ∀ u ∈ bright img threshold, ∀ t ∈ next img threshold u,
        t ∈ bright img threshold :=
      fun u _ t ht => (mem_next.mp ht).2.1
    have hunseen : (unseen (bright img threshold) pieces.flatten).card ≤ fuel :=
      (card_unseen_le _ _).trans hfuel
    obtain ⟨seen', hvisit⟩ := exists_visit hclosed hbright hold hunseen
    obtain ⟨new, rfl, hgrown⟩ := grown_of_visit hvisit hold
    have hscanned := h.grow hbright hold hgrown
    have hvisit' := visitUpTo_of_visit hactive (h.seen.append (by simpa using hbright) hgrown)
        hvisit
    have hlength := hscanned.seen.length_le.trans hactive
    have hshort : new.length < 2 ^ 32 := by
      rw [List.flatten_append, List.flatten_singleton, List.length_append] at hlength
      unfold maxActivePixels at hlength
      omega
    refine ⟨pieces ++ [new], ?_, hscanned⟩
    rw [scanPixel_visit h.seen hshort hbright hold hvisit']
    exact grow_of_le hlength (hscanned.length_le.trans hspots)
  · have hskip : p ∈ bright img threshold → p ∈ pieces.flatten := not_and_not_right.mp hnew
    exact ⟨pieces, scanPixel_skip h.seen hp hskip, h.skip hskip⟩

/-- The scan of all pixels. -/
theorem exists_scan (sorter : Sorter)
    (hactive : (bright img threshold).card ≤ maxActivePixels)
    (hspots : (spots img threshold).card ≤ maxGroups)
    (hfuel : (bright img threshold).card ≤ fuel) (ps : List (ℤ × ℤ))
    (hps : ∀ p ∈ ps, img.contains p = true) {looked : List (ℤ × ℤ)} {pieces : List (List (ℤ × ℤ))}
    (h : Scanned img threshold looked pieces) : ∃ pieces',
      ps.foldlM (scanPixel sorter fuel img threshold)
          (scanned img pieces) = .ok (scanned img pieces') ∧
      Scanned img threshold (looked ++ ps) pieces' := by
  induction ps generalizing looked pieces with
  | nil =>
    rw [List.append_nil]
    exact ⟨pieces, rfl, h⟩
  | cons p ps ih =>
    obtain ⟨pieces₁, hfirst, h₁⟩ := exists_scanPixel h hactive hspots hfuel
      (hps p List.mem_cons_self)
    obtain ⟨pieces₂, hrest, h₂⟩ := ih (fun q hq => hps q (List.mem_cons_of_mem _ hq)) h₁
    refine ⟨pieces₂, ?_, ?_⟩
    · rw [List.foldlM_cons, hfirst]
      exact hrest
    · rwa [List.append_assoc] at h₂

/-! ## The groups -/

/-- Behind all pixels, the large components are the spots. -/
theorem Scanned.perm_spots (h : Scanned img threshold img.pixels pieces) :
    ((pieces.filter large).map List.toFinset).Perm (spots img threshold).toList := by
  have hnodup : ((pieces.filter large).map List.toFinset).Nodup :=
    (List.filter_sublist.map _).nodup h.nodup_toFinset
  rw [List.perm_ext_iff_of_nodup hnodup (Finset.nodup_toList _)]
  intro c
  rw [Finset.mem_toList]
  constructor
  · intro hc
    obtain ⟨d, hd, rfl⟩ := List.mem_map.mp hc
    exact h.mem_spots hd
  · intro hc
    obtain ⟨hc, hcard⟩ := Finset.mem_filter.mp hc
    obtain ⟨p, hp, rfl⟩ := Finset.mem_image.mp hc
    have hcovered : p ∈ pieces.flatten := by
      apply h.found.covers
      rw [List.mem_filter, mem_pixels]
      exact ⟨(mem_bright.mp hp).1, by simpa using hp⟩
    obtain ⟨d, hd, hpd⟩ := List.mem_flatten.mp hcovered
    have hsame := h.toFinset_eq hd hpd
    refine List.mem_map.mpr ⟨d, List.mem_filter.mpr ⟨hd, ?_⟩, hsame⟩
    rw [← hsame, List.toFinset_card_of_nodup (h.nodup_piece hd)] at hcard
    simpa [large] using hcard

/-- Each group says what it should of its spot. -/
theorem Scanned.groups_eq (h : Scanned img threshold looked pieces)
    (hvalues : ∀ value ∈ img.data, value ≤ 1023)
    (hactive : (Processing.bright img threshold).card ≤ maxActivePixels) :
    (pieces.filter large).map (pieceGroup img) =
      ((pieces.filter large).map List.toFinset).map (describe img) := by
  rw [List.map_map]
  apply List.map_congr_left
  intro c hc
  have hmem := (List.mem_filter.mp hc).1
  have hnodup := h.nodup_piece hmem
  apply pieceGroup_eq hvalues hnodup
  refine le_trans ?_ hactive
  rw [← List.toFinset_card_of_nodup hnodup]
  apply Finset.card_le_card
  intro u hu
  exact h.bright u (List.mem_flatten.mpr ⟨c, hmem, List.mem_toFinset.mp hu⟩)

/-- The scan passes all pixels. -/
theorem perform_of_scan (hthreshold : 0 < threshold) {s : Scan}
    (hscan : img.pixels.foldlM (scanPixel sorter fuel img threshold) (scanned img []) = .ok s) :
    performPixelGrouping sorter fuel img threshold =
      some (((if s.groups.length > 0 then sorter.sort s.groups else s.groups).length : ℤ),
        if s.groups.length > 0 then sorter.sort s.groups else s.groups) := by
  have hscan' : img.pixels.foldlM (scanPixel sorter fuel img threshold) ⟨⟨[], ∅⟩, 0⟩ = .ok s :=
      hscan
  unfold performPixelGrouping
  rw [if_neg (Nat.pos_iff_ne_zero.mp hthreshold)]
  dsimp only
  rw [hscan']

/-- For each frame with pixels up to 1023 and each positive threshold such that there are not too
many bright pixels or spots, the number of spots is returned, and there is one group for each spot,
sorted by their maxima. -/
theorem grouped (sorter : Sorter) (hthreshold : 0 < threshold)
    (hvalues : ∀ value ∈ img.data, value ≤ 1023)
    (hactive : (bright img threshold).card ≤ maxActivePixels)
    (hspots : (spots img threshold).card ≤ maxGroups)
    (hfuel : (bright img threshold).card ≤ fuel) :
    ∃ groups : List Group,
      performPixelGrouping sorter fuel img threshold =
          some (((spots img threshold).card : ℤ), groups) ∧
      groups.Perm ((spots img threshold).toList.map (describe img)) ∧
      groups.Pairwise fun g g' => g'.valueMax ≤ g.valueMax := by
  have hstart : Scanned img threshold [] [] := ⟨.nil, fun _ hu => absurd hu List.not_mem_nil⟩
  obtain ⟨pieces, hscan, h⟩ := exists_scan sorter hactive hspots hfuel img.pixels
    (fun _ => mem_pixels.mp) hstart
  rw [List.nil_append] at h
  have hlength : (pieces.filter large).length = (spots img threshold).card := by
    have hperm := h.perm_spots.length_eq
    rwa [List.length_map, Finset.length_toList] at hperm
  obtain ⟨found, hfound⟩ : ∃ found, (pieces.filter large).map (pieceGroup img) = found := ⟨_, rfl⟩
  have hperm : found.Perm ((spots img threshold).toList.map (describe img)) := by
    rw [← hfound, h.groups_eq hvalues hactive]
    exact h.perm_spots.map _
  have hcount : found.length = (spots img threshold).card := by
    rw [← hfound, List.length_map, hlength]
  have hperform : performPixelGrouping sorter fuel img threshold =
      some (((if found.length > 0 then sorter.sort found else found).length : ℤ),
        if found.length > 0 then sorter.sort found else found) := by
    rw [perform_of_scan hthreshold hscan, ← hfound]
    rfl
  by_cases hnone : found.length > 0
  · rw [if_pos hnone] at hperform
    refine ⟨sorter.sort found, ?_, (sorter.perm found).trans hperm, sorter.sorted found⟩
    rw [hperform, (sorter.perm found).length_eq, hcount]
  · rw [if_neg hnone] at hperform
    have hnil : found = [] := List.length_eq_zero_iff.mp (by omega)
    refine ⟨found, ?_, hperm, ?_⟩
    · rw [hperform, hcount]
    · rw [hnil]
      exact List.Pairwise.nil

/-- A stable sort. -/
def stableSorter : Sorter where
  sort groups := groups.mergeSort fun g g' => g'.valueMax ≤ g.valueMax
  perm groups := List.mergeSort_perm groups _
  sorted groups := by
    have htrans : ∀ a b c : Group, decide (b.valueMax ≤ a.valueMax) →
        decide (c.valueMax ≤ b.valueMax) →
        decide (c.valueMax ≤ a.valueMax) := by
      intro a b c hab hbc
      simp only [decide_eq_true_eq] at hab hbc ⊢
      exact hbc.trans hab
    have htotal : ∀ a b : Group, decide (b.valueMax ≤ a.valueMax) ||
        decide (a.valueMax ≤ b.valueMax) := by
      intro a b
      rw [Bool.or_eq_true, decide_eq_true_eq, decide_eq_true_eq]
      exact Nat.le_total _ _
    exact (List.pairwise_mergeSort htrans htotal groups).imp fun h => of_decide_eq_true h

theorem card_bright_le (img : Image) (threshold : ℕ) :
    (bright img threshold).card ≤ img.h * img.w := by
  calc (bright img threshold).card
      ≤ (img.pixels.filter fun p => img.value (img.index p) > threshold).length :=
        List.toFinset_card_le _
    _ ≤ img.pixels.length := List.length_filter_le _ _
    _ = img.h * img.w := img.length_pixels

theorem card_spots_le (img : Image) (threshold : ℕ) :
    (spots img threshold).card ≤ (bright img threshold).card :=
  (Finset.card_filter_le _ _).trans Finset.card_image_le

/-- A frame of two rows with a spot of two pixels that touch diagonally, and a hot pixel. -/
def diagonalFrame : Image where
  w := 4
  h := 2
  data := [5, 0, 0, 8, 0, 9, 0, 0]
  length_data := rfl
  histMean := 2

theorem grouped_diagonal : ∃ groups : List Group,
    performPixelGrouping stableSorter 8 diagonalFrame 3 =
      some (((spots diagonalFrame 3).card : ℤ), groups) ∧
    groups.Perm ((spots diagonalFrame 3).toList.map (describe diagonalFrame)) ∧
    groups.Pairwise fun g g' => g'.valueMax ≤ g.valueMax := by
  have hbright : (bright diagonalFrame 3).card ≤ 8 := card_bright_le diagonalFrame 3
  have hspots := (card_spots_le diagonalFrame 3).trans hbright
  exact grouped stableSorter (by decide) (by decide) (hbright.trans (by decide))
    (hspots.trans (by decide)) hbright

/-- There is one group, with its centroid. -/
example : performPixelGrouping stableSorter 8 diagonalFrame 3 =
    some (1, [{ x := 9 / 14, y := 9 / 14, valueMax := 9, valueSum := 14, pixelCount := 2 }]) := by
  decide +kernel

end Scan

end ClickA.Processing
