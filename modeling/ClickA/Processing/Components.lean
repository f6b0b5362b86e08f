import ClickA.Graph.Limited
import ClickA.Processing.Grouping
import Mathlib.Algebra.BigOperators.Group.Finset.Basic
import Mathlib.Algebra.Order.Group.Int

/-!
# The components of a frame

`propagateGroup` is a depth-first search among the bright pixels, and the scan finds their
components one by one.

## Main definitions

* `next`: the bright pixels around a bright pixel
* `acknowledgeAll`: what the propagation makes of a group
* `Seen`: the pixels that a search may have seen

## Main results

* `propagateGroup_upTo`: the propagation is the search with a limit
* `visitUpTo_of_visit`: when there are not too many bright pixels, it has no limit
-/

namespace ClickA.Processing

open Graph

section Pixels

variable {img : Image} {threshold : ℕ} {p q : ℤ × ℤ}

/-! ## Pixels -/

theorem contains_iff : img.contains p = true ↔ (0 ≤ p.1 ∧ p.1 < img.h) ∧ 0 ≤ p.2 ∧ p.2 < img.w := by
  simp [Image.contains, and_assoc]

theorem mem_pixels : p ∈ img.pixels ↔ img.contains p = true := by
  rw [contains_iff]
  simp only [Image.pixels, List.mem_flatMap, List.mem_map, List.mem_range]
  constructor
  · rintro ⟨i, hi, j, hj, rfl⟩
    dsimp only
    omega
  · rintro ⟨⟨hi, hi'⟩, hj, hj'⟩
    refine ⟨p.1.toNat, by omega, p.2.toNat, by omega, ?_⟩
    rw [Int.toNat_of_nonneg hi, Int.toNat_of_nonneg hj]

theorem Image.length_pixels (img : Image) : img.pixels.length = img.h * img.w := by
  simp only [Image.pixels, List.length_flatMap, List.length_map, List.length_range,
    List.map_const']
  exact List.sum_replicate_nat

theorem mem_bright : p ∈ bright img threshold ↔
    img.contains p = true ∧ img.value (img.index p) > threshold := by
  rw [bright, List.mem_toFinset, List.mem_filter, mem_pixels, decide_eq_true_eq]

/-- Pixels of the frame have different indices. -/
theorem index_inj (hp : img.contains p = true) (hq : img.contains q = true)
    (h : img.index p = img.index q) : p = q := by
  obtain ⟨-, hp⟩ := contains_iff.mp hp
  obtain ⟨-, hq⟩ := contains_iff.mp hq
  unfold Image.index at h
  have hpos : (0 : ℤ) < img.w := by omega
  have hrow : p.1 = q.1 := by
    have hdivp : (p.1 * img.w + p.2) / img.w = p.1 := by
      rw [Int.add_comm, Int.add_mul_ediv_right _ _ hpos.ne', Int.ediv_eq_zero_of_lt hp.1 hp.2,
        Int.zero_add]
    have hdivq : (q.1 * img.w + q.2) / img.w = q.1 := by
      rw [Int.add_comm, Int.add_mul_ediv_right _ _ hpos.ne', Int.ediv_eq_zero_of_lt hq.1 hq.2,
        Int.zero_add]
    rw [← hdivp, h, hdivq]
  rw [hrow] at h
  exact Prod.ext hrow (by omega)

/-- The indices of some pixels. -/
def indices (img : Image) (seen : List (ℤ × ℤ)) : Finset ℤ := (seen.map img.index).toFinset

theorem mem_indices {seen : List (ℤ × ℤ)} (hseen : ∀ u ∈ seen, u ∈ bright img threshold)
    (hp : img.contains p = true) : img.index p ∈ indices img seen ↔ p ∈ seen := by
  rw [indices, List.mem_toFinset, List.mem_map]
  constructor
  · rintro ⟨u, hu, hindex⟩
    obtain rfl := index_inj (mem_bright.mp (hseen u hu)).1 hp hindex
    exact hu
  · exact fun h => ⟨p, h, rfl⟩

theorem indices_concat (img : Image) (seen : List (ℤ × ℤ)) (p : ℤ × ℤ) :
    insert (img.index p) (indices img seen) = indices img (seen ++ [p]) := by
  unfold indices
  ext i
  simp

/-- Bright pixels have as many indices as there are pixels. -/
theorem card_indices {seen : List (ℤ × ℤ)} (hseen : ∀ u ∈ seen, u ∈ bright img threshold)
    (hnodup : seen.Nodup) : (indices img seen).card = seen.length := by
  have hindex : (seen.map img.index).Nodup := by
    apply hnodup.map_on
    intro u hu t ht
    exact index_inj (mem_bright.mp (hseen u hu)).1 (mem_bright.mp (hseen t ht)).1
  rw [indices, List.toFinset_card_of_nodup hindex, List.length_map]

/-! ## Neighbours -/

/-- The bright pixels around a bright pixel. -/
def next (img : Image) (threshold : ℕ) (p : ℤ × ℤ) : List (ℤ × ℤ) :=
  if p ∈ bright img threshold then
    (offsets.map fun d => (p.1 + d.1, p.2 + d.2)).filter (· ∈ bright img threshold)
  else []

theorem mem_offsets_iff (d : ℤ × ℤ) : d ∈ offsets ↔ |d.1| ≤ 1 ∧ |d.2| ≤ 1 := by
  obtain ⟨x, y⟩ := d
  show (x, y) ∈ offsets ↔ |x| ≤ 1 ∧ |y| ≤ 1
  rw [abs_le, abs_le]
  simp only [offsets, List.mem_cons, Prod.mk.injEq, List.not_mem_nil, or_false]
  omega

theorem mem_next : q ∈ next img threshold p ↔
    p ∈ bright img threshold ∧ q ∈ bright img threshold ∧ Adjacent p q := by
  unfold next
  split
  · next hp =>
    rw [List.mem_filter, List.mem_map]
    simp only [decide_eq_true_eq, hp, true_and]
    constructor
    · rintro ⟨⟨d, hd, rfl⟩, hq⟩
      refine ⟨hq, ?_⟩
      obtain ⟨hx, hy⟩ := (mem_offsets_iff d).mp hd
      unfold Adjacent
      simp only [sub_add_cancel_left, abs_neg]
      exact ⟨hx, hy⟩
    · rintro ⟨hq, hx, hy⟩
      refine ⟨⟨(q.1 - p.1, q.2 - p.2), ?_, by simp⟩, hq⟩
      rw [mem_offsets_iff, abs_sub_comm, abs_sub_comm q.2]
      exact ⟨hx, hy⟩
  · next hp => simp [hp]

theorem next_symm (a b : ℤ × ℤ) (h : b ∈ next img threshold a) : a ∈ next img threshold b := by
  obtain ⟨ha, hb, hx, hy⟩ := mem_next.mp h
  refine mem_next.mpr ⟨hb, ha, ?_, ?_⟩
  · rwa [abs_sub_comm]
  · rwa [abs_sub_comm]

/-- Being reached is being connected. -/
theorem reaches_iff : Reaches (next img threshold) p q ↔ Connected img threshold p q := by
  unfold Reaches Connected
  simp only [mem_next]

theorem mem_bright_of_connected (hp : p ∈ bright img threshold) (h : Connected img threshold p q) :
    q ∈ bright img threshold := by
  cases h with
  | refl => exact hp
  | tail _ hstep => exact hstep.2.1

theorem mem_component (hp : p ∈ bright img threshold) :
    q ∈ component img threshold p ↔ Connected img threshold p q := by
  simp only [component, Finset.mem_filter]
  exact ⟨And.right, fun h => ⟨mem_bright_of_connected hp h, h⟩⟩

end Pixels

/-! ## The propagation -/

section Propagate

variable {img : Image} {threshold currentGroup fuel : ℕ} {p : ℤ × ℤ} {seen new : List (ℤ × ℤ)}
  {groups : List Group}

/-- Pixels are acknowledged one by one. -/
def acknowledgeAll (img : Image) (new : List (ℤ × ℤ)) (g : Group) : Group :=
  new.foldl (fun g p => acknowledge img p g) g

/-- What was changed by a propagation. -/
def propagated (img : Image) (groups : List Group) (currentGroup : ℕ) (seen new : List (ℤ × ℤ)) :
    Propagation :=
  ⟨groups.modify currentGroup (acknowledgeAll img new), indices img (seen ++ new)⟩

theorem propagated_append (new new' : List (ℤ × ℤ)) :
    propagated img (groups.modify currentGroup (acknowledgeAll img new)) currentGroup
      (seen ++ new) new' =
      propagated img groups currentGroup seen (new ++ new') := by
  unfold propagated
  rw [List.modify_modify_eq, List.append_assoc]
  congr 2
  funext g
  simp [acknowledgeAll]

theorem propagated_nil : propagated img groups currentGroup seen [] =
    ⟨groups, indices img seen⟩ := by
  have hid : acknowledgeAll img [] = id := rfl
  rw [propagated, hid, List.modify_id, List.append_nil]

/-- The body of the loop over the neighbours. -/
def propagateNext (img : Image) (threshold currentGroup fuel : ℕ) (p : ℤ × ℤ) (s : Propagation)
    (d : ℤ × ℤ) : Option Propagation :=
  let q := (p.1 + d.1, p.2 + d.2)
  if img.contains q then
    if img.index q ∉ s.groupedPixels ∧ img.value (img.index q) > threshold then
      propagateGroup img threshold currentGroup fuel s q
    else some s
  else some s

theorem propagateGroup_beyond (s : Propagation)
    (hcard : maxActivePixels < (insert (img.index p) s.groupedPixels).card) :
    propagateGroup img threshold currentGroup (fuel + 1) s p =
      some ⟨s.groups.modify currentGroup (acknowledge img p),
          insert (img.index p) s.groupedPixels⟩ :=
  if_pos hcard

theorem propagateGroup_succ (s : Propagation) (hcard : (insert (img.index p) s.groupedPixels).card ≤
      maxActivePixels) : propagateGroup img threshold currentGroup (fuel + 1) s p =
    offsets.foldlM (propagateNext img threshold currentGroup fuel p)
      ⟨s.groups.modify currentGroup (acknowledge img p), insert (img.index p) s.groupedPixels⟩ :=
  if_neg (Nat.not_lt.mpr hcard)

/-- The pixels that a search may have seen. -/
structure Seen (img : Image) (threshold : ℕ) (seen : List (ℤ × ℤ)) : Prop where
  nodup : seen.Nodup
  bright : ∀ u ∈ seen, u ∈ bright img threshold

theorem Seen.card_indices (h : Seen img threshold seen) : (indices img seen).card = seen.length :=
  Processing.card_indices h.bright h.nodup

theorem Seen.length_le (h : Seen img threshold seen) :
    seen.length ≤ (Processing.bright img threshold).card := by
  rw [← List.toFinset_card_of_nodup h.nodup]
  apply Finset.card_le_card
  intro u hu
  exact h.bright u (List.mem_toFinset.mp hu)

theorem Seen.concat (h : Seen img threshold seen) (hp : p ∈ Processing.bright img threshold)
    (hold : p ∉ seen) : Seen img threshold (seen ++ [p]) where
  nodup := by
    rw [List.nodup_append]
    refine ⟨h.nodup, List.nodup_singleton p, ?_⟩
    rintro a ha b hb rfl
    exact hold ((List.mem_singleton.mp hb) ▸ ha)
  bright u hu := by
    rcases List.mem_append.mp hu with hu | hu
    · exact h.bright u hu
    · rwa [List.mem_singleton.mp hu]

/-- What a search with a limit adds is bright, and was not seen. -/
theorem Seen.upTo {cap : ℕ} {seen' : List (ℤ × ℤ)} (h : Seen img threshold seen)
    (hp : p ∈ Processing.bright img threshold) (hold : p ∉ seen)
    (hvisit : visitUpTo (next img threshold) cap fuel seen p = some seen') :
    Seen img threshold seen' := by
  apply visitUpTo_keeps ?_ hold h hvisit
  intro s u hs hu hreach
  exact hs.concat (mem_bright_of_connected hp (reaches_iff.mp hreach)) hu

/-- What a search adds is bright, and was not seen. -/
theorem Seen.append (h : Seen img threshold seen) {roots : List (ℤ × ℤ)}
    (hroots : ∀ u ∈ roots, u ∈ Processing.bright img threshold)
    (hgrown : Grown (next img threshold) roots seen new) : Seen img threshold (seen ++ new) where
  nodup := by
    rw [List.nodup_append]
    refine ⟨h.nodup, hgrown.nodup, ?_⟩
    rintro a ha b hb rfl
    exact hgrown.fresh a hb ha
  bright u hu := by
    rcases List.mem_append.mp hu with hu | hu
    · exact h.bright u hu
    · obtain ⟨v, hv, hreach⟩ := hgrown.reached u hu
      exact mem_bright_of_connected (hroots v hv) (reaches_iff.mp hreach)

/-- One neighbour of the loop, when it is no bright pixel that was not seen. -/
theorem propagateNext_skip {d : ℤ × ℤ} (hseen : Seen img threshold seen)
    (hskip : (p.1 + d.1, p.2 + d.2) ∈ bright img threshold → (p.1 + d.1, p.2 + d.2) ∈ seen) :
    propagateNext img threshold currentGroup fuel p ⟨groups, indices img seen⟩ d =
      some ⟨groups, indices img seen⟩ := by
  unfold propagateNext
  dsimp only
  split
  · next hcontains =>
    apply if_neg
    rintro ⟨hindex, hvalue⟩
    exact hindex ((mem_indices hseen.bright hcontains).mpr
      (hskip (mem_bright.mpr ⟨hcontains, hvalue⟩)))
  · rfl

theorem propagateNext_visit {d : ℤ × ℤ} (hseen : Seen img threshold seen)
    (hbright : (p.1 + d.1, p.2 + d.2) ∈ bright img threshold)
    (hnew : (p.1 + d.1, p.2 + d.2) ∉ seen) :
    propagateNext img threshold currentGroup fuel p ⟨groups, indices img seen⟩ d =
      propagateGroup img threshold currentGroup fuel ⟨groups, indices img seen⟩
        (p.1 + d.1, p.2 + d.2) := by
  obtain ⟨hcontains, hvalue⟩ := mem_bright.mp hbright
  unfold propagateNext
  dsimp only
  rw [if_pos hcontains, if_pos ⟨mt (mem_indices hseen.bright hcontains).mp hnew, hvalue⟩]

/-- The loop over the neighbours is that of the search. -/
theorem propagate_loop
    (ih : ∀ groups seen new q, Seen img threshold seen → q ∈ bright img threshold → q ∉ seen →
      visitUpTo (next img threshold) maxActivePixels fuel seen q = some (seen ++ new) →
      propagateGroup img threshold currentGroup fuel ⟨groups, indices img seen⟩ q =
        some (propagated img groups currentGroup seen new))
    (ds : List (ℤ × ℤ)) (groups : List Group) {seen new : List (ℤ × ℤ)}
    (hseen : Seen img threshold seen)
    (h : ((ds.map fun d => (p.1 + d.1, p.2 + d.2)).filter (· ∈ bright img threshold)).foldlM
      (visitNextUpTo (next img threshold) maxActivePixels fuel) seen = some (seen ++ new)) :
    ds.foldlM (propagateNext img threshold currentGroup fuel p) ⟨groups, indices img seen⟩ =
      some (propagated img groups currentGroup seen new) := by
  induction ds generalizing groups seen new with
  | nil =>
    have hnil : new = [] := List.self_eq_append_right.mp (Option.some.inj h)
    rw [hnil, propagated_nil]
    rfl
  | cons d ds ihds =>
    rw [List.map_cons] at h
    rw [List.foldlM_cons]
    by_cases hbright : (p.1 + d.1, p.2 + d.2) ∈ bright img threshold
    · rw [List.filter_cons_of_pos (by simpa using hbright), List.foldlM_cons] at h
      obtain ⟨seen₁, hfirst, hrest⟩ := Option.bind_eq_some_iff.mp h
      unfold visitNextUpTo at hfirst
      split at hfirst
      · next hold =>
        obtain rfl := Option.some.inj hfirst
        rw [propagateNext_skip hseen fun _ => hold]
        exact ihds groups hseen hrest
      · next hold =>
        have hseen₁ := hseen.upTo hbright hold hfirst
        obtain ⟨new₁, rfl⟩ := prefix_of_visitUpTo hold hfirst
        obtain ⟨new₂, hnew₂⟩ : seen ++ new₁ <+: seen ++ new :=
          foldlM_keeps (fun _ _ _ _ hs hvisit => hs.trans (prefix_of_visitNextUpTo hvisit))
            List.prefix_rfl hrest
        obtain rfl : new₁ ++ new₂ = new := by
          rw [List.append_assoc] at hnew₂
          exact List.append_cancel_left hnew₂
        rw [propagateNext_visit hseen hbright hold, ih groups seen new₁ _ hseen hbright hold hfirst,
          ← propagated_append]
        rw [← List.append_assoc] at hrest
        exact ihds _ hseen₁ hrest
    · rw [List.filter_cons_of_neg (by simpa using hbright)] at h
      rw [propagateNext_skip hseen fun hyes => absurd hyes hbright]
      exact ihds groups hseen h

/-- **The propagation is the search among the bright pixels**, up to the number of pixels that may
be active. -/
theorem propagateGroup_upTo (groups : List Group) (hseen : Seen img threshold seen)
    (hp : p ∈ bright img threshold) (hold : p ∉ seen)
    (h : visitUpTo (next img threshold) maxActivePixels fuel seen p = some (seen ++ new)) :
    propagateGroup img threshold currentGroup fuel ⟨groups, indices img seen⟩ p =
      some (propagated img groups currentGroup seen new) := by
  induction fuel generalizing groups seen new p with
  | zero => exact absurd h (by simp [visitUpTo])
  | succ fuel ih =>
    have hroot := hseen.concat hp hold
    have hcard := hroot.card_indices
    rw [← indices_concat, List.length_append, List.length_singleton] at hcard
    obtain ⟨rest, hrest⟩ := exists_append_of_visitUpTo h
    obtain rfl : new = p :: rest := List.append_cancel_left hrest
    by_cases hcap : seen.length + 1 ≤ maxActivePixels
    · have hroots : next img threshold p =
          (offsets.map fun d => (p.1 + d.1, p.2 + d.2)).filter (· ∈ bright img threshold) :=
              if_pos hp
      rw [visitUpTo_within hcap, List.append_cons seen p rest, hroots] at h
      rw [propagateGroup_succ _ (hcard.trans_le hcap)]
      dsimp only
      rw [indices_concat]
      rw [propagate_loop (fun _ _ _ _ hs hq hn hv => ih _ hs hq hn hv) offsets _ hroot h]
      exact congrArg some (propagated_append [p] rest)
    · have hover := Nat.not_le.mp hcap
      rw [visitUpTo_beyond hover] at h
      obtain rfl : [] = rest :=
        (List.cons.inj (List.append_cancel_left (Option.some.inj h))).2
      rw [propagateGroup_beyond _ (hover.trans_eq hcard.symm)]
      dsimp only
      rw [indices_concat]
      rfl

/-- When there are not too many bright pixels, the search has no limit. -/
theorem visitUpTo_of_visit (hcard : (bright img threshold).card ≤ maxActivePixels)
    (hseen : Seen img threshold (seen ++ new))
    (h : visit (next img threshold) fuel seen p = some (seen ++ new)) :
    visitUpTo (next img threshold) maxActivePixels fuel seen p = some (seen ++ new) :=
  (visitUpTo_eq_some_iff (hseen.length_le.trans hcard)).mpr h

end Propagate

end ClickA.Processing
