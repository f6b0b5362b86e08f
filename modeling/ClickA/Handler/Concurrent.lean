import ClickA.Handler.Window
import Mathlib.Data.List.Induction

/-!
# Concurrent captures

Several command handlers take an image at the same time. Each sends its five messages in order, and
PAT receives them in any interleaving. There is one window in PAT, which all of them set.

## Main definitions

* `Interleaves`: the messages of all captures, those of each in their order
* `Disturbs`: what a message of another capture may not do
* `Spared`: no message does so while a capture needs its window

## Main results

* `requests_of_spared`: each image is taken with the window of its capture
-/

namespace ClickA.Handler

open Python (Bytes Ensures)
open Pat (AOI Env World)

variable {ι : Type}

/-- The messages of the captures, each in its order. -/
def Interleaves [DecidableEq ι] (events : List (ι × Part)) : Prop :=
  ∀ k, (events.filter fun e => e.1 = k).map Prod.snd = Part.all

/-- A message of a capture. -/
def messageOf (captures : ι → Capture) (e : ι × Part) : Part × ℤ := (e.2, (captures e.1).value e.2)

theorem packet_messageOf (captures : ι → Capture) (k : ι) (part : Part) :
    packet (messageOf captures (k, part)) =
      Pat.controlPacket part.command (strInt ((captures k).value part)) := by
  unfold packet messageOf
  dsimp only

/-- The window behind some messages. -/
def windowAfter (captures : ι → Capture) (window : AOI) (events : List (ι × Part)) : AOI :=
  events.foldl (fun window e => apply window e.2 ((captures e.1).value e.2)) window

/-- The captures whose images are taken, in their order. -/
def imaged (events : List (ι × Part)) : List ι :=
  events.filterMap fun e => if e.2 = .getImage then some e.1 else none

/-- A message sets what a capture has set, to something else. A center that is out of bounds for the
window of the capture is refused. -/
def Disturbs (captures : ι → Capture) (c : Capture) (part : Part) (e : ι × Part) : Prop :=
  e.2 = part ∧ (captures e.1).value part ≠ c.value part ∧
    match part with
    | .width => True
    | .height => True
    | .centerX => |(captures e.1).windowCtrRelX| ≤ Pat.cameraWidth / 2 - (c.windowWidth / 2 : ℕ)
    | .centerY => |(captures e.1).windowCtrRelY| ≤ Pat.cameraHeight / 2 - (c.windowHeight / 2 : ℕ)
    | .getImage => False

/-- Between the message of a capture that sets a part of its window and its image, no other message
sets that part to something else. -/
def Spared (captures : ι → Capture) (events : List (ι × Part)) : Prop :=
  ∀ (k : ι) (part : Part) (before between after : List (ι × Part)),
    events = before ++ (k, part) :: (between ++ (k, .getImage) :: after) →
      ∀ e ∈ between, ¬ Disturbs captures (captures k) part e

/-! ## The order of the messages -/

section Order

variable {events pre post : List (ι × Part)} {k : ι} {part : Part}

theorem takeWhile_of_nodup {α : Type} [DecidableEq α] {l l' : List α} {a : α}
    (hnodup : (l ++ a :: l').Nodup) : (l ++ a :: l').takeWhile (· ≠ a) = l := by
  have hnot : ∀ b ∈ l, decide (b ≠ a) = true := by
    intro b hb
    have hne := (List.nodup_append.mp hnodup).2.2 b hb a List.mem_cons_self
    simp [hne]
  rw [List.takeWhile_append_of_pos hnot, List.takeWhile_cons_of_neg (by simp), List.append_nil]

/-- Before a message of a capture come those that it sends before. -/
theorem Interleaves.before [DecidableEq ι] (hinterleaves : Interleaves events)
    (hevents : events = pre ++ (k, part) :: post) :
    (pre.filter fun e => e.1 = k).map Prod.snd = Part.all.takeWhile (· ≠ part) := by
  have hall := hinterleaves k
  rw [hevents, List.filter_append, List.filter_cons_of_pos (by simp), List.map_append,
    List.map_cons] at hall
  have hnodup : Part.all.Nodup := by decide
  rw [← hall] at hnodup ⊢
  exact (takeWhile_of_nodup hnodup).symm

theorem Interleaves.mem_before [DecidableEq ι] (hinterleaves : Interleaves events)
    (hevents : events = pre ++ (k, part) :: post) {part' : Part}
    (hpart' : part' ∈ Part.all.takeWhile (· ≠ part)) : (k, part') ∈ pre := by
  rw [← hinterleaves.before hevents] at hpart'
  obtain ⟨⟨k', part''⟩, hmem, rfl⟩ := List.mem_map.mp hpart'
  obtain ⟨hmem, hk⟩ := List.mem_filter.mp hmem
  obtain rfl : k' = k := by simpa using hk
  simpa using hmem

/-- A message between one of a capture and its image. -/
theorem Spared.not_disturbs {captures : ι → Capture} {e : ι × Part}
    (hspared : Spared captures events) (hevents : events = pre ++ e :: post)
    (hpart : (k, part) ∈ pre) (himage : (k, .getImage) ∈ post) :
    ¬ Disturbs captures (captures k) part e := by
  obtain ⟨before, between, rfl⟩ := List.append_of_mem hpart
  obtain ⟨between', after, rfl⟩ := List.append_of_mem himage
  apply hspared k part before (between ++ e :: between') after
  · rw [hevents]
    simp
  · simp

end Order

/-! ## The window of a capture -/

section Held

variable {captures : ι → Capture} {window : AOI} {events pre post : List (ι × Part)} {k : ι}

theorem windowAfter_append (captures : ι → Capture) (window : AOI) (events : List (ι × Part))
    (e : ι × Part) : windowAfter captures window (events ++ [e]) =
      apply (windowAfter captures window events) e.2 ((captures e.1).value e.2) := by
  rw [windowAfter, List.foldl_append]
  rfl

theorem apply_w {part : Part} (hpart : part ≠ .width) (window : AOI) (z : ℤ) :
    (apply window part z).w = window.w := by
  cases part <;> simp only [apply] <;> first | exact absurd rfl hpart | split <;> rfl

theorem apply_h {part : Part} (hpart : part ≠ .height) (window : AOI) (z : ℤ) :
    (apply window part z).h = window.h := by
  cases part <;> simp only [apply] <;> first | exact absurd rfl hpart | split <;> rfl

theorem apply_x {part : Part} (hpart : part ≠ .centerX) (window : AOI) (z : ℤ) :
    (apply window part z).x = window.x := by
  cases part <;> simp only [apply] <;> first | exact absurd rfl hpart | split <;> rfl

theorem apply_y {part : Part} (hpart : part ≠ .centerY) (window : AOI) (z : ℤ) :
    (apply window part z).y = window.y := by
  cases part <;> simp only [apply] <;> first | exact absurd rfl hpart | split <;> rfl

/-- A part of the window that a capture has set stays until its image, if no message between them
sets it to something else. -/
theorem field_of_spared {field : AOI → ℤ} {part : Part} {target : ℤ}
    (hevents : events = pre ++ post) (himage : (k, .getImage) ∈ post) (hset : (k, part) ∈ pre)
    (hothers : ∀ part' ≠ part, ∀ window z, field (apply window part' z) = field window)
    (hpart : ∀ j pre post, events = pre ++ (j, part) :: post → (k, .getImage) ∈ post →
      j = k ∨ (k, part) ∈ pre ∧ field (windowAfter captures window pre) = target →
        field (apply (windowAfter captures window pre) part ((captures j).value part)) = target) :
    field (windowAfter captures window pre) = target := by
  induction pre using List.reverseRecOn generalizing post with
  | nil => exact absurd hset List.not_mem_nil
  | append_singleton pre e ih =>
    have hevents' : events = pre ++ e :: post := by rw [hevents, List.append_assoc]; rfl
    have hbefore : (k, part) ∈ pre → field (windowAfter captures window pre) = target :=
      ih hevents' (List.mem_cons_of_mem _ himage)
    rw [windowAfter_append]
    obtain ⟨j, part'⟩ := e
    by_cases hsame : part' = part
    · subst hsame
      apply hpart j pre post hevents' himage
      rcases List.mem_append.mp hset with hset | hset
      · exact .inr ⟨hset, hbefore hset⟩
      · exact .inl (Prod.mk.inj (List.mem_singleton.mp hset)).1.symm
    · rw [hothers part' hsame]
      rcases List.mem_append.mp hset with hset | hset
      · exact hbefore hset
      · exact absurd (Prod.mk.inj (List.mem_singleton.mp hset)).2.symm hsame

theorem width_of_spared (hbounds : ∀ k, (captures k).InBounds) (hspared : Spared captures events)
    (hevents : events = pre ++ post) (himage : (k, .getImage) ∈ post) (hset : (k, .width) ∈ pre) :
    (windowAfter captures window pre).w = (captures k).windowWidth := by
  apply field_of_spared hevents himage hset fun part' hne => apply_w hne
  intro j pre post hevents himage hcase
  rw [apply_width (hbounds j)]
  rcases hcase with rfl | ⟨hset, -⟩
  · rfl
  · by_contra hne
    exact hspared.not_disturbs hevents hset himage ⟨rfl, hne, trivial⟩

theorem height_of_spared (hbounds : ∀ k, (captures k).InBounds) (hspared : Spared captures events)
    (hevents : events = pre ++ post) (himage : (k, .getImage) ∈ post) (hset : (k, .height) ∈ pre) :
    (windowAfter captures window pre).h = (captures k).windowHeight := by
  apply field_of_spared hevents himage hset fun part' hne => apply_h hne
  intro j pre post hevents himage hcase
  rw [apply_height (hbounds j)]
  rcases hcase with rfl | ⟨hset, -⟩
  · rfl
  · by_contra hne
    exact hspared.not_disturbs hevents hset himage ⟨rfl, hne, trivial⟩

variable [DecidableEq ι]

/-- The width is set before the center. -/
theorem x_of_spared (hbounds : ∀ k, (captures k).InBounds) (hinterleaves : Interleaves events)
    (hspared : Spared captures events) (hevents : events = pre ++ post)
    (himage : (k, .getImage) ∈ post) (hset : (k, .centerX) ∈ pre) :
    (windowAfter captures window pre).x = (captures k).window.x := by
  apply field_of_spared hevents himage hset fun part' hne => apply_x hne
  intro j pre post hevents himage hcase
  have hsetWidth : (k, .width) ∈ pre := by
    rcases hcase with rfl | ⟨hset, -⟩
    · exact hinterleaves.mem_before hevents (by decide)
    · obtain ⟨pre', post', rfl⟩ := List.append_of_mem hset
      have hevents' : events = pre' ++ (k, .centerX) :: (post' ++ (j, .centerX) :: post) := by
        rw [hevents]
        simp
      exact List.mem_append_left _ (hinterleaves.mem_before hevents' (by decide))
  have hwidth : (windowAfter captures window pre).w = (captures k).windowWidth :=
    width_of_spared hbounds hspared hevents (List.mem_cons_of_mem _ himage) hsetWidth
  rcases hcase with rfl | ⟨hset, hx⟩
  · rw [apply_centerX (hbounds j) hwidth]
  · have htdiv : (windowAfter captures window pre).w.tdiv 2 =
      ((captures k).windowWidth / 2 : ℕ) := by
      rw [hwidth]
      rfl
    rw [apply, htdiv]
    split
    · next haccepted =>
      have hsame : (captures j).value .centerX = (captures k).value .centerX := by
        by_contra hne
        exact hspared.not_disturbs hevents hset himage ⟨rfl, hne, haccepted⟩
      rw [hsame]
      rfl
    · exact hx

/-- The height is set before the center. -/
theorem y_of_spared (hbounds : ∀ k, (captures k).InBounds) (hinterleaves : Interleaves events)
    (hspared : Spared captures events) (hevents : events = pre ++ post)
    (himage : (k, .getImage) ∈ post) (hset : (k, .centerY) ∈ pre) :
    (windowAfter captures window pre).y = (captures k).window.y := by
  apply field_of_spared hevents himage hset fun part' hne => apply_y hne
  intro j pre post hevents himage hcase
  have hsetHeight : (k, .height) ∈ pre := by
    rcases hcase with rfl | ⟨hset, -⟩
    · exact hinterleaves.mem_before hevents (by decide)
    · obtain ⟨pre', post', rfl⟩ := List.append_of_mem hset
      have hevents' : events = pre' ++ (k, .centerY) :: (post' ++ (j, .centerY) :: post) := by
        rw [hevents]
        simp
      exact List.mem_append_left _ (hinterleaves.mem_before hevents' (by decide))
  have hheight : (windowAfter captures window pre).h = (captures k).windowHeight :=
    height_of_spared hbounds hspared hevents (List.mem_cons_of_mem _ himage) hsetHeight
  rcases hcase with rfl | ⟨hset, hy⟩
  · rw [apply_centerY (hbounds j) hheight]
  · have htdiv : (windowAfter captures window pre).h.tdiv 2 =
      ((captures k).windowHeight / 2 : ℕ) := by
      rw [hheight]
      rfl
    rw [apply, htdiv]
    split
    · next haccepted =>
      have hsame : (captures j).value .centerY = (captures k).value .centerY := by
        by_contra hne
        exact hspared.not_disturbs hevents hset himage ⟨rfl, hne, haccepted⟩
      rw [hsame]
      rfl
    · exact hy

/-- The window before the image is as the capture requests it. -/
theorem requests_windowAfter (hbounds : ∀ k, (captures k).InBounds)
    (hinterleaves : Interleaves events) (hspared : Spared captures events)
    (hevents : events = pre ++ (k, .getImage) :: post) :
    (captures k).Requests (windowAfter captures window pre) := by
  have himage : (k, .getImage) ∈ (k, .getImage) :: post := List.mem_cons_self
  have hset (part : Part) (hpart : part ∈ Part.all.takeWhile (· ≠ .getImage)) : (k, part) ∈ pre :=
    hinterleaves.mem_before hevents hpart
  have hwidth : (windowAfter captures window pre).w = (captures k).windowWidth :=
    width_of_spared hbounds hspared hevents himage (hset .width (by decide))
  have hheight : (windowAfter captures window pre).h = (captures k).windowHeight :=
    height_of_spared hbounds hspared hevents himage (hset .height (by decide))
  have hx : (windowAfter captures window pre).x = (captures k).window.x :=
    x_of_spared hbounds hinterleaves hspared hevents himage (hset .centerX (by decide))
  have hy : (windowAfter captures window pre).y = (captures k).window.y :=
    y_of_spared hbounds hinterleaves hspared hevents himage (hset .centerY (by decide))
  refine ⟨hwidth, hheight, ?_, ?_⟩
  · rw [hx, hwidth]
    exact sub_add_cancel _ _
  · rw [hy, hheight]
    exact sub_add_cancel _ _

/-- Each image is taken with the window of its capture, from any point of the interleaving on. -/
theorem forall₂_taken (hbounds : ∀ k, (captures k).InBounds) (hinterleaves : Interleaves events)
    (hspared : Spared captures events) (hevents : events = pre ++ post) :
    List.Forall₂ (fun k window => (captures k).Requests window) (imaged post)
      (taken (windowAfter captures window pre) (post.map (messageOf captures))) := by
  induction post generalizing pre with
  | nil => exact .nil
  | cons e post ih =>
    obtain ⟨k, part⟩ := e
    have hevents' : events = (pre ++ [(k, part)]) ++ post := by rw [hevents, List.append_assoc]; rfl
    have hrest := ih hevents'
    rw [windowAfter_append] at hrest
    rw [List.map_cons, messageOf, taken, imaged]
    by_cases hpart : part = .getImage
    · subst hpart
      rw [if_pos rfl]
      exact .cons (requests_windowAfter hbounds hinterleaves hspared hevents) hrest
    · rw [if_neg hpart, List.filterMap_cons_none (by simp [hpart]), List.nil_append]
      exact hrest

end Held

/-- **Each image is taken with the window that its capture requests**, if no message between sets a
part of it to something else. -/
theorem requests_of_spared [DecidableEq ι] {captures : ι → Capture} {patStatusFlags : ι → ℕ}
    {payloads : ι → Bytes} {events : List (ι × Part)} {env : Env} {w : World}
    {polled : List (Option Bytes)} (hdecode : ∀ k, Capture.decode (payloads k) = .ok (captures k))
    (haccepted : ∀ k, inStandby (patStatusFlags k) = true ∧ (captures k).InBounds)
    (hinterleaves : Interleaves events)
    (hreceives : Receives env w.polls polled (events.map fun e => packet (messageOf captures e)))
    (hspared : Spared captures events) :
    (∀ k, singleCapture (patStatusFlags k) (payloads k) =
      .ok (Part.all.map fun part => packet (messageOf captures (k, part)))) ∧
    Ensures (standbyRun env polled.length) (fun _ w' => ∃ windows, images w' = images w ++ windows ∧
      List.Forall₂ (fun k window => (captures k).Requests window) (imaged events) windows) w := by
  have hbounds : ∀ k, (captures k).InBounds := fun k => (haccepted k).2
  have hsent : ∀ k, singleCapture (patStatusFlags k) (payloads k) =
      .ok (Part.all.map fun part => packet (messageOf captures (k, part))) := by
    intro k
    rw [singleCapture_of_accepts (hdecode k) (haccepted k).1 (hbounds k)]
    simp only [packet_messageOf]
  refine ⟨hsent, ?_⟩
  have hreceives' : Receives env w.polls polled ((events.map (messageOf captures)).map packet) := by
    rw [List.map_map]
    exact hreceives
  have hshort : ∀ m ∈ events.map (messageOf captures), m.2.natAbs < 2 ^ 31 := by
    intro m hm
    obtain ⟨e, -, rfl⟩ := List.mem_map.mp hm
    exact (hbounds e.1).natAbs_value e.2
  refine (ensures_of_receives hreceives' hshort).imp ?_
  intro _ w' himages
  exact ⟨_, himages, forall₂_taken hbounds hinterleaves hspared (List.nil_append events).symm⟩

/-- Two captures of one window may mix. -/
theorem requests_of_spared_twice :
    let c : Capture := ⟨0, 0, 100, 100, 1000⟩
    let events : List (Bool × Part) := [(false, .width), (true, .width), (false, .height),
      (false, .centerX), (true, .height), (true, .centerX), (false, .centerY), (false, .getImage),
      (true, .centerY), (true, .getImage)]
    let messages := events.map fun e => packet (messageOf (fun _ => c) e)
    (∀ _ : Bool, singleCapture 1 [0, 0, 0, 0, 0, 100, 0, 100, 0, 0, 0x03, 0xE8] =
      .ok (Part.all.map fun part => packet (messageOf (fun _ => c) (true, part)))) ∧
    Ensures (standbyRun (Pat.commanded true messages) (messages.map some).length)
      (fun _ w' => ∃ windows, images w' = images {} ++ windows ∧
        List.Forall₂ (fun _ window => c.Requests window) (imaged events) windows) {} := by
  intro c events messages
  have hdecode : ∀ _ : Bool,
      Capture.decode [0, 0, 0, 0, 0, 100, 0, 100, 0, 0, 0x03, 0xE8] = .ok c := fun _ => by decide
  have haccepted : ∀ _ : Bool, inStandby 1 = true ∧ c.InBounds := by decide
  have hinterleaves : Interleaves events := by
    unfold Interleaves
    decide
  -- the captures are of one window, so that they do not disturb each other
  have hspared : Spared (fun _ => c) events := by
    rintro k part before between after - e - ⟨-, hne, -⟩
    exact hne rfl
  exact @requests_of_spared Bool _ (fun _ => c) (fun _ => 1) _ events (Pat.commanded true messages)
    {}
    (messages.map some) hdecode haccepted hinterleaves (receives_commanded messages) hspared

/-- Two captures, of 100 by 100 pixels and of 200 by 100. -/
def twoCaptures : Bool → Capture
  | false => ⟨0, 0, 100, 100, 1000⟩
  | true => ⟨0, 0, 200, 100, 1000⟩

def twoPayloads : Bool → Bytes
  | false => [0, 0, 0, 0, 0, 100, 0, 100, 0, 0, 0x03, 0xE8]
  | true => [0, 0, 0, 0, 0, 200, 0, 100, 0, 0, 0x03, 0xE8]

/-- The width of the second capture is set between the center and the image of the first. -/
def overwritten : List (Bool × Part) :=
  [(false, .width), (false, .height), (false, .centerX), (false, .centerY), (true, .width),
    (false, .getImage), (true, .height), (true, .centerX), (true, .centerY), (true, .getImage)]

theorem not_requests_overwritten : ¬ ∀ (ι : Type) [DecidableEq ι] (captures : ι → Capture)
    (patStatusFlags : ι → ℕ) (payloads : ι → Bytes) (events : List (ι × Part)) (env : Env)
    (w : World)
    (polled : List (Option Bytes)), (∀ k, Capture.decode (payloads k) = .ok (captures k)) →
      (∀ k, inStandby (patStatusFlags k) = true ∧ (captures k).InBounds) → Interleaves events →
        Receives env w.polls polled (events.map fun e => packet (messageOf captures e)) →
          Ensures (standbyRun env polled.length) (fun _ w' => ∃ windows,
            images w' = images w ++ windows ∧
              List.Forall₂ (fun k window => (captures k).Requests window)
                  (imaged events) windows) w := by
  intro hclaim
  have hdecode : ∀ k, Capture.decode (twoPayloads k) = .ok (twoCaptures k) := by decide
  have haccepted : ∀ k, inStandby 1 = true ∧ (twoCaptures k).InBounds := by decide
  have hinterleaves : Interleaves overwritten := by
    unfold Interleaves
    decide
  obtain ⟨messages, hmessages⟩ : ∃ messages,
      messages = overwritten.map fun e => packet (messageOf twoCaptures e) := ⟨_, rfl⟩
  have hreceives : Receives (Pat.commanded true messages) (World.polls {}) (messages.map some)
      (overwritten.map fun e => packet (messageOf twoCaptures e)) := by
    rw [← hmessages]
    exact receives_commanded messages
  have hown := hclaim Bool twoCaptures (fun _ => 1) twoPayloads overwritten _ {} _ hdecode haccepted
    hinterleaves hreceives
  have hreceives' : Receives (Pat.commanded true messages) (World.polls {}) (messages.map some)
      ((overwritten.map (messageOf twoCaptures)).map packet) := by
    rw [List.map_map]
    exact hreceives
  have hshort : ∀ m ∈ overwritten.map (messageOf twoCaptures), m.2.natAbs < 2 ^ 31 := by
    intro m hm
    obtain ⟨e, -, rfl⟩ := List.mem_map.mp hm
    exact (haccepted e.1).2.natAbs_value e.2
  -- the run takes two images, the first one in the window of the second client
  have hrun := ensures_of_receives hreceives' hshort
  obtain ⟨_, w', himages, windows, himages', hrequests⟩ :=
    Ensures.of_allows hrun (Ensures.allows hown)
  rw [himages] at himages'
  rw [← List.append_cancel_left himages'] at hrequests
  have htaken : taken (World.getImageWindow {}) (overwritten.map (messageOf twoCaptures)) =
      [⟨1246, 922, 200, 100⟩, ⟨1196, 922, 200, 100⟩] := by decide
  rw [htaken] at hrequests
  have himaged : imaged overwritten = [false, true] := rfl
  rw [himaged] at hrequests
  have hwidth := (List.forall₂_cons.mp hrequests).1.width
  exact absurd hwidth (by decide)

end ClickA.Handler
