import ClickA.Handler.Capture
import ClickA.Pat.Main
import Mathlib.Data.List.ReduceOption

/-!
# The window of a single capture

The five messages of a capture are processed by PAT's standby loop, one in each iteration that
receives one. Both sides check the bounds.

## Main definitions

* `images`: the windows that PAT has taken images with
* `AOI.apply`: what a message does with the window
* `standbyRun`: iterations of the standby loop
* `Capture.Requests`, `AOI.Nonempty`, `AOI.Inside`: a window as it was requested, and inside the
  sensor

## Main results

* `ensures_standbyRun`: the windows of the images that are taken
* `takenInside_iff`: when a capture stays inside the sensor
-/

namespace ClickA.Handler

open Python (Bytes Ensures wp_bind wp_get wp_modify wp_pure str)
open Pat (AOI Env World Proc standbyIteration)

/-! ## Windows -/

/-- The windows that images were taken with. -/
def images (w : World) : List AOI :=
  w.trace.filterMap fun
    | .getImage _ window => some window
    | _ => none

/-- What a message does with the window. -/
def apply (window : AOI) : Part → ℤ → AOI
  | .width, z => if z ≤ Pat.cameraWidth then { window with w := z } else window
  | .height, z => if z ≤ Pat.cameraHeight then { window with h := z } else window
  | .centerX, z =>
    if |z| ≤ Pat.cameraWidth / 2 - window.w.tdiv 2 then
      { window with x := Pat.cameraWidth / 2 + z - window.w.tdiv 2 }
    else window
  | .centerY, z =>
    if |z| ≤ Pat.cameraHeight / 2 - window.h.tdiv 2 then
      { window with y := Pat.cameraHeight / 2 + z - window.h.tdiv 2 }
    else window
  | .getImage, _ => window

/-- The windows of the images that some messages take. -/
def taken : AOI → List (Part × ℤ) → List AOI
  | _, [] => []
  | window, (part, z) :: rest =>
    (if part = .getImage then [window] else []) ++ taken (apply window part z) rest

/-- The bytes of a message. -/
def packet (m : Part × ℤ) : Bytes := Pat.controlPacket m.1.command (strInt m.2)

/-- Some iterations of the standby loop. -/
def standbyRun (env : Env) : ℕ → Proc World Unit
  | 0 => pure ()
  | n + 1 => do
    standbyIteration env
    standbyRun env n

/-- What PAT polls next: these messages, and nothing where no message is there in time. -/
def Polls (env : Env) (n : ℕ) (received : List (Option (Part × ℤ))) : Prop :=
  ∀ i m, received[i]? = some m → env.message (n + i) = m.map packet

/-- PAT's next polls receive some messages. -/
structure Receives (env : Env) (n : ℕ) (polled : List (Option Bytes)) (messages : List Bytes) :
    Prop where
  messages : polled.reduceOption = messages
  polled : ∀ i m, polled[i]? = some m → env.message (n + i) = m

section Iterations

variable {env : Env} {w : World} {part : Part} {z : ℤ}

theorem ofCode_command (part : Part) : Pat.Command.ofCode (UInt16.ofNat part.command) =
    some (match part with
      | .width => .setGetImageWindowWidth
      | .height => .setGetImageWindowHeight
      | .centerX => .setGetImageCenterX
      | .centerY => .setGetImageCenterY
      | .getImage => .getImage) := by
  cases part <;> decide

/-- An iteration without a message. -/
theorem ensures_standbyIteration_none (hmessage : env.message w.polls = none) :
    Ensures (standbyIteration env) (fun _ w' => w'.polls = w.polls + 1 ∧
      w'.getImageWindow = w.getImageWindow ∧ images w' = images w) w := by
  unfold standbyIteration Pat.receiveCommand Pat.emit
  simp only [Ensures, wp_bind, wp_get, wp_modify, hmessage, wp_pure]
  simp [images]

/-- An iteration with a message of a capture. -/
theorem ensures_standbyIteration_some (hmessage : env.message w.polls = some (packet (part, z)))
    (hz : z.natAbs < 2 ^ 31) :
    Ensures (standbyIteration env) (fun _ w' => w'.polls = w.polls + 1 ∧
      w'.getImageWindow = apply w.getImageWindow part z ∧
      images w' = images w ++ if part = .getImage then [w.getImageWindow] else []) w := by
  have hreceive : Pat.receivePacketPatControl (env.garbage w.polls) (packet (part, z)) =
      (UInt16.ofNat part.command, Pat.payload (strInt z)) :=
    receivePacketPatControl_controlPacket _ part.command_lt (length_strInt_lt hz).le
  have hatoi := atoi_payload_strInt hz
  unfold standbyIteration Pat.receiveCommand Pat.emit
  simp only [Ensures, wp_bind, wp_get, wp_modify, hmessage, wp_pure, hreceive, ofCode_command]
  cases part with
  | width =>
    simp only [Pat.standbyCommand, Pat.setGetImageWindowWidth, wp_modify, hatoi, apply]
    split <;> simp [images]
  | height =>
    simp only [Pat.standbyCommand, Pat.setGetImageWindowHeight, wp_modify, hatoi, apply]
    split <;> simp [images]
  | centerX =>
    simp only [Pat.standbyCommand, Pat.setGetImageCenterX, wp_modify, hatoi, apply]
    split <;> simp [images]
  | centerY =>
    simp only [Pat.standbyCommand, Pat.setGetImageCenterY, wp_modify, hatoi, apply]
    split <;> simp [images]
  | getImage =>
    simp only [Pat.standbyCommand, Pat.getImage, Pat.emit, Pat.logImage, Pat.requestFrame, wp_bind,
      wp_get, wp_modify, Pat.wp_ask, wp_pure, apply]
    simp [images]

/-- The windows of the images that the standby loop takes. -/
theorem ensures_standbyRun {received : List (Option (Part × ℤ))}
    (hpolls : Polls env w.polls received)
    (hshort : ∀ m, some m ∈ received → m.2.natAbs < 2 ^ 31) :
    Ensures (standbyRun env received.length)
      (fun _ w' => images w' = images w ++ taken w.getImageWindow received.reduceOption) w := by
  induction received generalizing w with
  | nil =>
    rw [List.length_nil, standbyRun, Ensures, wp_pure, List.reduceOption_nil, taken,
      List.append_nil]
  | cons m received ih =>
    rw [List.length_cons, standbyRun]
    have hfirst : env.message w.polls = m.map packet := hpolls 0 m rfl
    have hrest {w' : World} (hw : w'.polls = w.polls + 1) : Polls env w'.polls received := by
      intro i m' hm'
      rw [hw, Nat.add_assoc, Nat.add_comm 1]
      exact hpolls (i + 1) m' hm'
    have hshort' : ∀ m, some m ∈ received → m.2.natAbs < 2 ^ 31 :=
      fun m' hm' => hshort m' (List.mem_cons_of_mem _ hm')
    cases m with
    | none =>
      refine (ensures_standbyIteration_none hfirst).bind ?_
      rintro _ w' ⟨hw, hwindow, himages⟩
      refine (ih (hrest hw) hshort').imp ?_
      intro _ w'' himages'
      rw [himages', himages, hwindow, List.reduceOption_cons_of_none]
    | some m =>
      refine (ensures_standbyIteration_some hfirst (hshort m List.mem_cons_self)).bind ?_
      rintro _ w' ⟨hw, hwindow, himages⟩
      refine (ih (hrest hw) hshort').imp ?_
      intro _ w'' himages'
      rw [himages', himages, hwindow, List.reduceOption_cons_of_some, taken, List.append_assoc]

theorem exists_of_reduceOption {α β : Type} {f : α → β} {polled : List (Option β)} {l : List α}
    (h : polled.reduceOption = l.map f) :
    ∃ received : List (Option α), polled = received.map (Option.map f) ∧
      received.reduceOption = l := by
  induction polled generalizing l with
  | nil =>
    obtain rfl := List.map_eq_nil_iff.mp h.symm
    exact ⟨[], rfl, rfl⟩
  | cons m polled ih =>
    cases m with
    | none =>
      rw [List.reduceOption_cons_of_none] at h
      obtain ⟨received, rfl, hreceived⟩ := ih h
      exact ⟨none :: received, rfl, by rw [List.reduceOption_cons_of_none, hreceived]⟩
    | some b =>
      rw [List.reduceOption_cons_of_some] at h
      obtain ⟨a, l, rfl, rfl, hl⟩ := List.map_eq_cons_iff.mp h.symm
      obtain ⟨received, rfl, hreceived⟩ := ih hl.symm
      exact ⟨some a :: received, rfl, by rw [List.reduceOption_cons_of_some, hreceived]⟩

/-- The windows of the images that the standby loop takes when it receives some messages. -/
theorem ensures_of_receives {polled : List (Option Bytes)} {messages : List (Part × ℤ)}
    (hreceives : Receives env w.polls polled (messages.map packet))
    (hshort : ∀ m ∈ messages, m.2.natAbs < 2 ^ 31) :
    Ensures (standbyRun env polled.length)
      (fun _ w' => images w' = images w ++ taken w.getImageWindow messages) w := by
  obtain ⟨received, hpolled, rfl⟩ := exists_of_reduceOption hreceives.messages
  have hpolls : Polls env w.polls received := by
    intro i m hm
    apply hreceives.polled i
    rw [hpolled, List.getElem?_map, hm]
    rfl
  have hrun := ensures_standbyRun hpolls fun m hm =>
    hshort m (List.reduceOption_mem_iff.mpr hm)
  rw [hpolled, List.length_map]
  exact hrun

end Iterations

/-! ## Inside the sensor -/

/-- The window has the requested size, and is centered at the requested offset from the center. -/
structure Capture.Requests (c : Capture) (window : AOI) : Prop where
  width : window.w = c.windowWidth
  height : window.h = c.windowHeight
  centerX : window.x + window.w / 2 = Pat.cameraWidth / 2 + c.windowCtrRelX
  centerY : window.y + window.h / 2 = Pat.cameraHeight / 2 + c.windowCtrRelY

/-- There is a pixel in the window. -/
def Nonempty (window : AOI) : Prop := 0 < window.w ∧ 0 < window.h

/-- The window is part of the sensor. -/
def Inside (window : AOI) : Prop :=
  0 ≤ window.x ∧ 0 ≤ window.y ∧ window.x + window.w ≤ Pat.cameraWidth ∧
    window.y + window.h ≤ Pat.cameraHeight

/-- The window of a capture. -/
def Capture.window (c : Capture) : AOI where
  x := Pat.cameraWidth / 2 + c.windowCtrRelX - c.windowWidth / 2
  y := Pat.cameraHeight / 2 + c.windowCtrRelY - c.windowHeight / 2
  w := c.windowWidth
  h := c.windowHeight

/-- The messages of a capture. -/
def Capture.messages (c : Capture) : List (Part × ℤ) :=
    Part.all.map fun part => (part, c.value part)

section Bounds

variable {c : Capture} {window : AOI}

theorem Capture.requests_iff : c.Requests window ↔ window = c.window := by
  constructor
  · rintro ⟨hwidth, hheight, hx, hy⟩
    obtain ⟨x, y, w, h⟩ := window
    obtain rfl : w = c.windowWidth := hwidth
    obtain rfl : h = c.windowHeight := hheight
    simp only [Capture.window, AOI.mk.injEq, and_true]
    simp only at hx hy
    omega
  · rintro rfl
    refine ⟨rfl, rfl, ?_, ?_⟩ <;> simp only [Capture.window] <;> omega

/-- What is checked before the messages are sent suffices for PAT's checks. -/
theorem apply_width (hbounds : c.InBounds) (window : AOI) :
    apply window .width (c.value .width) = { window with w := c.windowWidth } := by
  have hwidth := hbounds.2.2.1
  have hle : c.value .width ≤ Pat.cameraWidth := by
    simp only [Options.cameraWidth] at hwidth
    simp only [Capture.value, Pat.cameraWidth]
    omega
  rw [apply, if_pos hle]
  rfl

theorem apply_height (hbounds : c.InBounds) (window : AOI) :
    apply window .height (c.value .height) = { window with h := c.windowHeight } := by
  have hheight := hbounds.2.2.2.1
  have hle : c.value .height ≤ Pat.cameraHeight := by
    simp only [Options.cameraHeight] at hheight
    simp only [Capture.value, Pat.cameraHeight]
    omega
  rw [apply, if_pos hle]
  rfl

theorem apply_centerX (hbounds : c.InBounds) (hwidth : window.w = c.windowWidth) :
    apply window .centerX (c.value .centerX) = { window with x := c.window.x } := by
  have hx := hbounds.1
  have htdiv : window.w.tdiv 2 = c.windowWidth / 2 := by
    rw [hwidth]
    rfl
  have hle : |c.value .centerX| ≤ Pat.cameraWidth / 2 - window.w.tdiv 2 := by
    rw [htdiv]
    exact hx
  rw [apply, if_pos hle, htdiv]
  rfl

theorem apply_centerY (hbounds : c.InBounds) (hheight : window.h = c.windowHeight) :
    apply window .centerY (c.value .centerY) = { window with y := c.window.y } := by
  have hy := hbounds.2.1
  have htdiv : window.h.tdiv 2 = c.windowHeight / 2 := by
    rw [hheight]
    rfl
  have hle : |c.value .centerY| ≤ Pat.cameraHeight / 2 - window.h.tdiv 2 := by
    rw [htdiv]
    exact le_of_lt hy
  rw [apply, if_pos hle, htdiv]
  rfl

/-- A capture by itself takes one image, with its own window. -/
theorem taken_messages (hbounds : c.InBounds) (window : AOI) :
    taken window c.messages = [c.window] := by
  simp only [Capture.messages, Part.all, List.map_cons, List.map_nil, taken]
  rw [apply_width hbounds, apply_height hbounds, apply_centerX hbounds rfl,
    apply_centerY hbounds rfl]
  rfl

/-- When the window of a capture is inside the sensor, and not empty. -/
theorem nonempty_inside_iff (hbounds : c.InBounds) :
    Nonempty c.window ∧ Inside c.window ↔ 0 < c.windowWidth ∧ 0 < c.windowHeight ∧
      ¬ (c.windowWidth % 2 = 1 ∧
        c.windowCtrRelX = (Options.cameraWidth / 2 : ℕ) - (c.windowWidth / 2 : ℕ)) := by
  obtain ⟨hx, hy, -⟩ := hbounds
  rw [abs_le] at hx
  rw [abs_lt] at hy
  simp only [Nonempty, Inside, Capture.window, Pat.cameraWidth, Pat.cameraHeight,
    Options.cameraWidth,
    Options.cameraHeight] at hx hy ⊢
  omega

theorem Capture.InBounds.short (hbounds : c.InBounds) :
    ∀ m ∈ c.messages, m.2.natAbs < 2 ^ 31 := by
  intro m hm
  obtain ⟨part, -, rfl⟩ := List.mem_map.mp hm
  exact hbounds.natAbs_value part

/-- A command that sends messages is in standby and in bounds. -/
theorem accepted_of_ne_nil {patStatusFlag : ℕ} {payload : Bytes} {messages : List Bytes}
    (hdecode : Capture.decode payload = .ok c)
    (hsent : singleCapture patStatusFlag payload = .ok messages) (hne : messages ≠ []) :
    c.InBounds ∧ messages = c.messages.map packet := by
  have hsent' := hsent
  rw [singleCapture, hdecode, Python.ok_bind] at hsent'
  split at hsent'
  · next hstandby =>
    split at hsent'
    · next hbounds =>
      have hall := singleCapture_of_accepts hdecode hstandby hbounds
      rw [hsent] at hall
      refine ⟨hbounds, ?_⟩
      rw [Except.ok.inj hall, Capture.messages, List.map_map]
      rfl
    · exact absurd (Except.ok.inj hsent').symm hne
  · exact absurd (Except.ok.inj hsent').symm hne

end Bounds

/-- The one window of a capture is the one that it asks for. -/
theorem inside_of_taken {c : Capture} {env : Env} {w : World} {polled : List (Option Bytes)}
    (hbounds : c.InBounds) (hreceives : Receives env w.polls polled (c.messages.map packet))
    (hinside : Ensures (standbyRun env polled.length) (fun _ w' => ∃ window,
      images w' = images w ++ [window] ∧ c.Requests window ∧ Nonempty window ∧ Inside window) w) :
    Nonempty c.window ∧ Inside c.window := by
  have hrun := ensures_of_receives hreceives hbounds.short
  obtain ⟨_, w', -, window, -, hrequests, hrest⟩ := hrun.of_allows hinside.allows
  rwa [Capture.requests_iff.mp hrequests] at hrest

/-- **The window of a capture is as requested, not empty and inside the sensor, unless it is empty
or of odd width at the right edge.** -/
theorem takenInside_iff {patStatusFlag : ℕ} {payload : Bytes} {c : Capture} {messages : List Bytes}
    {env : Env} {w : World} {polled : List (Option Bytes)}
    (hdecode : Capture.decode payload = .ok c)
    (hsent : singleCapture patStatusFlag payload = .ok messages) (hne : messages ≠ [])
    (hreceives : Receives env w.polls polled messages) :
    Ensures (standbyRun env polled.length) (fun _ w' => ∃ window, images w' = images w ++ [window] ∧
      c.Requests window ∧ Nonempty window ∧ Inside window) w ↔
      0 < c.windowWidth ∧ 0 < c.windowHeight ∧ ¬ (c.windowWidth % 2 = 1 ∧
        c.windowCtrRelX = (Options.cameraWidth / 2 : ℕ) - (c.windowWidth / 2 : ℕ)) := by
  obtain ⟨hbounds, rfl⟩ := accepted_of_ne_nil hdecode hsent hne
  rw [← nonempty_inside_iff hbounds]
  constructor
  · exact inside_of_taken hbounds hreceives
  · intro hinside
    have hrun := ensures_of_receives hreceives hbounds.short
    rw [taken_messages hbounds] at hrun
    exact hrun.imp fun _ w' himages =>
      ⟨c.window, himages, Capture.requests_iff.mpr rfl, hinside⟩

/-- PAT receives messages one behind the other. -/
theorem receives_commanded (messages : List Bytes) :
    Receives (Pat.commanded true messages) 0 (messages.map some) messages where
  messages := by
    show (messages.map some).filterMap id = messages
    rw [List.filterMap_map]
    exact List.filterMap_some
  polled i m hm := by
    show messages[0 + i]? = m
    rw [Nat.zero_add]
    rw [List.getElem?_map] at hm
    cases hmessage : messages[i]? with
    | none => simp [hmessage] at hm
    | some message => rw [hmessage] at hm; exact Option.some.inj hm

/-- A window of 100 by 100 pixels in the center. -/
theorem takenInside_iff_center : ∃ messages,
    singleCapture 1 [0, 0, 0, 0, 0, 100, 0, 100, 0, 0, 0x03, 0xE8] = .ok messages ∧
    (Ensures (standbyRun (Pat.commanded true messages) (messages.map some).length)
      (fun _ w' => ∃ window, images w' = images {} ++ [window] ∧
        Capture.Requests ⟨0, 0, 100, 100, 1000⟩ window ∧ Nonempty window ∧ Inside window) {} ↔
      0 < 100 ∧ 0 < 100 ∧ ¬ (100 % 2 = 1 ∧
        (0 : ℤ) = (Options.cameraWidth / 2 : ℕ) - (100 / 2 : ℕ))) := by
  have hdecode : Capture.decode [0, 0, 0, 0, 0, 100, 0, 100, 0, 0, 0x03, 0xE8] =
      .ok ⟨0, 0, 100, 100, 1000⟩ := by decide
  have hstandby : inStandby 1 = true := by decide
  have hsent := singleCapture_of_accepts hdecode hstandby (by decide)
  exact ⟨_, hsent, takenInside_iff hdecode hsent (by simp [Part.all]) (receives_commanded _)⟩

/-- A window of 101 by 100 pixels, as far to the right as is accepted. -/
theorem not_takenInside_rightEdge : ¬ ∀ (patStatusFlag : ℕ) (payload : Bytes) (c : Capture)
    (messages : List Bytes) (env : Env) (w : World) (polled : List (Option Bytes)),
    Capture.decode payload = .ok c → singleCapture patStatusFlag payload = .ok messages →
      messages ≠ [] → Receives env w.polls polled messages →
        Ensures (standbyRun env polled.length) (fun _ w' => ∃ window,
          images w' = images w ++ [window] ∧ c.Requests window ∧ Nonempty window ∧
              Inside window) w := by
  intro hclaim
  have hdecode : Capture.decode [0x04, 0xDE, 0, 0, 0, 101, 0, 100, 0, 0, 0x03, 0xE8] =
      .ok ⟨1246, 0, 101, 100, 1000⟩ := by decide
  -- the handler accepts the capture, since 1246 + 50 is the half of the width
  have hbounds : Capture.InBounds ⟨1246, 0, 101, 100, 1000⟩ := by decide
  obtain ⟨messages, hsent, hmessages⟩ : ∃ messages,
      singleCapture 1 [0x04, 0xDE, 0, 0, 0, 101, 0, 100, 0, 0, 0x03, 0xE8] = .ok messages ∧
        messages = (Capture.messages ⟨1246, 0, 101, 100, 1000⟩).map packet :=
    ⟨_, singleCapture_of_accepts hdecode (by decide) hbounds, rfl⟩
  have hne : messages ≠ [] := by
    rw [hmessages]
    simp [Capture.messages, Part.all]
  have hreceives := receives_commanded messages
  have hinside := hclaim 1 _ ⟨1246, 0, 101, 100, 1000⟩ messages (Pat.commanded true messages) {}
    (messages.map some) hdecode hsent hne hreceives
  have hreceives' : Receives (Pat.commanded true messages) (World.polls {}) (messages.map some)
      ((Capture.messages ⟨1246, 0, 101, 100, 1000⟩).map packet) := by
    rw [← hmessages]
    exact hreceives
  have hrest := inside_of_taken hbounds hreceives' hinside
  exact absurd ((nonempty_inside_iff hbounds).mp hrest) (by decide)

end ClickA.Handler
