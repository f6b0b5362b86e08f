import ClickA.Fpga.Map
import ClickA.Machine.Run
import ClickA.Options
import ClickA.Stream.Written
import Mathlib.Algebra.Order.Field.Basic
import Mathlib.Tactic.Linarith
import Mathlib.Tactic.NormNum

/-!
# The transmission of a downlink

`CMD_PL_DWNLINK_MODE` of `commandhandler.py` ends with a loop that fills and releases the FIFO of
the modulator for fifteen minutes. A turn sends a heartbeat when `end_time - start_time`, the time
of the transmission, has reached half a second for each heartbeat that `counter_heartbeat` has
counted; the main loop compares the same counter with the time since the process began.

Times are those of an ordered field. A turn takes at most a second.

## Main definitions

* `mainTurn`: the heartbeat of the main loop
* `Approach`, `enter`: the readings of the clock before the transmit loop, and its first state
* `transmitTurn`: a turn of the transmit loop
* `Heard`: at each moment of a turn the last heartbeat is younger than the period of the watchdog

## Main results

* `written_ctl_transmitTurn`: behind a turn the FIFO is released
* `le_mainTurns`: the counter of the main loop keeps up with its time
* `alwaysHeard_iff`: when the watchdog is served in each turn of every run of the loop
-/

namespace ClickA.Commands.DwnlinkMode

open Options Fpga Stream

section Transmit

variable {K : Type} [Field K] [LinearOrder K]

/-- `HK_CH_HEARTBEAT_PD`: the period of sending heartbeats, in seconds. -/
def hkChHeartbeatPd : K := 1 / (2 : ℕ)

/-- A heartbeat is due. -/
def Due (elapsed : K) (counterHeartbeat : ℕ) : Prop := elapsed ≥ hkChHeartbeatPd * counterHeartbeat

instance (elapsed : K) (counterHeartbeat : ℕ) : Decidable (Due elapsed counterHeartbeat) :=
  inferInstanceAs (Decidable (hkChHeartbeatPd * (counterHeartbeat : K) ≤ elapsed))

/-! ## The main loop -/

/-- A turn of the main loop at `currTime`, and what it does to `counter_heartbeat`. -/
def mainTurn (startTimeCh : K) (counterHeartbeat : ℕ) (currTime : K) : ℕ :=
  if Due (currTime - startTimeCh) counterHeartbeat then counterHeartbeat + 1 else counterHeartbeat

/-- Several turns. -/
def mainTurns (startTimeCh : K) (currTimes : List K) (counterHeartbeat : ℕ) : ℕ :=
  currTimes.foldl (mainTurn startTimeCh) counterHeartbeat

/-! ## The transmit loop -/

/-- The readings of the clock before the loop: `end_time`, that of the heartbeat behind it,
`start_time`, those of the heartbeats before and behind the alignment of the seed, and the time when
the loop begins. -/
structure Approach (K : Type) [LE K] where
  endTime : K
  proceeding : K
  startTime : K
  aligning : K
  aligned : K
  now : K
  endTime_le : endTime ≤ proceeding
  proceeding_le : proceeding ≤ startTime
  startTime_le : startTime ≤ aligning
  aligning_le : aligning ≤ aligned
  aligned_le : aligned ≤ now

/-- What the loop has at hand: the register `CTL` as it was read, and the symbols of the packet. -/
structure Transmission where
  control : ℕ
  symbols : List ℤ

/-- The variables of the loop, the time, that of the last heartbeat, and the registers written. -/
structure Loop (K : Type) where
  now : K
  startTime : K
  endTime : K
  counterHeartbeat : ℕ
  lastHeartbeat : K
  writes : List (ℕ × ℤ) := []

/-- The loop begins: three heartbeats were sent before. -/
def enter (counterHeartbeat : ℕ) (a : Approach K) : Loop K where
  now := a.now
  startTime := a.startTime
  endTime := a.endTime
  counterHeartbeat := counterHeartbeat + 1 + 1 + 1
  lastHeartbeat := a.aligned

/-- A turn: the moment when it reads the clock, the moment when it sends a heartbeat if it does, and
how long it takes. -/
structure Turn (K : Type) [LE K] [Zero K] [One K] where
  readAt : K
  sendAt : K
  length : K
  readAt_nonneg : 0 ≤ readAt
  readAt_le : readAt ≤ sendAt
  sendAt_le : sendAt ≤ length
  length_le : length ≤ 1

/-- The condition of the loop. -/
def Loop.Continues (l : Loop K) : Prop := |l.endTime - l.startTime| < transmitTime

instance (l : Loop K) : Decidable l.Continues :=
  inferInstanceAs (Decidable (|l.endTime - l.startTime| < (transmitTime : K)))

/-- A heartbeat is due when a turn has read the clock. -/
def Loop.DueIn (l : Loop K) (turn : Turn K) : Prop :=
  Due (l.now + turn.readAt - l.startTime) l.counterHeartbeat

instance (l : Loop K) (turn : Turn K) : Decidable (l.DueIn turn) :=
  inferInstanceAs (Decidable (Due _ _))

/-- The registers that a turn writes: the FIFO is stalled, filled, and released. -/
def Transmission.turnWrites (t : Transmission) : List (ℕ × ℤ) :=
  (ctl, ((t.control ||| 8 : ℕ) : ℤ)) :: t.symbols.map (fun symbol => (data, symbol)) ++ [(ctl, 7)]

/-- A turn of the loop. -/
def transmitTurn (t : Transmission) (l : Loop K) (turn : Turn K) : Option (Loop K) :=
  if l.Continues then
    some { l with
      now := l.now + turn.length
      endTime := l.now + turn.readAt
      counterHeartbeat :=
        if l.DueIn turn then l.counterHeartbeat + 1 else l.counterHeartbeat
      lastHeartbeat := if l.DueIn turn then l.now + turn.sendAt else l.lastHeartbeat
      writes := l.writes ++ t.turnWrites }
  else none

/-- The last heartbeat at a moment of a turn. -/
def Loop.lastAt (l : Loop K) (turn : Turn K) (moment : K) : K :=
  if l.DueIn turn ∧ turn.sendAt ≤ moment then l.now + turn.sendAt else l.lastHeartbeat

/-- At each moment of a turn the last heartbeat is not older than `HK_CH_CHECK_PD`. -/
def Loop.Heard (l : Loop K) (turn : Turn K) : Prop :=
  ∀ moment, 0 ≤ moment → moment ≤ turn.length →
    l.now + moment - l.lastAt turn moment ≤ hkChCheckPd

/-- In each turn of every run of the loop. -/
def AlwaysHeard (t : Transmission) (l : Loop K) : Prop :=
  ∀ turns, Machine.Along (transmitTurn t) (fun l turn => l.Continues → l.Heard turn) l turns

variable {l l' : Loop K} {turn : Turn K} {t : Transmission} {a : Approach K} {c : ℕ}

theorem transmitTurn_of_continues (h : l.Continues) : transmitTurn t l turn = some { l with
    now := l.now + turn.length
    endTime := l.now + turn.readAt
    counterHeartbeat := if l.DueIn turn then l.counterHeartbeat + 1 else l.counterHeartbeat
    lastHeartbeat := if l.DueIn turn then l.now + turn.sendAt else l.lastHeartbeat
    writes := l.writes ++ t.turnWrites } := if_pos h

/-- A turn in which no heartbeat is due. -/
theorem transmitTurn_of_not_dueIn (h : l.Continues) (hdue : ¬ l.DueIn turn) :
    transmitTurn t l turn = some { l with
      now := l.now + turn.length
      endTime := l.now + turn.readAt
      writes := l.writes ++ t.turnWrites } := by
  rw [transmitTurn_of_continues h, if_neg hdue, if_neg hdue]

theorem continues_of_transmitTurn (h : transmitTurn t l turn = some l') : l.Continues := by
  by_contra hnot
  rw [transmitTurn, if_neg hnot] at h
  cases h

/-- Behind a turn the FIFO is released. -/
theorem written_ctl_transmitTurn (h : transmitTurn t l turn = some l') :
    written l'.writes ctl = some 7 := by
  rw [transmitTurn_of_continues (continues_of_transmitTurn h)] at h
  obtain rfl := Option.some.inj h
  rw [Transmission.turnWrites, ← List.append_assoc, written_concat, if_pos rfl]

theorem due_iff {elapsed : K} : Due elapsed c ↔ (c : K) / 2 ≤ elapsed := by
  rw [Due, hkChHeartbeatPd, ge_iff_le, Nat.cast_ofNat, one_div_mul_eq_div]

theorem Loop.dueIn_iff :
    l.DueIn turn ↔ (l.counterHeartbeat : K) / 2 ≤ l.now + turn.readAt - l.startTime := due_iff

variable [IsStrictOrderedRing K]

/-- When the turns of the main loop are at most half a second apart, the counter keeps up. -/
theorem le_mainTurns {startTimeCh currTime : K} {currTimes : List K}
    (hle : currTime - startTimeCh ≤ c / 2)
    (hturns : (currTime :: currTimes).IsChain fun before after => after ≤ before + 1 / 2) :
    currTimes.getLastD currTime - startTimeCh ≤ (mainTurns startTimeCh currTimes c : ℕ) / 2 := by
  induction currTimes generalizing currTime c with
  | nil => exact hle
  | cons next currTimes ih =>
    obtain ⟨hnext, hturns⟩ := List.isChain_cons_cons.mp hturns
    rw [List.getLastD_cons]
    refine ih (c := mainTurn startTimeCh c next) ?_ hturns
    -- a heartbeat counts the half second, and there is none when the counter is ahead
    unfold mainTurn
    split_ifs with hdue
    · push_cast
      linarith
    · rw [due_iff, not_le] at hdue
      exact hdue.le

/-! ## The watchdog is served -/

/-- The first turns are in time: the loop does not begin; or the last heartbeat is fresh, and half a
second for each heartbeat sent (but at most the time of the loop) is over soon enough. -/
def InTime (counterHeartbeat : ℕ) (a : Approach K) : Prop :=
  transmitTime ≤ a.startTime - a.endTime ∨
    a.now - a.aligned ≤ (hkChCheckPd - 1 : ℕ) ∧
      min (hkChHeartbeatPd * ((counterHeartbeat + 3 : ℕ) : K)) (transmitTime : K) ≤
        max (a.now - a.startTime) (a.aligned - a.startTime + (hkChCheckPd - 2 : ℕ))

/-- Before the loop has sent a heartbeat. -/
structure Before (c : ℕ) (a : Approach K) (l : Loop K) : Prop where
  startTime : l.startTime = a.startTime
  counterHeartbeat : l.counterHeartbeat = c + 3
  lastHeartbeat : l.lastHeartbeat = a.aligned
  turned : l.now = a.now ∨ a.now ≤ l.endTime ∧ l.endTime ≤ l.now ∧ l.now ≤ l.endTime + 1 ∧
    l.endTime - a.startTime < (c + 3) / 2

/-- Behind a heartbeat of the loop. -/
structure Since (a : Approach K) (l : Loop K) : Prop where
  startTime : l.startTime = a.startTime
  counter_le : (l.counterHeartbeat : K) / 2 ≤ l.lastHeartbeat - a.startTime + 1 / 2
  now_le : l.now ≤ l.lastHeartbeat + 3 / 2

/-- A turn that begins in time is heard. -/
theorem Loop.heard_of_le (h : l.now ≤ l.lastHeartbeat + 9) : l.Heard turn := by
  intro moment hfirst hlast
  have hturn := turn.length_le
  have hread := turn.readAt_nonneg
  have hsend := turn.readAt_le
  rw [Loop.lastAt, hkChCheckPd, Nat.cast_ofNat]
  split_ifs
  · linarith
  · linarith

theorem Loop.continues_of_sub_lt (hle : l.startTime ≤ l.endTime)
    (hlt : l.endTime - l.startTime < 900) : l.Continues := by
  rw [Loop.Continues, abs_of_nonneg (sub_nonneg.mpr hle), transmitTime, Nat.cast_ofNat]
  exact hlt

theorem Loop.Continues.sub_lt (h : l.Continues) : l.endTime - l.startTime < 900 := by
  have hlt := (abs_lt.mp h).2
  rwa [transmitTime, Nat.cast_ofNat] at hlt

/-- A turn in which a heartbeat is sent. -/
theorem since_of_dueIn (hstart : l.startTime = a.startTime) (hdue : l.DueIn turn)
    (h : transmitTurn t l turn = some l') : Since a l' := by
  rw [transmitTurn_of_continues (continues_of_transmitTurn h), if_pos hdue, if_pos hdue] at h
  obtain rfl := Option.some.inj h
  rw [Loop.dueIn_iff, hstart] at hdue
  have hread := turn.readAt_le
  have hsend := turn.readAt_nonneg
  have hlength := turn.length_le
  refine ⟨hstart, ?_, ?_⟩
  · push_cast
    linarith
  · dsimp only
    linarith

/-- A turn behind a heartbeat of the loop. -/
theorem Since.step (hl : Since a l) (h : transmitTurn t l turn = some l') : Since a l' := by
  by_cases hdue : l.DueIn turn
  · exact since_of_dueIn hl.startTime hdue h
  rw [transmitTurn_of_not_dueIn (continues_of_transmitTurn h) hdue] at h
  obtain rfl := Option.some.inj h
  rw [Loop.dueIn_iff, hl.startTime, not_le] at hdue
  have hread := turn.readAt_nonneg
  have hlength := turn.length_le
  have hcounter := hl.counter_le
  refine ⟨hl.startTime, hcounter, ?_⟩
  dsimp only
  linarith

/-- A turn before the first heartbeat of the loop. -/
theorem Before.step (hl : Before c a l) (h : transmitTurn t l turn = some l') :
    Before c a l' ∨ Since a l' := by
  by_cases hdue : l.DueIn turn
  · exact .inr (since_of_dueIn hl.startTime hdue h)
  rw [transmitTurn_of_not_dueIn (continues_of_transmitTurn h) hdue] at h
  obtain rfl := Option.some.inj h
  rw [Loop.dueIn_iff, hl.startTime, hl.counterHeartbeat, not_le] at hdue
  have hread := turn.readAt_nonneg
  have hsend := turn.readAt_le
  have hlast := turn.sendAt_le
  have hlength := turn.length_le
  push_cast at hdue
  refine .inl ⟨hl.startTime, hl.counterHeartbeat, hl.lastHeartbeat, .inr ?_⟩
  dsimp only
  rcases hl.turned with hnow | ⟨hend, hle, hlater, hless⟩
  · exact ⟨by linarith, by linarith, by linarith, by linarith⟩
  · exact ⟨by linarith, by linarith, by linarith, by linarith⟩

/-- A turn is heard before the first heartbeat of the loop. -/
theorem Before.heard (hl : Before c a l) (hfresh : a.now - a.aligned ≤ 9)
    (hsoon : min (((c : K) + 3) / 2) 900 ≤ max (a.now - a.startTime) (a.aligned - a.startTime + 8))
    (h : l.Continues) : l.Heard turn := by
  apply Loop.heard_of_le
  rw [hl.lastHeartbeat]
  rcases hl.turned with hnow | ⟨hend, -, hlater, hless⟩
  · linarith
  have hread : l.endTime - a.startTime < min (((c : K) + 3) / 2) 900 :=
    lt_min hless (hl.startTime ▸ h.sub_lt)
  rcases le_max_iff.mp hsoon with hsoon | hsoon
  · linarith
  · linarith

theorem Since.heard (hl : Since a l) : l.Heard turn := by
  apply Loop.heard_of_le
  have hnow := hl.now_le
  linarith

omit [IsStrictOrderedRing K] in
theorem before_enter (c : ℕ) (a : Approach K) : Before c a (enter c a) :=
  ⟨rfl, rfl, rfl, .inl rfl⟩

omit [IsStrictOrderedRing K] in
theorem inTime_iff : InTime c a ↔ 900 ≤ a.startTime - a.endTime ∨ a.now - a.aligned ≤ 9 ∧
    min (((c : K) + 3) / 2) 900 ≤ max (a.now - a.startTime) (a.aligned - a.startTime + 8) := by
  have hfresh : ((hkChCheckPd - 1 : ℕ) : K) = 9 := rfl
  have hsoon : ((hkChCheckPd - 2 : ℕ) : K) = 8 := rfl
  rw [InTime, hkChHeartbeatPd, transmitTime, Nat.cast_ofNat, Nat.cast_ofNat, hfresh, hsoon,
    one_div_mul_eq_div, Nat.cast_add, Nat.cast_ofNat]

/-- The loop begins when `start_time` was read less than fifteen minutes after `end_time`. -/
theorem continues_enter_iff : (enter c a).Continues ↔ a.startTime - a.endTime < 900 := by
  have hle : a.endTime - a.startTime ≤ 0 := by
    have hfirst := a.endTime_le
    have hsecond := a.proceeding_le
    linarith
  show |a.endTime - a.startTime| < ((900 : ℕ) : K) ↔ _
  rw [abs_of_nonpos hle, neg_sub, Nat.cast_ofNat]

/-- In time, each turn is heard. -/
theorem alwaysHeard_of_inTime (t : Transmission) (h : InTime c a) :
    AlwaysHeard t (enter c a) := by
  intro turns
  rcases inTime_iff.mp h with hlate | ⟨hfresh, hsoon⟩
  · have hnot : ¬ (enter c a).Continues := fun hcontinues =>
      (continues_enter_iff.mp hcontinues).not_ge hlate
    cases turns with
    | nil => trivial
    | cons turn turns =>
      exact ⟨fun hcontinues => absurd hcontinues hnot,
        fun l' hstep => absurd (continues_of_transmitTurn hstep) hnot⟩
  · refine Machine.along_of_invariant (fun l => Before c a l ∨ Since a l) ?_ ?_
      (.inl (before_enter c a))
    · rintro l turn l' (hl | hl) hstep
      · exact hl.step hstep
      · exact .inr (hl.step hstep)
    · rintro l turn (hl | hl) hcontinues
      · exact hl.heard hfresh hsoon hcontinues
      · exact hl.heard

/-! ## The watchdog is not served -/

/-- A turn of `length` seconds that reads the clock at `readAt`, and sends a heartbeat at its end if
it does. -/
def turnOf (readAt length : K) (hread : 0 ≤ readAt) (hlength : readAt ≤ length) (hle : length ≤ 1) :
    Turn K :=
  ⟨readAt, length, length, hread, hlength, le_rfl, hle⟩

/-- The turn of a second that reads the clock at once. -/
def slow : Turn K := turnOf 0 1 le_rfl zero_le_one le_rfl

/-- A slow turn is heard only when the last heartbeat is fresh. -/
theorem le_of_heard_slow (h : l.Heard slow) : l.now ≤ l.lastHeartbeat + 9 := by
  by_contra! hlt
  obtain ⟨moment, hlow, hhigh⟩ : ∃ moment, max 0 (l.lastHeartbeat + 10 - l.now) < moment ∧
      moment < 1 := by
    apply exists_between
    rw [max_lt_iff]
    constructor
    · exact zero_lt_one
    · linarith
  obtain ⟨hpos, hold⟩ := max_lt_iff.mp hlow
  have hheard := h moment hpos.le hhigh.le
  have hlast : l.lastAt slow moment = l.lastHeartbeat := if_neg fun hsent => hsent.2.not_gt hhigh
  rw [hlast, hkChCheckPd, Nat.cast_ofNat] at hheard
  linarith

/-- No heartbeat was sent between two states of a loop that goes on. -/
structure Loop.Quiet (l l' : Loop K) : Prop where
  startTime : l'.startTime = l.startTime
  counterHeartbeat : l'.counterHeartbeat = l.counterHeartbeat
  lastHeartbeat : l'.lastHeartbeat = l.lastHeartbeat
  continues : l'.Continues

/-- A turn that reads the clock before a heartbeat is due. -/
theorem exists_quiet (t : Transmission) (turn : Turn K) (hcontinues : l.Continues)
    (hle : l.startTime ≤ l.now)
    (hlt : l.now + turn.readAt - l.startTime < min ((l.counterHeartbeat : K) / 2) 900) :
    ∃ l', transmitTurn t l turn = some l' ∧ l'.now = l.now + turn.length ∧ l.Quiet l' := by
  obtain ⟨hdue, htime⟩ := lt_min_iff.mp hlt
  have hread := turn.readAt_nonneg
  refine ⟨_, transmitTurn_of_not_dueIn hcontinues ?_, rfl, rfl, rfl, rfl, ?_⟩
  · rw [Loop.dueIn_iff, not_le]
    exact hdue
  · apply Loop.continues_of_sub_lt
    · show l.startTime ≤ l.now + turn.readAt
      linarith
    · exact htime

/-- Before a heartbeat is due, `n` equal turns that read the clock at their ends. -/
theorem run_replicate (t : Transmission) (length : K) (hpos : 0 ≤ length) (hle : length ≤ 1) (n : ℕ)
    (hcontinues : l.Continues) (hstart : l.startTime ≤ l.now)
    (hend : l.now + n * length - l.startTime < min ((l.counterHeartbeat : K) / 2) 900) :
    ∃ l', Machine.run (transmitTurn t) l (List.replicate n (turnOf length length hpos le_rfl hle)) =
        some l' ∧ l'.now = l.now + n * length ∧ l.Quiet l' := by
  induction n generalizing l with
  | zero =>
    exact ⟨l, rfl, by rw [Nat.cast_zero, zero_mul, add_zero], rfl, rfl, rfl, hcontinues⟩
  | succ n ih =>
    have hrest : 0 ≤ (n : K) * length := mul_nonneg (Nat.cast_nonneg n) hpos
    have hsum : l.now + (n + 1 : ℕ) * length = l.now + length + n * length := by
      push_cast
      ring
    rw [hsum] at hend ⊢
    obtain ⟨l₁, hstep, hnow₁, hquiet₁⟩ := exists_quiet t (turnOf length length hpos le_rfl hle)
      hcontinues hstart (lt_of_le_of_lt (show l.now + length - l.startTime ≤ _ by linarith) hend)
    obtain ⟨l', hrun, hnow, hquiet⟩ := ih (l := l₁) hquiet₁.continues
      (by rw [hquiet₁.startTime, hnow₁]; show l.startTime ≤ l.now + length; linarith)
      (by rw [hquiet₁.startTime, hquiet₁.counterHeartbeat, hnow₁]; exact hend)
    refine ⟨l', ?_, hnow.trans (by rw [hnow₁]; rfl), hquiet.startTime.trans hquiet₁.startTime,
      hquiet.counterHeartbeat.trans hquiet₁.counterHeartbeat,
      hquiet.lastHeartbeat.trans hquiet₁.lastHeartbeat, hquiet.continues⟩
    exact Machine.run_cons_eq_some.mpr ⟨l₁, hstep, hrun⟩

/-- In a loop that is always heard, the last heartbeat before a time at which none is due is at most
eight seconds older. -/
theorem le_of_alwaysHeard (t : Transmission) (time : K) (h : AlwaysHeard t l)
    (hcontinues : l.Continues) (hstart : l.startTime ≤ l.now) (hle : l.now ≤ time)
    (hlt : time - l.startTime < min ((l.counterHeartbeat : K) / 2) 900) :
    time ≤ l.lastHeartbeat + 8 := by
  have h900 : time - l.startTime < 900 := lt_of_lt_of_le hlt (min_le_right _ _)
  have hsum : l.now + (900 : ℕ) * ((time - l.now) / 900) = time := by
    push_cast
    ring
  -- equal turns up to the time, and two slow turns from then on
  obtain ⟨l₁, hrun, hnow₁, hquiet₁⟩ := run_replicate t ((time - l.now) / 900)
    (div_nonneg (sub_nonneg.mpr hle) (by norm_num))
    ((div_le_one (by norm_num)).mpr (by linarith)) 900 hcontinues hstart (by rwa [hsum])
  rw [hsum] at hnow₁
  obtain ⟨l₂, hstep, hnow₂, hquiet₂⟩ := exists_quiet t slow hquiet₁.continues
    (by rw [hquiet₁.startTime, hnow₁]; exact hstart.trans hle)
    (by rw [hquiet₁.startTime, hquiet₁.counterHeartbeat, hnow₁]; simpa [slow, turnOf] using hlt)
  have halong := (h (List.replicate 900 _ ++ [slow, slow])).behind hrun
  have hheard := le_of_heard_slow ((halong.2 l₂ hstep).1 hquiet₂.continues)
  rw [hnow₂, hnow₁, hquiet₂.lastHeartbeat, hquiet₁.lastHeartbeat] at hheard
  change time + 1 ≤ _ at hheard
  linarith

/-- A loop that is always heard begins in time, or not at all. -/
theorem inTime_of_alwaysHeard (t : Transmission) (h : AlwaysHeard t (enter c a)) : InTime c a := by
  rw [inTime_iff]
  by_contra! hnot
  obtain ⟨hbegins, hlate⟩ := hnot
  have hcontinues : (enter c a).Continues := continues_enter_iff.mpr hbegins
  have hstart : a.startTime ≤ a.now :=
    a.startTime_le.trans (a.aligning_le.trans a.aligned_le)
  have hfresh := le_of_heard_slow ((h [slow]).1 hcontinues)
  change a.now ≤ a.aligned + 9 at hfresh
  obtain ⟨time, hlow, hhigh⟩ := exists_between (hlate (by linarith))
  obtain ⟨hnow, hold⟩ := max_lt_iff.mp hlow
  have hle := le_of_alwaysHeard t (a.startTime + time) h hcontinues hstart
    (show a.now ≤ _ by linarith) ?_
  · change a.startTime + time ≤ a.aligned + 8 at hle
    linarith
  · show a.startTime + time - a.startTime < min (((c + 3 : ℕ) : K) / 2) 900
    push_cast
    rwa [add_sub_cancel_left]

/-- **Exactly when the watchdog is served in each turn, whatever the turns are: the loop does not
begin; or the last heartbeat is at most nine seconds old when it begins, and the time at which the
counter lets the next one be sent (or the loop end) is reached by then or at most eight seconds
behind the last heartbeat.** -/
theorem alwaysHeard_iff (t : Transmission) (counterHeartbeat : ℕ) (a : Approach K) :
    AlwaysHeard t (enter counterHeartbeat a) ↔ InTime counterHeartbeat a :=
  ⟨inTime_of_alwaysHeard t, alwaysHeard_of_inTime t⟩

/-- **The command does not keep the watchdog served when the main loop ran longer than the time
between `start_time` and the loop, and than eight seconds more than that between `start_time` and
the last heartbeat.** -/
theorem not_alwaysHeard_of_mainTurns {startTimeCh : K} {currTimes : List K} (t : Transmission)
    (hturns : (startTimeCh :: currTimes).IsChain fun before after => after ≤ before + 1 / 2)
    (hbegins : a.startTime - a.endTime < 900)
    (htime : a.now - a.startTime < min (currTimes.getLastD startTimeCh - startTimeCh) 900)
    (hlast : a.aligned - a.startTime + 8 < min (currTimes.getLastD startTimeCh - startTimeCh) 900) :
    ¬ AlwaysHeard t (enter (mainTurns startTimeCh currTimes 0) a) := by
  intro h
  obtain hlate | ⟨-, hsoon⟩ := inTime_iff.mp (inTime_of_alwaysHeard t h)
  · exact hlate.not_gt hbegins
  have hkept := le_mainTurns (c := 0)
    (show startTimeCh - startTimeCh ≤ ((0 : ℕ) : K) / 2 by simp) hturns
  have hmin := min_le_min_right (900 : K) (hkept.trans (div_le_div_of_nonneg_right
    (le_add_of_nonneg_right zero_le_three) zero_le_two))
  exact (hmin.trans hsoon).not_gt (max_lt htime hlast)

end Transmit

/-- Six seconds from `start_time` to the loop. -/
def prompt : Approach ℚ where
  endTime := 0
  proceeding := 0
  startTime := 0
  aligning := 0
  aligned := 6
  now := 6
  endTime_le := le_rfl
  proceeding_le := le_rfl
  startTime_le := le_rfl
  aligning_le := by norm_num
  aligned_le := le_rfl

/-- With few heartbeats before, the watchdog is served. -/
theorem alwaysHeard_prompt : AlwaysHeard ⟨7, []⟩ (enter 20 prompt) :=
  (alwaysHeard_iff ⟨7, []⟩ 20 prompt).mpr (inTime_iff.mpr (.inr (by norm_num [prompt])))

/-- An hour behind the begin of the process, the heartbeats stop. -/
theorem not_alwaysHeard_prompt : ¬ AlwaysHeard ⟨7, []⟩ (enter 7200 prompt) := by
  intro h
  have hin := inTime_iff.mp (inTime_of_alwaysHeard _ h)
  norm_num [prompt] at hin

end ClickA.Commands.DwnlinkMode
