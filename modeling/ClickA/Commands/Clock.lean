import ClickA.Commands.Footprint

/-!
# The clock of the payload computer

A time at tone sets the clock if and only if an `ENABLE_TIME` came before it, and neither a time at
tone nor an exception since. It is set to the second of the tone, as a date.

## Main definitions

* `SetsClock`: a command of a shell sets the clock to a second
* `Armed`: the next time at tone sets the clock

## Main results

* `SetsClock.inj`: the text of a command decides the second
* `flag_turn`, `flag_serve`: `TIME_SET_ENABLE` behind a turn, and behind a run
* `clock_at_tone`: what a time at tone does behind a run
-/

namespace ClickA.Commands

open Python Options

attribute [local irreducible] pack HKControlPacket.encode TxPacket.encode Handler.sendPatCommand

/-- The command sets the clock to a second, by its date. -/
def SetsClock (command : Bytes) (second : ℤ) : Prop :=
  ∃ setTime : StructTime, setTime.Valid ∧ (0 ≤ setTime.tmYear ∧ setTime.tmYear < 10 ^ 4) ∧
    command = setTimeCommand setTime ∧ timegm setTime = second

section Runs

variable (dwnlinkMode : Env → Stmt Unit)

/-- The next time at tone sets the clock: there was an `ENABLE_TIME`, and the turns since ended
normally and were no times at tone. -/
def Armed (turns : List Turn) (w : World) : Prop :=
  ∃ before enable behind, turns = before ++ enable :: behind ∧ enable.HasId cmdPlEnableTime ∧
    ∀ pre t post, behind = pre ++ t :: post → ¬ t.HasId apidTimeAtTone ∧
      t.ends dwnlinkMode (serve dwnlinkMode (before ++ enable :: pre) w) = true

end Runs

variable {dwnlinkMode : Env → Stmt Unit} {env : Env} {w : World} {t : Turn} {turns : List Turn}
  {payload : Bytes} {taiSecs : ℤ} {values : List Value} {s ms cmdId : ℕ}

/-! ## Dates -/

theorem month_le {l : ℕ} {leap : Bool} {i : ℕ} (h : (monthLengths leap)[i]? = some l) :
    i < 12 ∧ l ≤ 31 := by
  obtain ⟨hlt, rfl⟩ := List.getElem?_eq_some_iff.mp h
  have hall : ∀ l ∈ monthLengths leap, l ≤ 31 := by
    cases leap <;> decide
  exact ⟨by simpa [monthLengths] using hlt, hall _ (List.getElem_mem hlt)⟩

/-- The numbers of a date have two digits. -/
theorem StructTime.Valid.lt {setTime : StructTime} (h : setTime.Valid) :
    setTime.tmMon < 10 ^ 2 ∧ setTime.tmMday < 10 ^ 2 ∧ setTime.tmHour < 10 ^ 2 ∧
      setTime.tmMin < 10 ^ 2 ∧ setTime.tmSec < 10 ^ 2 := by
  obtain ⟨hmon, ⟨hmday, l, hl, hle⟩, hhour, hmin, hsec⟩ := h
  have hmonth := month_le hl
  omega

/-- The text of a command decides its date. -/
theorem setTimeCommand_inj {t t' : StructTime} (ht : t.Valid) (ht' : t'.Valid)
    (hyear : 0 ≤ t.tmYear ∧ t.tmYear < 10 ^ 4) (hyear' : 0 ≤ t'.tmYear ∧ t'.tmYear < 10 ^ 4)
    (h : setTimeCommand t = setTimeCommand t') : t = t' := by
  obtain ⟨hmon, hmday, hhour, hmin, hsec⟩ := StructTime.Valid.lt ht
  obtain ⟨hmon', hmday', hhour', hmin', hsec'⟩ := StructTime.Valid.lt ht'
  obtain ⟨heqYear, h⟩ := zeroPadded_inj (by decide) (by omega) (by omega)
    (List.append_cancel_left h)
  obtain ⟨heqMon, h⟩ := zeroPadded_inj (by decide) hmon hmon' (List.append_cancel_left h)
  obtain ⟨heqMday, h⟩ := zeroPadded_inj (by decide) hmday hmday' (List.append_cancel_left h)
  obtain ⟨heqHour, h⟩ := zeroPadded_inj (by decide) hhour hhour' (List.append_cancel_left h)
  obtain ⟨heqMin, h⟩ := zeroPadded_inj (by decide) hmin hmin' (List.append_cancel_left h)
  obtain ⟨heqSec, -⟩ := zeroPadded_inj (by decide) hsec hsec' (List.append_cancel_left h)
  cases t
  cases t'
  simp only [StructTime.mk.injEq]
  dsimp only at *
  omega

/-- **The text of a command decides the second.** -/
theorem SetsClock.inj {command : Bytes} {second second' : ℤ} (h : SetsClock command second)
    (h' : SetsClock command second') : second = second' := by
  obtain ⟨t, hvalid, hyear, rfl, rfl⟩ := h
  obtain ⟨t', hvalid', hyear', heq, rfl⟩ := h'
  rw [setTimeCommand_inj hvalid hvalid' hyear hyear' heq]

/-! ## Turns -/

/-- What holds behind the statement of a turn, when an exception ends the process. -/
theorem wp_turn {P : World → Prop} (h : Wp (t.body dwnlinkMode) (fun _ w' => P w')
    (fun _ w' => P (restarted w')) w) : P (turn dwnlinkMode w t) := by
  unfold Wp at h
  unfold turn
  cases hbody : t.body dwnlinkMode w with
  | ok a w' => rwa [hbody] at h
  | error e w' => rwa [hbody] at h

theorem body_command {c : Command}
    (hdecode : RxCommandPacket.decode t.raw = .ok (c.id, s, ms, payload)) :
    t.body dwnlinkMode = c.handle t.env t.patStatusFlag payload :=
  workload_eq hdecode

theorem body_tone (hdecode : RxCommandPacket.decode t.raw = .ok (apidTimeAtTone, s, ms, payload)) :
    t.body dwnlinkMode = timeAtTone t.env payload := by
  unfold Turn.body workload
  rw [hdecode]
  rfl

theorem id_of_ofId {c : Command} (h : Command.ofId cmdId = some c) : c.id = cmdId :=
  of_decide_eq_true (List.find?_some (p := fun c : Command => decide (c.id = cmdId)) h)

theorem clock_not_mem {c : Command} (h : c ≠ .enableTime) : .clock ∉ c.footprint := by
  revert h
  cases c <;> decide

/-- Only `ENABLE_TIME` and the time at tone may touch the flag. -/
theorem clock_not_mem_footprint (henable : ¬ t.HasId cmdPlEnableTime)
    (htone : ¬ t.HasId apidTimeAtTone) : .clock ∉ t.footprint := by
  unfold Turn.footprint
  cases hdecode : RxCommandPacket.decode t.raw with
  | error e => exact List.not_mem_nil
  | ok decoded =>
    obtain ⟨cmdId, s, ms, payload⟩ := decoded
    show .clock ∉ footprintOf cmdId
    unfold footprintOf
    cases hofId : Command.ofId cmdId with
    | some c =>
      have hne : c ≠ .enableTime := by
        rintro rfl
        obtain rfl := id_of_ofId hofId
        exact henable ⟨s, ms, payload, hdecode⟩
      exact clock_not_mem hne
    | none =>
      have hcmdId : cmdId ≠ apidTimeAtTone := by
        rintro rfl
        exact htone ⟨s, ms, payload, hdecode⟩
      dsimp only
      rw [if_neg hcmdId]
      split <;> decide

/-- `ENABLE_TIME` ends normally. -/
theorem flag_enable (h : t.HasId cmdPlEnableTime) :
    (turn dwnlinkMode w t).timeSetEnable = 1 := by
  obtain ⟨s, ms, payload, hdecode⟩ := h
  apply wp_turn (P := fun w' => w'.timeSetEnable = 1)
  rw [body_command (c := .enableTime) hdecode]
  show Wp (enableTime t.env) _ _ w
  unfold enableTime
  rw [wp_bind, wp_modify]
  have hacks : Ends (ackToHk t.env cmdPlEnableTime cmdAck) { w with timeSetEnable := 1 } :=
    (ensures_ackToHk_host (by decide) (by decide)).imp fun _ _ _ => trivial
  have hframe : Keeps (Frame []) (ackToHk t.env cmdPlEnableTime cmdAck) := frame_ackToHk
  refine (Wp.and hacks (hframe _)).mono ?_ fun _ _ hfalse => hfalse.1.elim
  exact fun _ _ h => h.2 .clock List.not_mem_nil

theorem allows_raise {α : Type} (y : Except Exn α) :
    Allows (raise y) (fun _ w' => w = w') w := by
  cases y with
  | ok a => rfl
  | error e => trivial

/-- Behind a time at tone the clock is not to be set. -/
theorem flag_tone (h : t.HasId apidTimeAtTone) (hle : w.timeSetEnable ≤ 1) :
    (turn dwnlinkMode w t).timeSetEnable = 0 := by
  obtain ⟨s, ms, payload, hdecode⟩ := h
  apply wp_turn (P := fun w' => w'.timeSetEnable = 0)
  rw [body_tone hdecode]
  have hallows : Allows (timeAtTone t.env payload) (fun _ w' => w'.timeSetEnable = 0) w := by
    unfold timeAtTone
    rw [Allows, wp_bind, wp_get]
    split
    · refine Allows.bind (allows_raise _) ?_
      rintro values _ rfl
      split
      · refine Allows.bind (allows_raise _) ?_
        rintro setTime _ rfl
        have hframe : Keeps (Frame shellFootprint) (system t.env (setTimeCommand setTime)) :=
          frame_system fun _ => id
        refine (hframe.allows _).bind fun _ w' hsame => ?_
        have hflag : w'.timeSetEnable = w.timeSetEnable := hsame .clock (by decide)
        rw [Allows, wp_modify]
        show w'.timeSetEnable - 1 = 0
        omega
      · trivial
    · rw [wp_pure]
      omega
  exact hallows.mono (fun _ _ => id) fun _ _ _ => rfl

/-- Another turn leaves the flag as it is, unless an exception ends the process. -/
theorem flag_other (henable : ¬ t.HasId cmdPlEnableTime) (htone : ¬ t.HasId apidTimeAtTone)
    (hdwnlink : ¬ t.HasId cmdPlDwnlinkMode) :
    (turn dwnlinkMode w t).timeSetEnable =
      if t.ends dwnlinkMode w = true then w.timeSetEnable else 0 := by
  have hframe : Wp (t.body dwnlinkMode) _ _ w := frame_body hdwnlink w
  unfold Wp at hframe
  unfold turn Turn.ends endsIn
  cases hbody : t.body dwnlinkMode w with
  | ok a w' =>
    rw [hbody] at hframe
    exact hframe .clock (clock_not_mem_footprint henable htone)
  | error e w' => rfl

/-- **The flag behind a turn.** -/
theorem flag_turn (hdwnlink : ¬ t.HasId cmdPlDwnlinkMode) (hle : w.timeSetEnable ≤ 1) :
    (turn dwnlinkMode w t).timeSetEnable ≤ 1 ∧ (0 < (turn dwnlinkMode w t).timeSetEnable ↔
      t.HasId cmdPlEnableTime ∨
        ¬ t.HasId apidTimeAtTone ∧ t.ends dwnlinkMode w = true ∧ 0 < w.timeSetEnable) := by
  by_cases henable : t.HasId cmdPlEnableTime
  · rw [flag_enable henable]
    exact ⟨le_rfl, iff_of_true Nat.one_pos (.inl henable)⟩
  by_cases htone : t.HasId apidTimeAtTone
  · rw [flag_tone htone hle]
    exact ⟨Nat.zero_le 1, iff_of_false (Nat.lt_irrefl 0) fun h => h.elim henable fun h => h.1 htone⟩
  rw [flag_other henable htone hdwnlink]
  by_cases hends : t.ends dwnlinkMode w = true
  · rw [if_pos hends]
    exact ⟨hle, fun hpos => .inr ⟨htone, hends, hpos⟩, fun h => (h.resolve_left henable).2.2⟩
  · rw [if_neg hends]
    refine ⟨Nat.zero_le 1, iff_of_false (Nat.lt_irrefl 0) fun h => ?_⟩
    exact hends (h.resolve_left henable).2.1

/-! ## Runs -/

theorem serve_concat (turns : List Turn) (t : Turn) (w : World) :
    serve dwnlinkMode (turns ++ [t]) w = turn dwnlinkMode (serve dwnlinkMode turns w) t :=
  List.foldl_concat ..

theorem not_armed_nil : ¬ Armed dwnlinkMode [] w := by
  rintro ⟨before, enable, behind, heq, -⟩
  exact List.append_ne_nil_of_right_ne_nil _ (List.cons_ne_nil _ _) heq.symm

/-- The last turn decides, or the turns before it. -/
theorem armed_concat : Armed dwnlinkMode (turns ++ [t]) w ↔ t.HasId cmdPlEnableTime ∨
    ¬ t.HasId apidTimeAtTone ∧ t.ends dwnlinkMode (serve dwnlinkMode turns w) = true ∧
      Armed dwnlinkMode turns w := by
  constructor
  · rintro ⟨before, enable, behind, heq, henable, hbehind⟩
    rcases List.eq_nil_or_concat behind with rfl | ⟨l, b, rfl⟩
    · obtain ⟨-, rfl⟩ := List.append_singleton_inj.mp heq
      exact .inl henable
    · rw [List.concat_eq_append, ← List.cons_append, ← List.append_assoc] at heq
      obtain ⟨rfl, rfl⟩ := List.append_singleton_inj.mp heq
      obtain ⟨htone, hends⟩ := hbehind l t [] (List.concat_eq_append ..)
      refine .inr ⟨htone, hends, before, enable, l, rfl, henable, ?_⟩
      intro pre t' post hl
      refine hbehind pre t' (post ++ [t]) ?_
      rw [List.concat_eq_append, hl, List.append_assoc, List.cons_append]
  · rintro (henable | ⟨htone, hends, before, enable, behind, rfl, henable, hbehind⟩)
    · exact ⟨turns, t, [], rfl, henable, fun pre _ _ h => by cases pre <;> cases h⟩
    · refine ⟨before, enable, behind ++ [t], by simp, henable, ?_⟩
      intro pre t' post heq
      rcases List.eq_nil_or_concat post with rfl | ⟨l, b, rfl⟩
      · obtain ⟨rfl, rfl⟩ := List.append_singleton_inj.mp heq
        exact ⟨htone, hends⟩
      · rw [List.concat_eq_append, ← List.cons_append, ← List.append_assoc] at heq
        obtain ⟨rfl, -⟩ := List.append_singleton_inj.mp heq
        exact hbehind pre t' l rfl

/-- **The flag behind a run** says whether the next time at tone sets the clock. -/
theorem flag_serve (hstart : w.timeSetEnable = 0)
    (hturns : ∀ t ∈ turns, ¬ t.HasId cmdPlDwnlinkMode) :
    (serve dwnlinkMode turns w).timeSetEnable ≤ 1 ∧
      (0 < (serve dwnlinkMode turns w).timeSetEnable ↔ Armed dwnlinkMode turns w) := by
  induction turns using List.reverseRecOn with
  | nil =>
    show w.timeSetEnable ≤ 1 ∧ (0 < w.timeSetEnable ↔ _)
    rw [hstart]
    exact ⟨Nat.zero_le 1, iff_of_false (Nat.lt_irrefl 0) not_armed_nil⟩
  | append_singleton turns t ih =>
    rw [List.forall_mem_append] at hturns
    obtain ⟨hle, hiff⟩ := ih hturns.1
    rw [serve_concat, armed_concat, ← hiff]
    exact flag_turn (hturns.2 t List.mem_cons_self) hle

/-! ## The time at tone -/

theorem nul_not_mem_zeroPadded (k n : ℕ) : (0 : UInt8) ∉ zeroPadded k n := by
  rw [zeroPadded, List.mem_append, not_or]
  refine ⟨fun h => ?_, not_mem_str rfl⟩
  have hzero := List.eq_of_mem_replicate h
  revert hzero
  decide

/-- The command is one that a shell may be given. -/
theorem contains_setTimeCommand (setTime : StructTime) :
    (setTimeCommand setTime).contains 0 = false := by
  rw [← Bool.not_eq_true, List.contains_iff_mem]
  simp only [setTimeCommand, List.mem_append, nul_not_mem_zeroPadded, false_or]
  decide

/-- The seconds of a tone have four bytes. -/
theorem taiSecs_range (hunpack : unpack toneFormat payload = .ok (.int taiSecs :: values)) :
    0 ≤ taiSecs ∧ taiSecs < 2 ^ 32 := by
  unfold unpack at hunpack
  split at hunpack
  · have hvalues :
        unpackFrom false 0 (.I :: toneFormat.codes.tail) payload = .int taiSecs :: values :=
      Except.ok.inj hunpack
    rw [unpackFrom_cons (by decide)] at hvalues
    obtain rfl := Value.int.inj (List.cons.inj hvalues).1
    have hlt : leNat (ordered false ((payload.drop (gap false 0 .I)).take 4)) < 256 ^ 4 :=
      leNat_take_lt 4 _
    exact ⟨Int.natCast_nonneg _, by exact_mod_cast hlt⟩
  · cases hunpack

/-- A time at tone sets the clock. -/
theorem clock_tone (hdecode : RxCommandPacket.decode t.raw = .ok (apidTimeAtTone, s, ms, payload))
    (hunpack : unpack toneFormat payload = .ok (.int taiSecs :: values))
    (hmaxint : 37 ≤ t.env.maxint) (htai : taiSecs - 37 ≤ t.env.maxint)
    (hflag : 0 < w.timeSetEnable) :
    ∃ command, SetsClock command (taiSecs - 37) ∧
      (turn dwnlinkMode w t).executed = w.executed ++ [command] := by
  obtain ⟨hpos, hlt⟩ := taiSecs_range hunpack
  have hyear : 0 ≤ (dateOf (taiSecs - 37)).tmYear ∧ (dateOf (taiSecs - 37)).tmYear < 10 ^ 4 :=
    tmYear_dateOf (by omega) (by omega)
  refine ⟨setTimeCommand (dateOf (taiSecs - 37)),
    ⟨_, valid_dateOf _, hyear, rfl, timegm_dateOf _⟩, ?_⟩
  apply wp_turn (P := fun w' => w'.executed = _)
  rw [body_tone hdecode]
  have hgmtime : gmtime t.env.maxint (taiSecs - 37) = .ok (dateOf (taiSecs - 37)) :=
    if_pos ⟨by omega, htai⟩
  have hnul : ¬ (setTimeCommand (dateOf (taiSecs - 37))).contains 0 = true := by
    rw [contains_setTimeCommand]
    exact Bool.false_ne_true
  unfold timeAtTone system
  rw [wp_bind, wp_get, if_pos hflag, hunpack, wp_bind, wp_raise_ok]
  dsimp only
  rw [hgmtime, wp_bind, wp_raise_ok, if_neg hnul, wp_bind, wp_modify, wp_modify]

/-- **What a time at tone does behind a run**: when it is the first one since an `ENABLE_TIME`, and
there was no exception since, it sets the clock to its second; otherwise it does nothing. -/
theorem clock_at_tone (hstart : w.timeSetEnable = 0)
    (hturns : ∀ t ∈ turns, ¬ t.HasId cmdPlDwnlinkMode)
    (hdecode : RxCommandPacket.decode t.raw = .ok (apidTimeAtTone, s, ms, payload))
    (hunpack : unpack toneFormat payload = .ok (.int taiSecs :: values))
    (hmaxint : 37 ≤ t.env.maxint) (htai : taiSecs - 37 ≤ t.env.maxint) :
    (Armed dwnlinkMode turns w → ∃ command, SetsClock command (taiSecs - 37) ∧
      (serve dwnlinkMode (turns ++ [t]) w).executed =
        (serve dwnlinkMode turns w).executed ++ [command]) ∧
    (¬ Armed dwnlinkMode turns w →
      serve dwnlinkMode (turns ++ [t]) w = serve dwnlinkMode turns w) := by
  have hiff : 0 < (serve dwnlinkMode turns w).timeSetEnable ↔ Armed dwnlinkMode turns w :=
    (flag_serve hstart hturns).2
  rw [serve_concat, ← hiff]
  refine ⟨clock_tone hdecode hunpack hmaxint htai, fun hflag => ?_⟩
  unfold turn
  rw [body_tone hdecode]
  unfold timeAtTone
  rw [bind_get, if_neg hflag]
  rfl

/-- A time at tone, of a second in 2021. -/
def tonePayload : Bytes := [0x60, 0, 0, 0] ++ List.replicate 82 0

def tonePacket : Bytes := RxCommandPacket.header apidTimeAtTone 86 0 0 ++ tonePayload

/-- `CMD_PL_ENABLE_TIME`. -/
def enableTimePacket : Bytes := RxCommandPacket.header cmdPlEnableTime 0 0 0

theorem decode_tonePacket :
    RxCommandPacket.decode tonePacket = .ok (apidTimeAtTone, 0, 0, tonePayload) :=
  RxCommandPacket.decode_encode (by decide) (by decide) (by decide) (by decide)
    (RxCommandPacket.encode_eq (by decide) (by decide) (by decide) (by decide))

theorem decode_enableTimePacket :
    RxCommandPacket.decode enableTimePacket = .ok (cmdPlEnableTime, 0, 0, []) :=
  RxCommandPacket.decode_encode (by decide) (by decide) (by decide) (by decide) (by
    rw [RxCommandPacket.encode_eq (by decide) (by decide) (by decide) (by decide)]
    exact congrArg Except.ok (List.append_nil _))

def enableTurn : Turn := ⟨quietEnv, 0, enableTimePacket⟩

def toneTurn : Turn := ⟨quietEnv, 0, tonePacket⟩

/-- The time is enabled, and set. -/
theorem clock_at_tone_enabled : ∃ command, SetsClock command (0x60000000 - 37) ∧
    (serve (fun _ => pure ()) [enableTurn, toneTurn] {}).executed =
      (serve (fun _ => pure ()) [enableTurn] {}).executed ++ [command] := by
  have henable : enableTurn.HasId cmdPlEnableTime := ⟨0, 0, [], decode_enableTimePacket⟩
  have hunpack : unpack toneFormat tonePayload =
      .ok (.int 0x60000000 :: List.replicate 12 (.int 0)) := by
    rw [unpack_of_length rfl]
    rfl
  have hturns : ∀ t ∈ [enableTurn], ¬ t.HasId cmdPlDwnlinkMode := by
    rw [List.forall_mem_singleton]
    intro hdwnlink
    exact absurd (henable.inj hdwnlink) (by decide)
  have harmed : Armed (fun _ => pure ()) ([] ++ [enableTurn]) {} := armed_concat.mpr (.inl henable)
  exact (clock_at_tone (t := toneTurn) rfl hturns decode_tonePacket hunpack (by decide)
    (by decide)).1 harmed

end ClickA.Commands
