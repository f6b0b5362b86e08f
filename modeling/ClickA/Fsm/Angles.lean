import ClickA.Cpp.Convert
import ClickA.Machine.Run
import ClickA.Pat.Lasers
import Mathlib.Data.Rat.Floor

/-!
# The angles of the mirror

`FSM::setNormalizedAngles` of `fsm.cpp`: a command to the mirror is written to the four channels of
a DAC, each with three registers of the FPGA, and a command that equals the last one is skipped. A
write may fail, and the code goes on.

## Main definitions

* `Hardware`: the registers of the FPGA and the DAC behind them
* `Outcome`: how a write ends
* `setNormalizedAngles`: the function
* `Delivered`: what a call leaves in the DAC when nothing fails
* `Unspoiled`: a skipped call comes behind an update without a failure

## Main results

* `delivered_of_unspoiled`: in a run of unspoiled calls, each call is delivered
-/

namespace ClickA.Fsm

open Cpp (trunc)
open Machine
open Pat (fsmACh fsmBCh fsmCCh)

/-! ## The hardware -/

/-- `DAC_ADDR_XP`. -/
def dacAddrXp : ℕ := 0x00

/-- `DAC_ADDR_XM`. -/
def dacAddrXm : ℕ := 0x01

/-- `DAC_ADDR_YM`. -/
def dacAddrYm : ℕ := 0x02

/-- `DAC_ADDR_YP`. -/
def dacAddrYp : ℕ := 0x03

/-- `DAC_CMD_WRITE_INPUT_REG`. -/
def dacCmdWriteInputReg : ℕ := 0x00

/-- `DAC_CMD_WRITE_INPUT_UPDATE_ALL`. -/
def dacCmdWriteInputUpdateAll : ℕ := 0x02 <<< 3

/-- `spiBuffer[1]`. -/
def highByte (value : ℕ) : ℕ := (value &&& 0xFF00) >>> 8

/-- `spiBuffer[2]`. -/
def lowByte (value : ℕ) : ℕ := value &&& 0xFF

/-- The three registers of a command, one behind the other. -/
def threeWrites {σ : Type} (write : UInt16 → ℕ → σ → σ) (cmd addr value : ℕ) (s : σ) : σ :=
  write fsmCCh (lowByte value) (write fsmBCh (highByte value) (write fsmACh (cmd ||| addr) s))

/-- The registers of the FPGA with the DAC behind them, with the input registers and the channels of
the DAC. From any state, the three registers of a command make the DAC execute it: one command
stores a value in an input register and leaves the others; the other command updates all channels
from the input registers, too. -/
structure Hardware (σ : Type) where
  write : UInt16 → ℕ → σ → σ
  input : σ → ℕ → ℕ
  channel : σ → ℕ → ℕ
  input_writeInputReg : ∀ s, ∀ addr < 4, ∀ value < 2 ^ 16,
    input (threeWrites write dacCmdWriteInputReg addr value s) =
      Function.update (input s) addr value
  input_writeInputUpdateAll : ∀ s, ∀ addr < 4, ∀ value < 2 ^ 16,
    input (threeWrites write dacCmdWriteInputUpdateAll addr value s) =
      Function.update (input s) addr value
  channel_writeInputUpdateAll : ∀ s, ∀ addr < 4, ∀ value < 2 ^ 16,
    channel (threeWrites write dacCmdWriteInputUpdateAll addr value s)
      = input (threeWrites write dacCmdWriteInputUpdateAll addr value s)

/-- How a write ends: what the check of the LD bias says, and whether the write of the LD bias and
the write of the register succeed. A write of the register that fails leaves any state. -/
structure Outcome (σ : Type) where
  checked : Bool
  biased : Bool
  written : Bool
  after : σ

/-! ## The code -/

/-- `FSM_VBIAS_DAC`. -/
def fsmVbiasDac : ℤ := 22000

/-- `FSM_VMAX_DAC`. -/
def fsmVmaxDac : ℤ := 12000

/-- `oldX` and `oldY`, and the hardware. -/
structure Mirror (σ : Type) where
  oldX : ℤ
  oldY : ℤ
  hardware : σ

section Code

variable {σ K : Type} [Field K] [LinearOrder K] [FloorRing K] (hw : Hardware σ)

/-- `fsmWrite`. -/
def fsmWrite (channel : UInt16) (data : ℕ) (o : Outcome σ) (s : σ) : σ :=
  if o.checked then
    if o.written then hw.write channel data s else o.after
  else if o.biased then
    if o.written then hw.write channel data s else o.after
  else s

/-- `sendCommand`, with the outcomes of its writes. -/
def sendCommand (cmd addr value : ℕ) (o : ℕ → Outcome σ) (s : σ) : σ :=
  fsmWrite hw fsmCCh (lowByte value) (o 2)
    (fsmWrite hw fsmBCh (highByte value) (o 1) (fsmWrite hw fsmACh (cmd ||| addr) (o 0) s))

/-- A call of `setNormalizedAngles`, with the outcomes of its twelve writes. -/
structure Call (σ K : Type) where
  x : K
  y : K
  outcomes : ℕ → Outcome σ

/-- `newX` or `newY`: a clamped angle, as an `int16_t`. -/
def command (a : K) : ℤ := Int.bmod (trunc (fsmVmaxDac * max (-1) (min a 1))) (2 ^ 16)

/-- A value of the DAC, as a `uint16_t`. -/
def dacValue (value : ℤ) : ℕ := (value % 2 ^ 16).toNat

/-- `setNormalizedAngles`. -/
def setNormalizedAngles (s : Mirror σ) (c : Call σ K) : Mirror σ :=
  let newX := command c.x
  let newY := command c.y
  if newX ≠ s.oldX ∨ newY ≠ s.oldY then
    let o (k : ℕ) : ℕ → Outcome σ := fun i => c.outcomes (3 * k + i)
    let h := sendCommand hw dacCmdWriteInputReg dacAddrXp (dacValue (fsmVbiasDac + newX))
      (o 0) s.hardware
    let h := sendCommand hw dacCmdWriteInputReg dacAddrXm (dacValue (fsmVbiasDac - newX)) (o 1) h
    let h := sendCommand hw dacCmdWriteInputReg dacAddrYp (dacValue (fsmVbiasDac + newY)) (o 2) h
    let h := sendCommand hw dacCmdWriteInputUpdateAll dacAddrYm (dacValue (fsmVbiasDac - newY))
      (o 3) h
    { oldX := newX, oldY := newY, hardware := h }
  else s

/-! ## Calls -/

/-- The four channels hold the values of two commands. -/
structure Holds (s : σ) (x y : ℤ) : Prop where
  xp : hw.channel s dacAddrXp = dacValue (fsmVbiasDac + x)
  xm : hw.channel s dacAddrXm = dacValue (fsmVbiasDac - x)
  yp : hw.channel s dacAddrYp = dacValue (fsmVbiasDac + y)
  ym : hw.channel s dacAddrYm = dacValue (fsmVbiasDac - y)

/-- A register is written in the end. -/
def Outcome.Succeeds (o : Outcome σ) : Prop := (o.checked ∨ o.biased) ∧ o.written

/-- No write of a call fails. -/
def Call.Succeeds (c : Call σ K) : Prop := ∀ k < 12, (c.outcomes k).Succeeds

/-- A call is skipped. -/
def Skipped (s : Mirror σ) (c : Call σ K) : Prop := command c.x = s.oldX ∧ command c.y = s.oldY

/-- The channels hold the cached command. -/
def Matches (s : Mirror σ) : Prop := Holds hw s.hardware s.oldX s.oldY

/-- Behind a call in which nothing fails, the channels hold its command. -/
def Delivered (s : Mirror σ) (c : Call σ K) : Prop :=
  Skipped s c ∨ c.Succeeds → Holds hw (setNormalizedAngles hw s c).hardware (command c.x)
      (command c.y)

/-- The mirror, and that no write of the last update failed. -/
structure Traced (σ : Type) extends Mirror σ where
  clean : Prop

/-- A call as a step. -/
def step (s : Traced σ) (c : Call σ K) : Option (Traced σ) :=
  some { setNormalizedAngles hw s.toMirror c with
    clean := (Skipped s.toMirror c ∧ s.clean) ∨ (¬ Skipped s.toMirror c ∧ c.Succeeds) }

/-- The mirror before the first call. -/
def start (hardware : σ) : Traced σ := ⟨⟨1, 1, hardware⟩, False⟩

/-- A call that is skipped comes behind an update without a failed write. -/
def Unspoiled (s : Traced σ) (c : Call σ K) : Prop := Skipped s.toMirror c → s.clean

end Code

/-! ## Updates -/

section Updates

variable {σ K : Type} [Field K] [LinearOrder K] [FloorRing K] {hw : Hardware σ} {s : Mirror σ}
  {c : Call σ K}

theorem dacValue_lt (value : ℤ) : dacValue value < 2 ^ 16 := by
  unfold dacValue
  omega

theorem fsmWrite_of_succeeds {o : Outcome σ} (ho : o.Succeeds) (channel : UInt16) (data : ℕ)
    (h : σ) :
    fsmWrite hw channel data o h = hw.write channel data h := by
  obtain ⟨hbias, hwritten⟩ := ho
  unfold fsmWrite
  rw [if_pos hwritten]
  rcases hbias with hchecked | hbiased
  · rw [if_pos hchecked]
  · rw [if_pos hbiased, ite_self]

theorem sendCommand_of_succeeds {o : ℕ → Outcome σ} (ho : ∀ i < 3, (o i).Succeeds)
    (cmd addr value : ℕ)
    (h : σ) : sendCommand hw cmd addr value o h = threeWrites hw.write cmd addr value h := by
  unfold sendCommand threeWrites
  rw [fsmWrite_of_succeeds (ho 0 (by omega)), fsmWrite_of_succeeds (ho 1 (by omega)),
    fsmWrite_of_succeeds (ho 2 (by omega))]

theorem setNormalizedAngles_of_skipped (hskipped : Skipped s c) :
    setNormalizedAngles hw s c = s := by
  obtain ⟨hx, hy⟩ := hskipped
  unfold setNormalizedAngles
  dsimp only
  rw [if_neg]
  rintro (hne | hne)
  · exact hne hx
  · exact hne hy

/-- Behind a call the command is cached. -/
theorem old_setNormalizedAngles (hw : Hardware σ) (s : Mirror σ) (c : Call σ K) :
    (setNormalizedAngles hw s c).oldX = command c.x ∧
      (setNormalizedAngles hw s c).oldY = command c.y := by
  by_cases hskipped : Skipped s c
  · rw [setNormalizedAngles_of_skipped hskipped]
    exact ⟨hskipped.1.symm, hskipped.2.symm⟩
  · have hupdate : command c.x ≠ s.oldX ∨ command c.y ≠ s.oldY := not_and_or.mp hskipped
    unfold setNormalizedAngles
    dsimp only
    rw [if_pos hupdate]
    exact ⟨rfl, rfl⟩

/-- An update without a failed write sets the four channels. -/
theorem holds_of_update (hskipped : ¬ Skipped s c) (hsucceeds : c.Succeeds) :
    Holds hw (setNormalizedAngles hw s c).hardware (command c.x) (command c.y) := by
  have hupdate : command c.x ≠ s.oldX ∨ command c.y ≠ s.oldY := not_and_or.mp hskipped
  have houtcomes (k : ℕ) (hk : k < 4) (i : ℕ) (hi : i < 3) : (c.outcomes (3 * k + i)).Succeeds :=
    hsucceeds _ (by omega)
  unfold setNormalizedAngles
  dsimp only
  rw [if_pos hupdate]
  dsimp only
  rw [sendCommand_of_succeeds (houtcomes 0 (by omega)),
    sendCommand_of_succeeds (houtcomes 1 (by omega)),
    sendCommand_of_succeeds (houtcomes 2 (by omega)),
      sendCommand_of_succeeds (houtcomes 3 (by omega))]
  -- The input registers behind the four commands, which the last one copies to the channels.
  set xp := dacValue (fsmVbiasDac + command c.x)
  set xm := dacValue (fsmVbiasDac - command c.x)
  set yp := dacValue (fsmVbiasDac + command c.y)
  set ym := dacValue (fsmVbiasDac - command c.y)
  have hchannel := hw.channel_writeInputUpdateAll
      (threeWrites hw.write dacCmdWriteInputReg dacAddrYp yp
    (threeWrites hw.write dacCmdWriteInputReg dacAddrXm xm
      (threeWrites hw.write dacCmdWriteInputReg dacAddrXp xp s.hardware)))
    dacAddrYm (by decide) ym (dacValue_lt _)
  rw [hw.input_writeInputUpdateAll _ _ (by decide) _ (dacValue_lt _),
    hw.input_writeInputReg _ _ (by decide) _ (dacValue_lt _),
    hw.input_writeInputReg _ _ (by decide) _ (dacValue_lt _),
    hw.input_writeInputReg _ _ (by decide) _ (dacValue_lt _)] at hchannel
  constructor
  all_goals
    rw [hchannel]
    rfl

/-- A call is delivered if and only if it is not skipped, or the channels hold the cached
command. -/
theorem delivered_call_iff : Delivered hw s c ↔ (Skipped s c → Matches hw s) := by
  constructor
  · intro hdelivered hskipped
    have hholds := hdelivered (Or.inl hskipped)
    rw [setNormalizedAngles_of_skipped hskipped, hskipped.1, hskipped.2] at hholds
    exact hholds
  · intro hmatches hcall
    by_cases hskipped : Skipped s c
    · rw [setNormalizedAngles_of_skipped hskipped, hskipped.1, hskipped.2]
      exact hmatches hskipped
    · exact holds_of_update hskipped (hcall.resolve_left hskipped)

/-- Behind an update without a failed write, and the calls that are skipped then, the cache
matches. -/
def Coherent (hw : Hardware σ) (s : Traced σ) : Prop := s.clean → Matches hw s.toMirror

theorem coherent_step {s s' : Traced σ} (hs : Coherent hw s) (hstep : step hw s c = some s') :
    Coherent hw s' := by
  obtain rfl := Option.some.inj hstep
  rintro (⟨hskipped, hclean⟩ | ⟨hskipped, hsucceeds⟩)
  · show Matches hw (setNormalizedAngles hw s.toMirror c)
    rw [setNormalizedAngles_of_skipped hskipped]
    exact hs hclean
  · show Matches hw (setNormalizedAngles hw s.toMirror c)
    unfold Matches
    obtain ⟨hx, hy⟩ := old_setNormalizedAngles hw s.toMirror c
    rw [hx, hy]
    exact holds_of_update hskipped hsucceeds

end Updates

/-! ## A board -/

/-- Two registers of the FPGA, and the DAC, which the third register starts. -/
structure Board where
  a : ℕ
  b : ℕ
  input : ℕ → ℕ
  channel : ℕ → ℕ

/-- A register is written. -/
def Board.write (register : UInt16) (data : ℕ) (s : Board) : Board :=
  if register = fsmACh then { s with a := data }
  else if register = fsmBCh then { s with b := data }
  else if register = fsmCCh then
    let input := Function.update s.input (s.a % 8) (256 * s.b + data)
    if s.a / 8 = 0 then { s with input }
    else if s.a / 8 = 2 then { s with input, channel := input }
    else s
  else s

/-- The bytes of a value. -/
theorem bytes_eq {value : ℕ} (hvalue : value < 2 ^ 16) :
    256 * highByte value + lowByte value = value := by
  have hhigh : highByte value = value / 256 % 256 := by
    unfold highByte
    rw [Nat.shiftRight_and_distrib, Nat.shiftRight_eq_div_pow]
    exact Nat.and_two_pow_sub_one_eq_mod _ 8
  have hlow : lowByte value = value % 256 := Nat.and_two_pow_sub_one_eq_mod _ 8
  omega

/-- A command of the board. -/
theorem threeWrites_board (s : Board) {cmd addr value : ℕ} (hcmd : (cmd ||| addr) % 8 = addr)
    (hvalue : value < 2 ^ 16) : threeWrites Board.write cmd addr value s =
      let t : Board := { s with a := cmd ||| addr, b := highByte value }
      let input := Function.update s.input addr value
      if (cmd ||| addr) / 8 = 0 then { t with input }
      else if (cmd ||| addr) / 8 = 2 then { t with input, channel := input }
      else t := by
  have hb : fsmBCh ≠ fsmACh := by decide
  have hca : fsmCCh ≠ fsmACh := by decide
  have hcb : fsmCCh ≠ fsmBCh := by decide
  simp only [threeWrites, Board.write, if_true, if_neg hb, if_neg hca, if_neg hcb, bytes_eq hvalue,
    hcmd]

/-- The board is such hardware. -/
def board : Hardware Board where
  write := Board.write
  input := Board.input
  channel := Board.channel
  input_writeInputReg := by
    intro s addr haddr value hvalue
    have hcmd : (dacCmdWriteInputReg ||| addr) % 8 = addr ∧
        (dacCmdWriteInputReg ||| addr) / 8 = 0 := by
      revert addr
      decide
    rw [threeWrites_board s hcmd.1 hvalue]
    dsimp only
    rw [if_pos hcmd.2]
  input_writeInputUpdateAll := by
    intro s addr haddr value hvalue
    have hcmd : (dacCmdWriteInputUpdateAll ||| addr) % 8 = addr ∧
        (dacCmdWriteInputUpdateAll ||| addr) / 8 = 2 := by
      revert addr
      decide
    rw [threeWrites_board s hcmd.1 hvalue]
    dsimp only
    rw [if_neg (by omega), if_pos hcmd.2]
  channel_writeInputUpdateAll := by
    intro s addr haddr value hvalue
    have hcmd : (dacCmdWriteInputUpdateAll ||| addr) % 8 = addr ∧
        (dacCmdWriteInputUpdateAll ||| addr) / 8 = 2 := by
      revert addr
      decide
    rw [threeWrites_board s hcmd.1 hvalue]
    dsimp only
    rw [if_neg (by omega), if_pos hcmd.2]

/-- The board after it was switched on. -/
def reset : Board := ⟨0, 0, fun _ => 0, fun _ => 0⟩

/-- A call in which every write succeeds. -/
def succeeding (x y : ℚ) : Call Board ℚ := ⟨x, y, fun _ => ⟨true, true, true, reset⟩⟩

/-- A call in which every check and every write of the LD bias fails: no register is written. -/
def failing (x y : ℚ) : Call Board ℚ := ⟨x, y, fun _ => ⟨false, false, false, reset⟩⟩

/-- The command of a call that failed is given again. -/
def repeated : List (Call Board ℚ) := [succeeding 0 0, failing (1 / 2) 0, succeeding (1 / 2) 0]

end ClickA.Fsm
