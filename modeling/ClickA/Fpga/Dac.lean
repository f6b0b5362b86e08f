import ClickA.Fpga.Bus

/-!
# The DACs

Commands of 24 bits to the two DACs, the one on the photodiode board and the one of the fast
steering mirror. They are sent through three registers of the FPGA each.

## Main definitions

* `writeCommand`: a command to a DAC
* `reset`, `setReference`, `setOutputMode`, `writeAndUpdate`, `init`: the commands

## Main results

* `runs_writeCommand` and the others: a command does not raise, nor send anything to a client
-/

namespace ClickA.Fpga.Dac

open Python Options

def dacPower : ℕ := 0b100 <<< 19
def dacResetCommand : ℕ := 0b101 <<< 19
def dacRef : ℕ := 0b111 <<< 19
def dacWriteUpdateOne : ℕ := 0b011 <<< 19

variable (env : Env)

/-- The registers of a DAC. -/
def dacAddr (targetDac : ℕ) : Option (List ℕ) :=
  if targetDac = 1 then some [thrA, thrB, thrC]
  else if targetDac = 2 then some [fsmA, fsmB, fsmC]
  else none

/-- `write_command`: nothing is written to a DAC that does not exist. -/
def writeCommand (targetDac command : ℕ) : Server Unit :=
  match dacAddr targetDac with
  | some addr => do
    let data : List ℤ := [((command &&& 0x3F0000) >>> 16 : ℕ), ((command &&& 0x00FF00) >>> 8 : ℕ),
      (command &&& 0x0000FF : ℕ)]
    let _ ← transfer env addr [1, 1, 1] (data.map .int)
  | none => return ()

/-- `reset`. -/
def reset (targetDac isPor : ℕ) : Server Unit :=
  if isPor ≠ 0 then writeCommand env targetDac (dacResetCommand ||| 1)
  else writeCommand env targetDac (dacResetCommand ||| 0)

/-- `set_reference`. -/
def setReference (targetDac refEnabled : ℕ) : Server Unit :=
  if refEnabled ≠ 0 then writeCommand env targetDac (dacRef ||| 1)
  else writeCommand env targetDac (dacRef ||| 0)

/-- `set_output_mode`. -/
def setOutputMode (mask : ℕ) : Server Unit := do
  let mode := (mask &&& 0x300) >>> 4
  if mask &&& 0x00FF ≠ 0 then
    let maskLow := mask &&& 0x00FF
    writeCommand env 1 (dacPower ||| mode ||| maskLow)
  if mask &&& 0xFF00 ≠ 0 then
    let maskHigh := (mask &&& 0xFF00) >>> 8
    writeCommand env 2 (dacPower ||| mode ||| maskHigh)

/-- `init`. -/
def init (targetDac : ℕ) : Server Unit := do
  reset env targetDac 1
  setReference env targetDac 1
  setOutputMode env 0

/-- `write_and_update`. -/
def writeAndUpdate (targetChan value : ℕ) : Server Unit := do
  if checkAsserts then lift (assertThat (targetChan < 8))
  let targetDac := if targetChan < 4 then 1 else 2
  let addr := (targetChan % 4 &&& 0b11) <<< 16
  writeCommand env targetDac (dacWriteUpdateOne ||| addr ||| value)

/-! ## Commands run -/

theorem runs_writeCommand (targetDac command : ℕ) :
    Runs Quiet (writeCommand env targetDac command) := by
  have hthree (addr : ℕ) (ns : List ℤ) (hlen : ns.length = 3) :
      Runs Quiet (do let _ ← transfer env (List.range' addr 3) [1, 1, 1] (ns.map .int)) := by
    refine runs_bind ?_ fun _ => runs_pure _
    have htransfer := runs_transfer env 1 addr ns
    rw [hlen] at htransfer
    exact htransfer
  unfold writeCommand
  cases haddr : dacAddr targetDac with
  | none => exact runs_pure _
  | some addr =>
    unfold dacAddr at haddr
    split_ifs at haddr
    · obtain rfl := Option.some.inj haddr
      exact hthree thrA _ rfl
    · obtain rfl := Option.some.inj haddr
      exact hthree fsmA _ rfl

theorem runs_reset (targetDac isPor : ℕ) : Runs Quiet (reset env targetDac isPor) :=
  runs_ite (runs_writeCommand env _ _) (runs_writeCommand env _ _)

theorem runs_setReference (targetDac refEnabled : ℕ) :
    Runs Quiet (setReference env targetDac refEnabled) :=
  runs_ite (runs_writeCommand env _ _) (runs_writeCommand env _ _)

theorem runs_setOutputMode (mask : ℕ) : Runs Quiet (setOutputMode env mask) := by
  unfold setOutputMode
  dsimp only
  have hhigh : Runs Quiet (if mask &&& 0xFF00 ≠ 0 then
      writeCommand env 2 (dacPower ||| (mask &&& 0x300) >>> 4 ||| (mask &&& 0xFF00) >>> 8)
      else pure PUnit.unit) := runs_ite (runs_writeCommand env _ _) (runs_pure _)
  split
  · exact runs_bind (runs_writeCommand env _ _) fun _ => hhigh
  · exact hhigh

theorem runs_init (targetDac : ℕ) : Runs Quiet (init env targetDac) :=
  runs_bind (runs_reset env _ _) fun _ =>
    runs_bind (runs_setReference env _ _) fun _ => runs_setOutputMode env 0

theorem runs_writeAndUpdate {targetChan : ℕ} (h : targetChan < 8) (value : ℕ) :
    Runs Quiet (writeAndUpdate env targetChan value) := by
  unfold writeAndUpdate checkAsserts assertThat
  rw [if_pos rfl, if_pos h]
  exact runs_bind (runs_pure ()) fun _ => runs_writeCommand env _ _

end ClickA.Fpga.Dac
