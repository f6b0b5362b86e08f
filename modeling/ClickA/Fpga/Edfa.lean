import ClickA.Fpga.Bus
import ClickA.Python.Text
import Mathlib.Logic.Function.Basic

/-!
# The EDFA

The optical amplifier is behind a UART of the FPGA. `edfa.py` writes commands to it, reads its
replies, and parses the line of its state into the virtual registers 602 to 611.

## Main definitions

* `readString`, `writeString`: strings over the UART
* `fline`, `parse`: the state of the amplifier

## Main results

* `runs_readString`, `runs_writeString`, `runs_fline`: these end normally, whatever the FPGA returns
* `ensures_readString`: the length of a string
-/

namespace ClickA.Fpga

open Python

namespace Edfa

section Uart

variable (env : Env)

/-- The loop of `read_string`, with what is left of `read_max`. -/
def readLoop : ℕ → ℕ → ℕ → Bytes → Server (ℕ × Bytes)
  | 0, _, error, chars => return (error, chars)
  | readMax + 1, empty, error, chars =>
    if empty ≠ 0 then return (error, chars)
    else do
      let (errors, values) ← transfer env [erf, efl] [0, 0] [.int 0, .int 0]
      let char ← lift (index values 0)
      let flags ← lift (index values 1)
      readLoop readMax (flags.toNat &&& eflEmpty) (error + errors.count true) (chars ++ [char])

/-- `read_string`: the number of errors, and the characters. -/
def readString : Server (ℕ × Bytes) := do
  let readMax := 1200
  let flags ← readReg env efl
  readLoop env readMax (flags &&& eflEmpty) 0 []

/-- `reset_fifo`. -/
def resetFifo : Server Unit := do
  let _ ← readString env

/-- The wait for the transmitter: the polls that are left, or `none` after the timeout. -/
def awaitTxReady : ℕ → Server (Option ℕ)
  | 0 => do
    let flags ← readReg env flg
    if flags &&& flgTxReady ≠ 0 then return some 0 else return none
  | patience + 1 => do
    let flags ← readReg env flg
    if flags &&& flgTxReady ≠ 0 then return some (patience + 1) else awaitTxReady patience

/-- The characters of `write_string`. -/
def writeChars : Bytes → ℕ → Server Bool
  | [], _ => return false
  | char :: txStr, patience => do
    match ← awaitTxReady env patience with
    | none => return true
    | some patience =>
      let _ ← writeReg env etx char.toNat
      writeChars txStr patience

/-- `write_string`: whether it timed out. -/
def writeString (txStr : Bytes) : Server Bool := do
  let world ← get
  writeChars env txStr (env.patience world.xfers.length)

/-- `fline`. -/
def fline : Server Bytes := do
  let txStr := ascii "fline\r"
  resetFifo env
  let _ ← writeString env txStr
  let (_, reply) ← readString env
  match splitAt 10 reply with
  | _ :: line :: _ => return line
  | _ => return (List.replicate edfaParsedBlock.length (ascii "0 ")).flatten

end Uart

/-- `reg_buffer`. -/
abbrev Regs := ℕ → Option Value

/-- `regs[reg] = value`. -/
def set (regs : Regs) (reg : ℕ) (value : Value) : Regs := Function.update regs reg (some value)

/-- The value of a word, by a table with a default. -/
def lookup (table : List (Bytes × ℤ)) (default : ℤ) (word : Bytes) : Value :=
  .int ((table.lookup word).getD default)

/-- `parse`. -/
def parse (regs : Regs) (flist : List Bytes) : Except Exn Regs := do
  let regs := set regs edfaEnPin
    (lookup [(ascii "EL", 0), (ascii "HL", 1)] 2 (← index flist 0))
  let regs := set regs edfaMode
    (lookup [(ascii "ACC", edfaModeAcc), (ascii "AOPC", edfaModeAopc), (ascii "APC", edfaModeApc)] 0
      (← index flist 1))
  let regs := set regs edfaDiodeOn
    (lookup [(ascii "LDOFF", 0), (ascii "LDON", 1)] 2 (← index flist 2))
  let regs := set regs edfaMysteryTemp (.float (tryElse (index flist 3 >>= floatOf) (-1000.0)))
  let powerIn ← index flist 4
  let regs := set regs edfaPowerIn
    (.float (if powerIn = ascii "IPA" then -100.0 else tryElse (floatOf powerIn) (-1000.0)))
  let powerOut ← index flist 5
  let regs := set regs edfaPowerOut
    (.float (if powerOut = ascii "OPA" then -100.0 else tryElse (floatOf powerOut) (-1000.0)))
  let regs := set regs edfaPreCurrent (.int (tryElse (index flist 6 >>= intOf) 0xFFFFFFFF))
  let regs := set regs edfaPrePower (.int (tryElse (index flist 7 >>= intOf) 0xFFFFFFFF))
  let pumpCurrent ← index flist 8
  let regs := set regs edfaPumpCurrent
    (.int (if pumpCurrent = ascii "LOW" then 0 else tryElse (intOf pumpCurrent) 0xFFFFFFFF))
  let caseTemp ← index flist 9
  let regs := set regs edfaCaseTemp
    (.float (if caseTemp = ascii "CTA" then 60.0 else tryElse (floatOf caseTemp) (-1000.0)))
  return regs

/-! ## Strings run -/

section Runs

variable (env : Env)

/-- A string that is read has at most `read_max` characters. -/
theorem ensures_readLoop (readMax empty error : ℕ) (chars : Bytes) (w : World) :
    Ensures (readLoop env readMax empty error chars)
      (fun result w' => Quiet w w' ∧ result.2.length ≤ chars.length + readMax) w := by
  induction readMax generalizing empty error chars w with
  | zero => exact ⟨rfl, Nat.le_refl _⟩
  | succ readMax ih =>
    rw [readLoop]
    split
    · exact ⟨rfl, Nat.le_add_right _ _⟩
    · have htransfer : transfer env [erf, efl] [0, 0] [.int 0, .int 0] w = _ :=
        transfer_eq 0 erf [0, 0]
      have hlen : (results (words 0 erf [0, 0])
          (env.replyTo w (words 0 erf [0, 0]))).2.length = 2 := length_results_snd 0 erf [0, 0]
      rw [Ensures, wp_bind, wp_of_ok htransfer]
      dsimp only
      rw [index_of_lt (by omega), index_of_lt (by omega)]
      refine (ih _ _ _ (w.sent _)).imp ?_
      rintro ⟨errors, read⟩ w' ⟨hquiet, hle⟩
      rw [List.length_append, List.length_singleton] at hle
      dsimp only at hle ⊢
      exact ⟨hquiet, by omega⟩

theorem ensures_readString (w : World) : Ensures (readString env)
    (fun result w' => Quiet w w' ∧ result.2.length ≤ 1200) w := by
  unfold readString
  rw [Ensures, wp_bind, wp_of_ok (readReg_eq efl)]
  refine (ensures_readLoop env _ _ _ _ (w.sent _)).imp ?_
  rintro result w' ⟨hquiet, hle⟩
  exact ⟨hquiet, by simpa using hle⟩

theorem runs_readString : Runs Quiet (readString env) := fun w =>
  (ensures_readString env w).imp fun _ _ h => h.1

theorem runs_resetFifo : Runs Quiet (resetFifo env) :=
  runs_bind (runs_readString env) fun _ => runs_pure _

theorem runs_awaitTxReady (patience : ℕ) : Runs Quiet (awaitTxReady env patience) := by
  induction patience with
  | zero => exact runs_bind (runs_readReg env flg) fun _ => runs_ite (runs_pure _) (runs_pure _)
  | succ patience ih => exact runs_bind (runs_readReg env flg) fun _ => runs_ite (runs_pure _) ih

theorem runs_writeChars (txStr : Bytes) (patience : ℕ) :
    Runs Quiet (writeChars env txStr patience) := by
  induction txStr generalizing patience with
  | nil => exact runs_pure _
  | cons char txStr ih =>
    refine runs_bind (runs_awaitTxReady env patience) fun ready => ?_
    cases ready with
    | none => exact runs_pure _
    | some patience => exact runs_bind (runs_writeReg env _ _) fun _ => ih patience

theorem runs_writeString (txStr : Bytes) : Runs Quiet (writeString env txStr) := fun w =>
  runs_writeChars env txStr _ w

theorem runs_fline : Runs Quiet (fline env) := by
  refine runs_bind (runs_resetFifo env) fun _ => runs_bind (runs_writeString env _) fun _ =>
    runs_bind (runs_readString env) fun reply => ?_
  obtain ⟨error, reply⟩ := reply
  dsimp only
  split
  · exact runs_pure _
  · exact runs_pure _

end Runs

end Edfa

end ClickA.Fpga
