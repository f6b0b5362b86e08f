import ClickA.Python.Struct
import ClickA.Options

/-!
# The FPGA memory map

The registers of `fpga_map.py`: those below 128 are registers of the FPGA itself, and those above
are virtual ones, in blocks.

## Main definitions

* `RegisterType`, `registerType`: `REGISTER_TYPE`
* `decodeTemperature`, `decodeCurrent`: what the server makes of the bytes of a sensor

## Main results

* `calcsize_of_format`: every register has four bytes
* `registerType_raw`, `registerType_current`, `registerType_dac`: the types of the blocks
* `registerType_ne_str`: the only strings are those of the EDFA
-/

namespace ClickA.Fpga

open Python Options

/-! ## Registers of the FPGA -/

def ctl : ℕ := 0

/-- The set point of the laser's temperature. -/
def ltsA : ℕ := 1
def ltsB : ℕ := 2

def thrA : ℕ := 5
def thrB : ℕ := 6
def thrC : ℕ := 7
def fsmA : ℕ := 8
def fsmB : ℕ := 9
def fsmC : ℕ := 10

def data : ℕ := 13

/-- The power of the calibration laser, the laser diode, the amplifier, the heaters and the
temperature controller, and the two heaters. -/
def cal : ℕ := 32
def po1 : ℕ := 33
def po2 : ℕ := 34
def po3 : ℕ := 35
def po4 : ℕ := 36
def he1 : ℕ := 37
def he2 : ℕ := 38

def flg : ℕ := 63
def flgTxReady : ℕ := 0b01000000

def etx : ℕ := 11
def erf : ℕ := 66
def efl : ℕ := 67
def eflEmpty : ℕ := 0b00000010

/-! ## Blocks of virtual registers -/

def temperatureBlock : List ℕ := List.range' 200 6
def currentBlock : List ℕ := List.range' 300 4
def dacSetup : ℕ := 499
def dacEnable : ℕ := 500
def dacReset : ℕ := 501
/-- `DAC_BLOCK[0]`. -/
def dac1A : ℕ := 502
def dacBlock : List ℕ := List.range' dac1A 8
/-- `DAC_BLOCK[3]`. -/
def dac1D : ℕ := 505
def edfaInStr : ℕ := 600
def edfaOutStr : ℕ := 601
def edfaParsedBlock : List ℕ := List.range' 602 10
def edfaEnPin : ℕ := 602
def edfaMode : ℕ := 603
def edfaModeAcc : ℕ := 1
def edfaModeAopc : ℕ := 2
def edfaModeApc : ℕ := 3
def edfaDiodeOn : ℕ := 604
def edfaMysteryTemp : ℕ := 605
def edfaPowerIn : ℕ := 606
def edfaPowerOut : ℕ := 607
def edfaPreCurrent : ℕ := 608
def edfaPrePower : ℕ := 609
def edfaPumpCurrent : ℕ := 610
def edfaCaseTemp : ℕ := 611
def fpgaTelem : ℕ := 800

/-! ## Types -/

/-- A type of `REGISTER_TYPE`: a format of four bytes, or the mark of a string. -/
inductive RegisterType
  | codes (cs : List Code)
  | str
deriving DecidableEq, Repr

/-- The types without those of the telemetry packet. The default is `xxxx`. -/
def baseType (reg : ℕ) : RegisterType :=
  if reg < 128 then .codes [.x, .x, .x, .B]
  else if reg ∈ temperatureBlock then .codes [.f]
  else if reg ∈ currentBlock then .codes [.f]
  else if reg = 400 ∨ reg = 401 then .codes [.I]
  else if reg = dacSetup then .codes [.I]
  else if reg = dacEnable then .codes [.x, .x, .H]
  else if reg = dacReset then .codes [.x, .x, .x, .B]
  else if reg ∈ dacBlock then .codes [.x, .x, .H]
  else if reg = edfaInStr ∨ reg = edfaOutStr then .str
  else if reg = edfaEnPin ∨ reg = edfaMode ∨ reg = edfaDiodeOn then .codes [.x, .x, .x, .B]
  else if reg = edfaMysteryTemp ∨ reg = edfaPowerIn ∨ reg = edfaPowerOut then .codes [.f]
  else if reg = edfaPreCurrent ∨ reg = edfaPrePower ∨ reg = edfaPumpCurrent then .codes [.I]
  else if reg = edfaCaseTemp then .codes [.f]
  else .codes [.x, .x, .x, .x]

/-- `REGISTER_TYPE`: from `FPGA_TELEM` on, the types of the telemetry registers. -/
def registerType (reg : ℕ) : RegisterType :=
  if reg < fpgaTelem then baseType reg
  else match fpgaTelemRegs[reg - fpgaTelem]? with
    | some telem => baseType telem
    | none => baseType reg

/-- The format string of a type. `str` is none. -/
def RegisterType.format : RegisterType → Except Exn Format
  | .codes cs => .ok (native cs)
  | .str => .error .structError

/-! ## Sensors -/

/-- `BYTE_1`, the high byte of a temperature. -/
def byte1 (reg : ℕ) : ℕ := 2 * reg - 302
/-- `BYTE_2`, the low byte of a temperature. -/
def byte2 (reg : ℕ) : ℕ := 2 * reg - 301
/-- `BYTE_3`, the high byte of a current. -/
def byte3 (reg : ℕ) : ℕ := 2 * reg - 488
/-- `BYTE_4`, the low byte of a current. -/
def byte4 (reg : ℕ) : ℕ := 2 * reg - 487

/-- `math.sqrt`: a negative number is outside its domain. -/
def sqrt (x : Float) : Except Exn Float := if x < 0 then .error .valueError else .ok x.sqrt

/-- `decode_temperature`. -/
def decodeTemperature (msb lsb : ℕ) : Except Exn Float := do
  let val := msb * 256 + lsb
  let rrtd := -4.22806 * Float.ofNat (10 ^ 4) / (Float.ofNat val - 22978.6)
  let a := 3.81e-3
  let root ← sqrt (1.451e-5 + 2.408e-6 * (1.92 - rrtd))
  return (-a + root) / -1.2e-6

/-- `decode_current`. -/
def decodeCurrent (msb lsb : ℕ) : Float :=
  let val := msb * 256 + lsb
  let vadc := Float.ofNat val * 8.05e-4
  vadc / 1.01

/-! ## The types of the blocks -/

section Types

variable {reg : ℕ}

/-- The formats of the registers. -/
def formats : List (List Code) :=
  [[.x, .x, .x, .B], [.x, .x, .H], [.I], [.f], [.x, .x, .x, .x]]

/-- A type is that of a string, or one of the formats. -/
def RegisterType.Known (t : RegisterType) : Prop := t = .str ∨ ∃ cs ∈ formats, t = .codes cs

theorem known_baseType (reg : ℕ) : (baseType reg).Known := by
  have hite {p : Prop} [Decidable p] {t t' : RegisterType} (ht : t.Known) (ht' : t'.Known) :
      (if p then t else t').Known := by
    split
    · exact ht
    · exact ht'
  have hcodes {cs : List Code} (hcs : cs ∈ formats) : (RegisterType.codes cs).Known :=
    .inr ⟨cs, hcs, rfl⟩
  unfold baseType
  repeat' apply hite
  all_goals first | exact .inl rfl | exact hcodes (by decide)

theorem known_registerType (reg : ℕ) : (registerType reg).Known := by
  unfold registerType
  split
  · exact known_baseType reg
  · split
    · exact known_baseType _
    · exact known_baseType reg

/-- Every register has four bytes. -/
theorem calcsize_of_format {fmt : Format} (h : (registerType reg).format = .ok fmt) :
    calcsize fmt = 4 := by
  rcases known_registerType reg with hstr | ⟨cs, hcs, hcodes⟩
  · rw [hstr] at h
    exact absurd h (by simp [RegisterType.format])
  · rw [hcodes] at h
    obtain rfl := Except.ok.inj h
    have hsize : ∀ cs ∈ formats, calcsize (native cs) = 4 := by decide
    exact hsize cs hcs

theorem registerType_of_lt (h : reg < fpgaTelem) : registerType reg = baseType reg := if_pos h

theorem registerType_raw (h : reg < 128) : registerType reg = .codes [.x, .x, .x, .B] := by
  rw [registerType_of_lt (by unfold fpgaTelem; omega), baseType, if_pos h]

theorem registerType_current : ∀ reg ∈ currentBlock, registerType reg = .codes [.f] := by decide

theorem registerType_dac : ∀ reg ∈ dacBlock, registerType reg = .codes [.x, .x, .H] := by decide

/-- Only the two strings of the EDFA are strings. -/
theorem registerType_ne_str (hin : reg ≠ edfaInStr) (hout : reg ≠ edfaOutStr) :
    registerType reg ≠ .str := by
  have hbase (reg : ℕ) (hnot : ¬ (reg = edfaInStr ∨ reg = edfaOutStr)) : baseType reg ≠ .str := by
    have hite {p : Prop} [Decidable p] {t t' : RegisterType} (ht : t ≠ .str) (ht' : t' ≠ .str) :
        (if p then t else t') ≠ .str := by
      split
      · exact ht
      · exact ht'
    unfold baseType
    rw [if_neg hnot]
    repeat' apply hite
    all_goals exact RegisterType.noConfusion
  have htelem : ∀ telem ∈ fpgaTelemRegs, ¬ (telem = edfaInStr ∨ telem = edfaOutStr) := by decide
  unfold registerType
  split
  · exact hbase reg (not_or.mpr ⟨hin, hout⟩)
  · split
    · next telem h => exact hbase telem (htelem telem (List.mem_of_getElem? h))
    · exact hbase reg (not_or.mpr ⟨hin, hout⟩)

end Types

end ClickA.Fpga
