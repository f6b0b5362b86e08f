import ClickA.Cpp.Convert
import ClickA.Cpp.Input
import ClickA.Stream.Written

/-!
# The parameters of the offsets

`getOffsetParams` of `main.cpp` reads `offsetParams.csv`, a name and a number in each line, into an
array of twelve entries. `main` takes the parameters of `calculateTxOffsets` and of `ditherOffsets`
from it when the function returns true. The temporary that a line is read into lives as long as the
function, so a line without a number passes on that of the line before.

## Main definitions

* `getOffsetParams`: what is returned, and the writes to the array
* `txParameters`: the parameters that `main` takes
* `ditherFraction`: the divisions of `ditherOffsets`
* `LoadsSafely`: the writes are in the array, and the divisions defined

## Main results

* `hasRead_foldl`: what the lines read so far have done
* `loadsSafely_iff`: which contents of the file are read safely
-/

namespace ClickA.Pat

open Python (Bytes ascii)
open Cpp Stream

/-- `offsetParamIndex`. -/
inductive OffsetParamIndex
  | periodCalculateTxOffsets
  | periodDitherTxOffsets
  | txOffsetXDefault
  | txOffsetYDefault
  | txOffsetSlopeX
  | txOffsetBiasX
  | txOffsetQuadraticY
  | txOffsetSlopeY
  | txOffsetBiasY
  | txOffsetDitherXRadius
  | txOffsetDitherYRadius
  | ditherCountPeriod
deriving DecidableEq, Repr

/-- The values of the enumeration, in order. -/
def OffsetParamIndex.toNat (i : OffsetParamIndex) : ℕ := i.ctorIdx

/-- `NUM_TX_OFFSET_PARAMS`. -/
def numTxOffsetParams : ℕ := 12

/-- `offsetParamStruct`. -/
structure OffsetParamStruct where
  name : Bytes
  parameter : ℚ

/-! ## The file -/

/-- The local variables of `getOffsetParams`, and the writes to `offsetParamsIn`. -/
structure OffsetReader where
  linenum : ℕ
  offsetParam : OffsetParamStruct
  writes : List (ℕ × OffsetParamStruct)

/-- The name of a line, and the text that its number is read from. -/
def items (line : Bytes) : Bytes × Bytes :=
  let (name, linestream) := getline 44 ⟨line, true⟩ []
  -- at the end of the line the text stays the name
  (name, (getline 44 linestream name).1)

/-- A turn of the loop. -/
def readLine (s : OffsetReader) (line : Bytes) : OffsetReader :=
  let (name, item) := items line
  -- a blank text leaves the parameter of the line before
  let offsetParam := ⟨name, extractFloat item s.offsetParam.parameter⟩
  { linenum := s.linenum + 1
    offsetParam := offsetParam
    writes := s.writes ++ [(s.linenum, offsetParam)] }

/-- `getOffsetParams`, with what the temporary holds at first: the result, and the writes. The file
may be missing. -/
def getOffsetParams (file : Option Bytes) (offsetParam : OffsetParamStruct) :
    Bool × List (ℕ × OffsetParamStruct) :=
  match file with
  | none => (false, [])
  | some text =>
    let s := (getLines text).foldl readLine ⟨0, offsetParam, []⟩
    (s.linenum = numTxOffsetParams, s.writes)

/-! ## The parameters -/

/-- The parameters that are read from the file. -/
structure TxParameters where
  periodCalculateTxOffsets : ℚ
  periodDitherTxOffsets : ℚ
  txOffsetXDefault : ℚ
  txOffsetYDefault : ℚ
  txOffsetSlopeX : ℚ
  txOffsetBiasX : ℚ
  txOffsetQuadraticY : ℚ
  txOffsetSlopeY : ℚ
  txOffsetBiasY : ℚ
  txOffsetDitherXRadius : ℚ
  txOffsetDitherYRadius : ℚ
  ditherCountPeriod : ℤ

/-- `offsetParams[i].parameter`, if something was written there. -/
def parameterAt (writes : List (ℕ × OffsetParamStruct)) (i : OffsetParamIndex) : Option ℚ :=
  (written writes i.toNat).map OffsetParamStruct.parameter

/-- The parameters that `main` takes from the array. -/
def txParameters (writes : List (ℕ × OffsetParamStruct)) : Option TxParameters := do
  return {
    periodCalculateTxOffsets := ← parameterAt writes .periodCalculateTxOffsets
    periodDitherTxOffsets := ← parameterAt writes .periodDitherTxOffsets
    txOffsetXDefault := ← parameterAt writes .txOffsetXDefault
    txOffsetYDefault := ← parameterAt writes .txOffsetYDefault
    txOffsetSlopeX := ← parameterAt writes .txOffsetSlopeX
    txOffsetBiasX := ← parameterAt writes .txOffsetBiasX
    txOffsetQuadraticY := ← parameterAt writes .txOffsetQuadraticY
    txOffsetSlopeY := ← parameterAt writes .txOffsetSlopeY
    txOffsetBiasY := ← parameterAt writes .txOffsetBiasY
    txOffsetDitherXRadius := ← parameterAt writes .txOffsetDitherXRadius
    txOffsetDitherYRadius := ← parameterAt writes .txOffsetDitherYRadius
    ditherCountPeriod := trunc (← parameterAt writes .ditherCountPeriod) }

/-- The fraction `t` of `ditherOffsets`. A remainder or a quotient by zero is undefined. -/
def ditherFraction (count ditherCountPeriod : ℤ) : Option ℚ :=
  if ditherCountPeriod = 0 then none
  else
    let count := count.tmod ditherCountPeriod
    if binary32 ditherCountPeriod = 0 then none
    else some (binary32 (binary32 count / binary32 ditherCountPeriod))

/-- The writes are in the array, and when the function returns true, the parameters are there and
`ditherOffsets` does not divide by zero. -/
def LoadsSafely (file : Option Bytes) (offsetParam : OffsetParamStruct) : Prop :=
  let (result, writes) := getOffsetParams file offsetParam
  (∀ w ∈ writes, w.1 < numTxOffsetParams) ∧
    (result = true → ∃ params, txParameters writes = some params ∧
      ∀ count, (ditherFraction count params.ditherCountPeriod).isSome)

/-! ## The lines -/

/-- The number of a line, if there is something behind its comma. -/
def lineNumber (line : Bytes) : Option ℚ := numberOf (items line).2

/-- What has been read behind some lines. -/
structure HasRead (offsetParam : OffsetParamStruct) (lines : List Bytes) (s : OffsetReader) :
    Prop where
  linenum : s.linenum = lines.length
  parameter : s.offsetParam.parameter =
    ((lines.filterMap lineNumber).getLast?.map binary32).getD offsetParam.parameter
  addresses : s.writes.map Prod.fst = List.range lines.length
  last : ∀ k, lines.length = k + 1 → written s.writes k = some s.offsetParam

theorem hasRead_foldl (offsetParam : OffsetParamStruct) (lines : List Bytes) :
    HasRead offsetParam lines (lines.foldl readLine ⟨0, offsetParam, []⟩) := by
  induction lines using List.reverseRecOn with
  | nil => exact ⟨rfl, rfl, rfl, fun k hk => absurd hk k.succ_ne_zero.symm⟩
  | append_singleton lines line ih =>
    rw [List.foldl_append, List.foldl_cons, List.foldl_nil]
    set s := lines.foldl readLine ⟨0, offsetParam, []⟩
    refine ⟨?_, ?_, ?_, ?_⟩
    · rw [List.length_append]
      exact congrArg (· + 1) ih.linenum
    · show extractFloat (items line).2 s.offsetParam.parameter = _
      rw [extractFloat_eq, ih.parameter, List.filterMap_append]
      cases hnumber : numberOf (items line).2 with
      | none => simp [lineNumber, hnumber]
      | some x => simp [lineNumber, hnumber]
    · show (s.writes ++ [(s.linenum, _)]).map Prod.fst = _
      rw [List.map_append, ih.addresses, ih.linenum, List.length_append, List.length_singleton,
        List.range_succ]
      rfl
    · intro k hk
      rw [List.length_append, List.length_singleton, Nat.add_right_cancel_iff] at hk
      show written (s.writes ++ [(s.linenum, _)]) k = _
      rw [written_concat, if_pos (ih.linenum.trans hk)]
      rfl

variable {offsetParam : OffsetParamStruct} {lines : List Bytes} {s : OffsetReader}

/-- The writes are in the array when there are not too many lines. -/
theorem HasRead.forall_lt_iff (h : HasRead offsetParam lines s) :
    (∀ w ∈ s.writes, w.1 < numTxOffsetParams) ↔ lines.length ≤ numTxOffsetParams := by
  have hmem : (∀ w ∈ s.writes, w.1 < numTxOffsetParams) ↔
      ∀ i ∈ s.writes.map Prod.fst, i < numTxOffsetParams := by
    rw [List.forall_mem_map]
  rw [hmem, h.addresses]
  constructor
  · intro hall
    by_contra! hlt
    exact (hall numTxOffsetParams (List.mem_range.mpr hlt)).false
  · intro hle i hi
    exact (List.mem_range.mp hi).trans_le hle

/-- When each entry was written, there are parameters. -/
theorem exists_txParameters {writes : List (ℕ × OffsetParamStruct)}
    (h : ∀ i, (parameterAt writes i).isSome) : ∃ params x, txParameters writes = some params ∧
      parameterAt writes .ditherCountPeriod = some x ∧ params.ditherCountPeriod = trunc x := by
  choose x hx using fun i => Option.isSome_iff_exists.mp (h i)
  unfold txParameters
  simp only [hx]
  exact ⟨_, _, rfl, rfl, rfl⟩

/-- A remainder and a quotient are defined when the period is not zero. -/
theorem isSome_ditherFraction_iff {count period : ℤ} :
    (ditherFraction count period).isSome ↔ period ≠ 0 := by
  unfold ditherFraction
  by_cases hzero : period = 0
  · rw [if_pos hzero]
    exact iff_of_false Bool.false_ne_true (not_not.mpr hzero)
  -- a number that is not zero is not rounded to zero either
  have hone : (1 : ℚ) ≤ |(period : ℚ)| := by exact_mod_cast Int.one_le_abs hzero
  have hfloat : binary32 period ≠ 0 := by
    have hle : 1 ≤ |binary32 period| :=
      one_le_abs_binary32_iff.mpr ((sub_le_self _ (by norm_num)).trans hone)
    exact abs_pos.mp (one_pos.trans_le hle)
  rw [if_neg hzero, if_neg hfloat]
  exact iff_of_true rfl hzero

/-- The parameters of twelve lines divide by zero when the last number is truncated to zero. -/
theorem HasRead.exists_txParameters_iff (h : HasRead offsetParam lines s)
    (hlength : lines.length = numTxOffsetParams) :
    (∃ params, txParameters s.writes = some params ∧
      ∀ count, (ditherFraction count params.ditherCountPeriod).isSome) ↔
      1 ≤ |s.offsetParam.parameter| := by
  have hall : ∀ i, (parameterAt s.writes i).isSome := by
    intro i
    rw [parameterAt, Option.isSome_map, isSome_written_iff, h.addresses, List.mem_range, hlength]
    cases i <;> decide
  have hlast : parameterAt s.writes .ditherCountPeriod = some s.offsetParam.parameter :=
    congrArg (Option.map OffsetParamStruct.parameter) (h.last 11 hlength)
  obtain ⟨params, x, hparams, hx, hperiod⟩ := exists_txParameters hall
  obtain rfl := Option.some.inj (hx.symm.trans hlast)
  have hzero : params.ditherCountPeriod ≠ 0 ↔ 1 ≤ |s.offsetParam.parameter| := by
    rw [hperiod, Ne, trunc_eq_zero_iff, not_lt]
  rw [← hzero]
  constructor
  · rintro ⟨params', hparams', hdefined⟩
    obtain rfl := Option.some.inj (hparams.symm.trans hparams')
    exact isSome_ditherFraction_iff.mp (hdefined 0)
  · intro hne
    exact ⟨params, hparams, fun count => isSome_ditherFraction_iff.mpr hne⟩

/-! ## The content -/

/-- The last number that some lines hold is not truncated to zero; if there is none, that is the one
which the temporary holds at first. -/
def LastNumberCounts (offsetParam : OffsetParamStruct) (lines : List Bytes) : Prop :=
  match (lines.filterMap lineNumber).getLast? with
  | some x => 1 - 1 / 2 ^ 25 ≤ |x|
  | none => 1 ≤ |offsetParam.parameter|

/-- There are less than twelve lines, or twelve of which the last number is not truncated to
zero. -/
def FewLines (offsetParam : OffsetParamStruct) (lines : List Bytes) : Prop :=
  lines.length < numTxOffsetParams ∨
    lines.length = numTxOffsetParams ∧ LastNumberCounts offsetParam lines

theorem HasRead.one_le_iff (h : HasRead offsetParam lines s) :
    1 ≤ |s.offsetParam.parameter| ↔ LastNumberCounts offsetParam lines := by
  rw [h.parameter, LastNumberCounts]
  cases (lines.filterMap lineNumber).getLast? with
  | none => exact Iff.rfl
  | some x => exact one_le_abs_binary32_iff

theorem loadsSafely_some_iff (text : Bytes) (offsetParam : OffsetParamStruct) :
    LoadsSafely (some text) offsetParam ↔ FewLines offsetParam (getLines text) := by
  have hread := hasRead_foldl offsetParam (getLines text)
  unfold LoadsSafely getOffsetParams FewLines
  dsimp only
  rw [hread.forall_lt_iff, hread.linenum, decide_eq_true_iff]
  constructor
  · rintro ⟨hle, hparams⟩
    rcases hle.lt_or_eq with hlt | heq
    · exact .inl hlt
    · exact .inr ⟨heq, hread.one_le_iff.mp
        ((hread.exists_txParameters_iff heq).mp (hparams heq))⟩
  · rintro (hlt | ⟨heq, hcounts⟩)
    · exact ⟨hlt.le, fun heq => absurd heq hlt.ne⟩
    · exact ⟨heq.le, fun _ => (hread.exists_txParameters_iff heq).mpr
        (hread.one_le_iff.mpr hcounts)⟩

/-- **The file is read safely if and only if it cannot be opened, has less than twelve lines, or has
twelve lines of which the last number is not rounded and truncated to zero.** -/
theorem loadsSafely_iff (file : Option Bytes) (offsetParam : OffsetParamStruct) :
    LoadsSafely file offsetParam ↔ ∀ text, file = some text →
      FewLines offsetParam (getLines text) := by
  cases file with
  | none =>
    refine iff_of_true ⟨?_, ?_⟩ fun text htext => absurd htext (Option.some_ne_none text).symm
    · exact fun w hw => absurd hw List.not_mem_nil
    · exact fun hresult => absurd hresult Bool.false_ne_true
  | some text =>
    rw [loadsSafely_some_iff]
    exact ⟨fun h text' htext => Option.some.inj htext ▸ h, fun h => h text rfl⟩

/-- Some lines that are alike. -/
def copies (n : ℕ) (line : String) : Bytes := (List.replicate n (ascii line)).flatten

/-- Thirteen lines are too many, and the last one of twelve must not be zero. -/
theorem not_loadsSafely_copies : ¬ LoadsSafely (some (copies 13 "x,1\n")) ⟨[], 0⟩ ∧
    ¬ LoadsSafely (some (copies 12 "x,0\n")) ⟨[], 0⟩ := by
  constructor
  · have hlength : (getLines (copies 13 "x,1\n")).length = 13 := by decide +kernel
    rw [loadsSafely_some_iff, FewLines, hlength]
    rintro (hlt | ⟨heq, -⟩)
    · exact absurd hlt (by decide)
    · exact absurd heq (by decide)
  · have hlength : (getLines (copies 12 "x,0\n")).length = 12 := by decide +kernel
    have hlast : ((getLines (copies 12 "x,0\n")).filterMap lineNumber).getLast? = some 0 := by
      decide +kernel
    rw [loadsSafely_some_iff, FewLines, hlength, LastNumberCounts, hlast]
    rintro (hlt | ⟨-, hcounts⟩)
    · exact absurd hlt (by decide)
    · norm_num at hcounts

end ClickA.Pat
