import ClickA.Cpp.Input
import ClickA.Python.Decimal
import ClickA.Stream.Written
import Mathlib.Data.List.TakeWhile

/-!
# The ids of the experiments

`log.cpp`: each start of PAT is an experiment with an id of its own. The file
`/root/log/id_experiment.csv` has a line for each, and the next id is one more than the last. All
ids are read to an array first. An access outside of it, a read of an element that was not written
and an `int` that overflows are undefined.

## Main definitions

* `getExperimentId`, `getExperimentFolder`: the functions
* `lastId`: what the last line of the file stands for
* `Sound`: what a number of start-ups must do
* `Appendable`: what the file must look like for that

## Main results

* `getExperimentId_eq`, `getExperimentId_of_fit`: the id that is read from a file
* `sound_iff`: when start-ups do what they must
-/

namespace ClickA.Pat

open Cpp Python Stream

/-! ## The code -/

/-- `is_number`. -/
def isNumber (s : Bytes) : Bool := !s.isEmpty && (s.dropWhile Python.isDigit).isEmpty

/-- `stream >> id` of an `int`, from a text of digits: the largest one if the number is larger. -/
def extractId (s : Bytes) : ℕ := min (digitsToNat s) (2 ^ 31 - 1)

/-- An `int` plus one. -/
def successor (id : ℕ) : Option ℕ := if id + 1 < 2 ^ 31 then some (id + 1) else none

/-- The size of `expIds`. -/
def expIdsSize : ℕ := 10000

/-- The local variables of `getExperimentId`: the number of the line, and the writes to `expIds`. -/
structure IdReader where
  linenum : ℕ := 0
  writes : List (ℕ × ℕ) := []

/-- `expIds[i]`. -/
def IdReader.expId (s : IdReader) (i : ℤ) : Option ℕ :=
  if 0 ≤ i ∧ i < expIdsSize then written s.writes i.toNat else none

/-- `expIds[linenum] = id`, and the next line. -/
def IdReader.push (s : IdReader) (id : ℕ) : Option IdReader :=
  if s.linenum < expIdsSize then some ⟨s.linenum + 1, s.writes ++ [(s.linenum, id)]⟩ else none

/-- A turn of the loop. -/
def readId (s : IdReader) (line : Bytes) : Option IdReader := do
  let item := (getline 10 ⟨line, true⟩ []).1
  if isNumber item then s.push (extractId item)
  else if s.linenum > 0 then s.push (← successor (← s.expId (s.linenum - 1)))
  else s.push 0

/-- `getExperimentId`. The file may be missing. -/
def getExperimentId : Option Bytes → Option ℕ
  | none => some 0
  | some text => do
    let s ← (getLines text).foldlM readId {}
    s.expId (s.linenum - 1)

/-- The folder of an experiment. -/
def experimentFolder (expId : ℕ) : Bytes := ascii "/root/log/pat/" ++ str expId ++ ascii "/"

/-- `getExperimentFolder`: the folder, and the file behind it. The output stream makes the file if
it is missing. -/
def getExperimentFolder (updateExpId : Bool) (file : Option Bytes) :
    Option (Bytes × Option Bytes) := do
  let expId ← getExperimentId file
  if updateExpId then
    let expId ← successor expId
    return (experimentFolder expId, some (file.getD [] ++ str expId ++ [10]))
  else return (experimentFolder expId, file)

/-! ## What start-ups must do -/

/-- What a line stands for, behind one that stands for `last`: its number, or one more. -/
def lineId (last : Option ℕ) (line : Bytes) : ℕ :=
  if isNumber line then digitsToNat line else last.elim 0 (· + 1)

/-- What the last line stands for. -/
def lastId (lines : List Bytes) : Option ℕ :=
  lines.foldl (fun last line => some (lineId last line)) none

/-- Each start-up reads the file safely, has a larger id than the last one in the file, and its
folder is the one that is found later. -/
def Sound : ℕ → Option Bytes → Prop
  | 0, file => (getExperimentId file).isSome
  | n + 1, file => ∃ expId file',
    getExperimentFolder true file = some (experimentFolder expId, file') ∧
      (∀ last, lastId (getLines (file.getD [])) = some last → last < expId) ∧
        getExperimentFolder false file' = some (experimentFolder expId, file') ∧ Sound n file'

/-- The last line has no end, and only zeros. -/
def EndsInZeros (text : Bytes) : Prop :=
  text.getLast? ≠ some 10 ∧ ∀ last, (getLines text).getLast? = some last → ∀ b ∈ last, b = 48

/-- The file has lines, and not too many of them behind the start-ups. If the last line has no end,
no start-up writes behind it, unless it has only zeros. -/
def Appendable : ℕ → Option Bytes → Prop
  | n, none => n ≤ expIdsSize
  | 0, some text => text ≠ [] ∧ (getLines text).length ≤ expIdsSize
  | n + 1, some text => text ≠ [] ∧
    (text.getLast? = some 10 ∧ (getLines text).length + (n + 1) ≤ expIdsSize ∨
      EndsInZeros text ∧ (getLines text).length + n ≤ expIdsSize)

/-- The numbers in the file fit 30 bits. -/
def NumbersFit (file : Option Bytes) : Prop :=
  ∀ line ∈ getLines (file.getD []), isNumber line → digitsToNat line < 2 ^ 30

variable {s : IdReader} {lines : List Bytes} {line text tail : Bytes} {last : Option ℕ} {n id : ℕ}

/-! ## The lines -/

theorem isNumber_iff {s : Bytes} : isNumber s ↔ s ≠ [] ∧ s.all Python.isDigit = true := by
  rw [isNumber, Bool.and_eq_true, Bool.not_eq_true', List.isEmpty_eq_false_iff, List.isEmpty_iff,
    List.dropWhile_eq_nil_iff, List.all_eq_true]

theorem isNumber_str (n : ℕ) : isNumber (str n) :=
  isNumber_iff.mpr ⟨str_ne_nil n, all_isDigit_str n⟩

/-- The item of a line is the line. -/
theorem getline_line (hline : 10 ∉ line) : (getline 10 ⟨line, true⟩ []).1 = line := by
  rw [getline, if_pos rfl]
  refine List.takeWhile_eq_self_iff.mpr fun b hb => decide_eq_true ?_
  rintro rfl
  exact hline hb

@[simp] theorem lastId_nil : lastId [] = none := rfl

@[simp] theorem lastId_concat : lastId (lines ++ [line]) = some (lineId (lastId lines) line) := by
  rw [lastId, List.foldl_append]
  rfl

theorem exists_lastId (hne : lines ≠ []) : ∃ id, lastId lines = some id := by
  obtain ⟨lines, line, rfl⟩ := (List.eq_nil_or_concat' lines).resolve_left hne
  exact ⟨_, lastId_concat⟩

/-- No line of a file stands for too large a number. -/
def IdsFit (lines : List Bytes) : Prop :=
  ∀ before id, before <+: lines → lastId before = some id → id < 2 ^ 30 + before.length

theorem IdsFit.concat (hfit : IdsFit lines)
    (hline : lineId (lastId lines) line ≤ 2 ^ 30 + lines.length) :
    IdsFit (lines ++ [line]) := by
  intro before id hbefore hid
  rcases List.prefix_concat_iff.mp hbefore with rfl | hbefore
  · rw [lastId_concat] at hid
    obtain rfl := Option.some.inj hid
    rw [List.length_append, List.length_singleton]
    omega
  · exact hfit before id hbefore hid

theorem IdsFit.of_concat (hfit : IdsFit (lines ++ [line])) : IdsFit lines :=
  fun before id hbefore => hfit before id (hbefore.trans (List.prefix_append lines [line]))

theorem IdsFit.lt (hfit : IdsFit lines) (hid : lastId lines = some id) :
    id < 2 ^ 30 + lines.length :=
  hfit lines id (List.prefix_refl lines) hid

/-- What a line that is no number stands for. -/
theorem lineId_of_not (hline : ¬ isNumber line) :
    lineId last line = last.elim 0 (· + 1) := if_neg hline

/-- Numbers that fit stand for numbers that fit, and so do the lines between them. -/
theorem IdsFit.of_numbers (hnumbers : ∀ line ∈ lines, isNumber line → digitsToNat line < 2 ^ 30) :
    IdsFit lines := by
  induction lines using List.reverseRecOn with
  | nil =>
    intro before id hbefore hid
    rw [List.prefix_nil.mp hbefore] at hid
    exact absurd hid (by simp)
  | append_singleton lines line ih =>
    obtain ⟨hlines, hline⟩ := List.forall_mem_append.mp hnumbers
    have hfit := ih hlines
    apply hfit.concat
    rw [lineId]
    split_ifs with hnumber
    · exact le_trans (hline line List.mem_cons_self hnumber).le (Nat.le_add_right _ _)
    · cases hlast : lastId lines with
      | none => exact Nat.zero_le _
      | some id => exact hfit.lt hlast

/-! ## The array -/

/-- What has been read behind some lines. -/
structure HasIds (lines : List Bytes) (s : IdReader) : Prop where
  linenum : s.linenum = lines.length
  last : ∀ k, lines.length = k + 1 → written s.writes k = lastId lines

/-- What a line is taken for. -/
def readValue (last : Option ℕ) (line : Bytes) : ℕ :=
  if isNumber line then extractId line else last.elim 0 (· + 1)

theorem readValue_eq (hfit : lineId last line < 2 ^ 31) :
    readValue last line = lineId last line := by
  unfold readValue lineId at *
  split_ifs with hnumber
  · rw [if_pos hnumber] at hfit
    exact min_eq_left (by omega)
  · rfl

/-- The last element is read where there is one. -/
theorem HasIds.expId_eq (h : HasIds lines s) (hlen : lines.length ≤ expIdsSize) :
    s.expId (s.linenum - 1) = lastId lines := by
  rw [IdReader.expId, h.linenum]
  cases hlines : lines.length with
  | zero =>
    rw [List.length_eq_zero_iff.mp hlines, if_neg (by omega)]
    rfl
  | succ k =>
    rw [if_pos (by omega), show ((k + 1 : ℕ) - 1 : ℤ).toNat = k by omega, h.last k hlines]

/-- A line is taken for its number, or for one more than the line before. -/
theorem HasIds.readId_eq (h : HasIds lines s) (hlen : lines.length ≤ expIdsSize)
    (hfit : IdsFit lines) (hline : 10 ∉ line) :
    readId s line = s.push (readValue (lastId lines) line) := by
  have hread := h.expId_eq hlen
  unfold readId readValue
  rw [h.linenum] at hread
  simp only [getline_line hline, h.linenum, hread]
  by_cases hnumber : isNumber line
  · rw [if_pos hnumber, if_pos hnumber]
  · rw [if_neg hnumber, if_neg hnumber]
    cases lines using List.reverseRecOn with
    | nil => rfl
    | append_singleton before line' =>
      have hlast : lastId (before ++ [line']) = some (lineId (lastId before) line') := lastId_concat
      have hless := hfit.lt hlast
      have hsize : (before ++ [line']).length ≤ 10000 := hlen
      rw [hlast, if_pos (by simp), Option.bind_eq_bind, Option.bind_some, successor,
        if_pos (by omega)]
      rfl

theorem HasIds.push (h : HasIds lines s) (hlen : lines.length < expIdsSize)
    (hfit : lineId (lastId lines) line < 2 ^ 31) :
    ∃ s', s.push (readValue (lastId lines) line) = some s' ∧ HasIds (lines ++ [line]) s' := by
  refine ⟨_, if_pos (h.linenum ▸ hlen), ?_, fun k hk => ?_⟩
  · rw [List.length_append, h.linenum]
    rfl
  · rw [List.length_append, List.length_singleton, Nat.add_right_cancel_iff] at hk
    rw [written_concat, if_pos (h.linenum.trans hk), lastId_concat, readValue_eq hfit]

/-- The last turn of the loop. -/
theorem foldlM_readId_concat (s : IdReader) :
    (lines ++ [line]).foldlM readId s = (lines.foldlM readId s).bind fun s => readId s line := by
  rw [List.foldlM_append, Option.bind_eq_bind]
  simp only [List.foldlM_cons, List.foldlM_nil, bind_pure]

/-- The loop reads the ids when there are not too many lines. -/
theorem exists_hasIds (hlines : ∀ line ∈ lines, 10 ∉ line) (hfit : IdsFit lines)
    (hlen : lines.length ≤ expIdsSize) : ∃ s, lines.foldlM readId {} = some s ∧ HasIds lines s := by
  induction lines using List.reverseRecOn with
  | nil => exact ⟨_, rfl, rfl, fun k hk => absurd hk k.succ_ne_zero.symm⟩
  | append_singleton lines line ih =>
    obtain ⟨hlines, hline⟩ := List.forall_mem_append.mp hlines
    rw [List.length_append, List.length_singleton] at hlen
    obtain ⟨s, hread, hids⟩ := ih hlines hfit.of_concat (by omega)
    have hless := hfit.lt lastId_concat
    have hsize : lines.length + 1 ≤ 10000 := hlen
    rw [List.length_append, List.length_singleton] at hless
    obtain ⟨s', hpush, hids'⟩ := hids.push hlen (show lineId (lastId lines) line < 2 ^ 31 by omega)
    refine ⟨s', ?_, hids'⟩
    rw [foldlM_readId_concat, hread, Option.bind_some,
      hids.readId_eq (by omega) hfit.of_concat (hline line List.mem_cons_self), hpush]

/-- A line too many is written outside of the array. -/
theorem foldlM_readId_eq_none (hlines : ∀ line ∈ lines, 10 ∉ line) (hfit : IdsFit lines)
    (hlen : expIdsSize < lines.length) : lines.foldlM readId {} = none := by
  induction lines using List.reverseRecOn with
  | nil => exact absurd hlen (Nat.not_lt_zero _)
  | append_singleton lines line ih =>
    obtain ⟨hlines, hline⟩ := List.forall_mem_append.mp hlines
    rw [List.length_append, List.length_singleton] at hlen
    rw [foldlM_readId_concat]
    by_cases hmore : expIdsSize < lines.length
    · rw [ih hlines hfit.of_concat hmore]
      rfl
    · have hlen' : lines.length = expIdsSize := by omega
      obtain ⟨s, hread, hids⟩ := exists_hasIds hlines hfit.of_concat hlen'.le
      rw [hread, Option.bind_some,
        hids.readId_eq hlen'.le hfit.of_concat (hline line List.mem_cons_self), IdReader.push,
        hids.linenum, if_neg hlen'.not_lt]

/-- The id of a file whose last line may stand for any number. -/
theorem getExperimentId_eq (htext : getLines text = lines ++ [line]) (hfit : IdsFit lines) :
    getExperimentId (some text) =
      if lines.length < expIdsSize then some (readValue (lastId lines) line) else none := by
  have hall : ∀ l ∈ lines ++ [line], 10 ∉ l := fun l hl =>
    not_mem_of_mem_getLines (htext ▸ hl)
  obtain ⟨hlines, hline⟩ := List.forall_mem_append.mp hall
  rw [getExperimentId, htext, foldlM_readId_concat]
  by_cases hmore : expIdsSize < lines.length
  · rw [foldlM_readId_eq_none hlines hfit hmore, if_neg hmore.not_gt]
    rfl
  · obtain ⟨s, hread, hids⟩ := exists_hasIds hlines hfit (not_lt.mp hmore)
    rw [hread, Option.bind_some,
      hids.readId_eq (not_lt.mp hmore) hfit (hline line List.mem_cons_self), IdReader.push,
      hids.linenum]
    split_ifs with hroom
    · show IdReader.expId _ (((lines.length + 1 : ℕ) : ℤ) - 1) = _
      have hindex : ((lines.length + 1 : ℕ) : ℤ) - 1 = lines.length := by omega
      rw [hindex, IdReader.expId, if_pos ⟨by omega, by omega⟩, Int.toNat_natCast, written_concat,
        if_pos rfl]
    · rfl

/-- An empty file has no id: the element before the array is read. -/
theorem getExperimentId_nil : getExperimentId (some []) = none := rfl

/-- The id of a file whose lines fit. -/
theorem getExperimentId_of_fit (htext : getLines text = lines) (hne : lines ≠ [])
    (hfit : IdsFit lines) :
    getExperimentId (some text) = if lines.length ≤ expIdsSize then lastId lines else none := by
  obtain ⟨lines, line, rfl⟩ := (List.eq_nil_or_concat' lines).resolve_left hne
  have hless := hfit.lt lastId_concat
  rw [List.length_append, List.length_singleton] at hless
  rw [getExperimentId_eq htext hfit.of_concat, List.length_append, List.length_singleton,
    lastId_concat]
  by_cases hroom : lines.length < expIdsSize
  · have hsize : lines.length < 10000 := hroom
    have hroom' : lines.length + 1 ≤ expIdsSize := hroom
    rw [if_pos hroom, if_pos hroom', readValue_eq (by omega)]
  · have hroom' : ¬ lines.length + 1 ≤ expIdsSize := hroom
    rw [if_neg hroom, if_neg hroom']

/-! ## Start-ups -/

theorem getExperimentFolder_false (file : Option Bytes) :
    getExperimentFolder false file =
      (getExperimentId file).map fun id => (experimentFolder id, file) := by
  unfold getExperimentFolder
  cases getExperimentId file with
  | none => rfl
  | some id => rfl

theorem experimentFolder_injective : Function.Injective experimentFolder := by
  intro n m h
  exact str_injective (List.append_cancel_left (List.append_cancel_right h))

/-- A file that is not read safely. -/
theorem not_sound {file : Option Bytes} (hread : getExperimentId file = none) : ¬ Sound n file := by
  cases n with
  | zero =>
    intro hsound
    rw [Sound, hread] at hsound
    exact absurd hsound Bool.false_ne_true
  | succ n =>
    rintro ⟨expId, file', hstart, -⟩
    rw [getExperimentFolder, hread] at hstart
    exact absurd hstart (Option.some_ne_none _).symm

/-- A start-up appends the next id. -/
theorem sound_succ_iff {file : Option Bytes} (hread : getExperimentId file = some id)
    (hfits : id + 1 < 2 ^ 31) (hlast : ∀ last, lastId (getLines (file.getD [])) = some last →
      last ≤ id) :
    Sound (n + 1) file ↔
      getExperimentId (some (file.getD [] ++ str (id + 1) ++ [10])) = some (id + 1) ∧
        Sound n (some (file.getD [] ++ str (id + 1) ++ [10])) := by
  have hstart : getExperimentFolder true file =
      some (experimentFolder (id + 1), some (file.getD [] ++ str (id + 1) ++ [10])) := by
    rw [getExperimentFolder, hread, Option.bind_eq_bind, Option.bind_some, if_pos rfl, successor,
      if_pos hfits]
    rfl
  constructor
  · rintro ⟨expId, file', hstart', -, hlater, hsound⟩
    obtain ⟨hfolder, rfl⟩ := Prod.mk.inj (Option.some.inj (hstart.symm.trans hstart'))
    obtain rfl := experimentFolder_injective hfolder
    refine ⟨?_, hsound⟩
    rw [getExperimentFolder_false, Option.map_eq_some_iff] at hlater
    obtain ⟨id', hid', hfolder'⟩ := hlater
    rw [hid', experimentFolder_injective (Prod.mk.inj hfolder').1]
  · rintro ⟨hlater, hsound⟩
    refine ⟨id + 1, _, hstart, fun last hid => Nat.lt_succ_of_le (hlast last hid), ?_, hsound⟩
    rw [getExperimentFolder_false, hlater]
    rfl

theorem getLines_ended_self (hlines : ∀ line ∈ lines, 10 ∉ line) :
    getLines (ended lines) = lines := by
  have hall := getLines_ended hlines (List.not_mem_nil (a := 10))
  rwa [List.append_nil, if_pos rfl, List.append_nil] at hall

/-- A file is read safely when it has lines, and not too many. -/
theorem sound_zero_iff (htext : getLines text = lines) (hne : lines ≠ []) (hfit : IdsFit lines) :
    Sound 0 (some text) ↔ lines.length ≤ expIdsSize := by
  rw [Sound, getExperimentId_of_fit htext hne hfit]
  split_ifs with hlen
  · exact iff_of_true (Option.isSome_iff_exists.mpr (exists_lastId hne)) hlen
  · exact iff_of_false Bool.false_ne_true hlen

/-- Start-ups behind a line that has its end append lines as long as there is room. -/
theorem sound_ended_iff (hlines : ∀ line ∈ lines, 10 ∉ line) (hne : lines ≠ [])
    (hfit : IdsFit lines) :
    Sound n (some (ended lines)) ↔ lines.length + n ≤ expIdsSize := by
  induction n generalizing lines with
  | zero => exact sound_zero_iff (getLines_ended_self hlines) hne hfit
  | succ n ih =>
    have hread := getExperimentId_of_fit (getLines_ended_self hlines) hne hfit
    by_cases hlen : lines.length ≤ expIdsSize
    · obtain ⟨id, hid⟩ := exists_lastId hne
      have hless := hfit.lt hid
      have hsize : lines.length ≤ 10000 := hlen
      rw [if_pos hlen, hid] at hread
      have hlines' : ∀ line ∈ lines ++ [str (id + 1)], 10 ∉ line :=
        List.forall_mem_append.mpr ⟨hlines, List.forall_mem_singleton.mpr (not_mem_str rfl)⟩
      have hnew : lineId (lastId lines) (str (id + 1)) = id + 1 := by
        rw [lineId, if_pos (isNumber_str _), digitsToNat_str]
      have hfit' : IdsFit (lines ++ [str (id + 1)]) := hfit.concat (by rw [hnew]; exact hless)
      have hne' : lines ++ [str (id + 1)] ≠ [] := List.concat_ne_nil _ _
      have hlast : ∀ last, lastId (getLines (ended lines)) = some last → last ≤ id := by
        rw [getLines_ended_self hlines, hid]
        rintro last ⟨⟩
        exact le_rfl
      rw [sound_succ_iff hread (by omega) hlast, Option.getD_some, ← ended_concat,
        ih hlines' hne' hfit', getExperimentId_of_fit (getLines_ended_self hlines') hne' hfit',
        lastId_concat, hnew, List.length_append, List.length_singleton, Nat.add_assoc,
        Nat.add_comm 1 n]
      refine and_iff_right_of_imp fun hroom => if_pos (by omega)
    · rw [if_neg hlen] at hread
      exact iff_of_false (not_sound hread) (by omega)

/-- Without a file the first id is one. -/
theorem sound_none_iff : Sound n none ↔ n ≤ expIdsSize := by
  cases n with
  | zero => exact iff_of_true rfl (Nat.zero_le _)
  | succ n =>
    have hlines : ∀ line ∈ [str 1], 10 ∉ line := List.forall_mem_singleton.mpr (not_mem_str rfl)
    have hfit : IdsFit [str 1] := IdsFit.of_numbers <| List.forall_mem_singleton.mpr fun _ => by
      rw [digitsToNat_str]
      decide
    have hread := getExperimentId_of_fit (getLines_ended_self hlines) (List.cons_ne_nil _ _) hfit
    have hfile : ((none : Option Bytes).getD [] ++ str (0 + 1) ++ [10]) = ended [str 1] := rfl
    rw [sound_succ_iff (show getExperimentId none = some 0 from rfl) (by decide) nofun, hfile,
      hread, sound_ended_iff hlines (List.cons_ne_nil _ _) hfit, List.length_singleton,
      Nat.add_comm 1 n]
    exact and_iff_right rfl

theorem isNumber_append (hline : isNumber line) (n : ℕ) : isNumber (line ++ str n) := by
  obtain ⟨hne, hall⟩ := isNumber_iff.mp hline
  rw [isNumber_iff, List.all_append, hall, all_isDigit_str]
  exact ⟨List.append_ne_nil_of_left_ne_nil hne _, rfl⟩

theorem isNumber_of_zeros (htail : tail ≠ []) (hzeros : ∀ b ∈ tail, b = 48) : isNumber tail := by
  refine isNumber_iff.mpr ⟨htail, List.all_eq_true.mpr fun b hb => ?_⟩
  rw [hzeros b hb]
  decide

/-- What is appended to a last line without an end is the next id if and only if the line has only
zeros. -/
theorem readValue_append_iff (htail : tail ≠ [])
    (hnumber : isNumber tail → digitsToNat tail < 2 ^ 30) :
    readValue last (tail ++ str (lineId last tail + 1)) = lineId last tail + 1 ↔
      ∀ b ∈ tail, b = 48 := by
  by_cases hdigits : isNumber tail
  · obtain ⟨-, hall⟩ := isNumber_iff.mp hdigits
    have hid : lineId last tail = digitsToNat tail := if_pos hdigits
    have hless := hnumber hdigits
    rw [hid, readValue, if_pos (isNumber_append hdigits _), extractId, digitsToNat_append,
      digitsToNat_str, ← digitsToNat_eq_zero_iff hall]
    constructor
    · intro hsame
      by_contra hzero
      have hmore : 1 ≤ digitsToNat tail * 10 ^ (str (digitsToNat tail + 1)).length :=
        Nat.mul_pos (Nat.pos_of_ne_zero hzero) (Nat.pow_pos (by omega))
      omega
    · intro hzero
      rw [hzero]
      decide
  · have hboth : ¬ isNumber (tail ++ str (lineId last tail + 1)) := by
      rw [isNumber_iff] at hdigits ⊢
      rintro ⟨-, hall⟩
      rw [List.all_append, Bool.and_eq_true] at hall
      exact hdigits ⟨htail, hall.1⟩
    refine iff_of_false ?_ fun hzeros => hdigits (isNumber_of_zeros htail hzeros)
    rw [readValue, if_neg hboth, lineId_of_not hdigits]
    omega

/-- The first start-up writes behind a last line that has no end. -/
theorem sound_tail_iff (hlines : ∀ line ∈ lines, 10 ∉ line) (htail : tail ≠ []) (hmem : 10 ∉ tail)
    (hnumbers : ∀ line ∈ lines ++ [tail], isNumber line → digitsToNat line < 2 ^ 30) :
    Sound (n + 1) (some (ended lines ++ tail)) ↔
      (∀ b ∈ tail, b = 48) ∧ (lines ++ [tail]).length + n ≤ expIdsSize := by
  have hfit := IdsFit.of_numbers hnumbers
  have htext : getLines (ended lines ++ tail) = lines ++ [tail] := by
    rw [getLines_ended hlines hmem, if_neg htail]
  have hread := getExperimentId_of_fit htext (List.concat_ne_nil _ _) hfit
  have hless := hfit.lt lastId_concat
  have hnumber := hnumbers tail (List.mem_append_right _ List.mem_cons_self)
  by_cases hlen : (lines ++ [tail]).length ≤ expIdsSize
  · have hsize : (lines ++ [tail]).length ≤ 10000 := hlen
    rw [if_pos hlen, lastId_concat] at hread
    generalize hid : lineId (lastId lines) tail = id at hread hless
    have hlast : ∀ last, lastId (getLines (ended lines ++ tail)) = some last → last ≤ id := by
      rw [htext, lastId_concat, hid]
      rintro last ⟨⟩
      exact le_rfl
    have hlonger : 10 ∉ tail ++ str (id + 1) :=
      List.not_mem_append hmem (not_mem_str rfl)
    have hlines' : ∀ line ∈ lines ++ [tail ++ str (id + 1)], 10 ∉ line :=
      List.forall_mem_append.mpr ⟨hlines, List.forall_mem_singleton.mpr hlonger⟩
    have hfile : ended lines ++ tail ++ str (id + 1) ++ [10] =
        ended (lines ++ [tail ++ str (id + 1)]) := by
      rw [ended_concat, List.append_assoc (ended lines)]
    have hroom : lines.length < expIdsSize := by
      rw [List.length_append, List.length_singleton] at hlen
      exact hlen
    have hvalue : readValue (lastId lines) (tail ++ str (id + 1)) = id + 1 ↔ ∀ b ∈ tail, b = 48 :=
      hid ▸ readValue_append_iff htail hnumber
    rw [sound_succ_iff hread (by omega) hlast, Option.getD_some, hfile,
      getExperimentId_eq (getLines_ended_self hlines') hfit.of_concat, if_pos hroom,
      Option.some_inj, hvalue]
    refine and_congr_right fun hzeros => ?_
    have hdigits := isNumber_of_zeros htail hzeros
    have hzero : digitsToNat tail = 0 :=
      (digitsToNat_eq_zero_iff (isNumber_iff.mp hdigits).2).mpr hzeros
    have hnew : lineId (lastId lines) (tail ++ str (id + 1)) = id + 1 := by
      rw [lineId, if_pos (isNumber_append hdigits _), digitsToNat_append, hzero, digitsToNat_str,
        Nat.zero_mul, Nat.zero_add]
    have hfit' : IdsFit (lines ++ [tail ++ str (id + 1)]) := by
      apply hfit.of_concat.concat
      rw [hnew, ← hid, lineId, if_pos hdigits, hzero]
      omega
    rw [sound_ended_iff hlines' (List.concat_ne_nil _ _) hfit', List.length_append,
      List.length_append, List.length_singleton, List.length_singleton]
  · rw [if_neg hlen] at hread
    exact iff_of_false (not_sound hread) fun h => hlen (by omega)

/-- **Start-ups read the file safely, have ids that are larger than those before, and are the ones
that are found later, if the file can be appended to so often, and only then.** -/
theorem sound_iff (n : ℕ) (file : Option Bytes) (hfit : NumbersFit file) :
    Sound n file ↔ Appendable n file := by
  cases file with
  | none =>
    rw [sound_none_iff]
    cases n with
    | zero => rfl
    | succ n => rfl
  | some text =>
    obtain ⟨lines, tail, hlines, hmem, rfl⟩ := exists_ended text
    have htext := getLines_ended hlines hmem
    rw [NumbersFit, Option.getD_some, htext] at hfit
    by_cases htail : tail = []
    · subst htail
      rw [if_pos rfl, List.append_nil] at hfit htext
      rw [List.append_nil] at htext ⊢
      by_cases hne : lines = []
      · subst hne
        refine iff_of_false (not_sound getExperimentId_nil) fun happendable => ?_
        cases n with
        | zero => exact happendable.1 rfl
        | succ n => exact happendable.1 rfl
      · have hlast := getLast?_ended hne
        have htext' : ended lines ≠ [] := by
          intro hempty
          rw [hempty] at hlast
          exact absurd hlast (Option.some_ne_none _).symm
        have hids := IdsFit.of_numbers hfit
        rw [sound_ended_iff hlines hne hids]
        cases n with
        | zero => rw [Appendable, and_iff_right htext', htext, Nat.add_zero]
        | succ n =>
          rw [Appendable, and_iff_right htext', htext, and_iff_right hlast]
          exact (or_iff_left fun hzeros => hzeros.1.1 hlast).symm
    -- the last line has none, and only the first start-up sees that
    · have hlast := getLast?_tail htail hmem (ended lines)
      have htext' : ended lines ++ tail ≠ [] := List.append_ne_nil_of_right_ne_nil _ htail
      rw [if_neg htail] at hfit htext
      cases n with
      | zero =>
        rw [sound_zero_iff htext (List.concat_ne_nil _ _) (IdsFit.of_numbers hfit), Appendable,
          and_iff_right htext', htext]
      | succ n =>
        have hzeros : EndsInZeros (ended lines ++ tail) ↔ ∀ b ∈ tail, b = 48 := by
          rw [EndsInZeros, and_iff_right hlast, htext, List.getLast?_concat]
          exact ⟨fun h => h tail rfl, by rintro h last ⟨⟩; exact h⟩
        rw [sound_tail_iff hlines htail hmem hfit, Appendable, and_iff_right htext', htext, hzeros]
        exact (or_iff_right fun hended => hlast hended.1).symm

/-- Two start-ups behind a line that is no number. -/
theorem sound_iff_csv : Sound 2 (some (ascii "7\nx\n")) ↔ Appendable 2 (some (ascii "7\nx\n")) := by
  apply sound_iff
  show ∀ line ∈ [ascii "7", ascii "x"], isNumber line → digitsToNat line < 2 ^ 30
  decide

/-- With an empty file, the first start-up reads the element before the array. -/
theorem not_sound_empty : ¬ ∀ (n : ℕ) (file : Option Bytes), NumbersFit file → Sound n file :=
  fun hclaim => not_sound getExperimentId_nil (hclaim 1 (some []) nofun)

/-- Behind a last line without an end, the id of the start-up is not found again. -/
example : getExperimentFolder true (some (ascii "5")) =
      some (ascii "/root/log/pat/6/", some (ascii "56\n")) ∧
    getExperimentFolder false (some (ascii "56\n")) =
      some (ascii "/root/log/pat/56/", some (ascii "56\n")) := ⟨by decide, by decide⟩

end ClickA.Pat
