import ClickA.Cpp.Binary32
import ClickA.Python.Text

/-!
# Reading text

What the models use of the input streams: lines and parts of lines, and `>>` to a `float`.

## Main definitions

* `getline`: `getline(stream, text, delim)`
* `getLines`: the lines that `while (getline(file, line))` reads
* `decimalOf`: the number that begins a text
* `extractFloat`: `stream >> value` of a `float`
* `ended`: lines that each have their end

## Main results

* `getLines_eq_cons`: the first line is what `getline` reads
* `getLines_ended`: the lines of a text, the last of which may have no end
* `extractFloat_eq`: a text without a number leaves zero, and a blank one the value as it was
-/

namespace Cpp

open Python (Bytes isSpace isDigit signed digitsToNat)

/-- An input stream: the characters left, and whether no flag is set. -/
structure IStream where
  rest : Bytes
  good : Bool := true

/-- `getline(stream, text, delim)`: the text, and the stream behind it. A stream that is not good
leaves the text as it was. -/
def getline (delim : UInt8) (stream : IStream) (text : Bytes) : Bytes × IStream :=
  if stream.good then
    -- a stream that ends before the delimiter is not good any more
    (stream.rest.takeWhile (· ≠ delim),
      match stream.rest.dropWhile (· ≠ delim) with
      | [] => ⟨[], false⟩
      | _ :: rest => ⟨rest, true⟩)
  else (text, stream)

/-- The lines of a file. -/
def getLines : Bytes → List Bytes
  | [] => []
  | b :: s =>
    if b = 10 then [] :: getLines s
    else match getLines s with
      | [] => [[b]]
      | line :: lines => (b :: line) :: lines

/-- The exponent of a number: nothing, or `e` and digits, which may be missing. -/
def exponentOf : Bytes → Option ℤ
  | [] => some 0
  | b :: s =>
    if b = 101 ∨ b = 69 then
      let (negative, s) := signed s
      let digits := s.takeWhile isDigit
      if digits = [] then none
      else some (if negative then -digitsToNat digits else digitsToNat digits)
    else some 0

/-- The number that begins a text, or zero. -/
def decimalOf (s : Bytes) : ℚ :=
  let (negative, s) := signed s
  let whole := s.takeWhile isDigit
  let (fraction, rest) := match s.dropWhile isDigit with
    | 46 :: rest => (rest.takeWhile isDigit, rest.dropWhile isDigit)
    | rest => ([], rest)
  let magnitude : ℚ :=
    -- what `strtof` does not take as a whole sets zero
    if whole ++ fraction = [] then 0
    else match exponentOf rest with
      | none => 0
      | some e => digitsToNat (whole ++ fraction) * 10 ^ (e - fraction.length)
  if negative then -magnitude else magnitude

/-- `stream >> value` at the beginning of a text. -/
def extractFloat (s : Bytes) (value : ℚ) : ℚ :=
  match s.dropWhile isSpace with
  | [] => value
  | b :: s => binary32 (decimalOf (b :: s))

/-- The number that a text holds, if it is not blank. -/
def numberOf (s : Bytes) : Option ℚ :=
  match s.dropWhile isSpace with
  | [] => none
  | b :: s => some (decimalOf (b :: s))

/-- A blank text leaves the value as it was. -/
theorem extractFloat_eq (s : Bytes) (value : ℚ) :
    extractFloat s value = ((numberOf s).map binary32).getD value := by
  unfold extractFloat numberOf
  cases s.dropWhile isSpace with
  | nil => rfl
  | cons b s => rfl

theorem getline_cons_self (s text : Bytes) (delim : UInt8) :
    getline delim ⟨delim :: s, true⟩ text = ([], ⟨s, true⟩) := by
  simp [getline]

/-- A character that is no delimiter belongs to the text. -/
theorem getline_cons_of_ne {b delim : UInt8} (hb : b ≠ delim) (s text : Bytes) :
    getline delim ⟨b :: s, true⟩ text =
      (b :: (getline delim ⟨s, true⟩ text).1, (getline delim ⟨s, true⟩ text).2) := by
  simp [getline, hb]

/-- The first line of a file is what `getline` reads, and the others are those of the rest. -/
theorem getLines_eq_cons {s : Bytes} (hs : s ≠ []) (text : Bytes) :
    getLines s = (getline 10 ⟨s, true⟩ text).1 :: getLines (getline 10 ⟨s, true⟩ text).2.rest := by
  induction s with
  | nil => exact absurd rfl hs
  | cons b s ih =>
    rw [getLines]
    split_ifs with hb
    · rw [hb, getline_cons_self]
    rw [getline_cons_of_ne hb]
    cases s with
    | nil => rfl
    | cons b' s => rw [ih (List.cons_ne_nil b' s)]

/-! ## Lines and their ends -/

/-- The text of some lines, each with its end. -/
def ended (lines : List Bytes) : Bytes := lines.flatMap (· ++ [10])

variable {lines : List Bytes} {line tail : Bytes}

@[simp] theorem ended_cons : ended (line :: lines) = line ++ 10 :: ended lines := by
  rw [ended, List.flatMap_cons, List.append_assoc]
  rfl

@[simp] theorem ended_concat : ended (lines ++ [line]) = ended lines ++ line ++ [10] := by
  rw [ended, List.flatMap_append, List.flatMap_singleton, ← List.append_assoc]
  rfl

/-- A line is read up to its end. -/
theorem getLines_line (hline : 10 ∉ line) (s : Bytes) :
    getLines (line ++ 10 :: s) = line :: getLines s := by
  induction line with
  | nil => rw [List.nil_append, getLines, if_pos rfl]
  | cons b line ih =>
    have hb : b ≠ 10 := (List.ne_of_not_mem_cons hline).symm
    rw [List.cons_append, getLines, if_neg hb, ih (List.not_mem_of_not_mem_cons hline)]

/-- The last line need not have an end, and no line is empty without one. -/
theorem getLines_tail (htail : 10 ∉ tail) :
    getLines tail = if tail = [] then [] else [tail] := by
  induction tail with
  | nil => rfl
  | cons b tail ih =>
    have hb : b ≠ 10 := (List.ne_of_not_mem_cons htail).symm
    rw [getLines, if_neg hb, ih (List.not_mem_of_not_mem_cons htail),
      if_neg (List.cons_ne_nil b tail)]
    cases tail with
    | nil => rfl
    | cons b' tail => rw [if_neg (List.cons_ne_nil b' tail)]

/-- The lines of a text. -/
theorem getLines_ended (hlines : ∀ line ∈ lines, 10 ∉ line) (htail : 10 ∉ tail) :
    getLines (ended lines ++ tail) = lines ++ if tail = [] then [] else [tail] := by
  induction lines with
  | nil => exact getLines_tail htail
  | cons line lines ih =>
    rw [ended_cons, List.append_assoc, List.cons_append,
      getLines_line (hlines line List.mem_cons_self),
      ih fun line hline => hlines line (List.mem_cons_of_mem _ hline), List.cons_append]

/-- Each text consists of lines and of what comes behind the last end. -/
theorem exists_ended (s : Bytes) :
    ∃ lines tail, (∀ line ∈ lines, 10 ∉ line) ∧ 10 ∉ tail ∧ s = ended lines ++ tail := by
  induction s with
  | nil => exact ⟨[], [], nofun, nofun, rfl⟩
  | cons b s ih =>
    obtain ⟨lines, tail, hlines, htail, rfl⟩ := ih
    by_cases hb : b = 10
    · refine ⟨[] :: lines, tail, List.forall_mem_cons.mpr ⟨nofun, hlines⟩, htail, ?_⟩
      rw [hb, ended_cons]
      rfl
    · have hcons {line : Bytes} (hline : 10 ∉ line) : 10 ∉ b :: line :=
        List.not_mem_cons_of_ne_of_not_mem (Ne.symm hb) hline
      cases lines with
      | nil => exact ⟨[], b :: tail, nofun, hcons htail, rfl⟩
      | cons line lines =>
        obtain ⟨hline, hlines⟩ := List.forall_mem_cons.mp hlines
        refine ⟨(b :: line) :: lines, tail, List.forall_mem_cons.mpr ⟨hcons hline, hlines⟩, htail,
          ?_⟩
        rw [ended_cons, ended_cons]
        rfl

/-- The last character of lines that have their ends. -/
theorem getLast?_ended (hne : lines ≠ []) : (ended lines).getLast? = some 10 := by
  obtain ⟨lines, line, rfl⟩ := (List.eq_nil_or_concat' lines).resolve_left hne
  rw [ended_concat, List.getLast?_concat]

/-- The last character of a line that has no end. -/
theorem getLast?_tail (htail : tail ≠ []) (hmem : 10 ∉ tail) (s : Bytes) :
    (s ++ tail).getLast? ≠ some 10 := by
  rw [List.getLast?_append_of_ne_nil s htail]
  exact fun hlast => hmem (List.mem_of_getLast? hlast)

/-- No line has an end in it. -/
theorem not_mem_of_mem_getLines {s : Bytes} (hline : line ∈ getLines s) : 10 ∉ line := by
  obtain ⟨lines, tail, hlines, htail, rfl⟩ := exists_ended s
  rw [getLines_ended hlines htail] at hline
  rcases List.mem_append.mp hline with hline | hline
  · exact hlines line hline
  · split at hline
    · exact absurd hline List.not_mem_nil
    · rwa [List.mem_singleton.mp hline]

end Cpp
