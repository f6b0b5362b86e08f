import ClickA.Python.Struct
import Mathlib.Data.List.TakeWhile

/-!
# The module `csv`

The reader and the writer of Python 2, with the dialect `excel`: the delimiter is a comma, a field
is quoted if it has to be, a quote in it is doubled, and a row ends with a carriage return and a
newline. The reader goes through the lines of a file with a machine of six states.

## Main definitions

* `writeField`, `writeRow`: `writerow`
* `State`, `Reader`, `processChar`: `parse_process_char`
* `readRows`: the rows of a file

## Main results

* `readRows_lines_cons`, `readRows_lines_newline`: the rows of a text, character by character
* `readRows_writeRow`: what is written as a row is read as one
* `reader_flatMap_writeRow`: rows that are written are read back
-/

namespace Python.Csv

/-- `csv.Error` and `ValueError`. -/
inductive Error
  | csvError
  | valueError
deriving DecidableEq, Repr

/-- `field_limit`. -/
def fieldLimit : ℕ := 131072

def comma : UInt8 := 44
def quote : UInt8 := 34
def cr : UInt8 := 13
def nl : UInt8 := 10

/-! ## The writer -/

/-- The characters that a field is quoted for. -/
def special (c : UInt8) : Bool := c = comma || c = quote || c = cr || c = nl

/-- A quote is doubled. -/
def double (c : UInt8) : Bytes := if c = quote then [quote, quote] else [c]

/-- `join_append`: a field ends before a NUL, and an empty one is quoted if it is asked for. -/
def writeField (quoteEmpty : Bool) (field : Bytes) : Bytes :=
  let data := field.takeWhile (· ≠ 0)
  if data.any special || (data.isEmpty && quoteEmpty) then
    quote :: (data.flatMap double ++ [quote])
  else data

/-- Fields with delimiters between them. -/
def join : List Bytes → Bytes
  | [] => []
  | [field] => field
  | field :: field' :: fields => field ++ comma :: join (field' :: fields)

/-- `writerow`. The field of a row that has no other is quoted if it is empty. -/
def writeRow (row : List Bytes) : Bytes :=
  join (row.map (writeField (row.length = 1))) ++ [cr, nl]

/-! ## The reader -/

/-- The states of the reader that the dialect uses. -/
inductive State
  | startRecord
  | startField
  | inField
  | inQuotedField
  | quoteInQuotedField
  | eatCrnl
deriving DecidableEq, Repr

/-- The reader: its state, the field it reads, and the fields before it. -/
structure Reader where
  state : State
  field : Bytes
  fields : List Bytes
deriving DecidableEq, Repr

/-- `parse_reset`. -/
def Reader.init : Reader := ⟨.startRecord, [], []⟩

/-- `parse_save_field`, into a state. -/
def Reader.save (r : Reader) (state : State) : Reader := ⟨state, [], r.fields ++ [r.field]⟩

/-- `parse_add_char`, into a state. -/
def Reader.add (r : Reader) (state : State) (c : UInt8) : Except Error Reader :=
  if r.field.length ≥ fieldLimit then .error .csvError
  else .ok { r with state := state, field := r.field ++ [c] }

/-- A character in the state `START_FIELD`. The end of a line is `none`. -/
def startField (r : Reader) : Option UInt8 → Except Error Reader
  | none => .ok (r.save .startRecord)
  | some c =>
    if c = nl ∨ c = cr then .ok (r.save .eatCrnl)
    else if c = quote then .ok { r with state := .inQuotedField }
    else if c = comma then .ok (r.save .startField)
    else r.add .inField c

/-- `parse_process_char`. -/
def processChar (r : Reader) (c : Option UInt8) : Except Error Reader :=
  match r.state with
  | .startRecord =>
    match c with
    | none => .ok r
    | some b =>
      if b = nl ∨ b = cr then .ok { r with state := .eatCrnl }
      else startField { r with state := .startField } c
  | .startField => startField r c
  | .inField =>
    match c with
    | none => .ok (r.save .startRecord)
    | some b =>
      if b = nl ∨ b = cr then .ok (r.save .eatCrnl)
      else if b = comma then .ok (r.save .startField)
      else r.add .inField b
  | .inQuotedField =>
    match c with
    | none => .ok r
    | some b =>
      if b = quote then .ok { r with state := .quoteInQuotedField }
      else r.add .inQuotedField b
  | .quoteInQuotedField =>
    match c with
    | none => .ok (r.save .startRecord)
    | some b =>
      if b = quote then r.add .inQuotedField b
      else if b = comma then .ok (r.save .startField)
      else if b = nl ∨ b = cr then .ok (r.save .eatCrnl)
      else r.add .inField b
  | .eatCrnl =>
    match c with
    | none => .ok { r with state := .startRecord }
    | some b => if b = nl ∨ b = cr then .ok r else .error .csvError

/-- One character of a line: none is a NUL. -/
def readChar (r : Reader) (c : UInt8) : Except Error Reader :=
  if c = 0 then .error .csvError else processChar r (some c)

/-- One line. -/
def readLine (r : Reader) (line : Bytes) : Except Error Reader := do
  let r ← line.foldlM readChar r
  processChar r none

/-- The lines of a file, each with its end. -/
def lines : Bytes → List Bytes
  | [] => []
  | b :: s =>
    if b = nl then [b] :: lines s
    else match lines s with
      | [] => [[b]]
      | line :: ls => (b :: line) :: ls

/-- The rows that are read from lines. A quoted field that the file does not end is saved. -/
def readRows : Reader → List Bytes → Except Error (List (List Bytes))
  | r, [] => .ok (if r.field ≠ [] ∨ r.state = .inQuotedField then [r.fields ++ [r.field]] else [])
  | r, line :: ls => do
    let r ← readLine r line
    if r.state = .startRecord then
      let rows ← readRows .init ls
      return r.fields :: rows
    else readRows r ls

/-- `csv.reader`, over a file. -/
def reader (text : Bytes) : Except Error (List (List Bytes)) := readRows .init (lines text)

/-! ## The rows of a text, character by character -/

section Characters

variable {r r' : Reader} {b : UInt8} {s : Bytes}

theorem lines_ne_nil (h : s ≠ []) : lines s ≠ [] := by
  cases s with
  | nil => exact absurd rfl h
  | cons b s =>
    rw [lines]
    split_ifs
    · exact List.cons_ne_nil _ _
    · cases lines s <;> exact List.cons_ne_nil _ _

/-- A character that does not end a line. -/
theorem readRows_lines_cons (hb : b ≠ nl) (hs : s ≠ []) :
    readRows r (lines (b :: s)) = readChar r b >>= fun r' => readRows r' (lines s) := by
  obtain ⟨line, ls, hls⟩ := List.exists_cons_of_ne_nil (lines_ne_nil hs)
  rw [lines, if_neg hb, hls]
  dsimp only
  rw [readRows, readLine, List.foldlM_cons]
  cases readChar r b with
  | error e => rfl
  | ok r' => rfl

/-- The end of a line: a row is read, or the field goes on. -/
theorem readRows_lines_newline : readRows r (lines (nl :: s)) = (do
    let r ← readChar r nl
    let r ← processChar r none
    if r.state = .startRecord then
      let rows ← readRows .init (lines s)
      return r.fields :: rows
    else readRows r (lines s)) := by
  rw [lines, if_pos rfl, readRows, readLine, List.foldlM_cons]
  cases readChar r nl with
  | error e => rfl
  | ok r' => rfl

theorem readRows_lines_ok (hb : b ≠ nl) (hs : s ≠ []) (h : readChar r b = .ok r') :
    readRows r (lines (b :: s)) = readRows r' (lines s) := by
  rw [readRows_lines_cons hb hs, h]
  rfl

end Characters

/-! ## What is written is read back -/

/-- A field that is written as a whole and read as a whole. -/
structure Plain (field : Bytes) : Prop where
  nul : (0 : UInt8) ∉ field
  length_le : field.length ≤ fieldLimit

instance (field : Bytes) : Decidable (Plain field) :=
  decidable_of_iff ((0 : UInt8) ∉ field ∧ field.length ≤ fieldLimit)
    ⟨fun h => ⟨h.1, h.2⟩, fun h => ⟨h.nul, h.length_le⟩⟩

/-- The states in which a field may end. -/
def State.Complete (state : State) : Prop :=
  state = .startField ∨ state = .inField ∨ state = .quoteInQuotedField

section Fields

variable {r : Reader} {field acc s : Bytes} {done : List Bytes} {b : UInt8}

/-- A row that is read, and those behind it. -/
def thenRows (row : List Bytes) (s : Bytes) : Except Error (List (List Bytes)) := do
  let rows ← readRows .init (lines s)
  return row :: rows

theorem add_of_lt {state : State} (h : r.field.length < fieldLimit) :
    r.add state b = .ok { r with state := state, field := r.field ++ [b] } :=
  if_neg (Nat.not_le.mpr h)

/-- A delimiter ends a field. -/
theorem readRows_comma (hr : r.state.Complete) (hs : s ≠ []) :
    readRows r (lines (comma :: s)) = readRows (r.save .startField) (lines s) := by
  refine readRows_lines_ok (by decide) hs ?_
  obtain ⟨state, field, fields⟩ := r
  rcases hr with h | h | h <;> · dsimp only at h; rw [h]; rfl

/-- The end of a row ends a field. -/
theorem readRows_crnl (hr : r.state.Complete) :
    readRows r (lines (cr :: nl :: s)) = thenRows (r.fields ++ [r.field]) s := by
  have hcr : readRows r (lines (cr :: nl :: s)) =
      readRows (r.save .eatCrnl) (lines (nl :: s)) := by
    refine readRows_lines_ok (by decide) (List.cons_ne_nil _ _) ?_
    obtain ⟨state, field, fields⟩ := r
    rcases hr with h | h | h <;> · dsimp only at h; rw [h]; rfl
  rw [hcr, readRows_lines_newline]
  rfl

/-- Characters of a field that is not quoted. -/
theorem readRows_inField (hplain : ∀ c ∈ field, special c = false ∧ c ≠ 0)
    (hlen : acc.length + field.length ≤ fieldLimit) (hs : s ≠ []) :
    readRows ⟨.inField, acc, done⟩ (lines (field ++ s)) =
      readRows ⟨.inField, acc ++ field, done⟩ (lines s) := by
  induction field generalizing acc with
  | nil => rw [List.nil_append, List.append_nil]
  | cons c field ih =>
    obtain ⟨hc, h0⟩ := hplain c List.mem_cons_self
    simp only [special, Bool.or_eq_false_iff, decide_eq_false_iff_not] at hc
    obtain ⟨⟨⟨hcomma, -⟩, hcr⟩, hnl⟩ := hc
    rw [List.length_cons] at hlen
    have hadd : readChar ⟨.inField, acc, done⟩ c = .ok ⟨.inField, acc ++ [c], done⟩ := by
      unfold readChar processChar
      rw [if_neg h0]
      dsimp only
      rw [if_neg (not_or.mpr ⟨hnl, hcr⟩), if_neg hcomma, add_of_lt (by dsimp only; omega)]
    rw [List.cons_append, readRows_lines_ok hnl (List.append_ne_nil_of_right_ne_nil _ hs) hadd,
      ih (fun c' hc' => hplain c' (List.mem_cons_of_mem c hc')) (by simp; omega), List.append_assoc]
    rfl

/-- Characters of a quoted field, quotes doubled. -/
theorem readRows_inQuotedField (h0 : (0 : UInt8) ∉ field)
    (hlen : acc.length + field.length ≤ fieldLimit) (hs : s ≠ []) :
    readRows ⟨.inQuotedField, acc, done⟩ (lines (field.flatMap double ++ s)) =
      readRows ⟨.inQuotedField, acc ++ field, done⟩ (lines s) := by
  induction field generalizing acc with
  | nil => rw [List.flatMap_nil, List.nil_append, List.append_nil]
  | cons c field ih =>
    obtain ⟨hc, h0⟩ := not_or.mp (mt List.mem_cons.mpr h0)
    rw [List.length_cons] at hlen
    have hlen : (acc ++ [c]).length + field.length ≤ fieldLimit := by
      rw [List.length_append, List.length_singleton]
      omega
    have hrest := ih h0 hlen
    have hne : field.flatMap double ++ s ≠ [] := List.append_ne_nil_of_right_ne_nil _ hs
    rw [List.append_assoc, List.singleton_append] at hrest
    rw [List.flatMap_cons, List.append_assoc, ← hrest, double]
    by_cases hq : c = quote
    · have hfirst : readChar ⟨.inQuotedField, acc, done⟩ quote =
          .ok ⟨.quoteInQuotedField, acc, done⟩ := rfl
      have hsecond : readChar ⟨.quoteInQuotedField, acc, done⟩ quote =
          .ok ⟨.inQuotedField, acc ++ [quote], done⟩ := by
        unfold readChar processChar
        rw [if_neg (by decide)]
        dsimp only
        rw [if_pos rfl, add_of_lt (by dsimp only; omega)]
      rw [if_pos hq, List.cons_append, List.cons_append, List.nil_append,
        readRows_lines_ok (by decide) (List.cons_ne_nil _ _) hfirst,
        readRows_lines_ok (by decide) hne hsecond, hq]
    · have hadd : readChar ⟨.inQuotedField, acc, done⟩ c =
          .ok ⟨.inQuotedField, acc ++ [c], done⟩ := by
        unfold readChar processChar
        rw [if_neg (Ne.symm hc)]
        dsimp only
        rw [if_neg hq, add_of_lt (by dsimp only; omega)]
      rw [if_neg hq, List.singleton_append]
      by_cases hnl : c = nl
      · subst hnl
        rw [readRows_lines_newline, hadd]
        rfl
      · exact readRows_lines_ok hnl hne hadd

/-- A field that is written is read up to its end. -/
theorem readRows_writeField (done : List Bytes) (q : Bool) (hfield : Plain field) (hs : s ≠ []) :
    ∃ state : State, state.Complete ∧
      readRows ⟨.startField, [], done⟩ (lines (writeField q field ++ s)) =
        readRows ⟨state, field, done⟩ (lines s) := by
  have htake : field.takeWhile (· ≠ 0) = field := by
    rw [List.takeWhile_eq_self_iff]
    intro c hc
    simpa using fun h : c = 0 => hfield.nul (h ▸ hc)
  have hlen := hfield.length_le
  unfold writeField
  rw [htake]
  dsimp only
  split_ifs with hquoted
  · have hfirst : readChar ⟨.startField, [], done⟩ quote = .ok ⟨.inQuotedField, [], done⟩ := rfl
    have hlast : readChar ⟨.inQuotedField, field, done⟩ quote =
        .ok ⟨.quoteInQuotedField, field, done⟩ := rfl
    refine ⟨.quoteInQuotedField, .inr (.inr rfl), ?_⟩
    rw [List.cons_append, List.append_assoc,
      readRows_lines_ok (by decide) (by simp) hfirst, List.singleton_append,
      readRows_inQuotedField hfield.nul (by simpa using hlen) (List.cons_ne_nil _ _),
      List.nil_append, readRows_lines_ok (by decide) hs hlast]
  · cases field with
    | nil => exact ⟨.startField, .inl rfl, rfl⟩
    | cons c field =>
      have hplain : ∀ c' ∈ c :: field, special c' = false ∧ c' ≠ 0 := by
        intro c' hc'
        refine ⟨?_, fun h => hfield.nul (h ▸ hc')⟩
        by_contra hspecial
        exact hquoted (by
          rw [Bool.or_eq_true]
          exact .inl (List.any_eq_true.mpr ⟨c', hc', by simpa using hspecial⟩))
      obtain ⟨hc, h0⟩ := hplain c List.mem_cons_self
      simp only [special, Bool.or_eq_false_iff, decide_eq_false_iff_not] at hc
      obtain ⟨⟨⟨hcomma, hquote⟩, hcr⟩, hnl⟩ := hc
      have hadd : readChar ⟨.startField, [], done⟩ c = .ok ⟨.inField, [c], done⟩ := by
        unfold readChar processChar startField
        rw [if_neg h0]
        dsimp only
        rw [if_neg (not_or.mpr ⟨hnl, hcr⟩), if_neg hquote, if_neg hcomma,
          add_of_lt (by show 0 < fieldLimit; decide)]
        rfl
      refine ⟨.inField, .inr (.inl rfl), ?_⟩
      rw [List.cons_append, readRows_lines_ok hnl (List.append_ne_nil_of_right_ne_nil _ hs) hadd,
        readRows_inField (fun c' hc' => hplain c' (List.mem_cons_of_mem c hc'))
          (by simp only [List.length_cons, List.length_nil] at hlen ⊢; omega) hs]
      rfl

end Fields

section Rows

variable {row : List Bytes} {done : List Bytes} {s : Bytes} {c : UInt8}

/-- The fields of a row, from one that begins. -/
theorem readRows_join (done : List Bytes) (s : Bytes) (q : Bool) (hrow : row ≠ [])
    (hplain : ∀ field ∈ row, Plain field) :
    readRows ⟨.startField, [], done⟩ (lines (join (row.map (writeField q)) ++ cr :: nl :: s)) =
      thenRows (done ++ row) s := by
  induction row generalizing done with
  | nil => exact absurd rfl hrow
  | cons field row ih =>
    have hfield := hplain field List.mem_cons_self
    cases row with
    | nil =>
      obtain ⟨state, hstate, hread⟩ := readRows_writeField done q hfield
        (List.cons_ne_nil cr (nl :: s))
      exact hread.trans (readRows_crnl hstate)
    | cons field' row =>
      have hrest := ih (done ++ [field]) (List.cons_ne_nil _ _) fun f hf =>
        hplain f (List.mem_cons_of_mem field hf)
      rw [List.append_assoc, List.singleton_append] at hrest
      rw [List.map_cons, List.map_cons, join, List.append_assoc, List.cons_append]
      obtain ⟨state, hstate, hread⟩ := readRows_writeField done q hfield
        (List.cons_ne_nil comma
          (join (writeField q field' :: row.map (writeField q)) ++ cr :: nl :: s))
      rw [hread,
        readRows_comma hstate (List.append_ne_nil_of_right_ne_nil _ (List.cons_ne_nil _ _))]
      exact hrest

/-- A row that does not begin with its end begins with a field. -/
theorem readRows_init (hnl : c ≠ nl) (hcr : c ≠ cr) (hs : s ≠ []) :
    readRows .init (lines (c :: s)) = readRows ⟨.startField, [], []⟩ (lines (c :: s)) := by
  have hsame : readChar .init c = readChar ⟨.startField, [], []⟩ c := by
    unfold readChar processChar Reader.init
    dsimp only
    rw [if_neg (not_or.mpr ⟨hnl, hcr⟩)]
  rw [readRows_lines_cons hnl hs, readRows_lines_cons hnl hs, hsame]

/-- What is written first is no end of a line, unless it is nothing. -/
theorem writeField_cases (q : Bool) (field : Bytes) :
    (writeField q field = [] ∧ q = false) ∨
      ∃ c t, writeField q field = c :: t ∧ c ≠ nl ∧ c ≠ cr := by
  unfold writeField
  generalize field.takeWhile (· ≠ 0) = data
  dsimp only
  split_ifs with hquoted
  · exact .inr ⟨quote, _, rfl, by decide, by decide⟩
  · rw [Bool.or_eq_true, not_or] at hquoted
    obtain ⟨hplain, hempty⟩ := hquoted
    cases data with
    | nil => exact .inl ⟨rfl, by simpa using hempty⟩
    | cons c t =>
      refine .inr ⟨c, t, rfl, ?_, ?_⟩
      all_goals
        rintro rfl
        exact hplain (by simp [special])

/-- **What is written as a row is read as one.** -/
theorem readRows_writeRow (hplain : ∀ field ∈ row, Plain field) :
    readRows .init (lines (writeRow row ++ s)) = thenRows row s := by
  rw [writeRow, List.append_assoc]
  show readRows .init (lines (join (row.map (writeField (row.length = 1))) ++ cr :: nl :: s)) = _
  have hne : ∀ t : Bytes, t ++ cr :: nl :: s ≠ [] := fun t =>
    List.append_ne_nil_of_right_ne_nil _ (List.cons_ne_nil _ _)
  cases row with
  | nil =>
    have hcr : readChar .init cr = .ok ⟨.eatCrnl, [], []⟩ := rfl
    show readRows .init (lines (cr :: nl :: s)) = _
    rw [readRows_lines_ok (by decide) (List.cons_ne_nil _ _) hcr, readRows_lines_newline]
    rfl
  | cons field row =>
    have hjoin := readRows_join [] s (decide ((field :: row).length = 1))
      (List.cons_ne_nil field row) hplain
    rw [List.nil_append] at hjoin
    rw [← hjoin]
    cases row with
    | nil =>
      rw [List.map_singleton, join]
      rcases writeField_cases (decide ([field].length = 1)) field with
        ⟨-, hq⟩ | ⟨c, t, ht, hnl, hcr⟩
      · exact absurd hq (by simp)
      · rw [ht, List.cons_append]
        exact readRows_init hnl hcr (hne t)
    | cons field' row =>
      rw [List.map_cons, List.map_cons, join, List.append_assoc]
      rcases writeField_cases (decide ((field :: field' :: row).length = 1)) field
        with ⟨hnil, -⟩ | ⟨c, t, ht, hnl, hcr⟩
      · rw [hnil, List.nil_append, List.cons_append]
        exact readRows_init (by decide) (by decide) (hne _)
      · rw [ht, List.cons_append]
        exact readRows_init hnl hcr
          (List.append_ne_nil_of_right_ne_nil _ (List.append_ne_nil_of_left_ne_nil
            (List.cons_ne_nil _ _) _))

/-- **Rows that are written are read back.** -/
theorem reader_flatMap_writeRow {rows : List (List Bytes)}
    (hplain : ∀ row ∈ rows, ∀ field ∈ row, Plain field) :
    reader (rows.flatMap writeRow) = .ok rows := by
  unfold reader
  induction rows with
  | nil => rfl
  | cons row rows ih =>
    have hrest := ih fun row' h => hplain row' (List.mem_cons_of_mem row h)
    rw [List.flatMap_cons, readRows_writeRow (hplain row List.mem_cons_self), thenRows, hrest]
    rfl

end Rows

end Python.Csv
