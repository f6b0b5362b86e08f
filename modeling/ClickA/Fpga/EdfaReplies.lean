import ClickA.Fpga.Server

/-!
# Replies of the EDFA

What the server makes of the reply to `fline`: any bytes that the UART returns. A reply without a
line end stands for a line of zeros; of another one the second line is parsed, and its numbers are
packed later, when a client reads them.

## Main definitions

* `flineReply`, `lineOf`: the reply, and the line of it that is parsed
* `Wellformed`, `Parsable`: the lines and the replies that the server survives
* `Encodable`: every register of the EDFA has a value that can be packed

## Main results

* `exists_parse`, `ten_le_of_parse`: a line is parsed when it has ten fields
* `encodable_parsed_iff`: the parsed values can be packed when three of them are in range
* `encodable_iff`: a reply leaves the registers encodable if and only if it is parsable
-/

namespace ClickA.Fpga

open Python

namespace Edfa

/-- What `fline` reads behind its command. -/
def flineReply (env : Env) : Server Bytes := do
  resetFifo env
  let _ ← writeString env (ascii "fline\r")
  let (_, reply) ← readString env
  return reply

/-- The line of a reply that is parsed. -/
def lineOf (reply : Bytes) : Bytes :=
  match splitAt 10 reply with
  -- behind the echo of the command
  | _ :: line :: _ => line
  | _ => (List.replicate edfaParsedBlock.length (ascii "0 ")).flatten

/-- A field that is a number of 32 bits without a sign, or none. -/
def Fits (field : Bytes) : Prop := ∀ n, intOf field = .ok n → 0 ≤ n ∧ n < 2 ^ 32

/-- A line has ten fields, and the currents and the power in it are no numbers out of range. -/
structure Wellformed (fields : List Bytes) : Prop where
  ten : 10 ≤ fields.length
  preCurrent : ∀ field, fields[6]? = some field → Fits field
  prePower : ∀ field, fields[7]? = some field → Fits field
  pumpCurrent : ∀ field, fields[8]? = some field → field = ascii "LOW" ∨ Fits field

/-- The reply has one line only, or its second line is well formed. -/
def Parsable (reply : Bytes) : Prop :=
  ∀ line, (splitAt 10 reply)[1]? = some line → Wellformed (split line)

end Edfa

open Edfa

/-- Every register of the EDFA has a value that an answer can carry. -/
def Encodable (regs : Edfa.Regs) : Prop :=
  ∀ addr ∈ edfaParsedBlock, ∃ value raw, regs addr = some value ∧ encodeReg addr value = .ok raw

/-! ## The reply -/

section Reply

variable {env : Env} {w : World}

/-- The UART is read to an end, whatever it returns. -/
theorem exists_flineReply (env : Env) (w : World) :
    ∃ reply w', flineReply env w = .ok reply w' := by
  have hends : Ends (flineReply env) w :=
    (runs_resetFifo env w).bind fun _ w₁ _ => (runs_writeString env _ w₁).bind fun _ w₂ _ =>
      (runs_readString env w₂).bind fun _ _ _ => trivial
  obtain ⟨reply, w', h, -⟩ := ensures_iff.mp hends
  exact ⟨reply, w', h⟩

theorem fline_eq (env : Env) : fline env = (do
    let reply ← flineReply env
    return lineOf reply) := by
  unfold fline flineReply lineOf
  simp only [bind_assoc, pure_bind]
  refine bind_congr fun _ => bind_congr fun _ => bind_congr fun p => ?_
  obtain ⟨_, reply⟩ := p
  dsimp only
  rcases splitAt 10 reply with _ | ⟨_, _ | ⟨_, _⟩⟩ <;> rfl

/-- The registers are those of the line. -/
theorem updateEdfa_iff {Q : Edfa.Regs → World → Prop} {regs : Edfa.Regs} {reply : Bytes}
    {w' : World} (h : flineReply env w = .ok reply w') :
    Ensures (updateEdfa env regs) Q w ↔
      ∃ regs', parse regs (split (lineOf reply)) = .ok regs' ∧ Q regs' w' := by
  unfold updateEdfa
  rw [Ensures, fline_eq, wp_bind, wp_bind, wp_of_ok h, wp_pure]
  cases parse regs (split (lineOf reply)) with
  | error e => simp
  | ok regs' => simp

end Reply

/-! ## The fields -/

section Fields

variable {regs regs' : Edfa.Regs} {fields : List Bytes}

theorem lt_of_index {α : Type} {l : List α} {i : ℕ} {a : α} (h : index l i = .ok a) :
    i < l.length := by
  by_contra hle
  rw [index_of_le (Nat.le_of_not_lt hle)] at h
  cases h

/-- The last field is looked at whatever the others are. -/
theorem ten_le_of_parse (h : parse regs fields = .ok regs') : 10 ≤ fields.length := by
  unfold parse at h
  obtain ⟨_, -, h⟩ := bind_eq_ok.mp h
  obtain ⟨_, -, h⟩ := bind_eq_ok.mp h
  obtain ⟨_, -, h⟩ := bind_eq_ok.mp h
  obtain ⟨_, -, h⟩ := bind_eq_ok.mp h
  obtain ⟨_, -, h⟩ := bind_eq_ok.mp h
  obtain ⟨_, -, h⟩ := bind_eq_ok.mp h
  obtain ⟨_, hcaseTemp, -⟩ := bind_eq_ok.mp h
  -- the case temperature is the tenth field
  exact lt_of_index hcaseTemp

/-- The value of a word is one of its table. -/
theorem lookup_eq (table : List (Bytes × ℤ)) (default : ℤ) (word : Bytes) :
    ∃ n ∈ default :: table.map Prod.snd, lookup table default word = .int n := by
  unfold lookup
  cases h : table.lookup word with
  | none => exact ⟨default, List.mem_cons_self, rfl⟩
  | some n =>
    obtain ⟨front, back, htable, -⟩ := List.lookup_eq_some_iff.mp h
    exact ⟨n, List.mem_cons_of_mem _ (by rw [htable]; simp), rfl⟩

/-- The number of a field, or the greatest one. -/
def numberOf (field : Bytes) : ℤ := tryElse (intOf field) 0xFFFFFFFF

theorem numberOf_bounds_iff (field : Bytes) :
    0 ≤ numberOf field ∧ numberOf field < 256 ^ 4 ↔ Fits field := by
  unfold numberOf Fits tryElse
  cases intOf field with
  | error e => simp
  | ok n => simp

/-- What a line of ten fields is parsed into. -/
structure Parsed (f : ℕ → Bytes) (regs : Edfa.Regs) : Prop where
  enPin : ∃ n ∈ [(2 : ℤ), 0, 1], regs edfaEnPin = some (.int n)
  mode : ∃ n ∈ [(0 : ℤ), edfaModeAcc, edfaModeAopc, edfaModeApc], regs edfaMode = some (.int n)
  diodeOn : ∃ n ∈ [(2 : ℤ), 0, 1], regs edfaDiodeOn = some (.int n)
  mysteryTemp : ∃ x, regs edfaMysteryTemp = some (.float x)
  powerIn : ∃ x, regs edfaPowerIn = some (.float x)
  powerOut : ∃ x, regs edfaPowerOut = some (.float x)
  preCurrent : regs edfaPreCurrent = some (.int (numberOf (f 6)))
  prePower : regs edfaPrePower = some (.int (numberOf (f 7)))
  pumpCurrent : regs edfaPumpCurrent =
    some (.int (if f 8 = ascii "LOW" then 0 else numberOf (f 8)))
  caseTemp : ∃ x, regs edfaCaseTemp = some (.float x)

/-- A line of ten fields is parsed. -/
theorem exists_parse (regs : Edfa.Regs) (h : 10 ≤ fields.length) :
    ∃ regs', parse regs fields = .ok regs' ∧ Parsed (fun i => fields[i]?.getD []) regs' := by
  obtain ⟨f₀, f₁, f₂, f₃, f₄, f₅, f₆, f₇, f₈, f₉, rest, rfl⟩ :
      ∃ f₀ f₁ f₂ f₃ f₄ f₅ f₆ f₇ f₈ f₉ rest,
        fields = f₀ :: f₁ :: f₂ :: f₃ :: f₄ :: f₅ :: f₆ :: f₇ :: f₈ :: f₉ :: rest := by
    match fields, h with
    | f₀ :: f₁ :: f₂ :: f₃ :: f₄ :: f₅ :: f₆ :: f₇ :: f₈ :: f₉ :: rest, _ =>
      exact ⟨f₀, f₁, f₂, f₃, f₄, f₅, f₆, f₇, f₈, f₉, rest, rfl⟩
  obtain ⟨enPin, henPin, hlookup⟩ := lookup_eq [(ascii "EL", 0), (ascii "HL", 1)] 2 f₀
  obtain ⟨mode, hmode, hlookup'⟩ := lookup_eq
    [(ascii "ACC", edfaModeAcc), (ascii "AOPC", edfaModeAopc), (ascii "APC", edfaModeApc)] 0 f₁
  obtain ⟨diodeOn, hdiodeOn, hlookup''⟩ := lookup_eq [(ascii "LDOFF", 0), (ascii "LDON", 1)] 2 f₂
  refine ⟨_, rfl, ⟨enPin, henPin, congrArg some hlookup⟩, ⟨mode, hmode, congrArg some hlookup'⟩,
    ⟨diodeOn, hdiodeOn, congrArg some hlookup''⟩, ⟨_, rfl⟩, ⟨_, rfl⟩, ⟨_, rfl⟩, rfl, rfl, rfl,
    ⟨_, rfl⟩⟩

end Fields

/-! ## What can be packed -/

section Encode

variable {regs regs' : Edfa.Regs} {addr : ℕ} {f : ℕ → Bytes}

/-- A register has a value that an answer can carry. -/
def Encodes (regs : Edfa.Regs) (addr : ℕ) : Prop :=
  ∃ value raw, regs addr = some value ∧ encodeReg addr value = .ok raw

theorem encodes_float (htype : registerType addr = .codes [.f])
    (h : ∃ x, regs addr = some (.float x)) : Encodes regs addr := by
  obtain ⟨x, hx⟩ := h
  obtain ⟨raw, hraw⟩ := exists_encodeReg_float htype x
  exact ⟨_, raw, hx, hraw⟩

theorem encodes_int_iff {cs : List Code} {k : ℕ} {n : ℤ} (hcs : IntFormat cs k)
    (htype : registerType addr = .codes cs) (h : regs addr = some (.int n)) :
    Encodes regs addr ↔ 0 ≤ n ∧ n < 256 ^ k := by
  rw [← encodeReg_int_iff hcs htype]
  constructor
  · rintro ⟨value, raw, hvalue, hraw⟩
    obtain rfl := Option.some.inj (h.symm.trans hvalue)
    exact ⟨raw, hraw⟩
  · rintro ⟨raw, hraw⟩
    exact ⟨_, raw, h, hraw⟩

/-- The value of a word is a byte. -/
theorem encodes_word {ns : List ℤ} (htype : registerType addr = .codes [.x, .x, .x, .B])
    (hns : ∀ n ∈ ns, 0 ≤ n ∧ n < 256 ^ 1) (h : ∃ n ∈ ns, regs addr = some (.int n)) :
    Encodes regs addr := by
  obtain ⟨n, hn, hregs⟩ := h
  exact (encodes_int_iff .byte htype hregs).mpr (hns n hn)

/-- The registers of the EDFA, by their names. -/
theorem encodable_iff_encodes : Encodable regs ↔ Encodes regs edfaEnPin ∧ Encodes regs edfaMode ∧
    Encodes regs edfaDiodeOn ∧ Encodes regs edfaMysteryTemp ∧ Encodes regs edfaPowerIn ∧
      Encodes regs edfaPowerOut ∧ Encodes regs edfaPreCurrent ∧ Encodes regs edfaPrePower ∧
        Encodes regs edfaPumpCurrent ∧ Encodes regs edfaCaseTemp := by
  have hblock : edfaParsedBlock = [edfaEnPin, edfaMode, edfaDiodeOn, edfaMysteryTemp, edfaPowerIn,
      edfaPowerOut, edfaPreCurrent, edfaPrePower, edfaPumpCurrent, edfaCaseTemp] := rfl
  show (∀ addr ∈ edfaParsedBlock, Encodes regs addr) ↔ _
  rw [hblock]
  simp only [List.forall_mem_cons, List.not_mem_nil, false_imp_iff, implies_true, and_true]

/-- The parsed values can be packed when three of them are in range. -/
theorem encodable_parsed_iff (h : Parsed f regs) : Encodable regs ↔
    Fits (f 6) ∧ Fits (f 7) ∧ (f 8 = ascii "LOW" ∨ Fits (f 8)) := by
  have hpump : 0 ≤ (if f 8 = ascii "LOW" then 0 else numberOf (f 8)) ∧
      (if f 8 = ascii "LOW" then 0 else numberOf (f 8)) < 256 ^ 4 ↔
        f 8 = ascii "LOW" ∨ Fits (f 8) := by
    split
    · next hlow => simp [hlow]
    · next hlow => rw [numberOf_bounds_iff, or_iff_right hlow]
  rw [encodable_iff_encodes, encodes_int_iff .long (by decide) h.preCurrent,
    encodes_int_iff .long (by decide) h.prePower, encodes_int_iff .long (by decide) h.pumpCurrent,
    numberOf_bounds_iff, numberOf_bounds_iff, hpump]
  have henPin := encodes_word (by decide) (by decide) h.enPin
  have hmode := encodes_word (by decide) (by decide) h.mode
  have hdiodeOn := encodes_word (by decide) (by decide) h.diodeOn
  have hmysteryTemp := encodes_float (by decide) h.mysteryTemp
  have hpowerIn := encodes_float (by decide) h.powerIn
  have hpowerOut := encodes_float (by decide) h.powerOut
  have hcaseTemp := encodes_float (by decide) h.caseTemp
  tauto

end Encode

/-! ## Lines and replies -/

section Lines

variable {regs : Edfa.Regs} {fields : List Bytes} {reply : Bytes}

/-- A line is parsed into values that can be packed when it is well formed. -/
theorem parse_encodable_iff (regs : Edfa.Regs) (fields : List Bytes) :
    (∃ regs', parse regs fields = .ok regs' ∧ Encodable regs') ↔ Wellformed fields := by
  have hfield {P : Bytes → Prop} {i : ℕ} (hten : 10 ≤ fields.length) (hi : i < 10) :
      P (fields[i]?.getD []) ↔ ∀ field, fields[i]? = some field → P field := by
    rw [List.getElem?_eq_getElem (by omega)]
    simp
  constructor
  · rintro ⟨regs', hparse, hencodable⟩
    have hten := ten_le_of_parse hparse
    obtain ⟨regs'', hparse', hparsed⟩ := exists_parse regs hten
    obtain rfl := Except.ok.inj (hparse.symm.trans hparse')
    obtain ⟨hpre, hpower, hpump⟩ := (encodable_parsed_iff hparsed).mp hencodable
    exact ⟨hten, (hfield hten (by decide)).mp hpre, (hfield hten (by decide)).mp hpower,
      (hfield (P := fun field => field = ascii "LOW" ∨ Fits field) hten (by decide)).mp hpump⟩
  · rintro ⟨hten, hpre, hpower, hpump⟩
    obtain ⟨regs', hparse, hparsed⟩ := exists_parse regs hten
    refine ⟨regs', hparse, (encodable_parsed_iff hparsed).mpr ⟨?_, ?_, ?_⟩⟩
    · exact (hfield hten (by decide)).mpr hpre
    · exact (hfield hten (by decide)).mpr hpower
    · exact (hfield (P := fun field => field = ascii "LOW" ∨ Fits field) hten (by decide)).mpr hpump

/-- The line of zeros is well formed. -/
theorem wellformed_zeros :
    Wellformed (split (List.replicate edfaParsedBlock.length (ascii "0 ")).flatten) := by
  have hsplit : split (List.replicate edfaParsedBlock.length (ascii "0 ")).flatten =
      List.replicate 10 (ascii "0") := by decide +kernel
  have hfits : Fits (ascii "0") := fun n hn => by
    obtain rfl : (0 : ℤ) = n := Except.ok.inj hn
    decide
  have hfield {i : ℕ} {field : Bytes} (h : (List.replicate 10 (ascii "0"))[i]? = some field) :
      Fits field := by
    rw [List.eq_of_mem_replicate (List.mem_of_getElem? h)]
    exact hfits
  rw [hsplit]
  exact ⟨by decide, fun _ => hfield, fun _ => hfield, fun _ h => .inr (hfield h)⟩

/-- The line that is taken is well formed exactly when the reply is parsable. -/
theorem wellformed_lineOf_iff : Wellformed (split (lineOf reply)) ↔ Parsable reply := by
  unfold lineOf Parsable
  -- the line of zeros stands for a reply without a second line
  rcases splitAt 10 reply with _ | ⟨_, _ | ⟨line, _⟩⟩
  · simp [wellformed_zeros]
  · simp [wellformed_zeros]
  · simp

end Lines

/-- **A reply leaves the registers encodable exactly when it is parsable**: whatever the FPGA
returns, the UART is read, and the rest is up to the bytes that came. -/
theorem encodable_iff (env : Env) (regs : Edfa.Regs) (w : World) :
    ∃ reply w', flineReply env w = .ok reply w' ∧
      (Ensures (updateEdfa env regs) (fun regs' _ => Encodable regs') w ↔ Parsable reply) := by
  obtain ⟨reply, w', hreply⟩ := exists_flineReply env w
  refine ⟨reply, w', hreply, ?_⟩
  rw [updateEdfa_iff hreply, parse_encodable_iff, wellformed_lineOf_iff]

/-- An FPGA whose UART is empty at first, takes the command with twelve transfers, and then
returns a text. -/
def replying (text : Bytes) : Env where
  reply := fun i out =>
    if out.length = 6 then
      [0, 0, 0, text.getD (i - 14) 0, 0, if i - 13 = text.length then 2 else 0]
    else List.replicate out.length (if i = 0 then 2 else if i < 13 then 0x40 else 0)
  length_reply := fun i out => by
    split
    · next h => exact h.symm
    · exact List.length_replicate
  clock := fun _ => 1.0
  patience := fun _ => 1

/-- The echo of the command, and a line of three fields. -/
def shortReply : Bytes := ascii "fline\r\nHL ACC LDON\r\n"

/-- A line of three fields is not parsed. -/
theorem not_encodable_short : ∃ w', flineReply (replying shortReply) ⟨[], []⟩ = .ok shortReply w' ∧
    ¬ Ensures (updateEdfa (replying shortReply) fun _ => none) (fun regs' _ => Encodable regs')
      ⟨[], []⟩ := by
  obtain ⟨w', hreply⟩ := exists_of_returned (x := flineReply (replying shortReply)) (s := ⟨[], []⟩)
    (a := shortReply) (by decide +kernel)
  refine ⟨w', hreply, ?_⟩
  rw [updateEdfa_iff hreply]
  rintro ⟨regs', hparse, -⟩
  have hfields : (split (lineOf shortReply)).length = 3 := by decide +kernel
  have hten := ten_le_of_parse hparse
  omega

end ClickA.Fpga
