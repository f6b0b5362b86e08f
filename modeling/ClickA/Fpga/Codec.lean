import ClickA.Fpga.Map

/-!
# Register values

How the values of registers are packed into the data of an answer, and unpacked from the data of a
request: four bytes each, by the type of the register.

## Main definitions

* `encodeReg`, `encodePayload`: `_encode_reg` and `_encode_payload`
* `decodeReg`, `decodeRegs`: the values of a request

## Main results

* `length_encodeRegs`, `length_encodePayload_mod`: the length of encoded data
* `encodeRegs_eq_ok_iff`: a list is encoded when each of its values is
* `decodeRegs_spec`: the values of a request, register by register
-/

namespace ClickA.Fpga

open Python

/-! ## Encoding -/

/-- The data of an answer: a string, or a list of values. -/
inductive Payload
  | str (b : Bytes)
  | list (vs : List Value)

/-- `_encode_reg`. -/
def encodeReg (addr : ℕ) (value : Value) : Except Exn Bytes := do
  let fmt ← (registerType addr).format
  pack fmt [value]

/-- The list branch of `_encode_payload`. -/
def encodeRegs : ℕ → List Value → Except Exn Bytes
  | _, [] => .ok []
  | addr, value :: values => do
    let raw ← encodeReg addr value
    let rest ← encodeRegs (addr + 1) values
    return raw ++ rest

/-- A string, filled up to a multiple of four bytes. -/
def padded (b : Bytes) : Bytes := b ++ List.replicate ((4 - b.length % 4) % 4) 88

/-- `_encode_payload`. A list plus a string raises. -/
def encodePayload (addr : ℕ) : Payload → Except Exn Bytes
  | .str b =>
    if registerType addr = .str then do
      let lstr ← pack (native [.I]) [.int b.length]
      return lstr ++ padded b
    else if b = [] then .ok []
    else encodeReg addr (.str b)
  | .list vs => if registerType addr = .str then .error .typeError else encodeRegs addr vs

/-! ## Decoding -/

/-- The value of one register in the data of a request; a register without a type has none. -/
def decodeReg (addr : ℕ) (pl : Bytes) : Except Exn Value := do
  let fmt ← (registerType addr).format
  match ← unpack fmt pl with
  | value :: _ => return value
  | [] => return .int 0

/-- The values of the registers from an address on. -/
def decodeRegs : List ℕ → Bytes → Except Exn (List Value)
  | [], _ => .ok []
  | addr :: addrs, writeData => do
    let value ← decodeReg addr (writeData.take 4)
    let values ← decodeRegs addrs (writeData.drop 4)
    return value :: values

/-! ## Lengths -/

section Encode

variable {addr : ℕ}

theorem length_encodeReg {value : Value} {raw : Bytes} (h : encodeReg addr value = .ok raw) :
    raw.length = 4 := by
  obtain ⟨fmt, hfmt, hpack⟩ := bind_eq_ok.mp h
  rw [length_of_pack hpack, calcsize_of_format hfmt]

/-- A list takes four bytes for each value. -/
theorem length_encodeRegs {values : List Value} {raw : Bytes}
    (h : encodeRegs addr values = .ok raw) : raw.length = 4 * values.length := by
  induction values generalizing addr raw with
  | nil =>
    obtain rfl := Except.ok.inj h
    rfl
  | cons value values ih =>
    rw [encodeRegs] at h
    obtain ⟨first, hfirst, h⟩ := bind_eq_ok.mp h
    obtain ⟨rest, hrest, h⟩ := bind_eq_ok.mp h
    obtain rfl := Except.ok.inj h
    rw [List.length_append, length_encodeReg hfirst, ih hrest, List.length_cons]
    omega

theorem length_padded_mod (b : Bytes) : (padded b).length % 4 = 0 := by
  rw [padded, List.length_append, List.length_replicate]
  omega

theorem length_encodePayload_mod {data : Payload} {raw : Bytes}
    (h : encodePayload addr data = .ok raw) : raw.length % 4 = 0 := by
  cases data with
  | str b =>
    rw [encodePayload] at h
    split_ifs at h with hstr hnil
    · obtain ⟨lstr, hlstr, h⟩ := bind_eq_ok.mp h
      obtain rfl := Except.ok.inj h
      have hlen : lstr.length = 4 := length_of_pack hlstr
      have hmod := length_padded_mod b
      rw [List.length_append]
      omega
    · obtain rfl := Except.ok.inj h
      rfl
    · rw [length_encodeReg h]
  | list vs =>
    rw [encodePayload] at h
    split_ifs at h
    rw [length_encodeRegs h]
    omega

/-- A list is encoded when each of its values is, by the type of its place. -/
theorem encodeRegs_eq_ok_iff {values : List Value} :
    (∃ raw, encodeRegs addr values = .ok raw) ↔
      ∀ i (h : i < values.length), ∃ raw, encodeReg (addr + i) values[i] = .ok raw := by
  induction values generalizing addr with
  | nil => simp [encodeRegs]
  | cons value values ih =>
    constructor
    · rintro ⟨raw, h⟩ i hi
      rw [encodeRegs] at h
      obtain ⟨first, hfirst, h⟩ := bind_eq_ok.mp h
      obtain ⟨rest, hrest, -⟩ := bind_eq_ok.mp h
      cases i with
      | zero => exact ⟨first, hfirst⟩
      | succ i =>
        have hi' := ih.mp ⟨rest, hrest⟩ i (by simpa using hi)
        rwa [Nat.add_right_comm] at hi'
    · intro h
      obtain ⟨first, hfirst⟩ := h 0 (Nat.zero_lt_succ _)
      obtain ⟨rest, hrest⟩ := ih.mpr fun i hi => by
        have hi' := h (i + 1) (by simpa using hi)
        rwa [← Nat.add_assoc, Nat.add_right_comm] at hi'
      exact ⟨first ++ rest, bind_eq_ok.mpr ⟨first, hfirst, bind_eq_ok.mpr ⟨rest, hrest, rfl⟩⟩⟩

theorem encodeReg_of_type {cs : List Code} (h : registerType addr = .codes cs) (value : Value) :
    encodeReg addr value = pack (native cs) [value] := by
  rw [encodeReg, h]
  rfl

/-- The formats of integers: `xxxB`, `xxH` and `I`. -/
inductive IntFormat : List Code → ℕ → Prop
  | byte : IntFormat [.x, .x, .x, .B] 1
  | short : IntFormat [.x, .x, .H] 2
  | long : IntFormat [.I] 4

/-- A register of integers takes those of its range. -/
theorem encodeReg_int_iff {cs : List Code} {k : ℕ} {n : ℤ} (hcs : IntFormat cs k)
    (h : registerType addr = .codes cs) :
    (∃ raw, encodeReg addr (.int n) = .ok raw) ↔ 0 ≤ n ∧ n < 256 ^ k := by
  have hpack : (∃ raw, packInt true k n = .ok raw) ↔ 0 ≤ n ∧ n < 256 ^ k := by
    unfold packInt
    split
    · next h => exact iff_of_true ⟨_, rfl⟩ h
    · next h => exact iff_of_false (by simp) h
  rw [← hpack, encodeReg_of_type h]
  cases hn : packInt true k n with
  | error e => cases hcs <;> simp [pack, packFrom, packOne, hn]
  | ok raw => cases hcs <;> simp [pack, packFrom, packOne, hn]

/-- A register of a float takes every float. -/
theorem exists_encodeReg_float (h : registerType addr = .codes [.f]) (x : Float) :
    ∃ raw, encodeReg addr (.float x) = .ok raw := by
  rw [encodeReg_of_type h]
  exact ⟨_, rfl⟩

end Encode

/-! ## The values of a request -/

section Decode

variable {addr : ℕ}

theorem decodeReg_int {cs : List Code} {k : ℕ} {pl : Bytes} (hcs : IntFormat cs k)
    (h : registerType addr = .codes cs) (hlen : pl.length = 4) :
    ∃ n : ℕ, decodeReg addr pl = .ok (.int n) ∧ n < 256 ^ k := by
  have hlt (i : ℕ) : leNat ((pl.drop i).take k) < 256 ^ k :=
    (leNat_lt _).trans_le (Nat.pow_le_pow_right (by decide) (List.length_take_le _ _))
  cases hcs with
  | byte =>
    refine ⟨_, ?_, hlt 3⟩
    simp [decodeReg, h, RegisterType.format, unpack, hlen, calcsize, endFrom, unpackFrom, gap,
      unpackOne, Code.align, Code.size]
  | short =>
    refine ⟨_, ?_, hlt 2⟩
    simp [decodeReg, h, RegisterType.format, unpack, hlen, calcsize, endFrom, unpackFrom, gap,
      unpackOne, Code.align, Code.size]
  | long =>
    refine ⟨_, ?_, hlt 0⟩
    simp [decodeReg, h, RegisterType.format, unpack, hlen, calcsize, endFrom, unpackFrom, gap,
      unpackOne, Code.align, Code.size]

theorem decodeReg_float {pl : Bytes} (h : registerType addr = .codes [.f]) (hlen : pl.length = 4) :
    ∃ x, decodeReg addr pl = .ok (.float x) := by
  have hunpack : unpack (native [.f]) pl = .ok (unpackFrom true 0 [.f] pl) := if_pos hlen
  unfold decodeReg
  rw [h]
  show ∃ x, (unpack (native [.f]) pl >>= _) = _
  rw [hunpack]
  exact ⟨_, rfl⟩

/-- What holds of each register's value holds of the values of a request. -/
theorem decodeRegs_spec {P : ℕ → Value → Prop} {addrs : List ℕ} {data : Bytes}
    (h : ∀ addr ∈ addrs, ∀ pl : Bytes, pl.length = 4 → ∃ v, decodeReg addr pl = .ok v ∧ P addr v)
    (hlen : data.length = 4 * addrs.length) :
    ∃ values, decodeRegs addrs data = .ok values ∧ List.Forall₂ P addrs values := by
  induction addrs generalizing data with
  | nil => exact ⟨[], rfl, .nil⟩
  | cons addr addrs ih =>
    rw [List.length_cons] at hlen
    obtain ⟨v, hv, hp⟩ := h addr List.mem_cons_self (data.take 4) (by rw [List.length_take]; omega)
    obtain ⟨values, hvalues, hps⟩ := ih (fun a ha => h a (List.mem_cons_of_mem _ ha))
      (by rw [List.length_drop]; omega : (data.drop 4).length = 4 * addrs.length)
    refine ⟨v :: values, ?_, .cons hp hps⟩
    rw [decodeRegs, hv, ok_bind, hvalues]
    rfl

end Decode

end ClickA.Fpga
