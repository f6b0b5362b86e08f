import Mathlib.Data.Int.Bitwise
import Mathlib.Tactic.FinCases
import ClickA.Python.Binary

/-!
# Optical symbols

`txPacket.pack` of `tx_packet.py`: the bits of a transmission are cut into the symbols that the
modulator takes, between two control symbols that set its order.

## Main definitions

* `ascii2bits`, `bits2ascii`: bytes as binary digits, and back
* `control`: the symbol that sets the order
* `setter`: the bits of a symbol
* `TxPacket.pack`: the symbols of a transmission

## Main results

* `bits2ascii_ascii2bits`: the digits give the bytes back
* `TxPacket.pack_eq`: the symbols of bytes, at an order that has a control symbol
* `lossless`: what `pack` makes of bytes is framed, in range, and tells bytes apart
-/

namespace ClickA.Optical

open Python

/-! ## Bytes as binary digits -/

/-- `bin(ord(x))[2:].zfill(8)`. -/
def byteBits (x : UInt8) : Bytes := zfill 8 (binDigits x.toNat)

def ascii2bits (s : Bytes) : Bytes := (s.map byteBits).flatten

def bits2ascii (s : Bytes) : Except Exn Bytes :=
  (slices 8 s).mapM fun s => do
    let n ← int2 s
    chr n

section Digits

variable {s s' : Bytes}

theorem all_byteBits (x : UInt8) : (byteBits x).all isBit := by
  rw [byteBits, zfill_of_bits 8 (all_binDigits _)]
  exact all_zeros _ (all_binDigits _)

@[simp] theorem length_byteBits (x : UInt8) : (byteBits x).length = 8 :=
  length_zfill_of_bits (all_binDigits _) (length_binDigits_le (by decide) x.toNat_lt)

@[simp] theorem bitsToNat_byteBits (x : UInt8) : bitsToNat (byteBits x) = x.toNat := by
  rw [byteBits, zfill_of_bits 8 (all_binDigits _), bitsToNat_zeros, bitsToNat_binDigits]

theorem all_ascii2bits (s : Bytes) : (ascii2bits s).all isBit := by
  rw [List.all_eq_true]
  intro b hb
  obtain ⟨part, hpart, hb⟩ := List.mem_flatten.mp hb
  obtain ⟨x, -, rfl⟩ := List.mem_map.mp hpart
  exact List.all_eq_true.mp (all_byteBits x) b hb

@[simp] theorem length_ascii2bits (s : Bytes) : (ascii2bits s).length = 8 * s.length := by
  induction s with
  | nil => rfl
  | cons x s ih =>
    rw [ascii2bits, List.map_cons, List.flatten_cons, List.length_append, length_byteBits,
      ← ascii2bits, ih, List.length_cons, Nat.mul_succ, Nat.add_comm]

theorem chr_byteBits (x : UInt8) : (do chr (← int2 (byteBits x))) = .ok x := by
  have hne : byteBits x ≠ [] := List.ne_nil_of_length_pos (by rw [length_byteBits]; decide)
  rw [int2_of_bits (all_byteBits x) hne, ok_bind, bitsToNat_byteBits, chr_toNat]

/-- The digits give the bytes back. -/
theorem bits2ascii_ascii2bits (s : Bytes) : bits2ascii (ascii2bits s) = .ok s := by
  have hslices : slices 8 (ascii2bits s) = s.map byteBits :=
    slices_flatten (by decide) fun part hpart => by
      obtain ⟨x, -, rfl⟩ := List.mem_map.mp hpart
      exact length_byteBits x
  rw [bits2ascii, hslices]
  clear hslices
  induction s with
  | nil => rfl
  | cons x s ih => rw [List.map_cons, List.mapM_cons, chr_byteBits, ok_bind, ih]; rfl

theorem ascii2bits_injective (h : ascii2bits s = ascii2bits s') : s = s' := by
  have hs := bits2ascii_ascii2bits s
  rw [h, bits2ascii_ascii2bits] at hs
  exact (Except.ok.inj hs).symm

end Digits

/-! ## Symbols -/

/-- `txPacket`: the data are bytes when `ascii` holds, and binary digits otherwise. -/
structure TxPacket where
  ppmOrder : ℕ
  data : Bytes
  ascii : Bool

/-- `int(0b1 << 7 | int("0b" + "1" * int(math.log(order) / math.log(2)), 2))`. The quotient of the
logarithms is exact at a power of two; there is no logarithm of zero. -/
def control (order : ℕ) : Except Exn ℤ :=
  if order = 0 then .error .valueError
  else do
    let ones ← int2 (Python.ascii "0b" ++ List.replicate (Nat.log 2 order) 49)
    return Int.lor (1 <<< 7) ones

/-- The bits of a symbol. The first test of the source compares in a chain, with `|` before `==`,
and its bits are those that the setter has already. -/
def setter (order : ℕ) : ℕ :=
  if order = 4 ||| order ∧ 4 ||| order = 8 ||| order ∧ 8 ||| order = 64 then 6
  else if order = 16 then 4
  else if order = 32 then 5
  else if order = 128 then 7
  else 6

/-- `int('0b' + s.zfill(8), 2)`. -/
def symbol (s : Bytes) : Except Exn ℤ := int2 (Python.ascii "0b" ++ zfill 8 s)

def TxPacket.pack (p : TxPacket) : Except Exn (List ℤ) := do
  let binaryData := if p.ascii then ascii2bits p.data else p.data
  let first ← control p.ppmOrder
  let symbols ← (slices (setter p.ppmOrder) binaryData).mapM symbol
  let last ← control p.ppmOrder
  return first :: symbols ++ [last]

/-- The orders of the modulator. -/
def orders : List ℕ := [4, 8, 16, 32, 64, 128]

example : orders.map setter = [6, 6, 4, 5, 6, 7] := by decide

example : (TxPacket.mk 16 [0xA5] true).pack = .ok [143, 10, 5, 143] := by decide +kernel

section Pack

variable {order : ℕ} {s s' : Bytes}

theorem mapM_symbol {parts : List Bytes} (hbits : ∀ s ∈ parts, s.all isBit)
    (hne : ∀ s ∈ parts, s ≠ []) :
    parts.mapM symbol = .ok (parts.map fun s => (bitsToNat s : ℤ)) := by
  induction parts with
  | nil => rfl
  | cons s parts ih =>
    have hs : symbol s = .ok (bitsToNat s : ℤ) :=
      int2_zfill (hbits s List.mem_cons_self) (hne s List.mem_cons_self)
    rw [List.mapM_cons, hs, ok_bind, ih (fun s hs => hbits s (List.mem_cons_of_mem _ hs))
      fun s hs => hne s (List.mem_cons_of_mem _ hs)]
    rfl

/-- The pieces of the data, without the padding. -/
def pieces (order : ℕ) (s : Bytes) : List Bytes := slices (setter order) (ascii2bits s)

theorem all_of_mem_pieces {part : Bytes} (hpart : part ∈ pieces order s) : part.all isBit :=
  List.all_eq_true.mpr fun b hb =>
    List.all_eq_true.mp (all_ascii2bits s) b (mem_of_mem_slices hpart hb)

/-- The symbols of bytes. -/
theorem TxPacket.pack_eq {c : ℤ} (hcontrol : control order = .ok c) (s : Bytes) :
    (TxPacket.mk order s true).pack =
      .ok (c :: (pieces order s).map (fun part => (bitsToNat part : ℤ)) ++ [c]) := by
  have hsymbols : (slices (setter order) (ascii2bits s)).mapM symbol =
      .ok ((pieces order s).map fun part => (bitsToNat part : ℤ)) :=
    mapM_symbol (fun _ => all_of_mem_pieces) fun _ => ne_nil_of_mem_slices
  simp only [TxPacket.pack, if_true, hcontrol, hsymbols, ok_bind]
  rfl

theorem exists_control (horder : order ∈ orders) :
    ∃ c : ℤ, control order = .ok c ∧ c.testBit 7 := by
  unfold orders at horder
  fin_cases horder <;> exact ⟨_, rfl, by decide +kernel⟩

theorem setter_bounds (order : ℕ) : 0 < setter order ∧ setter order ≤ 7 := by
  unfold setter
  split_ifs <;> decide

theorem symbol_lt {part : Bytes} (hpart : part ∈ pieces order s) :
    bitsToNat part < 2 ^ setter order :=
  (bitsToNat_lt (all_of_mem_pieces hpart)).trans_le
    (Nat.pow_le_pow_right Nat.two_pos (length_of_mem_slices hpart))

/-- The numbers of the pieces tell the bytes apart: their count gives the length of the bytes, and
with it the length of each piece. -/
theorem pieces_injective
    (h : (pieces order s).map bitsToNat = (pieces order s').map bitsToNat) : s = s' := by
  obtain ⟨hpos, hle⟩ := setter_bounds order
  have hlen : s.length = s'.length := by
    have hcount := congrArg List.length h
    simp only [pieces, List.length_map, length_slices, length_ascii2bits] at hcount
    exact Python.pieces_injective hpos (by omega) hcount
  refine ascii2bits_injective (slices_injective hpos ?_ ?_ h)
  · rw [length_ascii2bits, length_ascii2bits, hlen]
  · intro part hpart part' hpart' hlength hvalue
    exact bitsToNat_inj (all_of_mem_pieces hpart) (all_of_mem_pieces hpart') hlength hvalue

end Pack

/-- What `pack` makes of bytes starts and ends with one control symbol, has no other symbol with
bit 7 and none over the bits of the order, and tells bytes apart. -/
theorem lossless {order : ℕ} (horder : order ∈ orders) :
    (∀ s : Bytes, ∃ (c : ℤ) (symbols : List ℤ),
      (TxPacket.mk order s true).pack = .ok (c :: symbols ++ [c]) ∧ c.testBit 7 ∧
        ∀ x ∈ symbols, x.testBit 7 = false ∧ 0 ≤ x ∧ x < 2 ^ setter order) ∧
      ∀ s s' : Bytes, (TxPacket.mk order s true).pack = (TxPacket.mk order s' true).pack →
        s = s' := by
  obtain ⟨c, hcontrol, hbit⟩ := exists_control horder
  constructor
  · intro s
    refine ⟨c, _, TxPacket.pack_eq hcontrol s, hbit, fun x hx => ?_⟩
    obtain ⟨part, hpart, rfl⟩ := List.mem_map.mp hx
    have hlt := symbol_lt hpart
    refine ⟨Nat.testBit_lt_two_pow (hlt.trans_le ?_), Int.natCast_nonneg _, by exact_mod_cast hlt⟩
    exact Nat.pow_le_pow_right Nat.two_pos (setter_bounds order).2
  · intro s s' h
    rw [TxPacket.pack_eq hcontrol, TxPacket.pack_eq hcontrol, Except.ok.injEq,
      List.append_left_inj, List.cons.injEq] at h
    have hcast := List.map_injective_iff.mpr (Nat.cast_injective (R := ℤ))
    refine pieces_injective (@hcast ((pieces order s).map bitsToNat) _ ?_)
    rw [List.map_map, List.map_map]
    exact h.2

/-- Sixteen positions: four bits to a symbol. -/
theorem lossless_sixteen :
    (∀ s : Bytes, ∃ (c : ℤ) (symbols : List ℤ),
      (TxPacket.mk 16 s true).pack = .ok (c :: symbols ++ [c]) ∧ c.testBit 7 ∧
        ∀ x ∈ symbols, x.testBit 7 = false ∧ 0 ≤ x ∧ x < 2 ^ setter 16) ∧
      ∀ s s' : Bytes, (TxPacket.mk 16 s true).pack = (TxPacket.mk 16 s' true).pack → s = s' :=
  lossless (by decide)

end ClickA.Optical
