import ClickA.Python.Struct
import Mathlib.Logic.Function.Iterate

/-!
# Cyclic redundancy checks

The bit-by-bit CRC with the most significant bit first, no reflection and no final exclusive or,
over any polynomial, and the CRC-16/CCITT-FALSE of the bus packets.

## Main definitions

* `crcBit`, `crcByte`, `crc`: the remainder after a bit, a byte and a list of bytes
* `crc16CcittFalse`: polynomial `0x1021`, initial value `0xFFFF`
* `be16`: the big-endian bytes of a 16-bit number

## Main results

* `crcByte_table`: a byte is divided by shifting and looking up the remainder of one byte
* `crcByte_topByte`: the byte that a remainder begins with is divided away
-/

namespace Stream

open Python (Bytes)

section Crc

variable {w : ℕ} (poly : BitVec w)

/-- One step of the division. -/
def crcBit (c : BitVec w) : BitVec w := if c.msb then (c <<< 1) ^^^ poly else c <<< 1

/-- The remainder after one more byte. -/
def crcByte (c : BitVec w) (b : UInt8) : BitVec w :=
  (crcBit poly)^[8] (c ^^^ (b.toBitVec.setWidth w <<< (w - 8)))

/-- The remainder of a list of bytes, from an initial value. -/
def crc (init : BitVec w) (l : Bytes) : BitVec w := l.foldl (crcByte poly) init

end Crc

/-! ## Linearity

The division is linear, so the remainder of one byte tells how it goes on over the next. -/

section Linear

variable {w : ℕ} (poly : BitVec w)

/-- A step of the division is linear. -/
theorem crcBit_xor (a b : BitVec w) : crcBit poly (a ^^^ b) = crcBit poly a ^^^ crcBit poly b := by
  unfold crcBit
  rw [BitVec.msb_xor, BitVec.shiftLeft_xor_distrib]
  cases a.msb <;> cases b.msb
  · rfl
  · exact BitVec.xor_assoc _ _ _
  · show a <<< 1 ^^^ b <<< 1 ^^^ poly = a <<< 1 ^^^ poly ^^^ b <<< 1
    ac_rfl
  · show a <<< 1 ^^^ b <<< 1 = a <<< 1 ^^^ poly ^^^ (b <<< 1 ^^^ poly)
    calc a <<< 1 ^^^ b <<< 1 = a <<< 1 ^^^ b <<< 1 ^^^ (poly ^^^ poly) := by
          rw [BitVec.xor_self, BitVec.xor_zero]
      _ = a <<< 1 ^^^ poly ^^^ (b <<< 1 ^^^ poly) := by ac_rfl

theorem iterate_crcBit_xor (n : ℕ) (a b : BitVec w) :
    (crcBit poly)^[n] (a ^^^ b) = (crcBit poly)^[n] a ^^^ (crcBit poly)^[n] b := by
  induction n generalizing a b with
  | zero => rfl
  | succ n ih => rw [Function.iterate_succ_apply, crcBit_xor, ih, Function.iterate_succ_apply,
      Function.iterate_succ_apply]

/-- Leading zeros are only shifted. -/
theorem iterate_crcBit_of_msb {n : ℕ} {c : BitVec w} (h : ∀ i < n, (c <<< i).msb = false) :
    (crcBit poly)^[n] c = c <<< n := by
  induction n with
  | zero => simp
  | succ n ih =>
    rw [Function.iterate_succ_apply', ih fun i hi => h i (Nat.lt_succ_of_lt hi), crcBit,
      if_neg (by simp [h n (Nat.lt_succ_self n)]), ← BitVec.shiftLeft_add]

/-- The byte that a remainder begins with. -/
def topByte (c : BitVec w) : BitVec 8 := (c >>> (w - 8)).setWidth 8

/-- A byte at the beginning of a remainder. -/
def atTop (b : BitVec 8) : BitVec w := b.setWidth w <<< (w - 8)

theorem getLsbD_atTop (b : BitVec 8) (i : ℕ) (hw : 8 ≤ w) :
    (atTop b : BitVec w).getLsbD i = (decide (w - 8 ≤ i) && b.getLsbD (i - (w - 8))) := by
  unfold atTop
  rw [BitVec.getLsbD_shiftLeft, BitVec.getLsbD_setWidth]
  rcases Nat.lt_or_ge i w with hlt | hge
  · have hlt' : i - (w - 8) < w := by omega
    by_cases hle : w - 8 ≤ i
    · simp [hlt, hlt', hle, Nat.not_lt.mpr hle]
    · simp [hle, Nat.lt_of_not_le hle]
  · have hbit : b.getLsbD (i - (w - 8)) = false := BitVec.getLsbD_of_ge _ _ (by omega)
    simp [hbit]

theorem getLsbD_topByte (c : BitVec w) (i : ℕ) :
    (topByte c).getLsbD i = (decide (i < 8) && c.getLsbD (w - 8 + i)) := by
  unfold topByte
  rw [BitVec.getLsbD_setWidth, BitVec.getLsbD_ushiftRight]

theorem atTop_xor (a b : BitVec 8) : (atTop (a ^^^ b) : BitVec w) = atTop a ^^^ atTop b := by
  unfold atTop
  rw [BitVec.setWidth_xor, BitVec.shiftLeft_xor_distrib]

/-- Without the byte that it begins with, a remainder is only shifted. -/
theorem iterate_crcBit_below (hw : 8 ≤ w) (c : BitVec w) :
    (crcBit poly)^[8] (c ^^^ atTop (topByte c)) = c <<< 8 := by
  -- the byte at the top is cleared, so that no shift carries
  have hclear : ∀ i, w - 8 ≤ i → (c ^^^ atTop (topByte c)).getLsbD i = false := by
    intro i hi
    rw [BitVec.getLsbD_xor, getLsbD_atTop _ _ hw, getLsbD_topByte]
    rcases Nat.lt_or_ge i w with hlt | hge
    · have hsum : w - 8 + (i - (w - 8)) = i := by omega
      have h8 : i - (w - 8) < 8 := by omega
      simp [hi, hsum, h8]
    · have hbit : c.getLsbD i = false := BitVec.getLsbD_of_ge _ _ hge
      have h8 : ¬ i - (w - 8) < 8 := by omega
      simp [hbit, h8]
  rw [iterate_crcBit_of_msb]
  · refine BitVec.eq_of_getLsbD_eq fun i hi => ?_
    rw [BitVec.getLsbD_shiftLeft, BitVec.getLsbD_shiftLeft, BitVec.getLsbD_xor,
      getLsbD_atTop _ _ hw]
    have hlow : ¬ w - 8 ≤ i - 8 ∨ i < 8 := by omega
    rcases hlow with hlow | hlow
    · simp [hlow]
    · simp [hlow]
  · intro i hi
    rw [BitVec.msb_eq_getLsbD_last, BitVec.getLsbD_shiftLeft, hclear _ (by omega)]
    simp

theorem crcByte_eq (c : BitVec w) (b : UInt8) :
    crcByte poly c b = (crcBit poly)^[8] (c ^^^ atTop b.toBitVec) := rfl

/-- **A byte by a table**: the remainder of one byte tells how the division goes on. -/
theorem crcByte_table (hw : 8 ≤ w) (c : BitVec w) (b : UInt8) : crcByte poly c b =
    (c <<< 8) ^^^ crcByte poly 0 (UInt8.ofBitVec (topByte c ^^^ b.toBitVec)) := by
  have hsplit : c ^^^ atTop b.toBitVec =
      (c ^^^ atTop (topByte c)) ^^^ (0 ^^^ atTop (topByte c ^^^ b.toBitVec)) := by
    rw [atTop_xor, show (0 : BitVec w) = 0#w from rfl, BitVec.zero_xor]
    calc c ^^^ atTop b.toBitVec
        = c ^^^ (atTop (topByte c) ^^^ atTop (topByte c)) ^^^ atTop b.toBitVec := by
          rw [BitVec.xor_self, BitVec.xor_zero]
      _ = c ^^^ atTop (topByte c) ^^^ (atTop (topByte c) ^^^ atTop b.toBitVec) := by ac_rfl
  rw [crcByte_eq, hsplit, iterate_crcBit_xor, iterate_crcBit_below poly hw]
  rfl

theorem iterate_crcBit_zero (n : ℕ) : (crcBit poly)^[n] 0 = 0 := by
  induction n with
  | zero => rfl
  | succ n ih => rw [Function.iterate_succ_apply', ih, crcBit]; simp

theorem crcByte_zero : crcByte poly 0 0 = 0 := by
  have hzero : (0 : BitVec w) ^^^ atTop (0 : UInt8).toBitVec = 0 := by simp [atTop]
  rw [crcByte_eq, hzero, iterate_crcBit_zero]

/-- The byte that a remainder begins with is divided away. -/
theorem crcByte_topByte (hw : 8 ≤ w) (c : BitVec w) :
    crcByte poly c (UInt8.ofBitVec (topByte c)) = c <<< 8 := by
  rw [crcByte_table poly hw, show (UInt8.ofBitVec (topByte c)).toBitVec = topByte c from rfl,
    BitVec.xor_self]
  show c <<< 8 ^^^ crcByte poly 0 0 = c <<< 8
  rw [crcByte_zero]
  simp

end Linear

/-- CRC-16/CCITT-FALSE. -/
def crc16CcittFalse (l : Bytes) : ℕ := (crc (0x1021 : BitVec 16) 0xFFFF l).toNat

theorem crc16CcittFalse_lt (l : Bytes) : crc16CcittFalse l < 2 ^ 16 := BitVec.isLt _

example : crc16CcittFalse [0x31, 0x32, 0x33, 0x34, 0x35, 0x36, 0x37, 0x38, 0x39] = 0x29B1 := by
  decide +kernel

/-- The two bytes of a 16-bit number, most significant first. -/
def be16 (n : ℕ) : Bytes := [UInt8.ofNat (n / 256), UInt8.ofNat n]

@[simp] theorem length_be16 (n : ℕ) : (be16 n).length = 2 := rfl

/-- Two bytes put together by a shift and an or. -/
theorem shiftLeft_or (hi : ℕ) {lo : ℕ} (h : lo < 256) : hi <<< 8 ||| lo = hi * 256 + lo := by
  rw [← Nat.shiftLeft_add_eq_or_of_lt (i := 8) h, Nat.shiftLeft_eq]

end Stream
