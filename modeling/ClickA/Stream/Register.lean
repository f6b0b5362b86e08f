import ClickA.Python.Struct
import Mathlib.Data.List.Infix

/-!
# Scanning with a shift register

A 32-bit register into which the bytes of a stream are shifted holds the last four of them. It
equals a marker of four bytes that does not begin with zero exactly when the stream ends with the
marker.

## Main definitions

* `beNat`: the number with the given bytes, most significant first
* `shiftIn`: the register after one more byte
* `register`: the register after a list of bytes

## Main results

* `toNat_register`: the register is the number of the stream, modulo `2 ^ 32`
* `register_eq_iff`: when it equals the marker
-/

namespace Stream

open Python (Bytes)

/-- The number with the given bytes, most significant first. -/
def beNat (l : Bytes) : ℕ := l.foldl (fun n b => n * 256 + b.toNat) 0

/-- The register after one more byte. -/
def shiftIn (r : BitVec 32) (b : UInt8) : BitVec 32 := (r <<< 8) ||| b.toBitVec.setWidth 32

/-- The register after a list of bytes, from 0. -/
def register (l : Bytes) : BitVec 32 := l.foldl shiftIn 0

theorem beNat_concat (l : Bytes) (b : UInt8) : beNat (l ++ [b]) = beNat l * 256 + b.toNat := by
  simp [beNat]

theorem register_concat (l : Bytes) (b : UInt8) : register (l ++ [b]) = shiftIn (register l) b := by
  simp [register]

theorem beNat_lt (l : Bytes) : beNat l < 256 ^ l.length := by
  induction l using List.reverseRecOn with
  | nil => simp [beNat]
  | append_singleton l b ih =>
    have hb := b.toNat_lt
    rw [beNat_concat, List.length_append, List.length_singleton, Nat.pow_succ]
    omega

theorem beNat_append (p q : Bytes) : beNat (p ++ q) = beNat p * 256 ^ q.length + beNat q := by
  induction q using List.reverseRecOn with
  | nil => simp [beNat]
  | append_singleton q b ih =>
    rw [← List.append_assoc, beNat_concat, ih, beNat_concat, List.length_append,
      List.length_singleton, Nat.pow_succ]
    ring

/-- Lists of one length are determined by their numbers. -/
theorem eq_of_beNat_eq {p q : Bytes} (hlen : p.length = q.length) (h : beNat p = beNat q) :
    p = q := by
  induction p using List.reverseRecOn generalizing q with
  | nil => exact (List.length_eq_zero_iff.mp hlen.symm).symm
  | append_singleton p b ih =>
    obtain ⟨q, c, rfl⟩ : ∃ q' c, q = q' ++ [c] := by
      have hne : q ≠ [] := by
        rintro rfl
        simp at hlen
      exact ⟨_, _, (List.dropLast_append_getLast hne).symm⟩
    rw [beNat_concat, beNat_concat] at h
    have hb := b.toNat_lt
    have hc := c.toNat_lt
    have hbc : b = c := UInt8.toNat_inj.mp (by omega)
    have hpq : p = q := ih (by simpa using hlen) (by omega)
    rw [hbc, hpq]

theorem toNat_shiftIn (r : BitVec 32) (b : UInt8) :
    (shiftIn r b).toNat = (r.toNat * 256 + b.toNat) % 2 ^ 32 := by
  have hb := b.toNat_lt
  have hlow : b.toNat % 2 ^ 32 = b.toNat := Nat.mod_eq_of_lt (by omega)
  have hhigh : r.toNat <<< 8 % 2 ^ 32 = (r.toNat % 2 ^ 24) <<< 8 := by
    rw [Nat.shiftLeft_eq, Nat.shiftLeft_eq]
    omega
  rw [shiftIn, BitVec.toNat_or, BitVec.toNat_shiftLeft, BitVec.toNat_setWidth,
    UInt8.toNat_toBitVec, hlow, hhigh, ← Nat.shiftLeft_add_eq_or_of_lt hb, Nat.shiftLeft_eq]
  omega

/-- The register is the number of the stream, modulo `2 ^ 32`. -/
theorem toNat_register (l : Bytes) : (register l).toNat = beNat l % 2 ^ 32 := by
  induction l using List.reverseRecOn with
  | nil => rfl
  | append_singleton l b ih =>
    rw [register_concat, toNat_shiftIn, ih, beNat_concat]
    omega

/-- **The register equals a marker of four bytes exactly when the stream ends with it.** A marker
that does not begin with zero is not taken for a shorter stream. -/
theorem register_eq_iff {m l : Bytes} (hm : m.length = 4) (h0 : 256 ^ 3 ≤ beNat m) :
    register l = register m ↔ m <:+ l := by
  have hlt4 : beNat m < 256 ^ 4 := by
    rw [← hm]
    exact beNat_lt m
  have hmod : beNat m % 2 ^ 32 = beNat m := Nat.mod_eq_of_lt hlt4
  rw [← BitVec.toNat_inj, toNat_register, toNat_register, hmod]
  constructor
  · intro h
    rcases Nat.lt_or_ge l.length 4 with hl | hl
    · have hlt : beNat l < 256 ^ 3 :=
        (beNat_lt l).trans_le (Nat.pow_le_pow_right (by decide) (by omega))
      omega
    · have happ : l.take (l.length - 4) ++ l.drop (l.length - 4) = l := List.take_append_drop _ _
      have hlen : (l.drop (l.length - 4)).length = 4 := by
        rw [List.length_drop]
        omega
      have hlt := beNat_lt (l.drop (l.length - 4))
      have hnum : beNat (l.drop (l.length - 4)) = beNat m := by
        rw [← happ, beNat_append, hlen] at h
        rw [hlen] at hlt
        omega
      rw [← eq_of_beNat_eq (hlen.trans hm.symm) hnum]
      exact List.drop_suffix _ _
  · rintro ⟨p, rfl⟩
    rw [beNat_append, hm]
    omega

end Stream
