import ClickA.Python.Basic
import Mathlib.Algebra.Order.Ring.Int
import Mathlib.Data.List.Forall2
import Mathlib.Tactic.Ring

/-!
# `struct`: packing values into bytes

`struct.pack` and `struct.unpack` of Python 2 on a little-endian machine, for the format codes
`x`, `B`, `H`, `I`, `f` and `s`. A format without a byte-order mark aligns every code to its size;
a format starting with `!` is big-endian and packed without gaps.

## Main definitions

* `leBytes`, `leNat`: a natural number and its little-endian bytes
* `Code`, `Format`, `Value`: the codes of a format string, and what they pack
* `pack`, `unpack`: `struct.pack` and `struct.unpack`

## Main results

* `leNat_leBytes`, `leBytes_leNat`: bytes and number determine each other
* `packFrom_bytes`: a run of `B` packs the bytes themselves
* `unpack_pack`: what is packed without loss is unpacked
-/

namespace Python

/-- A byte string: `str` of Python 2, or a message. -/
abbrev Bytes := List UInt8

section Bytes

/-- The `k` low bytes of `n`, least significant first. -/
def leBytes : ℕ → ℕ → Bytes
  | 0, _ => []
  | k + 1, n => UInt8.ofNat n :: leBytes k (n / 256)

/-- The number with the given bytes, least significant first. -/
def leNat : Bytes → ℕ
  | [] => 0
  | b :: l => b.toNat + 256 * leNat l

@[simp] theorem length_leBytes (k n : ℕ) : (leBytes k n).length = k := by
  induction k generalizing n with
  | zero => rfl
  | succ k ih => simp [leBytes, ih]

theorem leNat_lt (l : Bytes) : leNat l < 256 ^ l.length := by
  induction l with
  | nil => simp [leNat]
  | cons b l ih =>
    have hb := b.toNat_lt
    rw [leNat, List.length_cons, Nat.pow_succ]
    omega

theorem leNat_leBytes {k n : ℕ} (h : n < 256 ^ k) : leNat (leBytes k n) = n := by
  induction k generalizing n with
  | zero => rw [Nat.pow_zero] at h; simp [leBytes, leNat]; omega
  | succ k ih =>
    rw [Nat.pow_succ] at h
    rw [leBytes, leNat, ih (by omega)]
    simp only [UInt8.toNat_ofNat']
    omega

theorem leBytes_leNat (l : Bytes) : leBytes l.length (leNat l) = l := by
  induction l with
  | nil => rfl
  | cons b l ih =>
    have hb := b.toNat_lt
    have hd : (b.toNat + 256 * leNat l) / 256 = leNat l := by omega
    have hm : UInt8.ofNat (b.toNat + 256 * leNat l) = b := by
      apply UInt8.toNat_inj.mp
      simp only [UInt8.toNat_ofNat']
      omega
    rw [leNat, List.length_cons, leBytes, hd, hm, ih]

end Bytes

/-- The codes of a format string: `x`, then `B`, `H` and `I` as unsigned integers of one, two and
four bytes, `f`, and `s` with its count. -/
inductive Code
  | x
  | uint (k : ℕ)
  | f
  | s (n : ℕ)
deriving DecidableEq, Repr

namespace Code

abbrev B : Code := .uint 1
abbrev H : Code := .uint 2
abbrev I : Code := .uint 4

def size : Code → ℕ
  | .x => 1
  | .uint k => k
  | .f => 4
  | .s n => n

/-- The alignment of a code in a native format. -/
def align : Code → ℕ
  | .uint k => k
  | .f => 4
  | _ => 1

end Code

/-- A format string: native, or standard and big-endian (`!`). -/
structure Format where
  native : Bool
  codes : List Code
deriving DecidableEq, Repr

/-- A format string without a byte-order mark. -/
abbrev native (codes : List Code) : Format := ⟨true, codes⟩

/-- A format string starting with `!`. -/
abbrev network (codes : List Code) : Format := ⟨false, codes⟩

/-- The Python objects that are packed: `int` and `long`, `float`, and `str`. -/
inductive Value
  | int (n : ℤ)
  | float (x : Float)
  | str (b : Bytes)
deriving DecidableEq, Repr

/-- `int(x)` of a float: truncation. -/
def truncate (x : Float) : Except Exn ℤ :=
  if x.isNaN then .error .valueError
  else if x.isInf then .error .overflowError
  else .ok x.toInt64.toInt

section Pack

variable (m : Bool)

/-- The byte order of the mode: little-endian when native. -/
def ordered (l : Bytes) : Bytes := if m then l else l.reverse

/-- The gap before a code at an offset. -/
def gap (off : ℕ) (c : Code) : ℕ :=
  if m then (c.align - off % c.align) % c.align else 0

/-- An integer code packs the integers in its range. -/
def packInt (k : ℕ) (n : ℤ) : Except Exn Bytes :=
  if 0 ≤ n ∧ n < 256 ^ k then .ok (ordered m (leBytes k n.toNat)) else .error .structError

/-- `f` rounds to single precision; only a standard format notices an overflow. -/
def packFloat (x : Float) : Except Exn Bytes :=
  if !m && !x.isInf && x.toFloat32.isInf then .error .overflowError
  else .ok (ordered m (leBytes 4 x.toFloat32.toBits.toNat))

/-- One code packs one value. An integer code truncates a float. -/
def packOne : Code → Value → Except Exn Bytes
  | .uint k, .int n => packInt m k n
  | .uint k, .float x => truncate x >>= packInt m k
  | .f, .float x => packFloat m x
  | .f, .int n => if (Float.ofInt n).isInf then .error .structError else packFloat m (Float.ofInt n)
  | .s n, .str b => .ok (b.take n ++ List.replicate (n - b.length) 0)
  | _, _ => .error .structError

/-- Packing from an offset on: every value takes one code, and `x` takes none. -/
def packFrom : ℕ → List Code → List Value → Except Exn Bytes
  | _, [], [] => .ok []
  | _, [], _ :: _ => .error .structError
  | off, .x :: cs, vs => do .ok (0 :: (← packFrom (off + 1) cs vs))
  | _, _ :: _, [] => .error .structError
  | off, c :: cs, v :: vs => do
    let b ← packOne m c v
    let rest ← packFrom (off + gap m off c + c.size) cs vs
    .ok (List.replicate (gap m off c) 0 ++ (b ++ rest))

/-- The end of a format that starts at an offset. -/
def endFrom : ℕ → List Code → ℕ
  | off, [] => off
  | off, .x :: cs => endFrom (off + 1) cs
  | off, c :: cs => endFrom (off + gap m off c + c.size) cs

/-- One code unpacks its own bytes. -/
def unpackOne : Code → Bytes → Value
  | .f, b => .float (Float32.ofBits (UInt32.ofNat (leNat (ordered m b)))).toFloat
  | .s _, b => .str b
  | _, b => .int (leNat (ordered m b))

/-- Unpacking from an offset on. -/
def unpackFrom : ℕ → List Code → Bytes → List Value
  | _, [], _ => []
  | off, .x :: cs, raw => unpackFrom (off + 1) cs (raw.drop 1)
  | off, c :: cs, raw =>
    unpackOne m c ((raw.drop (gap m off c)).take c.size) ::
      unpackFrom (off + gap m off c + c.size) cs (raw.drop (gap m off c + c.size))

end Pack

/-- `struct.pack(fmt, *vs)`. -/
def pack (fmt : Format) (vs : List Value) : Except Exn Bytes := packFrom fmt.native 0 fmt.codes vs

/-- `struct.calcsize(fmt)`. -/
def calcsize (fmt : Format) : ℕ := endFrom fmt.native 0 fmt.codes

/-- `struct.unpack(fmt, raw)`: the length has to be the format's. -/
def unpack (fmt : Format) (raw : Bytes) : Except Exn (List Value) :=
  if raw.length = calcsize fmt then .ok (unpackFrom fmt.native 0 fmt.codes raw)
  else .error .structError

section Lemmas

variable {m : Bool}

/-- Only a message of the format's length is unpacked. -/
theorem length_of_unpack {fmt : Format} {raw : Bytes} {vs : List Value}
    (h : unpack fmt raw = .ok vs) : raw.length = calcsize fmt := by
  unfold unpack at h
  split_ifs at h with hlen
  exact hlen

theorem ordered_ordered (l : Bytes) : ordered m (ordered m l) = l := by
  cases m <;> simp [ordered]

@[simp] theorem length_ordered (l : Bytes) : (ordered m l).length = l.length := by
  cases m <;> simp [ordered]

/-- The numbers that a format unpacks have its bytes. -/
theorem leNat_take_lt (k : ℕ) (l : Bytes) : leNat (ordered m (l.take k)) < 256 ^ k := by
  refine lt_of_lt_of_le (leNat_lt _) (Nat.pow_le_pow_right (by decide) ?_)
  rw [length_ordered]
  exact List.length_take_le _ _

theorem leNat_two_lt (l : Bytes) : leNat (ordered m (l.take 2)) < 2 ^ 16 := by
  have hlt : leNat (ordered m (l.take 2)) < 256 ^ 2 := leNat_take_lt 2 l
  omega

@[simp] theorem ordered_native (l : Bytes) : ordered true l = l := rfl

/-- A code packs its size. -/
theorem length_packOne {c : Code} {v : Value} {b : Bytes} (h : packOne m c v = .ok b) :
    b.length = c.size := by
  have hint {k : ℕ} {n : ℤ} (h : packInt m k n = .ok b) : b.length = k := by
    unfold packInt at h
    split_ifs at h
    obtain rfl := Except.ok.inj h
    rw [length_ordered, length_leBytes]
  have hfloat {x : Float} (h : packFloat m x = .ok b) : b.length = 4 := by
    unfold packFloat at h
    split_ifs at h
    obtain rfl := Except.ok.inj h
    rw [length_ordered, length_leBytes]
  cases c with
  | x => cases v <;> simp [packOne] at h
  | uint k =>
    cases v with
    | int n => exact hint h
    | float x =>
      obtain ⟨n, -, hn⟩ := bind_eq_ok.mp h
      exact hint hn
    | str s => simp [packOne] at h
  | f =>
    cases v with
    | int n =>
      rw [packOne] at h
      split_ifs at h
      exact hfloat h
    | float x => exact hfloat h
    | str s => simp [packOne] at h
  | s n =>
    cases v with
    | str s =>
      obtain rfl := Except.ok.inj h
      simp only [List.length_append, List.length_take, List.length_replicate, Code.size]
      omega
    | int n => simp [packOne] at h
    | float x => simp [packOne] at h

theorem packInt_natCast {k n : ℕ} (h : n < 256 ^ k) :
    packInt m k (n : ℤ) = .ok (ordered m (leBytes k n)) := by
  have hn : (n : ℤ) < 256 ^ k := by exact_mod_cast h
  simp [packInt, hn]

theorem packInt_natCast_of_le {k n : ℕ} (h : 256 ^ k ≤ n) :
    packInt m k (n : ℤ) = .error .structError := by
  have hn : ¬ (n : ℤ) < 256 ^ k := by push Not; exact_mod_cast h
  simp [packInt, hn]

/-- A run of `B` packs bytes as they are. -/
theorem packFrom_bytes (off : ℕ) (l : Bytes) :
    packFrom m off (List.replicate l.length .B) (l.map fun b => .int b.toNat) = .ok l := by
  induction l generalizing off with
  | nil => rfl
  | cons b l ih =>
    have hb : packInt m 1 (b.toNat : ℤ) = .ok [b] := by
      rw [packInt_natCast (by simpa using b.toNat_lt)]
      cases m <;> simp [ordered, leBytes]
    have hg : gap m off .B = 0 := by simp [gap, Code.align, Nat.mod_one]
    simp [List.replicate_succ, packFrom, packOne, hb, hg, ih]

theorem packFrom_cons {off : ℕ} {c : Code} {cs : List Code} {v : Value} {vs : List Value}
    (hc : c ≠ .x) : packFrom m off (c :: cs) (v :: vs) = (do
      let b ← packOne m c v
      let rest ← packFrom m (off + gap m off c + c.size) cs vs
      .ok (List.replicate (gap m off c) 0 ++ (b ++ rest))) := by
  cases c <;> first | exact absurd rfl hc | rfl

theorem unpackFrom_cons {off : ℕ} {c : Code} {cs : List Code} {raw : Bytes} (hc : c ≠ .x) :
    unpackFrom m off (c :: cs) raw =
      unpackOne m c ((raw.drop (gap m off c)).take c.size) ::
        unpackFrom m (off + gap m off c + c.size) cs (raw.drop (gap m off c + c.size)) := by
  cases c <;> first | exact absurd rfl hc | rfl

theorem endFrom_cons {off : ℕ} {c : Code} {cs : List Code} (hc : c ≠ .x) :
    endFrom m off (c :: cs) = endFrom m (off + gap m off c + c.size) cs := by
  cases c <;> first | exact absurd rfl hc | rfl

/-- What is packed has the format's length. -/
theorem length_packFrom {off : ℕ} {cs : List Code} {vs : List Value} {raw : Bytes}
    (h : packFrom m off cs vs = .ok raw) : raw.length + off = endFrom m off cs := by
  induction cs generalizing off vs raw with
  | nil =>
    cases vs with
    | nil =>
      obtain rfl := Except.ok.inj h
      exact Nat.zero_add off
    | cons v vs => simp [packFrom] at h
  | cons c cs ih =>
    by_cases hc : c = .x
    · subst hc
      obtain ⟨rest, hrest, hraw⟩ := bind_eq_ok.mp (show (packFrom m (off + 1) cs vs >>= fun rest =>
        Except.ok (0 :: rest)) = .ok raw by simpa only [packFrom] using h)
      obtain rfl := Except.ok.inj hraw
      rw [endFrom, ← ih hrest, List.length_cons]
      omega
    · cases vs with
      | nil => cases c <;> first | exact absurd rfl hc | simp [packFrom] at h
      | cons v vs =>
        rw [packFrom_cons hc] at h
        obtain ⟨b, hb, h⟩ := bind_eq_ok.mp h
        obtain ⟨rest, hrest, hraw⟩ := bind_eq_ok.mp h
        obtain rfl := Except.ok.inj hraw
        rw [endFrom_cons hc, ← ih hrest]
        simp only [List.length_append, List.length_replicate, length_packOne hb]
        omega

theorem length_of_pack {fmt : Format} {vs : List Value} {raw : Bytes} (h : pack fmt vs = .ok raw) :
    raw.length = calcsize fmt := length_packFrom h

/-- The code unpacks the value from the bytes it packs it into. -/
def Exact (m : Bool) (c : Code) (v : Value) : Prop :=
  ∀ b, packOne m c v = .ok b → b.length = c.size ∧ unpackOne m c b = v

theorem exact_int (k : ℕ) (n : ℤ) : Exact m (.uint k) (.int n) := by
  intro b hb
  rw [packOne, packInt] at hb
  split at hb
  · next h =>
    obtain rfl := Except.ok.inj hb
    have hn : n.toNat < 256 ^ k := by
      have : (n.toNat : ℤ) < ((256 ^ k : ℕ) : ℤ) := by
        rw [Int.toNat_of_nonneg h.1]; exact_mod_cast h.2
      exact_mod_cast this
    refine ⟨by simp [Code.size], ?_⟩
    rw [unpackOne, ordered_ordered, leNat_leBytes hn, Int.toNat_of_nonneg h.1]
    all_goals simp
  · exact absurd hb (by simp)

theorem exact_str {n : ℕ} {b : Bytes} (h : b.length = n) : Exact m (.s n) (.str b) := by
  intro b' hb
  obtain rfl := Except.ok.inj hb
  subst h
  simp [Code.size, unpackOne]

/-- What is packed from an offset on is unpacked from there. -/
theorem unpackFrom_packFrom {off : ℕ} {cs : List Code} {vs : List Value} {raw : Bytes}
    (hv : List.Forall₂ (Exact m) (cs.filter (· ≠ .x)) vs)
    (h : packFrom m off cs vs = .ok raw) :
    raw.length + off = endFrom m off cs ∧ unpackFrom m off cs raw = vs := by
  induction cs generalizing off vs raw with
  | nil =>
    obtain rfl : vs = [] := by simpa using hv
    obtain rfl := Except.ok.inj h
    exact ⟨by simp [endFrom], rfl⟩
  | cons c cs ih =>
    by_cases hc : c = .x
    · subst hc
      cases hr : packFrom m (off + 1) cs vs with
      | error e => simp [packFrom, hr] at h
      | ok rest =>
        obtain rfl : 0 :: rest = raw := by simpa [packFrom, hr] using h
        obtain ⟨hl, hu⟩ := ih (by simpa using hv) hr
        exact ⟨by rw [endFrom, ← hl, List.length_cons]; omega, by simpa [unpackFrom] using hu⟩
    · rw [List.filter_cons_of_pos (by simpa using hc)] at hv
      obtain ⟨v, vs, hcv, hvs, rfl⟩ := List.forall₂_cons_left_iff.mp hv
      rw [packFrom_cons hc] at h
      cases hb : packOne m c v with
      | error e => simp [hb] at h
      | ok b =>
        cases hr : packFrom m (off + gap m off c + c.size) cs vs with
        | error e => simp [hb, hr] at h
        | ok rest =>
          obtain rfl : List.replicate (gap m off c) 0 ++ (b ++ rest) = raw := by
            simpa [hb, hr] using h
          obtain ⟨hl, hu⟩ := ih hvs hr
          obtain ⟨hlb, hub⟩ := hcv b hb
          refine ⟨?_, ?_⟩
          · rw [endFrom_cons hc, ← hl]
            simp only [List.length_append, List.length_replicate, hlb]
            omega
          · have hd : (List.replicate (gap m off c) 0 ++ (b ++ rest)).drop (gap m off c) =
                b ++ rest := List.drop_left' (List.length_replicate ..)
            rw [unpackFrom_cons hc, hd, ← List.drop_drop, hd, ← hlb, List.take_left,
              List.drop_left, hub, hlb, hu]

/-- **What is packed exactly is unpacked.** -/
theorem unpack_pack {fmt : Format} {vs : List Value} {raw : Bytes}
    (hv : List.Forall₂ (Exact fmt.native) (fmt.codes.filter (· ≠ .x)) vs)
    (h : pack fmt vs = .ok raw) : unpack fmt raw = .ok vs := by
  obtain ⟨hl, hu⟩ := unpackFrom_packFrom hv h
  rw [unpack, if_pos (by rw [calcsize, ← hl]; rfl), hu]

end Lemmas

end Python
