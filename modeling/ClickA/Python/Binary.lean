import Mathlib.Data.Nat.Digits.Lemmas
import ClickA.Python.Text

/-!
# Binary numerals

Python's strings of binary digits: how `bin` and `zfill` write a number, how `int(s, 2)` reads
one, and how a string is cut into pieces of a fixed length.

## Main definitions

* `int2`: `int(s, 2)`
* `binDigits`, `zfill`: `bin(n)[2:]` and `s.zfill(width)`
* `slices`: `[l[x:x+n] for x in range(0, len(l), n)]`

## Main results

* `bitsToNat_inj`: digits of one length and one value are equal
* `int2_zfill`: padding does not change what digits denote
* `flatten_slices`, `slices_injective`: what is cut can be joined again, also after the pieces of
  one length were renamed
* `slices_flatten`: joining pieces of one length and cutting gives the pieces
-/

namespace Python

variable {α β : Type}

/-! ## Digits -/

def isBit (b : UInt8) : Bool := b = 48 || b = 49

/-- The number that binary digits denote. -/
def bitsToNat (s : Bytes) : ℕ := s.foldl (fun n b => n * 2 + (b.toNat - 48)) 0

/-- A numeral without the `0b` that may precede it. -/
def unprefixed : Bytes → Bytes
  | 48 :: 98 :: s => s
  | 48 :: 66 :: s => s
  | s => s

/-- `int(s, 2)`. -/
def int2 (s : Bytes) : Except Exn ℤ :=
  let (negative, s) := signed (strip s)
  let digits := unprefixed s
  if digits ≠ [] ∧ digits.all isBit then
    .ok (if negative then -bitsToNat digits else bitsToNat digits)
  else .error .valueError

/-- `bin(n)[2:]`. -/
def binDigits (n : ℕ) : Bytes :=
  if n = 0 then [48] else (Nat.digits 2 n).reverse.map fun d => UInt8.ofNat (48 + d)

/-- `s.zfill(width)`: zeros after the sign. -/
def zfill (width : ℕ) (s : Bytes) : Bytes :=
  let zeros := List.replicate (width - s.length) 48
  match s with
  | 43 :: s => 43 :: (zeros ++ s)
  | 45 :: s => 45 :: (zeros ++ s)
  | s => zeros ++ s

/-- `chr(n)`. -/
def chr (n : ℤ) : Except Exn UInt8 :=
  if 0 ≤ n ∧ n < 256 then .ok (UInt8.ofNat n.toNat) else .error .valueError

section Digits

variable {s s' : Bytes} {b : UInt8} {n : ℕ}

theorem isBit_iff : isBit b ↔ b = 48 ∨ b = 49 := by simp [isBit]

theorem bitsToNat_concat (s : Bytes) (b : UInt8) :
    bitsToNat (s ++ [b]) = bitsToNat s * 2 + (b.toNat - 48) := by
  simp [bitsToNat]

/-- Binary digits are the digits of what they denote, the last one first. -/
theorem bitsToNat_eq_ofDigits (s : Bytes) :
    bitsToNat s = Nat.ofDigits 2 (s.reverse.map fun b => b.toNat - 48) := by
  induction s using List.reverseRecOn with
  | nil => rfl
  | append_singleton s b ih =>
    rw [bitsToNat_concat, ih, List.reverse_append, List.reverse_singleton, List.singleton_append,
      List.map_cons, Nat.ofDigits_cons]
    ring

theorem digit_lt_two (hb : isBit b) : b.toNat - 48 < 2 := by
  rcases isBit_iff.mp hb with rfl | rfl <;> decide

theorem digits_lt_two (hs : s.all isBit) : ∀ d ∈ s.reverse.map fun b => b.toNat - 48, d < 2 := by
  intro d hd
  obtain ⟨b, hb, rfl⟩ := List.mem_map.mp hd
  exact digit_lt_two (List.all_eq_true.mp hs b (List.mem_reverse.mp hb))

theorem bitsToNat_lt (hs : s.all isBit) : bitsToNat s < 2 ^ s.length := by
  have := Nat.ofDigits_lt_base_pow_length one_lt_two (digits_lt_two hs)
  rwa [← bitsToNat_eq_ofDigits, List.length_map, List.length_reverse] at this

theorem digit_inj {b b' : UInt8} (hb : isBit b) (hb' : isBit b')
    (h : b.toNat - 48 = b'.toNat - 48) : b = b' := by
  rcases isBit_iff.mp hb with rfl | rfl <;> rcases isBit_iff.mp hb' with rfl | rfl <;>
    first | rfl | exact absurd h (by decide)

theorem bits_inj : ∀ {s s' : Bytes}, s.all isBit → s'.all isBit →
    (s.map fun b => b.toNat - 48) = (s'.map fun b => b.toNat - 48) → s = s'
  | [], [], _, _, _ => rfl
  | b :: s, b' :: s', hs, hs', h => by
    rw [List.all_cons, Bool.and_eq_true] at hs hs'
    rw [List.map_cons, List.map_cons, List.cons.injEq] at h
    rw [digit_inj hs.1 hs'.1 h.1, bits_inj hs.2 hs'.2 h.2]

/-- Digits of one length and one value are equal. -/
theorem bitsToNat_inj (hs : s.all isBit) (hs' : s'.all isBit) (hlen : s.length = s'.length)
    (h : bitsToNat s = bitsToNat s') : s = s' := by
  rw [bitsToNat_eq_ofDigits, bitsToNat_eq_ofDigits] at h
  have hdigits := Nat.ofDigits_inj_of_len_eq one_lt_two (by simpa using hlen) (digits_lt_two hs)
    (digits_lt_two hs') h
  rw [List.map_reverse, List.map_reverse, List.reverse_inj] at hdigits
  exact bits_inj hs hs' hdigits

@[simp] theorem bitsToNat_zeros (k : ℕ) (s : Bytes) :
    bitsToNat (List.replicate k 48 ++ s) = bitsToNat s := by
  induction k with
  | zero => rfl
  | succ k ih => exact ih

theorem all_zeros (k : ℕ) (hs : s.all isBit) : (List.replicate k 48 ++ s).all isBit := by
  rw [List.all_append, hs, Bool.and_true, List.all_replicate]
  simp [isBit]

theorem zfill_of_bits (width : ℕ) (hs : s.all isBit) :
    zfill width s = List.replicate (width - s.length) 48 ++ s := by
  unfold zfill
  split
  · simp [isBit] at hs
  · simp [isBit] at hs
  · rfl

theorem strip_of_bits (hs : ∀ b ∈ s, isSpace b = false) : strip s = s := by
  have hself : ∀ {l : Bytes}, (∀ b ∈ l, isSpace b = false) → l.dropWhile isSpace = l := by
    intro l hl
    cases l with
    | nil => rfl
    | cons b l => rw [List.dropWhile_cons, hl b List.mem_cons_self, if_neg Bool.false_ne_true]
  rw [strip, hself hs, hself fun b hb => hs b (List.mem_reverse.mp hb), List.reverse_reverse]

theorem isSpace_of_isBit (hb : isBit b) : isSpace b = false := by
  rcases isBit_iff.mp hb with rfl | rfl <;> rfl

/-- `int('0b' + s, 2)` of binary digits. -/
theorem int2_prefixed (hs : s.all isBit) (hne : s ≠ []) :
    int2 (ascii "0b" ++ s) = .ok (bitsToNat s : ℤ) := by
  have hstrip : strip (ascii "0b" ++ s) = 48 :: 98 :: s :=
    strip_of_bits fun b hb => by
      rcases List.mem_append.mp hb with hb | hb
      · rcases List.mem_pair.mp hb with rfl | rfl <;> rfl
      · exact isSpace_of_isBit (List.all_eq_true.mp hs b hb)
  rw [int2, hstrip]
  exact if_pos ⟨hne, hs⟩

/-- `int(s, 2)` of binary digits. -/
theorem int2_of_bits (hs : s.all isBit) (hne : s ≠ []) : int2 s = .ok (bitsToNat s : ℤ) := by
  have hstrip : strip s = s :=
    strip_of_bits fun b hb => isSpace_of_isBit (List.all_eq_true.mp hs b hb)
  have hsigned : signed s = (false, s) := by
    unfold signed
    split
    · simp [isBit] at hs
    · simp [isBit] at hs
    · rfl
  have hplain : unprefixed s = s := by
    unfold unprefixed
    split
    · simp [isBit] at hs
    · simp [isBit] at hs
    · rfl
  rw [int2, hstrip, hsigned]
  dsimp only
  rw [hplain, if_pos ⟨hne, hs⟩]
  rfl

theorem toNat_bit {d : ℕ} (hd : d < 2) : (UInt8.ofNat (48 + d)).toNat - 48 = d := by
  interval_cases d <;> rfl

theorem all_binDigits (n : ℕ) : (binDigits n).all isBit := by
  unfold binDigits
  split
  · rfl
  · rw [List.all_map, List.all_reverse, List.all_eq_true]
    intro d hd
    have hlt := Nat.digits_lt_base one_lt_two hd
    interval_cases d <;> rfl

/-- `bin` writes the digits of the number. -/
@[simp] theorem bitsToNat_binDigits (n : ℕ) : bitsToNat (binDigits n) = n := by
  unfold binDigits
  split
  next h => rw [h]; rfl
  next h =>
    rw [bitsToNat_eq_ofDigits, ← List.map_reverse, List.reverse_reverse, List.map_map]
    have hid : (Nat.digits 2 n).map ((fun b => b.toNat - 48) ∘ fun d => UInt8.ofNat (48 + d)) =
        Nat.digits 2 n := by
      conv_rhs => rw [← List.map_id (Nat.digits 2 n)]
      exact List.map_congr_left fun d hd => toNat_bit (Nat.digits_lt_base one_lt_two hd)
    rw [hid, Nat.ofDigits_digits]

theorem length_binDigits_le {k : ℕ} (hk : 0 < k) (hn : n < 2 ^ k) : (binDigits n).length ≤ k := by
  unfold binDigits
  split
  · exact hk
  · rw [List.length_map, List.length_reverse]
    exact (Nat.digits_length_le_iff one_lt_two n).mpr hn

theorem length_zfill_of_bits {width : ℕ} (hs : s.all isBit) (hlen : s.length ≤ width) :
    (zfill width s).length = width := by
  rw [zfill_of_bits width hs, List.length_append, List.length_replicate]
  omega

/-- Padding does not change what digits denote. -/
theorem int2_zfill {width : ℕ} (hs : s.all isBit) (hne : s ≠ []) :
    int2 (ascii "0b" ++ zfill width s) = .ok (bitsToNat s : ℤ) := by
  rw [zfill_of_bits width hs,
    int2_prefixed (all_zeros _ hs) (List.append_ne_nil_of_right_ne_nil _ hne), bitsToNat_zeros]

theorem chr_toNat (x : UInt8) : chr x.toNat = .ok x := by
  rw [chr, if_pos ⟨by omega, by exact_mod_cast x.toNat_lt⟩, Int.toNat_natCast,
    UInt8.ofNat_toNat]

end Digits

/-! ## Pieces of a fixed length -/

/-- `[l[x:x+n] for x in range(0, len(l), n)]`. -/
def slices (n : ℕ) (l : List α) : List (List α) :=
  (List.range ((l.length + n - 1) / n)).map fun i => slice l (n * i : ℕ) (n * i + n : ℕ)

section Slices

variable {n : ℕ} {l l' : List α}

theorem slices_eq (n : ℕ) (l : List α) : slices n l =
    (List.range ((l.length + n - 1) / n)).map fun i => (l.drop (n * i)).take n := by
  refine List.map_congr_left fun i _ => ?_
  rw [slice_nat, List.drop_take, Nat.add_sub_cancel_left]

@[simp] theorem length_slices (n : ℕ) (l : List α) :
    (slices n l).length = (l.length + n - 1) / n := by
  rw [slices, List.length_map, List.length_range]

theorem flatten_takes (n : ℕ) (l : List α) (k : ℕ) :
    ((List.range k).map fun i => (l.drop (n * i)).take n).flatten = l.take (n * k) := by
  induction k with
  | zero => simp
  | succ k ih =>
    rw [List.range_succ, List.map_append, List.flatten_append, ih, List.map_singleton,
      List.flatten_singleton, ← List.take_add, Nat.mul_succ]

/-- The number of pieces is enough to hold the list. -/
theorem le_mul_pieces (hn : 0 < n) (m : ℕ) : m ≤ n * ((m + n - 1) / n) := by
  have := Nat.lt_div_mul_add hn (a := m + n - 1)
  rw [mul_comm] at this
  omega

/-- What is cut into pieces can be joined again. -/
theorem flatten_slices (hn : 0 < n) (l : List α) : (slices n l).flatten = l := by
  rw [slices_eq, flatten_takes, List.take_of_length_le (le_mul_pieces hn _)]

theorem length_of_mem_slices {s : List α} (hs : s ∈ slices n l) : s.length ≤ n := by
  rw [slices_eq] at hs
  obtain ⟨i, -, rfl⟩ := List.mem_map.mp hs
  exact List.length_take_le _ _

theorem ne_nil_of_mem_slices {s : List α} (hs : s ∈ slices n l) : s ≠ [] := by
  rw [slices_eq] at hs
  obtain ⟨i, hi, rfl⟩ := List.mem_map.mp hs
  have hi := List.mem_range.mp hi
  have hn : 0 < n := by
    rcases Nat.eq_zero_or_pos n with rfl | hn
    · simp at hi
    · exact hn
  have hlt : n * i < l.length := by
    have := (Nat.le_div_iff_mul_le hn).mp hi
    rw [Nat.succ_mul, mul_comm] at this
    omega
  rw [ne_eq, ← List.length_eq_zero_iff, List.length_take, List.length_drop]
  omega

theorem mem_of_mem_slices {s : List α} {a : α} (hs : s ∈ slices n l) (ha : a ∈ s) : a ∈ l := by
  rw [slices_eq] at hs
  obtain ⟨i, -, rfl⟩ := List.mem_map.mp hs
  exact List.mem_of_mem_drop (List.mem_of_mem_take ha)

/-- Lists of one length agree when their pieces do, under names that tell pieces of one length
apart. -/
theorem slices_injective {f : List α → β} (hn : 0 < n) (hlen : l.length = l'.length)
    (hf : ∀ s ∈ slices n l, ∀ s' ∈ slices n l', s.length = s'.length → f s = f s' → s = s')
    (h : (slices n l).map f = (slices n l').map f) : l = l' := by
  have hpieces : slices n l = slices n l' := by
    simp only [slices_eq, List.map_map, hlen] at h hf ⊢
    refine List.map_congr_left fun i hi => ?_
    refine hf _ (List.mem_map_of_mem hi) _ (List.mem_map_of_mem hi) ?_ (List.map_inj_left.mp h i hi)
    rw [List.length_take, List.length_take, List.length_drop, List.length_drop, hlen]
  rw [← flatten_slices hn l, hpieces, flatten_slices hn]

/-- The number of pieces of at most eight digits tells how many bytes were written. -/
theorem pieces_injective {n a b k : ℕ} (hn : 0 < n) (hk : n ≤ k)
    (h : (k * a + n - 1) / n = (k * b + n - 1) / n) : a = b := by
  have hle : ∀ {a b : ℕ}, a < b → (k * a + n - 1) / n < (k * b + n - 1) / n := by
    intro a b hab
    have hmul : k * a + n ≤ k * b := by
      have := Nat.mul_le_mul_left k hab
      rw [Nat.mul_succ] at this
      omega
    calc (k * a + n - 1) / n < (k * a + n - 1) / n + 1 := Nat.lt_succ_self _
      _ = (k * a + n - 1 + n) / n := (Nat.add_div_right _ hn).symm
      _ ≤ (k * b + n - 1) / n := Nat.div_le_div_right (by omega)
  rcases lt_trichotomy a b with hab | hab | hab
  · exact absurd h (hle hab).ne
  · exact hab
  · exact absurd h (hle hab).ne'

theorem slices_append (hn : 0 < n) {s : List α} (hs : s.length = n) (l : List α) :
    slices n (s ++ l) = s :: slices n l := by
  have hcount : ((s ++ l).length + n - 1) / n = (l.length + n - 1) / n + 1 := by
    rw [← Nat.add_div_right _ hn, List.length_append, hs]
    congr 1
    omega
  rw [slices_eq, slices_eq, hcount, List.range_succ_eq_map, List.map_cons, List.map_map]
  congr 1
  · rw [mul_zero, List.drop_zero, List.take_left' hs]
  · refine List.map_congr_left fun i _ => ?_
    rw [Function.comp_apply, Nat.mul_succ, Nat.add_comm, ← List.drop_drop, List.drop_left' hs]

/-- Joining pieces of one length and cutting gives the pieces. -/
theorem slices_flatten (hn : 0 < n) {parts : List (List α)} (hparts : ∀ s ∈ parts, s.length = n) :
    slices n parts.flatten = parts := by
  induction parts with
  | nil => simp [slices, Nat.div_eq_of_lt (Nat.sub_one_lt_of_lt hn)]
  | cons s parts ih =>
    rw [List.flatten_cons, slices_append hn (hparts s List.mem_cons_self),
      ih fun s hs => hparts s (List.mem_cons_of_mem _ hs)]

end Slices

end Python
