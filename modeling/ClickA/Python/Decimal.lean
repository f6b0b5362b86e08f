import ClickA.Python.Text
import Mathlib.Data.List.Induction

/-!
# Decimal notation

`str(n)` of a number, and how it is read back from a text that it is part of.

## Main definitions

* `str`: `str(n)`

## Main results

* `str_eq`: the last digit comes behind the others
* `intOf_str`, `str_injective`: a number is read back from its decimal notation
* `length_str_le_iff`: how many digits a number has
* `splitAt_of_not_mem`, `splitAt_append`: parts without the separator
-/

namespace Python

/-- `str(n)`. -/
def str (n : ℕ) : Bytes := (Nat.toDigits 10 n).map fun c => UInt8.ofNat c.toNat

/-- A digit. -/
def digit (d : ℕ) : UInt8 := UInt8.ofNat (48 + d)

section Digits

variable {n d : ℕ} {b : UInt8} {s : Bytes}

theorem ofNat_digitChar (h : d < 10) : UInt8.ofNat (Nat.digitChar d).toNat = digit d := by
  have hall : ∀ d < 10, UInt8.ofNat (Nat.digitChar d).toNat = digit d := by decide
  exact hall d h

theorem isDigit_digit (h : d < 10) : isDigit (digit d) = true := by
  have hall : ∀ d < 10, isDigit (digit d) = true := by decide
  exact hall d h

theorem toNat_digit (h : d < 10) : (digit d).toNat - 48 = d := by
  have hall : ∀ d < 10, (digit d).toNat - 48 = d := by decide
  exact hall d h

/-- The last digit comes behind the others. -/
theorem str_eq (n : ℕ) : str n = (if n < 10 then [] else str (n / 10)) ++ [digit (n % 10)] := by
  unfold str
  rw [Nat.toDigits_eq_if (by omega)]
  split
  · rename_i h
    rw [List.map_singleton, ofNat_digitChar h, Nat.mod_eq_of_lt h, List.nil_append]
  · rw [List.map_append, List.map_singleton, ofNat_digitChar (Nat.mod_lt n (by omega))]

theorem str_ne_nil (n : ℕ) : str n ≠ [] := by
  rw [str_eq]
  simp

theorem length_str_pos (n : ℕ) : 0 < (str n).length := List.length_pos_iff.mpr (str_ne_nil n)

/-- How many digits a number has. -/
theorem length_str_le_iff {k : ℕ} (hk : 0 < k) : (str n).length ≤ k ↔ n < 10 ^ k := by
  unfold str
  rw [List.length_map]
  exact Nat.length_toDigits_le_iff (by omega) hk

theorem all_isDigit_str (n : ℕ) : (str n).all isDigit = true := by
  induction n using Nat.strongRecOn with
  | ind n ih =>
    rw [str_eq, List.all_append]
    have hlast : isDigit (digit (n % 10)) = true := isDigit_digit (Nat.mod_lt n (by omega))
    split
    · simp [hlast]
    · rename_i h
      simp [hlast, ih (n / 10) (by omega)]

theorem isDigit_of_mem_str (h : b ∈ str n) : isDigit b = true :=
  List.all_eq_true.mp (all_isDigit_str n) b h

/-- A byte that is no digit is not in the decimal notation of a number. -/
theorem not_mem_str (h : isDigit b = false) : b ∉ str n := fun hmem => by
  rw [isDigit_of_mem_str hmem] at h
  exact Bool.noConfusion h

theorem digitsToNat_concat (s : Bytes) (b : UInt8) :
    digitsToNat (s ++ [b]) = digitsToNat s * 10 + (b.toNat - 48) := by
  unfold digitsToNat
  rw [List.foldl_append]
  rfl

/-- The digits of a text count more when others come behind it. -/
theorem digitsToNat_append (s s' : Bytes) :
    digitsToNat (s ++ s') = digitsToNat s * 10 ^ s'.length + digitsToNat s' := by
  induction s' using List.reverseRecOn with
  | nil => rw [List.append_nil, List.length_nil, Nat.pow_zero, Nat.mul_one]; rfl
  | append_singleton s' b ih =>
    rw [← List.append_assoc, digitsToNat_concat, digitsToNat_concat, ih, List.length_append,
      List.length_singleton, Nat.pow_succ, Nat.add_mul, Nat.mul_assoc, Nat.add_assoc]

/-- Only zeros make zero. -/
theorem digitsToNat_eq_zero_iff (h : s.all isDigit = true) :
    digitsToNat s = 0 ↔ ∀ b ∈ s, b = 48 := by
  induction s using List.reverseRecOn with
  | nil => exact iff_of_true rfl nofun
  | append_singleton s b ih =>
    rw [List.all_append, Bool.and_eq_true, List.all_cons, List.all_nil, Bool.and_true] at h
    have hb : b.toNat - 48 = 0 ↔ b = 48 := by
      have hdigit := h.2
      simp only [isDigit, Bool.and_eq_true, decide_eq_true_eq, UInt8.le_iff_toNat_le] at hdigit
      rw [← UInt8.toNat_inj]
      have hlow : (48 : UInt8).toNat = 48 := rfl
      omega
    rw [digitsToNat_concat, Nat.add_eq_zero_iff, Nat.mul_eq_zero,
      or_iff_left (by omega), ih h.1, hb, List.forall_mem_append, List.forall_mem_singleton]

theorem digitsToNat_str (n : ℕ) : digitsToNat (str n) = n := by
  induction n using Nat.strongRecOn with
  | ind n ih =>
    rw [str_eq, digitsToNat_concat, toNat_digit (Nat.mod_lt n (by omega))]
    split
    · rename_i h
      show 0 * 10 + n % 10 = n
      omega
    · rename_i h
      rw [ih (n / 10) (by omega)]
      omega

theorem str_injective : Function.Injective str := by
  intro n m h
  rw [← digitsToNat_str n, h, digitsToNat_str]

end Digits

/-! ## Reading back -/

section Read

variable {n : ℕ} {s : Bytes} {sep : UInt8}

theorem not_isSpace_of_isDigit {b : UInt8} (h : isDigit b = true) : isSpace b = false := by
  simp only [isDigit, isSpace, Bool.and_eq_true, decide_eq_true_eq, Bool.or_eq_false_iff,
    decide_eq_false_iff_not, Bool.and_eq_false_iff, UInt8.le_iff_toNat_le, ← UInt8.toNat_inj] at h ⊢
  simp at h ⊢
  omega

theorem strip_of_digits (h : s.all isDigit = true) : strip s = s := by
  have hnot : ∀ b ∈ s, isSpace b = false := fun b hb =>
    not_isSpace_of_isDigit (List.all_eq_true.mp h b hb)
  have hdrop (s : Bytes) (hs : ∀ b ∈ s, isSpace b = false) : s.dropWhile isSpace = s := by
    cases s with
    | nil => rfl
    | cons b s => rw [List.dropWhile_cons_of_neg (by simp [hs b List.mem_cons_self])]
  unfold strip
  rw [hdrop s hnot, hdrop s.reverse fun b hb => hnot b (List.mem_reverse.mp hb),
    List.reverse_reverse]

theorem signed_of_digits (h : s.all isDigit = true) : signed s = (false, s) := by
  unfold signed
  split
  · simp [isDigit] at h
  · simp [isDigit] at h
  · rfl

/-- A number is read back from its decimal notation. -/
theorem intOf_str (n : ℕ) : intOf (str n) = .ok (n : ℤ) := by
  unfold intOf
  rw [strip_of_digits (all_isDigit_str n), signed_of_digits (all_isDigit_str n)]
  simp [str_ne_nil, all_isDigit_str, digitsToNat_str]

/-! ## Parts -/

theorem splitAt_of_not_mem (h : sep ∉ s) : splitAt sep s = [s] := by
  induction s with
  | nil => rfl
  | cons b s ih =>
    have hb : b ≠ sep := fun heq => h (heq ▸ List.mem_cons_self)
    rw [splitAt, if_neg hb, ih fun hmem => h (List.mem_cons_of_mem b hmem)]

theorem splitAt_ne_nil (sep : UInt8) (s : Bytes) : splitAt sep s ≠ [] := by
  cases s with
  | nil => simp [splitAt]
  | cons b s =>
    rw [splitAt]
    split
    · simp
    · split
      · simp
      · simp

/-- The separator ends the part before it. -/
theorem splitAt_append (s s' : Bytes) :
    splitAt sep (s ++ sep :: s') = splitAt sep s ++ splitAt sep s' := by
  induction s with
  | nil => exact splitAt_cons sep s'
  | cons b s ih =>
    rw [List.cons_append, splitAt, splitAt]
    split
    · rw [ih, List.cons_append]
    · rw [ih]
      cases hparts : splitAt sep s with
      | nil => exact absurd hparts (splitAt_ne_nil sep s)
      | cons part parts => rfl

end Read

end Python
