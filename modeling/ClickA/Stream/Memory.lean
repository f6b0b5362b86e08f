import Mathlib.Data.List.Basic

/-!
# Intervals of a memory

A memory, or an endless stream, is a function from positions to symbols. Its intervals are lists,
and storing a list overwrites one interval.

## Main definitions

* `bytesAt mem i k`: the `k` symbols from position `i` on
* `store mem i l`: the memory with `l` at position `i`

## Main results

* `bytesAt_add`: an interval is two adjacent ones
* `bytesAt_store`: what is stored is read back
-/

namespace Stream

variable {α : Type*}

/-- The `k` symbols from position `i` on. -/
def bytesAt (mem : ℕ → α) : ℕ → ℕ → List α
  | _, 0 => []
  | i, k + 1 => mem i :: bytesAt mem (i + 1) k

/-- The memory with a list at position `i`. -/
def store (mem : ℕ → α) (i : ℕ) (l : List α) : ℕ → α :=
  fun j => if i ≤ j then l[j - i]?.getD (mem j) else mem j

variable (mem : ℕ → α)

@[simp] theorem bytesAt_zero (i : ℕ) : bytesAt mem i 0 = [] := rfl

@[simp] theorem length_bytesAt (i k : ℕ) : (bytesAt mem i k).length = k := by
  induction k generalizing i with
  | zero => rfl
  | succ k ih => rw [bytesAt, List.length_cons, ih]

/-- An interval is two adjacent ones. -/
theorem bytesAt_add (i j k : ℕ) :
    bytesAt mem i (j + k) = bytesAt mem i j ++ bytesAt mem (i + j) k := by
  induction j generalizing i with
  | zero => rw [Nat.zero_add, bytesAt, List.nil_append, Nat.add_zero]
  | succ j ih => rw [Nat.succ_add, bytesAt, ih, bytesAt, List.cons_append, Nat.succ_add_eq_add_succ]

theorem take_bytesAt (i : ℕ) {j k : ℕ} (h : j ≤ k) :
    (bytesAt mem i k).take j = bytesAt mem i j := by
  obtain ⟨k, rfl⟩ := Nat.exists_eq_add_of_le h
  rw [bytesAt_add, List.take_left' (length_bytesAt mem i j)]

variable {mem}

theorem bytesAt_congr {mem' : ℕ → α} {i i' k : ℕ} (h : ∀ j < k, mem (i + j) = mem' (i' + j)) :
    bytesAt mem i k = bytesAt mem' i' k := by
  induction k generalizing i i' with
  | zero => rfl
  | succ k ih =>
    have hhead : mem i = mem' i' := h 0 (Nat.succ_pos k)
    have htail : bytesAt mem (i + 1) k = bytesAt mem' (i' + 1) k := by
      refine ih fun j hj => ?_
      rw [Nat.succ_add_eq_add_succ, Nat.succ_add_eq_add_succ]
      exact h (j + 1) (Nat.succ_lt_succ hj)
    rw [bytesAt, bytesAt, hhead, htail]

theorem store_of_lt {l : List α} {i j : ℕ} (h : j < i) : store mem i l j = mem j := by
  rw [store, if_neg (Nat.not_le.mpr h)]

theorem store_of_le {l : List α} {i j : ℕ} (h : i + l.length ≤ j) : store mem i l j = mem j := by
  rw [store, if_pos (by omega), List.getElem?_eq_none (by omega), Option.getD_none]

theorem store_add {l : List α} {i j : ℕ} (h : j < l.length) : store mem i l (i + j) = l[j] := by
  rw [store, if_pos (Nat.le_add_right i j), Nat.add_sub_cancel_left, List.getElem?_eq_getElem h,
    Option.getD_some]

theorem getElem_bytesAt {i k j : ℕ} (h : j < (bytesAt mem i k).length) :
    (bytesAt mem i k)[j] = mem (i + j) := by
  induction k generalizing i j with
  | zero => simp at h
  | succ k ih =>
    cases j with
    | zero => rfl
    | succ j =>
      rw [length_bytesAt] at h
      have hj : j < (bytesAt mem (i + 1) k).length := by
        rw [length_bytesAt]
        omega
      simp only [bytesAt, List.getElem_cons_succ]
      rw [ih hj, Nat.succ_add_eq_add_succ]

/-- A stored interval of another memory. -/
theorem store_bytesAt {mem' : ℕ → α} {i p k j : ℕ} (h : j < k) :
    store mem i (bytesAt mem' p k) (i + j) = mem' (p + j) := by
  have hj : j < (bytesAt mem' p k).length := by rwa [length_bytesAt]
  rw [store_add hj, getElem_bytesAt]

/-- What is stored is read back. -/
theorem bytesAt_store (mem : ℕ → α) (i : ℕ) (l : List α) :
    bytesAt (store mem i l) i l.length = l := by
  induction l generalizing i mem with
  | nil => rfl
  | cons a l ih =>
    have hhead : store mem i (a :: l) i = a := by simp [store]
    have htail : bytesAt (store mem i (a :: l)) (i + 1) l.length = l := by
      calc bytesAt (store mem i (a :: l)) (i + 1) l.length
          = bytesAt (store mem (i + 1) l) (i + 1) l.length := by
            refine bytesAt_congr fun j hj => ?_
            rw [store_add hj, Nat.succ_add_eq_add_succ, store_add (Nat.succ_lt_succ hj)]
            rfl
        _ = l := ih mem (i + 1)
    rw [List.length_cons, bytesAt, hhead, htail]

/-- A memory that holds the first symbols of another, extended by the next ones. -/
theorem store_extends {mem' : ℕ → α} {p k : ℕ} (h : ∀ j < p, mem j = mem' j) :
    ∀ j < p + k, store mem p (bytesAt mem' p k) j = mem' j := by
  intro j hj
  rcases Nat.lt_or_ge j p with hjp | hjp
  · rw [store_of_lt hjp, h j hjp]
  · obtain ⟨i, rfl⟩ := Nat.exists_eq_add_of_le hjp
    exact store_bytesAt (by omega)

end Stream
