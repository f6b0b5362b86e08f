import Mathlib.Data.List.Basic
import Mathlib.Data.Int.Notation

/-!
# Python lists and exceptions

The fragment of the Python 2 runtime that the models below are written in: the exceptions a
statement can raise, and the list operations that raise them. A statement that may raise is a
value of `Except Exn`.

## Main definitions

* `Exn`: the built-in exceptions
* `Stop`: why a process that reads input does not go on
* `index`, `setIndex`, `popFront`, `slice`: `l[i]`, `l[i] = a`, `l.pop(0)` and `l[a:b]`
* `assertThat`: `assert`

## Main results

* `ok_bind`, `error_bind`, `bind_eq_ok`: a statement that raises skips the rest of its block
* `index_of_lt`, `index_of_le`: an index is in range or raises
* `slice_nat`: a slice with nonnegative ends
-/

namespace Python

universe u v

variable {α β : Type u} {ε : Type v}

/-! ## Sequencing

A statement that raises skips the rest of its block. -/

@[simp] theorem ok_bind (a : α) (f : α → Except ε β) : (Except.ok a >>= f) = f a := rfl

@[simp] theorem error_bind (e : ε) (f : α → Except ε β) : (Except.error e >>= f) = .error e := rfl

@[simp] theorem pure_eq_ok (a : α) : (pure a : Except ε α) = .ok a := rfl

/-- A block ends normally when its first statement does and the rest does. -/
theorem bind_eq_ok {x : Except ε α} {f : α → Except ε β} {b : β} :
    (x >>= f) = .ok b ↔ ∃ a, x = .ok a ∧ f a = .ok b := by
  cases x <;> simp

/-! ## Exceptions and lists -/

/-- The built-in exceptions, and `struct.error`. -/
inductive Exn
  | assertionError
  | indexError
  | ioError
  | keyError
  | nameError
  | overflowError
  | structError
  | typeError
  | valueError
deriving DecidableEq, Repr

/-- Why a process does not go on: it waits for input, or an exception leaves it. -/
inductive Stop
  | blocked
  | raised (e : Exn)
deriving DecidableEq, Repr

/-- A statement of a process that reads input. -/
def raising : Except Exn α → Except Stop α
  | .ok a => .ok a
  | .error e => .error (.raised e)

@[simp] theorem raising_ok (a : α) : raising (.ok a) = .ok a := rfl

@[simp] theorem raising_error (e : Exn) : raising (α := α) (.error e) = .error (.raised e) := rfl

theorem raising_bind (x : Except Exn α) (f : α → Except Exn β) :
    raising (x >>= f) = raising x >>= fun a => raising (f a) := by
  cases x <;> rfl

/-- `l[i]` at a nonnegative index. -/
def index (l : List α) (i : ℕ) : Except Exn α :=
  match l[i]? with
  | some a => .ok a
  | none => .error .indexError

/-- `l[i] = a` at a nonnegative index. -/
def setIndex (l : List α) (i : ℕ) (a : α) : Except Exn (List α) :=
  if i < l.length then .ok (l.set i a) else .error .indexError

/-- `l.pop(0)`: the first element, and the list without it. -/
def popFront : List α → Except Exn (α × List α)
  | [] => .error .indexError
  | a :: l => .ok (a, l)

/-- A slice bound: counted from the end when negative, and clamped to the list. -/
def bound (n : ℕ) (i : ℤ) : ℕ :=
  if 0 ≤ i then min i.toNat n else (i + n).toNat

/-- `l[a:b]`. -/
def slice (l : List α) (a b : ℤ) : List α :=
  (l.take (bound l.length b)).drop (bound l.length a)

/-- `assert p`. -/
def assertThat (p : Prop) [Decidable p] : Except Exn Unit :=
  if p then .ok () else .error .assertionError

theorem index_of_lt {l : List α} {i : ℕ} (h : i < l.length) : index l i = .ok l[i] := by
  simp [index, h]

theorem setIndex_of_lt {l : List α} {i : ℕ} {a : α} (h : i < l.length) :
    setIndex l i a = .ok (l.set i a) := if_pos h

theorem index_of_le {l : List α} {i : ℕ} (h : l.length ≤ i) :
    index l i = .error .indexError := by
  simp [index, h]

@[simp] theorem index_cons_zero (a : α) (l : List α) : index (a :: l) 0 = .ok a := rfl

/-- With nonnegative ends a slice is a `take` and a `drop`. -/
theorem slice_nat (l : List α) (a b : ℕ) : slice l a b = (l.take b).drop a := by
  have hb : l.take (min b l.length) = l.take b := by
    rw [← List.take_take, List.take_length]
  simp only [slice, bound, Int.natCast_nonneg, if_true, Int.toNat_natCast, hb]
  rcases Nat.le_total a l.length with h | h
  · rw [Nat.min_eq_left h]
  · rw [Nat.min_eq_right h, List.drop_eq_nil_of_le (List.length_take_le' _ _),
      List.drop_eq_nil_of_le (Nat.le_trans (List.length_take_le' _ _) h)]

theorem slice_zero (l : List α) (b : ℕ) : slice l 0 b = l.take b := slice_nat l 0 b

end Python
