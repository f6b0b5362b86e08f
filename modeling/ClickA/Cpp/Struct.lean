import ClickA.Python.Struct

/-!
# Structs in memory

C++ structs on a little-endian machine with natural alignment: a member begins at the next multiple
of its alignment, and the struct ends at a multiple of the largest one. A message is copied into a
buffer whose contents are arbitrary before, and its members are read from there.

## Main definitions

* `Ty`: the types of members
* `offsets`, `sizeof`: where the members are, and the size of the struct
* `memcpy`: a message is copied into a buffer
* `strlen`: the length of a text in a buffer, up to its first 0
* `loadUint`, `loadBool`: a member is read
* `image`: the bytes of a struct

## Main results

* `loadUint_memcpy`: a member that the message covers is that of the message
* `loadUint_leBytes`: a number that was stored is read
* `mem_memcpy_uninitialized`: behind a message is what the buffer held before
-/

namespace Cpp

open Python (Bytes leBytes leNat leNat_leBytes length_leBytes)

/-- The types of members: unsigned integers of `k` bytes, `bool`, `float` and arrays of bytes. -/
inductive Ty
  | uint (k : ℕ)
  | bool
  | float
  | chars (n : ℕ)
deriving DecidableEq, Repr

namespace Ty

def size : Ty → ℕ
  | .uint k => k
  | .bool => 1
  | .float => 4
  | .chars n => n

def align : Ty → ℕ
  | .uint k => k
  | .bool => 1
  | .float => 4
  | .chars _ => 1

end Ty

/-- The next multiple of an alignment. -/
def roundUp (n a : ℕ) : ℕ := n + (a - n % a) % a

/-- The offsets of the members, behind `n` bytes. -/
def offsets : ℕ → List Ty → List ℕ
  | _, [] => []
  | n, t :: ts => roundUp n t.align :: offsets (roundUp n t.align + t.size) ts

/-- The end of the last member. -/
def endOf : ℕ → List Ty → ℕ
  | n, [] => n
  | n, t :: ts => endOf (roundUp n t.align + t.size) ts

/-- `sizeof`: the end of the last member, up to the largest alignment. -/
def sizeof (ts : List Ty) : ℕ := roundUp (endOf 0 ts) ((ts.map Ty.align).foldl max 1)

/-- `offsetof`, of the `i`-th member. -/
def offsetof (ts : List Ty) (i : ℕ) : ℕ := (offsets 0 ts).getD i 0

/-! ## Buffers -/

/-- A buffer of `n` bytes that is not initialized. -/
def uninitialized (garbage : ℕ → UInt8) (n : ℕ) : Bytes := (List.range n).map garbage

/-- `memcpy`, of a whole message. What does not fit is written behind the buffer: what it overwrites
there is left out. -/
def memcpy (buffer message : Bytes) : Bytes :=
  message.take buffer.length ++ buffer.drop message.length

/-- `strlen`, of a text in a buffer. Without a 0 it reads on behind the buffer. -/
def strlen (buffer : Bytes) : Option ℕ := if 0 ∈ buffer then some (buffer.idxOf 0) else none

/-- An unsigned integer of `k` bytes is read. -/
def loadUint (buffer : Bytes) (off k : ℕ) : ℕ := leNat ((buffer.drop off).take k)

/-- A `bool` is read: it is true unless its byte is 0. -/
def loadBool (buffer : Bytes) (off : ℕ) : Bool := loadUint buffer off 1 != 0

section Load

variable {buffer message : Bytes} {off k n : ℕ}

@[simp] theorem length_uninitialized (garbage : ℕ → UInt8) (n : ℕ) :
    (uninitialized garbage n).length = n := by
  unfold uninitialized
  rw [List.length_map, List.length_range]

theorem length_memcpy (buffer message : Bytes) :
    (memcpy buffer message).length = buffer.length := by
  rw [memcpy, List.length_append, List.length_take, List.length_drop]
  omega

theorem mem_drop_uninitialized {garbage : ℕ → UInt8} {b : UInt8} {m : ℕ} :
    b ∈ (uninitialized garbage n).drop m ↔ ∃ i, m ≤ i ∧ i < n ∧ garbage i = b := by
  rw [uninitialized, ← List.map_drop, List.range_eq_range', List.drop_range', List.mem_map]
  constructor
  · rintro ⟨i, hi, hb⟩
    have hbounds := List.mem_range'_1.mp hi
    exact ⟨i, by omega, by omega, hb⟩
  · rintro ⟨i, hm, hi, hb⟩
    exact ⟨i, List.mem_range'_1.mpr (by omega), hb⟩

/-- Behind a text in a buffer is what was there before. -/
theorem mem_memcpy_uninitialized {garbage : ℕ → UInt8} {b : UInt8} :
    b ∈ memcpy (uninitialized garbage n) message ↔
      b ∈ message.take n ∨ ∃ i, message.length ≤ i ∧ i < n ∧ garbage i = b := by
  rw [memcpy, length_uninitialized, List.mem_append, mem_drop_uninitialized]

/-- A member that the message covers is read from the message. -/
theorem loadUint_memcpy (hbuffer : off + k ≤ buffer.length) (hmessage : off + k ≤ message.length) :
    loadUint (memcpy buffer message) off k = loadUint message off k := by
  unfold loadUint memcpy
  have hlen : off + k ≤ (message.take buffer.length).length := by
    rw [List.length_take]
    omega
  rw [List.take_drop, List.take_drop, List.take_append_of_le_length hlen, List.take_take,
    Nat.min_eq_left hbuffer]

/-- A member is read where it was stored. -/
theorem loadUint_leBytes (l r : Bytes) (h : n < 256 ^ k) :
    loadUint (l ++ leBytes k n ++ r) l.length k = n := by
  have hlen : (leBytes k n).length = k := length_leBytes k n
  unfold loadUint
  rw [List.append_assoc, List.drop_left, List.take_append_of_le_length hlen.ge,
    List.take_of_length_le hlen.le, leNat_leBytes h]

end Load

/-! ## Structs -/

/-- The bytes of a struct whose padding is 0, behind `n` bytes. -/
def image : ℕ → List (Ty × Bytes) → Bytes
  | _, [] => []
  | n, (t, b) :: ms =>
    List.replicate (roundUp n t.align - n) 0 ++ (b ++ image (roundUp n t.align + t.size) ms)

end Cpp
