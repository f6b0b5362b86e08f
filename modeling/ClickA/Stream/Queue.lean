import Mathlib.Data.List.Flatten

/-!
# A queue that serves one element a round

In each round a batch joins a first-in, first-out queue, and one element is served.

## Main definitions

* `Fifo`: the elements that wait, and those that have been served
* `Fifo.join`, `Fifo.serve`: a batch joins, and the first element is served
* `Fifo.round`, `Fifo.rounds`: one round, and a round for each batch of a list

## Main results

* `served_append_waiting_rounds`: every element is served or waits, once and in order
* `waiting_rounds_eq_nil_iff`: nothing waits exactly when every batch has one element
-/

namespace Stream

variable {α : Type*}

/-- A first-in, first-out queue. -/
structure Fifo (α : Type*) where
  waiting : List α
  served : List α

namespace Fifo

/-- The empty queue. -/
def empty : Fifo α := ⟨[], []⟩

/-- Serve the first element, if there is one. -/
def serve (q : Fifo α) : Fifo α :=
  match q.waiting with
  | [] => q
  | a :: l => ⟨l, q.served ++ [a]⟩

/-- A batch joins the queue. -/
def join (q : Fifo α) (batch : List α) : Fifo α := { q with waiting := q.waiting ++ batch }

/-- A batch joins the queue, and one element is served. -/
def round (q : Fifo α) (batch : List α) : Fifo α := serve { q with waiting := q.waiting ++ batch }

/-- A round for each batch. -/
def rounds (batches : List (List α)) (q : Fifo α) : Fifo α := batches.foldl round q

variable {q : Fifo α} {batch : List α} {batches : List (List α)}

theorem rounds_cons (batch : List α) (batches : List (List α)) (q : Fifo α) :
    rounds (batch :: batches) q = rounds batches (q.round batch) := rfl

theorem served_append_waiting_serve (q : Fifo α) :
    q.serve.served ++ q.serve.waiting = q.served ++ q.waiting := by
  rw [serve]
  split
  · rfl
  · next h => simp [h]

theorem served_append_waiting_join (q : Fifo α) (batch : List α) :
    (q.join batch).served ++ (q.join batch).waiting = q.served ++ q.waiting ++ batch :=
  (List.append_assoc _ _ _).symm

/-- One more element is served, if one waits. -/
theorem length_served_serve (q : Fifo α) : q.serve.served.length =
    min (q.served.length + 1) (q.served ++ q.waiting).length := by
  rw [serve]
  split
  · next h => simp [h]
  · next h =>
    simp only [h, List.length_append, List.length_cons, List.length_nil]
    omega

/-- Every element is served or waits, once and in order. -/
theorem served_append_waiting_rounds (batches : List (List α)) (q : Fifo α) :
    (rounds batches q).served ++ (rounds batches q).waiting =
      q.served ++ q.waiting ++ batches.flatten := by
  induction batches generalizing q with
  | nil => simp [rounds]
  | cons batch batches ih =>
    rw [rounds_cons, ih, round, served_append_waiting_serve]
    simp

theorem length_served_round (hb : batch ≠ []) :
    (q.round batch).served.length = q.served.length + 1 := by
  rw [round, serve]
  split
  · next h => exact absurd (List.append_eq_nil_iff.mp h).2 hb
  · simp

/-- No round is idle. -/
theorem length_served_rounds (hb : ∀ batch ∈ batches, batch ≠ []) :
    (rounds batches q).served.length = q.served.length + batches.length := by
  induction batches generalizing q with
  | nil => rfl
  | cons batch batches ih =>
    rw [rounds_cons, ih fun b h => hb b (List.mem_cons_of_mem _ h),
      length_served_round (hb batch List.mem_cons_self), List.length_cons]
    omega

theorem length_le_length_flatten (hb : ∀ batch ∈ batches, batch ≠ []) :
    batches.length ≤ batches.flatten.length := by
  induction batches with
  | nil => simp
  | cons batch batches ih =>
    have hpos := List.length_pos_iff.mpr (hb batch List.mem_cons_self)
    have hle := ih fun b h => hb b (List.mem_cons_of_mem _ h)
    rw [List.length_cons, List.flatten_cons, List.length_append]
    omega

theorem length_flatten_eq_length_iff (hb : ∀ batch ∈ batches, batch ≠ []) :
    batches.flatten.length = batches.length ↔ ∀ batch ∈ batches, batch.length = 1 := by
  induction batches with
  | nil => simp
  | cons batch batches ih =>
    have hb' : ∀ b ∈ batches, b ≠ [] := fun b h => hb b (List.mem_cons_of_mem _ h)
    have hpos := List.length_pos_iff.mpr (hb batch List.mem_cons_self)
    have hle := length_le_length_flatten hb'
    rw [List.forall_mem_cons, ← ih hb', List.length_cons, List.flatten_cons, List.length_append]
    omega

/-- **Nothing waits exactly when every batch has one element.** -/
theorem waiting_rounds_eq_nil_iff (hb : ∀ batch ∈ batches, batch ≠ []) :
    (rounds batches empty).waiting = [] ↔ ∀ batch ∈ batches, batch.length = 1 := by
  have hall := congrArg List.length (served_append_waiting_rounds batches empty)
  have hserved := length_served_rounds (q := empty) hb
  simp only [List.length_append, empty, List.length_nil, List.nil_append, Nat.zero_add]
    at hall hserved
  rw [← length_flatten_eq_length_iff hb, ← List.length_eq_zero_iff, empty]
  omega

end Fifo

end Stream
