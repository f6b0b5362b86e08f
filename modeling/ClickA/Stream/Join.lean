import Mathlib.Data.List.Basic

/-!
# Messages in parts

A message travels in parts, of which the first one and the last one are marked. The reader puts what
follows a first part behind it, and has a message with each last part. Pieces that are numbered are
put together by their numbers instead, and may come in any order.

## Main definitions

* `Part`: a part, with the label of its message
* `marked`: the parts of a message
* `joined`: the messages in a stream of parts
* `collected`: the pieces with some numbers, put together

## Main results

* `joined_flatMap`: the messages are those that were sent
* `joined_isPrefix`: later parts add messages, and change none
* `collected_eq_some_iff`: when the pieces of a whole are collected
-/

namespace Stream

variable {κ α ι : Type*}

/-- A part of a message. -/
structure Part (κ α : Type*) where
  label : κ
  opens : Bool
  closes : Bool
  data : List α

/-- The parts of a message that is cut into segments. -/
def marked (label : κ) : Bool → List (List α) → List (Part κ α)
  | _, [] => []
  | opens, [s] => [⟨label, opens, true, s⟩]
  | opens, s :: s' :: ss => ⟨label, opens, false, s⟩ :: marked label false (s' :: ss)

/-- The messages in a stream of parts, behind what was read of the first one. -/
def joined : List α → List (Part κ α) → List (κ × List α)
  | _, [] => []
  | front, p :: ps =>
    let data := if p.opens then p.data else front ++ p.data
    if p.closes then (p.label, data) :: joined [] ps else joined data ps

/-- The parts of one message are put together. -/
theorem joined_marked (label : κ) (opens : Bool) (front : List α) {ss : List (List α)}
    (hss : ss ≠ []) (ps : List (Part κ α)) :
    joined front (marked label opens ss ++ ps) =
      (label, (if opens then [] else front) ++ ss.flatten) :: joined [] ps := by
  induction opens, ss using marked.induct generalizing front with
  | case1 => exact absurd rfl hss
  | case2 opens s => cases opens <;> simp [marked, joined]
  | case3 opens s s' ss ih =>
    have hfirst : joined front (marked label opens (s :: s' :: ss) ++ ps) =
        joined (if opens then s else front ++ s) (marked label false (s' :: ss) ++ ps) := rfl
    rw [hfirst, ih _ (List.cons_ne_nil _ _)]
    cases opens <;> simp

/-- **The messages are those that were sent**, in their order. -/
theorem joined_flatMap {label : ι → κ} {segments : ι → List (List α)} {ms : List ι}
    (h : ∀ m ∈ ms, segments m ≠ []) :
    joined [] (ms.flatMap fun m => marked (label m) true (segments m)) =
      ms.map fun m => (label m, (segments m).flatten) := by
  induction ms with
  | nil => rfl
  | cons m ms ih =>
    rw [List.flatMap_cons, joined_marked _ _ _ (h m List.mem_cons_self),
      ih fun m' hm' => h m' (List.mem_cons_of_mem m hm')]
    rfl

/-- **Later parts add messages, and change none.** -/
theorem joined_isPrefix (front : List α) {ps qs : List (Part κ α)} (h : ps <+: qs) :
    joined front ps <+: joined front qs := by
  obtain ⟨rest, rfl⟩ := h
  induction ps generalizing front with
  | nil => exact List.nil_prefix
  | cons p ps ih =>
    rw [List.cons_append, joined, joined]
    cases p.closes with
    | true => exact (List.prefix_cons_inj _).mpr (ih [])
    | false => exact ih _

/-! ## Numbered pieces -/

/-- The pieces with some numbers, one after the other, if all of them are found. -/
def collected (find : ι → Option (List α)) : List ι → Option (List α)
  | [] => some []
  | i :: is => do
    let a ← find i
    return a ++ (← collected find is)

/-- Where nothing but the pieces of a whole is found, it is collected when each of them is. -/
theorem collected_eq_some_iff {find : ι → Option (List α)} {piece : ι → List α} {is : List ι}
    {whole : List α} (h : ∀ i ∈ is, ∀ a, find i = some a → a = piece i) :
    collected find is = some whole ↔
      whole = is.flatMap piece ∧ ∀ i ∈ is, (find i).isSome = true := by
  induction is generalizing whole with
  | nil =>
    rw [collected, Option.some.injEq, List.flatMap_nil, eq_comm]
    exact (and_iff_left fun i hi => absurd hi List.not_mem_nil).symm
  | cons i is ih =>
    have htail : ∀ whole, collected find is = some whole ↔
        whole = is.flatMap piece ∧ ∀ i ∈ is, (find i).isSome = true :=
      fun _ => ih fun j hj => h j (List.mem_cons_of_mem i hj)
    have hcons : collected find (i :: is) =
        (find i).bind fun a => (collected find is).bind fun b => some (a ++ b) := rfl
    rw [hcons, List.flatMap_cons, List.forall_mem_cons]
    simp only [Option.bind_eq_some_iff, htail, Option.some.injEq]
    constructor
    · rintro ⟨a, ha, b, ⟨rfl, hall⟩, rfl⟩
      obtain rfl := h i List.mem_cons_self a ha
      exact ⟨rfl, Option.isSome_of_eq_some ha, hall⟩
    · rintro ⟨rfl, hi, hall⟩
      obtain ⟨a, ha⟩ := Option.isSome_iff_exists.mp hi
      obtain rfl := h i List.mem_cons_self a ha
      exact ⟨_, ha, _, ⟨rfl, hall⟩, rfl⟩

end Stream
