import Mathlib.Data.List.Induction

/-!
# Logs of writes

A log lists writes to addresses, in order.

## Main definitions

* `written`: what was last written to an address
* `stored`: what an address holds that held something before

## Main results

* `isSome_written_iff`: the addresses that something was written to
* `written_append`: the later writes count, or the earlier ones where there is none
* `stored_append_congr`: what an address holds depends on the writes to it
-/

namespace Stream

variable {ι α : Type*} [DecidableEq ι] {log : List (ι × α)} {i : ι}

/-- What was last written to an address. -/
def written (log : List (ι × α)) (i : ι) : Option α :=
  log.foldl (fun last w => if w.1 = i then some w.2 else last) none

@[simp] theorem written_nil : written ([] : List (ι × α)) i = none := rfl

@[simp] theorem written_concat (log : List (ι × α)) (j : ι) (a : α) :
    written (log ++ [(j, a)]) i = if j = i then some a else written log i := by
  rw [written, List.foldl_append]
  rfl

/-- The later writes count, or the earlier ones where there is none. -/
theorem written_append (log log' : List (ι × α)) (i : ι) :
    written (log ++ log') i = (written log' i).or (written log i) := by
  induction log' using List.reverseRecOn with
  | nil => rw [List.append_nil, written_nil, Option.none_or]
  | append_singleton log' w ih =>
    obtain ⟨j, a⟩ := w
    rw [← List.append_assoc, written_concat, written_concat, ih]
    split_ifs
    · rfl
    · rfl

/-- Something was written to the addresses of the log. -/
theorem isSome_written_iff : (written log i).isSome ↔ i ∈ log.map Prod.fst := by
  induction log using List.reverseRecOn with
  | nil => simp
  | append_singleton log w ih =>
    obtain ⟨j, a⟩ := w
    rw [written_concat, List.map_append, List.mem_append, ← ih, List.map_singleton,
      List.mem_singleton]
    split_ifs with hj
    · exact iff_of_true rfl (.inr hj.symm)
    · exact (or_iff_left (Ne.symm hj)).symm

theorem written_eq_none (h : i ∉ log.map Prod.fst) : written log i = none := by
  rwa [← isSome_written_iff, Bool.not_eq_true, Option.isSome_eq_false_iff,
    Option.isNone_iff_eq_none] at h

/-- What an address holds behind a log, which held something before it. -/
def stored (initial : ι → α) (log : List (ι × α)) (i : ι) : α := (written log i).getD (initial i)

/-- Behind logs that leave the same in an address, the same is written to it. -/
theorem stored_append_congr {initial : ι → α} {log log' : List (ι × α)}
    (h : stored initial log i = stored initial log' i) (later : List (ι × α)) :
    stored initial (log ++ later) i = stored initial (log' ++ later) i := by
  unfold stored at h ⊢
  rw [written_append, written_append]
  cases written later i with
  | none => simpa using h
  | some a => rfl

/-- Writes to other addresses leave it. -/
theorem stored_append_of_notMem {initial : ι → α} {log later : List (ι × α)}
    (h : i ∉ later.map Prod.fst) : stored initial (log ++ later) i = stored initial log i := by
  unfold stored
  rw [written_append, written_eq_none h, Option.none_or]

end Stream
