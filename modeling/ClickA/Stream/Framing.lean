import Mathlib.Data.List.Basic

/-!
# Streams of frames

A reader takes one frame after the other from a stream. If it takes from the encoding of a frame
what was encoded, and nothing of what follows, then it stays in step with a stream of encodings.

## Main definitions

* `cut`: the first frames of a stream, and what follows them
* `Filled`: encodings with a filler between them

## Main results

* `cut_flatMap`: a stream of encodings is cut where they end
* `cut_flatMap_iff`: it is so exactly when each encoding is
* `Filled.cut_eq`: a reader that passes over the filler finds the frames
* `Filled.cut_fst_eq`: and nothing else
-/

namespace Stream

variable {α β γ : Type*} {next : List α → Option (β × List α)} {enc : γ → List α} {val : γ → β}

/-- The first `n` frames of a stream, or as many as there are, and what follows them. -/
def cut (next : List α → Option (β × List α)) : ℕ → List α → List β × List α
  | 0, s => ([], s)
  | n + 1, s =>
    match next s with
    | some (b, s') => (b :: (cut next n s').1, (cut next n s').2)
    | none => ([], s)

theorem cut_succ_of_some {n : ℕ} {s s' : List α} {b : β} (h : next s = some (b, s')) :
    cut next (n + 1) s = (b :: (cut next n s').1, (cut next n s').2) := by
  rw [cut, h]

theorem cut_succ_of_none {n : ℕ} {s : List α} (h : next s = none) :
    cut next (n + 1) s = ([], s) := by
  rw [cut, h]

/-- The reader takes what was encoded, and nothing of what follows. -/
def Takes (next : List α → Option (β × List α)) (enc : γ → List α) (val : γ → β) (c : γ) : Prop :=
  ∀ rest, next (enc c ++ rest) = some (val c, rest)

/-- A stream of encodings is cut where they end. -/
theorem cut_flatMap {cs : List γ} (h : ∀ c ∈ cs, Takes next enc val c) (rest : List α) :
    cut next cs.length (cs.flatMap enc ++ rest) = (cs.map val, rest) := by
  induction cs with
  | nil => rfl
  | cons c cs ih =>
    have hc := h c List.mem_cons_self (cs.flatMap enc ++ rest)
    rw [List.flatMap_cons, List.append_assoc, List.length_cons, cut_succ_of_some hc,
      ih fun c' hc' => h c' (List.mem_cons_of_mem c hc')]
    rfl

/-- If what is taken of an encoding tells whether the reader is in step, the stream is cut where the
encodings end exactly when each of them is. -/
theorem cut_flatMap_iff {P : γ → Prop} (htakes : ∀ c, P c → Takes next enc val c)
    (hstray : ∀ c rest b s, next (enc c ++ rest) = some (b, s) → b = val c → P c)
    (cs : List γ) (rest : List α) :
    cut next cs.length (cs.flatMap enc ++ rest) = (cs.map val, rest) ↔ ∀ c ∈ cs, P c := by
  constructor
  · intro h
    induction cs with
    | nil => simp
    | cons c cs ih =>
      rw [List.flatMap_cons, List.append_assoc, List.length_cons, List.map_cons] at h
      cases hnext : next (enc c ++ (cs.flatMap enc ++ rest)) with
      | none =>
        rw [cut_succ_of_none hnext] at h
        exact absurd (congrArg Prod.fst h) (List.cons_ne_nil _ _).symm
      | some bs =>
        obtain ⟨b, s⟩ := bs
        rw [cut_succ_of_some hnext] at h
        obtain ⟨hfst, hrest⟩ := Prod.mk.inj h
        obtain ⟨hb, htail⟩ := List.cons.inj hfst
        have hc := hstray c _ b s hnext hb
        have hs := (Option.some.inj (hnext.symm.trans (htakes c hc _)))
        obtain ⟨-, rfl⟩ := Prod.mk.inj hs
        exact List.forall_mem_cons.mpr ⟨hc, ih (Prod.ext htail hrest)⟩
  · intro h
    exact cut_flatMap (fun c hc => htakes c (h c hc)) rest

/-! ## Fillers -/

/-- Encodings, one after the other, with any number of fillers before each and at the end. -/
inductive Filled (fill : α) (enc : γ → List α) : List α → List γ → Prop
  | rest (k : ℕ) : Filled fill enc (List.replicate k fill) []
  | frame (k : ℕ) {c : γ} {w : List α} {cs : List γ} (h : Filled fill enc w cs) :
    Filled fill enc (List.replicate k fill ++ (enc c ++ w)) (c :: cs)

namespace Filled

variable {fill : α} {w : List α} {cs : List γ}

/-- More fillers. -/
theorem fill_append (h : Filled fill enc w cs) (k : ℕ) :
    Filled fill enc (List.replicate k fill ++ w) cs := by
  cases h with
  | rest n =>
    rw [← List.replicate_add]
    exact .rest _
  | frame n h =>
    rw [← List.append_assoc, ← List.replicate_add]
    exact .frame _ h

/-- A reader that passes over the filler, and takes what was encoded, finds the frames. -/
theorem cut_eq (h : Filled fill enc w cs)
    (htakes : ∀ c ∈ cs, ∀ k, Takes next (fun c => List.replicate k fill ++ enc c) val c) :
    ∃ k, cut next cs.length w = (cs.map val, List.replicate k fill) := by
  induction h with
  | rest k => exact ⟨k, rfl⟩
  | @frame k c w cs h ih =>
    obtain ⟨n, hn⟩ := ih fun c' hc' => htakes c' (List.mem_cons_of_mem c hc')
    have hc := htakes c List.mem_cons_self k w
    rw [List.append_assoc] at hc
    exact ⟨n, by rw [List.length_cons, cut_succ_of_some hc, hn]; rfl⟩

theorem length_le (h : Filled fill enc w cs) (hne : ∀ c ∈ cs, enc c ≠ []) :
    cs.length ≤ w.length := by
  induction h with
  | rest k => exact Nat.zero_le _
  | @frame k c w cs h ih =>
    have htail := ih fun c' hc' => hne c' (List.mem_cons_of_mem c hc')
    have hpos := List.length_pos_iff.mpr (hne c List.mem_cons_self)
    rw [List.length_cons, List.length_append, List.length_append]
    omega

/-- A reader that finds nothing in the filler finds no other frames, however long it reads. -/
theorem cut_fst_eq (h : Filled fill enc w cs)
    (htakes : ∀ c ∈ cs, ∀ k, Takes next (fun c => List.replicate k fill ++ enc c) val c)
    (hfill : ∀ k, next (List.replicate k fill) = none) {n : ℕ} (hn : cs.length ≤ n) :
    (cut next n w).1 = cs.map val := by
  induction h generalizing n with
  | rest k =>
    cases n with
    | zero => rfl
    | succ n => rw [cut_succ_of_none (hfill k), List.map_nil]
  | @frame k c w cs h ih =>
    have hc := htakes c List.mem_cons_self k w
    rw [List.append_assoc] at hc
    cases n with
    | zero => exact absurd hn (Nat.not_succ_le_zero _)
    | succ n =>
      rw [cut_succ_of_some hc, List.map_cons,
        ih (fun c' hc' => htakes c' (List.mem_cons_of_mem c hc')) (Nat.le_of_succ_le_succ hn)]

end Filled

end Stream
