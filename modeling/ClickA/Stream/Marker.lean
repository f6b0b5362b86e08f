import Mathlib.Data.List.Infix
import Mathlib.Data.List.TakeDrop

/-!
# Scanning a stream for a marker

Two scanners that stop after the first occurrence of a marker in a stream: a counter of the
symbols matched so far, and a window of the symbols read last. The counter falls back to one
symbol or to none, which is enough when the first symbol of the marker does not occur in it again.

## Main definitions

* `FirstEnd m pre`: the stream `pre` ends with the first occurrence of `m`
* `afterFirst m l`: what follows the first occurrence of `m` in `l`
* `scan m i l`: the scan of `l` by the counter, from `i` matched symbols

## Main results

* `afterFirst_eq_some_iff`, `afterFirst_eq_none_iff`: `afterFirst` cuts the stream at a `FirstEnd`,
  if there is one
* `scan_eq_afterFirst`: the counter finds the first occurrence
* `firstEnd_append`: a marker preceded by a stream without it
-/

namespace Stream

variable {α : Type*} [DecidableEq α] {m : List α}

/-- The stream `pre` ends with the marker, and no shorter prefix of it does. -/
def FirstEnd (m pre : List α) : Prop := m <:+ pre ∧ ∀ p, p <+: pre → m <:+ p → p = pre

/-- What follows the first occurrence of the marker. -/
def afterFirst (m : List α) : List α → Option (List α)
  | [] => if m = [] then some [] else none
  | b :: l => if m <+: b :: l then some ((b :: l).drop m.length) else afterFirst m l

/-- The counter after one more symbol. -/
def scanStep (m : List α) (i : ℕ) (b : α) : ℕ :=
  if m[i]? = some b then i + 1 else if m[0]? = some b then 1 else 0

/-- Read symbols until the counter reaches the marker's length. The result is the rest of the
stream, or nothing when it ends first. -/
def scan (m : List α) : ℕ → List α → Option (List α)
  | i, [] => if i < m.length then none else some []
  | i, b :: l => if i < m.length then scan m (scanStep m i b) l else some (b :: l)

/-- The longest prefix of the marker that `p` ends with has length `i`. -/
structure Matched (m : List α) (i : ℕ) (p : List α) : Prop where
  suffix : m.take i <:+ p
  longest : ∀ j, i < j → j ≤ m.length → ¬ m.take j <:+ p

section FirstEnd

omit [DecidableEq α]

theorem firstEnd_self (m : List α) : FirstEnd m m :=
  ⟨List.suffix_rfl, fun _ hp hm => hp.eq_of_length (hp.length_le.antisymm hm.length_le)⟩

/-- One more symbol in front does not move the first occurrence, unless it completes one. -/
theorem FirstEnd.cons {pre : List α} {b : α} (h : FirstEnd m pre) (hb : ¬ m <+: b :: pre) :
    FirstEnd m (b :: pre) := by
  refine ⟨List.suffix_cons_iff.mpr (.inr h.1), fun p hp hm => ?_⟩
  rcases List.prefix_cons_iff.mp hp with rfl | ⟨p, rfl, hp'⟩
  · exact absurd (List.suffix_nil.mp hm ▸ List.nil_prefix) hb
  · rcases List.suffix_cons_iff.mp hm with rfl | hm
    · exact absurd hp hb
    · rw [h.2 p hp' hm]

theorem FirstEnd.of_cons {pre : List α} {b : α} (h : FirstEnd m (b :: pre))
    (hb : m ≠ b :: pre) : FirstEnd m pre := by
  refine ⟨(List.suffix_cons_iff.mp h.1).resolve_left hb, fun p hp hm => ?_⟩
  exact List.tail_eq_of_cons_eq
    (h.2 (b :: p) ((List.prefix_cons_inj b).mpr hp) (hm.trans (List.suffix_cons b p)))

/-- A stream has one first occurrence. -/
theorem FirstEnd.eq_of_append {p q r s : List α} (hp : FirstEnd m p) (hq : FirstEnd m q)
    (h : p ++ r = q ++ s) : p = q := by
  rcases List.prefix_or_prefix_of_prefix (List.prefix_append p r) (h ▸ List.prefix_append q s)
    with hpq | hqp
  · exact hq.2 p hpq hp.1
  · exact (hp.2 q hqp hq.1).symm

/-- A stream with an occurrence has a first one. -/
theorem exists_firstEnd_take {l : List α} {j : ℕ} (h : m <:+ l.take j) :
    ∃ i ≤ j, FirstEnd m (l.take i) := by
  induction j using Nat.strong_induction_on with
  | _ j ih =>
    by_cases hearlier : ∃ i < j, m <:+ l.take i
    · obtain ⟨i, hi, hm⟩ := hearlier
      obtain ⟨k, hk, hfirst⟩ := ih i hi hm
      exact ⟨k, hk.trans hi.le, hfirst⟩
    · refine ⟨j, le_rfl, h, fun p hp hm => ?_⟩
      have hlen := hp.length_le.trans (List.length_take_le j l)
      have htake : p = l.take p.length := by
        rw [← List.prefix_iff_eq_take]
        exact hp.trans (List.take_prefix j l)
      rcases hlen.lt_or_eq with hlt | heq
      · exact absurd ⟨p.length, hlt, htake ▸ hm⟩ hearlier
      · rw [htake, heq]

end FirstEnd

/-- `afterFirst` cuts the stream after its first occurrence. -/
theorem afterFirst_eq_some_iff {l r : List α} :
    afterFirst m l = some r ↔ ∃ pre, l = pre ++ r ∧ FirstEnd m pre := by
  induction l with
  | nil =>
    constructor
    · intro h
      rw [afterFirst] at h
      split at h
      · next hm =>
        obtain rfl := Option.some.inj h
        exact ⟨[], rfl, hm ▸ firstEnd_self m⟩
      · exact absurd h (by simp)
    · rintro ⟨pre, hl, hf⟩
      obtain ⟨rfl, rfl⟩ := List.append_eq_nil_iff.mp hl.symm
      simp [afterFirst, List.suffix_nil.mp hf.1]
  | cons b l ih =>
    rw [afterFirst]
    by_cases hm : m <+: b :: l
    · rw [if_pos hm]
      constructor
      · intro h
        obtain rfl := Option.some.inj h
        exact ⟨m, List.prefix_append_drop hm, firstEnd_self m⟩
      · rintro ⟨pre, hl, hf⟩
        have hpre : m <+: pre :=
          List.prefix_of_prefix_length_le (hl ▸ hm) (List.prefix_append pre r) hf.1.length_le
        rw [hl, hf.2 m hpre List.suffix_rfl, List.drop_left]
    · rw [if_neg hm, ih]
      constructor
      · rintro ⟨pre, rfl, hf⟩
        exact ⟨b :: pre, rfl, hf.cons fun h => hm (h.trans (List.prefix_append (b :: pre) r))⟩
      · rintro ⟨pre, hl, hf⟩
        cases pre with
        | nil => exact absurd (List.suffix_nil.mp hf.1 ▸ List.nil_prefix) hm
        | cons c pre =>
          obtain ⟨rfl, rfl⟩ := List.cons.inj hl
          exact ⟨pre, rfl, hf.of_cons fun h => hm (h ▸ List.prefix_append _ r)⟩

/-- A stream is cut where it is said to be. -/
theorem afterFirst_append_eq_some_iff {pre r : List α} :
    afterFirst m (pre ++ r) = some r ↔ FirstEnd m pre := by
  rw [afterFirst_eq_some_iff]
  constructor
  · rintro ⟨q, hq, hfirst⟩
    rwa [List.append_cancel_right hq]
  · exact fun hfirst => ⟨pre, rfl, hfirst⟩

/-- A stream is not cut exactly when the marker does not occur in it. -/
theorem afterFirst_eq_none_iff {l : List α} : afterFirst m l = none ↔ ¬ m <:+: l := by
  constructor
  · rintro hnone ⟨s, t, rfl⟩
    have hm : m <:+ (s ++ m ++ t).take (s ++ m).length := by
      rw [List.take_left]
      exact List.suffix_append s m
    obtain ⟨i, -, hfirst⟩ := exists_firstEnd_take hm
    have hcut := afterFirst_eq_some_iff.mpr ⟨_, (List.take_append_drop i _).symm, hfirst⟩
    exact absurd (hnone.symm.trans hcut) (by simp)
  · intro hm
    rw [Option.eq_none_iff_forall_not_mem]
    intro r hr
    obtain ⟨pre, rfl, hfirst⟩ := afterFirst_eq_some_iff.mp hr
    exact hm (hfirst.1.isInfix.trans (List.prefix_append pre r).isInfix)

/-! ## The counter

`Matched` is the counter's invariant. When the first symbol of the marker does not occur in it
again, a mismatch leaves no shorter match but the symbol itself. -/

section Counter

omit [DecidableEq α] in
theorem take_succ_suffix_concat {j : ℕ} {p : List α} {b : α} (hj : j < m.length) :
    m.take (j + 1) <:+ p ++ [b] ↔ m.take j <:+ p ∧ m[j]? = some b := by
  rw [← List.take_concat_get' m j hj, List.suffix_concat_iff, List.getElem?_eq_getElem hj]
  constructor
  · rintro (h | ⟨t, ht, hp⟩)
    · exact absurd h (List.append_ne_nil_of_right_ne_nil _ (by simp))
    · obtain ⟨rfl, hb⟩ := List.append_inj' ht rfl
      exact ⟨hp, by simpa using hb⟩
  · rintro ⟨hp, hb⟩
    exact .inr ⟨_, by rw [Option.some.inj hb], hp⟩

omit [DecidableEq α] in
theorem matched_nil (hm : m ≠ []) : Matched m 0 [] := by
  refine ⟨by simp, fun j hj hjm h => ?_⟩
  have hlen := congrArg List.length (List.suffix_nil.mp h)
  have hpos := List.length_pos_iff.mpr hm
  simp only [List.length_take, List.length_nil] at hlen
  omega

variable {a : α} {t : List α}

omit [DecidableEq α] in
/-- Only the whole match and the empty one can be extended. -/
theorem Matched.eq_zero_or_eq {i j : ℕ} {p : List α} (ha : a ∉ t) (h : Matched (a :: t) i p)
    (hi : i ≤ t.length) (hj : j ≤ t.length) (hp : (a :: t).take j <:+ p) : j = 0 ∨ j = i := by
  have hji : j ≤ i := Nat.le_of_not_lt fun hlt => h.longest j hlt (by simp; omega) hp
  by_contra hne
  push Not at hne
  -- both are suffixes of `p`, so the first symbol of the shorter one occurs inside the longer one
  have hs : (a :: t).take j <:+ (a :: t).take i :=
    List.suffix_of_suffix_length_le hp h.suffix (by simp; omega)
  obtain ⟨j, rfl⟩ := Nat.exists_eq_succ_of_ne_zero hne.1
  obtain ⟨i, rfl⟩ := Nat.exists_eq_succ_of_ne_zero
    (Nat.ne_zero_of_lt (Nat.lt_of_le_of_ne hji hne.2))
  rw [List.take_succ_cons, List.take_succ_cons, List.suffix_cons_iff] at hs
  rcases hs with heq | hs
  · have := congrArg List.length heq
    simp at this
    omega
  · exact ha (List.mem_of_mem_take (hs.subset List.mem_cons_self))

/-- The counter keeps its invariant. -/
theorem Matched.step {i : ℕ} {p : List α} (ha : a ∉ t) (h : Matched (a :: t) i p)
    (hi : i < (a :: t).length) (b : α) :
    Matched (a :: t) (scanStep (a :: t) i b) (p ++ [b]) := by
  have hit : i ≤ t.length := by simpa using Nat.lt_succ_iff.mp hi
  have hext : ∀ j, j + 1 ≤ (a :: t).length → (a :: t).take (j + 1) <:+ p ++ [b] →
      (j = 0 ∨ j = i) ∧ (a :: t)[j]? = some b := fun j hj hs => by
    obtain ⟨hp, hb⟩ := (take_succ_suffix_concat (by omega)).mp hs
    exact ⟨h.eq_zero_or_eq ha hit (by simpa using hj) hp, hb⟩
  rw [scanStep]
  split_ifs with hib h0
  · refine ⟨(take_succ_suffix_concat hi).mpr ⟨h.suffix, hib⟩, fun j hij hj hs => ?_⟩
    obtain ⟨j, rfl⟩ := Nat.exists_eq_succ_of_ne_zero (Nat.ne_zero_of_lt hij)
    have := (hext j hj hs).1
    omega
  · refine ⟨(take_succ_suffix_concat (by simp)).mpr ⟨by simp, h0⟩, fun j hij hj hs => ?_⟩
    obtain ⟨j, rfl⟩ := Nat.exists_eq_succ_of_ne_zero (Nat.ne_zero_of_lt hij)
    obtain ⟨rfl | rfl, hb⟩ := hext j hj hs
    · omega
    · exact hib hb
  · refine ⟨by simp, fun j hij hj hs => ?_⟩
    obtain ⟨j, rfl⟩ := Nat.exists_eq_succ_of_ne_zero (Nat.ne_zero_of_lt hij)
    obtain ⟨rfl | rfl, hb⟩ := hext j hj hs
    · exact h0 hb
    · exact hib hb

omit [DecidableEq α] in
theorem Matched.not_suffix {i : ℕ} {p : List α} (h : Matched m i p) (hi : i < m.length) :
    ¬ m <:+ p := by
  simpa using h.longest m.length hi le_rfl

theorem scan_of_le {i : ℕ} (h : m.length ≤ i) (l : List α) : scan m i l = some l := by
  cases l <;> simp [scan, Nat.not_lt.mpr h]

/-- `q` is what has to be read after `p` for the first occurrence to be complete. -/
def Completes (m p q : List α) : Prop :=
  m <:+ p ++ q ∧ ∀ q', q' <+: q → m <:+ p ++ q' → q' = q

omit [DecidableEq α] in
theorem completes_nil_iff {p q : List α} (hp : m <:+ p) : Completes m p q ↔ q = [] := by
  constructor
  · intro h
    exact (h.2 [] List.nil_prefix (by simpa using hp)).symm
  · rintro rfl
    exact ⟨by simpa using hp, fun q' hq' _ => List.prefix_nil.mp hq'⟩

omit [DecidableEq α] in
theorem completes_cons_iff {p q : List α} {b : α} (hp : ¬ m <:+ p) :
    Completes m p (b :: q) ↔ Completes m (p ++ [b]) q := by
  simp only [Completes, List.append_assoc, List.singleton_append]
  refine and_congr_right fun _ => ⟨fun h q' hq' hm => ?_, fun h q' hq' hm => ?_⟩
  · exact List.tail_eq_of_cons_eq (h (b :: q') ((List.prefix_cons_inj b).mpr hq') hm)
  · rcases List.prefix_cons_iff.mp hq' with rfl | ⟨s, rfl, hs⟩
    · exact absurd (by simpa using hm) hp
    · rw [h s hs hm]

/-- A complete counter reads nothing more. -/
theorem scan_eq_some_iff_of_le {i : ℕ} {p l r : List α} (h : Matched m i p) (hi : m.length ≤ i) :
    scan m i l = some r ↔ ∃ q, l = q ++ r ∧ Completes m p q := by
  have hp : m <:+ p := by simpa [List.take_of_length_le hi] using h.suffix
  simp only [scan_of_le hi, completes_nil_iff hp, Option.some.injEq, exists_eq_right,
    List.nil_append]

/-- The scan from the middle of a stream, of which `p` has been read. -/
theorem scan_eq_some_iff {i : ℕ} {p l r : List α} (ha : a ∉ t) (h : Matched (a :: t) i p) :
    scan (a :: t) i l = some r ↔ ∃ q, l = q ++ r ∧ Completes (a :: t) p q := by
  induction l generalizing i p with
  | nil =>
    rcases Nat.lt_or_ge i (a :: t).length with hi | hi
    · simp only [scan, if_pos hi, reduceCtorEq, false_iff, not_exists, not_and]
      intro q hq hc
      rw [(List.append_eq_nil_iff.mp hq.symm).1] at hc
      exact h.not_suffix hi (by simpa using hc.1)
    · exact scan_eq_some_iff_of_le h hi
  | cons b l ih =>
    rcases Nat.lt_or_ge i (a :: t).length with hi | hi
    · have hp := h.not_suffix hi
      rw [scan, if_pos hi, ih (h.step ha hi b)]
      constructor
      · rintro ⟨q, rfl, hq⟩
        exact ⟨b :: q, rfl, (completes_cons_iff hp).mpr hq⟩
      · rintro ⟨_ | ⟨c, q⟩, hl, hq⟩
        · exact absurd (by simpa using hq.1) hp
        · obtain ⟨rfl, rfl⟩ := List.cons.inj hl
          exact ⟨q, rfl, (completes_cons_iff hp).mp hq⟩
    · exact scan_eq_some_iff_of_le h hi

/-- **The counter finds the first occurrence.** -/
theorem scan_eq_afterFirst (ha : a ∉ t) (l : List α) :
    scan (a :: t) 0 l = afterFirst (a :: t) l := by
  refine Option.ext fun r => ?_
  rw [scan_eq_some_iff ha (matched_nil (by simp)), afterFirst_eq_some_iff]
  simp only [Completes, FirstEnd, List.nil_append]

end Counter

omit [DecidableEq α] in
/-- A marker that does not occur in `pre` occurs first at its end. -/
theorem firstEnd_append {a : α} {t pre : List α} (ha : a ∉ t) (h : ¬ a :: t <:+: pre) :
    FirstEnd (a :: t) (pre ++ a :: t) := by
  refine ⟨List.suffix_append _ _, fun p hp hm => ?_⟩
  rcases List.prefix_or_prefix_of_prefix hp (List.prefix_append pre (a :: t)) with hpre | hpre
  · exact absurd (hm.isInfix.trans hpre.isInfix) h
  · obtain ⟨s, rfl⟩ := hpre
    rcases List.prefix_cons_iff.mp ((List.prefix_append_right_inj pre).mp hp) with rfl | ⟨s, rfl,
      hs⟩
    · exact absurd (by simpa using hm.isInfix) h
    · have hsuf : a :: s <:+ a :: t := List.suffix_of_suffix_length_le
        (List.suffix_append _ _) hm (by simpa using hs.length_le)
      rcases List.suffix_cons_iff.mp hsuf with heq | hsuf
      · rw [heq]
      · exact absurd (hsuf.subset List.mem_cons_self) ha

end Stream
