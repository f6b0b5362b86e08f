import ClickA.Graph.Search

/-!
# Depth-first search with a limit

The search of `Graph.visit`, for as long as the nodes that were seen are not more than a limit. A
node beyond the limit is seen, but its neighbours are not visited.

## Main definitions

* `visitUpTo`: the search from a node, with a limit

## Main results

* `visitUpTo_keeps`: what is kept by each node that is seen is kept by the search
* `visitUpTo_eq_some_iff`: within the limit, it is the search without one
* `exists_visitUpTo`: the search ends
* `length_visitUpTo_le`: how many nodes are seen beyond the limit
-/

namespace Graph

variable {α : Type} [DecidableEq α] {next : α → List α} {cap n : ℕ} {v : α} {seen seen' : List α}

/-- The nodes that are seen behind a visit with a limit. -/
def visitUpTo (next : α → List α) (cap : ℕ) : ℕ → List α → α → Option (List α)
  | 0, _, _ => none
  | n + 1, seen, v =>
    if cap < (seen ++ [v]).length then some (seen ++ [v])
    else (next v).foldlM
      (fun seen u => if u ∈ seen then some seen else visitUpTo next cap n seen u) (seen ++ [v])

/-- One root of the loop over the neighbours. -/
def visitNextUpTo (next : α → List α) (cap n : ℕ) (seen : List α) (u : α) : Option (List α) :=
  if u ∈ seen then some seen else visitUpTo next cap n seen u

theorem visitUpTo_beyond (h : cap < seen.length + 1) :
    visitUpTo next cap (n + 1) seen v = some (seen ++ [v]) := by
  apply if_pos
  rwa [List.length_append, List.length_singleton]

theorem visitUpTo_within (h : seen.length + 1 ≤ cap) : visitUpTo next cap (n + 1) seen v =
    (next v).foldlM (visitNextUpTo next cap n) (seen ++ [v]) := by
  apply if_neg
  rw [List.length_append, List.length_singleton]
  exact Nat.not_lt.mpr h

/-! ## What is kept -/

omit [DecidableEq α] in
/-- What is kept by each step of a loop is kept by the loop. -/
theorem foldlM_keeps {β : Type} {f : β → α → Option β} {P : β → Prop} {us : List α} {b b' : β}
    (hstep : ∀ u ∈ us, ∀ b b', P b → f b u = some b' → P b') (hb : P b)
    (h : us.foldlM f b = some b') : P b' := by
  induction us generalizing b with
  | nil =>
    obtain rfl := Option.some.inj h
    exact hb
  | cons u us ih =>
    rw [List.foldlM_cons] at h
    obtain ⟨b₁, hfirst, hrest⟩ := Option.bind_eq_some_iff.mp h
    apply ih (fun w hw => hstep w (List.mem_cons_of_mem _ hw)) ?_ hrest
    exact hstep u List.mem_cons_self b b₁ hb hfirst

/-- **What is kept by each node that is reached and seen is kept by the search.** -/
theorem visitUpTo_keeps {P : List α → Prop}
    (hstep : ∀ seen u, P seen → u ∉ seen → Reaches next v u → P (seen ++ [u])) (hv : v ∉ seen)
    (hseen : P seen) (h : visitUpTo next cap n seen v = some seen') : P seen' := by
  induction n generalizing seen v seen' with
  | zero => exact absurd h (by simp [visitUpTo])
  | succ n ih =>
    have hroot := hstep seen v hseen hv .refl
    by_cases hcap : seen.length + 1 ≤ cap
    · rw [visitUpTo_within hcap] at h
      apply foldlM_keeps ?_ hroot h
      intro u hu s s' hs hvisit
      unfold visitNextUpTo at hvisit
      split at hvisit
      · obtain rfl := Option.some.inj hvisit
        exact hs
      · next hnew =>
        apply ih ?_ hnew hs hvisit
        intro s w hs hw hreach
        exact hstep s w hs hw (.head hu hreach)
    · rw [visitUpTo_beyond (Nat.not_le.mp hcap)] at h
      obtain rfl := Option.some.inj h
      exact hroot

/-- A search adds nodes behind those that were seen. -/
theorem prefix_of_visitUpTo (hv : v ∉ seen) (h : visitUpTo next cap n seen v = some seen') :
    seen <+: seen' :=
  visitUpTo_keeps (fun _ _ hs _ _ => hs.trans (List.prefix_append _ _)) hv List.prefix_rfl h

theorem prefix_of_visitNextUpTo {u : α} (h : visitNextUpTo next cap n seen u = some seen') :
    seen <+: seen' := by
  unfold visitNextUpTo at h
  split at h
  · obtain rfl := Option.some.inj h
    exact List.prefix_rfl
  · exact prefix_of_visitUpTo ‹_› h

/-- The root of a search is the first node that it adds. -/
theorem exists_append_of_visitUpTo (h : visitUpTo next cap n seen v = some seen') :
    ∃ rest, seen' = seen ++ v :: rest := by
  cases n with
  | zero => exact absurd h (by simp [visitUpTo])
  | succ n =>
    by_cases hcap : seen.length + 1 ≤ cap
    · rw [visitUpTo_within hcap] at h
      have hpre : seen ++ [v] <+: seen' :=
        foldlM_keeps (fun _ _ _ _ hs hvisit => hs.trans (prefix_of_visitNextUpTo hvisit))
          List.prefix_rfl h
      obtain ⟨rest, rfl⟩ := hpre
      exact ⟨rest, by simp⟩
    · rw [visitUpTo_beyond (Nat.not_le.mp hcap)] at h
      obtain rfl := Option.some.inj h
      exact ⟨[], rfl⟩

/-! ## Within the limit -/

omit [DecidableEq α] in
/-- Loops that agree on each step that stays within the limit. -/
theorem foldlM_eq_some_iff {f g : List α → α → Option (List α)}
    (hf : ∀ s u s', f s u = some s' → s <+: s') (hg : ∀ s u s', g s u = some s' → s <+: s')
    (hagree : ∀ s u s', s'.length ≤ cap → (f s u = some s' ↔ g s u = some s')) (us : List α)
    (hlength : seen'.length ≤ cap) :
    us.foldlM f seen = some seen' ↔ us.foldlM g seen = some seen' := by
  have hgrows : ∀ {f : List α → α → Option (List α)}, (∀ s u s', f s u = some s' → s <+: s') →
      ∀ {us : List α} {s}, us.foldlM f s = some seen' → s.length ≤ cap := by
    intro f hf us s h
    have hpre : s <+: seen' :=
      foldlM_keeps (fun u _ s₁ s₂ hs hstep => hs.trans (hf s₁ u s₂ hstep)) List.prefix_rfl h
    exact hpre.length_le.trans hlength
  induction us generalizing seen with
  | nil => exact Iff.rfl
  | cons u us ih =>
    rw [List.foldlM_cons, List.foldlM_cons]
    simp only [Option.bind_eq_bind, Option.bind_eq_some_iff]
    constructor
    · rintro ⟨s, hfirst, hrest⟩
      exact ⟨s, (hagree seen u s (hgrows hf hrest)).mp hfirst, ih.mp hrest⟩
    · rintro ⟨s, hfirst, hrest⟩
      exact ⟨s, (hagree seen u s (hgrows hg hrest)).mpr hfirst, ih.mpr hrest⟩

theorem prefix_of_visitNext {u : α} (h : visitNext next n seen u = some seen') :
    seen <+: seen' := by
  unfold visitNext at h
  split at h
  · obtain rfl := Option.some.inj h
    exact List.prefix_rfl
  · obtain ⟨new, rfl, -⟩ := grown_of_visit h ‹_›
    exact List.prefix_append _ _

/-- **Within the limit, the search is the one without a limit.** -/
theorem visitUpTo_eq_some_iff (hlength : seen'.length ≤ cap) :
    visitUpTo next cap n seen v = some seen' ↔ visit next n seen v = some seen' := by
  induction n generalizing seen v seen' with
  | zero => exact Iff.rfl
  | succ n ih =>
    rw [visit_succ]
    by_cases hcap : seen.length + 1 ≤ cap
    · rw [visitUpTo_within hcap]
      apply foldlM_eq_some_iff (fun _ _ _ => prefix_of_visitNextUpTo)
        (fun _ _ _ => prefix_of_visitNext)
        ?_ _ hlength
      intro s u s' hs
      unfold visitNextUpTo visitNext
      split
      · exact Iff.rfl
      · exact ih hs
    · have hlong : ¬ (seen ++ [v]).length ≤ cap := by
        rwa [List.length_append, List.length_singleton]
      rw [visitUpTo_beyond (Nat.not_le.mp hcap)]
      constructor
      · intro h
        obtain rfl := Option.some.inj h
        exact absurd hlength hlong
      · intro h
        have hpre : seen ++ [v] <+: seen' :=
          foldlM_keeps (fun _ _ _ _ hs hvisit => hs.trans (prefix_of_visitNext hvisit))
            List.prefix_rfl h
        exact absurd (hpre.length_le.trans hlength) hlong

/-! ## The search ends -/

/-- **A search with a limit ends, at a depth of as many calls as the limit leaves.** -/
theorem exists_visitUpTo (hn : 0 < n) (hcap : cap + 1 ≤ n + seen.length) :
    ∃ seen', visitUpTo next cap n seen v = some seen' := by
  induction n generalizing seen v with
  | zero => exact absurd hn (Nat.lt_irrefl 0)
  | succ n ih =>
    by_cases hwithin : seen.length + 1 ≤ cap
    · rw [visitUpTo_within hwithin]
      have hlong : cap + 1 ≤ n + (seen ++ [v]).length := by
        rw [List.length_append, List.length_singleton]
        omega
      generalize seen ++ [v] = s at hlong
      induction next v generalizing s with
      | nil => exact ⟨s, rfl⟩
      | cons u us ihs =>
        rw [List.foldlM_cons]
        obtain ⟨s₁, hs₁⟩ : ∃ s₁, visitNextUpTo next cap n s u = some s₁ := by
          unfold visitNextUpTo
          split
          · exact ⟨s, rfl⟩
          · exact ih (by omega) hlong
        have hle := (prefix_of_visitNextUpTo hs₁).length_le
        obtain ⟨s₂, hs₂⟩ := ihs s₁ (by omega)
        exact ⟨s₂, by rw [hs₁]; exact hs₂⟩
    · exact ⟨_, visitUpTo_beyond (Nat.not_le.mp hwithin)⟩

/-! ## Beyond the limit -/

omit [DecidableEq α] in
/-- Along a loop, each step of which adds one at most, as many are added as there are steps. -/
theorem foldlM_measure_le {β : Type} {f : β → α → Option β} {m : β → ℕ} {us : List α} {b b' : β}
    (hstep : ∀ b u b', f b u = some b' → m b' ≤ m b + 1) (h : us.foldlM f b = some b') :
    m b' ≤ m b + us.length := by
  induction us generalizing b with
  | nil =>
    obtain rfl := Option.some.inj h
    exact Nat.le_refl _
  | cons u us ih =>
    rw [List.foldlM_cons] at h
    obtain ⟨b₁, hfirst, hrest⟩ := Option.bind_eq_some_iff.mp h
    have hle := hstep b u b₁ hfirst
    have hrest := ih hrest
    rw [List.length_cons]
    omega

/-- **A node is paid for by the nodes that the limit leaves: each may let its neighbours be
seen.** -/
theorem length_visitUpTo_le {d : ℕ} (hnext : ∀ u, (next u).length ≤ d)
    (h : visitUpTo next cap n seen v = some seen') :
    seen'.length + d * (cap - seen'.length) ≤ seen.length + d * (cap - seen.length) + 1 := by
  induction n generalizing seen v seen' with
  | zero => exact absurd h (by simp [visitUpTo])
  | succ n ih =>
    have hlong : (seen ++ [v]).length = seen.length + 1 := by simp
    by_cases hcap : seen.length + 1 ≤ cap
    · rw [visitUpTo_within hcap] at h
      have hle := foldlM_measure_le (m := fun s => s.length + d * (cap - s.length)) ?_ h
      · have hpaid : d * (cap - seen.length) = d * (cap - (seen.length + 1)) + d := by
          rw [← Nat.mul_succ]
          congr 1
          omega
        have hfew := hnext v
        rw [hlong] at hle
        omega
      · intro s u s' hvisit
        unfold visitNextUpTo at hvisit
        split at hvisit
        · obtain rfl := Option.some.inj hvisit
          exact Nat.le_succ _
        · exact ih hvisit
    · rw [visitUpTo_beyond (Nat.not_le.mp hcap)] at h
      obtain rfl := Option.some.inj h
      rw [hlong, Nat.sub_eq_zero_of_le (by omega : cap ≤ seen.length + 1), Nat.mul_zero]
      omega

end Graph
