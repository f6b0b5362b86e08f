import Mathlib.Data.Finset.Card
import Mathlib.Data.List.Nodup
import Mathlib.Logic.Relation

/-!
# Depth-first search

A recursive search with one list of the nodes that were seen, in any graph whose nodes have lists of
neighbours.

## Main definitions

* `visit`: the search from a node
* `Grown`: what a search adds
* `Pieces`: the components that were found, one by one

## Main results

* `grown_of_visit`: what a search adds is reached, and closed
* `exists_visit`: the search ends
* `Pieces.skip`, `Pieces.grow`: the next node belongs to a component, or gives a new one
-/

namespace Graph

variable {α : Type} {next : α → List α} {u v : α} {seen new : List α}

/-- The nodes that are seen behind a visit, in the order in which they are visited. -/
def visit [DecidableEq α] (next : α → List α) : ℕ → List α → α → Option (List α)
  | 0, _, _ => none
  | n + 1, seen, v => (next v).foldlM
      (fun seen u => if u ∈ seen then some seen else visit next n seen u) (seen ++ [v])

/-- The nodes that are reached from a node. -/
def Reaches (next : α → List α) : α → α → Prop := Relation.ReflTransGen fun a b => b ∈ next a

/-- Reaching is mutual when being neighbours is. -/
theorem Reaches.symm (hsymm : ∀ a b, b ∈ next a → a ∈ next b) (h : Reaches next u v) :
    Reaches next v u := by
  induction h with
  | refl => exact .refl
  | tail hab hbc ih => exact .head (hsymm _ _ hbc) ih

/-- What a search from some roots adds to the nodes that were seen. -/
structure Grown (next : α → List α) (roots seen new : List α) : Prop where
  nodup : new.Nodup
  fresh : ∀ u ∈ new, u ∉ seen
  covers : ∀ v ∈ roots, v ∈ seen ++ new
  reached : ∀ u ∈ new, ∃ v ∈ roots, Reaches next v u
  closed : ∀ u ∈ new, ∀ t ∈ next u, t ∈ seen ++ new

namespace Grown

variable {roots : List α}

theorem nil : Grown next [] seen [] where
  nodup := List.nodup_nil
  fresh _ h := absurd h List.not_mem_nil
  covers _ h := absurd h List.not_mem_nil
  reached _ h := absurd h List.not_mem_nil
  closed _ h := absurd h List.not_mem_nil

/-- A root that was seen adds nothing. -/
theorem skip (hu : u ∈ seen) (h : Grown next roots seen new) :
    Grown next (u :: roots) seen new where
  nodup := h.nodup
  fresh := h.fresh
  covers v hv := by
    rcases List.mem_cons.mp hv with rfl | hv
    · exact List.mem_append_left _ hu
    · exact h.covers v hv
  reached t ht := by
    obtain ⟨v, hv, hreach⟩ := h.reached t ht
    exact ⟨v, List.mem_cons_of_mem _ hv, hreach⟩
  closed := h.closed

/-- One root behind the other. -/
theorem append {new' : List α} (h : Grown next [u] seen new)
    (h' : Grown next roots (seen ++ new) new') :
    Grown next (u :: roots) seen (new ++ new') where
  nodup := by
    rw [List.nodup_append]
    refine ⟨h.nodup, h'.nodup, ?_⟩
    rintro a ha b hb rfl
    exact h'.fresh a hb (List.mem_append_right _ ha)
  fresh t ht := by
    rcases List.mem_append.mp ht with ht | ht
    · exact h.fresh t ht
    · exact fun hseen => h'.fresh t ht (List.mem_append_left _ hseen)
  covers v hv := by
    rw [← List.append_assoc]
    rcases List.mem_cons.mp hv with rfl | hv
    · exact List.mem_append_left _ (h.covers v List.mem_cons_self)
    · exact h'.covers v hv
  reached t ht := by
    rcases List.mem_append.mp ht with ht | ht
    · obtain ⟨v, hv, hreach⟩ := h.reached t ht
      rw [List.mem_singleton.mp hv] at hreach
      exact ⟨u, List.mem_cons_self, hreach⟩
    · obtain ⟨v, hv, hreach⟩ := h'.reached t ht
      exact ⟨v, List.mem_cons_of_mem _ hv, hreach⟩
  closed t ht s hs := by
    rw [← List.append_assoc]
    rcases List.mem_append.mp ht with ht | ht
    · exact List.mem_append_left _ (h.closed t ht s hs)
    · exact h'.closed t ht s hs

/-- A node, and then its neighbours. -/
theorem visit (hv : v ∉ seen) (h : Grown next (next v) (seen ++ [v]) new) :
    Grown next [v] seen (v :: new) where
  nodup := List.nodup_cons.mpr ⟨fun hmem => h.fresh v hmem (by simp), h.nodup⟩
  fresh t ht := by
    rcases List.mem_cons.mp ht with rfl | ht
    · exact hv
    · exact fun hseen => h.fresh t ht (List.mem_append_left _ hseen)
  covers t ht := by
    rw [List.mem_singleton.mp ht]
    simp
  reached t ht := by
    refine ⟨v, List.mem_cons_self, ?_⟩
    rcases List.mem_cons.mp ht with rfl | ht
    · exact .refl
    · obtain ⟨w, hw, hreach⟩ := h.reached t ht
      exact .head hw hreach
  closed t ht s hs := by
    rw [List.append_cons]
    rcases List.mem_cons.mp ht with rfl | ht
    · exact h.covers s hs
    · exact h.closed t ht s hs

end Grown

/-! ## The search -/

section Visit

variable [DecidableEq α]

/-- One root of the loop over the neighbours. -/
def visitNext (next : α → List α) (n : ℕ) (seen : List α) (u : α) : Option (List α) :=
  if u ∈ seen then some seen else Graph.visit next n seen u

theorem visit_succ (n : ℕ) : Graph.visit next (n + 1) seen v =
    (next v).foldlM (visitNext next n) (seen ++ [v]) := rfl

theorem grown_of_loop {n : ℕ}
    (hvisit : ∀ seen seen' u, Graph.visit next n seen u = some seen' → u ∉ seen →
      ∃ new, seen' = seen ++ new ∧ Grown next [u] seen new)
    (roots : List α) {seen seen' : List α} (h : roots.foldlM (visitNext next n) seen = some seen') :
    ∃ new, seen' = seen ++ new ∧ Grown next roots seen new := by
  induction roots generalizing seen with
  | nil =>
    obtain rfl := Option.some.inj h
    exact ⟨[], (List.append_nil _).symm, .nil⟩
  | cons u roots ih =>
    rw [List.foldlM_cons] at h
    obtain ⟨seen₁, hfirst, hrest⟩ := Option.bind_eq_some_iff.mp h
    unfold visitNext at hfirst
    split at hfirst
    · next hu =>
      obtain rfl := Option.some.inj hfirst
      obtain ⟨new, hnew, hgrown⟩ := ih hrest
      exact ⟨new, hnew, hgrown.skip hu⟩
    · next hu =>
      obtain ⟨new₁, rfl, hgrown₁⟩ := hvisit _ _ u hfirst hu
      obtain ⟨new₂, rfl, hgrown₂⟩ := ih hrest
      exact ⟨new₁ ++ new₂, List.append_assoc _ _ _, hgrown₁.append hgrown₂⟩

/-- **What a search adds is reached from its root, and has no neighbour that is not seen.** -/
theorem grown_of_visit {n : ℕ} {seen' : List α} (h : Graph.visit next n seen v = some seen')
    (hv : v ∉ seen) : ∃ new, seen' = seen ++ new ∧ Grown next [v] seen new := by
  induction n generalizing seen v seen' with
  | zero => exact absurd h (by simp [Graph.visit])
  | succ n ih =>
    rw [visit_succ] at h
    obtain ⟨new, rfl, hgrown⟩ := grown_of_loop (fun _ _ _ h hu => ih h hu) (next v) h
    exact ⟨v :: new, by simp, hgrown.visit hv⟩

/-! ## The search ends -/

variable {nodes : Finset α}

/-- The nodes that are not seen. -/
def unseen (nodes : Finset α) (seen : List α) : Finset α := nodes.filter (· ∉ seen)

theorem card_unseen_le (nodes : Finset α) (seen : List α) : (unseen nodes seen).card ≤ nodes.card :=
  Finset.card_le_card (Finset.filter_subset _ _)

theorem card_unseen_append_le (seen new : List α) :
    (unseen nodes (seen ++ new)).card ≤ (unseen nodes seen).card := by
  apply Finset.card_le_card
  intro t ht
  obtain ⟨hmem, hseen⟩ := Finset.mem_filter.mp ht
  exact Finset.mem_filter.mpr ⟨hmem, fun h => hseen (List.mem_append_left _ h)⟩

theorem card_unseen_lt (hmem : v ∈ nodes) (hv : v ∉ seen) :
    (unseen nodes (seen ++ [v])).card < (unseen nodes seen).card := by
  apply Finset.card_lt_card
  rw [Finset.ssubset_iff_of_subset]
  · exact ⟨v, Finset.mem_filter.mpr ⟨hmem, hv⟩, by simp [unseen]⟩
  · intro t ht
    obtain ⟨hmem, hseen⟩ := Finset.mem_filter.mp ht
    exact Finset.mem_filter.mpr ⟨hmem, fun h => hseen (List.mem_append_left _ h)⟩

/-- Along the loop over the neighbours, ever fewer nodes are left. -/
theorem exists_loop {n : ℕ} (hvisit : ∀ seen u, u ∈ nodes → u ∉ seen →
    (unseen nodes seen).card ≤ n →
      ∃ seen', Graph.visit next n seen u = some seen')
    (roots : List α) (seen : List α) (hroots : ∀ u ∈ roots, u ∈ nodes)
    (hn : (unseen nodes seen).card ≤ n) :
    ∃ seen', roots.foldlM (visitNext next n) seen = some seen' := by
  induction roots generalizing seen with
  | nil => exact ⟨seen, rfl⟩
  | cons u roots ih =>
    have hrest : ∀ w ∈ roots, w ∈ nodes := fun w hw => hroots w (List.mem_cons_of_mem _ hw)
    rw [List.foldlM_cons]
    by_cases hu : u ∈ seen
    · rw [visitNext, if_pos hu]
      exact ih seen hrest hn
    · obtain ⟨seen₁, hseen₁⟩ := hvisit seen u (hroots u List.mem_cons_self) hu hn
      rw [visitNext, if_neg hu, hseen₁]
      obtain ⟨new, rfl, -⟩ := grown_of_visit hseen₁ hu
      exact ih _ hrest ((card_unseen_append_le seen new).trans hn)

/-- **A search in a finite graph ends, at a depth of as many calls as there are nodes to be
seen.** -/
theorem exists_visit (hclosed : ∀ u ∈ nodes, ∀ t ∈ next u, t ∈ nodes) {n : ℕ} (hmem : v ∈ nodes)
    (hv : v ∉ seen) (hn : (unseen nodes seen).card ≤ n) :
    ∃ seen', Graph.visit next n seen v = some seen' := by
  induction n generalizing seen v with
  | zero =>
    have hlt := card_unseen_lt hmem hv
    omega
  | succ n ih =>
    have hlt := card_unseen_lt hmem hv
    rw [visit_succ]
    exact exists_loop (fun _ _ hu hfresh hn => ih hu hfresh hn) (next v) _ (hclosed v hmem)
      (by omega)

end Visit

/-! ## Components -/

section Components

/-- Components that were found one by one. They cover the nodes that were looked at. -/
structure Pieces (next : α → List α) (looked : List α) (pieces : List (List α)) : Prop where
  nodup : pieces.flatten.Nodup
  nonempty : ∀ c ∈ pieces, c ≠ []
  component : ∀ c ∈ pieces, ∀ u ∈ c, ∀ t, t ∈ c ↔ Reaches next u t
  covers : ∀ u ∈ looked, u ∈ pieces.flatten

namespace Pieces

variable {looked : List α} {pieces : List (List α)}

theorem nil : Pieces next [] [] where
  nodup := List.nodup_nil
  nonempty _ h := absurd h List.not_mem_nil
  component _ h := absurd h List.not_mem_nil
  covers _ h := absurd h List.not_mem_nil

/-- What is reached from a component belongs to it. -/
theorem reaches (h : Pieces next looked pieces) (hu : u ∈ pieces.flatten)
    (hreach : Reaches next u v) :
    v ∈ pieces.flatten := by
  obtain ⟨c, hc, huc⟩ := List.mem_flatten.mp hu
  exact List.mem_flatten.mpr ⟨c, hc, (h.component c hc u huc v).mpr hreach⟩

theorem skip (h : Pieces next looked pieces) (hv : v ∈ pieces.flatten) :
    Pieces next (looked ++ [v]) pieces where
  nodup := h.nodup
  nonempty := h.nonempty
  component := h.component
  covers u hu := by
    rcases List.mem_append.mp hu with hu | hu
    · exact h.covers u hu
    · rw [List.mem_singleton.mp hu]
      exact hv

/-- When neighbours are mutual, a search finds the component of its root. -/
theorem mem_iff (hsymm : ∀ a b, b ∈ next a → a ∈ next b) (h : Pieces next looked pieces)
    (hv : v ∉ pieces.flatten) (hgrown : Grown next [v] pieces.flatten new) :
    ∀ t, t ∈ new ↔ Reaches next v t := by
  intro t
  constructor
  · intro ht
    obtain ⟨w, hw, hreach⟩ := hgrown.reached t ht
    rwa [List.mem_singleton.mp hw] at hreach
  · intro hreach
    have hout : ∀ {a}, Reaches next v a → a ∉ pieces.flatten := fun ha hmem =>
      hv (h.reaches hmem (ha.symm hsymm))
    induction hreach with
    | refl =>
      rcases List.mem_append.mp (hgrown.covers v List.mem_cons_self) with hmem | hmem
      · exact absurd hmem hv
      · exact hmem
    | tail hab hbc ih =>
      rcases List.mem_append.mp (hgrown.closed _ ih _ hbc) with hmem | hmem
      · exact absurd hmem (hout (hab.tail hbc))
      · exact hmem

/-- **The next node that is not seen gives its component.** -/
theorem grow (hsymm : ∀ a b, b ∈ next a → a ∈ next b) (h : Pieces next looked pieces)
    (hv : v ∉ pieces.flatten) (hgrown : Grown next [v] pieces.flatten new) :
    Pieces next (looked ++ [v]) (pieces ++ [new]) where
  nodup := by
    rw [List.flatten_append, List.flatten_singleton, List.nodup_append]
    refine ⟨h.nodup, hgrown.nodup, ?_⟩
    rintro a ha b hb rfl
    exact hgrown.fresh a hb ha
  nonempty c hc := by
    rcases List.mem_append.mp hc with hc | hc
    · exact h.nonempty c hc
    · rw [List.mem_singleton.mp hc]
      exact List.ne_nil_of_mem ((h.mem_iff hsymm hv hgrown v).mpr .refl)
  component c hc u hu t := by
    rcases List.mem_append.mp hc with hc | hc
    · exact h.component c hc u hu t
    · obtain rfl := List.mem_singleton.mp hc
      have hvu := (h.mem_iff hsymm hv hgrown u).mp hu
      have huv := hvu.symm hsymm
      rw [h.mem_iff hsymm hv hgrown]
      exact ⟨fun hvt => huv.trans hvt, fun hut => hvu.trans hut⟩
  covers u hu := by
    rw [List.flatten_append, List.flatten_singleton]
    rcases List.mem_append.mp hu with hu | hu
    · exact List.mem_append_left _ (h.covers u hu)
    · rw [List.mem_singleton.mp hu]
      exact List.mem_append_right _ ((h.mem_iff hsymm hv hgrown v).mpr .refl)

end Pieces

end Components

end Graph
