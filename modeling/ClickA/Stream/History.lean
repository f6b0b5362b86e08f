import Mathlib.Data.List.Induction
import Mathlib.Order.Defs.Unbundled

/-!
# Histories

A history is the list of the events that happened so far. It goes on with more events, and an event
may need others before it.

## Main definitions

* `Extends P`: a history goes on with events that have a property
* `Preceded P required`: the events with a property come behind all the required ones

## Main results

* `preceded_concat`: one more event
* `Preceded.extends`, `Preceded.extends_of_subset`: a history stays in order when it goes on without
  such events, or behind the required ones
-/

namespace Stream

variable {α : Type*}

/-- A history goes on with events that have a property. -/
def Extends (P : α → Prop) (history history' : List α) : Prop :=
  ∃ events, history' = history ++ events ∧ ∀ e ∈ events, P e

/-- An event with a property comes behind all the required ones. -/
def Preceded (P : α → Prop) (required history : List α) : Prop :=
  ∀ before e after, history = before ++ e :: after → P e → required ⊆ before

section Extends

variable {P Q : α → Prop} {history history' history'' : List α} {e : α}

theorem Extends.of_eq (h : history' = history) : Extends P history history' :=
  ⟨[], by rw [h, List.append_nil], fun _ he => absurd he List.not_mem_nil⟩

theorem Extends.concat (he : P e) : Extends P history (history ++ [e]) := by
  refine ⟨[e], rfl, ?_⟩
  intro e' he'
  rw [List.mem_singleton.mp he']
  exact he

theorem Extends.trans (h : Extends P history history') (h' : Extends P history' history'') :
    Extends P history history'' := by
  obtain ⟨events, hhistory, hevents⟩ := h
  obtain ⟨events', hhistory', hevents'⟩ := h'
  refine ⟨events ++ events', ?_, ?_⟩
  · rw [hhistory', hhistory, List.append_assoc]
  · intro e he
    rcases List.mem_append.mp he with he | he
    · exact hevents e he
    · exact hevents' e he

theorem Extends.mono (h : Extends P history history') (hPQ : ∀ e, P e → Q e) :
    Extends Q history history' := by
  obtain ⟨events, hhistory, hevents⟩ := h
  exact ⟨events, hhistory, fun e he => hPQ e (hevents e he)⟩

/-- A history that goes on with no event is the same. -/
theorem Extends.eq (h : Extends (fun _ => False) history history') : history' = history := by
  obtain ⟨events, rfl, hevents⟩ := h
  rw [List.eq_nil_iff_forall_not_mem.mpr hevents, List.append_nil]

/-- What happened before stays in the history. -/
theorem Extends.subset (h : Extends P history history') : history ⊆ history' := by
  obtain ⟨events, rfl, -⟩ := h
  exact List.subset_append_left history events

instance : Std.Refl (Extends P) := ⟨fun _ => .of_eq rfl⟩

instance : IsTrans (List α) (Extends P) := ⟨fun _ _ _ => Extends.trans⟩

end Extends

section Preceded

variable {P Q : α → Prop} {required history history' : List α} {e : α}

theorem Preceded.nil : Preceded P required [] := by
  intro before e after h
  have hlength := congrArg List.length h
  rw [List.length_append, List.length_cons] at hlength
  simp at hlength

/-- One more event: if it has the property, the required events have happened. -/
theorem preceded_concat : Preceded P required (history ++ [e]) ↔
    Preceded P required history ∧ (P e → required ⊆ history) := by
  constructor
  · intro h
    refine ⟨?_, h history e [] rfl⟩
    intro before e' after hhistory
    refine h before e' (after ++ [e]) ?_
    rw [hhistory, List.append_assoc, List.cons_append]
  · rintro ⟨hhistory, he⟩ before e' after heq
    rcases List.eq_nil_or_concat after with rfl | ⟨after, last, rfl⟩
    · obtain ⟨rfl, hlast⟩ := List.append_inj' heq rfl
      cases hlast
      exact he
    · rw [List.concat_eq_append, ← List.cons_append, ← List.append_assoc] at heq
      exact hhistory before e' after (List.append_inj' heq rfl).1

/-- The history goes on without such events. -/
theorem Preceded.extends (h : Preceded P required history)
    (hextends : Extends (fun e => ¬ P e) history history') : Preceded P required history' := by
  obtain ⟨events, rfl, hevents⟩ := hextends
  induction events using List.reverseRecOn with
  | nil =>
    rw [List.append_nil]
    exact h
  | append_singleton events e ih =>
    rw [← List.append_assoc, preceded_concat]
    refine ⟨ih fun e' he' => hevents e' (List.mem_append_left _ he'), ?_⟩
    intro he
    exact absurd he (hevents e (List.mem_append_right _ (List.mem_singleton_self e)))

/-- Behind the required events, anything may happen. -/
theorem Preceded.extends_of_subset (h : Preceded P required history)
    (hrequired : required ⊆ history)
    (hextends : Extends Q history history') : Preceded P required history' := by
  obtain ⟨events, rfl, -⟩ := hextends
  induction events using List.reverseRecOn with
  | nil =>
    rw [List.append_nil]
    exact h
  | append_singleton events e ih =>
    rw [← List.append_assoc, preceded_concat]
    exact ⟨ih, fun _ => List.Subset.trans hrequired (List.subset_append_left history events)⟩

end Preceded

end Stream
