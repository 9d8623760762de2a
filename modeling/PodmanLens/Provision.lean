import Mathlib.Data.Set.Basic
import PodmanLens.Drain

/-!
# Actions that need and provide facts

An action runs in a state where all facts it needs hold and none of those it makes anew does, and
adds the facts it provides. Facts are never withdrawn. When every needed fact holds at first or has
one provider, an order of actions runs to its end exactly if each action comes after the providers
of what it needs.
-/

namespace Drain

theorem Before.of_map {β γ : Type*} {f : β → γ} {order : List β}
    (hf : ∀ {a b : β}, a ∈ order → b ∈ order → f a = f b → a = b) {a b : β}
    (h : Before (order.map f) (f a) (f b)) (ha : a ∈ order) (hb : b ∈ order) :
    Before order a b := by
  obtain ⟨front, back, hsplit, hmem⟩ := h
  obtain ⟨first, rest, rfl, rfl, hrest⟩ := List.map_eq_append_iff.mp hsplit
  obtain ⟨middle, last, rfl, hmiddle, -⟩ := List.map_eq_cons_iff.mp hrest
  obtain ⟨found, hfound, hsame⟩ := List.mem_map.mp hmem
  have hsameA := hf (List.mem_append_left _ hfound) ha hsame
  have hsameB := hf (List.mem_append_right _ List.mem_cons_self) hb hmiddle
  exact ⟨first, last, by rw [hsameB], hsameA ▸ hfound⟩

end Drain

namespace Provision
open Drain

universe u v
variable {α : Type u} {φ : Type v}

structure Actions (α : Type u) (φ : Type v) where
  needs : α → List φ
  provides : α → List φ
  fresh : α → List φ

variable {actions : Actions α φ} {held final : Set φ} {order : List α}

/-- What holds once the actions of `done` have run. -/
def Actions.after (actions : Actions α φ) (held : Set φ) (done : List α) : Set φ :=
  {fact | fact ∈ held ∨ ∃ action ∈ done, fact ∈ actions.provides action}

structure Actions.Enabled (actions : Actions α φ) (held : Set φ) (action : α) : Prop where
  needed : ∀ fact ∈ actions.needs action, fact ∈ held
  absent : ∀ fact ∈ actions.fresh action, fact ∉ held

inductive Actions.Run (actions : Actions α φ) : Set φ → List α → Set φ → Prop
  | stop (held : Set φ) : Run actions held [] held
  | act {held final : Set φ} {action : α} {rest : List α} (enabled : actions.Enabled held action)
      (run : Run actions (actions.after held [action]) rest final) :
      Run actions held (action :: rest) final

theorem after_nil : actions.after held [] = held := by
  ext fact
  simp [Actions.after]

theorem after_append {front back : List α} :
    actions.after (actions.after held front) back = actions.after held (front ++ back) := by
  ext fact
  simp only [Actions.after, Set.mem_ofPred_eq, List.mem_append, or_and_right, exists_or, or_assoc]

/-- A run ends with what its actions provide. -/
theorem Actions.Run.final_eq (h : actions.Run held order final) :
    final = actions.after held order := by
  induction h with
  | stop held => rw [after_nil]
  | act _ _ ih => rw [ih, after_append, List.singleton_append]

/-- An order runs to its end exactly if each action is enabled by what comes before it. -/
theorem run_iff_enabled : actions.Run held order (actions.after held order) ↔
    ∀ front action back, order = front ++ action :: back →
      actions.Enabled (actions.after held front) action := by
  induction order generalizing held with
  | nil =>
      rw [after_nil]
      refine ⟨fun _ front action back h => ?_, fun _ => .stop held⟩
      cases front <;> cases h
  | cons first rest ih =>
      have hfinal : actions.after held (first :: rest) =
          actions.after (actions.after held [first]) rest := by
        rw [after_append, List.singleton_append]
      constructor
      · intro hrun front action back h
        rw [hfinal] at hrun
        cases hrun with
        | act enabled run =>
            cases front with
            | nil =>
                cases h
                rw [after_nil]
                exact enabled
            | cons other front =>
                cases h
                have henabled := ih.mp run front action back rfl
                rwa [after_append, List.singleton_append] at henabled
      · intro henabled
        rw [hfinal]
        refine .act ?_ (ih.mpr fun front action back h => ?_)
        · have hfirst := henabled [] first rest rfl
          rwa [after_nil] at hfirst
        · have hlater := henabled (first :: front) action back (by rw [h, List.cons_append])
          rwa [after_append, List.singleton_append]

/-- An order without repetition splits in one way at each of its elements. -/
theorem eq_of_split {front back front' back' : List α} {action : α}
    (hnodup : (front ++ action :: back).Nodup)
    (h : front ++ action :: back = front' ++ action :: back') : front' = front := by
  induction front generalizing front' with
  | nil =>
      cases front' with
      | nil => rfl
      | cons other front' =>
          obtain ⟨rfl, rfl⟩ := List.cons.inj h
          exact absurd (List.mem_append_right front' List.mem_cons_self)
            (List.nodup_cons.mp hnodup).1
  | cons first front ih =>
      rw [List.cons_append, List.nodup_cons] at hnodup
      cases front' with
      | nil =>
          obtain ⟨rfl, -⟩ := List.cons.inj h
          exact absurd (List.mem_append_right front List.mem_cons_self) hnodup.1
      | cons other front' =>
          obtain ⟨rfl, hrest⟩ := List.cons.inj h
          rw [ih hnodup.2 hrest]

/-- Every need of the actions holds at first or has its one provider among them, and what they
provide does not hold before. -/
structure Actions.Supplied (actions : Actions α φ) (held : Set φ) (order : List α) : Prop where
  covered : ∀ action ∈ order, ∀ fact ∈ actions.needs action,
    fact ∈ held ∨ ∃ provider ∈ order, fact ∈ actions.provides provider
  single : ∀ action ∈ order, ∀ other ∈ order, ∀ fact ∈ actions.provides action,
    fact ∈ actions.provides other → action = other
  outside : ∀ action ∈ order, ∀ fact ∈ actions.provides action, fact ∉ held
  fresh : ∀ action ∈ order, ∀ fact ∈ actions.fresh action, fact ∈ actions.provides action

theorem Actions.Supplied.of_mem_iff {other : List α} (h : actions.Supplied held order)
    (hmem : ∀ action, action ∈ other ↔ action ∈ order) : actions.Supplied held other where
  covered action haction fact hfact := by
    rcases h.covered action ((hmem action).mp haction) fact hfact with hheld | ⟨provider, hprovider, hprovides⟩
    · exact Or.inl hheld
    · exact Or.inr ⟨provider, (hmem provider).mpr hprovider, hprovides⟩
  single action haction provider hprovider :=
    h.single action ((hmem action).mp haction) provider ((hmem provider).mp hprovider)
  outside action haction := h.outside action ((hmem action).mp haction)
  fresh action haction := h.fresh action ((hmem action).mp haction)

/-- Supplied actions run to their end exactly in the orders that put providers first. -/
theorem run_iff_before (h : actions.Supplied held order) (hnodup : order.Nodup) :
    (∃ final, actions.Run held order final) ↔
      ∀ action ∈ order, ∀ provider ∈ order, ∀ fact ∈ actions.needs action,
        fact ∈ actions.provides provider → Before order provider action := by
  constructor
  · rintro ⟨final, hrun⟩ action haction provider hprovider fact hneeds hprovides
    rw [hrun.final_eq, run_iff_enabled] at hrun
    obtain ⟨front, back, rfl⟩ := List.append_of_mem haction
    rcases (hrun front action back rfl).needed fact hneeds with hheld | ⟨found, hfound, hfact⟩
    · exact absurd hheld (h.outside provider hprovider fact hprovides)
    · have hsame := h.single provider hprovider found (List.mem_append_left _ hfound) fact
        hprovides hfact
      exact ⟨front, back, rfl, hsame ▸ hfound⟩
  · intro hbefore
    refine ⟨actions.after held order, run_iff_enabled.mpr fun front action back horder => ?_⟩
    have haction : action ∈ order := by
      rw [horder]
      exact List.mem_append_right _ List.mem_cons_self
    have hlater : action ∉ front := by
      intro hfront
      rw [horder] at hnodup
      exact (List.nodup_append.mp hnodup).2.2 action hfront action List.mem_cons_self rfl
    refine ⟨fun fact hneeds => ?_, fun fact hfresh => ?_⟩
    · rcases h.covered action haction fact hneeds with hheld | ⟨provider, hprovider, hprovides⟩
      · exact Or.inl hheld
      · obtain ⟨front', back', heq, hmem⟩ :=
          hbefore action haction provider hprovider fact hneeds hprovides
        rw [horder] at heq hnodup
        have hsplit := eq_of_split hnodup heq
        exact Or.inr ⟨provider, hsplit ▸ hmem, hprovides⟩
    · have hprovides := h.fresh action haction fact hfresh
      rintro (hheld | ⟨provider, hprovider, hfact⟩)
      · exact h.outside action haction fact hprovides hheld
      · have hmember : provider ∈ order := by
          rw [horder]
          exact List.mem_append_left _ hprovider
        have hsame := h.single provider hmember action haction fact hfact hprovides
        exact hlater (hsame ▸ hprovider)

end Provision
