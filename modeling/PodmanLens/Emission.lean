import Mathlib.Data.List.Basic
import Mathlib.Data.List.Forall2

/-!
# Emitted events

A stateful computation that records each use of an operation emits the list of the recorded events.
What it returns and what it emits are proved together, one step after another.
-/

namespace Emission
variable {σ ε ρ α β : Type} {q : α → List ε → Prop} {r : β → List ε → Prop}

/-- The operation, with a log of what it was used with beside its own state. -/
def recorded (operation : ε → StateM σ ρ) (event : ε) : StateM (σ × List ε) ρ := fun s =>
  let (result, state) := (operation event).run s.1
  (result, state, s.2 ++ [event])

/-- From every state the log grows by events that have the property together with the result. -/
def Emits (x : StateM (σ × List ε) α) (q : α → List ε → Prop) : Prop :=
  ∀ s, ∃ events, (x.run s).2.2 = s.2 ++ events ∧ q (x.run s).1 events

theorem emits_pure {a : α} (h : q a []) : Emits (pure a : StateM (σ × List ε) α) q :=
  fun s => ⟨[], (List.append_nil s.2).symm, h⟩

theorem emits_recorded (operation : ε → StateM σ ρ) (event : ε) :
    Emits (recorded operation event) fun _ events => events = [event] :=
  fun _ => ⟨[event], rfl, rfl⟩

theorem Emits.imp {q' : α → List ε → Prop} {x : StateM (σ × List ε) α} (h : Emits x q)
    (himp : ∀ a events, q a events → q' a events) : Emits x q' := by
  intro s
  obtain ⟨events, hlog, hq⟩ := h s
  exact ⟨events, hlog, himp _ _ hq⟩

/-- The events of the second computation follow those of the first. -/
theorem Emits.bind {x : StateM (σ × List ε) α} {f : α → StateM (σ × List ε) β} (hx : Emits x q)
    (hf : ∀ a events, q a events → Emits (f a) fun b rest => r b (events ++ rest)) :
    Emits (x >>= f) r := by
  intro s
  obtain ⟨events, hlog, hq⟩ := hx s
  obtain ⟨rest, hrest, hr⟩ := hf _ _ hq (x.run s).2
  refine ⟨events ++ rest, ?_, hr⟩
  rw [← List.append_assoc, ← hlog]
  exact hrest

/-- Elements that each emit their own events emit them in the order of the list. -/
theorem emits_mapM {f : α → StateM (σ × List ε) β} {p : α → β → Prop} {emitted : α → List ε}
    {values : List α}
    (h : ∀ a ∈ values, Emits (f a) fun b events => p a b ∧ events = emitted a) :
    Emits (values.mapM f) fun results events =>
      List.Forall₂ p values results ∧ events = values.flatMap emitted := by
  induction values with
  | nil => exact emits_pure ⟨.nil, rfl⟩
  | cons a values ih =>
      obtain ⟨ha, hvalues⟩ := List.forall_mem_cons.mp h
      rw [List.mapM_cons]
      refine ha.bind fun b events hb => (ih hvalues).bind fun results rest hresults => ?_
      refine emits_pure ⟨.cons hb.1 hresults.1, ?_⟩
      rw [hb.2, hresults.2, List.append_nil, List.flatMap_cons]

end Emission
