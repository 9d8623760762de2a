import Mathlib.Data.List.Forall2

/-!
# What a computation returns

A computation returns values with a property when it is a computation of such values. What every run
returns is then proved from what its steps return, in any lawful monad. A loop returns one result
for each element, so its results are compared with the elements pair by pair.
-/

namespace Returning
variable {m : Type → Type} [Monad m] [LawfulMonad m] {σ α β : Type} {p : α → Prop} {q : β → Prop}

def Returns (p : α → Prop) (x : m α) : Prop := ∃ found : m {a // p a}, Subtype.val <$> found = x

theorem returns_pure {a : α} (h : p a) : Returns p (pure a : m α) := ⟨pure ⟨a, h⟩, map_pure _ _⟩

theorem returns_trivial (x : m α) : Returns (fun _ => True) x := by
  refine ⟨(fun a => ⟨a, trivial⟩) <$> x, ?_⟩
  rw [Functor.map_map, id_map']

theorem Returns.bind {x : m α} {f : α → m β} (hx : Returns p x)
    (hf : ∀ a, p a → Returns q (f a)) : Returns q (x >>= f) := by
  obtain ⟨found, rfl⟩ := hx
  have hnext : ∀ a : {a // p a}, ∃ following : m {b // q b}, Subtype.val <$> following = f a :=
    fun a => hf a a.property
  choose following hfollowing using hnext
  refine ⟨found >>= following, ?_⟩
  rw [map_bind, bind_map_left]
  exact bind_congr hfollowing

theorem Returns.mono {p' : α → Prop} {x : m α} (hx : Returns p x) (h : ∀ a, p a → p' a) :
    Returns p' x := by
  rw [← bind_pure x]
  exact hx.bind fun a ha => returns_pure (h a ha)

theorem returns_mapM {f : α → m β} {r : α → β → Prop} {values : List α}
    (h : ∀ a ∈ values, Returns (r a) (f a)) :
    Returns (List.Forall₂ r values) (values.mapM f) := by
  induction values with
  | nil =>
      rw [List.mapM_nil]
      exact returns_pure .nil
  | cons a values ih =>
      obtain ⟨ha, hvalues⟩ := List.forall_mem_cons.mp h
      rw [List.mapM_cons]
      refine ha.bind fun b hb => (ih hvalues).bind fun bs hbs => ?_
      exact returns_pure (.cons hb hbs)

/-- What agrees pair by pair agrees on the lists. -/
theorem map_eq_map_of_forall₂ {γ : Type} {f : α → γ} {g : β → γ} {values : List α}
    {results : List β} (h : List.Forall₂ (fun a b => f a = g b) values results) :
    values.map f = results.map g := by
  have hmapped := List.forall₂_map_left_iff.mpr (List.forall₂_map_right_iff.mpr h)
  rwa [List.forall₂_eq_eq_eq] at hmapped

/-- Every result is that of an element. -/
theorem exists_of_forall₂_mem {r : α → β → Prop} {values : List α} {results : List β}
    (h : List.Forall₂ r values results) {b : β} (hb : b ∈ results) : ∃ a ∈ values, r a b := by
  induction h with
  | nil => cases hb
  | cons hhead _ ih =>
      rcases List.mem_cons.mp hb with rfl | hb
      · exact ⟨_, List.mem_cons_self, hhead⟩
      · obtain ⟨a, ha, hr⟩ := ih hb
        exact ⟨a, List.mem_cons_of_mem _ ha, hr⟩

/-- Without effects the property is one of the value. -/
theorem Returns.of_id {x : Id α} (hx : Returns p x) : p x.run := by
  obtain ⟨found, rfl⟩ := hx
  exact found.run.property

/-- The property holds from every state. -/
theorem Returns.of_state {x : StateM σ α} (hx : Returns p x) (s : σ) : p (x.run s).1 := by
  obtain ⟨found, rfl⟩ := hx
  exact (found.run s).1.property

end Returning
