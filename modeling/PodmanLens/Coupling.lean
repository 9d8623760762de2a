import PodmanLens.Noted
import PodmanLens.Returning

/-!
# Coupled computations

Two computations are coupled under a relation when both are the components of one computation of
related pairs. They then have the same effects, and what follows them may rely on the relation. A
statement about two runs is proved by coupling the runs step by step, in any lawful monad.
-/

namespace Coupling
variable {m : Type → Type} [Monad m] {α β γ δ : Type}

/-- Pairs of related values. -/
abbrev Related (alike : α → β → Prop) : Type := {pair : α × β // alike pair.1 pair.2}

def Coupled (alike : α → β → Prop) (left : m α) (right : m β) : Prop :=
  ∃ joint : m (Related alike),
    (fun pair => pair.val.1) <$> joint = left ∧ (fun pair => pair.val.2) <$> joint = right

namespace Coupled
variable [LawfulMonad m] {alike : α → β → Prop} {alike' : γ → δ → Prop}

theorem pure {a : α} {b : β} (h : alike a b) : Coupled alike (Pure.pure a : m α) (Pure.pure b) :=
  ⟨Pure.pure ⟨(a, b), h⟩, map_pure _ _, map_pure _ _⟩

theorem refl {alike : α → α → Prop} (h : ∀ a, alike a a) (run : m α) : Coupled alike run run := by
  refine ⟨(fun a => ⟨(a, a), h a⟩) <$> run, ?_, ?_⟩
  · rw [Functor.map_map, id_map']
  · rw [Functor.map_map, id_map']

theorem of_eq {left right : m α} (h : left = right) : Coupled Eq left right := by
  rw [h]
  exact refl (fun _ => rfl) right

/-- Runs that are coupled continue as coupled runs when related values do. -/
theorem bind {left : m α} {right : m β} {next : α → m γ} {next' : β → m δ}
    (h : Coupled alike left right) (hnext : ∀ a b, alike a b → Coupled alike' (next a) (next' b)) :
    Coupled alike' (left >>= next) (right >>= next') := by
  obtain ⟨joint, rfl, rfl⟩ := h
  have hjoint : ∀ pair : Related alike, ∃ following : m (Related alike'),
      (fun pair => pair.val.1) <$> following = next pair.val.1 ∧
        (fun pair => pair.val.2) <$> following = next' pair.val.2 := by
    intro pair
    exact hnext _ _ pair.property
  choose following hleft hright using hjoint
  refine ⟨joint >>= following, ?_, ?_⟩
  · rw [map_bind, bind_map_left]
    exact bind_congr hleft
  · rw [map_bind, bind_map_left]
    exact bind_congr hright

theorem map {left : m α} {right : m β} {after : α → γ} {after' : β → δ}
    (h : Coupled alike left right) (hafter : ∀ a b, alike a b → alike' (after a) (after' b)) :
    Coupled alike' (after <$> left) (after' <$> right) := by
  rw [map_eq_pure_bind, map_eq_pure_bind]
  exact h.bind fun a b hab => pure (hafter a b hab)

theorem mono {left : m α} {right : m β} {wider : α → β → Prop} (h : Coupled alike left right)
    (hwider : ∀ a b, alike a b → wider a b) : Coupled wider left right := by
  have hmap : Coupled wider (id <$> left) (id <$> right) := h.map hwider
  rwa [id_map, id_map] at hmap

/-- The same first step leaves only what follows it. -/
theorem bind_same {run : m α} {next : α → m γ} {next' : α → m δ}
    (hnext : ∀ a, Coupled alike' (next a) (next' a)) :
    Coupled alike' (run >>= next) (run >>= next') :=
  (refl (fun _ => rfl) run).bind fun a b hab => by
    cases hab
    exact hnext a

/-- What does not tell related values apart does not tell the runs apart. -/
theorem map_eq {left : m α} {right : m β} {read : α → γ} {read' : β → γ}
    (h : Coupled alike left right) (hread : ∀ a b, alike a b → read a = read' b) :
    read <$> left = read' <$> right := by
  obtain ⟨joint, rfl, rfl⟩ := h
  rw [Functor.map_map, Functor.map_map]
  exact map_congr fun pair => hread _ _ pair.property

theorem eq {left right : m α} (h : Coupled Eq left right) : left = right := by
  have hmap : id <$> left = id <$> right := h.map_eq fun a b hab => hab
  rwa [id_map, id_map] at hmap

/-- Loops over related lists are coupled when their steps are. -/
theorem mapM {step : α → m γ} {step' : β → m δ} {values : List α} {values' : List β}
    (h : List.Forall₂ alike values values')
    (hstep : ∀ a b, alike a b → Coupled alike' (step a) (step' b)) :
    Coupled (List.Forall₂ alike') (values.mapM step) (values'.mapM step') := by
  induction h with
  | nil =>
      rw [List.mapM_nil, List.mapM_nil]
      exact pure .nil
  | cons hab _ ih =>
      rw [List.mapM_cons, List.mapM_cons]
      refine (hstep _ _ hab).bind fun c d hcd => ih.bind fun cs ds hcds => ?_
      exact pure (.cons hcd hcds)

end Coupled

/-- Computations with notes are coupled when they take the same notes. -/
theorem coupled_noted {ν : Type} {alike : α → β → Prop} {left : Noted ν α} {right : Noted ν β} :
    Coupled alike left right ↔ left.notes = right.notes ∧ alike left.value right.value := by
  constructor
  · rintro ⟨joint, rfl, rfl⟩
    rw [Noted.notes_map, Noted.notes_map]
    exact ⟨rfl, joint.value.property⟩
  · rintro ⟨hnotes, hvalue⟩
    refine ⟨⟨⟨(left.value, right.value), hvalue⟩, left.notes⟩, ?_, ?_⟩
    · exact congrArg (Noted.mk left.value) (List.append_nil _)
    · exact congrArg (Noted.mk right.value) ((List.append_nil _).trans hnotes)

theorem coupled_option {alike : α → β → Prop} {left : Option α} {right : Option β} :
    Coupled alike left right ↔ Option.Rel alike left right := by
  constructor
  · rintro ⟨joint, rfl, rfl⟩
    cases joint with
    | none => exact .none
    | some pair => exact .some pair.property
  · intro h
    cases h with
    | none => exact ⟨none, rfl, rfl⟩
    | some h => exact ⟨some ⟨(_, _), h⟩, rfl, rfl⟩

theorem coupled_except {ε : Type} {alike : α → β → Prop} {left : Except ε α} {right : Except ε β} :
    Coupled alike left right ↔ (∃ code, left = .error code ∧ right = .error code) ∨
      ∃ a b, left = .ok a ∧ right = .ok b ∧ alike a b := by
  constructor
  · rintro ⟨joint, rfl, rfl⟩
    cases joint with
    | error code => exact .inl ⟨code, rfl, rfl⟩
    | ok pair => exact .inr ⟨_, _, rfl, rfl, pair.property⟩
  · rintro (⟨code, rfl, rfl⟩ | ⟨a, b, rfl, rfl, h⟩)
    · exact ⟨.error code, rfl, rfl⟩
    · exact ⟨.ok ⟨(a, b), h⟩, rfl, rfl⟩

end Coupling
