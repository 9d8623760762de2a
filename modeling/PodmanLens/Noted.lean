import Mathlib.Data.List.Basic

/-!
# Values with notes

A computation that returns a value and appends notes on the way. Notes come in the order in which
they were taken, and a loop over a list concatenates the notes of its steps.
-/

structure Noted (ν α : Type) where
  value : α
  notes : List ν

namespace Noted
variable {ν α β : Type}

instance : Monad (Noted ν) where
  pure a := ⟨a, []⟩
  bind x f := ⟨(f x.value).value, x.notes ++ (f x.value).notes⟩

instance : LawfulMonad (Noted ν) := LawfulMonad.mk' _
  (fun x => by cases x; exact congrArg (mk _) (List.append_nil _))
  (fun _ _ => rfl)
  (fun _ _ _ => congrArg (mk _) (List.append_assoc _ _ _))

def note (entry : ν) : Noted ν Unit := ⟨(), [entry]⟩

@[simp] theorem value_pure (a : α) : (pure a : Noted ν α).value = a := rfl

@[simp] theorem notes_pure (a : α) : (pure a : Noted ν α).notes = [] := rfl

@[simp] theorem value_bind (x : Noted ν α) (f : α → Noted ν β) :
    (x >>= f).value = (f x.value).value := rfl

@[simp] theorem notes_bind (x : Noted ν α) (f : α → Noted ν β) :
    (x >>= f).notes = x.notes ++ (f x.value).notes := rfl

@[simp] theorem value_map (f : α → β) (x : Noted ν α) : (f <$> x).value = f x.value := rfl

@[simp] theorem notes_map (f : α → β) (x : Noted ν α) : (f <$> x).notes = x.notes :=
  List.append_nil _

@[simp] theorem value_note (entry : ν) : (note entry).value = () := rfl

@[simp] theorem notes_note (entry : ν) : (note entry).notes = [entry] := rfl

@[simp] theorem value_mapM (f : α → Noted ν β) (values : List α) :
    (values.mapM f).value = values.map fun a => (f a).value := by
  induction values with
  | nil => rfl
  | cons a values ih => rw [List.mapM_cons, value_bind, value_bind, value_pure, ih, List.map_cons]

@[simp] theorem notes_mapM (f : α → Noted ν β) (values : List α) :
    (values.mapM f).notes = values.flatMap fun a => (f a).notes := by
  induction values with
  | nil => rfl
  | cons a values ih =>
      rw [List.mapM_cons, notes_bind, notes_bind, notes_pure, List.append_nil, ih,
        List.flatMap_cons]

/-- A step that may give nothing ends the computation. -/
theorem value_run_bind (x : OptionT (Noted ν) α) (f : α → OptionT (Noted ν) β) :
    (x >>= f).run.value = x.run.value.bind fun a => (f a).run.value := by
  rw [OptionT.run_bind, Option.elimM, value_bind]
  cases x.run.value <;> rfl

@[simp] theorem value_allM (f : α → Noted ν Bool) (values : List α) :
    (values.allM f).value = values.all fun a => (f a).value := by
  induction values with
  | nil => rfl
  | cons a values ih =>
      rw [List.allM, value_bind, List.all_cons, ← ih]
      cases (f a).value <;> rfl

/-- Every note that was taken has the property. -/
def All (p : ν → Prop) (x : Noted ν α) : Prop := ∀ entry ∈ x.notes, p entry

section All
variable {p : ν → Prop}

theorem all_pure (a : α) : (pure a : Noted ν α).All p := fun _ h => absurd h List.not_mem_nil

theorem All.bind {x : Noted ν α} {f : α → Noted ν β} (hx : x.All p) (hf : (f x.value).All p) :
    (x >>= f).All p := fun entry h => (List.mem_append.mp h).elim (hx entry) (hf entry)

theorem All.run_bind {x : OptionT (Noted ν) α} {f : α → OptionT (Noted ν) β}
    (hx : x.run.All p) (hf : ∀ a, (f a).run.All p) : (x >>= f).run.All p := by
  rw [OptionT.run_bind, Option.elimM]
  refine hx.bind ?_
  cases x.run.value with
  | none => exact all_pure none
  | some a => exact hf a

theorem all_allM {f : α → Noted ν Bool} {values : List α} (h : ∀ a ∈ values, (f a).All p) :
    (values.allM f).All p := by
  induction values with
  | nil => exact all_pure true
  | cons a values ih =>
      obtain ⟨ha, hvalues⟩ := List.forall_mem_cons.mp h
      rw [List.allM]
      refine ha.bind ?_
      cases (f a).value with
      | false => exact all_pure false
      | true => exact ih hvalues

end All

end Noted
