import PodmanLens.Text

/-!
# Values that carry their validation

A `Checked` string can only hold text its validator accepts. A `DistinctList` keeps declaration
order, a capacity, and pairwise distinctness under a clash relation; `add` is the only way to grow
it. `setOnce` fills an optional slot a single time and tells a repetition from a conflict.
-/

namespace Validated
open Std

structure Checked (accepts : String → Bool) where
  asStr : String
  accepted : accepts asStr = true
  deriving DecidableEq

def Checked.new {ε : Type*} (accepts : String → Bool) (refusal : ε) (value : String) :
    Except ε (Checked accepts) :=
  if h : accepts value = true then .ok ⟨value, h⟩ else .error refusal

theorem Checked.asStr_injective {accepts : String → Bool} :
    Function.Injective (@Checked.asStr accepts) := by
  rintro ⟨_, _⟩ ⟨_, _⟩ h
  cases h
  rfl

instance {accepts : String → Bool} : Ord (Checked accepts) := ⟨compareOn Checked.asStr⟩

instance {accepts : String → Bool} : TransOrd (Checked accepts) :=
  inferInstanceAs (TransCmp (compareOn Checked.asStr))

instance {accepts : String → Bool} : LawfulEqOrd (Checked accepts) where
  eq_of_compare h := Checked.asStr_injective (Std.compare_eq_iff_eq.mp h)

structure DistinctList {α : Type*} (clashes : α → α → Bool) (maximum : ℕ) where
  values : List α
  bounded : values.length ≤ maximum
  distinct : values.Pairwise fun earlier later => clashes earlier later = false
  deriving DecidableEq

namespace DistinctList

variable {α : Type*} {clashes : α → α → Bool} {maximum : ℕ}

def empty : DistinctList clashes maximum := ⟨[], Nat.zero_le _, .nil⟩

instance : Inhabited (DistinctList clashes maximum) := ⟨empty⟩

theorem ext_values {l m : DistinctList clashes maximum} (h : l.values = m.values) : l = m := by
  cases l
  cases m
  cases h
  rfl

theorem append_bounded {l : DistinctList clashes maximum} {value : α}
    (h : l.values.length ≠ maximum) : (l.values ++ [value]).length ≤ maximum := by
  have := l.bounded
  simp only [List.length_append, List.length_singleton]
  omega

theorem append_distinct {l : DistinctList clashes maximum} {value : α}
    (h : l.values.any (clashes · value) = false) :
    (l.values ++ [value]).Pairwise fun earlier later => clashes earlier later = false := by
  rw [List.pairwise_append]
  refine ⟨l.distinct, List.pairwise_singleton _ _, fun earlier hmem later hlater => ?_⟩
  rw [List.mem_singleton.mp hlater]
  simpa using List.any_eq_false.mp h earlier hmem

/-- Capacity is checked before distinctness, each with its own refusal. -/
def add {ε : Type*} (full duplicate : ε) (l : DistinctList clashes maximum) (value : α) :
    Except ε (DistinctList clashes maximum) :=
  if hfull : l.values.length = maximum then .error full
  else if hclash : l.values.any (clashes · value) = false then
    .ok ⟨l.values ++ [value], append_bounded hfull, append_distinct hclash⟩
  else .error duplicate

/-- Rewriting elements is harmless when it does not change what clashes. -/
def map (f : α → α) (hf : ∀ a b, clashes (f a) (f b) = clashes a b)
    (l : DistinctList clashes maximum) : DistinctList clashes maximum where
  values := l.values.map f
  bounded := by simpa using l.bounded
  distinct := by
    rw [List.pairwise_map]
    exact l.distinct.imp fun h => (hf _ _).trans h

@[simp] theorem map_values (f : α → α) (hf : ∀ a b, clashes (f a) (f b) = clashes a b)
    (l : DistinctList clashes maximum) : (l.map f hf).values = l.values.map f := rfl

end DistinctList

def setOnce {α ε : Type*} [DecidableEq α] (duplicate conflict : ε) (slot : Option α) (value : α) :
    Except ε (Option α) :=
  match slot with
  | none => .ok (some value)
  | some existing => .error (if existing = value then duplicate else conflict)

end Validated
