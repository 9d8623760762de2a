import Mathlib.Data.List.Basic

/-!
# Collections with a limit

A collection takes items until it is full and then only remembers that one more was offered. Loops
that stop at the first refusal, or as soon as a refusal is remembered, collect what one loop over
all items together collects: the first items up to the limit, with an overflow where there are more.
-/

/-- A refusal is remembered only by a full collection. -/
structure BoundedCollection (α : Type) where
  limit : ℕ
  items : List α
  overflowed : Bool
  fits : items.length ≤ limit
  full : overflowed = true → limit ≤ items.length

namespace BoundedCollection
variable {α ι : Type}

@[ext] theorem ext {left right : BoundedCollection α} (hlimit : left.limit = right.limit)
    (hitems : left.items = right.items) (hoverflowed : left.overflowed = right.overflowed) :
    left = right := by
  cases left
  cases right
  cases hlimit
  cases hitems
  cases hoverflowed
  rfl

def empty (limit : ℕ) : BoundedCollection α where
  limit := limit
  items := []
  overflowed := false
  fits := Nat.zero_le limit
  full := nofun

def hasRoom (collected : BoundedCollection α) : Bool := collected.items.length < collected.limit

/-- The item is taken where there is room for it. -/
def push (item : α) (collected : BoundedCollection α) : BoundedCollection α :=
  if hroom : collected.items.length < collected.limit then
    { limit := collected.limit
      items := collected.items ++ [item]
      overflowed := collected.overflowed
      fits := by
        rw [List.length_append, List.length_singleton]
        omega
      full := fun h => absurd (collected.full h) (Nat.not_le.mpr hroom) }
  else
    { limit := collected.limit
      items := collected.items
      overflowed := true
      fits := collected.fits
      full := fun _ => Nat.not_lt.mp hroom }

/-- Items are offered up to the first refusal. -/
def pushWhile : List α → BoundedCollection α → BoundedCollection α
  | [], collected => collected
  | item :: rest, collected =>
    if collected.hasRoom then pushWhile rest (collected.push item) else collected.push item

/-- The steps up to the first one after which a refusal is remembered. -/
def untilOverflow (step : ι → BoundedCollection α → BoundedCollection α) :
    List ι → BoundedCollection α → BoundedCollection α
  | [], collected => collected
  | index :: rest, collected =>
    if (step index collected).overflowed then step index collected
    else untilOverflow step rest (step index collected)

/-- All items are offered at once. -/
def extend (collected : BoundedCollection α) (offered : List α) : BoundedCollection α where
  limit := collected.limit
  items := collected.items ++ offered.take (collected.limit - collected.items.length)
  overflowed :=
    collected.overflowed || collected.limit - collected.items.length < offered.length
  fits := by
    have := collected.fits
    rw [List.length_append, List.length_take]
    omega
  full := by
    intro h
    rw [List.length_append, List.length_take]
    rcases Bool.or_eq_true_iff.mp h with h | h
    · have := collected.full h
      omega
    · have := of_decide_eq_true h
      omega

@[simp] theorem limit_extend (collected : BoundedCollection α) (offered : List α) :
    (collected.extend offered).limit = collected.limit := rfl

@[simp] theorem extend_nil (collected : BoundedCollection α) : collected.extend [] = collected := by
  ext1
  · rfl
  · exact (congrArg (collected.items ++ ·) List.take_nil).trans (List.append_nil _)
  · exact Bool.or_false _

theorem extend_append (collected : BoundedCollection α) (front back : List α) :
    (collected.extend front).extend back = collected.extend (front ++ back) := by
  have hfits := collected.fits
  ext1
  · rfl
  · simp only [extend, List.append_assoc, List.take_append, List.length_append, List.length_take]
    congr 3
    omega
  · simp only [extend, Bool.or_assoc, List.length_append, List.length_take]
    congr 1
    rw [Bool.eq_iff_iff, Bool.or_eq_true_iff, decide_eq_true_iff, decide_eq_true_iff,
      decide_eq_true_iff]
    omega

/-- After a refusal nothing more is taken. -/
theorem extend_of_overflowed {collected : BoundedCollection α} (h : collected.overflowed = true)
    (offered : List α) : collected.extend offered = collected := by
  have hfull := Nat.sub_eq_zero_of_le (collected.full h)
  ext1
  · rfl
  · simp only [extend, hfull, List.take_zero, List.append_nil]
  · simp only [extend, h, Bool.true_or]

theorem push_eq_extend (item : α) (collected : BoundedCollection α) :
    collected.push item = collected.extend [item] := by
  rw [push]
  split_ifs with hroom
  · obtain ⟨room, hsub⟩ : ∃ room, collected.limit - collected.items.length = room + 1 :=
      ⟨_, (Nat.sub_add_cancel (Nat.sub_pos_of_lt hroom)).symm⟩
    ext1
    · rfl
    · simp only [extend, hsub, List.take_succ_cons, List.take_nil]
    · simp [extend, hsub]
  · have hsub := Nat.sub_eq_zero_of_le (Nat.not_lt.mp hroom)
    ext1
    · rfl
    · simp only [extend, hsub, List.take_zero, List.append_nil]
    · simp [extend, hsub]

theorem pushWhile_eq_extend (offered : List α) (collected : BoundedCollection α) :
    pushWhile offered collected = collected.extend offered := by
  induction offered generalizing collected with
  | nil => exact (extend_nil collected).symm
  | cons item rest ih =>
      rw [pushWhile]
      split_ifs with hroom
      · rw [ih, push_eq_extend, extend_append, List.singleton_append]
      · have hover : (collected.push item).overflowed = true := by
          rw [push, dif_neg (by simpa [hasRoom] using hroom)]
        rw [← List.singleton_append, ← extend_append, ← push_eq_extend,
          extend_of_overflowed hover]

/-- Steps that each offer their own items together offer the items of all steps. -/
theorem untilOverflow_eq_extend {step : ι → BoundedCollection α → BoundedCollection α}
    {offered : ι → List α}
    (hstep : ∀ index collected, step index collected = collected.extend (offered index))
    (indices : List ι) (collected : BoundedCollection α) :
    untilOverflow step indices collected = collected.extend (indices.flatMap offered) := by
  induction indices generalizing collected with
  | nil => exact (extend_nil collected).symm
  | cons index rest ih =>
      rw [untilOverflow, List.flatMap_cons, ← extend_append, ← hstep, ih]
      split_ifs with hover
      · rw [extend_of_overflowed hover]
      · rfl

theorem items_empty_extend (limit : ℕ) (offered : List α) :
    ((empty limit).extend offered).items = offered.take limit := List.nil_append _

theorem overflowed_empty_extend (limit : ℕ) (offered : List α) :
    ((empty limit).extend offered).overflowed = true ↔ limit < offered.length :=
  decide_eq_true_iff

end BoundedCollection
