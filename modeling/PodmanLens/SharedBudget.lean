import Mathlib

/-!
# Shared budgets

Groups of consumers draw from one budget, one consumer after another. The limit of a consumer is
what remains beside a reserve, and never more than a cap; the reserve of a group is one unit for
each later group that has consumers. The budget is never exceeded, and the first consumer of every
group has a unit left.
-/

namespace SharedBudget

/-- What one consumer may draw and what it draws. -/
structure Draw where
  limit : ℕ
  used : ℕ
  deriving DecidableEq

variable {cap reserved before after : ℕ} {group : List Draw} {groups : List (List Draw)}

/-- The consumers of one group, with what remains before and after them. -/
inductive SpendsGroup (cap reserved : ℕ) : List Draw → ℕ → ℕ → Prop
  | nil (before : ℕ) : SpendsGroup cap reserved [] before before
  | cons {draw : Draw} {rest : List Draw} {before after : ℕ}
      (limit : draw.limit = min (before - reserved) cap) (used : draw.used ≤ draw.limit)
      (spends : SpendsGroup cap reserved rest (before - draw.used) after) :
      SpendsGroup cap reserved (draw :: rest) before after

/-- One unit for each group that has consumers. -/
def reserve (groups : List (List Draw)) : ℕ := groups.countP fun group => !group.isEmpty

/-- All groups in order, each with the reserve of the later ones. -/
inductive Spends (cap : ℕ) : List (List Draw) → ℕ → Prop
  | nil (before : ℕ) : Spends cap [] before
  | cons {group : List Draw} {rest : List (List Draw)} {before after : ℕ}
      (spendsGroup : SpendsGroup cap (reserve rest) group before after)
      (spends : Spends cap rest after) : Spends cap (group :: rest) before

section Group

theorem SpendsGroup.used_le_cap (h : SpendsGroup cap reserved group before after) :
    ∀ draw ∈ group, draw.used ≤ cap := by
  induction h with
  | nil before => exact nofun
  | cons limit used spends ih =>
      refine List.forall_mem_cons.mpr ⟨?_, ih⟩
      omega

theorem SpendsGroup.sum_add_after (h : SpendsGroup cap reserved group before after) :
    (group.map Draw.used).sum + after = before := by
  induction h with
  | nil before => exact Nat.zero_add before
  | cons limit used spends ih =>
      rw [List.map_cons, List.sum_cons]
      omega

/-- The reserve stays for the later groups. -/
theorem SpendsGroup.reserved_le (h : SpendsGroup cap reserved group before after)
    (hreserved : reserved ≤ before) : reserved ≤ after := by
  induction h with
  | nil before => exact hreserved
  | cons limit used spends ih => exact ih (by omega)

theorem SpendsGroup.head_limit (h : SpendsGroup cap reserved group before after) (hcap : 0 < cap)
    (hbefore : reserved < before) : ∀ draw ∈ group.head?, 0 < draw.limit := by
  cases h with
  | nil => exact nofun
  | cons limit used spends =>
      rintro draw ⟨⟩
      omega

end Group

section Groups

theorem reserve_cons (group : List Draw) (rest : List (List Draw)) :
    reserve (group :: rest) = reserve rest + if group.isEmpty then 0 else 1 := by
  rw [reserve, List.countP_cons]
  cases group <;> rfl

theorem Spends.used_le_cap (h : Spends cap groups before) :
    ∀ group ∈ groups, ∀ draw ∈ group, draw.used ≤ cap := by
  induction h with
  | nil before => exact nofun
  | cons spendsGroup spends ih => exact List.forall_mem_cons.mpr ⟨spendsGroup.used_le_cap, ih⟩

theorem Spends.sum_le (h : Spends cap groups before) :
    (groups.flatten.map Draw.used).sum ≤ before := by
  induction h with
  | nil before => exact Nat.zero_le before
  | cons spendsGroup spends ih =>
      have hgroup := spendsGroup.sum_add_after
      rw [List.flatten_cons, List.map_append, List.sum_append]
      omega

/-- However much earlier groups draw, the first consumer of a group may draw one unit. -/
theorem Spends.head_limit (h : Spends cap groups before) (hcap : 0 < cap)
    (hreserve : reserve groups ≤ before) :
    ∀ group ∈ groups, ∀ draw ∈ group.head?, 0 < draw.limit := by
  induction h with
  | nil before => exact nofun
  | @cons group rest before after spendsGroup spends ih =>
      rw [reserve_cons] at hreserve
      refine List.forall_mem_cons.mpr ⟨fun draw hdraw => ?_, ih ?_⟩
      · refine spendsGroup.head_limit hcap ?_ draw hdraw
        cases group with
        | nil => cases hdraw
        | cons first others =>
            rw [List.isEmpty_cons] at hreserve
            simp only [Bool.false_eq_true, if_false] at hreserve
            omega
      · exact spendsGroup.reserved_le (Nat.le_of_add_right_le hreserve)

end Groups

end SharedBudget
