import Mathlib.Data.List.Basic

/-!
# Tilings of a half-open range

A list of spans tiles a range when each span starts where the one before it ends. Under a total
comparison every point of the range then lies in exactly one span, and no other point in any.
-/

namespace Tiling
open Std
variable {α : Type*} {cmp : α → α → Ordering}

/-- The points from a lower bound on, below an upper bound. -/
def holds (cmp : α → α → Ordering) (lower upper a : α) : Bool :=
  cmp a lower != .lt && cmp a upper == .lt

inductive Tiles (cmp : α → α → Ordering) : α → List (α × α) → α → Prop
  | nil (a : α) : Tiles cmp a [] a
  | cons (lower upper : α) {rest : List (α × α)} {stop : α} (proper : cmp lower upper = .lt)
      (tail : Tiles cmp upper rest stop) : Tiles cmp lower ((lower, upper) :: rest) stop

theorem Tiles.isLE [TransCmp cmp] {start stop : α} {spans : List (α × α)}
    (h : Tiles cmp start spans stop) : (cmp start stop).isLE := by
  induction h with
  | nil a => exact ReflCmp.isLE_rfl
  | cons lower upper proper _ ih =>
      exact TransCmp.isLE_trans (Ordering.isLE_of_eq_lt proper) ih

theorem Tiles.countP [TransCmp cmp] {start stop : α} {spans : List (α × α)}
    (h : Tiles cmp start spans stop) (a : α) :
    spans.countP (fun span => holds cmp span.1 span.2 a) =
      if holds cmp start stop a then 1 else 0 := by
  induction h with
  | nil bound => cases hbound : cmp a bound <;> simp [holds, hbound]
  | @cons lower upper rest stop proper tail ih =>
      rw [List.countP_cons, ih]
      by_cases hupper : cmp a upper = .lt
      · have hstop : cmp a stop = .lt := TransCmp.lt_of_lt_of_isLE hupper tail.isLE
        simp [holds, hupper, hstop]
      · have hlower : cmp a lower ≠ .lt := fun hlt => hupper (TransCmp.lt_trans hlt proper)
        simp [holds, hupper, hlower]

theorem transCmp_on {β : Type*} (f : β → α) [TransCmp cmp] :
    TransCmp fun a b => cmp (f a) (f b) where
  eq_swap := OrientedCmp.eq_swap
  isLE_trans := TransCmp.isLE_trans

end Tiling
