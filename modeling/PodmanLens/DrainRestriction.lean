import PodmanLens.DrainOrder

/-!
# Draining a part of the nodes

A part of a dependency map that holds all its nodes wait for is ready whenever the whole map would
take one of its nodes. The greedy order of the whole map, cut down to the part, is therefore the
greedy order of the part alone.
-/

namespace Drain
open Std

universe u v
variable {α : Type u} {κ : Type v} [Ord α] [TransOrd α] [LawfulEqOrd α] [DecidableEq α]
  {part nodes : Pending α} {id : α}

/-- Some nodes of a map with all that they wait for. -/
structure DownClosed (part nodes : Pending α) : Prop where
  same : ∀ x ∈ part, part[x]? = nodes[x]?
  closed : ∀ (x : α) (dependencies : ExtTreeSet α) (d : α), part[x]? = some dependencies →
    d ∈ dependencies → d ∈ part

theorem DownClosed.complete_mem (h : DownClosed part nodes) : DownClosed (complete part id) (complete nodes id) where
  same x hx := by
    rw [mem_complete] at hx
    rw [getElem?_complete, getElem?_complete, h.same x hx.2]
  closed x dependencies d hget hd := by
    rw [getElem?_complete] at hget
    split_ifs at hget
    obtain ⟨declared, hdeclared, rfl⟩ := Option.map_eq_some_iff.mp hget
    rw [ExtTreeSet.mem_erase, ne_eq, Std.compare_eq_iff_eq] at hd
    exact mem_complete.mpr ⟨hd.1, h.closed x declared d hdeclared hd.2⟩

/-- Completing another node changes nothing for the part. -/
theorem DownClosed.complete_notMem (h : DownClosed part nodes) (hid : id ∉ part) :
    DownClosed part (complete nodes id) where
  same x hx := by
    have hne : id ≠ x := fun heq => hid (heq ▸ hx)
    obtain ⟨dependencies, hget⟩ := Option.isSome_iff_exists.mp
      (ExtTreeMap.mem_iff_isSome_getElem?.mp hx)
    have hfree : id ∉ dependencies := fun hd => hid (h.closed x dependencies id hget hd)
    have herase : dependencies.erase id = dependencies := by
      refine ExtTreeSet.ext_mem fun d => ?_
      rw [ExtTreeSet.mem_erase, ne_eq, Std.compare_eq_iff_eq]
      exact and_iff_right_of_imp fun hd heq => hfree (heq ▸ hd)
    rw [getElem?_complete, if_neg hne, ← h.same x hx, hget, Option.map_some, herase]
  closed := h.closed

variable [Ord κ] [TransOrd κ] {key : α → κ}

omit [DecidableEq α] in
/-- The node that the whole map takes is the one that the part would take. -/
theorem DownClosed.next_eq (h : DownClosed part nodes) (hnext : next key nodes = some id) (hid : id ∈ part) :
    next key part = some id := by
  have hready : part[id]? = some ∅ := by
    rw [h.same id hid]
    exact next_eq_some hnext
  cases hfound : next key part with
  | none => exact absurd hready (next_eq_none.mp hfound id)
  | some found =>
      have hmem : found ∈ part :=
        ExtTreeMap.mem_iff_isSome_getElem?.mpr (by simp [next_eq_some hfound])
      have hwhole : nodes[found]? = some ∅ := by
        rw [← h.same found hmem]
        exact next_eq_some hfound
      have hle := next_isLE hnext hwhole
      have hge := next_isLE hfound hready
      have heq : tieBreak key id found = .eq := by
        rw [@OrientedCmp.eq_swap _ (tieBreak key)] at hge
        cases hcmp : tieBreak key id found <;> simp_all
      rw [eq_of_tieBreak heq]

omit [DecidableEq α] [TransOrd κ] in
theorem drain_empty (fuel : ℕ) : drain key fuel (∅ : Pending α) = ([], ∅) := by
  cases fuel with
  | zero => rfl
  | succ fuel =>
      have hnext : next key (∅ : Pending α) = none := next_eq_none.mpr fun x => by simp
      rw [drain, hnext]

omit [LawfulEqOrd α] [DecidableEq α] [TransOrd κ] in
theorem drain_of_next {fuel : ℕ} (hnext : next key nodes = some id) :
    drain key (fuel + 1) nodes =
      (id :: (drain key fuel (complete nodes id)).1, (drain key fuel (complete nodes id)).2) := by
  rw [drain, hnext]

/-- Cutting the greedy order down to a part gives the greedy order of the part. -/
theorem drain_filter {keep : α → Bool} (fuel : ℕ) (h : DownClosed part nodes)
    (hkeep : ∀ x ∈ nodes, keep x = true ↔ x ∈ part) (hpart : ∀ x ∈ part, x ∈ nodes)
    (hrest : (drain key fuel nodes).2 = ∅) (fuel' : ℕ) (hfuel : part.size ≤ fuel') :
    (drain key fuel' part).1 = (drain key fuel nodes).1.filter keep := by
  have hstopped {part nodes : Pending α} (hpart : ∀ x ∈ part, x ∈ nodes) (hnodes : nodes = ∅)
      (fuel : ℕ) : (drain key fuel part).1 = [] := by
    have hempty : part = ∅ := by
      refine ExtTreeMap.eq_empty_iff_forall_not_mem.mpr fun x hx => ?_
      exact ExtTreeMap.not_mem_empty (hnodes ▸ hpart x hx)
    rw [hempty, drain_empty]
  induction fuel generalizing part nodes fuel' with
  | zero => exact hstopped hpart hrest fuel'
  | succ fuel ih =>
      cases hnext : next key nodes with
      | none =>
          rw [drain, hnext] at hrest ⊢
          exact hstopped hpart hrest fuel'
      | some id =>
          rw [drain_of_next hnext] at hrest ⊢
          have hid : id ∈ nodes :=
            ExtTreeMap.mem_iff_isSome_getElem?.mpr (by simp [next_eq_some hnext])
          rw [List.filter_cons]
          by_cases hin : id ∈ part
          · rw [if_pos ((hkeep id hid).mpr hin)]
            have hsize := size_complete hin
            cases fuel' with
            | zero => omega
            | succ fuel' =>
                rw [drain_of_next (h.next_eq hnext hin)]
                refine congrArg _ (ih h.complete_mem (fun x hx => ?_) (fun x hx => ?_) hrest fuel'
                  (by omega))
                · rw [mem_complete] at hx ⊢
                  rw [hkeep x hx.2, and_iff_right hx.1]
                · rw [mem_complete] at hx ⊢
                  exact ⟨hx.1, hpart x hx.2⟩
          · rw [if_neg fun hkept => hin ((hkeep id hid).mp hkept)]
            refine ih (h.complete_notMem hin) (fun x hx => ?_) (fun x hx => ?_) hrest fuel' hfuel
            · exact hkeep x (mem_complete.mp hx).2
            · exact mem_complete.mpr ⟨fun heq => hin (heq ▸ hx), hpart x hx⟩

end Drain
