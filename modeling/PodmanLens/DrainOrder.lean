import PodmanLens.Drain

/-!
# The greedy order is least

The orders that respect a dependency map are exactly its complete drains. Among them the greedy
drain is lexicographically least: every other order starts with some ready node, and the greedy
choice is a least ready node. Nodes with equal keys are taken in their own order, so leastness is
stated for the comparison that breaks ties by it.
-/

namespace Drain
open Std

universe u v
variable {α : Type u} {κ : Type v}

theorem Before.of_cons {a b c : α} {order : List α} (h : Before (c :: order) a b) (hne : a ≠ c) :
    Before order a b := by
  obtain ⟨front, back, heq, ha⟩ := h
  cases front with
  | nil => simp at ha
  | cons first front =>
      obtain ⟨rfl, rfl⟩ := List.cons.inj heq
      exact ⟨front, back, rfl, (List.mem_cons.mp ha).resolve_left hne⟩

section Linear
variable [Ord α] [TransOrd α] [LawfulEqOrd α] [DecidableEq α] {nodes : Pending α}

/-- Orders of the nodes in which every dependency precedes its dependents. -/
structure Linearizes (nodes : Pending α) (order : List α) : Prop where
  nodup : order.Nodup
  mem_iff : ∀ x, x ∈ order ↔ x ∈ nodes
  before : ∀ x dependencies d, nodes[x]? = some dependencies → d ∈ dependencies → Before order d x

theorem Linearizes.head_ready {a : α} {order : List α} (h : Linearizes nodes (a :: order)) :
    nodes[a]? = some ∅ := by
  have ha : a ∈ nodes := (h.mem_iff a).mp List.mem_cons_self
  obtain ⟨dependencies, hdeps⟩ := Option.isSome_iff_exists.mp
    (ExtTreeMap.mem_iff_isSome_getElem?.mp ha)
  have hempty : dependencies = ∅ := by
    refine ExtTreeSet.eq_empty_iff_forall_not_mem.mpr fun d hd => ?_
    have hlt := (h.before a dependencies d hdeps hd).idxOf_lt h.nodup
    rw [List.idxOf_cons_self] at hlt
    omega
  rw [hdeps, hempty]

theorem Linearizes.tail {a : α} {order : List α} (h : Linearizes nodes (a :: order)) :
    Linearizes (complete nodes a) order := by
  obtain ⟨hfresh, hnodup⟩ := List.nodup_cons.mp h.nodup
  refine ⟨hnodup, fun x => ?_, fun x dependencies d hx hd => ?_⟩
  · rw [mem_complete, ← h.mem_iff x, List.mem_cons]
    constructor
    · intro hx
      exact ⟨fun heq => hfresh (heq ▸ hx), Or.inr hx⟩
    · rintro ⟨hne, hx⟩
      exact hx.resolve_left (Ne.symm hne)
  · rw [getElem?_complete] at hx
    split_ifs at hx
    obtain ⟨declared, hdeclared, rfl⟩ := Option.map_eq_some_iff.mp hx
    rw [ExtTreeSet.mem_erase, ne_eq, Std.compare_eq_iff_eq] at hd
    exact (h.before x declared d hdeclared hd.2).of_cons (Ne.symm hd.1)

theorem Linearizes.drained {order : List α} (h : Linearizes nodes order) :
    Drained nodes order ∅ := by
  induction order generalizing nodes with
  | nil =>
      have hempty : nodes = ∅ := by
        refine ExtTreeMap.eq_empty_iff_forall_not_mem.mpr fun x hx => ?_
        simpa using (h.mem_iff x).mpr hx
      rw [hempty]
      exact .stop ∅
  | cons a order ih => exact .remove h.head_ready (ih h.tail)

theorem Drained.linearizes {order : List α} (h : Drained nodes order ∅) :
    Linearizes nodes order := by
  have hmem (x : α) : x ∈ order ↔ x ∈ nodes := by
    rw [h.mem_iff x]
    simp
  refine ⟨h.nodup, hmem, fun x dependencies d hx hd => h.deps_before ?_ hx hd⟩
  exact (hmem x).mpr (ExtTreeMap.mem_iff_isSome_getElem?.mpr (by simp [hx]))

end Linear

section TieBreak
variable [Ord α] [Ord κ] {key : α → κ}

/-- Comparison by key, and of equal keys by the nodes themselves. -/
def tieBreak (key : α → κ) : α → α → Ordering := compareLex (compareOn key) compare

theorem eq_of_tieBreak [LawfulEqOrd α] {a b : α} (h : tieBreak key a b = .eq) : a = b :=
  Std.compare_eq_iff_eq.mp (compareLex_eq_eq.mp h).2

theorem tieBreak_lt {a b : α} (h : compare (key a) (key b) = .lt) : tieBreak key a b = .lt := by
  simp [tieBreak, compareLex, compareOn, h]

theorem tieBreak_isLE {a b : α} (hkey : (compare (key a) (key b)).isLE)
    (hab : compare a b = .lt) : (tieBreak key a b).isLE := by
  simp only [tieBreak, compareLex, compareOn, Ordering.isLE_then_iff_and]
  exact ⟨hkey, Or.inr (by simp [hab])⟩

/-- On nodes with distinct keys the keys alone decide the comparison. -/
theorem compareLex_tieBreak [ReflOrd α] [ReflOrd κ] {a b : List α}
    (hinj : ∀ x ∈ a, ∀ y ∈ b, compare (key x) (key y) = .eq → x = y) :
    List.compareLex (tieBreak key) a b = compare (a.map key) (b.map key) := by
  induction a generalizing b with
  | nil => cases b <;> rfl
  | cons x a ih =>
      cases b with
      | nil => rfl
      | cons y b =>
          have htail := ih fun x' hx y' hy =>
            hinj x' (List.mem_cons_of_mem x hx) y' (List.mem_cons_of_mem y hy)
          rw [List.map_cons, List.map_cons, List.compare_cons_cons, List.compareLex_cons_cons,
            htail]
          congr 1
          by_cases hkey : compare (key x) (key y) = .eq
          · obtain rfl := hinj x List.mem_cons_self y List.mem_cons_self hkey
            simp [tieBreak, compareLex, compareOn, ReflCmp.compare_self]
          · cases h : compare (key x) (key y) <;> simp_all [tieBreak, compareLex, compareOn]

end TieBreak

section Least
variable [Ord α] [TransOrd α] [LawfulEqOrd α] [Ord κ] [TransOrd κ] {key : α → κ}

instance : TransCmp (tieBreak key) :=
  inferInstanceAs (TransCmp (compareLex (compareOn key) compare))

instance : LawfulEqCmp (tieBreak key) where
  eq_of_compare := eq_of_tieBreak

omit [LawfulEqOrd α] in
/-- Over an increasing list, the first least key is the least element with ties broken. -/
theorem foldl_choice_isLE (rest : List α) (a : α)
    (hsorted : (a :: rest).Pairwise fun x y => compare x y = .lt) : ∀ b ∈ a :: rest,
    (tieBreak key (rest.foldl (fun best b =>
      if (compare (key b) (key best)).isLT then b else best) a) b).isLE := by
  induction rest generalizing a with
  | nil => simp [ReflCmp.compare_self]
  | cons c rest ih =>
      obtain ⟨ha, htail⟩ := List.pairwise_cons.mp hsorted
      obtain ⟨hc, hrest⟩ := List.pairwise_cons.mp htail
      rw [List.foldl_cons]
      by_cases hlt : (compare (key c) (key a)).isLT
      · rw [if_pos hlt]
        have hleast := ih c htail
        have hca : (tieBreak key c a).isLE := by simp [tieBreak_lt (by simpa using hlt)]
        intro b hb
        rcases List.mem_cons.mp hb with rfl | hb
        · exact TransCmp.isLE_trans (hleast c List.mem_cons_self) hca
        · exact hleast b hb
      · rw [if_neg hlt]
        have hleast := ih a (List.pairwise_cons.mpr
          ⟨fun b hb => ha b (List.mem_cons_of_mem c hb), hrest⟩)
        have hac : (tieBreak key a c).isLE := by
          refine tieBreak_isLE ?_ (ha c List.mem_cons_self)
          rw [← Ordering.isGE_swap, ← OrientedCmp.eq_swap]
          cases h : compare (key c) (key a) <;> simp [h] at hlt ⊢
        intro b hb
        rcases List.mem_cons.mp hb with rfl | hb
        · exact hleast b List.mem_cons_self
        · rcases List.mem_cons.mp hb with rfl | hb
          · exact TransCmp.isLE_trans (hleast a List.mem_cons_self) hac
          · exact hleast b (List.mem_cons_of_mem a hb)

omit [LawfulEqOrd α] in
theorem ready_sorted (nodes : Pending α) :
    (ready nodes).Pairwise fun x y => compare x y = .lt := by
  have hordered : nodes.toList.Pairwise fun a b => compare a.1 b.1 = .lt :=
    ExtTreeMap.ordered_keys_toList
  exact List.pairwise_map.mpr (hordered.filter _)

/-- The chosen node is the least ready one. -/
theorem next_isLE {nodes : Pending α} {id x : α} (h : next key nodes = some id)
    (hx : nodes[x]? = some ∅) : (tieBreak key id x).isLE := by
  have hsorted := ready_sorted nodes
  have hmem := mem_ready.mpr hx
  rw [next] at h
  cases hready : ready nodes with
  | nil => simp [hready] at hmem
  | cons a rest =>
      rw [hready] at h hsorted hmem
      rw [minByKey, Option.some.injEq] at h
      rw [← h]
      exact foldl_choice_isLE rest a hsorted x hmem

/-- No complete drain is lexicographically smaller than the greedy one. -/
theorem drain_isLE {nodes : Pending α} {order : List α} {rest : Pending α}
    (h : Drained nodes order rest) (hrest : rest = ∅) (fuel : ℕ) (hfuel : nodes.size ≤ fuel) :
    (List.compareLex (tieBreak key) (drain key fuel nodes).1 order).isLE := by
  induction h generalizing fuel with
  | stop nodes =>
      have hdrain : (drain key fuel nodes).1 = [] := by
        cases fuel with
        | zero => rfl
        | succ fuel =>
            have hnext : next key nodes = none := next_eq_none.mpr fun id => by simp [hrest]
            simp [drain, hnext]
      rw [hdrain]
      exact List.isLE_compareLex_nil_left
  | @remove nodes x order rest hready htail ih =>
      cases fuel with
      | zero =>
          have hempty := ExtTreeMap.eq_empty_iff_size_eq_zero.mpr (Nat.le_zero.mp hfuel)
          simp [hempty] at hready
      | succ fuel =>
          rw [drain]
          cases hnext : next key nodes with
          | none => exact absurd hready (next_eq_none.mp hnext x)
          | some id =>
              have hle := next_isLE hnext hready
              change (List.compareLex (tieBreak key) (id :: _) (x :: order)).isLE = true
              rw [List.compareLex_cons_cons, Ordering.isLE_then_iff_and]
              refine ⟨hle, ?_⟩
              by_cases heq : tieBreak key id x = .eq
              · obtain rfl := eq_of_tieBreak heq
                have hid : id ∈ nodes := ExtTreeMap.mem_iff_isSome_getElem?.mpr (by simp [hready])
                have hsize := size_complete hid
                exact Or.inr (ih hrest fuel (by omega))
              · refine Or.inl ?_
                cases hcmp : tieBreak key id x <;> simp_all

end Least
end Drain
