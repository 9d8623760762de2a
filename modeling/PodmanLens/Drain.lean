import Mathlib.Data.List.Basic
import Mathlib.Tactic.Linarith

/-!
# Greedy draining of a dependency map

A pending map sends each node to the dependencies it still waits for. `drain` repeatedly removes
the ready node with the least sort key and strikes it from the remaining dependency sets. `Drained`
is the same process with an arbitrary choice of ready node: the facts about coverage, uniqueness
and order hold for every choice, and `drain` is one of them. A ranked map drains completely, and a
completely drained map is ranked by the positions of the drained order.
-/

namespace Drain
open Std

universe u v
variable {α : Type u} {κ : Type v}

/-- `a` occurs strictly before an occurrence of `b`. -/
def Before {β : Type*} (order : List β) (a b : β) : Prop :=
  ∃ front back, order = front ++ b :: back ∧ a ∈ front

theorem before_cons_of_mem {β : Type*} {a b : β} {order : List β} (hb : b ∈ order) :
    Before (a :: order) a b := by
  obtain ⟨front, back, rfl⟩ := List.append_of_mem hb
  exact ⟨a :: front, back, by simp, by simp⟩

theorem Before.cons {β : Type*} {a b c : β} {order : List β} (h : Before order a b) :
    Before (c :: order) a b := by
  obtain ⟨front, back, rfl, ha⟩ := h
  exact ⟨c :: front, back, by simp, by simp [ha]⟩

theorem Before.mem_left {β : Type*} {a b : β} {order : List β} (h : Before order a b) :
    a ∈ order := by
  obtain ⟨front, back, rfl, ha⟩ := h
  simp [ha]

theorem Before.map {β γ : Type*} (f : β → γ) {a b : β} {order : List β} (h : Before order a b) :
    Before (order.map f) (f a) (f b) := by
  obtain ⟨front, back, rfl, ha⟩ := h
  exact ⟨front.map f, back.map f, by simp, List.mem_map_of_mem ha⟩

/-- In a duplicate-free order, an earlier element has the smaller index. -/
theorem Before.idxOf_lt {β : Type*} [DecidableEq β] {a b : β} {order : List β}
    (h : Before order a b) (hnodup : order.Nodup) : order.idxOf a < order.idxOf b := by
  obtain ⟨front, back, rfl, ha⟩ := h
  have hb : b ∉ front := by
    intro hb
    exact (List.nodup_append.mp hnodup).2.2 b hb b (by simp) rfl
  rw [List.idxOf_append_of_mem ha, List.idxOf_append_of_notMem hb]
  have := List.idxOf_lt_length_of_mem ha
  omega

abbrev Pending (α : Type u) [Ord α] := ExtTreeMap α (ExtTreeSet α)

/-- The first element whose key is least. -/
def minByKey [Ord κ] (key : α → κ) : List α → Option α
  | [] => none
  | a :: rest =>
    some (rest.foldl (fun best b => if (compare (key b) (key best)).isLT then b else best) a)

theorem foldl_choice_mem {β : Type*} {better : β → β → Bool} (rest : List β) (a : β) :
    rest.foldl (fun best b => if better b best then b else best) a ∈ a :: rest := by
  induction rest generalizing a with
  | nil => simp
  | cons b rest ih =>
      rw [List.foldl_cons]
      have h := ih (if better b a then b else a)
      split_ifs at h ⊢ <;> simp only [List.mem_cons] at h ⊢ <;> tauto

theorem minByKey_mem [Ord κ] {key : α → κ} {values : List α} {a : α}
    (h : minByKey key values = some a) : a ∈ values := by
  cases values with
  | nil => simp [minByKey] at h
  | cons b rest =>
      rw [minByKey, Option.some.injEq] at h
      rw [← h]
      exact foldl_choice_mem rest b

theorem minByKey_eq_none [Ord κ] {key : α → κ} {values : List α} :
    minByKey key values = none ↔ values = [] := by
  cases values <;> simp [minByKey]

section Process
variable [Ord α] [TransOrd α] [LawfulEqOrd α]

/-- Nodes with no outstanding dependency, in key order. -/
def ready (nodes : Pending α) : List α :=
  (nodes.toList.filter fun entry => entry.2.isEmpty).map Prod.fst

def complete (nodes : Pending α) (id : α) : Pending α :=
  (nodes.erase id).map fun _ dependencies => dependencies.erase id

def next [Ord κ] (key : α → κ) (nodes : Pending α) : Option α := minByKey key (ready nodes)

/-- The removed nodes in order, and what is left when no node is ready or the fuel is spent. -/
def drain [Ord κ] (key : α → κ) : ℕ → Pending α → List α × Pending α
  | 0, nodes => ([], nodes)
  | fuel + 1, nodes =>
    match next key nodes with
    | none => ([], nodes)
    | some id =>
      let (order, rest) := drain key fuel (complete nodes id)
      (id :: order, rest)

/-- Draining with an arbitrary choice among the ready nodes. -/
inductive Drained : Pending α → List α → Pending α → Prop
  | stop (nodes : Pending α) : Drained nodes [] nodes
  | remove {nodes : Pending α} {id : α} {order : List α} {rest : Pending α}
      (hready : nodes[id]? = some ∅) (htail : Drained (complete nodes id) order rest) :
      Drained nodes (id :: order) rest

theorem mem_ready {nodes : Pending α} {id : α} : id ∈ ready nodes ↔ nodes[id]? = some ∅ := by
  simp only [ready, List.mem_map, List.mem_filter, Prod.exists, exists_and_right, exists_eq_right]
  constructor
  · rintro ⟨dependencies, hmem, hempty⟩
    rw [ExtTreeMap.mem_toList_iff_getElem?_eq_some] at hmem
    rw [ExtTreeSet.isEmpty_iff] at hempty
    rw [hmem, hempty]
  · intro h
    exact ⟨∅, ExtTreeMap.mem_toList_iff_getElem?_eq_some.mpr h, ExtTreeSet.isEmpty_empty⟩

theorem next_eq_some [Ord κ] {key : α → κ} {nodes : Pending α} {id : α}
    (h : next key nodes = some id) : nodes[id]? = some ∅ :=
  mem_ready.mp (minByKey_mem h)

theorem next_eq_none [Ord κ] {key : α → κ} {nodes : Pending α} :
    next key nodes = none ↔ ∀ id : α, nodes[id]? ≠ some ∅ := by
  rw [next, minByKey_eq_none, List.eq_nil_iff_forall_not_mem]
  exact forall_congr' fun id => not_congr mem_ready

theorem getElem?_complete [DecidableEq α] (nodes : Pending α) (id x : α) :
    (complete nodes id)[x]? = if id = x then none else nodes[x]?.map (·.erase id) := by
  rw [complete, ExtTreeMap.getElem?_map, ExtTreeMap.getElem?_erase]
  by_cases h : id = x
  · simp [h]
  · simp [h]

theorem mem_complete [DecidableEq α] {nodes : Pending α} {id x : α} :
    x ∈ complete nodes id ↔ id ≠ x ∧ x ∈ nodes := by
  rw [ExtTreeMap.mem_iff_isSome_getElem?, ExtTreeMap.mem_iff_isSome_getElem?, getElem?_complete]
  split_ifs with h <;> simp [h]

omit [LawfulEqOrd α] in
theorem size_complete {nodes : Pending α} {id : α} (hid : id ∈ nodes) :
    (complete nodes id).size + 1 = nodes.size := by
  have hpos : nodes.size ≠ 0 := by
    intro hzero
    rw [ExtTreeMap.eq_empty_iff_size_eq_zero.mpr hzero] at hid
    exact ExtTreeMap.not_mem_empty hid
  rw [complete, ExtTreeMap.size_map, ExtTreeMap.size_erase,
    if_pos (ExtTreeMap.contains_iff_mem.mpr hid)]
  omega

section Order
variable [DecidableEq α] {nodes rest : Pending α} {order : List α}

theorem Drained.mem_iff (h : Drained nodes order rest) (x : α) :
    x ∈ nodes ↔ x ∈ order ∨ x ∈ rest := by
  induction h with
  | stop nodes => simp
  | @remove nodes id order rest hready _ ih =>
      have hid : id ∈ nodes := ExtTreeMap.mem_iff_isSome_getElem?.mpr (by simp [hready])
      by_cases hx : id = x
      · simp [← hx, hid]
      · rw [List.mem_cons, or_assoc, ← ih, mem_complete]
        constructor
        · intro hmem
          exact Or.inr ⟨hx, hmem⟩
        · rintro (h | h)
          · exact absurd h.symm hx
          · exact h.2

theorem Drained.notMem_rest (h : Drained nodes order rest) {x : α} (hx : x ∈ order) :
    x ∉ rest := by
  induction h with
  | stop nodes => simp at hx
  | @remove nodes id order rest hready htail ih =>
      rcases List.mem_cons.mp hx with rfl | hx
      · intro hrest
        exact (mem_complete.mp ((htail.mem_iff x).mpr (Or.inr hrest))).1 rfl
      · exact ih hx

theorem Drained.nodup (h : Drained nodes order rest) : order.Nodup := by
  induction h with
  | stop nodes => exact List.nodup_nil
  | @remove nodes id order rest hready htail ih =>
      refine List.nodup_cons.mpr ⟨?_, ih⟩
      intro hid
      exact (mem_complete.mp ((htail.mem_iff id).mpr (Or.inl hid))).1 rfl

/-- Every dependency of a removed node was removed before it. -/
theorem Drained.deps_before (h : Drained nodes order rest) {x d : α} {dependencies : ExtTreeSet α}
    (hx : x ∈ order) (hdeps : nodes[x]? = some dependencies) (hd : d ∈ dependencies) :
    Before order d x := by
  induction h generalizing dependencies with
  | stop nodes => simp at hx
  | @remove nodes id order rest hready htail ih =>
      by_cases hid : id = x
      · rw [← hid, hready, Option.some.injEq] at hdeps
        rw [← hdeps] at hd
        exact absurd hd ExtTreeSet.not_mem_empty
      · have hx' : x ∈ order := (List.mem_cons.mp hx).resolve_left (Ne.symm hid)
        by_cases hdid : id = d
        · rw [← hdid]
          exact before_cons_of_mem hx'
        · have hcomplete : (complete nodes id)[x]? = some (dependencies.erase id) := by
            rw [getElem?_complete, if_neg hid, hdeps, Option.map_some]
          have hmem : d ∈ dependencies.erase id := by
            rw [ExtTreeSet.mem_erase]
            exact ⟨by simpa using hdid, hd⟩
          exact (ih hx' hcomplete hmem).cons

/-- What a remaining node still waits for are its unremoved dependencies. -/
theorem Drained.getElem?_rest (h : Drained nodes order rest) {x : α} {left : ExtTreeSet α}
    (hx : rest[x]? = some left) :
    ∃ dependencies, nodes[x]? = some dependencies ∧
      ∀ d, d ∈ left ↔ d ∈ dependencies ∧ d ∉ order := by
  induction h with
  | stop nodes => exact ⟨left, hx, by simp⟩
  | @remove nodes id order rest hready htail ih =>
      obtain ⟨middle, hmiddle, hleft⟩ := ih hx
      rw [getElem?_complete] at hmiddle
      split_ifs at hmiddle with hid
      obtain ⟨dependencies, hdeps, rfl⟩ := Option.map_eq_some_iff.mp hmiddle
      refine ⟨dependencies, hdeps, fun d => ?_⟩
      rw [hleft d, ExtTreeSet.mem_erase, List.mem_cons, not_or, and_assoc, and_left_comm]
      refine and_congr_right fun _ => and_congr_left fun _ => not_congr ?_
      rw [Std.compare_eq_iff_eq, eq_comm]

/-- A stalled process over a ranked, closed map has removed every node. -/
theorem Drained.exhausted_of_rank (h : Drained nodes order rest)
    (hstalled : ∀ id : α, rest[id]? ≠ some ∅) (rank : α → ℕ)
    (hrank : ∀ x dependencies d, nodes[x]? = some dependencies → d ∈ dependencies →
      d ∈ nodes ∧ rank d < rank x) : rest = ∅ := by
  have hnone : ∀ bound x, rank x < bound → x ∉ rest := by
    intro bound
    induction bound with
    | zero => intro x hx; omega
    | succ bound ih =>
        intro x hx hmem
        obtain ⟨left, hleft⟩ := Option.isSome_iff_exists.mp
          (ExtTreeMap.mem_iff_isSome_getElem?.mp hmem)
        obtain ⟨dependencies, hdeps, hiff⟩ := h.getElem?_rest hleft
        have hne : left ≠ ∅ := by
          rintro rfl
          exact hstalled x hleft
        obtain ⟨d, hd⟩ : ∃ d, d ∈ left := by
          by_contra hempty
          exact hne (ExtTreeSet.eq_empty_iff_forall_not_mem.mpr (by simpa using hempty))
        obtain ⟨hd, hdorder⟩ := (hiff d).mp hd
        obtain ⟨hdnodes, hlt⟩ := hrank x dependencies d hdeps hd
        have hdrest := ((h.mem_iff d).mp hdnodes).resolve_left hdorder
        exact ih d (by omega) hdrest
  exact ExtTreeMap.eq_empty_iff_forall_not_mem.mpr fun x => hnone _ x (Nat.lt_succ_self _)

/-- Positions in a completely drained order rank the map. -/
theorem Drained.rank_of_exhausted (h : Drained nodes order ∅) {x d : α}
    {dependencies : ExtTreeSet α} (hdeps : nodes[x]? = some dependencies)
    (hd : d ∈ dependencies) : order.idxOf d < order.idxOf x := by
  have hx : x ∈ order := by
    have hmem : x ∈ nodes := ExtTreeMap.mem_iff_isSome_getElem?.mpr (by simp [hdeps])
    simpa using (h.mem_iff x).mp hmem
  exact (h.deps_before hx hdeps hd).idxOf_lt h.nodup

end Order

section Greedy
variable [Ord κ] (key : α → κ)

theorem drain_drained (fuel : ℕ) (nodes : Pending α) :
    Drained nodes (drain key fuel nodes).1 (drain key fuel nodes).2 := by
  induction fuel generalizing nodes with
  | zero => exact .stop nodes
  | succ fuel ih =>
      rw [drain]
      cases hnext : next key nodes with
      | none => exact .stop nodes
      | some id => exact .remove (next_eq_some hnext) (ih (complete nodes id))

/-- With as much fuel as nodes, the process stops only because no node is ready. -/
theorem drain_stalled (fuel : ℕ) (nodes : Pending α) (hfuel : nodes.size ≤ fuel) (id : α) :
    (drain key fuel nodes).2[id]? ≠ some ∅ := by
  induction fuel generalizing nodes with
  | zero =>
      have hempty := ExtTreeMap.eq_empty_iff_size_eq_zero.mpr (Nat.le_zero.mp hfuel)
      simp [drain, hempty]
  | succ fuel ih =>
      rw [drain]
      cases hnext : next key nodes with
      | none => exact next_eq_none.mp hnext id
      | some first =>
          have hmem : first ∈ nodes :=
            ExtTreeMap.mem_iff_isSome_getElem?.mpr (by simp [next_eq_some hnext])
          have hsize := size_complete hmem
          exact ih (complete nodes first) (by omega)

theorem drain_exhausted_of_rank [DecidableEq α] (nodes : Pending α) (rank : α → ℕ)
    (hrank : ∀ x dependencies d, nodes[x]? = some dependencies → d ∈ dependencies →
      d ∈ nodes ∧ rank d < rank x) : (drain key nodes.size nodes).2 = ∅ :=
  (drain_drained key nodes.size nodes).exhausted_of_rank
    (drain_stalled key nodes.size nodes le_rfl) rank hrank

end Greedy
end Process
end Drain
