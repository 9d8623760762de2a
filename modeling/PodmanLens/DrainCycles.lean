import Mathlib.Data.Fintype.Pigeonhole
import Mathlib.Data.Set.Finite.Basic
import Mathlib.Logic.Relation
import PodmanLens.Drain

/-!
# What a stalled drain leaves

No node on a cycle is ever ready, and neither is a node behind one. Conversely a node left by a
stalled drain waits for another one that is left, so a backward walk through the leftover nodes
never ends and must repeat: the walk has found a cycle. What is left is therefore the forward
closure of all cycles.
-/

namespace Drain
open Std Relation

section Walk
variable {β : Type*} {R : β → β → Prop}

/-- An endless backward walk through finitely many elements starts behind a cycle. -/
theorem exists_cycle_of_walk {walk : ℕ → β} (hfinite : (Set.range walk).Finite)
    (hstep : ∀ n, R (walk (n + 1)) (walk n)) :
    ∃ c, TransGen R c c ∧ ReflTransGen R c (walk 0) := by
  have hback (n k : ℕ) : TransGen R (walk (n + k + 1)) (walk n) := by
    induction k with
    | zero => exact .single (hstep n)
    | succ k ih => exact .head (hstep (n + k + 1)) ih
  have hreach (n : ℕ) : ReflTransGen R (walk n) (walk 0) := by
    cases n with
    | zero => exact .refl
    | succ n =>
        have h := hback 0 n
        rw [Nat.zero_add] at h
        exact h.to_reflTransGen
  have := hfinite.to_subtype
  obtain ⟨i, j, hne, heq⟩ := Finite.exists_ne_map_eq_of_infinite (Set.rangeFactorization walk)
  have heq : walk i = walk j := congrArg Subtype.val heq
  rcases Nat.lt_or_gt_of_ne hne with hlt | hlt
  · obtain ⟨k, rfl⟩ := Nat.exists_eq_add_of_lt hlt
    have hcycle := hback i k
    rw [← heq] at hcycle
    exact ⟨walk i, hcycle, hreach i⟩
  · obtain ⟨k, rfl⟩ := Nat.exists_eq_add_of_lt hlt
    have hcycle := hback j k
    rw [heq] at hcycle
    exact ⟨walk j, hcycle, hreach j⟩

end Walk

universe u v
variable {α : Type u} {κ : Type v} [Ord α] [TransOrd α]

/-- Node `x` of the map waits for `d`. -/
def Waits (nodes : Pending α) (d x : α) : Prop :=
  ∃ dependencies, nodes[x]? = some dependencies ∧ d ∈ dependencies

theorem Waits.mem {nodes : Pending α} {d x : α} (h : Waits nodes d x) : x ∈ nodes := by
  obtain ⟨dependencies, hget, -⟩ := h
  exact ExtTreeMap.mem_iff_isSome_getElem?.mpr (by simp [hget])

variable [LawfulEqOrd α] [DecidableEq α] {nodes rest : Pending α} {order : List α}

/-- Everything behind a removed node was removed before it. -/
theorem Drained.behind (h : Drained nodes order rest) {c x : α}
    (hpath : TransGen (Waits nodes) c x) (hx : x ∈ order) :
    c ∈ order ∧ order.idxOf c < order.idxOf x := by
  have hstep {d y : α} (hwaits : Waits nodes d y) (hy : y ∈ order) :
      d ∈ order ∧ order.idxOf d < order.idxOf y := by
    obtain ⟨dependencies, hget, hd⟩ := hwaits
    have hbefore := h.deps_before hy hget hd
    exact ⟨hbefore.mem_left, hbefore.idxOf_lt h.nodup⟩
  induction hpath with
  | single hwaits => exact hstep hwaits hx
  | tail _ hwaits ih =>
      obtain ⟨hmem, hlt⟩ := hstep hwaits hx
      obtain ⟨hc, hlt'⟩ := ih hmem
      exact ⟨hc, by omega⟩

theorem Drained.mem_rest_of_cycle (h : Drained nodes order rest) {c x : α}
    (hcycle : TransGen (Waits nodes) c c) (hpath : ReflTransGen (Waits nodes) c x) :
    x ∈ rest := by
  have hc : c ∉ order := fun hmem => absurd (h.behind hcycle hmem).2 (lt_irrefl _)
  have hpath' := hcycle.trans_left hpath
  have hx : x ∈ nodes := by
    obtain ⟨d, -, hwaits⟩ := TransGen.tail'_iff.mp hpath'
    exact hwaits.mem
  refine ((h.mem_iff x).mp hx).resolve_left fun hmem => hc ?_
  exact (h.behind hpath' hmem).1

/-- A node left by a stalled drain waits for another one that is left. -/
theorem Drained.exists_waits (h : Drained nodes order rest)
    (hstalled : ∀ id : α, rest[id]? ≠ some ∅)
    (hclosed : ∀ d x, Waits nodes d x → d ∈ nodes) {x : α} (hx : x ∈ rest) :
    ∃ d, d ∈ rest ∧ Waits nodes d x := by
  obtain ⟨left, hleft⟩ := Option.isSome_iff_exists.mp (ExtTreeMap.mem_iff_isSome_getElem?.mp hx)
  obtain ⟨dependencies, hdeps, hiff⟩ := h.getElem?_rest hleft
  have hne : left ≠ ∅ := by
    rintro rfl
    exact hstalled x hleft
  obtain ⟨d, hd⟩ : ∃ d, d ∈ left := by
    by_contra hempty
    exact hne (ExtTreeSet.eq_empty_iff_forall_not_mem.mpr (by simpa using hempty))
  obtain ⟨hd, hdorder⟩ := (hiff d).mp hd
  have hwaits : Waits nodes d x := ⟨dependencies, hdeps, hd⟩
  exact ⟨d, ((h.mem_iff d).mp (hclosed d x hwaits)).resolve_left hdorder, hwaits⟩

omit [DecidableEq α] in
theorem finite_nodes (nodes : Pending α) : {x | x ∈ nodes}.Finite := by
  have hkeys : {x | x ∈ nodes} = {x | x ∈ nodes.keys} := by
    ext x
    simp
  rw [hkeys]
  exact List.finite_toSet nodes.keys

theorem Drained.exists_cycle (h : Drained nodes order rest)
    (hstalled : ∀ id : α, rest[id]? ≠ some ∅)
    (hclosed : ∀ d x, Waits nodes d x → d ∈ nodes) {x : α} (hx : x ∈ rest) :
    ∃ c, TransGen (Waits nodes) c c ∧ ReflTransGen (Waits nodes) c x := by
  have hprev (y : {y // y ∈ rest}) : ∃ d : {d // d ∈ rest}, Waits nodes d.val y.val := by
    obtain ⟨d, hd, hwaits⟩ := h.exists_waits hstalled hclosed y.2
    exact ⟨⟨d, hd⟩, hwaits⟩
  choose previous hprevious using hprev
  let walk (n : ℕ) : α := (previous^[n] ⟨x, hx⟩).val
  have hfinite : (Set.range walk).Finite := by
    refine (finite_nodes rest).subset ?_
    rintro y ⟨n, rfl⟩
    exact (previous^[n] ⟨x, hx⟩).2
  have hstep (n : ℕ) : Waits nodes (walk (n + 1)) (walk n) := by
    simp only [walk, Function.iterate_succ_apply']
    exact hprevious _
  exact exists_cycle_of_walk hfinite hstep

/-- What the greedy drain of a closed map leaves is the forward closure of the cycles. -/
theorem mem_drain_rest [Ord κ] (key : α → κ) (hclosed : ∀ d x, Waits nodes d x → d ∈ nodes)
    {x : α} : x ∈ (drain key nodes.size nodes).2 ↔
      ∃ c, TransGen (Waits nodes) c c ∧ ReflTransGen (Waits nodes) c x := by
  have hdrained := drain_drained key nodes.size nodes
  constructor
  · intro hx
    exact hdrained.exists_cycle (drain_stalled key nodes.size nodes le_rfl) hclosed hx
  · rintro ⟨c, hcycle, hpath⟩
    exact hdrained.mem_rest_of_cycle hcycle hpath

end Drain
