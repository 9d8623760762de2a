import PodmanLens.Closure

/-!
# Connected components by peeling

`peel` takes the least remaining element, runs a worklist from it inside what remains, and removes
the component found. Over a symmetric neighbor relation the parts are the connected components of
the initial set: a part never gains an element later, since an edge into it would have been
followed from the other end.
-/

namespace Closure
open Std Relation

universe u
variable {α : Type u} [Ord α] [TransOrd α] [LawfulEqOrd α]

/-- What a worklist finds from `start` without leaving `remaining`. -/
def component (next : α → List α) (remaining : ExtTreeSet α) (start : α) : ExtTreeSet α :=
  run (fun id => (next id).filter fun neighbor => neighbor ∈ remaining) remaining.size
    ⟨(∅ : ExtTreeSet α).insert start, [start]⟩

def peel (next : α → List α) : ℕ → ExtTreeSet α → List (ExtTreeSet α)
  | 0, _ => []
  | fuel + 1, remaining =>
    match remaining.toList.head? with
    | none => []
    | some start =>
      let found := component next remaining start
      found :: peel next fuel (remaining.filter fun id => id ∉ found)

/-- One edge between two elements of `remaining`. -/
def Adjacent (next : α → List α) (remaining : Set α) (a b : α) : Prop :=
  b ∈ next a ∧ a ∈ remaining ∧ b ∈ remaining

def Connected (next : α → List α) (remaining : Set α) : α → α → Prop :=
  ReflTransGen (Adjacent next remaining)

omit [Ord α] [TransOrd α] [LawfulEqOrd α] in
theorem Connected.mono {next : α → List α} {small large : Set α} (h : small ⊆ large) {a b : α}
    (hconnected : Connected next small a b) : Connected next large a b := by
  induction hconnected with
  | refl => exact ReflTransGen.refl
  | tail _ hstep ih => exact ReflTransGen.tail ih ⟨hstep.1, h hstep.2.1, h hstep.2.2⟩

omit [Ord α] [TransOrd α] [LawfulEqOrd α] in
theorem Connected.symm {next : α → List α} {remaining : Set α}
    (hsymm : ∀ a b, b ∈ next a → a ∈ next b) {a b : α} (h : Connected next remaining a b) :
    Connected next remaining b a := by
  induction h with
  | refl => exact ReflTransGen.refl
  | tail _ hstep ih =>
      exact ReflTransGen.head ⟨hsymm _ _ hstep.1, hstep.2.2, hstep.2.1⟩ ih

section Component
variable {next : α → List α} {remaining : ExtTreeSet α} {start : α}

/-- The component holds exactly what is connected to its start. -/
theorem mem_component (hstart : start ∈ remaining) {a : α} :
    a ∈ component next remaining start ↔ Connected next {id | id ∈ remaining} start a := by
  classical
  have hpending : ∀ b, b ∈ [start] ↔ b ∈ (∅ : ExtTreeSet α).insert start := by
    intro b
    rw [List.mem_singleton, ExtTreeSet.mem_insert, Std.compare_eq_iff_eq]
    simp [eq_comm]
  have hsingle : ∀ b, b ∈ (∅ : ExtTreeSet α).insert start ↔ b = start := by
    intro b
    rw [← hpending b, List.mem_singleton]
  have hreachable : ∀ b, ∀ c ∈ (next b).filter (fun neighbor => neighbor ∈ remaining),
      c ∈ elements remaining := by
    intro b c hc
    rw [mem_elements]
    simpa using (List.mem_filter.mp hc).2
  have hfuel : backlog (elements remaining) ⟨(∅ : ExtTreeSet α).insert start, [start]⟩ ≤
      remaining.size := by
    have hsdiff : elements remaining \ elements ((∅ : ExtTreeSet α).insert start) =
        (elements remaining).erase start := by
      ext b
      simp [hsingle, and_comm]
    have hcard := Finset.card_erase_add_one (mem_elements.mpr hstart)
    rw [card_elements] at hcard
    rw [backlog, hsdiff, List.length_singleton]
    exact hcard.le
  have hleast := run_isLeast hreachable hpending hfuel
  constructor
  · intro ha
    -- the connected elements form a closed set around the start
    apply hleast.2 _ ha
    constructor
    · intro b hb
      rw [(hsingle b).mp hb]
      exact ReflTransGen.refl
    · intro b hb c hc
      obtain ⟨hnext, hin⟩ := List.mem_filter.mp hc
      have hbin : b ∈ remaining := by
        rcases ReflTransGen.cases_tail hb with heq | ⟨x, -, hx⟩
        · rw [heq]
          exact hstart
        · exact hx.2.2
      exact ReflTransGen.tail hb ⟨hnext, hbin, by simpa using hin⟩
  · intro ha
    induction ha with
    | refl => exact hleast.1.1 start ((hsingle start).mpr rfl)
    | tail _ hstep ih =>
        apply hleast.1.2 _ ih
        exact List.mem_filter.mpr ⟨hstep.1, by simpa using hstep.2.2⟩

theorem start_mem_component (hstart : start ∈ remaining) :
    start ∈ component next remaining start :=
  (mem_component hstart).mpr ReflTransGen.refl

theorem mem_of_mem_component (hstart : start ∈ remaining) {a : α}
    (h : a ∈ component next remaining start) : a ∈ remaining := by
  rcases ReflTransGen.cases_tail ((mem_component hstart).mp h) with heq | ⟨x, -, hx⟩
  · rw [heq]
    exact hstart
  · exact hx.2.2

theorem component_closed (hstart : start ∈ remaining) {a b : α}
    (ha : a ∈ component next remaining start) (hb : b ∈ next a) (hin : b ∈ remaining) :
    b ∈ component next remaining start := by
  have hremaining := mem_of_mem_component hstart ha
  rw [mem_component hstart] at ha ⊢
  exact ReflTransGen.tail ha ⟨hb, hremaining, hin⟩

end Component

/-- The parts are the components of `remaining`, each reached from one of its elements. -/
structure Components (next : α → List α) (remaining : ExtTreeSet α)
    (parts : List (ExtTreeSet α)) : Prop where
  cover : ∀ a, a ∈ remaining ↔ ∃ part ∈ parts, a ∈ part
  disjoint : parts.Pairwise fun left right => ∀ a ∈ left, a ∉ right
  closed : ∀ part ∈ parts, ∀ a ∈ part, ∀ b ∈ next a, b ∈ remaining → b ∈ part
  connected : ∀ part ∈ parts, ∃ start ∈ part, ∀ a ∈ part,
    Connected next {id | id ∈ remaining} start a

/-- Removing one component leaves a set whose components complete the partition. -/
theorem Components.cons {next : α → List α} (hsymm : ∀ a b, b ∈ next a → a ∈ next b)
    {remaining : ExtTreeSet α} {start : α} (hstart : start ∈ remaining)
    {parts : List (ExtTreeSet α)}
    (h : Components next (remaining.filter fun id => id ∉ component next remaining start) parts) :
    Components next remaining (component next remaining start :: parts) := by
  have hrest : ∀ a, a ∈ (remaining.filter fun id => id ∉ component next remaining start) ↔
      a ∈ remaining ∧ a ∉ component next remaining start := by
    intro a
    simp [ExtTreeSet.mem_filter]
  constructor
  · intro a
    rw [List.exists_mem_cons_iff]
    constructor
    · intro ha
      by_cases hfound : a ∈ component next remaining start
      · exact Or.inl hfound
      · exact Or.inr ((h.cover a).mp ((hrest a).mpr ⟨ha, hfound⟩))
    · rintro (hfound | hpart)
      · exact mem_of_mem_component hstart hfound
      · exact ((hrest a).mp ((h.cover a).mpr hpart)).1
  · rw [List.pairwise_cons]
    refine ⟨?_, h.disjoint⟩
    intro part hpart a ha hin
    exact ((hrest a).mp ((h.cover a).mpr ⟨part, hpart, hin⟩)).2 ha
  · intro part hpart a ha b hb hin
    rcases List.mem_cons.mp hpart with rfl | hpart
    · exact component_closed hstart ha hb hin
    · have haleft := (hrest a).mp ((h.cover a).mpr ⟨part, hpart, ha⟩)
      apply h.closed part hpart a ha b hb
      rw [hrest]
      refine ⟨hin, fun hfound => haleft.2 ?_⟩
      exact component_closed hstart hfound (hsymm a b hb) haleft.1
  · intro part hpart
    rcases List.mem_cons.mp hpart with rfl | hpart
    · exact ⟨start, start_mem_component hstart, fun a ha => (mem_component hstart).mp ha⟩
    · obtain ⟨first, hfirst, hreach⟩ := h.connected part hpart
      refine ⟨first, hfirst, fun a ha => (hreach a ha).mono ?_⟩
      intro x hx
      exact ((hrest x).mp hx).1

theorem components_nil {next : α → List α} {remaining : ExtTreeSet α}
    (h : remaining.toList = []) : Components next remaining [] := by
  have hnone : ∀ a, a ∉ remaining := by
    intro a ha
    rw [← ExtTreeSet.mem_toList, h] at ha
    cases ha
  exact ⟨by simp [hnone], List.Pairwise.nil, by simp, by simp⟩

theorem size_filter_lt {remaining found : ExtTreeSet α} {start : α} (hstart : start ∈ remaining)
    (hfound : start ∈ found) : (remaining.filter fun id => id ∉ found).size < remaining.size := by
  rw [← card_elements, ← card_elements]
  apply Finset.card_lt_card
  rw [Finset.ssubset_iff_of_subset]
  · refine ⟨start, mem_elements.mpr hstart, ?_⟩
    rw [mem_elements, ExtTreeSet.mem_filter]
    simp [hfound]
  · apply elements_subset
    intro a ha
    exact ExtTreeSet.mem_of_mem_filter ha

theorem peel_components {next : α → List α} (hsymm : ∀ a b, b ∈ next a → a ∈ next b) {fuel : ℕ}
    {remaining : ExtTreeSet α} (hfuel : remaining.size ≤ fuel) :
    Components next remaining (peel next fuel remaining) := by
  induction fuel generalizing remaining with
  | zero =>
      apply components_nil
      apply List.eq_nil_of_length_eq_zero
      rw [ExtTreeSet.length_toList]
      omega
  | succ fuel ih =>
      rw [peel]
      split
      · next hnone => exact components_nil (List.head?_eq_none_iff.mp hnone)
      · next start hsome =>
        have hstart : start ∈ remaining :=
          ExtTreeSet.mem_toList.mp (List.mem_of_mem_head? hsome)
        apply Components.cons hsymm hstart
        apply ih
        have hself : start ∈ component next remaining start := start_mem_component hstart
        have hlt := size_filter_lt hstart hself
        omega

omit [LawfulEqOrd α] in
/-- Two elements share a part exactly when they are connected. -/
theorem Components.same_part_iff {next : α → List α} {remaining : ExtTreeSet α}
    {parts : List (ExtTreeSet α)} (hsymm : ∀ a b, b ∈ next a → a ∈ next b)
    (h : Components next remaining parts) {a b : α} (ha : a ∈ remaining) :
    (∃ part ∈ parts, a ∈ part ∧ b ∈ part) ↔ Connected next {id | id ∈ remaining} a b := by
  constructor
  · rintro ⟨part, hpart, hapart, hbpart⟩
    obtain ⟨start, -, hreach⟩ := h.connected part hpart
    exact ReflTransGen.trans ((hreach a hapart).symm hsymm) (hreach b hbpart)
  · intro hconnected
    obtain ⟨part, hpart, hapart⟩ := (h.cover a).mp ha
    refine ⟨part, hpart, hapart, ?_⟩
    induction hconnected with
    | refl => exact hapart
    | tail _ hstep ih => exact h.closed part hpart _ ih _ hstep.1 hstep.2.2

end Closure
