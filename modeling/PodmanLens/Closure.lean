import Mathlib.Data.Finset.Card
import Mathlib.Logic.Relation
import Mathlib.Order.Bounds.Basic

/-!
# Worklist closures over tree sets

`run` pops a stack of discovered elements and pushes the neighbors it has not seen. With enough
fuel the members it ends with are the least set that holds the initial members and is closed under
the neighbor relation. `settle` repeats a step until the size it measures stays the same.
`Within` counts only some steps of a path: each level is the closure of what the one below pays for.
-/

namespace Closure
open Std

universe u v

/-- Nothing leaves the set along `step`. -/
def ClosedUnder {α : Type u} (step : α → α → Prop) (members : Set α) : Prop :=
  ∀ a ∈ members, ∀ b, step a b → b ∈ members

section Levels
variable {α : Type u} {starts : α → Prop} {walks pays : α → α → Prop} {m n : ℕ} {a b : α}

/-- A path of free steps and of so many paid ones leads to the element from a start. -/
inductive ReachedIn (starts : α → Prop) (walks pays : α → α → Prop) : ℕ → α → Prop
  | start {a : α} (h : starts a) : ReachedIn starts walks pays 0 a
  | walk {n : ℕ} {a b : α} (h : ReachedIn starts walks pays n a) (hstep : walks a b) :
      ReachedIn starts walks pays n b
  | pay {n : ℕ} {a b : α} (h : ReachedIn starts walks pays n a) (hstep : pays a b) :
      ReachedIn starts walks pays (n + 1) b

/-- At most so many paid steps lead to the element. -/
def Within (starts : α → Prop) (walks pays : α → α → Prop) (n : ℕ) (a : α) : Prop :=
  ∃ m ≤ n, ReachedIn starts walks pays m a

theorem Within.mono (h : Within starts walks pays m a) (hle : m ≤ n) : Within starts walks pays n a := by
  obtain ⟨k, hk, hreached⟩ := h
  exact ⟨k, hk.trans hle, hreached⟩

theorem Within.walk (h : Within starts walks pays n a) (hstep : walks a b) :
    Within starts walks pays n b := by
  obtain ⟨k, hk, hreached⟩ := h
  exact ⟨k, hk, hreached.walk hstep⟩

theorem Within.pay (h : Within starts walks pays n a) (hstep : pays a b) :
    Within starts walks pays (n + 1) b := by
  obtain ⟨k, hk, hreached⟩ := h
  exact ⟨k + 1, Nat.succ_le_succ hk, hreached.pay hstep⟩

/-- Without paid steps, the starts are closed under the free ones. -/
theorem within_zero_isLeast : IsLeast {closed : Set α | (∀ a, starts a → a ∈ closed) ∧
    ClosedUnder walks closed} {a | Within starts walks pays 0 a} := by
  refine ⟨⟨fun a ha => ⟨0, le_rfl, .start ha⟩, fun a ha b hstep => Within.walk ha hstep⟩, ?_⟩
  rintro closed ⟨hstart, hclosed⟩ a ⟨m, hm, h⟩
  induction h with
  | start h => exact hstart _ h
  | walk _ hstep ih => exact hclosed _ (ih hm) _ hstep
  | pay => exact absurd hm (Nat.not_succ_le_zero _)

/-- One more paid step adds the targets of paid steps and closes them under the free ones. -/
theorem within_succ_isLeast (n : ℕ) : IsLeast {closed : Set α |
    (∀ a, (Within starts walks pays n a ∨ ∃ source, Within starts walks pays n source ∧ pays source a) →
      a ∈ closed) ∧ ClosedUnder walks closed} {a | Within starts walks pays (n + 1) a} := by
  constructor
  · refine ⟨?_, fun a ha b hstep => Within.walk ha hstep⟩
    rintro a (ha | ⟨source, hsource, hstep⟩)
    · exact ha.mono n.le_succ
    · exact hsource.pay hstep
  · rintro closed ⟨hbelow, hclosed⟩ a ⟨m, hm, h⟩
    induction h with
    | start h => exact hbelow _ (Or.inl ⟨0, n.zero_le, .start h⟩)
    | walk _ hstep ih => exact hclosed _ (ih hm) _ hstep
    | pay h hstep ih => exact hbelow _ (Or.inr ⟨_, ⟨_, Nat.le_of_succ_le_succ hm, h⟩, hstep⟩)

end Levels

section Settle
variable {σ : Type v} {size : σ → ℕ} {step : σ → σ} {invariant : σ → Prop} {bound : ℕ}

/-- Applies `step` until it no longer changes the size. -/
def settle (size : σ → ℕ) (step : σ → σ) : ℕ → σ → σ
  | 0, state => state
  | fuel + 1, state =>
    if size (step state) = size state then step state else settle size step fuel (step state)

/-- A growing step settles: the last state is one step from a state of the same size. -/
theorem settle_settled (hstep : ∀ state, invariant state → invariant (step state))
    (hgrows : ∀ state, invariant state → size state ≤ size (step state))
    (hbound : ∀ state, invariant state → size state ≤ bound) {fuel : ℕ} {state : σ}
    (hstate : invariant state) (hfuel : bound < size state + fuel) :
    ∃ last, invariant last ∧ settle size step fuel state = step last ∧
      size (step last) = size last := by
  induction fuel generalizing state with
  | zero =>
      have hle := hbound state hstate
      omega
  | succ fuel ih =>
      rw [settle]
      split_ifs with hsame
      · exact ⟨state, hstate, rfl, hsame⟩
      · have hlt := hgrows state hstate
        apply ih (hstep state hstate)
        omega

end Settle

variable {α : Type u} [Ord α] [TransOrd α] [LawfulEqOrd α]

section Elements

theorem nodup_toList (members : ExtTreeSet α) : members.toList.Nodup := by
  apply List.Pairwise.imp _ members.ordered_toList
  intro a b hlt hab
  rw [hab, ReflOrd.compare_self] at hlt
  cases hlt

/-- The elements of a tree set as a finite set. -/
def elements (members : ExtTreeSet α) : Finset α := ⟨members.toList, nodup_toList members⟩

@[simp]
theorem mem_elements {members : ExtTreeSet α} {a : α} : a ∈ elements members ↔ a ∈ members :=
  ExtTreeSet.mem_toList

theorem card_elements (members : ExtTreeSet α) : (elements members).card = members.size :=
  ExtTreeSet.length_toList

theorem elements_subset {small large : ExtTreeSet α} (h : ∀ a ∈ small, a ∈ large) :
    elements small ⊆ elements large := by
  intro a ha
  rw [mem_elements] at ha ⊢
  exact h a ha

theorem size_le_of_subset {small large : ExtTreeSet α} (h : ∀ a ∈ small, a ∈ large) :
    small.size ≤ large.size := by
  rw [← card_elements, ← card_elements]
  exact Finset.card_le_card (elements_subset h)

theorem mem_of_size_le {small large : ExtTreeSet α} (h : ∀ a ∈ small, a ∈ large)
    (hsize : large.size ≤ small.size) {a : α} (ha : a ∈ large) : a ∈ small := by
  rw [← card_elements, ← card_elements] at hsize
  have heq := Finset.eq_of_subset_of_card_le (elements_subset h) hsize
  rw [← mem_elements, heq, mem_elements]
  exact ha

def extend (members : ExtTreeSet α) (values : List α) : ExtTreeSet α :=
  values.foldl ExtTreeSet.insert members

@[simp]
theorem mem_extend {members : ExtTreeSet α} {values : List α} {a : α} :
    a ∈ extend members values ↔ a ∈ members ∨ a ∈ values := by
  induction values generalizing members with
  | nil => simp [extend]
  | cons value rest ih =>
      change a ∈ extend (members.insert value) rest ↔ _
      rw [ih, ExtTreeSet.mem_insert, Std.compare_eq_iff_eq, List.mem_cons, eq_comm]
      tauto

omit [LawfulEqOrd α] in
theorem size_extend_le {members : ExtTreeSet α} {values : List α} :
    (extend members values).size ≤ members.size + values.length := by
  induction values generalizing members with
  | nil => rfl
  | cons value rest ih =>
      have hinsert : (members.insert value).size ≤ members.size + 1 := ExtTreeSet.size_insert_le
      have hrest : (extend (members.insert value) rest).size ≤
          (members.insert value).size + rest.length := ih
      change (extend (members.insert value) rest).size ≤ _
      rw [List.length_cons]
      omega

end Elements

section Adjacency

abbrev Adjacency (α : Type u) [Ord α] := ExtTreeMap α (ExtTreeSet α)

def link (adjacency : Adjacency α) (a b : α) : Adjacency α :=
  adjacency.alter a fun found => some ((found.getD ∅).insert b)

def neighbors (adjacency : Adjacency α) (a : α) : List α := (adjacency[a]?.getD ∅).toList

theorem mem_neighbors {adjacency : Adjacency α} {a b : α} :
    b ∈ neighbors adjacency a ↔ ∃ found, adjacency[a]? = some found ∧ b ∈ found := by
  rw [neighbors, ExtTreeSet.mem_toList]
  cases h : adjacency[a]? with
  | none => simp
  | some found => simp

omit [LawfulEqOrd α] in
@[simp]
theorem neighbors_empty (a : α) : neighbors (∅ : Adjacency α) a = [] := by
  simp [neighbors]

theorem mem_neighbors_link {adjacency : Adjacency α} {x y a b : α} :
    b ∈ neighbors (link adjacency x y) a ↔ (a = x ∧ b = y) ∨ b ∈ neighbors adjacency a := by
  rw [neighbors, neighbors, link, ExtTreeMap.getElem?_alter, ExtTreeSet.mem_toList,
    ExtTreeSet.mem_toList]
  by_cases hax : x = a
  · subst hax
    rw [if_pos ReflOrd.compare_self, Option.getD_some, ExtTreeSet.mem_insert,
      Std.compare_eq_iff_eq]
    simp [eq_comm]
  · have hne : compare x a ≠ .eq := fun h => hax (Std.compare_eq_iff_eq.mp h)
    rw [if_neg hne]
    simp [Ne.symm hax]

end Adjacency

section Worklist

structure Worklist (α : Type u) [Ord α] where
  members : ExtTreeSet α
  pending : List α

/-- Inserts one neighbor, which becomes pending when it is new. -/
def visit (work : Worklist α) (neighbor : α) : Worklist α :=
  if neighbor ∈ work.members then work
  else ⟨work.members.insert neighbor, neighbor :: work.pending⟩

def visitAll (work : Worklist α) (found : List α) : Worklist α := found.foldl visit work

/-- Pops pending elements and visits their neighbors until none is pending. -/
def run (next : α → List α) : ℕ → Worklist α → ExtTreeSet α
  | 0, work => work.members
  | fuel + 1, work =>
    match work.pending with
    | [] => work.members
    | id :: rest => run next fuel (visitAll ⟨work.members, rest⟩ (next id))

theorem mem_members_visit {work : Worklist α} {neighbor a : α} :
    a ∈ (visit work neighbor).members ↔ a ∈ work.members ∨ a = neighbor := by
  rw [visit]
  split_ifs with h
  · constructor
    · exact Or.inl
    · rintro (ha | rfl)
      · exact ha
      · exact h
  · rw [ExtTreeSet.mem_insert, Std.compare_eq_iff_eq, eq_comm, or_comm]

omit [LawfulEqOrd α] in
theorem mem_pending_visit {work : Worklist α} {neighbor a : α} :
    a ∈ (visit work neighbor).pending ↔
      a ∈ work.pending ∨ (a = neighbor ∧ a ∉ work.members) := by
  rw [visit]
  split_ifs with h
  · constructor
    · exact Or.inl
    · rintro (ha | ⟨rfl, hnew⟩)
      · exact ha
      · exact absurd h hnew
  · rw [List.mem_cons, or_comm]
    constructor
    · rintro (ha | rfl)
      · exact Or.inl ha
      · exact Or.inr ⟨rfl, h⟩
    · rintro (ha | ⟨rfl, -⟩)
      · exact Or.inl ha
      · exact Or.inr rfl

theorem mem_members_visitAll {work : Worklist α} {found : List α} {a : α} :
    a ∈ (visitAll work found).members ↔ a ∈ work.members ∨ a ∈ found := by
  induction found generalizing work with
  | nil => simp [visitAll]
  | cons neighbor rest ih =>
      change a ∈ (visitAll (visit work neighbor) rest).members ↔ _
      rw [ih, mem_members_visit, List.mem_cons, or_assoc]

theorem mem_pending_visitAll {work : Worklist α} {found : List α} {a : α} :
    a ∈ (visitAll work found).pending ↔
      a ∈ work.pending ∨ (a ∈ found ∧ a ∉ work.members) := by
  induction found generalizing work with
  | nil => simp [visitAll]
  | cons neighbor rest ih =>
      change a ∈ (visitAll (visit work neighbor) rest).pending ↔ _
      rw [ih, mem_pending_visit, mem_members_visit, List.mem_cons]
      tauto

/-- Undiscovered elements of the universe and pending ones: what is left to pop. -/
def backlog [DecidableEq α] (reachable : Finset α) (work : Worklist α) : ℕ :=
  (reachable \ elements work.members).card + work.pending.length

theorem backlog_visit [DecidableEq α] {reachable : Finset α} {work : Worklist α} {neighbor : α}
    (h : neighbor ∈ reachable) : backlog reachable (visit work neighbor) = backlog reachable work := by
  rw [visit]
  split_ifs with hmem
  · rfl
  · have hnew : neighbor ∈ reachable \ elements work.members := by simp [h, hmem]
    have herase : reachable \ elements (work.members.insert neighbor) =
        (reachable \ elements work.members).erase neighbor := by
      ext a
      simp only [Finset.mem_sdiff, mem_elements, ExtTreeSet.mem_insert, Std.compare_eq_iff_eq,
        Finset.mem_erase]
      grind
    have hcard := Finset.card_erase_add_one hnew
    simp only [backlog, herase, List.length_cons]
    omega

theorem backlog_visitAll [DecidableEq α] {reachable : Finset α} {work : Worklist α}
    {found : List α} (h : ∀ a ∈ found, a ∈ reachable) :
    backlog reachable (visitAll work found) = backlog reachable work := by
  induction found generalizing work with
  | nil => rfl
  | cons neighbor rest ih =>
      change backlog reachable (visitAll (visit work neighbor) rest) = _
      rw [ih fun a ha => h a (List.mem_cons_of_mem _ ha), backlog_visit (h neighbor List.mem_cons_self)]

/-- Pending elements are members, and the neighbors of every other member are members. -/
structure Explored (next : α → List α) (work : Worklist α) : Prop where
  discovered : ∀ a ∈ work.pending, a ∈ work.members
  covered : ∀ a ∈ work.members, a ∉ work.pending → ∀ b ∈ next a, b ∈ work.members

theorem Explored.pop {next : α → List α} {members : ExtTreeSet α} {id : α} {rest : List α}
    (h : Explored next ⟨members, id :: rest⟩) :
    Explored next (visitAll ⟨members, rest⟩ (next id)) := by
  constructor
  · intro a ha
    rw [mem_pending_visitAll] at ha
    rw [mem_members_visitAll]
    rcases ha with hrest | ⟨hfound, -⟩
    · exact Or.inl (h.discovered a (List.mem_cons_of_mem _ hrest))
    · exact Or.inr hfound
  · intro a ha hpending b hb
    rw [mem_pending_visitAll, not_or] at hpending
    rw [mem_members_visitAll] at ha ⊢
    have hold : a ∈ members := by
      rcases ha with hold | hfound
      · exact hold
      · by_contra hnew
        exact hpending.2 ⟨hfound, hnew⟩
    by_cases haid : a = id
    · subst haid
      exact Or.inr hb
    · apply Or.inl
      apply h.covered a hold _ b hb
      rw [List.mem_cons, not_or]
      exact ⟨haid, hpending.1⟩

theorem mem_run_of_mem {next : α → List α} {fuel : ℕ} {work : Worklist α} {a : α}
    (h : a ∈ work.members) : a ∈ run next fuel work := by
  induction fuel generalizing work with
  | zero => exact h
  | succ fuel ih =>
      rw [run]
      split
      · exact h
      · apply ih
        rw [mem_members_visitAll]
        exact Or.inl h

/-- A run stays inside every closed set that holds what it starts from. -/
theorem mem_of_mem_run {next : α → List α} {fuel : ℕ} {work : Worklist α} {closed : Set α}
    (hclosed : ClosedUnder (fun a b => b ∈ next a) closed)
    (hmembers : ∀ a ∈ work.members, a ∈ closed) (hpending : ∀ a ∈ work.pending, a ∈ closed)
    {a : α} (h : a ∈ run next fuel work) : a ∈ closed := by
  induction fuel generalizing work with
  | zero => exact hmembers a h
  | succ fuel ih =>
      rw [run] at h
      split at h
      · exact hmembers a h
      · next id rest hcons =>
        have hid : id ∈ closed := hpending id (by simp [hcons])
        apply ih _ _ h
        · intro b hb
          rcases mem_members_visitAll.mp hb with hold | hfound
          · exact hmembers b hold
          · exact hclosed id hid b hfound
        · intro b hb
          rcases mem_pending_visitAll.mp hb with hold | ⟨hfound, -⟩
          · exact hpending b (by simp [hcons, hold])
          · exact hclosed id hid b hfound

theorem closedUnder_run [DecidableEq α] {next : α → List α} {reachable : Finset α}
    (hreachable : ∀ a, ∀ b ∈ next a, b ∈ reachable) {fuel : ℕ} {work : Worklist α}
    (hexplored : Explored next work) (hfuel : backlog reachable work ≤ fuel) :
    ClosedUnder (fun a b => b ∈ next a) {a | a ∈ run next fuel work} := by
  induction fuel generalizing work with
  | zero =>
      have hnil : work.pending = [] := by
        apply List.eq_nil_of_length_eq_zero
        rw [backlog] at hfuel
        omega
      intro a ha b hb
      exact hexplored.covered a ha (by simp [hnil]) b hb
  | succ fuel ih =>
      obtain ⟨members, pending⟩ := work
      cases pending with
      | nil =>
          intro a ha b hb
          exact hexplored.covered a ha (by simp) b hb
      | cons id rest =>
          apply ih hexplored.pop
          rw [backlog_visitAll (hreachable id)]
          simp only [backlog, List.length_cons] at hfuel ⊢
          omega

/-- Started with every member pending, a run computes the least closed superset. -/
theorem run_isLeast [DecidableEq α] {next : α → List α} {reachable : Finset α}
    (hreachable : ∀ a, ∀ b ∈ next a, b ∈ reachable) {fuel : ℕ} {work : Worklist α}
    (hpending : ∀ a, a ∈ work.pending ↔ a ∈ work.members)
    (hfuel : backlog reachable work ≤ fuel) :
    IsLeast {closed : Set α | (∀ a ∈ work.members, a ∈ closed) ∧
        ClosedUnder (fun a b => b ∈ next a) closed} {a | a ∈ run next fuel work} := by
  have hexplored : Explored next work := by
    constructor
    · exact fun a ha => (hpending a).mp ha
    · exact fun a ha hnot => absurd ((hpending a).mpr ha) hnot
  constructor
  · exact ⟨fun a ha => mem_run_of_mem ha, closedUnder_run hreachable hexplored hfuel⟩
  · rintro closed ⟨hmembers, hclosed⟩ a ha
    exact mem_of_mem_run hclosed hmembers (fun b hb => hmembers b ((hpending b).mp hb)) ha

end Worklist

end Closure
