import Mathlib.Data.List.Basic

/-!
# Repeated flags read by position

A command line that repeats a flag gives its i-th value to the i-th of several objects. An encoder
that skips the objects without the member keeps every position exactly when the member is
`Leading`: no object that has it follows one that lacks it.
-/

namespace Positional

variable {α β : Type*}

/-- The values of `flag`, where each of `flags` takes one value. -/
def flagValues (flags : List String) (flag : String) : List String → List String
  | name :: value :: rest =>
    if name ∈ flags then
      if name = flag then value :: flagValues flags flag rest else flagValues flags flag rest
    else flagValues flags flag (value :: rest)
  | _ => []

theorem flagValues_skip {flags : List String} (flag : String) {name : String}
    (hname : name ∉ flags) (rest : List String) :
    flagValues flags flag (name :: rest) = flagValues flags flag rest := by
  cases rest with
  | nil => rfl
  | cons value rest => rw [flagValues, if_neg hname]

theorem flagValues_repeated {flags : List String} (flag : String) {name : String}
    (hname : name ∈ flags) (text : α → String) (l : List α) (rest : List String) :
    flagValues flags flag (l.flatMap (fun a => [name, text a]) ++ rest) =
      (if name = flag then l.map text else []) ++ flagValues flags flag rest := by
  induction l with
  | nil => simp
  | cons a l ih =>
      rw [List.flatMap_cons, List.append_assoc, List.cons_append, List.cons_append,
        List.nil_append, flagValues, if_pos hname, ih]
      by_cases hflag : name = flag
      · simp only [if_pos hflag, List.map_cons, List.cons_append]
      · simp only [if_neg hflag, List.nil_append]

def Leading (member : α → Option β) (l : List α) : Prop :=
  l.Pairwise fun earlier later => (member later).isSome → (member earlier).isSome

instance (member : α → Option β) (l : List α) : Decidable (Leading member l) :=
  inferInstanceAs (Decidable (l.Pairwise _))

theorem leading_cons_of_some {member : α → Option β} {a : α} {b : β} (h : member a = some b)
    (l : List α) : Leading member (a :: l) ↔ Leading member l := by
  rw [Leading, List.pairwise_cons, h]
  exact and_iff_right fun _ _ _ => rfl

theorem leading_cons_of_none {member : α → Option β} {a : α} (h : member a = none)
    (l : List α) : Leading member (a :: l) ↔ l.filterMap member = [] := by
  rw [Leading, List.pairwise_cons, h, List.filterMap_eq_nil_iff]
  constructor
  · intro hl a ha
    have hnone : ¬(member a).isSome := fun hsome => by simpa using hl.1 a ha hsome
    simpa using hnone
  · intro hl
    refine ⟨fun a ha hsome => by simp [hl a ha] at hsome, ?_⟩
    apply List.pairwise_of_forall_mem_list
    intro earlier _ later hlater hsome
    simp [hl later hlater] at hsome

/-- Dropping the absent members keeps each one at its position exactly when they lead. -/
theorem getElem?_filterMap_iff_leading (member : α → Option β) (l : List α) :
    (∀ i : ℕ, (l.filterMap member)[i]? = l[i]?.bind member) ↔ Leading member l := by
  induction l with
  | nil => simp [Leading]
  | cons a l ih =>
      cases hmember : member a with
      | none =>
          rw [leading_cons_of_none hmember, List.filterMap_cons_none hmember]
          constructor
          · intro h
            have hfirst := h 0
            rw [List.getElem?_cons_zero, Option.bind_some, hmember, List.getElem?_eq_none_iff]
              at hfirst
            exact List.length_eq_zero_iff.mp (Nat.le_zero.mp hfirst)
          · intro hnil i
            have hall := List.filterMap_eq_nil_iff.mp hnil
            rw [hnil, List.getElem?_nil, eq_comm, Option.bind_eq_none_iff]
            intro b hb
            rcases List.mem_cons.mp (List.mem_of_getElem? hb) with rfl | hb
            · exact hmember
            · exact hall b hb
      | some b =>
          rw [leading_cons_of_some hmember, List.filterMap_cons_some hmember, ← ih]
          constructor
          · intro h i
            exact h (i + 1)
          · intro h i
            cases i with
            | zero => exact hmember.symm
            | succ i => exact h i

theorem getElem?_filterMap_of_none (member : α → Option β) {l : List α} {i : ℕ}
    (h : l[i]? = none) : (l.filterMap member)[i]? = none := by
  rw [List.getElem?_eq_none_iff] at h ⊢
  exact Nat.le_trans (List.length_filterMap_le member l) h

theorem map_eq_of_filterMap_eq {member : α → Option β} {l m : List α}
    (hvalues : l.filterMap member = m.filterMap member)
    (hmask : l.map (fun a => (member a).isSome) = m.map fun a => (member a).isSome) :
    l.map member = m.map member := by
  induction l generalizing m with
  | nil => rw [List.map_eq_nil_iff.mp hmask.symm]
  | cons a l ih =>
      cases m with
      | nil => cases hmask
      | cons b m =>
          obtain ⟨hhead, htail⟩ := List.cons.inj hmask
          cases ha : member a with
          | none =>
              have hb : member b = none := by simpa [ha] using hhead
              rw [List.filterMap_cons_none ha, List.filterMap_cons_none hb] at hvalues
              rw [List.map_cons, List.map_cons, ha, hb, ih hvalues htail]
          | some c =>
              obtain ⟨d, hb⟩ := Option.isSome_iff_exists.mp (by simpa [ha] using hhead.symm)
              rw [List.filterMap_cons_some ha, List.filterMap_cons_some hb] at hvalues
              obtain ⟨hvalue, hvalues⟩ := List.cons.inj hvalues
              rw [List.map_cons, List.map_cons, ha, hb, hvalue, ih hvalues htail]

end Positional
