import Mathlib.Data.List.Induction
import Mathlib.Data.List.Perm.Subperm
import Mathlib.Tactic.Linarith

/-!
# Tree maps built entry by entry

`insertAll` runs through a list and inserts the entry each element contributes, if any. When the
contributions are functional in their keys, lookup in the result is membership among them.
`contents` lists what a map holds in key order. Pairs are ordered lexicographically, so that they
can key a map.
-/

namespace TreeEntries
open Std

universe u v w

instance pairOrd {α : Type u} {β : Type v} [Ord α] [Ord β] : Ord (α × β) := lexOrd

variable {ε : Type u} {κ : Type v} {ν : Type w} [Ord κ] [TransOrd κ]

def insertEntry (map : ExtTreeMap κ ν) : Option (κ × ν) → ExtTreeMap κ ν
  | some (key, content) => map.insert key content
  | none => map

def insertAll (entry : ε → Option (κ × ν)) (values : List ε) (map : ExtTreeMap κ ν) :
    ExtTreeMap κ ν :=
  values.foldl (fun map value => insertEntry map (entry value)) map

theorem insertAll_append (entry : ε → Option (κ × ν)) (front back : List ε)
    (map : ExtTreeMap κ ν) :
    insertAll entry (front ++ back) map = insertAll entry back (insertAll entry front map) :=
  List.foldl_append

/-- A list as long as its set of elements repeats none of them. -/
theorem nodup_of_size_ofList [LawfulEqOrd κ] [DecidableEq κ] {values : List κ}
    (h : values.length = (ExtTreeSet.ofList values).size) : values.Nodup := by
  have htree : (ExtTreeSet.ofList values).toList.Nodup := by
    have hdistinct := ExtTreeSet.distinct_toList (t := ExtTreeSet.ofList values)
    apply List.nodup_iff_pairwise_ne.mpr
    exact hdistinct.imp fun hne heq => hne (Std.compare_eq_iff_eq.mpr heq)
  have hsubset : (ExtTreeSet.ofList values).toList ⊆ values := by
    intro key hmem
    simpa [ExtTreeSet.mem_toList, ExtTreeSet.mem_ofList] using hmem
  have hlength : values.length ≤ (ExtTreeSet.ofList values).toList.length := by
    rw [ExtTreeSet.length_toList, h]
  exact ((htree.subperm hsubset).perm_of_length_le hlength).nodup_iff.mp htree

/-- The contents of a map in key order. -/
def contents (map : ExtTreeMap κ ν) : List ν := map.toList.map Prod.snd

variable [LawfulEqOrd κ]

theorem mem_contents {map : ExtTreeMap κ ν} {content : ν} :
    content ∈ contents map ↔ ∃ key : κ, map[key]? = some content := by
  simp only [contents, List.mem_map, Prod.exists, exists_eq_right,
    ExtTreeMap.mem_toList_iff_getElem?_eq_some]

theorem getElem?_insertEntry_of_ne {map : ExtTreeMap κ ν} {entry : Option (κ × ν)} {key : κ}
    (h : ∀ content, entry ≠ some (key, content)) : (insertEntry map entry)[key]? = map[key]? := by
  cases entry with
  | none => rfl
  | some inserted =>
      have hne : inserted.1 ≠ key := by
        rintro rfl
        exact h inserted.2 rfl
      rw [insertEntry, ExtTreeMap.getElem?_insert, if_neg (by simpa using hne)]

theorem getElem?_insertAll_of_forall_ne {entry : ε → Option (κ × ν)} {values : List ε}
    {map : ExtTreeMap κ ν} {key : κ}
    (h : ∀ value ∈ values, ∀ content, entry value ≠ some (key, content)) :
    (insertAll entry values map)[key]? = map[key]? := by
  induction values generalizing map with
  | nil => rfl
  | cons value rest ih =>
      change (insertAll entry rest (insertEntry map (entry value)))[key]? = _
      rw [ih fun other hother => h other (List.mem_cons_of_mem _ hother)]
      exact getElem?_insertEntry_of_ne (h value List.mem_cons_self)

/-- Contributions for one key agree, so the last of them is any of them. -/
theorem getElem?_insertAll_of_mem {entry : ε → Option (κ × ν)} {values : List ε}
    {map : ExtTreeMap κ ν} {key : κ} {content : ν} {value : ε}
    (hmem : value ∈ values) (hentry : entry value = some (key, content))
    (hagree : ∀ other ∈ values, ∀ found, entry other = some (key, found) → found = content) :
    (insertAll entry values map)[key]? = some content := by
  induction values using List.reverseRecOn with
  | nil => cases hmem
  | append_singleton front last ih =>
      rw [insertAll_append]
      change (insertEntry (insertAll entry front map) (entry last))[key]? = some content
      by_cases hlast : ∃ found, entry last = some (key, found)
      · obtain ⟨found, hfound⟩ := hlast
        rw [hfound, ← hagree last (by simp) found hfound]
        simp [insertEntry]
      · rw [getElem?_insertEntry_of_ne fun found hfound => hlast ⟨found, hfound⟩]
        have hne : value ≠ last := by
          rintro rfl
          exact hlast ⟨content, hentry⟩
        exact ih (by simpa [hne] using hmem) fun other hother =>
          hagree other (List.mem_append_left _ hother)

/-- What a map built from nothing holds was contributed. -/
theorem exists_of_getElem?_insertAll {entry : ε → Option (κ × ν)} {values : List ε} {key : κ}
    {content : ν} (h : (insertAll entry values ∅)[key]? = some content) :
    ∃ value ∈ values, entry value = some (key, content) := by
  induction values using List.reverseRecOn with
  | nil => simp [insertAll] at h
  | append_singleton front last ih =>
      rw [insertAll_append] at h
      change (insertEntry (insertAll entry front ∅) (entry last))[key]? = some content at h
      by_cases hlast : ∃ found, entry last = some (key, found)
      · obtain ⟨found, hfound⟩ := hlast
        rw [hfound, insertEntry, ExtTreeMap.getElem?_insert_self] at h
        cases h
        exact ⟨last, by simp, hfound⟩
      · rw [getElem?_insertEntry_of_ne fun found hfound => hlast ⟨found, hfound⟩] at h
        obtain ⟨value, hmem, hvalue⟩ := ih h
        exact ⟨value, List.mem_append_left _ hmem, hvalue⟩

theorem exists_getElem?_insertAll {entry : ε → Option (κ × ν)} {values : List ε}
    {map : ExtTreeMap κ ν} {key : κ} {content : ν} {value : ε} (hmem : value ∈ values)
    (hentry : entry value = some (key, content)) :
    ∃ found, (insertAll entry values map)[key]? = some found := by
  induction values using List.reverseRecOn with
  | nil => cases hmem
  | append_singleton front last ih =>
      rw [insertAll_append]
      change ∃ found, (insertEntry (insertAll entry front map) (entry last))[key]? = some found
      by_cases hlast : ∃ found, entry last = some (key, found)
      · obtain ⟨found, hfound⟩ := hlast
        rw [hfound]
        exact ⟨found, ExtTreeMap.getElem?_insert_self⟩
      · rw [getElem?_insertEntry_of_ne fun found hfound => hlast ⟨found, hfound⟩]
        have hne : value ≠ last := by
          rintro rfl
          exact hlast ⟨content, hentry⟩
        exact ih (by simpa [hne] using hmem)

theorem getElem?_insertAll_empty {entry : ε → Option (κ × ν)} {values : List ε} {key : κ}
    {content : ν}
    (hagree : ∀ a ∈ values, ∀ b ∈ values, ∀ x y, entry a = some (key, x) →
      entry b = some (key, y) → x = y) :
    (insertAll entry values ∅)[key]? = some content ↔
      ∃ value ∈ values, entry value = some (key, content) := by
  by_cases h : ∃ value ∈ values, ∃ found, entry value = some (key, found)
  · obtain ⟨value, hvalue, found, hfound⟩ := h
    rw [getElem?_insertAll_of_mem hvalue hfound
      (fun other hother x hx => hagree other hother value hvalue x found hx hfound)]
    constructor
    · rintro ⟨⟩
      exact ⟨value, hvalue, hfound⟩
    · rintro ⟨other, hother, hcontent⟩
      rw [hagree value hvalue other hother found content hfound hcontent]
  · push Not at h
    rw [getElem?_insertAll_of_forall_ne h]
    constructor
    · intro hnone
      simp at hnone
    · rintro ⟨value, hvalue, hentry⟩
      exact absurd hentry (h value hvalue content)

end TreeEntries
