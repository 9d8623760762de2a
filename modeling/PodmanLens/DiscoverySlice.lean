import PodmanLens.DiscoveryOrder

/-!
# Slices of an inventory

What was discovered can be kept without the rest. An inventory cut down to a set that holds the
roots, the members and the prerequisites of a graph yields the same groups, dependencies and shared
prerequisites for the same request, provided that no reference in it was ambiguous: without a
second candidate such a reference would start to resolve.
-/

namespace PodmanLens
open Std TreeEntries Closure Relation

section Restrictions
variable {κ ν : Type} [Ord κ] [TransOrd κ] [LawfulEqOrd κ] {map map' : ExtTreeMap κ ν}
  {kept : κ → Bool}

/-- `map'` holds the entries of `map` whose keys are kept. -/
def Restricts (kept : κ → Bool) (map map' : ExtTreeMap κ ν) : Prop :=
  ∀ key, map'[key]? = if kept key then map[key]? else none

omit [LawfulEqOrd κ] in
theorem Restricts.iff (h : Restricts kept map map') {key : κ} {content : ν} :
    map'[key]? = some content ↔ kept key = true ∧ map[key]? = some content := by
  rw [h key]
  split_ifs with hkept
  · simp [hkept]
  · simp [hkept]

theorem Restricts.toList (h : Restricts kept map map') :
    map'.toList = map.toList.filter fun entry => kept entry.1 := by
  have hordered := (ExtTreeMap.ordered_keys_toList (t := map)).filter fun entry => kept entry.1
  refine eq_of_ordered_by Prod.fst ExtTreeMap.ordered_keys_toList hordered fun entry => ?_
  rw [List.mem_filter, ExtTreeMap.mem_toList_iff_getElem?_eq_some, h.iff,
    ExtTreeMap.mem_toList_iff_getElem?_eq_some, and_comm]

end Restrictions

/-- The inventory without the resources that are not kept. -/
def ResourceInventory.restrict (inventory : ResourceInventory) (keep : ResourceIdentity → Bool) :
    ResourceInventory :=
  ⟨inventory.sections.map fun found =>
    { found with observations := found.observations.filter fun record => keep record.identity }⟩

/-- The references of kept resources are not ambiguous. -/
def Unambiguous (inventory : ResourceInventory) (keep : ResourceIdentity → Bool) : Prop :=
  ∀ id relationship, keep id = true → Asserts inventory id relationship →
    ∀ reference ∈ relationship.references,
      resolveReferenceCount inventory.records relationship.kind reference ≠ .many

/-- What a slice must keep, and no ambiguity among what it keeps. -/
structure Sliceable (inventory : ResourceInventory) (request : DiscoveryRequest)
    (graph : ResourceGraph) (keep : ResourceIdentity → Bool) : Prop where
  named : request.all = false
  roots : ∀ id ∈ graph.resolvedRoots, keep id = true
  members : ∀ group ∈ graph.groups, ∀ id ∈ group.members, keep id = true
  prerequisites : ∀ group ∈ graph.groups, ∀ id ∈ group.prerequisites, keep id = true
  references : Unambiguous inventory keep
  selectors : ∀ selector ∈ request.roots, selector.matchKind = .exact →
    resolveSelector inventory.records selector ≠ .many
  overrides : ∀ identifier ∈ request.networkBoundaryOverrides,
    resolveSelector inventory.records (boundarySelector identifier) ≠ .many

variable {inventory : ResourceInventory} {request : DiscoveryRequest} {graph : ResourceGraph}
  {keep : ResourceIdentity → Bool} {a b id : ResourceIdentity}

theorem restricts_records (inventory : ResourceInventory) (keep : ResourceIdentity → Bool) :
    Restricts keep inventory.records (inventory.restrict keep).records := by
  have hobservations : (inventory.restrict keep).sections.flatMap InventorySection.observations =
      (inventory.sections.flatMap InventorySection.observations).filter
        fun record => keep record.identity := by
    rw [ResourceInventory.restrict, List.flatMap_map, List.filter_flatMap]
  intro id
  rw [ResourceInventory.records, ResourceInventory.records, hobservations]
  generalize inventory.sections.flatMap InventorySection.observations = observations
  split_ifs with hid
  · induction observations using List.reverseRecOn with
    | nil => rfl
    | append_singleton front last ih =>
        rw [List.filter_append, insertAll_append, insertAll_append]
        by_cases hlast : keep last.identity = true
        · rw [List.filter_cons_of_pos (p := fun record : ResourceObservation =>
            keep record.identity) hlast]
          simp only [insertAll, List.filter_nil, List.foldl_cons, List.foldl_nil, insertEntry,
            ExtTreeMap.getElem?_insert] at ih ⊢
          rw [ih]
        · have hne : last.identity ≠ id := by
            rintro rfl
            exact hlast hid
          rw [List.filter_cons_of_neg (p := fun record : ResourceObservation =>
            keep record.identity) hlast]
          simp only [insertAll, List.filter_nil, List.foldl_cons, List.foldl_nil, insertEntry,
            ExtTreeMap.getElem?_insert, Std.compare_eq_iff_eq, if_neg hne] at ih ⊢
          exact ih
  · refine (getElem?_insertAll_of_forall_ne fun record hrecord content hentry => ?_).trans (by simp)
    obtain ⟨hkey, -⟩ := Prod.mk.inj (Option.some.inj hentry)
    exact hid (hkey ▸ (List.mem_filter.mp hrecord).2)

theorem mem_restrict_records : id ∈ (inventory.restrict keep).records ↔
    keep id = true ∧ id ∈ inventory.records := by
  simp only [ExtTreeMap.mem_iff_isSome_getElem?, Option.isSome_iff_exists,
    (restricts_records inventory keep).iff, exists_and_left]

section References
variable {records records' : Records} (h : Restricts keep records records')
include h

/-- The records that answer to a reference are those that did and are kept. -/
theorem answering_restrict (kind : ResourceKind) (reference : String) :
    (records'.toList.filter (answersTo kind reference)).map Prod.fst =
      ((records.toList.filter (answersTo kind reference)).map Prod.fst).filter keep := by
  rw [h.toList, List.filter_map, List.filter_filter, List.filter_filter]
  simp only [Function.comp_def, Bool.and_comm]

/-- A unique answer stays one when it is kept, and nothing else becomes one. -/
theorem ofMatched_restrict {kind : ResourceKind} {reference : String}
    (hmany : SelectorResolution.ofMatched
      ((records.toList.filter (answersTo kind reference)).map Prod.fst) ≠ .many) :
    SelectorResolution.ofMatched
        ((records'.toList.filter (answersTo kind reference)).map Prod.fst) = .one id ↔
      keep id = true ∧ SelectorResolution.ofMatched
        ((records.toList.filter (answersTo kind reference)).map Prod.fst) = .one id := by
  rw [answering_restrict h, ofMatched_eq_one, ofMatched_eq_one]
  generalize (records.toList.filter (answersTo kind reference)).map Prod.fst = matched at hmany ⊢
  cases matched with
  | nil => simp
  | cons found rest =>
      cases rest with
      | cons second rest => exact absurd rfl hmany
      | nil =>
          by_cases hfound : keep found = true
          · simp only [List.filter_cons_of_pos hfound, List.filter_nil, List.cons.injEq, and_true]
            constructor
            · rintro rfl
              exact ⟨hfound, rfl⟩
            · exact And.right
          · simp only [List.filter_cons_of_neg hfound, List.filter_nil, List.cons.injEq, and_true]
            constructor
            · intro hnil
              cases hnil
            · rintro ⟨hkept, rfl⟩
              exact absurd hkept hfound

omit h in
theorem eq_of_resolveReferences {kind : ResourceKind} {references : List String}
    {resolved : ExtTreeSet ResourceIdentity} {target : ResourceIdentity}
    (hone : resolveReferences records kind references resolved = .one target)
    (hid : id ∈ resolved) : id = target := by
  induction references generalizing resolved with
  | nil =>
      rw [resolveReferences] at hone
      cases hlist : resolved.toList with
      | nil =>
          rw [hlist] at hone
          cases hone
      | cons first rest =>
          cases rest with
          | nil =>
              rw [hlist] at hone
              cases hone
              have hmem : id ∈ resolved.toList := ExtTreeSet.mem_toList.mpr hid
              rw [hlist] at hmem
              exact List.mem_singleton.mp hmem
          | cons second rest =>
              rw [hlist] at hone
              cases hone
  | cons reference rest ih =>
      rw [resolveReferences] at hone
      split at hone
      · exact ih hone (ExtTreeSet.mem_insert.mpr (Or.inr hid))
      · cases hone
      · cases hone

/-- Unambiguous references agree in a slice on each target that is kept. -/
theorem resolveReferences_restrict {kind : ResourceKind} {references : List String}
    {target : ResourceIdentity}
    (hmany : ∀ reference ∈ references, resolveReferenceCount records kind reference ≠ .many)
    (resolved : ExtTreeSet ResourceIdentity) (hresolved : ∀ found ∈ resolved, keep found = true) :
    resolveReferences records' kind references resolved = .one target ↔
      keep target = true ∧ resolveReferences records kind references resolved = .one target := by
  induction references generalizing resolved with
  | nil =>
      rw [resolveReferences, resolveReferences]
      refine ⟨fun hone => ⟨?_, hone⟩, And.right⟩
      cases hlist : resolved.toList with
      | nil =>
          rw [hlist] at hone
          cases hone
      | cons first rest =>
          have hfirst : keep first = true :=
            hresolved first (ExtTreeSet.mem_toList.mp (hlist ▸ List.mem_cons_self))
          cases rest with
          | nil =>
              rw [hlist] at hone
              cases hone
              exact hfirst
          | cons second rest =>
              rw [hlist] at hone
              cases hone
  | cons reference rest ih =>
      have hcount := hmany reference List.mem_cons_self
      have hrest := ih fun other hother => hmany other (List.mem_cons_of_mem _ hother)
      have hone : ∀ found, resolveReferenceCount records' kind reference = .one found ↔
          keep found = true ∧ resolveReferenceCount records kind reference = .one found :=
        fun found => ofMatched_restrict h hcount
      rw [resolveReferences, resolveReferences]
      cases hold : resolveReferenceCount records kind reference with
      | many => exact absurd hold hcount
      | none =>
          cases hnew : resolveReferenceCount records' kind reference with
          | one found =>
              obtain ⟨-, hfound⟩ := (hone found).mp hnew
              rw [hold] at hfound
              cases hfound
          | none => simp
          | many => simp
      | one found =>
          by_cases hkept : keep found = true
          · rw [(hone found).mpr ⟨hkept, hold⟩]
            refine hrest _ fun other hother => ?_
            rcases ExtTreeSet.mem_insert.mp hother with heq | hother
            · exact Std.compare_eq_iff_eq.mp heq ▸ hkept
            · exact hresolved other hother
          · have hdropped : ¬(keep target = true ∧
                resolveReferences records kind rest (resolved.insert found) = .one target) := by
              rintro ⟨htarget, hsame⟩
              have heq := eq_of_resolveReferences hsame
                (ExtTreeSet.mem_insert.mpr (Or.inl ReflOrd.compare_self))
              exact hkept (heq ▸ htarget)
            cases hnew : resolveReferenceCount records' kind reference with
            | one other =>
                obtain ⟨hother, hsame⟩ := (hone other).mp hnew
                rw [hold] at hsame
                cases hsame
                exact absurd hother hkept
            | none => simpa using hdropped
            | many => simpa using hdropped

theorem resolveRelationshipReference_restrict {relationship : NativeRelationship}
    (hmany : ∀ reference ∈ relationship.references,
      resolveReferenceCount records relationship.kind reference ≠ .many) :
    resolveRelationshipReference records' relationship = .one id ↔
      keep id = true ∧ resolveRelationshipReference records relationship = .one id :=
  resolveReferences_restrict h hmany ∅ fun _ hfound => absurd hfound ExtTreeSet.not_mem_empty

end References

section Dependencies
variable {records records' : Records} {paths paths' : ExtTreeMap DependencyKey (ExtTreeSet String)}

/-- Both ends of an edge are kept. -/
def keepsEnds (keep : ResourceIdentity → Bool) (key : DependencyKey) : Bool :=
  keep key.1 && keep key.2

def CollectingRestricts (keep : ResourceIdentity → Bool) (state state' : Collecting DependencyKey) :
    Prop := Restricts (keepsEnds keep) state.paths state'.paths

theorem Restricts.extendPaths (h : Restricts (keepsEnds keep) paths paths') (key : DependencyKey)
    (fieldPaths : List String) : Restricts (keepsEnds keep) (extendPaths paths key fieldPaths)
      (if keepsEnds keep key then PodmanLens.extendPaths paths' key fieldPaths else paths') := by
  intro other
  by_cases hkey : keepsEnds keep key = true
  · rw [if_pos hkey, PodmanLens.extendPaths, PodmanLens.extendPaths, ExtTreeMap.getElem?_alter,
      ExtTreeMap.getElem?_alter, h, h, if_pos hkey]
    split_ifs with hother hkept
    · rfl
    · exact absurd (Std.compare_eq_iff_eq.mp hother ▸ hkey) hkept
    · rfl
    · rfl
  · rw [if_neg hkey, PodmanLens.extendPaths, ExtTreeMap.getElem?_alter, h]
    split_ifs with hkept hother
    · exact absurd (Std.compare_eq_iff_eq.mp hother ▸ hkept) hkey
    · rfl
    · rfl

/-- A relationship of a kept resource adds the same edge to a slice if its target is kept. -/
theorem restricts_collectRelationship (h : Restricts keep records records')
    {relationship : NativeRelationship} {state state' : Collecting DependencyKey}
    (hmany : ∀ reference ∈ relationship.references,
      resolveReferenceCount records relationship.kind reference ≠ .many) (hid : keep id = true)
    (hstate : Restricts (keepsEnds keep) state.paths state'.paths) :
    Restricts (keepsEnds keep) (collectRelationship records id state relationship).paths
      (collectRelationship records' id state' relationship).paths := by
  have hone : ∀ target, resolveRelationshipReference records' relationship = .one target ↔
      keep target = true ∧ resolveRelationshipReference records relationship = .one target :=
    fun target => resolveRelationshipReference_restrict h hmany
  unfold collectRelationship
  split_ifs
  · exact hstate
  · cases hold : resolveRelationshipReference records relationship with
    | one target =>
        have hextended := hstate.extendPaths (id, target) relationship.fieldPaths
        by_cases htarget : keep target = true
        · rw [if_pos (by simp [keepsEnds, hid, htarget])] at hextended
          rw [(hone target).mpr ⟨htarget, hold⟩]
          exact hextended
        · rw [if_neg (by simp [keepsEnds, htarget])] at hextended
          cases hnew : resolveRelationshipReference records' relationship with
          | one other =>
              obtain ⟨hother, hsame⟩ := (hone other).mp hnew
              rw [hold] at hsame
              cases hsame
              exact absurd hother htarget
          | none | many | conflict => exact hextended
    | none | many | conflict =>
        cases hnew : resolveRelationshipReference records' relationship with
        | one other =>
            obtain ⟨-, hsame⟩ := (hone other).mp hnew
            rw [hold] at hsame
            cases hsame
        | none | many | conflict => exact hstate

/-- A relationship of a dropped resource adds no edge that is kept. -/
theorem restricts_collectRelationship_dropped {relationship : NativeRelationship}
    {state : Collecting DependencyKey} (hid : keep id = false)
    (hstate : Restricts (keepsEnds keep) state.paths paths') :
    Restricts (keepsEnds keep) (collectRelationship records id state relationship).paths
      paths' := by
  unfold collectRelationship
  split_ifs
  · exact hstate
  · split
    · next target _ =>
        have hextended := hstate.extendPaths (id, target) relationship.fieldPaths
        rwa [if_neg (by simp [keepsEnds, hid])] at hextended
    · exact hstate

theorem restricts_collectRecord (h : Restricts keep records records')
    {entry : ResourceIdentity × ResourceObservation} {state state' : Collecting DependencyKey}
    (hmany : ∀ relationship, Observes entry.2 relationship → ∀ reference ∈ relationship.references,
      resolveReferenceCount records relationship.kind reference ≠ .many)
    (hid : keep entry.1 = true) (hstate : Restricts (keepsEnds keep) state.paths state'.paths) :
    Restricts (keepsEnds keep) (collectRecord records state entry).paths
      (collectRecord records' state' entry).paths := by
  unfold collectRecord
  cases hfound : observedRelationships entry.2 with
  | none =>
      dsimp only
      split_ifs <;> exact hstate
  | some relationships =>
      have hall : ∀ relationship ∈ relationships, ∀ reference ∈ relationship.references,
          resolveReferenceCount records relationship.kind reference ≠ .many :=
        fun relationship hmem => hmany relationship ⟨relationships, hfound, hmem⟩
      clear hfound hmany
      dsimp only
      induction relationships generalizing state state' with
      | nil => exact hstate
      | cons relationship rest ih =>
          refine ih (restricts_collectRelationship h (hall _ List.mem_cons_self) hid hstate) ?_
          exact fun other hother => hall other (List.mem_cons_of_mem _ hother)

theorem restricts_collectRecord_dropped {entry : ResourceIdentity × ResourceObservation}
    {state : Collecting DependencyKey} (hid : keep entry.1 = false)
    (hstate : Restricts (keepsEnds keep) state.paths paths') :
    Restricts (keepsEnds keep) (collectRecord records state entry).paths paths' := by
  unfold collectRecord
  split
  · next relationships _ =>
      refine List.foldlRecOn (motive := fun state : Collecting DependencyKey =>
        Restricts (keepsEnds keep) state.paths paths') _ _ hstate ?_
      exact fun state hstate relationship _ => restricts_collectRelationship_dropped hid hstate
  · split_ifs <;> exact hstate

theorem dependencies_restrict (hunambiguous : Unambiguous inventory keep) :
    (inventory.restrict keep).dependencies =
      inventory.dependencies.filter fun edge =>
        keepsEnds keep (edge.dependent, edge.prerequisite) := by
  have hrecords := restricts_records inventory keep
  have hpaths : CollectingRestricts keep
      (inventory.records.toList.foldl (collectRecord inventory.records) .empty)
      ((inventory.restrict keep).records.toList.foldl
        (collectRecord (inventory.restrict keep).records) .empty) := by
    have hentries : List.Forall₂ (fun entry entry' => entry = entry' ∧
        inventory.records[entry.1]? = some entry.2) inventory.records.toList
          inventory.records.toList :=
      List.forall₂_same.mpr fun entry hentry =>
        ⟨rfl, ExtTreeMap.mem_toList_iff_getElem?_eq_some.mp hentry⟩
    rw [hrecords.toList, List.foldl_filter]
    have hstart : CollectingRestricts keep Collecting.empty Collecting.empty :=
      fun key => by simp [Collecting.empty]
    refine foldl_forall₂ hentries ?_ _ _ hstart
    rintro state state' entry _ ⟨rfl, hrecord⟩ hstate
    split_ifs with hkept
    · refine restricts_collectRecord hrecords (fun relationship hobserves => ?_) hkept hstate
      exact hunambiguous entry.1 relationship hkept ⟨entry.2, hrecord, hobserves⟩
    · exact restricts_collectRecord_dropped (Bool.eq_false_iff.mpr hkept) hstate
  rw [ResourceInventory.dependencies, ResourceInventory.dependencies, collectDependencies,
    collectDependencies, Restricts.toList hpaths, List.filter_map]
  rfl

end Dependencies

section Relations

theorem asserts_restrict {relationship : NativeRelationship} :
    Asserts (inventory.restrict keep) id relationship ↔
      keep id = true ∧ Asserts inventory id relationship := by
  simp only [Asserts, (restricts_records inventory keep).iff, and_assoc, exists_and_left]

variable (hunambiguous : Unambiguous inventory keep)
include hunambiguous

theorem consumes_restrict : Consumes (inventory.restrict keep) a b ↔
    keep a = true ∧ keep b = true ∧ Consumes inventory a b := by
  simp only [Consumes, dependencies_restrict hunambiguous, List.mem_filter, keepsEnds,
    Bool.and_eq_true]
  constructor
  · rintro ⟨edge, ⟨hedge, hkept, hkept'⟩, rfl, rfl⟩
    exact ⟨hkept, hkept', edge, hedge, rfl, rfl⟩
  · rintro ⟨hkept, hkept', edge, hedge, rfl, rfl⟩
    exact ⟨edge, ⟨hedge, hkept, hkept'⟩, rfl, rfl⟩

theorem belongs_restrict : Belongs (inventory.restrict keep) a b ↔
    keep a = true ∧ keep b = true ∧ Belongs inventory a b := by
  have hrecords := restricts_records inventory keep
  constructor
  · rintro ⟨relationship, hasserts, hmembership, hone⟩
    obtain ⟨hkept, hasserts⟩ := asserts_restrict.mp hasserts
    obtain ⟨hkept', hone⟩ := (resolveRelationshipReference_restrict hrecords
      (hunambiguous a relationship hkept hasserts)).mp hone
    exact ⟨hkept, hkept', relationship, hasserts, hmembership, hone⟩
  · rintro ⟨hkept, hkept', relationship, hasserts, hmembership, hone⟩
    refine ⟨relationship, asserts_restrict.mpr ⟨hkept, hasserts⟩, hmembership, ?_⟩
    exact (resolveRelationshipReference_restrict hrecords
      (hunambiguous a relationship hkept hasserts)).mpr ⟨hkept', hone⟩

theorem chained_restrict : Chained (inventory.restrict keep) a b ↔
    keep a = true ∧ keep b = true ∧ Chained inventory a b := by
  simp only [Chained, dependencies_restrict hunambiguous, List.mem_filter, keepsEnds,
    Bool.and_eq_true]
  constructor
  · rintro ⟨edge, ⟨hedge, hkept, hkept'⟩, rfl, rfl, hrest⟩
    exact ⟨hkept, hkept', edge, hedge, rfl, rfl, hrest⟩
  · rintro ⟨hkept, hkept', edge, hedge, rfl, rfl, hrest⟩
    exact ⟨edge, ⟨hedge, hkept, hkept'⟩, rfl, rfl, hrest⟩

omit hunambiguous in
theorem getElem?_ownership {project : String} : inventory.ownership[id]? = some project ↔
    ∃ record, inventory.records[id]? = some record ∧
      composeLabelStatus record = .ok (some project) := by
  rw [ResourceInventory.ownership, composeOwnershipIndex, getElem?_insertAll_empty]
  · constructor
    · rintro ⟨entry, hmem, hentry⟩
      split at hentry
      · next found hstatus =>
          cases hentry
          exact ⟨entry.2, ExtTreeMap.mem_toList_iff_getElem?_eq_some.mp hmem, hstatus⟩
      · cases hentry
    · rintro ⟨record, hrecord, hstatus⟩
      refine ⟨(id, record), ExtTreeMap.mem_toList_iff_getElem?_eq_some.mpr hrecord, ?_⟩
      simp only [hstatus]
  · intro left hleft right hright x y hx hy
    split at hx
    · next found hstatus =>
        split at hy
        · next found' hstatus' =>
            obtain ⟨hid, rfl⟩ := Prod.mk.inj (Option.some.inj hx)
            obtain ⟨hid', rfl⟩ := Prod.mk.inj (Option.some.inj hy)
            have hsame : some left.2 = some right.2 := by
              rw [← ExtTreeMap.mem_toList_iff_getElem?_eq_some.mp hleft,
                ← ExtTreeMap.mem_toList_iff_getElem?_eq_some.mp hright, hid, hid']
            rw [Option.some.inj hsame, hstatus'] at hstatus
            exact (Option.some.inj (Except.ok.inj hstatus)).symm
        · cases hy
    · cases hx

omit hunambiguous in
theorem ownedBy_restrict {project : String} : OwnedBy (inventory.restrict keep) project id ↔
    keep id = true ∧ OwnedBy inventory project id := by
  simp only [OwnedBy, getElem?_ownership, (restricts_records inventory keep).iff,
    mem_restrict_records, and_assoc, exists_and_left]
  tauto

theorem joined_restrict : Joined (inventory.restrict keep) a b ↔
    keep a = true ∧ keep b = true ∧ Joined inventory a b := by
  rw [joined_iff, joined_iff, belongs_restrict hunambiguous, belongs_restrict hunambiguous,
    chained_restrict hunambiguous, chained_restrict hunambiguous]
  simp only [ownedBy_restrict]
  constructor
  · rintro ⟨hne, ⟨ha, hb, h⟩ | ⟨hb, ha, h⟩ | ⟨ha, hb, h⟩ | ⟨hb, ha, h⟩ |
      ⟨project, ⟨ha, hleft⟩, hb, hright⟩⟩
    · exact ⟨ha, hb, hne, Or.inl h⟩
    · exact ⟨ha, hb, hne, Or.inr (Or.inl h)⟩
    · exact ⟨ha, hb, hne, Or.inr (Or.inr (Or.inl h))⟩
    · exact ⟨ha, hb, hne, Or.inr (Or.inr (Or.inr (Or.inl h)))⟩
    · exact ⟨ha, hb, hne, Or.inr (Or.inr (Or.inr (Or.inr ⟨project, hleft, hright⟩)))⟩
  · rintro ⟨ha, hb, hne, h | h | h | h | ⟨project, hleft, hright⟩⟩
    · exact ⟨hne, Or.inl ⟨ha, hb, h⟩⟩
    · exact ⟨hne, Or.inr (Or.inl ⟨hb, ha, h⟩)⟩
    · exact ⟨hne, Or.inr (Or.inr (Or.inl ⟨ha, hb, h⟩))⟩
    · exact ⟨hne, Or.inr (Or.inr (Or.inr (Or.inl ⟨hb, ha, h⟩)))⟩
    · exact ⟨hne, Or.inr (Or.inr (Or.inr (Or.inr ⟨project, ⟨ha, hleft⟩, hb, hright⟩)))⟩

end Relations

section Requests

theorem named_restrict (hselectors : ∀ selector ∈ request.roots, selector.matchKind = .exact →
      resolveSelector inventory.records selector ≠ .many) :
    Named (inventory.restrict keep) request id ↔ keep id = true ∧ Named inventory request id := by
  have hrecords := restricts_records inventory keep
  have hstarts : ∀ selector, id ∈ resolvePrefixSelector (inventory.restrict keep).records selector ↔
      keep id = true ∧ id ∈ resolvePrefixSelector inventory.records selector := by
    intro selector
    rw [resolvePrefixSelector, resolvePrefixSelector, List.mem_filter, List.mem_filter,
      ExtTreeMap.mem_keys, ExtTreeMap.mem_keys, mem_restrict_records, and_assoc]
  constructor
  · rintro (⟨selector, hmem, hkind, hone⟩ | ⟨selector, hmem, hkind, hpre⟩ |
      ⟨selector, hmem, record, hrecord, hcarries⟩)
    · obtain ⟨hkept, hone⟩ := (ofMatched_restrict hrecords (hselectors selector hmem hkind)).mp hone
      exact ⟨hkept, .exact selector hmem hkind hone⟩
    · obtain ⟨hkept, hpre⟩ := (hstarts selector).mp hpre
      exact ⟨hkept, .namePrefix selector hmem hkind hpre⟩
    · obtain ⟨hkept, hrecord⟩ := hrecords.iff.mp hrecord
      exact ⟨hkept, .label selector hmem record hrecord hcarries⟩
  · rintro ⟨hkept, ⟨selector, hmem, hkind, hone⟩ | ⟨selector, hmem, hkind, hpre⟩ |
      ⟨selector, hmem, record, hrecord, hcarries⟩⟩
    · exact .exact selector hmem hkind
        ((ofMatched_restrict hrecords (hselectors selector hmem hkind)).mpr ⟨hkept, hone⟩)
    · exact .namePrefix selector hmem hkind ((hstarts selector).mpr ⟨hkept, hpre⟩)
    · exact .label selector hmem record (hrecords.iff.mpr ⟨hkept, hrecord⟩) hcarries

theorem boundaryNetwork_restrict (hoverrides : ∀ identifier ∈ request.networkBoundaryOverrides,
      resolveSelector inventory.records (boundarySelector identifier) ≠ .many) :
    BoundaryNetwork (inventory.restrict keep) request id ↔
      keep id = true ∧ BoundaryNetwork inventory request id := by
  have hrecords := restricts_records inventory keep
  constructor
  · rintro ⟨identifier, hmem, hone⟩
    obtain ⟨hkept, hone⟩ := (ofMatched_restrict hrecords (hoverrides identifier hmem)).mp hone
    exact ⟨hkept, identifier, hmem, hone⟩
  · rintro ⟨hkept, identifier, hmem, hone⟩
    exact ⟨identifier, hmem,
      (ofMatched_restrict hrecords (hoverrides identifier hmem)).mpr ⟨hkept, hone⟩⟩

end Requests

section Slices
variable (h : discover inventory request = .ok graph)
  (hslice : Sliceable inventory request graph keep)
include h hslice

theorem keep_root (hid : id ∈ (inventory.selection request).resolvedRoots) : keep id = true := by
  refine hslice.roots id ?_
  rw [(discoveredFrom_of_ok h).resolvedRoots]
  exact ExtTreeSet.mem_toList.mpr hid

theorem keep_member (hid : id ∈ (inventory.expansion request).members) : keep id = true := by
  obtain ⟨group, hgroup, hmem⟩ := exists_group_mem_iff.mpr hid
  exact hslice.members group ((discoveredFrom_of_ok h).groups ▸ hgroup) id hmem

/-- What a member depends on is a member or a prerequisite. -/
theorem keep_consumed (ha : a ∈ (inventory.expansion request).members)
    (hconsumes : Consumes inventory a b) : keep b = true := by
  obtain ⟨group, hgroup, hmem⟩ := exists_group_mem_iff.mpr ha
  by_cases hb : b ∈ group.members
  · exact hslice.members group ((discoveredFrom_of_ok h).groups ▸ hgroup) b hb
  · obtain ⟨edge, hedge, rfl, rfl⟩ := hconsumes
    refine hslice.prerequisites group ((discoveredFrom_of_ok h).groups ▸ hgroup) _ ?_
    exact (mem_prerequisites hgroup).mpr ⟨hb, edge, hedge, hmem, rfl⟩

theorem selection_restrict : ((inventory.restrict keep).selection request).resolvedRoots =
    (inventory.selection request).resolvedRoots := by
  refine ExtTreeSet.ext_mem fun id => ?_
  have hroot : id ∈ (inventory.selection request).resolvedRoots → keep id = true :=
    keep_root h hslice
  rw [mem_selection] at hroot
  rw [mem_selection, mem_selection, hslice.named, named_restrict hslice.selectors]
  simp only [Bool.false_eq_true, false_and, or_false] at hroot ⊢
  exact ⟨And.right, fun hnamed => ⟨hroot (Or.inl hnamed), hnamed⟩⟩

/-- The members of a slice reach the same resources. -/
theorem expansion_restrict : ((inventory.restrict keep).expansion request).members =
    (inventory.expansion request).members := by
  have hconsumes : ∀ {a b}, Consumes (inventory.restrict keep) a b ↔
      keep a = true ∧ keep b = true ∧ Consumes inventory a b := consumes_restrict hslice.references
  have hjoined : ∀ {a b}, Joined (inventory.restrict keep) a b ↔
      keep a = true ∧ keep b = true ∧ Joined inventory a b := joined_restrict hslice.references
  have hboundary : ∀ {network}, BoundaryNetwork (inventory.restrict keep) request network ↔
      keep network = true ∧ BoundaryNetwork inventory request network :=
    boundaryNetwork_restrict hslice.overrides
  have hold : {id | id ∈ (inventory.expansion request).members} ∈
      Reaching inventory request (inventory.selection request).resolvedRoots.toList :=
    expansion_isLeast.1
  have hmember : ∀ {id}, id ∈ (inventory.expansion request).members → keep id = true :=
    keep_member h hslice
  have hwithin : ∀ id ∈ ((inventory.restrict keep).expansion request).members,
      id ∈ (inventory.expansion request).members := by
    have hreaching : {id | id ∈ (inventory.expansion request).members} ∈
        Reaching (inventory.restrict keep) request
          ((inventory.restrict keep).selection request).resolvedRoots.toList := by
      rw [selection_restrict h hslice]
      refine ⟨fun id hseed => hold.1 id ?_, fun a ha b hab => ?_, fun a ha b hab => ?_⟩
      · rcases hseed with hplain | ⟨shared, hroot, hshared, hconsumed⟩ | ⟨hroot, hshared, hnone⟩
        · exact Or.inl hplain
        · exact Or.inr (Or.inl ⟨shared, hroot, hshared, (hconsumes.mp hconsumed).2.2⟩)
        · refine Or.inr (Or.inr ⟨hroot, hshared, fun consumer hconsumed => ?_⟩)
          have hreached := Set.mem_ofPred.mp
            (hold.1 consumer (Or.inr (Or.inl ⟨id, hroot, hshared, hconsumed⟩)))
          have hkept := keep_root h hslice (ExtTreeSet.mem_toList.mp hroot)
          exact hnone consumer (hconsumes.mpr ⟨hmember hreached, hkept, hconsumed⟩)
      · exact hold.2.1 a ha b (hjoined.mp hab).2.2
      · obtain ⟨network, hkind, hnetwork, hleft, hright⟩ := hab
        exact hold.2.2 a ha b ⟨network, hkind, (hboundary.mp hnetwork).2, (hconsumes.mp hleft).2.2,
          (hconsumes.mp hright).2.2⟩
    intro id hid
    exact Set.mem_ofPred.mp (expansion_isLeast.2 hreaching (Set.mem_ofPred.mpr hid))
  refine ExtTreeSet.ext_mem fun id => ⟨hwithin id, fun hid => ?_⟩
  have hnew : {id | id ∈ ((inventory.restrict keep).expansion request).members} ∈
      Reaching (inventory.restrict keep) request
        ((inventory.restrict keep).selection request).resolvedRoots.toList := expansion_isLeast.1
  rw [selection_restrict h hslice] at hnew
  have hreaching : {id | id ∈ ((inventory.restrict keep).expansion request).members} ∈
      Reaching inventory request (inventory.selection request).resolvedRoots.toList := by
    refine ⟨fun id hseed => hnew.1 id ?_, fun a ha b hab => ?_, fun a ha b hab => ?_⟩
    · have hreached := hmember (Set.mem_ofPred.mp (hold.1 id hseed))
      rcases hseed with hplain | ⟨shared, hroot, hshared, hconsumed⟩ | ⟨hroot, hshared, hnone⟩
      · exact Or.inl hplain
      · have hkept := keep_root h hslice (ExtTreeSet.mem_toList.mp hroot)
        exact Or.inr (Or.inl ⟨shared, hroot, hshared, hconsumes.mpr ⟨hreached, hkept, hconsumed⟩⟩)
      · exact Or.inr (Or.inr ⟨hroot, hshared, fun consumer hconsumed =>
          hnone consumer (hconsumes.mp hconsumed).2.2⟩)
    · have ha' := hwithin a (Set.mem_ofPred.mp ha)
      have hb' := Set.mem_ofPred.mp (hold.2.1 a (Set.mem_ofPred.mpr ha') b hab)
      exact hnew.2.1 a ha b (hjoined.mpr ⟨hmember ha', hmember hb', hab⟩)
    · have ha' := hwithin a (Set.mem_ofPred.mp ha)
      have hb' := Set.mem_ofPred.mp (hold.2.2 a (Set.mem_ofPred.mpr ha') b hab)
      obtain ⟨network, hkind, hnetwork, hleft, hright⟩ := hab
      have hkept := keep_consumed h hslice ha' hleft
      exact hnew.2.2 a ha b ⟨network, hkind, hboundary.mpr ⟨hkept, hnetwork⟩,
        hconsumes.mpr ⟨hmember ha', hkept, hleft⟩, hconsumes.mpr ⟨hmember hb', hkept, hright⟩⟩
  exact Set.mem_ofPred.mp (expansion_isLeast.2 hreaching (Set.mem_ofPred.mpr hid))

/-- Edges that start at kept ends survive in a slice. -/
theorem filter_dependencies_restrict {reads : ResourceDependency → Bool}
    (hreads : ∀ edge ∈ inventory.dependencies, reads edge = true →
      edge.dependent ∈ (inventory.expansion request).members) :
    (inventory.restrict keep).dependencies.filter reads = inventory.dependencies.filter reads := by
  rw [dependencies_restrict hslice.references, List.filter_filter]
  refine List.filter_congr fun edge hedge => ?_
  by_cases hread : reads edge = true
  · have hdependent := hreads edge hedge hread
    have hends : keepsEnds keep (edge.dependent, edge.prerequisite) = true := by
      rw [keepsEnds, keep_member h hslice hdependent,
        keep_consumed h hslice hdependent ⟨edge, hedge, rfl, rfl⟩]
      rfl
    rw [hread, hends, Bool.and_self]
  · rw [Bool.eq_false_iff.mpr hread, Bool.false_and]

theorem group_restrict {group found : ResourceGroup} (hgroup : group ∈ inventory.groups request)
    (hfound : found ∈ (inventory.restrict keep).groups request) (ha : a ∈ group.members)
    (ha' : a ∈ found.members) : found = group := by
  have hpaths : ∀ x, ReflTransGen (Joined inventory) a x ↔
      ReflTransGen (Joined (inventory.restrict keep)) a x := by
    intro x
    constructor
    · intro hpath
      induction hpath with
      | refl => exact .refl
      | tail hpath hjoined ih =>
          refine ih.tail ((joined_restrict hslice.references).mpr ⟨?_, ?_, hjoined⟩)
          · exact keep_member h hslice
              (exists_group_mem_iff.mp ⟨group, hgroup, (mem_group_iff hgroup ha).mpr hpath⟩)
          · exact keep_member h hslice (exists_group_mem_iff.mp
              ⟨group, hgroup, (mem_group_iff hgroup ha).mpr (hpath.tail hjoined)⟩)
    · exact ReflTransGen.mono (fun _ _ hjoined =>
        ((joined_restrict hslice.references).mp hjoined).2.2) a x
  have hmembers : found.members = group.members :=
    eq_of_ordered (group_members_sorted hfound) (group_members_sorted hgroup) fun x =>
      (mem_group_iff hfound ha').trans ((hpaths x).symm.trans (mem_group_iff hgroup ha).symm)
  have hprerequisites : group.withPrerequisites (inventory.restrict keep).dependencies =
      group.withPrerequisites inventory.dependencies := by
    rw [ResourceGroup.withPrerequisites, ResourceGroup.withPrerequisites,
      filter_dependencies_restrict h hslice fun edge _ hedge => ?_]
    rw [Bool.and_eq_true, decide_eq_true_eq] at hedge
    exact exists_group_mem_iff.mp ⟨group, hgroup, hedge.1⟩
  rw [prerequisites_eq hfound, ResourceGroup.withPrerequisites_eq hmembers, hprerequisites,
    ← prerequisites_eq hgroup]

theorem groups_restrict : (inventory.restrict keep).groups request = inventory.groups request := by
  refine eq_of_ordered_by ResourceGroup.id groups_sorted groups_sorted fun group =>
    ⟨fun hgroup => ?_, fun hgroup => ?_⟩
  · have hreached := exists_group_mem_iff.mp ⟨group, hgroup, group_id_mem group⟩
    rw [expansion_restrict h hslice] at hreached
    obtain ⟨found, hfound, hmem⟩ := exists_group_mem_iff.mpr hreached
    rwa [group_restrict h hslice hfound hgroup hmem (group_id_mem group)]
  · have hreached := exists_group_mem_iff.mp ⟨group, hgroup, group_id_mem group⟩
    rw [← expansion_restrict h hslice] at hreached
    obtain ⟨found, hfound, hmem⟩ := exists_group_mem_iff.mpr hreached
    rwa [← group_restrict h hslice hgroup hfound (group_id_mem group) hmem]

/-- A slice that keeps what was discovered yields it again. -/
theorem discover_restrict : ∃ slice, discover (inventory.restrict keep) request = .ok slice ∧
    slice.resolvedRoots = graph.resolvedRoots ∧ slice.groups = graph.groups ∧
      slice.dependencies = graph.dependencies ∧
        slice.sharedPrerequisites = graph.sharedPrerequisites := by
  have hgroups := groups_restrict h hslice
  have haccepted : ∃ slice, discover (inventory.restrict keep) request = .ok slice := by
    have hasked := h
    rw [discover] at hasked ⊢
    split at hasked
    · cases hasked
    · next hrequest => exact ⟨_, if_neg hrequest⟩
  obtain ⟨slice, hok⟩ := haccepted
  have hfrom := discoveredFrom_of_ok h
  have hfrom' := discoveredFrom_of_ok hok
  refine ⟨slice, hok, ?_, ?_, ?_, ?_⟩
  · rw [hfrom'.resolvedRoots, hfrom.resolvedRoots, selection_restrict h hslice]
  · rw [hfrom'.groups, hfrom.groups, hgroups]
  · rw [(dependencies_of_ok hok).1, (dependencies_of_ok h).1, ResourceInventory.grouped, hgroups,
      ← ResourceInventory.grouped]
    refine filter_dependencies_restrict h hslice fun edge _ hedge => ?_
    exact mem_grouped.mp (of_decide_eq_true hedge)
  · rw [(dependencies_of_ok hok).2, (dependencies_of_ok h).2, hgroups]

end Slices

section Sample

/-- Asks for the first container and crosses nothing. -/
def webRequest : DiscoveryRequest := { sampleRequest with networkBoundaryOverrides := ∅ }

/-- The first container and its network. -/
def keepWeb (id : ResourceIdentity) : Bool := [webContainer, frontNetwork].contains id

theorem unambiguous_keepWeb : Unambiguous sampleInventory keepWeb := by
  rintro id relationship - ⟨record, hrecord, relationships, hobserved, hmem⟩ reference hreference
  obtain ⟨hlisted, -⟩ := of_getElem?_records hrecord
  have hrelationship : relationship ∈
      (sampleInventory.observations.filterMap observedRelationships).flatten :=
    List.mem_flatten.mpr ⟨relationships, List.mem_filterMap.mpr ⟨record, hlisted, hobserved⟩, hmem⟩
  have hcounts : ∀ relationship ∈
      (sampleInventory.observations.filterMap observedRelationships).flatten,
      ∀ reference ∈ relationship.references,
        resolveReferenceCount sampleInventory.records relationship.kind reference ≠ .many := by
    decide +kernel
  exact hcounts relationship hrelationship reference hreference

theorem discover_restrict_sample : ∃ graph slice,
    discover sampleInventory webRequest = .ok graph ∧
    discover (sampleInventory.restrict keepWeb) webRequest = .ok slice ∧
      slice.groups = graph.groups := by
  have hread : (discover sampleInventory webRequest).toOption.map (fun graph =>
      (graph.resolvedRoots, graph.groups.map ResourceGroup.members,
        graph.groups.map ResourceGroup.prerequisites)) =
      some ([webContainer], [[webContainer]], [[frontNetwork]]) := by decide +kernel
  cases h : discover sampleInventory webRequest with
  | error code =>
      rw [h] at hread
      cases hread
  | ok graph =>
      rw [h] at hread
      simp only [Except.toOption, Option.map_some, Option.some.injEq, Prod.mk.injEq] at hread
      obtain ⟨hroots, hmembers, hprerequisites⟩ := hread
      have hslice : Sliceable sampleInventory webRequest graph keepWeb := by
        refine ⟨rfl, ?_, ?_, ?_, unambiguous_keepWeb, ?_, ?_⟩
        · rw [hroots]
          decide
        · intro group hgroup id hid
          have hmem := List.mem_map_of_mem (f := ResourceGroup.members) hgroup
          rw [hmembers, List.mem_singleton] at hmem
          rw [hmem, List.mem_singleton] at hid
          rw [hid]
          rfl
        · intro group hgroup id hid
          have hmem := List.mem_map_of_mem (f := ResourceGroup.prerequisites) hgroup
          rw [hprerequisites, List.mem_singleton] at hmem
          rw [hmem, List.mem_singleton] at hid
          rw [hid]
          rfl
        · intro selector hselector _
          rcases ExtTreeSet.mem_insert.mp hselector with heq | hempty
          · rw [← Std.compare_eq_iff_eq.mp heq]
            decide +kernel
          · exact absurd hempty ExtTreeSet.not_mem_empty
        · intro identifier hidentifier
          exact absurd hidentifier ExtTreeSet.not_mem_empty
      obtain ⟨slice, hok, -, hgroups, -⟩ := discover_restrict h hslice
      exact ⟨graph, slice, rfl, hok, hgroups⟩

end Sample

end PodmanLens
