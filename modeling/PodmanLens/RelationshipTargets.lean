import Mathlib.Data.List.Destutter
import Mathlib.Data.List.Sort
import PodmanLens.DiscoveryPrerequisites

/-!
# Two resolvers of one relationship

Reconciliation indexes every observation by kind and spelling, once for its identifier, its name and
each image alias, and looks references up there. Discovery scans its records for the resources that
answer to a reference. Where an identifier is listed once for its kind, both find the same targets.
-/

namespace PodmanLens
open Std TreeEntries Closure

section Index

abbrev TargetIndex := ExtTreeMap (ResourceKind × String) (List String)

def pushTarget (id : String) (targets : TargetIndex) (key : ResourceKind × String) : TargetIndex :=
  targets.alter key fun candidates => some (candidates.getD [] ++ [id])

/-- The spellings an observation is found under: its identifier, its name, its image aliases. -/
def targetSpellings (observation : ResourceObservation) : List String :=
  observation.identity.id :: observation.identity.name.toList ++
    ([observation.imageRepoTags, observation.imageRepoDigests].filterMap id).flatMap fun field =>
      field.toOption.getD []

def indexObservation (targets : TargetIndex) (observation : ResourceObservation) : TargetIndex :=
  (targetSpellings observation).foldl (fun targets spelling =>
    pushTarget observation.identity.id targets (observation.identity.kind, spelling)) targets

/-- Sorted, and adjacent repetitions dropped. -/
def distinctCandidates (candidates : List String) : List String :=
  (candidates.insertionSort fun left right => (compare left right).isLE).destutter (· ≠ ·)

def reconciliationTargets (inventory : ResourceInventory) : TargetIndex :=
  (inventory.observations.foldl indexObservation ∅).map fun _ candidates =>
    distinctCandidates candidates

inductive RelationshipTarget
  | one (id : String)
  | unresolved
  | ambiguous
  | conflict
  deriving DecidableEq

def RelationshipTarget.ofResolved : List String → RelationshipTarget
  | [id] => .one id
  | [] => .unresolved
  | _ => .conflict

def resolveTargets (targets : TargetIndex) (kind : ResourceKind) :
    List String → ExtTreeSet String → RelationshipTarget
  | [], resolved => .ofResolved resolved.toList
  | reference :: rest, resolved =>
    match targets[(kind, reference)]? with
    | none => .unresolved
    | some candidates =>
      match candidates with
      | [candidate] => resolveTargets targets kind rest (resolved.insert candidate)
      | _ => .ambiguous

def resolveRelationshipTarget (targets : TargetIndex) (relationship : NativeRelationship) :
    RelationshipTarget :=
  resolveTargets targets relationship.kind relationship.references ∅

/-- The outcome of the scan, with the identifier of its single target. -/
def RelationshipReferenceResolution.target : RelationshipReferenceResolution → RelationshipTarget
  | .one identity => .one identity.id
  | .none => .unresolved
  | .many => .ambiguous
  | .conflict => .conflict

end Index

section Candidates
variable {inventory : ResourceInventory} {kind : ResourceKind} {reference candidate : String}

theorem destutter_eq_singleton {values : List String} {value : String} :
    values.destutter (· ≠ ·) = [value] ↔ values ≠ [] ∧ ∀ other ∈ values, other = value := by
  have hfrom (rest : List String) (first : String) :
      rest.destutter' (· ≠ ·) first = [value] ↔ first = value ∧ ∀ other ∈ rest, other = value := by
    induction rest generalizing first with
    | nil => simp
    | cons next rest ih =>
        rw [List.destutter'_cons]
        split_ifs with hne
        · simp only [List.cons.injEq, List.destutter'_ne_nil, and_false, List.forall_mem_cons,
            false_iff]
          rintro ⟨rfl, rfl, -⟩
          exact hne rfl
        · rw [ih, List.forall_mem_cons]
          constructor
          · rintro ⟨rfl, hrest⟩
            exact ⟨rfl, (not_not.mp hne).symm, hrest⟩
          · exact fun h => ⟨h.1, h.2.2⟩
  cases values with
  | nil => simp
  | cons first rest => simp [List.destutter_cons', hfrom]

theorem distinctCandidates_eq_singleton {candidates : List String} :
    distinctCandidates candidates = [candidate] ↔
      candidates ≠ [] ∧ ∀ other ∈ candidates, other = candidate := by
  have hperm := List.perm_insertionSort (fun left right => (compare left right).isLE) candidates
  rw [distinctCandidates, destutter_eq_singleton]
  simp only [hperm.mem_iff, ne_eq, ← List.length_eq_zero_iff, hperm.length_eq]

/-- An observation is a candidate under every spelling it is found under. -/
theorem mem_indexed {observations : List ResourceObservation} :
    candidate ∈ (observations.foldl indexObservation ∅)[(kind, reference)]?.getD [] ↔
      ∃ observation ∈ observations, observation.identity.kind = kind ∧
        reference ∈ targetSpellings observation ∧ observation.identity.id = candidate := by
  have hpush (id : String) (targets : TargetIndex) (key : ResourceKind × String) :
      candidate ∈ (pushTarget id targets key)[(kind, reference)]?.getD [] ↔
        candidate ∈ targets[(kind, reference)]?.getD [] ∨ (key = (kind, reference) ∧ id = candidate) := by
    rw [pushTarget, ExtTreeMap.getElem?_alter]
    by_cases hkey : key = (kind, reference)
    · subst hkey
      simp [eq_comm]
    · have hne : compare key (kind, reference) ≠ .eq := fun h => hkey (Std.compare_eq_iff_eq.mp h)
      simp [hne, hkey]
  have hstep (targets : TargetIndex) (observation : ResourceObservation) :
      candidate ∈ (indexObservation targets observation)[(kind, reference)]?.getD [] ↔
        candidate ∈ targets[(kind, reference)]?.getD [] ∨ (observation.identity.kind = kind ∧
          reference ∈ targetSpellings observation ∧ observation.identity.id = candidate) := by
    refine (foldl_or_iff (fun targets : TargetIndex =>
      candidate ∈ targets[(kind, reference)]?.getD []) (fun targets spelling =>
        hpush observation.identity.id targets (observation.identity.kind, spelling)) _ _).trans ?_
    apply or_congr_right
    simp only [Prod.mk.injEq]
    constructor
    · rintro ⟨spelling, hmem, ⟨hkind, rfl⟩, hid⟩
      exact ⟨hkind, hmem, hid⟩
    · rintro ⟨hkind, hmem, hid⟩
      exact ⟨reference, hmem, ⟨hkind, rfl⟩, hid⟩
  refine (foldl_or_iff (fun targets : TargetIndex =>
    candidate ∈ targets[(kind, reference)]?.getD []) hstep _ _).trans ?_
  simp

/-- No key is stored without a candidate. -/
theorem indexed_ne_nil {observations : List ResourceObservation} {key : ResourceKind × String} :
    (observations.foldl indexObservation ∅)[key]? ≠ some [] := by
  have hpush (id : String) (targets : TargetIndex) (spelled : ResourceKind × String)
      (htargets : targets[key]? ≠ some []) : (pushTarget id targets spelled)[key]? ≠ some [] := by
    rw [pushTarget, ExtTreeMap.getElem?_alter]
    split_ifs
    · simp
    · exact htargets
  refine List.foldlRecOn (motive := fun targets : TargetIndex => targets[key]? ≠ some [])
    _ _ (by simp) fun targets htargets observation _ => ?_
  exact List.foldlRecOn (motive := fun targets : TargetIndex => targets[key]? ≠ some [])
    _ _ htargets fun targets htargets spelling _ => hpush _ _ _ htargets

/-- The spellings of an observation are what its record answers to. -/
theorem mem_targetSpellings {observation : ResourceObservation}
    (hkind : observation.identity.kind = kind) : reference ∈ targetSpellings observation ↔
      answersTo kind reference (observation.identity, observation) = true := by
  have haliases : (∃ field ∈ [observation.imageRepoTags, observation.imageRepoDigests].filterMap id,
      reference ∈ field.toOption.getD []) ↔
      observedImageAliasMatches observation reference = true := by
    simp only [observedImageAliasMatches, List.any_eq_true, Option.any_eq_true,
      List.contains_iff_mem]
    refine exists_congr fun field => and_congr_right fun _ => ?_
    cases field.toOption <;> simp
  have himage : observedImageAliasMatches observation reference = true → kind = .image := by
    intro h
    obtain ⟨field, hfield, -⟩ := haliases.mpr h
    rw [← hkind, observation.kindAgrees]
    cases hdetails : observation.details <;>
      simp_all [ResourceObservation.imageRepoTags, ResourceObservation.imageRepoDigests,
        ResourceDetails.kind]
  simp only [targetSpellings, List.mem_append, List.mem_cons, List.mem_flatMap, haliases,
    answersTo, hkind, beq_self_eq_true, Bool.true_and, Bool.or_eq_true, beq_iff_eq,
    Bool.and_eq_true, Option.mem_toList, @eq_comm _ reference]
  tauto

end Candidates

section Agreement
variable {inventory : ResourceInventory} {kind : ResourceKind} {reference : String}

/-- Resources that are told apart by their identifiers resolve as their identifiers do. -/
theorem target_ofResolved {found : List ResourceIdentity} {ids : List String}
    (hmem : ∀ id, id ∈ ids ↔ ∃ identity ∈ found, identity.id = id) (hfound : found.Nodup)
    (hids : ids.Nodup)
    (hinj : ∀ x ∈ found, ∀ y ∈ found, x.id = y.id → x = y) :
    RelationshipTarget.ofResolved ids = (RelationshipReferenceResolution.ofResolved found).target := by
  match found with
  | [] =>
      have hempty : ids = [] := by
        rw [List.eq_nil_iff_forall_not_mem]
        intro id hid
        obtain ⟨_, hin, -⟩ := (hmem id).mp hid
        cases hin
      rw [hempty]
      rfl
  | [identity] =>
      have hall : ∀ id ∈ ids, id = identity.id := by
        intro id hid
        obtain ⟨found, hin, rfl⟩ := (hmem id).mp hid
        rw [List.mem_singleton.mp hin]
      have hin : identity.id ∈ ids := (hmem _).mpr ⟨identity, List.mem_singleton_self _, rfl⟩
      have hsingle : ids = [identity.id] := by
        refine List.perm_singleton.mp ((List.perm_ext_iff_of_nodup hids
          (List.nodup_singleton _)).mpr fun id => ?_)
        rw [List.mem_singleton]
        exact ⟨hall id, fun h => h ▸ hin⟩
      rw [hsingle]
      rfl
  | first :: second :: rest =>
      have hne : first ≠ second := by
        rintro rfl
        exact (List.nodup_cons.mp hfound).1 List.mem_cons_self
      have hfirst : first.id ∈ ids := (hmem _).mpr ⟨first, by simp, rfl⟩
      have hsecond : second.id ∈ ids := (hmem _).mpr ⟨second, by simp, rfl⟩
      match ids with
      | [] => cases hfirst
      | [id] =>
          rw [List.mem_singleton] at hfirst hsecond
          exact absurd (hinj first (by simp) second (by simp) (hfirst.trans hsecond.symm)) hne
      | _ :: _ :: _ => rfl

/-- Where identifiers are listed once, kind and identifier name a resource. -/
theorem identity_inj (h : inventory.ListsOnce) {x y : ResourceIdentity}
    (hx : x ∈ inventory.records) (hy : y ∈ inventory.records) (hkind : x.kind = y.kind)
    (hid : x.id = y.id) : x = y := by
  rw [ExtTreeMap.mem_iff_isSome_getElem?, Option.isSome_iff_exists] at hx hy
  obtain ⟨left, hleft⟩ := hx
  obtain ⟨right, hright⟩ := hy
  obtain ⟨hleftMem, rfl⟩ := of_getElem?_records hleft
  obtain ⟨hrightMem, rfl⟩ := of_getElem?_records hright
  have hsame := List.inj_on_of_nodup_map h hleftMem hrightMem (by rw [hkind, hid])
  rw [hsame]

/-- The resources that answer to a reference, as the scan lists them. -/
def matchedRecords (inventory : ResourceInventory) (kind : ResourceKind) (reference : String) :
    List ResourceIdentity :=
  (inventory.records.toList.filter (answersTo kind reference)).map Prod.fst

theorem mem_matchedRecords (h : inventory.ListsOnce) {identity : ResourceIdentity} :
    identity ∈ matchedRecords inventory kind reference ↔
      ∃ observation ∈ inventory.observations, observation.identity.kind = kind ∧
        reference ∈ targetSpellings observation ∧ observation.identity = identity := by
  simp only [matchedRecords, List.mem_map, List.mem_filter, mem_toList_records]
  constructor
  · rintro ⟨⟨identity, observation⟩, ⟨hrecord, hanswers⟩, rfl⟩
    obtain ⟨hmem, hidentity⟩ := of_getElem?_records hrecord
    dsimp only at hmem hidentity
    subst hidentity
    have hkind : observation.identity.kind = kind := by
      rw [answersTo, Bool.and_eq_true, beq_iff_eq] at hanswers
      exact hanswers.1
    exact ⟨observation, hmem, hkind, (mem_targetSpellings hkind).mpr hanswers, rfl⟩
  · rintro ⟨observation, hmem, hkind, hspelled, rfl⟩
    exact ⟨(observation.identity, observation),
      ⟨h.getElem?_records hmem, (mem_targetSpellings hkind).mp hspelled⟩, rfl⟩

theorem nodup_matchedRecords : (matchedRecords inventory kind reference).Nodup := by
  have hkeys : (inventory.records.toList.map Prod.fst).Nodup := by
    rw [List.Nodup, List.pairwise_map]
    refine ExtTreeMap.distinct_keys_toList.imp fun {left right} hne heq => hne ?_
    rw [heq, ReflOrd.compare_self]
  exact hkeys.sublist (List.filter_sublist.map _)

/-- The candidates of a reference are the identifiers of the resources that answer to it. -/
theorem mem_candidates (h : inventory.ListsOnce) {candidate : String} :
    candidate ∈ (inventory.observations.foldl indexObservation ∅)[(kind, reference)]?.getD [] ↔
      ∃ identity ∈ matchedRecords inventory kind reference, identity.id = candidate := by
  simp only [mem_indexed, mem_matchedRecords h]
  constructor
  · rintro ⟨observation, hmem, hkind, hspelled, hid⟩
    exact ⟨_, ⟨observation, hmem, hkind, hspelled, rfl⟩, hid⟩
  · rintro ⟨_, ⟨observation, hmem, hkind, hspelled, rfl⟩, hid⟩
    exact ⟨observation, hmem, hkind, hspelled, hid⟩

theorem getElem?_reconciliationTargets {key : ResourceKind × String} :
    (reconciliationTargets inventory)[key]? =
      (inventory.observations.foldl indexObservation ∅)[key]?.map distinctCandidates := by
  rw [reconciliationTargets, ExtTreeMap.getElem?_map]

theorem lookup_of_none (h : inventory.ListsOnce)
    (hnone : resolveReferenceCount inventory.records kind reference = .none) :
    (reconciliationTargets inventory)[(kind, reference)]? = none := by
  have hmatched : matchedRecords inventory kind reference = [] := ofMatched_eq_none.mp hnone
  have hempty : (inventory.observations.foldl indexObservation ∅)[(kind, reference)]?.getD [] =
      [] := by
    rw [List.eq_nil_iff_forall_not_mem]
    intro candidate hcandidate
    obtain ⟨identity, hin, -⟩ := (mem_candidates h).mp hcandidate
    rw [hmatched] at hin
    cases hin
  rw [getElem?_reconciliationTargets]
  have hstored : (inventory.observations.foldl indexObservation ∅)[(kind, reference)]? ≠ some [] :=
    indexed_ne_nil
  cases hlookup : (inventory.observations.foldl indexObservation ∅)[(kind, reference)]? with
  | none => rfl
  | some candidates =>
      rw [hlookup, Option.getD_some] at hempty
      exact absurd (hlookup.trans (congrArg some hempty)) hstored

theorem lookup_of_one (h : inventory.ListsOnce) {identity : ResourceIdentity}
    (hone : resolveReferenceCount inventory.records kind reference = .one identity) :
    (reconciliationTargets inventory)[(kind, reference)]? = some [identity.id] := by
  have hmatched : matchedRecords inventory kind reference = [identity] := ofMatched_eq_one.mp hone
  have hin : identity.id ∈ (inventory.observations.foldl indexObservation ∅)[
      (kind, reference)]?.getD [] :=
    (mem_candidates h).mpr ⟨identity, by rw [hmatched]; exact List.mem_singleton_self _, rfl⟩
  rw [getElem?_reconciliationTargets]
  cases hlookup : (inventory.observations.foldl indexObservation ∅)[(kind, reference)]? with
  | none =>
      rw [hlookup] at hin
      cases hin
  | some candidates =>
      rw [hlookup, Option.getD_some] at hin
      refine congrArg some (distinctCandidates_eq_singleton.mpr ⟨List.ne_nil_of_mem hin, ?_⟩)
      intro other hother
      obtain ⟨found, hfound, rfl⟩ := (mem_candidates h).mp (by rwa [hlookup, Option.getD_some])
      rw [hmatched, List.mem_singleton] at hfound
      rw [hfound]

theorem lookup_of_many (h : inventory.ListsOnce)
    (hmany : resolveReferenceCount inventory.records kind reference = .many) :
    ∃ candidates, (reconciliationTargets inventory)[(kind, reference)]? = some candidates ∧
      ∀ candidate, candidates ≠ [candidate] := by
  obtain ⟨first, second, rest, hmatched⟩ :
      ∃ first second rest, matchedRecords inventory kind reference = first :: second :: rest :=
    ofMatched_eq_many.mp hmany
  have hfirst : first ∈ matchedRecords inventory kind reference := by simp [hmatched]
  have hsecond : second ∈ matchedRecords inventory kind reference := by simp [hmatched]
  have hne : first.id ≠ second.id := by
    intro hid
    obtain ⟨left, hleft, hleftKind, -, rfl⟩ := (mem_matchedRecords h).mp hfirst
    obtain ⟨right, hright, hrightKind, -, rfl⟩ := (mem_matchedRecords h).mp hsecond
    have hsame := List.inj_on_of_nodup_map h hleft hright
      (by rw [hleftKind, hrightKind, hid])
    have hnodup : (matchedRecords inventory kind reference).Nodup := nodup_matchedRecords
    rw [hmatched, hsame] at hnodup
    exact (List.nodup_cons.mp hnodup).1 List.mem_cons_self
  have hin := (mem_candidates h).mpr ⟨first, hfirst, rfl⟩
  have hother := (mem_candidates h).mpr ⟨second, hsecond, rfl⟩
  rw [getElem?_reconciliationTargets]
  cases hlookup : (inventory.observations.foldl indexObservation ∅)[(kind, reference)]? with
  | none =>
      rw [hlookup] at hin
      cases hin
  | some candidates =>
      rw [hlookup, Option.getD_some] at hin hother
      refine ⟨_, rfl, fun candidate hsingle => hne ?_⟩
      have hall := (distinctCandidates_eq_singleton.mp hsingle).2
      rw [hall first.id hin, hall second.id hother]

/-- Both loops stop at the same reference, or end with the same targets. -/
theorem resolveTargets_agrees (h : inventory.ListsOnce) {references : List String}
    {ids : ExtTreeSet String} {resolved : ExtTreeSet ResourceIdentity}
    (hids : ∀ id, id ∈ ids ↔
      ∃ identity : ResourceIdentity, identity ∈ resolved ∧ identity.id = id)
    (hresolved : ∀ identity ∈ resolved, identity.kind = kind ∧ identity ∈ inventory.records) :
    resolveTargets (reconciliationTargets inventory) kind references ids =
      (resolveReferences inventory.records kind references resolved).target := by
  induction references generalizing ids resolved with
  | nil =>
      rw [resolveTargets, resolveReferences]
      refine target_ofResolved (fun id => ?_) (nodup_toList _) (nodup_toList _)
        fun x hx y hy hid => ?_
      · simp only [ExtTreeSet.mem_toList, hids]
      · rw [ExtTreeSet.mem_toList] at hx hy
        exact identity_inj h (hresolved x hx).2 (hresolved y hy).2
          ((hresolved x hx).1.trans (hresolved y hy).1.symm) hid
  | cons reference rest ih =>
      rw [resolveTargets, resolveReferences]
      cases hcount : resolveReferenceCount inventory.records kind reference with
      | none =>
          rw [lookup_of_none h hcount]
          rfl
      | many =>
          obtain ⟨candidates, hlookup, hmany⟩ := lookup_of_many h hcount
          rw [hlookup]
          dsimp only
          split
          · next candidate => exact absurd rfl (hmany candidate)
          · rfl
      | one identity =>
          rw [lookup_of_one h hcount]
          dsimp only
          refine ih (fun id => ?_) fun found hfound => ?_
          · simp only [ExtTreeSet.mem_insert, Std.compare_eq_iff_eq, hids, or_and_right, exists_or,
              exists_eq_left']
          · rw [ExtTreeSet.mem_insert, Std.compare_eq_iff_eq] at hfound
            rcases hfound with rfl | hfound
            · exact of_resolveReferenceCount hcount
            · exact hresolved found hfound

/-- Reconciliation and discovery resolve every relationship alike. -/
theorem relationship_resolvers_agree (inventory : ResourceInventory) (h : inventory.ListsOnce)
    (relationship : NativeRelationship) :
    resolveRelationshipTarget (reconciliationTargets inventory) relationship =
      (resolveRelationshipReference inventory.records relationship).target :=
  resolveTargets_agrees h (by simp) (by simp)

theorem relationship_resolvers_agree_sample :
    resolveRelationshipTarget (reconciliationTargets attachedInventory)
        (.new .network "front" "$.NetworkSettings.Networks.front") =
      (resolveRelationshipReference attachedInventory.records
        (.new .network "front" "$.NetworkSettings.Networks.front")).target :=
  relationship_resolvers_agree attachedInventory (by decide) _

end Agreement

end PodmanLens
