import Mathlib.Data.Finset.Card
import PodmanLens.DiscoveryEdges
import PodmanLens.DiscoveryGroups

/-!
# Prerequisites stay outside the groups

Only containers and pods depend on anything. What a container needs of another container or of a pod
also groups the two, so a prerequisite outside the group is a network, volume, image or secret. It
has a consumer, and a shared resource with consumers never becomes a member.
-/

namespace PodmanLens
open Std TreeEntries Closure Relation

variable {inventory : ResourceInventory} {request : DiscoveryRequest} {graph : ResourceGraph}
  {a b id : ResourceIdentity} {relationship : NativeRelationship}

section Kinds

theorem ofMatched_eq_none {matched : List ResourceIdentity} :
    SelectorResolution.ofMatched matched = .none ↔ matched = [] := by
  match matched with
  | [] | [_] | _ :: _ :: _ => simp [SelectorResolution.ofMatched]

theorem ofMatched_eq_one {matched : List ResourceIdentity} :
    SelectorResolution.ofMatched matched = .one id ↔ matched = [id] := by
  match matched with
  | [] | [_] | _ :: _ :: _ => simp [SelectorResolution.ofMatched]

theorem ofMatched_eq_many {matched : List ResourceIdentity} :
    SelectorResolution.ofMatched matched = .many ↔
      ∃ first second rest, matched = first :: second :: rest := by
  match matched with
  | [] | [_] | _ :: _ :: _ => simp [SelectorResolution.ofMatched]

/-- A reference resolves to one of the records that answer to it. -/
theorem of_resolveReferenceCount {records : Records} {kind : ResourceKind} {reference : String}
    (h : resolveReferenceCount records kind reference = .one id) :
    id.kind = kind ∧ id ∈ records := by
  rw [resolveReferenceCount, ofMatched_eq_one] at h
  have hmem : id ∈ (records.toList.filter (answersTo kind reference)).map Prod.fst := by
    rw [h]
    exact List.mem_singleton_self id
  obtain ⟨entry, hentry, rfl⟩ := List.mem_map.mp hmem
  rw [List.mem_filter, answersTo, Bool.and_eq_true, beq_iff_eq] at hentry
  exact ⟨hentry.2.1, ExtTreeMap.mem_iff_isSome_getElem?.mpr
    (by rw [ExtTreeMap.mem_toList_iff_getElem?_eq_some.mp hentry.1]; rfl)⟩

theorem of_resolveReferences {records : Records} {kind : ResourceKind} {references : List String}
    {resolved : ExtTreeSet ResourceIdentity}
    (hresolved : ∀ found ∈ resolved, found.kind = kind ∧ found ∈ records)
    (h : resolveReferences records kind references resolved = .one id) :
    id.kind = kind ∧ id ∈ records := by
  induction references generalizing resolved with
  | nil =>
      rw [resolveReferences] at h
      have hmem : id ∈ resolved.toList := by
        revert h
        generalize resolved.toList = found
        intro h
        match found, h with
        | [found], rfl => exact List.mem_singleton_self _
      exact hresolved id (ExtTreeSet.mem_toList.mp hmem)
  | cons reference rest ih =>
      rw [resolveReferences] at h
      split at h
      · next identity hone =>
          refine ih (fun found hfound => ?_) h
          rw [ExtTreeSet.mem_insert, Std.compare_eq_iff_eq] at hfound
          rcases hfound with rfl | hfound
          · exact of_resolveReferenceCount hone
          · exact hresolved found hfound
      · cases h
      · cases h

/-- A relationship resolves to a record of its kind. -/
theorem of_resolveRelationshipReference {records : Records}
    (h : resolveRelationshipReference records relationship = .one id) :
    id.kind = relationship.kind ∧ id ∈ records :=
  of_resolveReferences (by simp) h

theorem observes_container {record : ResourceObservation} {value : ContainerObservation}
    (hdetails : record.details = .container value) :
    Observes record relationship ↔ ∃ relationships,
      value.relationships.toOption = some relationships ∧ relationship ∈ relationships := by
  simp [Observes, observedRelationships, ResourceObservation.relationships, hdetails]

theorem observes_pod {record : ResourceObservation} {value : PodObservation}
    (hdetails : record.details = .pod value) :
    Observes record relationship ↔ ∃ relationships,
      value.relationships.toOption = some relationships ∧ relationship ∈ relationships := by
  simp [Observes, observedRelationships, ResourceObservation.relationships, hdetails]

theorem kind_of_observes {record : ResourceObservation} (h : Observes record relationship) :
    record.identity.kind = .container ∨ record.identity.kind = .pod := by
  obtain ⟨relationships, hsome, -⟩ := h
  rw [record.kindAgrees]
  rw [observedRelationships, ResourceObservation.relationships] at hsome
  cases hdetails : record.details <;> simp_all [ResourceDetails.kind]

theorem kind_of_asserts (h : Asserts inventory a relationship) :
    a.kind = .container ∨ a.kind = .pod := by
  obtain ⟨record, hrecord, hobserves⟩ := h
  rw [← (of_getElem?_records hrecord).2]
  exact kind_of_observes hobserves

theorem not_shared_of_kind (h : id.kind = .container ∨ id.kind = .pod) :
    isSharedKind id.kind = false := by
  rcases h with h | h <;> rw [h] <;> rfl

theorem kind_of_consumes (h : Consumes inventory a b) : a.kind = .container ∨ a.kind = .pod := by
  obtain ⟨relationship, hasserts, -⟩ := consumes_iff.mp h
  exact kind_of_asserts hasserts

theorem kind_of_belongs (h : Belongs inventory a b) :
    (a.kind = .container ∨ a.kind = .pod) ∧ (b.kind = .container ∨ b.kind = .pod) := by
  obtain ⟨relationship, hasserts, hkinds, hone⟩ := h
  have hkind := (of_resolveRelationshipReference hone).1
  refine ⟨kind_of_asserts hasserts, ?_⟩
  rw [isMembership, Bool.or_eq_true, Bool.and_eq_true, Bool.and_eq_true, beq_iff_eq, beq_iff_eq,
    beq_iff_eq, beq_iff_eq, ← hkind] at hkinds
  exact hkinds.imp And.right And.right

/-- Grouping edges join containers and pods. -/
theorem kind_of_joined (h : Joined inventory a b) : b.kind = .container ∨ b.kind = .pod := by
  obtain ⟨-, hbelongs | hbelongs | hchained | hchained | hproject⟩ := joined_iff.mp h
  · exact (kind_of_belongs hbelongs).2
  · exact (kind_of_belongs hbelongs).1
  · obtain ⟨edge, -, -, -, -, hkind, -⟩ := hchained
    exact Or.inl hkind
  · obtain ⟨edge, -, -, -, hkind, -⟩ := hchained
    exact Or.inl hkind
  · obtain ⟨project, -, howned⟩ := hproject
    exact howned.2.1

end Kinds

section Decoded
variable (hdecoded : ∀ observation ∈ inventory.observations, observation.details.Decoded)

include hdecoded

theorem sourced_of_asserts (h : Asserts inventory a relationship) : relationship.Sourced ∧
    (a.kind = .pod → relationship.kind = .container ∨ relationship.kind = .network) := by
  obtain ⟨record, hrecord, hobserves⟩ := h
  obtain ⟨hmem, rfl⟩ := of_getElem?_records hrecord
  have hrecordDecoded := hdecoded record hmem
  cases hdetails : record.details with
  | container value =>
      rw [hdetails] at hrecordDecoded
      obtain ⟨relationships, hobserved, hin⟩ := (observes_container hdetails).mp hobserves
      refine ⟨sourced_of_decoded_container hrecordDecoded hobserved _ hin, fun hpod => ?_⟩
      rw [record.kindAgrees, hdetails] at hpod
      cases hpod
  | pod value =>
      rw [hdetails] at hrecordDecoded
      obtain ⟨relationships, hobserved, hin⟩ := (observes_pod hdetails).mp hobserves
      have hboth := sourced_of_decoded_pod hrecordDecoded hobserved _ hin
      exact ⟨hboth.1, fun _ => hboth.2⟩
  | _ =>
      have hkind := kind_of_observes hobserves
      rw [record.kindAgrees, hdetails] at hkind
      rcases hkind with hkind | hkind <;> cases hkind

/-- A container or pod that something depends on is grouped with it. -/
theorem joined_of_consumes (h : Consumes inventory a b) (hne : a ≠ b)
    (hkind : isSharedKind b.kind = false) : Joined inventory a b := by
  obtain ⟨relationship, hasserts, hpod, hone⟩ := consumes_iff.mp h
  have hresolved := (of_resolveRelationshipReference hone).1
  obtain ⟨hsourced, hpodKind⟩ := sourced_of_asserts hdecoded hasserts
  refine joined_iff.mpr ⟨hne, ?_⟩
  rcases kind_of_asserts hasserts with ha | ha
  · cases hb : b.kind with
    | container =>
        obtain ⟨edge, hedge, rfl, rfl⟩ := h
        refine Or.inr (Or.inr (Or.inl ⟨edge, hedge, rfl, rfl, ha, hb, ?_⟩))
        exact fieldPaths_ne_nil (fun id relationship hasserts =>
          (sourced_of_asserts hdecoded hasserts).1) hedge
    | pod =>
        refine Or.inl ⟨relationship, hasserts, ?_, hone⟩
        rw [isMembership, ha, ← hresolved, hb]
        rfl
    | _ =>
        rw [hb] at hkind
        cases hkind
  · rcases hpodKind ha with hcontainer | hnetwork
    · exact absurd ⟨ha, hcontainer⟩ hpod
    · rw [hresolved, hnetwork] at hkind
      cases hkind

end Decoded

section Members

/-- Nothing that becomes a member is a shared resource with consumers. -/
theorem member_unconsumed (hid : id ∈ (inventory.expansion request).members)
    (hshared : isSharedKind id.kind = true) : ¬Consumes inventory a id := by
  intro hconsumes
  have hreaching : {id | ¬(isSharedKind id.kind = true ∧ ∃ consumer, Consumes inventory consumer id)} ∈
      Reaching inventory request (inventory.selection request).resolvedRoots.toList := by
    have hplain (id : ResourceIdentity) (hkind : id.kind = .container ∨ id.kind = .pod) :
        ¬(isSharedKind id.kind = true ∧ ∃ consumer, Consumes inventory consumer id) := by
      rw [not_shared_of_kind hkind]
      exact fun h => Bool.noConfusion h.1
    refine ⟨?_, ?_, ?_⟩
    · rintro id (⟨-, hkind⟩ | ⟨shared, -, -, hconsumes⟩ | ⟨-, -, hnone⟩)
      · rw [Set.mem_ofPred_eq, hkind]
        exact fun h => Bool.noConfusion h.1
      · exact hplain id (kind_of_consumes hconsumes)
      · rintro ⟨-, consumer, hconsumes⟩
        exact hnone consumer hconsumes
    · exact fun a _ b hjoined => hplain b (kind_of_joined hjoined)
    · rintro a _ b ⟨network, -, -, -, hconsumes⟩
      exact hplain b (kind_of_consumes hconsumes)
  exact Set.mem_ofPred.mp (expansion_isLeast.2 hreaching (Set.mem_ofPred.mpr hid))
    ⟨hshared, a, hconsumes⟩

theorem mem_group_of_joined {group : ResourceGroup} (hgroup : group ∈ inventory.groups request)
    (ha : a ∈ group.members) (hjoined : Joined inventory a b) : b ∈ group.members := by
  have hmember : a ∈ (inventory.expansion request).members :=
    exists_group_mem_iff.mp ⟨group, hgroup, ha⟩
  have hreached : b ∈ (inventory.expansion request).members :=
    Set.mem_ofPred.mp (expansion_isLeast.1.2.1 a (Set.mem_ofPred.mpr hmember) b hjoined)
  have hpath : ReflTransGen (fun x y => ∃ edge ∈ inventory.keptEdges request, edge.Joins x y) a b :=
    ReflTransGen.single (exists_keptEdge_iff.mpr ⟨mem_adjacency.mpr hjoined, hmember, hreached⟩)
  obtain ⟨shared, hshared, hsa, hsb⟩ := (same_group_iff ⟨group, hgroup, ha⟩).mpr hpath
  rwa [eq_of_mem_groups hgroup hshared ha hsa]

/-- A group is everything that some path of grouping edges connects with a member of it. -/
theorem mem_group_iff {group : ResourceGroup} (hgroup : group ∈ inventory.groups request)
    (ha : a ∈ group.members) : b ∈ group.members ↔ ReflTransGen (Joined inventory) a b := by
  constructor
  · intro hb
    have hkept := (same_group_iff ⟨group, hgroup, ha⟩).mp ⟨group, hgroup, ha, hb⟩
    refine ReflTransGen.mono ?_ a b hkept
    rintro x y ⟨edge, hedge, hjoins⟩
    exact ⟨edge, (List.mem_filter.mp hedge).1, hjoins⟩
  · intro hpath
    induction hpath with
    | refl => exact ha
    | tail _ hjoined ih => exact mem_group_of_joined hgroup ih hjoined

/-- The prerequisites of a group are the targets of its members' edges that lead out of it. -/
theorem mem_prerequisites {group : ResourceGroup} (hgroup : group ∈ inventory.groups request) :
    id ∈ group.prerequisites ↔ id ∉ group.members ∧ ∃ edge ∈ inventory.dependencies,
      edge.dependent ∈ group.members ∧ edge.prerequisite = id := by
  rw [ResourceInventory.groups, mem_sortGroups, List.mem_map] at hgroup
  obtain ⟨base, -, rfl⟩ := hgroup
  simp only [ResourceGroup.withPrerequisites, ExtTreeSet.mem_toList, ExtTreeSet.mem_ofList,
    List.contains_iff_mem, List.mem_map, List.mem_filter, Bool.and_eq_true, decide_eq_true_eq]
  constructor
  · rintro ⟨edge, ⟨hedge, hmember, hout⟩, rfl⟩
    exact ⟨hout, edge, hedge, hmember, rfl⟩
  · rintro ⟨hout, edge, hedge, hmember, rfl⟩
    exact ⟨edge, ⟨hedge, hmember, hout⟩, rfl⟩

end Members

section Sharing

theorem getD_countAll (values : List ResourceIdentity) (id : ResourceIdentity) :
    (values.foldl (fun (counts : ExtTreeMap ResourceIdentity ℕ) value =>
      counts.alter value fun count => some (count.getD 0 + 1)) ∅)[id]?.getD 0 = values.count id := by
  induction values using List.reverseRecOn with
  | nil => simp
  | append_singleton front last ih =>
      rw [List.foldl_append, List.foldl_cons, List.foldl_nil, ExtTreeMap.getElem?_alter,
        List.count_append, List.count_singleton]
      by_cases hsame : last = id
      · subst hsame
        simp [ih]
      · have hne : compare last id ≠ .eq := fun h => hsame (Std.compare_eq_iff_eq.mp h)
        rw [if_neg hne, ih]
        simp [hsame]

/-- Where no list repeats an element, an element counts once for each list that has it. -/
theorem one_lt_count_flatMap {groups : List ResourceGroup} (hgroups : groups.Nodup)
    (hparts : ∀ group ∈ groups, group.prerequisites.Nodup) :
    1 < (groups.flatMap ResourceGroup.prerequisites).count id ↔
      ∃ left ∈ groups, ∃ right ∈ groups, left ≠ right ∧
        id ∈ left.prerequisites ∧ id ∈ right.prerequisites := by
  have hcount : (groups.flatMap ResourceGroup.prerequisites).count id =
      (groups.filter fun group => id ∈ group.prerequisites).length := by
    clear hgroups
    induction groups with
    | nil => rfl
    | cons group rest ih =>
        have hrest := ih fun other hother => hparts other (List.mem_cons_of_mem _ hother)
        have hone := List.nodup_iff_count.mp (hparts group List.mem_cons_self) id
        rw [List.flatMap_cons, List.count_append, hrest, List.filter_cons]
        by_cases hmem : id ∈ group.prerequisites
        · have hpos := List.count_pos_iff.mpr hmem
          simp only [hmem, decide_true, if_true, List.length_cons]
          omega
        · simp [hmem, List.count_eq_zero_of_not_mem hmem]
  have hcard : (groups.filter fun group => id ∈ group.prerequisites).length =
      (groups.filter fun group => id ∈ group.prerequisites).toFinset.card :=
    (List.toFinset_card_of_nodup (hgroups.filter _)).symm
  rw [hcount, hcard, Finset.one_lt_card]
  simp only [List.mem_toFinset, List.mem_filter, decide_eq_true_eq]
  constructor
  · rintro ⟨left, ⟨hleft, hl⟩, right, ⟨hright, hr⟩, hne⟩
    exact ⟨left, hleft, right, hright, hne, hl, hr⟩
  · rintro ⟨left, hleft, right, hright, hne, hl, hr⟩
    exact ⟨left, ⟨hleft, hl⟩, right, ⟨hright, hr⟩, hne⟩

theorem mem_sharedPrerequisites {groups : List ResourceGroup} (hgroups : groups.Nodup)
    (hparts : ∀ group ∈ groups, group.prerequisites.Nodup) :
    id ∈ sharedPrerequisites groups ↔ ∃ left ∈ groups, ∃ right ∈ groups, left ≠ right ∧
      id ∈ left.prerequisites ∧ id ∈ right.prerequisites := by
  rw [← one_lt_count_flatMap hgroups hparts, ← getD_countAll, sharedPrerequisites,
    prerequisiteCount]
  generalize (groups.flatMap ResourceGroup.prerequisites).foldl
    (fun (counts : ExtTreeMap ResourceIdentity ℕ) value =>
      counts.alter value fun count => some (count.getD 0 + 1)) ∅ = counts
  simp only [List.mem_map, List.mem_filter, decide_eq_true_eq, Prod.exists, exists_and_right,
    exists_eq_right, ExtTreeMap.mem_toList_iff_getElem?_eq_some]
  cases counts[id]? <;> simp

theorem sharedPrerequisites_sorted (groups : List ResourceGroup) :
    (sharedPrerequisites groups).Pairwise fun a b => compare a b = .lt :=
  List.pairwise_map.mpr (ExtTreeMap.ordered_keys_toList.filter _)

theorem groups_nodup : (inventory.groups request).Nodup := by
  refine groups_sorted.imp fun {left right} hlt heq => ?_
  rw [heq, ReflOrd.compare_self] at hlt
  cases hlt

theorem prerequisites_nodup {group : ResourceGroup} (h : group ∈ inventory.groups request) :
    group.prerequisites.Nodup := by
  rw [ResourceInventory.groups, mem_sortGroups, List.mem_map] at h
  obtain ⟨base, -, rfl⟩ := h
  rw [ResourceGroup.withPrerequisites]
  dsimp only
  exact nodup_toList _

end Sharing

/-- Where the prerequisites and dependency edges of a result lie. -/
structure PrerequisitesOutside (graph : ResourceGraph) : Prop where
  sharedKind : ∀ group ∈ graph.groups, ∀ id ∈ group.prerequisites, isSharedKind id.kind = true
  ungrouped : ∀ group ∈ graph.groups, ∀ id ∈ group.prerequisites,
    ∀ other ∈ graph.groups, id ∉ other.members
  depended : ∀ group ∈ graph.groups, ∀ id ∈ group.prerequisites,
    ∃ edge ∈ graph.dependencies, edge.dependent ∈ group.members ∧ edge.prerequisite = id
  closed : ∀ edge ∈ graph.dependencies, ∃ group ∈ graph.groups, edge.dependent ∈ group.members ∧
    (edge.prerequisite ∈ group.members ∨ edge.prerequisite ∈ group.prerequisites)
  sharedPrerequisites : ∀ id, id ∈ graph.sharedPrerequisites ↔
    ∃ left ∈ graph.groups, ∃ right ∈ graph.groups, left ≠ right ∧
      id ∈ left.prerequisites ∧ id ∈ right.prerequisites

theorem dependencies_of_ok (h : discover inventory request = .ok graph) :
    graph.dependencies = inventory.dependencies.filter (fun edge =>
        edge.dependent ∈ inventory.grouped request) ∧
      graph.sharedPrerequisites = sharedPrerequisites (inventory.groups request) := by
  rw [discover] at h
  split at h
  · cases h
  · cases h
    constructor <;> dsimp only

theorem mem_dependencies_of_ok (h : discover inventory request = .ok graph)
    {edge : ResourceDependency} : edge ∈ graph.dependencies ↔ edge ∈ inventory.dependencies ∧
      ∃ group ∈ inventory.groups request, edge.dependent ∈ group.members := by
  rw [(dependencies_of_ok h).1, List.mem_filter, decide_eq_true_eq, mem_grouped,
    exists_group_mem_iff]

/-- With relationships as the decoders publish them, prerequisites are shared resources outside
every group, edges end in their own group or its prerequisites, and the shared ones are counted. -/
theorem prerequisites_outside
    (hdecoded : ∀ observation ∈ inventory.observations, observation.details.Decoded)
    (h : discover inventory request = .ok graph) : PrerequisitesOutside graph := by
  have hgroups := (discoveredFrom_of_ok h).groups
  have hkind : ∀ group ∈ inventory.groups request, ∀ id ∈ group.prerequisites,
      isSharedKind id.kind = true := by
    intro group hgroup id hid
    obtain ⟨hout, edge, hedge, hmember, rfl⟩ := (mem_prerequisites hgroup).mp hid
    by_contra hplain
    have hne : edge.dependent ≠ edge.prerequisite := fun heq => hout (heq ▸ hmember)
    have hjoined := joined_of_consumes hdecoded ⟨edge, hedge, rfl, rfl⟩ hne
      (Bool.eq_false_iff.mpr hplain)
    exact hout (mem_group_of_joined hgroup hmember hjoined)
  constructor
  · rw [hgroups]
    exact hkind
  · rw [hgroups]
    intro group hgroup id hid other hother hin
    obtain ⟨-, edge, hedge, -, rfl⟩ := (mem_prerequisites hgroup).mp hid
    exact member_unconsumed (exists_group_mem_iff.mp ⟨other, hother, hin⟩)
      (hkind group hgroup _ hid) ⟨edge, hedge, rfl, rfl⟩
  · rw [hgroups]
    intro group hgroup id hid
    obtain ⟨-, edge, hedge, hmember, rfl⟩ := (mem_prerequisites hgroup).mp hid
    exact ⟨edge, (mem_dependencies_of_ok h).mpr ⟨hedge, group, hgroup, hmember⟩, hmember, rfl⟩
  · rw [hgroups]
    intro edge hedge
    obtain ⟨hfound, group, hgroup, hmember⟩ := (mem_dependencies_of_ok h).mp hedge
    refine ⟨group, hgroup, hmember, ?_⟩
    by_cases hin : edge.prerequisite ∈ group.members
    · exact Or.inl hin
    · exact Or.inr ((mem_prerequisites hgroup).mpr ⟨hin, edge, hfound, hmember, rfl⟩)
  · intro id
    rw [(dependencies_of_ok h).2, hgroups]
    exact mem_sharedPrerequisites groups_nodup fun group hgroup => prerequisites_nodup hgroup

section Sample

def plainReferences : ContainerReferences where
  configuredImage := .absent
  podMembership := .absent
  networks := []
  networkDecoding := .default
  volumes := []
  mountDecoding := .default
  nativeDependencies := .absent
  secretGrants := []
  secretDecoding := .default

def decodedContainer (identity : ResourceIdentity) (infra : ObservationField Bool)
    (references : ContainerReferences) (kindAgrees : identity.kind = .container) :
    ResourceObservation :=
  ⟨identity, .container ⟨.absent, infra, references.field⟩, kindAgrees⟩

theorem decoded_decodedContainer (identity : ResourceIdentity) (infra : ObservationField Bool)
    (references : ContainerReferences) (kindAgrees : identity.kind = .container) :
    (decodedContainer identity infra references kindAgrees).details.Decoded :=
  Or.inr (Or.inr ⟨references, rfl⟩)

def attachedReferences : ContainerReferences :=
  { plainReferences with networks := ["front"], networkDecoding := ⟨true, false⟩ }

/-- Two containers attached to one network. -/
def attachedInventory : ResourceInventory :=
  ⟨[⟨.container, [
      decodedContainer webContainer .absent attachedReferences webContainer_kind,
      decodedContainer jobContainer .absent attachedReferences jobContainer_kind]⟩,
    ⟨.network, [⟨frontNetwork, .network ⟨.absent⟩, frontNetwork_kind⟩]⟩]⟩

theorem decoded_attachedInventory :
    ∀ observation ∈ attachedInventory.observations, observation.details.Decoded := by
  intro observation hmem
  simp only [attachedInventory, ResourceInventory.observations, List.flatMap_cons,
    List.flatMap_nil, List.append_nil, List.cons_append, List.nil_append, List.mem_cons,
    List.not_mem_nil, or_false] at hmem
  rcases hmem with rfl | rfl | rfl
  · exact decoded_decodedContainer _ _ _ _
  · exact decoded_decodedContainer _ _ _ _
  · trivial

def everyRoot : DiscoveryRequest := DiscoveryRequest.new.selectAll

theorem prerequisites_outside_sample : ∃ graph,
    discover attachedInventory everyRoot = .ok graph ∧
      graph.sharedPrerequisites = [frontNetwork] ∧ PrerequisitesOutside graph := by
  have hshared : (discover attachedInventory everyRoot).toOption.map
      ResourceGraph.sharedPrerequisites = some [frontNetwork] := by decide +kernel
  cases h : discover attachedInventory everyRoot with
  | error code =>
      rw [h] at hshared
      cases hshared
  | ok graph =>
      rw [h] at hshared
      exact ⟨graph, rfl, Option.some.inj hshared,
        prerequisites_outside decoded_attachedInventory h⟩

end Sample

end PodmanLens
