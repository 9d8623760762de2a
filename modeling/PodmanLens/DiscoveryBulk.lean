import PodmanLens.DiscoveryCrossings
import PodmanLens.DiscoveryPrerequisites

/-!
# Containers when every root is wanted

Asking for every eligible root takes the containers outside pods and all pods, which bring their
containers with them. A pod reference that does not resolve and relationships that did not decode
are reported. A container whose infra marker did not decode is never a root of its own: when it
asserts no pod either, the result says nothing about it.
-/

namespace PodmanLens
open Std TreeEntries Closure

section Relations

/-- Grouped, or named by a finding. -/
def Accounted (graph : ResourceGraph) (id : ResourceIdentity) : Prop :=
  (∃ group ∈ graph.groups, id ∈ group.members) ∨
    ∃ finding ∈ graph.findings, finding.resource = some id

def InfraContainer (value : ContainerObservation) : Prop := value.infra.toOption = some true

/-- Every container that is not an infra container is accounted for. -/
def AccountsForContainers (inventory : ResourceInventory) (graph : ResourceGraph) : Prop :=
  ∀ observation ∈ inventory.observations, ∀ value, observation.details = .container value →
    ¬InfraContainer value → Accounted graph observation.identity

/-- The infra marker says that the container is not one, or relationships stand in for it. -/
def Placeable (observation : ResourceObservation) (value : ContainerObservation) : Prop :=
  value.infra = .absent ∨ value.infra.toOption = some false ∨
    (∃ relationship, Observes observation relationship ∧ relationship.kind = .pod) ∨
    relationshipStateBlocksDiscovery value.relationships = true

end Relations

variable {inventory : ResourceInventory} {request : DiscoveryRequest} {graph : ResourceGraph}
  {observation : ResourceObservation} {value : ContainerObservation}
  {relationship : NativeRelationship}

theorem findings_of_ok (h : discover inventory request = .ok graph) {finding : DiscoveryFinding}
    (hfinding : finding ∈ (collectDependencies inventory.records).2) : finding ∈ graph.findings := by
  have hgraph : graph.findings = inventory.discoveryFindings request := by
    rw [discover] at h
    split at h
    · cases h
    · cases h
      rfl
  rw [hgraph, ResourceInventory.discoveryFindings, sortDiscoveryFindings,
    (List.perm_insertionSort _ _).mem_iff]
  simp [hfinding]

theorem grouped_of_reached (h : discover inventory request = .ok graph) {id : ResourceIdentity}
    (hid : id ∈ (inventory.expansion request).members) : Accounted graph id := by
  rw [Accounted, (discoveredFrom_of_ok h).groups]
  exact Or.inl (exists_group_mem_iff.mpr hid)

/-- An eligible root that is not a shared resource is reached. -/
theorem reached_of_eligible (hall : request.all = true) {id : ResourceIdentity}
    {record : ResourceObservation} (hrecord : inventory.records[id]? = some record)
    (hkind : isSharedKind id.kind = false)
    (heligible : eligibleAllRoot id record inventory.reverse inventory.ownership[id]? = true) :
    id ∈ (inventory.expansion request).members := by
  have hroot : id ∈ (inventory.selection request).resolvedRoots :=
    mem_selection.mpr (Or.inr ⟨hall, record, hrecord, heligible⟩)
  exact Set.mem_ofPred.mp (expansion_isLeast.1.1 id
    (Or.inl ⟨ExtTreeSet.mem_toList.mpr hroot, hkind⟩))

theorem relationships_of_container (hdetails : observation.details = .container value) :
    observation.relationships = some value.relationships := by
  rw [ResourceObservation.relationships, hdetails]

section Reported
variable (h : discover inventory request = .ok graph)
  (hrecord : inventory.records[observation.identity]? = some observation)
include h hrecord

theorem accounted_of_blocked (hdetails : observation.details = .container value)
    (hblocked : relationshipStateBlocksDiscovery value.relationships = true) :
    Accounted graph observation.identity := by
  refine Or.inr ⟨.forResource .relationshipConflict observation.identity none,
    findings_of_ok h (mem_dependencyFindings.mpr ⟨_, _, hrecord, Or.inr ⟨?_, rfl⟩⟩), rfl⟩
  rw [relationships_of_container hdetails]
  exact hblocked

theorem accounted_of_unresolved (hobserves : Observes observation relationship)
    (hsourced : relationship.Sourced)
    {code : DiagnosticCode} (hreports : Reports inventory.records observation.identity relationship code) :
    Accounted graph observation.identity := by
  obtain ⟨path, hpath⟩ := List.exists_mem_of_ne_nil _ hsourced.fieldPaths
  exact Or.inr ⟨.forResource code observation.identity (some path),
    findings_of_ok h (mem_dependencyFindings.mpr ⟨_, _, hrecord,
      Or.inl ⟨relationship, hobserves, code, hreports, path, hpath, rfl⟩⟩), rfl⟩

/-- A container that asserts a pod is grouped with it, or the reference is reported. -/
theorem accounted_of_pod (hall : request.all = true)
    (hkind : observation.identity.kind = .container) (hobserves : Observes observation relationship)
    (hsourced : relationship.Sourced) (hpod : relationship.kind = .pod) :
    Accounted graph observation.identity := by
  have hplain : ¬(observation.identity.kind = .pod ∧ relationship.kind = .container) := by
    rw [hkind]
    exact fun hboth => ResourceKind.noConfusion hboth.1
  cases hresolve : resolveRelationshipReference inventory.records relationship with
  | one pod =>
      obtain ⟨hpodKind, hpodRecord⟩ := of_resolveRelationshipReference hresolve
      rw [hpod] at hpodKind
      rw [ExtTreeMap.mem_iff_isSome_getElem?, Option.isSome_iff_exists] at hpodRecord
      obtain ⟨record, hpodRecord⟩ := hpodRecord
      have hreached : pod ∈ (inventory.expansion request).members := by
        refine reached_of_eligible hall hpodRecord ?_ ?_
        · rw [hpodKind]
          rfl
        · rw [eligibleAllRoot, hpodKind]
      have hbelongs : Belongs inventory observation.identity pod :=
        ⟨relationship, ⟨observation, hrecord, hobserves⟩, by rw [hkind, hpod]; rfl, hresolve⟩
      have hne : pod ≠ observation.identity := by
        rintro rfl
        rw [hpodKind] at hkind
        cases hkind
      apply grouped_of_reached h
      exact Set.mem_ofPred.mp (expansion_isLeast.1.2.1 pod (Set.mem_ofPred.mpr hreached) _
        (joined_iff.mpr ⟨hne, Or.inr (Or.inl hbelongs)⟩))
  | none => exact accounted_of_unresolved h hrecord hobserves hsourced ⟨hplain, by rw [hresolve]; rfl⟩
  | many => exact accounted_of_unresolved h hrecord hobserves hsourced ⟨hplain, by rw [hresolve]; rfl⟩
  | conflict =>
      exact accounted_of_unresolved h hrecord hobserves hsourced ⟨hplain, by rw [hresolve]; rfl⟩

end Reported

/-- Every placeable container is grouped or reported when every root is wanted. -/
theorem placeable_accounted (hacquired : inventory.Acquired)
    (h : discover inventory request = .ok graph) (hall : request.all = true)
    (hmem : observation ∈ inventory.observations)
    (hdetails : observation.details = .container value) (hplaceable : Placeable observation value) :
    Accounted graph observation.identity := by
  have hrecord := hacquired.listedOnce.getElem?_records hmem
  have hkind : observation.identity.kind = .container := by
    rw [observation.kindAgrees, hdetails]
    rfl
  by_cases hpod : ∃ relationship, Observes observation relationship ∧ relationship.kind = .pod
  · obtain ⟨relationship, hobserves, hrelationship⟩ := hpod
    exact accounted_of_pod h hrecord hall hkind hobserves
      (sourced_of_asserts hacquired.decoded ⟨observation, hrecord, hobserves⟩).1 hrelationship
  · by_cases hblocked : relationshipStateBlocksDiscovery value.relationships = true
    · exact accounted_of_blocked h hrecord hdetails hblocked
    · have hinfra : isEligibleUnpoddedContainer observation = true := by
        rw [isEligibleUnpoddedContainer, hdetails]
        rcases hplaceable with habsent | hfalse | hasserts | hstate
        · simp [habsent]
        · cases hfield : value.infra <;> simp_all [ObservationField.toOption]
        · exact absurd hasserts hpod
        · exact absurd hstate hblocked
      apply grouped_of_reached h
      refine reached_of_eligible hall hrecord (by rw [hkind]; rfl) ?_
      rw [eligibleAllRoot, hkind]
      simp only [hinfra, Bool.true_and, Bool.not_eq_true', Option.any_eq_false, List.any_eq_false,
        beq_iff_eq]
      intro relationships hsome relationship hin hrelationship
      exact hpod ⟨relationship, ⟨relationships, hsome, hin⟩, hrelationship⟩

section Sample

/-- One container whose infra marker is not a boolean. -/
def unmarkedInventory : ResourceInventory :=
  ⟨[⟨.container, [decodedContainer webContainer .malformed plainReferences webContainer_kind]⟩]⟩

theorem acquired_unmarkedInventory : unmarkedInventory.Acquired := by
  refine ⟨by decide, fun observation hmem => ?_⟩
  obtain rfl : observation = decodedContainer webContainer .malformed plainReferences
      webContainer_kind := by
    simpa [unmarkedInventory, ResourceInventory.observations] using hmem
  exact decoded_decodedContainer _ _ _ _

theorem unmarked_unaccounted : ∃ graph, discover unmarkedInventory everyRoot = .ok graph ∧
    unmarkedInventory.Acquired ∧ ¬AccountsForContainers unmarkedInventory graph := by
  have hempty : (discover unmarkedInventory everyRoot).toOption.map (fun graph =>
      (graph.groups.map ResourceGroup.members, graph.findings)) = some ([], []) := by decide
  cases h : discover unmarkedInventory everyRoot with
  | error code =>
      rw [h] at hempty
      cases hempty
  | ok graph =>
      rw [h] at hempty
      obtain ⟨hgroups, hfindings⟩ := Prod.mk.inj (Option.some.inj hempty)
      refine ⟨graph, rfl, acquired_unmarkedInventory, fun haccounts => ?_⟩
      have haccounted := haccounts (decodedContainer webContainer .malformed plainReferences
        webContainer_kind) (List.mem_singleton_self _) _ rfl (by simp [InfraContainer,
          ObservationField.toOption])
      rcases haccounted with ⟨group, hgroup, -⟩ | ⟨finding, hfinding, -⟩
      · rw [List.map_eq_nil_iff.mp hgroups] at hgroup
        cases hgroup
      · rw [hfindings] at hfinding
        cases hfinding

theorem acquired_attachedInventory : attachedInventory.Acquired :=
  ⟨by decide, decoded_attachedInventory⟩

theorem placeable_accounted_sample : ∃ graph, discover attachedInventory everyRoot = .ok graph ∧
    Accounted graph webContainer := by
  cases h : discover attachedInventory everyRoot with
  | error code =>
      rw [discover] at h
      simp [everyRoot, DiscoveryRequest.selectAll] at h
  | ok graph =>
      have hmem : decodedContainer webContainer .absent attachedReferences webContainer_kind ∈
          attachedInventory.observations := by
        simp [attachedInventory, ResourceInventory.observations]
      exact ⟨graph, rfl, placeable_accounted acquired_attachedInventory h rfl hmem rfl (Or.inl rfl)⟩

end Sample

end PodmanLens
