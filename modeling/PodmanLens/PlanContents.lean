import PodmanLens.PlanSuccess

/-!
# What a plan contains

The operations of a plan are exactly the required ones, each once: one image acquisition or create
for every managed declaration, one start for every pod with members and every unpodded container.
-/

namespace PodmanLens
open Std Drain TreeEntries

def DeploymentPlan.ids (plan : DeploymentPlan) : List DeploymentOperationId :=
  plan.operations.map (·.id)

structure PlannedBy (intent : DeploymentIntent) (plan : DeploymentPlan) : Prop where
  clean : CleanIntent intent
  drained : Drained intent.graph plan.ids ∅
  described : ∀ operation ∈ plan.operations,
    describeOperation intent.graph intent.index operation.id = .ok operation
  preconditions : plan.externalPreconditions = externalPreconditions intent.index
  target : plan.target = intent.target
  connection : plan.connection = intent.connection

theorem plannedBy_of_plan {intent : DeploymentIntent} {plan : DeploymentPlan}
    (h : (planDeployment intent).plan = some plan) : PlannedBy intent plan := by
  obtain ⟨hclean, operations, hoperations, rfl⟩ := planDeployment_plan_eq_some.mp h
  obtain ⟨hdrained, hdescribed⟩ := topologicalOperations_ok hoperations
  exact ⟨hclean, hdrained, hdescribed, rfl, rfl, rfl⟩

theorem CleanIntent.getElem?_index {intent : DeploymentIntent} (h : CleanIntent intent)
    {identity : DeploymentResourceId} {resource : DeploymentResource} :
    intent.index[identity]? = some resource ↔
      resource ∈ intent.resources ∧ resource.identity = identity :=
  getElem?_index_of_findings_nil (indexResources_findings_eq_nil.mpr h.distinct)

theorem CleanIntent.getElem?_declared {intent : DeploymentIntent} (h : CleanIntent intent)
    {resource : DeploymentResource} (hmem : resource ∈ intent.resources) :
    intent.index[resource.identity]? = some resource :=
  h.getElem?_index.mpr ⟨hmem, rfl⟩

/-- The operations an intent calls for. -/
inductive RequiredOperation (intent : DeploymentIntent) : DeploymentOperationId → Prop
  | ensureImage (image : ImageIntent) (h : .image image ∈ intent.resources) :
      RequiredOperation intent ⟨.ensureImage, image.identity⟩
  | createNetwork (network : NetworkIntent) (h : .network network ∈ intent.resources) :
      RequiredOperation intent ⟨.create, network.identity⟩
  | createVolume (volume : VolumeIntent) (h : .volume volume ∈ intent.resources) :
      RequiredOperation intent ⟨.create, volume.identity⟩
  | createSecret (secret : SecretIntent) (h : .secret secret ∈ intent.resources) :
      RequiredOperation intent ⟨.create, secret.identity⟩
  | createPod (pod : PodIntent) (h : .pod pod ∈ intent.resources) :
      RequiredOperation intent ⟨.create, pod.identity⟩
  | createContainer (container : ContainerIntent) (h : .container container ∈ intent.resources) :
      RequiredOperation intent ⟨.create, container.identity⟩
  | startPod (pod : PodIntent) (h : .pod pod ∈ intent.resources) (members : pod.members ≠ []) :
      RequiredOperation intent ⟨.startPod, pod.identity⟩
  | startContainer (container : ContainerIntent) (h : .container container ∈ intent.resources)
      (unpodded : container.pod = none) :
      RequiredOperation intent ⟨.startContainer, container.identity⟩

theorem CleanIntent.requires_iff {intent : DeploymentIntent} (h : CleanIntent intent)
    {id : DeploymentOperationId} :
    IndexRequires intent.index id ↔ RequiredOperation intent id := by
  constructor
  · intro hrequires
    obtain ⟨action, identity⟩ := id
    cases action with
    | ensureImage =>
        obtain ⟨image, hget⟩ := hrequires
        obtain ⟨hmem, rfl⟩ := h.getElem?_index.mp hget
        exact .ensureImage image hmem
    | create =>
        obtain ⟨resource, hget, hexternal, hkind⟩ := hrequires
        obtain ⟨hmem, rfl⟩ := h.getElem?_index.mp hget
        cases resource with
        | externalPrecondition e => cases hexternal
        | image image => exact absurd image.identity.2 hkind
        | network network => exact .createNetwork network hmem
        | volume volume => exact .createVolume volume hmem
        | secret secret => exact .createSecret secret hmem
        | pod pod => exact .createPod pod hmem
        | container container => exact .createContainer container hmem
    | startPod =>
        obtain ⟨pod, hget, hmembers⟩ := hrequires
        obtain ⟨hmem, rfl⟩ := h.getElem?_index.mp hget
        exact .startPod pod hmem hmembers
    | startContainer =>
        obtain ⟨container, hget, hpod⟩ := hrequires
        obtain ⟨hmem, rfl⟩ := h.getElem?_index.mp hget
        exact .startContainer container hmem hpod
  · have hcreate : ∀ {resource : DeploymentResource}, resource ∈ intent.resources →
        resource.isExternal = false → resource.identity.kind ≠ .image →
        IndexRequires intent.index ⟨.create, resource.identity⟩ :=
      fun hmem hexternal hkind => ⟨_, h.getElem?_declared hmem, hexternal, hkind⟩
    rintro (⟨image, hmem⟩ | ⟨network, hmem⟩ | ⟨volume, hmem⟩ | ⟨secret, hmem⟩ | ⟨pod, hmem⟩ |
      ⟨container, hmem⟩ | ⟨pod, hmem, hmembers⟩ | ⟨container, hmem, hpod⟩)
    · exact ⟨image, h.getElem?_declared hmem⟩
    · exact hcreate hmem rfl (by simp [DeploymentResource.identity, network.identity.2])
    · exact hcreate hmem rfl (by simp [DeploymentResource.identity, volume.identity.2])
    · exact hcreate hmem rfl (by simp [DeploymentResource.identity, secret.identity.2])
    · exact hcreate hmem rfl (by simp [DeploymentResource.identity, pod.identity.2])
    · exact hcreate hmem rfl (by simp [DeploymentResource.identity, container.identity.2])
    · exact ⟨pod, h.getElem?_declared hmem, hmembers⟩
    · exact ⟨container, h.getElem?_declared hmem, hpod⟩

theorem PlannedBy.mem_ids {intent : DeploymentIntent} {plan : DeploymentPlan}
    (h : PlannedBy intent plan) {id : DeploymentOperationId} :
    id ∈ plan.ids ↔ RequiredOperation intent id := by
  rw [← h.clean.requires_iff,
    ← mem_operationGraph_iff_requires intent.keyed_index]
  change _ ↔ id ∈ intent.graph
  simpa using (h.drained.mem_iff id).symm

section Operations

variable {intent : DeploymentIntent} {plan : DeploymentPlan} {operation : DeploymentOperation}

theorem PlannedBy.declared (h : PlannedBy intent plan) (hmem : operation ∈ plan.operations) :
    operation.resourceIntent ∈ intent.resources ∧
      operation.resourceIntent.identity = operation.id.resource := by
  have hget := (describeOperation_ok (h.described operation hmem)).2.1
  exact h.clean.getElem?_index.mp hget

theorem PlannedBy.required (h : PlannedBy intent plan) (hmem : operation ∈ plan.operations) :
    RequiredOperation intent operation.id :=
  h.mem_ids.mp (List.mem_map_of_mem hmem)

theorem PlannedBy.exists_operation (h : PlannedBy intent plan) {id : DeploymentOperationId}
    (hrequired : RequiredOperation intent id) :
    ∃ operation ∈ plan.operations, operation.id = id :=
  List.mem_map.mp (h.mem_ids.mpr hrequired)

theorem PlannedBy.validated (h : PlannedBy intent plan) (hmem : operation ∈ plan.operations) :
    validateResource intent.index plan.target operation.resourceIntent = [] := by
  obtain ⟨hdeclared, -⟩ := h.declared hmem
  rw [h.target]
  exact h.clean.resources (h.clean.getElem?_declared hdeclared)

end Operations

theorem mem_externalPreconditions {resources : ResourceIndex} {e : ExternalPrecondition} :
    e ∈ externalPreconditions resources ↔
      ∃ identity : DeploymentResourceId, resources[identity]? = some (.externalPrecondition e) := by
  simp only [externalPreconditions, List.mem_filterMap, mem_contents]
  constructor
  · rintro ⟨resource, ⟨identity, hget⟩, he⟩
    split at he
    · cases he
      exact ⟨identity, hget⟩
    · cases he
  · rintro ⟨identity, hget⟩
    exact ⟨_, ⟨identity, hget⟩, rfl⟩

/-- External preconditions are listed in strictly increasing identity order. -/
theorem externalPreconditions_ordered {resources : ResourceIndex} (hkeyed : Keyed resources) :
    (externalPreconditions resources).Pairwise
      fun a b => compare a.identity b.identity = .lt := by
  have hordered : resources.toList.Pairwise fun a b => compare a.1 b.1 = .lt :=
    ExtTreeMap.ordered_keys_toList
  rw [externalPreconditions, contents, List.filterMap_map, List.pairwise_filterMap]
  refine hordered.imp_of_mem ?_
  rintro ⟨k, a⟩ ⟨l, b⟩ ha hb hlt e he f hf
  rw [ExtTreeMap.mem_toList_iff_getElem?_eq_some] at ha hb
  cases a with
  | externalPrecondition a =>
      cases b with
      | externalPrecondition b =>
          cases he
          cases hf
          rw [← hkeyed ha, ← hkeyed hb] at hlt
          exact hlt
      | _ => cases hf
  | _ => cases he

/-- The plan holds exactly the required operations, each once, and the declared externals. -/
theorem plan_operations_exact {intent : DeploymentIntent} {plan : DeploymentPlan}
    (h : (planDeployment intent).plan = some plan) :
    (intent.resources.map (·.identity)).Nodup ∧ plan.ids.Nodup ∧
      (∀ id, id ∈ plan.ids ↔ RequiredOperation intent id) ∧
      (∀ e, e ∈ plan.externalPreconditions ↔ .externalPrecondition e ∈ intent.resources) ∧
      plan.externalPreconditions.Pairwise fun a b => compare a.identity b.identity = .lt := by
  have hplanned := plannedBy_of_plan h
  refine ⟨hplanned.clean.distinct, hplanned.drained.nodup, fun _ => hplanned.mem_ids, ?_, ?_⟩
  · intro e
    rw [hplanned.preconditions, mem_externalPreconditions]
    constructor
    · rintro ⟨identity, hget⟩
      exact (hplanned.clean.getElem?_index.mp hget).1
    · intro hmem
      exact ⟨_, hplanned.clean.getElem?_declared hmem⟩
  · rw [hplanned.preconditions]
    exact externalPreconditions_ordered intent.keyed_index

theorem plan_operations_exact_sample : samplePlan.ids.Nodup ∧
    ∀ id, id ∈ samplePlan.ids ↔ RequiredOperation sampleIntent id :=
  have hexact := plan_operations_exact samplePlan_planned
  ⟨hexact.2.1, hexact.2.2.1⟩

end PodmanLens
