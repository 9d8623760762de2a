import PodmanLens.PlanContents

/-!
# Plans respect their intent

Prerequisites are created before their users, a pod and its members before the pod starts, and
declared startup edges hold between the lifted start operations.
-/

namespace PodmanLens
open Std Drain

/-- `first` occurs strictly before an occurrence of `second` in the sequence of the plan. -/
def DeploymentPlan.Precedes (plan : DeploymentPlan) (first second : DeploymentOperationId) : Prop :=
  Before plan.ids first second

def DeploymentIntent.Manages (intent : DeploymentIntent) (identity : DeploymentResourceId) : Prop :=
  ∀ e, DeploymentResource.externalPrecondition e ∈ intent.resources → e.identity ≠ identity

/-- The operation that starts a container: a pod member starts with its pod. -/
def ContainerIntent.startOperation (container : ContainerIntent) : DeploymentOperationId :=
  match container.pod with
  | some pod => ⟨.startPod, pod⟩
  | none => ⟨.startContainer, container.identity⟩

structure RespectsContainer (intent : DeploymentIntent) (plan : DeploymentPlan)
    (container : ContainerIntent) : Prop where
  image : intent.Manages container.image →
    plan.Precedes ⟨.ensureImage, container.image⟩ ⟨.create, container.identity⟩
  pod : ∀ pod ∈ container.pod, intent.Manages pod →
    plan.Precedes ⟨.create, pod⟩ ⟨.create, container.identity⟩
  networks : ∀ attachment ∈ container.networks.values, intent.Manages attachment.network →
    plan.Precedes ⟨.create, attachment.network⟩ ⟨.create, container.identity⟩
  volumes : ∀ mount ∈ container.mounts, ∀ source ∈ mount.volumeSource, intent.Manages source →
    plan.Precedes ⟨.create, source⟩ ⟨.create, container.identity⟩
  secrets : ∀ grant ∈ container.secretGrants, intent.Manages grant.source →
    plan.Precedes ⟨.create, grant.source⟩ ⟨.create, container.identity⟩
  start : container.pod = none →
    plan.Precedes ⟨.create, container.identity⟩ ⟨.startContainer, container.identity⟩

structure RespectsPod (intent : DeploymentIntent) (plan : DeploymentPlan) (pod : PodIntent) :
    Prop where
  networks : ∀ attachment ∈ pod.networks.values, intent.Manages attachment.network →
    plan.Precedes ⟨.create, attachment.network⟩ ⟨.create, pod.identity⟩
  volumes : ∀ mount ∈ pod.infraMounts, ∀ source ∈ mount.volumeSource, intent.Manages source →
    plan.Precedes ⟨.create, source⟩ ⟨.create, pod.identity⟩
  start : pod.members ≠ [] → plan.Precedes ⟨.create, pod.identity⟩ ⟨.startPod, pod.identity⟩
  members : ∀ member ∈ pod.members, plan.Precedes ⟨.create, member⟩ ⟨.startPod, pod.identity⟩

structure RespectsIntent (intent : DeploymentIntent) (plan : DeploymentPlan) : Prop where
  containers : ∀ container, .container container ∈ intent.resources →
    RespectsContainer intent plan container
  pods : ∀ pod, .pod pod ∈ intent.resources → RespectsPod intent plan pod
  startup : ∀ dependency ∈ intent.startupDependencies, ∃ predecessor dependent : ContainerIntent,
    .container predecessor ∈ intent.resources ∧ predecessor.identity = dependency.predecessor ∧
    .container dependent ∈ intent.resources ∧ dependent.identity = dependency.dependent ∧
    plan.Precedes predecessor.startOperation dependent.startOperation

variable {intent : DeploymentIntent} {plan : DeploymentPlan}

theorem PlannedBy.precedes (h : PlannedBy intent plan) {d id : DeploymentOperationId}
    (hdepends : DependsOn intent.graph d id) : plan.Precedes d id := by
  obtain ⟨dependencies, hget, hd⟩ := hdepends
  have hid : id ∈ intent.graph := ExtTreeMap.mem_iff_isSome_getElem?.mpr (by simp [hget])
  have hmem : id ∈ plan.ids := by simpa using (h.drained.mem_iff id).mp hid
  exact h.drained.deps_before hmem hget hd

theorem CleanIntent.isManaged_iff (h : CleanIntent intent) {identity : DeploymentResourceId} :
    isManaged intent.index identity = true ↔ intent.Manages identity := by
  unfold isManaged DeploymentIntent.Manages
  split
  · next e hget =>
      obtain ⟨hmem, rfl⟩ := h.getElem?_index.mp hget
      simpa using ⟨e, hmem, rfl⟩
  · next hget =>
      simp only [true_iff]
      rintro e hmem rfl
      exact hget e (h.getElem?_declared hmem)

theorem prerequisites_create {resources : ResourceIndex} {identity : DeploymentResourceId}
    {resource : DeploymentResource} (hget : resources[identity]? = some resource)
    (hexternal : resource.isExternal = false) (hkind : identity.kind ≠ .image) :
    Prerequisites resources ⟨.create, identity⟩ (createDependencies resource resources) :=
  ⟨resource, hget, Or.inl (createNode_eq_some.mpr ⟨hexternal, by rw [if_neg hkind], rfl⟩)⟩

/-- A prerequisite of a created resource precedes its creation. -/
theorem PlannedBy.precedes_create (h : PlannedBy intent plan) {resource : DeploymentResource}
    (hmem : resource ∈ intent.resources) (hexternal : resource.isExternal = false)
    (hkind : resource.identity.kind ≠ .image) {d : DeploymentOperationId}
    (hd : d ∈ createDependencies resource intent.index) :
    plan.Precedes d ⟨.create, resource.identity⟩ :=
  h.precedes (dependsOn_operationGraph.mpr
    ⟨_, prerequisites_create (h.clean.getElem?_declared hmem) hexternal hkind, Or.inl hd⟩)

theorem PlannedBy.mem_managedCreates (h : PlannedBy intent plan)
    {identities : List DeploymentResourceId} {identity : DeploymentResourceId}
    (hmem : identity ∈ identities) (hmanages : intent.Manages identity) :
    ⟨.create, identity⟩ ∈ managedCreates intent.index identities :=
  PodmanLens.mem_managedCreates.mpr ⟨identity, hmem, h.clean.isManaged_iff.mpr hmanages, rfl⟩

theorem mem_attachedNetworks {networks : NetworkAttachments} {attachment : NetworkAttachment}
    (h : attachment ∈ networks.values) : attachment.network.val ∈ attachedNetworks networks :=
  List.mem_map.mpr ⟨attachment, h, rfl⟩

theorem mem_mountedVolumes {mounts : List MountIntent} {mount : MountIntent}
    {source : DeploymentResourceId} (h : mount ∈ mounts) (hsource : source ∈ mount.volumeSource) :
    source ∈ mountedVolumes mounts :=
  List.mem_filterMap.mpr ⟨mount, h, hsource⟩

theorem PlannedBy.respectsContainer (h : PlannedBy intent plan) {container : ContainerIntent}
    (hmem : .container container ∈ intent.resources) : RespectsContainer intent plan container := by
  have hprecedes : ∀ {d}, d ∈ createDependencies (.container container) intent.index →
      plan.Precedes d ⟨.create, container.identity⟩ :=
    h.precedes_create hmem rfl (by simp [DeploymentResource.identity, container.identity.2])
  simp only [createDependencies, ExtTreeSet.mem_ofList, List.contains_iff_mem,
    List.mem_append] at hprecedes
  refine ⟨fun hmanages => hprecedes ?_, fun pod hpod hmanages => hprecedes ?_,
    fun attachment hattachment hmanages => hprecedes ?_,
    fun mount hmount source hsource hmanages => hprecedes ?_,
    fun grant hgrant hmanages => hprecedes ?_, fun hpod => h.precedes ?_⟩
  · simp [h.clean.isManaged_iff.mpr hmanages]
  · have hlisted : pod.val ∈ container.pod.toList.map Subtype.val :=
      List.mem_map_of_mem (Option.mem_toList.mpr hpod)
    simp only [h.mem_managedCreates hlisted hmanages, or_true, true_or]
  · simp only [h.mem_managedCreates (mem_attachedNetworks hattachment) hmanages, or_true, true_or]
  · simp only [h.mem_managedCreates (mem_mountedVolumes hmount hsource) hmanages, or_true, true_or]
  · have hlisted : grant.source ∈ container.secretGrants.map SecretGrant.source :=
      List.mem_map_of_mem hgrant
    simp only [h.mem_managedCreates hlisted hmanages, or_true]
  · refine dependsOn_operationGraph.mpr ⟨_, ⟨_, h.clean.getElem?_declared hmem,
      Or.inr (startNode_eq_some.mpr (Or.inr ⟨container, rfl, hpod, rfl, rfl⟩))⟩, Or.inl ?_⟩
    simp [createOperation]

theorem PlannedBy.respectsPod (h : PlannedBy intent plan) {pod : PodIntent}
    (hmem : .pod pod ∈ intent.resources) : RespectsPod intent plan pod := by
  have hprecedes : ∀ {d}, d ∈ createDependencies (.pod pod) intent.index →
      plan.Precedes d ⟨.create, pod.identity⟩ :=
    h.precedes_create hmem rfl (by simp [DeploymentResource.identity, pod.identity.2])
  have hstart : ∀ {d}, pod.members ≠ [] → d ∈ createOperation pod.identity ::
      managedCreates intent.index (pod.members.map Subtype.val) →
      plan.Precedes d ⟨.startPod, pod.identity⟩ := by
    intro d hmembers hd
    refine h.precedes (dependsOn_operationGraph.mpr ⟨_, ⟨_, h.clean.getElem?_declared hmem,
      Or.inr (startNode_eq_some.mpr (Or.inl ⟨pod, rfl, hmembers, rfl, rfl⟩))⟩, Or.inl ?_⟩)
    rw [ExtTreeSet.mem_ofList, List.contains_iff_mem]
    exact hd
  simp only [createDependencies, ExtTreeSet.mem_ofList, List.contains_iff_mem,
    List.mem_append] at hprecedes
  refine ⟨fun attachment hattachment hmanages => hprecedes (Or.inl ?_),
    fun mount hmount source hsource hmanages => hprecedes (Or.inr ?_),
    fun hmembers => hstart hmembers List.mem_cons_self, fun member hmember =>
      hstart (List.ne_nil_of_mem hmember) (List.mem_cons_of_mem _ ?_)⟩
  · exact h.mem_managedCreates (mem_attachedNetworks hattachment) hmanages
  · exact h.mem_managedCreates (mem_mountedVolumes hmount hsource) hmanages
  · refine h.mem_managedCreates (List.mem_map_of_mem hmember) fun e _ heq => ?_
    exact e.boundary.1 ((congrArg _ heq).trans member.2)

/-- In a clean intent, the start anchor of a container is its start operation. -/
theorem CleanIntent.startAnchor_eq_some (h : CleanIntent intent) {identity : DeploymentResourceId}
    {id : DeploymentOperationId} (hanchor : startAnchor intent.index identity = some id) :
    ∃ container : ContainerIntent, .container container ∈ intent.resources ∧
      container.identity = identity ∧ container.startOperation = id := by
  unfold startAnchor at hanchor
  split at hanchor
  · next container hget =>
      obtain ⟨hmem, rfl⟩ := h.getElem?_index.mp hget
      refine ⟨container, hmem, rfl, ?_⟩
      unfold ContainerIntent.startOperation
      cases hpod : container.pod with
      | none =>
          rw [hpod] at hanchor
          exact Option.some_injective _ hanchor
      | some pod =>
          rw [hpod] at hanchor
          simp only at hanchor
          split at hanchor
          · exact Option.some_injective _ hanchor
          · cases hanchor
  · cases hanchor

/-- The operation sequence of a plan respects every prerequisite and startup edge of its intent. -/
theorem plan_respects_intent (h : (planDeployment intent).plan = some plan) :
    RespectsIntent intent plan := by
  have hplanned := plannedBy_of_plan h
  refine ⟨fun container hmem => hplanned.respectsContainer hmem,
    fun pod hmem => hplanned.respectsPod hmem, fun dependency hmem => ?_⟩
  obtain ⟨edge, hedge, -⟩ := hplanned.clean.startup.lifts dependency hmem
  have hlifts := mem_liftedEdges.mp (List.mem_filterMap.mpr ⟨dependency, hmem, hedge⟩)
  unfold liftDependency at hedge
  split at hedge
  · next first second hfirst hsecond =>
      cases hedge
      obtain ⟨predecessor, hpredecessor, hpid, rfl⟩ := hplanned.clean.startAnchor_eq_some hfirst
      obtain ⟨dependent, hdependent, hdid, rfl⟩ := hplanned.clean.startAnchor_eq_some hsecond
      obtain ⟨hrequires, -⟩ :=
        startAnchor_requires intent.keyed_index hplanned.clean.resources hsecond
      obtain ⟨base, hbase⟩ := prerequisites_of_requires intent.keyed_index hrequires
      exact ⟨predecessor, dependent, hpredecessor, Subtype.ext hpid, hdependent, Subtype.ext hdid,
        hplanned.precedes (dependsOn_operationGraph.mpr ⟨base, hbase, Or.inr hlifts⟩)⟩
  · cases hedge

theorem plan_respects_intent_sample : RespectsIntent sampleIntent samplePlan :=
  plan_respects_intent samplePlan_planned

end PodmanLens
