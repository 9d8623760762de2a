import PodmanLens.PlanLeast
import PodmanLens.PlanMembership
import PodmanLens.PlanOrder
import PodmanLens.Provision

/-!
# Executing a plan

A host holds resources and runs containers. Creating a resource needs everything it refers to and
must not find the resource there; starting a container or a pod needs what is started, and the
predecessors that startup dependencies name must run. The `dependsOn` lists of a plan are exactly
what this needs: an order of the operations runs to its end on a host with the external
preconditions if and only if it respects them, and then everything declared exists and runs.
-/

namespace PodmanLens
open Std Drain Provision

/-- A fact about a host. -/
inductive HostFact
  | present (resource : DeploymentResourceId)
  | running (container : DeploymentResourceId)
  deriving DecidableEq

/-- What the creation of a resource refers to. -/
def DeploymentResource.references : DeploymentResource → List DeploymentResourceId
  | .externalPrecondition _ | .image _ | .network _ | .volume _ | .secret _ => []
  | .pod intent => attachedNetworks intent.networks ++ mountedVolumes intent.infraMounts
  | .container intent =>
    intent.image.val :: intent.pod.toList.map Subtype.val ++ attachedNetworks intent.networks ++
      mountedVolumes intent.mounts ++ intent.secretGrants.map SecretGrant.source

/-- The containers that an operation starts. -/
def DeploymentOperation.started (operation : DeploymentOperation) : List DeploymentResourceId :=
  match operation.id.action, operation.resourceIntent with
  | .startPod, .pod pod => pod.members.map Subtype.val
  | .startContainer, _ => [operation.id.resource]
  | _, _ => []

/-- The containers that must run before one of `started`. -/
def awaited (dependencies : List StartupDependency) (started : List DeploymentResourceId) :
    List DeploymentResourceId :=
  (dependencies.filter fun dependency => started.contains dependency.dependent.val).map
    fun dependency => dependency.predecessor.val

namespace DeploymentOperation

def needs (dependencies : List StartupDependency) (operation : DeploymentOperation) :
    List HostFact :=
  match operation.id.action with
  | .ensureImage => []
  | .create => operation.resourceIntent.references.map .present
  | .startPod => (operation.id.resource :: operation.started).map .present ++
      (awaited dependencies operation.started).map .running
  | .startContainer => operation.started.map .present ++
      (awaited dependencies operation.started).map .running

def provides (operation : DeploymentOperation) : List HostFact :=
  match operation.id.action with
  | .ensureImage | .create => [.present operation.id.resource]
  | .startPod | .startContainer => operation.started.map .running

/-- Creation fails where the resource already exists; an image may be there. -/
def fresh (operation : DeploymentOperation) : List HostFact :=
  match operation.id.action with
  | .create => [.present operation.id.resource]
  | _ => []

end DeploymentOperation

/-- What the operations of an intent do to a host. -/
def DeploymentIntent.actions (intent : DeploymentIntent) : Actions DeploymentOperation HostFact where
  needs := DeploymentOperation.needs intent.startupDependencies
  provides := DeploymentOperation.provides
  fresh := DeploymentOperation.fresh

/-- A host that meets the external preconditions of an intent and holds nothing that it manages. -/
structure BareHost (intent : DeploymentIntent) (host : Set HostFact) : Prop where
  external : ∀ e, .externalPrecondition e ∈ intent.resources → .present e.identity ∈ host
  absent : ∀ resource ∈ intent.resources, resource.isExternal = false →
    .present resource.identity ∉ host
  stopped : ∀ container, .container container ∈ intent.resources →
    .running container.identity ∉ host

/-- Every operation comes after the operations it depends on. -/
def RespectsDependencies (order : List DeploymentOperation) : Prop :=
  ∀ operation ∈ order, ∀ d ∈ operation.dependsOn,
    Before (order.map DeploymentOperation.id) d operation.id

variable {intent : DeploymentIntent} {plan : DeploymentPlan} {operation : DeploymentOperation}
  {identity : DeploymentResourceId}

/-- The operation that makes a resource present. -/
def presenting (identity : DeploymentResourceId) : DeploymentOperationId :=
  ⟨if identity.kind = .image then .ensureImage else .create, identity⟩

theorem PlannedBy.requires (h : PlannedBy intent plan) (hmem : operation ∈ plan.operations) :
    IndexRequires intent.index operation.id :=
  h.clean.requires_iff.mpr (h.required hmem)

section Provides

theorem presenting_of_action (h : PlannedBy intent plan) (hmem : operation ∈ plan.operations)
    (haction : operation.id.action = .ensureImage ∨ operation.id.action = .create) :
    operation.id = presenting operation.id.resource := by
  have hrequires := h.requires hmem
  rw [presenting]
  generalize operation.id = id at haction hrequires
  obtain ⟨action, resource⟩ := id
  rcases haction with haction | haction <;> cases haction
  · obtain ⟨image, hget⟩ := hrequires
    obtain ⟨-, hidentity⟩ := h.clean.getElem?_index.mp hget
    have hkind : resource.kind = .image := (congrArg _ hidentity).symm.trans image.identity.2
    rw [if_pos hkind]
  · obtain ⟨-, -, -, hkind⟩ := hrequires
    rw [if_neg hkind]

theorem present_mem_provides (h : PlannedBy intent plan) (hmem : operation ∈ plan.operations) :
    .present identity ∈ operation.provides ↔ operation.id = presenting identity := by
  constructor
  · intro hin
    have haction : operation.id.action = .ensureImage ∨ operation.id.action = .create := by
      rw [DeploymentOperation.provides] at hin
      cases haction : operation.id.action <;> simp [haction] at hin ⊢
    have hsame : identity = operation.id.resource := by
      rw [DeploymentOperation.provides] at hin
      rcases haction with haction | haction <;> simpa [haction] using hin
    rw [hsame]
    exact presenting_of_action h hmem haction
  · intro hid
    rw [DeploymentOperation.provides, hid, presenting]
    split_ifs <;> exact List.mem_singleton_self _

/-- What an operation starts are the containers whose start operation it is. -/
theorem mem_started (h : PlannedBy intent plan) (hmem : operation ∈ plan.operations) :
    identity ∈ operation.started ↔ ∃ container : ContainerIntent,
      .container container ∈ intent.resources ∧ container.identity.val = identity ∧
        operation.id = container.startOperation := by
  have hrequires := h.requires hmem
  have hget := (describeOperation_ok (h.described operation hmem)).2.1
  rw [DeploymentOperation.started]
  generalize operation.id = id at hrequires hget
  generalize operation.resourceIntent = resourceIntent at hget
  obtain ⟨action, resource⟩ := id
  have hplain (hcreates : action = .ensureImage ∨ action = .create) (container : ContainerIntent) :
      (⟨action, resource⟩ : DeploymentOperationId) ≠ container.startOperation := by
    intro heq
    rw [ContainerIntent.startOperation] at heq
    rcases hcreates with rfl | rfl <;> split at heq <;> cases heq
  cases action with
  | ensureImage =>
      refine ⟨fun hin => absurd hin List.not_mem_nil, ?_⟩
      rintro ⟨container, -, -, heq⟩
      exact absurd heq (hplain (Or.inl rfl) container)
  | create =>
      refine ⟨fun hin => absurd hin List.not_mem_nil, ?_⟩
      rintro ⟨container, -, -, heq⟩
      exact absurd heq (hplain (Or.inr rfl) container)
  | startPod =>
      obtain ⟨pod, hpod, -⟩ := hrequires
      cases Option.some.inj (hpod.symm.trans hget)
      obtain ⟨hdeclared, hidentity⟩ := h.clean.getElem?_index.mp hpod
      simp only [List.mem_map]
      constructor
      · rintro ⟨member, hmember, rfl⟩
        obtain ⟨container, hcontainer, rfl, hnames⟩ :=
          h.container_of_member (h.holds_pod.mpr hdeclared) hmember
        refine ⟨container, h.holds_container.mp hcontainer, rfl, ?_⟩
        rw [ContainerIntent.startOperation, hnames]
        exact congrArg _ hidentity.symm
      · rintro ⟨container, hcontainer, rfl, heq⟩
        rw [ContainerIntent.startOperation] at heq
        split at heq
        · next named hnamed =>
            obtain ⟨listed, hlisted, hsame, hmember⟩ :=
              h.pod_of_container (h.holds_container.mpr hcontainer) hnamed
            cases heq
            have hpods := h.clean.eq_of_identity (h.holds_pod.mp hlisted) hdeclared
              ((congrArg Subtype.val hsame).trans hidentity.symm)
            cases hpods
            exact ⟨container.identity, hmember, rfl⟩
        · cases heq
  | startContainer =>
      obtain ⟨container, hcontainer, hpod⟩ := hrequires
      obtain ⟨hdeclared, hidentity⟩ := h.clean.getElem?_index.mp hcontainer
      rw [List.mem_singleton]
      constructor
      · rintro rfl
        refine ⟨container, hdeclared, hidentity, ?_⟩
        rw [ContainerIntent.startOperation, hpod]
        exact congrArg _ hidentity.symm
      · rintro ⟨other, -, rfl, heq⟩
        rw [ContainerIntent.startOperation] at heq
        split at heq
        · cases heq
        · cases heq
          rfl

theorem running_mem_provides (h : PlannedBy intent plan) (hmem : operation ∈ plan.operations) :
    .running identity ∈ operation.provides ↔ ∃ container : ContainerIntent,
      .container container ∈ intent.resources ∧ container.identity.val = identity ∧
        operation.id = container.startOperation := by
  rw [← mem_started h hmem, DeploymentOperation.provides, DeploymentOperation.started]
  cases operation.id.action with
  | ensureImage => simp
  | create => simp
  | startPod => simp
  | startContainer => simp

end Provides

section Needs

/-- The resources that an operation needs to be there. -/
def DeploymentOperation.referenced (operation : DeploymentOperation) : List DeploymentResourceId :=
  match operation.id.action with
  | .ensureImage => []
  | .create => operation.resourceIntent.references
  | .startPod => operation.id.resource :: operation.started
  | .startContainer => operation.started

theorem present_mem_needs {dependencies : List StartupDependency} :
    .present identity ∈ operation.needs dependencies ↔ identity ∈ operation.referenced := by
  rw [DeploymentOperation.needs, DeploymentOperation.referenced]
  cases operation.id.action <;> simp

theorem running_mem_needs {dependencies : List StartupDependency} :
    .running identity ∈ operation.needs dependencies ↔
      identity ∈ awaited dependencies operation.started := by
  rw [DeploymentOperation.needs, DeploymentOperation.started]
  cases operation.id.action <;> simp [awaited]

theorem mem_managedCreates_presenting {resources : ResourceIndex}
    {identities : List DeploymentResourceId} (hkinds : ∀ id ∈ identities, id.kind ≠ .image)
    {d : DeploymentOperationId} : d ∈ managedCreates resources identities ↔
      ∃ id ∈ identities, isManaged resources id = true ∧ d = presenting id := by
  rw [mem_managedCreates]
  refine exists_congr fun id => and_congr_right fun hid => and_congr_right fun _ => ?_
  rw [presenting, if_neg (hkinds id hid), createOperation, eq_comm]

theorem references_resolved (h : PlannedBy intent plan) {resource : DeploymentResource}
    (hmem : resource ∈ intent.resources) : ∀ id ∈ resource.references, id ∈ intent.index := by
  have hget := h.clean.getElem?_declared hmem
  cases resource with
  | pod pod =>
      have hresolved := podResolved_of_clean h.clean.resources hget
      intro id hid
      rcases List.mem_append.mp hid with hid | hid
      · exact (hresolved.networks id hid).2
      · exact (hresolved.volumes id hid).2
  | container container =>
      have hresolved := containerResolved_of_clean intent.keyed_index h.clean.resources hget
      intro id hid
      simp only [DeploymentResource.references, List.mem_append, List.mem_cons, List.mem_map,
        Option.mem_toList] at hid
      rcases hid with (((rfl | ⟨pod, hpod, rfl⟩) | hid) | hid) | ⟨grant, hgrant, rfl⟩
      · exact hresolved.image
      · obtain ⟨declared, hdeclared, -⟩ := hresolved.pod pod hpod
        exact ExtTreeMap.mem_iff_isSome_getElem?.mpr (by simp [hdeclared])
      · exact (hresolved.networks id hid).2
      · exact (hresolved.volumes id hid).2
      · exact hresolved.secrets grant hgrant
  | _ => exact fun id hid => absurd hid List.not_mem_nil

/-- Creation depends on the acquisition or creation of each managed reference. -/
theorem mem_createDependencies (h : PlannedBy intent plan) {resource : DeploymentResource}
    (hmem : resource ∈ intent.resources) {d : DeploymentOperationId} :
    d ∈ createDependencies resource intent.index ↔
      ∃ id ∈ resource.references, isManaged intent.index id = true ∧ d = presenting id := by
  have hget := h.clean.getElem?_declared hmem
  cases resource with
  | pod pod =>
      have hresolved := podResolved_of_clean h.clean.resources hget
      rw [createDependencies, ExtTreeSet.mem_ofList, List.contains_iff_mem, List.mem_append,
        mem_managedCreates_presenting fun id hid => by simp [(hresolved.networks id hid).1],
        mem_managedCreates_presenting fun id hid => by simp [(hresolved.volumes id hid).1]]
      simp only [DeploymentResource.references, List.mem_append, or_and_right, exists_or]
  | container container =>
      have hresolved := containerResolved_of_clean intent.keyed_index h.clean.resources hget
      have himage : d ∈ (if isManaged intent.index container.image then
          [(⟨.ensureImage, container.image⟩ : DeploymentOperationId)] else []) ↔
          isManaged intent.index container.image = true ∧ d = presenting container.image := by
        rw [presenting, if_pos container.image.2]
        split_ifs with hmanaged <;> simp [hmanaged]
      have hpods : ∀ id ∈ container.pod.toList.map Subtype.val, id.kind ≠ .image := by
        intro id hid
        obtain ⟨pod, -, rfl⟩ := List.mem_map.mp hid
        simp [pod.2]
      have hgrants : ∀ id ∈ container.secretGrants.map SecretGrant.source, id.kind ≠ .image := by
        intro id hid
        obtain ⟨grant, -, rfl⟩ := List.mem_map.mp hid
        simp [grant.kind_source]
      rw [createDependencies, ExtTreeSet.mem_ofList, List.contains_iff_mem]
      simp only [List.mem_append]
      rw [himage, mem_managedCreates_presenting hpods,
        mem_managedCreates_presenting fun id hid => by simp [(hresolved.networks id hid).1],
        mem_managedCreates_presenting fun id hid => by simp [(hresolved.volumes id hid).1],
        mem_managedCreates_presenting hgrants]
      simp only [DeploymentResource.references, List.cons_append, List.mem_cons, List.mem_append,
        or_and_right, exists_or, exists_eq_left, or_assoc]
  | _ =>
      refine ⟨fun hd => absurd hd ExtTreeSet.not_mem_empty, ?_⟩
      rintro ⟨id, hid, -⟩
      exact absurd hid List.not_mem_nil

theorem getElem?_container (h : PlannedBy intent plan) {container : ContainerIntent}
    (hmem : .container container ∈ intent.resources) :
    intent.index[container.identity.val]? = some (.container container) :=
  h.clean.getElem?_declared hmem

theorem isManaged_member (h : PlannedBy intent plan) {container : ContainerIntent}
    (hmem : .container container ∈ intent.resources) :
    isManaged intent.index container.identity = true := by
  rw [isManaged, getElem?_container h hmem]

theorem mem_referenced (h : PlannedBy intent plan) (hmem : operation ∈ plan.operations) :
    ∀ id ∈ operation.referenced, id ∈ intent.index := by
  have hdeclared := h.declared hmem
  have hget := (describeOperation_ok (h.described operation hmem)).2.1
  have hresource : operation.id.resource ∈ intent.index :=
    ExtTreeMap.mem_iff_isSome_getElem?.mpr (by simp [hget])
  have hstarted : ∀ id ∈ operation.started, id ∈ intent.index := by
    intro id hid
    obtain ⟨container, hcontainer, rfl, -⟩ := (mem_started h hmem).mp hid
    exact ExtTreeMap.mem_iff_isSome_getElem?.mpr (by simp [getElem?_container h hcontainer])
  rw [DeploymentOperation.referenced]
  cases operation.id.action with
  | ensureImage => exact fun id hid => absurd hid List.not_mem_nil
  | create => exact references_resolved h hdeclared.1
  | startPod =>
      intro id hid
      rcases List.mem_cons.mp hid with rfl | hid
      · exact hresource
      · exact hstarted id hid
  | startContainer => exact hstarted

/-- Without the startup edges, an operation depends on what makes its managed references present. -/
theorem mem_base (h : PlannedBy intent plan) (hmem : operation ∈ plan.operations)
    {base : ExtTreeSet DeploymentOperationId}
    (hbase : Prerequisites intent.index operation.id base) {d : DeploymentOperationId} :
    d ∈ base ↔ ∃ id ∈ operation.referenced, isManaged intent.index id = true ∧
      d = presenting id := by
  have hdeclared := h.declared hmem
  have hstarted (hstarts : operation.id.action = .startPod ∨
      operation.id.action = .startContainer) (id : DeploymentResourceId)
      (hid : id ∈ operation.started) : isManaged intent.index id = true ∧ id.kind ≠ .image := by
    obtain ⟨container, hcontainer, rfl, -⟩ := (mem_started h hmem).mp hid
    exact ⟨isManaged_member h hcontainer, by simp [container.identity.2]⟩
  obtain ⟨resource, hget, hcreate | hstart⟩ := hbase
  · obtain ⟨hexternal, hid, rfl⟩ := createNode_eq_some.mp hcreate
    have hresource : resource ∈ intent.resources := (h.clean.getElem?_index.mp hget).1
    have hsame : operation.resourceIntent = resource :=
      Option.some.inj ((describeOperation_ok (h.described operation hmem)).2.1.symm.trans hget)
    rw [mem_createDependencies h hresource, DeploymentOperation.referenced, hsame]
    have haction := congrArg DeploymentOperationId.action hid
    dsimp only at haction
    split_ifs at haction with hkind
    · obtain ⟨image, rfl⟩ := DeploymentResource.eq_image_of_kind hexternal
        ((congrArg _ (h.clean.getElem?_index.mp hget).2).trans hkind)
      rw [← haction]
      rfl
    · rw [← haction]
  · obtain ⟨pod, rfl, -, hid, rfl⟩ | ⟨container, rfl, -, hid, rfl⟩ := startNode_eq_some.mp hstart
    · have haction : operation.id.action = .startPod := by rw [← hid]
      have hpod : operation.resourceIntent = .pod pod :=
        Option.some.inj ((describeOperation_ok (h.described operation hmem)).2.1.symm.trans hget)
      have hmembers : operation.started = pod.members.map Subtype.val := by
        rw [DeploymentOperation.started, haction, hpod]
      have hkind : operation.id.resource.kind ≠ .image := by
        rw [← (h.clean.getElem?_index.mp hget).2]
        simp [DeploymentResource.identity, pod.identity.2]
      have hmanaged : isManaged intent.index operation.id.resource = true := by
        rw [isManaged, hget]
      rw [ExtTreeSet.mem_ofList, List.contains_iff_mem, List.mem_cons,
        mem_managedCreates_presenting fun id hin =>
          (hstarted (Or.inl haction) id (hmembers ▸ hin)).2,
        DeploymentOperation.referenced, haction, hmembers, List.exists_mem_cons_iff]
      simp only [hmanaged, true_and]
      rw [presenting, if_neg hkind, createOperation]
    · have haction : operation.id.action = .startContainer := by rw [← hid]
      have hmembers : operation.started = [operation.id.resource] := by
        rw [DeploymentOperation.started, haction]
      obtain ⟨hmanaged, hkind⟩ := hstarted (Or.inr haction) operation.id.resource
        (hmembers ▸ List.mem_singleton_self _)
      rw [ExtTreeSet.mem_ofList, List.contains_iff_mem, List.mem_singleton,
        DeploymentOperation.referenced, haction, hmembers]
      simp only [List.mem_singleton, exists_eq_left, hmanaged, true_and]
      rw [presenting, if_neg hkind, createOperation]

theorem startAnchor_eq_some_iff (h : PlannedBy intent plan) {d : DeploymentOperationId} :
    startAnchor intent.index identity = some d ↔ ∃ container : ContainerIntent,
      .container container ∈ intent.resources ∧ container.identity.val = identity ∧
        d = container.startOperation := by
  constructor
  · intro hanchor
    obtain ⟨container, hmem, hidentity, hstart⟩ := h.clean.startAnchor_eq_some hanchor
    exact ⟨container, hmem, hidentity, hstart.symm⟩
  · rintro ⟨container, hmem, rfl, rfl⟩
    have hget := getElem?_container h hmem
    have hresolved := containerResolved_of_clean intent.keyed_index h.clean.resources hget
    rw [startAnchor, ContainerIntent.startOperation, hget]
    cases hpod : container.pod with
    | none => simp [hpod]
    | some pod =>
        obtain ⟨declared, hdeclared, -⟩ := hresolved.pod pod hpod
        simp [hpod, hdeclared]

/-- The startup edges into an operation come from the starts of the containers it awaits. -/
theorem lifts_iff (h : PlannedBy intent plan) (hmem : operation ∈ plan.operations)
    {d : DeploymentOperationId} :
    Lifts intent.index intent.startupDependencies d operation.id ↔
      ∃ id ∈ awaited intent.startupDependencies operation.started, ∃ container : ContainerIntent,
        .container container ∈ intent.resources ∧ container.identity.val = id ∧
          d = container.startOperation := by
  simp only [Lifts, awaited, startAnchor_eq_some_iff h, ← mem_started h hmem, List.mem_map,
    List.mem_filter, List.contains_iff_mem, exists_exists_and_eq_and]
  exact exists_congr fun dependency => by tauto

end Needs

section Execution

/-- Exactly the managed resources are made present by an operation of the plan. -/
theorem presenting_mem_ids (h : PlannedBy intent plan) : presenting identity ∈ plan.ids ↔
    ∃ resource ∈ intent.resources, resource.isExternal = false ∧ resource.identity = identity := by
  rw [h.mem_ids, ← h.clean.requires_iff, presenting]
  constructor
  · intro hrequires
    split_ifs at hrequires with hkind
    · obtain ⟨image, hget⟩ := hrequires
      obtain ⟨hdeclared, hidentity⟩ := h.clean.getElem?_index.mp hget
      exact ⟨.image image, hdeclared, rfl, hidentity⟩
    · obtain ⟨resource, hget, hexternal, -⟩ := hrequires
      obtain ⟨hdeclared, hidentity⟩ := h.clean.getElem?_index.mp hget
      exact ⟨resource, hdeclared, hexternal, hidentity⟩
  · rintro ⟨resource, hdeclared, hexternal, rfl⟩
    have hget := h.clean.getElem?_declared hdeclared
    split_ifs with hkind
    · obtain ⟨image, rfl⟩ := DeploymentResource.eq_image_of_kind hexternal hkind
      exact ⟨image, hget⟩
    · exact ⟨resource, hget, hexternal, hkind⟩

theorem isManaged_iff (h : PlannedBy intent plan) (hmem : identity ∈ intent.index) :
    isManaged intent.index identity = true ↔
      ∃ resource ∈ intent.resources, resource.isExternal = false ∧ resource.identity = identity := by
  obtain ⟨resource, hget⟩ :=
    Option.isSome_iff_exists.mp (ExtTreeMap.mem_iff_isSome_getElem?.mp hmem)
  obtain ⟨hdeclared, hidentity⟩ := h.clean.getElem?_index.mp hget
  have hexternal : isManaged intent.index identity = true ↔ resource.isExternal = false := by
    rw [isManaged, hget]
    cases resource <;> simp [DeploymentResource.isExternal]
  rw [hexternal]
  constructor
  · exact fun hmanaged => ⟨resource, hdeclared, hmanaged, hidentity⟩
  · rintro ⟨other, hother, hmanaged, rfl⟩
    rwa [← h.clean.eq_of_identity hother hdeclared hidentity.symm]

theorem startOperation_mem_ids (h : PlannedBy intent plan) {container : ContainerIntent}
    (hmem : .container container ∈ intent.resources) : container.startOperation ∈ plan.ids := by
  rw [h.mem_ids, ContainerIntent.startOperation]
  split
  · next pod hpod =>
      obtain ⟨listed, hlisted, rfl, hmember⟩ := h.pod_of_container (h.holds_container.mpr hmem) hpod
      exact .startPod listed (h.holds_pod.mp hlisted) (List.ne_nil_of_mem hmember)
  · next hpod => exact .startContainer container hmem hpod

theorem mem_dependsOn (h : PlannedBy intent plan) (hmem : operation ∈ plan.operations)
    {d : DeploymentOperationId} :
    d ∈ operation.dependsOn ↔ DependsOn intent.graph d operation.id := by
  rw [(describeOperation_ok (h.described operation hmem)).2.2.1, ExtTreeSet.mem_toList, DependsOn]
  cases hget : intent.graph[operation.id]? with
  | none => simp
  | some dependencies => simp

/-- The dependencies of an operation are the operations that provide what it needs. -/
theorem mem_dependsOn_iff_needs (h : PlannedBy intent plan) (hmem : operation ∈ plan.operations)
    {provider : DeploymentOperation} (hprovider : provider ∈ plan.operations) :
    provider.id ∈ operation.dependsOn ↔
      ∃ fact ∈ operation.needs intent.startupDependencies, fact ∈ provider.provides := by
  have hid : provider.id ∈ plan.ids := List.mem_map_of_mem hprovider
  obtain ⟨base, hbase⟩ := prerequisites_of_requires intent.keyed_index (h.requires hmem)
  have hgraph : DependsOn intent.graph provider.id operation.id ↔
      provider.id ∈ base ∨ Lifts intent.index intent.startupDependencies provider.id operation.id := by
    refine dependsOn_operationGraph.trans ⟨?_, fun hd => ⟨base, hbase, hd⟩⟩
    rintro ⟨other, hother, hd⟩
    refine hd.imp_left fun hin => ?_
    exact (mem_base h hmem hbase).mpr ((mem_base h hmem hother).mp hin)
  rw [mem_dependsOn h hmem, hgraph, mem_base h hmem hbase, lifts_iff h hmem]
  constructor
  · rintro (⟨id, hreferenced, -, heq⟩ | ⟨id, hawaited, hstarts⟩)
    · exact ⟨.present id, present_mem_needs.mpr hreferenced,
        (present_mem_provides h hprovider).mpr heq⟩
    · exact ⟨.running id, running_mem_needs.mpr hawaited,
        (running_mem_provides h hprovider).mpr hstarts⟩
  · rintro ⟨fact, hneeds, hprovides⟩
    cases fact with
    | present id =>
        have heq := (present_mem_provides h hprovider).mp hprovides
        have hreferenced := present_mem_needs.mp hneeds
        refine Or.inl ⟨id, hreferenced, ?_, heq⟩
        rw [heq, presenting_mem_ids h] at hid
        exact (isManaged_iff h (mem_referenced h hmem id hreferenced)).mpr hid
    | running id =>
        exact Or.inr ⟨id, running_mem_needs.mp hneeds, (running_mem_provides h hprovider).mp hprovides⟩

theorem awaited_declared (h : PlannedBy intent plan) {started : List DeploymentResourceId}
    (hid : identity ∈ awaited intent.startupDependencies started) :
    ∃ container : ContainerIntent, .container container ∈ intent.resources ∧
      container.identity.val = identity := by
  obtain ⟨dependency, hmem, rfl⟩ := List.mem_map.mp hid
  obtain ⟨edge, hedge, -⟩ := h.clean.startup.lifts dependency (List.mem_filter.mp hmem).1
  unfold liftDependency at hedge
  split at hedge
  · next first second hfirst hsecond =>
      obtain ⟨container, hcontainer, hsame, -⟩ := (startAnchor_eq_some_iff h).mp hfirst
      exact ⟨container, hcontainer, hsame⟩
  · cases hedge

theorem eq_of_id (h : PlannedBy intent plan) {other : DeploymentOperation}
    (hmem : operation ∈ plan.operations) (hother : other ∈ plan.operations)
    (hid : operation.id = other.id) : operation = other := by
  have hdescribed := h.described operation hmem
  rw [hid, h.described other hother] at hdescribed
  exact (Except.ok.inj hdescribed).symm

/-- On a bare host every need of a planned operation is met from outside or has one provider. -/
theorem supplied_of_bare (h : PlannedBy intent plan) {host : Set HostFact}
    (hhost : BareHost intent host) : intent.actions.Supplied host plan.operations where
  covered operation hmem fact hneeds := by
    cases fact with
    | present id =>
        have hreferenced := mem_referenced h hmem id (present_mem_needs.mp hneeds)
        cases hmanaged : isManaged intent.index id with
        | true =>
            have hdeclared := (isManaged_iff h hreferenced).mp hmanaged
            obtain ⟨provider, hprovider, hid⟩ :=
              List.mem_map.mp ((presenting_mem_ids h).mpr hdeclared)
            exact Or.inr ⟨provider, hprovider, (present_mem_provides h hprovider).mpr hid⟩
        | false =>
            rw [isManaged] at hmanaged
            split at hmanaged
            · next e hget =>
                obtain ⟨hdeclared, rfl⟩ := h.clean.getElem?_index.mp hget
                exact Or.inl (hhost.external e hdeclared)
            · cases hmanaged
    | running id =>
        obtain ⟨container, hcontainer, rfl⟩ := awaited_declared h (running_mem_needs.mp hneeds)
        obtain ⟨provider, hprovider, hid⟩ :=
          List.mem_map.mp (startOperation_mem_ids h hcontainer)
        exact Or.inr ⟨provider, hprovider,
          (running_mem_provides h hprovider).mpr ⟨container, hcontainer, rfl, hid⟩⟩
  single operation hmem other hother fact hprovides hprovides' := by
    refine eq_of_id h hmem hother ?_
    cases fact with
    | present id =>
        exact ((present_mem_provides h hmem).mp hprovides).trans
          ((present_mem_provides h hother).mp hprovides').symm
    | running id =>
        obtain ⟨first, hfirst, hsame, hid⟩ := (running_mem_provides h hmem).mp hprovides
        obtain ⟨second, hsecond, hsame', hid'⟩ := (running_mem_provides h hother).mp hprovides'
        have heq := h.clean.eq_of_identity hfirst hsecond (hsame.trans hsame'.symm)
        cases heq
        exact hid.trans hid'.symm
  outside operation hmem fact hprovides := by
    cases fact with
    | present id =>
        have hid := (present_mem_provides h hmem).mp hprovides
        have hpresents : presenting id ∈ plan.ids := by
          rw [← hid]
          exact List.mem_map_of_mem hmem
        obtain ⟨resource, hdeclared, hexternal, rfl⟩ := (presenting_mem_ids h).mp hpresents
        exact hhost.absent resource hdeclared hexternal
    | running id =>
        obtain ⟨container, hcontainer, rfl, -⟩ := (running_mem_provides h hmem).mp hprovides
        exact hhost.stopped container hcontainer
  fresh operation _ fact hfresh := by
    change fact ∈ operation.fresh at hfresh
    change fact ∈ operation.provides
    rw [DeploymentOperation.fresh] at hfresh
    rw [DeploymentOperation.provides]
    cases haction : operation.id.action <;> simp_all

/-- What the host holds once the operations of the plan have run. -/
theorem mem_after (h : PlannedBy intent plan) {host : Set HostFact} {fact : HostFact} :
    fact ∈ intent.actions.after host plan.operations ↔ fact ∈ host ∨
      (∃ resource ∈ intent.resources, resource.isExternal = false ∧
        fact = .present resource.identity) ∨
      ∃ container : ContainerIntent, .container container ∈ intent.resources ∧
        fact = .running container.identity := by
  refine or_congr_right ?_
  cases fact with
  | present id =>
      simp only [HostFact.present.injEq, reduceCtorEq, and_false, exists_false, or_false]
      constructor
      · rintro ⟨operation, hmem, hprovides⟩
        have hpresents : presenting id ∈ plan.ids := by
          rw [← (present_mem_provides h hmem).mp hprovides]
          exact List.mem_map_of_mem hmem
        obtain ⟨resource, hdeclared, hexternal, rfl⟩ := (presenting_mem_ids h).mp hpresents
        exact ⟨resource, hdeclared, hexternal, rfl⟩
      · rintro ⟨resource, hdeclared, hexternal, rfl⟩
        obtain ⟨provider, hprovider, hid⟩ :=
          List.mem_map.mp ((presenting_mem_ids h).mpr ⟨resource, hdeclared, hexternal, rfl⟩)
        exact ⟨provider, hprovider, (present_mem_provides h hprovider).mpr hid⟩
  | running id =>
      simp only [reduceCtorEq, and_false, exists_false, false_or, HostFact.running.injEq]
      constructor
      · rintro ⟨operation, hmem, hprovides⟩
        obtain ⟨container, hcontainer, rfl, -⟩ := (running_mem_provides h hmem).mp hprovides
        exact ⟨container, hcontainer, rfl⟩
      · rintro ⟨container, hcontainer, rfl⟩
        obtain ⟨provider, hprovider, hid⟩ := List.mem_map.mp (startOperation_mem_ids h hcontainer)
        exact ⟨provider, hprovider,
          (running_mem_provides h hprovider).mpr ⟨container, hcontainer, rfl, hid⟩⟩

theorem respects_iff_before (h : PlannedBy intent plan) {order : List DeploymentOperation}
    (hperm : order.Perm plan.operations) : RespectsDependencies order ↔
      ∀ operation ∈ order, ∀ provider ∈ order, ∀ fact ∈ intent.actions.needs operation,
        fact ∈ intent.actions.provides provider → Before order provider operation := by
  have hinjective {a b : DeploymentOperation} (ha : a ∈ order) (hb : b ∈ order)
      (hid : a.id = b.id) : a = b :=
    eq_of_id h (hperm.mem_iff.mp ha) (hperm.mem_iff.mp hb) hid
  constructor
  · intro hrespects operation hmem provider hprovider fact hneeds hprovides
    have hdepends := (mem_dependsOn_iff_needs h (hperm.mem_iff.mp hmem)
      (hperm.mem_iff.mp hprovider)).mpr ⟨fact, hneeds, hprovides⟩
    exact (hrespects operation hmem provider.id hdepends).of_map hinjective hprovider hmem
  · intro hbefore operation hmem d hd
    have hplanned := hperm.mem_iff.mp hmem
    have hid : d ∈ plan.ids :=
      (h.precedes ((mem_dependsOn h hplanned).mp hd)).mem_left
    obtain ⟨provider, hprovider, rfl⟩ := List.mem_map.mp hid
    obtain ⟨fact, hneeds, hprovides⟩ := (mem_dependsOn_iff_needs h hplanned hprovider).mp hd
    exact (hbefore operation hmem provider (hperm.mem_iff.mpr hprovider) fact hneeds
      hprovides).map DeploymentOperation.id

theorem respects_operations (h : PlannedBy intent plan) : RespectsDependencies plan.operations :=
  fun _ hmem _ hd => h.precedes ((mem_dependsOn h hmem).mp hd)

/-- On a bare host the operations of a plan run to their end as planned, and in any other order
exactly if it respects the declared dependencies; then all that the intent manages is present and
all its containers run. -/
theorem plan_executes (h : (planDeployment intent).plan = some plan) {host : Set HostFact}
    (hhost : BareHost intent host) :
    (∃ final, intent.actions.Run host plan.operations final) ∧
    ∀ order : List DeploymentOperation, order.Perm plan.operations →
      ((∃ final, intent.actions.Run host order final) ↔ RespectsDependencies order) ∧
      ∀ final, intent.actions.Run host order final → ∀ fact, fact ∈ final ↔ fact ∈ host ∨
        (∃ resource ∈ intent.resources, resource.isExternal = false ∧
          fact = .present resource.identity) ∨
        ∃ container : ContainerIntent, .container container ∈ intent.resources ∧
          fact = .running container.identity := by
  have hplanned := plannedBy_of_plan h
  have hruns (order : List DeploymentOperation) (hperm : order.Perm plan.operations) :
      (∃ final, intent.actions.Run host order final) ↔ RespectsDependencies order := by
    have hnodup : order.Nodup := hperm.nodup_iff.mpr hplanned.drained.nodup.of_map
    rw [respects_iff_before hplanned hperm]
    exact run_iff_before ((supplied_of_bare hplanned hhost).of_mem_iff fun _ => hperm.mem_iff) hnodup
  refine ⟨(hruns _ (List.Perm.refl _)).mpr (respects_operations hplanned), fun order hperm =>
    ⟨hruns order hperm, fun final hrun fact => ?_⟩⟩
  rw [hrun.final_eq, ← mem_after hplanned]
  simp only [Actions.after, Set.mem_ofPred_eq, hperm.mem_iff]

/-- The host that holds the external preconditions and nothing else. -/
def DeploymentIntent.leastHost (intent : DeploymentIntent) : Set HostFact :=
  {fact | ∃ e, .externalPrecondition e ∈ intent.resources ∧ fact = .present e.identity}

theorem bareHost_leastHost (h : CleanIntent intent) : BareHost intent intent.leastHost where
  external e hmem := ⟨e, hmem, rfl⟩
  absent resource hmem hexternal := by
    rintro ⟨e, he, hsame⟩
    have heq := h.eq_of_identity hmem he (HostFact.present.inj hsame)
    rw [heq] at hexternal
    cases hexternal
  stopped container _ := by
    rintro ⟨e, -, hsame⟩
    cases hsame

theorem plan_executes_sample : ∃ final,
    sampleIntent.actions.Run sampleIntent.leastHost samplePlan.operations final :=
  (plan_executes samplePlan_planned
    (bareHost_leastHost (plannedBy_of_plan samplePlan_planned).clean)).1

end Execution

end PodmanLens
