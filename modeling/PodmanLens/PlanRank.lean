import PodmanLens.PlanGraph

/-!
# Clean indexes have ranked operation graphs

When no validator reports a finding, every reference of a container or pod is declared, a pod that
anchors a start lists a member, and the lifted startup edges are acyclic. Operations are then
ranked by kind, with starts ranked by the order in which the startup edges drain.
-/

namespace PodmanLens
open Std Drain TreeEntries

def Clean (resources : ResourceIndex) (target : TargetProfile) : Prop :=
  ∀ ⦃identity : DeploymentResourceId⦄ ⦃resource : DeploymentResource⦄,
    resources[identity]? = some resource → validateResource resources target resource = []

structure ContainerResolved (resources : ResourceIndex) (container : ContainerIntent) : Prop where
  image : container.image.val ∈ resources
  networks : ∀ id ∈ attachedNetworks container.networks, id.kind = .network ∧ id ∈ resources
  volumes : ∀ id ∈ mountedVolumes container.mounts, id.kind = .volume ∧ id ∈ resources
  secrets : ∀ grant ∈ container.secretGrants, grant.source ∈ resources
  pod : ∀ pod ∈ container.pod, ∃ declared : PodIntent,
    resources[pod.val]? = some (.pod declared) ∧ container.identity ∈ declared.members

structure PodResolved (resources : ResourceIndex) (pod : PodIntent) : Prop where
  networks : ∀ id ∈ attachedNetworks pod.networks, id.kind = .network ∧ id ∈ resources
  volumes : ∀ id ∈ mountedVolumes pod.infraMounts, id.kind = .volume ∧ id ∈ resources
  members : ∀ member ∈ pod.members, ∃ container : ContainerIntent,
    resources[member.val]? = some (.container container) ∧ container.pod = some pod.identity

variable {resources : ResourceIndex} {target : TargetProfile}

theorem validateResources_eq_nil :
    validateResources resources target = [] ↔ Clean resources target := by
  simp only [validateResources, List.flatMap_eq_nil_iff, mem_contents, Clean]
  constructor
  · intro h identity resource hget
    exact h resource ⟨identity, hget⟩
  · rintro h resource ⟨identity, hget⟩
    exact h hget

theorem attachedNetworks_resolved {networks : NetworkAttachments} {owner : DeploymentResourceId}
    (h : (networks.values.flatMap fun network =>
      requireResolved resources network.network .network owner "networks") = []) :
    ∀ id ∈ attachedNetworks networks, id.kind = .network ∧ id ∈ resources := by
  intro id hid
  obtain ⟨attachment, hmem, rfl⟩ := List.mem_map.mp hid
  exact requireResolved_eq_nil.mp (List.flatMap_eq_nil_iff.mp h attachment hmem)

theorem mountedVolumes_resolved {mounts : List MountIntent} {owner : DeploymentResourceId}
    {field : String} (h : validateMounts resources mounts owner field = []) :
    ∀ id ∈ mountedVolumes mounts, id.kind = .volume ∧ id ∈ resources := by
  intro id hid
  obtain ⟨mount, hmem, hsource⟩ := List.mem_filterMap.mp hid
  exact volume_mem_of_validateMounts h hmem hsource

theorem pod_resolved_of_validatePodMember (hkeyed : Keyed resources) {container : ContainerIntent}
    {pod : OfKind .pod} (h : validatePodMember resources container pod = []) :
    ∃ declared : PodIntent,
      resources[pod.val]? = some (.pod declared) ∧ container.identity ∈ declared.members := by
  simp only [validatePodMember, List.append_eq_nil_iff, resolved, pod.2, if_true] at h
  obtain ⟨⟨-, hpresent⟩, hmember⟩ := h
  cases hget : resources[pod.val]? with
  | none => simp [hget] at hpresent
  | some resource =>
      obtain ⟨declared, rfl⟩ := DeploymentResource.eq_pod_of_kind ((congrArg _ (hkeyed hget)).trans pod.2)
      refine ⟨declared, rfl, ?_⟩
      simp only [hget] at hmember
      split_ifs at hmember with hcontains
      rw [List.contains_iff_mem, List.mem_map] at hcontains
      obtain ⟨member, hmem, heq⟩ := hcontains
      rwa [← Subtype.ext heq]

theorem containerResolved_of_clean (hkeyed : Keyed resources) (hclean : Clean resources target)
    {identity : DeploymentResourceId} {container : ContainerIntent}
    (hget : resources[identity]? = some (.container container)) :
    ContainerResolved resources container := by
  have h := hclean hget
  simp only [validateResource, validateContainer, List.append_eq_nil_iff] at h
  obtain ⟨⟨⟨⟨⟨⟨⟨-, hmounts⟩, hgrants⟩, himage⟩, hpod⟩, hnetworks⟩, -⟩, -⟩ := h
  refine ⟨(requireResolved_eq_nil.mp himage).2, attachedNetworks_resolved hnetworks,
    mountedVolumes_resolved hmounts, fun grant => secret_mem_of_validateSecretGrants hgrants, ?_⟩
  rintro pod hmem
  rw [Option.mem_def] at hmem
  rw [hmem] at hpod
  exact pod_resolved_of_validatePodMember hkeyed hpod

theorem podResolved_of_clean (hclean : Clean resources target)
    {identity : DeploymentResourceId} {pod : PodIntent}
    (hget : resources[identity]? = some (.pod pod)) : PodResolved resources pod := by
  have h := hclean hget
  simp only [validateResource, validatePod, List.append_eq_nil_iff] at h
  obtain ⟨⟨⟨⟨-, hmounts⟩, -⟩, hnetworks⟩, hmembers⟩ := h
  refine ⟨attachedNetworks_resolved hnetworks, mountedVolumes_resolved hmounts, ?_⟩
  intro member hmem
  have hnames := List.flatMap_eq_nil_iff.mp hmembers member.val (List.mem_map_of_mem hmem)
  have hnames : namesPod resources pod member.val = true := by
    by_contra hfalse
    simp [hfalse] at hnames
  simp only [namesPod, resolved, member.2, if_true] at hnames
  split at hnames
  · next container hcontainer => exact ⟨container, hcontainer, by simpa using hnames⟩
  · cases hnames

/-- The operations an index calls for. -/
def IndexRequires (resources : ResourceIndex) (id : DeploymentOperationId) : Prop :=
  match id.action with
  | .ensureImage => ∃ image, resources[id.resource]? = some (.image image)
  | .create => ∃ resource, resources[id.resource]? = some resource ∧
      resource.isExternal = false ∧ id.resource.kind ≠ .image
  | .startPod => ∃ pod : PodIntent, resources[id.resource]? = some (.pod pod) ∧ pod.members ≠ []
  | .startContainer => ∃ container : ContainerIntent,
      resources[id.resource]? = some (.container container) ∧ container.pod = none

theorem requires_of_prerequisites (hkeyed : Keyed resources) {id : DeploymentOperationId}
    {base : ExtTreeSet DeploymentOperationId} (h : Prerequisites resources id base) :
    IndexRequires resources id := by
  obtain ⟨resource, hget, hcreate | hstart⟩ := h
  · obtain ⟨hexternal, hid, -⟩ := createNode_eq_some.mp hcreate
    rw [← hid]
    by_cases hkind : id.resource.kind = .image
    · obtain ⟨image, rfl⟩ := DeploymentResource.eq_image_of_kind hexternal
        ((congrArg _ (hkeyed hget)).trans hkind)
      simpa only [hkind, if_true] using ⟨image, hget⟩
    · simpa only [hkind, if_false] using ⟨resource, hget, hexternal, hkind⟩
  · obtain ⟨pod, rfl, hmembers, hid, -⟩ | ⟨container, rfl, hpod, hid, -⟩ := startNode_eq_some.mp hstart
    · rw [← hid]
      exact ⟨pod, hget, hmembers⟩
    · rw [← hid]
      exact ⟨container, hget, hpod⟩

theorem prerequisites_of_requires (hkeyed : Keyed resources) {id : DeploymentOperationId}
    (h : IndexRequires resources id) : ∃ base, Prerequisites resources id base := by
  obtain ⟨action, identity⟩ := id
  cases action with
  | ensureImage =>
      obtain ⟨image, hget⟩ := h
      have hkind : identity.kind = .image := (congrArg _ (hkeyed hget)).symm.trans image.identity.2
      exact ⟨_, .image image, hget, Or.inl (createNode_eq_some.mpr ⟨rfl, by simp [hkind], rfl⟩)⟩
  | create =>
      obtain ⟨resource, hget, hexternal, hkind⟩ := h
      have hid : (⟨if identity.kind = .image then .ensureImage else .create, identity⟩ :
          DeploymentOperationId) = ⟨.create, identity⟩ := by
        rw [if_neg hkind]
      exact ⟨_, resource, hget, Or.inl (createNode_eq_some.mpr ⟨hexternal, hid, rfl⟩)⟩
  | startPod =>
      obtain ⟨pod, hget, hmembers⟩ := h
      exact ⟨_, .pod pod, hget,
        Or.inr (startNode_eq_some.mpr (Or.inl ⟨pod, rfl, hmembers, rfl, rfl⟩))⟩
  | startContainer =>
      obtain ⟨container, hget, hpod⟩ := h
      exact ⟨_, .container container, hget,
        Or.inr (startNode_eq_some.mpr (Or.inr ⟨container, rfl, hpod, rfl, rfl⟩))⟩

theorem prerequisites_iff_requires (hkeyed : Keyed resources) {id : DeploymentOperationId} :
    (∃ base, Prerequisites resources id base) ↔ IndexRequires resources id :=
  ⟨fun ⟨_, h⟩ => requires_of_prerequisites hkeyed h, prerequisites_of_requires hkeyed⟩

theorem mem_managedCreates {identities : List DeploymentResourceId} {d : DeploymentOperationId} :
    d ∈ managedCreates resources identities ↔
      ∃ id ∈ identities, isManaged resources id = true ∧ createOperation id = d := by
  simp only [managedCreates, List.mem_map, List.mem_filter, and_assoc]

theorem requires_createOperation {identity : DeploymentResourceId} (hmem : identity ∈ resources)
    (hmanaged : isManaged resources identity = true) (hkind : identity.kind ≠ .image) :
    IndexRequires resources (createOperation identity) := by
  obtain ⟨resource, hget⟩ := Option.isSome_iff_exists.mp (ExtTreeMap.mem_iff_isSome_getElem?.mp hmem)
  refine ⟨resource, hget, ?_, hkind⟩
  cases resource with
  | externalPrecondition e => simp [isManaged, hget] at hmanaged
  | _ => rfl

theorem requires_ensureImage (hkeyed : Keyed resources) {identity : DeploymentResourceId}
    (hmem : identity ∈ resources) (hmanaged : isManaged resources identity = true)
    (hkind : identity.kind = .image) :
    IndexRequires resources ⟨.ensureImage, identity⟩ := by
  obtain ⟨resource, hget⟩ := Option.isSome_iff_exists.mp (ExtTreeMap.mem_iff_isSome_getElem?.mp hmem)
  have hexternal : resource.isExternal = false := by
    cases resource with
    | externalPrecondition e => simp [isManaged, hget] at hmanaged
    | _ => rfl
  obtain ⟨image, rfl⟩ := DeploymentResource.eq_image_of_kind hexternal
    ((congrArg _ (hkeyed hget)).trans hkind)
  exact ⟨image, hget⟩

/-- Creates are ranked by kind below every start; starts follow `startRank`. -/
def operationRank (startRank : DeploymentOperationId → ℕ) (id : DeploymentOperationId) : ℕ :=
  match id.action with
  | .ensureImage => 0
  | .create => match id.resource.kind with
    | .pod => 1
    | .container => 2
    | _ => 0
  | .startPod | .startContainer => 3 + startRank id

theorem operationRank_createOperation_le (startRank : DeploymentOperationId → ℕ)
    (identity : DeploymentResourceId) : operationRank startRank (createOperation identity) ≤ 2 := by
  simp only [operationRank, createOperation]
  split <;> omega

/-- A managed, declared leaf resource is created at rank zero. -/
theorem leaf_create_ranked (startRank : DeploymentOperationId → ℕ)
    {identities : List DeploymentResourceId} {kind : ResourceKind} {d : DeploymentOperationId}
    (hresolved : ∀ id ∈ identities, id.kind = kind ∧ id ∈ resources)
    (hleaf : kind = .network ∨ kind = .volume ∨ kind = .secret)
    (hd : d ∈ managedCreates resources identities) :
    IndexRequires resources d ∧ operationRank startRank d = 0 := by
  obtain ⟨id, hid, hmanaged, rfl⟩ := mem_managedCreates.mp hd
  obtain ⟨hkind, hmem⟩ := hresolved id hid
  constructor
  · apply requires_createOperation hmem hmanaged
    rw [hkind]
    rcases hleaf with rfl | rfl | rfl <;> decide
  · simp only [operationRank, createOperation, hkind]
    rcases hleaf with rfl | rfl | rfl <;> rfl

theorem pod_dependencies_ranked (startRank : DeploymentOperationId → ℕ) {pod : PodIntent}
    (hpod : PodResolved resources pod) {d : DeploymentOperationId}
    (hd : d ∈ createDependencies (.pod pod) resources) :
    IndexRequires resources d ∧ operationRank startRank d = 0 := by
  simp only [createDependencies, ExtTreeSet.mem_ofList, List.contains_iff_mem, List.mem_append] at hd
  rcases hd with hd | hd
  · exact leaf_create_ranked startRank hpod.networks (by decide) hd
  · exact leaf_create_ranked startRank hpod.volumes (by decide) hd

theorem container_dependencies_ranked (hkeyed : Keyed resources)
    (startRank : DeploymentOperationId → ℕ) {container : ContainerIntent}
    (hcontainer : ContainerResolved resources container) {d : DeploymentOperationId}
    (hd : d ∈ createDependencies (.container container) resources) :
    IndexRequires resources d ∧ operationRank startRank d < 2 := by
  have hleaf : ∀ {identities : List DeploymentResourceId} {kind : ResourceKind},
      (∀ id ∈ identities, id.kind = kind ∧ id ∈ resources) →
      (kind = .network ∨ kind = .volume ∨ kind = .secret) →
      d ∈ managedCreates resources identities →
      IndexRequires resources d ∧ operationRank startRank d < 2 := by
    intro identities kind hresolved hkind hmem
    obtain ⟨hrequires, hrank⟩ := leaf_create_ranked startRank hresolved hkind hmem
    exact ⟨hrequires, by omega⟩
  simp only [createDependencies, ExtTreeSet.mem_ofList, List.contains_iff_mem, List.mem_append] at hd
  rcases hd with (((himage | hpod) | hnetwork) | hvolume) | hsecret
  · split_ifs at himage with hmanaged
    · rw [List.mem_singleton.mp himage]
      exact ⟨requires_ensureImage hkeyed hcontainer.image hmanaged container.image.2, by
        simp [operationRank]⟩
    · cases himage
  · obtain ⟨id, hid, hmanaged, rfl⟩ := mem_managedCreates.mp hpod
    obtain ⟨pod, hmem, rfl⟩ := List.mem_map.mp hid
    obtain ⟨declared, hget, -⟩ := hcontainer.pod pod (Option.mem_toList.mp hmem)
    refine ⟨⟨.pod declared, hget, rfl, by simp [createOperation, pod.2]⟩, ?_⟩
    simp [operationRank, createOperation, pod.2]
  · exact hleaf hcontainer.networks (by decide) hnetwork
  · exact hleaf hcontainer.volumes (by decide) hvolume
  · have hgrants : ∀ id ∈ container.secretGrants.map SecretGrant.source,
        id.kind = .secret ∧ id ∈ resources := by
      intro id hid
      obtain ⟨grant, hmem, rfl⟩ := List.mem_map.mp hid
      exact ⟨grant.kind_source, hcontainer.secrets grant hmem⟩
    exact hleaf hgrants (by decide) hsecret

/-- Prerequisites of a node are nodes of smaller rank. -/
theorem prerequisites_ranked (hkeyed : Keyed resources) (hclean : Clean resources target)
    (startRank : DeploymentOperationId → ℕ) {id d : DeploymentOperationId}
    {base : ExtTreeSet DeploymentOperationId} (hbase : Prerequisites resources id base)
    (hd : d ∈ base) :
    IndexRequires resources d ∧ operationRank startRank d < operationRank startRank id := by
  obtain ⟨resource, hget, hcreate | hstart⟩ := hbase
  · obtain ⟨-, hid, rfl⟩ := createNode_eq_some.mp hcreate
    cases resource with
    | pod pod =>
        obtain ⟨hrequires, hrank⟩ :=
          pod_dependencies_ranked startRank (podResolved_of_clean hclean hget) hd
        have hkind : id.resource.kind = .pod := (congrArg _ (hkeyed hget)).symm.trans pod.identity.2
        refine ⟨hrequires, ?_⟩
        rw [hrank, ← hid]
        simp [operationRank, hkind]
    | container container =>
        obtain ⟨hrequires, hrank⟩ := container_dependencies_ranked hkeyed startRank
          (containerResolved_of_clean hkeyed hclean hget) hd
        have hkind : id.resource.kind = .container :=
          (congrArg _ (hkeyed hget)).symm.trans container.identity.2
        refine ⟨hrequires, ?_⟩
        rw [← hid]
        simpa [operationRank, hkind] using hrank
    | _ => exact absurd hd ExtTreeSet.not_mem_empty
  · have hrank : operationRank startRank id = 3 + startRank id := by
      rcases startNode_action hstart with h | h <;> simp [operationRank, h]
    have hcreated : ∀ identity, operationRank startRank (createOperation identity) <
        operationRank startRank id := by
      intro identity
      have := operationRank_createOperation_le startRank identity
      omega
    obtain ⟨pod, rfl, -, -, rfl⟩ | ⟨container, rfl, -, -, rfl⟩ := startNode_eq_some.mp hstart
    · rw [ExtTreeSet.mem_ofList, List.contains_iff_mem, List.mem_cons] at hd
      rcases hd with rfl | hd
      · have hkind : id.resource.kind = .pod := (congrArg _ (hkeyed hget)).symm.trans pod.identity.2
        exact ⟨⟨_, hget, rfl, by simp [createOperation, hkind]⟩, hcreated _⟩
      · obtain ⟨member, hmember, -, rfl⟩ := mem_managedCreates.mp hd
        obtain ⟨member, hmem, rfl⟩ := List.mem_map.mp hmember
        obtain ⟨container, hcontainer, -⟩ := (podResolved_of_clean hclean hget).members member hmem
        exact ⟨⟨_, hcontainer, rfl, by simp [createOperation, member.2]⟩, hcreated _⟩
    · rw [ExtTreeSet.mem_ofList, List.contains_iff_mem, List.mem_singleton] at hd
      have hkind : id.resource.kind = .container :=
        (congrArg _ (hkeyed hget)).symm.trans container.identity.2
      rw [hd]
      exact ⟨⟨_, hget, rfl, by simp [createOperation, hkind]⟩, hcreated _⟩

/-- A start anchor is a node: its pod lists the container it was lifted from. -/
theorem startAnchor_requires (hkeyed : Keyed resources) (hclean : Clean resources target)
    {container : DeploymentResourceId} {id : DeploymentOperationId}
    (h : startAnchor resources container = some id) :
    IndexRequires resources id ∧ (id.action = .startPod ∨ id.action = .startContainer) := by
  unfold startAnchor at h
  split at h
  · next intent hget =>
      split at h
      · next pod hpod =>
          split at h
          · next declared hdeclared =>
              cases h
              obtain ⟨listed, hlisted, hmember⟩ :=
                (containerResolved_of_clean hkeyed hclean hget).pod pod hpod
              exact ⟨⟨listed, hlisted, List.ne_nil_of_mem hmember⟩, Or.inl rfl⟩
          · cases h
      · next hpod =>
          cases h
          exact ⟨⟨intent, hget, hpod⟩, Or.inr rfl⟩
  · cases h

end PodmanLens
