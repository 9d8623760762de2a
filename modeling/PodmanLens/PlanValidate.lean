import PodmanLens.PlanIndex

/-!
# Validation of indexed resources

Each validator returns its findings in the order they are found. References must resolve to a
declaration of their kind, pod membership must agree from both sides, nothing may be placed twice,
and settings that the target profile cannot honour are refused with the field that asks for them.
-/

namespace PodmanLens
open Std Text TreeEntries

def resolved (resources : ResourceIndex) (identity : DeploymentResourceId)
    (expected : ResourceKind) : Option DeploymentResource :=
  if identity.kind = expected then resources[identity]? else none

def requireResolved (resources : ResourceIndex) (reference : DeploymentResourceId)
    (expected : ResourceKind) (subject : DeploymentResourceId) (field : String) :
    List PlanningFinding :=
  if (resolved resources reference expected).isNone then
    [.detailed .deploymentUnresolvedPrerequisite (some subject) [reference] (some field) none]
  else []

def duplicateAt (subject : DeploymentResourceId) (related : List DeploymentResourceId)
    (field : String) (index : ℕ) : PlanningFinding :=
  .detailed .deploymentDuplicateResource (some subject) related (some field) (some (index + 1))

/-- An unsupported combination, reported on the field that asks for it. -/
def refuseWhen (condition : Bool) (subject : DeploymentResourceId) (field : String) :
    List PlanningFinding :=
  if condition then [.new .deploymentUnsupportedCombination (some subject) (some field)] else []

def validateNetworkAttachments (attachments : List NetworkAttachment)
    (owner : DeploymentResourceId) (field : String) : List PlanningFinding :=
  attachments.zipIdx.flatMap fun (attachment, index) =>
    if (attachments.take index).any fun previous => previous.network == attachment.network then
      [duplicateAt owner [attachment.network] field index]
    else []

def validateStaticNetworkAddresses (attachments : List NetworkAttachment)
    (owner : DeploymentResourceId) (executionContext : TargetExecutionContext) :
    List PlanningFinding :=
  if executionContext = .rootful then []
  else attachments.flatMap fun attachment =>
    refuseWhen attachment.staticIpv4.isSome owner "networks.static_ipv4_requires_rootful" ++
      refuseWhen attachment.staticIpv6.isSome owner "networks.static_ipv6_requires_rootful" ++
      refuseWhen attachment.staticMac.isSome owner "networks.static_mac_requires_rootful"

def validateMounts (resources : ResourceIndex) (mounts : List MountIntent)
    (owner : DeploymentResourceId) (field : String) : List PlanningFinding :=
  mounts.zipIdx.flatMap fun (mount, index) =>
    (if (mounts.take index).any fun previous => previous.destination == mount.destination then
      [duplicateAt owner mount.volumeSource.toList field index]
    else []) ++
    match mount.volumeSource with
    | some source => requireResolved resources source .volume owner field
    | none => []

structure SeenTargets where
  mountDestinations : ExtTreeSet String
  environmentTargets : ExtTreeSet String
  findings : List PlanningFinding

def validateSecretGrant (resources : ResourceIndex) (container : ContainerIntent)
    (seen : SeenTargets) (entry : SecretGrant × ℕ) : SeenTargets :=
  let (grant, index) := entry
  let owner := container.identity.val
  let unresolved := requireResolved resources grant.source .secret owner "secret_grants"
  let repeatedMount := match grant.mountTarget with
    | some target => seen.mountDestinations.contains target.asStr
    | none => false
  let repeatedEnvironment := match grant.environmentTarget with
    | some target => seen.environmentTargets.contains target.asStr ||
        container.settings.environment.values.any fun assignment => assignment.name == target
    | none => false
  { mountDestinations := match grant.mountTarget with
      | some target => seen.mountDestinations.insert target.asStr
      | none => seen.mountDestinations
    environmentTargets := match grant.environmentTarget with
      | some target => seen.environmentTargets.insert target.asStr
      | none => seen.environmentTargets
    findings := seen.findings ++ unresolved ++
      (if repeatedMount then
        [duplicateAt owner [grant.source] "secret_grants.mount_target" index] else []) ++
      if repeatedEnvironment then
        [duplicateAt owner [grant.source] "secret_grants.environment_target" index] else [] }

def validateSecretGrants (resources : ResourceIndex) (grants : List SecretGrant)
    (container : ContainerIntent) : List PlanningFinding :=
  (grants.zipIdx.foldl (validateSecretGrant resources container) ⟨∅, ∅, []⟩).findings

structure SeenIds where
  distinct : ExtTreeSet DeploymentResourceId
  findings : List PlanningFinding

def validateDistinct (values : List DeploymentResourceId) (subject : DeploymentResourceId)
    (field : String) : List PlanningFinding :=
  let step (seen : SeenIds) (entry : DeploymentResourceId × ℕ) : SeenIds :=
    { distinct := seen.distinct.insert entry.1
      findings := seen.findings ++
        if seen.distinct.contains entry.1 then [duplicateAt subject [entry.1] field entry.2]
        else [] }
  (values.zipIdx.foldl step ⟨∅, []⟩).findings

/-- A listed member must be a declared container that names this pod. -/
def namesPod (resources : ResourceIndex) (pod : PodIntent) (member : DeploymentResourceId) : Bool :=
  match resolved resources member .container with
  | some (.container container) => container.pod == some pod.identity
  | _ => false

def validatePod (resources : ResourceIndex) (pod : PodIntent)
    (executionContext : TargetExecutionContext) : List PlanningFinding :=
  let identity := pod.identity.val
  let members := pod.members.map Subtype.val
  validateNetworkAttachments pod.networks.values identity "networks" ++
    validateStaticNetworkAddresses pod.networks.values identity executionContext ++
    validateMounts resources pod.infraMounts identity "infra_mounts" ++
    validateDistinct members identity "members" ++
    (pod.networks.values.flatMap fun network =>
      requireResolved resources network.network .network identity "networks") ++
    members.flatMap fun member =>
      if namesPod resources pod member then []
      else [.detailed .deploymentPodMembership (some identity) [member] (some "members") none]

/-- What a pod member may not declare, and what its pod must declare in turn. -/
def validatePodMember (resources : ResourceIndex) (container : ContainerIntent)
    (pod : DeploymentResourceId) : List PlanningFinding :=
  let identity := container.identity.val
  refuseWhen (!container.runtime.namespaces.isEmpty) identity "runtime.namespaces.pod_member" ++
    refuseWhen container.settings.hostname.isSome identity "hostname" ++
    refuseWhen (!container.networks.values.isEmpty) identity "networks" ++
    refuseWhen (!container.ports.values.isEmpty) identity "ports" ++
    refuseWhen (!container.dns.isEmpty) identity "dns" ++
    refuseWhen (!container.hostAliases.values.isEmpty) identity "host_aliases" ++
    refuseWhen container.networkOrder.isSome identity "network_order" ++
    (if (resolved resources pod .pod).isNone then
      [.detailed .deploymentUnresolvedPrerequisite (some identity) [pod] (some "pod") none]
    else []) ++
    match resolved resources pod .pod with
    | some (.pod podResource) =>
      if (podResource.members.map Subtype.val).contains identity then []
      else [.detailed .deploymentPodMembership (some identity) [pod] (some "pod") none]
    | _ => []

/-- An explicit order must list every attachment exactly once. -/
def misordersNetworks (container : ContainerIntent) : Bool :=
  match container.networkOrderIds with
  | none => false
  | some order =>
    let declared := ExtTreeSet.ofList
      (container.networks.values.map fun attachment => attachment.network.val)
    let ordered := ExtTreeSet.ofList order
    declared.size != container.networks.values.length || order.length != ordered.size ||
      declared.toList != ordered.toList

def cgroupEvidenceIs (target : TargetProfile) (version : CgroupVersion) : Bool :=
  target.cgroupCapabilities.any (·.version == version)

def supportsController (target : TargetProfile) (controller : CgroupController) : Bool :=
  target.cgroupCapabilities.any (·.supports controller)

def rlimitIsUnlimited (limit : Rlimit) : Bool := limit.soft.isUnlimited || limit.hard.isUnlimited

def validateResourceControls (identity : DeploymentResourceId)
    (resources : ContainerResourceControls) (target : TargetProfile) : List PlanningFinding :=
  let cpuRequested :=
    resources.cpuShares.isSome || resources.cpuPeriod.isSome || resources.cpuQuota.isSome
  let controlsRequested := cpuRequested || resources.memoryBytes.isSome || resources.pids.isSome
  if controlsRequested && target.cgroupCapabilities.isNone then
    refuseWhen true identity "runtime.resources.cgroup_evidence"
  else
    refuseWhen (controlsRequested && cgroupEvidenceIs target .v1 &&
        target.executionContext != .rootful)
      identity "runtime.resources.cgroup_v1_requires_rootful" ++
    refuseWhen (cpuRequested && !supportsController target .cpu) identity
      "runtime.resources.cpu" ++
    refuseWhen (resources.memoryBytes.isSome && !supportsController target .memory) identity
      "runtime.resources.memory_bytes" ++
    refuseWhen (resources.pids.isSome && !supportsController target .pids) identity
      "runtime.resources.pids"

def validateRuntimeSettings (container : ContainerIntent) (target : TargetProfile) :
    List PlanningFinding :=
  let identity := container.identity.val
  let runtime := container.runtime
  let logging := runtime.logging
  let security := runtime.security
  let version := target.podmanVersion.asSemver
  refuseWhen (runtime.namespaces.uts == some .host && container.settings.hostname.isSome) identity
      "runtime.namespaces.uts_host_with_hostname" ++
    refuseWhen (runtime.namespaces.cgroup == some .private && !cgroupEvidenceIs target .v2) identity
      "runtime.namespaces.cgroup_private_requires_v2" ++
    refuseWhen (runtime.startupHealth.isSome && !runtime.health.any HealthCheck.isCommand) identity
      "runtime.startup_health_requires_health" ++
    refuseWhen (logging.driver.isNone &&
        (logging.maxSize.isSome || !logging.journaldLabels.values.isEmpty)) identity
      "runtime.logging.driver" ++
    refuseWhen (!logging.journaldLabels.values.isEmpty && logging.driver != some .journald) identity
      "runtime.logging.journald_labels" ++
    refuseWhen (!logging.journaldLabels.values.isEmpty && version.precedes 6 0 0) identity
      "runtime.logging.journald_labels.target_version" ++
    refuseWhen (logging.maxSize.isSome && logging.driver != some .k8sFile) identity
      "runtime.logging.max_size" ++
    refuseWhen (security.privileged == some true &&
        (!security.capAdd.values.isEmpty || !security.capDrop.values.isEmpty)) identity
      "runtime.security.privileged_capabilities" ++
    refuseWhen (security.capAdd.values.any security.capDrop.values.contains) identity
      "runtime.security.capability_overlap" ++
    refuseWhen (security.readWriteTmpfs == some true && security.readOnlyFilesystem != some true)
      identity "runtime.security.read_write_tmpfs" ++
    refuseWhen (runtime.resources.rlimits.values.any rlimitIsUnlimited && version.precedes 5 6 0)
      identity "runtime.resources.rlimits.unlimited.target_version" ++
    validateResourceControls identity runtime.resources target

def validateContainer (resources : ResourceIndex) (container : ContainerIntent)
    (target : TargetProfile) : List PlanningFinding :=
  let identity := container.identity.val
  validateNetworkAttachments container.networks.values identity "networks" ++
    validateStaticNetworkAddresses container.networks.values identity target.executionContext ++
    validateMounts resources container.mounts identity "mounts" ++
    validateSecretGrants resources container.secretGrants container ++
    requireResolved resources container.image .image identity "image" ++
    (match container.pod with
      | some pod => validatePodMember resources container pod
      | none => []) ++
    (container.networks.values.flatMap fun network =>
      requireResolved resources network.network .network identity "networks") ++
    refuseWhen (misordersNetworks container) identity "network_order" ++
    validateRuntimeSettings container target

def validateResource (resources : ResourceIndex) (target : TargetProfile) :
    DeploymentResource → List PlanningFinding
  | .externalPrecondition _ | .network _ | .volume _ | .image _ => []
  | .secret secret =>
    if secret.material.asStr.isEmpty then
      [.new .sensitivePayloadEmbedded (some secret.identity) (some "material")]
    else []
  | .pod pod => validatePod resources pod target.executionContext
  | .container container => validateContainer resources container target

def validateResources (resources : ResourceIndex) (target : TargetProfile) :
    List PlanningFinding :=
  (contents resources).flatMap (validateResource resources target)

section Spec

variable {resources : ResourceIndex}

theorem refuseWhen_eq_nil {condition : Bool} {subject : DeploymentResourceId} {field : String} :
    refuseWhen condition subject field = [] ↔ condition = false := by
  cases condition <;> simp [refuseWhen]

theorem requireResolved_eq_nil {reference subject : DeploymentResourceId} {expected : ResourceKind}
    {field : String} : requireResolved resources reference expected subject field = [] ↔
      reference.kind = expected ∧ reference ∈ resources := by
  by_cases hkind : reference.kind = expected
  · simp only [requireResolved, resolved, hkind, if_true, true_and,
      ExtTreeMap.mem_iff_isSome_getElem?]
    cases resources[reference]? with
    | none => simp
    | some resource => simp
  · simp [requireResolved, resolved, hkind]

/-- Clean mounts name volumes of the index. -/
theorem volume_mem_of_validateMounts {mounts : List MountIntent} {owner : DeploymentResourceId}
    {field : String} (h : validateMounts resources mounts owner field = []) {mount : MountIntent}
    (hmem : mount ∈ mounts) {source : DeploymentResourceId} (hsource : mount.volumeSource = some source) :
    source.kind = .volume ∧ source ∈ resources := by
  obtain ⟨index, hindex, rfl⟩ := List.getElem_of_mem hmem
  rw [validateMounts, List.flatMap_eq_nil_iff] at h
  have hentry := h (mounts[index], index) (by simp [List.mem_zipIdx_iff_getElem?])
  simp only [List.append_eq_nil_iff, hsource] at hentry
  exact requireResolved_eq_nil.mp hentry.2

theorem foldl_validateSecretGrant_eq_nil {container : ContainerIntent}
    {entries : List (SecretGrant × ℕ)} {seen : SeenTargets}
    (h : (entries.foldl (validateSecretGrant resources container) seen).findings = []) :
    seen.findings = [] ∧ ∀ entry ∈ entries, entry.1.source ∈ resources := by
  induction entries generalizing seen with
  | nil => exact ⟨h, by simp⟩
  | cons entry rest ih =>
      obtain ⟨hstep, hrest⟩ := ih h
      simp only [validateSecretGrant, List.append_eq_nil_iff] at hstep
      refine ⟨hstep.1.1.1, List.forall_mem_cons.mpr ⟨?_, hrest⟩⟩
      exact (requireResolved_eq_nil.mp hstep.1.1.2).2

theorem secret_mem_of_validateSecretGrants {container : ContainerIntent}
    (h : validateSecretGrants resources container.secretGrants container = []) {grant : SecretGrant}
    (hmem : grant ∈ container.secretGrants) : grant.source ∈ resources := by
  obtain ⟨index, hindex, rfl⟩ := List.getElem_of_mem hmem
  exact (foldl_validateSecretGrant_eq_nil h).2 (container.secretGrants[index], index)
    (by simp [List.mem_zipIdx_iff_getElem?])

end Spec

end PodmanLens
