import PodmanLens.Acquisition

/-!
# Snapshots of an inventory

The export of an acquired inventory. Of each field it says in which state it is and where it came
from, of a collection also how many elements it has. Identities, paths and evidence are copied; values
of labels, options, arguments and the environment are not.
-/

namespace PodmanLens.Snapshot
open Std

section Values

structure FieldStateSnapshot where
  state : String
  origin : Option String
  deriving DecidableEq

structure FieldCountSnapshot extends FieldStateSnapshot where
  count : ℕ
  deriving DecidableEq

structure EnvironmentEntrySnapshot where
  name : String
  valueState : String
  deriving DecidableEq

structure ProtectedEnvironmentSnapshot extends FieldStateSnapshot where
  entries : List EnvironmentEntrySnapshot
  deriving DecidableEq

structure VolumeOwnerFieldSnapshot extends FieldStateSnapshot where
  wireValue : Option String
  deriving DecidableEq

variable {α : Type}

def fieldState : ObservationField α → String
  | .absent => "absent"
  | .observed _ => "observed"
  | .unavailable => "unavailable"
  | .malformed => "malformed"
  | .versionInapplicable => "version_inapplicable"
  | .notApplicable => "not_applicable"
  | .unmodelled _ => "unmodelled"

def observationOrigin : ObservationOrigin → String
  | .configured => "configured"
  | .effective => "effective"
  | .runtimeAssigned => "runtime_assigned"
  | .localResolution => "local_resolution"

def fieldOrigin : ObservationField α → Option ObservationOrigin
  | .observed found => some found.origin
  | _ => none

def fieldSummary (value : ObservationField α) : FieldStateSnapshot :=
  ⟨fieldState value, (fieldOrigin value).map observationOrigin⟩

def collectionSummary (value : ObservationField α) (count : α → ℕ) : FieldCountSnapshot :=
  ⟨fieldSummary value, value.toOption.elim 0 count⟩

def emptyCollectionSummary (field : FieldStateSnapshot) : FieldCountSnapshot := ⟨field, 0⟩

def labelSummary (value : ObservationField Labels) : FieldCountSnapshot :=
  collectionSummary value ExtTreeMap.size

def environmentEntry (entry : ProtectedEnvironmentEntry) : EnvironmentEntrySnapshot :=
  ⟨entry.name,
    match entry.value with
    | .redacted => "redacted"
    | .authorizedOpaque _ => "authorized_opaque_redacted"⟩

def environment (value : ObservationField ProtectedEnvironment) : ProtectedEnvironmentSnapshot :=
  ⟨fieldSummary value, value.toOption.elim [] fun entries => entries.map environmentEntry⟩

def volumeOwner (value : ObservationField VolumeOwnerIdWireValue) : VolumeOwnerFieldSnapshot :=
  ⟨fieldSummary value, value.toOption.map fun
    | .wireAbsentMayMeanZero => "wire_absent_may_mean_zero"
    | .explicit _ => "explicit"⟩

end Values

section Native

structure NetworkSnapshot where
  internal : FieldStateSnapshot
  options : FieldCountSnapshot
  subnets : FieldCountSnapshot
  routes : FieldCountSnapshot
  deriving DecidableEq

structure NativeRestartPolicySnapshot where
  name : FieldStateSnapshot
  maximumRetryCount : FieldStateSnapshot
  deriving DecidableEq

structure NativeHealthCheckSnapshot where
  command : FieldCountSnapshot
  interval : FieldStateSnapshot
  timeout : FieldStateSnapshot
  retries : FieldStateSnapshot
  startPeriod : FieldStateSnapshot
  deriving DecidableEq

structure NativeStartupHealthCheckSnapshot extends NativeHealthCheckSnapshot where
  successes : FieldStateSnapshot
  deriving DecidableEq

structure NativeLoggingSnapshot where
  driver : FieldStateSnapshot
  size : FieldStateSnapshot
  deriving DecidableEq

structure NativeSecuritySnapshot where
  privileged : FieldStateSnapshot
  capAdd : FieldCountSnapshot
  capDrop : FieldCountSnapshot
  securityOptions : FieldCountSnapshot
  readOnlyRootFilesystem : FieldStateSnapshot
  deriving DecidableEq

structure NativeNamespaceSnapshot where
  pid : FieldStateSnapshot
  ipc : FieldStateSnapshot
  uts : FieldStateSnapshot
  cgroup : FieldStateSnapshot
  deriving DecidableEq

structure NativeResourceControlSnapshot where
  cpuShares : FieldStateSnapshot
  cpuPeriod : FieldStateSnapshot
  cpuQuota : FieldStateSnapshot
  memory : FieldStateSnapshot
  pidsLimit : FieldStateSnapshot
  ulimits : FieldCountSnapshot
  deriving DecidableEq

structure NativeSecretDriverSnapshot extends FieldStateSnapshot where
  name : FieldStateSnapshot
  options : FieldCountSnapshot
  deriving DecidableEq

structure NativeNetworkingSnapshot where
  portBindings : FieldCountSnapshot
  createNetNs : FieldStateSnapshot
  hostNetwork : FieldStateSnapshot
  dnsServers : FieldCountSnapshot
  dnsSearch : FieldCountSnapshot
  dnsOptions : FieldCountSnapshot
  hostEntries : FieldStateSnapshot
  networks : FieldCountSnapshot
  networkOptions : FieldCountSnapshot
  noManageResolvConf : FieldStateSnapshot
  noManageHosts : FieldStateSnapshot
  staticIp : FieldStateSnapshot
  staticMac : FieldStateSnapshot
  deriving DecidableEq

def nativeRestartPolicy (value : ObservationField NativeRestartPolicyObservation) :
    NativeRestartPolicySnapshot :=
  match value.toOption with
  | none =>
    let state := fieldSummary value
    ⟨state, state⟩
  | some value => ⟨fieldSummary value.name, fieldSummary value.maximumRetryCount⟩

def healthCommandCount : NativeHealthCommand → ℕ
  | .disabled => 0
  | .shell arguments | .exec arguments => arguments.length

/-- The members that both health checks have. -/
def healthMembers (value : NativeHealthCheckObservation) : NativeHealthCheckSnapshot :=
  ⟨collectionSummary value.command healthCommandCount, fieldSummary value.interval,
    fieldSummary value.timeout, fieldSummary value.retries, fieldSummary value.startPeriod⟩

def unobservedHealth (state : FieldStateSnapshot) : NativeHealthCheckSnapshot :=
  ⟨emptyCollectionSummary state, state, state, state, state⟩

def nativeHealthCheck (value : ObservationField NativeHealthCheckObservation) :
    NativeHealthCheckSnapshot :=
  match value.toOption with
  | none => unobservedHealth (fieldSummary value)
  | some value => healthMembers value

def nativeStartupHealthCheck (value : ObservationField NativeStartupHealthCheckObservation) :
    NativeStartupHealthCheckSnapshot :=
  match value.toOption with
  | none =>
    let state := fieldSummary value
    ⟨unobservedHealth state, state⟩
  | some value => ⟨healthMembers value.toNativeHealthCheckObservation, fieldSummary value.successes⟩

def nativeLogging (value : ObservationField NativeLoggingObservation) : NativeLoggingSnapshot :=
  match value.toOption with
  | none =>
    let state := fieldSummary value
    ⟨state, state⟩
  | some value => ⟨fieldSummary value.driver, fieldSummary value.size⟩

def nativeSecurity (value : ObservationField NativeSecurityObservation) : NativeSecuritySnapshot :=
  match value.toOption with
  | none =>
    let state := fieldSummary value
    let collection := emptyCollectionSummary state
    ⟨state, collection, collection, collection, state⟩
  | some value =>
    ⟨fieldSummary value.privileged, collectionSummary value.capAdd List.length,
      collectionSummary value.capDrop List.length, collectionSummary value.securityOptions id,
      fieldSummary value.readOnlyRootFilesystem⟩

def nativeNamespaces (value : ObservationField NativeNamespaceObservation) :
    NativeNamespaceSnapshot :=
  match value.toOption with
  | none =>
    let state := fieldSummary value
    ⟨state, state, state, state⟩
  | some value =>
    ⟨fieldSummary value.pid, fieldSummary value.ipc, fieldSummary value.uts,
      fieldSummary value.cgroup⟩

def nativeResourceControls (value : ObservationField NativeResourceControlObservation) :
    NativeResourceControlSnapshot :=
  match value.toOption with
  | none =>
    let state := fieldSummary value
    ⟨state, state, state, state, state, emptyCollectionSummary state⟩
  | some value =>
    ⟨fieldSummary value.cpuShares, fieldSummary value.cpuPeriod, fieldSummary value.cpuQuota,
      fieldSummary value.memory, fieldSummary value.pidsLimit,
      collectionSummary value.ulimits List.length⟩

def nativeSecretDriver (value : ObservationField NativeSecretDriverObservation) :
    NativeSecretDriverSnapshot :=
  let field := fieldSummary value
  match value.toOption with
  | none => ⟨field, field, emptyCollectionSummary field⟩
  | some value => ⟨field, fieldSummary value.name, collectionSummary value.options id⟩

def nativeNetworking (value : ObservationField NativeNetworkingObservation) :
    NativeNetworkingSnapshot :=
  match value.toOption with
  | none =>
    let state := fieldSummary value
    let collection := emptyCollectionSummary state
    ⟨collection, state, state, collection, collection, collection, state, collection, collection,
      state, state, state, state⟩
  | some value =>
    ⟨collectionSummary value.portBindings List.length, fieldSummary value.createNetNs,
      fieldSummary value.hostNetwork, collectionSummary value.dnsServers List.length,
      collectionSummary value.dnsSearch List.length, collectionSummary value.dnsOptions List.length,
      fieldSummary value.hostEntries, collectionSummary value.networks List.length,
      collectionSummary value.networkOptions id, fieldSummary value.noManageResolvConf,
      fieldSummary value.noManageHosts, fieldSummary value.staticIp, fieldSummary value.staticMac⟩

end Native

section Details

/-- One record for all kinds: what a kind does not have is missing. -/
structure ResourceDetailsSnapshot where
  kind : String
  labels : FieldCountSnapshot
  configuredImage : Option FieldStateSnapshot := none
  localImageId : Option FieldStateSnapshot := none
  relationships : Option FieldCountSnapshot := none
  environment : Option ProtectedEnvironmentSnapshot := none
  imageRepoTags : Option FieldCountSnapshot := none
  imageRepoDigests : Option FieldCountSnapshot := none
  imageDigest : Option FieldStateSnapshot := none
  imageCreated : Option FieldStateSnapshot := none
  imageAuthor : Option FieldStateSnapshot := none
  imageArchitecture : Option FieldStateSnapshot := none
  imageOperatingSystem : Option FieldStateSnapshot := none
  imageManifestType : Option FieldStateSnapshot := none
  network : Option NetworkSnapshot := none
  networking : Option NativeNetworkingSnapshot := none
  memorySwappiness : Option FieldStateSnapshot := none
  infra : Option FieldStateSnapshot := none
  restartPolicy : Option NativeRestartPolicySnapshot := none
  healthCheck : Option NativeHealthCheckSnapshot := none
  healthFailureAction : Option FieldStateSnapshot := none
  startupHealthCheck : Option NativeStartupHealthCheckSnapshot := none
  logging : Option NativeLoggingSnapshot := none
  security : Option NativeSecuritySnapshot := none
  namespaces : Option NativeNamespaceSnapshot := none
  resourceControls : Option NativeResourceControlSnapshot := none
  createInfra : Option FieldStateSnapshot := none
  secretDriver : Option NativeSecretDriverSnapshot := none
  secretCreatedAt : Option FieldStateSnapshot := none
  secretUpdatedAt : Option FieldStateSnapshot := none
  volumeUid : Option VolumeOwnerFieldSnapshot := none
  volumeGid : Option VolumeOwnerFieldSnapshot := none
  volumeDriver : Option FieldStateSnapshot := none
  volumeCreatedAt : Option FieldStateSnapshot := none
  volumeAnonymous : Option FieldStateSnapshot := none
  command : Option FieldCountSnapshot := none
  entrypoint : Option FieldCountSnapshot := none
  user : Option FieldStateSnapshot := none
  workingDirectory : Option FieldStateSnapshot := none
  hostname : Option FieldStateSnapshot := none
  podMembership : Option FieldStateSnapshot := none
  nativeDependencies : Option FieldCountSnapshot := none
  mounts : Option FieldCountSnapshot := none
  secretGrants : Option FieldCountSnapshot := none
  deriving DecidableEq

def containerDetails (value : ContainerDetails) : ResourceDetailsSnapshot where
  kind := "container"
  labels := labelSummary value.labels
  configuredImage := fieldSummary value.configuredImage
  localImageId := fieldSummary value.localImageId
  relationships := collectionSummary value.relationships List.length
  environment := environment value.environment
  command := collectionSummary value.command List.length
  entrypoint := collectionSummary value.entrypoint List.length
  user := fieldSummary value.user
  workingDirectory := fieldSummary value.workingDirectory
  hostname := fieldSummary value.hostname
  podMembership := fieldSummary value.podMembership
  nativeDependencies := collectionSummary value.nativeDependencies List.length
  mounts := collectionSummary value.mounts List.length
  secretGrants := collectionSummary value.secretGrants List.length
  networking := nativeNetworking value.networking
  memorySwappiness := fieldSummary value.memorySwappiness
  infra := fieldSummary value.isInfra
  restartPolicy := nativeRestartPolicy value.restartPolicy
  healthCheck := nativeHealthCheck value.healthCheck
  healthFailureAction := fieldSummary value.healthFailureAction
  startupHealthCheck := nativeStartupHealthCheck value.startupHealthCheck
  logging := nativeLogging value.logging
  security := nativeSecurity value.security
  namespaces := nativeNamespaces value.namespaces
  resourceControls := nativeResourceControls value.resourceControls

def podDetails (value : PodDetails) : ResourceDetailsSnapshot where
  kind := "pod"
  labels := labelSummary value.labels
  relationships := collectionSummary value.relationships List.length
  networking := nativeNetworking value.networking
  createInfra := fieldSummary value.createInfra

def networkDetails (value : NetworkDetails) : ResourceDetailsSnapshot where
  kind := "network"
  labels := labelSummary value.labels
  network := some ⟨fieldSummary value.internal, collectionSummary value.options List.length,
    collectionSummary value.subnets List.length, collectionSummary value.routes List.length⟩

def volumeDetails (value : VolumeDetails) : ResourceDetailsSnapshot where
  kind := "volume"
  labels := labelSummary value.labels
  volumeUid := volumeOwner value.ownerUser
  volumeGid := volumeOwner value.ownerGroup
  volumeDriver := fieldSummary value.driver
  volumeCreatedAt := fieldSummary value.createdAt
  volumeAnonymous := fieldSummary value.anonymous

def imageDetails (value : ImageDetails) : ResourceDetailsSnapshot where
  kind := "image"
  labels := labelSummary value.labels
  environment := environment value.environment
  imageRepoTags := collectionSummary value.repoTags List.length
  imageRepoDigests := collectionSummary value.repoDigests List.length
  imageDigest := fieldSummary value.digest
  imageCreated := fieldSummary value.created
  imageAuthor := fieldSummary value.author
  imageArchitecture := fieldSummary value.architecture
  imageOperatingSystem := fieldSummary value.operatingSystem
  imageManifestType := fieldSummary value.manifestType

def secretDetails (value : SecretDetails) : ResourceDetailsSnapshot where
  kind := "secret"
  labels := labelSummary value.labels
  secretDriver := nativeSecretDriver value.driver
  secretCreatedAt := fieldSummary value.createdAt
  secretUpdatedAt := fieldSummary value.updatedAt

def details : NativeDetails → ResourceDetailsSnapshot
  | .container value => containerDetails value
  | .pod value => podDetails value
  | .network value => networkDetails value
  | .volume value => volumeDetails value
  | .image value => imageDetails value
  | .secret value => secretDetails value

end Details

section Inventory

structure ServiceSnapshot where
  engine : String
  api : String
  targetPodman : String
  targetApi : String
  deriving DecidableEq

structure ResourceIdentitySnapshot where
  kind : String
  id : String
  name : Option String
  deriving DecidableEq

structure ResourceEvidenceSnapshot where
  engineVersion : String
  apiVersion : String
  podmanMinorLine : String
  minimumPodmanVersion : String
  maximumExclusivePodmanVersion : String
  minimumLibpodApiVersion : String
  observedPodmanVersion : String
  observedLibpodApiVersion : String
  evidenceSource : String
  evidenceRevision : String
  evidenceReleaseTag : String
  deriving DecidableEq

structure InventoryFindingSnapshot where
  code : String
  resource : Option ResourceIdentitySnapshot
  fieldPath : Option String
  occurrence : Option ℕ
  deriving DecidableEq

structure UnmodelledFieldSnapshot where
  id : String
  path : String
  jsonKind : String
  resource : ResourceIdentitySnapshot
  evidence : ResourceEvidenceSnapshot
  deriving DecidableEq

structure ObservationHeaderSnapshot where
  identity : ResourceIdentitySnapshot
  state : String
  unmodelledCompleteness : String
  unmodelledFields : List UnmodelledFieldSnapshot
  findings : List InventoryFindingSnapshot
  evidence : ResourceEvidenceSnapshot
  deriving DecidableEq

structure ResourceObservationSnapshot where
  header : ObservationHeaderSnapshot
  details : ResourceDetailsSnapshot
  deriving DecidableEq

structure InventorySectionSnapshot where
  kind : String
  availability : String
  findings : List InventoryFindingSnapshot
  observations : List ResourceObservationSnapshot
  deriving DecidableEq

structure InventorySnapshot where
  schemaVersion : ℕ
  service : ServiceSnapshot
  sections : List InventorySectionSnapshot
  deriving DecidableEq

def schemaVersion : ℕ := 1

def resourceKind : ResourceKind → String
  | .container => "container"
  | .pod => "pod"
  | .network => "network"
  | .volume => "volume"
  | .image => "image"
  | .secret => "secret"

def jsonValueKind : JsonValueKind → String
  | .null => "null"
  | .boolean => "boolean"
  | .number => "number"
  | .string => "string"
  | .array => "array"
  | .object => "object"

def unmodelledFieldId : UnmodelledFieldId → String
  | .containerHostConfig => "podman.native.container.host-config"
  | .containerSecretGrant => "podman.native.container.secret-grant"
  | .containerConfig => "podman.native.container.config"
  | .containerNetworkSettings => "podman.native.container.network-settings"
  | .containerMount => "podman.native.container.mount"
  | .containerTopLevel => "podman.native.container.top-level"
  | .podMember => "podman.native.pod.member"
  | .podInfraConfig => "podman.native.pod.infra-config"
  | .podTopLevel => "podman.native.pod.top-level"
  | .networkSubnet => "podman.native.network.subnet"
  | .networkRoute => "podman.native.network.route"
  | .networkTopLevel => "podman.native.network.top-level"
  | .volumeTopLevel => "podman.native.volume.top-level"
  | .imageConfig => "podman.native.image.config"
  | .imageTopLevel => "podman.native.image.top-level"
  | .secretSpec => "podman.native.secret.spec"
  | .secretTopLevel => "podman.native.secret.top-level"

def identity (source : ResourceIdentity) : ResourceIdentitySnapshot :=
  ⟨resourceKind source.kind, source.id, source.name⟩

def evidence (source : ResourceEvidence) : ResourceEvidenceSnapshot :=
  let capability := source.capability
  let reference := capability.evidence
  { engineVersion := source.engineVersion
    apiVersion := source.apiVersion
    podmanMinorLine := capability.podmanMinorLine
    minimumPodmanVersion := capability.minimumPodmanVersion
    maximumExclusivePodmanVersion := capability.maximumExclusivePodmanVersion
    minimumLibpodApiVersion := capability.minimumLibpodApiVersion
    observedPodmanVersion := capability.observedPodmanVersion
    observedLibpodApiVersion := capability.observedLibpodApiVersion
    evidenceSource := reference.source
    evidenceRevision := reference.revision
    evidenceReleaseTag := reference.releaseTag }

def inventoryFinding (source : InventoryFinding) : InventoryFindingSnapshot :=
  ⟨source.code.asStr, source.resource.map identity, source.fieldPath, source.occurrence⟩

def unmodelledField (source : UnmodelledField) : UnmodelledFieldSnapshot :=
  ⟨unmodelledFieldId source.id, source.path, jsonValueKind source.jsonKind,
    identity source.resource, evidence source.evidence⟩

def observationState : ResourceObservationState → String
  | .complete => "complete"
  | .unavailable => "unavailable"
  | .malformed => "malformed"

def unmodelledCompleteness : UnmodelledCompleteness → String
  | .complete => "complete"
  | .incomplete => "incomplete"

def observationHeader (source : ObservationHeader) : ObservationHeaderSnapshot where
  identity := identity source.identity
  state := observationState source.state
  unmodelledCompleteness := unmodelledCompleteness source.unmodelledCompleteness
  unmodelledFields := source.unmodelled.map unmodelledField
  findings := source.findings.map inventoryFinding
  evidence := evidence source.evidence

def observation (source : NativeObservation) : ResourceObservationSnapshot :=
  ⟨observationHeader source.header, details source.details⟩

def sectionAvailability : InventorySectionAvailability → String
  | .available => "available"
  | .unavailable => "unavailable"
  | .malformed => "malformed"

def inventorySection (source : InspectedSection) : InventorySectionSnapshot where
  kind := resourceKind source.kind
  availability := sectionAvailability source.availability
  findings := source.findings.map inventoryFinding
  observations := source.observations.map observation

/-- The engine and the API of the service also stand under the names of a target. -/
def service (source : ServiceObservation) : ServiceSnapshot :=
  let engine := source.engineVersion.original
  let api := source.apiVersion.original
  ⟨engine, api, engine, api⟩

def inventory (source : NativeInventory) : InventorySnapshot :=
  ⟨schemaVersion, service source.service, source.sections.map inventorySection⟩

end Inventory

end PodmanLens.Snapshot
