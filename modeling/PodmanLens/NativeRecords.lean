import PodmanLens.CarriedReferences
import PodmanLens.CreationEvidence
import PodmanLens.NativeConfiguration

/-!
# Inspected records

One decoder for each kind of resource. It first checks that the response is about the resource that
was listed, then decodes the fields one by one in the order of their findings, and says which
members of the response it knows.
-/

namespace PodmanLens
open Json Text

section Identity

def optionalString (object : Members) (key : String) : Option String :=
  (lookup object key).bind Value.asNonEmptyStr

def optionalStringAny (object : Members) (keys : List String) : Option String :=
  keys.findSome? (optionalString object)

def requiredStringAny (object : Members) (keys : List String) : PodmanLensResult String :=
  match optionalStringAny object keys with
  | some text => .ok text
  | none => .error .inventoryShape

/-- The name that a secret has in its specification. -/
def secretName (object : Members) : Option String :=
  ((lookup object "Spec").bind Value.asObject).bind fun spec => optionalString spec "Name"

/-- A response about another resource is refused. A name that is missing is the listed one. -/
def identityFromInspect (listed : ResourceIdentity) (object : Members)
    (idKeys nameKeys : List String) : PodmanLensResult ResourceIdentity := do
  let id ← requiredStringAny object idKeys
  if id ≠ listed.id then .error .resourceMalformed
  else .ok ⟨listed.kind, id, if listed.kind = .secret then secretName object
    else (optionalStringAny object nameKeys).or listed.name⟩

end Identity

section Details

structure ContainerDetails extends ContainerConfigurationDecoded, ContainerB3Decoded where
  configuredImage : ObservationField String
  localImageId : ObservationField String
  relationships : ObservationField (List NativeRelationship)
  podMembership : ObservationField NativeResourceReference
  nativeDependencies : ObservationField (List NativeResourceReference)
  mounts : ObservationField (List ContainerMountObservation)
  secretGrants : ObservationField (List ContainerSecretGrantObservation)
  memorySwappiness : ObservationField ℕ
  isInfra : ObservationField Bool
  networking : ObservationField NativeNetworkingObservation
  creationEvidence : ObservationField ContainerCreationEvidence

structure PodDetails where
  labels : ObservationField Labels
  relationships : ObservationField (List NativeRelationship)
  createInfra : ObservationField Bool
  networking : ObservationField NativeNetworkingObservation

structure NetworkDetails where
  labels : ObservationField Labels
  internal : ObservationField Bool
  options : ObservationField (List String)
  subnets : ObservationField (List NativeNetworkSubnetObservation)
  routes : ObservationField (List NativeNetworkRouteObservation)

structure VolumeDetails where
  labels : ObservationField Labels
  ownerUser : ObservationField VolumeOwnerIdWireValue
  ownerGroup : ObservationField VolumeOwnerIdWireValue
  driver : ObservationField String
  createdAt : ObservationField String
  anonymous : ObservationField Bool

structure ImageDetails where
  labels : ObservationField Labels
  repoTags : ObservationField (List String)
  repoDigests : ObservationField (List String)
  environment : ObservationField ProtectedEnvironment
  digest : ObservationField String
  created : ObservationField String
  author : ObservationField String
  architecture : ObservationField String
  operatingSystem : ObservationField String
  manifestType : ObservationField String

structure SecretDetails where
  labels : ObservationField Labels
  driver : ObservationField NativeSecretDriverObservation
  createdAt : ObservationField String
  updatedAt : ObservationField String

inductive NativeDetails
  | container (value : ContainerDetails)
  | pod (value : PodDetails)
  | network (value : NetworkDetails)
  | volume (value : VolumeDetails)
  | image (value : ImageDetails)
  | secret (value : SecretDetails)

def NativeDetails.kind : NativeDetails → ResourceKind
  | .container _ => .container
  | .pod _ => .pod
  | .network _ => .network
  | .volume _ => .volume
  | .image _ => .image
  | .secret _ => .secret

/-- The details as discovery reads them. -/
def NativeDetails.observed : NativeDetails → ResourceDetails
  | .container value => .container ⟨value.labels, value.isInfra, value.relationships⟩
  | .pod value => .pod ⟨value.labels, value.relationships⟩
  | .network value => .network ⟨value.labels⟩
  | .volume value => .volume ⟨value.labels⟩
  | .image value => .image ⟨value.labels, value.repoTags, value.repoDigests⟩
  | .secret value => .secret ⟨value.labels⟩

end Details

section Decoders
variable (identity : ResourceIdentity) (object : Members)

/-- Networks are those of the container unless it is in a pod. -/
def unlessPodded {α : Type} (podMembership : ObservationField NativeResourceReference)
    (reader : Decoder α) (podded : α) : Decoder α :=
  if podMembership.toOption.isNone then reader else return podded

def containerDetails (options : AcquisitionOptions) (evidence : ResourceEvidence) :
    Decoder ContainerDetails := do
  let configuration ← decodeContainerConfiguration identity object options
  let localImageId ← optionalStringField identity (lookup object "Image") "$.Image"
    .localResolution
  let configuredImage ← optionalStringField identity (lookup object "ImageName") "$.ImageName"
    .configured
  let podMembership ← decodeNativeReference identity (lookup object "Pod") "$.Pod"
  let networks ← unlessPodded podMembership (decodeContainerNetworks identity object)
    ⟨.notApplicable, [], .default⟩
  let networkAttachments ← unlessPodded podMembership
    (decodeContainerNetworkAttachments identity object) .notApplicable
  let networking ← decodeContainerNetworking identity object podMembership networks.field
    networkAttachments
  let mounts ← decodeContainerMounts identity object
  let creationEvidence ← decodeContainerCreationEvidence identity (containerCreateCommand object)
    configuredImage localImageId mounts.field
  let nativeDependencies ← decodeNativeDependencies identity (lookup object "Dependencies")
  let secretGrants ← decodeContainerSecretGrants identity (lookup object "Config")
  let memorySwappiness ← decodeMemorySwappiness identity object evidence
  let controls ← decodeContainerB3 identity object
  let isInfra ← decodeIsInfra identity object
  let references : ContainerReferences :=
    ⟨configuredImage, podMembership, networks.accepted.map (·.reference), networks.relationships,
      mounts.volumes, mounts.relationships, nativeDependencies, secretGrants.grants,
      secretGrants.relationships⟩
  return ⟨configuration, controls, configuredImage, localImageId, references.field, podMembership,
    nativeDependencies, mounts.field, secretGrants.field, memorySwappiness, isInfra, networking,
    creationEvidence⟩

variable (library : VersionLibrary) (evidence : ResourceEvidence)

def podDetails : Decoder PodDetails := do
  let labels ← decodeLabels identity (lookup object "Labels") "$.Labels"
  let containers ← decodePodContainers identity object
  let networking ← decodePodNetworking identity library evidence object
  let references : PodReferences := ⟨containers.members, containers.relationships,
    networking.networks, networking.relationships⟩
  return ⟨labels, references.field, networking.createInfra, networking.networking⟩

def networkDetails : Decoder NetworkDetails := do
  let internal ← nativeBoolField identity (lookup object "internal") "$.internal" .effective
  let options ← stringMapField identity networkOptionKeys (lookup object "options") "$.options"
    .effective
  let subnets ← decodeNativeNetworkSubnets identity (lookup object "subnets")
  let routes ← decodeNativeNetworkRoutes identity library evidence (lookup object "routes")
  let labels ← decodeLabels identity (lookup object "labels") "$.labels"
  return ⟨labels, internal, options, subnets, routes⟩

def volumeDetails : Decoder VolumeDetails := do
  let labels ← decodeLabels identity (lookup object "Labels") "$.Labels"
  let ownerUser ← decodeVolumeOwner identity (lookup object "UID") "$.UID"
  let ownerGroup ← decodeVolumeOwner identity (lookup object "GID") "$.GID"
  let driver ← optionalStringField identity (lookup object "Driver") "$.Driver" .effective
  let createdAt ← nativeTimestampField identity (lookup object "CreatedAt") "$.CreatedAt"
  let anonymous ← decodeAnonymous identity (lookup object "Anonymous")
  return ⟨labels, ownerUser, ownerGroup, driver, createdAt, anonymous⟩

def imageEnvironment (options : AcquisitionOptions) :
    Decoder (ObservationField ProtectedEnvironment) :=
  match supplied (lookup object "Config") with
  | none => return .absent
  | some (.object config) =>
    decodeEnvironment identity options.environmentValues (lookup config "Env") "$.Config.Env"
  | some _ => nativeMalformedField identity "$.Config"

def imageDetails (options : AcquisitionOptions) : Decoder ImageDetails := do
  let labels ← decodeLabels identity (lookup object "Labels") "$.Labels"
  let environment ← imageEnvironment identity object options
  let repoTags ← imageAliases identity (lookup object "RepoTags") "$.RepoTags"
  let repoDigests ← imageAliases identity (lookup object "RepoDigests") "$.RepoDigests"
  let digest ← optionalStringField identity (lookup object "Digest") "$.Digest" .effective
  let created ← nativeTimestampField identity (lookup object "Created") "$.Created"
  let author ← optionalStringOrEmptyField identity (lookup object "Author") "$.Author" .configured
  let architecture ← optionalStringField identity (lookup object "Architecture") "$.Architecture"
    .effective
  let operatingSystem ← optionalStringField identity (lookup object "Os") "$.Os" .effective
  let manifestType ← optionalStringField identity (lookup object "ManifestType") "$.ManifestType"
    .effective
  return ⟨labels, repoTags, repoDigests, environment, digest, created, author, architecture,
    operatingSystem, manifestType⟩

def secretDetails (spec : Members) : Decoder SecretDetails := do
  let labels ← decodeLabels identity (lookup spec "Labels") "$.Spec.Labels"
  if (lookup object "SecretData").isSome || (lookup spec "SecretData").isSome then
    Noted.note (.finding ⟨.secretPayloadDiscarded, some identity, none, none⟩)
  let driver ← objectField identity (decodeSecretDriver identity) (lookup spec "Driver")
    "$.Spec.Driver"
  let createdAt ← nativeTimestampField identity (lookup object "CreatedAt") "$.CreatedAt"
  let updatedAt ← nativeTimestampField identity (lookup object "UpdatedAt") "$.UpdatedAt"
  return ⟨labels, driver, createdAt, updatedAt⟩

end Decoders

section Records
variable (listed : ResourceIdentity) (object : Members)

/-- A record that is about the listed resource, and the members of the response it knows. -/
structure Decoded where
  identity : ResourceIdentity
  details : Decoder NativeDetails
  known : List String

def decodeContainer (options : AcquisitionOptions) (evidence : ResourceEvidence) :
    PodmanLensResult Decoded := do
  let identity ← identityFromInspect listed object ["Id"] ["Name"]
  return ⟨identity, .container <$> containerDetails identity object options evidence,
    ["Id", "Name", "Image", "ImageName", "Pod", "NetworkSettings", "Mounts", "Dependencies",
      "Config", "HostConfig", "IsInfra"]⟩

def decodePod (library : VersionLibrary) (evidence : ResourceEvidence) :
    PodmanLensResult Decoded := do
  let identity ← identityFromInspect listed object ["Id"] ["Name"]
  return ⟨identity, .pod <$> podDetails identity object library evidence,
    ["Id", "Name", "Labels", "Containers", "CreateInfra", "InfraConfig"]⟩

def decodeNetwork (library : VersionLibrary) (evidence : ResourceEvidence) :
    PodmanLensResult Decoded := do
  let identity ← identityFromInspect listed object ["id"] ["name"]
  return ⟨identity, .network <$> networkDetails identity object library evidence,
    ["id", "name", "labels", "internal", "options", "subnets", "routes"]⟩

def decodeVolume : PodmanLensResult Decoded := do
  let identity ← identityFromInspect listed object ["Name"] ["Name"]
  return ⟨identity, .volume <$> volumeDetails identity object,
    ["Name", "Labels", "UID", "GID", "Driver", "CreatedAt", "Anonymous"]⟩

def decodeImage (options : AcquisitionOptions) : PodmanLensResult Decoded := do
  let identity ← identityFromInspect listed object ["Id"] []
  return ⟨identity, .image <$> imageDetails identity object options,
    ["Id", "Digest", "RepoTags", "RepoDigests", "Created", "Author", "Architecture", "Os",
      "ManifestType", "Labels", "Config"]⟩

def decodeSecret : PodmanLensResult Decoded := do
  let identity ← identityFromInspect listed object ["ID"] ["Spec"]
  match (lookup object "Spec").bind Value.asObject with
  | none => .error .resourceMalformed
  | some spec =>
    return ⟨identity, .secret <$> secretDetails identity object spec,
      ["ID", "CreatedAt", "UpdatedAt", "Spec", "SecretData"]⟩

/-- The decoder of the kind that was listed. -/
def decodeKind (library : VersionLibrary) (evidence : ResourceEvidence)
    (options : AcquisitionOptions) : PodmanLensResult Decoded :=
  match listed.kind with
  | .container => decodeContainer listed object options evidence
  | .pod => decodePod listed object library evidence
  | .network => decodeNetwork listed object library evidence
  | .volume => decodeVolume listed object
  | .image => decodeImage listed object options
  | .secret => decodeSecret listed object

end Records

section Identities
variable {listed identity : ResourceIdentity} {object : Members} {library : VersionLibrary}
  {evidence : ResourceEvidence} {options : AcquisitionOptions} {decoded : Decoded}

theorem except_bind_eq_ok {ε α β : Type} {result : Except ε α} {next : α → Except ε β} {found : β}
    (h : result >>= next = .ok found) : ∃ value, result = .ok value ∧ next value = .ok found := by
  cases result with
  | error _ => cases h
  | ok value => exact ⟨value, rfl, h⟩

theorem identityFromInspect_ok {idKeys nameKeys : List String}
    (h : identityFromInspect listed object idKeys nameKeys = .ok identity) :
    identity.kind = listed.kind ∧ identity.id = listed.id := by
  obtain ⟨id, -, hid⟩ := except_bind_eq_ok h
  split at hid
  · cases hid
  · next heq =>
      cases hid
      exact ⟨rfl, not_not.mp heq⟩

/-- A record is about the listed resource, whatever the response says its name is. -/
theorem identity_decodeKind (h : decodeKind listed object library evidence options = .ok decoded) :
    decoded.identity.kind = listed.kind ∧ decoded.identity.id = listed.id := by
  rw [decodeKind] at h
  split at h
  all_goals obtain ⟨identity, hidentity, hdecoded⟩ := except_bind_eq_ok h
  case h_6 =>
    split at hdecoded
    · cases hdecoded
    · cases hdecoded
      exact identityFromInspect_ok hidentity
  all_goals
    cases hdecoded
    exact identityFromInspect_ok hidentity

end Identities

end PodmanLens
