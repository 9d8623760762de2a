import PodmanLens.NativeNetworks
import PodmanLens.NativeRelationships

/-!
# Inspected networking

The networking of an unpodded container comes from its host configuration and its network settings,
that of a pod from the configuration of its infra container. Both decoders read the members one by
one; a management gate that is closed makes the members behind it not applicable, and the decoded
members go to the observation in the order of its constructor.
-/

namespace PodmanLens
open Json Net Text

inductive NativePortProtocol
  | tcp
  | udp
  | sctp
  deriving DecidableEq

structure NativePortBindingObservation where
  containerPort : UInt16
  protocol : NativePortProtocol
  hostIp : ObservationField IpAddr
  hostPort : ObservationField UInt16
  deriving DecidableEq

inductive NativeNetworkAliasKind
  | runtimeContainerId
  | effectiveCandidate
  deriving DecidableEq

structure NativeNetworkAliasObservation where
  spelling : String
  fieldPath : String
  kind : NativeNetworkAliasKind
  deriving DecidableEq

structure NativeNetworkAttachmentObservation where
  reference : NativeResourceReference
  aliases : ObservationField (List NativeNetworkAliasObservation)
  deriving DecidableEq

/-- Of free-form options and host entries only their number is kept. -/
abbrev NativeOpaqueNetworkOptions := ℕ

structure NativeNetworkingObservation where
  portBindings : ObservationField (List NativePortBindingObservation)
  createNetNs : ObservationField Bool
  hostNetwork : ObservationField Bool
  dnsServers : ObservationField (List IpAddr)
  dnsSearch : ObservationField (List String)
  dnsOptions : ObservationField (List String)
  hostEntries : ObservationField NativeOpaqueNetworkOptions
  networks : ObservationField (List NativeResourceReference)
  networkAttachments : ObservationField (List NativeNetworkAttachmentObservation)
  networkOptions : ObservationField NativeOpaqueNetworkOptions
  noManageResolvConf : ObservationField Bool
  noManageHosts : ObservationField Bool
  staticIp : ObservationField IpAddr
  staticMac : ObservationField String
  deriving DecidableEq

section References
variable (identity : ResourceIdentity)

/-- An empty text is no reference, and neither is a missing member. -/
def optionalNativeReference (value : Option Value) (path : String) :
    Decoder (Except Unit (Option NativeResourceReference)) :=
  match supplied value with
  | none => return .ok none
  | some (.string text) => return .ok (if text.isEmpty then none else some ⟨text, path⟩)
  | some _ => do
    noteField identity .resourceMalformed path
    return .error ()

def decodeNativeReference (value : Option Value) (path : String) :
    Decoder (ObservationField NativeResourceReference) := do
  return match ← optionalNativeReference identity value path with
    | .ok (some reference) => .observed ⟨reference, .configured⟩
    | .ok none => .absent
    | .error () => .malformed

end References

section PortBindings

def nativePortBindingKey (value : String) : Option (UInt16 × NativePortProtocol) := do
  let (port, protocol) ← splitOnce '/' value.toList
  let port ← (parseUnsigned 65535 port).filter (· != 0)
  let protocol ← match String.ofList protocol with
    | "tcp" => some .tcp
    | "udp" => some .udp
    | "sctp" => some .sctp
    | _ => none
  return (UInt16.ofNat port, protocol)

/-- A text that may be missing, null or empty. -/
def optionalText {α : Type} (accept : List Char → Option α) (value : Option Value)
    (origin : ObservationOrigin) : Option (ObservationField α) :=
  match value with
  | none | some .null => some .absent
  | some (.string text) =>
    if text.isEmpty then some .absent
    else (accept text.toList).map fun accepted => .observed ⟨accepted, origin⟩
  | some _ => none

def hostPortNumber (text : List Char) : Option UInt16 :=
  ((parseUnsigned 65535 text).filter (· != 0)).map UInt16.ofNat

/-- One binding of a port, or the member that is malformed. -/
def portBinding (port : UInt16) (protocol : NativePortProtocol) (origin : ObservationOrigin)
    (binding : Members) : Except String NativePortBindingObservation :=
  match optionalText parseIpAddr (lookup binding "HostIp") origin with
  | none => .error "HostIp"
  | some hostIp =>
    match optionalText hostPortNumber (lookup binding "HostPort") origin with
    | none => .error "HostPort"
    | some hostPort => .ok ⟨port, protocol, hostIp, hostPort⟩

variable (identity : ResourceIdentity) (origin : ObservationOrigin)

/-- The bindings of one port, or the finding of the first malformed one. -/
def portBindingsOf (port : UInt16) (protocol : NativePortProtocol) (path : String) :
    List (Value × ℕ) → Except InventoryFinding (List NativePortBindingObservation)
  | [] => .ok []
  | (value, index) :: rest =>
    match value.asObject with
    | none => .error (.atOccurrence .resourceMalformed identity path index)
    | some binding =>
      match portBinding port protocol origin binding with
      | .error member =>
        .error (.field .resourceMalformed identity (elementPath path index ++ "." ++ member))
      | .ok decoded => (portBindingsOf port protocol path rest).map (decoded :: ·)

/-- The bindings of all ports, or the finding of the first malformed one. -/
def allPortBindings (path : String) :
    Members → Except InventoryFinding (List NativePortBindingObservation)
  | [] => .ok []
  | (key, value) :: rest =>
    match nativePortBindingKey key, value.asArray with
    | some (port, protocol), some values =>
      match portBindingsOf identity origin port protocol (path ++ "." ++ key) values.zipIdx with
      | .error finding => .error finding
      | .ok decoded => (allPortBindings path rest).map (decoded ++ ·)
    | _, _ => .error (.field .resourceMalformed identity (path ++ "." ++ key))

def nativePortBindings (value : Option Value) (path : String) :
    Decoder (ObservationField (List NativePortBindingObservation)) :=
  match supplied value with
  | none => return .absent
  | some (.object bindings) =>
    match allPortBindings identity origin path bindings with
    | .ok decoded => return .observed ⟨decoded, origin⟩
    | .error finding => do
      .note (.finding finding)
      return .malformed
  | some _ => nativeMalformedField identity path

end PortBindings

section Networks
variable (identity : ResourceIdentity)

/-- A non-empty name with the path of its element. -/
def networkReference (path : String) (index : ℕ) (value : Value) :
    Option NativeResourceReference :=
  value.asNonEmptyStr.map fun name => ⟨name, elementPath path index⟩

def nativeNetworkReferences (value : Option Value) (path : String) :
    Decoder (ObservationField (List NativeResourceReference) × RelationshipDecoding) := do
  let field ← listField identity (networkReference path) value path .effective
  return (field, .fromField field)

def networksPath (name : String) : String := "$.NetworkSettings.Networks." ++ name

/-- A network needs a name, and its details are an object or null. -/
def isAttachment (entry : String × Value) : Bool :=
  !entry.1.isEmpty && (entry.2.asObject.isSome || jsonValueKind entry.2 == .null)

def containerNetwork (entry : String × Value) : Decoder (Option NativeResourceReference) :=
  if isAttachment entry then return some ⟨entry.1, networksPath entry.1⟩
  else do
    noteField identity .resourceMalformed (networksPath entry.1)
    return none

structure ContainerNetworksDecoded where
  field : ObservationField (List NativeResourceReference)
  accepted : List NativeResourceReference
  relationships : RelationshipDecoding

/-- The names are kept apart from the field: an accepted network is one also where another is not. -/
def decodeContainerNetworks (object : Members) : Decoder ContainerNetworksDecoded :=
  match supplied (lookup object "NetworkSettings") with
  | none => return ⟨.absent, [], .default⟩
  | some (.object settings) =>
    match supplied (lookup settings "Networks") with
    | none => return ⟨.absent, [], .default⟩
    | some (.object networks) => do
      let references ← networks.mapM (containerNetwork identity)
      let field := elementsField references .effective
      return ⟨field, references.reduceOption, ⟨true, field.isMalformed⟩⟩
    | some _ => do
      let field ← nativeMalformedField identity "$.NetworkSettings.Networks"
      return ⟨field, [], ⟨true, true⟩⟩
  | some _ => do
    let field ← nativeMalformedField identity "$.NetworkSettings"
    return ⟨field, [], ⟨true, true⟩⟩

def isRuntimeContainerIdAlias (spelling containerId : String) : Bool :=
  containerId.utf8ByteSize == 64 && containerId.toList.all isHexDigit &&
    (spelling == containerId || spelling == String.ofList (containerId.toList.take 12))

/-- An alias is told apart from the short or the full identifier of the container. -/
def networkAlias (path : String) (index : ℕ) (value : Value) :
    Option NativeNetworkAliasObservation :=
  value.asNonEmptyStr.map fun spelling =>
    ⟨spelling, elementPath path index,
      if isRuntimeContainerIdAlias spelling identity.id then .runtimeContainerId
      else .effectiveCandidate⟩

def decodeContainerNetworkAliases (details : Members) (attachmentPath : String) :
    Decoder (ObservationField (List NativeNetworkAliasObservation)) :=
  let path := attachmentPath ++ ".Aliases"
  match supplied (lookup details "Aliases") with
  | none => return .absent
  | some (.array values) =>
    match acceptAll (networkAlias identity path) 0 values with
    | .ok aliases => return .observed ⟨aliases, .effective⟩
    | .error index => nativeMalformedField identity (elementPath path index)
  | some _ => nativeMalformedField identity path

/-- Without details a network keeps its name, and its aliases are not available. -/
def networkAttachment (entry : String × Value) : Decoder NativeNetworkAttachmentObservation := do
  let aliases ← match entry.2 with
    | .object details => decodeContainerNetworkAliases identity details (networksPath entry.1)
    | _ => pure .unavailable
  return ⟨⟨entry.1, networksPath entry.1⟩, aliases⟩

/-- The attachments before the first entry that is none. -/
def networkAttachments : Members →
    Decoder (ObservationField (List NativeNetworkAttachmentObservation))
  | [] => return .observed ⟨[], .effective⟩
  | entry :: rest =>
    if isAttachment entry then do
      let attachment ← networkAttachment identity entry
      let attachments ← networkAttachments rest
      return match attachments with
        | .observed found => .observed ⟨attachment :: found.value, .effective⟩
        | field => field
    else return .malformed

/-- Findings about the networks themselves are those of their own decoder. -/
def decodeContainerNetworkAttachments (object : Members) :
    Decoder (ObservationField (List NativeNetworkAttachmentObservation)) :=
  match supplied (lookup object "NetworkSettings") with
  | none => return .absent
  | some (.object settings) =>
    match supplied (lookup settings "Networks") with
    | none => return .absent
    | some (.object networks) => networkAttachments identity networks
    | some _ => return .malformed
  | some _ => return .malformed

end Networks

section Networking
variable (identity : ResourceIdentity)

/-- What a closed gate stands before does not apply. -/
def gated {α : Type} (gate : ObservationField Bool) (reader : Decoder (ObservationField α)) :
    Decoder (ObservationField α) :=
  if gate.toOption = some true then return .notApplicable else reader

def poddedNetworkingKeys : List String :=
  ["CreateNetNS", "PortBindings", "Dns", "DnsSearch", "DnsOptions", "ExtraHosts",
    "NoManageResolvConf", "NoManageHosts"]

def hostConfigPath (key : String) : String := "$.HostConfig." ++ key

/-- The networking of a container that has networks or an object as its host configuration. -/
def unpoddedNetworking (hostConfig : Option Members)
    (networks : ObservationField (List NativeResourceReference))
    (networkAttachments : ObservationField (List NativeNetworkAttachmentObservation)) :
    Decoder (ObservationField NativeNetworkingObservation) := do
  let member (key : String) := hostConfig.bind fun members => lookup members key
  let createNetNs ←
    nativeBoolField identity (member "CreateNetNS") (hostConfigPath "CreateNetNS") .configured
  let noManageResolvConf ← nativeBoolField identity (member "NoManageResolvConf")
    (hostConfigPath "NoManageResolvConf") .configured
  let noManageHosts ←
    nativeBoolField identity (member "NoManageHosts") (hostConfigPath "NoManageHosts") .configured
  let ports ← nativePortBindings identity .configured (member "PortBindings")
    (hostConfigPath "PortBindings")
  let dnsServers ← gated noManageResolvConf
    (nativeIpList identity (member "Dns") (hostConfigPath "Dns") .configured)
  let dnsSearch ← gated noManageResolvConf
    (nativeStringList identity (member "DnsSearch") (hostConfigPath "DnsSearch") .configured)
  let dnsOptions ← gated noManageResolvConf
    (nativeStringList identity (member "DnsOptions") (hostConfigPath "DnsOptions") .configured)
  let hostEntries ← gated noManageHosts (nativeUnmodelledStringList identity
    (member "ExtraHosts") (hostConfigPath "ExtraHosts") .containerHostConfig)
  return if ports.isMalformed || dnsServers.isMalformed || dnsSearch.isMalformed ||
      dnsOptions.isMalformed || hostEntries.isMalformed || createNetNs.isMalformed ||
      networks.isMalformed then .malformed
    else if hostConfig.isNone && networks == .absent then .absent
    else .observed ⟨.mk ports createNetNs .notApplicable dnsServers dnsSearch dnsOptions hostEntries
      networks networkAttachments .notApplicable noManageResolvConf noManageHosts .notApplicable
      .notApplicable, .configured⟩

/-- A container in a pod has the networking of the pod. -/
def decodeContainerNetworking (object : Members)
    (podMembership : ObservationField NativeResourceReference)
    (networks : ObservationField (List NativeResourceReference))
    (networkAttachments : ObservationField (List NativeNetworkAttachmentObservation)) :
    Decoder (ObservationField NativeNetworkingObservation) :=
  if podMembership.isObserved then do
    if ((lookup object "HostConfig").bind Value.asObject).any fun hostConfig =>
        poddedNetworkingKeys.any fun key => (lookup hostConfig key).isSome then
      noteField identity .nativeFieldUnsupported "$.HostConfig"
    return .notApplicable
  else
    match supplied (lookup object "HostConfig") with
    | none => unpoddedNetworking identity none networks networkAttachments
    | some (.object hostConfig) =>
      unpoddedNetworking identity (some hostConfig) networks networkAttachments
    | some _ => nativeMalformedField identity "$.HostConfig"

variable (library : VersionLibrary) (evidence : ResourceEvidence)

def engineIsOlder (version : SemanticVersion) : Bool :=
  (library.parse evidence.engineVersion).any fun found => library.compare found version == .lt

/-- A static address is reported only before the sixth version. -/
def nativeStaticIp (value : Option Value) (path : String) (origin : ObservationOrigin) :
    Decoder (ObservationField IpAddr) :=
  if engineIsOlder library evidence (.new 6 0 0) then nativeIpField identity value path origin
  else do
    if (supplied value).isSome then noteField identity .versionInapplicableField path
    return .versionInapplicable

def nativeStaticMac (value : Option Value) (path : String) :
    Decoder (ObservationField String) := do
  if (supplied value).isSome then noteField identity .versionInapplicableField path
  return .versionInapplicable

def decodeNativeNetworking (object : Members) (front : String) (origin : ObservationOrigin) :
    Decoder (ObservationField NativeNetworkingObservation × RelationshipDecoding) := do
  let path (key : String) := front ++ "." ++ key
  let portBindings ← nativePortBindings identity origin (lookup object "PortBindings")
    (path "PortBindings")
  let hostNetwork ← nativeBoolField identity (lookup object "HostNetwork") (path "HostNetwork")
    origin
  let noManageResolvConf ← nativeBoolField identity (lookup object "NoManageResolvConf")
    (path "NoManageResolvConf") origin
  let noManageHosts ← nativeBoolField identity (lookup object "NoManageHosts")
    (path "NoManageHosts") origin
  let dnsServers ← gated noManageResolvConf
    (nativeIpList identity (lookup object "DNSServer") (path "DNSServer") origin)
  let dnsSearch ← gated noManageResolvConf
    (nativeStringList identity (lookup object "DNSSearch") (path "DNSSearch") origin)
  let dnsOptions ← gated noManageResolvConf
    (nativeStringList identity (lookup object "DNSOption") (path "DNSOption") origin)
  let hostEntries ← gated noManageHosts (nativeUnmodelledStringList identity
    (lookup object "HostAdd") (path "HostAdd") .podInfraConfig)
  let (networks, relationships) ← nativeNetworkReferences identity (lookup object "Networks")
    (path "Networks")
  let networkOptions ← nativeOpaqueOptions identity (lookup object "NetworkOptions")
    (path "NetworkOptions") origin
  let staticIp ← nativeStaticIp identity library evidence (lookup object "StaticIP")
    (path "StaticIP") origin
  let staticMac ← nativeStaticMac identity (lookup object "StaticMAC") (path "StaticMAC")
  let malformed := [portBindings.isMalformed, hostNetwork.isMalformed, dnsServers.isMalformed,
    dnsSearch.isMalformed, dnsOptions.isMalformed, hostEntries.isMalformed, networks.isMalformed,
    networkOptions.isMalformed, noManageResolvConf.isMalformed, noManageHosts.isMalformed,
    staticIp.isMalformed].any id
  return (if malformed then .malformed
    else .observed ⟨.mk portBindings hostNetwork .notApplicable dnsServers dnsSearch dnsOptions
      hostEntries networks .notApplicable networkOptions noManageResolvConf noManageHosts staticIp
      staticMac, origin⟩, relationships)

structure PodNetworkingDecoded where
  createInfra : ObservationField Bool
  networking : ObservationField NativeNetworkingObservation
  networks : List NativeResourceReference
  relationships : RelationshipDecoding

/-- The networks of an observed infra container belong to the pod. -/
def infraNetworks (networking : ObservationField NativeNetworkingObservation) :
    List NativeResourceReference :=
  (networking.toOption.bind fun found => found.networks.toOption).getD []

/-- The infra configuration is there exactly when the pod has an infra container. -/
def decodePodNetworking (object : Members) : Decoder PodNetworkingDecoded := do
  let createInfra ← nativeBoolField identity (lookup object "CreateInfra") "$.CreateInfra" .effective
  let mismatched : Decoder PodNetworkingDecoded := do
    noteField identity .resourceMalformed "$.InfraConfig"
    return ⟨createInfra, .malformed, [], ⟨true, true⟩⟩
  match createInfra, supplied (lookup object "InfraConfig") with
  | .observed ⟨true, _⟩, some (.object config) => do
    let (networking, relationships) ←
      decodeNativeNetworking identity library evidence config "$.InfraConfig" .effective
    return ⟨createInfra, networking, infraNetworks networking, relationships⟩
  | .observed ⟨true, _⟩, _ => mismatched
  | .observed ⟨false, _⟩, none | .absent, none => return ⟨createInfra, .absent, [], .default⟩
  | .observed ⟨false, _⟩, some _ | .absent, some _ => mismatched
  | _, _ => return ⟨createInfra, .malformed, [], ⟨true, true⟩⟩

end Networking

end PodmanLens
