import PodmanLens.NativeNetworking

/-!
# Networking members and their accessors

What each accessor of an inspected networking should report: the reading of the one member of that
meaning, or that the kind of resource has no such member. An unpodded container reports its members
under their own accessors; it does not refuse a management gate that is malformed. A pod refuses
every malformed member; it reports its host network flag under another accessor.
-/

namespace PodmanLens
open Json Net Text

namespace NativeNetworkingObservation

/-- Whether a member of the networking did not decode. -/
def hasMalformedMember (networking : NativeNetworkingObservation) : Bool :=
  networking.portBindings.isMalformed || networking.createNetNs.isMalformed ||
    networking.hostNetwork.isMalformed || networking.dnsServers.isMalformed ||
    networking.dnsSearch.isMalformed || networking.dnsOptions.isMalformed ||
    networking.hostEntries.isMalformed || networking.networks.isMalformed ||
    networking.networkOptions.isMalformed || networking.noManageResolvConf.isMalformed ||
    networking.noManageHosts.isMalformed || networking.staticIp.isMalformed

def gateMalformed (networking : NativeNetworkingObservation) : Bool :=
  networking.noManageResolvConf.isMalformed || networking.noManageHosts.isMalformed

/-- Whether a member other than the two management gates did not decode. -/
def ungatedMalformed (networking : NativeNetworkingObservation) : Bool :=
  networking.portBindings.isMalformed || networking.createNetNs.isMalformed ||
    networking.hostNetwork.isMalformed || networking.dnsServers.isMalformed ||
    networking.dnsSearch.isMalformed || networking.dnsOptions.isMalformed ||
    networking.hostEntries.isMalformed || networking.networks.isMalformed ||
    networking.networkOptions.isMalformed || networking.staticIp.isMalformed

theorem hasMalformedMember_eq (networking : NativeNetworkingObservation) :
    networking.hasMalformedMember =
      (networking.ungatedMalformed || networking.gateMalformed) := by
  rw [hasMalformedMember, ungatedMalformed, gateMalformed]
  ac_rfl

end NativeNetworkingObservation

section Members
variable (identity : ResourceIdentity)

/-- The members of a host configuration, each under the accessor of its meaning. -/
def hostConfigMembers (hostConfig : Members)
    (networks : ObservationField (List NativeResourceReference))
    (networkAttachments : ObservationField (List NativeNetworkAttachmentObservation)) :
    NativeNetworkingObservation :=
  let resolvConf := (nativeBoolField identity (lookup hostConfig "NoManageResolvConf")
    "$.HostConfig.NoManageResolvConf" .configured).value
  let hosts := (nativeBoolField identity (lookup hostConfig "NoManageHosts")
    "$.HostConfig.NoManageHosts" .configured).value
  { portBindings := (nativePortBindings identity .configured (lookup hostConfig "PortBindings")
      "$.HostConfig.PortBindings").value
    createNetNs := (nativeBoolField identity (lookup hostConfig "CreateNetNS")
      "$.HostConfig.CreateNetNS" .configured).value
    hostNetwork := .notApplicable
    dnsServers := (gated resolvConf (nativeIpList identity (lookup hostConfig "Dns")
      "$.HostConfig.Dns" .configured)).value
    dnsSearch := (gated resolvConf (nativeStringList identity (lookup hostConfig "DnsSearch")
      "$.HostConfig.DnsSearch" .configured)).value
    dnsOptions := (gated resolvConf (nativeStringList identity (lookup hostConfig "DnsOptions")
      "$.HostConfig.DnsOptions" .configured)).value
    hostEntries := (gated hosts (nativeUnmodelledStringList identity
      (lookup hostConfig "ExtraHosts") "$.HostConfig.ExtraHosts" .containerHostConfig)).value
    networks := networks
    networkAttachments := networkAttachments
    networkOptions := .notApplicable
    noManageResolvConf := resolvConf
    noManageHosts := hosts
    staticIp := .notApplicable
    staticMac := .notApplicable }

variable (library : VersionLibrary) (evidence : ResourceEvidence)

/-- The members of an infra configuration, each under the accessor of its meaning. -/
def infraConfigMembers (config : Members) : NativeNetworkingObservation :=
  let resolvConf := (nativeBoolField identity (lookup config "NoManageResolvConf")
    "$.InfraConfig.NoManageResolvConf" .effective).value
  let hosts := (nativeBoolField identity (lookup config "NoManageHosts")
    "$.InfraConfig.NoManageHosts" .effective).value
  { portBindings := (nativePortBindings identity .effective (lookup config "PortBindings")
      "$.InfraConfig.PortBindings").value
    createNetNs := .notApplicable
    hostNetwork := (nativeBoolField identity (lookup config "HostNetwork")
      "$.InfraConfig.HostNetwork" .effective).value
    dnsServers := (gated resolvConf (nativeIpList identity (lookup config "DNSServer")
      "$.InfraConfig.DNSServer" .effective)).value
    dnsSearch := (gated resolvConf (nativeStringList identity (lookup config "DNSSearch")
      "$.InfraConfig.DNSSearch" .effective)).value
    dnsOptions := (gated resolvConf (nativeStringList identity (lookup config "DNSOption")
      "$.InfraConfig.DNSOption" .effective)).value
    hostEntries := (gated hosts (nativeUnmodelledStringList identity (lookup config "HostAdd")
      "$.InfraConfig.HostAdd" .podInfraConfig)).value
    networks := (nativeNetworkReferences identity (lookup config "Networks")
      "$.InfraConfig.Networks").value.1
    networkAttachments := .notApplicable
    networkOptions := (nativeOpaqueOptions identity (lookup config "NetworkOptions")
      "$.InfraConfig.NetworkOptions" .effective).value
    noManageResolvConf := resolvConf
    noManageHosts := hosts
    staticIp := (nativeStaticIp identity library evidence (lookup config "StaticIP")
      "$.InfraConfig.StaticIP" .effective).value
    staticMac := (nativeStaticMac identity (lookup config "StaticMAC")
      "$.InfraConfig.StaticMAC").value }

end Members

section Decoded
variable (identity : ResourceIdentity) (library : VersionLibrary) (evidence : ResourceEvidence)

theorem value_unpoddedNetworking (hostConfig : Members)
    (networks : ObservationField (List NativeResourceReference))
    (networkAttachments : ObservationField (List NativeNetworkAttachmentObservation)) :
    (unpoddedNetworking identity (some hostConfig) networks networkAttachments).value =
      if (hostConfigMembers identity hostConfig networks networkAttachments).ungatedMalformed then
        .malformed
      else .observed
        ⟨hostConfigMembers identity hostConfig networks networkAttachments, .configured⟩ := by
  have hmalformed (record : NativeNetworkingObservation)
      (hhost : record.hostNetwork = .notApplicable) (hoptions : record.networkOptions = .notApplicable)
      (haddress : record.staticIp = .notApplicable) :
      (record.portBindings.isMalformed || record.dnsServers.isMalformed ||
        record.dnsSearch.isMalformed || record.dnsOptions.isMalformed ||
        record.hostEntries.isMalformed || record.createNetNs.isMalformed ||
        record.networks.isMalformed) = record.ungatedMalformed := by
    rw [NativeNetworkingObservation.ungatedMalformed, hhost, hoptions, haddress]
    simp only [ObservationField.isMalformed_notApplicable, Bool.or_false]
    ac_rfl
  rw [← hmalformed _ rfl rfl rfl]
  rfl

theorem value_decodeNativeNetworking (config : Members) :
    (decodeNativeNetworking identity library evidence config "$.InfraConfig" .effective).value.1 =
      if (infraConfigMembers identity library evidence config).hasMalformedMember then .malformed
      else .observed ⟨{ infraConfigMembers identity library evidence config with
        createNetNs := (infraConfigMembers identity library evidence config).hostNetwork
        hostNetwork := .notApplicable }, .effective⟩ := by
  have hmalformed (record : NativeNetworkingObservation)
      (hcreate : record.createNetNs = .notApplicable) :
      [record.portBindings.isMalformed, record.hostNetwork.isMalformed,
        record.dnsServers.isMalformed, record.dnsSearch.isMalformed,
        record.dnsOptions.isMalformed, record.hostEntries.isMalformed,
        record.networks.isMalformed, record.networkOptions.isMalformed,
        record.noManageResolvConf.isMalformed, record.noManageHosts.isMalformed,
        record.staticIp.isMalformed].any id = record.hasMalformedMember := by
    rw [NativeNetworkingObservation.hasMalformedMember, hcreate]
    simp only [List.any_cons, List.any_nil, id, ObservationField.isMalformed_notApplicable,
      Bool.or_false]
    ac_rfl
  rw [← hmalformed _ rfl]
  rfl

end Decoded

/-- The inspected object that a networking is decoded from. -/
inductive NetworkingSource
  | container (object : Members)
  | pod (object : Members)

namespace NetworkingSource

def isContainer : NetworkingSource → Bool
  | .container _ => true
  | .pod _ => false

def objectMember (object : Members) (key : String) : Option Members :=
  (lookup object key).bind Value.asObject

section Reading
variable (identity : ResourceIdentity)

def podMembership (object : Members) : ObservationField NativeResourceReference :=
  (decodeNativeReference identity (lookup object "Pod") "$.Pod").value

/-- An unpodded container with a host configuration, or a pod with an infra configuration. -/
def Configured : NetworkingSource → Prop
  | .container object => (podMembership identity object).isObserved = false ∧
      (objectMember object "HostConfig").isSome = true
  | .pod object => lookup object "CreateInfra" = some (.bool true) ∧
      (objectMember object "InfraConfig").isSome = true

variable (library : VersionLibrary) (evidence : ResourceEvidence)

/-- The networking that decoding the object observes. -/
def decoded : NetworkingSource → ObservationField NativeNetworkingObservation
  | .container object => (decodeContainerNetworking identity object (podMembership identity object)
      (decodeContainerNetworks identity object).value.field
      (decodeContainerNetworkAttachments identity object).value).value
  | .pod object => (decodePodNetworking identity library evidence object).value.networking

/-- The members of the object, each under the accessor of its meaning. -/
def members : NetworkingSource → NativeNetworkingObservation
  | .container object => hostConfigMembers identity ((objectMember object "HostConfig").getD [])
      (decodeContainerNetworks identity object).value.field
      (decodeContainerNetworkAttachments identity object).value
  | .pod object =>
    infraConfigMembers identity library evidence ((objectMember object "InfraConfig").getD [])

theorem lookup_of_objectMember {object found : Members} {key : String}
    (h : objectMember object key = some found) : lookup object key = some (.object found) := by
  obtain ⟨value, hvalue, hobject⟩ := Option.bind_eq_some_iff.mp h
  cases value with
  | object members =>
      cases hobject
      exact hvalue
  | _ => cases hobject

theorem decoded_container {object : Members} (h : (container object).Configured identity) :
    (container object).decoded identity library evidence =
      if ((container object).members identity library evidence).ungatedMalformed then .malformed
      else .observed ⟨(container object).members identity library evidence, .configured⟩ := by
  obtain ⟨hpod, hconfig⟩ := h
  obtain ⟨hostConfig, hconfig⟩ := Option.isSome_iff_exists.mp hconfig
  have hlookup := lookup_of_objectMember hconfig
  rw [decoded, decodeContainerNetworking, hpod, hlookup, members, hconfig]
  exact value_unpoddedNetworking identity hostConfig _ _

/-- A pod reports its host network flag under the accessor of the namespace gate. -/
theorem decoded_pod {object : Members} (h : (pod object).Configured identity) :
    (pod object).decoded identity library evidence =
      if ((pod object).members identity library evidence).hasMalformedMember then .malformed
      else .observed ⟨{ (pod object).members identity library evidence with
        createNetNs := ((pod object).members identity library evidence).hostNetwork
        hostNetwork := .notApplicable }, .effective⟩ := by
  obtain ⟨hcreate, hconfig⟩ := h
  obtain ⟨config, hconfig⟩ := Option.isSome_iff_exists.mp hconfig
  have hlookup := lookup_of_objectMember hconfig
  rw [members, hconfig, Option.getD_some, ← value_decodeNativeNetworking, decoded,
    decodePodNetworking, hcreate, hlookup]
  rfl

variable {source : NetworkingSource}

/-- Containers report every member under its own accessor, pods never do. -/
theorem reports_iff (hsource : source.Configured identity)
    (hformed : (source.members identity library evidence).hasMalformedMember = false) :
    (source.decoded identity library evidence).toOption =
        some (source.members identity library evidence) ↔ source.isContainer = true := by
  cases source with
  | container object =>
      rw [NativeNetworkingObservation.hasMalformedMember_eq, Bool.or_eq_false_iff] at hformed
      rw [decoded_container identity library evidence hsource, hformed.1]
      exact iff_of_true rfl rfl
  | pod object =>
      rw [decoded_pod identity library evidence hsource, hformed]
      refine iff_of_false (fun h => ?_) Bool.false_ne_true
      have hflag := congrArg NativeNetworkingObservation.hostNetwork (Option.some.inj h)
      exact scalarField_ne_notApplicable _ hflag.symm

/-- Pods refuse every malformed member, containers every one that is no management gate. -/
theorem failsClosed_iff (hsource : source.Configured identity) :
    ((source.decoded identity library evidence).isMalformed = true ↔
        (source.members identity library evidence).hasMalformedMember = true) ↔
      (source.isContainer = true →
        (source.members identity library evidence).gateMalformed = true →
          (source.members identity library evidence).ungatedMalformed = true) := by
  cases source with
  | container object =>
      rw [decoded_container identity library evidence hsource,
        NativeNetworkingObservation.hasMalformedMember_eq]
      cases ((container object).members identity library evidence).ungatedMalformed <;>
        cases ((container object).members identity library evidence).gateMalformed <;>
          simp [isContainer]
  | pod object =>
      rw [decoded_pod identity library evidence hsource]
      cases ((pod object).members identity library evidence).hasMalformedMember <;>
        simp [isContainer]

end Reading

section Sample

def webIdentity : ResourceIdentity := ⟨.container, "web", none⟩

def hostNetworkPod : NetworkingSource :=
  .pod [("CreateInfra", .bool true), ("InfraConfig", .object [("HostNetwork", .bool true)])]

def ungatedContainer : NetworkingSource :=
  .container [("HostConfig", .object [("Dns", .array [.string "192.0.2.53"]),
    ("NoManageResolvConf", .string "yes")])]

def plainContainer : NetworkingSource :=
  .container [("HostConfig", .object [("CreateNetNS", .bool true)])]

theorem plainContainer_configured : plainContainer.Configured webIdentity :=
  ⟨by decide +kernel, by decide +kernel⟩

theorem reports_iff_sample :
    (plainContainer.decoded webIdentity releaseLibrary newestEvidence).toOption =
      some (plainContainer.members webIdentity releaseLibrary newestEvidence) :=
  (reports_iff webIdentity releaseLibrary newestEvidence plainContainer_configured
    (by decide +kernel)).mpr rfl

/-- The flag is set, and its accessor reports that it does not apply. -/
theorem hostNetworkPod_misreported :
    hostNetworkPod.Configured webIdentity ∧
      (hostNetworkPod.members webIdentity releaseLibrary newestEvidence).hasMalformedMember =
        false ∧
      ((hostNetworkPod.decoded webIdentity releaseLibrary newestEvidence).toOption.map
        NativeNetworkingObservation.hostNetwork) = some .notApplicable ∧
      (hostNetworkPod.decoded webIdentity releaseLibrary newestEvidence).toOption ≠
        some (hostNetworkPod.members webIdentity releaseLibrary newestEvidence) := by
  refine ⟨⟨rfl, by decide +kernel⟩, ?_, ?_, ?_⟩ <;> decide +kernel

theorem failsClosed_iff_sample :
    (plainContainer.decoded webIdentity releaseLibrary newestEvidence).isMalformed = true ↔
      (plainContainer.members webIdentity releaseLibrary
        newestEvidence).hasMalformedMember = true :=
  (failsClosed_iff webIdentity releaseLibrary newestEvidence
    plainContainer_configured).mpr fun _ hgate => absurd hgate (by decide +kernel)

/-- The gate is no boolean, and the servers behind it stay observed. -/
theorem ungatedContainer_observed :
    ungatedContainer.Configured webIdentity ∧
      (ungatedContainer.members webIdentity releaseLibrary
        newestEvidence).noManageResolvConf = .malformed ∧
      ¬((ungatedContainer.decoded webIdentity releaseLibrary
            newestEvidence).isMalformed = true ↔
          (ungatedContainer.members webIdentity releaseLibrary
            newestEvidence).hasMalformedMember = true) := by
  refine ⟨⟨by decide +kernel, by decide +kernel⟩, ?_, ?_⟩ <;> decide +kernel

end Sample

end NetworkingSource

end PodmanLens
