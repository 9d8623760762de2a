import PodmanLens.Inspection

/-!
# The members of an observation

Every field of an observation and every field nested in an observed one, with the path it was read
from and the reason that a field in the unmodelled state gives. A property of all unmodelled members
is shown part by part.
-/

namespace PodmanLens
open Json

/-- A path, and the reason why the field there is unmodelled. -/
abbrev MemberState := String × Option UnmodelledFieldId

namespace ObservationField
variable {α : Type}

def unmodelledId : ObservationField α → Option UnmodelledFieldId
  | .unmodelled id => some id
  | _ => none

/-- The field itself, then the members of its observed value. -/
def membersAt (field : ObservationField α) (path : String) (nested : α → List MemberState) :
    List MemberState :=
  (path, field.unmodelledId) :: (field.toOption.map nested).getD []

def memberAt (field : ObservationField α) (path : String) : List MemberState :=
  [(path, field.unmodelledId)]

theorem memberAt_eq_membersAt (field : ObservationField α) (path : String) :
    field.memberAt path = field.membersAt path fun _ => [] := by
  rw [memberAt, membersAt]
  cases field.toOption <;> rfl

end ObservationField

/-- The members of the elements of a list, each under the path of its index. -/
def elementStates {α : Type} (path : String) (nested : String → α → List MemberState)
    (values : List α) : List MemberState :=
  values.zipIdx.flatMap fun entry => nested (elementPath path entry.2) entry.1

section Members

def healthCheckStates (path : String) (check : NativeHealthCheckObservation) : List MemberState :=
  check.command.memberAt (path ++ ".Test") ++ check.interval.memberAt (path ++ ".Interval") ++
    check.timeout.memberAt (path ++ ".Timeout") ++ check.retries.memberAt (path ++ ".Retries") ++
    check.startPeriod.memberAt (path ++ ".StartPeriod")

def startupHealthCheckStates (check : NativeStartupHealthCheckObservation) : List MemberState :=
  healthCheckStates startupHealthCheckPath check.toNativeHealthCheckObservation ++
    check.successes.memberAt (startupHealthCheckPath ++ ".Successes")

def restartPolicyStates (policy : NativeRestartPolicyObservation) : List MemberState :=
  policy.name.memberAt "$.HostConfig.RestartPolicy.Name" ++
    policy.maximumRetryCount.memberAt "$.HostConfig.RestartPolicy.MaximumRetryCount"

def loggingStates (logging : NativeLoggingObservation) : List MemberState :=
  logging.driver.memberAt "$.HostConfig.LogConfig.Type" ++
    logging.size.memberAt "$.HostConfig.LogConfig.Size"

def securityStates (security : NativeSecurityObservation) : List MemberState :=
  security.privileged.memberAt "$.HostConfig.Privileged" ++
    security.capAdd.memberAt "$.HostConfig.CapAdd" ++
    security.capDrop.memberAt "$.HostConfig.CapDrop" ++
    security.securityOptions.memberAt "$.HostConfig.SecurityOpt" ++
    security.readOnlyRootFilesystem.memberAt "$.HostConfig.ReadonlyRootfs"

def namespaceStates (namespaces : NativeNamespaceObservation) : List MemberState :=
  namespaces.pid.memberAt "$.HostConfig.PidMode" ++ namespaces.ipc.memberAt "$.HostConfig.IpcMode" ++
    namespaces.uts.memberAt "$.HostConfig.UTSMode" ++
    namespaces.cgroup.memberAt "$.HostConfig.CgroupMode"

def ulimitStates (path : String) (ulimit : NativeUlimitObservation) : List MemberState :=
  ulimit.name.memberAt (path ++ ".Name") ++ ulimit.soft.memberAt (path ++ ".Soft") ++
    ulimit.hard.memberAt (path ++ ".Hard")

def resourceControlStates (controls : NativeResourceControlObservation) : List MemberState :=
  controls.cpuShares.memberAt "$.HostConfig.CpuShares" ++
    controls.cpuPeriod.memberAt "$.HostConfig.CpuPeriod" ++
    controls.cpuQuota.memberAt "$.HostConfig.CpuQuota" ++
    controls.memory.memberAt "$.HostConfig.Memory" ++
    controls.pidsLimit.memberAt "$.HostConfig.PidsLimit" ++
    controls.ulimits.membersAt "$.HostConfig.Ulimits"
      (elementStates "$.HostConfig.Ulimits" ulimitStates)

def controlStates (controls : ContainerB3Decoded) : List MemberState :=
  controls.healthCheck.membersAt "$.Config.Healthcheck"
      (healthCheckStates "$.Config.Healthcheck") ++
    controls.healthFailureAction.memberAt "$.Config.HealthcheckOnFailureAction" ++
    controls.startupHealthCheck.membersAt startupHealthCheckPath startupHealthCheckStates ++
    controls.restartPolicy.membersAt "$.HostConfig.RestartPolicy" restartPolicyStates ++
    controls.logging.membersAt "$.HostConfig.LogConfig" loggingStates ++
    controls.security.membersAt "$.HostConfig" securityStates ++
    controls.namespaces.membersAt "$.HostConfig" namespaceStates ++
    controls.resourceControls.membersAt "$.HostConfig" resourceControlStates

def configurationStates (configuration : ContainerConfigurationDecoded) : List MemberState :=
  configuration.labels.memberAt "$.Config.Labels" ++
    configuration.environment.memberAt "$.Config.Env" ++
    configuration.command.memberAt "$.Config.Cmd" ++
    configuration.entrypoint.memberAt "$.Config.Entrypoint" ++
    configuration.user.memberAt "$.Config.User" ++
    configuration.workingDirectory.memberAt "$.Config.WorkingDir" ++
    configuration.hostname.memberAt "$.Config.Hostname"

def portBindingStates (path : String) (binding : NativePortBindingObservation) :
    List MemberState :=
  binding.hostIp.memberAt (path ++ ".HostIp") ++ binding.hostPort.memberAt (path ++ ".HostPort")

def attachmentStates (attachment : NativeNetworkAttachmentObservation) : List MemberState :=
  attachment.aliases.memberAt (attachment.reference.fieldPath ++ ".Aliases")

/-- The networking members of a container and of a pod have other keys. -/
structure NetworkingKeys where
  front : String
  dnsServers : String
  dnsSearch : String
  dnsOptions : String
  hostEntries : String
  networks : String

def hostConfigKeys : NetworkingKeys :=
  ⟨"$.HostConfig.", "Dns", "DnsSearch", "DnsOptions", "ExtraHosts", "$.NetworkSettings.Networks"⟩

def infraConfigKeys : NetworkingKeys :=
  ⟨"$.InfraConfig.", "DNSServer", "DNSSearch", "DNSOption", "HostAdd", "$.InfraConfig.Networks"⟩

/-- Port bindings are numbered through all ports. -/
def networkingStates (keys : NetworkingKeys) (networking : NativeNetworkingObservation) :
    List MemberState :=
  networking.portBindings.membersAt (keys.front ++ "PortBindings")
      (elementStates (keys.front ++ "PortBindings") portBindingStates) ++
    networking.createNetNs.memberAt (keys.front ++ "CreateNetNS") ++
    networking.hostNetwork.memberAt (keys.front ++ "HostNetwork") ++
    networking.dnsServers.memberAt (keys.front ++ keys.dnsServers) ++
    networking.dnsSearch.memberAt (keys.front ++ keys.dnsSearch) ++
    networking.dnsOptions.memberAt (keys.front ++ keys.dnsOptions) ++
    networking.hostEntries.memberAt (keys.front ++ keys.hostEntries) ++
    networking.networks.memberAt keys.networks ++
    networking.networkAttachments.membersAt keys.networks (fun attachments =>
      attachments.flatMap attachmentStates) ++
    networking.networkOptions.memberAt (keys.front ++ "NetworkOptions") ++
    networking.noManageResolvConf.memberAt (keys.front ++ "NoManageResolvConf") ++
    networking.noManageHosts.memberAt (keys.front ++ "NoManageHosts") ++
    networking.staticIp.memberAt (keys.front ++ "StaticIP") ++
    networking.staticMac.memberAt (keys.front ++ "StaticMAC")

def mountStates (path : String) (mount : ContainerMountObservation) : List MemberState :=
  mount.source.memberAt path ++ mount.localBackingPath.memberAt (path ++ ".Source") ++
    mount.destination.memberAt (path ++ ".Destination") ++ mount.writable.memberAt (path ++ ".RW") ++
    mount.options.memberAt (path ++ ".Options") ++
    mount.selinuxRelabel.memberAt (path ++ ".Mode") ++
    mount.propagation.memberAt (path ++ ".Propagation") ++
    mount.subpath.memberAt (path ++ ".SubPath")

def secretGrantStates (path : String) (grant : ContainerSecretGrantObservation) :
    List MemberState :=
  grant.reference.memberAt path ++ grant.uid.memberAt (path ++ ".UID") ++
    grant.gid.memberAt (path ++ ".GID") ++ grant.mode.memberAt (path ++ ".Mode")

def creationEvidenceStates (evidence : ContainerCreationEvidence) : List MemberState :=
  evidence.image.memberAt createCommandPath ++ evidence.mountRelabels.memberAt createCommandPath

def containerStates (value : ContainerDetails) : List MemberState :=
  configurationStates value.toContainerConfigurationDecoded ++
    controlStates value.toContainerB3Decoded ++
    value.configuredImage.memberAt "$.ImageName" ++ value.localImageId.memberAt "$.Image" ++
    value.relationships.memberAt "$" ++ value.podMembership.memberAt "$.Pod" ++
    value.nativeDependencies.memberAt "$.Dependencies" ++
    value.mounts.membersAt "$.Mounts" (elementStates "$.Mounts" mountStates) ++
    value.secretGrants.membersAt "$.Config.Secrets"
      (elementStates "$.Config.Secrets" secretGrantStates) ++
    value.memorySwappiness.memberAt memorySwappinessPath ++ value.isInfra.memberAt "$.IsInfra" ++
    value.networking.membersAt "$.HostConfig" (networkingStates hostConfigKeys) ++
    value.creationEvidence.membersAt createCommandPath creationEvidenceStates

def podStates (value : PodDetails) : List MemberState :=
  value.labels.memberAt "$.Labels" ++ value.relationships.memberAt "$" ++
    value.createInfra.memberAt "$.CreateInfra" ++
    value.networking.membersAt "$.InfraConfig" (networkingStates infraConfigKeys)

def leaseRangeStates (path : String) (range : NativeNetworkLeaseRange) : List MemberState :=
  range.startIp.memberAt (path ++ ".start_ip") ++ range.endIp.memberAt (path ++ ".end_ip")

def subnetStates (path : String) (subnet : NativeNetworkSubnetObservation) : List MemberState :=
  subnet.cidr.memberAt (path ++ ".subnet") ++ subnet.gateway.memberAt (path ++ ".gateway") ++
    subnet.leaseRange.membersAt (path ++ ".lease_range") (leaseRangeStates (path ++ ".lease_range"))

def routeStates (path : String) (route : NativeNetworkRouteObservation) : List MemberState :=
  route.destination.memberAt (path ++ ".destination") ++
    route.gateway.memberAt (path ++ ".gateway") ++ route.metric.memberAt (path ++ ".metric") ++
    route.routeType.memberAt (path ++ ".route_type")

def networkStates (value : NetworkDetails) : List MemberState :=
  value.labels.memberAt "$.labels" ++ value.internal.memberAt "$.internal" ++
    value.options.memberAt "$.options" ++
    value.subnets.membersAt "$.subnets" (elementStates "$.subnets" subnetStates) ++
    value.routes.membersAt "$.routes" (elementStates "$.routes" routeStates)

def volumeStates (value : VolumeDetails) : List MemberState :=
  value.labels.memberAt "$.Labels" ++ value.ownerUser.memberAt "$.UID" ++
    value.ownerGroup.memberAt "$.GID" ++ value.driver.memberAt "$.Driver" ++
    value.createdAt.memberAt "$.CreatedAt" ++ value.anonymous.memberAt "$.Anonymous"

def imageStates (value : ImageDetails) : List MemberState :=
  value.labels.memberAt "$.Labels" ++ value.repoTags.memberAt "$.RepoTags" ++
    value.repoDigests.memberAt "$.RepoDigests" ++ value.environment.memberAt "$.Config.Env" ++
    value.digest.memberAt "$.Digest" ++ value.created.memberAt "$.Created" ++
    value.author.memberAt "$.Author" ++ value.architecture.memberAt "$.Architecture" ++
    value.operatingSystem.memberAt "$.Os" ++ value.manifestType.memberAt "$.ManifestType"

def secretDriverStates (driver : NativeSecretDriverObservation) : List MemberState :=
  driver.name.memberAt "$.Spec.Driver.Name" ++ driver.options.memberAt "$.Spec.Driver.Options"

def secretStates (value : SecretDetails) : List MemberState :=
  value.labels.memberAt "$.Spec.Labels" ++
    value.driver.membersAt "$.Spec.Driver" secretDriverStates ++
    value.createdAt.memberAt "$.CreatedAt" ++ value.updatedAt.memberAt "$.UpdatedAt"

def NativeDetails.members : NativeDetails → List MemberState
  | .container value => containerStates value
  | .pod value => podStates value
  | .network value => networkStates value
  | .volume value => volumeStates value
  | .image value => imageStates value
  | .secret value => secretStates value

end Members

section AccountedFor

/-- Every unmodelled member has the property, with its reason and its path. -/
def AccountedFor (retains : UnmodelledFieldId → String → Prop) (members : List MemberState) : Prop :=
  ∀ member ∈ members, ∀ id, member.2 = some id → retains id member.1

variable {α : Type} {retains : UnmodelledFieldId → String → Prop}
  {front back : List MemberState} {field : ObservationField α} {path : String}

theorem ObservationField.unmodelledId_eq_some {id : UnmodelledFieldId} :
    field.unmodelledId = some id ↔ field = .unmodelled id := by
  cases field <;> simp [unmodelledId]

theorem accounted_append :
    AccountedFor retains (front ++ back) ↔ AccountedFor retains front ∧ AccountedFor retains back :=
  List.forall_mem_append

theorem accounted_memberAt : AccountedFor retains (field.memberAt path) ↔
    ∀ id, field = .unmodelled id → retains id path := by
  simp only [AccountedFor, ObservationField.memberAt, List.forall_mem_singleton,
    ObservationField.unmodelledId_eq_some]

theorem accounted_membersAt {nested : α → List MemberState} :
    AccountedFor retains (field.membersAt path nested) ↔
      (∀ id, field = .unmodelled id → retains id path) ∧
        ∀ value, field.toOption = some value → AccountedFor retains (nested value) := by
  rw [ObservationField.membersAt, AccountedFor, List.forall_mem_cons]
  simp only [ObservationField.unmodelledId_eq_some]
  refine and_congr_right fun _ => ?_
  cases field.toOption with
  | none => simp
  | some value => simp [AccountedFor]

theorem accounted_absent {nested : α → List MemberState} :
    AccountedFor retains ((.absent : ObservationField α).membersAt path nested) :=
  accounted_membersAt.mpr ⟨nofun, nofun⟩

theorem accounted_malformed {nested : α → List MemberState} :
    AccountedFor retains ((.malformed : ObservationField α).membersAt path nested) :=
  accounted_membersAt.mpr ⟨nofun, nofun⟩

theorem accounted_unavailable {nested : α → List MemberState} :
    AccountedFor retains ((.unavailable : ObservationField α).membersAt path nested) :=
  accounted_membersAt.mpr ⟨nofun, nofun⟩

theorem accounted_notApplicable {nested : α → List MemberState} :
    AccountedFor retains ((.notApplicable : ObservationField α).membersAt path nested) :=
  accounted_membersAt.mpr ⟨nofun, nofun⟩

theorem accounted_observed {nested : α → List MemberState} {value : α}
    {origin : ObservationOrigin} (h : AccountedFor retains (nested value)) :
    AccountedFor retains ((.observed ⟨value, origin⟩ : ObservationField α).membersAt path nested) := by
  rw [accounted_membersAt]
  refine ⟨nofun, fun found hfound => ?_⟩
  cases hfound
  exact h

theorem accounted_ite {condition : Prop} [Decidable condition] {other : ObservationField α}
    {nested : α → List MemberState} (hthen : AccountedFor retains (field.membersAt path nested))
    (helse : AccountedFor retains (other.membersAt path nested)) :
    AccountedFor retains ((if condition then field else other).membersAt path nested) := by
  split_ifs
  · exact hthen
  · exact helse

theorem accounted_elementStates {nested : String → α → List MemberState} {values : List α} :
    AccountedFor retains (elementStates path nested values) ↔
      ∀ entry ∈ values.zipIdx, AccountedFor retains (nested (elementPath path entry.2) entry.1) := by
  simp only [AccountedFor, elementStates, List.forall_mem_flatMap]

end AccountedFor

end PodmanLens
