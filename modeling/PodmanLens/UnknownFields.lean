import PodmanLens.BoundedCollection
import PodmanLens.NativeRecords

/-!
# Unknown fields

Members of an inspect response that no decoder reads are retained by path and JSON kind, never by
value, up to a limit. One walk goes through the top level, the nested objects and arrays and what
the decoders left unmodelled; each of its loops stops at the limit, and so the walk retains the
first fields of all that there are.
-/

namespace PodmanLens
open Json Text

section Fields

def semanticUnmodelledId (kind : ResourceKind) (path : String) : UnmodelledFieldId :=
  match kind with
  | .container =>
    if startsWith "$.HostConfig" path then .containerHostConfig
    else if startsWith "$.Config.Secrets" path then .containerSecretGrant
    else if startsWith "$.Config" path then .containerConfig
    else if startsWith "$.NetworkSettings" path then .containerNetworkSettings
    else if startsWith "$.Mounts" path then .containerMount
    else .containerTopLevel
  | .pod =>
    if startsWith "$.Containers" path then .podMember
    else if startsWith "$.InfraConfig" path then .podInfraConfig
    else .podTopLevel
  | .network =>
    if startsWith "$.subnets" path then .networkSubnet
    else if startsWith "$.routes" path then .networkRoute
    else .networkTopLevel
  | .image => if startsWith "$.Config" path then .imageConfig else .imageTopLevel
  | .secret => if startsWith "$.Spec" path then .secretSpec else .secretTopLevel
  | .volume => .volumeTopLevel

structure UnmodelledField where
  id : UnmodelledFieldId
  path : String
  jsonKind : JsonValueKind
  resource : ResourceIdentity
  evidence : ResourceEvidence
  deriving DecidableEq

/-- Where a member stands, and its kind. -/
abbrev UnknownMember := String × JsonValueKind

def UnmodelledField.new (resource : ResourceIdentity) (evidence : ResourceEvidence)
    (found : UnknownMember) : UnmodelledField :=
  ⟨semanticUnmodelledId resource.kind found.1, found.1, found.2, resource, evidence⟩

/-- One loop of the walk. It offers members up to the first refusal, or the members of one element
after another up to an overflow. -/
inductive UnknownSite
  | members (offered : List UnknownMember)
  | elements (offered : List (List UnknownMember))

end Fields

section Sites

/-- The members that an object has beside the known ones. -/
def unknownObjectMembers (value : Option Value) (path : String) (known : List String) :
    List UnknownMember :=
  (((value.bind Value.asObject).getD []).filter fun member => !known.contains member.1).map
    fun member => (path ++ "." ++ member.1, jsonValueKind member.2)

def arrayElements (value : Option Value) : List (Value × ℕ) :=
  ((value.bind Value.asArray).getD []).zipIdx

def unknownArrayObjectMembers (value : Option Value) (path : String) (known : List String) :
    UnknownSite :=
  .elements ((arrayElements value).map fun entry =>
    unknownObjectMembers (some entry.1) (elementPath path entry.2) known)

def within (object : Members) (key member : String) : Option Value :=
  ((lookup object key).bind Value.asObject).bind fun members => lookup members member

def runtimeOnlyTopLevelFields : ResourceKind → List String
  | .container =>
    ["AppArmorProfile", "Args", "BoundingCaps", "ConmonPidFile", "Created", "Driver",
      "EffectiveCaps", "ExecIDs", "ExitCommand", "GraphDriver", "HostnamePath", "HostsPath",
      "LockNumber", "MountLabel", "Namespace", "OCIConfigPath", "OCIRuntime", "Path", "PidFile",
      "ProcessLabel", "ResolvConfPath", "RestartCount", "Rootfs", "SizeRootFs", "SizeRw", "State",
      "StaticDir"]
  | .image =>
    ["GraphDriver", "History", "NamesHistory", "Parent", "RootFS", "Size", "VirtualSize", "Version"]
  | .volume =>
    ["LockNumber", "MountCount", "Mountpoint", "NeedsChown", "NeedsCopyUp", "Scope"]
  | .network => ["containers", "created"]
  | .pod | .secret => []

def unknownTopLevel (kind : ResourceKind) (object : Members) (known : List String) : UnknownSite :=
  .members (unknownObjectMembers (some (.object object)) "$"
    (known ++ runtimeOnlyTopLevelFields kind))

/-- A network with more than aliases is one unknown member, whatever its details are. -/
def attachmentMarker (entry : String × Value) : List UnknownMember :=
  if entry.2.asObject.any fun members => members.any fun member => member.1 != "Aliases" then
    [(networksPath entry.1, jsonValueKind entry.2)]
  else []

def unknownAttachments (object : Members) : UnknownSite :=
  .elements ((((within object "NetworkSettings" "Networks").bind Value.asObject).getD []).map
    attachmentMarker)

/-- A token of a mount mode that the other members of the mount say as well. -/
def modeTokenRepresented (mount : Members) : String → Bool
  | "z" | "Z" => true
  | "ro" => (lookup mount "RW").bind Value.asBool == some false
  | "rw" => (lookup mount "RW").bind Value.asBool == some true
  | token => (lookup mount "Propagation").bind Value.asStr == some token ||
      (((lookup mount "Options").bind Value.asArray).getD []).any fun option =>
        option.asStr == some token

def unrepresentedMode (entry : Value × ℕ) : Option UnknownMember := do
  let mount ← entry.1.asObject
  let mode ← (lookup mount "Mode").bind Value.asStr
  if ((fields ',' mode).filter fun token => !token.isEmpty).all (modeTokenRepresented mount) then
    none
  else some (elementPath "$.Mounts" entry.2 ++ ".Mode", .string)

def unknownUnrepresentedMountModes (value : Option Value) : UnknownSite :=
  .members ((arrayElements value).filterMap unrepresentedMode)

def unsupportedMount (entry : Value × ℕ) : Option UnknownMember :=
  if ((entry.1.asObject.bind fun mount => lookup mount "Type").bind Value.asStr).any fun kind =>
      (containerMountKind kind).isNone then
    some (elementPath "$.Mounts" entry.2, jsonValueKind entry.1)
  else none

def unknownUnsupportedMounts (value : Option Value) : UnknownSite :=
  .members ((arrayElements value).filterMap unsupportedMount)

variable (library : VersionLibrary) (evidence : ResourceEvidence)

def unsupportedRouteType (entry : Value × ℕ) : Option UnknownMember := do
  let route ← entry.1.asObject
  let routeType ← lookup route "route_type"
  if !nativeNetworkRouteTypesAreAvailable library evidence ||
      (routeType.asStr.bind nativeRouteTypeFromName).isNone then
    some (elementPath "$.routes" entry.2 ++ ".route_type", jsonValueKind routeType)
  else none

def unknownNetworkRouteTypeMembers (value : Option Value) : UnknownSite :=
  .members ((arrayElements value).filterMap (unsupportedRouteType library evidence))

def unknownContainerFields (object : Members) : List UnknownSite :=
  let members (value : Option Value) (path : String) (known : List String) : UnknownSite :=
    .members (unknownObjectMembers value path known)
  [members (lookup object "Config") "$.Config" ["Labels", "Env", "Secrets", "Cmd", "Entrypoint",
      "User", "WorkingDir", "CreateCommand", "Hostname", "Healthcheck",
      "HealthcheckOnFailureAction", "StartupHealthCheck"],
    members (within object "Config" "Healthcheck") "$.Config.Healthcheck"
      ["Test", "Interval", "Timeout", "Retries", "StartPeriod"],
    members (within object "Config" "StartupHealthCheck") "$.Config.StartupHealthCheck"
      ["Test", "Interval", "Timeout", "Retries", "StartPeriod", "Successes"],
    members (lookup object "NetworkSettings") "$.NetworkSettings" ["Networks"],
    unknownAttachments object,
    unknownArrayObjectMembers (lookup object "Mounts") "$.Mounts" ["Type", "Name", "Source",
      "Destination", "RW", "Options", "Mode", "Propagation", "SubPath"],
    unknownUnrepresentedMountModes (lookup object "Mounts"),
    unknownUnsupportedMounts (lookup object "Mounts"),
    unknownArrayObjectMembers (within object "Config" "Secrets") "$.Config.Secrets"
      ["ID", "Name", "UID", "GID", "Mode"],
    members (within object "HostConfig" "RestartPolicy") "$.HostConfig.RestartPolicy"
      ["Name", "MaximumRetryCount"],
    members (within object "HostConfig" "LogConfig") "$.HostConfig.LogConfig" ["Type", "Size"],
    unknownArrayObjectMembers (within object "HostConfig" "Ulimits") "$.HostConfig.Ulimits"
      ["Name", "Soft", "Hard"],
    members (lookup object "HostConfig") "$.HostConfig" ["MemorySwappiness", "CreateNetNS",
      "PortBindings", "Dns", "DnsSearch", "DnsOptions", "NoManageResolvConf", "NoManageHosts",
      "RestartPolicy", "LogConfig", "Privileged", "CapAdd", "CapDrop", "SecurityOpt",
      "ReadonlyRootfs", "PidMode", "IpcMode", "UTSMode", "CgroupMode", "CpuShares", "CpuPeriod",
      "CpuQuota", "Memory", "PidsLimit", "Ulimits"]]

def unknownPodFields (object : Members) : List UnknownSite :=
  [unknownArrayObjectMembers (lookup object "Containers") "$.Containers" ["Id"],
    .members (unknownObjectMembers (lookup object "InfraConfig") "$.InfraConfig" ["PortBindings",
      "HostNetwork", "DNSServer", "DNSSearch", "DNSOption", "Networks", "NetworkOptions",
      "NoManageResolvConf", "NoManageHosts", "StaticMAC", "StaticIP"])]

/-- The lease range of each subnet has a loop of its own. -/
def unknownLeaseRangeMembers (entry : Value × ℕ) : UnknownSite :=
  .members (unknownObjectMembers (entry.1.asObject.bind fun subnet => lookup subnet "lease_range")
    (elementPath "$.subnets" entry.2 ++ ".lease_range") ["start_ip", "end_ip"])

def unknownNetworkNestedFields (object : Members) : List UnknownSite :=
  unknownArrayObjectMembers (lookup object "subnets") "$.subnets"
      ["subnet", "gateway", "lease_range"] ::
    (arrayElements (lookup object "subnets")).map unknownLeaseRangeMembers ++
    [unknownArrayObjectMembers (lookup object "routes") "$.routes"
        ["destination", "gateway", "metric", "route_type"],
      unknownNetworkRouteTypeMembers library evidence (lookup object "routes")]

def unknownSecretFields (object : Members) : List UnknownSite :=
  [.members (unknownObjectMembers (lookup object "Spec") "$.Spec"
      ["Name", "Labels", "Driver", "SecretData"]),
    .members (unknownObjectMembers (within object "Spec" "Driver") "$.Spec.Driver"
      ["Name", "Options"])]

def unknownNestedFields (kind : ResourceKind) (object : Members) : List UnknownSite :=
  match kind with
  | .container => unknownContainerFields object
  | .pod => unknownPodFields object
  | .network => unknownNetworkNestedFields library evidence object
  | .image => [.members (unknownObjectMembers (lookup object "Config") "$.Config" ["Env"])]
  | .secret => unknownSecretFields object
  | .volume => []

end Sites

section Walk
variable (resource : ResourceIdentity) (evidence : ResourceEvidence)

abbrev UnknownFieldCollector := BoundedCollection UnmodelledField

def UnknownSite.walk : UnknownSite → UnknownFieldCollector → UnknownFieldCollector
  | .members offered => .pushWhile (offered.map (.new resource evidence))
  | .elements offered =>
    .untilOverflow (fun members => .pushWhile (members.map (.new resource evidence))) offered

/-- What the loop would offer without a limit. -/
def UnknownSite.offered : UnknownSite → List UnknownMember
  | .members offered => offered
  | .elements offered => offered.flatten

def walkUnknownFields (sites : List UnknownSite) (collected : UnknownFieldCollector) :
    UnknownFieldCollector :=
  sites.foldl (fun collected site => site.walk resource evidence collected) collected

variable {resource evidence}

theorem UnknownSite.walk_eq_extend (site : UnknownSite) (collected : UnknownFieldCollector) :
    site.walk resource evidence collected =
      collected.extend (site.offered.map (.new resource evidence)) := by
  cases site with
  | members offered => exact BoundedCollection.pushWhile_eq_extend _ _
  | elements offered =>
      rw [walk, BoundedCollection.untilOverflow_eq_extend
        (fun _ _ => BoundedCollection.pushWhile_eq_extend _ _), UnknownSite.offered,
        List.map_flatten, List.flatMap_def]

/-- The whole walk is one loop over everything that its loops offer. -/
theorem walkUnknownFields_eq_extend (sites : List UnknownSite)
    (collected : UnknownFieldCollector) : walkUnknownFields resource evidence sites collected =
      collected.extend ((sites.flatMap UnknownSite.offered).map (.new resource evidence)) := by
  induction sites generalizing collected with
  | nil => exact (BoundedCollection.extend_nil _).symm
  | cons site rest ih =>
      rw [walkUnknownFields, List.foldl_cons]
      refine (ih _).trans ?_
      rw [site.walk_eq_extend, BoundedCollection.extend_append, List.flatMap_cons, List.map_append]

end Walk

end PodmanLens
