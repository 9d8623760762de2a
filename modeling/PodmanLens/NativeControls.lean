import PodmanLens.CreateCommand
import PodmanLens.NativeNetworks

/-!
# Inspected controls

How a container is restarted, checked, logged and confined. A name outside the reviewed ones is not
malformed: the field becomes unmodelled, and the path of the name is noted with its JSON kind. A
capability list notes every element it does not know, and stops at one that is no string.
-/

namespace PodmanLens
open Json Text

inductive NativeRestartPolicyName
  | no
  | always
  | onFailure
  | unlessStopped
  deriving DecidableEq

structure NativeRestartPolicyObservation where
  name : ObservationField NativeRestartPolicyName
  maximumRetryCount : ObservationField ℕ
  deriving DecidableEq

inductive NativeHealthCommand
  | disabled
  | exec (arguments : List String)
  | shell (arguments : List String)
  deriving DecidableEq

structure NativeHealthCheckObservation where
  command : ObservationField NativeHealthCommand
  interval : ObservationField ℤ
  timeout : ObservationField ℤ
  retries : ObservationField ℕ
  startPeriod : ObservationField ℤ
  deriving DecidableEq

inductive NativeHealthFailureAction
  | none
  | kill
  | restart
  | stop
  deriving DecidableEq

structure NativeStartupHealthCheckObservation extends NativeHealthCheckObservation where
  successes : ObservationField ℕ
  deriving DecidableEq

inductive NativeLogDriver
  | journald
  | k8sFile
  deriving DecidableEq

structure NativeLoggingObservation where
  driver : ObservationField NativeLogDriver
  size : ObservationField String
  deriving DecidableEq

abbrev NativeCapability := String

/-- Of security options only their number is kept. -/
abbrev NativeOpaqueSecurityOptions := ℕ

structure NativeSecurityObservation where
  privileged : ObservationField Bool
  capAdd : ObservationField (List NativeCapability)
  capDrop : ObservationField (List NativeCapability)
  securityOptions : ObservationField NativeOpaqueSecurityOptions
  readOnlyRootFilesystem : ObservationField Bool
  deriving DecidableEq

inductive NativeNamespaceMode
  | «private»
  | host
  deriving DecidableEq

inductive NativeIpcNamespaceMode
  | «private»
  | host
  | shareable
  | none
  deriving DecidableEq

structure NativeNamespaceObservation where
  pid : ObservationField NativeNamespaceMode
  ipc : ObservationField NativeIpcNamespaceMode
  uts : ObservationField NativeNamespaceMode
  cgroup : ObservationField NativeNamespaceMode
  deriving DecidableEq

structure NativeUlimitObservation where
  name : ObservationField String
  soft : ObservationField ℤ
  hard : ObservationField ℤ
  deriving DecidableEq

structure NativeResourceControlObservation where
  cpuShares : ObservationField ℕ
  cpuPeriod : ObservationField ℕ
  cpuQuota : ObservationField ℤ
  memory : ObservationField ℤ
  pidsLimit : ObservationField ℤ
  ulimits : ObservationField (List NativeUlimitObservation)
  deriving DecidableEq

def startsWith (front text : String) : Bool := front.toList.isPrefixOf text.toList

section Names
variable {α : Type} (identity : ResourceIdentity)

def nativeUnmodelledField (path : String) (value : Value) : Decoder (ObservationField α) := do
  Noted.note (.unmodelled path (jsonValueKind value))
  return .unmodelled (if startsWith "$.Config" path then .containerConfig
    else .containerHostConfig)

/-- A reviewed name is observed, another admissible one is unmodelled. -/
def namedField (fromName : String → Option α) (admissible : String → Bool) (value : Option Value)
    (path : String) : Decoder (ObservationField α) :=
  match supplied value with
  | none => return .absent
  | some (.string name) =>
    match fromName name with
    | some found => return .observed ⟨found, .effective⟩
    | none =>
      if admissible name then nativeUnmodelledField path (.string name)
      else nativeMalformedField identity path
  | some _ => nativeMalformedField identity path

/-- The members of an object, decoded one by one. -/
def objectField (reader : Members → Decoder α) (value : Option Value) (path : String) :
    Decoder (ObservationField α) :=
  match supplied value with
  | none => return .absent
  | some (.object members) => do
    let decoded ← reader members
    return .observed ⟨decoded, .effective⟩
  | some _ => nativeMalformedField identity path

end Names

section RestartPolicy
variable (identity : ResourceIdentity)

def restartPolicyFromName : String → Option NativeRestartPolicyName
  | "" | "no" => some .no
  | "always" => some .always
  | "on-failure" => some .onFailure
  | "unless-stopped" => some .unlessStopped
  | _ => none

def decodeNativeRestartPolicy (value : Option Value) :
    Decoder (ObservationField NativeRestartPolicyObservation) :=
  objectField identity (fun policy => do
    let name ← namedField identity restartPolicyFromName (fun _ => true) (lookup policy "Name")
      "$.HostConfig.RestartPolicy.Name"
    let maximumRetryCount ← nativeU64Field identity (lookup policy "MaximumRetryCount")
      "$.HostConfig.RestartPolicy.MaximumRetryCount" .effective
    return ⟨name, maximumRetryCount⟩) value "$.HostConfig.RestartPolicy"

end RestartPolicy

section Health
variable (identity : ResourceIdentity)

/-- The first word says how the others are run; `none` is a word that is not reviewed. -/
def healthCommandFromWords : List String → Option (Except Unit NativeHealthCommand)
  | ["NONE"] => some (.ok .disabled)
  | "CMD" :: argument :: rest => some (.ok (.exec (argument :: rest)))
  | "CMD-SHELL" :: argument :: rest => some (.ok (.shell (argument :: rest)))
  | [] | "NONE" :: _ | ["CMD"] | ["CMD-SHELL"] => some (.error ())
  | _ => none

def nativeHealthCommand (value : Option Value) (path : String) :
    Decoder (ObservationField NativeHealthCommand) :=
  match supplied value with
  | none => return .absent
  | some (.array values) =>
    match values.mapM Value.asStr with
    | none => nativeMalformedField identity path
    | some words =>
      match healthCommandFromWords words with
      | some (.ok command) => return .observed ⟨command, .effective⟩
      | some (.error ()) => nativeMalformedField identity path
      | none => nativeUnmodelledField path (.array values)
  | some _ => nativeMalformedField identity path

/-- The members that both health checks have. -/
def nativeHealthMembers (check : Members) (path : String) : Decoder NativeHealthCheckObservation := do
  let command ← nativeHealthCommand identity (lookup check "Test") (path ++ ".Test")
  let interval ← nativeI64Field identity (lookup check "Interval") (path ++ ".Interval") .effective
  let timeout ← nativeI64Field identity (lookup check "Timeout") (path ++ ".Timeout") .effective
  let retries ← nativeU64Field identity (lookup check "Retries") (path ++ ".Retries") .effective
  let startPeriod ← nativeI64Field identity (lookup check "StartPeriod") (path ++ ".StartPeriod")
    .effective
  return ⟨command, interval, timeout, retries, startPeriod⟩

def decodeNativeHealthCheck (value : Option Value) (path : String) :
    Decoder (ObservationField NativeHealthCheckObservation) :=
  objectField identity (fun check => nativeHealthMembers identity check path) value path

def startupHealthCheckPath : String := "$.Config.StartupHealthCheck"

def decodeNativeStartupHealthCheck (value : Option Value) :
    Decoder (ObservationField NativeStartupHealthCheckObservation) :=
  objectField identity (fun check => do
    let members ← nativeHealthMembers identity check startupHealthCheckPath
    let successes ← nativeU64Field identity (lookup check "Successes")
      (startupHealthCheckPath ++ ".Successes") .effective
    return ⟨members, successes⟩) value startupHealthCheckPath

def healthFailureActionFromName : String → Option NativeHealthFailureAction
  | "none" => some .none
  | "kill" => some .kill
  | "restart" => some .restart
  | "stop" => some .stop
  | _ => none

def decodeNativeHealthFailureAction (value : Option Value) :
    Decoder (ObservationField NativeHealthFailureAction) :=
  namedField identity healthFailureActionFromName (fun _ => true) value
    "$.Config.HealthcheckOnFailureAction"

end Health

section Logging
variable (identity : ResourceIdentity)

def logDriverFromName : String → Option NativeLogDriver
  | "journald" => some .journald
  | "k8s-file" => some .k8sFile
  | _ => none

def decodeNativeLogging (value : Option Value) :
    Decoder (ObservationField NativeLoggingObservation) :=
  objectField identity (fun logging => do
    let driver ← namedField identity logDriverFromName (fun _ => true) (lookup logging "Type")
      "$.HostConfig.LogConfig.Type"
    let size ← nativeStringField identity (lookup logging "Size") "$.HostConfig.LogConfig.Size"
      .effective
    return ⟨driver, size⟩) value "$.HostConfig.LogConfig"

end Logging

section Security
variable (identity : ResourceIdentity)

def nativeCapabilityNames : List String :=
  ["AUDIT_CONTROL", "AUDIT_READ", "AUDIT_WRITE", "BLOCK_SUSPEND", "BPF", "CHECKPOINT_RESTORE",
    "CHOWN", "DAC_OVERRIDE", "DAC_READ_SEARCH", "FOWNER", "FSETID", "IPC_LOCK", "IPC_OWNER", "KILL",
    "LEASE", "LINUX_IMMUTABLE", "MAC_ADMIN", "MAC_OVERRIDE", "MKNOD", "NET_ADMIN",
    "NET_BIND_SERVICE", "NET_BROADCAST", "NET_RAW", "PERFMON", "SETFCAP", "SETGID", "SETPCAP",
    "SETUID", "SYS_ADMIN", "SYS_BOOT", "SYS_CHROOT", "SYS_MODULE", "SYS_NICE", "SYS_PACCT",
    "SYS_PTRACE", "SYS_RAWIO", "SYS_RESOURCE", "SYS_TIME", "SYS_TTY_CONFIG", "SYSLOG", "WAKE_ALARM"]

def isNativeCapability (capability : String) : Bool :=
  (stripText "CAP_" capability).any nativeCapabilityNames.contains

/-- The elements up to the first one that is no string; an unknown one is noted. -/
def capabilityElements (path : String) :
    List (Value × ℕ) → Decoder (Except Unit (List (Option NativeCapability)))
  | [] => return .ok []
  | (value, index) :: rest =>
    match value.asStr with
    | none => do
      noteOccurrence identity .resourceMalformed path index
      return .error ()
    | some capability =>
      if isNativeCapability capability then do
        return (← capabilityElements path rest).map (some capability :: ·)
      else do
        Noted.note (.unmodelled (elementPath path index) .string)
        return (← capabilityElements path rest).map (none :: ·)

def nativeCapabilities (value : Option Value) (path : String) :
    Decoder (ObservationField (List NativeCapability)) :=
  match supplied value with
  | none => return .absent
  | some (.array values) => do
    return match ← capabilityElements identity path values.zipIdx with
      | .error () => .malformed
      | .ok elements =>
        match elements.mapM id with
        | some decoded => .observed ⟨decoded, .effective⟩
        | none => .unmodelled .containerHostConfig
  | some _ => nativeMalformedField identity path

def nativeSecurityOptions (value : Option Value) :
    Decoder (ObservationField NativeOpaqueSecurityOptions) :=
  match supplied value with
  | none => return .absent
  | some (.array values) =>
    match values.findIdx? fun value => value.asStr.isNone with
    | some index => nativeMalformedOccurrence identity "$.HostConfig.SecurityOpt" index
    | none => return .observed ⟨values.length, .effective⟩
  | some _ => nativeMalformedField identity "$.HostConfig.SecurityOpt"

def decodeNativeSecurity (hostConfig : Members) : Decoder NativeSecurityObservation := do
  let privileged ← nativeBoolField identity (lookup hostConfig "Privileged")
    "$.HostConfig.Privileged" .effective
  let capAdd ← nativeCapabilities identity (lookup hostConfig "CapAdd") "$.HostConfig.CapAdd"
  let capDrop ← nativeCapabilities identity (lookup hostConfig "CapDrop") "$.HostConfig.CapDrop"
  let securityOptions ← nativeSecurityOptions identity (lookup hostConfig "SecurityOpt")
  let readOnlyRootFilesystem ← nativeBoolField identity (lookup hostConfig "ReadonlyRootfs")
    "$.HostConfig.ReadonlyRootfs" .effective
  return ⟨privileged, capAdd, capDrop, securityOptions, readOnlyRootFilesystem⟩

end Security

section Namespaces
variable (identity : ResourceIdentity)

def nativeModeIsSyntacticallyValid (value : String) : Bool :=
  !value.isEmpty && value.utf8ByteSize ≤ 256 && !value.toList.any isControl

def namespaceModeFromName (emptyIsPrivate : Bool) : String → Option NativeNamespaceMode
  | "" => if emptyIsPrivate then some .private else none
  | "private" => some .private
  | "host" => some .host
  | _ => none

def nativeNamespaceMode (value : Option Value) (path : String) (emptyIsPrivate : Bool) :
    Decoder (ObservationField NativeNamespaceMode) :=
  namedField identity (namespaceModeFromName emptyIsPrivate) nativeModeIsSyntacticallyValid value
    path

def ipcNamespaceModeFromName : String → Option NativeIpcNamespaceMode
  | "" | "private" => some .private
  | "host" => some .host
  | "shareable" => some .shareable
  | "none" => some .none
  | _ => none

def nativeIpcNamespaceMode (value : Option Value) :
    Decoder (ObservationField NativeIpcNamespaceMode) :=
  namedField identity ipcNamespaceModeFromName nativeModeIsSyntacticallyValid value
    "$.HostConfig.IpcMode"

def decodeNativeNamespaces (hostConfig : Members) : Decoder NativeNamespaceObservation := do
  let pid ← nativeNamespaceMode identity (lookup hostConfig "PidMode") "$.HostConfig.PidMode" true
  let ipc ← nativeIpcNamespaceMode identity (lookup hostConfig "IpcMode")
  let uts ← nativeNamespaceMode identity (lookup hostConfig "UTSMode") "$.HostConfig.UTSMode" true
  let cgroup ← nativeNamespaceMode identity (lookup hostConfig "CgroupMode")
    "$.HostConfig.CgroupMode" false
  return ⟨pid, ipc, uts, cgroup⟩

end Namespaces

section ResourceControls
variable (identity : ResourceIdentity)

def nativeUlimit (entry : Value × ℕ) : Decoder (Option NativeUlimitObservation) :=
  match entry.1.asObject with
  | none => do
    noteOccurrence identity .resourceMalformed "$.HostConfig.Ulimits" entry.2
    return none
  | some ulimit => do
    let path := elementPath "$.HostConfig.Ulimits" entry.2
    let name ← nativeStringField identity (lookup ulimit "Name") (path ++ ".Name") .effective
    let soft ← nativeI64Field identity (lookup ulimit "Soft") (path ++ ".Soft") .effective
    let hard ← nativeI64Field identity (lookup ulimit "Hard") (path ++ ".Hard") .effective
    return if name.isMalformed || soft.isMalformed || hard.isMalformed then none
      else some ⟨name, soft, hard⟩

def decodeNativeUlimits (value : Option Value) :
    Decoder (ObservationField (List NativeUlimitObservation)) :=
  match supplied value with
  | none => return .absent
  | some (.array values) => do
    let elements ← values.zipIdx.mapM (nativeUlimit identity)
    return elementsField elements .effective
  | some _ => nativeMalformedField identity "$.HostConfig.Ulimits"

def decodeNativeResourceControls (hostConfig : Members) :
    Decoder NativeResourceControlObservation := do
  let cpuShares ← nativeU64Field identity (lookup hostConfig "CpuShares") "$.HostConfig.CpuShares"
    .effective
  let cpuPeriod ← nativeU64Field identity (lookup hostConfig "CpuPeriod") "$.HostConfig.CpuPeriod"
    .effective
  let cpuQuota ← nativeI64Field identity (lookup hostConfig "CpuQuota") "$.HostConfig.CpuQuota"
    .effective
  let memory ← nativeI64Field identity (lookup hostConfig "Memory") "$.HostConfig.Memory" .effective
  let pidsLimit ← nativeI64Field identity (lookup hostConfig "PidsLimit") "$.HostConfig.PidsLimit"
    .effective
  let ulimits ← decodeNativeUlimits identity (lookup hostConfig "Ulimits")
  return ⟨cpuShares, cpuPeriod, cpuQuota, memory, pidsLimit, ulimits⟩

end ResourceControls

section Controls
variable (identity : ResourceIdentity)

structure ContainerB3Decoded where
  healthCheck : ObservationField NativeHealthCheckObservation
  healthFailureAction : ObservationField NativeHealthFailureAction
  startupHealthCheck : ObservationField NativeStartupHealthCheckObservation
  restartPolicy : ObservationField NativeRestartPolicyObservation
  logging : ObservationField NativeLoggingObservation
  security : ObservationField NativeSecurityObservation
  namespaces : ObservationField NativeNamespaceObservation
  resourceControls : ObservationField NativeResourceControlObservation
  deriving DecidableEq

/-- A field of a configuration object. One that is no object is noted by each of its fields. -/
def configField {α : Type} (config : Option Value) (path : String)
    (reader : Members → Decoder (ObservationField α)) : Decoder (ObservationField α) :=
  match supplied config with
  | none => return .absent
  | some (.object members) => reader members
  | some _ => nativeMalformedField identity path

/-- The object is observed with the members it was read for. -/
def observedMembers {α : Type} (reader : Members → Decoder α) (members : Members) :
    Decoder (ObservationField α) := do
  let decoded ← reader members
  return .observed ⟨decoded, .effective⟩

def fromConfig {α : Type} (object : Members) :
    (Members → Decoder (ObservationField α)) → Decoder (ObservationField α) :=
  configField identity (lookup object "Config") "$.Config"

def fromHostConfig {α : Type} (object : Members) :
    (Members → Decoder (ObservationField α)) → Decoder (ObservationField α) :=
  configField identity (lookup object "HostConfig") "$.HostConfig"

def decodeContainerB3 (object : Members) : Decoder ContainerB3Decoded := do
  let healthCheck ← fromConfig identity object fun config =>
    decodeNativeHealthCheck identity (lookup config "Healthcheck") "$.Config.Healthcheck"
  let healthFailureAction ← fromConfig identity object fun config =>
    decodeNativeHealthFailureAction identity (lookup config "HealthcheckOnFailureAction")
  let startupHealthCheck ← fromConfig identity object fun config =>
    decodeNativeStartupHealthCheck identity (lookup config "StartupHealthCheck")
  let restartPolicy ← fromHostConfig identity object fun hostConfig =>
    decodeNativeRestartPolicy identity (lookup hostConfig "RestartPolicy")
  let logging ← fromHostConfig identity object fun hostConfig =>
    decodeNativeLogging identity (lookup hostConfig "LogConfig")
  let security ← fromHostConfig identity object (observedMembers (decodeNativeSecurity identity))
  let namespaces ←
    fromHostConfig identity object (observedMembers (decodeNativeNamespaces identity))
  let resourceControls ←
    fromHostConfig identity object (observedMembers (decodeNativeResourceControls identity))
  return ⟨healthCheck, healthFailureAction, startupHealthCheck, restartPolicy, logging, security,
    namespaces, resourceControls⟩

end Controls

end PodmanLens
