import PodmanLens.Settings

/-!
# Container runtime settings

Health checks, logging, security, resource controls and namespace modes. A health command is
public, inline but protected, or external; durations and counters are bounded by the signed 64-bit
and 32-bit ranges their wire forms use.
-/

namespace PodmanLens
open Text Validated

def maxItems : ℕ := 64
def maxRuntimeBytes : ℕ := 4096
def maxSigned64 : ℕ := 9223372036854775807

def validText (value : String) : Bool := validNonControl maxRuntimeBytes value

def isHealthCommand (value : String) : Bool := !value.isEmpty && validText value

abbrev PublicHealthCommand := Checked isHealthCommand

structure SensitiveInlineHealthCommand where
  protectedValue : Checked isHealthCommand
  deriving DecidableEq

/-- The program of an argument array is not empty. -/
def validHealthArguments (values : List String) : Bool :=
  !(values.isEmpty || decide (maxItems < values.length) || values.head?.any String.isEmpty) &&
    values.all validText

structure PublicHealthArgumentArray where
  values : List String
  accepted : validHealthArguments values = true
  deriving DecidableEq

structure SensitiveInlineHealthArgumentArray where
  protectedValues : List String
  accepted : validHealthArguments protectedValues = true
  deriving DecidableEq

/-- A shell text or an argument array, each in three degrees of protection. -/
inductive HealthCommand
  | shell (command : PublicHealthCommand)
  | exec (arguments : PublicHealthArgumentArray)
  | sensitiveInlineShell (command : SensitiveInlineHealthCommand)
  | sensitiveInlineExec (arguments : SensitiveInlineHealthArgumentArray)
  | externalShell (reference : SensitiveInputReference)
  | externalExec (reference : SensitiveInputReference)
  deriving DecidableEq

abbrev HealthDuration := { nanoseconds : ℕ // 0 < nanoseconds ∧ nanoseconds ≤ maxSigned64 }
abbrev HealthRetries := { value : ℕ // 0 < value ∧ value ≤ maxSigned32 }
abbrev StartupHealthRetries := { value : ℕ // value ≤ maxSigned32 }
abbrev StartupHealthSuccesses := { value : ℕ // value ≤ maxSigned32 }
abbrev HealthTimeout := { duration : HealthDuration // 1000000000 ≤ duration.val }
abbrev HealthStartPeriod := { nanoseconds : ℕ // nanoseconds ≤ maxSigned64 }

inductive HealthInterval
  | disabled
  | every (duration : HealthDuration)
  deriving DecidableEq

inductive HealthOnFailure
  | none
  | kill
  | restart
  | stop
  deriving DecidableEq

/-- What is not set is left to the engine. -/
structure ConfiguredHealthCheck where
  command : HealthCommand
  interval : Option HealthInterval := none
  timeout : Option HealthTimeout := none
  retries : Option HealthRetries := none
  startPeriod : Option HealthStartPeriod := none
  onFailure : Option HealthOnFailure := none
  deriving DecidableEq

inductive HealthCheck
  | disabled
  | command (configured : ConfiguredHealthCheck)
  deriving DecidableEq

def HealthCheck.isCommand : HealthCheck → Bool
  | .command _ => true
  | .disabled => false

structure StartupHealthCheck where
  command : HealthCommand
  interval : Option HealthInterval := none
  timeout : Option HealthTimeout := none
  retries : Option StartupHealthRetries := none
  successes : Option StartupHealthSuccesses := none
  deriving DecidableEq

inductive LogDriver
  | journald
  | k8sFile
  deriving DecidableEq

abbrev LogSize := { bytes : ℕ // 0 < bytes ∧ bytes ≤ maxSigned64 }

structure LoggingSettings where
  driver : Option LogDriver := none
  maxSize : Option LogSize := none
  journaldLabels : DistinctList sameLabelKey maxItems := .empty
  deriving DecidableEq

def LoggingSettings.addJournaldLabel (logging : LoggingSettings) (label : Label) :
    PodmanLensResult LoggingSettings := do
  return { logging with
    journaldLabels := ← logging.journaldLabels.add .invalidDeploymentIntent
      .deploymentDuplicateResource label }

def capabilities : List String :=
  ["AUDIT_CONTROL", "AUDIT_READ", "AUDIT_WRITE", "BLOCK_SUSPEND", "BPF", "CHECKPOINT_RESTORE",
    "CHOWN", "DAC_OVERRIDE", "DAC_READ_SEARCH", "FOWNER", "FSETID", "IPC_LOCK", "IPC_OWNER", "KILL",
    "LEASE", "LINUX_IMMUTABLE", "MAC_ADMIN", "MAC_OVERRIDE", "MKNOD", "NET_ADMIN",
    "NET_BIND_SERVICE", "NET_BROADCAST", "NET_RAW", "PERFMON", "SETFCAP", "SETGID", "SETPCAP",
    "SETUID", "SYS_ADMIN", "SYS_BOOT", "SYS_CHROOT", "SYS_MODULE", "SYS_NICE", "SYS_PACCT",
    "SYS_PTRACE", "SYS_RAWIO", "SYS_RESOURCE", "SYS_TIME", "SYS_TTY_CONFIG", "SYSLOG",
    "WAKE_ALARM"]

def isLinuxCapability (value : String) : Bool := capabilities.contains value

abbrev LinuxCapability := Checked isLinuxCapability

structure SecuritySettings where
  privileged : Option Bool := none
  noNewPrivileges : Option Bool := none
  readOnlyFilesystem : Option Bool := none
  readWriteTmpfs : Option Bool := none
  capAdd : DistinctList (fun a b : LinuxCapability => a == b) maxItems := .empty
  capDrop : DistinctList (fun a b : LinuxCapability => a == b) maxItems := .empty
  deriving DecidableEq

inductive RlimitValue
  | finite (value : UInt64)
  | unlimited
  deriving DecidableEq

def RlimitValue.isUnlimited : RlimitValue → Bool
  | .unlimited => true
  | .finite _ => false

inductive RlimitKind
  | noFile
  | nProc
  deriving DecidableEq

/-- A soft limit does not exceed the hard one. -/
def orderedLimits : RlimitValue → RlimitValue → Bool
  | .unlimited, .finite _ => false
  | .finite soft, .finite hard => soft ≤ hard
  | _, _ => true

structure Rlimit where
  kind : RlimitKind
  soft : RlimitValue
  hard : RlimitValue
  ordered : orderedLimits soft hard = true
  deriving DecidableEq

def Rlimit.new (kind : RlimitKind) (soft hard : RlimitValue) : PodmanLensResult Rlimit :=
  if h : orderedLimits soft hard = true then .ok ⟨kind, soft, hard, h⟩
  else .error .invalidDeploymentIntent

def sameRlimitKind (a b : Rlimit) : Bool := a.kind == b.kind

def fitsCpuShares (value : ℤ) : Prop := 2 ≤ value ∧ value ≤ 262144
def fitsCpuPeriod (value : ℤ) : Prop := 1000 ≤ value ∧ value ≤ 1000000
def fitsCpuQuota (value : ℤ) : Prop := 1000 ≤ value ∧ value ≤ maxSigned64
def fitsMemoryBytes (value : ℤ) : Prop := 0 < value ∧ value ≤ maxSigned64
def fitsPids (value : ℤ) : Prop := value ≠ 0 ∧ -1 ≤ value ∧ value ≤ maxSigned64

/-- Every control carries the range that its setter checks. -/
structure ContainerResourceControls where
  cpuShares : Option { value : ℤ // fitsCpuShares value } := none
  cpuPeriod : Option { value : ℤ // fitsCpuPeriod value } := none
  cpuQuota : Option { value : ℤ // fitsCpuQuota value } := none
  memoryBytes : Option { value : ℤ // fitsMemoryBytes value } := none
  pids : Option { value : ℤ // fitsPids value } := none
  rlimits : DistinctList sameRlimitKind maxItems := .empty
  deriving DecidableEq

def ContainerResourceControls.addRlimit (controls : ContainerResourceControls) (value : Rlimit) :
    PodmanLensResult ContainerResourceControls := do
  return { controls with
    rlimits := ← controls.rlimits.add .invalidDeploymentIntent .deploymentDuplicateResource value }

inductive NamespaceMode
  | «private»
  | host
  deriving DecidableEq

inductive IpcNamespaceMode
  | «private»
  | host
  | shareable
  | none
  deriving DecidableEq

structure ContainerNamespaceSettings where
  pid : Option NamespaceMode := none
  ipc : Option IpcNamespaceMode := none
  uts : Option NamespaceMode := none
  cgroup : Option NamespaceMode := none
  deriving DecidableEq

def ContainerNamespaceSettings.isEmpty (namespaces : ContainerNamespaceSettings) : Bool :=
  namespaces == {}

structure ContainerRuntimeSettings where
  health : Option HealthCheck := none
  startupHealth : Option StartupHealthCheck := none
  logging : LoggingSettings := {}
  security : SecuritySettings := {}
  resources : ContainerResourceControls := {}
  namespaces : ContainerNamespaceSettings := {}
  deriving DecidableEq

theorem controlFree_of_isLinuxCapability {value : String} (h : isLinuxCapability value = true) :
    ControlFree value := by
  have hall : ∀ known ∈ capabilities, ControlFree known := by decide
  exact hall value (List.contains_iff_mem.mp h)

end PodmanLens
