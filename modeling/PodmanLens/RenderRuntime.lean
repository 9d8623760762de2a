import PodmanLens.RenderMount

/-!
# Rendered container runtime settings

Health checks, logging, security, namespaces and resource controls. Protected and external health
commands, and settings a reviewed target does not support, end rendering with the field they
belong to.
-/

namespace PodmanLens
open Text Json

section Names

def HealthOnFailure.asStr : HealthOnFailure → String
  | .none => "none"
  | .kill => "kill"
  | .restart => "restart"
  | .stop => "stop"

def HealthOnFailure.code : HealthOnFailure → ℤ
  | .none => 0
  | .kill => 2
  | .restart => 3
  | .stop => 4

def LogDriver.asStr : LogDriver → String
  | .journald => "journald"
  | .k8sFile => "k8s-file"

def NamespaceMode.asStr : NamespaceMode → String
  | .private => "private"
  | .host => "host"

def IpcNamespaceMode.asStr : IpcNamespaceMode → String
  | .private => "private"
  | .host => "host"
  | .shareable => "shareable"
  | .none => "none"

def RlimitKind.cliName : RlimitKind → String
  | .noFile => "nofile"
  | .nProc => "nproc"

def RlimitKind.asStr : RlimitKind → String
  | .noFile => "RLIMIT_NOFILE"
  | .nProc => "RLIMIT_NPROC"

def boolText (value : Bool) : String := if value then "true" else "false"

end Names

section Unsupported

def healthCommandIsSensitive : HealthCommand → Bool
  | .sensitiveInlineShell _ | .sensitiveInlineExec _ | .externalShell _ | .externalExec _ => true
  | .shell _ | .exec _ => false

def configuredCommand : HealthCheck → Option HealthCommand
  | .command configured => some configured.command
  | .disabled => none

/-- The field when the condition holds. -/
def fieldWhen (condition : Bool) (field : String) : List String := if condition then [field] else []

def unsupportedRuntimeFields (container : ContainerIntent) (version : String) : List String :=
  let runtime := container.runtime
  let logging := runtime.logging
  let security := runtime.security
  let labelled := !logging.journaldLabels.values.isEmpty
  fieldWhen (runtime.startupHealth.isSome && !runtime.health.any HealthCheck.isCommand)
    "runtime.startup_health_requires_health" ++
  fieldWhen ((runtime.health.bind configuredCommand).any healthCommandIsSensitive)
    "runtime.health.command" ++
  fieldWhen (runtime.startupHealth.any fun startup => healthCommandIsSensitive startup.command)
    "runtime.startup_health.command" ++
  fieldWhen (labelled && !supportsJournaldLabels version)
    "runtime.logging.journald_labels.target_version" ++
  fieldWhen (logging.driver.isNone && (logging.maxSize.isSome || labelled))
    "runtime.logging.driver" ++
  fieldWhen (labelled && logging.driver != some .journald) "runtime.logging.journald_labels" ++
  fieldWhen (logging.maxSize.isSome && logging.driver != some .k8sFile)
    "runtime.logging.max_size" ++
  fieldWhen (runtime.resources.rlimits.values.any rlimitIsUnlimited &&
    !supportsUnlimitedRlimit version) "runtime.resources.rlimits.unlimited.target_version" ++
  fieldWhen (security.privileged == some true &&
    (!security.capAdd.values.isEmpty || !security.capDrop.values.isEmpty))
    "runtime.security.privileged_capabilities" ++
  fieldWhen (security.capAdd.values.any fun capability => security.capDrop.values.contains capability)
    "runtime.security.capability_overlap" ++
  fieldWhen (security.readWriteTmpfs == some true && security.readOnlyFilesystem != some true)
    "runtime.security.read_write_tmpfs" ++
  fieldWhen (container.pod.isSome && !runtime.namespaces.isEmpty)
    "runtime.namespaces.pod_member"

end Unsupported

section Health

def healthCommandJson (command : HealthCommand) (identity : DeploymentResourceId)
    (field : String) : RenderResult Value :=
  match command with
  | .shell command => .ok (stringArray ["CMD-SHELL", command.asStr])
  | .exec arguments => .ok (stringArray ("CMD" :: arguments.values))
  | .sensitiveInlineShell _ | .sensitiveInlineExec _ | .externalShell _ | .externalExec _ =>
    .error (unsupportedFinding identity field)

def healthCommandCli (command : HealthCommand) (identity : DeploymentResourceId)
    (field : String) : RenderResult String :=
  (healthCommandJson command identity field).map render

def healthDurationCli (nanoseconds : ℕ) : String := nanoseconds.repr ++ "ns"

def healthIntervalCli : HealthInterval → String
  | .disabled => "disable"
  | .every duration => healthDurationCli duration.val

def healthIntervalNanoseconds : HealthInterval → ℕ
  | .disabled => 0
  | .every duration => duration.val

def flagArguments {α : Type} (flag : String) (value : α → String) (setting : Option α) :
    List String :=
  setting.toList.flatMap fun declared => [flag, value declared]

def appendHealthArguments (arguments : List String) (health : ConfiguredHealthCheck) :
    List String :=
  arguments ++ flagArguments "--health-interval" healthIntervalCli health.interval ++
    flagArguments "--health-timeout" (fun timeout : HealthTimeout =>
      healthDurationCli timeout.val.val) health.timeout ++
    flagArguments "--health-retries" (fun retries : HealthRetries => retries.val.repr)
      health.retries ++
    flagArguments "--health-start-period" (fun period : HealthStartPeriod =>
      healthDurationCli period.val) health.startPeriod ++
    flagArguments "--health-on-failure" HealthOnFailure.asStr health.onFailure

def appendHealthCheckArguments (arguments : List String) (identity : DeploymentResourceId) :
    Option HealthCheck → RenderResult (List String)
  | none => .ok arguments
  | some .disabled => .ok (arguments ++ ["--no-healthcheck"])
  | some (.command configured) => do
    let command ← healthCommandCli configured.command identity "runtime.health.command"
    return appendHealthArguments (arguments ++ ["--health-cmd", command]) configured

def appendStartupHealthArguments (arguments : List String) (identity : DeploymentResourceId) :
    Option StartupHealthCheck → RenderResult (List String)
  | none => .ok arguments
  | some startup => do
    let command ← healthCommandCli startup.command identity "runtime.startup_health.command"
    return arguments ++ ["--health-startup-cmd", command] ++
      flagArguments "--health-startup-interval" healthIntervalCli startup.interval ++
      flagArguments "--health-startup-timeout" (fun timeout : HealthTimeout =>
        healthDurationCli timeout.val.val) startup.timeout ++
      flagArguments "--health-startup-retries" (fun retries : StartupHealthRetries =>
        retries.val.repr) startup.retries ++
      flagArguments "--health-startup-success" (fun successes : StartupHealthSuccesses =>
        successes.val.repr) startup.successes

def appendConfiguredHealthJson (configuration : Members) (health : ConfiguredHealthCheck) :
    Members :=
  let configuration := insertSome configuration "Interval"
    (health.interval.map fun interval => .number (healthIntervalNanoseconds interval))
  let configuration := insertSome configuration "Timeout"
    (health.timeout.map fun timeout => .number timeout.val.val)
  let configuration := insertSome configuration "Retries"
    (health.retries.map fun retries => .number retries.val)
  insertSome configuration "StartPeriod" (health.startPeriod.map fun period => .number period.val)

def appendStartupHealthJson (configuration : Members) (health : StartupHealthCheck) : Members :=
  let configuration := insertSome configuration "Interval"
    (health.interval.map fun interval => .number (healthIntervalNanoseconds interval))
  let configuration := insertSome configuration "Timeout"
    (health.timeout.map fun timeout => .number timeout.val.val)
  let configuration := insertSome configuration "Retries"
    (health.retries.map fun retries => .number retries.val)
  insertSome configuration "Successes"
    (health.successes.map fun successes => .number successes.val)

def healthJson (health : HealthCheck) (identity : DeploymentResourceId) (field : String) :
    RenderResult Value :=
  match health with
  | .disabled => .ok (.object (ofPairs [("Test", stringArray ["NONE"])]))
  | .command configured => do
    let test ← healthCommandJson configured.command identity field
    return .object (appendConfiguredHealthJson (insert [] "Test" test) configured)

def configuredFailureAction : HealthCheck → Option HealthOnFailure
  | .command configured => configured.onFailure
  | .disabled => none

def appendHealthCheckJson (body : Members) (identity : DeploymentResourceId) :
    Option HealthCheck → RenderResult Members
  | none => .ok body
  | some health => do
    let configuration ← healthJson health identity "runtime.health.command"
    return insertSome (insert body "healthconfig" configuration) "health_check_on_failure_action"
      ((configuredFailureAction health).map fun action => .number action.code)

def appendStartupHealthCheckJson (body : Members) (identity : DeploymentResourceId) :
    Option StartupHealthCheck → RenderResult Members
  | none => .ok body
  | some startup => do
    let test ← healthCommandJson startup.command identity "runtime.startup_health.command"
    return insert body "startupHealthConfig"
      (.object (appendStartupHealthJson (insert [] "Test" test) startup))

end Health

section Logging

def journaldField : String := "runtime.logging.journald_labels.target_version"

def appendLoggingArguments (arguments : List String) (logging : LoggingSettings)
    (identity : DeploymentResourceId) (version : String) : RenderResult (List String) :=
  if !logging.journaldLabels.values.isEmpty && !supportsJournaldLabels version then
    .error (unsupportedFinding identity journaldField)
  else .ok <|
    arguments ++ flagArguments "--log-driver" LogDriver.asStr logging.driver ++
      flagArguments "--log-opt" (fun size : LogSize => "max-size=" ++ size.val.repr)
        logging.maxSize ++
      logging.journaldLabels.values.flatMap fun label =>
        ["--log-opt", "label=" ++ label.key.asStr ++ "=" ++ label.value.asStr]

def labelsJson (labels : List Label) : Value :=
  .object <| ofPairs <| labels.map fun label => (label.key.asStr, .string label.value.asStr)

def appendLoggingJson (body : Members) (logging : LoggingSettings)
    (identity : DeploymentResourceId) (version : String) : RenderResult Members :=
  let labels := logging.journaldLabels.values
  if logging.driver.isNone && logging.maxSize.isNone && labels.isEmpty then .ok body
  else if !labels.isEmpty && !supportsJournaldLabels version then
    .error (unsupportedFinding identity journaldField)
  else
    let configuration := insertSome [] "driver"
      (logging.driver.map fun driver => .string driver.asStr)
    let configuration := insertSome configuration "size"
      (logging.maxSize.map fun size => .number size.val)
    let configuration := insertSome configuration "labels"
      (if labels.isEmpty then none else some (labelsJson labels))
    .ok (insert body "log_configuration" (.object configuration))

end Logging

section Security

def appendSecurityArguments (arguments : List String) (security : SecuritySettings) :
    List String :=
  arguments ++ security.privileged.toList.map (fun value => "--privileged=" ++ boolText value) ++
    flagArguments "--security-opt" (fun value => "no-new-privileges=" ++ boolText value)
      security.noNewPrivileges ++
    security.readOnlyFilesystem.toList.map (fun value => "--read-only=" ++ boolText value) ++
    security.readWriteTmpfs.toList.map (fun value => "--read-only-tmpfs=" ++ boolText value) ++
    security.capAdd.values.flatMap (fun capability => ["--cap-add", capability.asStr]) ++
    security.capDrop.values.flatMap (fun capability => ["--cap-drop", capability.asStr])

def appendSecurityJson (body : Members) (security : SecuritySettings) : Members :=
  let body := insertSome body "privileged" (security.privileged.map .bool)
  let body := insertSome body "no_new_privileges" (security.noNewPrivileges.map .bool)
  let body := insertSome body "read_only_filesystem" (security.readOnlyFilesystem.map .bool)
  let body := insertSome body "read_write_tmpfs" (security.readWriteTmpfs.map .bool)
  let body := insertSome body "cap_add" <| if security.capAdd.values.isEmpty then none
    else some (stringArray (security.capAdd.values.map Validated.Checked.asStr))
  insertSome body "cap_drop" <| if security.capDrop.values.isEmpty then none
    else some (stringArray (security.capDrop.values.map Validated.Checked.asStr))

def appendNamespaceArguments (arguments : List String)
    (namespaces : ContainerNamespaceSettings) : List String :=
  arguments ++ flagArguments "--pid" NamespaceMode.asStr namespaces.pid ++
    flagArguments "--ipc" IpcNamespaceMode.asStr namespaces.ipc ++
    flagArguments "--uts" NamespaceMode.asStr namespaces.uts ++
    flagArguments "--cgroupns" NamespaceMode.asStr namespaces.cgroup

def namespaceJson (mode : String) : Value := .object (ofPairs [("nsmode", .string mode)])

def appendNamespaceJson (body : Members) (namespaces : ContainerNamespaceSettings) : Members :=
  let body := insertSome body "pidns" (namespaces.pid.map fun mode => namespaceJson mode.asStr)
  let body := insertSome body "ipcns" (namespaces.ipc.map fun mode => namespaceJson mode.asStr)
  let body := insertSome body "utsns" (namespaces.uts.map fun mode => namespaceJson mode.asStr)
  insertSome body "cgroupns" (namespaces.cgroup.map fun mode => namespaceJson mode.asStr)

end Security

section Resources

def rlimitField : String := "runtime.resources.rlimits.unlimited.target_version"

def rlimitValueCli : RlimitValue → String
  | .finite value => value.toNat.repr
  | .unlimited => "-1"

def rlimitValueJson : RlimitValue → Value
  | .finite value => .number value.toNat
  | .unlimited => .number (-1)

def rlimitCliValue (rlimit : Rlimit) : String :=
  rlimit.kind.cliName ++ "=" ++ rlimitValueCli rlimit.soft ++ ":" ++ rlimitValueCli rlimit.hard

def rlimitJson (rlimit : Rlimit) : Value :=
  .object <| ofPairs [("type", .string rlimit.kind.asStr), ("soft", rlimitValueJson rlimit.soft),
    ("hard", rlimitValueJson rlimit.hard)]

/-- Some unlimited limit is declared for a target that has no spelling for it. -/
def refusesRlimits (resources : ContainerResourceControls) (version : String) : Bool :=
  resources.rlimits.values.any rlimitIsUnlimited && !supportsUnlimitedRlimit version

def appendResourceArguments (arguments : List String) (resources : ContainerResourceControls)
    (identity : DeploymentResourceId) (version : String) : RenderResult (List String) :=
  if refusesRlimits resources version then .error (unsupportedFinding identity rlimitField)
  else .ok <|
    arguments ++ flagArguments "--cpu-shares" (fun value => value.val.repr) resources.cpuShares ++
      flagArguments "--cpu-period" (fun value => value.val.repr) resources.cpuPeriod ++
      flagArguments "--cpu-quota" (fun value => value.val.repr) resources.cpuQuota ++
      flagArguments "--memory" (fun value => value.val.repr) resources.memoryBytes ++
      flagArguments "--pids-limit" (fun value => value.val.repr) resources.pids ++
      resources.rlimits.values.flatMap fun rlimit => ["--ulimit", rlimitCliValue rlimit]

def limitJson (value : ℤ) : Value := .object (ofPairs [("limit", .number value)])

def appendResourceJson (body : Members) (resources : ContainerResourceControls)
    (identity : DeploymentResourceId) (version : String) : RenderResult Members :=
  let cpu := insertSome [] "shares" (resources.cpuShares.map fun value => .number value.val)
  let cpu := insertSome cpu "period" (resources.cpuPeriod.map fun value => .number value.val)
  let cpu := insertSome cpu "quota" (resources.cpuQuota.map fun value => .number value.val)
  let limits := insertSome [] "cpu" (if cpu.isEmpty then none else some (.object cpu))
  let limits := insertSome limits "memory"
    (resources.memoryBytes.map fun value => limitJson value.val)
  let limits := insertSome limits "pids" (resources.pids.map fun value => limitJson value.val)
  let body := insertSome body "resource_limits"
    (if limits.isEmpty then none else some (.object limits))
  if refusesRlimits resources version then .error (unsupportedFinding identity rlimitField)
  else .ok <| insertSome body "r_limits" <| if resources.rlimits.values.isEmpty then none
    else some (.array (resources.rlimits.values.map rlimitJson))

end Resources

def appendContainerRuntimeArguments (arguments : List String) (container : ContainerIntent)
    (identity : DeploymentResourceId) (version : String) : RenderResult (List String) := do
  let runtime := container.runtime
  let arguments ← appendHealthCheckArguments arguments identity runtime.health
  let arguments ← appendStartupHealthArguments arguments identity runtime.startupHealth
  let arguments ← appendLoggingArguments arguments runtime.logging identity version
  let arguments := appendSecurityArguments arguments runtime.security
  let arguments := appendNamespaceArguments arguments runtime.namespaces
  appendResourceArguments arguments runtime.resources identity version

def appendContainerRuntimeJson (body : Members) (container : ContainerIntent)
    (identity : DeploymentResourceId) (version : String) : RenderResult Members := do
  let runtime := container.runtime
  let body ← appendHealthCheckJson body identity runtime.health
  let body ← appendStartupHealthCheckJson body identity runtime.startupHealth
  let body ← appendLoggingJson body runtime.logging identity version
  let body := appendSecurityJson body runtime.security
  let body := appendNamespaceJson body runtime.namespaces
  appendResourceJson body runtime.resources identity version

end PodmanLens
