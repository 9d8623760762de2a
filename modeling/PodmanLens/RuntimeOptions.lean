import PodmanLens.CreateOptions

/-!
# Runtime settings as options and members

Health checks, logging, security, namespaces and resource limits of a container creation, as
segments of options and as members of its body.
-/

namespace PodmanLens
open Options Text Json

section Runtime

/-- The command of a public health check, in the form that both planes carry. -/
def healthTest : HealthCommand → List String
  | .shell command => ["CMD-SHELL", command.asStr]
  | .exec arguments => "CMD" :: arguments.values
  | .sensitiveInlineShell _ | .sensitiveInlineExec _ | .externalShell _ | .externalExec _ => []

theorem healthCommandJson_eq {command : HealthCommand} {identity : DeploymentResourceId}
    {field : String} {value : Value} (h : healthCommandJson command identity field = .ok value) :
    value = stringArray (healthTest command) := by
  cases command with
  | shell | exec =>
      cases h
      rfl
  | sensitiveInlineShell | sensitiveInlineExec | externalShell | externalExec => cases h

theorem healthCommandCli_eq {command : HealthCommand} {identity : DeploymentResourceId}
    {field text : String} (h : healthCommandCli command identity field = .ok text) :
    text = render (stringArray (healthTest command)) := by
  rw [healthCommandCli] at h
  cases hvalue : healthCommandJson command identity field with
  | error finding =>
      rw [hvalue] at h
      cases h
  | ok value =>
      rw [hvalue] at h
      cases h
      rw [healthCommandJson_eq hvalue]

def healthCommandText (command : HealthCommand) : String := render (stringArray (healthTest command))

def configuredHealth : HealthCheck → Option ConfiguredHealthCheck
  | .command configured => some configured
  | .disabled => none

/-- A setting of a configuration that may be missing. -/
def settingTexts {α β : Type} (owner : Option α) (setting : α → Option β) (text : β → String) :
    List String :=
  (owner.bind setting).toList.map text

def healthSegments (health : Option HealthCheck) : List (List Occurrence) :=
  let configured := health.bind configuredHealth
  [if health = some .disabled then [⟨"--no-healthcheck", none⟩] else [],
    valued "--health-cmd" (configured.toList.map fun configured =>
      healthCommandText configured.command),
    valued "--health-interval" (settingTexts configured ConfiguredHealthCheck.interval
      healthIntervalCli),
    valued "--health-timeout" (settingTexts configured ConfiguredHealthCheck.timeout fun timeout =>
      healthDurationCli timeout.val.val),
    valued "--health-retries" (settingTexts configured ConfiguredHealthCheck.retries fun retries =>
      retries.val.repr),
    valued "--health-start-period" (settingTexts configured ConfiguredHealthCheck.startPeriod
      fun period => healthDurationCli period.val),
    valued "--health-on-failure" (settingTexts configured ConfiguredHealthCheck.onFailure
      HealthOnFailure.asStr)]

def startupHealthSegments (startup : Option StartupHealthCheck) : List (List Occurrence) := [
  valued "--health-startup-cmd" (startup.toList.map fun startup =>
    healthCommandText startup.command),
  valued "--health-startup-interval" (settingTexts startup StartupHealthCheck.interval
    healthIntervalCli),
  valued "--health-startup-timeout" (settingTexts startup StartupHealthCheck.timeout fun timeout =>
    healthDurationCli timeout.val.val),
  valued "--health-startup-retries" (settingTexts startup StartupHealthCheck.retries fun retries =>
    retries.val.repr),
  valued "--health-startup-success" (settingTexts startup StartupHealthCheck.successes
    fun successes => successes.val.repr)]

def healthGroups : List Group :=
  [⟨["--no-healthcheck"], false⟩, .taking "--health-cmd", .taking "--health-interval",
    .taking "--health-timeout", .taking "--health-retries", .taking "--health-start-period",
    .taking "--health-on-failure", .taking "--health-startup-cmd",
    .taking "--health-startup-interval", .taking "--health-startup-timeout",
    .taking "--health-startup-retries", .taking "--health-startup-success"]

theorem grouped_health (health : Option HealthCheck) (startup : Option StartupHealthCheck) :
    Grouped healthGroups (healthSegments health ++ startupHealthSegments startup) := by
  apply List.Forall₂.cons
  · intro occurrence hmem
    split_ifs at hmem
    · rw [List.mem_singleton.mp hmem]
      exact ⟨List.mem_singleton_self _, rfl⟩
    · cases hmem
  · iterate 11 apply List.Forall₂.cons (grouped_valued _ _)
    exact .nil

theorem appendHealthCheckArguments_eq {arguments values : List String}
    {identity : DeploymentResourceId} {health : Option HealthCheck}
    (h : appendHealthCheckArguments arguments identity health = .ok values) :
    values = arguments ++ encode (healthSegments health).flatten := by
  cases health with
  | none =>
      cases h
      exact (List.append_nil _).symm
  | some health =>
      cases health with
      | disabled =>
          cases h
          rfl
      | command configured =>
          obtain ⟨command, hcommand, h⟩ := bind_eq_ok.mp h
          cases h
          rw [healthCommandCli_eq hcommand]
          simp only [appendHealthArguments, healthSegments, Option.bind_some, configuredHealth,
            settingTexts, List.flatten_cons, List.flatten_nil, encode_append,
            List.append_nil, encode_setting "--health-interval", encode_setting "--health-timeout",
            encode_setting "--health-retries", encode_setting "--health-start-period",
            encode_setting "--health-on-failure", List.append_assoc]
          rfl

theorem appendStartupHealthArguments_eq {arguments values : List String}
    {identity : DeploymentResourceId} {startup : Option StartupHealthCheck}
    (h : appendStartupHealthArguments arguments identity startup = .ok values) :
    values = arguments ++ encode (startupHealthSegments startup).flatten := by
  cases startup with
  | none =>
      cases h
      exact (List.append_nil _).symm
  | some startup =>
      obtain ⟨command, hcommand, h⟩ := bind_eq_ok.mp h
      cases h
      rw [healthCommandCli_eq hcommand]
      simp only [startupHealthSegments, Option.bind_some, settingTexts, List.flatten_cons,
        List.flatten_nil, encode_append, List.append_nil,
        encode_setting "--health-startup-interval", encode_setting "--health-startup-timeout",
        encode_setting "--health-startup-retries", encode_setting "--health-startup-success",
        List.append_assoc]
      rfl

def configuredHealthMembers (health : ConfiguredHealthCheck) : List (String × Option Value) := [
  ("Test", some (stringArray (healthTest health.command))),
  ("Interval", health.interval.map fun interval => .number (healthIntervalNanoseconds interval)),
  ("Timeout", health.timeout.map fun timeout => .number timeout.val.val),
  ("Retries", health.retries.map fun retries => .number retries.val),
  ("StartPeriod", health.startPeriod.map fun period => .number period.val)]

def healthConfiguration : HealthCheck → Value
  | .disabled => .object (ofPairs [("Test", stringArray ["NONE"])])
  | .command configured => .object (assemble (configuredHealthMembers configured))

def startupHealthMembers (health : StartupHealthCheck) : List (String × Option Value) := [
  ("Test", some (stringArray (healthTest health.command))),
  ("Interval", health.interval.map fun interval => .number (healthIntervalNanoseconds interval)),
  ("Timeout", health.timeout.map fun timeout => .number timeout.val.val),
  ("Retries", health.retries.map fun retries => .number retries.val),
  ("Successes", health.successes.map fun successes => .number successes.val)]

def healthMembers (health : Option HealthCheck) (startup : Option StartupHealthCheck) :
    List (String × Option Value) :=
  [("healthconfig", health.map healthConfiguration),
    ("health_check_on_failure_action", (health.bind configuredFailureAction).map fun action =>
      .number action.code),
    ("startupHealthConfig", startup.map fun startup =>
      .object (assemble (startupHealthMembers startup)))]

theorem appendHealthJson_eq {body configured values : Members} {identity : DeploymentResourceId}
    {health : Option HealthCheck} {startup : Option StartupHealthCheck}
    (hhealth : appendHealthCheckJson body identity health = .ok configured)
    (hstartup : appendStartupHealthCheckJson configured identity startup = .ok values) :
    values = extend body (healthMembers health startup) := by
  have hconfigured : configured = extend body
      [("healthconfig", health.map healthConfiguration),
        ("health_check_on_failure_action", (health.bind configuredFailureAction).map fun action =>
          .number action.code)] := by
    cases health with
    | none =>
        cases hhealth
        rfl
    | some health =>
        obtain ⟨configuration, hconfiguration, hhealth⟩ := bind_eq_ok.mp hhealth
        cases hhealth
        have hvalue : configuration = healthConfiguration health := by
          cases health with
          | disabled =>
              cases hconfiguration
              rfl
          | command configured =>
              obtain ⟨test, htest, hconfiguration⟩ := bind_eq_ok.mp hconfiguration
              cases hconfiguration
              rw [healthCommandJson_eq htest]
              rfl
        rw [hvalue]
        rfl
  cases startup with
  | none =>
      cases hstartup
      exact hconfigured
  | some startup =>
      obtain ⟨test, htest, hstartup⟩ := bind_eq_ok.mp hstartup
      cases hstartup
      rw [healthCommandJson_eq htest, hconfigured]
      rfl

def loggingSegments (logging : LoggingSettings) : List (List Occurrence) := [
  valued "--log-driver" (logging.driver.toList.map LogDriver.asStr),
  valued "--log-opt" (logging.maxSize.toList.map (fun size => "max-size=" ++ size.val.repr) ++
    logging.journaldLabels.values.map fun label =>
      "label=" ++ label.key.asStr ++ "=" ++ label.value.asStr)]

theorem appendLoggingArguments_eq {arguments values : List String} {logging : LoggingSettings}
    {identity : DeploymentResourceId} {version : String}
    (h : appendLoggingArguments arguments logging identity version = .ok values) :
    values = arguments ++ encode (loggingSegments logging).flatten := by
  rw [appendLoggingArguments] at h
  split_ifs at h with hrefused
  cases h
  have hvalued (first second : List String) : valued "--log-opt" (first ++ second) =
      valued "--log-opt" first ++ valued "--log-opt" second := List.map_append
  simp only [loggingSegments, hvalued, List.flatten_cons, List.flatten_nil, encode_append,
    List.append_nil, encode_setting "--log-driver", encode_setting "--log-opt",
    encode_valued "--log-opt", List.append_assoc]

def loggingConfigurationMembers (logging : LoggingSettings) : List (String × Option Value) := [
  ("driver", logging.driver.map fun driver => .string driver.asStr),
  ("size", logging.maxSize.map fun size => .number size.val),
  ("labels", nonEmpty labelsJson logging.journaldLabels.values)]

def loggingMembers (logging : LoggingSettings) : List (String × Option Value) :=
  [("log_configuration",
    if logging.driver.isNone && logging.maxSize.isNone && logging.journaldLabels.values.isEmpty then
      none
    else some (.object (assemble (loggingConfigurationMembers logging))))]

theorem appendLoggingJson_eq {body values : Members} {logging : LoggingSettings}
    {identity : DeploymentResourceId} {version : String}
    (h : appendLoggingJson body logging identity version = .ok values) :
    values = extend body (loggingMembers logging) := by
  rw [appendLoggingJson] at h
  rw [loggingMembers, extend_cons, extend_nil]
  by_cases hempty : (logging.driver.isNone && logging.maxSize.isNone &&
      logging.journaldLabels.values.isEmpty) = true
  · rw [if_pos hempty] at h ⊢
    exact (Except.ok.inj h).symm
  · rw [if_neg hempty] at h ⊢
    by_cases hrefused : (!logging.journaldLabels.values.isEmpty &&
        !supportsJournaldLabels version) = true
    · rw [if_pos hrefused] at h
      cases h
    · rw [if_neg hrefused] at h
      exact (Except.ok.inj h).symm

/-- A switch that spells its value out. -/
def switched (flag : String) (setting : Option Bool) : List Occurrence :=
  setting.toList.map fun value => ⟨flag ++ boolText value, none⟩

theorem grouped_switched (flag : String) (setting : Option Bool) :
    ∀ occurrence ∈ switched flag setting, occurrence.flag ∈ [flag ++ "true", flag ++ "false"] ∧
      occurrence.value.isSome = false := by
  intro occurrence hmem
  obtain ⟨value, -, rfl⟩ := List.mem_map.mp hmem
  cases value with
  | true => exact ⟨List.mem_cons_self, rfl⟩
  | false => exact ⟨List.mem_cons_of_mem _ List.mem_cons_self, rfl⟩

theorem encode_switched (flag : String) (setting : Option Bool) :
    encode (switched flag setting) = setting.toList.map fun value => flag ++ boolText value := by
  cases setting <;> rfl

def securitySegments (security : SecuritySettings) (namespaces : ContainerNamespaceSettings) :
    List (List Occurrence) := [
  switched "--privileged=" security.privileged,
  valued "--security-opt" (security.noNewPrivileges.toList.map fun value =>
    "no-new-privileges=" ++ boolText value),
  switched "--read-only=" security.readOnlyFilesystem,
  switched "--read-only-tmpfs=" security.readWriteTmpfs,
  valued "--cap-add" (security.capAdd.values.map Validated.Checked.asStr),
  valued "--cap-drop" (security.capDrop.values.map Validated.Checked.asStr),
  valued "--pid" (namespaces.pid.toList.map NamespaceMode.asStr),
  valued "--ipc" (namespaces.ipc.toList.map IpcNamespaceMode.asStr),
  valued "--uts" (namespaces.uts.toList.map NamespaceMode.asStr),
  valued "--cgroupns" (namespaces.cgroup.toList.map NamespaceMode.asStr)]

theorem encode_securitySegments (arguments : List String) (security : SecuritySettings)
    (namespaces : ContainerNamespaceSettings) :
    appendNamespaceArguments (appendSecurityArguments arguments security) namespaces =
      arguments ++ encode (securitySegments security namespaces).flatten := by
  simp only [appendNamespaceArguments, appendSecurityArguments, securitySegments,
    List.flatten_cons, List.flatten_nil, encode_append, List.append_nil, encode_switched, encode_setting "--security-opt", encode_valued "--cap-add",
    encode_valued "--cap-drop", encode_setting "--pid", encode_setting "--ipc",
    encode_setting "--uts", encode_setting "--cgroupns", List.append_assoc]

def securityMembers (security : SecuritySettings) (namespaces : ContainerNamespaceSettings) :
    List (String × Option Value) :=
  [("privileged", security.privileged.map .bool),
    ("no_new_privileges", security.noNewPrivileges.map .bool),
    ("read_only_filesystem", security.readOnlyFilesystem.map .bool),
    ("read_write_tmpfs", security.readWriteTmpfs.map .bool),
    ("cap_add", nonEmpty (fun capabilities =>
      stringArray (capabilities.map Validated.Checked.asStr)) security.capAdd.values),
    ("cap_drop", nonEmpty (fun capabilities =>
      stringArray (capabilities.map Validated.Checked.asStr)) security.capDrop.values),
    ("pidns", namespaces.pid.map fun mode => namespaceJson mode.asStr),
    ("ipcns", namespaces.ipc.map fun mode => namespaceJson mode.asStr),
    ("utsns", namespaces.uts.map fun mode => namespaceJson mode.asStr),
    ("cgroupns", namespaces.cgroup.map fun mode => namespaceJson mode.asStr)]

theorem appendSecurityJson_eq (body : Members) (security : SecuritySettings)
    (namespaces : ContainerNamespaceSettings) :
    appendNamespaceJson (appendSecurityJson body security) namespaces =
      extend body (securityMembers security namespaces) := rfl

def resourceSegments (resources : ContainerResourceControls) : List (List Occurrence) := [
  valued "--cpu-shares" (resources.cpuShares.toList.map fun value => value.val.repr),
  valued "--cpu-period" (resources.cpuPeriod.toList.map fun value => value.val.repr),
  valued "--cpu-quota" (resources.cpuQuota.toList.map fun value => value.val.repr),
  valued "--memory" (resources.memoryBytes.toList.map fun value => value.val.repr),
  valued "--pids-limit" (resources.pids.toList.map fun value => value.val.repr),
  valued "--ulimit" (resources.rlimits.values.map rlimitCliValue)]

theorem appendResourceArguments_eq {arguments values : List String}
    {resources : ContainerResourceControls} {identity : DeploymentResourceId} {version : String}
    (h : appendResourceArguments arguments resources identity version = .ok values) :
    values = arguments ++ encode (resourceSegments resources).flatten := by
  rw [appendResourceArguments] at h
  split_ifs at h with hrefused
  cases h
  simp only [resourceSegments, List.flatten_cons, List.flatten_nil, encode_append,
    List.append_nil, encode_setting "--cpu-shares", encode_setting "--cpu-period",
    encode_setting "--cpu-quota", encode_setting "--memory", encode_setting "--pids-limit",
    encode_valued "--ulimit", List.append_assoc]

def cpuMembers (resources : ContainerResourceControls) : List (String × Option Value) := [
  ("shares", resources.cpuShares.map fun value => .number value.val),
  ("period", resources.cpuPeriod.map fun value => .number value.val),
  ("quota", resources.cpuQuota.map fun value => .number value.val)]

def limitMembers (resources : ContainerResourceControls) : List (String × Option Value) := [
  ("cpu", nonEmpty .object (assemble (cpuMembers resources))),
  ("memory", resources.memoryBytes.map fun value => limitJson value.val),
  ("pids", resources.pids.map fun value => limitJson value.val)]

def resourceMembers (resources : ContainerResourceControls) : List (String × Option Value) := [
  ("resource_limits", nonEmpty .object (assemble (limitMembers resources))),
  ("r_limits", nonEmpty (fun limits => .array (limits.map rlimitJson)) resources.rlimits.values)]

theorem appendResourceJson_eq {body values : Members} {resources : ContainerResourceControls}
    {identity : DeploymentResourceId} {version : String}
    (h : appendResourceJson body resources identity version = .ok values) :
    values = extend body (resourceMembers resources) := by
  rw [appendResourceJson] at h
  by_cases hrefused : refusesRlimits resources version = true
  · rw [if_pos hrefused] at h
    cases h
  · rw [if_neg hrefused] at h
    exact (Except.ok.inj h).symm

def runtimeSegments (runtime : ContainerRuntimeSettings) : List (List Occurrence) :=
  healthSegments runtime.health ++ startupHealthSegments runtime.startupHealth ++
    loggingSegments runtime.logging ++ securitySegments runtime.security runtime.namespaces ++
    resourceSegments runtime.resources

def securityGroups : List Group :=
  [⟨["--privileged=true", "--privileged=false"], false⟩, .taking "--security-opt",
    ⟨["--read-only=true", "--read-only=false"], false⟩,
    ⟨["--read-only-tmpfs=true", "--read-only-tmpfs=false"], false⟩, .taking "--cap-add",
    .taking "--cap-drop", .taking "--pid", .taking "--ipc", .taking "--uts", .taking "--cgroupns"]

theorem grouped_security (security : SecuritySettings) (namespaces : ContainerNamespaceSettings) :
    Grouped securityGroups (securitySegments security namespaces) := by
  apply List.Forall₂.cons (grouped_switched "--privileged=" _)
  apply List.Forall₂.cons (grouped_valued _ _)
  apply List.Forall₂.cons (grouped_switched "--read-only=" _)
  apply List.Forall₂.cons (grouped_switched "--read-only-tmpfs=" _)
  iterate 6 apply List.Forall₂.cons (grouped_valued _ _)
  exact .nil

def runtimeGroups : List Group :=
  healthGroups ++ [.taking "--log-driver", .taking "--log-opt"] ++ securityGroups ++
    [.taking "--cpu-shares", .taking "--cpu-period", .taking "--cpu-quota", .taking "--memory",
      .taking "--pids-limit", .taking "--ulimit"]

theorem grouped_runtime (runtime : ContainerRuntimeSettings) :
    Grouped runtimeGroups (runtimeSegments runtime) := by
  have hlogging : Grouped [.taking "--log-driver", .taking "--log-opt"]
      (loggingSegments runtime.logging) := by
    iterate 2 apply List.Forall₂.cons (grouped_valued _ _)
    exact .nil
  have hresources : Grouped [.taking "--cpu-shares", .taking "--cpu-period", .taking "--cpu-quota",
      .taking "--memory", .taking "--pids-limit", .taking "--ulimit"]
      (resourceSegments runtime.resources) := by
    iterate 6 apply List.Forall₂.cons (grouped_valued _ _)
    exact .nil
  exact (((grouped_health _ _).append hlogging).append (grouped_security _ _)).append hresources

def runtimeMembers (runtime : ContainerRuntimeSettings) : List (String × Option Value) :=
  healthMembers runtime.health runtime.startupHealth ++ loggingMembers runtime.logging ++
    securityMembers runtime.security runtime.namespaces ++ resourceMembers runtime.resources

variable {container : ContainerIntent} {identity : DeploymentResourceId} {version : String}

theorem appendContainerRuntimeArguments_eq {arguments values : List String}
    (h : appendContainerRuntimeArguments arguments container identity version = .ok values) :
    values = arguments ++ encode (runtimeSegments container.runtime).flatten := by
  obtain ⟨health, hhealth, h⟩ := bind_eq_ok.mp h
  obtain ⟨startup, hstartup, h⟩ := bind_eq_ok.mp h
  obtain ⟨logging, hlogging, h⟩ := bind_eq_ok.mp h
  rw [appendResourceArguments_eq h, encode_securitySegments, appendLoggingArguments_eq hlogging,
    appendStartupHealthArguments_eq hstartup, appendHealthCheckArguments_eq hhealth]
  simp only [runtimeSegments, List.flatten_append, encode_append, List.append_assoc]

theorem appendContainerRuntimeJson_eq {body values : Members}
    (h : appendContainerRuntimeJson body container identity version = .ok values) :
    values = extend body (runtimeMembers container.runtime) := by
  obtain ⟨health, hhealth, h⟩ := bind_eq_ok.mp h
  obtain ⟨startup, hstartup, h⟩ := bind_eq_ok.mp h
  obtain ⟨logging, hlogging, h⟩ := bind_eq_ok.mp h
  rw [appendResourceJson_eq h, appendSecurityJson_eq, appendLoggingJson_eq hlogging,
    appendHealthJson_eq hhealth hstartup]
  simp only [runtimeMembers, extend_append]

end Runtime

end PodmanLens
