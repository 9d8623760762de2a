import PodmanLens.RuntimeOptions

/-!
# Container creations as options and members

A container creation that was rendered is `ContainerForms`: its options in order, its image and
command words, and the members of its body. Options and operands are read back from the array.
-/

namespace PodmanLens
open Options Text Json

section Containers

def containerNetworkingSegments (container : ContainerIntent) : List (List Occurrence) :=
  if container.pod.isSome then networkingGroups.map fun _ => []
  else networkingSegments (networkTexts container.networks container.networkOrderIds)
    container.ports container.dns container.hostAliases

def containerSegments (container : ContainerIntent) (policy : SensitiveInlineRenderPolicy) :
    List (List Occurrence) :=
  [valued "--name" [container.identity.val.name], [⟨"--pull=never", none⟩],
    valued "--pod" (container.pod.toList.map fun pod => pod.val.name)] ++
  containerNetworkingSegments container ++
  [container.mounts.map mountOption, valued "--secret" (container.secretGrants.map secretText)] ++
  settingSegments container.settings
    (environmentTexts policy container.settings.environment.values) ++
  runtimeSegments container.runtime

def containerGroups : List Group :=
  [.taking "--name", ⟨["--pull=never"], false⟩, .taking "--pod"] ++ networkingGroups ++
    [⟨["--mount", "--volume"], true⟩, .taking "--secret"] ++ settingGroups ++ runtimeGroups

theorem grouped_containerNetworking (container : ContainerIntent) :
    Grouped networkingGroups (containerNetworkingSegments container) := by
  rw [containerNetworkingSegments]
  split_ifs with hpod
  · exact grouped_bare _
  · exact grouped_networking _ _ _ _

theorem grouped_containerName (container : ContainerIntent) :
    Grouped [.taking "--name", ⟨["--pull=never"], false⟩, .taking "--pod"]
      [valued "--name" [container.identity.val.name], [⟨"--pull=never", none⟩],
        valued "--pod" (container.pod.toList.map fun pod => pod.val.name)] := by
  apply List.Forall₂.cons (grouped_valued _ _)
  apply List.Forall₂.cons (by simp)
  apply List.Forall₂.cons (grouped_valued _ _)
  exact .nil

theorem grouped_container (container : ContainerIntent) (policy : SensitiveInlineRenderPolicy) :
    Grouped containerGroups (containerSegments container policy) := by
  have hmounts : Grouped [⟨["--mount", "--volume"], true⟩, .taking "--secret"]
      [container.mounts.map mountOption, valued "--secret" (container.secretGrants.map secretText)] := by
    apply List.Forall₂.cons
    · intro occurrence hmem
      obtain ⟨mount, -, rfl⟩ := List.mem_map.mp hmem
      exact mountOption_grouped mount
    · apply List.Forall₂.cons (grouped_valued _ _)
      exact .nil
  exact ((((grouped_containerName container).append (grouped_containerNetworking container)).append
    hmounts).append (grouped_settings _ _)).append (grouped_runtime _)

/-- Only mounts are spelled in the short volume syntax. -/
theorem volumes_containerSegments (container : ContainerIntent)
    (policy : SensitiveInlineRenderPolicy) :
    valuesOf "--volume" (containerSegments container policy).flatten =
      valuesOf "--volume" (container.mounts.map mountOption) := by
  have hfront := ((grouped_containerName container).append
    (grouped_containerNetworking container)).valuesOf_eq_nil "--volume" (by decide)
  have hsecrets : Grouped [.taking "--secret"]
      [valued "--secret" (container.secretGrants.map secretText)] := by
    apply List.Forall₂.cons (grouped_valued _ _)
    exact .nil
  have hback := (((hsecrets.append (grouped_settings container.settings (environmentTexts policy
    container.settings.environment.values))).append (grouped_runtime container.runtime))
      ).valuesOf_eq_nil "--volume" (by decide)
  have hsegments : (containerSegments container policy).flatten =
      ([valued "--name" [container.identity.val.name], [⟨"--pull=never", none⟩],
        valued "--pod" (container.pod.toList.map fun pod => pod.val.name)] ++
          containerNetworkingSegments container).flatten ++ (container.mounts.map mountOption ++
        ([valued "--secret" (container.secretGrants.map secretText)] ++
          settingSegments container.settings (environmentTexts policy
            container.settings.environment.values) ++
          runtimeSegments container.runtime).flatten) := by
    simp only [containerSegments, List.flatten_append, List.flatten_cons, List.flatten_nil,
      List.append_assoc, List.append_nil]
  rw [hsegments, valuesOf_append, valuesOf_append, hfront, hback, List.nil_append, List.append_nil]

theorem wellFormed_containerGroups : WellFormed containerGroups := by decide

theorem wellFormed_podGroups : WellFormed podGroups := by decide

def containerNetworkingMembers (container : ContainerIntent) : List (String × Option Value) :=
  if container.pod.isSome then ("Networks", none) :: networkingMembers .empty {} .empty none
  else ("Networks", some (networkConfiguration container.networks)) ::
    networkingMembers container.ports container.dns container.hostAliases container.networkOrderIds

def containerMembers (container : ContainerIntent) (image : String)
    (policy : SensitiveInlineRenderPolicy) : List (String × Option Value) :=
  [("image", some (.string image)),
    ("pod", container.pod.map fun pod => .string pod.val.name)] ++
  containerNetworkingMembers container ++
  settingMembers container (environmentTexts policy container.settings.environment.values) ++
  secretMembers container.secretGrants ++ runtimeMembers container.runtime

def networkingKeys : List String :=
  ["portmappings", "dns_server", "dns_search", "dns_option", "hostadd", "networkOrder"]

def containerKeys : List String :=
  ["image", "pod", "Networks"] ++ networkingKeys ++
    ["command", "entrypoint", "user", "work_dir", "hostname", "labels", "env", "restart_policy",
      "volumes", "mounts", "secrets", "secret_env", "healthconfig",
      "health_check_on_failure_action", "startupHealthConfig", "log_configuration", "privileged",
      "no_new_privileges", "read_only_filesystem", "read_write_tmpfs", "cap_add", "cap_drop",
      "pidns", "ipcns", "utsns", "cgroupns", "resource_limits", "r_limits"]

theorem containerKeys_nodup : containerKeys.Nodup := by decide

theorem keys_containerMembers (container : ContainerIntent) (image : String)
    (policy : SensitiveInlineRenderPolicy) :
    (containerMembers container image policy).map Prod.fst = containerKeys := by
  rw [containerMembers, containerNetworkingMembers]
  split_ifs
  · rfl
  · rfl

theorem keys_podMembers (pod : PodIntent) :
    (podMembers pod).map Prod.fst = ["name", "Networks"] ++ networkingKeys := rfl

/-- Every member of the body is the one that its setting contributes. -/
theorem lookup_containerMembers {container : ContainerIntent} {image key : String}
    {policy : SensitiveInlineRenderPolicy} {value : Option Value}
    (h : (key, value) ∈ containerMembers container image policy) :
    lookup (assemble (containerMembers container image policy)) key = value := by
  apply lookup_assemble ?_ h
  rw [keys_containerMembers]
  exact containerKeys_nodup

def commandWords (container : ContainerIntent) : List String :=
  (container.settings.command.map ArgumentArray.values).getD []

variable {container : ContainerIntent} {id : DeploymentResourceId} {version : String}
  {sources : ManagedImageSources} {policy : SensitiveInlineRenderPolicy}

def renderedImage (sources : ManagedImageSources) (container : ContainerIntent) : String :=
  (sources[container.image.val]?).getD container.image.val.name

theorem renderContainerNetworking_eq {image : String} {arguments cliSuffix : List String}
    {body : Members}
    (h : renderContainerNetworking container id image arguments = .ok (cliSuffix, body)) :
    cliSuffix = arguments ++ encode (valued "--pod" (container.pod.toList.map fun pod =>
        pod.val.name) ++ (containerNetworkingSegments container).flatten) ∧
      body = assemble ([("image", some (.string image)),
        ("pod", container.pod.map fun pod => .string pod.val.name)] ++
          containerNetworkingMembers container) ∧
      (container.pod = none → ∃ values, appendNetworkArguments arguments container.networks
        container.networkOrderIds = some values) := by
  rw [renderContainerNetworking] at h
  cases hpod : container.pod with
  | some pod =>
      rw [hpod] at h
      cases h
      refine ⟨?_, ?_, by simp⟩
      · simp [containerNetworkingSegments, hpod, networkingGroups, valued, encode, Occurrence.words]
      · rw [containerNetworkingMembers, hpod]
        rfl
  | none =>
      rw [hpod] at h
      obtain ⟨networked, hnetworked, h⟩ := bind_eq_ok.mp h
      cases h
      have hvalues := orUnsupported_eq_ok.mp hnetworked
      refine ⟨?_, ?_, fun _ => ⟨networked, hvalues⟩⟩
      · rw [(appendNetworkArguments_eq hvalues).2.2, encode_networkingSegments,
          containerNetworkingSegments, hpod]
        rfl
      · rw [containerNetworkingMembers, hpod]
        rfl

/-- The options, operands and members of a container creation that was rendered. -/
structure ContainerForms (container : ContainerIntent) (image version : String)
    (policy : SensitiveInlineRenderPolicy) (forms : RenderedForms) : Prop where
  cliSuffix : forms.cliSuffix = ["container", "create"] ++
    encode (containerSegments container policy).flatten ++ image :: commandWords container
  path : forms.path =
    libpodPath version ("containers/create?name=" ++ percentEncode container.identity.val.name)
  body : forms.body = .json (.object (assemble (containerMembers container image policy)))
  networks : container.pod = none → ∃ arguments values,
    appendNetworkArguments arguments container.networks container.networkOrderIds = some values
  mounts : ∀ mount ∈ container.mounts, mountSafe mount = true
  secrets : ∀ grant ∈ container.secretGrants, secretSafe grant = true

theorem renderContainerCreate_eq {forms : RenderedForms}
    (h : renderContainerCreate container id version sources policy = .ok forms) :
    ContainerForms container (renderedImage sources container) version policy forms := by
  obtain ⟨⟨networked, body⟩, hnetworked, h⟩ := bind_eq_ok.mp h
  obtain ⟨mounted, hmounted, h⟩ := bind_eq_ok.mp h
  obtain ⟨granted, hgranted, h⟩ := bind_eq_ok.mp h
  obtain ⟨set, hset, h⟩ := bind_eq_ok.mp h
  obtain ⟨run, hrun, h⟩ := bind_eq_ok.mp h
  obtain ⟨setBody, hsetBody, h⟩ := bind_eq_ok.mp h
  obtain ⟨runBody, hrunBody, h⟩ := bind_eq_ok.mp h
  cases h
  obtain ⟨hcli, hbody, hnetworks⟩ := renderContainerNetworking_eq hnetworked
  obtain ⟨hmounts, hmounted⟩ := appendMountArguments_eq (orUnsupported_eq_ok.mp hmounted)
  obtain ⟨hsecrets, hgranted⟩ := appendSecretGrantsArguments_eq (orUnsupported_eq_ok.mp hgranted)
  refine ⟨?_, rfl, ?_, fun hpod => ⟨_, hnetworks hpod⟩, hmounts, hsecrets⟩
  · dsimp only
    rw [appendContainerRuntimeArguments_eq hrun, appendContainerSettingArguments_eq hset, hgranted,
      hmounted, hcli]
    simp only [containerSegments, List.flatten_append, List.flatten_cons, List.flatten_nil,
      encode_append, List.append_assoc, List.append_nil]
    rfl
  · dsimp only
    rw [appendContainerRuntimeJson_eq hrunBody, appendSecretGrantsJson_eq,
      appendContainerSettingJson_eq hsetBody, hbody, assemble, ← extend_append, ← extend_append,
      ← extend_append]
    simp only [containerMembers, assemble, renderedImage, List.append_assoc]

end Containers

section CommandLine

/-- An invocation as it is read: the connection, two command words, options and operands. -/
structure CommandLine where
  globals : List Occurrence
  command : List String
  options : List Occurrence
  operands : List String

def readCommandLine (groups : List Group) (argv : List String) : CommandLine :=
  let globals := read ["--connection"] argv
  let options := read (valuedFlags groups) (globals.2.drop 2)
  ⟨globals.1, globals.2.take 2, options.1, options.2⟩

def commandPaths : List (List String) :=
  [["network", "create"], ["volume", "create"], ["secret", "create"], ["image", "pull"],
    ["pod", "create"], ["pod", "start"], ["container", "create"], ["container", "start"]]

theorem commandPaths_undashed : ∀ command ∈ commandPaths,
    command.length = 2 ∧ ∀ word ∈ command.head?, ¬Dashed word := by decide

theorem read_connection (connection : Option String) {rest : List String}
    (hrest : ∀ word ∈ rest.head?, ¬Dashed word) :
    read ["--connection"] (connectionArguments connection ++ rest) =
      (valued "--connection" connection.toList, rest) := by
  have hgrouped : Grouped [.taking "--connection"] [valued "--connection" connection.toList] := by
    apply List.Forall₂.cons (grouped_valued _ _)
    exact .nil
  have hread := hgrouped.read_encode (by decide) hrest
  rw [List.flatten_cons, List.flatten_nil, List.append_nil] at hread
  cases connection with
  | none | some => exact hread

/-- The options are read back unless the first operand is taken for one of them. -/
theorem readCommandLine_eq {groups : List Group} {segments : List (List Occurrence)}
    (hgrouped : Grouped groups segments) (hgroups : WellFormed groups) {command : List String}
    (hcommand : command ∈ commandPaths) {operands : List String}
    (hoperands : ∀ word ∈ operands.head?, ¬Dashed word) (connection : Option String) :
    readCommandLine groups (connectionArguments connection ++
        (command ++ encode segments.flatten ++ operands)) =
      ⟨valued "--connection" connection.toList, command, segments.flatten, operands⟩ := by
  obtain ⟨hlength, hundashed⟩ := commandPaths_undashed command hcommand
  have hhead : ∀ word ∈ (command ++ encode segments.flatten ++ operands).head?, ¬Dashed word := by
    cases command with
    | nil => cases hlength
    | cons word rest => exact hundashed
  rw [readCommandLine, read_connection connection hhead, List.append_assoc,
    List.drop_left' hlength, List.take_left' hlength, hgrouped.read_encode hgroups hoperands]

end CommandLine

end PodmanLens
