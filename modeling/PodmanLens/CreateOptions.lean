import PodmanLens.JsonObjects
import PodmanLens.Options
import PodmanLens.RenderOutcome

/-!
# Creations as options and members

The argument array of a container or pod creation is a sequence of options before its operands, and
its body is assembled from members with distinct keys. Both are spelled out here, one segment of
options for each group of flags.
-/

namespace PodmanLens
open Options Text Json

section Texts

/-- One option for each text. -/
def valued (flag : String) (texts : List String) : List Occurrence :=
  texts.map fun text => ⟨flag, some text⟩

theorem grouped_valued (flag : String) (texts : List String) :
    ∀ occurrence ∈ valued flag texts, occurrence.flag ∈ (Group.taking flag).flags ∧
      occurrence.value.isSome = (Group.taking flag).takesValue := by
  intro occurrence hmem
  obtain ⟨text, -, rfl⟩ := List.mem_map.mp hmem
  exact ⟨List.mem_singleton_self flag, rfl⟩

theorem encode_valued {α : Type} (flag : String) (text : α → String) (values : List α) :
    encode (valued flag (values.map text)) = values.flatMap fun a => [flag, text a] := by
  rw [encode, valued, List.map_map, List.flatMap_map]
  rfl

theorem encode_setting {α : Type} (flag : String) (text : α → String) (setting : Option α) :
    encode (valued flag (setting.toList.map text)) = flagArguments flag text setting :=
  encode_valued flag text setting.toList

/-- A guarded encoder that succeeds on a list has found every element safe. -/
theorem mapM_guarded {α β : Type} {f : α → Option β} {safe : α → Bool} {text : α → β}
    (hf : ∀ a, f a = if safe a = true then some (text a) else none) {l : List α} {values : List β}
    (h : l.mapM f = some values) : (∀ a ∈ l, safe a = true) ∧ values = l.map text := by
  induction l generalizing values with
  | nil =>
      cases h
      exact ⟨by simp, rfl⟩
  | cons a l ih =>
      rw [List.mapM_cons, Option.bind_eq_bind, Option.bind_eq_some_iff] at h
      obtain ⟨b, hb, h⟩ := h
      obtain ⟨rest, hrest, h⟩ := Option.bind_eq_some_iff.mp h
      cases h
      obtain ⟨hsafe, rfl⟩ := ih hrest
      rw [hf] at hb
      split_ifs at hb with ha
      cases hb
      exact ⟨List.forall_mem_cons.mpr ⟨ha, hsafe⟩, rfl⟩

end Texts

section Networking

/-- The flag value of an attachment, whatever its name. -/
def attachmentText (attachment : NetworkAttachment) : String :=
  let name := attachment.network.val.name
  if (networkOptions attachment).isEmpty then name
  else name ++ ":" ++ joinWith "," (networkOptions attachment)

theorem networkAttachmentCliValue_eq (attachment : NetworkAttachment) :
    networkAttachmentCliValue attachment =
      if cliSafeMountComponent attachment.network.val.name = true then
        some (attachmentText attachment)
      else none := by
  rw [networkAttachmentCliValue, cliSafeMountComponent, attachmentText]
  cases attachment.network.val.name.toList.any fun c => c == ':' || c == ',' with
  | true => rfl
  | false => exact (apply_ite some _ _ _).symm

/-- The attachments in the order of their flags. -/
def flaggedAttachments (networks : NetworkAttachments)
    (order : Option (List DeploymentResourceId)) : List NetworkAttachment :=
  (orderedNetworkAttachments networks.values order).getD []

def networkTexts (networks : NetworkAttachments) (order : Option (List DeploymentResourceId)) :
    List String :=
  (flaggedAttachments networks order).map attachmentText

theorem appendNetworkArguments_eq {arguments values : List String} {networks : NetworkAttachments}
    {order : Option (List DeploymentResourceId)}
    (h : appendNetworkArguments arguments networks order = some values) :
    orderedNetworkAttachments networks.values order = some (flaggedAttachments networks order) ∧
      (∀ attachment ∈ flaggedAttachments networks order,
        cliSafeMountComponent attachment.network.val.name = true) ∧
      values = arguments ++ encode (valued "--network" (networkTexts networks order)) := by
  rw [appendNetworkArguments, Option.bind_eq_bind, Option.bind_eq_some_iff] at h
  obtain ⟨attachments, hattachments, h⟩ := h
  obtain ⟨texts, htexts, h⟩ := Option.bind_eq_some_iff.mp h
  cases h
  obtain ⟨hsafe, rfl⟩ := mapM_guarded networkAttachmentCliValue_eq htexts
  rw [networkTexts, flaggedAttachments, hattachments, Option.getD_some, encode_valued,
    List.flatMap_map]
  exact ⟨rfl, hsafe, rfl⟩

def networkingSegments (networks : List String) (ports : PortMappings) (dns : DnsConfiguration)
    (aliases : HostAliases) : List (List Occurrence) := [
  valued "--network" networks,
  valued "--publish" (ports.values.map portMappingCliValue),
  valued "--dns" (dns.servers.values.map Net.IpAddr.display),
  valued "--dns-search" (dns.search.values.map Validated.Checked.asStr),
  valued "--dns-option" (dns.options.values.map Validated.Checked.asStr),
  valued "--add-host" (aliases.values.map hostAliasValue)]

def networkingGroups : List Group :=
  [.taking "--network", .taking "--publish", .taking "--dns", .taking "--dns-search",
    .taking "--dns-option", .taking "--add-host"]

theorem grouped_networking (networks : List String) (ports : PortMappings) (dns : DnsConfiguration)
    (aliases : HostAliases) :
    Grouped networkingGroups (networkingSegments networks ports dns aliases) := by
  iterate 6 apply List.Forall₂.cons (grouped_valued _ _)
  exact .nil

theorem encode_networkingSegments (arguments networks : List String) (ports : PortMappings)
    (dns : DnsConfiguration) (aliases : HostAliases) :
    appendHostAliasArguments (appendDnsArguments (appendPortArguments
        (arguments ++ encode (valued "--network" networks)) ports) dns) aliases =
      arguments ++ encode (networkingSegments networks ports dns aliases).flatten := by
  simp only [appendHostAliasArguments, appendDnsArguments, appendPortArguments, networkingSegments,
    List.flatten_cons, List.flatten_nil, encode_append, List.append_nil,
    encode_valued "--publish", encode_valued "--dns", encode_valued "--dns-search",
    encode_valued "--dns-option", encode_valued "--add-host", List.append_assoc]

/-- A member that lists values is left out when there are none. -/
def nonEmpty {α : Type} (value : List α → Value) (values : List α) : Option Value :=
  if values.isEmpty then none else some (value values)

def networkingMembers (ports : PortMappings) (dns : DnsConfiguration) (aliases : HostAliases)
    (networkOrder : Option (List DeploymentResourceId)) : List (String × Option Value) := [
  ("portmappings", nonEmpty (fun ports => .array (ports.map portMappingJson)) ports.values),
  ("dns_server", nonEmpty (fun servers => stringArray (servers.map Net.IpAddr.display))
    dns.servers.values),
  ("dns_search", nonEmpty (fun search => stringArray (search.map Validated.Checked.asStr))
    dns.search.values),
  ("dns_option", nonEmpty (fun options => stringArray (options.map Validated.Checked.asStr))
    dns.options.values),
  ("hostadd", nonEmpty (fun aliases => stringArray (aliases.map hostAliasValue)) aliases.values),
  ("networkOrder",
    networkOrder.map fun order => stringArray (order.map DeploymentResourceId.name))]

theorem appendNetworkingJson_eq (body : Members) (ports : PortMappings) (dns : DnsConfiguration)
    (aliases : HostAliases) (networkOrder : Option (List DeploymentResourceId)) :
    appendNetworkingJson body ports dns aliases networkOrder =
      extend body (networkingMembers ports dns aliases networkOrder) := rfl

end Networking

section Pods

def podSegments (pod : PodIntent) : List (List Occurrence) :=
  valued "--name" [pod.identity.val.name] ::
    networkingSegments (networkTexts pod.networks none) pod.ports pod.dns pod.hostAliases

def podGroups : List Group := .taking "--name" :: networkingGroups

theorem grouped_pod (pod : PodIntent) : Grouped podGroups (podSegments pod) :=
  .cons (grouped_valued _ _) (grouped_networking _ _ _ _)

def podMembers (pod : PodIntent) : List (String × Option Value) :=
  [("name", some (.string pod.identity.val.name)),
    ("Networks", some (networkConfiguration pod.networks))] ++
  networkingMembers pod.ports pod.dns pod.hostAliases none

/-- The argument array and the request of a pod creation. -/
theorem renderPodCreate_eq {pod : PodIntent} {id : DeploymentResourceId} {version : String}
    {forms : RenderedForms} (h : renderPodCreate pod id version = .ok forms) :
    forms.cliSuffix = ["pod", "create"] ++ encode (podSegments pod).flatten ∧
      forms.path = libpodPath version "pods/create" ∧
      forms.body = .json (.object (assemble (podMembers pod))) := by
  obtain ⟨cliSuffix, hnetworks, h⟩ := bind_eq_ok.mp h
  cases h
  refine ⟨?_, rfl, ?_⟩
  · cases hvalues : appendNetworkArguments ["pod", "create", "--name", pod.identity.val.name]
        pod.networks none with
    | none =>
        rw [hvalues] at hnetworks
        cases hnetworks
    | some values =>
        rw [hvalues] at hnetworks
        cases hnetworks
        rw [(appendNetworkArguments_eq hvalues).2.2]
        exact encode_networkingSegments _ _ _ _ _
  · rw [podMembers, assemble, extend_append, ← appendNetworkingJson_eq, extend_cons, extend_cons,
      extend_nil, insertSome, insertSome]

theorem renderPodCreate_safe {pod : PodIntent} {id : DeploymentResourceId} {version : String}
    {forms : RenderedForms} (h : renderPodCreate pod id version = .ok forms) :
    ∀ attachment ∈ pod.networks.values,
      cliSafeMountComponent attachment.network.val.name = true := by
  obtain ⟨cliSuffix, hnetworks, -⟩ := bind_eq_ok.mp h
  exact (appendNetworkArguments_eq (orUnsupported_eq_ok.mp hnetworks)).2.1

end Pods

section Settings

/-- The flag and value of a mount, whatever its components. -/
def mountOption : MountIntent → Occurrence
  | .namedVolume mount =>
    let source := mount.source.val.name
    let destination := mount.destination.asStr
    match mount.subpath with
    | some subpath => ⟨"--mount",
        some (mountCliValue "volume" source destination mount.access (some subpath.asStr))⟩
    | none => ⟨"--volume", some (source ++ ":" ++ destination ++ ":" ++ accessName mount.access ++
        "," ++ mount.copyMode.asStr)⟩
  | .bind mount => ⟨"--mount",
      some (mountCliValue "bind" mount.source.asStr mount.destination.asStr mount.access none)⟩
  | .tmpfs mount => ⟨"--mount",
      some (mountCliValue "tmpfs" "" mount.destination.asStr mount.access none)⟩

def mountSource : MountIntent → String
  | .namedVolume mount => mount.source.val.name
  | .bind mount => mount.source.asStr
  | .tmpfs _ => ""

def mountSubpath : MountIntent → Option VolumeSubpath
  | .namedVolume mount => mount.subpath
  | .bind _ | .tmpfs _ => none

/-- No component of the mount holds a separator. -/
def mountSafe (mount : MountIntent) : Bool :=
  cliSafeMountComponent (mountSource mount) && cliSafeMountComponent mount.destination.asStr &&
    (mountSubpath mount).all fun subpath => cliSafeMountComponent subpath.asStr

theorem mountArguments_eq (mount : MountIntent) : mountArguments mount =
    if mountSafe mount = true then some (mountOption mount).words else none := by
  cases mount with
  | namedVolume mount =>
      cases hsubpath : mount.subpath with
      | none =>
          simp only [mountArguments, mountSafe, mountSource, mountSubpath, mountOption,
            MountIntent.destination, hsubpath, Option.all_none, Bool.and_true]
          rfl
      | some subpath =>
          simp only [mountArguments, mountSafe, mountSource, mountSubpath, mountOption,
            MountIntent.destination, hsubpath, Option.all_some]
          rfl
  | bind mount =>
      simp only [mountArguments, mountSafe, mountSource, mountSubpath, mountOption,
        MountIntent.destination, Option.all_none, Bool.and_true]
      rfl
  | tmpfs mount =>
      have hempty : cliSafeMountComponent "" = true := by decide
      simp only [mountArguments, mountSafe, mountSource, mountSubpath, mountOption,
        MountIntent.destination, Option.all_none, Bool.and_true, hempty, Bool.true_and]
      rfl

theorem mountOption_grouped (mount : MountIntent) :
    (mountOption mount).flag ∈ ["--mount", "--volume"] ∧
      (mountOption mount).value.isSome = true := by
  cases mount with
  | namedVolume mount =>
      cases hsubpath : mount.subpath with
      | none | some => simp [mountOption, hsubpath]
  | bind | tmpfs => simp [mountOption]

theorem appendMountArguments_eq {arguments values : List String} {mounts : List MountIntent}
    (h : appendMountArguments arguments mounts = some values) :
    (∀ mount ∈ mounts, mountSafe mount = true) ∧
      values = arguments ++ encode (mounts.map mountOption) := by
  rw [appendMountArguments, Option.bind_eq_bind, Option.bind_eq_some_iff] at h
  obtain ⟨texts, htexts, h⟩ := h
  cases h
  obtain ⟨hsafe, rfl⟩ := mapM_guarded mountArguments_eq htexts
  rw [encode, List.flatMap_map, List.flatMap_def]
  exact ⟨hsafe, rfl⟩

/-- The flag value of a grant, whatever its components. -/
def secretText : SecretGrant → String
  | .mount source target uid gid mode =>
    "source=" ++ source.val.name ++ ",type=mount" ++
      optionText ",target=" Validated.Checked.asStr target ++
      optionText ",uid=" (fun id : UnixId => id.val.repr) uid ++
      optionText ",gid=" (fun id : UnixId => id.val.repr) gid ++
      optionText ",mode=" (fun mode : SecretMode => octal mode.val) mode
  | .environment source target =>
    "source=" ++ source.val.name ++ ",type=env,target=" ++ target.asStr

def secretSafe (grant : SecretGrant) : Bool :=
  cliSafeMountComponent grant.source.name &&
    grant.mountTarget.all fun target => cliSafeMountComponent target.asStr

theorem secretGrantCliValue_eq (grant : SecretGrant) : secretGrantCliValue grant =
    if secretSafe grant = true then some (secretText grant) else none := by
  unfold secretGrantCliValue secretSafe
  cases cliSafeMountComponent grant.source.name with
  | false => rfl
  | true =>
      cases grant with
      | mount | environment => rfl

theorem appendSecretGrantsArguments_eq {arguments values : List String} {grants : List SecretGrant}
    (h : appendSecretGrantsArguments arguments grants = some values) :
    (∀ grant ∈ grants, secretSafe grant = true) ∧
      values = arguments ++ encode (valued "--secret" (grants.map secretText)) := by
  rw [appendSecretGrantsArguments, Option.bind_eq_bind, Option.bind_eq_some_iff] at h
  obtain ⟨texts, htexts, h⟩ := h
  cases h
  obtain ⟨hsafe, rfl⟩ := mapM_guarded secretGrantCliValue_eq htexts
  rw [encode_valued, List.flatMap_map]
  exact ⟨hsafe, rfl⟩

/-- The assignments whose values may be rendered. -/
def environmentTexts (policy : SensitiveInlineRenderPolicy)
    (assignments : List EnvironmentAssignment) : List (String × String) :=
  assignments.filterMap fun assignment =>
    (authorizedEnvironmentValue policy assignment.value).map (assignment.name.asStr, ·)

theorem authorizedEnvironment_eq {policy : SensitiveInlineRenderPolicy}
    {assignments : List EnvironmentAssignment} {identity : DeploymentResourceId}
    {values : List (String × String)}
    (h : authorizedEnvironment policy assignments identity = .ok values) :
    values = environmentTexts policy assignments := by
  induction assignments generalizing values with
  | nil =>
      cases h
      rfl
  | cons assignment rest ih =>
      rw [authorizedEnvironment, List.mapM_cons] at h
      obtain ⟨value, hvalue, h⟩ := bind_eq_ok.mp h
      obtain ⟨others, hothers, h⟩ := bind_eq_ok.mp h
      cases h
      rw [ih hothers, environmentTexts, environmentTexts]
      cases hauthorized : authorizedEnvironmentValue policy assignment.value with
      | none =>
          rw [hauthorized] at hvalue
          cases hvalue
      | some text =>
          rw [hauthorized] at hvalue
          cases hvalue
          rw [List.filterMap_cons_some (by rw [hauthorized]; rfl)]

def settingSegments (settings : ContainerSettings) (environment : List (String × String)) :
    List (List Occurrence) := [
  valued "--entrypoint" (settings.entrypoint.toList.map fun entrypoint =>
    render (stringArray entrypoint.values)),
  valued "--user" (settings.user.toList.map Validated.Checked.asStr),
  valued "--workdir" (settings.workdir.toList.map Validated.Checked.asStr),
  valued "--hostname" (settings.hostname.toList.map Validated.Checked.asStr),
  valued "--label" (settings.labels.values.map fun label =>
    label.key.asStr ++ "=" ++ label.value.asStr),
  valued "--env" (environment.map fun assignment => assignment.1 ++ "=" ++ assignment.2),
  valued "--restart" (settings.restartPolicy.toList.map RestartPolicy.asStr)]

def settingGroups : List Group :=
  [.taking "--entrypoint", .taking "--user", .taking "--workdir", .taking "--hostname",
    .taking "--label", .taking "--env", .taking "--restart"]

theorem grouped_settings (settings : ContainerSettings) (environment : List (String × String)) :
    Grouped settingGroups (settingSegments settings environment) := by
  iterate 7 apply List.Forall₂.cons (grouped_valued _ _)
  exact .nil

def settingMembers (container : ContainerIntent) (environment : List (String × String)) :
    List (String × Option Value) :=
  let settings := container.settings
  [("command", settings.command.map fun command => stringArray command.values),
    ("entrypoint", settings.entrypoint.map fun entrypoint => stringArray entrypoint.values),
    ("user", settings.user.map fun user => .string user.asStr),
    ("work_dir", settings.workdir.map fun path => .string path.asStr),
    ("hostname", settings.hostname.map fun hostname => .string hostname.asStr),
    ("labels", nonEmpty labelsJson settings.labels.values),
    ("env", nonEmpty (fun environment => .object <| ofPairs <|
      environment.map fun assignment => (assignment.1, .string assignment.2)) environment),
    ("restart_policy", settings.restartPolicy.map fun policy => .string policy.asStr),
    ("volumes", nonEmpty .array (mountJson container.mounts)),
    ("mounts", nonEmpty .array (nativeMountJson container.mounts))]

theorem appendContainerSettingArguments_eq {arguments values : List String}
    {container : ContainerIntent} {identity : DeploymentResourceId}
    {policy : SensitiveInlineRenderPolicy}
    (h : appendContainerSettingArguments arguments container identity policy = .ok values) :
    values = arguments ++ encode (settingSegments container.settings
      (environmentTexts policy container.settings.environment.values)).flatten := by
  obtain ⟨environment, henvironment, h⟩ := bind_eq_ok.mp h
  cases h
  rw [← authorizedEnvironment_eq henvironment]
  simp only [settingSegments, List.flatten_cons, List.flatten_nil, encode_append,
    List.append_nil, encode_setting "--entrypoint", encode_setting "--user",
    encode_setting "--workdir", encode_setting "--hostname", encode_setting "--restart",
    encode_valued "--label", encode_valued "--env", List.append_assoc]

theorem appendContainerSettingJson_eq {body values : Members} {container : ContainerIntent}
    {identity : DeploymentResourceId} {policy : SensitiveInlineRenderPolicy}
    (h : appendContainerSettingJson body container identity policy = .ok values) :
    values = extend body (settingMembers container
      (environmentTexts policy container.settings.environment.values)) := by
  obtain ⟨environment, henvironment, h⟩ := bind_eq_ok.mp h
  rw [← authorizedEnvironment_eq henvironment]
  exact (Except.ok.inj h).symm

def secretMembers (grants : List SecretGrant) : List (String × Option Value) :=
  [("secrets", nonEmpty .array (grants.filterMap secretMountJson)),
    ("secret_env", nonEmpty .object (ofPairs (grants.filterMap secretEnvironmentJson)))]

theorem appendSecretGrantsJson_eq (body : Members) (grants : List SecretGrant) :
    appendSecretGrantsJson body grants = extend body (secretMembers grants) := rfl

end Settings

end PodmanLens
