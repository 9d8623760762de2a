import PodmanLens.RenderRuntime
import PodmanLens.TreeEntries

/-!
# Rendering a plan

`renderOperation` spells one operation out in both forms. `renderDeploymentInner` goes through the
operations of a plan, blocks a resource at its first unsupported field, and returns a rendering
only when nothing was reported.
-/

namespace PodmanLens
open Std Text Json TreeEntries

section Settings

def authorizedEnvironmentValue (policy : SensitiveInlineRenderPolicy) :
    DeploymentEnvironmentValue → Option String
  | .public value => some value.asStr
  | .sensitiveInline value =>
    if policy = .authorized then some value.protectedValue.asStr else none
  | .external _ => none

/-- The assignments with their values, when every value may be rendered. -/
def authorizedEnvironment (policy : SensitiveInlineRenderPolicy)
    (assignments : List EnvironmentAssignment) (identity : DeploymentResourceId) :
    RenderResult (List (String × String)) :=
  assignments.mapM fun assignment =>
    match authorizedEnvironmentValue policy assignment.value with
    | some value => .ok (assignment.name.asStr, value)
    | none => .error (unsupportedFinding identity "environment")

def RestartPolicy.asStr : RestartPolicy → String
  | .no => "no"
  | .onFailure => "on-failure"
  | .always => "always"
  | .unlessStopped => "unless-stopped"

def appendContainerSettingArguments (arguments : List String) (container : ContainerIntent)
    (identity : DeploymentResourceId) (policy : SensitiveInlineRenderPolicy) :
    RenderResult (List String) := do
  let settings := container.settings
  let environment ← authorizedEnvironment policy settings.environment.values identity
  return arguments ++
    flagArguments "--entrypoint" (fun entrypoint : ArgumentArray =>
      render (stringArray entrypoint.values)) settings.entrypoint ++
    flagArguments "--user" Validated.Checked.asStr settings.user ++
    flagArguments "--workdir" Validated.Checked.asStr settings.workdir ++
    flagArguments "--hostname" Validated.Checked.asStr settings.hostname ++
    settings.labels.values.flatMap (fun label =>
      ["--label", label.key.asStr ++ "=" ++ label.value.asStr]) ++
    environment.flatMap (fun assignment => ["--env", assignment.1 ++ "=" ++ assignment.2]) ++
    flagArguments "--restart" RestartPolicy.asStr settings.restartPolicy

def appendContainerSettingJson (body : Members) (container : ContainerIntent)
    (identity : DeploymentResourceId) (policy : SensitiveInlineRenderPolicy) :
    RenderResult Members := do
  let settings := container.settings
  let body := insertSome body "command"
    (settings.command.map fun command => stringArray command.values)
  let body := insertSome body "entrypoint"
    (settings.entrypoint.map fun entrypoint => stringArray entrypoint.values)
  let body := insertSome body "user" (settings.user.map fun user => .string user.asStr)
  let body := insertSome body "work_dir" (settings.workdir.map fun path => .string path.asStr)
  let body := insertSome body "hostname"
    (settings.hostname.map fun hostname => .string hostname.asStr)
  let body := insertSome body "labels" <| if settings.labels.values.isEmpty then none
    else some (labelsJson settings.labels.values)
  let environment ← authorizedEnvironment policy settings.environment.values identity
  let body := insertSome body "env" <| if environment.isEmpty then none
    else some <| .object <| ofPairs <|
      environment.map fun assignment => (assignment.1, .string assignment.2)
  let body := insertSome body "restart_policy"
    (settings.restartPolicy.map fun policy => .string policy.asStr)
  let volumes := mountJson container.mounts
  let mounts := nativeMountJson container.mounts
  let body := insertSome body "volumes" (if volumes.isEmpty then none else some (.array volumes))
  return insertSome body "mounts" (if mounts.isEmpty then none else some (.array mounts))

end Settings

section Unsupported

def networkAttachmentHasStaticAddress (attachment : NetworkAttachment) : Bool :=
  attachment.staticIpv4.isSome || attachment.staticIpv6.isSome || attachment.staticMac.isSome

def hasSensitiveInlineEnvironment (container : ContainerIntent) : Bool :=
  container.settings.environment.values.any fun assignment => assignment.value.isSensitiveInline

def hasExternalEnvironment (container : ContainerIntent) : Bool :=
  container.settings.environment.values.any fun assignment => assignment.value.isExternal

def staticAddressField : String := "networks.static_address_requires_rootful"

def unsupportedContainerFields (container : ContainerIntent) (version : String)
    (context : TargetExecutionContext) (policy : SensitiveInlineRenderPolicy) : List String :=
  let member := container.pod.isSome
  unsupportedRuntimeFields container version ++
  fieldWhen (member && !container.networks.values.isEmpty) "networks" ++
  fieldWhen (member && !container.ports.values.isEmpty) "ports" ++
  fieldWhen (member && !container.dns.isEmpty) "dns" ++
  fieldWhen (member && !container.hostAliases.values.isEmpty) "host_aliases" ++
  fieldWhen (member && container.networkOrder.isSome) "network_order" ++
  fieldWhen (context != .rootful && container.networks.values.any networkAttachmentHasStaticAddress)
    staticAddressField ++
  fieldWhen (container.networkOrder.isSome && !supportsNetworkOrder version) "network_order" ++
  fieldWhen (!container.secretGrants.isEmpty && !secretGrantsRenderable container.secretGrants)
    "secret_grants" ++
  fieldWhen (container.mounts.any mountHasUnsupportedSubpath) "mounts.subpath_nocopy" ++
  fieldWhen (policy == .reject && hasSensitiveInlineEnvironment container)
    "environment.sensitive_inline" ++
  fieldWhen (hasExternalEnvironment container) "environment.external" ++
  fieldWhen (member && container.settings.restartPolicy.isSome) "restart_policy.pod_member"

def unsupportedFields (resource : DeploymentResource) (version : String)
    (context : TargetExecutionContext) (policy : SensitiveInlineRenderPolicy) : List String :=
  match resource with
  | .image image =>
    fieldWhen (image.source.classification != .portable) "source.portability" ++
    fieldWhen (!supportsImagePolicy version) "pull_policy.target_version"
  | .volume volume =>
    fieldWhen (!supportsVolumeOwnership version && (volume.uid.isSome || volume.gid.isSome))
      "owner.target_version"
  | .network network =>
    fieldWhen (!supportsNetworkRouteType version &&
      network.routes.values.any fun route => route.routeType != .unicast) "routes.route_type"
  | .pod pod =>
    fieldWhen (context != .rootful && pod.networks.values.any networkAttachmentHasStaticAddress)
      staticAddressField ++
    fieldWhen (!pod.infraMounts.isEmpty) "infra_mounts"
  | .container container => unsupportedContainerFields container version context policy
  | .externalPrecondition _ | .secret _ => []

end Unsupported

section Operations

abbrev ManagedImageSources := ExtTreeMap DeploymentResourceId String

def managedImageSources (plan : DeploymentPlan) : ManagedImageSources :=
  insertAll (fun operation : DeploymentOperation =>
    match operation.resourceIntent with
    | .image image => some (image.identity.val, image.source.asStr)
    | _ => none) plan.operations ∅

/-- What one operation contributes besides the connection prefix. -/
structure RenderedForms where
  status : RenderStatus
  cliSuffix : List String
  path : String
  body : RenderedHttpBody
  input : Option SensitiveInputReference := none

def libpodPath (version route : String) : String := "/v" ++ version ++ "/libpod/" ++ route

/-- The failure a helper reports by refusing, as the finding on the named field. -/
def orUnsupported {α : Type} (identity : DeploymentResourceId) (field : String) :
    Option α → RenderResult α
  | some value => .ok value
  | none => .error (unsupportedFinding identity field)

def renderPodCreate (pod : PodIntent) (id : DeploymentResourceId) (version : String) :
    RenderResult RenderedForms := do
  let name := pod.identity.val.name
  let cliSuffix ← orUnsupported id "networks.cli_ambiguous" <|
    appendNetworkArguments ["pod", "create", "--name", name] pod.networks none
  let cliSuffix := appendPortArguments cliSuffix pod.ports
  let cliSuffix := appendDnsArguments cliSuffix pod.dns
  let cliSuffix := appendHostAliasArguments cliSuffix pod.hostAliases
  let body := insert (insert [] "name" (.string name)) "Networks" (networkConfiguration pod.networks)
  let body := appendNetworkingJson body pod.ports pod.dns pod.hostAliases none
  return {
    status := .exact, cliSuffix, path := libpodPath version "pods/create",
    body := .json (.object body) }

/-- Pod members name their pod, every other container carries its own networking. -/
def renderContainerNetworking (container : ContainerIntent) (id : DeploymentResourceId)
    (image : String) (cliSuffix : List String) : RenderResult (List String × Members) :=
  match container.pod with
  | some pod => .ok (cliSuffix ++ ["--pod", pod.val.name],
      ofPairs [("image", .string image), ("pod", .string pod.val.name)])
  | none => do
    let order := container.networkOrderIds
    let cliSuffix ← orUnsupported id "networks.cli_ambiguous" <|
      appendNetworkArguments cliSuffix container.networks order
    let cliSuffix := appendPortArguments cliSuffix container.ports
    let cliSuffix := appendDnsArguments cliSuffix container.dns
    let cliSuffix := appendHostAliasArguments cliSuffix container.hostAliases
    let body := ofPairs
      [("image", .string image), ("Networks", networkConfiguration container.networks)]
    return (cliSuffix,
      appendNetworkingJson body container.ports container.dns container.hostAliases order)

def renderContainerCreate (container : ContainerIntent) (id : DeploymentResourceId)
    (version : String) (sources : ManagedImageSources) (policy : SensitiveInlineRenderPolicy) :
    RenderResult RenderedForms := do
  let name := container.identity.val.name
  let image := (sources[container.image.val]?).getD container.image.val.name
  let (cliSuffix, body) ← renderContainerNetworking container id image
    ["container", "create", "--name", name, "--pull=never"]
  let cliSuffix ← orUnsupported id "mounts.cli_ambiguous"
    (appendMountArguments cliSuffix container.mounts)
  let cliSuffix ← orUnsupported id "secret_grants.cli_ambiguous"
    (appendSecretGrantsArguments cliSuffix container.secretGrants)
  let cliSuffix ← appendContainerSettingArguments cliSuffix container id policy
  let cliSuffix ← appendContainerRuntimeArguments cliSuffix container id version
  let body ← appendContainerSettingJson body container id policy
  let body := appendSecretGrantsJson body container.secretGrants
  let body ← appendContainerRuntimeJson body container id version
  let command := (container.settings.command.map ArgumentArray.values).getD []
  return {
    status := .exact, cliSuffix := cliSuffix ++ [image] ++ command,
    path := libpodPath version ("containers/create?name=" ++ percentEncode name),
    body := .json (.object body) }

def renderForms (operation : DeploymentOperation) (version : String)
    (sources : ManagedImageSources) (policy : SensitiveInlineRenderPolicy) :
    RenderResult RenderedForms :=
  let id := operation.id.resource
  match operation.resourceIntent with
  | .network network => .ok {
      status := .exact
      cliSuffix := networkCreateCliArguments network
      path := libpodPath version "networks/create"
      body := .json (networkCreateConfiguration network (supportsNetworkRouteType version)) }
  | .volume volume => .ok {
      status := .exact
      cliSuffix := volumeCreateCliArguments volume
      path := libpodPath version "volumes/create"
      body := .json (volumeCreateJson volume) }
  | .secret secret => .ok {
      status := .deferredSensitiveInput
      cliSuffix := ["secret", "create", secret.identity.val.name, "-"]
      path := libpodPath version ("secrets/create?name=" ++ percentEncode secret.identity.val.name)
      body := .externalSensitiveInput secret.material
      input := some secret.material }
  | .image image => .ok {
      status := .exact
      cliSuffix := ["image", "pull", "--policy=" ++ image.pullPolicy.asStr, image.source.asStr]
      path := libpodPath version ("images/pull?reference=" ++ percentEncode image.source.asStr ++
        "&policy=" ++ image.pullPolicy.asStr)
      body := .empty }
  | .pod pod =>
    if operation.id.action = .startPod then .ok {
      status := .exact
      cliSuffix := ["pod", "start", pod.identity.val.name]
      path := libpodPath version ("pods/" ++ percentEncode pod.identity.val.name ++ "/start")
      body := .empty }
    else renderPodCreate pod id version
  | .container container =>
    if operation.id.action = .startContainer then .ok {
      status := .exact
      cliSuffix := ["container", "start", container.identity.val.name]
      path := libpodPath version
        ("containers/" ++ percentEncode container.identity.val.name ++ "/start")
      body := .empty }
    else renderContainerCreate container id version sources policy
  | .externalPrecondition _ => .error (unsupportedFinding id "resource")

/-- Every rendered request is a `POST`. -/
def renderOperation (operation : DeploymentOperation) (version : String)
    (connection : Option String) (sources : ManagedImageSources)
    (policy : SensitiveInlineRenderPolicy) : RenderResult RenderedOperation := do
  let forms ← renderForms operation version sources policy
  let argv := connection.toList.flatMap (fun name => ["--connection", name]) ++ forms.cliSuffix
  return {
    operation
    status := forms.status
    cli := .new argv forms.input
    libpod := ⟨.post, forms.path, forms.body⟩ }

end Operations

section Deployment

structure RenderScan where
  deferred : Bool
  containsProtectedInlineEnvironment : Bool
  operations : List RenderedOperation
  findings : List RenderingFinding
  blockedResources : ExtTreeSet DeploymentResourceId

/-- Portability of an image source is a manual step, every other field is unsupported. -/
def fieldFinding (identity : DeploymentResourceId) (field : String) : RenderingFinding :=
  ⟨if field = "source.portability" then .imagePortabilityManual else .renderingUnsupported,
    some identity, some field⟩

def rendersProtectedEnvironment (operation : DeploymentOperation) : Bool :=
  operation.id.action == .create &&
    match operation.resourceIntent with
    | .container container => hasSensitiveInlineEnvironment container
    | _ => false

def RenderScan.step (plan : DeploymentPlan) (version : String)
    (policy : SensitiveInlineRenderPolicy) (scan : RenderScan) (operation : DeploymentOperation) :
    RenderScan :=
  if operation.id.resource ∈ scan.blockedResources then scan
  else
    let fields := unsupportedFields operation.resourceIntent version plan.target.executionContext
      policy
    if !fields.isEmpty then
      { scan with
        blockedResources := scan.blockedResources.insert operation.id.resource
        findings := scan.findings ++ fields.map (fieldFinding operation.id.resource) }
    else
      match renderOperation operation version (plan.connection.map Validated.Checked.asStr)
        (managedImageSources plan) policy with
      | .ok rendered =>
        { scan with
          containsProtectedInlineEnvironment :=
            scan.containsProtectedInlineEnvironment || rendersProtectedEnvironment operation
          deferred := scan.deferred || rendered.status == .deferredSensitiveInput
          operations := scan.operations ++ [rendered] }
      | .error finding => { scan with findings := scan.findings ++ [finding] }

def RenderScan.run (plan : DeploymentPlan) (version : String)
    (policy : SensitiveInlineRenderPolicy) : RenderScan :=
  plan.operations.foldl (RenderScan.step plan version policy) ⟨false, false, [], [], ∅⟩

def sortRenderingFindings (findings : List RenderingFinding) : List RenderingFinding :=
  findings.insertionSort fun a b => (RenderingFinding.compareFindings a b).isLE

def renderDeploymentInner (plan : DeploymentPlan) (policy : SensitiveInlineRenderPolicy) :
    RenderingOutcome :=
  match reviewedRendererTargetVersion plan with
  | none => ⟨none, [⟨.renderingTargetMismatch, none, some "target"⟩]⟩
  | some version =>
    let scan := RenderScan.run plan version policy
    let findings := sortRenderingFindings scan.findings
    if findings.isEmpty then
      { rendering := some
          { status := if scan.deferred then .deferredSensitiveInput else .exact
            containsProtectedInlineEnvironment := scan.containsProtectedInlineEnvironment
            connection := plan.connection
            externalPreconditions := plan.externalPreconditions
            operations := scan.operations }
        findings }
    else { rendering := none, findings }

def renderDeployment (plan : DeploymentPlan) : RenderingOutcome :=
  renderDeploymentInner plan .reject

/-- Renders with every protected inline environment value of the plan. -/
def renderDeploymentWithAuthorization (plan : DeploymentPlan) : RenderingOutcome :=
  renderDeploymentInner plan .authorized

end Deployment

end PodmanLens
