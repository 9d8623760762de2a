import PodmanLens.Redaction
import PodmanLens.ShellScript

/-!
# Rendering redacted plans

Without an authorization the renderer refuses inline and external environment values and health
commands, so the forms of an operation never hold protected bytes: rendering a redacted plan is
redacting the rendering, and only the references to external input are changed by that.
-/

namespace PodmanLens
open Std TreeEntries Validated Json

section Redact

def RenderedHttpBody.redact : RenderedHttpBody → RenderedHttpBody
  | .externalSensitiveInput _ => .externalSensitiveInput maskedReference
  | body => body

def RenderedForms.redact (forms : RenderedForms) : RenderedForms :=
  { forms with body := forms.body.redact, input := forms.input.map fun _ => maskedReference }

def RenderedOperation.redact (rendered : RenderedOperation) : RenderedOperation :=
  { rendered with
    operation := rendered.operation.redact
    cli := { rendered.cli with externalInput := rendered.cli.externalInput.map fun _ => maskedReference }
    libpod := { rendered.libpod with body := rendered.libpod.body.redact } }

def DeploymentRendering.redact (rendering : DeploymentRendering) : DeploymentRendering :=
  { rendering with operations := rendering.operations.map RenderedOperation.redact }

def RenderingOutcome.redact (outcome : RenderingOutcome) : RenderingOutcome :=
  { outcome with rendering := outcome.rendering.map DeploymentRendering.redact }

def RenderScan.redact (scan : RenderScan) : RenderScan :=
  { scan with operations := scan.operations.map RenderedOperation.redact }

end Redact

section Environment

theorem authorizedEnvironment_redact (assignments : List EnvironmentAssignment)
    (identity : DeploymentResourceId) :
    authorizedEnvironment .reject (assignments.map EnvironmentAssignment.redact) identity =
      authorizedEnvironment .reject assignments identity := by
  rw [authorizedEnvironment, authorizedEnvironment, List.mapM_map]
  congr 1
  funext assignment
  obtain ⟨name, value⟩ := assignment
  cases value <;> rfl

/-- Tests that read no protected value do not tell a redacted container apart. -/
theorem any_environment_redact {p : DeploymentEnvironmentValue → Bool}
    (hp : ∀ value, p value.redact = p value) (container : ContainerIntent) :
    (container.redact.settings.environment.values.any fun assignment => p assignment.value) =
      container.settings.environment.values.any fun assignment => p assignment.value := by
  change (container.settings.environment.values.map EnvironmentAssignment.redact).any _ = _
  rw [List.any_map]
  congr 1
  funext assignment
  exact hp assignment.value

theorem hasSensitiveInlineEnvironment_redact (container : ContainerIntent) :
    hasSensitiveInlineEnvironment container.redact = hasSensitiveInlineEnvironment container :=
  any_environment_redact (by intro value; cases value <;> rfl) container

theorem hasExternalEnvironment_redact (container : ContainerIntent) :
    hasExternalEnvironment container.redact = hasExternalEnvironment container :=
  any_environment_redact (by intro value; cases value <;> rfl) container

theorem appendContainerSettingArguments_redact (arguments : List String)
    (container : ContainerIntent) (identity : DeploymentResourceId) :
    appendContainerSettingArguments arguments container.redact identity .reject =
      appendContainerSettingArguments arguments container identity .reject := by
  have henvironment : authorizedEnvironment .reject
      container.redact.settings.environment.values identity =
        authorizedEnvironment .reject container.settings.environment.values identity :=
    authorizedEnvironment_redact _ identity
  simp only [appendContainerSettingArguments, henvironment]
  rfl

theorem appendContainerSettingJson_redact (body : Members) (container : ContainerIntent)
    (identity : DeploymentResourceId) :
    appendContainerSettingJson body container.redact identity .reject =
      appendContainerSettingJson body container identity .reject := by
  have henvironment : authorizedEnvironment .reject
      container.redact.settings.environment.values identity =
        authorizedEnvironment .reject container.settings.environment.values identity :=
    authorizedEnvironment_redact _ identity
  simp only [appendContainerSettingJson, henvironment]
  rfl

end Environment

section Health

variable (identity : DeploymentResourceId)

theorem healthCommandJson_redact (command : HealthCommand) (field : String) :
    healthCommandJson command.redact identity field = healthCommandJson command identity field := by
  cases command <;> rfl

theorem appendHealthCheckArguments_redact (arguments : List String) (health : Option HealthCheck) :
    appendHealthCheckArguments arguments identity (health.map HealthCheck.redact) =
      appendHealthCheckArguments arguments identity health := by
  cases health with
  | none => rfl
  | some health =>
      cases health with
      | disabled => rfl
      | command configured =>
          simp only [Option.map_some, HealthCheck.redact, appendHealthCheckArguments,
            healthCommandCli, healthCommandJson_redact]
          rfl

theorem appendStartupHealthArguments_redact (arguments : List String)
    (startup : Option StartupHealthCheck) :
    appendStartupHealthArguments arguments identity (startup.map StartupHealthCheck.redact) =
      appendStartupHealthArguments arguments identity startup := by
  cases startup with
  | none => rfl
  | some startup =>
      simp only [Option.map_some, StartupHealthCheck.redact, appendStartupHealthArguments,
        healthCommandCli, healthCommandJson_redact]

theorem appendHealthCheckJson_redact (body : Members) (health : Option HealthCheck) :
    appendHealthCheckJson body identity (health.map HealthCheck.redact) =
      appendHealthCheckJson body identity health := by
  cases health with
  | none => rfl
  | some health =>
      cases health with
      | disabled => rfl
      | command configured =>
          simp only [Option.map_some, HealthCheck.redact, appendHealthCheckJson, healthJson,
            healthCommandJson_redact]
          rfl

theorem appendStartupHealthCheckJson_redact (body : Members) (startup : Option StartupHealthCheck) :
    appendStartupHealthCheckJson body identity (startup.map StartupHealthCheck.redact) =
      appendStartupHealthCheckJson body identity startup := by
  cases startup with
  | none => rfl
  | some startup =>
      simp only [Option.map_some, StartupHealthCheck.redact, appendStartupHealthCheckJson,
        healthCommandJson_redact]
      rfl

theorem appendContainerRuntimeArguments_redact (arguments : List String)
    (container : ContainerIntent) (version : String) :
    appendContainerRuntimeArguments arguments container.redact identity version =
      appendContainerRuntimeArguments arguments container identity version := by
  have hhealth : container.redact.runtime.health =
      container.runtime.health.map HealthCheck.redact := rfl
  have hstartup : container.redact.runtime.startupHealth =
      container.runtime.startupHealth.map StartupHealthCheck.redact := rfl
  simp only [appendContainerRuntimeArguments, hhealth, hstartup,
    appendHealthCheckArguments_redact, appendStartupHealthArguments_redact]
  rfl

theorem appendContainerRuntimeJson_redact (body : Members) (container : ContainerIntent)
    (version : String) :
    appendContainerRuntimeJson body container.redact identity version =
      appendContainerRuntimeJson body container identity version := by
  have hhealth : container.redact.runtime.health =
      container.runtime.health.map HealthCheck.redact := rfl
  have hstartup : container.redact.runtime.startupHealth =
      container.runtime.startupHealth.map StartupHealthCheck.redact := rfl
  simp only [appendContainerRuntimeJson, hhealth, hstartup, appendHealthCheckJson_redact,
    appendStartupHealthCheckJson_redact]
  rfl

theorem healthCommandIsSensitive_redact (command : HealthCommand) :
    healthCommandIsSensitive command.redact = healthCommandIsSensitive command := by
  cases command <;> rfl

theorem unsupportedRuntimeFields_redact (container : ContainerIntent) (version : String) :
    unsupportedRuntimeFields container.redact version =
      unsupportedRuntimeFields container version := by
  have hcommand : container.redact.runtime.health.any HealthCheck.isCommand =
      container.runtime.health.any HealthCheck.isCommand := by
    change (container.runtime.health.map HealthCheck.redact).any _ = _
    cases container.runtime.health with
    | none => rfl
    | some health => cases health <;> rfl
  have hsensitive : (container.redact.runtime.health.bind configuredCommand).any
      healthCommandIsSensitive =
        (container.runtime.health.bind configuredCommand).any healthCommandIsSensitive := by
    change ((container.runtime.health.map HealthCheck.redact).bind _).any _ = _
    cases container.runtime.health with
    | none => rfl
    | some health =>
        cases health with
        | disabled => rfl
        | command configured => exact healthCommandIsSensitive_redact configured.command
  have hstartup : container.redact.runtime.startupHealth.isSome =
      container.runtime.startupHealth.isSome := Option.isSome_map
  have hstartupSensitive : (container.redact.runtime.startupHealth.any fun startup =>
      healthCommandIsSensitive startup.command) =
        container.runtime.startupHealth.any fun startup =>
          healthCommandIsSensitive startup.command := by
    change (container.runtime.startupHealth.map StartupHealthCheck.redact).any _ = _
    cases container.runtime.startupHealth with
    | none => rfl
    | some startup => exact healthCommandIsSensitive_redact startup.command
  simp only [unsupportedRuntimeFields, hcommand, hsensitive, hstartup, hstartupSensitive]
  rfl

end Health

section Operations

theorem unsupportedFields_redact (resource : DeploymentResource) (version : String)
    (context : TargetExecutionContext) (policy : SensitiveInlineRenderPolicy) :
    unsupportedFields resource.redact version context policy =
      unsupportedFields resource version context policy := by
  cases resource with
  | externalPrecondition | image | network | volume | secret | pod => rfl
  | container container =>
      simp only [DeploymentResource.redact, unsupportedFields, unsupportedContainerFields,
        unsupportedRuntimeFields_redact, hasSensitiveInlineEnvironment_redact,
        hasExternalEnvironment_redact]
      rfl

theorem renderContainerCreate_redact (container : ContainerIntent) (id : DeploymentResourceId)
    (version : String) (sources : ManagedImageSources) :
    renderContainerCreate container.redact id version sources .reject =
      renderContainerCreate container id version sources .reject := by
  have hnetworking (image : String) (cliSuffix : List String) :
      renderContainerNetworking container.redact id image cliSuffix =
        renderContainerNetworking container id image cliSuffix := rfl
  simp only [renderContainerCreate, hnetworking, appendContainerSettingArguments_redact,
    appendContainerSettingJson_redact, appendContainerRuntimeArguments_redact,
    appendContainerRuntimeJson_redact]
  rfl

theorem renderPodCreate_redact {pod : PodIntent} {id : DeploymentResourceId} {version : String} :
    (renderPodCreate pod id version).map RenderedForms.redact = renderPodCreate pod id version := by
  cases h : renderPodCreate pod id version with
  | error finding => rfl
  | ok forms =>
      obtain ⟨cliSuffix, -, hforms⟩ := bind_eq_ok.mp h
      cases hforms
      rfl

theorem map_renderContainerCreate_redact {container : ContainerIntent} {id : DeploymentResourceId}
    {version : String} {sources : ManagedImageSources} {policy : SensitiveInlineRenderPolicy} :
    (renderContainerCreate container id version sources policy).map RenderedForms.redact =
      renderContainerCreate container id version sources policy := by
  cases h : renderContainerCreate container id version sources policy with
  | error finding => rfl
  | ok forms =>
      obtain ⟨_, -, h⟩ := bind_eq_ok.mp h
      obtain ⟨_, -, h⟩ := bind_eq_ok.mp h
      obtain ⟨_, -, h⟩ := bind_eq_ok.mp h
      obtain ⟨_, -, h⟩ := bind_eq_ok.mp h
      obtain ⟨_, -, h⟩ := bind_eq_ok.mp h
      obtain ⟨_, -, h⟩ := bind_eq_ok.mp h
      obtain ⟨_, -, h⟩ := bind_eq_ok.mp h
      cases h
      rfl

theorem map_redact_ite {condition : Prop} [Decidable condition]
    {first second : RenderResult RenderedForms} (hfirst : first.map RenderedForms.redact = first)
    (hsecond : second.map RenderedForms.redact = second) :
    (if condition then first else second).map RenderedForms.redact =
      if condition then first else second := by
  split_ifs
  · exact hfirst
  · exact hsecond

/-- Rendering a redacted operation is redacting its forms. -/
theorem renderForms_redact (operation : DeploymentOperation) (version : String)
    (sources : ManagedImageSources) :
    renderForms operation.redact version sources .reject =
      (renderForms operation version sources .reject).map RenderedForms.redact := by
  obtain ⟨id, resourceIntent, dependsOn, imagePullPolicy⟩ := operation
  cases resourceIntent with
  | externalPrecondition | image | network | volume | secret => rfl
  | pod pod => exact (map_redact_ite rfl renderPodCreate_redact).symm
  | container container =>
      simp only [DeploymentOperation.redact, DeploymentResource.redact, renderForms,
        renderContainerCreate_redact]
      exact (map_redact_ite rfl map_renderContainerCreate_redact).symm

theorem renderOperation_redact (operation : DeploymentOperation) (version : String)
    (connection : Option String) (sources : ManagedImageSources) :
    renderOperation operation.redact version connection sources .reject =
      (renderOperation operation version connection sources .reject).map
        RenderedOperation.redact := by
  rw [renderOperation, renderOperation, renderForms_redact]
  cases renderForms operation version sources .reject with
  | error finding => rfl
  | ok forms => rfl

end Operations

section Deployment

theorem managedImageSources_redact (plan : DeploymentPlan) :
    managedImageSources plan.redact = managedImageSources plan := by
  rw [managedImageSources, managedImageSources, insertAll, insertAll]
  change (plan.operations.map DeploymentOperation.redact).foldl _ _ = _
  rw [List.foldl_map]
  congr 1
  funext sources operation
  obtain ⟨id, resourceIntent, dependsOn, imagePullPolicy⟩ := operation
  cases resourceIntent <;> rfl

theorem rendersProtectedEnvironment_redact (operation : DeploymentOperation) :
    rendersProtectedEnvironment operation.redact = rendersProtectedEnvironment operation := by
  obtain ⟨id, resourceIntent, dependsOn, imagePullPolicy⟩ := operation
  cases resourceIntent with
  | externalPrecondition | image | network | volume | secret | pod => rfl
  | container container =>
      simp only [rendersProtectedEnvironment, DeploymentOperation.redact,
        DeploymentResource.redact, hasSensitiveInlineEnvironment_redact]

theorem step_redact (plan : DeploymentPlan) (version : String) (scan : RenderScan)
    (operation : DeploymentOperation) :
    scan.redact.step plan.redact version .reject operation.redact =
      (scan.step plan version .reject operation).redact := by
  have hfields : unsupportedFields operation.redact.resourceIntent version
      plan.redact.target.executionContext .reject =
        unsupportedFields operation.resourceIntent version plan.target.executionContext .reject :=
    unsupportedFields_redact _ _ _ _
  have hid : operation.redact.id = operation.id := rfl
  have hconnection : plan.redact.connection = plan.connection := rfl
  have hblocked : scan.redact.blockedResources = scan.blockedResources := rfl
  rw [RenderScan.step, RenderScan.step]
  simp only [hfields, hid, hconnection, hblocked, managedImageSources_redact,
    rendersProtectedEnvironment_redact, renderOperation_redact]
  split_ifs with hskip hunsupported
  · rfl
  · rfl
  · cases renderOperation operation version (plan.connection.map Checked.asStr)
        (managedImageSources plan) .reject with
    | error finding => rfl
    | ok rendered =>
        simp only [Except.map, RenderScan.redact, List.map_append, List.map_cons, List.map_nil]
        rfl

/-- Findings are the same, and each rendered operation is the redacted one. -/
theorem run_redact (plan : DeploymentPlan) (version : String) :
    RenderScan.run plan.redact version .reject =
      (RenderScan.run plan version .reject).redact := by
  have hstart : (⟨false, false, [], [], ∅⟩ : RenderScan) =
      RenderScan.redact ⟨false, false, [], [], ∅⟩ := rfl
  have hoperations : plan.redact.operations = plan.operations.map DeploymentOperation.redact := rfl
  rw [RenderScan.run, RenderScan.run, hoperations, List.foldl_map, hstart]
  exact List.foldl_hom RenderScan.redact fun scan operation => step_redact plan version scan operation

/-- Protected values do not show in a rendering without authorization. -/
theorem renderDeployment_redact (plan : DeploymentPlan) :
    renderDeployment plan.redact = (renderDeployment plan).redact := by
  have hversion : reviewedRendererTargetVersion plan.redact = reviewedRendererTargetVersion plan :=
    rfl
  rw [renderDeployment, renderDeployment, renderDeploymentInner, renderDeploymentInner, hversion]
  cases reviewedRendererTargetVersion plan with
  | none => rfl
  | some version =>
      have hfindings : (RenderScan.run plan version .reject).redact.findings =
          (RenderScan.run plan version .reject).findings := rfl
      simp only [run_redact, hfindings]
      by_cases hclean : (sortRenderingFindings (RenderScan.run plan version .reject).findings).isEmpty
      · rw [if_pos hclean, if_pos hclean]
        rfl
      · rw [if_neg hclean, if_neg hclean]
        rfl

end Deployment

end PodmanLens
