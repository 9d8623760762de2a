import PodmanLens.Plan

/-!
# Redacted intents

`redact` replaces the protected bytes of an intent by fixed ones: inline environment values, inline
health commands, and references to external sensitive input. Intents with the same redaction differ
only in those bytes. Planning commutes with it, provided that identities are unique: only repeated
declarations are compared as a whole.
-/

namespace PodmanLens
open Std TreeEntries Validated Drain

section Redact

def maskedReference : SensitiveInputReference := ⟨"masked", by decide, by decide⟩

def maskedValue : Checked validValue := ⟨"", by decide⟩

def maskedHealthCommand : SensitiveInlineHealthCommand := ⟨⟨"masked", by decide⟩⟩

def maskedHealthArguments : SensitiveInlineHealthArgumentArray := ⟨["masked"], by decide⟩

def DeploymentEnvironmentValue.redact : DeploymentEnvironmentValue → DeploymentEnvironmentValue
  | .public value => .public value
  | .sensitiveInline _ => .sensitiveInline ⟨maskedValue⟩
  | .external _ => .external maskedReference

def EnvironmentAssignment.redact (assignment : EnvironmentAssignment) : EnvironmentAssignment :=
  { assignment with value := assignment.value.redact }

def ContainerSettings.redact (settings : ContainerSettings) : ContainerSettings :=
  { settings with
    environment := settings.environment.map EnvironmentAssignment.redact fun _ _ => rfl }

def HealthCommand.redact : HealthCommand → HealthCommand
  | .shell command => .shell command
  | .exec arguments => .exec arguments
  | .sensitiveInlineShell _ => .sensitiveInlineShell maskedHealthCommand
  | .sensitiveInlineExec _ => .sensitiveInlineExec maskedHealthArguments
  | .externalShell _ => .externalShell maskedReference
  | .externalExec _ => .externalExec maskedReference

def HealthCheck.redact : HealthCheck → HealthCheck
  | .disabled => .disabled
  | .command configured => .command { configured with command := configured.command.redact }

def StartupHealthCheck.redact (startup : StartupHealthCheck) : StartupHealthCheck :=
  { startup with command := startup.command.redact }

def ContainerRuntimeSettings.redact (runtime : ContainerRuntimeSettings) :
    ContainerRuntimeSettings :=
  { runtime with
    health := runtime.health.map HealthCheck.redact
    startupHealth := runtime.startupHealth.map StartupHealthCheck.redact }

def ContainerIntent.redact (container : ContainerIntent) : ContainerIntent :=
  { container with settings := container.settings.redact, runtime := container.runtime.redact }

def SecretIntent.redact (secret : SecretIntent) : SecretIntent :=
  { secret with material := maskedReference }

def DeploymentResource.redact : DeploymentResource → DeploymentResource
  | .secret declared => .secret declared.redact
  | .container declared => .container declared.redact
  | resource => resource

def DeploymentIntent.redact (intent : DeploymentIntent) : DeploymentIntent :=
  { intent with resources := intent.resources.map DeploymentResource.redact }

def ResourceIndex.redact (resources : ResourceIndex) : ResourceIndex :=
  resources.map fun _ resource => resource.redact

def DeploymentOperation.redact (operation : DeploymentOperation) : DeploymentOperation :=
  { operation with resourceIntent := operation.resourceIntent.redact }

def DeploymentPlan.redact (plan : DeploymentPlan) : DeploymentPlan :=
  { plan with operations := plan.operations.map DeploymentOperation.redact }

def PlanningOutcome.redact (outcome : PlanningOutcome) : PlanningOutcome :=
  { outcome with plan := outcome.plan.map DeploymentPlan.redact }

end Redact

section Index

@[simp] theorem identity_redact (resource : DeploymentResource) :
    resource.redact.identity = resource.identity := by cases resource <;> rfl

@[simp] theorem isExternal_redact (resource : DeploymentResource) :
    resource.redact.isExternal = resource.isExternal := by cases resource <;> rfl

@[simp] theorem getElem?_redact (resources : ResourceIndex) (identity : DeploymentResourceId) :
    resources.redact[identity]? = (resources[identity]?).map DeploymentResource.redact :=
  ExtTreeMap.getElem?_map

@[simp] theorem toList_redact (resources : ResourceIndex) :
    resources.redact.toList = resources.toList.map fun entry => (entry.1, entry.2.redact) :=
  ExtTreeMap.toList_map

theorem identities_redact (intent : DeploymentIntent) :
    intent.redact.resources.map (·.identity) = intent.resources.map (·.identity) := by
  simp [DeploymentIntent.redact, Function.comp_def]

theorem index_redact {intent : DeploymentIntent}
    (hdistinct : (intent.resources.map (·.identity)).Nodup) :
    intent.redact.index = intent.index.redact := by
  have hplain := indexResources_findings_eq_nil.mpr hdistinct
  have hredacted : (indexResources intent.redact.resources).2 = [] :=
    indexResources_findings_eq_nil.mpr (by rwa [identities_redact])
  apply ExtTreeMap.ext_getElem?
  intro identity
  apply Option.ext
  intro resource
  rw [getElem?_redact, Option.map_eq_some_iff]
  constructor
  · intro h
    obtain ⟨hmem, hidentity⟩ := (getElem?_index_of_findings_nil hredacted).mp h
    obtain ⟨original, horiginal, rfl⟩ := List.mem_map.mp hmem
    refine ⟨original, (getElem?_index_of_findings_nil hplain).mpr ⟨horiginal, ?_⟩, rfl⟩
    rwa [identity_redact] at hidentity
  · rintro ⟨original, horiginal, rfl⟩
    obtain ⟨hmem, hidentity⟩ := (getElem?_index_of_findings_nil hplain).mp horiginal
    apply (getElem?_index_of_findings_nil hredacted).mpr
    exact ⟨List.mem_map_of_mem hmem, by rwa [identity_redact]⟩

end Index

section Validation

variable (resources : ResourceIndex)

theorem resolved_redact (identity : DeploymentResourceId) (expected : ResourceKind) :
    resolved resources.redact identity expected =
      (resolved resources identity expected).map DeploymentResource.redact := by
  unfold resolved
  split_ifs
  · exact getElem?_redact resources identity
  · rfl

@[simp] theorem requireResolved_redact (reference subject : DeploymentResourceId)
    (expected : ResourceKind) (field : String) :
    requireResolved resources.redact reference expected subject field =
      requireResolved resources reference expected subject field := by
  simp only [requireResolved, resolved_redact, Option.isNone_map]

@[simp] theorem validateMounts_redact (mounts : List MountIntent) (owner : DeploymentResourceId)
    (field : String) :
    validateMounts resources.redact mounts owner field =
      validateMounts resources mounts owner field := by
  simp only [validateMounts, requireResolved_redact]

theorem environmentName_redact (container : ContainerIntent) (target : EnvironmentName) :
    (container.redact.settings.environment.values.any fun assignment => assignment.name == target) =
      container.settings.environment.values.any fun assignment => assignment.name == target := by
  change (container.settings.environment.values.map EnvironmentAssignment.redact).any _ = _
  rw [List.any_map]
  rfl

theorem validateSecretGrant_redact (container : ContainerIntent) :
    validateSecretGrant resources.redact container.redact =
      validateSecretGrant resources container := by
  funext seen entry
  simp only [validateSecretGrant, requireResolved_redact, environmentName_redact]
  rfl

theorem namesPod_redact (pod : PodIntent) (member : DeploymentResourceId) :
    namesPod resources.redact pod member = namesPod resources pod member := by
  rw [namesPod, namesPod, resolved_redact]
  cases resolved resources member .container with
  | none => rfl
  | some resource => cases resource <;> rfl

theorem validatePod_redact (pod : PodIntent) (executionContext : TargetExecutionContext) :
    validatePod resources.redact pod executionContext =
      validatePod resources pod executionContext := by
  simp only [validatePod, validateMounts_redact, requireResolved_redact, namesPod_redact]

theorem validatePodMember_redact (container : ContainerIntent) (pod : DeploymentResourceId) :
    validatePodMember resources.redact container.redact pod =
      validatePodMember resources container pod := by
  simp only [validatePodMember, resolved_redact, Option.isNone_map]
  congr 1
  cases resolved resources pod .pod with
  | none => rfl
  | some resource => cases resource <;> rfl

theorem validateRuntimeSettings_redact (container : ContainerIntent) (target : TargetProfile) :
    validateRuntimeSettings container.redact target = validateRuntimeSettings container target := by
  have hhealth : container.redact.runtime.health.any HealthCheck.isCommand =
      container.runtime.health.any HealthCheck.isCommand := by
    change (container.runtime.health.map HealthCheck.redact).any _ = _
    cases container.runtime.health with
    | none => rfl
    | some health => cases health <;> rfl
  have hstartup : container.redact.runtime.startupHealth.isSome =
      container.runtime.startupHealth.isSome := Option.isSome_map
  simp only [validateRuntimeSettings, hhealth, hstartup]
  rfl

theorem validateContainer_redact (container : ContainerIntent) (target : TargetProfile) :
    validateContainer resources.redact container.redact target =
      validateContainer resources container target := by
  have hgrants : validateSecretGrants resources.redact container.secretGrants container.redact =
      validateSecretGrants resources container.secretGrants container := by
    rw [validateSecretGrants, validateSecretGrant_redact, validateSecretGrants]
  simp only [validateContainer, validateMounts_redact, requireResolved_redact,
    validatePodMember_redact, validateRuntimeSettings_redact]
  change _ ++ validateSecretGrants resources.redact container.secretGrants container.redact ++ _ ++
    _ ++ _ ++ _ ++ _ = _
  rw [hgrants]
  rfl

theorem validateResource_redact (target : TargetProfile) (resource : DeploymentResource) :
    validateResource resources.redact target resource.redact =
      validateResource resources target resource := by
  cases resource with
  | externalPrecondition | network | volume | image => rfl
  | secret secret =>
      have hempty (reference : SensitiveInputReference) : reference.asStr.isEmpty = false := by
        have hidentifier := reference.identifier
        simp only [validIdentifier, Bool.not_eq_true', Bool.or_eq_false_iff] at hidentifier
        exact hidentifier.1.1
      simp only [DeploymentResource.redact, validateResource, hempty, Bool.false_eq_true, if_false]
  | pod pod => exact validatePod_redact resources pod target.executionContext
  | container container => exact validateContainer_redact resources container target

theorem contents_redact :
    contents resources.redact = (contents resources).map DeploymentResource.redact := by
  simp [contents, Function.comp_def]

theorem validateResources_redact (target : TargetProfile) :
    validateResources resources.redact target = validateResources resources target := by
  simp only [validateResources, contents_redact, List.flatMap_map, validateResource_redact]

end Validation

section Graph

variable (resources : ResourceIndex)

@[simp] theorem isManaged_redact (identity : DeploymentResourceId) :
    isManaged resources.redact identity = isManaged resources identity := by
  rw [isManaged, isManaged, getElem?_redact]
  cases resources[identity]? with
  | none => rfl
  | some resource => cases resource <;> rfl

@[simp] theorem managedCreates_redact (identities : List DeploymentResourceId) :
    managedCreates resources.redact identities = managedCreates resources identities := by
  simp only [managedCreates, funext (isManaged_redact resources)]

theorem createDependencies_redact (resource : DeploymentResource) :
    createDependencies resource.redact resources.redact = createDependencies resource resources := by
  cases resource with
  | externalPrecondition | image | network | volume | secret => rfl
  | pod pod => simp only [DeploymentResource.redact, createDependencies, managedCreates_redact]
  | container container =>
      simp only [DeploymentResource.redact, createDependencies, managedCreates_redact,
        isManaged_redact]
      rfl

@[simp] theorem startAnchor_redact (container : DeploymentResourceId) :
    startAnchor resources.redact container = startAnchor resources container := by
  rw [startAnchor, startAnchor, getElem?_redact]
  cases resources[container]? with
  | none => rfl
  | some resource =>
      cases resource with
      | externalPrecondition | image | network | volume | secret | pod => rfl
      | container intent =>
          have hpod : intent.redact.pod = intent.pod := rfl
          simp only [DeploymentResource.redact, Option.map_some, hpod]
          cases intent.pod with
          | none => rfl
          | some pod =>
              dsimp only
              rw [getElem?_redact]
              cases resources[pod.val]? with
              | none => rfl
              | some resource => cases resource <;> rfl

theorem createNode_redact (entry : DeploymentResourceId × DeploymentResource) :
    createNode resources.redact (entry.1, entry.2.redact) = createNode resources entry := by
  simp only [createNode, isExternal_redact, createDependencies_redact]

theorem startNode_redact (entry : DeploymentResourceId × DeploymentResource) :
    startNode resources.redact (entry.1, entry.2.redact) = startNode resources entry := by
  obtain ⟨identity, resource⟩ := entry
  cases resource with
  | externalPrecondition | image | network | volume | secret | container => rfl
  | pod pod => simp only [startNode, DeploymentResource.redact, managedCreates_redact]

theorem insertAll_redact {ν : Type} {entry other : DeploymentResourceId × DeploymentResource →
      Option (DeploymentOperationId × ν)}
    (h : ∀ pair : DeploymentResourceId × DeploymentResource,
      entry (pair.1, pair.2.redact) = other pair)
    (map : ExtTreeMap DeploymentOperationId ν) :
    insertAll entry resources.redact.toList map = insertAll other resources.toList map := by
  rw [insertAll, insertAll, toList_redact, List.foldl_map]
  simp only [h]

theorem liftDependency_redact :
    liftDependency resources.redact = liftDependency resources := by
  funext dependency
  simp only [liftDependency, startAnchor_redact]

theorem operationGraph_redact (dependencies : List StartupDependency) :
    operationGraph dependencies resources.redact = operationGraph dependencies resources := by
  rw [operationGraph, operationGraph, addStartOperations, addStartOperations, startupEdges,
    startupEdges, liftDependency_redact, insertAll_redact resources (createNode_redact resources),
    insertAll_redact resources (startNode_redact resources)]

theorem validateStartupDependencies_redact (dependencies : List StartupDependency) :
    validateStartupDependencies dependencies resources.redact =
      validateStartupDependencies dependencies resources := by
  have hscan : scanStartup resources.redact = scanStartup resources := by
    funext scan entry
    simp only [scanStartup, startAnchor_redact]
  rw [validateStartupDependencies, validateStartupDependencies, hscan]

theorem describeOperation_redact (declared : OperationGraph) (id : DeploymentOperationId) :
    describeOperation declared resources.redact id =
      (describeOperation declared resources id).map DeploymentOperation.redact := by
  rw [describeOperation, describeOperation, getElem?_redact]
  cases resources[id.resource]? with
  | none => rfl
  | some resource => cases resource <;> rfl

theorem mapM_describeOperation_redact (declared : OperationGraph)
    (order : List DeploymentOperationId) :
    order.mapM (describeOperation declared resources.redact) =
      (order.mapM (describeOperation declared resources)).map
        (List.map DeploymentOperation.redact) := by
  induction order with
  | nil => rfl
  | cons id rest ih =>
      rw [List.mapM_cons, List.mapM_cons, ih, describeOperation_redact]
      cases describeOperation declared resources id with
      | error ids => rfl
      | ok operation =>
          cases rest.mapM (describeOperation declared resources) with
          | error ids => rfl
          | ok operations => rfl

theorem topologicalOperations_redact (nodes : OperationGraph) :
    topologicalOperations nodes resources.redact =
      (topologicalOperations nodes resources).map (List.map DeploymentOperation.redact) := by
  unfold topologicalOperations
  obtain ⟨order, rest⟩ := drain operationSortKey nodes.size nodes
  dsimp only
  rw [mapM_describeOperation_redact]
  cases order.mapM (describeOperation nodes resources) with
  | error ids => rfl
  | ok operations =>
      change (if rest.isEmpty then _ else _) = _
      dsimp only
      split_ifs <;> rfl

theorem externalPreconditions_redact :
    externalPreconditions resources.redact = externalPreconditions resources := by
  rw [externalPreconditions, externalPreconditions, contents_redact, List.filterMap_map]
  congr 1
  funext resource
  cases resource <;> rfl

end Graph

/-- Planning a redacted intent is redacting the plan of the intent. -/
theorem planDeployment_redact {intent : DeploymentIntent}
    (hdistinct : (intent.resources.map (·.identity)).Nodup) :
    planDeployment intent.redact = (planDeployment intent).redact := by
  have hindexing : (indexResources intent.redact.resources).2 = (indexResources intent.resources).2 := by
    rw [indexResources_findings_eq_nil.mpr hdistinct]
    exact indexResources_findings_eq_nil.mpr (by rwa [identities_redact])
  have hfindings : intentFindings intent.redact = intentFindings intent := by
    rw [intentFindings, intentFindings, hindexing, index_redact hdistinct]
    change _ ++ validateResources intent.index.redact intent.target ++
      validateStartupDependencies intent.startupDependencies intent.index.redact = _
    rw [validateResources_redact, validateStartupDependencies_redact]
  have hgraph : intent.redact.graph = intent.graph := by
    rw [DeploymentIntent.graph, DeploymentIntent.graph, index_redact hdistinct]
    exact operationGraph_redact intent.index intent.startupDependencies
  simp only [planDeployment, hfindings, hgraph, index_redact hdistinct,
    topologicalOperations_redact, externalPreconditions_redact]
  split_ifs with hclean
  · cases topologicalOperations intent.graph intent.index with
    | error ids => rfl
    | ok operations => rfl
  · rfl

end PodmanLens
