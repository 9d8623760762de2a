import PodmanLens.RedactionRender

/-!
# The serialized deployment artifact

Version 1 of the artifact serializes a rendering without protected bytes: references to external
input appear only as flags and body kinds, and a rendering that holds protected inline values is
refused. What planning, rendering, the script and the artifact show of two intents with the same
redaction is the same.
-/

namespace PodmanLens
open Json

section Artifact

def statusName : RenderStatus → String
  | .exact => "exact"
  | .deferredSensitiveInput => "deferred_sensitive_input"
  | .manual => "manual"
  | .approximate => "approximate"
  | .unsupported => "unsupported"

def actionName : SemanticOperationAction → String
  | .ensureImage => "ensure_image"
  | .create => "create"
  | .startPod => "start_pod"
  | .startContainer => "start_container"

def methodName : RenderedHttpMethod → String
  | .get => "GET"
  | .post => "POST"

structure BodyArtifact where
  kind : String
  json : Option Value

def BodyArtifact.ofBody : RenderedHttpBody → BodyArtifact
  | .empty => ⟨"empty", none⟩
  | .json value => ⟨"json", some value⟩
  | .externalSensitiveInput _ => ⟨"external_sensitive_input", none⟩

structure OperationArtifact where
  status : String
  action : String
  resource : DeploymentResourceId
  program : String
  argv : List String
  externalSensitiveInputRequired : Bool
  method : String
  pathAndQuery : String
  body : BodyArtifact

def OperationArtifact.ofOperation (rendered : RenderedOperation) : OperationArtifact where
  status := statusName rendered.status
  action := actionName rendered.operation.id.action
  resource := rendered.operation.id.resource
  program := rendered.cli.program
  argv := rendered.cli.argv
  externalSensitiveInputRequired := rendered.cli.externalInput.isSome
  method := methodName rendered.libpod.method
  pathAndQuery := rendered.libpod.pathAndQuery
  body := .ofBody rendered.libpod.body

structure ArtifactData where
  connection : Option String
  externalPreconditions : List DeploymentResourceId
  operations : List OperationArtifact

def ArtifactData.fromRendering (source : DeploymentRendering) : ArtifactData where
  connection := source.connection.map Validated.Checked.asStr
  externalPreconditions := source.externalPreconditions.map ExternalPrecondition.identity
  operations := source.operations.map OperationArtifact.ofOperation

structure DeploymentArtifact where
  status : String
  data : Option ArtifactData

/-- Protected bytes are not copied, so that serializing them can only fail. -/
def DeploymentArtifact.fromRendering (source : DeploymentRendering) : DeploymentArtifact where
  status := statusName source.status
  data := if source.containsProtectedInlineEnvironment then none else some (.fromRendering source)

def resourceArtifact (identity : DeploymentResourceId) : Value :=
  .object [("kind", .string (resourceKindName identity.kind)), ("name", .string identity.name)]

def BodyArtifact.serialize (body : BodyArtifact) : Value :=
  .object (("kind", .string body.kind) :: body.json.toList.map fun value => ("json", value))

def OperationArtifact.serialize (operation : OperationArtifact) : Value :=
  .object [
    ("status", .string operation.status),
    ("action", .string operation.action),
    ("resource", resourceArtifact operation.resource),
    ("cli", .object [
      ("program", .string operation.program),
      ("argv", stringArray operation.argv),
      ("external_sensitive_input_required", .bool operation.externalSensitiveInputRequired)]),
    ("libpod", .object [
      ("method", .string operation.method),
      ("path_and_query", .string operation.pathAndQuery),
      ("body", operation.body.serialize)])]

def refusedProtectedInline : String :=
  "deployment v1 refuses protected inline values; use deployment v2"

/-- The fields of the artifact in the order in which they are written. -/
def DeploymentArtifact.serialize (artifact : DeploymentArtifact) : Except String Members :=
  match artifact.data with
  | none => .error refusedProtectedInline
  | some data => .ok [
      ("schema_version", .number 1),
      ("status", .string artifact.status),
      ("connection", (data.connection.map Value.string).getD .null),
      ("external_preconditions", .array (data.externalPreconditions.map resourceArtifact)),
      ("operations", .array (data.operations.map OperationArtifact.serialize))]

theorem serialize_refused_iff (rendering : DeploymentRendering) :
    (DeploymentArtifact.fromRendering rendering).serialize = .error refusedProtectedInline ↔
      rendering.containsProtectedInlineEnvironment = true := by
  cases hprotected : rendering.containsProtectedInlineEnvironment with
  | true => simp [DeploymentArtifact.fromRendering, DeploymentArtifact.serialize, hprotected]
  | false => simp [DeploymentArtifact.fromRendering, DeploymentArtifact.serialize, hprotected]

end Artifact

section View

def RenderedHttpBody.jsonBody : RenderedHttpBody → Option Value
  | .json value => some value
  | .empty | .externalSensitiveInput _ => none

/-- What a rendering shows to a reader without access to protected input. -/
structure PublicRendering where
  argv : List (List String)
  paths : List String
  bodies : List (Option Value)
  script : String
  artifact : Except String Members

def DeploymentRendering.publicView (rendering : DeploymentRendering) : PublicRendering where
  argv := rendering.operations.map fun rendered => rendered.cli.argv
  paths := rendering.operations.map fun rendered => rendered.libpod.pathAndQuery
  bodies := rendering.operations.map fun rendered => rendered.libpod.body.jsonBody
  script := rendering.shellScript
  artifact := (DeploymentArtifact.fromRendering rendering).serialize

theorem hasExternalInput_redact (rendered : RenderedOperation) :
    rendered.redact.hasExternalInput = rendered.hasExternalInput := Option.isSome_map

theorem secretInputChecks_redact (secretNumber : ℕ) (operations : List RenderedOperation) :
    secretInputChecks secretNumber (operations.map RenderedOperation.redact) =
      secretInputChecks secretNumber operations := by
  induction operations generalizing secretNumber with
  | nil => rfl
  | cons operation rest ih =>
      simp only [List.map_cons, secretInputChecks, hasExternalInput_redact, ih]

theorem podmanCommands_redact (secretNumber : ℕ) (operations : List RenderedOperation) :
    podmanCommands secretNumber (operations.map RenderedOperation.redact) =
      podmanCommands secretNumber operations := by
  have hcommand (operation : RenderedOperation) (redirection : String) :
      podmanCommand operation.redact redirection = podmanCommand operation redirection := rfl
  induction operations generalizing secretNumber with
  | nil => rfl
  | cons operation rest ih =>
      simp only [List.map_cons, podmanCommands, hasExternalInput_redact, hcommand, ih]

theorem shellScript_redact (rendering : DeploymentRendering) :
    rendering.redact.shellScript = rendering.shellScript := by
  simp only [DeploymentRendering.shellScript, DeploymentRendering.redact, secretInputChecks_redact,
    podmanCommands_redact]

theorem ofOperation_redact (rendered : RenderedOperation) :
    OperationArtifact.ofOperation rendered.redact = OperationArtifact.ofOperation rendered := by
  have hbody : BodyArtifact.ofBody rendered.libpod.body.redact =
      BodyArtifact.ofBody rendered.libpod.body := by
    cases rendered.libpod.body <;> rfl
  have hinput : rendered.redact.cli.externalInput.isSome = rendered.cli.externalInput.isSome :=
    Option.isSome_map
  simp only [OperationArtifact.ofOperation, hinput]
  simp only [RenderedOperation.redact, hbody]
  rfl

theorem fromRendering_redact (rendering : DeploymentRendering) :
    DeploymentArtifact.fromRendering rendering.redact =
      DeploymentArtifact.fromRendering rendering := by
  simp only [DeploymentArtifact.fromRendering, ArtifactData.fromRendering,
    DeploymentRendering.redact, List.map_map, Function.comp_def, ofOperation_redact]

theorem publicView_redact (rendering : DeploymentRendering) :
    rendering.redact.publicView = rendering.publicView := by
  have hbody (rendered : RenderedOperation) :
      rendered.redact.libpod.body.jsonBody = rendered.libpod.body.jsonBody := by
    change rendered.libpod.body.redact.jsonBody = _
    cases rendered.libpod.body <;> rfl
  simp only [DeploymentRendering.publicView, shellScript_redact, fromRendering_redact]
  simp only [DeploymentRendering.redact, List.map_map, Function.comp_def, hbody]
  rfl

end View

/-- Intents that differ only in protected bytes have the same findings and show the same argument
arrays, paths, bodies, script and artifact; and the artifact of an authorized rendering is refused
exactly when the plan declares a protected inline value. -/
theorem protected_values_noninterference (first second : DeploymentIntent)
    (hdistinct : (first.resources.map (·.identity)).Nodup)
    (hredact : first.redact = second.redact) :
    (planDeployment first).findings = (planDeployment second).findings ∧
    (planDeployment first).plan.isSome = (planDeployment second).plan.isSome ∧
    (∀ firstPlan secondPlan, (planDeployment first).plan = some firstPlan →
      (planDeployment second).plan = some secondPlan →
        (renderDeployment firstPlan).findings = (renderDeployment secondPlan).findings ∧
        (renderDeployment firstPlan).rendering.map DeploymentRendering.publicView =
          (renderDeployment secondPlan).rendering.map DeploymentRendering.publicView) ∧
    ∀ plan rendering, (planDeployment first).plan = some plan →
      (renderDeploymentWithAuthorization plan).rendering = some rendering →
        ((DeploymentArtifact.fromRendering rendering).serialize = .error refusedProtectedInline ↔
          plan.DeclaresSensitiveInline) := by
  have hdistinct' : (second.resources.map (·.identity)).Nodup := by
    rwa [← identities_redact, ← hredact, identities_redact]
  have houtcome : (planDeployment first).redact = (planDeployment second).redact := by
    rw [← planDeployment_redact hdistinct, ← planDeployment_redact hdistinct', hredact]
  have hplans := congrArg PlanningOutcome.plan houtcome
  have hfindings := congrArg (fun outcome : PlanningOutcome => outcome.findings) houtcome
  refine ⟨hfindings, ?_, ?_, ?_⟩
  · have hsome := congrArg Option.isSome hplans
    simpa [PlanningOutcome.redact] using hsome
  · intro firstPlan secondPlan hfirst hsecond
    have hplan : firstPlan.redact = secondPlan.redact := by
      simpa [PlanningOutcome.redact, hfirst, hsecond] using hplans
    have hrendered : (renderDeployment firstPlan).redact = (renderDeployment secondPlan).redact := by
      rw [← renderDeployment_redact, ← renderDeployment_redact, hplan]
    have hfound := congrArg (fun outcome : RenderingOutcome => outcome.findings) hrendered
    refine ⟨hfound, ?_⟩
    have hviews := congrArg (fun outcome : RenderingOutcome =>
      outcome.rendering.map DeploymentRendering.publicView) hrendered
    simpa [RenderingOutcome.redact, Option.map_map, Function.comp_def, publicView_redact]
      using hviews
  · intro plan rendering hplan hrendering
    have hplanned := plannedBy_of_plan hplan
    obtain ⟨version, -, scan, hscan, rfl⟩ := renderDeploymentInner_eq_some hrendering
    rw [serialize_refused_iff, ← hplanned.any_protected_iff, ← hscan.protectedInline]
    rfl

/-- `sampleIntent` after its secret material has been moved to another external reference. -/
def rotatedIntent : DeploymentIntent :=
  { sampleIntent with
    resources := sampleIntent.resources.map fun
      | .secret secret => .secret
          { secret with material := ⟨"vault:rotated", by decide, by decide⟩ }
      | declared => declared }

theorem protected_values_noninterference_sample :
    sampleIntent.redact = rotatedIntent.redact ∧
      (planDeployment sampleIntent).findings = (planDeployment rotatedIntent).findings := by
  have hredact : sampleIntent.redact = rotatedIntent.redact := rfl
  exact ⟨hredact, (protected_values_noninterference sampleIntent rotatedIntent
    (by decide) hredact).1⟩

end PodmanLens
