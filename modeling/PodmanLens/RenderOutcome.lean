import PodmanLens.PlanContents
import PodmanLens.Render
import PodmanLens.Returning

/-!
# Rendering is all or nothing

A resource is blocked only together with a finding about it, so a scan without findings has
rendered every operation it went through, in order. Over a planned deployment the two flags of the
scan then say which secrets are deferred and whether a protected inline value is declared.
-/

namespace PodmanLens
open Std

theorem bind_eq_ok {α β : Type} {x : RenderResult α} {f : α → RenderResult β} {value : β} :
    (x >>= f) = .ok value ↔ ∃ a, x = .ok a ∧ f a = .ok value := by
  cases x with
  | error finding =>
      constructor
      · intro h
        cases h
      · rintro ⟨a, ha, -⟩
        cases ha
  | ok a =>
      constructor
      · intro h
        exact ⟨a, rfl, h⟩
      · rintro ⟨_, ⟨⟩, h⟩
        exact h

theorem orUnsupported_eq_ok {α : Type} {id : DeploymentResourceId} {field : String} {value : Option α} {a : α} :
    orUnsupported id field value = .ok a ↔ value = some a := by
  cases value with
  | none => simp [orUnsupported]
  | some b => simp [orUnsupported]

section Operations

def DeploymentResource.isSecret : DeploymentResource → Bool
  | .secret _ => true
  | _ => false

variable {operation : DeploymentOperation} {version : String} {sources : ManagedImageSources}
  {policy : SensitiveInlineRenderPolicy}

theorem renderPodCreate_status {pod : PodIntent} {id : DeploymentResourceId} {forms : RenderedForms}
    (h : renderPodCreate pod id version = .ok forms) : forms.status = .exact := by
  obtain ⟨cliSuffix, -, h⟩ := bind_eq_ok.mp h
  cases h
  rfl

theorem renderContainerCreate_status {container : ContainerIntent} {id : DeploymentResourceId}
    {forms : RenderedForms}
    (h : renderContainerCreate container id version sources policy = .ok forms) :
    forms.status = .exact := by
  obtain ⟨_, -, h⟩ := bind_eq_ok.mp h
  obtain ⟨_, -, h⟩ := bind_eq_ok.mp h
  obtain ⟨_, -, h⟩ := bind_eq_ok.mp h
  obtain ⟨_, -, h⟩ := bind_eq_ok.mp h
  obtain ⟨_, -, h⟩ := bind_eq_ok.mp h
  obtain ⟨_, -, h⟩ := bind_eq_ok.mp h
  obtain ⟨_, -, h⟩ := bind_eq_ok.mp h
  cases h
  rfl

theorem renderForms_status {forms : RenderedForms}
    (h : renderForms operation version sources policy = .ok forms) :
    forms.status =
      if operation.resourceIntent.isSecret then .deferredSensitiveInput else .exact := by
  rw [renderForms] at h
  cases hresource : operation.resourceIntent with
  | externalPrecondition precondition =>
      rw [hresource] at h
      cases h
  | image image | network network | volume volume | secret secret =>
      rw [hresource] at h
      cases h
      rfl
  | pod pod =>
      rw [hresource] at h
      dsimp only at h
      split_ifs at h with hstart
      · cases h
        rfl
      · exact renderPodCreate_status h
  | container container =>
      rw [hresource] at h
      dsimp only at h
      split_ifs at h with hstart
      · cases h
        rfl
      · exact renderContainerCreate_status h

def connectionArguments (connection : Option String) : List String :=
  connection.toList.flatMap fun name => ["--connection", name]

theorem renderOperation_eq_ok {connection : Option String} {rendered : RenderedOperation} :
    renderOperation operation version connection sources policy = .ok rendered ↔
      ∃ forms, renderForms operation version sources policy = .ok forms ∧
        rendered = {
          operation
          status := forms.status
          cli := .new (connectionArguments connection ++ forms.cliSuffix) forms.input
          libpod := ⟨.post, forms.path, forms.body⟩ } := by
  rw [renderOperation, bind_eq_ok]
  constructor
  · rintro ⟨forms, hforms, h⟩
    cases h
    exact ⟨forms, hforms, rfl⟩
  · rintro ⟨forms, hforms, rfl⟩
    exact ⟨forms, hforms, rfl⟩

end Operations

section Scan

variable {plan : DeploymentPlan} {version : String} {policy : SensitiveInlineRenderPolicy}

/-- What a scan without findings has done with the operations it went through. -/
structure RenderScan.Complete (plan : DeploymentPlan) (version : String)
    (policy : SensitiveInlineRenderPolicy) (done : List DeploymentOperation)
    (scan : RenderScan) : Prop where
  rendered : List.Forall₂ (fun operation rendered =>
    renderOperation operation version (plan.connection.map Validated.Checked.asStr)
      (managedImageSources plan) policy = .ok rendered) done scan.operations
  deferred : scan.deferred = done.any fun operation => operation.resourceIntent.isSecret
  protectedInline :
    scan.containsProtectedInlineEnvironment = done.any rendersProtectedEnvironment
  unblocked : scan.blockedResources = ∅

theorem RenderScan.step_findings (plan : DeploymentPlan) (version : String)
    (policy : SensitiveInlineRenderPolicy) (scan : RenderScan) (operation : DeploymentOperation) :
    scan.findings <+: (scan.step plan version policy operation).findings := by
  rw [RenderScan.step]
  dsimp only
  split_ifs with hblocked hfields
  · exact List.prefix_rfl
  · exact List.prefix_append _ _
  · split
    · exact List.prefix_rfl
    · exact List.prefix_append _ _

theorem RenderScan.Complete.step {done : List DeploymentOperation} {scan : RenderScan}
    (h : scan.Complete plan version policy done) {operation : DeploymentOperation}
    (hfindings : (scan.step plan version policy operation).findings = []) :
    (scan.step plan version policy operation).Complete plan version policy
      (done ++ [operation]) := by
  have hblocked : operation.id.resource ∉ scan.blockedResources := by
    rw [h.unblocked]
    exact ExtTreeSet.not_mem_empty
  rw [RenderScan.step, if_neg hblocked] at hfindings ⊢
  dsimp only at hfindings ⊢
  split_ifs at hfindings ⊢ with hfields
  · simp_all
  · cases hrender : renderOperation operation version
        (plan.connection.map Validated.Checked.asStr) (managedImageSources plan) policy with
    | error finding =>
        rw [hrender] at hfindings
        simp at hfindings
    | ok rendered =>
        obtain ⟨forms, hforms, hrendered⟩ := renderOperation_eq_ok.mp hrender
        have hstatus : (rendered.status == .deferredSensitiveInput) =
            operation.resourceIntent.isSecret := by
          rw [hrendered, renderForms_status hforms]
          cases operation.resourceIntent.isSecret <;> rfl
        exact {
          rendered := List.rel_append h.rendered (.cons hrender .nil)
          deferred := by simp [h.deferred, hstatus]
          protectedInline := by simp [h.protectedInline]
          unblocked := h.unblocked }

theorem RenderScan.complete_foldl (operations : List DeploymentOperation)
    (hfindings : (operations.foldl (RenderScan.step plan version policy)
      ⟨false, false, [], [], ∅⟩).findings = []) :
    (operations.foldl (RenderScan.step plan version policy)
      ⟨false, false, [], [], ∅⟩).Complete plan version policy operations := by
  induction operations using List.reverseRecOn with
  | nil => exact ⟨.nil, rfl, rfl, rfl⟩
  | append_singleton done operation ih =>
      rw [List.foldl_concat] at hfindings ⊢
      have hpre := RenderScan.step_findings plan version policy (done.foldl
        (RenderScan.step plan version policy) ⟨false, false, [], [], ∅⟩) operation
      rw [hfindings] at hpre
      exact (ih (List.prefix_nil.mp hpre)).step hfindings

theorem sortRenderingFindings_eq_nil {findings : List RenderingFinding} :
    sortRenderingFindings findings = [] ↔ findings = [] := by
  have hperm : (sortRenderingFindings findings).Perm findings := List.perm_insertionSort _ _
  constructor
  · intro h
    rw [h] at hperm
    exact hperm.nil_eq.symm
  · rintro rfl
    exact hperm.eq_nil

end Scan

section Outcome

variable {plan : DeploymentPlan} {policy : SensitiveInlineRenderPolicy}

theorem renderDeploymentInner_isSome_iff :
    (renderDeploymentInner plan policy).rendering.isSome ↔
      (renderDeploymentInner plan policy).findings = [] := by
  rw [renderDeploymentInner]
  cases reviewedRendererTargetVersion plan with
  | none => simp
  | some version =>
      dsimp only
      by_cases hfindings :
          (sortRenderingFindings (RenderScan.run plan version policy).findings).isEmpty
      · rw [if_pos hfindings]
        simpa using hfindings
      · rw [if_neg hfindings]
        simpa using hfindings

def RenderScan.rendering (plan : DeploymentPlan) (scan : RenderScan) : DeploymentRendering where
  status := if scan.deferred then .deferredSensitiveInput else .exact
  containsProtectedInlineEnvironment := scan.containsProtectedInlineEnvironment
  connection := plan.connection
  externalPreconditions := plan.externalPreconditions
  operations := scan.operations

theorem renderDeploymentInner_eq_some {rendering : DeploymentRendering}
    (h : (renderDeploymentInner plan policy).rendering = some rendering) :
    ∃ version, reviewedRendererTargetVersion plan = some version ∧
      ∃ scan : RenderScan, scan.Complete plan version policy plan.operations ∧
        rendering = scan.rendering plan := by
  rw [renderDeploymentInner] at h
  cases hversion : reviewedRendererTargetVersion plan with
  | none =>
      rw [hversion] at h
      cases h
  | some version =>
      rw [hversion] at h
      dsimp only at h
      by_cases hfindings :
          (sortRenderingFindings (RenderScan.run plan version policy).findings).isEmpty
      · rw [if_pos hfindings] at h
        have hnil := sortRenderingFindings_eq_nil.mp (List.isEmpty_iff.mp hfindings)
        exact ⟨version, rfl, _, RenderScan.complete_foldl plan.operations hnil,
          (Option.some.inj h).symm⟩
      · rw [if_neg hfindings] at h
        cases h

theorem RenderScan.Complete.operations_eq {version : String} {done : List DeploymentOperation}
    {scan : RenderScan} (h : scan.Complete plan version policy done) :
    scan.operations.map RenderedOperation.operation = done := by
  have hoperation : ∀ operation rendered, renderOperation operation version
      (plan.connection.map Validated.Checked.asStr) (managedImageSources plan) policy =
        .ok rendered → rendered.operation = operation := by
    intro operation rendered hrender
    obtain ⟨forms, -, rfl⟩ := renderOperation_eq_ok.mp hrender
    rfl
  have hsame : done.map id = scan.operations.map RenderedOperation.operation :=
    Returning.map_eq_map_of_forall₂ (h.rendered.imp fun operation rendered hrender =>
      (hoperation operation rendered hrender).symm)
  rw [← hsame, List.map_id]

/-- Each rendered operation spells out one operation of the plan. -/
theorem RenderScan.Complete.exists_forms {version : String} {done : List DeploymentOperation}
    {scan : RenderScan} (h : scan.Complete plan version policy done) {rendered : RenderedOperation}
    (hmem : rendered ∈ scan.operations) :
    ∃ operation ∈ done, ∃ forms,
      renderForms operation version (managedImageSources plan) policy = .ok forms ∧
        rendered = {
          operation
          status := forms.status
          cli := .new (connectionArguments (plan.connection.map Validated.Checked.asStr) ++
            forms.cliSuffix) forms.input
          libpod := ⟨.post, forms.path, forms.body⟩ } := by
  obtain ⟨operation, hoperation, hrender⟩ := Returning.exists_of_forall₂_mem h.rendered hmem
  obtain ⟨forms, hforms, hrendered⟩ := renderOperation_eq_ok.mp hrender
  exact ⟨operation, hoperation, forms, hforms, hrendered⟩

end Outcome

section Planned

variable {intent : DeploymentIntent} {plan : DeploymentPlan} {operation : DeploymentOperation}

/-- The creation of a planned container, whichever of its operations is at hand. -/
theorem PlannedBy.exists_create (h : PlannedBy intent plan) (hmem : operation ∈ plan.operations)
    {container : ContainerIntent} (hcontainer : operation.resourceIntent = .container container) :
    ∃ create ∈ plan.operations, create.id.action = .create ∧
      create.resourceIntent = .container container := by
  have hdeclared := (h.declared hmem).1
  rw [hcontainer] at hdeclared
  obtain ⟨create, hcreate, hid⟩ := h.exists_operation (.createContainer container hdeclared)
  refine ⟨create, hcreate, by rw [hid], ?_⟩
  obtain ⟨hother, hidentity⟩ := h.declared hcreate
  have hget := h.clean.getElem?_declared hother
  rw [hidentity, hid] at hget
  have hsame := h.clean.getElem?_declared hdeclared
  exact Option.some.inj (hget.symm.trans hsame)

theorem PlannedBy.create_of_secret (h : PlannedBy intent plan) (hmem : operation ∈ plan.operations)
    (hsecret : operation.resourceIntent.isSecret = true) : operation.id.action = .create := by
  have hidentity := (h.declared hmem).2
  have hkind : operation.id.resource.kind = .secret := by
    cases hresource : operation.resourceIntent with
    | secret secret =>
        rw [← hidentity, hresource]
        exact secret.identity.2
    | externalPrecondition | image | network | volume | pod | container =>
        rw [hresource] at hsecret
        cases hsecret
  have hrequired := h.required hmem
  generalize operation.id = id at hkind hrequired
  cases hrequired with
  | ensureImage image => exact absurd (image.identity.2.symm.trans hkind) (by decide)
  | startPod pod => exact absurd (pod.identity.2.symm.trans hkind) (by decide)
  | startContainer container => exact absurd (container.identity.2.symm.trans hkind) (by decide)
  | createNetwork | createVolume | createSecret | createPod | createContainer => rfl

def DeploymentOperation.CreatesSecret (operation : DeploymentOperation) : Prop :=
  operation.id.action = .create ∧ operation.resourceIntent.isSecret = true

def DeploymentPlan.DeclaresSensitiveInline (plan : DeploymentPlan) : Prop :=
  ∃ operation ∈ plan.operations, ∃ container,
    operation.resourceIntent = .container container ∧ hasSensitiveInlineEnvironment container = true

theorem rendersProtectedEnvironment_iff :
    rendersProtectedEnvironment operation = true ↔ operation.id.action = .create ∧
      ∃ container, operation.resourceIntent = .container container ∧
        hasSensitiveInlineEnvironment container = true := by
  rw [rendersProtectedEnvironment]
  cases operation.resourceIntent with
  | container container => simp
  | externalPrecondition | image | network | volume | secret | pod => simp

theorem PlannedBy.any_protected_iff (h : PlannedBy intent plan) :
    plan.operations.any rendersProtectedEnvironment = true ↔ plan.DeclaresSensitiveInline := by
  rw [List.any_eq_true]
  constructor
  · rintro ⟨operation, hmem, hprotected⟩
    exact ⟨operation, hmem, (rendersProtectedEnvironment_iff.mp hprotected).2⟩
  · rintro ⟨operation, hmem, container, hcontainer, hinline⟩
    obtain ⟨create, hcreate, haction, hsame⟩ := h.exists_create hmem hcontainer
    exact ⟨create, hcreate, rendersProtectedEnvironment_iff.mpr
      ⟨haction, container, hsame, hinline⟩⟩

theorem PlannedBy.any_secret_iff (h : PlannedBy intent plan) :
    plan.operations.any (fun operation => operation.resourceIntent.isSecret) = true ↔
      ∃ operation ∈ plan.operations, operation.CreatesSecret := by
  rw [List.any_eq_true]
  constructor
  · rintro ⟨operation, hmem, hsecret⟩
    exact ⟨operation, hmem, h.create_of_secret hmem hsecret, hsecret⟩
  · rintro ⟨operation, hmem, -, hsecret⟩
    exact ⟨operation, hmem, hsecret⟩

/-- A plan is rendered as a whole or not at all, and its two flags tell what it holds. -/
theorem renderDeploymentInner_all_or_nothing (plan : DeploymentPlan)
    (policy : SensitiveInlineRenderPolicy)
    (hplan : ∃ intent, (planDeployment intent).plan = some plan) :
    ((renderDeploymentInner plan policy).rendering.isSome ↔
      (renderDeploymentInner plan policy).findings = []) ∧
    ∀ rendering, (renderDeploymentInner plan policy).rendering = some rendering →
      rendering.operations.map RenderedOperation.operation = plan.operations ∧
      (rendering.status = .deferredSensitiveInput ↔
        ∃ operation ∈ plan.operations, operation.CreatesSecret) ∧
      (rendering.containsProtectedInlineEnvironment = true ↔ plan.DeclaresSensitiveInline) := by
  refine ⟨renderDeploymentInner_isSome_iff, fun rendering hrendering => ?_⟩
  obtain ⟨intent, hplan⟩ := hplan
  have hplanned := plannedBy_of_plan hplan
  obtain ⟨version, -, scan, hscan, rfl⟩ := renderDeploymentInner_eq_some hrendering
  have hstatus : (scan.rendering plan).status = .deferredSensitiveInput ↔ scan.deferred = true := by
    rw [RenderScan.rendering]
    cases scan.deferred <;> simp
  refine ⟨hscan.operations_eq, ?_, ?_⟩
  · rw [hstatus, hscan.deferred, hplanned.any_secret_iff]
  · rw [← hplanned.any_protected_iff, ← hscan.protectedInline]
    rfl

def sampleRendering : DeploymentRendering :=
  (renderDeploymentInner samplePlan .reject).rendering.get (by decide)

theorem renderDeploymentInner_all_or_nothing_sample :
    sampleRendering.operations.map RenderedOperation.operation = samplePlan.operations ∧
      ∃ operation ∈ samplePlan.operations, operation.CreatesSecret := by
  have hall := (renderDeploymentInner_all_or_nothing samplePlan .reject
    ⟨sampleIntent, samplePlan_planned⟩).2 sampleRendering (Option.some_get _).symm
  exact ⟨hall.1, hall.2.1.mp (by decide)⟩

end Planned

end PodmanLens
