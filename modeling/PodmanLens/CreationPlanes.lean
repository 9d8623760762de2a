import PodmanLens.ContainerPlanes
import PodmanLens.OperandNames

/-!
# Creations agree in both planes

Two creations with the same argument array send the same request, up to an explicit network order
that equals the declared one. Two creations with the same request have the same options up to their
order, the same image and the same command words.
-/

namespace PodmanLens
open Options Text Json Validated

section Lines

/-- Two invocations with the same options in any order and the same operands. -/
def SameInvocation (groups : List Group) (first second : RenderedOperation) : Prop :=
  let line := readCommandLine groups first.cli.argv
  let other := readCommandLine groups second.cli.argv
  line.globals = other.globals ∧ line.command = other.command ∧
    (line.options.map defaulted).Perm (other.options.map defaulted) ∧
    line.operands = other.operands

/-- Two requests whose members agree outside the explicit network order. -/
def SameRequest (first second : RenderedOperation) : Prop :=
  ∃ members others, first.libpod.body = .json (.object members) ∧
    second.libpod.body = .json (.object others) ∧
    ∀ key ≠ "networkOrder", lookup members key = lookup others key

theorem version_unique {plan other : DeploymentPlan} {version version' : String}
    (htarget : plan.target.podmanVersion.asSemver = other.target.podmanVersion.asSemver)
    (h : reviewedRendererTargetVersion plan = some version)
    (h' : reviewedRendererTargetVersion other = some version') : version = version' := by
  rw [(reviewed_version h).2, (reviewed_version h').2, htarget]

theorem libpodPath_inj {version route route' : String} :
    libpodPath version route = libpodPath version route' ↔ route = route' :=
  String.append_right_inj _

end Lines

section Containers

/-- A container creation of a rendering, with its image, request and options. -/
structure CreatedContainer (plan : DeploymentPlan) (policy : SensitiveInlineRenderPolicy)
    (rendered : RenderedOperation) (container : ContainerIntent) (image version : String) :
    Prop where
  argv : rendered.cli.argv = connectionArguments (plan.connection.map Checked.asStr) ++
    (["container", "create"] ++ encode (containerSegments container policy).flatten ++
      image :: commandWords container)
  path : rendered.libpod.pathAndQuery =
    libpodPath version ("containers/create?name=" ++ percentEncode container.identity.val.name)
  body : rendered.libpod.body = .json (.object (assemble (containerMembers container image policy)))
  undashed : ¬Dashed image
  rendered : Rendered container
  distinct : (container.secretGrants.filterMap SecretGrant.environmentTarget).Nodup

variable {intent : DeploymentIntent} {plan other : DeploymentPlan}
  {policy policy' : SensitiveInlineRenderPolicy} {rendering : DeploymentRendering}
  {first second : RenderedOperation} {container container' : ContainerIntent}
  {image image' version version' : String}

theorem createdContainer (hplan : (planDeployment intent).plan = some plan)
    (hrendering : (renderDeploymentInner plan policy).rendering = some rendering)
    (hmem : first ∈ rendering.operations) (hcreate : first.operation.id.action = .create)
    (hcontainer : first.operation.resourceIntent = .container container)
    (hmanaged : Managed plan container.image) :
    ∃ version, reviewedRendererTargetVersion plan = some version ∧
      CreatedContainer plan policy first container
        (renderedImage (managedImageSources plan) container) version := by
  obtain ⟨version, hversion, scan, hscan, rfl⟩ := renderDeploymentInner_eq_some hrendering
  obtain ⟨operation, hoperation, forms, hforms, rfl⟩ := hscan.exists_forms hmem
  dsimp only at hcreate hcontainer
  have hvalid := (plannedBy_of_plan hplan).validated hoperation
  rw [hcontainer] at hvalid
  have hparts : validateContainer intent.index container plan.target = [] := hvalid
  simp only [validateContainer, List.append_eq_nil_iff, refuseWhen_eq_nil] at hparts
  obtain ⟨⟨⟨⟨⟨⟨-, hgrants⟩, -⟩, -⟩, -⟩, horder⟩, -⟩ := hparts
  have hstart : ¬operation.id.action = .startContainer := by
    rw [hcreate]
    decide
  simp only [renderForms, hcontainer, if_neg hstart] at hforms
  have hrendered := renderContainerCreate_eq hforms
  refine ⟨version, hversion, ?_, hrendered.path, hrendered.body, ?_, ?_, ?_⟩
  · rw [← hrendered.cliSuffix]
    rfl
  · exact renderedImage_dashed_iff.mpr (.inl hmanaged)
  · exact ⟨horder, hrendered.networks, hrendered.mounts, hrendered.secrets⟩
  · exact (apart_of_validateSecretGrants hgrants).environment

theorem CreatedContainer.read (h : CreatedContainer plan policy first container image version) :
    readCommandLine containerGroups first.cli.argv =
      ⟨valued "--connection" (plan.connection.map Checked.asStr).toList, ["container", "create"],
        (containerSegments container policy).flatten, image :: commandWords container⟩ := by
  rw [h.argv, readCommandLine_eq (grouped_container container policy) wellFormed_containerGroups
    (by decide) (by simpa using h.undashed)]

theorem CreatedContainer.same_request
    (h : CreatedContainer plan policy first container image version)
    (h' : CreatedContainer other policy' second container' image' version)
    (hargv : first.cli.argv = second.cli.argv) :
    first.libpod.pathAndQuery = second.libpod.pathAndQuery ∧ SameRequest first second ∧
      (container.networkOrder.isSome = container'.networkOrder.isSome →
        first.libpod.body = second.libpod.body) := by
  have hread := h.read
  rw [hargv, h'.read, CommandLine.mk.injEq] at hread
  obtain ⟨-, -, hoptions, hoperands⟩ := hread
  obtain ⟨himage, hwords⟩ := List.cons.inj hoperands.symm
  have hsegments := sameSegments ((grouped_container container policy).flatten_inj
    (grouped_container container' policy') wellFormed_containerGroups.1 hoptions.symm)
  have hfront : frontMembers container image = frontMembers container' image' := by
    rw [frontMembers, frontMembers, himage, hsegments.pod,
      hsegments.attachedMembers h.rendered h'.rendered]
  have hback : backMembers container policy = backMembers container' policy' :=
    hsegments.backMembers h.rendered h'.rendered hwords
  refine ⟨?_, ⟨_, _, h.body, h'.body, fun key hkey => ?_⟩, fun horder => ?_⟩
  · rw [h.path, h'.path, hsegments.name]
  · rw [containerMembers_eq, containerMembers_eq, hfront, hback]
    exact lookup_assemble_replace _ _ hkey _ _
  · rw [h.body, h'.body, containerMembers_eq, containerMembers_eq, hfront, hback,
      hsegments.orderMember h.rendered h'.rendered horder]

theorem CreatedContainer.same_invocation
    (h : CreatedContainer plan policy first container image version)
    (h' : CreatedContainer other policy' second container' image' version)
    (hconnection : plan.connection = other.connection)
    (hpath : first.libpod.pathAndQuery = second.libpod.pathAndQuery)
    (hbody : first.libpod.body = second.libpod.body) :
    SameInvocation containerGroups first second := by
  have hname : container.identity.val.name = container'.identity.val.name := by
    rw [h.path, h'.path, libpodPath_inj, String.append_right_inj] at hpath
    exact percentEncode_injective hpath
  rw [h.body, h'.body, RenderedHttpBody.json.injEq, Value.object.injEq] at hbody
  have hmembers := sameBodies hbody
  have hoptions := hmembers.options_perm h.rendered h'.rendered h.distinct h'.distinct hname
  rw [SameInvocation, h.read, h'.read]
  exact ⟨by rw [hconnection], rfl, hoptions, by rw [hmembers.sameImage, hmembers.settings_perm.1]⟩

end Containers

section Pods

/-- A pod creation of a rendering, with its request and options. -/
structure CreatedPod (plan : DeploymentPlan) (rendered : RenderedOperation) (pod : PodIntent)
    (version : String) : Prop where
  argv : rendered.cli.argv = connectionArguments (plan.connection.map Checked.asStr) ++
    (["pod", "create"] ++ encode (podSegments pod).flatten)
  path : rendered.libpod.pathAndQuery = libpodPath version "pods/create"
  body : rendered.libpod.body = .json (.object (assemble (podMembers pod)))
  safe : ∀ attachment ∈ pod.networks.values,
    cliSafeMountComponent attachment.network.val.name = true

variable {intent : DeploymentIntent} {plan other : DeploymentPlan}
  {policy : SensitiveInlineRenderPolicy} {rendering : DeploymentRendering}
  {first second : RenderedOperation} {pod pod' : PodIntent} {version version' : String}

theorem createdPod (hrendering : (renderDeploymentInner plan policy).rendering = some rendering)
    (hmem : first ∈ rendering.operations) (hcreate : first.operation.id.action = .create)
    (hpod : first.operation.resourceIntent = .pod pod) :
    ∃ version, reviewedRendererTargetVersion plan = some version ∧
      CreatedPod plan first pod version := by
  obtain ⟨version, hversion, scan, hscan, rfl⟩ := renderDeploymentInner_eq_some hrendering
  obtain ⟨operation, hoperation, forms, hforms, rfl⟩ := hscan.exists_forms hmem
  dsimp only at hcreate hpod
  have hstart : ¬operation.id.action = .startPod := by
    rw [hcreate]
    decide
  simp only [renderForms, hpod, if_neg hstart] at hforms
  obtain ⟨hsuffix, hpath, hbody⟩ := renderPodCreate_eq hforms
  refine ⟨version, hversion, ?_, hpath, hbody, renderPodCreate_safe hforms⟩
  rw [← hsuffix]
  rfl

theorem CreatedPod.read (h : CreatedPod plan first pod version) :
    readCommandLine podGroups first.cli.argv =
      ⟨valued "--connection" (plan.connection.map Checked.asStr).toList, ["pod", "create"],
        (podSegments pod).flatten, []⟩ := by
  rw [h.argv, ← List.append_nil (["pod", "create"] ++ _), readCommandLine_eq (grouped_pod pod)
    wellFormed_podGroups (by decide) (by simp)]

theorem CreatedPod.same_request (h : CreatedPod plan first pod version)
    (h' : CreatedPod other second pod' version) (hargv : first.cli.argv = second.cli.argv) :
    first.libpod.pathAndQuery = second.libpod.pathAndQuery ∧
      first.libpod.body = second.libpod.body := by
  have hread := h.read
  rw [hargv, h'.read, CommandLine.mk.injEq] at hread
  have hsegments := (grouped_pod pod).flatten_inj (grouped_pod pod') wellFormed_podGroups.1
    hread.2.2.1.symm
  obtain ⟨hname, hnetworking⟩ := List.cons.inj hsegments
  obtain ⟨htexts, hendpoints⟩ := networkingSegments_inj.mp hnetworking
  have hnetworks : flaggedAttachments pod.networks none = flaggedAttachments pod'.networks none :=
    networkTexts_inj h.safe h'.safe htexts
  have hmembers : podMembers pod = podMembers pod' := by
    rw [podMembers, podMembers, networkingMembers_eq, networkingMembers_eq,
      endpointMembers_inj.mpr hendpoints, networkConfiguration_inj.mpr (.of_eq hnetworks),
      (List.cons.inj (valued_inj.mp hname)).1]
  rw [h.path, h'.path, h.body, h'.body, hmembers]
  exact ⟨rfl, rfl⟩

theorem CreatedPod.same_invocation (h : CreatedPod plan first pod version)
    (h' : CreatedPod other second pod' version) (hconnection : plan.connection = other.connection)
    (hbody : first.libpod.body = second.libpod.body) : SameInvocation podGroups first second := by
  rw [h.body, h'.body, RenderedHttpBody.json.injEq, Value.object.injEq,
    assemble_inj_iff _ (by decide) (keys_podMembers pod) (keys_podMembers pod'),
    podMembers, podMembers, networkingMembers_eq, networkingMembers_eq] at hbody
  simp only [List.cons_append, List.nil_append, List.cons.injEq, Prod.mk.injEq, true_and,
    Option.some_inj, Value.string.injEq] at hbody
  obtain ⟨hname, hnetworks, hmembers⟩ := hbody
  have hendpoints := endpointMembers_inj.mp (List.append_inj_left' hmembers rfl)
  have hperm := networkingSegments_perm ((networkConfiguration_inj.mp hnetworks).map attachmentText)
    hendpoints
  rw [SameInvocation, h.read, h'.read, podSegments, podSegments, hname, List.flatten_cons,
    List.flatten_cons]
  exact ⟨by rw [hconnection], rfl, (hperm.append_left _).map defaulted, rfl⟩

end Pods

section Planes

variable {intent intent' : DeploymentIntent} {plan plan' : DeploymentPlan}
  {policy policy' : SensitiveInlineRenderPolicy} {rendering rendering' : DeploymentRendering}
  {first second : RenderedOperation}

/-- Creations of one version and connection are told apart by both planes alike. -/
theorem creations_correspond (hplan : (planDeployment intent).plan = some plan)
    (hplan' : (planDeployment intent').plan = some plan')
    (hrendering : (renderDeploymentInner plan policy).rendering = some rendering)
    (hrendering' : (renderDeploymentInner plan' policy').rendering = some rendering')
    (htarget : plan.target.podmanVersion.asSemver = plan'.target.podmanVersion.asSemver)
    (hconnection : plan.connection = plan'.connection)
    (hfirst : first ∈ rendering.operations) (hsecond : second ∈ rendering'.operations)
    (hcreate : first.operation.id.action = .create)
    (hcreate' : second.operation.id.action = .create) :
    (∀ container container', first.operation.resourceIntent = .container container →
      second.operation.resourceIntent = .container container' →
      Managed plan container.image → Managed plan' container'.image →
        (first.cli.argv = second.cli.argv →
          first.libpod.pathAndQuery = second.libpod.pathAndQuery ∧ SameRequest first second ∧
            (container.networkOrder.isSome = container'.networkOrder.isSome →
              first.libpod.body = second.libpod.body)) ∧
        (first.libpod.pathAndQuery = second.libpod.pathAndQuery →
          first.libpod.body = second.libpod.body → SameInvocation containerGroups first second)) ∧
    (∀ pod pod', first.operation.resourceIntent = .pod pod →
      second.operation.resourceIntent = .pod pod' →
        (first.cli.argv = second.cli.argv →
          first.libpod.pathAndQuery = second.libpod.pathAndQuery ∧
            first.libpod.body = second.libpod.body) ∧
        (first.libpod.pathAndQuery = second.libpod.pathAndQuery →
          first.libpod.body = second.libpod.body → SameInvocation podGroups first second)) := by
  refine ⟨fun container container' hresource hresource' hmanaged hmanaged' => ?_,
    fun pod pod' hresource hresource' => ?_⟩
  · obtain ⟨version, hversion, hcreated⟩ :=
      createdContainer hplan hrendering hfirst hcreate hresource hmanaged
    obtain ⟨version', hversion', hcreated'⟩ :=
      createdContainer hplan' hrendering' hsecond hcreate' hresource' hmanaged'
    obtain rfl := version_unique htarget hversion hversion'
    exact ⟨hcreated.same_request hcreated', hcreated.same_invocation hcreated' hconnection⟩
  · obtain ⟨version, hversion, hcreated⟩ := createdPod hrendering hfirst hcreate hresource
    obtain ⟨version', hversion', hcreated'⟩ := createdPod hrendering' hsecond hcreate' hresource'
    obtain rfl := version_unique htarget hversion hversion'
    exact ⟨hcreated.same_request hcreated',
      fun _ hbody => hcreated.same_invocation hcreated' hconnection hbody⟩

end Planes

section Sample

def orderedImage : ImageIntent where
  identity := sampleImage
  source := sampleSource
  pullPolicy := .missing

def declaredContainer : ContainerIntent where
  identity := sampleWorker
  image := sampleImage
  networks := sampleAttachments sampleNetwork

/-- The same container with its one network in an explicit order. -/
def orderedContainer : ContainerIntent :=
  { declaredContainer with networkOrder := some ⟨[sampleNetwork], by simp⟩ }

def attachedIntent (container : ContainerIntent) : DeploymentIntent where
  target := sampleTarget
  resources := [.network { identity := sampleNetwork }, .image orderedImage, .container container]

def declaredPlan : DeploymentPlan :=
  (planDeployment (attachedIntent declaredContainer)).plan.get (by decide)

def orderedPlan : DeploymentPlan :=
  (planDeployment (attachedIntent orderedContainer)).plan.get (by decide)

def declaredRendering : DeploymentRendering :=
  (renderDeploymentInner declaredPlan .reject).rendering.get (by decide)

def orderedRendering : DeploymentRendering :=
  (renderDeploymentInner orderedPlan .reject).rendering.get (by decide)

def namesOrder : RenderedHttpBody → Bool
  | .json value => (value.member "networkOrder").isSome
  | _ => false

theorem orderedImage_managed : ∀ plan ∈ [declaredPlan, orderedPlan], Managed plan sampleImage.val := by
  have hmanaged : ∀ plan ∈ [declaredPlan, orderedPlan], ∃ operation ∈ plan.operations,
      operation.resourceIntent = .image orderedImage := by decide
  intro plan hmem
  obtain ⟨operation, hoperation, hresource⟩ := hmanaged plan hmem
  exact ⟨operation, hoperation, orderedImage, hresource, rfl⟩

/-- Both containers are created with the same arguments, and one request names the order. -/
theorem orderedContainers_created : ∃ first ∈ declaredRendering.operations,
    ∃ second ∈ orderedRendering.operations,
      (first.operation.id.action = .create ∧
        first.operation.resourceIntent = .container declaredContainer) ∧
      (second.operation.id.action = .create ∧
        second.operation.resourceIntent = .container orderedContainer) ∧
      first.cli.argv = second.cli.argv ∧
        namesOrder first.libpod.body ≠ namesOrder second.libpod.body := by
  decide

theorem creations_correspond_sample : ∃ first ∈ declaredRendering.operations,
    ∃ second ∈ orderedRendering.operations,
      first.libpod.pathAndQuery = second.libpod.pathAndQuery ∧ SameRequest first second := by
  obtain ⟨first, hfirst, second, hsecond, hcreated, hcreated', hargv, -⟩ := orderedContainers_created
  have hplanes := (creations_correspond (Option.some_get _).symm (Option.some_get _).symm
    (Option.some_get _).symm (Option.some_get _).symm (by decide) (by decide) hfirst
    hsecond hcreated.1 hcreated'.1).1 _ _ hcreated.2 hcreated'.2
    (orderedImage_managed declaredPlan (by simp)) (orderedImage_managed orderedPlan (by simp))
  exact ⟨first, hfirst, second, hsecond, (hplanes.1 hargv).1, (hplanes.1 hargv).2.1⟩

theorem explicitOrder_only_in_body :
    (planDeployment (attachedIntent declaredContainer)).plan = some declaredPlan ∧
      (planDeployment (attachedIntent orderedContainer)).plan = some orderedPlan ∧
      (renderDeployment declaredPlan).rendering = some declaredRendering ∧
      (renderDeployment orderedPlan).rendering = some orderedRendering ∧
      Managed declaredPlan declaredContainer.image ∧ Managed orderedPlan orderedContainer.image ∧
      ∃ first ∈ declaredRendering.operations, ∃ second ∈ orderedRendering.operations,
        (first.operation.id.action = .create ∧
          first.operation.resourceIntent = .container declaredContainer) ∧
        (second.operation.id.action = .create ∧
          second.operation.resourceIntent = .container orderedContainer) ∧
        first.cli.argv = second.cli.argv ∧ first.libpod.body ≠ second.libpod.body := by
  obtain ⟨first, hfirst, second, hsecond, hcreated, hcreated', hargv, horder⟩ :=
    orderedContainers_created
  exact ⟨(Option.some_get _).symm, (Option.some_get _).symm, (Option.some_get _).symm,
    (Option.some_get _).symm, orderedImage_managed _ (by simp), orderedImage_managed _ (by simp),
    first, hfirst, second, hsecond, hcreated, hcreated', hargv,
    fun hbody => horder (congrArg namesOrder hbody)⟩

end Sample

end PodmanLens
