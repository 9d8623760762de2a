import PodmanLens.RenderOutcome
import Std.Data.String.ToNat

/-!
# The renderer repeats gates of the planner

Before rendering an operation, the renderer refuses fields that the planner has already validated.
The planner compares semantic versions and the renderer version spellings; on reviewed targets they
decide the same way, so a planned container or pod only meets the gates that are the renderer's own,
and rendering its runtime settings behind them does not fail.
-/

namespace PodmanLens
open Text Json Validated

section Versions

/-- A version spelling determines the version core. -/
theorem core_of_canonicalVersion {a b : Version} (h : canonicalVersion a = canonicalVersion b) :
    a.major = b.major ∧ a.minor = b.minor ∧ a.patch = b.patch := by
  have hspelled (v : Version) : (canonicalVersion v).toList =
      v.major.repr.toList ++ '.' :: (v.minor.repr.toList ++ '.' :: v.patch.repr.toList) := by
    simp only [canonicalVersion, String.toList_append, List.append_assoc]
    rfl
  have hdot (n : ℕ) : '.' ∉ n.repr.toList := notMem_repr (by decide) n
  have htext := congrArg String.toList h
  rw [hspelled, hspelled] at htext
  obtain ⟨hmajor, hrest⟩ := append_cons_inj (hdot _) (hdot _) htext
  obtain ⟨hminor, hpatch⟩ := append_cons_inj (hdot _) (hdot _) hrest
  exact ⟨Nat.repr_injective (String.toList_injective hmajor),
    Nat.repr_injective (String.toList_injective hminor),
    Nat.repr_injective (String.toList_injective hpatch)⟩

theorem reviewed_version {plan : DeploymentPlan} {version : String}
    (h : reviewedRendererTargetVersion plan = some version) :
    version ∈ rendererCatalogueVersions ∧
      version = canonicalVersion plan.target.podmanVersion.asSemver := by
  unfold reviewedRendererTargetVersion at h
  dsimp only at h
  split_ifs at h
  exact ⟨List.mem_of_find?_eq_some h, by simpa using List.find?_some h⟩

/-- A reviewed version spells one of the reviewed cores. -/
theorem core_of_spelled {v : Version} (major minor patch : ℕ)
    (h : canonicalVersion v = canonicalVersion ⟨major, minor, patch, ""⟩) (a b c : ℕ) :
    v.precedes a b c = Version.precedes ⟨major, minor, patch, ""⟩ a b c := by
  obtain ⟨hmajor, hminor, hpatch⟩ := core_of_canonicalVersion h
  simp only [Version.precedes, hmajor, hminor, hpatch]

theorem reviewed_gates {plan : DeploymentPlan} {version : String}
    (h : reviewedRendererTargetVersion plan = some version) :
    (supportsJournaldLabels version = !plan.target.podmanVersion.asSemver.precedes 6 0 0) ∧
      supportsUnlimitedRlimit version = !plan.target.podmanVersion.asSemver.precedes 5 6 0 := by
  obtain ⟨hmem, hspelled⟩ := reviewed_version h
  simp only [rendererCatalogueVersions, List.mem_cons, List.not_mem_nil, or_false] at hmem
  rcases hmem with rfl | rfl | rfl | rfl | rfl | rfl | rfl
  · have hcore := core_of_spelled 5 4 0 (hspelled.symm.trans (by decide))
    rw [hcore, hcore]
    decide
  · have hcore := core_of_spelled 5 5 0 (hspelled.symm.trans (by decide))
    rw [hcore, hcore]
    decide
  · have hcore := core_of_spelled 5 6 0 (hspelled.symm.trans (by decide))
    rw [hcore, hcore]
    decide
  · have hcore := core_of_spelled 5 7 0 (hspelled.symm.trans (by decide))
    rw [hcore, hcore]
    decide
  · have hcore := core_of_spelled 5 8 6 (hspelled.symm.trans (by decide))
    rw [hcore, hcore]
    decide
  · have hcore := core_of_spelled 6 0 0 (hspelled.symm.trans (by decide))
    rw [hcore, hcore]
    decide
  · have hcore := core_of_spelled 6 1 0 (hspelled.symm.trans (by decide))
    rw [hcore, hcore]
    decide

end Versions

section Gates

@[simp] theorem fieldWhen_false (field : String) : fieldWhen false field = [] := rfl

theorem mem_fieldWhen {condition : Bool} {field gated : String} :
    field ∈ fieldWhen condition gated ↔ condition = true ∧ field = gated := by
  cases condition <;> simp [fieldWhen]

/-- The fields of a container or pod that the planner refuses under the same conditions. -/
def plannerGatedFields : List String :=
  ["networks", "ports", "dns", "host_aliases", staticAddressField, "runtime.namespaces.pod_member",
    "runtime.startup_health_requires_health", "runtime.logging.driver", "runtime.logging.max_size",
    "runtime.logging.journald_labels", journaldField, rlimitField,
    "runtime.security.privileged_capabilities", "runtime.security.capability_overlap",
    "runtime.security.read_write_tmpfs"]

/-- The gates of a container that only the renderer has. -/
def rendererContainerFields (container : ContainerIntent) (version : String)
    (policy : SensitiveInlineRenderPolicy) : List String :=
  fieldWhen ((container.runtime.health.bind configuredCommand).any healthCommandIsSensitive)
    "runtime.health.command" ++
  fieldWhen (container.runtime.startupHealth.any fun startup =>
    healthCommandIsSensitive startup.command) "runtime.startup_health.command" ++
  fieldWhen (container.networkOrder.isSome && !supportsNetworkOrder version) "network_order" ++
  fieldWhen (!container.secretGrants.isEmpty && !secretGrantsRenderable container.secretGrants)
    "secret_grants" ++
  fieldWhen (container.mounts.any mountHasUnsupportedSubpath) "mounts.subpath_nocopy" ++
  fieldWhen (policy == .reject && hasSensitiveInlineEnvironment container)
    "environment.sensitive_inline" ++
  fieldWhen (hasExternalEnvironment container) "environment.external" ++
  fieldWhen (container.pod.isSome && container.settings.restartPolicy.isSome)
    "restart_policy.pod_member"

variable {resources : ResourceIndex} {target : TargetProfile} {container : ContainerIntent}
  {version : String}

theorem noStaticAddress_of_valid {attachments : List NetworkAttachment}
    {owner : DeploymentResourceId}
    (h : validateStaticNetworkAddresses attachments owner target.executionContext = []) :
    (target.executionContext != .rootful &&
      attachments.any networkAttachmentHasStaticAddress) = false := by
  unfold validateStaticNetworkAddresses at h
  split_ifs at h with hrootful
  · simp [hrootful]
  · rw [List.flatMap_eq_nil_iff] at h
    have hnone : attachments.any networkAttachmentHasStaticAddress = false := by
      rw [List.any_eq_false]
      intro attachment hmem
      have hvalid := h attachment hmem
      simp only [List.append_eq_nil_iff, refuseWhen_eq_nil] at hvalid
      simp [networkAttachmentHasStaticAddress, hvalid]
    rw [hnone, Bool.and_false]

/-- A pod member that the planner accepts leaves its networking and namespaces to its pod. -/
theorem memberGates_of_valid {pod : OfKind .pod} (hpod : container.pod = some pod)
    (h : validateContainer resources container target = []) :
    container.networks.values.isEmpty = true ∧ container.ports.values.isEmpty = true ∧
      container.dns.isEmpty = true ∧ container.hostAliases.values.isEmpty = true ∧
      container.networkOrder = none ∧ container.runtime.namespaces.isEmpty = true := by
  simp only [validateContainer, validatePodMember, hpod, List.append_eq_nil_iff,
    refuseWhen_eq_nil, Bool.not_eq_false'] at h
  obtain ⟨⟨⟨⟨-, ⟨⟨⟨⟨⟨⟨⟨⟨hnamespaces, -⟩, hnetworks⟩, hports⟩, hdns⟩, haliases⟩, horder⟩, -⟩, -⟩⟩, -⟩, -⟩,
    -⟩ := h
  exact ⟨hnetworks, hports, hdns, haliases, by simpa using horder, hnamespaces⟩

/-- Of the runtime gates, only those on protected health commands are left. -/
theorem unsupportedRuntimeFields_of_valid
    (hjournald : supportsJournaldLabels version = !target.podmanVersion.asSemver.precedes 6 0 0)
    (hrlimits : supportsUnlimitedRlimit version = !target.podmanVersion.asSemver.precedes 5 6 0)
    (h : validateContainer resources container target = []) :
    unsupportedRuntimeFields container version =
      fieldWhen ((container.runtime.health.bind configuredCommand).any healthCommandIsSensitive)
        "runtime.health.command" ++
      fieldWhen (container.runtime.startupHealth.any fun startup =>
        healthCommandIsSensitive startup.command) "runtime.startup_health.command" := by
  have hnamespaces : (container.pod.isSome && !container.runtime.namespaces.isEmpty) = false := by
    cases hpod : container.pod with
    | none => rfl
    | some pod => simp [(memberGates_of_valid hpod h).2.2.2.2.2]
  simp only [validateContainer, validateRuntimeSettings, List.append_eq_nil_iff,
    refuseWhen_eq_nil] at h
  obtain ⟨-, ⟨⟨⟨⟨⟨⟨⟨⟨⟨⟨-, -⟩, hstartup⟩, hdriver⟩, hlabels⟩, hversion⟩, hsize⟩, hprivileged⟩,
    hoverlap⟩, htmpfs⟩, hunlimited⟩, -⟩ := h
  have hoverlap' : (container.runtime.security.capAdd.values.any fun capability =>
      container.runtime.security.capDrop.values.contains capability) = false := hoverlap
  simp only [unsupportedRuntimeFields, hjournald, hrlimits, Bool.not_not, hstartup, hdriver,
    hlabels, hversion, hsize, hprivileged, hoverlap', htmpfs, hunlimited, hnamespaces,
    fieldWhen_false, List.nil_append, List.append_nil]

theorem notMem_plannerGatedFields {policy : SensitiveInlineRenderPolicy} {field : String}
    (h : field ∈ rendererContainerFields container version policy) :
    field ∉ plannerGatedFields := by
  simp only [rendererContainerFields, List.mem_append, mem_fieldWhen] at h
  rcases h with ((((((⟨-, rfl⟩ | ⟨-, rfl⟩) | ⟨-, rfl⟩) | ⟨-, rfl⟩) | ⟨-, rfl⟩) | ⟨-, rfl⟩) |
    ⟨-, rfl⟩) | ⟨-, rfl⟩ <;> decide

theorem pod_eq_none_of_networkOrder {policy : SensitiveInlineRenderPolicy}
    (hvalid : validateContainer resources container target = [])
    (h : "network_order" ∈ rendererContainerFields container version policy) :
    container.pod = none := by
  cases hpod : container.pod with
  | none => rfl
  | some pod =>
      have horder := (memberGates_of_valid hpod hvalid).2.2.2.2.1
      simp [rendererContainerFields, mem_fieldWhen, horder] at h

theorem unsupportedContainerFields_of_valid (policy : SensitiveInlineRenderPolicy)
    (hjournald : supportsJournaldLabels version = !target.podmanVersion.asSemver.precedes 6 0 0)
    (hrlimits : supportsUnlimitedRlimit version = !target.podmanVersion.asSemver.precedes 5 6 0)
    (h : validateContainer resources container target = []) :
    unsupportedContainerFields container version target.executionContext policy =
      rendererContainerFields container version policy := by
  have hstatic : (target.executionContext != .rootful &&
      container.networks.values.any networkAttachmentHasStaticAddress) = false := by
    simp only [validateContainer, List.append_eq_nil_iff] at h
    exact noStaticAddress_of_valid h.1.1.1.1.1.1.1.2
  have hmember : (container.pod.isSome && !container.networks.values.isEmpty) = false ∧
      (container.pod.isSome && !container.ports.values.isEmpty) = false ∧
      (container.pod.isSome && !container.dns.isEmpty) = false ∧
      (container.pod.isSome && !container.hostAliases.values.isEmpty) = false ∧
      (container.pod.isSome && container.networkOrder.isSome) = false := by
    cases hpod : container.pod with
    | none => simp
    | some pod =>
        obtain ⟨hnetworks, hports, hdns, haliases, horder, -⟩ := memberGates_of_valid hpod h
        simp [hnetworks, hports, hdns, haliases, horder]
  obtain ⟨hnetworks, hports, hdns, haliases, horder⟩ := hmember
  simp only [unsupportedContainerFields, unsupportedRuntimeFields_of_valid hjournald hrlimits h,
    hnetworks, hports, hdns, haliases, horder, hstatic, fieldWhen_false, List.append_nil,
    rendererContainerFields]

end Gates

section Runtime
variable {identity : DeploymentResourceId} {version : String}

theorem healthCommandJson_exists {command : HealthCommand} (field : String)
    (h : healthCommandIsSensitive command = false) :
    ∃ value, healthCommandJson command identity field = .ok value := by
  cases command with
  | shell command => exact ⟨_, rfl⟩
  | exec arguments => exact ⟨_, rfl⟩
  | _ => cases h

/-- What the renderer's gates leave of a container whose operations are rendered. -/
structure RuntimeRenderable (container : ContainerIntent) (version : String) : Prop where
  health : (container.runtime.health.bind configuredCommand).any healthCommandIsSensitive = false
  startup : (container.runtime.startupHealth.any fun startup =>
    healthCommandIsSensitive startup.command) = false
  journald : (!container.runtime.logging.journaldLabels.values.isEmpty &&
    !supportsJournaldLabels version) = false
  rlimits : refusesRlimits container.runtime.resources version = false

variable {container : ContainerIntent}

theorem RuntimeRenderable.of_fields
    (h : unsupportedRuntimeFields container version = []) : RuntimeRenderable container version := by
  have hfield {condition : Bool} {field : String} :
      fieldWhen condition field = [] ↔ condition = false := by
    cases condition <;> simp [fieldWhen]
  simp only [unsupportedRuntimeFields, List.append_eq_nil_iff, hfield] at h
  obtain ⟨⟨⟨⟨⟨⟨⟨⟨⟨⟨⟨-, hhealth⟩, hstartup⟩, hjournald⟩, -⟩, -⟩, -⟩, hrlimits⟩, -⟩, -⟩, -⟩, -⟩ := h
  exact ⟨hhealth, hstartup, hjournald, hrlimits⟩

theorem appendHealthCheck_exists {health : Option HealthCheck}
    (h : (health.bind configuredCommand).any healthCommandIsSensitive = false)
    (arguments : List String) (body : Members) :
    (∃ values, appendHealthCheckArguments arguments identity health = .ok values) ∧
      ∃ members, appendHealthCheckJson body identity health = .ok members := by
  cases health with
  | none => exact ⟨⟨_, rfl⟩, _, rfl⟩
  | some health =>
      cases health with
      | disabled => exact ⟨⟨_, rfl⟩, _, rfl⟩
      | command configured =>
          have hpublic : healthCommandIsSensitive configured.command = false := h
          obtain ⟨value, hvalue⟩ := healthCommandJson_exists "runtime.health.command" hpublic
          constructor
          · refine ⟨_, bind_eq_ok.mpr ⟨Json.render value, ?_, rfl⟩⟩
            rw [healthCommandCli, hvalue]
            rfl
          · refine ⟨_, bind_eq_ok.mpr ⟨_, bind_eq_ok.mpr ⟨value, hvalue, rfl⟩, rfl⟩⟩

theorem appendStartupHealth_exists {startup : Option StartupHealthCheck}
    (h : (startup.any fun startup => healthCommandIsSensitive startup.command) = false)
    (arguments : List String) (body : Members) :
    (∃ values, appendStartupHealthArguments arguments identity startup = .ok values) ∧
      ∃ members, appendStartupHealthCheckJson body identity startup = .ok members := by
  cases startup with
  | none => exact ⟨⟨_, rfl⟩, _, rfl⟩
  | some startup =>
      have hpublic : healthCommandIsSensitive startup.command = false := h
      obtain ⟨value, hvalue⟩ := healthCommandJson_exists "runtime.startup_health.command" hpublic
      constructor
      · refine ⟨_, bind_eq_ok.mpr ⟨Json.render value, ?_, rfl⟩⟩
        rw [healthCommandCli, hvalue]
        rfl
      · exact ⟨_, bind_eq_ok.mpr ⟨value, hvalue, rfl⟩⟩

theorem exists_bind {α β : Type} {x : RenderResult α} {f : α → RenderResult β} {a : α}
    (hx : x = .ok a) (hf : ∃ b, f a = .ok b) : ∃ b, (x >>= f) = .ok b := by
  rw [hx]
  exact hf

theorem RuntimeRenderable.arguments (h : RuntimeRenderable container version)
    (arguments : List String) :
    ∃ values, appendContainerRuntimeArguments arguments container identity version = .ok values := by
  obtain ⟨health, hhealth⟩ := (appendHealthCheck_exists h.health arguments []).1
  obtain ⟨startup, hstartup⟩ := (appendStartupHealth_exists h.startup health []).1
  apply exists_bind hhealth
  apply exists_bind hstartup
  have hlogging : ∃ values,
      appendLoggingArguments startup container.runtime.logging identity version = .ok values := by
    rw [appendLoggingArguments, h.journald]
    exact ⟨_, rfl⟩
  obtain ⟨logging, hlogging⟩ := hlogging
  apply exists_bind hlogging
  rw [appendResourceArguments, h.rlimits]
  exact ⟨_, rfl⟩

theorem RuntimeRenderable.json (h : RuntimeRenderable container version) (body : Members) :
    ∃ members, appendContainerRuntimeJson body container identity version = .ok members := by
  obtain ⟨health, hhealth⟩ := (appendHealthCheck_exists h.health [] body).2
  obtain ⟨startup, hstartup⟩ := (appendStartupHealth_exists h.startup [] health).2
  apply exists_bind hhealth
  apply exists_bind hstartup
  have hlogging : ∃ members,
      appendLoggingJson startup container.runtime.logging identity version = .ok members := by
    unfold appendLoggingJson
    dsimp only
    simp only [h.journald, Bool.false_eq_true, if_false]
    split_ifs <;> exact ⟨_, rfl⟩
  obtain ⟨logging, hlogging⟩ := hlogging
  apply exists_bind hlogging
  unfold appendResourceJson
  dsimp only
  rw [h.rlimits]
  exact ⟨_, rfl⟩

end Runtime

section Planned
variable {intent : DeploymentIntent} {plan : DeploymentPlan} {operation : DeploymentOperation}
  {version : String}

/-- A planned container meets only the renderer's own gates, a planned pod only infra mounts. -/
theorem PlannedBy.unsupportedFields_eq (h : PlannedBy intent plan)
    (hversion : reviewedRendererTargetVersion plan = some version)
    (policy : SensitiveInlineRenderPolicy) (hmem : operation ∈ plan.operations) :
    (∀ container, operation.resourceIntent = .container container →
      unsupportedFields operation.resourceIntent version plan.target.executionContext policy =
        rendererContainerFields container version policy) ∧
    ∀ pod, operation.resourceIntent = .pod pod →
      unsupportedFields operation.resourceIntent version plan.target.executionContext policy =
        fieldWhen (!pod.infraMounts.isEmpty) "infra_mounts" := by
  have hvalid := h.validated hmem
  obtain ⟨hjournald, hrlimits⟩ := reviewed_gates hversion
  constructor
  · intro container hcontainer
    rw [hcontainer] at hvalid ⊢
    exact unsupportedContainerFields_of_valid policy hjournald hrlimits hvalid
  · intro pod hpod
    rw [hpod] at hvalid ⊢
    simp only [validateResource, validatePod, List.append_eq_nil_iff] at hvalid
    have hstatic := noStaticAddress_of_valid hvalid.1.1.1.1.2
    simp only [unsupportedFields, hstatic, fieldWhen_false, List.nil_append]

/-- On a reviewed target the renderer reports none of the planner's fields for a planned container
or pod, and rendering runtime settings does not fail for an operation that passes its gates. -/
theorem planner_gates_subsume (hplan : (planDeployment intent).plan = some plan)
    (hversion : reviewedRendererTargetVersion plan = some version)
    (policy : SensitiveInlineRenderPolicy) (hmem : operation ∈ plan.operations) :
    (∀ field ∈ unsupportedFields operation.resourceIntent version plan.target.executionContext
      policy, field ∉ plannerGatedFields ∧
        ∀ container, operation.resourceIntent = .container container → field = "network_order" →
          container.pod = none) ∧
    ∀ container, operation.resourceIntent = .container container →
      unsupportedFields operation.resourceIntent version plan.target.executionContext policy = [] →
        (∀ arguments, ∃ values, appendContainerRuntimeArguments arguments container
          operation.id.resource version = .ok values) ∧
        ∀ body, ∃ members, appendContainerRuntimeJson body container operation.id.resource
          version = .ok members := by
  have hplanned := plannedBy_of_plan hplan
  obtain ⟨hcontainers, hpods⟩ := hplanned.unsupportedFields_eq hversion policy hmem
  refine ⟨fun field hfield => ?_, fun container hcontainer hclear => ?_⟩
  · cases hresource : operation.resourceIntent with
    | container container =>
        rw [hcontainers container hresource] at hfield
        refine ⟨notMem_plannerGatedFields hfield, ?_⟩
        rintro _ ⟨⟩ rfl
        have hvalid := hplanned.validated hmem
        rw [hresource] at hvalid
        exact pod_eq_none_of_networkOrder hvalid hfield
    | pod pod =>
        rw [hpods pod hresource, mem_fieldWhen] at hfield
        rw [hfield.2]
        refine ⟨by decide, ?_⟩
        rintro _ ⟨⟩
    | image image =>
        rw [hresource, unsupportedFields, List.mem_append, mem_fieldWhen, mem_fieldWhen] at hfield
        refine ⟨?_, by rintro _ ⟨⟩⟩
        rcases hfield with ⟨-, rfl⟩ | ⟨-, rfl⟩ <;> decide
    | volume volume =>
        rw [hresource, unsupportedFields, mem_fieldWhen] at hfield
        refine ⟨?_, by rintro _ ⟨⟩⟩
        rw [hfield.2]
        decide
    | network network =>
        rw [hresource, unsupportedFields, mem_fieldWhen] at hfield
        refine ⟨?_, by rintro _ ⟨⟩⟩
        rw [hfield.2]
        decide
    | externalPrecondition | secret =>
        rw [hresource] at hfield
        cases hfield
  · have hruntime : unsupportedRuntimeFields container version = [] := by
      rw [hcontainer] at hclear
      simp only [unsupportedFields, unsupportedContainerFields, List.append_eq_nil_iff] at hclear
      exact hclear.1.1.1.1.1.1.1.1.1.1.1.1
    have hrenderable := RuntimeRenderable.of_fields hruntime
    exact ⟨hrenderable.arguments, hrenderable.json⟩

theorem planner_gates_subsume_sample : ∃ operation ∈ samplePlan.operations, ∃ container,
    operation.resourceIntent = .container container ∧
      ∀ arguments, ∃ values, appendContainerRuntimeArguments arguments container
        operation.id.resource "6.1.0" = .ok values := by
  have hversion : reviewedRendererTargetVersion samplePlan = some "6.1.0" := by decide
  have hworker : samplePlan.operations.any (fun operation =>
      (containerOf operation.resourceIntent).any fun container =>
        unsupportedContainerFields container "6.1.0" samplePlan.target.executionContext .reject
          == []) = true := by
    decide
  obtain ⟨operation, hmem, hfields⟩ := List.any_eq_true.mp hworker
  cases hresource : operation.resourceIntent with
  | container container =>
      simp only [hresource, containerOf, Option.any_some, beq_iff_eq] at hfields
      refine ⟨operation, hmem, container, hresource, ?_⟩
      exact ((planner_gates_subsume samplePlan_planned hversion .reject hmem).2 container hresource
        (by rw [hresource]; exact hfields)).1
  | _ => simp [hresource, containerOf] at hfields

end Planned

end PodmanLens
