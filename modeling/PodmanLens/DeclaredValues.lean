import PodmanLens.PlanPlacement
import PodmanLens.ContainerOptions
import PodmanLens.RenderGates
import PodmanLens.RequestValues

/-!
# Declared values in both planes

A container that the planner accepts lists every attachment once in its network order and injects
every secret under a name of its own. So its flags and the members of its request are read back to
the same declarations, and neither plane loses or merges one.
-/

namespace PodmanLens
open Std Options Json Validated TreeEntries

section Distinct

theorem NetworkAttachments.ids_nodup (networks : NetworkAttachments) :
    (networks.values.map fun attachment => attachment.network.val).Nodup := by
  apply List.pairwise_map.mpr
  apply networks.distinct.imp
  intro a b hclash heq
  simp [Subtype.ext heq] at hclash

theorem NetworkAttachments.names_nodup (networks : NetworkAttachments) :
    (networks.values.map fun attachment => attachment.network.val.name).Nodup := by
  apply List.pairwise_map.mpr
  apply (List.pairwise_map.mp networks.ids_nodup).imp
  intro a b hne heq
  exact hne (DeploymentResourceId.eq_of_kind_name (a.network.2.trans b.network.2.symm) heq)

/-- An explicit order that the planner accepts lists the declared networks, each of them once. -/
theorem networkOrder_perm {container : ContainerIntent}
    (h : misordersNetworks container = false) {order : List DeploymentResourceId}
    (horder : container.networkOrderIds = some order) :
    order.Perm (container.networks.values.map fun attachment => attachment.network.val) := by
  simp only [misordersNetworks, horder, Bool.or_eq_false_iff, bne_eq_false_iff_eq] at h
  obtain ⟨⟨-, hlength⟩, hlists⟩ := h
  rw [List.perm_ext_iff_of_nodup (nodup_of_size_ofList hlength) container.networks.ids_nodup]
  intro identity
  have hmem := congrArg (identity ∈ ·) hlists
  simpa [ExtTreeSet.mem_toList, ExtTreeSet.mem_ofList] using hmem.symm

/-- Looking up each of the ordered networks finds the attachments in that order. -/
theorem orderedNetworkAttachments_eq {attachments flagged : List NetworkAttachment}
    {order : List DeploymentResourceId}
    (h : orderedNetworkAttachments attachments (some order) = some flagged) :
    flagged.map (fun attachment => attachment.network.val) = order ∧
      ∀ attachment ∈ flagged, attachment ∈ attachments := by
  rw [orderedNetworkAttachments] at h
  induction order generalizing flagged with
  | nil =>
      cases h
      exact ⟨rfl, by simp⟩
  | cons identity rest ih =>
      rw [List.mapM_cons, Option.bind_eq_bind, Option.bind_eq_some_iff] at h
      obtain ⟨attachment, hfound, h⟩ := h
      obtain ⟨others, hothers, h⟩ := Option.bind_eq_some_iff.mp h
      cases h
      obtain ⟨hids, hmem⟩ := ih hothers
      have hid : attachment.network.val = identity := by simpa using List.find?_some hfound
      rw [List.map_cons, hids, hid, List.forall_mem_cons]
      exact ⟨rfl, List.mem_of_find?_eq_some hfound, hmem⟩

theorem flaggedAttachments_perm {container : ContainerIntent}
    (h : misordersNetworks container = false) {flagged : List NetworkAttachment}
    (hflagged : orderedNetworkAttachments container.networks.values container.networkOrderIds =
      some flagged) : flagged.Perm container.networks.values := by
  cases horder : container.networkOrderIds with
  | none =>
      rw [horder] at hflagged
      cases hflagged
      exact .refl _
  | some order =>
      rw [horder] at hflagged
      obtain ⟨hids, hmem⟩ := orderedNetworkAttachments_eq hflagged
      have hperm := hids ▸ networkOrder_perm h horder
      have hnodup : flagged.Nodup := List.Nodup.of_map _
        (hperm.nodup_iff.mpr container.networks.ids_nodup)
      apply (hnodup.subperm hmem).perm_of_length_le
      simpa using hperm.length_eq.ge

end Distinct

section Requests

variable {container : ContainerIntent} {image : String} {policy : SensitiveInlineRenderPolicy}

theorem elements_nonEmpty (values : List Value) :
    ((nonEmpty .array values).map Value.elements).getD [] = values := by
  cases values with
  | nil | cons => rfl

theorem members_nonEmpty (members : Members) :
    ((nonEmpty .object members).map Value.members).getD [] = members := by
  cases members with
  | nil | cons => rfl

theorem requestVolumes_eq : requestVolumes (assemble (containerMembers container image policy)) =
    ((container.mounts.map declaredMount).filter fun mount => mount.kind = .volume).map some := by
  have hmember : ("volumes", nonEmpty .array (mountJson container.mounts)) ∈
      containerMembers container image policy := by
    simp [containerMembers, settingMembers]
  rw [requestVolumes, lookup_containerMembers hmember, elements_nonEmpty, readVolumes_eq]

theorem requestMounts_eq : requestMounts (assemble (containerMembers container image policy)) =
    ((container.mounts.map declaredMount).filter fun mount => mount.kind ≠ .volume).map some := by
  have hmember : ("mounts", nonEmpty .array (nativeMountJson container.mounts)) ∈
      containerMembers container image policy := by
    simp [containerMembers, settingMembers]
  rw [requestMounts, lookup_containerMembers hmember, elements_nonEmpty, readMounts_eq]

theorem readNetworks_perm (networks : NetworkAttachments) :
    ((networkConfiguration networks).members.map readNetworkMember).Perm
      (networks.values.map declaredNetwork) := by
  have hkeys : ((networks.values.map fun attachment => (attachment.network.val.name,
      Value.object (networkOptionsJson attachment))).map Prod.fst).Nodup := by
    rw [List.map_map]
    exact networks.names_nodup
  have hperm := (ofPairs_perm hkeys).map readNetworkMember
  rw [List.map_map] at hperm
  have hread : readNetworkMember ∘ (fun attachment : NetworkAttachment =>
      (attachment.network.val.name, Value.object (networkOptionsJson attachment))) =
        declaredNetwork := funext readNetworkMember_eq
  rwa [hread] at hperm

theorem requestNetworks_perm {resources : ResourceIndex} {target : TargetProfile}
    (hvalid : validateContainer resources container target = []) :
    (requestNetworks (assemble (containerMembers container image policy))).Perm
      (container.networks.values.map declaredNetwork) := by
  cases hpod : container.pod with
  | some pod =>
      have hmember : ("Networks", none) ∈ containerMembers container image policy := by
        simp [containerMembers, containerNetworkingMembers, hpod]
      have hnetworks : container.networks.values = [] :=
        List.isEmpty_iff.mp (memberGates_of_valid hpod hvalid).1
      rw [requestNetworks, lookup_containerMembers hmember, hnetworks]
      exact .refl _
  | none =>
      have hmember : ("Networks", some (networkConfiguration container.networks)) ∈
          containerMembers container image policy := by
        simp [containerMembers, containerNetworkingMembers, hpod]
      rw [requestNetworks, lookup_containerMembers hmember]
      exact readNetworks_perm container.networks

theorem requestSecrets_perm
    (hdistinct : (container.secretGrants.filterMap SecretGrant.environmentTarget).Nodup) :
    (requestSecrets (assemble (containerMembers container image policy))).Perm
      (container.secretGrants.map fun grant => some (declaredSecret grant).withDefaultMode) := by
  have hsecrets : ("secrets", nonEmpty .array (container.secretGrants.filterMap secretMountJson)) ∈
      containerMembers container image policy := by
    simp [containerMembers, secretMembers]
  have henvironment : ("secret_env", nonEmpty .object (ofPairs
      (container.secretGrants.filterMap secretEnvironmentJson))) ∈
        containerMembers container image policy := by
    simp [containerMembers, secretMembers]
  rw [requestSecrets, lookup_containerMembers hsecrets, lookup_containerMembers henvironment,
    elements_nonEmpty, members_nonEmpty, readSecretMembers_eq]
  have hkeys : ((container.secretGrants.filterMap secretEnvironmentJson).map Prod.fst).Nodup := by
    have htargets : (container.secretGrants.filterMap secretEnvironmentJson).map Prod.fst =
        (container.secretGrants.filterMap SecretGrant.environmentTarget).map Checked.asStr := by
      rw [List.map_filterMap, List.map_filterMap]
      apply List.filterMap_congr
      intro grant _
      cases grant with
      | mount | environment => rfl
    rw [htargets]
    exact hdistinct.map Checked.asStr_injective
  have hentries := (ofPairs_perm hkeys).map readSecretEnvironment
  rw [readSecretEnvironments_eq] at hentries
  apply (hentries.append_left _).trans
  rw [← List.map_append, ← List.map_append]
  have hsplit := List.perm_append_comm.trans
    (List.filter_append_perm SecretDeclaration.environment (container.secretGrants.map declaredSecret))
  have hdeclared : (container.secretGrants.map fun grant =>
      some (declaredSecret grant).withDefaultMode) =
        ((container.secretGrants.map declaredSecret).map SecretDeclaration.withDefaultMode).map
          some := by
    rw [List.map_map, List.map_map]
    rfl
  rw [hdeclared]
  exact (hsplit.map SecretDeclaration.withDefaultMode).map some

end Requests

section Planes

variable {intent : DeploymentIntent} {plan : DeploymentPlan} {operation : DeploymentOperation}
  {container : ContainerIntent}

/-- The accepted flags of a planned container and the members of its rendered request are read back
to its declarations, which determine its attachments, mounts and grants. -/
theorem flags_and_members_declare (hplan : (planDeployment intent).plan = some plan)
    (hmem : operation ∈ plan.operations)
    (hcontainer : operation.resourceIntent = .container container) :
    (∀ arguments values, appendNetworkArguments arguments container.networks
        container.networkOrderIds = some values →
      ∃ texts, values = arguments ++ encode (valued "--network" texts) ∧
        (texts.map readNetworkFlag).Perm (container.networks.values.map declaredNetwork)) ∧
    (∀ arguments values, appendMountArguments arguments container.mounts = some values →
      ∃ options, values = arguments ++ encode options ∧
        options.map readMountOption = container.mounts.map fun mount => some (declaredMount mount)) ∧
    (∀ arguments values, appendSecretGrantsArguments arguments container.secretGrants =
        some values →
      ∃ texts, values = arguments ++ encode (valued "--secret" texts) ∧
        texts.map readSecretFlag =
          container.secretGrants.map fun grant => some (declaredSecret grant)) ∧
    (∀ id version sources policy forms,
      renderContainerCreate container id version sources policy = .ok forms →
        ∃ body, forms.body = .json (.object body) ∧
          (requestNetworks body).Perm (container.networks.values.map declaredNetwork) ∧
          requestVolumes body = ((container.mounts.map declaredMount).filter fun mount =>
            mount.kind = .volume).map some ∧
          requestMounts body = ((container.mounts.map declaredMount).filter fun mount =>
            mount.kind ≠ .volume).map some ∧
          (requestSecrets body).Perm (container.secretGrants.map fun grant =>
            some (declaredSecret grant).withDefaultMode)) ∧
    Function.Injective declaredNetwork ∧ Function.Injective declaredMount ∧
      Function.Injective declaredSecret := by
  have hvalid := (plannedBy_of_plan hplan).validated hmem
  rw [hcontainer] at hvalid
  have hvalid : validateContainer intent.index container plan.target = [] := hvalid
  have hparts := hvalid
  simp only [validateContainer, List.append_eq_nil_iff, refuseWhen_eq_nil] at hparts
  obtain ⟨⟨⟨⟨⟨⟨-, hgrants⟩, -⟩, -⟩, -⟩, horder⟩, -⟩ := hparts
  refine ⟨fun arguments values h => ?_, fun arguments values h => ?_, fun arguments values h => ?_,
    fun id version sources policy forms h => ?_, declaredNetwork_injective,
    declaredMount_injective, declaredSecret_injective⟩
  · obtain ⟨hflagged, hsafe, rfl⟩ := appendNetworkArguments_eq h
    refine ⟨_, rfl, ?_⟩
    have hread : (networkTexts container.networks container.networkOrderIds).map readNetworkFlag =
        (flaggedAttachments container.networks container.networkOrderIds).map declaredNetwork := by
      rw [networkTexts, List.map_map]
      exact List.map_congr_left fun attachment hattachment =>
        readNetworkFlag_attachmentText (hsafe attachment hattachment)
    rw [hread]
    exact (flaggedAttachments_perm horder hflagged).map declaredNetwork
  · obtain ⟨hsafe, rfl⟩ := appendMountArguments_eq h
    refine ⟨_, rfl, ?_⟩
    rw [List.map_map]
    exact List.map_congr_left fun mount hmount => readMountOption_eq (hsafe mount hmount)
  · obtain ⟨hsafe, rfl⟩ := appendSecretGrantsArguments_eq h
    refine ⟨_, rfl, ?_⟩
    rw [List.map_map]
    exact List.map_congr_left fun grant hgrant => readSecretFlag_eq (hsafe grant hgrant)
  · exact ⟨_, (renderContainerCreate_eq h).body, requestNetworks_perm hvalid, requestVolumes_eq,
      requestMounts_eq, requestSecrets_perm
        (apart_of_validateSecretGrants hgrants).environment⟩

theorem flags_and_members_declare_sample : ∃ operation ∈ samplePlan.operations, ∃ container,
    operation.resourceIntent = .container container ∧ container.mounts ≠ [] ∧
      ∃ options, appendMountArguments [] container.mounts = some (encode options) ∧
        options.map readMountOption =
          container.mounts.map fun mount => some (declaredMount mount) := by
  have hrendered : samplePlan.operations.any (fun operation =>
      (containerOf operation.resourceIntent).any fun container =>
        !container.mounts.isEmpty && (appendMountArguments [] container.mounts).isSome) = true := by
    decide
  obtain ⟨operation, hmem, hmounts⟩ := List.any_eq_true.mp hrendered
  cases hresource : operation.resourceIntent with
  | container container =>
      simp only [hresource, containerOf, Option.any_some, Bool.and_eq_true, Bool.not_eq_true']
        at hmounts
      obtain ⟨values, hvalues⟩ := Option.isSome_iff_exists.mp hmounts.2
      have hdeclared := (flags_and_members_declare samplePlan_planned hmem hresource).2.1
      obtain ⟨options, rfl, hread⟩ := hdeclared [] values hvalues
      exact ⟨operation, hmem, container, hresource, by simpa using hmounts.1, options, hvalues,
        hread⟩
  | _ => simp [hresource, containerOf] at hmounts

end Planes

end PodmanLens
