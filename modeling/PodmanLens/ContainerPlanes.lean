import PodmanLens.EndpointPlanes
import PodmanLens.HealthPlanes
import PodmanLens.SettingPlanes

/-!
# Containers and pods in both planes

The options and command words of a container determine its members, all but the explicit network
order, which the command line cannot tell from the declared one. The members determine the options
up to their order. A pod declares no order and is determined by either plane.
-/

namespace PodmanLens
open Options Text Json Validated

section Members

def attachedMembers (container : ContainerIntent) : List (String × Option Value) :=
  if container.pod.isSome then ("Networks", none) :: endpointMembers .empty {} .empty
  else ("Networks", some (networkConfiguration container.networks)) ::
    endpointMembers container.ports container.dns container.hostAliases

def orderMember (container : ContainerIntent) : Option Value :=
  if container.pod.isSome then none
  else container.networkOrderIds.map fun order =>
    stringArray (order.map DeploymentResourceId.name)

def frontMembers (container : ContainerIntent) (image : String) : List (String × Option Value) :=
  [("image", some (.string image)), ("pod", container.pod.map fun pod => .string pod.val.name)] ++
    attachedMembers container

def backMembers (container : ContainerIntent) (policy : SensitiveInlineRenderPolicy) :
    List (String × Option Value) :=
  settingMembers container (environmentTexts policy container.settings.environment.values) ++
    secretMembers container.secretGrants ++ runtimeMembers container.runtime

variable {container other : ContainerIntent} {image image' : String}
  {policy policy' : SensitiveInlineRenderPolicy}

theorem containerMembers_eq (container : ContainerIntent) (image : String)
    (policy : SensitiveInlineRenderPolicy) : containerMembers container image policy =
      frontMembers container image ++ ("networkOrder", orderMember container) ::
        backMembers container policy := by
  have hnetworking : containerNetworkingMembers container =
      attachedMembers container ++ [("networkOrder", orderMember container)] := by
    rw [containerNetworkingMembers, attachedMembers, orderMember]
    split_ifs
    · rfl
    · rfl
  rw [containerMembers, hnetworking, frontMembers, backMembers]
  simp only [List.append_assoc, List.cons_append, List.nil_append]

theorem length_containerNetworkingSegments (container : ContainerIntent) :
    (containerNetworkingSegments container).length = 6 := by
  rw [containerNetworkingSegments]
  split_ifs
  · rfl
  · rfl

theorem length_attachedMembers (container : ContainerIntent) :
    (attachedMembers container).length = 6 := by
  rw [attachedMembers]
  split_ifs
  · rfl
  · rfl

theorem kindName_injective {kind : ResourceKind} :
    Function.Injective fun id : OfKind kind => id.val.name := fun a b h =>
  Subtype.ext (DeploymentResourceId.eq_of_kind_name (a.2.trans b.2.symm) h)

end Members

section Segments

variable {container other : ContainerIntent} {policy policy' : SensitiveInlineRenderPolicy}

/-- Equal options are equal in each part. -/
structure SameSegments (container other : ContainerIntent)
    (policy policy' : SensitiveInlineRenderPolicy) : Prop where
  name : container.identity.val.name = other.identity.val.name
  pod : container.pod = other.pod
  networking : containerNetworkingSegments container = containerNetworkingSegments other
  mounts : container.mounts.map mountOption = other.mounts.map mountOption
  secrets : container.secretGrants.map secretText = other.secretGrants.map secretText
  settings : settingSegments container.settings
      (environmentTexts policy container.settings.environment.values) =
    settingSegments other.settings (environmentTexts policy' other.settings.environment.values)
  runtime : runtimeSegments container.runtime = runtimeSegments other.runtime

theorem sameSegments (h : containerSegments container policy = containerSegments other policy') :
    SameSegments container other policy policy' := by
  have hlength := (length_containerNetworkingSegments container).trans
    (length_containerNetworkingSegments other).symm
  obtain ⟨h, hruntime⟩ := List.append_inj' h rfl
  obtain ⟨h, hsettings⟩ := List.append_inj' h rfl
  obtain ⟨h, hmounts⟩ := List.append_inj' h rfl
  obtain ⟨hname, hnetworking⟩ := List.append_inj' h hlength
  simp only [List.cons.injEq, and_true, true_and, valued_inj,
    setting_inj kindName_injective] at hname hmounts
  exact ⟨hname.1, hname.2, hnetworking, hmounts.1, hmounts.2, hsettings, hruntime⟩

/-- A container that was validated and rendered. -/
structure Rendered (container : ContainerIntent) : Prop where
  ordered : misordersNetworks container = false
  networks : container.pod = none → ∃ arguments values,
    appendNetworkArguments arguments container.networks container.networkOrderIds = some values
  mounts : ∀ mount ∈ container.mounts, mountSafe mount = true
  secrets : ∀ grant ∈ container.secretGrants, secretSafe grant = true

theorem Rendered.flagged (h : Rendered container) (hpod : container.pod = none) :
    orderedNetworkAttachments container.networks.values container.networkOrderIds =
        some (flaggedAttachments container.networks container.networkOrderIds) ∧
      ∀ attachment ∈ flaggedAttachments container.networks container.networkOrderIds,
        cliSafeMountComponent attachment.network.val.name = true := by
  obtain ⟨arguments, values, hvalues⟩ := h.networks hpod
  obtain ⟨hordered, hsafe, -⟩ := appendNetworkArguments_eq hvalues
  exact ⟨hordered, hsafe⟩

theorem SameSegments.flagged (h : SameSegments container other policy policy')
    (hcontainer : Rendered container) (hother : Rendered other) (hpod : container.pod = none) :
    flaggedAttachments container.networks container.networkOrderIds =
        flaggedAttachments other.networks other.networkOrderIds ∧
      SameEndpoints container.ports other.ports container.dns other.dns container.hostAliases
        other.hostAliases := by
  have hnetworking := h.networking
  have hpod' : other.pod = none := h.pod ▸ hpod
  rw [containerNetworkingSegments, containerNetworkingSegments, hpod, hpod'] at hnetworking
  obtain ⟨htexts, hendpoints⟩ := networkingSegments_inj.mp hnetworking
  exact ⟨networkTexts_inj (hcontainer.flagged hpod).2 (hother.flagged hpod').2 htexts, hendpoints⟩

theorem SameSegments.attachedMembers (h : SameSegments container other policy policy')
    (hcontainer : Rendered container) (hother : Rendered other) :
    attachedMembers container = attachedMembers other := by
  rw [PodmanLens.attachedMembers, PodmanLens.attachedMembers]
  cases hpod : container.pod with
  | some pod =>
      rw [← h.pod, hpod]
      rfl
  | none =>
      have hpod' : other.pod = none := h.pod ▸ hpod
      obtain ⟨hflagged, hendpoints⟩ := h.flagged hcontainer hother hpod
      have hperm : container.networks.values.Perm other.networks.values :=
        (flaggedAttachments_perm hcontainer.ordered (hcontainer.flagged hpod).1).symm.trans
          (hflagged ▸ flaggedAttachments_perm hother.ordered (hother.flagged hpod').1)
      rw [hpod', networkConfiguration_inj.mpr hperm, endpointMembers_inj.mpr hendpoints]

/-- Flags in an explicit order spell the order out. -/
theorem SameSegments.orderMember (h : SameSegments container other policy policy')
    (hcontainer : Rendered container) (hother : Rendered other)
    (horder : container.networkOrder.isSome = other.networkOrder.isSome) :
    orderMember container = orderMember other := by
  rw [PodmanLens.orderMember, PodmanLens.orderMember]
  cases hpod : container.pod with
  | some pod =>
      rw [← h.pod, hpod]
      rfl
  | none =>
      have hpod' : other.pod = none := h.pod ▸ hpod
      obtain ⟨hflagged, -⟩ := h.flagged hcontainer hother hpod
      have hids : container.networkOrderIds = other.networkOrderIds := by
        have hfirst := (hcontainer.flagged hpod).1
        have hsecond := (hother.flagged hpod').1
        have hsome : container.networkOrderIds.isSome = other.networkOrderIds.isSome := by
          rw [ContainerIntent.networkOrderIds, ContainerIntent.networkOrderIds, Option.isSome_map,
            Option.isSome_map, horder]
        cases hids : container.networkOrderIds with
        | none =>
            rw [hids] at hsome
            exact (Option.not_isSome_iff_eq_none.mp (by simp [← hsome])).symm
        | some order =>
            rw [hids] at hsome hfirst
            obtain ⟨order', hids'⟩ := Option.isSome_iff_exists.mp hsome.symm
            rw [hids'] at hsecond
            rw [hids', ← (orderedNetworkAttachments_eq hfirst).1,
              ← (orderedNetworkAttachments_eq hsecond).1, ← hids, ← hids', hflagged]
      rw [hpod', hids]

theorem SameSegments.backMembers (h : SameSegments container other policy policy')
    (hcontainer : Rendered container) (hother : Rendered other)
    (hwords : commandWords container = commandWords other) :
    backMembers container policy = backMembers other policy' := by
  obtain ⟨hdeclared, hlabels, henvironment⟩ := (settingSegments_inj equals_notMem_environmentTexts
    equals_notMem_environmentTexts).mp h.settings
  have hmounts := mountOptions_inj hcontainer.mounts hother.mounts h.mounts
  have hgrants := secretTexts_inj hcontainer.secrets hother.secrets h.secrets
  have hsettings := (settingMembers_inj (environmentKeys_nodup container.settings.environment)
    (environmentKeys_nodup other.settings.environment)).mpr ⟨commandWords_inj.mp hwords, hdeclared,
      .of_eq (by rw [hlabels]), .of_eq henvironment, by rw [hmounts], by rw [hmounts]⟩
  rw [PodmanLens.backMembers, PodmanLens.backMembers, hsettings, hgrants,
    runtimeMembers_of_segments h.runtime]

end Segments

section Options

variable {container other : ContainerIntent} {image image' : String}
  {policy policy' : SensitiveInlineRenderPolicy}

/-- Equal members are equal in each part. -/
structure SameBodies (container other : ContainerIntent) (image image' : String)
    (policy policy' : SensitiveInlineRenderPolicy) : Prop where
  sameImage : image = image'
  pod : container.pod = other.pod
  attached : attachedMembers container = attachedMembers other
  settings : settingMembers container
      (environmentTexts policy container.settings.environment.values) =
    settingMembers other (environmentTexts policy' other.settings.environment.values)
  runtime : runtimeMembers container.runtime = runtimeMembers other.runtime
  secrets : requestSecrets (assemble (containerMembers container image policy)) =
    requestSecrets (assemble (containerMembers other image' policy'))

theorem sameBodies (h : assemble (containerMembers container image policy) =
    assemble (containerMembers other image' policy')) :
    SameBodies container other image image' policy policy' := by
  have hmembers := (assemble_inj_iff containerKeys containerKeys_nodup
    (keys_containerMembers container image policy) (keys_containerMembers other image' policy')).mp h
  rw [containerMembers_eq, containerMembers_eq] at hmembers
  have hlength : (frontMembers container image).length = (frontMembers other image').length := by
    rw [frontMembers, frontMembers, List.length_append, List.length_append,
      length_attachedMembers, length_attachedMembers]
    rfl
  obtain ⟨hfront, hrest⟩ := List.append_inj hmembers hlength
  obtain ⟨hhead, hattached⟩ := List.append_inj hfront rfl
  obtain ⟨hback, hruntime⟩ := List.append_inj (List.cons.inj hrest).2 rfl
  obtain ⟨hsettings, -⟩ := List.append_inj hback rfl
  simp only [List.cons.injEq, Prod.mk.injEq, true_and, and_true, Option.some_inj,
    Value.string.injEq, member_inj (string_injective kindName_injective)] at hhead
  exact ⟨hhead.1, hhead.2, hattached, hsettings, hruntime, by rw [h]⟩

theorem SameBodies.networking_perm
    (h : SameBodies container other image image' policy policy') (hcontainer : Rendered container)
    (hother : Rendered other) : (containerNetworkingSegments container).flatten.Perm
      (containerNetworkingSegments other).flatten := by
  have hattached := h.attached
  rw [attachedMembers, attachedMembers] at hattached
  rw [containerNetworkingSegments, containerNetworkingSegments]
  cases hpod : container.pod with
  | some pod =>
      rw [← h.pod, hpod]
      exact .refl _
  | none =>
      have hpod' : other.pod = none := h.pod ▸ hpod
      rw [hpod, hpod'] at hattached
      obtain ⟨hnetworks, hendpoints⟩ := List.cons.inj hattached
      simp only [Prod.mk.injEq, true_and, Option.some_inj] at hnetworks
      have hperm := (flaggedAttachments_perm hcontainer.ordered (hcontainer.flagged hpod).1).trans
        ((networkConfiguration_inj.mp hnetworks).trans
          (flaggedAttachments_perm hother.ordered (hother.flagged hpod').1).symm)
      rw [hpod']
      exact networkingSegments_perm (hperm.map attachmentText) (endpointMembers_inj.mp hendpoints)

theorem SameBodies.settings_perm
    (h : SameBodies container other image image' policy policy') :
    commandWords container = commandWords other ∧
      container.mounts.Perm other.mounts ∧
      (settingSegments container.settings
        (environmentTexts policy container.settings.environment.values)).flatten.Perm
      (settingSegments other.settings
        (environmentTexts policy' other.settings.environment.values)).flatten := by
  obtain ⟨hcommand, hdeclared, hlabels, henvironment, hvolumes, hmounts⟩ :=
    (settingMembers_inj (environmentKeys_nodup container.settings.environment)
      (environmentKeys_nodup other.settings.environment)).mp h.settings
  have harray : Function.Injective Value.array := fun _ _ h => Value.array.inj h
  refine ⟨commandWords_inj.mpr hcommand, ?_, ?_⟩
  · have hvolumes := congrArg (List.map readVolumeMember) ((nonEmpty_inj harray).mp hvolumes)
    have hmounts := congrArg (List.map readMountMember) ((nonEmpty_inj harray).mp hmounts)
    rw [readVolumes_eq, readVolumes_eq] at hvolumes
    rw [readMounts_eq, readMounts_eq] at hmounts
    exact mounts_perm hvolumes hmounts
  · exact settingSegments_perm hdeclared hlabels henvironment

/-- Options that do not grant secrets have no mode to count. -/
theorem defaulted_valued (texts : List String) :
    (valued "--secret" texts).map defaulted = valued "--secret" (texts.map defaultedText) := by
  rw [valued, valued, List.map_map, List.map_map]
  rfl

theorem SameBodies.options_perm (h : SameBodies container other image image' policy policy')
    (hcontainer : Rendered container) (hother : Rendered other)
    (hdistinct : (container.secretGrants.filterMap SecretGrant.environmentTarget).Nodup)
    (hdistinct' : (other.secretGrants.filterMap SecretGrant.environmentTarget).Nodup)
    (hname : container.identity.val.name = other.identity.val.name) :
    ((containerSegments container policy).flatten.map defaulted).Perm
      ((containerSegments other policy').flatten.map defaulted) := by
  obtain ⟨-, hmounts, hsettings⟩ := h.settings_perm
  have hgrants : (requestSecrets (assemble (containerMembers container image policy))).Perm _ :=
    requestSecrets_perm hdistinct
  rw [h.secrets] at hgrants
  have hgrants := hgrants.symm.trans (requestSecrets_perm hdistinct')
  have hsecrets := secretTexts_perm hcontainer.secrets hother.secrets hgrants
  simp only [containerSegments, hname, h.pod, List.flatten_append, List.flatten_cons,
    List.flatten_nil, List.map_append, List.append_nil, defaulted_valued]
  have hmounted := ((hmounts.map mountOption).map defaulted).append
    (hsecrets.map fun text => (⟨"--secret", some text⟩ : Occurrence))
  have hnetworking := (h.networking_perm hcontainer hother).map defaulted
  have hruntime := (runtimeSegments_perm h.runtime).map defaulted
  exact (((hnetworking.append_left _).append hmounted).append (hsettings.map defaulted)).append
    hruntime

end Options

end PodmanLens
