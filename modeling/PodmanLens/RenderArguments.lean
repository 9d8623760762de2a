import PodmanLens.RenderText

/-!
# Rendered invocations fit on one line

The argument arrays of mounts, secret grants, runtime settings and container settings are free of
control characters, hence those of every operation of a rendering.
-/

namespace PodmanLens
open Net Text Json Validated

section Mounts

theorem controlFree_accessName (access : MountAccess) : ControlFree (accessName access) := by
  cases access <;> decide

theorem controlFree_path (path : AbsoluteContainerPath) : ControlFree path.asStr :=
  controlFree_of_isAbsoluteNormalizedPath path.accepted

theorem controlFree_optionText {α : Type} {key : String} (hkey : ControlFree key)
    {text : α → String} (htext : ∀ a, ControlFree (text a)) (value : Option α) :
    ControlFree (optionText key text value) := by
  cases value with
  | none => exact (by decide : ControlFree "")
  | some a => exact controlFree_append.mpr ⟨hkey, htext a⟩

theorem controlFree_mountCliValue {kind source destination : String} {access : MountAccess}
    {subpath : Option String} (hkind : ControlFree kind) (hsource : ControlFree source)
    (hdestination : ControlFree destination) (hsubpath : ∀ s ∈ subpath, ControlFree s) :
    ControlFree (mountCliValue kind source destination access subpath) := by
  have hsourceText : ControlFree (if source.isEmpty then "" else ",source=" ++ source) := by
    split_ifs with hempty
    · decide
    · exact controlFree_append.mpr ⟨by decide, hsource⟩
  have haccess : ControlFree (if access.isReadOnly then ",readonly" else "") := by
    split_ifs <;> decide
  cases subpath with
  | none =>
      simp only [mountCliValue, controlFree_append]
      exact ⟨⟨⟨⟨⟨⟨by decide, hkind⟩, hsourceText⟩, by decide⟩, hdestination⟩, haccess⟩, by decide⟩
  | some subpath =>
      simp only [mountCliValue, controlFree_append]
      exact ⟨⟨⟨⟨⟨⟨by decide, hkind⟩, hsourceText⟩, by decide⟩, hdestination⟩, haccess⟩,
        by decide, hsubpath subpath rfl⟩

/-- The names, paths and options of a mount are validated, and the encoder adds no control. -/
theorem unbroken_mountArguments {mount : MountIntent} {values : List String}
    (h : mountArguments mount = some values) : Unbroken values := by
  cases mount with
  | namedVolume mount =>
      have hsource := mount.source.val.controlFree_name
      have hdestination := controlFree_path mount.destination
      cases hsubpath : mount.subpath with
      | none =>
          simp only [mountArguments, hsubpath] at h
          split_ifs at h with hsafe
          cases h
          have hcopy : ControlFree mount.copyMode.asStr := by cases mount.copyMode <;> decide
          simp only [unbroken_cons, unbroken_nil, controlFree_append]
          exact ⟨by decide, ⟨⟨⟨⟨⟨⟨hsource, by decide⟩, hdestination⟩, by decide⟩,
            controlFree_accessName _⟩, by decide⟩, hcopy⟩, trivial⟩
      | some subpath =>
          simp only [mountArguments, hsubpath] at h
          split_ifs at h with hsafe
          cases h
          simp only [unbroken_cons, unbroken_nil]
          refine ⟨by decide, controlFree_mountCliValue (by decide) hsource hdestination ?_, trivial⟩
          rintro _ ⟨⟩
          exact controlFree_of_isVolumeSubpath subpath.accepted
  | bind mount =>
      simp only [mountArguments] at h
      split_ifs at h with hsafe
      cases h
      simp only [unbroken_cons, unbroken_nil]
      exact ⟨by decide, controlFree_mountCliValue (by decide) (controlFree_path _)
        (controlFree_path _) (by simp), trivial⟩
  | tmpfs mount =>
      simp only [mountArguments] at h
      split_ifs at h with hsafe
      cases h
      simp only [unbroken_cons, unbroken_nil]
      exact ⟨by decide, controlFree_mountCliValue (by decide) (by decide) (controlFree_path _)
        (by simp), trivial⟩

theorem unbroken_appendMountArguments {arguments values : List String} {mounts : List MountIntent}
    (h : appendMountArguments arguments mounts = some values) (harguments : Unbroken arguments) :
    Unbroken values := by
  rw [appendMountArguments, Option.bind_eq_bind, Option.bind_eq_some_iff] at h
  obtain ⟨texts, htexts, h⟩ := h
  cases h
  refine unbroken_append.mpr ⟨harguments, fun value hvalue => ?_⟩
  obtain ⟨text, htext, hvalue⟩ := List.mem_flatten.mp hvalue
  obtain ⟨mount, -, hmount⟩ := mem_of_mapM_some htexts htext
  exact unbroken_mountArguments hmount value hvalue

theorem controlFree_secretGrantCliValue {grant : SecretGrant} {value : String}
    (h : secretGrantCliValue grant = some value) : ControlFree value := by
  unfold secretGrantCliValue at h
  split_ifs at h with hsafe
  cases grant with
  | mount source target uid gid mode =>
      dsimp only at h
      split_ifs at h with htarget
      cases h
      simp only [controlFree_append]
      exact ⟨⟨⟨⟨⟨⟨by decide, source.val.controlFree_name⟩, by decide⟩,
        controlFree_optionText (by decide) controlFree_path _⟩,
        controlFree_optionText (by decide) (fun _ => controlFree_repr _) _⟩,
        controlFree_optionText (by decide) (fun _ => controlFree_repr _) _⟩,
        controlFree_optionText (by decide) (fun _ => controlFree_octal _) _⟩
  | environment source target =>
      cases h
      simp only [controlFree_append]
      exact ⟨⟨⟨by decide, source.val.controlFree_name⟩, by decide⟩,
        controlFree_environmentName target⟩

theorem unbroken_appendSecretGrantsArguments {arguments values : List String}
    {grants : List SecretGrant} (h : appendSecretGrantsArguments arguments grants = some values)
    (harguments : Unbroken arguments) : Unbroken values := by
  rw [appendSecretGrantsArguments, Option.bind_eq_bind, Option.bind_eq_some_iff] at h
  obtain ⟨texts, htexts, h⟩ := h
  cases h
  refine unbroken_append.mpr ⟨harguments, unbroken_repeated (by decide) fun text htext => ?_⟩
  obtain ⟨grant, -, hgrant⟩ := mem_of_mapM_some htexts htext
  exact controlFree_secretGrantCliValue hgrant

theorem unbroken_volumeCreate (volume : VolumeIntent) :
    Unbroken (volumeCreateCliArguments volume) := by
  simp only [volumeCreateCliArguments, unbroken_append]
  refine ⟨⟨⟨by simp only [unbroken_cons, unbroken_nil]; decide, ?_⟩, ?_⟩, ?_⟩
  · exact unbroken_repeated (by decide) fun uid _ => controlFree_repr _
  · exact unbroken_repeated (by decide) fun gid _ => controlFree_repr _
  · simpa using volume.identity.val.controlFree_name

end Mounts

section Runtime

variable {arguments values : List String} {identity : DeploymentResourceId} {version : String}

theorem controlFree_healthCommandCli {command : HealthCommand} {field text : String}
    (h : healthCommandCli command identity field = .ok text) : ControlFree text := by
  cases command with
  | shell command =>
      cases h
      apply controlFree_render_stringArray
      simp only [List.mem_cons, List.not_mem_nil, or_false, forall_eq_or_imp, forall_eq]
      exact ⟨by decide, controlFree_healthCommand command⟩
  | exec commands =>
      cases h
      apply controlFree_render_stringArray
      simp only [List.mem_cons, forall_eq_or_imp]
      exact ⟨by decide, fun value hvalue => controlFree_healthArgument hvalue⟩
  | sensitiveInlineShell | sensitiveInlineExec | externalShell | externalExec => cases h

theorem controlFree_healthDurationCli (nanoseconds : ℕ) :
    ControlFree (healthDurationCli nanoseconds) :=
  controlFree_append.mpr ⟨controlFree_repr _, by decide⟩

theorem controlFree_healthIntervalCli (interval : HealthInterval) :
    ControlFree (healthIntervalCli interval) := by
  cases interval with
  | disabled => exact (by decide : ControlFree "disable")
  | every duration => exact controlFree_healthDurationCli _

theorem unbroken_appendHealthArguments {health : ConfiguredHealthCheck}
    (harguments : Unbroken arguments) : Unbroken (appendHealthArguments arguments health) := by
  have hfailure (action : HealthOnFailure) : ControlFree action.asStr := by
    cases action <;> decide
  simp only [appendHealthArguments, unbroken_append]
  exact ⟨⟨⟨⟨⟨harguments, unbroken_flagArguments (by decide) _ controlFree_healthIntervalCli⟩,
    unbroken_flagArguments (by decide) _ fun _ => controlFree_healthDurationCli _⟩,
    unbroken_flagArguments (by decide) _ fun _ => controlFree_repr _⟩,
    unbroken_flagArguments (by decide) _ fun _ => controlFree_healthDurationCli _⟩,
    unbroken_flagArguments (by decide) _ hfailure⟩

theorem unbroken_appendHealthCheckArguments {health : Option HealthCheck}
    (h : appendHealthCheckArguments arguments identity health = .ok values)
    (harguments : Unbroken arguments) : Unbroken values := by
  cases health with
  | none =>
      cases h
      exact harguments
  | some health =>
      cases health with
      | disabled =>
          cases h
          exact unbroken_append.mpr ⟨harguments, by simp only [unbroken_cons, unbroken_nil]; decide⟩
      | command configured =>
          obtain ⟨command, hcommand, h⟩ := bind_eq_ok.mp h
          cases h
          apply unbroken_appendHealthArguments
          simp only [unbroken_append, unbroken_cons, unbroken_nil]
          exact ⟨harguments, by decide, controlFree_healthCommandCli hcommand, trivial⟩

theorem unbroken_appendStartupHealthArguments {startup : Option StartupHealthCheck}
    (h : appendStartupHealthArguments arguments identity startup = .ok values)
    (harguments : Unbroken arguments) : Unbroken values := by
  cases startup with
  | none =>
      cases h
      exact harguments
  | some startup =>
      obtain ⟨command, hcommand, h⟩ := bind_eq_ok.mp h
      cases h
      simp only [unbroken_append, unbroken_cons, unbroken_nil]
      exact ⟨⟨⟨⟨⟨harguments, by decide, controlFree_healthCommandCli hcommand, trivial⟩,
        unbroken_flagArguments (by decide) _ controlFree_healthIntervalCli⟩,
        unbroken_flagArguments (by decide) _ fun _ => controlFree_healthDurationCli _⟩,
        unbroken_flagArguments (by decide) _ fun _ => controlFree_repr _⟩,
        unbroken_flagArguments (by decide) _ fun _ => controlFree_repr _⟩

theorem controlFree_label (label : Label) : ControlFree (label.key.asStr ++ "=" ++ label.value.asStr) := by
  simp only [controlFree_append]
  exact ⟨⟨controlFree_of_isLabelKey label.key.accepted, by decide⟩,
    controlFree_of_validNonControl label.value.accepted⟩

theorem unbroken_appendLoggingArguments {logging : LoggingSettings}
    (h : appendLoggingArguments arguments logging identity version = .ok values)
    (harguments : Unbroken arguments) : Unbroken values := by
  rw [appendLoggingArguments] at h
  split_ifs at h with hrefused
  cases h
  have hdriver (driver : LogDriver) : ControlFree driver.asStr := by cases driver <;> decide
  simp only [unbroken_append]
  refine ⟨⟨⟨harguments, unbroken_flagArguments (by decide) _ hdriver⟩,
    unbroken_flagArguments (by decide) _ fun _ => ?_⟩, unbroken_repeated (by decide) fun label _ => ?_⟩
  · exact controlFree_append.mpr ⟨by decide, controlFree_repr _⟩
  · simp only [controlFree_append]
    exact ⟨⟨⟨by decide, controlFree_of_isLabelKey label.key.accepted⟩, by decide⟩,
      controlFree_of_validNonControl label.value.accepted⟩

theorem controlFree_boolText (value : Bool) : ControlFree (boolText value) := by
  cases value <;> decide

theorem unbroken_appendSecurityArguments (security : SecuritySettings)
    (harguments : Unbroken arguments) : Unbroken (appendSecurityArguments arguments security) := by
  have hbool {flag : String} (hflag : ControlFree flag) (value : Bool) :
      ControlFree (flag ++ boolText value) :=
    controlFree_append.mpr ⟨hflag, controlFree_boolText value⟩
  simp only [appendSecurityArguments, unbroken_append]
  exact ⟨⟨⟨⟨⟨⟨harguments, unbroken_map fun value _ => hbool (by decide) value⟩,
    unbroken_flagArguments (by decide) _ fun value => hbool (by decide) value⟩,
    unbroken_map fun value _ => hbool (by decide) value⟩,
    unbroken_map fun value _ => hbool (by decide) value⟩,
    unbroken_repeated (by decide) fun capability _ =>
      controlFree_of_isLinuxCapability capability.accepted⟩,
    unbroken_repeated (by decide) fun capability _ =>
      controlFree_of_isLinuxCapability capability.accepted⟩

theorem unbroken_appendNamespaceArguments (namespaces : ContainerNamespaceSettings)
    (harguments : Unbroken arguments) :
    Unbroken (appendNamespaceArguments arguments namespaces) := by
  have hmode (mode : NamespaceMode) : ControlFree mode.asStr := by cases mode <;> decide
  have hipc (mode : IpcNamespaceMode) : ControlFree mode.asStr := by cases mode <;> decide
  simp only [appendNamespaceArguments, unbroken_append]
  exact ⟨⟨⟨⟨harguments, unbroken_flagArguments (by decide) _ hmode⟩,
    unbroken_flagArguments (by decide) _ hipc⟩, unbroken_flagArguments (by decide) _ hmode⟩,
    unbroken_flagArguments (by decide) _ hmode⟩

theorem unbroken_appendResourceArguments {resources : ContainerResourceControls}
    (h : appendResourceArguments arguments resources identity version = .ok values)
    (harguments : Unbroken arguments) : Unbroken values := by
  rw [appendResourceArguments] at h
  split_ifs at h with hrefused
  cases h
  have hlimit (value : RlimitValue) : ControlFree (rlimitValueCli value) := by
    cases value with
    | finite value => exact controlFree_repr _
    | unlimited => exact (by decide : ControlFree "-1")
  simp only [unbroken_append]
  refine ⟨⟨⟨⟨⟨⟨harguments, ?_⟩, ?_⟩, ?_⟩, ?_⟩, ?_⟩, unbroken_repeated (by decide) fun rlimit _ => ?_⟩
  · exact unbroken_flagArguments (by decide) _ fun _ => controlFree_int_repr _
  · exact unbroken_flagArguments (by decide) _ fun _ => controlFree_int_repr _
  · exact unbroken_flagArguments (by decide) _ fun _ => controlFree_int_repr _
  · exact unbroken_flagArguments (by decide) _ fun _ => controlFree_int_repr _
  · exact unbroken_flagArguments (by decide) _ fun _ => controlFree_int_repr _
  · have hkind : ControlFree rlimit.kind.cliName := by cases rlimit.kind <;> decide
    simp only [rlimitCliValue, controlFree_append]
    exact ⟨⟨⟨⟨hkind, by decide⟩, hlimit _⟩, by decide⟩, hlimit _⟩

theorem unbroken_appendContainerRuntimeArguments {container : ContainerIntent}
    (h : appendContainerRuntimeArguments arguments container identity version = .ok values)
    (harguments : Unbroken arguments) : Unbroken values := by
  obtain ⟨health, hhealth, h⟩ := bind_eq_ok.mp h
  obtain ⟨startup, hstartup, h⟩ := bind_eq_ok.mp h
  obtain ⟨logging, hlogging, h⟩ := bind_eq_ok.mp h
  have hunbroken := unbroken_appendLoggingArguments hlogging <|
    unbroken_appendStartupHealthArguments hstartup <|
      unbroken_appendHealthCheckArguments hhealth harguments
  exact unbroken_appendResourceArguments h <|
    unbroken_appendNamespaceArguments _ <| unbroken_appendSecurityArguments _ hunbroken

end Runtime

section Settings

variable {policy : SensitiveInlineRenderPolicy} {identity : DeploymentResourceId}

theorem controlFree_authorizedEnvironmentValue {value : DeploymentEnvironmentValue} {text : String}
    (h : authorizedEnvironmentValue policy value = some text) : ControlFree text := by
  cases value with
  | «public» value =>
      cases h
      exact controlFree_of_validNonControl value.accepted
  | sensitiveInline value =>
      rw [authorizedEnvironmentValue] at h
      split_ifs at h with hpolicy
      cases h
      exact controlFree_of_validNonControl value.protectedValue.accepted
  | external reference => cases h

/-- Values reach an argument only where the policy authorizes them. -/
theorem controlFree_authorizedEnvironment {assignments : List EnvironmentAssignment}
    {environment : List (String × String)}
    (h : authorizedEnvironment policy assignments identity = .ok environment) :
    ∀ assignment ∈ environment, ControlFree assignment.1 ∧ ControlFree assignment.2 := by
  induction assignments generalizing environment with
  | nil =>
      cases h
      simp
  | cons assignment rest ih =>
      rw [authorizedEnvironment, List.mapM_cons] at h
      obtain ⟨first, hfirst, h⟩ := bind_eq_ok.mp h
      obtain ⟨others, hothers, h⟩ := bind_eq_ok.mp h
      cases h
      rw [List.forall_mem_cons]
      refine ⟨?_, ih hothers⟩
      cases hvalue : authorizedEnvironmentValue policy assignment.value with
      | none =>
          rw [hvalue] at hfirst
          cases hfirst
      | some text =>
          rw [hvalue] at hfirst
          cases hfirst
          exact ⟨controlFree_environmentName assignment.name,
            controlFree_authorizedEnvironmentValue hvalue⟩

theorem unbroken_appendContainerSettingArguments {arguments values : List String}
    {container : ContainerIntent}
    (h : appendContainerSettingArguments arguments container identity policy = .ok values)
    (harguments : Unbroken arguments) : Unbroken values := by
  obtain ⟨environment, henvironment, h⟩ := bind_eq_ok.mp h
  cases h
  have hrestart (restart : RestartPolicy) : ControlFree restart.asStr := by
    cases restart <;> decide
  simp only [unbroken_append]
  refine ⟨⟨⟨⟨⟨⟨⟨harguments, ?_⟩, ?_⟩, ?_⟩, ?_⟩, ?_⟩, ?_⟩, ?_⟩
  · exact unbroken_flagArguments (by decide) _ fun entrypoint =>
      controlFree_render_stringArray fun value hvalue => controlFree_argument hvalue
  · exact unbroken_flagArguments (by decide) _ controlFree_containerUser
  · exact unbroken_flagArguments (by decide) _ controlFree_path
  · exact unbroken_flagArguments (by decide) _ controlFree_containerHostname
  · exact unbroken_repeated (by decide) fun label _ => controlFree_label label
  · refine unbroken_repeated (by decide) fun assignment hassignment => ?_
    obtain ⟨hname, hvalue⟩ := controlFree_authorizedEnvironment henvironment assignment hassignment
    simp only [controlFree_append]
    exact ⟨⟨hname, by decide⟩, hvalue⟩
  · exact unbroken_flagArguments (by decide) _ hrestart

end Settings

section Operations

variable {operation : DeploymentOperation} {version : String} {policy : SensitiveInlineRenderPolicy}
  {forms : RenderedForms} {id : DeploymentResourceId}

theorem unbroken_renderPodCreate {pod : PodIntent} (h : renderPodCreate pod id version = .ok forms) :
    Unbroken forms.cliSuffix := by
  obtain ⟨networks, hnetworks, h⟩ := bind_eq_ok.mp h
  cases h
  apply unbroken_appendHostAliasArguments
  apply unbroken_appendDnsArguments
  apply unbroken_appendPortArguments
  apply unbroken_appendNetworkArguments (orUnsupported_eq_ok.mp hnetworks)
  simp only [unbroken_cons, unbroken_nil]
  exact ⟨by decide, by decide, by decide, pod.identity.val.controlFree_name, trivial⟩

theorem unbroken_renderContainerNetworking {container : ContainerIntent} {image : String}
    {cliSuffix : List String} {rendered : List String × Json.Members}
    (h : renderContainerNetworking container id image cliSuffix = .ok rendered)
    (hsuffix : Unbroken cliSuffix) : Unbroken rendered.1 := by
  rw [renderContainerNetworking] at h
  cases hpod : container.pod with
  | some pod =>
      rw [hpod] at h
      cases h
      simp only [unbroken_append, unbroken_cons, unbroken_nil]
      exact ⟨hsuffix, by decide, pod.val.controlFree_name, trivial⟩
  | none =>
      rw [hpod] at h
      obtain ⟨networks, hnetworks, h⟩ := bind_eq_ok.mp h
      cases h
      apply unbroken_appendHostAliasArguments
      apply unbroken_appendDnsArguments
      apply unbroken_appendPortArguments
      exact unbroken_appendNetworkArguments (orUnsupported_eq_ok.mp hnetworks) hsuffix

/-- The sources of the images that the plan itself pulls. -/
def ManagedImageSources.Unbroken (sources : ManagedImageSources) : Prop :=
  ∀ (image : DeploymentResourceId) (source : String),
    sources[image]? = some source → ControlFree source

theorem controlFree_imageName {sources : ManagedImageSources} (hsources : sources.Unbroken)
    (image : DeploymentResourceId) : ControlFree ((sources[image]?).getD image.name) := by
  cases hget : sources[image]? with
  | none => exact image.controlFree_name
  | some source => exact hsources image source hget

theorem unbroken_renderContainerCreate {container : ContainerIntent} {sources : ManagedImageSources}
    (hsources : sources.Unbroken)
    (h : renderContainerCreate container id version sources policy = .ok forms) :
    Unbroken forms.cliSuffix := by
  obtain ⟨⟨networking, body⟩, hnetworking, h⟩ := bind_eq_ok.mp h
  obtain ⟨mounts, hmounts, h⟩ := bind_eq_ok.mp h
  obtain ⟨grants, hgrants, h⟩ := bind_eq_ok.mp h
  obtain ⟨settings, hsettings, h⟩ := bind_eq_ok.mp h
  obtain ⟨runtime, hruntime, h⟩ := bind_eq_ok.mp h
  obtain ⟨_, -, h⟩ := bind_eq_ok.mp h
  obtain ⟨_, -, h⟩ := bind_eq_ok.mp h
  cases h
  have hnetworking := unbroken_renderContainerNetworking hnetworking <| by
    simp only [unbroken_cons, unbroken_nil]
    exact ⟨by decide, by decide, by decide, container.identity.val.controlFree_name, by decide,
      trivial⟩
  have hmounts := unbroken_appendMountArguments (orUnsupported_eq_ok.mp hmounts) hnetworking
  have hgrants := unbroken_appendSecretGrantsArguments (orUnsupported_eq_ok.mp hgrants) hmounts
  have hsettings := unbroken_appendContainerSettingArguments hsettings hgrants
  have hruntime := unbroken_appendContainerRuntimeArguments hruntime hsettings
  have hcommand : Unbroken ((container.settings.command.map ArgumentArray.values).getD []) := by
    cases container.settings.command with
    | none => exact unbroken_nil
    | some command => exact fun value hvalue => controlFree_argument hvalue
  simp only [unbroken_append, unbroken_cons, unbroken_nil]
  exact ⟨⟨hruntime, controlFree_imageName hsources _, trivial⟩, hcommand⟩

/-- No argument of a rendered operation breaks its line. -/
theorem unbroken_renderForms {sources : ManagedImageSources} (hsources : sources.Unbroken)
    (h : renderForms operation version sources policy = .ok forms) : Unbroken forms.cliSuffix := by
  rw [renderForms] at h
  cases hresource : operation.resourceIntent with
  | externalPrecondition precondition =>
      rw [hresource] at h
      cases h
  | network network =>
      rw [hresource] at h
      cases h
      exact unbroken_networkCreate network
  | volume volume =>
      rw [hresource] at h
      cases h
      exact unbroken_volumeCreate volume
  | secret secret =>
      rw [hresource] at h
      cases h
      simp only [unbroken_cons, unbroken_nil]
      exact ⟨by decide, by decide, secret.identity.val.controlFree_name, by decide, trivial⟩
  | image image =>
      rw [hresource] at h
      cases h
      have hpolicy : ControlFree image.pullPolicy.asStr := by cases image.pullPolicy <;> decide
      simp only [unbroken_cons, unbroken_nil, controlFree_append]
      exact ⟨by decide, by decide, ⟨by decide, hpolicy⟩, image.source.controlFree_asStr, trivial⟩
  | pod pod =>
      rw [hresource] at h
      dsimp only at h
      split_ifs at h with hstart
      · cases h
        simp only [unbroken_cons, unbroken_nil]
        exact ⟨by decide, by decide, pod.identity.val.controlFree_name, trivial⟩
      · exact unbroken_renderPodCreate h
  | container container =>
      rw [hresource] at h
      dsimp only at h
      split_ifs at h with hstart
      · cases h
        simp only [unbroken_cons, unbroken_nil]
        exact ⟨by decide, by decide, container.identity.val.controlFree_name, trivial⟩
      · exact unbroken_renderContainerCreate hsources h

end Operations

end PodmanLens
