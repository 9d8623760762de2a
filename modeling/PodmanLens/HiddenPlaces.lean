import PodmanLens.HiddenValues

/-!
# Hidden places of a container

Where two inspect responses about a container may differ without a difference in the snapshot. The
configuration and the controls are read as alike; what else is read of a container is the same, for
its readers look at other members.
-/

namespace PodmanLens
open Std Json Coupling

/-- The members of a container configuration whose values the snapshot hides. -/
def hiddenConfigPlaces : Places :=
  [("Labels", TextsAlike), ("Env", ArraysAlike EntriesAlike), ("Cmd", ArraysAlike StringsAlike),
    ("Entrypoint", ArraysAlike StringsAlike), ("User", StringsAlike), ("WorkingDir", StringsAlike),
    ("Hostname", StringsAlike), ("Healthcheck", ObjectsAlike (ExceptAt [("Test", CommandsAlike)])),
    ("StartupHealthCheck", ObjectsAlike (ExceptAt [("Test", CommandsAlike)]))]

def hiddenHostPlaces : Places := [("SecurityOpt", ArraysAlike StringsAlike)]

def hiddenContainerPlaces : Places :=
  [("Config", ObjectsAlike (ExceptAt hiddenConfigPlaces)),
    ("HostConfig", ObjectsAlike (ExceptAt hiddenHostPlaces))]

section Configuration
variable {identity : ResourceIdentity} {options : AcquisitionOptions} {object object' : Members}

/-- Configurations that the snapshot does not tell apart. -/
structure ConfigurationsAlike (decoded decoded' : ContainerConfigurationDecoded) : Prop where
  labels : Snapshot.labelSummary decoded.labels = Snapshot.labelSummary decoded'.labels
  environment : Snapshot.environment decoded.environment = Snapshot.environment decoded'.environment
  command : Snapshot.collectionSummary decoded.command List.length =
    Snapshot.collectionSummary decoded'.command List.length
  entrypoint : Snapshot.collectionSummary decoded.entrypoint List.length =
    Snapshot.collectionSummary decoded'.entrypoint List.length
  user : Snapshot.fieldSummary decoded.user = Snapshot.fieldSummary decoded'.user
  workingDirectory : Snapshot.fieldSummary decoded.workingDirectory =
    Snapshot.fieldSummary decoded'.workingDirectory
  hostname : Snapshot.fieldSummary decoded.hostname = Snapshot.fieldSummary decoded'.hostname

theorem ConfigurationsAlike.refl (decoded : ContainerConfigurationDecoded) :
    ConfigurationsAlike decoded decoded := ⟨rfl, rfl, rfl, rfl, rfl, rfl, rfl⟩

/-- As many labels as there are different keys. -/
theorem size_labelsOf {pairs pairs' : List (String × String)}
    (h : pairs.map Prod.fst = pairs'.map Prod.fst) :
    (labelsOf pairs).size = (labelsOf pairs').size := by
  have hmem : ∀ name, name ∈ labelsOf pairs ↔ name ∈ labelsOf pairs' := by
    intro name
    rw [labelsOf, labelsOf, ExtTreeMap.mem_ofList, ExtTreeMap.mem_ofList, h]
  have hkeys : (labelsOf pairs).keys.Perm (labelsOf pairs').keys := by
    rw [List.perm_ext_iff_of_nodup]
    · intro name
      rw [ExtTreeMap.mem_keys, ExtTreeMap.mem_keys, hmem]
    · exact ExtTreeMap.nodup_keys
    · exact ExtTreeMap.nodup_keys
  rw [← ExtTreeMap.length_keys, ← ExtTreeMap.length_keys, hkeys.length_eq]

theorem coupled_decodeLabels {value value' : Option Value} {path : String}
    (h : OptionsAlike TextsAlike value value') :
    Coupled (fun labels labels' => Snapshot.labelSummary labels = Snapshot.labelSummary labels')
      (decodeLabels identity value path) (decodeLabels identity value' path) := by
  refine (coupled_stringMapField ?_ h).mono fun _ _ hlabels => hlabels.collectionSummary_eq
  exact fun pairs pairs' hkeys => size_labelsOf hkeys

theorem environment_eq {field field' : ObservationField ProtectedEnvironment}
    (h : FieldsAlike (List.Forall₂ fun entry entry' =>
      Snapshot.environmentEntry entry = Snapshot.environmentEntry entry') field field') :
    Snapshot.environment field = Snapshot.environment field' := by
  cases h with
  | same => rfl
  | observed origin h =>
      exact congrArg (Snapshot.ProtectedEnvironmentSnapshot.mk _)
        (Returning.map_eq_map_of_forall₂ h)

theorem coupled_environment {policy : EnvironmentValuePolicy} {value value' : Option Value}
    {path : String} (h : OptionsAlike (ArraysAlike EntriesAlike) value value') :
    Coupled (fun field field' => Snapshot.environment field = Snapshot.environment field')
      (decodeEnvironment identity policy value path)
      (decodeEnvironment identity policy value' path) := by
  have hentry : ∀ name left right,
      Snapshot.environmentEntry ⟨name, protectedEnvironmentValue policy left⟩ =
        Snapshot.environmentEntry ⟨name, protectedEnvironmentValue policy right⟩ := by
    intro name left right
    cases policy <;> rfl
  have hfields : Coupled (FieldsAlike (List.Forall₂ fun entry entry' =>
      Snapshot.environmentEntry entry = Snapshot.environmentEntry entry'))
      (decodeEnvironment identity policy value path)
      (decodeEnvironment identity policy value' path) :=
    coupled_decodeEnvironment (fun _ => rfl) hentry h
  exact hfields.mono fun _ _ => environment_eq

theorem coupled_decodeContainerConfiguration
    (h : OptionsAlike (ObjectsAlike (ExceptAt hiddenConfigPlaces)) (lookup object "Config")
      (lookup object' "Config")) :
    Coupled ConfigurationsAlike (decodeContainerConfiguration identity object options)
      (decodeContainerConfiguration identity object' options) := by
  rw [decodeContainerConfiguration, decodeContainerConfiguration]
  rcases optionsAlike_objects h with heq | ⟨config, config', heq, heq', hconfig⟩
  · rw [heq]
    exact .refl .refl _
  · rw [heq, heq']
    refine (coupled_decodeLabels (hconfig.lookup_place rfl)).bind fun _ _ hlabels => ?_
    refine (coupled_environment (hconfig.lookup_place rfl)).bind fun _ _ henvironment => ?_
    refine (coupled_decodeConfiguredArguments (hconfig.lookup_place rfl)).bind
      fun _ _ hcommand => ?_
    refine (coupled_decodeConfiguredEntrypoint (hconfig.lookup_place rfl)).bind
      fun _ _ hentrypoint => ?_
    refine (coupled_decodeConfiguredText (hconfig.lookup_place rfl)).bind fun _ _ huser => ?_
    refine (coupled_decodeConfiguredText (hconfig.lookup_place rfl)).bind fun _ _ hdirectory => ?_
    refine (coupled_decodeConfiguredText (hconfig.lookup_place rfl)).bind fun _ _ hhostname => ?_
    exact .pure ⟨hlabels, henvironment, hcommand.collectionSummary_eq,
      hentrypoint.collectionSummary_eq, huser.fieldSummary_eq, hdirectory.fieldSummary_eq,
      hhostname.fieldSummary_eq⟩

end Configuration

section Controls
variable {identity : ResourceIdentity} {object object' : Members} {path : String}

/-- Controls that the snapshot does not tell apart: only the words of health commands differ. -/
structure ControlsAlike (decoded decoded' : ContainerB3Decoded) : Prop where
  healthCheck : Snapshot.nativeHealthCheck decoded.healthCheck =
    Snapshot.nativeHealthCheck decoded'.healthCheck
  startupHealthCheck : Snapshot.nativeStartupHealthCheck decoded.startupHealthCheck =
    Snapshot.nativeStartupHealthCheck decoded'.startupHealthCheck
  healthFailureAction : decoded.healthFailureAction = decoded'.healthFailureAction
  restartPolicy : decoded.restartPolicy = decoded'.restartPolicy
  logging : decoded.logging = decoded'.logging
  security : decoded.security = decoded'.security
  namespaces : decoded.namespaces = decoded'.namespaces
  resourceControls : decoded.resourceControls = decoded'.resourceControls

theorem coupled_nativeHealthCommand {value value' : Option Value}
    (h : OptionsAlike CommandsAlike value value') :
    Coupled (FieldsAlike fun command command' =>
        Snapshot.healthCommandCount command = Snapshot.healthCommandCount command')
      (nativeHealthCommand identity value path) (nativeHealthCommand identity value' path) := by
  cases h with
  | none => exact .refl .same _
  | some h =>
      cases h with
      | same found => exact .refl .same _
      | @array first rest rest' h =>
          have hfirst : StringsAlike first first := .same first
          simp only [nativeHealthCommand, supplied, List.mapM_cons]
          cases first.asStr with
          | none => exact .refl .same _
          | some word =>
              have hwords := words_alike h
              generalize rest.mapM Value.asStr = words, rest'.mapM Value.asStr = words' at hwords ⊢
              cases hwords with
              | none => exact .refl .same _
              | @some words words' hlength =>
                  have hcommand := healthCommandFromWords_alike word hlength
                  simp only [Option.pure_def, Option.bind_eq_bind, Option.bind_some]
                  generalize healthCommandFromWords (word :: words) = command,
                    healthCommandFromWords (word :: words') = command' at hcommand ⊢
                  cases hcommand with
                  | none =>
                      refine coupled_noted.mpr ⟨rfl, ?_⟩
                      exact .same _
                  | @some command command' hcount =>
                      cases command with
                      | error _ =>
                          cases command' with
                          | error _ => exact .refl .same _
                          | ok _ => cases hcount
                      | ok command =>
                          cases command' with
                          | error _ => cases hcount
                          | ok command' =>
                              exact .pure (.observed .effective (Except.ok.inj hcount))

theorem coupled_objectField {α : Type} {alike : String → Value → Value → Prop}
    {same : α → α → Prop} {reader : Members → Decoder α} {value value' : Option Value}
    (hreader : ∀ members members', MembersAlike alike members members' →
      Coupled same (reader members) (reader members'))
    (h : OptionsAlike (ObjectsAlike alike) value value') :
    Coupled (FieldsAlike same) (objectField identity reader value path)
      (objectField identity reader value' path) := by
  rcases optionsAlike_objects h with rfl | ⟨members, members', rfl, rfl, hmembers⟩
  · exact .refl .same _
  · exact (hreader members members' hmembers).bind fun _ _ hsame => .pure (.observed _ hsame)

theorem coupled_nativeHealthMembers {check check' : Members}
    (h : MembersAlike (ExceptAt [("Test", CommandsAlike)]) check check') :
    Coupled (fun members members' => Snapshot.healthMembers members = Snapshot.healthMembers members')
      (nativeHealthMembers identity check path) (nativeHealthMembers identity check' path) := by
  have hsame : ∀ key, key ≠ "Test" → lookup check key = lookup check' key := by
    intro key hkey
    exact h.lookup_same (by simpa using hkey)
  rw [nativeHealthMembers, nativeHealthMembers, hsame "Interval" (by decide),
    hsame "Timeout" (by decide), hsame "Retries" (by decide), hsame "StartPeriod" (by decide)]
  refine (coupled_nativeHealthCommand (h.lookup_place rfl)).bind fun command command' hcommand => ?_
  refine .bind_same fun interval => .bind_same fun timeout => .bind_same fun retries =>
    .bind_same fun startPeriod => .pure ?_
  rw [Snapshot.healthMembers, Snapshot.healthMembers, hcommand.collectionSummary_eq]

theorem nativeHealthCheck_eq {field field' : ObservationField NativeHealthCheckObservation}
    (h : FieldsAlike (fun members members' =>
      Snapshot.healthMembers members = Snapshot.healthMembers members') field field') :
    Snapshot.nativeHealthCheck field = Snapshot.nativeHealthCheck field' := by
  cases h with
  | same => rfl
  | observed origin h => exact h

theorem coupled_decodeNativeStartupHealthCheck {value value' : Option Value}
    (h : OptionsAlike (ObjectsAlike (ExceptAt [("Test", CommandsAlike)])) value value') :
    Coupled (fun field field' => Snapshot.nativeStartupHealthCheck field =
        Snapshot.nativeStartupHealthCheck field')
      (decodeNativeStartupHealthCheck identity value)
      (decodeNativeStartupHealthCheck identity value') := by
  have hfields : Coupled (FieldsAlike fun check check' : NativeStartupHealthCheckObservation =>
      (Snapshot.NativeStartupHealthCheckSnapshot.mk
          (Snapshot.healthMembers check.toNativeHealthCheckObservation)
          (Snapshot.fieldSummary check.successes)) =
        ⟨Snapshot.healthMembers check'.toNativeHealthCheckObservation,
          Snapshot.fieldSummary check'.successes⟩)
      (decodeNativeStartupHealthCheck identity value)
      (decodeNativeStartupHealthCheck identity value') := by
    refine coupled_objectField (fun check check' hcheck => ?_) h
    rw [hcheck.lookup_same (by decide : "Successes" ∉ _)]
    refine (coupled_nativeHealthMembers hcheck).bind fun members members' hmembers => ?_
    refine .bind_same fun successes => .pure ?_
    exact congrArg (Snapshot.NativeStartupHealthCheckSnapshot.mk · _) hmembers
  refine hfields.mono fun field field' hfield => ?_
  cases hfield with
  | same => rfl
  | observed origin hfield => exact hfield

theorem coupled_configField {α : Type} {alike : String → Value → Value → Prop}
    {same : ObservationField α → ObservationField α → Prop} (hrefl : ∀ field, same field field)
    {config config' : Option Value} {reader : Members → Decoder (ObservationField α)}
    (hreader : ∀ members members', MembersAlike alike members members' →
      Coupled same (reader members) (reader members'))
    (h : OptionsAlike (ObjectsAlike alike) config config') :
    Coupled same (configField identity config path reader)
      (configField identity config' path reader) := by
  rcases optionsAlike_objects h with rfl | ⟨members, members', rfl, rfl, hmembers⟩
  · exact .refl hrefl _
  · exact hreader members members' hmembers

/-- Readers of other members read the same. -/
theorem configField_eq {α : Type} {alike : String → Value → Value → Prop}
    {config config' : Option Value} {reader : Members → Decoder (ObservationField α)}
    (hreader : ∀ members members', MembersAlike alike members members' →
      reader members = reader members')
    (h : OptionsAlike (ObjectsAlike alike) config config') :
    configField identity config path reader = configField identity config' path reader :=
  (coupled_configField (fun _ => rfl) (fun _ _ hmembers => .of_eq (hreader _ _ hmembers)) h).eq

theorem observedMembers_eq {α : Type} {alike : String → Value → Value → Prop}
    {reader : Members → Decoder α}
    (hreader : ∀ members members', MembersAlike alike members members' →
      reader members = reader members') (members members' : Members)
    (h : MembersAlike alike members members') :
    observedMembers reader members = observedMembers reader members' := by
  rw [observedMembers, observedMembers, hreader members members' h]

theorem nativeSecurityOptions_eq {value value' : Option Value}
    (h : OptionsAlike (ArraysAlike StringsAlike) value value') :
    nativeSecurityOptions identity value = nativeSecurityOptions identity value' := by
  rcases optionsAlike_arrays h with rfl | ⟨values, values', rfl, rfl, hvalues⟩
  · rfl
  · have hindex : values.findIdx? (fun value => value.asStr.isNone) =
        values'.findIdx? fun value => value.asStr.isNone := by
      induction hvalues with
      | nil => rfl
      | @cons value value' values values' hvalue hvalues ih =>
          have hnone : value.asStr.isNone = value'.asStr.isNone := by
            generalize value.asStr = text, value'.asStr = text', asStr_alike hvalue = halike
            cases halike <;> rfl
          rw [List.findIdx?_cons, List.findIdx?_cons, hnone, ih (.some (.array hvalues))]
    simp only [nativeSecurityOptions, supplied, hindex, hvalues.length_eq]

section HostConfigs
variable {hostConfig hostConfig' : Members}
  (h : MembersAlike (ExceptAt hiddenHostPlaces) hostConfig hostConfig')
include h

theorem decodeNativeSecurity_eq :
    decodeNativeSecurity identity hostConfig = decodeNativeSecurity identity hostConfig' := by
  rw [decodeNativeSecurity, decodeNativeSecurity, h.lookup_same (by decide : "Privileged" ∉ _),
    h.lookup_same (by decide : "CapAdd" ∉ _), h.lookup_same (by decide : "CapDrop" ∉ _),
    h.lookup_same (by decide : "ReadonlyRootfs" ∉ _), nativeSecurityOptions_eq (h.lookup_place rfl)]

theorem decodeNativeNamespaces_eq :
    decodeNativeNamespaces identity hostConfig = decodeNativeNamespaces identity hostConfig' := by
  rw [decodeNativeNamespaces, decodeNativeNamespaces, h.lookup_same (by decide : "PidMode" ∉ _),
    h.lookup_same (by decide : "IpcMode" ∉ _), h.lookup_same (by decide : "UTSMode" ∉ _),
    h.lookup_same (by decide : "CgroupMode" ∉ _)]

theorem decodeNativeResourceControls_eq : decodeNativeResourceControls identity hostConfig =
    decodeNativeResourceControls identity hostConfig' := by
  rw [decodeNativeResourceControls, decodeNativeResourceControls,
    h.lookup_same (by decide : "CpuShares" ∉ _), h.lookup_same (by decide : "CpuPeriod" ∉ _),
    h.lookup_same (by decide : "CpuQuota" ∉ _), h.lookup_same (by decide : "Memory" ∉ _),
    h.lookup_same (by decide : "PidsLimit" ∉ _), h.lookup_same (by decide : "Ulimits" ∉ _)]

end HostConfigs

theorem coupled_healthCheck
    (h : OptionsAlike (ObjectsAlike (ExceptAt hiddenConfigPlaces)) (lookup object "Config")
      (lookup object' "Config")) :
    Coupled (fun field field' => Snapshot.nativeHealthCheck field =
        Snapshot.nativeHealthCheck field')
      (fromConfig identity object fun config =>
        decodeNativeHealthCheck identity (lookup config "Healthcheck") path)
      (fromConfig identity object' fun config =>
        decodeNativeHealthCheck identity (lookup config "Healthcheck") path) := by
  refine coupled_configField ?_ (fun config config' hconfig => ?_) h
  · exact fun _ => rfl
  have hcheck : OptionsAlike (ObjectsAlike (ExceptAt [("Test", CommandsAlike)]))
      (lookup config "Healthcheck") (lookup config' "Healthcheck") := hconfig.lookup_place rfl
  exact (coupled_objectField (fun _ _ => coupled_nativeHealthMembers) hcheck).mono
    fun _ _ => nativeHealthCheck_eq

theorem coupled_startupHealthCheck
    (h : OptionsAlike (ObjectsAlike (ExceptAt hiddenConfigPlaces)) (lookup object "Config")
      (lookup object' "Config")) :
    Coupled (fun field field' => Snapshot.nativeStartupHealthCheck field =
        Snapshot.nativeStartupHealthCheck field')
      (fromConfig identity object fun config =>
        decodeNativeStartupHealthCheck identity (lookup config "StartupHealthCheck"))
      (fromConfig identity object' fun config =>
        decodeNativeStartupHealthCheck identity (lookup config "StartupHealthCheck")) := by
  refine coupled_configField ?_ (fun config config' hconfig => ?_) h
  · exact fun _ => rfl
  exact coupled_decodeNativeStartupHealthCheck (hconfig.lookup_place rfl)

theorem coupled_decodeContainerB3
    (hconfig : OptionsAlike (ObjectsAlike (ExceptAt hiddenConfigPlaces)) (lookup object "Config")
      (lookup object' "Config"))
    (hhost : OptionsAlike (ObjectsAlike (ExceptAt hiddenHostPlaces)) (lookup object "HostConfig")
      (lookup object' "HostConfig")) :
    Coupled ControlsAlike (decodeContainerB3 identity object)
      (decodeContainerB3 identity object') := by
  have hfailure : ∀ members members', MembersAlike (ExceptAt hiddenConfigPlaces) members members' →
      decodeNativeHealthFailureAction identity (lookup members "HealthcheckOnFailureAction") =
        decodeNativeHealthFailureAction identity
          (lookup members' "HealthcheckOnFailureAction") := by
    intro members members' h
    rw [h.lookup_same (by decide)]
  have hrestart : ∀ members members', MembersAlike (ExceptAt hiddenHostPlaces) members members' →
      decodeNativeRestartPolicy identity (lookup members "RestartPolicy") =
        decodeNativeRestartPolicy identity (lookup members' "RestartPolicy") := by
    intro members members' h
    rw [h.lookup_same (by decide)]
  have hlogging : ∀ members members', MembersAlike (ExceptAt hiddenHostPlaces) members members' →
      decodeNativeLogging identity (lookup members "LogConfig") =
        decodeNativeLogging identity (lookup members' "LogConfig") := by
    intro members members' h
    rw [h.lookup_same (by decide)]
  refine (coupled_healthCheck hconfig).bind fun healthCheck healthCheck' hhealth => ?_
  rw [fromConfig, configField_eq hfailure hconfig]
  refine .bind_same fun healthFailureAction => ?_
  refine (coupled_startupHealthCheck hconfig).bind fun startup startup' hstartup => ?_
  simp only [fromHostConfig, configField_eq hrestart hhost, configField_eq hlogging hhost,
    configField_eq (observedMembers_eq fun _ _ => decodeNativeSecurity_eq) hhost,
    configField_eq (observedMembers_eq fun _ _ => decodeNativeNamespaces_eq) hhost,
    configField_eq (observedMembers_eq fun _ _ => decodeNativeResourceControls_eq) hhost]
  refine .bind_same fun restartPolicy => .bind_same fun logging => .bind_same fun security =>
    .bind_same fun namespaces => .bind_same fun resourceControls => .pure ?_
  exact ⟨hhealth, hstartup, rfl, rfl, rfl, rfl, rfl, rfl⟩

end Controls

end PodmanLens
