import PodmanLens.UnmodelledStates

/-!
# The members of containers and pods

References, mounts, secret grants, the configuration, the creation evidence and the networking of a
container or pod. Of all these only host entries can be unmodelled, so each reader has one lemma for
any set of retained descriptors, and that of the networking asks for one of the host entries.
-/

namespace PodmanLens
open Json Net Text

section References
variable {retains : UnmodelledFieldId → String → Prop} {identity : ResourceIdentity}
  {object : Members} {value : Option Value} {path place : String}

theorem accounted_relationshipField (relationships : List NativeRelationship)
    (decoding : RelationshipDecoding) :
    AccountedFor retains ((relationshipField relationships decoding).memberAt place) := by
  refine accounted_of_ne fun id => ?_
  rw [relationshipField]
  split_ifs
  · intro h
    cases h
  · intro h
    cases h
  · intro h
    cases h

theorem accounted_decodeNativeReference :
    AccountedFor retains ((decodeNativeReference identity value path).value.memberAt place) := by
  refine accounted_of_ne fun id => ?_
  rw [decodeNativeReference, Noted.value_bind, Noted.value_pure]
  split
  · intro h
    cases h
  · intro h
    cases h
  · intro h
    cases h

theorem dependencyReferences_ne_unmodelled (entries : List (Value × ℕ)) (id : UnmodelledFieldId) :
    (dependencyReferences identity entries).value ≠ .unmodelled id := by
  induction entries with
  | nil =>
      intro h
      cases h
  | cons entry rest ih =>
      rw [dependencyReferences, Noted.value_bind]
      split
      · rw [Noted.value_bind, Noted.value_pure]
        split
        · intro h
          cases h
        · exact ih
      · intro h
        cases h

theorem accounted_decodeNativeDependencies :
    AccountedFor retains ((decodeNativeDependencies identity value).value.memberAt place) := by
  refine accounted_of_ne fun id => ?_
  rw [decodeNativeDependencies]
  split
  · intro h
    cases h
  · exact dependencyReferences_ne_unmodelled _ id
  · intro h
    cases h

theorem accounted_decodeMountSelinuxRelabel (mount : Members) (source : ContainerMountSource)
    (destination : ObservationField String)
    (bindRelabels : Except Unit (List NativeBindSelinuxRelabel)) :
    AccountedFor retains ((decodeMountSelinuxRelabel identity mount path source destination
      bindRelabels).value.memberAt place) := by
  refine accounted_of_ne fun id => ?_
  unfold decodeMountSelinuxRelabel
  split
  · exact nofun
  · exact nofun
  · split
    · split_ifs
      · exact nofun
      · exact nofun
    · exact nofun
    · exact nofun
    · exact nofun

/-- The path of a named volume on the host is read as a single text; a bind mount has none. -/
theorem accounted_mountedSource {kind : ContainerMountKind} {mount : Members}
    {source : ContainerMountSource} {backing : ObservationField String}
    (h : (mountedSource identity kind mount path).value = some (source, backing)) :
    AccountedFor retains (backing.memberAt place) := by
  cases kind with
  | namedVolume =>
      rw [mountedSource, Noted.value_bind] at h
      split at h
      · cases h
      · cases h
        exact accounted_scalarField _
  | bind =>
      rw [mountedSource, Noted.value_bind, Noted.value_pure, Option.map_eq_some_iff] at h
      obtain ⟨found, -, hfound⟩ := h
      cases hfound
      exact accounted_of_ne fun _ h => (by cases h)

theorem accounted_mountStates {relabels : Except Unit (List NativeBindSelinuxRelabel)}
    {kind : ContainerMountKind} {mount : Members} {source : ContainerMountSource}
    {destination backing : ObservationField String} {decoded : ContainerMountObservation}
    (hdestination : AccountedFor retains (destination.memberAt (place ++ ".Destination")))
    (hbacking : AccountedFor retains (backing.memberAt (place ++ ".Source")))
    (h : (mountMembers identity relabels kind mount path destination source backing).value =
      some decoded) : AccountedFor retains (mountStates place decoded) := by
  simp only [mountMembers, Noted.value_bind, Noted.value_pure] at h
  obtain ⟨-, h⟩ := Option.ite_none_left_eq_some.mp h
  cases h
  simp only [mountStates, accounted_append]
  refine ⟨⟨⟨⟨⟨⟨⟨?_, hbacking⟩, hdestination⟩, ?_⟩, ?_⟩, ?_⟩, ?_⟩, ?_⟩
  · exact accounted_of_ne fun _ h => (by cases h)
  · exact accounted_scalarField _
  · exact accounted_scalarField _
  · exact accounted_decodeMountSelinuxRelabel _ _ _ _
  · exact accounted_scalarField _
  · exact accounted_scalarField _

theorem accounted_containerMount {relabels : Except Unit (List NativeBindSelinuxRelabel)}
    {entry : Value × ℕ} {decoded : ContainerMountObservation}
    (h : (containerMount identity relabels entry).value = some decoded) :
    AccountedFor retains (mountStates place decoded) := by
  rw [containerMount] at h
  split at h
  · cases h
  · simp only at h
    split at h
    · cases h
    · simp only [Noted.value_bind] at h
      split at h
      · cases h
      · next source backing hsource =>
          exact accounted_mountStates (accounted_scalarField _) (accounted_mountedSource hsource) h

theorem accounted_mounts :
    AccountedFor retains ((decodeContainerMounts identity object).value.field.membersAt "$.Mounts"
      (elementStates "$.Mounts" mountStates)) := by
  rw [decodeContainerMounts, Noted.value_bind]
  split
  · exact accounted_absent
  · rw [Noted.value_bind, Noted.value_pure, Noted.value_mapM]
    refine accounted_elementsField fun index decoded hdecoded => ?_
    rw [List.getElem?_map, Option.map_eq_some_iff] at hdecoded
    obtain ⟨entry, -, hentry⟩ := hdecoded
    exact accounted_containerMount hentry
  · exact accounted_malformed

theorem accounted_containerSecretGrant {entry : Value × ℕ}
    {decoded : ContainerSecretGrantObservation}
    (h : (containerSecretGrant identity entry).value = some decoded) :
    AccountedFor retains (secretGrantStates place decoded) := by
  rw [containerSecretGrant] at h
  split at h
  · cases h
  · rw [Noted.value_bind, Noted.value_bind] at h
    split at h
    all_goals
      simp only [Noted.value_bind, Noted.value_pure] at h
      obtain ⟨-, h⟩ := Option.ite_none_left_eq_some.mp h
      cases h
      simp only [secretGrantStates, accounted_append]
      refine ⟨⟨⟨accounted_of_ne fun _ h => (by cases h), ?_⟩, ?_⟩, ?_⟩
      · exact accounted_scalarField _
      · exact accounted_scalarField _
      · exact accounted_scalarField _

theorem accounted_secretGrants :
    AccountedFor retains ((decodeContainerSecretGrants identity value).value.field.membersAt
      "$.Config.Secrets" (elementStates "$.Config.Secrets" secretGrantStates)) := by
  rw [decodeContainerSecretGrants]
  split
  · exact accounted_absent
  · split
    · exact accounted_absent
    · rw [Noted.value_bind, Noted.value_pure, Noted.value_mapM]
      refine accounted_elementsField fun index decoded hdecoded => ?_
      rw [List.getElem?_map, Option.map_eq_some_iff] at hdecoded
      obtain ⟨entry, -, hentry⟩ := hdecoded
      exact accounted_containerSecretGrant hentry
    · exact accounted_malformed
  · exact accounted_malformed

end References

section Configuration
variable {retains : UnmodelledFieldId → String → Prop} {identity : ResourceIdentity}
  {object : Members} {value : Option Value} {path place : String}

theorem accounted_decodeEnvironment {policy : EnvironmentValuePolicy} :
    AccountedFor retains ((decodeEnvironment identity policy value path).value.memberAt place) := by
  refine accounted_of_ne fun id => ?_
  rw [decodeEnvironment]
  split
  · exact nofun
  · exact elementsField_ne_unmodelled _ id
  · exact nofun

theorem accounted_decodeConfiguredArguments :
    AccountedFor retains ((decodeConfiguredArguments identity value path).value.memberAt place) := by
  refine accounted_of_ne fun id => ?_
  unfold decodeConfiguredArguments
  split
  · exact nofun
  · exact nofun
  · exact nofun
  · split
    · exact nofun
    · exact nofun
  · exact nofun

theorem accounted_decodeConfiguredEntrypoint :
    AccountedFor retains ((decodeConfiguredEntrypoint identity value path).value.memberAt place) := by
  unfold decodeConfiguredEntrypoint
  split
  · exact accounted_of_ne fun _ => nofun
  · exact accounted_decodeConfiguredArguments

theorem accounted_configuration (options : AcquisitionOptions) : AccountedFor retains
    (configurationStates (decodeContainerConfiguration identity object options).value) := by
  rw [decodeContainerConfiguration]
  simp only [configurationStates, accounted_append]
  split
  · refine ⟨⟨⟨⟨⟨⟨?_, ?_⟩, ?_⟩, ?_⟩, ?_⟩, ?_⟩, ?_⟩ <;> exact accounted_of_ne fun _ => nofun
  · refine ⟨⟨⟨⟨⟨⟨?_, ?_⟩, ?_⟩, ?_⟩, ?_⟩, ?_⟩, ?_⟩
    · exact accounted_stringMapField _
    · exact accounted_decodeEnvironment
    · exact accounted_decodeConfiguredArguments
    · exact accounted_decodeConfiguredEntrypoint
    · exact accounted_scalarField _
    · exact accounted_scalarField _
    · exact accounted_scalarField _
  · refine ⟨⟨⟨⟨⟨⟨?_, ?_⟩, ?_⟩, ?_⟩, ?_⟩, ?_⟩, ?_⟩ <;> exact accounted_of_ne fun _ => nofun

theorem accounted_decodeMemorySwappiness (evidence : ResourceEvidence) :
    AccountedFor retains ((decodeMemorySwappiness identity object evidence).value.memberAt place) := by
  refine accounted_of_ne fun id => ?_
  rw [decodeMemorySwappiness]
  split
  · exact nofun
  · split
    · exact nofun
    · split_ifs
      · exact nofun
      · exact nofun
    · split
      · exact nofun
      · exact nofun
      · exact nofun
  · exact nofun

theorem accounted_imageHint (parsedImage : String)
    (configuredImage localImageId : ObservationField String) :
    AccountedFor retains ((decodeAuthoredImageSpellingHint identity parsedImage configuredImage
      localImageId).value.memberAt place) := by
  refine accounted_of_ne fun id => ?_
  rw [decodeAuthoredImageSpellingHint]
  split_ifs
  · exact nofun
  · exact nofun
  · exact nofun
  · exact nofun

theorem accounted_mountHints (parsedMounts : List ParsedCreateMount)
    (mounts : ObservationField (List ContainerMountObservation)) :
    AccountedFor retains ((correlateAuthoredMountRelabels identity parsedMounts
      mounts).value.memberAt place) := by
  refine accounted_of_ne fun id => ?_
  rw [correlateAuthoredMountRelabels]
  split_ifs
  · intro h
    cases h
  · split
    · intro h
      cases h
    · rw [Noted.value_bind, Noted.value_pure]
      split
      · intro h
        cases h
      · intro h
        cases h

theorem accounted_creationEvidence (configuredImage localImageId : ObservationField String)
    (mounts : ObservationField (List ContainerMountObservation)) :
    AccountedFor retains ((decodeContainerCreationEvidence identity value configuredImage localImageId
      mounts).value.membersAt createCommandPath creationEvidenceStates) := by
  rw [decodeContainerCreationEvidence]
  split
  · exact accounted_absent
  · exact accounted_malformed
  · exact accounted_unavailable
  · rw [Noted.value_bind]
    split
    · exact accounted_observed (accounted_append.mpr
        ⟨accounted_imageHint _ _ _, accounted_mountHints _ _⟩)
    · exact accounted_observed (accounted_append.mpr
        ⟨accounted_imageHint _ _ _, accounted_of_ne fun _ h => (by cases h)⟩)
    · exact accounted_observed (accounted_append.mpr
        ⟨accounted_imageHint _ _ _, accounted_of_ne fun _ h => (by cases h)⟩)

end Configuration

section Networking
variable {α : Type} {retains : UnmodelledFieldId → String → Prop} {identity : ResourceIdentity}
  {object : Members} {value : Option Value} {path place : String} {origin : ObservationOrigin}

theorem accounted_gated {gate : ObservationField Bool} {reader : Decoder (ObservationField α)}
    (h : AccountedFor retains (reader.value.memberAt place)) :
    AccountedFor retains ((gated gate reader).value.memberAt place) := by
  rw [gated]
  split_ifs
  · exact accounted_of_ne fun _ => nofun
  · exact h

theorem accounted_hostEntries {field : UnmodelledFieldId} (h : value.isSome → retains field place) :
    AccountedFor retains ((nativeUnmodelledStringList identity value path field :
      Decoder (ObservationField α)).value.memberAt place) := by
  rw [nativeUnmodelledStringList]
  split
  · exact accounted_of_ne fun _ => nofun
  · next values hvalues =>
      split_ifs
      · exact accounted_of_ne fun _ => nofun
      · rw [accounted_memberAt]
        rintro id ⟨⟩
        exact h (by rw [supplied_eq_some hvalues]; rfl)
  · exact accounted_of_ne fun _ => nofun

theorem accounted_nativeOpaqueOptions :
    AccountedFor retains ((nativeOpaqueOptions identity value path origin).value.memberAt place) := by
  refine accounted_of_ne fun id => ?_
  rw [nativeOpaqueOptions]
  split
  · exact nofun
  · exact nofun
  · exact nofun

theorem accounted_optionalText {accept : List Char → Option α} {field : ObservationField α}
    (h : optionalText accept value origin = some field) :
    AccountedFor retains (field.memberAt place) := by
  unfold optionalText at h
  split at h
  · cases h
    exact accounted_of_ne fun _ => nofun
  · cases h
    exact accounted_of_ne fun _ => nofun
  · split_ifs at h
    · cases h
      exact accounted_of_ne fun _ => nofun
    · obtain ⟨accepted, -, rfl⟩ := Option.map_eq_some_iff.mp h
      exact accounted_of_ne fun _ => nofun
  · cases h

theorem accounted_portBinding {port : UInt16} {protocol : NativePortProtocol} {binding : Members}
    {decoded : NativePortBindingObservation}
    (h : portBinding port protocol origin binding = .ok decoded) :
    AccountedFor retains (portBindingStates place decoded) := by
  rw [portBinding] at h
  split at h
  · cases h
  · next hostIp hhostIp =>
      split at h
      · cases h
      · next hostPort hhostPort =>
          cases h
          exact accounted_append.mpr
            ⟨accounted_optionalText hhostIp, accounted_optionalText hhostPort⟩

theorem except_map_eq_ok {ε β : Type} {result : Except ε α} {f : α → β} {found : β}
    (h : result.map f = .ok found) : ∃ value, result = .ok value ∧ f value = found := by
  cases result with
  | error _ => cases h
  | ok value => exact ⟨value, rfl, Except.ok.inj h⟩

theorem accounted_portBindingsOf {port : UInt16} {protocol : NativePortProtocol}
    {entries : List (Value × ℕ)} {decoded : List NativePortBindingObservation}
    (h : portBindingsOf identity origin port protocol path entries = .ok decoded) :
    ∀ binding ∈ decoded, ∀ place, AccountedFor retains (portBindingStates place binding) := by
  induction entries generalizing decoded with
  | nil =>
      cases h
      exact fun _ hbinding => absurd hbinding List.not_mem_nil
  | cons entry rest ih =>
      obtain ⟨value, index⟩ := entry
      rw [portBindingsOf] at h
      split at h
      · cases h
      · split at h
        · cases h
        · next first hfirst =>
            obtain ⟨others, hothers, rfl⟩ := except_map_eq_ok h
            intro binding hbinding place
            rcases List.mem_cons.mp hbinding with rfl | hbinding
            · exact accounted_portBinding hfirst
            · exact ih hothers binding hbinding place

theorem accounted_allPortBindings {bindings : Members}
    {decoded : List NativePortBindingObservation}
    (h : allPortBindings identity origin path bindings = .ok decoded) :
    ∀ binding ∈ decoded, ∀ place, AccountedFor retains (portBindingStates place binding) := by
  induction bindings generalizing decoded with
  | nil =>
      cases h
      exact fun _ hbinding => absurd hbinding List.not_mem_nil
  | cons entry rest ih =>
      obtain ⟨key, value⟩ := entry
      rw [allPortBindings] at h
      split at h
      · split at h
        · cases h
        · next first hfirst =>
            obtain ⟨others, hothers, rfl⟩ := except_map_eq_ok h
            intro binding hbinding place
            rcases List.mem_append.mp hbinding with hbinding | hbinding
            · exact accounted_portBindingsOf hfirst binding hbinding place
            · exact ih hothers binding hbinding place
      · cases h

theorem accounted_nativePortBindings :
    AccountedFor retains ((nativePortBindings identity origin value path).value.membersAt place
      (elementStates place portBindingStates)) := by
  rw [nativePortBindings]
  split
  · exact accounted_absent
  · split
    · next decoded hdecoded =>
        refine accounted_observed (accounted_elementStates.mpr fun entry hentry => ?_)
        exact accounted_allPortBindings hdecoded _ (List.fst_mem_of_mem_zipIdx hentry) _
    · exact accounted_malformed
  · exact accounted_malformed

theorem accounted_networks :
    AccountedFor retains ((decodeContainerNetworks identity object).value.field.memberAt place) := by
  refine accounted_of_ne fun id => ?_
  rw [decodeContainerNetworks]
  split
  · intro h
    cases h
  · split
    · intro h
      cases h
    · exact elementsField_ne_unmodelled _ id
    · intro h
      cases h
  · intro h
    cases h

theorem accounted_networkAttachment (entry : String × Value) :
    AccountedFor retains (attachmentStates (networkAttachment identity entry).value) := by
  rw [networkAttachment, attachmentStates]
  refine accounted_of_ne fun id => ?_
  split
  · rw [Noted.value_bind, Noted.value_pure, decodeContainerNetworkAliases]
    split
    · exact nofun
    · split
      · exact nofun
      · exact nofun
    · exact nofun
  · exact nofun

theorem accounted_networkAttachments (networks : Members) :
    AccountedFor retains ((networkAttachments identity networks).value.membersAt place fun
      attachments => attachments.flatMap attachmentStates) := by
  induction networks with
  | nil => exact accounted_observed nofun
  | cons entry rest ih =>
      rw [networkAttachments]
      split_ifs
      · simp only [Noted.value_bind, Noted.value_pure]
        split
        · next found hfound =>
            rw [hfound] at ih
            refine accounted_observed ?_
            rw [List.flatMap_cons, accounted_append]
            exact ⟨accounted_networkAttachment entry, (accounted_membersAt.mp ih).2 _ rfl⟩
        · exact ih
      · exact accounted_malformed

theorem accounted_attachments :
    AccountedFor retains ((decodeContainerNetworkAttachments identity object).value.membersAt place
      fun attachments => attachments.flatMap attachmentStates) := by
  rw [decodeContainerNetworkAttachments]
  split
  · exact accounted_absent
  · split
    · exact accounted_absent
    · exact accounted_networkAttachments _
    · exact accounted_malformed
  · exact accounted_malformed

end Networking

section InspectedNetworking
variable {retains : UnmodelledFieldId → String → Prop} {identity : ResourceIdentity}
  {object : Members} {value : Option Value} {path place : String}

theorem accounted_unpoddedNetworking {hostConfig : Option Members}
    {networks : ObservationField (List NativeResourceReference)}
    {attachments : ObservationField (List NativeNetworkAttachmentObservation)}
    (hentries : (hostConfig.bind fun members => lookup members "ExtraHosts").isSome →
      retains .containerHostConfig (hostConfigKeys.front ++ hostConfigKeys.hostEntries))
    (hnetworks : AccountedFor retains (networks.memberAt hostConfigKeys.networks))
    (hattachments : AccountedFor retains (attachments.membersAt hostConfigKeys.networks
      fun attachments => attachments.flatMap attachmentStates)) :
    AccountedFor retains ((unpoddedNetworking identity hostConfig networks attachments).value.membersAt
      "$.HostConfig" (networkingStates hostConfigKeys)) := by
  simp only [unpoddedNetworking, Noted.value_bind, Noted.value_pure]
  refine accounted_ite accounted_malformed (accounted_ite accounted_absent (accounted_observed ?_))
  simp only [networkingStates, accounted_append]
  refine ⟨⟨⟨⟨⟨⟨⟨⟨⟨⟨⟨⟨⟨?_, ?_⟩, ?_⟩, ?_⟩, ?_⟩, ?_⟩, ?_⟩, hnetworks⟩, hattachments⟩, ?_⟩, ?_⟩, ?_⟩, ?_⟩,
    ?_⟩
  · exact accounted_nativePortBindings
  · exact accounted_scalarField _
  · exact accounted_of_ne fun _ => nofun
  · exact accounted_gated (accounted_listField _)
  · exact accounted_gated (accounted_listField _)
  · exact accounted_gated (accounted_listField _)
  · exact accounted_gated (accounted_hostEntries hentries)
  · exact accounted_of_ne fun _ => nofun
  · exact accounted_scalarField _
  · exact accounted_scalarField _
  · exact accounted_of_ne fun _ => nofun
  · exact accounted_of_ne fun _ => nofun

theorem accounted_containerNetworking {podMembership : ObservationField NativeResourceReference}
    {networks : ObservationField (List NativeResourceReference)}
    {attachments : ObservationField (List NativeNetworkAttachmentObservation)}
    (hentries : ∀ hostConfig, lookup object "HostConfig" = some (.object hostConfig) →
      (lookup hostConfig "ExtraHosts").isSome →
        retains .containerHostConfig (hostConfigKeys.front ++ hostConfigKeys.hostEntries))
    (hnetworks : AccountedFor retains (networks.memberAt hostConfigKeys.networks))
    (hattachments : AccountedFor retains (attachments.membersAt hostConfigKeys.networks
      fun attachments => attachments.flatMap attachmentStates)) :
    AccountedFor retains ((decodeContainerNetworking identity object podMembership networks
      attachments).value.membersAt "$.HostConfig" (networkingStates hostConfigKeys)) := by
  rw [decodeContainerNetworking]
  split_ifs
  · exact accounted_notApplicable
  · exact accounted_notApplicable
  · split
    · exact accounted_unpoddedNetworking (fun h => absurd h Bool.false_ne_true) hnetworks
        hattachments
    · next hostConfig hhostConfig =>
        refine accounted_unpoddedNetworking (fun hsome => ?_) hnetworks hattachments
        exact hentries hostConfig (supplied_eq_some hhostConfig) hsome
    · exact accounted_malformed

variable {library : VersionLibrary} {evidence : ResourceEvidence}

theorem accounted_nativeStaticIp {origin : ObservationOrigin} : AccountedFor retains
    ((nativeStaticIp identity library evidence value path origin).value.memberAt place) := by
  rw [nativeStaticIp]
  split_ifs
  · exact accounted_scalarField _
  · exact accounted_of_ne fun _ => nofun
  · exact accounted_of_ne fun _ => nofun

theorem accounted_nativeStaticMac :
    AccountedFor retains ((nativeStaticMac identity value path).value.memberAt place) := by
  rw [nativeStaticMac]
  split_ifs
  · exact accounted_of_ne fun _ => nofun
  · exact accounted_of_ne fun _ => nofun

theorem accounted_infraNetworking
    (hentries : (lookup object "HostAdd").isSome →
      retains .podInfraConfig (infraConfigKeys.front ++ infraConfigKeys.hostEntries)) :
    AccountedFor retains ((decodeNativeNetworking identity library evidence object "$.InfraConfig"
      .effective).value.1.membersAt "$.InfraConfig" (networkingStates infraConfigKeys)) := by
  simp only [decodeNativeNetworking, Noted.value_bind, Noted.value_pure]
  refine accounted_ite accounted_malformed (accounted_observed ?_)
  simp only [networkingStates, accounted_append]
  refine ⟨⟨⟨⟨⟨⟨⟨⟨⟨⟨⟨⟨⟨?_, ?_⟩, ?_⟩, ?_⟩, ?_⟩, ?_⟩, ?_⟩, ?_⟩, ?_⟩, ?_⟩, ?_⟩, ?_⟩, ?_⟩, ?_⟩
  · exact accounted_nativePortBindings
  · exact accounted_scalarField _
  · exact accounted_of_ne fun _ => nofun
  · exact accounted_gated (accounted_listField _)
  · exact accounted_gated (accounted_listField _)
  · exact accounted_gated (accounted_listField _)
  · exact accounted_gated (accounted_hostEntries hentries)
  · exact accounted_listField _
  · exact accounted_notApplicable
  · exact accounted_nativeOpaqueOptions
  · exact accounted_scalarField _
  · exact accounted_scalarField _
  · exact accounted_nativeStaticIp
  · exact accounted_nativeStaticMac

theorem accounted_podNetworking
    (hentries : ∀ config, lookup object "InfraConfig" = some (.object config) →
      (lookup config "HostAdd").isSome →
        retains .podInfraConfig (infraConfigKeys.front ++ infraConfigKeys.hostEntries)) :
    AccountedFor retains (((decodePodNetworking identity library evidence
      object).value.createInfra.memberAt "$.CreateInfra") ++
      (decodePodNetworking identity library evidence object).value.networking.membersAt
        "$.InfraConfig" (networkingStates infraConfigKeys)) := by
  rw [decodePodNetworking, Noted.value_bind]
  have hcreate : AccountedFor retains ((nativeBoolField identity (lookup object "CreateInfra")
    "$.CreateInfra" .effective).value.memberAt "$.CreateInfra") := accounted_scalarField _
  split
  · next config _ hconfig =>
      refine accounted_append.mpr ⟨hcreate, ?_⟩
      exact accounted_infraNetworking (hentries config (supplied_eq_some hconfig))
  · exact accounted_append.mpr ⟨hcreate, accounted_malformed⟩
  · exact accounted_append.mpr ⟨hcreate, accounted_absent⟩
  · exact accounted_append.mpr ⟨hcreate, accounted_absent⟩
  · exact accounted_append.mpr ⟨hcreate, accounted_malformed⟩
  · exact accounted_append.mpr ⟨hcreate, accounted_malformed⟩
  · exact accounted_append.mpr ⟨hcreate, accounted_malformed⟩

end InspectedNetworking

end PodmanLens
