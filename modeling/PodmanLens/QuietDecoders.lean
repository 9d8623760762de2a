import PodmanLens.Inspection

/-!
# Findings of the decoders

The decoders of a record report what they find in the fields they read. That there are more unknown
fields than may be retained is not theirs to say, so a record reports it only for its own walk.
-/

namespace PodmanLens
open Json Text

section Quiet
variable {α β : Type} {identity : ResourceIdentity} {code : DiagnosticCode} {path : String}

/-- No finding of the decoder is about the number of unknown fields. -/
def Quiet (x : Decoder α) : Prop :=
  ∀ finding, DecodingNote.finding finding ∈ x.notes → finding.code ≠ .unknownFieldOverflow

@[simp] theorem quiet_pure (a : α) : Quiet (pure a : Decoder α) :=
  fun _ h => absurd h List.not_mem_nil

@[simp] theorem quiet_bind (x : Decoder α) (f : α → Decoder β) :
    Quiet (x >>= f) ↔ Quiet x ∧ Quiet (f x.value) := by
  simp only [Quiet, Noted.notes_bind, List.mem_append, or_imp, forall_and]

@[simp] theorem quiet_map (f : α → β) (x : Decoder α) : Quiet (f <$> x) ↔ Quiet x := by
  rw [Quiet, Noted.notes_map, Quiet]

@[simp] theorem quiet_mapM (f : α → Decoder β) (values : List α) :
    Quiet (values.mapM f) ↔ ∀ a ∈ values, Quiet (f a) := by
  simp only [Quiet, Noted.notes_mapM, List.mem_flatMap]
  exact ⟨fun h a ha finding hfinding => h finding ⟨a, ha, hfinding⟩,
    fun h finding ⟨a, ha, hfinding⟩ => h a ha finding hfinding⟩

@[simp] theorem quiet_note_unmodelled (kind : JsonValueKind) :
    Quiet (Noted.note (.unmodelled path kind)) := by
  simp [Quiet]

@[simp] theorem quiet_note_finding (finding : InventoryFinding) :
    Quiet (Noted.note (.finding finding)) ↔ finding.code ≠ .unknownFieldOverflow := by
  simp [Quiet]

@[simp] theorem quiet_noteField :
    Quiet (noteField identity code path) ↔ code ≠ .unknownFieldOverflow := by
  simp [noteField, InventoryFinding.field]

@[simp] theorem quiet_noteOccurrence (occurrence : ℕ) :
    Quiet (noteOccurrence identity code path occurrence) ↔ code ≠ .unknownFieldOverflow := by
  simp [noteOccurrence, InventoryFinding.atOccurrence]

@[simp] theorem quiet_nativeMalformedField :
    Quiet (nativeMalformedField identity path : Decoder (ObservationField α)) := by
  simp [nativeMalformedField]

@[simp] theorem quiet_nativeMalformedOccurrence (occurrence : ℕ) :
    Quiet (nativeMalformedOccurrence identity path occurrence :
      Decoder (ObservationField α)) := by
  simp [nativeMalformedOccurrence]

end Quiet

section Readers
variable {α : Type} {identity : ResourceIdentity} {value : Option Value} {path : String}
  {origin : ObservationOrigin}

@[simp] theorem quiet_scalarField (accept : Value → Option α) :
    Quiet (scalarField identity accept value path origin) := by
  rw [scalarField]
  split
  · simp
  · split <;> simp

@[simp] theorem quiet_nativeBoolField : Quiet (nativeBoolField identity value path origin) :=
  quiet_scalarField _

@[simp] theorem quiet_nativeIpField : Quiet (nativeIpField identity value path origin) :=
  quiet_scalarField _

@[simp] theorem quiet_nativeI64Field : Quiet (nativeI64Field identity value path origin) :=
  quiet_scalarField _

@[simp] theorem quiet_nativeU64Field : Quiet (nativeU64Field identity value path origin) :=
  quiet_scalarField _

@[simp] theorem quiet_nativeStringField : Quiet (nativeStringField identity value path origin) :=
  quiet_scalarField _

@[simp] theorem quiet_optionalStringField :
    Quiet (optionalStringField identity value path origin) := quiet_scalarField _

@[simp] theorem quiet_optionalObservedString :
    Quiet (optionalObservedString identity value path origin) := quiet_scalarField _

@[simp] theorem quiet_nativeU32Field : Quiet (nativeU32Field identity value path) :=
  quiet_scalarField _

@[simp] theorem quiet_optionalObservedU32 : Quiet (optionalObservedU32 identity value path) :=
  quiet_scalarField _

@[simp] theorem quiet_optionalObservedBool : Quiet (optionalObservedBool identity value path) :=
  quiet_scalarField _

@[simp] theorem quiet_listField (accept : ℕ → Value → Option α) :
    Quiet (listField identity accept value path origin) := by
  rw [listField]
  split
  · simp
  · split <;> simp
  · simp

@[simp] theorem quiet_nativeIpList : Quiet (nativeIpList identity value path origin) :=
  quiet_listField _

@[simp] theorem quiet_nativeStringList : Quiet (nativeStringList identity value path origin) :=
  quiet_listField _

@[simp] theorem quiet_nativeUnmodelledStringList (field : UnmodelledFieldId) :
    Quiet (nativeUnmodelledStringList identity value path field :
      Decoder (ObservationField α)) := by
  rw [nativeUnmodelledStringList]
  split
  · simp
  · split_ifs <;> simp
  · simp

@[simp] theorem quiet_nativeOpaqueOptions :
    Quiet (nativeOpaqueOptions identity value path origin) := by
  rw [nativeOpaqueOptions]
  split <;> simp

@[simp] theorem quiet_stringMapField (keep : List (String × String) → α) :
    Quiet (stringMapField identity keep value path origin) := by
  rw [stringMapField]
  split <;> simp

@[simp] theorem quiet_namedField (fromName : String → Option α) (admissible : String → Bool) :
    Quiet (namedField identity fromName admissible value path) := by
  rw [namedField]
  split
  · simp
  · split
    · simp
    · split_ifs <;> simp [nativeUnmodelledField]
  · simp

@[simp] theorem quiet_objectField {reader : Members → Decoder α}
    (h : ∀ members, Quiet (reader members)) :
    Quiet (objectField identity reader value path) := by
  rw [objectField]
  split <;> simp [h]

@[simp] theorem quiet_configField {reader : Members → Decoder (ObservationField α)}
    (h : ∀ members, Quiet (reader members)) :
    Quiet (configField identity value path reader) := by
  rw [configField]
  split <;> simp [h]

end Readers

section Parts
variable {identity : ResourceIdentity} {value : Option Value} {object : Members} {path : String}
  {origin : ObservationOrigin}

@[simp] theorem quiet_nativeHealthCommand : Quiet (nativeHealthCommand identity value path) := by
  rw [nativeHealthCommand]
  split
  · simp
  · split
    · simp
    · split <;> simp [nativeUnmodelledField]
  · simp

@[simp] theorem quiet_nativeHealthMembers (check : Members) :
    Quiet (nativeHealthMembers identity check path) := by
  simp [nativeHealthMembers]

@[simp] theorem quiet_capabilityElements (entries : List (Value × ℕ)) :
    Quiet (capabilityElements identity path entries) := by
  induction entries with
  | nil => simp [capabilityElements]
  | cons entry rest ih =>
      rw [capabilityElements]
      split
      · simp
      · split_ifs <;> simp [ih]

@[simp] theorem quiet_nativeCapabilities : Quiet (nativeCapabilities identity value path) := by
  rw [nativeCapabilities]
  split <;> simp

@[simp] theorem quiet_nativeSecurityOptions : Quiet (nativeSecurityOptions identity value) := by
  rw [nativeSecurityOptions]
  split
  · simp
  · split <;> simp
  · simp

@[simp] theorem quiet_nativeUlimit (entry : Value × ℕ) : Quiet (nativeUlimit identity entry) := by
  rw [nativeUlimit]
  split <;> simp

@[simp] theorem quiet_decodeNativeUlimits : Quiet (decodeNativeUlimits identity value) := by
  rw [decodeNativeUlimits]
  split <;> simp

@[simp] theorem quiet_decodeContainerB3 : Quiet (decodeContainerB3 identity object) := by
  simp [decodeContainerB3, fromConfig, fromHostConfig, decodeNativeHealthCheck,
    decodeNativeHealthFailureAction, decodeNativeStartupHealthCheck, decodeNativeRestartPolicy,
    decodeNativeLogging, observedMembers, decodeNativeSecurity, decodeNativeNamespaces,
    nativeNamespaceMode, nativeIpcNamespaceMode, decodeNativeResourceControls]

@[simp] theorem quiet_decodeEnvironment (policy : EnvironmentValuePolicy) :
    Quiet (decodeEnvironment identity policy value path) := by
  have hentry (entry : Value × ℕ) : Quiet (environmentEntry identity policy path entry) := by
    rw [environmentEntry]
    split <;> simp
  rw [decodeEnvironment]
  split <;> simp [hentry]

@[simp] theorem quiet_decodeLabels : Quiet (decodeLabels identity value path) :=
  quiet_stringMapField _

@[simp] theorem quiet_decodeConfiguredArguments :
    Quiet (decodeConfiguredArguments identity value path) := by
  unfold decodeConfiguredArguments
  split
  · simp
  · simp
  · simp
  · split <;> simp
  · simp

@[simp] theorem quiet_decodeContainerConfiguration (options : AcquisitionOptions) :
    Quiet (decodeContainerConfiguration identity object options) := by
  have hentrypoint (value : Option Value) :
      Quiet (decodeConfiguredEntrypoint identity value "$.Config.Entrypoint") := by
    unfold decodeConfiguredEntrypoint
    split <;> simp
  rw [decodeContainerConfiguration]
  split <;> simp [hentrypoint, decodeConfiguredText]

@[simp] theorem quiet_decodeMemorySwappiness (evidence : ResourceEvidence) :
    Quiet (decodeMemorySwappiness identity object evidence) := by
  rw [decodeMemorySwappiness]
  split
  · simp
  · split
    · simp
    · split_ifs <;> simp
    · split <;> simp
  · simp

@[simp] theorem quiet_nativeTimestampField : Quiet (nativeTimestampField identity value path) :=
  quiet_scalarField _

end Parts

section References
variable {identity : ResourceIdentity} {value : Option Value} {object : Members} {path : String}

@[simp] theorem quiet_optionalNativeReference :
    Quiet (optionalNativeReference identity value path) := by
  rw [optionalNativeReference]
  split <;> simp

@[simp] theorem quiet_decodeNativeReference :
    Quiet (decodeNativeReference identity value path) := by
  simp [decodeNativeReference]

@[simp] theorem quiet_dependencyReferences (entries : List (Value × ℕ)) :
    Quiet (dependencyReferences identity entries) := by
  induction entries with
  | nil => simp [dependencyReferences]
  | cons entry rest ih =>
      rw [dependencyReferences, quiet_bind]
      refine ⟨quiet_optionalNativeReference, ?_⟩
      split <;> simp [ih]

@[simp] theorem quiet_decodeNativeDependencies :
    Quiet (decodeNativeDependencies identity value) := by
  rw [decodeNativeDependencies]
  split <;> simp

/-- A binding is refused at its own index or not at all. -/
theorem decodeBinding_findings (state : BindDecoding) (entry : Value × ℕ) :
    (decodeBinding identity state entry).findings = state.findings ∨
      (decodeBinding identity state entry).findings = state.findings ++
        [.atOccurrence .resourceMalformed identity bindsPath entry.2] := by
  unfold decodeBinding
  split
  · split
    · exact Or.inl rfl
    · split
      · exact Or.inl rfl
      · exact Or.inr rfl
      · split
        · exact Or.inr rfl
        · split_ifs
          · exact Or.inr rfl
          · split
            · split_ifs
              · exact Or.inr rfl
              · exact Or.inl rfl
            · exact Or.inl rfl
  · exact Or.inr rfl

/-- The refused bindings are a part of all bindings, in their order. -/
theorem sublist_foldl_decodeBinding (entries : List (Value × ℕ)) (state : BindDecoding) :
    ∃ refused : List (Value × ℕ), refused.Sublist entries ∧
      (entries.foldl (decodeBinding identity) state).findings = state.findings ++
        refused.map fun entry => .atOccurrence .resourceMalformed identity bindsPath entry.2 := by
  induction entries generalizing state with
  | nil => exact ⟨[], .slnil, (List.append_nil _).symm⟩
  | cons entry rest ih =>
      obtain ⟨refused, hrefused, hfindings⟩ := ih (decodeBinding identity state entry)
      rw [List.foldl_cons, hfindings]
      rcases decodeBinding_findings state entry with hstate | hstate
      · exact ⟨refused, hrefused.cons entry, by rw [hstate]⟩
      · refine ⟨entry :: refused, hrefused.cons_cons entry, ?_⟩
        rw [hstate, List.append_assoc, List.map_cons, List.singleton_append]

theorem quiet_decodeNativeBindSelinuxRelabels {finding : InventoryFinding}
    (h : finding ∈ (decodeNativeBindSelinuxRelabels object identity).2) :
    finding.code ≠ .unknownFieldOverflow := by
  unfold decodeNativeBindSelinuxRelabels at h
  split at h
  · cases h
  · cases h
  · next bindings _ =>
      obtain ⟨refused, -, hfindings⟩ : ∃ refused, _ ∧
          (bindings.zipIdx.foldl (decodeBinding identity) {}).findings = _ :=
        sublist_foldl_decodeBinding bindings.zipIdx {}
      simp only [hfindings, List.nil_append, List.mem_map] at h
      obtain ⟨entry, -, rfl⟩ := h
      exact nofun
  · rw [List.mem_singleton.mp h]
    exact nofun

@[simp] theorem quiet_mountMembers (relabels : Except Unit (List NativeBindSelinuxRelabel))
    (kind : ContainerMountKind) (mount : Members) (destination backing : ObservationField String)
    (source : ContainerMountSource) :
    Quiet (mountMembers identity relabels kind mount path destination source backing) := by
  have hrelabel (relabels : Except Unit (List NativeBindSelinuxRelabel)) :
      Quiet (decodeMountSelinuxRelabel identity mount path source destination relabels) := by
    unfold decodeMountSelinuxRelabel
    split
    · simp
    · simp
    · split
      · split_ifs <;> simp
      · simp
      · simp
      · simp
  simp [mountMembers, hrelabel, optionalObservedStringArray]

@[simp] theorem quiet_requiredObservedString :
    Quiet (requiredObservedString identity value path) := by
  rw [requiredObservedString]
  split <;> simp

@[simp] theorem quiet_mountedSource (kind : ContainerMountKind) (mount : Members) :
    Quiet (mountedSource identity kind mount path) := by
  cases kind with
  | namedVolume =>
      rw [mountedSource, quiet_bind]
      refine ⟨quiet_requiredObservedString, ?_⟩
      split <;> simp
  | bind => simp [mountedSource]

@[simp] theorem quiet_containerMount (relabels : Except Unit (List NativeBindSelinuxRelabel))
    (entry : Value × ℕ) : Quiet (containerMount identity relabels entry) := by
  rw [containerMount]
  split
  · simp
  · simp only
    split
    · simp
    · simp only [quiet_bind]
      refine ⟨quiet_optionalObservedString, quiet_mountedSource _ _, ?_⟩
      split <;> simp

@[simp] theorem quiet_decodeContainerMounts : Quiet (decodeContainerMounts identity object) := by
  rw [decodeContainerMounts, quiet_bind]
  refine ⟨fun finding hfinding => ?_, ?_⟩
  · obtain ⟨found, hfound, heq⟩ := List.mem_map.mp hfinding
    cases heq
    exact quiet_decodeNativeBindSelinuxRelabels hfound
  · split <;> simp

@[simp] theorem quiet_containerSecretGrant (entry : Value × ℕ) :
    Quiet (containerSecretGrant identity entry) := by
  rw [containerSecretGrant]
  split
  · simp
  · simp only [quiet_bind]
    refine ⟨quiet_optionalNativeReference, quiet_optionalNativeReference, ?_⟩
    split <;> simp

@[simp] theorem quiet_decodeContainerSecretGrants :
    Quiet (decodeContainerSecretGrants identity value) := by
  rw [decodeContainerSecretGrants]
  split
  · simp
  · split <;> simp
  · simp

end References

section Networking
variable {identity : ResourceIdentity} {value : Option Value} {object : Members} {path : String}
  {origin : ObservationOrigin}

theorem quiet_portBindingsOf {port : UInt16} {protocol : NativePortProtocol}
    {entries : List (Value × ℕ)} {finding : InventoryFinding}
    (h : portBindingsOf identity origin port protocol path entries = .error finding) :
    finding.code ≠ .unknownFieldOverflow := by
  induction entries with
  | nil => cases h
  | cons entry rest ih =>
      rw [portBindingsOf] at h
      split at h
      · cases h
        exact nofun
      · split at h
        · cases h
          exact nofun
        · cases hrest : portBindingsOf identity origin port protocol path rest with
          | error found =>
              rw [hrest] at h
              cases h
              exact ih hrest
          | ok found =>
              rw [hrest] at h
              cases h

theorem quiet_allPortBindings {bindings : Members} {finding : InventoryFinding}
    (h : allPortBindings identity origin path bindings = .error finding) :
    finding.code ≠ .unknownFieldOverflow := by
  induction bindings with
  | nil => cases h
  | cons entry rest ih =>
      rw [allPortBindings] at h
      split at h
      · split at h
        · next found hfound =>
            cases h
            exact quiet_portBindingsOf hfound
        · cases hrest : allPortBindings identity origin path rest with
          | error found =>
              rw [hrest] at h
              cases h
              exact ih hrest
          | ok found =>
              rw [hrest] at h
              cases h
      · cases h
        exact nofun

@[simp] theorem quiet_nativePortBindings :
    Quiet (nativePortBindings identity origin value path) := by
  rw [nativePortBindings]
  split
  · simp
  · split
    · simp
    · next finding hfinding => simp [quiet_allPortBindings hfinding]
  · simp

@[simp] theorem quiet_decodeContainerNetworks :
    Quiet (decodeContainerNetworks identity object) := by
  have hnetwork (entry : String × Value) : Quiet (containerNetwork identity entry) := by
    rw [containerNetwork]
    split_ifs <;> simp
  rw [decodeContainerNetworks]
  split
  · simp
  · split <;> simp [hnetwork]
  · simp

@[simp] theorem quiet_networkAttachment (entry : String × Value) :
    Quiet (networkAttachment identity entry) := by
  rw [networkAttachment]
  split
  · rw [quiet_bind, decodeContainerNetworkAliases]
    refine ⟨?_, quiet_pure _⟩
    split
    · simp
    · split <;> simp
    · simp
  · simp

@[simp] theorem quiet_networkAttachments (networks : Members) :
    Quiet (networkAttachments identity networks) := by
  induction networks with
  | nil => simp [networkAttachments]
  | cons entry rest ih =>
      rw [networkAttachments]
      split_ifs <;> simp [ih]

@[simp] theorem quiet_decodeContainerNetworkAttachments :
    Quiet (decodeContainerNetworkAttachments identity object) := by
  rw [decodeContainerNetworkAttachments]
  split
  · simp
  · split <;> simp
  · simp

theorem quiet_gated {α : Type} (gate : ObservationField Bool)
    {reader : Decoder (ObservationField α)} (h : Quiet reader) : Quiet (gated gate reader) := by
  rw [gated]
  split_ifs
  · simp
  · exact h

@[simp] theorem quiet_decodeContainerNetworking
    (podMembership : ObservationField NativeResourceReference)
    (networks : ObservationField (List NativeResourceReference))
    (attachments : ObservationField (List NativeNetworkAttachmentObservation)) :
    Quiet (decodeContainerNetworking identity object podMembership networks attachments) := by
  have hunpodded (hostConfig : Option Members) :
      Quiet (unpoddedNetworking identity hostConfig networks attachments) := by
    simp [unpoddedNetworking, quiet_gated]
  rw [decodeContainerNetworking]
  split_ifs
  · simp
  · simp
  · split <;> simp [hunpodded]

variable {library : VersionLibrary} {evidence : ResourceEvidence}

@[simp] theorem quiet_decodeNativeNetworking :
    Quiet (decodeNativeNetworking identity library evidence object path origin) := by
  have hstaticIp (value : Option Value) (path : String) :
      Quiet (nativeStaticIp identity library evidence value path origin) := by
    rw [nativeStaticIp]
    split_ifs <;> simp
  have hstaticMac (value : Option Value) (path : String) :
      Quiet (nativeStaticMac identity value path) := by
    rw [nativeStaticMac]
    split_ifs <;> simp
  simp [decodeNativeNetworking, quiet_gated, nativeNetworkReferences, hstaticIp, hstaticMac]

@[simp] theorem quiet_decodePodNetworking :
    Quiet (decodePodNetworking identity library evidence object) := by
  rw [decodePodNetworking, quiet_bind]
  refine ⟨quiet_nativeBoolField, ?_⟩
  split <;> simp

end Networking

section Addresses
variable {identity : ResourceIdentity} {value : Option Value} {path : String}
  {library : VersionLibrary} {evidence : ResourceEvidence}

@[simp] theorem quiet_nativeCidrField (required : Bool) :
    Quiet (nativeCidrField identity value path required) := by
  unfold nativeCidrField
  split
  · split <;> simp
  · split_ifs <;> simp
  · split_ifs <;> simp
  · simp

@[simp] theorem quiet_nativeLeaseRangeField (cidr : Option NativeNetworkCidr) :
    Quiet (nativeLeaseRangeField identity value cidr path) := by
  unfold nativeLeaseRangeField
  split
  · simp
  · simp
  · simp only [quiet_bind]
    refine ⟨quiet_nativeIpField, quiet_nativeIpField, ?_⟩
    split_ifs <;> simp
  · simp

@[simp] theorem quiet_decodeNativeNetworkSubnets :
    Quiet (decodeNativeNetworkSubnets identity value) := by
  have hsubnet (entry : Value × ℕ) : Quiet (nativeNetworkSubnet identity entry) := by
    rw [nativeNetworkSubnet]
    split
    · simp
    · simp only [quiet_bind]
      refine ⟨quiet_nativeCidrField _, quiet_nativeIpField, quiet_nativeLeaseRangeField _, ?_⟩
      split_ifs <;> simp
  rw [decodeNativeNetworkSubnets]
  split <;> simp [hsubnet]

@[simp] theorem quiet_decodeNativeNetworkRoutes :
    Quiet (decodeNativeNetworkRoutes identity library evidence value) := by
  have htype (value : Option Value) (path : String) :
      Quiet (nativeRouteTypeField identity library evidence value path) := by
    unfold nativeRouteTypeField
    split_ifs
    · simp
    · split
      · simp
      · simp
      · split <;> simp
      · simp
  have hroute (entry : Value × ℕ) : Quiet (nativeNetworkRoute identity library evidence entry) := by
    rw [nativeNetworkRoute]
    split
    · simp
    · simp only [quiet_bind]
      refine ⟨quiet_nativeCidrField _, quiet_nativeIpField, quiet_nativeU32Field, htype _ _, ?_⟩
      split_ifs <;> simp
  rw [decodeNativeNetworkRoutes]
  split <;> simp [hroute]

end Addresses

section Records
variable {identity listed : ResourceIdentity} {value : Option Value} {object : Members}
  {path : String} {library : VersionLibrary} {evidence : ResourceEvidence}
  {options : AcquisitionOptions} {decoded : Decoded}

@[simp] theorem quiet_decodeContainerCreationEvidence
    (configuredImage localImageId : ObservationField String)
    (mounts : ObservationField (List ContainerMountObservation)) :
    Quiet (decodeContainerCreationEvidence identity value configuredImage localImageId mounts) := by
  have himage (parsedImage : String) : Quiet (decodeAuthoredImageSpellingHint identity parsedImage
      configuredImage localImageId) := by
    rw [decodeAuthoredImageSpellingHint]
    split_ifs <;> simp
  have hmount (found : List ContainerMountObservation) (candidate : ParsedCreateMount) :
      Quiet (correlateAuthoredMount identity found candidate) := by
    rw [correlateAuthoredMount]
    split
    · split
      · split_ifs <;> simp
      · simp
    · simp
  have hmounts (found : List ContainerMountObservation) (candidates : List ParsedCreateMount) :
      Quiet (correlateAuthoredMounts identity found candidates) := by
    induction candidates with
    | nil => simp [correlateAuthoredMounts]
    | cons candidate rest ih =>
        rw [correlateAuthoredMounts, quiet_bind]
        refine ⟨hmount _ _, ?_⟩
        split <;> simp [ih]
  have hrelabels (candidates : List ParsedCreateMount) :
      Quiet (correlateAuthoredMountRelabels identity candidates mounts) := by
    rw [correlateAuthoredMountRelabels]
    split_ifs
    · simp
    · split <;> simp [hmounts]
  rw [decodeContainerCreationEvidence]
  split
  · simp
  · simp
  · simp
  · rw [quiet_bind]
    refine ⟨himage _, ?_⟩
    split <;> simp [hrelabels]

theorem quiet_containerDetails : Quiet (containerDetails identity object options evidence) := by
  have hnetworks {α : Type} (podMembership : ObservationField NativeResourceReference)
      {reader : Decoder α} (podded : α) (h : Quiet reader) :
      Quiet (unlessPodded podMembership reader podded) := by
    rw [unlessPodded]
    split_ifs
    · exact h
    · exact quiet_pure _
  simp [containerDetails, hnetworks, decodeIsInfra]

theorem quiet_podDetails : Quiet (podDetails identity object library evidence) := by
  have hcontainers : Quiet (decodePodContainers identity object) := by
    have hcontainer (entry : Value × ℕ) : Quiet (podContainer identity entry) := by
      rw [podContainer]
      split <;> simp
    rw [decodePodContainers]
    split <;> simp [hcontainer]
  simp [podDetails, hcontainers]

theorem quiet_networkDetails : Quiet (networkDetails identity object library evidence) := by
  simp [networkDetails]

theorem quiet_volumeDetails : Quiet (volumeDetails identity object) := by
  have howner (value : Option Value) (path : String) :
      Quiet (decodeVolumeOwner identity value path) := by
    unfold decodeVolumeOwner
    split
    · simp
    · split <;> simp
  have hanonymous (value : Option Value) : Quiet (decodeAnonymous identity value) := by
    unfold decodeAnonymous
    split <;> simp
  simp [volumeDetails, howner, hanonymous]

theorem quiet_imageDetails : Quiet (imageDetails identity object options) := by
  have henvironment : Quiet (imageEnvironment identity object options) := by
    rw [imageEnvironment]
    split <;> simp
  have haliases (value : Option Value) (path : String) :
      Quiet (imageAliases identity value path) := by
    have halias (entry : Value × ℕ) : Quiet (imageAlias identity path entry) := by
      rw [imageAlias]
      split <;> simp
    rw [imageAliases]
    split <;> simp [halias]
  have hauthor (value : Option Value) (path : String) (origin : ObservationOrigin) :
      Quiet (optionalStringOrEmptyField identity value path origin) := by
    unfold optionalStringOrEmptyField
    split <;> simp
  simp [imageDetails, henvironment, haliases, hauthor]

theorem quiet_secretDetails (spec : Members) : Quiet (secretDetails identity object spec) := by
  rw [secretDetails, quiet_bind]
  refine ⟨quiet_decodeLabels, ?_⟩
  split_ifs <;> simp [decodeSecretDriver]

theorem quiet_decodeKind (h : decodeKind listed object library evidence options = .ok decoded) :
    Quiet decoded.details := by
  rw [decodeKind] at h
  split at h
  all_goals obtain ⟨identity, -, hdecoded⟩ := except_bind_eq_ok h
  case h_1 =>
    cases hdecoded
    exact (quiet_map _ _).mpr quiet_containerDetails
  case h_2 =>
    cases hdecoded
    exact (quiet_map _ _).mpr quiet_podDetails
  case h_3 =>
    cases hdecoded
    exact (quiet_map _ _).mpr quiet_networkDetails
  case h_4 =>
    cases hdecoded
    exact (quiet_map _ _).mpr quiet_volumeDetails
  case h_5 =>
    cases hdecoded
    exact (quiet_map _ _).mpr quiet_imageDetails
  case h_6 =>
    split at hdecoded
    · cases hdecoded
    · cases hdecoded
      exact (quiet_map _ _).mpr (quiet_secretDetails _)

/-- The overflow is reported exactly where fields are left out. -/
theorem overflow_mem_limitedHeader {fields : List UnmodelledField} {limit : ℕ}
    (h : Quiet decoded.details) :
    (∃ finding ∈ (limitedHeader evidence decoded fields limit).findings,
      finding.code = .unknownFieldOverflow) ↔ limit < fields.length := by
  constructor
  · rintro ⟨finding, hfinding, hcode⟩
    by_contra hlimit
    rw [limitedHeader] at hfinding
    simp only [if_neg hlimit, List.nil_append, List.mem_append, List.mem_map] at hfinding
    rcases hfinding with hnoted | ⟨field, -, rfl⟩
    · obtain ⟨note, hnote, hfound⟩ := List.mem_filterMap.mp hnoted
      cases note with
      | finding found =>
          cases hfound
          exact h _ hnote hcode
      | unmodelled path kind => cases hfound
    · cases hcode
  · intro hlimit
    refine ⟨.field .unknownFieldOverflow decoded.identity "$", ?_, rfl⟩
    rw [limitedHeader]
    simp only [if_pos hlimit]
    exact List.mem_append_right _ (List.mem_append_left _ List.mem_cons_self)

end Records

end PodmanLens
