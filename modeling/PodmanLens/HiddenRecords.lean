import PodmanLens.HiddenPlaces

/-!
# Records with hidden values

Each kind of resource is read as alike when the responses about it differ only in hidden places. The
known members, the identity and the notes of the decoders are the same, and so are the unknown fields.
-/

namespace PodmanLens
open Std Json Coupling

section Containers
variable {identity : ResourceIdentity} {options : AcquisitionOptions} {evidence : ResourceEvidence}
  {object object' : Members}

/-- Containers with alike configurations and controls, and the same in everything else. -/
structure ContainersAlike
    (configuration : ContainerConfigurationDecoded → ContainerConfigurationDecoded → Prop)
    (controls : ContainerB3Decoded → ContainerB3Decoded → Prop) (left right : ContainerDetails) :
    Prop where
  configuration : configuration left.toContainerConfigurationDecoded
    right.toContainerConfigurationDecoded
  controls : controls left.toContainerB3Decoded right.toContainerB3Decoded
  others : { left with
    toContainerConfigurationDecoded := right.toContainerConfigurationDecoded
    toContainerB3Decoded := right.toContainerB3Decoded } = right

section Config
variable (h : OptionsAlike (ObjectsAlike (ExceptAt hiddenConfigPlaces)) (lookup object "Config")
  (lookup object' "Config"))
include h

theorem containerCreateCommand_eq :
    containerCreateCommand object = containerCreateCommand object' := by
  rw [containerCreateCommand, containerCreateCommand]
  rcases optionsAlike_objects h with heq | ⟨config, config', heq, heq', hconfig⟩
  · rw [heq]
  · rw [heq, heq']
    exact hconfig.lookup_same (by decide)

theorem decodeContainerSecretGrants_eq :
    decodeContainerSecretGrants identity (lookup object "Config") =
      decodeContainerSecretGrants identity (lookup object' "Config") := by
  rcases optionsAlike_objects h with heq | ⟨config, config', heq, heq', hconfig⟩
  · rw [heq]
  · rw [heq, heq', decodeContainerSecretGrants, decodeContainerSecretGrants]
    simp only [supplied, hconfig.lookup_same (by decide : "Secrets" ∉ _)]

end Config

section HostConfig
variable (h : OptionsAlike (ObjectsAlike (ExceptAt hiddenHostPlaces)) (lookup object "HostConfig")
  (lookup object' "HostConfig"))
include h

theorem decodeNativeBindSelinuxRelabels_eq :
    decodeNativeBindSelinuxRelabels object identity =
      decodeNativeBindSelinuxRelabels object' identity := by
  have hbinds : (lookup object "HostConfig").bind (·.member "Binds") =
      (lookup object' "HostConfig").bind (·.member "Binds") := by
    rcases optionsAlike_objects h with heq | ⟨hostConfig, hostConfig', heq, heq', hhost⟩
    · rw [heq]
    · rw [heq, heq']
      exact hhost.lookup_same (by decide)
  rw [decodeNativeBindSelinuxRelabels, decodeNativeBindSelinuxRelabels, hbinds]

theorem decodeMemorySwappiness_eq : decodeMemorySwappiness identity object evidence =
    decodeMemorySwappiness identity object' evidence := by
  rw [decodeMemorySwappiness, decodeMemorySwappiness]
  rcases optionsAlike_objects h with heq | ⟨hostConfig, hostConfig', heq, heq', hhost⟩
  · rw [heq]
  · simp only [heq, heq', supplied, hhost.lookup_same (by decide : "MemorySwappiness" ∉ _)]

theorem decodeContainerNetworking_eq (podMembership : ObservationField NativeResourceReference)
    (networks : ObservationField (List NativeResourceReference))
    (attachments : ObservationField (List NativeNetworkAttachmentObservation)) :
    decodeContainerNetworking identity object podMembership networks attachments =
      decodeContainerNetworking identity object' podMembership networks attachments := by
  rw [decodeContainerNetworking, decodeContainerNetworking]
  rcases optionsAlike_objects h with heq | ⟨hostConfig, hostConfig', heq, heq', hhost⟩
  · rw [heq]
  · have hlookup : ∀ key, key ≠ "SecurityOpt" → lookup hostConfig key = lookup hostConfig' key := by
      intro key hkey
      exact hhost.lookup_same (by simpa [hiddenHostPlaces] using hkey)
    have hkeys : (poddedNetworkingKeys.any fun key => (lookup hostConfig key).isSome) =
        poddedNetworkingKeys.any fun key => (lookup hostConfig' key).isSome := by
      simp (disch := decide) only [poddedNetworkingKeys, List.any_cons, List.any_nil, hlookup]
    have hunpodded : unpoddedNetworking identity (some hostConfig) networks attachments =
        unpoddedNetworking identity (some hostConfig') networks attachments := by
      simp (disch := decide) only [unpoddedNetworking, Option.bind_some, hlookup,
        Option.isNone_some]
    simp only [heq, heq', supplied, Option.bind_some, Value.asObject, Option.any_some, hkeys,
      hunpodded]

end HostConfig

/-- Only the configuration and the controls see the hidden places. -/
theorem coupled_containerDetails
    (h : MembersAlike (ExceptAt hiddenContainerPlaces) object object')
    {configuration : ContainerConfigurationDecoded → ContainerConfigurationDecoded → Prop}
    (hconfiguration : Coupled configuration (decodeContainerConfiguration identity object options)
      (decodeContainerConfiguration identity object' options))
    {controls : ContainerB3Decoded → ContainerB3Decoded → Prop}
    (hcontrols : Coupled controls (decodeContainerB3 identity object)
      (decodeContainerB3 identity object')) :
    Coupled (ContainersAlike configuration controls)
      (containerDetails identity object options evidence)
      (containerDetails identity object' options evidence) := by
  have hconfig : OptionsAlike (ObjectsAlike (ExceptAt hiddenConfigPlaces)) (lookup object "Config")
      (lookup object' "Config") := h.lookup_place rfl
  have hhost : OptionsAlike (ObjectsAlike (ExceptAt hiddenHostPlaces)) (lookup object "HostConfig")
      (lookup object' "HostConfig") := h.lookup_place rfl
  have hnetworks : decodeContainerNetworks identity object =
      decodeContainerNetworks identity object' := by
    rw [decodeContainerNetworks, decodeContainerNetworks,
      h.lookup_same (by decide : "NetworkSettings" ∉ _)]
  have hattachments : decodeContainerNetworkAttachments identity object =
      decodeContainerNetworkAttachments identity object' := by
    rw [decodeContainerNetworkAttachments, decodeContainerNetworkAttachments,
      h.lookup_same (by decide : "NetworkSettings" ∉ _)]
  have hmounts : decodeContainerMounts identity object =
      decodeContainerMounts identity object' := by
    rw [decodeContainerMounts, decodeContainerMounts, decodeNativeBindSelinuxRelabels_eq hhost,
      h.lookup_same (by decide : "Mounts" ∉ _)]
  have hinfra : decodeIsInfra identity object = decodeIsInfra identity object' := by
    rw [decodeIsInfra, decodeIsInfra, h.lookup_same (by decide : "IsInfra" ∉ _)]
  simp only [containerDetails, h.lookup_same (by decide : "Image" ∉ _),
    h.lookup_same (by decide : "ImageName" ∉ _), h.lookup_same (by decide : "Pod" ∉ _),
    h.lookup_same (by decide : "Dependencies" ∉ _), hnetworks, hattachments, hmounts, hinfra,
    containerCreateCommand_eq hconfig, decodeContainerSecretGrants_eq hconfig,
    decodeMemorySwappiness_eq hhost, decodeContainerNetworking_eq hhost]
  refine hconfiguration.bind fun decoded decoded' hdecoded => ?_
  refine .bind_same fun localImageId => .bind_same fun configuredImage => .bind_same fun pod =>
    .bind_same fun networks => .bind_same fun attachments => .bind_same fun networking =>
    .bind_same fun mounts => .bind_same fun creation => .bind_same fun dependencies =>
    .bind_same fun grants => .bind_same fun swappiness => ?_
  refine hcontrols.bind fun found found' hfound => .bind_same fun infra => .pure ?_
  exact ⟨hdecoded, hfound, rfl⟩

end Containers

section Kinds

def hiddenSpecPlaces : Places :=
  [("Labels", TextsAlike), ("SecretData", fun _ _ => True),
    ("Driver", ObjectsAlike (ExceptAt [("Options", TextsAlike)]))]

/-- The members of a response whose values the snapshot hides. -/
def hiddenPlaces : ResourceKind → Places
  | .container => hiddenContainerPlaces
  | .pod | .volume => [("Labels", TextsAlike)]
  | .network => [("labels", TextsAlike), ("options", TextsAlike)]
  | .image => [("Labels", TextsAlike), ("Config", ObjectsAlike (ExceptAt hiddenConfigPlaces))]
  | .secret => [("SecretData", fun _ _ => True), ("Spec", ObjectsAlike (ExceptAt hiddenSpecPlaces))]

/-- The details without the labels. -/
def ResourceDetails.unlabelled : ResourceDetails → ResourceDetails
  | .container value => .container { value with labels := .absent }
  | .pod value => .pod { value with labels := .absent }
  | .network _ => .network ⟨.absent⟩
  | .volume _ => .volume ⟨.absent⟩
  | .image value => .image { value with labels := .absent }
  | .secret _ => .secret ⟨.absent⟩

def NativeDetails.configuredImage : NativeDetails → ObservationField String
  | .container value => value.configuredImage
  | _ => .notApplicable

def NativeDetails.localImageId : NativeDetails → ObservationField String
  | .container value => value.localImageId
  | _ => .notApplicable

/-- Details that neither the snapshot nor reconciliation tells apart. -/
structure DetailsAlike (left right : NativeDetails) : Prop where
  snapshot : Snapshot.details left = Snapshot.details right
  observed : left.observed.unlabelled = right.observed.unlabelled
  configuredImage : left.configuredImage = right.configuredImage
  localImageId : left.localImageId = right.localImageId

variable {identity : ResourceIdentity} {options : AcquisitionOptions} {evidence : ResourceEvidence}
  {library : VersionLibrary} {object object' : Members}

theorem ContainersAlike.details {left right : ContainerDetails}
    (h : ContainersAlike ConfigurationsAlike ControlsAlike left right) :
    DetailsAlike (.container left) (.container right) := by
  obtain ⟨hconfiguration, hcontrols, hothers⟩ := h
  generalize right.toContainerConfigurationDecoded = configuration,
    right.toContainerB3Decoded = controls at hconfiguration hcontrols hothers
  subst hothers
  refine ⟨?_, rfl, rfl, rfl⟩
  simp only [Snapshot.details, Snapshot.containerDetails, hconfiguration.labels,
    hconfiguration.environment, hconfiguration.command, hconfiguration.entrypoint,
    hconfiguration.user, hconfiguration.workingDirectory, hconfiguration.hostname,
    hcontrols.healthCheck, hcontrols.startupHealthCheck, hcontrols.healthFailureAction,
    hcontrols.restartPolicy, hcontrols.logging, hcontrols.security, hcontrols.namespaces,
    hcontrols.resourceControls]

theorem coupled_podDetails (h : MembersAlike (ExceptAt (hiddenPlaces .pod)) object object') :
    Coupled DetailsAlike (.pod <$> podDetails identity object library evidence)
      (.pod <$> podDetails identity object' library evidence) := by
  have hcontainers : decodePodContainers identity object = decodePodContainers identity object' := by
    rw [decodePodContainers, decodePodContainers, h.lookup_same (by decide : "Containers" ∉ _)]
  have hnetworking : decodePodNetworking identity library evidence object =
      decodePodNetworking identity library evidence object' := by
    rw [decodePodNetworking, decodePodNetworking, h.lookup_same (by decide : "CreateInfra" ∉ _),
      h.lookup_same (by decide : "InfraConfig" ∉ _)]
  simp only [podDetails, hcontainers, hnetworking, map_bind]
  refine (coupled_decodeLabels (h.lookup_place rfl)).bind fun labels labels' hlabels => ?_
  refine .bind_same fun containers => .bind_same fun networking => ?_
  rw [map_pure, map_pure]
  refine .pure ⟨?_, rfl, rfl, rfl⟩
  simp only [Snapshot.details, Snapshot.podDetails, hlabels]

/-- A network, also as an older document is read, which may have further hidden members. -/
theorem coupled_networkDetails {places : Places} (hlabels : places.lookup "labels" = some TextsAlike)
    (hoptions : places.lookup "options" = some TextsAlike)
    (hothers : ∀ key ∈ ["internal", "subnets", "routes"], key ∉ places.map Prod.fst)
    (h : MembersAlike (ExceptAt places) object object') :
    Coupled DetailsAlike (.network <$> networkDetails identity object library evidence)
      (.network <$> networkDetails identity object' library evidence) := by
  simp only [networkDetails, map_bind, h.lookup_same (hothers "internal" (by decide)),
    h.lookup_same (hothers "subnets" (by decide)), h.lookup_same (hothers "routes" (by decide))]
  refine .bind_same fun internal => ?_
  have hkeys : Coupled (FieldsAlike Eq)
      (stringMapField identity networkOptionKeys (lookup object "options") "$.options" .effective)
      (stringMapField identity networkOptionKeys (lookup object' "options") "$.options"
        .effective) := coupled_stringMapField (fun _ _ heq => heq) (h.lookup_place hoptions)
  rw [(hkeys.mono fun _ _ hfield => hfield.eq).eq]
  refine .bind_same fun options => .bind_same fun subnets => .bind_same fun routes => ?_
  refine (coupled_decodeLabels (h.lookup_place hlabels)).bind fun labels labels' hsummary => ?_
  rw [map_pure, map_pure]
  refine .pure ⟨?_, rfl, rfl, rfl⟩
  simp only [Snapshot.details, Snapshot.networkDetails, hsummary]

theorem coupled_volumeDetails (h : MembersAlike (ExceptAt (hiddenPlaces .volume)) object object') :
    Coupled DetailsAlike (.volume <$> volumeDetails identity object)
      (.volume <$> volumeDetails identity object') := by
  simp only [volumeDetails, map_bind, h.lookup_same (by decide : "UID" ∉ _),
    h.lookup_same (by decide : "GID" ∉ _), h.lookup_same (by decide : "Driver" ∉ _),
    h.lookup_same (by decide : "CreatedAt" ∉ _), h.lookup_same (by decide : "Anonymous" ∉ _)]
  refine (coupled_decodeLabels (h.lookup_place rfl)).bind fun labels labels' hlabels => ?_
  refine .bind_same fun user => .bind_same fun group => .bind_same fun driver =>
    .bind_same fun created => .bind_same fun anonymous => ?_
  rw [map_pure, map_pure]
  refine .pure ⟨?_, rfl, rfl, rfl⟩
  simp only [Snapshot.details, Snapshot.volumeDetails, hlabels]

/-- Both the labels and the environment of an image are hidden. -/
theorem coupled_imageDetails (h : MembersAlike (ExceptAt (hiddenPlaces .image)) object object') :
    Coupled DetailsAlike (.image <$> imageDetails identity object options)
      (.image <$> imageDetails identity object' options) := by
  have hconfig : OptionsAlike (ObjectsAlike (ExceptAt hiddenConfigPlaces)) (lookup object "Config")
      (lookup object' "Config") := h.lookup_place rfl
  have henvironment : Coupled
      (fun field field' => Snapshot.environment field = Snapshot.environment field')
      (imageEnvironment identity object options) (imageEnvironment identity object' options) := by
    rw [imageEnvironment, imageEnvironment]
    rcases optionsAlike_objects hconfig with heq | ⟨config, config', heq, heq', hmembers⟩
    · rw [heq]
      refine .refl ?_ _
      exact fun _ => rfl
    · rw [heq, heq']
      exact coupled_environment (hmembers.lookup_place rfl)
  simp only [imageDetails, map_bind, h.lookup_same (by decide : "RepoTags" ∉ _),
    h.lookup_same (by decide : "RepoDigests" ∉ _), h.lookup_same (by decide : "Digest" ∉ _),
    h.lookup_same (by decide : "Created" ∉ _), h.lookup_same (by decide : "Author" ∉ _),
    h.lookup_same (by decide : "Architecture" ∉ _), h.lookup_same (by decide : "Os" ∉ _),
    h.lookup_same (by decide : "ManifestType" ∉ _)]
  refine (coupled_decodeLabels (h.lookup_place rfl)).bind fun labels labels' hlabels => ?_
  refine henvironment.bind fun entries entries' hentries => ?_
  refine .bind_same fun tags => .bind_same fun digests => .bind_same fun digest =>
    .bind_same fun created => .bind_same fun author => .bind_same fun architecture =>
    .bind_same fun system => .bind_same fun manifest => ?_
  rw [map_pure, map_pure]
  refine .pure ⟨?_, rfl, rfl, rfl⟩
  simp only [Snapshot.details, Snapshot.imageDetails, hlabels, hentries]

theorem decodeSecretDriver_eq {value value' : Option Value} {path : String}
    (h : OptionsAlike (ObjectsAlike (ExceptAt [("Options", TextsAlike)])) value value') :
    objectField identity (decodeSecretDriver identity) value path =
      objectField identity (decodeSecretDriver identity) value' path := by
  have hreader : ∀ driver driver', MembersAlike (ExceptAt [("Options", TextsAlike)]) driver driver' →
      Coupled Eq (decodeSecretDriver identity driver) (decodeSecretDriver identity driver') := by
    intro driver driver' hdriver
    have hoptions : Coupled (FieldsAlike Eq)
        (stringMapField identity List.length (lookup driver "Options") "$.Spec.Driver.Options"
          .effective)
        (stringMapField identity List.length (lookup driver' "Options") "$.Spec.Driver.Options"
          .effective) := by
      refine coupled_stringMapField (fun pairs pairs' hkeys => ?_) (hdriver.lookup_place rfl)
      rw [← List.length_map Prod.fst, hkeys, List.length_map]
    rw [decodeSecretDriver, decodeSecretDriver, hdriver.lookup_same (by decide : "Name" ∉ _),
      (hoptions.mono fun _ _ hfield => hfield.eq).eq]
    exact .refl (fun _ => rfl) _
  exact ((coupled_objectField hreader h).mono fun _ _ hfield => hfield.eq).eq

theorem coupled_secretDetails {spec spec' : Members}
    (h : MembersAlike (ExceptAt (hiddenPlaces .secret)) object object')
    (hspec : MembersAlike (ExceptAt hiddenSpecPlaces) spec spec') :
    Coupled DetailsAlike (.secret <$> secretDetails identity object spec)
      (.secret <$> secretDetails identity object' spec') := by
  simp only [secretDetails, map_bind, h.isSome_lookup "SecretData",
    hspec.isSome_lookup "SecretData", h.lookup_same (by decide : "CreatedAt" ∉ _),
    h.lookup_same (by decide : "UpdatedAt" ∉ _),
    decodeSecretDriver_eq (hspec.lookup_place (rfl : hiddenSpecPlaces.lookup "Driver" = _))]
  refine (coupled_decodeLabels (hspec.lookup_place rfl)).bind fun labels labels' hlabels => ?_
  have hdetails : ∀ driver created updated, DetailsAlike (.secret ⟨labels, driver, created, updated⟩)
      (.secret ⟨labels', driver, created, updated⟩) := by
    intro driver created updated
    refine ⟨?_, rfl, rfl, rfl⟩
    simp only [Snapshot.details, Snapshot.secretDetails, hlabels]
  split_ifs
  · simp only [map_bind, map_pure]
    exact .bind_same fun _ => .bind_same fun driver => .bind_same fun created =>
      .bind_same fun updated => .pure (hdetails driver created updated)
  · simp only [map_bind, map_pure]
    exact .bind_same fun driver => .bind_same fun created => .bind_same fun updated =>
      .pure (hdetails driver created updated)

end Kinds

end PodmanLens
