import PodmanLens.HiddenLabels

/-!
# Noninterference

What an inventory does not hold cannot be told from it. With redacted environment values an
acquisition is the same for any values of the environment and any secret payloads, and its snapshot
is the same, under either policy, for any labels, option values, arguments and configured texts.
-/

namespace PodmanLens
open Std Json Coupling

section Redacted
variable {identity : ResourceIdentity} {options : AcquisitionOptions} {evidence : ResourceEvidence}
  {library : VersionLibrary} {object object' : Members}

def redactedConfigPlaces : Places := [("Env", ArraysAlike EntriesAlike)]

def redactedSpecPlaces : Places := [("SecretData", fun _ _ => True)]

/-- The members of a response whose values are redacted: the environment and secret payloads. -/
def redactedPlaces : ResourceKind → Places
  | .container | .image => [("Config", ObjectsAlike (ExceptAt redactedConfigPlaces))]
  | .secret =>
    [("SecretData", fun _ _ => True), ("Spec", ObjectsAlike (ExceptAt redactedSpecPlaces))]
  | .pod | .network | .volume => []

/-- Documents that differ in redacted values only. -/
def RedactedAlike (kind : ResourceKind) : Value → Value → Prop :=
  ObjectsAlike (ExceptAt (redactedPlaces kind))

theorem objectsAlike_mono {alike alike' : String → Value → Value → Prop} {value value' : Value}
    (hwider : ∀ key value value', alike key value value' → alike' key value value')
    (h : ObjectsAlike alike value value') : ObjectsAlike alike' value value' := by
  cases h with
  | same value => exact .same value
  | object h => exact .object (h.mono hwider)

theorem redactedConfig_hidden (key : String) (value value' : Value)
    (h : ExceptAt redactedConfigPlaces key value value') :
    ExceptAt hiddenConfigPlaces key value value' := by
  refine exceptAt_mono ?_ (fun place hplace => ?_) h
  · simp [hiddenConfigPlaces, ObjectsAlike.same, ArraysAlike.same, StringsAlike.same]
  · rw [List.mem_singleton.mp hplace]
    exact ⟨_, rfl, fun _ _ halike => halike⟩

theorem redactedSpec_hidden (key : String) (value value' : Value)
    (h : ExceptAt redactedSpecPlaces key value value') :
    ExceptAt hiddenSpecPlaces key value value' := by
  refine exceptAt_mono ?_ (fun place hplace => ?_) h
  · simp [hiddenSpecPlaces, ObjectsAlike.same]
  · rw [List.mem_singleton.mp hplace]
    exact ⟨_, rfl, fun _ _ halike => halike⟩

/-- What is redacted is hidden. -/
theorem redacted_decoded {kind : ResourceKind} (key : String) (value value' : Value)
    (h : ExceptAt (redactedPlaces kind) key value value') :
    ExceptAt (decodedPlaces kind) key value value' := by
  refine exceptAt_mono (decodedPlaces_refl kind) (fun place hplace => ?_) h
  cases kind with
  | container | image =>
      rw [List.mem_singleton.mp hplace]
      exact ⟨_, rfl, fun _ _ => objectsAlike_mono redactedConfig_hidden⟩
  | secret =>
      rcases List.mem_cons.mp hplace with rfl | hplace
      · exact ⟨_, rfl, fun _ _ halike => halike⟩
      · rw [List.mem_singleton.mp hplace]
        exact ⟨_, rfl, fun _ _ => objectsAlike_mono redactedSpec_hidden⟩
  | pod | network | volume => cases hplace

theorem decodeEnvironment_redacted {value value' : Option Value} {path : String}
    (h : OptionsAlike (ArraysAlike EntriesAlike) value value') :
    decodeEnvironment identity .redact value path =
      decodeEnvironment identity .redact value' path := by
  have hfields : Coupled (FieldsAlike (List.Forall₂ Eq))
      (decodeEnvironment identity .redact value path)
      (decodeEnvironment identity .redact value' path) :=
    coupled_decodeEnvironment (fun _ => rfl) (fun _ _ _ => rfl) h
  refine (hfields.mono fun field field' hfield => ?_).eq
  rw [List.forall₂_eq_eq_eq] at hfield
  exact hfield.eq

section Config
variable (hredact : options.environmentValues = .redact)
  (h : OptionsAlike (ObjectsAlike (ExceptAt redactedConfigPlaces)) (lookup object "Config")
    (lookup object' "Config"))
include hredact h

theorem decodeContainerConfiguration_redacted :
    decodeContainerConfiguration identity object options =
      decodeContainerConfiguration identity object' options := by
  rw [decodeContainerConfiguration, decodeContainerConfiguration, hredact]
  rcases optionsAlike_objects h with heq | ⟨config, config', heq, heq', hconfig⟩
  · rw [heq]
  · simp only [heq, heq', supplied, decodeEnvironment_redacted (hconfig.lookup_place
      (rfl : redactedConfigPlaces.lookup "Env" = _)), hconfig.lookup_same (by decide : "Labels" ∉ _),
      hconfig.lookup_same (by decide : "Cmd" ∉ _), hconfig.lookup_same (by decide : "User" ∉ _),
      hconfig.lookup_same (by decide : "Entrypoint" ∉ _),
      hconfig.lookup_same (by decide : "WorkingDir" ∉ _),
      hconfig.lookup_same (by decide : "Hostname" ∉ _)]

theorem imageEnvironment_redacted :
    imageEnvironment identity object options = imageEnvironment identity object' options := by
  rw [imageEnvironment, imageEnvironment, hredact]
  rcases optionsAlike_objects h with heq | ⟨config, config', heq, heq', hconfig⟩
  · rw [heq]
  · rw [heq, heq']
    exact decodeEnvironment_redacted (hconfig.lookup_place rfl)

end Config

theorem decodeContainerB3_redacted
    (hconfig : OptionsAlike (ObjectsAlike (ExceptAt redactedConfigPlaces)) (lookup object "Config")
      (lookup object' "Config")) (hhost : lookup object "HostConfig" = lookup object' "HostConfig") :
    decodeContainerB3 identity object = decodeContainerB3 identity object' := by
  have hfield : ∀ {α : Type} (reader : Option Value → Decoder (ObservationField α)) (key : String),
      key ∉ redactedConfigPlaces.map Prod.fst →
      (fromConfig identity object fun config => reader (lookup config key)) =
        fromConfig identity object' fun config => reader (lookup config key) := by
    intro α reader key hkey
    refine configField_eq (fun config config' h => ?_) hconfig
    rw [h.lookup_same hkey]
  rw [decodeContainerB3, decodeContainerB3,
    hfield (decodeNativeHealthCheck identity · "$.Config.Healthcheck") "Healthcheck" (by decide),
    hfield (decodeNativeHealthFailureAction identity) "HealthcheckOnFailureAction" (by decide),
    hfield (decodeNativeStartupHealthCheck identity) "StartupHealthCheck" (by decide)]
  simp only [fromHostConfig, hhost]

theorem redactedPlaces_refl (kind : ResourceKind) :
    ∀ place ∈ redactedPlaces kind, ∀ value, place.2 value value := by
  cases kind <;> simp [redactedPlaces, ObjectsAlike.same]

/-- With redaction the decoder of each kind reads documents alike to equal details. -/
theorem detailsCoupled_redacted {kind : ResourceKind}
    (hredact : options.environmentValues = .redact)
    (h : MembersAlike (ExceptAt (redactedPlaces kind)) object object') :
    DetailsCoupled Eq library evidence options kind object object' := by
  intro identity
  have hdecoded : MembersAlike (ExceptAt (decodedPlaces kind)) object object' :=
    h.mono redacted_decoded
  cases kind with
  | container =>
      refine (coupled_containerDetails hdecoded
        (.of_eq (decodeContainerConfiguration_redacted hredact (h.lookup_place rfl)))
        (.of_eq (decodeContainerB3_redacted (h.lookup_place rfl)
          (h.lookup_same (by decide))))).map fun left right halike => ?_
      obtain ⟨hconfiguration, hcontrols, hothers⟩ := halike
      rw [← hconfiguration, ← hcontrols] at hothers
      exact congrArg NativeDetails.container hothers
  | image =>
      refine .of_eq ?_
      simp only [imageDetails, imageEnvironment_redacted hredact (h.lookup_place rfl),
        h.lookup_same (by decide : "Labels" ∉ _), h.lookup_same (by decide : "RepoTags" ∉ _),
        h.lookup_same (by decide : "RepoDigests" ∉ _), h.lookup_same (by decide : "Digest" ∉ _),
        h.lookup_same (by decide : "Created" ∉ _), h.lookup_same (by decide : "Author" ∉ _),
        h.lookup_same (by decide : "Architecture" ∉ _), h.lookup_same (by decide : "Os" ∉ _),
        h.lookup_same (by decide : "ManifestType" ∉ _)]
  | secret =>
      intro spec spec' hspec hspec'
      have halike : OptionsAlike (ObjectsAlike (ExceptAt redactedSpecPlaces))
          (lookup object "Spec") (lookup object' "Spec") := h.lookup_place rfl
      rw [hspec, hspec'] at halike
      cases halike with
      | some halike =>
          have hmembers : MembersAlike (ExceptAt redactedSpecPlaces) spec spec' :=
            halike.members (by simp [redactedSpecPlaces])
          refine .of_eq ?_
          simp only [secretDetails, h.isSome_lookup "SecretData",
            hmembers.isSome_lookup "SecretData", h.lookup_same (by decide : "CreatedAt" ∉ _),
            h.lookup_same (by decide : "UpdatedAt" ∉ _),
            hmembers.lookup_same (by decide : "Labels" ∉ _),
            hmembers.lookup_same (by decide : "Driver" ∉ _)]
  | pod | network | volume =>
      rw [h.eq_of_nil]
      exact .refl (fun _ => rfl) _

/-- With redaction documents that differ in redacted values are read as equal records. -/
theorem readsAlike_redacted {services : AcquisitionServices}
    (hredact : options.environmentValues = .redact) :
    ReadsAlike services options RedactedAlike Eq where
  refl _ := rfl
  kinds left right h := by rw [h]
  inspected listed evidence value value' h := by
    have hread : ∀ members members', MembersAlike (ExceptAt (redactedPlaces listed.kind)) members
        members' → MembersAlike (ExceptAt (decodedPlaces listed.kind)) members members' ∧
          DetailsCoupled Eq services.library evidence options listed.kind members members' :=
      fun members members' hmembers =>
        ⟨hmembers.mono redacted_decoded, detailsCoupled_redacted hredact hmembers⟩
    have hrefl : ∀ members, MembersAlike (ExceptAt (redactedPlaces listed.kind)) members members :=
      fun members => .refl (exceptAt_refl (redactedPlaces_refl _)) members
    cases h with
    | same value => exact .refl (fun members => hread _ _ (hrefl members)) _
    | @object members members' h =>
        by_cases hkind : listed.kind = .network
        · have hsame : members = members' := by
            rw [hkind] at h
            exact h.eq_of_nil
          rw [hsame]
          exact .refl (fun members => hread _ _ (hrefl members)) _
        · have hlegacy : isLegacyNetwork services.library listed evidence = false := by
            rw [isLegacyNetwork, beq_eq_false_iff_ne.mpr hkind, Bool.false_and]
          simp only [inspectObject, hlegacy]
          exact .pure (hread _ _ h)

end Redacted

section Noninterference
variable {m : Type → Type} [Monad m] [LawfulMonad m] {services : AcquisitionServices}
  {options : AcquisitionOptions} {send send' : LibpodPath → m (PodmanLensResult LibpodResponse)}

theorem eq_of_inspectedAlike {kind : ResourceKind} {left right : InspectedRecord kind}
    (h : InspectedAlike Eq left right) : left = right := by
  obtain ⟨⟨header, details, hkind⟩, limit, hlimit⟩ := left
  obtain ⟨⟨header', details', hkind'⟩, limit', hlimit'⟩ := right
  obtain ⟨⟨hheader, hdetails⟩, hlimits⟩ := h
  cases hheader
  cases hdetails
  cases hlimits
  rfl

theorem eq_of_sectionsAlike {left right : InspectedSection} (h : SectionsAlike Eq left right) :
    left = right := by
  cases h with
  | @mk kind availability records records' findings hempty hempty' h =>
      have hrecords := h.imp fun _ _ => eq_of_inspectedAlike
      rw [List.forall₂_eq_eq_eq] at hrecords
      cases hrecords
      rfl

/-- Redacted values do not show in the acquired inventory. -/
theorem acquireInventory_redacted (hredact : options.environmentValues = .redact)
    (h : TransportsAlike services RedactedAlike send send') :
    acquireInventory services send options = acquireInventory services send' options := by
  refine ((coupled_acquireInventory h (readsAlike_redacted hredact)).mono ?_).eq
  rintro left right (⟨code, rfl, rfl⟩ | ⟨service, sections, sections', hsections, rfl, rfl⟩)
  · rfl
  · have hsame : sections = sections' := by
      have hequal := hsections.imp fun _ _ => eq_of_sectionsAlike
      rwa [List.forall₂_eq_eq_eq] at hequal
    rw [hsame]

/-- Documents that differ in hidden values are read as alike records, under either policy. -/
theorem readsAlike_hidden : ReadsAlike services options DocumentsAlike DetailsAlike where
  refl details := ⟨rfl, rfl, rfl, rfl⟩
  kinds left right h := by
    have hkinds : ∀ details : NativeDetails, details.kind = details.observed.unlabelled.kind := by
      intro details
      cases details <;> rfl
    rw [hkinds, hkinds, h.observed]
  inspected listed evidence value value' h := by
    refine (coupled_inspectObject h).mono fun object object' hobject => ⟨hobject, ?_⟩
    intro identity
    generalize listed.kind = kind at hobject
    cases kind with
    | container =>
        exact (coupled_containerDetails hobject
          (coupled_decodeContainerConfiguration (hobject.lookup_place rfl))
          (coupled_decodeContainerB3 (hobject.lookup_place rfl)
            (hobject.lookup_place rfl))).map fun _ _ => ContainersAlike.details
    | pod => exact coupled_podDetails hobject
    | network => exact coupled_networkDetails rfl rfl (by decide) hobject
    | volume => exact coupled_volumeDetails hobject
    | image => exact coupled_imageDetails hobject
    | secret =>
        intro spec spec' hspec hspec'
        have halike : OptionsAlike (ObjectsAlike (ExceptAt hiddenSpecPlaces))
            (lookup object "Spec") (lookup object' "Spec") := hobject.lookup_place rfl
        rw [hspec, hspec'] at halike
        cases halike with
        | some halike =>
            refine coupled_secretDetails hobject (halike.members ?_)
            simp [hiddenSpecPlaces, ObjectsAlike.same]

/-- Hidden values do not show in the snapshot of the inventory. -/
theorem snapshot_acquireInventory (h : TransportsAlike services DocumentsAlike send send') :
    (fun acquired => acquired.map Snapshot.inventory) <$> acquireInventory services send options =
      (fun acquired => acquired.map Snapshot.inventory) <$>
        acquireInventory services send' options := by
  refine (coupled_acquireInventory h readsAlike_hidden).map_eq ?_
  rintro left right (⟨code, rfl, rfl⟩ | ⟨service, sections, sections', hsections, rfl, rfl⟩)
  · rfl
  · refine congrArg Except.ok ?_
    rw [Snapshot.inventory, Snapshot.inventory, snapshot_reconcileSections hsections]

end Noninterference

section Samples

/-- Two documents about one container, with different tokens and labels. -/
def tokenDocument (token tier : String) : Value :=
  .object [("Config", .object [("Env", .array [.string ("TOKEN" ++ "=" ++ token)]),
    ("Labels", .object [("tier", .string tier)])]), ("Id", .string "a")]

def tokenServices : AcquisitionServices where
  library := releaseLibrary
  fromSlice
    | [0] => some versionDocument
    | [1] => some (.array [.object [("Id", .string "a")]])
    | [2] => some (tokenDocument "first" "web")
    | [3] => some (tokenDocument "second" "web")
    | [4] => some (tokenDocument "second" "data")
    | _ => none

def tokenPath : LibpodPath := ⟨"/v6.1.0/libpod/containers/a/json"⟩

/-- The container is inspected to the given body, and every list is the same. -/
def tokenAnswers (body : List UInt8) (path : LibpodPath) : Id (PodmanLensResult LibpodResponse) :=
  pure (.ok (newestResponse (if path = tokenPath then body
    else if path.asStr = "/v4.0.0/libpod/version" then [0] else [1])))

theorem tokenAnswers_alike {documents : ResourceKind → Value → Value → Prop}
    {body body' : List UInt8} {value value' : Value}
    (hlength : body.length ≤ maxInventoryJsonBytes)
    (hlength' : body'.length ≤ maxInventoryJsonBytes)
    (hvalue : tokenServices.fromSlice body = some value)
    (hvalue' : tokenServices.fromSlice body' = some value') (h : documents .container value value') :
    TransportsAlike tokenServices documents (tokenAnswers body) (tokenAnswers body') := by
  have hpath : LibpodPath.resource "6.1.0" (ResourceKind.collection .container) "a"
      "json" = .ok tokenPath := by decide +kernel
  refine .of_one hpath (.pure ?_) fun other hother => ?_
  · exact .bodies rfl rfl hlength hlength' hvalue hvalue' h
  · simp only [tokenAnswers, if_neg hother]

theorem acquireInventory_redacted_sample :
    acquireInventory tokenServices (tokenAnswers [2]) ⟨.redact⟩ =
      acquireInventory tokenServices (tokenAnswers [3]) ⟨.redact⟩ := by
  refine acquireInventory_redacted rfl (tokenAnswers_alike (by decide) (by decide) rfl rfl ?_)
  refine .object (.cons ⟨rfl, ?_⟩ (.cons ⟨rfl, rfl⟩ .nil))
  refine .object (.cons ⟨rfl, ?_⟩ (.cons ⟨rfl, rfl⟩ .nil))
  exact .array (.cons (.assigned "first" "second" (by decide)) .nil)

theorem snapshot_acquireInventory_sample :
    (acquireInventory tokenServices (tokenAnswers [2]) ⟨.include⟩).run.map Snapshot.inventory =
      (acquireInventory tokenServices (tokenAnswers [4]) ⟨.include⟩).run.map
        Snapshot.inventory := by
  have hdocuments : DocumentsAlike .container (tokenDocument "first" "web")
      (tokenDocument "second" "data") := by
    refine .document (.object (.cons ⟨rfl, ?_⟩ (.cons ⟨rfl, rfl⟩ .nil)))
    refine .object (.cons ⟨rfl, ?_⟩ (.cons ⟨rfl, ?_⟩ .nil))
    · exact .array (.cons (.assigned "first" "second" (by decide)) .nil)
    · exact .object (.cons ⟨rfl, .string "web" "data"⟩ .nil)
  have halike : TransportsAlike tokenServices DocumentsAlike (tokenAnswers [2]) (tokenAnswers [4]) :=
    tokenAnswers_alike (by decide) (by decide) rfl rfl hdocuments
  have hsnapshots := congrArg Id.run (@snapshot_acquireInventory _ _ _ _ ⟨.include⟩ _ _ halike)
  rwa [Id.run_map, Id.run_map] at hsnapshots

end Samples

end PodmanLens
