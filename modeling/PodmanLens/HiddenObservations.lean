import PodmanLens.HiddenRecords

/-!
# Observations with hidden values

What two responses hide does not show in the header of an observation either: the identity, the
findings and the unknown fields are the same. Older network documents are brought into their later
form first, which keeps the whole document as one member.
-/

namespace PodmanLens
open Std Json Coupling

section Unknown
variable {value value' : Option Value} {path : String} {known : List String} {places : Places}

def KindsAlike (value value' : Value) : Prop := jsonValueKind value = jsonValueKind value'

theorem jsonValueKind_exceptAt
    (h : ∀ place ∈ places, place.1 ∉ known → ∀ value value', place.2 value value' →
      KindsAlike value value') {key : String} (hkey : key ∉ known) {value value' : Value}
    (hvalue : ExceptAt places key value value') : KindsAlike value value' := by
  rw [ExceptAt] at hvalue
  split at hvalue
  · next alike hlookup =>
      obtain ⟨before, after, hplaces, -⟩ := List.lookup_eq_some_iff.mp hlookup
      refine h (key, alike) ?_ hkey value value' hvalue
      rw [hplaces]
      exact List.mem_append_right _ List.mem_cons_self
  · exact congrArg jsonValueKind hvalue

/-- An unknown member is offered with its key and kind only. -/
theorem unknownObjectMembers_eq
    (hplaces : ∀ place ∈ places, place.1 ∉ known → ∀ value value', place.2 value value' →
      KindsAlike value value')
    (h : OptionsAlike (ObjectsAlike (ExceptAt places)) value value') :
    unknownObjectMembers value path known = unknownObjectMembers value' path known := by
  rcases optionsAlike_objects h with rfl | ⟨members, members', rfl, rfl, hmembers⟩
  · rfl
  · simp only [unknownObjectMembers, Option.bind_some, Value.asObject, Option.getD_some]
    induction hmembers with
    | nil => rfl
    | @cons member member' rest rest' hmember hrest ih =>
        obtain ⟨hkey, hvalue⟩ := hmember
        have hih := ih (.some (.object hrest))
        rw [List.filter_cons, List.filter_cons, ← hkey]
        by_cases hknown : member.1 ∈ known
        · rw [if_neg (by simpa using hknown), if_neg (by simpa using hknown)]
          exact hih
        · rw [if_pos (by simpa using hknown), if_pos (by simpa using hknown), List.map_cons,
            List.map_cons, hih, ← hkey, jsonValueKind_exceptAt hplaces hknown hvalue]

/-- Places that are all known hide nothing of the unknown members. -/
theorem knownPlaces (h : ∀ key ∈ places.map Prod.fst, key ∈ known) :
    ∀ place ∈ places, place.1 ∉ known → ∀ value value', place.2 value value' →
      KindsAlike value value' :=
  fun _ hplace hnot => absurd (h _ (List.mem_map_of_mem hplace)) hnot

theorem kindsAlike_objects {alike : String → Value → Value → Prop} {value value' : Value}
    (h : ObjectsAlike alike value value') : KindsAlike value value' := by
  cases h <;> rfl

theorem kindsAlike_arrays {alike : Value → Value → Prop} {value value' : Value}
    (h : ArraysAlike alike value value') : KindsAlike value value' := by
  cases h <;> rfl

theorem kindsAlike_strings {value value' : Value} (h : StringsAlike value value') :
    KindsAlike value value' := by
  cases h <;> rfl

/-- The hidden members of a configuration keep their JSON kinds. -/
theorem hiddenConfigPlaces_kinds : ∀ place ∈ hiddenConfigPlaces, ∀ value value',
    place.2 value value' → KindsAlike value value' := by
  simp only [hiddenConfigPlaces, List.forall_mem_cons, List.not_mem_nil, false_imp_iff,
    implies_true, and_true]
  exact ⟨fun _ _ => kindsAlike_objects, fun _ _ => kindsAlike_arrays, fun _ _ => kindsAlike_arrays,
    fun _ _ => kindsAlike_arrays, fun _ _ => kindsAlike_strings, fun _ _ => kindsAlike_strings,
    fun _ _ => kindsAlike_strings, fun _ _ => kindsAlike_objects, fun _ _ => kindsAlike_objects⟩

end Unknown

section Sites
variable {object object' : Members} {library : VersionLibrary} {evidence : ResourceEvidence}

theorem within_eq {places : Places} {key member : String}
    (h : OptionsAlike (ObjectsAlike (ExceptAt places)) (lookup object key) (lookup object' key))
    (hmember : member ∉ places.map Prod.fst) :
    within object key member = within object' key member := by
  rw [within, within]
  rcases optionsAlike_objects h with heq | ⟨members, members', heq, heq', hmembers⟩
  · rw [heq]
  · rw [heq, heq']
    exact hmembers.lookup_same hmember

theorem within_place {places : Places} {key member : String} {alike : Value → Value → Prop}
    (h : OptionsAlike (ObjectsAlike (ExceptAt places)) (lookup object key) (lookup object' key))
    (hrefl : ∀ value, alike value value) (hmember : places.lookup member = some alike) :
    OptionsAlike alike (within object key member) (within object' key member) := by
  rw [within, within]
  rcases optionsAlike_objects h with heq | ⟨members, members', heq, heq', hmembers⟩
  · exact optionsAlike_same hrefl (by rw [heq])
  · rw [heq, heq']
    exact hmembers.lookup_place hmember

theorem unknownContainerFields_eq
    (h : MembersAlike (ExceptAt hiddenContainerPlaces) object object') :
    unknownContainerFields object = unknownContainerFields object' := by
  have hconfig : OptionsAlike (ObjectsAlike (ExceptAt hiddenConfigPlaces)) (lookup object "Config")
      (lookup object' "Config") := h.lookup_place rfl
  have hhost : OptionsAlike (ObjectsAlike (ExceptAt hiddenHostPlaces)) (lookup object "HostConfig")
      (lookup object' "HostConfig") := h.lookup_place rfl
  have hattachments : unknownAttachments object = unknownAttachments object' := by
    rw [unknownAttachments, unknownAttachments, within, within,
      h.lookup_same (by decide : "NetworkSettings" ∉ _)]
  have hmembers : ∀ path known, (∀ key ∈ hiddenConfigPlaces.map Prod.fst, key ∈ known) →
      unknownObjectMembers (lookup object "Config") path known =
        unknownObjectMembers (lookup object' "Config") path known :=
    fun _ _ hknown => unknownObjectMembers_eq (knownPlaces hknown) hconfig
  have hhostMembers : ∀ path known, (∀ key ∈ hiddenHostPlaces.map Prod.fst, key ∈ known) →
      unknownObjectMembers (lookup object "HostConfig") path known =
        unknownObjectMembers (lookup object' "HostConfig") path known :=
    fun _ _ hknown => unknownObjectMembers_eq (knownPlaces hknown) hhost
  have hchecks : ∀ key, hiddenConfigPlaces.lookup key =
        some (ObjectsAlike (ExceptAt [("Test", CommandsAlike)])) →
      ∀ path known, "Test" ∈ known → unknownObjectMembers (within object "Config" key) path known =
        unknownObjectMembers (within object' "Config" key) path known := by
    intro key hkey path known hknown
    refine unknownObjectMembers_eq (knownPlaces ?_) (within_place hconfig .same hkey)
    simpa using hknown
  simp only [unknownContainerFields]
  rw [hattachments, hmembers _ _ (by decide), hhostMembers _ _ (by decide),
    hchecks "Healthcheck" rfl _ _ (by decide), hchecks "StartupHealthCheck" rfl _ _ (by decide),
    h.lookup_same (by decide : "NetworkSettings" ∉ _), h.lookup_same (by decide : "Mounts" ∉ _),
    within_eq hconfig (by decide : "Secrets" ∉ _), within_eq hhost (by decide : "RestartPolicy" ∉ _),
    within_eq hhost (by decide : "LogConfig" ∉ _), within_eq hhost (by decide : "Ulimits" ∉ _)]

/-- The hidden members of a document. Older network documents have their labels among arguments. -/
def documentPlaces : ResourceKind → Places
  | .network => ("args", KindsAlike) :: hiddenPlaces .network
  | kind => hiddenPlaces kind

/-- The hidden members of the decoded form, in which an older network document is one member. -/
def decodedPlaces : ResourceKind → Places
  | .network => ("CniConfig", KindsAlike) :: documentPlaces .network
  | kind => documentPlaces kind

theorem unknownNestedFields_eq {kind : ResourceKind}
    (h : MembersAlike (ExceptAt (decodedPlaces kind)) object object') :
    unknownNestedFields library evidence kind object =
      unknownNestedFields library evidence kind object' := by
  cases kind with
  | container => exact unknownContainerFields_eq h
  | pod =>
      simp only [unknownNestedFields, unknownPodFields]
      rw [h.lookup_same (by decide : "Containers" ∉ _), h.lookup_same (by decide : "InfraConfig" ∉ _)]
  | network =>
      simp only [unknownNestedFields, unknownNetworkNestedFields]
      rw [h.lookup_same (by decide : "subnets" ∉ _), h.lookup_same (by decide : "routes" ∉ _)]
  | volume => rfl
  | image =>
      have hconfig : OptionsAlike (ObjectsAlike (ExceptAt hiddenConfigPlaces))
          (lookup object "Config") (lookup object' "Config") := h.lookup_place rfl
      have hkinds : unknownObjectMembers (lookup object "Config") "$.Config" ["Env"] =
          unknownObjectMembers (lookup object' "Config") "$.Config" ["Env"] :=
        unknownObjectMembers_eq (fun place hplace _ => hiddenConfigPlaces_kinds place hplace) hconfig
      simp only [unknownNestedFields, hkinds]
  | secret =>
      have hspec : OptionsAlike (ObjectsAlike (ExceptAt hiddenSpecPlaces)) (lookup object "Spec")
          (lookup object' "Spec") := h.lookup_place rfl
      have hmembers : ∀ path known, (∀ key ∈ hiddenSpecPlaces.map Prod.fst, key ∈ known) →
          unknownObjectMembers (lookup object "Spec") path known =
            unknownObjectMembers (lookup object' "Spec") path known :=
        fun _ _ hknown => unknownObjectMembers_eq (knownPlaces hknown) hspec
      have hdriver : ∀ path known, "Options" ∈ known →
          unknownObjectMembers (within object "Spec" "Driver") path known =
            unknownObjectMembers (within object' "Spec" "Driver") path known := by
        intro path known hknown
        refine unknownObjectMembers_eq (knownPlaces ?_) (within_place hspec .same
          (rfl : hiddenSpecPlaces.lookup "Driver" = _))
        simpa using hknown
      simp only [unknownNestedFields, unknownSecretFields]
      rw [hmembers _ _ (by decide), hdriver _ _ (by decide)]

theorem unknownTopLevel_eq {kind : ResourceKind} {known : List String}
    (h : MembersAlike (ExceptAt (decodedPlaces kind)) object object')
    (hknown : ∀ key ∈ (hiddenPlaces kind).map Prod.fst, key ∈ known) :
    unknownTopLevel kind object known = unknownTopLevel kind object' known := by
  have hplaces : ∀ place ∈ decodedPlaces kind,
      place.1 ∉ known ++ runtimeOnlyTopLevelFields kind →
        ∀ value value', place.2 value value' → KindsAlike value value' := by
    intro place hplace hnot
    have hhidden : place ∉ hiddenPlaces kind := fun hmem =>
      hnot (List.mem_append_left _ (hknown _ (List.mem_map_of_mem hmem)))
    cases kind with
    | network =>
        rcases List.mem_cons.mp hplace with rfl | hplace
        · exact fun _ _ hkinds => hkinds
        · rcases List.mem_cons.mp hplace with rfl | hplace
          · exact fun _ _ hkinds => hkinds
          · exact absurd hplace hhidden
    | container | pod | volume | image | secret => exact absurd hplace hhidden
  exact congrArg UnknownSite.members (unknownObjectMembers_eq hplaces (.some (.object h)))

end Sites

section Kinds
variable {listed : ResourceIdentity} {object object' : Members} {library : VersionLibrary}
  {evidence : ResourceEvidence} {options : AcquisitionOptions}
  {alike : NativeDetails → NativeDetails → Prop}

/-- The decoder of the kind reads both objects as alike. -/
def DetailsCoupled (alike : NativeDetails → NativeDetails → Prop) (library : VersionLibrary)
    (evidence : ResourceEvidence) (options : AcquisitionOptions) (kind : ResourceKind)
    (object object' : Members) : Prop :=
  ∀ identity, match kind with
    | .container => Coupled alike (.container <$> containerDetails identity object options evidence)
        (.container <$> containerDetails identity object' options evidence)
    | .pod => Coupled alike (.pod <$> podDetails identity object library evidence)
        (.pod <$> podDetails identity object' library evidence)
    | .network => Coupled alike (.network <$> networkDetails identity object library evidence)
        (.network <$> networkDetails identity object' library evidence)
    | .volume => Coupled alike (.volume <$> volumeDetails identity object)
        (.volume <$> volumeDetails identity object')
    | .image => Coupled alike (.image <$> imageDetails identity object options)
        (.image <$> imageDetails identity object' options)
    | .secret => ∀ spec spec', lookup object "Spec" = some (.object spec) →
        lookup object' "Spec" = some (.object spec') →
          Coupled alike (.secret <$> secretDetails identity object spec)
            (.secret <$> secretDetails identity object' spec')

/-- Records about the same resource, with the same notes and the same unknown members. -/
structure DecodedAlike (alike : NativeDetails → NativeDetails → Prop) (kind : ResourceKind)
    (object object' : Members) (decoded decoded' : Decoded) : Prop where
  identity : decoded.identity = decoded'.identity
  topLevel : unknownTopLevel kind object decoded.known = unknownTopLevel kind object' decoded'.known
  details : Coupled alike decoded.details decoded'.details

theorem optionalStringAny_eq {keys : List String}
    (h : ∀ key ∈ keys, lookup object key = lookup object' key) :
    optionalStringAny object keys = optionalStringAny object' keys := by
  induction keys with
  | nil => rfl
  | cons key keys ih =>
      obtain ⟨hkey, hkeys⟩ := List.forall_mem_cons.mp h
      have hrest := ih hkeys
      rw [optionalStringAny, optionalStringAny] at hrest
      rw [optionalStringAny, optionalStringAny, List.findSome?_cons, List.findSome?_cons, hrest,
        optionalString, optionalString, hkey]

theorem identityFromInspect_eq {idKeys nameKeys : List String}
    (hids : ∀ key ∈ idKeys, lookup object key = lookup object' key)
    (hnames : listed.kind ≠ .secret → ∀ key ∈ nameKeys, lookup object key = lookup object' key)
    (hsecret : listed.kind = .secret → secretName object = secretName object') :
    identityFromInspect listed object idKeys nameKeys =
      identityFromInspect listed object' idKeys nameKeys := by
  rw [identityFromInspect, identityFromInspect, requiredStringAny, requiredStringAny,
    optionalStringAny_eq hids]
  by_cases hkind : listed.kind = .secret
  · simp only [hkind, if_true, hsecret hkind]
  · simp only [hkind, if_false, optionalStringAny_eq (hnames hkind)]

theorem secretName_eq (h : MembersAlike (ExceptAt (hiddenPlaces .secret)) object object') :
    secretName object = secretName object' := by
  have hspec : OptionsAlike (ObjectsAlike (ExceptAt hiddenSpecPlaces)) (lookup object "Spec")
      (lookup object' "Spec") := h.lookup_place rfl
  rw [secretName, secretName]
  rcases optionsAlike_objects hspec with heq | ⟨spec, spec', heq, heq', hmembers⟩
  · rw [heq]
  · rw [heq, heq']
    exact congrArg (Option.bind · Value.asNonEmptyStr) (hmembers.lookup_same (by decide))

theorem coupled_decoded (kind : ResourceKind) {id : String} {name : Option String}
    (hkind : kind ≠ .secret) {idKeys nameKeys known : List String}
    {reader reader' : ResourceIdentity → Decoder NativeDetails}
    (h : MembersAlike (ExceptAt (decodedPlaces kind)) object object')
    (hkeys : ∀ key ∈ idKeys ++ nameKeys, key ∉ (decodedPlaces kind).map Prod.fst)
    (hknown : ∀ key ∈ (hiddenPlaces kind).map Prod.fst, key ∈ known)
    (hreader : ∀ identity, Coupled alike (reader identity) (reader' identity)) :
    Coupled (DecodedAlike alike kind object object')
      (do
        let identity ← identityFromInspect ⟨kind, id, name⟩ object idKeys nameKeys
        return ⟨identity, reader identity, known⟩)
      (do
        let identity ← identityFromInspect ⟨kind, id, name⟩ object' idKeys nameKeys
        return ⟨identity, reader' identity, known⟩) := by
  rw [identityFromInspect_eq]
  · exact .bind_same fun identity => .pure ⟨rfl, unknownTopLevel_eq h hknown, hreader identity⟩
  · exact fun key hkey => h.lookup_same (hkeys key (List.mem_append_left _ hkey))
  · exact fun _ key hkey => h.lookup_same (hkeys key (List.mem_append_right _ hkey))
  · exact fun hsecret => absurd hsecret hkind

theorem coupled_decodeSecret {id : String} {name : Option String}
    (h : MembersAlike (ExceptAt (hiddenPlaces .secret)) object object')
    (hdetails : DetailsCoupled alike library evidence options .secret object object') :
    Coupled (DecodedAlike alike .secret object object') (decodeSecret ⟨.secret, id, name⟩ object)
      (decodeSecret ⟨.secret, id, name⟩ object') := by
  have hspec : OptionsAlike (ObjectsAlike (ExceptAt hiddenSpecPlaces)) (lookup object "Spec")
      (lookup object' "Spec") := h.lookup_place rfl
  have htop : unknownTopLevel .secret object ["ID", "CreatedAt", "UpdatedAt", "Spec", "SecretData"] =
      unknownTopLevel .secret object' ["ID", "CreatedAt", "UpdatedAt", "Spec", "SecretData"] :=
    unknownTopLevel_eq h (by decide)
  have hidentity : identityFromInspect ⟨.secret, id, name⟩ object ["ID"] ["Spec"] =
      identityFromInspect ⟨.secret, id, name⟩ object' ["ID"] ["Spec"] := by
    refine identityFromInspect_eq ?_ (fun hkind => absurd rfl hkind) fun _ => secretName_eq h
    exact List.forall_mem_singleton.mpr (h.lookup_same (by decide))
  simp only [decodeSecret]
  rw [hidentity]
  refine .bind_same fun identity => ?_
  rcases optionsAlike_objects hspec with heq | ⟨spec, spec', heq, heq', -⟩
  · rw [heq]
    cases hfound : (lookup object' "Spec").bind Value.asObject with
    | none => exact coupled_except.mpr (.inl ⟨_, rfl, rfl⟩)
    | some spec =>
        obtain ⟨value, hvalue, hobject⟩ := Option.bind_eq_some_iff.mp hfound
        cases value with
        | object members =>
            cases hobject
            refine .pure ⟨rfl, htop, ?_⟩
            exact hdetails identity spec spec (heq.trans hvalue) hvalue
        | null | bool _ | number _ | string _ | array _ => cases hobject
  · rw [heq, heq']
    exact .pure ⟨rfl, htop, hdetails identity spec spec' heq heq'⟩

/-- Both objects are decoded as records about the same resource, with the same notes. -/
theorem coupled_decodeKind (h : MembersAlike (ExceptAt (decodedPlaces listed.kind)) object object')
    (hdetails : DetailsCoupled alike library evidence options listed.kind object object') :
    Coupled (DecodedAlike alike listed.kind object object')
      (decodeKind listed object library evidence options)
      (decodeKind listed object' library evidence options) := by
  obtain ⟨kind, id, name⟩ := listed
  cases kind with
  | container => exact coupled_decoded .container (by decide) h (by decide) (by decide) hdetails
  | pod => exact coupled_decoded .pod (by decide) h (by decide) (by decide) hdetails
  | network => exact coupled_decoded .network (by decide) h (by decide) (by decide) hdetails
  | volume => exact coupled_decoded .volume (by decide) h (by decide) (by decide) hdetails
  | image => exact coupled_decoded .image (by decide) h (by decide) (by decide) hdetails
  | secret => exact coupled_decodeSecret h hdetails

end Kinds

section Observations
variable {listed : ResourceIdentity} {object object' : Members} {library : VersionLibrary}
  {evidence : ResourceEvidence} {options : AcquisitionOptions} {limit : ℕ}
  {alike : NativeDetails → NativeDetails → Prop}

/-- Observations with the same header and alike details. -/
structure RecordsAlike (alike : NativeDetails → NativeDetails → Prop)
    (left right : NativeObservation) : Prop where
  header : left.header = right.header
  details : alike left.details right.details

theorem coupled_tryNew (header : ObservationHeader) {left right : NativeDetails}
    (hkind : left.kind = right.kind) (h : alike left right) :
    Coupled (RecordsAlike alike) (NativeObservation.tryNew header left)
      (NativeObservation.tryNew header right) := by
  rw [NativeObservation.tryNew, NativeObservation.tryNew]
  by_cases hagrees : header.identity.kind = left.kind
  · rw [dif_pos hagrees, dif_pos (hagrees.trans hkind)]
    exact .pure ⟨rfl, h⟩
  · rw [dif_neg hagrees, dif_neg fun hagrees' => hagrees (hagrees'.trans hkind.symm)]
    exact coupled_except.mpr (.inl ⟨_, rfl, rfl⟩)

theorem coupled_observeObject (hkinds : ∀ left right, alike left right → left.kind = right.kind)
    (h : MembersAlike (ExceptAt (decodedPlaces listed.kind)) object object')
    (hdetails : DetailsCoupled alike library evidence options listed.kind object object') :
    Coupled (RecordsAlike alike) (observeObject library listed object evidence options limit)
      (observeObject library listed object' evidence options limit) := by
  rw [observeObject, observeObject]
  refine (coupled_decodeKind h hdetails).bind fun decoded decoded' hdecoded => ?_
  obtain ⟨hnotes, halike⟩ := coupled_noted.mp hdecoded.details
  have hsites : unknownFieldSites library listed.kind object evidence decoded =
      unknownFieldSites library listed.kind object' evidence decoded' := by
    rw [unknownFieldSites, unknownFieldSites, hdecoded.topLevel, unknownNestedFields_eq h, hnotes]
  rw [hsites, hnotes, hdecoded.identity]
  exact coupled_tryNew _ (hkinds _ _ halike) halike

end Observations

section Documents
variable {kind : ResourceKind} {value value' : Value}

/-- Documents about a resource that differ in hidden members only. An older service lists the
document of a network as the only element of an array. -/
inductive DocumentsAlike (kind : ResourceKind) : Value → Value → Prop
  | document {value value' : Value} (h : ObjectsAlike (ExceptAt (documentPlaces kind)) value value') :
      DocumentsAlike kind value value'
  | element (hkind : kind = .network) {value value' : Value}
      (h : ObjectsAlike (ExceptAt (documentPlaces kind)) value value') :
      DocumentsAlike kind (.array [value]) (.array [value'])

theorem insert_alike {alike : String → Value → Value → Prop} {members members' : Members}
    (h : MembersAlike alike members members') {key : String} (hvalue : alike key value value') :
    MembersAlike alike (Json.insert members key value) (Json.insert members' key value') := by
  induction h with
  | nil => exact .cons ⟨rfl, hvalue⟩ .nil
  | @cons member member' rest rest' hmember hrest ih =>
      obtain ⟨other, found⟩ := member
      obtain ⟨other', found'⟩ := member'
      obtain ⟨hkey, hfound⟩ := hmember
      cases hkey
      simp only [Json.insert]
      cases compare key other with
      | lt => exact .cons ⟨rfl, hvalue⟩ (.cons ⟨rfl, hfound⟩ hrest)
      | eq => exact .cons ⟨rfl, hvalue⟩ hrest
      | gt => exact .cons ⟨rfl, hfound⟩ ih

theorem insertSome_alike {alike : String → Value → Value → Prop} {members members' : Members}
    (h : MembersAlike alike members members') {key : String} (hrefl : ∀ value, alike key value value)
    (value : Option Value) :
    MembersAlike alike (insertSome members key value) (insertSome members' key value) := by
  cases value with
  | none => exact h
  | some value => exact insert_alike h (hrefl value)

theorem decodedPlaces_refl (kind : ResourceKind) :
    ∀ place ∈ decodedPlaces kind, ∀ value, place.2 value value := by
  cases kind <;>
    simp [decodedPlaces, documentPlaces, hiddenPlaces, hiddenContainerPlaces, KindsAlike,
      ObjectsAlike.same]

theorem document_decoded {key : String} (h : ExceptAt (documentPlaces kind) key value value') :
    ExceptAt (decodedPlaces kind) key value value' := by
  cases kind with
  | network =>
      refine exceptAt_mono (decodedPlaces_refl .network) (fun place hplace => ?_) h
      simp only [documentPlaces, hiddenPlaces, List.mem_cons, List.not_mem_nil, or_false] at hplace
      rcases hplace with rfl | rfl | rfl
      · exact ⟨KindsAlike, rfl, fun _ _ hkinds => hkinds⟩
      · exact ⟨TextsAlike, rfl, fun _ _ htexts => htexts⟩
      · exact ⟨TextsAlike, rfl, fun _ _ htexts => htexts⟩
  | container | pod | volume | image | secret => exact h

variable {configuration configuration' : Members}

/-- Both documents are normalized alike, for nothing hidden is promoted. -/
theorem coupled_normalizedConfiguration
    (h : MembersAlike (ExceptAt (documentPlaces .network)) configuration configuration') :
    Coupled (ObjectsAlike (ExceptAt (decodedPlaces .network)))
      (normalizedConfiguration configuration) (normalizedConfiguration configuration') := by
  have hname : requiredStringAny configuration ["name"] =
      requiredStringAny configuration' ["name"] := by
    rw [requiredStringAny, requiredStringAny, optionalStringAny_eq]
    exact List.forall_mem_singleton.mpr (h.lookup_same (by decide))
  simp only [normalizedConfiguration]
  rw [hname, elementsOf, elementsOf, h.lookup_same (by decide : "plugins" ∉ _)]
  refine .bind_same fun name => .pure (.object ?_)
  have hrefl : ∀ key value, ExceptAt (decodedPlaces .network) key value value :=
    exceptAt_refl (decodedPlaces_refl .network)
  refine insertSome_alike (insertSome_alike ?_ (hrefl _) _) (hrefl _) _
  rw [ofPairs, ofPairs]
  simp only [List.foldl_cons, List.foldl_nil]
  exact insert_alike (insert_alike (insert_alike .nil (hrefl _ _)) (hrefl _ _)) rfl

/-- Values that are read as alike objects, or both as none. -/
def ReadAlike (kind : ResourceKind) (value value' : Value) : Prop :=
  Option.Rel (MembersAlike (ExceptAt (decodedPlaces kind))) value.asObject value'.asObject

theorem ReadAlike.of_objects (h : ObjectsAlike (ExceptAt (decodedPlaces kind)) value value') :
    ReadAlike kind value value' := by
  cases h with
  | same value =>
      rw [ReadAlike]
      generalize value.asObject = members
      cases members with
      | none => exact .none
      | some members => exact .some (.refl (exceptAt_refl (decodedPlaces_refl kind)) members)
  | object h => exact .some h

theorem ReadAlike.refl (value : Value) : ReadAlike kind value value := .of_objects (.same value)

theorem ReadAlike.of_document (h : ObjectsAlike (ExceptAt (documentPlaces kind)) value value') :
    ReadAlike kind value value' := by
  cases h with
  | same value => exact .refl value
  | object h => exact .some (h.mono fun _ _ _ => document_decoded)

theorem coupled_normalizeLegacyCniNetwork (h : DocumentsAlike .network value value') :
    Coupled (ReadAlike .network) (normalizeLegacyCniNetwork value)
      (normalizeLegacyCniNetwork value') := by
  cases h with
  | document h =>
      cases h with
      | same value => exact .refl .refl _
      | @object configuration configuration' h =>
          simp only [normalizeLegacyCniNetwork]
          rw [h.isSome_lookup "cniVersion"]
          split_ifs
          · exact (coupled_normalizedConfiguration h).mono fun _ _ => .of_objects
          · exact .pure (.of_document (.object h))
  | element _ h =>
      cases h with
      | same value => exact .refl .refl _
      | object h => exact (coupled_normalizedConfiguration h).mono fun _ _ => .of_objects

/-- A response is normalized if it is older, and must then be an object. -/
theorem inspectObject_eq (library : VersionLibrary) (listed : ResourceIdentity)
    (evidence : ResourceEvidence) (value : Value) :
    inspectObject library listed evidence value =
      (if isLegacyNetwork library listed evidence then normalizeLegacyCniNetwork value
        else .ok value) >>= fun found => found.asObject.elim (.error .inventoryShape) .ok := by
  rw [inspectObject]
  split_ifs
  · cases normalizeLegacyCniNetwork value with
    | error code => rfl
    | ok found =>
        dsimp only [bind, Except.bind]
        cases found.asObject <;> rfl
  · dsimp only [bind, Except.bind]
    cases value.asObject <;> rfl

theorem coupled_inspectObject {library : VersionLibrary} {listed : ResourceIdentity}
    {evidence : ResourceEvidence} (h : DocumentsAlike listed.kind value value') :
    Coupled (MembersAlike (ExceptAt (decodedPlaces listed.kind)))
      (inspectObject library listed evidence value)
      (inspectObject library listed evidence value') := by
  have hread : Coupled (ReadAlike listed.kind)
      (if isLegacyNetwork library listed evidence then normalizeLegacyCniNetwork value
        else .ok value)
      (if isLegacyNetwork library listed evidence then normalizeLegacyCniNetwork value'
        else .ok value') := by
    split_ifs with hlegacy
    · have hkind : listed.kind = .network := by
        rw [isLegacyNetwork, Bool.and_eq_true, beq_iff_eq] at hlegacy
        exact hlegacy.1
      rw [hkind] at h ⊢
      exact coupled_normalizeLegacyCniNetwork h
    · refine .pure ?_
      cases h with
      | document h => exact .of_document h
      | element _ _ => exact .none
  rw [inspectObject_eq, inspectObject_eq]
  refine hread.bind fun found found' hfound => ?_
  rw [ReadAlike] at hfound
  generalize found.asObject = members, found'.asObject = members' at hfound ⊢
  cases hfound with
  | none => exact coupled_except.mpr (.inl ⟨_, rfl, rfl⟩)
  | some hfound => exact .pure hfound

end Documents

section Responses
variable {kind : ResourceKind} {fromSlice : JsonReader} {library : VersionLibrary}
  {listed : ResourceIdentity} {evidence : ResourceEvidence}

/-- Answers with the same status and headers, whose bodies are accepted and are alike. -/
inductive AnswersAlike (fromSlice : JsonReader) (alike : Value → Value → Prop) :
    PodmanLensResult LibpodResponse → PodmanLensResult LibpodResponse → Prop
  | same (answer : PodmanLensResult LibpodResponse) : AnswersAlike fromSlice alike answer answer
  | bodies {response response' : LibpodResponse} {value value' : Value}
      (hstatus : response.status = response'.status)
      (hheaders : response.headers = response'.headers)
      (hlength : response.body.length ≤ maxInventoryJsonBytes)
      (hlength' : response'.body.length ≤ maxInventoryJsonBytes)
      (hvalue : fromSlice response.body = some value)
      (hvalue' : fromSlice response'.body = some value') (h : alike value value') :
      AnswersAlike fromSlice alike (.ok response) (.ok response')

theorem requireOkJson_eq {response response' : LibpodResponse}
    (hstatus : response.status = response'.status)
    (hheaders : response.headers = response'.headers) :
    requireOkJson response = requireOkJson response' := by
  rw [requireOkJson, requireOkJson, hstatus, hheaders]

theorem decodeJson_of_some {body : List UInt8} {value : Value}
    (hlength : body.length ≤ maxInventoryJsonBytes) (hvalue : fromSlice body = some value) :
    decodeJson fromSlice body = .ok value := by
  rw [decodeJson, if_neg (Nat.not_lt.mpr hlength), hvalue]

/-- What follows the decoding of a body continues as coupled runs. -/
theorem coupled_decodedBody {α β : Type} {same : α → β → Prop}
    {response response' : LibpodResponse} {value value' : Value}
    (hstatus : response.status = response'.status)
    (hheaders : response.headers = response'.headers)
    (hlength : response.body.length ≤ maxInventoryJsonBytes)
    (hlength' : response'.body.length ≤ maxInventoryJsonBytes)
    (hvalue : fromSlice response.body = some value)
    (hvalue' : fromSlice response'.body = some value')
    {next : Value → PodmanLensResult α} {next' : Value → PodmanLensResult β}
    (hnext : Coupled same (next value) (next' value')) :
    Coupled same (do requireOkJson response; next (← decodeJson fromSlice response.body))
      (do requireOkJson response'; next' (← decodeJson fromSlice response'.body)) := by
  rw [requireOkJson_eq hstatus hheaders, decodeJson_of_some hlength hvalue,
    decodeJson_of_some hlength' hvalue']
  exact .bind_same fun _ => hnext

end Responses

end PodmanLens
