import PodmanLens.AccountedMembers
import PodmanLens.VersionCatalogue

/-!
# Accounted observations

The parts of each kind of record together: what a decoder leaves unmodelled is offered by the walk
through the unknown fields. A record with complete metadata retains all that the walk offers, and
with that every unmodelled member of its details.
-/

namespace PodmanLens
open Json Text

section Details
variable {retains : UnmodelledFieldId → String → Prop} {identity : ResourceIdentity}
  {object : Members} {value : Option Value} {path place : String}

theorem accounted_unlessPodded (podMembership : ObservationField NativeResourceReference) :
    AccountedFor retains ((unlessPodded podMembership (decodeContainerNetworks identity object)
      ⟨.notApplicable, [], .default⟩).value.field.memberAt place) := by
  rw [unlessPodded]
  split_ifs
  · exact accounted_networks
  · exact accounted_of_ne fun _ => nofun

theorem accounted_unlessPodded_attachments
    (podMembership : ObservationField NativeResourceReference) :
    AccountedFor retains ((unlessPodded podMembership
      (decodeContainerNetworkAttachments identity object) .notApplicable).value.membersAt place
        fun attachments => attachments.flatMap attachmentStates) := by
  rw [unlessPodded]
  split_ifs
  · exact accounted_attachments
  · exact accounted_notApplicable

theorem accounted_containerDetails {options : AcquisitionOptions} {evidence : ResourceEvidence}
    (hnotes : NotesRetained retains (containerDetails identity object options evidence).notes)
    (hentries : ∀ hostConfig, lookup object "HostConfig" = some (.object hostConfig) →
      (lookup hostConfig "ExtraHosts").isSome →
        retains .containerHostConfig (hostConfigKeys.front ++ hostConfigKeys.hostEntries)) :
    AccountedFor (MemberRetained retains object)
      (containerStates (containerDetails identity object options evidence).value) := by
  simp only [containerDetails, Noted.notes_bind, notesRetained_append] at hnotes
  simp only [containerDetails, Noted.value_bind, Noted.value_pure, containerStates,
    accounted_append]
  obtain ⟨-, -, -, -, -, -, -, -, -, -, -, -, hcontrols, -⟩ := hnotes
  refine ⟨⟨⟨⟨⟨⟨⟨⟨⟨⟨⟨⟨?_, accounted_controls hcontrols⟩, ?_⟩, ?_⟩, ?_⟩, ?_⟩, ?_⟩, ?_⟩, ?_⟩, ?_⟩, ?_⟩,
    ?networking⟩, ?_⟩
  · exact accounted_configuration _
  · exact accounted_scalarField _
  · exact accounted_scalarField _
  · exact accounted_relationshipField _ _
  · exact accounted_decodeNativeReference
  · exact accounted_decodeNativeDependencies
  · exact accounted_mounts
  · exact accounted_secretGrants
  · exact accounted_decodeMemorySwappiness _
  · exact accounted_scalarField _
  case networking =>
    refine accounted_containerNetworking (fun hostConfig hobject hsome => ?_)
      (accounted_unlessPodded _) (accounted_unlessPodded_attachments _)
    exact .of_other (by decide) (hentries hostConfig hobject hsome)
  · exact accounted_creationEvidence _ _ _

variable {library : VersionLibrary} {evidence : ResourceEvidence}

theorem accounted_podDetails
    (hentries : ∀ config, lookup object "InfraConfig" = some (.object config) →
      (lookup config "HostAdd").isSome →
        retains .podInfraConfig (infraConfigKeys.front ++ infraConfigKeys.hostEntries)) :
    AccountedFor retains (podStates (podDetails identity object library evidence).value) := by
  have hpod : AccountedFor retains (_ ++ (decodePodNetworking identity library evidence
      object).value.networking.membersAt "$.InfraConfig" (networkingStates infraConfigKeys)) :=
    accounted_podNetworking hentries
  obtain ⟨hcreate, hnetworking⟩ := accounted_append.mp hpod
  simp only [podDetails, Noted.value_bind, Noted.value_pure, podStates, accounted_append]
  refine ⟨⟨⟨?_, ?_⟩, hcreate⟩, hnetworking⟩
  · exact accounted_stringMapField _
  · exact accounted_relationshipField _ _

theorem accounted_nativeCidrField {required : Bool} :
    AccountedFor retains ((nativeCidrField identity value path required).value.memberAt place) := by
  refine accounted_of_ne fun id => ?_
  unfold nativeCidrField
  split
  · split
    · exact nofun
    · exact nofun
  · split_ifs
    · exact nofun
    · exact nofun
  · split_ifs
    · exact nofun
    · exact nofun
  · exact nofun

theorem accounted_leaseRange {cidr : Option NativeNetworkCidr} :
    AccountedFor retains ((nativeLeaseRangeField identity value cidr path).value.membersAt place
      (leaseRangeStates place)) := by
  unfold nativeLeaseRangeField
  split
  · exact accounted_absent
  · exact accounted_absent
  · simp only [Noted.value_bind]
    split_ifs
    · exact accounted_malformed
    · exact accounted_malformed
    · exact accounted_observed (accounted_append.mpr
        ⟨accounted_scalarField _, accounted_scalarField _⟩)
  · exact accounted_malformed

theorem accounted_nativeNetworkSubnet {entry : Value × ℕ} {decoded : NativeNetworkSubnetObservation}
    (h : (nativeNetworkSubnet identity entry).value = some decoded) :
    AccountedFor retains (subnetStates place decoded) := by
  rw [nativeNetworkSubnet] at h
  split at h
  · cases h
  · simp only [Noted.value_bind] at h
    split at h
    all_goals
      simp only [Noted.value_bind, Noted.value_pure] at h
      obtain ⟨-, h⟩ := Option.ite_none_left_eq_some.mp h
      cases h
      simp only [subnetStates, accounted_append]
      exact ⟨⟨accounted_nativeCidrField, accounted_scalarField _⟩, accounted_leaseRange⟩

theorem accounted_subnets :
    AccountedFor retains ((decodeNativeNetworkSubnets identity value).value.membersAt "$.subnets"
      (elementStates "$.subnets" subnetStates)) := by
  rw [decodeNativeNetworkSubnets]
  split
  · exact accounted_absent
  · rw [Noted.value_bind, Noted.value_pure, Noted.value_mapM]
    refine accounted_elementsField fun index decoded hdecoded => ?_
    rw [List.getElem?_map, Option.map_eq_some_iff] at hdecoded
    obtain ⟨entry, -, hentry⟩ := hdecoded
    exact accounted_nativeNetworkSubnet hentry
  · exact accounted_malformed

/-- An unmodelled route type is one that the loop over the route types offers. -/
theorem accounted_nativeRouteTypeField {route : Members} {entry : Value × ℕ}
    (hroute : entry.1.asObject = some route)
    (hoffered : ∀ found, unsupportedRouteType library evidence entry = some found →
      retains .networkRoute found.1) :
    AccountedFor retains ((nativeRouteTypeField identity library evidence (lookup route "route_type")
      path).value.memberAt (elementPath "$.routes" entry.2 ++ ".route_type")) := by
  unfold nativeRouteTypeField
  split_ifs with havailable
  · exact accounted_of_ne fun _ h => (by cases h)
  · split
    · exact accounted_of_ne fun _ h => (by cases h)
    · exact accounted_of_ne fun _ h => (by cases h)
    · next name hname =>
        split
        · exact accounted_of_ne fun _ h => (by cases h)
        · next hunknown =>
            rw [accounted_memberAt]
            rintro id ⟨⟩
            have hmember : unsupportedRouteType library evidence entry =
                some (elementPath "$.routes" entry.2 ++ ".route_type", .string) := by
              simp [unsupportedRouteType, hroute, hname, Value.asStr, hunknown, jsonValueKind]
            exact hoffered _ hmember
    · exact accounted_of_ne fun _ h => (by cases h)

theorem accounted_nativeNetworkRoute {entry : Value × ℕ} {decoded : NativeNetworkRouteObservation}
    (hoffered : ∀ found, unsupportedRouteType library evidence entry = some found →
      retains .networkRoute found.1)
    (h : (nativeNetworkRoute identity library evidence entry).value = some decoded) :
    AccountedFor retains (routeStates (elementPath "$.routes" entry.2) decoded) := by
  rw [nativeNetworkRoute] at h
  split at h
  · cases h
  · next route hroute =>
      simp only [Noted.value_bind] at h
      split at h
      all_goals
        simp only [Noted.value_bind, Noted.value_pure] at h
        obtain ⟨-, h⟩ := Option.ite_none_left_eq_some.mp h
        cases h
        simp only [routeStates, accounted_append]
        exact ⟨⟨⟨accounted_nativeCidrField, accounted_scalarField _⟩, accounted_scalarField _⟩,
          accounted_nativeRouteTypeField hroute hoffered⟩

theorem accounted_routes
    (hoffered : ∀ entry ∈ arrayElements value, ∀ found,
      unsupportedRouteType library evidence entry = some found → retains .networkRoute found.1) :
    AccountedFor retains ((decodeNativeNetworkRoutes identity library evidence value).value.membersAt
      "$.routes" (elementStates "$.routes" routeStates)) := by
  rw [decodeNativeNetworkRoutes]
  split
  · exact accounted_absent
  · next values hvalues =>
      rw [Noted.value_bind, Noted.value_pure, Noted.value_mapM]
      refine accounted_elementsField fun index decoded hdecoded => ?_
      rw [List.getElem?_map, Option.map_eq_some_iff] at hdecoded
      obtain ⟨⟨route, position⟩, hposition, hentry⟩ := hdecoded
      have hmember : (route, position) ∈ arrayElements value := by
        rw [arrayElements, supplied_eq_some hvalues]
        exact List.mem_of_getElem? hposition
      have hindex : index = position := by
        rw [List.getElem?_zipIdx, Option.map_eq_some_iff] at hposition
        obtain ⟨_, -, hroute⟩ := hposition
        have := (Prod.mk.inj hroute).2
        omega
      have haccounted := accounted_nativeNetworkRoute (hoffered _ hmember) hentry
      rwa [hindex]
  · exact accounted_malformed

theorem accounted_networkDetails
    (hoffered : ∀ entry ∈ arrayElements (lookup object "routes"), ∀ found,
      unsupportedRouteType library evidence entry = some found → retains .networkRoute found.1) :
    AccountedFor retains (networkStates (networkDetails identity object library evidence).value) := by
  simp only [networkDetails, Noted.value_bind, Noted.value_pure, networkStates, accounted_append]
  refine ⟨⟨⟨⟨?_, ?_⟩, ?_⟩, accounted_subnets⟩, accounted_routes hoffered⟩
  · exact accounted_stringMapField _
  · exact accounted_scalarField _
  · exact accounted_stringMapField _

theorem accounted_decodeVolumeOwner :
    AccountedFor retains ((decodeVolumeOwner identity value path).value.memberAt place) := by
  refine accounted_of_ne fun id => ?_
  unfold decodeVolumeOwner
  split
  · exact nofun
  · split
    · exact nofun
    · exact nofun

theorem accounted_decodeAnonymous :
    AccountedFor retains ((decodeAnonymous identity value).value.memberAt place) := by
  refine accounted_of_ne fun id => ?_
  unfold decodeAnonymous
  split
  · exact nofun
  · exact nofun
  · exact nofun

theorem accounted_volumeDetails :
    AccountedFor retains (volumeStates (volumeDetails identity object).value) := by
  simp only [volumeDetails, Noted.value_bind, Noted.value_pure, volumeStates, accounted_append]
  refine ⟨⟨⟨⟨⟨?_, ?_⟩, ?_⟩, ?_⟩, ?_⟩, accounted_decodeAnonymous⟩
  · exact accounted_stringMapField _
  · exact accounted_decodeVolumeOwner
  · exact accounted_decodeVolumeOwner
  · exact accounted_scalarField _
  · exact accounted_scalarField _

theorem accounted_imageAliases :
    AccountedFor retains ((imageAliases identity value path).value.memberAt place) := by
  refine accounted_of_ne fun id => ?_
  rw [imageAliases]
  split
  · exact nofun
  · exact elementsField_ne_unmodelled _ id
  · exact nofun

theorem accounted_imageEnvironment {options : AcquisitionOptions} :
    AccountedFor retains ((imageEnvironment identity object options).value.memberAt place) := by
  rw [imageEnvironment]
  split
  · exact accounted_of_ne fun _ => nofun
  · exact accounted_decodeEnvironment
  · exact accounted_of_ne fun _ => nofun

theorem accounted_author {origin : ObservationOrigin} : AccountedFor retains
    ((optionalStringOrEmptyField identity value path origin).value.memberAt place) := by
  unfold optionalStringOrEmptyField
  split
  · exact accounted_of_ne fun _ => nofun
  · exact accounted_scalarField _

theorem accounted_imageDetails {options : AcquisitionOptions} :
    AccountedFor retains (imageStates (imageDetails identity object options).value) := by
  simp only [imageDetails, Noted.value_bind, Noted.value_pure, imageStates, accounted_append]
  refine ⟨⟨⟨⟨⟨⟨⟨⟨⟨?_, ?_⟩, ?_⟩, ?_⟩, ?_⟩, ?_⟩, accounted_author⟩, ?_⟩, ?_⟩, ?_⟩
  · exact accounted_stringMapField _
  · exact accounted_imageAliases
  · exact accounted_imageAliases
  · exact accounted_imageEnvironment
  · exact accounted_scalarField _
  · exact accounted_scalarField _
  · exact accounted_scalarField _
  · exact accounted_scalarField _
  · exact accounted_scalarField _

theorem accounted_secretDriver : AccountedFor retains ((objectField identity
    (decodeSecretDriver identity) value "$.Spec.Driver").value.membersAt "$.Spec.Driver"
      secretDriverStates) := by
  rw [objectField]
  split
  · exact accounted_absent
  · exact accounted_observed (accounted_append.mpr
      ⟨accounted_scalarField _, accounted_stringMapField _⟩)
  · exact accounted_malformed

theorem accounted_secretDetails {spec : Members} :
    AccountedFor retains (secretStates (secretDetails identity object spec).value) := by
  rw [secretDetails, Noted.value_bind]
  split_ifs
  all_goals
    simp only [Noted.value_bind, Noted.value_pure, secretStates, accounted_append]
    refine ⟨⟨⟨?_, accounted_secretDriver⟩, ?_⟩, ?_⟩
    · exact accounted_stringMapField _
    · exact accounted_scalarField _
    · exact accounted_scalarField _

end Details

section Walk
variable {library : VersionLibrary} {evidence : ResourceEvidence} {listed : ResourceIdentity}
  {object : Members} {options : AcquisitionOptions} {decoded : Decoded}

/-- The walk offers a member with this identifier and this path. -/
def Offered (kind : ResourceKind) (sites : List UnknownSite) (id : UnmodelledFieldId)
    (path : String) : Prop :=
  ∃ site ∈ sites, ∃ member ∈ site.offered, semanticUnmodelledId kind member.1 = id ∧
    member.1 = path

theorem mem_of_lookup {members : Members} {key : String} {value : Value}
    (h : lookup members key = some value) : (key, value) ∈ members := by
  induction members with
  | nil => cases h
  | cons entry rest ih =>
      obtain ⟨other, found⟩ := entry
      rw [lookup] at h
      split_ifs at h with hkey
      · rw [hkey, Option.some.inj h]
        exact List.mem_cons_self
      · exact List.mem_cons_of_mem _ (ih h)

/-- A member that is not known is offered under its key. -/
theorem mem_unknownObjectMembers {members : Members} {key path : String} {value : Value}
    {known : List String} (hlookup : lookup members key = some value) (hunknown : key ∉ known) :
    (path ++ "." ++ key, jsonValueKind value) ∈
      unknownObjectMembers (some (.object members)) path known := by
  refine List.mem_map.mpr ⟨(key, value), List.mem_filter.mpr ⟨mem_of_lookup hlookup, ?_⟩, rfl⟩
  rw [List.contains_eq_mem, decide_eq_false hunknown]
  rfl

theorem notesRetained_offered (kind : ResourceKind) :
    NotesRetained (Offered .container (unknownFieldSites library kind object evidence decoded))
      decoded.details.notes := by
  intro path jsonKind hnote
  refine ⟨_, List.mem_append_right _ List.mem_cons_self, (path, jsonKind), ?_, rfl, rfl⟩
  exact List.mem_filterMap.mpr ⟨_, hnote, rfl⟩

/-- A member that the walk of the last object does not know is offered. -/
theorem offered_last {kind : ResourceKind} {config : Members} {front key path : String}
    {known : List String} {id : UnmodelledFieldId}
    (hlast : (unknownNestedFields library evidence kind object).getLast? =
      some (.members (unknownObjectMembers (some (.object config)) front known)))
    (hkey : (lookup config key).isSome) (hunknown : key ∉ known)
    (hid : semanticUnmodelledId kind (front ++ "." ++ key) = id)
    (hpath : front ++ "." ++ key = path) :
    Offered kind (unknownFieldSites library kind object evidence decoded) id path := by
  obtain ⟨value, hvalue⟩ := Option.isSome_iff_exists.mp hkey
  have hsite := List.mem_append_left [.members (unmodelledNotes decoded.details.notes)]
    (List.mem_cons_of_mem (unknownTopLevel kind object decoded.known) (List.mem_of_getLast? hlast))
  exact ⟨_, hsite, (front ++ "." ++ key, jsonValueKind value),
    mem_unknownObjectMembers hvalue hunknown, hid, hpath⟩

theorem unsupportedRouteType_path {entry : Value × ℕ} {found : UnknownMember}
    (h : unsupportedRouteType library evidence entry = some found) :
    ∃ rest, found.1 = "$.routes" ++ rest := by
  obtain ⟨route, -, hroute⟩ := Option.bind_eq_some_iff.mp h
  obtain ⟨routeType, -, htype⟩ := Option.bind_eq_some_iff.mp hroute
  split_ifs at htype
  cases htype
  refine ⟨"[" ++ (toString entry.2 ++ ("]" ++ ".route_type")), ?_⟩
  rw [elementPath, String.append_assoc, String.append_assoc, String.append_assoc]

theorem routeType_notMem {entry : Value × ℕ} {found : UnknownMember}
    (h : unsupportedRouteType library evidence entry = some found) :
    found.1 ∉ capabilityKeys.map hostConfigPath := by
  obtain ⟨rest, hpath⟩ := unsupportedRouteType_path h
  have hroutes : startsWith "$.routes" found.1 = true := by
    rw [hpath]
    exact startsWith_append (by decide) rest
  have hcapabilities : ∀ path ∈ capabilityKeys.map hostConfigPath,
      startsWith "$.routes" path = false := by decide
  intro hmem
  rw [hcapabilities _ hmem] at hroutes
  cases hroutes

theorem semanticUnmodelledId_routes (rest : String) :
    semanticUnmodelledId .network ("$.routes" ++ rest) = .networkRoute := by
  have hsubnets : startsWith "$.subnets" ("$.routes" ++ rest) = false := by
    rw [startsWith, String.toList_append]
    rfl
  have hroutes : startsWith "$.routes" ("$.routes" ++ rest) = true :=
    startsWith_append (by decide) rest
  simp only [semanticUnmodelledId, hsubnets, hroutes, Bool.false_eq_true, if_false, if_true]

theorem offered_routeType {entry : Value × ℕ} {found : UnknownMember}
    (hentry : entry ∈ arrayElements (lookup object "routes"))
    (hfound : unsupportedRouteType library evidence entry = some found) :
    Offered .network (unknownFieldSites library .network object evidence decoded) .networkRoute
      found.1 := by
  refine ⟨unknownNetworkRouteTypeMembers library evidence (lookup object "routes"), ?_, found,
    List.mem_filterMap.mpr ⟨entry, hentry, hfound⟩, ?_, rfl⟩
  · refine List.mem_cons_of_mem _ (List.mem_append_left _ (List.mem_append_right _ ?_))
    exact List.mem_cons_of_mem _ List.mem_cons_self
  · obtain ⟨rest, hpath⟩ := unsupportedRouteType_path hfound
    rw [hpath]
    exact semanticUnmodelledId_routes rest

theorem accounted_decodeKind
    (h : decodeKind listed object library evidence options = .ok decoded) :
    AccountedFor (MemberRetained (Offered listed.kind
      (unknownFieldSites library listed.kind object evidence decoded)) object)
        decoded.details.value.members := by
  rw [decodeKind] at h
  cases hkind : listed.kind with
  | container =>
      rw [hkind] at h
      obtain ⟨identity, -, hdecoded⟩ := except_bind_eq_ok h
      cases hdecoded
      refine accounted_containerDetails (fun path kind hnote => ?_) fun config hobject hsome => ?_
      · refine notesRetained_offered .container path kind ?_
        rwa [Noted.notes_map]
      · exact offered_last (by rw [← hobject]; rfl) hsome (by decide) (by decide) (by decide)
  | pod =>
      rw [hkind] at h
      obtain ⟨identity, -, hdecoded⟩ := except_bind_eq_ok h
      cases hdecoded
      refine accounted_podDetails fun config hobject hsome => ?_
      refine .of_other (by decide) ?_
      exact offered_last (by rw [← hobject]; rfl) hsome (by decide) (by decide) (by decide)
  | network =>
      rw [hkind] at h
      obtain ⟨identity, -, hdecoded⟩ := except_bind_eq_ok h
      cases hdecoded
      refine accounted_networkDetails fun entry hentry found hfound => ?_
      exact .of_other (routeType_notMem hfound) (offered_routeType hentry hfound)
  | volume =>
      rw [hkind] at h
      obtain ⟨identity, -, hdecoded⟩ := except_bind_eq_ok h
      cases hdecoded
      exact accounted_volumeDetails
  | image =>
      rw [hkind] at h
      obtain ⟨identity, -, hdecoded⟩ := except_bind_eq_ok h
      cases hdecoded
      exact accounted_imageDetails
  | secret =>
      rw [hkind] at h
      obtain ⟨identity, -, hdecoded⟩ := except_bind_eq_ok h
      split at hdecoded
      · cases hdecoded
      · cases hdecoded
        exact accounted_secretDetails

end Walk

section Observations
variable {library : VersionLibrary} {fromSlice : JsonReader} {listed : ResourceIdentity}
  {response : LibpodResponse} {evidence : ResourceEvidence} {options : AcquisitionOptions}
  {limit : ℕ} {observation : NativeObservation}

/-- A descriptor with this identifier and this path is retained. -/
def HasDescriptor (observation : NativeObservation) (id : UnmodelledFieldId) (path : String) :
    Prop :=
  ∃ field ∈ observation.header.unmodelled, field.id = id ∧ field.path = path

theorem AccountedFor.mono {retains others : UnmodelledFieldId → String → Prop}
    {members : List MemberState} (h : AccountedFor retains members)
    (himp : ∀ id path, retains id path → others id path) : AccountedFor others members :=
  fun member hmember id hid => himp id member.1 (h member hmember id hid)

theorem MemberRetained.mono {retains others : UnmodelledFieldId → String → Prop} {object : Members}
    {id : UnmodelledFieldId} {path : String} (h : MemberRetained retains object id path)
    (himp : ∀ id path, retains id path → others id path) :
    MemberRetained others object id path := by
  refine ⟨fun key hkey hpath => ?_, fun hother => himp id path (h.other hother)⟩
  obtain ⟨hsome, heach⟩ := h.capabilities key hkey hpath
  exact ⟨hsome, fun index hindex => himp id _ (heach index hindex)⟩

/-- Complete metadata has room for everything that the walk offers. -/
theorem hasDescriptor_of_offered {decoded : Decoded} {object : Members} {id : UnmodelledFieldId}
    {path : String} (hkind : decoded.identity.kind = listed.kind)
    (hheader : observation.header = limitedHeader evidence decoded
      (unmodelledFields library listed object evidence decoded) limit)
    (hcomplete : observation.header.unmodelledCompleteness = .complete)
    (hoffered : Offered listed.kind (unknownFieldSites library listed.kind object evidence decoded)
      id path) : HasDescriptor observation id path := by
  rw [hheader, limitedHeader] at hcomplete
  simp only at hcomplete
  split_ifs at hcomplete with hover
  obtain ⟨site, hsite, member, hmember, rfl, rfl⟩ := hoffered
  refine ⟨.new decoded.identity evidence member, ?_, ?_, rfl⟩
  · rw [hheader, limitedHeader]
    simp only [List.take_of_length_le (Nat.not_lt.mp hover)]
    exact List.mem_map_of_mem (List.mem_flatMap.mpr ⟨site, hsite, hmember⟩)
  · rw [← hkind]
    rfl

/-- Where the metadata of a record is complete, every unmodelled member has a descriptor with its
identifier and path; of a capability list, each unknown element has one instead, and there is one. -/
theorem unmodelled_members_accounted
    (h : decodeObservation library fromSlice listed response evidence options limit =
      .ok observation)
    (hcomplete : observation.header.unmodelledCompleteness = .complete) :
    ∃ object, responseObject library fromSlice listed response evidence = .ok object ∧
      AccountedFor (MemberRetained (HasDescriptor observation) object)
        observation.details.members := by
  obtain ⟨object, decoded, hobject, hdecoded, hdetails, hheader⟩ := decodeObservation_eq_ok h
  refine ⟨object, hobject, ?_⟩
  rw [hdetails]
  exact (accounted_decodeKind hdecoded).mono fun id path hmember =>
    hmember.mono fun id path hoffered =>
      hasDescriptor_of_offered (identity_decodeKind hdecoded).1 hheader hcomplete hoffered

def confinedDocument : Value :=
  .object [("HostConfig", .object [("CapAdd", .array [.string "CAP_CHOWN", .string "CAP_FOO"]),
    ("PidMode", .string "container:peer")]), ("Id", .string "web")]

/-- A container with one capability and one namespace mode outside the reviewed ones. -/
def confinedContainer : PodmanLensResult NativeObservation :=
  decodeObservation releaseLibrary (fun _ => some confinedDocument) ⟨.container, "web", none⟩
    ⟨200, [⟨"Content-Type", "application/json"⟩], []⟩ newestEvidence ⟨.redact⟩ 128

theorem confinedContainer_observed : ∃ observation, confinedContainer = .ok observation ∧
    observation.header.unmodelledCompleteness = .complete ∧
    (observation.details.members.filter fun member => member.2.isSome) =
      [("$.HostConfig.CapAdd", some .containerHostConfig),
        ("$.HostConfig.PidMode", some .containerHostConfig)] ∧
    (observation.header.unmodelled.map fun field => (field.id, field.path)) =
      [(.containerHostConfig, "$.HostConfig.CapAdd[1]"),
        (.containerHostConfig, "$.HostConfig.PidMode")] := by
  have hread : confinedContainer.toOption.map (fun observation =>
      (observation.header.unmodelledCompleteness,
        observation.details.members.filter fun member => member.2.isSome,
        observation.header.unmodelled.map fun field => (field.id, field.path))) =
      some (.complete, [("$.HostConfig.CapAdd", some .containerHostConfig),
        ("$.HostConfig.PidMode", some .containerHostConfig)],
        [(.containerHostConfig, "$.HostConfig.CapAdd[1]"),
          (.containerHostConfig, "$.HostConfig.PidMode")]) := by decide +kernel
  cases hobservation : confinedContainer with
  | error _ =>
      rw [hobservation] at hread
      cases hread
  | ok observation =>
      rw [hobservation] at hread
      obtain ⟨hcomplete, hrest⟩ := Prod.mk.inj (Option.some.inj hread)
      obtain ⟨hmembers, hfields⟩ := Prod.mk.inj hrest
      exact ⟨observation, rfl, hcomplete, hmembers, hfields⟩

theorem unmodelled_members_accounted_confined : ∃ observation object,
    confinedContainer = .ok observation ∧
      AccountedFor (MemberRetained (HasDescriptor observation) object)
        observation.details.members := by
  obtain ⟨observation, hobservation, hcomplete, -⟩ := confinedContainer_observed
  obtain ⟨object, -, haccounted⟩ := unmodelled_members_accounted hobservation hcomplete
  exact ⟨observation, object, hobservation, haccounted⟩

/-- The list itself has no descriptor, only its unknown element has. -/
theorem confined_capabilities_without_descriptor : ∃ observation,
    confinedContainer = .ok observation ∧
      observation.header.unmodelledCompleteness = .complete ∧
        ¬AccountedFor (HasDescriptor observation) observation.details.members := by
  obtain ⟨observation, hobservation, hcomplete, hmembers, hfields⟩ := confinedContainer_observed
  refine ⟨observation, hobservation, hcomplete, fun haccounted => ?_⟩
  have hmember : ("$.HostConfig.CapAdd", some .containerHostConfig) ∈
      observation.details.members.filter fun member => member.2.isSome := by
    rw [hmembers]
    exact List.mem_cons_self
  obtain ⟨field, hfield, hid, hpath⟩ :=
    haccounted _ (List.mem_filter.mp hmember).1 .containerHostConfig rfl
  have hlisted := List.mem_map_of_mem (f := fun field => (field.id, field.path)) hfield
  rw [hfields, hid, hpath] at hlisted
  revert hlisted
  decide

end Observations

end PodmanLens
