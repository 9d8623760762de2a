import PodmanLens.ListedRecords

/-!
# From acquisition to discovery

Discovery reads what was acquired. Whatever the transport answers, every kind has one section, a
section lists no identifier twice, and the relationships of a record are those that its decoder
published or did not decode at all.
-/

namespace PodmanLens
open Json Returning

section Decoding
variable {listed : ResourceIdentity} {object : Members} {library : VersionLibrary}
  {evidence : ResourceEvidence} {options : AcquisitionOptions} {decoded : Decoded}

/-- A container in a pod publishes no networks, so it does not matter that they are not decoded. -/
theorem relationships_containerDetails (identity : ResourceIdentity) (object : Members)
    (options : AcquisitionOptions) (evidence : ResourceEvidence) :
    (containerDetails identity object options evidence).value.relationships =
      (containerReferences identity object).field := by
  cases hpodded : (decodeNativeReference identity (lookup object "Pod")
      "$.Pod").value.toOption.isNone <;>
    simp only [containerDetails, containerReferences, Noted.value_bind, Noted.value_pure,
      ContainerReferences.field, ContainerReferences.relationships, ContainerReferences.decoding,
      ContainerReferences.ownNetworks, unlessPodded, hpodded, if_true, Bool.false_eq_true, if_false]

theorem relationships_podDetails (identity : ResourceIdentity) (object : Members)
    (library : VersionLibrary) (evidence : ResourceEvidence) :
    (podDetails identity object library evidence).value.relationships =
      (podReferences identity object library evidence).field := rfl

theorem decoded_decodeKind (h : decodeKind listed object library evidence options = .ok decoded) :
    decoded.details.value.observed.Decoded := by
  rw [decodeKind] at h
  split at h
  case h_1 =>
    obtain ⟨identity, -, h⟩ := except_bind_eq_ok h
    cases h
    exact Or.inr (Or.inr ⟨_, relationships_containerDetails identity object options evidence⟩)
  case h_2 =>
    obtain ⟨identity, -, h⟩ := except_bind_eq_ok h
    cases h
    exact Or.inr (Or.inr ⟨_, relationships_podDetails identity object library evidence⟩)
  case h_6 =>
    obtain ⟨identity, -, h⟩ := except_bind_eq_ok h
    split at h <;> cases h
    trivial
  all_goals
    obtain ⟨identity, -, h⟩ := except_bind_eq_ok h
    cases h
    trivial

theorem decoded_incompleteDetails (kind : ResourceKind) (state : ResourceObservationState) :
    (incompleteDetails kind state).observed.Decoded := by
  have hfield (field : ObservationField (List NativeRelationship))
      (h : incompleteField state = field) : field = .unavailable ∨ field = .malformed := by
    cases state <;> simp_all [incompleteField]
  cases kind with
  | container | pod => exact (hfield _ rfl).imp_right Or.inl
  | network | volume | image | secret => trivial

theorem decoded_answeredObservation {services : AcquisitionServices} {service : ServiceObservation}
    (identity : ResourceIdentity) (limit : ℕ) (answer : PodmanLensResult LibpodResponse) :
    (answeredObservation services service options identity limit answer).details.observed.Decoded :=
    by
  rcases answeredObservation_cases identity limit answer with ⟨code, hfailed⟩ | ⟨response, hdecoded⟩
  · rw [hfailed]
    exact decoded_incompleteDetails _ _
  · obtain ⟨object, decoded, -, hdecoded, hdetails, -⟩ := decodeObservation_eq_ok hdecoded
    rw [hdetails]
    exact decoded_decodeKind hdecoded

end Decoding

section Sections
variable {services : AcquisitionServices} {service : ServiceObservation}
  {options : AcquisitionOptions} {listing : KindListing} {found : InspectedSection}

/-- Distinct identifiers, and relationships as decoders publish them. -/
structure InspectedSection.Sound (found : InspectedSection) : Prop where
  nodup : found.ids.Nodup
  decoded : ∀ observation ∈ found.observations, observation.details.observed.Decoded

theorem InspectedAs.decoded {identity : ResourceIdentity} {observation : NativeObservation}
    (h : InspectedAs services service options identity observation) :
    observation.details.observed.Decoded := by
  cases h with
  | refused => exact decoded_incompleteDetails _ _
  | answered limit answer => exact decoded_answeredObservation identity limit answer

theorem FromListing.sound (h : FromListing services service options listing found)
    (hlisting : ∀ listed, listing.listed = .ok listed →
      (listed.identities.map ResourceIdentity.id).Nodup) : found.Sound := by
  by_cases havailable : found.availability = .available
  · obtain ⟨listed, hlisted, -, hids⟩ := h.ids_eq havailable
    obtain ⟨listed', -, -, hrecords⟩ := h.listed havailable
    refine ⟨hids ▸ hlisting listed hlisted, fun observation hobservation => ?_⟩
    obtain ⟨identity, -, hinspected⟩ := exists_of_forall₂_mem hrecords hobservation
    exact hinspected.decoded
  · have hempty : found.observations = [] := by
      rw [InspectedSection.observations, found.unavailable_empty havailable, List.map_nil]
    refine ⟨?_, fun observation hobservation => ?_⟩
    · rw [InspectedSection.ids, hempty]
      exact List.nodup_nil
    · rw [hempty] at hobservation
      exact absurd hobservation List.not_mem_nil

theorem kind_of_mem_observations {observation : NativeObservation}
    (h : observation ∈ found.observations) : observation.header.identity.kind = found.kind := by
  obtain ⟨record, -, rfl⟩ := List.mem_map.mp h
  exact record.ofKind

/-- What discovery reads of a section. -/
theorem observations_acquired (found : InspectedSection) :
    found.acquired.records.map AcquiredRecord.observation =
      found.observations.map fun observation => observation.acquired.observation := by
  rw [InspectedSection.acquired, InspectedSection.observations, List.map_map, List.map_map]
  rfl

/-- Sound sections of distinct kinds are an inventory as discovery expects it. -/
theorem acquired_of_sound {sections : List InspectedSection}
    (hkinds : (sections.map InspectedSection.kind).Nodup)
    (h : ∀ found ∈ sections, found.Sound) :
    (acquiredInventory (sections.map InspectedSection.acquired)).Acquired := by
  have hobservations : (acquiredInventory (sections.map InspectedSection.acquired)).observations =
      sections.flatMap fun found =>
        found.observations.map fun observation => observation.acquired.observation := by
    rw [ResourceInventory.observations, acquiredInventory, List.map_map, List.flatMap_map]
    exact List.flatMap_congr fun found _ => observations_acquired found
  constructor
  · rw [ResourceInventory.ListsOnce, hobservations, List.map_flatMap, List.nodup_flatMap]
    constructor
    · intro found hfound
      refine List.Nodup.of_map Prod.snd ?_
      rw [List.map_map, List.map_map]
      exact (h found hfound).nodup
    · refine (List.pairwise_map.mp hkinds).imp fun {left right} hne => ?_
      intro key hleft hright
      obtain ⟨_, hmem, rfl⟩ := List.mem_map.mp hleft
      obtain ⟨first, hfirst, rfl⟩ := List.mem_map.mp hmem
      obtain ⟨_, hmem, hkey⟩ := List.mem_map.mp hright
      obtain ⟨second, hsecond, rfl⟩ := List.mem_map.mp hmem
      apply hne
      rw [← kind_of_mem_observations hfirst, ← kind_of_mem_observations hsecond]
      exact (congrArg Prod.fst hkey).symm
  · intro observation hobservation
    rw [hobservations] at hobservation
    obtain ⟨found, hfound, hobservation⟩ := List.mem_flatMap.mp hobservation
    obtain ⟨original, horiginal, rfl⟩ := List.mem_map.mp hobservation
    exact (h found hfound).decoded original horiginal

end Sections

section Runs
variable {m : Type → Type} [Monad m] [LawfulMonad m] {services : AcquisitionServices}
  {send : LibpodPath → m (PodmanLensResult LibpodResponse)} {service : ServiceObservation}
  {options : AcquisitionOptions}

/-- The listing of a kind, without repeated identifiers. -/
structure ListsKind (kind : ResourceKind) (listing : KindListing) : Prop where
  kind : listing.kind = kind
  nodup : ∀ listed, listing.listed = .ok listed →
    (listed.identities.map ResourceIdentity.id).Nodup

theorem nodup_decodeList {kind : ResourceKind} {fromSlice : JsonReader} {response : LibpodResponse}
    {listed : ListedSection kind} (h : decodeList fromSlice kind response = .ok listed) :
    (listed.identities.map ResourceIdentity.id).Nodup := by
  obtain ⟨value, entries, -, -, -, rfl⟩ := decodeList_eq_ok h
  exact (kept_foldl entries).sort.nodup

theorem listsKind_listKind (kind : ResourceKind) :
    Returns (ListsKind kind) (listKind services send service kind) := by
  rw [listKind]
  split_ifs
  · exact returns_pure ⟨rfl, fun listed hlisted => (by cases hlisted)⟩
  · refine Returns.bind (p := fun listed => ∀ found, listed = .ok found →
      (found.identities.map ResourceIdentity.id).Nodup) ?_ fun listed hlisted =>
        returns_pure ⟨rfl, hlisted⟩
    refine (returns_trivial _).bind fun response _ => returns_pure fun listed hlisted => ?_
    obtain ⟨answer, -, hdecoded⟩ := except_bind_eq_ok hlisted
    exact nodup_decodeList hdecoded

/-- Every kind has one section, and all are sound. -/
theorem sound_inspectInventory :
    Returns (fun sections => sections.map InspectedSection.kind = allKinds ∧
        ∀ found ∈ sections, found.Sound)
      (inspectInventory services send options service) := by
  rw [inspectInventory]
  refine (returns_mapM fun kind _ => listsKind_listKind kind).bind fun listings hlistings => ?_
  refine (fromListing_inspectKinds _ _).mono fun sections hsections => ⟨?_, fun found hfound => ?_⟩
  · have hlength : listings.length ≤ (laterKindUnknownFieldReservations listings).length := by
      rw [laterKindUnknownFieldReservations, List.length_map, List.length_range]
    calc sections.map InspectedSection.kind
        = (listings.zip (laterKindUnknownFieldReservations listings)).map
            (KindListing.kind ∘ Prod.fst) :=
          (map_eq_map_of_forall₂ (hsections.imp fun _ _ hfrom => hfrom.kind.symm)).symm
      _ = listings.map KindListing.kind := by rw [← List.map_map, List.map_fst_zip hlength]
      _ = allKinds.map id :=
          (map_eq_map_of_forall₂ (hlistings.imp fun _ _ hlists => hlists.kind.symm)).symm
      _ = allKinds := List.map_id _
  · obtain ⟨entry, hentry, hfrom⟩ := exists_of_forall₂_mem hsections hfound
    obtain ⟨kind, -, hlists⟩ := exists_of_forall₂_mem hlistings (List.of_mem_zip hentry).1
    exact hfrom.sound hlists.nodup

theorem InspectedSection.Sound.extendFindings {found : InspectedSection} (h : found.Sound)
    (added : AcquiredRecord → List InventoryFinding) : (found.extendFindings added).Sound := by
  refine ⟨(ids_extendFindings added found).symm ▸ h.nodup, fun observation hobservation => ?_⟩
  obtain ⟨_, hextended, rfl⟩ := List.mem_map.mp hobservation
  obtain ⟨record, hrecord, rfl⟩ := List.mem_map.mp hextended
  exact h.decoded record.observation (List.mem_map_of_mem hrecord)

/-- One sound section for each kind. -/
structure NativeInventory.Whole (inventory : NativeInventory) : Prop where
  kinds : inventory.sections.map InspectedSection.kind = allKinds
  sound : ∀ found ∈ inventory.sections, found.Sound

theorem whole_acquireInventory :
    Returns (fun result => ∀ inventory, result = .ok inventory → inventory.Whole)
      (acquireInventory services send options) := by
  rw [acquireInventory]
  refine (returns_trivial _).bind fun probed _ => ?_
  cases probed with
  | error code => exact returns_pure fun inventory hinventory => (by cases hinventory)
  | ok service =>
      refine sound_inspectInventory.bind fun sections hsections => returns_pure ?_
      rintro inventory ⟨⟩
      constructor
      · rw [reconcileSections_eq, List.map_map]
        exact hsections.1
      · intro found hfound
        rw [reconcileSections_eq] at hfound
        obtain ⟨inspected, hinspected, rfl⟩ := List.mem_map.mp hfound
        exact (hsections.2 inspected hinspected).extendFindings _

/-- The resources as discovery reads them. -/
def NativeInventory.resources (inventory : NativeInventory) : ResourceInventory :=
  acquiredInventory (inventory.sections.map InspectedSection.acquired)

/-- Whatever the transport answers, discovery is given what it expects. -/
theorem acquired_acquireInventory :
    Returns (fun result => ∀ inventory, result = .ok inventory → inventory.resources.Acquired)
      (acquireInventory services send options) :=
  whole_acquireInventory.mono fun _ h inventory hinventory =>
    acquired_of_sound ((h inventory hinventory).kinds ▸ by decide) (h inventory hinventory).sound

end Runs

end PodmanLens
