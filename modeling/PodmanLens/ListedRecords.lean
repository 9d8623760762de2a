import PodmanLens.Acquisition
import PodmanLens.Returning

/-!
# Records of the listed resources

With a transport that always gives a path the same answer, an acquisition keeps what the lists
name: every available section has one record for each listed identifier, in their order, and every
other entry of the list is a finding of the section.
-/

namespace PodmanLens
open Std Json Returning

section Lists
variable {kind : ResourceKind} {listed : ListedSection kind} {entries : List Value}

/-- Some entry of the list names this identifier. -/
def NamesId (kind : ResourceKind) (entries : List Value) (id : String) : Prop :=
  ∃ entry ∈ entries, ∃ identity, listIdentity kind entry = .ok identity ∧ identity.id = id

/-- Every entry has become the first identity of its identifier or a finding. -/
structure Kept (entries : List Value) (listed : ListedSection kind) : Prop where
  mem_ids : ∀ id, id ∈ listed.identities.map ResourceIdentity.id ↔ NamesId kind entries id
  nodup : (listed.identities.map ResourceIdentity.id).Nodup
  total : listed.identities.length + listed.findings.length = entries.length

theorem namesId_append {front back : List Value} {id : String} :
    NamesId kind (front ++ back) id ↔ NamesId kind front id ∨ NamesId kind back id := by
  simp only [NamesId, List.mem_append, or_and_right, exists_or]

theorem namesId_singleton {entry : Value} {id : String} : NamesId kind [entry] id ↔
    ∃ identity, listIdentity kind entry = .ok identity ∧ identity.id = id := by
  simp only [NamesId, List.mem_singleton, exists_eq_left]

theorem Kept.report (h : Kept entries listed) {entry : Value} (finding : InventoryFinding)
    (hnamed : ∀ id, NamesId kind [entry] id → NamesId kind entries id) :
    Kept (entries ++ [entry]) (listed.report finding) where
  mem_ids id := by
    rw [namesId_append]
    exact (h.mem_ids id).trans ⟨Or.inl, fun hid => hid.elim (fun hid => hid) (hnamed id)⟩
  nodup := h.nodup
  total := by
    have := h.total
    simp only [ListedSection.report, List.length_append, List.length_singleton]
    omega

theorem Kept.addEntry (h : Kept entries listed) (entry : Value) :
    Kept (entries ++ [entry]) (listed.addEntry entry) := by
  unfold ListedSection.addEntry
  split
  · next identity hidentity =>
      have hnamed (id : String) : NamesId kind [entry] id ↔ identity.id = id := by
        rw [namesId_singleton, hidentity]
        exact ⟨fun ⟨_, heq, hid⟩ => Except.ok.inj heq ▸ hid, fun hid => ⟨identity, rfl, hid⟩⟩
      have hrepeated : (listed.identities.any fun previous => previous.id == identity.id) = true ↔
          NamesId kind entries identity.id := by
        rw [← h.mem_ids, List.any_eq_true, List.mem_map]
        simp only [beq_iff_eq]
      split_ifs with hlisted
      · refine h.report _ fun id hid => ?_
        rw [← (hnamed id).mp hid]
        exact hrepeated.mp hlisted
      · refine ⟨fun id => ?_, ?_, ?_⟩
        · simp only [List.map_append, List.mem_append, h.mem_ids, namesId_append, hnamed,
            List.map_singleton, List.mem_singleton, eq_comm]
        · rw [List.map_append, List.map_singleton, List.nodup_append]
          refine ⟨h.nodup, List.nodup_singleton _, fun id hid other hother => ?_⟩
          rw [List.mem_singleton.mp hother]
          rintro rfl
          exact hlisted (hrepeated.mpr ((h.mem_ids _).mp hid))
        · have := h.total
          simp only [List.length_append, List.length_singleton]
          omega
  · next code hidentity =>
      refine h.report _ fun id hid => ?_
      obtain ⟨identity, heq, -⟩ := namesId_singleton.mp hid
      rw [hidentity] at heq
      cases heq

theorem kept_foldl (entries : List Value) :
    Kept entries (entries.foldl ListedSection.addEntry (.empty kind)) := by
  induction entries using List.reverseRecOn with
  | nil => exact ⟨fun id => iff_of_false List.not_mem_nil (by simp [NamesId]), List.nodup_nil, rfl⟩
  | append_singleton entries entry ih =>
      rw [List.foldl_append]
      exact ih.addEntry entry

theorem Kept.sort (h : Kept entries listed) : Kept entries listed.sort := by
  have hperm : listed.sort.identities.Perm listed.identities := List.perm_insertionSort _ _
  refine ⟨fun id => ?_, ?_, ?_⟩
  · rw [← h.mem_ids]
    exact (hperm.map _).mem_iff
  · exact (hperm.map _).nodup_iff.mpr h.nodup
  · rw [hperm.length_eq]
    exact h.total

instance : TransCmp ListedSection.identityOrder :=
  inferInstanceAs (TransCmp (compareLex (compareOn ResourceIdentity.id)
    (compareOn ResourceIdentity.name)))

theorem total_identityOrder (left right : ResourceIdentity) :
    (ListedSection.identityOrder left right).isLE ∨
      (ListedSection.identityOrder right left).isLE := by
  have hswap : ListedSection.identityOrder right left =
      (ListedSection.identityOrder left right).swap := OrientedCmp.eq_swap
  rw [hswap]
  cases ListedSection.identityOrder left right <;> decide

theorem pairwise_sort (listed : ListedSection kind) : listed.sort.identities.Pairwise
    fun left right => (ListedSection.identityOrder left right).isLE :=
  haveI : IsTrans ResourceIdentity fun left right =>
    (ListedSection.identityOrder left right).isLE := ⟨fun _ _ _ => TransCmp.isLE_trans⟩
  haveI : Std.Total fun left right : ResourceIdentity =>
    (ListedSection.identityOrder left right).isLE := ⟨total_identityOrder⟩
  List.pairwise_insertionSort _ _

/-- No identifier is listed twice, so the order by identifiers is strict. -/
theorem Kept.sorted (h : Kept entries listed) :
    (listed.sort.identities.map ResourceIdentity.id).Pairwise (· < ·) := by
  have hdistinct := List.pairwise_map.mp h.sort.nodup
  refine List.pairwise_map.mpr
    (((pairwise_sort listed).and hdistinct).imp fun {left right} hpair => ?_)
  obtain ⟨hle, hne⟩ := hpair
  rw [ListedSection.identityOrder] at hle
  cases hids : compare left.id right.id with
  | lt => exact compareOfLessAndEq_eq_lt.mp hids
  | eq => exact absurd (Std.compare_eq_iff_eq.mp hids) hne
  | gt =>
      rw [hids] at hle
      cases hle

end Lists

section Listings
variable {m : Type → Type} [Monad m] [LawfulMonad m] {services : AcquisitionServices}
  {send : LibpodPath → m (PodmanLensResult LibpodResponse)} {service : ServiceObservation}
  {options : AcquisitionOptions} {kind : ResourceKind}

def InspectedSection.ids (found : InspectedSection) : List String :=
  found.observations.map fun observation => observation.header.identity.id

/-- What an inspection makes of a listed resource. A path that cannot be built is not sent. -/
inductive InspectedAs (services : AcquisitionServices) (service : ServiceObservation)
    (options : AcquisitionOptions) (identity : ResourceIdentity) : NativeObservation → Prop
  | refused : InspectedAs services service options identity
      (partialObservation identity (.fromService service) .resourceMalformed)
  | answered (limit : ℕ) (answer : PodmanLensResult LibpodResponse) :
      InspectedAs services service options identity
        (answeredObservation services service options identity limit answer)

theorem InspectedAs.id_eq {identity : ResourceIdentity} {observation : NativeObservation}
    (h : InspectedAs services service options identity observation) :
    observation.header.identity.id = identity.id := by
  cases h with
  | refused => rfl
  | answered limit answer => exact (identity_answeredObservation identity limit answer).2

theorem inspectedAs_inspectObservation (identity : ResourceIdentity)
    (ofKind : identity.kind = kind) (limit : ℕ) :
    Returns (fun record => InspectedAs services service options identity record.observation)
      (inspectObservation services send service options identity ofKind limit) := by
  unfold inspectObservation
  split
  · exact returns_pure .refused
  · exact (returns_trivial _).bind fun answer _ => returns_pure (.answered limit answer)

/-- The records of a kind are those of its identities, in their order. -/
theorem inspectedAs_inspectIdentities (reservation : ℕ) (identities : List ResourceIdentity)
    (ofKind : ∀ identity ∈ identities, identity.kind = kind) (remaining : ℕ) :
    Returns (fun result => List.Forall₂ (InspectedAs services service options) identities
        (result.1.map InspectedRecord.observation))
      (inspectIdentities services send service options reservation identities ofKind remaining) := by
  induction identities generalizing remaining with
  | nil => exact returns_pure .nil
  | cons identity rest ih =>
      rw [inspectIdentities]
      refine (inspectedAs_inspectObservation _ _ _).bind fun record hrecord => ?_
      exact (ih _ _).bind fun result hresult => returns_pure (.cons hrecord hresult)

/-- What an available section has from its listing. -/
structure FromListing (services : AcquisitionServices) (service : ServiceObservation)
    (options : AcquisitionOptions) (listing : KindListing) (found : InspectedSection) : Prop where
  kind : found.kind = listing.kind
  listed : found.availability = .available → ∃ listed, listing.listed = .ok listed ∧
    found.findings = listed.findings ∧
      List.Forall₂ (InspectedAs services service options) listed.identities found.observations

theorem fromListing_inspectKind (listing : KindListing) (reservation remaining : ℕ) :
    Returns (fun result => FromListing services service options listing result.1)
      (inspectKind services send service options listing reservation remaining) := by
  unfold inspectKind
  split
  · next listed hlisted =>
      refine (inspectedAs_inspectIdentities _ _ listed.ofKind _).bind fun result hresult => ?_
      exact returns_pure ⟨rfl, fun _ => ⟨listed, hlisted, rfl, hresult⟩⟩
  · next code hlisted =>
      refine returns_pure ⟨rfl, fun h => ?_⟩
      replace h : (if code = .inventoryJson ∨ code = .inventoryShape then
        InventorySectionAvailability.malformed else .unavailable) = .available := h
      split_ifs at h

theorem fromListing_inspectKinds (entries : List (KindListing × ℕ)) (remaining : ℕ) :
    Returns (List.Forall₂ (fun entry => FromListing services service options entry.1) entries)
      (inspectKinds services send service options entries remaining) := by
  induction entries generalizing remaining with
  | nil => exact returns_pure .nil
  | cons entry rest ih =>
      rw [inspectKinds]
      refine (fromListing_inspectKind _ _ _).bind fun result hresult => ?_
      exact (ih _).bind fun sections hsections => returns_pure (.cons hresult hsections)

theorem FromListing.ids_eq {listing : KindListing} {found : InspectedSection}
    (h : FromListing services service options listing found)
    (havailable : found.availability = .available) : ∃ listed, listing.listed = .ok listed ∧
      found.findings = listed.findings ∧
        found.ids = listed.identities.map ResourceIdentity.id := by
  obtain ⟨listed, hlisted, hfindings, hrecords⟩ := h.listed havailable
  refine ⟨listed, hlisted, hfindings, ?_⟩
  exact (map_eq_map_of_forall₂ (hrecords.imp fun _ _ hrecord => hrecord.id_eq.symm)).symm

theorem decodeList_eq_ok {fromSlice : JsonReader} {response : LibpodResponse}
    {listed : ListedSection kind} (h : decodeList fromSlice kind response = .ok listed) :
    ∃ value entries, requireOkJson response = .ok () ∧
      decodeJson fromSlice response.body = .ok value ∧ listEntries kind value = .ok entries ∧
        listed = (entries.foldl ListedSection.addEntry (.empty kind)).sort := by
  obtain ⟨⟨⟩, hjson, h⟩ := except_bind_eq_ok h
  obtain ⟨value, hvalue, h⟩ := except_bind_eq_ok h
  obtain ⟨entries, hentries, h⟩ := except_bind_eq_ok h
  exact ⟨value, entries, hjson, hvalue, hentries, (Except.ok.inj h).symm⟩

end Listings

section Runs
variable {services : AcquisitionServices} {options : AcquisitionOptions}
  {service : ServiceObservation}

/-- What a transport answers when it gives each path one answer. -/
abbrev Answers := LibpodPath → PodmanLensResult LibpodResponse

def Answers.send (answers : Answers) (path : LibpodPath) : Id (PodmanLensResult LibpodResponse) :=
  pure (answers path)

theorem Answers.acquireInventory_newest {answers : Answers} {body : List UInt8}
    (options : AcquisitionOptions) (hlibrary : services.library = releaseLibrary)
    (h : services.fromSlice [0] = some versionDocument)
    (hping : answers ⟨"/libpod/_ping"⟩ = .ok (newestResponse body))
    (hversion : answers ⟨"/v4.0.0/libpod/version"⟩ = .ok (newestResponse [0])) :
    (acquireInventory services answers.send options).run = .ok ⟨newestService, reconcileSections
      (inspectInventory services answers.send options newestService).run⟩ := by
  have hpingSent : answers.send ⟨"/libpod/_ping"⟩ =
      (fun _ => .ok (newestResponse body)) <$> (pure () : Id Unit) := congrArg pure hping
  have hversionSent : answers.send ⟨"/v4.0.0/libpod/version"⟩ =
      (fun _ => .ok (newestResponse [0])) <$> (pure () : Id Unit) := congrArg pure hversion
  rw [PodmanLens.acquireInventory_newest options hlibrary h hpingSent hversionSent]
  rfl

/-- The entries that the service lists for a kind. -/
def ListsEntries (services : AcquisitionServices) (answers : Answers)
    (service : ServiceObservation) (kind : ResourceKind) (entries : List Value) : Prop :=
  ∃ path response value,
    sectionListPath services service kind = .ok path ∧
    answers path = .ok response ∧ requireOkJson response = .ok () ∧
    decodeJson services.fromSlice response.body = .ok value ∧
    listEntries kind value = .ok entries

/-- One record for each listed identifier, in their order, and a finding for every other entry. -/
structure RecordsListed (entries : List Value) (found : InspectedSection) : Prop where
  sorted : found.ids.Pairwise (· < ·)
  mem_ids : ∀ id, id ∈ found.ids ↔ NamesId found.kind entries id
  total : found.records.length + found.findings.length = entries.length

variable {answers : Answers}

theorem listed_listKind {kind : ResourceKind} {listing : KindListing}
    {listed : ListedSection listing.kind}
    (h : (listKind services answers.send service kind).run = listing)
    (hlisted : listing.listed = .ok listed) : ∃ entries,
      ListsEntries services answers service listing.kind entries ∧
        listed = (entries.foldl ListedSection.addEntry (.empty listing.kind)).sort := by
  rw [listKind] at h
  split_ifs at h
  · cases h
    cases hlisted
  · cases h
    replace hlisted : (sendGet answers.send (sectionListPath services service kind)).run >>=
        decodeList services.fromSlice kind = .ok listed := hlisted
    obtain ⟨response, hresponse, hdecoded⟩ := except_bind_eq_ok hlisted
    obtain ⟨value, entries, hjson, hvalue, hentries, hdecoded⟩ := decodeList_eq_ok hdecoded
    cases hpath : sectionListPath services service kind with
    | error code =>
        rw [hpath] at hresponse
        cases hresponse
    | ok path =>
        rw [hpath] at hresponse
        exact ⟨entries, ⟨path, response, value, hpath, hresponse, hjson, hvalue, hentries⟩,
          hdecoded⟩

theorem RecordsListed.of_fromListing {listing : KindListing} {found : InspectedSection}
    {kind : ResourceKind} (h : FromListing services service options listing found)
    (hlisting : (listKind services answers.send service kind).run = listing)
    (havailable : found.availability = .available) :
    ∃ entries, ListsEntries services answers service found.kind entries ∧
      RecordsListed entries found := by
  obtain ⟨listed, hlisted, hfindings, hids⟩ := h.ids_eq havailable
  obtain ⟨entries, hentries, rfl⟩ := listed_listKind hlisting hlisted
  have hkept : Kept entries (entries.foldl ListedSection.addEntry (.empty listing.kind)) :=
    kept_foldl entries
  refine ⟨entries, h.kind ▸ hentries, ?_, fun id => ?_, ?_⟩
  · rw [hids]
    exact hkept.sorted
  · rw [hids, h.kind]
    exact hkept.sort.mem_ids id
  · have hlength := congrArg List.length hids
    rw [InspectedSection.ids, InspectedSection.observations, List.length_map, List.length_map,
      List.length_map] at hlength
    rw [hlength, hfindings]
    exact hkept.sort.total

theorem recordsListed_inspectInventory {found : InspectedSection}
    (h : found ∈ (inspectInventory services answers.send options service).run)
    (havailable : found.availability = .available) :
    ∃ entries, ListsEntries services answers service found.kind entries ∧
      RecordsListed entries found := by
  rw [inspectInventory, Id.run_bind] at h
  obtain ⟨entry, hentry, hfrom⟩ := exists_of_forall₂_mem (fromListing_inspectKinds _ _).of_id h
  have hlisting := (List.of_mem_zip hentry).1
  rw [List.idRun_mapM] at hlisting
  obtain ⟨kind, -, hlisting⟩ := List.mem_map.mp hlisting
  exact RecordsListed.of_fromListing hfrom hlisting havailable

theorem ids_extendFindings (added : AcquiredRecord → List InventoryFinding)
    (found : InspectedSection) : (found.extendFindings added).ids = found.ids := by
  simp only [InspectedSection.ids, InspectedSection.observations, List.map_map,
    InspectedSection.extendFindings]
  rfl

theorem RecordsListed.extendFindings {entries : List Value} {found : InspectedSection}
    (h : RecordsListed entries found) (added : AcquiredRecord → List InventoryFinding) :
    RecordsListed entries (found.extendFindings added) where
  sorted := by
    rw [ids_extendFindings]
    exact h.sorted
  mem_ids id := by
    rw [ids_extendFindings]
    exact h.mem_ids id
  total := by
    refine Eq.trans ?_ h.total
    rw [InspectedSection.extendFindings, List.length_map]

theorem acquireInventory_eq_ok {inventory : NativeInventory}
    (h : (acquireInventory services answers.send options).run = .ok inventory) :
    (probeLibpodService services answers.send).run = .ok inventory.service ∧
      inventory.sections = reconcileSections
        (inspectInventory services answers.send options inventory.service).run := by
  rw [acquireInventory, Id.run_bind] at h
  cases hprobed : (probeLibpodService services answers.send).run with
  | error code =>
      rw [hprobed] at h
      cases h
  | ok service =>
      rw [hprobed] at h
      cases h
      exact ⟨rfl, rfl⟩

theorem recordsListed_acquireInventory {inventory : NativeInventory} {found : InspectedSection}
    (h : (acquireInventory services answers.send options).run = .ok inventory)
    (hfound : found ∈ inventory.sections) (havailable : found.availability = .available) :
    ∃ entries, ListsEntries services answers inventory.service found.kind entries ∧
      RecordsListed entries found := by
  rw [(acquireInventory_eq_ok h).2, reconcileSections_eq] at hfound
  obtain ⟨inspected, hinspected, rfl⟩ := List.mem_map.mp hfound
  obtain ⟨entries, hentries, hlisted⟩ := recordsListed_inspectInventory hinspected havailable
  exact ⟨entries, hentries, hlisted.extendFindings _⟩

end Runs

end PodmanLens
