import PodmanLens.FieldBudget
import PodmanLens.ListedRecords

/-!
# Order of the listed entries

A service may list its resources in any order. Where no identifier is listed twice the decoded list
depends on the entries alone, and so does the inventory that is acquired from it.
-/

namespace PodmanLens
open Std Json

section Decoded
variable {kind : ResourceKind} {entries entries' : List Value}

/-- The identities of the entries that have one. -/
def listedIdentities (kind : ResourceKind) (entries : List Value) : List ResourceIdentity :=
  entries.filterMap fun entry => (listIdentity kind entry).toOption

/-- No two entries have the same identifier. -/
def DistinctEntries (kind : ResourceKind) (entries : List Value) : Prop :=
  ((listedIdentities kind entries).map ResourceIdentity.id).Nodup

/-- A finding for each entry without an identity. -/
def malformedEntries (kind : ResourceKind) (entries : List Value) : List InventoryFinding :=
  (entries.filter fun entry => (listIdentity kind entry).toOption.isNone).map
    fun _ => ⟨.resourceMalformed, none, none, none⟩

theorem ListedSection.eq_of_fields {left right : ListedSection kind}
    (hidentities : left.identities = right.identities) (hfindings : left.findings = right.findings) :
    left = right := by
  cases left
  cases right
  cases hidentities
  cases hfindings
  rfl

theorem addEntry_of_ok {listed : ListedSection kind} {entry : Value} {identity : ResourceIdentity}
    (h : listIdentity kind entry = .ok identity)
    (hnew : identity.id ∉ listed.identities.map ResourceIdentity.id) :
    (listed.addEntry entry).identities = listed.identities ++ [identity] ∧
      (listed.addEntry entry).findings = listed.findings := by
  have hfresh : ¬(listed.identities.any fun previous => previous.id == identity.id) = true := by
    rw [List.any_eq_true]
    rintro ⟨previous, hprevious, hid⟩
    exact hnew (List.mem_map.mpr ⟨previous, hprevious, beq_iff_eq.mp hid⟩)
  unfold ListedSection.addEntry
  split
  · next other hother =>
      rw [h] at hother
      cases hother
      rw [if_neg hfresh]
      exact ⟨rfl, rfl⟩
  · next code hcode =>
      rw [h] at hcode
      cases hcode

theorem addEntry_of_error {listed : ListedSection kind} {entry : Value} {code : DiagnosticCode}
    (h : listIdentity kind entry = .error code) :
    listed.addEntry entry = listed.report ⟨.resourceMalformed, none, none, none⟩ := by
  unfold ListedSection.addEntry
  split
  · next identity hidentity =>
      rw [h] at hidentity
      cases hidentity
  · rfl

theorem listedIdentities_singleton {entry : Value} :
    listedIdentities kind [entry] = (listIdentity kind entry).toOption.toList := by
  rw [listedIdentities, List.filterMap_cons]
  cases (listIdentity kind entry).toOption <;> rfl

/-- Distinct entries are all kept, in their order. -/
theorem foldl_addEntry (h : DistinctEntries kind entries) :
    (entries.foldl ListedSection.addEntry (.empty kind)).identities =
        listedIdentities kind entries ∧
      (entries.foldl ListedSection.addEntry (.empty kind)).findings =
        malformedEntries kind entries := by
  induction entries using List.reverseRecOn with
  | nil => exact ⟨rfl, rfl⟩
  | append_singleton entries entry ih =>
      have happend : listedIdentities kind (entries ++ [entry]) =
          listedIdentities kind entries ++ listedIdentities kind [entry] := List.filterMap_append
      rw [DistinctEntries, happend, List.map_append, listedIdentities_singleton] at h
      obtain ⟨hfront, -, hnew⟩ := List.nodup_append.mp h
      obtain ⟨hidentities, hfindings⟩ := ih hfront
      rw [List.foldl_append, List.foldl_cons, List.foldl_nil, happend,
        listedIdentities_singleton, malformedEntries, List.filter_append, List.map_append]
      cases hentry : listIdentity kind entry with
      | ok identity =>
          rw [hentry] at hnew
          have hfresh : identity.id ∉ (entries.foldl ListedSection.addEntry
              (.empty kind)).identities.map ResourceIdentity.id := by
            rw [hidentities]
            exact fun hmem => hnew _ hmem _ (List.mem_singleton_self _) rfl
          obtain ⟨hkept, hreported⟩ := addEntry_of_ok hentry hfresh
          rw [List.filter_cons_of_neg (by simp [hentry, Except.toOption])]
          refine ⟨hkept.trans (congrArg (· ++ [identity]) hidentities), ?_⟩
          exact hreported.trans (hfindings.trans (List.append_nil _).symm)
      | error code =>
          rw [addEntry_of_error hentry,
            List.filter_cons_of_pos (by simp [hentry, Except.toOption])]
          exact ⟨hidentities.trans (List.append_nil _).symm, congrArg (· ++ [_]) hfindings⟩

theorem identityOrder_antisymm {left right : ResourceIdentity} (hkind : left.kind = right.kind)
    (hle : (ListedSection.identityOrder left right).isLE)
    (hge : (ListedSection.identityOrder right left).isLE) : left = right := by
  have heq := OrientedCmp.isLE_antisymm hle hge
  obtain ⟨hid, hname⟩ := Ordering.then_eq_eq.mp heq
  cases left
  cases right
  cases hkind
  cases Std.compare_eq_iff_eq.mp hid
  cases Std.compare_eq_iff_eq.mp hname
  rfl

theorem DistinctEntries.perm (h : DistinctEntries kind entries) (hperm : entries.Perm entries') :
    DistinctEntries kind entries' := ((hperm.filterMap _).map _).nodup_iff.mp h

/-- Distinct entries are decoded in one way, whatever their order is. -/
theorem sort_foldl_perm (h : DistinctEntries kind entries) (hperm : entries.Perm entries') :
    (entries.foldl ListedSection.addEntry (.empty kind)).sort =
      (entries'.foldl ListedSection.addEntry (.empty kind)).sort := by
  obtain ⟨hidentities, hfindings⟩ := foldl_addEntry h
  obtain ⟨hidentities', hfindings'⟩ := foldl_addEntry (h.perm hperm)
  refine ListedSection.eq_of_fields ?_ ?_
  · refine List.Perm.eq_of_pairwise ?_ (pairwise_sort _) (pairwise_sort _) ?_
    · intro left right hleft hright hle hge
      refine identityOrder_antisymm ?_ hle hge
      exact (ListedSection.ofKind _ left hleft).trans (ListedSection.ofKind _ right hright).symm
    · refine (List.perm_insertionSort _ _).trans
        (List.Perm.trans ?_ (List.perm_insertionSort _ _).symm)
      rw [hidentities, hidentities']
      exact hperm.filterMap _
  · refine hfindings.trans (Eq.trans ?_ hfindings'.symm)
    rw [malformedEntries, malformedEntries, List.map_const', List.map_const',
      (hperm.filter _).length_eq]

end Decoded

section Runs
variable {services : AcquisitionServices} {options : AcquisitionOptions}
  {service : ServiceObservation} {answers answers' : Answers}

/-- Both responses are lists of the same distinct entries, in some order. -/
def SameEntries (fromSlice : JsonReader) (kind : ResourceKind)
    (left right : PodmanLensResult LibpodResponse) : Prop :=
  ∃ response response' value value' entries entries',
    left = .ok response ∧ right = .ok response' ∧
    requireOkJson response = .ok () ∧ requireOkJson response' = .ok () ∧
    decodeJson fromSlice response.body = .ok value ∧
    decodeJson fromSlice response'.body = .ok value' ∧
    listEntries kind value = .ok entries ∧ listEntries kind value' = .ok entries' ∧
    DistinctEntries kind entries ∧ entries.Perm entries'

/-- The transports answer alike, apart from the order in which lists give their entries. -/
structure SameLists (services : AcquisitionServices) (answers answers' : Answers) : Prop where
  listed : ∀ version kind path, listPath services.isRelease version kind = .ok path →
    answers path = answers' path ∨
      SameEntries services.fromSlice kind (answers path) (answers' path)
  other : ∀ path, (∀ version kind, listPath services.isRelease version kind ≠ .ok path) →
    answers path = answers' path

/-- It is enough that one list gives its entries in another order. -/
theorem SameLists.of_one {version : String} {kind : ResourceKind} {path : LibpodPath}
    (hpath : listPath services.isRelease version kind = .ok path)
    (hentries : SameEntries services.fromSlice kind (answers path) (answers' path))
    (hagree : ∀ asked, asked ≠ path → answers asked = answers' asked) :
    SameLists services answers answers' where
  listed version' kind' asked hasked := by
    by_cases hsame : asked = path
    · cases hsame
      cases listPath_unique hpath hasked
      exact Or.inr hentries
    · exact Or.inl (hagree asked hsame)
  other asked hasked := hagree asked fun hsame => hasked version kind (hsame ▸ hpath)

theorem SameEntries.decodeList {kind : ResourceKind} {left right : PodmanLensResult LibpodResponse}
    (h : SameEntries services.fromSlice kind left right) :
    (left >>= PodmanLens.decodeList services.fromSlice kind) =
      (right >>= PodmanLens.decodeList services.fromSlice kind) := by
  obtain ⟨response, response', value, value', entries, entries', rfl, rfl, hjson, hjson', hvalue,
    hvalue', hentries, hentries', hdistinct, hperm⟩ := h
  change PodmanLens.decodeList services.fromSlice kind response =
    PodmanLens.decodeList services.fromSlice kind response'
  simp only [PodmanLens.decodeList, hjson, hjson', hvalue, hvalue', hentries, hentries',
    sort_foldl_perm hdistinct hperm, Except.bind, bind]

theorem listSection_same (h : SameLists services answers answers') (kind : ResourceKind) :
    (listSection services answers.send service kind).run =
      (listSection services answers'.send service kind).run := by
  change ((sendGet answers.send (sectionListPath services service kind)).run >>=
      decodeList services.fromSlice kind) =
    ((sendGet answers'.send (sectionListPath services service kind)).run >>=
      decodeList services.fromSlice kind)
  cases hpath : sectionListPath services service kind with
  | error code => rfl
  | ok path =>
      change (answers path >>= _) = (answers' path >>= _)
      rcases h.listed _ _ _ hpath with hsame | hsame
      · rw [hsame]
      · exact hsame.decodeList

theorem listKind_same (h : SameLists services answers answers') (kind : ResourceKind) :
    (listKind services answers.send service kind).run =
      (listKind services answers'.send service kind).run := by
  rw [listKind, listKind]
  split_ifs
  · rfl
  · rw [Id.run_bind, Id.run_bind, listSection_same h]

/-- The requests beside the lists are answered alike. -/
theorem sendGet_same (h : SameLists services answers answers')
    (request : PodmanLensResult LibpodPath)
    (hrequest : ∀ path, request = .ok path → ∀ version kind,
      listPath services.isRelease version kind ≠ .ok path) :
    sendGet answers.send request = sendGet answers'.send request := by
  cases request with
  | error code => rfl
  | ok path => exact congrArg pure (h.other path (hrequest path rfl))

theorem probe_same (h : SameLists services answers answers') :
    probeLibpodService services answers.send = probeLibpodService services answers'.send := by
  have hping := sendGet_same h (pingPath services.isRelease)
    fun path hping version kind hlist => listPath_ne_pingPath hlist hping
  have hversion (api : ObservedVersion) := sendGet_same h (versionProbePath services.isRelease api)
    fun path hprobe version kind hlist => listPath_ne_versionProbePath hlist hprobe
  rw [probeLibpodService, probeLibpodService, hping]
  simp only [hversion]

theorem inspectObservation_same (h : SameLists services answers answers') {kind : ResourceKind}
    (identity : ResourceIdentity) (ofKind : identity.kind = kind) (limit : ℕ) :
    inspectObservation services answers.send service options identity ofKind limit =
      inspectObservation services answers'.send service options identity ofKind limit := by
  cases hpath : inspectPath services service identity with
  | error code => simp only [inspectObservation, hpath]
  | ok path =>
      have hanswer : answers path = answers' path :=
        h.other path fun version kind => resource_ne_listPath hpath
      simp only [inspectObservation, hpath, Answers.send, hanswer]

theorem inspectIdentities_same (h : SameLists services answers answers') {kind : ResourceKind}
    (reservation : ℕ) (identities : List ResourceIdentity)
    (ofKind : ∀ identity ∈ identities, identity.kind = kind) (remaining : ℕ) :
    inspectIdentities services answers.send service options reservation identities ofKind
        remaining =
      inspectIdentities services answers'.send service options reservation identities ofKind
        remaining := by
  induction identities generalizing remaining with
  | nil => rfl
  | cons identity rest ih => simp only [inspectIdentities, inspectObservation_same h, ih]

theorem inspectKinds_same (h : SameLists services answers answers')
    (entries : List (KindListing × ℕ)) (remaining : ℕ) :
    inspectKinds services answers.send service options entries remaining =
      inspectKinds services answers'.send service options entries remaining := by
  have hkind (listing : KindListing) (reservation remaining : ℕ) :
      inspectKind services answers.send service options listing reservation remaining =
        inspectKind services answers'.send service options listing reservation remaining := by
    cases hlisted : listing.listed with
    | error code => simp only [inspectKind, hlisted]
    | ok listed => simp only [inspectKind, hlisted, inspectIdentities_same h]
  induction entries generalizing remaining with
  | nil => rfl
  | cons entry rest ih => simp only [inspectKinds, hkind, ih]

/-- The order in which a service lists its resources does not show in the inventory. -/
theorem acquireInventory_listOrder (h : SameLists services answers answers') :
    (acquireInventory services answers.send options).run =
      (acquireInventory services answers'.send options).run := by
  have hlistings (service : ServiceObservation) :
      (allKinds.mapM (listKind services answers.send service)).run =
        (allKinds.mapM (listKind services answers'.send service)).run := by
    rw [List.idRun_mapM, List.idRun_mapM]
    exact List.map_congr_left fun kind _ => listKind_same h kind
  have hinventory (service : ServiceObservation) :
      (inspectInventory services answers.send options service).run =
        (inspectInventory services answers'.send options service).run := by
    rw [inspectInventory, inspectInventory, Id.run_bind, Id.run_bind, hlistings service,
      inspectKinds_same h]
  rw [acquireInventory, acquireInventory, Id.run_bind, Id.run_bind, probe_same h]
  cases (probeLibpodService services answers'.send).run with
  | error code => rfl
  | ok service =>
      exact congrArg (fun sections => Except.ok (NativeInventory.mk service
        (reconcileSections sections))) (hinventory service)

end Runs

def webEntry : Value := .object [("Id", .string "a"), ("Names", .array [.string "web"])]

def jobEntry : Value := .object [("Id", .string "b")]

/-- Bodies that list two containers in either order. -/
def reorderedServices : AcquisitionServices :=
  { twoContainerServices with
    fromSlice := fun body =>
      if body = [0] then some versionDocument
      else if body = [1] then some (.array [webEntry, jobEntry])
      else if body = [3] then some (.array [jobEntry, webEntry]) else none }

def versionPath : LibpodPath := ⟨"/v4.0.0/libpod/version"⟩

def containerList : LibpodPath := ⟨"/v6.1.0/libpod/containers/json?all=true&sync=true"⟩

def listAnswers (body : List UInt8) : Answers := fun path =>
  .ok (newestResponse (if path = containerList then body else if path = versionPath then [0] else []))

theorem acquireInventory_listOrder_sample :
    (acquireInventory reorderedServices (listAnswers [1]).send ⟨.redact⟩).run =
      (acquireInventory reorderedServices (listAnswers [3]).send ⟨.redact⟩).run := by
  have hpath : listPath reorderedServices.isRelease "6.1.0" .container =
      .ok containerList := by decide +kernel
  have hdistinct : DistinctEntries .container [webEntry, jobEntry] := by
    rw [DistinctEntries]
    decide +kernel
  refine acquireInventory_listOrder (SameLists.of_one hpath ?_ fun asked hasked => ?_)
  · exact ⟨_, _, _, _, _, _, rfl, rfl, by decide +kernel, by decide +kernel, rfl, rfl, rfl, rfl,
      hdistinct, List.Perm.swap _ _ _⟩
  · rw [listAnswers, listAnswers, if_neg hasked, if_neg hasked]

end PodmanLens
