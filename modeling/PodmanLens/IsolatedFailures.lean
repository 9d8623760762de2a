import PodmanLens.FieldBudget
import PodmanLens.ListedRecords

/-!
# Isolated failures

Two transports that differ in the answer to one inspect request are compared. The probe and the
lists ask for other paths, so both acquisitions inspect the same resources, and the limit of unknown
fields that is handed on from the differing record changes no state and no details of another one.
-/

namespace PodmanLens
open Json

section Limits
variable {library : VersionLibrary} {fromSlice : JsonReader} {listed : ResourceIdentity}
  {evidence : ResourceEvidence} {options : AcquisitionOptions} (limit limit' : ℕ)

/-- What a record says apart from its findings and its unknown fields. -/
def NativeObservation.core (observation : NativeObservation) :
    ResourceIdentity × ResourceObservationState × NativeDetails :=
  (observation.header.identity, observation.header.state, observation.details)

theorem core_tryNew {header header' : ObservationHeader} (details : NativeDetails)
    (hidentity : header.identity = header'.identity) (hstate : header.state = header'.state) :
    (NativeObservation.tryNew header details).map NativeObservation.core =
      (NativeObservation.tryNew header' details).map NativeObservation.core := by
  rw [NativeObservation.tryNew, NativeObservation.tryNew]
  by_cases hkind : header.identity.kind = details.kind
  · rw [dif_pos hkind, dif_pos (hidentity ▸ hkind)]
    simp only [Except.map, NativeObservation.core, hidentity, hstate]
  · rw [dif_neg hkind, dif_neg (hidentity ▸ hkind)]

theorem core_decodeObservation (response : LibpodResponse) :
    (decodeObservation library fromSlice listed response evidence options limit).map
        NativeObservation.core =
      (decodeObservation library fromSlice listed response evidence options limit').map
        NativeObservation.core := by
  rw [decodeObservation, decodeObservation]
  cases responseObject library fromSlice listed response evidence with
  | error code => rfl
  | ok object =>
      change (observeObject library listed object evidence options limit).map _ =
        (observeObject library listed object evidence options limit').map _
      rw [observeObject, observeObject]
      cases decodeKind listed object library evidence options with
      | error code => rfl
      | ok decoded => exact core_tryNew _ rfl rfl

variable {services : AcquisitionServices} {service : ServiceObservation}

/-- The limit changes neither state nor details. -/
theorem core_answeredObservation (identity : ResourceIdentity)
    (answer : PodmanLensResult LibpodResponse) :
    (answeredObservation services service options identity limit answer).core =
      (answeredObservation services service options identity limit' answer).core := by
  unfold answeredObservation
  cases answer with
  | error code => rfl
  | ok response =>
      by_cases hstatus : response.status = 404
      · simp only [if_pos hstatus]
      · simp only [if_neg hstatus]
        have hcore : (decodeObservation services.library services.fromSlice identity response
            (.fromService service) options limit).map NativeObservation.core = _ :=
          core_decodeObservation limit limit' response
        generalize decodeObservation services.library services.fromSlice identity response
          (.fromService service) options limit = left at hcore ⊢
        generalize decodeObservation services.library services.fromSlice identity response
          (.fromService service) options limit' = right at hcore ⊢
        cases left with
        | error code =>
            cases right with
            | error code' => rw [Except.error.inj hcore]
            | ok record => cases hcore
        | ok record =>
            cases right with
            | error code => cases hcore
            | ok record' => exact Except.ok.inj hcore

end Limits

section Runs
variable {services : AcquisitionServices} {options : AcquisitionOptions}
  {service : ServiceObservation} {answers answers' : Answers} {version : String}
  {kind : ResourceKind} {id : String} {path : LibpodPath}

/-- The records are about one resource, and say the same unless it is this one. -/
structure SameRecord (kind : ResourceKind) (id : String) (left right : NativeObservation) :
    Prop where
  kind_eq : left.header.identity.kind = right.header.identity.kind
  id_eq : left.header.identity.id = right.header.identity.id
  core_eq : ¬(left.header.identity.kind = kind ∧ left.header.identity.id = id) →
    left.header.identity = right.header.identity ∧ left.header.state = right.header.state ∧
      left.details = right.details

structure SameSection (kind : ResourceKind) (id : String) (left right : InspectedSection) :
    Prop where
  kind_eq : left.kind = right.kind
  availability_eq : left.availability = right.availability
  findings_eq : left.findings = right.findings
  records : List.Forall₂ (SameRecord kind id) left.observations right.observations

theorem SameRecord.of_core {left right : NativeObservation} (h : left.core = right.core) :
    SameRecord kind id left right := by
  obtain ⟨hidentity, hrest⟩ := Prod.mk.inj h
  obtain ⟨hstate, hdetails⟩ := Prod.mk.inj hrest
  exact ⟨congrArg _ hidentity, congrArg _ hidentity, fun _ => ⟨hidentity, hstate, hdetails⟩⟩

/-- No other path is asked differently. -/
theorem sendGet_agree (hagree : ∀ other, other ≠ path → answers other = answers' other)
    {request : PodmanLensResult LibpodPath} (hrequest : request ≠ .ok path) :
    sendGet answers.send request = sendGet answers'.send request := by
  cases request with
  | error code => rfl
  | ok other => exact congrArg pure (hagree other fun h => hrequest (h ▸ rfl))

variable (hpath : LibpodPath.resource version kind.collection id "json" = .ok path)
  (hagree : ∀ other, other ≠ path → answers other = answers' other)
include hpath hagree

theorem probe_agree :
    probeLibpodService services answers.send = probeLibpodService services answers'.send := by
  have hping := sendGet_agree hagree
    (resource_ne_pingPath hpath : pingPath services.isRelease ≠ _)
  have hversion (api : ObservedVersion) := sendGet_agree hagree
    (resource_ne_versionProbePath hpath : versionProbePath services.isRelease api ≠ _)
  rw [probeLibpodService, probeLibpodService, hping]
  simp only [hversion]

theorem listKind_agree (listed : ResourceKind) :
    listKind services answers.send service listed =
      listKind services answers'.send service listed := by
  have hlist : sendGet answers.send (sectionListPath services service listed) =
      sendGet answers'.send (sectionListPath services service listed) :=
    sendGet_agree hagree (resource_ne_listPath hpath)
  rw [listKind, listKind, listSection, listSection, hlist]

theorem sameRecord_inspectObservation {listed : ResourceKind} (identity : ResourceIdentity)
    (ofKind : identity.kind = listed) (limit limit' : ℕ) : SameRecord kind id
      (inspectObservation services answers.send service options identity ofKind
        limit).run.observation
      (inspectObservation services answers'.send service options identity ofKind
        limit').run.observation := by
  cases hinspect : inspectPath services service identity with
  | error code =>
      simp only [inspectObservation, hinspect]
      exact .of_core rfl
  | ok asked =>
      simp only [inspectObservation, hinspect]
      change SameRecord kind id
        (answeredObservation services service options identity limit (answers asked))
        (answeredObservation services service options identity limit' (answers' asked))
      by_cases hsame : asked = path
      · cases hsame
        obtain ⟨hkind, hid⟩ := resource_unique hinspect hpath
        have hleft : _ ∧ (answeredObservation services service options identity limit
          (answers path)).header.identity.id = _ := identity_answeredObservation ..
        have hright : _ ∧ (answeredObservation services service options identity limit'
          (answers' path)).header.identity.id = _ := identity_answeredObservation ..
        exact ⟨hleft.1.trans hright.1.symm, hleft.2.trans hright.2.symm,
          fun hother => absurd ⟨hleft.1.trans hkind, hleft.2.trans hid⟩ hother⟩
      · rw [hagree asked hsame]
        exact .of_core (core_answeredObservation ..)

theorem sameRecords_inspectIdentities {listed : ResourceKind} (reservation : ℕ)
    (identities : List ResourceIdentity)
    (ofKind : ∀ identity ∈ identities, identity.kind = listed) (remaining remaining' : ℕ) :
    List.Forall₂ (SameRecord kind id)
      ((inspectIdentities services answers.send service options reservation identities ofKind
        remaining).run.1.map InspectedRecord.observation)
      ((inspectIdentities services answers'.send service options reservation identities ofKind
        remaining').run.1.map InspectedRecord.observation) := by
  induction identities generalizing remaining remaining' with
  | nil => exact .nil
  | cons identity rest ih =>
      exact .cons (sameRecord_inspectObservation hpath hagree identity _ _ _) (ih _ _ _)

theorem sameSection_inspectKind (listing : KindListing) (reservation remaining remaining' : ℕ) :
    SameSection kind id
      (inspectKind services answers.send service options listing reservation remaining).run.1
      (inspectKind services answers'.send service options listing reservation
        remaining').run.1 := by
  cases hlisted : listing.listed with
  | error code =>
      simp only [inspectKind, hlisted]
      exact ⟨rfl, rfl, rfl, .nil⟩
  | ok listed =>
      simp only [inspectKind, hlisted]
      exact ⟨rfl, rfl, rfl, sameRecords_inspectIdentities hpath hagree _ _ _ _ _⟩

/-- Whatever remains of the budget on either side, the sections stay the same. -/
theorem sameSections_inspectKinds (entries : List (KindListing × ℕ)) (remaining remaining' : ℕ) :
    List.Forall₂ (SameSection kind id)
      (inspectKinds services answers.send service options entries remaining).run
      (inspectKinds services answers'.send service options entries remaining').run := by
  induction entries generalizing remaining remaining' with
  | nil => exact .nil
  | cons entry rest ih =>
      exact .cons (sameSection_inspectKind hpath hagree entry.1 entry.2 _ _) (ih _ _)

theorem sameSections_inspectInventory : List.Forall₂ (SameSection kind id)
    (inspectInventory services answers.send options service).run
    (inspectInventory services answers'.send options service).run := by
  have hlistings : allKinds.mapM (listKind services answers.send service) =
      allKinds.mapM (listKind services answers'.send service) :=
    congrArg allKinds.mapM (funext (listKind_agree hpath hagree))
  rw [inspectInventory, inspectInventory, hlistings]
  exact sameSections_inspectKinds hpath hagree _ _ _

omit hpath hagree

theorem SameSection.extendFindings {left right : InspectedSection}
    (h : SameSection kind id left right)
    (added added' : AcquiredRecord → List InventoryFinding) :
    SameSection kind id (left.extendFindings added) (right.extendFindings added') := by
  refine ⟨h.kind_eq, h.availability_eq, h.findings_eq, ?_⟩
  have hobservations (found : InspectedSection)
      (added : AcquiredRecord → List InventoryFinding) : (found.extendFindings added).observations =
        found.observations.map fun observation => observation.withFindings
          (observation.header.findings ++ added observation.acquired) := by
    rw [InspectedSection.observations, InspectedSection.observations, List.map_map,
      InspectedSection.extendFindings, List.map_map]
    rfl
  rw [hobservations, hobservations, List.forall₂_map_left_iff, List.forall₂_map_right_iff]
  exact h.records.imp fun left right hrecord => ⟨hrecord.kind_eq, hrecord.id_eq, hrecord.core_eq⟩

theorem sameSections_reconcileSections {left right : List InspectedSection}
    (h : List.Forall₂ (SameSection kind id) left right) :
    List.Forall₂ (SameSection kind id) (reconcileSections left) (reconcileSections right) := by
  rw [reconcileSections_eq, reconcileSections_eq, List.forall₂_map_left_iff,
    List.forall₂_map_right_iff]
  exact h.imp fun _ _ hsection => hsection.extendFindings _ _

/-- Each available section has one record for each identifier that its list names, whatever the
inspections gave, and another answer to the inspection of one resource changes no other record. -/
theorem acquireInventory_lossless_isolated (services : AcquisitionServices)
    (options : AcquisitionOptions) :
    (∀ (answers : Answers) inventory,
      (acquireInventory services answers.send options).run = .ok inventory →
        ∀ found ∈ inventory.sections, found.availability = .available →
          ∃ entries, ListsEntries services answers inventory.service found.kind entries ∧
            RecordsListed entries found) ∧
    ∀ (answers answers' : Answers) version kind id path,
      LibpodPath.resource version (ResourceKind.collection kind) id "json" = .ok path →
      (∀ other, other ≠ path → answers other = answers' other) →
        (∀ code, (acquireInventory services answers.send options).run = .error code →
          (acquireInventory services answers'.send options).run = .error code) ∧
        ∀ inventory, (acquireInventory services answers.send options).run = .ok inventory →
          ∃ inventory', (acquireInventory services answers'.send options).run = .ok inventory' ∧
            inventory'.service = inventory.service ∧
            List.Forall₂ (SameSection kind id) inventory.sections inventory'.sections := by
  constructor
  · intro answers inventory hinventory found hfound havailable
    exact recordsListed_acquireInventory hinventory hfound havailable
  · intro answers answers' version kind id path hpath hagree
    have hprobe : probeLibpodService services answers'.send =
        probeLibpodService services answers.send := (probe_agree hpath hagree).symm
    constructor
    · intro code hcode
      rw [acquireInventory, Id.run_bind] at hcode ⊢
      rw [hprobe]
      cases hprobed : (probeLibpodService services answers.send).run with
      | error found =>
          rw [hprobed] at hcode
          exact hcode
      | ok service =>
          rw [hprobed] at hcode
          cases hcode
    · intro inventory hinventory
      obtain ⟨hprobed, hsections⟩ := acquireInventory_eq_ok hinventory
      refine ⟨⟨inventory.service, reconcileSections
        (inspectInventory services answers'.send options inventory.service).run⟩, ?_, rfl, ?_⟩
      · rw [acquireInventory, Id.run_bind, hprobe, hprobed]
        rfl
      · rw [hsections]
        exact sameSections_reconcileSections (sameSections_inspectInventory hpath hagree)

end Runs

/-- Both listed containers can be asked for, and one of them answers. -/
def plainAnswers : Answers := fun path => .ok (newestResponse (twoContainerBody path))

/-- The other one fails as well. -/
def failingAnswers : Answers := fun path =>
  if path = ⟨"/v6.1.0/libpod/containers/a/json"⟩ then .error .transportUnavailable
  else plainAnswers path

def acquiredStates (answers : Answers) : Option (List (String × ResourceObservationState)) :=
  (acquireInventory twoContainerServices answers.send ⟨.redact⟩).run.toOption.map
    fun inventory => inventory.observations.map fun observation =>
      (observation.header.identity.id, observation.header.state)

theorem acquiredStates_eq {answers : Answers}
    (hping : answers ⟨"/libpod/_ping"⟩ = .ok (newestResponse []))
    (hversion : answers ⟨"/v4.0.0/libpod/version"⟩ = .ok (newestResponse [0])) :
    acquiredStates answers = some ((reconcileSections
      (inspectInventory twoContainerServices answers.send ⟨.redact⟩ newestService).run).flatMap
        fun found => found.observations.map fun observation =>
          (observation.header.identity.id, observation.header.state)) := by
  rw [acquiredStates, answers.acquireInventory_newest ⟨.redact⟩ rfl rfl hping hversion]
  simp only [Except.toOption, Option.map_some, NativeInventory.observations, List.map_flatMap]

theorem acquireInventory_lossless_isolated_sample :
    acquiredStates plainAnswers = some [("a", .complete), ("b", .malformed)] ∧
    acquiredStates failingAnswers = some [("a", .unavailable), ("b", .malformed)] ∧
    ∀ inventory, (acquireInventory twoContainerServices plainAnswers.send ⟨.redact⟩).run =
        .ok inventory →
      ∃ inventory', (acquireInventory twoContainerServices failingAnswers.send ⟨.redact⟩).run =
          .ok inventory' ∧
        List.Forall₂ (SameSection .container "a") inventory.sections inventory'.sections := by
  have hplain := @acquiredStates_eq plainAnswers rfl rfl
  have hfailing := @acquiredStates_eq failingAnswers (if_neg (by decide)) (if_neg (by decide))
  rw [hplain, hfailing]
  refine ⟨by decide +kernel, by decide +kernel, fun inventory hinventory => ?_⟩
  have hagree : ∀ other, other ≠ ⟨"/v6.1.0/libpod/containers/a/json"⟩ →
      plainAnswers other = failingAnswers other := fun other hother => (if_neg hother).symm
  obtain ⟨-, hsame⟩ := (acquireInventory_lossless_isolated twoContainerServices ⟨.redact⟩).2
    plainAnswers failingAnswers "6.1.0" .container "a" _ (by decide +kernel) hagree
  obtain ⟨inventory', hinventory', -, hsections⟩ := hsame inventory hinventory
  exact ⟨inventory', hinventory', hsections⟩

end PodmanLens
