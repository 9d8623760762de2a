import Mathlib.Data.List.Sort
import PodmanLens.Probe
import PodmanLens.Reconciliation

/-!
# Acquisition

After the probe of the service every kind of resource is listed, and only then each listed resource
is inspected, kind by kind in the order of its identifiers. A resource that does not answer with a
record about itself gets a partial one. The unknown fields of all records share a budget, from which
every later kind with resources keeps one field in reserve. The transport is any computation that
answers a path.
-/

namespace PodmanLens
open Std Json

section Listing

/-- The listed resources of one kind. -/
structure ListedSection (kind : ResourceKind) where
  identities : List ResourceIdentity
  findings : List InventoryFinding
  ofKind : ∀ identity ∈ identities, identity.kind = kind

/-- The first string counts, also where it is empty. -/
def firstString (value : Option Value) : Option String :=
  ((value.bind Value.asArray).bind fun values => values.findSome? Value.asStr).filter
    fun text => !text.isEmpty

/-- Networks of the third API have no identifier beside their name. -/
def listedIdKeys : ResourceKind → List String
  | .volume => ["Name"]
  | .secret => ["ID"]
  | .network => ["id", "Name", "name"]
  | .container | .pod | .image => ["Id"]

def listedName (kind : ResourceKind) (object : Members) : Option String :=
  match kind with
  | .container | .image => firstString (lookup object "Names")
  | .secret => secretName object
  | .network => optionalStringAny object ["name", "Name"]
  | .pod | .volume => optionalString object "Name"

def listIdentity (kind : ResourceKind) (value : Value) : PodmanLensResult ResourceIdentity :=
  match value.asObject with
  | none => .error .inventoryShape
  | some object => do
    let id ← requiredStringAny object (listedIdKeys kind)
    return ⟨kind, id, listedName kind object⟩

theorem kind_listIdentity {kind : ResourceKind} {value : Value} {identity : ResourceIdentity}
    (h : listIdentity kind value = .ok identity) : identity.kind = kind := by
  rw [listIdentity] at h
  split at h
  · cases h
  · obtain ⟨id, -, hidentity⟩ := except_bind_eq_ok h
    cases hidentity
    rfl

/-- The third API lists volumes without a wrapper, and a wrapper may hold no volumes. -/
def listEntries (kind : ResourceKind) (value : Value) : PodmanLensResult (List Value) :=
  match kind, value with
  | _, .array entries => .ok entries
  | .volume, .object object =>
    match supplied (lookup object "Volumes") with
    | none => .ok []
    | some (.array entries) => .ok entries
    | some _ => .error .inventoryShape
  | _, _ => .error .inventoryShape

namespace ListedSection
variable {kind : ResourceKind}

def empty (kind : ResourceKind) : ListedSection kind := ⟨[], [], nofun⟩

def report (listed : ListedSection kind) (finding : InventoryFinding) : ListedSection kind :=
  { listed with findings := listed.findings ++ [finding] }

/-- A repeated or malformed entry is reported, and the first one of an identifier stays. -/
def addEntry (listed : ListedSection kind) (entry : Value) : ListedSection kind :=
  match h : listIdentity kind entry with
  | .ok identity =>
    if listed.identities.any fun previous => previous.id == identity.id then
      listed.report ⟨.resourceMalformed, some identity, none, none⟩
    else
      { listed with
        identities := listed.identities ++ [identity]
        ofKind := by
          intro other hother
          rcases List.mem_append.mp hother with hother | hother
          · exact listed.ofKind other hother
          · rw [List.mem_singleton.mp hother, kind_listIdentity h] }
  | .error _ => listed.report ⟨.resourceMalformed, none, none, none⟩

def identityOrder (left right : ResourceIdentity) : Ordering :=
  (compare left.id right.id).then (compare left.name right.name)

def sort (listed : ListedSection kind) : ListedSection kind :=
  { listed with
    identities := listed.identities.insertionSort fun left right => (identityOrder left right).isLE
    ofKind := fun identity h => listed.ofKind identity ((List.mem_insertionSort _).mp h) }

end ListedSection

def decodeList (fromSlice : JsonReader) (kind : ResourceKind) (response : LibpodResponse) :
    PodmanLensResult (ListedSection kind) := do
  requireOkJson response
  let value ← decodeJson fromSlice response.body
  let entries ← listEntries kind value
  return (entries.foldl ListedSection.addEntry (.empty kind)).sort

end Listing

section Records

def incompleteField {α : Type} : ResourceObservationState → ObservationField α
  | .malformed => .malformed
  | .complete | .unavailable => .unavailable

def incompleteDetails (kind : ResourceKind) (state : ResourceObservationState) : NativeDetails :=
  match kind with
  | .container => .container {
      labels := incompleteField state
      environment := incompleteField state
      command := incompleteField state
      entrypoint := incompleteField state
      user := incompleteField state
      workingDirectory := incompleteField state
      hostname := incompleteField state
      healthCheck := incompleteField state
      healthFailureAction := incompleteField state
      startupHealthCheck := incompleteField state
      restartPolicy := incompleteField state
      logging := incompleteField state
      security := incompleteField state
      namespaces := incompleteField state
      resourceControls := incompleteField state
      configuredImage := incompleteField state
      localImageId := incompleteField state
      relationships := incompleteField state
      podMembership := incompleteField state
      nativeDependencies := incompleteField state
      mounts := incompleteField state
      secretGrants := incompleteField state
      memorySwappiness := incompleteField state
      isInfra := incompleteField state
      networking := incompleteField state
      creationEvidence := incompleteField state }
  | .pod => .pod ⟨incompleteField state, incompleteField state, incompleteField state,
      incompleteField state⟩
  | .network => .network ⟨incompleteField state, incompleteField state, incompleteField state,
      incompleteField state, incompleteField state⟩
  | .volume => .volume ⟨incompleteField state, incompleteField state, incompleteField state,
      incompleteField state, incompleteField state, incompleteField state⟩
  | .image => .image ⟨incompleteField state, incompleteField state, incompleteField state,
      incompleteField state, incompleteField state, incompleteField state, incompleteField state,
      incompleteField state, incompleteField state, incompleteField state⟩
  | .secret => .secret ⟨incompleteField state, incompleteField state, incompleteField state,
      incompleteField state⟩

theorem kind_incompleteDetails (kind : ResourceKind) (state : ResourceObservationState) :
    (incompleteDetails kind state).kind = kind := by
  cases kind <;> rfl

/-- The record of a resource that was listed but not decoded. -/
def partialObservation (identity : ResourceIdentity) (evidence : ResourceEvidence)
    (finding : DiagnosticCode) : NativeObservation :=
  let state : ResourceObservationState :=
    if finding = .resourceUnavailable then .unavailable else .malformed
  { header := ⟨identity, state, evidence, [⟨finding, some identity, none, none⟩], [], .incomplete⟩
    details := incompleteDetails identity.kind state
    kindAgrees := (kind_incompleteDetails _ _).symm }

end Records

section Service

def ResourceEvidence.fromService (service : ServiceObservation) : ResourceEvidence :=
  ⟨service.engineVersion.original, service.apiVersion.original, service.inputCapability⟩

variable {m : Type → Type} [Monad m] (services : AcquisitionServices)
  (send : LibpodPath → m (PodmanLensResult LibpodResponse))

/-- Podman 3.0 has no secrets. -/
def resourceKindIsVersionInapplicable (kind : ResourceKind) (service : ServiceObservation) : Bool :=
  kind == .secret &&
    services.library.compare service.engineVersion.semver (.new 3 1 0) == .lt

def sectionListPath (service : ServiceObservation) (kind : ResourceKind) :
    PodmanLensResult LibpodPath :=
  listPath services.isRelease (services.pathVersion service.apiVersion) kind

def listSection (service : ServiceObservation) (kind : ResourceKind) :
    m (PodmanLensResult (ListedSection kind)) := do
  let response ← sendGet send (sectionListPath services service kind)
  return response >>= decodeList services.fromSlice kind

/-- What listing one kind gave. -/
structure KindListing where
  kind : ResourceKind
  listed : PodmanLensResult (ListedSection kind)

/-- All kinds in the order of acquisition. -/
def allKinds : List ResourceKind := [.container, .pod, .network, .volume, .image, .secret]

def listKind (service : ServiceObservation) (kind : ResourceKind) : m KindListing :=
  if resourceKindIsVersionInapplicable services kind service then
    return ⟨kind, .error .versionInapplicableField⟩
  else return ⟨kind, ← listSection services send service kind⟩

/-- Whether there is something to inspect. -/
def KindListing.hasIdentities (listing : KindListing) : Bool :=
  match listing.listed with
  | .ok listed => !listed.identities.isEmpty
  | .error _ => false

/-- For each kind the number of later kinds with resources. -/
def laterKindUnknownFieldReservations (listings : List KindListing) : List ℕ :=
  (List.range listings.length).map fun index =>
    (listings.drop (index + 1)).countP KindListing.hasIdentities

end Service

section Records
variable (services : AcquisitionServices) (service : ServiceObservation)
  (options : AcquisitionOptions)

/-- A record of this kind, and the limit of unknown fields that it was decoded with. -/
structure InspectedRecord (kind : ResourceKind) where
  observation : NativeObservation
  unknownFieldLimit : ℕ
  ofKind : observation.header.identity.kind = kind

/-- The record that the answer to an inspect request gives. -/
def answeredObservation (identity : ResourceIdentity) (limit : ℕ)
    (answer : PodmanLensResult LibpodResponse) : NativeObservation :=
  let evidence := ResourceEvidence.fromService service
  match answer with
  | .error _ => partialObservation identity evidence .resourceUnavailable
  | .ok response =>
    if response.status = 404 then partialObservation identity evidence .resourceUnavailable
    else
      match decodeObservation services.library services.fromSlice identity response evidence options
          limit with
      | .ok record => record
      | .error code => partialObservation identity evidence code

def inspectPath (identity : ResourceIdentity) : PodmanLensResult LibpodPath :=
  LibpodPath.resource (services.pathVersion service.apiVersion) identity.kind.collection identity.id
    "json"

variable {services service options}

theorem answeredObservation_cases (identity : ResourceIdentity) (limit : ℕ)
    (answer : PodmanLensResult LibpodResponse) :
    (∃ code, answeredObservation services service options identity limit answer =
      partialObservation identity (.fromService service) code) ∨
    ∃ response, decodeObservation services.library services.fromSlice identity response
      (.fromService service) options limit =
        .ok (answeredObservation services service options identity limit answer) := by
  unfold answeredObservation
  cases answer with
  | error _ => exact Or.inl ⟨_, rfl⟩
  | ok response =>
      by_cases hstatus : response.status = 404
      · exact Or.inl ⟨.resourceUnavailable, if_pos hstatus⟩
      · simp only [if_neg hstatus]
        cases hrecord : decodeObservation services.library services.fromSlice identity response
            (.fromService service) options limit with
        | error code => exact Or.inl ⟨code, rfl⟩
        | ok record => exact Or.inr ⟨response, hrecord⟩

/-- Whatever the answer is, the record carries the listed identifier. -/
theorem identity_answeredObservation (identity : ResourceIdentity) (limit : ℕ)
    (answer : PodmanLensResult LibpodResponse) :
    (answeredObservation services service options identity limit answer).header.identity.kind =
        identity.kind ∧
      (answeredObservation services service options identity limit answer).header.identity.id =
        identity.id := by
  rcases answeredObservation_cases identity limit answer with ⟨code, hfailed⟩ | ⟨response, hdecoded⟩
  · rw [hfailed]
    exact ⟨rfl, rfl⟩
  · obtain ⟨object, decoded, -, hdecoded, -, hheader⟩ := decodeObservation_eq_ok hdecoded
    rw [hheader]
    exact identity_decodeKind hdecoded

end Records

section Inspection
variable {m : Type → Type} [Monad m] (services : AcquisitionServices)
  (send : LibpodPath → m (PodmanLensResult LibpodResponse)) (service : ServiceObservation)
  (options : AcquisitionOptions)

def maxUnknownFieldsPerRecord : ℕ := 128

def maxUnknownFieldsPerInventory : ℕ := 2048

def inspectObservation {kind : ResourceKind} (identity : ResourceIdentity)
    (ofKind : identity.kind = kind) (limit : ℕ) : m (InspectedRecord kind) :=
  match inspectPath services service identity with
  | .error _ =>
    return ⟨partialObservation identity (.fromService service) .resourceMalformed, limit, ofKind⟩
  | .ok path => do
    let answer ← send path
    return ⟨answeredObservation services service options identity limit answer, limit,
      (identity_answeredObservation identity limit answer).1.trans ofKind⟩

/-- What a record keeps is taken from what remains for the records after it. -/
def inspectIdentities {kind : ResourceKind} (reservation : ℕ) :
    (identities : List ResourceIdentity) → (∀ identity ∈ identities, identity.kind = kind) → ℕ →
      m (List (InspectedRecord kind) × ℕ)
  | [], _, remaining => return ([], remaining)
  | identity :: rest, ofKind, remaining => do
    let record ← inspectObservation services send service options identity
      (ofKind identity List.mem_cons_self)
      (min (remaining - reservation) maxUnknownFieldsPerRecord)
    let (records, remaining) ← inspectIdentities reservation rest
      (fun other h => ofKind other (List.mem_cons_of_mem _ h))
      (remaining - record.observation.header.unmodelled.length)
    return (record :: records, remaining)

/-- Only an available section has records. -/
structure InspectedSection where
  kind : ResourceKind
  availability : InventorySectionAvailability
  records : List (InspectedRecord kind)
  findings : List InventoryFinding
  unavailable_empty : availability ≠ .available → records = []

def unavailableSection (kind : ResourceKind) (code : DiagnosticCode) : InspectedSection where
  kind := kind
  availability :=
    if code = .inventoryJson ∨ code = .inventoryShape then .malformed else .unavailable
  records := []
  findings := [⟨code, none, none, none⟩]
  unavailable_empty _ := rfl

def inspectKind (listing : KindListing) (reservation remaining : ℕ) : m (InspectedSection × ℕ) :=
  match listing.listed with
  | .ok listed => do
    let (records, remaining) ← inspectIdentities services send service options reservation
      listed.identities listed.ofKind remaining
    return (⟨listing.kind, .available, records, listed.findings, nofun⟩, remaining)
  | .error code => return (unavailableSection listing.kind code, remaining)

def inspectKinds : List (KindListing × ℕ) → ℕ → m (List InspectedSection)
  | [], _ => return []
  | (listing, reservation) :: rest, remaining => do
    let (found, remaining) ← inspectKind services send service options listing reservation remaining
    return found :: (← inspectKinds rest remaining)

end Inspection

section Inventory

/-- The record as the passes of reconciliation read it. -/
def NativeObservation.acquired (observation : NativeObservation) : AcquiredRecord where
  observation := ⟨observation.header.identity, observation.details.observed, by
    rw [observation.kindAgrees]
    cases observation.details <;> rfl⟩
  configuredImage :=
    match observation.details with
    | .container value => value.configuredImage
    | _ => .notApplicable
  localImageId :=
    match observation.details with
    | .container value => value.localImageId
    | _ => .notApplicable
  findings := observation.header.findings

def NativeObservation.withFindings (observation : NativeObservation)
    (findings : List InventoryFinding) : NativeObservation :=
  { observation with header := { observation.header with findings } }

def InspectedRecord.withFindings {kind : ResourceKind} (record : InspectedRecord kind)
    (findings : List InventoryFinding) : InspectedRecord kind :=
  { record with observation := record.observation.withFindings findings }

namespace InspectedSection

def observations (found : InspectedSection) : List NativeObservation :=
  found.records.map InspectedRecord.observation

def acquired (found : InspectedSection) : AcquiredSection where
  kind := found.kind
  availability := found.availability
  records := found.records.map fun record => record.observation.acquired
  findings := found.findings
  ofKind := by
    intro record hrecord
    obtain ⟨original, -, rfl⟩ := List.mem_map.mp hrecord
    exact original.ofKind
  unavailable_empty h := by rw [found.unavailable_empty h, List.map_nil]

/-- The findings that the passes leave in the records. -/
def withFindings (found : InspectedSection) (reconciled : AcquiredSection) : InspectedSection :=
  { found with
    records := found.records.zipWith (fun record acquired => record.withFindings acquired.findings)
      reconciled.records
    unavailable_empty := fun h => by rw [found.unavailable_empty h, List.zipWith_nil_left] }

end InspectedSection

def reconcileSections (sections : List InspectedSection) : List InspectedSection :=
  sections.zipWith InspectedSection.withFindings
    (reconcileRelationships (sections.map InspectedSection.acquired))

structure NativeInventory where
  service : ServiceObservation
  sections : List InspectedSection

variable {m : Type → Type} [Monad m] (services : AcquisitionServices)
  (send : LibpodPath → m (PodmanLensResult LibpodResponse)) (options : AcquisitionOptions)

/-- Listing is a phase of its own, before the first inspection. -/
def inspectInventory (service : ServiceObservation) : m (List InspectedSection) := do
  let listings ← allKinds.mapM (listKind services send service)
  inspectKinds services send service options
    (listings.zip (laterKindUnknownFieldReservations listings)) maxUnknownFieldsPerInventory

def acquireInventory : m (PodmanLensResult NativeInventory) := do
  match ← probeLibpodService services send with
  | .error code => return .error code
  | .ok service => do
    let sections ← inspectInventory services send options service
    return .ok ⟨service, reconcileSections sections⟩

end Inventory

section Reconciled
variable {sections : List InspectedSection} {added : AcquiredRecord → List InventoryFinding}

/-- Findings that depend on what was acquired, after those of each record. -/
def InspectedRecord.extendFindings {kind : ResourceKind}
    (added : AcquiredRecord → List InventoryFinding) (record : InspectedRecord kind) :
    InspectedRecord kind :=
  record.withFindings (record.observation.header.findings ++ added record.observation.acquired)

def InspectedSection.extendFindings (added : AcquiredRecord → List InventoryFinding)
    (found : InspectedSection) : InspectedSection :=
  { found with
    records := found.records.map (.extendFindings added)
    unavailable_empty := fun h => by rw [found.unavailable_empty h, List.map_nil] }

theorem withFindings_acquired (found : InspectedSection) :
    found.withFindings (found.acquired.extendFindings added) = found.extendFindings added := by
  have hrecords : found.records.zipWith
      (fun record acquired => record.withFindings acquired.findings)
        (found.acquired.extendFindings added).records =
      found.records.map (.extendFindings added) := by
    simp only [AcquiredSection.extendFindings, AcquiredSection.mapRecords,
      InspectedSection.acquired, List.zipWith_map_right, List.zipWith_self]
    rfl
  simp only [InspectedSection.withFindings, InspectedSection.extendFindings, hrecords]

/-- Reconciliation only adds findings. -/
theorem reconcileSections_eq (sections : List InspectedSection) : reconcileSections sections =
    sections.map (.extendFindings
      (reconciliationFindings (sections.map InspectedSection.acquired))) := by
  simp only [reconcileSections, reconcileRelationships_eq, List.zipWith_map_right,
    List.zipWith_self, withFindings_acquired]

end Reconciled

/-- What is acquired from a service of the newest line, after its probe. -/
theorem acquireInventory_newest {m : Type → Type} [Monad m] [LawfulMonad m]
    {services : AcquisitionServices} {send : LibpodPath → m (PodmanLensResult LibpodResponse)}
    {first second : m Unit} {body : List UInt8} (options : AcquisitionOptions)
    (hlibrary : services.library = releaseLibrary)
    (h : services.fromSlice [0] = some versionDocument)
    (hping : send ⟨"/libpod/_ping"⟩ = (fun _ => .ok (newestResponse body)) <$> first)
    (hversion : send ⟨"/v4.0.0/libpod/version"⟩ = (fun _ => .ok (newestResponse [0])) <$> second) :
    acquireInventory services send options = (do
      first
      second
      let sections ← inspectInventory services send options newestService
      return .ok ⟨newestService, reconcileSections sections⟩) := by
  rw [acquireInventory, probeLibpodService_newest hlibrary h hping hversion]
  simp only [bind_assoc, pure_bind]

end PodmanLens
