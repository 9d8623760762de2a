import PodmanLens.UnknownFields

/-!
# Decoding an inspect response

A response is decoded when it is complete, is JSON and is about the listed resource; the network
documents of the third API are first brought into the form of later ones. The observation carries
the decoded fields, the findings in the order in which they were made, and the unknown fields up to
the limit of the resource.
-/

namespace PodmanLens
open Json Text

section Responses

structure LibpodHeader where
  name : String
  value : String
  deriving DecidableEq

/-- Headers in the order of the response, where names may repeat. -/
abbrev LibpodHeaders := List LibpodHeader

def eqIgnoreAsciiCase (left right : String) : Bool :=
  left.toList.map Char.toLower == right.toList.map Char.toLower

def LibpodHeaders.values (headers : LibpodHeaders) (name : String) : List String :=
  (headers.filter fun header => eqIgnoreAsciiCase header.name name).map LibpodHeader.value

structure LibpodResponse where
  status : ℕ
  headers : LibpodHeaders
  body : List UInt8

def maxInventoryJsonBytes : ℕ := 16 * 1024 * 1024

def trimmed (text : List Char) : List Char :=
  ((text.dropWhile isWhitespace).reverse.dropWhile isWhitespace).reverse

def isJsonMediaType (contentType : String) : Bool :=
  ((fields ';' contentType).head?).any fun mediaType =>
    (trimmed mediaType.toList).map Char.toLower == "application/json".toList

def requireOkJson (response : LibpodResponse) : PodmanLensResult Unit :=
  if response.status ≠ 200 then .error .inventoryHttpStatus
  else
    match response.headers.values "content-type" with
    | [contentType] =>
      if isJsonMediaType contentType then .ok () else .error .inventoryShape
    | _ => .error .inventoryShape

/-- What the JSON library reads from the bytes of a body. -/
abbrev JsonReader := List UInt8 → Option Value

def decodeJson (fromSlice : JsonReader) (body : List UInt8) : PodmanLensResult Value :=
  if maxInventoryJsonBytes < body.length then .error .inventoryJson
  else
    match fromSlice body with
    | some value => .ok value
    | none => .error .inventoryJson

end Responses

section LegacyNetworks

def elementsOf (object : Members) (key : String) : List Value :=
  ((lookup object key).bind Value.asArray).getD []

def stringMember (object : Members) (key : String) : Option String :=
  (lookup object key).bind Value.asStr

/-- The address management of a bridge plugin. -/
def bridgeIpam (plugin : Value) : Option Members := do
  let plugin ← plugin.asObject
  if stringMember plugin "type" = some "bridge" then (lookup plugin "ipam").bind Value.asObject
  else none

def legacySubnet (subnet : Value) : Option Value := do
  let subnet ← subnet.asObject
  let cidr ← stringMember subnet "subnet"
  return .object (insertSome [("subnet", .string cidr)] "gateway"
    ((stringMember subnet "gateway").map .string))

def legacyRoute (route : Value) : Option Value := do
  let route ← route.asObject
  let destination ← stringMember route "dst"
  let gateway ← stringMember route "gw"
  return .object (ofPairs [("destination", .string destination), ("gateway", .string gateway)])

def legacySubnets (ipam : Members) : List Value :=
  (elementsOf ipam "ranges").flatMap fun range =>
    (range.asArray.getD []).filterMap legacySubnet

def nonEmptyArray (values : List Value) : Option Value :=
  if values.isEmpty then none else some (.array values)

/-- The bounded form of a CNI document, which is kept whole as one unknown member. -/
def normalizedConfiguration (configuration : Members) : PodmanLensResult Value := do
  let name ← requiredStringAny configuration ["name"]
  let ipams := (elementsOf configuration "plugins").filterMap bridgeIpam
  let document := ofPairs [("id", .string name), ("name", .string name),
    ("CniConfig", .object configuration)]
  let withSubnets := insertSome document "subnets" (nonEmptyArray (ipams.flatMap legacySubnets))
  return .object (insertSome withSubnets "routes" (nonEmptyArray (ipams.flatMap fun ipam =>
    (elementsOf ipam "routes").filterMap legacyRoute)))

def normalizeLegacyCniNetwork (value : Value) : PodmanLensResult Value :=
  match value with
  | .object configuration =>
    if (lookup configuration "cniVersion").isSome then normalizedConfiguration configuration
    else .ok value
  | .array [configuration] =>
    match configuration.asObject with
    | some configuration => normalizedConfiguration configuration
    | none => .error .inventoryShape
  | .array _ => .error .inventoryShape
  | value => .ok value

end LegacyNetworks

section Observations

inductive UnmodelledCompleteness
  | complete
  | incomplete
  deriving DecidableEq

inductive ResourceObservationState
  | complete
  | unavailable
  | malformed
  deriving DecidableEq

structure ObservationHeader where
  identity : ResourceIdentity
  state : ResourceObservationState
  evidence : ResourceEvidence
  findings : List InventoryFinding
  unmodelled : List UnmodelledField
  unmodelledCompleteness : UnmodelledCompleteness

/-- One acquired resource, with the details of its kind. -/
structure NativeObservation where
  header : ObservationHeader
  details : NativeDetails
  kindAgrees : header.identity.kind = details.kind

def NativeObservation.tryNew (header : ObservationHeader) (details : NativeDetails) :
    PodmanLensResult NativeObservation :=
  if h : header.identity.kind = details.kind then .ok ⟨header, details, h⟩
  else .error .resourceMalformed

def findingNotes (notes : List DecodingNote) : List InventoryFinding :=
  notes.filterMap fun
    | .finding finding => some finding
    | .unmodelled _ _ => none

def unmodelledNotes (notes : List DecodingNote) : List UnknownMember :=
  notes.filterMap fun
    | .finding _ => none
    | .unmodelled path kind => some (path, kind)

/-- An overflow is reported once for the whole record, every retained field under its path. -/
def unknownFieldFindings (identity : ResourceIdentity) (collected : UnknownFieldCollector) :
    List InventoryFinding :=
  (if collected.overflowed then [.field .unknownFieldOverflow identity "$"] else []) ++
    collected.items.map fun found => .field .nativeFieldUnsupported identity found.path

variable (library : VersionLibrary) (fromSlice : JsonReader)

def isLegacyNetwork (listed : ResourceIdentity) (evidence : ResourceEvidence) : Bool :=
  listed.kind == .network && (library.parse evidence.engineVersion).any (·.major == 3)

/-- The loops of the walk, with what the decoders left unmodelled as the last one. -/
def unknownFieldSites (kind : ResourceKind) (object : Members) (evidence : ResourceEvidence)
    (decoded : Decoded) : List UnknownSite :=
  unknownTopLevel kind object decoded.known ::
    unknownNestedFields library evidence kind object ++
    [.members (unmodelledNotes decoded.details.notes)]

def inspectObject (listed : ResourceIdentity) (evidence : ResourceEvidence) (value : Value) :
    PodmanLensResult Members := do
  let value ← if isLegacyNetwork library listed evidence then normalizeLegacyCniNetwork value
    else .ok value
  match value.asObject with
  | some object => .ok object
  | none => .error .inventoryShape

/-- The observation of a response whose object has been read. -/
def observeObject (listed : ResourceIdentity) (object : Members) (evidence : ResourceEvidence)
    (options : AcquisitionOptions) (unknownFieldLimit : ℕ) :
    PodmanLensResult NativeObservation := do
  let decoded ← decodeKind listed object library evidence options
  let collected := walkUnknownFields decoded.identity evidence
    (unknownFieldSites library listed.kind object evidence decoded) (.empty unknownFieldLimit)
  let findings := findingNotes decoded.details.notes ++
    unknownFieldFindings decoded.identity collected
  NativeObservation.tryNew ⟨decoded.identity, .complete, evidence, findings, collected.items,
    if collected.overflowed then .incomplete else .complete⟩ decoded.details.value

/-- The object that a response is about. -/
def responseObject (listed : ResourceIdentity) (response : LibpodResponse)
    (evidence : ResourceEvidence) : PodmanLensResult Members := do
  requireOkJson response
  let value ← decodeJson fromSlice response.body
  inspectObject library listed evidence value

def decodeObservation (listed : ResourceIdentity) (response : LibpodResponse)
    (evidence : ResourceEvidence) (options : AcquisitionOptions) (unknownFieldLimit : ℕ) :
    PodmanLensResult NativeObservation := do
  let object ← responseObject library fromSlice listed response evidence
  observeObject library listed object evidence options unknownFieldLimit

/-- Everything that a walk without a limit retains. -/
def unmodelledFields (listed : ResourceIdentity) (object : Members) (evidence : ResourceEvidence)
    (decoded : Decoded) : List UnmodelledField :=
  ((unknownFieldSites library listed.kind object evidence decoded).flatMap
    UnknownSite.offered).map (.new decoded.identity evidence)

/-- The header that keeps the first of these fields. -/
def limitedHeader (evidence : ResourceEvidence) (decoded : Decoded)
    (fields : List UnmodelledField) (limit : ℕ) : ObservationHeader where
  identity := decoded.identity
  state := .complete
  evidence := evidence
  findings := findingNotes decoded.details.notes ++
    ((if limit < fields.length then [.field .unknownFieldOverflow decoded.identity "$"] else []) ++
      (fields.take limit).map fun found =>
        .field .nativeFieldUnsupported decoded.identity found.path)
  unmodelled := fields.take limit
  unmodelledCompleteness := if limit < fields.length then .incomplete else .complete

variable {library fromSlice} {listed : ResourceIdentity} {evidence : ResourceEvidence}
  {options : AcquisitionOptions} {limit : ℕ} {observation : NativeObservation}

theorem NativeObservation.of_tryNew {header : ObservationHeader} {details : NativeDetails}
    (h : NativeObservation.tryNew header details = .ok observation) :
    observation.header = header ∧ observation.details = details := by
  rw [tryNew] at h
  split_ifs at h
  cases h
  exact ⟨rfl, rfl⟩

theorem observeObject_eq_ok {object : Members}
    (h : observeObject library listed object evidence options limit = .ok observation) :
    ∃ decoded, decodeKind listed object library evidence options = .ok decoded ∧
      observation.details = decoded.details.value ∧ observation.header = limitedHeader evidence
        decoded (unmodelledFields library listed object evidence decoded) limit := by
  obtain ⟨decoded, hdecoded, hobservation⟩ := except_bind_eq_ok h
  refine ⟨decoded, hdecoded, ?_⟩
  obtain ⟨hheader, hdetails⟩ := NativeObservation.of_tryNew hobservation
  refine ⟨hdetails, hheader.trans ?_⟩
  rw [walkUnknownFields_eq_extend, limitedHeader, unknownFieldFindings,
    BoundedCollection.items_empty_extend]
  simp only [BoundedCollection.overflowed_empty_extend]
  rfl

theorem decodeObservation_eq_ok {response : LibpodResponse}
    (h : decodeObservation library fromSlice listed response evidence options limit =
      .ok observation) :
    ∃ object decoded, responseObject library fromSlice listed response evidence = .ok object ∧
      decodeKind listed object library evidence options = .ok decoded ∧
      observation.details = decoded.details.value ∧ observation.header = limitedHeader evidence
        decoded (unmodelledFields library listed object evidence decoded) limit := by
  obtain ⟨object, hobject, hobservation⟩ := except_bind_eq_ok h
  obtain ⟨decoded, hdecoded⟩ := observeObject_eq_ok hobservation
  exact ⟨object, decoded, hobject, hdecoded⟩

end Observations

end PodmanLens
