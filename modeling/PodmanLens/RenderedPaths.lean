import PodmanLens.ContainerOptions
import PodmanLens.LibpodPath

/-!
# Rendered request paths

A server reads a request by splitting at the first question mark, the slashes and the ampersands,
and decoding each part once. Every rendered request reads back as its fixed route with the name
that it carries. A name that is itself a relative segment stays one, so a start request of a
resource named by dots is the only request that path normalization can redirect.
-/

namespace PodmanLens
open Text

section Reading

/-- A request as a server reads it. -/
structure ReadRequest where
  segments : List (List UInt8)
  query : List (List UInt8 × List UInt8)

def readParameter (parameter : List Char) : List UInt8 × List UInt8 :=
  let (name, value) := (splitOnce '=' parameter).getD (parameter, [])
  (percentDecode name, percentDecode value)

def readRequest (request : List Char) : ReadRequest where
  segments := ((splitQuery request).1.splitOn '/').map percentDecode
  query := ((splitQuery request).2.toList.flatMap (·.splitOn '&')).map readParameter

theorem readParameter_append {name : List Char} (h : '=' ∉ name) (value : List Char) :
    readParameter (name ++ '=' :: value) = (percentDecode name, percentDecode value) := by
  rw [readParameter, splitOnce_append h]
  rfl

/-- The parts of a path that no separator of a request splits further. -/
def PathParts (parts : List (List Char)) : Prop :=
  parts ≠ [] ∧ ∀ part ∈ parts, '/' ∉ part ∧ '?' ∉ part

theorem notMem_intercalate {c separator : Char} {parts : List (List Char)} (hne : c ≠ separator)
    (h : ∀ part ∈ parts, c ∉ part) : c ∉ [separator].intercalate parts := by
  intro hmem
  rcases mem_intercalate hmem with heq | ⟨part, hpart, hmem⟩
  · exact hne heq
  · exact h part hpart hmem

theorem PathParts.notMem_query {parts : List (List Char)} (h : PathParts parts) :
    '?' ∉ ['/'].intercalate parts :=
  notMem_intercalate (by decide) fun part hpart => (h.2 part hpart).2

theorem PathParts.splitOn {parts : List (List Char)} (h : PathParts parts) :
    (['/'].intercalate parts).splitOn '/' = parts :=
  List.splitOn_intercalate '/' (fun part hpart => (h.2 part hpart).1) h.1

theorem readRequest_path {parts : List (List Char)} (h : PathParts parts) :
    readRequest (['/'].intercalate parts) = ⟨parts.map percentDecode, []⟩ := by
  rw [readRequest, splitQuery, splitOnce_eq_none h.notMem_query]
  simp only [h.splitOn, Option.toList_none, List.flatMap_nil, List.map_nil]

theorem readRequest_query {parts : List (List Char)} (h : PathParts parts)
    {parameters : List (List Char)} (hparameters : ∀ parameter ∈ parameters, '&' ∉ parameter)
    (hne : parameters ≠ []) :
    readRequest (['/'].intercalate parts ++ '?' :: ['&'].intercalate parameters) =
      ⟨parts.map percentDecode, parameters.map readParameter⟩ := by
  rw [readRequest, splitQuery, splitOnce_append h.notMem_query]
  simp only [h.splitOn, Option.toList_some, List.flatMap_singleton,
    List.splitOn_intercalate '&' hparameters hne]

end Reading

section Routes

/-- The route of an operation with the name that it carries, and the members of its query. -/
def operationRoute (operation : DeploymentOperation) : List String × List (String × String) :=
  match operation.resourceIntent with
  | .network _ => (["networks", "create"], [])
  | .volume _ => (["volumes", "create"], [])
  | .secret secret => (["secrets", "create"], [("name", secret.identity.val.name)])
  | .image image =>
    (["images", "pull"],
      [("reference", image.source.asStr), ("policy", image.pullPolicy.asStr)])
  | .pod pod =>
    if operation.id.action = .startPod then (["pods", pod.identity.val.name, "start"], [])
    else (["pods", "create"], [])
  | .container container =>
    if operation.id.action = .startContainer then
      (["containers", container.identity.val.name, "start"], [])
    else (["containers", "create"], [("name", container.identity.val.name)])
  | .externalPrecondition _ => ([], [])

def requestOf (version : VersionText) (route : List String × List (String × String)) :
    ReadRequest where
  segments := ("" :: ("v" ++ version.asStr) :: "libpod" :: route.1).map (utf8Bytes ·.toList)
  query := route.2.map fun member => (utf8Bytes member.1.toList, utf8Bytes member.2.toList)

/-- The segments that path normalization removes or resolves. -/
def relativeSegments : List (List UInt8) := [[], utf8Bytes ".".toList, utf8Bytes "..".toList]

/-- The request reads back as the route of its operation, and normalization keeps its path. -/
structure DecodesBack (operation : DeploymentOperation) (version : VersionText) (path : String) :
    Prop where
  reads : readRequest path.toList = requestOf version (operationRoute operation)
  proper : ∀ segment ∈ (readRequest path.toList).segments.tail, segment ∉ relativeSegments

/-- The name that a start request carries as a segment of its path. -/
def startedName (operation : DeploymentOperation) : Option String :=
  match operation.resourceIntent with
  | .pod pod => if operation.id.action = .startPod then some pod.identity.val.name else none
  | .container container =>
    if operation.id.action = .startContainer then some container.identity.val.name else none
  | _ => none

def percentEncoded (name : String) : List Char := (percentEncode name).toList

variable {version : VersionText} {operation : DeploymentOperation}

theorem pathParts_route (version : VersionText) {route : List (List Char)}
    (h : ∀ part ∈ route, '/' ∉ part ∧ '?' ∉ part) :
    PathParts ([] :: ('v' :: version.asStr.toList) :: "libpod".toList :: route) := by
  refine ⟨by simp, fun part hpart => ?_⟩
  have hversion : '/' ∉ version.asStr.toList ∧ '?' ∉ version.asStr.toList :=
    ⟨version.notMem (by decide), version.notMem (by decide)⟩
  simp only [List.mem_cons] at hpart
  rcases hpart with rfl | rfl | rfl | hpart
  · decide
  · simpa using hversion
  · decide
  · exact h part hpart

theorem percentDecode_version (version : VersionText) :
    percentDecode ('v' :: version.asStr.toList) = utf8Bytes ("v" ++ version.asStr).toList := by
  have hversion : '%' ∉ version.asStr.toList := version.notMem (by decide)
  rw [percentDecode_of_plain (by simpa using hversion), String.toList_append]
  rfl

theorem toList_libpodPath {route : String} {parts : List (List Char)} {suffix : List Char}
    (hne : parts ≠ []) (hroute : route.toList = ['/'].intercalate parts ++ suffix) :
    (libpodPath version.asStr route).toList = ['/'].intercalate
      ([] :: ('v' :: version.asStr.toList) :: "libpod".toList :: parts) ++ suffix := by
  obtain ⟨first, rest, rfl⟩ := List.exists_cons_of_ne_nil hne
  simp only [libpodPath, String.toList_append, hroute, List.intercalate_cons_cons,
    List.append_assoc]
  rfl

/-- The decoded parts of a path are the bytes of the names they stand for. -/
def SpellsRoute (route : List String) (parts : List (List Char)) : Prop :=
  List.Forall₂ (fun name part => percentDecode part = utf8Bytes name.toList ∧
    '/' ∉ part ∧ '?' ∉ part) route parts

theorem spells_percentEncoded (name : String) :
    percentDecode (percentEncoded name) = utf8Bytes name.toList ∧
      '/' ∉ percentEncoded name ∧ '?' ∉ percentEncoded name :=
  ⟨percentDecode_percentEncode name, notMem_percentEncode (by decide) name,
    notMem_percentEncode (by decide) name⟩

theorem SpellsRoute.segments {route : List String} {parts : List (List Char)}
    (h : SpellsRoute route parts) :
    parts.map percentDecode = route.map (utf8Bytes ·.toList) := by
  induction h with
  | nil => rfl
  | cons hpart _ ih => rw [List.map_cons, List.map_cons, hpart.1, ih]

theorem SpellsRoute.pathParts {route : List String} {parts : List (List Char)}
    (h : SpellsRoute route parts) (version : VersionText) :
    PathParts ([] :: ('v' :: version.asStr.toList) :: "libpod".toList :: parts) := by
  refine pathParts_route version fun part hpart => ?_
  induction h with
  | nil => cases hpart
  | cons hfirst _ ih =>
      rcases List.mem_cons.mp hpart with rfl | hpart
      · exact hfirst.2
      · exact ih hpart

theorem SpellsRoute.segments_request {route : List String} {parts : List (List Char)}
    (h : SpellsRoute route parts) (version : VersionText) :
    ([] :: ('v' :: version.asStr.toList) :: "libpod".toList :: parts).map percentDecode =
      ("" :: ("v" ++ version.asStr) :: "libpod" :: route).map (utf8Bytes ·.toList) := by
  have hlibpod : percentDecode "libpod".toList = utf8Bytes "libpod".toList :=
    percentDecode_of_plain (by decide)
  simp only [List.map_cons, h.segments, percentDecode_version, hlibpod]
  rfl

/-- A route without a query reads back. -/
theorem reads_route {route : List String} {parts : List (List Char)} {text : String}
    (h : SpellsRoute route parts) (hne : parts ≠ [])
    (htext : text.toList = ['/'].intercalate parts) :
    readRequest (libpodPath version.asStr text).toList = requestOf version (route, []) := by
  have hroute : text.toList = ['/'].intercalate parts ++ [] := by rw [htext, List.append_nil]
  rw [toList_libpodPath hne hroute, List.append_nil, readRequest_path (h.pathParts version),
    h.segments_request version]
  rfl

/-- A member of a query with an encoded value. -/
def queryParameter (member : String × String) : List Char :=
  member.1.toList ++ '=' :: percentEncoded member.2

/-- A route with encoded query members reads back. -/
theorem reads_route_query {route : List String} {parts : List (List Char)} {text : String}
    {members : List (String × String)} (h : SpellsRoute route parts) (hne : parts ≠ [])
    (hmembers : members ≠ [])
    (hnames : ∀ member ∈ members, member.1.toList.all Char.isAlphanum = true)
    (htext : text.toList = ['/'].intercalate parts ++
      '?' :: ['&'].intercalate (members.map queryParameter)) :
    readRequest (libpodPath version.asStr text).toList = requestOf version (route, members) := by
  have hname {member : String × String} (hmember : member ∈ members) {c : Char}
      (hc : c.isAlphanum = false) : c ∉ member.1.toList := by
    intro hmem
    rw [List.all_eq_true.mp (hnames member hmember) c hmem] at hc
    cases hc
  have hplain : ∀ parameter ∈ members.map queryParameter, '&' ∉ parameter := by
    intro parameter hparameter
    obtain ⟨member, hmember, rfl⟩ := List.mem_map.mp hparameter
    rw [queryParameter, List.mem_append, List.mem_cons, not_or, not_or]
    exact ⟨hname hmember (by decide), by decide, notMem_percentEncode (by decide) _⟩
  have hread {member : String × String} (hmember : member ∈ members) :
      readParameter (queryParameter member) =
        (utf8Bytes member.1.toList, utf8Bytes member.2.toList) := by
    rw [queryParameter, readParameter_append (hname hmember (by decide)),
      percentDecode_of_plain (hname hmember (by decide)), percentEncoded,
      percentDecode_percentEncode]
  rw [toList_libpodPath hne htext, readRequest_query (h.pathParts version) hplain (by simpa),
    h.segments_request version, List.map_map]
  refine congrArg _ (List.map_congr_left fun member hmember => hread hmember)

theorem spells_plain {name : String} (h : name.toList.all Char.isAlphanum = true) :
    percentDecode name.toList = utf8Bytes name.toList ∧ '/' ∉ name.toList ∧ '?' ∉ name.toList := by
  have hnotMem {c : Char} (hc : c.isAlphanum = false) : c ∉ name.toList := by
    intro hmem
    rw [List.all_eq_true.mp h c hmem] at hc
    cases hc
  exact ⟨percentDecode_of_plain (hnotMem (by decide)), hnotMem (by decide), hnotMem (by decide)⟩

/-- The fixed part of a creation route. -/
theorem spells_create {collection : String} (h : collection.toList.all Char.isAlphanum = true) :
    SpellsRoute [collection, "create"] [collection.toList, "create".toList] :=
  .cons (spells_plain h) (.cons (spells_plain (by decide)) .nil)

theorem reads_create {collection front : String}
    (h : collection.toList.all Char.isAlphanum = true) (hfront : front = collection ++ "/create") :
    readRequest (libpodPath version.asStr front).toList =
      requestOf version ([collection, "create"], []) :=
  reads_route (spells_create h) (by simp) (by simp [hfront])

theorem reads_createNamed {collection front : String}
    (h : collection.toList.all Char.isAlphanum = true)
    (hfront : front = collection ++ "/create?name=") (name : String) :
    readRequest (libpodPath version.asStr (front ++ percentEncode name)).toList =
      requestOf version ([collection, "create"], [("name", name)]) :=
  reads_route_query (spells_create h) (by simp) (by simp) (by simp)
    (by simp [hfront, queryParameter, percentEncoded])

theorem reads_start {collection front : String}
    (h : collection.toList.all Char.isAlphanum = true) (hfront : front = collection ++ "/")
    (name : String) :
    readRequest (libpodPath version.asStr (front ++ percentEncode name ++ "/start")).toList =
      requestOf version ([collection, name, "start"], []) := by
  have hroute : SpellsRoute [collection, name, "start"]
      [collection.toList, percentEncoded name, "start".toList] :=
    .cons (spells_plain h) (.cons (spells_percentEncoded name)
      (.cons (spells_plain (by decide)) .nil))
  exact reads_route hroute (by simp) (by simp [hfront, percentEncoded])

theorem reads_pull (image : ImageIntent) :
    readRequest (libpodPath version.asStr ("images/pull?reference=" ++
        percentEncode image.source.asStr ++ "&policy=" ++ image.pullPolicy.asStr)).toList =
      requestOf version (["images", "pull"],
        [("reference", image.source.asStr), ("policy", image.pullPolicy.asStr)]) := by
  have hroute : SpellsRoute ["images", "pull"] ["images".toList, "pull".toList] :=
    .cons (spells_plain (by decide)) (.cons (spells_plain (by decide)) .nil)
  have hpolicy : percentEncode image.pullPolicy.asStr = image.pullPolicy.asStr := by
    cases image.pullPolicy <;> decide +kernel
  refine reads_route_query hroute (by simp) (by simp) (by simp) ?_
  simp [queryParameter, percentEncoded, hpolicy]

/-- Every rendered request reads back as the route of its operation. -/
theorem reads_renderForms {sources : ManagedImageSources} {policy : SensitiveInlineRenderPolicy}
    {forms : RenderedForms} (h : renderForms operation version.asStr sources policy = .ok forms) :
    readRequest forms.path.toList = requestOf version (operationRoute operation) := by
  rw [renderForms] at h
  rw [operationRoute]
  cases hintent : operation.resourceIntent with
  | network network =>
      rw [hintent] at h
      cases h
      exact reads_create (by decide : "networks".toList.all Char.isAlphanum = true) (by decide +kernel)
  | volume volume =>
      rw [hintent] at h
      cases h
      exact reads_create (by decide : "volumes".toList.all Char.isAlphanum = true) (by decide +kernel)
  | secret secret =>
      rw [hintent] at h
      cases h
      exact reads_createNamed (by decide : "secrets".toList.all Char.isAlphanum = true) (by decide +kernel) _
  | image image =>
      rw [hintent] at h
      cases h
      exact reads_pull image
  | pod pod =>
      simp only [hintent] at h
      by_cases hstart : operation.id.action = .startPod
      · rw [if_pos hstart] at h
        cases h
        simp only [if_pos hstart]
        exact reads_start (by decide : "pods".toList.all Char.isAlphanum = true) (by decide +kernel) _
      · rw [if_neg hstart] at h
        simp only [if_neg hstart, (renderPodCreate_eq h).2.1]
        exact reads_create (by decide : "pods".toList.all Char.isAlphanum = true) (by decide +kernel)
  | container container =>
      simp only [hintent] at h
      by_cases hstart : operation.id.action = .startContainer
      · rw [if_pos hstart] at h
        cases h
        simp only [if_pos hstart]
        exact reads_start (by decide : "containers".toList.all Char.isAlphanum = true) (by decide +kernel) _
      · rw [if_neg hstart] at h
        simp only [if_neg hstart, (renderContainerCreate_eq h).path]
        exact reads_createNamed (by decide : "containers".toList.all Char.isAlphanum = true) (by decide +kernel) _
  | externalPrecondition precondition =>
      rw [hintent] at h
      cases h

theorem mem_relativeSegments {name : String} :
    utf8Bytes name.toList ∈ relativeSegments ↔ name ∈ ["", ".", ".."] := by
  have hname (text : String) : utf8Bytes name.toList = utf8Bytes text.toList ↔ name = text :=
    ⟨utf8Bytes_injective, fun h => by rw [h]⟩
  simp only [relativeSegments, List.mem_cons, List.not_mem_nil, or_false]
  exact or_congr (hname "") (or_congr (hname ".") (hname ".."))

theorem requestOf_proper {route : List String × List (String × String)} :
    (∀ segment ∈ (requestOf version route).segments.tail, segment ∉ relativeSegments) ↔
      ∀ name ∈ route.1, name ∉ ["", ".", ".."] := by
  have hversion : "v" ++ version.asStr ∉ ["", ".", ".."] := by
    intro hmem
    simp only [List.mem_cons, List.not_mem_nil, or_false, ← String.toList_inj,
      String.toList_append] at hmem
    rcases hmem with hmem | hmem | hmem <;> exact absurd hmem (by simp)
  have hlibpod : "libpod" ∉ ["", ".", ".."] := by decide
  simp only [requestOf, List.map_cons, List.tail_cons, List.forall_mem_cons, List.forall_mem_map,
    mem_relativeSegments]
  exact ⟨fun h => h.2.2, fun h => ⟨hversion, hlibpod, h⟩⟩

theorem name_ne_empty (id : DeploymentResourceId) : id.name ≠ "" := by
  have hvalid := id.identifier
  simp only [validIdentifier, Bool.not_eq_true', Bool.or_eq_false_iff] at hvalid
  simpa using hvalid.1.1

theorem start_proper {collection : String} (h : collection ∉ ["", ".", ".."])
    (id : DeploymentResourceId) :
    (∀ name ∈ [collection, id.name, "start"], name ∉ ["", ".", ".."]) ↔
      ∀ name ∈ some id.name, name ≠ "." ∧ name ≠ ".." := by
  have hstart : "start" ∉ ["", ".", ".."] := by decide
  have hname : id.name ∉ ["", ".", ".."] ↔ id.name ≠ "." ∧ id.name ≠ ".." := by
    simp [name_ne_empty id]
  simp only [List.forall_mem_cons, Option.mem_some_iff, forall_eq', hname]
  exact ⟨fun hproper => hproper.2.1, fun hproper => ⟨h, hproper, hstart, by simp⟩⟩

theorem create_proper {route : List String} (h : ∀ name ∈ route, name ∉ ["", ".", ".."]) :
    (∀ name ∈ route, name ∉ ["", ".", ".."]) ↔
      ∀ name ∈ (none : Option String), name ≠ "." ∧ name ≠ ".." :=
  iff_of_true h (by simp)

/-- Only a start request of a resource that is named by dots can be redirected. -/
theorem renderedPath_decodes_iff (operation : DeploymentOperation) (version : VersionText)
    {sources : ManagedImageSources} {policy : SensitiveInlineRenderPolicy} {forms : RenderedForms}
    (h : renderForms operation version.asStr sources policy = .ok forms) :
    DecodesBack operation version forms.path ↔
      ∀ name ∈ startedName operation, name ≠ "." ∧ name ≠ ".." := by
  have hreads := reads_renderForms h
  have hproper : DecodesBack operation version forms.path ↔
      ∀ name ∈ (operationRoute operation).1, name ∉ ["", ".", ".."] := by
    refine Iff.trans ?_ (requestOf_proper : (∀ segment ∈
      (requestOf version (operationRoute operation)).segments.tail, _) ↔ _)
    constructor
    · intro hdecodes
      rw [← hreads]
      exact hdecodes.proper
    · intro hsegments
      exact ⟨hreads, by rwa [hreads]⟩
  rw [hproper, operationRoute, startedName]
  cases operation.resourceIntent with
  | pod pod =>
      by_cases hstart : operation.id.action = .startPod
      · simp only [if_pos hstart]
        exact start_proper (by decide) pod.identity.val
      · simp only [if_neg hstart]
        exact create_proper (by decide)
  | container container =>
      by_cases hstart : operation.id.action = .startContainer
      · simp only [if_pos hstart]
        exact start_proper (by decide) container.identity.val
      · simp only [if_neg hstart]
        exact create_proper (by decide)
  | network | volume | secret | image | externalPrecondition =>
      dsimp only
      exact create_proper (by decide)

/-- The start of a container whose name is the given one. -/
def startOf (container : OfKind .container) : DeploymentOperation where
  id := ⟨.startContainer, container.val⟩
  resourceIntent := .container { identity := container, image := sampleImage }
  dependsOn := []
  imagePullPolicy := none

def startForms (name : String) (path : String) : RenderedForms where
  status := .exact
  cliSuffix := ["container", "start", name]
  path := path
  body := .empty

def workerStart : RenderedForms := startForms "worker" "/v5.4.0/libpod/containers/worker/start"

theorem renderForms_workerStart :
    renderForms (startOf sampleWorker) sampleVersion.asStr ∅ .reject = .ok workerStart := by
  have hpath : libpodPath "5.4.0" ("containers/" ++ percentEncode "worker" ++ "/start") =
      "/v5.4.0/libpod/containers/worker/start" := by decide +kernel
  exact congrArg (fun path => Except.ok (startForms "worker" path)) hpath

theorem renderedPath_decodes_iff_sample :
    DecodesBack (startOf sampleWorker) sampleVersion workerStart.path :=
  (renderedPath_decodes_iff _ _ renderForms_workerStart).mpr (by decide)

def parentContainer : OfKind .container := ⟨sampleId .container "..", rfl⟩

def parentStart : RenderedForms := startForms ".." "/v5.4.0/libpod/containers/../start"

/-- The start of a container named by two dots is a request about the parent of the collection. -/
theorem parentContainer_redirected :
    renderForms (startOf parentContainer) sampleVersion.asStr ∅ .reject = .ok parentStart ∧
      ¬DecodesBack (startOf parentContainer) sampleVersion parentStart.path := by
  have hpath : libpodPath "5.4.0" ("containers/" ++ percentEncode ".." ++ "/start") =
      "/v5.4.0/libpod/containers/../start" := by decide +kernel
  refine ⟨congrArg (fun path => Except.ok (startForms ".." path)) hpath, fun h => ?_⟩
  have hsegment : utf8Bytes "..".toList ∈ (readRequest parentStart.path.toList).segments.tail := by
    decide +kernel
  exact h.proper _ hsegment (by decide +kernel)

end Routes

end PodmanLens
