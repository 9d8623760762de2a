import PodmanLens.Inspection
import PodmanLens.LibpodPath
import PodmanLens.VersionCatalogue

/-!
# The probe of a service

The answer to the ping names the API version in a header, and the version document names the engine
in one of its components. Both are reported spellings: packaged ones are looked up in the catalogue
before they are parsed. A pair of versions is observed only with the reviewed line that covers it,
and it is a target profile as well where that line may be deployed to.
-/

namespace PodmanLens
open Json

section Reported
variable (library : VersionLibrary) (lines : List CapabilityCatalogueEntry)

def parseSemanticVersion (value : String) : PodmanLensResult SemanticVersion :=
  match library.parse value with
  | none => .error .invalidVersion
  | some version => if version.pre.isEmpty then .ok version else .error .invalidVersion

/-- What one reviewed alias says about a reported spelling. -/
def CapabilityCatalogueEntry.normalizedBy (entry : CapabilityCatalogueEntry) (value : String)
    (reported : ReportedVersionAlias) : Option String :=
  if reported.podmanVersion = value then some entry.observedPodmanVersion
  else if reported.libpodApiVersion = value then some entry.observedLibpodApiVersion
  else none

def normalizedReportedVersion (value : String) : PodmanLensResult (Option String) := do
  let entries ← capabilityCatalogue library lines
  return entries.findSome? fun entry =>
    entry.reportedVersionAliases.findSome? (entry.normalizedBy value)

def parseReportedVersion (value : String) : PodmanLensResult SemanticVersion := do
  let normalized ← normalizedReportedVersion library lines value
  parseSemanticVersion library (normalized.getD value)

def ObservedVersion.parseReported (value : String) : PodmanLensResult ObservedVersion := do
  let version ← parseReportedVersion library lines value
  return ⟨value, version.toVersion⟩

end Reported

section Compatibility
variable (library : VersionLibrary) (lines : List CapabilityCatalogueEntry)

namespace CapabilityCatalogueEntry

def matchesReportedPodmanVersion (entry : CapabilityCatalogueEntry) (value : String) : Bool :=
  value == entry.observedPodmanVersion ||
    entry.reportedVersionAliases.any fun reported => reported.podmanVersion == value

def matchesReportedVersionPair (entry : CapabilityCatalogueEntry) (podman api : String) : Bool :=
  (podman == entry.observedPodmanVersion && api == entry.observedLibpodApiVersion) ||
    entry.reportedVersionAliases.any fun reported =>
      reported.podmanVersion == podman && reported.libpodApiVersion == api

end CapabilityCatalogueEntry

/-- Output lines cover a range of engines, input-only anchors the spellings that were reviewed. -/
def coversEngine (version : ObservedVersion) (entry : CapabilityCatalogueEntry) : Bool :=
  if entry.outputSupported then versionInEntry library version.semver entry
  else entry.matchesReportedPodmanVersion version.original

def matchingInputCatalogueEntry (version : ObservedVersion) :
    PodmanLensResult CapabilityCatalogueEntry := do
  let entries ← capabilityCatalogue library lines
  match entries.find? (coversEngine library version) with
  | some entry => .ok entry
  | none => .error .observedCompatibility

def observedApiVersionIsSupported (entry : CapabilityCatalogueEntry)
    (podmanVersion apiVersion : ObservedVersion) : Bool :=
  if !entry.outputSupported then
    entry.matchesReportedVersionPair podmanVersion.original apiVersion.original
  else apiVersionIsSupported library entry podmanVersion apiVersion

def observedInputIsSupported (podmanVersion apiVersion : ObservedVersion) :
    PodmanLensResult CapabilityCatalogueEntry := do
  let entry ← matchingInputCatalogueEntry library lines podmanVersion
  if observedApiVersionIsSupported library entry podmanVersion apiVersion then .ok entry
  else .error .observedCompatibility

end Compatibility

section Answers
variable (library : VersionLibrary) (lines : List CapabilityCatalogueEntry)

def maxProbeJsonBytes : ℕ := 65536

def requireOkStatus (response : LibpodResponse) : PodmanLensResult LibpodResponse :=
  if response.status = 200 then .ok response else .error .probeHttpStatus

def pingApiVersion (response : LibpodResponse) : PodmanLensResult ObservedVersion :=
  match response.headers.values "libpod-api-version" with
  | [value] => (ObservedVersion.parseReported library lines value).mapError fun _ => .probeHeader
  | _ => .error .probeHeader

def requireJsonContentType (headers : LibpodHeaders) : PodmanLensResult Unit :=
  match headers.values "content-type" with
  | [contentType] => if isJsonMediaType contentType then .ok () else .error .probeHeader
  | _ => .error .probeHeader

/-- One step over the components. Those with another name do not count. -/
def replaceEngine (engine : Option String) (component : Value) :
    PodmanLensResult (Option String) :=
  match component.asObject with
  | none => .ok engine
  | some component =>
    if stringMember component "Name" = some "Podman Engine" then
      match stringMember component "Version", engine with
      | some version, none => .ok (some version)
      | _, _ => .error .probeComponent
    else .ok engine

def probeComponents (value : Value) : PodmanLensResult (List Value) :=
  match (value.asObject.bind fun root => lookup root "Components").bind Value.asArray with
  | some components => .ok components
  | none => .error .probeShape

def reportedEngine (components : List Value) : PodmanLensResult String := do
  match ← components.foldlM replaceEngine none with
  | some engine => .ok engine
  | none => .error .probeComponent

def engineVersion (fromSlice : JsonReader) (body : List UInt8) :
    PodmanLensResult ObservedVersion :=
  if maxProbeJsonBytes < body.length then .error .probeJson
  else
    match fromSlice body with
    | none => .error .probeJson
    | some value => do
      let engine ← probeComponents value >>= reportedEngine
      (ObservedVersion.parseReported library lines engine).mapError fun _ => .probeComponent

end Answers

section Service

/-- The versions of the service that answered, and the line that was reviewed for them. -/
structure ServiceObservation where
  engineVersion : ObservedVersion
  apiVersion : ObservedVersion
  inputCapability : CapabilityCatalogueEntry
  outputTargetProfile : Option TargetProfile

/-- The version library, and what the JSON library reads from a body. -/
structure AcquisitionServices where
  library : VersionLibrary
  fromSlice : JsonReader

namespace AcquisitionServices
variable (services : AcquisitionServices)

def isRelease (text : List Char) : Bool :=
  (services.library.parse (String.ofList text)).any fun version => version.pre.isEmpty

/-- The API version as request paths spell it. -/
def pathVersion (apiVersion : ObservedVersion) : String :=
  services.library.display apiVersion.semver

end AcquisitionServices

variable (services : AcquisitionServices)

/-- The service that an answered version request shows. -/
def observeService (apiVersion : ObservedVersion) (response : LibpodResponse) :
    PodmanLensResult ServiceObservation := do
  requireJsonContentType response.headers
  let engineVersion ← engineVersion services.library reviewedLines services.fromSlice response.body
  let inputCapability ←
    observedInputIsSupported services.library reviewedLines engineVersion apiVersion
  let profile := TargetProfile.new services.library reviewedLines engineVersion apiVersion
  return ⟨engineVersion, apiVersion, inputCapability, profile.toOption⟩

variable {m : Type → Type} [Monad m]
  (send : LibpodPath → m (PodmanLensResult LibpodResponse))

def sendGet (path : PodmanLensResult LibpodPath) : m (PodmanLensResult LibpodResponse) :=
  match path with
  | .error code => return .error code
  | .ok path => send path

/-- The version request follows the answer to the ping, and neither is sent again. -/
def probeLibpodService : m (PodmanLensResult ServiceObservation) := do
  let ping ← sendGet send (pingPath services.isRelease)
  match ping >>= requireOkStatus >>= pingApiVersion services.library reviewedLines with
  | .error code => return .error code
  | .ok apiVersion => do
    let version ← sendGet send (versionProbePath services.isRelease apiVersion)
    return version >>= requireOkStatus >>= observeService services apiVersion

end Service

theorem engineVersion_eq {library : VersionLibrary} {lines : List CapabilityCatalogueEntry}
    {fromSlice : JsonReader} {body : List UInt8} {value : Value}
    (hlength : body.length ≤ maxProbeJsonBytes) (hvalue : fromSlice body = some value) :
    engineVersion library lines fromSlice body =
      (probeComponents value >>= reportedEngine >>= fun engine =>
        (ObservedVersion.parseReported library lines engine).mapError fun _ => .probeComponent) := by
  rw [engineVersion, if_neg (Nat.not_lt.mpr hlength), hvalue]

section Observed
variable {library : VersionLibrary} {lines : List CapabilityCatalogueEntry} {value : String}
  {observed : ObservedVersion}

/-- The version library reads some spelling as this version. -/
def ObservedVersion.ParsedBy (version : ObservedVersion) (library : VersionLibrary) : Prop :=
  ∃ text, library.parse text = some version.semver

theorem semver_of_parseSemanticVersion {version : SemanticVersion}
    (h : parseSemanticVersion library value = .ok version) :
    library.parse value = some version ∧
      ObservedVersion.semver ⟨value, version.toVersion⟩ = version := by
  cases hparsed : library.parse value with
  | none =>
      rw [parseSemanticVersion, hparsed] at h
      cases h
  | some parsed =>
      simp only [parseSemanticVersion, hparsed] at h
      split_ifs at h with hpre
      cases h
      exact ⟨rfl, by rw [ObservedVersion.semver, ← String.isEmpty_iff.mp hpre]⟩

theorem parsedBy_of_parseReported
    (h : ObservedVersion.parseReported library lines value = .ok observed) :
    observed.original = value ∧ observed.ParsedBy library := by
  obtain ⟨version, hversion, hobserved⟩ := except_bind_eq_ok h
  obtain ⟨normalized, -, hversion⟩ := except_bind_eq_ok hversion
  cases hobserved
  obtain ⟨hparsed, hsemver⟩ := semver_of_parseSemanticVersion hversion
  exact ⟨rfl, _, hparsed.trans (congrArg some hsemver.symm)⟩

theorem parsedBy_of_pingApiVersion {response : LibpodResponse}
    (h : pingApiVersion library lines response = .ok observed) : observed.ParsedBy library := by
  rw [pingApiVersion] at h
  split at h
  · next value hvalues =>
      cases hreported : ObservedVersion.parseReported library lines value with
      | error code =>
          rw [hreported] at h
          cases h
      | ok version =>
          rw [hreported] at h
          cases h
          exact (parsedBy_of_parseReported hreported).2
  · cases h

/-- What the version library documents of the text that it displays for a version it has parsed. -/
structure VersionLibrary.Rereads (library : VersionLibrary) : Prop where
  spelled : ∀ text version, library.parse text = some version →
    validVersionText (library.display version) = true
  reread : ∀ text version, library.parse text = some version →
    library.parse (library.display version) = some version

theorem releaseLibrary_parse {text : String} {version : SemanticVersion}
    (h : releaseLibrary.parse text = some version) :
    isReleaseText text = true ∧ displayRelease version = text := by
  change (if isReleaseText text then
    (readRelease text).filter fun version => displayRelease version == text else none) = _ at h
  rw [Option.ite_none_right_eq_some, Option.filter_eq_some_iff] at h
  exact ⟨h.1, beq_iff_eq.mp h.2.2⟩

theorem releaseLibrary_rereads : releaseLibrary.Rereads where
  spelled text version h := by
    obtain ⟨htext, hdisplay⟩ := releaseLibrary_parse h
    change validVersionText (displayRelease version) = true
    rwa [hdisplay]
  reread text version h := by
    change releaseLibrary.parse (displayRelease version) = some version
    rwa [(releaseLibrary_parse h).2]

end Observed

section Supported
variable {library : VersionLibrary} {lines : List CapabilityCatalogueEntry}
  {entry : CapabilityCatalogueEntry} {engine api : ObservedVersion}

theorem observedInputIsSupported_ok
    (h : observedInputIsSupported library lines engine api = .ok entry) :
    validCatalogue library lines = true ∧ entry ∈ lines ∧ coversEngine library engine entry = true ∧
      observedApiVersionIsSupported library entry engine api = true := by
  obtain ⟨found, hmatching, h⟩ := except_bind_eq_ok h
  obtain ⟨entries, hcatalogue, hmatching⟩ := except_bind_eq_ok hmatching
  split_ifs at h with hsupported
  cases h
  rw [capabilityCatalogue] at hcatalogue
  split_ifs at hcatalogue with hvalid
  cases hcatalogue
  split at hmatching
  · next found hfound =>
      cases hmatching
      exact ⟨hvalid, List.mem_of_find?_eq_some hfound, List.find?_some hfound, hsupported⟩
  · cases hmatching

/-- A pair that is observed on an output line may be deployed to. -/
theorem targetProfile_of_observed
    (h : observedInputIsSupported library lines engine api = .ok entry)
    (houtput : entry.outputSupported = true) : TargetProfile.new library lines engine api =
      .ok { podmanVersion := engine, apiVersion := api } := by
  obtain ⟨hvalid, hmem, hcovers, hapi⟩ := observedInputIsSupported_ok h
  rw [coversEngine, if_pos houtput] at hcovers
  have hcount : 0 < outputLineCount library lines engine.semver :=
    List.countP_pos_iff.mpr ⟨entry, hmem, by rw [houtput, hcovers]; rfl⟩
  have hrange : supportedRangeContains library engine = true := by
    rw [outputLineCount_eq hvalid] at hcount
    split_ifs at hcount with hreviewed
    · exact hreviewed
    · exact absurd hcount (Nat.lt_irrefl 0)
  obtain ⟨line, hline, ⟨hlineOutput, -⟩, hnew⟩ := targetProfile_new_eq hvalid hrange api
  have hsupported : apiVersionIsSupported library line engine api = true := by
    have hsame := (minimumApi_of_mem hvalid hline hlineOutput).trans
      (minimumApi_of_mem hvalid hmem houtput).symm
    rw [observedApiVersionIsSupported, houtput] at hapi
    rw [apiVersionIsSupported, hsame]
    exact hapi
  rw [hnew, if_pos hsupported]

/-- The service of an answered version request is reviewed, and a target where its line is one. -/
theorem observeService_reviewed {services : AcquisitionServices} {response : LibpodResponse}
    {service : ServiceObservation} (h : observeService services api response = .ok service) :
    service.apiVersion = api ∧ service.inputCapability ∈ reviewedLines ∧
      (service.inputCapability.outputSupported = true → service.outputTargetProfile =
        some { podmanVersion := service.engineVersion, apiVersion := api }) := by
  obtain ⟨⟨⟩, -, h⟩ := except_bind_eq_ok h
  obtain ⟨engine, -, h⟩ := except_bind_eq_ok h
  obtain ⟨capability, hcapability, h⟩ := except_bind_eq_ok h
  cases h
  refine ⟨rfl, (observedInputIsSupported_ok hcapability).2.1, fun houtput => ?_⟩
  dsimp only
  rw [targetProfile_of_observed hcapability houtput]
  rfl

end Supported

section Probed
variable {m : Type → Type} [Monad m] [LawfulMonad m] {services : AcquisitionServices}
  {send : LibpodPath → m (PodmanLensResult LibpodResponse)} {first second : m Unit}
  {ping version : LibpodResponse} {apiVersion : ObservedVersion} {path : LibpodPath}
  {service : ServiceObservation}

theorem probeLibpodService_eq
    (hping : send ⟨"/libpod/_ping"⟩ = (fun _ => .ok ping) <$> first)
    (hanswer : (Except.ok ping >>= requireOkStatus >>=
      pingApiVersion services.library reviewedLines) = .ok apiVersion)
    (hpath : versionProbePath services.isRelease apiVersion = .ok path)
    (hversion : send path = (fun _ => .ok version) <$> second)
    (hobserved : (Except.ok version >>= requireOkStatus >>= observeService services apiVersion) =
      .ok service) :
    probeLibpodService services send = (do first; second; return .ok service) := by
  rw [probeLibpodService, pingPath_eq]
  simp only [sendGet, hping, bind_map_left, hanswer, hpath, hversion, hobserved]

end Probed

section Newest

def newestRelease : ObservedVersion := ⟨"6.1.0", { major := 6, minor := 1, patch := 0 }⟩

def engineComponent : Value :=
  .object [("Name", .string "Podman Engine"), ("Version", .string "6.1.0")]

def versionDocument : Value := .object [("Components", .array [engineComponent])]

/-- What the probe observes of a service of the newest line. -/
def newestService : ServiceObservation where
  engineVersion := newestRelease
  apiVersion := newestRelease
  inputCapability := newestLine
  outputTargetProfile := some { podmanVersion := newestRelease, apiVersion := newestRelease }

/-- Every answer of the service names its API version. -/
def newestResponse (body : List UInt8) : LibpodResponse :=
  ⟨200, [⟨"Content-Type", "application/json"⟩, ⟨"Libpod-API-Version", "6.1.0"⟩], body⟩

theorem except_ok_bind {ε α β : Type} (a : α) (next : α → Except ε β) :
    (Except.ok a >>= next) = next a := rfl

theorem capabilityCatalogue_reviewed :
    capabilityCatalogue releaseLibrary reviewedLines = .ok reviewedLines :=
  if_pos reviewedLines_valid

theorem parseReported_newest (code : DiagnosticCode) :
    (ObservedVersion.parseReported releaseLibrary reviewedLines "6.1.0").mapError (fun _ => code) =
      .ok newestRelease := by
  have hparsed : ObservedVersion.parseReported releaseLibrary reviewedLines "6.1.0" =
      .ok newestRelease := by
    rw [ObservedVersion.parseReported, parseReportedVersion, normalizedReportedVersion,
      capabilityCatalogue_reviewed]
    decide +kernel
  rw [hparsed]
  rfl

theorem pingApiVersion_newest (body : List UInt8) :
    pingApiVersion releaseLibrary reviewedLines (newestResponse body) = .ok newestRelease := by
  have hvalues : (newestResponse body).headers.values "libpod-api-version" = ["6.1.0"] := by
    change LibpodHeaders.values [⟨"Content-Type", "application/json"⟩,
      ⟨"Libpod-API-Version", "6.1.0"⟩] "libpod-api-version" = ["6.1.0"]
    decide
  rw [pingApiVersion, hvalues]
  exact parseReported_newest _

theorem engineVersion_newest {fromSlice : JsonReader} (h : fromSlice [0] = some versionDocument) :
    engineVersion releaseLibrary reviewedLines fromSlice [0] = .ok newestRelease := by
  have hengine : (probeComponents versionDocument >>= reportedEngine) = .ok "6.1.0" := by
    decide +kernel
  rw [engineVersion_eq (by decide) h, hengine, except_ok_bind, parseReported_newest]

theorem observedInputIsSupported_newest :
    observedInputIsSupported releaseLibrary reviewedLines newestRelease newestRelease =
      .ok newestLine := by
  rw [observedInputIsSupported, matchingInputCatalogueEntry, capabilityCatalogue_reviewed]
  decide +kernel

theorem requireOkStatus_newest (body : List UInt8) :
    requireOkStatus (newestResponse body) = .ok (newestResponse body) := rfl

variable {services : AcquisitionServices} (hlibrary : services.library = releaseLibrary)
include hlibrary

theorem observeService_newest (h : services.fromSlice [0] = some versionDocument) :
    observeService services newestRelease (newestResponse [0]) = .ok newestService := by
  have hjson : requireJsonContentType (newestResponse [0]).headers = .ok () := by decide
  have hbody : (newestResponse [0]).body = [0] := rfl
  rw [observeService, hlibrary, hjson, except_ok_bind, hbody, engineVersion_newest h,
    except_ok_bind, observedInputIsSupported_newest, except_ok_bind,
    targetProfile_of_observed observedInputIsSupported_newest rfl]
  rfl

theorem versionProbePath_newest :
    versionProbePath services.isRelease newestRelease = .ok ⟨"/v4.0.0/libpod/version"⟩ := by
  have hrelease : services.isRelease = fun text => (releaseLibrary.parse (String.ofList text)).any
      fun version => version.pre.isEmpty := by
    funext text
    rw [AcquisitionServices.isRelease, hlibrary]
  rw [hrelease]
  decide +kernel

/-- Such a service is probed with two requests, whatever else they do. -/
theorem probeLibpodService_newest {m : Type → Type} [Monad m] [LawfulMonad m]
    {send : LibpodPath → m (PodmanLensResult LibpodResponse)} {first second : m Unit}
    {body : List UInt8}
    (h : services.fromSlice [0] = some versionDocument)
    (hping : send ⟨"/libpod/_ping"⟩ = (fun _ => .ok (newestResponse body)) <$> first)
    (hversion : send ⟨"/v4.0.0/libpod/version"⟩ = (fun _ => .ok (newestResponse [0])) <$> second) :
    probeLibpodService services send = (do first; second; return .ok newestService) := by
  refine probeLibpodService_eq hping ?_ (versionProbePath_newest hlibrary) hversion ?_
  · rw [except_ok_bind, requireOkStatus_newest, except_ok_bind, hlibrary, pingApiVersion_newest]
  · rw [except_ok_bind, requireOkStatus_newest, except_ok_bind, observeService_newest hlibrary h]

end Newest

end PodmanLens
