import Mathlib.Data.Prod.Lex
import PodmanLens.Fields
import PodmanLens.Intent
import PodmanLens.Tiling

/-!
# The reviewed version lines

The compatibility catalogue lists reviewed lines of Podman versions: first the input-only anchors,
then the lines that may be a deployment target. Versions are parsed, displayed and compared by a
version library that also orders prerelease and build metadata, so its total order is a parameter
with the laws that it documents.
-/

namespace PodmanLens
open Std Tiling

/-- A version with its prerelease, which is empty for a release. -/
structure SemanticVersion extends Version where
  pre : String := ""
  deriving DecidableEq

def SemanticVersion.new (major minor patch : ℕ) : SemanticVersion :=
  { major, minor, patch }

/-- The services of the version library. Build metadata is ordered, and none of it is least. -/
structure VersionLibrary where
  parse : String → Option SemanticVersion
  display : SemanticVersion → String
  comparePre : String → String → Ordering
  compareBuild : String → String → Ordering
  transPre : TransCmp comparePre
  transBuild : TransCmp compareBuild
  leastBuild : ∀ build, (compareBuild "" build).isLE

namespace VersionLibrary
variable (library : VersionLibrary)

/-- Major, minor and patch, then the prerelease, then the build metadata. -/
def compare : SemanticVersion → SemanticVersion → Ordering :=
  compareLex (compareOn (·.major)) <| compareLex (compareOn (·.minor)) <|
    compareLex (compareOn (·.patch)) <|
      compareLex (fun a b => library.comparePre a.pre b.pre) fun a b =>
        library.compareBuild a.build b.build

instance : TransCmp library.compare := by
  have := library.transPre
  have := library.transBuild
  have hpre : TransCmp fun a b : SemanticVersion => library.comparePre a.pre b.pre :=
    transCmp_on SemanticVersion.pre
  have hbuild : TransCmp fun a b : SemanticVersion => library.compareBuild a.build b.build :=
    transCmp_on fun a : SemanticVersion => a.build
  unfold compare
  infer_instance

end VersionLibrary

structure EvidenceReference where
  source : String
  revision : String
  releaseTag : String
  deriving DecidableEq

structure ReportedVersionAlias where
  podmanVersion : String
  libpodApiVersion : String
  image : String
  packageRevision : String
  rootMode : String
  evidence : EvidenceReference
  deriving DecidableEq

structure CapabilityCatalogueEntry where
  podmanMinorLine : String
  minimumPodmanVersion : String
  maximumExclusivePodmanVersion : String
  minimumLibpodApiVersion : String
  observedPodmanVersion : String
  observedLibpodApiVersion : String
  outputSupported : Bool := true
  reportedVersionAliases : List ReportedVersionAlias := []
  evidence : EvidenceReference
  deriving DecidableEq

section Validation
variable (library : VersionLibrary)

structure ParsedVersions where
  minimum : SemanticVersion
  maximumExclusive : SemanticVersion
  minimumApi : SemanticVersion
  observedEngine : SemanticVersion
  observedApi : SemanticVersion

def SemanticVersion.isBare (version : SemanticVersion) : Bool :=
  version.pre.isEmpty && version.build.isEmpty

def parsedVersions (entry : CapabilityCatalogueEntry) : Option ParsedVersions := do
  let minimum ← library.parse entry.minimumPodmanVersion
  let maximumExclusive ← library.parse entry.maximumExclusivePodmanVersion
  let minimumApi ← library.parse entry.minimumLibpodApiVersion
  let observedEngine ← library.parse entry.observedPodmanVersion
  let observedApi ← library.parse entry.observedLibpodApiVersion
  if [minimum, maximumExclusive, minimumApi, observedEngine, observedApi].all
      SemanticVersion.isBare then
    some ⟨minimum, maximumExclusive, minimumApi, observedEngine, observedApi⟩
  else none

def isLowercaseSha40 (value : String) : Bool :=
  value.utf8ByteSize == 40 && value.toList.all fun c => c.isDigit || ('a' ≤ c && c ≤ 'f')

/-- What the source pins of one input-only anchor. -/
structure LegacyInputAnchor where
  minimum : String
  maximum : String
  minimumApi : String
  observedApi : String
  revision : String
  sourcePath : String

def legacyInputAnchors : List LegacyInputAnchor :=
  [⟨"3.0.1", "3.0.2", "3.0.0", "3.0.0", "c640670e85c4aaaff92741691d6a854a90229d8d",
      "version/version.go"⟩,
    ⟨"3.4.4", "3.4.5", "3.1.0", "3.4.4", "f6526ada1025c2e3f88745ba83b8b461ca659933",
      "version/version.go"⟩,
    ⟨"4.3.1", "4.3.2", "4.0.0", "4.3.1", "814b7b003cc630bf6ab188274706c383f9fb9915",
      "version/version.go"⟩,
    ⟨"4.9.3", "4.9.4", "4.0.0", "4.9.3", "8d2b55ddde1bc81f43d018dfc1ac027c06b26a7f",
      "version/rawversion/rawversion.go"⟩,
    ⟨"4.9.4", "4.9.5", "4.0.0", "4.9.4", "3aceae8ace3c7e3c5591900db32d188cf60be535",
      "version/rawversion/rawversion.go"⟩]

def reviewedRhelAlias : ReportedVersionAlias where
  podmanVersion := "4.9.4-rhel"
  libpodApiVersion := "4.9.4-rhel"
  image := "ghcr.io/strukturpiloten/podman-ubi-8-rootful:v1.0.0" ++
    "@sha256:51dc92fd2165112131a3f070021f7fe382f3fcd541a4f39f7e01fdb8326483fc"
  packageRevision := "4.9.4-34.module+el8.10.0+24510+6ea3880e.x86_64"
  rootMode := "rootful"
  evidence :=
    { source := "https://github.com/Strukturpiloten/containers/tree/" ++
        "f0259a080e8a49be43358fc00c4cac89528d4954/images/podman/podman-ubi-8-rootful"
      revision := "f0259a080e8a49be43358fc00c4cac89528d4954"
      releaseTag := "v1.0.0" }

def validRhelAliases (aliases : List ReportedVersionAlias) : Bool :=
  aliases == [reviewedRhelAlias] && isLowercaseSha40 reviewedRhelAlias.evidence.revision

def blobUrl (revision path : String) : String :=
  "https://github.com/containers/podman/blob/" ++ revision ++ "/" ++ path

def minorLine (version : SemanticVersion) : String :=
  version.major.repr ++ "." ++ version.minor.repr

def validLegacyEntry (entry : CapabilityCatalogueEntry) (anchor : LegacyInputAnchor) : Bool :=
  match parsedVersions library entry with
  | none => false
  | some parsed =>
    match library.parse anchor.observedApi with
    | none => false
    | some expectedApi =>
      let aliasesAreValid :=
        if entry.observedPodmanVersion = "4.9.4" then validRhelAliases entry.reportedVersionAliases
        else entry.reportedVersionAliases.isEmpty
      entry.minimumPodmanVersion == anchor.minimum &&
        entry.maximumExclusivePodmanVersion == anchor.maximum &&
        entry.minimumLibpodApiVersion == anchor.minimumApi &&
        entry.observedPodmanVersion == anchor.minimum &&
        entry.observedLibpodApiVersion == anchor.observedApi &&
        entry.evidence.revision == anchor.revision &&
        entry.evidence.source == blobUrl anchor.revision anchor.sourcePath &&
        parsed.minimum == parsed.observedEngine && parsed.observedApi == expectedApi &&
        library.compare parsed.maximumExclusive parsed.minimum == .gt &&
        entry.podmanMinorLine == minorLine parsed.minimum &&
        entry.evidence.releaseTag == "v" ++ library.display parsed.observedEngine &&
        isLowercaseSha40 entry.evidence.revision && aliasesAreValid

def validLegacyCatalogue (entries : List CapabilityCatalogueEntry) : Bool :=
  let legacy := entries.filter fun entry => !entry.outputSupported
  legacy.length == legacyInputAnchors.length &&
    (legacy.zip legacyInputAnchors).all fun (entry, anchor) => validLegacyEntry library entry anchor

/-- The minimum that the next line has to start at, when this one starts at the expected one. -/
def outputLine (expectedMinimum : SemanticVersion) (entry : CapabilityCatalogueEntry) :
    Option SemanticVersion :=
  if !entry.reportedVersionAliases.isEmpty then none
  else
    match parsedVersions library entry with
    | none => none
    | some parsed =>
      if parsed.minimum = expectedMinimum ∧
          library.compare parsed.maximumExclusive parsed.minimum = .gt ∧
          entry.podmanMinorLine = minorLine parsed.minimum ∧
          parsed.minimumApi = .new 4 0 0 ∧
          library.compare parsed.observedEngine parsed.minimum ≠ .lt ∧
          library.compare parsed.observedEngine parsed.maximumExclusive = .lt ∧
          library.compare parsed.observedApi parsed.minimumApi ≠ .lt ∧
          library.compare parsed.observedApi parsed.observedEngine ≠ .gt ∧
          parsed.observedEngine = parsed.observedApi ∧
          entry.evidence.releaseTag = "v" ++ library.display parsed.observedEngine ∧
          entry.evidence.source =
            blobUrl entry.evidence.revision "version/rawversion/rawversion.go" ∧
          isLowercaseSha40 entry.evidence.revision = true then
        some parsed.maximumExclusive
      else none

def validOutputCatalogue (entries : List CapabilityCatalogueEntry) : Bool :=
  (entries.filter (·.outputSupported)).foldlM (outputLine library) (.new 5 4 0) ==
    some (.new 6 2 0)

def validCatalogue (entries : List CapabilityCatalogueEntry) : Bool :=
  validLegacyCatalogue library entries && validOutputCatalogue library entries

end Validation

section Targets
variable (library : VersionLibrary)

/-- Observed versions are releases. -/
def ObservedVersion.semver (version : ObservedVersion) : SemanticVersion :=
  { version.asSemver with pre := "" }

def supportedRangeContains (version : ObservedVersion) : Bool :=
  library.compare version.semver (.new 5 4 0) != .lt &&
    library.compare version.semver (.new 6 2 0) == .lt

def versionInEntry (version : SemanticVersion) (entry : CapabilityCatalogueEntry) : Bool :=
  match library.parse entry.minimumPodmanVersion,
    library.parse entry.maximumExclusivePodmanVersion with
  | some minimum, some maximumExclusive =>
    library.compare version minimum != .lt && library.compare version maximumExclusive == .lt
  | _, _ => false

def semanticCoreInclusive (version minimum maximum : SemanticVersion) : Bool :=
  library.compare version minimum != .lt && library.compare version maximum != .gt

def apiVersionIsSupported (entry : CapabilityCatalogueEntry)
    (podmanVersion apiVersion : ObservedVersion) : Bool :=
  match library.parse entry.minimumLibpodApiVersion with
  | none => false
  | some minimumApi =>
    semanticCoreInclusive library apiVersion.semver minimumApi podmanVersion.semver

/-- The reviewed lines, which the policy has to accept. -/
def capabilityCatalogue (lines : List CapabilityCatalogueEntry) :
    PodmanLensResult (List CapabilityCatalogueEntry) :=
  if validCatalogue library lines then .ok lines else .error .catalogueUnavailable

def matchingCatalogueEntry (lines : List CapabilityCatalogueEntry) (version : ObservedVersion) :
    PodmanLensResult CapabilityCatalogueEntry := do
  let entries ← capabilityCatalogue library lines
  match entries.find? fun entry =>
      entry.outputSupported && versionInEntry library version.semver entry with
  | some entry => .ok entry
  | none => .error .incompatibleTargetProfile

def TargetProfile.new (lines : List CapabilityCatalogueEntry)
    (podmanVersion apiVersion : ObservedVersion) : PodmanLensResult TargetProfile :=
  if !supportedRangeContains library podmanVersion then .error .incompatibleTargetProfile
  else do
    let entry ← matchingCatalogueEntry library lines podmanVersion
    if !apiVersionIsSupported library entry podmanVersion apiVersion then
      .error .incompatibleTargetProfile
    else .ok { podmanVersion, apiVersion }

end Targets

section Lines
variable {library : VersionLibrary} {lines : List CapabilityCatalogueEntry}

/-- The span of versions that a line names. -/
def NamesSpan (library : VersionLibrary) (entry : CapabilityCatalogueEntry)
    (span : SemanticVersion × SemanticVersion) : Prop :=
  library.parse entry.minimumPodmanVersion = some span.1 ∧
    library.parse entry.maximumExclusivePodmanVersion = some span.2

theorem parsedVersions_eq_some {entry : CapabilityCatalogueEntry} {parsed : ParsedVersions}
    (h : parsedVersions library entry = some parsed) :
    NamesSpan library entry (parsed.minimum, parsed.maximumExclusive) ∧
      library.parse entry.minimumLibpodApiVersion = some parsed.minimumApi := by
  simp only [parsedVersions, Option.bind_eq_bind, Option.bind_eq_some_iff,
    Option.ite_none_right_eq_some, Option.some.injEq] at h
  obtain ⟨minimum, hminimum, maximum, hmaximum, minimumApi, hminimumApi, _, _, _, _, _, rfl⟩ := h
  exact ⟨⟨hminimum, hmaximum⟩, hminimumApi⟩

/-- What one accepted line says: its span, which starts where it is expected to, and its API. -/
theorem outputLine_eq_some {expected next : SemanticVersion} {entry : CapabilityCatalogueEntry}
    (h : outputLine library expected entry = some next) :
    NamesSpan library entry (expected, next) ∧ library.compare expected next = .lt ∧
      library.parse entry.minimumLibpodApiVersion = some (.new 4 0 0) := by
  rw [outputLine] at h
  split_ifs at h
  split at h
  · cases h
  · next parsed hparsed =>
      split_ifs at h with hvalid
      cases h
      obtain ⟨hspan, hapi⟩ := parsedVersions_eq_some hparsed
      obtain ⟨hminimum, hproper, -, hminimumApi, -⟩ := hvalid
      rw [hminimum] at hspan hproper
      rw [hminimumApi] at hapi
      exact ⟨hspan, OrientedCmp.lt_of_gt hproper, hapi⟩

/-- Lines that are accepted one after the other tile the range between their ends. -/
theorem tiles_of_outputLines {entries : List CapabilityCatalogueEntry}
    {start stop : SemanticVersion} (h : entries.foldlM (outputLine library) start = some stop) :
    ∃ spans, Tiles library.compare start spans stop ∧
      List.Forall₂ (NamesSpan library) entries spans := by
  induction entries generalizing start with
  | nil =>
      cases h
      exact ⟨[], .nil _, .nil⟩
  | cons entry entries ih =>
      rw [List.foldlM_cons, Option.bind_eq_bind, Option.bind_eq_some_iff] at h
      obtain ⟨next, hnext, h⟩ := h
      obtain ⟨spans, htiles, hspans⟩ := ih h
      obtain ⟨hspan, hproper, -⟩ := outputLine_eq_some hnext
      exact ⟨(start, next) :: spans, .cons start next hproper htiles, .cons hspan hspans⟩

theorem minimumApi_of_outputLines {entries : List CapabilityCatalogueEntry}
    {start stop : SemanticVersion} (h : entries.foldlM (outputLine library) start = some stop) :
    ∀ entry ∈ entries, library.parse entry.minimumLibpodApiVersion = some (.new 4 0 0) := by
  induction entries generalizing start with
  | nil => simp
  | cons entry entries ih =>
      rw [List.foldlM_cons, Option.bind_eq_bind, Option.bind_eq_some_iff] at h
      obtain ⟨next, hnext, h⟩ := h
      exact List.forall_mem_cons.mpr ⟨(outputLine_eq_some hnext).2.2, ih h⟩

theorem NamesSpan.versionInEntry {entry : CapabilityCatalogueEntry}
    {span : SemanticVersion × SemanticVersion} (h : NamesSpan library entry span)
    (version : SemanticVersion) :
    versionInEntry library version entry = holds library.compare span.1 span.2 version := by
  rw [PodmanLens.versionInEntry, h.1, h.2]
  rfl

theorem countP_versionInEntry {entries : List CapabilityCatalogueEntry}
    {spans : List (SemanticVersion × SemanticVersion)}
    (h : List.Forall₂ (NamesSpan library) entries spans) (version : SemanticVersion) :
    entries.countP (versionInEntry library version) =
      spans.countP fun span => holds library.compare span.1 span.2 version := by
  induction h with
  | nil => rfl
  | cons hspan _ ih => rw [List.countP_cons, List.countP_cons, ih, hspan.versionInEntry]

theorem outputLines_of_valid (h : validCatalogue library lines = true) :
    (lines.filter (·.outputSupported)).foldlM (outputLine library) (.new 5 4 0) =
      some (.new 6 2 0) := by
  rw [validCatalogue, Bool.and_eq_true] at h
  exact beq_iff_eq.mp h.2

/-- The number of output lines that a version falls in. -/
def outputLineCount (library : VersionLibrary) (lines : List CapabilityCatalogueEntry)
    (version : SemanticVersion) : ℕ :=
  lines.countP fun entry => entry.outputSupported && versionInEntry library version entry

def reviewedRange (library : VersionLibrary) (version : SemanticVersion) : Bool :=
  library.compare version (.new 5 4 0) != .lt && library.compare version (.new 6 2 0) == .lt

theorem outputLineCount_eq (h : validCatalogue library lines = true) (version : SemanticVersion) :
    outputLineCount library lines version = if reviewedRange library version then 1 else 0 := by
  obtain ⟨spans, htiles, hspans⟩ := tiles_of_outputLines (outputLines_of_valid h)
  have hfilter : outputLineCount library lines version =
      (lines.filter (·.outputSupported)).countP (versionInEntry library version) := by
    rw [List.countP_filter, outputLineCount]
    simp only [Bool.and_comm]
  rw [hfilter, countP_versionInEntry hspans, htiles.countP]
  rfl

/-- Inside the range a line is found, and only its API check is left. -/
theorem targetProfile_new_eq (h : validCatalogue library lines = true) {engine : ObservedVersion}
    (hengine : supportedRangeContains library engine = true) (api : ObservedVersion) :
    ∃ entry ∈ lines, (entry.outputSupported = true ∧
        versionInEntry library engine.semver entry = true) ∧
      TargetProfile.new library lines engine api =
        if apiVersionIsSupported library entry engine api then
          .ok { podmanVersion := engine, apiVersion := api }
        else .error .incompatibleTargetProfile := by
  have hcount := outputLineCount_eq h engine.semver
  have hrange : reviewedRange library engine.semver = true := hengine
  rw [hrange, if_pos rfl, outputLineCount] at hcount
  have hexists : ∃ entry ∈ lines,
      (entry.outputSupported && versionInEntry library engine.semver entry) = true :=
    List.countP_pos_iff.mp (by rw [hcount]; exact Nat.one_pos)
  obtain ⟨found, hfound⟩ := Option.isSome_iff_exists.mp (List.find?_isSome.mpr hexists)
  have hholds := List.find?_some hfound
  rw [Bool.and_eq_true] at hholds
  refine ⟨found, List.mem_of_find?_eq_some hfound, hholds, ?_⟩
  have hmatching : matchingCatalogueEntry library lines engine = .ok found := by
    rw [matchingCatalogueEntry, capabilityCatalogue, if_pos h]
    change (match lines.find? _ with | some entry => _ | none => _) = _
    rw [hfound]
  rw [TargetProfile.new, hengine, if_neg (by simp), hmatching]
  change (if !apiVersionIsSupported library found engine api then _ else _) = _
  cases apiVersionIsSupported library found engine api <;> rfl

/-- The output lines tile the reviewed range, so inside it only the API version can be refused. -/
theorem outputLines_tile (h : validCatalogue library lines = true) :
    (∀ version, reviewedRange library version = true → outputLineCount library lines version = 1) ∧
    (∀ version, reviewedRange library version = false →
      outputLineCount library lines version = 0) ∧
    ∀ engine api, supportedRangeContains library engine = true →
      ∃ entry ∈ lines, (entry.outputSupported = true ∧
          versionInEntry library engine.semver entry = true) ∧
        ((∃ code, TargetProfile.new library lines engine api = .error code) ↔
          apiVersionIsSupported library entry engine api = false) := by
  refine ⟨fun version hrange => ?_, fun version hrange => ?_, fun engine api hengine => ?_⟩
  · rw [outputLineCount_eq h, if_pos hrange]
  · rw [outputLineCount_eq h, hrange, if_neg (by simp)]
  · obtain ⟨entry, hmem, hline, hnew⟩ := targetProfile_new_eq h hengine api
    refine ⟨entry, hmem, hline, ?_⟩
    rw [hnew]
    cases apiVersionIsSupported library entry engine api <;> simp

end Lines

section Cores
variable {library : VersionLibrary} {lines : List CapabilityCatalogueEntry}

/-- Semantic-version precedence of releases. -/
def compareCore : Version → Version → Ordering :=
  compareLex (compareOn (·.major)) <| compareLex (compareOn (·.minor)) <| compareOn (·.patch)

theorem compare_semver (a b : ObservedVersion) :
    library.compare a.semver b.semver =
      (compareCore a.asSemver b.asSemver).then
        (library.compareBuild a.asSemver.build b.asSemver.build) := by
  have := library.transPre
  have hpre : library.comparePre "" "" = .eq := ReflCmp.compare_self
  simp only [VersionLibrary.compare, compareCore, compareLex, ObservedVersion.semver, hpre,
    Ordering.eq_then, Ordering.then_assoc]
  rfl

theorem compare_bound (version : ObservedVersion) (major minor patch : ℕ) :
    library.compare version.semver (.new major minor patch) =
      (compareCore version.asSemver { major, minor, patch }).then
        (library.compareBuild version.asSemver.build "") :=
  compare_semver version ⟨"", { major, minor, patch }⟩

theorem compareBuild_empty_ne (build : String) : library.compareBuild build "" ≠ .lt := by
  have := library.transBuild
  exact OrientedCmp.not_lt_of_isLE (library.leastBuild build)

/-- Against a bare release, only the cores decide. -/
theorem compare_bound_lt (version : ObservedVersion) (major minor patch : ℕ) :
    library.compare version.semver (.new major minor patch) = .lt ↔
      compareCore version.asSemver { major, minor, patch } = .lt := by
  rw [compare_bound, Ordering.then_eq_lt]
  constructor
  · rintro (hlt | ⟨-, hbuild⟩)
    · exact hlt
    · exact absurd hbuild (compareBuild_empty_ne _)
  · exact Or.inl

/-- The decision that the cores alone call for. -/
structure CoresAccept (engine api : Version) : Prop where
  reviewed : compareCore engine { major := 5, minor := 4, patch := 0 } ≠ .lt ∧
    compareCore engine { major := 6, minor := 2, patch := 0 } = .lt
  minimum : compareCore api { major := 4, minor := 0, patch := 0 } ≠ .lt
  engine : compareCore api engine ≠ .gt

theorem supportedRangeContains_iff {engine : ObservedVersion} :
    supportedRangeContains library engine = true ↔
      compareCore engine.asSemver { major := 5, minor := 4, patch := 0 } ≠ .lt ∧
        compareCore engine.asSemver { major := 6, minor := 2, patch := 0 } = .lt := by
  rw [supportedRangeContains, Bool.and_eq_true, bne_iff_ne, beq_iff_eq, Ne, compare_bound_lt,
    compare_bound_lt]

theorem minimumApi_of_mem (h : validCatalogue library lines = true)
    {entry : CapabilityCatalogueEntry} (hmem : entry ∈ lines) (houtput : entry.outputSupported) :
    library.parse entry.minimumLibpodApiVersion = some (.new 4 0 0) :=
  minimumApi_of_outputLines (outputLines_of_valid h) entry (List.mem_filter.mpr ⟨hmem, houtput⟩)

/-- Accepted pairs: the full order stands between the API and the engine. -/
theorem targetProfile_new_ok_iff (h : validCatalogue library lines = true)
    (engine api : ObservedVersion) :
    (∃ profile, TargetProfile.new library lines engine api = .ok profile) ↔
      supportedRangeContains library engine = true ∧
        compareCore api.asSemver { major := 4, minor := 0, patch := 0 } ≠ .lt ∧
        library.compare api.semver engine.semver ≠ .gt := by
  by_cases hengine : supportedRangeContains library engine = true
  · obtain ⟨entry, hmem, hline, hnew⟩ := targetProfile_new_eq h hengine api
    have hapi : apiVersionIsSupported library entry engine api = true ↔
        compareCore api.asSemver { major := 4, minor := 0, patch := 0 } ≠ .lt ∧
          library.compare api.semver engine.semver ≠ .gt := by
      simp only [apiVersionIsSupported, minimumApi_of_mem h hmem hline.1, semanticCoreInclusive,
        Bool.and_eq_true, bne_iff_ne, ne_eq, compare_bound_lt]
    rw [hnew, ← hapi]
    cases apiVersionIsSupported library entry engine api <;> simp [hengine]
  · have hrefused : TargetProfile.new library lines engine api =
        .error .incompatibleTargetProfile := by
      rw [TargetProfile.new, Bool.not_eq_true _ |>.mp hengine]
      rfl
    simp [hrefused, hengine]

/-- Build metadata of an API version with the core of its engine, ordered after the engine's. -/
def NewerBuild (library : VersionLibrary) (engine api : Version) : Prop :=
  compareCore api engine = .eq ∧ library.compareBuild api.build engine.build = .gt

instance : TransCmp compareCore := by
  unfold compareCore
  infer_instance

/-- An API with the core of a reviewed engine has at least the minimum core. -/
theorem coresAccept_of_eq {engine api : Version}
    (hengine : compareCore engine { major := 5, minor := 4, patch := 0 } ≠ .lt ∧
      compareCore engine { major := 6, minor := 2, patch := 0 } = .lt)
    (heq : compareCore api engine = .eq) : CoresAccept engine api where
  reviewed := hengine
  minimum := by
    have hbounds : compareCore { major := 4, minor := 0, patch := 0 }
        { major := 5, minor := 4, patch := 0 } = .lt := by decide
    intro hlt
    rw [TransCmp.congr_left heq] at hlt
    exact hengine.1 (TransCmp.lt_trans hlt hbounds)
  engine := by rw [heq]; decide

/-- The cores decide unless equal cores carry build metadata in the wrong order. -/
theorem targetProfile_cores_iff (h : validCatalogue library lines = true)
    (engine api : ObservedVersion) :
    ((∃ profile, TargetProfile.new library lines engine api = .ok profile) ↔
        CoresAccept engine.asSemver api.asSemver) ↔
      ¬(supportedRangeContains library engine = true ∧
        NewerBuild library engine.asSemver api.asSemver) := by
  have hcompare : library.compare api.semver engine.semver = .gt ↔
      compareCore api.asSemver engine.asSemver = .gt ∨
        NewerBuild library engine.asSemver api.asSemver := by
    rw [compare_semver, Ordering.then_eq_gt]
    rfl
  rw [targetProfile_new_ok_iff h, ne_eq, ne_eq, hcompare, supportedRangeContains_iff]
  constructor
  · rintro hiff ⟨hengine, hbuild⟩
    exact (hiff.mpr (coresAccept_of_eq hengine hbuild.1)).2.2 (Or.inr hbuild)
  · intro hbuild
    constructor
    · rintro ⟨hengine, hminimum, hapi⟩
      exact ⟨hengine, hminimum, fun hgt => hapi (Or.inl hgt)⟩
    · rintro ⟨hengine, hminimum, hapi⟩
      exact ⟨hengine, hminimum, fun hgt => hgt.elim hapi fun hnewer => hbuild ⟨hengine, hnewer⟩⟩

end Cores

section Embedded

def anchorEntry (anchor : LegacyInputAnchor) (podmanMinorLine : String)
    (aliases : List ReportedVersionAlias) : CapabilityCatalogueEntry where
  podmanMinorLine := podmanMinorLine
  minimumPodmanVersion := anchor.minimum
  maximumExclusivePodmanVersion := anchor.maximum
  minimumLibpodApiVersion := anchor.minimumApi
  observedPodmanVersion := anchor.minimum
  observedLibpodApiVersion := anchor.observedApi
  outputSupported := false
  reportedVersionAliases := aliases
  evidence :=
    ⟨blobUrl anchor.revision anchor.sourcePath, anchor.revision, "v" ++ anchor.minimum⟩

def outputEntry (podmanMinorLine minimum maximum observed revision : String) :
    CapabilityCatalogueEntry where
  podmanMinorLine := podmanMinorLine
  minimumPodmanVersion := minimum
  maximumExclusivePodmanVersion := maximum
  minimumLibpodApiVersion := "4.0.0"
  observedPodmanVersion := observed
  observedLibpodApiVersion := observed
  evidence :=
    ⟨blobUrl revision "version/rawversion/rawversion.go", revision, "v" ++ observed⟩

def newestLine : CapabilityCatalogueEntry :=
  outputEntry "6.1" "6.1.0" "6.2.0" "6.1.0" "cade97a52ebdf9dbf9e81de8009015776837a074"

/-- The lines of the published catalogue. -/
def reviewedLines : List CapabilityCatalogueEntry :=
  List.zipWith (fun anchor line => anchorEntry anchor line.1 line.2) legacyInputAnchors
    [("3.0", []), ("3.4", []), ("4.3", []), ("4.9", []), ("4.9", [reviewedRhelAlias])] ++
  [outputEntry "5.4" "5.4.0" "5.5.0" "5.4.0"
      "f9f7d48b24b1ca4403f189caaeab1cb8ff4a9aa2",
    outputEntry "5.5" "5.5.0" "5.6.0" "5.5.0"
      "0dbcb51477ee7ab8d3b47d30facf71fc38bb0c98",
    outputEntry "5.6" "5.6.0" "5.7.0" "5.6.0"
      "da671ef6cfa3fc9ac6225c18f1dd0a70a951e43f",
    outputEntry "5.7" "5.7.0" "5.8.0" "5.7.0"
      "0370128fc8dcae93533334324ef838db8f8da8cb",
    outputEntry "5.8" "5.8.0" "6.0.0" "5.8.6"
      "a859fc66702c23e869c282c63e92d9b6cd264229",
    outputEntry "6.0" "6.0.0" "6.1.0" "6.0.0"
      "a8ed4b6dd12992decf659cadfdfb3d0cb1937748",
    newestLine]

def readRelease (text : String) : Option SemanticVersion :=
  let parts := (Text.splitOnce '+' text.toList).getD (text.toList, [])
  match (parts.1.splitOn '.').map (Text.parseUnsigned (2 ^ 64 - 1)) with
  | [some major, some minor, some patch] =>
    some { major, minor, patch, build := String.ofList parts.2 }
  | _ => none

def displayRelease (version : SemanticVersion) : String :=
  version.major.repr ++ "." ++ version.minor.repr ++ "." ++ version.patch.repr ++
    if version.build.isEmpty then "" else "+" ++ version.build

def isReleaseText (text : String) : Bool :=
  text.toList.all fun c => c.isAlphanum || ".-+".toList.contains c

/-- A library that reads releases as it displays them, and orders build metadata as text. -/
def releaseLibrary : VersionLibrary where
  parse text :=
    if isReleaseText text then
      (readRelease text).filter fun version => displayRelease version == text
    else none
  display := displayRelease
  comparePre := compareOn String.toList
  compareBuild := compareOn String.toList
  transPre := inferInstance
  transBuild := inferInstance
  leastBuild _ := List.isLE_compareLex_nil_left

theorem reviewedLines_valid : validCatalogue releaseLibrary reviewedLines = true := by
  decide +kernel

theorem outputLines_tile_sample :
    outputLineCount releaseLibrary reviewedLines (.new 5 8 6) = 1 :=
  (outputLines_tile reviewedLines_valid).1 (.new 5 8 6) (by decide)

def firstRelease : ObservedVersion := ⟨"5.4.0", { major := 5, minor := 4, patch := 0 }⟩

def packagedRelease : ObservedVersion :=
  ⟨"5.4.0+1", { major := 5, minor := 4, patch := 0, build := "1" }⟩

theorem targetProfile_cores_iff_sample :
    (∃ profile, TargetProfile.new releaseLibrary reviewedLines packagedRelease firstRelease =
        .ok profile) ↔ CoresAccept packagedRelease.asSemver firstRelease.asSemver := by
  refine (targetProfile_cores_iff reviewedLines_valid packagedRelease firstRelease).mpr fun h => ?_
  exact absurd h.2.2 (by decide)

/-- The same cores, and the API version is refused for its build metadata. -/
theorem packagedApi_refused :
    CoresAccept firstRelease.asSemver packagedRelease.asSemver ∧
      (∃ profile, TargetProfile.new releaseLibrary reviewedLines firstRelease firstRelease =
        .ok profile) ∧
      ¬∃ profile, TargetProfile.new releaseLibrary reviewedLines firstRelease packagedRelease =
        .ok profile := by
  rw [targetProfile_new_ok_iff reviewedLines_valid, targetProfile_new_ok_iff reviewedLines_valid]
  exact ⟨coresAccept_of_eq (by decide) (by decide), by decide, by decide⟩

end Embedded

end PodmanLens
