import Mathlib.Data.List.Infix
import PodmanLens.PercentDecoding
import PodmanLens.Rendering

/-!
# Request paths

A request path is built in two ways. `resource` encodes an identifier exactly as the service
returned it and refuses spellings that may already be escaped; `parse` takes pre-encoded text and
checks every escape of it. Whether a version text is a release is the version library's answer, so
it is a parameter of `parse`.
-/

namespace PodmanLens
open Text Validated

def maxPathAndQueryBytes : ℕ := 8192

structure LibpodPath where
  asStr : String
  deriving DecidableEq

section Constructors

def isUriComponentByte (c : Char) : Bool :=
  c.isAlphanum || "-._~!$&'()*+,;=:@".toList.contains c

def isSafePercentDecodedByte (c : Char) : Bool := isUriComponentByte c && c != '.'

def decodePercentByte (high low : Char) : Char := .ofNat (16 * nibble high + nibble low)

def validEncodedComponent : List Char → Bool
  | [] => true
  | c :: rest =>
    if c = '%' then
      match rest with
      | high :: low :: rest =>
        isHexDigit high && isHexDigit low &&
          isSafePercentDecodedByte (decodePercentByte high low) && validEncodedComponent rest
      | _ => false
    else isUriComponentByte c && validEncodedComponent rest

def validRawPath (path : List Char) : Bool :=
  (path.splitOn '/').all fun segment =>
    !(segment == ['.'] || segment == ['.', '.']) && validEncodedComponent segment

def isAscii (cs : List Char) : Bool := cs.all fun c => c.toNat < 128

def validEncodedQuery (query : List Char) : Bool :=
  isAscii query && !query.isEmpty && (query.splitOn '&').all fun parameter =>
    let (name, value) := (splitOnce '=' parameter).getD (parameter, [])
    !name.isEmpty && validEncodedComponent name && validEncodedComponent value

def hasControlOrWhitespace (cs : List Char) : Bool := cs.any fun c => isControl c || isWhitespace c

def validUnescapedIdentifier (value : String) : Bool :=
  !value.isEmpty && isAscii value.toList && !(value == "." || value == "..") &&
    !(value.toList.any "?#%\\".toList.contains) && !hasControlOrWhitespace value.toList

/-- The unreserved bytes stay, every other byte becomes an escape, as in rendered requests. -/
def percentEncodeIdentifier (value : String) : String := percentEncode value

/-- The parts around the first occurrence of a text. -/
def splitOnceText (needle : List Char) : List Char → Option (List Char × List Char)
  | [] => if needle.isEmpty then some ([], []) else none
  | c :: cs =>
    if needle.isPrefixOf (c :: cs) then some ([], (c :: cs).drop needle.length)
    else (splitOnceText needle cs).map fun parts => (c :: parts.1, parts.2)

/-- The path and the query after the first question mark. -/
def splitQuery (cs : List Char) : List Char × Option (List Char) :=
  match splitOnce '?' cs with
  | some (path, query) => (path, some query)
  | none => (cs, none)

def validVersionedPath (isRelease : List Char → Bool) (path : List Char) : Bool :=
  match path.dropPrefix? "/v".toList with
  | none => false
  | some remainder =>
    match splitOnceText "/libpod/".toList remainder with
    | none => false
    | some (version, resource) => !resource.isEmpty && isRelease version && validRawPath path

def LibpodPath.parse (isRelease : List Char → Bool) (pathAndQuery : String) :
    PodmanLensResult LibpodPath :=
  if maxPathAndQueryBytes < pathAndQuery.utf8ByteSize then .error .invalidTransportMessage
  else
    let (path, query) := splitQuery pathAndQuery.toList
    let validPath := (path == "/libpod/_ping".toList && query.isNone) ||
      validVersionedPath isRelease path
    let validQuery := query.all validEncodedQuery
    if !validPath || !validQuery || path.any "#?".toList.contains ||
        contains "://".toList path || !isAscii path || hasControlOrWhitespace path then
      .error .invalidTransportMessage
    else .ok ⟨pathAndQuery⟩

def isVersionChar (c : Char) : Bool := c.isAlphanum || ".-+".toList.contains c

def validVersionText (value : String) : Bool := value.toList.all isVersionChar

/-- A displayed semantic version: identifiers of letters, digits and hyphens, dots and a plus. -/
abbrev VersionText := Checked validVersionText

def resourceCollections : List String :=
  ["containers", "pods", "networks", "volumes", "images", "secrets"]

/-- The API version is the displayed one. -/
def LibpodPath.resource (apiVersion collection identifier suffix : String) :
    PodmanLensResult LibpodPath :=
  if !resourceCollections.contains collection || suffix != "json" ||
      !validUnescapedIdentifier identifier then
    .error .invalidTransportMessage
  else
    let path := "/v" ++ apiVersion ++ "/libpod/" ++ collection ++ "/" ++
      percentEncodeIdentifier identifier ++ "/" ++ suffix
    if maxPathAndQueryBytes < path.utf8ByteSize then .error .invalidTransportMessage
    else .ok ⟨path⟩

def ResourceKind.collection : ResourceKind → String
  | .container => "containers"
  | .pod => "pods"
  | .network => "networks"
  | .volume => "volumes"
  | .image => "images"
  | .secret => "secrets"

def listQuery : ResourceKind → String
  | .container => "?all=true&sync=true"
  | .image => "?all=true"
  | _ => ""

def listText (apiVersion : String) (kind : ResourceKind) : String :=
  "/v" ++ apiVersion ++ "/libpod/" ++ kind.collection ++ "/json" ++ listQuery kind

def listPath (isRelease : List Char → Bool) (apiVersion : String) (kind : ResourceKind) :
    PodmanLensResult LibpodPath :=
  LibpodPath.parse isRelease (listText apiVersion kind)

/-- Only the third API is asked under its own version, as it was reported. -/
def probedVersion (apiVersion : ObservedVersion) : String :=
  if apiVersion.asSemver.major = 3 then apiVersion.original else "4.0.0"

def versionProbePath (isRelease : List Char → Bool) (apiVersion : ObservedVersion) :
    PodmanLensResult LibpodPath :=
  LibpodPath.parse isRelease ("/v" ++ probedVersion apiVersion ++ "/libpod/version")

def pingPath (isRelease : List Char → Bool) : PodmanLensResult LibpodPath :=
  LibpodPath.parse isRelease "/libpod/_ping"

end Constructors

section Encoding

def percentSafe (c : Char) : Bool := c.isAlphanum || "-._~%".toList.contains c

theorem percentByte_spells_table : ∀ n < 256,
    spellsByte (.ofNat n) (percentByte (.ofNat n)) = true ∧
      (percentByte (.ofNat n)).all percentSafe = true := by
  decide +kernel

theorem percentByte_spells (byte : UInt8) : spellsByte byte (percentByte byte) = true := by
  simpa only [UInt8.ofNat_toNat] using (percentByte_spells_table byte.toNat byte.toNat_lt).1

theorem percentDecode_percentEncode (value : String) :
    percentDecode (percentEncode value).toList = utf8Bytes value.toList := by
  rw [percentEncode, String.toList_ofList, percentDecode_flatMap percentByte_spells]
  rfl

theorem percentSafe_of_mem {value : String} {c : Char} (h : c ∈ (percentEncode value).toList) :
    percentSafe c = true := by
  rw [percentEncode, String.toList_ofList, List.mem_flatMap] at h
  obtain ⟨byte, _, hc⟩ := h
  have htable := (percentByte_spells_table byte.toNat byte.toNat_lt).2
  rw [UInt8.ofNat_toNat] at htable
  exact List.all_eq_true.mp htable c hc

theorem notMem_percentEncode {c : Char} (h : percentSafe c = false) (value : String) :
    c ∉ (percentEncode value).toList := by
  intro hmem
  rw [percentSafe_of_mem hmem] at h
  cases h

end Encoding

section Resources
variable {isRelease : List Char → Bool} {version : VersionText} {text other : String}
  {api : ObservedVersion} {kind kind' : ResourceKind} {collection identifier identifier' : String}
  {path : LibpodPath}

theorem VersionText.notMem {c : Char} (h : isVersionChar c = false) (version : VersionText) :
    c ∉ version.asStr.toList := by
  intro hmem
  rw [List.all_eq_true.mp version.accepted c hmem] at h
  cases h

theorem ResourceKind.collection_injective {a b : ResourceKind}
    (h : a.collection = b.collection) : a = b := by
  cases a <;> cases b <;> first | rfl | exact absurd h (by decide)

theorem ResourceKind.notMem_collection {c : Char} (hc : c.isAlphanum = false)
    (kind : ResourceKind) : c ∉ kind.collection.toList := by
  have hall : kind.collection.toList.all Char.isAlphanum = true := by cases kind <;> decide
  intro hmem
  rw [List.all_eq_true.mp hall c hmem] at hc
  cases hc

theorem ResourceKind.collection_ne_libpod (kind : ResourceKind) :
    kind.collection.toList ≠ "libpod".toList := by
  cases kind <;> decide

/-- The segments of an inspect request after its version. -/
def namedSegments (collection : String) (segment : List Char) : List (List Char) :=
  ["libpod".toList, collection.toList, segment, "json".toList]

def inspectSegments (version collection : String) (segment : List Char) : List (List Char) :=
  [[], 'v' :: version.toList] ++ namedSegments collection segment

theorem asStr_of_resource
    (h : LibpodPath.resource text collection identifier "json" = .ok path) :
    validUnescapedIdentifier identifier = true ∧ path.asStr.toList = ['/'].intercalate
      (inspectSegments text collection (percentEncode identifier).toList) := by
  rw [LibpodPath.resource] at h
  split_ifs at h with hrefused
  dsimp only at h
  split_ifs at h
  rw [Bool.or_eq_true, Bool.or_eq_true, not_or, not_or] at hrefused
  cases h
  refine ⟨by simpa using hrefused.2, ?_⟩
  have hmark : "/v".toList = ['/', 'v'] := rfl
  have hfront : "/libpod/".toList = '/' :: "libpod".toList ++ ['/'] := rfl
  have hslash : "/".toList = ['/'] := rfl
  simp only [percentEncodeIdentifier, String.toList_append, inspectSegments, namedSegments, hmark,
    hfront, hslash, List.cons_append, List.nil_append, List.intercalate_cons_cons,
    List.intercalate_singleton, List.append_assoc]

/-- No separator of a request occurs inside a segment after the version. -/
theorem notMem_namedSegments {c : Char} (hc : c ∈ ['/', '?', '#']) (kind : ResourceKind)
    (identifier : String) :
    ∀ part ∈ namedSegments kind.collection (percentEncode identifier).toList, c ∉ part := by
  have hclass : c.isAlphanum = false ∧ percentSafe c = false ∧ c ∉ "libpod".toList ∧
      c ∉ "json".toList := by
    simp only [List.mem_cons, List.not_mem_nil, or_false] at hc
    rcases hc with rfl | rfl | rfl <;> decide
  obtain ⟨halphanum, hsafe, hlibpod, hjson⟩ := hclass
  intro part hpart
  simp only [namedSegments, List.mem_cons, List.not_mem_nil, or_false] at hpart
  rcases hpart with rfl | rfl | rfl | rfl
  · exact hlibpod
  · exact kind.notMem_collection halphanum
  · exact notMem_percentEncode hsafe identifier
  · exact hjson

theorem notMem_inspectSegments {c : Char} (hc : c ∈ ['/', '?', '#']) (version : VersionText)
    (kind : ResourceKind) (identifier : String) :
    ∀ part ∈ inspectSegments version.asStr kind.collection (percentEncode identifier).toList,
      c ∉ part := by
  have hversion : c ∉ version.asStr.toList ∧ c ≠ 'v' := by
    simp only [List.mem_cons, List.not_mem_nil, or_false] at hc
    rcases hc with rfl | rfl | rfl <;> exact ⟨version.notMem (by decide), by decide⟩
  intro part hpart
  rcases List.mem_append.mp hpart with hfront | hpart
  · simp only [List.mem_cons, List.not_mem_nil, or_false] at hfront
    rcases hfront with rfl | rfl
    · exact List.not_mem_nil
    · rw [List.mem_cons, not_or]
      exact ⟨hversion.2, hversion.1⟩
  · exact notMem_namedSegments hc kind identifier part hpart

theorem splitOn_resource
    (h : LibpodPath.resource version.asStr kind.collection identifier "json" = .ok path) :
    path.asStr.toList.splitOn '/' =
      inspectSegments version.asStr kind.collection (percentEncode identifier).toList := by
  rw [(asStr_of_resource h).2]
  exact List.splitOn_intercalate '/' (notMem_inspectSegments (by simp) version kind identifier)
    (by simp [inspectSegments])

theorem percentEncode_ne {identifier : String} (h : validUnescapedIdentifier identifier = true) :
    (percentEncode identifier).toList ∉ [[], ['.'], ['.', '.']] := by
  intro hmem
  have hdecoded := percentDecode_percentEncode identifier
  simp only [validUnescapedIdentifier, Bool.and_eq_true, Bool.not_eq_true', Bool.or_eq_false_iff,
    beq_eq_false_iff_ne, String.isEmpty_eq_false_iff] at h
  obtain ⟨⟨⟨⟨hempty, _⟩, hdot, hdots⟩, _⟩, _⟩ := h
  have hne (text : String) (htext : identifier ≠ text)
      (heq : (percentEncode identifier).toList = text.toList)
      (hplain : percentDecode text.toList = utf8Bytes text.toList) : False := by
    rw [heq, hplain] at hdecoded
    exact htext (utf8Bytes_injective hdecoded).symm
  simp only [List.mem_cons, List.not_mem_nil, or_false] at hmem
  rcases hmem with hmem | hmem | hmem
  · exact hne "" hempty hmem rfl
  · exact hne "." hdot hmem rfl
  · exact hne ".." hdots hmem rfl

/-- What an inspect request looks like to a server that splits at the slashes and decodes once. -/
structure NamesResource (version : VersionText) (kind : ResourceKind) (identifier : String)
    (path : LibpodPath) (segment : List Char) : Prop where
  segments : path.asStr.toList.splitOn '/' = inspectSegments version.asStr kind.collection segment
  decoded : percentDecode segment = utf8Bytes identifier.toList
  proper : segment ∉ [[], ['.'], ['.', '.']]
  noQuery : '?' ∉ path.asStr.toList
  noFragment : '#' ∉ path.asStr.toList

theorem namesResource
    (h : LibpodPath.resource version.asStr kind.collection identifier "json" = .ok path) :
    NamesResource version kind identifier path (percentEncode identifier).toList := by
  obtain ⟨hvalid, htext⟩ := asStr_of_resource h
  have hnotMem {c : Char} (hc : c ∈ ['/', '?', '#']) (hne : c ≠ '/') :
      c ∉ path.asStr.toList := by
    intro hmem
    rw [htext] at hmem
    rcases mem_intercalate hmem with heq | ⟨part, hpart, hmem⟩
    · exact hne heq
    · exact notMem_inspectSegments hc version kind identifier part hpart hmem
  exact {
    segments := splitOn_resource h
    decoded := percentDecode_percentEncode identifier
    proper := percentEncode_ne hvalid
    noQuery := hnotMem (by simp) (by decide)
    noFragment := hnotMem (by simp) (by decide) }

theorem asStr_of_parse (h : LibpodPath.parse isRelease text = .ok path) : path.asStr = text := by
  rw [LibpodPath.parse] at h
  split_ifs at h
  dsimp only at h
  split_ifs at h
  cases h
  rfl

end Resources

section Endings
variable {isRelease : List Char → Bool} {text other : String} {api : ObservedVersion}
  {kind kind' : ResourceKind} {identifier identifier' : String} {path : LibpodPath}
  {parts parts' : List (List Char)}

/-- The last segments of a path. Requests of different kinds already differ in these, whatever the
version before them is. -/
def LibpodPath.EndsWith (path : LibpodPath) (parts : List (List Char)) : Prop :=
  parts <:+ path.asStr.toList.splitOn '/'

theorem endsWith_of_intercalate (front : List (List Char))
    (htext : path.asStr.toList = ['/'].intercalate (front ++ parts))
    (hplain : ∀ part ∈ parts, '/' ∉ part) (hne : parts ≠ []) : path.EndsWith parts := by
  rw [LibpodPath.EndsWith, htext]
  clear htext
  induction front with
  | nil =>
      rw [List.nil_append, List.splitOn_intercalate '/' hplain hne]
  | cons part front ih =>
      have htail : front ++ parts ≠ [] := List.append_ne_nil_of_right_ne_nil _ hne
      rw [List.cons_append, List.intercalate_cons_of_ne_nil htail, List.append_assoc,
        List.singleton_append, List.splitOn_append_cons_self]
      exact ih.trans (List.suffix_append _ _)

namespace LibpodPath.EndsWith

theorem tail {part : List Char} (h : path.EndsWith (part :: parts)) : path.EndsWith parts :=
  (List.suffix_cons part parts).trans h

theorem unique (h : path.EndsWith parts) (h' : path.EndsWith parts')
    (hlength : parts.length = parts'.length) : parts = parts' :=
  (List.suffix_of_suffix_length_le h h' hlength.le).eq_of_length hlength

end LibpodPath.EndsWith

theorem endsWith_resource
    (h : LibpodPath.resource text kind.collection identifier "json" = .ok path) :
    path.EndsWith ["libpod".toList, kind.collection.toList, (percentEncode identifier).toList,
      "json".toList] :=
  endsWith_of_intercalate _ (asStr_of_resource h).2
    (notMem_namedSegments (by simp) kind identifier) (by simp)

theorem endsWith_listPath (h : listPath isRelease text kind = .ok path) :
    path.EndsWith ["libpod".toList, kind.collection.toList,
      "json".toList ++ (listQuery kind).toList] := by
  refine endsWith_of_intercalate [[], 'v' :: text.toList] ?_ ?_ (by simp)
  · rw [asStr_of_parse h, listText]
    simp only [String.toList_append, List.cons_append, List.nil_append,
      List.intercalate_cons_cons, List.intercalate_singleton, List.append_assoc]
    rfl
  · intro part hpart
    have hkind := kind.notMem_collection (by decide : Char.isAlphanum '/' = false)
    have hquery : '/' ∉ (listQuery kind).toList := by cases kind <;> decide
    simp only [List.mem_cons, List.not_mem_nil, or_false] at hpart
    rcases hpart with rfl | rfl | rfl
    · decide
    · exact hkind
    · rw [List.mem_append, not_or]
      exact ⟨by decide, hquery⟩

theorem endsWith_versionProbePath (h : versionProbePath isRelease api = .ok path) :
    path.EndsWith ["libpod".toList, "version".toList] := by
  refine endsWith_of_intercalate [[], 'v' :: (probedVersion api).toList] ?_ (by decide) (by simp)
  rw [asStr_of_parse h]
  simp only [String.toList_append, List.cons_append, List.nil_append, List.intercalate_cons_cons,
    List.intercalate_singleton, List.append_assoc]
  rfl

theorem endsWith_pingPath (h : pingPath isRelease = .ok path) :
    path.EndsWith ["libpod".toList, "_ping".toList] :=
  endsWith_of_intercalate [[]] (by rw [asStr_of_parse h]; decide) (by decide) (by simp)

theorem resource_unique
    (h : LibpodPath.resource text kind.collection identifier "json" = .ok path)
    (h' : LibpodPath.resource other kind'.collection identifier' "json" = .ok path) :
    kind = kind' ∧ identifier = identifier' := by
  have hends := (endsWith_resource h).tail.unique (endsWith_resource h').tail
    (by simp only [List.length_cons])
  obtain ⟨hkind, hends⟩ := List.cons.inj hends
  obtain ⟨hsegment, -⟩ := List.cons.inj hends
  refine ⟨ResourceKind.collection_injective (String.toList_injective hkind),
    utf8Bytes_injective ?_⟩
  rw [← percentDecode_percentEncode, hsegment, percentDecode_percentEncode]

theorem listPath_unique (h : listPath isRelease text kind = .ok path)
    (h' : listPath isRelease other kind' = .ok path) : kind = kind' := by
  have hends := (endsWith_listPath h).tail.unique (endsWith_listPath h').tail
    (by simp only [List.length_cons])
  exact ResourceKind.collection_injective (String.toList_injective (List.cons.inj hends).1)

theorem resource_ne_listPath
    (h : LibpodPath.resource text kind.collection identifier "json" = .ok path) :
    listPath isRelease other kind' ≠ .ok path := by
  intro hlist
  have hends := (endsWith_resource h).tail.unique (endsWith_listPath hlist)
    (by simp only [List.length_cons])
  exact kind.collection_ne_libpod (List.cons.inj hends).1

theorem resource_ne_versionProbePath
    (h : LibpodPath.resource text kind.collection identifier "json" = .ok path) :
    versionProbePath isRelease api ≠ .ok path := by
  intro hprobe
  have hends := (endsWith_resource h).tail.tail.tail.unique (endsWith_versionProbePath hprobe).tail
    (by simp only [List.length_cons])
  exact absurd hends (by decide)

theorem resource_ne_pingPath
    (h : LibpodPath.resource text kind.collection identifier "json" = .ok path) :
    pingPath isRelease ≠ .ok path := by
  intro hping
  have hends := (endsWith_resource h).tail.tail.tail.unique (endsWith_pingPath hping).tail
    (by simp only [List.length_cons])
  exact absurd hends (by decide)

theorem listPath_ne_versionProbePath (h : listPath isRelease text kind = .ok path) :
    versionProbePath isRelease api ≠ .ok path := by
  intro hprobe
  have hends := (endsWith_listPath h).tail.unique (endsWith_versionProbePath hprobe)
    (by simp only [List.length_cons])
  exact kind.collection_ne_libpod (List.cons.inj hends).1

theorem listPath_ne_pingPath (h : listPath isRelease text kind = .ok path) :
    pingPath isRelease ≠ .ok path := by
  intro hping
  have hends := (endsWith_listPath h).tail.unique (endsWith_pingPath hping)
    (by simp only [List.length_cons])
  exact kind.collection_ne_libpod (List.cons.inj hends).1

end Endings

section Accepted
variable {isRelease : List Char → Bool} {text : String} {path : List Char}
  {query : Option (List Char)} {cs : List Char}

/-- The characters of the paths that the client spells. -/
def isPathChar (c : Char) : Bool := isVersionChar c || "/_".toList.contains c

theorem isPathChar_range {c : Char} (h : isPathChar c = true) :
    0x20 < c.toNat ∧ c.toNat < 0x7f := by
  rw [isPathChar, isVersionChar, Bool.or_assoc, Bool.or_eq_true] at h
  rcases h with halphanum | hother
  · have hrange := isAlphanum_range halphanum
    omega
  · have hall : (".-+".toList ++ "/_".toList).all (fun c => 0x20 < c.toNat && c.toNat < 0x7f) =
        true := by decide
    rw [Bool.or_eq_true, List.contains_iff_mem, List.contains_iff_mem, ← List.mem_append] at hother
    simpa using List.all_eq_true.mp hall c hother

theorem notMem_of_isPathChar (h : ∀ c ∈ cs, isPathChar c = true) {c : Char}
    (hc : isPathChar c = false) : c ∉ cs := by
  intro hmem
  rw [h c hmem] at hc
  cases hc

/-- Text that is spelled with these characters is accepted where its path and query are. -/
theorem parse_eq_ok (hlength : text.utf8ByteSize ≤ maxPathAndQueryBytes)
    (hsplit : splitQuery text.toList = (path, query))
    (hpath : ((path == "/libpod/_ping".toList && query.isNone) ||
      validVersionedPath isRelease path) = true)
    (hquery : query.all validEncodedQuery = true) (hplain : ∀ c ∈ path, isPathChar c = true) :
    LibpodPath.parse isRelease text = .ok ⟨text⟩ := by
  have hmarks : path.any "#?".toList.contains = false := by
    rw [List.any_eq_false]
    intro c hc hmark
    have hmem : c ∈ ['#', '?'] := List.contains_iff_mem.mp hmark
    simp only [List.mem_cons, List.not_mem_nil, or_false] at hmem
    rcases hmem with rfl | rfl <;> exact notMem_of_isPathChar hplain (by decide) hc
  have hscheme : contains "://".toList path = false := by
    rw [Bool.eq_false_iff, ne_eq, contains, List.any_eq_true]
    rintro ⟨tail, htail, hprefix⟩
    have hmem : ':' ∈ tail := (List.isPrefixOf_iff_prefix.mp hprefix).subset (by simp)
    exact notMem_of_isPathChar hplain (by decide : isPathChar ':' = false)
      (((List.mem_tails _ _).mp htail).subset hmem)
  have hascii : isAscii path = true := List.all_eq_true.mpr fun c hc => by
    have := isPathChar_range (hplain c hc)
    exact decide_eq_true (by omega)
  have hvisible : hasControlOrWhitespace path = false := by
    rw [hasControlOrWhitespace, List.any_eq_false]
    intro c hc
    obtain ⟨hlow, hhigh⟩ := isPathChar_range (hplain c hc)
    rw [isControl_eq_false_of_range hlow.le hhigh, isWhitespace_eq_false_of_range hlow hhigh]
    decide
  rw [LibpodPath.parse, if_neg (Nat.not_lt.mpr hlength), hsplit]
  simp only [hpath, hquery, hmarks, hscheme, hascii, hvisible]
  rfl

theorem pingPath_eq : pingPath isRelease = .ok ⟨"/libpod/_ping"⟩ :=
  parse_eq_ok (by decide) (by decide : splitQuery _ = ("/libpod/_ping".toList, none)) rfl rfl
    (List.all_eq_true.mp (by decide))

def fitsPath (text : String) : Bool := text.utf8ByteSize ≤ maxPathAndQueryBytes

theorem validEncodedComponent_of_version (h : ∀ c ∈ cs, isVersionChar c = true) :
    validEncodedComponent cs = true := by
  induction cs with
  | nil => rfl
  | cons c rest ih =>
      obtain ⟨hc, hrest⟩ := List.forall_mem_cons.mp h
      have hescape : c ≠ '%' := by
        rintro rfl
        exact absurd hc (by decide)
      have hcomponent : isUriComponentByte c = true := by
        rw [isVersionChar, Bool.or_eq_true, List.contains_iff_mem] at hc
        rw [isUriComponentByte, Bool.or_eq_true, List.contains_iff_mem]
        exact hc.imp_right fun hmem => (by decide : ".-+".toList ⊆ "-._~!$&'()*+,;=:@".toList) hmem
      rw [validEncodedComponent.eq_def]
      simp only [if_neg hescape, hcomponent, ih hrest, Bool.and_true]

theorem splitOnceText_of_notMem {needle before after : List Char} {c : Char}
    (h : c ∉ before) : splitOnceText (c :: needle) (before ++ c :: needle ++ after) =
      some (before, after) := by
  induction before with
  | nil =>
      rw [List.nil_append, List.cons_append, splitOnceText, if_pos]
      · rw [← List.cons_append, List.drop_left]
      · rw [← List.cons_append]
        exact List.isPrefixOf_iff_prefix.mpr (List.prefix_append _ _)
  | cons d before ih =>
      obtain ⟨hd, hbefore⟩ := not_or.mp (List.mem_cons.not.mp h)
      rw [List.cons_append, List.cons_append, splitOnceText, if_neg, ih hbefore]
      · rfl
      · rw [List.isPrefixOf_cons_cons]
        simp [hd]

theorem splitQuery_of_notMem (h : '?' ∉ cs) : splitQuery cs = (cs, none) := by
  rw [splitQuery, splitOnce_eq_none h]

theorem splitQuery_append (h : '?' ∉ cs) (query : List Char) :
    splitQuery (cs ++ '?' :: query) = (cs, some query) := by
  rw [splitQuery, splitOnce_append h]

/-- The segments of a list request, without its query. -/
def listSegments (version : List Char) (kind : ResourceKind) : List (List Char) :=
  [[], 'v' :: version, "libpod".toList, kind.collection.toList, "json".toList]

variable (version : VersionText) (kind : ResourceKind)

theorem forall_mem_listSegments :
    ∀ part ∈ listSegments version.asStr.toList kind, ∀ c ∈ part, isVersionChar c = true := by
  have hkind : kind.collection.toList.all isVersionChar = true := by cases kind <;> decide
  intro part hpart
  simp only [listSegments, List.mem_cons, List.not_mem_nil, or_false] at hpart
  rcases hpart with rfl | rfl | rfl | rfl | rfl
  · exact fun c hc => absurd hc List.not_mem_nil
  · exact List.forall_mem_cons.mpr ⟨by decide, List.all_eq_true.mp version.accepted⟩
  · exact List.all_eq_true.mp (by decide)
  · exact List.all_eq_true.mp hkind
  · exact List.all_eq_true.mp (by decide)

theorem splitOn_listSegments :
    (['/'].intercalate (listSegments version.asStr.toList kind)).splitOn '/' =
      listSegments version.asStr.toList kind := by
  refine List.splitOn_intercalate '/' (fun part hpart hslash => ?_) (by simp [listSegments])
  exact absurd (forall_mem_listSegments version kind part hpart '/' hslash) (by decide)

theorem validRawPath_listSegments :
    validRawPath (['/'].intercalate (listSegments version.asStr.toList kind)) = true := by
  rw [validRawPath, splitOn_listSegments, List.all_eq_true]
  intro part hpart
  rw [validEncodedComponent_of_version (forall_mem_listSegments version kind part hpart)]
  simp only [listSegments, List.mem_cons, List.not_mem_nil, or_false] at hpart
  rcases hpart with rfl | rfl | rfl | rfl | rfl
  · rfl
  · rfl
  · rfl
  · cases kind <;> rfl
  · rfl

theorem validVersionedPath_listSegments (hrelease : isRelease version.asStr.toList = true) :
    validVersionedPath isRelease (['/'].intercalate (listSegments version.asStr.toList kind)) =
      true := by
  have hslash : '/' ∉ version.asStr.toList := version.notMem (by decide)
  have hdrop : (['/'].intercalate (listSegments version.asStr.toList kind)).dropPrefix?
      "/v".toList = some (version.asStr.toList ++ "/libpod/".toList ++
        (kind.collection.toList ++ "/json".toList)) := by
    simp [listSegments, List.dropPrefix?]
  have hsplit : splitOnceText "/libpod/".toList (version.asStr.toList ++ "/libpod/".toList ++
      (kind.collection.toList ++ "/json".toList)) =
        some (version.asStr.toList, kind.collection.toList ++ "/json".toList) :=
    splitOnceText_of_notMem hslash
  have hresource : (kind.collection.toList ++ "/json".toList).isEmpty = false := by
    cases kind <;> rfl
  simp only [validVersionedPath, hdrop, hsplit, hresource, hrelease, validRawPath_listSegments]
  rfl

theorem splitQuery_listText : ∃ query, query.all validEncodedQuery = true ∧
    splitQuery (listText version.asStr kind).toList =
      (['/'].intercalate (listSegments version.asStr.toList kind), query) := by
  have htext : (listText version.asStr kind).toList =
      ['/'].intercalate (listSegments version.asStr.toList kind) ++ (listQuery kind).toList := by
    simp only [listText, listSegments, String.toList_append, List.intercalate_cons_cons,
      List.intercalate_singleton, List.append_assoc]
    rfl
  have hmark : '?' ∉ ['/'].intercalate (listSegments version.asStr.toList kind) := by
    intro hmem
    rcases mem_intercalate hmem with heq | ⟨part, hpart, hmem⟩
    · exact absurd heq (by decide)
    · exact absurd (forall_mem_listSegments version kind part hpart '?' hmem) (by decide)
  rw [htext]
  cases hquery : (listQuery kind).toList with
  | nil => exact ⟨none, rfl, by rw [List.append_nil, splitQuery_of_notMem hmark]⟩
  | cons mark query =>
      have hvalid : mark = '?' ∧ validEncodedQuery query = true := by
        cases kind <;> cases hquery <;> decide +kernel
      rw [hvalid.1]
      exact ⟨some query, hvalid.2, splitQuery_append hmark query⟩

/-- The list of a kind is asked for under a released version, unless its path is too long. -/
theorem listPath_eq (hrelease : isRelease version.asStr.toList = true) :
    listPath isRelease version.asStr kind =
      if fitsPath (listText version.asStr kind) then .ok ⟨listText version.asStr kind⟩
      else .error .invalidTransportMessage := by
  rw [listPath]
  split_ifs with hfits
  · obtain ⟨query, hquery, hsplit⟩ := splitQuery_listText version kind
    refine parse_eq_ok (of_decide_eq_true hfits) hsplit ?_ hquery fun c hc => ?_
    · rw [validVersionedPath_listSegments version kind hrelease, Bool.or_true]
    · rcases mem_intercalate hc with rfl | ⟨part, hpart, hc⟩
      · decide
      · rw [isPathChar, forall_mem_listSegments version kind part hpart c hc, Bool.true_or]
  · rw [LibpodPath.parse, if_pos]
    exact Nat.lt_of_not_le fun hle => hfits (decide_eq_true hle)

end Accepted

section Parsed
variable {isRelease : List Char → Bool} {path : LibpodPath} {cs : List Char}

/-- The bytes that mark segments, queries, fragments, escapes and relative segments, and controls. -/
def Structural (byte : UInt8) : Prop :=
  byte < 0x20 ∨ byte = 0x7f ∨ byte ∈ utf8Bytes "/?#%.".toList

instance : DecidablePred Structural := fun _ => inferInstanceAs (Decidable (_ ∨ _ ∨ _))

theorem nibble_lt (c : Char) : nibble c < 16 := by
  rw [nibble]
  split_ifs with hdigit hlower hupper
  · have hrange : 48 ≤ c.toNat ∧ c.toNat ≤ 57 := by
      simpa [Char.isDigit, UInt32.le_iff_toNat_le] using hdigit
    omega
  · simp only [Bool.and_eq_true, decide_eq_true_eq] at hlower
    have hlast : c.toNat ≤ 102 := hlower.2
    omega
  · simp only [Bool.and_eq_true, decide_eq_true_eq] at hupper
    have hlast : c.toNat ≤ 70 := hupper.2
    omega
  · decide

theorem safe_table : ∀ n < 256, isSafePercentDecodedByte (Char.ofNat n) = true →
    ¬Structural (.ofNat n) := by
  decide +kernel

theorem component_table : ∀ n < 128, isUriComponentByte (Char.ofNat n) = true →
    String.utf8EncodeChar (Char.ofNat n) = [.ofNat n] ∧ UInt8.ofNat n ≠ 0x2F := by
  decide +kernel

theorem not_structural_escapedByte {high low : Char}
    (h : isSafePercentDecodedByte (decodePercentByte high low) = true) :
    ¬Structural (escapedByte high low) := by
  have hhigh := nibble_lt high
  have hlow := nibble_lt low
  exact safe_table _ (by omega) h

theorem toNat_lt_of_isUriComponentByte {c : Char} (h : isUriComponentByte c = true) :
    c.toNat < 128 := by
  rw [isUriComponentByte, Bool.or_eq_true] at h
  rcases h with h | h
  · have hrange := isAlphanum_range h
    omega
  · rw [List.contains_iff_mem] at h
    have hall : "-._~!$&'()*+,;=:@".toList.all (fun c => c.toNat < 128) = true := by decide
    simpa using List.all_eq_true.mp hall c h

/-- A component character stands for one byte, which is no slash. -/
theorem utf8EncodeChar_component {c : Char} (h : isUriComponentByte c = true) :
    ∃ byte, String.utf8EncodeChar c = [byte] ∧ byte ≠ 0x2F ∧ byte.toNat = c.toNat := by
  have hlt := toNat_lt_of_isUriComponentByte h
  have htable := component_table c.toNat hlt (by rwa [Char.ofNat_toNat])
  rw [Char.ofNat_toNat] at htable
  exact ⟨_, htable.1, htable.2, by
    rw [UInt8.toNat_ofNat']
    omega⟩

/-- What a valid component is made of: escapes of safe bytes and component characters. -/
inductive EncodedComponent : List Char → Prop
  | nil : EncodedComponent []
  | escape (high low : Char) (rest : List Char) (hhigh : isHexDigit high = true)
      (hlow : isHexDigit low = true)
      (hsafe : isSafePercentDecodedByte (decodePercentByte high low) = true)
      (hrest : EncodedComponent rest) : EncodedComponent ('%' :: high :: low :: rest)
  | plain (c : Char) (rest : List Char) (hescape : c ≠ '%') (hc : isUriComponentByte c = true)
      (hrest : EncodedComponent rest) : EncodedComponent (c :: rest)

theorem encodedComponent_of_valid (h : validEncodedComponent cs = true) : EncodedComponent cs := by
  fun_induction validEncodedComponent cs with
  | case1 => exact .nil
  | case2 high low rest ih =>
      simp only [Bool.and_eq_true] at h
      obtain ⟨⟨⟨hhigh, hlow⟩, hsafe⟩, hrest⟩ := h
      exact .escape high low rest hhigh hlow hsafe (ih hrest)
  | case3 rest hshort => cases h
  | case4 c rest hescape ih =>
      rw [Bool.and_eq_true] at h
      exact .plain c rest hescape h.1 (ih h.2)

namespace EncodedComponent

theorem not_structural {byte : UInt8} (h : EncodedComponent cs)
    (hescape : .escape byte ∈ pieces cs) : ¬Structural byte := by
  induction h with
  | nil => cases hescape
  | escape high low rest hhigh hlow hsafe hrest ih =>
      rw [pieces_escape hhigh hlow, List.mem_cons] at hescape
      rcases hescape with heq | hmem
      · cases heq
        exact not_structural_escapedByte hsafe
      · exact ih hmem
  | plain c rest hc hcomponent hrest ih =>
      rw [pieces_cons hc, List.mem_cons] at hescape
      rcases hescape with heq | hmem
      · cases heq
      · exact ih hmem

/-- A structural byte that no plain character stands for is not decoded at all. -/
theorem notMem_percentDecode {byte : UInt8} (h : EncodedComponent cs)
    (hstructural : Structural byte)
    (hplain : ∀ c, c ≠ '%' → isUriComponentByte c = true → c.toNat ≠ byte.toNat) :
    byte ∉ percentDecode cs := by
  induction h with
  | nil => exact List.not_mem_nil
  | escape high low rest hhigh hlow hsafe hrest ih =>
      rw [percentDecode_escape hhigh hlow, List.mem_cons, not_or]
      refine ⟨?_, ih⟩
      rintro rfl
      exact not_structural_escapedByte hsafe hstructural
  | plain c rest hc hcomponent hrest ih =>
      obtain ⟨encoded, hencoded, _, hvalue⟩ := utf8EncodeChar_component hcomponent
      rw [percentDecode_cons hc, hencoded, List.singleton_append, List.mem_cons, not_or]
      refine ⟨?_, ih⟩
      rintro rfl
      exact hplain c hc hcomponent hvalue.symm

theorem slash_notMem (h : EncodedComponent cs) : 0x2F ∉ percentDecode cs := by
  refine h.notMem_percentDecode (by decide) fun c _ hcomponent hslash => ?_
  obtain ⟨byte, _, hne, hvalue⟩ := utf8EncodeChar_component hcomponent
  exact hne (UInt8.toNat_inj.mp (hvalue.trans hslash))

theorem percent_notMem (h : EncodedComponent cs) : 0x25 ∉ percentDecode cs :=
  h.notMem_percentDecode (by decide) fun _ hne _ hpercent => hne (Char.toNat_inj.mp hpercent)

/-- Dots are never escaped, so a component that decodes to dots was spelled with dots. -/
theorem eq_dots (h : EncodedComponent cs) {n : ℕ}
    (hdots : percentDecode cs = List.replicate n 0x2E) : cs = List.replicate n '.' := by
  induction h generalizing n with
  | nil =>
      cases n with
      | zero => rfl
      | succ n => cases hdots
  | escape high low rest hhigh hlow hsafe hrest ih =>
      rw [percentDecode_escape hhigh hlow] at hdots
      cases n with
      | zero => cases hdots
      | succ n =>
          rw [List.replicate_succ, List.cons.injEq] at hdots
          refine absurd ?_ (not_structural_escapedByte hsafe)
          rw [hdots.1]
          decide
  | plain c rest hc hcomponent hrest ih =>
      obtain ⟨byte, hbyte, _, hvalue⟩ := utf8EncodeChar_component hcomponent
      rw [percentDecode_cons hc, hbyte, List.singleton_append] at hdots
      cases n with
      | zero => cases hdots
      | succ n =>
          rw [List.replicate_succ, List.cons.injEq] at hdots
          have hdot : c = '.' := by
            rw [← Char.toNat_inj, ← hvalue, hdots.1]
            rfl
          rw [hdot, ih hdots.2, List.replicate_succ]

end EncodedComponent

theorem validRawPath_of_versioned (h : validVersionedPath isRelease cs = true) :
    validRawPath cs = true := by
  rw [validVersionedPath] at h
  split at h
  · cases h
  · split at h
    · cases h
    · rw [Bool.and_eq_true] at h
      exact h.2

theorem validRawPath_ping : validRawPath "/libpod/_ping".toList = true := by
  decide +kernel

theorem validRawPath_of_parse {text : String} (h : LibpodPath.parse isRelease text = .ok path) :
    validRawPath (splitQuery path.asStr.toList).1 = true := by
  rw [asStr_of_parse h]
  rw [LibpodPath.parse] at h
  split_ifs at h
  dsimp only at h
  generalize splitQuery text.toList = parts at h
  split_ifs at h with hrefused
  rw [Bool.not_eq_true] at hrefused
  simp only [Bool.or_eq_false_iff, Bool.not_eq_false'] at hrefused
  have hpath := hrefused.1.1.1.1.1
  rw [Bool.or_eq_true, Bool.and_eq_true, beq_iff_eq] at hpath
  rcases hpath with hping | hversioned
  · rw [hping.1]
    exact validRawPath_ping
  · exact validRawPath_of_versioned hversioned

/-- Decoding the path once makes no new structure, leaves nothing to decode again, and no segment
becomes a relative one. -/
structure DecodesOnce (path : LibpodPath) : Prop where
  escapes : ∀ byte, .escape byte ∈ pieces (splitQuery path.asStr.toList).1 → ¬Structural byte
  percent : 0x25 ∉ percentDecode (splitQuery path.asStr.toList).1
  counts : ∀ byte, Structural byte →
    (percentDecode (splitQuery path.asStr.toList).1).count byte ≤
      (utf8Bytes (splitQuery path.asStr.toList).1).count byte
  segments : (percentDecode (splitQuery path.asStr.toList).1).splitOn 0x2F =
    ((splitQuery path.asStr.toList).1.splitOn '/').map percentDecode
  proper : ∀ segment ∈ (percentDecode (splitQuery path.asStr.toList).1).splitOn 0x2F,
    segment ∉ [[0x2E], [0x2E, 0x2E]]

theorem components_of_validRawPath (h : validRawPath cs = true) :
    ∀ part ∈ cs.splitOn '/', EncodedComponent part ∧ part ∉ [['.'], ['.', '.']] := by
  intro part hpart
  have hvalid := List.all_eq_true.mp h part hpart
  rw [Bool.and_eq_true] at hvalid
  refine ⟨encodedComponent_of_valid hvalid.2, ?_⟩
  simpa [and_comm] using hvalid.1

theorem percentDecode_eq_intercalate (cs : List Char) :
    percentDecode cs = [0x2F].intercalate ((cs.splitOn '/').map percentDecode) := by
  have hjoin := percentDecode_intercalate (by decide : isHexDigit '/' = false) (by decide)
    (rfl : String.utf8EncodeChar '/' = [0x2F]) (cs.splitOn '/')
  rwa [List.intercalate_splitOn] at hjoin

theorem splitOn_percentDecode (h : validRawPath cs = true) :
    (percentDecode cs).splitOn 0x2F = (cs.splitOn '/').map percentDecode := by
  rw [percentDecode_eq_intercalate]
  refine List.splitOn_intercalate _ ?_ (by simp)
  intro part hpart
  obtain ⟨source, hsource, rfl⟩ := List.mem_map.mp hpart
  exact (components_of_validRawPath h source hsource).1.slash_notMem

theorem percent_notMem_of_validRawPath (h : validRawPath cs = true) :
    0x25 ∉ percentDecode cs := by
  rw [percentDecode_eq_intercalate]
  intro hmem
  rcases mem_intercalate hmem with heq | ⟨part, hpart, hmem⟩
  · exact absurd heq (by decide)
  · obtain ⟨source, hsource, rfl⟩ := List.mem_map.mp hpart
    exact (components_of_validRawPath h source hsource).1.percent_notMem hmem

theorem not_structural_of_validRawPath {byte : UInt8} (h : validRawPath cs = true)
    (hescape : .escape byte ∈ pieces cs) : ¬Structural byte := by
  have hjoined : ['/'].intercalate (cs.splitOn '/') = cs := List.intercalate_splitOn '/'
  rw [← hjoined, pieces_intercalate (by decide) (by decide)] at hescape
  rcases mem_intercalate hescape with heq | ⟨part, hpart, hmem⟩
  · cases heq
  · obtain ⟨source, hsource, rfl⟩ := List.mem_map.mp hpart
    exact (components_of_validRawPath h source hsource).1.not_structural hmem

theorem decodesOnce_of_parse {text : String} (h : LibpodPath.parse isRelease text = .ok path) :
    DecodesOnce path := by
  have hraw := validRawPath_of_parse h
  refine ⟨fun byte => not_structural_of_validRawPath hraw, percent_notMem_of_validRawPath hraw,
    fun byte hbyte => ?_, splitOn_percentDecode hraw, fun segment hsegment hdots => ?_⟩
  · exact count_percentDecode_le fun hescape => not_structural_of_validRawPath hraw hescape hbyte
  · rw [splitOn_percentDecode hraw] at hsegment
    obtain ⟨source, hsource, rfl⟩ := List.mem_map.mp hsegment
    obtain ⟨hcomponent, hproper⟩ := components_of_validRawPath hraw source hsource
    simp only [List.mem_cons, List.not_mem_nil, or_false, not_or] at hdots hproper
    rcases hdots with hdots | hdots
    · exact hproper.1 (hcomponent.eq_dots (n := 1) hdots)
    · exact hproper.2 (hcomponent.eq_dots (n := 2) hdots)

/-- Inspect requests and pre-encoded requests reach exactly the endpoint that they name. -/
theorem requestPaths_unconfused (isRelease : List Char → Bool) :
    (∀ (version : VersionText) (kind : ResourceKind) (identifier : String) (path : LibpodPath),
      LibpodPath.resource version.asStr kind.collection identifier "json" = .ok path →
        (∃ segment, NamesResource version kind identifier path segment) ∧
        (∀ other kind' identifier',
          LibpodPath.resource other (ResourceKind.collection kind') identifier' "json" = .ok path →
            kind = kind' ∧ identifier = identifier') ∧
        (∀ other kind', listPath isRelease other kind' ≠ .ok path) ∧
        (∀ api, versionProbePath isRelease api ≠ .ok path) ∧ pingPath isRelease ≠ .ok path) ∧
    ∀ text path, LibpodPath.parse isRelease text = .ok path → DecodesOnce path := by
  refine ⟨fun version kind identifier path h => ?_, fun text path h => decodesOnce_of_parse h⟩
  exact ⟨⟨_, namesResource h⟩, fun other kind' identifier' h' => resource_unique h h',
    fun other kind' => resource_ne_listPath h, fun api => resource_ne_versionProbePath h,
    resource_ne_pingPath h⟩

def sampleVersion : VersionText := ⟨"5.4.0", by decide +kernel⟩

theorem requestPaths_unconfused_sample :
    (∃ segment, NamesResource sampleVersion .image "app/web:1"
      ⟨"/v5.4.0/libpod/images/app%2Fweb%3A1/json"⟩ segment) ∧
    DecodesOnce ⟨"/v5.4.0/libpod/images/app%3A1/json?all=true"⟩ := by
  have h := requestPaths_unconfused fun version => version == "5.4.0".toList
  exact ⟨(h.1 sampleVersion .image "app/web:1" _ (by decide +kernel)).1,
    h.2 "/v5.4.0/libpod/images/app%3A1/json?all=true" _ (by decide +kernel)⟩

end Parsed

end PodmanLens
