import PodmanLens.Identity

/-!
# Image references

`classifyImageSource` validates one image spelling and classifies its portability: an optional
registry, slash-separated repository components, and either a tag or a sha256 digest. Content IDs
and `localhost` references are local, registry-qualified tagged or pinned references are portable.
-/

namespace PodmanLens
open Text

inductive ImagePullPolicy
  | always
  | missing
  | never
  | newer
  deriving DecidableEq

def ImagePullPolicy.asStr : ImagePullPolicy → String
  | .always => "always"
  | .missing => "missing"
  | .never => "never"
  | .newer => "newer"

inductive ImageSourceClassification
  | portable
  | «local»
  | unqualified
  | tagless
  deriving DecidableEq

def isLowercaseOrDigit (c : Char) : Bool := isAsciiLowercase c || c.isDigit

def isRegistryLabel (label : List Char) : Bool :=
  !label.isEmpty && byteLength label ≤ 63 &&
    label.head?.any isLowercaseOrDigit && label.getLast?.any isLowercaseOrDigit &&
    label.all fun c => isLowercaseOrDigit c || c == '-'

def isValidRegistry (value : List Char) : Bool :=
  if value = "localhost".toList then true
  else
    let (host, port) := (rsplitOnce ':' value).getD (value, [])
    !host.isEmpty && (host.splitOn '.').all isRegistryLabel &&
      (port.isEmpty || (parseUnsigned 65535 port).any (· != 0))

def stripPrefix (marker cs : List Char) : Option (List Char) :=
  if marker.isPrefixOf cs then some (cs.drop marker.length) else none

def isImageId (value : List Char) : Bool :=
  let hex := (stripPrefix "sha256:".toList value).getD value
  byteLength hex == 64 && hex.all isHexDigit

/-- An empty tag is no tag, and the colon then stays in the repository. -/
def splitTag (repository : List Char) : List Char × Option (List Char) :=
  match rsplitOnce ':' repository with
  | none => (repository, none)
  | some (name, tag) => if tag.isEmpty then (repository, none) else (name, some tag)

def isRepositoryComponent (value : List Char) : Bool :=
  !value.isEmpty && value.head?.any Char.isAlphanum &&
    value.all fun c => isLowercaseOrDigit c || c == '.' || c == '_' || c == '-'

def isTag (value : List Char) : Bool :=
  !value.isEmpty && byteLength value ≤ 128 &&
    value.head?.any (fun c => c.isAlphanum || c == '_') &&
    value.all fun c => c.isAlphanum || c == '.' || c == '_' || c == '-'

def isSha256Digest (value : List Char) : Bool :=
  byteLength value == 71 && "sha256:".toList.isPrefixOf value && (value.drop 7).all isHexDigit

/-- The name before an optional `@sha256:` digest. -/
def splitDigest (value : List Char) : Option (List Char × Option (List Char)) :=
  match splitOnce '@' value with
  | none => some (value, none)
  | some (name, digest) =>
    if !name.isEmpty && isSha256Digest digest then some (name, some digest) else none

/-- The registry, when the first component must be one, and the repository components. -/
def splitRegistry (components : List (List Char)) :
    Option (Option (List Char) × List (List Char)) :=
  match components with
  | [] => none
  | first :: rest =>
    if !rest.isEmpty && (first = "localhost".toList || first.contains '.' || first.contains ':') then
      if isValidRegistry first then some (some first, rest) else none
    else some (none, components)

def classifyParts (registry tag digest : Option (List Char)) : Option ImageSourceClassification :=
  match registry, tag, digest with
  | none, _, _ => some .unqualified
  | some host, tag, digest =>
    if host = "localhost".toList then some .local
    else match tag, digest with
      | some _, none | none, some _ => some .portable
      | none, none => some .tagless
      | some _, some _ => none

def malformedImageSource (value : List Char) : Bool :=
  value.isEmpty || decide (maxReferenceBytes < byteLength value) ||
    value.any (fun c => isControl c || isWhitespace c) ||
    ((value.contains '@' || value.contains '\\') && !contains "@sha256:".toList value) ||
    contains "//".toList value || (value.contains '@' && value.count '@' != 1)

def classifyReference (value : List Char) : Option ImageSourceClassification := do
  let (name, digest) ← splitDigest value
  let components := name.splitOn '/'
  if components.any List.isEmpty then none
  let (registry, repository) ← splitRegistry components
  let (last, tag) := splitTag (← repository.getLast?)
  if !(repository.dropLast ++ [last]).all isRepositoryComponent then none
  if tag.any (!isTag ·) then none
  if digest.isSome && tag.isSome then none
  classifyParts registry tag digest

def classifyImageSource (spelling : String) : Option ImageSourceClassification :=
  let value := spelling.toList
  if malformedImageSource value then none
  else if isImageId value then some .local
  else classifyReference value

structure ImageSource where
  asStr : String
  classification : ImageSourceClassification
  classified : classifyImageSource asStr = some classification
  deriving DecidableEq

namespace ImageSource

def new (value : String) : PodmanLensResult ImageSource :=
  match h : classifyImageSource value with
  | some classification => .ok ⟨value, classification, h⟩
  | none => .error .invalidImageReference

theorem controlFree_asStr (source : ImageSource) : ControlFree source.asStr := by
  intro c hc
  have h := source.classified
  simp only [classifyImageSource] at h
  split at h
  · cases h
  · next hwell =>
      simp only [malformedImageSource, Bool.not_eq_true, Bool.or_eq_false_iff,
        List.any_eq_false] at hwell
      have hclean := hwell.1.1.1.2 c hc
      cases hcontrol : isControl c with
      | false => rfl
      | true => simp [hcontrol] at hclean

end ImageSource

example : classifyImageSource "registry.example:5000/team/app:1.0" = some .portable := by decide

end PodmanLens
