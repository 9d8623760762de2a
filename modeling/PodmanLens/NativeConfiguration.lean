import PodmanLens.NativeControls
import PodmanLens.Timestamp

/-!
# Inspected configuration

Labels, the environment, the configured words and texts of a container, and the single fields whose
form no shared reader accepts. Environment values are replaced by a marker unless the caller asked
for them.
-/

namespace PodmanLens
open Std Json Text

inductive EnvironmentValuePolicy
  | redact
  | include
  deriving DecidableEq

structure AcquisitionOptions where
  environmentValues : EnvironmentValuePolicy
  deriving DecidableEq

inductive ProtectedEnvironmentValue
  | redacted
  | authorizedOpaque (value : String)
  deriving DecidableEq

structure ProtectedEnvironmentEntry where
  name : String
  value : ProtectedEnvironmentValue
  deriving DecidableEq

abbrev ProtectedEnvironment := List ProtectedEnvironmentEntry

section Maps
variable (identity : ResourceIdentity)

/-- The members of an object whose values are all strings. -/
def stringMembers (members : Members) : Option (List (String × String)) :=
  members.mapM fun member => member.2.asStr.map fun text => (member.1, text)

/-- `none` where a value is neither missing nor an object of strings. -/
def stringMap (value : Option Value) : Option (Option (List (String × String))) :=
  match supplied value with
  | none => some none
  | some value => (value.asObject.bind stringMembers).map some

/-- A map of strings, with what is kept of it. -/
def stringMapField {α : Type} (keep : List (String × String) → α) (value : Option Value)
    (path : String) (origin : ObservationOrigin) : Decoder (ObservationField α) :=
  match stringMap value with
  | some (some pairs) => return .observed ⟨keep pairs, origin⟩
  | some none => return .absent
  | none => nativeMalformedField identity path

def labelsOf (pairs : List (String × String)) : Labels := ExtTreeMap.ofList pairs

def decodeLabels (value : Option Value) (path : String) : Decoder (ObservationField Labels) :=
  stringMapField identity labelsOf value path .configured

/-- The keys of network options; their values are not kept. -/
def networkOptionKeys (pairs : List (String × String)) : List String := pairs.map Prod.fst

end Maps

section Environment
variable (identity : ResourceIdentity) (policy : EnvironmentValuePolicy)

def protectedEnvironmentValue (value : String) : ProtectedEnvironmentValue :=
  match policy with
  | .redact => .redacted
  | .include => .authorizedOpaque value

/-- An entry is a name, the first equals sign and a value. -/
def environmentEntry (path : String) (entry : Value × ℕ) :
    Decoder (Option ProtectedEnvironmentEntry) :=
  match (entry.1.asStr.bind (splitFirst '=')).filter fun parts => !parts.1.isEmpty with
  | some (name, value) => return some ⟨name, protectedEnvironmentValue policy value⟩
  | none => do
    noteOccurrence identity .environmentMalformed path entry.2
    return none

def decodeEnvironment (value : Option Value) (path : String) :
    Decoder (ObservationField ProtectedEnvironment) :=
  match supplied value with
  | none => return .absent
  | some (.array entries) => do
    let decoded ← entries.zipIdx.mapM (environmentEntry identity policy path)
    return elementsField decoded .effective
  | some _ => nativeMalformedField identity path

end Environment

section Configuration
variable (identity : ResourceIdentity)

/-- An empty list configures nothing. -/
def decodeConfiguredArguments (value : Option Value) (path : String) :
    Decoder (ObservationField (List String)) :=
  match value with
  | none | some .null | some (.array []) => return .absent
  | some (.array values) =>
    match values.mapM Value.asStr with
    | some arguments => return .observed ⟨arguments, .configured⟩
    | none => nativeMalformedField identity path
  | some _ => nativeMalformedField identity path

/-- The empty text of an older engine configures nothing either. -/
def decodeConfiguredEntrypoint (value : Option Value) (path : String) :
    Decoder (ObservationField (List String)) :=
  match value with
  | some (.string "") => return .absent
  | value => decodeConfiguredArguments identity value path

def decodeConfiguredText (value : Option Value) (path : String) :
    Decoder (ObservationField String) := nativeStringField identity value path .configured

structure ContainerConfigurationDecoded where
  labels : ObservationField Labels
  environment : ObservationField ProtectedEnvironment
  command : ObservationField (List String)
  entrypoint : ObservationField (List String)
  user : ObservationField String
  workingDirectory : ObservationField String
  hostname : ObservationField String

def decodeContainerConfiguration (object : Members) (options : AcquisitionOptions) :
    Decoder ContainerConfigurationDecoded :=
  match supplied (lookup object "Config") with
  | none => return .mk .absent .absent .absent .absent .absent .absent .absent
  | some (.object config) => do
    let labels ← decodeLabels identity (lookup config "Labels") "$.Config.Labels"
    let environment ← decodeEnvironment identity options.environmentValues (lookup config "Env")
      "$.Config.Env"
    let command ← decodeConfiguredArguments identity (lookup config "Cmd") "$.Config.Cmd"
    let entrypoint ← decodeConfiguredEntrypoint identity (lookup config "Entrypoint")
      "$.Config.Entrypoint"
    let user ← decodeConfiguredText identity (lookup config "User") "$.Config.User"
    let workingDirectory ← decodeConfiguredText identity (lookup config "WorkingDir")
      "$.Config.WorkingDir"
    let hostname ← decodeConfiguredText identity (lookup config "Hostname") "$.Config.Hostname"
    return ⟨labels, environment, command, entrypoint, user, workingDirectory, hostname⟩
  | some _ => do
    noteField identity .resourceMalformed "$.Config"
    return .mk .malformed .malformed .malformed .malformed .malformed .malformed .malformed

end Configuration

section Fields
variable (identity : ResourceIdentity)

def memorySwappinessPath : String := "$.HostConfig.MemorySwappiness"

/-- Minus one stands for the default of the system. -/
def swappinessFromNumber : ℤ → Option (Option ℕ)
  | -1 => some none
  | value => if 0 ≤ value ∧ value ≤ 100 then some (some value.toNat) else none

def decodeMemorySwappiness (object : Members) (evidence : ResourceEvidence) :
    Decoder (ObservationField ℕ) :=
  match supplied (lookup object "HostConfig") with
  | none => return .absent
  | some (.object hostConfig) =>
    match lookup hostConfig "MemorySwappiness" with
    | none => return .absent
    | some .null =>
      if startsWith "5.4." evidence.apiVersion then do
        noteField identity .versionInapplicableField memorySwappinessPath
        return .versionInapplicable
      else return .absent
    | some value =>
      match value.asI64.bind swappinessFromNumber with
      | some none => return .absent
      | some (some found) => return .observed ⟨found, .effective⟩
      | none => nativeMalformedField identity memorySwappinessPath
  | some _ => nativeMalformedField identity "$.HostConfig"

def decodeIsInfra (object : Members) : Decoder (ObservationField Bool) :=
  nativeBoolField identity (lookup object "IsInfra") "$.IsInfra" .effective

def nativeTimestampField (value : Option Value) (path : String) :
    Decoder (ObservationField String) :=
  scalarField identity (fun value => value.asStr.filter nativeTimestampIsRfc3339) value path
    .effective

/-- The empty text counts as a missing one. -/
def optionalStringOrEmptyField (value : Option Value) (path : String) (origin : ObservationOrigin) :
    Decoder (ObservationField String) :=
  match value with
  | some (.string "") => return .absent
  | value => nativeStringField identity value path origin

def imageAlias (path : String) (entry : Value × ℕ) : Decoder (Option String) :=
  match entry.1.asNonEmptyStr with
  | some spelling => return some spelling
  | none => do
    noteOccurrence identity .resourceMalformed path entry.2
    return none

def imageAliases (value : Option Value) (path : String) :
    Decoder (ObservationField (List String)) :=
  match supplied value with
  | none => return .absent
  | some (.array values) => do
    let aliases ← values.zipIdx.mapM (imageAlias identity path)
    return elementsField aliases .localResolution
  | some _ => nativeMalformedField identity path

inductive VolumeOwnerIdWireValue
  | explicit (id : UInt32)
  | wireAbsentMayMeanZero
  deriving DecidableEq

/-- A missing owner may stand for the first one, and null is no owner. -/
def decodeVolumeOwner (value : Option Value) (path : String) :
    Decoder (ObservationField VolumeOwnerIdWireValue) :=
  match value with
  | none => do
    noteField identity .volumeOwnerDefaultAmbiguous path
    return .observed ⟨.wireAbsentMayMeanZero, .effective⟩
  | some value =>
    match value.asU32 with
    | some id => return .observed ⟨.explicit id, .effective⟩
    | none => nativeMalformedField identity path

/-- A missing marker means no, and null is malformed. -/
def decodeAnonymous (value : Option Value) : Decoder (ObservationField Bool) :=
  match value with
  | none => return .observed ⟨false, .effective⟩
  | some (.bool value) => return .observed ⟨value, .effective⟩
  | some _ => nativeMalformedField identity "$.Anonymous"

structure NativeSecretDriverObservation where
  name : ObservationField String
  options : ObservationField ℕ
  deriving DecidableEq

/-- Of the options of a secret driver only their number is kept. -/
def decodeSecretDriver (driver : Members) : Decoder NativeSecretDriverObservation := do
  let name ← optionalStringField identity (lookup driver "Name") "$.Spec.Driver.Name" .effective
  let options ← stringMapField identity List.length (lookup driver "Options")
    "$.Spec.Driver.Options" .effective
  return ⟨name, options⟩

end Fields

end PodmanLens
