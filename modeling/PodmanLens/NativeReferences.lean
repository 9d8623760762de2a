import PodmanLens.NativeNetworking

/-!
# Inspected references

The members of an inspected container or pod that name other resources: mounts, dependencies,
secret grants and the containers of a pod. An element that does not decode makes its list
malformed, and the accepted references are kept beside the field.
-/

namespace PodmanLens
open Json Text

section Mounts

inductive ContainerMountKind
  | namedVolume
  | bind
  deriving DecidableEq

inductive ContainerMountSource
  | namedVolume (name : String)
  | localBindPath (path : String)
  deriving DecidableEq

def ContainerMountSource.value : ContainerMountSource → String
  | .namedVolume name => name
  | .localBindPath path => path

structure ContainerMountObservation where
  kind : ContainerMountKind
  source : ObservationField ContainerMountSource
  localBackingPath : ObservationField String
  destination : ObservationField String
  writable : ObservationField Bool
  options : ObservationField (List String)
  selinuxRelabel : ObservationField ContainerMountSelinuxRelabel
  propagation : ObservationField String
  subpath : ObservationField String
  deriving DecidableEq

def containerMountKind : String → Option ContainerMountKind
  | "volume" => some .namedVolume
  | "bind" => some .bind
  | _ => none

variable (identity : ResourceIdentity)

def requiredObservedString (value : Option Value) (path : String) : Decoder (Option String) :=
  match value.bind Value.asNonEmptyStr with
  | some text => return some text
  | none => do
    noteField identity .resourceMalformed path
    return none

def optionalObservedStringArray :=
  scalarField identity fun value => value.asArray.bind fun values => values.mapM Value.asStr

/-- The relabel that the mode spells, if its tokens agree. -/
def modeRelabel (value : Option Value) : Except Unit (Option ContainerMountSelinuxRelabel) :=
  match value with
  | none | some .null => .ok none
  | some (.string mode) => selinuxRelabelFromTokens none (fields ',' mode)
  | some _ => .error ()

def boundRelabel (source : ContainerMountSource) (destination : ObservationField String)
    (relabels : List NativeBindSelinuxRelabel) : Option ContainerMountSelinuxRelabel :=
  destination.toOption.bind fun destination =>
    (relabels.find? fun binding =>
      binding.source == source.value && binding.destination == destination).map (·.relabel)

def decodeMountSelinuxRelabel (mount : Members) (path : String) (source : ContainerMountSource)
    (destination : ObservationField String)
    (bindRelabels : Except Unit (List NativeBindSelinuxRelabel)) :
    Decoder (ObservationField ContainerMountSelinuxRelabel) :=
  match modeRelabel (lookup mount "Mode"), bindRelabels with
  | .error (), _ => nativeMalformedField identity (path ++ ".Mode")
  -- the bindings note their own findings
  | .ok _, .error () => return .malformed
  | .ok mode, .ok relabels =>
    match mode, boundRelabel source destination relabels with
    | some left, some right =>
      if left ≠ right then nativeMalformedField identity (path ++ ".Mode")
      else return .observed ⟨left, .configured⟩
    | some relabel, none | none, some relabel => return .observed ⟨relabel, .configured⟩
    | none, none => return .absent

/-- What is mounted, and where a named volume lies on the host. -/
def mountedSource (kind : ContainerMountKind) (mount : Members) (path : String) :
    Decoder (Option (ContainerMountSource × ObservationField String)) :=
  match kind with
  | .namedVolume => do
    match ← requiredObservedString identity (lookup mount "Name") (path ++ ".Name") with
    | none => return none
    | some name => do
      let backing ← optionalObservedString identity (lookup mount "Source") (path ++ ".Source")
        .localResolution
      return some (.namedVolume name, backing)
  | .bind => do
    let source ← requiredObservedString identity (lookup mount "Source") (path ++ ".Source")
    return source.map fun found => (.localBindPath found, .absent)

/-- The members of a mount whose kind and source are known. -/
def mountMembers (bindRelabels : Except Unit (List NativeBindSelinuxRelabel))
    (kind : ContainerMountKind) (mount : Members) (path : String)
    (destination : ObservationField String) (source : ContainerMountSource)
    (localBackingPath : ObservationField String) : Decoder (Option ContainerMountObservation) := do
  let writable ← optionalObservedBool identity (lookup mount "RW") (path ++ ".RW")
  let options ← optionalObservedStringArray identity (lookup mount "Options") (path ++ ".Options")
    .effective
  let selinuxRelabel ← decodeMountSelinuxRelabel identity mount path source destination
    (if kind = .bind then bindRelabels else .ok [])
  let propagation ← optionalObservedString identity (lookup mount "Propagation")
    (path ++ ".Propagation") .effective
  let subpath ← optionalObservedString identity (lookup mount "SubPath") (path ++ ".SubPath")
    .configured
  let origin := if kind = .namedVolume then .configured else .localResolution
  return if destination.isMalformed || localBackingPath.isMalformed || writable.isMalformed ||
      options.isMalformed || selinuxRelabel.isMalformed || propagation.isMalformed ||
      subpath.isMalformed then none
    else some ⟨kind, .observed ⟨source, origin⟩, localBackingPath, destination, writable, options,
      selinuxRelabel, propagation, subpath⟩

def containerMount (bindRelabels : Except Unit (List NativeBindSelinuxRelabel))
    (entry : Value × ℕ) : Decoder (Option ContainerMountObservation) :=
  match entry.1.asObject.bind fun mount => (lookup mount "Type").bind fun kind =>
      kind.asStr.map fun kind => (mount, kind) with
  | none => do
    noteOccurrence identity .resourceMalformed "$.Mounts" entry.2
    return none
  | some (mount, kind) =>
    let path := elementPath "$.Mounts" entry.2
    match containerMountKind kind with
    | none => do
      noteField identity .nativeFieldUnsupported (path ++ ".Type")
      return none
    | some kind => do
      let destination ← optionalObservedString identity (lookup mount "Destination")
        (path ++ ".Destination") .configured
      match ← mountedSource identity kind mount path with
      | none => return none
      | some (source, localBackingPath) =>
        mountMembers identity bindRelabels kind mount path destination source localBackingPath

def ContainerMountObservation.volume (mount : ContainerMountObservation) : Option String :=
  match mount.source.toOption with
  | some (.namedVolume name) => some name
  | _ => none

/-- The accepted named volumes with the index of their mounts. -/
def acceptedVolumes (mounts : List (Option ContainerMountObservation)) : List (ℕ × String) :=
  mounts.zipIdx.filterMap fun entry =>
    (entry.1.bind ContainerMountObservation.volume).map fun name => (entry.2, name)

structure ContainerMountsDecoded where
  field : ObservationField (List ContainerMountObservation)
  volumes : List (ℕ × String)
  relationships : RelationshipDecoding

def decodeContainerMounts (object : Members) : Decoder ContainerMountsDecoded := do
  let binds := decodeNativeBindSelinuxRelabels object identity
  let relabels ← (⟨binds.1, binds.2.map .finding⟩ : Decoder _)
  match supplied (lookup object "Mounts") with
  | none => return ⟨.absent, [], .default⟩
  | some (.array mounts) => do
    let decoded ← mounts.zipIdx.mapM (containerMount identity relabels)
    let field := elementsField decoded .effective
    return ⟨field, acceptedVolumes decoded, ⟨true, field.isMalformed⟩⟩
  | some _ => do
    let field ← nativeMalformedField identity "$.Mounts"
    return ⟨field, [], ⟨true, true⟩⟩

end Mounts

section Dependencies
variable (identity : ResourceIdentity)

/-- The dependencies before the first one that is no reference. -/
def dependencyReferences : List (Value × ℕ) →
    Decoder (ObservationField (List NativeResourceReference))
  | [] => return .observed ⟨[], .configured⟩
  | (value, index) :: rest => do
    match ← optionalNativeReference identity (some value) (elementPath "$.Dependencies" index) with
    | .ok (some reference) => do
      return match ← dependencyReferences rest with
        | .observed found => .observed ⟨reference :: found.value, .configured⟩
        | field => field
    | _ => nativeMalformedField identity "$.Dependencies"

def decodeNativeDependencies (value : Option Value) :
    Decoder (ObservationField (List NativeResourceReference)) :=
  match supplied value with
  | none => return .absent
  | some (.array values) => dependencyReferences identity values.zipIdx
  | some _ => nativeMalformedField identity "$.Dependencies"

end Dependencies

section SecretGrants
variable (identity : ResourceIdentity)

structure ContainerSecretReference where
  id : Option NativeResourceReference
  name : Option NativeResourceReference
  deriving DecidableEq

structure ContainerSecretGrantObservation where
  reference : ObservationField ContainerSecretReference
  uid : ObservationField UInt32
  gid : ObservationField UInt32
  mode : ObservationField UInt32
  deriving DecidableEq

/-- A grant names its secret by identifier, by name or by both. -/
def secretReference (id name : Except Unit (Option NativeResourceReference)) :
    Option ContainerSecretReference :=
  match id, name with
  | .ok none, .ok none => none
  | .ok id, .ok name => some ⟨id, name⟩
  | _, _ => none

def containerSecretGrant (entry : Value × ℕ) : Decoder (Option ContainerSecretGrantObservation) :=
  match entry.1.asObject with
  | none => do
    noteOccurrence identity .resourceMalformed "$.Config.Secrets" entry.2
    return none
  | some secret => do
    let path := elementPath "$.Config.Secrets" entry.2
    let id ← optionalNativeReference identity (lookup secret "ID") (path ++ ".ID")
    let name ← optionalNativeReference identity (lookup secret "Name") (path ++ ".Name")
    let reference ← match secretReference id name with
      | some reference => pure (.observed ⟨reference, .configured⟩)
      | none => nativeMalformedOccurrence identity "$.Config.Secrets" entry.2
    let uid ← optionalObservedU32 identity (lookup secret "UID") (path ++ ".UID")
    let gid ← optionalObservedU32 identity (lookup secret "GID") (path ++ ".GID")
    let mode ← optionalObservedU32 identity (lookup secret "Mode") (path ++ ".Mode")
    return if reference.isMalformed || uid.isMalformed || gid.isMalformed || mode.isMalformed then
        none
      else some ⟨reference, uid, gid, mode⟩

def ContainerSecretGrantObservation.references (grant : ContainerSecretGrantObservation) :
    Option NativeResourceReference × Option NativeResourceReference :=
  match grant.reference.toOption with
  | some reference => (reference.id, reference.name)
  | none => (none, none)

structure ContainerSecretGrantsDecoded where
  field : ObservationField (List ContainerSecretGrantObservation)
  grants : List (Option NativeResourceReference × Option NativeResourceReference)
  relationships : RelationshipDecoding

/-- A configuration that is no object is malformed without a finding of its own here. -/
def decodeContainerSecretGrants (config : Option Value) : Decoder ContainerSecretGrantsDecoded :=
  match supplied config with
  | none => return ⟨.absent, [], .default⟩
  | some (.object config) =>
    match supplied (lookup config "Secrets") with
    | none => return ⟨.absent, [], .default⟩
    | some (.array secrets) => do
      let decoded ← secrets.zipIdx.mapM (containerSecretGrant identity)
      let field := elementsField decoded .effective
      return ⟨field, decoded.reduceOption.map ContainerSecretGrantObservation.references,
        ⟨true, field.isMalformed⟩⟩
    | some _ => do
      let field ← nativeMalformedField identity "$.Config.Secrets"
      return ⟨field, [], ⟨true, true⟩⟩
  | some _ => return ⟨.malformed, [], ⟨true, true⟩⟩

end SecretGrants

section PodContainers
variable (identity : ResourceIdentity)

structure PodContainersDecoded where
  members : List (ℕ × String)
  relationships : RelationshipDecoding

def podContainer (entry : Value × ℕ) : Decoder (Option (ℕ × String)) :=
  match entry.1.asObject.bind fun container =>
      (lookup container "Id").bind Value.asNonEmptyStr with
  | some id => return some (entry.2, id)
  | none => do
    noteOccurrence identity .resourceMalformed "$.Containers" entry.2
    return none

def decodePodContainers (object : Members) : Decoder PodContainersDecoded :=
  match supplied (lookup object "Containers") with
  | none => return ⟨[], .default⟩
  | some (.array containers) => do
    let decoded ← containers.zipIdx.mapM (podContainer identity)
    return ⟨decoded.reduceOption, ⟨true, decoded.any Option.isNone⟩⟩
  | some _ => do
    noteField identity .resourceMalformed "$.Containers"
    return ⟨[], ⟨true, true⟩⟩

end PodContainers

end PodmanLens
