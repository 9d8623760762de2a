import PodmanLens.RenderNetwork

/-!
# Rendered mounts, secret grants and volumes

Named volumes without a subpath use the short volume syntax, every other mount the long one.
Components that hold a separator of either syntax have no rendering.
-/

namespace PodmanLens
open Text Json

section Mounts

def cliSafeMountComponent (value : String) : Bool :=
  !value.toList.any fun c => c == ':' || c == ','

def accessName (access : MountAccess) : String := if access.isReadOnly then "ro" else "rw"

def NamedVolumeCopyMode.asStr : NamedVolumeCopyMode → String
  | .copy => "copy"
  | .noCopy => "nocopy"

def mountCliValue (kind source destination : String) (access : MountAccess)
    (subpath : Option String) : String :=
  "type=" ++ kind ++ (if source.isEmpty then "" else ",source=" ++ source) ++
    ",target=" ++ destination ++ (if access.isReadOnly then ",readonly" else "") ++
    match subpath with
    | some subpath => ",subpath=" ++ subpath
    | none => ""

/-- The flag and value of one mount, when its components are free of separators. -/
def mountArguments : MountIntent → Option (List String)
  | .namedVolume mount =>
    let source := mount.source.val.name
    let destination := mount.destination.asStr
    match mount.subpath with
    | some subpath =>
      if cliSafeMountComponent source && cliSafeMountComponent destination &&
          cliSafeMountComponent subpath.asStr then
        some ["--mount",
          mountCliValue "volume" source destination mount.access (some subpath.asStr)]
      else none
    | none =>
      if cliSafeMountComponent source && cliSafeMountComponent destination then
        some ["--volume", source ++ ":" ++ destination ++ ":" ++ accessName mount.access ++ "," ++
          mount.copyMode.asStr]
      else none
  | .bind mount =>
    if cliSafeMountComponent mount.source.asStr && cliSafeMountComponent mount.destination.asStr then
      some ["--mount",
        mountCliValue "bind" mount.source.asStr mount.destination.asStr mount.access none]
    else none
  | .tmpfs mount =>
    if cliSafeMountComponent mount.destination.asStr then
      some ["--mount", mountCliValue "tmpfs" "" mount.destination.asStr mount.access none]
    else none

def appendMountArguments (arguments : List String) (mounts : List MountIntent) :
    Option (List String) := do
  let values ← mounts.mapM mountArguments
  return arguments ++ values.flatten

/-- A named volume; the short form spells its options out. -/
def namedVolumeJson (mount : NamedVolumeMount) : Value :=
  match mount.subpath with
  | none => .object <| ofPairs [
      ("Name", .string mount.source.val.name),
      ("Dest", .string mount.destination.asStr),
      ("Options", stringArray [accessName mount.access, mount.copyMode.asStr])]
  | some subpath => .object <| ofPairs [
      ("Name", .string mount.source.val.name),
      ("Dest", .string mount.destination.asStr),
      ("Options", stringArray (if mount.access.isReadOnly then ["ro"] else [])),
      ("SubPath", .string subpath.asStr)]

def mountJson (mounts : List MountIntent) : List Value :=
  mounts.filterMap fun
    | .namedVolume mount => some (namedVolumeJson mount)
    | .bind _ | .tmpfs _ => none

def nativeMountJson (mounts : List MountIntent) : List Value :=
  mounts.filterMap fun
    | .bind mount => some <| .object <| ofPairs [
        ("destination", .string mount.destination.asStr),
        ("type", .string "bind"),
        ("source", .string mount.source.asStr),
        ("options", stringArray [accessName mount.access])]
    | .tmpfs mount => some <| .object <| ofPairs [
        ("destination", .string mount.destination.asStr),
        ("type", .string "tmpfs"),
        ("source", .string "tmpfs"),
        ("options", stringArray [accessName mount.access])]
    | .namedVolume _ => none

def mountHasUnsupportedSubpath : MountIntent → Bool
  | .namedVolume mount => mount.subpath.isSome && mount.copyMode == .noCopy
  | .bind _ | .tmpfs _ => false

end Mounts

section Secrets

def octal (n : ℕ) : String := String.ofList (Nat.toDigits 8 n)

def optionText {α : Type} (key : String) (render : α → String) : Option α → String
  | some value => key ++ render value
  | none => ""

def secretGrantCliValue (grant : SecretGrant) : Option String :=
  if !cliSafeMountComponent grant.source.name then none
  else
    match grant with
    | .mount source target uid gid mode =>
      if target.all fun target => cliSafeMountComponent target.asStr then
        some ("source=" ++ source.val.name ++ ",type=mount" ++
          optionText ",target=" Validated.Checked.asStr target ++
          optionText ",uid=" (fun id : UnixId => id.val.repr) uid ++
          optionText ",gid=" (fun id : UnixId => id.val.repr) gid ++
          optionText ",mode=" (fun mode : SecretMode => octal mode.val) mode)
      else none
    | .environment source target =>
      some ("source=" ++ source.val.name ++ ",type=env,target=" ++ target.asStr)

def appendSecretGrantsArguments (arguments : List String) (grants : List SecretGrant) :
    Option (List String) := do
  let values ← grants.mapM secretGrantCliValue
  return arguments ++ values.flatMap fun value => ["--secret", value]

/-- The command line defaults an omitted mode to 0444, the request model to zero. -/
def secretMountJson : SecretGrant → Option Value
  | .mount source target uid gid mode =>
    let value := insert [] "Source" (.string source.val.name)
    let value := insertSome value "Target" (target.map fun target => .string target.asStr)
    let value := insertSome value "UID" (uid.map fun id => .number id.val)
    let value := insertSome value "GID" (gid.map fun id => .number id.val)
    some (.object (insert value "Mode" (.number ((mode.map Subtype.val).getD 0o444))))
  | .environment .. => none

def secretEnvironmentJson : SecretGrant → Option (String × Value)
  | .environment source target => some (target.asStr, .string source.val.name)
  | .mount .. => none

def appendSecretGrantsJson (body : Members) (grants : List SecretGrant) : Members :=
  let mounts := grants.filterMap secretMountJson
  let environment := ofPairs (grants.filterMap secretEnvironmentJson)
  let body := insertSome body "secrets" (if mounts.isEmpty then none else some (.array mounts))
  insertSome body "secret_env" (if environment.isEmpty then none else some (.object environment))

def secretGrantsRenderable (grants : List SecretGrant) : Bool :=
  (appendSecretGrantsArguments [] grants).isSome

end Secrets

section Volumes

def volumeCreateCliArguments (volume : VolumeIntent) : List String :=
  ["volume", "create"] ++ volume.uid.toList.flatMap (fun uid => ["--uid", uid.val.repr]) ++
    volume.gid.toList.flatMap (fun gid => ["--gid", gid.val.repr]) ++ [volume.identity.val.name]

def volumeCreateJson (volume : VolumeIntent) : Value :=
  let body := insert [] "Name" (.string volume.identity.val.name)
  let body := insertSome body "UID" (volume.uid.map fun uid => .number uid.val)
  .object (insertSome body "GID" (volume.gid.map fun gid => .number gid.val))

end Volumes

end PodmanLens
