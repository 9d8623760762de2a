import PodmanLens.Identity

/-!
# Container settings, mounts and secret grants

Typed declarations that end up in argument arrays and request bodies: commands, users, paths,
labels, environment assignments, mounts, and secret grants. An environment value is public, inline
but protected, or an external reference; only a mount grant can carry file options.
-/

namespace PodmanLens
open Text Validated

def maxArguments : ℕ := 128
def maxArgumentBytes : ℕ := 4096
def maxValueBytes : ℕ := 4096
def maxLabels : ℕ := 128
def maxEnvironment : ℕ := 128
def maxPathBytes : ℕ := 4096

def validNonControl (maximumBytes : ℕ) (value : String) : Bool :=
  value.utf8ByteSize ≤ maximumBytes && !value.toList.any isControl

def validValue (value : String) : Bool := validNonControl maxValueBytes value

theorem controlFree_of_validNonControl {maximumBytes : ℕ} {value : String}
    (h : validNonControl maximumBytes value = true) : ControlFree value := by
  rw [controlFree_iff]
  simp only [validNonControl, Bool.and_eq_true, Bool.not_eq_true'] at h
  exact h.2

def validArguments (arguments : List String) : Bool :=
  !(arguments.isEmpty || decide (maxArguments < arguments.length)) &&
    arguments.all (validNonControl maxArgumentBytes)

/-- A command with at least a program, kept as an array and never as a shell text. -/
structure ArgumentArray where
  values : List String
  accepted : validArguments values = true
  deriving DecidableEq

def ArgumentArray.new (arguments : List String) : PodmanLensResult ArgumentArray :=
  if h : validArguments arguments = true then .ok ⟨arguments, h⟩ else .error .invalidDeploymentIntent

def validUserComponent (value : List Char) : Bool :=
  !value.isEmpty && value.all fun c => c.isAlphanum || c == '.' || c == '_' || c == '-'

def isContainerUser (value : String) : Bool :=
  value.utf8ByteSize ≤ maxValueBytes &&
    match value.toList.splitOn ':' with
    | [user] => validUserComponent user
    | [user, group] => validUserComponent user && validUserComponent group
    | _ => false

abbrev ContainerUser := Checked isContainerUser

def isNormalComponent (component : List Char) : Bool :=
  !component.isEmpty && component != ['.'] && component != ['.', '.']

/-- Normalized paths have no empty, `.` or `..` component. -/
def isAbsoluteNormalizedPath (value : String) : Bool :=
  value.utf8ByteSize ≤ maxPathBytes && value.toList.head? == some '/' &&
    !value.toList.contains '\\' && !value.toList.any isControl &&
    (value == "/" || ((value.toList.splitOn '/').drop 1).all isNormalComponent)

abbrev AbsoluteContainerPath := Checked isAbsoluteNormalizedPath

abbrev ContainerWorkdir := AbsoluteContainerPath

def isContainerHostnameLabel (label : List Char) : Bool :=
  !(label.isEmpty || decide (63 < byteLength label) || label.head? == some '-' ||
    label.getLast? == some '-' || !label.all fun c => c.isAlphanum || c == '-')

def isContainerHostname (value : String) : Bool :=
  !(value.isEmpty || decide (253 < value.utf8ByteSize)) &&
    (value.toList.splitOn '.').all isContainerHostnameLabel

abbrev ContainerHostname := Checked isContainerHostname

def isLabelKey (value : String) : Bool :=
  !value.isEmpty && validNonControl maxValueBytes value && !value.toList.contains '='

abbrev LabelKey := Checked isLabelKey
abbrev PublicLabelValue := Checked validValue

structure Label where
  key : LabelKey
  value : PublicLabelValue
  deriving DecidableEq

def sameLabelKey (a b : Label) : Bool := a.key == b.key

def isEnvironmentName (value : String) : Bool :=
  match value.toList with
  | [] => false
  | first :: rest =>
    value.utf8ByteSize ≤ 256 && (first.isAlpha || first == '_') &&
      rest.all fun c => c.isAlphanum || c == '_'

abbrev EnvironmentName := Checked isEnvironmentName
abbrev PublicEnvironmentValue := Checked validValue

structure SensitiveInlineEnvironmentValue where
  protectedValue : Checked validValue
  deriving DecidableEq

/-- Only a public value may be shown. -/
inductive DeploymentEnvironmentValue
  | «public» (value : PublicEnvironmentValue)
  | sensitiveInline (value : SensitiveInlineEnvironmentValue)
  | external (reference : SensitiveInputReference)
  deriving DecidableEq

def DeploymentEnvironmentValue.isSensitiveInline : DeploymentEnvironmentValue → Bool
  | .sensitiveInline _ => true
  | _ => false

def DeploymentEnvironmentValue.isExternal : DeploymentEnvironmentValue → Bool
  | .external _ => true
  | _ => false

/-- The name is public whatever the value is. -/
structure EnvironmentAssignment where
  name : EnvironmentName
  value : DeploymentEnvironmentValue
  deriving DecidableEq

def sameEnvironmentName (a b : EnvironmentAssignment) : Bool := a.name == b.name

inductive RestartPolicy
  | no
  | onFailure
  | always
  | unlessStopped
  deriving DecidableEq

inductive NamedVolumeCopyMode
  | copy
  | noCopy
  deriving DecidableEq

inductive MountAccess
  | readWrite
  | readOnly
  deriving DecidableEq

def MountAccess.isReadOnly : MountAccess → Bool
  | .readOnly => true
  | .readWrite => false

def isVolumeSubpath (value : String) : Bool :=
  !(decide (maxPathBytes < value.utf8ByteSize) || value.toList.head? != some '/' ||
    value.toList.contains '\\' || value.toList.any isControl) &&
    ((value.toList.splitOn '/').drop 1).all isNormalComponent

abbrev VolumeSubpath := Checked isVolumeSubpath

/-- A part of a volume is mounted only where the content of the image is copied. -/
structure NamedVolumeMount where
  source : OfKind .volume
  destination : AbsoluteContainerPath
  access : MountAccess
  copyMode : NamedVolumeCopyMode
  subpath : Option VolumeSubpath := none
  subpath_copy : subpath.isSome → copyMode = .copy := by simp
  deriving DecidableEq

namespace NamedVolumeMount

def new (source : DeploymentResourceId) (destination : AbsoluteContainerPath)
    (access : MountAccess) (copyMode : NamedVolumeCopyMode) :
    PodmanLensResult NamedVolumeMount := do
  return { source := ← requireKind source .volume, destination, access, copyMode }

def setSubpath (mount : NamedVolumeMount) (subpath : VolumeSubpath) :
    PodmanLensResult NamedVolumeMount :=
  if h : mount.subpath.isNone ∧ mount.copyMode = .copy then
    .ok { mount with subpath := some subpath, subpath_copy := fun _ => h.2 }
  else .error .deploymentUnsupportedCombination

def isReadOnly (mount : NamedVolumeMount) : Bool := mount.access.isReadOnly

end NamedVolumeMount

structure BindMount where
  source : AbsoluteContainerPath
  destination : AbsoluteContainerPath
  access : MountAccess
  deriving DecidableEq

structure TmpfsMount where
  destination : AbsoluteContainerPath
  access : MountAccess
  deriving DecidableEq

inductive MountIntent
  | namedVolume (mount : NamedVolumeMount)
  | bind (mount : BindMount)
  | tmpfs (mount : TmpfsMount)
  deriving DecidableEq

namespace MountIntent

def destination : MountIntent → AbsoluteContainerPath
  | .namedVolume mount => mount.destination
  | .bind mount => mount.destination
  | .tmpfs mount => mount.destination

def volumeSource : MountIntent → Option DeploymentResourceId
  | .namedVolume mount => some mount.source
  | .bind _ | .tmpfs _ => none

end MountIntent

def maxSigned32 : ℕ := 2147483647

abbrev UnixId := { value : ℕ // value ≤ maxSigned32 }

def UnixId.new (value : ℕ) : PodmanLensResult UnixId :=
  if h : value ≤ maxSigned32 then .ok ⟨value, h⟩ else .error .invalidDeploymentIntent

abbrev SecretMode := { value : ℕ // value ≤ 0o777 }

def SecretMode.new (value : ℕ) : PodmanLensResult SecretMode :=
  if h : value ≤ 0o777 then .ok ⟨value, h⟩ else .error .invalidDeploymentIntent

/-- A secret is granted as a file or as a variable. -/
inductive SecretGrant
  | mount (source : OfKind .secret) (target : Option AbsoluteContainerPath)
      (uid gid : Option UnixId) (mode : Option SecretMode)
  | environment (source : OfKind .secret) (target : EnvironmentName)
  deriving DecidableEq

namespace SecretGrant

def source : SecretGrant → DeploymentResourceId
  | .mount source .. => source
  | .environment source _ => source

theorem kind_source (grant : SecretGrant) : grant.source.kind = .secret := by
  cases grant with
  | mount source => exact source.2
  | environment source => exact source.2

def mountTarget : SecretGrant → Option AbsoluteContainerPath
  | .mount _ target .. => target
  | .environment .. => none

def environmentTarget : SecretGrant → Option EnvironmentName
  | .environment _ target => some target
  | .mount .. => none

end SecretGrant

structure ContainerSettings where
  command : Option ArgumentArray := none
  entrypoint : Option ArgumentArray := none
  user : Option ContainerUser := none
  workdir : Option ContainerWorkdir := none
  hostname : Option ContainerHostname := none
  labels : DistinctList sameLabelKey maxLabels := .empty
  environment : DistinctList sameEnvironmentName maxEnvironment := .empty
  restartPolicy : Option RestartPolicy := none
  deriving DecidableEq

namespace ContainerSettings

def addLabel (settings : ContainerSettings) (label : Label) :
    PodmanLensResult ContainerSettings := do
  return { settings with
    labels := ← settings.labels.add .invalidDeploymentIntent .deploymentDuplicateResource label }

def addEnvironment (settings : ContainerSettings) (assignment : EnvironmentAssignment) :
    PodmanLensResult ContainerSettings := do
  return { settings with
    environment := ← settings.environment.add .invalidDeploymentIntent
      .deploymentDuplicateResource assignment }

end ContainerSettings

section ControlFree

theorem controlFree_of_isAbsoluteNormalizedPath {value : String}
    (h : isAbsoluteNormalizedPath value = true) : ControlFree value := by
  rw [controlFree_iff]
  simp only [isAbsoluteNormalizedPath, Bool.and_eq_true, Bool.not_eq_true'] at h
  exact h.1.2

theorem controlFree_of_isVolumeSubpath {value : String} (h : isVolumeSubpath value = true) :
    ControlFree value := by
  rw [controlFree_iff]
  simp only [isVolumeSubpath, Bool.and_eq_true, Bool.not_eq_true', Bool.or_eq_false_iff] at h
  exact h.1.2

theorem controlFree_of_isLabelKey {value : String} (h : isLabelKey value = true) :
    ControlFree value := by
  simp only [isLabelKey, Bool.and_eq_true] at h
  exact controlFree_of_validNonControl h.1.2

end ControlFree

end PodmanLens
