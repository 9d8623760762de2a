import PodmanLens.ImageSource
import PodmanLens.Networking
import PodmanLens.Runtime

/-!
# Deployment intent

A deployment intent lists typed resource declarations and start-order edges for one explicit
target profile. Kind boundaries are part of the types: a container names an image identity, a pod
lists container identities, and an external precondition is never a container or a pod.
-/

namespace PodmanLens
open Text Validated

/-- Prerelease versions are refused, so a version is its core and its build metadata. -/
structure Version where
  major : ℕ
  minor : ℕ
  patch : ℕ
  build : String := ""
  deriving DecidableEq

/-- Empty build metadata is least, so only the cores decide against a release bound. -/
def Version.precedes (version : Version) (major minor patch : ℕ) : Bool :=
  version.major < major || (version.major == major &&
    (version.minor < minor || (version.minor == minor && version.patch < patch)))

structure ObservedVersion where
  original : String
  asSemver : Version
  deriving DecidableEq

inductive TargetExecutionContext
  | unknown
  | rootless
  | rootful
  deriving DecidableEq

inductive CgroupVersion
  | v1
  | v2
  deriving DecidableEq

inductive CgroupController
  | cpu
  | memory
  | pids
  deriving DecidableEq

structure CgroupCapabilityEvidence where
  version : CgroupVersion
  supports : CgroupController → Bool

structure TargetProfile where
  podmanVersion : ObservedVersion
  apiVersion : ObservedVersion
  executionContext : TargetExecutionContext := .unknown
  cgroupCapabilities : Option CgroupCapabilityEvidence := none

def maxConnectionNameBytes : ℕ := 64

def validConnectionName (value : String) : Bool :=
  match value.toList with
  | [] => false
  | first :: rest =>
    value.utf8ByteSize ≤ maxConnectionNameBytes && first.isAlphanum &&
      rest.all fun c => c.isAlphanum || c == '.' || c == '_' || c == '-'

abbrev DeploymentConnectionReference := Checked validConnectionName

structure ImageIntent where
  identity : OfKind .image
  source : ImageSource
  pullPolicy : ImagePullPolicy
  deriving DecidableEq

structure NetworkIntent where
  identity : OfKind .network
  subnets : NetworkSubnets := .empty
  routes : NetworkRoutes := .empty
  deriving DecidableEq

namespace NetworkIntent

def addSubnet (network : NetworkIntent) (subnet : NetworkSubnet) :
    PodmanLensResult NetworkIntent := do
  return { network with subnets := ← PodmanLens.addSubnet network.subnets subnet }

def addRoute (network : NetworkIntent) (route : NetworkRoute) : PodmanLensResult NetworkIntent := do
  return { network with routes := ← PodmanLens.addRoute network.routes route }

end NetworkIntent

structure VolumeIntent where
  identity : OfKind .volume
  uid : Option UnixId := none
  gid : Option UnixId := none
  deriving DecidableEq

structure ExternalPrecondition where
  identity : DeploymentResourceId
  boundary : identity.kind ≠ .container ∧ identity.kind ≠ .pod
  deriving DecidableEq

def ExternalPrecondition.new (identity : DeploymentResourceId) :
    PodmanLensResult ExternalPrecondition :=
  if h : identity.kind ≠ .container ∧ identity.kind ≠ .pod then .ok ⟨identity, h⟩
  else .error .invalidExternalPrecondition

structure SecretIntent where
  identity : OfKind .secret
  material : SensitiveInputReference
  deriving DecidableEq

structure PodIntent where
  identity : OfKind .pod
  networks : NetworkAttachments := .empty
  ports : PortMappings := .empty
  dns : DnsConfiguration := {}
  hostAliases : HostAliases := .empty
  infraMounts : List MountIntent := []
  members : List (OfKind .container) := []
  deriving DecidableEq

structure ContainerIntent where
  identity : OfKind .container
  image : OfKind .image
  pod : Option (OfKind .pod) := none
  networks : NetworkAttachments := .empty
  networkOrder : Option { order : List (OfKind .network) // order ≠ [] } := none
  ports : PortMappings := .empty
  dns : DnsConfiguration := {}
  hostAliases : HostAliases := .empty
  mounts : List MountIntent := []
  secretGrants : List SecretGrant := []
  settings : ContainerSettings := {}
  runtime : ContainerRuntimeSettings := {}
  deriving DecidableEq

namespace ContainerIntent

def new (identity image : DeploymentResourceId) : PodmanLensResult ContainerIntent := do
  return { identity := ← requireKind identity .container, image := ← requireKind image .image }

def setPod (container : ContainerIntent) (pod : DeploymentResourceId) :
    PodmanLensResult ContainerIntent := do
  let pod ← requireKind pod .pod
  return { container with
    pod := ← setOnce .deploymentDuplicateResource .deploymentUnsupportedCombination
      container.pod pod }

def networkOrderIds (container : ContainerIntent) : Option (List DeploymentResourceId) :=
  container.networkOrder.map fun order => order.val.map Subtype.val

end ContainerIntent

inductive DeploymentResource
  | externalPrecondition (resource : ExternalPrecondition)
  | image (resource : ImageIntent)
  | network (resource : NetworkIntent)
  | volume (resource : VolumeIntent)
  | secret (resource : SecretIntent)
  | pod (resource : PodIntent)
  | container (resource : ContainerIntent)
  deriving DecidableEq

namespace DeploymentResource

def identity : DeploymentResource → DeploymentResourceId
  | .externalPrecondition resource => resource.identity
  | .image resource => resource.identity
  | .network resource => resource.identity
  | .volume resource => resource.identity
  | .secret resource => resource.identity
  | .pod resource => resource.identity
  | .container resource => resource.identity

def isExternal : DeploymentResource → Bool
  | .externalPrecondition _ => true
  | _ => false

theorem eq_image_of_kind {resource : DeploymentResource} (hmanaged : resource.isExternal = false)
    (h : resource.identity.kind = .image) : ∃ image, resource = .image image := by
  cases resource with
  | externalPrecondition e => cases hmanaged
  | image i => exact ⟨i, rfl⟩
  | network n => exact absurd (n.identity.2.symm.trans h) (by decide)
  | volume v => exact absurd (v.identity.2.symm.trans h) (by decide)
  | secret s => exact absurd (s.identity.2.symm.trans h) (by decide)
  | pod p => exact absurd (p.identity.2.symm.trans h) (by decide)
  | container c => exact absurd (c.identity.2.symm.trans h) (by decide)

theorem eq_pod_of_kind {resource : DeploymentResource} (h : resource.identity.kind = .pod) :
    ∃ pod, resource = .pod pod := by
  cases resource with
  | externalPrecondition e => exact absurd h e.boundary.2
  | image i => exact absurd (i.identity.2.symm.trans h) (by decide)
  | network n => exact absurd (n.identity.2.symm.trans h) (by decide)
  | volume v => exact absurd (v.identity.2.symm.trans h) (by decide)
  | secret s => exact absurd (s.identity.2.symm.trans h) (by decide)
  | pod p => exact ⟨p, rfl⟩
  | container c => exact absurd (c.identity.2.symm.trans h) (by decide)

end DeploymentResource

structure StartupDependency where
  predecessor : OfKind .container
  dependent : OfKind .container
  deriving DecidableEq

def StartupDependency.new (predecessor dependent : DeploymentResourceId) :
    PodmanLensResult StartupDependency := do
  return ⟨← requireKind predecessor .container, ← requireKind dependent .container⟩

structure DeploymentIntent where
  target : TargetProfile
  connection : Option DeploymentConnectionReference := none
  resources : List DeploymentResource := []
  startupDependencies : List StartupDependency := []

theorem controlFree_of_validConnectionName {value : String}
    (h : validConnectionName value = true) : ControlFree value := by
  intro c hc
  unfold validConnectionName at h
  split at h
  · cases h
  · next first rest hchars =>
      simp only [Bool.and_eq_true, List.all_eq_true, Bool.or_eq_true, beq_iff_eq] at h
      rw [hchars] at hc
      rcases List.mem_cons.mp hc with rfl | hc
      · exact isControl_of_isAlphanum h.1.2
      · rcases h.2 c hc with ((h | rfl) | rfl) | rfl
        · exact isControl_of_isAlphanum h
        all_goals decide

end PodmanLens
