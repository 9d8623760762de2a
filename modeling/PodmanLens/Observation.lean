import PodmanLens.Identity
import PodmanLens.TreeEntries

/-!
# Native observations

What discovery reads of an acquired inventory: for each resource its native identity, its labels,
the relationships a container or pod asserts, whether a container is an infra container, and the
aliases of an image. A field that did not decode keeps the reason, so that a decoder failure is
never read as an intentional absence.
-/

namespace PodmanLens
open Std TreeEntries

/-- Ordered by kind, stable identifier, then observed name. -/
structure ResourceIdentity where
  kind : ResourceKind
  id : String
  name : Option String
  deriving DecidableEq

namespace ResourceIdentity

def sortKey (identity : ResourceIdentity) : ResourceKind × String × Option String :=
  (identity.kind, identity.id, identity.name)

theorem sortKey_injective : Function.Injective sortKey := by
  rintro ⟨_, _, _⟩ ⟨_, _, _⟩ h
  cases h
  rfl

instance : Ord ResourceIdentity := ⟨compareOn sortKey⟩

instance : TransOrd ResourceIdentity := inferInstanceAs (TransCmp (compareOn sortKey))

instance : LawfulEqOrd ResourceIdentity where
  eq_of_compare h := sortKey_injective (Std.compare_eq_iff_eq.mp h)

end ResourceIdentity

inductive ObservationOrigin
  | configured
  | effective
  | runtimeAssigned
  | localResolution
  deriving DecidableEq

structure ObservedValue (α : Type) where
  value : α
  origin : ObservationOrigin
  deriving DecidableEq

inductive UnmodelledFieldId
  | containerHostConfig
  | containerSecretGrant
  | containerConfig
  | containerNetworkSettings
  | containerMount
  | containerTopLevel
  | podMember
  | podInfraConfig
  | podTopLevel
  | networkSubnet
  | networkRoute
  | networkTopLevel
  | volumeTopLevel
  | imageConfig
  | imageTopLevel
  | secretSpec
  | secretTopLevel
  deriving DecidableEq

inductive ObservationField (α : Type)
  | absent
  | observed (value : ObservedValue α)
  | unavailable
  | malformed
  | versionInapplicable
  | notApplicable
  | unmodelled (id : UnmodelledFieldId)
  deriving DecidableEq

def ObservationField.toOption {α : Type} : ObservationField α → Option α
  | .observed found => some found.value
  | _ => none

abbrev Labels := ExtTreeMap String String

/-- Every reference must select the same target, every path asserts the relationship. -/
structure NativeRelationship where
  kind : ResourceKind
  references : List String
  fieldPaths : List String
  deriving DecidableEq

structure ContainerObservation where
  labels : ObservationField Labels
  infra : ObservationField Bool
  relationships : ObservationField (List NativeRelationship)

structure PodObservation where
  labels : ObservationField Labels
  relationships : ObservationField (List NativeRelationship)

structure NetworkObservation where
  labels : ObservationField Labels

structure VolumeObservation where
  labels : ObservationField Labels

structure ImageObservation where
  labels : ObservationField Labels
  repoTags : ObservationField (List String)
  repoDigests : ObservationField (List String)

structure SecretObservation where
  labels : ObservationField Labels

inductive ResourceDetails
  | container (value : ContainerObservation)
  | pod (value : PodObservation)
  | network (value : NetworkObservation)
  | volume (value : VolumeObservation)
  | image (value : ImageObservation)
  | secret (value : SecretObservation)

def ResourceDetails.kind : ResourceDetails → ResourceKind
  | .container _ => .container
  | .pod _ => .pod
  | .network _ => .network
  | .volume _ => .volume
  | .image _ => .image
  | .secret _ => .secret

structure ResourceObservation where
  identity : ResourceIdentity
  details : ResourceDetails
  kindAgrees : identity.kind = details.kind

namespace ResourceObservation

def tryNew (identity : ResourceIdentity) (details : ResourceDetails) :
    PodmanLensResult ResourceObservation :=
  if h : identity.kind = details.kind then .ok ⟨identity, details, h⟩ else .error .resourceMalformed

def relationships (record : ResourceObservation) :
    Option (ObservationField (List NativeRelationship)) :=
  match record.details with
  | .container value => some value.relationships
  | .pod value => some value.relationships
  | _ => none

def labels (record : ResourceObservation) : ObservationField Labels :=
  match record.details with
  | .container value => value.labels
  | .pod value => value.labels
  | .network value => value.labels
  | .volume value => value.labels
  | .image value => value.labels
  | .secret value => value.labels

def imageRepoTags (record : ResourceObservation) : Option (ObservationField (List String)) :=
  match record.details with
  | .image value => some value.repoTags
  | _ => none

def imageRepoDigests (record : ResourceObservation) : Option (ObservationField (List String)) :=
  match record.details with
  | .image value => some value.repoDigests
  | _ => none

end ResourceObservation

structure InventorySection where
  kind : ResourceKind
  observations : List ResourceObservation

structure ResourceInventory where
  sections : List InventorySection

abbrev Records := ExtTreeMap ResourceIdentity ResourceObservation

/-- Observations by identity; a later observation of the same identity replaces an earlier one. -/
def ResourceInventory.records (inventory : ResourceInventory) : Records :=
  insertAll (fun observation : ResourceObservation => some (observation.identity, observation))
    (inventory.sections.flatMap InventorySection.observations) ∅

end PodmanLens
