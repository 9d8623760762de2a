import Mathlib.Data.List.Nodup
import PodmanLens.Observation

/-!
# Relationships as the decoders publish them

A container or pod decoder turns every reference it accepts into one relationship with the path it
was read from. The collection is published unless one part of it was malformed, so an observed
relationship always names a target and a source.
-/

namespace PodmanLens
open Std TreeEntries

structure NativeResourceReference where
  reference : String
  fieldPath : String
  deriving DecidableEq

namespace NativeRelationship

def new (kind : ResourceKind) (target fieldPath : String) : NativeRelationship :=
  ⟨kind, [target], [fieldPath]⟩

def ofReference (kind : ResourceKind) (reference : NativeResourceReference) : NativeRelationship :=
  new kind reference.reference reference.fieldPath

/-- One relationship for several spellings: equal values once, every path. -/
def coalesced (kind : ResourceKind) (references : List NativeResourceReference) :
    Option NativeRelationship :=
  let values := references.foldl (fun values item =>
    if item.reference ∈ values then values else values ++ [item.reference]) []
  if values.isEmpty then none
  else some ⟨kind, values, references.map NativeResourceReference.fieldPath⟩

end NativeRelationship

/-- Whether a part was there at all, and whether it was malformed. -/
structure RelationshipDecoding where
  supplied : Bool
  malformed : Bool
  deriving DecidableEq

namespace RelationshipDecoding

def default : RelationshipDecoding := ⟨false, false⟩

def merge (left right : RelationshipDecoding) : RelationshipDecoding :=
  ⟨left.supplied || right.supplied, left.malformed || right.malformed⟩

def fromField {α : Type} (field : ObservationField α) : RelationshipDecoding :=
  match field with
  | .absent | .notApplicable => ⟨false, false⟩
  | .malformed => ⟨true, true⟩
  | .observed _ | .unavailable | .versionInapplicable | .unmodelled _ => ⟨true, false⟩

/-- A reference field that is neither absent nor observed counts as malformed. -/
def ofReferences {α : Type} (field : ObservationField α) : RelationshipDecoding :=
  match field with
  | .absent | .notApplicable => default
  | .observed _ => ⟨true, false⟩
  | .malformed | .unavailable | .versionInapplicable | .unmodelled _ => ⟨true, true⟩

end RelationshipDecoding

def relationshipField (relationships : List NativeRelationship) (decoding : RelationshipDecoding) :
    ObservationField (List NativeRelationship) :=
  if decoding.malformed then .malformed
  else if !decoding.supplied then .absent
  else .observed ⟨relationships, .effective⟩

section Decoders

/-- The references a container decoder accepted, and how each part decoded. -/
structure ContainerReferences where
  configuredImage : ObservationField String
  podMembership : ObservationField NativeResourceReference
  networks : List String
  networkDecoding : RelationshipDecoding
  volumes : List (ℕ × String)
  mountDecoding : RelationshipDecoding
  nativeDependencies : ObservationField (List NativeResourceReference)
  secretGrants : List (Option NativeResourceReference × Option NativeResourceReference)
  secretDecoding : RelationshipDecoding

namespace ContainerReferences
variable (references : ContainerReferences)

/-- The networks of a container in a pod belong to the pod. -/
def ownNetworks : List String × RelationshipDecoding :=
  if references.podMembership.toOption.isNone then
    (references.networks, references.networkDecoding)
  else ([], .default)

def relationships : List NativeRelationship :=
  references.configuredImage.toOption.toList.map (.new .image · "$.ImageName") ++
    references.podMembership.toOption.toList.map (.ofReference .pod) ++
    references.ownNetworks.1.map (fun name =>
      .new .network name ("$.NetworkSettings.Networks." ++ name)) ++
    references.volumes.map (fun volume =>
      .new .volume volume.2 ("$.Mounts[" ++ toString volume.1 ++ "].Name")) ++
    (references.nativeDependencies.toOption.getD []).map (.ofReference .container) ++
    references.secretGrants.filterMap fun grant =>
      NativeRelationship.coalesced .secret (grant.1.toList ++ grant.2.toList)

def decoding : RelationshipDecoding :=
  (RelationshipDecoding.fromField references.configuredImage)
    |>.merge (.ofReferences references.podMembership)
    |>.merge references.ownNetworks.2
    |>.merge references.mountDecoding
    |>.merge (.ofReferences references.nativeDependencies)
    |>.merge references.secretDecoding

def field : ObservationField (List NativeRelationship) :=
  relationshipField references.relationships references.decoding

end ContainerReferences

/-- The references a pod decoder accepted, and how each part decoded. -/
structure PodReferences where
  containers : List (ℕ × String)
  containerDecoding : RelationshipDecoding
  infraNetworks : List NativeResourceReference
  networkingDecoding : RelationshipDecoding

namespace PodReferences
variable (references : PodReferences)

def relationships : List NativeRelationship :=
  references.containers.map (fun member =>
    .new .container member.2 ("$.Containers[" ++ toString member.1 ++ "].Id")) ++
    references.infraNetworks.map (.ofReference .network)

def field : ObservationField (List NativeRelationship) :=
  relationshipField references.relationships
    (references.containerDecoding.merge references.networkingDecoding)

end PodReferences

/-- The relationships are those of a decoder, or the whole record did not decode. -/
def ResourceDetails.Decoded : ResourceDetails → Prop
  | .container value => value.relationships = .unavailable ∨ value.relationships = .malformed ∨
      ∃ references : ContainerReferences, value.relationships = references.field
  | .pod value => value.relationships = .unavailable ∨ value.relationships = .malformed ∨
      ∃ references : PodReferences, value.relationships = references.field
  | _ => True

end Decoders

namespace ResourceInventory
variable (inventory : ResourceInventory)

def observations : List ResourceObservation :=
  inventory.sections.flatMap InventorySection.observations

/-- No identifier is listed twice for one kind. -/
def ListsOnce : Prop :=
  (inventory.observations.map fun found => (found.identity.kind, found.identity.id)).Nodup

instance : Decidable inventory.ListsOnce := inferInstanceAs (Decidable (List.Nodup _))

/-- What acquisition promises: identifiers are listed once, and relationships come from decoders. -/
structure Acquired : Prop where
  listedOnce : inventory.ListsOnce
  decoded : ∀ observation ∈ inventory.observations, observation.details.Decoded

end ResourceInventory

section Sourced

/-- Names a target and a source. -/
structure NativeRelationship.Sourced (relationship : NativeRelationship) : Prop where
  references : relationship.references ≠ []
  fieldPaths : relationship.fieldPaths ≠ []

theorem NativeRelationship.sourced_new (kind : ResourceKind) (target fieldPath : String) :
    (new kind target fieldPath).Sourced := by
  constructor <;> exact List.cons_ne_nil _ _

theorem NativeRelationship.sourced_of_coalesced {kind : ResourceKind}
    {references : List NativeResourceReference} {relationship : NativeRelationship}
    (h : coalesced kind references = some relationship) : relationship.Sourced := by
  rw [coalesced] at h
  split_ifs at h with hempty
  cases h
  refine ⟨by simpa using hempty, fun hpaths => hempty ?_⟩
  rw [List.map_eq_nil_iff.mp hpaths]
  rfl

theorem eq_of_observed_relationshipField {relationships found : List NativeRelationship}
    {decoding : RelationshipDecoding}
    (h : (relationshipField relationships decoding).toOption = some found) :
    found = relationships := by
  rw [relationshipField] at h
  split_ifs at h
  · cases h
  · cases h
  · exact (Option.some.inj h).symm

theorem ContainerReferences.sourced (references : ContainerReferences) :
    ∀ relationship ∈ references.relationships, relationship.Sourced := by
  intro relationship hmem
  simp only [relationships, List.mem_append, List.mem_map, List.mem_filterMap] at hmem
  rcases hmem with ((((⟨_, -, rfl⟩ | ⟨_, -, rfl⟩) | ⟨_, -, rfl⟩) | ⟨_, -, rfl⟩) | ⟨_, -, rfl⟩) |
    ⟨_, -, hgrant⟩
  · exact NativeRelationship.sourced_new _ _ _
  · exact NativeRelationship.sourced_new _ _ _
  · exact NativeRelationship.sourced_new _ _ _
  · exact NativeRelationship.sourced_new _ _ _
  · exact NativeRelationship.sourced_new _ _ _
  · exact NativeRelationship.sourced_of_coalesced hgrant

theorem PodReferences.sourced (references : PodReferences) :
    ∀ relationship ∈ references.relationships, relationship.Sourced ∧
      (relationship.kind = .container ∨ relationship.kind = .network) := by
  intro relationship hmem
  simp only [relationships, List.mem_append, List.mem_map] at hmem
  rcases hmem with ⟨_, -, rfl⟩ | ⟨_, -, rfl⟩
  · exact ⟨NativeRelationship.sourced_new _ _ _, Or.inl rfl⟩
  · exact ⟨NativeRelationship.sourced_new _ _ _, Or.inr rfl⟩

theorem sourced_of_decoded_container {value : ContainerObservation}
    (h : (ResourceDetails.container value).Decoded) {relationships : List NativeRelationship}
    (hobserved : value.relationships.toOption = some relationships) :
    ∀ relationship ∈ relationships, relationship.Sourced := by
  rcases h with h | h | ⟨references, h⟩
  · rw [h] at hobserved
    cases hobserved
  · rw [h] at hobserved
    cases hobserved
  · rw [h] at hobserved
    rw [eq_of_observed_relationshipField hobserved]
    exact references.sourced

theorem sourced_of_decoded_pod {value : PodObservation}
    (h : (ResourceDetails.pod value).Decoded) {relationships : List NativeRelationship}
    (hobserved : value.relationships.toOption = some relationships) :
    ∀ relationship ∈ relationships, relationship.Sourced ∧
      (relationship.kind = .container ∨ relationship.kind = .network) := by
  rcases h with h | h | ⟨references, h⟩
  · rw [h] at hobserved
    cases hobserved
  · rw [h] at hobserved
    cases hobserved
  · rw [h] at hobserved
    rw [eq_of_observed_relationshipField hobserved]
    exact references.sourced

end Sourced

section Records
variable {inventory : ResourceInventory} {id : ResourceIdentity} {record : ResourceObservation}

/-- Records are keyed by their own identities. -/
theorem of_getElem?_records (h : inventory.records[id]? = some record) :
    record ∈ inventory.observations ∧ record.identity = id := by
  obtain ⟨found, hmem, hentry⟩ := exists_of_getElem?_insertAll h
  cases hentry
  exact ⟨hmem, rfl⟩

theorem ResourceInventory.ListsOnce.getElem?_records (h : inventory.ListsOnce)
    (hmem : record ∈ inventory.observations) :
    inventory.records[record.identity]? = some record := by
  refine getElem?_insertAll_of_mem hmem rfl fun other hother found hentry => ?_
  obtain ⟨hidentity, rfl⟩ := Prod.mk.inj (Option.some.inj hentry)
  exact List.inj_on_of_nodup_map h hother hmem (by rw [hidentity])

end Records

end PodmanLens
