import PodmanLens.CreateMounts
import PodmanLens.RelationshipTargets

/-!
# Reconciliation

Once every resource is inspected, four passes over the sections attach findings: references that do
not resolve, pods that list a container reference without a target, memberships that only one side
asserts, and containers whose two image references select different images. No pass changes what was
observed.
-/

namespace PodmanLens
open Std TreeEntries

inductive InventorySectionAvailability
  | available
  | unavailable
  | malformed
  deriving DecidableEq

/-- What one inspection yields. Only a container has image references. -/
structure AcquiredRecord where
  observation : ResourceObservation
  configuredImage : ObservationField String := .notApplicable
  localImageId : ObservationField String := .notApplicable
  findings : List InventoryFinding := []

namespace AcquiredRecord

abbrev identity (record : AcquiredRecord) : ResourceIdentity := record.observation.identity

def observedRelationships (record : AcquiredRecord) : Option (List NativeRelationship) :=
  record.observation.relationships.bind ObservationField.toOption

def extendFindings (added : AcquiredRecord → List InventoryFinding) (record : AcquiredRecord) :
    AcquiredRecord :=
  { record with findings := record.findings ++ added record }

@[simp] theorem extendFindings_observation {added : AcquiredRecord → List InventoryFinding}
    {record : AcquiredRecord} :
    (record.extendFindings added).observation = record.observation := rfl

end AcquiredRecord

/-- Records stand in the section of their kind, and only an available section has any. -/
structure AcquiredSection where
  kind : ResourceKind
  availability : InventorySectionAvailability
  records : List AcquiredRecord
  findings : List InventoryFinding := []
  ofKind : ∀ record ∈ records, record.identity.kind = kind
  unavailable_empty : availability ≠ .available → records = []

namespace AcquiredSection

def isAvailable (found : AcquiredSection) : Bool := found.availability == .available

/-- A list response that did not decode, or none. -/
def unavailable (kind : ResourceKind) (code : DiagnosticCode) : AcquiredSection where
  kind := kind
  availability :=
    if code = .inventoryJson ∨ code = .inventoryShape then .malformed else .unavailable
  records := []
  findings := [⟨code, none, none, none⟩]
  ofKind := by simp
  unavailable_empty _ := rfl

/-- Another record in the place of each, of the same kind. -/
def mapRecords (change : AcquiredRecord → AcquiredRecord)
    (hkind : ∀ record, (change record).identity.kind = record.identity.kind)
    (found : AcquiredSection) : AcquiredSection :=
  { found with
    records := found.records.map change
    ofKind := by
      intro record hmem
      obtain ⟨original, horiginal, rfl⟩ := List.mem_map.mp hmem
      rw [hkind, found.ofKind original horiginal]
    unavailable_empty := fun h => by rw [found.unavailable_empty h, List.map_nil] }

def extendFindings (added : AcquiredRecord → List InventoryFinding) (found : AcquiredSection) :
    AcquiredSection :=
  found.mapRecords (AcquiredRecord.extendFindings added) fun _ => rfl

end AcquiredSection

section Reconciliation

abbrev Availabilities := ExtTreeMap ResourceKind Bool

def availableSections (sections : List AcquiredSection) : Availabilities :=
  insertAll some (sections.map fun found => (found.kind, found.isAvailable)) ∅

/-- The sections as discovery reads them. -/
def acquiredInventory (sections : List AcquiredSection) : ResourceInventory :=
  ⟨sections.map fun found => ⟨found.kind, found.records.map AcquiredRecord.observation⟩⟩

variable (available : Availabilities) (targets : TargetIndex)

def unresolvedFindings (identity : ResourceIdentity) (relationship : NativeRelationship) :
    List InventoryFinding :=
  let reported (code : DiagnosticCode) := relationship.fieldPaths.map fun path =>
    InventoryFinding.field code identity path
  match resolveRelationshipTarget targets relationship with
  | .one _ => []
  | .unresolved => reported .unresolvedRelationship
  | .ambiguous => reported .relationshipAmbiguous
  | .conflict => reported .relationshipConflict

def RelationshipTarget.isOne : RelationshipTarget → Bool
  | .one _ => true
  | _ => false

def podMembershipUnresolved (identity : ResourceIdentity)
    (relationships : List NativeRelationship) : Bool :=
  identity.kind == .pod && relationships.any fun relationship =>
    relationship.kind == .container && !(resolveRelationshipTarget targets relationship).isOne

/-- The first pass: references into available sections, then the containers a pod lists. -/
def relationshipFindings (record : AcquiredRecord) : List InventoryFinding :=
  match record.observedRelationships with
  | none => []
  | some relationships =>
    ((relationships.filter fun relationship => available[relationship.kind]?.getD false).flatMap
      (unresolvedFindings targets record.identity)) ++
    if podMembershipUnresolved targets record.identity relationships then
      [.field .podMembershipConflict record.identity "$.Containers"]
    else []

structure Memberships where
  podMembers : ExtTreeMap String (List String) := ∅
  containerPods : ExtTreeMap String (List String) := ∅

def pushMember (target : String) (members : ExtTreeMap String (List String)) (owner : String) :
    ExtTreeMap String (List String) :=
  members.alter owner fun found => some (found.getD [] ++ [target])

def indexMembership (identity : ResourceIdentity) (memberships : Memberships)
    (relationship : NativeRelationship) : Memberships :=
  match identity.kind, relationship.kind, resolveRelationshipTarget targets relationship with
  | .pod, .container, .one target =>
    { memberships with podMembers := pushMember target memberships.podMembers identity.id }
  | .container, .pod, .one target =>
    { memberships with containerPods := pushMember target memberships.containerPods identity.id }
  | _, _, _ => memberships

/-- The second pass, over the sections that are available. -/
def indexMemberships (sections : List AcquiredSection) : Memberships :=
  sections.foldl (fun memberships found =>
    if found.isAvailable then
      found.records.foldl (fun memberships record =>
        (record.observedRelationships.getD []).foldl (indexMembership targets record.identity)
          memberships) memberships
    else memberships) {}

/-- Some counterpart is not indexed back. -/
def unreturned (asserted returned : ExtTreeMap String (List String)) (id : String) : Bool :=
  asserted[id]?.any fun counterparts => counterparts.any fun counterpart =>
    !(returned[counterpart]?.any fun back => back.contains id)

def Memberships.conflict (memberships : Memberships) (identity : ResourceIdentity) : Bool :=
  match identity.kind with
  | .pod => unreturned memberships.podMembers memberships.containerPods identity.id
  | .container => unreturned memberships.containerPods memberships.podMembers identity.id
  | _ => false

/-- The third pass. -/
def membershipFindings (memberships : Memberships) (record : AcquiredRecord) :
    List InventoryFinding :=
  if memberships.conflict record.identity then
    [.field .podMembershipConflict record.identity "$.PodMembership"]
  else []

/-- The fourth pass: the configured image and the local one select different resources. -/
def imageFindings (record : AcquiredRecord) : List InventoryFinding :=
  match record.observation.details, record.configuredImage, record.localImageId with
  | .container _, .observed configured, .observed localId =>
    match resolveRelationshipTarget targets (.new .image configured.value "$.ImageName"),
      resolveRelationshipTarget targets (.new .image localId.value "$.Image") with
    | .one first, .one second =>
      if first ≠ second then [.field .relationshipConflict record.identity "$.ImageName"] else []
    | _, _ => []
  | _, _, _ => []

def reconcileRelationships (sections : List AcquiredSection) : List AcquiredSection :=
  let available := availableSections sections
  let targets := reconciliationTargets (acquiredInventory sections)
  let related := sections.map (.extendFindings (relationshipFindings available targets))
  let memberships := indexMemberships targets related
  let joined := related.map (.extendFindings (membershipFindings memberships))
  joined.map (.extendFindings (imageFindings targets))

end Reconciliation

section Passes
variable {sections : List AcquiredSection} {targets : TargetIndex} {record : AcquiredRecord}

def acquiredRecords (sections : List AcquiredSection) : List AcquiredRecord :=
  sections.flatMap AcquiredSection.records

def acquiredTargets (sections : List AcquiredSection) : TargetIndex :=
  reconciliationTargets (acquiredInventory sections)

theorem observations_acquiredInventory : (acquiredInventory sections).observations =
    (acquiredRecords sections).map AcquiredRecord.observation := by
  simp [ResourceInventory.observations, acquiredInventory, acquiredRecords, List.flatMap_map,
    List.map_flatMap]

/-- What the passes together attach to a record. -/
def reconciliationFindings (sections : List AcquiredSection) (record : AcquiredRecord) :
    List InventoryFinding :=
  relationshipFindings (availableSections sections) (acquiredTargets sections) record ++
    (membershipFindings (indexMemberships (acquiredTargets sections) sections) record ++
      imageFindings (acquiredTargets sections) record)

theorem extendFindings_extendFindings {first second : AcquiredRecord → List InventoryFinding}
    (h : ∀ record, second (record.extendFindings first) = second record)
    (found : AcquiredSection) : (found.extendFindings first).extendFindings second =
      found.extendFindings fun record => first record ++ second record := by
  have hrecords : (found.records.map (AcquiredRecord.extendFindings first)).map
      (AcquiredRecord.extendFindings second) =
        found.records.map (AcquiredRecord.extendFindings fun record =>
          first record ++ second record) := by
    rw [List.map_map]
    refine List.map_congr_left fun record _ => ?_
    rw [Function.comp_apply, AcquiredRecord.extendFindings, h]
    simp only [AcquiredRecord.extendFindings, List.append_assoc]
  simp only [AcquiredSection.extendFindings, AcquiredSection.mapRecords, hrecords]

/-- Findings are not read, so the indexes are those of the sections as they were given. -/
theorem indexMemberships_map {added : AcquiredRecord → List InventoryFinding} :
    indexMemberships targets (sections.map (.extendFindings added)) =
      indexMemberships targets sections := by
  rw [indexMemberships, List.foldl_map]
  simp only [AcquiredSection.extendFindings, AcquiredSection.mapRecords,
    AcquiredSection.isAvailable, List.foldl_map]
  rfl

theorem reconcileRelationships_eq (sections : List AcquiredSection) :
    reconcileRelationships sections =
      sections.map (.extendFindings (reconciliationFindings sections)) := by
  simp only [reconcileRelationships, indexMemberships_map, List.map_map]
  refine List.map_congr_left fun found _ => ?_
  rw [Function.comp_apply, Function.comp_apply,
    extendFindings_extendFindings (fun _ => rfl), extendFindings_extendFindings (fun _ => rfl)]
  rfl

theorem acquiredRecords_reconcile : acquiredRecords (reconcileRelationships sections) =
    (acquiredRecords sections).map (.extendFindings (reconciliationFindings sections)) := by
  rw [reconcileRelationships_eq, acquiredRecords, acquiredRecords, List.flatMap_map,
    List.map_flatMap]
  rfl

end Passes

section Memberships
variable {sections : List AcquiredSection} {targets : TargetIndex} {record other : AcquiredRecord}
  {relationship : NativeRelationship} {kind : ResourceKind} {id : String}

/-- The record was observed to refer to a resource of this kind. -/
def AcquiredRecord.References (record : AcquiredRecord) (kind : ResourceKind)
    (relationship : NativeRelationship) : Prop :=
  ∃ relationships, record.observedRelationships = some relationships ∧
    relationship ∈ relationships ∧ relationship.kind = kind

def ResolvesTo (sections : List AcquiredSection) (relationship : NativeRelationship)
    (id : String) : Prop :=
  resolveRelationshipTarget (acquiredTargets sections) relationship = .one id

/-- A reference of the record resolves to the other one. -/
def RefersTo (sections : List AcquiredSection) (record other : AcquiredRecord) : Prop :=
  ∃ relationship, record.References other.identity.kind relationship ∧
    ResolvesTo sections relationship other.identity.id

theorem isOne_iff {target : RelationshipTarget} : target.isOne = true ↔ ∃ id, target = .one id := by
  cases target <;> simp [RelationshipTarget.isOne]

/-- A relationship resolves to what was collected before or to the only candidate of a reference. -/
theorem resolveTargets_one {references : List String} {resolved : ExtTreeSet String}
    (h : resolveTargets targets kind references resolved = .one id) :
    id ∈ resolved ∨ ∃ reference : String, targets[(kind, reference)]? = some [id] := by
  induction references generalizing resolved with
  | nil =>
      rw [resolveTargets] at h
      cases hlist : resolved.toList with
      | nil =>
          rw [hlist] at h
          cases h
      | cons single others =>
          rw [hlist] at h
          cases others with
          | nil =>
              cases h
              refine Or.inl (ExtTreeSet.mem_toList.mp ?_)
              rw [hlist]
              exact List.mem_singleton_self _
          | cons _ _ => cases h
  | cons reference rest ih =>
      rw [resolveTargets] at h
      split at h
      · cases h
      · next candidates hlookup =>
          split at h
          · next candidate =>
              rcases ih h with hmem | hrest
              · rw [ExtTreeSet.mem_insert, Std.compare_eq_iff_eq] at hmem
                rcases hmem with rfl | hmem
                · exact Or.inr ⟨reference, hlookup⟩
                · exact Or.inl hmem
              · exact Or.inr hrest
          · cases h

/-- Relationships resolve to acquired resources of their kind. -/
theorem exists_of_resolvesTo (h : ResolvesTo sections relationship id) :
    ∃ other ∈ acquiredRecords sections,
      other.identity.kind = relationship.kind ∧ other.identity.id = id := by
  rcases resolveTargets_one h with hempty | ⟨reference, hlookup⟩
  · simp at hempty
  · rw [acquiredTargets, getElem?_reconciliationTargets, Option.map_eq_some_iff] at hlookup
    obtain ⟨candidates, hcandidates, hdistinct⟩ := hlookup
    obtain ⟨hne, hall⟩ := distinctCandidates_eq_singleton.mp hdistinct
    obtain ⟨candidate, hmem⟩ := List.exists_mem_of_ne_nil _ hne
    have hindexed : candidate ∈ ((acquiredInventory sections).observations.foldl indexObservation
        ∅)[(relationship.kind, reference)]?.getD [] := by
      rw [hcandidates]
      exact hmem
    obtain ⟨observation, hobservation, hkind, -, hid⟩ := mem_indexed.mp hindexed
    rw [observations_acquiredInventory, List.mem_map] at hobservation
    obtain ⟨other, hother, rfl⟩ := hobservation
    exact ⟨other, hother, hkind, hid.trans (hall candidate hmem)⟩

/-- Identifiers are listed once for their kind. -/
abbrev ListedOnce (sections : List AcquiredSection) : Prop :=
  (acquiredInventory sections).ListsOnce

theorem eq_of_listedOnce (h : ListedOnce sections) (hrecord : record ∈ acquiredRecords sections)
    (hother : other ∈ acquiredRecords sections)
    (hkind : record.identity.kind = other.identity.kind)
    (hid : record.identity.id = other.identity.id) : record = other := by
  rw [ListedOnce, ResourceInventory.ListsOnce, observations_acquiredInventory, List.map_map] at h
  refine List.inj_on_of_nodup_map h hrecord hother ?_
  rw [Function.comp_apply, Function.comp_apply]
  exact Prod.ext hkind hid

/-- The kind on the other side of a membership. -/
def memberKind : ResourceKind → Option ResourceKind
  | .pod => some .container
  | .container => some .pod
  | _ => none

/-- The memberships that resources of this kind assert. -/
def Memberships.asserted (memberships : Memberships) :
    ResourceKind → ExtTreeMap String (List String)
  | .pod => memberships.podMembers
  | .container => memberships.containerPods
  | _ => ∅

variable {memberships : Memberships} {identity : ResourceIdentity} {key candidate : String}

theorem mem_pushMember {members : ExtTreeMap String (List String)} {owner target : String} :
    candidate ∈ (pushMember target members owner)[key]?.getD [] ↔
      candidate ∈ members[key]?.getD [] ∨ (owner = key ∧ target = candidate) := by
  rw [pushMember, ExtTreeMap.getElem?_alter]
  by_cases hkey : owner = key
  · subst hkey
    simp [eq_comm]
  · have hne : compare owner key ≠ .eq := fun h => hkey (Std.compare_eq_iff_eq.mp h)
    simp [hne, hkey]

/-- One relationship adds its target, if it is a membership and has one. -/
theorem mem_indexMembership (memberships : Memberships) (relationship : NativeRelationship) :
    candidate ∈ ((indexMembership targets identity memberships relationship).asserted kind)[
        key]?.getD [] ↔
      candidate ∈ (memberships.asserted kind)[key]?.getD [] ∨
        (identity.kind = kind ∧ memberKind kind = some relationship.kind ∧
          resolveRelationshipTarget targets relationship = .one candidate ∧ identity.id = key) := by
  rw [indexMembership]
  split
  · next target hkind hrelationship htarget =>
      rw [hkind, hrelationship, htarget]
      cases kind <;> simp [Memberships.asserted, memberKind, mem_pushMember, and_comm]
  · next target hkind hrelationship htarget =>
      rw [hkind, hrelationship, htarget]
      cases kind <;> simp [Memberships.asserted, memberKind, mem_pushMember, and_comm]
  · next hpod hcontainer =>
      refine (or_iff_left ?_).symm
      rintro ⟨hkind, hmember, htarget, -⟩
      cases hkinds : identity.kind <;> rw [← hkind, hkinds] at hmember <;>
        simp only [memberKind, Option.some.injEq, reduceCtorEq] at hmember
      · exact hcontainer candidate hkinds hmember.symm htarget
      · exact hpod candidate hkinds hmember.symm htarget

def indexRecord (targets : TargetIndex) (memberships : Memberships) (record : AcquiredRecord) :
    Memberships :=
  (record.observedRelationships.getD []).foldl (indexMembership targets record.identity) memberships

/-- Sections that are not available have no records to leave out. -/
theorem indexMemberships_eq (targets : TargetIndex) (sections : List AcquiredSection) :
    indexMemberships targets sections =
      (acquiredRecords sections).foldl (indexRecord targets) {} := by
  rw [indexMemberships, acquiredRecords, List.foldl_flatMap]
  refine congrArg (fun step => sections.foldl step ({} : Memberships))
    (funext₂ fun memberships found => ?_)
  split_ifs with havailable
  · rfl
  · rw [found.unavailable_empty (by simpa [AcquiredSection.isAvailable] using havailable)]
    rfl

theorem mem_indexRecord (memberships : Memberships) (record : AcquiredRecord) :
    candidate ∈ ((indexRecord targets memberships record).asserted kind)[key]?.getD [] ↔
      candidate ∈ (memberships.asserted kind)[key]?.getD [] ∨
        (record.identity.kind = kind ∧ record.identity.id = key ∧
          ∃ other, memberKind kind = some other ∧
            ∃ relationship, record.References other relationship ∧
              resolveRelationshipTarget targets relationship = .one candidate) := by
  refine (foldl_or_iff (fun memberships : Memberships =>
    candidate ∈ (memberships.asserted kind)[key]?.getD [])
      mem_indexMembership _ _).trans (or_congr_right ?_)
  constructor
  · rintro ⟨relationship, hmem, hkind, hmember, htarget, hid⟩
    cases hobserved : record.observedRelationships with
    | none =>
        rw [hobserved] at hmem
        cases hmem
    | some relationships =>
        rw [hobserved] at hmem
        exact ⟨hkind, hid, _, hmember, relationship, ⟨relationships, hobserved, hmem, rfl⟩, htarget⟩
  · rintro ⟨hkind, hid, other, hmember, relationship, ⟨relationships, hobserved, hmem, rfl⟩,
      htarget⟩
    exact ⟨relationship, by rwa [hobserved], hkind, hmember, htarget, hid⟩

/-- The indexes hold the memberships that observed relationships assert. -/
theorem mem_indexMemberships :
    candidate ∈ ((indexMemberships (acquiredTargets sections) sections).asserted kind)[
        key]?.getD [] ↔
      ∃ record ∈ acquiredRecords sections, record.identity.kind = kind ∧
        record.identity.id = key ∧ ∃ other, memberKind kind = some other ∧
          ∃ relationship, record.References other relationship ∧
            ResolvesTo sections relationship candidate := by
  rw [indexMemberships_eq]
  refine (foldl_or_iff (fun memberships : Memberships =>
    candidate ∈ (memberships.asserted kind)[key]?.getD [])
      mem_indexRecord _ _).trans (or_iff_right ?_)
  cases kind <;> simp [Memberships.asserted]

theorem unreturned_iff {asserted returned : ExtTreeMap String (List String)} :
    unreturned asserted returned key = true ↔
      ∃ counterpart ∈ asserted[key]?.getD [], key ∉ returned[counterpart]?.getD [] := by
  have hreturned (counterpart : String) :
      (returned[counterpart]?.any fun back => back.contains key) = true ↔
        key ∈ returned[counterpart]?.getD [] := by
    cases returned[counterpart]? <;> simp
  cases hasserted : asserted[key]? with
  | none => simp [unreturned, hasserted]
  | some counterparts =>
      simp only [unreturned, hasserted, Option.any_some, List.any_eq_true, Option.getD_some,
        Bool.not_eq_true', ← Bool.not_eq_true, hreturned]

theorem conflict_iff : memberships.conflict identity = true ↔
    ∃ other, memberKind identity.kind = some other ∧
      ∃ counterpart ∈ (memberships.asserted identity.kind)[identity.id]?.getD [],
        identity.id ∉ (memberships.asserted other)[counterpart]?.getD [] := by
  cases hkind : identity.kind <;>
    simp [Memberships.conflict, hkind, memberKind, Memberships.asserted, unreturned_iff]

end Memberships

end PodmanLens
