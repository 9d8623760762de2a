import PodmanLens.HiddenRuns

/-!
# Reconciliation without labels

No pass of reconciliation reads a label. What the passes attach to a record is the same when all
labels are left out, so sections with alike records are reconciled to the same findings.
-/

namespace PodmanLens
open Std Json TreeEntries

section Unlabelled
variable {sections : List AcquiredSection} {targets : TargetIndex} {record : AcquiredRecord}

theorem kind_unlabelled (details : ResourceDetails) : details.unlabelled.kind = details.kind := by
  cases details <;> rfl

def ResourceObservation.unlabelled (observation : ResourceObservation) : ResourceObservation :=
  ⟨observation.identity, observation.details.unlabelled,
    observation.kindAgrees.trans (kind_unlabelled _).symm⟩

def AcquiredRecord.unlabelled (record : AcquiredRecord) : AcquiredRecord :=
  { record with observation := record.observation.unlabelled }

def AcquiredSection.unlabelled (found : AcquiredSection) : AcquiredSection :=
  found.mapRecords AcquiredRecord.unlabelled fun _ => rfl

theorem relationships_unlabelled (observation : ResourceObservation) :
    observation.unlabelled.relationships = observation.relationships := by
  obtain ⟨identity, details, hkind⟩ := observation
  cases details <;> rfl

theorem observedRelationships_unlabelled (record : AcquiredRecord) :
    record.unlabelled.observedRelationships = record.observedRelationships :=
  congrArg (Option.bind · ObservationField.toOption) (relationships_unlabelled record.observation)

theorem indexObservation_unlabelled (observation : ResourceObservation) :
    indexObservation targets observation.unlabelled = indexObservation targets observation := by
  obtain ⟨identity, details, hkind⟩ := observation
  cases details <;> rfl

theorem acquiredTargets_unlabelled :
    acquiredTargets (sections.map AcquiredSection.unlabelled) = acquiredTargets sections := by
  have hobservations : (acquiredInventory (sections.map AcquiredSection.unlabelled)).observations =
      (acquiredInventory sections).observations.map ResourceObservation.unlabelled := by
    simp only [observations_acquiredInventory, acquiredRecords, List.flatMap_map, List.map_flatMap,
      AcquiredSection.unlabelled, AcquiredSection.mapRecords, List.map_map]
    rfl
  rw [acquiredTargets, acquiredTargets, reconciliationTargets, reconciliationTargets, hobservations,
    List.foldl_map]
  simp only [indexObservation_unlabelled]

theorem indexMemberships_unlabelled :
    indexMemberships targets (sections.map AcquiredSection.unlabelled) =
      indexMemberships targets sections := by
  rw [indexMemberships, indexMemberships, List.foldl_map]
  simp only [AcquiredSection.unlabelled, AcquiredSection.mapRecords, AcquiredSection.isAvailable,
    List.foldl_map, observedRelationships_unlabelled]
  rfl

theorem imageFindings_unlabelled :
    imageFindings targets record.unlabelled = imageFindings targets record := by
  obtain ⟨⟨identity, details, hkind⟩, configured, localId, findings⟩ := record
  cases details with
  | container value => cases configured <;> cases localId <;> rfl
  | pod value | network value | volume value | image value | secret value => rfl

theorem availableSections_unlabelled :
    availableSections (sections.map AcquiredSection.unlabelled) = availableSections sections := by
  rw [availableSections, availableSections, List.map_map]
  rfl

/-- The passes attach the same findings when all labels are left out. -/
theorem reconciliationFindings_unlabelled :
    reconciliationFindings (sections.map AcquiredSection.unlabelled) record.unlabelled =
      reconciliationFindings sections record := by
  have hrelated : ∀ available targets, relationshipFindings available targets record.unlabelled =
      relationshipFindings available targets record := by
    intro available targets
    rw [relationshipFindings, relationshipFindings, observedRelationships_unlabelled]
    rfl
  rw [reconciliationFindings, reconciliationFindings, availableSections_unlabelled,
    acquiredTargets_unlabelled, indexMemberships_unlabelled, imageFindings_unlabelled, hrelated]
  rfl

theorem acquired_configuredImage (observation : NativeObservation) :
    observation.acquired.configuredImage = observation.details.configuredImage := by
  obtain ⟨header, details, hkind⟩ := observation
  cases details <;> rfl

theorem acquired_localImageId (observation : NativeObservation) :
    observation.acquired.localImageId = observation.details.localImageId := by
  obtain ⟨header, details, hkind⟩ := observation
  cases details <;> rfl

theorem AcquiredRecord.eq_of_fields {left right : AcquiredRecord}
    (hidentity : left.identity = right.identity)
    (hdetails : left.observation.details = right.observation.details)
    (hconfigured : left.configuredImage = right.configuredImage)
    (hlocal : left.localImageId = right.localImageId) (hfindings : left.findings = right.findings) :
    left = right := by
  obtain ⟨⟨identity, details, hkind⟩, configured, localId, findings⟩ := left
  obtain ⟨⟨identity', details', hkind'⟩, configured', localId', findings'⟩ := right
  cases hidentity
  cases hdetails
  cases hconfigured
  cases hlocal
  cases hfindings
  rfl

/-- Alike records differ in labels only, as the passes read them. -/
theorem unlabelled_acquired {left right : NativeObservation} (h : RecordsAlike DetailsAlike left right) :
    left.acquired.unlabelled = right.acquired.unlabelled := by
  refine AcquiredRecord.eq_of_fields ?_ h.details.observed ?_ ?_ ?_
  · exact congrArg ObservationHeader.identity h.header
  · exact (acquired_configuredImage left).trans
      (h.details.configuredImage.trans (acquired_configuredImage right).symm)
  · exact (acquired_localImageId left).trans
      (h.details.localImageId.trans (acquired_localImageId right).symm)
  · exact congrArg ObservationHeader.findings h.header

theorem AcquiredSection.eq_of_fields {left right : AcquiredSection} (hkind : left.kind = right.kind)
    (havailability : left.availability = right.availability) (hrecords : left.records = right.records)
    (hfindings : left.findings = right.findings) : left = right := by
  cases left
  cases right
  cases hkind
  cases havailability
  cases hrecords
  cases hfindings
  rfl

theorem acquired_unlabelled {left right : InspectedSection}
    (h : SectionsAlike DetailsAlike left right) :
    left.acquired.unlabelled = right.acquired.unlabelled := by
  cases h with
  | @mk kind availability records records' findings hempty hempty' h =>
      refine AcquiredSection.eq_of_fields rfl rfl ?_ rfl
      simp only [AcquiredSection.unlabelled, AcquiredSection.mapRecords, InspectedSection.acquired,
        List.map_map]
      induction h with
      | nil => rfl
      | cons hrecord _ ih =>
          exact congrArg₂ List.cons (unlabelled_acquired hrecord.1)
            (ih (fun hne => (List.cons_ne_nil _ _ (hempty hne)).elim)
              fun hne => (List.cons_ne_nil _ _ (hempty' hne)).elim)

end Unlabelled

section Snapshots
variable {sections sections' : List InspectedSection}
  {added added' : AcquiredRecord → List InventoryFinding}

theorem snapshot_withFindings {left right : NativeObservation}
    (h : RecordsAlike DetailsAlike left right) {found found' : List InventoryFinding}
    (hfound : found = found') : Snapshot.observation (left.withFindings found) =
      Snapshot.observation (right.withFindings found') := by
  rw [Snapshot.observation, Snapshot.observation]
  refine congrArg₂ Snapshot.ResourceObservationSnapshot.mk ?_ h.details.snapshot
  simp only [NativeObservation.withFindings, h.header, hfound]

theorem snapshot_extendFindings {left right : InspectedSection}
    (hadded : ∀ record record', RecordsAlike DetailsAlike record record' →
      added record.acquired = added' record'.acquired) (h : SectionsAlike DetailsAlike left right) :
    Snapshot.inventorySection (left.extendFindings added) =
      Snapshot.inventorySection (right.extendFindings added') := by
  cases h with
  | @mk kind availability records records' findings hempty hempty' h =>
      have hobservations : (records.map fun record => Snapshot.observation
            (record.extendFindings added).observation) =
          records'.map fun record => Snapshot.observation
            (record.extendFindings added').observation := by
        clear hempty hempty'
        induction h with
        | nil => rfl
        | @cons record record' _ _ hrecord _ ih =>
            refine congrArg₂ List.cons (snapshot_withFindings hrecord.1 ?_) ih
            rw [hadded _ _ hrecord.1, hrecord.1.header]
      simp only [Snapshot.inventorySection, InspectedSection.extendFindings,
        InspectedSection.observations, List.map_map, Function.comp_def, hobservations]

theorem map_unlabelled (h : List.Forall₂ (SectionsAlike DetailsAlike) sections sections') :
    (sections.map InspectedSection.acquired).map AcquiredSection.unlabelled =
      (sections'.map InspectedSection.acquired).map AcquiredSection.unlabelled := by
  induction h with
  | nil => rfl
  | cons hfound _ ih => rw [List.map_cons, List.map_cons, List.map_cons, List.map_cons, ih,
      acquired_unlabelled hfound]

/-- The passes attach the same findings to alike records. -/
theorem reconciliationFindings_alike
    (h : List.Forall₂ (SectionsAlike DetailsAlike) sections sections')
    {record record' : NativeObservation} (hrecord : RecordsAlike DetailsAlike record record') :
    reconciliationFindings (sections.map InspectedSection.acquired) record.acquired =
      reconciliationFindings (sections'.map InspectedSection.acquired) record'.acquired := by
  rw [← reconciliationFindings_unlabelled, map_unlabelled h, unlabelled_acquired hrecord,
    reconciliationFindings_unlabelled]

theorem snapshot_map_extendFindings
    (hadded : ∀ record record', RecordsAlike DetailsAlike record record' →
      added record.acquired = added' record'.acquired)
    (h : List.Forall₂ (SectionsAlike DetailsAlike) sections sections') :
    (sections.map (.extendFindings added)).map Snapshot.inventorySection =
      (sections'.map (.extendFindings added')).map Snapshot.inventorySection := by
  induction h with
  | nil => rfl
  | cons hfound _ ih => rw [List.map_cons, List.map_cons, List.map_cons, List.map_cons, ih,
      snapshot_extendFindings hadded hfound]

/-- Sections with alike records are reconciled to sections with the same snapshots. -/
theorem snapshot_reconcileSections (h : List.Forall₂ (SectionsAlike DetailsAlike) sections sections') :
    (reconcileSections sections).map Snapshot.inventorySection =
      (reconcileSections sections').map Snapshot.inventorySection := by
  rw [reconcileSections_eq, reconcileSections_eq]
  exact snapshot_map_extendFindings (fun _ _ => reconciliationFindings_alike h) h

end Snapshots

end PodmanLens
