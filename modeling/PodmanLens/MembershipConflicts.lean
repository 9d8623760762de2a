import PodmanLens.Reconciliation

/-!
# Membership conflicts

A pod or container that asserts a membership disagrees with the other side when the other side was
observed and asserts no such membership, and a pod also when a container it lists is not among those
acquired. Reconciliation adds a conflict wherever a membership is not confirmed, so that a list or
an inspection that failed is reported as a conflict too.
-/

namespace PodmanLens
open Std TreeEntries

section Evidence
variable {sections : List AcquiredSection} {record other : AcquiredRecord}
  {relationship : NativeRelationship} {kind : ResourceKind} {id : String}

theorem refersTo_of_resolvesTo (hreferences : record.References kind relationship)
    (hresolves : ResolvesTo sections relationship id) : ∃ other ∈ acquiredRecords sections,
      other.identity.kind = kind ∧ other.identity.id = id ∧ RefersTo sections record other := by
  obtain ⟨other, hother, hkind, rfl⟩ := exists_of_resolvesTo hresolves
  obtain ⟨relationships, hobserved, hmem, rfl⟩ := hreferences
  refine ⟨other, hother, hkind, rfl, relationship, ⟨relationships, hobserved, hmem, hkind.symm⟩,
    hresolves⟩

theorem memberKind_symm {left right : ResourceKind} (h : memberKind left = some right) :
    memberKind right = some left := by
  cases left <;> cases h <;> rfl

/-- The third pass flags a record where a resource it refers to does not refer back. -/
theorem membership_conflict_iff (h : ListedOnce sections)
    (hrecord : record ∈ acquiredRecords sections) :
    (indexMemberships (acquiredTargets sections) sections).conflict record.identity = true ↔
      ∃ other ∈ acquiredRecords sections,
        memberKind record.identity.kind = some other.identity.kind ∧
          RefersTo sections record other ∧ ¬ RefersTo sections other record := by
  simp only [conflict_iff, mem_indexMemberships]
  constructor
  · rintro ⟨kind, hkind, counterpart, ⟨source, hsource, hsourceKind, hsourceId, kind', hkind',
      relationship, hreferences, hresolves⟩, hunreturned⟩
    cases hkind.symm.trans hkind'
    cases eq_of_listedOnce h hsource hrecord hsourceKind hsourceId
    obtain ⟨other, hother, rfl, rfl, hrefers⟩ := refersTo_of_resolvesTo hreferences hresolves
    refine ⟨other, hother, hkind, hrefers, fun ⟨back, hback, hbackResolves⟩ => hunreturned ?_⟩
    exact ⟨other, hother, rfl, rfl, _, memberKind_symm hkind, back, hback, hbackResolves⟩
  · rintro ⟨other, hother, hkind, ⟨relationship, hreferences, hresolves⟩, hunreturned⟩
    refine ⟨_, hkind, other.identity.id, ⟨record, hrecord, rfl, rfl, _, hkind, relationship,
      hreferences, hresolves⟩, ?_⟩
    rintro ⟨source, hsource, hsourceKind, hsourceId, kind', hkind', back, hback, hbackResolves⟩
    cases eq_of_listedOnce h hsource hother hsourceKind hsourceId
    cases (memberKind_symm hkind).symm.trans hkind'
    exact hunreturned ⟨back, hback, hbackResolves⟩

/-- The pod lists a container reference without a target, while containers are as available as
`listed` says. -/
def Unlisted (sections : List AcquiredSection) (listed : Bool) (record : AcquiredRecord) : Prop :=
  record.identity.kind = .pod ∧
    (availableSections sections)[ResourceKind.container]?.getD false = listed ∧
    ∃ relationship, record.References .container relationship ∧
      ∀ id, ¬ ResolvesTo sections relationship id

/-- A resource on the other side of a membership that the record asserts. -/
def Counterpart (sections : List AcquiredSection) (record other : AcquiredRecord) : Prop :=
  other ∈ acquiredRecords sections ∧ memberKind record.identity.kind = some other.identity.kind ∧
    RefersTo sections record other

/-- Some membership the record asserts is denied: its container is not among those listed, or the
other side was observed and asserts no such membership. -/
def Disagrees (sections : List AcquiredSection) (record : AcquiredRecord) : Prop :=
  Unlisted sections true record ∨ ∃ other, Counterpart sections record other ∧
    other.observedRelationships.isSome ∧ ¬ RefersTo sections other record

/-- Some membership the record asserts cannot be checked: containers were not listed, or the other
side was not observed. -/
def LacksEvidence (sections : List AcquiredSection) (record : AcquiredRecord) : Prop :=
  Unlisted sections false record ∨ ∃ other, Counterpart sections record other ∧
    other.observedRelationships = none

def conflictCount (findings : List InventoryFinding) : ℕ :=
  findings.countP fun finding => finding.code == .podMembershipConflict

/-- Reconciliation gives the record another membership conflict. -/
def ConflictAdded (sections : List AcquiredSection) (record : AcquiredRecord) : Prop :=
  ∃ reconciled ∈ acquiredRecords (reconcileRelationships sections),
    reconciled.identity = record.identity ∧
      conflictCount record.findings < conflictCount reconciled.findings

theorem podMembershipUnresolved_iff {relationships : List NativeRelationship}
    (hobserved : record.observedRelationships = some relationships) :
    podMembershipUnresolved (acquiredTargets sections) record.identity relationships = true ↔
      ∃ listed, Unlisted sections listed record := by
  have hunlisted : (∃ listed, Unlisted sections listed record) ↔ record.identity.kind = .pod ∧
      ∃ relationship, record.References .container relationship ∧
        ∀ id, ¬ ResolvesTo sections relationship id := by
    constructor
    · rintro ⟨_, hpod, rfl, hreferences⟩
      exact ⟨hpod, hreferences⟩
    · rintro ⟨hpod, hreferences⟩
      exact ⟨_, hpod, rfl, hreferences⟩
  rw [hunlisted]
  simp only [podMembershipUnresolved, Bool.and_eq_true, beq_iff_eq, List.any_eq_true,
    Bool.not_eq_true', ← Bool.not_eq_true, isOne_iff, AcquiredRecord.References, hobserved,
    Option.some.injEq, exists_eq_left', not_exists, and_assoc, ResolvesTo]

theorem unresolvedFindings_code {targets : TargetIndex} {identity : ResourceIdentity}
    {finding : InventoryFinding} (h : finding ∈ unresolvedFindings targets identity relationship) :
    finding.code ≠ .podMembershipConflict := by
  rw [unresolvedFindings] at h
  split at h
  · cases h
  all_goals
    obtain ⟨path, -, rfl⟩ := List.mem_map.mp h
    intro hcode
    cases hcode

theorem imageFindings_code {targets : TargetIndex} {finding : InventoryFinding}
    (h : finding ∈ imageFindings targets record) : finding.code ≠ .podMembershipConflict := by
  rw [imageFindings] at h
  split at h
  · split at h
    · split_ifs at h
      · cases List.mem_singleton.mp h
        intro hcode
        cases hcode
      · cases h
    · cases h
  · cases h

theorem conflictCount_pos {findings : List InventoryFinding} : 0 < conflictCount findings ↔
    ∃ finding ∈ findings, finding.code = .podMembershipConflict := by
  simp [conflictCount, List.countP_pos_iff]

theorem conflictAdded_iff_pos (h : ListedOnce sections)
    (hrecord : record ∈ acquiredRecords sections) : ConflictAdded sections record ↔
      0 < conflictCount (reconciliationFindings sections record) := by
  have hcount (source : AcquiredRecord) : conflictCount
      (source.extendFindings (reconciliationFindings sections)).findings =
        conflictCount source.findings + conflictCount (reconciliationFindings sections source) :=
    List.countP_append
  rw [ConflictAdded, acquiredRecords_reconcile]
  constructor
  · rintro ⟨reconciled, hmem, hidentity, hlt⟩
    obtain ⟨source, hsource, rfl⟩ := List.mem_map.mp hmem
    cases eq_of_listedOnce h hsource hrecord (congrArg ResourceIdentity.kind hidentity)
      (congrArg ResourceIdentity.id hidentity)
    rw [hcount] at hlt
    omega
  · intro hpos
    refine ⟨_, List.mem_map_of_mem hrecord, rfl, ?_⟩
    rw [hcount]
    omega

/-- The first pass flags a pod for a container reference without a target. -/
theorem exists_conflict_relationshipFindings :
    (∃ finding ∈ relationshipFindings (availableSections sections) (acquiredTargets sections)
      record, finding.code = .podMembershipConflict) ↔
        ∃ listed, Unlisted sections listed record := by
  cases hobserved : record.observedRelationships with
  | none =>
      simp [relationshipFindings, hobserved, Unlisted, AcquiredRecord.References]
  | some relationships =>
      rw [← podMembershipUnresolved_iff hobserved]
      simp only [relationshipFindings, hobserved, List.mem_append, or_and_right, exists_or]
      refine (or_iff_right ?_).trans ?_
      · rintro ⟨finding, hmem, hcode⟩
        obtain ⟨relationship, -, hfinding⟩ := List.mem_flatMap.mp hmem
        exact unresolvedFindings_code hfinding hcode
      · split_ifs with hunresolved
        · simpa [InventoryFinding.field] using hunresolved
        · simpa using hunresolved

theorem exists_conflict_membershipFindings {memberships : Memberships} :
    (∃ finding ∈ membershipFindings memberships record, finding.code = .podMembershipConflict) ↔
      memberships.conflict record.identity = true := by
  rw [membershipFindings]
  split_ifs with hconflict
  · simpa [InventoryFinding.field] using hconflict
  · simpa using hconflict

/-- A conflict is added for a disagreement and for want of evidence alike. -/
theorem conflictAdded_iff (h : ListedOnce sections) (hrecord : record ∈ acquiredRecords sections) :
    ConflictAdded sections record ↔
      Disagrees sections record ∨ LacksEvidence sections record := by
  have himages : ¬ ∃ finding ∈ imageFindings (acquiredTargets sections) record,
      finding.code = .podMembershipConflict :=
    fun ⟨_, hmem, hcode⟩ => imageFindings_code hmem hcode
  rw [conflictAdded_iff_pos h hrecord, conflictCount_pos, reconciliationFindings]
  simp only [List.mem_append, or_and_right, exists_or]
  rw [exists_conflict_relationshipFindings, exists_conflict_membershipFindings,
    or_iff_left himages, membership_conflict_iff h hrecord]
  constructor
  · rintro (⟨listed, hunlisted⟩ | ⟨other, hother, hkind, hrefers, hback⟩)
    · cases listed with
      | true => exact Or.inl (Or.inl hunlisted)
      | false => exact Or.inr (Or.inl hunlisted)
    · cases hobserved : other.observedRelationships with
      | none => exact Or.inr (Or.inr ⟨other, ⟨hother, hkind, hrefers⟩, hobserved⟩)
      | some relationships =>
          refine Or.inl (Or.inr ⟨other, ⟨hother, hkind, hrefers⟩, ?_, hback⟩)
          rw [hobserved]
          rfl
  · rintro ((hunlisted | ⟨other, ⟨hother, hkind, hrefers⟩, -, hback⟩) |
      (hunlisted | ⟨other, ⟨hother, hkind, hrefers⟩, hobserved⟩))
    · exact Or.inl ⟨_, hunlisted⟩
    · exact Or.inr ⟨other, hother, hkind, hrefers, hback⟩
    · exact Or.inl ⟨_, hunlisted⟩
    · refine Or.inr ⟨other, hother, hkind, hrefers, ?_⟩
      rintro ⟨_, ⟨relationships, hsome, -⟩, -⟩
      rw [hobserved] at hsome
      cases hsome

end Evidence

section Withdrawal
variable {sections : List AcquiredSection} {record other : AcquiredRecord}
  {relationship : NativeRelationship} {id : String}

/-- Evidence that acquisition may fail to obtain: a whole list, or one inspection. -/
inductive Withdrawal
  | list (kind : ResourceKind) (code : DiagnosticCode)
  | inspection (kind : ResourceKind) (id : String)

def ResourceDetails.withoutRelationships : ResourceDetails → ResourceDetails
  | .container value => .container { value with relationships := .unavailable }
  | .pod value => .pod { value with relationships := .unavailable }
  | details => details

theorem ResourceDetails.withoutRelationships_kind (details : ResourceDetails) :
    details.withoutRelationships.kind = details.kind := by
  cases details <;> rfl

def AcquiredRecord.withoutRelationships (record : AcquiredRecord) : AcquiredRecord :=
  { record with observation :=
      ⟨record.identity, record.observation.details.withoutRelationships,
        record.observation.kindAgrees.trans
          record.observation.details.withoutRelationships_kind.symm⟩ }

namespace Withdrawal

def Touches : Withdrawal → ResourceIdentity → Prop
  | list kind _, identity => identity.kind = kind
  | inspection kind id, identity => identity.kind = kind ∧ identity.id = id

instance : ∀ (withdrawal : Withdrawal) (identity : ResourceIdentity),
    Decidable (withdrawal.Touches identity)
  | list kind _, identity => inferInstanceAs (Decidable (identity.kind = kind))
  | inspection kind id, identity =>
    inferInstanceAs (Decidable (identity.kind = kind ∧ identity.id = id))

def fromRecord (withdrawal : Withdrawal) (record : AcquiredRecord) : AcquiredRecord :=
  if withdrawal.Touches record.identity then record.withoutRelationships else record

theorem fromRecord_identity {withdrawal : Withdrawal} :
    (withdrawal.fromRecord record).identity = record.identity := by
  rw [fromRecord]
  split_ifs <;> rfl

def fromSection : Withdrawal → AcquiredSection → AcquiredSection
  | list kind code, found => if found.kind = kind then .unavailable kind code else found
  | inspection kind id, found =>
    found.mapRecords (inspection kind id).fromRecord fun _ =>
      congrArg ResourceIdentity.kind fromRecord_identity

def apply (withdrawal : Withdrawal) (sections : List AcquiredSection) : List AcquiredSection :=
  sections.map withdrawal.fromSection

end Withdrawal

variable {withdrawal : Withdrawal}

theorem mem_acquiredRecords_apply (hmem : other ∈ acquiredRecords (withdrawal.apply sections)) :
    ∃ original ∈ acquiredRecords sections, other = withdrawal.fromRecord original ∧
      ∀ kind code, withdrawal = .list kind code → original.identity.kind ≠ kind := by
  obtain ⟨_, hfound, hother⟩ := List.mem_flatMap.mp hmem
  obtain ⟨found, hsection, rfl⟩ := List.mem_map.mp hfound
  cases withdrawal with
  | list kind code =>
      rw [Withdrawal.fromSection] at hother
      split_ifs at hother with hkind
      · cases hother
      · have hne : other.identity.kind ≠ kind := by
          rw [found.ofKind other hother]
          exact hkind
        refine ⟨other, List.mem_flatMap.mpr ⟨found, hsection, hother⟩, ?_, ?_⟩
        · exact (if_neg hne).symm
        · rintro _ _ ⟨⟩
          exact hne
  | inspection kind id =>
      obtain ⟨original, horiginal, rfl⟩ := List.mem_map.mp hother
      exact ⟨original, List.mem_flatMap.mpr ⟨found, hsection, horiginal⟩, rfl, nofun⟩

/-- A record that still shows relationships was not touched. -/
theorem observed_fromRecord (h : (withdrawal.fromRecord record).observedRelationships.isSome) :
    withdrawal.fromRecord record = record := by
  rw [Withdrawal.fromRecord] at h ⊢
  split_ifs at h ⊢ with htouches
  · cases hdetails : record.observation.details <;>
      simp [AcquiredRecord.observedRelationships, AcquiredRecord.withoutRelationships,
        ResourceObservation.relationships, ResourceDetails.withoutRelationships, hdetails,
        ObservationField.toOption] at h
  · rfl

theorem targetSpellings_withoutRelationships :
    targetSpellings record.withoutRelationships.observation =
      targetSpellings record.observation := by
  cases hdetails : record.observation.details <;>
    simp [targetSpellings, AcquiredRecord.withoutRelationships,
      ResourceObservation.imageRepoTags, ResourceObservation.imageRepoDigests,
      ResourceDetails.withoutRelationships, hdetails]

/-- The indexes agree on one kind of resource. -/
def SameAt (kind : ResourceKind) (left right : TargetIndex) : Prop :=
  ∀ reference : String, left[(kind, reference)]? = right[(kind, reference)]?

variable {kind : ResourceKind} {left right : TargetIndex}

theorem sameAt_pushTarget (h : SameAt kind left right) (key : ResourceKind × String) :
    SameAt kind (pushTarget id left key) (pushTarget id right key) := by
  intro reference
  rw [pushTarget, pushTarget, ExtTreeMap.getElem?_alter, ExtTreeMap.getElem?_alter]
  split_ifs with hkey
  · rw [Std.compare_eq_iff_eq.mp hkey, h]
  · exact h reference

theorem sameAt_indexObservation {first second : ResourceObservation} (h : SameAt kind left right)
    (hidentity : first.identity = second.identity)
    (hspellings : targetSpellings first = targetSpellings second) :
    SameAt kind (indexObservation left first) (indexObservation right second) := by
  rw [indexObservation, indexObservation, hidentity, hspellings]
  exact List.foldl_rel (r := SameAt kind) h fun spelling _ left right h => sameAt_pushTarget h _

/-- An observation of another kind is not looked up. -/
theorem sameAt_of_kind_ne {observation : ResourceObservation} (h : SameAt kind left right)
    (hne : observation.identity.kind ≠ kind) :
    SameAt kind left (indexObservation right observation) := by
  refine List.foldlRecOn (motive := fun index : TargetIndex => SameAt kind left index) _ _ h
    fun index hindex spelling _ reference => ?_
  have hkey : compare (observation.identity.kind, spelling) (kind, reference) ≠ .eq := by
    intro heq
    exact hne (congrArg Prod.fst (Std.compare_eq_iff_eq.mp heq))
  rw [pushTarget, ExtTreeMap.getElem?_alter, if_neg hkey]
  exact hindex reference

theorem resolve_congr (h : SameAt relationship.kind left right) :
    resolveRelationshipTarget left relationship = resolveRelationshipTarget right relationship := by
  have hrun (references : List String) (resolved : ExtTreeSet String) :
      resolveTargets left relationship.kind references resolved =
        resolveTargets right relationship.kind references resolved := by
    induction references generalizing resolved with
    | nil => rfl
    | cons reference rest ih =>
        rw [resolveTargets, resolveTargets, h]
        simp only [ih]
  exact hrun _ _

theorem indexed_acquiredInventory (sections : List AcquiredSection) :
    (acquiredInventory sections).observations.foldl indexObservation ∅ =
      sections.foldl (fun targets found => found.records.foldl (fun targets record =>
        indexObservation targets record.observation) targets) ∅ := by
  rw [observations_acquiredInventory, List.foldl_map, acquiredRecords, List.foldl_flatMap]

/-- Other kinds of resources are found as before. -/
theorem sameAt_apply (h : ∀ code, withdrawal ≠ .list kind code) :
    SameAt kind (acquiredTargets (withdrawal.apply sections)) (acquiredTargets sections) := by
  have hindexed : SameAt kind
      ((acquiredInventory (withdrawal.apply sections)).observations.foldl indexObservation ∅)
      ((acquiredInventory sections).observations.foldl indexObservation ∅) := by
    rw [indexed_acquiredInventory, indexed_acquiredInventory, Withdrawal.apply, List.foldl_map]
    refine List.foldl_rel (r := SameAt kind) (fun _ => rfl) fun found _ left right hsame => ?_
    cases withdrawal with
    | list withdrawn code =>
        rw [Withdrawal.fromSection]
        split_ifs with hkind
        · refine List.foldlRecOn (motive := fun index : TargetIndex => SameAt kind left index)
            _ _ hsame fun index hindex record hmem => sameAt_of_kind_ne hindex ?_
          rintro rfl
          refine h code ?_
          rw [← hkind, ← found.ofKind record hmem]
        · exact List.foldl_rel (r := SameAt kind) hsame fun record _ left right hsame =>
            sameAt_indexObservation hsame rfl rfl
    | inspection withdrawn id =>
        simp only [Withdrawal.fromSection, AcquiredSection.mapRecords, List.foldl_map]
        refine List.foldl_rel (r := SameAt kind) hsame fun record _ left right hsame =>
          sameAt_indexObservation hsame Withdrawal.fromRecord_identity ?_
        rw [Withdrawal.fromRecord]
        split_ifs
        · exact targetSpellings_withoutRelationships
        · rfl
  intro reference
  rw [acquiredTargets, acquiredTargets, getElem?_reconciliationTargets,
    getElem?_reconciliationTargets, hindexed]

theorem resolvesTo_apply (h : ∀ code, withdrawal ≠ .list relationship.kind code) :
    ResolvesTo (withdrawal.apply sections) relationship id ↔
      ResolvesTo sections relationship id := by
  rw [ResolvesTo, ResolvesTo, resolve_congr (sameAt_apply h)]

/-- Withdrawing evidence makes no reference resolve. -/
theorem resolvesTo_of_apply (h : ResolvesTo (withdrawal.apply sections) relationship id) :
    ResolvesTo sections relationship id := by
  obtain ⟨other, hother, hkind, -⟩ := exists_of_resolvesTo h
  obtain ⟨original, -, rfl, hne⟩ := mem_acquiredRecords_apply hother
  refine (resolvesTo_apply fun code hlist => ?_).mp h
  refine hne _ _ hlist ?_
  rw [← hkind, Withdrawal.fromRecord_identity]

theorem fromSection_kind {found : AcquiredSection} :
    (withdrawal.fromSection found).kind = found.kind := by
  cases withdrawal with
  | list kind code =>
      rw [Withdrawal.fromSection]
      split_ifs with hkind
      · exact hkind.symm
      · rfl
  | inspection kind id => rfl

theorem available_of_fromSection {found : AcquiredSection}
    (h : (withdrawal.fromSection found).isAvailable = true) :
    (∀ code, withdrawal ≠ .list found.kind code) ∧ found.isAvailable = true := by
  cases withdrawal with
  | list kind code =>
      rw [Withdrawal.fromSection] at h
      split_ifs at h with hkind
      · rw [AcquiredSection.isAvailable, beq_iff_eq, AcquiredSection.unavailable] at h
        split_ifs at h
      · refine ⟨?_, h⟩
        rintro _ ⟨⟩
        exact hkind rfl
  | inspection kind id =>
      refine ⟨fun code hcode => ?_, h⟩
      cases hcode

theorem available_of_apply
    (h : (availableSections (withdrawal.apply sections))[kind]?.getD false = true) :
    (∀ code, withdrawal ≠ .list kind code) ∧
      (availableSections sections)[kind]?.getD false = true := by
  revert h
  simp only [availableSections, insertAll, List.foldl_map, Withdrawal.apply, insertEntry]
  refine List.foldl_rel (r := fun left right : Availabilities => left[kind]?.getD false = true →
    (∀ code, withdrawal ≠ .list kind code) ∧ right[kind]?.getD false = true) (by simp)
      fun found _ left right hrel => ?_
  rw [fromSection_kind, ExtTreeMap.getElem?_insert, ExtTreeMap.getElem?_insert]
  split_ifs with hkind
  · rw [← Std.compare_eq_iff_eq.mp hkind]
    exact available_of_fromSection
  · exact hrel

/-- A record that is not touched is still acquired. -/
theorem mem_apply_of_untouched (hrecord : record ∈ acquiredRecords sections)
    (huntouched : ¬ withdrawal.Touches record.identity) :
    record ∈ acquiredRecords (withdrawal.apply sections) := by
  obtain ⟨found, hfound, hmem⟩ := List.mem_flatMap.mp hrecord
  refine List.mem_flatMap.mpr ⟨_, List.mem_map_of_mem hfound, ?_⟩
  cases withdrawal with
  | list kind code =>
      rw [Withdrawal.fromSection, if_neg]
      · exact hmem
      · rw [← found.ofKind record hmem]
        exact huntouched
  | inspection kind id => exact List.mem_map.mpr ⟨record, hmem, if_neg huntouched⟩

/-- No identity is added, and none is repeated. -/
theorem identities_apply_sublist (withdrawal : Withdrawal) (sections : List AcquiredSection) :
    ((acquiredRecords (withdrawal.apply sections)).map AcquiredRecord.identity).Sublist
      ((acquiredRecords sections).map AcquiredRecord.identity) := by
  have hsection (found : AcquiredSection) :
      ((withdrawal.fromSection found).records.map AcquiredRecord.identity).Sublist
        (found.records.map AcquiredRecord.identity) := by
    cases withdrawal with
    | list kind code =>
        rw [Withdrawal.fromSection]
        split_ifs
        · exact List.nil_sublist _
        · exact List.Sublist.refl _
    | inspection kind id =>
        have hsame : (found.records.map (Withdrawal.inspection kind id).fromRecord).map
            AcquiredRecord.identity = found.records.map AcquiredRecord.identity := by
          rw [List.map_map]
          exact List.map_congr_left fun _ _ => Withdrawal.fromRecord_identity
        rw [Withdrawal.fromSection, AcquiredSection.mapRecords, hsame]
  induction sections with
  | nil => exact List.Sublist.refl _
  | cons found rest ih =>
      rw [Withdrawal.apply, List.map_cons, acquiredRecords, List.flatMap_cons, acquiredRecords,
        List.flatMap_cons, List.map_append, List.map_append]
      exact (hsection found).append ih

theorem listedOnce_apply (h : ListedOnce sections) : ListedOnce (withdrawal.apply sections) := by
  have hkeys := (identities_apply_sublist withdrawal sections).map
    fun identity : ResourceIdentity => (identity.kind, identity.id)
  rw [ListedOnce, ResourceInventory.ListsOnce, observations_acquiredInventory, List.map_map] at h ⊢
  rw [List.map_map, List.map_map] at hkeys
  exact h.sublist hkeys

/-- Withdrawing evidence makes no other record disagree. -/
theorem disagrees_of_apply (huntouched : ¬ withdrawal.Touches record.identity)
    (h : Disagrees (withdrawal.apply sections) record) : Disagrees sections record := by
  rcases h with ⟨hpod, havailable, relationship, hreferences, hunresolved⟩ |
    ⟨other, ⟨hother, hkind, relationship, hreferences, hresolves⟩, hobserved, hback⟩
  · obtain ⟨hlisted, havailable⟩ := available_of_apply havailable
    refine Or.inl ⟨hpod, havailable, relationship, hreferences, fun id hresolves => ?_⟩
    obtain ⟨-, -, -, hrelationship⟩ := hreferences
    refine hunresolved id ((resolvesTo_apply ?_).mpr hresolves)
    rw [hrelationship]
    exact hlisted
  · obtain ⟨original, horiginal, rfl, -⟩ := mem_acquiredRecords_apply hother
    have hsame := observed_fromRecord hobserved
    rw [hsame] at hkind hreferences hresolves hobserved hback
    refine Or.inr ⟨original, ⟨horiginal, hkind, relationship, hreferences,
      resolvesTo_of_apply hresolves⟩, hobserved, ?_⟩
    rintro ⟨back, hbackReferences, hbackResolves⟩
    refine hback ⟨back, hbackReferences, (resolvesTo_apply ?_).mpr hbackResolves⟩
    obtain ⟨-, -, -, hbackKind⟩ := hbackReferences
    rintro code rfl
    exact huntouched hbackKind.symm

end Withdrawal

section Exactness
variable (sections : List AcquiredSection) (withdrawal : Withdrawal)

/-- Conflicts are added for disagreement and for nothing else. -/
def ConflictsExact : Prop :=
  ∀ record ∈ acquiredRecords sections,
    ConflictAdded sections record ↔ Disagrees sections record

/-- Withdrawing evidence adds a conflict to no other record. -/
def ConflictsStable : Prop :=
  ∀ record ∈ acquiredRecords sections, ¬ withdrawal.Touches record.identity →
    ConflictAdded (withdrawal.apply sections) record → ConflictAdded sections record

/-- Conflicts are exact and stable where a record that lacks evidence, before or after the
withdrawal, disagrees anyway. -/
theorem membership_conflicts_iff (h : ListedOnce sections) :
    (ConflictsExact sections ∧ ConflictsStable sections withdrawal) ↔
      (∀ record ∈ acquiredRecords sections, LacksEvidence sections record →
        Disagrees sections record) ∧
      ∀ record ∈ acquiredRecords sections, ¬ withdrawal.Touches record.identity →
        LacksEvidence (withdrawal.apply sections) record → Disagrees sections record := by
  constructor
  · rintro ⟨hexact, hstable⟩
    refine ⟨fun record hrecord hlacks => ?_, fun record hrecord huntouched hlacks => ?_⟩
    · exact (hexact record hrecord).mp ((conflictAdded_iff h hrecord).mpr (Or.inr hlacks))
    · have hadded : ConflictAdded (withdrawal.apply sections) record :=
        (conflictAdded_iff (listedOnce_apply h) (mem_apply_of_untouched hrecord huntouched)).mpr
          (Or.inr hlacks)
      exact (hexact record hrecord).mp (hstable record hrecord huntouched hadded)
  · rintro ⟨hbefore, hafter⟩
    refine ⟨fun record hrecord => ?_, fun record hrecord huntouched hadded => ?_⟩
    · rw [conflictAdded_iff h hrecord]
      exact or_iff_left_of_imp (hbefore record hrecord)
    · rw [conflictAdded_iff (listedOnce_apply h) (mem_apply_of_untouched hrecord huntouched)]
        at hadded
      refine (conflictAdded_iff h hrecord).mpr (Or.inl ?_)
      exact hadded.elim (disagrees_of_apply huntouched) (hafter record hrecord huntouched)

def memberPod : AcquiredRecord where
  observation := ⟨⟨.pod, "p1", some "shop"⟩, .pod ⟨.absent, .observed ⟨[
    .new .container "c1" "$.Containers[0].Id"], .effective⟩⟩, rfl⟩

def memberContainer (relationships : ObservationField (List NativeRelationship)) :
    AcquiredRecord where
  observation := ⟨⟨.container, "c1", some "web"⟩,
    .container ⟨.absent, .absent, relationships⟩, rfl⟩

def podSection : AcquiredSection where
  kind := .pod
  availability := .available
  records := [memberPod]
  ofKind := by simp [memberPod]
  unavailable_empty h := absurd rfl h

def containerSection (relationships : ObservationField (List NativeRelationship)) :
    AcquiredSection where
  kind := .container
  availability := .available
  records := [memberContainer relationships]
  ofKind := by simp [memberContainer]
  unavailable_empty h := absurd rfl h

/-- The container list failed, and one pod lists a container. -/
def unlistedContainers : List AcquiredSection :=
  [.unavailable .container .inventoryHttpStatus, podSection]

/-- The only container could not be inspected. -/
def uninspectedContainer : List AcquiredSection := [containerSection .unavailable, podSection]

def agreeingMembers : List AcquiredSection :=
  [containerSection (.observed ⟨[.new .pod "shop" "$.Pod"], .effective⟩), podSection]

def agreeingContainer : AcquiredRecord :=
  memberContainer (.observed ⟨[.new .pod "shop" "$.Pod"], .effective⟩)

theorem mem_agreeingMembers {record : AcquiredRecord} :
    record ∈ acquiredRecords agreeingMembers ↔ record = agreeingContainer ∨ record = memberPod := by
  change record ∈ [agreeingContainer, memberPod] ↔ _
  rw [List.mem_pair]

theorem memberPod_agrees : ¬ Disagrees agreeingMembers memberPod := by
  rintro (⟨-, -, relationship, ⟨relationships, hobserved, hmem, -⟩, hunresolved⟩ |
    ⟨other, ⟨hother, hkind, -⟩, -, hback⟩)
  · cases hobserved
    rw [List.mem_singleton.mp hmem] at hunresolved
    refine hunresolved "c1" ?_
    rw [ResolvesTo]
    decide
  · rcases mem_agreeingMembers.mp hother with rfl | rfl
    · refine hback ⟨_, ⟨_, rfl, List.mem_singleton_self _, rfl⟩, ?_⟩
      rw [ResolvesTo]
      decide
    · cases hkind

/-- Without the pods nothing is asserted, without the containers the pod is unlisted. -/
theorem membership_conflicts_iff_sample :
    (ConflictsExact agreeingMembers ∧
      ConflictsStable agreeingMembers (.list .pod .inventoryHttpStatus)) ∧
    ¬ (ConflictsExact agreeingMembers ∧
      ConflictsStable agreeingMembers (.list .container .inventoryHttpStatus)) := by
  rw [membership_conflicts_iff agreeingMembers _ (by decide),
    membership_conflicts_iff agreeingMembers _ (by decide)]
  refine ⟨⟨fun record hrecord hlacks => ?_, fun record hrecord huntouched hlacks => ?_⟩,
    fun h => memberPod_agrees (h.2 memberPod (mem_agreeingMembers.mpr (Or.inr rfl)) ?_ ?_)⟩
  · rcases hlacks with ⟨-, havailable, -⟩ | ⟨other, ⟨hother, -⟩, hnone⟩
    · exact absurd havailable (by decide)
    · rcases mem_agreeingMembers.mp hother with rfl | rfl <;> cases hnone
  · rcases hlacks with ⟨hpod, -⟩ | ⟨other, ⟨hother, hkind, -⟩, -⟩
    · exact absurd hpod huntouched
    · rcases mem_agreeingMembers.mp hrecord with rfl | rfl
      · rw [List.mem_singleton.mp hother] at hkind
        cases hkind
      · exact absurd rfl huntouched
  · decide
  · refine Or.inl ⟨rfl, by decide, _, ⟨_, rfl, List.mem_singleton_self _, rfl⟩, fun id hone => ?_⟩
    have hunresolved : resolveRelationshipTarget (acquiredTargets
        ((Withdrawal.list .container .inventoryHttpStatus).apply agreeingMembers))
          (.new .container "c1" "$.Containers[0].Id") = .unresolved := by decide
    cases hone.symm.trans hunresolved

theorem memberPod_conflict_unlisted : ConflictAdded unlistedContainers memberPod := by
  refine (conflictAdded_iff_pos (by decide) (List.mem_singleton_self _)).mpr ?_
  decide

theorem memberPod_conflict_uninspected : ConflictAdded uninspectedContainer memberPod := by
  refine (conflictAdded_iff_pos (by decide) ?_).mpr ?_
  · exact List.mem_cons_of_mem _ (List.mem_singleton_self _)
  · decide

/-- A conflict is added where containers were not listed, or the container was not inspected. -/
theorem missing_evidence_conflicts :
    ¬ ConflictsExact unlistedContainers ∧ ¬ ConflictsExact uninspectedContainer := by
  constructor
  · intro hexact
    have hpod := (hexact memberPod (List.mem_singleton_self _)).mp memberPod_conflict_unlisted
    rcases hpod with ⟨-, havailable, -⟩ | ⟨other, ⟨hother, hkind, -⟩, -⟩
    · revert havailable
      decide
    · rw [List.mem_singleton.mp hother] at hkind
      revert hkind
      decide
  · intro hexact
    have hpod := (hexact memberPod (List.mem_cons_of_mem _ (List.mem_singleton_self _))).mp
      memberPod_conflict_uninspected
    rcases hpod with ⟨-, -, relationship, ⟨relationships, hobserved, hmem, -⟩, hunresolved⟩ |
      ⟨other, ⟨hother, hkind, -⟩, hobserved, -⟩
    · cases hobserved
      rw [List.mem_singleton.mp hmem] at hunresolved
      refine hunresolved "c1" ?_
      rw [ResolvesTo]
      decide
    · rcases List.mem_cons.mp hother with rfl | hother
      · cases hobserved
      · rw [List.mem_singleton.mp hother] at hkind
        revert hkind
        decide

end Exactness

end PodmanLens
