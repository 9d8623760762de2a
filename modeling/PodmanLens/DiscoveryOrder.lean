import PodmanLens.DiscoveryWidening
import PodmanLens.Returning

/-!
# Reordered inventories

In what order an inventory lists its resources, and a container or pod its relationships, does not
show in what is discovered. A record is found by its identity, edges are collected under their ends,
and findings are sorted by everything they say, so each phase reads the same.
-/

namespace PodmanLens
open Std TreeEntries Closure

section Folds
variable {σ σ' α β : Type}

/-- Folds over lists whose elements are alike keep the states alike. -/
theorem foldl_forall₂ {alike : σ → σ' → Prop} {related : α → β → Prop} {step : σ → α → σ}
    {step' : σ' → β → σ'} {values : List α} {values' : List β}
    (h : List.Forall₂ related values values')
    (hstep : ∀ state state' value value', related value value' → alike state state' →
      alike (step state value) (step' state' value')) (state : σ) (state' : σ')
    (hstate : alike state state') : alike (values.foldl step state) (values'.foldl step' state') := by
  induction h generalizing state state' with
  | nil => exact hstate
  | cons hvalue _ ih => exact ih _ _ (hstep _ _ _ _ hvalue hstate)

/-- Steps that commute up to an equivalence reach alike states in any order. -/
theorem foldl_perm_alike {alike : σ → σ → Prop} (hequiv : Equivalence alike) {step : σ → α → σ}
    {values values' : List α} (hperm : values.Perm values')
    (hstep : ∀ state state' value, alike state state' → alike (step state value) (step state' value))
    (hswap : ∀ state a b, alike (step (step state a) b) (step (step state b) a)) (state : σ) :
    alike (values.foldl step state) (values'.foldl step state) := by
  have hsame : ∀ (rest : List α) (left right : σ), alike left right →
      alike (rest.foldl step left) (rest.foldl step right) := by
    intro rest left right hleft
    refine foldl_forall₂ (List.forall₂_same.mpr fun value _ => rfl) ?_ left right hleft
    rintro left right value _ rfl hstates
    exact hstep left right value hstates
  induction hperm generalizing state with
  | nil => exact hequiv.refl state
  | cons value _ ih => exact ih _
  | swap a b rest => exact hsame rest _ _ (hswap state b a)
  | trans _ _ ihfront ihback => exact hequiv.trans (ihfront state) (ihback state)

theorem filter_map_forall₂ {γ : Type} {related : α → β → Prop} {keep : α → Bool} {keep' : β → Bool}
    {read : α → γ} {read' : β → γ} {values : List α} {values' : List β}
    (h : List.Forall₂ related values values')
    (hkeep : ∀ value value', related value value' → keep value = keep' value')
    (hread : ∀ value value', related value value' → read value = read' value') :
    (values.filter keep).map read = (values'.filter keep').map read' := by
  induction h with
  | nil => rfl
  | @cons value value' _ _ hvalue _ ih =>
      rw [List.filter_cons, List.filter_cons, hkeep value value' hvalue]
      split
      · rw [List.map_cons, List.map_cons, ih, hread value value' hvalue]
      · exact ih

end Folds

section Findings

/-- The code that a text numbers, counted from one after the three letters. -/
def codeOfText (text : String) : DiagnosticCode :=
  .ofNat ((text.toList.drop 3).foldl (fun number digit => 10 * number + (digit.toNat - 48)) 0 - 1)

theorem codeOfText_asStr (code : DiagnosticCode) : codeOfText code.asStr = code := by
  cases code <;> decide

theorem DiagnosticCode.asStr_injective : Function.Injective DiagnosticCode.asStr :=
  Function.LeftInverse.injective codeOfText_asStr

def findingKey (finding : DiscoveryFinding) : String × Option ResourceIdentity ×
    Option ResourceSelector × Option LabelSelector × Option String :=
  (finding.code.asStr, finding.resource, finding.selector, finding.labelSelector,
    finding.fieldPath)

theorem findingKey_injective : Function.Injective findingKey := by
  rintro ⟨code, _, _, _, _⟩ ⟨code', _, _, _, _⟩ h
  simp only [findingKey, Prod.mk.injEq] at h
  obtain ⟨hcode, rfl, rfl, rfl, rfl⟩ := h
  rw [DiagnosticCode.asStr_injective hcode]

theorem findingOrder_eq (left right : DiscoveryFinding) :
    findingOrder left right = compare (findingKey left) (findingKey right) := rfl

theorem findings_sorted (findings : List DiscoveryFinding) :
    (sortDiscoveryFindings findings).Pairwise fun left right => (findingOrder left right).isLE := by
  have htotal : Std.Total fun left right : DiscoveryFinding =>
      (findingOrder left right).isLE = true := by
    constructor
    intro left right
    rw [findingOrder_eq, findingOrder_eq, OrientedOrd.eq_swap (a := findingKey right)]
    cases compare (findingKey left) (findingKey right) <;> simp
  have htrans : IsTrans DiscoveryFinding fun left right =>
      (findingOrder left right).isLE = true := by
    constructor
    intro left middle right hle hle'
    rw [findingOrder_eq] at hle hle' ⊢
    exact TransOrd.isLE_trans hle hle'
  exact List.pairwise_insertionSort _ _

/-- Findings in any order are sorted into one. -/
theorem sortDiscoveryFindings_perm {findings findings' : List DiscoveryFinding}
    (h : findings.Perm findings') :
    sortDiscoveryFindings findings = sortDiscoveryFindings findings' := by
  refine List.Perm.eq_of_pairwise ?_ (findings_sorted _) (findings_sorted _) ?_
  · intro left right _ _ hle hge
    rw [findingOrder_eq] at hle hge
    have hkeys := Std.compare_eq_iff_eq.mp (OrientedCmp.isLE_antisymm hle hge)
    exact findingKey_injective hkeys
  · exact (List.perm_insertionSort _ _).trans (h.trans (List.perm_insertionSort _ _).symm)

end Findings

section Reordered

/-- The same relationships in any order. -/
inductive RelationshipsReordered : ObservationField (List NativeRelationship) →
    ObservationField (List NativeRelationship) → Prop
  | same (field : ObservationField (List NativeRelationship)) : RelationshipsReordered field field
  | observed {left right : List NativeRelationship} (origin : ObservationOrigin)
      (h : left.Perm right) :
      RelationshipsReordered (.observed ⟨left, origin⟩) (.observed ⟨right, origin⟩)

inductive DetailsReordered : ResourceDetails → ResourceDetails → Prop
  | same (details : ResourceDetails) : DetailsReordered details details
  | container (labels : ObservationField Labels) (infra : ObservationField Bool)
      {left right : ObservationField (List NativeRelationship)}
      (h : RelationshipsReordered left right) :
      DetailsReordered (.container ⟨labels, infra, left⟩) (.container ⟨labels, infra, right⟩)
  | pod (labels : ObservationField Labels)
      {left right : ObservationField (List NativeRelationship)}
      (h : RelationshipsReordered left right) :
      DetailsReordered (.pod ⟨labels, left⟩) (.pod ⟨labels, right⟩)

/-- The same resource, whose relationships may be listed in another order. -/
structure RecordReordered (record record' : ResourceObservation) : Prop where
  identity : record.identity = record'.identity
  details : DetailsReordered record.details record'.details

/-- The same resources in any order, none listed twice. -/
structure ResourceInventory.Reordered (inventory inventory' : ResourceInventory) : Prop where
  distinct : ((inventory.sections.flatMap InventorySection.observations).map
    ResourceObservation.identity).Nodup
  records : ∃ listed, (inventory.sections.flatMap InventorySection.observations).Perm listed ∧
    List.Forall₂ RecordReordered listed (inventory'.sections.flatMap InventorySection.observations)

variable {record record' : ResourceObservation}

theorem RecordReordered.labels (h : RecordReordered record record') :
    record.labels = record'.labels := by
  obtain ⟨identity, details, hkind⟩ := record
  obtain ⟨identity', details', hkind'⟩ := record'
  cases h.details <;> rfl

/-- Relationships are listed in two orders, or are unobserved for the same reason. -/
theorem RecordReordered.relationships (h : RecordReordered record record') :
    (observedRelationships record = none ∧ observedRelationships record' = none ∧
      record.relationships = record'.relationships) ∨
    ∃ left right, observedRelationships record = some left ∧
      observedRelationships record' = some right ∧ left.Perm right := by
  have hfield : ∀ {left right : ObservationField (List NativeRelationship)},
      RelationshipsReordered left right →
      (left.toOption = none ∧ right.toOption = none ∧ left = right) ∨
        ∃ front back, left.toOption = some front ∧ right.toOption = some back ∧
          front.Perm back := by
    intro left right hreordered
    cases hreordered with
    | same =>
        cases hfound : left.toOption with
        | none => exact Or.inl ⟨rfl, rfl, rfl⟩
        | some found => exact Or.inr ⟨found, found, rfl, rfl, List.Perm.refl found⟩
    | observed origin hperm => exact Or.inr ⟨_, _, rfl, rfl, hperm⟩
  obtain ⟨identity, details, hkind⟩ := record
  obtain ⟨identity', details', hkind'⟩ := record'
  obtain ⟨-, hdetails⟩ := h
  simp only [observedRelationships, ResourceObservation.relationships]
  cases hdetails with
  | same =>
      cases details with
      | container value =>
          rcases hfield (.same value.relationships) with hnone | hsome
          · exact Or.inl ⟨hnone.1, hnone.1, rfl⟩
          · exact Or.inr hsome
      | pod value =>
          rcases hfield (.same value.relationships) with hnone | hsome
          · exact Or.inl ⟨hnone.1, hnone.1, rfl⟩
          · exact Or.inr hsome
      | network | volume | image | secret => exact Or.inl ⟨rfl, rfl, rfl⟩
  | container labels infra hreordered =>
      rcases hfield hreordered with ⟨hleft, hright, hsame⟩ | hsome
      · exact Or.inl ⟨hleft, hright, congrArg some hsame⟩
      · exact Or.inr hsome
  | pod labels hreordered =>
      rcases hfield hreordered with ⟨hleft, hright, hsame⟩ | hsome
      · exact Or.inl ⟨hleft, hright, congrArg some hsame⟩
      · exact Or.inr hsome

/-- The same identity with a reordered record. -/
def EntryReordered (entry entry' : ResourceIdentity × ResourceObservation) : Prop :=
  entry.1 = entry'.1 ∧ RecordReordered entry.2 entry'.2

end Reordered

section Contributions
variable {κ : Type} [Ord κ] [TransOrd κ] [LawfulEqOrd κ] {α : Type}

/-- The same collected paths, with the findings in any order. -/
def CollectingAlike (state state' : Collecting κ) : Prop :=
  state.paths = state'.paths ∧ state.findings.Perm state'.findings

omit [TransOrd κ] [LawfulEqOrd κ] in
theorem collectingAlike_equivalence : Equivalence (CollectingAlike (κ := κ)) :=
  ⟨fun _ => ⟨rfl, .refl _⟩, fun h => ⟨h.1.symm, h.2.symm⟩,
    fun h h' => ⟨h.1.trans h'.1, h.2.trans h'.2⟩⟩

/-- Adds source paths to an edge, if any, and findings. -/
def Collecting.contribute (edge : Option (κ × List String)) (found : List DiscoveryFinding)
    (state : Collecting κ) : Collecting κ :=
  ⟨edge.elim state.paths fun edge => extendPaths state.paths edge.1 edge.2,
    state.findings ++ found⟩

theorem extendPaths_comm (paths : ExtTreeMap κ (ExtTreeSet String)) (key key' : κ)
    (fieldPaths fieldPaths' : List String) :
    extendPaths (extendPaths paths key fieldPaths) key' fieldPaths' =
      extendPaths (extendPaths paths key' fieldPaths') key fieldPaths := by
  have hextend : ∀ found : ExtTreeSet String, extend (extend found fieldPaths) fieldPaths' =
      extend (extend found fieldPaths') fieldPaths := by
    intro found
    refine ExtTreeSet.ext_mem fun path => ?_
    rw [mem_extend, mem_extend, mem_extend, mem_extend]
    tauto
  refine ExtTreeMap.ext_getElem? fun other => ?_
  simp only [extendPaths, ExtTreeMap.getElem?_alter, Std.compare_eq_iff_eq]
  by_cases hkey : key = other
  · by_cases hkey' : key' = other
    · simp [hkey, hkey', hextend]
    · simp [hkey, hkey']
  · by_cases hkey' : key' = other
    · simp [hkey, hkey']
    · simp [hkey, hkey']

/-- Steps that only contribute may be taken in any order. -/
theorem foldl_contributing {step : Collecting κ → α → Collecting κ} {values values' : List α}
    (hstep : ∀ value, ∃ edge found, ∀ state, step state value = state.contribute edge found)
    (hperm : values.Perm values') {state state' : Collecting κ}
    (hstate : CollectingAlike state state') :
    CollectingAlike (values.foldl step state) (values'.foldl step state') := by
  have hsame : ∀ (state state' : Collecting κ) (value : α), CollectingAlike state state' →
      CollectingAlike (step state value) (step state' value) := by
    rintro ⟨paths, findings⟩ ⟨paths', findings'⟩ value ⟨rfl, hfindings⟩
    obtain ⟨edge, found, hedge⟩ := hstep value
    rw [hedge, hedge]
    exact ⟨rfl, List.Perm.append_right found hfindings⟩
  have hswap : ∀ (state : Collecting κ) (a b : α),
      CollectingAlike (step (step state a) b) (step (step state b) a) := by
    intro state a b
    obtain ⟨edge, found, hedge⟩ := hstep a
    obtain ⟨edge', found', hedge'⟩ := hstep b
    rw [hedge, hedge', hedge', hedge]
    constructor
    · cases edge with
      | none => rfl
      | some edge =>
          cases edge' with
          | none => rfl
          | some edge' => exact extendPaths_comm _ _ _ _ _
    · simp only [Collecting.contribute, List.append_assoc]
      exact List.Perm.append_left _ List.perm_append_comm
  refine collectingAlike_equivalence.trans (foldl_perm_alike collectingAlike_equivalence hperm
    hsame hswap state) ?_
  refine foldl_forall₂ (List.forall₂_same.mpr fun value _ => rfl) ?_ state state' hstate
  rintro left right value _ rfl hstates
  exact hsame left right value hstates

end Contributions

section Edges
variable {records records' : Records} {identity : ResourceIdentity}

theorem collectRelationship_contributes (relationship : NativeRelationship) :
    ∃ edge found, ∀ state, collectRelationship records identity state relationship =
      state.contribute edge found := by
  unfold collectRelationship
  split_ifs
  · exact ⟨none, [], fun state => by simp [Collecting.contribute]⟩
  · cases resolveRelationshipReference records relationship with
    | one prerequisite =>
        exact ⟨some ((identity, prerequisite), relationship.fieldPaths), [], fun state => by
          simp [Collecting.contribute]⟩
    | none | many | conflict => exact ⟨none, _, fun state => rfl⟩

theorem groupRelationship_contributes (relationship : NativeRelationship) :
    ∃ edge found, ∀ state, groupRelationship records identity state relationship =
      state.contribute edge found := by
  have hnothing : ∃ edge found, ∀ state : Collecting GroupingKey,
      state = state.contribute edge found :=
    ⟨none, [], fun state => by simp [Collecting.contribute]⟩
  have hone : ∀ member, ∃ edge found, ∀ state : Collecting GroupingKey,
      { state with
        paths := insertGroupingEdge state.paths identity member .podMembership
          relationship.fieldPaths.head? } = state.contribute edge found := by
    intro member
    by_cases hsame : identity = member
    · simp only [insertGroupingEdge, if_pos hsame]
      exact hnothing
    · by_cases hlt : (compare identity member).isLT = true
      · refine ⟨some ((identity, member, .podMembership), relationship.fieldPaths.head?.toList), [],
          fun state => ?_⟩
        simp [insertGroupingEdge, hsame, hlt, Collecting.contribute]
      · refine ⟨some ((member, identity, .podMembership), relationship.fieldPaths.head?.toList), [],
          fun state => ?_⟩
        simp [insertGroupingEdge, hsame, hlt, Collecting.contribute]
  unfold groupRelationship
  split_ifs
  · cases resolveRelationshipReference records relationship with
    | one member => exact hone member
    | none | many | conflict => exact ⟨none, _, fun state => rfl⟩
  · cases resolveRelationshipReference records relationship with
    | one member => exact hone member
    | none | many | conflict => exact hnothing
  · exact hnothing

end Edges

theorem composeLabelStatus_reordered {entry entry' : ResourceIdentity × ResourceObservation}
    (hentry : EntryReordered entry entry') :
    composeLabelStatus entry.2 = composeLabelStatus entry'.2 := by
  simp only [composeLabelStatus, labelPair, namespaceHash, observedLabels, hentry.2.labels]

theorem eligibleAllRoot_reordered {record record' : ResourceObservation}
    (h : RecordReordered record record') (identity : ResourceIdentity)
    (reverse : Adjacency ResourceIdentity) (ownership : Option String) :
    eligibleAllRoot identity record reverse ownership =
      eligibleAllRoot identity record' reverse ownership := by
  have heligible : isEligibleUnpoddedContainer record = isEligibleUnpoddedContainer record' := by
    obtain ⟨_, details, _⟩ := record
    obtain ⟨_, details', _⟩ := record'
    cases h.details <;> rfl
  have hpodded : ((observedRelationships record).any fun relationships =>
        relationships.any fun relationship => relationship.kind == .pod) =
      (observedRelationships record').any fun relationships =>
        relationships.any fun relationship => relationship.kind == .pod := by
    rcases h.relationships with ⟨hnone, hnone', -⟩ | ⟨left, right, hleft, hright, hperm⟩
    · rw [hnone, hnone']
    · rw [hleft, hright]
      exact hperm.any_eq
  rw [eligibleAllRoot, eligibleAllRoot, heligible, hpodded]

section Records
variable {records records' : Records}
  (h : List.Forall₂ EntryReordered records.toList records'.toList)
include h

theorem keys_reordered : records.keys = records'.keys := by
  rw [← ExtTreeMap.map_fst_toList_eq_keys, ← ExtTreeMap.map_fst_toList_eq_keys]
  exact Returning.map_eq_map_of_forall₂ (h.imp fun _ _ hentry => hentry.1)

theorem answering_reordered (kind : ResourceKind) (reference : String) :
    (records.toList.filter (answersTo kind reference)).map Prod.fst =
      (records'.toList.filter (answersTo kind reference)).map Prod.fst := by
  refine filter_map_forall₂ h (fun entry entry' hentry => ?_) fun _ _ hentry => hentry.1
  have halias : observedImageAliasMatches entry.2 reference =
      observedImageAliasMatches entry'.2 reference := by
    obtain ⟨identity, ⟨_, details, _⟩⟩ := entry
    obtain ⟨identity', ⟨_, details', _⟩⟩ := entry'
    cases hentry.2.details <;> rfl
  rw [answersTo, answersTo, hentry.1, halias]

theorem resolveSelector_reordered : resolveSelector records = resolveSelector records' := by
  funext selector
  rw [resolveSelector, resolveSelector, answering_reordered h]

theorem resolveRelationshipReference_reordered :
    resolveRelationshipReference records = resolveRelationshipReference records' := by
  have hreferences : ∀ (kind : ResourceKind) (references : List String)
      (resolved : ExtTreeSet ResourceIdentity), resolveReferences records kind references resolved =
        resolveReferences records' kind references resolved := by
    intro kind references
    induction references with
    | nil => exact fun _ => rfl
    | cons reference rest ih =>
        intro resolved
        rw [resolveReferences, resolveReferences, resolveReferenceCount, resolveReferenceCount,
          answering_reordered h]
        split <;> simp only [ih]
  funext relationship
  exact hreferences _ _ _

theorem resolvePrefixSelector_reordered :
    resolvePrefixSelector records = resolvePrefixSelector records' := by
  funext selector
  rw [resolvePrefixSelector, resolvePrefixSelector, keys_reordered h]

theorem mem_records_reordered (id : ResourceIdentity) : id ∈ records ↔ id ∈ records' := by
  rw [← ExtTreeMap.mem_keys, ← ExtTreeMap.mem_keys, keys_reordered h]

theorem advisoryLabelFindings_reordered :
    advisoryLabelFindings records = advisoryLabelFindings records' := by
  rw [advisoryLabelFindings, advisoryLabelFindings]
  generalize records.toList = entries, records'.toList = entries' at h
  induction h with
  | nil => rfl
  | cons hentry _ ih =>
      rw [List.filterMap_cons, List.filterMap_cons, ih, composeLabelStatus_reordered hentry,
        hentry.1]

theorem composeOwnershipIndex_reordered :
    composeOwnershipIndex records = composeOwnershipIndex records' := by
  refine foldl_forall₂ h ?_ ∅ ∅ rfl
  rintro state _ entry entry' hentry rfl
  simp only [composeLabelStatus_reordered hentry, hentry.1]

/-- Relationships are collected alike from two orders. -/
theorem collectRecord_reordered {state state' : Collecting DependencyKey}
    {entry entry' : ResourceIdentity × ResourceObservation} (hentry : EntryReordered entry entry')
    (hstate : CollectingAlike state state') :
    CollectingAlike (collectRecord records state entry) (collectRecord records' state' entry') := by
  have hcollect : collectRelationship records = collectRelationship records' := by
    funext identity state relationship
    rw [collectRelationship, collectRelationship, resolveRelationshipReference_reordered h]
  rw [collectRecord, collectRecord, ← hcollect, ← hentry.1]
  rcases hentry.2.relationships with ⟨hnone, hnone', hsame⟩ | ⟨left, right, hleft, hright, hperm⟩
  · rw [hnone, hnone', ← hsame]
    by_cases hblocks : entry.2.relationships.any relationshipStateBlocksDiscovery = true
    · simp only [if_pos hblocks]
      exact ⟨hstate.1, List.Perm.append_right _ hstate.2⟩
    · simp only [if_neg hblocks]
      exact hstate
  · rw [hleft, hright]
    exact foldl_contributing collectRelationship_contributes hperm hstate

theorem collectDependencies_reordered :
    (collectDependencies records).1 = (collectDependencies records').1 ∧
      (collectDependencies records).2.Perm (collectDependencies records').2 := by
  have hcollected : CollectingAlike (records.toList.foldl (collectRecord records) .empty)
      (records'.toList.foldl (collectRecord records') .empty) :=
    foldl_forall₂ h (fun _ _ _ _ => collectRecord_reordered h) _ _
      (collectingAlike_equivalence.refl _)
  rw [collectDependencies, collectDependencies, hcollected.1]
  exact ⟨rfl, hcollected.2⟩

theorem groupingEdges_reordered (ownership : Ownership) (dependencies : List ResourceDependency) :
    (groupingEdges records ownership dependencies).1 =
      (groupingEdges records' ownership dependencies).1 ∧
      (groupingEdges records ownership dependencies).2.Perm
        (groupingEdges records' ownership dependencies).2 := by
  have hgroup : groupRelationship records = groupRelationship records' := by
    funext identity state relationship
    rw [groupRelationship, groupRelationship, resolveRelationshipReference_reordered h]
  have hmemberships : CollectingAlike
      (records.toList.foldl (fun state entry => ((observedRelationships entry.2).getD []).foldl
        (groupRelationship records entry.1) state) Collecting.empty)
      (records'.toList.foldl (fun state entry => ((observedRelationships entry.2).getD []).foldl
        (groupRelationship records' entry.1) state) Collecting.empty) := by
    refine foldl_forall₂ h ?_ _ _ (collectingAlike_equivalence.refl _)
    intro state state' entry entry' hentry hstate
    rw [← hgroup, ← hentry.1]
    have hperm : ((observedRelationships entry.2).getD []).Perm
        ((observedRelationships entry'.2).getD []) := by
      rcases hentry.2.relationships with ⟨hnone, hnone', -⟩ | ⟨left, right, hleft, hright, hperm⟩
      · rw [hnone, hnone']
      · rw [hleft, hright]
        exact hperm
    exact foldl_contributing groupRelationship_contributes hperm hstate
  have hprojects : membersByProject records ownership = membersByProject records' ownership := by
    simp only [membersByProject, mem_records_reordered h]
  rw [groupingEdges, groupingEdges, hprojects, hmemberships.1]
  exact ⟨rfl, hmemberships.2⟩

theorem selectRoots_reordered (ownership : Ownership) (reverse : Adjacency ResourceIdentity)
    (request : DiscoveryRequest) :
    selectRoots records ownership reverse request =
      selectRoots records' ownership reverse request := by
  have hroot : RootSelection.selectRoot records = RootSelection.selectRoot records' := by
    funext state entry
    rw [RootSelection.selectRoot, RootSelection.selectRoot, resolvePrefixSelector_reordered h,
      resolveSelector_reordered h]
  have hlabel : RootSelection.selectLabel records = RootSelection.selectLabel records' := by
    funext state entry
    have hcarrying : ((records.toList.filter fun found =>
          RootSelection.carriesLabel entry.1 found.2).map Prod.fst) =
        (records'.toList.filter fun found =>
          RootSelection.carriesLabel entry.1 found.2).map Prod.fst := by
      refine filter_map_forall₂ h (fun found found' hfound => ?_) fun _ _ hfound => hfound.1
      rw [RootSelection.carriesLabel, RootSelection.carriesLabel, observedLabels, observedLabels,
        hfound.2.labels]
    rw [RootSelection.selectLabel, RootSelection.selectLabel, hcarrying]
  rw [selectRoots, selectRoots, hroot, hlabel]
  refine congrArg (fun all : RootSelection => if request.all then all else _) ?_
  refine foldl_forall₂ h ?_ _ _ rfl
  rintro state _ entry entry' hentry rfl
  simp only [hentry.1, eligibleAllRoot_reordered hentry.2]

theorem resolveNetworkBoundaries_reordered (request : DiscoveryRequest) :
    resolveNetworkBoundaries records request = resolveNetworkBoundaries records' request := by
  rw [resolveNetworkBoundaries, resolveNetworkBoundaries, resolveSelector_reordered h]

end Records

section Inventories
variable {inventory inventory' : ResourceInventory}

theorem exists_of_mem_forall₂ {α β : Type} {related : α → β → Prop} {values : List α}
    {values' : List β} (h : List.Forall₂ related values values') {value : α}
    (hvalue : value ∈ values) : ∃ value' ∈ values', related value value' := by
  induction h with
  | nil => cases hvalue
  | cons hrelated _ ih =>
      rcases List.mem_cons.mp hvalue with rfl | hvalue
      · exact ⟨_, List.mem_cons_self, hrelated⟩
      · obtain ⟨value', hvalue', hrelated'⟩ := ih hvalue
        exact ⟨value', List.mem_cons_of_mem _ hvalue', hrelated'⟩

/-- Of resources that are listed once, the record of an identity is the one that has it. -/
theorem getElem?_records {listed : List ResourceObservation} {id : ResourceIdentity}
    {record : ResourceObservation} (hdistinct : (listed.map ResourceObservation.identity).Nodup)
    (hlisted : (inventory.sections.flatMap InventorySection.observations).Perm listed) :
    inventory.records[id]? = some record ↔ record ∈ listed ∧ record.identity = id := by
  have hagree : ∀ a ∈ inventory.sections.flatMap InventorySection.observations,
      ∀ b ∈ inventory.sections.flatMap InventorySection.observations, ∀ x y,
      some (a.identity, a) = some (id, x) → some (b.identity, b) = some (id, y) → x = y := by
    rintro a ha b hb _ _ ⟨⟩ hother
    obtain ⟨hid, rfl⟩ := Prod.mk.inj (Option.some.inj hother)
    exact List.inj_on_of_nodup_map hdistinct (hlisted.mem_iff.mp ha) (hlisted.mem_iff.mp hb) hid.symm
  rw [ResourceInventory.records, getElem?_insertAll_empty hagree]
  constructor
  · rintro ⟨found, hfound, hentry⟩
    obtain ⟨hid, rfl⟩ := Prod.mk.inj (Option.some.inj hentry)
    exact ⟨hlisted.mem_iff.mp hfound, hid⟩
  · rintro ⟨hrecord, rfl⟩
    exact ⟨record, hlisted.mem_iff.mpr hrecord, rfl⟩

/-- Entries with the same keys are related when what they hold is. -/
theorem forall₂_of_keys {κ ν : Type} {related : ν → ν → Prop} {entries entries' : List (κ × ν)}
    (hkeys : entries.map Prod.fst = entries'.map Prod.fst) (hdistinct : (entries.map Prod.fst).Nodup)
    (hrelated : ∀ entry ∈ entries, ∀ entry' ∈ entries', entry.1 = entry'.1 →
      related entry.2 entry'.2) :
    List.Forall₂ (fun entry entry' => entry.1 = entry'.1 ∧ related entry.2 entry'.2) entries
      entries' := by
  induction entries generalizing entries' with
  | nil =>
      rw [List.map_nil, eq_comm, List.map_eq_nil_iff] at hkeys
      rw [hkeys]
      exact .nil
  | cons entry rest ih =>
      cases entries' with
      | nil => cases hkeys
      | cons entry' rest' =>
          obtain ⟨hkey, hrest⟩ := List.cons.inj hkeys
          refine .cons ⟨hkey, hrelated entry List.mem_cons_self entry' List.mem_cons_self hkey⟩ ?_
          refine ih hrest (List.nodup_cons.mp hdistinct).2 fun found hfound found' hfound' => ?_
          exact hrelated found (List.mem_cons_of_mem _ hfound) found'
            (List.mem_cons_of_mem _ hfound')

theorem records_reordered (h : inventory.Reordered inventory') :
    List.Forall₂ EntryReordered inventory.records.toList inventory'.records.toList := by
  obtain ⟨hdistinct, listed, hperm, hlisted⟩ := h
  have hidentities : listed.map ResourceObservation.identity =
      (inventory'.sections.flatMap InventorySection.observations).map
        ResourceObservation.identity :=
    Returning.map_eq_map_of_forall₂ (hlisted.imp fun _ _ hrecord => hrecord.identity)
  have hnodup : (listed.map ResourceObservation.identity).Nodup :=
    (hperm.map _).nodup_iff.mp hdistinct
  have hfound : ∀ {id record}, inventory.records[id]? = some record ↔
      record ∈ listed ∧ record.identity = id := getElem?_records hnodup hperm
  have hfound' : ∀ {id record}, inventory'.records[id]? = some record ↔
      record ∈ inventory'.sections.flatMap InventorySection.observations ∧
        record.identity = id := getElem?_records (hidentities ▸ hnodup) (List.Perm.refl _)
  have hkeys : inventory.records.toList.map Prod.fst = inventory'.records.toList.map Prod.fst := by
    rw [ExtTreeMap.map_fst_toList_eq_keys, ExtTreeMap.map_fst_toList_eq_keys]
    refine eq_of_ordered ExtTreeMap.ordered_keys ExtTreeMap.ordered_keys fun id => ?_
    have hmem : id ∈ listed.map ResourceObservation.identity ↔
        id ∈ (inventory'.sections.flatMap InventorySection.observations).map
          ResourceObservation.identity := by rw [hidentities]
    simpa only [ExtTreeMap.mem_keys, ExtTreeMap.mem_iff_isSome_getElem?, Option.isSome_iff_exists,
      hfound, hfound', List.mem_map] using hmem
  refine forall₂_of_keys hkeys ?_ fun entry hentry entry' hentry' hkey => ?_
  · rw [ExtTreeMap.map_fst_toList_eq_keys]
    exact ExtTreeMap.nodup_keys
  · obtain ⟨hmem, hid⟩ := hfound.mp (ExtTreeMap.mem_toList_iff_getElem?_eq_some.mp hentry)
    obtain ⟨hmem', hid'⟩ := hfound'.mp (ExtTreeMap.mem_toList_iff_getElem?_eq_some.mp hentry')
    obtain ⟨found, hin, hreordered⟩ := exists_of_mem_forall₂ hlisted hmem
    have hsame : found = entry'.2 := List.inj_on_of_nodup_map (hidentities ▸ hnodup) hin hmem'
      (hreordered.identity.symm.trans (hid.trans (hkey.trans hid'.symm)))
    exact hsame ▸ hreordered

/-- What is discovered does not depend on the order of resources or of their relationships. -/
theorem discover_reordered (request : DiscoveryRequest) (h : inventory.Reordered inventory') :
    discover inventory request = discover inventory' request := by
  have hrecords := records_reordered h
  have hdependencies : inventory.dependencies = inventory'.dependencies :=
    (collectDependencies_reordered hrecords).1
  have hownership : inventory.ownership = inventory'.ownership :=
    composeOwnershipIndex_reordered hrecords
  have hreverse : inventory.reverse = inventory'.reverse := congrArg reverseDependencies hdependencies
  have hgrouping := groupingEdges_reordered hrecords inventory'.ownership inventory'.dependencies
  have hedges : inventory.groupingEdges = inventory'.groupingEdges := by
    rw [ResourceInventory.groupingEdges, hownership, hdependencies]
    exact hgrouping.1
  have hadjacency : inventory.adjacency = inventory'.adjacency := congrArg groupingAdjacency hedges
  have hselection : inventory.selection request = inventory'.selection request := by
    rw [ResourceInventory.selection, hownership, hreverse]
    exact selectRoots_reordered hrecords _ _ request
  have hseeded : inventory.seeded request = inventory'.seeded request := by
    rw [ResourceInventory.seeded, hselection, hreverse, ResourceInventory.seeded]
  have hboundaries := resolveNetworkBoundaries_reordered hrecords request
  have hnetworks : inventory.networkBoundaries request = inventory'.networkBoundaries request :=
    congrArg Prod.fst hboundaries
  have hexpansion : inventory.expansion request = inventory'.expansion request := by
    rw [ResourceInventory.expansion, hdependencies, hreverse, hadjacency, hnetworks, hseeded,
      ResourceInventory.expansion]
  have hgroups : inventory.groups request = inventory'.groups request := by
    rw [ResourceInventory.groups, hexpansion, hadjacency, hdependencies, ResourceInventory.groups]
  have hgrouped : inventory.grouped request = inventory'.grouped request := by
    rw [ResourceInventory.grouped, hgroups, ResourceInventory.grouped]
  have hkept : inventory.keptEdges request = inventory'.keptEdges request := by
    rw [ResourceInventory.keptEdges, hedges, hgrouped, ResourceInventory.keptEdges]
  have hfindings : inventory.discoveryFindings request = inventory'.discoveryFindings request := by
    rw [ResourceInventory.discoveryFindings, ResourceInventory.discoveryFindings, hselection,
      hboundaries, hnetworks, hexpansion, hownership, hdependencies,
      advisoryLabelFindings_reordered hrecords]
    refine sortDiscoveryFindings_perm ?_
    refine .append_right _ (.append_right _ (.append_right _ ?_))
    exact .append (.append_left _ (collectDependencies_reordered hrecords).2) hgrouping.2
  have hexplanations : inventory.explanations request = inventory'.explanations request := by
    rw [ResourceInventory.explanations, hselection, hgroups, hkept, hseeded, hexpansion, hreverse,
      ResourceInventory.explanations]
  simp only [discover, hselection, hgroups, hgrouped, hkept, hdependencies, hfindings,
    hexplanations]

def webRelationships : List NativeRelationship :=
  [⟨.network, ["front"], ["Networks.front"]⟩, ⟨.container, ["api"], ["Dependencies"]⟩]

theorem apiContainer_kind : apiContainer.kind = .container := rfl

/-- A container that needs a network and another container. -/
def listedInventory : ResourceInventory :=
  ⟨[⟨.container, [observedContainer webContainer webRelationships webContainer_kind,
      observedContainer apiContainer [] apiContainer_kind]⟩,
    ⟨.network, [⟨frontNetwork, .network ⟨.absent⟩, frontNetwork_kind⟩]⟩]⟩

/-- The sections, the containers and the relationships in the other order. -/
def reversedInventory : ResourceInventory :=
  ⟨[⟨.network, [⟨frontNetwork, .network ⟨.absent⟩, frontNetwork_kind⟩]⟩,
    ⟨.container, [observedContainer apiContainer [] apiContainer_kind,
      observedContainer webContainer webRelationships.reverse webContainer_kind]⟩]⟩

theorem discover_reordered_sample :
    discover listedInventory sampleRequest = discover reversedInventory sampleRequest := by
  have hperm : (listedInventory.sections.flatMap InventorySection.observations).Perm
      (listedInventory.sections.flatMap InventorySection.observations).reverse :=
    (List.reverse_perm _).symm
  have hsame (record : ResourceObservation) : RecordReordered record record := ⟨rfl, .same _⟩
  have hweb : RecordReordered (observedContainer webContainer webRelationships webContainer_kind)
      (observedContainer webContainer webRelationships.reverse webContainer_kind) :=
    ⟨rfl, .container _ _ (.observed _ (List.reverse_perm _).symm)⟩
  exact discover_reordered sampleRequest ⟨by decide +kernel, _, hperm,
    .cons (hsame _) (.cons (hsame _) (.cons hweb .nil))⟩

end Inventories

end PodmanLens
