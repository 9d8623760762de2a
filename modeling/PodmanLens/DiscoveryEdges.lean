import PodmanLens.DiscoveryMembers
import PodmanLens.NativeRelationships

/-!
# Where edges and findings come from

Every pass over the records adds edges and findings without removing any, so each is traced to one
relationship of one record: a dependency edge to a relationship that resolves, a grouping edge to
pod membership, a dependency between containers or a shared Compose project, and a finding to a
relationship that does not resolve.
-/

namespace PodmanLens
open Std TreeEntries Closure

/-- What a fold holds at its end it held at the start or was given by one step. -/
theorem foldl_or_iff {σ ι : Type} {step : σ → ι → σ} (holds : σ → Prop) {adds : ι → Prop}
    (hstep : ∀ state value, holds (step state value) ↔ holds state ∨ adds value)
    (values : List ι) (state : σ) :
    holds (values.foldl step state) ↔ holds state ∨ ∃ value ∈ values, adds value := by
  induction values generalizing state with
  | nil => simp
  | cons value rest ih => rw [List.foldl_cons, ih, hstep, List.exists_mem_cons_iff, or_assoc]

section Paths
variable {κ : Type} [Ord κ] [TransOrd κ] [LawfulEqOrd κ]
  {paths : ExtTreeMap κ (ExtTreeSet String)} {key other : κ} {fieldPaths : List String}

theorem mem_extendPaths : other ∈ extendPaths paths key fieldPaths ↔ other ∈ paths ∨ key = other := by
  rw [extendPaths, ExtTreeMap.mem_alter]
  split_ifs with h
  · simp [Std.compare_eq_iff_eq.mp h]
  · have hne : key ≠ other := fun heq => h (Std.compare_eq_iff_eq.mpr heq)
    simp [hne]

/-- Every key was stored with some path. -/
def PathsKept (paths : ExtTreeMap κ (ExtTreeSet String)) : Prop :=
  ∀ (key : κ) (found : ExtTreeSet String), paths[key]? = some found → found.toList ≠ []

omit [LawfulEqOrd κ] in
theorem PathsKept.extend (h : PathsKept paths) (hpaths : fieldPaths ≠ []) :
    PathsKept (extendPaths paths key fieldPaths) := by
  intro other found hfound
  rw [extendPaths, ExtTreeMap.getElem?_alter] at hfound
  split_ifs at hfound with heq
  · cases hfound
    obtain ⟨path, hpath⟩ := List.exists_mem_of_ne_nil _ hpaths
    exact List.ne_nil_of_mem (ExtTreeSet.mem_toList.mpr (mem_extend.mpr (Or.inr hpath)))
  · exact h other found hfound

end Paths

section Dependencies
variable {records : Records} {identity prerequisite : ResourceIdentity}
  {relationship : NativeRelationship} {state : Collecting DependencyKey}

/-- The relationship becomes a dependency edge: pods do not depend on their members. -/
def Requires (records : Records) (identity : ResourceIdentity) (relationship : NativeRelationship)
    (prerequisite : ResourceIdentity) : Prop :=
  ¬(identity.kind = .pod ∧ relationship.kind = .container) ∧
    resolveRelationshipReference records relationship = .one prerequisite

/-- The relationship is reported under `code`. -/
def Reports (records : Records) (identity : ResourceIdentity) (relationship : NativeRelationship)
    (code : DiagnosticCode) : Prop :=
  ¬(identity.kind = .pod ∧ relationship.kind = .container) ∧
    (resolveRelationshipReference records relationship).code = some code

theorem mem_collectRelationship {key : DependencyKey} (state : Collecting DependencyKey)
    (relationship : NativeRelationship) :
    key ∈ (collectRelationship records identity state relationship).paths ↔
      key ∈ state.paths ∨ (key.1 = identity ∧ Requires records identity relationship key.2) := by
  rw [collectRelationship, Requires]
  split_ifs with hmember
  · simp [hmember]
  · split
    · next found hone =>
        rw [mem_extendPaths, hone]
        apply or_congr_right
        simp only [hmember, not_false_eq_true, true_and,
          RelationshipReferenceResolution.one.injEq]
        constructor
        · rintro rfl
          exact ⟨rfl, rfl⟩
        · rintro ⟨hidentity, hfound⟩
          exact Prod.ext hidentity.symm hfound
    · next hnone =>
        constructor
        · exact Or.inl
        · rintro (h | ⟨-, -, hone⟩)
          · exact h
          · exact absurd hone (hnone _)

theorem mem_collectRelationship_findings {finding : DiscoveryFinding}
    (state : Collecting DependencyKey) (relationship : NativeRelationship) :
    finding ∈ (collectRelationship records identity state relationship).findings ↔
      finding ∈ state.findings ∨ ∃ code, Reports records identity relationship code ∧
        ∃ path ∈ relationship.fieldPaths, finding = .forResource code identity (some path) := by
  rw [collectRelationship]
  split_ifs with hmember
  · simp [Reports, hmember]
  · split
    · next found hone => simp [Reports, hone, RelationshipReferenceResolution.code]
    · next hnone =>
        simp only [Reports, hmember, not_false_eq_true, true_and, List.mem_append,
          List.mem_flatMap, Option.mem_toList, List.mem_map, @eq_comm _ _ finding]

theorem PathsKept.collectRelationship (h : PathsKept state.paths) (hsourced : relationship.Sourced) :
    PathsKept (collectRelationship records identity state relationship).paths := by
  rw [PodmanLens.collectRelationship]
  split_ifs
  · exact h
  · split
    · exact h.extend hsourced.fieldPaths
    · exact h

/-- A relationship that the record observes. -/
def Observes (record : ResourceObservation) (relationship : NativeRelationship) : Prop :=
  ∃ relationships, observedRelationships record = some relationships ∧
    relationship ∈ relationships

theorem observes_iff {record : ResourceObservation} :
    Observes record relationship ↔ relationship ∈ (observedRelationships record).getD [] := by
  rw [Observes]
  cases observedRelationships record <;> simp

theorem mem_collectRecord {key : DependencyKey} (state : Collecting DependencyKey)
    (entry : ResourceIdentity × ResourceObservation) :
    key ∈ (collectRecord records state entry).paths ↔ key ∈ state.paths ∨
      ∃ relationship, Observes entry.2 relationship ∧ key.1 = entry.1 ∧
        Requires records entry.1 relationship key.2 := by
  rw [collectRecord]
  split
  · next relationships hsome =>
      refine Iff.trans (foldl_or_iff (fun state : Collecting DependencyKey => key ∈ state.paths)
        mem_collectRelationship _ _) ?_
      simp [Observes, hsome]
  · next hnone => split_ifs <;> simp [Observes, hnone]

theorem mem_collectRecord_findings {finding : DiscoveryFinding} (state : Collecting DependencyKey)
    (entry : ResourceIdentity × ResourceObservation) :
    finding ∈ (collectRecord records state entry).findings ↔ finding ∈ state.findings ∨
      (∃ relationship, Observes entry.2 relationship ∧ ∃ code,
        Reports records entry.1 relationship code ∧ ∃ path ∈ relationship.fieldPaths,
          finding = .forResource code entry.1 (some path)) ∨
      (entry.2.relationships.any relationshipStateBlocksDiscovery = true ∧
        finding = .forResource .relationshipConflict entry.1 none) := by
  rw [collectRecord]
  split
  · next relationships hsome =>
      have hblocked : ¬entry.2.relationships.any relationshipStateBlocksDiscovery = true := by
        intro hblocked
        rw [observedRelationships] at hsome
        cases hfield : entry.2.relationships with
        | none => simp [hfield] at hsome
        | some field =>
            rw [hfield] at hsome hblocked
            cases field <;> simp_all [ObservationField.toOption, relationshipStateBlocksDiscovery]
      refine Iff.trans (foldl_or_iff
        (fun state : Collecting DependencyKey => finding ∈ state.findings)
        mem_collectRelationship_findings _ _) ?_
      simp [Observes, hsome, hblocked]
  · next hnone => split_ifs with hblocked <;> simp [Observes, hnone, hblocked]

theorem PathsKept.collectRecord {entry : ResourceIdentity × ResourceObservation}
    (h : PathsKept state.paths)
    (hsourced : ∀ relationship, Observes entry.2 relationship → relationship.Sourced) :
    PathsKept (collectRecord records state entry).paths := by
  rw [PodmanLens.collectRecord]
  split
  · next relationships hsome =>
      refine List.foldlRecOn (motive := fun state : Collecting DependencyKey =>
        PathsKept state.paths) relationships _ h fun _ hstate relationship hmem => ?_
      exact hstate.collectRelationship (hsourced relationship ⟨relationships, hsome, hmem⟩)
  · split_ifs <;> exact h

end Dependencies

section Inventory
variable {inventory : ResourceInventory} {a b : ResourceIdentity}

/-- The record of the resource observes the relationship. -/
def Asserts (inventory : ResourceInventory) (id : ResourceIdentity)
    (relationship : NativeRelationship) : Prop :=
  ∃ record, inventory.records[id]? = some record ∧ Observes record relationship

theorem mem_toList_records {entry : ResourceIdentity × ResourceObservation} :
    entry ∈ inventory.records.toList ↔ inventory.records[entry.1]? = some entry.2 :=
  ExtTreeMap.mem_toList_iff_getElem?_eq_some

/-- One resource depends on another exactly when one of its relationships resolves to it. -/
theorem consumes_iff : Consumes inventory a b ↔
    ∃ relationship, Asserts inventory a relationship ∧ Requires inventory.records a relationship b := by
  have hkey : Consumes inventory a b ↔ (a, b) ∈ (inventory.records.toList.foldl
      (collectRecord inventory.records) .empty).paths := by
    simp only [Consumes, ResourceInventory.dependencies, collectDependencies, List.mem_map,
      exists_exists_and_eq_and, ExtTreeMap.mem_iff_isSome_getElem?, Option.isSome_iff_exists]
    constructor
    · rintro ⟨⟨⟨_, _⟩, found⟩, hfound, rfl, rfl⟩
      exact ⟨found, ExtTreeMap.mem_toList_iff_getElem?_eq_some.mp hfound⟩
    · rintro ⟨found, hfound⟩
      exact ⟨((a, b), found), ExtTreeMap.mem_toList_iff_getElem?_eq_some.mpr hfound, rfl, rfl⟩
  rw [hkey]
  refine Iff.trans (foldl_or_iff (fun state : Collecting DependencyKey => (a, b) ∈ state.paths)
    mem_collectRecord _ _) ?_
  simp only [Collecting.empty, ExtTreeMap.not_mem_empty, false_or, mem_toList_records, Asserts]
  constructor
  · rintro ⟨entry, hentry, relationship, hobserves, rfl, hrequires⟩
    exact ⟨relationship, ⟨entry.2, hentry, hobserves⟩, hrequires⟩
  · rintro ⟨relationship, ⟨record, hrecord, hobserves⟩, hrequires⟩
    exact ⟨(a, record), hrecord, relationship, hobserves, rfl, hrequires⟩

/-- Exactly the relationships that do not resolve and the undecoded fields are reported. -/
theorem mem_dependencyFindings {finding : DiscoveryFinding} :
    finding ∈ (collectDependencies inventory.records).2 ↔
      ∃ id record, inventory.records[id]? = some record ∧
        ((∃ relationship, Observes record relationship ∧ ∃ code,
          Reports inventory.records id relationship code ∧ ∃ path ∈ relationship.fieldPaths,
            finding = .forResource code id (some path)) ∨
        (record.relationships.any relationshipStateBlocksDiscovery = true ∧
          finding = .forResource .relationshipConflict id none)) := by
  refine Iff.trans (foldl_or_iff
    (fun state : Collecting DependencyKey => finding ∈ state.findings)
    mem_collectRecord_findings _ _) ?_
  simp only [Collecting.empty, List.not_mem_nil, false_or, mem_toList_records, Prod.exists]

/-- Sourced relationships leave a path on every dependency edge. -/
theorem fieldPaths_ne_nil (hsourced : ∀ id relationship, Asserts inventory id relationship →
    relationship.Sourced) {edge : ResourceDependency} (hedge : edge ∈ inventory.dependencies) :
    edge.fieldPaths ≠ [] := by
  have hkept : PathsKept (inventory.records.toList.foldl
      (collectRecord inventory.records) .empty).paths := by
    refine List.foldlRecOn (motive := fun state : Collecting DependencyKey =>
      PathsKept state.paths) _ _ ?_ fun state hstate entry hentry => ?_
    · intro key found hfound
      simp [Collecting.empty] at hfound
    · exact hstate.collectRecord fun relationship hobserves =>
        hsourced entry.1 relationship ⟨entry.2, mem_toList_records.mp hentry, hobserves⟩
  obtain ⟨entry, hentry, rfl⟩ := List.mem_map.mp hedge
  exact hkept entry.1 entry.2 (ExtTreeMap.mem_toList_iff_getElem?_eq_some.mp hentry)

end Inventory

section Grouping
variable {paths : ExtTreeMap GroupingKey (ExtTreeSet String)} {a b : ResourceIdentity}

/-- The two resources, in either order. -/
def Ends (left right a b : ResourceIdentity) : Prop :=
  (left = a ∧ right = b) ∨ (left = b ∧ right = a)

def JoinedBy (paths : ExtTreeMap GroupingKey (ExtTreeSet String)) (a b : ResourceIdentity) : Prop :=
  ∃ key ∈ paths, Ends key.1 key.2.1 a b

theorem joinedBy_extendPaths {key : GroupingKey} {fieldPaths : List String} :
    JoinedBy (extendPaths paths key fieldPaths) a b ↔
      JoinedBy paths a b ∨ Ends key.1 key.2.1 a b := by
  simp only [JoinedBy, mem_extendPaths, or_and_right, exists_or, exists_eq_left']

theorem joinedBy_insertGroupingEdge (paths : ExtTreeMap GroupingKey (ExtTreeSet String))
    (left right : ResourceIdentity) (evidence : GroupingEvidence) (fieldPath : Option String) :
    JoinedBy (insertGroupingEdge paths left right evidence fieldPath) a b ↔
      JoinedBy paths a b ∨ (left ≠ right ∧ Ends left right a b) := by
  rw [insertGroupingEdge]
  split_ifs with hsame hlt
  · simp [hsame]
  · simp [joinedBy_extendPaths, hsame]
  · simp [joinedBy_extendPaths, hsame, Ends, or_comm, and_comm]

theorem joinedBy_groupRelationship {records : Records} {identity : ResourceIdentity}
    (state : Collecting GroupingKey) (relationship : NativeRelationship) :
    JoinedBy (groupRelationship records identity state relationship).paths a b ↔
      JoinedBy state.paths a b ∨ (isMembership identity.kind relationship.kind = true ∧
        ∃ member, resolveRelationshipReference records relationship = .one member ∧
          identity ≠ member ∧ Ends identity member a b) := by
  rw [groupRelationship]
  split_ifs with hmembership hpod
  · split
    · next member hone =>
        simp [joinedBy_insertGroupingEdge, hmembership, hone]
    · next hnone =>
        simp only [hmembership, true_and]
        constructor
        · exact Or.inl
        · rintro (h | ⟨member, hone, -⟩)
          · exact h
          · exact absurd hone (hnone member)
  · split
    · next member hone =>
        simp [joinedBy_insertGroupingEdge, hmembership, hone]
    · next hnone =>
        simp only [hmembership, true_and]
        constructor
        · exact Or.inl
        · rintro (h | ⟨member, hone, -⟩)
          · exact h
          · exact absurd hone (hnone member)
  · simp [hmembership]

theorem joinedBy_groupDependency (paths : ExtTreeMap GroupingKey (ExtTreeSet String))
    (edge : ResourceDependency) :
    JoinedBy (groupDependency paths edge) a b ↔ JoinedBy paths a b ∨
      (edge.dependent.kind = .container ∧ edge.prerequisite.kind = .container ∧
        edge.fieldPaths ≠ [] ∧ edge.dependent ≠ edge.prerequisite ∧
          Ends edge.dependent edge.prerequisite a b) := by
  rw [groupDependency]
  split_ifs with hkinds
  · refine Iff.trans (foldl_or_iff (fun paths => JoinedBy paths a b)
      (fun paths path => joinedBy_insertGroupingEdge paths _ _ _ (some path)) _ _) ?_
    simp only [hkinds, true_and, exists_and_right, ne_eq, List.eq_nil_iff_forall_not_mem,
      not_forall, not_not]
  · rw [not_and] at hkinds
    simp only [iff_self_or]
    exact fun h => absurd h.2.1 (hkinds h.1)

theorem joinedBy_groupProject (paths : ExtTreeMap GroupingKey (ExtTreeSet String))
    (project : String) (members : List ResourceIdentity) :
    JoinedBy (groupProject project members paths) a b ↔
      JoinedBy paths a b ∨ (a ≠ b ∧ a ∈ members ∧ b ∈ members) := by
  induction members generalizing paths with
  | nil => simp [groupProject]
  | cons left rest ih =>
      have hfold : JoinedBy (rest.foldl (fun paths right =>
          insertGroupingEdge paths left right (.composeOwnership project) none) paths) a b ↔
          JoinedBy paths a b ∨ ∃ right ∈ rest, left ≠ right ∧ Ends left right a b :=
        foldl_or_iff (fun paths => JoinedBy paths a b)
          (fun paths right => joinedBy_insertGroupingEdge paths left right _ none) _ _
      rw [groupProject, ih, hfold]
      simp only [Ends, List.mem_cons]
      grind

/-- The members of a project are its owned containers and pods. -/
theorem mem_membersByProject {records : Records} {ownership : Ownership} {project : String}
    {id : ResourceIdentity} :
    id ∈ (membersByProject records ownership)[project]?.getD [] ↔
      ownership[id]? = some project ∧ (id.kind = .container ∨ id.kind = .pod) ∧ id ∈ records := by
  have hstep (projects : ExtTreeMap String (List ResourceIdentity))
      (entry : ResourceIdentity × String) :
      id ∈ (if (entry.1.kind = .container ∨ entry.1.kind = .pod) ∧ entry.1 ∈ records then
          projects.alter entry.2 fun members => some (members.getD [] ++ [entry.1])
        else projects)[project]?.getD [] ↔ id ∈ projects[project]?.getD [] ∨
          (entry = (id, project) ∧ (id.kind = .container ∨ id.kind = .pod) ∧ id ∈ records) := by
    obtain ⟨owned, owner⟩ := entry
    split_ifs with howned
    · rw [ExtTreeMap.getElem?_alter]
      split_ifs with howner
      · obtain rfl := Std.compare_eq_iff_eq.mp howner
        rw [Option.getD_some, List.mem_append, List.mem_singleton]
        apply or_congr_right
        constructor
        · rintro rfl
          exact ⟨rfl, howned⟩
        · rintro ⟨heq, -⟩
          exact (congrArg Prod.fst heq).symm
      · have hne : owner ≠ project := fun heq => howner (Std.compare_eq_iff_eq.mpr heq)
        simp [hne]
    · constructor
      · exact Or.inl
      · rintro (h | ⟨heq, hmember⟩)
        · exact h
        · obtain ⟨rfl, rfl⟩ := Prod.mk.inj heq
          exact absurd hmember howned
  refine Iff.trans (foldl_or_iff (fun projects : ExtTreeMap String (List ResourceIdentity) =>
    id ∈ projects[project]?.getD []) hstep _ _) ?_
  simp [ExtTreeMap.mem_toList_iff_getElem?_eq_some]

end Grouping

section Joined
variable {inventory : ResourceInventory} {a b : ResourceIdentity}

/-- One resource asserts pod membership of itself in the other, or of the other in itself. -/
def Belongs (inventory : ResourceInventory) (a b : ResourceIdentity) : Prop :=
  ∃ relationship, Asserts inventory a relationship ∧
    isMembership a.kind relationship.kind = true ∧
      resolveRelationshipReference inventory.records relationship = .one b

/-- A container depends on another container. -/
def Chained (inventory : ResourceInventory) (a b : ResourceIdentity) : Prop :=
  ∃ edge ∈ inventory.dependencies, edge.dependent = a ∧ edge.prerequisite = b ∧
    a.kind = .container ∧ b.kind = .container ∧ edge.fieldPaths ≠ []

/-- A container or pod of the Compose project. -/
def OwnedBy (inventory : ResourceInventory) (project : String) (id : ResourceIdentity) : Prop :=
  inventory.ownership[id]? = some project ∧ (id.kind = .container ∨ id.kind = .pod) ∧
    id ∈ inventory.records

theorem joinedBy_memberships :
    JoinedBy (inventory.records.toList.foldl (fun state entry =>
        ((observedRelationships entry.2).getD []).foldl
          (groupRelationship inventory.records entry.1) state) Collecting.empty).paths a b ↔
      a ≠ b ∧ (Belongs inventory a b ∨ Belongs inventory b a) := by
  have hrecord (state : Collecting GroupingKey) (entry : ResourceIdentity × ResourceObservation) :
      JoinedBy (((observedRelationships entry.2).getD []).foldl
        (groupRelationship inventory.records entry.1) state).paths a b ↔
      JoinedBy state.paths a b ∨ ∃ relationship ∈ (observedRelationships entry.2).getD [],
        isMembership entry.1.kind relationship.kind = true ∧
          ∃ member, resolveRelationshipReference inventory.records relationship = .one member ∧
            entry.1 ≠ member ∧ Ends entry.1 member a b :=
    foldl_or_iff (fun state : Collecting GroupingKey => JoinedBy state.paths a b)
      joinedBy_groupRelationship _ state
  refine Iff.trans (foldl_or_iff (fun state : Collecting GroupingKey => JoinedBy state.paths a b)
    hrecord _ _) ?_
  simp only [JoinedBy, Collecting.empty, ExtTreeMap.not_mem_empty, false_and, exists_false,
    false_or, mem_toList_records, ← observes_iff, Belongs, Asserts, Ends]
  constructor
  · rintro ⟨entry, hentry, relationship, hobserves, hkinds, member, hone, hne, hends⟩
    rcases hends with ⟨rfl, rfl⟩ | ⟨rfl, rfl⟩
    · exact ⟨hne, Or.inl ⟨relationship, ⟨entry.2, hentry, hobserves⟩, hkinds, hone⟩⟩
    · exact ⟨hne.symm, Or.inr ⟨relationship, ⟨entry.2, hentry, hobserves⟩, hkinds, hone⟩⟩
  · rintro ⟨hne, ⟨relationship, ⟨record, hrecord, hobserves⟩, hkinds, hone⟩ |
      ⟨relationship, ⟨record, hrecord, hobserves⟩, hkinds, hone⟩⟩
    · exact ⟨(a, record), hrecord, relationship, hobserves, hkinds, b, hone, hne,
        Or.inl ⟨rfl, rfl⟩⟩
    · exact ⟨(b, record), hrecord, relationship, hobserves, hkinds, a, hone, hne.symm,
        Or.inr ⟨rfl, rfl⟩⟩

theorem joined_iff_joinedBy {paths : ExtTreeMap GroupingKey (ExtTreeSet String)}
    (hedges : inventory.groupingEdges = paths.toList.map fun entry =>
      ⟨entry.1.1, entry.1.2.1, entry.1.2.2, entry.2.toList⟩) :
    Joined inventory a b ↔ JoinedBy paths a b := by
  simp only [Joined, hedges, List.mem_map, exists_exists_and_eq_and, JoinedBy,
    ExtTreeMap.mem_iff_isSome_getElem?, Option.isSome_iff_exists, GroupingEdge.Joins, Ends]
  constructor
  · rintro ⟨entry, hentry, hends⟩
    exact ⟨entry.1, ⟨entry.2, ExtTreeMap.mem_toList_iff_getElem?_eq_some.mp hentry⟩, hends⟩
  · rintro ⟨key, ⟨found, hfound⟩, hends⟩
    exact ⟨(key, found), ExtTreeMap.mem_toList_iff_getElem?_eq_some.mpr hfound, hends⟩

/-- Two resources are grouped directly by pod membership, by a dependency between containers, or by
a shared Compose project. -/
theorem joined_iff : Joined inventory a b ↔ a ≠ b ∧ (Belongs inventory a b ∨ Belongs inventory b a ∨
    Chained inventory a b ∨ Chained inventory b a ∨
      ∃ project, OwnedBy inventory project a ∧ OwnedBy inventory project b) := by
  have hchained : (∃ edge ∈ inventory.dependencies, edge.dependent.kind = .container ∧
      edge.prerequisite.kind = .container ∧ edge.fieldPaths ≠ [] ∧
        edge.dependent ≠ edge.prerequisite ∧ Ends edge.dependent edge.prerequisite a b) ↔
      a ≠ b ∧ (Chained inventory a b ∨ Chained inventory b a) := by
    constructor
    · rintro ⟨edge, hedge, hleft, hright, hpaths, hne, ⟨rfl, rfl⟩ | ⟨rfl, rfl⟩⟩
      · exact ⟨hne, Or.inl ⟨edge, hedge, rfl, rfl, hleft, hright, hpaths⟩⟩
      · exact ⟨hne.symm, Or.inr ⟨edge, hedge, rfl, rfl, hleft, hright, hpaths⟩⟩
    · rintro ⟨hne, ⟨edge, hedge, rfl, rfl, hleft, hright, hpaths⟩ |
        ⟨edge, hedge, rfl, rfl, hleft, hright, hpaths⟩⟩
      · exact ⟨edge, hedge, hleft, hright, hpaths, hne, Or.inl ⟨rfl, rfl⟩⟩
      · exact ⟨edge, hedge, hleft, hright, hpaths, hne.symm, Or.inr ⟨rfl, rfl⟩⟩
  have howned : (∃ entry ∈ (membersByProject inventory.records inventory.ownership).toList,
      a ≠ b ∧ a ∈ entry.2 ∧ b ∈ entry.2) ↔
      a ≠ b ∧ ∃ project, OwnedBy inventory project a ∧ OwnedBy inventory project b := by
    simp only [OwnedBy, ← mem_membersByProject]
    constructor
    · rintro ⟨entry, hentry, hne, ha, hb⟩
      rw [ExtTreeMap.mem_toList_iff_getElem?_eq_some] at hentry
      refine ⟨hne, entry.1, ?_, ?_⟩
      · rwa [hentry]
      · rwa [hentry]
    · rintro ⟨hne, project, ha, hb⟩
      cases hproject : (membersByProject inventory.records inventory.ownership)[project]? with
      | none => simp [hproject] at ha
      | some members =>
          rw [hproject] at ha hb
          exact ⟨(project, members), ExtTreeMap.mem_toList_iff_getElem?_eq_some.mpr hproject,
            hne, ha, hb⟩
  refine (joined_iff_joinedBy rfl).trans ?_
  refine (foldl_or_iff (fun paths => JoinedBy paths a b)
    (fun paths entry => joinedBy_groupProject paths entry.1 entry.2) _ _).trans ?_
  refine (or_congr_left (foldl_or_iff (fun paths => JoinedBy paths a b)
    joinedBy_groupDependency _ _)).trans ?_
  rw [joinedBy_memberships, hchained, howned, ← and_or_left, ← and_or_left, or_assoc, or_assoc,
    or_assoc]

end Joined

end PodmanLens
