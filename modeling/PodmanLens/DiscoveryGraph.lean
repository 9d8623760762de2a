import PodmanLens.Closure
import PodmanLens.DiscoveryRequest

/-!
# Dependency and grouping edges

Directed dependency edges come from resolved native relationships, undirected grouping edges from
pod membership, container dependencies and agreeing Compose ownership labels. What does not resolve
is reported. Edges are keyed by their ends and evidence and collect every source path.
-/

namespace PodmanLens
open Std TreeEntries Closure

structure DiscoveryFinding where
  code : DiagnosticCode
  resource : Option ResourceIdentity
  selector : Option ResourceSelector
  labelSelector : Option LabelSelector
  fieldPath : Option String
  deriving DecidableEq

namespace DiscoveryFinding

def forResource (code : DiagnosticCode) (resource : ResourceIdentity)
    (fieldPath : Option String) : DiscoveryFinding :=
  { code, resource := some resource, selector := none, labelSelector := none, fieldPath }

def forSelector (code : DiagnosticCode) (selector : ResourceSelector) : DiscoveryFinding :=
  { code, resource := none, selector := some selector, labelSelector := none, fieldPath := none }

def forLabelSelector (code : DiagnosticCode) (selector : LabelSelector) : DiscoveryFinding :=
  { code, resource := none, selector := none, labelSelector := some selector, fieldPath := none }

end DiscoveryFinding

def findingOrder (left right : DiscoveryFinding) : Ordering :=
  (compare left.code.asStr right.code.asStr).then <|
    (compare left.resource right.resource).then <|
    (compare left.selector right.selector).then <|
    (compare left.labelSelector right.labelSelector).then
    (compare left.fieldPath right.fieldPath)

section Compose

def dockerProject : String := "com.docker.compose.project"
def dockerService : String := "com.docker.compose.service"
def podmanProject : String := "io.podman.compose.project"
def podmanService : String := "io.podman.compose.service"
def dockerConfigHash : String := "com.docker.compose.config-hash"
def podmanConfigHash : String := "io.podman.compose.config-hash"

def labelPair (record : ResourceObservation) (project service : String) :
    PodmanLensResult (Option (String × String)) :=
  match record.labels with
  | .absent => .ok none
  | .observed labels =>
    match labels.value[project]?, labels.value[service]? with
    | none, none => .ok none
    | some project, some service =>
      if project.isEmpty || service.isEmpty then .error .advisoryLabelIncomplete
      else .ok (some (project, service))
    | _, _ => .error .advisoryLabelIncomplete
  | _ => .error .advisoryLabelIncomplete

def namespaceHash (record : ResourceObservation) (key : String) (namespacePresent : Bool) :
    PodmanLensResult (Option String) :=
  match (observedLabels record).bind fun labels => labels[key]? with
  | none => .ok none
  | some value =>
    if !namespacePresent then .error .advisoryLabelIncomplete
    else if value.isEmpty then .error .advisoryLabelIncomplete
    else .ok (some value)

/-- The Compose project a record belongs to when its label namespaces are complete and agree. -/
def composeLabelStatus (record : ResourceObservation) : PodmanLensResult (Option String) := do
  let docker ← labelPair record dockerProject dockerService
  let podman ← labelPair record podmanProject podmanService
  let dockerHash ← namespaceHash record dockerConfigHash docker.isSome
  let podmanHash ← namespaceHash record podmanConfigHash podman.isSome
  match docker, podman with
  | none, none => .ok none
  | some docker, some podman =>
    if docker.1 = podman.1 ∧ docker.2 = podman.2 then
      if dockerHash.isSome ∧ podmanHash.isSome ∧ dockerHash ≠ podmanHash then
        .error .advisoryLabelConflict
      else .ok (some docker.1)
    else .error .advisoryLabelConflict
  | some pair, none | none, some pair => .ok (some pair.1)

def advisoryLabelFindings (records : Records) : List DiscoveryFinding :=
  records.toList.filterMap fun entry =>
    match composeLabelStatus entry.2 with
    | .error code => some (.forResource code entry.1 none)
    | .ok _ => none

abbrev Ownership := ExtTreeMap ResourceIdentity String

def composeOwnershipIndex (records : Records) : Ownership :=
  insertAll (fun entry : ResourceIdentity × ResourceObservation =>
    match composeLabelStatus entry.2 with
    | .ok (some project) => some (entry.1, project)
    | _ => none) records.toList ∅

end Compose

section Relationships

inductive RelationshipReferenceResolution
  | none
  | one (identity : ResourceIdentity)
  | many
  | conflict
  deriving DecidableEq

def RelationshipReferenceResolution.ofResolved :
    List ResourceIdentity → RelationshipReferenceResolution
  | [identity] => .one identity
  | [] => .none
  | _ => .conflict

/-- Resolves references in order, stopping at the first that is missing or ambiguous. -/
def resolveReferences (records : Records) (kind : ResourceKind) :
    List String → ExtTreeSet ResourceIdentity → RelationshipReferenceResolution
  | [], resolved => .ofResolved resolved.toList
  | reference :: rest, resolved =>
    match resolveReferenceCount records kind reference with
    | .one identity => resolveReferences records kind rest (resolved.insert identity)
    | .none => .none
    | .many => .many

def resolveRelationshipReference (records : Records) (relationship : NativeRelationship) :
    RelationshipReferenceResolution :=
  resolveReferences records relationship.kind relationship.references ∅

def RelationshipReferenceResolution.code : RelationshipReferenceResolution → Option DiagnosticCode
  | .one _ => Option.none
  | .none => some .unresolvedRelationship
  | .many => some .relationshipAmbiguous
  | .conflict => some .relationshipConflict

/-- A field that is neither absent nor observed blocks discovery of relationships. -/
def relationshipStateBlocksDiscovery (field : ObservationField (List NativeRelationship)) : Bool :=
  match field with
  | .unavailable | .malformed | .versionInapplicable | .notApplicable | .unmodelled _ => true
  | .absent | .observed _ => false

/-- Edges under construction: the source paths collected for each key, and what was reported. -/
structure Collecting (κ : Type) [Ord κ] where
  paths : ExtTreeMap κ (ExtTreeSet String)
  findings : List DiscoveryFinding

def Collecting.empty {κ : Type} [Ord κ] : Collecting κ := ⟨∅, []⟩

def extendPaths {κ : Type} [Ord κ] [TransOrd κ] (paths : ExtTreeMap κ (ExtTreeSet String)) (key : κ)
    (fieldPaths : List String) : ExtTreeMap κ (ExtTreeSet String) :=
  paths.alter key fun found => some (extend (found.getD ∅) fieldPaths)

structure ResourceDependency where
  dependent : ResourceIdentity
  prerequisite : ResourceIdentity
  fieldPaths : List String
  deriving DecidableEq

abbrev DependencyKey := ResourceIdentity × ResourceIdentity

def collectRelationship (records : Records) (identity : ResourceIdentity)
    (state : Collecting DependencyKey) (relationship : NativeRelationship) :
    Collecting DependencyKey :=
  if identity.kind = .pod ∧ relationship.kind = .container then state
  else
    match resolveRelationshipReference records relationship with
    | .one prerequisite =>
      { state with
        paths := extendPaths state.paths (identity, prerequisite) relationship.fieldPaths }
    | resolution =>
      { state with
        findings := state.findings ++ resolution.code.toList.flatMap fun code =>
          relationship.fieldPaths.map fun path => .forResource code identity (some path) }

def collectRecord (records : Records) (state : Collecting DependencyKey)
    (entry : ResourceIdentity × ResourceObservation) : Collecting DependencyKey :=
  match observedRelationships entry.2 with
  | some relationships => relationships.foldl (collectRelationship records entry.1) state
  | none =>
    if entry.2.relationships.any relationshipStateBlocksDiscovery then
      { state with
        findings := state.findings ++ [.forResource .relationshipConflict entry.1 none] }
    else state

def collectDependencies (records : Records) :
    List ResourceDependency × List DiscoveryFinding :=
  let collected := records.toList.foldl (collectRecord records) .empty
  (collected.paths.toList.map fun entry => ⟨entry.1.1, entry.1.2, entry.2.toList⟩,
    collected.findings)

/-- Prerequisites to the resources that depend on them. -/
def reverseDependencies (dependencies : List ResourceDependency) : Adjacency ResourceIdentity :=
  dependencies.foldl (fun reverse edge => link reverse edge.prerequisite edge.dependent) ∅

end Relationships

section Grouping

inductive GroupingEvidence
  | podMembership
  | containerDependency
  | composeOwnership (project : String)
  deriving DecidableEq

namespace GroupingEvidence

def sortKey : GroupingEvidence → ℕ × Option String
  | .podMembership => (0, none)
  | .containerDependency => (1, none)
  | .composeOwnership project => (2, some project)

theorem sortKey_injective : Function.Injective sortKey := by
  intro left right h
  cases left <;> cases right <;> simp [sortKey] at h ⊢
  exact h

instance : Ord GroupingEvidence := ⟨compareOn sortKey⟩

instance : TransOrd GroupingEvidence := inferInstanceAs (TransCmp (compareOn sortKey))

instance : LawfulEqOrd GroupingEvidence where
  eq_of_compare h := sortKey_injective (Std.compare_eq_iff_eq.mp h)

end GroupingEvidence

structure GroupingEdge where
  left : ResourceIdentity
  right : ResourceIdentity
  evidence : GroupingEvidence
  fieldPaths : List String
  deriving DecidableEq

abbrev GroupingKey := ResourceIdentity × ResourceIdentity × GroupingEvidence

instance GroupingKey.transOrd : TransOrd GroupingKey := inferInstance

/-- The ends are stored in identity order; a resource is never joined to itself. -/
def insertGroupingEdge (paths : ExtTreeMap GroupingKey (ExtTreeSet String))
    (left right : ResourceIdentity) (evidence : GroupingEvidence) (fieldPath : Option String) :
    ExtTreeMap GroupingKey (ExtTreeSet String) :=
  if left = right then paths
  else if (compare left right).isLT then extendPaths paths (left, right, evidence) fieldPath.toList
  else extendPaths paths (right, left, evidence) fieldPath.toList

def isMembership (left right : ResourceKind) : Bool :=
  (left == .pod && right == .container) || (left == .container && right == .pod)

def groupRelationship (records : Records) (identity : ResourceIdentity)
    (state : Collecting GroupingKey) (relationship : NativeRelationship) : Collecting GroupingKey :=
  if isMembership identity.kind relationship.kind then
    match resolveRelationshipReference records relationship with
    | .one member =>
      { state with
        paths := insertGroupingEdge state.paths identity member .podMembership
          relationship.fieldPaths.head? }
    | resolution =>
      if identity.kind = .pod then
        { state with
          findings := state.findings ++ resolution.code.toList.map fun code =>
            .forResource code identity relationship.fieldPaths.head? }
      else state
  else state

def groupDependency (paths : ExtTreeMap GroupingKey (ExtTreeSet String))
    (edge : ResourceDependency) : ExtTreeMap GroupingKey (ExtTreeSet String) :=
  if edge.dependent.kind = .container ∧ edge.prerequisite.kind = .container then
    edge.fieldPaths.foldl (fun paths fieldPath =>
      insertGroupingEdge paths edge.dependent edge.prerequisite .containerDependency
        (some fieldPath)) paths
  else paths

/-- The containers and pods of each Compose project, in identity order. -/
def membersByProject (records : Records) (ownership : Ownership) :
    ExtTreeMap String (List ResourceIdentity) :=
  ownership.toList.foldl (fun projects entry =>
    if (entry.1.kind = .container ∨ entry.1.kind = .pod) ∧ entry.1 ∈ records then
      projects.alter entry.2 fun members => some (members.getD [] ++ [entry.1])
    else projects) ∅

def groupProject (project : String) :
    List ResourceIdentity → ExtTreeMap GroupingKey (ExtTreeSet String) →
      ExtTreeMap GroupingKey (ExtTreeSet String)
  | [], paths => paths
  | left :: rest, paths =>
    groupProject project rest <| rest.foldl (fun paths right =>
      insertGroupingEdge paths left right (.composeOwnership project) none) paths

def groupingEdges (records : Records) (ownership : Ownership)
    (dependencies : List ResourceDependency) : List GroupingEdge × List DiscoveryFinding :=
  let memberships := records.toList.foldl (fun state entry =>
    ((observedRelationships entry.2).getD []).foldl (groupRelationship records entry.1) state)
    Collecting.empty
  let depended := dependencies.foldl groupDependency memberships.paths
  let owned := (membersByProject records ownership).toList.foldl (fun paths entry =>
    groupProject entry.1 entry.2 paths) depended
  (owned.toList.map fun entry => ⟨entry.1.1, entry.1.2.1, entry.1.2.2, entry.2.toList⟩,
    memberships.findings)

def groupingAdjacency (edges : List GroupingEdge) : Adjacency ResourceIdentity :=
  edges.foldl (fun adjacency edge => link (link adjacency edge.left edge.right) edge.right edge.left)
    ∅

end Grouping

theorem mem_reverseDependencies {dependencies : List ResourceDependency}
    {prerequisite dependent : ResourceIdentity} :
    dependent ∈ neighbors (reverseDependencies dependencies) prerequisite ↔
      ∃ edge ∈ dependencies, edge.dependent = dependent ∧ edge.prerequisite = prerequisite := by
  induction dependencies using List.reverseRecOn with
  | nil => simp [reverseDependencies]
  | append_singleton front last ih =>
      rw [reverseDependencies, List.foldl_append]
      change dependent ∈ neighbors (link (reverseDependencies front) _ _) prerequisite ↔ _
      rw [mem_neighbors_link, ih]
      simp only [List.mem_append, List.mem_singleton, or_and_right, exists_or, exists_eq_left]
      grind

/-- The ends of `edge`, in either order. -/
def GroupingEdge.Joins (edge : GroupingEdge) (a b : ResourceIdentity) : Prop :=
  (edge.left = a ∧ edge.right = b) ∨ (edge.left = b ∧ edge.right = a)

theorem GroupingEdge.Joins.symm {edge : GroupingEdge} {a b : ResourceIdentity}
    (h : edge.Joins a b) : edge.Joins b a := Or.symm h

theorem mem_groupingAdjacency {edges : List GroupingEdge} {a b : ResourceIdentity} :
    b ∈ neighbors (groupingAdjacency edges) a ↔ ∃ edge ∈ edges, edge.Joins a b := by
  induction edges using List.reverseRecOn with
  | nil => simp [groupingAdjacency]
  | append_singleton front last ih =>
      rw [groupingAdjacency, List.foldl_append]
      change b ∈ neighbors (link (link (groupingAdjacency front) _ _) _ _) a ↔ _
      rw [mem_neighbors_link, mem_neighbors_link, ih]
      simp only [List.mem_append, List.mem_singleton, or_and_right, exists_or, exists_eq_left,
        GroupingEdge.Joins]
      grind

theorem groupingAdjacency_symm (edges : List GroupingEdge) (a b : ResourceIdentity)
    (h : b ∈ neighbors (groupingAdjacency edges) a) :
    a ∈ neighbors (groupingAdjacency edges) b := by
  rw [mem_groupingAdjacency] at h ⊢
  obtain ⟨edge, hedge, hjoins⟩ := h
  exact ⟨edge, hedge, hjoins.symm⟩

end PodmanLens
