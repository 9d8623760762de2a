import Mathlib.Data.List.Sort
import PodmanLens.Components
import PodmanLens.DiscoveryGraph

/-!
# Discovery

`discover` resolves the roots of a request, closes them under grouping edges and authorized network
crossings, splits the result into groups, and reports edges, prerequisites, explanations and
findings. Each phase reads only the results of those before it and is named by what it computes.
-/

namespace PodmanLens
open Std TreeEntries Closure

inductive DiscoveryRootOrigin
  | resourceSelector (position : ℕ)
  | labelSelector (position : ℕ)
  | all
  deriving DecidableEq

namespace DiscoveryRootOrigin

def sortKey : DiscoveryRootOrigin → ℕ × ℕ
  | .resourceSelector position => (0, position)
  | .labelSelector position => (1, position)
  | .all => (2, 0)

theorem sortKey_injective : Function.Injective sortKey := by
  intro left right h
  cases left <;> cases right <;> simp [sortKey] at h ⊢ <;> exact h

instance : Ord DiscoveryRootOrigin := ⟨compareOn sortKey⟩

instance : TransOrd DiscoveryRootOrigin := inferInstanceAs (TransCmp (compareOn sortKey))

instance : LawfulEqOrd DiscoveryRootOrigin where
  eq_of_compare h := sortKey_injective (Std.compare_eq_iff_eq.mp h)

end DiscoveryRootOrigin

inductive DiscoveryExplanationKind
  | root
  | includedMember
  | prerequisite
  | stoppedSharedBoundary
  | authorizedNetworkCrossing
  | authorizedSharedCrossing
  | strongEvidenceMerge
  | groupOrdering
  deriving DecidableEq

structure DiscoveryExplanation where
  kind : DiscoveryExplanationKind
  resource : ResourceIdentity
  related : Option ResourceIdentity
  position : Option ℕ
  rootOrigin : Option DiscoveryRootOrigin
  deriving DecidableEq

def DiscoveryExplanation.about (kind : DiscoveryExplanationKind) (resource : ResourceIdentity)
    (related : Option ResourceIdentity) : DiscoveryExplanation :=
  { kind, resource, related, position := none, rootOrigin := none }

/-- The identifier of a group is the first of its members. -/
structure ResourceGroup where
  id : ResourceIdentity
  members : List ResourceIdentity
  prerequisites : List ResourceIdentity
  leads : members.head? = some id
  deriving DecidableEq

structure ResourceGraph where
  requestedRoots : List ResourceSelector
  requestedLabelRoots : List LabelSelector
  allRequested : Bool
  resolvedRoots : List ResourceIdentity
  groups : List ResourceGroup
  sharedPrerequisites : List ResourceIdentity
  dependencies : List ResourceDependency
  groupingEdges : List GroupingEdge
  findings : List DiscoveryFinding
  explanations : List DiscoveryExplanation
  deriving DecidableEq

def isSharedKind (kind : ResourceKind) : Bool :=
  kind == .network || kind == .volume || kind == .image || kind == .secret

section Roots

/-- Roots resolved so far: shared ones apart from those that become members at once. -/
structure RootSelection where
  members : ExtTreeSet ResourceIdentity
  explicitlySelectedShared : ExtTreeSet ResourceIdentity
  resolvedRoots : ExtTreeSet ResourceIdentity
  rootOrigins : ExtTreeSet (ResourceIdentity × DiscoveryRootOrigin)
  findings : List DiscoveryFinding

namespace RootSelection

def empty : RootSelection := ⟨∅, ∅, ∅, ∅, []⟩

def select (origin : DiscoveryRootOrigin) (state : RootSelection) (identity : ResourceIdentity) :
    RootSelection :=
  let resolved := { state with
    rootOrigins := state.rootOrigins.insert (identity, origin)
    resolvedRoots := state.resolvedRoots.insert identity }
  if isSharedKind identity.kind then
    { resolved with
      explicitlySelectedShared := resolved.explicitlySelectedShared.insert identity }
  else { resolved with members := resolved.members.insert identity }

def report (state : RootSelection) (finding : DiscoveryFinding) : RootSelection :=
  { state with findings := state.findings ++ [finding] }

/-- Selects every match, and reports the finding when nothing matches. -/
def selectMatched (origin : DiscoveryRootOrigin) (unresolved : DiscoveryFinding)
    (state : RootSelection) (matched : List ResourceIdentity) : RootSelection :=
  matched.foldl (select origin) (if matched.isEmpty then state.report unresolved else state)

def selectRoot (records : Records) (state : RootSelection) (entry : ResourceSelector × ℕ) :
    RootSelection :=
  let (selector, position) := entry
  match selector.matchKind with
  | .namePrefix =>
    state.selectMatched (.resourceSelector position) (.forSelector .selectorUnresolved selector)
      (resolvePrefixSelector records selector)
  | .exact =>
    match resolveSelector records selector with
    | .one identity => state.select (.resourceSelector position) identity
    | .none => state.report (.forSelector .selectorUnresolved selector)
    | .many => state.report (.forSelector .selectorAmbiguous selector)

def carriesLabel (selector : LabelSelector) (record : ResourceObservation) : Bool :=
  ((observedLabels record).bind fun labels => labels[selector.name.asStr]?).any fun actual =>
    selector.value.all fun expected => actual == expected

def selectLabel (records : Records) (state : RootSelection) (entry : LabelSelector × ℕ) :
    RootSelection :=
  let (selector, position) := entry
  state.selectMatched (.labelSelector position) (.forLabelSelector .selectorUnresolved selector)
    ((records.toList.filter fun entry => carriesLabel selector entry.2).map Prod.fst)

end RootSelection

def isEligibleUnpoddedContainer (record : ResourceObservation) : Bool :=
  match record.details with
  | .container container =>
    match container.infra with
    | .absent => true
    | .observed infra => !infra.value
    | .unavailable | .malformed | .versionInapplicable | .notApplicable | .unmodelled _ => false
  | _ => false

def eligibleAllRoot (identity : ResourceIdentity) (record : ResourceObservation)
    (reverse : Adjacency ResourceIdentity) (ownership : Option String) : Bool :=
  match identity.kind with
  | .pod => true
  | .container =>
    isEligibleUnpoddedContainer record &&
      !(observedRelationships record).any fun relationships =>
        relationships.any fun relationship => relationship.kind == .pod
  | .network | .volume | .secret => !reverse.contains identity
  | .image => ownership.isSome

/-- Exact, prefix and label selectors in request order, then every eligible root. -/
def selectRoots (records : Records) (ownership : Ownership) (reverse : Adjacency ResourceIdentity)
    (request : DiscoveryRequest) : RootSelection :=
  let selected := request.roots.toList.zipIdx.foldl (RootSelection.selectRoot records) .empty
  let labelled := request.labelSelectors.toList.zipIdx.foldl (RootSelection.selectLabel records)
    selected
  if request.all then
    records.toList.foldl (fun state entry =>
      if eligibleAllRoot entry.1 entry.2 reverse ownership[entry.1]? then
        state.select .all entry.1
      else state) labelled
  else labelled

/-- Consumers of a selected shared resource become members, or the resource itself if it has none. -/
def crossShared (reverse : Adjacency ResourceIdentity)
    (state : ExtTreeSet ResourceIdentity × ExtTreeSet ResourceIdentity)
    (shared : ResourceIdentity) : ExtTreeSet ResourceIdentity × ExtTreeSet ResourceIdentity :=
  let consumers := neighbors reverse shared
  if consumers.isEmpty then (state.1.insert shared, state.2)
  else (extend state.1 consumers, state.2.insert shared)

end Roots

section Boundaries

def boundarySelector (identifier : ExactReference) : ResourceSelector :=
  ⟨.network, identifier, .exact⟩

def resolveNetworkBoundaries (records : Records) (request : DiscoveryRequest) :
    ExtTreeMap ExactReference ResourceIdentity × List DiscoveryFinding :=
  request.networkBoundaryOverrides.toList.foldl (fun state identifier =>
    match resolveSelector records (boundarySelector identifier) with
    | .one identity => (state.1.insert identifier identity, state.2)
    | .none =>
      (state.1, state.2 ++ [.forSelector .selectorUnresolved (boundarySelector identifier)])
    | .many =>
      (state.1, state.2 ++ [.forSelector .selectorAmbiguous (boundarySelector identifier)]))
    (∅, [])

def adjacentResources (adjacency : Adjacency ResourceIdentity) : List ResourceIdentity :=
  adjacency.toList.flatMap fun entry => entry.2.toList

/-- Every resource is pushed at most once, so the initial members and the targets bound the pops. -/
def expandGroupMembers (members : ExtTreeSet ResourceIdentity)
    (adjacency : Adjacency ResourceIdentity) : ExtTreeSet ResourceIdentity :=
  run (neighbors adjacency) (members.size + (adjacentResources adjacency).length)
    ⟨members, members.toList.reverse⟩

structure Expansion where
  members : ExtTreeSet ResourceIdentity
  crossed : ExtTreeSet ResourceIdentity

/-- Adds the consumers of a network, which counts as crossed when one of them is new. -/
def crossNetwork (reverse : Adjacency ResourceIdentity) (state : Expansion)
    (network : ResourceIdentity) : Expansion :=
  let members := extend state.members (neighbors reverse network)
  { members
    crossed := if state.members.size < members.size then state.crossed.insert network
      else state.crossed }

def prerequisiteNetworks (dependencies : List ResourceDependency)
    (networkBoundaries members : ExtTreeSet ResourceIdentity) : List ResourceIdentity :=
  let networks := dependencies.filter fun edge => edge.dependent ∈ members &&
    edge.prerequisite.kind == .network && edge.prerequisite ∈ networkBoundaries
  (ExtTreeSet.ofList (networks.map ResourceDependency.prerequisite)).toList

def expandOnce (dependencies : List ResourceDependency) (reverse adjacency : Adjacency ResourceIdentity)
    (networkBoundaries : ExtTreeSet ResourceIdentity) (state : Expansion) : Expansion :=
  let members := expandGroupMembers state.members adjacency
  (prerequisiteNetworks dependencies networkBoundaries members).foldl (crossNetwork reverse)
    { state with members }

/-- Alternates closure and crossings until no member is added. -/
def expandBoundaries (dependencies : List ResourceDependency)
    (reverse adjacency : Adjacency ResourceIdentity)
    (networkBoundaries members : ExtTreeSet ResourceIdentity) : Expansion :=
  settle (fun state => state.members.size)
    (expandOnce dependencies reverse adjacency networkBoundaries)
    ((adjacentResources adjacency).length + (adjacentResources reverse).length + 1)
    ⟨members, ∅⟩

end Boundaries

section Groups

def ResourceGroup.ofComponent (component : ExtTreeSet ResourceIdentity) : Option ResourceGroup :=
  match component.toList with
  | [] => none
  | id :: rest => some { id, members := id :: rest, prerequisites := [], leads := rfl }

def groupedMembers (members : ExtTreeSet ResourceIdentity)
    (adjacency : Adjacency ResourceIdentity) : List ResourceGroup :=
  (peel (neighbors adjacency) members.size members).filterMap ResourceGroup.ofComponent

def ResourceGroup.withPrerequisites (dependencies : List ResourceDependency)
    (group : ResourceGroup) : ResourceGroup :=
  let outside := dependencies.filter fun edge =>
    edge.dependent ∈ group.members && edge.prerequisite ∉ group.members
  { group with
    prerequisites := (ExtTreeSet.ofList (outside.map ResourceDependency.prerequisite)).toList }

def sortGroups (groups : List ResourceGroup) : List ResourceGroup :=
  groups.insertionSort fun left right => (compare left.id right.id).isLE

def prerequisiteCount (groups : List ResourceGroup) : ExtTreeMap ResourceIdentity ℕ :=
  (groups.flatMap ResourceGroup.prerequisites).foldl (fun counts prerequisite =>
    counts.alter prerequisite fun count => some (count.getD 0 + 1)) ∅

def sharedPrerequisites (groups : List ResourceGroup) : List ResourceIdentity :=
  ((prerequisiteCount groups).toList.filter fun entry => 1 < entry.2).map Prod.fst

end Groups

section Explanations

def groupExplanations (entry : ResourceGroup × ℕ) : List DiscoveryExplanation :=
  let (group, position) := entry
  { DiscoveryExplanation.about .groupOrdering group.id none with position := some position } ::
    group.members.map (fun member => .about .includedMember member (some group.id)) ++
    group.prerequisites.map (fun prerequisite => .about .prerequisite prerequisite (some group.id))

/-- A prerequisite whose other consumers stayed outside although nothing authorized crossing it. -/
def stoppedBoundaries (reverse : Adjacency ResourceIdentity)
    (explicitlySelectedShared crossed : ExtTreeSet ResourceIdentity) (group : ResourceGroup) :
    List DiscoveryExplanation :=
  let stopped := group.prerequisites.filter fun prerequisite =>
    isSharedKind prerequisite.kind &&
      (neighbors reverse prerequisite).any (fun consumer => consumer ∉ group.members) &&
      !(prerequisite ∈ explicitlySelectedShared || prerequisite ∈ crossed)
  stopped.map fun prerequisite => .about .stoppedSharedBoundary prerequisite (some group.id)

def unusedBoundaries (boundaries : ExtTreeMap ExactReference ResourceIdentity)
    (crossed : ExtTreeSet ResourceIdentity) : List DiscoveryFinding :=
  (boundaries.toList.filter fun entry => entry.2 ∉ crossed).map fun entry =>
    .forSelector .boundaryOverrideUnused (boundarySelector entry.1)

def sortDiscoveryFindings (findings : List DiscoveryFinding) : List DiscoveryFinding :=
  findings.insertionSort fun left right => (findingOrder left right).isLE

end Explanations

section Phases
variable (inventory : ResourceInventory) (request : DiscoveryRequest)

namespace ResourceInventory

def ownership : Ownership := composeOwnershipIndex inventory.records

def dependencies : List ResourceDependency := (collectDependencies inventory.records).1

def reverse : Adjacency ResourceIdentity := reverseDependencies inventory.dependencies

def groupingEdges : List GroupingEdge :=
  (PodmanLens.groupingEdges inventory.records inventory.ownership inventory.dependencies).1

def adjacency : Adjacency ResourceIdentity := groupingAdjacency inventory.groupingEdges

def selection : RootSelection :=
  selectRoots inventory.records inventory.ownership inventory.reverse request

/-- The initial members and the shared resources whose consumers they include. -/
def seeded : ExtTreeSet ResourceIdentity × ExtTreeSet ResourceIdentity :=
  (inventory.selection request).explicitlySelectedShared.toList.foldl
    (crossShared inventory.reverse) ((inventory.selection request).members, ∅)

def networkBoundaries : ExtTreeMap ExactReference ResourceIdentity :=
  (resolveNetworkBoundaries inventory.records request).1

def expansion : Expansion :=
  expandBoundaries inventory.dependencies inventory.reverse inventory.adjacency
    (ExtTreeSet.ofList (contents (inventory.networkBoundaries request)))
    (inventory.seeded request).1

def groups : List ResourceGroup :=
  sortGroups <| (groupedMembers (inventory.expansion request).members inventory.adjacency).map
    (ResourceGroup.withPrerequisites inventory.dependencies)

def grouped : ExtTreeSet ResourceIdentity :=
  ExtTreeSet.ofList ((inventory.groups request).flatMap ResourceGroup.members)

def keptEdges : List GroupingEdge :=
  inventory.groupingEdges.filter fun edge =>
    edge.left ∈ inventory.grouped request && edge.right ∈ inventory.grouped request

def discoveryFindings : List DiscoveryFinding :=
  sortDiscoveryFindings <| advisoryLabelFindings inventory.records ++
    (collectDependencies inventory.records).2 ++
    (PodmanLens.groupingEdges inventory.records inventory.ownership inventory.dependencies).2 ++
    (inventory.selection request).findings ++
    (resolveNetworkBoundaries inventory.records request).2 ++
    unusedBoundaries (inventory.networkBoundaries request) (inventory.expansion request).crossed

def explanations : List DiscoveryExplanation :=
  (inventory.selection request).rootOrigins.toList.map (fun entry =>
    { DiscoveryExplanation.about .root entry.1 none with rootOrigin := some entry.2 }) ++
  (inventory.groups request).zipIdx.flatMap groupExplanations ++
  (inventory.keptEdges request).map
    (fun edge => .about .strongEvidenceMerge edge.left (some edge.right)) ++
  (inventory.seeded request).2.toList.map
    (fun boundary => .about .authorizedSharedCrossing boundary none) ++
  (inventory.expansion request).crossed.toList.map
    (fun boundary => .about .authorizedNetworkCrossing boundary none) ++
  (inventory.groups request).flatMap (stoppedBoundaries inventory.reverse
    (inventory.selection request).explicitlySelectedShared (inventory.expansion request).crossed)

end ResourceInventory

end Phases

def discover (inventory : ResourceInventory) (request : DiscoveryRequest) :
    PodmanLensResult ResourceGraph :=
  if !request.all && request.roots.isEmpty && request.labelSelectors.isEmpty then
    .error .invalidDiscoveryRequest
  else
    .ok {
      requestedRoots := request.roots.toList
      requestedLabelRoots := request.labelSelectors.toList
      allRequested := request.all
      resolvedRoots := (inventory.selection request).resolvedRoots.toList
      groups := inventory.groups request
      sharedPrerequisites := sharedPrerequisites (inventory.groups request)
      dependencies := inventory.dependencies.filter fun edge =>
        edge.dependent ∈ inventory.grouped request
      groupingEdges := inventory.keptEdges request
      findings := inventory.discoveryFindings request
      explanations := inventory.explanations request }

end PodmanLens
