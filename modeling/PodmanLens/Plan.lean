import PodmanLens.Drain
import PodmanLens.PlanValidate

/-!
# Semantic deployment planning

`planDeployment` indexes and validates an intent, builds the map from operations to the operations
they wait for, and drains it in sort-key order. Container start order is declared between
containers and lifted to their start anchors: a pod member starts with its pod.
-/

namespace PodmanLens
open Std TreeEntries Drain Validated

structure DeploymentOperation where
  id : DeploymentOperationId
  resourceIntent : DeploymentResource
  dependsOn : List DeploymentOperationId
  imagePullPolicy : Option ImagePullPolicy

structure DeploymentPlan where
  target : TargetProfile
  connection : Option DeploymentConnectionReference
  externalPreconditions : List ExternalPrecondition
  operations : List DeploymentOperation

structure PlanningOutcome where
  plan : Option DeploymentPlan
  findings : List PlanningFinding

abbrev OperationGraph := Pending DeploymentOperationId

structure OperationEdge where
  predecessor : DeploymentOperationId
  dependent : DeploymentOperationId
  deriving DecidableEq

namespace OperationEdge

instance : Ord OperationEdge :=
  ⟨compareLex (compareOn OperationEdge.predecessor) (compareOn OperationEdge.dependent)⟩

instance : TransOrd OperationEdge :=
  inferInstanceAs (TransCmp
    (compareLex (compareOn OperationEdge.predecessor) (compareOn OperationEdge.dependent)))

instance : LawfulEqOrd OperationEdge where
  eq_of_compare {a b} h := by
    change (compare a.predecessor b.predecessor).then (compare a.dependent b.dependent) = .eq at h
    rw [Ordering.then_eq_eq] at h
    cases a
    cases b
    cases (Std.compare_eq_iff_eq.mp h.1 : _ = _)
    cases (Std.compare_eq_iff_eq.mp h.2 : _ = _)
    rfl

end OperationEdge

def isManaged (resources : ResourceIndex) (identity : DeploymentResourceId) : Bool :=
  match resources[identity]? with
  | some (.externalPrecondition _) => false
  | _ => true

def createOperation (resource : DeploymentResourceId) : DeploymentOperationId := ⟨.create, resource⟩

/-- Create operations of the managed resources among `identities`. -/
def managedCreates (resources : ResourceIndex) (identities : List DeploymentResourceId) :
    List DeploymentOperationId :=
  (identities.filter (isManaged resources)).map createOperation

def attachedNetworks (networks : NetworkAttachments) : List DeploymentResourceId :=
  networks.values.map fun attachment => attachment.network.val

def mountedVolumes (mounts : List MountIntent) : List DeploymentResourceId :=
  mounts.filterMap MountIntent.volumeSource

def createDependencies (resource : DeploymentResource) (resources : ResourceIndex) :
    ExtTreeSet DeploymentOperationId :=
  match resource with
  | .externalPrecondition _ | .image _ | .network _ | .volume _ | .secret _ => ∅
  | .pod pod => .ofList <|
    managedCreates resources (attachedNetworks pod.networks) ++
      managedCreates resources (mountedVolumes pod.infraMounts)
  | .container container => .ofList <|
    (if isManaged resources container.image then [⟨.ensureImage, container.image⟩] else []) ++
      managedCreates resources (container.pod.toList.map Subtype.val) ++
      managedCreates resources (attachedNetworks container.networks) ++
      managedCreates resources (mountedVolumes container.mounts) ++
      managedCreates resources (container.secretGrants.map SecretGrant.source)

def startAnchor (resources : ResourceIndex) (container : DeploymentResourceId) :
    Option DeploymentOperationId :=
  match resources[container]? with
  | some (.container intent) =>
    match intent.pod with
    | some pod =>
      match resources[pod.val]? with
      | some (.pod _) => some ⟨.startPod, pod⟩
      | _ => none
    | none => some ⟨.startContainer, container⟩
  | _ => none

def createNode (resources : ResourceIndex) (entry : DeploymentResourceId × DeploymentResource) :
    Option (DeploymentOperationId × ExtTreeSet DeploymentOperationId) :=
  if entry.2.isExternal then none
  else some (⟨if entry.1.kind = .image then .ensureImage else .create, entry.1⟩,
    createDependencies entry.2 resources)

def startNode (resources : ResourceIndex) (entry : DeploymentResourceId × DeploymentResource) :
    Option (DeploymentOperationId × ExtTreeSet DeploymentOperationId) :=
  match entry.2 with
  | .pod pod =>
    if pod.members.isEmpty then none
    else some (⟨.startPod, entry.1⟩, .ofList <|
      createOperation entry.1 :: managedCreates resources (pod.members.map Subtype.val))
  | .container container =>
    if container.pod.isNone then
      some (⟨.startContainer, entry.1⟩, .ofList [createOperation entry.1])
    else none
  | _ => none

def liftDependency (resources : ResourceIndex) (dependency : StartupDependency) :
    Option OperationEdge :=
  match startAnchor resources dependency.predecessor, startAnchor resources dependency.dependent with
  | some predecessor, some dependent => some ⟨predecessor, dependent⟩
  | _, _ => none

def startupEdges (resources : ResourceIndex) (dependencies : List StartupDependency) :
    ExtTreeSet OperationEdge :=
  .ofList (dependencies.filterMap (liftDependency resources))

def addEdge (nodes : OperationGraph) (edge : OperationEdge) : OperationGraph :=
  nodes.modify edge.dependent fun values => values.insert edge.predecessor

def addStartOperations (dependencies : List StartupDependency) (resources : ResourceIndex)
    (nodes : OperationGraph) : OperationGraph :=
  (startupEdges resources dependencies).toList.foldl addEdge
    (insertAll (startNode resources) resources.toList nodes)

def operationGraph (dependencies : List StartupDependency) (resources : ResourceIndex) :
    OperationGraph :=
  addStartOperations dependencies resources
    (insertAll (createNode resources) resources.toList ∅)

def pullPolicyOf (id : DeploymentOperationId) : DeploymentResource → Option ImagePullPolicy
  | .image image => if id.action = .ensureImage then some image.pullPolicy else none
  | _ => none

def describeOperation (declared : OperationGraph) (resources : ResourceIndex)
    (id : DeploymentOperationId) : Except (List DeploymentOperationId) DeploymentOperation :=
  match resources[id.resource]? with
  | none => .error [id]
  | some resourceIntent => .ok
    { id, resourceIntent
      dependsOn := (declared[id]?.getD ∅).toList
      imagePullPolicy := pullPolicyOf id resourceIntent }

/-- A removed operation without a declaration fails at once, a stall only when nothing is ready. -/
def topologicalOperations (nodes : OperationGraph) (resources : ResourceIndex) :
    Except (List DeploymentOperationId) (List DeploymentOperation) :=
  let (order, rest) := drain operationSortKey nodes.size nodes
  match order.mapM (describeOperation nodes resources) with
  | .error ids => .error ids
  | .ok operations => if rest.isEmpty then .ok operations else .error rest.keys

def operationCycle (edges : OperationGraph) : Option (List DeploymentOperationId) :=
  let rest := (drain operationSortKey edges.size edges).2
  if rest.isEmpty then none else some rest.keys

def cycleFinding (operations : List DeploymentOperationId) : PlanningFinding :=
  .detailed .deploymentCycle (operations.head?.map (·.resource)) (operations.map (·.resource))
    (some "startup_dependencies") none

structure StartupScan where
  edges : OperationGraph
  seen : ExtTreeSet OperationEdge
  findings : List PlanningFinding

def recordEdge (edges : OperationGraph) (edge : OperationEdge) : OperationGraph :=
  (edges.alter edge.predecessor fun values => some (values.getD ∅)).alter edge.dependent
    fun values => some ((values.getD ∅).insert edge.predecessor)

def startupFinding (code : DiagnosticCode) (subject related : DeploymentResourceId) (index : ℕ) :
    PlanningFinding :=
  .detailed code (some subject) [related] (some "startup_dependencies") (some (index + 1))

def scanStartup (resources : ResourceIndex) (scan : StartupScan) (entry : StartupDependency × ℕ) :
    StartupScan :=
  let (dependency, index) := entry
  let predecessorId := dependency.predecessor.val
  let dependentId := dependency.dependent.val
  match startAnchor resources predecessorId, startAnchor resources dependentId with
  | some predecessor, some dependent =>
    let edge : OperationEdge := ⟨predecessor, dependent⟩
    if predecessor = dependent ∧ predecessor.action = .startPod then
      { scan with findings := scan.findings ++
          [startupFinding .samePodStartupDependency dependentId predecessorId index] }
    else if scan.seen.contains edge then
      { scan with findings := scan.findings ++
          [startupFinding .deploymentDuplicateResource dependentId predecessorId index] }
    else { scan with edges := recordEdge scan.edges edge, seen := scan.seen.insert edge }
  | predecessor, dependent =>
    { scan with findings := scan.findings ++
        (if predecessor.isNone then
          [startupFinding .deploymentUnresolvedPrerequisite predecessorId dependentId index]
        else []) ++
        if dependent.isNone then
          [startupFinding .deploymentUnresolvedPrerequisite dependentId predecessorId index]
        else [] }

def validateStartupDependencies (dependencies : List StartupDependency)
    (resources : ResourceIndex) : List PlanningFinding :=
  let scan := dependencies.zipIdx.foldl (scanStartup resources) ⟨∅, ∅, []⟩
  scan.findings ++ ((operationCycle scan.edges).map cycleFinding).toList

def externalPreconditions (resources : ResourceIndex) : List ExternalPrecondition :=
  (contents resources).filterMap fun
    | .externalPrecondition precondition => some precondition
    | _ => none

namespace DeploymentIntent

def index (intent : DeploymentIntent) : ResourceIndex := (indexResources intent.resources).1

def graph (intent : DeploymentIntent) : OperationGraph :=
  operationGraph intent.startupDependencies intent.index

end DeploymentIntent

/-- The findings of every phase before sorting operations. -/
def intentFindings (intent : DeploymentIntent) : List PlanningFinding :=
  (indexResources intent.resources).2 ++ validateResources intent.index intent.target ++
    validateStartupDependencies intent.startupDependencies intent.index

def planDeployment (intent : DeploymentIntent) : PlanningOutcome :=
  let findings := intentFindings intent
  if findings.isEmpty then
    match topologicalOperations intent.graph intent.index with
    | .ok operations =>
      { plan := some
          { target := intent.target
            connection := intent.connection
            externalPreconditions := externalPreconditions intent.index
            operations }
        findings }
    | .error operations =>
      { plan := none, findings := sortFindings (findings ++ [cycleFinding operations]) }
  else { plan := none, findings := sortFindings findings }

end PodmanLens
