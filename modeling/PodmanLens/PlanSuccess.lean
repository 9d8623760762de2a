import Mathlib.Logic.Relation
import PodmanLens.PlanStartup

/-!
# Planning succeeds exactly without findings

A clean intent has a closed, ranked operation graph, so the drain removes every node and the cycle
branch after sorting is never taken.
-/

namespace PodmanLens
open Std Drain

structure CleanIntent (intent : DeploymentIntent) : Prop where
  distinct : (intent.resources.map (·.identity)).Nodup
  resources : Clean intent.index intent.target
  startup : StartupClean intent.index intent.startupDependencies

theorem DeploymentIntent.keyed_index (intent : DeploymentIntent) : Keyed intent.index :=
  keyed_indexResources intent.resources

theorem intentFindings_eq_nil {intent : DeploymentIntent} :
    intentFindings intent = [] ↔ CleanIntent intent := by
  simp only [intentFindings, List.append_eq_nil_iff, indexResources_findings_eq_nil,
    validateResources_eq_nil, validateStartupDependencies_eq_nil]
  exact ⟨fun h => ⟨h.1.1, h.1.2, h.2⟩, fun h => ⟨⟨h.distinct, h.resources⟩, h.startup⟩⟩

/-- `d` is a declared dependency of `id` in the graph. -/
def DependsOn (nodes : OperationGraph) (d id : DeploymentOperationId) : Prop :=
  ∃ dependencies, nodes[id]? = some dependencies ∧ d ∈ dependencies

section Ranked

variable {resources : ResourceIndex} {target : TargetProfile}
  {dependencies : List StartupDependency}

theorem mem_operationGraph_iff_requires (hkeyed : Keyed resources) {id : DeploymentOperationId} :
    id ∈ operationGraph dependencies resources ↔ IndexRequires resources id := by
  rw [mem_operationGraph, prerequisites_iff_requires hkeyed]

theorem dependsOn_operationGraph {id d : DeploymentOperationId} :
    DependsOn (operationGraph dependencies resources) d id ↔
      ∃ base, Prerequisites resources id base ∧ (d ∈ base ∨ Lifts resources dependencies d id) := by
  constructor
  · rintro ⟨found, hfound, hd⟩
    have hmem : id ∈ operationGraph dependencies resources :=
      ExtTreeMap.mem_iff_isSome_getElem?.mpr (by simp [hfound])
    obtain ⟨base, hbase⟩ := mem_operationGraph.mp hmem
    exact ⟨base, hbase, (mem_dependencies_iff hbase hfound d).mp hd⟩
  · rintro ⟨base, hbase, hd⟩
    obtain ⟨found, hfound, hiff⟩ := getElem?_operationGraph dependencies hbase
    exact ⟨found, hfound, (hiff d).mpr hd⟩

theorem operationGraph_ranked (hkeyed : Keyed resources) (hclean : Clean resources target)
    (hstartup : StartupClean resources dependencies) {id d : DeploymentOperationId}
    (h : DependsOn (operationGraph dependencies resources) d id) :
    d ∈ operationGraph dependencies resources ∧
      operationRank (startRank resources dependencies) d <
        operationRank (startRank resources dependencies) id := by
  rw [mem_operationGraph_iff_requires hkeyed]
  obtain ⟨base, hbase, hd | hlifts⟩ := dependsOn_operationGraph.mp h
  · exact prerequisites_ranked hkeyed hclean _ hbase hd
  · have hlt := hstartup.startRank_lt hlifts
    obtain ⟨dependency, -, hpredecessor, hdependent⟩ := hlifts
    obtain ⟨hrequires, haction⟩ := startAnchor_requires hkeyed hclean hpredecessor
    obtain ⟨-, haction'⟩ := startAnchor_requires hkeyed hclean hdependent
    refine ⟨hrequires, ?_⟩
    rcases haction with h₁ | h₁ <;> rcases haction' with h₂ | h₂ <;>
      simp only [operationRank, h₁, h₂] <;> omega

end Ranked

section Topological

variable {nodes : OperationGraph} {resources : ResourceIndex}

theorem describeOperation_ok {id : DeploymentOperationId} {operation : DeploymentOperation}
    (h : describeOperation nodes resources id = .ok operation) :
    operation.id = id ∧ resources[id.resource]? = some operation.resourceIntent ∧
      operation.dependsOn = (nodes[id]?.getD ∅).toList ∧
      operation.imagePullPolicy = pullPolicyOf id operation.resourceIntent := by
  unfold describeOperation at h
  split at h
  · cases h
  · next resourceIntent hget =>
      cases h
      exact ⟨rfl, hget, rfl, rfl⟩

theorem mapM_describeOperation_ok {order : List DeploymentOperationId}
    {operations : List DeploymentOperation}
    (h : order.mapM (describeOperation nodes resources) = .ok operations) :
    operations.map (·.id) = order ∧ ∀ operation ∈ operations,
      describeOperation nodes resources operation.id = .ok operation := by
  induction order generalizing operations with
  | nil =>
      cases h
      exact ⟨rfl, by simp⟩
  | cons id rest ih =>
      rw [List.mapM_cons] at h
      cases hid : describeOperation nodes resources id with
      | error ids => simp [hid, bind, Except.bind] at h
      | ok operation =>
          cases hrest : rest.mapM (describeOperation nodes resources) with
          | error ids => simp [hid, hrest, bind, Except.bind] at h
          | ok tail =>
              simp only [hid, hrest, bind, Except.bind, pure, Except.pure, Except.ok.injEq] at h
              obtain ⟨hmap, hall⟩ := ih hrest
              have hoperation := (describeOperation_ok hid).1
              subst h
              refine ⟨by rw [List.map_cons, hmap, hoperation], List.forall_mem_cons.mpr ⟨?_, hall⟩⟩
              rwa [hoperation]

theorem mapM_describeOperation_exists (nodes : OperationGraph) {order : List DeploymentOperationId}
    (h : ∀ id ∈ order, id.resource ∈ resources) :
    ∃ operations, order.mapM (describeOperation nodes resources) = .ok operations := by
  induction order with
  | nil => exact ⟨[], rfl⟩
  | cons id rest ih =>
      obtain ⟨hid, hrest⟩ := List.forall_mem_cons.mp h
      obtain ⟨tail, htail⟩ := ih hrest
      obtain ⟨resource, hget⟩ :=
        Option.isSome_iff_exists.mp (ExtTreeMap.mem_iff_isSome_getElem?.mp hid)
      obtain ⟨operation, hdescribe⟩ :
          ∃ operation, describeOperation nodes resources id = .ok operation := by
        simp [describeOperation, hget]
      refine ⟨operation :: tail, ?_⟩
      rw [List.mapM_cons, hdescribe, htail]
      rfl

/-- A successful sort drained every node and described each removed operation. -/
theorem topologicalOperations_ok {operations : List DeploymentOperation}
    (h : topologicalOperations nodes resources = .ok operations) :
    Drained nodes (operations.map (·.id)) ∅ ∧ ∀ operation ∈ operations,
      describeOperation nodes resources operation.id = .ok operation := by
  have hdrained := drain_drained operationSortKey nodes.size nodes
  unfold topologicalOperations at h
  dsimp only at h
  split at h
  · cases h
  · next described hdescribed =>
      split_ifs at h with hempty
      cases h
      obtain ⟨hmap, hall⟩ := mapM_describeOperation_ok hdescribed
      rw [ExtTreeMap.isEmpty_iff] at hempty
      rw [hempty, ← hmap] at hdrained
      exact ⟨hdrained, hall⟩

theorem topologicalOperations_exists (rank : DeploymentOperationId → ℕ)
    (hresources : ∀ id ∈ nodes, id.resource ∈ resources)
    (hrank : ∀ id d, DependsOn nodes d id → d ∈ nodes ∧ rank d < rank id) :
    ∃ operations, topologicalOperations nodes resources = .ok operations := by
  have hdrained := drain_drained operationSortKey nodes.size nodes
  have hexhausted := drain_exhausted_of_rank operationSortKey nodes rank
    fun id dependencies d hget hd => hrank id d ⟨dependencies, hget, hd⟩
  obtain ⟨operations, hoperations⟩ := mapM_describeOperation_exists nodes
    fun id hid => hresources id ((hdrained.mem_iff id).mpr (Or.inl hid))
  refine ⟨operations, ?_⟩
  simp [topologicalOperations, hoperations, hexhausted]

end Topological

theorem IndexRequires.resource_mem {resources : ResourceIndex} {id : DeploymentOperationId}
    (h : IndexRequires resources id) : id.resource ∈ resources := by
  rw [ExtTreeMap.mem_iff_isSome_getElem?]
  obtain ⟨action, identity⟩ := id
  cases action with
  | ensureImage =>
      obtain ⟨image, hget⟩ := h
      simp [hget]
  | create =>
      obtain ⟨resource, hget, -⟩ := h
      simp [hget]
  | startPod =>
      obtain ⟨pod, hget, -⟩ := h
      simp [hget]
  | startContainer =>
      obtain ⟨container, hget, -⟩ := h
      simp [hget]

theorem CleanIntent.topologicalOperations_exists {intent : DeploymentIntent}
    (h : CleanIntent intent) :
    ∃ operations, topologicalOperations intent.graph intent.index = .ok operations :=
  PodmanLens.topologicalOperations_exists
    (operationRank (startRank intent.index intent.startupDependencies))
    (fun _ hid => ((mem_operationGraph_iff_requires intent.keyed_index).mp hid).resource_mem)
    fun _ _ hdepends => operationGraph_ranked intent.keyed_index h.resources h.startup hdepends

theorem planDeployment_plan_eq_some {intent : DeploymentIntent} {plan : DeploymentPlan} :
    (planDeployment intent).plan = some plan ↔ CleanIntent intent ∧ ∃ operations,
      topologicalOperations intent.graph intent.index = .ok operations ∧
      plan = { target := intent.target
               connection := intent.connection
               externalPreconditions := externalPreconditions intent.index
               operations } := by
  rw [← intentFindings_eq_nil, planDeployment]
  by_cases h : intentFindings intent = []
  · cases htopological : topologicalOperations intent.graph intent.index with
    | ok operations => simp [h, eq_comm]
    | error ids => simp [h]
  · simp [h]

theorem planDeployment_findings_of_not_clean {intent : DeploymentIntent}
    (h : ¬CleanIntent intent) : (planDeployment intent).findings ≠ [] := by
  rw [← intentFindings_eq_nil] at h
  simp [planDeployment, h, sortFindings_eq_nil]

/-- The cycle branch after sorting is unreachable, so a plan is returned exactly when there are no
findings. -/
theorem planDeployment_succeeds_iff_findings_nil (intent : DeploymentIntent) :
    (intentFindings intent = [] →
      (∀ id d, DependsOn intent.graph d id → d ∈ intent.graph) ∧
      (∀ id, ¬Relation.TransGen (DependsOn intent.graph) id id) ∧
      ∃ operations, topologicalOperations intent.graph intent.index = .ok operations) ∧
    ((planDeployment intent).plan.isSome ↔ (planDeployment intent).findings = []) := by
  constructor
  · intro hfindings
    have hclean := intentFindings_eq_nil.mp hfindings
    have hranked : ∀ id d, DependsOn intent.graph d id → d ∈ intent.graph ∧
        operationRank (startRank intent.index intent.startupDependencies) d <
          operationRank (startRank intent.index intent.startupDependencies) id := fun id d h =>
      operationGraph_ranked intent.keyed_index hclean.resources hclean.startup h
    refine ⟨fun id d h => (hranked id d h).1, fun id hcycle => ?_,
      hclean.topologicalOperations_exists⟩
    have hlt : ∀ {a b}, Relation.TransGen (DependsOn intent.graph) a b →
        operationRank (startRank intent.index intent.startupDependencies) a <
          operationRank (startRank intent.index intent.startupDependencies) b := by
      intro a b h
      induction h with
      | single h => exact (hranked _ _ h).2
      | tail _ h ih => exact ih.trans (hranked _ _ h).2
    exact (hlt hcycle).false
  · by_cases hclean : CleanIntent intent
    · obtain ⟨operations, hoperations⟩ := hclean.topologicalOperations_exists
      have hfindings := intentFindings_eq_nil.mpr hclean
      simp [planDeployment, hfindings, hoperations]
    · have hplan : (planDeployment intent).plan.isSome = false := by
        rw [Option.isSome_eq_false_iff, Option.isNone_iff_eq_none]
        by_contra hsome
        obtain ⟨plan, hplan⟩ := Option.ne_none_iff_exists'.mp hsome
        exact hclean (planDeployment_plan_eq_some.mp hplan).1
      simp [hplan, planDeployment_findings_of_not_clean hclean]

section Sample

def sampleId (kind : ResourceKind) (name : String)
    (identifier : validIdentifier name = true := by decide) : DeploymentResourceId :=
  ⟨kind, name, identifier⟩

def sampleImage : OfKind .image := ⟨sampleId .image "app", rfl⟩
def sampleNetwork : OfKind .network := ⟨sampleId .network "front", rfl⟩
def sampleVolume : OfKind .volume := ⟨sampleId .volume "data", rfl⟩
def sampleSecret : OfKind .secret := ⟨sampleId .secret "token", rfl⟩
def samplePod : OfKind .pod := ⟨sampleId .pod "web", rfl⟩
def sampleApi : OfKind .container := ⟨sampleId .container "api", rfl⟩
def sampleWorker : OfKind .container := ⟨sampleId .container "worker", rfl⟩
def sampleShared : DeploymentResourceId := sampleId .network "shared"

def sampleAttachments (network : OfKind .network) : NetworkAttachments :=
  ⟨[{ network }], by simp [maxAttachments], List.pairwise_singleton _ _⟩

def sampleTarget : TargetProfile :=
  { podmanVersion := ⟨"6.1.0", { major := 6, minor := 1, patch := 0 }⟩
    apiVersion := ⟨"6.1.0", { major := 6, minor := 1, patch := 0 }⟩ }

def sampleSource : ImageSource := ⟨"registry.example:5000/app:1", .portable, by decide⟩

def samplePath : AbsoluteContainerPath := ⟨"/data", by decide⟩

def sampleMount (source : OfKind .volume) : MountIntent :=
  .namedVolume
    { source, destination := samplePath, access := .readWrite, copyMode := .copy }

/-- The container that a resource declares. -/
def containerOf : DeploymentResource → Option ContainerIntent
  | .container container => some container
  | _ => none

/-- A pod with one member that must start before a standalone worker. -/
def sampleIntent : DeploymentIntent where
  target := sampleTarget
  resources :=
    [.container
      { identity := sampleWorker, image := sampleImage
        networks := sampleAttachments ⟨sampleShared, rfl⟩ },
    .container
      { identity := sampleApi, image := sampleImage, pod := some samplePod
        mounts := [sampleMount sampleVolume]
        secretGrants := [.mount sampleSecret none none none none] },
    .pod
      { identity := samplePod, networks := sampleAttachments sampleNetwork
        members := [sampleApi] },
    .network { identity := sampleNetwork },
    .volume { identity := sampleVolume },
    .secret { identity := sampleSecret
              material := ⟨"vault:token", by decide, by decide⟩ },
    .image
      { identity := sampleImage
        source := sampleSource
        pullPolicy := .missing },
    .externalPrecondition ⟨sampleShared, by decide⟩]
  startupDependencies := [⟨sampleApi, sampleWorker⟩]

def samplePlan : DeploymentPlan := (planDeployment sampleIntent).plan.get (by decide)

theorem samplePlan_planned : (planDeployment sampleIntent).plan = some samplePlan :=
  (Option.some_get _).symm

theorem planDeployment_succeeds_iff_findings_nil_sample :
    ∃ operations, topologicalOperations sampleIntent.graph sampleIntent.index = .ok operations :=
  ((planDeployment_succeeds_iff_findings_nil sampleIntent).1 (by decide)).2.2

end Sample

end PodmanLens
