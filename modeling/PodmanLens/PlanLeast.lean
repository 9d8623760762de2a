import PodmanLens.DrainOrder
import PodmanLens.PlanContents

/-!
# The plan order is the least one

Sorting operations succeeds only by draining the whole dependency map, and the drain is greedy by
sort key. The sequence is therefore least among the orders that respect the map. Sort keys forget
which start an operation is, so two starts of one resource tie; no map built from an index holds
both, and there the plan is the only least order.
-/

namespace PodmanLens
open Std Drain

variable {nodes : OperationGraph} {resources : ResourceIndex} {operations : List DeploymentOperation}

theorem operations_eq_drain (h : topologicalOperations nodes resources = .ok operations) :
    operations.map (·.id) = (drain operationSortKey nodes.size nodes).1 := by
  unfold topologicalOperations at h
  dsimp only at h
  split at h
  · cases h
  · next described hdescribed =>
      split_ifs at h
      cases h
      exact (mapM_describeOperation_ok hdescribed).1

/-- No two nodes of the map have one sort key. -/
def DistinctKeys (nodes : OperationGraph) : Prop :=
  ∀ a ∈ nodes, ∀ b ∈ nodes, operationSortKey a = operationSortKey b → a = b

/-- A sorted sequence is least with ties broken by operation id. -/
theorem topologicalOperations_least (h : topologicalOperations nodes resources = .ok operations)
    {order : List DeploymentOperationId} (horder : Linearizes nodes order) :
    (List.compareLex (tieBreak operationSortKey) (operations.map (·.id)) order).isLE := by
  rw [operations_eq_drain h]
  exact drain_isLE horder.drained rfl nodes.size le_rfl

theorem Linearizes.compareLex_eq (hkeys : DistinctKeys nodes)
    {a b : List DeploymentOperationId} (ha : Linearizes nodes a) (hb : Linearizes nodes b) :
    List.compareLex (tieBreak operationSortKey) a b =
      compare (a.map operationSortKey) (b.map operationSortKey) := by
  apply compareLex_tieBreak
  intro x hx y hy hkey
  exact hkeys x ((ha.mem_iff x).mp hx) y ((hb.mem_iff y).mp hy) (Std.compare_eq_iff_eq.mp hkey)

theorem sortRank_ensureImage {identity : DeploymentResourceId} (hkind : identity.kind = .image) :
    (operationSortKey ⟨.ensureImage, identity⟩).rank = 3 := by
  simp only [operationSortKey, hkind]

theorem sortRank_create {identity : DeploymentResourceId} (hkind : identity.kind ≠ .image) :
    (operationSortKey ⟨.create, identity⟩).rank ≠ 3 ∧
      (operationSortKey ⟨.create, identity⟩).rank < 6 := by
  simp only [operationSortKey]
  cases h : identity.kind with
  | image => exact absurd h hkind
  | _ => decide

/-- The operations an index calls for have distinct sort keys. -/
theorem IndexRequires.eq_of_sortKey (hkeyed : Keyed resources)
    {a b : DeploymentOperationId} (ha : IndexRequires resources a) (hb : IndexRequires resources b)
    (hkey : operationSortKey a = operationSortKey b) : a = b := by
  obtain ⟨action, identity⟩ := a
  obtain ⟨action', identity'⟩ := b
  obtain rfl : identity = identity' := congrArg OperationSortKey.resource hkey
  have hrank := congrArg OperationSortKey.rank hkey
  have himage (h : ∃ image, resources[identity]? = some (.image image)) :
      identity.kind = .image := by
    obtain ⟨image, hget⟩ := h
    exact (congrArg _ (hkeyed hget)).symm.trans image.identity.2
  cases action with
  | ensureImage =>
      have hkind := himage ha
      rw [sortRank_ensureImage hkind] at hrank
      cases action' with
      | ensureImage => rfl
      | create => exact absurd hkind hb.choose_spec.2.2
      | _ => cases hrank
  | create =>
      have hkind := ha.choose_spec.2.2
      have hcreate := sortRank_create hkind
      cases action' with
      | ensureImage => exact absurd (himage hb) hkind
      | create => rfl
      | _ => exact absurd hrank hcreate.2.ne
  | startPod =>
      obtain ⟨pod, hpod, -⟩ := ha
      cases action' with
      | ensureImage =>
          rw [sortRank_ensureImage (himage hb)] at hrank
          cases hrank
      | create => exact absurd hrank.symm (sortRank_create hb.choose_spec.2.2).2.ne
      | startPod => rfl
      | startContainer =>
          obtain ⟨container, hcontainer, -⟩ := hb
          cases hpod.symm.trans hcontainer
  | startContainer =>
      obtain ⟨container, hcontainer, -⟩ := ha
      cases action' with
      | ensureImage =>
          rw [sortRank_ensureImage (himage hb)] at hrank
          cases hrank
      | create => exact absurd hrank.symm (sortRank_create hb.choose_spec.2.2).2.ne
      | startPod =>
          obtain ⟨pod, hpod, -⟩ := hb
          cases hpod.symm.trans hcontainer
      | startContainer => rfl

theorem DeploymentIntent.distinctKeys_graph (intent : DeploymentIntent) :
    DistinctKeys intent.graph := by
  intro a ha b hb hkey
  have hrequires {id : DeploymentOperationId} (hid : id ∈ intent.graph) :
      IndexRequires intent.index id := (mem_operationGraph_iff_requires intent.keyed_index).mp hid
  exact (hrequires ha).eq_of_sortKey intent.keyed_index (hrequires hb) hkey

theorem PlannedBy.linearizes {intent : DeploymentIntent} {plan : DeploymentPlan}
    (h : PlannedBy intent plan) : Linearizes intent.graph plan.ids :=
  h.drained.linearizes

/-- Every other order of the planned operations that respects the graph has a larger key list. -/
theorem plan_compare_lt {intent : DeploymentIntent} {plan : DeploymentPlan}
    (h : (planDeployment intent).plan = some plan) {order : List DeploymentOperationId}
    (horder : Linearizes intent.graph order) (hne : order ≠ plan.ids) :
    compare (plan.ids.map operationSortKey) (order.map operationSortKey) = .lt := by
  have hplanned := plannedBy_of_plan h
  obtain ⟨-, operations, hoperations, rfl⟩ := planDeployment_plan_eq_some.mp h
  have hle := topologicalOperations_least hoperations horder
  have hcompare := Linearizes.compareLex_eq intent.distinctKeys_graph hplanned.linearizes horder
  rw [← hcompare]
  have hneq : List.compareLex (tieBreak operationSortKey) (operations.map (·.id)) order ≠ .eq :=
    fun heq => hne (LawfulEqCmp.eq_of_compare heq).symm
  exact (Ordering.isLE_iff_eq_lt_or_eq_eq.mp hle).resolve_right hneq

/-- A successful sort returns an order that respects the dependency map and is lexicographically
least by sort key, ties broken by operation id; keys are distinct in every planned map, where the
plan is the only least order. -/
theorem topologicalOperations_isLeast :
    (∀ nodes resources operations, topologicalOperations nodes resources = .ok operations →
      Linearizes nodes (operations.map (·.id)) ∧ ∀ order, Linearizes nodes order →
        (List.compareLex (tieBreak operationSortKey) (operations.map (·.id)) order).isLE ∧
        (DistinctKeys nodes → (compare ((operations.map (·.id)).map operationSortKey)
          (order.map operationSortKey)).isLE)) ∧
    ∀ intent : DeploymentIntent, DistinctKeys intent.graph ∧
      ∀ plan, (planDeployment intent).plan = some plan → Linearizes intent.graph plan.ids ∧
        ∀ order, Linearizes intent.graph order → order ≠ plan.ids →
          compare (plan.ids.map operationSortKey) (order.map operationSortKey) = .lt := by
  refine ⟨fun nodes resources operations hoperations => ?_, fun intent =>
    ⟨intent.distinctKeys_graph, fun plan hplan =>
      ⟨(plannedBy_of_plan hplan).linearizes, fun order => plan_compare_lt hplan⟩⟩⟩
  have hlinear := (topologicalOperations_ok hoperations).1.linearizes
  refine ⟨hlinear, fun order horder => ?_⟩
  have hle := topologicalOperations_least hoperations horder
  refine ⟨hle, fun hkeys => ?_⟩
  rwa [← Linearizes.compareLex_eq hkeys hlinear horder]

theorem topologicalOperations_isLeast_sample :
    Linearizes sampleIntent.graph samplePlan.ids ∧ ∃ operations,
      topologicalOperations sampleIntent.graph sampleIntent.index = .ok operations ∧
        Linearizes sampleIntent.graph (operations.map (·.id)) := by
  obtain ⟨hsorted, hplanned⟩ := topologicalOperations_isLeast
  obtain ⟨-, operations, hoperations, -⟩ := planDeployment_plan_eq_some.mp samplePlan_planned
  exact ⟨((hplanned sampleIntent).2 samplePlan samplePlan_planned).1, operations, hoperations,
    (hsorted _ _ operations hoperations).1⟩

/-- Both starts of one resource, and a create that waits for the one that sorts second. -/
def tiedNodes : OperationGraph :=
  let waits : ExtTreeSet DeploymentOperationId :=
    (∅ : ExtTreeSet DeploymentOperationId).insert ⟨.startContainer, sampleWorker⟩
  (((∅ : OperationGraph).insert ⟨.startPod, sampleWorker⟩ ∅).insert
    ⟨.startContainer, sampleWorker⟩ ∅).insert ⟨.create, sampleNetwork⟩ waits

def tiedOrder : List DeploymentOperationId :=
  [⟨.startContainer, sampleWorker⟩, ⟨.create, sampleNetwork⟩, ⟨.startPod, sampleWorker⟩]

theorem tiedOrder_linearizes : Linearizes tiedNodes tiedOrder := by
  have hdrained := drain_drained (fun id => tiedOrder.idxOf id) tiedNodes.size tiedNodes
  have horder : (drain (fun id => tiedOrder.idxOf id) tiedNodes.size tiedNodes).1 = tiedOrder := by
    decide
  have hrest : (drain (fun id => tiedOrder.idxOf id) tiedNodes.size tiedNodes).2 = ∅ :=
    ExtTreeMap.isEmpty_iff.mp (by decide)
  rw [horder, hrest] at hdrained
  exact hdrained.linearizes

/-- Keys alone do not make a sorted sequence least: here a smaller order respects the map. -/
theorem tiedOrder_smaller : ∃ operations,
    topologicalOperations tiedNodes sampleIntent.index = .ok operations ∧
      Linearizes tiedNodes tiedOrder ∧ compare (tiedOrder.map operationSortKey)
        ((operations.map (·.id)).map operationSortKey) = .lt := by
  have hok : (topologicalOperations tiedNodes sampleIntent.index).isOk = true := by decide
  cases hsorted : topologicalOperations tiedNodes sampleIntent.index with
  | error ids => simp [hsorted, Except.isOk, Except.toBool] at hok
  | ok operations =>
      refine ⟨operations, rfl, tiedOrder_linearizes, ?_⟩
      rw [operations_eq_drain hsorted]
      decide

end PodmanLens
