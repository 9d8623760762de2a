import Mathlib.Data.List.Sort
import PodmanLens.DrainRestriction
import PodmanLens.PlanExecution

/-!
# Extending an intent

An intent grows when resources are declared beside those it has, and start edges are added that
only make new containers wait. What was planned before stays planned: the old operations are the
new ones about old resources, unchanged and in their old order, and new operations stand between
them.
-/

namespace PodmanLens
open Std Drain

/-- `larger` declares all of `intent`, and none of its containers waits for more. -/
structure DeploymentIntent.Extends (intent larger : DeploymentIntent) : Prop where
  resources : ∀ resource ∈ intent.resources, resource ∈ larger.resources
  startup : ∀ dependency : StartupDependency, dependency ∈ intent.startupDependencies ↔
    dependency ∈ larger.startupDependencies ∧ ∃ container : ContainerIntent,
      .container container ∈ intent.resources ∧ container.identity = dependency.dependent

variable {intent larger : DeploymentIntent} {plan wider : DeploymentPlan}
  {operation other : DeploymentOperation}

section Operations

theorem RequiredOperation.extend (hext : intent.Extends larger) {id : DeploymentOperationId}
    (h : RequiredOperation intent id) : RequiredOperation larger id := by
  cases h with
  | ensureImage image h => exact .ensureImage image (hext.resources _ h)
  | createNetwork network h => exact .createNetwork network (hext.resources _ h)
  | createVolume volume h => exact .createVolume volume (hext.resources _ h)
  | createSecret secret h => exact .createSecret secret (hext.resources _ h)
  | createPod pod h => exact .createPod pod (hext.resources _ h)
  | createContainer container h => exact .createContainer container (hext.resources _ h)
  | startPod pod h members => exact .startPod pod (hext.resources _ h) members
  | startContainer container h unpodded =>
      exact .startContainer container (hext.resources _ h) unpodded

theorem index_extend (hext : intent.Extends larger) (h : PlannedBy intent plan)
    (h' : PlannedBy larger wider) {identity : DeploymentResourceId}
    (hmem : identity ∈ intent.index) : larger.index[identity]? = intent.index[identity]? := by
  obtain ⟨resource, hget⟩ :=
    Option.isSome_iff_exists.mp (ExtTreeMap.mem_iff_isSome_getElem?.mp hmem)
  obtain ⟨hdeclared, rfl⟩ := h.clean.getElem?_index.mp hget
  rw [hget, h'.clean.getElem?_declared (hext.resources resource hdeclared)]

/-- An operation is planned for the same resource before and after. -/
theorem resourceIntent_extend (hext : intent.Extends larger) (h : PlannedBy intent plan)
    (h' : PlannedBy larger wider) (hmem : operation ∈ plan.operations)
    (hother : other ∈ wider.operations) (hid : other.id = operation.id) :
    other.resourceIntent = operation.resourceIntent := by
  obtain ⟨hdeclared, hidentity⟩ := h.declared hmem
  obtain ⟨hdeclared', hidentity'⟩ := h'.declared hother
  refine h'.clean.eq_of_identity hdeclared' (hext.resources _ hdeclared) ?_
  rw [hidentity', hidentity, hid]

theorem referenced_eq (hid : other.id = operation.id)
    (hintent : other.resourceIntent = operation.resourceIntent) :
    other.referenced = operation.referenced ∧ other.started = operation.started := by
  have hstarted : other.started = operation.started := by
    rw [DeploymentOperation.started, hid, hintent, DeploymentOperation.started]
  exact ⟨by rw [DeploymentOperation.referenced, hid, hintent, hstarted,
    DeploymentOperation.referenced], hstarted⟩

/-- Old containers wait for no more than they did. -/
theorem awaited_extend (hext : intent.Extends larger) (h : PlannedBy intent plan)
    (hmem : operation ∈ plan.operations) {id : DeploymentResourceId} :
    id ∈ awaited larger.startupDependencies operation.started ↔
      id ∈ awaited intent.startupDependencies operation.started := by
  simp only [awaited, List.mem_map, List.mem_filter, List.contains_iff_mem]
  refine exists_congr fun dependency => and_congr_left fun _ => and_congr_left fun hin => ?_
  obtain ⟨container, hcontainer, hnamed, -⟩ := (mem_started h hmem).mp hin
  rw [hext.startup dependency]
  exact (and_iff_left ⟨container, hcontainer, Subtype.ext hnamed⟩).symm

/-- An old operation depends on what it depended on. -/
theorem graph_extend (hext : intent.Extends larger) (h : PlannedBy intent plan)
    (h' : PlannedBy larger wider) (hmem : operation ∈ plan.operations)
    (hother : other ∈ wider.operations) (hid : other.id = operation.id) :
    larger.graph[operation.id]? = intent.graph[operation.id]? := by
  have hintent := resourceIntent_extend hext h h' hmem hother hid
  obtain ⟨hreferenced, hstarted⟩ := referenced_eq hid hintent
  obtain ⟨base, hbase⟩ := prerequisites_of_requires intent.keyed_index (h.requires hmem)
  obtain ⟨base', hbase'⟩ := prerequisites_of_requires larger.keyed_index (h'.requires hother)
  obtain ⟨found, hfound, hiff⟩ := getElem?_operationGraph intent.startupDependencies hbase
  obtain ⟨found', hfound', hiff'⟩ := getElem?_operationGraph larger.startupDependencies hbase'
  have hsame : found' = found := by
    refine ExtTreeSet.ext_mem fun d => ?_
    rw [hiff, hiff', mem_base h hmem hbase, mem_base h' hother hbase', lifts_iff h hmem,
      lifts_iff h' hother, hreferenced, hstarted]
    refine or_congr ?_ ?_
    · refine exists_congr fun id => and_congr_right fun hin => ?_
      rw [isManaged, index_extend hext h h' (mem_referenced h hmem id hin), isManaged]
    · refine exists_congr fun id => ?_
      rw [awaited_extend hext h hmem]
      refine and_congr_right fun hawaited => ?_
      constructor
      · rintro ⟨container, hcontainer, rfl, rfl⟩
        obtain ⟨old, hold, hsame⟩ := awaited_declared h hawaited
        cases h'.clean.eq_of_identity hcontainer (hext.resources _ hold) hsame.symm
        exact ⟨container, hold, rfl, rfl⟩
      · rintro ⟨container, hcontainer, hsame⟩
        exact ⟨container, hext.resources _ hcontainer, hsame⟩
  have hgraph : larger.graph[other.id]? = some found' := hfound'
  rw [← hid, hgraph, hsame, hid]
  exact hfound.symm

theorem mem_operations_extend (hext : intent.Extends larger) (h : PlannedBy intent plan)
    (h' : PlannedBy larger wider) (hmem : operation ∈ plan.operations) :
    operation ∈ wider.operations := by
  obtain ⟨other, hother, hid⟩ := h'.exists_operation ((h.required hmem).extend hext)
  have hintent := resourceIntent_extend hext h h' hmem hother hid
  have hgraph := graph_extend hext h h' hmem hother hid
  obtain ⟨-, -, hdepends, hpull⟩ := describeOperation_ok (h.described operation hmem)
  obtain ⟨-, -, hdepends', hpull'⟩ := describeOperation_ok (h'.described other hother)
  have hsame : other = operation := by
    cases operation
    cases other
    dsimp only at hid hintent hdepends hdepends' hpull hpull' hgraph
    rw [hid, hgraph] at hdepends'
    rw [hid, hintent] at hpull'
    rw [hid, hintent, hdepends, hdepends', hpull, hpull']
  rwa [← hsame]

end Operations

section Order

theorem PlannedBy.mem_graph (h : PlannedBy intent plan) {id : DeploymentOperationId} :
    id ∈ intent.graph ↔ id ∈ plan.ids := by
  rw [h.drained.mem_iff id]
  simp [DeploymentPlan.ids]

theorem downClosed_graph (hext : intent.Extends larger) (h : PlannedBy intent plan)
    (h' : PlannedBy larger wider) : DownClosed intent.graph larger.graph where
  same id hid := by
    obtain ⟨operation, hmem, rfl⟩ := List.mem_map.mp (h.mem_graph.mp hid)
    exact (graph_extend hext h h' hmem (mem_operations_extend hext h h' hmem) rfl).symm
  closed id dependencies d hget hd :=
    h.mem_graph.mpr (h.precedes ⟨dependencies, hget, hd⟩).mem_left

theorem drain_graph (h : (planDeployment intent).plan = some plan) :
    (drain operationSortKey intent.graph.size intent.graph).1 = plan.ids ∧
      (drain operationSortKey intent.graph.size intent.graph).2 = ∅ := by
  have hplanned := plannedBy_of_plan h
  obtain ⟨-, operations, hoperations, rfl⟩ := planDeployment_plan_eq_some.mp h
  have hids := operations_eq_drain hoperations
  refine ⟨hids.symm, ExtTreeMap.eq_empty_iff_forall_not_mem.mpr fun id hid => ?_⟩
  have hdrained := drain_drained operationSortKey intent.graph.size intent.graph
  have hnode : id ∈ intent.graph := (hdrained.mem_iff id).mpr (Or.inr hid)
  rw [hplanned.mem_graph, DeploymentPlan.ids, hids] at hnode
  exact hdrained.notMem_rest hnode hid

theorem ids_extend (hext : intent.Extends larger) (h : (planDeployment intent).plan = some plan)
    (h' : (planDeployment larger).plan = some wider) :
    plan.ids = wider.ids.filter fun id => id ∈ plan.ids := by
  have hplanned := plannedBy_of_plan h
  have hplanned' := plannedBy_of_plan h'
  obtain ⟨hids, -⟩ := drain_graph h
  obtain ⟨hids', hrest⟩ := drain_graph h'
  have hpart := downClosed_graph hext hplanned hplanned'
  have hnodes (id : DeploymentOperationId) (hid : id ∈ intent.graph) : id ∈ larger.graph := by
    obtain ⟨operation, hmem, rfl⟩ := List.mem_map.mp (hplanned.mem_graph.mp hid)
    exact hplanned'.mem_graph.mpr
      (List.mem_map_of_mem (mem_operations_extend hext hplanned hplanned' hmem))
  have hfilter : (drain operationSortKey intent.graph.size intent.graph).1 =
      (drain operationSortKey larger.graph.size larger.graph).1.filter fun id => id ∈ plan.ids :=
    drain_filter larger.graph.size hpart
      (fun id _ => by rw [decide_eq_true_eq, hplanned.mem_graph]) hnodes hrest
      intent.graph.size le_rfl
  rwa [hids, hids'] at hfilter

theorem eq_of_map_eq {α β : Type} {f : α → β} {left right : List α}
    (hf : ∀ a ∈ left, ∀ b ∈ right, f a = f b → a = b) (h : left.map f = right.map f) :
    left = right := by
  induction left generalizing right with
  | nil => exact (List.map_eq_nil_iff.mp h.symm).symm
  | cons a left ih =>
      cases right with
      | nil => cases h
      | cons b right =>
          obtain ⟨hhead, htail⟩ := List.cons.inj h
          rw [hf a List.mem_cons_self b List.mem_cons_self hhead,
            ih (fun x hx y hy => hf x (List.mem_cons_of_mem _ hx) y (List.mem_cons_of_mem _ hy))
              htail]

/-- The operations planned before are those of the extended plan about them, in the same order. -/
theorem plan_extends (hext : intent.Extends larger) (h : (planDeployment intent).plan = some plan)
    (h' : (planDeployment larger).plan = some wider) :
    plan.operations = wider.operations.filter (fun operation => operation.id ∈ plan.ids) ∧
      plan.externalPreconditions.Sublist wider.externalPreconditions := by
  have hplanned := plannedBy_of_plan h
  have hplanned' := plannedBy_of_plan h'
  constructor
  · refine eq_of_map_eq (f := DeploymentOperation.id) (fun a ha b hb hid => ?_) ?_
    · exact eq_of_id hplanned' (mem_operations_extend hext hplanned hplanned' ha)
        (List.mem_filter.mp hb).1 hid
    · have hids := ids_extend hext h h'
      rw [DeploymentPlan.ids, DeploymentPlan.ids, List.filter_map] at hids
      exact hids
  · have hantisymm : Std.Antisymm fun a b : ExternalPrecondition =>
        compare a.identity b.identity = .lt := by
      refine ⟨fun a b hab hba => ?_⟩
      rw [OrientedOrd.eq_swap, hba] at hab
      cases hab
    obtain ⟨-, -, -, hexternal, hordered⟩ := plan_operations_exact h
    obtain ⟨-, -, -, hexternal', hordered'⟩ := plan_operations_exact h'
    have hnodup : plan.externalPreconditions.Nodup := by
      refine hordered.imp fun {a b} hlt heq => ?_
      rw [heq, ReflOrd.compare_self] at hlt
      cases hlt
    refine List.sublist_of_subperm_of_pairwise (List.subperm_of_subset hnodup fun e he => ?_)
      hordered hordered'
    exact (hexternal' e).mpr (hext.resources _ ((hexternal e).mp he))

end Order

section Sample

/-- `sampleIntent` before the worker and its external network were added. -/
def podIntent : DeploymentIntent :=
  { sampleIntent with
    resources := (sampleIntent.resources.drop 1).take 6
    startupDependencies := [] }

def podPlan : DeploymentPlan := (planDeployment podIntent).plan.get (by decide)

theorem podPlan_planned : (planDeployment podIntent).plan = some podPlan :=
  (Option.some_get _).symm

theorem podIntent_extends : podIntent.Extends sampleIntent where
  resources resource hmem := List.mem_of_mem_drop (List.mem_of_mem_take hmem)
  startup dependency := by
    refine ⟨fun hmem => absurd hmem List.not_mem_nil, ?_⟩
    rintro ⟨hmem, container, hcontainer, hdependent⟩
    obtain rfl := List.mem_singleton.mp hmem
    simp [podIntent, sampleIntent] at hcontainer
    subst hcontainer
    exact absurd hdependent (by decide)

theorem plan_extends_sample : podPlan.operations =
    samplePlan.operations.filter fun operation => operation.id ∈ podPlan.ids :=
  (plan_extends podIntent_extends podPlan_planned samplePlan_planned).1

end Sample

end PodmanLens
