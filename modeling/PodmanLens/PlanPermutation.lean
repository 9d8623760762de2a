import PodmanLens.PlanSuccess

/-!
# Declaration order does not matter

Permuting the resources and the startup dependencies of an intent leaves its index, its lifted
edges and hence its operation graph unchanged, so planning returns the same plan or none for both.
-/

namespace PodmanLens
open Std

theorem indexResources_perm {a b : List DeploymentResource} (h : a.Perm b)
    (hdistinct : (b.map (·.identity)).Nodup) : (indexResources a).1 = (indexResources b).1 := by
  have hdistinct' : (a.map (·.identity)).Nodup := (h.map _).nodup_iff.mpr hdistinct
  refine ExtTreeMap.ext_getElem? fun identity => Option.ext fun resource => ?_
  rw [getElem?_index_of_findings_nil (indexResources_findings_eq_nil.mpr hdistinct'),
    getElem?_index_of_findings_nil (indexResources_findings_eq_nil.mpr hdistinct), h.mem_iff]

variable {resources : ResourceIndex} {a b : List StartupDependency}

theorem startupClean_perm (h : a.Perm b) (hclean : StartupClean resources b) :
    StartupClean resources a := by
  have hedges : (liftedEdges resources a).Perm (liftedEdges resources b) := h.filterMap _
  refine ⟨fun dependency hmem => hclean.lifts dependency (h.mem_iff.mp hmem),
    hedges.nodup_iff.mpr hclean.nodup, ?_⟩
  rw [foldl_recordEdge_perm fun edge => hedges.mem_iff]
  exact hclean.acyclic

theorem operationGraph_perm (h : a.Perm b) : operationGraph a resources = operationGraph b resources := by
  have hedges : startupEdges resources a = startupEdges resources b := by
    refine ExtTreeSet.ext_mem fun edge => ?_
    rw [mem_startupEdges, mem_startupEdges]
    simp only [Lifts, h.mem_iff]
  rw [operationGraph, operationGraph, addStartOperations, addStartOperations, hedges]

/-- Two intents that declare the same things in different orders. -/
structure PermutedIntent (a b : DeploymentIntent) : Prop where
  target : a.target = b.target
  connection : a.connection = b.connection
  resources : a.resources.Perm b.resources
  startupDependencies : a.startupDependencies.Perm b.startupDependencies

namespace PermutedIntent

variable {a b : DeploymentIntent}

theorem symm (h : PermutedIntent a b) : PermutedIntent b a :=
  ⟨h.target.symm, h.connection.symm, h.resources.symm, h.startupDependencies.symm⟩

theorem index_eq (h : PermutedIntent a b) (hclean : CleanIntent b) : a.index = b.index :=
  indexResources_perm h.resources hclean.distinct

theorem clean (h : PermutedIntent a b) (hclean : CleanIntent b) : CleanIntent a := by
  refine ⟨(h.resources.map _).nodup_iff.mpr hclean.distinct, ?_, ?_⟩
  · rw [h.index_eq hclean, h.target]
    exact hclean.resources
  · rw [h.index_eq hclean]
    exact startupClean_perm h.startupDependencies hclean.startup

theorem graph_eq (h : PermutedIntent a b) (hclean : CleanIntent b) : a.graph = b.graph := by
  rw [DeploymentIntent.graph, DeploymentIntent.graph, h.index_eq hclean,
    operationGraph_perm h.startupDependencies]

theorem plan_of_plan (h : PermutedIntent a b) {plan : DeploymentPlan}
    (hplan : (planDeployment b).plan = some plan) : (planDeployment a).plan = some plan := by
  obtain ⟨hclean, operations, hoperations, rfl⟩ := planDeployment_plan_eq_some.mp hplan
  refine planDeployment_plan_eq_some.mpr ⟨h.clean hclean, operations, ?_, ?_⟩
  · rw [h.graph_eq hclean, h.index_eq hclean]
    exact hoperations
  · rw [h.index_eq hclean, h.target, h.connection]

end PermutedIntent

/-- Planning a permuted intent gives the same plan, or none for both. -/
theorem planDeployment_plan_perm {a b : DeploymentIntent} (h : PermutedIntent a b) :
    (planDeployment a).plan = (planDeployment b).plan := by
  refine Option.ext fun plan => ⟨?_, ?_⟩
  · intro hplan
    exact h.symm.plan_of_plan hplan
  · intro hplan
    exact h.plan_of_plan hplan

theorem reversed_permutes (intent : DeploymentIntent) :
    PermutedIntent { intent with resources := intent.resources.reverse } intent :=
  ⟨rfl, rfl, List.reverse_perm _, .refl _⟩

theorem planDeployment_plan_perm_sample :
    (planDeployment { sampleIntent with resources := sampleIntent.resources.reverse }).plan =
      some samplePlan :=
  (planDeployment_plan_perm (reversed_permutes sampleIntent)).trans samplePlan_planned

end PodmanLens
