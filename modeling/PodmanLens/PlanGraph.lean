import PodmanLens.Plan

/-!
# The operation graph

Nodes of the operation graph are the operations the index requires. What a node waits for is its
own prerequisites together with the lifted startup edges that end in it.
-/

namespace PodmanLens
open Std TreeEntries Drain

def Keyed (resources : ResourceIndex) : Prop :=
  ∀ ⦃identity : DeploymentResourceId⦄ ⦃resource : DeploymentResource⦄,
    resources[identity]? = some resource → resource.identity = identity

theorem keyed_indexResources (resources : List DeploymentResource) :
    Keyed (indexResources resources).1 :=
  fun _ _ h => (identity_of_getElem?_index h).1

/-- The prerequisites of `id` that do not come from startup edges. -/
def Prerequisites (resources : ResourceIndex) (id : DeploymentOperationId)
    (dependencies : ExtTreeSet DeploymentOperationId) : Prop :=
  ∃ resource, resources[id.resource]? = some resource ∧
    (createNode resources (id.resource, resource) = some (id, dependencies) ∨
      startNode resources (id.resource, resource) = some (id, dependencies))

/-- Some declared startup edge lifts to `predecessor → dependent`. -/
def Lifts (resources : ResourceIndex) (dependencies : List StartupDependency)
    (predecessor dependent : DeploymentOperationId) : Prop :=
  ∃ dependency ∈ dependencies,
    startAnchor resources dependency.predecessor = some predecessor ∧
      startAnchor resources dependency.dependent = some dependent

variable {resources : ResourceIndex}

theorem createNode_eq_some {entry : DeploymentResourceId × DeploymentResource}
    {id : DeploymentOperationId} {dependencies : ExtTreeSet DeploymentOperationId} :
    createNode resources entry = some (id, dependencies) ↔ entry.2.isExternal = false ∧
      ⟨if entry.1.kind = .image then .ensureImage else .create, entry.1⟩ = id ∧
      createDependencies entry.2 resources = dependencies := by
  unfold createNode
  cases entry.2.isExternal <;> simp

theorem startNode_eq_some {identity : DeploymentResourceId} {resource : DeploymentResource}
    {id : DeploymentOperationId} {dependencies : ExtTreeSet DeploymentOperationId} :
    startNode resources (identity, resource) = some (id, dependencies) ↔
      (∃ pod, resource = .pod pod ∧ pod.members ≠ [] ∧ ⟨.startPod, identity⟩ = id ∧
        ExtTreeSet.ofList (createOperation identity ::
          managedCreates resources (pod.members.map Subtype.val)) = dependencies) ∨
      ∃ container, resource = .container container ∧ container.pod = none ∧
        ⟨.startContainer, identity⟩ = id ∧
        ExtTreeSet.ofList [createOperation identity] = dependencies := by
  cases resource with
  | pod pod => by_cases h : pod.members = [] <;> simp [startNode, h]
  | container container => by_cases h : container.pod = none <;> simp [startNode, h]
  | _ => simp [startNode]

theorem createNode_resource {entry : DeploymentResourceId × DeploymentResource}
    {id : DeploymentOperationId} {dependencies : ExtTreeSet DeploymentOperationId}
    (h : createNode resources entry = some (id, dependencies)) : id.resource = entry.1 := by
  obtain ⟨-, rfl, -⟩ := createNode_eq_some.mp h
  rfl

theorem startNode_resource {entry : DeploymentResourceId × DeploymentResource}
    {id : DeploymentOperationId} {dependencies : ExtTreeSet DeploymentOperationId}
    (h : startNode resources entry = some (id, dependencies)) : id.resource = entry.1 := by
  obtain ⟨pod, -, -, rfl, -⟩ | ⟨container, -, -, rfl, -⟩ := startNode_eq_some.mp h <;> rfl

theorem createNode_action {entry : DeploymentResourceId × DeploymentResource}
    {id : DeploymentOperationId} {dependencies : ExtTreeSet DeploymentOperationId}
    (h : createNode resources entry = some (id, dependencies)) :
    id.action = .ensureImage ∨ id.action = .create := by
  obtain ⟨-, rfl, -⟩ := createNode_eq_some.mp h
  by_cases hkind : entry.1.kind = .image <;> simp [hkind]

theorem startNode_action {entry : DeploymentResourceId × DeploymentResource}
    {id : DeploymentOperationId} {dependencies : ExtTreeSet DeploymentOperationId}
    (h : startNode resources entry = some (id, dependencies)) :
    id.action = .startPod ∨ id.action = .startContainer := by
  obtain ⟨pod, -, -, rfl, -⟩ | ⟨container, -, -, rfl, -⟩ := startNode_eq_some.mp h
  · exact Or.inl rfl
  · exact Or.inr rfl

theorem createNode_ne_startNode {entry other : DeploymentResourceId × DeploymentResource}
    {id : DeploymentOperationId} {a b : ExtTreeSet DeploymentOperationId}
    (hcreate : createNode resources entry = some (id, a))
    (hstart : startNode resources other = some (id, b)) : False := by
  rcases createNode_action hcreate with h | h <;> rcases startNode_action hstart with h' | h' <;>
    cases h.symm.trans h'

/-- Entries of the index for one resource are one entry. -/
theorem entry_eq_of_resource {a b : DeploymentResourceId × DeploymentResource}
    (ha : a ∈ resources.toList) (hb : b ∈ resources.toList) (h : a.1 = b.1) : a = b := by
  obtain ⟨identity, resource⟩ := a
  obtain ⟨other, resource'⟩ := b
  obtain rfl : identity = other := h
  rw [ExtTreeMap.mem_toList_iff_getElem?_eq_some] at ha hb
  rw [Option.some_injective _ (ha.symm.trans hb)]

theorem getElem?_createNodes {id : DeploymentOperationId}
    {dependencies : ExtTreeSet DeploymentOperationId} :
    (insertAll (createNode resources) resources.toList ∅)[id]? = some dependencies ↔
      ∃ resource, resources[id.resource]? = some resource ∧
        createNode resources (id.resource, resource) = some (id, dependencies) := by
  rw [getElem?_insertAll_empty]
  · constructor
    · rintro ⟨⟨identity, resource⟩, hmem, hnode⟩
      obtain rfl : id.resource = identity := createNode_resource hnode
      exact ⟨resource, ExtTreeMap.mem_toList_iff_getElem?_eq_some.mp hmem, hnode⟩
    · rintro ⟨resource, hget, hnode⟩
      exact ⟨_, ExtTreeMap.mem_toList_iff_getElem?_eq_some.mpr hget, hnode⟩
  · intro a ha b hb x y hx hy
    have hab := entry_eq_of_resource ha hb ((createNode_resource hx).symm.trans (createNode_resource hy))
    rw [hab, hy] at hx
    cases hx
    rfl

theorem getElem?_baseNodes {id : DeploymentOperationId}
    {dependencies : ExtTreeSet DeploymentOperationId} :
    (insertAll (startNode resources) resources.toList
      (insertAll (createNode resources) resources.toList ∅))[id]? = some dependencies ↔
      Prerequisites resources id dependencies := by
  by_cases h : ∃ entry ∈ resources.toList, ∃ content, startNode resources entry = some (id, content)
  · obtain ⟨⟨identity, resource⟩, hmem, content, hnode⟩ := h
    obtain rfl : id.resource = identity := startNode_resource hnode
    have hget := ExtTreeMap.mem_toList_iff_getElem?_eq_some.mp hmem
    rw [getElem?_insertAll_of_mem hmem hnode]
    · constructor
      · rintro ⟨⟩
        exact ⟨resource, hget, Or.inr hnode⟩
      · rintro ⟨other, hother, hcreate | hstart⟩
        · exact (createNode_ne_startNode hcreate hnode).elim
        · rw [hget] at hother
          cases hother
          rw [hnode] at hstart
          cases hstart
          rfl
    · intro other hother found hfound
      rw [entry_eq_of_resource hother hmem ((startNode_resource hfound).symm), hnode] at hfound
      cases hfound
      rfl
  · rw [getElem?_insertAll_of_forall_ne fun entry hentry content hnode =>
      h ⟨entry, hentry, content, hnode⟩, getElem?_createNodes]
    constructor
    · rintro ⟨resource, hget, hnode⟩
      exact ⟨resource, hget, Or.inl hnode⟩
    · rintro ⟨resource, hget, hcreate | hstart⟩
      · exact ⟨resource, hget, hcreate⟩
      · exact absurd ⟨_, ExtTreeMap.mem_toList_iff_getElem?_eq_some.mpr hget, _, hstart⟩ h

theorem getElem?_addEdge (nodes : OperationGraph) (edge : OperationEdge)
    (id : DeploymentOperationId) :
    (addEdge nodes edge)[id]? =
      if edge.dependent = id then nodes[id]?.map (·.insert edge.predecessor) else nodes[id]? := by
  rw [addEdge, ExtTreeMap.getElem?_modify]
  by_cases h : edge.dependent = id <;> simp [h]

theorem mem_foldl_addEdge {edges : List OperationEdge} {nodes : OperationGraph}
    {id : DeploymentOperationId} : id ∈ edges.foldl addEdge nodes ↔ id ∈ nodes := by
  induction edges generalizing nodes with
  | nil => rfl
  | cons edge rest ih =>
      rw [List.foldl_cons, ih, ExtTreeMap.mem_iff_isSome_getElem?,
        ExtTreeMap.mem_iff_isSome_getElem?, getElem?_addEdge]
      split_ifs <;> simp

theorem mem_of_getElem?_foldl_addEdge {edges : List OperationEdge} {nodes : OperationGraph}
    {id : DeploymentOperationId} {base found : ExtTreeSet DeploymentOperationId}
    (hbase : nodes[id]? = some base) (hfound : (edges.foldl addEdge nodes)[id]? = some found)
    (d : DeploymentOperationId) : d ∈ found ↔ d ∈ base ∨ ⟨d, id⟩ ∈ edges := by
  induction edges generalizing nodes base with
  | nil =>
      rw [List.foldl_nil, hbase] at hfound
      cases hfound
      simp
  | cons edge rest ih =>
      rw [List.foldl_cons] at hfound
      by_cases h : edge.dependent = id
      · have hstep : (addEdge nodes edge)[id]? = some (base.insert edge.predecessor) := by
          rw [getElem?_addEdge, if_pos h, hbase, Option.map_some]
        rw [ih hstep hfound, ExtTreeSet.mem_insert, List.mem_cons, Std.compare_eq_iff_eq]
        have hedge : edge.predecessor = d ↔ (⟨d, id⟩ : OperationEdge) = edge := by
          rw [← h]
          constructor
          · rintro rfl
            rfl
          · intro heq
            rw [← heq]
        rw [hedge, or_assoc, or_left_comm]
      · have hstep : (addEdge nodes edge)[id]? = some base := by
          rw [getElem?_addEdge, if_neg h, hbase]
        rw [ih hstep hfound, List.mem_cons]
        have hne : (⟨d, id⟩ : OperationEdge) ≠ edge := by
          rintro rfl
          exact h rfl
        simp [hne]

theorem mem_startupEdges {dependencies : List StartupDependency} {edge : OperationEdge} :
    edge ∈ startupEdges resources dependencies ↔
      Lifts resources dependencies edge.predecessor edge.dependent := by
  simp only [startupEdges, ExtTreeSet.mem_ofList, List.contains_iff_mem, List.mem_filterMap, Lifts]
  refine exists_congr fun dependency => and_congr_right fun _ => ?_
  obtain ⟨predecessor, dependent⟩ := edge
  unfold liftDependency
  cases startAnchor resources dependency.predecessor <;>
    cases startAnchor resources dependency.dependent <;> simp

/-- Nodes are exactly the operations with prerequisites of their own. -/
theorem mem_operationGraph {dependencies : List StartupDependency} {id : DeploymentOperationId} :
    id ∈ operationGraph dependencies resources ↔ ∃ base, Prerequisites resources id base := by
  rw [operationGraph, addStartOperations, mem_foldl_addEdge, ExtTreeMap.mem_iff_isSome_getElem?,
    Option.isSome_iff_exists]
  exact exists_congr fun base => getElem?_baseNodes

theorem mem_dependencies_iff {dependencies : List StartupDependency} {id : DeploymentOperationId}
    {base found : ExtTreeSet DeploymentOperationId} (hbase : Prerequisites resources id base)
    (hfound : (operationGraph dependencies resources)[id]? = some found)
    (d : DeploymentOperationId) : d ∈ found ↔ d ∈ base ∨ Lifts resources dependencies d id := by
  rw [mem_of_getElem?_foldl_addEdge (getElem?_baseNodes.mpr hbase) hfound,
    ExtTreeSet.mem_toList, mem_startupEdges]

theorem getElem?_operationGraph (dependencies : List StartupDependency)
    {id : DeploymentOperationId} {base : ExtTreeSet DeploymentOperationId}
    (hbase : Prerequisites resources id base) :
    ∃ found, (operationGraph dependencies resources)[id]? = some found ∧
      ∀ d, d ∈ found ↔ d ∈ base ∨ Lifts resources dependencies d id := by
  have hmem : id ∈ operationGraph dependencies resources := mem_operationGraph.mpr ⟨base, hbase⟩
  obtain ⟨found, hfound⟩ := Option.isSome_iff_exists.mp (ExtTreeMap.mem_iff_isSome_getElem?.mp hmem)
  exact ⟨found, hfound, mem_dependencies_iff hbase hfound⟩

end PodmanLens
