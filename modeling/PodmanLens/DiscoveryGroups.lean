import Mathlib.Data.List.Pairwise
import PodmanLens.DiscoveryMembers

/-!
# The groups of a discovered graph

The groups are the connected components of the reached resources under grouping edges: disjoint,
non-empty, ordered by their least members, and covering exactly what was reached. The edges that
are returned are those inside the reached set, so they connect the same resources.
-/

namespace PodmanLens
open Std TreeEntries Closure Relation

section Groups
variable {dependencies : List ResourceDependency} {adjacency : Adjacency ResourceIdentity}
  {members : ExtTreeSet ResourceIdentity}

theorem ofComponent_members {component : ExtTreeSet ResourceIdentity} {group : ResourceGroup}
    (h : ResourceGroup.ofComponent component = some group) : group.members = component.toList := by
  rw [ResourceGroup.ofComponent] at h
  split at h
  · cases h
  · next heq =>
    cases h
    exact heq.symm

theorem exists_ofComponent {component : ExtTreeSet ResourceIdentity} {id : ResourceIdentity}
    (h : id ∈ component) : ∃ group, ResourceGroup.ofComponent component = some group := by
  rw [← ExtTreeSet.mem_toList] at h
  rw [ResourceGroup.ofComponent]
  split
  · next heq =>
    rw [heq] at h
    cases h
  · exact ⟨_, rfl⟩

/-- A group before its prerequisites are filled in comes from one component. -/
theorem mem_groupedMembers {group : ResourceGroup} (h : group ∈ groupedMembers members adjacency) :
    ∃ part ∈ peel (neighbors adjacency) members.size members, group.members = part.toList := by
  obtain ⟨part, hpart, hgroup⟩ := List.mem_filterMap.mp h
  exact ⟨part, hpart, ofComponent_members hgroup⟩

theorem exists_mem_groupedMembers {part : ExtTreeSet ResourceIdentity compare}
    {id : ResourceIdentity}
    (hpart : part ∈ peel (neighbors adjacency) members.size members) (hid : id ∈ part) :
    ∃ group ∈ groupedMembers members adjacency, group.members = part.toList := by
  obtain ⟨group, hgroup⟩ := exists_ofComponent hid
  exact ⟨group, List.mem_filterMap.mpr ⟨part, hpart, hgroup⟩, ofComponent_members hgroup⟩

theorem mem_sortGroups {groups : List ResourceGroup} {group : ResourceGroup} :
    group ∈ sortGroups groups ↔ group ∈ groups :=
  (List.perm_insertionSort _ groups).mem_iff

/-- Filling in prerequisites and sorting keep the member lists. -/
theorem exists_mem_finished {ms : List ResourceIdentity} :
    (∃ group ∈ sortGroups ((groupedMembers members adjacency).map
        (ResourceGroup.withPrerequisites dependencies)), group.members = ms) ↔
      ∃ group ∈ groupedMembers members adjacency, group.members = ms := by
  simp only [mem_sortGroups, List.mem_map]
  constructor
  · rintro ⟨_, ⟨group, hgroup, rfl⟩, hms⟩
    exact ⟨group, hgroup, hms⟩
  · rintro ⟨group, hgroup, hms⟩
    exact ⟨_, ⟨group, hgroup, rfl⟩, hms⟩

end Groups

variable {inventory : ResourceInventory} {request : DiscoveryRequest} {graph : ResourceGraph}

theorem components_expansion (inventory : ResourceInventory) (request : DiscoveryRequest) :
    Components (neighbors inventory.adjacency) (inventory.expansion request).members
      (peel (neighbors inventory.adjacency) (inventory.expansion request).members.size
        (inventory.expansion request).members) :=
  peel_components (groupingAdjacency_symm inventory.groupingEdges) le_rfl

/-- Groups and components have the same elements. -/
theorem exists_group_iff (property : (ResourceIdentity → Prop) → Prop)
    (hproperty : ∀ part, property part → ∃ id, part id) :
    (∃ group ∈ inventory.groups request, property (· ∈ group.members)) ↔
      ∃ part ∈ peel (neighbors inventory.adjacency) (inventory.expansion request).members.size
        (inventory.expansion request).members, property (· ∈ part) := by
  have hsame : ∀ part : ExtTreeSet ResourceIdentity, (· ∈ part.toList) = (· ∈ part) := by
    intro part
    funext id
    exact propext ExtTreeSet.mem_toList
  constructor
  · rintro ⟨group, hgroup, hholds⟩
    obtain ⟨found, hfound, hmembers⟩ := exists_mem_finished.mp ⟨group, hgroup, rfl⟩
    obtain ⟨part, hpart, hpartMembers⟩ := mem_groupedMembers hfound
    refine ⟨part, hpart, ?_⟩
    rw [← hsame, ← hpartMembers, hmembers]
    exact hholds
  · rintro ⟨part, hpart, hholds⟩
    obtain ⟨id, hid⟩ := hproperty _ hholds
    obtain ⟨found, hfound, hfoundMembers⟩ := exists_mem_groupedMembers hpart hid
    obtain ⟨group, hgroup, hmembers⟩ := exists_mem_finished.mpr ⟨found, hfound, rfl⟩
    refine ⟨group, hgroup, ?_⟩
    rw [hmembers, hfoundMembers, hsame]
    exact hholds

/-- The groups cover exactly what the expansion reached. -/
theorem exists_group_mem_iff {id : ResourceIdentity} :
    (∃ group ∈ inventory.groups request, id ∈ group.members) ↔
      id ∈ (inventory.expansion request).members := by
  rw [(components_expansion inventory request).cover]
  exact exists_group_iff (fun part => part id) fun part h => ⟨id, h⟩

/-- The grouped resources are the least set that holds the seeds and is closed under grouping edges
and authorized network crossings. -/
theorem grouped_isLeast (h : discover inventory request = .ok graph) :
    IsLeast (Reaching inventory request graph.resolvedRoots)
      {id | ∃ group ∈ graph.groups, id ∈ group.members} := by
  have hfrom := discoveredFrom_of_ok h
  simp only [hfrom.groups, hfrom.resolvedRoots, exists_group_mem_iff]
  exact expansion_isLeast

theorem grouped_isLeast_sample : ∃ graph, discover sampleInventory sampleRequest = .ok graph ∧
    graph.groups.map ResourceGroup.members = [[webContainer], [apiContainer, jobContainer]] ∧
    IsLeast (Reaching sampleInventory sampleRequest graph.resolvedRoots)
      {id | ∃ group ∈ graph.groups, id ∈ group.members} := by
  obtain ⟨graph, h, hgroups⟩ := discover_sample
  exact ⟨graph, h, hgroups, grouped_isLeast h⟩

theorem groups_disjoint : (inventory.groups request).Pairwise fun left right =>
    ∀ id ∈ left.members, id ∉ right.members := by
  have hparts : ((groupedMembers (inventory.expansion request).members inventory.adjacency).map
      (ResourceGroup.withPrerequisites inventory.dependencies)).Pairwise fun left right =>
        ∀ id ∈ left.members, id ∉ right.members := by
    rw [List.pairwise_map, groupedMembers, List.pairwise_filterMap]
    apply (components_expansion inventory request).disjoint.imp
    intro left right hdisjoint first hfirst second hsecond id hid
    change id ∈ first.members at hid
    change id ∉ second.members
    rw [ofComponent_members hfirst, ExtTreeSet.mem_toList] at hid
    rw [ofComponent_members hsecond, ExtTreeSet.mem_toList]
    exact hdisjoint id hid
  rw [ResourceInventory.groups, sortGroups]
  apply (List.perm_insertionSort _ _).symm.pairwise hparts
  intro left right hleft id hright hid
  exact hleft id hid hright

theorem group_members_sorted {group : ResourceGroup} (h : group ∈ inventory.groups request) :
    group.members.Pairwise fun a b => compare a b = .lt := by
  obtain ⟨found, hfound, hmembers⟩ := exists_mem_finished.mp ⟨group, h, rfl⟩
  obtain ⟨part, -, hpart⟩ := mem_groupedMembers hfound
  rw [← hmembers, hpart]
  exact part.ordered_toList

theorem group_id_mem (group : ResourceGroup) : group.id ∈ group.members :=
  List.mem_of_mem_head? group.leads

/-- The identifier of a group is its least member. -/
theorem group_id_le {group : ResourceGroup} (h : group ∈ inventory.groups request)
    {id : ResourceIdentity} (hid : id ∈ group.members) : (compare group.id id).isLE := by
  obtain ⟨rest, hrest⟩ := List.head?_eq_some_iff.mp group.leads
  have hsorted := group_members_sorted h
  rw [hrest, List.pairwise_cons] at hsorted
  rw [hrest, List.mem_cons] at hid
  rcases hid with rfl | hid
  · rw [ReflOrd.compare_self]
    rfl
  · rw [hsorted.1 id hid]
    rfl

theorem groups_sorted : (inventory.groups request).Pairwise fun left right =>
    compare left.id right.id = .lt := by
  have hle : (inventory.groups request).Pairwise fun left right =>
      (compare left.id right.id).isLE := by
    have htotal : Std.Total fun left right : ResourceGroup =>
        (compare left.id right.id).isLE = true := by
      constructor
      intro left right
      rw [OrientedOrd.eq_swap (a := right.id)]
      cases compare left.id right.id <;> simp
    have htrans : IsTrans ResourceGroup fun left right =>
        (compare left.id right.id).isLE = true := ⟨fun _ _ _ => TransOrd.isLE_trans⟩
    exact List.pairwise_insertionSort _ _
  have hboth := hle.and groups_disjoint
  apply hboth.imp
  intro left right h
  have hne : left.id ≠ right.id := by
    intro heq
    exact h.2 left.id (group_id_mem left) (heq ▸ group_id_mem right)
  cases hcompare : compare left.id right.id with
  | lt => rfl
  | eq => exact absurd (Std.compare_eq_iff_eq.mp hcompare) hne
  | gt => rw [hcompare] at h; cases h.1

theorem mem_grouped {id : ResourceIdentity} :
    id ∈ inventory.grouped request ↔ id ∈ (inventory.expansion request).members := by
  rw [ResourceInventory.grouped, ExtTreeSet.mem_ofList, List.contains_iff_mem, List.mem_flatMap,
    exists_group_mem_iff]

/-- A returned edge is a grouping edge between two grouped resources. -/
theorem exists_keptEdge_iff {a b : ResourceIdentity} :
    (∃ edge ∈ inventory.keptEdges request, edge.Joins a b) ↔
      Adjacent (neighbors inventory.adjacency)
        {id | id ∈ (inventory.expansion request).members} a b := by
  simp only [Adjacent, mem_adjacency, Joined, ResourceInventory.keptEdges, List.mem_filter,
    Bool.and_eq_true, decide_eq_true_eq, mem_grouped, Set.mem_ofPred_eq]
  constructor
  · rintro ⟨edge, ⟨hedge, hleft, hright⟩, ⟨rfl, rfl⟩ | ⟨rfl, rfl⟩⟩
    · exact ⟨⟨edge, hedge, Or.inl ⟨rfl, rfl⟩⟩, hleft, hright⟩
    · exact ⟨⟨edge, hedge, Or.inr ⟨rfl, rfl⟩⟩, hright, hleft⟩
  · rintro ⟨⟨edge, hedge, ⟨rfl, rfl⟩ | ⟨rfl, rfl⟩⟩, hleft, hright⟩
    · exact ⟨edge, ⟨hedge, hleft, hright⟩, Or.inl ⟨rfl, rfl⟩⟩
    · exact ⟨edge, ⟨hedge, hright, hleft⟩, Or.inr ⟨rfl, rfl⟩⟩

theorem connected_iff_keptEdges {a b : ResourceIdentity} :
    Connected (neighbors inventory.adjacency) {id | id ∈ (inventory.expansion request).members}
      a b ↔ ReflTransGen (fun x y => ∃ edge ∈ inventory.keptEdges request, edge.Joins x y) a b := by
  have hstep : (fun x y => ∃ edge ∈ inventory.keptEdges request, edge.Joins x y) =
      Adjacent (neighbors inventory.adjacency)
        {id | id ∈ (inventory.expansion request).members} := by
    funext x y
    exact propext exists_keptEdge_iff
  rw [hstep]
  rfl

theorem same_group_iff {a b : ResourceIdentity}
    (ha : ∃ group ∈ inventory.groups request, a ∈ group.members) :
    (∃ group ∈ inventory.groups request, a ∈ group.members ∧ b ∈ group.members) ↔
      ReflTransGen (fun x y => ∃ edge ∈ inventory.keptEdges request, edge.Joins x y) a b := by
  have hpart := (components_expansion inventory request).same_part_iff (b := b)
    (groupingAdjacency_symm inventory.groupingEdges) (exists_group_mem_iff.mp ha)
  rw [← connected_iff_keptEdges]
  exact (exists_group_iff (fun part => part a ∧ part b) fun part h => ⟨a, h.1⟩).trans hpart

theorem eq_of_mem_groups {left right : ResourceGroup} (hleft : left ∈ inventory.groups request)
    (hright : right ∈ inventory.groups request) {id : ResourceIdentity} (hl : id ∈ left.members)
    (hr : id ∈ right.members) : left = right := by
  by_contra hne
  have hsymm : Std.Symm fun left right : ResourceGroup => ∀ id ∈ left.members,
      id ∉ right.members := ⟨fun _ _ h id hid hin => h id hin hid⟩
  exact List.Pairwise.forall groups_disjoint hleft hright hne id hl hr

/-- The groups are the connected components of the returned grouping edges, disjoint and non-empty,
each named by its least member, and in the order of their names. -/
theorem groups_are_components (h : discover inventory request = .ok graph) :
    graph.groups.Pairwise (fun left right => ∀ id ∈ left.members, id ∉ right.members) ∧
    (∀ group ∈ graph.groups, group.members ≠ []) ∧
    graph.groups.Pairwise (fun left right => compare left.id right.id = .lt) ∧
    (∀ group ∈ graph.groups, group.id ∈ group.members ∧
      ∀ id ∈ group.members, (compare group.id id).isLE) ∧
    (∀ a b, (∃ group ∈ graph.groups, a ∈ group.members) →
      (∃ group ∈ graph.groups, b ∈ group.members) →
      ((∃ group ∈ graph.groups, a ∈ group.members ∧ b ∈ group.members) ↔
        ReflTransGen (fun x y => ∃ edge ∈ graph.groupingEdges, edge.Joins x y) a b)) ∧
    ∀ edge ∈ graph.groupingEdges, ∀ left ∈ graph.groups, ∀ right ∈ graph.groups,
      edge.left ∈ left.members → edge.right ∈ right.members → left = right := by
  have hfrom := discoveredFrom_of_ok h
  rw [hfrom.groups, hfrom.groupingEdges]
  refine ⟨groups_disjoint, ?_, groups_sorted, ?_, ?_, ?_⟩
  · intro group _ hnil
    have hid := group_id_mem group
    rw [hnil] at hid
    cases hid
  · intro group hgroup
    exact ⟨group_id_mem group, fun id hid => group_id_le hgroup hid⟩
  · intro a b ha _
    exact same_group_iff ha
  · intro edge hedge left hleft right hright hl hr
    have hpath : ReflTransGen (fun x y => ∃ edge ∈ inventory.keptEdges request, edge.Joins x y)
        edge.left edge.right := ReflTransGen.single ⟨edge, hedge, Or.inl ⟨rfl, rfl⟩⟩
    obtain ⟨shared, hshared, hsl, hsr⟩ := (same_group_iff ⟨left, hleft, hl⟩).mpr hpath
    exact (eq_of_mem_groups hleft hshared hl hsl).trans (eq_of_mem_groups hshared hright hsr hr)

theorem groups_are_components_sample : ∃ graph,
    discover sampleInventory sampleRequest = .ok graph ∧
    graph.groups.Pairwise (fun left right => compare left.id right.id = .lt) ∧
    ReflTransGen (fun x y => ∃ edge ∈ graph.groupingEdges, edge.Joins x y)
      apiContainer jobContainer := by
  obtain ⟨graph, h, hgroups⟩ := discover_sample
  obtain ⟨-, -, hsorted, -, hsame, -⟩ := groups_are_components h
  have hmem : [apiContainer, jobContainer] ∈ graph.groups.map ResourceGroup.members := by
    simp [hgroups]
  obtain ⟨group, hgroup, hmembers⟩ := List.mem_map.mp hmem
  have hapi : apiContainer ∈ group.members := by simp [hmembers]
  have hjob : jobContainer ∈ group.members := by simp [hmembers]
  exact ⟨graph, h, hsorted, (hsame _ _ ⟨group, hgroup, hapi⟩ ⟨group, hgroup, hjob⟩).mp
    ⟨group, hgroup, hapi, hjob⟩⟩

end PodmanLens
