import Mathlib.Data.List.Sort
import PodmanLens.DiscoveryCrossings
import PodmanLens.DiscoveryPrerequisites

/-!
# Widening a request

Whatever is joined to a member becomes a member, so a group is a whole component of the inventory
and not only of what one request reached. A request that asks for more can then only add groups:
those that were found stay as they are, with their members and prerequisites.
-/

namespace PodmanLens
open Std TreeEntries Closure Relation

/-- `larger` asks for all that `request` asks for. -/
structure DiscoveryRequest.Within (request larger : DiscoveryRequest) : Prop where
  roots : ∀ selector ∈ request.roots, selector ∈ larger.roots
  labelSelectors : ∀ selector ∈ request.labelSelectors, selector ∈ larger.labelSelectors
  all : request.all = true → larger.all = true
  networkBoundaryOverrides : ∀ identifier ∈ request.networkBoundaryOverrides,
    identifier ∈ larger.networkBoundaryOverrides

variable {inventory : ResourceInventory} {request larger : DiscoveryRequest}
  {graph wider : ResourceGraph} {a b id : ResourceIdentity}

section Orders
variable {α β : Type} [Ord β] [TransOrd β]

theorem antisymm_lt (key : α → β) : Std.Antisymm fun a b : α => compare (key a) (key b) = .lt := by
  refine ⟨fun a b hab hba => ?_⟩
  rw [OrientedOrd.eq_swap, hba] at hab
  cases hab

/-- Lists in strict order of a key with the same elements are the same. -/
theorem eq_of_ordered_by (key : α → β) {values values' : List α}
    (h : values.Pairwise fun a b => compare (key a) (key b) = .lt)
    (h' : values'.Pairwise fun a b => compare (key a) (key b) = .lt)
    (hmem : ∀ value, value ∈ values ↔ value ∈ values') : values = values' := by
  have hantisymm : Std.Antisymm fun a b : α => compare (key a) (key b) = .lt := antisymm_lt key
  have hirrefl : Std.Irrefl fun a b : α => compare (key a) (key b) = .lt := by
    refine ⟨fun a ha => ?_⟩
    rw [ReflOrd.compare_self] at ha
    cases ha
  exact h.eq_of_mem_iff h' hmem

/-- A list in strict order whose elements another one has is a part of it. -/
theorem sublist_of_ordered_by (key : α → β) {values values' : List α}
    (h : values.Pairwise fun a b => compare (key a) (key b) = .lt)
    (h' : values'.Pairwise fun a b => compare (key a) (key b) = .lt)
    (hsubset : ∀ value ∈ values, value ∈ values') : values.Sublist values' := by
  have hantisymm : Std.Antisymm fun a b : α => compare (key a) (key b) = .lt := antisymm_lt key
  have hnodup : values.Nodup := by
    refine h.imp fun {a b} hlt heq => ?_
    rw [heq, ReflOrd.compare_self] at hlt
    cases hlt
  exact List.sublist_of_subperm_of_pairwise (List.subperm_of_subset hnodup hsubset) h h'

theorem eq_of_ordered {values values' : List β} (h : values.Pairwise fun a b => compare a b = .lt)
    (h' : values'.Pairwise fun a b => compare a b = .lt)
    (hmem : ∀ value, value ∈ values ↔ value ∈ values') : values = values' :=
  eq_of_ordered_by id h h' hmem

theorem sublist_of_ordered {values values' : List β}
    (h : values.Pairwise fun a b => compare a b = .lt)
    (h' : values'.Pairwise fun a b => compare a b = .lt)
    (hsubset : ∀ value ∈ values, value ∈ values') : values.Sublist values' :=
  sublist_of_ordered_by id h h' hsubset

end Orders

section Components

theorem prerequisites_eq {group : ResourceGroup} (hgroup : group ∈ inventory.groups request) :
    group = group.withPrerequisites inventory.dependencies := by
  rw [ResourceInventory.groups, mem_sortGroups, List.mem_map] at hgroup
  obtain ⟨base, -, rfl⟩ := hgroup
  rfl

theorem ResourceGroup.withPrerequisites_eq {left right : ResourceGroup}
    (hmembers : left.members = right.members) (dependencies : List ResourceDependency) :
    left.withPrerequisites dependencies = right.withPrerequisites dependencies := by
  have hid : left.id = right.id := by
    have hleads := left.leads
    rw [hmembers, right.leads] at hleads
    exact (Option.some.inj hleads).symm
  cases left
  cases right
  cases hmembers
  cases hid
  rfl

/-- Two groups of one inventory that share a member are the same, whatever the requests were. -/
theorem group_eq_of_shared {left right : ResourceGroup} (hleft : left ∈ inventory.groups request)
    (hright : right ∈ inventory.groups larger) (hl : a ∈ left.members) (hr : a ∈ right.members) :
    left = right := by
  have hmembers : left.members = right.members :=
    eq_of_ordered (group_members_sorted hleft) (group_members_sorted hright) fun x =>
      (mem_group_iff hleft hl).trans (mem_group_iff hright hr).symm
  rw [prerequisites_eq hleft, prerequisites_eq hright]
  exact ResourceGroup.withPrerequisites_eq hmembers inventory.dependencies

end Components

section Monotone

theorem Named.widened (hwithin : request.Within larger) (h : Named inventory request id) :
    Named inventory larger id := by
  cases h with
  | exact selector hrequested hkind hresolves =>
      exact .exact selector (hwithin.roots selector hrequested) hkind hresolves
  | namePrefix selector hrequested hkind hresolves =>
      exact .namePrefix selector (hwithin.roots selector hrequested) hkind hresolves
  | label selector hrequested record hrecorded hcarries =>
      exact .label selector (hwithin.labelSelectors selector hrequested) record hrecorded hcarries

theorem resolvedRoots_widened (hwithin : request.Within larger)
    (h : id ∈ (inventory.selection request).resolvedRoots) :
    id ∈ (inventory.selection larger).resolvedRoots := by
  rw [mem_selection] at h ⊢
  rcases h with hnamed | ⟨hall, heligible⟩
  · exact Or.inl (hnamed.widened hwithin)
  · exact Or.inr ⟨hwithin.all hall, heligible⟩

theorem Seed.widened {roots more : List ResourceIdentity} (hroots : ∀ id ∈ roots, id ∈ more)
    (h : Seed inventory roots id) : Seed inventory more id := by
  rcases h with ⟨hroot, hplain⟩ | ⟨shared, hroot, hshared, hconsumes⟩ | ⟨hroot, hshared, hnone⟩
  · exact Or.inl ⟨hroots id hroot, hplain⟩
  · exact Or.inr (Or.inl ⟨shared, hroots shared hroot, hshared, hconsumes⟩)
  · exact Or.inr (Or.inr ⟨hroots id hroot, hshared, hnone⟩)

theorem Crosses.widened (hoverrides : ∀ identifier ∈ request.networkBoundaryOverrides,
      identifier ∈ larger.networkBoundaryOverrides) (h : Crosses inventory request a b) :
    Crosses inventory larger a b := by
  obtain ⟨network, hkind, ⟨identifier, hmem, hresolves⟩, hconsumed⟩ := h
  exact ⟨network, hkind, ⟨identifier, hoverrides identifier hmem, hresolves⟩, hconsumed⟩

theorem expansion_widened (hwithin : request.Within larger)
    (h : id ∈ (inventory.expansion request).members) :
    id ∈ (inventory.expansion larger).members := by
  have hwider : {id | id ∈ (inventory.expansion larger).members} ∈
      Reaching inventory larger (inventory.selection larger).resolvedRoots.toList :=
    expansion_isLeast.1
  have hroots : ∀ id ∈ (inventory.selection request).resolvedRoots.toList,
      id ∈ (inventory.selection larger).resolvedRoots.toList := by
    intro id hid
    rw [ExtTreeSet.mem_toList] at hid ⊢
    exact resolvedRoots_widened hwithin hid
  have hreaching : {id | id ∈ (inventory.expansion larger).members} ∈
      Reaching inventory request (inventory.selection request).resolvedRoots.toList := by
    refine ⟨fun id hseed => hwider.1 id (hseed.widened hroots), hwider.2.1, ?_⟩
    intro a ha b hcrosses
    exact hwider.2.2 a ha b (hcrosses.widened hwithin.networkBoundaryOverrides)
  exact Set.mem_ofPred.mp (expansion_isLeast.2 hreaching (Set.mem_ofPred.mpr h))

theorem groups_widened (hwithin : request.Within larger) :
    (inventory.groups request).Sublist (inventory.groups larger) := by
  refine sublist_of_ordered_by ResourceGroup.id groups_sorted groups_sorted fun group hgroup => ?_
  have hreached := expansion_widened hwithin
    (exists_group_mem_iff.mp ⟨group, hgroup, group_id_mem group⟩)
  obtain ⟨found, hfound, hmember⟩ := exists_group_mem_iff.mpr hreached
  rwa [group_eq_of_shared hgroup hfound (group_id_mem group) hmember]

theorem grouped_widened (hwithin : request.Within larger) (h : id ∈ inventory.grouped request) :
    id ∈ inventory.grouped larger := by
  rw [mem_grouped] at h ⊢
  exact expansion_widened hwithin h

theorem asked_widened (hwithin : request.Within larger) (h : discover inventory request = .ok graph) :
    ∃ wider, discover inventory larger = .ok wider := by
  rw [discover] at h ⊢
  split at h
  · cases h
  next hasked =>
    rw [if_neg]
    · exact ⟨_, rfl⟩
    · intro hempty
      refine hasked ?_
      simp only [Bool.and_eq_true, Bool.not_eq_true', ExtTreeSet.isEmpty_iff] at hempty ⊢
      obtain ⟨⟨hall, hroots⟩, hlabels⟩ := hempty
      refine ⟨⟨?_, ?_⟩, ?_⟩
      · exact Bool.eq_false_iff.mpr fun h => Bool.noConfusion (hall.symm.trans (hwithin.all h))
      · refine ExtTreeSet.eq_empty_iff_forall_not_mem.mpr fun selector hselector => ?_
        exact ExtTreeSet.not_mem_empty (hroots ▸ hwithin.roots selector hselector)
      · refine ExtTreeSet.eq_empty_iff_forall_not_mem.mpr fun selector hselector => ?_
        exact ExtTreeSet.not_mem_empty (hlabels ▸ hwithin.labelSelectors selector hselector)

/-- A wider request keeps what was found: every root, group, edge, dependency and shared prerequisite
stays, in the same order. -/
theorem discover_widened (hwithin : request.Within larger)
    (h : discover inventory request = .ok graph) :
    ∃ wider, discover inventory larger = .ok wider ∧
      graph.groups.Sublist wider.groups ∧
      graph.resolvedRoots.Sublist wider.resolvedRoots ∧
      graph.groupingEdges.Sublist wider.groupingEdges ∧
      graph.dependencies.Sublist wider.dependencies ∧
      graph.sharedPrerequisites.Sublist wider.sharedPrerequisites := by
  obtain ⟨wider, hwider⟩ := asked_widened hwithin h
  have hfrom := discoveredFrom_of_ok h
  have hfrom' := discoveredFrom_of_ok hwider
  refine ⟨wider, hwider, ?_, ?_, ?_, ?_, ?_⟩
  · rw [hfrom.groups, hfrom'.groups]
    exact groups_widened hwithin
  · rw [hfrom.resolvedRoots, hfrom'.resolvedRoots]
    refine sublist_of_ordered ExtTreeSet.ordered_toList ExtTreeSet.ordered_toList fun id hid => ?_
    rw [ExtTreeSet.mem_toList] at hid ⊢
    exact resolvedRoots_widened hwithin hid
  · rw [hfrom.groupingEdges, hfrom'.groupingEdges]
    refine List.monotone_filter_right _ fun edge hedge => ?_
    simp only [Bool.and_eq_true, decide_eq_true_eq] at hedge ⊢
    exact ⟨grouped_widened hwithin hedge.1, grouped_widened hwithin hedge.2⟩
  · rw [(dependencies_of_ok h).1, (dependencies_of_ok hwider).1]
    refine List.monotone_filter_right _ fun edge hedge => ?_
    rw [decide_eq_true_eq] at hedge ⊢
    exact grouped_widened hwithin hedge
  · rw [(dependencies_of_ok h).2, (dependencies_of_ok hwider).2]
    refine sublist_of_ordered (sharedPrerequisites_sorted _) (sharedPrerequisites_sorted _)
      fun id => ?_
    rw [mem_sharedPrerequisites groups_nodup fun group hgroup => prerequisites_nodup hgroup,
      mem_sharedPrerequisites groups_nodup fun group hgroup => prerequisites_nodup hgroup]
    rintro ⟨left, hleft, right, hright, hne, hneeds⟩
    exact ⟨left, (groups_widened hwithin).subset hleft, right,
      (groups_widened hwithin).subset hright, hne, hneeds⟩

end Monotone

section Reasked

/-- Members that are asked for again are seeds that were already reached. -/
theorem expansion_reasked (hwithin : request.Within larger)
    (hoverrides : ∀ identifier ∈ larger.networkBoundaryOverrides,
      identifier ∈ request.networkBoundaryOverrides)
    (hroots : ∀ id ∈ (inventory.selection larger).resolvedRoots,
      id ∈ (inventory.selection request).resolvedRoots ∨
        (isSharedKind id.kind = false ∧ id ∈ (inventory.expansion request).members)) :
    (inventory.expansion larger).members = (inventory.expansion request).members := by
  have hreached : {id | id ∈ (inventory.expansion request).members} ∈
      Reaching inventory request (inventory.selection request).resolvedRoots.toList :=
    expansion_isLeast.1
  refine ExtTreeSet.ext_mem fun id => ⟨fun hid => ?_, expansion_widened hwithin⟩
  have hreaching : {id | id ∈ (inventory.expansion request).members} ∈
      Reaching inventory larger (inventory.selection larger).resolvedRoots.toList := by
    refine ⟨?_, hreached.2.1, ?_⟩
    · intro id hseed
      simp only [Seed, ExtTreeSet.mem_toList] at hseed
      rcases hseed with ⟨hroot, hplain⟩ | ⟨shared, hroot, hshared, hconsumes⟩ |
        ⟨hroot, hshared, hnone⟩
      · rcases hroots id hroot with hold | ⟨-, hfound⟩
        · exact hreached.1 id (Or.inl ⟨ExtTreeSet.mem_toList.mpr hold, hplain⟩)
        · exact Set.mem_ofPred.mpr hfound
      · rcases hroots shared hroot with hold | ⟨hplain, -⟩
        · exact hreached.1 id
            (Or.inr (Or.inl ⟨shared, ExtTreeSet.mem_toList.mpr hold, hshared, hconsumes⟩))
        · exact Bool.noConfusion (hshared.symm.trans hplain)
      · rcases hroots id hroot with hold | ⟨hplain, -⟩
        · exact hreached.1 id (Or.inr (Or.inr ⟨ExtTreeSet.mem_toList.mpr hold, hshared, hnone⟩))
        · exact Bool.noConfusion (hshared.symm.trans hplain)
    · intro a ha b hcrosses
      exact hreached.2.2 a ha b (hcrosses.widened hoverrides)
  exact Set.mem_ofPred.mp (expansion_isLeast.2 hreaching (Set.mem_ofPred.mpr hid))

/-- Asking also for containers and pods that were already grouped finds the same groups. -/
theorem discover_reasked (hwithin : request.Within larger)
    (hoverrides : ∀ identifier ∈ larger.networkBoundaryOverrides,
      identifier ∈ request.networkBoundaryOverrides)
    (h : discover inventory request = .ok graph) (hwider : discover inventory larger = .ok wider)
    (hroots : ∀ id ∈ wider.resolvedRoots, id ∈ graph.resolvedRoots ∨
      (isSharedKind id.kind = false ∧ ∃ group ∈ graph.groups, id ∈ group.members)) :
    wider.groups = graph.groups ∧ wider.groupingEdges = graph.groupingEdges ∧
      wider.dependencies = graph.dependencies ∧
      wider.sharedPrerequisites = graph.sharedPrerequisites := by
  have hfrom := discoveredFrom_of_ok h
  have hfrom' := discoveredFrom_of_ok hwider
  have hmembers : (inventory.expansion larger).members = (inventory.expansion request).members := by
    refine expansion_reasked hwithin hoverrides fun id hid => ?_
    rw [hfrom'.resolvedRoots, hfrom.resolvedRoots, hfrom.groups] at hroots
    have hroot := hroots id (ExtTreeSet.mem_toList.mpr hid)
    rwa [ExtTreeSet.mem_toList, exists_group_mem_iff] at hroot
  have hgroups : inventory.groups larger = inventory.groups request := by
    rw [ResourceInventory.groups, hmembers, ResourceInventory.groups]
  have hgrouped : inventory.grouped larger = inventory.grouped request := by
    rw [ResourceInventory.grouped, hgroups, ResourceInventory.grouped]
  refine ⟨?_, ?_, ?_, ?_⟩
  · rw [hfrom'.groups, hfrom.groups, hgroups]
  · rw [hfrom'.groupingEdges, hfrom.groupingEdges, ResourceInventory.keptEdges, hgrouped,
      ResourceInventory.keptEdges]
  · rw [(dependencies_of_ok hwider).1, (dependencies_of_ok h).1, hgrouped]
  · rw [(dependencies_of_ok hwider).2, (dependencies_of_ok h).2, hgroups]

end Reasked

section Sample

/-- The sample request, and also the second container by its identifier. -/
def widerRequest : DiscoveryRequest :=
  sampleRequest.addRoot ⟨.container, ⟨"c2", rfl⟩, .exact⟩

theorem within_widerRequest : sampleRequest.Within widerRequest := by
  refine ⟨fun selector h => ?_, fun _ h => h, fun h => h, fun _ h => h⟩
  exact ExtTreeSet.mem_insert.mpr (Or.inr h)

theorem discover_widened_sample : ∃ graph wider,
    discover sampleInventory sampleRequest = .ok graph ∧
    discover sampleInventory widerRequest = .ok wider ∧ graph.groups.Sublist wider.groups := by
  obtain ⟨graph, h, -⟩ := discover_sample
  obtain ⟨wider, hwider, hgroups, -⟩ := discover_widened within_widerRequest h
  exact ⟨graph, wider, h, hwider, hgroups⟩

theorem resolvedRoots_widerRequest : ∀ wider, discover sampleInventory widerRequest = .ok wider →
    wider.resolvedRoots = [webContainer, apiContainer] := by
  have hroots : (discover sampleInventory widerRequest).toOption.map
      ResourceGraph.resolvedRoots = some [webContainer, apiContainer] := by decide +kernel
  intro wider h
  rw [h] at hroots
  exact Option.some.inj hroots

theorem discover_reasked_sample : ∃ graph wider,
    discover sampleInventory sampleRequest = .ok graph ∧
    discover sampleInventory widerRequest = .ok wider ∧ wider.groups = graph.groups := by
  obtain ⟨graph, h, hgroups⟩ := discover_sample
  obtain ⟨wider, hwider⟩ := asked_widened within_widerRequest h
  have hgrouped : ∀ id ∈ [webContainer, apiContainer],
      isSharedKind id.kind = false ∧ ∃ group ∈ graph.groups, id ∈ group.members := by
    intro id hid
    refine ⟨?_, ?_⟩
    · simp only [List.mem_cons, List.not_mem_nil, or_false] at hid
      rcases hid with rfl | rfl <;> rfl
    · have hmem : ∃ members ∈ graph.groups.map ResourceGroup.members, id ∈ members := by
        rw [hgroups]
        simp only [List.mem_cons, List.not_mem_nil, or_false] at hid
        rcases hid with rfl | rfl
        · exact ⟨_, List.mem_cons_self, List.mem_cons_self⟩
        · exact ⟨_, List.mem_cons_of_mem _ List.mem_cons_self, List.mem_cons_self⟩
      obtain ⟨members, hmembers, hin⟩ := hmem
      obtain ⟨group, hgroup, rfl⟩ := List.mem_map.mp hmembers
      exact ⟨group, hgroup, hin⟩
  refine ⟨graph, wider, h, hwider, ?_⟩
  refine (discover_reasked within_widerRequest (fun _ h => h) h hwider fun id hid => ?_).1
  rw [resolvedRoots_widerRequest wider hwider] at hid
  exact Or.inr (hgrouped id hid)

end Sample

end PodmanLens
