import PodmanLens.Discovery

/-!
# What discovery reaches

The grouped resources are the least set that holds the seeds of the request and is closed under
grouping edges and authorized network crossings. Each loop of the source contributes one half: it
adds only what a closed set must hold, and it stops only when nothing can be added.
-/

namespace PodmanLens
open Std TreeEntries Closure

section Relations
variable (inventory : ResourceInventory) (request : DiscoveryRequest)

def Consumes (dependent prerequisite : ResourceIdentity) : Prop :=
  ∃ edge ∈ inventory.dependencies, edge.dependent = dependent ∧ edge.prerequisite = prerequisite

def Joined (a b : ResourceIdentity) : Prop := ∃ edge ∈ inventory.groupingEdges, edge.Joins a b

/-- A network that a boundary override of the request resolves to. -/
def BoundaryNetwork (network : ResourceIdentity) : Prop :=
  ∃ identifier ∈ request.networkBoundaryOverrides,
    resolveSelector inventory.records (boundarySelector identifier) = .one network

/-- `consumer` uses a boundary network that `member` uses too. -/
def Crosses (member consumer : ResourceIdentity) : Prop :=
  ∃ network, network.kind = .network ∧ BoundaryNetwork inventory request network ∧
    Consumes inventory member network ∧ Consumes inventory consumer network

/-- Non-shared roots, consumers of shared roots, and shared roots without consumers. -/
def Seed (resolvedRoots : List ResourceIdentity) (id : ResourceIdentity) : Prop :=
  (id ∈ resolvedRoots ∧ isSharedKind id.kind = false) ∨
    (∃ shared ∈ resolvedRoots, isSharedKind shared.kind = true ∧ Consumes inventory id shared) ∨
    (id ∈ resolvedRoots ∧ isSharedKind id.kind = true ∧ ∀ consumer, ¬Consumes inventory consumer id)

/-- The sets that hold every seed and are closed under grouping and crossing. -/
def Reaching (resolvedRoots : List ResourceIdentity) : Set (Set ResourceIdentity) :=
  {reached | (∀ id, Seed inventory resolvedRoots id → id ∈ reached) ∧
    ClosedUnder (Joined inventory) reached ∧ ClosedUnder (Crosses inventory request) reached}

/-- One round of the boundary loop. -/
def ResourceInventory.round : Expansion → Expansion :=
  expandOnce inventory.dependencies inventory.reverse inventory.adjacency
    (ExtTreeSet.ofList (contents (inventory.networkBoundaries request)))

end Relations

variable {inventory : ResourceInventory} {request : DiscoveryRequest}

theorem mem_reverse {prerequisite dependent : ResourceIdentity} :
    dependent ∈ neighbors inventory.reverse prerequisite ↔
      Consumes inventory dependent prerequisite := mem_reverseDependencies

theorem mem_adjacency {a b : ResourceIdentity} :
    b ∈ neighbors inventory.adjacency a ↔ Joined inventory a b := mem_groupingAdjacency

/-- What an accepted request returns, phase by phase. -/
structure DiscoveredFrom (inventory : ResourceInventory) (request : DiscoveryRequest)
    (graph : ResourceGraph) : Prop where
  resolvedRoots : graph.resolvedRoots = (inventory.selection request).resolvedRoots.toList
  groups : graph.groups = inventory.groups request
  groupingEdges : graph.groupingEdges = inventory.keptEdges request

theorem discoveredFrom_of_ok {graph : ResourceGraph} (h : discover inventory request = .ok graph) :
    DiscoveredFrom inventory request graph := by
  rw [discover] at h
  split at h
  · cases h
  · cases h
    constructor <;> dsimp only

section Roots

/-- Roots are kept apart by whether their kind is shared. -/
structure RootSelection.Classified (state : RootSelection) : Prop where
  members : ∀ id, id ∈ state.members ↔ id ∈ state.resolvedRoots ∧ isSharedKind id.kind = false
  shared : ∀ id, id ∈ state.explicitlySelectedShared ↔
    id ∈ state.resolvedRoots ∧ isSharedKind id.kind = true

theorem RootSelection.classified_empty : RootSelection.empty.Classified := by
  constructor <;> simp [RootSelection.empty]

theorem RootSelection.Classified.report {state : RootSelection} (h : state.Classified)
    (finding : DiscoveryFinding) : (state.report finding).Classified := ⟨h.members, h.shared⟩

theorem RootSelection.Classified.select {state : RootSelection} (h : state.Classified)
    (origin : DiscoveryRootOrigin) (identity : ResourceIdentity) :
    (state.select origin identity).Classified := by
  rw [RootSelection.select]
  split_ifs with hshared
  · constructor
    · intro id
      simp only [h.members, ExtTreeSet.mem_insert, Std.compare_eq_iff_eq]
      grind
    · intro id
      simp only [h.shared, ExtTreeSet.mem_insert, Std.compare_eq_iff_eq]
      grind
  · constructor
    · intro id
      simp only [h.members, ExtTreeSet.mem_insert, Std.compare_eq_iff_eq]
      grind
    · intro id
      simp only [h.shared, ExtTreeSet.mem_insert, Std.compare_eq_iff_eq]
      grind

theorem RootSelection.Classified.selectMatched {state : RootSelection} (h : state.Classified)
    (origin : DiscoveryRootOrigin) (unresolved : DiscoveryFinding)
    (matched : List ResourceIdentity) :
    (state.selectMatched origin unresolved matched).Classified := by
  have hinitial : (if matched.isEmpty then state.report unresolved else state).Classified := by
    split_ifs
    · exact h.report unresolved
    · exact h
  exact List.foldlRecOn matched _ hinitial fun current hcurrent id _ => hcurrent.select origin id

theorem RootSelection.Classified.selectRoot {state : RootSelection} (h : state.Classified)
    (records : Records) (entry : ResourceSelector × ℕ) :
    (state.selectRoot records entry).Classified := by
  obtain ⟨selector, position⟩ := entry
  rw [RootSelection.selectRoot]
  split
  · exact h.selectMatched _ _ _
  · split
    · exact h.select _ _
    · exact h.report _
    · exact h.report _

theorem classified_selectRoots (records : Records) (ownership : Ownership)
    (reverse : Adjacency ResourceIdentity) (request : DiscoveryRequest) :
    (selectRoots records ownership reverse request).Classified := by
  have hselected : (request.roots.toList.zipIdx.foldl (RootSelection.selectRoot records)
      .empty).Classified :=
    List.foldlRecOn _ _ RootSelection.classified_empty fun _ h entry _ =>
      h.selectRoot records entry
  have hlabelled : (request.labelSelectors.toList.zipIdx.foldl (RootSelection.selectLabel records)
      (request.roots.toList.zipIdx.foldl (RootSelection.selectRoot records) .empty)).Classified :=
    List.foldlRecOn _ _ hselected fun _ h entry _ => h.selectMatched _ _ _
  rw [selectRoots]
  split_ifs
  · apply List.foldlRecOn _ _ hlabelled
    intro state h entry _
    split_ifs
    · exact h.select _ _
    · exact h
  · exact hlabelled

theorem mem_foldl_crossShared {reverse : Adjacency ResourceIdentity}
    {shared : List ResourceIdentity}
    {state : ExtTreeSet ResourceIdentity × ExtTreeSet ResourceIdentity} {id : ResourceIdentity} :
    id ∈ (shared.foldl (crossShared reverse) state).1 ↔ id ∈ state.1 ∨ ∃ root ∈ shared,
      (neighbors reverse root = [] ∧ id = root) ∨ id ∈ neighbors reverse root := by
  induction shared generalizing state with
  | nil => simp
  | cons root rest ih =>
      rw [List.foldl_cons, ih, List.exists_mem_cons_iff, ← or_assoc]
      apply or_congr_left
      rw [crossShared]
      split_ifs with hempty
      · rw [List.isEmpty_iff] at hempty
        rw [ExtTreeSet.mem_insert, Std.compare_eq_iff_eq, hempty]
        simp [eq_comm, or_comm]
      · rw [List.isEmpty_iff] at hempty
        rw [mem_extend]
        simp [hempty]

/-- The initial members are the seeds of the resolved roots. -/
theorem mem_seeded {id : ResourceIdentity} : id ∈ (inventory.seeded request).1 ↔
    Seed inventory (inventory.selection request).resolvedRoots.toList id := by
  have hclassified : (inventory.selection request).Classified := classified_selectRoots _ _ _ _
  have hlonely : ∀ root, neighbors inventory.reverse root = [] ↔
      ∀ consumer, ¬Consumes inventory consumer root := by
    intro root
    simp only [List.eq_nil_iff_forall_not_mem, mem_reverse]
  rw [ResourceInventory.seeded, mem_foldl_crossShared, hclassified.members]
  simp only [Seed, ExtTreeSet.mem_toList, hclassified.shared, mem_reverse, hlonely]
  constructor
  · rintro (hroot | ⟨root, ⟨hroot, hshared⟩, ⟨hnone, rfl⟩ | hconsumer⟩)
    · exact Or.inl hroot
    · exact Or.inr (Or.inr ⟨hroot, hshared, hnone⟩)
    · exact Or.inr (Or.inl ⟨root, hroot, hshared, hconsumer⟩)
  · rintro (hroot | ⟨root, hroot, hshared, hconsumer⟩ | ⟨hroot, hshared, hnone⟩)
    · exact Or.inl hroot
    · exact Or.inr ⟨root, ⟨hroot, hshared⟩, Or.inr hconsumer⟩
    · exact Or.inr ⟨id, ⟨hroot, hshared⟩, Or.inl ⟨hnone, rfl⟩⟩

end Roots

section Boundaries

def boundaryEntry (records : Records) (identifier : ExactReference) :
    Option (ExactReference × ResourceIdentity) :=
  match resolveSelector records (boundarySelector identifier) with
  | .one identity => some (identifier, identity)
  | _ => none

theorem resolveNetworkBoundaries_fst (records : Records) (request : DiscoveryRequest) :
    (resolveNetworkBoundaries records request).1 =
      insertAll (boundaryEntry records) request.networkBoundaryOverrides.toList ∅ := by
  rw [resolveNetworkBoundaries]
  induction request.networkBoundaryOverrides.toList using List.reverseRecOn with
  | nil => rfl
  | append_singleton front last ih =>
      rw [insertAll_append, ← ih, List.foldl_append]
      change _ = insertEntry _ (boundaryEntry records last)
      rw [boundaryEntry, List.foldl_cons, List.foldl_nil]
      cases resolveSelector records (boundarySelector last) <;> rfl

/-- An override is recorded exactly when it resolves. -/
theorem getElem?_networkBoundaries {identifier : ExactReference} {network : ResourceIdentity} :
    (inventory.networkBoundaries request)[identifier]? = some network ↔
      identifier ∈ request.networkBoundaryOverrides ∧
        resolveSelector inventory.records (boundarySelector identifier) = .one network := by
  have hentry : ∀ identifier key identity, boundaryEntry inventory.records identifier =
      some (key, identity) ↔ identifier = key ∧
        resolveSelector inventory.records (boundarySelector key) = .one identity := by
    intro identifier key identity
    rw [boundaryEntry]
    constructor
    · intro h
      split at h <;> cases h
      next hresolve => exact ⟨rfl, hresolve⟩
    · rintro ⟨rfl, hresolve⟩
      rw [hresolve]
  rw [ResourceInventory.networkBoundaries, resolveNetworkBoundaries_fst,
    getElem?_insertAll_empty]
  · simp only [hentry, ExtTreeSet.mem_toList]
    constructor
    · rintro ⟨identifier, hmem, rfl, hresolve⟩
      exact ⟨hmem, hresolve⟩
    · rintro ⟨hmem, hresolve⟩
      exact ⟨identifier, hmem, rfl, hresolve⟩
  · intro left _ right _ x y hx hy
    have hxy := ((hentry left identifier x).mp hx).2.symm.trans ((hentry right identifier y).mp hy).2
    cases hxy
    rfl

theorem mem_networkBoundaries {network : ResourceIdentity} :
    network ∈ ExtTreeSet.ofList (contents (inventory.networkBoundaries request)) ↔
      BoundaryNetwork inventory request network := by
  rw [ExtTreeSet.mem_ofList, List.contains_iff_mem, mem_contents, BoundaryNetwork]
  exact exists_congr fun key => getElem?_networkBoundaries

theorem mem_prerequisiteNetworks {dependencies : List ResourceDependency}
    {boundaries members : ExtTreeSet ResourceIdentity} {network : ResourceIdentity} :
    network ∈ prerequisiteNetworks dependencies boundaries members ↔ network.kind = .network ∧
      network ∈ boundaries ∧ ∃ member ∈ members, ∃ edge ∈ dependencies,
        edge.dependent = member ∧ edge.prerequisite = network := by
  simp only [prerequisiteNetworks, ExtTreeSet.mem_toList, ExtTreeSet.mem_ofList,
    List.contains_iff_mem, List.mem_map, List.mem_filter, Bool.and_eq_true, beq_iff_eq,
    decide_eq_true_eq]
  constructor
  · rintro ⟨edge, ⟨hedge, ⟨hmember, hkind⟩, hboundary⟩, rfl⟩
    exact ⟨hkind, hboundary, edge.dependent, hmember, edge, hedge, rfl, rfl⟩
  · rintro ⟨hkind, hboundary, member, hmember, edge, hedge, rfl, rfl⟩
    exact ⟨edge, ⟨hedge, ⟨hmember, hkind⟩, hboundary⟩, rfl⟩

theorem mem_foldl_crossNetwork {reverse : Adjacency ResourceIdentity}
    {networks : List ResourceIdentity} {state : Expansion} {id : ResourceIdentity} :
    id ∈ (networks.foldl (crossNetwork reverse) state).members ↔
      id ∈ state.members ∨ ∃ network ∈ networks, id ∈ neighbors reverse network := by
  induction networks generalizing state with
  | nil => simp
  | cons network rest ih =>
      rw [List.foldl_cons, ih, List.exists_mem_cons_iff, crossNetwork, mem_extend, or_assoc]

theorem mem_adjacentResources {adjacency : Adjacency ResourceIdentity} {a b : ResourceIdentity}
    (h : b ∈ neighbors adjacency a) : b ∈ adjacentResources adjacency := by
  obtain ⟨found, hfound, hb⟩ := mem_neighbors.mp h
  rw [adjacentResources, List.mem_flatMap]
  exact ⟨(a, found), ExtTreeMap.mem_toList_iff_getElem?_eq_some.mpr hfound,
    ExtTreeSet.mem_toList.mpr hb⟩

/-- The in-place closure is the least superset closed under grouping edges. -/
theorem expandGroupMembers_isLeast (members : ExtTreeSet ResourceIdentity) :
    IsLeast {closed : Set ResourceIdentity | (∀ id ∈ members, id ∈ closed) ∧
        ClosedUnder (Joined inventory) closed}
      {id | id ∈ expandGroupMembers members inventory.adjacency} := by
  have hreachable : ∀ a, ∀ b ∈ neighbors inventory.adjacency a,
      b ∈ (adjacentResources inventory.adjacency).toFinset := by
    intro a b hb
    rw [List.mem_toFinset]
    exact mem_adjacentResources hb
  have hpending : ∀ a, a ∈ members.toList.reverse ↔ a ∈ members := by simp
  have hbacklog : backlog (adjacentResources inventory.adjacency).toFinset
      ⟨members, members.toList.reverse⟩ ≤
        members.size + (adjacentResources inventory.adjacency).length := by
    have hsdiff : ((adjacentResources inventory.adjacency).toFinset \ elements members).card ≤
        (adjacentResources inventory.adjacency).toFinset.card :=
      Finset.card_le_card Finset.sdiff_subset
    have hlength := List.toFinset_card_le (adjacentResources inventory.adjacency)
    simp only [backlog, List.length_reverse, ExtTreeSet.length_toList]
    omega
  have hstep : (fun a b => b ∈ neighbors inventory.adjacency a) = Joined inventory := by
    funext a b
    exact propext mem_adjacency
  have hleast := run_isLeast hreachable hpending hbacklog
  rw [hstep] at hleast
  exact hleast

theorem mem_expandGroupMembers_of_mem {members : ExtTreeSet ResourceIdentity}
    {id : ResourceIdentity} (h : id ∈ members) :
    id ∈ expandGroupMembers members inventory.adjacency :=
  Set.mem_ofPred.mp ((expandGroupMembers_isLeast members).1.1 id h)

theorem mem_of_mem_expandGroupMembers {members : ExtTreeSet ResourceIdentity}
    {reached : Set ResourceIdentity} (hmembers : ∀ id ∈ members, id ∈ reached)
    (hclosed : ClosedUnder (Joined inventory) reached) {id : ResourceIdentity}
    (h : id ∈ expandGroupMembers members inventory.adjacency) : id ∈ reached :=
  (expandGroupMembers_isLeast members).2 ⟨hmembers, hclosed⟩ (Set.mem_ofPred.mpr h)

/-- One round: close under grouping, then add the consumers of every network used so far. -/
theorem mem_round {state : Expansion} {id : ResourceIdentity} :
    id ∈ (inventory.round request state).members ↔
      id ∈ expandGroupMembers state.members inventory.adjacency ∨
        ∃ member ∈ expandGroupMembers state.members inventory.adjacency,
          Crosses inventory request member id := by
  rw [ResourceInventory.round, expandOnce, mem_foldl_crossNetwork]
  dsimp only
  apply or_congr_right
  simp only [mem_prerequisiteNetworks, mem_networkBoundaries, mem_reverse, Crosses]
  constructor
  · rintro ⟨network, ⟨hkind, hboundary, member, hmember, huses⟩, hconsumer⟩
    exact ⟨member, hmember, network, hkind, hboundary, huses, hconsumer⟩
  · rintro ⟨member, hmember, network, hkind, hboundary, huses, hconsumer⟩
    exact ⟨network, ⟨hkind, hboundary, member, hmember, huses⟩, hconsumer⟩

theorem mem_round_of_mem {state : Expansion} {id : ResourceIdentity} (h : id ∈ state.members) :
    id ∈ (inventory.round request state).members :=
  mem_round.mpr (Or.inl (mem_expandGroupMembers_of_mem h))

end Boundaries

section Expansion

/-- Every resource the expansion can add is an end of some edge. -/
theorem reaching_extend : {id | id ∈ extend (inventory.seeded request).1
      (adjacentResources inventory.adjacency ++ adjacentResources inventory.reverse)} ∈
    Reaching inventory request (inventory.selection request).resolvedRoots.toList := by
  refine ⟨?_, ?_, ?_⟩
  · intro id hseed
    rw [Set.mem_ofPred_eq, mem_extend, mem_seeded]
    exact Or.inl hseed
  · intro a _ b hjoined
    rw [Set.mem_ofPred_eq, mem_extend]
    exact Or.inr (List.mem_append_left _ (mem_adjacentResources (mem_adjacency.mpr hjoined)))
  · rintro member _ consumer ⟨network, -, -, -, hconsumer⟩
    rw [Set.mem_ofPred_eq, mem_extend]
    exact Or.inr (List.mem_append_right _ (mem_adjacentResources (mem_reverse.mpr hconsumer)))

/-- What every round of the expansion keeps: the seeds, and nothing outside a reaching set. -/
structure Expanding (inventory : ResourceInventory) (request : DiscoveryRequest)
    (state : Expansion) : Prop where
  seeded : ∀ id ∈ (inventory.seeded request).1, id ∈ state.members
  within : ∀ reached ∈ Reaching inventory request
    (inventory.selection request).resolvedRoots.toList, ∀ id ∈ state.members, id ∈ reached

theorem Expanding.initial : Expanding inventory request ⟨(inventory.seeded request).1, ∅⟩ := by
  constructor
  · intro id hid
    exact hid
  · intro reached hreached id hid
    exact hreached.1 id (mem_seeded.mp hid)

theorem Expanding.round {state : Expansion} (h : Expanding inventory request state) :
    Expanding inventory request (inventory.round request state) := by
  constructor
  · intro id hid
    exact mem_round_of_mem (h.seeded id hid)
  · intro reached hreached id hid
    rcases mem_round.mp hid with hmember | ⟨member, hmember, hcrosses⟩
    · exact mem_of_mem_expandGroupMembers (h.within reached hreached) hreached.2.1 hmember
    · apply hreached.2.2 member _ id hcrosses
      exact mem_of_mem_expandGroupMembers (h.within reached hreached) hreached.2.1 hmember

theorem Expanding.size_le {state : Expansion} (h : Expanding inventory request state) :
    state.members.size ≤ (inventory.seeded request).1.size +
      ((adjacentResources inventory.adjacency).length +
        (adjacentResources inventory.reverse).length) := by
  have hsubset : ∀ id ∈ state.members, id ∈ extend (inventory.seeded request).1
      (adjacentResources inventory.adjacency ++ adjacentResources inventory.reverse) :=
    fun id hid => Set.mem_ofPred.mp (h.within _ reaching_extend id hid)
  calc state.members.size
      ≤ (extend (inventory.seeded request).1 (adjacentResources inventory.adjacency ++
          adjacentResources inventory.reverse)).size := size_le_of_subset hsubset
    _ ≤ (inventory.seeded request).1.size + (adjacentResources inventory.adjacency ++
          adjacentResources inventory.reverse).length := size_extend_le
    _ = _ := by rw [List.length_append]

/-- The state after a number of rounds. -/
def rounds (inventory : ResourceInventory) (request : DiscoveryRequest) (n : ℕ) : Expansion :=
  (inventory.round request)^[n] ⟨(inventory.seeded request).1, ∅⟩

theorem rounds_succ (n : ℕ) :
    rounds inventory request (n + 1) = inventory.round request (rounds inventory request n) :=
  Function.iterate_succ_apply' _ _ _

theorem expanding_rounds (n : ℕ) : Expanding inventory request (rounds inventory request n) := by
  induction n with
  | zero => exact Expanding.initial
  | succ n ih =>
      rw [rounds_succ]
      exact ih.round

/-- The loop ends after a round that adds nothing. -/
theorem expansion_settled (inventory : ResourceInventory) (request : DiscoveryRequest) :
    ∃ n, inventory.expansion request = rounds inventory request (n + 1) ∧
      ∀ id ∈ (rounds inventory request (n + 1)).members,
        id ∈ (rounds inventory request n).members := by
  have hround : ∀ state, (∃ n, state = rounds inventory request n) →
      ∃ n, inventory.round request state = rounds inventory request n := by
    rintro _ ⟨n, rfl⟩
    exact ⟨n + 1, (rounds_succ n).symm⟩
  have hgrows : ∀ state, (∃ n, state = rounds inventory request n) →
      state.members.size ≤ (inventory.round request state).members.size :=
    fun state _ => size_le_of_subset fun id hid => mem_round_of_mem hid
  have hbound : ∀ state, (∃ n, state = rounds inventory request n) →
      state.members.size ≤ (inventory.seeded request).1.size +
        ((adjacentResources inventory.adjacency).length +
          (adjacentResources inventory.reverse).length) := by
    rintro _ ⟨n, rfl⟩
    exact (expanding_rounds n).size_le
  have hfuel : (inventory.seeded request).1.size +
      ((adjacentResources inventory.adjacency).length +
        (adjacentResources inventory.reverse).length) <
      (inventory.seeded request).1.size + ((adjacentResources inventory.adjacency).length +
        (adjacentResources inventory.reverse).length + 1) := by omega
  obtain ⟨_, ⟨n, rfl⟩, hresult, hsize⟩ := settle_settled hround hgrows hbound ⟨0, rfl⟩ hfuel
  refine ⟨n, hresult.trans (rounds_succ n).symm, ?_⟩
  rw [rounds_succ]
  exact fun id hid => mem_of_size_le (fun a ha => mem_round_of_mem ha) hsize.le hid

/-- The expansion ends with the least reaching set. -/
theorem expansion_isLeast :
    IsLeast (Reaching inventory request (inventory.selection request).resolvedRoots.toList)
      {id | id ∈ (inventory.expansion request).members} := by
  obtain ⟨n, hresult, hsettled⟩ := expansion_settled inventory request
  have hlast : Expanding inventory request (rounds inventory request n) := expanding_rounds n
  rw [hresult]
  rw [rounds_succ] at hsettled ⊢
  generalize rounds inventory request n = last at hsettled hlast
  constructor
  · refine ⟨?_, ?_, ?_⟩
    · intro id hseed
      exact Set.mem_ofPred.mpr (mem_round_of_mem (hlast.seeded id (mem_seeded.mpr hseed)))
    · intro a ha b hjoined
      have hmember := hsettled a (Set.mem_ofPred.mp ha)
      apply Set.mem_ofPred.mpr
      apply mem_round.mpr
      apply Or.inl
      apply Set.mem_ofPred.mp
      apply (expandGroupMembers_isLeast last.members).1.2 a _ b hjoined
      exact Set.mem_ofPred.mpr (mem_expandGroupMembers_of_mem hmember)
    · intro a ha b hcrosses
      have hmember := hsettled a (Set.mem_ofPred.mp ha)
      apply Set.mem_ofPred.mpr
      apply mem_round.mpr
      exact Or.inr ⟨a, mem_expandGroupMembers_of_mem hmember, hcrosses⟩
  · intro reached hreached id hid
    exact hlast.round.within reached hreached id (Set.mem_ofPred.mp hid)

end Expansion

section Sample

def webContainer : ResourceIdentity := ⟨.container, "c1", some "web"⟩
def apiContainer : ResourceIdentity := ⟨.container, "c2", some "api"⟩
def jobContainer : ResourceIdentity := ⟨.container, "c3", some "job"⟩
def frontNetwork : ResourceIdentity := ⟨.network, "n1", some "front"⟩

theorem webContainer_kind : webContainer.kind = .container := rfl

theorem jobContainer_kind : jobContainer.kind = .container := rfl

theorem frontNetwork_kind : frontNetwork.kind = .network := rfl

def observedContainer (identity : ResourceIdentity) (relationships : List NativeRelationship)
    (kindAgrees : identity.kind = .container) : ResourceObservation :=
  ⟨identity, .container ⟨.absent, .absent, .observed ⟨relationships, .configured⟩⟩, kindAgrees⟩

/-- Two containers on one network, and a third that depends on the second. -/
def sampleInventory : ResourceInventory :=
  ⟨[⟨.container, [
      observedContainer webContainer [⟨.network, ["front"], ["Networks.front"]⟩] webContainer_kind,
      observedContainer apiContainer [⟨.network, ["n1"], ["Networks.front"]⟩] rfl,
      observedContainer jobContainer [⟨.container, ["api"], ["Dependencies"]⟩] rfl]⟩,
    ⟨.network, [⟨frontNetwork, .network ⟨.absent⟩, rfl⟩]⟩]⟩

/-- Asks for the first container and authorizes crossing its network. -/
def sampleRequest : DiscoveryRequest :=
  { DiscoveryRequest.new with
    roots := (∅ : ExtTreeSet ResourceSelector).insert ⟨.container, ⟨"web", rfl⟩, .exact⟩
    networkBoundaryOverrides := (∅ : ExtTreeSet ExactReference).insert ⟨"front", rfl⟩ }

theorem discover_sample : ∃ graph, discover sampleInventory sampleRequest = .ok graph ∧
    graph.groups.map ResourceGroup.members = [[webContainer], [apiContainer, jobContainer]] := by
  have hgroups : (discover sampleInventory sampleRequest).toOption.map
      (fun graph => graph.groups.map ResourceGroup.members) =
        some [[webContainer], [apiContainer, jobContainer]] := by decide +kernel
  cases h : discover sampleInventory sampleRequest with
  | error code =>
      rw [h] at hgroups
      cases hgroups
  | ok graph =>
      rw [h] at hgroups
      exact ⟨graph, rfl, Option.some.inj hgroups⟩

end Sample

end PodmanLens
