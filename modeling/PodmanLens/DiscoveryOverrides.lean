import PodmanLens.DiscoveryCrossings
import PodmanLens.DiscoveryPrerequisites

/-!
# Which override gets the credit

A round of the boundary loop takes the authorized networks of its members in identity order and
counts a network as crossed when one of its consumers is new at that moment. The members of a round
are what so many crossings lead to, so the credit is settled by the inventory alone: a network gets
it when some consumer of it lies farther away than the network does and no smaller authorized
network brings that consumer in. Otherwise it is reported as unused and, if its consumers lie in
several groups, explained as a stopped boundary.
-/

namespace PodmanLens
open Std TreeEntries Closure Relation

section Distances
variable (inventory : ResourceInventory) (request : DiscoveryRequest)

/-- A selector names the resource, or everything is asked for and it is eligible. -/
def Asked (id : ResourceIdentity) : Prop :=
  Named inventory request id ∨ (request.all = true ∧
    ∃ record, inventory.records[id]? = some record ∧
      eligibleAllRoot id record inventory.reverse inventory.ownership[id]? = true)

/-- Where traversal starts: a shared resource that is asked for stands for its consumers. -/
def Starts (id : ResourceIdentity) : Prop :=
  (Asked inventory request id ∧ isSharedKind id.kind = false) ∨
    (∃ shared, Asked inventory request shared ∧ isSharedKind shared.kind = true ∧
      Consumes inventory id shared) ∨
    (Asked inventory request id ∧ isSharedKind id.kind = true ∧
      ∀ consumer, ¬Consumes inventory consumer id)

/-- Grouping edges and at most so many crossings lead to the resource. -/
def Near (n : ℕ) (id : ResourceIdentity) : Prop :=
  Within (Starts inventory request) (Joined inventory) (Crosses inventory request) n id

def NearConsumer (network : ResourceIdentity) (n : ℕ) : Prop :=
  ∃ member, Consumes inventory member network ∧ Near inventory request n member

/-- A consumer is farther away, and no authorized network before this one brings it in. -/
def BringsIn (network : ResourceIdentity) (n : ℕ) : Prop :=
  ∃ consumer, Consumes inventory consumer network ∧ ¬Near inventory request n consumer ∧
    ∀ earlier, BoundaryNetwork inventory request earlier → compare earlier network = .lt →
      NearConsumer inventory request earlier n → ¬Consumes inventory consumer earlier

/-- Two consumers that no grouping edges connect. -/
def Divides (network : ResourceIdentity) : Prop :=
  ∃ left right, Consumes inventory left network ∧ Consumes inventory right network ∧
    ¬ReflTransGen (Joined inventory) left right

/-- Every authorized network that no selector names and whose consumers grouping edges do not
connect brings in a consumer at the least distance of its consumers. -/
def BringInOwn : Prop :=
  ∀ network n, BoundaryNetwork inventory request network → ¬Named inventory request network →
    Divides inventory network → IsLeast {m | NearConsumer inventory request network m} n →
      BringsIn inventory request network n

end Distances

section Rounds
variable (inventory : ResourceInventory) (request : DiscoveryRequest)

/-- The members of a round before its crossings. -/
def closedMembers (state : Expansion) : ExtTreeSet ResourceIdentity :=
  expandGroupMembers state.members inventory.adjacency

/-- The networks a round takes, in order. -/
def roundNetworks (state : Expansion) : List ResourceIdentity :=
  prerequisiteNetworks inventory.dependencies
    (ExtTreeSet.ofList (contents (inventory.networkBoundaries request)))
    (closedMembers inventory state)

/-- The state in which a round has taken the given networks. -/
def takenNetworks (state : Expansion) (networks : List ResourceIdentity) : Expansion :=
  networks.foldl (crossNetwork inventory.reverse)
    { state with members := closedMembers inventory state }

/-- A consumer is still outside. -/
def Opens (network : ResourceIdentity) (members : ExtTreeSet ResourceIdentity) : Prop :=
  ∃ consumer, Consumes inventory consumer network ∧ consumer ∉ members

end Rounds

variable {inventory : ResourceInventory} {request : DiscoveryRequest} {graph : ResourceGraph}
  {network id : ResourceIdentity} {state : Expansion}

section Steps

theorem kind_of_boundaryNetwork (h : BoundaryNetwork inventory request network) :
    network.kind = .network ∧ network ∈ inventory.records := by
  obtain ⟨identifier, -, hresolve⟩ := h
  exact of_resolveReferenceCount hresolve

theorem round_eq (state : Expansion) : inventory.round request state =
    takenNetworks inventory state (roundNetworks inventory request state) := rfl

/-- A network is crossed when taking it adds a consumer. -/
theorem crossNetwork_crossed {reverse : Adjacency ResourceIdentity} :
    id ∈ (crossNetwork reverse state network).crossed ↔ id ∈ state.crossed ∨
      (id = network ∧ ∃ consumer ∈ neighbors reverse network, consumer ∉ state.members) := by
  have hgrown : state.members.size < (extend state.members (neighbors reverse network)).size ↔
      ∃ consumer ∈ neighbors reverse network, consumer ∉ state.members := by
    constructor
    · intro hlt
      by_contra hnone
      push Not at hnone
      refine absurd (size_le_of_subset fun a ha => ?_) (Nat.not_le.mpr hlt)
      rcases mem_extend.mp ha with ha | ha
      · exact ha
      · exact hnone a ha
    · rintro ⟨consumer, hconsumer, hout⟩
      by_contra hle
      exact hout (mem_of_size_le (fun a ha => mem_extend.mpr (Or.inl ha)) (Nat.not_lt.mp hle)
        (mem_extend.mpr (Or.inr hconsumer)))
  rw [crossNetwork]
  dsimp only
  rw [← hgrown]
  split_ifs with hlt
  · rw [ExtTreeSet.mem_insert, Std.compare_eq_iff_eq, or_comm, @eq_comm _ network]
    simp [hlt]
  · simp [hlt]

/-- Taking networks one after the other crosses those that open at their turn. -/
theorem takenNetworks_crossed {networks : List ResourceIdentity} :
    id ∈ (takenNetworks inventory state networks).crossed ↔ id ∈ state.crossed ∨
      ∃ before after, networks = before ++ id :: after ∧
        Opens inventory id (takenNetworks inventory state before).members := by
  induction networks using List.reverseRecOn with
  | nil => simp [takenNetworks]
  | append_singleton front last ih =>
      have hlast : takenNetworks inventory state (front ++ [last]) =
          crossNetwork inventory.reverse (takenNetworks inventory state front) last := by
        rw [takenNetworks, List.foldl_append]
        rfl
      rw [hlast, crossNetwork_crossed, ih]
      simp only [mem_reverse]
      constructor
      · rintro ((hcrossed | ⟨before, after, rfl, hopens⟩) | ⟨rfl, hopens⟩)
        · exact Or.inl hcrossed
        · exact Or.inr ⟨before, after ++ [last], by simp, hopens⟩
        · exact Or.inr ⟨front, [], rfl, hopens⟩
      · rintro (hcrossed | ⟨before, after, hsplit, hopens⟩)
        · exact Or.inl (Or.inl hcrossed)
        · rcases List.eq_nil_or_concat after with rfl | ⟨rest, other, rfl⟩
          · obtain ⟨rfl, hsame⟩ := List.append_inj' hsplit rfl
            obtain rfl := List.singleton_inj.mp hsame
            exact Or.inr ⟨rfl, hopens⟩
          · rw [List.concat_eq_append, ← List.cons_append, ← List.append_assoc] at hsplit
            obtain ⟨rfl, -⟩ := List.append_inj' hsplit rfl
            exact Or.inl (Or.inr ⟨before, rest, rfl, hopens⟩)

theorem round_crossed : id ∈ (inventory.round request state).crossed ↔ id ∈ state.crossed ∨
    ∃ before after, roundNetworks inventory request state = before ++ id :: after ∧
      Opens inventory id (takenNetworks inventory state before).members := by
  rw [round_eq, takenNetworks_crossed]

theorem mem_takenNetworks {networks : List ResourceIdentity} :
    id ∈ (takenNetworks inventory state networks).members ↔ id ∈ closedMembers inventory state ∨
      ∃ network ∈ networks, Consumes inventory id network := by
  rw [takenNetworks, mem_foldl_crossNetwork]
  simp only [mem_reverse]

theorem mem_roundNetworks : network ∈ roundNetworks inventory request state ↔
    network.kind = .network ∧ BoundaryNetwork inventory request network ∧
      ∃ member ∈ closedMembers inventory state, Consumes inventory member network := by
  rw [roundNetworks, mem_prerequisiteNetworks]
  exact and_congr_right fun _ => and_congr_left fun _ => mem_networkBoundaries

/-- A round takes its networks in identity order. -/
theorem mem_before_iff {before after : List ResourceIdentity} {earlier : ResourceIdentity}
    (hsplit : roundNetworks inventory request state = before ++ network :: after) :
    earlier ∈ before ↔
      earlier ∈ roundNetworks inventory request state ∧ compare earlier network = .lt := by
  have hordered : (roundNetworks inventory request state).Pairwise fun a b => compare a b = .lt := by
    rw [roundNetworks, prerequisiteNetworks]
    exact ExtTreeSet.ordered_toList
  rw [hsplit, List.pairwise_append] at hordered
  obtain ⟨-, hrest, hbefore⟩ := hordered
  rw [hsplit]
  constructor
  · intro hmem
    exact ⟨List.mem_append_left _ hmem, hbefore earlier hmem network List.mem_cons_self⟩
  · rintro ⟨hmem, hlt⟩
    rcases List.mem_append.mp hmem with hmem | hmem
    · exact hmem
    rcases List.mem_cons.mp hmem with rfl | hmem
    · rw [ReflOrd.compare_self] at hlt
      cases hlt
    · rw [OrientedOrd.eq_swap, (List.pairwise_cons.mp hrest).1 earlier hmem] at hlt
      cases hlt

end Steps

section Runs
variable {n : ℕ}

theorem mem_seeded_iff : id ∈ (inventory.seeded request).1 ↔ Starts inventory request id := by
  simp only [mem_seeded, Seed, Starts, Asked, ExtTreeSet.mem_toList, mem_selection]

theorem Near.connected {other : ResourceIdentity} (h : Near inventory request n id)
    (hpath : ReflTransGen (Joined inventory) id other) : Near inventory request n other := by
  induction hpath with
  | refl => exact h
  | tail _ hjoined ih => exact Within.walk ih hjoined

theorem mem_closedMembers (h : id ∈ state.members) : id ∈ closedMembers inventory state :=
  mem_expandGroupMembers_of_mem h

theorem mem_rounds_succ : id ∈ (rounds inventory request (n + 1)).members ↔
    id ∈ closedMembers inventory (rounds inventory request n) ∨
      ∃ member ∈ closedMembers inventory (rounds inventory request n),
        Crosses inventory request member id := by
  rw [rounds_succ, mem_round]
  rfl

/-- The members of a round are what its number of crossings leads to. -/
theorem mem_closedMembers_rounds (n : ℕ) :
    id ∈ closedMembers inventory (rounds inventory request n) ↔ Near inventory request n id := by
  suffices hsame : {id | id ∈ closedMembers inventory (rounds inventory request n)} =
      {id | Near inventory request n id} from Set.ext_iff.mp hsame id
  induction n with
  | zero =>
      refine (expandGroupMembers_isLeast (rounds inventory request 0).members).unique ?_
      have hstart : ∀ id, id ∈ (rounds inventory request 0).members ↔ Starts inventory request id :=
        fun id => mem_seeded_iff
      simp only [hstart]
      exact within_zero_isLeast
  | succ n ih =>
      have hbelow : ∀ id, id ∈ (rounds inventory request (n + 1)).members ↔
          Near inventory request n id ∨ ∃ member, Near inventory request n member ∧
            Crosses inventory request member id := by
        intro id
        have hnear : ∀ id, id ∈ closedMembers inventory (rounds inventory request n) ↔
            Near inventory request n id := fun id => Set.ext_iff.mp ih id
        simp only [mem_rounds_succ, hnear]
      refine (expandGroupMembers_isLeast (rounds inventory request (n + 1)).members).unique ?_
      simp only [hbelow]
      exact within_succ_isLeast n

theorem near_of_expansion (h : id ∈ (inventory.expansion request).members) :
    ∃ n, Near inventory request n id := by
  obtain ⟨n, hresult, -⟩ := expansion_settled inventory request
  rw [hresult] at h
  exact ⟨n + 1, (mem_closedMembers_rounds (n + 1)).mp (mem_closedMembers h)⟩

theorem expansion_of_near (h : Near inventory request n id) :
    id ∈ (inventory.expansion request).members := by
  have hreaching : {id | id ∈ (inventory.expansion request).members} ∈ Reaching inventory request
      (inventory.selection request).resolvedRoots.toList := expansion_isLeast.1
  obtain ⟨m, -, hreached⟩ := h
  induction hreached with
  | start hstarts =>
      exact Set.mem_ofPred.mp (hreaching.1 _ (mem_seeded.mp (mem_seeded_iff.mpr hstarts)))
  | walk _ hjoined ih =>
      exact Set.mem_ofPred.mp (hreaching.2.1 _ (Set.mem_ofPred.mpr ih) _ hjoined)
  | pay _ hcrosses ih =>
      exact Set.mem_ofPred.mp (hreaching.2.2 _ (Set.mem_ofPred.mpr ih) _ hcrosses)

theorem mem_roundNetworks_rounds : network ∈ roundNetworks inventory request
    (rounds inventory request n) ↔
      BoundaryNetwork inventory request network ∧ NearConsumer inventory request network n := by
  rw [mem_roundNetworks]
  simp only [mem_closedMembers_rounds]
  constructor
  · rintro ⟨-, hboundary, member, hmember, huses⟩
    exact ⟨hboundary, member, huses, hmember⟩
  · rintro ⟨hboundary, member, huses, hmember⟩
    exact ⟨(kind_of_boundaryNetwork hboundary).1, hboundary, member, hmember, huses⟩

/-- What is outside when a round has taken the networks before this one. -/
theorem opens_rounds_iff {before after : List ResourceIdentity}
    (hsplit : roundNetworks inventory request (rounds inventory request n) =
      before ++ network :: after) :
    Opens inventory network (takenNetworks inventory (rounds inventory request n) before).members ↔
      BringsIn inventory request network n := by
  simp only [Opens, BringsIn, mem_takenNetworks, mem_closedMembers_rounds, not_or, not_exists,
    not_and, mem_before_iff hsplit, mem_roundNetworks_rounds]
  refine exists_congr fun consumer => and_congr_right fun _ => and_congr_right fun _ => ?_
  constructor
  · intro h earlier hboundary hlt hnear
    exact h earlier ⟨⟨hboundary, hnear⟩, hlt⟩
  · rintro h earlier ⟨⟨hboundary, hnear⟩, hlt⟩
    exact h earlier hboundary hlt hnear

theorem mem_rounds_crossed (n : ℕ) : network ∈ (rounds inventory request n).crossed ↔
    ∃ m < n, BoundaryNetwork inventory request network ∧
      NearConsumer inventory request network m ∧ BringsIn inventory request network m := by
  induction n with
  | zero => simp [rounds]
  | succ n ih =>
      rw [rounds_succ, round_crossed, ih]
      constructor
      · rintro (⟨m, hm, h⟩ | ⟨before, after, hsplit, hopens⟩)
        · exact ⟨m, Nat.lt_succ_of_lt hm, h⟩
        · have htaken : network ∈ roundNetworks inventory request (rounds inventory request n) := by
            rw [hsplit]
            simp
          obtain ⟨hboundary, hnear⟩ := mem_roundNetworks_rounds.mp htaken
          exact ⟨n, n.lt_succ_self, hboundary, hnear, (opens_rounds_iff hsplit).mp hopens⟩
      · rintro ⟨m, hm, hboundary, hnear, hbrings⟩
        rcases Nat.lt_succ_iff_lt_or_eq.mp hm with hm | rfl
        · exact Or.inl ⟨m, hm, hboundary, hnear, hbrings⟩
        · obtain ⟨before, after, hsplit⟩ :=
            List.append_of_mem (mem_roundNetworks_rounds.mpr ⟨hboundary, hnear⟩)
          exact Or.inr ⟨before, after, hsplit, (opens_rounds_iff hsplit).mpr hbrings⟩

/-- Whoever shares an authorized network with a near consumer is one crossing farther at most. -/
theorem near_succ (hboundary : BoundaryNetwork inventory request network)
    (hnear : NearConsumer inventory request network n) {consumer : ResourceIdentity}
    (hconsumes : Consumes inventory consumer network) : Near inventory request (n + 1) consumer := by
  obtain ⟨member, huses, hmember⟩ := hnear
  exact Within.pay hmember ⟨network, (kind_of_boundaryNetwork hboundary).1, hboundary, huses, hconsumes⟩

/-- The crossed networks are those that bring in a consumer at their distance. -/
theorem mem_expansion_crossed : network ∈ (inventory.expansion request).crossed ↔
    ∃ n, BoundaryNetwork inventory request network ∧
      NearConsumer inventory request network n ∧ BringsIn inventory request network n := by
  obtain ⟨last, hresult, hsettled⟩ := expansion_settled inventory request
  rw [hresult, mem_rounds_crossed]
  constructor
  · rintro ⟨n, -, h⟩
    exact ⟨n, h⟩
  · rintro ⟨n, hboundary, hnear, consumer, hconsumes, hfar, halone⟩
    refine ⟨n, ?_, hboundary, hnear, consumer, hconsumes, hfar, halone⟩
    by_contra hle
    have hmember := expansion_of_near (near_succ hboundary hnear hconsumes)
    rw [hresult] at hmember
    have hlast := (mem_closedMembers_rounds last).mp (mem_closedMembers (hsettled consumer hmember))
    exact hfar (hlast.mono (Nat.le_of_succ_le (Nat.not_lt.mp hle)))

/-- A network that brings in a consumer does so at the least distance of its consumers. -/
theorem isLeast_of_bringsIn (hboundary : BoundaryNetwork inventory request network)
    (hnear : NearConsumer inventory request network n)
    (hbrings : BringsIn inventory request network n) :
    IsLeast {m | NearConsumer inventory request network m} n := by
  obtain ⟨consumer, hconsumes, hfar, -⟩ := hbrings
  refine ⟨hnear, fun m hm => ?_⟩
  by_contra hlt
  exact hfar ((near_succ hboundary hm hconsumes).mono (Nat.not_le.mp hlt))

end Runs

section Reports
variable (inventory : ResourceInventory) (request : DiscoveryRequest) (graph : ResourceGraph)
  (network : ResourceIdentity)

def ExplainedCrossing : Prop :=
  ∃ explanation ∈ graph.explanations, explanation.kind = .authorizedNetworkCrossing ∧
    explanation.resource = network

def ReportedUnused : Prop :=
  ∃ identifier ∈ request.networkBoundaryOverrides,
    resolveSelector inventory.records (boundarySelector identifier) = .one network ∧
      .forSelector .boundaryOverrideUnused (boundarySelector identifier) ∈ graph.findings

def ExplainedStop : Prop :=
  ∃ explanation ∈ graph.explanations, explanation.kind = .stoppedSharedBoundary ∧
    explanation.resource = network

/-- An authorized network that a group depends on. -/
def AuthorizedPrerequisite : Prop :=
  BoundaryNetwork inventory request network ∧ ∃ group ∈ graph.groups, network ∈ group.prerequisites

/-- Networks with the same consumers fare alike, and no authorized network is a stopped boundary. -/
structure OverridesAlike : Prop where
  alike : ∀ left right, AuthorizedPrerequisite inventory request graph left →
    AuthorizedPrerequisite inventory request graph right →
    (∀ consumer, Consumes inventory consumer left ↔ Consumes inventory consumer right) →
    (ExplainedCrossing graph left ∧ ExplainedCrossing graph right) ∨
      (ReportedUnused inventory request graph left ∧ ReportedUnused inventory request graph right)
  unstopped : ∀ network, BoundaryNetwork inventory request network → ¬ExplainedStop graph network

end Reports

section Networks

theorem shared_of_boundaryNetwork (h : BoundaryNetwork inventory request network) :
    isSharedKind network.kind = true := by
  rw [(kind_of_boundaryNetwork h).1]
  rfl

/-- A network with a consumer is a root only when a selector names it. -/
theorem mem_explicit_iff (h : BoundaryNetwork inventory request network)
    (hused : ∃ consumer, Consumes inventory consumer network) :
    network ∈ (inventory.selection request).explicitlySelectedShared ↔
      Named inventory request network := by
  have hclassified : (inventory.selection request).Classified := classified_selectRoots _ _ _ _
  rw [hclassified.shared, mem_selection]
  simp only [shared_of_boundaryNetwork h, and_true]
  constructor
  · rintro (hnamed | ⟨-, record, -, heligible⟩)
    · exact hnamed
    · have howned := owned_of_eligibleAllRoot heligible (shared_of_boundaryNetwork h) hused
      have hkind := howned.kind
      rw [(kind_of_boundaryNetwork h).1] at hkind
      cases hkind
  · exact Or.inl

/-- All consumers of an authorized network are members when one of them is. -/
theorem consumers_reached (h : BoundaryNetwork inventory request network)
    {member consumer : ResourceIdentity} (hmember : member ∈ (inventory.expansion request).members)
    (huses : Consumes inventory member network) (hconsumes : Consumes inventory consumer network) :
    consumer ∈ (inventory.expansion request).members :=
  Set.mem_ofPred.mp (expansion_isLeast.1.2.2 member (Set.mem_ofPred.mpr hmember) consumer
    ⟨network, (kind_of_boundaryNetwork h).1, h, huses, hconsumes⟩)

/-- The network is a prerequisite of a group exactly when it has a consumer among the members. -/
theorem prerequisite_iff (h : BoundaryNetwork inventory request network) {group : ResourceGroup}
    (hgroup : group ∈ inventory.groups request) : network ∈ group.prerequisites ↔
      ∃ member ∈ group.members, Consumes inventory member network := by
  rw [mem_prerequisites hgroup]
  constructor
  · rintro ⟨-, edge, hedge, hmember, rfl⟩
    exact ⟨edge.dependent, hmember, edge, hedge, rfl, rfl⟩
  · rintro ⟨member, hmember, hconsumes⟩
    refine ⟨fun hin => ?_, ?_⟩
    · exact member_unconsumed (exists_group_mem_iff.mp ⟨group, hgroup, hin⟩)
        (shared_of_boundaryNetwork h) hconsumes
    · obtain ⟨edge, hedge, rfl, rfl⟩ := hconsumes
      exact ⟨edge, hedge, hmember, rfl⟩

/-- A network that a member uses has a least distance. -/
theorem exists_isLeast_of_used {member : ResourceIdentity}
    (hmember : member ∈ (inventory.expansion request).members)
    (huses : Consumes inventory member network) :
    ∃ n, IsLeast {m | NearConsumer inventory request network m} n := by
  classical
  obtain ⟨n, hnear⟩ := near_of_expansion hmember
  have hused : ∃ n, NearConsumer inventory request network n := ⟨n, member, huses, hnear⟩
  exact ⟨Nat.find hused, Nat.find_spec hused, fun m hm => Nat.find_min' hused hm⟩

end Networks

section Explained
variable (h : discover inventory request = .ok graph)
include h

theorem explainedCrossing_iff : ExplainedCrossing graph network ↔
    network ∈ (inventory.expansion request).crossed := by
  rw [ExplainedCrossing, explanations_of_ok h]
  simp only [ResourceInventory.explanations, List.mem_append, List.mem_map, List.mem_flatMap,
    ExtTreeSet.mem_toList]
  constructor
  · rintro ⟨explanation, ((((⟨_, -, rfl⟩ | ⟨entry, -, hmem⟩) | ⟨_, -, rfl⟩) | ⟨_, -, rfl⟩) |
      ⟨_, hcrossed, rfl⟩) | ⟨group, -, hmem⟩, hkind, rfl⟩
    · cases hkind
    · simp only [groupExplanations, List.mem_append, List.mem_cons, List.mem_map] at hmem
      obtain (rfl | ⟨member, -, rfl⟩) | ⟨prerequisite, -, rfl⟩ := hmem <;> cases hkind
    · cases hkind
    · cases hkind
    · exact hcrossed
    · obtain ⟨prerequisite, -, rfl⟩ := List.mem_map.mp hmem
      cases hkind
  · intro hcrossed
    exact ⟨_, Or.inl (Or.inr ⟨network, hcrossed, rfl⟩), rfl, rfl⟩

/-- A stop is explained where consumers lie in and outside a group without a recorded crossing. -/
theorem explainedStop_iff (hboundary : BoundaryNetwork inventory request network) :
    ExplainedStop graph network ↔ (∃ group ∈ inventory.groups request, ∃ member ∈ group.members,
      Consumes inventory member network ∧ ∃ consumer, Consumes inventory consumer network ∧
        consumer ∉ group.members) ∧ ¬Named inventory request network ∧
          network ∉ (inventory.expansion request).crossed := by
  rw [ExplainedStop, explanations_of_ok h]
  simp only [ResourceInventory.explanations, List.mem_append, List.mem_map, List.mem_flatMap,
    ExtTreeSet.mem_toList]
  constructor
  · rintro ⟨explanation, ((((⟨_, -, rfl⟩ | ⟨entry, -, hmem⟩) | ⟨_, -, rfl⟩) | ⟨_, -, rfl⟩) |
      ⟨_, -, rfl⟩) | ⟨group, hgroup, hmem⟩, hkind, rfl⟩
    · cases hkind
    · simp only [groupExplanations, List.mem_append, List.mem_cons, List.mem_map] at hmem
      obtain (rfl | ⟨member, -, rfl⟩) | ⟨prerequisite, -, rfl⟩ := hmem <;> cases hkind
    · cases hkind
    · cases hkind
    · cases hkind
    · obtain ⟨prerequisite, hstopped, rfl⟩ := List.mem_map.mp hmem
      simp only [List.mem_filter, Bool.and_eq_true, List.any_eq_true, decide_eq_true_eq,
        Bool.not_eq_true', Bool.or_eq_false_iff, decide_eq_false_iff_not, mem_reverse] at hstopped
      obtain ⟨hprerequisite, ⟨-, consumer, hconsumes, hout⟩, hexplicit, hcrossed⟩ := hstopped
      change BoundaryNetwork inventory request prerequisite at hboundary
      obtain ⟨member, hmember, huses⟩ := (prerequisite_iff hboundary hgroup).mp hprerequisite
      rw [mem_explicit_iff hboundary ⟨member, huses⟩] at hexplicit
      exact ⟨⟨group, hgroup, member, hmember, huses, consumer, hconsumes, hout⟩, hexplicit, hcrossed⟩
  · rintro ⟨⟨group, hgroup, member, hmember, huses, consumer, hconsumes, hout⟩, hnamed, hcrossed⟩
    refine ⟨_, Or.inr ⟨group, hgroup, List.mem_map.mpr ⟨network, ?_, rfl⟩⟩, rfl, rfl⟩
    simp only [List.mem_filter, Bool.and_eq_true, List.any_eq_true, decide_eq_true_eq,
      Bool.not_eq_true', Bool.or_eq_false_iff, decide_eq_false_iff_not, mem_reverse]
    refine ⟨(prerequisite_iff hboundary hgroup).mpr ⟨member, hmember, huses⟩,
      ⟨shared_of_boundaryNetwork hboundary, consumer, hconsumes, hout⟩, ?_, hcrossed⟩
    rw [mem_explicit_iff hboundary ⟨member, huses⟩]
    exact hnamed

end Explained

section Alike
variable (h : discover inventory request = .ok graph)
include h

/-- The override of a network that was not crossed is reported. -/
theorem reportedUnused_of_uncrossed (hboundary : BoundaryNetwork inventory request network)
    (hcrossed : network ∉ (inventory.expansion request).crossed) :
    ReportedUnused inventory request graph network := by
  obtain ⟨identifier, hmem, hresolve⟩ := hboundary
  refine ⟨identifier, hmem, hresolve, ?_⟩
  have hgraph : graph.findings = inventory.discoveryFindings request := by
    rw [discover] at h
    split at h
    · cases h
    · cases h
      rfl
  have hentry := getElem?_networkBoundaries.mpr ⟨hmem, hresolve⟩
  rw [hgraph, ResourceInventory.discoveryFindings, sortDiscoveryFindings,
    (List.perm_insertionSort _ _).mem_iff]
  refine List.mem_append_right _ (List.mem_map.mpr ⟨(identifier, network), ?_, rfl⟩)
  rw [List.mem_filter, decide_eq_true_eq]
  exact ⟨ExtTreeMap.mem_toList_iff_getElem?_eq_some.mpr hentry, hcrossed⟩

end Alike

/-- What a crossed network tells about its consumers. -/
theorem divides_of_crossed (hcrossed : network ∈ (inventory.expansion request).crossed) :
    Divides inventory network ∧ ∃ consumer, Consumes inventory consumer network ∧
      ¬Starts inventory request consumer := by
  obtain ⟨n, -, ⟨member, huses, hmember⟩, consumer, hconsumes, hfar, -⟩ :=
    mem_expansion_crossed.mp hcrossed
  exact ⟨⟨member, consumer, huses, hconsumes, fun hpath => hfar (hmember.connected hpath)⟩, consumer,
    hconsumes, fun hstarts => hfar ⟨0, n.zero_le, .start hstarts⟩⟩

/-- The consumers of a named network are where traversal starts. -/
theorem starts_of_named (hboundary : BoundaryNetwork inventory request network)
    (hnamed : Named inventory request network) {consumer : ResourceIdentity}
    (hconsumes : Consumes inventory consumer network) : Starts inventory request consumer :=
  Or.inr (Or.inl ⟨network, Or.inl hnamed, shared_of_boundaryNetwork hboundary, hconsumes⟩)

theorem explainedStop_of_uncrossed (h : discover inventory request = .ok graph)
    (hboundary : BoundaryNetwork inventory request network)
    (hnamed : ¬Named inventory request network) (hdivides : Divides inventory network)
    {member : ResourceIdentity} (hmember : member ∈ (inventory.expansion request).members)
    (huses : Consumes inventory member network)
    (hcrossed : network ∉ (inventory.expansion request).crossed) : ExplainedStop graph network := by
  obtain ⟨left, right, hleft, hright, hpath⟩ := hdivides
  obtain ⟨group, hgroup, hin⟩ :=
    exists_group_mem_iff.mpr (consumers_reached hboundary hmember huses hleft)
  exact (explainedStop_iff h hboundary).mpr ⟨⟨group, hgroup, left, hin, hleft, right, hright,
    fun hsame => hpath ((mem_group_iff hgroup hin).mp hsame)⟩, hnamed, hcrossed⟩

/-- With the condition, an authorized network that divides the consumers of a member is crossed. -/
theorem crossed_of_bringInOwn (hown : BringInOwn inventory request)
    (hboundary : BoundaryNetwork inventory request network)
    (hnamed : ¬Named inventory request network) (hdivides : Divides inventory network)
    {member : ResourceIdentity} (hmember : member ∈ (inventory.expansion request).members)
    (huses : Consumes inventory member network) :
    network ∈ (inventory.expansion request).crossed := by
  obtain ⟨n, hleast⟩ := exists_isLeast_of_used hmember huses
  exact mem_expansion_crossed.mpr
    ⟨n, hboundary, hleast.1, hown network n hboundary hnamed hdivides hleast⟩

/-- Overrides are reported alike exactly when every authorized network that divides its consumers
brings in one of its own; otherwise a smaller network gets the credit. -/
theorem overridesAlike_iff (h : discover inventory request = .ok graph) :
    OverridesAlike inventory request graph ↔ BringInOwn inventory request := by
  constructor
  · intro halike network n hboundary hnamed hdivides hleast
    obtain ⟨member, huses, hmember⟩ := hleast.1
    by_contra hbrings
    have huncrossed : network ∉ (inventory.expansion request).crossed := by
      intro hcrossed
      obtain ⟨m, -, hnear, hfound⟩ := mem_expansion_crossed.mp hcrossed
      rw [(isLeast_of_bringsIn hboundary hnear hfound).unique hleast] at hfound
      exact hbrings hfound
    exact halike.unstopped network hboundary (explainedStop_of_uncrossed h hboundary hnamed hdivides
      (expansion_of_near hmember) huses huncrossed)
  · intro hown
    have hgroups := (discoveredFrom_of_ok h).groups
    -- the crossing of one network brings in all consumers, so its twin would never be crossed
    have htwin (left right : ResourceIdentity)
        (hright : AuthorizedPrerequisite inventory request graph right)
        (hsame : ∀ consumer, Consumes inventory consumer left ↔ Consumes inventory consumer right)
        (hleft : left ∈ (inventory.expansion request).crossed) :
        right ∈ (inventory.expansion request).crossed := by
      obtain ⟨hboundary, group, hgroup, hprerequisite⟩ := hright
      rw [hgroups] at hgroup
      obtain ⟨member, hmember, huses⟩ := (prerequisite_iff hboundary hgroup).mp hprerequisite
      obtain ⟨⟨one, two, hone, htwo, hpath⟩, consumer, hconsumes, hunstarted⟩ :=
        divides_of_crossed hleft
      refine crossed_of_bringInOwn hown hboundary (fun hnamed => hunstarted ?_)
        ⟨one, two, (hsame one).mp hone, (hsame two).mp htwo, hpath⟩
        (exists_group_mem_iff.mp ⟨group, hgroup, hmember⟩) huses
      exact starts_of_named hboundary hnamed ((hsame consumer).mp hconsumes)
    constructor
    · intro left right hleft hright hsame
      rw [explainedCrossing_iff h, explainedCrossing_iff h]
      by_cases hcrossedLeft : left ∈ (inventory.expansion request).crossed
      · exact Or.inl ⟨hcrossedLeft, htwin left right hright hsame hcrossedLeft⟩
      · have hcrossedRight : right ∉ (inventory.expansion request).crossed := fun hin =>
          hcrossedLeft (htwin right left hleft (fun consumer => (hsame consumer).symm) hin)
        exact Or.inr ⟨reportedUnused_of_uncrossed h hleft.1 hcrossedLeft,
          reportedUnused_of_uncrossed h hright.1 hcrossedRight⟩
    · intro network hboundary hstop
      obtain ⟨⟨group, hgroup, member, hmember, huses, consumer, hconsumes, hout⟩, hnamed, huncrossed⟩ :=
        (explainedStop_iff h hboundary).mp hstop
      refine huncrossed (crossed_of_bringInOwn hown hboundary hnamed
        ⟨member, consumer, huses, hconsumes, fun hpath => ?_⟩
        (exists_group_mem_iff.mp ⟨group, hgroup, hmember⟩) huses)
      exact hout ((mem_group_iff hgroup hmember).mpr hpath)

section Sample

theorem overridesAlike_iff_sample : ∃ graph, discover sampleInventory sampleRequest = .ok graph ∧
    OverridesAlike sampleInventory sampleRequest graph := by
  obtain ⟨graph, h, -⟩ := discover_sample
  refine ⟨graph, h, (overridesAlike_iff h).mpr ?_⟩
  rintro network n ⟨identifier, hmem, hresolve⟩ - - hleast
  obtain rfl : ⟨"front", rfl⟩ = identifier := by
    rw [sampleRequest, ExtTreeSet.mem_insert, Std.compare_eq_iff_eq] at hmem
    exact hmem.resolve_right (by simp)
  have hfront : resolveSelector sampleInventory.records (boundarySelector ⟨"front", rfl⟩) =
      .one frontNetwork := by decide
  obtain rfl : frontNetwork = network := SelectorResolution.one.inj (hfront.symm.trans hresolve)
  have hcrossed : frontNetwork ∈ (sampleInventory.expansion sampleRequest).crossed := by
    decide +kernel
  obtain ⟨m, hboundary, hnear, hbrings⟩ := mem_expansion_crossed.mp hcrossed
  rwa [(isLeast_of_bringsIn hboundary hnear hbrings).unique hleast] at hbrings

def rearNetwork : ResourceIdentity := ⟨.network, "n2", some "rear"⟩

theorem rearNetwork_kind : rearNetwork.kind = .network := rfl

def doublyAttachedReferences : ContainerReferences :=
  { plainReferences with networks := ["front", "rear"], networkDecoding := ⟨true, false⟩ }

/-- Two containers that share two networks. -/
def doublyAttachedInventory : ResourceInventory :=
  ⟨[⟨.container, [
      decodedContainer webContainer .absent doublyAttachedReferences webContainer_kind,
      decodedContainer jobContainer .absent doublyAttachedReferences jobContainer_kind]⟩,
    ⟨.network, [⟨frontNetwork, .network ⟨.absent⟩, frontNetwork_kind⟩,
      ⟨rearNetwork, .network ⟨.absent⟩, rearNetwork_kind⟩]⟩]⟩

/-- Asks for the first container and authorizes crossing both networks. -/
def bothOverridesRequest : DiscoveryRequest :=
  { sampleRequest with
    networkBoundaryOverrides := sampleRequest.networkBoundaryOverrides.insert ⟨"rear", rfl⟩ }

/-- The second of the two networks is explained as a stopped boundary. -/
theorem rearOverride_uncredited : ∃ graph,
    discover doublyAttachedInventory bothOverridesRequest = .ok graph ∧
      ¬OverridesAlike doublyAttachedInventory bothOverridesRequest graph := by
  have hstopped : (discover doublyAttachedInventory bothOverridesRequest).toOption.any (fun graph =>
      graph.explanations.any fun explanation => explanation.kind == .stoppedSharedBoundary &&
        explanation.resource == rearNetwork) = true := by decide +kernel
  have hresolve : resolveSelector doublyAttachedInventory.records (boundarySelector ⟨"rear", rfl⟩) =
      .one rearNetwork := by decide
  cases h : discover doublyAttachedInventory bothOverridesRequest with
  | error code =>
      rw [h] at hstopped
      cases hstopped
  | ok graph =>
      refine ⟨graph, rfl, fun halike => ?_⟩
      rw [h] at hstopped
      obtain ⟨explanation, hmem, hboth⟩ := List.any_eq_true.mp hstopped
      rw [Bool.and_eq_true, beq_iff_eq, beq_iff_eq] at hboth
      refine halike.unstopped rearNetwork ⟨⟨"rear", rfl⟩, ?_, hresolve⟩
        ⟨explanation, hmem, hboth.1, hboth.2⟩
      simp [bothOverridesRequest]

end Sample

end PodmanLens
