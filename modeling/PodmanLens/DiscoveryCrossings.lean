import PodmanLens.DiscoveryGroups

/-!
# Who opens a shared boundary

Roots come from exact, prefix and label selectors, and from asking for every eligible root. A
shared root with consumers is crossed to them whatever it came from. Networks, volumes and secrets
with consumers are never eligible in bulk, but an image with accepted ownership labels is, so it can
be crossed although no selector names it.
-/

namespace PodmanLens
open Std TreeEntries Closure

section Relations
variable (inventory : ResourceInventory) (request : DiscoveryRequest)

/-- A selector of the request resolves to the resource. -/
inductive Named (identity : ResourceIdentity) : Prop
  | exact (selector : ResourceSelector) (requested : selector ∈ request.roots)
      (kind : selector.matchKind = .exact)
      (resolves : resolveSelector inventory.records selector = .one identity)
  | namePrefix (selector : ResourceSelector) (requested : selector ∈ request.roots)
      (kind : selector.matchKind = .namePrefix)
      (resolves : identity ∈ resolvePrefixSelector inventory.records selector)
  | label (selector : LabelSelector) (requested : selector ∈ request.labelSelectors)
      (record : ResourceObservation) (recorded : inventory.records[identity]? = some record)
      (carries : RootSelection.carriesLabel selector record = true)

/-- An image whose ownership labels are accepted and that some record depends on. -/
structure OwnedImageInUse (image : ResourceIdentity) : Prop where
  kind : image.kind = .image
  owned : inventory.ownership[image]?.isSome
  used : ∃ consumer, Consumes inventory consumer image

/-- Shared resources are crossed to their consumers only when a selector names them. -/
structure CrossesOnlyNamed (graph : ResourceGraph) : Prop where
  named : ∀ explanation ∈ graph.explanations, explanation.kind = .authorizedSharedCrossing →
    Named inventory request explanation.resource
  bulk : request.all = true → request.roots = ∅ → request.labelSelectors = ∅ →
    request.networkBoundaryOverrides = ∅ →
      IsLeast {closed : Set ResourceIdentity | (∀ id ∈ graph.resolvedRoots, id ∈ closed) ∧
        ClosedUnder (Joined inventory) closed} {id | ∃ group ∈ graph.groups, id ∈ group.members}

end Relations

variable {inventory : ResourceInventory} {request : DiscoveryRequest} {graph : ResourceGraph}

section Roots
variable {state : RootSelection} {id : ResourceIdentity}

namespace RootSelection

theorem mem_select {origin : DiscoveryRootOrigin} {identity : ResourceIdentity} :
    id ∈ (state.select origin identity).resolvedRoots ↔
      id = identity ∨ id ∈ state.resolvedRoots := by
  rw [select]
  split_ifs <;> rw [ExtTreeSet.mem_insert, Std.compare_eq_iff_eq, eq_comm]

theorem mem_selectMatched {origin : DiscoveryRootOrigin} {unresolved : DiscoveryFinding}
    {matched : List ResourceIdentity} :
    id ∈ (state.selectMatched origin unresolved matched).resolvedRoots ↔
      id ∈ state.resolvedRoots ∨ id ∈ matched := by
  have hfold (matched : List ResourceIdentity) (state : RootSelection) :
      id ∈ (matched.foldl (select origin) state).resolvedRoots ↔
        id ∈ state.resolvedRoots ∨ id ∈ matched := by
    induction matched generalizing state with
    | nil => simp
    | cons first rest ih => rw [List.foldl_cons, ih, mem_select, List.mem_cons, or_left_comm, or_assoc]
  rw [selectMatched, hfold]
  split_ifs <;> rfl

/-- Positions only tell where a root came from, not whether it resolves. -/
theorem mem_foldl_zipIdx {σ : Type} {step : RootSelection → σ × ℕ → RootSelection}
    (adds : σ → Prop) (hstep : ∀ state entry, id ∈ (step state entry).resolvedRoots ↔
      id ∈ state.resolvedRoots ∨ adds entry.1) (values : List σ) (state : RootSelection) (n : ℕ) :
    id ∈ ((values.zipIdx n).foldl step state).resolvedRoots ↔
      id ∈ state.resolvedRoots ∨ ∃ value ∈ values, adds value := by
  induction values generalizing state n with
  | nil => simp
  | cons value rest ih =>
      rw [List.zipIdx_cons, List.foldl_cons, ih, hstep, List.exists_mem_cons_iff, or_assoc]

theorem mem_selectRoot {records : Records} {entry : ResourceSelector × ℕ} :
    id ∈ (state.selectRoot records entry).resolvedRoots ↔ id ∈ state.resolvedRoots ∨
      (entry.1.matchKind = .exact ∧ resolveSelector records entry.1 = .one id) ∨
      (entry.1.matchKind = .namePrefix ∧ id ∈ resolvePrefixSelector records entry.1) := by
  obtain ⟨selector, position⟩ := entry
  rw [selectRoot]
  cases hkind : selector.matchKind with
  | namePrefix => simp [mem_selectMatched]
  | exact =>
      cases hresolve : resolveSelector records selector with
      | one identity => simp [mem_select, or_comm, eq_comm]
      | none => simp [report]
      | many => simp [report]

theorem mem_selectLabel {records : Records} {entry : LabelSelector × ℕ} :
    id ∈ (state.selectLabel records entry).resolvedRoots ↔ id ∈ state.resolvedRoots ∨
      ∃ record, records[id]? = some record ∧ carriesLabel entry.1 record = true := by
  rw [selectLabel, mem_selectMatched]
  simp [ExtTreeMap.mem_toList_iff_getElem?_eq_some]

end RootSelection

/-- A root is named by a selector, or every eligible root is asked for and it is one. -/
theorem mem_selection : id ∈ (inventory.selection request).resolvedRoots ↔
    Named inventory request id ∨ (request.all = true ∧
      ∃ record, inventory.records[id]? = some record ∧
        eligibleAllRoot id record inventory.reverse inventory.ownership[id]? = true) := by
  have hselectors : id ∈ (request.labelSelectors.toList.zipIdx.foldl
      (RootSelection.selectLabel inventory.records) (request.roots.toList.zipIdx.foldl
        (RootSelection.selectRoot inventory.records) .empty)).resolvedRoots ↔
      Named inventory request id := by
    let labelled (selector : LabelSelector) : Prop := ∃ record,
      inventory.records[id]? = some record ∧ RootSelection.carriesLabel selector record = true
    let selected (selector : ResourceSelector) : Prop :=
      (selector.matchKind = .exact ∧ resolveSelector inventory.records selector = .one id) ∨
        (selector.matchKind = .namePrefix ∧ id ∈ resolvePrefixSelector inventory.records selector)
    rw [RootSelection.mem_foldl_zipIdx labelled fun _ _ => RootSelection.mem_selectLabel,
      RootSelection.mem_foldl_zipIdx selected fun _ _ => RootSelection.mem_selectRoot]
    simp only [ExtTreeSet.mem_toList, labelled, selected]
    constructor
    · rintro ((hempty | ⟨selector, hmem, ⟨hkind, hone⟩ | ⟨hkind, hpre⟩⟩) |
        ⟨selector, hmem, record, hrecord, hcarries⟩)
      · exact absurd hempty ExtTreeSet.not_mem_empty
      · exact .exact selector hmem hkind hone
      · exact .namePrefix selector hmem hkind hpre
      · exact .label selector hmem record hrecord hcarries
    · rintro (⟨selector, hmem, hkind, hone⟩ | ⟨selector, hmem, hkind, hpre⟩ |
        ⟨selector, hmem, record, hrecord, hcarries⟩)
      · exact Or.inl (Or.inr ⟨selector, hmem, Or.inl ⟨hkind, hone⟩⟩)
      · exact Or.inl (Or.inr ⟨selector, hmem, Or.inr ⟨hkind, hpre⟩⟩)
      · exact Or.inr ⟨selector, hmem, record, hrecord, hcarries⟩
  have hbulk (entries : List (ResourceIdentity × ResourceObservation)) (state : RootSelection) :
      id ∈ (entries.foldl (fun state entry =>
        if eligibleAllRoot entry.1 entry.2 inventory.reverse inventory.ownership[entry.1]? then
          state.select .all entry.1
        else state) state).resolvedRoots ↔ id ∈ state.resolvedRoots ∨
          ∃ record, (id, record) ∈ entries ∧
            eligibleAllRoot id record inventory.reverse inventory.ownership[id]? = true := by
    induction entries generalizing state with
    | nil => simp
    | cons entry rest ih =>
        obtain ⟨identity, record⟩ := entry
        rw [List.foldl_cons, ih]
        by_cases heligible :
            eligibleAllRoot identity record inventory.reverse inventory.ownership[identity]? = true
        · rw [if_pos heligible, RootSelection.mem_select]
          grind
        · rw [if_neg heligible]
          grind
  rw [ResourceInventory.selection, selectRoots]
  split_ifs with hall
  · rw [hbulk, hselectors]
    simp [hall, ExtTreeMap.mem_toList_iff_getElem?_eq_some]
  · rw [hselectors]
    simp [hall]

/-- Shared roots with consumers are crossed, and nothing else is. -/
theorem mem_crossed {reverse : Adjacency ResourceIdentity} {shared : List ResourceIdentity}
    {state : ExtTreeSet ResourceIdentity × ExtTreeSet ResourceIdentity} :
    id ∈ (shared.foldl (crossShared reverse) state).2 ↔
      id ∈ state.2 ∨ (id ∈ shared ∧ neighbors reverse id ≠ []) := by
  induction shared generalizing state with
  | nil => simp
  | cons root rest ih =>
      rw [List.foldl_cons, ih, crossShared]
      split_ifs with hempty
      · rw [List.isEmpty_iff] at hempty
        grind
      · rw [List.isEmpty_iff] at hempty
        rw [ExtTreeSet.mem_insert, Std.compare_eq_iff_eq]
        grind

theorem neighbors_reverse_ne_nil :
    neighbors inventory.reverse id ≠ [] ↔ ∃ consumer, Consumes inventory consumer id := by
  rw [ne_eq, List.eq_nil_iff_forall_not_mem]
  simp only [mem_reverse, not_forall, not_not]

/-- In bulk only an image can be eligible although something depends on it. -/
theorem owned_of_eligibleAllRoot {record : ResourceObservation}
    (heligible : eligibleAllRoot id record inventory.reverse inventory.ownership[id]? = true)
    (hshared : isSharedKind id.kind = true) (hused : ∃ consumer, Consumes inventory consumer id) :
    OwnedImageInUse inventory id := by
  have hcontains : inventory.reverse.contains id = true := by
    obtain ⟨consumer, hconsumer⟩ := hused
    obtain ⟨found, hfound, -⟩ := mem_neighbors.mp (mem_reverse.mpr hconsumer)
    exact ExtTreeMap.contains_iff_mem.mpr
      (ExtTreeMap.mem_iff_isSome_getElem?.mpr (by simp [hfound]))
  unfold eligibleAllRoot at heligible
  cases hkind : id.kind with
  | image => exact ⟨hkind, by simpa [hkind] using heligible, hused⟩
  | _ => simp [hkind, hcontains, isSharedKind] at heligible hshared

theorem eligibleAllRoot_of_owned (h : OwnedImageInUse inventory id) :
    ∃ record, inventory.records[id]? = some record ∧
      eligibleAllRoot id record inventory.reverse inventory.ownership[id]? = true := by
  have howned := h.owned
  obtain ⟨project, hproject⟩ := Option.isSome_iff_exists.mp howned
  obtain ⟨entry, hentry, hstatus⟩ := exists_of_getElem?_insertAll hproject
  split at hstatus
  · next hlabels =>
      obtain ⟨rfl, rfl⟩ := Prod.mk.inj (Option.some.inj hstatus)
      refine ⟨entry.2, ExtTreeMap.mem_toList_iff_getElem?_eq_some.mp hentry, ?_⟩
      simp only [eligibleAllRoot, h.kind, howned]
  · cases hstatus

/-- A crossed shared resource is named, or it is an owned image in use and all roots are wanted. -/
theorem mem_seeded_crossed : id ∈ (inventory.seeded request).2 ↔
    isSharedKind id.kind = true ∧ (∃ consumer, Consumes inventory consumer id) ∧
      (Named inventory request id ∨ (request.all = true ∧ OwnedImageInUse inventory id)) := by
  have hclassified : (inventory.selection request).Classified := classified_selectRoots _ _ _ _
  rw [ResourceInventory.seeded, mem_crossed, ExtTreeSet.mem_toList, hclassified.shared,
    mem_selection, neighbors_reverse_ne_nil]
  constructor
  · rintro (hempty | ⟨⟨hroot, hshared⟩, hused⟩)
    · exact absurd hempty ExtTreeSet.not_mem_empty
    · refine ⟨hshared, hused, hroot.imp_right ?_⟩
      rintro ⟨hall, record, -, heligible⟩
      exact ⟨hall, owned_of_eligibleAllRoot heligible hshared hused⟩
  · rintro ⟨hshared, hused, hroot⟩
    refine Or.inr ⟨⟨hroot.imp_right ?_, hshared⟩, hused⟩
    rintro ⟨hall, howned⟩
    exact ⟨hall, eligibleAllRoot_of_owned howned⟩

end Roots

section Explanations

theorem exists_crossing_explanation {id : ResourceIdentity} :
    (∃ explanation ∈ inventory.explanations request,
      explanation.kind = .authorizedSharedCrossing ∧ explanation.resource = id) ↔
        id ∈ (inventory.seeded request).2 := by
  have hgroup (entry : ResourceGroup × ℕ) : ∀ explanation ∈ groupExplanations entry,
      explanation.kind ≠ .authorizedSharedCrossing := by
    intro explanation hmem
    simp only [groupExplanations, List.mem_append, List.mem_cons, List.mem_map] at hmem
    obtain (rfl | ⟨member, -, rfl⟩) | ⟨prerequisite, -, rfl⟩ := hmem <;>
      simp [DiscoveryExplanation.about]
  have hstopped (reverse : Adjacency ResourceIdentity) (shared crossed : ExtTreeSet ResourceIdentity)
      (group : ResourceGroup) : ∀ explanation ∈ stoppedBoundaries reverse shared crossed group,
        explanation.kind ≠ .authorizedSharedCrossing := by
    intro explanation hmem
    obtain ⟨prerequisite, -, rfl⟩ := List.mem_map.mp hmem
    simp [DiscoveryExplanation.about]
  simp only [ResourceInventory.explanations, List.mem_append, List.mem_map, List.mem_flatMap,
    ExtTreeSet.mem_toList]
  constructor
  · rintro ⟨explanation, ((((⟨_, -, rfl⟩ | ⟨entry, -, hmem⟩) | ⟨_, -, rfl⟩) | ⟨_, hcrossed, rfl⟩) |
      ⟨_, -, rfl⟩) | ⟨group, -, hmem⟩, hkind, rfl⟩
    · cases hkind
    · exact absurd hkind (hgroup entry explanation hmem)
    · cases hkind
    · exact hcrossed
    · cases hkind
    · exact absurd hkind (hstopped _ _ _ group explanation hmem)
  · intro hcrossed
    exact ⟨_, Or.inl (Or.inl (Or.inr ⟨id, hcrossed, rfl⟩)), rfl, rfl⟩

theorem explanations_of_ok (h : discover inventory request = .ok graph) :
    graph.explanations = inventory.explanations request := by
  rw [discover] at h
  split at h
  · cases h
  · cases h
    rfl

/-- Without a crossing only the roots themselves are seeds. -/
theorem seed_iff_of_uncrossed (hnone : ∀ id, id ∉ (inventory.seeded request).2)
    {id : ResourceIdentity} :
    Seed inventory (inventory.selection request).resolvedRoots.toList id ↔
      id ∈ (inventory.selection request).resolvedRoots.toList := by
  have hunused : ∀ shared ∈ (inventory.selection request).resolvedRoots.toList,
      isSharedKind shared.kind = true → ∀ consumer, ¬Consumes inventory consumer shared := by
    intro shared hroot hshared consumer hconsumes
    have hclassified : (inventory.selection request).Classified := classified_selectRoots _ _ _ _
    refine hnone shared ?_
    rw [ResourceInventory.seeded, mem_crossed, ExtTreeSet.mem_toList, hclassified.shared,
      neighbors_reverse_ne_nil]
    exact Or.inr ⟨⟨ExtTreeSet.mem_toList.mp hroot, hshared⟩, consumer, hconsumes⟩
  constructor
  · rintro (⟨hroot, -⟩ | ⟨shared, hroot, hshared, hconsumes⟩ | ⟨hroot, -⟩)
    · exact hroot
    · exact absurd hconsumes (hunused shared hroot hshared id)
    · exact hroot
  · intro hroot
    cases hshared : isSharedKind id.kind with
    | false => exact Or.inl ⟨hroot, hshared⟩
    | true => exact Or.inr (Or.inr ⟨hroot, hshared, hunused id hroot hshared⟩)

end Explanations

/-- Exactly the unnamed owned images in use are crossed without being named. -/
theorem crossesOnlyNamed_iff (h : discover inventory request = .ok graph) :
    CrossesOnlyNamed inventory request graph ↔
      (request.all = true → ∀ image, OwnedImageInUse inventory image →
        Named inventory request image) := by
  have hfrom := discoveredFrom_of_ok h
  constructor
  · intro hnamed hall image howned
    have hshared : isSharedKind image.kind = true := by rw [howned.kind]; rfl
    have hcrossed : image ∈ (inventory.seeded request).2 :=
      mem_seeded_crossed.mpr ⟨hshared, howned.used, Or.inr ⟨hall, howned⟩⟩
    obtain ⟨explanation, hmem, hkind, rfl⟩ := exists_crossing_explanation.mpr hcrossed
    rw [← explanations_of_ok h] at hmem
    exact hnamed.named explanation hmem hkind
  · intro howned
    have hcrossed {id : ResourceIdentity} (hid : id ∈ (inventory.seeded request).2) :
        Named inventory request id := by
      obtain ⟨-, -, hnamed | ⟨hall, himage⟩⟩ := mem_seeded_crossed.mp hid
      · exact hnamed
      · exact howned hall id himage
    constructor
    · intro explanation hmem hkind
      rw [explanations_of_ok h] at hmem
      exact hcrossed (exists_crossing_explanation.mp ⟨explanation, hmem, hkind, rfl⟩)
    · intro hall hroots hlabels hoverrides
      have hnone (id : ResourceIdentity) : id ∉ (inventory.seeded request).2 := by
        intro hid
        obtain ⟨_, hmem, -⟩ | ⟨_, hmem, -⟩ | ⟨_, hmem, -⟩ := hcrossed hid <;>
          simp [hroots, hlabels] at hmem
      have hcrosses : ∀ a b, ¬Crosses inventory request a b := by
        rintro a b ⟨network, -, ⟨identifier, hmem, -⟩, -⟩
        simp [hoverrides] at hmem
      have hreaching : Reaching inventory request
          (inventory.selection request).resolvedRoots.toList =
          {closed | (∀ id ∈ (inventory.selection request).resolvedRoots.toList, id ∈ closed) ∧
            ClosedUnder (Joined inventory) closed} := by
        ext closed
        simp only [Reaching, seed_iff_of_uncrossed hnone, Set.mem_ofPred_eq]
        refine ⟨fun hclosed => ⟨hclosed.1, hclosed.2.1⟩, fun hclosed => ⟨hclosed.1, hclosed.2, ?_⟩⟩
        intro a _ b hcross
        exact absurd hcross (hcrosses a b)
      simp only [hfrom.groups, hfrom.resolvedRoots, exists_group_mem_iff]
      rw [← hreaching]
      exact expansion_isLeast

section Sample

def ownedImage : ResourceIdentity := ⟨.image, "i1", some "app"⟩

def ownedLabels : Labels :=
  ((∅ : Labels).insert dockerProject "demo").insert dockerService "web"

/-- One container made from an image that carries complete ownership labels. -/
def ownedImageInventory : ResourceInventory :=
  ⟨[⟨.container,
      [observedContainer webContainer [⟨.image, ["app"], ["ImageName"]⟩] webContainer_kind]⟩,
    ⟨.image, [⟨ownedImage, .image ⟨.observed ⟨ownedLabels, .configured⟩, .absent, .absent⟩, rfl⟩]⟩]⟩

def bulkRequest : DiscoveryRequest := DiscoveryRequest.new.selectAll

/-- Asking for all roots crosses the image although the request has no selector. -/
theorem bulk_crosses_ownedImage : ∃ graph, discover ownedImageInventory bulkRequest = .ok graph ∧
    ¬CrossesOnlyNamed ownedImageInventory bulkRequest graph := by
  have hcrossing : (discover ownedImageInventory bulkRequest).toOption.any (fun graph =>
      graph.explanations.any fun explanation =>
        explanation.kind == .authorizedSharedCrossing) = true := by decide
  cases h : discover ownedImageInventory bulkRequest with
  | error code =>
      rw [h] at hcrossing
      cases hcrossing
  | ok graph =>
      refine ⟨graph, rfl, fun hnamed => ?_⟩
      rw [h] at hcrossing
      obtain ⟨explanation, hmem, hkind⟩ := List.any_eq_true.mp hcrossing
      obtain ⟨_, hroot, -⟩ | ⟨_, hroot, -⟩ | ⟨_, hroot, -⟩ :=
        hnamed.named explanation hmem (by simpa using hkind) <;>
        simp [bulkRequest, DiscoveryRequest.selectAll, DiscoveryRequest.new] at hroot

theorem crossesOnlyNamed_iff_sample : ∃ graph,
    discover sampleInventory sampleRequest = .ok graph ∧
      CrossesOnlyNamed sampleInventory sampleRequest graph := by
  obtain ⟨graph, h, -⟩ := discover_sample
  refine ⟨graph, h, (crossesOnlyNamed_iff h).mpr fun hall => ?_⟩
  cases hall

end Sample

end PodmanLens
