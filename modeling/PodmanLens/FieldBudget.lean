import PodmanLens.Acquisition
import PodmanLens.QuietDecoders
import PodmanLens.Returning
import PodmanLens.SharedBudget

/-!
# The budget of unknown fields

Each inspection draws from the budget of the inventory what its record retains. The limits and the
reserves are those of a shared budget, whatever the transport answers, so no record and no inventory
retains too much and no kind is starved by an earlier one.
-/

namespace PodmanLens
open Returning SharedBudget

section Draws
variable {m : Type → Type} [Monad m] [LawfulMonad m] {kind : ResourceKind}
  (services : AcquisitionServices) (send : LibpodPath → m (PodmanLensResult LibpodResponse))
  (service : ServiceObservation) (options : AcquisitionOptions)

def InspectedRecord.draw (record : InspectedRecord kind) : Draw :=
  ⟨record.unknownFieldLimit, record.observation.header.unmodelled.length⟩

def InspectedSection.draws (found : InspectedSection) : List Draw :=
  found.records.map InspectedRecord.draw

variable {services service options} in
theorem length_answeredObservation (identity : ResourceIdentity) (limit : ℕ)
    (answer : PodmanLensResult LibpodResponse) :
    (answeredObservation services service options identity limit
      answer).header.unmodelled.length ≤ limit := by
  rcases answeredObservation_cases identity limit answer with ⟨code, hfailed⟩ | ⟨response, hdecoded⟩
  · rw [hfailed]
    exact Nat.zero_le limit
  · obtain ⟨object, decoded, -, -, -, hheader⟩ := decodeObservation_eq_ok hdecoded
    rw [hheader]
    exact List.length_take_le limit _

variable {services send service options}

theorem returns_inspectObservation {identity : ResourceIdentity} (ofKind : identity.kind = kind)
    (limit : ℕ) :
    Returns (fun record => record.unknownFieldLimit = limit ∧ record.draw.used ≤ limit)
      (inspectObservation services send service options identity ofKind limit) := by
  unfold inspectObservation
  split
  · exact returns_pure ⟨rfl, Nat.zero_le limit⟩
  · refine (returns_trivial _).bind fun answer _ => returns_pure ⟨rfl, ?_⟩
    exact length_answeredObservation identity limit answer

theorem returns_inspectIdentities (reservation : ℕ) (identities : List ResourceIdentity)
    (ofKind : ∀ identity ∈ identities, identity.kind = kind) (remaining : ℕ) :
    Returns (fun result => result.1.length = identities.length ∧
        SpendsGroup maxUnknownFieldsPerRecord reservation (result.1.map InspectedRecord.draw)
          remaining result.2)
      (inspectIdentities services send service options reservation identities ofKind remaining) := by
  induction identities generalizing remaining with
  | nil => exact returns_pure ⟨rfl, .nil remaining⟩
  | cons identity rest ih =>
      rw [inspectIdentities]
      refine (returns_inspectObservation _ _).bind fun record hrecord => ?_
      refine (ih _ _).bind fun result hresult => returns_pure ⟨?_, ?_⟩
      · exact congrArg Nat.succ hresult.1
      · exact .cons hrecord.1 (hrecord.2.trans_eq hrecord.1.symm) hresult.2

theorem returns_inspectKind (listing : KindListing) (reservation remaining : ℕ) :
    Returns (fun result => (!result.1.draws.isEmpty) = listing.hasIdentities ∧
        SpendsGroup maxUnknownFieldsPerRecord reservation result.1.draws remaining result.2)
      (inspectKind services send service options listing reservation remaining) := by
  obtain ⟨kind, listed⟩ := listing
  cases listed with
  | error code => exact returns_pure ⟨rfl, .nil remaining⟩
  | ok listed =>
      refine (returns_inspectIdentities _ _ listed.ofKind _).bind fun result hresult => ?_
      refine returns_pure ⟨?_, hresult.2⟩
      have hempty : result.1.isEmpty = listed.identities.isEmpty := by
        rw [Bool.eq_iff_iff, List.isEmpty_iff_length_eq_zero, List.isEmpty_iff_length_eq_zero,
          hresult.1]
      rw [InspectedSection.draws, List.isEmpty_map, hempty]
      rfl

theorem laterKindUnknownFieldReservations_cons (listing : KindListing)
    (rest : List KindListing) : laterKindUnknownFieldReservations (listing :: rest) =
      rest.countP KindListing.hasIdentities :: laterKindUnknownFieldReservations rest := by
  simp only [laterKindUnknownFieldReservations, List.length_cons, List.range_succ_eq_map,
    List.map_cons, List.map_map, List.drop_succ_cons, List.drop_zero]
  rfl

/-- The sections draw from the budget, each with the reserve of the later ones. -/
theorem returns_inspectKinds (listings : List KindListing) (remaining : ℕ) :
    Returns (fun sections =>
        sections.map (fun found => !found.draws.isEmpty) =
          listings.map KindListing.hasIdentities ∧
        Spends maxUnknownFieldsPerRecord (sections.map InspectedSection.draws) remaining)
      (inspectKinds services send service options
        (listings.zip (laterKindUnknownFieldReservations listings)) remaining) := by
  induction listings generalizing remaining with
  | nil => exact returns_pure ⟨rfl, .nil remaining⟩
  | cons listing rest ih =>
      rw [laterKindUnknownFieldReservations_cons, List.zip_cons_cons, inspectKinds]
      refine (returns_inspectKind _ _ _).bind fun result hresult => ?_
      refine (ih _).bind fun sections hsections => returns_pure ⟨?_, ?_⟩
      · rw [List.map_cons, List.map_cons, hresult.1, hsections.1]
      · refine .cons ?_ hsections.2
        have hreserve : reserve (sections.map InspectedSection.draws) =
            rest.countP KindListing.hasIdentities := by
          rw [reserve, List.countP_map]
          have := congrArg (List.countP id) hsections.1
          rwa [List.countP_map, List.countP_map] at this
        rw [hreserve]
        exact hresult.2

theorem returns_listings :
    Returns (fun listings => listings.length = 6)
      (allKinds.mapM (listKind services send service)) :=
  (returns_mapM fun _ _ => returns_trivial _).mono fun _ hlisted => hlisted.length_eq.symm

theorem draws_reconcileSections (sections : List InspectedSection) :
    (reconcileSections sections).map InspectedSection.draws =
      sections.map InspectedSection.draws := by
  rw [reconcileSections_eq, List.map_map]
  refine List.map_congr_left fun found _ => ?_
  simp only [Function.comp_apply, InspectedSection.draws, InspectedSection.extendFindings,
    List.map_map]
  rfl

/-- An acquired inventory draws from the whole budget, with a reserve for at most six kinds. -/
theorem returns_acquireInventory :
    Returns (fun result => ∀ inventory, result = .ok inventory →
        Spends maxUnknownFieldsPerRecord (inventory.sections.map InspectedSection.draws)
          maxUnknownFieldsPerInventory ∧
        reserve (inventory.sections.map InspectedSection.draws) ≤ 6)
      (acquireInventory services send options) := by
  refine (returns_trivial _).bind fun probed _ => ?_
  cases probed with
  | error code => exact returns_pure nofun
  | ok service =>
      have hinspected : Returns (fun sections =>
          Spends maxUnknownFieldsPerRecord (sections.map InspectedSection.draws)
            maxUnknownFieldsPerInventory ∧
          reserve (sections.map InspectedSection.draws) ≤ 6)
          (inspectInventory services send options service) := by
        refine returns_listings.bind fun listings hlistings => ?_
        refine (returns_inspectKinds listings maxUnknownFieldsPerInventory).mono
          fun sections hsections => ?_
        obtain ⟨hidentities, hspends⟩ := hsections
        refine ⟨hspends, List.countP_le_length.trans ?_⟩
        have hlength := congrArg List.length hidentities
        rw [List.length_map, List.length_map, hlistings] at hlength
        rw [List.length_map, hlength]
      refine hinspected.bind fun sections hsections => returns_pure ?_
      rintro inventory ⟨⟩
      rw [draws_reconcileSections]
      exact hsections

end Draws

section Inventory
variable {σ : Type} (services : AcquisitionServices)
  (send : LibpodPath → StateM σ (PodmanLensResult LibpodResponse)) (options : AcquisitionOptions)

def NativeInventory.observations (inventory : NativeInventory) : List NativeObservation :=
  inventory.sections.flatMap InspectedSection.observations

/-- No record and no inventory retains too many unknown fields, the first resource of each kind may
retain one, and a decoded record keeps the first fields of a list that its limit does not change. -/
theorem unknownFieldBudget_safe_fair_honest :
    (∀ s inventory, ((acquireInventory services send options).run s).1 = .ok inventory →
      (∀ observation ∈ inventory.observations, observation.header.unmodelled.length ≤ 128) ∧
      (inventory.observations.map fun observation =>
        observation.header.unmodelled.length).sum ≤ 2048 ∧
      ∀ found ∈ inventory.sections, ∀ record ∈ found.records.head?,
        1 ≤ record.unknownFieldLimit) ∧
    ∀ listed response evidence, ∃ all : List UnmodelledField, ∀ limit observation,
      decodeObservation services.library services.fromSlice listed response evidence options limit =
          .ok observation →
        observation.header.unmodelled = all.take limit ∧
        ((∃ finding ∈ observation.header.findings, finding.code = .unknownFieldOverflow) ↔
          limit < all.length) ∧
        (observation.header.unmodelledCompleteness = .incomplete ↔ limit < all.length) := by
  constructor
  · intro s inventory hinventory
    obtain ⟨hspends, hreserve⟩ := returns_acquireInventory.of_state s inventory hinventory
    refine ⟨fun observation hobservation => ?_, ?_, fun found hfound record hrecord => ?_⟩
    · obtain ⟨found, hfound, hobservation⟩ := List.mem_flatMap.mp hobservation
      obtain ⟨record, hrecord, rfl⟩ := List.mem_map.mp hobservation
      exact hspends.used_le_cap _ (List.mem_map_of_mem hfound) _ (List.mem_map_of_mem hrecord)
    · refine (le_of_eq ?_).trans hspends.sum_le
      simp only [NativeInventory.observations, ← List.flatMap_def, List.map_flatMap,
        InspectedSection.observations, InspectedSection.draws, List.map_map]
      rfl
    · refine hspends.head_limit (by decide) (hreserve.trans (by decide)) _
        (List.mem_map_of_mem hfound) record.draw ?_
      rw [InspectedSection.draws, List.head?_map]
      exact Option.mem_map_of_mem _ hrecord
  · intro listed response evidence
    cases hobject : responseObject services.library services.fromSlice listed response evidence with
    | error code =>
        refine ⟨[], fun limit observation hobservation => ?_⟩
        obtain ⟨object, -, hread, -⟩ := decodeObservation_eq_ok hobservation
        rw [hobject] at hread
        cases hread
    | ok object =>
        cases hdecoded : decodeKind listed object services.library evidence options with
        | error code =>
            refine ⟨[], fun limit observation hobservation => ?_⟩
            obtain ⟨object, decoded, hread, hdecode, -⟩ := decodeObservation_eq_ok hobservation
            rw [hobject] at hread
            cases hread
            rw [hdecoded] at hdecode
            cases hdecode
        | ok decoded =>
            refine ⟨unmodelledFields services.library listed object evidence decoded,
              fun limit observation hobservation => ?_⟩
            obtain ⟨object, decoded, hread, hdecode, -, hheader⟩ :=
              decodeObservation_eq_ok hobservation
            rw [hobject] at hread
            cases hread
            rw [hdecoded] at hdecode
            cases hdecode
            rw [hheader]
            refine ⟨rfl, overflow_mem_limitedHeader (quiet_decodeKind hdecoded), ?_⟩
            rw [limitedHeader]
            simp only
            split_ifs with hlimit
            · exact iff_of_true rfl hlimit
            · exact iff_of_false (fun h => by cases h) hlimit

end Inventory

/-- Two listed containers, and the inspected document of one. -/
def twoContainerServices : AcquisitionServices where
  library := releaseLibrary
  fromSlice
    | [0] => some versionDocument
    | [1] => some (.array [.object [("Id", .string "b")],
        .object [("Id", .string "a"), ("Names", .array [.string "web"])]])
    | [2] => some (.object [("Id", .string "a"), ("Zone", .null)])
    | _ => none

def twoContainerBody (path : LibpodPath) : List UInt8 :=
  if path.asStr = "/v4.0.0/libpod/version" then [0]
  else if path.asStr = "/v6.1.0/libpod/containers/json?all=true&sync=true" then [1]
  else if path.asStr = "/v6.1.0/libpod/containers/a/json" then [2]
  else []

/-- The transport counts its requests. -/
def countedAnswers (path : LibpodPath) : StateM ℕ (PodmanLensResult LibpodResponse) :=
  (fun _ => .ok (newestResponse (twoContainerBody path))) <$> modify (· + 1)

def twoContainers : PodmanLensResult NativeInventory :=
  ((acquireInventory twoContainerServices countedAnswers ⟨.redact⟩).run 0).1

theorem run_afterTwo {α β : Type} (x : StateM ℕ α) (f : α → β) :
    ((do modify (· + 1); modify (· + 1); return f (← x) : StateM ℕ β).run 0).1 =
      f (x.run 2).1 := rfl

theorem twoContainers_eq : twoContainers = .ok ⟨newestService, reconcileSections
    ((inspectInventory twoContainerServices countedAnswers ⟨.redact⟩ newestService).run 2).1⟩ := by
  have hping : countedAnswers ⟨"/libpod/_ping"⟩ =
      (fun _ => .ok (newestResponse [])) <$> modify (· + 1) := rfl
  have hversion : countedAnswers ⟨"/v4.0.0/libpod/version"⟩ =
      (fun _ => .ok (newestResponse [0])) <$> modify (· + 1) := rfl
  rw [twoContainers, acquireInventory_newest ⟨.redact⟩ rfl rfl hping hversion, run_afterTwo]

theorem unknownFieldBudget_safe_fair_honest_sample : ∃ inventory,
    twoContainers = .ok inventory ∧
      (inventory.observations.map fun observation =>
        observation.header.unmodelled.length) = [1, 0] ∧
      ∀ observation ∈ inventory.observations, observation.header.unmodelled.length ≤ 128 := by
  have hsafe := (unknownFieldBudget_safe_fair_honest twoContainerServices countedAnswers
    ⟨.redact⟩).1 0
  rw [← twoContainers] at hsafe
  exact ⟨_, twoContainers_eq, by decide +kernel, (hsafe _ twoContainers_eq).1⟩

end PodmanLens
