import PodmanLens.DrainCycles
import PodmanLens.PlanSuccess

/-!
# Startup cycles

Whatever else a scan of the startup dependencies reports, it records every lifted edge that joins
different pods or containers, once. The reported cycle is what the drain of that record leaves: the
operations on a directed cycle and those behind one.
-/

namespace PodmanLens
open Std Drain Relation

variable {resources : ResourceIndex}

/-- A declared startup dependency lifts to an edge that does not stay within one pod. -/
def StartEdge (resources : ResourceIndex) (dependencies : List StartupDependency)
    (predecessor dependent : DeploymentOperationId) : Prop :=
  ∃ dependency ∈ dependencies,
    liftDependency resources dependency = some ⟨predecessor, dependent⟩ ∧
      ¬SamePod ⟨predecessor, dependent⟩

/-- The recorded graph is the one of the seen edges, and no cycle has been reported. -/
structure Recorded (scan : StartupScan) : Prop where
  waits : ∀ d id, d ∈ waitsFor scan.edges id ↔ ⟨d, id⟩ ∈ scan.seen
  nodes : ∀ id, id ∈ scan.edges ↔
    ∃ edge ∈ scan.seen, edge.predecessor = id ∨ edge.dependent = id
  findings : ∀ finding ∈ scan.findings, finding.code ≠ .deploymentCycle

theorem recorded_empty : Recorded ⟨∅, ∅, []⟩ where
  waits := by simp [waitsFor]
  nodes := by simp
  findings := by simp

theorem Recorded.report {scan : StartupScan} (h : Recorded scan) {reported : List PlanningFinding}
    (hreported : ∀ finding ∈ reported, finding.code ≠ .deploymentCycle) :
    Recorded { scan with findings := scan.findings ++ reported } where
  waits := h.waits
  nodes := h.nodes
  findings finding hfinding := by
    rcases List.mem_append.mp hfinding with hold | hnew
    · exact h.findings finding hold
    · exact hreported finding hnew

theorem Recorded.record {scan : StartupScan} (h : Recorded scan) (edge : OperationEdge) :
    Recorded { scan with edges := recordEdge scan.edges edge, seen := scan.seen.insert edge } where
  waits d id := by
    obtain ⟨predecessor, dependent⟩ := edge
    simp only [waitsFor_recordEdge, ExtTreeSet.mem_insert, Std.compare_eq_iff_eq,
      OperationEdge.mk.injEq]
    by_cases hid : dependent = id
    · rw [if_pos hid, ExtTreeSet.mem_insert, Std.compare_eq_iff_eq, h.waits]
      simp [hid]
    · rw [if_neg hid, h.waits]
      simp [hid]
  nodes id := by
    simp only [mem_recordEdge, h.nodes, ExtTreeSet.mem_insert, Std.compare_eq_iff_eq,
      or_and_right, exists_or, exists_eq_left', or_assoc]
  findings := h.findings

/-- A scan step records the edge of its entry, or only reports a finding that is no cycle. -/
theorem scanStartup_cases (resources : ResourceIndex) (scan : StartupScan) (entry : StartupDependency × ℕ) :
    (∃ edge, liftDependency resources entry.1 = some edge ∧ ¬SamePod edge ∧
      scanStartup resources scan entry =
        { scan with edges := recordEdge scan.edges edge, seen := scan.seen.insert edge }) ∨
    ∃ reported, scanStartup resources scan entry =
        { scan with findings := scan.findings ++ reported } ∧
      (∀ finding ∈ reported, finding.code ≠ .deploymentCycle) ∧
      ∀ edge, liftDependency resources entry.1 = some edge → ¬SamePod edge → edge ∈ scan.seen := by
  cases hlift : liftDependency resources entry.1 with
  | none =>
      refine Or.inr ?_
      unfold liftDependency at hlift
      unfold scanStartup
      cases hp : startAnchor resources entry.1.predecessor <;>
        cases hd : startAnchor resources entry.1.dependent <;>
        simp [hp, hd, startupFinding, PlanningFinding.detailed] at hlift ⊢
  | some edge =>
      obtain ⟨-, hstep⟩ := scanStartup_of_lift scan hlift
      by_cases hfresh : ¬SamePod edge ∧ edge ∉ scan.seen
      · exact Or.inl ⟨edge, rfl, hfresh.1, hstep hfresh.1 hfresh.2⟩
      · refine Or.inr ?_
        unfold liftDependency at hlift
        unfold scanStartup
        split at hlift
        · next predecessor dependent hp hd =>
            cases hlift
            simp only [hp, hd]
            split_ifs with hsame hseen
            · refine ⟨_, rfl, by simp [startupFinding, PlanningFinding.detailed], ?_⟩
              rintro edge ⟨⟩ hdiffers
              exact absurd hsame hdiffers
            · refine ⟨_, rfl, by simp [startupFinding, PlanningFinding.detailed], ?_⟩
              rintro edge ⟨⟩ -
              exact ExtTreeSet.mem_iff_contains.mpr hseen
            · exact absurd ⟨hsame, fun hmem => hseen (ExtTreeSet.mem_iff_contains.mp hmem)⟩ hfresh
        · cases hlift

theorem Recorded.step (resources : ResourceIndex) {scan : StartupScan} (h : Recorded scan)
    (entry : StartupDependency × ℕ) :
    Recorded (scanStartup resources scan entry) ∧
      ∀ edge, edge ∈ (scanStartup resources scan entry).seen ↔
        edge ∈ scan.seen ∨ liftDependency resources entry.1 = some edge ∧ ¬SamePod edge := by
  obtain ⟨edge, hlift, hdiffers, hstep⟩ | ⟨reported, hstep, hcodes, hseen⟩ :=
    scanStartup_cases resources scan entry
  · rw [hstep]
    refine ⟨h.record edge, fun other => ?_⟩
    rw [ExtTreeSet.mem_insert, Std.compare_eq_iff_eq, hlift, Option.some.injEq, or_comm]
    refine or_congr_right ⟨?_, fun hother => hother.1⟩
    rintro rfl
    exact ⟨rfl, hdiffers⟩
  · rw [hstep]
    refine ⟨h.report hcodes, fun other => ?_⟩
    exact (or_iff_left_of_imp fun hother => hseen other hother.1 hother.2).symm

theorem Recorded.run (resources : ResourceIndex) (entries : List (StartupDependency × ℕ))
    {scan : StartupScan} (h : Recorded scan) :
    Recorded (entries.foldl (scanStartup resources) scan) ∧
      ∀ edge, edge ∈ (entries.foldl (scanStartup resources) scan).seen ↔ edge ∈ scan.seen ∨
        ∃ entry ∈ entries, liftDependency resources entry.1 = some edge ∧ ¬SamePod edge := by
  induction entries generalizing scan with
  | nil => exact ⟨h, fun edge => by simp⟩
  | cons entry rest ih =>
      obtain ⟨hrecorded, hseen⟩ := h.step resources entry
      obtain ⟨hrun, hrest⟩ := ih hrecorded
      refine ⟨hrun, fun edge => ?_⟩
      rw [List.foldl_cons, hrest, hseen, List.exists_mem_cons_iff, or_assoc]

/-- The record of a whole scan of the declared dependencies. -/
def startupScan (resources : ResourceIndex) (dependencies : List StartupDependency) : StartupScan :=
  dependencies.zipIdx.foldl (scanStartup resources) ⟨∅, ∅, []⟩

variable {dependencies : List StartupDependency}

theorem recorded_startupScan : Recorded (startupScan resources dependencies) :=
  (recorded_empty.run resources dependencies.zipIdx).1

theorem mem_startupScan_seen {predecessor dependent : DeploymentOperationId} :
    ⟨predecessor, dependent⟩ ∈ (startupScan resources dependencies).seen ↔
      StartEdge resources dependencies predecessor dependent := by
  have hentries (dependency : StartupDependency) :
      dependency ∈ dependencies ↔ ∃ index, (dependency, index) ∈ dependencies.zipIdx := by
    conv_lhs => rw [← List.zipIdx_map_fst 0 dependencies, List.mem_map]
    constructor
    · rintro ⟨⟨_, index⟩, hmem, rfl⟩
      exact ⟨index, hmem⟩
    · rintro ⟨index, hmem⟩
      exact ⟨_, hmem, rfl⟩
  rw [startupScan, (recorded_empty.run resources dependencies.zipIdx).2, StartEdge]
  simp [hentries]

theorem waits_startupScan {d id : DeploymentOperationId} :
    Waits (startupScan resources dependencies).edges d id ↔
      StartEdge resources dependencies d id := by
  rw [← mem_startupScan_seen, ← recorded_startupScan.waits, waitsFor, Waits]
  cases (startupScan resources dependencies).edges[id]? with
  | none => simp
  | some found => simp

theorem waits_startupScan_closed (d id : DeploymentOperationId)
    (h : Waits (startupScan resources dependencies).edges d id) :
    d ∈ (startupScan resources dependencies).edges :=
  (recorded_startupScan.nodes d).mpr
    ⟨⟨d, id⟩, mem_startupScan_seen.mpr (waits_startupScan.mp h), Or.inl rfl⟩

/-- An operation on a directed cycle of start edges, or behind one. -/
def OnOrBehindCycle (resources : ResourceIndex) (dependencies : List StartupDependency)
    (id : DeploymentOperationId) : Prop :=
  ∃ c, TransGen (StartEdge resources dependencies) c c ∧
    ReflTransGen (StartEdge resources dependencies) c id

theorem mem_startupScan_rest {id : DeploymentOperationId} :
    id ∈ (drain operationSortKey (startupScan resources dependencies).edges.size
      (startupScan resources dependencies).edges).2 ↔
        OnOrBehindCycle resources dependencies id := by
  have hwaits : Waits (startupScan resources dependencies).edges =
      StartEdge resources dependencies := by
    ext d id
    exact waits_startupScan
  rw [mem_drain_rest operationSortKey waits_startupScan_closed, hwaits]
  rfl

theorem operationCycle_eq_some {edges : OperationGraph} {operations : List DeploymentOperationId}
    (h : operationCycle edges = some operations) :
    operations = (drain operationSortKey edges.size edges).2.keys := by
  simp only [operationCycle] at h
  split_ifs at h
  exact (Option.some_injective _ h).symm

theorem operationCycle_startupScan :
    (operationCycle (startupScan resources dependencies).edges).isSome ↔
      ∃ id, TransGen (StartEdge resources dependencies) id id := by
  have hsome : (operationCycle (startupScan resources dependencies).edges).isSome ↔
      ∃ id, OnOrBehindCycle resources dependencies id := by
    simp only [operationCycle, ← mem_startupScan_rest]
    generalize (drain operationSortKey _ (startupScan resources dependencies).edges).2 = rest
    by_cases hempty : rest = ∅
    · simp [hempty]
    · have hmem : ∃ id, id ∈ rest := by
        by_contra hnone
        exact hempty (ExtTreeMap.eq_empty_iff_forall_not_mem.mpr (by simpa using hnone))
      simp [hempty, hmem]
  rw [hsome]
  constructor
  · rintro ⟨id, c, hcycle, -⟩
    exact ⟨c, hcycle⟩
  · rintro ⟨c, hcycle⟩
    exact ⟨c, c, hcycle, .refl⟩

theorem cycle_mem_validateStartupDependencies {finding : PlanningFinding} :
    finding ∈ validateStartupDependencies dependencies resources ∧
      finding.code = .deploymentCycle ↔
        ∃ operations, operationCycle (startupScan resources dependencies).edges = some operations ∧
          cycleFinding operations = finding := by
  have hrecorded : Recorded (startupScan resources dependencies) := recorded_startupScan
  have hfindings := hrecorded.findings finding
  rw [validateStartupDependencies, ← startupScan, List.mem_append, Option.mem_toList,
    Option.map_eq_some_iff]
  constructor
  · rintro ⟨hscan | hcycle, hcode⟩
    · exact absurd hcode (hfindings hscan)
    · exact hcycle
  · rintro ⟨operations, hoperations, rfl⟩
    exact ⟨Or.inr ⟨operations, hoperations, rfl⟩, rfl⟩

/-- A startup cycle is reported exactly when the start edges have one, and the report lists, in
operation order, the resources of the operations on a cycle or behind one. -/
theorem startup_cycle_exact (resources : ResourceIndex) (dependencies : List StartupDependency) :
    ((∃ finding ∈ validateStartupDependencies dependencies resources,
      finding.code = .deploymentCycle) ↔
        ∃ id, TransGen (StartEdge resources dependencies) id id) ∧
    ∀ finding ∈ validateStartupDependencies dependencies resources,
      finding.code = .deploymentCycle → ∃ operations : List DeploymentOperationId,
        finding.related = operations.map (·.resource) ∧
        operations.Pairwise (fun a b => compare a b = .lt) ∧
        ∀ id, id ∈ operations ↔ ∃ c, TransGen (StartEdge resources dependencies) c c ∧
          ReflTransGen (StartEdge resources dependencies) c id := by
  refine ⟨?_, fun finding hmem hcode => ?_⟩
  · simp only [cycle_mem_validateStartupDependencies]
    rw [← operationCycle_startupScan, Option.isSome_iff_exists]
    constructor
    · rintro ⟨finding, operations, hoperations, -⟩
      exact ⟨operations, hoperations⟩
    · rintro ⟨operations, hoperations⟩
      exact ⟨_, operations, hoperations, rfl⟩
  · obtain ⟨operations, hoperations, rfl⟩ :=
      cycle_mem_validateStartupDependencies.mp ⟨hmem, hcode⟩
    obtain rfl := operationCycle_eq_some hoperations
    refine ⟨_, rfl, ExtTreeMap.ordered_keys, fun id => ?_⟩
    rw [ExtTreeMap.mem_keys, mem_startupScan_rest]
    rfl

def circularStarts : List StartupDependency :=
  [⟨sampleApi, sampleWorker⟩, ⟨sampleWorker, sampleApi⟩]

theorem startup_cycle_exact_sample :
    (∃ id, TransGen (StartEdge sampleIntent.index circularStarts) id id) ∧
      ∃ operations : List DeploymentOperationId,
        [samplePod.val, sampleWorker.val] = operations.map (·.resource) := by
  obtain ⟨hreported, hexact⟩ := startup_cycle_exact sampleIntent.index circularStarts
  have hcycle : cycleFinding [⟨.startPod, samplePod⟩, ⟨.startContainer, sampleWorker⟩] ∈
      validateStartupDependencies circularStarts sampleIntent.index := by decide
  obtain ⟨operations, hrelated, -⟩ := hexact _ hcycle rfl
  exact ⟨hreported.mp ⟨_, hcycle, rfl⟩, operations, hrelated⟩

end PodmanLens
