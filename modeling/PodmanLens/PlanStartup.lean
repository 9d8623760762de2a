import PodmanLens.PlanRank

/-!
# Startup edges

A clean scan of the startup dependencies lifts every one of them, repeats none, and records exactly
the lifted edges. If the recorded graph drains completely, drain positions rank the starts: this is
the ranking that the operation graph needs above its creates.
-/

namespace PodmanLens
open Std Drain

variable {resources : ResourceIndex}

/-- The recorded predecessors of an operation, empty where nothing is recorded. -/
def waitsFor (edges : OperationGraph) (id : DeploymentOperationId) :
    ExtTreeSet DeploymentOperationId :=
  edges[id]?.getD ∅

theorem waitsFor_recordEdge (edges : OperationGraph) (edge : OperationEdge)
    (id : DeploymentOperationId) : waitsFor (recordEdge edges edge) id =
      if edge.dependent = id then (waitsFor edges id).insert edge.predecessor
      else waitsFor edges id := by
  simp only [waitsFor, recordEdge, ExtTreeMap.getElem?_alter, Std.compare_eq_iff_eq]
  by_cases hdependent : edge.dependent = id <;> by_cases hpredecessor : edge.predecessor = id <;>
    simp [hdependent, hpredecessor]

theorem mem_recordEdge {edges : OperationGraph} {edge : OperationEdge}
    {id : DeploymentOperationId} : id ∈ recordEdge edges edge ↔
      edge.predecessor = id ∨ edge.dependent = id ∨ id ∈ edges := by
  simp only [ExtTreeMap.mem_iff_isSome_getElem?, recordEdge, ExtTreeMap.getElem?_alter,
    Std.compare_eq_iff_eq]
  by_cases hdependent : edge.dependent = id <;> by_cases hpredecessor : edge.predecessor = id <;>
    simp [hdependent, hpredecessor]

theorem mem_waitsFor_foldl_recordEdge {recorded : List OperationEdge} {edges : OperationGraph}
    {d id : DeploymentOperationId} : d ∈ waitsFor (recorded.foldl recordEdge edges) id ↔
      d ∈ waitsFor edges id ∨ ⟨d, id⟩ ∈ recorded := by
  induction recorded generalizing edges with
  | nil => simp
  | cons edge rest ih =>
      rw [List.foldl_cons, ih, waitsFor_recordEdge, List.mem_cons, ← or_assoc]
      refine or_congr_left ?_
      obtain ⟨predecessor, dependent⟩ := edge
      by_cases hdependent : dependent = id
      · rw [if_pos hdependent, ExtTreeSet.mem_insert, Std.compare_eq_iff_eq, or_comm]
        simp [hdependent, eq_comm]
      · have hne : (⟨d, id⟩ : OperationEdge) ≠ ⟨predecessor, dependent⟩ := by
          rintro ⟨⟩
          exact hdependent rfl
        simp [hdependent, hne]

theorem mem_foldl_recordEdge {recorded : List OperationEdge} {edges : OperationGraph}
    {id : DeploymentOperationId} : id ∈ recorded.foldl recordEdge edges ↔
      id ∈ edges ∨ ∃ edge ∈ recorded, edge.predecessor = id ∨ edge.dependent = id := by
  induction recorded generalizing edges with
  | nil => simp
  | cons edge rest ih =>
      rw [List.foldl_cons, ih, mem_recordEdge, List.exists_mem_cons_iff]
      simp only [or_assoc, or_left_comm]

/-- Two graphs with the same nodes and the same predecessors are equal. -/
theorem graph_ext {a b : OperationGraph} (hmem : ∀ id, id ∈ a ↔ id ∈ b)
    (hwaits : ∀ id d, d ∈ waitsFor a id ↔ d ∈ waitsFor b id) : a = b := by
  refine ExtTreeMap.ext_getElem? fun id => ?_
  have hnode := hmem id
  have hset : waitsFor a id = waitsFor b id := ExtTreeSet.ext_mem fun d => hwaits id d
  rw [ExtTreeMap.mem_iff_isSome_getElem?, ExtTreeMap.mem_iff_isSome_getElem?] at hnode
  simp only [waitsFor] at hset
  cases ha : a[id]? with
  | none =>
      cases hb : b[id]? with
      | none => rfl
      | some found => simp [ha, hb] at hnode
  | some found =>
      rw [ha] at hnode hset
      obtain ⟨other, hother⟩ := Option.isSome_iff_exists.mp (hnode.mp rfl)
      rw [hother] at hset ⊢
      exact congrArg some hset

theorem foldl_recordEdge_perm {a b : List OperationEdge} (h : ∀ edge, edge ∈ a ↔ edge ∈ b) :
    a.foldl recordEdge ∅ = b.foldl recordEdge ∅ := by
  apply graph_ext
  · intro id
    simp only [mem_foldl_recordEdge, h]
  · intro id d
    simp only [mem_waitsFor_foldl_recordEdge, h]

def SamePod (edge : OperationEdge) : Prop :=
  edge.predecessor = edge.dependent ∧ edge.predecessor.action = .startPod

def scannedEdges (resources : ResourceIndex) (entries : List (StartupDependency × ℕ)) :
    List OperationEdge :=
  entries.filterMap fun entry => liftDependency resources entry.1

theorem scannedEdges_cons {entry : StartupDependency × ℕ} {edge : OperationEdge}
    (h : liftDependency resources entry.1 = some edge) (rest : List (StartupDependency × ℕ)) :
    scannedEdges resources (entry :: rest) = edge :: scannedEdges resources rest :=
  List.filterMap_cons_some h

theorem scanStartup_of_lift_eq_none {scan : StartupScan} {entry : StartupDependency × ℕ}
    (h : liftDependency resources entry.1 = none) :
    (scanStartup resources scan entry).findings ≠ [] := by
  unfold liftDependency at h
  unfold scanStartup
  cases hp : startAnchor resources entry.1.predecessor <;>
    cases hd : startAnchor resources entry.1.dependent <;> simp_all

theorem scanStartup_of_lift (scan : StartupScan) {entry : StartupDependency × ℕ}
    {edge : OperationEdge} (h : liftDependency resources entry.1 = some edge) :
    ((scanStartup resources scan entry).findings = [] ↔
      scan.findings = [] ∧ ¬SamePod edge ∧ edge ∉ scan.seen) ∧
    (¬SamePod edge → edge ∉ scan.seen → scanStartup resources scan entry =
      { scan with edges := recordEdge scan.edges edge, seen := scan.seen.insert edge }) := by
  unfold liftDependency at h
  unfold scanStartup SamePod
  split at h
  · next predecessor dependent hp hd =>
      cases h
      simp only [hp, hd]
      split_ifs with hsame hseen
      · refine ⟨⟨fun hnil => ?_, fun hclean => absurd hsame hclean.2.1⟩, absurd hsame⟩
        simp at hnil
      · simp [hsame, ExtTreeSet.mem_iff_contains, hseen]
      · simp [hsame, ExtTreeSet.mem_iff_contains, hseen]
  · cases h

/-- A scan stays clean exactly when every entry lifts, within no pod and to a fresh edge. -/
theorem foldl_scanStartup_findings {entries : List (StartupDependency × ℕ)} {scan : StartupScan} :
    (entries.foldl (scanStartup resources) scan).findings = [] ↔
      scan.findings = [] ∧ (∀ entry ∈ entries, ∃ edge,
        liftDependency resources entry.1 = some edge ∧ ¬SamePod edge) ∧
      (scannedEdges resources entries).Nodup ∧
      ∀ edge ∈ scannedEdges resources entries, edge ∉ scan.seen := by
  induction entries generalizing scan with
  | nil => simp [scannedEdges]
  | cons entry rest ih =>
      rw [List.foldl_cons, ih, List.forall_mem_cons]
      cases hlift : liftDependency resources entry.1 with
      | none => simp [scanStartup_of_lift_eq_none hlift]
      | some edge =>
          obtain ⟨hfindings, hstep⟩ := scanStartup_of_lift scan hlift
          rw [hfindings, scannedEdges_cons hlift, List.nodup_cons, List.forall_mem_cons]
          by_cases hfresh : ¬SamePod edge ∧ edge ∉ scan.seen
          · rw [hstep hfresh.1 hfresh.2]
            have hseen : (∀ other ∈ scannedEdges resources rest, other ∉ scan.seen.insert edge) ↔
                edge ∉ scannedEdges resources rest ∧
                  ∀ other ∈ scannedEdges resources rest, other ∉ scan.seen := by
              simp only [ExtTreeSet.mem_insert, Std.compare_eq_iff_eq, not_or]
              constructor
              · intro h
                exact ⟨fun hmem => (h edge hmem).1 rfl, fun other hother => (h other hother).2⟩
              · rintro ⟨hnot, h⟩ other hother
                exact ⟨fun heq => hnot (heq ▸ hother), h other hother⟩
            simp only [hseen, Option.some.injEq, exists_eq_left', hfresh, not_false_eq_true, true_and]
            tauto
          · simp only [Option.some.injEq, exists_eq_left']
            tauto

theorem foldl_scanStartup_edges {entries : List (StartupDependency × ℕ)} {scan : StartupScan}
    (h : (entries.foldl (scanStartup resources) scan).findings = []) :
    (entries.foldl (scanStartup resources) scan).edges =
      (scannedEdges resources entries).foldl recordEdge scan.edges := by
  induction entries generalizing scan with
  | nil => rfl
  | cons entry rest ih =>
      rw [List.foldl_cons] at h ⊢
      rw [ih h]
      have hstep := (foldl_scanStartup_findings.mp h).1
      cases hlift : liftDependency resources entry.1 with
      | none => exact absurd hstep (scanStartup_of_lift_eq_none hlift)
      | some edge =>
          obtain ⟨hfindings, heq⟩ := scanStartup_of_lift scan hlift
          obtain ⟨-, hsame, hseen⟩ := hfindings.mp hstep
          rw [heq hsame hseen, scannedEdges_cons hlift]
          rfl

def liftedEdges (resources : ResourceIndex) (dependencies : List StartupDependency) :
    List OperationEdge :=
  dependencies.filterMap (liftDependency resources)

theorem scannedEdges_zipIdx (resources : ResourceIndex) (dependencies : List StartupDependency) :
    scannedEdges resources dependencies.zipIdx = liftedEdges resources dependencies := by
  rw [scannedEdges, liftedEdges]
  calc
    _ = (dependencies.zipIdx.map Prod.fst).filterMap (liftDependency resources) := by
      rw [List.filterMap_map]
      rfl
    _ = _ := by rw [List.zipIdx_map_fst]

/-- The startup dependencies that a clean validation admits. -/
structure StartupClean (resources : ResourceIndex) (dependencies : List StartupDependency) :
    Prop where
  lifts : ∀ dependency ∈ dependencies, ∃ edge,
    liftDependency resources dependency = some edge ∧ ¬SamePod edge
  nodup : (liftedEdges resources dependencies).Nodup
  acyclic : operationCycle ((liftedEdges resources dependencies).foldl recordEdge ∅) = none

theorem validateStartupDependencies_eq_nil {dependencies : List StartupDependency} :
    validateStartupDependencies dependencies resources = [] ↔
      StartupClean resources dependencies := by
  have hentries : (∀ entry ∈ dependencies.zipIdx, ∃ edge,
      liftDependency resources entry.1 = some edge ∧ ¬SamePod edge) ↔
      ∀ dependency ∈ dependencies, ∃ edge,
        liftDependency resources dependency = some edge ∧ ¬SamePod edge := by
    conv_rhs => rw [← List.zipIdx_map_fst 0 dependencies]
    simp only [List.forall_mem_map]
  rw [validateStartupDependencies, List.append_eq_nil_iff, Option.toList_eq_nil_iff,
    Option.map_eq_none_iff]
  constructor
  · rintro ⟨hfindings, hacyclic⟩
    obtain ⟨-, hlifts, hnodup, -⟩ := foldl_scanStartup_findings.mp hfindings
    rw [foldl_scanStartup_edges hfindings, scannedEdges_zipIdx] at hacyclic
    exact ⟨hentries.mp hlifts, scannedEdges_zipIdx resources dependencies ▸ hnodup,
      hacyclic⟩
  · intro h
    have hfindings : (dependencies.zipIdx.foldl (scanStartup resources) ⟨∅, ∅, []⟩).findings = [] := by
      rw [foldl_scanStartup_findings, scannedEdges_zipIdx]
      exact ⟨rfl, hentries.mpr h.lifts, h.nodup, fun _ _ => ExtTreeSet.not_mem_empty⟩
    rw [foldl_scanStartup_edges hfindings, scannedEdges_zipIdx]
    exact ⟨hfindings, h.acyclic⟩

/-- Positions of the start operations in the drained order of the startup edges. -/
def startRank (resources : ResourceIndex) (dependencies : List StartupDependency)
    (id : DeploymentOperationId) : ℕ :=
  let edges := (liftedEdges resources dependencies).foldl recordEdge ∅
  (drain operationSortKey edges.size edges).1.idxOf id

theorem mem_liftedEdges {dependencies : List StartupDependency}
    {predecessor dependent : DeploymentOperationId} :
    ⟨predecessor, dependent⟩ ∈ liftedEdges resources dependencies ↔
      Lifts resources dependencies predecessor dependent := by
  have hedges : (⟨predecessor, dependent⟩ : OperationEdge) ∈ startupEdges resources dependencies ↔
      ⟨predecessor, dependent⟩ ∈ liftedEdges resources dependencies := by
    rw [startupEdges, ExtTreeSet.mem_ofList, List.contains_iff_mem]
    rfl
  rw [← hedges, mem_startupEdges]

theorem StartupClean.startRank_lt {dependencies : List StartupDependency}
    (h : StartupClean resources dependencies) {predecessor dependent : DeploymentOperationId}
    (hedge : Lifts resources dependencies predecessor dependent) :
    startRank resources dependencies predecessor < startRank resources dependencies dependent := by
  have hwaits : predecessor ∈
      waitsFor ((liftedEdges resources dependencies).foldl recordEdge ∅) dependent :=
    mem_waitsFor_foldl_recordEdge.mpr (Or.inr (mem_liftedEdges.mpr hedge))
  have hacyclic := h.acyclic
  simp only [startRank]
  generalize (liftedEdges resources dependencies).foldl recordEdge ∅ = edges at hwaits hacyclic ⊢
  have hdrained := drain_drained operationSortKey edges.size edges
  unfold operationCycle at hacyclic
  simp only [ite_eq_left_iff, reduceCtorEq, imp_false, not_not] at hacyclic
  rw [ExtTreeMap.isEmpty_iff] at hacyclic
  rw [hacyclic] at hdrained
  cases hget : edges[dependent]? with
  | none => simp [waitsFor, hget] at hwaits
  | some dependencies => exact hdrained.rank_of_exhausted hget (by simpa [waitsFor, hget] using hwaits)

end PodmanLens
