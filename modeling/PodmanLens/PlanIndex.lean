import Mathlib.Data.List.Destutter
import Mathlib.Data.List.Sort
import PodmanLens.Intent
import PodmanLens.TreeEntries

/-!
# Indexing declarations

`indexResources` groups declarations by identity. A single declaration is indexed as it is, equal
repetitions are indexed once and reported, and conflicting declarations are reported and left out.
-/

namespace PodmanLens
open Std TreeEntries

structure PlanningFinding where
  code : DiagnosticCode
  subject : Option DeploymentResourceId
  related : List DeploymentResourceId
  field : Option String
  occurrence : Option ℕ
  count : Option ℕ
  deriving DecidableEq

namespace PlanningFinding

def compareFindings (a b : PlanningFinding) : Ordering :=
  (compare a.code.asStr b.code.asStr).then <| (compare a.subject b.subject).then <|
    (compare a.related b.related).then <| (compare a.field b.field).then <|
    (compare a.occurrence b.occurrence).then (compare a.count b.count)

def detailed (code : DiagnosticCode) (subject : Option DeploymentResourceId)
    (related : List DeploymentResourceId) (field : Option String) (occurrence : Option ℕ) :
    PlanningFinding :=
  { code, subject, related, field, occurrence, count := none }

def new (code : DiagnosticCode) (subject : Option DeploymentResourceId) (field : Option String) :
    PlanningFinding :=
  detailed code subject [] field none

def withCount (finding : PlanningFinding) (count : ℕ) : PlanningFinding :=
  { finding with count := some count }

end PlanningFinding

/-- Sorted, with consecutive repetitions removed. -/
def sortFindings (findings : List PlanningFinding) : List PlanningFinding :=
  (findings.insertionSort fun a b => (PlanningFinding.compareFindings a b).isLE).destutter (· ≠ ·)

theorem sortFindings_eq_nil {findings : List PlanningFinding} :
    sortFindings findings = [] ↔ findings = [] := by
  constructor
  · intro h
    rw [sortFindings, List.destutter_eq_nil] at h
    exact List.nil_perm.mp (h ▸ List.perm_insertionSort _ findings)
  · rintro rfl
    rfl

abbrev ResourceIndex := ExtTreeMap DeploymentResourceId DeploymentResource

/-- Declarations grouped by identity, each group in declaration order. -/
def declareResources (resources : List DeploymentResource) :
    ExtTreeMap DeploymentResourceId (List DeploymentResource) :=
  resources.foldl (fun declarations resource =>
    declarations.alter resource.identity fun group => some (group.getD [] ++ [resource])) ∅

def indexDeclarations (state : ResourceIndex × List PlanningFinding)
    (entry : DeploymentResourceId × List DeploymentResource) :
    ResourceIndex × List PlanningFinding :=
  let (indexed, findings) := state
  let (identity, declarations) := entry
  match declarations with
  | [] => (indexed, findings)
  | [first] => (indexed.insert identity first, findings)
  | first :: rest =>
    if rest.all (· == first) then
      (indexed.insert identity first, findings ++
        [(PlanningFinding.detailed .deploymentDuplicateResource (some identity) []
          (some "resources") none).withCount declarations.length])
    else
      (indexed, findings ++
        [(PlanningFinding.detailed .deploymentConflictingResource (some identity) []
          (some "resources") none).withCount declarations.length])

def indexResources (resources : List DeploymentResource) : ResourceIndex × List PlanningFinding :=
  (declareResources resources).toList.foldl indexDeclarations (∅, [])

/-- The declarations sharing one identity, in declaration order. -/
def declarationsOf (resources : List DeploymentResource) (identity : DeploymentResourceId) :
    List DeploymentResource :=
  resources.filter (·.identity == identity)

theorem declarationsOf_cons (resource : DeploymentResource) (rest : List DeploymentResource)
    (identity : DeploymentResourceId) :
    declarationsOf (resource :: rest) identity =
      if resource.identity = identity then resource :: declarationsOf rest identity
      else declarationsOf rest identity := by
  simp only [declarationsOf, List.filter_cons, beq_iff_eq]

theorem getElem?_foldl_declare (resources : List DeploymentResource)
    (declarations : ExtTreeMap DeploymentResourceId (List DeploymentResource))
    (identity : DeploymentResourceId) :
    ((resources.foldl (fun declarations resource =>
      declarations.alter resource.identity fun group => some (group.getD [] ++ [resource]))
      declarations)[identity]?).getD [] =
      (declarations[identity]?).getD [] ++ declarationsOf resources identity := by
  induction resources generalizing declarations with
  | nil => simp [declarationsOf]
  | cons resource rest ih =>
      rw [List.foldl_cons, ih, ExtTreeMap.getElem?_alter, declarationsOf_cons]
      by_cases h : resource.identity = identity
      · simp [h]
      · simp [h]

theorem getElem?_declareResources (resources : List DeploymentResource)
    (identity : DeploymentResourceId) :
    ((declareResources resources)[identity]?).getD [] = declarationsOf resources identity := by
  rw [declareResources, getElem?_foldl_declare]
  simp

/-- What one group of declarations contributes to the index. -/
def resolveDeclarations : List DeploymentResource → Option DeploymentResource
  | [] => none
  | first :: rest => if rest.all (· == first) then some first else none

theorem indexDeclarations_fst (state : ResourceIndex × List PlanningFinding)
    (entry : DeploymentResourceId × List DeploymentResource) :
    (indexDeclarations state entry).1 =
      insertEntry state.1 ((resolveDeclarations entry.2).map (entry.1, ·)) := by
  obtain ⟨indexed, findings⟩ := state
  obtain ⟨identity, declarations⟩ := entry
  match declarations with
  | [] => rfl
  | [first] => rfl
  | first :: second :: rest =>
      simp only [indexDeclarations, resolveDeclarations]
      split <;> rfl

theorem foldl_indexDeclarations_fst
    (entries : List (DeploymentResourceId × List DeploymentResource))
    (state : ResourceIndex × List PlanningFinding) :
    (entries.foldl indexDeclarations state).1 =
      insertAll (fun entry => (resolveDeclarations entry.2).map (entry.1, ·)) entries state.1 := by
  induction entries generalizing state with
  | nil => rfl
  | cons entry rest ih =>
      rw [List.foldl_cons, ih, indexDeclarations_fst]
      rfl

theorem indexDeclarations_snd_eq_nil {state : ResourceIndex × List PlanningFinding}
    {entry : DeploymentResourceId × List DeploymentResource} :
    (indexDeclarations state entry).2 = [] ↔ state.2 = [] ∧ entry.2.length ≤ 1 := by
  obtain ⟨indexed, findings⟩ := state
  obtain ⟨identity, declarations⟩ := entry
  match declarations with
  | [] => simp [indexDeclarations]
  | [first] => simp [indexDeclarations]
  | first :: second :: rest =>
      simp only [indexDeclarations]
      split <;> simp

theorem foldl_indexDeclarations_snd_eq_nil
    {entries : List (DeploymentResourceId × List DeploymentResource)}
    {state : ResourceIndex × List PlanningFinding} :
    (entries.foldl indexDeclarations state).2 = [] ↔
      state.2 = [] ∧ ∀ entry ∈ entries, entry.2.length ≤ 1 := by
  induction entries generalizing state with
  | nil => simp
  | cons entry rest ih =>
      rw [List.foldl_cons, ih, indexDeclarations_snd_eq_nil, List.forall_mem_cons, and_assoc]

/-- The index holds the declaration of an identity when all its declarations agree. -/
theorem getElem?_indexResources (resources : List DeploymentResource)
    (identity : DeploymentResourceId) :
    (indexResources resources).1[identity]? =
      resolveDeclarations (declarationsOf resources identity) := by
  rw [indexResources, foldl_indexDeclarations_fst, ← getElem?_declareResources]
  apply Option.ext
  intro resource
  rw [getElem?_insertAll_empty]
  · simp only [Prod.exists, ExtTreeMap.mem_toList_iff_getElem?_eq_some, Option.map_eq_some_iff,
      Prod.mk.injEq]
    constructor
    · rintro ⟨key, group, hgroup, found, hfound, rfl, rfl⟩
      simpa [hgroup] using hfound
    · intro h
      cases hgroup : (declareResources resources)[identity]? with
      | none => simp [hgroup, resolveDeclarations] at h
      | some group => exact ⟨identity, group, hgroup, resource, by simpa [hgroup] using h, rfl, rfl⟩
  · rintro ⟨k, a⟩ ha ⟨l, b⟩ hb x y hx hy
    simp only [Option.map_eq_some_iff, Prod.mk.injEq] at hx hy
    obtain ⟨x', hx', rfl, rfl⟩ := hx
    obtain ⟨y', hy', rfl, rfl⟩ := hy
    rw [ExtTreeMap.mem_toList_iff_getElem?_eq_some] at ha hb
    have hgroups : a = b := Option.some_injective _ (ha.symm.trans hb)
    rw [hgroups, hy'] at hx'
    exact (Option.some_injective _ hx').symm

theorem indexResources_findings_eq_nil {resources : List DeploymentResource} :
    (indexResources resources).2 = [] ↔ (resources.map (·.identity)).Nodup := by
  rw [indexResources, foldl_indexDeclarations_snd_eq_nil]
  have hgroups : (∀ entry ∈ (declareResources resources).toList, entry.2.length ≤ 1) ↔
      ∀ identity, (declarationsOf resources identity).length ≤ 1 := by
    constructor
    · intro h identity
      rw [← getElem?_declareResources]
      cases hgroup : (declareResources resources)[identity]? with
      | none => simp
      | some group =>
          exact h (identity, group) (ExtTreeMap.mem_toList_iff_getElem?_eq_some.mpr hgroup)
    · rintro h ⟨identity, group⟩ hmem
      have hbound := h identity
      rwa [← getElem?_declareResources, ExtTreeMap.mem_toList_iff_getElem?_eq_some.mp hmem] at hbound
  simp only [hgroups, true_and, List.nodup_iff_count_le_one]
  refine forall_congr' fun identity => ?_
  rw [List.count_eq_countP, List.countP_map, declarationsOf, ← List.countP_eq_length_filter]
  rfl

/-- Without indexing findings, the index is exactly the declared resources by identity. -/
theorem getElem?_index_of_findings_nil {resources : List DeploymentResource}
    (h : (indexResources resources).2 = []) {identity : DeploymentResourceId}
    {resource : DeploymentResource} :
    (indexResources resources).1[identity]? = some resource ↔
      resource ∈ resources ∧ resource.identity = identity := by
  have hnodup := indexResources_findings_eq_nil.mp h
  have hmem : resource ∈ declarationsOf resources identity ↔
      resource ∈ resources ∧ resource.identity = identity := by
    simp [declarationsOf]
  have hlength : (declarationsOf resources identity).length ≤ 1 := by
    have hcount := List.nodup_iff_count_le_one.mp hnodup identity
    rw [List.count_eq_countP, List.countP_map] at hcount
    rw [declarationsOf, ← List.countP_eq_length_filter]
    exact hcount
  rw [getElem?_indexResources, ← hmem]
  match hgroup : declarationsOf resources identity with
  | [] => simp [resolveDeclarations]
  | [first] => simp [resolveDeclarations, eq_comm]
  | first :: second :: rest => simp [hgroup] at hlength

/-- An indexed resource is stored under its own identity. -/
theorem identity_of_getElem?_index {resources : List DeploymentResource}
    {identity : DeploymentResourceId} {resource : DeploymentResource}
    (h : (indexResources resources).1[identity]? = some resource) :
    resource.identity = identity ∧ resource ∈ resources := by
  rw [getElem?_indexResources] at h
  have hmem : resource ∈ declarationsOf resources identity := by
    unfold resolveDeclarations at h
    split at h
    · cases h
    · next first rest hgroup =>
        split_ifs at h
        simpa [hgroup] using Or.inl (Option.some_injective _ h).symm
  rw [declarationsOf, List.mem_filter] at hmem
  exact ⟨by simpa using hmem.2, hmem.1⟩

end PodmanLens
