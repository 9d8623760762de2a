import PodmanLens.PlanMembership

/-!
# What a planned container places

Mounts are compared with mounts, explicit secret targets with explicit secret targets, and
environment targets with each other and the declared environment. A mount is never compared with a
secret, and a grant that omits its target with nothing at all: those pairs are apart only where the
intent keeps them apart.
-/

namespace PodmanLens
open Std Text TreeEntries Validated

/-- Where a mounted grant appears when it names no target. -/
def SecretGrant.defaultDestination : SecretGrant → Option String
  | .mount source none .. => some ("/run/secrets/" ++ source.val.name)
  | _ => none

/-- Where a mounted grant appears. -/
def SecretGrant.destination (grant : SecretGrant) : Option String :=
  (grant.mountTarget.map Checked.asStr).or grant.defaultDestination

namespace ContainerIntent

def mountDestinations (container : ContainerIntent) : List String :=
  container.mounts.map fun mount => mount.destination.asStr

def explicitTargets (container : ContainerIntent) : List String :=
  container.secretGrants.filterMap fun grant => grant.mountTarget.map Checked.asStr

def defaultTargets (container : ContainerIntent) : List String :=
  container.secretGrants.filterMap SecretGrant.defaultDestination

/-- Mount destinations, then the effective destinations of mounted grants. -/
def placed (container : ContainerIntent) : List String :=
  container.mountDestinations ++ container.secretGrants.filterMap SecretGrant.destination

end ContainerIntent

/-- Nothing is placed twice. -/
structure PlacesOnce (container : ContainerIntent) : Prop where
  destinations : container.placed.Nodup
  environmentTargets : (container.secretGrants.filterMap SecretGrant.environmentTarget).Nodup
  environmentNames : ∀ target ∈ container.secretGrants.filterMap SecretGrant.environmentTarget,
    ∀ assignment ∈ container.settings.environment.values, assignment.name ≠ target

/-- The pairs that validation never compares are apart. -/
structure UncheckedApart (container : ContainerIntent) : Prop where
  mounts : ∀ destination ∈ container.mountDestinations,
    destination ∉ container.explicitTargets ∧ destination ∉ container.defaultTargets
  defaults : container.defaultTargets.Nodup
  explicit : ∀ target ∈ container.explicitTargets, target ∉ container.defaultTargets

instance (container : ContainerIntent) : Decidable (UncheckedApart container) :=
  decidable_of_iff ((∀ destination ∈ container.mountDestinations,
      destination ∉ container.explicitTargets ∧ destination ∉ container.defaultTargets) ∧
      container.defaultTargets.Nodup ∧
      ∀ target ∈ container.explicitTargets, target ∉ container.defaultTargets)
    ⟨fun h => ⟨h.1, h.2.1, h.2.2⟩, fun h => ⟨h.mounts, h.defaults, h.explicit⟩⟩

section Validation

variable {resources : ResourceIndex} {container : ContainerIntent}

theorem nodup_of_forall_take {α : Type} {l : List α}
    (h : ∀ (index : ℕ) (hindex : index < l.length), l[index] ∉ l.take index) : l.Nodup := by
  rw [List.nodup_iff_getElem?_ne_getElem?]
  intro i j hij hj heq
  refine h j hj ?_
  rw [List.getElem?_eq_getElem (hij.trans hj), List.getElem?_eq_getElem hj,
    Option.some.injEq] at heq
  rw [← heq]
  exact List.mem_take_iff_getElem.mpr ⟨i, by omega, rfl⟩

/-- Clean mounts have distinct destinations. -/
theorem mountDestinations_nodup {owner : DeploymentResourceId} {field : String}
    (h : validateMounts resources container.mounts owner field = []) :
    container.mountDestinations.Nodup := by
  apply nodup_of_forall_take
  intro index hindex hmem
  rw [ContainerIntent.mountDestinations, List.length_map] at hindex
  rw [validateMounts, List.flatMap_eq_nil_iff] at h
  have hentry := h (container.mounts[index], index) (by simp [List.mem_zipIdx_iff_getElem?])
  simp only [List.append_eq_nil_iff, ite_eq_right_iff, List.cons_ne_nil, imp_false] at hentry
  apply hentry.1
  simp only [ContainerIntent.mountDestinations, ← List.map_take, List.getElem_map,
    List.mem_map] at hmem
  obtain ⟨previous, hprevious, heq⟩ := hmem
  exact List.any_eq_true.mpr ⟨previous, hprevious, beq_iff_eq.mpr (Checked.asStr_injective heq)⟩

/-- The grants to come name targets that are new to the scan and to each other. -/
structure Apart (container : ContainerIntent) (seen : SeenTargets) (grants : List SecretGrant) :
    Prop where
  explicit : (grants.filterMap fun grant => grant.mountTarget.map Checked.asStr).Nodup
  explicitFresh : ∀ target ∈ grants.filterMap fun grant => grant.mountTarget.map Checked.asStr,
    target ∉ seen.mountDestinations
  environment : (grants.filterMap SecretGrant.environmentTarget).Nodup
  environmentFresh : ∀ target ∈ grants.filterMap SecretGrant.environmentTarget,
    target.asStr ∉ seen.environmentTargets ∧
      ∀ assignment ∈ container.settings.environment.values, assignment.name ≠ target

theorem Apart.step {seen : SeenTargets} {entry : SecretGrant × ℕ} {grants : List SecretGrant}
    (hstep : (validateSecretGrant resources container seen entry).findings = [])
    (h : Apart container (validateSecretGrant resources container seen entry) grants) :
    Apart container seen (entry.1 :: grants) := by
  obtain ⟨hexplicit, hfresh, henvironment, hfresh'⟩ := h
  obtain ⟨grant, index⟩ := entry
  simp only [validateSecretGrant, List.append_eq_nil_iff, ite_eq_right_iff, List.cons_ne_nil,
    imp_false] at hstep
  simp only [validateSecretGrant] at hfresh hfresh'
  cases grant with
  | mount source target uid gid mode =>
      cases target with
      | none => exact ⟨hexplicit, hfresh, henvironment, hfresh'⟩
      | some target =>
          simp only [SecretGrant.mountTarget, ExtTreeSet.mem_insert, not_or] at hfresh
          have hnew : target.asStr ∉ seen.mountDestinations := fun hmem =>
            hstep.1.2 (ExtTreeSet.mem_iff_contains.mp hmem)
          refine ⟨List.nodup_cons.mpr ⟨fun hmem => ?_, hexplicit⟩, List.forall_mem_cons.mpr
            ⟨hnew, fun other hother => (hfresh other hother).2⟩, henvironment, hfresh'⟩
          exact (hfresh target.asStr hmem).1 Std.compare_self
  | environment source target =>
      simp only [SecretGrant.environmentTarget, ExtTreeSet.mem_insert, not_or] at hfresh'
      have hrepeated := hstep.2
      simp only [SecretGrant.environmentTarget, Bool.or_eq_true, not_or, List.any_eq_true,
        beq_iff_eq, not_exists, not_and] at hrepeated
      have hnew : target.asStr ∉ seen.environmentTargets := fun hmem =>
        hrepeated.1 (ExtTreeSet.mem_iff_contains.mp hmem)
      refine ⟨hexplicit, hfresh, List.nodup_cons.mpr ⟨fun hmem => ?_, henvironment⟩,
        List.forall_mem_cons.mpr ⟨⟨hnew, hrepeated.2⟩, fun other hother =>
          ⟨(hfresh' other hother).1.2, (hfresh' other hother).2⟩⟩⟩
      exact (hfresh' target hmem).1.1 Std.compare_self

theorem apart_of_foldl {entries : List (SecretGrant × ℕ)} {seen : SeenTargets}
    (h : (entries.foldl (validateSecretGrant resources container) seen).findings = []) :
    Apart container seen (entries.map Prod.fst) := by
  induction entries generalizing seen with
  | nil => exact ⟨List.nodup_nil, by simp, List.nodup_nil, by simp⟩
  | cons entry rest ih =>
      rw [List.foldl_cons] at h
      exact Apart.step (foldl_validateSecretGrant_eq_nil h).1 (ih h)

theorem apart_of_validateSecretGrants
    (h : validateSecretGrants resources container.secretGrants container = []) :
    Apart container ⟨∅, ∅, []⟩ container.secretGrants := by
  have hapart := apart_of_foldl h
  rwa [List.zipIdx_map_fst] at hapart

end Validation

section Placement

variable {container : ContainerIntent}

/-- Up to order, grants appear at the explicit targets and at the default destinations. -/
theorem destinations_perm (grants : List SecretGrant) :
    (grants.filterMap SecretGrant.destination).Perm
      ((grants.filterMap fun grant => grant.mountTarget.map Checked.asStr) ++
        grants.filterMap SecretGrant.defaultDestination) := by
  induction grants with
  | nil => exact .nil
  | cons grant rest ih =>
      cases grant with
      | mount source target uid gid mode =>
          cases target with
          | none => exact (ih.cons _).trans List.perm_middle.symm
          | some target => exact ih.cons _
      | environment source target => exact ih

theorem placed_nodup_iff : container.placed.Nodup ↔
    container.mountDestinations.Nodup ∧ container.explicitTargets.Nodup ∧
      UncheckedApart container := by
  have hperm := (destinations_perm container.secretGrants).append_left container.mountDestinations
  rw [ContainerIntent.placed, hperm.nodup_iff]
  change (container.mountDestinations ++
    (container.explicitTargets ++ container.defaultTargets)).Nodup ↔ _
  simp only [List.nodup_append, List.mem_append, or_imp, forall_and]
  constructor
  · rintro ⟨hmounts, ⟨hexplicit, hdefault, hapart⟩, hleft, hright⟩
    refine ⟨hmounts, hexplicit, fun destination hmem => ⟨fun h => ?_, fun h => ?_⟩, hdefault,
      fun target hmem h => hapart target hmem target h rfl⟩
    · exact hleft destination hmem destination h rfl
    · exact hright destination hmem destination h rfl
  · rintro ⟨hmounts, hexplicit, h⟩
    refine ⟨hmounts, ⟨hexplicit, h.defaults, fun target hmem other hother heq => ?_⟩,
      fun target hmem other hother heq => ?_, fun target hmem other hother heq => ?_⟩
    · exact h.explicit target hmem (heq ▸ hother)
    · exact (h.mounts target hmem).1 (heq ▸ hother)
    · exact (h.mounts target hmem).2 (heq ▸ hother)

/-- A planned container places nothing twice exactly where the unchecked pairs are apart. -/
theorem planned_placesOnce_iff {intent : DeploymentIntent} {plan : DeploymentPlan}
    (h : (planDeployment intent).plan = some plan)
    (hcontainer : plan.Holds (.container container)) :
    PlacesOnce container ↔ UncheckedApart container := by
  have hvalid : validateContainer intent.index container plan.target = [] :=
    (plannedBy_of_plan h).validated_of_holds hcontainer
  simp only [validateContainer, List.append_eq_nil_iff] at hvalid
  obtain ⟨⟨⟨⟨⟨⟨⟨-, hmounts⟩, hgrants⟩, -⟩, -⟩, -⟩, -⟩, -⟩ := hvalid
  have hapart := apart_of_validateSecretGrants hgrants
  constructor
  · exact fun hplaces => (placed_nodup_iff.mp hplaces.destinations).2.2
  · intro hunchecked
    exact ⟨placed_nodup_iff.mpr ⟨mountDestinations_nodup hmounts, hapart.explicit, hunchecked⟩,
      hapart.environment, fun target hmem => (hapart.environmentFresh target hmem).2⟩

end Placement

section Sample

/-- Grants one secret twice without a target. -/
def collidingContainer : ContainerIntent where
  identity := sampleWorker
  image := sampleImage
  secretGrants := [.mount sampleSecret none none none none, .mount sampleSecret none none none none]

def collidingIntent : DeploymentIntent where
  target := sampleTarget
  resources :=
    [.container collidingContainer, .externalPrecondition ⟨sampleSecret.val, by decide⟩,
    .externalPrecondition ⟨sampleImage.val, by decide⟩]

def collidingPlan : DeploymentPlan := (planDeployment collidingIntent).plan.get (by decide)

/-- Both grants of the planned container appear at the default destination of the secret. -/
theorem defaultDestinations_collide : (planDeployment collidingIntent).plan = some collidingPlan ∧
    collidingPlan.Holds (.container collidingContainer) ∧ ¬PlacesOnce collidingContainer := by
  have hoperation : ∃ operation ∈ collidingPlan.operations,
      operation.resourceIntent = .container collidingContainer := by decide
  have hrepeated : ¬collidingContainer.placed.Nodup := by decide
  exact ⟨(Option.some_get _).symm, hoperation, fun h => hrepeated h.destinations⟩

/-- The member of the sample pod mounts a volume and a secret. -/
theorem planned_placesOnce_iff_sample : ∃ container, samplePlan.Holds (.container container) ∧
    container.placed = ["/data", "/run/secrets/token"] ∧ PlacesOnce container := by
  have hmember : samplePlan.operations.any (fun operation =>
      (containerOf operation.resourceIntent).any fun container =>
        decide (container.placed = ["/data", "/run/secrets/token"] ∧ UncheckedApart container)) =
      true := by decide
  obtain ⟨operation, hoperation, hany⟩ := List.any_eq_true.mp hmember
  cases hresource : operation.resourceIntent with
  | container container =>
      simp only [hresource, containerOf, Option.any_some, decide_eq_true_eq] at hany
      have hholds : samplePlan.Holds (.container container) := ⟨operation, hoperation, hresource⟩
      exact ⟨container, hholds, hany.1,
        (planned_placesOnce_iff samplePlan_planned hholds).mpr hany.2⟩
  | _ => simp [hresource, containerOf] at hany

end Sample

end PodmanLens
