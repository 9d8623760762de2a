import PodmanLens.PlanContents

/-!
# Pod membership in plans

A pod checks that each listed member is a declared container that names it, a container that the
pod it names is declared and lists it. Together the two passes make membership one relation between
the containers and the pods of a plan, and leave a member nothing that its pod already owns.
-/

namespace PodmanLens
open Std Text TreeEntries

/-- Some operation of the plan is about the resource. -/
def DeploymentPlan.Holds (plan : DeploymentPlan) (resource : DeploymentResource) : Prop :=
  ∃ operation ∈ plan.operations, operation.resourceIntent = resource

/-- Nothing is declared that the pod of a member owns. -/
structure BareMember (container : ContainerIntent) : Prop where
  networks : container.networks.values = []
  ports : container.ports.values = []
  dns : container.dns.servers.values = [] ∧ container.dns.search.values = [] ∧
    container.dns.options.values = []
  hostAliases : container.hostAliases.values = []
  hostname : container.settings.hostname = none
  namespaces : container.runtime.namespaces = {}
  networkOrder : container.networkOrder = none

/-- Membership agrees from both sides, and members are managed, listed once and bare. -/
structure PodMembership (plan : DeploymentPlan) : Prop where
  agrees : ∀ container, plan.Holds (.container container) → ∀ identity : OfKind .pod,
    container.pod = some identity ↔
      ∃ pod, plan.Holds (.pod pod) ∧ pod.identity = identity ∧ container.identity ∈ pod.members
  managed : ∀ pod, plan.Holds (.pod pod) → ∀ member ∈ pod.members,
    ∃ container, plan.Holds (.container container) ∧ container.identity = member ∧
      ⟨.create, member.val⟩ ∈ plan.ids
  listedOnce : ∀ pod, plan.Holds (.pod pod) → pod.members.Nodup
  exclusive : ∀ pod other, plan.Holds (.pod pod) → plan.Holds (.pod other) →
    ∀ member ∈ pod.members, member ∈ other.members → pod = other
  bare : ∀ container, plan.Holds (.container container) → container.pod.isSome = true →
    BareMember container

section Validation

variable {resources : ResourceIndex}

/-- A scan that reports nothing has seen every value once. -/
theorem nodup_of_validateDistinct {values : List DeploymentResourceId}
    {subject : DeploymentResourceId} {field : String}
    (h : validateDistinct values subject field = []) : values.Nodup := by
  have hscan : ∀ (entries : List (DeploymentResourceId × ℕ)) (seen : SeenIds),
      (entries.foldl (fun seen entry =>
        { distinct := seen.distinct.insert entry.1
          findings := seen.findings ++
            if seen.distinct.contains entry.1 then [duplicateAt subject [entry.1] field entry.2]
            else [] }) seen).findings = [] →
      seen.findings = [] ∧ (entries.map Prod.fst).Nodup ∧
        ∀ value ∈ entries.map Prod.fst, value ∉ seen.distinct := by
    intro entries
    induction entries with
    | nil => exact fun seen h => ⟨h, List.nodup_nil, by simp⟩
    | cons entry rest ih =>
        intro seen h
        obtain ⟨hstep, hnodup, hfresh⟩ := ih _ h
        rw [List.append_eq_nil_iff] at hstep
        simp only [ExtTreeSet.mem_insert, not_or] at hfresh
        have hentry : entry.1 ∉ seen.distinct := by
          intro hmem
          simp [ExtTreeSet.mem_iff_contains.mp hmem] at hstep
        rw [List.map_cons, List.nodup_cons, List.forall_mem_cons]
        exact ⟨hstep.1, ⟨fun hmem => (hfresh _ hmem).1 Std.compare_self, hnodup⟩, hentry,
          fun value hvalue => (hfresh value hvalue).2⟩
  have hnodup := (hscan values.zipIdx ⟨∅, []⟩ h).2.1
  rwa [List.zipIdx_map_fst] at hnodup

theorem listedOnce_of_validatePod {pod : PodIntent} {context : TargetExecutionContext}
    (h : validatePod resources pod context = []) : pod.members.Nodup := by
  simp only [validatePod, List.append_eq_nil_iff] at h
  obtain ⟨⟨⟨-, hdistinct⟩, -⟩, -⟩ := h
  exact (List.nodup_map_iff Subtype.val_injective).mp (nodup_of_validateDistinct hdistinct)

theorem bare_of_validatePodMember {container : ContainerIntent} {pod : DeploymentResourceId}
    (h : validatePodMember resources container pod = []) : BareMember container := by
  simp only [validatePodMember, List.append_eq_nil_iff, refuseWhen_eq_nil] at h
  obtain ⟨⟨⟨⟨⟨⟨⟨⟨hnamespaces, hhostname⟩, hnetworks⟩, hports⟩, hdns⟩, haliases⟩, horder⟩, -⟩, -⟩ := h
  simp only [DnsConfiguration.isEmpty, Bool.not_eq_false', Bool.and_eq_true,
    List.isEmpty_iff] at hdns
  exact {
    networks := by simpa using hnetworks
    ports := by simpa using hports
    dns := ⟨hdns.1.1, hdns.1.2, hdns.2⟩
    hostAliases := by simpa using haliases
    hostname := by simpa using hhostname
    namespaces := by simpa [ContainerNamespaceSettings.isEmpty] using hnamespaces
    networkOrder := by simpa using horder }

theorem bare_of_validateContainer {container : ContainerIntent} {target : TargetProfile}
    (h : validateContainer resources container target = []) (hpod : container.pod.isSome = true) :
    BareMember container := by
  simp only [validateContainer, List.append_eq_nil_iff] at h
  obtain ⟨⟨⟨⟨-, hmember⟩, -⟩, -⟩, -⟩ := h
  obtain ⟨pod, hpod⟩ := Option.isSome_iff_exists.mp hpod
  rw [hpod] at hmember
  exact bare_of_validatePodMember hmember

end Validation

section Planned

variable {intent : DeploymentIntent} {plan : DeploymentPlan}

theorem PlannedBy.declared_of_holds (h : PlannedBy intent plan) {resource : DeploymentResource}
    (hholds : plan.Holds resource) : resource ∈ intent.resources := by
  obtain ⟨operation, hoperation, rfl⟩ := hholds
  exact (h.declared hoperation).1

theorem PlannedBy.validated_of_holds (h : PlannedBy intent plan) {resource : DeploymentResource}
    (hholds : plan.Holds resource) : validateResource intent.index plan.target resource = [] := by
  obtain ⟨operation, hoperation, rfl⟩ := hholds
  exact h.validated hoperation

/-- A declared resource whose creation is required is held by the plan. -/
theorem PlannedBy.holds_of_create (h : PlannedBy intent plan) {resource : DeploymentResource}
    (hdeclared : resource ∈ intent.resources)
    (hrequired : RequiredOperation intent ⟨.create, resource.identity⟩) : plan.Holds resource := by
  obtain ⟨create, hcreate, hid⟩ := h.exists_operation hrequired
  obtain ⟨hother, hidentity⟩ := h.declared hcreate
  have hget := h.clean.getElem?_declared hother
  rw [hidentity, hid] at hget
  exact ⟨create, hcreate, Option.some.inj (hget.symm.trans (h.clean.getElem?_declared hdeclared))⟩

theorem PlannedBy.holds_container (h : PlannedBy intent plan) {container : ContainerIntent} :
    plan.Holds (.container container) ↔ .container container ∈ intent.resources :=
  ⟨h.declared_of_holds, fun hmem => h.holds_of_create hmem (.createContainer container hmem)⟩

theorem PlannedBy.holds_pod (h : PlannedBy intent plan) {pod : PodIntent} :
    plan.Holds (.pod pod) ↔ .pod pod ∈ intent.resources :=
  ⟨h.declared_of_holds, fun hmem => h.holds_of_create hmem (.createPod pod hmem)⟩

/-- Declarations are equal when their identities are. -/
theorem CleanIntent.eq_of_identity (h : CleanIntent intent) {a b : DeploymentResource}
    (ha : a ∈ intent.resources) (hb : b ∈ intent.resources) (heq : a.identity = b.identity) :
    a = b := by
  have hget := h.getElem?_declared ha
  rw [heq, h.getElem?_declared hb] at hget
  exact (Option.some.inj hget).symm

/-- A member of a held pod is a held container that names the pod. -/
theorem PlannedBy.container_of_member (h : PlannedBy intent plan) {pod : PodIntent}
    (hpod : plan.Holds (.pod pod)) {member : OfKind .container} (hmember : member ∈ pod.members) :
    ∃ container, plan.Holds (.container container) ∧ container.identity = member ∧
      container.pod = some pod.identity := by
  have hresolved := podResolved_of_clean h.clean.resources
    (h.clean.getElem?_declared (h.holds_pod.mp hpod))
  obtain ⟨container, hget, hnames⟩ := hresolved.members member hmember
  obtain ⟨hmem, hidentity⟩ := h.clean.getElem?_index.mp hget
  exact ⟨container, h.holds_container.mpr hmem, Subtype.ext hidentity, hnames⟩

/-- A container that names a pod is listed by the pod of that identity. -/
theorem PlannedBy.pod_of_container (h : PlannedBy intent plan) {container : ContainerIntent}
    (hcontainer : plan.Holds (.container container)) {identity : OfKind .pod}
    (hpod : container.pod = some identity) :
    ∃ pod, plan.Holds (.pod pod) ∧ pod.identity = identity ∧
      container.identity ∈ pod.members := by
  have hresolved := containerResolved_of_clean intent.keyed_index h.clean.resources
    (h.clean.getElem?_declared (h.holds_container.mp hcontainer))
  obtain ⟨pod, hget, hlists⟩ := hresolved.pod identity hpod
  obtain ⟨hmem, hidentity⟩ := h.clean.getElem?_index.mp hget
  exact ⟨pod, h.holds_pod.mpr hmem, Subtype.ext hidentity, hlists⟩

/-- In every plan, pods and containers agree on membership, and members are bare. -/
theorem plan_membership_consistent (h : (planDeployment intent).plan = some plan) :
    PodMembership plan := by
  have hplanned := plannedBy_of_plan h
  have hnamed : ∀ container, plan.Holds (.container container) → ∀ pod, plan.Holds (.pod pod) →
      container.identity ∈ pod.members → container.pod = some pod.identity := by
    intro container hcontainer pod hpod hmember
    obtain ⟨other, hother, hidentity, hnames⟩ := hplanned.container_of_member hpod hmember
    have heq := hplanned.clean.eq_of_identity (hplanned.holds_container.mp hother)
      (hplanned.holds_container.mp hcontainer) (congrArg Subtype.val hidentity)
    cases heq
    exact hnames
  refine ⟨fun container hcontainer identity => ⟨hplanned.pod_of_container hcontainer, ?_⟩,
    fun pod hpod member hmember => ?_, fun pod hpod => ?_, ?_, fun container hcontainer hpod => ?_⟩
  · rintro ⟨pod, hpod, rfl, hmember⟩
    exact hnamed container hcontainer pod hpod hmember
  · obtain ⟨container, hcontainer, rfl, -⟩ := hplanned.container_of_member hpod hmember
    exact ⟨container, hcontainer, rfl, hplanned.mem_ids.mpr
      (.createContainer container (hplanned.holds_container.mp hcontainer))⟩
  · exact listedOnce_of_validatePod (hplanned.validated_of_holds hpod)
  · intro pod other hpod hother member hmember hmember'
    obtain ⟨container, hcontainer, rfl, hnames⟩ := hplanned.container_of_member hpod hmember
    have hidentity := hnames.symm.trans (hnamed container hcontainer other hother hmember')
    have heq := hplanned.clean.eq_of_identity (hplanned.holds_pod.mp hpod)
      (hplanned.holds_pod.mp hother) (congrArg Subtype.val (Option.some.inj hidentity))
    cases heq
    rfl
  · exact bare_of_validateContainer (hplanned.validated_of_holds hcontainer) hpod

theorem plan_membership_consistent_sample : PodMembership samplePlan :=
  plan_membership_consistent samplePlan_planned

end Planned

end PodmanLens
