import Mathlib.Data.List.Nodup
import PodmanLens.AcquiredInventory
import PodmanLens.Emission
import PodmanLens.FieldBudget

/-!
# Requests of an acquisition

Whatever the transport answers, an acquisition asks for the ping, the version, the list of every
kind that the service has, and then for each record that it returns. This order is that of the
requests, and none of them is sent twice. Secrets are not listed before Podman 3.1, and a list whose
path is too long is not asked for.
-/

namespace PodmanLens
open Std Json Emission

section Requests

/-- What is sent for some of these values; a path that is refused is not sent. -/
def requests {α : Type} (path : α → PodmanLensResult LibpodPath) (values : List α) :
    List LibpodPath :=
  values.filterMap fun value => (path value).toOption

def versionRequest (apiVersion : ObservedVersion) : LibpodPath :=
  ⟨"/v" ++ probedVersion apiVersion ++ "/libpod/version"⟩

def probeRequests (apiVersion : ObservedVersion) : List LibpodPath :=
  [⟨"/libpod/_ping"⟩, versionRequest apiVersion]

variable (services : AcquisitionServices) (service : ServiceObservation)

/-- The kinds that the engine knows. -/
def listedKinds : List ResourceKind :=
  allKinds.filter fun kind => !resourceKindIsVersionInapplicable services kind service

def listRequests : List LibpodPath :=
  (((listedKinds services service).map
    (listText (services.pathVersion service.apiVersion))).filter fitsPath).map LibpodPath.mk

def InspectedSection.inspectRequests (found : InspectedSection) : List LibpodPath :=
  requests (inspectPath services service) (found.observations.map fun observation =>
    observation.header.identity)

/-- The requests for which a path is built, in the order of an acquisition with this result. -/
def builtRequests (inventory : NativeInventory) : List LibpodPath :=
  probeRequests inventory.service.apiVersion ++
    requests (sectionListPath services inventory.service) (listedKinds services inventory.service) ++
    inventory.sections.flatMap (InspectedSection.inspectRequests services inventory.service)

/-- All requests of an acquisition with this result. -/
def acquisitionRequests (inventory : NativeInventory) : List LibpodPath :=
  probeRequests inventory.service.apiVersion ++ listRequests services inventory.service ++
    inventory.sections.flatMap (InspectedSection.inspectRequests services inventory.service)

theorem requests_append {α : Type} (path : α → PodmanLensResult LibpodPath)
    (front back : List α) : requests path (front ++ back) =
      requests path front ++ requests path back := List.filterMap_append

theorem requests_cons {α : Type} (path : α → PodmanLensResult LibpodPath) (value : α)
    (values : List α) : requests path (value :: values) =
      requests path [value] ++ requests path values := requests_append path [value] values

theorem requests_filter {α : Type} (path : α → PodmanLensResult LibpodPath) (p : α → Bool)
    (values : List α) : requests path (values.filter p) =
      values.flatMap fun value => requests path ([value].filter p) := by
  induction values with
  | nil => rfl
  | cons value rest ih =>
      rw [List.flatMap_cons, ← ih, ← requests_append, ← List.filter_append,
        List.singleton_append]

theorem requests_of_ok {α : Type} {path : α → PodmanLensResult LibpodPath} {value : α}
    {found : LibpodPath} (h : path value = .ok found) : requests path [value] = [found] := by
  rw [requests, List.filterMap_cons, h]
  rfl

theorem requests_of_error {α : Type} {path : α → PodmanLensResult LibpodPath} {value : α}
    {code : DiagnosticCode} (h : path value = .error code) : requests path [value] = [] := by
  rw [requests, List.filterMap_cons, h]
  rfl

end Requests

section Emitted
variable {σ : Type} {services : AcquisitionServices}
  {send : LibpodPath → StateM σ (PodmanLensResult LibpodResponse)} {options : AcquisitionOptions}
  {service : ServiceObservation}

theorem emits_sendGet {α : Type} (path : α → PodmanLensResult LibpodPath) (value : α) :
    Emits (sendGet (recorded send) (path value)) fun _ events => events = requests path [value] := by
  cases hpath : path value with
  | error code =>
      rw [requests_of_error hpath]
      exact emits_pure rfl
  | ok found =>
      rw [requests_of_ok hpath]
      exact emits_recorded send found

/-- What is known of a service that was probed. -/
structure Probed (services : AcquisitionServices) (service : ServiceObservation) : Prop where
  parsed : service.apiVersion.ParsedBy services.library
  asked : versionProbePath services.isRelease service.apiVersion =
    .ok (versionRequest service.apiVersion)

/-- A failed probe has sent the ping alone, or the version request after it. -/
def ProbeEmits (services : AcquisitionServices) (result : PodmanLensResult ServiceObservation)
    (events : List LibpodPath) : Prop :=
  (∀ service, result = .ok service →
    Probed services service ∧ events = probeRequests service.apiVersion) ∧
    ∃ apiVersion, events <+: probeRequests apiVersion

theorem emits_probeLibpodService : Emits (probeLibpodService services (recorded send))
    (ProbeEmits services) := by
  rw [probeLibpodService, pingPath_eq]
  refine (emits_recorded send _).bind fun ping events hping => ?_
  subst hping
  cases hanswer : ping >>= requireOkStatus >>= pingApiVersion services.library reviewedLines with
  | error code =>
      exact emits_pure ⟨fun service h => (by cases h), firstRelease,
        versionRequest firstRelease :: [], rfl⟩
  | ok apiVersion =>
      obtain ⟨response, -, hread⟩ := except_bind_eq_ok hanswer
      have hparsed := parsedBy_of_pingApiVersion hread
      cases hpath : versionProbePath services.isRelease apiVersion with
      | error code =>
          simp only [hpath, sendGet, pure_bind]
          exact emits_pure ⟨fun service h => (by cases h), apiVersion,
            versionRequest apiVersion :: [], rfl⟩
      | ok path =>
          have hasked : path = versionRequest apiVersion :=
            congrArg LibpodPath.mk (asStr_of_parse hpath)
          subst hasked
          simp only [hpath, sendGet]
          refine (emits_recorded send _).bind fun version rest hversion => emits_pure ?_
          subst hversion
          refine ⟨fun service h => ?_, apiVersion, List.prefix_rfl⟩
          obtain ⟨answer, -, hobserved⟩ := except_bind_eq_ok h
          cases (observeService_reviewed hobserved).1
          exact ⟨⟨hparsed, hpath⟩, rfl⟩

theorem emits_listKind (kind : ResourceKind) :
    Emits (listKind services (recorded send) service kind) fun listing events =>
      listing.kind = kind ∧ events = requests (sectionListPath services service)
        ([kind].filter fun kind => !resourceKindIsVersionInapplicable services kind service) := by
  rw [listKind]
  split_ifs with hinapplicable
  · refine emits_pure ⟨rfl, ?_⟩
    rw [List.filter_cons_of_neg (by simp [hinapplicable])]
    rfl
  · refine Emits.bind (q := fun _ events =>
      events = requests (sectionListPath services service) [kind]) ?_ ?_
    · refine (emits_sendGet (sectionListPath services service) kind).bind
        fun response events hevents => emits_pure ?_
      rw [List.append_nil, hevents]
    · rintro listed events rfl
      refine emits_pure ⟨rfl, ?_⟩
      rw [List.append_nil, List.filter_cons_of_pos (by simp [hinapplicable])]
      rfl

theorem emits_listings : Emits (allKinds.mapM (listKind services (recorded send) service))
    fun _ events =>
      events = requests (sectionListPath services service) (listedKinds services service) := by
  refine (emits_mapM fun kind _ => emits_listKind kind).imp fun listings events h => ?_
  rw [h.2, listedKinds, requests_filter]

theorem inspectPath_congr {left right : ResourceIdentity} (hkind : left.kind = right.kind)
    (hid : left.id = right.id) :
    inspectPath services service left = inspectPath services service right := by
  rw [inspectPath, inspectPath, hkind, hid]

theorem emits_inspectObservation {kind : ResourceKind} (identity : ResourceIdentity)
    (ofKind : identity.kind = kind) (limit : ℕ) :
    Emits (inspectObservation services (recorded send) service options identity ofKind limit)
      fun record events =>
        events = requests (inspectPath services service) [record.observation.header.identity] := by
  cases hpath : inspectPath services service identity with
  | error code =>
      simp only [inspectObservation, hpath]
      exact emits_pure (requests_of_error hpath).symm
  | ok path =>
      simp only [inspectObservation, hpath]
      refine (emits_recorded send path).bind fun answer events hevents => emits_pure ?_
      obtain ⟨hkind, hid⟩ : (answeredObservation services service options identity limit
        answer).header.identity.kind = _ ∧ _ := identity_answeredObservation ..
      rw [hevents, List.append_nil, requests_of_ok]
      rw [inspectPath_congr hkind hid, hpath]

theorem emits_inspectIdentities {kind : ResourceKind} (reservation : ℕ)
    (identities : List ResourceIdentity) (ofKind : ∀ identity ∈ identities, identity.kind = kind)
    (remaining : ℕ) :
    Emits (inspectIdentities services (recorded send) service options reservation identities ofKind
        remaining) fun result events =>
      events = requests (inspectPath services service)
        (result.1.map fun record => record.observation.header.identity) := by
  induction identities generalizing remaining with
  | nil => exact emits_pure rfl
  | cons identity rest ih =>
      rw [inspectIdentities]
      refine (emits_inspectObservation identity _ _).bind fun record events hrecord => ?_
      refine (ih _ _).bind fun result others hresult => emits_pure ?_
      rw [List.append_nil, hrecord, hresult]
      exact (requests_cons _ _ _).symm

/-- A section comes after the requests for its records. -/
theorem emits_inspectKind (listing : KindListing) (reservation remaining : ℕ) :
    Emits (inspectKind services (recorded send) service options listing reservation remaining)
      fun result events => events = result.1.inspectRequests services service := by
  cases hlisted : listing.listed with
  | error code =>
      simp only [inspectKind, hlisted]
      exact emits_pure rfl
  | ok listed =>
      simp only [inspectKind, hlisted]
      refine (emits_inspectIdentities reservation listed.identities listed.ofKind remaining).bind
        fun result events hresult => emits_pure ?_
      rw [List.append_nil, hresult, InspectedSection.inspectRequests,
        InspectedSection.observations, List.map_map]
      rfl

theorem emits_inspectKinds (entries : List (KindListing × ℕ)) (remaining : ℕ) :
    Emits (inspectKinds services (recorded send) service options entries remaining)
      fun sections events =>
        events = sections.flatMap (InspectedSection.inspectRequests services service) := by
  induction entries generalizing remaining with
  | nil => exact emits_pure rfl
  | cons entry rest ih =>
      rw [inspectKinds]
      refine (emits_inspectKind entry.1 entry.2 remaining).bind fun result events hresult => ?_
      refine (ih _).bind fun sections others hsections => emits_pure ?_
      rw [List.append_nil, hresult, hsections, List.flatMap_cons]

theorem emits_inspectInventory :
    Emits (inspectInventory services (recorded send) options service) fun sections events =>
      events = requests (sectionListPath services service) (listedKinds services service) ++
        sections.flatMap (InspectedSection.inspectRequests services service) := by
  rw [inspectInventory]
  refine emits_listings.bind fun listings events hlistings => ?_
  refine (emits_inspectKinds _ _).imp fun sections others h => ?_
  rw [hlistings, h]

theorem inspectRequests_extendFindings (added : AcquiredRecord → List InventoryFinding)
    (found : InspectedSection) : (found.extendFindings added).inspectRequests services service =
      found.inspectRequests services service := by
  simp only [InspectedSection.inspectRequests, InspectedSection.observations, List.map_map,
    InspectedSection.extendFindings]
  rfl

theorem emits_acquireInventory : Emits (acquireInventory services (recorded send) options)
    fun result events =>
      (∀ inventory, result = .ok inventory →
        Probed services inventory.service ∧ events = builtRequests services inventory) ∧
      ∀ code, result = .error code → ∃ apiVersion, events <+: probeRequests apiVersion := by
  rw [acquireInventory]
  refine emits_probeLibpodService.bind fun probed events hprobed => ?_
  cases probed with
  | error code =>
      refine emits_pure ⟨fun inventory h => (by cases h), fun _ _ => ?_⟩
      rw [List.append_nil]
      exact hprobed.2
  | ok service =>
      refine emits_inspectInventory.bind fun sections others hsections => emits_pure
        ⟨fun inventory h => ?_, fun code h => (by cases h)⟩
      cases h
      obtain ⟨hservice, hevents⟩ := hprobed.1 service rfl
      refine ⟨hservice, ?_⟩
      rw [List.append_nil, hevents, hsections, builtRequests, reconcileSections_eq,
        List.flatMap_map, List.append_assoc]
      simp only [inspectRequests_extendFindings]

end Emitted

section Distinct
variable {services : AcquisitionServices} {service : ServiceObservation}

theorem mem_requests {α : Type} {path : α → PodmanLensResult LibpodPath} {values : List α}
    {found : LibpodPath} :
    found ∈ requests path values ↔ ∃ value ∈ values, path value = .ok found := by
  rw [requests, List.mem_filterMap]
  refine exists_congr fun value => and_congr_right fun _ => ?_
  cases path value with
  | error code => exact ⟨fun h => (by cases h), fun h => (by cases h)⟩
  | ok other =>
      exact ⟨fun h => congrArg _ (Option.some.inj h), fun h => congrArg _ (Except.ok.inj h)⟩

theorem nodup_requests {α : Type} {path : α → PodmanLensResult LibpodPath} {values : List α}
    (hvalues : values.Nodup)
    (hpath : ∀ a b found, path a = .ok found → path b = .ok found → a = b) :
    (requests path values).Nodup := by
  have hsome {a : α} {found : LibpodPath} (h : found ∈ (path a).toOption) : path a = .ok found := by
    cases hresult : path a with
    | error code =>
        rw [hresult] at h
        cases h
    | ok other =>
        rw [hresult] at h
        cases h
        rfl
  exact hvalues.filterMap fun a b found ha hb => hpath a b found (hsome ha) (hsome hb)

theorem nodup_probeRequests (apiVersion : ObservedVersion) : (probeRequests apiVersion).Nodup := by
  have hne : LibpodPath.mk "/libpod/_ping" ≠ versionRequest apiVersion := by
    intro h
    have hsecond := congrArg (fun path : LibpodPath => path.asStr.toList[1]?) h
    simp [versionRequest] at hsecond
  simp [probeRequests, hne]

theorem nodup_requests_sectionListPath :
    (requests (sectionListPath services service) (listedKinds services service)).Nodup :=
  nodup_requests ((by decide : allKinds.Nodup).filter _) fun _ _ _ => listPath_unique

theorem inspectRequests_eq (found : InspectedSection) : found.inspectRequests services service =
    requests (fun id => LibpodPath.resource (services.pathVersion service.apiVersion)
      found.kind.collection id "json") found.ids := by
  rw [InspectedSection.inspectRequests, InspectedSection.ids, requests, requests,
    List.filterMap_map, List.filterMap_map]
  refine List.filterMap_congr fun observation hobservation => ?_
  simp only [Function.comp_apply, inspectPath, kind_of_mem_observations hobservation]

theorem nodup_inspectRequests {found : InspectedSection} (h : found.ids.Nodup) :
    (found.inspectRequests services service).Nodup := by
  rw [inspectRequests_eq]
  exact nodup_requests h fun id other path hid hother => (resource_unique hid hother).2

/-- Sections of different kinds ask for different resources. -/
theorem disjoint_inspectRequests {left right : InspectedSection} (h : left.kind ≠ right.kind) :
    (left.inspectRequests services service).Disjoint
      (right.inspectRequests services service) := by
  intro path hleft hright
  rw [inspectRequests_eq] at hleft hright
  obtain ⟨id, -, hleft⟩ := mem_requests.mp hleft
  obtain ⟨other, -, hright⟩ := mem_requests.mp hright
  exact h (resource_unique hleft hright).1

theorem nodup_builtRequests {inventory : NativeInventory} (h : inventory.Whole)
    (hprobed : Probed services inventory.service) : (builtRequests services inventory).Nodup := by
  have hsections : (inventory.sections.flatMap
      (InspectedSection.inspectRequests services inventory.service)).Nodup := by
    have hkinds : (inventory.sections.map InspectedSection.kind).Nodup := by
      rw [h.kinds]
      decide
    refine List.nodup_flatMap.mpr ⟨fun found hfound => ?_, ?_⟩
    · exact nodup_inspectRequests (h.sound found hfound).nodup
    · exact (List.pairwise_map.mp hkinds).imp disjoint_inspectRequests
  have hprobe {path : LibpodPath} (hpath : path ∈ probeRequests inventory.service.apiVersion) :
      pingPath services.isRelease = .ok path ∨
        versionProbePath services.isRelease inventory.service.apiVersion = .ok path := by
    simp only [probeRequests, List.mem_cons, List.not_mem_nil, or_false] at hpath
    rcases hpath with rfl | rfl
    · exact Or.inl pingPath_eq
    · exact Or.inr hprobed.asked
  refine List.nodup_append.mpr ⟨List.nodup_append.mpr ⟨nodup_probeRequests _,
    nodup_requests_sectionListPath, fun path hfirst other hlist => ?_⟩, hsections,
    fun path hfront other hinspect => ?_⟩
  · rintro rfl
    obtain ⟨kind, -, hlist⟩ := mem_requests.mp hlist
    rcases hprobe hfirst with hping | hversion
    · exact listPath_ne_pingPath hlist hping
    · exact listPath_ne_versionProbePath hlist hversion
  · rintro rfl
    obtain ⟨found, -, hinspect⟩ := List.mem_flatMap.mp hinspect
    obtain ⟨identity, -, hinspect⟩ := mem_requests.mp hinspect
    rcases List.mem_append.mp hfront with hfirst | hlist
    · rcases hprobe hfirst with hping | hversion
      · exact resource_ne_pingPath hinspect hping
      · exact resource_ne_versionProbePath hinspect hversion
    · obtain ⟨kind, -, hlist⟩ := mem_requests.mp hlist
      exact resource_ne_listPath hinspect hlist

end Distinct

section Texts
variable {services : AcquisitionServices} {service : ServiceObservation}

/-- A list is asked for under the displayed version, unless its path is too long. -/
theorem sectionListPath_eq (hlibrary : services.library.Rereads) (h : Probed services service)
    (kind : ResourceKind) : sectionListPath services service kind =
      if fitsPath (listText (services.pathVersion service.apiVersion) kind) then
        .ok ⟨listText (services.pathVersion service.apiVersion) kind⟩
      else .error .invalidTransportMessage := by
  obtain ⟨text, htext⟩ := h.parsed
  have hrelease : services.isRelease (services.pathVersion service.apiVersion).toList = true := by
    rw [AcquisitionServices.isRelease, String.ofList_toList, AcquisitionServices.pathVersion,
      hlibrary.reread text _ htext]
    rfl
  exact listPath_eq ⟨_, hlibrary.spelled text _ htext⟩ kind hrelease

theorem requests_sectionListPath (hlibrary : services.library.Rereads)
    (h : Probed services service) :
    requests (sectionListPath services service) (listedKinds services service) =
      listRequests services service := by
  rw [listRequests]
  induction listedKinds services service with
  | nil => rfl
  | cons kind kinds ih =>
      have hpath := sectionListPath_eq hlibrary h kind
      rw [requests_cons, ih, List.map_cons, List.filter_cons]
      split_ifs at hpath ⊢
      · rw [requests_of_ok hpath, List.map_cons, List.singleton_append]
      · rw [requests_of_error hpath, List.nil_append]

/-- From every state of the transport an acquisition sends exactly the requests of its result, or
only requests of the probe where it fails, and none of them twice. -/
theorem acquireInventory_requests (hlibrary : services.library.Rereads) {σ : Type}
    (send : LibpodPath → StateM σ (PodmanLensResult LibpodResponse)) (options : AcquisitionOptions)
    (s : σ) :
    (∀ inventory,
      ((acquireInventory services (recorded send) options).run (s, [])).1 = .ok inventory →
        ((acquireInventory services (recorded send) options).run (s, [])).2.2 =
          acquisitionRequests services inventory) ∧
    (∀ code, ((acquireInventory services (recorded send) options).run (s, [])).1 = .error code →
      ∃ apiVersion, ((acquireInventory services (recorded send) options).run (s, [])).2.2 <+:
        probeRequests apiVersion) ∧
    ((acquireInventory services (recorded send) options).run (s, [])).2.2.Nodup := by
  obtain ⟨events, hevents, hok, herror⟩ :=
    @emits_acquireInventory σ services send options (s, [])
  rw [List.nil_append] at hevents
  rw [hevents]
  refine ⟨fun inventory hinventory => ?_, herror, ?_⟩
  · obtain ⟨hprobed, rfl⟩ := hok inventory hinventory
    rw [builtRequests, requests_sectionListPath hlibrary hprobed, acquisitionRequests]
  · cases hresult : ((acquireInventory services (recorded send) options).run (s, [])).1 with
    | error code =>
        obtain ⟨apiVersion, hleading⟩ := herror code hresult
        exact (nodup_probeRequests apiVersion).sublist hleading.sublist
    | ok inventory =>
        obtain ⟨hprobed, rfl⟩ := hok inventory hresult
        exact nodup_builtRequests (whole_acquireInventory.of_state (s, []) inventory hresult) hprobed

end Texts

/-- An acquisition with two listed containers, its requests recorded. -/
def tracedContainers : PodmanLensResult NativeInventory × ℕ × List LibpodPath :=
  (acquireInventory twoContainerServices (recorded countedAnswers) ⟨.redact⟩).run (0, [])

theorem run_afterProbe {σ ε α β : Type} (x : StateM (σ × List ε) α) (f : α → β) (tick : σ → σ)
    (first second : ε) (s : σ) :
    (do modify fun s => (tick s.1, s.2 ++ [first]); modify fun s => (tick s.1, s.2 ++ [second])
        return f (← x) : StateM (σ × List ε) β).run (s, []) =
      (f (x.run (tick (tick s), [first, second])).1,
        (x.run (tick (tick s), [first, second])).2) := rfl

theorem tracedContainers_fst : tracedContainers.1 = .ok ⟨newestService, reconcileSections
    ((inspectInventory twoContainerServices (recorded countedAnswers) ⟨.redact⟩ newestService).run
      (2, [⟨"/libpod/_ping"⟩, ⟨"/v4.0.0/libpod/version"⟩])).1⟩ := by
  have hping : recorded countedAnswers ⟨"/libpod/_ping"⟩ = (fun _ => .ok (newestResponse [])) <$>
      modify fun s => (s.1 + 1, s.2 ++ [⟨"/libpod/_ping"⟩]) := rfl
  have hversion : recorded countedAnswers ⟨"/v4.0.0/libpod/version"⟩ =
      (fun _ => .ok (newestResponse [0])) <$>
        modify fun s => (s.1 + 1, s.2 ++ [⟨"/v4.0.0/libpod/version"⟩]) := rfl
  rw [tracedContainers, acquireInventory_newest ⟨.redact⟩ rfl rfl hping hversion,
    run_afterProbe _ _ (· + 1)]

/-- The probe, six lists, and an inspection of each listed container. -/
def tracedTexts : List String :=
  ["/libpod/_ping", "/v4.0.0/libpod/version", "/v6.1.0/libpod/containers/json?all=true&sync=true",
    "/v6.1.0/libpod/pods/json", "/v6.1.0/libpod/networks/json", "/v6.1.0/libpod/volumes/json",
    "/v6.1.0/libpod/images/json?all=true", "/v6.1.0/libpod/secrets/json",
    "/v6.1.0/libpod/containers/a/json", "/v6.1.0/libpod/containers/b/json"]

theorem acquireInventory_requests_sample : ∃ inventory, tracedContainers.1 = .ok inventory ∧
    tracedContainers.2.2 = acquisitionRequests twoContainerServices inventory ∧
    tracedContainers.2.2.map LibpodPath.asStr = tracedTexts := by
  obtain ⟨inventory, hinventory, htexts⟩ : ∃ inventory, tracedContainers.1 = .ok inventory ∧
      (acquisitionRequests twoContainerServices inventory).map LibpodPath.asStr = tracedTexts :=
    ⟨_, tracedContainers_fst, by decide +kernel⟩
  have hrequests : tracedContainers.2.2 = acquisitionRequests twoContainerServices inventory := by
    have hsent := (@acquireInventory_requests twoContainerServices releaseLibrary_rereads ℕ
      countedAnswers ⟨.redact⟩ 0).1 inventory
    rw [← tracedContainers] at hsent
    exact hsent hinventory
  refine ⟨inventory, hinventory, hrequests, ?_⟩
  rw [hrequests, htexts]

end PodmanLens
