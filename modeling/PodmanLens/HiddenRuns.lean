import PodmanLens.HiddenObservations

/-!
# Runs with hidden values

Two acquisitions whose answers differ in hidden values only are coupled step by step: the probe is
the same, the lists name the same resources, and each resource is inspected to alike records. The
budget of unknown fields is spent alike, for headers do not differ.
-/

namespace PodmanLens
open Std Json Coupling

section Lists
variable {kind : ResourceKind} {services : AcquisitionServices}

/-- Listed entries that agree in what identifies a resource; nothing else of them is read. -/
structure EntriesAgree (left right : Members) : Prop where
  same : ∀ key ∈ ["Id", "ID", "id", "Name", "name", "Names"], lookup left key = lookup right key
  spec : OptionsAlike (ObjectsAlike (ExceptAt hiddenSpecPlaces)) (lookup left "Spec")
    (lookup right "Spec")

inductive ListedAlike : Value → Value → Prop
  | same (value : Value) : ListedAlike value value
  | object {left right : Members} (h : EntriesAgree left right) :
      ListedAlike (.object left) (.object right)

/-- Lists of alike entries. Volumes may be listed in a wrapper. -/
inductive ListsAlike : Value → Value → Prop
  | entries {value value' : Value} (h : ArraysAlike ListedAlike value value') :
      ListsAlike value value'
  | wrapped {left right : Members}
      (h : MembersAlike (ExceptAt [("Volumes", ArraysAlike ListedAlike)]) left right) :
      ListsAlike (.object left) (.object right)

theorem secretName_agree {left right : Members} (h : EntriesAgree left right) :
    secretName left = secretName right := by
  rw [secretName, secretName]
  rcases optionsAlike_objects h.spec with heq | ⟨spec, spec', heq, heq', hmembers⟩
  · rw [heq]
  · rw [heq, heq']
    exact congrArg (Option.bind · Value.asNonEmptyStr) (hmembers.lookup_same (by decide))

theorem listIdentity_alike {value value' : Value} (h : ListedAlike value value') :
    listIdentity kind value = listIdentity kind value' := by
  cases h with
  | same value => rfl
  | @object left right h =>
      have hids : requiredStringAny left (listedIdKeys kind) =
          requiredStringAny right (listedIdKeys kind) := by
        rw [requiredStringAny, requiredStringAny, optionalStringAny_eq]
        intro key hkey
        refine h.same key ?_
        cases kind <;> simp [listedIdKeys] at hkey ⊢ <;> tauto
      have hname : listedName kind left = listedName kind right := by
        cases kind with
        | container | image =>
            rw [listedName, listedName, h.same "Names" (by decide)]
        | secret => exact secretName_agree h
        | network =>
            exact optionalStringAny_eq fun key hkey => h.same key (by
              simp only [List.mem_cons, List.not_mem_nil, or_false] at hkey ⊢
              tauto)
        | pod | volume =>
            rw [listedName, listedName, optionalString, optionalString, h.same "Name" (by decide)]
      simp only [listIdentity, Value.asObject, hids, hname]

theorem listEntries_alike {value value' : Value} (h : ListsAlike value value') :
    Coupled (List.Forall₂ ListedAlike) (listEntries kind value) (listEntries kind value') := by
  have hrefl : ∀ entries, List.Forall₂ ListedAlike entries entries :=
    fun entries => List.forall₂_same.mpr fun entry _ => .same entry
  cases h with
  | entries h =>
      cases h with
      | same value => exact .refl hrefl _
      | array h =>
          simp only [listEntries]
          exact .pure h
  | @wrapped left right h =>
      cases kind with
      | volume =>
          simp only [listEntries]
          have hvolumes : OptionsAlike (ArraysAlike ListedAlike) (lookup left "Volumes")
              (lookup right "Volumes") := h.lookup_place rfl
          rcases optionsAlike_arrays hvolumes with heq | ⟨entries, entries', heq, heq', hentries⟩
          · rw [heq]
            exact .refl hrefl _
          · rw [heq, heq']
            exact .pure hentries
      | container | pod | network | image | secret => exact coupled_except.mpr (.inl ⟨_, rfl, rfl⟩)

theorem addEntry_alike (listed : ListedSection kind) {value value' : Value}
    (h : ListedAlike value value') : listed.addEntry value = listed.addEntry value' := by
  have hidentity := (listIdentity_alike h : listIdentity kind _ = _)
  unfold ListedSection.addEntry
  split
  · next identity hok =>
      have hok' : listIdentity kind value' = .ok identity := hidentity.symm.trans hok
      by_cases hany : (listed.identities.any fun previous => previous.id == identity.id) = true
      · rw [if_pos hany]
        split
        · next other hother =>
            cases Except.ok.inj (hok'.symm.trans hother)
            rw [if_pos hany]
        · next herror => cases hok'.symm.trans herror
      · rw [if_neg hany]
        split
        · next other hother =>
            cases Except.ok.inj (hok'.symm.trans hother)
            rw [if_neg hany]
        · next herror => cases hok'.symm.trans herror
  · next code herror =>
      split
      · next other hother => cases (herror.symm.trans hidentity).trans hother
      · rfl

theorem decodeList_alike {response response' : LibpodResponse}
    (h : AnswersAlike services.fromSlice ListsAlike (.ok response) (.ok response')) :
    decodeList services.fromSlice kind response = decodeList services.fromSlice kind response' := by
  cases h with
  | same => rfl
  | bodies hstatus hheaders hlength hlength' hvalue hvalue' h =>
      refine (coupled_decodedBody hstatus hheaders hlength hlength' hvalue hvalue' ?_).eq
      refine (listEntries_alike h).bind fun entries entries' hentries => ?_
      have hfold : ∀ listed : ListedSection kind, entries.foldl ListedSection.addEntry listed =
          entries'.foldl ListedSection.addEntry listed := by
        induction hentries with
        | nil => exact fun _ => rfl
        | cons hentry _ ih =>
            intro listed
            rw [List.foldl_cons, List.foldl_cons, addEntry_alike listed hentry, ih]
      rw [hfold]
      exact .refl (fun _ => rfl) _

end Lists

section Transports
variable {m : Type → Type} [Monad m] {services : AcquisitionServices}
  {documents : ResourceKind → Value → Value → Prop}
  {send send' : LibpodPath → m (PodmanLensResult LibpodResponse)} {service : ServiceObservation}
  {options : AcquisitionOptions} {alike : NativeDetails → NativeDetails → Prop}

/-- Transports whose answers differ in hidden values only. The documents about a resource differ as
far as it is said for its kind. -/
structure TransportsAlike (services : AcquisitionServices)
    (documents : ResourceKind → Value → Value → Prop)
    (send send' : LibpodPath → m (PodmanLensResult LibpodResponse)) : Prop where
  pinged : ∀ path, pingPath services.isRelease = .ok path → send path = send' path
  probed : ∀ api path, versionProbePath services.isRelease api = .ok path → send path = send' path
  listed : ∀ version kind path, listPath services.isRelease version kind = .ok path →
    Coupled (AnswersAlike services.fromSlice ListsAlike) (send path) (send' path)
  inspected : ∀ service identity path, inspectPath services service identity = .ok path →
    Coupled (AnswersAlike services.fromSlice (documents identity.kind)) (send path) (send' path)

/-- Documents that differ as far as it is said are read as alike records. -/
structure ReadsAlike (services : AcquisitionServices) (options : AcquisitionOptions)
    (documents : ResourceKind → Value → Value → Prop)
    (alike : NativeDetails → NativeDetails → Prop) : Prop where
  refl : ∀ details, alike details details
  kinds : ∀ left right, alike left right → left.kind = right.kind
  inspected : ∀ listed evidence value value', documents listed.kind value value' →
    Coupled (fun object object' => MembersAlike (ExceptAt (decodedPlaces listed.kind)) object object' ∧
        DetailsCoupled alike services.library evidence options listed.kind object object')
      (inspectObject services.library listed evidence value)
      (inspectObject services.library listed evidence value')

theorem probe_alike (h : TransportsAlike services documents send send') :
    probeLibpodService services send = probeLibpodService services send' := by
  have hping : sendGet send (pingPath services.isRelease) =
      sendGet send' (pingPath services.isRelease) := by
    cases hpath : pingPath services.isRelease with
    | error code => rfl
    | ok path => exact h.pinged path hpath
  have hversion : ∀ api, sendGet send (versionProbePath services.isRelease api) =
      sendGet send' (versionProbePath services.isRelease api) := by
    intro api
    cases hpath : versionProbePath services.isRelease api with
    | error code => rfl
    | ok path => exact h.probed api path hpath
  simp only [probeLibpodService, hping, hversion]

variable [LawfulMonad m]

/-- It is enough that one resource is inspected with hidden differences. -/
theorem TransportsAlike.of_one {version : String} {kind : ResourceKind} {id : String}
    {path : LibpodPath}
    (hpath : LibpodPath.resource version (ResourceKind.collection kind) id "json" = .ok path)
    (hanswers : Coupled (AnswersAlike services.fromSlice (documents kind)) (send path) (send' path))
    (hagree : ∀ other, other ≠ path → send other = send' other) :
    TransportsAlike services documents send send' where
  pinged asked hasked := hagree asked fun hsame =>
    resource_ne_pingPath hpath (hsame ▸ hasked)
  probed api asked hasked := hagree asked fun hsame =>
    resource_ne_versionProbePath hpath (hsame ▸ hasked)
  listed version' kind' asked hasked := by
    rw [hagree asked fun hsame => resource_ne_listPath hpath (hsame ▸ hasked)]
    exact .refl .same _
  inspected service identity asked hasked := by
    by_cases hsame : asked = path
    · rw [hsame] at hasked ⊢
      rw [(resource_unique hasked hpath).1]
      exact hanswers
    · rw [hagree asked hsame]
      exact .refl .same _

theorem listKind_alike (h : TransportsAlike services documents send send') (kind : ResourceKind) :
    listKind services send service kind = listKind services send' service kind := by
  have hsection : listSection services send service kind =
      listSection services send' service kind := by
    simp only [listSection]
    cases hpath : sectionListPath services service kind with
    | error code => rfl
    | ok path =>
        refine Coupled.eq ((h.listed _ _ _ hpath).bind fun answer answer' hanswer => .pure ?_)
        cases answer with
        | error code => cases hanswer; rfl
        | ok response =>
            cases answer' with
            | error code => cases hanswer
            | ok response' => exact decodeList_alike hanswer
  simp only [listKind, hsection]

theorem answeredObservation_alike (hreads : ReadsAlike services options documents alike)
    (identity : ResourceIdentity) (limit : ℕ) {answer answer' : PodmanLensResult LibpodResponse}
    (h : AnswersAlike services.fromSlice (documents identity.kind) answer answer') :
    RecordsAlike alike (answeredObservation services service options identity limit answer)
      (answeredObservation services service options identity limit answer') := by
  cases h with
  | same answer => exact ⟨rfl, hreads.refl _⟩
  | @bodies response response' value value' hstatus hheaders hlength hlength' hvalue hvalue' h =>
      have hobjects := coupled_decodedBody hstatus hheaders hlength hlength' hvalue hvalue'
        (hreads.inspected identity (.fromService service) value value' h)
      have hdecoded : Coupled (RecordsAlike alike)
          (decodeObservation services.library services.fromSlice identity response
            (.fromService service) options limit)
          (decodeObservation services.library services.fromSlice identity response'
            (.fromService service) options limit) :=
        hobjects.bind fun object object' hobject =>
          coupled_observeObject hreads.kinds hobject.1 hobject.2
      simp only [answeredObservation, hstatus]
      split_ifs
      · exact ⟨rfl, hreads.refl _⟩
      · rcases coupled_except.mp hdecoded with ⟨code, hleft, hright⟩ | ⟨left, right, hleft, hright, h⟩
        · rw [hleft, hright]
          exact ⟨rfl, hreads.refl _⟩
        · rw [hleft, hright]
          exact h

/-- Records that were inspected with the same limit. -/
def InspectedAlike (alike : NativeDetails → NativeDetails → Prop) {kind : ResourceKind}
    (left right : InspectedRecord kind) : Prop :=
  RecordsAlike alike left.observation right.observation ∧
    left.unknownFieldLimit = right.unknownFieldLimit

theorem coupled_inspectObservation (h : TransportsAlike services documents send send')
    (hreads : ReadsAlike services options documents alike) {kind : ResourceKind}
    (identity : ResourceIdentity) (ofKind : identity.kind = kind) (limit : ℕ) :
    Coupled (InspectedAlike alike)
      (inspectObservation services send service options identity ofKind limit)
      (inspectObservation services send' service options identity ofKind limit) := by
  have hrefl : ∀ record : InspectedRecord kind, InspectedAlike alike record record :=
    fun record => ⟨⟨rfl, hreads.refl _⟩, rfl⟩
  cases hpath : inspectPath services service identity with
  | error code =>
      simp only [inspectObservation, hpath]
      exact .refl hrefl _
  | ok path =>
      simp only [inspectObservation, hpath]
      refine (h.inspected service identity path hpath).bind fun answer answer' hanswer => .pure ?_
      exact ⟨answeredObservation_alike hreads identity limit hanswer, rfl⟩

/-- What remains of the budget is the same after each record. -/
theorem coupled_inspectIdentities (h : TransportsAlike services documents send send')
    (hreads : ReadsAlike services options documents alike) {kind : ResourceKind}
    (reservation : ℕ) (identities : List ResourceIdentity)
    (ofKind : ∀ identity ∈ identities, identity.kind = kind) (remaining : ℕ) :
    Coupled (fun left right => List.Forall₂ (InspectedAlike alike) left.1 right.1 ∧
        left.2 = right.2)
      (inspectIdentities services send service options reservation identities ofKind remaining)
      (inspectIdentities services send' service options reservation identities ofKind remaining) := by
  induction identities generalizing remaining with
  | nil => exact .pure ⟨.nil, rfl⟩
  | cons identity rest ih =>
      simp only [inspectIdentities]
      refine (coupled_inspectObservation h hreads identity _ _).bind fun record record' hrecord => ?_
      rw [hrecord.1.header]
      refine (ih _ _).bind fun records records' hrecords => .pure ?_
      exact ⟨.cons hrecord hrecords.1, hrecords.2⟩

/-- Sections of one kind with the same findings and alike records. -/
inductive SectionsAlike (alike : NativeDetails → NativeDetails → Prop) :
    InspectedSection → InspectedSection → Prop
  | mk {kind : ResourceKind} {availability : InventorySectionAvailability}
      {records records' : List (InspectedRecord kind)} {findings : List InventoryFinding}
      (hempty : availability ≠ .available → records = [])
      (hempty' : availability ≠ .available → records' = [])
      (h : List.Forall₂ (InspectedAlike alike) records records') :
      SectionsAlike alike ⟨kind, availability, records, findings, hempty⟩
        ⟨kind, availability, records', findings, hempty'⟩

theorem SectionsAlike.refl (hrefl : ∀ details, alike details details) (found : InspectedSection) :
    SectionsAlike alike found found := by
  refine .mk found.unavailable_empty found.unavailable_empty ?_
  exact List.forall₂_same.mpr fun record _ => ⟨⟨rfl, hrefl _⟩, rfl⟩

theorem coupled_inspectKind (h : TransportsAlike services documents send send')
    (hreads : ReadsAlike services options documents alike) (listing : KindListing)
    (reservation remaining : ℕ) :
    Coupled (fun left right => SectionsAlike alike left.1 right.1 ∧ left.2 = right.2)
      (inspectKind services send service options listing reservation remaining)
      (inspectKind services send' service options listing reservation remaining) := by
  cases hlisted : listing.listed with
  | error code =>
      simp only [inspectKind, hlisted]
      exact .pure ⟨.refl hreads.refl _, rfl⟩
  | ok listed =>
      simp only [inspectKind, hlisted]
      refine (coupled_inspectIdentities h hreads _ _ _ _).bind fun found found' hfound => .pure ?_
      exact ⟨.mk _ _ hfound.1, hfound.2⟩

theorem coupled_inspectKinds (h : TransportsAlike services documents send send')
    (hreads : ReadsAlike services options documents alike) (listings : List (KindListing × ℕ))
    (remaining : ℕ) :
    Coupled (List.Forall₂ (SectionsAlike alike))
      (inspectKinds services send service options listings remaining)
      (inspectKinds services send' service options listings remaining) := by
  induction listings generalizing remaining with
  | nil => exact .pure .nil
  | cons listing rest ih =>
      simp only [inspectKinds]
      refine (coupled_inspectKind h hreads _ _ _).bind fun found found' hfound => ?_
      rw [hfound.2]
      exact (ih _).bind fun sections sections' hsections => .pure (.cons hfound.1 hsections)

theorem coupled_inspectInventory (h : TransportsAlike services documents send send')
    (hreads : ReadsAlike services options documents alike) :
    Coupled (List.Forall₂ (SectionsAlike alike))
      (inspectInventory services send options service)
      (inspectInventory services send' options service) := by
  have hlistings : allKinds.mapM (listKind services send service) =
      allKinds.mapM (listKind services send' service) := by
    congr 1
    funext kind
    exact listKind_alike h kind
  rw [inspectInventory, inspectInventory, hlistings]
  exact .bind_same fun listings => coupled_inspectKinds h hreads _ _

/-- The inventories are of the same service, with alike sections before reconciliation. -/
theorem coupled_acquireInventory (h : TransportsAlike services documents send send')
    (hreads : ReadsAlike services options documents alike) :
    Coupled (fun left right => (∃ code, left = .error code ∧ right = .error code) ∨
        ∃ service sections sections', List.Forall₂ (SectionsAlike alike) sections sections' ∧
          left = .ok ⟨service, reconcileSections sections⟩ ∧
          right = .ok ⟨service, reconcileSections sections'⟩)
      (acquireInventory services send options) (acquireInventory services send' options) := by
  rw [acquireInventory, acquireInventory, probe_alike h]
  refine .bind_same fun probed => ?_
  cases probed with
  | error code => exact .pure (.inl ⟨code, rfl, rfl⟩)
  | ok service =>
      refine (coupled_inspectInventory h hreads).bind fun sections sections' hsections => .pure ?_
      exact .inr ⟨service, sections, sections', hsections, rfl, rfl⟩

end Transports

end PodmanLens
