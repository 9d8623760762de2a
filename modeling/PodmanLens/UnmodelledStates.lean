import PodmanLens.MemberStates
import PodmanLens.NetworkIntent

/-!
# Unmodelled states are accounted for

Four readers leave a field unmodelled: names and health commands outside the reviewed ones, lists of
capabilities, host entries, and route types. Where the retained metadata is complete, each such
field has a retained descriptor with its identifier and path, except a capability list: it has one
for every element that is no known capability, under the path of the element.
-/

namespace PodmanLens
open Json Text

theorem mapM_id_eq_some {α : Type} {elements : List (Option α)} {values : List α}
    (h : elements.mapM id = some values) : elements = values.map some := by
  induction elements generalizing values with
  | nil =>
      cases h
      rfl
  | cons element rest ih =>
      cases element with
      | none => cases h
      | some first =>
          rw [List.mapM_cons] at h
          cases hrest : rest.mapM id with
          | none =>
              rw [hrest] at h
              cases h
          | some found =>
              rw [hrest] at h
              cases h
              rw [ih hrest, List.map_cons]

section Readers
variable {α : Type} {retains : UnmodelledFieldId → String → Prop} {identity : ResourceIdentity}
  {value : Option Value} {path place : String} {origin : ObservationOrigin}

theorem accounted_of_ne {field : ObservationField α} (h : ∀ id, field ≠ .unmodelled id) :
    AccountedFor retains (field.memberAt place) :=
  accounted_memberAt.mpr fun id hfield => absurd hfield (h id)

theorem accounted_scalarField (accept : Value → Option α) :
    AccountedFor retains ((scalarField identity accept value path origin).value.memberAt place) := by
  refine accounted_of_ne fun id => ?_
  rw [value_scalarField]
  split
  · exact nofun
  · exact nofun
  · exact nofun

theorem accounted_listField (accept : ℕ → Value → Option α) :
    AccountedFor retains ((listField identity accept value path origin).value.memberAt place) := by
  refine accounted_of_ne fun id => ?_
  rw [listField]
  split
  · exact nofun
  · split
    · exact nofun
    · exact nofun
  · exact nofun

theorem accounted_stringMapField (keep : List (String × String) → α) :
    AccountedFor retains ((stringMapField identity keep value path origin).value.memberAt place) := by
  refine accounted_of_ne fun id => ?_
  rw [stringMapField]
  split
  · exact nofun
  · exact nofun
  · exact nofun

theorem elementsField_ne_unmodelled (elements : List (Option α)) (id : UnmodelledFieldId) :
    elementsField elements origin ≠ .unmodelled id := by
  rw [elementsField]
  split
  · intro h
    cases h
  · intro h
    cases h

/-- Decoded elements keep their index, so their members are those of the elements that decoded. -/
theorem accounted_elementsField {elements : List (Option α)}
    {nested : String → α → List MemberState}
    (h : ∀ index decoded, elements[index]? = some (some decoded) →
      AccountedFor retains (nested (elementPath path index) decoded)) :
    AccountedFor retains
      ((elementsField elements origin).membersAt path (elementStates path nested)) := by
  rw [accounted_membersAt]
  refine ⟨fun _ hfield => absurd hfield (elementsField_ne_unmodelled _ _), fun values hvalues => ?_⟩
  rw [elementsField_toOption] at hvalues
  rw [accounted_elementStates]
  rintro ⟨decoded, index⟩ hentry
  refine h index decoded ?_
  rw [mapM_id_eq_some hvalues, List.getElem?_map, List.mk_mem_zipIdx_iff_getElem?.mp hentry]
  rfl

end Readers

section Controls
variable {α : Type} {retains : UnmodelledFieldId → String → Prop} {identity : ResourceIdentity}
  {value : Option Value} {path : String} {notes front back : List DecodingNote}

/-- What the decoders of a container note as unmodelled is retained under its path. -/
def NotesRetained (retains : UnmodelledFieldId → String → Prop) (notes : List DecodingNote) :
    Prop :=
  ∀ path kind, DecodingNote.unmodelled path kind ∈ notes →
    retains (semanticUnmodelledId .container path) path

theorem notesRetained_append : NotesRetained retains (front ++ back) ↔
    NotesRetained retains front ∧ NotesRetained retains back := by
  simp only [NotesRetained, List.mem_append, or_imp, forall_and]

/-- The two identifiers that a field reader gives are the semantic ones of its path. -/
def NamesItself (path : String) : Prop :=
  (if startsWith "$.Config" path then UnmodelledFieldId.containerConfig
    else .containerHostConfig) = semanticUnmodelledId .container path

instance (path : String) : Decidable (NamesItself path) := inferInstanceAs (Decidable (_ = _))

theorem retains_of_nativeUnmodelledField (hpath : NamesItself path) {found : Value}
    {id : UnmodelledFieldId} (hnotes : NotesRetained retains (nativeUnmodelledField path found :
      Decoder (ObservationField α)).notes)
    (h : (nativeUnmodelledField path found : Decoder (ObservationField α)).value =
      .unmodelled id) : retains id path := by
  have hid : id = semanticUnmodelledId .container path := by
    rw [← hpath]
    exact (ObservationField.unmodelled.inj h).symm
  rw [hid]
  exact hnotes path _ List.mem_cons_self

theorem accounted_namedField (hpath : NamesItself path) {fromName : String → Option α}
    {admissible : String → Bool}
    (hnotes : NotesRetained retains (namedField identity fromName admissible value path).notes) :
    AccountedFor retains
      ((namedField identity fromName admissible value path).value.memberAt path) := by
  refine accounted_memberAt.mpr fun id h => ?_
  revert hnotes h
  rw [namedField]
  split
  · exact fun _ => nofun
  · split
    · exact fun _ => nofun
    · split_ifs
      · exact retains_of_nativeUnmodelledField hpath
      · exact fun _ => nofun
  · exact fun _ => nofun

theorem accounted_nativeHealthCommand (hpath : NamesItself path)
    (hnotes : NotesRetained retains (nativeHealthCommand identity value path).notes) :
    AccountedFor retains ((nativeHealthCommand identity value path).value.memberAt path) := by
  refine accounted_memberAt.mpr fun id h => ?_
  revert hnotes h
  rw [nativeHealthCommand]
  split
  · exact fun _ => nofun
  · split
    · exact fun _ => nofun
    · split
      · exact fun _ => nofun
      · exact fun _ => nofun
      · exact retains_of_nativeUnmodelledField hpath
  · exact fun _ => nofun

theorem accounted_objectField {reader : Members → Decoder α} {nested : α → List MemberState}
    (hreader : ∀ members, NotesRetained retains (reader members).notes →
      AccountedFor retains (nested (reader members).value))
    (hnotes : NotesRetained retains (objectField identity reader value path).notes) :
    AccountedFor retains ((objectField identity reader value path).value.membersAt path nested) := by
  revert hnotes
  rw [objectField]
  split
  · exact fun _ => accounted_absent
  · next members hmembers =>
      rw [Noted.notes_bind, notesRetained_append]
      exact fun hnotes => accounted_observed (hreader members hnotes.1)
  · exact fun _ => accounted_malformed

theorem accounted_configField {reader : Members → Decoder (ObservationField α)} {front : String}
    {nested : α → List MemberState} {noted : UnmodelledFieldId → String → Prop}
    (hreader : ∀ config, value = some (.object config) → NotesRetained noted (reader config).notes →
      AccountedFor retains ((reader config).value.membersAt path nested))
    (hnotes : NotesRetained noted (configField identity value front reader).notes) :
    AccountedFor retains ((configField identity value front reader).value.membersAt path nested) := by
  revert hnotes
  rw [configField]
  split
  · exact fun _ => accounted_absent
  · next config hconfig => exact hreader config (supplied_eq_some hconfig)
  · exact fun _ => accounted_malformed

theorem accounted_healthMembers (hpath : NamesItself (path ++ ".Test")) (check : Members)
    (hnotes : NotesRetained retains (nativeHealthMembers identity check path).notes) :
    AccountedFor retains (healthCheckStates path (nativeHealthMembers identity check path).value) := by
  simp only [nativeHealthMembers, Noted.notes_bind, notesRetained_append] at hnotes
  simp only [nativeHealthMembers, Noted.value_bind, Noted.value_pure, healthCheckStates,
    accounted_append]
  refine ⟨⟨⟨⟨accounted_nativeHealthCommand hpath hnotes.1, ?_⟩, ?_⟩, ?_⟩, ?_⟩
  · exact accounted_scalarField _
  · exact accounted_scalarField _
  · exact accounted_scalarField _
  · exact accounted_scalarField _

theorem accounted_restartPolicy
    (hnotes : NotesRetained retains (decodeNativeRestartPolicy identity value).notes) :
    AccountedFor retains ((decodeNativeRestartPolicy identity value).value.membersAt
      "$.HostConfig.RestartPolicy" restartPolicyStates) := by
  refine accounted_objectField (fun policy hpolicy => ?_) hnotes
  simp only [Noted.notes_bind, notesRetained_append] at hpolicy
  simp only [Noted.value_bind, Noted.value_pure, restartPolicyStates, accounted_append]
  exact ⟨accounted_namedField (by decide) hpolicy.1,
    accounted_scalarField _⟩

theorem accounted_logging
    (hnotes : NotesRetained retains (decodeNativeLogging identity value).notes) :
    AccountedFor retains ((decodeNativeLogging identity value).value.membersAt
      "$.HostConfig.LogConfig" loggingStates) := by
  refine accounted_objectField (fun logging hlogging => ?_) hnotes
  simp only [Noted.notes_bind, notesRetained_append] at hlogging
  simp only [Noted.value_bind, Noted.value_pure, loggingStates, accounted_append]
  exact ⟨accounted_namedField (by decide) hlogging.1,
    accounted_scalarField _⟩

theorem accounted_healthCheck
    (hnotes : NotesRetained retains
      (decodeNativeHealthCheck identity value "$.Config.Healthcheck").notes) :
    AccountedFor retains ((decodeNativeHealthCheck identity value
      "$.Config.Healthcheck").value.membersAt "$.Config.Healthcheck"
        (healthCheckStates "$.Config.Healthcheck")) :=
  accounted_objectField (accounted_healthMembers (by decide)) hnotes

theorem accounted_startupHealthCheck
    (hnotes : NotesRetained retains (decodeNativeStartupHealthCheck identity value).notes) :
    AccountedFor retains ((decodeNativeStartupHealthCheck identity value).value.membersAt
      startupHealthCheckPath startupHealthCheckStates) := by
  refine accounted_objectField (fun check hcheck => ?_) hnotes
  simp only [Noted.notes_bind, notesRetained_append] at hcheck
  simp only [Noted.value_bind, Noted.value_pure, startupHealthCheckStates, accounted_append]
  exact ⟨accounted_healthMembers (by decide) check hcheck.1,
    accounted_scalarField _⟩

theorem accounted_namespaces (hostConfig : Members)
    (hnotes : NotesRetained retains (decodeNativeNamespaces identity hostConfig).notes) :
    AccountedFor retains (namespaceStates (decodeNativeNamespaces identity hostConfig).value) := by
  simp only [decodeNativeNamespaces, Noted.notes_bind, notesRetained_append] at hnotes
  simp only [decodeNativeNamespaces, Noted.value_bind, Noted.value_pure, namespaceStates,
    accounted_append]
  obtain ⟨hpid, hipc, huts, hcgroup, -⟩ := hnotes
  exact ⟨⟨⟨accounted_namedField (by decide) hpid, accounted_namedField (by decide) hipc⟩,
    accounted_namedField (by decide) huts⟩, accounted_namedField (by decide) hcgroup⟩

theorem ulimit_members {entry : Value × ℕ} {ulimit : NativeUlimitObservation}
    (h : (nativeUlimit identity entry).value = some ulimit) :
    AccountedFor retains (ulimitStates path ulimit) := by
  rw [nativeUlimit] at h
  split at h
  · cases h
  · simp only [Noted.value_bind, Noted.value_pure] at h
    split_ifs at h
    cases h
    simp only [ulimitStates, accounted_append]
    refine ⟨⟨?_, ?_⟩, ?_⟩ <;> exact accounted_scalarField _

theorem accounted_resourceControls (hostConfig : Members) :
    AccountedFor retains
      (resourceControlStates (decodeNativeResourceControls identity hostConfig).value) := by
  simp only [decodeNativeResourceControls, Noted.value_bind, Noted.value_pure,
    resourceControlStates, accounted_append]
  refine ⟨⟨⟨⟨⟨?_, ?_⟩, ?_⟩, ?_⟩, ?_⟩, ?_⟩
  · exact accounted_scalarField _
  · exact accounted_scalarField _
  · exact accounted_scalarField _
  · exact accounted_scalarField _
  · exact accounted_scalarField _
  · rw [decodeNativeUlimits]
    split
    · exact accounted_absent
    · rw [Noted.value_bind, Noted.value_pure, Noted.value_mapM]
      refine accounted_elementsField fun index decoded hdecoded => ?_
      rw [List.getElem?_map, Option.map_eq_some_iff] at hdecoded
      obtain ⟨entry, -, hentry⟩ := hdecoded
      exact ulimit_members hentry
    · exact accounted_malformed

end Controls

section Capabilities
variable {retains : UnmodelledFieldId → String → Prop} {identity : ResourceIdentity}
  {value : Option Value} {path : String}

/-- The element at this index of the native list is a text, but no known capability. -/
def UnknownCapability (value : Option Value) (index : ℕ) : Prop :=
  ∃ values capability, value = some (.array values) ∧
    values[index]? = some (.string capability) ∧ isNativeCapability capability = false

/-- A list without other elements notes each unknown capability. -/
theorem capabilityElements_ok {entries : List (Value × ℕ)} {elements : List (Option String)}
    (h : (capabilityElements identity path entries).value = .ok elements) :
    (elements.mapM id = none → ∃ entry ∈ entries, ∃ capability,
      entry.1 = .string capability ∧ isNativeCapability capability = false) ∧
    ∀ entry ∈ entries, ∀ capability, entry.1 = .string capability →
      isNativeCapability capability = false →
        DecodingNote.unmodelled (elementPath path entry.2) .string ∈
          (capabilityElements identity path entries).notes := by
  induction entries generalizing elements with
  | nil =>
      cases h
      exact ⟨nofun, nofun⟩
  | cons entry rest ih =>
      obtain ⟨value, index⟩ := entry
      rw [capabilityElements] at h ⊢
      cases hvalue : value.asStr with
      | none =>
          simp only [hvalue] at h
          cases h
      | some capability =>
          have hspelled : value = .string capability := by
            cases value <;> cases hvalue
            rfl
          obtain ⟨found, hrest⟩ : ∃ found,
              (capabilityElements identity path rest).value = .ok found := by
            cases hrest : (capabilityElements identity path rest).value with
            | ok found => exact ⟨found, rfl⟩
            | error _ =>
                cases hknown : isNativeCapability capability <;>
                  simp [hvalue, hknown, hrest, Except.map] at h
          obtain ⟨hmissing, hnoted⟩ := ih hrest
          cases hknown : isNativeCapability capability with
          | true =>
              simp only [hvalue, hknown, if_true, Noted.value_bind, Noted.value_pure, hrest,
                Except.map, Except.ok.injEq] at h
              subst h
              constructor
              · intro hnone
                rw [List.mapM_cons] at hnone
                cases hfound : found.mapM id with
                | some _ => simp [hfound] at hnone
                | none =>
                    obtain ⟨entry, hentry, hunknown⟩ := hmissing hfound
                    exact ⟨entry, List.mem_cons_of_mem _ hentry, hunknown⟩
              · intro entry hentry other hother hunknown
                simp only [hknown, if_true, Noted.notes_bind]
                rcases List.mem_cons.mp hentry with rfl | hentry
                · cases hspelled.symm.trans hother
                  rw [hknown] at hunknown
                  cases hunknown
                · exact List.mem_append_left _ (hnoted entry hentry other hother hunknown)
          | false =>
              constructor
              · exact fun _ => ⟨_, List.mem_cons_self, capability, hspelled, hknown⟩
              · intro entry hentry other hother hunknown
                simp only [hknown, Bool.false_eq_true, if_false, Noted.notes_bind]
                rcases List.mem_cons.mp hentry with rfl | hentry
                · exact List.mem_append_left _ List.mem_cons_self
                · refine List.mem_append_right _ (List.mem_append_left _ ?_)
                  exact hnoted entry hentry other hother hunknown

/-- A capability list is unmodelled because of its unknown elements, and each of them is noted. -/
theorem nativeCapabilities_unmodelled {id : UnmodelledFieldId}
    (h : (nativeCapabilities identity value path).value = .unmodelled id) :
    id = .containerHostConfig ∧ (∃ index, UnknownCapability value index) ∧
      ∀ index, UnknownCapability value index →
        DecodingNote.unmodelled (elementPath path index) .string ∈
          (nativeCapabilities identity value path).notes := by
  revert h
  rw [nativeCapabilities]
  split
  · exact nofun
  · next values hvalues =>
      rw [Noted.value_bind, Noted.notes_bind, Noted.value_pure]
      split
      · exact nofun
      · next elements helements =>
          obtain ⟨hmissing, hnoted⟩ := capabilityElements_ok helements
          split
          · exact nofun
          · next hnone =>
              intro h
              refine ⟨(ObservationField.unmodelled.inj h).symm, ?_, ?_⟩
              · obtain ⟨⟨found, index⟩, hentry, capability, rfl, hunknown⟩ := hmissing hnone
                exact ⟨index, values, capability, supplied_eq_some hvalues,
                  List.mk_mem_zipIdx_iff_getElem?.mp hentry, hunknown⟩
              · rintro index ⟨others, capability, hothers, hindex, hunknown⟩
                cases (supplied_eq_some hvalues).symm.trans hothers
                refine List.mem_append_left _ ?_
                exact hnoted (.string capability, index)
                  (List.mk_mem_zipIdx_iff_getElem?.mpr hindex) capability rfl hunknown
  · exact nofun

def capabilityKeys : List String := ["CapAdd", "CapDrop"]

/-- The list has unknown elements, and each of them is retained under its own path. -/
structure CapabilitiesRetained (retains : UnmodelledFieldId → String → Prop) (object : Members)
    (id : UnmodelledFieldId) (key : String) : Prop where
  some : ∃ index, UnknownCapability (within object "HostConfig" key) index
  each : ∀ index, UnknownCapability (within object "HostConfig" key) index →
    retains id (elementPath (hostConfigPath key) index)

/-- A capability list is retained by its unknown elements, every other member by its own path. -/
structure MemberRetained (retains : UnmodelledFieldId → String → Prop) (object : Members)
    (id : UnmodelledFieldId) (path : String) : Prop where
  capabilities : ∀ key ∈ capabilityKeys, path = hostConfigPath key →
    CapabilitiesRetained retains object id key
  other : path ∉ capabilityKeys.map hostConfigPath → retains id path

theorem MemberRetained.of_other {object : Members} {id : UnmodelledFieldId}
    (h : path ∉ capabilityKeys.map hostConfigPath) (hretained : retains id path) :
    MemberRetained retains object id path := by
  refine ⟨?_, fun _ => hretained⟩
  rintro key hkey rfl
  exact absurd (List.mem_map_of_mem hkey) h

/-- Where no member is a capability list, all are retained by their own paths. -/
theorem accounted_other {α : Type} {object : Members} {field : ObservationField α}
    {nested : α → List MemberState} (paths : List String)
    (h : AccountedFor retains (field.membersAt path nested))
    (hpaths : ∀ value, (nested value).map Prod.fst = paths)
    (hother : ∀ place ∈ path :: paths, place ∉ capabilityKeys.map hostConfigPath) :
    AccountedFor (MemberRetained retains object) (field.membersAt path nested) := by
  obtain ⟨hfield, hnested⟩ := accounted_membersAt.mp h
  refine accounted_membersAt.mpr ⟨fun id hid => ?_, fun value hvalue member hmember id hid => ?_⟩
  · exact .of_other (hother path List.mem_cons_self) (hfield id hid)
  · refine .of_other (hother member.1 (List.mem_cons_of_mem _ ?_))
      (hnested value hvalue member hmember id hid)
    rw [← hpaths value]
    exact List.mem_map_of_mem hmember

theorem startsWith_append {front text : String} (h : startsWith front text = true)
    (rest : String) : startsWith front (text ++ rest) = true := by
  rw [startsWith, List.isPrefixOf_iff_prefix] at h ⊢
  rw [String.toList_append]
  exact h.trans (List.prefix_append _ _)

theorem semanticUnmodelledId_hostConfig {path : String} (h : startsWith "$.HostConfig" path = true)
    (rest : String) : semanticUnmodelledId .container (path ++ rest) = .containerHostConfig :=
  if_pos (startsWith_append h rest)

theorem accounted_nativeCapabilities {object hostConfig : Members} {key : String}
    (hobject : lookup object "HostConfig" = some (.object hostConfig))
    (hkey : key ∈ capabilityKeys)
    (hnotes : NotesRetained retains
      (nativeCapabilities identity (lookup hostConfig key) (hostConfigPath key)).notes) :
    AccountedFor (MemberRetained retains object) ((nativeCapabilities identity
      (lookup hostConfig key) (hostConfigPath key)).value.memberAt (hostConfigPath key)) := by
  refine accounted_memberAt.mpr fun id h => ?_
  obtain ⟨rfl, hunknown, hnoted⟩ := nativeCapabilities_unmodelled h
  have hwithin : within object "HostConfig" key = lookup hostConfig key := by
    rw [within, hobject]
    rfl
  have hfront : startsWith "$.HostConfig" (hostConfigPath key) = true := by
    rcases List.mem_cons.mp hkey with rfl | hkey
    · decide
    · rw [List.mem_singleton.mp hkey]
      decide
  refine ⟨fun other _ hsame => ?_, fun hother => absurd (List.mem_map_of_mem hkey) hother⟩
  obtain rfl : key = other := (String.append_right_inj "$.HostConfig.").mp hsame
  constructor
  · rwa [hwithin]
  intro index hindex
  rw [hwithin] at hindex
  have hretained := hnotes _ _ (hnoted index hindex)
  have hid : semanticUnmodelledId .container (elementPath (hostConfigPath key) index) =
      .containerHostConfig := by
    rw [elementPath, String.append_assoc, String.append_assoc]
    exact semanticUnmodelledId_hostConfig hfront _
  rwa [hid] at hretained

theorem accounted_nativeSecurityOptions :
    AccountedFor retains ((nativeSecurityOptions identity value).value.memberAt path) := by
  refine accounted_of_ne fun id => ?_
  rw [nativeSecurityOptions]
  split
  · exact nofun
  · split
    · exact nofun
    · exact nofun
  · exact nofun

theorem accounted_security {object hostConfig : Members}
    (hobject : lookup object "HostConfig" = some (.object hostConfig))
    (hnotes : NotesRetained retains (decodeNativeSecurity identity hostConfig).notes) :
    AccountedFor (MemberRetained retains object)
      (securityStates (decodeNativeSecurity identity hostConfig).value) := by
  simp only [decodeNativeSecurity, Noted.notes_bind, notesRetained_append] at hnotes
  simp only [decodeNativeSecurity, Noted.value_bind, Noted.value_pure, securityStates,
    accounted_append]
  obtain ⟨-, hadd, hdrop, -⟩ := hnotes
  refine ⟨⟨⟨⟨?_, ?_⟩, ?_⟩, ?_⟩, ?_⟩
  · exact accounted_scalarField _
  · exact accounted_nativeCapabilities hobject (by decide : "CapAdd" ∈ capabilityKeys) hadd
  · exact accounted_nativeCapabilities hobject (by decide : "CapDrop" ∈ capabilityKeys) hdrop
  · exact accounted_nativeSecurityOptions
  · exact accounted_scalarField _

end Capabilities

section AllControls
variable {α : Type} {retains : UnmodelledFieldId → String → Prop} {identity : ResourceIdentity}
  {object : Members} {path : String}

theorem accounted_observedMembers {reader : Members → Decoder α} {nested : α → List MemberState}
    {members : Members} (h : AccountedFor retains (nested (reader members).value)) :
    AccountedFor retains ((observedMembers reader members).value.membersAt path nested) :=
  accounted_observed h

/-- The members of a health check, in their order. -/
def healthPaths (path : String) : List String :=
  [".Test", ".Interval", ".Timeout", ".Retries", ".StartPeriod"].map (path ++ ·)

theorem accounted_controls
    (hnotes : NotesRetained retains (decodeContainerB3 identity object).notes) :
    AccountedFor (MemberRetained retains object)
      (controlStates (decodeContainerB3 identity object).value) := by
  simp only [decodeContainerB3, Noted.notes_bind, notesRetained_append] at hnotes
  simp only [decodeContainerB3, Noted.value_bind, Noted.value_pure, controlStates,
    accounted_append]
  obtain ⟨hhealth, haction, hstartup, hrestart, hlogging, hsecurity, hnamespaces, hresources, -⟩ :=
    hnotes
  refine ⟨⟨⟨⟨⟨⟨⟨?health, ?action⟩, ?startup⟩, ?restart⟩, ?logging⟩, ?security⟩, ?namespaces⟩,
    ?resources⟩
  case health =>
    exact accounted_other (healthPaths "$.Config.Healthcheck")
      (accounted_configField (fun _ _ => accounted_healthCheck) hhealth) (fun _ => rfl) (by decide)
  case action =>
    rw [ObservationField.memberAt_eq_membersAt]
    refine accounted_other [] (accounted_configField (fun _ _ hnotes => ?_) haction) (fun _ => rfl)
      (by decide)
    rw [← ObservationField.memberAt_eq_membersAt]
    exact accounted_namedField (by decide) hnotes
  case startup =>
    exact accounted_other (healthPaths startupHealthCheckPath ++ [startupHealthCheckPath ++ ".Successes"])
      (accounted_configField (fun _ _ => accounted_startupHealthCheck) hstartup) (fun _ => rfl)
      (by decide)
  case restart =>
    exact accounted_other ["$.HostConfig.RestartPolicy.Name",
        "$.HostConfig.RestartPolicy.MaximumRetryCount"]
      (accounted_configField (fun _ _ => accounted_restartPolicy) hrestart) (fun _ => rfl) (by decide)
  case logging =>
    exact accounted_other ["$.HostConfig.LogConfig.Type", "$.HostConfig.LogConfig.Size"]
      (accounted_configField (fun _ _ => accounted_logging) hlogging) (fun _ => rfl) (by decide)
  case security =>
    refine accounted_configField (fun hostConfig hobject hnotes => ?_) hsecurity
    rw [observedMembers, Noted.notes_bind, notesRetained_append] at hnotes
    exact accounted_observedMembers (accounted_security hobject hnotes.1)
  case namespaces =>
    refine accounted_other ["$.HostConfig.PidMode", "$.HostConfig.IpcMode", "$.HostConfig.UTSMode",
        "$.HostConfig.CgroupMode"] (accounted_configField (fun hostConfig _ hnotes => ?_) hnamespaces)
      (fun _ => rfl) (by decide)
    rw [observedMembers, Noted.notes_bind, notesRetained_append] at hnotes
    exact accounted_observedMembers (accounted_namespaces hostConfig hnotes.1)
  case resources =>
    refine accounted_configField (fun hostConfig _ _ => ?_) hresources
    exact accounted_observedMembers (accounted_resourceControls hostConfig)

end AllControls

end PodmanLens
