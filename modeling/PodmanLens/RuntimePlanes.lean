import PodmanLens.FlagTexts

/-!
# Runtime settings in both planes

The flags of a group of runtime settings and its members of the body determine the same settings:
both are equal for two containers exactly when the settings are, up to the order of journald labels
in the body.
-/

namespace PodmanLens
open Options Text Json Validated

section Encoders

variable {α : Type} {flag : String}

theorem valued_inj {texts others : List String} :
    valued flag texts = valued flag others ↔ texts = others := by
  have hinjective : Function.Injective fun text => (⟨flag, some text⟩ : Occurrence) := by
    intro a b h
    simpa using h
  exact (List.map_injective_iff.mpr hinjective).eq_iff

theorem switched_inj {setting other : Option Bool} :
    switched flag setting = switched flag other ↔ setting = other := by
  have hinjective : Function.Injective fun value => (⟨flag ++ boolText value, none⟩ : Occurrence) := by
    intro a b h
    have htext : flag ++ boolText a = flag ++ boolText b := congrArg Occurrence.flag h
    exact boolText_injective (by simpa using htext)
  constructor
  · intro h
    cases setting <;> cases other <;> simp_all [switched, hinjective.eq_iff]
  · rintro rfl
    rfl

theorem texts_inj {text : α → String} (htext : Function.Injective text) {values others : List α} :
    values.map text = others.map text ↔ values = others :=
  (List.map_injective_iff.mpr htext).eq_iff

theorem setting_inj {text : α → String} (htext : Function.Injective text)
    {setting other : Option α} :
    setting.toList.map text = other.toList.map text ↔ setting = other := by
  rw [texts_inj htext]
  cases setting <;> cases other <;> simp

theorem member_inj {value : α → Value} (hvalue : Function.Injective value)
    {setting other : Option α} : setting.map value = other.map value ↔ setting = other :=
  (Option.map_injective hvalue).eq_iff

theorem nonEmpty_inj {value : List α → Value} (hvalue : Function.Injective value)
    {values others : List α} : nonEmpty value values = nonEmpty value others ↔ values = others := by
  cases values with
  | nil =>
      cases others with
      | nil => simp
      | cons => simp [nonEmpty]
  | cons =>
      cases others with
      | nil => simp [nonEmpty]
      | cons => simp [nonEmpty, hvalue.eq_iff]

theorem array_injective {value : α → Value} (hvalue : Function.Injective value) :
    Function.Injective fun values : List α => Value.array (values.map value) := by
  intro a b h
  exact List.map_injective_iff.mpr hvalue (Value.array.inj h)

theorem string_injective {text : α → String} (htext : Function.Injective text) :
    Function.Injective fun a => Value.string (text a) := fun _ _ h => htext (Value.string.inj h)

theorem number_injective {number : α → ℤ} (hnumber : Function.Injective number) :
    Function.Injective fun a => Value.number (number a) := fun _ _ h => hnumber (Value.number.inj h)

theorem stringArray_injective : Function.Injective stringArray :=
  array_injective (string_injective Function.injective_id)

/-- Members with distinct keys are in an object up to their order. -/
theorem objectMember_inj {pair : α → String × Value} (hpair : Function.Injective pair)
    {values others : List α} (hvalues : ((values.map pair).map Prod.fst).Nodup)
    (hothers : ((others.map pair).map Prod.fst).Nodup) :
    nonEmpty (fun values => .object (ofPairs (values.map pair))) values =
        nonEmpty (fun values => .object (ofPairs (values.map pair))) others ↔
      values.Perm others := by
  rw [← List.map_perm_map_iff hpair, ← ofPairs_eq_iff_perm hvalues hothers]
  have hempty {values : List α} (h : values ≠ []) : ofPairs (values.map pair) ≠ ofPairs [] := by
    intro hnil
    change ofPairs (values.map pair) = [] at hnil
    rw [ofPairs_eq_assemble, assemble, ← List.isEmpty_iff, isEmpty_extend] at hnil
    obtain ⟨a, rest, rfl⟩ := List.exists_cons_of_ne_nil h
    simp at hnil
  cases values with
  | nil =>
      cases others with
      | nil => simp
      | cons => simpa [nonEmpty] using (hempty (List.cons_ne_nil _ _)).symm
  | cons =>
      cases others with
      | nil => simpa [nonEmpty] using hempty (List.cons_ne_nil _ _)
      | cons => simp [nonEmpty]

/-- A list of texts is a member and a sequence of options at once. -/
theorem textsMember_inj {text : α → String} {values others : List α} :
    nonEmpty (fun values => stringArray (values.map text)) values =
        nonEmpty (fun values => stringArray (values.map text)) others ↔
      values.map text = others.map text := by
  cases values with
  | nil =>
      cases others with
      | nil => simp
      | cons => simp [nonEmpty]
  | cons =>
      cases others with
      | nil => simp [nonEmpty]
      | cons => simp [nonEmpty, stringArray_injective.eq_iff]

theorem DistinctList.values_inj {clashes : α → α → Bool} {maximum : ℕ}
    {l m : DistinctList clashes maximum} : l.values = m.values ↔ l = m :=
  ⟨DistinctList.ext_values, congrArg _⟩

end Encoders

section Security

variable {security other : SecuritySettings} {namespaces others : ContainerNamespaceSettings}

theorem security_ext : security = other ∧ namespaces = others ↔
    security.privileged = other.privileged ∧ security.noNewPrivileges = other.noNewPrivileges ∧
      security.readOnlyFilesystem = other.readOnlyFilesystem ∧
      security.readWriteTmpfs = other.readWriteTmpfs ∧ security.capAdd = other.capAdd ∧
      security.capDrop = other.capDrop ∧ namespaces.pid = others.pid ∧ namespaces.ipc = others.ipc ∧
      namespaces.uts = others.uts ∧ namespaces.cgroup = others.cgroup := by
  cases security
  cases other
  cases namespaces
  cases others
  simp [and_assoc]

theorem securitySegments_inj : securitySegments security namespaces = securitySegments other others ↔
    security = other ∧ namespaces = others := by
  have hswitch : Function.Injective fun value => "no-new-privileges=" ++ boolText value := by
    intro a b h
    exact boolText_injective (by simpa using h)
  rw [security_ext]
  simp only [securitySegments, List.cons.injEq, and_true, valued_inj, switched_inj,
    setting_inj hswitch, texts_inj Checked.asStr_injective, DistinctList.values_inj,
    setting_inj NamespaceMode.asStr_injective, setting_inj IpcNamespaceMode.asStr_injective]

theorem securityMembers_inj : securityMembers security namespaces = securityMembers other others ↔
    security = other ∧ namespaces = others := by
  have hbool : Function.Injective Value.bool := fun _ _ h => Value.bool.inj h
  have hcapabilities : Function.Injective fun capabilities : List LinuxCapability =>
      stringArray (capabilities.map Checked.asStr) :=
    stringArray_injective.comp (List.map_injective_iff.mpr Checked.asStr_injective)
  have hnamespace : Function.Injective namespaceJson := by
    intro a b h
    have hmember := congrArg (Value.member · "nsmode") h
    simpa [namespaceJson, Value.member, ofPairs, lookup_insert] using hmember
  have hmode : Function.Injective fun mode : NamespaceMode => namespaceJson mode.asStr :=
    hnamespace.comp NamespaceMode.asStr_injective
  have hipc : Function.Injective fun mode : IpcNamespaceMode => namespaceJson mode.asStr :=
    hnamespace.comp IpcNamespaceMode.asStr_injective
  rw [security_ext]
  simp only [securityMembers, List.cons.injEq, Prod.mk.injEq, true_and, and_true,
    member_inj hbool, nonEmpty_inj hcapabilities, DistinctList.values_inj, member_inj hmode,
    member_inj hipc]

end Security

section Resources

variable {resources other : ContainerResourceControls}

theorem resources_ext : resources = other ↔ resources.cpuShares = other.cpuShares ∧
    resources.cpuPeriod = other.cpuPeriod ∧ resources.cpuQuota = other.cpuQuota ∧
    resources.memoryBytes = other.memoryBytes ∧ resources.pids = other.pids ∧
    resources.rlimits = other.rlimits := by
  cases resources
  cases other
  simp

theorem resourceSegments_inj :
    resourceSegments resources = resourceSegments other ↔ resources = other := by
  have hrepr {p : ℤ → Prop} : Function.Injective fun value : { v : ℤ // p v } => value.val.repr :=
    fun _ _ h => Subtype.ext (Int.repr_injective h)
  rw [resources_ext]
  simp only [resourceSegments, List.cons.injEq, and_true, valued_inj, setting_inj hrepr,
    texts_inj rlimitCliValue_injective, DistinctList.values_inj]

theorem rlimitJson_injective : Function.Injective rlimitJson := by
  intro a b h
  have hkind := congrArg (Value.member · "type") h
  have hsoft := congrArg (Value.member · "soft") h
  have hhard := congrArg (Value.member · "hard") h
  simp [rlimitJson, Value.member, ofPairs, lookup_insert, rlimitValueJson_injective.eq_iff,
    RlimitKind.asStr_injective.eq_iff] at hkind hsoft hhard
  obtain ⟨kind, soft, hard, _⟩ := a
  cases hkind
  cases hsoft
  cases hhard
  rfl

theorem limitJson_injective : Function.Injective limitJson := by
  intro a b h
  have hmember := congrArg (Value.member · "limit") h
  simpa [limitJson, Value.member, ofPairs, lookup_insert] using hmember

theorem resourceMembers_inj :
    resourceMembers resources = resourceMembers other ↔ resources = other := by
  have hobject : Function.Injective Value.object := fun _ _ h => Value.object.inj h
  have hnumber {p : ℤ → Prop} :
      Function.Injective fun value : { v : ℤ // p v } => Value.number value.val :=
    number_injective Subtype.val_injective
  have hlimit {p : ℤ → Prop} : Function.Injective fun value : { v : ℤ // p v } =>
      limitJson value.val := limitJson_injective.comp Subtype.val_injective
  have hcpu : assemble (cpuMembers resources) = assemble (cpuMembers other) ↔
      cpuMembers resources = cpuMembers other :=
    assemble_inj_iff ["shares", "period", "quota"] (by decide) rfl rfl
  have hlimits : assemble (limitMembers resources) = assemble (limitMembers other) ↔
      limitMembers resources = limitMembers other :=
    assemble_inj_iff ["cpu", "memory", "pids"] (by decide) rfl rfl
  rw [resources_ext]
  simp only [resourceMembers, List.cons.injEq, Prod.mk.injEq, true_and, and_true,
    nonEmpty_inj hobject, hlimits, nonEmpty_inj (array_injective rlimitJson_injective),
    DistinctList.values_inj]
  simp only [limitMembers, List.cons.injEq, Prod.mk.injEq, true_and, and_true,
    nonEmpty_inj hobject, hcpu, member_inj hlimit]
  simp only [cpuMembers, List.cons.injEq, Prod.mk.injEq, true_and, and_true,
    member_inj hnumber, and_assoc]

end Resources

section Logging

variable {logging other : LoggingSettings}

def logLabelText (label : Label) : String :=
  "label=" ++ label.key.asStr ++ "=" ++ label.value.asStr

theorem logLabelText_injective : Function.Injective logLabelText := by
  intro a b h
  apply labelText_injective
  have hlist := congrArg String.toList h
  simp only [logLabelText, String.toList_append, List.append_assoc, List.append_right_inj] at hlist
  apply String.toList_injective
  simpa using hlist

theorem loggingSegments_inj : loggingSegments logging = loggingSegments other ↔ logging = other := by
  have hsize : Function.Injective fun size : LogSize => "max-size=" ++ size.val.repr := by
    intro a b h
    exact Subtype.ext (Nat.repr_injective (by simpa using h))
  have hsizes {setting : Option LogSize} :
      ∀ text ∈ setting.toList.map (fun size => "max-size=" ++ size.val.repr),
        text.toList.head? = some 'm' := by
    intro text hmem
    obtain ⟨size, -, rfl⟩ := List.mem_map.mp hmem
    simp
  have hlabels {labels : List Label} :
      ∀ text ∈ labels.map logLabelText, text.toList.head? ≠ some 'm' := by
    intro text hmem
    obtain ⟨label, -, rfl⟩ := List.mem_map.mp hmem
    simp [logLabelText]
  constructor
  · intro h
    simp only [loggingSegments, List.cons.injEq, valued_inj, and_true,
      setting_inj LogDriver.asStr_injective] at h
    obtain ⟨hdriver, htexts⟩ := h
    obtain ⟨hmaxSize, hjournald⟩ := append_inj_of_forall hsizes hsizes hlabels hlabels htexts
    have hmaxSize := (setting_inj hsize).mp hmaxSize
    have hjournald := DistinctList.ext_values ((texts_inj logLabelText_injective).mp hjournald)
    cases logging
    cases other
    cases hdriver
    cases hmaxSize
    cases hjournald
    rfl
  · rintro rfl
    rfl

/-- Labels with distinct keys are in the body up to their order. -/
theorem labelsMember_inj {maximum : ℕ} {labels others : DistinctList sameLabelKey maximum} :
    nonEmpty labelsJson labels.values = nonEmpty labelsJson others.values ↔
      labels.values.Perm others.values := by
  have hkeys (labels : DistinctList sameLabelKey maximum) : ((labels.values.map fun label =>
      (label.key.asStr, Value.string label.value.asStr)).map Prod.fst).Nodup := by
    rw [List.map_map]
    apply List.pairwise_map.mpr
    apply labels.distinct.imp
    intro a b hclash heq
    simp [sameLabelKey, Checked.asStr_injective heq] at hclash
  have hpair : Function.Injective fun label : Label =>
      (label.key.asStr, Value.string label.value.asStr) := by
    rintro ⟨key, value⟩ ⟨key', value'⟩ h
    rw [Prod.mk.injEq, Value.string.injEq] at h
    cases Checked.asStr_injective h.1
    cases Checked.asStr_injective h.2
    rfl
  exact objectMember_inj hpair (hkeys labels) (hkeys others)

theorem loggingMembers_eq : loggingMembers logging = [("log_configuration",
    nonEmpty .object (assemble (loggingConfigurationMembers logging)))] := by
  have hempty : (assemble (loggingConfigurationMembers logging)).isEmpty =
      (logging.driver.isNone && logging.maxSize.isNone && logging.journaldLabels.values.isEmpty) := by
    have hlabels : (nonEmpty labelsJson logging.journaldLabels.values).isNone =
        logging.journaldLabels.values.isEmpty := by
      cases logging.journaldLabels.values <;> rfl
    rw [assemble, isEmpty_extend]
    simp [loggingConfigurationMembers, hlabels, Bool.and_assoc]
  rw [loggingMembers, nonEmpty, hempty]

theorem loggingMembers_inj : loggingMembers logging = loggingMembers other ↔
    logging.driver = other.driver ∧ logging.maxSize = other.maxSize ∧
      logging.journaldLabels.values.Perm other.journaldLabels.values := by
  have hobject : Function.Injective Value.object := fun _ _ h => Value.object.inj h
  have hsize : Function.Injective fun size : LogSize => Value.number size.val :=
    number_injective (Nat.cast_injective.comp Subtype.val_injective)
  have hmembers : assemble (loggingConfigurationMembers logging) =
      assemble (loggingConfigurationMembers other) ↔
        loggingConfigurationMembers logging = loggingConfigurationMembers other :=
    assemble_inj_iff ["driver", "size", "labels"] (by decide) rfl rfl
  rw [loggingMembers_eq, loggingMembers_eq]
  simp only [List.cons.injEq, Prod.mk.injEq, true_and, and_true, nonEmpty_inj hobject, hmembers]
  simp only [loggingConfigurationMembers, List.cons.injEq, Prod.mk.injEq, true_and, and_true,
    member_inj (string_injective LogDriver.asStr_injective), member_inj hsize, labelsMember_inj]

end Logging

end PodmanLens
