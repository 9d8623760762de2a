import Mathlib.Data.List.ReduceOption
import PodmanLens.NativeReferences
import PodmanLens.NetworkingMembers

/-!
# Carried references

An inspected container or pod carries references at fixed positions, one slot for each. A slot is
empty where no target can be read. A part of the relationships carries its slots when it is
malformed or when every slot is filled and among them. Parts compose, and the published field is
complete exactly when their composition carries all slots. Every part of a container does.
-/

namespace PodmanLens
open Json Text

abbrev ReferenceSlot := Option NativeRelationship

/-- Refused, or every slot is filled and published. -/
def CompleteRelationships (field : ObservationField (List NativeRelationship))
    (slots : List ReferenceSlot) : Prop :=
  field = .malformed ∨
    ∀ slot ∈ slots, ∃ relationship ∈ field.toOption.getD [], slot = some relationship

/-- Malformed, or supplied with every slot filled and among the relationships. -/
def Carries (decoding : RelationshipDecoding) (relationships : List NativeRelationship)
    (slots : List ReferenceSlot) : Prop :=
  decoding.malformed = true ∨ ∀ slot ∈ slots, decoding.supplied = true ∧
    ∃ relationship ∈ relationships, slot = some relationship

section Parts
variable {decoding left right : RelationshipDecoding}
  {relationships before after : List NativeRelationship} {slots front back : List ReferenceSlot}

theorem completeRelationships_iff :
    CompleteRelationships (relationshipField relationships decoding) slots ↔
      Carries decoding relationships slots := by
  rw [CompleteRelationships, Carries, relationshipField]
  by_cases hmalformed : decoding.malformed = true
  · simp [hmalformed]
  · by_cases hsupplied : decoding.supplied = true
    · simp [hmalformed, hsupplied, ObservationField.toOption]
    · simp [hmalformed, hsupplied, ObservationField.toOption]

theorem carries_nil : Carries decoding relationships [] :=
  Or.inr fun _ hslot => absurd hslot List.not_mem_nil

theorem carries_of_malformed (h : decoding.malformed = true) :
    Carries decoding relationships slots := Or.inl h

theorem carries_singleton {relationship : NativeRelationship} :
    Carries ⟨true, false⟩ [relationship] [some relationship] := by
  refine Or.inr fun slot hslot => ⟨rfl, relationship, List.mem_singleton_self _, ?_⟩
  exact List.mem_singleton.mp hslot

theorem Carries.append (hleft : Carries left before front) (hright : Carries right after back) :
    Carries (left.merge right) (before ++ after) (front ++ back) := by
  rcases hleft with hleft | hleft
  · exact Or.inl (by rw [RelationshipDecoding.merge, hleft, Bool.true_or])
  rcases hright with hright | hright
  · exact Or.inl (by rw [RelationshipDecoding.merge, hright, Bool.or_true])
  refine Or.inr fun slot hslot => ?_
  rcases List.mem_append.mp hslot with hslot | hslot
  · obtain ⟨hsupplied, relationship, hmem, hfilled⟩ := hleft slot hslot
    exact ⟨by rw [RelationshipDecoding.merge, hsupplied, Bool.true_or],
      relationship, List.mem_append_left _ hmem, hfilled⟩
  · obtain ⟨hsupplied, relationship, hmem, hfilled⟩ := hright slot hslot
    exact ⟨by rw [RelationshipDecoding.merge, hsupplied, Bool.or_true],
      relationship, List.mem_append_right _ hmem, hfilled⟩

/-- A loop that is malformed at its first refused element carries what its elements carry. -/
theorem carries_elements {α β : Type} {entries : List α} {decode : α → Option β}
    {slot : α → List ReferenceSlot}
    (h : ∀ entry ∈ entries, ∀ found, decode entry = some found → ∀ filled ∈ slot entry,
      ∃ relationship ∈ relationships, filled = some relationship) :
    Carries ⟨true, (entries.map decode).any Option.isNone⟩ relationships
      (entries.flatMap slot) := by
  by_cases hmalformed : (entries.map decode).any Option.isNone = true
  · exact Or.inl hmalformed
  refine Or.inr fun filled hfilled => ⟨rfl, ?_⟩
  obtain ⟨entry, hentry, hslot⟩ := List.mem_flatMap.mp hfilled
  cases hdecode : decode entry with
  | none =>
      refine absurd (List.any_eq_true.mpr ⟨none, ?_, rfl⟩) hmalformed
      exact hdecode ▸ List.mem_map_of_mem hentry
  | some found => exact h entry hentry found hdecode filled hslot

theorem isMalformed_elementsField {α : Type} (elements : List (Option α))
    (origin : ObservationOrigin) :
    (elementsField elements origin).isMalformed = elements.any Option.isNone := by
  rw [elementsField]
  induction elements with
  | nil => rfl
  | cons element rest ih =>
      cases element with
      | none => rfl
      | some found =>
          rw [List.mapM_cons, List.any_cons, ← ih]
          cases List.mapM id rest <;> rfl

end Parts

section Slots

/-- The slots of an array, one for a value that is none. -/
def arraySlots (slot : Value × ℕ → List ReferenceSlot) (value : Option Value) :
    List ReferenceSlot :=
  match supplied value with
  | none => []
  | some (.array values) => values.zipIdx.flatMap slot
  | some _ => [none]

/-- The slots behind an object, one for a value that is none. -/
def memberSlots (slots : Members → List ReferenceSlot) (value : Option Value) :
    List ReferenceSlot :=
  match supplied value with
  | none => []
  | some (.object members) => slots members
  | some _ => [none]

variable (object : Members)

def namedText (object : Members) (key : String) : Option String :=
  (lookup object key).bind Value.asNonEmptyStr

def imageSlots : List ReferenceSlot :=
  match supplied (lookup object "ImageName") with
  | none => []
  | some value => [value.asNonEmptyStr.map (.new .image · "$.ImageName")]

/-- An empty text names no pod. -/
def podSlots : List ReferenceSlot :=
  match supplied (lookup object "Pod") with
  | none => []
  | some value =>
    if value.asStr = some "" then [] else [value.asNonEmptyStr.map (.new .pod · "$.Pod")]

def networkSlot (entry : String × Value) : List ReferenceSlot :=
  [if entry.1.isEmpty then none else some (.new .network entry.1 (networksPath entry.1))]

def settingsNetworkSlots : List ReferenceSlot :=
  memberSlots (fun settings => memberSlots (·.flatMap networkSlot) (lookup settings "Networks"))
    (lookup object "NetworkSettings")

/-- The networks of a container in a pod belong to the pod. -/
def networkSlots : List ReferenceSlot :=
  if (namedText object "Pod").isSome then [] else settingsNetworkSlots object

def mountSlots (entry : Value × ℕ) : List ReferenceSlot :=
  match entry.1.asObject.bind fun mount => (lookup mount "Type").bind fun kind =>
      kind.asStr.map fun kind => (mount, kind) with
  | none => [none]
  | some (mount, kind) =>
    if kind = "volume" then
      [(namedText mount "Name").map (.new .volume · (elementPath "$.Mounts" entry.2 ++ ".Name"))]
    else []

def dependencySlot (entry : Value × ℕ) : List ReferenceSlot :=
  [entry.1.asNonEmptyStr.map (.new .container · (elementPath "$.Dependencies" entry.2))]

/-- A grant names its secret by identifier, by name or by both. -/
def secretSlot (entry : Value × ℕ) : List ReferenceSlot :=
  let path := elementPath "$.Config.Secrets" entry.2
  [entry.1.asObject.bind fun secret => NativeRelationship.coalesced .secret
    (((namedText secret "ID").map (NativeResourceReference.mk · (path ++ ".ID"))).toList ++
      ((namedText secret "Name").map (NativeResourceReference.mk · (path ++ ".Name"))).toList)]

/-- The references that an inspected container carries. -/
def containerSlots : List ReferenceSlot :=
  imageSlots object ++ podSlots object ++ networkSlots object ++
    arraySlots mountSlots (lookup object "Mounts") ++
    arraySlots dependencySlot (lookup object "Dependencies") ++
    memberSlots (fun config => arraySlots secretSlot (lookup config "Secrets"))
      (lookup object "Config")

def podContainerSlot (entry : Value × ℕ) : List ReferenceSlot :=
  [(entry.1.asObject.bind fun container => namedText container "Id").map
    (.new .container · ("$.Containers[" ++ toString entry.2 ++ "].Id"))]

def podContainerSlots : List ReferenceSlot :=
  arraySlots podContainerSlot (lookup object "Containers")

def infraNetworkSlot (entry : Value × ℕ) : List ReferenceSlot :=
  [entry.1.asNonEmptyStr.map (.new .network · (elementPath "$.InfraConfig.Networks" entry.2))]

def infraNetworkSlots : List ReferenceSlot :=
  match lookup object "CreateInfra" with
  | some (.bool true) =>
    memberSlots (fun config => arraySlots infraNetworkSlot (lookup config "Networks"))
      (lookup object "InfraConfig")
  | _ => []

/-- The references that an inspected pod carries. -/
def podReferenceSlots : List ReferenceSlot := podContainerSlots object ++ infraNetworkSlots object

end Slots

section Decoded
variable (identity : ResourceIdentity) (object : Members)

/-- What the decoders of a container accept, part by part. -/
def containerReferences : ContainerReferences where
  configuredImage := (optionalStringField identity (lookup object "ImageName") "$.ImageName"
    .configured).value
  podMembership := (decodeNativeReference identity (lookup object "Pod") "$.Pod").value
  networks := (decodeContainerNetworks identity object).value.accepted.map (·.reference)
  networkDecoding := (decodeContainerNetworks identity object).value.relationships
  volumes := (decodeContainerMounts identity object).value.volumes
  mountDecoding := (decodeContainerMounts identity object).value.relationships
  nativeDependencies := (decodeNativeDependencies identity (lookup object "Dependencies")).value
  secretGrants := (decodeContainerSecretGrants identity (lookup object "Config")).value.grants
  secretDecoding :=
    (decodeContainerSecretGrants identity (lookup object "Config")).value.relationships

variable (library : VersionLibrary) (evidence : ResourceEvidence)

/-- What the decoders of a pod accept, part by part. -/
def podReferences : PodReferences where
  containers := (decodePodContainers identity object).value.members
  containerDecoding := (decodePodContainers identity object).value.relationships
  infraNetworks := (decodePodNetworking identity library evidence object).value.networks
  networkingDecoding := (decodePodNetworking identity library evidence object).value.relationships

end Decoded

section ContainerParts
variable {identity : ResourceIdentity} {object : Members}

theorem asNonEmptyStr_of_ne {text : String} (h : text ≠ "") :
    (Value.string text).asNonEmptyStr = some text := by
  rw [Value.asNonEmptyStr, Value.asStr, Option.filter_some]
  simp [h]

theorem carries_image :
    Carries (.fromField (containerReferences identity object).configuredImage)
      ((containerReferences identity object).configuredImage.toOption.toList.map
        (.new .image · "$.ImageName")) (imageSlots object) := by
  have hfield : (containerReferences identity object).configuredImage =
      (optionalStringField identity (lookup object "ImageName") "$.ImageName" .configured).value :=
    rfl
  rw [hfield, optionalStringField, value_scalarField, imageSlots]
  cases supplied (lookup object "ImageName") with
  | none => exact carries_nil
  | some value =>
      cases hname : value.asNonEmptyStr with
      | none =>
          simp only [Option.map_some, hname]
          exact carries_of_malformed rfl
      | some name =>
          simp only [Option.map_some, hname]
          exact carries_singleton

theorem carries_pod :
    Carries (.ofReferences (containerReferences identity object).podMembership)
      ((containerReferences identity object).podMembership.toOption.toList.map
        (.ofReference .pod)) (podSlots object) := by
  have hfield : (containerReferences identity object).podMembership =
      (decodeNativeReference identity (lookup object "Pod") "$.Pod").value := rfl
  rw [hfield, decodeNativeReference, optionalNativeReference, podSlots]
  cases supplied (lookup object "Pod") with
  | none => exact carries_nil
  | some value =>
      cases value with
      | string text =>
          by_cases htext : text = ""
          · subst htext
            exact carries_nil
          · have hempty : text.isEmpty = false := by simpa using htext
            simp only [hempty, asNonEmptyStr_of_ne htext, Value.asStr, Option.some.injEq, htext]
            exact carries_singleton
      | _ => exact carries_of_malformed rfl

theorem isSome_namedText_of_podMembership
    (h : (containerReferences identity object).podMembership.toOption.isSome = true) :
    (namedText object "Pod").isSome = true := by
  have hfield : (containerReferences identity object).podMembership =
      (decodeNativeReference identity (lookup object "Pod") "$.Pod").value := rfl
  rw [hfield, decodeNativeReference, optionalNativeReference] at h
  cases hpod : supplied (lookup object "Pod") with
  | none =>
      rw [hpod] at h
      cases h
  | some value =>
      rw [hpod] at h
      cases value with
      | string text =>
          rw [namedText, supplied_eq_some hpod]
          by_cases htext : text = ""
          · subst htext
            cases h
          · exact congrArg Option.isSome (asNonEmptyStr_of_ne htext)
      | _ => cases h

/-- An attachment is accepted under its name. -/
theorem containerNetwork_eq_some {entry : String × Value} {reference : NativeResourceReference}
    (h : (containerNetwork identity entry).value = some reference) :
    entry.1.isEmpty = false ∧ reference.reference = entry.1 := by
  rw [containerNetwork] at h
  by_cases hattachment : isAttachment entry = true
  · rw [if_pos hattachment] at h
    cases h
    exact ⟨by simpa using (Bool.and_eq_true_iff.mp hattachment).1, rfl⟩
  · rw [if_neg hattachment] at h
    cases h

theorem carries_settingsNetworks :
    Carries (containerReferences identity object).networkDecoding
      ((containerReferences identity object).networks.map fun name =>
        .new .network name ("$.NetworkSettings.Networks." ++ name))
      (settingsNetworkSlots object) := by
  have hnetworks : (containerReferences identity object).networks =
      (decodeContainerNetworks identity object).value.accepted.map (·.reference) := rfl
  have hdecoding : (containerReferences identity object).networkDecoding =
      (decodeContainerNetworks identity object).value.relationships := rfl
  rw [hnetworks, hdecoding, decodeContainerNetworks, settingsNetworkSlots, memberSlots]
  cases supplied (lookup object "NetworkSettings") with
  | none => exact carries_nil
  | some settings =>
      cases settings with
      | object settings =>
          simp only [memberSlots]
          cases supplied (lookup settings "Networks") with
          | none => exact carries_nil
          | some networks =>
              cases networks with
              | object networks =>
                  simp only [Noted.value_bind, Noted.value_pure, Noted.value_mapM,
                    isMalformed_elementsField]
                  refine carries_elements fun entry hentry found hfound slot hslot => ?_
                  obtain ⟨hname, hreference⟩ := containerNetwork_eq_some hfound
                  refine ⟨_, List.mem_map_of_mem (List.mem_map_of_mem
                    (List.reduceOption_mem_iff.mpr (List.mem_map.mpr ⟨entry, hentry, hfound⟩))), ?_⟩
                  rw [List.mem_singleton.mp hslot, hname, hreference]
                  rfl
              | _ => exact carries_of_malformed rfl
      | _ => exact carries_of_malformed rfl

theorem carries_networks :
    Carries (containerReferences identity object).ownNetworks.2
      ((containerReferences identity object).ownNetworks.1.map fun name =>
        .new .network name ("$.NetworkSettings.Networks." ++ name)) (networkSlots object) := by
  rw [networkSlots, ContainerReferences.ownNetworks]
  cases hpod : (containerReferences identity object).podMembership.toOption with
  | none =>
      by_cases hnamed : (namedText object "Pod").isSome = true
      · rw [if_pos hnamed]
        exact carries_nil
      · rw [if_neg hnamed]
        exact carries_settingsNetworks
  | some reference =>
      have hobserved : (containerReferences identity object).podMembership.toOption.isSome = true :=
        hpod ▸ rfl
      rw [if_pos (isSome_namedText_of_podMembership hobserved)]
      exact carries_nil

theorem value_requiredObservedString (value : Option Value) (path : String) :
    (requiredObservedString identity value path).value = value.bind Value.asNonEmptyStr := by
  rw [requiredObservedString]
  cases value.bind Value.asNonEmptyStr <;> rfl

/-- A mount keeps the source it was read with. -/
theorem source_of_mountMembers {relabels : Except Unit (List NativeBindSelinuxRelabel)}
    {kind : ContainerMountKind} {mount : Members} {path : String}
    {destination localBackingPath : ObservationField String} {source : ContainerMountSource}
    {found : ContainerMountObservation}
    (h : (mountMembers identity relabels kind mount path destination source
      localBackingPath).value = some found) : found.source.toOption = some source := by
  rw [mountMembers] at h
  simp only [Noted.value_bind, Noted.value_pure] at h
  split_ifs at h <;> cases h <;> rfl

theorem volume_of_containerMount {relabels : Except Unit (List NativeBindSelinuxRelabel)}
    {entry : Value × ℕ} {found : ContainerMountObservation} {slot : ReferenceSlot}
    (h : (containerMount identity relabels entry).value = some found)
    (hslot : slot ∈ mountSlots entry) :
    ∃ name, found.volume = some name ∧ slot = some
      (.new .volume name (elementPath "$.Mounts" entry.2 ++ ".Name")) := by
  rw [containerMount] at h
  rw [mountSlots] at hslot
  cases hmount : entry.1.asObject.bind fun mount => (lookup mount "Type").bind fun kind =>
      kind.asStr.map fun kind => (mount, kind) with
  | none =>
      simp only [hmount] at h
      cases h
  | some typed =>
      obtain ⟨mount, kind⟩ := typed
      simp only [hmount] at h hslot
      by_cases hkind : kind = "volume"
      · subst hkind
        rw [if_pos rfl, List.mem_singleton] at hslot
        have hmembers : ((mountedSource identity .namedVolume mount
            (elementPath "$.Mounts" entry.2)).value.map Prod.fst) =
              (namedText mount "Name").map ContainerMountSource.namedVolume := by
          simp only [mountedSource, Noted.value_bind, value_requiredObservedString, namedText]
          cases (lookup mount "Name").bind Value.asNonEmptyStr <;> rfl
        simp only [containerMountKind, Noted.value_bind] at h
        cases hsource : (mountedSource identity .namedVolume mount
            (elementPath "$.Mounts" entry.2)).value with
        | none =>
            simp only [hsource] at h
            cases h
        | some source =>
            simp only [hsource] at h
            rw [hsource, Option.map_some] at hmembers
            obtain ⟨name, hname, hvolume⟩ := Option.map_eq_some_iff.mp hmembers.symm
            refine ⟨name, ?_, by rw [hslot, hname, Option.map_some]⟩
            rw [ContainerMountObservation.volume, source_of_mountMembers h, ← hvolume]
      · rw [if_neg hkind] at hslot
        exact absurd hslot List.not_mem_nil

theorem mem_acceptedVolumes {values : List Value} {entry : Value × ℕ} {name : String}
    (decode : Value × ℕ → Option ContainerMountObservation) {found : ContainerMountObservation}
    (hentry : entry ∈ values.zipIdx) (hfound : decode entry = some found)
    (hname : found.volume = some name) :
    (entry.2, name) ∈ acceptedVolumes (values.zipIdx.map decode) := by
  have hindex : (values.zipIdx.map decode)[entry.2]? = some (some found) := by
    rw [List.getElem?_map, List.getElem?_zipIdx, List.mem_zipIdx_iff_getElem?.mp hentry,
      Option.map_some, Option.map_some, Nat.zero_add, hfound]
  refine List.mem_filterMap.mpr ⟨(some found, entry.2), ?_, ?_⟩
  · exact List.mem_zipIdx_iff_getElem?.mpr hindex
  · rw [Option.bind_some, hname, Option.map_some]

theorem volumePath (index : ℕ) :
    "$.Mounts[" ++ toString index ++ "].Name" = elementPath "$.Mounts" index ++ ".Name" := by
  have hfront : "$.Mounts[" = "$.Mounts" ++ "[" := rfl
  have hback : "].Name" = "]" ++ ".Name" := rfl
  rw [elementPath, hfront, hback, String.append_assoc, String.append_assoc, String.append_assoc,
    String.append_assoc, String.append_assoc]

theorem carries_mounts :
    Carries (containerReferences identity object).mountDecoding
      ((containerReferences identity object).volumes.map fun volume =>
        .new .volume volume.2 ("$.Mounts[" ++ toString volume.1 ++ "].Name"))
      (arraySlots mountSlots (lookup object "Mounts")) := by
  have hvolumes : (containerReferences identity object).volumes =
      (decodeContainerMounts identity object).value.volumes := rfl
  have hdecoding : (containerReferences identity object).mountDecoding =
      (decodeContainerMounts identity object).value.relationships := rfl
  rw [hvolumes, hdecoding, decodeContainerMounts, Noted.value_bind, arraySlots]
  cases supplied (lookup object "Mounts") with
  | none => exact carries_nil
  | some mounts =>
      cases mounts with
      | array mounts =>
          simp only [Noted.value_bind, Noted.value_pure, Noted.value_mapM,
            isMalformed_elementsField]
          refine carries_elements fun entry hentry found hfound slot hslot => ?_
          obtain ⟨name, hname, hfilled⟩ := volume_of_containerMount hfound hslot
          refine ⟨_, List.mem_map_of_mem (mem_acceptedVolumes
            (fun entry => (containerMount identity _ entry).value) hentry hfound hname), ?_⟩
          rw [hfilled, volumePath]
      | _ => exact carries_of_malformed rfl

theorem ok_optionalNativeReference {value : Option Value} {path : String}
    {found : Option NativeResourceReference}
    (h : (optionalNativeReference identity value path).value = .ok found) :
    found = (value.bind Value.asNonEmptyStr).map (⟨·, path⟩) := by
  cases value with
  | none =>
      cases h
      rfl
  | some value =>
      cases value with
      | null =>
          cases h
          rfl
      | string text =>
          by_cases htext : text = ""
          · subst htext
            cases h
            rfl
          · have hempty : text.isEmpty = false := by simpa using htext
            rw [Option.bind_some, asNonEmptyStr_of_ne htext, Option.map_some]
            simp only [optionalNativeReference, supplied, hempty] at h
            cases h
            rfl
      | _ => cases h

/-- The dependencies are all references, or the field is malformed. -/
theorem dependencyReferences_cases (identity : ResourceIdentity) (entries : List (Value × ℕ)) :
    (dependencyReferences identity entries).value = .malformed ∨
      ∃ references, (dependencyReferences identity entries).value =
          .observed ⟨references, .configured⟩ ∧
        entries.flatMap dependencySlot =
          references.map fun reference => some (.ofReference .container reference) := by
  induction entries with
  | nil => exact Or.inr ⟨[], rfl, rfl⟩
  | cons entry rest ih =>
      obtain ⟨value, index⟩ := entry
      rw [dependencyReferences, Noted.value_bind]
      cases hreference : (optionalNativeReference identity (some value)
          (elementPath "$.Dependencies" index)).value with
      | error => exact Or.inl rfl
      | ok found =>
          cases found with
          | none => exact Or.inl rfl
          | some reference =>
              have hslot := ok_optionalNativeReference hreference
              rcases ih with h | ⟨references, h, hslots⟩
              · simp only [Noted.value_bind, h]
                exact Or.inl rfl
              · simp only [Noted.value_bind, h]
                refine Or.inr ⟨reference :: references, rfl, ?_⟩
                rw [List.flatMap_cons, hslots, dependencySlot, List.map_cons]
                obtain ⟨name, hname, rfl⟩ := Option.map_eq_some_iff.mp hslot.symm
                rw [Option.bind_some] at hname
                simp only [hname]
                rfl

theorem carries_dependencies :
    Carries (.ofReferences (containerReferences identity object).nativeDependencies)
      (((containerReferences identity object).nativeDependencies.toOption.getD []).map
        (.ofReference .container))
      (arraySlots dependencySlot (lookup object "Dependencies")) := by
  have hfield : (containerReferences identity object).nativeDependencies =
      (decodeNativeDependencies identity (lookup object "Dependencies")).value := rfl
  rw [hfield, decodeNativeDependencies, arraySlots]
  cases supplied (lookup object "Dependencies") with
  | none => exact carries_nil
  | some values =>
      cases values with
      | array values =>
          rcases dependencyReferences_cases identity values.zipIdx with
            h | ⟨references, h, hslots⟩
          · simp only [h]
            exact carries_of_malformed rfl
          · simp only [h, hslots]
            refine Or.inr fun slot hslot => ⟨rfl, ?_⟩
            obtain ⟨reference, hmem, rfl⟩ := List.mem_map.mp hslot
            exact ⟨_, List.mem_map_of_mem hmem, rfl⟩
      | _ => exact carries_of_malformed rfl

theorem isSome_coalesced (kind : ResourceKind) {references : List NativeResourceReference}
    (h : references ≠ []) : (NativeRelationship.coalesced kind references).isSome = true := by
  have hkept (items : List NativeResourceReference) (values : List String) (hvalues : values ≠ []) :
      items.foldl (fun values item =>
        if item.reference ∈ values then values else values ++ [item.reference]) values ≠ [] := by
    induction items generalizing values with
    | nil => exact hvalues
    | cons item rest ih =>
        rw [List.foldl_cons]
        refine ih _ ?_
        split_ifs
        · exact hvalues
        · exact List.append_ne_nil_of_right_ne_nil _ (List.cons_ne_nil _ _)
  cases references with
  | nil => exact absurd rfl h
  | cons reference rest =>
      rw [NativeRelationship.coalesced]
      have hempty := hkept rest [reference.reference] (List.cons_ne_nil _ _)
      simp only [List.foldl_cons, List.not_mem_nil, if_false, List.nil_append]
      rw [if_neg (by simpa using hempty)]
      rfl

theorem secretReference_eq_some {id name : Except Unit (Option NativeResourceReference)}
    {reference : ContainerSecretReference} (h : secretReference id name = some reference) :
    id = .ok reference.id ∧ name = .ok reference.name ∧
      reference.id.toList ++ reference.name.toList ≠ [] := by
  cases id with
  | error => cases h
  | ok id =>
      cases name with
      | error => cases id <;> cases h
      | ok name =>
          cases id with
          | none =>
              cases name with
              | none => cases h
              | some name =>
                  cases h
                  exact ⟨rfl, rfl, List.cons_ne_nil _ _⟩
          | some id =>
              cases h
              exact ⟨rfl, rfl, List.cons_ne_nil _ _⟩

/-- An accepted grant keeps the reference it was read with. -/
theorem reference_of_containerSecretGrant {secret : Members} {index : ℕ}
    {found : ContainerSecretGrantObservation}
    (h : (containerSecretGrant identity (.object secret, index)).value = some found) :
    ∃ reference, found.reference = .observed ⟨reference, .configured⟩ ∧ secretReference
      (optionalNativeReference identity (lookup secret "ID")
        (elementPath "$.Config.Secrets" index ++ ".ID")).value
      (optionalNativeReference identity (lookup secret "Name")
        (elementPath "$.Config.Secrets" index ++ ".Name")).value = some reference := by
  simp only [containerSecretGrant, Value.asObject, Noted.value_bind] at h
  generalize secretReference _ _ = reference at h ⊢
  cases reference with
  | none => cases h
  | some reference =>
      generalize optionalObservedU32 identity (lookup secret "UID") _ = uid at h
      generalize optionalObservedU32 identity (lookup secret "GID") _ = gid at h
      generalize optionalObservedU32 identity (lookup secret "Mode") _ = mode at h
      obtain ⟨-, haccepted⟩ := Option.ite_none_left_eq_some.mp h
      obtain rfl := Option.some.inj haccepted
      exact ⟨reference, rfl, rfl⟩

/-- An accepted grant carries one relationship for all spellings of its secret. -/
theorem coalesced_of_containerSecretGrant {entry : Value × ℕ}
    {found : ContainerSecretGrantObservation}
    (h : (containerSecretGrant identity entry).value = some found) :
    ∃ relationship, secretSlot entry = [some relationship] ∧
      NativeRelationship.coalesced .secret
        (found.references.1.toList ++ found.references.2.toList) = some relationship := by
  obtain ⟨value, index⟩ := entry
  cases value with
  | object secret =>
      obtain ⟨reference, hobserved, hreference⟩ := reference_of_containerSecretGrant h
      obtain ⟨hid, hname, hsome⟩ := secretReference_eq_some hreference
      obtain ⟨relationship, hrelationship⟩ := Option.isSome_iff_exists.mp
        (isSome_coalesced .secret hsome)
      rw [ContainerSecretGrantObservation.references, hobserved]
      refine ⟨relationship, ?_, hrelationship⟩
      rw [ok_optionalNativeReference hid, ok_optionalNativeReference hname] at hrelationship
      simp only [secretSlot, Value.asObject, Option.bind_some, namedText, hrelationship]
  | _ => cases h

theorem carries_secrets :
    Carries (containerReferences identity object).secretDecoding
      ((containerReferences identity object).secretGrants.filterMap fun grant =>
        NativeRelationship.coalesced .secret (grant.1.toList ++ grant.2.toList))
      (memberSlots (fun config => arraySlots secretSlot (lookup config "Secrets"))
        (lookup object "Config")) := by
  have hgrants : (containerReferences identity object).secretGrants =
      (decodeContainerSecretGrants identity (lookup object "Config")).value.grants := rfl
  have hdecoding : (containerReferences identity object).secretDecoding =
      (decodeContainerSecretGrants identity (lookup object "Config")).value.relationships := rfl
  rw [hgrants, hdecoding, decodeContainerSecretGrants, memberSlots]
  cases supplied (lookup object "Config") with
  | none => exact carries_nil
  | some config =>
      cases config with
      | object config =>
          simp only [arraySlots]
          cases supplied (lookup config "Secrets") with
          | none => exact carries_nil
          | some secrets =>
              cases secrets with
              | array secrets =>
                  simp only [Noted.value_bind, Noted.value_pure, Noted.value_mapM,
                    isMalformed_elementsField]
                  refine carries_elements fun entry hentry found hfound slot hslot => ?_
                  obtain ⟨relationship, hfilled, hcoalesced⟩ :=
                    coalesced_of_containerSecretGrant hfound
                  rw [hfilled, List.mem_singleton] at hslot
                  refine ⟨relationship, List.mem_filterMap.mpr ⟨found.references, ?_, hcoalesced⟩,
                    hslot⟩
                  exact List.mem_map_of_mem (List.reduceOption_mem_iff.mpr
                    (List.mem_map.mpr ⟨entry, hentry, hfound⟩))
              | _ => exact carries_of_malformed rfl
      | _ => exact carries_of_malformed rfl

/-- Every part of a container carries its references. -/
theorem carries_container :
    Carries (containerReferences identity object).decoding
      (containerReferences identity object).relationships (containerSlots object) :=
  carries_image.append carries_pod |>.append carries_networks |>.append carries_mounts
    |>.append carries_dependencies |>.append carries_secrets

end ContainerParts

end PodmanLens
