import PodmanLens.CarriedReferences

/-!
# Dropped networks

The containers of a pod are carried, its infra networks only when no other member of its networking
is malformed: the networks decode on their own, and a malformed networking drops them. So the
relationships of an inspected object are complete exactly when this mixture does not occur.
-/

namespace PodmanLens
open Json Text

section PodParts
variable {identity : ResourceIdentity} {object : Members} {library : VersionLibrary}
  {evidence : ResourceEvidence}

theorem value_podContainer (entry : Value × ℕ) :
    (podContainer identity entry).value =
      (entry.1.asObject.bind fun container => namedText container "Id").map (entry.2, ·) := by
  rw [podContainer]
  simp only [namedText]
  cases entry.1.asObject.bind fun container => (lookup container "Id").bind Value.asNonEmptyStr <;>
    rfl

variable (identity object library evidence) in
theorem carries_podContainers :
    Carries (podReferences identity object library evidence).containerDecoding
      ((podReferences identity object library evidence).containers.map fun member =>
        .new .container member.2 ("$.Containers[" ++ toString member.1 ++ "].Id"))
      (podContainerSlots object) := by
  have hcontainers : (podReferences identity object library evidence).containers =
      (decodePodContainers identity object).value.members := rfl
  have hdecoding : (podReferences identity object library evidence).containerDecoding =
      (decodePodContainers identity object).value.relationships := rfl
  rw [hcontainers, hdecoding, decodePodContainers, podContainerSlots, arraySlots]
  cases supplied (lookup object "Containers") with
  | none => exact carries_nil
  | some containers =>
      cases containers with
      | array containers =>
          simp only [Noted.value_bind, Noted.value_pure, Noted.value_mapM]
          refine carries_elements fun entry hentry found hfound slot hslot => ?_
          refine ⟨_, List.mem_map_of_mem (List.reduceOption_mem_iff.mpr
            (List.mem_map.mpr ⟨entry, hentry, hfound⟩)), ?_⟩
          rw [value_podContainer] at hfound
          obtain ⟨id, hid, rfl⟩ := Option.map_eq_some_iff.mp hfound
          rw [List.mem_singleton.mp hslot, hid]
          rfl
      | _ => exact carries_of_malformed rfl

/-- Containers are malformed only where a slot of theirs is empty. -/
theorem none_mem_podContainerSlots
    (h : (podReferences identity object library evidence).containerDecoding.malformed = true) :
    none ∈ podContainerSlots object := by
  have hdecoding : (podReferences identity object library evidence).containerDecoding =
      (decodePodContainers identity object).value.relationships := rfl
  rw [hdecoding, decodePodContainers] at h
  rw [podContainerSlots, arraySlots]
  cases hcontainers : supplied (lookup object "Containers") with
  | none =>
      rw [hcontainers] at h
      cases h
  | some containers =>
      rw [hcontainers] at h
      cases containers with
      | array containers =>
          simp only [Noted.value_bind, Noted.value_pure, Noted.value_mapM] at h
          obtain ⟨decoded, hdecoded, hnone⟩ := List.any_eq_true.mp h
          obtain ⟨entry, hentry, rfl⟩ := List.mem_map.mp hdecoded
          refine List.mem_flatMap.mpr ⟨entry, hentry, ?_⟩
          rw [value_podContainer, Option.isNone_map, Option.isNone_iff_eq_none] at hnone
          rw [podContainerSlot, hnone]
          exact List.mem_singleton_self _
      | _ => exact List.mem_singleton_self _

theorem acceptAll_networkReference (values : List Value) (index : ℕ) :
    (∃ references, acceptAll (networkReference "$.InfraConfig.Networks") index values =
        .ok references ∧ (values.zipIdx index).flatMap infraNetworkSlot =
          references.map fun reference => some (.ofReference .network reference)) ∨
      (∃ refused, acceptAll (networkReference "$.InfraConfig.Networks") index values =
        .error refused) ∧ none ∈ (values.zipIdx index).flatMap infraNetworkSlot := by
  induction values generalizing index with
  | nil => exact Or.inl ⟨[], rfl, rfl⟩
  | cons value rest ih =>
      rw [acceptAll, List.zipIdx_cons, List.flatMap_cons]
      cases hname : value.asNonEmptyStr with
      | none =>
          refine Or.inr ⟨⟨index, by rw [networkReference, hname]; rfl⟩, ?_⟩
          rw [infraNetworkSlot, hname]
          exact List.mem_append_left _ (List.mem_singleton_self _)
      | some name =>
          rw [networkReference, hname, infraNetworkSlot, hname]
          rcases ih (index + 1) with ⟨references, haccepted, hslots⟩ | ⟨⟨refused, hrefused⟩, hnone⟩
          · refine Or.inl ⟨⟨name, elementPath "$.InfraConfig.Networks" index⟩ :: references, ?_, ?_⟩
            · simp only [Option.map_some, haccepted]
              rfl
            · rw [hslots]
              rfl
          · refine Or.inr ⟨⟨refused, ?_⟩, List.mem_append_right _ hnone⟩
            simp only [Option.map_some, hrefused]
            rfl

/-- Whether the networks decoded is decided by themselves alone. -/
theorem relationships_decodeNativeNetworking (config : Members) :
    (decodeNativeNetworking identity library evidence config "$.InfraConfig" .effective).value.2 =
      .fromField (infraConfigMembers identity library evidence config).networks := rfl

/-- The networks themselves are published only with the whole networking. -/
theorem infraNetworks_decodeNativeNetworking (config : Members) :
    infraNetworks (decodeNativeNetworking identity library evidence config "$.InfraConfig"
        .effective).value.1 =
      if (infraConfigMembers identity library evidence config).hasMalformedMember then []
      else ((infraConfigMembers identity library evidence config).networks.toOption).getD [] := by
  rw [value_decodeNativeNetworking]
  split_ifs <;> rfl

variable (identity library evidence) in
/-- A pod with an infra container decodes its configuration. -/
theorem value_decodePodNetworking {config : Members}
    (hcreate : lookup object "CreateInfra" = some (.bool true))
    (hinfra : supplied (lookup object "InfraConfig") = some (.object config)) :
    (decodePodNetworking identity library evidence object).value.relationships =
        (decodeNativeNetworking identity library evidence config "$.InfraConfig"
          .effective).value.2 ∧
      (decodePodNetworking identity library evidence object).value.networks =
        infraNetworks (decodeNativeNetworking identity library evidence config "$.InfraConfig"
          .effective).value.1 := by
  rw [decodePodNetworking, hcreate, hinfra]
  exact ⟨rfl, rfl⟩

variable (identity) in
theorem networks_cases (config : Members) :
    arraySlots infraNetworkSlot (lookup config "Networks") = [] ∨
      ((nativeNetworkReferences identity (lookup config "Networks")
          "$.InfraConfig.Networks").value.1 = .malformed ∧
        none ∈ arraySlots infraNetworkSlot (lookup config "Networks")) ∨
      ∃ references : List NativeResourceReference,
        (nativeNetworkReferences identity (lookup config "Networks")
          "$.InfraConfig.Networks").value.1 = .observed ⟨references, .effective⟩ ∧
        arraySlots infraNetworkSlot (lookup config "Networks") =
          references.map fun reference => some (.ofReference .network reference) := by
  rw [arraySlots, nativeNetworkReferences, Noted.value_bind, Noted.value_pure, listField]
  cases supplied (lookup config "Networks") with
  | none => exact Or.inl rfl
  | some networks =>
      cases networks with
      | array values =>
          rcases acceptAll_networkReference values 0 with
            ⟨references, haccepted, hslots⟩ | ⟨⟨refused, hrefused⟩, hnone⟩
          · simp only [haccepted]
            exact Or.inr (Or.inr ⟨references, rfl, hslots⟩)
          · simp only [hrefused]
            exact Or.inr (Or.inl ⟨rfl, hnone⟩)
      | _ => exact Or.inr (Or.inl ⟨rfl, List.mem_singleton_self _⟩)

variable (identity object library evidence) in
/-- The infra networks are empty, refused, or all of them decode. -/
theorem infraNetworks_cases :
    infraNetworkSlots object = [] ∨
      ((podReferences identity object library evidence).networkingDecoding.malformed = true ∧
        none ∈ infraNetworkSlots object) ∨
      ∃ references : List NativeResourceReference,
        (podReferences identity object library evidence).networkingDecoding = ⟨true, false⟩ ∧
        infraNetworkSlots object =
          references.map (fun reference => some (.ofReference .network reference)) ∧
        (podReferences identity object library evidence).infraNetworks =
          if ((NetworkingSource.pod object).members identity library evidence).hasMalformedMember
          then [] else references := by
  have hdecoding : (podReferences identity object library evidence).networkingDecoding =
      (decodePodNetworking identity library evidence object).value.relationships := rfl
  have hnetworks : (podReferences identity object library evidence).infraNetworks =
      (decodePodNetworking identity library evidence object).value.networks := rfl
  rw [hdecoding, hnetworks]
  by_cases hcreate : lookup object "CreateInfra" = some (.bool true)
  · rw [infraNetworkSlots, memberSlots, hcreate]
    cases hinfra : supplied (lookup object "InfraConfig") with
    | none => exact Or.inl rfl
    | some infra =>
        cases infra with
        | object config =>
            have hmembers : (NetworkingSource.pod object).members identity library evidence =
                infraConfigMembers identity library evidence config := by
              rw [NetworkingSource.members, NetworkingSource.objectMember, supplied_eq_some hinfra]
              rfl
            have hfield : (infraConfigMembers identity library evidence config).networks =
                (nativeNetworkReferences identity (lookup config "Networks")
                  "$.InfraConfig.Networks").value.1 := rfl
            obtain ⟨hrelationships, hpublished⟩ := value_decodePodNetworking identity
              library evidence hcreate hinfra
            rw [hrelationships, hpublished, relationships_decodeNativeNetworking,
              infraNetworks_decodeNativeNetworking, hmembers, hfield]
            rcases networks_cases identity config with h | ⟨h, hnone⟩ |
              ⟨references, h, hslots⟩
            · exact Or.inl h
            · refine Or.inr (Or.inl ⟨?_, hnone⟩)
              rw [h]
              rfl
            · refine Or.inr (Or.inr ⟨references, ?_, hslots, ?_⟩)
              · rw [h]
                rfl
              · rw [h]
                rfl
        | _ =>
            refine Or.inr (Or.inl ⟨?_, List.mem_singleton_self _⟩)
            rw [decodePodNetworking, hcreate, hinfra]
            rfl
  · refine Or.inl ?_
    rw [infraNetworkSlots]
    split
    · contradiction
    · rfl

end PodParts

namespace NetworkingSource
variable (identity : ResourceIdentity) (library : VersionLibrary) (evidence : ResourceEvidence)

/-- The relationships that decoding the object publishes. -/
def relationships : NetworkingSource → ObservationField (List NativeRelationship)
  | .container object => (containerReferences identity object).field
  | .pod object => (podReferences identity object library evidence).field

/-- The references that the object carries. -/
def referenceSlots : NetworkingSource → List ReferenceSlot
  | .container object => containerSlots object
  | .pod object => podReferenceSlots object

/-- A pod with infra networks whose references all decode, beside a malformed networking member. -/
def DropsNetworks : NetworkingSource → Prop
  | .container _ => False
  | .pod object => none ∉ podReferenceSlots object ∧ infraNetworkSlots object ≠ [] ∧
      ((pod object).members identity library evidence).hasMalformedMember = true

variable {identity library evidence}

theorem none_not_mem_of_carries {decoding : RelationshipDecoding}
    {relationships : List NativeRelationship} {slots : List ReferenceSlot}
    (h : Carries decoding relationships slots) (hformed : decoding.malformed = false) :
    none ∉ slots := by
  intro hnone
  rcases h with h | h
  · exact absurd (h.symm.trans hformed) Bool.noConfusion
  · obtain ⟨-, relationship, -, hslot⟩ := h none hnone
    cases hslot

/-- Without the mixture the infra networks of a pod are carried as well. -/
theorem carries_pod_of_not_drops {object : Members}
    (h : ¬(pod object).DropsNetworks identity library evidence) :
    Carries ((podReferences identity object library evidence).containerDecoding.merge
        (podReferences identity object library evidence).networkingDecoding)
      (podReferences identity object library evidence).relationships
      (podReferenceSlots object) := by
  have hcontainers := carries_podContainers identity object library evidence
  by_cases hempty : infraNetworkSlots object = []
  · exact hcontainers.append (hempty ▸ carries_nil)
  rcases infraNetworks_cases identity object library evidence with
    hslots | ⟨hmalformed, -⟩ | ⟨references, hdecoding, hslots, hnetworks⟩
  · exact absurd hslots hempty
  · exact hcontainers.append (carries_of_malformed hmalformed)
  · cases hmember : ((pod object).members identity library evidence).hasMalformedMember with
    | true =>
        -- another slot is empty, and it is one of the containers
        have hnone : none ∈ podReferenceSlots object := by
          by_contra hfilled
          exact h ⟨hfilled, hempty, hmember⟩
        have hcontainer : none ∈ podContainerSlots object := by
          rcases List.mem_append.mp hnone with hnone | hnone
          · exact hnone
          · rw [hslots] at hnone
            obtain ⟨_, -, habsurd⟩ := List.mem_map.mp hnone
            cases habsurd
        refine carries_of_malformed ?_
        rw [RelationshipDecoding.merge, Bool.or_eq_true]
        by_contra hformed
        rw [not_or, Bool.not_eq_true] at hformed
        exact none_not_mem_of_carries hcontainers hformed.1 hcontainer
    | false =>
        refine hcontainers.append ?_
        rw [hdecoding, hslots, hnetworks, hmember]
        refine Or.inr fun slot hslot => ⟨rfl, ?_⟩
        obtain ⟨reference, hreference, rfl⟩ := List.mem_map.mp hslot
        exact ⟨_, List.mem_map_of_mem hreference, rfl⟩

/-- The mixture loses the infra networks and keeps the rest. -/
theorem not_carries_pod_of_drops {object : Members}
    (h : (pod object).DropsNetworks identity library evidence) :
    ¬Carries ((podReferences identity object library evidence).containerDecoding.merge
        (podReferences identity object library evidence).networkingDecoding)
      (podReferences identity object library evidence).relationships
      (podReferenceSlots object) := by
  obtain ⟨hfilled, hempty, hmember⟩ := h
  intro hcarries
  have hcontainers : (podReferences identity object library evidence).containerDecoding.malformed =
      false := by
    rw [← Bool.not_eq_true]
    exact fun hmalformed => hfilled (List.mem_append_left _ (none_mem_podContainerSlots hmalformed))
  rcases infraNetworks_cases identity object library evidence with
    hslots | ⟨-, hnone⟩ | ⟨references, hdecoding, hslots, hnetworks⟩
  · exact hempty hslots
  · exact hfilled (List.mem_append_right _ hnone)
  rw [hmember, if_pos rfl] at hnetworks
  rcases hcarries with hmalformed | hcarries
  · rw [RelationshipDecoding.merge, hcontainers, hdecoding] at hmalformed
    cases hmalformed
  · cases references with
    | nil => exact hempty hslots
    | cons reference rest =>
        obtain ⟨-, relationship, hmem, hslot⟩ := hcarries (some (.ofReference .network reference))
          (List.mem_append_right _ (hslots ▸ List.mem_cons_self))
        rw [PodReferences.relationships, hnetworks, List.map_nil, List.append_nil] at hmem
        obtain ⟨member, -, rfl⟩ := List.mem_map.mp hmem
        exact absurd (congrArg NativeRelationship.kind (Option.some.inj hslot))
          ResourceKind.noConfusion

theorem relationshipsComplete_iff (source : NetworkingSource) :
    CompleteRelationships (source.relationships identity library evidence)
        source.referenceSlots ↔ ¬source.DropsNetworks identity library evidence := by
  cases source with
  | container object =>
      exact iff_of_true (completeRelationships_iff.mpr carries_container) not_false
  | pod object =>
      refine completeRelationships_iff.trans ⟨fun hcarries hdrops => ?_, carries_pod_of_not_drops⟩
      exact not_carries_pod_of_drops hdrops hcarries

def hiddenNetworkPod : NetworkingSource :=
  .pod [("CreateInfra", .bool true), ("InfraConfig", .object
    [("HostNetwork", .string "yes"), ("Networks", .array [.string "front"])])]

/-- The flag is no boolean, and the network of the pod is missing from an observed list. -/
theorem hiddenNetworkPod_incomplete :
    hiddenNetworkPod.referenceSlots =
        [some (.new .network "front" "$.InfraConfig.Networks[0]")] ∧
      (hiddenNetworkPod.relationships webIdentity releaseLibrary newestEvidence).toOption =
        some [] ∧
      ¬CompleteRelationships
        (hiddenNetworkPod.relationships webIdentity releaseLibrary newestEvidence)
        hiddenNetworkPod.referenceSlots := by
  have hslots : hiddenNetworkPod.referenceSlots =
      [some (.new .network "front" "$.InfraConfig.Networks[0]")] := by decide +kernel
  have hfield : hiddenNetworkPod.relationships webIdentity releaseLibrary newestEvidence =
      .observed ⟨[], .effective⟩ := by decide +kernel
  refine ⟨hslots, by rw [hfield]; rfl, ?_⟩
  rw [hslots, hfield]
  rintro (h | h)
  · cases h
  · obtain ⟨relationship, hmem, -⟩ := h _ List.mem_cons_self
    exact absurd hmem List.not_mem_nil

end NetworkingSource

end PodmanLens
