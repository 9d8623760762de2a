import PodmanLens.CommandLines
import PodmanLens.ImageHints
import PodmanLens.NativeReferences

/-!
# Creation evidence

The creation command of a container is compared with what the inspection itself observes. The image
operand is consistent with one of the two observed spellings or contradicts both, and every option
that relabels a mount is joined with the one mount of its source and destination. An option that no
mount or more than one mount answers makes all hints unavailable; two options for one mount do not.
-/

namespace PodmanLens
open Json Text

inductive AuthoredImageSpellingHint
  | matchesConfiguredImage
  | matchesLocalImageId
  | contradictory
  deriving DecidableEq

inductive AuthoredMountRelabelHint
  | shared (mountIndex : ℕ)
  | «private» (mountIndex : ℕ)
  | contradictory (mountIndex : ℕ)
  deriving DecidableEq

def AuthoredMountRelabelHint.mountIndex : AuthoredMountRelabelHint → ℕ
  | .shared index | .private index | .contradictory index => index

structure ContainerCreationEvidence where
  image : ObservationField AuthoredImageSpellingHint
  mountRelabels : ObservationField (List AuthoredMountRelabelHint)

def createCommandPath : String := "$.Config.CreateCommand"

def configuredCreationHint {α : Type} (value : α) : ObservationField α :=
  .observed ⟨value, .configured⟩

/-- A configuration that is no object stands for its own command. -/
def containerCreateCommand (object : Members) : Option Value :=
  match lookup object "Config" with
  | none | some .null => none
  | some (.object config) => lookup config "CreateCommand"
  | some value => some value

section Decoders
variable (identity : ResourceIdentity)

def decodeAuthoredImageSpellingHint (parsedImage : String)
    (configuredImage localImageId : ObservationField String) :
    Decoder (ObservationField AuthoredImageSpellingHint) :=
  if configuredImage.toOption.any fun value =>
      value == parsedImage || sameImageAfterDigestTagCanonicalization parsedImage value then
    return configuredCreationHint .matchesConfiguredImage
  else if localImageId.toOption.any (· == parsedImage) then
    return configuredCreationHint .matchesLocalImageId
  else if configuredImage.toOption.isNone || localImageId.toOption.isNone then return .unavailable
  else do
    noteField identity .creationEvidenceConflict createCommandPath
    return configuredCreationHint .contradictory

/-- A mount of the source and the destination that an option names. -/
def ContainerMountObservation.answers (mount : ContainerMountObservation)
    (candidate : ParsedCreateMount) : Bool :=
  mount.source.toOption.any (·.value == candidate.source) &&
    mount.destination.toOption.any (· == candidate.destination)

def relabelHint (relabel : ContainerMountSelinuxRelabel) (index : ℕ) : AuthoredMountRelabelHint :=
  match relabel with
  | .shared => .shared index
  | .private => .private index

/-- The hint of one option, unless its mount is missing, ambiguous or not relabelled. -/
def correlateAuthoredMount (mounts : List ContainerMountObservation)
    (candidate : ParsedCreateMount) : Decoder (Option AuthoredMountRelabelHint) :=
  match mounts.zipIdx.filter fun entry => entry.1.answers candidate with
  | [(mount, index)] =>
    match mount.selinuxRelabel with
    | .observed relabel =>
      if relabel.value = candidate.relabel then return some (relabelHint candidate.relabel index)
      else do
        noteOccurrence identity .creationEvidenceConflict createCommandPath index
        return some (.contradictory index)
    | _ => return none
  | _ => return none

/-- The hints of all options, up to the first one without a hint. -/
def correlateAuthoredMounts (mounts : List ContainerMountObservation) :
    List ParsedCreateMount → Decoder (Option (List AuthoredMountRelabelHint))
  | [] => return some []
  | candidate :: rest => do
    match ← correlateAuthoredMount identity mounts candidate with
    | none => return none
    | some hint => return (← correlateAuthoredMounts mounts rest).map (hint :: ·)

def correlateAuthoredMountRelabels (parsedMounts : List ParsedCreateMount)
    (mounts : ObservationField (List ContainerMountObservation)) :
    Decoder (ObservationField (List AuthoredMountRelabelHint)) :=
  if parsedMounts.isEmpty then return configuredCreationHint []
  else
    match mounts.toOption with
    | none => return .unavailable
    | some inspectMounts => do
      return match ← correlateAuthoredMounts identity inspectMounts parsedMounts with
        | none => .unavailable
        | some relabels => configuredCreationHint relabels

def decodeContainerCreationEvidence (value : Option Value)
    (configuredImage localImageId : ObservationField String)
    (mounts : ObservationField (List ContainerMountObservation)) :
    Decoder (ObservationField ContainerCreationEvidence) :=
  match parseCreateCommand value with
  | .absent => return .absent
  | .malformed => nativeMalformedField identity createCommandPath
  | .unavailable => return .unavailable
  | .parsed command => do
    let image ← decodeAuthoredImageSpellingHint identity command.image configuredImage localImageId
    let mountRelabels ← match command.mountRelabels with
      | .observed parsedMounts => correlateAuthoredMountRelabels identity parsedMounts mounts
      | .malformed => nativeMalformedField identity createCommandPath
      | .unavailable => pure .unavailable
    return configuredCreationHint ⟨image, mountRelabels⟩

def mountObservations (object : Members) : ObservationField (List ContainerMountObservation) :=
  (decodeContainerMounts identity object).value.field

/-- The evidence that decoding a container observes. -/
def creationEvidence (object : Members) : ObservationField ContainerCreationEvidence :=
  (decodeContainerCreationEvidence identity (containerCreateCommand object)
    (optionalStringField identity (lookup object "ImageName") "$.ImageName" .configured).value
    (optionalStringField identity (lookup object "Image") "$.Image" .localResolution).value
    (mountObservations identity object)).value

end Decoders

section Soundness

variable {identity : ResourceIdentity} {mounts : List ContainerMountObservation}

/-- Related lists have distinct images together when equal images correspond. -/
theorem nodup_map_iff {α β γ δ : Type} {R : α → β → Prop} {f : α → γ} {g : β → δ}
    (hiff : ∀ {a a' : α} {b b' : β}, R a b → R a' b' → (f a = f a' ↔ g b = g b'))
    {front : List α} {back : List β} (h : List.Forall₂ R front back) :
    (front.map f).Nodup ↔ (back.map g).Nodup := by
  induction h with
  | nil => simp
  | @cons a b front back hab hrest ih =>
      have hmem : f a ∈ front.map f ↔ g b ∈ back.map g := by
        clear ih
        induction hrest with
        | nil => simp
        | cons hhead _ ih =>
            rw [List.map_cons, List.map_cons, List.mem_cons, List.mem_cons, hiff hab hhead, ih]
      rw [List.map_cons, List.map_cons, List.nodup_cons, List.nodup_cons, hmem, ih]

end Soundness

section Claims
variable {identity : ResourceIdentity} {object : Members} {hints : List AuthoredMountRelabelHint}

end Claims

end PodmanLens
