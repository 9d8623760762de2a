import PodmanLens.Fields
import PodmanLens.Json
import PodmanLens.Observation

/-!
# Bind specifications

A bind specification names a source and a destination and may end in comma-separated options. A
creation command is read from the left, so the options start at the second colon. The native bind
list is read from the right, so its options start at the last colon. Both report a mount only where
the options relabel it.
-/

namespace PodmanLens
open Text Json

structure InventoryFinding where
  code : DiagnosticCode
  resource : Option ResourceIdentity := none
  fieldPath : Option String := none
  occurrence : Option ℕ := none
  deriving DecidableEq

namespace InventoryFinding

def field (code : DiagnosticCode) (resource : ResourceIdentity) (fieldPath : String) :
    InventoryFinding := ⟨code, some resource, some fieldPath, none⟩

def atOccurrence (code : DiagnosticCode) (resource : ResourceIdentity) (fieldPath : String)
    (occurrence : ℕ) : InventoryFinding := ⟨code, some resource, some fieldPath, some occurrence⟩

end InventoryFinding

def splitFirst (separator : Char) (text : String) : Option (String × String) :=
  (splitOnce separator text.toList).map fun parts => (String.ofList parts.1, String.ofList parts.2)

def splitLast (separator : Char) (text : String) : Option (String × String) :=
  (rsplitOnce separator text.toList).map fun parts => (String.ofList parts.1, String.ofList parts.2)

inductive ContainerMountSelinuxRelabel
  | shared
  | «private»
  deriving DecidableEq

section Tokens

def relabelToken : String → Option ContainerMountSelinuxRelabel
  | "z" => some .shared
  | "Z" => some .private
  | _ => none

/-- The relabel of the tokens so far, or a conflict between two of them. -/
def selinuxRelabelFromTokens (relabel : Option ContainerMountSelinuxRelabel) :
    List String → Except Unit (Option ContainerMountSelinuxRelabel)
  | [] => .ok relabel
  | token :: tokens =>
    match relabelToken token with
    | none => selinuxRelabelFromTokens relabel tokens
    | some candidate =>
      if relabel.any (· != candidate) then .error ()
      else selinuxRelabelFromTokens (some candidate) tokens

def parseVolumeRelabel (options : String) : Except Unit (Option ContainerMountSelinuxRelabel) :=
  selinuxRelabelFromTokens none (fields ',' options)

end Tokens

section CreationCommand

structure ParsedCreateMount where
  source : String
  destination : String
  relabel : ContainerMountSelinuxRelabel
  deriving DecidableEq

inductive ParsedCreateMountRelabel
  | irrelevant
  | observed (mount : ParsedCreateMount)
  | malformed
  | unavailable
  deriving DecidableEq

/-- At most three parts: source, destination and options. -/
def volumeParts (value : String) : Option (String × String × Option String) :=
  (splitFirst ':' value).map fun (source, rest) =>
    match splitFirst ':' rest with
    | none => (source, rest, none)
    | some (destination, options) => (source, destination, some options)

def parseVolumeMountRelabel (value : String) : ParsedCreateMountRelabel :=
  match volumeParts value with
  | none => .malformed
  | some (source, destination, options) =>
    if source.isEmpty || destination.isEmpty then .malformed
    else
      match options with
      | none => .irrelevant
      | some options =>
        match parseVolumeRelabel options with
        | .ok (some relabel) => .observed ⟨source, destination, relabel⟩
        | .ok none => .irrelevant
        | .error () => .unavailable

structure StructuredMount where
  source : Option String := none
  destination : Option String := none
  relabel : Option ContainerMountSelinuxRelabel := none

/-- One part of a structured mount, or the state that ends its reading. -/
def structuredPart (mount : StructuredMount) (part : String) :
    Except ParsedCreateMountRelabel StructuredMount :=
  match splitFirst '=' part with
  | none =>
    if ["relabel", "source", "src", "destination", "dst", "target"].contains part then
      .error .malformed
    else if ["ro", "rw", "bind-nonrecursive", "nosuid", "nodev", "noexec"].contains part then
      .ok mount
    else .error .unavailable
  | some (key, value) =>
    if ["source", "src"].contains key then
      if value.isEmpty then .error .malformed
      else if mount.source.isSome then .error .unavailable
      else .ok { mount with source := some value }
    else if ["destination", "dst", "target"].contains key then
      if value.isEmpty then .error .malformed
      else if mount.destination.isSome then .error .unavailable
      else .ok { mount with destination := some value }
    else if key = "relabel" then
      if !(["shared", "private"].contains value) then .error .malformed
      else if mount.relabel.isSome then .error .unavailable
      else .ok { mount with relabel := some (if value = "shared" then .shared else .private) }
    else if key = "type" ∧ value = "bind" then .ok mount
    else .error .unavailable

def parseStructuredMountRelabel (value : String) : ParsedCreateMountRelabel :=
  match (fields ',' value).foldlM structuredPart {} with
  | .error state => state
  | .ok mount =>
    match mount.relabel with
    | none => .irrelevant
    | some relabel =>
      match mount.source, mount.destination with
      | some source, some destination => .observed ⟨source, destination, relabel⟩
      | _, _ => .malformed

inductive CreateMountKind
  | volume
  | mount
  deriving DecidableEq

def parseCreateMountRelabel (kind : CreateMountKind) (value : String) : ParsedCreateMountRelabel :=
  match kind with
  | .volume => parseVolumeMountRelabel value
  | .mount => parseStructuredMountRelabel value

end CreationCommand

section NativeBinds

structure NativeBindSelinuxRelabel where
  source : String
  destination : String
  relabel : ContainerMountSelinuxRelabel
  deriving DecidableEq

structure BindDecoding where
  decoded : List NativeBindSelinuxRelabel := []
  malformed : Bool := false
  findings : List InventoryFinding := []

def bindsPath : String := "$.HostConfig.Binds"

def BindDecoding.refuse (state : BindDecoding) (identity : ResourceIdentity) (index : ℕ) :
    BindDecoding :=
  { state with
    malformed := true
    findings := state.findings ++ [.atOccurrence .resourceMalformed identity bindsPath index] }

/-- A binding without options relabels nothing, a repeated mount has to agree. -/
def decodeBinding (identity : ResourceIdentity) (state : BindDecoding) (entry : Value × ℕ) :
    BindDecoding :=
  match entry.1 with
  | .string binding =>
    match splitLast ':' binding with
    | none => state
    | some (mount, options) =>
      match selinuxRelabelFromTokens none (fields ',' options) with
      | .ok none => state
      | .error () => state.refuse identity entry.2
      | .ok (some relabel) =>
        match splitFirst ':' mount with
        | none => state.refuse identity entry.2
        | some (source, destination) =>
          if source.isEmpty || destination.isEmpty then state.refuse identity entry.2
          else
            match state.decoded.find? fun candidate =>
                candidate.source == source && candidate.destination == destination with
            | some previous =>
              if previous.relabel ≠ relabel then state.refuse identity entry.2 else state
            | none => { state with decoded := state.decoded ++ [⟨source, destination, relabel⟩] }
  | _ => state.refuse identity entry.2

def decodeNativeBindSelinuxRelabels (object : Members) (identity : ResourceIdentity) :
    Except Unit (List NativeBindSelinuxRelabel) × List InventoryFinding :=
  match (lookup object "HostConfig").bind (·.member "Binds") with
  | none | some .null => (.ok [], [])
  | some (.array bindings) =>
    let state := bindings.zipIdx.foldl (decodeBinding identity) {}
    (if state.malformed then .error () else .ok state.decoded, state.findings)
  | some _ => (.error (), [.field .resourceMalformed identity bindsPath])

end NativeBinds

section Agreement

theorem tokens_some_ne (relabel : ContainerMountSelinuxRelabel) (tokens : List String) :
    selinuxRelabelFromTokens (some relabel) tokens ≠ .ok none := by
  induction tokens generalizing relabel with
  | nil => simp [selinuxRelabelFromTokens]
  | cons token tokens ih =>
      rw [selinuxRelabelFromTokens]
      cases relabelToken token with
      | none => exact ih relabel
      | some candidate =>
          dsimp only
          split_ifs
          · simp
          · exact ih candidate

/-- Options relabel nothing exactly when none of them is a relabel token. -/
theorem tokens_eq_none_iff {tokens : List String} :
    selinuxRelabelFromTokens none tokens = .ok none ↔
      ∀ token ∈ tokens, relabelToken token = none := by
  induction tokens with
  | nil => simp [selinuxRelabelFromTokens]
  | cons token tokens ih =>
      rw [selinuxRelabelFromTokens, List.forall_mem_cons, ← ih]
      cases htoken : relabelToken token with
      | none => simp
      | some candidate => simp [tokens_some_ne candidate tokens]

/-- A source and a destination without colons, and options without colons where there are any. -/
structure BindSpec where
  source : String
  destination : String
  options : Option String
  hsource : source.isEmpty = false ∧ ':' ∉ source.toList
  hdestination : destination.isEmpty = false ∧ ':' ∉ destination.toList
  hoptions : ∀ text ∈ options, ':' ∉ text.toList

namespace BindSpec

def text (spec : BindSpec) : String :=
  match spec.options with
  | none => spec.source ++ ":" ++ spec.destination
  | some options => spec.source ++ ":" ++ spec.destination ++ ":" ++ options

/-- No part of the destination reads as a relabel option. -/
def PlainDestination (spec : BindSpec) : Prop :=
  ∀ token ∈ fields ',' spec.destination, relabelToken token = none

variable (spec : BindSpec) {object : Members} (identity : ResourceIdentity)

theorem splitFirst_append {before : String} (h : ':' ∉ before.toList) (after : String) :
    splitFirst ':' (before ++ ":" ++ after) = some (before, after) := by
  have hlist : (before ++ ":" ++ after).toList = before.toList ++ ':' :: after.toList := by simp
  rw [splitFirst, hlist, splitOnce_append h]
  simp

theorem splitFirst_none {text : String} (h : ':' ∉ text.toList) : splitFirst ':' text = none := by
  rw [splitFirst, splitOnce_eq_none h]
  rfl

theorem splitLast_append {after : String} (h : ':' ∉ after.toList) (before : String) :
    splitLast ':' (before ++ ":" ++ after) = some (before, after) := by
  have hlist : (before ++ ":" ++ after).toList = before.toList ++ ':' :: after.toList := by simp
  rw [splitLast, hlist, rsplitOnce_eq_some.mpr ⟨h, rfl⟩]
  simp

theorem volumeParts_text :
    volumeParts spec.text = some (spec.source, spec.destination, spec.options) := by
  rw [volumeParts, text]
  cases hoptions : spec.options with
  | none =>
      dsimp only
      rw [splitFirst_append spec.hsource.2, Option.map_some, splitFirst_none spec.hdestination.2]
  | some options =>
      have hassoc : spec.source ++ ":" ++ spec.destination ++ ":" ++ options =
          spec.source ++ ":" ++ (spec.destination ++ ":" ++ options) := by
        simp only [String.append_assoc]
      dsimp only
      rw [hassoc, splitFirst_append spec.hsource.2, Option.map_some,
        splitFirst_append spec.hdestination.2]

/-- The native bind list of an object that carries one binding. -/
def Carries (object : Members) : Prop :=
  (lookup object "HostConfig").bind (·.member "Binds") = some (.array [.string spec.text])

/-- What the two parsers say about one binding. -/
structure Agrees (object : Members) (identity : ResourceIdentity) : Prop where
  observed : ∀ relabel, parseCreateMountRelabel .volume spec.text =
      .observed ⟨spec.source, spec.destination, relabel⟩ ↔
    (decodeNativeBindSelinuxRelabels object identity).1 =
      .ok [⟨spec.source, spec.destination, relabel⟩]
  irrelevant : parseCreateMountRelabel .volume spec.text = .irrelevant ↔
    (decodeNativeBindSelinuxRelabels object identity).1 = .ok []
  failed : (parseCreateMountRelabel .volume spec.text = .malformed ∨
      parseCreateMountRelabel .volume spec.text = .unavailable) ↔
    (decodeNativeBindSelinuxRelabels object identity).1 = .error ()

variable {spec}

theorem parse_of_options {options : String} (hoptions : spec.options = some options)
    {result : Except Unit (Option ContainerMountSelinuxRelabel)}
    (hresult : selinuxRelabelFromTokens none (fields ',' options) = result) :
    parseCreateMountRelabel .volume spec.text =
      result.casesOn (fun _ => .unavailable) fun relabel =>
        relabel.casesOn .irrelevant fun relabel =>
          .observed ⟨spec.source, spec.destination, relabel⟩ := by
  rw [parseCreateMountRelabel, parseVolumeMountRelabel, volumeParts_text, hoptions]
  simp only [spec.hsource.1, spec.hdestination.1, Bool.or_false, Bool.false_eq_true, if_false,
    parseVolumeRelabel, hresult]
  rcases result with ⟨⟩ | (_ | relabel) <;> rfl

theorem parse_of_none (hoptions : spec.options = none) :
    parseCreateMountRelabel .volume spec.text = .irrelevant := by
  rw [parseCreateMountRelabel, parseVolumeMountRelabel, volumeParts_text, hoptions]
  simp [spec.hsource.1, spec.hdestination.1]

theorem decode_of_carries (h : spec.Carries object) :
    (decodeNativeBindSelinuxRelabels object identity).1 =
      if (decodeBinding identity {} (.string spec.text, 0)).malformed then .error ()
      else .ok (decodeBinding identity {} (.string spec.text, 0)).decoded := by
  rw [decodeNativeBindSelinuxRelabels, h]
  rfl

theorem decode_of_options (h : spec.Carries object) {options : String}
    (hoptions : spec.options = some options)
    {result : Except Unit (Option ContainerMountSelinuxRelabel)}
    (hresult : selinuxRelabelFromTokens none (fields ',' options) = result) :
    (decodeNativeBindSelinuxRelabels object identity).1 =
      result.map fun relabel =>
        relabel.toList.map fun relabel => ⟨spec.source, spec.destination, relabel⟩ := by
  have hsplit : splitLast ':' spec.text =
      some (spec.source ++ ":" ++ spec.destination, options) := by
    rw [text, hoptions]
    exact splitLast_append (spec.hoptions options hoptions) _
  rw [decode_of_carries identity h, decodeBinding]
  simp only [hsplit, hresult, splitFirst_append spec.hsource.2, spec.hsource.1,
    spec.hdestination.1]
  rcases result with ⟨⟩ | (_ | relabel) <;> rfl

/-- Without options the destination is read as the options, and the source names no mount. -/
theorem decode_of_none (h : spec.Carries object) (hoptions : spec.options = none)
    {result : Except Unit (Option ContainerMountSelinuxRelabel)}
    (hresult : selinuxRelabelFromTokens none (fields ',' spec.destination) = result) :
    (decodeNativeBindSelinuxRelabels object identity).1 =
      if result = .ok none then .ok [] else .error () := by
  have hsplit : splitLast ':' spec.text = some (spec.source, spec.destination) := by
    rw [text, hoptions]
    exact splitLast_append spec.hdestination.2 _
  rw [decode_of_carries identity h, decodeBinding]
  simp only [hsplit, hresult, splitFirst_none spec.hsource.2]
  rcases result with ⟨⟩ | (_ | relabel) <;> rfl

/-- The parsers agree on a binding with options, and otherwise on a plain destination. -/
theorem agrees_iff (spec : BindSpec) {object : Members} (h : spec.Carries object)
    (identity : ResourceIdentity) :
    spec.Agrees object identity ↔ spec.options.isSome ∨ spec.PlainDestination := by
  cases hoptions : spec.options with
  | some options =>
      refine iff_of_true ?_ (Or.inl rfl)
      have hparse := parse_of_options hoptions rfl
      have hdecode := decode_of_options identity h hoptions rfl
      constructor
      all_goals
        rw [hparse, hdecode]
        rcases selinuxRelabelFromTokens none (fields ',' options) with ⟨⟩ | (_ | relabel) <;>
          simp [Except.map]
  | none =>
      have hparse := parse_of_none hoptions
      have hdecode := decode_of_none identity h hoptions rfl
      rw [PlainDestination, ← tokens_eq_none_iff]
      constructor
      · intro hagrees
        have hempty := hagrees.irrelevant.mp hparse
        rw [hdecode] at hempty
        split_ifs at hempty with htokens
        exact Or.inr htokens
      · rintro (hsome | htokens)
        · cases hsome
        · rw [if_pos htokens] at hdecode
          constructor <;> simp [hparse, hdecode]

/-- A container whose native bind list is the one binding. -/
def container (spec : BindSpec) : Members :=
  [("HostConfig", .object [("Binds", .array [.string spec.text])])]

def relabelled : BindSpec :=
  ⟨"/srv", "/data", some "ro,Z", by decide, by decide, by simp⟩

def bindIdentity : ResourceIdentity := ⟨.container, "web", none⟩

theorem carries_container (spec : BindSpec) : spec.Carries spec.container := rfl

theorem agrees_iff_sample : relabelled.Agrees relabelled.container bindIdentity :=
  (agrees_iff relabelled relabelled.carries_container bindIdentity).mpr (Or.inl rfl)

/-- A path that ends in a comma and a relabel letter, without options. -/
def commaPath : BindSpec :=
  ⟨"/srv", "/data,z", none, by decide, by decide, by simp⟩

theorem commaPath_disagrees :
    parseCreateMountRelabel .volume commaPath.text = .irrelevant ∧
      (decodeNativeBindSelinuxRelabels commaPath.container bindIdentity).1 = .error () ∧
      ¬commaPath.Agrees commaPath.container bindIdentity := by
  have hparse : parseCreateMountRelabel .volume commaPath.text = .irrelevant := by decide +kernel
  have hdecode : (decodeNativeBindSelinuxRelabels commaPath.container bindIdentity).1 =
      .error () := rfl
  refine ⟨hparse, hdecode, fun h => ?_⟩
  have hempty := h.irrelevant.mp hparse
  rw [hdecode] at hempty
  cases hempty

end BindSpec

end Agreement

end PodmanLens
