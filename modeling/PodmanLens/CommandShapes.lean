import PodmanLens.ContainerOptions

/-!
# The shape of every invocation

Each rendered invocation is two command words, options that its command takes, and its operands.
Only the creation of a container has options in the short volume syntax.
-/

namespace PodmanLens
open Options

section Commands

/-- The words an invocation ends in: names, references, and the words of a command. -/
def operands (sources : ManagedImageSources) (operation : DeploymentOperation) : List String :=
  match operation.resourceIntent with
  | .network network => [network.identity.val.name]
  | .volume volume => [volume.identity.val.name]
  | .secret secret => [secret.identity.val.name, "-"]
  | .image image => [image.source.asStr]
  | .pod pod => if operation.id.action = .startPod then [pod.identity.val.name] else []
  | .container container =>
    if operation.id.action = .startContainer then [container.identity.val.name]
    else renderedImage sources container :: commandWords container
  | .externalPrecondition _ => []

/-- How many of the last words are operands. -/
def operandCount (operation : DeploymentOperation) : ℕ :=
  match operation.resourceIntent with
  | .network _ | .volume _ | .image _ => 1
  | .secret _ => 2
  | .pod _ => if operation.id.action = .startPod then 1 else 0
  | .container container =>
    if operation.id.action = .startContainer then 1 else (commandWords container).length + 1
  | .externalPrecondition _ => 0

theorem length_operands (sources : ManagedImageSources) (operation : DeploymentOperation) :
    (operands sources operation).length = operandCount operation := by
  rw [operands, operandCount]
  cases operation.resourceIntent with
  | network | volume | secret | image | externalPrecondition => rfl
  | pod pod =>
      dsimp only
      split_ifs <;> rfl
  | container container =>
      dsimp only
      split_ifs <;> rfl

/-- The options that the command of an operation takes. -/
def commandGroups : DeploymentResource → List Group
  | .network _ => [.taking "--subnet", .taking "--gateway", .taking "--ip-range", .taking "--route"]
  | .volume _ => [.taking "--uid", .taking "--gid"]
  | .image _ =>
    [⟨["--policy=always", "--policy=missing", "--policy=never", "--policy=newer"], false⟩]
  | .pod _ => podGroups
  | .container _ => containerGroups
  | .secret _ | .externalPrecondition _ => []

theorem wellFormed_commandGroups (resource : DeploymentResource) :
    WellFormed (commandGroups resource) := by
  cases resource with
  | pod => exact wellFormed_podGroups
  | container => exact wellFormed_containerGroups
  | network | volume | image | secret | externalPrecondition =>
      rw [commandGroups]
      decide

/-- The values of the short volume syntax among the mounts of a created container. -/
def volumeTexts (operation : DeploymentOperation) : List String :=
  match operation.resourceIntent with
  | .container container =>
    if operation.id.action = .startContainer then []
    else valuesOf "--volume" (container.mounts.map mountOption)
  | _ => []

/-- Two command words, options of the command, and the operands. -/
structure CommandShape (sources : ManagedImageSources) (operation : DeploymentOperation)
    (cliSuffix command : List String) (segments : List (List Occurrence)) : Prop where
  command_mem : command ∈ commandPaths
  grouped : Grouped (commandGroups operation.resourceIntent) segments
  cliSuffix_eq : cliSuffix = command ++ encode segments.flatten ++ operands sources operation
  volumes : valuesOf "--volume" segments.flatten = volumeTexts operation

end Commands

section Shapes

variable {operation : DeploymentOperation} {version : String} {sources : ManagedImageSources}
  {policy : SensitiveInlineRenderPolicy} {forms : RenderedForms}

def networkSegments (network : NetworkIntent) : List (List Occurrence) := [
  valued "--subnet" (network.subnets.values.map fun s => s.subnet.asStr),
  valued "--gateway" ((network.subnets.values.filterMap NetworkSubnet.gateway).map
    Net.IpAddr.display),
  valued "--ip-range" ((network.subnets.values.filterMap NetworkSubnet.range).map rangeCliValue),
  valued "--route" (network.routes.values.map networkRouteCliValue)]

theorem networkCreate_eq (network : NetworkIntent) :
    networkCreateCliArguments network = ["network", "create"] ++
      encode (networkSegments network).flatten ++ [network.identity.val.name] := by
  simp only [networkCreateCliArguments, appendNetworkCreateArguments, networkSegments,
    List.flatten_cons, List.flatten_nil, encode_append, List.append_nil, encode_valued "--subnet",
    encode_valued "--gateway", encode_valued "--ip-range", encode_valued "--route",
    List.append_assoc]

def volumeSegments (volume : VolumeIntent) : List (List Occurrence) := [
  valued "--uid" (volume.uid.toList.map fun uid => uid.val.repr),
  valued "--gid" (volume.gid.toList.map fun gid => gid.val.repr)]

theorem volumeCreate_eq (volume : VolumeIntent) :
    volumeCreateCliArguments volume = ["volume", "create"] ++
      encode (volumeSegments volume).flatten ++ [volume.identity.val.name] := by
  simp only [volumeCreateCliArguments, volumeSegments, List.flatten_cons, List.flatten_nil,
    encode_append, List.append_nil, encode_valued "--uid", encode_valued "--gid",
    List.append_assoc]

/-- Outside the creation of a container no option is a volume. -/
theorem plainShape {cliSuffix command : List String} {segments : List (List Occurrence)}
    {resource : DeploymentResource} (hresource : operation.resourceIntent = resource)
    (hcommand : command ∈ commandPaths) (hgrouped : Grouped (commandGroups resource) segments)
    (hsuffix : cliSuffix = command ++ encode segments.flatten ++ operands sources operation)
    (hvolumes : valuesOf "--volume" segments.flatten = [] ∧ volumeTexts operation = []) :
    CommandShape sources operation cliSuffix command segments where
  command_mem := hcommand
  grouped := hresource ▸ hgrouped
  cliSuffix_eq := hsuffix
  volumes := hvolumes.1.trans hvolumes.2.symm

theorem shape_network {network : NetworkIntent}
    (hresource : operation.resourceIntent = .network network) :
    CommandShape sources operation (networkCreateCliArguments network) ["network", "create"]
      (networkSegments network) := by
  have hgrouped : Grouped (commandGroups (.network network)) (networkSegments network) := by
    iterate 4 apply List.Forall₂.cons (grouped_valued _ _)
    exact .nil
  have hvolumes := hgrouped.valuesOf_eq_nil "--volume" (by rw [commandGroups]; decide)
  refine plainShape hresource (by decide) hgrouped ?_ ⟨hvolumes, by rw [volumeTexts, hresource]⟩
  rw [networkCreate_eq, operands, hresource]

theorem shape_volume {volume : VolumeIntent}
    (hresource : operation.resourceIntent = .volume volume) :
    CommandShape sources operation (volumeCreateCliArguments volume) ["volume", "create"]
      (volumeSegments volume) := by
  have hgrouped : Grouped (commandGroups (.volume volume)) (volumeSegments volume) := by
    iterate 2 apply List.Forall₂.cons (grouped_valued _ _)
    exact .nil
  have hvolumes := hgrouped.valuesOf_eq_nil "--volume" (by rw [commandGroups]; decide)
  refine plainShape hresource (by decide) hgrouped ?_ ⟨hvolumes, by rw [volumeTexts, hresource]⟩
  rw [volumeCreate_eq, operands, hresource]

theorem shape_image {image : ImageIntent} (hresource : operation.resourceIntent = .image image) :
    CommandShape sources operation
      ["image", "pull", "--policy=" ++ image.pullPolicy.asStr, image.source.asStr]
      ["image", "pull"] [[⟨"--policy=" ++ image.pullPolicy.asStr, none⟩]] := by
  have hgrouped : Grouped (commandGroups (.image image))
      [[⟨"--policy=" ++ image.pullPolicy.asStr, none⟩]] := by
    apply List.Forall₂.cons
    · intro occurrence hmem
      rw [List.mem_singleton.mp hmem]
      refine ⟨?_, rfl⟩
      cases image.pullPolicy <;> decide
    · exact .nil
  have hvolumes := hgrouped.valuesOf_eq_nil "--volume" (by rw [commandGroups]; decide)
  refine plainShape hresource (by decide) hgrouped ?_ ⟨hvolumes, by rw [volumeTexts, hresource]⟩
  rw [operands, hresource]
  rfl

theorem shape_pod {pod : PodIntent} {command : List String} {segments : List (List Occurrence)}
    {cliSuffix : List String} (hresource : operation.resourceIntent = .pod pod)
    (hcommand : command ∈ commandPaths) (hgrouped : Grouped podGroups segments)
    (hsuffix : cliSuffix = command ++ encode segments.flatten ++ operands sources operation) :
    CommandShape sources operation cliSuffix command segments := by
  have hvolumes := hgrouped.valuesOf_eq_nil "--volume" (by decide)
  exact plainShape hresource hcommand hgrouped hsuffix ⟨hvolumes, by rw [volumeTexts, hresource]⟩

/-- An invocation without options of its own. -/
theorem shape_bare {command cliSuffix : List String} (hcommand : command ∈ commandPaths)
    (hsuffix : cliSuffix = command ++ operands sources operation)
    (hvolumes : volumeTexts operation = []) :
    CommandShape sources operation cliSuffix command
      ((commandGroups operation.resourceIntent).map fun _ => []) := by
  have hflatten : ((commandGroups operation.resourceIntent).map fun _ =>
      ([] : List Occurrence)).flatten = [] := by simp
  refine ⟨hcommand, grouped_bare _, ?_, ?_⟩
  · rw [hsuffix, hflatten, encode_nil, List.append_nil]
  · rw [hflatten, hvolumes]
    rfl

theorem renderForms_shape (h : renderForms operation version sources policy = .ok forms) :
    ∃ command segments, CommandShape sources operation forms.cliSuffix command segments := by
  rw [renderForms] at h
  cases hresource : operation.resourceIntent with
  | externalPrecondition precondition =>
      rw [hresource] at h
      cases h
  | network network =>
      rw [hresource] at h
      cases h
      exact ⟨_, _, shape_network hresource⟩
  | volume volume =>
      rw [hresource] at h
      cases h
      exact ⟨_, _, shape_volume hresource⟩
  | image image =>
      rw [hresource] at h
      cases h
      exact ⟨_, _, shape_image hresource⟩
  | secret secret =>
      rw [hresource] at h
      cases h
      refine ⟨["secret", "create"], _, shape_bare (by decide) ?_ ?_⟩
      · rw [operands, hresource]
        rfl
      · rw [volumeTexts, hresource]
  | pod pod =>
      rw [hresource] at h
      dsimp only at h
      split_ifs at h with hstart
      · cases h
        refine ⟨["pod", "start"], _, shape_bare (by decide) ?_ ?_⟩
        · simp only [operands, hresource, if_pos hstart]
          rfl
        · rw [volumeTexts, hresource]
      · refine ⟨["pod", "create"], _, shape_pod hresource (by decide) (grouped_pod pod) ?_⟩
        simp only [operands, hresource, if_neg hstart, List.append_nil]
        exact (renderPodCreate_eq h).1
  | container container =>
      rw [hresource] at h
      dsimp only at h
      split_ifs at h with hstart
      · cases h
        refine ⟨["container", "start"], _, shape_bare (by decide) ?_ ?_⟩
        · simp only [operands, hresource, if_pos hstart]
          rfl
        · simp only [volumeTexts, hresource, if_pos hstart]
      · refine ⟨["container", "create"], containerSegments container policy, by decide, ?_, ?_, ?_⟩
        · rw [hresource]
          exact grouped_container container policy
        · simp only [operands, hresource, if_neg hstart]
          exact (renderContainerCreate_eq h).cliSuffix
        · simp only [volumeTexts, hresource, if_neg hstart]
          exact volumes_containerSegments container policy

end Shapes

end PodmanLens
