import PodmanLens.CommandShapes
import PodmanLens.Fields

/-!
# Names among the operands

A name or image reference that an invocation passes by position is taken for an option when it
begins with a dash, and a named volume is taken for a host path when its name begins like one. The
identifier check admits both, so rendered names are read as names exactly when the plan's are.
-/

namespace PodmanLens
open Options Text TreeEntries

section Sources

theorem dash_not_lowercaseOrDigit : isLowercaseOrDigit '-' = false := by decide

theorem not_isRepositoryComponent {part : List Char} (h : part.head? = some '-') :
    isRepositoryComponent part = false := by
  rw [isRepositoryComponent, h]
  have hdash : Char.isAlphanum '-' = false := by decide
  simp [hdash]

theorem not_isRegistryLabel {label : List Char} (h : label.head? = some '-') :
    isRegistryLabel label = false := by
  rw [isRegistryLabel, h]
  simp [dash_not_lowercaseOrDigit]

theorem not_isValidRegistry {value : List Char} (h : value.head? = some '-') :
    isValidRegistry value = false := by
  have hlocal : value ≠ "localhost".toList := by
    rintro rfl
    exact absurd h (by decide)
  have hhost : ((rsplitOnce ':' value).getD (value, [])).1.head? = some '-' := by
    cases hparts : rsplitOnce ':' value with
    | none => exact h
    | some parts =>
        rw [eq_of_rsplitOnce hparts] at h
        exact head_of_append_cons h (by decide)
  obtain ⟨label, rest, hlabels, hlabel⟩ := head_splitOn (c := '.') hhost (by decide)
  rw [isValidRegistry, if_neg hlocal]
  simp [hlabels, not_isRegistryLabel hlabel]

theorem not_isImageId {value : List Char} (h : value.head? = some '-') :
    isImageId value = false := by
  cases value with
  | nil => cases h
  | cons c rest =>
      cases h
      have hstrip : stripPrefix "sha256:".toList ('-' :: rest) = none := by
        rw [stripPrefix, if_neg]
        simp
      have hdash : isHexDigit '-' = false := by decide
      rw [isImageId, hstrip, Option.getD_none, List.all_cons, hdash, Bool.false_and, Bool.and_false]

/-- No component list of a reference that begins with a dash is a repository. -/
theorem not_repository {part last : List Char} {rest : List (List Char)} (hpart : part.head? = some '-')
    (hlast : (part :: rest).getLast? = some last) :
    ((part :: rest).dropLast ++ [(splitTag last).1]).all isRepositoryComponent = false := by
  cases rest with
  | nil =>
      cases hlast
      have hname : (splitTag part).1.head? = some '-' := by
        rw [splitTag]
        split
        · exact hpart
        · next name tag hparts =>
            split_ifs
            · exact hpart
            · rw [eq_of_rsplitOnce hparts] at hpart
              exact head_of_append_cons hpart (by decide)
      simp [not_isRepositoryComponent hname]
  | cons next rest =>
      rw [List.dropLast_cons_cons, List.cons_append, List.all_cons, not_isRepositoryComponent hpart,
        Bool.false_and]

theorem splitDigest_of_dash {value name : List Char} {digest : Option (List Char)}
    (h : value.head? = some '-') (hname : splitDigest value = some (name, digest)) :
    name.head? = some '-' := by
  rw [splitDigest] at hname
  cases hparts : splitOnce '@' value with
  | none =>
      rw [hparts] at hname
      cases hname
      exact h
  | some parts =>
      rw [hparts] at hname
      dsimp only at hname
      split_ifs at hname
      cases hname
      rw [eq_of_splitOnce hparts] at h
      exact head_of_append_cons h (by decide)

theorem splitRegistry_of_dash {part : List Char} {rest repository : List (List Char)}
    {registry : Option (List Char)} (hpart : part.head? = some '-')
    (h : splitRegistry (part :: rest) = some (registry, repository)) :
    repository = part :: rest := by
  rw [splitRegistry, not_isValidRegistry hpart] at h
  simp only [Bool.false_eq_true, if_false] at h
  split_ifs at h
  cases h
  rfl

theorem classifyReference_of_dash {value : List Char} (h : value.head? = some '-') :
    classifyReference value = none := by
  rw [Option.eq_none_iff_forall_ne_some]
  intro classification hclassified
  rw [classifyReference, Option.bind_eq_bind, Option.bind_eq_some_iff] at hclassified
  obtain ⟨⟨name, digest⟩, hname, hclassified⟩ := hclassified
  obtain ⟨part, rest, hcomponents, hpart⟩ :=
    head_splitOn (c := '/') (splitDigest_of_dash h hname) (by decide)
  dsimp only at hclassified
  rw [hcomponents] at hclassified
  by_cases hempty : (part :: rest).any List.isEmpty = true
  · rw [if_pos hempty] at hclassified
    cases hclassified
  · rw [if_neg hempty, Option.bind_eq_bind, Option.bind_eq_some_iff] at hclassified
    obtain ⟨⟨registry, repository⟩, hregistry, hclassified⟩ := hclassified
    obtain rfl := splitRegistry_of_dash hpart hregistry
    obtain ⟨last, hlast, hclassified⟩ := Option.bind_eq_some_iff.mp hclassified
    dsimp only at hclassified
    rw [not_repository hpart hlast, Bool.not_false, if_pos rfl] at hclassified
    cases hclassified

theorem ImageSource.not_dashed (source : ImageSource) : ¬Dashed source.asStr := by
  intro h
  have hclassified := source.classified
  rw [classifyImageSource] at hclassified
  split_ifs at hclassified with hmalformed hid
  · rw [not_isImageId h] at hid
    cases hid
  · rw [classifyReference_of_dash h] at hclassified
    cases hclassified

end Sources

section Names

/-- The word at the position of the first operand. -/
def positionalName (rendered : RenderedOperation) : Option String :=
  rendered.cli.argv[rendered.cli.argv.length - operandCount rendered.operation]?

def commandOptions (rendered : RenderedOperation) : List Occurrence :=
  (readCommandLine (commandGroups rendered.operation.resourceIntent) rendered.cli.argv).options

def sourceSegment (value : String) : String := (fields ':' value).headD ""

/-- A volume source that begins so is a host path or an option. -/
def PathLike (name : String) : Prop := ∃ c ∈ name.toList.head?, c ∈ ['/', '.', '-']

instance (name : String) : Decidable (PathLike name) :=
  decidable_of_iff (name.toList.head?.any (['/', '.', '-'].contains ·) = true)
    (by simp [PathLike, Option.any_eq_true])

/-- Every name of the invocation is read as a name. -/
def ReadsAsNamed (rendered : RenderedOperation) : Prop :=
  (∀ word ∈ positionalName rendered, ¬Dashed word) ∧
    ∀ value ∈ valuesOf "--volume" (commandOptions rendered), ¬PathLike (sourceSegment value)

instance (rendered : RenderedOperation) : Decidable (ReadsAsNamed rendered) :=
  inferInstanceAs (Decidable (_ ∧ _))

def Managed (plan : DeploymentPlan) (image : DeploymentResourceId) : Prop :=
  ∃ operation ∈ plan.operations, ∃ managed,
    operation.resourceIntent = .image managed ∧ managed.identity.val = image

/-- The names an operation passes by position or as volume sources begin like names. -/
def NamesUnambiguous (plan : DeploymentPlan) (operation : DeploymentOperation) : Prop :=
  match operation.resourceIntent with
  | .network network => ¬Dashed network.identity.val.name
  | .volume volume => ¬Dashed volume.identity.val.name
  | .secret secret => ¬Dashed secret.identity.val.name
  | .pod pod => operation.id.action = .startPod → ¬Dashed pod.identity.val.name
  | .container container =>
    if operation.id.action = .startContainer then ¬Dashed container.identity.val.name
    else (Managed plan container.image ∨ ¬Dashed container.image.val.name) ∧
      ∀ volume, .namedVolume volume ∈ container.mounts → volume.subpath = none →
        ¬PathLike volume.source.val.name
  | .image _ | .externalPrecondition _ => True

variable {plan : DeploymentPlan} {version : String} {policy : SensitiveInlineRenderPolicy}
  {forms : RenderedForms}

theorem renderedImage_dashed_iff {container : ContainerIntent} :
    ¬Dashed (renderedImage (managedImageSources plan) container) ↔
      Managed plan container.image ∨ ¬Dashed container.image.val.name := by
  rw [renderedImage]
  cases hsource : (managedImageSources plan)[container.image.val]? with
  | some source =>
      obtain ⟨managing, hmem, hentry⟩ := exists_of_getElem?_insertAll hsource
      cases hresource : managing.resourceIntent with
      | image image =>
          rw [hresource, Option.some_inj, Prod.mk.injEq] at hentry
          rw [Option.getD_some, ← hentry.2]
          exact iff_of_true image.source.not_dashed
            (.inl ⟨managing, hmem, image, hresource, hentry.1⟩)
      | externalPrecondition | network | volume | secret | pod | container =>
          rw [hresource] at hentry
          cases hentry
  | none =>
      have hunmanaged : ¬Managed plan container.image := by
        rintro ⟨managing, hmem, image, hresource, hidentity⟩
        have hfound : ∃ found, (managedImageSources plan)[container.image.val]? = some found := by
          apply exists_getElem?_insertAll hmem
          rw [hresource, ← hidentity]
        rw [hsource] at hfound
        obtain ⟨found, hfound⟩ := hfound
        cases hfound
      rw [Option.getD_none, or_iff_right hunmanaged]

/-- The volume values of a created container spell its named volumes without a subpath. -/
theorem mem_volumeTexts {mounts : List MountIntent} {value : String} :
    value ∈ valuesOf "--volume" (mounts.map mountOption) ↔ ∃ mount,
      .namedVolume mount ∈ mounts ∧ mount.subpath = none ∧
        value = mount.source.val.name ++ ":" ++ (mount.destination.asStr ++ ":" ++
          accessName mount.access ++ "," ++ mount.copyMode.asStr) := by
  rw [valuesOf, List.filterMap_map, List.mem_filterMap]
  constructor
  · rintro ⟨mount, hmem, hvalue⟩
    cases mount with
    | namedVolume mount =>
        cases hsubpath : mount.subpath with
        | none =>
            refine ⟨mount, hmem, hsubpath, ?_⟩
            simpa [mountOption, hsubpath, String.append_assoc, eq_comm] using hvalue
        | some subpath => simp [mountOption, hsubpath] at hvalue
    | bind | tmpfs => simp [mountOption] at hvalue
  · rintro ⟨mount, hmem, hsubpath, rfl⟩
    exact ⟨_, hmem, by simp [mountOption, hsubpath, String.append_assoc]⟩

theorem separators_notMem {value : String} (h : cliSafeMountComponent value = true) :
    ':' ∉ value.toList ∧ ',' ∉ value.toList := by
  rw [cliSafeMountComponent, Bool.not_eq_true', List.any_eq_false] at h
  constructor
  · intro hmem
    exact absurd (h ':' hmem) (by decide)
  · intro hmem
    exact absurd (h ',' hmem) (by decide)

theorem sourceSegment_append {source : String} (h : ':' ∉ source.toList) (rest : String) :
    sourceSegment (source ++ ":" ++ rest) = source := by
  have hlist : (source ++ ":" ++ rest).toList = source.toList ++ ':' :: rest.toList := by simp
  rw [sourceSegment, fields, hlist, List.splitOn_append_cons_self_of_not_mem h, List.map_cons,
    List.headD_cons, String.ofList_toList]

theorem volumeSources_iff {mounts : List MountIntent}
    (hsafe : ∀ mount ∈ mounts, mountSafe mount = true) :
    (∀ value ∈ valuesOf "--volume" (mounts.map mountOption), ¬PathLike (sourceSegment value)) ↔
      ∀ volume, .namedVolume volume ∈ mounts → volume.subpath = none →
        ¬PathLike volume.source.val.name := by
  have hsource {volume : NamedVolumeMount} (hmem : .namedVolume volume ∈ mounts) (rest : String) :
      sourceSegment (volume.source.val.name ++ ":" ++ rest) = volume.source.val.name := by
    have hcomponents := hsafe _ hmem
    simp only [mountSafe, Bool.and_eq_true] at hcomponents
    exact sourceSegment_append (separators_notMem hcomponents.1.1).1 rest
  constructor
  · intro h volume hmem hsubpath
    rw [← hsource hmem]
    exact h _ (mem_volumeTexts.mpr ⟨volume, hmem, hsubpath, rfl⟩)
  · intro h value hvalue
    obtain ⟨volume, hmem, hsubpath, rfl⟩ := mem_volumeTexts.mp hvalue
    rw [hsource hmem]
    exact h volume hmem hsubpath

variable {sources : ManagedImageSources} {rendered : RenderedOperation} {connection : Option String}
  {cliSuffix command : List String} {segments : List (List Occurrence)}

theorem positionalName_eq (hshape : CommandShape sources rendered.operation cliSuffix command segments)
    (hargv : rendered.cli.argv = connectionArguments connection ++ cliSuffix) :
    positionalName rendered = (operands sources rendered.operation).head? := by
  rw [positionalName, ← length_operands sources, hargv, hshape.cliSuffix_eq, ← List.append_assoc,
    List.length_append, Nat.add_sub_cancel, List.getElem?_append_right (Nat.le_refl _),
    Nat.sub_self, List.head?_eq_getElem?]

theorem commandOptions_eq
    (hshape : CommandShape sources rendered.operation cliSuffix command segments)
    (hargv : rendered.cli.argv = connectionArguments connection ++ cliSuffix)
    (hname : ∀ word ∈ positionalName rendered, ¬Dashed word) :
    commandOptions rendered = segments.flatten := by
  rw [positionalName_eq hshape hargv] at hname
  rw [commandOptions, hargv, hshape.cliSuffix_eq, readCommandLine_eq hshape.grouped
    (wellFormed_commandGroups _) hshape.command_mem hname]

theorem readsAsNamed_iff
    (hforms : renderForms rendered.operation version (managedImageSources plan) policy = .ok forms)
    (hargv : rendered.cli.argv = connectionArguments connection ++ forms.cliSuffix) :
    ReadsAsNamed rendered ↔ NamesUnambiguous plan rendered.operation := by
  obtain ⟨command, segments, hshape⟩ := renderForms_shape hforms
  have hname := positionalName_eq hshape hargv
  have hread : ReadsAsNamed rendered ↔
      (∀ word ∈ (operands (managedImageSources plan) rendered.operation).head?, ¬Dashed word) ∧
        ∀ value ∈ volumeTexts rendered.operation, ¬PathLike (sourceSegment value) := by
    rw [ReadsAsNamed, hname]
    apply and_congr_right
    intro hdashed
    rw [commandOptions_eq hshape hargv (hname ▸ hdashed), hshape.volumes]
  rw [hread, operands, volumeTexts, NamesUnambiguous]
  cases hresource : rendered.operation.resourceIntent with
  | network | volume | secret => simp
  | image image => simp [image.source.not_dashed]
  | externalPrecondition => simp
  | pod pod =>
      by_cases hstart : rendered.operation.id.action = .startPod
      · simp [hstart]
      · simp [hstart]
  | container container =>
      by_cases hstart : rendered.operation.id.action = .startContainer
      · simp [hstart]
      · simp only [if_neg hstart, List.head?_cons, Option.mem_some_iff, forall_eq',
          renderedImage_dashed_iff]
        simp only [renderForms, hresource, if_neg hstart] at hforms
        rw [volumeSources_iff (renderContainerCreate_eq hforms).mounts]

/-- Names are read as names in every invocation exactly when those of the plan begin like names. -/
theorem readsAsNamed_iff_unambiguous (plan : DeploymentPlan) (policy : SensitiveInlineRenderPolicy)
    (rendering : DeploymentRendering)
    (h : (renderDeploymentInner plan policy).rendering = some rendering) :
    (∀ rendered ∈ rendering.operations, ReadsAsNamed rendered) ↔
      ∀ operation ∈ plan.operations, NamesUnambiguous plan operation := by
  obtain ⟨version, -, scan, hscan, rfl⟩ := renderDeploymentInner_eq_some h
  have hoperations := hscan.operations_eq
  have heach : ∀ rendered ∈ scan.operations,
      ReadsAsNamed rendered ↔ NamesUnambiguous plan rendered.operation := by
    intro rendered hmem
    obtain ⟨operation, -, forms, hforms, rfl⟩ := hscan.exists_forms hmem
    exact readsAsNamed_iff hforms rfl
  rw [← hoperations, List.forall_mem_map]
  exact forall₂_congr heach

end Names

section Sample

def dashNetwork : OfKind .network := ⟨sampleId .network "-x", rfl⟩
def pathVolume : OfKind .volume := ⟨sampleId .volume "/etc", rfl⟩

/-- A network named like an option, and a named volume named like a host path. -/
def ambiguousIntent : DeploymentIntent where
  target := sampleTarget
  resources :=
    [.network { identity := dashNetwork },
    .volume { identity := pathVolume },
    .image
      { identity := sampleImage, source := sampleSource, pullPolicy := .missing },
    .container
      { identity := sampleWorker, image := sampleImage
        mounts := [sampleMount pathVolume] }]

def ambiguousPlan : DeploymentPlan := (planDeployment ambiguousIntent).plan.get (by decide +kernel)

def ambiguousRendering : DeploymentRendering :=
  (renderDeploymentInner ambiguousPlan .reject).rendering.get (by decide +kernel)

theorem ambiguousNames_rendered :
    (planDeployment ambiguousIntent).plan = some ambiguousPlan ∧
      (renderDeployment ambiguousPlan).rendering = some ambiguousRendering ∧
      (∃ rendered ∈ ambiguousRendering.operations, positionalName rendered = some "-x") ∧
      (∃ rendered ∈ ambiguousRendering.operations,
        "/etc:/data:rw,copy" ∈ valuesOf "--volume" (commandOptions rendered)) ∧
      ¬∀ rendered ∈ ambiguousRendering.operations, ReadsAsNamed rendered := by
  refine ⟨(Option.some_get _).symm, (Option.some_get _).symm, ?_, ?_, ?_⟩
  · decide
  · decide +kernel
  · decide

theorem readsAsNamed_iff_unambiguous_sample :
    (∀ rendered ∈ sampleRendering.operations, ReadsAsNamed rendered) ∧
      ∀ operation ∈ samplePlan.operations, NamesUnambiguous samplePlan operation := by
  have hnamed : ∀ rendered ∈ sampleRendering.operations, ReadsAsNamed rendered := by
    decide +kernel
  exact ⟨hnamed, (readsAsNamed_iff_unambiguous samplePlan .reject sampleRendering
    (Option.some_get _).symm).mp hnamed⟩

end Sample

end PodmanLens
