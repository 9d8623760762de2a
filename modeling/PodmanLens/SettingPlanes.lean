import PodmanLens.DeclaredValues
import PodmanLens.RuntimePlanes

/-!
# Settings, mounts and grants in both planes

The flags of the settings, mounts and secret grants of a container determine their members of the
body, and the members determine the flags up to their order. A mounted secret without a mode is
counted as one with the mode of the request.
-/

namespace PodmanLens
open Options Text Json Validated

section Settings

theorem map_inj_on {α β : Type} {f : α → β} {p : α → Prop}
    (hf : ∀ a b, p a → p b → f a = f b → a = b) {l m : List α} (hl : ∀ a ∈ l, p a)
    (hm : ∀ a ∈ m, p a) (h : l.map f = m.map f) : l = m := by
  induction l generalizing m with
  | nil => exact (List.map_eq_nil_iff.mp h.symm).symm
  | cons a l ih =>
      cases m with
      | nil => cases h
      | cons b m =>
          rw [List.map_cons, List.map_cons, List.cons.injEq] at h
          rw [List.forall_mem_cons] at hl hm
          rw [hf a b hl.1 hm.1 h.1, ih hl.2 hm.2 h.2]

variable {policy policy' : SensitiveInlineRenderPolicy}

theorem equals_notMem_environmentTexts {assignments : List EnvironmentAssignment} :
    ∀ pair ∈ environmentTexts policy assignments, '=' ∉ pair.1.toList := by
  intro pair hmem
  obtain ⟨assignment, -, hvalue⟩ := List.mem_filterMap.mp hmem
  obtain ⟨value, -, rfl⟩ := Option.map_eq_some_iff.mp hvalue
  exact notMem_of_isEnvironmentName assignment.name.accepted (by decide) (by decide)

theorem environmentKeys_nodup {maximum : ℕ}
    (environment : DistinctList sameEnvironmentName maximum) :
    ((environmentTexts policy environment.values).map Prod.fst).Nodup := by
  apply List.pairwise_map.mpr
  apply environment.distinct.filterMap
  intro a b hclash pair hpair other hother heq
  obtain ⟨_, -, rfl⟩ := Option.map_eq_some_iff.mp hpair
  obtain ⟨_, -, rfl⟩ := Option.map_eq_some_iff.mp hother
  simp [sameEnvironmentName, Checked.asStr_injective heq] at hclash

/-- The settings that both planes carry one value of. -/
structure SettingDeclaration where
  entrypoint : Option ArgumentArray
  user : Option ContainerUser
  workdir : Option ContainerWorkdir
  hostname : Option ContainerHostname
  restartPolicy : Option RestartPolicy
  deriving DecidableEq

def declaredSettings (settings : ContainerSettings) : SettingDeclaration :=
  ⟨settings.entrypoint, settings.user, settings.workdir, settings.hostname,
    settings.restartPolicy⟩

variable {settings other : ContainerSettings} {environment environment' : List (String × String)}

theorem entrypointText_injective :
    Function.Injective fun entrypoint : ArgumentArray => render (stringArray entrypoint.values) := by
  intro a b h
  have hvalues := render_stringArray_injective h
  cases a
  cases b
  cases hvalues
  rfl

theorem settingSegments_inj (henvironment : ∀ pair ∈ environment, '=' ∉ pair.1.toList)
    (henvironment' : ∀ pair ∈ environment', '=' ∉ pair.1.toList) :
    settingSegments settings environment = settingSegments other environment' ↔
      declaredSettings settings = declaredSettings other ∧ settings.labels = other.labels ∧
        environment = environment' := by
  have htexts : (environment.map fun assignment => assignment.1 ++ "=" ++ assignment.2) =
      (environment'.map fun assignment => assignment.1 ++ "=" ++ assignment.2) ↔
        environment = environment' := by
    constructor
    · apply map_inj_on (p := fun pair => '=' ∉ pair.1.toList) ?_ henvironment henvironment'
      intro a b ha hb h
      obtain ⟨hname, hvalue⟩ := keyed_inj ha hb h
      exact Prod.ext hname hvalue
    · rintro rfl
      rfl
  simp only [settingSegments, List.cons.injEq, and_true, valued_inj, htexts,
    setting_inj entrypointText_injective, setting_inj Checked.asStr_injective,
    setting_inj RestartPolicy.asStr_injective, texts_inj labelText_injective,
    DistinctList.values_inj, declaredSettings, SettingDeclaration.mk.injEq]
  constructor
  · rintro ⟨hentrypoint, huser, hworkdir, hhostname, hlabels, hvalues, hrestart⟩
    exact ⟨⟨hentrypoint, huser, hworkdir, hhostname, hrestart⟩, hlabels, hvalues⟩
  · rintro ⟨⟨hentrypoint, huser, hworkdir, hhostname, hrestart⟩, hlabels, hvalues⟩
    exact ⟨hentrypoint, huser, hworkdir, hhostname, hlabels, hvalues, hrestart⟩

theorem argumentArray_injective :
    Function.Injective fun arguments : ArgumentArray => stringArray arguments.values := by
  intro a b h
  have hvalues := stringArray_injective h
  cases a
  cases b
  cases hvalues
  rfl

theorem commandWords_inj {container other : ContainerIntent} :
    commandWords container = commandWords other ↔
      container.settings.command = other.settings.command := by
  have hwords (arguments : ArgumentArray) : arguments.values ≠ [] := by
    intro hnil
    have haccepted := arguments.accepted
    rw [validArguments, hnil] at haccepted
    cases haccepted
  rw [commandWords, commandWords]
  cases container.settings.command with
  | none =>
      cases other.settings.command with
      | none => simp
      | some words => simpa using (hwords words).symm
  | some words =>
      cases other.settings.command with
      | none => simpa using hwords words
      | some others =>
          rw [Option.some_inj, ← argumentArray_injective.eq_iff, stringArray_injective.eq_iff]
          rfl

theorem settingSegments_perm (hdeclared : declaredSettings settings = declaredSettings other)
    (hlabels : settings.labels.values.Perm other.labels.values)
    (henvironment : environment.Perm environment') :
    (settingSegments settings environment).flatten.Perm
      (settingSegments other environment').flatten := by
  simp only [declaredSettings, SettingDeclaration.mk.injEq] at hdeclared
  obtain ⟨hentrypoint, huser, hworkdir, hhostname, hrestart⟩ := hdeclared
  simp only [settingSegments, hentrypoint, huser, hworkdir, hhostname, hrestart, List.flatten_cons,
    List.flatten_nil]
  iterate 4 apply List.Perm.append_left
  apply List.Perm.append ((hlabels.map _).map _)
  exact ((henvironment.map _).map _).append_right _

theorem settingMembers_inj {container other : ContainerIntent}
    (hkeys : (environment.map Prod.fst).Nodup) (hkeys' : (environment'.map Prod.fst).Nodup) :
    settingMembers container environment = settingMembers other environment' ↔
      container.settings.command = other.settings.command ∧
        declaredSettings container.settings = declaredSettings other.settings ∧
        container.settings.labels.values.Perm other.settings.labels.values ∧
        environment.Perm environment' ∧
        nonEmpty .array (mountJson container.mounts) = nonEmpty .array (mountJson other.mounts) ∧
        nonEmpty .array (nativeMountJson container.mounts) =
          nonEmpty .array (nativeMountJson other.mounts) := by
  have hpair : Function.Injective fun assignment : String × String =>
      (assignment.1, Value.string assignment.2) := by
    intro a b h
    rw [Prod.mk.injEq, Value.string.injEq] at h
    exact Prod.ext h.1 h.2
  have hfst (environment : List (String × String)) : (environment.map fun assignment =>
      (assignment.1, Value.string assignment.2)).map Prod.fst = environment.map Prod.fst := by
    rw [List.map_map]
    rfl
  have henvironment := objectMember_inj hpair ((hfst environment).symm ▸ hkeys)
    ((hfst environment').symm ▸ hkeys')
  simp only [settingMembers, List.cons.injEq, Prod.mk.injEq, true_and, and_true,
    member_inj argumentArray_injective, member_inj (string_injective Checked.asStr_injective),
    member_inj (string_injective RestartPolicy.asStr_injective), labelsMember_inj, henvironment,
    declaredSettings, SettingDeclaration.mk.injEq]
  constructor
  · rintro ⟨hcommand, hentrypoint, huser, hworkdir, hhostname, hlabels, hvalues, hrestart, hmounts⟩
    exact ⟨hcommand, ⟨hentrypoint, huser, hworkdir, hhostname, hrestart⟩, hlabels, hvalues, hmounts⟩
  · rintro ⟨hcommand, ⟨hentrypoint, huser, hworkdir, hhostname, hrestart⟩, hlabels, hvalues, hmounts⟩
    exact ⟨hcommand, hentrypoint, huser, hworkdir, hhostname, hlabels, hvalues, hrestart, hmounts⟩

end Settings

section Mounts

variable {mounts others : List MountIntent}

theorem mountOptions_inj (hsafe : ∀ mount ∈ mounts, mountSafe mount = true)
    (hothers : ∀ mount ∈ others, mountSafe mount = true)
    (h : mounts.map mountOption = others.map mountOption) : mounts = others := by
  have hread {mounts : List MountIntent} (hsafe : ∀ mount ∈ mounts, mountSafe mount = true) :
      (mounts.map mountOption).map readMountOption =
        mounts.map fun mount => some (declaredMount mount) := by
    rw [List.map_map]
    exact List.map_congr_left fun mount hmount => readMountOption_eq (hsafe mount hmount)
  have hdeclared := congrArg (List.map readMountOption) h
  rw [hread hsafe, hread hothers] at hdeclared
  exact List.map_injective_iff.mpr ((Option.some_injective _).comp declaredMount_injective) hdeclared

/-- Volumes and other mounts in their own order are the mounts up to their order. -/
theorem mounts_perm
    (hvolumes : ((mounts.map declaredMount).filter fun mount => mount.kind = .volume).map some =
      ((others.map declaredMount).filter fun mount => mount.kind = .volume).map some)
    (hmounts : ((mounts.map declaredMount).filter fun mount => mount.kind ≠ .volume).map some =
      ((others.map declaredMount).filter fun mount => mount.kind ≠ .volume).map some) :
    mounts.Perm others := by
  have hsome := List.map_injective_iff.mpr (Option.some_injective MountDeclaration)
  have hsplit (mounts : List MountIntent) :=
    List.filter_append_perm (fun mount : MountDeclaration => decide (mount.kind = .volume))
      (mounts.map declaredMount)
  have hnot (mounts : List MountIntent) : (mounts.map declaredMount).filter (fun mount =>
      !decide (mount.kind = .volume)) =
        (mounts.map declaredMount).filter fun mount => mount.kind ≠ .volume := by
    simp
  rw [← List.map_perm_map_iff declaredMount_injective]
  have hfirst := hsplit mounts
  have hsecond := hsplit others
  rw [hnot, hsome hvolumes, hsome hmounts] at hfirst
  rw [hnot] at hsecond
  exact hfirst.symm.trans hsecond

end Mounts

section Secrets

def SecretGrant.withDefaultMode : SecretGrant → SecretGrant
  | .mount source target uid gid mode =>
    .mount source target uid gid (some (mode.getD ⟨0o444, by decide⟩))
  | .environment source target => .environment source target

/-- A mounted secret without a mode, with the mode of the request. -/
def defaultedText (value : String) : String :=
  match readSecretFlag value with
  | some declaration =>
    if !declaration.environment && declaration.mode.isNone then value ++ ",mode=444" else value
  | none => value

def defaulted (occurrence : Occurrence) : Occurrence :=
  if occurrence.flag = "--secret" then { occurrence with value := occurrence.value.map defaultedText }
  else occurrence

theorem declaredSecret_withDefaultMode (grant : SecretGrant) :
    declaredSecret grant.withDefaultMode = (declaredSecret grant).withDefaultMode := by
  cases grant with
  | mount source target uid gid mode => cases mode <;> rfl
  | environment => rfl

theorem defaultedText_secretText {grant : SecretGrant} (h : secretSafe grant = true) :
    defaultedText (secretText grant) = secretText grant.withDefaultMode := by
  rw [defaultedText, readSecretFlag_eq h]
  cases grant with
  | environment => rfl
  | mount source target uid gid mode =>
      cases mode with
      | some mode => rfl
      | none =>
          have hoctal : octal 0o444 = "444" := by decide
          change secretText _ ++ ",mode=444" = _
          simp [secretText, SecretGrant.withDefaultMode, optionText, hoctal]

variable {grants others : List SecretGrant}

theorem secretTexts_inj (hsafe : ∀ grant ∈ grants, secretSafe grant = true)
    (hothers : ∀ grant ∈ others, secretSafe grant = true)
    (h : grants.map secretText = others.map secretText) : grants = others := by
  have hread {grants : List SecretGrant} (hsafe : ∀ grant ∈ grants, secretSafe grant = true) :
      (grants.map secretText).map readSecretFlag =
        grants.map fun grant => some (declaredSecret grant) := by
    rw [List.map_map]
    exact List.map_congr_left fun grant hgrant => readSecretFlag_eq (hsafe grant hgrant)
  have hdeclared := congrArg (List.map readSecretFlag) h
  rw [hread hsafe, hread hothers] at hdeclared
  exact List.map_injective_iff.mpr ((Option.some_injective _).comp declaredSecret_injective) hdeclared

theorem secretTexts_perm (hsafe : ∀ grant ∈ grants, secretSafe grant = true)
    (hothers : ∀ grant ∈ others, secretSafe grant = true)
    (h : (grants.map fun grant => some (declaredSecret grant).withDefaultMode).Perm
      (others.map fun grant => some (declaredSecret grant).withDefaultMode)) :
    ((grants.map secretText).map defaultedText).Perm ((others.map secretText).map defaultedText) := by
  have hnormal {grants : List SecretGrant} (hsafe : ∀ grant ∈ grants, secretSafe grant = true) :
      (grants.map secretText).map defaultedText =
        (grants.map SecretGrant.withDefaultMode).map secretText := by
    rw [List.map_map, List.map_map]
    exact List.map_congr_left fun grant hgrant => defaultedText_secretText (hsafe grant hgrant)
  have hdeclared (grants : List SecretGrant) :
      (grants.map fun grant => some (declaredSecret grant).withDefaultMode) =
        (grants.map SecretGrant.withDefaultMode).map fun grant => some (declaredSecret grant) := by
    rw [List.map_map]
    exact List.map_congr_left fun grant _ =>
      congrArg some (declaredSecret_withDefaultMode grant).symm
  have hinjective : Function.Injective fun grant => some (declaredSecret grant) :=
    (Option.some_injective _).comp declaredSecret_injective
  rw [hdeclared, hdeclared, List.map_perm_map_iff hinjective] at h
  rw [hnormal hsafe, hnormal hothers]
  exact h.map secretText

end Secrets

end PodmanLens
