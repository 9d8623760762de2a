import PodmanLens.RuntimePlanes

/-!
# Health checks in both planes

The flags and the members of a health check carry the same test, times, counts and action. With the
other runtime settings they determine the runtime of a container on either plane.
-/

namespace PodmanLens
open Options Text Json Validated

section Health

/-- What both planes carry of a configured health check. -/
structure HealthDeclaration where
  test : List String
  interval : Option HealthInterval
  timeout : Option HealthTimeout
  retries : Option HealthRetries
  startPeriod : Option HealthStartPeriod
  onFailure : Option HealthOnFailure
  deriving DecidableEq

def declaredHealth : HealthCheck → Option HealthDeclaration
  | .disabled => none
  | .command configured => some ⟨healthTest configured.command, configured.interval,
      configured.timeout, configured.retries, configured.startPeriod, configured.onFailure⟩

structure StartupDeclaration where
  test : List String
  interval : Option HealthInterval
  timeout : Option HealthTimeout
  retries : Option StartupHealthRetries
  successes : Option StartupHealthSuccesses
  deriving DecidableEq

def declaredStartup (startup : StartupHealthCheck) : StartupDeclaration :=
  ⟨healthTest startup.command, startup.interval, startup.timeout, startup.retries,
    startup.successes⟩

theorem timeoutText_injective :
    Function.Injective fun timeout : HealthTimeout => healthDurationCli timeout.val.val :=
  healthDurationCli_injective.comp (Subtype.val_injective.comp Subtype.val_injective)

theorem startPeriodText_injective :
    Function.Injective fun period : HealthStartPeriod => healthDurationCli period.val :=
  healthDurationCli_injective.comp Subtype.val_injective

theorem countText_injective {p : ℕ → Prop} :
    Function.Injective fun count : { n : ℕ // p n } => count.val.repr :=
  fun _ _ h => Subtype.ext (Nat.repr_injective h)

theorem countNumber_injective {p : ℕ → Prop} :
    Function.Injective fun count : { n : ℕ // p n } => Value.number count.val :=
  number_injective (Nat.cast_injective.comp Subtype.val_injective)

theorem timeoutNumber_injective :
    Function.Injective fun timeout : HealthTimeout => Value.number timeout.val.val :=
  number_injective (Nat.cast_injective.comp (Subtype.val_injective.comp Subtype.val_injective))

theorem intervalNumber_injective : Function.Injective fun interval : HealthInterval =>
    Value.number (healthIntervalNanoseconds interval) :=
  number_injective (Nat.cast_injective.comp healthIntervalNanoseconds_injective)

theorem healthSegments_inj {health other : Option HealthCheck} :
    healthSegments health = healthSegments other ↔
      health.map declaredHealth = other.map declaredHealth := by
  have hcommand (a b : ConfiguredHealthCheck) :
      healthSegments (some (.command a)) = healthSegments (some (.command b)) ↔
        declaredHealth (.command a) = declaredHealth (.command b) := by
    have htest : [healthCommandText a.command] = [healthCommandText b.command] ↔
        healthTest a.command = healthTest b.command := by
      rw [List.cons.injEq, and_iff_left rfl]
      exact render_stringArray_injective.eq_iff
    simp only [healthSegments, declaredHealth, settingTexts, Option.bind_some, configuredHealth,
      Option.toList_some, List.map_cons, List.map_nil, List.cons.injEq, valued_inj, htest,
      setting_inj healthIntervalCli_injective, setting_inj timeoutText_injective,
      setting_inj countText_injective, setting_inj startPeriodText_injective,
      setting_inj HealthOnFailure.asStr_injective, Option.some_inj, HealthDeclaration.mk.injEq,
      and_true]
    simp
  have hflag (health : HealthCheck) : healthSegments (some health) ≠ healthSegments none := by
    cases health with
    | disabled => simp [healthSegments]
    | command configured => simp [healthSegments, valued, configuredHealth]
  have hdisabled (configured : ConfiguredHealthCheck) :
      healthSegments (some (.command configured)) ≠ healthSegments (some .disabled) := by
    simp [healthSegments]
  cases health with
  | none =>
      cases other with
      | none => simp
      | some other => simp [(hflag other).symm]
  | some health =>
      cases other with
      | none => simp [hflag health]
      | some other =>
          rw [Option.map_some, Option.map_some, Option.some_inj]
          cases health with
          | disabled =>
              cases other with
              | disabled => simp
              | command other => simp [(hdisabled other).symm, declaredHealth]
          | command configured =>
              cases other with
              | disabled => simp [hdisabled configured, declaredHealth]
              | command other => exact hcommand configured other

theorem startupHealthSegments_inj {startup other : Option StartupHealthCheck} :
    startupHealthSegments startup = startupHealthSegments other ↔
      startup.map declaredStartup = other.map declaredStartup := by
  cases startup with
  | none =>
      cases other with
      | none => simp
      | some other => simp [startupHealthSegments, valued]
  | some startup =>
      cases other with
      | none => simp [startupHealthSegments, valued]
      | some other =>
          have htest : [healthCommandText startup.command] = [healthCommandText other.command] ↔
              healthTest startup.command = healthTest other.command := by
            rw [List.cons.injEq, and_iff_left rfl]
            exact render_stringArray_injective.eq_iff
          simp only [startupHealthSegments, declaredStartup, settingTexts, Option.bind_some,
            Option.toList_some, List.map_cons, List.map_nil, List.cons.injEq, valued_inj, htest,
            setting_inj healthIntervalCli_injective, setting_inj timeoutText_injective,
            setting_inj countText_injective, Option.map_some, Option.some_inj,
            StartupDeclaration.mk.injEq, and_true]

theorem healthTest_ne_none (command : HealthCommand) : healthTest command ≠ ["NONE"] := by
  cases command with
  | shell | exec => simp [healthTest]
  | sensitiveInlineShell | sensitiveInlineExec | externalShell | externalExec => simp [healthTest]

theorem disabled_ne_configured (configured : ConfiguredHealthCheck) :
    healthConfiguration .disabled ≠ healthConfiguration (.command configured) := by
  intro h
  have hmember := congrArg (Value.member · "Test") h
  simp [healthConfiguration, Value.member, ofPairs, lookup_insert, configuredHealthMembers,
    assemble, lookup_insertSome] at hmember
  exact healthTest_ne_none configured.command (stringArray_injective hmember).symm

theorem configuredHealth_inj {configured other : ConfiguredHealthCheck} :
    healthConfiguration (.command configured) = healthConfiguration (.command other) ∧
        configured.onFailure = other.onFailure ↔
      declaredHealth (.command configured) = declaredHealth (.command other) := by
  have hmembers : assemble (configuredHealthMembers configured) =
      assemble (configuredHealthMembers other) ↔
        configuredHealthMembers configured = configuredHealthMembers other :=
    assemble_inj_iff ["Test", "Interval", "Timeout", "Retries", "StartPeriod"]
      (by decide) rfl rfl
  simp only [healthConfiguration, Value.object.injEq, hmembers, declaredHealth, Option.some_inj,
    HealthDeclaration.mk.injEq]
  simp only [configuredHealthMembers, List.cons.injEq, Prod.mk.injEq, true_and, and_true,
    Option.some_inj, stringArray_injective.eq_iff, member_inj intervalNumber_injective,
    member_inj timeoutNumber_injective, member_inj countNumber_injective, and_assoc]

theorem startupConfiguration_inj {startup other : StartupHealthCheck} :
    Value.object (assemble (startupHealthMembers startup)) =
        .object (assemble (startupHealthMembers other)) ↔
      declaredStartup startup = declaredStartup other := by
  have hmembers : assemble (startupHealthMembers startup) =
      assemble (startupHealthMembers other) ↔
        startupHealthMembers startup = startupHealthMembers other :=
    assemble_inj_iff ["Test", "Interval", "Timeout", "Retries", "Successes"]
      (by decide) rfl rfl
  simp only [Value.object.injEq, hmembers, declaredStartup, StartupDeclaration.mk.injEq]
  simp only [startupHealthMembers, List.cons.injEq, Prod.mk.injEq, true_and, and_true,
    Option.some_inj, stringArray_injective.eq_iff, member_inj intervalNumber_injective,
    member_inj timeoutNumber_injective, member_inj countNumber_injective]

theorem healthMembers_inj {health other : Option HealthCheck}
    {startup others : Option StartupHealthCheck} :
    healthMembers health startup = healthMembers other others ↔
      health.map declaredHealth = other.map declaredHealth ∧
        startup.map declaredStartup = others.map declaredStartup := by
  have haction : Function.Injective fun action : HealthOnFailure => Value.number action.code :=
    number_injective HealthOnFailure.code_injective
  have hstartup : (startup.map fun startup => Value.object (assemble (startupHealthMembers startup))) =
      (others.map fun startup => .object (assemble (startupHealthMembers startup))) ↔
        startup.map declaredStartup = others.map declaredStartup := by
    cases startup with
    | none => cases others <;> simp
    | some startup =>
        cases others with
        | none => simp
        | some other =>
            rw [Option.map_some, Option.map_some, Option.some_inj, Option.map_some,
              Option.map_some, Option.some_inj, startupConfiguration_inj]
  have hhealth : health.map healthConfiguration = other.map healthConfiguration ∧
      health.bind configuredFailureAction = other.bind configuredFailureAction ↔
        health.map declaredHealth = other.map declaredHealth := by
    cases health with
    | none => cases other <;> simp
    | some health =>
        cases other with
        | none => simp
        | some other =>
            simp only [Option.map_some, Option.some_inj, Option.bind_some]
            cases health with
            | disabled =>
                cases other with
                | disabled => simp
                | command other => simp [disabled_ne_configured, declaredHealth]
            | command configured =>
                cases other with
                | disabled => simp [(disabled_ne_configured configured).symm, declaredHealth]
                | command other => exact configuredHealth_inj
  simp only [healthMembers, List.cons.injEq, Prod.mk.injEq, true_and, and_true,
    member_inj haction, hstartup]
  rw [← and_assoc, hhealth]

end Health

section Runtime

variable {runtime other : ContainerRuntimeSettings}

theorem loggingSegments_perm {logging other : LoggingSettings}
    (h : loggingMembers logging = loggingMembers other) :
    (loggingSegments logging).flatten.Perm (loggingSegments other).flatten := by
  obtain ⟨hdriver, hsize, hlabels⟩ := loggingMembers_inj.mp h
  simp only [loggingSegments, hdriver, hsize, List.flatten_cons, List.flatten_nil,
    List.append_nil]
  apply List.Perm.append_left
  apply List.Perm.map
  exact (hlabels.map logLabelText).append_left _

theorem runtimeMembers_of_segments (h : runtimeSegments runtime = runtimeSegments other) :
    runtimeMembers runtime = runtimeMembers other := by
  obtain ⟨h, hresources⟩ := List.append_inj h rfl
  obtain ⟨h, hsecurity⟩ := List.append_inj h rfl
  obtain ⟨h, hlogging⟩ := List.append_inj h rfl
  obtain ⟨hhealth, hstartup⟩ := List.append_inj h rfl
  obtain ⟨hsecurity, hnamespaces⟩ := securitySegments_inj.mp hsecurity
  rw [runtimeMembers, healthMembers_inj.mpr ⟨healthSegments_inj.mp hhealth,
    startupHealthSegments_inj.mp hstartup⟩, loggingSegments_inj.mp hlogging, hsecurity,
    hnamespaces, resourceSegments_inj.mp hresources]
  rfl

theorem runtimeSegments_perm (h : runtimeMembers runtime = runtimeMembers other) :
    (runtimeSegments runtime).flatten.Perm (runtimeSegments other).flatten := by
  obtain ⟨h, hresources⟩ := List.append_inj h rfl
  obtain ⟨h, hsecurity⟩ := List.append_inj h rfl
  obtain ⟨hhealth, hlogging⟩ := List.append_inj h rfl
  obtain ⟨hsecurity, hnamespaces⟩ := securityMembers_inj.mp hsecurity
  obtain ⟨hhealth, hstartup⟩ := healthMembers_inj.mp hhealth
  simp only [runtimeSegments, healthSegments_inj.mpr hhealth,
    startupHealthSegments_inj.mpr hstartup, hsecurity, hnamespaces,
    resourceMembers_inj.mp hresources, List.flatten_append]
  exact (((loggingSegments_perm hlogging).append_left _).append_right _).append_right _

end Runtime

end PodmanLens
