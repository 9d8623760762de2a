import PodmanLens.Posix
import PodmanLens.RenderArguments

/-!
# The review script

`DeploymentRendering.shellScript` prints the argument arrays of a rendering as `sh` commands. Two
passes count the operations with an external input: one checks that their files are named, the
other redirects standard input from them. Read as shell text, line by line, the script is the
prologue, one check for each external input, and one command for each operation.
-/

namespace PodmanLens
open Text Posix TreeEntries

section Script

def shellQuote (value : String) : String :=
  "'" ++ String.ofList (value.toList.flatMap fun c =>
    if c = '\'' then ['\'', '"', '\'', '"', '\''] else [c]) ++ "'"

def resourceKindName : ResourceKind → String
  | .container => "container"
  | .pod => "pod"
  | .network => "network"
  | .volume => "volume"
  | .image => "image"
  | .secret => "secret"

def secretInputName (secretNumber : ℕ) : String :=
  "PODMAN_LENS_SECRET_INPUT_" ++ secretNumber.repr

def secretInputMessage : String := "set to a readable secret file path"

def scriptHeader : String :=
  "#!/bin/sh\n# Review generated Podman commands before running this file.\nset -eu\n"

def preconditionComment (precondition : ExternalPrecondition) : String :=
  "# Requires external " ++ resourceKindName precondition.identity.kind ++ ": " ++
    shellQuote precondition.identity.name ++ "\n"

def secretInputCheck (secretNumber : ℕ) : String :=
  ": \"$\x7b" ++ secretInputName secretNumber ++ ":?" ++ secretInputMessage ++ "\x7d\"\n"

def RenderedOperation.hasExternalInput (operation : RenderedOperation) : Bool :=
  operation.cli.externalInput.isSome

/-- One check for each external input, numbered from `secretNumber` on. -/
def secretInputChecks : ℕ → List RenderedOperation → String
  | _, [] => ""
  | secretNumber, operation :: rest =>
    if operation.hasExternalInput then
      secretInputCheck (secretNumber + 1) ++ secretInputChecks (secretNumber + 1) rest
    else secretInputChecks secretNumber rest

def podmanCommand (operation : RenderedOperation) (redirection : String) : String :=
  "podman" ++ String.join (operation.cli.argv.map fun value => " " ++ shellQuote value) ++
    redirection ++ "\n"

def podmanCommands : ℕ → List RenderedOperation → String
  | _, [] => ""
  | secretNumber, operation :: rest =>
    if operation.hasExternalInput then
      podmanCommand operation (" < \"$\x7b" ++ secretInputName (secretNumber + 1) ++ "\x7d\"") ++
        podmanCommands (secretNumber + 1) rest
    else podmanCommand operation "" ++ podmanCommands secretNumber rest

def DeploymentRendering.shellScript (rendering : DeploymentRendering) : String :=
  scriptHeader ++ String.join (rendering.externalPreconditions.map preconditionComment) ++
    secretInputChecks 0 rendering.operations ++ podmanCommands 0 rendering.operations

end Script

section Lines

theorem shellQuote_toList (value : String) : (shellQuote value).toList = quoted value.toList := by
  simp only [shellQuote, String.toList_append, String.toList_ofList, quoted]
  rfl

theorem controlFree_shellQuote {value : String} (h : ControlFree value) :
    ControlFree (shellQuote value) := by
  simp only [shellQuote, controlFree_append, controlFree_ofList, List.mem_flatMap]
  refine ⟨⟨by decide, ?_⟩, by decide⟩
  rintro c ⟨d, hd, hc⟩
  split_ifs at hc with hquote
  · simp only [List.mem_cons, List.not_mem_nil, or_false] at hc
    rcases hc with rfl | rfl | rfl | rfl | rfl <;> decide
  · rw [List.mem_singleton.mp hc]
    exact h d hd

theorem isName_inputMarker : isName "PODMAN_LENS_SECRET_INPUT_".toList = true := by decide

theorem secretInputName_toList (secretNumber : ℕ) :
    (secretInputName secretNumber).toList =
      "PODMAN_LENS_SECRET_INPUT_".toList ++ secretNumber.repr.toList := String.toList_append

theorem isName_secretInputName (secretNumber : ℕ) :
    isName (secretInputName secretNumber).toList = true := by
  rw [secretInputName_toList]
  apply isName_append isName_inputMarker
  intro c hc
  rw [Nat.toList_repr] at hc
  have hdigit := Nat.isDigit_of_mem_toDigits (by omega) (by omega) hc
  simp [Char.isAlphanum, hdigit]

theorem redirection_toList (secretNumber : ℕ) :
    (" < \"$\x7b" ++ secretInputName secretNumber ++ "\x7d\"").toList =
      redirection (secretInputName secretNumber).toList := by
  rw [String.toList_append, String.toList_append, List.append_assoc]
  rfl

theorem podmanCommand_toList (operation : RenderedOperation) (suffix : String) :
    (podmanCommand operation suffix).toList =
      (invocation "podman".toList (operation.cli.argv.map String.toList) ++ suffix.toList) ++
        ['\n'] := by
  simp only [podmanCommand, String.toList_append, String.toList_join, List.flatMap_map,
    shellQuote_toList, invocation]
  rfl

theorem quoted_newline {value : String} (h : ControlFree value) : '\n' ∉ quoted value.toList := by
  rw [← shellQuote_toList]
  exact (controlFree_shellQuote h).newline_notMem

theorem newline_notMem_secretInputName (secretNumber : ℕ) :
    '\n' ∉ (secretInputName secretNumber).toList := by
  have hname : ControlFree (secretInputName secretNumber) :=
    controlFree_append.mpr ⟨by decide, controlFree_repr _⟩
  exact hname.newline_notMem

theorem newline_notMem_invocation {argv : List String} (h : Unbroken argv) :
    '\n' ∉ invocation "podman".toList (argv.map String.toList) := by
  simp only [invocation, List.mem_append, List.mem_flatMap, List.mem_map, not_or]
  refine ⟨by decide, ?_⟩
  rintro ⟨_, ⟨value, hvalue, rfl⟩, hmem⟩
  rcases List.mem_cons.mp hmem with heq | hmem
  · exact absurd heq (by decide)
  · exact quoted_newline (h value hvalue) hmem

end Lines

section Reading

def setOptions : Command := ⟨[literalWord "set", literalWord "-eu"], none⟩

/-- The shell stops here with the message when the variable is unset or empty. -/
def requireInput (secretNumber : ℕ) : Command :=
  ⟨[literalWord ":",
    [.required (secretInputName secretNumber).toList secretInputMessage.toList]], none⟩

def podmanInvocation (operation : RenderedOperation) (secretNumber : ℕ) : Command where
  words := literalWord "podman" :: operation.cli.argv.map literalWord
  stdin := if operation.hasExternalInput then
    some [.parameter (secretInputName secretNumber).toList] else none

/-- The hash sign of a comment and its newline are apart from its text. -/
theorem reads_commentLine {text : String} (h : '\n' ∉ text.toList) :
    Reads ("#" ++ text ++ "\n").toList [] := by
  rw [String.toList_append, String.toList_append]
  exact Reads.comment h

theorem reads_precondition (precondition : ExternalPrecondition) :
    Reads (preconditionComment precondition).toList [] := by
  have hhash : "# Requires external " = "#" ++ " Requires external " := by decide
  have hkind : ControlFree (resourceKindName precondition.identity.kind) := by
    cases precondition.identity.kind <;> decide
  have htext : ControlFree (" Requires external " ++
      resourceKindName precondition.identity.kind ++ ": " ++
        shellQuote precondition.identity.name) := by
    simp only [controlFree_append]
    exact ⟨⟨⟨by decide, hkind⟩, by decide⟩,
      controlFree_shellQuote precondition.identity.controlFree_name⟩
  have hcomment := reads_commentLine htext.newline_notMem
  rwa [← String.append_assoc, ← String.append_assoc, ← String.append_assoc, ← hhash] at hcomment

theorem reads_preconditions (preconditions : List ExternalPrecondition) :
    Reads (String.join (preconditions.map preconditionComment)).toList [] := by
  induction preconditions with
  | nil => exact .nil
  | cons precondition rest ih =>
      rw [List.map_cons, String.join_cons, String.toList_append]
      exact (reads_precondition precondition).append ih

theorem readLine_setOptions : readLine "set -eu".toList = some setOptions := by decide

theorem reads_setOptions : Reads ("set -eu" ++ "\n").toList [setOptions] := by
  have hline : '\n' ∉ "set -eu".toList := by decide
  have hnewline : "\n".toList = ['\n'] := rfl
  have hwords : setOptions.words ≠ [] := List.cons_ne_nil _ _
  rw [String.toList_append, hnewline]
  exact Reads.command hline readLine_setOptions hwords

theorem scriptHeader_eq :
    scriptHeader = ("#" ++ "!/bin/sh" ++ "\n") ++
      (("#" ++ " Review generated Podman commands before running this file." ++ "\n") ++
        ("set -eu" ++ "\n")) := by decide

theorem reads_header : Reads scriptHeader.toList [setOptions] := by
  have hshebang : '\n' ∉ "!/bin/sh".toList := by decide
  have hreview :
      '\n' ∉ " Review generated Podman commands before running this file.".toList := by
    decide
  rw [scriptHeader_eq, String.toList_append, String.toList_append]
  exact (reads_commentLine hshebang).append ((reads_commentLine hreview).append reads_setOptions)

theorem plain_secretInputMessage :
    ∀ c ∈ secretInputMessage.toList, c ≠ '\x7d' ∧ isDoubleSpecial c = false := by
  have hplain : secretInputMessage.toList.all
      (fun c => !(c == '\x7d') && !isDoubleSpecial c) = true := by decide
  intro c hc
  have hboth := List.all_eq_true.mp hplain c hc
  simpa using hboth

theorem secretInputCheck_toList (secretNumber : ℕ) :
    (secretInputCheck secretNumber).toList =
      requirement (secretInputName secretNumber).toList secretInputMessage.toList ++ ['\n'] := by
  have hopen : ": \"$\x7b".toList = [':', ' ', '"', '$', '\x7b'] := rfl
  have hoperator : ":?".toList = [':', '?'] := rfl
  have hclose : "\x7d\"\n".toList = ['\x7d', '"', '\n'] := rfl
  simp only [secretInputCheck, requirement, String.toList_append, hopen, hoperator, hclose,
    List.append_assoc, List.cons_append, List.nil_append]

theorem reads_secretInputCheck (secretNumber : ℕ) :
    Reads (secretInputCheck secretNumber).toList [requireInput secretNumber] := by
  have hmessage : '\n' ∉ secretInputMessage.toList := by decide
  have hline : '\n' ∉
      requirement (secretInputName secretNumber).toList secretInputMessage.toList := by
    simp only [requirement, List.mem_append, not_or]
    exact ⟨by decide, newline_notMem_secretInputName _, by decide, hmessage, by decide⟩
  rw [secretInputCheck_toList]
  exact Reads.command hline
    (readLine_requirement (isName_secretInputName _) plain_secretInputMessage)
    (List.cons_ne_nil _ _)

theorem reads_secretInputChecks (secretNumber : ℕ) (operations : List RenderedOperation) :
    Reads (secretInputChecks secretNumber operations).toList
      ((List.range' (secretNumber + 1)
        (operations.countP RenderedOperation.hasExternalInput)).map requireInput) := by
  induction operations generalizing secretNumber with
  | nil => exact .nil
  | cons operation rest ih =>
      rw [secretInputChecks]
      split_ifs with hinput
      · rw [String.toList_append, List.countP_cons_of_pos hinput, List.range'_succ, List.map_cons]
        exact (reads_secretInputCheck (secretNumber + 1)).append (ih (secretNumber + 1))
      · rw [List.countP_cons_of_neg hinput]
        exact ih secretNumber

theorem run_podman : run "podman".toList ⟨.blank, []⟩ =
    some ⟨.bare (literals "podman".toList), []⟩ := by decide

theorem reads_podmanCommand {operation : RenderedOperation} (h : Unbroken operation.cli.argv)
    (hinput : operation.hasExternalInput = false) (secretNumber : ℕ) :
    Reads (podmanCommand operation "").toList [podmanInvocation operation secretNumber] := by
  have hline := newline_notMem_invocation h
  have hempty : "".toList = [] := rfl
  have hcommand : podmanInvocation operation secretNumber =
      ⟨literals "podman".toList :: (operation.cli.argv.map String.toList).map literals, none⟩ := by
    rw [podmanInvocation, hinput, List.map_map]
    rfl
  rw [podmanCommand_toList, hempty, List.append_nil, hcommand]
  exact Reads.command hline (readLine_invocation _ run_podman) (List.cons_ne_nil _ _)

theorem reads_redirectedCommand {operation : RenderedOperation} (h : Unbroken operation.cli.argv)
    (hinput : operation.hasExternalInput = true) (secretNumber : ℕ) :
    Reads (podmanCommand operation
        (" < \"$\x7b" ++ secretInputName secretNumber ++ "\x7d\"")).toList
      [podmanInvocation operation secretNumber] := by
  have hline : '\n' ∉ invocation "podman".toList (operation.cli.argv.map String.toList) ++
      redirection (secretInputName secretNumber).toList := by
    simp only [redirection, List.mem_append, not_or]
    exact ⟨newline_notMem_invocation h, by decide, newline_notMem_secretInputName _, by decide⟩
  have hcommand : podmanInvocation operation secretNumber =
      ⟨literals "podman".toList :: (operation.cli.argv.map String.toList).map literals,
        some [.parameter (secretInputName secretNumber).toList]⟩ := by
    rw [podmanInvocation, hinput, List.map_map]
    rfl
  rw [podmanCommand_toList, redirection_toList, hcommand]
  exact Reads.command hline (readLine_redirected _ run_podman (isName_secretInputName _))
    (List.cons_ne_nil _ _)

/-- The operations up to and including the i-th count the external inputs. -/
def scriptCommands (secretNumber : ℕ) (operations : List RenderedOperation) : List Command :=
  operations.mapIdx fun i operation => podmanInvocation operation
    (secretNumber + (operations.take (i + 1)).countP RenderedOperation.hasExternalInput)

theorem scriptCommands_cons (secretNumber : ℕ) (operation : RenderedOperation)
    (rest : List RenderedOperation) :
    scriptCommands secretNumber (operation :: rest) =
      podmanInvocation operation (secretNumber + if operation.hasExternalInput then 1 else 0) ::
        scriptCommands (secretNumber + if operation.hasExternalInput then 1 else 0) rest := by
  have hcount (others : List RenderedOperation) :
      secretNumber + (operation :: others).countP RenderedOperation.hasExternalInput =
        secretNumber + (if operation.hasExternalInput then 1 else 0) +
          others.countP RenderedOperation.hasExternalInput := by
    rw [List.countP_cons]
    omega
  simp only [scriptCommands, List.mapIdx_cons, List.take_succ_cons, hcount, List.take_zero,
    List.countP_nil, Nat.add_zero]

theorem reads_podmanCommands (secretNumber : ℕ) {operations : List RenderedOperation}
    (h : ∀ operation ∈ operations, Unbroken operation.cli.argv) :
    Reads (podmanCommands secretNumber operations).toList
      (scriptCommands secretNumber operations) := by
  induction operations generalizing secretNumber with
  | nil => exact .nil
  | cons operation rest ih =>
      have hargv := h operation List.mem_cons_self
      have hrest := fun other hother => h other (List.mem_cons_of_mem _ hother)
      rw [podmanCommands, scriptCommands_cons]
      cases hinput : operation.hasExternalInput with
      | true =>
          rw [if_pos rfl, if_pos rfl, String.toList_append]
          exact (reads_redirectedCommand hargv hinput _).append (ih (secretNumber + 1) hrest)
      | false =>
          rw [if_neg Bool.false_ne_true, if_neg Bool.false_ne_true, String.toList_append]
          exact (reads_podmanCommand hargv hinput _).append (ih secretNumber hrest)

theorem managedImageSources_unbroken (plan : DeploymentPlan) :
    (managedImageSources plan).Unbroken := by
  intro identity source hget
  obtain ⟨operation, -, hentry⟩ := exists_of_getElem?_insertAll hget
  split at hentry
  · next image _ =>
      cases hentry
      exact image.source.controlFree_asStr
  · cases hentry

theorem RenderScan.Complete.unbroken {plan : DeploymentPlan} {version : String}
    {policy : SensitiveInlineRenderPolicy} {done : List DeploymentOperation} {scan : RenderScan}
    (h : scan.Complete plan version policy done) :
    ∀ operation ∈ scan.operations, Unbroken operation.cli.argv := by
  intro rendered hmem
  obtain ⟨operation, -, forms, hforms, rfl⟩ := h.exists_forms hmem
  refine unbroken_append.mpr ⟨unbroken_repeated (by decide) fun name hname => ?_,
    unbroken_renderForms (managedImageSources_unbroken plan) hforms⟩
  cases hconnection : plan.connection with
  | none => simp [hconnection] at hname
  | some connection =>
      rw [hconnection, Option.map_some, Option.toList_some, List.mem_singleton] at hname
      rw [hname]
      exact controlFree_of_validConnectionName connection.accepted

end Reading

/-- Read as shell text, the script of a rendering sets its options, checks every numbered secret
input, and runs one command for each operation whose words are `podman` and its arguments. -/
theorem shellScript_reads_back (plan : DeploymentPlan) (policy : SensitiveInlineRenderPolicy)
    (rendering : DeploymentRendering)
    (h : (renderDeploymentInner plan policy).rendering = some rendering) :
    readScript rendering.shellScript.toList = some ([setOptions] ++
      (List.range' 1 (rendering.operations.countP RenderedOperation.hasExternalInput)).map
        requireInput ++
      rendering.operations.mapIdx fun i operation => podmanInvocation operation
        ((rendering.operations.take (i + 1)).countP RenderedOperation.hasExternalInput)) := by
  obtain ⟨version, -, scan, hscan, rfl⟩ := renderDeploymentInner_eq_some h
  have hcommands := reads_podmanCommands 0 hscan.unbroken
  simp only [scriptCommands, Nat.zero_add] at hcommands
  apply Reads.readScript
  rw [DeploymentRendering.shellScript, String.toList_append, String.toList_append,
    String.toList_append]
  exact ((reads_header.append (reads_preconditions plan.externalPreconditions)).append
    (reads_secretInputChecks 0 scan.operations)).append hcommands

theorem shellScript_reads_back_sample :
    (readScript sampleRendering.shellScript.toList).isSome = true := by
  rw [shellScript_reads_back samplePlan .reject sampleRendering (Option.some_get _).symm]
  rfl

end PodmanLens
