import PodmanLens.CreateMounts

/-!
# Creation commands

An inspected container keeps the command line that created it. The scanner skips the options it
knows, with their inline or separate values, records the mounts among them, and takes the first
other word as the authored image. It never guesses the arity of an option it does not know.
-/

namespace PodmanLens
open Text Json

section Values

def maxAuthoredMountRelabels : ℕ := 64
def maxCreateCommandArguments : ℕ := 256
def maxCreateCommandArgumentBytes : ℕ := 16 * 1024
def maxCreateCommandArgumentBytesPerValue : ℕ := 4 * 1024

inductive ParsedCreateMountRelabels
  | observed (mounts : List ParsedCreateMount)
  | malformed
  | unavailable
  deriving DecidableEq

/-- A malformed mount outlasts every other state, an unavailable one every observation. -/
def ParsedCreateMountRelabels.record (relabels : ParsedCreateMountRelabels)
    (parsed : ParsedCreateMountRelabel) : ParsedCreateMountRelabels :=
  match parsed with
  | .irrelevant => relabels
  | .observed mount =>
    match relabels with
    | .observed mounts =>
      if maxAuthoredMountRelabels ≤ mounts.length then .unavailable
      else .observed (mounts ++ [mount])
    | _ => relabels
  | .malformed => .malformed
  | .unavailable => if relabels = .malformed then .malformed else .unavailable

structure ParsedCreateCommand where
  image : String
  mountRelabels : ParsedCreateMountRelabels
  deriving DecidableEq

inductive CreateCommandParse
  | absent
  | malformed
  | unavailable
  | parsed (command : ParsedCreateCommand)
  deriving DecidableEq

/-- The arguments from a byte total on, or the state that ends their reading. -/
def boundedArguments (bytes : ℕ) : List Value → Except CreateCommandParse (List String)
  | [] => .ok []
  | .string argument :: rest =>
    if maxCreateCommandArgumentBytesPerValue < argument.utf8ByteSize then .error .unavailable
    else if maxCreateCommandArgumentBytes < bytes + argument.utf8ByteSize then .error .unavailable
    else (boundedArguments (bytes + argument.utf8ByteSize) rest).map (argument :: ·)
  | _ :: _ => .error .malformed

def boundedCreateCommandValues :
    Option Value → Except CreateCommandParse (Option (List String))
  | none | some .null => .ok none
  | some (.array arguments) =>
    if maxCreateCommandArguments < arguments.length then .error .unavailable
    else (boundedArguments 0 arguments).map some
  | some _ => .error .malformed

end Values

section Scanner

def stripText (front text : String) : Option String :=
  (text.toList.dropPrefix? front.toList).map String.ofList

def flagsWithoutValue : List String :=
  ["-d", "-i", "-t", "--detach", "--interactive", "--tty", "--rm", "--replace", "--privileged",
    "--read-only", "--init", "--no-hosts", "--http-proxy"]

def isCreateFlagWithoutValue (option : String) : Bool := flagsWithoutValue.contains option

def flagsWithValue : List String :=
  ["name", "pod", "network", "network-alias", "publish", "env", "env-file", "label", "label-file",
    "annotation", "user", "workdir", "entrypoint", "hostname", "restart", "health-cmd",
    "health-interval", "health-timeout", "health-retries", "health-start-period", "memory",
    "memory-reservation", "memory-swap", "cpus", "cpu-shares", "cpu-period", "cpu-quota",
    "pids-limit", "ulimit", "security-opt", "cap-add", "cap-drop", "device", "dns", "dns-option",
    "dns-search", "add-host", "tmpfs", "expose", "stop-signal", "stop-timeout", "log-driver",
    "log-opt", "cgroup-parent", "cgroupns", "ipc", "pid", "uts", "userns", "gidmap", "uidmap",
    "shm-size", "secret", "credential", "pull", "authfile", "creds", "platform", "preserve-fd"]

def isCreateFlagWithValue (option : String) : Bool := flagsWithValue.contains option

/-- A mount option whose value is part of the same word. -/
def attachedMount (argument : String) : Option (CreateMountKind × String) :=
  match stripText "--volume=" argument with
  | some value => some (.volume, value)
  | none =>
    match stripText "--mount=" argument with
    | some value => some (.mount, value)
    | none =>
      match stripText "-v" argument with
      | some value => if value.isEmpty then none else some (.volume, value)
      | none => none

/-- A mount option whose value is the next word. -/
def detachedMount (argument : String) : Option CreateMountKind :=
  if argument = "--mount" then some .mount
  else if argument = "--volume" ∨ argument = "-v" then some .volume
  else none

/-- The name of a long option, and whether its value is inline. -/
def longOption (argument : String) : Option (String × Bool) :=
  (stripText "--" argument).map fun option =>
    match splitFirst '=' option with
    | some (name, _) => (name, true)
    | none => (option, false)

def takeImage (relabels : ParsedCreateMountRelabels) (words : List String) : CreateCommandParse :=
  match words with
  | [] => .malformed
  | image :: _ => .parsed ⟨image, relabels⟩

def scanCreateOptions (relabels : ParsedCreateMountRelabels) : List String → CreateCommandParse
  | [] => .malformed
  | argument :: rest =>
    if argument = "--" then takeImage relabels rest
    else if !"-".toList.isPrefixOf argument.toList || argument == "-" then
      takeImage relabels (argument :: rest)
    else
      match attachedMount argument with
      | some (kind, value) =>
        scanCreateOptions (relabels.record (parseCreateMountRelabel kind value)) rest
      | none =>
        match detachedMount argument with
        | some kind =>
          match rest with
          | [] => .malformed
          | value :: rest =>
            scanCreateOptions (relabels.record (parseCreateMountRelabel kind value)) rest
        | none =>
          if isCreateFlagWithoutValue argument then scanCreateOptions relabels rest
          else
            match longOption argument with
            | some (option, inlineValue) =>
              if !isCreateFlagWithValue option then .unavailable
              else if inlineValue then scanCreateOptions relabels rest
              else
                match rest with
                | [] => .malformed
                | _ :: rest => scanCreateOptions relabels rest
            | none => .unavailable

def scanCreateAction (words : List String) : CreateCommandParse :=
  match words with
  | [] => .unavailable
  | action :: rest =>
    if action = "create" ∨ action = "run" then scanCreateOptions (.observed []) rest
    else .unavailable

def isPodmanProgram (program : String) : Bool :=
  program == "podman" || "/podman".toList.isSuffixOf program.toList

def parseCreateCommand (value : Option Value) : CreateCommandParse :=
  match boundedCreateCommandValues value with
  | .error state => state
  | .ok none => .absent
  | .ok (some []) => .malformed
  | .ok (some (program :: remaining)) =>
    if !isPodmanProgram program then .unavailable
    else
      match remaining with
      | [] => .unavailable
      | word :: rest =>
        if word = "container" then scanCreateAction rest else scanCreateAction (word :: rest)

end Scanner

section Flags

/-- An option of a creation command as a user spells it. -/
inductive CreateFlag
  | valueless (word : String) (h : isCreateFlagWithoutValue word = true)
  | inlineValue (name value : String) (h : isCreateFlagWithValue name = true)
  | separateValue (name value : String) (h : isCreateFlagWithValue name = true)
  | inlineMount (kind : CreateMountKind) (value : String)
  | shortVolume (value : String) (h : value.isEmpty = false)
  | separateMount (word : String) (kind : CreateMountKind) (h : detachedMount word = some kind)
      (value : String)

def CreateMountKind.longName : CreateMountKind → String
  | .volume => "--volume="
  | .mount => "--mount="

namespace CreateFlag

def words : CreateFlag → List String
  | .valueless word _ => [word]
  | .inlineValue name value _ => ["--" ++ name ++ "=" ++ value]
  | .separateValue name value _ => ["--" ++ name, value]
  | .inlineMount kind value => [kind.longName ++ value]
  | .shortVolume value _ => ["-v" ++ value]
  | .separateMount word _ _ value => [word, value]

/-- What a mount option says about relabelling, nothing for the other options. -/
def relabel : CreateFlag → Option ParsedCreateMountRelabel
  | .inlineMount kind value => some (parseCreateMountRelabel kind value)
  | .shortVolume value _ => some (parseCreateMountRelabel .volume value)
  | .separateMount _ kind _ value => some (parseCreateMountRelabel kind value)
  | _ => none

end CreateFlag

section Steps
variable {argument : String} (relabels : ParsedCreateMountRelabels) (rest : List String)

end Steps

end Flags

section Recorded

def ParsedCreateMountRelabel.mount : ParsedCreateMountRelabel → Option ParsedCreateMount
  | .observed mount => some mount
  | _ => none

/-- The states that only a malformed mount changes. -/
def Unrecorded (parsed : List ParsedCreateMountRelabel) : Prop :=
  .unavailable ∈ parsed ∨
    maxAuthoredMountRelabels < (parsed.filterMap ParsedCreateMountRelabel.mount).length

instance : DecidablePred Unrecorded := fun _ => inferInstanceAs (Decidable (_ ∨ _))

theorem Unrecorded.append {parsed : List ParsedCreateMountRelabel} (h : Unrecorded parsed)
    (next : ParsedCreateMountRelabel) : Unrecorded (parsed ++ [next]) := by
  rcases h with h | h
  · exact Or.inl (List.mem_append_left _ h)
  · refine Or.inr (h.trans_le ?_)
    rw [List.filterMap_append, List.length_append]
    exact Nat.le_add_right _ _

end Recorded

section Vectors

/-- The words before the options: a program, and `create` or `run` with an optional noun. -/
structure CreateHead where
  program : String
  hasNoun : Bool
  action : String
  haction : action = "create" ∨ action = "run"

def CreateHead.words (head : CreateHead) : List String :=
  head.program :: (if head.hasNoun then ["container", head.action] else [head.action])

/-- A creation command as a user writes it. -/
structure CreateVector where
  head : CreateHead
  flags : List CreateFlag
  terminated : Bool
  image : String
  trailing : List String
  program : isPodmanProgram head.program = true
  operand : terminated = true ∨ "-".toList.isPrefixOf image.toList = false

namespace CreateVector

def words (vector : CreateVector) : List String :=
  vector.head.words ++ (vector.flags.flatMap CreateFlag.words ++
    ((if vector.terminated then ["--"] else []) ++ vector.image :: vector.trailing))

end CreateVector

end Vectors

end PodmanLens
