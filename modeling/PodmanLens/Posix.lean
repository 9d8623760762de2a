import Mathlib.Data.List.Basic

/-!
# Reading shell scripts line by line

A strict reader of POSIX `sh` text: quoting, comments, blanks, input redirection, and the parameter
expansions `"${name}"` and `"${name:?message}"`. It refuses whatever else the shell gives meaning
to, command substitution, globs, operators and unquoted expansions, so a word that it returns is
the word that the shell passes on. `Reads` composes the commands of a text line by line.
-/

namespace Posix

inductive Fragment
  | literal (c : Char)
  | parameter (name : List Char)
  | required (name message : List Char)
  deriving DecidableEq

abbrev Word := List Fragment

def literals (cs : List Char) : Word := cs.map .literal

def literalWord (s : String) : Word := literals s.toList

inductive Token
  | word (word : Word)
  | redirectInput
  deriving DecidableEq

/-- Where the reader stands in a line, with the word that it is collecting. -/
inductive Mode
  | blank
  | comment
  | bare (word : Word)
  | bareEscape (word : Word)
  | single (word : Word)
  | double (word : Word)
  | doubleEscape (word : Word)
  | dollar (word : Word)
  | name (word : Word) (name : List Char)
  | operator (word : Word) (name : List Char)
  | message (word : Word) (name message : List Char)
  deriving DecidableEq

structure State where
  mode : Mode
  tokens : List Token
  deriving DecidableEq

def isBlank (c : Char) : Bool := c == ' ' || c == '\t'

/-- Unquoted characters that the shell never interprets. -/
def isBareChar (c : Char) : Bool :=
  c.isAlphanum || c == '_' || c == '-' || c == '.' || c == '/' || c == ':'

def isName : List Char → Bool
  | [] => false
  | first :: rest =>
    (first.isAlpha || first == '_') && rest.all fun c => c.isAlphanum || c == '_'

theorem isName_append {name rest : List Char} (hname : isName name = true)
    (hrest : ∀ c ∈ rest, (c.isAlphanum || c == '_') = true) : isName (name ++ rest) = true := by
  cases name with
  | nil => cases hname
  | cons first tail =>
      simp only [isName, List.cons_append, Bool.and_eq_true, List.all_append] at hname ⊢
      exact ⟨hname.1, hname.2, List.all_eq_true.mpr hrest⟩

theorem forall_of_isName {name : List Char} (h : isName name = true) :
    ∀ c ∈ name, (c.isAlphanum || c == '_') = true := by
  cases name with
  | nil => simp
  | cons first rest =>
      simp only [isName, Bool.and_eq_true, List.all_eq_true] at h
      have hfirst : (first.isAlphanum || first == '_') = true := by
        have hstart := h.1
        simp only [Char.isAlphanum, Bool.or_eq_true] at hstart ⊢
        exact hstart.imp_left .inl
      exact List.forall_mem_cons.mpr ⟨hfirst, h.2⟩

/-- The characters that keep a meaning between double quotes. -/
def isDoubleSpecial (c : Char) : Bool := c == '$' || c == '\x60' || c == '"' || c == '\\'

def bareStep (word : Word) (c : Char) : Option Mode :=
  if c = '\'' then some (.single word)
  else if c = '"' then some (.double word)
  else if c = '\\' then some (.bareEscape word)
  else if isBareChar c then some (.bare (word ++ [.literal c]))
  else none

def doubleStep (word : Word) (c : Char) : Option Mode :=
  if c = '"' then some (.bare word)
  else if c = '\\' then some (.doubleEscape word)
  else if c = '$' then some (.dollar word)
  else if isDoubleSpecial c then none
  else some (.double (word ++ [.literal c]))

def nameStep (word : Word) (name : List Char) (c : Char) : Option Mode :=
  if c = '\x7d' then if isName name then some (.double (word ++ [.parameter name])) else none
  else if c = ':' then if isName name then some (.operator word name) else none
  else some (.name word (name ++ [c]))

def messageStep (word : Word) (name message : List Char) (c : Char) : Option Mode :=
  if c = '\x7d' then some (.double (word ++ [.required name message]))
  else if isDoubleSpecial c then none
  else some (.message word name (message ++ [c]))

def step (state : State) (c : Char) : Option State :=
  let go := Option.map fun mode => { state with mode }
  match state.mode with
  | .blank =>
    if isBlank c then some state
    else if c = '#' then some { state with mode := .comment }
    else if c = '<' then some { state with tokens := state.tokens ++ [.redirectInput] }
    else go (bareStep [] c)
  | .comment => some state
  | .bare word =>
    if isBlank c then some ⟨.blank, state.tokens ++ [.word word]⟩ else go (bareStep word c)
  | .bareEscape word => some { state with mode := .bare (word ++ [.literal c]) }
  | .single word =>
    some { state with mode := if c = '\'' then .bare word else .single (word ++ [.literal c]) }
  | .double word => go (doubleStep word c)
  | .doubleEscape word =>
    some { state with
      mode := .double (word ++ if isDoubleSpecial c then [.literal c] else literals ['\\', c]) }
  | .dollar word => if c = '\x7b' then some { state with mode := .name word [] } else none
  | .name word name => go (nameStep word name c)
  | .operator word name =>
    if c = '?' then some { state with mode := .message word name [] } else none
  | .message word name message => go (messageStep word name message c)

def run (cs : List Char) (state : State) : Option State := cs.foldlM step state

/-- An open quote or expansion at the end of a line is refused. -/
def finish (state : State) : Option (List Token) :=
  match state.mode with
  | .blank | .comment => some state.tokens
  | .bare word => some (state.tokens ++ [.word word])
  | _ => none

def tokenize (line : List Char) : Option (List Token) := (run line ⟨.blank, []⟩).bind finish

structure Command where
  words : List Word
  stdin : Option Word := none
  deriving DecidableEq

/-- The words of a line in order, and the last file that standard input is taken from. -/
def commandOf : List Token → Option Command
  | [] => some ⟨[], none⟩
  | .word word :: rest =>
    (commandOf rest).map fun command => { command with words := word :: command.words }
  | .redirectInput :: .word file :: rest =>
    (commandOf rest).map fun command => { command with stdin := command.stdin.or (some file) }
  | .redirectInput :: _ => none

def Command.isEmpty (command : Command) : Bool := command.words.isEmpty && command.stdin.isNone

def readLine (line : List Char) : Option Command := (tokenize line).bind commandOf

/-- The commands of a script, without its comments and empty lines. -/
def readScript (text : List Char) : Option (List Command) :=
  ((text.splitOn '\n').mapM readLine).map fun commands => commands.filter fun c => !c.isEmpty

section Run

theorem run_append (before after : List Char) (state : State) :
    run (before ++ after) state = (run before state).bind (run after) := List.foldlM_append

theorem run_cons (c : Char) (cs : List Char) (state : State) :
    run (c :: cs) state = (step state c).bind (run cs) := List.foldlM_cons

@[simp] theorem run_nil (state : State) : run [] state = some state := rfl

variable (tokens : List Token)

theorem run_comment (cs : List Char) :
    run cs ⟨.comment, tokens⟩ = some ⟨.comment, tokens⟩ := by
  induction cs with
  | nil => rfl
  | cons c cs ih => exact ih

/-- A quote inside single quotes is left, quoted by itself, and entered again. -/
def quoteChar (c : Char) : List Char :=
  if c = '\'' then ['\'', '"', '\'', '"', '\''] else [c]

def quoted (cs : List Char) : List Char := '\'' :: cs.flatMap quoteChar ++ ['\'']

theorem run_quoteChar (word : Word) (c : Char) :
    run (quoteChar c) ⟨.single word, tokens⟩ = some ⟨.single (word ++ [.literal c]), tokens⟩ := by
  by_cases hquote : c = '\''
  · subst hquote
    rfl
  · simp [quoteChar, hquote, run_cons, step]

theorem run_quoteChars (word : Word) (cs : List Char) :
    run (cs.flatMap quoteChar) ⟨.single word, tokens⟩ =
      some ⟨.single (word ++ literals cs), tokens⟩ := by
  induction cs generalizing word with
  | nil => simp [literals]
  | cons c cs ih =>
      rw [List.flatMap_cons, run_append, run_quoteChar, Option.bind_some, ih]
      simp [literals]

/-- Quoting protects every character: the word that is read back is the quoted text. -/
theorem run_quoted (word : Word) (cs : List Char) :
    run (quoted cs) ⟨.bare word, tokens⟩ = some ⟨.bare (word ++ literals cs), tokens⟩ := by
  have hopen : step ⟨.bare word, tokens⟩ '\'' = some ⟨.single word, tokens⟩ := rfl
  have hclose (inner : Word) : run ['\''] ⟨.single inner, tokens⟩ = some ⟨.bare inner, tokens⟩ := rfl
  rw [quoted, List.cons_append, run_cons, hopen, Option.bind_some, run_append, run_quoteChars,
    Option.bind_some, hclose]

theorem run_argument (word : Word) (cs : List Char) :
    run (' ' :: quoted cs) ⟨.bare word, tokens⟩ =
      some ⟨.bare (literals cs), tokens ++ [.word word]⟩ := by
  have hblank : step ⟨.bare word, tokens⟩ ' ' = some ⟨.blank, tokens ++ [.word word]⟩ := rfl
  have hquote (rest : List Char) : run ('\'' :: rest) ⟨.blank, tokens ++ [.word word]⟩ =
      run ('\'' :: rest) ⟨.bare [], tokens ++ [.word word]⟩ := rfl
  rw [run_cons, hblank, Option.bind_some]
  exact (hquote _).trans (run_quoted _ [] cs)

theorem run_arguments (word : Word) (arguments : List (List Char)) :
    ∃ state, run (arguments.flatMap fun cs => ' ' :: quoted cs) ⟨.bare word, tokens⟩ = some state ∧
      ∃ last, state.mode = .bare last ∧
        state.tokens ++ [.word last] =
          tokens ++ .word word :: arguments.map fun cs => .word (literals cs) := by
  induction arguments generalizing word tokens with
  | nil => exact ⟨_, rfl, word, rfl, rfl⟩
  | cons cs rest ih =>
      obtain ⟨state, hrun, last, hmode, htokens⟩ := ih (tokens ++ [.word word]) (literals cs)
      refine ⟨state, ?_, last, hmode, ?_⟩
      · rw [List.flatMap_cons, run_append, run_argument, Option.bind_some, hrun]
      · rw [htokens]
        simp

theorem run_name (word : Word) (name : List Char) {cs : List Char}
    (h : ∀ c ∈ cs, (c.isAlphanum || c == '_') = true) :
    run cs ⟨.name word name, tokens⟩ = some ⟨.name word (name ++ cs), tokens⟩ := by
  induction cs generalizing name with
  | nil => simp
  | cons c cs ih =>
      have hc := h c List.mem_cons_self
      have hclose : c ≠ '\x7d' := by
        rintro rfl
        exact absurd hc (by decide)
      have hcolon : c ≠ ':' := by
        rintro rfl
        exact absurd hc (by decide)
      have hstep : step ⟨.name word name, tokens⟩ c = some ⟨.name word (name ++ [c]), tokens⟩ := by
        simp [step, nameStep, hclose, hcolon]
      rw [run_cons, hstep, Option.bind_some, ih _ fun d hd => h d (List.mem_cons_of_mem _ hd)]
      simp

theorem run_message (word : Word) (name message : List Char) {cs : List Char}
    (h : ∀ c ∈ cs, c ≠ '\x7d' ∧ isDoubleSpecial c = false) :
    run cs ⟨.message word name message, tokens⟩ =
      some ⟨.message word name (message ++ cs), tokens⟩ := by
  induction cs generalizing message with
  | nil => simp
  | cons c cs ih =>
      obtain ⟨hclose, hplain⟩ := h c List.mem_cons_self
      have hstep : step ⟨.message word name message, tokens⟩ c =
          some ⟨.message word name (message ++ [c]), tokens⟩ := by
        simp [step, messageStep, hclose, hplain]
      rw [run_cons, hstep, Option.bind_some, ih _ fun d hd => h d (List.mem_cons_of_mem _ hd)]
      simp

end Run

section Lines

theorem commandOf_words (words : List Word) (rest : List Token) :
    commandOf (words.map .word ++ rest) =
      (commandOf rest).map fun command => { command with words := words ++ command.words } := by
  induction words with
  | nil => simp
  | cons word words ih =>
      rw [List.map_cons, List.cons_append, commandOf, ih, Option.map_map]
      rfl

/-- A program name without special characters, then quoted arguments. -/
def invocation (program : List Char) (arguments : List (List Char)) : List Char :=
  program ++ arguments.flatMap fun cs => ' ' :: quoted cs

def redirection (name : List Char) : List Char :=
  [' ', '<', ' ', '"', '$', '\x7b'] ++ (name ++ ['\x7d', '"'])

variable {program : List Char} (arguments : List (List Char))

theorem run_invocation (h : run program ⟨.blank, []⟩ = some ⟨.bare (literals program), []⟩) :
    ∃ state, run (invocation program arguments) ⟨.blank, []⟩ = some state ∧
      ∃ last, state.mode = .bare last ∧
        state.tokens ++ [.word last] = (literals program :: arguments.map literals).map .word := by
  obtain ⟨state, hrun, last, hmode, htokens⟩ := run_arguments [] (literals program) arguments
  refine ⟨state, ?_, last, hmode, ?_⟩
  · rw [invocation, run_append, h, Option.bind_some, hrun]
  · rw [htokens]
    simp

theorem readLine_invocation
    (h : run program ⟨.blank, []⟩ = some ⟨.bare (literals program), []⟩) :
    readLine (invocation program arguments) =
      some ⟨literals program :: arguments.map literals, none⟩ := by
  obtain ⟨⟨mode, tokens⟩, hrun, last, rfl, htokens⟩ := run_invocation arguments h
  have hfinish : finish ⟨.bare last, tokens⟩ = some (tokens ++ [.word last]) := rfl
  rw [readLine, tokenize, hrun, Option.bind_some, hfinish, Option.bind_some, htokens,
    ← List.append_nil (List.map _ _), commandOf_words]
  simp [commandOf]

theorem run_redirection {name : List Char} (hname : isName name = true) (word : Word)
    (tokens : List Token) :
    run (redirection name) ⟨.bare word, tokens⟩ =
      some ⟨.bare [.parameter name], tokens ++ [.word word, .redirectInput]⟩ := by
  have hopen : run [' ', '<', ' ', '"', '$', '\x7b'] ⟨.bare word, tokens⟩ =
      some ⟨.name [] [], tokens ++ [.word word] ++ [.redirectInput]⟩ := rfl
  have hclose (t : List Token) : run ['\x7d', '"'] ⟨.name [] name, t⟩ =
      some ⟨.bare [.parameter name], t⟩ := by
    simp [run_cons, step, nameStep, doubleStep, hname]
  rw [redirection, run_append, hopen, Option.bind_some, run_append, run_name _ _ _ (forall_of_isName hname),
    Option.bind_some, List.nil_append, hclose]
  simp

theorem readLine_redirected
    (h : run program ⟨.blank, []⟩ = some ⟨.bare (literals program), []⟩) {name : List Char}
    (hname : isName name = true) :
    readLine (invocation program arguments ++ redirection name) =
      some ⟨literals program :: arguments.map literals, some [.parameter name]⟩ := by
  obtain ⟨⟨mode, tokens⟩, hrun, last, rfl, htokens⟩ := run_invocation arguments h
  have hfinish : finish ⟨.bare [.parameter name], tokens ++ [.word last, .redirectInput]⟩ =
      some (tokens ++ [.word last] ++ [.redirectInput, .word [.parameter name]]) := by
    simp [finish]
  rw [readLine, tokenize, run_append, hrun, Option.bind_some, run_redirection hname,
    Option.bind_some, hfinish, Option.bind_some, htokens, commandOf_words]
  simp [commandOf]

/-- The null command with a check that a variable is set. -/
def requirement (name message : List Char) : List Char :=
  [':', ' ', '"', '$', '\x7b'] ++ (name ++ ([':', '?'] ++ (message ++ ['\x7d', '"'])))

theorem readLine_requirement {name message : List Char} (hname : isName name = true)
    (hmessage : ∀ c ∈ message, c ≠ '\x7d' ∧ isDoubleSpecial c = false) :
    readLine (requirement name message) =
      some ⟨[[.literal ':'], [.required name message]], none⟩ := by
  have hopen : run [':', ' ', '"', '$', '\x7b'] ⟨.blank, []⟩ =
      some ⟨.name [] [], [.word [.literal ':']]⟩ := rfl
  have hoperator (tokens : List Token) :
      run [':', '?'] ⟨.name [] name, tokens⟩ = some ⟨.message [] name [], tokens⟩ := by
    simp [run_cons, step, nameStep, hname]
  have hclose (tokens : List Token) : run ['\x7d', '"'] ⟨.message [] name message, tokens⟩ =
      some ⟨.bare [.required name message], tokens⟩ := rfl
  rw [readLine, tokenize, requirement, run_append, hopen, Option.bind_some, run_append,
    run_name _ _ _ (forall_of_isName hname), Option.bind_some, List.nil_append, run_append,
    hoperator, Option.bind_some, run_append, run_message _ _ _ _ hmessage, Option.bind_some,
    List.nil_append, hclose]
  rfl

end Lines

section Scripts

/-- `text` contributes `commands` to whatever script it begins. -/
def Reads (text : List Char) (commands : List Command) : Prop :=
  ∀ rest, readScript (text ++ rest) = (readScript rest).map (commands ++ ·)

theorem Reads.nil : Reads [] [] := by
  intro rest
  simp

theorem Reads.append {first second : List Char} {before after : List Command}
    (hfirst : Reads first before) (hsecond : Reads second after) :
    Reads (first ++ second) (before ++ after) := by
  intro rest
  rw [List.append_assoc, hfirst, hsecond, Option.map_map]
  congr 1
  funext commands
  exact (List.append_assoc before after commands).symm

theorem Reads.line {line : List Char} {command : Command} (hline : '\n' ∉ line)
    (hread : readLine line = some command) :
    Reads (line ++ ['\n']) (if command.isEmpty then [] else [command]) := by
  intro rest
  rw [List.append_assoc, List.singleton_append, readScript, readScript,
    List.splitOn_append_cons_self_of_not_mem hline, List.mapM_cons, hread]
  cases (rest.splitOn '\n').mapM readLine with
  | none => rfl
  | some commands =>
      cases hempty : command.isEmpty <;> simp [hempty]

theorem Reads.command {line : List Char} {command : Command} (hline : '\n' ∉ line)
    (hread : readLine line = some command) (hwords : command.words ≠ []) :
    Reads (line ++ ['\n']) [command] := by
  have hcommand : command.isEmpty = false := by simp [Command.isEmpty, hwords]
  have hreads := Reads.line hline hread
  rwa [hcommand] at hreads

theorem Reads.comment {text : List Char} (h : '\n' ∉ text) :
    Reads ('#' :: text ++ ['\n']) [] := by
  have hread : readLine ('#' :: text) = some ⟨[], none⟩ := by
    have hopen : run ('#' :: text) ⟨.blank, []⟩ = run text ⟨.comment, []⟩ := rfl
    rw [readLine, tokenize, hopen, run_comment]
    rfl
  exact Reads.line (by simpa using h) hread

theorem Reads.readScript {text : List Char} {commands : List Command} (h : Reads text commands) :
    readScript text = some commands := by
  have hall := h []
  rw [List.append_nil] at hall
  rw [hall]
  change some (commands ++ []) = some commands
  rw [List.append_nil]

end Scripts

end Posix
