import PodmanLens.Fields
import PodmanLens.ImageSource
import PodmanLens.Radix

/-!
# The grammar of image references

A reference is an optional registry, repository components, and a tag or a digest. The registry
test takes a registry without a port, one with a decimal port, and two lax forms of a port: an empty
one, and a decimal one after a plus sign.
-/

namespace PodmanLens
open Text

section Grammar

/-- A host and an optional port. -/
structure Registry where
  host : List Char
  port : Option (List Char)
  deriving DecidableEq

def Registry.text (registry : Registry) : List Char :=
  registry.host ++ registry.port.elim [] (':' :: ·)

def Registry.localhost : Registry := ⟨"localhost".toList, none⟩

inductive ReferenceSuffix
  | bare
  | tag (label : List Char)
  | digest (digits : List Char)
  deriving DecidableEq

namespace ReferenceSuffix

def tagText : ReferenceSuffix → List Char
  | .tag label => ':' :: label
  | _ => []

def digestText : ReferenceSuffix → List Char
  | .digest digits => '@' :: ("sha256:".toList ++ digits)
  | _ => []

end ReferenceSuffix

/-- The tag belongs to the last repository component, the digest to the whole name. -/
structure Reference where
  registry : Option Registry
  path : List (List Char)
  last : List Char
  suffix : ReferenceSuffix
  deriving DecidableEq

namespace Reference

def components (reference : Reference) : List (List Char) :=
  reference.registry.toList.map Registry.text ++ reference.path ++
    [reference.last ++ reference.suffix.tagText]

def spell (reference : Reference) : List Char :=
  ['/'].intercalate reference.components ++ reference.suffix.digestText

def classification (reference : Reference) : ImageSourceClassification :=
  match reference.registry with
  | none => .unqualified
  | some registry =>
    if registry = .localhost then .local
    else if reference.suffix = .bare then .tagless
    else .portable

end Reference

/-- A decimal number between 1 and 65535. -/
def PlainPort (port : List Char) : Prop := Decimal 65535 port ∧ 0 < digitsValue port

/-- No digits, or a plus sign before them. -/
def LaxPort (port : List Char) : Prop :=
  port = [] ∨ ∃ digits, port = '+' :: digits ∧ PlainPort digits

/-- The characters of a registry label beside the hyphen. -/
def labelLetters : List Char := "abcdefghijklmnopqrstuvwxyz0123456789".toList

/-- One to 63 characters, without a hyphen at either end. -/
structure RegistryLabel (label : List Char) : Prop where
  chars : ∀ c ∈ label, c ∈ labelLetters ∨ c = '-'
  nonempty : 1 ≤ label.length
  bounded : label.length ≤ 63
  first : label.head? ≠ some '-'
  last : label.getLast? ≠ some '-'

/-- Dot-separated labels, and a port of the given form. -/
structure Registry.Formed (registry : Registry) (port : List Char → Prop) : Prop where
  host : ∀ label ∈ registry.host.splitOn '.', RegistryLabel label
  port : ∀ digits ∈ registry.port, port digits

/-- A first component that is taken for a registry when others follow. -/
def MarksRegistry (component : List Char) : Prop :=
  component = "localhost".toList ∨ '.' ∈ component ∨ ':' ∈ component

def ReferenceSuffix.Formed : ReferenceSuffix → Prop
  | .bare => True
  | .tag label => isTag label = true
  | .digest digits => digits.length = 64 ∧ ∀ c ∈ digits, isHexDigit c = true

/-- Only a first component that marks a registry is one. -/
structure Reference.Formed (reference : Reference) (port : List Char → Prop) : Prop where
  registry : ∀ registry ∈ reference.registry, registry.Formed port ∧ MarksRegistry registry.text
  unqualified : reference.registry = none → ∀ first ∈ reference.path.head?, ¬MarksRegistry first
  path : ∀ component ∈ reference.path, isRepositoryComponent component = true
  last : isRepositoryComponent reference.last = true
  suffix : reference.suffix.Formed

end Grammar

instance (component : List Char) : Decidable (MarksRegistry component) :=
  inferInstanceAs (Decidable (_ ∨ _ ∨ _))

section Characters

/-- The characters of a component, its port and its tag. -/
def isReferenceChar (c : Char) : Bool :=
  c.isAlphanum || c == '.' || c == '_' || c == '-' || c == ':' || c == '+'

theorem isAlphanum_of_isLowercaseOrDigit {c : Char} (h : isLowercaseOrDigit c = true) :
    c.isAlphanum = true := by
  unfold isLowercaseOrDigit isAsciiLowercase at h
  unfold Char.isAlphanum Char.isAlpha Char.isLower
  simp only [Bool.or_eq_true, Bool.and_eq_true, decide_eq_true_eq] at h ⊢
  exact h.imp_left Or.inr

theorem range_of_isReferenceChar {c : Char} (h : isReferenceChar c = true) :
    0x20 < c.toNat ∧ c.toNat < 0x7f := by
  simp only [isReferenceChar, Bool.or_eq_true, beq_iff_eq] at h
  rcases h with ((((h | rfl) | rfl) | rfl) | rfl) | rfl
  · have hrange := isAlphanum_range h
    omega
  all_goals decide

theorem separators_of_isReferenceChar {c : Char} (h : isReferenceChar c = true) :
    c ≠ '/' ∧ c ≠ '@' ∧ c ≠ '\\' := by
  refine ⟨?_, ?_, ?_⟩ <;>
  · rintro rfl
    revert h
    decide

theorem isReferenceChar_of_isAlphanum {c : Char} (h : c.isAlphanum = true) :
    isReferenceChar c = true := by
  simp only [isReferenceChar, h, Bool.true_or]

end Characters

section Parts

theorem isRepositoryComponent_chars {component : List Char}
    (h : isRepositoryComponent component = true) : component ≠ [] ∧ ∀ c ∈ component,
      isLowercaseOrDigit c = true ∨ c = '.' ∨ c = '_' ∨ c = '-' := by
  simp only [isRepositoryComponent, Bool.and_eq_true, Bool.not_eq_true', List.isEmpty_eq_false_iff,
    List.all_eq_true, Bool.or_eq_true, beq_iff_eq, or_assoc] at h
  exact ⟨h.1.1, h.2⟩

theorem isLowercaseOrDigit_iff {c : Char} : isLowercaseOrDigit c = true ↔ c ∈ labelLetters := by
  refine mem_iff_of_table (by decide +kernel) (fun c h => ?_) (by decide)
  have hrange := isAlphanum_range (isAlphanum_of_isLowercaseOrDigit h)
  omega

/-- The label test decides the grammar of labels. -/
theorem isRegistryLabel_iff {label : List Char} :
    isRegistryLabel label = true ↔ RegistryLabel label := by
  have hchars : (∀ c ∈ label, isLowercaseOrDigit c = true ∨ c = '-') ↔
      ∀ c ∈ label, c ∈ labelLetters ∨ c = '-' := by
    simp only [isLowercaseOrDigit_iff]
  have hend {c : Char} (h : isLowercaseOrDigit c = true ∨ c = '-') :
      isLowercaseOrDigit c = true ↔ c ≠ '-' := by
    refine ⟨?_, h.resolve_right⟩
    rintro hc rfl
    exact absurd hc (by decide)
  simp only [isRegistryLabel, Bool.and_eq_true, Bool.not_eq_true', List.isEmpty_eq_false_iff,
    List.all_eq_true, Bool.or_eq_true, beq_iff_eq, decide_eq_true_eq, Option.any_eq_true]
  constructor
  · rintro ⟨⟨⟨⟨hne, hlength⟩, first, hfirst, hfirstChar⟩, last, hlast, hlastChar⟩, hall⟩
    have hascii : byteLength label = label.length := byteLength_of_ascii fun c hc => by
      rcases hall c hc with h | rfl
      · have hrange := isAlphanum_range (isAlphanum_of_isLowercaseOrDigit h)
        omega
      · decide
    refine ⟨hchars.mp hall, List.length_pos_iff.mpr hne, hascii ▸ hlength, ?_, ?_⟩
    · rw [hfirst]
      exact fun h => (hend (.inl hfirstChar)).mp hfirstChar (Option.some.inj h)
    · rw [hlast]
      exact fun h => (hend (.inl hlastChar)).mp hlastChar (Option.some.inj h)
  · rintro ⟨hall, hnonempty, hbounded, hfirst, hlast⟩
    replace hall := hchars.mpr hall
    have hne : label ≠ [] := List.length_pos_iff.mp hnonempty
    have hascii : byteLength label = label.length := byteLength_of_ascii fun c hc => by
      rcases hall c hc with h | rfl
      · have hrange := isAlphanum_range (isAlphanum_of_isLowercaseOrDigit h)
        omega
      · decide
    refine ⟨⟨⟨⟨hne, hascii ▸ hbounded⟩, label.head hne, List.head?_eq_some_head hne, ?_⟩,
      label.getLast hne, List.getLast?_eq_some_getLast hne, ?_⟩, hall⟩
    · refine (hend (hall _ (List.head_mem hne))).mpr fun h => hfirst ?_
      rw [List.head?_eq_some_head hne, h]
    · refine (hend (hall _ (List.getLast_mem hne))).mpr fun h => hlast ?_
      rw [List.getLast?_eq_some_getLast hne, h]

instance (label : List Char) : Decidable (RegistryLabel label) :=
  decidable_of_iff _ isRegistryLabel_iff

theorem Registry.Formed.localhost (port : List Char → Prop) : Registry.localhost.Formed port :=
  ⟨by decide, fun digits hdigits => by cases hdigits⟩

theorem isTag_chars {label : List Char} (h : isTag label = true) :
    label ≠ [] ∧ ∀ c ∈ label, c.isAlphanum = true ∨ c = '.' ∨ c = '_' ∨ c = '-' := by
  simp only [isTag, Bool.and_eq_true, Bool.not_eq_true', List.isEmpty_eq_false_iff,
    List.all_eq_true, Bool.or_eq_true, beq_iff_eq, or_assoc] at h
  exact ⟨h.1.1.1, h.2⟩

theorem colon_notMem_component {component : List Char}
    (h : isRepositoryComponent component = true) : ':' ∉ component := by
  intro hmem
  rcases (isRepositoryComponent_chars h).2 ':' hmem with h | h | h | h
  · revert h
    decide
  all_goals exact absurd h (by decide)

theorem colon_notMem_tag {label : List Char} (h : isTag label = true) : ':' ∉ label := by
  intro hmem
  rcases (isTag_chars h).2 ':' hmem with h | h | h | h
  · revert h
    decide
  all_goals exact absurd h (by decide)

theorem referenceChars_of_component {component : List Char}
    (h : isRepositoryComponent component = true) : ∀ c ∈ component, isReferenceChar c = true := by
  intro c hc
  rcases (isRepositoryComponent_chars h).2 c hc with h | rfl | rfl | rfl
  · exact isReferenceChar_of_isAlphanum (isAlphanum_of_isLowercaseOrDigit h)
  all_goals rfl

theorem referenceChars_of_tag {label : List Char} (h : isTag label = true) :
    ∀ c ∈ label, isReferenceChar c = true := by
  intro c hc
  rcases (isTag_chars h).2 c hc with h | rfl | rfl | rfl
  · exact isReferenceChar_of_isAlphanum h
  all_goals rfl

end Parts

section Ports

/-- What the port test lets through. -/
def AcceptedPort (port : List Char) : Prop := PlainPort port ∨ LaxPort port

theorem acceptedPort_iff {port : List Char} : AcceptedPort port ↔
    port = [] ∨ ∃ value, parseUnsigned 65535 port = some value ∧ value ≠ 0 := by
  constructor
  · rintro (h | rfl | ⟨digits, rfl, h⟩)
    · exact Or.inr ⟨_, parseUnsigned_eq_some.mpr ⟨port, Or.inl rfl, h.1, rfl⟩, h.2.ne'⟩
    · exact Or.inl rfl
    · exact Or.inr ⟨_, parseUnsigned_eq_some.mpr ⟨digits, Or.inr rfl, h.1, rfl⟩, h.2.ne'⟩
  · rintro (rfl | ⟨value, hvalue, hne⟩)
    · exact Or.inr (Or.inl rfl)
    · obtain ⟨digits, rfl | rfl, hdecimal, rfl⟩ := parseUnsigned_eq_some.mp hvalue
      · exact Or.inl ⟨hdecimal, Nat.pos_of_ne_zero hne⟩
      · exact Or.inr (Or.inr ⟨digits, rfl, hdecimal, Nat.pos_of_ne_zero hne⟩)

theorem AcceptedPort.chars {port : List Char} (h : AcceptedPort port) :
    ∀ c ∈ port, c.isDigit = true ∨ c = '+' := by
  rcases h with h | rfl | ⟨digits, rfl, h⟩
  · exact fun c hc => Or.inl (h.1.2.1 c hc)
  · simp
  · exact List.forall_mem_cons.mpr ⟨Or.inr rfl, fun c hc => Or.inl (h.1.2.1 c hc)⟩

theorem not_laxPort_of_plainPort {port : List Char} (h : PlainPort port) : ¬LaxPort port := by
  rintro (rfl | ⟨digits, rfl, -⟩)
  · exact h.1.1 rfl
  · exact absurd List.mem_cons_self (h.1.notMem (c := '+') rfl)

end Ports

section Registries

variable {registry other : Registry} {port : List Char → Prop}

theorem host_chars {host : List Char} (h : ∀ label ∈ host.splitOn '.', RegistryLabel label) :
    host ≠ [] ∧ ∀ c ∈ host, isLowercaseOrDigit c = true ∨ c = '-' ∨ c = '.' := by
  constructor
  · rintro rfl
    exact absurd (h [] (by simp)).nonempty (by decide)
  · refine forall_of_splitOn '.' (Or.inr (Or.inr rfl)) fun label hlabel c hc => ?_
    exact ((h label hlabel).chars c hc).imp isLowercaseOrDigit_iff.mpr Or.inl

theorem colon_notMem_host {host : List Char}
    (h : ∀ label ∈ host.splitOn '.', RegistryLabel label) : ':' ∉ host := by
  intro hmem
  rcases (host_chars h).2 ':' hmem with h | h | h
  · revert h
    decide
  all_goals exact absurd h (by decide)

theorem colon_notMem_port {digits : List Char} (h : AcceptedPort digits) : ':' ∉ digits := by
  intro hmem
  rcases h.chars ':' hmem with h | h
  · revert h
    decide
  · exact absurd h (by decide)

theorem Registry.Formed.referenceChars (h : registry.Formed AcceptedPort) :
    ∀ c ∈ registry.text, isReferenceChar c = true := by
  intro c hc
  rw [Registry.text, List.mem_append] at hc
  rcases hc with hc | hc
  · rcases (host_chars h.host).2 c hc with h | rfl | rfl
    · exact isReferenceChar_of_isAlphanum (isAlphanum_of_isLowercaseOrDigit h)
    all_goals rfl
  · cases hport : registry.port with
    | none => simp [hport] at hc
    | some digits =>
        rw [hport] at hc
        rcases List.mem_cons.mp hc with rfl | hc
        · rfl
        · rcases (h.port digits hport).chars c hc with h | rfl
          · exact isReferenceChar_of_isAlphanum (by rw [Char.isAlphanum, h, Bool.or_true])
          · rfl

theorem Registry.Formed.rsplitOnce_text (h : registry.Formed AcceptedPort) :
    (rsplitOnce ':' registry.text).getD (registry.text, []) =
      (registry.host, registry.port.getD []) := by
  obtain ⟨host, port⟩ := registry
  cases port with
  | none =>
      have hcolon : ':' ∉ Registry.text ⟨host, none⟩ := by
        simpa [Registry.text] using colon_notMem_host h.host
      rw [rsplitOnce_eq_none_iff.mpr hcolon]
      simp [Registry.text]
  | some digits =>
      have hsplit := rsplitOnce_eq_some.mpr
        ⟨colon_notMem_port (h.port digits rfl), (rfl : host ++ ':' :: digits = _)⟩
      exact congrArg (Option.getD · _) hsplit

theorem portTest_iff {digits : List Char} :
    (digits.isEmpty || (parseUnsigned 65535 digits).any (· != 0)) = true ↔ AcceptedPort digits := by
  rw [acceptedPort_iff, Bool.or_eq_true, List.isEmpty_iff, Option.any_eq_true]
  simp only [bne_iff_ne]

/-- The registry test accepts the well-formed registries, with the lax port forms among them. -/
theorem isValidRegistry_iff {text : List Char} : isValidRegistry text = true ↔
    ∃ registry : Registry, registry.Formed AcceptedPort ∧ registry.text = text := by
  constructor
  · intro h
    by_cases hlocal : text = "localhost".toList
    · exact ⟨.localhost, .localhost _, hlocal.symm⟩
    · rw [isValidRegistry, if_neg hlocal] at h
      cases hparts : rsplitOnce ':' text with
      | none =>
          simp only [hparts, Option.getD_none, Bool.and_eq_true, List.all_eq_true,
            isRegistryLabel_iff] at h
          refine ⟨⟨text, none⟩, ⟨h.1.2, fun digits hdigits => ?_⟩, by simp [Registry.text]⟩
          cases hdigits
      | some parts =>
          obtain ⟨host, port⟩ := parts
          simp only [hparts, Option.getD_some, Bool.and_eq_true, List.all_eq_true,
            isRegistryLabel_iff] at h
          refine ⟨⟨host, some port⟩, ⟨h.1.2, fun digits hdigits => ?_⟩,
            (eq_of_rsplitOnce hparts).symm⟩
          cases hdigits
          exact portTest_iff.mp h.2
  · rintro ⟨registry, h, rfl⟩
    by_cases hlocal : registry.text = "localhost".toList
    · rw [isValidRegistry, if_pos hlocal]
    · rw [isValidRegistry, if_neg hlocal, h.rsplitOnce_text]
      simp only [Bool.and_eq_true, List.all_eq_true, Bool.not_eq_true', List.isEmpty_eq_false_iff,
        isRegistryLabel_iff]
      refine ⟨⟨(host_chars h.host).1, h.host⟩, portTest_iff.mpr ?_⟩
      cases hport : registry.port with
      | none => exact Or.inr (Or.inl rfl)
      | some digits => exact h.port digits hport

theorem colon_mem_text_iff (h : registry.Formed AcceptedPort) :
    ':' ∈ registry.text ↔ registry.port.isSome = true := by
  obtain ⟨host, port⟩ := registry
  cases port with
  | none => simpa [Registry.text] using colon_notMem_host h.host
  | some digits => simp [Registry.text]

theorem Registry.text_inj (h : registry.Formed AcceptedPort) (h' : other.Formed AcceptedPort)
    (heq : registry.text = other.text) : registry = other := by
  have hsome := (colon_mem_text_iff h).symm.trans (heq ▸ colon_mem_text_iff h')
  obtain ⟨host, port⟩ := registry
  obtain ⟨host', port'⟩ := other
  cases port with
  | none =>
      cases port' with
      | none =>
          simp only [Registry.text, Option.elim_none, List.append_nil] at heq
          rw [heq]
      | some digits => simp at hsome
  | some digits =>
      cases port' with
      | none => simp at hsome
      | some digits' =>
          obtain ⟨rfl, rfl⟩ := append_cons_inj (colon_notMem_host h.host)
            (colon_notMem_host h'.host) heq
          rfl

end Registries

end PodmanLens
