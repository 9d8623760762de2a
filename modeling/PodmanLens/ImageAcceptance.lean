import Mathlib.Data.List.Infix
import PodmanLens.ImageReference

/-!
# Accepted image references

The scan before the classifier lets every bounded well-formed reference through. The accepted
spellings are the content IDs and the references of the grammar, with the lax ports among them.
-/

namespace PodmanLens
open Text

section WellFormed

theorem contains_iff {needle haystack : List Char} :
    contains needle haystack = true ↔ needle <:+: haystack := by
  simp only [contains, List.any_eq_true, List.mem_tails, List.isPrefixOf_iff_prefix,
    List.infix_iff_prefix_suffix, and_comm]

/-- A doubled separator leaves an empty part. -/
theorem nil_mem_splitOn {c : Char} {cs : List Char} (h : [c, c] <:+: cs) : [] ∈ cs.splitOn c := by
  obtain ⟨before, after, rfl⟩ := h
  rw [List.append_assoc, List.cons_append, List.splitOn_append_cons_self, List.cons_append,
    List.nil_append]
  have hempty : (c :: after).splitOn c = [] :: after.splitOn c :=
    List.splitOn_append_cons_self [] after
  rw [hempty]
  exact List.mem_append_right _ List.mem_cons_self

/-- A character that `marked` does not contain ends at the latest before it. -/
theorem infix_of_infix_append {c : Char} {cs marked : List Char} (hc : c ∉ marked)
    (h : [c, c] <:+: cs ++ marked) : [c, c] <:+: cs := by
  obtain ⟨before, after, heq⟩ := h
  rcases List.append_eq_append_iff.mp heq with ⟨rest, hcs, -⟩ | ⟨rest, hbefore, hmarked⟩
  · exact ⟨before, rest, hcs.symm⟩
  · rcases List.eq_nil_or_concat rest with rfl | ⟨rest, last, rfl⟩
    · rw [List.append_nil] at hbefore
      exact ⟨before, [], by rw [List.append_nil, hbefore]⟩
    · have hlast : last = c := by
        have hends := congrArg List.getLast? hbefore
        simpa using hends.symm
      exact absurd (by simp [hmarked, hlast]) hc

theorem clean_of_chars {cs : List Char}
    (h : ∀ c ∈ cs, c = '/' ∨ c = '@' ∨ isReferenceChar c = true) :
    cs.any (fun c => isControl c || isWhitespace c) = false ∧ '\\' ∉ cs := by
  have hrange : ∀ c ∈ cs, (0x20 < c.toNat ∧ c.toNat < 0x7f) ∧ c ≠ '\\' := by
    intro c hc
    rcases h c hc with rfl | rfl | hchar
    · decide
    · decide
    · exact ⟨range_of_isReferenceChar hchar, (separators_of_isReferenceChar hchar).2.2⟩
  refine ⟨List.any_eq_false.mpr fun c hc => ?_, fun hmem => (hrange _ hmem).2 rfl⟩
  have hc' := (hrange c hc).1
  rw [isControl_eq_false_of_range (by omega) hc'.2, isWhitespace_eq_false_of_range hc'.1 hc'.2]
  decide

theorem isReferenceChar_of_isHexDigit {c : Char} (h : isHexDigit c = true) :
    isReferenceChar c = true := by
  have hall : hexDigits.all isReferenceChar = true := by decide
  exact List.all_eq_true.mp hall c (mem_hexDigits h)

theorem referenceChars_of_digest {digits : List Char} (h : ∀ c ∈ digits, isHexDigit c = true) :
    ∀ c ∈ "sha256:".toList ++ digits, isReferenceChar c = true := by
  intro c hc
  rcases List.mem_append.mp hc with hc | hc
  · have hall : "sha256:".toList.all isReferenceChar = true := by decide
    exact List.all_eq_true.mp hall c hc
  · exact isReferenceChar_of_isHexDigit (h c hc)

theorem isImageId_iff {value : List Char} : isImageId value = true ↔ ∃ digits,
    (value = digits ∨ value = "sha256:".toList ++ digits) ∧ digits.length = 64 ∧
      ∀ c ∈ digits, isHexDigit c = true := by
  have htest : ∀ hex : List Char, (byteLength hex == 64 && hex.all isHexDigit) = true ↔
      hex.length = 64 ∧ ∀ c ∈ hex, isHexDigit c = true := by
    intro hex
    rw [Bool.and_eq_true, beq_iff_eq, List.all_eq_true]
    exact and_congr_left fun hdigits => by rw [byteLength_of_isHexDigit hdigits]
  rw [isImageId]
  by_cases hpre : "sha256:".toList <+: value
  · obtain ⟨rest, rfl⟩ := hpre
    have hstrip : stripPrefix "sha256:".toList ("sha256:".toList ++ rest) = some rest := by
      rw [stripPrefix, if_pos (List.isPrefixOf_iff_prefix.mpr ⟨rest, rfl⟩), List.drop_left]
    rw [hstrip, Option.getD_some, htest]
    constructor
    · exact fun h => ⟨rest, Or.inr rfl, h⟩
    · rintro ⟨digits, rfl | heq, h⟩
      · have hfirst := h.2 's' (by simp)
        cases hfirst
      · rw [List.append_cancel_left heq]
        exact h
  · have hstrip : stripPrefix "sha256:".toList value = none := by
      rw [stripPrefix, if_neg (fun h => hpre (List.isPrefixOf_iff_prefix.mp h))]
    rw [hstrip, Option.getD_none, htest]
    constructor
    · exact fun h => ⟨value, Or.inl rfl, h⟩
    · rintro ⟨digits, rfl | rfl, h⟩
      · exact h
      · exact absurd ⟨digits, rfl⟩ hpre

theorem malformedImageSource_eq_false {value : List Char} (hempty : value ≠ [])
    (hsized : byteLength value ≤ maxReferenceBytes)
    (hchars : ∀ c ∈ value, c = '/' ∨ c = '@' ∨ isReferenceChar c = true)
    (hdigest : '@' ∈ value → "@sha256:".toList <:+: value ∧ value.count '@' = 1)
    (hslashes : ¬['/', '/'] <:+: value) : malformedImageSource value = false := by
  obtain ⟨hclean, hbackslash⟩ := clean_of_chars hchars
  have hslashes' : contains "//".toList value = false :=
    Bool.eq_false_iff.mpr fun h => hslashes (contains_iff.mp h)
  have hempty' : value.isEmpty = false := by simpa using hempty
  have hsized' : decide (maxReferenceBytes < byteLength value) = false := by simpa using hsized
  by_cases hat : '@' ∈ value
  · obtain ⟨hmarker, hcount⟩ := hdigest hat
    have hmarker' := contains_iff.mpr hmarker
    simp only [malformedImageSource, hempty', hsized', hclean, hmarker', hslashes', hcount]
    simp
  · have hat' : value.contains '@' = false := by simpa using hat
    have hbackslash' : value.contains '\\' = false := by simpa using hbackslash
    simp only [malformedImageSource, hempty', hsized', hclean, hbackslash', hslashes', hat']
    simp

theorem malformedImageSource_imageId {value : List Char} (h : isImageId value = true) :
    malformedImageSource value = false := by
  obtain ⟨digits, hvalue, hlength, hdigits⟩ := isImageId_iff.mp h
  have hbytes := byteLength_of_isHexDigit hdigits
  have hmarker : byteLength "sha256:".toList = 7 := by decide
  have hne : digits ≠ [] := by
    rintro rfl
    cases hlength
  have hchars : ∀ c ∈ value, isReferenceChar c = true := by
    rcases hvalue with rfl | rfl
    · exact fun c hc => isReferenceChar_of_isHexDigit (hdigits c hc)
    · exact referenceChars_of_digest hdigits
  refine malformedImageSource_eq_false ?_ ?_ (fun c hc => Or.inr (Or.inr (hchars c hc)))
    (fun hat => ?_) (fun hslashes => ?_)
  · rcases hvalue with rfl | rfl
    · exact hne
    · exact List.append_ne_nil_of_right_ne_nil _ hne
  · have hbound : maxReferenceBytes = 256 := rfl
    rcases hvalue with rfl | rfl
    · omega
    · rw [byteLength_append]
      omega
  · exact absurd rfl (separators_of_isReferenceChar (hchars '@' hat)).2.1
  · have hmem : '/' ∈ value := hslashes.subset List.mem_cons_self
    exact absurd rfl (separators_of_isReferenceChar (hchars '/' hmem)).1

theorem malformedImageSource_spell {reference : Reference} (h : reference.Formed AcceptedPort)
    (hsized : byteLength reference.spell ≤ maxReferenceBytes) :
    malformedImageSource reference.spell = false := by
  have hspell : reference.spell = reference.name ++ reference.suffix.digestText := rfl
  have hdigestChars : ∀ c ∈ reference.suffix.digestText, c = '@' ∨ isReferenceChar c = true := by
    intro c hc
    have hsuffix := h.suffix
    cases hcase : reference.suffix with
    | bare | tag => simp [hcase, ReferenceSuffix.digestText] at hc
    | digest digits =>
        rw [hcase] at hsuffix hc
        exact (List.mem_cons.mp hc).imp_right (referenceChars_of_digest hsuffix.2 c)
  have hslash : '/' ∉ reference.suffix.digestText := by
    intro hmem
    rcases hdigestChars '/' hmem with h | h
    · exact absurd h (by decide)
    · exact (separators_of_isReferenceChar h).1 rfl
  refine malformedImageSource_eq_false ?_ hsized (fun c hc => ?_) (fun hat => ?_) fun hslashes => ?_
  · rw [hspell]
    exact List.append_ne_nil_of_left_ne_nil h.name_ne_nil _
  · rcases List.mem_append.mp (hspell ▸ hc) with hc | hc
    · exact (h.name_chars c hc).imp_right Or.inr
    · exact Or.inr (hdigestChars c hc)
  · have hsuffix := h.suffix
    rw [hspell] at hat ⊢
    cases hcase : reference.suffix with
    | bare | tag =>
        rw [hcase] at hat
        simp [ReferenceSuffix.digestText, h.at_notMem_name] at hat
    | digest digits =>
        rw [hcase] at hsuffix
        have hdigits : '@' ∉ "sha256:".toList ++ digits := fun hmem =>
          (separators_of_isReferenceChar (referenceChars_of_digest hsuffix.2 '@' hmem)).2.1 rfl
        refine ⟨⟨reference.name, digits, ?_⟩, ?_⟩
        · rw [List.append_assoc]
          rfl
        · rw [List.count_append, List.count_eq_zero_of_not_mem h.at_notMem_name,
            ReferenceSuffix.digestText, List.count_cons_self,
            List.count_eq_zero_of_not_mem hdigits]
  · have hname := infix_of_infix_append hslash (hspell ▸ hslashes)
    exact h.parsed.nonempty (nil_mem_splitOn hname)

end WellFormed

section Acceptance

/-- A bounded spelling of a reference that is not a content ID. -/
structure Reference.Spells (port : List Char → Prop) (reference : Reference) (spelling : String) :
    Prop where
  formed : reference.Formed port
  spelled : reference.spell = spelling.toList
  sized : byteLength spelling.toList ≤ maxReferenceBytes
  named : isImageId spelling.toList = false

/-- Construction succeeds with this classification. -/
def ReadsAs (spelling : String) (classification : ImageSourceClassification) : Prop :=
  ∃ source, ImageSource.new spelling = .ok source ∧ source.asStr = spelling ∧
    source.classification = classification

/-- The grammar decides what is accepted, how it decomposes, and its classification. -/
structure FollowsGrammar (spelling : String) : Prop where
  accepted : (∃ classification, ReadsAs spelling classification) ↔
    isImageId spelling.toList = true ∨
      ∃ reference : Reference, reference.Spells PlainPort spelling
  unique : ∀ reference other : Reference, reference.Spells PlainPort spelling →
    other.Spells PlainPort spelling → reference = other
  localSource : ReadsAs spelling .local ↔ isImageId spelling.toList = true ∨
    ∃ reference : Reference, reference.Spells PlainPort spelling ∧
      reference.registry = some .localhost
  portable : ReadsAs spelling .portable ↔
    ∃ reference : Reference, reference.Spells PlainPort spelling ∧
      (∃ registry ≠ Registry.localhost, reference.registry = some registry) ∧
        reference.suffix ≠ .bare
  tagless : ReadsAs spelling .tagless ↔
    ∃ reference : Reference, reference.Spells PlainPort spelling ∧
      (∃ registry ≠ Registry.localhost, reference.registry = some registry) ∧
        reference.suffix = .bare
  unqualified : ReadsAs spelling .unqualified ↔
    ∃ reference : Reference, reference.Spells PlainPort spelling ∧ reference.registry = none

/-- A reference whose registry has a port of the lax forms. -/
def Reference.LaxlyPorted (reference : Reference) : Prop :=
  ∃ registry ∈ reference.registry, ∃ digits ∈ registry.port, LaxPort digits

variable {reference other : Reference} {spelling : String}
  {classification : ImageSourceClassification}

theorem ImageSource.new_eq_ok_iff {source : ImageSource} :
    ImageSource.new spelling = .ok source ↔ source.asStr = spelling ∧
      classifyImageSource spelling = some source.classification := by
  constructor
  · intro h
    rw [ImageSource.new] at h
    split at h
    · next hclassified =>
        cases h
        exact ⟨rfl, hclassified⟩
    · cases h
  · rintro ⟨rfl, h⟩
    rw [ImageSource.new]
    split
    · next hclassified =>
        have hsame := hclassified.symm.trans h
        simp only [Option.some.injEq] at hsame
        subst hsame
        rfl
    · next hclassified =>
        rw [hclassified] at h
        cases h

theorem readsAs_iff :
    ReadsAs spelling classification ↔ classifyImageSource spelling = some classification := by
  constructor
  · rintro ⟨source, hnew, -, rfl⟩
    exact (ImageSource.new_eq_ok_iff.mp hnew).2
  · intro h
    exact ⟨⟨spelling, classification, h⟩, ImageSource.new_eq_ok_iff.mpr ⟨rfl, h⟩, rfl, rfl⟩

/-- Acceptance through the parser's own grammar. -/
theorem readsAs_iff_spells : ReadsAs spelling classification ↔
    (isImageId spelling.toList = true ∧ classification = .local) ∨
      ∃ reference : Reference, reference.Spells AcceptedPort spelling ∧
        reference.classification = classification := by
  rw [readsAs_iff]
  dsimp only [classifyImageSource]
  cases hid : isImageId spelling.toList with
  | true =>
      simp only [malformedImageSource_imageId hid, Bool.false_eq_true, if_false, if_true,
        Option.some.injEq, true_and]
      constructor
      · exact fun h => Or.inl h.symm
      · rintro (h | ⟨reference, hspells, -⟩)
        · exact h.symm
        · exact absurd hid (by simp [hspells.named])
  | false =>
      simp only [Bool.false_eq_true, if_false, false_and, false_or]
      constructor
      · intro h
        split_ifs at h with hmalformed
        obtain ⟨reference, hformed, hspell, hclass⟩ := classifyReference_iff.mp h
        refine ⟨reference, ⟨hformed, hspell, ?_, hid⟩, hclass⟩
        simp only [malformedImageSource, Bool.or_eq_true, not_or, decide_eq_true_eq] at hmalformed
        exact Nat.le_of_not_lt hmalformed.1.1.1.1.2
      · rintro ⟨reference, hspells, hclass⟩
        have hsized : byteLength reference.spell ≤ maxReferenceBytes := by
          rw [hspells.spelled]
          exact hspells.sized
        have hwell := malformedImageSource_spell hspells.formed hsized
        rw [hspells.spelled] at hwell
        rw [hwell]
        exact classifyReference_iff.mpr ⟨reference, hspells.formed, hspells.spelled, hclass⟩

theorem Registry.Formed.mono {registry : Registry} {port port' : List Char → Prop}
    (h : registry.Formed port)
    (himp : ∀ digits ∈ registry.port, port digits → port' digits) : registry.Formed port' :=
  ⟨h.host, fun digits hdigits => himp digits hdigits (h.port digits hdigits)⟩

namespace Reference

theorem Spells.mono {port port' : List Char → Prop} (h : reference.Spells port spelling)
    (himp : ∀ registry ∈ reference.registry, ∀ digits ∈ registry.port,
      port digits → port' digits) : reference.Spells port' spelling where
  formed := ⟨fun registry hregistry => ⟨(h.formed.registry registry hregistry).1.mono
      (himp registry hregistry), (h.formed.registry registry hregistry).2⟩,
    h.formed.unqualified, h.formed.path, h.formed.last, h.formed.suffix⟩
  spelled := h.spelled
  sized := h.sized
  named := h.named

theorem Spells.accepted (h : reference.Spells PlainPort spelling) :
    reference.Spells AcceptedPort spelling :=
  h.mono fun _ _ _ _ => Or.inl

theorem Spells.unique (h : reference.Spells AcceptedPort spelling)
    (h' : other.Spells AcceptedPort spelling) : reference = other :=
  h.formed.spell_inj h'.formed (h.spelled.trans h'.spelled.symm)

theorem Spells.plain (h : reference.Spells AcceptedPort spelling)
    (hlax : ¬reference.LaxlyPorted) : reference.Spells PlainPort spelling :=
  h.mono fun registry hregistry digits hdigits haccepted =>
    haccepted.resolve_right fun hport => hlax ⟨registry, hregistry, digits, hdigits, hport⟩

theorem Spells.not_laxlyPorted (h : reference.Spells PlainPort spelling) :
    ¬reference.LaxlyPorted := by
  rintro ⟨registry, hregistry, digits, hdigits, hlax⟩
  exact not_laxPort_of_plainPort ((h.formed.registry registry hregistry).1.port digits hdigits) hlax

theorem classification_eq_local_iff :
    reference.classification = .local ↔ reference.registry = some .localhost := by
  rw [classification]
  split
  · next hnone => simp [hnone]
  · next registry hregistry =>
      rw [hregistry]
      split_ifs with hlocal hbare <;> simp [hlocal]

theorem classification_eq_portable_iff : reference.classification = .portable ↔
    (∃ registry ≠ Registry.localhost, reference.registry = some registry) ∧
      reference.suffix ≠ .bare := by
  rw [classification]
  split
  · next hnone => simp [hnone]
  · next registry hregistry =>
      rw [hregistry]
      by_cases hlocal : registry = .localhost
      · simp [hlocal]
      · by_cases hbare : reference.suffix = .bare <;> simp [hlocal, hbare]

theorem classification_eq_tagless_iff : reference.classification = .tagless ↔
    (∃ registry ≠ Registry.localhost, reference.registry = some registry) ∧
      reference.suffix = .bare := by
  rw [classification]
  split
  · next hnone => simp [hnone]
  · next registry hregistry =>
      rw [hregistry]
      by_cases hlocal : registry = .localhost
      · simp [hlocal]
      · by_cases hbare : reference.suffix = .bare <;> simp [hlocal, hbare]

theorem classification_eq_unqualified_iff :
    reference.classification = .unqualified ↔ reference.registry = none := by
  rw [classification]
  split
  · next hnone => simp [hnone]
  · next registry hregistry =>
      rw [hregistry]
      split_ifs with hlocal hbare <;> simp

end Reference

/-- Without lax ports the parser's grammar is the plain one. -/
theorem readsAs_iff_plain
    (hlax : ∀ reference : Reference, reference.Spells AcceptedPort spelling →
      ¬reference.LaxlyPorted) :
    ReadsAs spelling classification ↔
      (isImageId spelling.toList = true ∧ classification = .local) ∨
        ∃ reference : Reference, reference.Spells PlainPort spelling ∧
          reference.classification = classification := by
  rw [readsAs_iff_spells]
  refine or_congr_right (exists_congr fun reference => and_congr_left fun _ => ?_)
  exact ⟨fun h => h.plain (hlax reference h), fun h => h.accepted⟩

theorem Reference.LaxlyPorted.not_followsGrammar (hlax : reference.LaxlyPorted)
    (hspells : reference.Spells AcceptedPort spelling) : ¬FollowsGrammar spelling := by
  intro h
  have hreads := readsAs_iff_spells.mpr (Or.inr ⟨reference, hspells, rfl⟩)
  rcases h.accepted.mp ⟨_, hreads⟩ with hid | ⟨plain, hplain⟩
  · exact absurd hid (by simp [hspells.named])
  · obtain rfl := hspells.unique hplain.accepted
    exact hplain.not_laxlyPorted hlax

/-- A spelling follows the grammar exactly when no reference with an empty or plus-signed port
spells it: the empty text stands for a missing port, and number parsing takes the sign. -/
theorem imageSource_followsGrammar_iff (spelling : String) :
    FollowsGrammar spelling ↔ ¬∃ reference : Reference,
      reference.Spells AcceptedPort spelling ∧ reference.LaxlyPorted := by
  constructor
  · rintro h ⟨reference, hspells, hlax⟩
    exact hlax.not_followsGrammar hspells h
  · intro h
    have hlax : ∀ reference : Reference, reference.Spells AcceptedPort spelling →
        ¬reference.LaxlyPorted := fun reference hspells hported => h ⟨reference, hspells, hported⟩
    refine ⟨?_, fun reference other hone htwo => hone.accepted.unique htwo.accepted, ?_, ?_, ?_, ?_⟩
    · constructor
      · rintro ⟨classification, hreads⟩
        rcases (readsAs_iff_plain hlax).mp hreads with hid | ⟨reference, hspells, -⟩
        · exact Or.inl hid.1
        · exact Or.inr ⟨reference, hspells⟩
      · rintro (hid | ⟨reference, hspells⟩)
        · exact ⟨.local, (readsAs_iff_plain hlax).mpr (Or.inl ⟨hid, rfl⟩)⟩
        · exact ⟨_, (readsAs_iff_plain hlax).mpr (Or.inr ⟨reference, hspells, rfl⟩)⟩
    · simp only [readsAs_iff_plain hlax, and_true, Reference.classification_eq_local_iff]
    · simp only [readsAs_iff_plain hlax, Reference.classification_eq_portable_iff, reduceCtorEq,
        and_false, false_or]
    · simp only [readsAs_iff_plain hlax, Reference.classification_eq_tagless_iff, reduceCtorEq,
        and_false, false_or]
    · simp only [readsAs_iff_plain hlax, Reference.classification_eq_unqualified_iff, reduceCtorEq,
        and_false, false_or]

/-- A registry with a colon and no port is accepted. -/
theorem emptyPort_accepted : ¬FollowsGrammar "registry.example:/team/app" := by
  have hformed : Reference.Formed
      ⟨some ⟨"registry.example".toList, some []⟩, ["team".toList], "app".toList, .bare⟩
        AcceptedPort := by
    refine ⟨fun registry hregistry => ?_, by simp, by decide, by decide, trivial⟩
    cases hregistry
    refine ⟨⟨by decide, fun digits hdigits => ?_⟩, by decide⟩
    cases hdigits
    exact Or.inr (Or.inl rfl)
  exact Reference.LaxlyPorted.not_followsGrammar ⟨_, rfl, _, rfl, Or.inl rfl⟩
    ⟨hformed, by decide, by decide, by decide⟩

example : classifyImageSource "registry.example:+5000/app:1" = some .portable := by decide

end Acceptance

end PodmanLens
