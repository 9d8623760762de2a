import PodmanLens.ImageGrammar

/-!
# Image references read back

The classifier takes the spelling of a well-formed reference apart into its parts, so a spelling
has at most one reference, and whatever the classifier accepts is the spelling of one.
-/

namespace PodmanLens
open Text

section Steps

/-- What the classifier has read when it reaches its verdict. -/
structure Parsed (value name : List Char) (digest registry : Option (List Char))
    (path : List (List Char)) (last : List Char) : Prop where
  digested : splitDigest value = some (name, digest)
  nonempty : [] ∉ name.splitOn '/'
  qualified : splitRegistry (name.splitOn '/') = some (registry, path ++ [last])
  components : ∀ component ∈ path, isRepositoryComponent component = true
  named : isRepositoryComponent (splitTag last).1 = true
  tagged : ∀ label ∈ (splitTag last).2, isTag label = true
  exclusive : digest = none ∨ (splitTag last).2 = none

theorem classifyReference_eq_some {value : List Char} {verdict : ImageSourceClassification} :
    classifyReference value = some verdict ↔ ∃ name digest registry path last,
      Parsed value name digest registry path last ∧
        classifyParts registry (splitTag last).2 digest = some verdict := by
  constructor
  · intro h
    rw [classifyReference, Option.bind_eq_bind, Option.bind_eq_some_iff] at h
    obtain ⟨⟨name, digest⟩, hdigest, h⟩ := h
    dsimp only at h
    have hnonempty : ¬(name.splitOn '/').any List.isEmpty = true := by
      intro hempty
      rw [if_pos hempty] at h
      cases h
    rw [if_neg hnonempty, Option.bind_eq_bind, Option.bind_eq_some_iff] at h
    obtain ⟨⟨registry, repository⟩, hregistry, h⟩ := h
    obtain ⟨last, hlast, hverdict⟩ := Option.bind_eq_some_iff.mp h
    dsimp only at hverdict
    have hcomponents : ¬(!(repository.dropLast ++ [(splitTag last).1]).all
        isRepositoryComponent) = true := by
      intro hcomponent
      rw [if_pos hcomponent] at hverdict
      cases hverdict
    have htag : ¬(splitTag last).2.any (!isTag ·) = true := by
      intro htag
      rw [if_neg hcomponents, if_pos htag] at hverdict
      cases hverdict
    have hexclusive : ¬(digest.isSome && (splitTag last).2.isSome) = true := by
      intro hboth
      rw [if_neg hcomponents, if_neg htag, if_pos hboth] at hverdict
      cases hverdict
    rw [if_neg hcomponents, if_neg htag, if_neg hexclusive] at hverdict
    obtain ⟨path, rfl⟩ := List.getLast?_eq_some_iff.mp hlast
    rw [List.dropLast_concat, Bool.not_eq_true', Bool.not_eq_false, List.all_append,
      Bool.and_eq_true, List.all_eq_true] at hcomponents
    refine ⟨name, digest, registry, path, last,
      ⟨hdigest, by simpa using hnonempty, hregistry, hcomponents.1, ?_, ?_, ?_⟩, hverdict⟩
    · simpa using hcomponents.2
    · simpa [Option.any_eq_false] using htag
    · cases digest with
      | none => exact Or.inl rfl
      | some digest => exact Or.inr (by simpa using hexclusive)
  · rintro ⟨name, digest, registry, path, last, h, hverdict⟩
    have hnonempty : ¬(name.splitOn '/').any List.isEmpty = true := by simpa using h.nonempty
    have hcomponents : ¬(!(path ++ [(splitTag last).1]).all isRepositoryComponent) = true := by
      simpa using ⟨h.components, h.named⟩
    have htag : ¬(splitTag last).2.any (!isTag ·) = true := by
      simpa [Option.any_eq_false] using h.tagged
    have hexclusive : ¬(digest.isSome && (splitTag last).2.isSome) = true := by
      rcases h.exclusive with hnone | hnone <;> simp [hnone]
    simp only [classifyReference, Option.bind_eq_bind, h.digested, Option.bind_some,
      if_neg hnonempty, h.qualified, List.getLast?_append, List.getLast?_singleton,
      List.dropLast_concat, Option.some_or, if_neg hcomponents, if_neg htag, if_neg hexclusive,
      hverdict]

theorem isSha256Digest_iff {text : List Char} : isSha256Digest text = true ↔
    ∃ digits, text = "sha256:".toList ++ digits ∧ digits.length = 64 ∧
      ∀ c ∈ digits, isHexDigit c = true := by
  rw [isSha256Digest, Bool.and_eq_true, Bool.and_eq_true, beq_iff_eq, List.isPrefixOf_iff_prefix,
    List.all_eq_true]
  constructor
  · rintro ⟨⟨hlength, digits, rfl⟩, hdigits⟩
    have hhex : ∀ c ∈ digits, isHexDigit c = true := hdigits
    rw [byteLength_append, byteLength_of_isHexDigit hhex] at hlength
    have hmarker : byteLength "sha256:".toList = 7 := by decide
    exact ⟨digits, rfl, by omega, hhex⟩
  · rintro ⟨digits, rfl, hlength, hhex⟩
    have hmarker : byteLength "sha256:".toList = 7 := by decide
    refine ⟨⟨?_, digits, rfl⟩, hhex⟩
    rw [byteLength_append, byteLength_of_isHexDigit hhex, hmarker, hlength]

/-- The digest that a suffix spells. -/
def ReferenceSuffix.digestOf : ReferenceSuffix → Option (List Char)
  | .digest digits => some ("sha256:".toList ++ digits)
  | _ => none

def ReferenceSuffix.tagOf : ReferenceSuffix → Option (List Char)
  | .tag label => some label
  | _ => none

theorem splitDigest_of_formed {name : List Char} {suffix : ReferenceSuffix}
    (hname : name ≠ [] ∧ '@' ∉ name) (hsuffix : suffix.Formed) :
    splitDigest (name ++ suffix.digestText) = some (name, suffix.digestOf) := by
  cases suffix with
  | bare | tag =>
      simp [splitDigest, ReferenceSuffix.digestText, ReferenceSuffix.digestOf,
        splitOnce_eq_none hname.2]
  | digest digits =>
      have hdigest : isSha256Digest ("sha256:".toList ++ digits) = true :=
        isSha256Digest_iff.mpr ⟨digits, rfl, hsuffix⟩
      have hempty : name.isEmpty = false := by simpa using hname.1
      rw [splitDigest, ReferenceSuffix.digestText, splitOnce_append hname.2]
      simp only [hempty, hdigest, Bool.not_false, Bool.and_self, if_true]
      rfl

theorem splitTag_of_formed {last : List Char} {suffix : ReferenceSuffix}
    (hlast : isRepositoryComponent last = true) (hsuffix : suffix.Formed) :
    splitTag (last ++ suffix.tagText) = (last, suffix.tagOf) := by
  cases suffix with
  | bare | digest =>
      have hnone := rsplitOnce_eq_none_iff.mpr (colon_notMem_component hlast)
      simp [splitTag, ReferenceSuffix.tagText, ReferenceSuffix.tagOf, hnone]
  | tag label =>
      have hsplit : rsplitOnce ':' (last ++ ':' :: label) = some (last, label) :=
        rsplitOnce_eq_some.mpr ⟨colon_notMem_tag hsuffix, rfl⟩
      have hempty : label.isEmpty = false := by simpa using (isTag_chars hsuffix).1
      rw [splitTag, ReferenceSuffix.tagText, hsplit]
      simp only [hempty, Bool.false_eq_true, if_false]
      rfl

theorem splitTag_spelled (part : List Char) :
    part = (splitTag part).1 ++ (splitTag part).2.elim [] (':' :: ·) := by
  rw [splitTag]
  split
  · exact (List.append_nil _).symm
  · next name label hparts =>
      split_ifs
      · exact (List.append_nil _).symm
      · exact eq_of_rsplitOnce hparts

theorem splitRegistry_cons {first : List Char} {rest : List (List Char)} :
    splitRegistry (first :: rest) =
      if rest ≠ [] ∧ MarksRegistry first then
        if isValidRegistry first then some (some first, rest) else none
      else some (none, first :: rest) := by
  have hmarks : (decide (first = "localhost".toList) || first.contains '.' || first.contains ':')
      = decide (MarksRegistry first) := by
    apply Bool.eq_iff_iff.mpr
    simp only [Bool.or_eq_true, decide_eq_true_eq, List.contains_iff_mem, or_assoc]
    rfl
  rw [splitRegistry, hmarks]
  simp

end Steps

section Spelling

variable {reference other : Reference} {value : List Char}

theorem tagText_chars {suffix : ReferenceSuffix} (h : suffix.Formed) :
    ∀ c ∈ suffix.tagText, isReferenceChar c = true := by
  intro c hc
  cases suffix with
  | bare | digest => cases hc
  | tag label =>
      rcases List.mem_cons.mp hc with rfl | hc
      · rfl
      · exact referenceChars_of_tag h c hc

theorem tagText_eq (suffix : ReferenceSuffix) :
    suffix.tagText = suffix.tagOf.elim [] (':' :: ·) := by
  cases suffix <;> rfl

theorem digestText_eq (suffix : ReferenceSuffix) :
    suffix.digestText = suffix.digestOf.elim [] ('@' :: ·) := by
  cases suffix <;> rfl

theorem suffix_ext {suffix suffix' : ReferenceSuffix} (hdigest : suffix.digestOf = suffix'.digestOf)
    (htag : suffix.tagOf = suffix'.tagOf) : suffix = suffix' := by
  cases suffix <;> cases suffix' <;> simp_all [ReferenceSuffix.digestOf, ReferenceSuffix.tagOf]

/-- The suffix behind what the digest and tag tests let through. -/
theorem exists_suffix {tag digest : Option (List Char)}
    (hdigest : ∀ text ∈ digest, isSha256Digest text = true)
    (htag : ∀ label ∈ tag, isTag label = true) (hexclusive : digest = none ∨ tag = none) :
    ∃ suffix : ReferenceSuffix, suffix.Formed ∧ suffix.digestOf = digest ∧ suffix.tagOf = tag := by
  cases digest with
  | none =>
      cases tag with
      | none => exact ⟨.bare, trivial, rfl, rfl⟩
      | some label => exact ⟨.tag label, htag label rfl, rfl, rfl⟩
  | some text =>
      obtain ⟨digits, rfl, hdigits⟩ := isSha256Digest_iff.mp (hdigest text rfl)
      have hnone : tag = none := hexclusive.resolve_left (by simp)
      exact ⟨.digest digits, hdigits, rfl, hnone.symm⟩

namespace Reference

/-- The text before the digest. -/
def name (reference : Reference) : List Char := ['/'].intercalate reference.components

theorem Formed.component_chars (h : reference.Formed AcceptedPort) :
    ∀ component ∈ reference.components,
      component ≠ [] ∧ ∀ c ∈ component, isReferenceChar c = true := by
  intro component hmem
  simp only [components, List.mem_append, List.mem_map, Option.mem_toList,
    List.mem_singleton] at hmem
  rcases hmem with (⟨registry, hregistry, rfl⟩ | hpath) | rfl
  · have hformed := (h.registry registry hregistry).1
    exact ⟨List.append_ne_nil_of_left_ne_nil (host_chars hformed.host).1 _, hformed.referenceChars⟩
  · exact ⟨(isRepositoryComponent_chars (h.path component hpath)).1,
      referenceChars_of_component (h.path component hpath)⟩
  · refine ⟨List.append_ne_nil_of_left_ne_nil (isRepositoryComponent_chars h.last).1 _,
      fun c hc => ?_⟩
    exact (List.mem_append.mp hc).elim (referenceChars_of_component h.last c)
      (tagText_chars h.suffix c)

theorem Formed.splitOn_name (h : reference.Formed AcceptedPort) :
    reference.name.splitOn '/' = reference.components := by
  refine List.splitOn_intercalate '/' (fun component hmem hslash => ?_) (by simp [components])
  exact (separators_of_isReferenceChar ((h.component_chars component hmem).2 _ hslash)).1 rfl

theorem Formed.name_chars (h : reference.Formed AcceptedPort) :
    ∀ c ∈ reference.name, c = '/' ∨ isReferenceChar c = true := by
  refine forall_of_splitOn '/' (Or.inl rfl) fun component hmem c hc => Or.inr ?_
  rw [h.splitOn_name] at hmem
  exact (h.component_chars component hmem).2 c hc

theorem Formed.name_ne_nil (h : reference.Formed AcceptedPort) : reference.name ≠ [] := by
  intro hempty
  have hsplit := h.splitOn_name
  rw [hempty, List.splitOn_nil] at hsplit
  exact (h.component_chars [] (hsplit ▸ List.mem_singleton_self _)).1 rfl

theorem Formed.at_notMem_name (h : reference.Formed AcceptedPort) : '@' ∉ reference.name := by
  intro hmem
  rcases h.name_chars '@' hmem with h | h
  · exact absurd h (by decide)
  · exact (separators_of_isReferenceChar h).2.1 rfl

theorem Formed.splitRegistry_components (h : reference.Formed AcceptedPort) :
    splitRegistry reference.components = some (reference.registry.map Registry.text,
      reference.path ++ [reference.last ++ reference.suffix.tagText]) := by
  cases hregistry : reference.registry with
  | some registry =>
      obtain ⟨hformed, hmarks⟩ := h.registry registry hregistry
      have hvalid := isValidRegistry_iff.mpr ⟨registry, hformed, rfl⟩
      simp only [components, hregistry, Option.toList_some, List.map_cons, List.map_nil,
        List.cons_append, List.nil_append, splitRegistry_cons]
      rw [if_pos ⟨by simp, hmarks⟩, if_pos hvalid, Option.map_some]
  | none =>
      simp only [components, hregistry, Option.toList_none, List.map_nil, List.nil_append,
        Option.map_none]
      cases hpath : reference.path with
      | nil =>
          rw [List.nil_append, splitRegistry_cons, if_neg (fun hboth => hboth.1 rfl)]
      | cons first rest =>
          have hunmarked := h.unqualified hregistry first (by simp [hpath])
          rw [List.cons_append, splitRegistry_cons, if_neg (fun hboth => hunmarked hboth.2)]

/-- The classifier takes a well-formed reference apart into its parts. -/
theorem Formed.parsed (h : reference.Formed AcceptedPort) :
    Parsed reference.spell reference.name reference.suffix.digestOf
      (reference.registry.map Registry.text) reference.path
      (reference.last ++ reference.suffix.tagText) where
  digested := splitDigest_of_formed ⟨h.name_ne_nil, h.at_notMem_name⟩ h.suffix
  nonempty := by
    rw [h.splitOn_name]
    exact fun hmem => (h.component_chars [] hmem).1 rfl
  qualified := by rw [h.splitOn_name, h.splitRegistry_components]
  components := h.path
  named := by
    rw [splitTag_of_formed h.last h.suffix]
    exact h.last
  tagged := by
    rw [splitTag_of_formed h.last h.suffix]
    intro label hlabel
    have hsuffix := h.suffix
    cases hcase : reference.suffix with
    | bare | digest => simp [hcase, ReferenceSuffix.tagOf] at hlabel
    | tag label' =>
        rw [hcase] at hsuffix hlabel
        cases hlabel
        exact hsuffix
  exclusive := by
    rw [splitTag_of_formed h.last h.suffix]
    cases reference.suffix with
    | bare | tag => exact Or.inl rfl
    | digest => exact Or.inr rfl

theorem Formed.spell_inj (h : reference.Formed AcceptedPort) (h' : other.Formed AcceptedPort)
    (heq : reference.spell = other.spell) : reference = other := by
  have hparsed := h.parsed
  rw [heq] at hparsed
  have hdigest := hparsed.digested.symm.trans h'.parsed.digested
  simp only [Option.some.injEq, Prod.mk.injEq] at hdigest
  obtain ⟨hname, hdigest⟩ := hdigest
  have hqualified := hparsed.qualified.symm.trans (hname ▸ h'.parsed.qualified)
  simp only [Option.some.injEq, Prod.mk.injEq] at hqualified
  obtain ⟨hregistry, hrepository⟩ := hqualified
  obtain ⟨hpath, hlast⟩ := List.append_inj' hrepository rfl
  have htag := congrArg splitTag (List.singleton_inj.mp hlast)
  rw [splitTag_of_formed h.last h.suffix, splitTag_of_formed h'.last h'.suffix,
    Prod.mk.injEq] at htag
  have hsame : reference.registry = other.registry := by
    cases hone : reference.registry with
    | none => simpa [hone, eq_comm] using hregistry
    | some registry =>
        cases htwo : other.registry with
        | none => simp [hone, htwo] at hregistry
        | some registry' =>
            rw [hone, htwo, Option.map_some, Option.map_some, Option.some.injEq] at hregistry
            rw [Registry.text_inj (h.registry registry hone).1 (h'.registry registry' htwo).1
              hregistry]
  obtain ⟨registry, path, last, suffix⟩ := reference
  obtain ⟨registry', path', last', suffix'⟩ := other
  obtain rfl := suffix_ext hdigest htag.2
  obtain rfl := htag.1
  obtain rfl := hpath
  obtain rfl := hsame
  rfl

end Reference

theorem eq_of_splitDigest {name : List Char} {digest : Option (List Char)}
    (h : splitDigest value = some (name, digest)) :
    value = name ++ digest.elim [] ('@' :: ·) ∧ ∀ text ∈ digest, isSha256Digest text = true := by
  rw [splitDigest] at h
  split at h
  · cases h
    exact ⟨(List.append_nil _).symm, by simp⟩
  · next name' digest' hparts =>
      split_ifs at h with htest
      cases h
      rw [Bool.and_eq_true] at htest
      refine ⟨eq_of_splitOnce hparts, fun text htext => ?_⟩
      cases htext
      exact htest.2

/-- Whatever the classifier takes apart is the spelling of a well-formed reference. -/
theorem Parsed.exists_reference {name last : List Char} {digest registry : Option (List Char)}
    {path : List (List Char)} (h : Parsed value name digest registry path last) :
    ∃ reference : Reference, reference.Formed AcceptedPort ∧ reference.spell = value := by
  obtain ⟨hvalue, hdigest⟩ := eq_of_splitDigest h.digested
  obtain ⟨suffix, hsuffix, hdigestOf, htagOf⟩ := exists_suffix hdigest h.tagged h.exclusive
  have hlast : last = (splitTag last).1 ++ suffix.tagText := by
    rw [tagText_eq, htagOf]
    exact splitTag_spelled last
  have hqualified := h.qualified
  cases hcomponents : name.splitOn '/' with
  | nil =>
      rw [hcomponents] at hqualified
      cases hqualified
  | cons first rest =>
      have hname : name = ['/'].intercalate (first :: rest) := by
        rw [← hcomponents, List.intercalate_splitOn]
      rw [hcomponents, splitRegistry_cons] at hqualified
      split_ifs at hqualified with hmarks hvalid
      · simp only [Option.some.injEq, Prod.mk.injEq] at hqualified
        obtain ⟨host, hhost, rfl⟩ := isValidRegistry_iff.mp hvalid
        refine ⟨⟨some host, path, (splitTag last).1, suffix⟩,
          ⟨fun registry hregistry => ?_, by simp, h.components, h.named, hsuffix⟩, ?_⟩
        · cases hregistry
          exact ⟨hhost, hmarks.2⟩
        · rw [Reference.spell, digestText_eq, hdigestOf, hvalue, hname, hqualified.2]
          simp [Reference.components, ← hlast]
      · simp only [Option.some.injEq, Prod.mk.injEq] at hqualified
        refine ⟨⟨none, path, (splitTag last).1, suffix⟩,
          ⟨by simp, fun _ component hfirst => ?_, h.components, h.named, hsuffix⟩, ?_⟩
        · cases path with
          | nil => simp at hfirst
          | cons component' path =>
              simp only [List.head?_cons, Option.mem_some_iff] at hfirst
              obtain ⟨rfl, hrest⟩ := List.cons.inj hqualified.2
              exact fun hmark => hmarks ⟨by simp [hrest], hfirst ▸ hmark⟩
        · rw [Reference.spell, digestText_eq, hdigestOf, hvalue, hname, hqualified.2]
          simp [Reference.components, ← hlast]

theorem text_eq_localhost_iff {registry : Registry} (h : registry.Formed AcceptedPort) :
    registry.text = "localhost".toList ↔ registry = .localhost := by
  constructor
  · exact Registry.text_inj h (.localhost _)
  · rintro rfl
    rfl

theorem classifyReference_spell (h : reference.Formed AcceptedPort) :
    classifyReference reference.spell = some reference.classification := by
  refine classifyReference_eq_some.mpr ⟨_, _, _, _, _, h.parsed, ?_⟩
  rw [splitTag_of_formed h.last h.suffix]
  cases hregistry : reference.registry with
  | none => simp [classifyParts, Reference.classification, hregistry]
  | some registry =>
      have hlocal := text_eq_localhost_iff (h.registry registry hregistry).1
      simp only [Option.map_some, classifyParts, Reference.classification, hregistry, hlocal]
      split_ifs with hbranch hbare
      · rfl
      · rw [hbare]
        rfl
      · cases hsuffix : reference.suffix with
        | bare => exact absurd hsuffix hbare
        | tag | digest => rfl

/-- The parser's own grammar, its port test included. -/
theorem classifyReference_iff {verdict : ImageSourceClassification} :
    classifyReference value = some verdict ↔ ∃ reference : Reference,
      reference.Formed AcceptedPort ∧ reference.spell = value ∧
        reference.classification = verdict := by
  constructor
  · intro h
    obtain ⟨name, digest, registry, path, last, hparsed, -⟩ := classifyReference_eq_some.mp h
    obtain ⟨reference, hformed, rfl⟩ := hparsed.exists_reference
    refine ⟨reference, hformed, rfl, ?_⟩
    rw [classifyReference_spell hformed, Option.some.injEq] at h
    exact h
  · rintro ⟨reference, hformed, rfl, rfl⟩
    exact classifyReference_spell hformed

end Spelling

end PodmanLens
