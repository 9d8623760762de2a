import PodmanLens.Radix
import PodmanLens.Fields

/-!
# Image spellings of a creation command

Inspection may drop the tag of an image that is pinned by a digest. The comparison takes both
spellings apart from both ends and accepts only this one change, so the two texts are the same name
and the same digest, the authored one with a tag between them.
-/

namespace PodmanLens
open Text

def isCanonicalHex (c : Char) : Bool := c.isDigit || ('a' ≤ c && c ≤ 'f')

def isTagChar (c : Char) : Bool := c.isAlphanum || ['_', '.', '-'].contains c

def digestMarker : List Char := "@sha256:".toList

structure ImageParts where
  repository : List Char
  tag : Option (List Char)
  digest : List Char
  deriving DecidableEq

/-- The repository before the tag of a name. -/
def repositoryOf (name : List Char) : Option (List Char) → List Char
  | none => name
  | some tag => name.take (name.length - tag.length - 1)

def lastSegment (repository : List Char) : List Char :=
  ((rsplitOnce '/' repository).map Prod.snd).getD repository

def imageParts (reference : List Char) : Option ImageParts :=
  (splitAtMarker digestMarker reference).bind fun (name, digest) =>
    if byteLength digest ≠ 64 ∨ digest.all isCanonicalHex = false then none
    else (rsplitOnce '/' name).bind fun (registryAndPath, lastComponent) =>
      if registryAndPath = [] ∨ lastComponent = [] ∨ '@' ∈ name then none
      else
        let tag := (rsplitOnce ':' lastComponent).map Prod.snd
        if tag.any fun value => value.isEmpty || !value.all isTagChar then none
        else
          let repository := repositoryOf name tag
          if repository.getLast? = some '/' ∨ ':' ∈ lastSegment repository then none
          else some ⟨repository, tag, digest⟩

def sameImageAfterDigestTagCanonicalization (authored configured : String) : Bool :=
  match imageParts authored.toList, imageParts configured.toList with
  | some left, some right =>
    left.repository = right.repository && left.digest = right.digest && left.tag.isSome &&
      right.tag.isNone
  | _, _ => false

section Spellings

/-- A name with a path, whose last component is not empty and holds no colon. -/
def PathName (name : List Char) : Prop :=
  '@' ∉ name ∧ ∃ before last, name = before ++ '/' :: last ∧ '/' ∉ last ∧ before ≠ [] ∧
    last ≠ [] ∧ ':' ∉ last

def tagLetters : List Char :=
  "ABCDEFGHIJKLMNOPQRSTUVWXYZabcdefghijklmnopqrstuvwxyz0123456789_.-".toList

def digestLetters : List Char := "0123456789abcdef".toList

def TagText (tag : List Char) : Prop := tag ≠ [] ∧ tag ⊆ tagLetters

def DigestText (digest : List Char) : Prop := digest.length = 64 ∧ digest ⊆ digestLetters

def tagChars : Option (List Char) → List Char
  | none => []
  | some tag => ':' :: tag

def ImageParts.chars (parts : ImageParts) : List Char :=
  parts.repository ++ tagChars parts.tag ++ (digestMarker ++ parts.digest)

structure ImageParts.Formed (parts : ImageParts) : Prop where
  repository : PathName parts.repository
  tag : ∀ tag ∈ parts.tag, TagText tag
  digest : DigestText parts.digest

theorem isTagChar_iff {c : Char} : isTagChar c = true ↔ c ∈ tagLetters := by
  refine mem_iff_of_table (by decide +kernel) (fun c h => ?_) (by decide)
  rw [isTagChar, Bool.or_eq_true, List.contains_iff_mem] at h
  rcases h with h | h
  · have hrange := isAlphanum_range h
    omega
  · simp only [List.mem_cons, List.not_mem_nil, or_false] at h
    rcases h with rfl | rfl | rfl <;> decide

theorem isCanonicalHex_iff {c : Char} : isCanonicalHex c = true ↔ c ∈ digestLetters := by
  refine mem_iff_of_table (by decide +kernel) (fun c h => ?_) (by decide)
  rw [isCanonicalHex, Bool.or_eq_true, Bool.and_eq_true, decide_eq_true_eq, decide_eq_true_eq] at h
  rcases h with h | h
  · have hrange := isAlphanum_range (c := c) (by rw [Char.isAlphanum, h, Bool.or_true])
    omega
  · have hlast : c.toNat ≤ 102 := h.2
    omega

theorem all_isTagChar {tag : List Char} : tag.all isTagChar = true ↔ tag ⊆ tagLetters := by
  simp only [List.all_eq_true, isTagChar_iff]
  rfl

theorem all_isCanonicalHex {digest : List Char} :
    digest.all isCanonicalHex = true ↔ digest ⊆ digestLetters := by
  simp only [List.all_eq_true, isCanonicalHex_iff]
  rfl

theorem byteLength_of_digestLetters {digest : List Char} (h : digest ⊆ digestLetters) :
    byteLength digest = digest.length := by
  have hletters : digestLetters.all (fun c => c.toNat < 128) = true := by decide
  exact byteLength_of_ascii fun c hc => by simpa using List.all_eq_true.mp hletters c (h hc)

theorem notMem_of_tagText {tag : List Char} (h : TagText tag) {c : Char}
    (hc : c ∉ tagLetters) : c ∉ tag :=
  fun hmem => hc (h.2 hmem)

theorem at_notMem_tagChars {tag : Option (List Char)} (h : ∀ text ∈ tag, TagText text) :
    '@' ∉ tagChars tag := by
  cases tag with
  | none => exact List.not_mem_nil
  | some text =>
      rw [tagChars, List.mem_cons, not_or]
      exact ⟨by decide, notMem_of_tagText (h text rfl) (by decide)⟩

theorem slash_notMem_tagChars {tag : Option (List Char)} (h : ∀ text ∈ tag, TagText text) :
    '/' ∉ tagChars tag := by
  cases tag with
  | none => exact List.not_mem_nil
  | some text =>
      rw [tagChars, List.mem_cons, not_or]
      exact ⟨by decide, notMem_of_tagText (h text rfl) (by decide)⟩

/-- The tag stands behind the only colon of the last component. -/
theorem tag_of_last {last : List Char} (hlast : ':' ∉ last) {tag : Option (List Char)}
    (h : ∀ text ∈ tag, TagText text) :
    (rsplitOnce ':' (last ++ tagChars tag)).map Prod.snd = tag := by
  cases tag with
  | none =>
      rw [tagChars, List.append_nil, rsplitOnce_eq_none_iff.mpr hlast]
      rfl
  | some text =>
      have hcolon : ':' ∉ text := notMem_of_tagText (h text rfl) (by decide)
      have hparts : rsplitOnce ':' (last ++ ':' :: text) = some (last, text) :=
        rsplitOnce_eq_some.mpr ⟨hcolon, rfl⟩
      rw [tagChars, hparts]
      rfl

theorem repositoryOf_append (name : List Char) (tag : Option (List Char)) :
    repositoryOf (name ++ tagChars tag) tag = name := by
  cases tag with
  | none => exact List.append_nil name
  | some text =>
      have hlength : (name ++ ':' :: text).length - text.length - 1 = name.length := by
        rw [List.length_append, List.length_cons]
        omega
      rw [repositoryOf, tagChars, hlength, List.take_left]

theorem lastSegment_append {before last : List Char} (h : '/' ∉ last) :
    lastSegment (before ++ '/' :: last) = last := by
  have hparts : rsplitOnce '/' (before ++ '/' :: last) = some (before, last) :=
    rsplitOnce_eq_some.mpr ⟨h, rfl⟩
  rw [lastSegment, hparts]
  rfl

variable {parts : ImageParts}

theorem splitAtMarker_chars (h : parts.Formed) :
    splitAtMarker digestMarker parts.chars =
      some (parts.repository ++ tagChars parts.tag, parts.digest) := by
  refine splitAtMarker_append ?_ _ _
  rw [List.mem_append, not_or]
  exact ⟨h.repository.1, at_notMem_tagChars h.tag⟩

theorem digest_accepted (h : parts.Formed) :
    ¬(byteLength parts.digest ≠ 64 ∨ parts.digest.all isCanonicalHex = false) := by
  rw [byteLength_of_digestLetters h.digest.2, not_or, not_not, Bool.not_eq_false,
    all_isCanonicalHex]
  exact h.digest

theorem tag_accepted (h : parts.Formed) :
    ¬parts.tag.any (fun value => value.isEmpty || !value.all isTagChar) = true := by
  rw [Option.any_eq_true]
  rintro ⟨tag, htag, hrefused⟩
  obtain ⟨hfilled, hchars⟩ := h.tag tag htag
  rw [all_isTagChar.mpr hchars, Bool.not_true, Bool.or_false, List.isEmpty_iff] at hrefused
  exact hfilled hrefused

/-- The spelling of well-formed parts is taken apart again. -/
theorem imageParts_chars (h : parts.Formed) : imageParts parts.chars = some parts := by
  obtain ⟨hat, before, last, hname, hslash, hbefore, hlast, hcolon⟩ := h.repository
  have hcomponent : '/' ∉ last ++ tagChars parts.tag := by
    rw [List.mem_append, not_or]
    exact ⟨hslash, slash_notMem_tagChars h.tag⟩
  have hparts : rsplitOnce '/' (parts.repository ++ tagChars parts.tag) =
      some (before, last ++ tagChars parts.tag) :=
    rsplitOnce_eq_some.mpr ⟨hcomponent, by rw [hname, List.append_assoc]; rfl⟩
  have hfilled : ¬(before = [] ∨ last ++ tagChars parts.tag = [] ∨
      '@' ∈ parts.repository ++ tagChars parts.tag) := by
    rintro (h' | h' | h')
    · exact hbefore h'
    · exact hlast (List.append_eq_nil_iff.mp h').1
    · exact (List.mem_append.mp h').elim hat (at_notMem_tagChars h.tag)
  have hrepository : ¬(parts.repository.getLast? = some '/' ∨
      ':' ∈ lastSegment parts.repository) := by
    rw [hname, lastSegment_append hslash, List.getLast?_append_of_ne_nil _ (List.cons_ne_nil _ _)]
    rintro (h' | h')
    · rw [List.getLast?_cons_of_ne_nil hlast] at h'
      exact hslash (List.mem_of_getLast? h')
    · exact hcolon h'
  rw [imageParts, splitAtMarker_chars h]
  simp only [Option.bind_some, if_neg (digest_accepted h), hparts, if_neg hfilled,
    tag_of_last hcolon h.tag, if_neg (tag_accepted h), repositoryOf_append, if_neg hrepository]

/-- What is taken apart is the spelling of well-formed parts. -/
theorem formed_of_imageParts {reference : List Char} (h : imageParts reference = some parts) :
    parts.Formed ∧ reference = parts.chars := by
  obtain ⟨⟨name, digest⟩, hmarked, h⟩ := Option.bind_eq_some_iff.mp h
  have hreference := eq_of_splitAtMarker hmarked
  obtain ⟨hdigest, h⟩ := Option.ite_none_left_eq_some.mp h
  obtain ⟨⟨before, component⟩, hparts, h⟩ := Option.bind_eq_some_iff.mp h
  obtain ⟨hslash, hname⟩ := rsplitOnce_eq_some.mp hparts
  obtain ⟨hfilled, h⟩ := Option.ite_none_left_eq_some.mp h
  obtain ⟨htag, h⟩ := Option.ite_none_left_eq_some.mp h
  obtain ⟨hrepository, h⟩ := Option.ite_none_left_eq_some.mp h
  obtain rfl := Option.some.inj h
  rw [not_or, not_not, Bool.not_eq_false, all_isCanonicalHex] at hdigest
  rw [not_or, not_or] at hfilled
  obtain ⟨hbefore, hcomponent, hat⟩ := hfilled
  have hformed : DigestText digest :=
    ⟨byteLength_of_digestLetters hdigest.2 ▸ hdigest.1, hdigest.2⟩
  cases hcolon : rsplitOnce ':' component with
  | none =>
      rw [hcolon] at hrepository
      have hplain := rsplitOnce_eq_none_iff.mp hcolon
      refine ⟨⟨⟨hat, before, component, hname, hslash, hbefore, hcomponent, hplain⟩, ?_, hformed⟩,
        ?_⟩
      · exact fun tag htag => nomatch htag
      · rw [ImageParts.chars, Option.map_none, tagChars, List.append_nil]
        exact hreference
  | some found =>
      obtain ⟨last, tag⟩ := found
      obtain ⟨hlastColon, rfl⟩ := rsplitOnce_eq_some.mp hcolon
      have hrepositoryOf : repositoryOf name (some tag) = before ++ '/' :: last := by
        have happend : name = before ++ '/' :: last ++ tagChars (some tag) := by
          rw [hname, tagChars, List.append_assoc]
          rfl
        rw [happend, repositoryOf_append]
      have hlastSlash : '/' ∉ last := fun hmem => hslash (List.mem_append_left _ hmem)
      rw [hcolon, Option.map_some, hrepositoryOf, lastSegment_append hlastSlash,
        List.getLast?_append_of_ne_nil _ (List.cons_ne_nil _ _), not_or] at hrepository
      have hlast : last ≠ [] := by
        rintro rfl
        exact hrepository.1 rfl
      rw [hcolon, Option.map_some, Option.any_some, Bool.or_eq_true, not_or, Bool.not_eq_true,
        Bool.not_eq_true', Bool.not_eq_false, all_isTagChar] at htag
      have htagText : TagText tag := ⟨List.isEmpty_eq_false_iff.mp htag.1, htag.2⟩
      have hatRepository : '@' ∉ before ++ '/' :: last := by
        intro hmem
        refine hat (hname ▸ ?_)
        rcases List.mem_append.mp hmem with hmem | hmem
        · exact List.mem_append_left _ hmem
        · exact List.mem_append_right _ (List.mem_cons.mpr
            ((List.mem_cons.mp hmem).imp_right (List.mem_append_left _)))
      rw [Option.map_some, hrepositoryOf]
      refine ⟨⟨⟨hatRepository, before, last, rfl, hlastSlash, hbefore, hlast, hrepository.2⟩,
        ?_, hformed⟩, ?_⟩
      · rintro text hmem
        obtain rfl := Option.some.inj hmem
        exact htagText
      · rw [hreference, hname, ImageParts.chars, tagChars]
        simp only [List.append_assoc, List.cons_append]

theorem imageParts_eq_some {reference : List Char} :
    imageParts reference = some parts ↔ parts.Formed ∧ reference = parts.chars := by
  refine ⟨formed_of_imageParts, ?_⟩
  rintro ⟨hformed, rfl⟩
  exact imageParts_chars hformed

/-- A name pinned by a digest, as a user and as an inspection may spell it. -/
def pinnedText (name : List Char) (tag : Option (List Char)) (digest : List Char) : String :=
  String.ofList (name ++ tagChars tag ++ (digestMarker ++ digest))

theorem imageParts_eq_some_iff {reference : String} {name digest : List Char}
    {tag : Option (List Char)} :
    imageParts reference.toList = some ⟨name, tag, digest⟩ ↔
      (PathName name ∧ (∀ text ∈ tag, TagText text) ∧ DigestText digest) ∧
        reference = pinnedText name tag digest := by
  rw [imageParts_eq_some, pinnedText, ← String.toList_inj, String.toList_ofList]
  exact and_congr_left' ⟨fun h => ⟨h.repository, h.tag, h.digest⟩, fun h => ⟨h.1, h.2.1, h.2.2⟩⟩

theorem sameImage_iff (authored configured : String) :
    sameImageAfterDigestTagCanonicalization authored configured = true ↔
      ∃ name tag digest, PathName name ∧ TagText tag ∧ DigestText digest ∧
        authored = pinnedText name (some tag) digest ∧
        configured = pinnedText name none digest := by
  rw [sameImageAfterDigestTagCanonicalization]
  constructor
  · intro h
    cases hauthored : imageParts authored.toList with
    | none =>
        rw [hauthored] at h
        cases h
    | some left =>
        cases hconfigured : imageParts configured.toList with
        | none =>
            rw [hauthored, hconfigured] at h
            cases h
        | some right =>
            obtain ⟨name, tag, digest⟩ := left
            obtain ⟨otherName, otherTag, otherDigest⟩ := right
            simp only [hauthored, hconfigured, Bool.and_eq_true, decide_eq_true_eq] at h
            obtain ⟨⟨⟨rfl, rfl⟩, htag⟩, hotherTag⟩ := h
            obtain ⟨text, rfl⟩ := Option.isSome_iff_exists.mp htag
            obtain rfl := Option.isNone_iff_eq_none.mp hotherTag
            obtain ⟨⟨hname, htext, hdigest⟩, hleft⟩ := imageParts_eq_some_iff.mp hauthored
            obtain ⟨-, hright⟩ := imageParts_eq_some_iff.mp hconfigured
            exact ⟨name, text, digest, hname, htext text rfl, hdigest, hleft, hright⟩
  · rintro ⟨name, tag, digest, hname, htag, hdigest, hauthored, hconfigured⟩
    have hleft : imageParts authored.toList = some ⟨name, some tag, digest⟩ := by
      refine imageParts_eq_some_iff.mpr ⟨⟨hname, fun text htext => ?_, hdigest⟩, hauthored⟩
      obtain rfl := Option.some.inj htext
      exact htag
    have hright : imageParts configured.toList = some ⟨name, none, digest⟩ := by
      refine imageParts_eq_some_iff.mpr ⟨⟨hname, fun _ htext => ?_, hdigest⟩, hconfigured⟩
      cases htext
    simp [hleft, hright]

theorem pinnedText_inj {name other digest pin : List Char} {tag otherTag : Option (List Char)}
    (hname : PathName name) (htag : ∀ text ∈ tag, TagText text) (hdigest : DigestText digest)
    (hother : PathName other) (hotherTag : ∀ text ∈ otherTag, TagText text)
    (hpin : DigestText pin) (h : pinnedText name tag digest = pinnedText other otherTag pin) :
    name = other ∧ tag = otherTag ∧ digest = pin := by
  have hleft := imageParts_eq_some_iff.mpr ⟨⟨hname, htag, hdigest⟩, rfl⟩
  have hright := imageParts_eq_some_iff.mpr ⟨⟨hother, hotherTag, hpin⟩, h⟩
  cases hleft.symm.trans hright
  exact ⟨rfl, rfl, rfl⟩

/-- The comparison accepts a tag before the digest, and no other difference. -/
theorem sameImage_exact :
    (∀ authored configured : String,
      sameImageAfterDigestTagCanonicalization authored configured = true ↔
        ∃ name tag digest, PathName name ∧ TagText tag ∧ DigestText digest ∧
          authored = pinnedText name (some tag) digest ∧
          configured = pinnedText name none digest) ∧
    (∀ (name digest : List Char) (configured : String), PathName name → DigestText digest →
      sameImageAfterDigestTagCanonicalization (pinnedText name none digest) configured = false) ∧
    ∀ name tag digest other pin : List Char, PathName name → TagText tag → DigestText digest →
      PathName other → DigestText pin →
      sameImageAfterDigestTagCanonicalization (pinnedText name (some tag) digest)
        (pinnedText other none pin) = true → name = other ∧ digest = pin := by
  have hnone : ∀ text ∈ (none : Option (List Char)), TagText text := fun _ htext => nomatch htext
  have hsome {tag : List Char} (htag : TagText tag) : ∀ text ∈ some tag, TagText text := by
    intro text htext
    obtain rfl := Option.some.inj htext
    exact htag
  refine ⟨sameImage_iff, fun name digest configured hname hdigest => ?_,
    fun name tag digest other pin hname htag hdigest hother hpin hsame => ?_⟩
  · rw [← Bool.not_eq_true, sameImage_iff]
    rintro ⟨found, tag, pin, hfound, htag, hpin, hauthored, -⟩
    have habsurd := pinnedText_inj hname hnone hdigest hfound (hsome htag) hpin hauthored
    cases habsurd.2.1
  · obtain ⟨found, text, common, hfound, htext, hcommon, hauthored, hconfigured⟩ :=
      (sameImage_iff _ _).mp hsame
    obtain ⟨rfl, -, rfl⟩ :=
      pinnedText_inj hname (hsome htag) hdigest hfound (hsome htext) hcommon hauthored
    obtain ⟨rfl, -, rfl⟩ := pinnedText_inj hother hnone hpin hfound hnone hcommon hconfigured
    exact ⟨rfl, rfl⟩

end Spellings

end PodmanLens
