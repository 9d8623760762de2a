import PodmanLens.Networking
import PodmanLens.Radix

/-!
# Static MAC addresses

The constructor tests the length, the number of groups, and that each group parses as a byte in
radix 16. That parser takes a plus sign before the digits, so besides the six pairs of hexadecimal
digits it accepts groups of a plus sign and one digit.
-/

namespace PodmanLens
open Text

section Groups

/-- The test of one group: two bytes that the radix parser reads as a byte. -/
def acceptsGroup (part : List Char) : Bool :=
  byteLength part == 2 && (parseRadix 16 255 part).isSome

/-- What the first character of a group may be. -/
def leadsGroup (c : Char) : Bool := isHexDigit c || c == '+'

theorem utf8Size_of_leadsGroup {c : Char} (h : leadsGroup c = true) : c.utf8Size = 1 := by
  rw [leadsGroup, Bool.or_eq_true, beq_iff_eq] at h
  rcases h with h | rfl
  · exact utf8Size_of_isHexDigit h
  · rfl

theorem mapM_toDigit_isSome {cs : List Char} :
    (cs.mapM (toDigit 16)).isSome = true ↔ ∀ c ∈ cs, isHexDigit c = true := by
  induction cs with
  | nil => simp
  | cons c cs ih =>
      rw [List.forall_mem_cons, ← ih, List.mapM_cons]
      constructor
      · intro h
        cases hc : toDigit 16 c with
        | none =>
            rw [hc] at h
            cases h
        | some d =>
            rw [hc] at h
            refine ⟨isHexDigit_of_toDigit hc, ?_⟩
            cases hcs : cs.mapM (toDigit 16) with
            | none =>
                simp only [hcs] at h
                cases h
            | some digits => rfl
      · rintro ⟨hc, hcs⟩
        obtain ⟨d, -, hd, -⟩ := exists_toDigit_of_isHexDigit hc
        obtain ⟨digits, hdigits⟩ := Option.isSome_iff_exists.mp hcs
        rw [hd, hdigits]
        rfl

/-- A character of its own or a pair is stripped of a sign only when another one follows. -/
theorem digits_of_isSome_parseRadix {a : Char} {rest : List Char}
    (h : (parseRadix 16 255 (a :: rest)).isSome = true) :
    (leadsGroup a = true ∧ ∀ c ∈ rest, isHexDigit c = true) ∧ (rest = [] → isHexDigit a = true) := by
  rw [parseRadix, Option.isSome_bind, Option.any_eq_true] at h
  obtain ⟨values, hvalues, -⟩ := h
  have hsome := Option.isSome_of_mem hvalues
  rw [mapM_toDigit_isSome] at hsome
  unfold stripPlus at hsome
  split at hsome
  · next first tail hcs =>
      cases hcs
      exact ⟨⟨rfl, hsome⟩, fun hempty => absurd hempty (List.cons_ne_nil _ _)⟩
  · rw [List.forall_mem_cons] at hsome
    exact ⟨⟨by rw [leadsGroup, hsome.1, Bool.true_or], hsome.2⟩, fun _ => hsome.1⟩

/-- What the radix parser makes of a pair. -/
theorem parseRadix_pair {a b : Char} (ha : leadsGroup a = true) (hb : isHexDigit b = true) :
    ∃ x < 16, ∃ y < 16, toDigit 16 b = some y ∧ (isHexDigit a = true → toDigit 16 a = some x) ∧
      parseRadix 16 255 [a, b] = some (16 * x + y) := by
  obtain ⟨y, hy, hdigit, -⟩ := exists_toDigit_of_isHexDigit hb
  by_cases hhex : isHexDigit a = true
  · obtain ⟨x, hx, hlead, -⟩ := exists_toDigit_of_isHexDigit hhex
    refine ⟨x, hx, y, hy, hdigit, fun _ => hlead, ?_⟩
    have hsign : a ≠ '+' := by
      rintro rfl
      cases hhex
    have hvalues : [a, b].mapM (toDigit 16) = some [x, y] := by
      rw [List.mapM_cons, List.mapM_cons, List.mapM_nil, hlead, hdigit]
      rfl
    have hvalue : radixValue 16 [x, y] = 16 * x + y := by simp [radixValue]
    rw [parseRadix, stripPlus_of_head (by simpa using hsign), hvalues, Option.bind_some,
      if_pos ⟨List.cons_ne_nil _ _, by rw [hvalue]; omega⟩, hvalue]
  · rw [leadsGroup, Bool.or_eq_true, beq_iff_eq] at ha
    obtain rfl := ha.resolve_left hhex
    refine ⟨0, by omega, y, hy, hdigit, fun h => absurd h hhex, ?_⟩
    have hvalues : [b].mapM (toDigit 16) = some [y] := by
      rw [List.mapM_cons, List.mapM_nil, hdigit]
      rfl
    have hvalue : radixValue 16 [y] = y := by simp [radixValue]
    rw [parseRadix, stripPlus, hvalues, Option.bind_some,
      if_pos ⟨List.cons_ne_nil _ _, by rw [hvalue]; omega⟩, hvalue]
    simp

theorem acceptsGroup_iff {part : List Char} : acceptsGroup part = true ↔
    ∃ a b, part = [a, b] ∧ leadsGroup a = true ∧ isHexDigit b = true := by
  rw [acceptsGroup, Bool.and_eq_true, beq_iff_eq]
  constructor
  · rintro ⟨hlength, hparse⟩
    cases part with
    | nil => cases hlength
    | cons a rest =>
        obtain ⟨⟨hlead, hrest⟩, halone⟩ := digits_of_isSome_parseRadix hparse
        cases rest with
        | nil =>
            have hsize := utf8Size_of_isHexDigit (halone rfl)
            simp [hsize] at hlength
        | cons b tail =>
            have hb := hrest b List.mem_cons_self
            cases tail with
            | nil => exact ⟨a, b, rfl, hlead, hb⟩
            | cons c tail =>
                have hc := utf8Size_of_isHexDigit (hrest c (by simp))
                have hsize := utf8Size_of_isHexDigit hb
                have hfirst := utf8Size_of_leadsGroup hlead
                simp only [byteLength_cons, hc, hsize, hfirst] at hlength
                omega
  · rintro ⟨a, b, rfl, ha, hb⟩
    obtain ⟨x, -, y, -, -, -, hparse⟩ := parseRadix_pair ha hb
    rw [hparse]
    simp [utf8Size_of_leadsGroup ha, utf8Size_of_isHexDigit hb]

theorem isHexByte_eq (part : List Char) : isHexByte part = acceptsGroup part := by
  rw [Bool.eq_iff_iff, acceptsGroup_iff]
  constructor
  · intro h
    rw [isHexByte.eq_def] at h
    split at h
    · next a b =>
        rw [Bool.and_eq_true] at h
        exact ⟨a, b, rfl, h.1, h.2⟩
    · cases h
  · rintro ⟨a, b, rfl, ha, hb⟩
    rw [isHexByte, Bool.and_eq_true]
    exact ⟨ha, hb⟩

end Groups

section Spelling

def spellGroups (groups : List (Char × Char)) : List Char :=
  [':'].intercalate (groups.map fun group => [group.1, group.2])

/-- The groups of an accepted spelling. -/
structure SixGroups (value : String) (groups : List (Char × Char)) : Prop where
  six : groups.length = 6
  accepted : ∀ group ∈ groups, leadsGroup group.1 = true ∧ isHexDigit group.2 = true
  spelled : value.toList = spellGroups groups

variable {value : String} {groups : List (Char × Char)}

theorem colon_notMem_group {group : Char × Char} (h : leadsGroup group.1 = true)
    (h' : isHexDigit group.2 = true) : ':' ∉ [group.1, group.2] := by
  rw [List.mem_pair]
  rintro (heq | heq)
  · rw [← heq] at h
    cases h
  · rw [← heq] at h'
    cases h'

theorem SixGroups.parts (h : SixGroups value groups) :
    value.toList.splitOn ':' = groups.map fun group => [group.1, group.2] := by
  rw [h.spelled, spellGroups]
  apply List.splitOn_intercalate
  · intro part hpart
    obtain ⟨group, hgroup, rfl⟩ := List.mem_map.mp hpart
    exact colon_notMem_group (h.accepted group hgroup).1 (h.accepted group hgroup).2
  · rw [Ne, List.map_eq_nil_iff]
    rintro rfl
    cases h.six

/-- Six pairs of one-byte characters and five colons. -/
theorem SixGroups.utf8ByteSize_eq (h : SixGroups value groups) : value.utf8ByteSize = 17 := by
  have hpair : ∀ group ∈ groups, group.1.utf8Size = 1 ∧ group.2.utf8Size = 1 := fun group hgroup =>
    ⟨utf8Size_of_leadsGroup (h.accepted group hgroup).1,
      utf8Size_of_isHexDigit (h.accepted group hgroup).2⟩
  have hcolon : ':'.utf8Size = 1 := rfl
  have hsix := h.six
  match groups, hsix with
  | [a, b, c, d, e, f], _ =>
      simp only [List.forall_mem_cons] at hpair
      obtain ⟨ha, hb, hc, hd, he, hf, -⟩ := hpair
      rw [Text.utf8ByteSize_eq, h.spelled]
      simp [spellGroups, ha, hb, hc, hd, he, hf, hcolon]

theorem isStaticMacAddress_iff :
    isStaticMacAddress value = true ↔ ∃ groups, SixGroups value groups := by
  simp only [isStaticMacAddress, Bool.and_eq_true, beq_iff_eq, List.all_eq_true]
  constructor
  · rintro ⟨⟨-, hsix⟩, hparts⟩
    have hpairs : ∀ part ∈ value.toList.splitOn ':', ∃ group : Char × Char,
        part = [group.1, group.2] ∧ leadsGroup group.1 = true ∧ isHexDigit group.2 = true := by
      intro part hpart
      obtain ⟨a, b, hpair, ha, hb⟩ := acceptsGroup_iff.mp ((isHexByte_eq part).symm.trans
        (hparts part hpart))
      exact ⟨(a, b), hpair, ha, hb⟩
    choose! pair hpair hlead hdigit using hpairs
    refine ⟨(value.toList.splitOn ':').map pair, ⟨by rw [List.length_map, hsix], ?_, ?_⟩⟩
    · intro group hgroup
      obtain ⟨part, hpart, rfl⟩ := List.mem_map.mp hgroup
      exact ⟨hlead part hpart, hdigit part hpart⟩
    · have hspelled : (value.toList.splitOn ':').map (fun part => [(pair part).1, (pair part).2]) =
          value.toList.splitOn ':' := by
        conv_rhs => rw [← List.map_id (value.toList.splitOn ':')]
        exact List.map_congr_left fun part hpart => (hpair part hpart).symm
      rw [spellGroups, List.map_map]
      exact ((congrArg [':'].intercalate hspelled).trans (List.intercalate_splitOn ':')).symm
  · rintro ⟨groups, h⟩
    refine ⟨⟨h.utf8ByteSize_eq, by rw [h.parts, List.length_map, h.six]⟩, fun part hpart => ?_⟩
    rw [h.parts] at hpart
    obtain ⟨group, hgroup, rfl⟩ := List.mem_map.mp hpart
    rw [isHexByte_eq, acceptsGroup_iff]
    exact ⟨_, _, rfl, h.accepted group hgroup⟩

theorem spellGroups_cons_cons (first second : Char × Char) (rest : List (Char × Char)) :
    spellGroups (first :: second :: rest) =
      [first.1, first.2] ++ ':' :: spellGroups (second :: rest) := by
  rw [spellGroups, List.map_cons, List.map_cons, List.intercalate_cons_cons]
  simp [spellGroups]

theorem map_spellGroups {f : Char → Char} (hf : f ':' = ':') (groups : List (Char × Char)) :
    (spellGroups groups).map f = spellGroups (groups.map (Prod.map f f)) := by
  induction groups with
  | nil => rfl
  | cons first rest ih =>
      cases rest with
      | nil => simp [spellGroups]
      | cons second rest =>
          rw [spellGroups_cons_cons, List.map_append, List.map_cons (l := spellGroups _), hf, ih]
          exact (spellGroups_cons_cons (Prod.map f f first) (Prod.map f f second) _).symm

end Spelling

section Octets

/-- The octets that the groups of a spelling denote. -/
def macOctets (value : String) : Option (List ℕ) :=
  (value.toList.splitOn ':').mapM (parseRadix 16 255)

/-- The lower-case digits of an octet. -/
def spellOctet (octet : ℕ) : Char × Char := ((octet / 16).digitChar, (octet % 16).digitChar)

/-- Six colon-separated groups of two hexadecimal digits. -/
def MacText (value : String) : Prop :=
  ∃ groups : List (Char × Char), groups.length = 6 ∧
    (∀ group ∈ groups, isHexDigit group.1 = true ∧ isHexDigit group.2 = true) ∧
    value.toList = spellGroups groups

/-- Six groups that parse, one of them with a plus sign for its first digit. -/
def PlusSpelled (value : String) : Prop :=
  ∃ groups, SixGroups value groups ∧ ∃ group ∈ groups, group.1 = '+'

variable {value : String} {groups : List (Char × Char)}

theorem mapM_eq_some_of_map {α β : Type} {f : α → Option β} {l : List α} {values : List β}
    (h : l.map f = values.map some) : l.mapM f = some values := by
  induction l generalizing values with
  | nil =>
      rw [List.map_nil, eq_comm, List.map_eq_nil_iff] at h
      rw [h]
      rfl
  | cons a l ih =>
      cases values with
      | nil => cases h
      | cons b values =>
          obtain ⟨hhead, htail⟩ := List.cons.inj h
          rw [List.mapM_cons, hhead, ih htail]
          rfl

theorem exists_octet {group : Char × Char} (h : isHexDigit group.1 = true)
    (h' : isHexDigit group.2 = true) : ∃ octet < 256,
    parseRadix 16 255 [group.1, group.2] = some octet ∧
      Prod.map Char.toLower Char.toLower group = spellOctet octet := by
  have hlead : leadsGroup group.1 = true := by rw [leadsGroup, h, Bool.true_or]
  obtain ⟨x, hx, y, hy, hy', hx', hparse⟩ := parseRadix_pair hlead h'
  obtain ⟨x', hlt, hdigit, hlower⟩ := exists_toDigit_of_isHexDigit h
  obtain ⟨y', hlt', hdigit', hlower'⟩ := exists_toDigit_of_isHexDigit h'
  obtain rfl := Option.some.inj (hdigit.symm.trans (hx' h))
  obtain rfl := Option.some.inj (hdigit'.symm.trans hy')
  have hhigh : (16 * x' + y') / 16 = x' := by omega
  have hlow : (16 * x' + y') % 16 = y' := by omega
  refine ⟨16 * x' + y', by omega, hparse, ?_⟩
  rw [spellOctet, hhigh, hlow, ← hlower, ← hlower']
  rfl

theorem isHexDigit_digitChar : ∀ d < 16, isHexDigit d.digitChar = true := by decide

theorem isHexDigit_spellOctet {octet : ℕ} (h : octet < 256) :
    isHexDigit (spellOctet octet).1 = true ∧ isHexDigit (spellOctet octet).2 = true :=
  ⟨isHexDigit_digitChar _ (by omega), isHexDigit_digitChar _ (by omega)⟩

theorem parseRadix_spellOctet {octet : ℕ} (h : octet < 256) :
    parseRadix 16 255 [(spellOctet octet).1, (spellOctet octet).2] = some octet := by
  obtain ⟨hhigh, hlow⟩ := isHexDigit_spellOctet h
  have hlead : leadsGroup (spellOctet octet).1 = true := by rw [leadsGroup, hhigh, Bool.true_or]
  obtain ⟨x, -, y, -, hy, hx, hparse⟩ := parseRadix_pair hlead hlow
  have hdiv := @toDigit_digitChar 16 (octet / 16) (by omega) le_rfl
  have hmod := @toDigit_digitChar 16 (octet % 16) (by omega) le_rfl
  obtain rfl := Option.some.inj (hdiv.symm.trans (hx hhigh))
  obtain rfl := Option.some.inj (hmod.symm.trans hy)
  rw [hparse, Nat.div_add_mod]

theorem SixGroups.unique {others : List (Char × Char)} (h : SixGroups value groups)
    (h' : SixGroups value others) : groups = others := by
  refine List.map_injective_iff.mpr ?_ (h.parts.symm.trans h'.parts)
  rintro ⟨a, b⟩ ⟨c, d⟩ hpair
  cases hpair
  rfl

theorem macText_iff : MacText value ↔
    ∃ groups, SixGroups value groups ∧ ∀ group ∈ groups, isHexDigit group.1 = true := by
  constructor
  · rintro ⟨groups, hsix, hhex, hspelled⟩
    refine ⟨groups, ⟨hsix, fun group hgroup => ⟨?_, (hhex group hgroup).2⟩, hspelled⟩,
      fun group hgroup => (hhex group hgroup).1⟩
    rw [leadsGroup, (hhex group hgroup).1, Bool.true_or]
  · rintro ⟨groups, h, hhex⟩
    exact ⟨groups, h.six, fun group hgroup => ⟨hhex group hgroup, (h.accepted group hgroup).2⟩,
      h.spelled⟩

/-- An accepted spelling is six pairs of hexadecimal digits or has a plus sign in a group. -/
theorem isStaticMacAddress_iff_macText_or :
    isStaticMacAddress value = true ↔ MacText value ∨ PlusSpelled value := by
  rw [isStaticMacAddress_iff, macText_iff]
  constructor
  · rintro ⟨groups, h⟩
    by_cases hplus : ∃ group ∈ groups, group.1 = '+'
    · exact Or.inr ⟨groups, h, hplus⟩
    · refine Or.inl ⟨groups, h, fun group hgroup => ?_⟩
      have hlead := (h.accepted group hgroup).1
      rw [leadsGroup, Bool.or_eq_true, beq_iff_eq] at hlead
      exact hlead.resolve_right fun heq => hplus ⟨group, hgroup, heq⟩
  · rintro (⟨groups, h, -⟩ | ⟨groups, h, -⟩)
    · exact ⟨groups, h⟩
    · exact ⟨groups, h⟩

theorem not_macText_of_plusSpelled (h : PlusSpelled value) : ¬MacText value := by
  obtain ⟨groups, hsix, group, hgroup, hplus⟩ := h
  rw [macText_iff]
  rintro ⟨others, hothers, hhex⟩
  obtain rfl := hsix.unique hothers
  have hsign := hhex group hgroup
  rw [hplus] at hsign
  cases hsign

theorem SixGroups.macOctets_eq {octets : List ℕ} (h : SixGroups value groups)
    (hoctets : groups.map (fun group => parseRadix 16 255 [group.1, group.2]) =
      octets.map some) : macOctets value = some octets := by
  rw [macOctets, h.parts]
  apply mapM_eq_some_of_map
  rw [List.map_map]
  exact hoctets

theorem macOctets_spell {octets : List ℕ} (hsix : octets.length = 6)
    (hbound : ∀ octet ∈ octets, octet < 256)
    (hspelled : value.toList = spellGroups (octets.map spellOctet)) :
    macOctets value = some octets := by
  have hgroups : SixGroups value (octets.map spellOctet) := by
    refine ⟨by rw [List.length_map, hsix], fun group hgroup => ?_, hspelled⟩
    obtain ⟨octet, hoctet, rfl⟩ := List.mem_map.mp hgroup
    obtain ⟨hhigh, hlow⟩ := isHexDigit_spellOctet (hbound octet hoctet)
    exact ⟨by rw [leadsGroup, hhigh, Bool.true_or], hlow⟩
  apply hgroups.macOctets_eq
  rw [List.map_map]
  exact List.map_congr_left fun octet hoctet => parseRadix_spellOctet (hbound octet hoctet)

/-- The stored spelling is that of the octets. -/
theorem MacText.exists_octets (h : MacText value) : ∃ octets : List ℕ, octets.length = 6 ∧
    (∀ octet ∈ octets, octet < 256) ∧ macOctets value = some octets ∧
      (value.map Char.toLower).toList = spellGroups (octets.map spellOctet) := by
  obtain ⟨groups, hgroups, hhex⟩ := macText_iff.mp h
  have hoctet : ∀ group ∈ groups, ∃ octet < 256,
      parseRadix 16 255 [group.1, group.2] = some octet ∧
        Prod.map Char.toLower Char.toLower group = spellOctet octet :=
    fun group hgroup => exists_octet (hhex group hgroup) (hgroups.accepted group hgroup).2
  choose! octet hbound hparse hlower using hoctet
  refine ⟨groups.map octet, by rw [List.length_map, hgroups.six], ?_, hgroups.macOctets_eq ?_, ?_⟩
  · intro n hn
    obtain ⟨group, hgroup, rfl⟩ := List.mem_map.mp hn
    exact hbound group hgroup
  · rw [List.map_map]
    exact List.map_congr_left hparse
  · rw [String.toList_map, hgroups.spelled, map_spellGroups rfl, List.map_map]
    exact congrArg spellGroups (List.map_congr_left hlower)

end Octets

section Normalization

/-- The constructor accepts exactly the hexadecimal spellings and stores their lower-case form. -/
structure NormalizesMac (value : String) : Prop where
  accepted : (∃ mac, StaticMacAddress.new value = .ok mac) ↔ MacText value
  lowered : ∀ mac, StaticMacAddress.new value = .ok mac → mac.asStr = value.map Char.toLower
  idempotent : ∀ mac, StaticMacAddress.new value = .ok mac → StaticMacAddress.new mac.asStr = .ok mac

/-- Accepted spellings give equal addresses exactly when they denote the same octets. -/
def EqualAsOctets (value other : String) : Prop :=
  ∀ mac mac', StaticMacAddress.new value = .ok mac → StaticMacAddress.new other = .ok mac' →
    (mac = mac' ↔ macOctets value = macOctets other)

variable {value other : String} {mac mac' : StaticMacAddress}

theorem StaticMacAddress.ext_asStr (h : mac.asStr = mac'.asStr) : mac = mac' := by
  cases mac
  cases mac'
  cases h
  rfl

theorem new_eq_ok : StaticMacAddress.new value = .ok mac ↔
    isStaticMacAddress value = true ∧ mac.asStr = value.map Char.toLower := by
  unfold StaticMacAddress.new
  split_ifs with haccepted
  · rw [Except.ok.injEq]
    constructor
    · rintro rfl
      exact ⟨haccepted, rfl⟩
    · rintro ⟨-, hlower⟩
      exact StaticMacAddress.ext_asStr hlower.symm
  · constructor
    · intro h
      cases h
    · exact fun h => absurd h.1 haccepted

theorem MacText.toLower (h : MacText value) : MacText (value.map Char.toLower) := by
  obtain ⟨octets, hsix, hbound, -, hlower⟩ := h.exists_octets
  refine ⟨octets.map spellOctet, by rw [List.length_map, hsix], fun group hgroup => ?_, hlower⟩
  obtain ⟨octet, hoctet, rfl⟩ := List.mem_map.mp hgroup
  exact isHexDigit_spellOctet (hbound octet hoctet)

theorem MacText.macOctets_toLower (h : MacText value) :
    macOctets (value.map Char.toLower) = macOctets value := by
  obtain ⟨octets, hsix, hbound, hoctets, hlower⟩ := h.exists_octets
  rw [macOctets_spell hsix hbound hlower, hoctets]

theorem toLower_digitChar : ∀ d < 16, d.digitChar.toLower = d.digitChar := by decide

theorem MacText.toLower_toLower (h : MacText value) :
    (value.map Char.toLower).map Char.toLower = value.map Char.toLower := by
  obtain ⟨octets, -, hbound, -, hlower⟩ := h.exists_octets
  apply String.toList_injective
  rw [String.toList_map, hlower, map_spellGroups rfl, List.map_map]
  refine congrArg spellGroups (List.map_congr_left fun octet hoctet => ?_)
  have hoctet := hbound octet hoctet
  exact Prod.ext (toLower_digitChar _ (by omega)) (toLower_digitChar _ (by omega))

theorem normalizesMac_of_not_plusSpelled (h : ¬PlusSpelled value) : NormalizesMac value := by
  have haccepted : isStaticMacAddress value = true ↔ MacText value := by
    rw [isStaticMacAddress_iff_macText_or, or_iff_left h]
  refine ⟨⟨?_, ?_⟩, fun mac hnew => (new_eq_ok.mp hnew).2, fun mac hnew => ?_⟩
  · rintro ⟨mac, hnew⟩
    exact haccepted.mp (new_eq_ok.mp hnew).1
  · intro htext
    have hmac := haccepted.mpr htext
    exact ⟨⟨value.map Char.toLower, value, hmac, rfl⟩, new_eq_ok.mpr ⟨hmac, rfl⟩⟩
  · obtain ⟨hmac, hlower⟩ := new_eq_ok.mp hnew
    have htext := haccepted.mp hmac
    rw [hlower]
    refine new_eq_ok.mpr ⟨isStaticMacAddress_iff_macText_or.mpr (Or.inl htext.toLower), ?_⟩
    rw [hlower, htext.toLower_toLower]

theorem not_plusSpelled_of_normalizesMac (h : NormalizesMac value) : ¬PlusSpelled value := by
  intro hplus
  have hmac := isStaticMacAddress_iff_macText_or.mpr (Or.inr hplus)
  exact not_macText_of_plusSpelled hplus
    (h.accepted.mp ⟨⟨value.map Char.toLower, value, hmac, rfl⟩, new_eq_ok.mpr ⟨hmac, rfl⟩⟩)

theorem equalAsOctets_of_not_plusSpelled (h : ¬PlusSpelled value) (h' : ¬PlusSpelled other) :
    EqualAsOctets value other := by
  intro mac mac' hnew hnew'
  have htext := (normalizesMac_of_not_plusSpelled h).accepted.mp ⟨mac, hnew⟩
  have htext' := (normalizesMac_of_not_plusSpelled h').accepted.mp ⟨mac', hnew'⟩
  have hlower := (new_eq_ok.mp hnew).2
  have hlower' := (new_eq_ok.mp hnew').2
  constructor
  · rintro rfl
    rw [← htext.macOctets_toLower, ← htext'.macOctets_toLower, ← hlower, ← hlower']
  · intro hoctets
    obtain ⟨octets, -, -, hvalue, hspelled⟩ := htext.exists_octets
    obtain ⟨octets', -, -, hvalue', hspelled'⟩ := htext'.exists_octets
    obtain rfl := Option.some.inj (hvalue.symm.trans (hoctets.trans hvalue'))
    apply StaticMacAddress.ext_asStr
    rw [hlower, hlower']
    exact String.toList_injective (hspelled.trans hspelled'.symm)

/-- The constructor normalizes what it accepts exactly where no group has a plus sign. -/
theorem staticMac_normalizes_iff (value other : String) :
    NormalizesMac value ∧ NormalizesMac other ∧ EqualAsOctets value other ↔
      ¬PlusSpelled value ∧ ¬PlusSpelled other := by
  constructor
  · rintro ⟨h, h', -⟩
    exact ⟨not_plusSpelled_of_normalizesMac h, not_plusSpelled_of_normalizesMac h'⟩
  · rintro ⟨h, h'⟩
    exact ⟨normalizesMac_of_not_plusSpelled h, normalizesMac_of_not_plusSpelled h',
      equalAsOctets_of_not_plusSpelled h h'⟩

theorem plusSpelled_accepted : ¬NormalizesMac "+1:00:00:00:00:00" := by
  have hplus : PlusSpelled "+1:00:00:00:00:00" :=
    ⟨[('+', '1'), ('0', '0'), ('0', '0'), ('0', '0'), ('0', '0'), ('0', '0')],
      ⟨rfl, by simp [leadsGroup, isHexDigit, Char.isDigit], by decide⟩, by simp⟩
  exact fun h => not_plusSpelled_of_normalizesMac h hplus

end Normalization

end PodmanLens
