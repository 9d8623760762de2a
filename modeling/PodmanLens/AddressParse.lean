import PodmanLens.AddressText
import PodmanLens.Radix

/-!
# Reading addresses

The reader of the standard address syntax: four dotted decimal octets without superfluous zeros, or
up to eight hexadecimal groups, one run of which may be elided and the last two of which may be
dotted. The dotted form is tried first and the whole text has to be read. Every address is read
back from its canonical spelling.
-/

namespace Net
open Text

section Reader

/-- The digits at the front, as many as there are, as a bounded number. -/
def readNumber (radix maxDigits maximum : ℕ) (allowZeroPrefix : Bool) (cs : List Char) :
    Option (ℕ × List Char) :=
  let digits := cs.takeWhile fun c => (toDigit radix c).isSome
  let value := radixValue radix (digits.filterMap (toDigit radix))
  if digits = [] ∨ maxDigits < digits.length ∨ maximum < value then none
  else if allowZeroPrefix = false ∧ digits.head? = some '0' ∧ 1 < digits.length then none
  else some (value, cs.drop digits.length)

/-- A separator stands before every part but the first. -/
def readSeparator {α : Type} (separator : Char) (first : Bool)
    (inner : List Char → Option (α × List Char)) (cs : List Char) : Option (α × List Char) :=
  if first then inner cs
  else
    match cs with
    | [] => none
    | c :: rest => if c = separator then inner rest else none

def readOctet (first : Bool) (cs : List Char) : Option (ℕ × List Char) :=
  readSeparator '.' first (readNumber 10 3 255 false) cs

def ofOctets (values : List ℕ) : BitVec 32 := BitVec.ofNat 32 (radixValue 256 values)

def ofSegments (values : List ℕ) : BitVec 128 := BitVec.ofNat 128 (radixValue 65536 values)

def readIpv4 (cs : List Char) : Option (BitVec 32 × List Char) := do
  let (a, cs) ← readOctet true cs
  let (b, cs) ← readOctet false cs
  let (c, cs) ← readOctet false cs
  let (d, cs) ← readOctet false cs
  return (ofOctets [a, b, c, d], cs)

/-- At most `limit` groups, whether a dotted tail ended them, and what is left. -/
def readGroups : ℕ → Bool → List Char → List ℕ × Bool × List Char
  | 0, _, cs => ([], false, cs)
  | limit + 1, first, cs =>
    -- a dotted tail takes two groups
    match if 0 < limit then readSeparator ':' first readIpv4 cs else none with
    | some (a, rest) => ([a.toNat / 65536, a.toNat % 65536], true, rest)
    | none =>
      match readSeparator ':' first (readNumber 16 4 65535 true) cs with
      | none => ([], false, cs)
      | some (group, rest) =>
        let (groups, dotted, rest) := readGroups limit false rest
        (group :: groups, dotted, rest)

def readIpv6 (cs : List Char) : Option (BitVec 128 × List Char) :=
  let (head, dotted, rest) := readGroups 8 true cs
  if head.length = 8 then some (ofSegments head, rest)
  -- a dotted tail is not allowed before the elided run
  else if dotted then none
  else
    match rest with
    | ':' :: ':' :: rest =>
      let (tail, _, rest) := readGroups (7 - head.length) true rest
      let zeroes := List.replicate (8 - head.length - tail.length) 0
      some (ofSegments (head ++ zeroes ++ tail), rest)
    | _ => none

def readIpAddr (cs : List Char) : Option (IpAddr × List Char) :=
  match readIpv4 cs with
  | some (a, rest) => some (.v4 a, rest)
  | none => (readIpv6 cs).map fun (a, rest) => (.v6 a, rest)

def parseIpAddr (cs : List Char) : Option IpAddr :=
  match readIpAddr cs with
  | some (address, []) => some address
  | _ => none

section Separator

variable {α : Type} {separator : Char} {inner : List Char → Option (α × List Char)}
  {cs : List Char}

theorem readSeparator_first : readSeparator separator true inner cs = inner cs := rfl

theorem readSeparator_separator :
    readSeparator separator false inner (separator :: cs) = inner cs := if_pos rfl

end Separator

end Reader

section Numbers

/-- The text does not go on with a digit. -/
def Halts (radix : ℕ) (cs : List Char) : Prop := ∀ c ∈ cs.head?, toDigit radix c = none

theorem isSome_toDigit_of_mem {radix n : ℕ} (hlow : 1 < radix) (hhigh : radix ≤ 16) {c : Char}
    (h : c ∈ Nat.toDigits radix n) : (toDigit radix c).isSome = true := by
  obtain ⟨d, hd, rfl⟩ := exists_digit_of_mem hlow h
  rw [toDigit_digitChar hd hhigh]
  rfl

theorem takeWhile_toDigits {radix : ℕ} (hlow : 1 < radix) (hhigh : radix ≤ 16) (n : ℕ)
    {rest : List Char} (hrest : Halts radix rest) :
    (Nat.toDigits radix n ++ rest).takeWhile (fun c => (toDigit radix c).isSome) =
      Nat.toDigits radix n := by
  rw [List.takeWhile_append_of_pos fun c hc => isSome_toDigit_of_mem hlow hhigh hc]
  cases rest with
  | nil => simp
  | cons c rest =>
      have hc : toDigit radix c = none := hrest c (by simp)
      simp [hc]

theorem radixValue_filterMap_toDigits {radix : ℕ} (hlow : 1 < radix) (hhigh : radix ≤ 16) (n : ℕ) :
    radixValue radix ((Nat.toDigits radix n).filterMap (toDigit radix)) = n := by
  induction n using Nat.strongRecOn with
  | ind n ih =>
      rw [Nat.toDigits_eq_if hlow]
      split_ifs with hn
      · simp [toDigit_digitChar hn hhigh, radixValue]
      · have hlast := toDigit_digitChar (Nat.mod_lt n (by omega)) hhigh
        rw [List.filterMap_append, List.filterMap_cons_some hlast, List.filterMap_nil,
          radixValue_concat, ih (n / radix) (Nat.div_lt_self (by omega) hlow), Nat.div_add_mod]

/-- Only zero is printed with a leading zero. -/
theorem head_toDigits {radix : ℕ} (hlow : 1 < radix) (hhigh : radix ≤ 16) {n : ℕ}
    (h : (Nat.toDigits radix n).head? = some '0') : n = 0 := by
  have hzero : ∀ d < 16, d.digitChar = '0' → d = 0 := by decide
  induction n using Nat.strongRecOn with
  | ind n ih =>
      rw [Nat.toDigits_eq_if hlow] at h
      split_ifs at h with hn
      · exact hzero n (by omega) (Option.some.inj h)
      · have hne : Nat.toDigits radix (n / radix) ≠ [] := Nat.toDigits_ne_nil
        rw [List.head?_append_of_ne_nil _ hne] at h
        have hdiv := ih (n / radix) (Nat.div_lt_self (by omega) hlow) h
        have hpos := Nat.div_pos (Nat.le_of_not_lt hn) (by omega : 0 < radix)
        omega

theorem readNumber_toDigits {radix maxDigits maximum n : ℕ} (hlow : 1 < radix)
    (hhigh : radix ≤ 16) (hdigits : 0 < maxDigits) (hlength : n < radix ^ maxDigits)
    (hmaximum : n ≤ maximum) (allowZeroPrefix : Bool) {rest : List Char}
    (hrest : Halts radix rest) :
    readNumber radix maxDigits maximum allowZeroPrefix (Nat.toDigits radix n ++ rest) =
      some (n, rest) := by
  have hpre : ¬(allowZeroPrefix = false ∧ (Nat.toDigits radix n).head? = some '0' ∧
      1 < (Nat.toDigits radix n).length) := by
    rintro ⟨-, hhead, hlong⟩
    rw [head_toDigits hlow hhigh hhead, Nat.toDigits_of_lt_base (by omega)] at hlong
    exact absurd hlong (by simp)
  rw [readNumber]
  rw [takeWhile_toDigits hlow hhigh n hrest, radixValue_filterMap_toDigits hlow hhigh,
    if_neg, if_neg hpre, List.drop_left]
  rintro (hnil | hlong | hlarge)
  · exact Nat.toDigits_ne_nil hnil
  · exact absurd ((Nat.length_toDigits_le_iff hlow hdigits).mpr hlength) (by omega)
  · omega

theorem readNumber_halts {radix maxDigits maximum : ℕ} {allowZeroPrefix : Bool} {cs : List Char}
    (h : Halts radix cs) : readNumber radix maxDigits maximum allowZeroPrefix cs = none := by
  have hdigits : cs.takeWhile (fun c => (toDigit radix c).isSome) = [] := by
    cases cs with
    | nil => rfl
    | cons c cs =>
        have hc : toDigit radix c = none := h c (by simp)
        simp [hc]
  rw [readNumber]
  rw [hdigits]
  simp

end Numbers

section Dotted

theorem toList_repr_append (n : ℕ) (rest : List Char) :
    n.repr.toList ++ rest = Nat.toDigits 10 n ++ rest := by rw [Nat.toList_repr]

theorem readOctet_repr {n : ℕ} (hn : n < 256) {rest : List Char} (hrest : Halts 10 rest) :
    readOctet true (n.repr.toList ++ rest) = some (n, rest) := by
  rw [toList_repr_append]
  exact readNumber_toDigits (by omega) (by omega) (by omega) (by omega) (by omega) false hrest

theorem readOctet_separated {n : ℕ} (hn : n < 256) {rest : List Char} (hrest : Halts 10 rest) :
    readOctet false ('.' :: (n.repr.toList ++ rest)) = some (n, rest) := readOctet_repr hn hrest

theorem halts_cons {radix : ℕ} {c : Char} (h : toDigit radix c = none) (rest : List Char) :
    Halts radix (c :: rest) := by
  intro d hd
  rw [List.head?_cons, Option.mem_some_iff] at hd
  rwa [← hd]

theorem ofOctets_octets (a : BitVec 32) : ofOctets (octets a) = a := by
  apply BitVec.eq_of_toNat_eq
  have hlt := a.isLt
  simp only [ofOctets, octets, radixValue, List.map_cons, List.map_nil, List.foldl_cons,
    List.foldl_nil, BitVec.toNat_ushiftRight, Nat.shiftRight_eq_div_pow, BitVec.toNat_ofNat]
  omega

theorem toList_displayIpv4 (a : BitVec 32) (rest : List Char) :
    ∃ p q r s, octets a = [p, q, r, s] ∧ p < 256 ∧ q < 256 ∧ r < 256 ∧ s < 256 ∧
      (displayIpv4 a).toList ++ rest = p.repr.toList ++ '.' :: (q.repr.toList ++
        '.' :: (r.repr.toList ++ '.' :: (s.repr.toList ++ rest))) := by
  refine ⟨_, _, _, _, rfl, Nat.mod_lt _ (by omega), Nat.mod_lt _ (by omega),
    Nat.mod_lt _ (by omega), Nat.mod_lt _ (by omega), ?_⟩
  simp [displayIpv4, octets, joinWith]

theorem readIpv4_displayIpv4 (a : BitVec 32) {rest : List Char} (hrest : Halts 10 rest) :
    readIpv4 ((displayIpv4 a).toList ++ rest) = some (a, rest) := by
  obtain ⟨p, q, r, s, hoctets, hp, hq, hr, hs, htext⟩ := toList_displayIpv4 a rest
  have hdot (rest : List Char) : Halts 10 ('.' :: rest) := halts_cons (by decide) rest
  rw [htext, readIpv4, readOctet_repr hp (hdot _)]
  simp only [Option.bind_eq_bind, Option.bind_some, readOctet_separated hq (hdot _),
    readOctet_separated hr (hdot _), readOctet_separated hs hrest]
  rw [← hoctets, ofOctets_octets]
  rfl

theorem suffix_of_readNumber {radix maxDigits maximum : ℕ} {allowZeroPrefix : Bool}
    {cs rest : List Char} {n : ℕ}
    (h : readNumber radix maxDigits maximum allowZeroPrefix cs = some (n, rest)) :
    rest <:+ cs := by
  rw [readNumber] at h
  split_ifs at h
  rw [← (Prod.mk.inj (Option.some.inj h)).2]
  exact List.drop_suffix _ cs

theorem readIpv4_halts {cs : List Char} (h : Halts 10 cs) : readIpv4 cs = none := by
  have hfirst : readOctet true cs = none := readNumber_halts h
  simp [readIpv4, hfirst]

/-- The dotted form needs a dot. -/
theorem readIpv4_eq_none {cs : List Char} (h : '.' ∉ cs) : readIpv4 cs = none := by
  rw [readIpv4, Option.bind_eq_bind]
  cases hfirst : readOctet true cs with
  | none => rfl
  | some read =>
      obtain ⟨n, rest⟩ := read
      have hsuffix : rest <:+ cs := suffix_of_readNumber hfirst
      have hsecond : readOctet false rest = none := by
        cases rest with
        | nil => rfl
        | cons c rest =>
            have hc : c ≠ '.' := by
              rintro rfl
              exact h (hsuffix.subset List.mem_cons_self)
            simp [readOctet, readSeparator, hc]
      simp [hsecond]

end Dotted

section Groups

theorem ofSegments_segments (a : BitVec 128) : ofSegments (segments a) = a := by
  apply BitVec.eq_of_toNat_eq
  have hlt := a.isLt
  simp only [ofSegments, segments, radixValue, List.map_cons, List.map_nil, List.foldl_cons,
    List.foldl_nil, BitVec.toNat_ushiftRight, Nat.shiftRight_eq_div_pow, BitVec.toNat_ofNat]
  omega

/-- The groups after the first, each behind its colon. -/
def groupsText (values : List ℕ) : List Char :=
  values.flatMap fun value => ':' :: Nat.toDigits 16 value

theorem toList_displaySegments (value : ℕ) (values : List ℕ) :
    (displaySegments (value :: values)).toList = Nat.toDigits 16 value ++ groupsText values := by
  induction values generalizing value with
  | nil => simp [displaySegments, joinWith, hex, groupsText]
  | cons next values ih =>
      have htail : displaySegments (value :: next :: values) =
          hex value ++ ":" ++ displaySegments (next :: values) := rfl
      rw [htail, String.toList_append, String.toList_append, ih, hex, String.toList_ofList]
      simp [groupsText]

/-- Reading groups stops at the end of the text and at an elided run. -/
def Stops (cs : List Char) : Prop := cs = [] ∨ ∃ rest, cs = ':' :: ':' :: rest

theorem halts_nil (radix : ℕ) : Halts radix [] := fun _ hc => nomatch hc

theorem colon_halts (tail : List Char) : Halts 10 (':' :: tail) ∧ Halts 16 (':' :: tail) :=
  ⟨halts_cons (by decide) tail, halts_cons (by decide) tail⟩

theorem Stops.halts {rest : List Char} (h : Stops rest) : Halts 10 rest ∧ Halts 16 rest := by
  rcases h with rfl | ⟨tail, rfl⟩
  · exact ⟨halts_nil 10, halts_nil 16⟩
  · exact colon_halts _

theorem halts_groupsText (values : List ℕ) {rest : List Char} (h : Stops rest) :
    Halts 16 (groupsText values ++ rest) := by
  cases values with
  | nil => exact h.halts.2
  | cons value values => exact halts_cons (by decide) _

theorem dot_notMem_toDigits (n : ℕ) : '.' ∉ Nat.toDigits 16 n := by
  intro h
  obtain ⟨d, hd, hdot⟩ := exists_digit_of_mem (by omega) h
  exact (digitChar_plain d hd).2 hdot.symm

theorem dot_notMem_groupsText (values : List ℕ) : '.' ∉ groupsText values := by
  intro h
  obtain ⟨value, -, h⟩ := List.mem_flatMap.mp h
  rcases List.mem_cons.mp h with h | h
  · exact absurd h (by decide)
  · exact dot_notMem_toDigits value h

theorem readGroup_toDigits {value : ℕ} (hvalue : value < 65536) {rest : List Char}
    (hrest : Halts 16 rest) :
    readNumber 16 4 65535 true (Nat.toDigits 16 value ++ rest) = some (value, rest) :=
  readNumber_toDigits (by omega) (by omega) (by omega) (by omega) (by omega) true hrest

/-- One undotted group is read and the others follow. -/
theorem readGroups_succ {limit : ℕ} {first : Bool} {cs rest : List Char} {group : ℕ}
    (hdotted : 0 < limit → readSeparator ':' first readIpv4 cs = none)
    (hgroup : readSeparator ':' first (readNumber 16 4 65535 true) cs = some (group, rest)) :
    readGroups (limit + 1) first cs =
      (group :: (readGroups limit false rest).1, (readGroups limit false rest).2) := by
  have hnone : (if 0 < limit then readSeparator ':' first readIpv4 cs else none) = none := by
    split_ifs with hlimit
    · exact hdotted hlimit
    · rfl
  rw [readGroups, hnone]
  simp only [hgroup]

theorem readGroups_none {limit : ℕ} {first : Bool} {cs : List Char}
    (hdotted : readSeparator ':' first readIpv4 cs = none)
    (hgroup : readSeparator ':' first (readNumber 16 4 65535 true) cs = none) :
    readGroups limit first cs = ([], false, cs) := by
  cases limit with
  | zero => rfl
  | succ limit =>
      rw [readGroups, hdotted, ite_self]
      simp only [hgroup]

theorem readGroups_stops (limit : ℕ) (first : Bool) {rest : List Char} (hrest : Stops rest) :
    readGroups limit first rest = ([], false, rest) := by
  have hnone {cs : List Char} (h : Halts 10 cs ∧ Halts 16 cs) :
      readIpv4 cs = none ∧ readNumber 16 4 65535 true cs = none :=
    ⟨readIpv4_halts h.1, readNumber_halts h.2⟩
  cases first with
  | true =>
      have hread := hnone hrest.halts
      exact readGroups_none hread.1 hread.2
  | false =>
      rcases hrest with rfl | ⟨tail, rfl⟩
      · exact readGroups_none rfl rfl
      · have hread := hnone (colon_halts tail)
        exact readGroups_none hread.1 hread.2

theorem readGroups_groupsText {values : List ℕ} (hvalues : ∀ value ∈ values, value < 65536)
    {limit : ℕ} (hlimit : values.length ≤ limit) {rest : List Char} (hrest : Stops rest)
    (hdot : '.' ∉ rest) :
    readGroups limit false (groupsText values ++ rest) = (values, false, rest) := by
  induction values generalizing limit with
  | nil => exact readGroups_stops limit false hrest
  | cons value values ih =>
      obtain ⟨limit, rfl⟩ : ∃ n, limit = n + 1 :=
        ⟨limit - 1, by rw [List.length_cons] at hlimit; omega⟩
      obtain ⟨hvalue, hvalues⟩ := List.forall_mem_cons.mp hvalues
      have hshape : groupsText (value :: values) ++ rest =
          ':' :: (Nat.toDigits 16 value ++ (groupsText values ++ rest)) := by simp [groupsText]
      have hnodot : '.' ∉ Nat.toDigits 16 value ++ (groupsText values ++ rest) := by
        simp only [List.mem_append, not_or]
        exact ⟨dot_notMem_toDigits value, dot_notMem_groupsText values, hdot⟩
      have hgroup := readGroup_toDigits hvalue (halts_groupsText values hrest)
      have htail := ih hvalues (Nat.le_of_succ_le_succ hlimit)
      rw [hshape, readGroups_succ (fun _ => readSeparator_separator.trans
        (readIpv4_eq_none hnodot)) (readSeparator_separator.trans hgroup), htail]

theorem readGroups_displaySegments {values : List ℕ} (hvalues : ∀ value ∈ values, value < 65536)
    {limit : ℕ} (hlimit : values.length ≤ limit) {rest : List Char} (hrest : Stops rest)
    (hdot : '.' ∉ rest) :
    readGroups limit true ((displaySegments values).toList ++ rest) = (values, false, rest) := by
  cases values with
  | nil => exact readGroups_stops limit true hrest
  | cons value values =>
      obtain ⟨limit, rfl⟩ : ∃ n, limit = n + 1 :=
        ⟨limit - 1, by rw [List.length_cons] at hlimit; omega⟩
      obtain ⟨hvalue, hvalues⟩ := List.forall_mem_cons.mp hvalues
      have hnodot : '.' ∉ Nat.toDigits 16 value ++ (groupsText values ++ rest) := by
        simp only [List.mem_append, not_or]
        exact ⟨dot_notMem_toDigits value, dot_notMem_groupsText values, hdot⟩
      have hgroup := readGroup_toDigits hvalue (halts_groupsText values hrest)
      have htail := readGroups_groupsText hvalues (Nat.le_of_succ_le_succ hlimit) hrest hdot
      rw [toList_displaySegments, List.append_assoc,
        readGroups_succ (fun _ => readSeparator_first.trans (readIpv4_eq_none hnodot))
          (readSeparator_first.trans hgroup), htail]

end Groups

section Addresses

theorem segments_lt {a : BitVec 128} : ∀ value ∈ segments a, value < 65536 := by
  intro value hvalue
  obtain ⟨shift, -, rfl⟩ := List.mem_map.mp hvalue
  exact Nat.mod_lt _ (by omega)

theorem readIpv6_displaySegments {values : List ℕ} (hvalues : ∀ value ∈ values, value < 65536)
    (hlength : values.length = 8) :
    readIpv6 (displaySegments values).toList = some (ofSegments values, []) := by
  have hread := readGroups_displaySegments hvalues hlength.le (.inl rfl) (by simp)
  rw [List.append_nil] at hread
  rw [readIpv6, hread]
  simp [hlength]

theorem readIpv6_of_head {cs rest left : List Char} {head tail : List ℕ} {dotted : Bool}
    (hhead : readGroups 8 true cs = (head, false, ':' :: ':' :: rest)) (hlength : head.length ≠ 8)
    (htail : readGroups (7 - head.length) true rest = (tail, dotted, left)) :
    readIpv6 cs = some (ofSegments
      (head ++ List.replicate (8 - head.length - tail.length) 0 ++ tail), left) := by
  rw [readIpv6, hhead]
  dsimp only
  rw [if_neg hlength, if_neg (by simp)]
  simp only [htail]

theorem readIpv6_elided {p q : List ℕ} (hp : ∀ value ∈ p, value < 65536)
    (hq : ∀ value ∈ q, value < 65536) (hlength : p.length + q.length < 7) :
    readIpv6 (displaySegments p ++ "::" ++ displaySegments q).toList =
      some (ofSegments (p ++ List.replicate (8 - p.length - q.length) 0 ++ q), []) := by
  have hshape : (displaySegments p ++ "::" ++ displaySegments q).toList =
      (displaySegments p).toList ++ ':' :: ':' :: (displaySegments q).toList := by simp
  have hdot : '.' ∉ ':' :: ':' :: (displaySegments q).toList := by
    simp [dot_notMem_displaySegments q]
  have hhead := readGroups_displaySegments hp (by omega : p.length ≤ 8) (.inr ⟨_, rfl⟩) hdot
  have htail := readGroups_displaySegments hq (by omega : q.length ≤ 7 - p.length) (.inl rfl)
    List.not_mem_nil
  rw [List.append_nil] at htail
  rw [hshape, readIpv6_of_head hhead (by omega) htail]

theorem readGroups_mapped (a : BitVec 32) :
    readGroups 7 true ("ffff:" ++ displayIpv4 a).toList =
      ([0xffff, a.toNat / 65536, a.toNat % 65536], true, []) := by
  have hshape : ("ffff:" ++ displayIpv4 a).toList =
      Nat.toDigits 16 0xffff ++ ':' :: (displayIpv4 a).toList := by
    rw [String.toList_append, show Nat.toDigits 16 0xffff = "ffff".toList by decide +kernel]
    simp
  have hfirst : readIpv4 (Nat.toDigits 16 0xffff ++ ':' :: (displayIpv4 a).toList) = none := by
    rw [show Nat.toDigits 16 0xffff = "ffff".toList by decide +kernel]
    exact readIpv4_halts (halts_cons (by decide) _)
  have hgroup := readGroup_toDigits (by omega : 0xffff < 65536)
    (colon_halts (displayIpv4 a).toList).2
  have hdotted := readIpv4_displayIpv4 a (halts_nil 10)
  rw [List.append_nil] at hdotted
  have htail : readGroups 6 false (':' :: (displayIpv4 a).toList) =
      ([a.toNat / 65536, a.toNat % 65536], true, []) := by
    rw [readGroups, if_pos (by omega), readSeparator_separator, hdotted]
  rw [hshape, readGroups_succ (fun _ => readSeparator_first.trans hfirst)
    (readSeparator_first.trans hgroup), htail]

theorem readIpv6_mapped (a : BitVec 32) :
    readIpv6 ("::ffff:" ++ displayIpv4 a).toList =
      some (ofSegments [0, 0, 0, 0, 0, 0xffff, a.toNat / 65536, a.toNat % 65536], []) := by
  have hshape : ("::ffff:" ++ displayIpv4 a).toList =
      ':' :: ':' :: ("ffff:" ++ displayIpv4 a).toList := by simp
  have hhead := readGroups_stops 8 true (.inr ⟨("ffff:" ++ displayIpv4 a).toList, rfl⟩)
  rw [hshape, readIpv6_of_head hhead (by simp) (readGroups_mapped a)]
  rfl

/-- The two groups of a dotted tail are the last two segments of a mapped address. -/
theorem ofSegments_mapped {a : BitVec 128} {x y : ℕ}
    (h : segments a = [0, 0, 0, 0, 0, 0xffff, x, y]) :
    ofSegments [0, 0, 0, 0, 0, 0xffff, (a.truncate 32).toNat / 65536,
      (a.truncate 32).toNat % 65536] = a := by
  obtain ⟨hx, hy⟩ := mapped_segments h
  have htail : (a.truncate 32).toNat / 65536 = x ∧ (a.truncate 32).toNat % 65536 = y := by
    rw [BitVec.truncate_eq_setWidth, BitVec.toNat_setWidth]
    omega
  rw [htail.1, htail.2, ← h, ofSegments_segments]

theorem readIpv6_spelled {values : List ℕ} (hvalues : ∀ value ∈ values, value < 65536)
    (hlength : values.length = 8) :
    readIpv6 (spelled values).toList = some (ofSegments values, []) := by
  have hzero := longestZeroRun_zero values
  have hbounded := hzero.bounded
  unfold spelled
  dsimp only
  split_ifs with hlong
  · have htake : (values.take (longestZeroRun values).start).length =
        (longestZeroRun values).start := by rw [List.length_take]; omega
    have hdrop := List.length_drop
      (i := (longestZeroRun values).start + (longestZeroRun values).length) (l := values)
    have hcount : 8 - (values.take (longestZeroRun values).start).length -
        (values.drop ((longestZeroRun values).start + (longestZeroRun values).length)).length =
          (longestZeroRun values).length := by omega
    rw [readIpv6_elided (fun value h => hvalues value (List.mem_of_mem_take h))
      (fun value h => hvalues value (List.mem_of_mem_drop h)) (by omega), hcount,
      List.append_assoc, ← eq_take_replicate_drop hzero]
  · exact readIpv6_displaySegments hvalues hlength

theorem readIpv6_displayIpv6 (a : BitVec 128) :
    readIpv6 (displayIpv6 a).toList = some (a, []) := by
  rcases displayIpv6_cases a with ⟨x, y, hmapped, hdisplay⟩ | hdisplay
  · rw [hdisplay, readIpv6_mapped, ofSegments_mapped hmapped]
  · rw [hdisplay, readIpv6_spelled segments_lt (length_segments a), ofSegments_segments]

/-- A dotted octet is not what an IPv6 address starts with. -/
theorem readIpv4_displayIpv6 (a : BitVec 128) : readIpv4 (displayIpv6 a).toList = none := by
  rcases displayIpv6_cases a with ⟨x, y, -, hdisplay⟩ | hdisplay
  · rw [hdisplay]
    have hshape : ("::ffff:" ++ displayIpv4 (a.truncate 32)).toList =
        ':' :: (":ffff:" ++ displayIpv4 (a.truncate 32)).toList := by simp
    rw [hshape]
    exact readIpv4_halts (colon_halts _).1
  · rw [hdisplay]
    exact readIpv4_eq_none (dot_notMem_spelled _)

/-- Every address is read back from its canonical spelling. -/
theorem parseIpAddr_display (a : IpAddr) : parseIpAddr a.display.toList = some a := by
  cases a with
  | v4 bits =>
      have hread := readIpv4_displayIpv4 bits (halts_nil 10)
      rw [List.append_nil] at hread
      simp [parseIpAddr, readIpAddr, IpAddr.display, hread]
  | v6 bits =>
      simp [parseIpAddr, readIpAddr, IpAddr.display, readIpv4_displayIpv6, readIpv6_displayIpv6]

example : parseIpAddr "2001:DB8::0.0.0.80".toList =
    some (.v6 0x20010db8000000000000000000000050#128) := by decide +kernel

example : parseIpAddr "10.0.0.01".toList = none := by decide +kernel

end Addresses

section Lengths

theorem length_repr_le {n : ℕ} (h : n < 256) : n.repr.toList.length ≤ 3 := by
  rw [Nat.toList_repr]
  exact (Nat.length_toDigits_le_iff (by omega) (by omega)).mpr (by omega)

theorem length_displayIpv4 (a : BitVec 32) : (displayIpv4 a).toList.length ≤ 15 := by
  obtain ⟨p, q, r, s, -, hp, hq, hr, hs, htext⟩ := toList_displayIpv4 a []
  have hlength := congrArg List.length htext
  simp only [List.append_nil, List.length_append, List.length_cons] at hlength
  have hp := length_repr_le hp
  have hq := length_repr_le hq
  have hr := length_repr_le hr
  have hs := length_repr_le hs
  omega

theorem length_groupsText {values : List ℕ} (h : ∀ value ∈ values, value < 65536) :
    (groupsText values).length ≤ 5 * values.length := by
  induction values with
  | nil => exact Nat.zero_le _
  | cons value values ih =>
      obtain ⟨hvalue, hvalues⟩ := List.forall_mem_cons.mp h
      have hdigits : (Nat.toDigits 16 value).length ≤ 4 :=
        (Nat.length_toDigits_le_iff (by omega) (by omega)).mpr (by omega)
      have htail := ih hvalues
      simp only [groupsText, List.flatMap_cons, List.length_append, List.length_cons] at htail ⊢
      omega

theorem length_displaySegments {values : List ℕ} (h : ∀ value ∈ values, value < 65536) :
    (displaySegments values).toList.length ≤ 5 * values.length - 1 := by
  cases values with
  | nil => exact Nat.zero_le _
  | cons value values =>
      obtain ⟨hvalue, hvalues⟩ := List.forall_mem_cons.mp h
      have hdigits : (Nat.toDigits 16 value).length ≤ 4 :=
        (Nat.length_toDigits_le_iff (by omega) (by omega)).mpr (by omega)
      have htail := length_groupsText hvalues
      rw [toList_displaySegments, List.length_append, List.length_cons]
      omega

theorem length_spelled {values : List ℕ} (h : ∀ value ∈ values, value < 65536)
    (hlength : values.length = 8) : (spelled values).toList.length ≤ 39 := by
  have hbounded := (longestZeroRun_zero values).bounded
  unfold spelled
  dsimp only
  split_ifs with hlong
  · have hfront := length_displaySegments
      fun value hvalue => h value (List.mem_of_mem_take (i := (longestZeroRun values).start) hvalue)
    have hback := length_displaySegments fun value hvalue => h value (List.mem_of_mem_drop
      (i := (longestZeroRun values).start + (longestZeroRun values).length) hvalue)
    rw [List.length_take] at hfront
    rw [List.length_drop] at hback
    simp only [String.toList_append, List.length_append]
    have hcolons : "::".toList.length = 2 := by decide
    omega
  · have hall := length_displaySegments h
    omega

theorem length_display (a : IpAddr) : a.display.toList.length ≤ 39 := by
  cases a with
  | v4 bits => exact (length_displayIpv4 bits).trans (by omega)
  | v6 bits =>
      rw [IpAddr.display]
      rcases displayIpv6_cases bits with ⟨x, y, -, hdisplay⟩ | hdisplay
      · have hdotted := length_displayIpv4 (bits.truncate 32)
        have hfront : "::ffff:".toList.length = 7 := by decide
        rw [hdisplay, String.toList_append, List.length_append]
        omega
      · rw [hdisplay]
        exact length_spelled segments_lt (length_segments bits)

theorem utf8Size_of_isAddressChar {c : Char} (h : isAddressChar c = true) : c.utf8Size = 1 := by
  simp only [isAddressChar, Bool.or_eq_true, beq_iff_eq] at h
  rcases h with (h | rfl) | rfl
  · refine utf8Size_of_isHexDigit ?_
    rw [isHexDigit, Bool.or_eq_true, Bool.or_eq_true]
    exact .inl (Bool.or_eq_true _ _ ▸ h)
  · decide
  · decide

theorem byteLength_of_isAddressChar {cs : List Char} (h : ∀ c ∈ cs, isAddressChar c = true) :
    byteLength cs = cs.length := by
  induction cs with
  | nil => rfl
  | cons c cs ih =>
      obtain ⟨hc, hcs⟩ := List.forall_mem_cons.mp h
      rw [byteLength_cons, utf8Size_of_isAddressChar hc, ih hcs, List.length_cons, add_comm]

end Lengths

end Net
