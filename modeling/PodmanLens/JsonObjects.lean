import Mathlib.Data.List.Nodup
import PodmanLens.Json

/-!
# Objects by their members, and string arrays by their text

An object is determined by its lookups because its keys stay in order. Objects assembled from the
same distinct keys are equal exactly when the contributed members are, and the order of the
contributions does not matter. The compact text of an array of strings determines the strings.
-/

namespace Json
open Std Text

section Order

def Sorted (members : Members) : Prop := members.Pairwise fun a b => compare a.1 b.1 = .lt

theorem mem_of_mem_insert {members : Members} {key : String} {value : Value}
    {pair : String × Value} (h : pair ∈ insert members key value) :
    pair = (key, value) ∨ pair ∈ members := by
  induction members with
  | nil => exact .inl (List.mem_singleton.mp h)
  | cons member rest ih =>
      obtain ⟨other, found⟩ := member
      rw [insert] at h
      cases hcmp : compare key other with
      | lt =>
          rw [hcmp] at h
          exact List.mem_cons.mp h
      | eq =>
          rw [hcmp] at h
          exact (List.mem_cons.mp h).imp_right (List.mem_cons_of_mem _)
      | gt =>
          rw [hcmp] at h
          rcases List.mem_cons.mp h with rfl | h
          · exact .inr List.mem_cons_self
          · exact (ih h).imp_right (List.mem_cons_of_mem _)

theorem Sorted.insert {members : Members} (h : Sorted members) (key : String) (value : Value) :
    Sorted (insert members key value) := by
  induction members with
  | nil => exact List.pairwise_singleton _ _
  | cons member rest ih =>
      obtain ⟨other, found⟩ := member
      have hpairs := List.pairwise_cons.mp h
      rw [Json.insert]
      cases hcmp : compare key other with
      | lt =>
          refine List.pairwise_cons.mpr ⟨fun pair hpair => ?_, h⟩
          rcases List.mem_cons.mp hpair with rfl | hpair
          · exact hcmp
          · exact TransCmp.lt_trans hcmp (hpairs.1 pair hpair)
      | eq =>
          have hkey : key = other := Std.compare_eq_iff_eq.mp hcmp
          subst hkey
          exact List.pairwise_cons.mpr hpairs
      | gt =>
          refine List.pairwise_cons.mpr ⟨fun pair hpair => ?_, ih hpairs.2⟩
          rcases mem_of_mem_insert hpair with rfl | hpair
          · exact OrientedCmp.lt_of_gt hcmp
          · exact hpairs.1 pair hpair

theorem Sorted.insertSome {members : Members} (h : Sorted members) (key : String)
    (value : Option Value) : Sorted (insertSome members key value) := by
  cases value with
  | none => exact h
  | some value => exact h.insert key value

theorem Sorted.lookup_eq_some {members : Members} (h : Sorted members) {key : String}
    {value : Value} : lookup members key = some value ↔ (key, value) ∈ members := by
  induction members with
  | nil => simp [lookup]
  | cons member rest ih =>
      obtain ⟨other, found⟩ := member
      have hpairs := List.pairwise_cons.mp h
      rw [lookup, List.mem_cons]
      by_cases hkey : other = key
      · subst hkey
        have hout : (other, value) ∉ rest := fun hmem => by
          have hlt := hpairs.1 _ hmem
          rw [Std.compare_self] at hlt
          cases hlt
        simp [hout, eq_comm]
      · have hne : (key, value) ≠ (other, found) := fun heq => hkey (Prod.mk.inj heq).1.symm
        rw [if_neg hkey, ih hpairs.2, or_iff_right hne]

theorem Sorted.nodup {members : Members} (h : Sorted members) : members.Nodup :=
  h.imp fun hlt heq => by
    rw [heq, Std.compare_self] at hlt
    cases hlt

theorem Sorted.ext {first second : Members} (hfirst : Sorted first) (hsecond : Sorted second)
    (h : ∀ key, lookup first key = lookup second key) : first = second := by
  have hperm : first.Perm second := by
    rw [List.perm_ext_iff_of_nodup hfirst.nodup hsecond.nodup]
    rintro ⟨key, value⟩
    rw [← hfirst.lookup_eq_some, ← hsecond.lookup_eq_some, h]
  refine hperm.eq_of_pairwise (fun a b _ _ hab hba => ?_) hfirst hsecond
  have hcontra := TransCmp.lt_trans hab hba
  rw [Std.compare_self] at hcontra
  cases hcontra

end Order

section Assemble

/-- The members with those of the contributions that are present. -/
def extend (members : Members) (pairs : List (String × Option Value)) : Members :=
  pairs.foldl (fun members pair => insertSome members pair.1 pair.2) members

def assemble (pairs : List (String × Option Value)) : Members := extend [] pairs

@[simp] theorem extend_nil (members : Members) : extend members [] = members := rfl

@[simp] theorem extend_cons (members : Members) (pair : String × Option Value)
    (rest : List (String × Option Value)) :
    extend members (pair :: rest) = extend (insertSome members pair.1 pair.2) rest := rfl

theorem extend_append (members : Members) (front back : List (String × Option Value)) :
    extend members (front ++ back) = extend (extend members front) back := List.foldl_append

theorem isEmpty_insert (members : Members) (key : String) (value : Value) :
    (insert members key value).isEmpty = false := by
  cases members with
  | nil => rfl
  | cons member rest =>
      rw [insert]
      cases compare key member.1 <;> rfl

theorem isEmpty_extend (members : Members) (pairs : List (String × Option Value)) :
    (extend members pairs).isEmpty = (members.isEmpty && pairs.all fun pair => pair.2.isNone) := by
  induction pairs generalizing members with
  | nil => simp
  | cons pair rest ih =>
      obtain ⟨key, value⟩ := pair
      rw [extend_cons, ih, List.all_cons]
      cases value with
      | none => simp [insertSome]
      | some value => simp [insertSome, isEmpty_insert]

theorem lookup_extend_of_notMem {pairs : List (String × Option Value)} {key : String}
    (h : key ∉ pairs.map Prod.fst) (members : Members) :
    lookup (extend members pairs) key = lookup members key := by
  induction pairs generalizing members with
  | nil => rfl
  | cons pair rest ih =>
      rw [List.map_cons, List.mem_cons, not_or] at h
      rw [extend_cons, ih h.2, lookup_insertSome, if_neg (Ne.symm h.1)]

theorem lookup_extend_congr (pairs : List (String × Option Value)) {first second : Members}
    {key : String} (h : lookup first key = lookup second key) :
    lookup (extend first pairs) key = lookup (extend second pairs) key := by
  induction pairs generalizing first second with
  | nil => exact h
  | cons pair rest ih =>
      apply ih
      rw [lookup_insertSome, lookup_insertSome, h]

/-- A contribution decides its own key only. -/
theorem lookup_assemble_replace (front back : List (String × Option Value)) {key other : String}
    (h : other ≠ key) (value found : Option Value) :
    lookup (assemble (front ++ (key, value) :: back)) other =
      lookup (assemble (front ++ (key, found) :: back)) other := by
  rw [assemble, assemble, extend_append, extend_append, extend_cons, extend_cons]
  apply lookup_extend_congr
  rw [lookup_insertSome, lookup_insertSome, if_neg h.symm, if_neg h.symm]

theorem lookup_assemble {pairs : List (String × Option Value)}
    (hnodup : (pairs.map Prod.fst).Nodup) {key : String} {value : Option Value}
    (h : (key, value) ∈ pairs) : lookup (assemble pairs) key = value := by
  obtain ⟨front, back, rfl⟩ := List.append_of_mem h
  rw [List.map_append, List.map_cons, List.nodup_append, List.nodup_cons] at hnodup
  obtain ⟨-, ⟨hback, -⟩, hdisjoint⟩ := hnodup
  have hfront : key ∉ front.map Prod.fst := fun hmem =>
    hdisjoint key hmem key List.mem_cons_self rfl
  rw [assemble, extend_append, extend_cons, lookup_extend_of_notMem hback, lookup_insertSome,
    if_pos rfl, lookup_extend_of_notMem hfront]
  exact Option.or_none

/-- Objects over the same distinct keys are equal only when every member is. -/
theorem assemble_inj {first second : List (String × Option Value)}
    (hkeys : first.map Prod.fst = second.map Prod.fst) (hnodup : (first.map Prod.fst).Nodup)
    (h : assemble first = assemble second) : first = second := by
  have hlength : first.length = second.length := by simpa using congrArg List.length hkeys
  apply List.ext_getElem hlength
  intro i hi hj
  have hkey : first[i].1 = second[i].1 := by
    have hget := congrArg (fun keys => keys[i]?) hkeys
    simpa [hi, hj] using hget
  have hvalue : lookup (assemble first) first[i].1 = first[i].2 :=
    lookup_assemble hnodup (List.getElem_mem hi)
  have hother : lookup (assemble second) second[i].1 = second[i].2 :=
    lookup_assemble (hkeys ▸ hnodup) (List.getElem_mem hj)
  rw [h, hkey, hother] at hvalue
  exact Prod.ext hkey hvalue.symm

theorem assemble_inj_iff (keys : List String) (hnodup : keys.Nodup)
    {first second : List (String × Option Value)} (hfirst : first.map Prod.fst = keys)
    (hsecond : second.map Prod.fst = keys) : assemble first = assemble second ↔ first = second := by
  constructor
  · exact assemble_inj (hfirst.trans hsecond.symm) (hfirst.symm ▸ hnodup)
  · rintro rfl
    rfl

theorem Sorted.extend (pairs : List (String × Option Value)) {members : Members}
    (h : Sorted members) : Sorted (extend members pairs) := by
  induction pairs generalizing members with
  | nil => exact h
  | cons pair rest ih => exact ih (h.insertSome pair.1 pair.2)

theorem ofPairs_eq_assemble (pairs : List (String × Value)) :
    ofPairs pairs = assemble (pairs.map fun pair => (pair.1, some pair.2)) := by
  rw [ofPairs, assemble, extend, List.foldl_map]
  rfl

theorem sorted_ofPairs (pairs : List (String × Value)) : Sorted (ofPairs pairs) := by
  rw [ofPairs_eq_assemble]
  exact Sorted.extend _ .nil

theorem lookup_ofPairs {pairs : List (String × Value)} (hnodup : (pairs.map Prod.fst).Nodup)
    {key : String} {value : Value} :
    lookup (ofPairs pairs) key = some value ↔ (key, value) ∈ pairs := by
  have hkeys : (pairs.map fun pair => (pair.1, some pair.2)).map Prod.fst = pairs.map Prod.fst := by
    rw [List.map_map]
    rfl
  rw [ofPairs_eq_assemble]
  constructor
  · intro h
    by_cases hkey : key ∈ pairs.map Prod.fst
    · obtain ⟨⟨_, found⟩, hmem, rfl⟩ := List.mem_map.mp hkey
      rw [lookup_assemble (hkeys.symm ▸ hnodup) (List.mem_map.mpr ⟨_, hmem, rfl⟩),
        Option.some_inj] at h
      exact h ▸ hmem
    · rw [assemble, lookup_extend_of_notMem (by rwa [hkeys])] at h
      cases h
  · intro hmem
    exact lookup_assemble (hkeys.symm ▸ hnodup) (List.mem_map.mpr ⟨_, hmem, rfl⟩)

theorem ofPairs_eq_iff_perm {first second : List (String × Value)}
    (hfirst : (first.map Prod.fst).Nodup) (hsecond : (second.map Prod.fst).Nodup) :
    ofPairs first = ofPairs second ↔ first.Perm second := by
  constructor
  · intro h
    rw [List.perm_ext_iff_of_nodup (List.Nodup.of_map _ hfirst) (List.Nodup.of_map _ hsecond)]
    rintro ⟨key, value⟩
    rw [← lookup_ofPairs hfirst, ← lookup_ofPairs hsecond, h]
  · intro h
    apply (sorted_ofPairs first).ext (sorted_ofPairs second)
    intro key
    apply Option.ext
    intro value
    rw [lookup_ofPairs hfirst, lookup_ofPairs hsecond, h.mem_iff]

/-- Pairs with distinct keys are the members of their object, in key order. -/
theorem ofPairs_perm {pairs : List (String × Value)} (hnodup : (pairs.map Prod.fst).Nodup) :
    (ofPairs pairs).Perm pairs := by
  rw [List.perm_ext_iff_of_nodup (sorted_ofPairs pairs).nodup (List.Nodup.of_map _ hnodup)]
  rintro ⟨key, value⟩
  rw [← (sorted_ofPairs pairs).lookup_eq_some, lookup_ofPairs hnodup]

end Assemble

section Readers

def Value.asString : Value → Option String
  | .string value => some value
  | _ => none

def Value.asNumber : Value → Option ℤ
  | .number value => some value
  | _ => none

def Value.elements : Value → List Value
  | .array values => values
  | _ => []

def Value.members : Value → Members
  | .object members => members
  | _ => []

def Value.strings (value : Value) : List String := value.elements.filterMap Value.asString

@[simp] theorem strings_stringArray (values : List String) :
    (stringArray values).strings = values := by
  rw [Value.strings, stringArray, Value.elements, List.filterMap_map]
  exact List.filterMap_some

end Readers

section Text

/-- The first character of escaped text. -/
def unescape : List Char → Option (Char × List Char)
  | '\\' :: 'u' :: '0' :: '0' :: high :: low :: rest =>
    some (Char.ofNat (16 * (high.toNat - 48) +
      if low.isDigit then low.toNat - 48 else low.toNat - 87), rest)
  | '\\' :: 'b' :: rest => some ('\x08', rest)
  | '\\' :: 't' :: rest => some ('\t', rest)
  | '\\' :: 'n' :: rest => some ('\n', rest)
  | '\\' :: 'f' :: rest => some ('\x0c', rest)
  | '\\' :: 'r' :: rest => some ('\r', rest)
  | '\\' :: c :: rest => some (c, rest)
  | c :: rest => some (c, rest)
  | [] => none

theorem unescape_low {n : ℕ} (h : n < 0x20) (rest : List Char) :
    unescape ('\\' :: 'u' :: '0' :: '0' :: (n / 16).digitChar :: (n % 16).digitChar :: rest) =
      some (Char.ofNat n, rest) := by
  interval_cases n <;> rfl

theorem unescape_plain {c : Char} (h : c ≠ '\\') (rest : List Char) :
    unescape (c :: rest) = some (c, rest) := by
  unfold unescape
  split <;> simp_all

theorem unescape_escapeChar (c : Char) (rest : List Char) :
    unescape (escapeChar c ++ rest) = some (c, rest) := by
  unfold escapeChar
  split
  case h_8 hslash _ _ _ _ _ =>
    split_ifs with hlow
    · have hchar := unescape_low hlow rest
      rwa [Char.ofNat_toNat] at hchar
    · exact unescape_plain hslash rest
  all_goals rfl

theorem head_escapeChar (c : Char) (rest : List Char) :
    (escapeChar c ++ rest).head? ≠ some '"' := by
  unfold escapeChar
  split
  case h_8 hquote _ _ _ _ _ _ =>
    split_ifs with hlow
    · simp
    · simpa using hquote
  all_goals simp

theorem escaped_inj {a b : List Char} {x y : List Char}
    (h : a.flatMap escapeChar ++ '"' :: x = b.flatMap escapeChar ++ '"' :: y) : a = b ∧ x = y := by
  induction a generalizing b with
  | nil =>
      cases b with
      | nil => exact ⟨rfl, (List.cons.inj h).2⟩
      | cons d rest =>
          rw [List.flatMap_cons, List.append_assoc] at h
          exact absurd (congrArg List.head? h).symm (head_escapeChar d _)
  | cons c front ih =>
      rw [List.flatMap_cons, List.append_assoc] at h
      cases b with
      | nil => exact absurd (congrArg List.head? h) (head_escapeChar c _)
      | cons d rest =>
          rw [List.flatMap_cons, List.append_assoc] at h
          have hread := congrArg unescape h
          rw [unescape_escapeChar, unescape_escapeChar, Option.some_inj, Prod.mk.injEq] at hread
          obtain ⟨rfl, hrest⟩ := hread
          obtain ⟨rfl, htail⟩ := ih hrest
          exact ⟨rfl, htail⟩

theorem quoted_inj {a b : String} {x y : List Char}
    (h : (quoted a).toList ++ x = (quoted b).toList ++ y) : a = b ∧ x = y := by
  have hquoted (s : String) (z : List Char) :
      (quoted s).toList ++ z = '"' :: (s.toList.flatMap escapeChar ++ '"' :: z) := by
    simp [quoted]
  rw [hquoted, hquoted, List.cons.injEq] at h
  obtain ⟨hlist, hrest⟩ := escaped_inj h.2
  exact ⟨String.toList_injective hlist, hrest⟩

/-- What follows the first element of an array of strings. -/
def elementsTail : List String → List Char
  | [] => [']']
  | value :: rest => ',' :: ((quoted value).toList ++ elementsTail rest)

theorem elementsTail_injective : Function.Injective elementsTail := by
  intro first
  induction first with
  | nil =>
      intro second h
      cases second with
      | nil => rfl
      | cons other rest => simp [elementsTail] at h
  | cons value front ih =>
      intro second h
      cases second with
      | nil => simp [elementsTail] at h
      | cons other rest =>
          obtain ⟨rfl, htail⟩ := quoted_inj (List.cons.inj h).2
          rw [ih htail]

theorem toList_render_cons (value : String) (rest : List String) :
    (render (stringArray (value :: rest))).toList =
      '[' :: ((quoted value).toList ++ elementsTail rest) := by
  have htail (values : List String) (first : String) :
      (joinWith "," (first :: renderElements (values.map .string))).toList ++ [']'] =
        first.toList ++ elementsTail values := by
    induction values generalizing first with
    | nil => rfl
    | cons next values ih =>
        rw [List.map_cons, renderElements, render]
        change (first ++ "," ++ joinWith "," (quoted next :: _)).toList ++ [']'] = _
        rw [String.toList_append, String.toList_append, List.append_assoc, ih, elementsTail]
        simp
  rw [stringArray, List.map_cons, render, renderElements, render, String.toList_append,
    String.toList_append]
  change '[' :: ((joinWith "," (quoted value :: renderElements (rest.map .string))).toList ++
    [']']) = _
  rw [htail]

theorem render_stringArray_injective :
    Function.Injective fun values => render (stringArray values) := by
  intro first second h
  have hlist := congrArg String.toList h
  dsimp only at hlist
  cases first with
  | nil =>
      cases second with
      | nil => rfl
      | cons other rest =>
          rw [toList_render_cons] at hlist
          simp [quoted, stringArray, render, renderElements, joinWith] at hlist
  | cons value front =>
      rw [toList_render_cons] at hlist
      cases second with
      | nil => simp [quoted, stringArray, render, renderElements, joinWith] at hlist
      | cons other rest =>
          rw [toList_render_cons] at hlist
          obtain ⟨rfl, htail⟩ := quoted_inj (List.cons.inj hlist).2
          rw [elementsTail_injective htail]

end Text

end Json
