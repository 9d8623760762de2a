import PodmanLens.Text

/-!
# Separated fields and assignments

Joining fields with a separator that none of them holds is undone by splitting at it, and an
assignment is split at its first equals sign. A part before a separator keeps the first character
of the whole.
-/

namespace Text

theorem byteLength_of_ascii {cs : List Char} (h : ∀ c ∈ cs, c.toNat < 128) :
    byteLength cs = cs.length := by
  induction cs with
  | nil => rfl
  | cons c cs ih =>
      obtain ⟨hc, hcs⟩ := List.forall_mem_cons.mp h
      have hsize : c.utf8Size = 1 := Char.utf8Size_eq_one_iff.mpr (Nat.le_of_lt_succ hc)
      rw [byteLength_cons, hsize, ih hcs, List.length_cons, add_comm]

theorem isWhitespace_eq_false_of_range {c : Char} (hlow : 0x20 < c.toNat) (hhigh : c.toNat < 0x7f) :
    isWhitespace c = false := by
  simp only [isWhitespace, Bool.or_eq_false_iff, Bool.and_eq_false_iff, decide_eq_false_iff_not,
    beq_eq_false_iff_ne]
  omega

/-- A test of ASCII characters accepts the letters that it accepts among the first 128. -/
theorem mem_iff_of_table {p : Char → Bool} {letters : List Char}
    (htable : ∀ n < 128, p (.ofNat n) = letters.contains (.ofNat n))
    (hp : ∀ c, p c = true → c.toNat < 128)
    (hletters : letters.all (fun c => c.toNat < 128) = true) {c : Char} :
    p c = true ↔ c ∈ letters := by
  by_cases hascii : c.toNat < 128
  · have hsame := htable c.toNat hascii
    rw [Char.ofNat_toNat] at hsame
    rw [hsame, List.contains_iff_mem]
  · refine iff_of_false (fun h => hascii (hp c h)) fun h => hascii ?_
    simpa using List.all_eq_true.mp hletters c h

theorem eq_of_splitOnce {c : Char} {cs before after : List Char}
    (h : splitOnce c cs = some (before, after)) : cs = before ++ c :: after := by
  unfold splitOnce at h
  cases hrest : cs.dropWhile (· != c) with
  | nil =>
      rw [hrest] at h
      cases h
  | cons d rest =>
      rw [hrest] at h
      cases h
      have hd : d = c := by
        have hhead := List.head_dropWhile_not (· != c) (l := cs) (by simp [hrest])
        simpa [hrest] using hhead
      have hsplit := List.takeWhile_append_dropWhile (p := (· != c)) (l := cs)
      rw [hrest, hd] at hsplit
      exact hsplit.symm

theorem notMem_of_splitOnce {c : Char} {cs before after : List Char}
    (h : splitOnce c cs = some (before, after)) : c ∉ before := by
  unfold splitOnce at h
  split at h
  · cases h
  · next hrest =>
      cases h
      intro hmem
      simpa using List.mem_takeWhile_imp hmem

theorem splitOnce_eq_some {c : Char} {cs before after : List Char} :
    splitOnce c cs = some (before, after) ↔ c ∉ before ∧ cs = before ++ c :: after := by
  constructor
  · exact fun h => ⟨notMem_of_splitOnce h, eq_of_splitOnce h⟩
  · rintro ⟨hbefore, rfl⟩
    exact splitOnce_append hbefore after

theorem splitOnce_eq_none_iff {c : Char} {cs : List Char} : splitOnce c cs = none ↔ c ∉ cs := by
  refine ⟨fun h hmem => ?_, splitOnce_eq_none⟩
  obtain ⟨before, after, rfl, hbefore⟩ := List.eq_append_cons_of_mem hmem
  rw [splitOnce_append hbefore] at h
  cases h

theorem rsplitOnce_eq_some {c : Char} {cs before after : List Char} :
    rsplitOnce c cs = some (before, after) ↔ c ∉ after ∧ cs = before ++ c :: after := by
  rw [rsplitOnce, Option.map_eq_some_iff]
  constructor
  · rintro ⟨⟨front, back⟩, hparts, h⟩
    cases h
    obtain ⟨hfront, hreverse⟩ := splitOnce_eq_some.mp hparts
    refine ⟨by simpa using hfront, ?_⟩
    simpa using congrArg List.reverse hreverse
  · rintro ⟨hafter, rfl⟩
    refine ⟨(after.reverse, before.reverse), splitOnce_eq_some.mpr ⟨by simpa using hafter, ?_⟩, ?_⟩
    · simp
    · simp

theorem eq_of_rsplitOnce {c : Char} {cs before after : List Char}
    (h : rsplitOnce c cs = some (before, after)) : cs = before ++ c :: after :=
  (rsplitOnce_eq_some.mp h).2

theorem rsplitOnce_eq_none_iff {c : Char} {cs : List Char} : rsplitOnce c cs = none ↔ c ∉ cs := by
  rw [rsplitOnce, Option.map_eq_none_iff, splitOnce_eq_none_iff, List.mem_reverse]

/-- Text after a separator that does not occur in it is determined by the whole. -/
theorem append_cons_inj_last {c : Char} {a b x y : List Char} (hx : c ∉ x) (hy : c ∉ y)
    (h : a ++ c :: x = b ++ c :: y) : a = b ∧ x = y := by
  have hreverse := congrArg List.reverse h
  simp only [List.reverse_append, List.reverse_cons, List.append_assoc, List.singleton_append]
    at hreverse
  obtain ⟨hlast, hfirst⟩ := append_cons_inj (by simpa using hx) (by simpa using hy) hreverse
  exact ⟨List.reverse_injective hfirst, List.reverse_injective hlast⟩

theorem head_of_append_cons {c d : Char} {before after : List Char}
    (h : (before ++ c :: after).head? = some d) (hne : d ≠ c) : before.head? = some d := by
  cases before with
  | nil => exact absurd (Option.some.inj h).symm hne
  | cons e rest => exact h

theorem head_splitOn {c d : Char} {cs : List Char} (h : cs.head? = some d) (hne : d ≠ c) :
    ∃ part rest, cs.splitOn c = part :: rest ∧ part.head? = some d := by
  cases cs with
  | nil => cases h
  | cons e cs =>
      cases h
      rw [List.splitOn_cons_eq_if_modifyHead, if_neg (by simpa using hne)]
      cases hparts : cs.splitOn c with
      | nil => exact absurd hparts (List.splitOn_ne_nil _ _)
      | cons part rest => exact ⟨_ :: part, rest, rfl, rfl⟩

/-- The parts of a text between the separators. -/
def fields (separator : Char) (text : String) : List String :=
  (text.toList.splitOn separator).map String.ofList

theorem toList_joinWith (separator : Char) (parts : List String) :
    (joinWith (String.singleton separator) parts).toList =
      [separator].intercalate (parts.map String.toList) := by
  induction parts with
  | nil => rfl
  | cons part rest ih =>
      cases rest with
      | nil => simp [joinWith]
      | cons next rest =>
          change (part ++ String.singleton separator ++ joinWith _ (next :: rest)).toList = _
          rw [String.toList_append, String.toList_append, ih]
          simp

theorem mem_joinWith {c : Char} {separator : String} {parts : List String}
    (h : c ∈ (joinWith separator parts).toList) :
    c ∈ separator.toList ∨ ∃ part ∈ parts, c ∈ part.toList := by
  induction parts with
  | nil => cases h
  | cons part rest ih =>
      cases rest with
      | nil => exact .inr ⟨part, List.mem_cons_self, h⟩
      | cons next rest =>
          change c ∈ (part ++ separator ++ joinWith separator (next :: rest)).toList at h
          rw [String.toList_append, String.toList_append, List.mem_append, List.mem_append] at h
          rcases h with (h | h) | h
          · exact .inr ⟨part, List.mem_cons_self, h⟩
          · exact .inl h
          · exact (ih h).imp_right fun ⟨other, hother, hc⟩ =>
              ⟨other, List.mem_cons_of_mem _ hother, hc⟩

theorem fields_joinWith {separator : Char} {parts : List String} (hparts : parts ≠ [])
    (h : ∀ part ∈ parts, separator ∉ part.toList) :
    fields separator (joinWith (String.singleton separator) parts) = parts := by
  rw [fields, toList_joinWith, List.splitOn_intercalate]
  · rw [List.map_map]
    exact List.map_id'' (fun _ => String.ofList_toList) parts
  · intro part hpart
    obtain ⟨text, htext, rfl⟩ := List.mem_map.mp hpart
    exact h text htext
  · simpa using hparts

/-- A key and the value after the first equals sign, if there is one. -/
def assignment (text : String) : String × Option String :=
  match splitOnce '=' text.toList with
  | some (key, value) => (String.ofList key, some (String.ofList value))
  | none => (text, none)

theorem assignment_append {key : String} (h : '=' ∉ key.toList) (value : String) :
    assignment (key ++ "=" ++ value) = (key, some value) := by
  have hlist : (key ++ "=" ++ value).toList = key.toList ++ '=' :: value.toList := by simp
  rw [assignment, hlist, splitOnce_append h]
  simp

theorem assignment_of_notMem {text : String} (h : '=' ∉ text.toList) :
    assignment text = (text, none) := by
  rw [assignment, splitOnce_eq_none h]

/-- The values assigned to a key, in order. -/
def assigned (key : String) (assignments : List (String × Option String)) : List String :=
  assignments.filterMap fun entry => if entry.1 = key then entry.2 else none

section Markers

/-- The text before the first occurrence of a marker, and the text behind it. -/
def splitAtMarker (marker : List Char) : List Char → Option (List Char × List Char)
  | [] => if marker.isEmpty then some ([], []) else none
  | c :: cs =>
    if marker.isPrefixOf (c :: cs) then some ([], (c :: cs).drop marker.length)
    else (splitAtMarker marker cs).map fun parts => (c :: parts.1, parts.2)

theorem eq_of_splitAtMarker {marker cs before after : List Char}
    (h : splitAtMarker marker cs = some (before, after)) : cs = before ++ (marker ++ after) := by
  induction cs generalizing before with
  | nil =>
      rw [splitAtMarker] at h
      obtain ⟨hempty, hparts⟩ := Option.ite_none_right_eq_some.mp h
      cases hparts
      rw [List.isEmpty_iff.mp hempty]
      rfl
  | cons c cs ih =>
      rw [splitAtMarker] at h
      split_ifs at h with hmarker
      · cases h
        obtain ⟨after, hafter⟩ := List.isPrefixOf_iff_prefix.mp hmarker
        rw [← hafter, List.drop_left]
        rfl
      · obtain ⟨⟨front, back⟩, hparts, hcons⟩ := Option.map_eq_some_iff.mp h
        cases hcons
        rw [ih hparts]
        rfl

/-- A marker is found where its first character occurs for the first time. -/
theorem splitAtMarker_append {c : Char} {before : List Char} (h : c ∉ before)
    (marker after : List Char) :
    splitAtMarker (c :: marker) (before ++ ((c :: marker) ++ after)) = some (before, after) := by
  induction before with
  | nil =>
      have hmarker : (c :: marker).isPrefixOf (c :: (marker ++ after)) = true :=
        List.isPrefixOf_iff_prefix.mpr ⟨after, rfl⟩
      rw [List.nil_append, List.cons_append, splitAtMarker, if_pos hmarker, ← List.cons_append,
        List.drop_left]
  | cons d before ih =>
      rw [List.mem_cons, not_or] at h
      have hmarker : ¬(c :: marker).isPrefixOf (d :: (before ++ ((c :: marker) ++ after))) := by
        intro hpre
        have hpre := List.isPrefixOf_iff_prefix.mp hpre
        exact h.1 (List.cons_prefix_cons.mp hpre).1
      rw [List.cons_append, splitAtMarker, if_neg hmarker, ih h.2]
      rfl

end Markers

end Text
