import PodmanLens.Coupling
import PodmanLens.JsonAlike
import PodmanLens.Snapshot

/-!
# Hidden values

Readers of values that an inventory or its snapshot hides. Two inputs that differ only in what is
hidden take the same notes and are read as fields in the same state, from the same origin and with
the same number of elements.
-/

namespace PodmanLens
open Std Json Text Coupling

/-- Fields in the same state, with values that are alike where there are any. -/
inductive FieldsAlike {α : Type} (alike : α → α → Prop) :
    ObservationField α → ObservationField α → Prop
  | same (field : ObservationField α) : FieldsAlike alike field field
  | observed {value value' : α} (origin : ObservationOrigin) (h : alike value value') :
      FieldsAlike alike (.observed ⟨value, origin⟩) (.observed ⟨value', origin⟩)

/-- Texts that agree up to and including the first equals sign. -/
inductive EntriesAlike : Value → Value → Prop
  | same (value : Value) : EntriesAlike value value
  | assigned {name : String} (left right : String) (h : '=' ∉ name.toList) :
      EntriesAlike (.string (name ++ "=" ++ left)) (.string (name ++ "=" ++ right))

/-- Commands with the same first word and the same number of words. -/
inductive CommandsAlike : Value → Value → Prop
  | same (value : Value) : CommandsAlike value value
  | array (first : Value) {left right : List Value} (h : List.Forall₂ StringsAlike left right) :
      CommandsAlike (.array (first :: left)) (.array (first :: right))

abbrev TextsAlike : Value → Value → Prop := ObjectsAlike fun _ => StringsAlike

section Fields
variable {α : Type} {alike : α → α → Prop} {field field' : ObservationField α}

theorem FieldsAlike.eq (h : FieldsAlike Eq field field') : field = field' := by
  cases h with
  | same => rfl
  | observed origin h => rw [h]

theorem FieldsAlike.fieldSummary_eq (h : FieldsAlike alike field field') :
    Snapshot.fieldSummary field = Snapshot.fieldSummary field' := by
  cases h with
  | same => rfl
  | observed origin _ => rfl

/-- A count that is the same for values that are alike is the same in the summaries. -/
theorem FieldsAlike.collectionSummary_eq {count : α → ℕ}
    (h : FieldsAlike (fun value value' => count value = count value') field field') :
    Snapshot.collectionSummary field count = Snapshot.collectionSummary field' count := by
  cases h with
  | same => rfl
  | observed origin h => exact congrArg (Snapshot.FieldCountSnapshot.mk _) h

end Fields

section Options
variable {value value' : Option Value}

theorem optionsAlike_same {alike : Value → Value → Prop} (h : ∀ found, alike found found)
    (heq : value = value') : OptionsAlike alike value value' := by
  rw [heq]
  cases value' with
  | none => exact .none
  | some found => exact .some (h found)

theorem optionsAlike_objects {alike : String → Value → Value → Prop}
    (h : OptionsAlike (ObjectsAlike alike) value value') : value = value' ∨
      ∃ members members', value = some (.object members) ∧ value' = some (.object members') ∧
        MembersAlike alike members members' := by
  cases h with
  | none => exact .inl rfl
  | some h =>
      cases h with
      | same found => exact .inl rfl
      | object h => exact .inr ⟨_, _, rfl, rfl, h⟩

theorem optionsAlike_arrays {alike : Value → Value → Prop}
    (h : OptionsAlike (ArraysAlike alike) value value') : value = value' ∨
      ∃ values values', value = some (.array values) ∧ value' = some (.array values') ∧
        List.Forall₂ alike values values' := by
  cases h with
  | none => exact .inl rfl
  | some h =>
      cases h with
      | same found => exact .inl rfl
      | array h => exact .inr ⟨_, _, rfl, rfl, h⟩

theorem forall₂_zipIdx {α β : Type} {alike : α → β → Prop} {values : List α} {values' : List β}
    (h : List.Forall₂ alike values values') (start : ℕ) :
    List.Forall₂ (fun entry entry' => alike entry.1 entry'.1 ∧ entry.2 = entry'.2)
      (values.zipIdx start) (values'.zipIdx start) := by
  induction h generalizing start with
  | nil => exact .nil
  | cons hvalue _ ih =>
      rw [List.zipIdx_cons, List.zipIdx_cons]
      exact .cons ⟨hvalue, rfl⟩ (ih (start + 1))

end Options

section Maps
variable {identity : ResourceIdentity} {value value' : Option Value} {path : String}
  {origin : ObservationOrigin}

theorem stringMembers_alike {members members' : Members}
    (h : MembersAlike (fun _ => StringsAlike) members members') :
    Option.Rel (fun pairs pairs' => pairs.map Prod.fst = pairs'.map Prod.fst)
      (stringMembers members) (stringMembers members') := by
  rw [← coupled_option]
  have hpairs : Coupled (List.Forall₂ fun pair pair' : String × String => pair.1 = pair'.1)
      (stringMembers members) (stringMembers members') := by
    refine Coupled.mapM h ?_
    rintro ⟨key, found⟩ ⟨key', found'⟩ ⟨rfl, hfound⟩
    rw [coupled_option]
    cases hfound with
    | same found =>
        generalize found.asStr = text
        cases text with
        | none => exact .none
        | some text => exact .some rfl
    | string left right => exact .some rfl
  exact hpairs.mono fun pairs pairs' halike => Returning.map_eq_map_of_forall₂ halike

/-- Of a map of strings only what its keys determine is kept. -/
theorem coupled_stringMapField {α : Type} {alike : α → α → Prop}
    {keep : List (String × String) → α}
    (hkeep : ∀ pairs pairs' : List (String × String),
      pairs.map Prod.fst = pairs'.map Prod.fst → alike (keep pairs) (keep pairs'))
    (h : OptionsAlike TextsAlike value value') :
    Coupled (FieldsAlike alike) (stringMapField identity keep value path origin)
      (stringMapField identity keep value' path origin) := by
  rcases optionsAlike_objects h with rfl | ⟨members, members', rfl, rfl, hmembers⟩
  · exact .refl .same _
  · have hpairs := stringMembers_alike hmembers
    simp only [stringMapField, stringMap, supplied, Value.asObject, Option.bind_some]
    generalize stringMembers members = pairs, stringMembers members' = pairs' at hpairs
    cases hpairs with
    | none => exact .refl .same _
    | some hpairs => exact .pure (.observed origin (hkeep _ _ hpairs))

end Maps

section Environment
variable {identity : ResourceIdentity} {policy : EnvironmentValuePolicy} {path : String}
  {alike : ProtectedEnvironmentEntry → ProtectedEnvironmentEntry → Prop}

theorem splitFirst_assigned {name : String} (h : '=' ∉ name.toList) (after : String) :
    splitFirst '=' (name ++ "=" ++ after) = some (name, after) := by
  have hlist : (name ++ "=" ++ after).toList = name.toList ++ '=' :: after.toList := by simp
  rw [splitFirst, hlist, splitOnce_append h]
  simp

theorem coupled_environmentEntry (hrefl : ∀ entry, alike entry entry)
    (halike : ∀ name left right, alike ⟨name, protectedEnvironmentValue policy left⟩
      ⟨name, protectedEnvironmentValue policy right⟩) {value value' : Value} (index : ℕ)
    (h : EntriesAlike value value') :
    Coupled (Option.Rel alike) (environmentEntry identity policy path (value, index))
      (environmentEntry identity policy path (value', index)) := by
  have hsame : ∀ decoded : Option ProtectedEnvironmentEntry, Option.Rel alike decoded decoded := by
    intro decoded
    cases decoded with
    | none => exact .none
    | some entry => exact .some (hrefl entry)
  cases h with
  | same value => exact .refl hsame _
  | @assigned name left right h =>
      simp only [environmentEntry, Value.asStr, Option.bind_some, splitFirst_assigned h]
      cases hname : name.isEmpty with
      | true =>
          simp only [Option.filter_some, hname, Bool.not_true]
          exact .refl hsame _
      | false =>
          simp only [Option.filter_some, hname, Bool.not_false]
          exact .pure (.some (halike name left right))

theorem elementsField_alike {α : Type} {alike : α → α → Prop} {elements elements' : List (Option α)}
    (origin : ObservationOrigin) (h : List.Forall₂ (Option.Rel alike) elements elements') :
    FieldsAlike (List.Forall₂ alike) (elementsField elements origin)
      (elementsField elements' origin) := by
  have hdecoded : Option.Rel (List.Forall₂ alike) (elements.mapM id) (elements'.mapM id) :=
    coupled_option.mp (Coupled.mapM h fun _ _ helement => coupled_option.mpr helement)
  rw [elementsField, elementsField]
  generalize elements.mapM id = decoded, elements'.mapM id = decoded' at hdecoded
  cases hdecoded with
  | none => exact .same _
  | some hdecoded => exact .observed origin hdecoded

/-- Of the entries only what stands before the first equals sign counts, up to the policy. -/
theorem coupled_decodeEnvironment {value value' : Option Value} (hrefl : ∀ entry, alike entry entry)
    (halike : ∀ name left right, alike ⟨name, protectedEnvironmentValue policy left⟩
      ⟨name, protectedEnvironmentValue policy right⟩)
    (h : OptionsAlike (ArraysAlike EntriesAlike) value value') :
    Coupled (FieldsAlike (List.Forall₂ alike)) (decodeEnvironment identity policy value path)
      (decodeEnvironment identity policy value' path) := by
  rcases optionsAlike_arrays h with rfl | ⟨entries, entries', rfl, rfl, hentries⟩
  · exact .refl .same _
  · refine (Coupled.mapM (forall₂_zipIdx hentries 0) ?_).map fun _ _ => elementsField_alike .effective
    rintro ⟨entry, index⟩ ⟨entry', index'⟩ ⟨hentry, hindex⟩
    cases hindex
    exact coupled_environmentEntry hrefl halike index hentry

end Environment

section Words
variable {identity : ResourceIdentity} {value value' : Option Value} {path : String}

theorem asStr_alike {found found' : Value} (h : StringsAlike found found') :
    Option.Rel (fun _ _ => True) found.asStr found'.asStr := by
  cases h with
  | same found =>
      generalize found.asStr = text
      cases text with
      | none => exact .none
      | some text => exact .some trivial
  | string left right => exact .some trivial

/-- Strings in the same places are read as the same number of words. -/
theorem words_alike {values values' : List Value} (h : List.Forall₂ StringsAlike values values') :
    Option.Rel (fun words words' => words.length = words'.length) (values.mapM Value.asStr)
      (values'.mapM Value.asStr) := by
  have hwords : Coupled (List.Forall₂ fun _ _ : String => True) (values.mapM Value.asStr)
      (values'.mapM Value.asStr) :=
    Coupled.mapM h fun _ _ hfound => coupled_option.mpr (asStr_alike hfound)
  exact coupled_option.mp (hwords.mono fun _ _ halike => halike.length_eq)

theorem coupled_decodeConfiguredArguments
    (h : OptionsAlike (ArraysAlike StringsAlike) value value') :
    Coupled (FieldsAlike fun words words' => words.length = words'.length)
      (decodeConfiguredArguments identity value path)
      (decodeConfiguredArguments identity value' path) := by
  rcases optionsAlike_arrays h with rfl | ⟨values, values', rfl, rfl, hvalues⟩
  · exact .refl .same _
  · have hwords := words_alike hvalues
    cases hvalues with
    | nil => exact .refl .same _
    | @cons first first' rest rest' hfirst hrest =>
        simp only [decodeConfiguredArguments]
        generalize (first :: rest).mapM Value.asStr = words, (first' :: rest').mapM Value.asStr =
          words' at hwords ⊢
        cases hwords with
        | none => exact .refl .same _
        | some hlength => exact .pure (.observed .configured hlength)

theorem coupled_decodeConfiguredEntrypoint
    (h : OptionsAlike (ArraysAlike StringsAlike) value value') :
    Coupled (FieldsAlike fun words words' => words.length = words'.length)
      (decodeConfiguredEntrypoint identity value path)
      (decodeConfiguredEntrypoint identity value' path) := by
  rcases optionsAlike_arrays h with heq | ⟨values, values', heq, heq', -⟩
  · rw [heq]
    exact .refl .same _
  · rw [heq, heq'] at h ⊢
    exact coupled_decodeConfiguredArguments h

theorem coupled_decodeConfiguredText (h : OptionsAlike StringsAlike value value') :
    Coupled (FieldsAlike fun _ _ => True) (decodeConfiguredText identity value path)
      (decodeConfiguredText identity value' path) := by
  cases h with
  | none => exact .refl .same _
  | some h =>
      cases h with
      | same found => exact .refl .same _
      | string left right => exact .pure (.observed .configured trivial)

theorem healthCommandFromWords_alike (first : String) {rest rest' : List String}
    (h : rest.length = rest'.length) :
    Option.Rel (fun command command' => command.map Snapshot.healthCommandCount =
      command'.map Snapshot.healthCommandCount) (healthCommandFromWords (first :: rest))
      (healthCommandFromWords (first :: rest')) := by
  cases rest with
  | nil =>
      rw [List.length_eq_zero_iff.mp h.symm]
      generalize healthCommandFromWords [first] = command
      cases command with
      | none => exact .none
      | some command => exact .some rfl
  | cons argument rest =>
      cases rest' with
      | nil => cases h
      | cons argument' rest' =>
          have hcount : rest.length + 1 = rest'.length + 1 := h
          by_cases hexec : first = "CMD"
          · rw [hexec]
            exact .some (congrArg Except.ok hcount)
          · by_cases hshell : first = "CMD-SHELL"
            · rw [hshell]
              exact .some (congrArg Except.ok hcount)
            · by_cases hnone : first = "NONE"
              · rw [hnone]
                exact .some rfl
              · have hunknown : ∀ words, healthCommandFromWords (first :: words) = none := by
                  intro words
                  unfold healthCommandFromWords
                  split <;> simp_all
                rw [hunknown, hunknown]
                exact .none

end Words

end PodmanLens
