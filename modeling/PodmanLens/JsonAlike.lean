import Mathlib.Data.List.Forall2
import Mathlib.Data.Option.Basic
import PodmanLens.NativeFields

/-!
# Alike JSON values

Two documents that differ only in some places have the same keys and lengths everywhere else. Objects
are alike when their members are, key by key, and arrays when their elements are. A reader that
looks up other keys sees no difference.
-/

namespace Json

/-- The same keys, with values that are alike under each of them. -/
def MembersAlike (alike : String → Value → Value → Prop) : Members → Members → Prop :=
  List.Forall₂ fun left right => left.1 = right.1 ∧ alike left.1 left.2 right.2

inductive ObjectsAlike (alike : String → Value → Value → Prop) : Value → Value → Prop
  | same (value : Value) : ObjectsAlike alike value value
  | object {left right : Members} (h : MembersAlike alike left right) :
      ObjectsAlike alike (.object left) (.object right)

inductive ArraysAlike (alike : Value → Value → Prop) : Value → Value → Prop
  | same (value : Value) : ArraysAlike alike value value
  | array {left right : List Value} (h : List.Forall₂ alike left right) :
      ArraysAlike alike (.array left) (.array right)

inductive StringsAlike : Value → Value → Prop
  | same (value : Value) : StringsAlike value value
  | string (left right : String) : StringsAlike (.string left) (.string right)

abbrev OptionsAlike (alike : Value → Value → Prop) : Option Value → Option Value → Prop :=
  Option.Rel alike

section Lookup
variable {alike : String → Value → Value → Prop} {left right : Members}

theorem MembersAlike.refl (h : ∀ key value, alike key value value) (members : Members) :
    MembersAlike alike members members :=
  List.forall₂_same.mpr fun member _ => ⟨rfl, h member.1 member.2⟩

/-- Members that are alike have alike values under a key, or none. -/
theorem MembersAlike.lookup (h : MembersAlike alike left right) (key : String) :
    OptionsAlike (alike key) (lookup left key) (lookup right key) := by
  induction h with
  | nil => exact .none
  | cons hmember _ ih =>
      obtain ⟨hkey, hvalue⟩ := hmember
      rw [Json.lookup, Json.lookup, ← hkey]
      split_ifs with hother
      · rw [hother] at hvalue
        exact .some hvalue
      · exact ih

theorem eq_of_optionsAlike {alike : Value → Value → Prop} {value value' : Option Value}
    (h : OptionsAlike alike value value') (heq : ∀ found found', alike found found' → found = found') :
    value = value' := by
  cases h with
  | none => rfl
  | some h => rw [heq _ _ h]

/-- Under a key whose values do not differ both objects have the same value. -/
theorem MembersAlike.lookup_eq (h : MembersAlike alike left right) {key : String}
    (hkey : ∀ value value', alike key value value' → value = value') :
    Json.lookup left key = Json.lookup right key :=
  eq_of_optionsAlike (h.lookup key) hkey

theorem MembersAlike.isSome_lookup (h : MembersAlike alike left right) (key : String) :
    (Json.lookup left key).isSome = (Json.lookup right key).isSome := by
  generalize Json.lookup left key = found, Json.lookup right key = found', h.lookup key = hfound
  cases hfound <;> rfl

end Lookup

section Places

/-- Keys under which two objects may differ, and how far. -/
abbrev Places := List (String × (Value → Value → Prop))

/-- Values under a key that is no place are the same. -/
def ExceptAt (places : Places) (key : String) (value value' : Value) : Prop :=
  match places.lookup key with
  | some alike => alike value value'
  | none => value = value'

variable {places : Places} {left right : Members} {key : String} {alike : Value → Value → Prop}

theorem lookup_eq_none_of_notMem (h : key ∉ places.map Prod.fst) : places.lookup key = none := by
  rw [List.lookup_eq_none_iff]
  rintro ⟨other, alike⟩ hmem
  exact bne_iff_ne.mpr fun heq => h (List.mem_map.mpr ⟨_, hmem, heq.symm⟩)

theorem exceptAt_of_notMem (h : key ∉ places.map Prod.fst) {value value' : Value}
    (hvalue : ExceptAt places key value value') : value = value' := by
  rwa [ExceptAt, lookup_eq_none_of_notMem h] at hvalue

theorem exceptAt_refl (h : ∀ place ∈ places, ∀ value, place.2 value value) (key : String)
    (value : Value) : ExceptAt places key value value := by
  rw [ExceptAt]
  split
  · next alike hlookup =>
      obtain ⟨before, after, hplaces, -⟩ := List.lookup_eq_some_iff.mp hlookup
      refine h (key, alike) ?_ value
      rw [hplaces]
      exact List.mem_append_right _ List.mem_cons_self
  · rfl

theorem exceptAt_mono {wider : Places} (hrefl : ∀ place ∈ wider, ∀ value, place.2 value value)
    (h : ∀ place ∈ places, ∃ alike, wider.lookup place.1 = some alike ∧
      ∀ value value', place.2 value value' → alike value value') {value value' : Value}
    (hvalue : ExceptAt places key value value') : ExceptAt wider key value value' := by
  rw [ExceptAt] at hvalue
  split at hvalue
  · next alike hlookup =>
      obtain ⟨before, after, hplaces, -⟩ := List.lookup_eq_some_iff.mp hlookup
      have hmem : (key, alike) ∈ places := by
        rw [hplaces]
        exact List.mem_append_right _ List.mem_cons_self
      obtain ⟨alike', hwider, himp⟩ := h _ hmem
      rw [ExceptAt, hwider]
      exact himp value value' hvalue
  · rw [hvalue]
    exact exceptAt_refl hrefl key value'

namespace MembersAlike

theorem lookup_same (h : MembersAlike (ExceptAt places) left right)
    (hkey : key ∉ places.map Prod.fst) : Json.lookup left key = Json.lookup right key :=
  h.lookup_eq fun _ _ => exceptAt_of_notMem hkey

theorem lookup_place (h : MembersAlike (ExceptAt places) left right)
    (hplace : places.lookup key = some alike) :
    OptionsAlike alike (Json.lookup left key) (Json.lookup right key) := by
  have hlookup := h.lookup key
  have hat : ExceptAt places key = alike := by
    funext value value'
    rw [ExceptAt, hplace]
  rwa [hat] at hlookup

theorem mono {alike alike' : String → Value → Value → Prop} (h : MembersAlike alike left right)
    (hwider : ∀ key value value', alike key value value' → alike' key value value') :
    MembersAlike alike' left right :=
  List.Forall₂.imp (fun _ _ hmember => ⟨hmember.1, hwider _ _ _ hmember.2⟩) h

theorem eq_of_nil (h : MembersAlike (ExceptAt []) left right) : left = right := by
  induction h with
  | nil => rfl
  | cons hmember _ ih => rw [ih, Prod.ext hmember.1 hmember.2]

end MembersAlike

theorem ObjectsAlike.members {left right : Members}
    (hrefl : ∀ place ∈ places, ∀ value, place.2 value value)
    (h : ObjectsAlike (ExceptAt places) (.object left) (.object right)) :
    MembersAlike (ExceptAt places) left right := by
  cases h with
  | same => exact .refl (exceptAt_refl hrefl) _
  | object h => exact h

end Places

end Json
