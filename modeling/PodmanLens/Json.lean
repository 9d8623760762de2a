import PodmanLens.Text

/-!
# JSON values and their compact text

Objects keep their members in key order and `insert` replaces an equal key, so two objects with the
same members are equal. `render` writes compact text: strings escape quotes, backslashes and C0
controls and keep every other character.
-/

namespace Json
open Text

inductive Value
  | null
  | bool (value : Bool)
  | number (value : ℤ)
  | string (value : String)
  | array (values : List Value)
  | object (members : List (String × Value))

abbrev Members := List (String × Value)

/-- Keys stay in order, and a repeated key keeps the last value. -/
def insert : Members → String → Value → Members
  | [], key, value => [(key, value)]
  | (other, found) :: rest, key, value =>
    match compare key other with
    | .lt => (key, value) :: (other, found) :: rest
    | .eq => (key, value) :: rest
    | .gt => (other, found) :: insert rest key value

def insertSome (members : Members) (key : String) : Option Value → Members
  | some value => insert members key value
  | none => members

def lookup : Members → String → Option Value
  | [], _ => none
  | (other, found) :: rest, key => if other = key then some found else lookup rest key

def Value.member (value : Value) (key : String) : Option Value :=
  match value with
  | .object members => lookup members key
  | _ => none

def ofPairs (pairs : List (String × Value)) : Members :=
  pairs.foldl (fun members pair => insert members pair.1 pair.2) []

def stringArray (values : List String) : Value := .array (values.map .string)

def escapeChar (c : Char) : List Char :=
  match c with
  | '"' => ['\\', '"']
  | '\\' => ['\\', '\\']
  | '\x08' => ['\\', 'b']
  | '\t' => ['\\', 't']
  | '\n' => ['\\', 'n']
  | '\x0c' => ['\\', 'f']
  | '\r' => ['\\', 'r']
  | c =>
    if c.toNat < 0x20 then
      ['\\', 'u', '0', '0', (c.toNat / 16).digitChar, (c.toNat % 16).digitChar]
    else [c]

def quoted (value : String) : String :=
  String.ofList ('"' :: value.toList.flatMap escapeChar ++ ['"'])

mutual

def render : Value → String
  | .null => "null"
  | .bool value => if value then "true" else "false"
  | .number value => value.repr
  | .string value => quoted value
  | .array values => "[" ++ joinWith "," (renderElements values) ++ "]"
  | .object members => "\x7b" ++ joinWith "," (renderMembers members) ++ "\x7d"

def renderElements : List Value → List String
  | [] => []
  | value :: rest => render value :: renderElements rest

def renderMember : String × Value → String
  | (key, value) => quoted key ++ ":" ++ render value

def renderMembers : List (String × Value) → List String
  | [] => []
  | member :: rest => renderMember member :: renderMembers rest

end

theorem lookup_insert (members : Members) (key : String) (value : Value) (other : String) :
    lookup (insert members key value) other =
      if key = other then some value else lookup members other := by
  induction members with
  | nil => rfl
  | cons member rest ih =>
      obtain ⟨found, old⟩ := member
      rw [insert]
      cases hcmp : compare key found with
      | lt => rfl
      | eq =>
          have hkey : key = found := Std.compare_eq_iff_eq.mp hcmp
          subst hkey
          by_cases hother : key = other
          · simp only [lookup, if_pos hother]
          · simp only [lookup, if_neg hother]
      | gt =>
          have hkey : key ≠ found := by
            intro heq
            rw [heq, Std.compare_self] at hcmp
            cases hcmp
          simp only [lookup, ih]
          by_cases hfound : found = other
          · rw [if_pos hfound, if_neg (fun h => hkey (h.trans hfound.symm)), if_pos hfound]
          · rw [if_neg hfound, if_neg hfound]

theorem lookup_insertSome (members : Members) (key : String) (value : Option Value)
    (other : String) : lookup (insertSome members key value) other =
      if key = other then value.or (lookup members other) else lookup members other := by
  cases value with
  | none => exact (ite_self _).symm
  | some value => exact lookup_insert members key value other

theorem escapeChar_controlFree {c : Char} (h : isControl c = false) :
    ∀ e ∈ escapeChar c, isControl e = false := by
  have hlow : ¬c.toNat < 0x20 := by
    simp only [isControl, Bool.or_eq_false_iff, decide_eq_false_iff_not] at h
    exact h.1
  unfold escapeChar
  split
  · simp [isControl]
  · simp [isControl]
  · exact absurd (by decide) hlow
  · exact absurd (by decide) hlow
  · exact absurd (by decide) hlow
  · exact absurd (by decide) hlow
  · exact absurd (by decide) hlow
  · rw [if_neg hlow]
    simpa using h

theorem controlFree_quoted {value : String} (h : ControlFree value) :
    ControlFree (quoted value) := by
  rw [quoted, controlFree_ofList]
  intro c hc
  simp only [List.cons_append, List.mem_cons, List.mem_append, List.mem_flatMap,
    List.not_mem_nil, or_false] at hc
  rcases hc with rfl | ⟨e, he, hc⟩ | rfl
  · decide
  · exact escapeChar_controlFree (h e he) c hc
  · decide

theorem controlFree_render_stringArray {values : List String}
    (h : ∀ value ∈ values, ControlFree value) : ControlFree (render (stringArray values)) := by
  have helements : ∀ s ∈ renderElements (values.map .string), ControlFree s := by
    induction values with
    | nil => simp [renderElements]
    | cons value rest ih =>
        rw [List.map_cons, renderElements, render, List.forall_mem_cons]
        exact ⟨controlFree_quoted (h value List.mem_cons_self),
          ih fun other hother => h other (List.mem_cons_of_mem _ hother)⟩
  have hjoined := controlFree_joinWith (by decide : ControlFree ",") helements
  rw [stringArray, render, controlFree_append, controlFree_append]
  exact ⟨⟨by decide, hjoined⟩, by decide⟩

end Json
