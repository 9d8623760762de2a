import Mathlib.Data.List.Basic
import Mathlib.Data.List.TakeWhile
import Mathlib.Tactic.IntervalCases
import Mathlib.Tactic.Linarith

/-!
# Bounded text without control characters

Predicates on Unicode text that validating constructors share: the general category `Cc`, the
`White_Space` property, byte lengths, and splitting at a separator. `ControlFree` is closed under
the ways encoders build text from validated parts: concatenation, decimal and radix numerals, and
joining with a separator.
-/

namespace Text

/-- The general category `Cc`: C0 controls, `DEL`, and C1 controls. -/
def isControl (c : Char) : Bool :=
  c.toNat < 0x20 || (0x7f ≤ c.toNat && c.toNat < 0xa0)

/-- The Unicode `White_Space` property. -/
def isWhitespace (c : Char) : Bool :=
  (0x09 ≤ c.toNat && c.toNat ≤ 0x0d) || c.toNat == 0x20 || c.toNat == 0x85 || c.toNat == 0xa0 ||
    c.toNat == 0x1680 || (0x2000 ≤ c.toNat && c.toNat ≤ 0x200a) || c.toNat == 0x2028 ||
    c.toNat == 0x2029 || c.toNat == 0x202f || c.toNat == 0x205f || c.toNat == 0x3000

def isAsciiLowercase (c : Char) : Bool := 'a' ≤ c && c ≤ 'z'

def isHexDigit (c : Char) : Bool :=
  c.isDigit || ('a' ≤ c && c ≤ 'f') || ('A' ≤ c && c ≤ 'F')

/-- The number of bytes of the UTF-8 encoding. -/
def byteLength (cs : List Char) : ℕ := (cs.map Char.utf8Size).sum

@[simp] theorem byteLength_nil : byteLength [] = 0 := rfl

@[simp] theorem byteLength_cons (c : Char) (cs : List Char) :
    byteLength (c :: cs) = c.utf8Size + byteLength cs := rfl

theorem byteLength_append (cs ds : List Char) :
    byteLength (cs ++ ds) = byteLength cs + byteLength ds := by
  rw [byteLength, List.map_append, List.sum_append]
  rfl

theorem utf8ByteSize_ofList (cs : List Char) : (String.ofList cs).utf8ByteSize = byteLength cs := by
  induction cs with
  | nil => rfl
  | cons c cs ih =>
      rw [String.ofList_cons, String.utf8ByteSize_append, ih, String.utf8ByteSize_singleton]
      rfl

theorem utf8ByteSize_eq (s : String) : s.utf8ByteSize = byteLength s.toList := by
  rw [← utf8ByteSize_ofList, String.ofList_toList]

def contains (needle haystack : List Char) : Bool := haystack.tails.any needle.isPrefixOf

/-- The parts before and after the first occurrence of `c`. -/
def splitOnce (c : Char) (cs : List Char) : Option (List Char × List Char) :=
  match cs.dropWhile (· != c) with
  | [] => none
  | _ :: after => some (cs.takeWhile (· != c), after)

/-- The parts before and after the last occurrence of `c`. -/
def rsplitOnce (c : Char) (cs : List Char) : Option (List Char × List Char) :=
  (splitOnce c cs.reverse).map fun parts => (parts.2.reverse, parts.1.reverse)

theorem splitOnce_append {c : Char} {before : List Char} (h : c ∉ before) (after : List Char) :
    splitOnce c (before ++ c :: after) = some (before, after) := by
  have hbefore : ∀ d ∈ before, (d != c) = true := by
    intro d hd
    simp only [bne_iff_ne]
    rintro rfl
    exact h hd
  rw [splitOnce, List.dropWhile_append_of_pos hbefore, List.takeWhile_append_of_pos hbefore]
  simp

/-- Text up to a separator that does not occur in it is determined by the whole. -/
theorem append_cons_inj {c : Char} {a b x y : List Char} (ha : c ∉ a) (hb : c ∉ b)
    (h : a ++ c :: x = b ++ c :: y) : a = b ∧ x = y := by
  have hsplit := congrArg (splitOnce c) h
  rw [splitOnce_append ha, splitOnce_append hb, Option.some.injEq, Prod.mk.injEq] at hsplit
  exact hsplit

theorem splitOnce_eq_none {c : Char} {cs : List Char} (h : c ∉ cs) : splitOnce c cs = none := by
  have hall : cs.dropWhile (· != c) = [] := by
    apply List.dropWhile_eq_nil_iff.mpr
    intro d hd
    simp only [bne_iff_ne]
    rintro rfl
    exact h hd
  rw [splitOnce, hall]

theorem isDigit_of_mem_repr {n : ℕ} {c : Char} (h : c ∈ n.repr.toList) : c.isDigit = true := by
  rw [Nat.toList_repr] at h
  exact Nat.isDigit_of_mem_toDigits (by omega) (by omega) h

theorem notMem_repr {c : Char} (h : c.isDigit = false) (n : ℕ) : c ∉ n.repr.toList := by
  intro hc
  rw [isDigit_of_mem_repr hc] at h
  cases h

def digitsValue (cs : List Char) : ℕ := cs.foldl (fun value c => 10 * value + (c.toNat - 48)) 0

/-- Decimal digits with an optional leading plus sign, bounded by a machine width. -/
def parseUnsigned (maximum : ℕ) (cs : List Char) : Option ℕ :=
  let digits := match cs with
    | '+' :: rest => rest
    | _ => cs
  if digits ≠ [] ∧ digits.all Char.isDigit ∧ digitsValue digits ≤ maximum then
    some (digitsValue digits)
  else none

def joinWith (separator : String) : List String → String
  | [] => ""
  | [s] => s
  | s :: rest => s ++ separator ++ joinWith separator rest

def ControlFree (s : String) : Prop := ∀ c ∈ s.toList, isControl c = false

theorem controlFree_iff (s : String) : ControlFree s ↔ s.toList.any isControl = false := by
  simp [ControlFree]

instance (s : String) : Decidable (ControlFree s) :=
  decidable_of_iff _ (controlFree_iff s).symm

theorem isControl_eq_false_of_range {c : Char} (hlow : 0x20 ≤ c.toNat) (hhigh : c.toNat < 0x7f) :
    isControl c = false := by
  simp only [isControl, Bool.or_eq_false_iff, Bool.and_eq_false_iff, decide_eq_false_iff_not]
  omega

theorem isControl_newline : isControl '\n' = true := by decide

theorem ControlFree.newline_notMem {s : String} (h : ControlFree s) : '\n' ∉ s.toList := by
  intro hmem
  have hc := h '\n' hmem
  rw [isControl_newline] at hc
  cases hc

@[simp] theorem controlFree_append {s t : String} :
    ControlFree (s ++ t) ↔ ControlFree s ∧ ControlFree t := by
  simp only [ControlFree, String.toList_append, List.mem_append]
  constructor
  · intro h
    exact ⟨fun c hc => h c (.inl hc), fun c hc => h c (.inr hc)⟩
  · rintro ⟨hs, ht⟩ c (hc | hc)
    · exact hs c hc
    · exact ht c hc

theorem controlFree_ofList {cs : List Char} :
    ControlFree (String.ofList cs) ↔ ∀ c ∈ cs, isControl c = false := by
  simp [ControlFree]

/-- A character that `isAlphanum` accepts is printable ASCII. -/
theorem isAlphanum_range {c : Char} (h : c.isAlphanum = true) :
    0x30 ≤ c.toNat ∧ c.toNat ≤ 0x7a := by
  unfold Char.isAlphanum Char.isAlpha Char.isUpper Char.isLower Char.isDigit at h
  simp only [Bool.or_eq_true, Bool.and_eq_true, decide_eq_true_eq, UInt32.le_iff_toNat_le,
    ge_iff_le] at h
  change ((65 ≤ c.toNat ∧ c.toNat ≤ 90) ∨ (97 ≤ c.toNat ∧ c.toNat ≤ 122)) ∨
    (48 ≤ c.toNat ∧ c.toNat ≤ 57) at h
  omega

theorem isControl_of_isAlphanum {c : Char} (h : c.isAlphanum = true) : isControl c = false := by
  have hrange := isAlphanum_range h
  exact isControl_eq_false_of_range (by omega) (by omega)

/-- What holds of the separator and of every part holds of every character. -/
theorem forall_of_splitOn {p : Char → Prop} (separator : Char) (hseparator : p separator)
    {cs : List Char} (h : ∀ part ∈ cs.splitOn separator, ∀ c ∈ part, p c) : ∀ c ∈ cs, p c := by
  induction cs with
  | nil => simp
  | cons c cs ih =>
      rw [List.splitOn_cons_eq_if_modifyHead] at h
      split_ifs at h with hc
      · rw [beq_iff_eq] at hc
        subst hc
        exact List.forall_mem_cons.mpr
          ⟨hseparator, ih fun part hpart => h part (List.mem_cons_of_mem _ hpart)⟩
      · cases hparts : cs.splitOn separator with
        | nil => exact absurd hparts (List.splitOn_ne_nil _ _)
        | cons first rest =>
            rw [hparts, List.modifyHead_cons] at h
            have hfirst := h _ List.mem_cons_self
            refine List.forall_mem_cons.mpr ⟨hfirst c List.mem_cons_self, ih fun part hpart => ?_⟩
            rw [hparts] at hpart
            rcases List.mem_cons.mp hpart with rfl | hpart
            · exact fun d hd => hfirst d (List.mem_cons_of_mem _ hd)
            · exact h part (List.mem_cons_of_mem _ hpart)

theorem controlFree_joinWith {separator : String} {values : List String}
    (hseparator : ControlFree separator) (h : ∀ s ∈ values, ControlFree s) :
    ControlFree (joinWith separator values) := by
  induction values with
  | nil =>
      intro c hc
      cases hc
  | cons s rest ih =>
      cases rest with
      | nil => exact h s List.mem_cons_self
      | cons t tail =>
          have htail := ih fun u hu => h u (List.mem_cons_of_mem _ hu)
          change ControlFree (s ++ separator ++ joinWith separator (t :: tail))
          rw [controlFree_append, controlFree_append]
          exact ⟨⟨h s List.mem_cons_self, hseparator⟩, htail⟩

end Text
