import Mathlib.Data.List.Induction
import Mathlib.Data.List.TakeWhile
import Mathlib.Tactic.Linarith
import PodmanLens.Noted
import PodmanLens.PercentDecoding

/-!
# Reading bytes by position

A scanner over a byte text looks at positions and at ranges of decimal digits; it notes every
position that it looks at. What it finds is stated on the text that remains from a position on, so
that the facts about neighbouring positions compose to one about the whole text.
-/

namespace Positions
open Text

def asciiByte (c : Char) : UInt8 := .ofNat c.toNat

def asciiBytes (cs : List Char) : List UInt8 := cs.map asciiByte

def isDigitByte (byte : UInt8) : Bool := 48 ≤ byte.toNat && byte.toNat ≤ 57

/-- A number in a fixed width, with leading zeros. -/
def padded : ℕ → ℕ → List Char
  | 0, _ => []
  | width + 1, value => padded width (value / 10) ++ [Nat.digitChar (value % 10)]

section Reading
variable (bytes : List UInt8)

def byteAt (index : ℕ) : Noted ℕ (Option UInt8) := ⟨bytes[index]?, [index]⟩

def digitStep (value : ℕ) (byte : UInt8) : Option ℕ :=
  if isDigitByte byte then some (value * 10 + (byte.toNat - 48)) else none

/-- The number that a range spells, if the range lies inside the text and holds digits only. -/
def digitsAt (start length : ℕ) : Noted ℕ (Option ℕ) :=
  ⟨if start + length ≤ bytes.length then ((bytes.drop start).take length).foldlM digitStep 0
    else none, List.range' start length⟩

/-- The first position from the start on that holds no digit. -/
def skipDigits (start : ℕ) : Noted ℕ ℕ :=
  match h : bytes[start]? with
  | some byte =>
    if isDigitByte byte then
      ⟨(skipDigits (start + 1)).value, start :: (skipDigits (start + 1)).notes⟩
    else ⟨start, [start]⟩
  | none => ⟨start, [start]⟩
termination_by bytes.length - start
decreasing_by all_goals
  obtain ⟨hinside, -⟩ := List.getElem?_eq_some_iff.mp h
  omega

end Reading

section Digits

theorem length_padded (width value : ℕ) : (padded width value).length = width := by
  induction width generalizing value with
  | zero => rfl
  | succ width ih => rw [padded, List.length_append, ih, List.length_singleton]

theorem asciiByte_digitChar : ∀ digit < 10, asciiByte (Nat.digitChar digit) =
    UInt8.ofNat (48 + digit) := by decide

theorem isDigitByte_iff {byte : UInt8} :
    isDigitByte byte = true ↔ ∃ digit < 10, byte = asciiByte (Nat.digitChar digit) := by
  rw [isDigitByte, Bool.and_eq_true, decide_eq_true_iff, decide_eq_true_iff]
  constructor
  · intro ⟨hlow, hhigh⟩
    refine ⟨byte.toNat - 48, by omega, ?_⟩
    rw [asciiByte_digitChar _ (by omega), Nat.add_sub_cancel' hlow, UInt8.ofNat_toNat]
  · rintro ⟨digit, hdigit, rfl⟩
    rw [asciiByte_digitChar _ hdigit, UInt8.toNat_ofNat']
    omega

theorem digitStep_eq_some {value found : ℕ} {byte : UInt8} :
    digitStep value byte = some found ↔
      ∃ digit < 10, byte = asciiByte (Nat.digitChar digit) ∧ found = value * 10 + digit := by
  rw [digitStep, Option.ite_none_right_eq_some, isDigitByte_iff, Option.some.injEq]
  constructor
  · rintro ⟨⟨digit, hdigit, rfl⟩, rfl⟩
    refine ⟨digit, hdigit, rfl, ?_⟩
    rw [asciiByte_digitChar _ hdigit, UInt8.toNat_ofNat']
    omega
  · rintro ⟨digit, hdigit, rfl, rfl⟩
    refine ⟨⟨digit, hdigit, rfl⟩, ?_⟩
    rw [asciiByte_digitChar _ hdigit, UInt8.toNat_ofNat']
    omega

/-- A text spells a number exactly when it is that number in its own width. -/
theorem foldlM_digitStep {bytes : List UInt8} {value : ℕ} :
    bytes.foldlM digitStep 0 = some value ↔
      value < 10 ^ bytes.length ∧ bytes = asciiBytes (padded bytes.length value) := by
  induction bytes using List.reverseRecOn generalizing value with
  | nil => simp [asciiBytes, padded, eq_comm]
  | append_singleton front byte ih =>
      rw [List.foldlM_append, List.length_append, List.length_singleton, padded, asciiBytes,
        List.map_append, List.map_singleton, List.append_singleton_inj, Nat.pow_succ]
      simp only [List.foldlM_cons, List.foldlM_nil, bind_pure, Option.bind_eq_bind,
        Option.bind_eq_some_iff]
      constructor
      · rintro ⟨before, hbefore, hstep⟩
        obtain ⟨digit, hdigit, rfl, rfl⟩ := digitStep_eq_some.mp hstep
        obtain ⟨hbound, hfront⟩ := ih.mp hbefore
        have hquotient : (before * 10 + digit) / 10 = before := by omega
        have hremainder : (before * 10 + digit) % 10 = digit := by omega
        rw [hquotient, hremainder]
        exact ⟨by omega, hfront, rfl⟩
      · rintro ⟨hbound, hfront, hbyte⟩
        refine ⟨value / 10, ih.mpr ⟨by omega, hfront⟩, digitStep_eq_some.mpr ?_⟩
        exact ⟨value % 10, by omega, hbyte, by omega⟩

end Digits

section Spelling
variable {bytes : List UInt8} {start : ℕ}

/-- The text begins with these characters from the position on. -/
def SpellsAt (bytes : List UInt8) (start : ℕ) (cs : List Char) : Prop :=
  asciiBytes cs <+: bytes.drop start

theorem spellsAt_append {cs ds : List Char} :
    SpellsAt bytes start (cs ++ ds) ↔
      SpellsAt bytes start cs ∧ SpellsAt bytes (start + cs.length) ds := by
  simp only [SpellsAt, asciiBytes, List.map_append, ← List.drop_drop]
  constructor
  · rintro ⟨rest, hrest⟩
    rw [← hrest, List.append_assoc, List.drop_left' (List.length_map _)]
    exact ⟨List.prefix_append _ _, List.prefix_append _ _⟩
  · rintro ⟨⟨rest, hrest⟩, hds⟩
    rw [← hrest, List.drop_left' (List.length_map _)] at hds
    rw [← hrest]
    exact (List.prefix_append_right_inj _).mpr hds

theorem spellsAt_cons {c : Char} {cs : List Char} :
    SpellsAt bytes start (c :: cs) ↔ SpellsAt bytes start [c] ∧ SpellsAt bytes (start + 1) cs := by
  rw [← List.singleton_append, spellsAt_append]
  rfl

theorem eq_asciiBytes_iff {cs : List Char} :
    bytes = asciiBytes cs ↔ SpellsAt bytes 0 cs ∧ cs.length = bytes.length := by
  constructor
  · rintro rfl
    exact ⟨List.prefix_rfl, (List.length_map _).symm⟩
  · rintro ⟨hspells, hlength⟩
    exact (hspells.eq_of_length ((List.length_map _).trans hlength)).symm

theorem value_byteAt {c : Char} :
    (byteAt bytes start).value = some (asciiByte c) ↔ SpellsAt bytes start [c] := by
  rw [byteAt, SpellsAt, ← Nat.add_zero start, ← List.getElem?_drop, Nat.add_zero]
  cases bytes.drop start with
  | nil => simp [asciiBytes]
  | cons byte rest => simp [asciiBytes, eq_comm]

theorem value_digitsAt {length value : ℕ} (hpositive : 0 < length) :
    (digitsAt bytes start length).value = some value ↔
      value < 10 ^ length ∧ SpellsAt bytes start (padded length value) := by
  simp only [digitsAt, Option.ite_none_right_eq_some, foldlM_digitStep]
  constructor
  · rintro ⟨hinside, hbound, hdigits⟩
    have hlength : ((bytes.drop start).take length).length = length := by
      rw [List.length_take, List.length_drop]
      omega
    rw [hlength] at hbound hdigits
    refine ⟨hbound, ?_⟩
    rw [SpellsAt, ← hdigits]
    exact List.take_prefix _ _
  · rintro ⟨hbound, hspells⟩
    have hinside := hspells.length_le
    have htake := List.prefix_iff_eq_take.mp hspells
    rw [asciiBytes, List.length_map, length_padded] at hinside htake
    rw [List.length_drop] at hinside
    rw [← htake, List.length_map, length_padded]
    exact ⟨by omega, hbound, rfl⟩

theorem value_skipDigits (start : ℕ) :
    (skipDigits bytes start).value =
      start + ((bytes.drop start).takeWhile isDigitByte).length := by
  fun_induction skipDigits bytes start with
  | case1 start byte h hdigit ih =>
      obtain ⟨hinside, rfl⟩ := List.getElem?_eq_some_iff.mp h
      rw [List.drop_eq_getElem_cons hinside, List.takeWhile_cons_of_pos hdigit, List.length_cons]
      dsimp only
      omega
  | case2 start byte h hdigit =>
      obtain ⟨hinside, rfl⟩ := List.getElem?_eq_some_iff.mp h
      rw [List.drop_eq_getElem_cons hinside, List.takeWhile_cons_of_neg hdigit]
      rfl
  | case3 start h =>
      rw [List.drop_eq_nil_of_le (List.getElem?_eq_none_iff.mp h)]
      rfl

theorem skipDigits_le (hstart : start ≤ bytes.length) :
    (skipDigits bytes start).value ≤ bytes.length := by
  have hrun := (List.takeWhile_prefix (l := bytes.drop start) isDigitByte).length_le
  rw [List.length_drop] at hrun
  rw [value_skipDigits]
  omega

/-- Nothing behind the position that ends the digits is looked at. -/
theorem notes_skipDigits (start : ℕ) :
    ∀ index ∈ (skipDigits bytes start).notes, index ≤ (skipDigits bytes start).value := by
  fun_induction skipDigits bytes start with
  | case1 start byte h hdigit ih =>
      refine List.forall_mem_cons.mpr ⟨?_, ih⟩
      rw [value_skipDigits]
      omega
  | case2 start byte h hdigit => exact List.forall_mem_singleton.mpr le_rfl
  | case3 start h => exact List.forall_mem_singleton.mpr le_rfl

/-- Digit bytes spell digit characters. -/
theorem exists_digits (digits : List UInt8) (h : ∀ byte ∈ digits, isDigitByte byte = true) :
    ∃ cs : List Char, (∀ c ∈ cs, c.isDigit = true) ∧ digits = asciiBytes cs := by
  induction digits with
  | nil => exact ⟨[], by simp, rfl⟩
  | cons byte rest ih =>
      obtain ⟨hbyte, hrest⟩ := List.forall_mem_cons.mp h
      obtain ⟨cs, hcs, rfl⟩ := ih hrest
      obtain ⟨digit, hdigit, rfl⟩ := isDigitByte_iff.mp hbyte
      refine ⟨Nat.digitChar digit :: cs, List.forall_mem_cons.mpr ⟨?_, hcs⟩, rfl⟩
      rw [Nat.isDigit_digitChar]
      exact decide_eq_true hdigit

theorem isDigitByte_of_isDigit {c : Char} (h : c.isDigit = true) :
    isDigitByte (asciiByte c) = true := by
  have hrange : 48 ≤ c.toNat ∧ c.toNat ≤ 57 := Char.isDigit_iff_toNat.mp h
  rw [isDigitByte, asciiByte, UInt8.toNat_ofNat', Nat.mod_eq_of_lt (by omega), Bool.and_eq_true,
    decide_eq_true_iff, decide_eq_true_iff]
  exact hrange

end Spelling

section Ascii

theorem utf8Bytes_of_ascii {cs : List Char} (h : ∀ c ∈ cs, c.toNat < 128) :
    utf8Bytes cs = asciiBytes cs := by
  induction cs with
  | nil => rfl
  | cons c cs ih =>
      obtain ⟨hc, hcs⟩ := List.forall_mem_cons.mp h
      have hbyte : String.utf8EncodeChar c = [asciiByte c] := by
        have hsmall : c.val.toNat ≤ 0x7f := Nat.le_of_lt_succ hc
        rw [String.utf8EncodeChar, if_pos hsmall]
        rfl
      rw [utf8Bytes, List.flatMap_cons, hbyte]
      exact congrArg (asciiByte c :: ·) (ih hcs)

end Ascii

end Positions
