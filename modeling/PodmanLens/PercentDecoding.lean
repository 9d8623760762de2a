import PodmanLens.Fields

/-!
# Percent decoding

An escaped text is read once from the left: a percent sign with two hexadecimal digits stands for
one byte, and every other character for its own bytes. Reading respects a separator that is not a
hexadecimal digit, so the parts of a decoded text are the decoded parts.
-/

namespace Text

def utf8Bytes (cs : List Char) : List UInt8 := cs.flatMap String.utf8EncodeChar

def nibble (c : Char) : ℕ :=
  if c.isDigit then c.toNat - 48
  else if 'a' ≤ c && c ≤ 'f' then c.toNat - 87
  else if 'A' ≤ c && c ≤ 'F' then c.toNat - 55
  else 0

def escapedByte (high low : Char) : UInt8 := .ofNat (16 * nibble high + nibble low)

inductive Piece
  | plain (c : Char)
  | escape (byte : UInt8)

def Piece.bytes : Piece → List UInt8
  | .plain c => String.utf8EncodeChar c
  | .escape byte => [byte]

def pieces : List Char → List Piece
  | [] => []
  | c :: high :: low :: rest =>
    if c = '%' && isHexDigit high && isHexDigit low then
      .escape (escapedByte high low) :: pieces rest
    else .plain c :: pieces (high :: low :: rest)
  | c :: rest => .plain c :: pieces rest

def percentDecode (cs : List Char) : List UInt8 := (pieces cs).flatMap Piece.bytes

section Pieces

theorem pieces_escape {high low : Char} (hhigh : isHexDigit high = true)
    (hlow : isHexDigit low = true) (rest : List Char) :
    pieces ('%' :: high :: low :: rest) = .escape (escapedByte high low) :: pieces rest := by
  simp [pieces, hhigh, hlow]

theorem pieces_cons {c : Char} (h : c ≠ '%') (rest : List Char) :
    pieces (c :: rest) = .plain c :: pieces rest := by
  match rest with
  | [] => rfl
  | [_] => rfl
  | _ :: _ :: _ => simp [pieces, h]

/-- No escape starts right before a character that is no hexadecimal digit. -/
theorem pieces_cons_cons {c d : Char} (hd : isHexDigit d = false) (rest : List Char) :
    pieces (c :: d :: rest) = .plain c :: pieces (d :: rest) := by
  cases rest with
  | nil => rfl
  | cons e rest => simp [pieces, hd]

/-- A character that is no hexadecimal digit ends every escape before it. -/
theorem pieces_append_cons {d : Char} (hd : isHexDigit d = false) (front rest : List Char) :
    pieces (front ++ d :: rest) = pieces front ++ pieces (d :: rest) := by
  fun_induction pieces front with
  | case1 => rfl
  | case2 c high low front hescape ih =>
      rw [Bool.and_eq_true, Bool.and_eq_true, decide_eq_true_eq] at hescape
      obtain ⟨⟨rfl, hhigh⟩, hlow⟩ := hescape
      simp only [List.cons_append, pieces_escape hhigh hlow, ih]
  | case3 c high low front hescape ih =>
      simp only [List.cons_append] at ih ⊢
      rw [pieces, if_neg hescape, ih]
  | case4 c front hshort ih =>
      match front with
      | [] => exact pieces_cons_cons hd rest
      | [high] =>
          have hfirst : pieces (c :: high :: d :: rest) = .plain c :: pieces (high :: d :: rest) := by
            simp [pieces, hd]
          rw [List.cons_append, List.singleton_append, hfirst, pieces_cons_cons hd]
          rfl
      | high :: low :: front => exact absurd rfl (hshort high low front)

theorem pieces_intercalate {d : Char} (hd : isHexDigit d = false) (hescape : d ≠ '%')
    (parts : List (List Char)) :
    pieces ([d].intercalate parts) = [Piece.plain d].intercalate (parts.map pieces) := by
  induction parts with
  | nil => rfl
  | cons part rest ih =>
      cases rest with
      | nil => simp
      | cons next rest =>
          rw [List.intercalate_cons_cons, List.append_assoc, List.singleton_append,
            pieces_append_cons hd, pieces_cons hescape, ih, List.map_cons, List.map_cons,
            List.map_cons, List.intercalate_cons_cons, List.append_assoc, List.singleton_append]

theorem mem_intercalate {α : Type*} {separator x : α} {parts : List (List α)}
    (h : x ∈ [separator].intercalate parts) : x = separator ∨ ∃ part ∈ parts, x ∈ part := by
  induction parts with
  | nil => cases h
  | cons part rest ih =>
      cases rest with
      | nil => exact Or.inr ⟨part, List.mem_cons_self, by simpa using h⟩
      | cons next rest =>
          rw [List.intercalate_cons_cons, List.mem_append, List.mem_append,
            List.mem_singleton] at h
          rcases h with (h | h) | h
          · exact Or.inr ⟨part, List.mem_cons_self, h⟩
          · exact Or.inl h
          · exact (ih h).imp_right fun ⟨part, hpart, hx⟩ => ⟨part, List.mem_cons_of_mem _ hpart, hx⟩

theorem flatMap_intercalate {α β : Type*} (f : α → List β) {separator : α} {image : β}
    (h : f separator = [image]) (parts : List (List α)) :
    ([separator].intercalate parts).flatMap f = [image].intercalate (parts.map (·.flatMap f)) := by
  induction parts with
  | nil => rfl
  | cons part rest ih =>
      cases rest with
      | nil => simp
      | cons next rest =>
          rw [List.intercalate_cons_cons, List.flatMap_append, List.flatMap_append,
            List.flatMap_singleton, h, ih, List.map_cons, List.map_cons, List.map_cons,
            List.intercalate_cons_cons]

end Pieces

section Decoding

theorem percentDecode_escape {high low : Char} (hhigh : isHexDigit high = true)
    (hlow : isHexDigit low = true) (rest : List Char) :
    percentDecode ('%' :: high :: low :: rest) = escapedByte high low :: percentDecode rest := by
  rw [percentDecode, pieces_escape hhigh hlow, List.flatMap_cons]
  rfl

theorem percentDecode_cons {c : Char} (h : c ≠ '%') (rest : List Char) :
    percentDecode (c :: rest) = String.utf8EncodeChar c ++ percentDecode rest := by
  rw [percentDecode, pieces_cons h, List.flatMap_cons]
  rfl

/-- The parts of a text between separators decode to the parts of the decoded text. -/
theorem percentDecode_intercalate {d : Char} {image : UInt8} (hd : isHexDigit d = false)
    (hescape : d ≠ '%') (himage : String.utf8EncodeChar d = [image]) (parts : List (List Char)) :
    percentDecode ([d].intercalate parts) = [image].intercalate (parts.map percentDecode) := by
  have hplain : Piece.bytes (.plain d) = [image] := himage
  rw [percentDecode, pieces_intercalate hd hescape, flatMap_intercalate _ hplain, List.map_map]
  rfl

/-- Decoding makes no more copies of a byte that no escape stands for. -/
theorem count_percentDecode_le {byte : UInt8} {cs : List Char} (h : .escape byte ∉ pieces cs) :
    (percentDecode cs).count byte ≤ (utf8Bytes cs).count byte := by
  have hcons (c : Char) (rest : List Char) :
      utf8Bytes (c :: rest) = String.utf8EncodeChar c ++ utf8Bytes rest := rfl
  rw [percentDecode]
  fun_induction pieces cs with
  | case1 => rfl
  | case2 c high low rest hescape ih =>
      rw [List.mem_cons, not_or] at h
      have hne : escapedByte high low ≠ byte := fun heq => h.1 (by rw [heq])
      rw [List.flatMap_cons, Piece.bytes, List.singleton_append, List.count_cons_of_ne hne, hcons,
        hcons, hcons, List.count_append, List.count_append, List.count_append]
      exact (ih h.2).trans (by omega)
  | case3 c high low rest hescape ih =>
      rw [List.mem_cons, not_or] at h
      rw [List.flatMap_cons, Piece.bytes, hcons, List.count_append, List.count_append]
      exact Nat.add_le_add_left (ih h.2) _
  | case4 c rest hshort ih =>
      rw [List.mem_cons, not_or] at h
      rw [List.flatMap_cons, Piece.bytes, hcons, List.count_append, List.count_append]
      exact Nat.add_le_add_left (ih h.2) _

/-- Whether a spelling stands for one byte: its plain character, or an escape of it. -/
def spellsByte (byte : UInt8) : List Char → Bool
  | [c] => c ≠ '%' && String.utf8EncodeChar c == [byte]
  | [c, high, low] =>
    c == '%' && isHexDigit high && isHexDigit low && escapedByte high low == byte
  | _ => false

theorem percentDecode_append_of_spells {byte : UInt8} {spelling : List Char}
    (h : spellsByte byte spelling = true) (rest : List Char) :
    percentDecode (spelling ++ rest) = byte :: percentDecode rest := by
  match spelling with
  | [c] =>
      simp only [spellsByte, Bool.and_eq_true, decide_eq_true_eq, beq_iff_eq] at h
      rw [List.singleton_append, percentDecode_cons h.1, h.2, List.singleton_append]
  | [c, high, low] =>
      simp only [spellsByte, Bool.and_eq_true, beq_iff_eq] at h
      obtain ⟨⟨⟨rfl, hhigh⟩, hlow⟩, rfl⟩ := h
      exact percentDecode_escape hhigh hlow rest

theorem percentDecode_flatMap {spell : UInt8 → List Char}
    (h : ∀ byte, spellsByte byte (spell byte) = true) (bytes : List UInt8) :
    percentDecode (bytes.flatMap spell) = bytes := by
  induction bytes with
  | nil => rfl
  | cons byte bytes ih => rw [List.flatMap_cons, percentDecode_append_of_spells (h byte), ih]

/-- A text without percent signs stands for its own bytes. -/
theorem percentDecode_of_plain {cs : List Char} (h : '%' ∉ cs) :
    percentDecode cs = utf8Bytes cs := by
  induction cs with
  | nil => rfl
  | cons c cs ih =>
      rw [List.mem_cons, not_or] at h
      rw [percentDecode_cons (Ne.symm h.1), ih h.2]
      rfl

theorem utf8Bytes_injective {a b : String} (h : utf8Bytes a.toList = utf8Bytes b.toList) :
    a = b := by
  apply String.toByteArray_inj.mp
  rw [← String.utf8Encode_toList, ← String.utf8Encode_toList, List.utf8Encode, List.utf8Encode]
  exact congrArg _ h

end Decoding

end Text
