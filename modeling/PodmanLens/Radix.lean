import PodmanLens.Text

/-!
# Digits in a radix

Reading a character as a digit and a text as a number, with the optional leading plus sign that
machine integers accept. Printed numerals are read back, and a hexadecimal digit keeps its value in
lower case.
-/

namespace Text

/-- The value of an alphanumeric character as a digit. -/
def digitValue (c : Char) : Option ℕ :=
  if c.isDigit then some (c.toNat - 48)
  else if 'a' ≤ c ∧ c ≤ 'z' then some (c.toNat - 87)
  else if 'A' ≤ c ∧ c ≤ 'Z' then some (c.toNat - 55)
  else none

def toDigit (radix : ℕ) (c : Char) : Option ℕ := (digitValue c).filter (· < radix)

def radixValue (radix : ℕ) (digits : List ℕ) : ℕ :=
  digits.foldl (fun value digit => radix * value + digit) 0

/-- A plus sign is dropped when something follows it. -/
def stripPlus : List Char → List Char
  | '+' :: first :: rest => first :: rest
  | cs => cs

/-- Digits with an optional leading plus sign, bounded by a machine width. -/
def parseRadix (radix maximum : ℕ) (cs : List Char) : Option ℕ :=
  ((stripPlus cs).mapM (toDigit radix)).bind fun values =>
    if values ≠ [] ∧ radixValue radix values ≤ maximum then some (radixValue radix values)
    else none

/-- A decimal numeral that a machine width bounds. -/
def Decimal (maximum : ℕ) (cs : List Char) : Prop :=
  cs ≠ [] ∧ (∀ c ∈ cs, c.isDigit = true) ∧ digitsValue cs ≤ maximum

theorem Decimal.notMem {maximum : ℕ} {cs : List Char} (h : Decimal maximum cs) {c : Char}
    (hc : c.isDigit = false) : c ∉ cs := by
  intro hmem
  rw [h.2.1 c hmem] at hc
  cases hc

/-- The decimal parser takes a numeral, and one after a plus sign. -/
theorem parseUnsigned_eq_some {maximum value : ℕ} {cs : List Char} :
    parseUnsigned maximum cs = some value ↔
      ∃ digits, (cs = digits ∨ cs = '+' :: digits) ∧ Decimal maximum digits ∧
        digitsValue digits = value := by
  have hsome : ∀ digits : List Char, (if digits ≠ [] ∧ digits.all Char.isDigit ∧
      digitsValue digits ≤ maximum then some (digitsValue digits) else none) = some value ↔
        Decimal maximum digits ∧ digitsValue digits = value := by
    intro digits
    rw [Option.ite_none_right_eq_some, Option.some.injEq, List.all_eq_true, Decimal]
  unfold parseUnsigned
  dsimp only
  rw [hsome]
  split
  · next rest =>
      constructor
      · exact fun h => ⟨rest, Or.inr rfl, h⟩
      · rintro ⟨digits, rfl | heq, h⟩
        · exact absurd List.mem_cons_self (h.1.notMem (c := '+') rfl)
        · cases heq
          exact h
  · next hsign =>
      constructor
      · exact fun h => ⟨cs, Or.inl rfl, h⟩
      · rintro ⟨digits, rfl | rfl, h⟩
        · exact h
        · exact absurd rfl (hsign digits)

theorem digitsValue_concat (cs : List Char) (c : Char) :
    digitsValue (cs ++ [c]) = 10 * digitsValue cs + (c.toNat - 48) := by
  rw [digitsValue, List.foldl_append]
  rfl

theorem digitsValue_toDigits (n : ℕ) : digitsValue (Nat.toDigits 10 n) = n := by
  have hdigit : ∀ d < 10, d.digitChar.toNat - 48 = d := by decide
  induction n using Nat.strongRecOn with
  | ind n ih =>
      rw [Nat.toDigits_eq_if (by omega)]
      split_ifs with hn
      · rw [digitsValue, List.foldl_cons, List.foldl_nil, hdigit n hn, Nat.mul_zero, Nat.zero_add]
      · rw [digitsValue_concat, ih (n / 10) (Nat.div_lt_self (by omega) (by omega)),
          hdigit _ (Nat.mod_lt n (by omega)), Nat.div_add_mod]

/-- A printed numeral is read back. -/
theorem parseUnsigned_repr {maximum n : ℕ} (h : n ≤ maximum) :
    parseUnsigned maximum n.repr.toList = some n := by
  refine parseUnsigned_eq_some.mpr ⟨_, .inl rfl, ⟨?_, fun c => isDigit_of_mem_repr, ?_⟩, ?_⟩
  · rw [Nat.toList_repr]
    exact Nat.toDigits_ne_nil
  · rwa [Nat.toList_repr, digitsValue_toDigits]
  · rw [Nat.toList_repr, digitsValue_toDigits]

def hexDigits : List Char := "0123456789abcdefABCDEF".toList

theorem stripPlus_of_head {cs : List Char} (h : cs.head? ≠ some '+') : stripPlus cs = cs := by
  unfold stripPlus
  split
  · exact absurd rfl h
  · rfl

theorem digitValue_digitChar : ∀ d < 16, digitValue d.digitChar = some d := by decide

theorem toDigit_digitChar {radix d : ℕ} (hd : d < radix) (hradix : radix ≤ 16) :
    toDigit radix d.digitChar = some d := by
  rw [toDigit, digitValue_digitChar d (by omega), Option.filter_some_pos (by simpa using hd)]

theorem radixValue_concat (radix : ℕ) (digits : List ℕ) (digit : ℕ) :
    radixValue radix (digits ++ [digit]) = radix * radixValue radix digits + digit := by
  rw [radixValue, List.foldl_append]
  rfl

theorem mem_hexDigits {c : Char} (h : isHexDigit c = true) : c ∈ hexDigits := by
  simp only [isHexDigit, Char.isDigit, Bool.or_eq_true, Bool.and_eq_true, decide_eq_true_eq,
    Char.le_def, UInt32.le_iff_toNat_le, ge_iff_le] at h
  change ((48 ≤ c.toNat ∧ c.toNat ≤ 57) ∨ (97 ≤ c.toNat ∧ c.toNat ≤ 102)) ∨
    (65 ≤ c.toNat ∧ c.toNat ≤ 70) at h
  rw [← Char.ofNat_toNat c]
  generalize c.toNat = n at h
  rcases h with (⟨hlow, hhigh⟩ | ⟨hlow, hhigh⟩) | ⟨hlow, hhigh⟩ <;> interval_cases n <;> decide

theorem utf8Size_of_isHexDigit {c : Char} (h : isHexDigit c = true) : c.utf8Size = 1 := by
  have hall : hexDigits.all (fun c => c.utf8Size == 1) = true := by decide
  exact beq_iff_eq.mp (List.all_eq_true.mp hall c (mem_hexDigits h))

theorem byteLength_of_isHexDigit {cs : List Char} (h : ∀ c ∈ cs, isHexDigit c = true) :
    byteLength cs = cs.length := by
  induction cs with
  | nil => rfl
  | cons c cs ih =>
      obtain ⟨hc, hcs⟩ := List.forall_mem_cons.mp h
      rw [byteLength_cons, utf8Size_of_isHexDigit hc, ih hcs, List.length_cons, add_comm]

/-- A hexadecimal digit denotes a value below sixteen, which its lower-case form prints. -/
theorem exists_toDigit_of_isHexDigit {c : Char} (h : isHexDigit c = true) :
    ∃ d < 16, toDigit 16 c = some d ∧ c.toLower = d.digitChar := by
  have hall : hexDigits.all (fun c => (List.range 16).any fun d =>
      toDigit 16 c == some d && c.toLower == d.digitChar) = true := by decide
  have hany := List.all_eq_true.mp hall c (mem_hexDigits h)
  obtain ⟨d, hd, hdigit⟩ := List.any_eq_true.mp hany
  rw [Bool.and_eq_true, beq_iff_eq, beq_iff_eq] at hdigit
  exact ⟨d, List.mem_range.mp hd, hdigit⟩

theorem isHexDigit_of_toDigit {c : Char} {d : ℕ} (h : toDigit 16 c = some d) :
    isHexDigit c = true := by
  rw [toDigit, Option.filter_eq_some_iff, decide_eq_true_eq] at h
  obtain ⟨hvalue, hd⟩ := h
  unfold digitValue at hvalue
  simp only [isHexDigit, Bool.or_eq_true, Bool.and_eq_true, decide_eq_true_eq]
  split_ifs at hvalue with hdigit hlow hhigh
  · exact Or.inl (Or.inl hdigit)
  · refine Or.inl (Or.inr ⟨hlow.1, ?_⟩)
    have hbound : 97 ≤ c.toNat := UInt32.le_iff_toNat_le.mp hlow.1
    refine UInt32.le_iff_toNat_le.mpr ?_
    change c.toNat ≤ 102
    have := Option.some.inj hvalue
    omega
  · refine Or.inr ⟨hhigh.1, ?_⟩
    have hbound : 65 ≤ c.toNat := UInt32.le_iff_toNat_le.mp hhigh.1
    refine UInt32.le_iff_toNat_le.mpr ?_
    change c.toNat ≤ 70
    have := Option.some.inj hvalue
    omega

end Text
