import PodmanLens.Text

/-!
# IP addresses and their canonical spelling

`IpAddr.display` is the canonical text of an address: dotted decimal octets for IPv4, and for IPv6
lower-case hexadecimal segments with the first longest run of at least two zero segments elided
and IPv4-mapped addresses spelled with a dotted tail. Masking, family and order are arithmetic on
the address bits. Every spelled character is a lower-case hexadecimal digit, a colon or a dot.
-/

namespace Net
open Text

inductive IpAddr
  | v4 (bits : BitVec 32)
  | v6 (bits : BitVec 128)
  deriving DecidableEq

namespace IpAddr

def isIpv4 : IpAddr → Bool
  | .v4 _ => true
  | .v6 _ => false

/-- Addresses of different families are unordered. -/
def precedesOrEquals : IpAddr → IpAddr → Bool
  | .v4 a, .v4 b => a.toNat ≤ b.toNat
  | .v6 a, .v6 b => a.toNat ≤ b.toNat
  | _, _ => false

def networkMask (width prefixLength : ℕ) : BitVec width :=
  if prefixLength = 0 then 0 else BitVec.allOnes width <<< (width - prefixLength)

def masked : IpAddr → ℕ → IpAddr
  | .v4 a, prefixLength => .v4 (a &&& networkMask 32 prefixLength)
  | .v6 a, prefixLength => .v6 (a &&& networkMask 128 prefixLength)

def width : IpAddr → ℕ
  | .v4 _ => 32
  | .v6 _ => 128

@[simp] theorem width_masked (a : IpAddr) (prefixLength : ℕ) :
    (a.masked prefixLength).width = a.width := by cases a <;> rfl

theorem masked_masked (a : IpAddr) (prefixLength : ℕ) :
    (a.masked prefixLength).masked prefixLength = a.masked prefixLength := by
  cases a with
  | v4 bits => simp only [masked, BitVec.and_assoc, BitVec.and_self]
  | v6 bits => simp only [masked, BitVec.and_assoc, BitVec.and_self]

end IpAddr

def octets (a : BitVec 32) : List ℕ :=
  [24, 16, 8, 0].map fun shift => (a >>> shift).toNat % 256

def segments (a : BitVec 128) : List ℕ :=
  [112, 96, 80, 64, 48, 32, 16, 0].map fun shift => (a >>> shift).toNat % 65536

def displayIpv4 (a : BitVec 32) : String := joinWith "." ((octets a).map Nat.repr)

def hex (n : ℕ) : String := String.ofList (Nat.toDigits 16 n)

def displaySegments (values : List ℕ) : String := joinWith ":" (values.map hex)

structure Span where
  start : ℕ
  length : ℕ

/-- One step of the scan for the first longest run of zero segments. -/
def scanZero (state : Span × Span) (entry : ℕ × ℕ) : Span × Span :=
  let (longest, current) := state
  let (segment, index) := entry
  if segment = 0 then
    let current := if current.length = 0 then ⟨index, 1⟩ else ⟨current.start, current.length + 1⟩
    (if longest.length < current.length then current else longest, current)
  else (longest, ⟨0, 0⟩)

def longestZeroRun (values : List ℕ) : Span :=
  (values.zipIdx.foldl scanZero (⟨0, 0⟩, ⟨0, 0⟩)).1

def displayIpv6 (a : BitVec 128) : String :=
  match segments a with
  | [0, 0, 0, 0, 0, 0xffff, _, _] => "::ffff:" ++ displayIpv4 (a.truncate 32)
  | values =>
    let zeroes := longestZeroRun values
    if 1 < zeroes.length then
      displaySegments (values.take zeroes.start) ++ "::" ++
        displaySegments (values.drop (zeroes.start + zeroes.length))
    else displaySegments values

def IpAddr.display : IpAddr → String
  | .v4 a => displayIpv4 a
  | .v6 a => displayIpv6 a

/-- The characters an address can be spelled with. -/
def isAddressChar (c : Char) : Bool :=
  c.isDigit || ('a' ≤ c && c ≤ 'f') || c == ':' || c == '.'

def AddressText (s : String) : Prop := ∀ c ∈ s.toList, isAddressChar c = true

theorem addressText_append {s t : String} (hs : AddressText s) (ht : AddressText t) :
    AddressText (s ++ t) := by
  intro c hc
  rw [String.toList_append, List.mem_append] at hc
  exact hc.elim (hs c) (ht c)

theorem addressText_joinWith {separator : String} {values : List String}
    (hsep : AddressText separator) (hvalues : ∀ s ∈ values, AddressText s) :
    AddressText (joinWith separator values) := by
  induction values with
  | nil => intro c hc; simp [joinWith] at hc
  | cons s rest ih =>
      have hs := hvalues s (by simp)
      have hrest := ih (fun t ht => hvalues t (by simp [ht]))
      cases rest with
      | nil => exact hs
      | cons t tail => exact addressText_append (addressText_append hs hsep) hrest

theorem digitChar_isAddressChar {d : ℕ} (hd : d < 16) : isAddressChar d.digitChar = true := by
  interval_cases d <;> decide

theorem toDigits_isAddressChar {b : ℕ} (hb : 1 < b) (hb' : b ≤ 16) (n : ℕ) :
    ∀ c ∈ Nat.toDigits b n, isAddressChar c = true := by
  induction n using Nat.strongRecOn with
  | ind n ih =>
      intro c hc
      rw [Nat.toDigits_eq_if hb] at hc
      split_ifs at hc with hn
      · rw [List.mem_singleton.mp hc]
        exact digitChar_isAddressChar (by omega)
      · rcases List.mem_append.mp hc with hc | hc
        · exact ih (n / b) (Nat.div_lt_self (by omega) hb) c hc
        · rw [List.mem_singleton.mp hc]
          exact digitChar_isAddressChar ((Nat.mod_lt n (by omega)).trans_le hb')

theorem addressText_repr (n : ℕ) : AddressText n.repr := by
  intro c hc
  rw [Nat.toList_repr] at hc
  exact toDigits_isAddressChar (by omega) (by omega) n c hc

theorem addressText_hex (n : ℕ) : AddressText (hex n) := by
  intro c hc
  rw [hex, String.toList_ofList] at hc
  exact toDigits_isAddressChar (by omega) (by omega) n c hc

theorem addressText_displayIpv4 (a : BitVec 32) : AddressText (displayIpv4 a) := by
  apply addressText_joinWith (by intro c; simp; rintro rfl; decide)
  intro s hs
  obtain ⟨n, -, rfl⟩ := List.mem_map.mp hs
  exact addressText_repr n

theorem addressText_displaySegments (values : List ℕ) : AddressText (displaySegments values) := by
  apply addressText_joinWith (by intro c; simp; rintro rfl; decide)
  intro s hs
  obtain ⟨n, -, rfl⟩ := List.mem_map.mp hs
  exact addressText_hex n

theorem addressText_of_all {s : String} (h : s.toList.all isAddressChar = true) :
    AddressText s := by
  simpa [AddressText] using h

theorem addressText_displayIpv6 (a : BitVec 128) : AddressText (displayIpv6 a) := by
  unfold displayIpv6
  split
  · exact addressText_append (addressText_of_all (by decide)) (addressText_displayIpv4 _)
  · dsimp only
    split_ifs
    · exact addressText_append (addressText_append (addressText_displaySegments _)
        (addressText_of_all (by decide))) (addressText_displaySegments _)
    · exact addressText_displaySegments _

theorem IpAddr.addressText_display (a : IpAddr) : AddressText a.display := by
  cases a with
  | v4 bits => exact addressText_displayIpv4 bits
  | v6 bits => exact addressText_displayIpv6 bits

theorem isControl_of_isAddressChar {c : Char} (h : isAddressChar c = true) :
    isControl c = false := by
  simp only [isAddressChar, Char.isDigit, Bool.or_eq_true, Bool.and_eq_true, decide_eq_true_eq,
    beq_iff_eq, Char.le_def, UInt32.le_iff_toNat_le, ge_iff_le] at h
  rcases h with ((h | h) | rfl) | rfl
  · change 48 ≤ c.toNat ∧ c.toNat ≤ 57 at h
    exact isControl_eq_false_of_range (by omega) (by omega)
  · change 97 ≤ c.toNat ∧ c.toNat ≤ 102 at h
    exact isControl_eq_false_of_range (by omega) (by omega)
  · decide
  · decide

theorem AddressText.controlFree {s : String} (h : AddressText s) : ControlFree s :=
  fun c hc => isControl_of_isAddressChar (h c hc)

theorem AddressText.notMem {s : String} (h : AddressText s) {c : Char}
    (hc : isAddressChar c = false) : c ∉ s.toList := by
  intro hmem
  rw [h c hmem] at hc
  cases hc

example : (IpAddr.v6 0x20010db8000000000000000000000050#128).display = "2001:db8::50" := by decide

end Net
