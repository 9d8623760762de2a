import PodmanLens.AddressMask
import PodmanLens.AddressParse
import PodmanLens.Networking

/-!
# CIDR texts

A CIDR is stored as its canonical text and read again by every question about it. The text holds
one network, so what the questions answer is what the network answers, no bit is set behind the
prefix, and no mask shifts by the width of its word.
-/

namespace PodmanLens
open Net Text

/-- The mask of a prefix; nothing where the subtraction or the shift overflows. -/
def checkedMask (width prefixLength : ℕ) : Option (BitVec width) :=
  if prefixLength = 0 then some 0
  else if prefixLength ≤ width ∧ width - prefixLength < width then
    some (BitVec.allOnes width <<< (width - prefixLength))
  else none

def maskedAddress : IpAddr → ℕ → Option IpAddr
  | .v4 a, prefixLength => (checkedMask 32 prefixLength).map fun mask => .v4 (a &&& mask)
  | .v6 a, prefixLength => (checkedMask 128 prefixLength).map fun mask => .v6 (a &&& mask)

theorem checkedMask_eq {width prefixLength : ℕ} (h : prefixLength ≤ width) :
    checkedMask width prefixLength = some (IpAddr.networkMask width prefixLength) := by
  rw [checkedMask, IpAddr.networkMask]
  split_ifs with hzero hshift
  · rfl
  · rfl
  · exact absurd ⟨h, by omega⟩ hshift

theorem maskedAddress_eq {a : IpAddr} {prefixLength : ℕ} (h : prefixLength ≤ a.width) :
    maskedAddress a prefixLength = some (a.masked prefixLength) := by
  cases a with
  | v4 bits =>
      have hmask := checkedMask_eq (show prefixLength ≤ 32 from h)
      rw [maskedAddress, hmask, Option.map_some, IpAddr.masked]
  | v6 bits =>
      have hmask := checkedMask_eq (show prefixLength ≤ 128 from h)
      rw [maskedAddress, hmask, Option.map_some, IpAddr.masked]

/-- The address and the prefix length around the first slash of a text. -/
def addressAndPrefix (value : String) : Option (IpAddr × ℕ) :=
  match splitOnce '/' value.toList with
  | none => none
  | some (address, prefixLength) => do
    return (← parseIpAddr address, ← parseUnsigned 255 prefixLength)

/-- The network that a text spells. -/
def NetworkCidr.ofText (value : String) : PodmanLensResult NetworkCidr :=
  match addressAndPrefix value with
  | none => .error .invalidDeploymentIntent
  | some (address, prefixLength) =>
    if 128 < value.utf8ByteSize then .error .invalidDeploymentIntent
    else NetworkCidr.ofParts address prefixLength

/-- A CIDR as it is stored: the canonical text of a network. -/
structure CidrText where
  asStr : String
  canonical : ∃ cidr : NetworkCidr, cidr.asStr = asStr
  deriving DecidableEq

namespace CidrText

def ofCidr (cidr : NetworkCidr) : CidrText := ⟨cidr.asStr, cidr, rfl⟩

theorem masked_canonical {address network : IpAddr} {prefixLength : ℕ}
    (hpre : prefixLength ≤ address.width)
    (hmasked : maskedAddress address prefixLength = some network) :
    ∃ cidr : NetworkCidr, cidr.asStr = network.display ++ "/" ++ prefixLength.repr := by
  rw [maskedAddress_eq hpre, Option.some_inj] at hmasked
  subst hmasked
  exact ⟨⟨address.masked prefixLength, prefixLength, by rwa [IpAddr.width_masked],
    IpAddr.masked_masked address prefixLength⟩, rfl⟩

/-- Reads and masks a text; nothing where the mask overflows. -/
def new (value : String) : Option (PodmanLensResult CidrText) :=
  match addressAndPrefix value with
  | none => some (.error .invalidDeploymentIntent)
  | some (address, prefixLength) =>
    if h : 128 < value.utf8ByteSize ∨ address.width < prefixLength then
      some (.error .invalidDeploymentIntent)
    else
      match hmasked : maskedAddress address prefixLength with
      | none => none
      | some network => some (.ok ⟨network.display ++ "/" ++ prefixLength.repr,
          masked_canonical (by omega) hmasked⟩)

def hasAddressFamily (cidr : CidrText) (address : IpAddr) : Bool :=
  match splitOnce '/' cidr.asStr.toList with
  | none => false
  | some (network, _) => (parseIpAddr network).any fun n => n.isIpv4 == address.isIpv4

/-- Whether the address lies in the CIDR; nothing where the mask overflows. -/
def contains (cidr : CidrText) (address : IpAddr) : Option Bool :=
  match addressAndPrefix cidr.asStr with
  | none => some false
  | some (network, prefixLength) =>
    if network.isIpv4 ≠ address.isIpv4 then some false
    else (maskedAddress address prefixLength).map (network == ·)

end CidrText

section Stored

variable (cidr : NetworkCidr)

theorem NetworkCidr.prefixLength_le : cidr.prefixLength ≤ 128 := by
  have hbounded := cidr.bounded
  cases hnetwork : cidr.network <;> rw [hnetwork, IpAddr.width] at hbounded <;> omega

theorem NetworkCidr.utf8ByteSize_asStr : cidr.asStr.utf8ByteSize ≤ 128 := by
  have hdisplay : cidr.network.display.utf8ByteSize ≤ 39 := by
    rw [utf8ByteSize_eq, byteLength_of_isAddressChar cidr.network.addressText_display]
    exact length_display cidr.network
  have hpre : cidr.prefixLength.repr.utf8ByteSize ≤ 3 := by
    rw [utf8ByteSize_eq, byteLength_of_isAddressChar (addressText_repr cidr.prefixLength)]
    exact length_repr_le (by have := cidr.prefixLength_le; omega)
  have hslash : "/".utf8ByteSize = 1 := by decide
  rw [asStr, String.utf8ByteSize_append, String.utf8ByteSize_append]
  omega

theorem NetworkCidr.splitOnce_asStr : splitOnce '/' cidr.asStr.toList =
    some (cidr.network.display.toList, cidr.prefixLength.repr.toList) := by
  have hshape : cidr.asStr.toList =
      cidr.network.display.toList ++ '/' :: cidr.prefixLength.repr.toList := by
    simp [NetworkCidr.asStr]
  rw [hshape, splitOnce_append (cidr.network.addressText_display.notMem (by decide))]

/-- The stored text spells the network and its prefix length. -/
theorem NetworkCidr.addressAndPrefix_asStr :
    addressAndPrefix cidr.asStr = some (cidr.network, cidr.prefixLength) := by
  have hpre : parseUnsigned 255 cidr.prefixLength.repr.toList = some cidr.prefixLength :=
    parseUnsigned_repr (cidr.prefixLength_le.trans (by omega))
  rw [addressAndPrefix, cidr.splitOnce_asStr]
  dsimp only
  rw [parseIpAddr_display, hpre]
  rfl

theorem NetworkCidr.ofText_asStr : NetworkCidr.ofText cidr.asStr = .ok cidr := by
  rw [ofText, cidr.addressAndPrefix_asStr]
  dsimp only
  rw [if_neg (by have := cidr.utf8ByteSize_asStr; omega), ofParts, dif_pos cidr.bounded]
  congr
  exact cidr.canonical

theorem NetworkCidr.asStr_injective : Function.Injective NetworkCidr.asStr := by
  intro a b h
  have hread := a.ofText_asStr
  rw [h, b.ofText_asStr] at hread
  exact (Except.ok.inj hread).symm

end Stored

namespace CidrText

theorem exists_ofCidr (cidr : CidrText) : ∃ network : NetworkCidr, cidr = ofCidr network := by
  obtain ⟨text, network, htext⟩ := cidr
  exact ⟨network, by rw [ofCidr, mk.injEq, htext]⟩

theorem ofCidr_injective : Function.Injective ofCidr := fun _ _ h =>
  NetworkCidr.asStr_injective (congrArg asStr h)

/-- The mask is always computed, and what is stored is the network the text spells. -/
theorem new_eq (value : String) : new value = some ((NetworkCidr.ofText value).map ofCidr) := by
  rw [new, NetworkCidr.ofText]
  cases addressAndPrefix value with
  | none => rfl
  | some parts =>
      obtain ⟨address, prefixLength⟩ := parts
      dsimp only
      by_cases hlength : 128 < value.utf8ByteSize
      · rw [dif_pos (.inl hlength), if_pos hlength]
        rfl
      · rw [if_neg hlength, NetworkCidr.ofParts]
        by_cases hpre : prefixLength ≤ address.width
        · rw [dif_neg (by omega), dif_pos hpre]
          split
          · next hmasked => rw [maskedAddress_eq hpre] at hmasked; cases hmasked
          · next network hmasked =>
              rw [maskedAddress_eq hpre, Option.some_inj] at hmasked
              subst hmasked
              rfl
        · rw [dif_pos (.inr (by omega)), dif_neg hpre]
          rfl

/-- Reading the stored text again asks the network itself. -/
theorem contains_ofCidr (network : NetworkCidr) (address : IpAddr) :
    (ofCidr network).contains address = some (network.contains address) := by
  have hparts : addressAndPrefix (ofCidr network).asStr = _ := network.addressAndPrefix_asStr
  rw [contains, hparts, NetworkCidr.contains, NetworkCidr.hasAddressFamily]
  dsimp only
  by_cases hfamily : network.network.isIpv4 = address.isIpv4
  · have hpre : network.prefixLength ≤ address.width :=
      IpAddr.width_eq_of_family hfamily ▸ network.bounded
    rw [if_neg (not_not.mpr hfamily), maskedAddress_eq hpre, hfamily, beq_self_eq_true,
      Bool.true_and, Option.map_some]
  · rw [if_pos hfamily, beq_false_of_ne hfamily, Bool.false_and]

end CidrText

theorem NetworkCidr.contains_iff (network : NetworkCidr) (address : IpAddr) :
    network.contains address = true ↔ address.isIpv4 = network.network.isIpv4 ∧
      ∀ i < network.prefixLength, address.bit i = network.network.bit i := by
  rw [contains, hasAddressFamily, Bool.and_eq_true, beq_iff_eq, beq_iff_eq]
  constructor
  · rintro ⟨hfamily, hnetwork⟩
    have hpre : network.prefixLength ≤ address.width :=
      IpAddr.width_eq_of_family hfamily ▸ network.bounded
    refine ⟨hfamily.symm, fun i hi => ?_⟩
    rw [hnetwork, IpAddr.bit_masked hpre, decide_eq_true hi, Bool.and_true]
  · rintro ⟨hfamily, h⟩
    refine ⟨hfamily.symm, ?_⟩
    rw [← network.canonical]
    exact ((IpAddr.masked_eq_iff network.bounded).mpr
      ⟨hfamily.symm, fun i hi => (h i hi).symm⟩)

theorem NetworkCidr.bit_eq_false (network : NetworkCidr) {i : ℕ} (h : network.prefixLength ≤ i) :
    network.network.bit i = false := by
  rw [← network.canonical, IpAddr.bit_masked network.bounded,
    decide_eq_false (Nat.not_lt.mpr h), Bool.and_false]

/-- Two readings denote one network: the same family, prefix length and network bits. -/
structure SameNetwork (a b : IpAddr × ℕ) : Prop where
  family : a.1.isIpv4 = b.1.isIpv4
  prefixLength : a.2 = b.2
  bits : ∀ i < a.2, a.1.bit i = b.1.bit i

/-- What an accepted text spells, and the network that is stored for it. -/
theorem NetworkCidr.ofText_eq_ok {value : String} {network : NetworkCidr}
    (h : NetworkCidr.ofText value = .ok network) :
    ∃ address, addressAndPrefix value = some (address, network.prefixLength) ∧
      network.prefixLength ≤ address.width ∧
        network.network = address.masked network.prefixLength := by
  rw [ofText] at h
  cases hparts : addressAndPrefix value with
  | none =>
      rw [hparts] at h
      cases h
  | some parts =>
      obtain ⟨address, prefixLength⟩ := parts
      rw [hparts] at h
      dsimp only at h
      rw [ofParts] at h
      split_ifs at h with hlength hpre
      cases h
      exact ⟨address, rfl, hpre, rfl⟩

theorem NetworkCidr.eq_of_parts {a b : NetworkCidr} (hnetwork : a.network = b.network)
    (hpre : a.prefixLength = b.prefixLength) : a = b := by
  cases a
  cases b
  cases hnetwork
  cases hpre
  rfl

theorem NetworkCidr.eq_iff_sameNetwork {value other : String} {a b : NetworkCidr}
    {parts parts' : IpAddr × ℕ} (ha : NetworkCidr.ofText value = .ok a)
    (hb : NetworkCidr.ofText other = .ok b) (hparts : addressAndPrefix value = some parts)
    (hparts' : addressAndPrefix other = some parts') : a = b ↔ SameNetwork parts parts' := by
  obtain ⟨address, haddress, hbound, hnetwork⟩ := ofText_eq_ok ha
  obtain ⟨address', haddress', hbound', hnetwork'⟩ := ofText_eq_ok hb
  cases hparts.symm.trans haddress
  cases hparts'.symm.trans haddress'
  constructor
  · rintro rfl
    obtain ⟨hfamily, hbits⟩ := (IpAddr.masked_eq_iff hbound).mp (hnetwork.symm.trans hnetwork')
    exact ⟨hfamily, rfl, hbits⟩
  · rintro ⟨hfamily, hpre, hbits⟩
    have hmasked := (IpAddr.masked_eq_iff hbound).mpr ⟨hfamily, hbits⟩
    refine eq_of_parts ?_ hpre
    rw [hnetwork, hmasked, hnetwork', show a.prefixLength = b.prefixLength from hpre]

/-- An accepted text is stored canonically, and every question about the stored text is a question
about the bits of its network. -/
theorem CidrText.new_canonical {value : String} {cidr : CidrText}
    (h : CidrText.new value = some (.ok cidr)) :
    CidrText.new cidr.asStr = some (.ok cidr) ∧
      (∃ network prefixLength, addressAndPrefix cidr.asStr = some (network, prefixLength) ∧
        (∀ i, prefixLength ≤ i → network.bit i = false) ∧
        ∀ address, cidr.contains address = some true ↔
          address.isIpv4 = network.isIpv4 ∧ ∀ i < prefixLength, address.bit i = network.bit i) ∧
      (∀ other cidr', CidrText.new other = some (.ok cidr') →
        ∃ parts parts', addressAndPrefix value = some parts ∧
          addressAndPrefix other = some parts' ∧ (cidr = cidr' ↔ SameNetwork parts parts')) ∧
      (∀ address prefixLength, prefixLength ≤ address.width →
        maskedAddress address prefixLength ≠ none) ∧
      (∀ text, CidrText.new text ≠ none) ∧
        ∀ (stored : CidrText) (address : IpAddr), stored.contains address ≠ none := by
  have hofText {text : String} {stored : CidrText} (h : new text = some (.ok stored)) :
      ∃ network, NetworkCidr.ofText text = .ok network ∧ stored = ofCidr network := by
    rw [new_eq, Option.some_inj] at h
    cases hread : NetworkCidr.ofText text with
    | error diagnostic => rw [hread] at h; cases h
    | ok network => rw [hread] at h; exact ⟨network, rfl, (Except.ok.inj h).symm⟩
  obtain ⟨network, hnetwork, rfl⟩ := hofText h
  refine ⟨?_, ⟨network.network, network.prefixLength, network.addressAndPrefix_asStr,
    fun i => network.bit_eq_false, fun address => ?_⟩, fun other cidr' hother => ?_,
    fun address prefixLength hpre => ?_, fun text => ?_, fun stored address => ?_⟩
  · have hread : NetworkCidr.ofText (ofCidr network).asStr = .ok network := network.ofText_asStr
    rw [new_eq, hread]
    rfl
  · rw [contains_ofCidr, Option.some_inj, network.contains_iff]
  · obtain ⟨network', hnetwork', rfl⟩ := hofText hother
    obtain ⟨address, hparts, -, -⟩ := NetworkCidr.ofText_eq_ok hnetwork
    obtain ⟨address', hparts', -, -⟩ := NetworkCidr.ofText_eq_ok hnetwork'
    refine ⟨_, _, hparts, hparts', ?_⟩
    rw [ofCidr_injective.eq_iff]
    exact NetworkCidr.eq_iff_sameNetwork hnetwork hnetwork' hparts hparts'
  · rw [maskedAddress_eq hpre]
    exact Option.some_ne_none _
  · rw [new_eq]
    exact Option.some_ne_none _
  · obtain ⟨network, rfl⟩ := stored.exists_ofCidr
    rw [contains_ofCidr]
    exact Option.some_ne_none _

def documentationCidr : NetworkCidr :=
  ⟨.v6 0x20010db8000000000000000000000000#128, 32, by decide, by decide⟩

theorem CidrText.new_canonical_sample :
    CidrText.new (ofCidr documentationCidr).asStr = some (.ok (ofCidr documentationCidr)) :=
  (new_canonical (show CidrText.new "2001:DB8::7/032" = some (.ok (ofCidr documentationCidr)) by
    rw [new_eq]
    rfl)).1

end PodmanLens
