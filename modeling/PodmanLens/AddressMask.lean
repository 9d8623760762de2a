import PodmanLens.Address

/-!
# Network bits of an address

Bits are counted from the front of an address. Masking keeps the bits before the prefix length and
clears the others, so two addresses have the same network exactly when they agree on those bits.
-/

namespace Net

namespace IpAddr

def bit : IpAddr → ℕ → Bool
  | .v4 a, i => a.getMsbD i
  | .v6 a, i => a.getMsbD i

theorem eq_of_bits {a b : IpAddr} (hfamily : a.isIpv4 = b.isIpv4) (h : ∀ i, a.bit i = b.bit i) :
    a = b := by
  cases a with
  | v4 bits =>
      cases b with
      | v4 other => exact congrArg v4 (BitVec.eq_of_getMsbD_eq fun i _ => h i)
      | v6 other => cases hfamily
  | v6 bits =>
      cases b with
      | v4 other => cases hfamily
      | v6 other => exact congrArg v6 (BitVec.eq_of_getMsbD_eq fun i _ => h i)

theorem width_eq_of_family {a b : IpAddr} (h : a.isIpv4 = b.isIpv4) : a.width = b.width := by
  cases a with
  | v4 bits =>
      cases b with
      | v4 other => rfl
      | v6 other => cases h
  | v6 bits =>
      cases b with
      | v4 other => cases h
      | v6 other => rfl

@[simp] theorem isIpv4_masked (a : IpAddr) (prefixLength : ℕ) :
    (a.masked prefixLength).isIpv4 = a.isIpv4 := by cases a <;> rfl

theorem getMsbD_networkMask {width prefixLength : ℕ} (h : prefixLength ≤ width) (i : ℕ) :
    (networkMask width prefixLength).getMsbD i = decide (i < prefixLength) := by
  rw [networkMask]
  split_ifs with hzero
  · simp [hzero]
  · rw [BitVec.getMsbD_shiftLeft, BitVec.getMsbD_allOnes, decide_eq_decide]
    omega

theorem bit_masked {a : IpAddr} {prefixLength : ℕ} (h : prefixLength ≤ a.width) (i : ℕ) :
    (a.masked prefixLength).bit i = (a.bit i && decide (i < prefixLength)) := by
  cases a with
  | v4 bits =>
      have hmask := getMsbD_networkMask (show prefixLength ≤ 32 from h) i
      rw [masked, bit, BitVec.getMsbD_and, hmask, bit]
  | v6 bits =>
      have hmask := getMsbD_networkMask (show prefixLength ≤ 128 from h) i
      rw [masked, bit, BitVec.getMsbD_and, hmask, bit]

/-- Two addresses have the same network when they agree on the bits before the prefix length. -/
theorem masked_eq_iff {a b : IpAddr} {prefixLength : ℕ} (ha : prefixLength ≤ a.width) :
    a.masked prefixLength = b.masked prefixLength ↔
      a.isIpv4 = b.isIpv4 ∧ ∀ i < prefixLength, a.bit i = b.bit i := by
  constructor
  · intro h
    have hfamily : a.isIpv4 = b.isIpv4 := by simpa using congrArg isIpv4 h
    have hb : prefixLength ≤ b.width := width_eq_of_family hfamily ▸ ha
    refine ⟨hfamily, fun i hi => ?_⟩
    have hbit := congrArg (fun c => c.bit i) h
    simpa only [bit_masked ha, bit_masked hb, decide_eq_true hi, Bool.and_true] using hbit
  · rintro ⟨hfamily, h⟩
    have hb : prefixLength ≤ b.width := width_eq_of_family hfamily ▸ ha
    refine eq_of_bits (by simpa using hfamily) fun i => ?_
    rw [bit_masked ha, bit_masked hb]
    by_cases hi : i < prefixLength
    · rw [h i hi]
    · rw [decide_eq_false hi, Bool.and_false, Bool.and_false]

end IpAddr

end Net
