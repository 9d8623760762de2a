import PodmanLens.Address
import PodmanLens.Fields
import Mathlib.Data.List.Induction
import Std.Data.String.ToNat

/-!
# Addresses are determined by their spelling

The dotted octets of an IPv4 address and the segments of an IPv6 address are read back from the
text: splitting it at the separator shows the spelled segments, and the elided run fills up to
eight. Only IPv6 text holds a colon.
-/

namespace Net
open Text

section Digits

theorem digitChar_injOn : ∀ a < 16, ∀ b < 16, a.digitChar = b.digitChar → a = b := by decide

theorem toDigits_injective {b : ℕ} (hb : 1 < b) (hb' : b ≤ 16) :
    Function.Injective (Nat.toDigits b) := by
  intro m
  induction m using Nat.strongRecOn with
  | ind m ih =>
      intro n h
      rw [Nat.toDigits_eq_if hb (n := m), Nat.toDigits_eq_if hb (n := n)] at h
      have hlast {x y : ℕ} (hx : x < b) (hy : y < b) (h : x.digitChar = y.digitChar) : x = y :=
        digitChar_injOn x (by omega) y (by omega) h
      split_ifs at h with hm hn hn
      · exact hlast hm hn (List.cons.inj h).1
      · have hlength := congrArg List.length h
        have hne := List.length_pos_iff.mpr (Nat.toDigits_ne_nil (n := n / b) (b := b))
        simp only [List.length_singleton, List.length_append] at hlength
        omega
      · have hlength := congrArg List.length h
        have hne := List.length_pos_iff.mpr (Nat.toDigits_ne_nil (n := m / b) (b := b))
        simp only [List.length_singleton, List.length_append] at hlength
        omega
      · obtain ⟨hfront, hback⟩ := List.append_inj' h rfl
        have hdiv := ih (m / b) (Nat.div_lt_self (by omega) hb) hfront
        have hmod := hlast (Nat.mod_lt m (by omega)) (Nat.mod_lt n (by omega))
          (List.cons.inj hback).1
        rw [← Nat.div_add_mod m b, ← Nat.div_add_mod n b, hdiv, hmod]

theorem hex_injective : Function.Injective hex := fun _ _ h =>
  toDigits_injective (by omega) (by omega) (String.ofList_injective h)

theorem hex_ne_empty (n : ℕ) : hex n ≠ "" := by
  intro h
  have hlist := congrArg String.toList h
  rw [hex, String.toList_ofList] at hlist
  exact Nat.toDigits_ne_nil hlist

theorem exists_digit_of_mem {b : ℕ} (hb : 1 < b) {n : ℕ} {c : Char} (h : c ∈ Nat.toDigits b n) :
    ∃ d < b, c = d.digitChar := by
  induction n using Nat.strongRecOn with
  | ind n ih =>
      rw [Nat.toDigits_eq_if hb] at h
      split_ifs at h with hn
      · exact ⟨n, hn, List.mem_singleton.mp h⟩
      · rcases List.mem_append.mp h with h | h
        · exact ih (n / b) (Nat.div_lt_self (by omega) hb) h
        · exact ⟨n % b, Nat.mod_lt n (by omega), List.mem_singleton.mp h⟩

theorem digitChar_plain : ∀ d < 16, d.digitChar ≠ ':' ∧ d.digitChar ≠ '.' := by decide

theorem hex_plain {n : ℕ} {c : Char} (h : c ∈ (hex n).toList) : c ≠ ':' ∧ c ≠ '.' := by
  rw [hex, String.toList_ofList] at h
  obtain ⟨d, hd, rfl⟩ := exists_digit_of_mem (by omega) h
  exact digitChar_plain d hd

end Digits

/-- A bounded number is determined by its digits. -/
theorem eq_of_digits (base k : ℕ) {x y : ℕ} (hx : x < base ^ k) (hy : y < base ^ k)
    (h : ∀ i < k, x / base ^ i % base = y / base ^ i % base) : x = y := by
  induction k generalizing x y with
  | zero =>
      rw [pow_zero] at hx hy
      omega
  | succ k ih =>
      have hlow := h 0 (Nat.succ_pos k)
      rw [pow_zero, Nat.div_one, Nat.div_one] at hlow
      rw [pow_succ'] at hx hy
      have hhigh : x / base = y / base := by
        apply ih (Nat.div_lt_of_lt_mul hx) (Nat.div_lt_of_lt_mul hy)
        intro i hi
        have hdigit := h (i + 1) (Nat.succ_lt_succ hi)
        rwa [pow_succ', ← Nat.div_div_eq_div_mul, ← Nat.div_div_eq_div_mul] at hdigit
      rw [← Nat.div_add_mod x base, ← Nat.div_add_mod y base, hlow, hhigh]

section Ipv4

theorem eq_of_octets {a b : BitVec 32} (h : octets a = octets b) : a = b := by
  simp only [octets, List.map_cons, List.map_nil, List.cons.injEq, and_true, BitVec.toNat_ushiftRight,
    Nat.shiftRight_eq_div_pow] at h
  apply BitVec.eq_of_toNat_eq
  apply eq_of_digits 256 4 a.isLt b.isLt
  intro i hi
  interval_cases i
  · exact h.2.2.2
  · exact h.2.2.1
  · exact h.2.1
  · exact h.1

theorem displayIpv4_injective : Function.Injective displayIpv4 := by
  intro a b h
  have hdot (n : BitVec 32) : ∀ part ∈ (octets n).map Nat.repr, '.' ∉ part.toList := by
    intro part hpart
    obtain ⟨octet, -, rfl⟩ := List.mem_map.mp hpart
    exact notMem_repr (by decide) octet
  have hfields := congrArg (fields '.') h
  have hjoin (n : BitVec 32) : fields '.' (displayIpv4 n) = (octets n).map Nat.repr :=
    fields_joinWith (by simp [octets]) (hdot n)
  rw [hjoin, hjoin] at hfields
  exact eq_of_octets (List.map_injective_iff.mpr (fun _ _ => Nat.repr_injective) hfields)

theorem colon_notMem_displayIpv4 (a : BitVec 32) : ':' ∉ (displayIpv4 a).toList := by
  intro h
  rcases mem_joinWith h with h | ⟨part, hpart, h⟩
  · exact absurd h (by decide)
  · obtain ⟨octet, -, rfl⟩ := List.mem_map.mp hpart
    exact notMem_repr (by decide) octet h

theorem dot_mem_displayIpv4 (a : BitVec 32) : '.' ∈ (displayIpv4 a).toList := by
  simp [displayIpv4, octets, joinWith]

end Ipv4

section Segments

theorem eq_of_segments {a b : BitVec 128} (h : segments a = segments b) : a = b := by
  simp only [segments, List.map_cons, List.map_nil, List.cons.injEq, and_true,
    BitVec.toNat_ushiftRight, Nat.shiftRight_eq_div_pow] at h
  apply BitVec.eq_of_toNat_eq
  apply eq_of_digits 65536 8 a.isLt b.isLt
  intro i hi
  interval_cases i
  · exact h.2.2.2.2.2.2.2
  · exact h.2.2.2.2.2.2.1
  · exact h.2.2.2.2.2.1
  · exact h.2.2.2.2.1
  · exact h.2.2.2.1
  · exact h.2.2.1
  · exact h.2.1
  · exact h.1

/-- The texts between the colons of joined segments. -/
def segmentFields (values : List ℕ) : List String :=
  if values = [] then [""] else values.map hex

theorem fields_displaySegments (values : List ℕ) :
    fields ':' (displaySegments values) = segmentFields values := by
  rw [segmentFields]
  split_ifs with hnil
  · rw [hnil]
    rfl
  · refine fields_joinWith (by simpa using hnil) fun part hpart => ?_
    obtain ⟨value, -, rfl⟩ := List.mem_map.mp hpart
    exact fun hc => (hex_plain hc).1 rfl

/-- The segments spelled before the first empty field. -/
theorem takeWhile_segmentFields (values : List ℕ) (rest : List String) :
    (segmentFields values ++ "" :: rest).takeWhile (· != "") = values.map hex := by
  rw [segmentFields]
  split_ifs with hnil
  · rw [hnil]
    rfl
  · have hne : ∀ part ∈ values.map hex, (part != "") = true := by
      intro part hpart
      obtain ⟨value, -, rfl⟩ := List.mem_map.mp hpart
      simpa using hex_ne_empty value
    rw [List.takeWhile_append_of_pos hne]
    simp

theorem reverse_segmentFields (values : List ℕ) :
    (segmentFields values).reverse = segmentFields values.reverse := by
  rw [segmentFields, segmentFields]
  by_cases hnil : values = []
  · rw [hnil]
    rfl
  · rw [if_neg hnil, if_neg (by simpa using hnil), List.map_reverse]

theorem fields_elided (p q : List ℕ) :
    fields ':' (displaySegments p ++ "::" ++ displaySegments q) =
      segmentFields p ++ "" :: segmentFields q := by
  have hlist : (displaySegments p ++ "::" ++ displaySegments q).toList =
      (displaySegments p).toList ++ ':' :: ([] ++ ':' :: (displaySegments q).toList) := by simp
  rw [← fields_displaySegments, ← fields_displaySegments, fields, hlist,
    List.splitOn_append_cons_self, List.splitOn_append_cons_self]
  simp [fields]

theorem elided_injective {p q p' q' : List ℕ}
    (h : displaySegments p ++ "::" ++ displaySegments q =
      displaySegments p' ++ "::" ++ displaySegments q') : p = p' ∧ q = q' := by
  have hparts := congrArg (fields ':') h
  rw [fields_elided, fields_elided] at hparts
  have hfront := congrArg (List.takeWhile (· != "")) hparts
  have hback := congrArg (fun parts => parts.reverse.takeWhile (· != "")) hparts
  simp only [List.reverse_append, List.reverse_cons, List.append_assoc, List.singleton_append,
    reverse_segmentFields, takeWhile_segmentFields] at hback
  rw [takeWhile_segmentFields, takeWhile_segmentFields] at hfront
  exact ⟨List.map_injective_iff.mpr hex_injective hfront,
    List.reverse_injective (List.map_injective_iff.mpr hex_injective hback)⟩

/-- The empty field of an elided run tells the two spellings apart. -/
theorem displaySegments_ne_elided {values p q : List ℕ} (hvalues : values ≠ []) :
    displaySegments values ≠ displaySegments p ++ "::" ++ displaySegments q := by
  intro h
  have hfields := congrArg (fields ':') h
  rw [fields_displaySegments, fields_elided, segmentFields, if_neg hvalues] at hfields
  have hempty : "" ∈ values.map hex := by
    rw [hfields]
    simp
  obtain ⟨value, -, hvalue⟩ := List.mem_map.mp hempty
  exact hex_ne_empty value hvalue

theorem displaySegments_injective {p q : List ℕ} (hp : p ≠ []) (hq : q ≠ [])
    (h : displaySegments p = displaySegments q) : p = q := by
  have hfields := congrArg (fields ':') h
  rw [fields_displaySegments, fields_displaySegments, segmentFields, segmentFields, if_neg hp,
    if_neg hq] at hfields
  exact List.map_injective_iff.mpr hex_injective hfields

end Segments

section Runs

/-- The span lies within the values and all of them are zero on it. -/
structure Span.Zero (values : List ℕ) (span : Span) : Prop where
  bounded : span.start + span.length ≤ values.length
  zero : ∀ i, span.start ≤ i → i < span.start + span.length → values[i]? = some 0

theorem Span.Zero.append {values : List ℕ} {span : Span} (h : span.Zero values) (value : ℕ) :
    span.Zero (values ++ [value]) where
  bounded := by
    have := h.bounded
    simp only [List.length_append, List.length_singleton]
    omega
  zero i hstart hstop := by
    rw [List.getElem?_append_left (by have := h.bounded; omega)]
    exact h.zero i hstart hstop

theorem Span.zero_empty (values : List ℕ) : Span.Zero values ⟨0, 0⟩ :=
  ⟨Nat.zero_le _, fun i _ hstop => absurd hstop (by simp)⟩

/-- The longest run so far, and a current run that reaches the end when there is one. -/
structure ScannedZeros (values : List ℕ) (state : Span × Span) : Prop where
  longest : state.1.Zero values
  current : state.2.Zero values
  reaches : state.2.length = 0 ∨ state.2.start + state.2.length = values.length

/-- The current run after one more zero. -/
def extendRun (index : ℕ) (current : Span) : Span :=
  if current.length = 0 then ⟨index, 1⟩ else ⟨current.start, current.length + 1⟩

theorem scanZero_zero (longest current : Span) (index : ℕ) :
    scanZero (longest, current) (0, index) =
      (if longest.length < (extendRun index current).length then extendRun index current
        else longest, extendRun index current) := rfl

theorem ScannedZeros.extended {values : List ℕ} {longest current : Span}
    (h : ScannedZeros values (longest, current)) :
    (extendRun values.length current).Zero (values ++ [0]) ∧
      (extendRun values.length current).start + (extendRun values.length current).length =
        (values ++ [0]).length := by
  have hlast : (values ++ [0])[values.length]? = some 0 := by simp
  have hcurrent := h.current.append 0
  have hreaches := h.reaches
  dsimp only at hcurrent hreaches
  rw [extendRun]
  split_ifs with hempty
  · refine ⟨⟨by simp, fun i hstart hstop => ?_⟩, by simp⟩
    dsimp only at hstart hstop
    rw [show i = values.length by omega, hlast]
  · rw [or_iff_right hempty] at hreaches
    have hend : current.start + (current.length + 1) = (values ++ [0]).length := by
      simp only [List.length_append, List.length_singleton]
      omega
    refine ⟨⟨Nat.le_of_eq hend, fun i hstart hstop => ?_⟩, hend⟩
    dsimp only at hstart hstop
    rcases Nat.lt_or_ge i values.length with hlt | hge
    · exact hcurrent.zero i hstart (by omega)
    · rw [show i = values.length by omega, hlast]

theorem ScannedZeros.step {values : List ℕ} {state : Span × Span} (h : ScannedZeros values state)
    (value : ℕ) : ScannedZeros (values ++ [value]) (scanZero state (value, values.length)) := by
  obtain ⟨longest, current⟩ := state
  by_cases hvalue : value = 0
  · subst hvalue
    obtain ⟨hzero, hreaches⟩ := h.extended
    rw [scanZero_zero]
    refine ⟨?_, hzero, .inr hreaches⟩
    dsimp only
    split_ifs
    · exact hzero
    · exact h.longest.append 0
  · simp only [scanZero, if_neg hvalue]
    exact ⟨h.longest.append value, Span.zero_empty _, .inl rfl⟩

theorem longestZeroRun_zero (values : List ℕ) : (longestZeroRun values).Zero values := by
  have hscan : ScannedZeros values
      (values.zipIdx.foldl scanZero (⟨0, 0⟩, ⟨0, 0⟩)) := by
    induction values using List.reverseRecOn with
    | nil => exact ⟨Span.zero_empty _, Span.zero_empty _, .inl rfl⟩
    | append_singleton front value ih =>
        rw [List.zipIdx_append, List.foldl_append]
        simpa using ih.step value
  exact hscan.longest

theorem eq_take_replicate_drop {values : List ℕ} {span : Span} (h : span.Zero values) :
    values = values.take span.start ++ (List.replicate span.length 0 ++
      values.drop (span.start + span.length)) := by
  have hrun : (values.drop span.start).take span.length = List.replicate span.length 0 := by
    have hbounded := h.bounded
    rw [List.eq_replicate_iff]
    refine ⟨by simp; omega, fun value hmem => ?_⟩
    obtain ⟨i, hi, rfl⟩ := List.getElem_of_mem hmem
    have hlt : i < span.length := by
      simp only [List.length_take, List.length_drop] at hi
      omega
    have hzero := h.zero (span.start + i) (by omega) (by omega)
    rw [List.getElem?_eq_getElem (by omega), Option.some_inj] at hzero
    simpa using hzero
  rw [← hrun, ← List.drop_drop, List.take_append_drop, List.take_append_drop]

end Runs

section Display

theorem length_segments (a : BitVec 128) : (segments a).length = 8 := rfl

def spelled (values : List ℕ) : String :=
  let zeroes := longestZeroRun values
  if 1 < zeroes.length then
    displaySegments (values.take zeroes.start) ++ "::" ++
      displaySegments (values.drop (zeroes.start + zeroes.length))
  else displaySegments values

theorem spelled_injective {p q : List ℕ} (hp : p.length = 8) (hq : q.length = 8)
    (h : spelled p = spelled q) : p = q := by
  have hne {values : List ℕ} (hlength : values.length = 8) : values ≠ [] := by
    rintro rfl
    cases hlength
  have hpzero := longestZeroRun_zero p
  have hqzero := longestZeroRun_zero q
  unfold spelled at h
  dsimp only at h
  split_ifs at h
  · obtain ⟨hfront, hback⟩ := elided_injective h
    have hstart := congrArg List.length hfront
    have hrest := congrArg List.length hback
    have hpbound := hpzero.bounded
    have hqbound := hqzero.bounded
    rw [List.length_take, List.length_take] at hstart
    rw [List.length_drop, List.length_drop] at hrest
    have hlength : (longestZeroRun p).length = (longestZeroRun q).length := by omega
    rw [eq_take_replicate_drop hpzero, eq_take_replicate_drop hqzero, hfront, hback, hlength]
  · exact absurd h.symm (displaySegments_ne_elided (hne hq))
  · exact absurd h (displaySegments_ne_elided (hne hp))
  · exact displaySegments_injective (hne hp) (hne hq) h

/-- The dotted spelling of an IPv4-mapped address, or the spelling of its segments. -/
theorem displayIpv6_cases (a : BitVec 128) :
    (∃ x y, segments a = [0, 0, 0, 0, 0, 0xffff, x, y] ∧
      displayIpv6 a = "::ffff:" ++ displayIpv4 (a.truncate 32)) ∨
    displayIpv6 a = spelled (segments a) := by
  unfold displayIpv6
  split
  · next x y hmapped => exact .inl ⟨x, y, hmapped, rfl⟩
  · exact .inr rfl

theorem dot_notMem_displaySegments (values : List ℕ) : '.' ∉ (displaySegments values).toList := by
  intro h
  rcases mem_joinWith h with h | ⟨part, hpart, h⟩
  · exact absurd h (by decide)
  · obtain ⟨value, -, rfl⟩ := List.mem_map.mp hpart
    exact (hex_plain h).2 rfl

theorem dot_notMem_spelled (values : List ℕ) : '.' ∉ (spelled values).toList := by
  unfold spelled
  dsimp only
  split_ifs
  · rw [String.toList_append, String.toList_append, List.mem_append, List.mem_append]
    rintro ((h | h) | h)
    · exact dot_notMem_displaySegments _ h
    · exact absurd h (by decide)
    · exact dot_notMem_displaySegments _ h
  · exact dot_notMem_displaySegments _

theorem mapped_segments {a : BitVec 128} {x y : ℕ}
    (h : segments a = [0, 0, 0, 0, 0, 0xffff, x, y]) :
    x = a.toNat / 65536 % 65536 ∧ y = a.toNat % 65536 := by
  have hx : some ((a >>> 16).toNat % 65536) = some x := congrArg (fun values => values[6]?) h
  have hy : some ((a >>> 0).toNat % 65536) = some y := congrArg (fun values => values[7]?) h
  rw [Option.some_inj, BitVec.toNat_ushiftRight, Nat.shiftRight_eq_div_pow] at hx hy
  rw [pow_zero, Nat.div_one] at hy
  exact ⟨hx.symm, hy.symm⟩

theorem displayIpv6_injective : Function.Injective displayIpv6 := by
  intro a b h
  have hdotted (x : BitVec 32) (values : List ℕ) :
      "::ffff:" ++ displayIpv4 x ≠ spelled values := by
    intro heq
    apply dot_notMem_spelled values
    rw [← heq, String.toList_append]
    exact List.mem_append_right _ (dot_mem_displayIpv4 x)
  rcases displayIpv6_cases a with ⟨x, y, ha, hdisplay⟩ | hdisplay
  · rcases displayIpv6_cases b with ⟨x', y', hb, hother⟩ | hother
    · rw [hdisplay, hother] at h
      have hlow := displayIpv4_injective ((String.append_right_inj _).mp h)
      have hmod := congrArg BitVec.toNat hlow
      rw [BitVec.truncate_eq_setWidth, BitVec.truncate_eq_setWidth, BitVec.toNat_setWidth,
        BitVec.toNat_setWidth] at hmod
      obtain ⟨hx, hy⟩ := mapped_segments ha
      obtain ⟨hx', hy'⟩ := mapped_segments hb
      have hxx : x = x' := by omega
      have hyy : y = y' := by omega
      exact eq_of_segments (by rw [ha, hb, hxx, hyy])
    · exact absurd (hdisplay.symm.trans (h.trans hother)) (hdotted _ _)
  · rcases displayIpv6_cases b with ⟨x', y', hb, hother⟩ | hother
    · exact absurd (hother.symm.trans (h.symm.trans hdisplay)) (hdotted _ _)
    · rw [hdisplay, hother] at h
      exact eq_of_segments (spelled_injective (length_segments a) (length_segments b) h)

theorem colon_mem_displayIpv6 (a : BitVec 128) : ':' ∈ (displayIpv6 a).toList := by
  rcases displayIpv6_cases a with ⟨x, y, -, hdisplay⟩ | hdisplay
  · rw [hdisplay, String.toList_append]
    exact List.mem_append_left _ (by decide)
  · rw [hdisplay]
    unfold spelled
    dsimp only
    split_ifs
    · simp
    · simp [displaySegments, segments, joinWith]

theorem IpAddr.colon_mem_display_iff (a : IpAddr) :
    ':' ∈ a.display.toList ↔ a.isIpv4 = false := by
  cases a with
  | v4 bits => exact iff_of_false (colon_notMem_displayIpv4 bits) (by simp [isIpv4])
  | v6 bits => exact iff_of_true (colon_mem_displayIpv6 bits) rfl

theorem displayIpv4_ne_displayIpv6 (a : BitVec 32) (b : BitVec 128) :
    displayIpv4 a ≠ displayIpv6 b := by
  intro h
  apply colon_notMem_displayIpv4 a
  rw [h]
  exact colon_mem_displayIpv6 b

theorem IpAddr.display_injective : Function.Injective display := by
  intro a b h
  cases a with
  | v4 bits =>
      cases b with
      | v4 other => rw [displayIpv4_injective h]
      | v6 other => exact absurd h (displayIpv4_ne_displayIpv6 bits other)
  | v6 bits =>
      cases b with
      | v4 other => exact absurd h.symm (displayIpv4_ne_displayIpv6 other bits)
      | v6 other => rw [displayIpv6_injective h]

end Display

end Net
