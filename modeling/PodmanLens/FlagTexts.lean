import Std.Data.String.ToInt
import PodmanLens.AddressText
import PodmanLens.Fields
import PodmanLens.RuntimeOptions

/-!
# Flag texts determine their values

Ports, labels, limits, durations and names are determined by their text on the command line, and a
name by its percent-encoded form in a path. Composite texts are read from the separator that cannot
occur on one of its sides.
-/

namespace PodmanLens
open Net Text Json

section Names

theorem PortProtocol.asStr_injective : Function.Injective PortProtocol.asStr := by
  intro a b h
  cases a <;> cases b <;> first | rfl | exact absurd h (by decide)

theorem RestartPolicy.asStr_injective : Function.Injective RestartPolicy.asStr := by
  intro a b h
  cases a <;> cases b <;> first | rfl | exact absurd h (by decide)

theorem HealthOnFailure.asStr_injective : Function.Injective HealthOnFailure.asStr := by
  intro a b h
  cases a <;> cases b <;> first | rfl | exact absurd h (by decide)

theorem HealthOnFailure.code_injective : Function.Injective HealthOnFailure.code := by
  intro a b h
  cases a <;> cases b <;> first | rfl | exact absurd h (by decide)

theorem LogDriver.asStr_injective : Function.Injective LogDriver.asStr := by
  intro a b h
  cases a <;> cases b <;> first | rfl | exact absurd h (by decide)

theorem NamespaceMode.asStr_injective : Function.Injective NamespaceMode.asStr := by
  intro a b h
  cases a <;> cases b <;> first | rfl | exact absurd h (by decide)

theorem IpcNamespaceMode.asStr_injective : Function.Injective IpcNamespaceMode.asStr := by
  intro a b h
  cases a <;> cases b <;> first | rfl | exact absurd h (by decide)

theorem RlimitKind.cliName_injective : Function.Injective RlimitKind.cliName := by
  intro a b h
  cases a <;> cases b <;> first | rfl | exact absurd h (by decide)

theorem RlimitKind.asStr_injective : Function.Injective RlimitKind.asStr := by
  intro a b h
  cases a <;> cases b <;> first | rfl | exact absurd h (by decide)

theorem boolText_injective : Function.Injective boolText := by
  intro a b h
  cases a <;> cases b <;> first | rfl | exact absurd h (by decide)

end Names

section Ports

theorem portMappingCliValue_toList (port : PortMapping) : (portMappingCliValue port).toList =
    ((hostIpPrefix port.hostIp).toList ++ port.hostPort.toNat.repr.toList ++ ':' ::
      port.containerPort.toNat.repr.toList) ++ '/' :: port.protocol.asStr.toList := by
  simp [portMappingCliValue]

/-- What stands between the brackets or before the colon of a host address. -/
def hostIpText (a : IpAddr) : String :=
  if a.isIpv4 then a.display else "[" ++ a.display ++ "]"

theorem hostIpText_injective : Function.Injective hostIpText := by
  intro a b h
  have hmixed {a b : IpAddr} (ha : a.isIpv4 = true) (hb : b.isIpv4 = false) :
      a.display ≠ "[" ++ b.display ++ "]" := by
    intro heq
    have hcolon := b.colon_mem_display_iff.mpr hb
    have hother : ':' ∈ a.display.toList := by simp [heq, hcolon]
    rw [a.colon_mem_display_iff, ha] at hother
    cases hother
  rw [hostIpText, hostIpText] at h
  cases ha : a.isIpv4 with
  | true =>
      cases hb : b.isIpv4 with
      | true => exact IpAddr.display_injective (by simpa [ha, hb] using h)
      | false => exact absurd (by simpa [ha, hb] using h) (hmixed ha hb)
  | false =>
      cases hb : b.isIpv4 with
      | true => exact absurd (by simpa [ha, hb] using h.symm) (hmixed hb ha)
      | false =>
          have hbracketed := congrArg String.toList h
          apply IpAddr.display_injective
          apply String.toList_injective
          simpa [ha, hb] using hbracketed

theorem hostIpPrefix_some (a : IpAddr) (digits : List Char) :
    (hostIpPrefix (some a)).toList ++ digits = (hostIpText a).toList ++ ':' :: digits := by
  rw [hostIpPrefix, hostIpText]
  split_ifs
  · simp
  · simp

theorem hostIpPrefix_inj {a b : Option IpAddr} {m n : ℕ}
    (h : (hostIpPrefix a).toList ++ m.repr.toList = (hostIpPrefix b).toList ++ n.repr.toList) :
    a = b ∧ m = n := by
  have hdigits (n : ℕ) : ':' ∉ n.repr.toList := notMem_repr (by decide) n
  have hbare {n : ℕ} {a : IpAddr} {digits : List Char}
      (h : n.repr.toList = (hostIpPrefix (some a)).toList ++ digits) : False := by
    rw [hostIpPrefix_some] at h
    exact hdigits n (h ▸ List.mem_append_right _ List.mem_cons_self)
  cases a with
  | none =>
      cases b with
      | none => exact ⟨rfl, Nat.repr_injective (String.toList_injective h)⟩
      | some b => exact (hbare h).elim
  | some a =>
      cases b with
      | none => exact (hbare h.symm).elim
      | some b =>
          rw [hostIpPrefix_some, hostIpPrefix_some] at h
          obtain ⟨htext, hport⟩ := append_cons_inj_last (hdigits m) (hdigits n) h
          exact ⟨congrArg some (hostIpText_injective (String.toList_injective htext)),
            Nat.repr_injective (String.toList_injective hport)⟩

theorem portMappingCliValue_injective : Function.Injective portMappingCliValue := by
  intro a b h
  have hlist := congrArg String.toList h
  rw [portMappingCliValue_toList, portMappingCliValue_toList] at hlist
  have hslash (protocol : PortProtocol) : '/' ∉ protocol.asStr.toList := by
    cases protocol <;> decide
  have hdigits (n : ℕ) : ':' ∉ n.repr.toList := notMem_repr (by decide) n
  obtain ⟨hlist, hprotocol⟩ := append_cons_inj_last (hslash _) (hslash _) hlist
  obtain ⟨hlist, hcontainer⟩ := append_cons_inj_last (hdigits _) (hdigits _) hlist
  obtain ⟨hip, hhost⟩ := hostIpPrefix_inj hlist
  have hprotocol := PortProtocol.asStr_injective (String.toList_injective hprotocol)
  have hcontainer := UInt16.toNat_inj.mp (Nat.repr_injective (String.toList_injective hcontainer))
  have hhost := UInt16.toNat_inj.mp hhost
  obtain ⟨hostIp, hostPort, containerPort, protocol, _, _⟩ := a
  cases hip
  cases hhost
  cases hcontainer
  cases hprotocol
  rfl

end Ports

section Labels

theorem equals_notMem_labelKey (key : LabelKey) : '=' ∉ key.asStr.toList := by
  have haccepted := key.accepted
  simp only [isLabelKey, Bool.and_eq_true, Bool.not_eq_true', List.contains_eq_mem] at haccepted
  simpa using haccepted.2

/-- A key without an equals sign and its value. -/
theorem keyed_inj {key key' value value' : String} (hkey : '=' ∉ key.toList)
    (hkey' : '=' ∉ key'.toList) (h : key ++ "=" ++ value = key' ++ "=" ++ value') :
    key = key' ∧ value = value' := by
  have hassigned := congrArg assignment h
  rw [assignment_append hkey, assignment_append hkey', Prod.mk.injEq, Option.some_inj] at hassigned
  exact hassigned

theorem labelText_injective :
    Function.Injective fun label : Label => label.key.asStr ++ "=" ++ label.value.asStr := by
  rintro ⟨key, value⟩ ⟨key', value'⟩ h
  obtain ⟨hkey, hvalue⟩ := keyed_inj (equals_notMem_labelKey key) (equals_notMem_labelKey key') h
  cases Validated.Checked.asStr_injective hkey
  cases Validated.Checked.asStr_injective hvalue
  rfl

end Labels

section Limits

theorem healthDurationCli_injective : Function.Injective healthDurationCli := by
  intro a b h
  have hlist := congrArg String.toList h
  rw [healthDurationCli, healthDurationCli, String.toList_append, String.toList_append] at hlist
  exact Nat.repr_injective (String.toList_injective (List.append_cancel_right hlist))

theorem healthIntervalCli_injective : Function.Injective healthIntervalCli := by
  have hdisable (n : ℕ) : "disable" ≠ healthDurationCli n := by
    intro h
    have hmem : 'd' ∈ (healthDurationCli n).toList := h ▸ by decide
    rw [healthDurationCli, String.toList_append, List.mem_append] at hmem
    exact hmem.elim (notMem_repr (by decide) n) (by decide)
  intro a b h
  cases a with
  | disabled =>
      cases b with
      | disabled => rfl
      | every duration => exact absurd h (hdisable _)
  | every duration =>
      cases b with
      | disabled => exact absurd h.symm (hdisable _)
      | every other => rw [Subtype.ext (healthDurationCli_injective h)]

theorem healthIntervalNanoseconds_injective : Function.Injective healthIntervalNanoseconds := by
  intro a b h
  cases a with
  | disabled =>
      cases b with
      | disabled => rfl
      | every duration => exact absurd h duration.2.1.ne
  | every duration =>
      cases b with
      | disabled => exact absurd h duration.2.1.ne'
      | every other => rw [Subtype.ext h]

theorem rlimitValueCli_injective : Function.Injective rlimitValueCli := by
  have hdash (n : ℕ) : "-1" ≠ n.repr := by
    intro h
    exact notMem_repr (c := '-') (by decide) n (h ▸ by decide)
  intro a b h
  cases a with
  | unlimited =>
      cases b with
      | unlimited => rfl
      | finite value => exact absurd h (hdash _)
  | finite value =>
      cases b with
      | unlimited => exact absurd h.symm (hdash _)
      | finite other => rw [UInt64.toNat_inj.mp (Nat.repr_injective h)]

theorem rlimitValueJson_injective : Function.Injective rlimitValueJson := by
  intro a b h
  cases a with
  | unlimited =>
      cases b with
      | unlimited => rfl
      | finite value =>
          have hnumber : (-1 : ℤ) = value.toNat := Value.number.inj h
          omega
  | finite value =>
      cases b with
      | unlimited =>
          have hnumber : (value.toNat : ℤ) = -1 := Value.number.inj h
          omega
      | finite other =>
          have hnumber : (value.toNat : ℤ) = other.toNat := Value.number.inj h
          exact congrArg RlimitValue.finite (UInt64.toNat_inj.mp (by omega))

theorem rlimitCliValue_injective : Function.Injective rlimitCliValue := by
  intro a b h
  have hlist (limit : Rlimit) : (rlimitCliValue limit).toList = limit.kind.cliName.toList ++ '=' ::
      ((rlimitValueCli limit.soft).toList ++ ':' :: (rlimitValueCli limit.hard).toList) := by
    simp [rlimitCliValue]
  have hkind (kind : RlimitKind) : '=' ∉ kind.cliName.toList := by
    cases kind <;> decide
  have hvalue (value : RlimitValue) : ':' ∉ (rlimitValueCli value).toList := by
    cases value with
    | unlimited => decide
    | finite value => exact notMem_repr (by decide) _
  have heq := congrArg String.toList h
  rw [hlist, hlist] at heq
  obtain ⟨hkinds, heq⟩ := append_cons_inj (hkind _) (hkind _) heq
  obtain ⟨hsoft, hhard⟩ := append_cons_inj (hvalue _) (hvalue _) heq
  have hkinds := RlimitKind.cliName_injective (String.toList_injective hkinds)
  have hsoft := rlimitValueCli_injective (String.toList_injective hsoft)
  have hhard := rlimitValueCli_injective (String.toList_injective hhard)
  obtain ⟨kind, soft, hard, _⟩ := a
  cases hkinds
  cases hsoft
  cases hhard
  rfl

end Limits

section Paths

/-- The byte that a plain character or an escape stands for. -/
def percentValue : List Char → ℕ
  | [c] => c.toNat
  | [_, high, low] =>
    let digit (c : Char) := if c.isDigit then c.toNat - 48 else c.toNat - 55
    16 * digit high + digit low
  | _ => 0

theorem percentByte_table : ∀ n < 256, percentValue (percentByte (.ofNat n)) = n ∧
    (percentByte (.ofNat n)).length =
      if (percentByte (.ofNat n)).head? = some '%' then 3 else 1 := by
  decide +kernel

theorem percentByte_ne_nil (byte : UInt8) : percentByte byte ≠ [] := by
  rw [percentByte]
  split_ifs <;> simp

theorem percentByte_inj {a b : UInt8} {x y : List Char}
    (h : percentByte a ++ x = percentByte b ++ y) : a = b ∧ x = y := by
  have htable (byte : UInt8) := percentByte_table byte.toNat byte.toNat_lt
  simp only [UInt8.ofNat_toNat] at htable
  have hhead : (percentByte a).head? = (percentByte b).head? := by
    have heads := congrArg List.head? h
    rwa [List.head?_append_of_ne_nil _ (percentByte_ne_nil a),
      List.head?_append_of_ne_nil _ (percentByte_ne_nil b)] at heads
  have hlength : (percentByte a).length = (percentByte b).length := by
    rw [(htable a).2, (htable b).2, hhead]
  obtain ⟨hbytes, hrest⟩ := List.append_inj h hlength
  refine ⟨UInt8.toNat_inj.mp ?_, hrest⟩
  rw [← (htable a).1, ← (htable b).1, hbytes]

theorem percentBytes_injective :
    Function.Injective fun bytes : List UInt8 => bytes.flatMap percentByte := by
  have hcons (byte : UInt8) (rest : List UInt8) : (byte :: rest).flatMap percentByte ≠ [] := by
    rw [List.flatMap_cons]
    exact List.append_ne_nil_of_left_ne_nil (percentByte_ne_nil byte) _
  intro a b h
  induction a generalizing b with
  | nil =>
      cases b with
      | nil => rfl
      | cons byte rest => exact absurd h.symm (hcons byte rest)
  | cons byte front ih =>
      cases b with
      | nil => exact absurd h (hcons byte front)
      | cons other rest =>
          obtain ⟨rfl, hrest⟩ := percentByte_inj h
          rw [ih hrest]

theorem percentEncode_injective : Function.Injective percentEncode := by
  intro a b h
  have hbytes := percentBytes_injective (String.ofList_injective h)
  apply String.toByteArray_inj.mp
  rw [← String.utf8Encode_toList, ← String.utf8Encode_toList, List.utf8Encode, List.utf8Encode,
    hbytes]

end Paths

end PodmanLens
