import PodmanLens.AddressText
import PodmanLens.CreateOptions
import PodmanLens.OperandNames

/-!
# Network flags read back

A network value is read at its first colon and then at its commas, as assignments. The reader is
written from these separators alone, and on the text of an attachment whose network name holds none
of them it returns the declared aliases and addresses.
-/

namespace PodmanLens
open Net Options Text Json

section Entries

def entriesOf (text : String) : List (String × Option String) := (fields ',' text).map assignment

theorem assigned_cons (key : String) (entry : String × Option String)
    (rest : List (String × Option String)) :
    assigned key (entry :: rest) =
      (if entry.1 = key then entry.2.toList else []) ++ assigned key rest := by
  obtain ⟨other, value⟩ := entry
  by_cases hkey : other = key
  · cases value <;> simp [assigned, hkey]
  · simp [assigned, hkey]

@[simp] theorem assigned_nil (key : String) : assigned key [] = [] := rfl

theorem assigned_append (key : String) (front back : List (String × Option String)) :
    assigned key (front ++ back) = assigned key front ++ assigned key back :=
  List.filterMap_append

/-- Assignments to one key give their values to that key alone. -/
theorem assigned_map {α : Type} (key other : String) (text : α → String) (values : List α) :
    assigned key (values.map fun a => (other, some (text a))) =
      if other = key then values.map text else [] := by
  rw [assigned, List.filterMap_map]
  by_cases hkey : other = key
  · simp [hkey]
  · simp [hkey]

/-- A spelled key with its equals sign. -/
theorem assignment_literal {literal key : String} (hliteral : literal = key ++ "=")
    (hkey : '=' ∉ key.toList) (value : String) :
    assignment (literal ++ value) = (key, some value) := by
  rw [hliteral]
  exact assignment_append hkey value

theorem notMem_append {c : Char} {a b : String} (ha : c ∉ a.toList) (hb : c ∉ b.toList) :
    c ∉ (a ++ b).toList := by
  rw [String.toList_append, List.mem_append]
  exact fun h => h.elim ha hb

end Entries

section Networks

/-- A network attachment as values, addresses in their canonical spelling. -/
structure NetworkDeclaration where
  network : String
  aliases : List String
  ipv4 : Option String
  ipv6 : Option String
  mac : Option String
  deriving DecidableEq

def declaredNetwork (attachment : NetworkAttachment) : NetworkDeclaration where
  network := attachment.network.val.name
  aliases := attachment.aliases.values.map Validated.Checked.asStr
  ipv4 := attachment.staticIpv4.map fun ipv4 => ipv4.val.display
  ipv6 := attachment.staticIpv6.map fun ipv6 => ipv6.val.display
  mac := attachment.staticMac.map StaticMacAddress.asStr

theorem declaredNetwork_injective : Function.Injective declaredNetwork := by
  rintro ⟨network, aliases, ipv4, ipv6, mac⟩ ⟨network', aliases', ipv4', ipv6', mac'⟩ h
  rw [declaredNetwork, declaredNetwork, NetworkDeclaration.mk.injEq] at h
  obtain ⟨hnetwork, haliases, hipv4, hipv6, hmac⟩ := h
  have haddress {p : IpAddr → Prop} :
      Function.Injective fun address : { a : IpAddr // p a } => address.val.display :=
    IpAddr.display_injective.comp Subtype.val_injective
  have hmacs : Function.Injective StaticMacAddress.asStr := by
    rintro ⟨_, _⟩ ⟨_, _⟩ rfl
    rfl
  have hid : network = network' := Subtype.ext
    (DeploymentResourceId.eq_of_kind_name (network.2.trans network'.2.symm) hnetwork)
  have hvalues : aliases = aliases' := Validated.DistinctList.ext_values
    (List.map_injective_iff.mpr Validated.Checked.asStr_injective haliases)
  have hipv4 : ipv4 = ipv4' := Option.map_injective haddress hipv4
  have hipv6 : ipv6 = ipv6' := Option.map_injective haddress hipv6
  have hmac : mac = mac' := Option.map_injective hmacs hmac
  rw [hid, hvalues, hipv4, hipv6, hmac]

def readNetworkFlag (value : String) : NetworkDeclaration :=
  match splitOnce ':' value.toList with
  | none => ⟨value, [], none, none, none⟩
  | some (network, options) =>
    let entries := entriesOf (String.ofList options)
    { network := String.ofList network
      aliases := assigned "alias" entries
      ipv4 := (assigned "ip" entries).head?
      ipv6 := (assigned "ip6" entries).head?
      mac := (assigned "mac" entries).head? }

theorem separators_of_networkAlias (value : NetworkAlias) :
    ',' ∉ value.asStr.toList ∧ ':' ∉ value.asStr.toList ∧ '=' ∉ value.asStr.toList := by
  have haccepted := value.accepted
  simp only [isNetworkAlias, Bool.not_eq_true', Bool.or_eq_false_iff, List.any_eq_false] at haccepted
  have hplain := haccepted.2
  refine ⟨fun h => ?_, fun h => ?_, fun h => ?_⟩
  · exact hplain ',' h (by decide)
  · exact hplain ':' h (by decide)
  · exact hplain '=' h (by decide)

theorem toLower_ne_comma {c : Char} (h : c ≠ ',') : c.toLower ≠ ',' := by
  unfold Char.toLower
  split
  · next hupper =>
      intro hcomma
      have hlow : 65 ≤ c.toNat := UInt32.le_iff_toNat_le.mp hupper.1
      have hhigh : c.toNat ≤ 90 := UInt32.le_iff_toNat_le.mp hupper.2
      have hlowered : (c.val + 32).toNat = c.toNat + 32 := by
        rw [UInt32.toNat_add]
        exact Nat.mod_eq_of_lt (by change c.toNat + 32 < 2 ^ 32; omega)
      have hcode : (c.val + 32).toNat = 44 := congrArg Char.toNat hcomma
      omega
  · exact h

theorem comma_notMem_staticMac (mac : StaticMacAddress) : ',' ∉ mac.asStr.toList := by
  obtain ⟨value, haccepted, hlowered⟩ := mac.lowered
  have hpart {part : List Char} (h : isHexByte part = true) : ∀ c ∈ part, c ≠ ',' := by
    rintro c hc rfl
    rw [isHexByte.eq_def] at h
    split at h
    · next a b =>
        simp only [List.mem_cons, List.not_mem_nil, or_false] at hc
        have hcomma : isHexDigit ',' = false := by decide
        rcases hc with rfl | rfl
        · simp [hcomma] at h
        · simp [hcomma] at h
    · cases h
  have hvalue : ∀ c ∈ value.toList, c ≠ ',' := by
    simp only [isStaticMacAddress, Bool.and_eq_true, List.all_eq_true] at haccepted
    exact forall_of_splitOn ':' (by decide) fun part hmem => hpart (haccepted.2 part hmem)
  rw [hlowered, String.toList_map, List.mem_map]
  rintro ⟨c, hc, hcomma⟩
  exact toLower_ne_comma (hvalue c hc) hcomma

theorem comma_notMem_networkOptions (attachment : NetworkAttachment) :
    ∀ option ∈ networkOptions attachment, ',' ∉ option.toList := by
  have haddress (a : IpAddr) : ',' ∉ a.display.toList :=
    (IpAddr.addressText_display a).notMem (by decide)
  intro option hmem
  simp only [networkOptions, List.mem_append, List.mem_map, Option.mem_toList] at hmem
  rcases hmem with ((⟨value, -, rfl⟩ | ⟨ipv4, -, rfl⟩) | ⟨ipv6, -, rfl⟩) | ⟨mac, -, rfl⟩
  · exact notMem_append (by decide) (separators_of_networkAlias value).1
  · exact notMem_append (by decide) (haddress ipv4.val)
  · exact notMem_append (by decide) (haddress ipv6.val)
  · exact notMem_append (by decide) (comma_notMem_staticMac mac)

theorem entries_networkOptions (attachment : NetworkAttachment) :
    (networkOptions attachment).map assignment =
      attachment.aliases.values.map (fun value => ("alias", some value.asStr)) ++
        attachment.staticIpv4.toList.map (fun ipv4 => ("ip", some ipv4.val.display)) ++
        attachment.staticIpv6.toList.map (fun ipv6 => ("ip6", some ipv6.val.display)) ++
        attachment.staticMac.toList.map fun mac => ("mac", some mac.asStr) := by
  have halias := assignment_literal (by decide : "alias=" = "alias" ++ "=") (by decide)
  have hip := assignment_literal (by decide : "ip=" = "ip" ++ "=") (by decide)
  have hip6 := assignment_literal (by decide : "ip6=" = "ip6" ++ "=") (by decide)
  have hmac := assignment_literal (by decide : "mac=" = "mac" ++ "=") (by decide)
  simp only [networkOptions, List.map_append, List.map_map, Function.comp_def, halias, hip, hip6,
    hmac]

theorem readNetworkFlag_attachmentText {attachment : NetworkAttachment}
    (h : cliSafeMountComponent attachment.network.val.name = true) :
    readNetworkFlag (attachmentText attachment) = declaredNetwork attachment := by
  have hcolon := (separators_notMem h).1
  rw [attachmentText]
  split_ifs with hempty
  · rw [List.isEmpty_iff] at hempty
    simp only [networkOptions, List.append_eq_nil_iff, List.map_eq_nil_iff,
      Option.toList_eq_nil_iff] at hempty
    obtain ⟨⟨⟨haliases, hipv4⟩, hipv6⟩, hmac⟩ := hempty
    rw [readNetworkFlag, splitOnce_eq_none hcolon]
    simp [declaredNetwork, haliases, hipv4, hipv6, hmac]
  · have hlist : (attachment.network.val.name ++ ":" ++
        joinWith "," (networkOptions attachment)).toList =
        attachment.network.val.name.toList ++ ':' ::
          (joinWith "," (networkOptions attachment)).toList := by simp
    have hoptions : networkOptions attachment ≠ [] := by simpa using hempty
    have hfields : fields ',' (joinWith "," (networkOptions attachment)) =
        networkOptions attachment :=
      fields_joinWith hoptions (comma_notMem_networkOptions attachment)
    have hhead {α : Type} (setting : Option α) (text : α → String) :
        (setting.toList.map text).head? = setting.map text := by
      cases setting <;> rfl
    rw [readNetworkFlag, hlist, splitOnce_append hcolon]
    dsimp only
    rw [String.ofList_toList, String.ofList_toList, entriesOf, hfields,
      entries_networkOptions]
    simp only [assigned_append, assigned_map, declaredNetwork, String.reduceEq, if_true, if_false,
      List.append_nil, List.nil_append, hhead]

end Networks

end PodmanLens
