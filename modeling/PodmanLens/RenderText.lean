import PodmanLens.RenderOutcome

/-!
# Rendered arguments hold no control characters

Every validated text, address and number is free of control characters, and so is every command
line argument that the renderer builds from them. A rendered argument therefore never ends a line.
-/

namespace PodmanLens
open Net Text Json Validated

section Texts

theorem controlFree_display (a : IpAddr) : ControlFree a.display :=
  (IpAddr.addressText_display a).controlFree

theorem controlFree_repr (n : ℕ) : ControlFree n.repr := (addressText_repr n).controlFree

theorem controlFree_octal (n : ℕ) : ControlFree (octal n) := by
  rw [octal, controlFree_ofList]
  intro c hc
  exact isControl_of_isAddressChar (toDigits_isAddressChar (by omega) (by omega) n c hc)

theorem controlFree_int_repr (n : ℤ) : ControlFree n.repr := by
  cases n with
  | ofNat n => exact controlFree_repr n
  | negSucc n =>
      change ControlFree ("-" ++ (n + 1).repr)
      rw [controlFree_append]
      exact ⟨by decide, controlFree_repr _⟩

theorem controlFree_networkAlias (value : NetworkAlias) : ControlFree value.asStr := by
  rw [controlFree_iff]
  have h := value.accepted
  simp only [isNetworkAlias, Bool.not_eq_true', Bool.or_eq_false_iff] at h
  exact h.1.2

theorem controlFree_dnsText (value : DnsText) : ControlFree value.asStr := by
  rw [controlFree_iff]
  have h := value.accepted
  simp only [isDnsText, Bool.not_eq_true', Bool.or_eq_false_iff] at h
  exact h.2

theorem isControl_of_alphanum_or {c : Char} {others : List Char}
    (hothers : ∀ d ∈ others, isControl d = false) (h : c.isAlphanum = true ∨ c ∈ others) :
    isControl c = false :=
  h.elim isControl_of_isAlphanum (hothers c)

theorem controlFree_hostname (value : Checked isHostname) : ControlFree value.asStr := by
  have h := value.accepted
  simp only [isHostname, isHostnameLabel, Bool.and_eq_true, List.all_eq_true] at h
  refine forall_of_splitOn (p := fun c => isControl c = false) '.' (by decide)
    fun part hpart c hc => ?_
  have hallowed := (h.2 part hpart).2 c hc
  exact isControl_of_alphanum_or (by simp [isControl] : ∀ d ∈ ['-'], isControl d = false)
    (by simpa using hallowed)

theorem controlFree_containerHostname (value : ContainerHostname) : ControlFree value.asStr := by
  have h := value.accepted
  simp only [isContainerHostname, isContainerHostnameLabel, Bool.and_eq_true, List.all_eq_true,
    Bool.not_eq_true', Bool.or_eq_false_iff, Bool.not_eq_false'] at h
  refine forall_of_splitOn (p := fun c => isControl c = false) '.' (by decide)
    fun part hpart c hc => ?_
  have hallowed := (h.2 part hpart).2 c hc
  exact isControl_of_alphanum_or (by simp [isControl] : ∀ d ∈ ['-'], isControl d = false)
    (by simpa using hallowed)

theorem controlFree_of_validUserComponent {part : List Char} (h : validUserComponent part = true) :
    ∀ c ∈ part, isControl c = false := by
  intro c hc
  simp only [validUserComponent, Bool.and_eq_true, List.all_eq_true] at h
  have hallowed := h.2 c hc
  exact isControl_of_alphanum_or (by simp [isControl] : ∀ d ∈ ['.', '_', '-'], isControl d = false)
    (by simpa [or_assoc] using hallowed)

theorem controlFree_containerUser (value : ContainerUser) : ControlFree value.asStr := by
  have h := value.accepted
  rw [isContainerUser, Bool.and_eq_true] at h
  refine forall_of_splitOn (p := fun c => isControl c = false) ':' (by decide) fun part hpart => ?_
  replace h := h.2
  split at h
  · next user hparts =>
      rw [hparts, List.mem_singleton] at hpart
      subst hpart
      exact controlFree_of_validUserComponent h
  · next user group hparts =>
      rw [Bool.and_eq_true] at h
      rw [hparts, List.mem_pair] at hpart
      rcases hpart with rfl | rfl
      · exact controlFree_of_validUserComponent h.1
      · exact controlFree_of_validUserComponent h.2
  · cases h

theorem controlFree_environmentName (value : EnvironmentName) : ControlFree value.asStr := by
  have h := value.accepted
  intro c hc
  rw [isEnvironmentName] at h
  split at h
  · cases h
  · next first rest hchars =>
      simp only [Bool.and_eq_true, Bool.or_eq_true, List.all_eq_true, beq_iff_eq] at h
      rw [hchars] at hc
      rcases List.mem_cons.mp hc with rfl | hc
      · rcases h.1.2 with halpha | rfl
        · exact isControl_of_isAlphanum (by simp [Char.isAlphanum, halpha])
        · decide
      · exact isControl_of_alphanum_or (by simp [isControl] : ∀ d ∈ ['_'], isControl d = false)
          (by simpa using h.2 c hc)

theorem isControl_toLower {c : Char} (h : isControl c = false) : isControl c.toLower = false := by
  unfold Char.toLower
  split
  · next hupper =>
      have hlow : 65 ≤ c.toNat := UInt32.le_iff_toNat_le.mp hupper.1
      have hhigh : c.toNat ≤ 90 := UInt32.le_iff_toNat_le.mp hupper.2
      have hlowered : (c.val + 32).toNat = c.toNat + 32 := by
        rw [UInt32.toNat_add]
        exact Nat.mod_eq_of_lt (by change c.toNat + 32 < 2 ^ 32; omega)
      apply isControl_eq_false_of_range
      · change 0x20 ≤ (c.val + 32).toNat
        omega
      · change (c.val + 32).toNat < 0x7f
        omega
  · exact h

theorem isControl_of_isHexDigit {c : Char} (h : isHexDigit c = true) : isControl c = false := by
  simp only [isHexDigit, Char.isDigit, Bool.or_eq_true, Bool.and_eq_true, decide_eq_true_eq,
    Char.le_def, UInt32.le_iff_toNat_le, ge_iff_le] at h
  change ((48 ≤ c.toNat ∧ c.toNat ≤ 57) ∨ (97 ≤ c.toNat ∧ c.toNat ≤ 102)) ∨
    (65 ≤ c.toNat ∧ c.toNat ≤ 70) at h
  exact isControl_eq_false_of_range (by omega) (by omega)

theorem controlFree_of_isHexByte {part : List Char} (h : isHexByte part = true) :
    ∀ c ∈ part, isControl c = false := by
  rw [isHexByte.eq_def] at h
  split at h
  · next a b =>
      simp only [Bool.and_eq_true, Bool.or_eq_true, beq_iff_eq] at h
      simp only [List.mem_cons, List.not_mem_nil, or_false, forall_eq_or_imp, forall_eq]
      refine ⟨?_, isControl_of_isHexDigit h.2⟩
      rcases h.1 with ha | rfl
      · exact isControl_of_isHexDigit ha
      · decide
  · cases h

theorem controlFree_staticMac (address : StaticMacAddress) : ControlFree address.asStr := by
  obtain ⟨value, haccepted, hlowered⟩ := address.lowered
  have hvalue : ControlFree value := by
    simp only [isStaticMacAddress, Bool.and_eq_true, List.all_eq_true] at haccepted
    exact forall_of_splitOn (p := fun c => isControl c = false) ':' (by decide)
      fun part hpart => controlFree_of_isHexByte (haccepted.2 part hpart)
  intro c hc
  rw [hlowered, String.toList_map, List.mem_map] at hc
  obtain ⟨d, hd, rfl⟩ := hc
  exact isControl_toLower (hvalue d hd)

theorem controlFree_argument {arguments : ArgumentArray} {value : String}
    (h : value ∈ arguments.values) : ControlFree value := by
  have haccepted := arguments.accepted
  rw [validArguments, Bool.and_eq_true, List.all_eq_true] at haccepted
  exact controlFree_of_validNonControl (haccepted.2 value h)

theorem controlFree_healthArgument {arguments : PublicHealthArgumentArray} {value : String}
    (h : value ∈ arguments.values) : ControlFree value := by
  have haccepted := arguments.accepted
  rw [validHealthArguments, Bool.and_eq_true, List.all_eq_true] at haccepted
  exact controlFree_of_validNonControl (haccepted.2 value h)

theorem controlFree_healthCommand (command : PublicHealthCommand) : ControlFree command.asStr := by
  have h := command.accepted
  rw [isHealthCommand, Bool.and_eq_true] at h
  exact controlFree_of_validNonControl h.2

end Texts

section Lists

/-- Every argument is free of control characters. -/
def Unbroken (arguments : List String) : Prop := ∀ value ∈ arguments, ControlFree value

@[simp] theorem unbroken_nil : Unbroken [] := by simp [Unbroken]

@[simp] theorem unbroken_cons {value : String} {rest : List String} :
    Unbroken (value :: rest) ↔ ControlFree value ∧ Unbroken rest := List.forall_mem_cons

@[simp] theorem unbroken_append {first second : List String} :
    Unbroken (first ++ second) ↔ Unbroken first ∧ Unbroken second := List.forall_mem_append

variable {α : Type} {flag : String} {text : α → String}

theorem unbroken_repeated (hflag : ControlFree flag) {values : List α}
    (h : ∀ a ∈ values, ControlFree (text a)) :
    Unbroken (values.flatMap fun a => [flag, text a]) := by
  intro value hvalue
  obtain ⟨a, ha, hvalue⟩ := List.mem_flatMap.mp hvalue
  rcases List.mem_pair.mp hvalue with rfl | rfl
  · exact hflag
  · exact h a ha

theorem unbroken_map {values : List α} (h : ∀ a ∈ values, ControlFree (text a)) :
    Unbroken (values.map text) := by
  intro value hvalue
  obtain ⟨a, ha, rfl⟩ := List.mem_map.mp hvalue
  exact h a ha

theorem unbroken_flagArguments (hflag : ControlFree flag) (setting : Option α)
    (h : ∀ a, ControlFree (text a)) : Unbroken (flagArguments flag text setting) :=
  unbroken_repeated hflag fun a _ => h a

theorem mem_of_mapM_some {β : Type} {f : α → Option β} {l : List α} {values : List β}
    (h : l.mapM f = some values) {b : β} (hb : b ∈ values) : ∃ a ∈ l, f a = some b := by
  induction l generalizing values with
  | nil =>
      cases h
      cases hb
  | cons a l ih =>
      rw [List.mapM_cons, Option.bind_eq_bind, Option.bind_eq_some_iff] at h
      obtain ⟨c, hc, h⟩ := h
      rw [Option.bind_eq_bind, Option.bind_eq_some_iff] at h
      obtain ⟨rest, hrest, h⟩ := h
      cases h
      rcases List.mem_cons.mp hb with rfl | hb
      · exact ⟨a, List.mem_cons_self, hc⟩
      · obtain ⟨d, hd, hfd⟩ := ih hrest hb
        exact ⟨d, List.mem_cons_of_mem _ hd, hfd⟩

end Lists

section Network

theorem unbroken_networkOptions (attachment : NetworkAttachment) :
    Unbroken (networkOptions attachment) := by
  simp only [networkOptions, unbroken_append]
  refine ⟨⟨⟨?_, ?_⟩, ?_⟩, ?_⟩
  · exact unbroken_map fun value _ => controlFree_append.mpr ⟨by decide, controlFree_networkAlias value⟩
  · exact unbroken_map fun ipv4 _ => controlFree_append.mpr ⟨by decide, controlFree_display _⟩
  · exact unbroken_map fun ipv6 _ => controlFree_append.mpr ⟨by decide, controlFree_display _⟩
  · exact unbroken_map fun mac _ => controlFree_append.mpr ⟨by decide, controlFree_staticMac mac⟩

theorem controlFree_networkAttachmentCliValue {attachment : NetworkAttachment} {value : String}
    (h : networkAttachmentCliValue attachment = some value) : ControlFree value := by
  rw [networkAttachmentCliValue] at h
  split_ifs at h with hname hoptions
  · cases h
    exact DeploymentResourceId.controlFree_name _
  · cases h
    have hjoined := controlFree_joinWith (by decide : ControlFree ",")
      (unbroken_networkOptions attachment)
    simpa [DeploymentResourceId.controlFree_name, hjoined] using (by decide : ControlFree ":")

theorem unbroken_appendNetworkArguments {arguments values : List String}
    {networks : NetworkAttachments} {order : Option (List DeploymentResourceId)}
    (h : appendNetworkArguments arguments networks order = some values)
    (harguments : Unbroken arguments) : Unbroken values := by
  rw [appendNetworkArguments, Option.bind_eq_bind, Option.bind_eq_some_iff] at h
  obtain ⟨attachments, -, h⟩ := h
  rw [Option.bind_eq_bind, Option.bind_eq_some_iff] at h
  obtain ⟨texts, htexts, h⟩ := h
  cases h
  refine unbroken_append.mpr ⟨harguments, unbroken_repeated (by decide) fun text htext => ?_⟩
  obtain ⟨attachment, -, hvalue⟩ := mem_of_mapM_some htexts htext
  exact controlFree_networkAttachmentCliValue hvalue

theorem controlFree_hostIpPrefix (address : Option IpAddr) :
    ControlFree (hostIpPrefix address) := by
  cases address with
  | none => decide
  | some address =>
      rw [hostIpPrefix]
      split_ifs with hfamily
      · simpa [controlFree_display] using (by decide : ControlFree ":")
      · simp only [controlFree_append]
        exact ⟨⟨⟨by decide, controlFree_display address⟩, by decide⟩, by decide⟩

theorem unbroken_appendPortArguments {arguments : List String} (ports : PortMappings)
    (h : Unbroken arguments) : Unbroken (appendPortArguments arguments ports) := by
  refine unbroken_append.mpr ⟨h, unbroken_repeated (by decide) fun port _ => ?_⟩
  have hprotocol : ControlFree port.protocol.asStr := by cases port.protocol <;> decide
  simp only [portMappingCliValue, controlFree_append]
  exact ⟨⟨⟨⟨⟨controlFree_hostIpPrefix _, controlFree_repr _⟩, by decide⟩, controlFree_repr _⟩,
    by decide⟩, hprotocol⟩

theorem unbroken_appendDnsArguments {arguments : List String} (dns : DnsConfiguration)
    (h : Unbroken arguments) : Unbroken (appendDnsArguments arguments dns) := by
  simp only [appendDnsArguments, unbroken_append]
  exact ⟨⟨⟨h, unbroken_repeated (by decide) fun server _ => controlFree_display server⟩,
    unbroken_repeated (by decide) fun search _ => controlFree_dnsText search⟩,
    unbroken_repeated (by decide) fun option _ => controlFree_dnsText option⟩

theorem unbroken_appendHostAliasArguments {arguments : List String} (aliases : HostAliases)
    (h : Unbroken arguments) : Unbroken (appendHostAliasArguments arguments aliases) := by
  refine unbroken_append.mpr ⟨h, unbroken_repeated (by decide) fun entry _ => ?_⟩
  simp only [hostAliasValue, controlFree_append]
  exact ⟨⟨controlFree_hostname _, by decide⟩, controlFree_display _⟩

theorem controlFree_networkCidr (cidr : NetworkCidr) : ControlFree cidr.asStr := by
  simp only [NetworkCidr.asStr, controlFree_append]
  exact ⟨⟨controlFree_display _, by decide⟩, controlFree_repr _⟩

theorem controlFree_networkRoute (route : NetworkRoute) :
    ControlFree (networkRouteCliValue route) := by
  have hop : ControlFree (routeNextHop route) := by
    rw [routeNextHop]
    cases route.routeType with
    | unicast =>
        cases route.gateway with
        | none => decide
        | some g => exact controlFree_display g
    | blackhole => exact (by decide : ControlFree "blackhole")
    | unreachable => exact (by decide : ControlFree "unreachable")
    | prohibit => exact (by decide : ControlFree "prohibit")
  rw [networkRouteCliValue]
  cases route.metric with
  | none =>
      simp only [controlFree_append]
      exact ⟨⟨⟨controlFree_networkCidr _, by decide⟩, hop⟩, by decide⟩
  | some metric =>
      simp only [controlFree_append]
      exact ⟨⟨⟨controlFree_networkCidr _, by decide⟩, hop⟩, by decide, controlFree_repr _⟩

theorem unbroken_networkCreate (network : NetworkIntent) :
    Unbroken (networkCreateCliArguments network) := by
  simp only [networkCreateCliArguments, appendNetworkCreateArguments, unbroken_append]
  refine ⟨⟨⟨⟨⟨by simp only [unbroken_cons, unbroken_nil]; decide, ?_⟩, ?_⟩, ?_⟩, ?_⟩, ?_⟩
  · exact unbroken_repeated (by decide) fun subnet _ => controlFree_networkCidr _
  · exact unbroken_repeated (by decide) fun gateway _ => controlFree_display _
  · refine unbroken_repeated (by decide) fun bounds _ => ?_
    simp only [rangeCliValue, controlFree_append]
    exact ⟨⟨controlFree_display _, by decide⟩, controlFree_display _⟩
  · exact unbroken_repeated (by decide) fun route _ => controlFree_networkRoute route
  · simpa using DeploymentResourceId.controlFree_name _

end Network

end PodmanLens
