import PodmanLens.DeclaredValues
import PodmanLens.RuntimePlanes

/-!
# Networking in both planes

Published ports, DNS values and host aliases are equal on either plane for the same settings.
Attachments keep their order on the command line only, and the body names an explicit order in a
member of its own.
-/

namespace PodmanLens
open Options Text Json Validated Net

section Endpoints

/-- The settings that both planes carry in their declared order. -/
def SameEndpoints (ports others : PortMappings) (dns dns' : DnsConfiguration)
    (aliases aliases' : HostAliases) : Prop :=
  ports.values = others.values ∧
    dns.servers.values.map IpAddr.display = dns'.servers.values.map IpAddr.display ∧
    dns.search.values.map Checked.asStr = dns'.search.values.map Checked.asStr ∧
    dns.options.values.map Checked.asStr = dns'.options.values.map Checked.asStr ∧
    aliases.values.map hostAliasValue = aliases'.values.map hostAliasValue

variable {ports others : PortMappings} {dns dns' : DnsConfiguration} {aliases aliases' : HostAliases}

theorem display_ne_empty (a : IpAddr) : a.display ≠ "" := by
  intro h
  cases a with
  | v4 bits =>
      have hdot := dot_mem_displayIpv4 bits
      rw [show displayIpv4 bits = "" from h] at hdot
      cases hdot
  | v6 bits =>
      have hcolon := colon_mem_displayIpv6 bits
      rw [show displayIpv6 bits = "" from h] at hcolon
      cases hcolon

/-- An omitted host address is the empty text, which no address is. -/
theorem hostIp_injective :
    Function.Injective fun hostIp : Option IpAddr => (hostIp.map IpAddr.display).getD "" := by
  intro a b h
  cases a with
  | none =>
      cases b with
      | none => rfl
      | some b => exact absurd h.symm (display_ne_empty b)
  | some a =>
      cases b with
      | none => exact absurd h (display_ne_empty a)
      | some b => rw [IpAddr.display_injective h]

theorem portMappingJson_injective : Function.Injective portMappingJson := by
  intro a b h
  have hip := congrArg (Value.member · "host_ip") h
  have hhost := congrArg (Value.member · "host_port") h
  have hcontainer := congrArg (Value.member · "container_port") h
  have hprotocol := congrArg (Value.member · "protocol") h
  simp [portMappingJson, Value.member, ofPairs, lookup_insert,
    PortProtocol.asStr_injective.eq_iff] at hip hhost hcontainer hprotocol
  have hip := hostIp_injective hip
  have hhost := UInt16.toNat_inj.mp hhost
  have hcontainer := UInt16.toNat_inj.mp hcontainer
  obtain ⟨hostIp, hostPort, containerPort, protocol, _, _⟩ := a
  cases hip
  cases hhost
  cases hcontainer
  cases hprotocol
  rfl

theorem networkingSegments_inj {texts texts' : List String} :
    networkingSegments texts ports dns aliases = networkingSegments texts' others dns' aliases' ↔
      texts = texts' ∧ SameEndpoints ports others dns dns' aliases aliases' := by
  simp only [networkingSegments, SameEndpoints, List.cons.injEq, and_true, valued_inj,
    texts_inj portMappingCliValue_injective]

/-- The members of networking before the explicit order. -/
def endpointMembers (ports : PortMappings) (dns : DnsConfiguration) (aliases : HostAliases) :
    List (String × Option Value) :=
  (networkingMembers ports dns aliases none).dropLast

theorem networkingMembers_eq (order : Option (List DeploymentResourceId)) :
    networkingMembers ports dns aliases order = endpointMembers ports dns aliases ++
      [("networkOrder", order.map fun order =>
        stringArray (order.map DeploymentResourceId.name))] := rfl

theorem endpointMembers_inj : endpointMembers ports dns aliases = endpointMembers others dns' aliases' ↔
    SameEndpoints ports others dns dns' aliases aliases' := by
  simp only [endpointMembers, networkingMembers, List.dropLast, SameEndpoints, List.cons.injEq,
    Prod.mk.injEq, true_and, and_true, textsMember_inj,
    nonEmpty_inj (array_injective portMappingJson_injective)]

theorem networkingSegments_perm {texts texts' : List String} (htexts : texts.Perm texts')
    (h : SameEndpoints ports others dns dns' aliases aliases') :
    (networkingSegments texts ports dns aliases).flatten.Perm
      (networkingSegments texts' others dns' aliases').flatten := by
  have hsegments : networkingSegments texts ports dns aliases =
      networkingSegments texts others dns' aliases' := networkingSegments_inj.mpr ⟨rfl, h⟩
  rw [hsegments, networkingSegments, networkingSegments, List.flatten_cons, List.flatten_cons]
  exact (htexts.map _).append_right _

end Endpoints

section Attachments

variable {networks others : NetworkAttachments} {order order' : Option (List DeploymentResourceId)}

theorem networkTexts_inj
    (hsafe : ∀ attachment ∈ flaggedAttachments networks order,
      cliSafeMountComponent attachment.network.val.name = true)
    (hothers : ∀ attachment ∈ flaggedAttachments others order',
      cliSafeMountComponent attachment.network.val.name = true)
    (h : networkTexts networks order = networkTexts others order') :
    flaggedAttachments networks order = flaggedAttachments others order' := by
  have hread {networks : NetworkAttachments} {order : Option (List DeploymentResourceId)}
      (hsafe : ∀ attachment ∈ flaggedAttachments networks order,
        cliSafeMountComponent attachment.network.val.name = true) :
      (networkTexts networks order).map readNetworkFlag =
        (flaggedAttachments networks order).map declaredNetwork := by
    rw [networkTexts, List.map_map]
    exact List.map_congr_left fun attachment hattachment =>
      readNetworkFlag_attachmentText (hsafe attachment hattachment)
  have hdeclared := congrArg (List.map readNetworkFlag) h
  rw [hread hsafe, hread hothers] at hdeclared
  exact List.map_injective_iff.mpr declaredNetwork_injective hdeclared

/-- The body holds the attachments without their order. -/
theorem networkConfiguration_inj :
    networkConfiguration networks = networkConfiguration others ↔
      networks.values.Perm others.values := by
  have hpair : Function.Injective fun attachment : NetworkAttachment =>
      (attachment.network.val.name, Value.object (networkOptionsJson attachment)) := by
    intro a b h
    apply declaredNetwork_injective
    rw [← readNetworkMember_eq, ← readNetworkMember_eq]
    exact congrArg readNetworkMember h
  have hkeys (networks : NetworkAttachments) : ((networks.values.map fun attachment =>
      (attachment.network.val.name, Value.object (networkOptionsJson attachment))).map
        Prod.fst).Nodup := by
    rw [List.map_map]
    exact networks.names_nodup
  rw [networkConfiguration, networkConfiguration, Value.object.injEq,
    ofPairs_eq_iff_perm (hkeys networks) (hkeys others), List.map_perm_map_iff hpair]

end Attachments

end PodmanLens
