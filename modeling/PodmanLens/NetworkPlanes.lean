import PodmanLens.Positional
import PodmanLens.Render
import Std.Data.String.ToNat

/-!
# The two planes of a network creation

Podman gives the i-th `--gateway` and the i-th `--ip-range` to the i-th `--subnet`. The Libpod body
nests them in their subnet instead. The planes describe one network exactly when the subnets with
a gateway come before those without one, and likewise for the lease ranges: a skipped gateway
hands every later one to an earlier subnet, and two networks that differ only in which subnet has
the gateway then share their arguments.
-/

namespace PodmanLens
open Net Text Json Positional

section Reading

def networkCreateFlags : List String := ["--subnet", "--gateway", "--ip-range", "--route"]

def subnetValue (subnet : String) (gateway range : Option Value) : Value :=
  .object (insertSome (insertSome (insert [] "subnet" (.string subnet)) "gateway" gateway)
    "lease_range" range)

def rangeValue (text : String) : Option Value :=
  (splitOnce '-' text.toList).map fun bounds => .object <| ofPairs
    [("start_ip", .string (String.ofList bounds.1)), ("end_ip", .string (String.ofList bounds.2))]

/-- The subnets that the arguments describe when repeated flags pair by position. -/
def pairedSubnets (argv : List String) : List Value :=
  let gateways := (flagValues networkCreateFlags "--gateway" argv).map Value.string
  let ranges := (flagValues networkCreateFlags "--ip-range" argv).map rangeValue
  (flagValues networkCreateFlags "--subnet" argv).mapIdx fun i subnet =>
    subnetValue subnet gateways[i]? ranges[i]?.join

def bodySubnets (body : Value) : List Value :=
  match body.member "subnets" with
  | some (.array values) => values
  | _ => []

end Reading

section Members

variable (subnet : NetworkSubnet)

def gatewayMember : Option Value := subnet.gateway.map fun g => .string g.display

def rangeMember : Option Value := subnet.range.map leaseRangeJson

theorem subnetJson_eq :
    subnetJson subnet =
      subnetValue subnet.subnet.asStr (gatewayMember subnet) (rangeMember subnet) := rfl

theorem subnetValue_gateway (text : String) (gateway range : Option Value) :
    (subnetValue text gateway range).member "gateway" = gateway := by
  simp [subnetValue, Value.member, lookup_insertSome, lookup_insert, lookup]

theorem subnetValue_range (text : String) (gateway range : Option Value) :
    (subnetValue text gateway range).member "lease_range" = range := by
  simp [subnetValue, Value.member, lookup_insertSome, lookup_insert, lookup]

theorem subnetValue_inj (text : String) (gateway gateway' range range' : Option Value) :
    subnetValue text gateway range = subnetValue text gateway' range' ↔
      gateway = gateway' ∧ range = range' := by
  constructor
  · intro h
    have hgateway := congrArg (Value.member · "gateway") h
    have hrange := congrArg (Value.member · "lease_range") h
    simp only [subnetValue_gateway, subnetValue_range] at hgateway hrange
    exact ⟨hgateway, hrange⟩
  · rintro ⟨rfl, rfl⟩
    rfl

theorem rangeValue_rangeCliValue (bounds : IpAddr × IpAddr) :
    rangeValue (rangeCliValue bounds) = some (leaseRangeJson bounds) := by
  have hdash : '-' ∉ bounds.1.display.toList :=
    (IpAddr.addressText_display bounds.1).notMem (by decide)
  have htext : (rangeCliValue bounds).toList =
      bounds.1.display.toList ++ '-' :: bounds.2.display.toList := by
    simp [rangeCliValue]
  rw [rangeValue, htext, splitOnce_append hdash, Option.map_some, String.ofList_toList,
    String.ofList_toList]
  rfl

end Members

section Arguments

variable (network : NetworkIntent)

theorem flagValues_networkCreate (flag : String) :
    flagValues networkCreateFlags flag (networkCreateCliArguments network) =
      (if "--subnet" = flag then network.subnets.values.map fun s => s.subnet.asStr else []) ++
      ((if "--gateway" = flag then
        (network.subnets.values.filterMap NetworkSubnet.gateway).map IpAddr.display else []) ++
      ((if "--ip-range" = flag then
        (network.subnets.values.filterMap NetworkSubnet.range).map rangeCliValue else []) ++
      (if "--route" = flag then network.routes.values.map networkRouteCliValue else []))) := by
  have hname : flagValues networkCreateFlags flag [network.identity.val.name] = [] := rfl
  simp only [networkCreateCliArguments, appendNetworkCreateArguments, List.append_assoc]
  rw [List.cons_append, List.cons_append, List.nil_append, flagValues_skip _ (by decide),
    flagValues_skip _ (by decide), flagValues_repeated _ (by decide),
    flagValues_repeated _ (by decide), flagValues_repeated _ (by decide),
    flagValues_repeated _ (by decide), hname, List.append_nil]

theorem subnetFlags : flagValues networkCreateFlags "--subnet" (networkCreateCliArguments network) =
    network.subnets.values.map fun s => s.subnet.asStr := by
  simp [flagValues_networkCreate]

theorem gatewayFlags :
    (flagValues networkCreateFlags "--gateway" (networkCreateCliArguments network)).map
      Value.string = network.subnets.values.filterMap gatewayMember := by
  simp [flagValues_networkCreate, List.map_filterMap]
  rfl

theorem rangeFlags :
    (flagValues networkCreateFlags "--ip-range" (networkCreateCliArguments network)).map
      rangeValue = (network.subnets.values.filterMap rangeMember).map some := by
  have hrange : rangeValue ∘ rangeCliValue = some ∘ leaseRangeJson :=
    funext rangeValue_rangeCliValue
  simp [flagValues_networkCreate, List.map_filterMap, rangeMember, hrange]

theorem routeFlags : flagValues networkCreateFlags "--route" (networkCreateCliArguments network) =
    network.routes.values.map networkRouteCliValue := by
  simp [flagValues_networkCreate]

theorem pairedSubnets_networkCreate :
    pairedSubnets (networkCreateCliArguments network) =
      (network.subnets.values.map fun s => s.subnet.asStr).mapIdx fun i subnet =>
        subnetValue subnet (network.subnets.values.filterMap gatewayMember)[i]?
          (network.subnets.values.filterMap rangeMember)[i]? := by
  have hjoin (i : ℕ) : ((network.subnets.values.filterMap rangeMember).map some)[i]?.join =
      (network.subnets.values.filterMap rangeMember)[i]? := by
    rw [List.getElem?_map]
    cases (network.subnets.values.filterMap rangeMember)[i]? with
    | none => rfl
    | some value => rfl
  simp only [pairedSubnets, subnetFlags, gatewayFlags, rangeFlags, hjoin]

end Arguments

section Bodies

theorem bodySubnets_networkCreate (network : NetworkIntent) (supportsRouteType : Bool) :
    bodySubnets (networkCreateConfiguration network supportsRouteType) =
      network.subnets.values.map subnetJson := by
  have hmember : (networkCreateConfiguration network supportsRouteType).member "subnets" =
      if network.subnets.values.isEmpty then none
      else some (.array (network.subnets.values.map subnetJson)) := by
    simp [networkCreateConfiguration, Value.member, lookup_insertSome, lookup_insert, lookup]
  rw [bodySubnets, hmember]
  cases network.subnets.values with
  | nil => rfl
  | cons subnet rest => rfl

theorem networkCreateConfiguration_congr {first second : NetworkIntent} (supportsRouteType : Bool)
    (hname : first.identity.val.name = second.identity.val.name)
    (hsubnets : first.subnets.values.map subnetJson = second.subnets.values.map subnetJson)
    (hroutes : first.routes.values.map (routeJson supportsRouteType) =
      second.routes.values.map (routeJson supportsRouteType)) :
    networkCreateConfiguration first supportsRouteType =
      networkCreateConfiguration second supportsRouteType := by
  have hnoSubnets : first.subnets.values.isEmpty = second.subnets.values.isEmpty := by
    simpa using congrArg List.isEmpty hsubnets
  have hnoRoutes : first.routes.values.isEmpty = second.routes.values.isEmpty := by
    simpa using congrArg List.isEmpty hroutes
  simp only [networkCreateConfiguration, hname, hsubnets, hroutes, hnoSubnets, hnoRoutes]

end Bodies

section Pairing

/-- Subnets that set a gateway come first, and so do subnets that set a lease range. -/
def MembersLead (network : NetworkIntent) : Prop :=
  Leading NetworkSubnet.gateway network.subnets.values ∧
    Leading NetworkSubnet.range network.subnets.values

instance (network : NetworkIntent) : Decidable (MembersLead network) :=
  inferInstanceAs (Decidable (_ ∧ _))

theorem leading_gatewayMember (l : List NetworkSubnet) :
    Leading gatewayMember l ↔ Leading NetworkSubnet.gateway l := by
  simp only [Leading, gatewayMember, Option.isSome_map]

theorem leading_rangeMember (l : List NetworkSubnet) :
    Leading rangeMember l ↔ Leading NetworkSubnet.range l := by
  simp only [Leading, rangeMember, Option.isSome_map]

theorem pairedSubnets_eq_bodySubnets_iff (network : NetworkIntent) (supportsRouteType : Bool) :
    pairedSubnets (networkCreateCliArguments network) =
      bodySubnets (networkCreateConfiguration network supportsRouteType) ↔
        MembersLead network := by
  have hposition (i : ℕ) :
      ((network.subnets.values.map subnetJson)[i]? =
        (network.subnets.values.map fun s => s.subnet.asStr)[i]?.map fun subnet =>
          subnetValue subnet (network.subnets.values.filterMap gatewayMember)[i]?
            (network.subnets.values.filterMap rangeMember)[i]?) ↔
      (network.subnets.values.filterMap gatewayMember)[i]? =
          network.subnets.values[i]?.bind gatewayMember ∧
        (network.subnets.values.filterMap rangeMember)[i]? =
          network.subnets.values[i]?.bind rangeMember := by
    cases hsubnet : network.subnets.values[i]? with
    | none =>
        simp [getElem?_filterMap_of_none _ hsubnet, hsubnet]
    | some subnet =>
        rw [List.getElem?_map, List.getElem?_map, hsubnet, Option.map_some, Option.map_some,
          Option.map_some, Option.some_inj, subnetJson_eq, subnetValue_inj, Option.bind_some,
          Option.bind_some, eq_comm, @eq_comm _ (rangeMember subnet)]
  rw [pairedSubnets_networkCreate, bodySubnets_networkCreate, List.mapIdx_eq_iff, MembersLead,
    ← leading_gatewayMember, ← leading_rangeMember, ← getElem?_filterMap_iff_leading,
    ← getElem?_filterMap_iff_leading, ← forall_and]
  exact forall_congr' hposition

end Pairing

section Routes

theorem RouteType.asStr_injective : Function.Injective RouteType.asStr := by
  intro a b h
  cases a <;> cases b <;> first | rfl | exact absurd h (by decide)

theorem RouteType.not_addressText (t : RouteType) : ¬AddressText t.asStr := by
  intro h
  cases t with
  | unicast => exact absurd (h 'u' (by decide)) (by decide)
  | blackhole => exact absurd (h 'l' (by decide)) (by decide)
  | unreachable => exact absurd (h 'u' (by decide)) (by decide)
  | prohibit => exact absurd (h 'p' (by decide)) (by decide)

/-- A unicast route spells its gateway, every other route its type. -/
theorem routeNextHop_spec (route : NetworkRoute) :
    (route.routeType = .unicast ∧ ∃ g, route.gateway = some g ∧ routeNextHop route = g.display) ∨
      (route.routeType ≠ .unicast ∧ route.gateway = none ∧
        routeNextHop route = route.routeType.asStr) := by
  have hvalid := route.validGateway
  cases htype : route.routeType with
  | unicast =>
      cases hgateway : route.gateway with
      | none => simp [validRouteGateway, htype, hgateway] at hvalid
      | some g => exact .inl ⟨rfl, g, rfl, by simp [routeNextHop, htype, hgateway]⟩
  | blackhole | unreachable | prohibit =>
      rw [htype] at hvalid
      exact .inr ⟨by simp, by simpa [validRouteGateway] using hvalid,
        by simp [routeNextHop, htype, RouteType.asStr]⟩

theorem comma_notMem_routeNextHop (route : NetworkRoute) :
    ',' ∉ (routeNextHop route).toList := by
  rcases routeNextHop_spec route with ⟨-, g, -, hop⟩ | ⟨-, -, hop⟩
  · rw [hop]
    exact (IpAddr.addressText_display g).notMem (by decide)
  · rw [hop]
    cases route.routeType <;> decide

theorem comma_notMem_cidr (cidr : NetworkCidr) : ',' ∉ cidr.asStr.toList := by
  have haddress : ',' ∉ cidr.network.display.toList :=
    (IpAddr.addressText_display cidr.network).notMem (by decide)
  have hlength : ',' ∉ cidr.prefixLength.repr.toList :=
    (addressText_repr cidr.prefixLength).notMem (by decide)
  rw [NetworkCidr.asStr, String.toList_append, String.toList_append, List.mem_append,
    List.mem_append]
  rintro ((hmem | hmem) | hmem)
  · exact haddress hmem
  · exact absurd hmem (by decide)
  · exact hlength hmem

theorem routeNextHop_injective {first second : NetworkRoute}
    (h : routeNextHop first = routeNextHop second) :
    first.gateway.map IpAddr.display = second.gateway.map IpAddr.display ∧
      first.routeType = second.routeType := by
  rcases routeNextHop_spec first with ⟨ht, g, hg, hop⟩ | ⟨ht, hg, hop⟩
  · rcases routeNextHop_spec second with ⟨ht', g', hg', hop'⟩ | ⟨ht', hg', hop'⟩
    · rw [hop, hop'] at h
      rw [hg, hg', ht, ht', Option.map_some, Option.map_some, h]
      exact ⟨rfl, rfl⟩
    · rw [hop, hop'] at h
      exact absurd (h ▸ IpAddr.addressText_display g) (RouteType.not_addressText _)
  · rcases routeNextHop_spec second with ⟨ht', g', hg', hop'⟩ | ⟨ht', hg', hop'⟩
    · rw [hop, hop'] at h
      exact absurd (h ▸ IpAddr.addressText_display g') (RouteType.not_addressText _)
    · rw [hop, hop'] at h
      exact ⟨by rw [hg, hg'], RouteType.asStr_injective h⟩

def metricSuffix (metric : Option UInt32) : List Char :=
  match metric with
  | some metric => ',' :: metric.toNat.repr.toList
  | none => []

theorem networkRouteCliValue_toList (route : NetworkRoute) :
    (networkRouteCliValue route).toList =
      route.destination.asStr.toList ++
        ',' :: ((routeNextHop route).toList ++ metricSuffix route.metric) := by
  cases hmetric : route.metric with
  | none => simp [networkRouteCliValue, metricSuffix, hmetric]
  | some metric => simp [networkRouteCliValue, metricSuffix, hmetric]

theorem splitOnce_hop (route : NetworkRoute) (metric : Option UInt32) :
    splitOnce ',' ((routeNextHop route).toList ++ metricSuffix metric) =
      metric.map fun m => ((routeNextHop route).toList, m.toNat.repr.toList) := by
  have hcomma := comma_notMem_routeNextHop route
  cases metric with
  | none =>
      rw [metricSuffix, List.append_nil]
      exact splitOnce_eq_none hcomma
  | some m => exact splitOnce_append hcomma _

theorem hop_metric_injective {first second : NetworkRoute}
    (h : (routeNextHop first).toList ++ metricSuffix first.metric =
      (routeNextHop second).toList ++ metricSuffix second.metric) :
    routeNextHop first = routeNextHop second ∧ first.metric = second.metric := by
  have hsplit := congrArg (splitOnce ',') h
  rw [splitOnce_hop, splitOnce_hop] at hsplit
  cases hfirst : first.metric with
  | none =>
      cases hsecond : second.metric with
      | none =>
          rw [hfirst, hsecond] at h
          exact ⟨String.toList_injective (by simpa [metricSuffix] using h), rfl⟩
      | some m => simp [hfirst, hsecond] at hsplit
  | some m =>
      cases hsecond : second.metric with
      | none => simp [hfirst, hsecond] at hsplit
      | some n =>
          rw [hfirst, hsecond, Option.map_some, Option.map_some, Option.some_inj] at hsplit
          obtain ⟨hop, hmetric⟩ := Prod.mk.inj hsplit
          have hnat : m.toNat = n.toNat := Nat.repr_injective (String.toList_injective hmetric)
          exact ⟨String.toList_injective hop, by rw [UInt32.toNat_inj.mp hnat]⟩

theorem routeJson_of_cliValue {first second : NetworkRoute} (supportsRouteType : Bool)
    (h : networkRouteCliValue first = networkRouteCliValue second) :
    routeJson supportsRouteType first = routeJson supportsRouteType second := by
  have hlist := congrArg (fun text => splitOnce ',' text.toList) h
  simp only [networkRouteCliValue_toList, splitOnce_append (comma_notMem_cidr _),
    Option.some_inj, Prod.mk.injEq, String.toList_inj] at hlist
  obtain ⟨hdestination, hrest⟩ := hlist
  obtain ⟨hop, hmetric⟩ := hop_metric_injective hrest
  obtain ⟨hgateway, htype⟩ := routeNextHop_injective hop
  have hgatewayJson (route : NetworkRoute) : (route.gateway.map fun g => Value.string g.display) =
      (route.gateway.map IpAddr.display).map Value.string := by
    rw [Option.map_map]
    rfl
  simp only [routeJson, hdestination, hmetric, htype, hgatewayJson, hgateway]

end Routes

section Determination

/-- The same positions set a gateway, and the same positions set a lease range. -/
def SameMembers (first second : NetworkIntent) : Prop :=
  first.subnets.values.map (fun s => s.gateway.isSome) =
      second.subnets.values.map (fun s => s.gateway.isSome) ∧
    first.subnets.values.map (fun s => s.range.isSome) =
      second.subnets.values.map fun s => s.range.isSome

instance (first second : NetworkIntent) : Decidable (SameMembers first second) :=
  inferInstanceAs (Decidable (_ ∧ _))

variable {first second : NetworkIntent}

theorem sameMembers_of_subnetJson
    (h : first.subnets.values.map subnetJson = second.subnets.values.map subnetJson) :
    SameMembers first second := by
  have hmember (key : String) := congrArg (List.map fun value => (Value.member value key).isSome) h
  have hgateway := hmember "gateway"
  have hrange := hmember "lease_range"
  simp only [List.map_map, Function.comp_def, subnetJson_eq, subnetValue_gateway,
    subnetValue_range, gatewayMember, rangeMember, Option.isSome_map] at hgateway hrange
  exact ⟨hgateway, hrange⟩

theorem subnetJson_of_sameMembers
    (hargs : networkCreateCliArguments first = networkCreateCliArguments second)
    (h : SameMembers first second) :
    first.subnets.values.map subnetJson = second.subnets.values.map subnetJson := by
  have hsubnets := congrArg (flagValues networkCreateFlags "--subnet") hargs
  have hgateways := congrArg (fun argv =>
    (flagValues networkCreateFlags "--gateway" argv).map Value.string) hargs
  have hranges := congrArg (fun argv =>
    (flagValues networkCreateFlags "--ip-range" argv).map rangeValue) hargs
  simp only [subnetFlags, gatewayFlags, rangeFlags] at hsubnets hgateways hranges
  have hgateway : first.subnets.values.map gatewayMember =
      second.subnets.values.map gatewayMember :=
    map_eq_of_filterMap_eq hgateways (by simpa [gatewayMember] using h.1)
  have hrange : first.subnets.values.map rangeMember = second.subnets.values.map rangeMember :=
    map_eq_of_filterMap_eq (List.map_injective_iff.mpr (Option.some_injective _) hranges)
      (by simpa [rangeMember] using h.2)
  have hvalues (network : NetworkIntent) : network.subnets.values.map subnetJson =
      (((network.subnets.values.map fun s => s.subnet.asStr).zip
        (network.subnets.values.map gatewayMember)).zip
          (network.subnets.values.map rangeMember)).map
            fun parts => subnetValue parts.1.1 parts.1.2 parts.2 := by
    rw [List.zip_map', List.zip_map', List.map_map]
    rfl
  rw [hvalues, hvalues, hsubnets, hgateway, hrange]

theorem networkCreateConfiguration_eq_iff (supportsRouteType : Bool)
    (hargs : networkCreateCliArguments first = networkCreateCliArguments second) :
    networkCreateConfiguration first supportsRouteType =
      networkCreateConfiguration second supportsRouteType ↔
        first.subnets.values.map subnetJson = second.subnets.values.map subnetJson := by
  constructor
  · intro h
    have hbody := congrArg bodySubnets h
    rwa [bodySubnets_networkCreate, bodySubnets_networkCreate] at hbody
  · intro hsubnets
    have hname : first.identity.val.name = second.identity.val.name := by
      have hlast := List.append_inj_right' hargs rfl
      exact (List.cons.inj hlast).1
    have hroutes := congrArg (flagValues networkCreateFlags "--route") hargs
    rw [routeFlags, routeFlags] at hroutes
    have hfactors : Function.FactorsThrough (routeJson supportsRouteType) networkRouteCliValue :=
      fun _ _ h => routeJson_of_cliValue supportsRouteType h
    have : Nonempty Value := ⟨.null⟩
    obtain ⟨decode, hdecode⟩ := (Function.factorsThrough_iff _).mp hfactors
    apply networkCreateConfiguration_congr supportsRouteType hname hsubnets
    rw [hdecode, ← List.map_map, ← List.map_map, hroutes]

/-- The two planes of one network agree exactly when its gateways and its lease ranges lead, and
networks with the same arguments have the same body exactly when the same subnets set them. -/
theorem networkPlanes_agree_iff (version : String) :
    (∀ network : NetworkIntent,
      pairedSubnets (networkCreateCliArguments network) =
        bodySubnets (networkCreateConfiguration network (supportsNetworkRouteType version)) ↔
          MembersLead network) ∧
    (∀ first second : NetworkIntent,
      networkCreateCliArguments first = networkCreateCliArguments second →
        (networkCreateConfiguration first (supportsNetworkRouteType version) =
          networkCreateConfiguration second (supportsNetworkRouteType version) ↔
            SameMembers first second)) ∧
    ∀ first second : NetworkIntent, MembersLead first → MembersLead second →
      networkCreateCliArguments first = networkCreateCliArguments second →
        networkCreateConfiguration first (supportsNetworkRouteType version) =
          networkCreateConfiguration second (supportsNetworkRouteType version) := by
  refine ⟨fun network => pairedSubnets_eq_bodySubnets_iff network _, ?_, ?_⟩
  · intro first second hargs
    rw [networkCreateConfiguration_eq_iff _ hargs]
    exact ⟨sameMembers_of_subnetJson, subnetJson_of_sameMembers hargs⟩
  · intro first second hfirst hsecond hargs
    have hfirst := (pairedSubnets_eq_bodySubnets_iff first false).mpr hfirst
    have hsecond := (pairedSubnets_eq_bodySubnets_iff second false).mpr hsecond
    rw [bodySubnets_networkCreate] at hfirst hsecond
    apply (networkCreateConfiguration_eq_iff _ hargs).mpr
    rw [← hfirst, hargs, hsecond]

end Determination

section Sample

def wideSubnet : NetworkCidr := ⟨.v4 0x0a000000#32, 8, by decide, by decide⟩

def narrowSubnet : NetworkCidr := ⟨.v4 0x0a000000#32, 16, by decide, by decide⟩

def sampleGateway : IpAddr := .v4 0x0a000001#32

/-- Two overlapping subnets, each of which may have the gateway. -/
def overlappingNetwork (wide narrow : Option IpAddr)
    (hwide : ∀ address ∈ wide, wideSubnet.contains address = true)
    (hnarrow : ∀ address ∈ narrow, narrowSubnet.contains address = true) : NetworkIntent where
  identity := ⟨⟨.network, "backend", by decide⟩, rfl⟩
  subnets := {
    values := [
      { subnet := wideSubnet, gateway := wide, gateway_mem := hwide },
      { subnet := narrowSubnet, gateway := narrow, gateway_mem := hnarrow }]
    bounded := by simp [maxIpamSubnets]
    distinct := by
      have hdistinct : (wideSubnet == narrowSubnet) = false := by decide
      simpa using hdistinct }

def gatewayOnNarrow : NetworkIntent := overlappingNetwork none (some sampleGateway)
  (by decide) (by decide)

def gatewayOnWide : NetworkIntent := overlappingNetwork (some sampleGateway) none
  (by decide) (by decide)

theorem gatewayOnNarrow_moves :
    pairedSubnets (networkCreateCliArguments gatewayOnNarrow) ≠
      bodySubnets (networkCreateConfiguration gatewayOnNarrow (supportsNetworkRouteType "6.0.0")) ∧
    networkCreateCliArguments gatewayOnNarrow = networkCreateCliArguments gatewayOnWide ∧
    networkCreateConfiguration gatewayOnNarrow (supportsNetworkRouteType "6.0.0") ≠
      networkCreateConfiguration gatewayOnWide (supportsNetworkRouteType "6.0.0") := by
  have hargs : networkCreateCliArguments gatewayOnNarrow =
      networkCreateCliArguments gatewayOnWide := by decide
  refine ⟨?_, hargs, ?_⟩
  · rw [Ne, pairedSubnets_eq_bodySubnets_iff]
    decide
  · rw [Ne, networkCreateConfiguration_eq_iff _ hargs]
    intro h
    exact absurd (sameMembers_of_subnetJson h) (by decide)

theorem networkPlanes_agree_iff_sample :
    pairedSubnets (networkCreateCliArguments gatewayOnWide) =
        bodySubnets (networkCreateConfiguration gatewayOnWide (supportsNetworkRouteType "6.0.0")) ∧
      networkCreateConfiguration gatewayOnWide (supportsNetworkRouteType "6.0.0") ≠
        networkCreateConfiguration gatewayOnNarrow (supportsNetworkRouteType "6.0.0") ∧
      networkCreateConfiguration gatewayOnWide (supportsNetworkRouteType "6.0.0") =
        networkCreateConfiguration gatewayOnWide (supportsNetworkRouteType "6.0.0") := by
  obtain ⟨hpaired, hsame, hlead⟩ := networkPlanes_agree_iff "6.0.0"
  refine ⟨(hpaired gatewayOnWide).mpr (by decide), ?_,
    hlead gatewayOnWide gatewayOnWide (by decide) (by decide) rfl⟩
  rw [Ne, hsame gatewayOnWide gatewayOnNarrow (by decide)]
  decide

end Sample

end PodmanLens
