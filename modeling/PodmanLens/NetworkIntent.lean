import Mathlib.Data.List.Forall2
import PodmanLens.NativeNetworks

/-!
# Observed address plans as intent

The subnets and routes that inspection reports are read a second time by the constructors of a
deployment, which store a canonical network and refuse addresses that do not fit it. Both readings
accept the same elements and give the same addresses.
-/

section Related
variable {α β γ δ : Type} {R : α → β → Prop} {S : γ → δ → Prop}

theorem Option.Rel.isSome_eq {a : Option α} {b : Option β} (h : Rel R a b) :
    a.isSome = b.isSome := by
  cases h <;> rfl

theorem Option.Rel.bind {a : Option α} {b : Option β} {f : α → Option γ} {g : β → Option δ}
    (h : Rel R a b) (hstep : ∀ x y, R x y → Rel S (f x) (g y)) : Rel S (a.bind f) (b.bind g) := by
  cases h with
  | some hrel => exact hstep _ _ hrel
  | none => exact .none

/-- Lists of related options are both complete and related, or both incomplete. -/
theorem List.Forall₂.rel_mapM_id {xs : List (Option α)} {ys : List (Option β)}
    (h : Forall₂ (Option.Rel R) xs ys) : Option.Rel (Forall₂ R) (xs.mapM id) (ys.mapM id) := by
  induction h with
  | nil => exact .some .nil
  | cons hhead htail ih =>
      rw [List.mapM_cons, List.mapM_cons]
      refine hhead.bind fun x y hxy => ih.bind fun xs ys hxs => ?_
      exact .some (.cons hxy hxs)

end Related

namespace PodmanLens
open Json Net Text

section Intent

/-- An address that may be missing or null. -/
def optionalAddress (value : Option Value) : Option (Option IpAddr) :=
  match supplied value with
  | none => some none
  | some value => value.asAddress.map some

def declaredCidr (value : Option Value) : Option NetworkCidr :=
  (value.bind Value.asStr).bind fun text => (NetworkCidr.ofText text).toOption

def declaredGateway (subnet : NetworkSubnet) (gateway : Option IpAddr) : Option NetworkSubnet :=
  match gateway with
  | none => some subnet
  | some address => (subnet.setGateway address).toOption

def declaredRange (subnet : NetworkSubnet) (range : Option Value) : Option NetworkSubnet :=
  match supplied range with
  | none => some subnet
  | some range => do
    let startIp ← (range.member "start_ip").bind Value.asAddress
    let endIp ← (range.member "end_ip").bind Value.asAddress
    (subnet.setRange startIp endIp).toOption

/-- The subnet that a deployment declares with the members of an object. -/
def declaredSubnet (object : Members) : Option NetworkSubnet := do
  let cidr ← declaredCidr (lookup object "subnet")
  let gateway ← optionalAddress (lookup object "gateway")
  let subnet ← declaredGateway (.new cidr) gateway
  declaredRange subnet (lookup object "lease_range")

def NativeNetworkRouteType.declared : NativeNetworkRouteType → RouteType
  | .unicast => .unicast
  | .blackhole => .blackhole
  | .unreachable => .unreachable
  | .prohibit => .prohibit

/-- A route that does not tell its type is declared as unicast. -/
def declaredRouteType (available : Bool) (value : Option Value) : Option RouteType :=
  if !available then some .unicast
  else
    match supplied value with
    | none => some .unicast
    | some value => (value.asStr.bind nativeRouteTypeFromName).map NativeNetworkRouteType.declared

def declaredRoute (available : Bool) (object : Members) : Option NetworkRoute := do
  let destination ← declaredCidr (lookup object "destination")
  let gateway ← optionalAddress (lookup object "gateway")
  let routeType ← declaredRouteType available (lookup object "route_type")
  (NetworkRoute.new destination gateway routeType).toOption

end Intent

section Networks

/-- The declared network is the canonical one of the observed spelling. -/
structure SameCidr (native : NativeNetworkCidr) (declared : NetworkCidr) : Prop where
  network : declared.network = native.network.masked native.prefixLength
  prefixLength : declared.prefixLength = native.prefixLength

theorem SameCidr.hasAddressFamily_eq {native : NativeNetworkCidr} {declared : NetworkCidr}
    (h : SameCidr native declared) (address : IpAddr) :
    declared.hasAddressFamily address = native.hasAddressFamily address := by
  rw [NetworkCidr.hasAddressFamily, h.network, IpAddr.isIpv4_masked]
  rfl

theorem SameCidr.contains_eq {native : NativeNetworkCidr} {declared : NetworkCidr}
    (h : SameCidr native declared) (address : IpAddr) :
    declared.contains address = native.contains address := by
  rw [NetworkCidr.contains, h.hasAddressFamily_eq, h.network, h.prefixLength]
  rfl

theorem rel_parse_ofText {text : String} (h : text.utf8ByteSize ≤ 128) :
    Option.Rel SameCidr (NativeNetworkCidr.parse text) (NetworkCidr.ofText text).toOption := by
  rw [NativeNetworkCidr.parse]
  split
  · next hspelled =>
      rw [NetworkCidr.ofText, hspelled]
      exact .none
  · next network prefixLength hspelled =>
      have hread : NetworkCidr.ofText text = NetworkCidr.ofParts network prefixLength := by
        rw [NetworkCidr.ofText, hspelled]
        exact if_neg (by omega)
      rw [hread, NetworkCidr.ofParts]
      split_ifs with hbounded
      · exact .some ⟨rfl, rfl⟩
      · exact .none

/-- A text that is not too long for a declaration. -/
def DeclarableText (value : Option Value) : Prop :=
  ∀ text, value = some (.string text) → text.utf8ByteSize ≤ 128

variable (identity : ResourceIdentity)

theorem rel_nativeCidrField {value : Option Value} (path : String) (h : DeclarableText value) :
    Option.Rel SameCidr (nativeCidrField identity value path true).value.toOption
      (declaredCidr value) := by
  unfold nativeCidrField
  split
  · next spelling =>
      have hrel := rel_parse_ofText (h spelling rfl)
      have hdeclared : declaredCidr (some (.string spelling)) =
          (NetworkCidr.ofText spelling).toOption := rfl
      rw [hdeclared]
      split
      · next cidr hcidr => rwa [hcidr] at hrel
      · next hcidr => rwa [hcidr] at hrel
  · exact .none
  · exact .none
  · next found hstring _ =>
      have hdeclared : declaredCidr (some found) = none := by
        cases found with
        | string text => exact absurd rfl (hstring text)
        | _ => rfl
      rw [hdeclared]
      exact .none

/-- Reading an address that may be missing. -/
theorem optionalAddress_eq (value : Option Value) (path : String) (origin : ObservationOrigin) :
    optionalAddress value =
      if (nativeIpField identity value path origin).value.isMalformed then none
      else some (nativeIpField identity value path origin).value.toOption := by
  rw [optionalAddress, nativeIpField, value_scalarField]
  cases supplied value with
  | none => rfl
  | some found => cases haddress : found.asAddress <;> simp [haddress, ObservationField.toOption,
      ObservationField.isMalformed]

/-- A required CIDR is observed or malformed. -/
theorem isMalformed_nativeCidrField (value : Option Value) (path : String) :
    (nativeCidrField identity value path true).value.isMalformed =
      (nativeCidrField identity value path true).value.toOption.isNone := by
  unfold nativeCidrField
  split
  · split <;> rfl
  · rfl
  · rfl
  · rfl

end Networks

section Subnets
variable (identity : ResourceIdentity) {cidr : NativeNetworkCidr} {subnet : NetworkSubnet}

theorem declaredGateway_cases (hcidr : SameCidr cidr subnet.subnet) (hfree : subnet.gateway = none)
    (gateway : Option IpAddr) :
    (gatewayOutside (some cidr) gateway = true ∧ declaredGateway subnet gateway = none) ∨
    gatewayOutside (some cidr) gateway = false ∧ ∃ declared,
      declaredGateway subnet gateway = some declared ∧ declared.subnet = subnet.subnet ∧
        declared.gateway = gateway ∧ declared.range = subnet.range := by
  cases gateway with
  | none => exact .inr ⟨rfl, subnet, rfl, rfl, hfree, rfl⟩
  | some address =>
      rw [gatewayOutside, declaredGateway, NetworkSubnet.setGateway, ← hcidr.contains_eq]
      by_cases hcontains : subnet.subnet.contains address = true
      · rw [dif_pos ⟨hcontains, by rw [hfree]; rfl⟩]
        exact .inr ⟨by rw [hcontains]; rfl, _, rfl, rfl, rfl, rfl⟩
      · rw [dif_neg fun h => hcontains h.1, Bool.eq_false_of_not_eq_true hcontains]
        exact .inl ⟨rfl, rfl⟩

/-- Both endpoints of an observed lease range. -/
def leaseEndpoints (field : ObservationField NativeNetworkLeaseRange) :
    Option (IpAddr × IpAddr) := do
  let lease ← field.toOption
  return (← lease.startIp.toOption, ← lease.endIp.toOption)

/-- A lease range that has one endpoint has both. -/
def WholeRange (value : Option Value) : Prop :=
  ∀ range, value = some (.object range) →
    (supplied (lookup range "start_ip")).isSome ∧ (supplied (lookup range "end_ip")).isSome

theorem value_nativeIpField {value : Option Value} {found : Value} {path : String}
    {origin : ObservationOrigin} (h : supplied value = some found) :
    (nativeIpField identity value path origin).value =
      match found.asAddress with
      | none => .malformed
      | some address => .observed ⟨address, origin⟩ := by
  rw [nativeIpField, value_scalarField, h]
  cases haddress : found.asAddress <;> simp [haddress]

/-- The lease range of two endpoint fields. -/
def leaseField (cidr : Option NativeNetworkCidr) (startIp endIp : ObservationField IpAddr) :
    ObservationField NativeNetworkLeaseRange :=
  if startIp.isMalformed || endIp.isMalformed then .malformed
  else if leaseOutside cidr startIp.toOption endIp.toOption ||
      leaseReversed startIp.toOption endIp.toOption then .malformed
  else .observed ⟨⟨startIp, endIp⟩, .effective⟩

theorem value_nativeLeaseRangeField (range : Members) (cidr : Option NativeNetworkCidr)
    (path : String) :
    (nativeLeaseRangeField identity (some (.object range)) cidr path).value =
      leaseField cidr
        (nativeIpField identity (lookup range "start_ip") (path ++ ".start_ip") .effective).value
        (nativeIpField identity (lookup range "end_ip") (path ++ ".end_ip") .effective).value := by
  simp only [nativeLeaseRangeField, leaseField, Noted.value_bind]
  split
  · rfl
  · split <;> rfl

theorem declaredRange_object {range : Members} {start stop : Value}
    (hstart : lookup range "start_ip" = some start) (hstop : lookup range "end_ip" = some stop) :
    declaredRange subnet (some (.object range)) = start.asAddress.bind fun startIp =>
      stop.asAddress.bind fun endIp => (subnet.setRange startIp endIp).toOption := by
  simp [declaredRange, supplied, Value.member, hstart, hstop]

theorem declaredRange_endpoints (hcidr : SameCidr cidr subnet.subnet) (hfree : subnet.range = none)
    (startIp endIp : IpAddr) :
    ((leaseField (some cidr) (.observed ⟨startIp, .effective⟩)
        (.observed ⟨endIp, .effective⟩)).isMalformed = true ∧
      (subnet.setRange startIp endIp).toOption = none) ∨
    (leaseField (some cidr) (.observed ⟨startIp, .effective⟩)
        (.observed ⟨endIp, .effective⟩)).isMalformed = false ∧
      ∃ declared, (subnet.setRange startIp endIp).toOption = some declared ∧
        declared.subnet = subnet.subnet ∧ declared.gateway = subnet.gateway ∧
          declared.range = leaseEndpoints (leaseField (some cidr)
            (.observed ⟨startIp, .effective⟩) (.observed ⟨endIp, .effective⟩)) := by
  have hrefused : (leaseOutside (some cidr) (some startIp) (some endIp) ||
      leaseReversed (some startIp) (some endIp)) = true ↔
      ¬(subnet.subnet.contains startIp = true ∧ subnet.subnet.contains endIp = true ∧
        startIp.precedesOrEquals endIp = true ∧ subnet.range.isNone) := by
    rw [hcidr.contains_eq, hcidr.contains_eq, hfree]
    simp only [leaseOutside, leaseReversed, Option.any_some, Option.toList_some,
      List.singleton_append, List.any_cons, List.any_nil]
    cases cidr.contains startIp <;> cases cidr.contains endIp <;>
      cases startIp.precedesOrEquals endIp <;> simp
  rw [NetworkSubnet.setRange]
  by_cases haccepted : subnet.subnet.contains startIp = true ∧
      subnet.subnet.contains endIp = true ∧ startIp.precedesOrEquals endIp = true ∧
        subnet.range.isNone
  · have hfield : leaseField (some cidr) (.observed ⟨startIp, .effective⟩)
        (.observed ⟨endIp, .effective⟩) = .observed
          ⟨⟨.observed ⟨startIp, .effective⟩, .observed ⟨endIp, .effective⟩⟩, .effective⟩ := by
      rw [leaseField, if_neg (by simp)]
      exact if_neg fun h => (hrefused.mp h) haccepted
    rw [hfield, dif_pos haccepted]
    exact .inr ⟨rfl, _, rfl, rfl, rfl, rfl⟩
  · have hfield : leaseField (some cidr) (.observed ⟨startIp, .effective⟩)
        (.observed ⟨endIp, .effective⟩) = .malformed := by
      rw [leaseField, if_neg (by simp)]
      exact if_pos (hrefused.mpr haccepted)
    rw [hfield, dif_neg haccepted]
    exact .inl ⟨rfl, rfl⟩

theorem declaredRange_cases (hcidr : SameCidr cidr subnet.subnet) (hfree : subnet.range = none)
    {value : Option Value} (hrange : WholeRange value) (path : String) :
    ((nativeLeaseRangeField identity value (some cidr) path).value.isMalformed = true ∧
      declaredRange subnet value = none) ∨
    (nativeLeaseRangeField identity value (some cidr) path).value.isMalformed = false ∧
      ∃ declared, declaredRange subnet value = some declared ∧ declared.subnet = subnet.subnet ∧
        declared.gateway = subnet.gateway ∧ declared.range =
          leaseEndpoints (nativeLeaseRangeField identity value (some cidr) path).value := by
  cases value with
  | none => exact .inr ⟨rfl, subnet, rfl, rfl, rfl, hfree⟩
  | some found =>
      cases found with
      | null => exact .inr ⟨rfl, subnet, rfl, rfl, rfl, hfree⟩
      | object range =>
          obtain ⟨hstart, hstop⟩ := hrange range rfl
          obtain ⟨start, hstart⟩ := Option.isSome_iff_exists.mp hstart
          obtain ⟨stop, hstop⟩ := Option.isSome_iff_exists.mp hstop
          rw [declaredRange_object (supplied_eq_some hstart) (supplied_eq_some hstop),
            value_nativeLeaseRangeField, value_nativeIpField identity hstart,
            value_nativeIpField identity hstop]
          cases hstartAddress : start.asAddress with
          | none => exact .inl ⟨rfl, rfl⟩
          | some startIp =>
              cases hstopAddress : stop.asAddress with
              | none => exact .inl ⟨rfl, rfl⟩
              | some stopIp => exact declaredRange_endpoints hcidr hfree startIp stopIp
      | bool _ => exact .inl ⟨rfl, rfl⟩
      | number _ => exact .inl ⟨rfl, rfl⟩
      | string _ => exact .inl ⟨rfl, rfl⟩
      | array _ => exact .inl ⟨rfl, rfl⟩

/-- The declared subnet has the addresses that were observed. -/
structure SameSubnet (native : NativeNetworkSubnetObservation) (declared : NetworkSubnet) :
    Prop where
  cidr : ∃ cidr, native.cidr.toOption = some cidr ∧ SameCidr cidr declared.subnet
  gateway : declared.gateway = native.gateway.toOption
  range : declared.range = leaseEndpoints native.leaseRange

/-- A subnet object whose text is not too long and whose lease range is whole. -/
structure SubnetShape (object : Members) : Prop where
  subnet : DeclarableText (lookup object "subnet")
  leaseRange : WholeRange (lookup object "lease_range")

/-- The subnet of three member fields. -/
def subnetOfFields (cidr : ObservationField NativeNetworkCidr) (gateway : ObservationField IpAddr)
    (leaseRange : ObservationField NativeNetworkLeaseRange) :
    Option NativeNetworkSubnetObservation :=
  if cidr.isMalformed || gateway.isMalformed || leaseRange.isMalformed ||
      gatewayOutside cidr.toOption gateway.toOption then none
  else some ⟨cidr, gateway, leaseRange⟩

theorem value_nativeNetworkSubnet (object : Members) (index : ℕ) :
    ∃ cidrPath gatewayPath rangePath,
      (nativeNetworkSubnet identity (.object object, index)).value =
        subnetOfFields (nativeCidrField identity (lookup object "subnet") cidrPath true).value
          (nativeIpField identity (lookup object "gateway") gatewayPath .effective).value
          (nativeLeaseRangeField identity (lookup object "lease_range")
            (nativeCidrField identity (lookup object "subnet") cidrPath true).value.toOption
            rangePath).value := by
  refine ⟨elementPath "$.subnets" index ++ ".subnet", elementPath "$.subnets" index ++ ".gateway",
    elementPath "$.subnets" index ++ ".lease_range", ?_⟩
  simp only [nativeNetworkSubnet, Value.asObject, Noted.value_bind, subnetOfFields]
  split <;> rfl

theorem rel_nativeNetworkSubnet {object : Members} (h : SubnetShape object) (index : ℕ) :
    Option.Rel SameSubnet (nativeNetworkSubnet identity (.object object, index)).value
      (declaredSubnet object) := by
  obtain ⟨cidrPath, gatewayPath, rangePath, hvalue⟩ :=
    value_nativeNetworkSubnet identity object index
  rw [hvalue, subnetOfFields, isMalformed_nativeCidrField, declaredSubnet,
    optionalAddress_eq identity _ gatewayPath .effective]
  have hrel := rel_nativeCidrField identity cidrPath h.subnet
  generalize (nativeCidrField identity (lookup object "subnet") cidrPath true).value = field at *
  generalize (nativeIpField identity (lookup object "gateway") gatewayPath .effective).value =
    gateway at *
  generalize hfield : field.toOption = observed at *
  generalize declaredCidr (lookup object "subnet") = declared at *
  cases hrel with
  | none => exact .none
  | @some cidr network hcidr =>
      cases hmalformed : gateway.isMalformed with
      | true => exact .none
      | false =>
          have hsubnet : SameCidr cidr (NetworkSubnet.new network).subnet := hcidr
          simp only [Option.isNone_some, Bool.false_or, Option.bind_eq_bind, Option.bind_some,
            Bool.false_eq_true, if_false]
          rcases declaredGateway_cases hsubnet rfl gateway.toOption with
            ⟨houtside, hnone⟩ | ⟨houtside, subnet, hsome, hnetwork, hgateway, hrange⟩
          · rw [houtside, hnone, Bool.or_true, if_pos rfl]
            exact .none
          · have hsame : SameCidr cidr subnet.subnet := hnetwork ▸ hsubnet
            rw [houtside, hsome, Bool.or_false, Option.bind_some]
            rcases declaredRange_cases identity hsame hrange h.leaseRange rangePath with
              ⟨hlease, hdeclared⟩ | ⟨hlease, declared, hdeclared, hnetwork', hgateway', hrange'⟩
            · rw [hlease, hdeclared, if_pos rfl]
              exact .none
            · rw [hlease, hdeclared, if_neg Bool.false_ne_true]
              refine .some ⟨⟨cidr, hfield, hnetwork'.symm ▸ hsame⟩, ?_, hrange'⟩
              exact hgateway'.trans hgateway

end Subnets

section Routes
variable (identity : ResourceIdentity) (library : VersionLibrary) (evidence : ResourceEvidence)

/-- A metric that is missing or fits its machine width. -/
def MetricFits (value : Option Value) : Prop :=
  ∀ found, supplied value = some found → found.asU32.isSome

theorem metricFits_iff (value : Option Value) (path : String) :
    MetricFits value ↔ (nativeU32Field identity value path).value.isMalformed = false := by
  rw [nativeU32Field, value_scalarField, MetricFits]
  cases supplied value with
  | none => simp
  | some found => cases hmetric : found.asU32 <;> simp [hmetric]

/-- A route object whose destination is not too long and whose type is known. -/
structure RouteShape (object : Members) : Prop where
  destination : DeclarableText (lookup object "destination")
  routeType : ∀ found, supplied (lookup object "route_type") = some found →
    (found.asStr.bind nativeRouteTypeFromName).isSome

/-- The route of four member fields. -/
def routeOfFields (destination : ObservationField NativeNetworkCidr)
    (gateway : ObservationField IpAddr) (metric : ObservationField UInt32)
    (routeType : ObservationField NativeNetworkRouteType) : Option NativeNetworkRouteObservation :=
  if destination.isMalformed || gateway.isMalformed || metric.isMalformed ||
      routeType.isMalformed || (gatewayWrongFamily destination.toOption gateway.toOption ||
        invalidGatewaySemantics routeType gateway) then none
  else some ⟨destination, gateway, metric, routeType⟩

theorem value_nativeNetworkRoute (object : Members) (index : ℕ) :
    ∃ destinationPath gatewayPath metricPath typePath,
      (nativeNetworkRoute identity library evidence (.object object, index)).value =
        routeOfFields
          (nativeCidrField identity (lookup object "destination") destinationPath true).value
          (nativeIpField identity (lookup object "gateway") gatewayPath .effective).value
          (nativeU32Field identity (lookup object "metric") metricPath).value
          (nativeRouteTypeField identity library evidence (lookup object "route_type")
            typePath).value := by
  refine ⟨elementPath "$.routes" index ++ ".destination",
    elementPath "$.routes" index ++ ".gateway", elementPath "$.routes" index ++ ".metric",
    elementPath "$.routes" index ++ ".route_type", ?_⟩
  simp only [nativeNetworkRoute, Value.asObject, Noted.value_bind, routeOfFields]
  split <;> rfl

/-- The observed type is the declared one, and a type that is not told counts as unicast. -/
theorem declaredRouteType_cases {value : Option Value} (path : String)
    (h : ∀ found, supplied value = some found →
      (found.asStr.bind nativeRouteTypeFromName).isSome) :
    ((nativeRouteTypeField identity library evidence value path).value = .versionInapplicable ∧
      declaredRouteType (nativeNetworkRouteTypesAreAvailable library evidence) value =
        some .unicast) ∨
    ∃ native : NativeNetworkRouteType,
      (nativeRouteTypeField identity library evidence value path).value =
        .observed ⟨native, .effective⟩ ∧
      declaredRouteType (nativeNetworkRouteTypesAreAvailable library evidence) value =
        some native.declared := by
  unfold nativeRouteTypeField declaredRouteType
  cases nativeNetworkRouteTypesAreAvailable library evidence with
  | false => exact .inl ⟨rfl, rfl⟩
  | true =>
      cases value with
      | none => exact .inr ⟨.unicast, rfl, rfl⟩
      | some found =>
          cases found with
          | null => exact .inr ⟨.unicast, rfl, rfl⟩
          | string name =>
              obtain ⟨native, hnative⟩ := Option.isSome_iff_exists.mp (h _ rfl)
              have hname : nativeRouteTypeFromName name = some native := hnative
              refine .inr ⟨native, ?_, ?_⟩
              · simp [hname]
              · simp [supplied, Value.asStr, hname]
          | bool _ => cases h _ rfl
          | number _ => cases h _ rfl
          | array _ => cases h _ rfl
          | object _ => cases h _ rfl

/-- Both readings ask the same of the gateway. -/
theorem refusedGateway_iff {destination : NativeNetworkCidr} {network : NetworkCidr}
    (hcidr : SameCidr destination network) {field : ObservationField NativeNetworkRouteType}
    {routeType : RouteType}
    (h : (field = .versionInapplicable ∧ routeType = .unicast) ∨
      ∃ native : NativeNetworkRouteType, field = .observed ⟨native, .effective⟩ ∧
        routeType = native.declared) (gateway : ObservationField IpAddr) :
    (gatewayWrongFamily (some destination) gateway.toOption ||
      invalidGatewaySemantics field gateway) =
        !validRouteGateway network gateway.toOption routeType := by
  have hfamily := hcidr.hasAddressFamily_eq
  rcases h with ⟨rfl, rfl⟩ | ⟨native, rfl, rfl⟩
  · rw [invalidGatewaySemantics, ObservationField.isObserved]
    cases gateway.toOption <;> simp [gatewayWrongFamily, validRouteGateway, hfamily]
  · rw [invalidGatewaySemantics, ObservationField.isObserved]
    cases native <;> cases gateway.toOption <;>
      simp [gatewayWrongFamily, validRouteGateway, NativeNetworkRouteType.declared, hfamily]

theorem isSome_nativeNetworkRoute {object : Members} (h : RouteShape object) (index : ℕ) :
    (nativeNetworkRoute identity library evidence (.object object, index)).value.isSome = true ↔
      MetricFits (lookup object "metric") ∧
        (declaredRoute (nativeNetworkRouteTypesAreAvailable library evidence) object).isSome := by
  obtain ⟨destinationPath, gatewayPath, metricPath, typePath, hvalue⟩ :=
    value_nativeNetworkRoute identity library evidence object index
  rw [hvalue, routeOfFields, isMalformed_nativeCidrField, declaredRoute,
    optionalAddress_eq identity _ gatewayPath .effective, metricFits_iff identity _ metricPath]
  have hrel := rel_nativeCidrField identity destinationPath h.destination
  have htype := declaredRouteType_cases identity library evidence typePath h.routeType
  generalize (nativeCidrField identity (lookup object "destination") destinationPath true).value =
    field at *
  generalize (nativeIpField identity (lookup object "gateway") gatewayPath .effective).value =
    gateway at *
  generalize (nativeU32Field identity (lookup object "metric") metricPath).value = metric at *
  generalize (nativeRouteTypeField identity library evidence (lookup object "route_type")
    typePath).value = typeField at *
  generalize declaredRouteType (nativeNetworkRouteTypesAreAvailable library evidence)
    (lookup object "route_type") = declaredType at *
  generalize field.toOption = observed at *
  generalize declaredCidr (lookup object "destination") = declared at *
  obtain ⟨routeType, rfl, hroute⟩ : ∃ routeType, declaredType = some routeType ∧
      ((typeField = .versionInapplicable ∧ routeType = .unicast) ∨
        ∃ native : NativeNetworkRouteType, typeField = .observed ⟨native, .effective⟩ ∧
          routeType = native.declared) := by
    rcases htype with ⟨hfield, rfl⟩ | ⟨native, hfield, rfl⟩
    · exact ⟨_, rfl, .inl ⟨hfield, rfl⟩⟩
    · exact ⟨_, rfl, .inr ⟨native, hfield, rfl⟩⟩
  have htold : typeField.isMalformed = false := by
    rcases hroute with ⟨rfl, -⟩ | ⟨native, rfl, -⟩ <;> rfl
  cases hrel with
  | none => simp
  | @some destination network hcidr =>
      have hrefused := refusedGateway_iff hcidr hroute gateway
      rw [hrefused, htold]
      cases hgateway : gateway.isMalformed <;> cases hmetric : metric.isMalformed <;>
        cases hvalid : validRouteGateway network gateway.toOption routeType <;>
          simp [NetworkRoute.new, hvalid, Except.toOption]

end Routes

section Plans
variable (identity : ResourceIdentity)

theorem elementsField_toOption {α : Type} (elements : List (Option α))
    (origin : ObservationOrigin) :
    (elementsField elements origin).toOption = elements.mapM id := by
  unfold elementsField
  cases elements.mapM id <;> rfl

theorem isSome_mapM_id {α : Type} (elements : List (Option α)) :
    (elements.mapM id).isSome = true ↔ ∀ element ∈ elements, element.isSome = true := by
  induction elements with
  | nil => simp
  | cons element elements ih =>
      rw [List.mapM_cons, List.forall_mem_cons, ← ih]
      cases element <;> cases elements.mapM id <;> simp

theorem mapM_map_id {α β : Type} (f : α → Option β) (values : List α) :
    (values.map f).mapM id = values.mapM f := by
  induction values with
  | nil => rfl
  | cons value values ih => rw [List.map_cons, List.mapM_cons, List.mapM_cons, ih, id]

/-- The elements of an array of objects, each read at its index. -/
theorem forall₂_elements {α β : Type} {R : α → β → Prop} (f : Value × ℕ → α) (g : Members → β)
    {objects : List Members}
    (h : ∀ object ∈ objects, ∀ index, R (f (.object object, index)) (g object)) (start : ℕ) :
    List.Forall₂ R (((objects.map Value.object).zipIdx start).map f) (objects.map g) := by
  induction objects generalizing start with
  | nil => exact .nil
  | cons object objects ih =>
      obtain ⟨hhead, htail⟩ := List.forall_mem_cons.mp h
      exact .cons (hhead start) (ih htail (start + 1))

theorem forall_elements_iff {α : Type} {p : α → Prop} {accepted : Members → Prop}
    (f : Value × ℕ → α) {objects : List Members}
    (h : ∀ object ∈ objects, ∀ index, p (f (.object object, index)) ↔ accepted object)
    (start : ℕ) :
    (∀ element ∈ ((objects.map Value.object).zipIdx start).map f, p element) ↔
      ∀ object ∈ objects, accepted object := by
  induction objects generalizing start with
  | nil => simp
  | cons object objects ih =>
      obtain ⟨hhead, htail⟩ := List.forall_mem_cons.mp h
      rw [List.map_cons, List.zipIdx_cons, List.map_cons, List.forall_mem_cons,
        List.forall_mem_cons, hhead start, ih htail (start + 1)]

theorem rel_decodeNativeNetworkSubnets {objects : List Members}
    (h : ∀ object ∈ objects, SubnetShape object) :
    Option.Rel (List.Forall₂ SameSubnet)
      (decodeNativeNetworkSubnets identity (some (.array (objects.map .object)))).value.toOption
      (objects.mapM declaredSubnet) := by
  have hrel := (forall₂_elements (fun entry => (nativeNetworkSubnet identity entry).value)
    declaredSubnet (fun object hobject index =>
      rel_nativeNetworkSubnet identity (h object hobject) index) 0).rel_mapM_id
  rw [mapM_map_id declaredSubnet] at hrel
  simpa only [decodeNativeNetworkSubnets, supplied, Noted.value_bind, Noted.value_pure,
    Noted.value_mapM, elementsField_toOption] using hrel

variable (library : VersionLibrary) (evidence : ResourceEvidence)

theorem isObserved_decodeNativeNetworkRoutes {objects : List Members}
    (h : ∀ object ∈ objects, RouteShape object) :
    (decodeNativeNetworkRoutes identity library evidence
        (some (.array (objects.map .object)))).value.isObserved = true ↔
      ∀ object ∈ objects, MetricFits (lookup object "metric") ∧
        (declaredRoute (nativeNetworkRouteTypesAreAvailable library evidence) object).isSome := by
  simp only [decodeNativeNetworkRoutes, supplied, Noted.value_bind, Noted.value_pure,
    Noted.value_mapM, ObservationField.isObserved, elementsField_toOption, isSome_mapM_id]
  exact forall_elements_iff
    (fun entry => (nativeNetworkRoute identity library evidence entry).value)
    (fun object hobject index =>
      isSome_nativeNetworkRoute identity library evidence (h object hobject) index) 0

/-- Inspection observes exactly the address plans that a deployment can declare. -/
theorem addressPlan_agrees {subnets routes : List Members}
    (hsubnets : ∀ object ∈ subnets, SubnetShape object)
    (hroutes : ∀ object ∈ routes, RouteShape object) :
    ((decodeNativeNetworkSubnets identity (some (.array (subnets.map .object)))).value.isObserved =
        true ↔ ∀ object ∈ subnets, (declaredSubnet object).isSome = true) ∧
      (∀ observed declared, (decodeNativeNetworkSubnets identity
          (some (.array (subnets.map .object)))).value.toOption = some observed →
        subnets.mapM declaredSubnet = some declared → List.Forall₂ SameSubnet observed declared) ∧
      ((decodeNativeNetworkRoutes identity library evidence
          (some (.array (routes.map .object)))).value.isObserved = true ↔
        ∀ object ∈ routes, MetricFits (lookup object "metric") ∧
          (declaredRoute (nativeNetworkRouteTypesAreAvailable library evidence) object).isSome =
            true) := by
  have hrel := rel_decodeNativeNetworkSubnets identity hsubnets
  refine ⟨?_, fun observed declared hobserved hdeclared => ?_,
    isObserved_decodeNativeNetworkRoutes identity library evidence hroutes⟩
  · rw [ObservationField.isObserved, hrel.isSome_eq, ← mapM_map_id, isSome_mapM_id]
    exact List.forall_mem_map
  · rw [hobserved, hdeclared] at hrel
    cases hrel with
    | some h => exact h

def plannedSubnet : Members :=
  [("gateway", .string "10.0.0.1"), ("subnet", .string "10.0.0.7/8")]

def plannedRoute : Members :=
  [("destination", .string "192.168.0.0/16"), ("gateway", .string "10.0.0.1")]

def networkIdentity : ResourceIdentity := ⟨.network, "backend", none⟩

theorem plannedSubnet_shape : SubnetShape plannedSubnet where
  subnet text h := by
    cases h
    decide
  leaseRange range h := by cases h

theorem plannedRoute_shape : RouteShape plannedRoute where
  destination text h := by
    cases h
    decide
  routeType found h := by cases h

theorem addressPlan_agrees_sample :
    (decodeNativeNetworkSubnets networkIdentity
        (some (.array ([plannedSubnet].map .object)))).value.isObserved = true := by
  have hagrees := addressPlan_agrees networkIdentity releaseLibrary newestEvidence
    (List.forall_mem_singleton.mpr plannedSubnet_shape)
    (List.forall_mem_singleton.mpr plannedRoute_shape)
  exact hagrees.1.mpr (by decide +kernel)

/-- A destination with many leading zeros in its prefix length. -/
def paddedRoute : Members :=
  [("destination", .string (String.ofList
      ("10.0.0.0/".toList ++ List.replicate 120 '0' ++ ['8']))),
    ("gateway", .string "10.0.0.1")]

/-- The route is observed although no deployment can declare its destination. -/
theorem paddedRoute_undeclared :
    (∀ found, supplied (lookup paddedRoute "route_type") = some found →
      (found.asStr.bind nativeRouteTypeFromName).isSome = true) ∧
    ¬((decodeNativeNetworkRoutes networkIdentity releaseLibrary newestEvidence
          (some (.array ([paddedRoute].map .object)))).value.isObserved = true ↔
        ∀ object ∈ [paddedRoute], MetricFits (lookup object "metric") ∧
          (declaredRoute (nativeNetworkRouteTypesAreAvailable releaseLibrary newestEvidence)
            object).isSome = true) := by
  refine ⟨fun found h => by (cases h), fun h => ?_⟩
  have hdeclared := h.mp (by decide +kernel) paddedRoute List.mem_cons_self
  exact absurd hdeclared.2 (by decide +kernel)

end Plans

end PodmanLens
