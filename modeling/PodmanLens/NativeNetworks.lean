import PodmanLens.CidrText
import PodmanLens.NativeFields
import PodmanLens.VersionCatalogue

/-!
# Inspected networks

The address plan of an inspected network: its subnets with their gateways and lease ranges, and its
static routes. A CIDR keeps the spelling it was received with. An element with a member that does
not decode, or whose addresses do not fit together, makes the whole list malformed.
-/

namespace PodmanLens
open Json Net Text

/-- The versions of the service that answered, and the line that was reviewed for them. -/
structure ResourceEvidence where
  engineVersion : String
  apiVersion : String
  capability : CapabilityCatalogueEntry
  deriving DecidableEq

/-- A service of the newest reviewed line. -/
def newestEvidence : ResourceEvidence := ⟨"6.1.0", "6.1.0", newestLine⟩

@[ext]
structure NativeNetworkCidr where
  asStr : String
  network : IpAddr
  prefixLength : ℕ
  spelled : addressAndPrefix asStr = some (network, prefixLength)
  bounded : prefixLength ≤ network.width

instance : DecidableEq NativeNetworkCidr := fun _ _ => decidable_of_iff' _ NativeNetworkCidr.ext_iff

namespace NativeNetworkCidr

def parse (spelling : String) : Option NativeNetworkCidr :=
  match hspelled : addressAndPrefix spelling with
  | none => none
  | some (network, prefixLength) =>
    if hbounded : prefixLength ≤ network.width then
      some ⟨spelling, network, prefixLength, hspelled, hbounded⟩
    else none

def contains (cidr : NativeNetworkCidr) (address : IpAddr) : Bool :=
  cidr.network.isIpv4 == address.isIpv4 &&
    cidr.network.masked cidr.prefixLength == address.masked cidr.prefixLength

def hasAddressFamily (cidr : NativeNetworkCidr) (address : IpAddr) : Bool :=
  cidr.network.isIpv4 == address.isIpv4

end NativeNetworkCidr

structure NativeNetworkLeaseRange where
  startIp : ObservationField IpAddr
  endIp : ObservationField IpAddr
  deriving DecidableEq

structure NativeNetworkSubnetObservation where
  cidr : ObservationField NativeNetworkCidr
  gateway : ObservationField IpAddr
  leaseRange : ObservationField NativeNetworkLeaseRange
  deriving DecidableEq

inductive NativeNetworkRouteType
  | unicast
  | blackhole
  | unreachable
  | prohibit
  deriving DecidableEq

structure NativeNetworkRouteObservation where
  destination : ObservationField NativeNetworkCidr
  gateway : ObservationField IpAddr
  metric : ObservationField UInt32
  routeType : ObservationField NativeNetworkRouteType
  deriving DecidableEq

/-- The decoded elements, unless one of them did not decode. -/
def elementsField {α : Type} (elements : List (Option α)) (origin : ObservationOrigin) :
    ObservationField (List α) :=
  match elements.mapM id with
  | some decoded => .observed ⟨decoded, origin⟩
  | none => .malformed

def elementPath (path : String) (index : ℕ) : String := path ++ "[" ++ toString index ++ "]"

section Decoders
variable (identity : ResourceIdentity)

/-- A required CIDR may not be null either. -/
def nativeCidrField (value : Option Value) (path : String) (required : Bool) :
    Decoder (ObservationField NativeNetworkCidr) :=
  match value with
  | some (.string spelling) =>
    match NativeNetworkCidr.parse spelling with
    | some cidr => return .observed ⟨cidr, .effective⟩
    | none => nativeMalformedField identity path
  | none | some .null =>
    if required then nativeMalformedField identity path else return .absent
  | some _ => nativeMalformedField identity path

def leaseOutside (cidr : Option NativeNetworkCidr) (startIp endIp : Option IpAddr) : Bool :=
  cidr.any fun cidr => (startIp.toList ++ endIp.toList).any fun endpoint => !cidr.contains endpoint

def leaseReversed : Option IpAddr → Option IpAddr → Bool
  | some startIp, some endIp => !startIp.precedesOrEquals endIp
  | _, _ => false

/-- Each endpoint may be missing, and the ones there lie in the subnet in their order. -/
def nativeLeaseRangeField (value : Option Value) (cidr : Option NativeNetworkCidr)
    (path : String) : Decoder (ObservationField NativeNetworkLeaseRange) :=
  match value with
  | none | some .null => return .absent
  | some (.object range) => do
    let startIp ← nativeIpField identity (lookup range "start_ip") (path ++ ".start_ip") .effective
    let endIp ← nativeIpField identity (lookup range "end_ip") (path ++ ".end_ip") .effective
    if startIp.isMalformed || endIp.isMalformed then return .malformed
    else if leaseOutside cidr startIp.toOption endIp.toOption ||
        leaseReversed startIp.toOption endIp.toOption then
      nativeMalformedField identity path
    else return .observed ⟨⟨startIp, endIp⟩, .effective⟩
  | some _ => nativeMalformedField identity path

def gatewayOutside : Option NativeNetworkCidr → Option IpAddr → Bool
  | some cidr, some gateway => !cidr.contains gateway
  | _, _ => false

def nativeNetworkSubnet (entry : Value × ℕ) : Decoder (Option NativeNetworkSubnetObservation) :=
  match entry.1.asObject with
  | none => do
    noteOccurrence identity .resourceMalformed "$.subnets" entry.2
    return none
  | some object => do
    let path := elementPath "$.subnets" entry.2
    let cidr ← nativeCidrField identity (lookup object "subnet") (path ++ ".subnet") true
    let gateway ← nativeIpField identity (lookup object "gateway") (path ++ ".gateway") .effective
    let leaseRange ← nativeLeaseRangeField identity (lookup object "lease_range") cidr.toOption
      (path ++ ".lease_range")
    let outside := gatewayOutside cidr.toOption gateway.toOption
    if outside then noteField identity .resourceMalformed (path ++ ".gateway")
    return if cidr.isMalformed || gateway.isMalformed || leaseRange.isMalformed || outside then none
      else some ⟨cidr, gateway, leaseRange⟩

def decodeNativeNetworkSubnets (value : Option Value) :
    Decoder (ObservationField (List NativeNetworkSubnetObservation)) :=
  match supplied value with
  | none => return .absent
  | some (.array values) => do
    let elements ← values.zipIdx.mapM (nativeNetworkSubnet identity)
    return elementsField elements .effective
  | some _ => nativeMalformedField identity "$.subnets"

variable (library : VersionLibrary) (evidence : ResourceEvidence)

def nativeNetworkRouteTypesAreAvailable : Bool :=
  (library.parse evidence.engineVersion).any fun version =>
    library.compare version (.new 6 0 0) != .lt

def nativeRouteTypeFromName : String → Option NativeNetworkRouteType
  | "unicast" => some .unicast
  | "blackhole" => some .blackhole
  | "unreachable" => some .unreachable
  | "prohibit" => some .prohibit
  | _ => none

def nativeRouteTypeField (value : Option Value) (path : String) :
    Decoder (ObservationField NativeNetworkRouteType) :=
  if !nativeNetworkRouteTypesAreAvailable library evidence then do
    noteField identity .versionInapplicableField path
    return .versionInapplicable
  else
    match value with
    | none | some .null => return .observed ⟨.unicast, .effective⟩
    | some (.string name) =>
      match nativeRouteTypeFromName name with
      | some routeType => return .observed ⟨routeType, .effective⟩
      | none => return .unmodelled .networkRoute
    | some _ => nativeMalformedField identity path

def gatewayWrongFamily : Option NativeNetworkCidr → Option IpAddr → Bool
  | some destination, some gateway => !destination.hasAddressFamily gateway
  | _, _ => false

/-- Routes without a type are unicast, also where the engine does not report the type. -/
def invalidGatewaySemantics (routeType : ObservationField NativeNetworkRouteType)
    (gateway : ObservationField IpAddr) : Bool :=
  match routeType with
  | .observed found =>
    match found.value with
    | .unicast => !gateway.isObserved
    | .blackhole | .unreachable | .prohibit => gateway.isObserved
  | .versionInapplicable => !gateway.isObserved
  | _ => false

def nativeNetworkRoute (entry : Value × ℕ) : Decoder (Option NativeNetworkRouteObservation) :=
  match entry.1.asObject with
  | none => do
    noteOccurrence identity .resourceMalformed "$.routes" entry.2
    return none
  | some object => do
    let path := elementPath "$.routes" entry.2
    let destination ←
      nativeCidrField identity (lookup object "destination") (path ++ ".destination") true
    let gateway ← nativeIpField identity (lookup object "gateway") (path ++ ".gateway") .effective
    let metric ← nativeU32Field identity (lookup object "metric") (path ++ ".metric")
    let routeType ← nativeRouteTypeField identity library evidence (lookup object "route_type")
      (path ++ ".route_type")
    let refused := gatewayWrongFamily destination.toOption gateway.toOption ||
      invalidGatewaySemantics routeType gateway
    if refused then noteField identity .resourceMalformed (path ++ ".gateway")
    return if destination.isMalformed || gateway.isMalformed || metric.isMalformed ||
        routeType.isMalformed || refused then none
      else some ⟨destination, gateway, metric, routeType⟩

def decodeNativeNetworkRoutes (value : Option Value) :
    Decoder (ObservationField (List NativeNetworkRouteObservation)) :=
  match supplied value with
  | none => return .absent
  | some (.array values) => do
    let elements ← values.zipIdx.mapM (nativeNetworkRoute identity library evidence)
    return elementsField elements .effective
  | some _ => nativeMalformedField identity "$.routes"

end Decoders

end PodmanLens
