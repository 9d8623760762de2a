import PodmanLens.Address
import PodmanLens.Identity

/-!
# Declared networking intent

Caller-declared attachments, port mappings, DNS values, host aliases, IPAM subnets and routes. Each
type carries what its constructor checks: a CIDR is masked to its prefix, a gateway and a lease
range lie inside their subnet, a unicast route has a next hop of its destination's family.
-/

namespace PodmanLens
open Net Text Validated

def maxAttachments : ℕ := 32
def maxAliases : ℕ := 64
def maxDnsValues : ℕ := 16
def maxPortMappings : ℕ := 128
def maxHostAliases : ℕ := 128
def maxIpamSubnets : ℕ := 32
def maxRoutes : ℕ := 64

structure NetworkCidr where
  network : IpAddr
  prefixLength : ℕ
  bounded : prefixLength ≤ network.width
  canonical : network.masked prefixLength = network
  deriving DecidableEq

namespace NetworkCidr

/-- The canonical network of a parsed address and prefix length. -/
def ofParts (address : IpAddr) (prefixLength : ℕ) : PodmanLensResult NetworkCidr :=
  if h : prefixLength ≤ address.width then
    .ok ⟨address.masked prefixLength, prefixLength, by rwa [IpAddr.width_masked],
      IpAddr.masked_masked address prefixLength⟩
  else .error .invalidDeploymentIntent

def asStr (cidr : NetworkCidr) : String := cidr.network.display ++ "/" ++ cidr.prefixLength.repr

def hasAddressFamily (cidr : NetworkCidr) (address : IpAddr) : Bool :=
  cidr.network.isIpv4 == address.isIpv4

def contains (cidr : NetworkCidr) (address : IpAddr) : Bool :=
  cidr.hasAddressFamily address && cidr.network == address.masked cidr.prefixLength

end NetworkCidr

/-- Two characters that parse as one byte in radix 16; a plus sign may stand for the first. -/
def isHexByte : List Char → Bool
  | [a, b] => (isHexDigit a || a == '+') && isHexDigit b
  | _ => false

def isStaticMacAddress (value : String) : Bool :=
  value.utf8ByteSize == 17 && (value.toList.splitOn ':').length == 6 &&
    (value.toList.splitOn ':').all isHexByte

/-- The stored spelling is the ASCII lower-case form of an accepted one. -/
structure StaticMacAddress where
  asStr : String
  lowered : ∃ value, isStaticMacAddress value = true ∧ asStr = value.map Char.toLower
  deriving DecidableEq

def StaticMacAddress.new (value : String) : PodmanLensResult StaticMacAddress :=
  if h : isStaticMacAddress value = true then .ok ⟨value.map Char.toLower, value, h, rfl⟩
  else .error .invalidDeploymentIntent

def isNetworkAlias (value : String) : Bool :=
  !(value.isEmpty || decide (253 < value.utf8ByteSize) || value.toList.any isControl ||
    value.toList.any fun c => c == ',' || c == ':' || c == '=')

abbrev NetworkAlias := Checked isNetworkAlias

structure NetworkAttachment where
  network : OfKind .network
  aliases : DistinctList (fun a b : NetworkAlias => a == b) maxAliases := .empty
  staticIpv4 : Option { a : IpAddr // a.isIpv4 = true } := none
  staticIpv6 : Option { a : IpAddr // a.isIpv4 = false } := none
  staticMac : Option StaticMacAddress := none
  deriving DecidableEq

namespace NetworkAttachment

def new (network : DeploymentResourceId) : PodmanLensResult NetworkAttachment := do
  return { network := ← requireKind network .network }

def addAlias (attachment : NetworkAttachment) (value : String) :
    PodmanLensResult NetworkAttachment := do
  let accepted ← Checked.new isNetworkAlias .invalidDeploymentIntent value
  return { attachment with
    aliases := ← attachment.aliases.add .deploymentDuplicateResource
      .deploymentDuplicateResource accepted }

def setStaticIpv4 (attachment : NetworkAttachment) (address : IpAddr) :
    PodmanLensResult NetworkAttachment :=
  if h : address.isIpv4 = true ∧ attachment.staticIpv4.isNone then
    .ok { attachment with staticIpv4 := some ⟨address, h.1⟩ }
  else .error .deploymentUnsupportedCombination

def setStaticIpv6 (attachment : NetworkAttachment) (address : IpAddr) :
    PodmanLensResult NetworkAttachment :=
  if h : address.isIpv4 = false ∧ attachment.staticIpv6.isNone then
    .ok { attachment with staticIpv6 := some ⟨address, h.1⟩ }
  else .error .deploymentUnsupportedCombination

def setStaticMac (attachment : NetworkAttachment) (address : StaticMacAddress) :
    PodmanLensResult NetworkAttachment :=
  if attachment.staticMac.isSome then .error .deploymentUnsupportedCombination
  else .ok { attachment with staticMac := some address }

end NetworkAttachment

abbrev NetworkAttachments :=
  DistinctList (fun a b : NetworkAttachment => a.network == b.network) maxAttachments

def addAttachment (values : NetworkAttachments) (attachment : NetworkAttachment) :
    PodmanLensResult NetworkAttachments :=
  values.add .deploymentDuplicateResource .deploymentDuplicateResource attachment

inductive PortProtocol
  | tcp
  | udp
  | sctp
  deriving DecidableEq

structure PortMapping where
  hostIp : Option IpAddr
  hostPort : UInt16
  containerPort : UInt16
  protocol : PortProtocol
  hostPort_ne : hostPort ≠ 0
  containerPort_ne : containerPort ≠ 0
  deriving DecidableEq

def PortMapping.new (hostIp : Option IpAddr) (hostPort containerPort : UInt16)
    (protocol : PortProtocol) : PodmanLensResult PortMapping :=
  if h : hostPort ≠ 0 ∧ containerPort ≠ 0 then
    .ok ⟨hostIp, hostPort, containerPort, protocol, h.1, h.2⟩
  else .error .invalidDeploymentIntent

def samePublication (a b : PortMapping) : Bool :=
  a.hostIp == b.hostIp && a.hostPort == b.hostPort && a.protocol == b.protocol

abbrev PortMappings := DistinctList samePublication maxPortMappings

def addPort (values : PortMappings) (mapping : PortMapping) : PodmanLensResult PortMappings :=
  values.add .deploymentDuplicateResource .deploymentDuplicateResource mapping

def isDnsText (value : String) : Bool :=
  !(value.isEmpty || decide (253 < value.utf8ByteSize) || value.toList.any isControl)

abbrev DnsText := Checked isDnsText

structure DnsConfiguration where
  servers : DistinctList (fun a b : IpAddr => a == b) maxDnsValues := .empty
  search : DistinctList (fun a b : DnsText => a == b) maxDnsValues := .empty
  options : DistinctList (fun a b : DnsText => a == b) maxDnsValues := .empty
  deriving DecidableEq

def DnsConfiguration.isEmpty (dns : DnsConfiguration) : Bool :=
  dns.servers.values.isEmpty && dns.search.values.isEmpty && dns.options.values.isEmpty

def isHostnameLabel (label : List Char) : Bool :=
  !label.isEmpty && byteLength label ≤ 63 && label.head? != some '-' &&
    label.getLast? != some '-' && label.all fun c => c.isAlphanum || c == '-'

def isHostname (value : String) : Bool :=
  !value.isEmpty && value.utf8ByteSize ≤ 253 && (value.toList.splitOn '.').all isHostnameLabel

structure HostAlias where
  address : IpAddr
  hostname : Checked isHostname
  deriving DecidableEq

def HostAlias.new (address : IpAddr) (hostname : String) : PodmanLensResult HostAlias := do
  return ⟨address, ← Checked.new isHostname .invalidDeploymentIntent hostname⟩

abbrev HostAliases := DistinctList (fun a b : HostAlias => a == b) maxHostAliases

structure NetworkSubnet where
  subnet : NetworkCidr
  gateway : Option IpAddr := none
  range : Option (IpAddr × IpAddr) := none
  gateway_mem : ∀ address ∈ gateway, subnet.contains address = true := by simp
  range_mem : ∀ bounds ∈ range, subnet.contains bounds.1 = true ∧ subnet.contains bounds.2 = true ∧
    bounds.1.precedesOrEquals bounds.2 = true := by simp
  deriving DecidableEq

namespace NetworkSubnet

def new (subnet : NetworkCidr) : NetworkSubnet := { subnet }

def setGateway (s : NetworkSubnet) (gateway : IpAddr) : PodmanLensResult NetworkSubnet :=
  if h : s.subnet.contains gateway = true ∧ s.gateway.isNone then
    .ok { s with
      gateway := some gateway
      gateway_mem := by rintro _ ⟨⟩; exact h.1 }
  else .error .deploymentUnsupportedCombination

def setRange (s : NetworkSubnet) (start stop : IpAddr) : PodmanLensResult NetworkSubnet :=
  if h : s.subnet.contains start = true ∧ s.subnet.contains stop = true ∧
      start.precedesOrEquals stop = true ∧ s.range.isNone then
    .ok { s with
      range := some (start, stop)
      range_mem := by rintro _ ⟨⟩; exact ⟨h.1, h.2.1, h.2.2.1⟩ }
  else .error .deploymentUnsupportedCombination

end NetworkSubnet

abbrev NetworkSubnets :=
  DistinctList (fun a b : NetworkSubnet => a.subnet == b.subnet) maxIpamSubnets

def addSubnet (values : NetworkSubnets) (subnet : NetworkSubnet) :
    PodmanLensResult NetworkSubnets :=
  values.add .deploymentDuplicateResource .deploymentDuplicateResource subnet

inductive RouteType
  | unicast
  | blackhole
  | unreachable
  | prohibit
  deriving DecidableEq

def validRouteGateway (destination : NetworkCidr) (gateway : Option IpAddr) : RouteType → Bool
  | .unicast => gateway.any destination.hasAddressFamily
  | .blackhole | .unreachable | .prohibit => gateway.isNone

structure NetworkRoute where
  destination : NetworkCidr
  gateway : Option IpAddr
  routeType : RouteType
  metric : Option UInt32 := none
  validGateway : validRouteGateway destination gateway routeType = true
  deriving DecidableEq

namespace NetworkRoute

def new (destination : NetworkCidr) (gateway : Option IpAddr) (routeType : RouteType) :
    PodmanLensResult NetworkRoute :=
  if h : validRouteGateway destination gateway routeType = true then
    .ok { destination, gateway, routeType, validGateway := h }
  else .error .invalidDeploymentIntent

def setMetric (route : NetworkRoute) (metric : UInt32) : PodmanLensResult NetworkRoute :=
  if route.metric.isSome then .error .deploymentUnsupportedCombination
  else .ok { route with metric := some metric }

end NetworkRoute

abbrev NetworkRoutes := DistinctList (fun a b : NetworkRoute => a == b) maxRoutes

def addRoute (values : NetworkRoutes) (route : NetworkRoute) : PodmanLensResult NetworkRoutes :=
  values.add .deploymentDuplicateResource .deploymentDuplicateResource route

end PodmanLens
