import PodmanLens.Rendering

/-!
# Rendered networking

Attachments, ports, DNS values, host aliases and network creation, each as command-line arguments
and as members of a Libpod body.
-/

namespace PodmanLens
open Std Net Text Json

section Attachments

/-- Attachments in the requested order; an ordered network that is not attached has no rendering. -/
def orderedNetworkAttachments (attachments : List NetworkAttachment) :
    Option (List DeploymentResourceId) → Option (List NetworkAttachment)
  | none => some attachments
  | some order => order.mapM fun identity =>
    attachments.find? fun attachment => attachment.network.val == identity

def networkOptions (attachment : NetworkAttachment) : List String :=
  attachment.aliases.values.map (fun value => "alias=" ++ value.asStr) ++
    attachment.staticIpv4.toList.map (fun ipv4 => "ip=" ++ ipv4.val.display) ++
    attachment.staticIpv6.toList.map (fun ipv6 => "ip6=" ++ ipv6.val.display) ++
    attachment.staticMac.toList.map (fun mac => "mac=" ++ mac.asStr)

def networkAttachmentCliValue (attachment : NetworkAttachment) : Option String :=
  let name := attachment.network.val.name
  if name.toList.any fun c => c == ':' || c == ',' then none
  else if (networkOptions attachment).isEmpty then some name
  else some (name ++ ":" ++ joinWith "," (networkOptions attachment))

def appendNetworkArguments (arguments : List String) (networks : NetworkAttachments)
    (order : Option (List DeploymentResourceId)) : Option (List String) := do
  let attachments ← orderedNetworkAttachments networks.values order
  let values ← attachments.mapM networkAttachmentCliValue
  return arguments ++ values.flatMap fun value => ["--network", value]

def networkOptionsJson (attachment : NetworkAttachment) : Members :=
  let aliases := attachment.aliases.values.map Validated.Checked.asStr
  let staticIps := (attachment.staticIpv4.toList.map Subtype.val ++
    attachment.staticIpv6.toList.map Subtype.val).map IpAddr.display
  let options := insertSome [] "aliases"
    (if aliases.isEmpty then none else some (stringArray aliases))
  let options := insertSome options "static_ips"
    (if staticIps.isEmpty then none else some (stringArray staticIps))
  insertSome options "static_mac" (attachment.staticMac.map fun mac => .string mac.asStr)

def networkConfiguration (networks : NetworkAttachments) : Value :=
  .object <| ofPairs <| networks.values.map fun attachment =>
    (attachment.network.val.name, .object (networkOptionsJson attachment))

end Attachments

section Endpoints

def PortProtocol.asStr : PortProtocol → String
  | .tcp => "tcp"
  | .udp => "udp"
  | .sctp => "sctp"

def hostIpPrefix : Option IpAddr → String
  | none => ""
  | some address =>
    if address.isIpv4 then address.display ++ ":" else "[" ++ address.display ++ "]" ++ ":"

def portMappingCliValue (port : PortMapping) : String :=
  hostIpPrefix port.hostIp ++ port.hostPort.toNat.repr ++ ":" ++ port.containerPort.toNat.repr ++
    "/" ++ port.protocol.asStr

def appendPortArguments (arguments : List String) (ports : PortMappings) : List String :=
  arguments ++ ports.values.flatMap fun port => ["--publish", portMappingCliValue port]

def appendDnsArguments (arguments : List String) (dns : DnsConfiguration) : List String :=
  arguments ++ dns.servers.values.flatMap (fun server => ["--dns", server.display]) ++
    dns.search.values.flatMap (fun search => ["--dns-search", search.asStr]) ++
    dns.options.values.flatMap (fun option => ["--dns-option", option.asStr])

def hostAliasValue (entry : HostAlias) : String :=
  entry.hostname.asStr ++ ":" ++ entry.address.display

def appendHostAliasArguments (arguments : List String) (aliases : HostAliases) : List String :=
  arguments ++ aliases.values.flatMap fun entry => ["--add-host", hostAliasValue entry]

def portMappingJson (port : PortMapping) : Value :=
  .object <| ofPairs [
    ("host_ip", .string ((port.hostIp.map IpAddr.display).getD "")),
    ("host_port", .number port.hostPort.toNat),
    ("container_port", .number port.containerPort.toNat),
    ("range", .number 1),
    ("protocol", .string port.protocol.asStr)]

def appendNetworkingJson (body : Members) (ports : PortMappings) (dns : DnsConfiguration)
    (aliases : HostAliases) (networkOrder : Option (List DeploymentResourceId)) : Members :=
  let body := insertSome body "portmappings" <| if ports.values.isEmpty then none
    else some (.array (ports.values.map portMappingJson))
  let body := insertSome body "dns_server" <| if dns.servers.values.isEmpty then none
    else some (stringArray (dns.servers.values.map IpAddr.display))
  let body := insertSome body "dns_search" <| if dns.search.values.isEmpty then none
    else some (stringArray (dns.search.values.map Validated.Checked.asStr))
  let body := insertSome body "dns_option" <| if dns.options.values.isEmpty then none
    else some (stringArray (dns.options.values.map Validated.Checked.asStr))
  let body := insertSome body "hostadd" <| if aliases.values.isEmpty then none
    else some (stringArray (aliases.values.map hostAliasValue))
  insertSome body "networkOrder" <|
    networkOrder.map fun order => stringArray (order.map DeploymentResourceId.name)

end Endpoints

section NetworkCreate

def routeNextHop (route : NetworkRoute) : String :=
  match route.routeType with
  | .unicast => (route.gateway.map IpAddr.display).getD ""
  | .blackhole => "blackhole"
  | .unreachable => "unreachable"
  | .prohibit => "prohibit"

def networkRouteCliValue (route : NetworkRoute) : String :=
  route.destination.asStr ++ "," ++ routeNextHop route ++
    match route.metric with
    | some metric => "," ++ metric.toNat.repr
    | none => ""

def rangeCliValue (bounds : IpAddr × IpAddr) : String :=
  bounds.1.display ++ "-" ++ bounds.2.display

/-- All subnets, then the gateways that are set, then the ranges that are set, then the routes. -/
def appendNetworkCreateArguments (arguments : List String) (network : NetworkIntent) :
    List String :=
  let subnets := network.subnets.values
  arguments ++ subnets.flatMap (fun s => ["--subnet", s.subnet.asStr]) ++
    (subnets.filterMap NetworkSubnet.gateway).flatMap (fun g => ["--gateway", g.display]) ++
    (subnets.filterMap NetworkSubnet.range).flatMap (fun r => ["--ip-range", rangeCliValue r]) ++
    network.routes.values.flatMap (fun route => ["--route", networkRouteCliValue route])

def networkCreateCliArguments (network : NetworkIntent) : List String :=
  appendNetworkCreateArguments ["network", "create"] network ++ [network.identity.val.name]

def RouteType.asStr : RouteType → String
  | .unicast => "unicast"
  | .blackhole => "blackhole"
  | .unreachable => "unreachable"
  | .prohibit => "prohibit"

def leaseRangeJson (bounds : IpAddr × IpAddr) : Value :=
  .object <| ofPairs [("start_ip", .string bounds.1.display), ("end_ip", .string bounds.2.display)]

def subnetJson (subnet : NetworkSubnet) : Value :=
  let value := insert [] "subnet" (.string subnet.subnet.asStr)
  let value := insertSome value "gateway" (subnet.gateway.map fun g => .string g.display)
  .object (insertSome value "lease_range" (subnet.range.map leaseRangeJson))

def routeJson (supportsRouteType : Bool) (route : NetworkRoute) : Value :=
  let value := insert [] "destination" (.string route.destination.asStr)
  let value := insertSome value "gateway" (route.gateway.map fun g => .string g.display)
  let value := insertSome value "metric" (route.metric.map fun m => .number m.toNat)
  .object <| insertSome value "route_type" <|
    if supportsRouteType then some (.string route.routeType.asStr) else none

def networkCreateConfiguration (network : NetworkIntent) (supportsRouteType : Bool) : Value :=
  let body := insert [] "name" (.string network.identity.val.name)
  let body := insertSome body "subnets" <| if network.subnets.values.isEmpty then none
    else some (.array (network.subnets.values.map subnetJson))
  .object <| insertSome body "routes" <| if network.routes.values.isEmpty then none
    else some (.array (network.routes.values.map (routeJson supportsRouteType)))

end NetworkCreate

end PodmanLens
