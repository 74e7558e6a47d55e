import NewProxy.Dns
import NewProxy.LongestPrefix

/-!
# The appliance configuration and its IP policy

The part of a loaded configuration that decides where a packet goes, the checks
a configuration file has to pass, and the policy test the IO workers make on
the destination of an intercepted packet.
-/
namespace NewProxy

inductive Role where
  | client
  | server
  deriving DecidableEq

structure InterfaceName where
  name : String
  deriving DecidableEq

abbrev MacAddr := Vector UInt8 6

structure InterfaceInfo where
  name : InterfaceName
  ifindex : UInt32
  queueCount : UInt32
  mac : MacAddr
  addresses : List IpAddr
  ipv4 : Option (Vector UInt8 4)
  ipv6 : Option (Vector UInt8 16)
  deriving DecidableEq

structure InterceptConfig where
  interface : InterfaceName
  deriving DecidableEq

/-- The SNAT addresses and the two ends of the port range. -/
structure NatConfig where
  addressV4 : Option (Vector UInt8 4)
  addressV6 : Option (Vector UInt8 16)
  portStart : UInt16
  portEnd : UInt16
  deriving DecidableEq

/-- An address block: an address of the block and the length of its prefix. -/
structure Cidr (n : ℕ) where
  address : Vector UInt8 n
  prefixLen : ℕ
  valid : prefixLen ≤ 8 * n
  deriving DecidableEq

namespace Cidr

variable {n : ℕ}

def network (block : Cidr n) : Vector UInt8 n := maskAddress block.prefixLen block.address

def contains (block : Cidr n) (address : Vector UInt8 n) : Bool :=
  maskAddress block.prefixLen address = block.network

end Cidr

inductive IpNet where
  | v4 (network : Cidr 4)
  | v6 (network : Cidr 16)
  deriving DecidableEq

namespace IpNet

/-- The IPv4 block of all addresses with this first octet. -/
def startingWith (octet : UInt8) : IpNet := .v4 ⟨dotted octet 0 0 0, 8, by decide⟩

def contains : IpNet → IpAddr → Bool
  | .v4 network, .v4 address => network.contains address
  | .v6 network, .v6 address => network.contains address
  | _, _ => false

/-- A block that is written by its own network address. -/
def isNormalized : IpNet → Bool
  | .v4 network => network.network = network.address
  | .v6 network => network.network = network.address

def isV4 : IpNet → Bool
  | .v4 _ => true
  | .v6 _ => false

end IpNet

inductive IpPolicy where
  | tunnelPrefixes (prefixes : List IpNet)
  | directPrefixes (prefixes : List IpNet)
  deriving DecidableEq

def IpPolicy.prefixes : IpPolicy → List IpNet
  | .tunnelPrefixes prefixes | .directPrefixes prefixes => prefixes

structure DnsConfig where
  listen : SocketAddr
  localResolver : SocketAddr
  remoteResolver : SocketAddr
  remoteDomains : List Bytes
  transactionCapacity : ℕ
  timeoutSeconds : ℕ
  deriving DecidableEq

structure ApplianceConfig where
  role : Role
  tunnelInterface : InterfaceName
  interceptInterfaces : List InterceptConfig
  endpoint : Option SocketAddr
  listen : Option SocketAddr
  flowWorkerCount : ℕ
  nat : NatConfig
  ipPolicy : IpPolicy
  dns : Option DnsConfig
  configSourcePath : Option String
  deriving DecidableEq

/-! ## Address classes -/

namespace IpAddr

def octets : IpAddr → Bytes
  | .v4 octets => octets.toList
  | .v6 octets => octets.toList

/-- Every IPv4 address comes before every IPv6 address. -/
def le : IpAddr → IpAddr → Bool
  | .v4 a, .v4 b => a.toList ≤ b.toList
  | .v4 _, .v6 _ => true
  | .v6 _, .v4 _ => false
  | .v6 a, .v6 b => a.toList ≤ b.toList

def isUnspecified (address : IpAddr) : Bool := address.octets.all (· = 0)

def isMulticast : IpAddr → Bool
  | .v4 octets => (224 : UInt8) ≤ octets[0] && octets[0] ≤ (239 : UInt8)
  | .v6 octets => octets[0] = 0xff

def isBroadcast : IpAddr → Bool
  | .v4 octets => octets.toList.all (· = 255)
  | .v6 _ => false

end IpAddr

def isUsableHostAddress (address : IpAddr) : Bool :=
  !address.isUnspecified && !address.isMulticast && !address.isBroadcast

def isPublicDestinationV4 (octets : Vector UInt8 4) : Bool :=
  let a := octets[0]
  let b := octets[1]
  let c := octets[2]
  a ≠ 0 &&
    !(a = 127) &&
    !(a = 10 || a = 172 && 16 ≤ b && b ≤ 31 || a = 192 && b = 168) &&
    !(a = 169 && b = 254) &&
    !(IpAddr.v4 octets).isMulticast &&
    !(IpAddr.v4 octets).isBroadcast &&
    !(a = 100 && 64 ≤ b && b ≤ 127) &&
    !(a = 192 && b = 0 && c = 0) &&
    !(a = 192 && b = 0 && c = 2) &&
    !(a = 192 && b = 31 && c = 196) &&
    !(a = 192 && b = 52 && c = 193) &&
    !(a = 192 && b = 88 && c = 99) &&
    !(a = 192 && b = 175 && c = 48) &&
    !(a = 198 && (b = 18 || b = 19)) &&
    !(a = 198 && b = 51 && c = 100) &&
    !(a = 203 && b = 0 && c = 113) &&
    a < 240

def isPublicDestinationV6 (octets : Vector UInt8 16) : Bool :=
  let s0 := be16 octets[0] octets[1]
  let s1 := be16 octets[2] octets[3]
  let s2 := be16 octets[4] octets[5]
  let s3 := be16 octets[6] octets[7]
  let s4 := be16 octets[8] octets[9]
  let s5 := be16 octets[10] octets[11]
  !(IpAddr.v6 octets).isUnspecified &&
    !(octets.toList = List.replicate 15 0 ++ [1]) &&
    !(IpAddr.v6 octets).isMulticast &&
    s0 &&& 0xffc0 ≠ 0xfe80 &&
    s0 &&& 0xffc0 ≠ 0xfec0 &&
    s0 &&& 0xfe00 ≠ 0xfc00 &&
    !(s0 = 0 && s1 = 0 && s2 = 0 && s3 = 0 && s4 = 0 && s5 = 0xffff) &&
    !(s0 = 0x0100 && s1 = 0 && s2 = 0 && s3 = 0) &&
    !(s0 = 0x2001 && s1 = 0x0db8) &&
    !(s0 = 0x2001 && s1 = 0x0002 && s2 = 0)

def isPublicDestination : IpAddr → Bool
  | .v4 octets => isPublicDestinationV4 octets
  | .v6 octets => isPublicDestinationV6 octets

/-! ## Accepted configurations -/

namespace ApplianceConfig

def natAddresses (nat : NatConfig) : List IpAddr :=
  (nat.addressV4.map IpAddr.v4).toList ++ (nat.addressV6.map IpAddr.v6).toList

def lpmPrefixCapacityPerFamily : ℕ := 65536 - 16

/-- What `parse_ip_policy` guarantees of a client's prefixes: at least one, each
normalized and listed once, and room for each family in its table. -/
def policyAccepted (prefixes : List IpNet) : Bool :=
  !prefixes.isEmpty && prefixes.all IpNet.isNormalized && prefixes.Nodup &&
    (prefixes.filter (·.isV4)).length ≤ lpmPrefixCapacityPerFamily &&
    (prefixes.filter (!·.isV4)).length ≤ lpmPrefixCapacityPerFamily

/-- The checks of `parse_dns_config`. -/
def dnsAccepted (nat : NatConfig) (dns : DnsConfig) : Bool :=
  dns.listen.port = 53 && dns.localResolver.port = 53 && dns.remoteResolver.port = 53 &&
    isUsableHostAddress dns.listen.ip && isUsableHostAddress dns.localResolver.ip &&
    isUsableHostAddress dns.remoteResolver.ip &&
    dns.listen.ip.isV4 = dns.localResolver.ip.isV4 &&
    dns.listen.ip.isV4 = dns.remoteResolver.ip.isV4 &&
    (if dns.listen.ip.isV4 then nat.addressV4.isSome else nat.addressV6.isSome) &&
    !(natAddresses nat).contains dns.listen.ip &&
    dns.listen.ip ≠ dns.localResolver.ip && dns.listen.ip ≠ dns.remoteResolver.ip &&
    dns.transactionCapacity ≠ 0 && dns.timeoutSeconds ≠ 0

/-- The checks a configuration file has passed once it is loaded, as far as they
concern the modelled fields. -/
def accepted (config : ApplianceConfig) : Bool :=
  let tunnel := config.endpoint.or config.listen
  !config.interceptInterfaces.isEmpty &&
    (config.interceptInterfaces.map (·.interface)).Nodup &&
    config.flowWorkerCount ≠ 0 &&
    (match config.role with
      | .client => config.endpoint.isSome && config.listen.isNone &&
          policyAccepted config.ipPolicy.prefixes
      | .server => config.listen.isSome && config.endpoint.isNone &&
          config.interceptInterfaces.length = 1 && config.ipPolicy = .tunnelPrefixes [] &&
          config.dns.isNone) &&
    tunnel.all (isUsableHostAddress ·.ip) &&
    !(natAddresses config.nat).isEmpty && (natAddresses config.nat).all isUsableHostAddress &&
    config.nat.portStart ≠ 0 && config.nat.portStart ≤ config.nat.portEnd &&
    config.flowWorkerCount ≤ config.nat.portEnd.toNat - config.nat.portStart.toNat + 1 &&
    tunnel.all (!(natAddresses config.nat).contains ·.ip) &&
    config.dns.all (dnsAccepted config.nat) &&
    config.dns.all (fun dns => tunnel.all (·.ip ≠ dns.listen.ip))

/-- The same configuration under another `[AllowedIPs]` section. -/
def withPolicy (config : ApplianceConfig) (policy : IpPolicy) : ApplianceConfig :=
  { config with ipPolicy := policy }

end ApplianceConfig

/-! ## The policy of the IO workers -/

inductive InterceptPolicy where
  | tunnelPrefixes (prefixes : List IpNet)
  | directPrefixes (prefixes : List IpNet)
  | all
  deriving DecidableEq

def interceptPolicyFromConfig : IpPolicy → InterceptPolicy
  | .tunnelPrefixes prefixes => .tunnelPrefixes prefixes
  | .directPrefixes prefixes => .directPrefixes prefixes

def natHostPrefixes (config : ApplianceConfig) : List IpNet :=
  (config.nat.addressV4.map fun address => IpNet.v4 ⟨address, 32, by decide⟩).toList ++
    (config.nat.addressV6.map fun address => IpNet.v6 ⟨address, 128, by decide⟩).toList

/-- The policy the IO workers are started with. -/
def ioInterceptPolicy (config : ApplianceConfig) : InterceptPolicy :=
  match config.role with
  | .client => interceptPolicyFromConfig config.ipPolicy
  | .server => .tunnelPrefixes (natHostPrefixes config)

def destinationIp (packet : Bytes) : Option IpAddr := do
  let first : UInt8 ← packet[0]?
  if first >>> 4 = 4 then
    let octets ← packet.getRange 16 20
    return .v4 (octets.octetsAt 4 0)
  else if first >>> 4 = 6 then
    let octets ← packet.getRange 24 40
    return .v6 (octets.octetsAt 16 0)
  else none

def interceptAllowed (policy : InterceptPolicy) (packet : Bytes) : Bool :=
  match policy with
  | .all => true
  | .tunnelPrefixes prefixes =>
    (destinationIp packet).any fun destination => prefixes.any (·.contains destination)
  | .directPrefixes prefixes =>
    (destinationIp packet).any fun destination =>
      isPublicDestination destination && !prefixes.any (·.contains destination)

end NewProxy
