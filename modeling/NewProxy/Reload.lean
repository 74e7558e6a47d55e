import NewProxy.OrdMap
import NewProxy.XdpFilter

/-!
# Preparing, serving and reloading

`PreparedRuntime` as far as it concerns the kernel maps: preparing the
interfaces, putting the classifiers into service, and the policy reloads of the
main loop. The host answers every question the runtime asks of it, and may
refuse any map write.
-/
namespace NewProxy

instance isStrictTotalOrderUInt32 : IsStrictTotalOrder UInt32 (· < ·) where
  trichotomous := by grind
  irrefl := by grind
  trans := by grind

structure InterfaceSpec where
  ifindex : UInt32
  queueCount : UInt32
  classifiers : IoClassifiers
  deriving DecidableEq

def InterfaceSpec.tunnel (ifindex queueCount : UInt32) : InterfaceSpec :=
  ⟨ifindex, queueCount, ⟨true, false⟩⟩

def InterfaceSpec.intercept (ifindex queueCount : UInt32) : InterfaceSpec :=
  ⟨ifindex, queueCount, ⟨false, true⟩⟩

def xskMapMaxEntries : UInt32 := 4096

abbrev MergedInterfaces := OrdMap UInt32 (UInt32 × IoClassifiers)

/-- The roles of an interface that is named more than once are united. -/
def mergeInterface (interfaces : MergedInterfaces) (spec : InterfaceSpec) :
    Outcome RuntimeBuildError MergedInterfaces := do
  Outcome.ensure (spec.queueCount ≠ 0) (.zeroQueues spec.ifindex)
  Outcome.ensure (spec.queueCount ≤ xskMapMaxEntries)
    (.tooManyQueues spec.ifindex spec.queueCount xskMapMaxEntries)
  match interfaces.get spec.ifindex with
  | none => return interfaces.insert spec.ifindex (spec.queueCount, spec.classifiers)
  | some (queueCount, classifiers) => do
    Outcome.ensure (queueCount = spec.queueCount)
      (.queueCountMismatch spec.ifindex queueCount spec.queueCount)
    return interfaces.insert spec.ifindex
      (queueCount, ⟨classifiers.tunnel || spec.classifiers.tunnel,
        classifiers.intercept || spec.classifiers.intercept⟩)

def mergeInterfaces (specs : List InterfaceSpec) : Outcome RuntimeBuildError MergedInterfaces :=
  specs.foldlM mergeInterface .empty

def tunnelPort (config : ApplianceConfig) : Outcome RuntimeError UInt16 := do
  let address ← Outcome.expect (config.listen.or config.endpoint)
  return address.port

def resolveTunnelLocalIps (config : ApplianceConfig) (tunnel : InterfaceInfo) :
    Outcome RuntimeError (List IpAddr) :=
  match config.role with
  | .client => do
    let endpoint ← Outcome.expect config.endpoint
    let candidates := tunnel.addresses.filter fun address => address.isV4 = endpoint.ip.isV4
    Outcome.ensure (candidates.length = 1) (.interface (.endpointFamily tunnel.name))
    return candidates
  | .server => do
    let listen ← Outcome.expect config.listen
    Outcome.ensure (listen.ip ∈ tunnel.addresses)
      (.interface (.listenAddress listen.ip tunnel.name))
    return [listen.ip]

def validateDnsRuntimeAddresses (config : ApplianceConfig) (tunnelLocalIps : List IpAddr)
    (intercepts : List (InterceptConfig × InterfaceInfo)) :
    Outcome RuntimeError (Option UInt32) :=
  match config.dns with
  | none => .ok none
  | some dns => do
    let listen := dns.listen.ip
    Outcome.ensure (listen ∉ tunnelLocalIps ∧ some listen ≠ config.nat.addressV4.map IpAddr.v4 ∧
      some listen ≠ config.nat.addressV6.map IpAddr.v6) (.interface (.dnsListenShared listen))
    let owners := intercepts.filter fun (_, interface) => listen ∈ interface.addresses
    match owners with
    | [(_, interface)] => return some interface.ifindex
    | _ => Outcome.fail (.interface (.dnsListenOwners listen (owners.map (·.1.interface))))

/-- The answers of the host while the runtime is prepared. `rest` is the end of
socket, channel and engine set-up, which touches none of the modelled maps. -/
structure Host where
  discoverInterface : InterfaceName → Outcome RuntimeError InterfaceInfo
  ensureNatPortsReserved : UInt16 → UInt16 → Outcome RuntimeError Unit
  attach : UInt32 → Option String
  refuse : UInt32 → ℕ → Option String
  rest : Outcome RuntimeError Unit

structure PreparedRuntime where
  config : ApplianceConfig
  tunnelLocalIps : List IpAddr
  bpfLinks : List BpfLink
  dnsInterceptIfindex : Option UInt32
  /-- The kernel's side of the links. -/
  pinned : PinnedMaps

/-- Interfaces by index; an index keeps the first interface that had it. -/
def uniqueInterfaces (tunnel : InterfaceInfo) (intercepts : List InterfaceInfo) :
    OrdMap UInt32 InterfaceInfo :=
  intercepts.foldl
    (fun unique interface =>
      if (unique.get interface.ifindex).isSome then unique
      else unique.insert interface.ifindex interface)
    (OrdMap.empty.insert tunnel.ifindex tunnel)

/-- Loads the program onto an interface; its maps start empty. -/
def attachLink (host : Host) (ifindex : UInt32) : Act PinnedMaps RuntimeError Unit :=
  match host.attach ifindex with
  | some message => .fail (.bpf message)
  | none => .modify fun pinned => Function.update pinned ifindex .loaded

/-- The loop of `build` over the unique interfaces. -/
def attachLinks (host : Host) (tunnelLocalIps : List IpAddr) (port : UInt16)
    (config : ApplianceConfig) (dnsInterceptIfindex : Option UInt32)
    (classifiers : MergedInterfaces) : List UInt32 → Act PinnedMaps RuntimeError (List BpfLink)
  | [] => pure []
  | ifindex :: rest => do
    attachLink host ifindex
    let (_, roles) ← .expect (classifiers.get ifindex)
    onInterface ifindex (configureBpfMaps (host.refuse ifindex) ifindex tunnelLocalIps roles port
      config dnsInterceptIfindex)
    let links ← attachLinks host tunnelLocalIps port config dnsInterceptIfindex classifiers rest
    return ⟨ifindex, roles⟩ :: links

/-- What `build` finds out before it attaches anything. -/
structure Survey where
  tunnelLocalIps : List IpAddr
  dnsInterceptIfindex : Option UInt32
  interfaces : List UInt32
  classifiers : MergedInterfaces
  port : UInt16

namespace PreparedRuntime

def survey (host : Host) (config : ApplianceConfig) : Outcome RuntimeError Survey := do
  let tunnel ← host.discoverInterface config.tunnelInterface
  let tunnelLocalIps ← resolveTunnelLocalIps config tunnel
  host.ensureNatPortsReserved config.nat.portStart config.nat.portEnd
  let intercepts ← config.interceptInterfaces.mapM fun intercept => do
    return (intercept, ← host.discoverInterface intercept.interface)
  let dnsInterceptIfindex ← validateDnsRuntimeAddresses config tunnelLocalIps intercepts
  let classifiers ← (mergeInterfaces <|
    .tunnel tunnel.ifindex tunnel.queueCount :: intercepts.map fun (_, interface) =>
      .intercept interface.ifindex interface.queueCount).mapErr .build
  return {
    tunnelLocalIps
    dnsInterceptIfindex
    interfaces := (uniqueInterfaces tunnel (intercepts.map (·.2))).keys
    classifiers
    port := ← tunnelPort config }

def build (host : Host) (config : ApplianceConfig) : Outcome RuntimeError PreparedRuntime := do
  let found ← survey host config
  let attached := (attachLinks host found.tunnelLocalIps found.port config
    found.dnsInterceptIfindex found.classifiers found.interfaces).run fun _ => .loaded
  let bpfLinks ← attached.1
  host.rest
  return {
    config
    tunnelLocalIps := found.tunnelLocalIps
    bpfLinks
    dnsInterceptIfindex := found.dnsInterceptIfindex
    pinned := attached.2 }

/-! ## Serving -/

def onMaps {α : Type} (x : Act PinnedMaps RuntimeError α) : Act PreparedRuntime RuntimeError α :=
  .zoom pinned (fun pinned runtime => { runtime with pinned }) id x

def enable (refuse rollback : UInt32 → Option String) : Act PreparedRuntime RuntimeError Unit := do
  let runtime ← .get
  onMaps (enableBpfClassifiers refuse rollback runtime.bpfLinks)

end PreparedRuntime

/-- One reload signal: what loading the configuration file gives, and which map
writes the kernel refuses. -/
structure Reload where
  loaded : Option ApplianceConfig
  refuse : UInt32 → ℕ → Option String

/-- Only the policy and the DNS section are taken over. Without a source path
nothing is loaded and nothing fails. -/
def reloadPolicyFromSource (loaded : Option ApplianceConfig) (config : ApplianceConfig) :
    Option ApplianceConfig :=
  match config.configSourcePath with
  | none => some config
  | some _ => loaded.map fun reloaded =>
    { config with ipPolicy := reloaded.ipPolicy, dns := reloaded.dns }

/-- Configures every link; a failed link is logged and passed over. -/
def configureLinks (refuse : UInt32 → ℕ → Option String) (tunnelLocalIps : List IpAddr)
    (port : UInt16) (config : ApplianceConfig) (dnsInterceptIfindex : Option UInt32) :
    List BpfLink → Act PinnedMaps RuntimeError Unit
  | [] => pure ()
  | link :: rest => do
    let _ ← (onInterface link.ifindex (configureBpfMaps (refuse link.ifindex) link.ifindex
      tunnelLocalIps link.roles port config dnsInterceptIfindex)).attempt
    configureLinks refuse tunnelLocalIps port config dnsInterceptIfindex rest

namespace PreparedRuntime

/-- The reload branch of the main loop. -/
def reload (signal : Reload) : Act PreparedRuntime RuntimeError Unit := do
  let runtime ← .get
  match reloadPolicyFromSource signal.loaded runtime.config with
  | none => pure ()
  | some config => do
    .modify fun runtime => { runtime with config }
    let port ← .call (tunnelPort config)
    onMaps (configureLinks signal.refuse runtime.tunnelLocalIps port config
      runtime.dnsInterceptIfindex runtime.bpfLinks)

def mainLoop : List Reload → Act PreparedRuntime RuntimeError Unit
  | [] => pure ()
  | signal :: rest => do
    reload signal
    mainLoop rest

end PreparedRuntime

/-! ## A small installation -/

namespace Sample

def network10 : IpNet := .startingWith 10
def network192 : IpNet := .v4 ⟨dotted 192 168 0 0, 16, by decide⟩

/-- A client with one SNAT address that tunnels `10.0.0.0/8`. -/
def config : ApplianceConfig where
  role := .client
  tunnelInterface := ⟨"eth0"⟩
  interceptInterfaces := [⟨⟨"eth0"⟩⟩]
  endpoint := some ⟨.v4 (dotted 203 0 113 9), 443⟩
  listen := none
  flowWorkerCount := 1
  nat := ⟨some (dotted 198 51 100 7), none, 40000, 40100⟩
  ipPolicy := .tunnelPrefixes [network10]
  dns := none
  configSourcePath := some "client.ini"

/-- One interface that carries the tunnel and the intercepted traffic. -/
def host : Host where
  discoverInterface name := .ok ⟨name, 2, 1, #v[2, 0, 0, 0, 0, 3], [.v4 (dotted 192 0 2 10)],
    some (dotted 192 0 2 10), none⟩
  ensureNatPortsReserved _ _ := .ok ()
  attach _ := none
  refuse _ _ := none
  rest := .ok ()

def prepared : PreparedRuntime :=
  ((PreparedRuntime.build host config).toOption.get (by decide +kernel))

theorem build_prepared : PreparedRuntime.build host config = .ok prepared :=
  Outcome.eq_ok_get _

def served : PreparedRuntime :=
  ((PreparedRuntime.enable (fun _ => none) fun _ => none).run prepared).2

theorem enable_served :
    (PreparedRuntime.enable (fun _ => none) fun _ => none).run prepared = (.ok (), served) :=
  Prod.ext (by decide +kernel) rfl

/-- A reload in which the file is read and no write is refused. -/
def reload (policy : IpPolicy) : Reload := ⟨some (config.withPolicy policy), fun _ _ => none⟩

end Sample

end NewProxy
