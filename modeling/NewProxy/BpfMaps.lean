import NewProxy.Triple
import NewProxy.Policy

/-!
# The kernel maps of an attached interface

The maps the XDP program of one interface reads, and the functions of the
runtime that write them. A write may be refused by the kernel; the writes made
before it stay. Which writes are refused is an input of every function: `refuse`
gives the text of the error. Ports and addresses that are stored in network
order stand here as the values their bytes spell.
-/
namespace NewProxy

structure BpfMaps where
  tunnelPort : UInt16
  roleFlags : UInt8
  tunnelIpFlags : UInt8
  tunnelV4 : Vector UInt8 4
  tunnelV6 : Vector UInt8 16
  dnsIpFlags : UInt8
  dnsV4 : Vector UInt8 4
  dnsV6 : Vector UInt8 16
  dnsLocalFlags : UInt8
  dnsLocalResolverV4 : Vector UInt8 4
  dnsLocalResolverV6 : Vector UInt8 16
  dnsNatV4 : Vector UInt8 4
  dnsNatV6 : Vector UInt8 16
  dnsLocalResolverPort : UInt16
  dnsNatPortStart : UInt16
  dnsNatPortEnd : UInt16
  interceptPolicyMode : UInt8
  allowedV4 : LpmTrie 4 UInt8
  allowedV6 : LpmTrie 16 UInt8
  parserDrops : UInt64
  dnsFragmentDrops : UInt64

/-- The maps of a program that was just loaded: cells are zero, tries empty. -/
def BpfMaps.loaded : BpfMaps where
  tunnelPort := 0
  roleFlags := 0
  tunnelIpFlags := 0
  tunnelV4 := .replicate 4 0
  tunnelV6 := .replicate 16 0
  dnsIpFlags := 0
  dnsV4 := .replicate 4 0
  dnsV6 := .replicate 16 0
  dnsLocalFlags := 0
  dnsLocalResolverV4 := .replicate 4 0
  dnsLocalResolverV6 := .replicate 16 0
  dnsNatV4 := .replicate 4 0
  dnsNatV6 := .replicate 16 0
  dnsLocalResolverPort := 0
  dnsNatPortStart := 0
  dnsNatPortEnd := 0
  interceptPolicyMode := 0
  allowedV4 := .empty
  allowedV6 := .empty
  parserDrops := 0
  dnsFragmentDrops := 0

/-- One `update_pinned_map`: the map it names and the value, for the tries also
the key. -/
inductive MapWrite where
  | tunnelPort (port : UInt16)
  | roleFlags (flags : UInt8)
  | tunnelIpFlags (flags : UInt8)
  | tunnelV4 (address : Vector UInt8 4)
  | tunnelV6 (address : Vector UInt8 16)
  | dnsIpFlags (flags : UInt8)
  | dnsV4 (address : Vector UInt8 4)
  | dnsV6 (address : Vector UInt8 16)
  | dnsLocalFlags (flags : UInt8)
  | dnsLocalResolverV4 (address : Vector UInt8 4)
  | dnsLocalResolverV6 (address : Vector UInt8 16)
  | dnsNatV4 (address : Vector UInt8 4)
  | dnsNatV6 (address : Vector UInt8 16)
  | dnsLocalResolverPort (port : UInt16)
  | dnsNatPortStart (port : UInt16)
  | dnsNatPortEnd (port : UInt16)
  | interceptPolicyMode (mode : UInt8)
  | allowedV4 (key : LpmKey 4) (action : UInt8)
  | allowedV6 (key : LpmKey 16) (action : UInt8)

namespace MapWrite

def apply : MapWrite → BpfMaps → BpfMaps
  | .tunnelPort port, maps => { maps with tunnelPort := port }
  | .roleFlags flags, maps => { maps with roleFlags := flags }
  | .tunnelIpFlags flags, maps => { maps with tunnelIpFlags := flags }
  | .tunnelV4 address, maps => { maps with tunnelV4 := address }
  | .tunnelV6 address, maps => { maps with tunnelV6 := address }
  | .dnsIpFlags flags, maps => { maps with dnsIpFlags := flags }
  | .dnsV4 address, maps => { maps with dnsV4 := address }
  | .dnsV6 address, maps => { maps with dnsV6 := address }
  | .dnsLocalFlags flags, maps => { maps with dnsLocalFlags := flags }
  | .dnsLocalResolverV4 address, maps => { maps with dnsLocalResolverV4 := address }
  | .dnsLocalResolverV6 address, maps => { maps with dnsLocalResolverV6 := address }
  | .dnsNatV4 address, maps => { maps with dnsNatV4 := address }
  | .dnsNatV6 address, maps => { maps with dnsNatV6 := address }
  | .dnsLocalResolverPort port, maps => { maps with dnsLocalResolverPort := port }
  | .dnsNatPortStart port, maps => { maps with dnsNatPortStart := port }
  | .dnsNatPortEnd port, maps => { maps with dnsNatPortEnd := port }
  | .interceptPolicyMode mode, maps => { maps with interceptPolicyMode := mode }
  | .allowedV4 key action, maps => { maps with allowedV4 := maps.allowedV4.insert key action }
  | .allowedV6 key action, maps => { maps with allowedV6 := maps.allowedV6.insert key action }

/-- The maps after a list of writes, none of which was refused. -/
def applyAll (writes : List MapWrite) (maps : BpfMaps) : BpfMaps :=
  writes.foldl (fun maps write => write.apply maps) maps

end MapWrite

structure IoClassifiers where
  tunnel : Bool
  intercept : Bool
  deriving DecidableEq

/-- The value of `role_flags` for an interface in service. -/
def IoClassifiers.flags (roles : IoClassifiers) : UInt8 :=
  roles.tunnel.toUInt8 ||| roles.intercept.toUInt8 <<< 1

/-- One bit for each address family that is there. -/
def familyFlags {α β : Type} (v4 : Option α) (v6 : Option β) : UInt8 :=
  v4.isSome.toUInt8 ||| v6.isSome.toUInt8 <<< 1

def policyTunnelPrefixes : UInt8 := 0
def policyDirectPrefixes : UInt8 := 1
def policyActionPass : UInt8 := 0
def policyActionRedirect : UInt8 := 1

def IpAddr.v4? : IpAddr → Option (Vector UInt8 4)
  | .v4 octets => some octets
  | .v6 _ => none

def IpAddr.v6? : IpAddr → Option (Vector UInt8 16)
  | .v4 _ => none
  | .v6 octets => some octets

def xdpForcedLocalIps (config : ApplianceConfig) (tunnelLocalIps : List IpAddr) : List IpAddr :=
  let addresses := tunnelLocalIps ++ ((config.endpoint.or config.listen).map (·.ip)).toList ++
    (config.dns.map (·.listen.ip)).toList
  (addresses.insertionSort (fun a b => a.le b)).destutter (· ≠ ·)

def natReturnIps (config : ApplianceConfig) : List IpAddr :=
  (config.nat.addressV4.map IpAddr.v4).toList ++ (config.nat.addressV6.map IpAddr.v6).toList

/-! ## The writes of `configure_bpf_maps` -/

namespace MapWrite

def prefixRoute (action : UInt8) : IpNet → MapWrite
  | .v4 network => .allowedV4 ⟨network.prefixLen, network.network⟩ action
  | .v6 network => .allowedV6 ⟨network.prefixLen, network.network⟩ action

def hostRoute (action : UInt8) : IpAddr → MapWrite
  | .v4 address => .allowedV4 ⟨32, address⟩ action
  | .v6 address => .allowedV6 ⟨128, address⟩ action

def tunnelAddresses (tunnelLocalIps : List IpAddr) : List MapWrite :=
  let tunnelIpv4 := tunnelLocalIps.findSome? IpAddr.v4?
  let tunnelIpv6 := tunnelLocalIps.findSome? IpAddr.v6?
  [.tunnelIpFlags (familyFlags tunnelIpv4 tunnelIpv6)] ++
    (tunnelIpv4.map .tunnelV4).toList ++ (tunnelIpv6.map .tunnelV6).toList

def dnsAddresses (dnsListen : Option IpAddr) : List MapWrite :=
  let dnsIpv4 := dnsListen.bind IpAddr.v4?
  let dnsIpv6 := dnsListen.bind IpAddr.v6?
  [.dnsIpFlags (familyFlags dnsIpv4 dnsIpv6)] ++
    (dnsIpv4.map .dnsV4).toList ++ (dnsIpv6.map .dnsV6).toList

/-- The local resolver with the SNAT address its answers go to; nothing is
written for a family without one. -/
def dnsLocalResolver (nat : NatConfig) (resolver : Option SocketAddr) : List MapWrite :=
  let port := (resolver.map (·.port)).getD 0
  let dnsLocalIpv4 := do
    let address ← (← resolver).ip.v4?
    return (address, ← nat.addressV4)
  let dnsLocalIpv6 := do
    let address ← (← resolver).ip.v6?
    return (address, ← nat.addressV6)
  [.dnsLocalFlags (familyFlags dnsLocalIpv4 dnsLocalIpv6)] ++
    (match dnsLocalIpv4 with
      | some (address, natAddress) =>
        [.dnsLocalResolverV4 address, .dnsNatV4 natAddress, .dnsLocalResolverPort port,
          .dnsNatPortStart nat.portStart, .dnsNatPortEnd nat.portEnd]
      | none => []) ++
    (match dnsLocalIpv6 with
      | some (address, natAddress) =>
        [.dnsLocalResolverV6 address, .dnsNatV6 natAddress, .dnsLocalResolverPort port,
          .dnsNatPortStart nat.portStart, .dnsNatPortEnd nat.portEnd]
      | none => [])

/-- The mode, the prefixes and the action they carry. -/
def policy (config : ApplianceConfig) : UInt8 × List IpNet × UInt8 :=
  match config.role with
  | .client =>
    match config.ipPolicy with
    | .tunnelPrefixes prefixes => (policyTunnelPrefixes, prefixes, policyActionRedirect)
    | .directPrefixes prefixes => (policyDirectPrefixes, prefixes, policyActionPass)
  | .server => (policyTunnelPrefixes, natHostPrefixes config, policyActionRedirect)

/-- Host routes are written after the prefixes, and the SNAT addresses last, so
that they win over an equal key. -/
def routes (config : ApplianceConfig) (tunnelLocalIps : List IpAddr) : List MapWrite :=
  let (_, prefixes, action) := policy config
  prefixes.map (prefixRoute action) ++
    (xdpForcedLocalIps config tunnelLocalIps).map (hostRoute policyActionPass) ++
    (natReturnIps config).map (hostRoute policyActionRedirect)

/-- Everything after the first two writes. -/
def addressing (ifindex : UInt32) (tunnelLocalIps : List IpAddr) (roles : IoClassifiers)
    (config : ApplianceConfig) (dnsInterceptIfindex : Option UInt32) : List MapWrite :=
  let dnsOwner := roles.intercept && dnsInterceptIfindex = some ifindex
  let dns := if dnsOwner then config.dns else none
  tunnelAddresses tunnelLocalIps ++ dnsAddresses (dns.map (·.listen.ip)) ++
    dnsLocalResolver config.nat (dns.map (·.localResolver)) ++
    if roles.intercept then
      .interceptPolicyMode (policy config).1 :: routes config tunnelLocalIps
    else []

def configuration (ifindex : UInt32) (tunnelLocalIps : List IpAddr) (roles : IoClassifiers)
    (port : UInt16) (config : ApplianceConfig) (dnsInterceptIfindex : Option UInt32) :
    List MapWrite :=
  .tunnelPort port :: .roleFlags 0 ::
    addressing ifindex tunnelLocalIps roles config dnsInterceptIfindex

end MapWrite

/-! ## Writing -/

inductive RuntimeBuildError where
  | queueCountMismatch (ifindex first second : UInt32)
  | zeroQueues (ifindex : UInt32)
  | tooManyQueues (ifindex queueCount capacity : UInt32)
  deriving DecidableEq

/-- What was wrong with an interface, with the values its message shows. -/
inductive InterfaceProblem where
  | endpointFamily (tunnel : InterfaceName)
  | listenAddress (address : IpAddr) (tunnel : InterfaceName)
  | dnsListenShared (address : IpAddr)
  | dnsListenOwners (address : IpAddr) (owners : List InterfaceName)
  deriving DecidableEq

inductive RuntimeError where
  | interface (problem : InterfaceProblem)
  | bpf (message : String)
  | build (error : RuntimeBuildError)
  deriving DecidableEq

def updatePinnedMap (refusal : Option String) (write : MapWrite) : Act BpfMaps RuntimeError Unit :=
  match refusal with
  | some message => .fail (.bpf message)
  | none => .modify write.apply

/-- The writes from number `index` on, up to the first that is refused. -/
def writeAll (refuse : ℕ → Option String) : ℕ → List MapWrite → Act BpfMaps RuntimeError Unit
  | _, [] => pure ()
  | index, write :: writes => do
    updatePinnedMap (refuse index) write
    writeAll refuse (index + 1) writes

def configureBpfMaps (refuse : ℕ → Option String) (ifindex : UInt32) (tunnelLocalIps : List IpAddr)
    (roles : IoClassifiers) (port : UInt16) (config : ApplianceConfig)
    (dnsInterceptIfindex : Option UInt32) : Act BpfMaps RuntimeError Unit :=
  writeAll refuse 0
    (MapWrite.configuration ifindex tunnelLocalIps roles port config dnsInterceptIfindex)

structure BpfLink where
  ifindex : UInt32
  roles : IoClassifiers
  deriving DecidableEq

/-- The maps of every attached interface, by interface index. -/
abbrev PinnedMaps := UInt32 → BpfMaps

def onInterface {α : Type} (ifindex : UInt32) (x : Act BpfMaps RuntimeError α) :
    Act PinnedMaps RuntimeError α :=
  .zoom (fun pinned => pinned ifindex) (fun maps pinned => Function.update pinned ifindex maps) id x

def writeRoleFlags (refuse : UInt32 → Option String) (ifindex : UInt32) (flags : UInt8) :
    Act PinnedMaps RuntimeError Unit :=
  onInterface ifindex (updatePinnedMap (refuse ifindex) (.roleFlags flags))

/-- Takes the flags of the interfaces enabled so far back to zero. A refused
write is passed over. -/
def rollBack (rollback : UInt32 → Option String) (links : List BpfLink) :
    List UInt32 → Act PinnedMaps RuntimeError Unit
  | [] => pure ()
  | ifindex :: rest => do
    match links.find? (·.ifindex = ifindex) with
    | some link => let _ ← (writeRoleFlags rollback link.ifindex 0).attempt
    | none => pure ()
    rollBack rollback links rest

/-- The loop of `enable_bpf_classifiers` over the links not enabled yet. -/
def enableRest (refuse rollback : UInt32 → Option String) (links : List BpfLink) :
    List UInt32 → List BpfLink → Act PinnedMaps RuntimeError Unit
  | _, [] => pure ()
  | enabled, link :: rest => do
    match ← (writeRoleFlags refuse link.ifindex link.roles.flags).attempt with
    | .ok () => enableRest refuse rollback links (enabled ++ [link.ifindex]) rest
    | .error error => do
      rollBack rollback links enabled
      .fail error

def enableBpfClassifiers (refuse rollback : UInt32 → Option String) (links : List BpfLink) :
    Act PinnedMaps RuntimeError Unit :=
  enableRest refuse rollback links [] links

/-! ## What a list of writes leaves behind -/

namespace MapWrite

def isRoleFlags : MapWrite → Bool
  | .roleFlags _ => true
  | _ => false

theorem apply_roleFlags {write : MapWrite} (h : write.isRoleFlags = false) (maps : BpfMaps) :
    (write.apply maps).roleFlags = maps.roleFlags := by
  cases write <;> first | rfl | simp [isRoleFlags] at h

theorem tunnelAddresses_flagless (tunnelLocalIps : List IpAddr) :
    ∀ write ∈ tunnelAddresses tunnelLocalIps, write.isRoleFlags = false := by
  rw [tunnelAddresses]
  cases tunnelLocalIps.findSome? IpAddr.v4? <;> cases tunnelLocalIps.findSome? IpAddr.v6? <;>
    simp [isRoleFlags]

theorem dnsAddresses_flagless (dnsListen : Option IpAddr) :
    ∀ write ∈ dnsAddresses dnsListen, write.isRoleFlags = false := by
  rw [dnsAddresses]
  cases dnsListen.bind IpAddr.v4? <;> cases dnsListen.bind IpAddr.v6? <;> simp [isRoleFlags]

theorem dnsLocalResolver_flagless (nat : NatConfig) (resolver : Option SocketAddr) :
    ∀ write ∈ dnsLocalResolver nat resolver, write.isRoleFlags = false := by
  intro write hwrite
  simp only [dnsLocalResolver, List.mem_append, List.mem_singleton] at hwrite
  rcases hwrite with (rfl | h) | h
  · rfl
  · split at h
    · simp only [List.mem_cons, List.not_mem_nil, or_false] at h
      rcases h with rfl | rfl | rfl | rfl | rfl <;> rfl
    · simp at h
  · split at h
    · simp only [List.mem_cons, List.not_mem_nil, or_false] at h
      rcases h with rfl | rfl | rfl | rfl | rfl <;> rfl
    · simp at h

/-- A write to one of the two tries. -/
def isRoute : MapWrite → Bool
  | .allowedV4 _ _ | .allowedV6 _ _ => true
  | _ => false

theorem isRoute_prefixRoute (action : UInt8) (network : IpNet) :
    (prefixRoute action network).isRoute = true := by
  cases network <;> rfl

theorem isRoute_hostRoute (action : UInt8) (address : IpAddr) :
    (hostRoute action address).isRoute = true := by
  cases address <;> rfl

theorem routes_isRoute (config : ApplianceConfig) (tunnelLocalIps : List IpAddr) :
    ∀ write ∈ routes config tunnelLocalIps, write.isRoute = true := by
  intro write hwrite
  simp only [routes, List.mem_append, List.mem_map] at hwrite
  rcases hwrite with (⟨network, -, rfl⟩ | ⟨address, -, rfl⟩) | ⟨address, -, rfl⟩
  · exact isRoute_prefixRoute _ _
  · exact isRoute_hostRoute _ _
  · exact isRoute_hostRoute _ _

theorem flagless_of_isRoute {write : MapWrite} (h : write.isRoute = true) :
    write.isRoleFlags = false := by
  cases write <;> first | rfl | simp [isRoute] at h

theorem addressing_flagless (ifindex : UInt32) (tunnelLocalIps : List IpAddr)
    (roles : IoClassifiers) (config : ApplianceConfig) (dnsInterceptIfindex : Option UInt32) :
    ∀ write ∈ addressing ifindex tunnelLocalIps roles config dnsInterceptIfindex,
      write.isRoleFlags = false := by
  intro write hwrite
  simp only [addressing, List.mem_append] at hwrite
  rcases hwrite with ((h | h) | h) | h
  · exact tunnelAddresses_flagless _ write h
  · exact dnsAddresses_flagless _ write h
  · exact dnsLocalResolver_flagless _ _ write h
  · split at h
    · rcases List.mem_cons.mp h with rfl | h
      · rfl
      · exact flagless_of_isRoute (routes_isRoute config tunnelLocalIps write h)
    · simp at h

theorem applyAll_cons (write : MapWrite) (writes : List MapWrite) (maps : BpfMaps) :
    applyAll (write :: writes) maps = applyAll writes (write.apply maps) := rfl

theorem applyAll_append (first second : List MapWrite) (maps : BpfMaps) :
    applyAll (first ++ second) maps = applyAll second (applyAll first maps) := by
  simp [applyAll]

theorem applyAll_policyMode {writes : List MapWrite} (h : ∀ write ∈ writes, write.isRoute = true)
    (maps : BpfMaps) :
    (applyAll writes maps).interceptPolicyMode = maps.interceptPolicyMode := by
  induction writes generalizing maps with
  | nil => rfl
  | cons write writes ih =>
    have hwrite := h write (by simp)
    rw [applyAll_cons, ih fun w hw => h w (by simp [hw])]
    cases write <;> first | rfl | simp [isRoute] at hwrite

/-- The mode is the one of the configuration written last. -/
theorem configuration_policyMode {ifindex : UInt32} {tunnelLocalIps : List IpAddr}
    {roles : IoClassifiers} {port : UInt16} {config : ApplianceConfig}
    {dnsInterceptIfindex : Option UInt32} (h : roles.intercept = true) (maps : BpfMaps) :
    (applyAll (configuration ifindex tunnelLocalIps roles port config dnsInterceptIfindex)
      maps).interceptPolicyMode = (policy config).1 := by
  simp only [configuration, addressing, h, if_true, applyAll_cons, applyAll_append]
  rw [applyAll_policyMode (routes_isRoute config tunnelLocalIps)]
  rfl

end MapWrite

/-- The entry for the first `len` bits of an address. -/
def BpfMaps.allowedAt (maps : BpfMaps) : IpAddr → ℕ → Option UInt8
  | .v4 address, len => maps.allowedV4.get (.above address len)
  | .v6 address, len => maps.allowedV6.get (.above address len)

namespace MapWrite

/-- The entry a write makes for the first `len` bits of an address. -/
def routeAt : MapWrite → IpAddr → ℕ → Option UInt8
  | .allowedV4 key action, .v4 address, len =>
    if .above address len = key then some action else none
  | .allowedV6 key action, .v6 address, len =>
    if .above address len = key then some action else none
  | _, _, _ => none

/-- The entry a list of writes leaves there. -/
def lastRouteAt (writes : List MapWrite) (address : IpAddr) (len : ℕ) : Option UInt8 :=
  writes.foldl (fun last write => (write.routeAt address len).or last) none

theorem apply_allowedAt (write : MapWrite) (maps : BpfMaps) (address : IpAddr) (len : ℕ) :
    (write.apply maps).allowedAt address len =
      (write.routeAt address len).or (maps.allowedAt address len) := by
  cases write with
  | allowedV4 key action =>
    cases address with
    | v4 octets =>
      simp only [apply, BpfMaps.allowedAt, routeAt, HashMap.get_insert]
      split_ifs <;> rfl
    | v6 octets => rfl
  | allowedV6 key action =>
    cases address with
    | v4 octets => rfl
    | v6 octets =>
      simp only [apply, BpfMaps.allowedAt, routeAt, HashMap.get_insert]
      split_ifs <;> rfl
  | _ => cases address <;> rfl

theorem applyAll_allowedAt (writes : List MapWrite) (maps : BpfMaps) (address : IpAddr) (len : ℕ) :
    (applyAll writes maps).allowedAt address len =
      (lastRouteAt writes address len).or (maps.allowedAt address len) := by
  induction writes using List.reverseRecOn with
  | nil => rfl
  | append_singleton writes write ih =>
    rw [applyAll_append, applyAll_cons, lastRouteAt, List.foldl_append]
    simp only [applyAll, List.foldl_nil, List.foldl_cons, Option.or_assoc]
    rw [apply_allowedAt]
    exact congrArg _ ih

end MapWrite

theorem BpfMaps.loaded_allowedAt (address : IpAddr) (len : ℕ) :
    BpfMaps.loaded.allowedAt address len = none := by
  cases address <;> rfl

/-! ## What a partly refused configuration leaves behind -/

section Writing

variable {refuse : ℕ → Option String} {maps maps' : BpfMaps} {writes : List MapWrite}

theorem writeAll_unrefused (h : ∀ index, refuse index = none) (index : ℕ) :
    (writeAll refuse index writes).run maps = (.ok (), MapWrite.applyAll writes maps) := by
  induction writes generalizing index maps with
  | nil => rfl
  | cons write writes ih =>
    have hwrite : (updatePinnedMap (refuse index) write).run maps = (.ok (), write.apply maps) := by
      rw [h index]
      rfl
    rw [writeAll, Act.bind_of_ok hwrite, ih]
    rfl

theorem writeAll_ok {index : ℕ} (h : (writeAll refuse index writes).run maps = (.ok (), maps')) :
    maps' = MapWrite.applyAll writes maps := by
  induction writes generalizing index maps with
  | nil => exact (Prod.mk.inj h).2.symm
  | cons write writes ih =>
    obtain ⟨⟨⟩, next, hwrite, hrest⟩ := Act.bind_eq_ok.mp h
    rcases hr : refuse index with _ | message
    · rw [hr] at hwrite
      obtain rfl : write.apply maps = next := (Prod.mk.inj hwrite).2
      exact ih hrest
    · rw [hr] at hwrite
      exact absurd (Prod.mk.inj hwrite).1 (by simp [Outcome.fail])

theorem writeAll_roleFlags (h : ∀ write ∈ writes, write.isRoleFlags = false) (index : ℕ) :
    ((writeAll refuse index writes).run maps).2.roleFlags = maps.roleFlags := by
  induction writes generalizing index maps with
  | nil => rfl
  | cons write writes ih =>
    have hrest : ∀ w ∈ writes, w.isRoleFlags = false := fun w hw => h w (by simp [hw])
    rw [writeAll, Act.run_bind]
    rcases hr : refuse index with _ | message
    · simp only [updatePinnedMap, Act.run_modify]
      rw [ih hrest, MapWrite.apply_roleFlags (h write (by simp))]
    · rfl

/-- A configuration that gets past its second write takes the interface out of
service; no later write puts it back. -/
theorem configureBpfMaps_roleFlags (ifindex : UInt32) (tunnelLocalIps : List IpAddr)
    (roles : IoClassifiers) (port : UInt16) (config : ApplianceConfig)
    (dnsInterceptIfindex : Option UInt32) :
    ((configureBpfMaps refuse ifindex tunnelLocalIps roles port config
      dnsInterceptIfindex).run maps).2.roleFlags =
      if (refuse 0).isSome ∨ (refuse 1).isSome then maps.roleFlags else 0 := by
  have hkeeps := MapWrite.addressing_flagless ifindex tunnelLocalIps roles config
    dnsInterceptIfindex
  simp only [configureBpfMaps, MapWrite.configuration, writeAll, Act.run_bind]
  rcases h0 : refuse 0 with _ | first
  · simp only [updatePinnedMap, Act.run_modify]
    rcases refuse (0 + 1) with _ | second
    · simp only [Act.run_modify]
      rw [writeAll_roleFlags hkeeps]
      simp [MapWrite.apply]
    · simp [MapWrite.apply, Outcome.fail]
  · simp [updatePinnedMap, Outcome.fail]

end Writing

section Interface

variable {α : Type} {ifindex : UInt32}

theorem run_onInterface (ifindex : UInt32) (x : Act BpfMaps RuntimeError α) (pinned : PinnedMaps) :
    (onInterface ifindex x).run pinned =
      ((x.run (pinned ifindex)).1, Function.update pinned ifindex (x.run (pinned ifindex)).2) := by
  simp only [onInterface, Act.zoom, Outcome.mapErr_id]

theorem onInterface_same (ifindex : UInt32) (x : Act BpfMaps RuntimeError α)
    (pinned : PinnedMaps) :
    ((onInterface ifindex x).run pinned).2 ifindex = (x.run (pinned ifindex)).2 := by
  rw [run_onInterface]
  exact Function.update_self ..

theorem onInterface_other {other : UInt32} (h : other ≠ ifindex) (x : Act BpfMaps RuntimeError α)
    (pinned : PinnedMaps) : ((onInterface ifindex x).run pinned).2 other = pinned other := by
  rw [run_onInterface]
  exact Function.update_of_ne h ..

end Interface

theorem writeAll_ne_panic (refuse : ℕ → Option String) (index : ℕ) (writes : List MapWrite)
    (maps : BpfMaps) : ((writeAll refuse index writes).run maps).1 ≠ Outcome.panic := by
  induction writes generalizing index maps with
  | nil => simp [writeAll, Outcome.panic]
  | cons write writes ih =>
    rw [writeAll, Act.run_bind]
    rcases refuse index with _ | message
    · exact ih (index + 1) (write.apply maps)
    · simp [updatePinnedMap, Outcome.fail, Outcome.panic]

end NewProxy
