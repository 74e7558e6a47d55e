import NewProxy.Classifiers

/-!
# Reloading the IP policy against restarting

A reload writes the new prefixes over the old tries and leaves the IO workers
with the policy they were started with. The decision on a destination is
compared with the one of a process that starts with the last configuration:
`reload_decides_as_restart_iff` says for which histories and destinations the
two agree.
-/
namespace NewProxy

def IpAddr.bits : IpAddr → ℕ
  | .v4 _ => 32
  | .v6 _ => 128

/-- The address test of the XDP program. -/
def isPublic : IpAddr → Bool
  | .v4 address => isPublicV4 address
  | .v6 address => isPublicV6 address

/-- What the XDP program does with an unfragmented packet for `destination`
that only the policy decides about. -/
def interceptActionTo (maps : BpfMaps) : IpAddr → XdpAction
  | .v4 destination => interceptActionV4 maps destination false
  | .v6 destination => interceptActionV6 maps destination false

theorem interceptActionTo_eq (maps : BpfMaps) (destination : IpAddr) :
    interceptActionTo maps destination =
      interceptAction (longest (maps.allowedAt destination) destination.bits)
        maps.interceptPolicyMode (isPublic destination) false := by
  cases destination <;> rfl

/-- Where a packet goes. A packet that is redirected to an IO worker which does
not take it never reaches the kernel. -/
inductive PolicyDecision where
  | direct
  | tunnel
  | lost
  deriving DecidableEq

def PolicyDecision.ofAction (action : XdpAction) (allowed : Bool) : PolicyDecision :=
  match action with
  | .redirect => if allowed then .tunnel else .lost
  | .drop => .lost
  | .pass => .direct

/-- The decision of the maps of an interface and the policy of its IO workers. -/
def policyDecision (maps : BpfMaps) (policy : InterceptPolicy) (packet : Bytes) :
    Option PolicyDecision :=
  (destinationIp packet).map fun destination =>
    .ofAction (interceptActionTo maps destination) (interceptAllowed policy packet)

theorem interceptAction_cases (found : Option UInt8) (mode : UInt8) (isPublic : Bool) :
    interceptAction found mode isPublic false = .redirect ∨
      interceptAction found mode isPublic false = .pass := by
  unfold interceptAction
  split <;> split_ifs <;> simp_all

theorem interceptAction_some (action mode : UInt8) (isPublic : Bool) :
    interceptAction (some action) mode isPublic false =
      if action = policyActionRedirect then .redirect else .pass := rfl

theorem interceptActionTo_cases (maps : BpfMaps) (destination : IpAddr) :
    interceptActionTo maps destination = .redirect ∨
      interceptActionTo maps destination = .pass := by
  rw [interceptActionTo_eq]
  exact interceptAction_cases _ _ _

theorem PolicyDecision.ofAction_inj {a b : XdpAction} {allowed allowed' : Bool}
    (ha : a = .redirect ∨ a = .pass) (hb : b = .redirect ∨ b = .pass) :
    ofAction a allowed = ofAction b allowed' ↔ a = b ∧ (b = .redirect → allowed = allowed') := by
  rcases ha with rfl | rfl <;> rcases hb with rfl | rfl <;> cases allowed <;> cases allowed' <;>
    simp [ofAction]

/-! ## What a history of policies leaves in the tries -/

/-- The entry that the last of `policies` to list the first `len` bits of an
address has for them. -/
def lastEntryAt (fresh : IpPolicy → BpfMaps) (policies : List IpPolicy) (address : IpAddr)
    (len : ℕ) : Option UInt8 :=
  policies.foldl (fun last policy => ((fresh policy).allowedAt address len).or last) none

theorem lastEntryAt_append (fresh : IpPolicy → BpfMaps) (policies : List IpPolicy)
    (policy : IpPolicy) (address : IpAddr) (len : ℕ) :
    lastEntryAt fresh (policies ++ [policy]) address len =
      ((fresh policy).allowedAt address len).or (lastEntryAt fresh policies address len) := by
  simp [lastEntryAt]

/-- `action` stands in the tries for the longest prefix of `destination` that any
policy of the history has listed, and `current` does not list that prefix. -/
def Withdrawn (fresh : IpPolicy → BpfMaps) (earlier : List IpPolicy) (current : IpPolicy)
    (destination : IpAddr) (action : UInt8) : Prop :=
  Uncovered ((fresh current).allowedAt destination) (lastEntryAt fresh earlier destination)
    destination.bits action

/-- The maps of an interface once the policies of a history were written to it in
turn. -/
structure Wrote (fresh : IpPolicy → BpfMaps) (earlier : List IpPolicy) (current : IpPolicy)
    (maps : BpfMaps) : Prop where
  mode : maps.interceptPolicyMode = (fresh current).interceptPolicyMode
  entry : ∀ address len, maps.allowedAt address len =
    lastEntryAt fresh (earlier ++ [current]) address len

namespace Wrote

variable {fresh : IpPolicy → BpfMaps} {earlier : List IpPolicy} {current : IpPolicy}
  {maps : BpfMaps}

theorem action_iff (h : Wrote fresh earlier current maps) (destination : IpAddr) :
    interceptActionTo maps destination = interceptActionTo (fresh current) destination ↔
      ∀ action, Withdrawn fresh earlier current destination action →
        (action = policyActionRedirect ↔
          interceptActionTo (fresh current) destination = .redirect) := by
  have hentry : maps.allowedAt destination = fun len =>
      ((fresh current).allowedAt destination len).or
        (lastEntryAt fresh earlier destination len) := by
    funext len
    rw [h.entry, lastEntryAt_append]
  rw [interceptActionTo_eq, hentry, h.mode, interceptActionTo_eq (fresh current)]
  rw [longest_overlay_iff fun found => interceptAction found (fresh current).interceptPolicyMode
    (isPublic destination) false]
  refine forall₂_congr fun action _ => ?_
  rw [interceptAction_some]
  rcases interceptAction_cases (longest ((fresh current).allowedAt destination) destination.bits)
    (fresh current).interceptPolicyMode (isPublic destination) with hcase | hcase <;>
    simp [hcase]

theorem decision_iff (h : Wrote fresh earlier current maps) (policy policy' : InterceptPolicy)
    (packet : Bytes) :
    policyDecision maps policy packet = policyDecision (fresh current) policy' packet ↔
      ∀ destination, destinationIp packet = some destination →
        (∀ action, Withdrawn fresh earlier current destination action →
          (action = policyActionRedirect ↔
            interceptActionTo (fresh current) destination = .redirect)) ∧
        (interceptActionTo (fresh current) destination = .redirect →
          interceptAllowed policy packet = interceptAllowed policy' packet) := by
  rw [policyDecision, policyDecision]
  rcases destinationIp packet with _ | destination
  · simp
  · simp only [Option.map_some, Option.some.injEq, forall_eq']
    rw [PolicyDecision.ofAction_inj (interceptActionTo_cases _ _) (interceptActionTo_cases _ _),
      h.action_iff]

end Wrote

/-! ## Runs -/

namespace PreparedRuntime

/-- The maps a fresh start under `policy` gives a link. -/
def freshUnder (runtime : PreparedRuntime) (port : UInt16) (config : ApplianceConfig)
    (link : BpfLink) (policy : IpPolicy) : BpfMaps :=
  freshMaps runtime.tunnelLocalIps port (config.withPolicy policy) runtime.dnsInterceptIfindex link

theorem freshMaps_allowedAt (tunnelLocalIps : List IpAddr) (port : UInt16)
    (config : ApplianceConfig) (dnsInterceptIfindex : Option UInt32) (link : BpfLink)
    (maps : BpfMaps) (address : IpAddr) (len : ℕ) :
    (MapWrite.applyAll (MapWrite.configuration link.ifindex tunnelLocalIps link.roles port config
      dnsInterceptIfindex) maps).allowedAt address len =
      ((freshMaps tunnelLocalIps port config dnsInterceptIfindex link).allowedAt address len).or
        (maps.allowedAt address len) := by
  rw [freshMaps, MapWrite.applyAll_allowedAt, MapWrite.applyAll_allowedAt,
    BpfMaps.loaded_allowedAt, Option.or_none]

/-- A reload of the file with other `[AllowedIPs]`, none of whose writes is refused. -/
def policyReload (config : ApplianceConfig) (policy : IpPolicy) : Reload :=
  ⟨some (config.withPolicy policy), fun _ _ => none⟩

variable {runtime served : PreparedRuntime} {config : ApplianceConfig} {port : UInt16}

/-- The running system after the policies of a history. -/
structure Under (runtime : PreparedRuntime) (port : UInt16) (config : ApplianceConfig)
    (earlier : List IpPolicy) (current : IpPolicy) (running : PreparedRuntime) : Prop where
  alike : Alike runtime running
  loaded : running.config = config.withPolicy current
  wrote : ∀ link ∈ runtime.bpfLinks, link.roles.intercept = true →
    Wrote (freshUnder runtime port config link) earlier current (running.pinned link.ifindex)

theorem Under.reload {earlier : List IpPolicy} {current : IpPolicy} {running : PreparedRuntime}
    {path : String} (h : Under runtime port config earlier current running)
    (hport : tunnelPort config = .ok port) (hpath : config.configSourcePath = some path)
    (hdistinct : (runtime.bpfLinks.map (·.ifindex)).Nodup) (policy : IpPolicy) :
    Under runtime port config (earlier ++ [current]) policy
      ((PreparedRuntime.reload (policyReload config policy)).run running).2 := by
  have hload : reloadPolicyFromSource (policyReload config policy).loaded running.config =
      some (config.withPolicy policy) := by
    rw [reloadPolicyFromSource, h.loaded]
    simp only [ApplianceConfig.withPolicy, hpath, policyReload]
    rfl
  have hport' : tunnelPort running.config = .ok port := by
    rw [h.loaded]
    exact hport
  rw [reload_taken hload hport']
  refine ⟨⟨h.alike.links, h.alike.localIps, h.alike.dnsIfindex, ?_, ?_⟩, rfl, ?_⟩
  · rw [← h.alike.port, h.loaded]
    rfl
  · rw [← h.alike.source, h.loaded]
    rfl
  · intro link hlink hintercept
    have hbefore := h.wrote link hlink hintercept
    have hmaps : ((configureLinks (fun _ _ => none) running.tunnelLocalIps port
        (config.withPolicy policy) running.dnsInterceptIfindex running.bpfLinks).run
        running.pinned).2 link.ifindex =
        MapWrite.applyAll (MapWrite.configuration link.ifindex runtime.tunnelLocalIps link.roles
          port (config.withPolicy policy) runtime.dnsInterceptIfindex)
          (running.pinned link.ifindex) := by
      rw [h.alike.links, h.alike.localIps, h.alike.dnsIfindex,
        configureLinks_maps hdistinct hlink, configureBpfMaps, writeAll_unrefused fun _ => rfl]
    constructor
    · refine (congrArg BpfMaps.interceptPolicyMode hmaps).trans ?_
      rw [MapWrite.configuration_policyMode hintercept, freshUnder, freshMaps,
        MapWrite.configuration_policyMode hintercept]
    · intro address len
      refine (congrArg (BpfMaps.allowedAt · address len) hmaps).trans ?_
      rw [freshMaps_allowedAt, hbefore.entry]
      exact (lastEntryAt_append (freshUnder runtime port config link) _ _ _ _).symm

theorem Under.mainLoop {earlier : List IpPolicy} {current : IpPolicy} {running : PreparedRuntime}
    {path : String} (h : Under runtime port config earlier current running)
    (hport : tunnelPort config = .ok port) (hpath : config.configSourcePath = some path)
    (hruntime : tunnelPort runtime.config = .ok port)
    (hdistinct : (runtime.bpfLinks.map (·.ifindex)).Nodup) {policies before : List IpPolicy}
    {last : IpPolicy} (hhistory : current :: policies = before ++ [last]) :
    Under runtime port config (earlier ++ before) last
      ((PreparedRuntime.mainLoop (policies.map (policyReload config))).run running).2 := by
  induction policies generalizing earlier current running before with
  | nil =>
    obtain ⟨rfl, rfl⟩ : before = [] ∧ current = last := by
      rcases before with _ | ⟨b, before⟩
      · simpa using hhistory
      · simp at hhistory
    rw [List.append_nil]
    exact h
  | cons policy policies ih =>
    rcases before with _ | ⟨b, before⟩
    · simp at hhistory
    · obtain ⟨rfl, hrest⟩ : current = b ∧ policy :: policies = before ++ [last] := by
        simpa using hhistory
      rw [List.map_cons, mainLoop_cons h.alike hruntime]
      have hnext := ih (h.reload hport hpath hdistinct policy) hrest
      simpa using hnext

theorem under_served {refuse rollback : UInt32 → Option String}
    (hready : Ready config port runtime)
    (hserved : (enable refuse rollback).run runtime = (.ok (), served)) :
    Under runtime port config [] config.ipPolicy served := by
  have hoff : ∀ link ∈ runtime.bpfLinks, (runtime.pinned link.ifindex).roleFlags = 0 := by
    intro link hlink
    rw [hready.maps link hlink, freshMaps_roleFlags]
  have hends := enable_ends refuse rollback hready.distinct hoff
  rw [hserved] at hends
  obtain ⟨halike, hconfig, hsame, -⟩ := hends
  refine ⟨halike, hconfig.trans hready.loaded, ?_⟩
  intro link hlink _
  have hmaps := hsame link.ifindex
  rw [hready.maps link hlink] at hmaps
  constructor
  · exact (congrArg BpfMaps.interceptPolicyMode hmaps).symm
  · intro address len
    rw [List.nil_append, lastEntryAt, List.foldl_cons, List.foldl_nil, Option.or_none]
    have hentry := congrArg (BpfMaps.allowedAt · address len) hmaps.symm
    cases address <;> exact hentry

/-- Every reload leaves the tries and the IO workers to decide as a process
freshly started with the last configuration would, exactly if for the longest
prefix of the destination that was ever listed and is not listed any more the
old action is the new one, and, where the new configuration redirects, the
workers' first policy takes the packet as the new one would. -/
theorem reload_decides_as_restart_iff {host : Host}
    (hhost : ∀ ifindex index, host.refuse ifindex index = none) {path : String}
    (hpath : config.configSourcePath = some path)
    (hbuild : build host config = .ok runtime) {refuse rollback : UInt32 → Option String}
    (hserved : (enable refuse rollback).run runtime = (.ok (), served))
    {policies earlier : List IpPolicy} {last : IpPolicy}
    (hhistory : config.ipPolicy :: policies = earlier ++ [last]) :
    ∃ port fresh, tunnelPort config = .ok port ∧
      build host (config.withPolicy last) = .ok fresh ∧ fresh.bpfLinks = runtime.bpfLinks ∧
      ∀ link ∈ runtime.bpfLinks, link.roles.intercept = true → ∀ packet,
        policyDecision
            (((PreparedRuntime.mainLoop (policies.map (policyReload config))).run
              served).2.pinned link.ifindex) (ioInterceptPolicy config) packet =
          policyDecision (fresh.pinned link.ifindex)
            (ioInterceptPolicy (config.withPolicy last)) packet ↔
        ∀ destination, destinationIp packet = some destination →
          (∀ action,
            Withdrawn (freshUnder runtime port config link) earlier last destination action →
            (action = policyActionRedirect ↔
              interceptActionTo (fresh.pinned link.ifindex) destination = .redirect)) ∧
          (interceptActionTo (fresh.pinned link.ifindex) destination = .redirect →
            interceptAllowed (ioInterceptPolicy config) packet =
              interceptAllowed (ioInterceptPolicy (config.withPolicy last)) packet) := by
  obtain ⟨port, hready⟩ := build_ok hbuild
  obtain ⟨fresh, hfresh, hlinks, hips, hdns⟩ := build_withPolicy hhost hbuild last
  obtain ⟨port', hfreshReady⟩ := build_ok hfresh
  obtain rfl : port' = port := by
    have heq := hfreshReady.listens.symm.trans hready.listens
    exact Except.ok.inj heq
  refine ⟨port', fresh, hready.listens, hfresh, hlinks, fun link hlink hintercept packet => ?_⟩
  have hruntime : tunnelPort runtime.config = .ok port' := by rw [hready.loaded, hready.listens]
  have hunder := (under_served hready hserved).mainLoop hready.listens hpath hruntime
    hready.distinct hhistory
  have hmaps : fresh.pinned link.ifindex = freshUnder runtime port' config link last := by
    rw [hfreshReady.maps link (by rwa [hlinks]), hips, hdns]
    rfl
  rw [hmaps]
  exact (hunder.wrote link hlink hintercept).decision_iff _ _ packet

/-- An IPv4 header for `10.1.2.3`. -/
def sampleHeader : Bytes :=
  [0x45, 0, 0, 20, 0, 0, 0, 0, 64, 17, 0, 0, 192, 0, 2, 99, 10, 1, 2, 3]

/-- The file lists `10.0.0.0/8` and then `192.168.0.0/16` as well. The running system tunnels
packets for `10.1.2.3` as a restarted one would, and its IO workers take them. -/
theorem reload_decides_as_restart_iff_sample :
    let policy := .tunnelPrefixes [Sample.network10, Sample.network192]
    let config := Sample.config.withPolicy policy
    ∃ fresh, build Sample.host config = .ok fresh ∧
      policyDecision (((PreparedRuntime.mainLoop [policyReload Sample.config policy]).run
        Sample.served).2.pinned 2) (ioInterceptPolicy Sample.config) sampleHeader = some .tunnel ∧
      policyDecision (fresh.pinned 2) (ioInterceptPolicy config) sampleHeader = some .tunnel ∧
      interceptAllowed (ioInterceptPolicy Sample.config) sampleHeader =
        interceptAllowed (ioInterceptPolicy config) sampleHeader := by
  intro policy config
  obtain ⟨port, fresh, -, hfresh, -, hiff⟩ := reload_decides_as_restart_iff (fun _ _ => rfl) rfl
    Sample.build_prepared Sample.enable_served
    (show _ :: [policy] = [Sample.config.ipPolicy] ++ [policy] from rfl)
  obtain rfl : (build Sample.host config).toOption.get (by decide +kernel) = fresh :=
    Except.ok.inj ((Outcome.eq_ok_get _).symm.trans hfresh)
  have hrunning :
      policyDecision (((PreparedRuntime.mainLoop [policyReload Sample.config policy]).run
      Sample.served).2.pinned 2) (ioInterceptPolicy Sample.config) sampleHeader = some .tunnel := by
    decide +kernel
  have hrestarted : policyDecision (((build Sample.host config).toOption.get
      (by decide +kernel)).pinned 2) (ioInterceptPolicy config) sampleHeader = some .tunnel := by
    decide +kernel
  refine ⟨_, hfresh, hrunning, hrestarted, ?_⟩
  exact ((hiff ⟨2, ⟨true, true⟩⟩ (by decide +kernel) rfl sampleHeader).mp
    (hrunning.trans hrestarted.symm) (.v4 #v[10, 1, 2, 3]) (by decide +kernel)).2
    (by decide +kernel)

/-- The file first lists `10.0.0.0/8` and then only `192.168.0.0/16`. A restart
leaves packets for `10.1.2.3` to the kernel; the running system, whose every
write succeeded, goes on tunnelling them. -/
theorem reload_keeps_withdrawn_prefix :
    Sample.config.accepted = true ∧
      (Sample.config.withPolicy (.tunnelPrefixes [Sample.network192])).accepted = true ∧
      (enable (fun _ => none) fun _ => none).run Sample.prepared = (.ok (), Sample.served) ∧
      ∃ fresh, build Sample.host
          (Sample.config.withPolicy (.tunnelPrefixes [Sample.network192])) = .ok fresh ∧
        policyDecision (fresh.pinned 2)
          (ioInterceptPolicy (Sample.config.withPolicy (.tunnelPrefixes [Sample.network192])))
          sampleHeader = some .direct ∧
        policyDecision
          (((PreparedRuntime.mainLoop
            [policyReload Sample.config (.tunnelPrefixes [Sample.network192])]).run
              Sample.served).2.pinned 2)
          (ioInterceptPolicy Sample.config) sampleHeader = some .tunnel := by
  refine ⟨by decide +kernel, by decide +kernel, Sample.enable_served, ?_⟩
  exact ⟨_, Outcome.eq_ok_get (by decide +kernel), by decide +kernel, by decide +kernel⟩

end PreparedRuntime

end NewProxy
