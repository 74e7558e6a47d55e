import NewProxy.PolicyReload

/-!
# The tries against the policy of the IO workers

The XDP program decides by a longest-prefix trie, host routes over prefixes, and
its own test for public addresses. The IO workers walk the list of prefixes and
use the test of the policy. `tries_decide_as_policy` says that once the
interfaces are in service the two decide alike.
-/
namespace NewProxy

/-! ## Public addresses -/

theorem byteAt_toList {n : ℕ} (address : Vector UInt8 n) (i : ℕ) (hi : i < n) :
    Bytes.byteAt address.toList i = address[i] := by
  simp [Bytes.byteAt, hi]

theorem be16_eq_iff {a b : UInt8} {w : UInt16} : be16 a b = w ↔ [a, b] = be16Bytes w := by
  refine ⟨fun h => by rw [← h, be16Bytes_be16], fun h => ?_⟩
  obtain ⟨rfl, rfl⟩ : a = UInt8.ofNat (w.toNat / 256) ∧ b = UInt8.ofNat (w.toNat % 256) := by
    simpa [be16Bytes] using h
  exact be16_div_mod w

theorem be16_and (a b : UInt8) (w : UInt16) :
    be16 a b &&& w =
      be16 (a &&& UInt8.ofNat (w.toNat / 256)) (b &&& UInt8.ofNat (w.toNat % 256)) := by
  nth_rewrite 1 [← be16_div_mod w]
  generalize UInt8.ofNat (w.toNat / 256) = m
  generalize UInt8.ofNat (w.toNat % 256) = n
  have hb : b.toNat < 2 ^ 8 := b.toNat_lt
  have hn : n.toNat < 2 ^ 8 := n.toNat_lt
  have hbn : b.toNat &&& n.toNat < 2 ^ 8 := Nat.and_lt_two_pow _ hn
  have hword (hi lo : ℕ) : hi * 256 + lo = 2 ^ 8 * hi + lo := by omega
  apply UInt16.toNat_inj.mp
  simp only [UInt16.toNat_and, be16_toNat, UInt8.toNat_and, hword]
  refine Nat.eq_of_testBit_eq fun i => ?_
  rw [Nat.testBit_and, Nat.testBit_two_pow_mul_add _ hb, Nat.testBit_two_pow_mul_add _ hn,
    Nat.testBit_two_pow_mul_add _ hbn]
  split <;> rw [Nat.testBit_and]

theorem isPublicV4_eq (address : Vector UInt8 4) :
    isPublicV4 address = isPublicDestinationV4 address := by
  -- multicast and reserved addresses are two tests in the policy, one here
  have hhigh (a : UInt8) : a < 224 ↔ (a < 224 ∨ 239 < a) ∧ a < 240 := by
    simp only [UInt8.lt_iff_toNat_lt, UInt8.reduceToNat]
    omega
  simp only [isPublicV4, isPublicDestinationV4, IpAddr.isMulticast, IpAddr.isBroadcast,
    byteAt_toList, Nat.reduceLT]
  generalize address.toList.all _ = broadcast
  rw [Bool.eq_iff_iff]
  simp only [ge_iff_le, Bool.not_or, Bool.not_and, Bool.and_eq_true, Bool.not_eq_eq_eq_not,
    Bool.not_true, decide_eq_false_iff_not, UInt8.not_le, Bool.or_eq_true, or_and_left, ne_eq,
    decide_not, decide_eq_true_eq]
  nth_rewrite 1 [hhigh]
  rw [← eq_iff_iff]
  ac_rfl

theorem isPublicV6_eq (address : Vector UInt8 16) :
    isPublicV6 address = isPublicDestinationV6 address := by
  have hfull (b : UInt8) : b &&& 255 = b := UInt8.and_neg_one
  have hlist : address.toList = List.ofFn fun i : Fin 16 => address[i] := by
    refine List.ext_getElem (by simp) fun i _ _ => ?_
    rw [List.getElem_ofFn, Vector.getElem_toList]
    rfl
  simp only [isPublicV6, isPublicDestinationV6, IpAddr.isMulticast, IpAddr.isUnspecified,
    IpAddr.octets, byteAt_toList, Nat.reduceLT]
  rw [Bool.eq_iff_iff, hlist]
  simp [hfull, be16_and, be16_eq_iff, be16Bytes, or_assoc]

theorem isPublic_eq (address : IpAddr) : isPublic address = isPublicDestination address := by
  cases address with
  | v4 octets => exact isPublicV4_eq octets
  | v6 octets => exact isPublicV6_eq octets

/-! ## The entries of a configuration -/

theorem maskAddress_full {n : ℕ} (address : Vector UInt8 n) :
    maskAddress (8 * n) address = address := by
  ext i hi
  have hbits : 8 ≤ 8 * n - 8 * i := by omega
  simp [maskAddress, keepBits, hbits]

theorem above_eq_iff {n len bits : ℕ} {address masked : Vector UInt8 n} :
    LpmKey.above address len = ⟨bits, masked⟩ ↔ len = bits ∧ maskAddress bits address = masked := by
  rw [LpmKey.above, LpmKey.mk.injEq]
  exact and_congr_right fun h => by rw [h]

def IpNet.prefixLen : IpNet → ℕ
  | .v4 network => network.prefixLen
  | .v6 network => network.prefixLen

theorem IpNet.prefixLen_le {network : IpNet} {address : IpAddr}
    (h : network.contains address = true) : network.prefixLen ≤ address.bits := by
  cases network <;> cases address <;> first | exact Cidr.valid _ | cases h

/-- Entries that all carry one value are found exactly if there is one. -/
theorem longest_ite {V : Type} {bits : ℕ} {v : V} {has : ℕ → Prop} [DecidablePred has] :
    longest (fun len => if has len then some v else none) bits =
      if ∃ len ≤ bits, has len then some v else none := by
  split_ifs with h
  · obtain ⟨len, hlen, hhas⟩ := h
    rcases hfound : longest (fun len => if has len then some v else none) bits with _ | w
    · simpa [hhas] using longest_eq_none.mp hfound len hlen
    · obtain ⟨_, -, hw, -⟩ := longest_eq_some.mp hfound
      simpa [eq_comm] using (Option.ite_none_right_eq_some.mp hw).2
  · exact longest_eq_none.mpr fun len hlen => if_neg fun hhas => h ⟨len, hlen, hhas⟩

/-- An entry of full length hides the others. -/
theorem longest_host {V : Type} {get : ℕ → Option V} {bits : ℕ} {v : V} {c : Prop} [Decidable c] :
    longest (fun len => (if c ∧ len = bits then some v else none).or (get len)) bits =
      if c then some v else longest get bits := by
  by_cases hc : c
  · rw [if_pos hc]
    exact longest_eq_some.mpr ⟨bits, le_rfl, by simp [hc], fun longer hle hlt => by omega⟩
  · simp [hc]

namespace MapWrite

variable {address : IpAddr} {len : ℕ}

theorem lastRouteAt_append (first second : List MapWrite) :
    lastRouteAt (first ++ second) address len =
      (lastRouteAt second address len).or (lastRouteAt first address len) := by
  induction second using List.reverseRecOn with
  | nil => simp [lastRouteAt]
  | append_singleton second write ih =>
    rw [← List.append_assoc]
    simp only [lastRouteAt, List.foldl_append, List.foldl_cons, List.foldl_nil] at ih ⊢
    rw [ih, Option.or_assoc]

/-- A family of writes that carry one action. -/
theorem lastRouteAt_map {α : Type} {action : UInt8} {route : α → MapWrite} {covers : α → Prop}
    [DecidablePred covers]
    (h : ∀ a, (route a).routeAt address len = if covers a then some action else none)
    (keys : List α) :
    lastRouteAt (keys.map route) address len =
      if ∃ a ∈ keys, covers a then some action else none := by
  induction keys using List.reverseRecOn with
  | nil => simp [lastRouteAt]
  | append_singleton keys key ih =>
    rw [List.map_append, lastRouteAt_append, ih]
    simp only [lastRouteAt, List.map_cons, List.map_nil, List.foldl_cons, List.foldl_nil, h]
    by_cases hkey : covers key <;> simp [hkey, or_and_right, exists_or]

theorem routeAt_hostRoute (action : UInt8) (host : IpAddr) :
    (hostRoute action host).routeAt address len =
      if address = host ∧ len = address.bits then some action else none := by
  cases host <;> cases address <;> rename_i octets <;>
    simp [hostRoute, routeAt, above_eq_iff, maskAddress_full octets, IpAddr.bits, and_comm]

theorem routeAt_prefixRoute (action : UInt8) (network : IpNet) :
    (prefixRoute action network).routeAt address len =
      if network.contains address ∧ len = network.prefixLen then some action else none := by
  cases network <;> cases address <;>
    simp [prefixRoute, routeAt, above_eq_iff, IpNet.contains, Cidr.contains, IpNet.prefixLen,
      and_comm]

/-- Only the routes write to the tries. -/
theorem configuration_lastRouteAt {roles : IoClassifiers} (h : roles.intercept = true)
    (ifindex : UInt32) (tunnelLocalIps : List IpAddr) (port : UInt16) (config : ApplianceConfig)
    (dnsInterceptIfindex : Option UInt32) :
    lastRouteAt (configuration ifindex tunnelLocalIps roles port config dnsInterceptIfindex)
      address len = lastRouteAt (routes config tunnelLocalIps) address len := by
  have htunnel : lastRouteAt (tunnelAddresses tunnelLocalIps) address len = none := by
    rw [tunnelAddresses]
    cases tunnelLocalIps.findSome? IpAddr.v4? <;> cases tunnelLocalIps.findSome? IpAddr.v6? <;>
      cases address <;> rfl
  have hdns (listen : Option IpAddr) : lastRouteAt (dnsAddresses listen) address len = none := by
    rw [dnsAddresses]
    cases listen.bind IpAddr.v4? <;> cases listen.bind IpAddr.v6? <;> cases address <;> rfl
  have hresolver (resolver : Option SocketAddr) :
      lastRouteAt (dnsLocalResolver config.nat resolver) address len = none := by
    rw [dnsLocalResolver]
    split <;> split <;> cases address <;> rfl
  have hcons (mode : UInt8) (writes : List MapWrite) :
      lastRouteAt (.interceptPolicyMode mode :: writes) address len =
        lastRouteAt writes address len := by
    cases address <;> rfl
  have hfirst (writes : List MapWrite) :
      lastRouteAt (.tunnelPort port :: .roleFlags 0 :: writes) address len =
        lastRouteAt writes address len := by
    cases address <;> rfl
  simp only [configuration, hfirst, addressing, h, if_true, lastRouteAt_append, htunnel, hdns,
    hresolver, hcons, Option.or_none]

/-- The value the XDP program finds for a destination. -/
theorem routes_longest (config : ApplianceConfig) (tunnelLocalIps : List IpAddr)
    (destination : IpAddr) :
    longest (lastRouteAt (routes config tunnelLocalIps) destination) destination.bits =
      if destination ∈ natReturnIps config then some policyActionRedirect
      else if destination ∈ xdpForcedLocalIps config tunnelLocalIps then some policyActionPass
      else if (policy config).2.1.any (·.contains destination) then some (policy config).2.2
      else none := by
  have hroutes : lastRouteAt (routes config tunnelLocalIps) destination = fun len =>
      (if destination ∈ natReturnIps config ∧ len = destination.bits then
        some policyActionRedirect else none).or
      ((if destination ∈ xdpForcedLocalIps config tunnelLocalIps ∧ len = destination.bits then
        some policyActionPass else none).or
      (if ∃ network ∈ (policy config).2.1, network.contains destination ∧ len = network.prefixLen
        then some (policy config).2.2 else none)) := by
    funext len
    simp only [routes, lastRouteAt_append, lastRouteAt_map fun _ => routeAt_hostRoute _ _,
      lastRouteAt_map fun _ => routeAt_prefixRoute _ _]
    simp
  rw [hroutes, longest_host, longest_host, longest_ite]
  refine if_congr .rfl rfl (if_congr .rfl rfl (if_congr ⟨?_, ?_⟩ rfl rfl))
  · rintro ⟨-, -, network, hmem, hcontains, -⟩
    exact List.any_eq_true.mpr ⟨network, hmem, hcontains⟩
  · intro hany
    obtain ⟨network, hmem, hcontains⟩ := List.any_eq_true.mp hany
    exact ⟨_, IpNet.prefixLen_le hcontains, network, hmem, hcontains, rfl⟩

end MapWrite

/-! ## Agreement -/

/-- Where no host route stands, the tries decide as the workers' policy. -/
theorem interceptAction_policy (config : ApplianceConfig) {packet : Bytes} {destination : IpAddr}
    (h : destinationIp packet = some destination) :
    interceptAction
        (if (MapWrite.policy config).2.1.any (·.contains destination) then
          some (MapWrite.policy config).2.2 else none)
        (MapWrite.policy config).1 (isPublic destination) false =
      if interceptAllowed (ioInterceptPolicy config) packet then .redirect else .pass := by
  have hmodes : policyTunnelPrefixes ≠ policyDirectPrefixes := by decide
  have hactions : policyActionPass ≠ policyActionRedirect := by decide
  rw [isPublic_eq, MapWrite.policy, ioInterceptPolicy]
  cases config.role with
  | client =>
    cases config.ipPolicy with
    | tunnelPrefixes prefixes =>
      by_cases hany : prefixes.any (·.contains destination) = true <;>
        simp [interceptAllowed, interceptPolicyFromConfig, h, hany, interceptAction, hmodes]
    | directPrefixes prefixes =>
      by_cases hany : prefixes.any (·.contains destination) = true <;>
        simp [interceptAllowed, interceptPolicyFromConfig, h, hany, interceptAction, hactions]
  | server =>
    by_cases hany : (natHostPrefixes config).any (·.contains destination) = true <;>
      simp [interceptAllowed, h, hany, interceptAction, hmodes]

namespace PreparedRuntime

/-- On an interface in service, SNAT addresses come before the addresses of the appliance, and
these before the policy; the rest goes to the IO workers exactly if they take it. -/
theorem tries_decide_as_policy {host : Host} {config : ApplianceConfig}
    {runtime served : PreparedRuntime} (hbuild : build host config = .ok runtime)
    {refuse rollback : UInt32 → Option String}
    (hserved : (enable refuse rollback).run runtime = (.ok (), served)) {link : BpfLink}
    (hlink : link ∈ runtime.bpfLinks) (hintercept : link.roles.intercept = true) {packet : Bytes}
    {destination : IpAddr} (hdestination : destinationIp packet = some destination) :
    interceptActionTo (served.pinned link.ifindex) destination =
      if destination ∈ natReturnIps config then .redirect
      else if destination ∈ xdpForcedLocalIps config runtime.tunnelLocalIps then .pass
      else if interceptAllowed (ioInterceptPolicy config) packet then .redirect
      else .pass := by
  obtain ⟨port, hready⟩ := build_ok hbuild
  have hwrote := (under_served hready hserved).wrote link hlink hintercept
  have hget : (served.pinned link.ifindex).allowedAt destination =
      MapWrite.lastRouteAt (MapWrite.routes config runtime.tunnelLocalIps) destination := by
    funext len
    rw [hwrote.entry, lastEntryAt_append, lastEntryAt, List.foldl_nil, Option.or_none, freshUnder,
      freshMaps, MapWrite.applyAll_allowedAt, BpfMaps.loaded_allowedAt, Option.or_none,
      MapWrite.configuration_lastRouteAt hintercept]
    rfl
  have hmode : (served.pinned link.ifindex).interceptPolicyMode = (MapWrite.policy config).1 := by
    rw [hwrote.mode, freshUnder, freshMaps, MapWrite.configuration_policyMode hintercept]
    rfl
  rw [interceptActionTo_eq, hget, hmode, MapWrite.routes_longest]
  by_cases hnat : destination ∈ natReturnIps config
  · simp only [if_pos hnat]
    rfl
  by_cases hforced : destination ∈ xdpForcedLocalIps config runtime.tunnelLocalIps
  · simp only [if_neg hnat, if_pos hforced]
    rfl
  · simp only [if_neg hnat, if_neg hforced]
    exact interceptAction_policy config hdestination

theorem tries_decide_as_policy_sample :
    interceptActionTo (Sample.served.pinned 2) (.v4 #v[10, 1, 2, 3]) = .redirect := by
  have hlink : (⟨2, ⟨true, true⟩⟩ : BpfLink) ∈ Sample.prepared.bpfLinks := by decide +kernel
  have hdestination : destinationIp sampleHeader = some (.v4 #v[10, 1, 2, 3]) := by decide +kernel
  refine (tries_decide_as_policy Sample.build_prepared Sample.enable_served hlink rfl
    hdestination).trans ?_
  decide +kernel

end PreparedRuntime
end NewProxy
