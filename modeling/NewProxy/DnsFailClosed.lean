import NewProxy.DnsNames
import NewProxy.LeaseBook
import NewProxy.NatQuarantine
import NewProxy.RoundTrip

/-!
# Queries for remote domains

The route of a query is decided on the payload the clamp leaves. A query for a remote
domain stays with the remote resolver, and keeps the key its retransmissions are
found by, exactly if none of its names reads the CLASS of an oversized OPT record.
-/
namespace NewProxy.FlowWorkerState

open Outcome Packet Dns

/-- A query for a domain of `rules`, as it is received. -/
structure RemoteQuery (listen client : SocketAddr) (rules : RemoteDomainRules)
    (packet payload : Bytes) (question : DnsQuestion) : Prop where
  checksums : validatePacketChecksums packet = .ok ()
  whole : ipPacketIsFragmented packet = .ok false
  flow : parseFlowKey packet = .ok ⟨client.ip, listen.ip, client.port, listen.port, .udp⟩
  carried : udpPayload packet = .ok payload
  size : payload.length ≤ dnsPayloadMax
  valid : validateQuery payload = .ok question
  remote : rules.matchesQname question.qname = true

/-- No transaction is active for the query. -/
def NotActive (ioOwner : IoOwnerKey) (client : SocketAddr) (payload : Bytes)
    (state : FlowWorkerState) : Prop :=
  ∀ dns, transactionKey (ε := FlowWorkerError) client payload = .ok dns →
    state.dnsByKey.get ⟨ioOwner, dns⟩ = none

/-- Neither a transaction nor a lease was made. -/
structure Untouched (start state : FlowWorkerState) : Prop where
  dnsByKey : state.dnsByKey = start.dnsByKey
  dnsByReverse : state.dnsByReverse = start.dnsByReverse
  dnsDeadlines : state.dnsDeadlines = start.dnsDeadlines
  leases : state.sessions.nat.forward = start.sessions.nat.forward

/-- The query is not sent to the local resolver, whatever becomes of it, and has one
key before and after the clamp. -/
structure FailsClosed (ioOwner : IoOwnerKey) (client : SocketAddr) (packet payload : Bytes)
    (config : DnsFlowConfig) (now natNow : Instant) (state : FlowWorkerState) : Prop where
  route : Act.Ends (fun result _ => ∀ transmit binding id, result ≠ .local transmit binding id)
    (Untouched state) ((handleDnsQueryAt ioOwner packet config now natNow).run state)
  key : ∀ clamped q payload', ednsClampPacket packet = .ok (clamped, q) →
    udpPayload q = .ok payload' → transactionKey (ε := FlowWorkerError) client payload' =
      transactionKey client payload

section Clamped

variable {listen client : SocketAddr} {rules : RemoteDomainRules} {packet payload : Bytes}
  {question : DnsQuestion}

theorem transactionKey_valid (client : SocketAddr) (h : validateQuery payload = .ok question) :
    transactionKey (ε := FlowWorkerError) client payload =
      .ok (.question client (payload.wordAt 0) question.qname question.qtype question.qclass) := by
  have hlen := length_of_validateMessage h
  rw [transactionKey, h]
  simp only [attempt, bind_ok]
  rw [dnsId, Bytes.getRange_some (Nat.zero_le 2) (by omega)]
  simp only [Option.map_some, expect, bind_ok]
  rw [Bytes.wordAt_slice (by omega)]
  rfl

theorem transactionKey_invalid (client : SocketAddr) {e : DnsError}
    (h : validateQuery payload = fail e) : transactionKey (ε := FlowWorkerError) client payload =
      .ok (.opaqueQuery client (dnsId payload) (fnv1a payload)) := by
  rw [transactionKey, h]
  rfl

/-- A valid query whose names keep off the classes is clamped to one with the same
question and the same key. -/
theorem clamped_valid {lowered : Bool} {payload' : Bytes} (hsize : payload.length ≤ dnsPayloadMax)
    (hvalid : validateQuery payload = .ok question) (havoid : NamesAvoidClasses payload)
    (hclamp : clampEdnsUdpPayload.run payload = (.ok lowered, payload')) :
    validateQuery payload' = .ok question ∧ payload'.wordAt 0 = payload.wordAt 0 := by
  have hl := (clampEdnsUdpPayload_clamped hclamp).1.lowered
  have hv := (validateMessage_iff hsize).mp hvalid
  refine ⟨(validateMessage_iff (by rw [hl.same.length]; exact hsize)).mpr
    (hv.agree hl.agree havoid), ?_⟩
  obtain ⟨a, ha, -⟩ := hv.records
  have hlt := (skipNameFrom_ends ha).choose_spec.lt
  exact Bytes.wordAt_congr (SameExcept.front hl.agree (hv.recordAt ha) (by omega))
    (SameExcept.front hl.agree (hv.recordAt ha) (by omega))

/-- Otherwise the clamp fails or leaves an invalid query. -/
theorem clamped_invalid {lowered : Bool} {payload' : Bytes} (hsize : payload.length ≤ dnsPayloadMax)
    (hvalid : validateQuery payload = .ok question) (havoid : ¬ NamesAvoidClasses payload)
    (hclamp : clampEdnsUdpPayload.run payload = (.ok lowered, payload')) :
    ∃ e, validateQuery payload' = fail e := by
  obtain ⟨⟨hl, -, -⟩, hend, -⟩ := clampEdnsUdpPayload_clamped hclamp
  have hsize' : payload'.length ≤ dnsPayloadMax := by rw [hl.same.length]; exact hsize
  rcases hv : validateQuery payload' with (e | _) | question'
  · exact ⟨e, rfl⟩
  · exact absurd hv (validateMessage_ne_panic payload' false)
  · exact absurd (((validateMessage_iff hsize).mp hvalid).avoids hsize hl hend
      ((validateMessage_iff hsize').mp hv)) havoid

end Clamped

section Opening

variable {packet : Bytes} {query : DnsQuery} {dns : DnsTransactionKey} {remote : Bool}
  {state : FlowWorkerState} {natNow : Instant}

/-- A query without an active transaction comes to opening one. -/
theorem routeDnsQuery_opens (hdns : transactionKey (ε := FlowWorkerError) query.client
      query.payload = .ok dns) (hfree : state.dnsByKey.get ⟨query.ioOwner, dns⟩ = none)
    (hremote : remote = true ↔ query.GoesRemote) :
    ∃ stats, (routeDnsQuery query.ioOwner query.packet query.payload (query.clamped = none)
        query.flow query.config query.now natNow).run state =
      (openDnsTransaction query.ioOwner query.packet query.flow ⟨query.ioOwner, dns⟩
        (query.request remote).resolver remote query.config query.now natNow).run
          { state with stats } := by
  rw [DnsQuery.client] at hdns
  rw [routeDnsQuery, Act.call_bind_run hdns, Act.bind_of_ok (Act.run_get state)]
  simp only [hfree]
  obtain ⟨route, hroute⟩ := classifyQuery_ok (ε := FlowWorkerError) query.payload
    query.config.remoteDomains
  by_cases hmal : query.clamped = none
  · have hlocal : remote = false := by
      rw [← Bool.not_eq_true, hremote, DnsQuery.GoesRemote]
      exact fun hc => hc.1 hmal
    subst hlocal
    simp only [hmal, decide_true, if_true]
    exact ⟨_, rfl⟩
  · simp only [hmal, decide_false, Bool.false_eq_true, if_false]
    rw [Act.call_bind_run hroute]
    have hgoes : query.GoesRemote ↔ ∃ question, route = .remote question := by
      simp [DnsQuery.GoesRemote, hmal, hroute]
    rw [hgoes] at hremote
    cases route with
    | remote question =>
      obtain rfl : remote = true := by simp [hremote]
      exact ⟨state.stats, rfl⟩
    | «local» question =>
      obtain rfl : remote = false := by simp [← Bool.not_eq_true, hremote]
      exact ⟨state.stats, rfl⟩
    | localFallback =>
      obtain rfl : remote = false := by simp [← Bool.not_eq_true, hremote]
      exact ⟨_, rfl⟩

theorem handleDnsQueryAt_opens (ha : Admitted packet query)
    (hsize : query.layout.total - (query.layout.offset + 8) ≤ dnsPayloadMax)
    (hdns : transactionKey (ε := FlowWorkerError) query.client query.payload = .ok dns)
    (hfree : state.dnsByKey.get ⟨query.ioOwner, dns⟩ = none)
    (hremote : remote = true ↔ query.GoesRemote) (natNow : Instant) :
    ∃ stats, (handleDnsQueryAt query.ioOwner packet query.config query.now natNow).run state =
      (openDnsTransaction query.ioOwner query.packet query.flow ⟨query.ioOwner, dns⟩
        (query.request remote).resolver remote query.config query.now natNow).run
          { state with stats } := by
  obtain ⟨p, hp, hc, hclamp⟩ := ha.prepared
  obtain ⟨question, hquestion⟩ := ha.question
  have hpayload := udpPayload_ok hc ha.udp
  have hclamped : udpPayload query.packet = .ok query.payload := udpPayload_ok ha.carries ha.udp
  rw [handleDnsQueryAt, Act.lift_bind_run hp, Act.lift_bind_run (parseFlowKey_eq_ok.mpr ⟨_, hc⟩),
    if_neg (by simp [ha.udp, ha.destination, ha.destinationPort]),
    Act.lift_bind_run hc.layout.not_fragmented, if_neg (by simp), Act.lift_bind_run hpayload,
    if_neg (by rw [Bytes.length_slice hc.layout.total_le]; omega), admitDnsQuery,
    Act.lift_bind_run hclamp]
  dsimp only
  rw [count, Act.bind_of_ok (Act.run_modify _ _), Act.lift_bind_run hclamped,
    Act.call_bind_run (attempt_eq_ok_ok.mpr hquestion)]
  exact routeDnsQuery_opens hdns hfree hremote

/-- With room and a free port the transaction is filed before its packet is written. -/
theorem openDnsTransaction_run {request : DnsRequest} (key : DnsFlowTransactionKey)
    {binding : NatBinding} {table : SessionTable}
    (havailable : request.remote = true → request.config.remoteAvailable = true)
    (hroom : state.dnsByKey.len < request.config.transactionCapacity)
    (hlease : (SessionTable.allocateEphemeralNat state.workerId
      ⟨((1 : UInt64) <<< 63) ||| state.nextDnsToken⟩ request.original natNow).run state.sessions =
        (.ok binding, table)) :
    ∃ token s, (openDnsTransaction request.ioOwner request.packet request.flow key request.resolver
        request.remote request.config request.now natNow).run state =
        ((rewriteDnsQuery request.packet (request.transaction token binding)).mapErr .packet, s) ∧
      s.dnsByKey.get key = some (request.transaction token binding) := by
  refine ⟨⟨((1 : UInt64) <<< 63) ||| state.nextDnsToken⟩, ?_⟩
  let issued : FlowWorkerState := { state with nextDnsToken := nextCounter state.nextDnsToken }
  rw [DnsRequest.original] at hlease
  rw [openDnsTransaction, Act.bind_of_ok (Act.run_get state),
    if_neg (by rintro ⟨hr, ha⟩; rw [havailable hr] at ha; cases ha), if_neg (by omega),
    Act.bind_of_ok (show nextDnsSessionToken.run state = (.ok _, issued) from rfl),
    Act.bind_of_ok (attempt_onSessions_ok (s := issued) hlease)]
  dsimp only
  rw [Act.bind_of_ok (Act.run_modify _ _), countActive, Act.bind_of_ok (Act.run_modify _ _), count,
    Act.bind_of_ok (Act.run_modify _ _), Act.run_lift]
  refine ⟨_, rfl, ?_⟩
  change (fileTransaction key (request.transaction _ binding)
    { issued with sessions := table }).dnsByKey.get key = _
  obtain ⟨completed, order, heq⟩ := fileTransaction_eq key
    (request.transaction ⟨((1 : UInt64) <<< 63) ||| state.nextDnsToken⟩ binding)
    { issued with sessions := table }
  rw [heq]
  exact (HashMap.get_insert _ _ _ _).trans (if_pos rfl)

end Opening

section Fresh

/-- A new table with addresses of both families has a port for any flow. -/
theorem allocateAt_fresh {snatIpv4 : Vector UInt8 4} {snatIpv6 : Vector UInt8 16}
    {first last : UInt16} {table : NatTable}
    (hnew : NatTable.newDual (some snatIpv4) (some snatIpv6) first last = .ok table)
    (id : SessionId) (original : FlowKey) (locator : SessionLocator) (now : Instant) :
    ∃ snat port table', snat.isV4 = original.source.isV4 ∧
      (NatTable.allocateAt id original locator now).run table =
        (.ok ⟨original, NatTable.translate original snat port⟩, table') := by
  have havailable := (NatTable.represents_newDual hnew).available first
  obtain ⟨_, hle, hnew⟩ := bind_eq_ok.mp hnew
  cases hnew
  obtain ⟨snat, hfam, hsnat⟩ : ∃ snat, snat.isV4 = original.source.isV4 ∧ NatTable.snatIp
      ⟨some snatIpv4, some snatIpv6, OrdMap.collect (NatTable.portRange first last), .empty, .empty,
        .empty⟩ original.source = some snat := by
    cases original.source
    · exact ⟨.v4 snatIpv4, rfl, rfl⟩
    · exact ⟨.v6 snatIpv6, rfl, rfl⟩
  have hid : (HashMap.empty : HashMap SessionId NatBinding).get id = none := rfl
  rcases NatTable.allocateAt_run hid hsnat locator now with
    ⟨hnone, -⟩ | ⟨port, -, hrun⟩
  · refine absurd ⟨?_, rfl, rfl⟩ (NatTable.findPort_none.mp hnone first)
    exact havailable.mpr ⟨⟨UInt16.le_refl _, ensure_eq_ok.mp hle⟩, by simp⟩
  · exact ⟨snat, port, _, hfam, hrun⟩

theorem allocateEphemeralNat_run {table : SessionTable} {token : SessionId} {original : FlowKey}
    {natNow : Instant} {binding : NatBinding} {nat : NatTable}
    (hrun : (NatTable.allocateAt token original ⟨table.ownerWorkerId, token⟩ natNow).run table.nat =
      (.ok binding, nat)) :
    (SessionTable.allocateEphemeralNat table.ownerWorkerId token original natNow).run table =
      (.ok binding, { table with nat }) := by
  rw [SessionTable.allocateEphemeralNat, Act.bind_of_ok (SessionTable.ensureOwner_ok table),
    Act.bind_of_ok (Act.run_get table)]
  simp only [SessionTable.onNat, Act.zoom, hrun, mapErr]

/-- A new worker has a lease for any query. -/
theorem fresh_worker : ∃ start : FlowWorkerState, start.Reachable ∧ start.dnsByKey = .empty ∧
    ∀ token original natNow, ∃ snat port table, snat.isV4 = original.source.isV4 ∧
      (SessionTable.allocateEphemeralNat start.workerId token original natNow).run start.sessions =
        (.ok ⟨original, NatTable.translate original snat port⟩, table) := by
  obtain ⟨start, hstart⟩ : ∃ start, newDual 0 (some #v[192, 0, 2, 1])
    (some #v[0x20, 1, 0xd, 0xb8, 0, 0, 0, 0, 0, 0, 0, 0, 0, 0, 0, 1]) 1024 1024 = .ok start :=
      ⟨_, rfl⟩
  refine ⟨start, ⟨0, _, _, _, _, start, [], hstart, rfl⟩, ?_⟩
  obtain ⟨sessions, hsessions, hstart⟩ := bind_eq_ok.mp hstart
  cases hstart
  obtain ⟨nat, hnat, hsessions⟩ := bind_eq_ok.mp hsessions
  cases hsessions
  refine ⟨rfl, fun token original natNow => ?_⟩
  obtain ⟨snat, port, table, hfam, hrun⟩ := allocateAt_fresh (mapErr_eq_ok.mp hnat) token original
    ⟨0, token⟩ natNow
  exact ⟨snat, port, _, hfam,
    @allocateEphemeralNat_run ⟨0, 1, .empty, .empty, .empty, nat⟩ _ _ _ _ _ hrun⟩

end Fresh

section Routes

variable {listen client : SocketAddr} {rules : RemoteDomainRules} {packet payload : Bytes}
  {question : DnsQuestion}

theorem parseQuestion_valid (h : validateQuery payload = .ok question) :
    parseQuestion payload = .ok question := by
  obtain ⟨header, hheader, h⟩ := bind_eq_ok.mp h
  obtain ⟨_, hdir, h⟩ := bind_eq_ok.mp h
  obtain ⟨_, hop, h⟩ := bind_eq_ok.mp h
  obtain ⟨question', hfields, h⟩ := bind_eq_ok.mp h
  obtain ⟨_, -, h⟩ := bind_eq_ok.mp h
  obtain ⟨_, -, h⟩ := bind_eq_ok.mp h
  obtain ⟨_, -, h⟩ := bind_eq_ok.mp h
  cases h
  have hquery : header.wordAt 2 &&& 0x8000 = 0 := by
    simpa using ensure_eq_ok.mp hdir
  rw [parseQuestion, hheader, bind_ok]
  dsimp only
  rw [(ensure_eq_ok (u := ())).mpr hquery, bind_ok, hop, bind_ok, hfields]

/-- The packet of a query and the place of its payload. -/
theorem RemoteQuery.layout (h : RemoteQuery listen client rules packet payload question) :
    ∃ l, Carries packet l ⟨client.ip, listen.ip, client.port, listen.port, .udp⟩ ∧
      packet.slice (l.offset + 8) l.total = payload ∧ hopsLeft packet = l.hopLimit packet := by
  obtain ⟨l, hc⟩ := parseFlowKey_eq_ok.mp h.flow
  refine ⟨l, hc, ?_, hc.layout.hopsLeft⟩
  exact Except.ok.inj ((udpPayload_ok hc rfl).symm.trans h.carried)

/-- The key survives the clamp exactly if no name reads an oversized class, or nothing
is clamped because the clamp gives up. -/
theorem RemoteQuery.key_iff (h : RemoteQuery listen client rules packet payload question) :
    (∀ clamped q payload', ednsClampPacket packet = .ok (clamped, q) →
      udpPayload q = .ok payload' → transactionKey (ε := FlowWorkerError) client payload' =
        transactionKey client payload) ↔
    NamesAvoidClasses payload ∨ ∃ e s, clampEdnsUdpPayload.run payload = (fail e, s) := by
  obtain ⟨l, hc, hpayload, -⟩ := h.layout
  rcases ednsClampPacket_cases hc rfl with ⟨hfail, hrun⟩ | ⟨lowered, payload', q, hclamp, hrun, hcq,
    hq, -, -⟩
  · rw [hpayload] at hfail
    refine iff_of_true (fun clamped q payload' hrun' hpayload' => ?_) (.inr hfail)
    cases hrun.symm.trans hrun'
    cases h.carried.symm.trans hpayload'
    rfl
  · rw [hpayload] at hclamp
    have hnot : ¬ ∃ e s, clampEdnsUdpPayload.run payload = (fail e, s) := by
      rintro ⟨e, s, hfail⟩
      cases hclamp.symm.trans hfail
    have hcarried : udpPayload q = .ok payload' := by rw [udpPayload_ok hcq rfl, hq]
    rw [or_iff_left hnot, transactionKey_valid client h.valid]
    constructor
    · intro hkey
      by_contra havoid
      obtain ⟨e, he⟩ := clamped_invalid h.size h.valid havoid hclamp
      have := hkey _ _ _ hrun hcarried
      rw [transactionKey_invalid client he] at this
      cases this
    · intro havoid clamped q' payload'' hrun' hpayload''
      cases hrun.symm.trans hrun'
      cases hcarried.symm.trans hpayload''
      obtain ⟨hvalid, hid⟩ := clamped_valid h.size h.valid havoid hclamp
      rw [transactionKey_valid client hvalid, hid]

/-- A packet at the end of its hops is refused before anything is looked at. -/
theorem RemoteQuery.expired (h : RemoteQuery listen client rules packet payload question)
    (hhop : ¬ 1 < hopsLeft packet) (ioOwner : IoOwnerKey) (config : DnsFlowConfig)
    (now natNow : Instant) (state : FlowWorkerState) :
    Act.Ends (fun result _ => ∀ transmit binding id, result ≠ .local transmit binding id)
      (Untouched state) ((handleDnsQueryAt ioOwner packet config now natNow).run state) := by
  obtain ⟨l, hc, -, hops⟩ := h.layout
  rcases hprep : prepareForwardedPacket packet with (e | _) | p
  · rw [handleDnsQueryAt, hprep]
    exact ⟨rfl, rfl, rfl, rfl⟩
  · exact absurd hprep (prepareForwardedPacket_ne_panic packet)
  · exact absurd (hops ▸ ((prepareForwardedPacket_eq_ok hc.layout).mp hprep).2.1) hhop

/-- The query as the worker takes it up, with `clamped` and `q` what the clamp gave. -/
theorem RemoteQuery.admitted (h : RemoteQuery listen client rules packet payload question)
    {l : Layout} (hc : Carries packet l ⟨client.ip, listen.ip, client.port, listen.port, .udp⟩)
    (hhop : 1 < l.hopLimit packet) {clamped : Option Bool} {q : Bytes}
    (hclamp : ednsClampPacket (forwarded packet l) = .ok (clamped, q))
    (hcq : Carries q l ⟨client.ip, listen.ip, client.port, listen.port, .udp⟩)
    {question' : DnsQuestion}
    (hquestion : parseQuestion (q.slice (l.offset + 8) l.total) = .ok question')
    (ioOwner : IoOwnerKey) (config : DnsFlowConfig) (hlisten : config.listen = listen)
    (now : Instant) :
    Admitted packet ⟨ioOwner, q, l, ⟨client.ip, listen.ip, client.port, listen.port, .udp⟩, clamped,
      config, now⟩ := by
  refine ⟨⟨forwarded packet l, ?_, hc.keep_forwarding hc.layout.forwarded, hclamp⟩, hcq, rfl,
    congrArg SocketAddr.ip hlisten.symm, congrArg SocketAddr.port hlisten.symm, question',
    hquestion⟩
  exact (prepareForwardedPacket_eq_ok hc.layout).mpr ⟨h.checksums, hhop, rfl⟩

theorem RemoteQuery.layout_size (h : RemoteQuery listen client rules packet payload question)
    {l : Layout} (hc : Carries packet l ⟨client.ip, listen.ip, client.port, listen.port, .udp⟩)
    (hpayload : packet.slice (l.offset + 8) l.total = payload) :
    l.total - (l.offset + 8) ≤ dnsPayloadMax := by
  rw [← Bytes.length_slice hc.layout.total_le, hpayload]
  exact h.size

theorem classifyQuery_remote (hvalid : validateQuery payload = .ok question)
    (hremote : rules.matchesQname question.qname = true) :
    classifyQuery (ε := FlowWorkerError) payload rules = .ok (.remote question) := by
  rw [classifyQuery, hvalid]
  simp only [attempt, bind_ok, hremote, if_true]
  rfl

/-- What the clamp makes of a query whose names keep off the classes. -/
theorem RemoteQuery.clamped (h : RemoteQuery listen client rules packet payload question)
    (havoid : NamesAvoidClasses payload) {l : Layout}
    (hc : Carries packet l ⟨client.ip, listen.ip, client.port, listen.port, .udp⟩)
    (hpayload : packet.slice (l.offset + 8) l.total = payload) :
    ∃ lowered q, ednsClampPacket (forwarded packet l) = .ok (some lowered, q) ∧
      Carries q l ⟨client.ip, listen.ip, client.port, listen.port, .udp⟩ ∧
      validateQuery (q.slice (l.offset + 8) l.total) = .ok question ∧
      (q.slice (l.offset + 8) l.total).wordAt 0 = payload.wordAt 0 := by
  have hcp := hc.keep_forwarding hc.layout.forwarded
  obtain ⟨b, payload', hrun⟩ := ((validateMessage_iff h.size).mp h.valid).clamp_ok havoid.not_reads
  rcases ednsClampPacket_cases hcp rfl with
    ⟨⟨e, s, hfail⟩, -⟩ | ⟨lowered, payload'', q, hclamp, hedns, hcq, hq, -⟩
  · rw [slice_forwarded hc.layout, hpayload, hrun] at hfail
    cases hfail
  · rw [slice_forwarded hc.layout, hpayload] at hclamp
    rw [← hq] at hclamp
    exact ⟨lowered, q, hedns, hcq, clamped_valid h.size h.valid havoid hclamp⟩

/-- Where no name reads an oversized class and the remote resolver is of the listener's
family, the query is served by the remote resolver or not at all. -/
theorem RemoteQuery.stays_remote (h : RemoteQuery listen client rules packet payload question)
    (havoid : NamesAvoidClasses payload) {config : DnsFlowConfig} (hlisten : config.listen = listen)
    (hrules : config.remoteDomains = rules)
    (hfam : config.remoteResolver.ip.isV4 = listen.ip.isV4) {ioOwner : IoOwnerKey}
    {now natNow : Instant} {state : FlowWorkerState} (hreach : state.Reachable)
    (hactive : NotActive ioOwner client payload state) (hhop : 1 < hopsLeft packet) :
    Act.Ends (fun result _ => ∀ transmit binding id, result ≠ .local transmit binding id)
      (Untouched state) ((handleDnsQueryAt ioOwner packet config now natNow).run state) := by
  obtain ⟨l, hc, hpayload, hops⟩ := h.layout
  obtain ⟨lowered, q, hclamp, hcq, hvalid, hid⟩ := h.clamped havoid hc hpayload
  have ha := h.admitted hc (hops ▸ hhop) hclamp hcq (parseQuestion_valid hvalid) ioOwner config
    hlisten now
  have hdns := transactionKey_valid client hvalid
  have hfree : state.dnsByKey.get ⟨ioOwner, _⟩ = none :=
    hactive _ (transactionKey_valid client h.valid)
  rw [← hid] at hfree
  have hgoes : DnsQuery.GoesRemote ⟨ioOwner, q, l,
      ⟨client.ip, listen.ip, client.port, listen.port, .udp⟩, some lowered, config, now⟩ :=
    ⟨by simp, question, by rw [hrules]; exact classifyQuery_remote hvalid h.remote⟩
  obtain ⟨stats, hrun⟩ := handleDnsQueryAt_opens ha (h.layout_size hc hpayload) hdns hfree
    (iff_of_true rfl hgoes) natNow
  obtain ⟨first, last, ephemeral, hl, -⟩ := hreach.sound
  have hl' : Leased first last ephemeral { state with stats } :=
    ⟨hl.owner, hl.sessions, hl.ephemeral, hl.tokens, hl.reverse, hl.query⟩
  have hfamiliar : Familiar listen l (DnsQuery.request ⟨ioOwner, q, l,
      ⟨client.ip, listen.ip, client.port, listen.port, .udp⟩, some lowered, config, now⟩ true) :=
    ⟨hcq, rfl, hcq.family.2, hfam.trans hcq.family.2⟩
  have hopen := openDnsTransaction_spec hl' hfree (DnsQuery.request ⟨ioOwner, q, l, _, some lowered,
    config, now⟩ true) hcq rfl natNow
  rw [hrun]
  refine hopen.weaken (fun _ hs => hs) (fun result s hs => ?_) (fun s hs => ?_) _ (Idle.refl _)
  · rcases hs with ⟨-, transmit, rfl, -⟩ | ⟨transaction, hfiled, hr⟩
    · intro _ _ _ hlocal
      cases hlocal
    · obtain ⟨counter, binding, -, rfl⟩ := hfiled.made
      obtain ⟨written, -, hr⟩ := bind_eq_ok.mp hr
      cases hr
      intro _ _ _ hlocal
      cases hlocal
  · rcases hs with hidle | ⟨transaction, hfiled, hr⟩
    · obtain ⟨quarantined, hsessions⟩ := hidle.sessions
      exact ⟨hidle.dnsByKey, hidle.dnsByReverse, hidle.dnsDeadlines, by rw [hsessions]; rfl⟩
    · obtain ⟨r, hwritten⟩ := Filed.written (c := ⟨first, last, listen, 0, none, none⟩) hfiled
        hfamiliar
      exact absurd hwritten (hr r)

/-- A new worker files the transaction of any query there is room for. -/
theorem fresh_opens {query : DnsQuery} {remote : Bool} (ha : Admitted packet query)
    (hsize : query.layout.total - (query.layout.offset + 8) ≤ dnsPayloadMax)
    (hremote : remote = true ↔ query.GoesRemote)
    (havailable : query.config.remoteAvailable = true)
    (hroom : 0 < query.config.transactionCapacity) (natNow : Instant) :
    ∃ start : FlowWorkerState, start.Reachable ∧ start.dnsByKey = .empty ∧
      ∃ token snat port s key, snat.isV4 = query.layout.isV4 ∧
        (handleDnsQueryAt query.ioOwner packet query.config query.now natNow).run start =
          ((rewriteDnsQuery query.packet ((query.request remote).transaction token
            ⟨(query.request remote).original, NatTable.translate (query.request remote).original
              snat port⟩)).mapErr .packet, s) ∧
        s.dnsByKey.get key ≠ none := by
  obtain ⟨start, hreach, hempty, hlease⟩ := fresh_worker
  obtain ⟨dns, hdns⟩ := transactionKey_ok (ε := FlowWorkerError) query.client query.payload
  have hfree : start.dnsByKey.get ⟨query.ioOwner, dns⟩ = none := by
    rw [hempty]
    rfl
  obtain ⟨stats, hrun⟩ := handleDnsQueryAt_opens ha hsize hdns hfree hremote natNow
  obtain ⟨snat, port, table, hfam, halloc⟩ := hlease
    ⟨((1 : UInt64) <<< 63) ||| start.nextDnsToken⟩ (query.request remote).original natNow
  have hroom' : ({ start with stats } : FlowWorkerState).dnsByKey.len <
      (query.request remote).config.transactionCapacity := by
    simp only [hempty]
    exact hroom
  obtain ⟨token, s, hopen, hs⟩ := openDnsTransaction_run ⟨query.ioOwner, dns⟩
    (fun _ => havailable) hroom' halloc
  exact ⟨start, hreach, hempty, token, snat, port, s, _, hfam.trans ha.carries.family.1,
    hrun.trans hopen, by rw [hs]; simp⟩

/-- A configuration with room for one transaction, whose local resolver can be reached. -/
def roomyConfig (listen remoteResolver : SocketAddr) (rules : RemoteDomainRules) : DnsFlowConfig :=
  ⟨listen, listen, remoteResolver, rules, 1, 0, true⟩

theorem rewriteDnsQuery_local {transaction : DnsFlowTransaction} {q : Bytes}
    (hrun : (rewritePacket transaction.binding.translated).run packet = (.ok (), q))
    (hlocal : transaction.remote = false) : rewriteDnsQuery packet transaction =
      .ok (.local ⟨transaction.localTarget, q, none⟩ transaction.binding transaction.token) := by
  rw [rewriteDnsQuery, Act.exec_eq_ok.mpr ⟨(), hrun⟩, bind_ok, if_neg (by simp [hlocal])]
  rfl

/-- Where the clamp gives up the query goes to the local resolver. -/
theorem RemoteQuery.falls_back (h : RemoteQuery listen client rules packet payload question)
    {e : DnsError} {s : Bytes} (hfail : clampEdnsUdpPayload.run payload = (fail e, s))
    (remoteResolver : SocketAddr) (ioOwner : IoOwnerKey) (now natNow : Instant)
    (hhop : 1 < hopsLeft packet) :
    ∃ start : FlowWorkerState, start.Reachable ∧ start.dnsByKey = .empty ∧
      ∃ transmit binding id s, (handleDnsQueryAt ioOwner packet
        (roomyConfig listen remoteResolver rules) now natNow).run start =
          (.ok (.local transmit binding id), s) := by
  obtain ⟨l, hc, hpayload, hops⟩ := h.layout
  have hcp := hc.keep_forwarding hc.layout.forwarded
  have hslice := (slice_forwarded hc.layout).trans hpayload
  have hclamp : ednsClampPacket (forwarded packet l) = .ok (none, forwarded packet l) := by
    rcases ednsClampPacket_cases hcp rfl with ⟨-, hrun⟩ | ⟨_, _, _, hok, -⟩
    · exact hrun
    · rw [hslice, hfail] at hok
      cases hok
  have hquestion := parseQuestion_valid h.valid
  rw [← hslice] at hquestion
  have ha := h.admitted hc (hops ▸ hhop) hclamp hcp hquestion ioOwner
    (roomyConfig listen remoteResolver rules) rfl now
  have hlocal : false = true ↔ DnsQuery.GoesRemote ⟨ioOwner, forwarded packet l, l,
      ⟨client.ip, listen.ip, client.port, listen.port, .udp⟩, none,
      roomyConfig listen remoteResolver rules, now⟩ :=
    iff_of_false Bool.false_ne_true fun hgoes => hgoes.1 rfl
  obtain ⟨start, hreach, hempty, token, snat, port, s', key, hfam, hrun, -⟩ :=
    fresh_opens ha (h.layout_size hc hpayload) hlocal rfl Nat.one_pos natNow
  refine ⟨start, hreach, hempty, ?_⟩
  obtain ⟨written, hwritten, -⟩ := rewritePacket_ok hcp
    (t := ⟨snat, listen.ip, port, listen.port, .udp⟩) rfl hfam hcp.family.2 trivial
  rw [hrun, rewriteDnsQuery_local hwritten rfl]
  exact ⟨_, _, _, _, rfl⟩

/-- A remote resolver of the other family leaves a transaction behind that is never sent. -/
theorem RemoteQuery.leaves_unsent (h : RemoteQuery listen client rules packet payload question)
    (havoid : NamesAvoidClasses payload) {remoteResolver : SocketAddr}
    (hfam : remoteResolver.ip.isV4 ≠ listen.ip.isV4) (ioOwner : IoOwnerKey) (now natNow : Instant)
    (hhop : 1 < hopsLeft packet) :
    ∃ start : FlowWorkerState, start.Reachable ∧ start.dnsByKey = .empty ∧
      ∃ o s key, (handleDnsQueryAt ioOwner packet (roomyConfig listen remoteResolver rules) now
          natNow).run start = (o, s) ∧
        (∀ result, o ≠ .ok result) ∧ s.dnsByKey.get key ≠ none := by
  obtain ⟨l, hc, hpayload, hops⟩ := h.layout
  obtain ⟨lowered, q, hclamp, hcq, hvalid, hid⟩ := h.clamped havoid hc hpayload
  have ha := h.admitted hc (hops ▸ hhop) hclamp hcq (parseQuestion_valid hvalid) ioOwner
    (roomyConfig listen remoteResolver rules) rfl now
  have hgoes : DnsQuery.GoesRemote ⟨ioOwner, q, l,
      ⟨client.ip, listen.ip, client.port, listen.port, .udp⟩, some lowered,
      roomyConfig listen remoteResolver rules, now⟩ :=
    ⟨by simp, question, classifyQuery_remote hvalid h.remote⟩
  obtain ⟨start, hreach, hempty, token, snat, port, s, key, -, hrun, hfiled⟩ :=
    fresh_opens ha (h.layout_size hc hpayload) (iff_of_true rfl hgoes) rfl Nat.one_pos natNow
  refine ⟨start, hreach, hempty, _, s, key, hrun, fun result hresult => ?_, hfiled⟩
  obtain ⟨written, hwritten, -⟩ := bind_eq_ok.mp (mapErr_eq_ok.mp hresult)
  exact hfam ((rewritePacket_families hcq hwritten).2.2.trans hcq.family.2.symm)

/-- When a query for a remote domain fails closed, whatever the worker holds: with a hop
left to go, where no name of the query reads the CLASS of an oversized OPT record and the
remote resolver is of the listener's family; without one, where the key is kept, also by a
clamp that gives up at a name that reads a CLASS it has passed. -/
theorem remoteQuery_failsClosed_iff
    (h : RemoteQuery listen client rules packet payload question) (remoteResolver : SocketAddr) :
    (∀ (config : DnsFlowConfig) (state : FlowWorkerState) (ioOwner : IoOwnerKey)
      (now natNow : Instant), config.listen = listen → config.remoteResolver = remoteResolver →
      config.remoteDomains = rules → state.Reachable → NotActive ioOwner client payload state →
      FailsClosed ioOwner client packet payload config now natNow state) ↔
    if 1 < hopsLeft packet then
      NamesAvoidClasses payload ∧ remoteResolver.ip.isV4 = listen.ip.isV4
    else NamesAvoidClasses payload ∨ ReadsPassedClass payload := by
  rw [← ((validateMessage_iff h.size).mp h.valid).clamp_fails_iff h.size]
  constructor
  · intro hclosed
    have hroomy : ∀ start : FlowWorkerState, start.Reachable → start.dnsByKey = .empty →
        FailsClosed ⟨0, 0⟩ client packet payload (roomyConfig listen remoteResolver rules) 0 0
          start :=
      fun start hreach hempty => hclosed _ start ⟨0, 0⟩ 0 0 rfl rfl rfl hreach fun _ _ => by
        rw [hempty]
        rfl
    obtain ⟨fresh, hfresh, hempty, -⟩ := fresh_worker
    have hkey := h.key_iff.mp (hroomy fresh hfresh hempty).key
    split_ifs with hhop
    · have havoid : NamesAvoidClasses payload := by
        refine hkey.resolve_right fun ⟨e, s, hfail⟩ => ?_
        obtain ⟨start, hreach, hempty, transmit, binding, id, s', hrun⟩ :=
          h.falls_back hfail remoteResolver ⟨0, 0⟩ 0 0 hhop
        have hroute := (hroomy start hreach hempty).route
        rw [hrun] at hroute
        exact hroute transmit binding id rfl
      refine ⟨havoid, by_contra fun hfam => ?_⟩
      obtain ⟨start, hreach, hempty, o, s, key, hrun, herr, hfiled⟩ :=
        h.leaves_unsent havoid hfam ⟨0, 0⟩ 0 0 hhop
      have hroute := (hroomy start hreach hempty).route
      rw [hrun] at hroute
      rcases o with (e | _) | result
      · rw [hroute.dnsByKey, hempty] at hfiled
        exact hfiled rfl
      · exact hroute
      · exact herr result rfl
    · exact hkey
  · intro hcond config state ioOwner now natNow hlisten hresolver hrules hreach hactive
    split_ifs at hcond with hhop
    · exact ⟨h.stays_remote hcond.1 hlisten hrules (hresolver ▸ hcond.2) hreach hactive hhop,
        h.key_iff.mpr (.inl hcond.1)⟩
    · exact ⟨h.expired hhop ioOwner config now natNow state, h.key_iff.mpr hcond⟩

theorem namesAvoidClasses_of_no_additional (h : payload.wordAt 10 = 0) :
    NamesAvoidClasses payload := by
  rintro o i - - ⟨fixed, ⟨⟨n, owner, target, hlow, hhigh, -⟩, -⟩, -⟩
  rw [h, UInt16.toNat_zero] at hhigh
  omega

/-- A query for `a.` without other records. -/
def plainQuery : Bytes :=
  [0x45, 0, 0, 47, 0, 1, 0, 0, 64, 17, 246, 178, 192, 0, 2, 9, 192, 0, 2, 1,
    0x9c, 0x40, 0, 53, 0, 27, 0, 0,
    0x12, 0x34, 1, 0, 0, 1, 0, 0, 0, 0, 0, 0, 1, 97, 0, 0, 1, 0, 1]

theorem plainQuery_failsClosed :
    RemoteQuery ⟨.v4 #v[192, 0, 2, 1], 53⟩ ⟨.v4 #v[192, 0, 2, 9], 40000⟩
      ⟨HashMap.empty.insert [97] ()⟩ plainQuery (plainQuery.drop 28) ⟨[97], 1, 1⟩ ∧
    ∀ (state : FlowWorkerState) (remoteAvailable : Bool) (ioOwner : IoOwnerKey)
      (now natNow : Instant), state.Reachable →
      NotActive ioOwner ⟨.v4 #v[192, 0, 2, 9], 40000⟩ (plainQuery.drop 28) state →
      FailsClosed ioOwner ⟨.v4 #v[192, 0, 2, 9], 40000⟩ plainQuery (plainQuery.drop 28)
        ⟨⟨.v4 #v[192, 0, 2, 1], 53⟩, ⟨.v4 #v[192, 0, 2, 53], 53⟩, ⟨.v4 #v[9, 9, 9, 9], 53⟩,
          ⟨HashMap.empty.insert [97] ()⟩, 8, 5, remoteAvailable⟩ now natNow state := by
  have hquery : RemoteQuery ⟨.v4 #v[192, 0, 2, 1], 53⟩ ⟨.v4 #v[192, 0, 2, 9], 40000⟩
      ⟨HashMap.empty.insert [97] ()⟩ plainQuery (plainQuery.drop 28) ⟨[97], 1, 1⟩ := by
    constructor <;> decide +kernel
  refine ⟨hquery, fun state remoteAvailable ioOwner now natNow hreach hactive => ?_⟩
  refine (remoteQuery_failsClosed_iff hquery ⟨.v4 #v[9, 9, 9, 9], 53⟩).mpr ?_ _ _ _ _ _ rfl rfl rfl
    hreach hactive
  rw [if_pos (by decide +kernel)]
  exact ⟨namesAvoidClasses_of_no_additional (by decide +kernel), rfl⟩

/-- A query for `a.` with two additional records: an OPT record of payload size 1377, and
a record whose owner points at that size and reads the label `abcde` from it. -/
def overlappingQuery : Bytes :=
  [0x45, 0, 0, 70, 0, 1, 0, 0, 64, 17, 246, 155, 192, 0, 2, 9, 192, 0, 2, 1,
    0x9c, 0x40, 0, 53, 0, 50, 0, 0,
    0x12, 0x34, 1, 0, 0, 1, 0, 0, 0, 0, 0, 2, 1, 97, 0, 0, 1, 0, 1,
    0, 0, 41, 5, 97, 98, 99, 100, 101, 0, 0,
    0xc0, 22, 0, 1, 0, 1, 0, 0, 0, 0, 0, 0]

/-- The local resolver is asked for a remote domain: lowering the payload size turns the
label `abcde` into one that no longer parses, so that the clamp gives up. -/
theorem overlappingQuery_local : ∃ worker : FlowWorkerState,
    RemoteQuery ⟨.v4 #v[192, 0, 2, 1], 53⟩ ⟨.v4 #v[192, 0, 2, 9], 40000⟩
      ⟨HashMap.empty.insert [97] ()⟩ overlappingQuery (overlappingQuery.drop 28) ⟨[97], 1, 1⟩ ∧
    worker.Reachable ∧
    NotActive ⟨0, 0⟩ ⟨.v4 #v[192, 0, 2, 9], 40000⟩ (overlappingQuery.drop 28) worker ∧
    ∃ s, (handleDnsQueryAt ⟨0, 0⟩ overlappingQuery ⟨⟨.v4 #v[192, 0, 2, 1], 53⟩,
        ⟨.v4 #v[192, 0, 2, 53], 53⟩, ⟨.v4 #v[9, 9, 9, 9], 53⟩, ⟨HashMap.empty.insert [97] ()⟩, 8, 5,
        true⟩ 0 0).run worker =
      (.ok (.local ⟨⟨0, 0⟩, [69, 0, 0, 70, 0, 1, 0, 0, 63, 17, 247, 110, 192, 0, 2, 2, 192, 0, 2,
          53, 156, 64, 0, 53, 0, 50, 0, 0] ++ overlappingQuery.drop 28, none⟩
        ⟨⟨.v4 #v[192, 0, 2, 9], .v4 #v[192, 0, 2, 53], 40000, 53, .udp⟩,
          ⟨.v4 #v[192, 0, 2, 2], .v4 #v[192, 0, 2, 53], 40000, 53, .udp⟩⟩
        ⟨9223372036854775809⟩), s) := by
  let worker := (newDual 0 (some #v[192, 0, 2, 2]) none 40000 40000).toOption.get rfl
  refine ⟨worker, by constructor <;> decide +kernel, ?_, fun _ _ => rfl, _,
    Prod.ext (by decide +kernel) rfl⟩
  exact ⟨0, some #v[192, 0, 2, 2], none, 40000, 40000, worker, [], rfl, rfl⟩

end Routes

end NewProxy.FlowWorkerState
