import NewProxy.RoundTrip
import NewProxy.DnsOnce

/-!
# The packets a worker sends

Every packet that a worker hands out has right checksums and the flow it is meant to have.
A packet that is passed on is the one that came in, one hop further, but for the fields
that a translation writes and the values that a clamp lowers. So a packet that the workers of
any number of processes pass on ends within its hop limit.
-/
namespace NewProxy

namespace Packet

open Bytes Dns

section Sendable

variable {p q : Bytes} {l : Layout} {f t : FlowKey} {dns : Bool}

/-- A packet as it should leave, for the flow `t`. -/
structure Sendable (q : Bytes) (t : FlowKey) : Prop where
  checksums : validatePacketChecksums q = .ok ()
  flow : parseFlowKey q = .ok t
  mss : ∀ (l : Layout) place, l.Of q → l.MssOption t q place → q.wordAt (place + 2) ≤ 1333

/-- The ports of a TCP or UDP packet, the identifier of an echo message. -/
def Layout.FlowPorts (l : Layout) (proto : TransportProtocol) (i : ℕ) : Prop :=
  l.offset + proto.sourceField ≤ i ∧ i < l.offset + proto.sourceField + 2 ∨
    proto.isEcho = false ∧ l.offset + proto.destinationField ≤ i ∧
      i < l.offset + proto.destinationField + 2

/-- The bytes of values that are lowered: MSS options above 1333 in a SYN packet and, in a DNS
query, classes of OPT records above the largest payload. -/
def Layout.Lowers (l : Layout) (dns : Bool) (f : FlowKey) (p : Bytes) (i : ℕ) : Prop :=
  (∃ place, l.MssOption f p place ∧ MssAbove 1333 p place i) ∨
    dns = true ∧ l.offset + 8 ≤ i ∧
      OversizedClass (p.slice (l.offset + 8) l.total) (i - (l.offset + 8))

/-- The bytes of `p` in which the packet that is passed on may differ. -/
def Layout.Changes (l : Layout) (dns : Bool) (f : FlowKey) (p : Bytes) (i : ℕ) : Prop :=
  l.Hop i ∨ l.HeaderSum i ∨ l.Address i ∨ l.FlowPorts f.protocol i ∨ l.TransportSum f.protocol i ∨
    l.Lowers dns f p i

/-- `q` is `p` passed on to the flow `t`. -/
structure Forwards (dns : Bool) (p : Bytes) (t : FlowKey) (q : Bytes) : Prop
    extends Sendable q t where
  hops : (hopsLeft q).toNat + 1 = (hopsLeft p).toNat ∧ 1 ≤ (hopsLeft q).toNat
  bytes : ∃ (l : Layout) (f : FlowKey), Carries p l f ∧ t.protocol = f.protocol ∧
    SameExcept (l.Changes dns f p) p q

theorem sendable_of_clamped {b : Bytes} (h : Carries q l t) (hchecked : Checked q l)
    (hclamp : clampTcpMss q tcpMaxSafeMss = .ok (false, b)) : Sendable q t := by
  refine ⟨(validatePacketChecksums_eq_ok h).mpr hchecked, parseFlowKey_eq_ok.mpr ⟨l, h⟩,
    fun l' place hl' hmss => ?_⟩
  obtain rfl := hl'.unique h.layout
  exact hmss.le h hclamp

theorem sendable_udp (h : Carries q l t) (hchecked : Checked q l) (hu : t.protocol = .udp) :
    Sendable q t := by
  refine sendable_of_clamped h hchecked (b := q) ?_
  rw [clampTcpMss_eq h, if_neg (by simp [hu])]

/-- Where the type of an echo message is kept, its bytes are. -/
theorem same_changes (hp : Carries p l f) (hq : Carries q l t) (hproto : t.protocol = f.protocol)
    (hecho : t.protocol.isEcho = true → t.destinationPort = f.destinationPort)
    (hs : SameExcept (fun i => l.Edited f.protocol i ∨ l.Lowers dns f p i) p q) :
    SameExcept (l.Changes dns f p) p q := by
  refine ⟨hs.length, fun i hi => ?_⟩
  by_cases htype : f.protocol.isEcho = true ∧ l.offset + f.protocol.destinationField ≤ i ∧
      i < l.offset + f.protocol.destinationField + 2
  · obtain ⟨he, h1, h2⟩ := htype
    refine byteAt_of_wordAt ?_ h1 h2
    rw [hp.destinationPort, ← hproto, hq.destinationPort, hecho (hproto ▸ he)]
  · refine hs.byte i fun hchange => hi ?_
    rcases hchange with ((hhop | hsum) | (hsum | haddress | hports | hsum)) | hlow
    · exact .inl hhop
    · exact .inr (.inl hsum)
    · exact .inr (.inl hsum)
    · exact .inr (.inr (.inl haddress))
    · refine .inr (.inr (.inr (.inl ?_)))
      rcases hports with hsource | hdestination
      · exact .inl hsource
      · refine .inr ⟨?_, hdestination⟩
        cases he : f.protocol.isEcho
        · rfl
        · exact absurd ⟨he, hdestination⟩ htype
    · exact .inr (.inr (.inr (.inr (.inl hsum))))
    · exact .inr (.inr (.inr (.inr (.inr hlow))))

theorem hops_of_hopLimit (hp : l.Of p) (hq : l.Of q) (h1 : 1 < l.hopLimit p)
    (h : l.hopLimit q = l.hopLimit p - 1) :
    (hopsLeft q).toNat + 1 = (hopsLeft p).toNat ∧ 1 ≤ (hopsLeft q).toNat := by
  rw [hp.hopsLeft, hq.hopsLeft, h]
  have h1' : 1 < (l.hopLimit p).toNat := h1
  have hsub : (l.hopLimit p - 1).toNat = (l.hopLimit p).toNat - 1 :=
    UInt8.toNat_sub_of_le _ _ (Nat.le_of_lt h1')
  omega

/-- The three edits of a worker pass a packet on. -/
theorem Edits.forwards (h : Edits p f t q)
    (hecho : t.protocol.isEcho = true → t.destinationPort = f.destinationPort) :
    Forwards false p t q := by
  obtain ⟨l, hc, hhop, hproto, hpassed⟩ := h.passedOn hecho
  obtain ⟨b, p', hclamp, hsame⟩ := hpassed.bytes
  obtain ⟨_, _, hclamp', hc', -, hagain⟩ := clampTcpMss_ok hc tcpMaxSafeMss
  cases hclamp.symm.trans hclamp'
  rw [hproto] at hsame
  -- the clamp has nothing left to do, in the packet it left and in the rewritten one
  obtain ⟨b', p'', q', hp'', hq', -⟩ :=
    clampTcpMss_congr hc' hpassed.carries hproto hsame tcpMaxSafeMss
  cases hagain.symm.trans hp''
  refine ⟨sendable_of_clamped hpassed.carries hpassed.checked hq',
    hops_of_hopLimit hc.layout hpassed.carries.layout hhop hpassed.hopLimit, l, f, hc, hproto,
    same_changes hc hpassed.carries hproto hecho ?_⟩
  exact ((clampTcpMss_same hc hclamp).mono fun i hi => .inr (.inl hi)).trans
    (hsame.mono fun i hi => .inl hi)

/-- A datagram that is rewritten after its payload was clamped is passed on. -/
theorem forwards_datagram {a c : Bytes} (hprep : prepareForwardedPacket p = .ok a)
    (ha : Carries a l f) (hu : f.protocol = .udp) (hc : Carries c l f)
    (hs : SameExcept (fun i => l.Translation .udp i ∨ dns = true ∧ l.offset + 8 ≤ i ∧
      OversizedClass (a.slice (l.offset + 8) l.total) (i - (l.offset + 8))) a c)
    (hrewrite : (rewritePacket t).exec c = .ok q) : Forwards dns p t q := by
  obtain ⟨l', hp, hchecked, hhop, rfl⟩ := carries_of_prepare hprep (parseFlowKey_eq_ok.mpr ⟨l, ha⟩)
  obtain rfl : l' = l := (hp.keep_forwarding hp.layout.forwarded).layout.unique ha.layout
  obtain ⟨hproto, hsrc, hdst⟩ := rewritePacket_families hc hrewrite
  have hu' : t.protocol = .udp := hproto.trans hu
  obtain ⟨q', hrun, hq, hqchecked, htranslated⟩ := rewritePacket_ok hc hproto hsrc hdst
    (by rw [hu']; trivial)
  cases hrewrite.symm.trans (Act.exec_eq_ok.mpr ⟨(), hrun⟩)
  rw [hu'] at htranslated
  rw [slice_forwarded hp.layout] at hs
  have hhops : l'.hopLimit q = l'.hopLimit p - 1 := by
    have hpos := hp.layout.length_pos.1
    have hfront : ¬ l'.offset + 8 ≤ if l'.isV4 then 8 else 7 := by split_ifs <;> omega
    rw [← hopLimit_forwarded hp.layout]
    calc l'.hopLimit q = l'.hopLimit c := htranslated.byte _ (hp.layout.not_translation_hop _)
      _ = l'.hopLimit (forwarded p l') := hs.byte _ fun hi =>
          hi.elim (hp.layout.not_translation_hop _) fun hi => hfront hi.2.1
  refine ⟨sendable_udp hq hqchecked hu', hops_of_hopLimit hp.layout hq.layout hhop hhops, l', f, hp,
    hproto, same_changes hp hq hproto (by rw [hu']; intro h; cases h) ?_⟩
  rw [hu]
  exact ((hp.layout.forwarded.mono fun i hi => .inl (.inl hi)).trans
    (hs.mono fun i hi => hi.imp .inr .inr)).trans (htranslated.mono fun i hi => .inl (.inr hi))

end Sendable

end Packet

namespace FlowWorkerState

open Outcome Packet Dns Bytes

section Sent

variable {first last : UInt16} {ephemeral : SessionId → Option NatBinding}
  {state state' : FlowWorkerState} {packet p q : Bytes} {l : Layout} {f t : FlowKey}
  {transaction : DnsFlowTransaction}

/-- A SERVFAIL that is built can be sent, to the client that asked. -/
theorem dnsServfailTransmitToListen_sendable (h : Carries p l f) (hu : f.protocol = .udp)
    {target : IoOwnerKey} {listen : SocketAddr} {transmit : IoTransmit}
    (hok : dnsServfailTransmitToListen target p f listen = .ok transmit) :
    Sendable transmit.packet (answerFlow listen ⟨f.source, f.sourcePort⟩) := by
  rcases dnsServfailTransmitToListen_eq h hu target listen with ⟨e, he, -⟩ |
    ⟨q, l', -, -, -, -, -, hcp, hbuilt⟩
  · cases he.symm.trans hok
  obtain ⟨r, hrewrite, hok⟩ := bind_eq_ok.mp (hbuilt.symm.trans hok)
  cases hok
  obtain ⟨hproto, hsrc, hdst⟩ := rewritePacket_families hcp hrewrite
  obtain ⟨r', hrun, hcr, hchecked, -⟩ := rewritePacket_ok hcp hproto hsrc hdst trivial
  cases hrewrite.symm.trans (Act.exec_eq_ok.mpr ⟨(), hrun⟩)
  exact sendable_udp hcr hchecked rfl

/-- The SERVFAIL for a transaction goes to its client. -/
theorem servfailForTransaction_sendable {query : DnsQuery} {config : DnsFlowConfig}
    {closed : ExpiredDnsTransaction} (hopened : Opened packet query transaction)
    (h : servfailForTransaction transaction config = .ok closed) :
    closed.transactionId = transaction.token ∧
      Sendable closed.transmit.packet (answerFlow config.listen transaction.client) := by
  obtain ⟨flow, hflow, h⟩ := bind_eq_ok.mp h
  obtain ⟨transmit, htransmit, h⟩ := bind_eq_ok.mp h
  cases h
  have hcarries := hopened.admitted.carries
  obtain ⟨remote, token, binding, rfl⟩ := hopened.made
  cases hflow.symm.trans (parseFlowKey_eq_ok.mpr ⟨_, hcarries⟩)
  exact ⟨rfl, dnsServfailTransmitToListen_sendable hcarries hopened.admitted.udp htransmit⟩

/-- The packet of a query that is served is the client's, with the lease's flow. -/
theorem Admitted.forwards {query : DnsQuery} (h : Admitted packet query)
    (hrewrite : (rewritePacket t).exec query.packet = .ok q) : Forwards true packet t q := by
  obtain ⟨a, hprep, ha, hclamp⟩ := h.prepared
  refine forwards_datagram hprep ha h.udp h.carries ?_ hrewrite
  rcases ednsClampPacket_cases ha h.udp with
    ⟨-, hrun⟩ | ⟨lowered, payload, q', -, hrun, -, -, -, hs, -⟩
  · obtain ⟨-, rfl⟩ := Prod.ext_iff.mp (Except.ok.inj (hrun.symm.trans hclamp))
    exact .refl _ _
  · obtain ⟨-, rfl⟩ := Prod.ext_iff.mp (Except.ok.inj (hrun.symm.trans hclamp))
    exact hs.mono fun i hi => hi.imp_right fun hi => ⟨rfl, hi⟩

/-- The result of `handle_dns_query_at` as it should be. -/
def QuerySent (packet : Bytes) (config : DnsFlowConfig) (state : FlowWorkerState) :
    HandledDnsQuery → Prop
  | .local transmit binding token => (∃ key transaction, state.dnsByKey.get key = some transaction ∧
      transaction.token = token ∧ transaction.binding = binding) ∧
      Forwards true packet binding.translated transmit.packet
  | .remote sent binding token => (∃ key transaction, state.dnsByKey.get key = some transaction ∧
      transaction.token = token ∧ transaction.binding = binding) ∧
      Forwards true packet binding.translated sent
  | .servfail transmit => ∃ flow, parseFlowKey packet = .ok flow ∧
      Sendable transmit.packet (answerFlow config.listen ⟨flow.source, flow.sourcePort⟩)

theorem rewriteDnsQuery_sent {query : DnsQuery} {key : DnsFlowTransactionKey}
    {result : HandledDnsQuery} {config : DnsFlowConfig} (h : Admitted packet query)
    (hk : state.dnsByKey.get key = some transaction)
    (hr : rewriteDnsQuery query.packet transaction = .ok result) :
    QuerySent packet config state result := by
  obtain ⟨q, hrewrite, hr⟩ := bind_eq_ok.mp hr
  split_ifs at hr
  · cases hr
    exact ⟨⟨key, transaction, hk, rfl, rfl⟩, h.forwards hrewrite⟩
  · cases hr
    exact ⟨⟨key, transaction, hk, rfl, rfl⟩, h.forwards hrewrite⟩

theorem handleDnsQueryAt_sent (hl : Leased first last ephemeral state) {ioOwner : IoOwnerKey}
    {config : DnsFlowConfig} {now natNow : Instant} {result : HandledDnsQuery}
    (hrun : (handleDnsQueryAt ioOwner packet config now natNow).run state = (.ok result, state')) :
    QuerySent packet config state' result := by
  have hspec := handleDnsQueryAt_spec hl ioOwner packet config now natNow state (.refl state)
  rw [hrun] at hspec
  rcases hspec with ⟨a, sent, l, flow, hprep, ha, hc, hu, -, -, -, transmit, rfl, hok⟩ |
    ⟨query, l, flow, clamped, ha, dns, -,
    ⟨hidle, transaction, hk, hr⟩ | ⟨remote, transaction, -, hf, hr⟩⟩
  · obtain ⟨l', hp, -⟩ := carries_of_prepare hprep (parseFlowKey_eq_ok.mpr ⟨l, ha⟩)
    exact ⟨flow, parseFlowKey_eq_ok.mpr ⟨l', hp⟩, dnsServfailTransmitToListen_sendable hc hu hok⟩
  · exact rewriteDnsQuery_sent ha (hidle.dnsByKey ▸ hk) hr
  · have hk : state'.dnsByKey.get ⟨ioOwner, dns⟩ = some transaction := by
      rw [hf.dnsByKey, HashMap.get_insert, if_pos rfl]
    exact rewriteDnsQuery_sent ha hk hr

/-- The answer of a resolver goes to the client, or a SERVFAIL in its place. -/
theorem Answers.sent {payload : Bytes} {key : DnsFlowTransactionKey} {response : HandledDnsResponse}
    {raw : Bytes} {query : DnsQuery} (hl : Leased first last ephemeral state)
    (hm : Matched state packet p payload key transaction)
    (ha : Answers p payload transaction response) (hopened : Opened raw query transaction) :
    udpPayload packet = .ok payload ∧
      if payload.length ≤ dnsPayloadMax then
        Forwards false packet (answerFlow transaction.dnsVip transaction.client) response.packet
      else Sendable response.packet (answerFlow transaction.dnsVip transaction.client) := by
  have hu := (hl.query key transaction hm.held).1
  obtain ⟨l, hc⟩ := parseFlowKey_eq_ok.mp hm.flow
  refine ⟨(arrived_of_prepared hm.prepared hm.flow hu hm.carried).2, ?_⟩
  rcases ha.packet with ⟨hle, hrewrite⟩ | ⟨hlong, flow, hflow, hok⟩
  · rw [if_pos hle]
    exact forwards_datagram hm.prepared hc hu hc (.refl _ _) hrewrite
  · rw [if_neg (Nat.not_le.mpr hlong)]
    have hcarries := hopened.admitted.carries
    obtain ⟨remote, token, binding, rfl⟩ := hopened.made
    cases hflow.symm.trans (parseFlowKey_eq_ok.mpr ⟨_, hcarries⟩)
    exact dnsServfailTransmitToListen_sendable hcarries hopened.admitted.udp hok

end Sent

section Emitted

variable {state : FlowWorkerState}

/-- A reply that was passed on, in the session of the state that the call left. -/
def ReplySent (packet : Bytes) (handled : HandledReverse) (state : FlowWorkerState) : Prop :=
  ∃ returnFlow session, parseFlowKey packet = .ok returnFlow ∧
    state.sessions.get handled.sessionId = some session ∧
    Forwards false packet (restoredFlow session returnFlow) handled.packet

/-- A SERVFAIL for a transaction of `state`. -/
def ServfailSent (state : FlowWorkerState) (config : DnsFlowConfig)
    (closed : ExpiredDnsTransaction) : Prop :=
  ∃ key transaction, state.dnsByKey.get key = some transaction ∧
    closed.transactionId = transaction.token ∧
    Sendable closed.transmit.packet (answerFlow config.listen transaction.client)

/-- What the packets should be that the calls on `state` hand out. -/
structure EmitsWell (state : FlowWorkerState) : Prop where
  intercept : ∀ ioOwner packet quicFlow tunnelTarget now natNow handled state',
    (handleIntercept ioOwner packet quicFlow tunnelTarget now natNow).run state =
      (.ok handled, state') → ∃ session, state'.sessions.get handled.sessionId = some session ∧
        Forwards false packet session.nat.translated handled.transmit.packet
  serverInner : ∀ defaultIntercept packet quicFlow now natNow handled state',
    (handleServerInner defaultIntercept packet quicFlow now natNow).run state =
      (.ok handled, state') → ∃ session, state'.sessions.get handled.sessionId = some session ∧
        Forwards false packet session.nat.translated handled.transmit.packet
  reverse : ∀ packet now handled state', (handleReverse packet now).run state =
    (.ok (some handled), state') → ReplySent packet handled state'
  reverseFor : ∀ packet locator now handled state',
    (handleReverseFor packet locator now).run state = (.ok (some handled), state') →
      ReplySent packet handled state'
  serverReverse : ∀ observed packet locator now handled state',
    (handleServerReverse observed packet locator now).run state = (.ok (some handled), state') →
      ReplySent packet handled state'
  dnsQuery : ∀ ioOwner packet config now natNow result state',
    (handleDnsQueryAt ioOwner packet config now natNow).run state = (.ok result, state') →
      QuerySent packet config state' result
  dnsResponse : ∀ packet natNow response state',
    (handleDnsResponse packet natNow).run state = (.ok (some response), state') →
      ∃ key transaction payload, state.dnsByKey.get key = some transaction ∧
        response.transactionId = transaction.token ∧ udpPayload packet = .ok payload ∧
        if payload.length ≤ dnsPayloadMax then
          Forwards false packet (answerFlow transaction.dnsVip transaction.client) response.packet
        else Sendable response.packet (answerFlow transaction.dnsVip transaction.client)
  expired : ∀ now config clock answers state',
    (expireDnsTransactions now config clock).run state = (.ok answers, state') →
      ∀ closed ∈ answers, ServfailSent state config closed
  aborted : ∀ binding config natNow closed state',
    (abortDnsTransaction binding config natNow).run state = (.ok (some closed), state') →
      ServfailSent state config closed
  abortedRemote : ∀ config clock answers state',
    (abortRemoteDnsTransactions config clock).run state = (.ok answers, state') →
      ∀ closed ∈ answers, ServfailSent state config closed

theorem handleReverseForInner_sent {packet : Bytes} {locator : SessionLocator}
    {observed : Option IoOwnerKey} {now : Instant} {handled : HandledReverse}
    {state' : FlowWorkerState}
    (hrun : (handleReverseForInner packet locator observed now).run state =
      (.ok (some handled), state')) : ReplySent packet handled state' := by
  obtain ⟨hid, returnFlow, session, -, hs, hedits⟩ := handleReverseForInner_eq_ok hrun
  have hecho : (restoredFlow session returnFlow).protocol.isEcho = true →
      (restoredFlow session returnFlow).destinationPort = returnFlow.destinationPort := by
    cases hproto : session.original.protocol <;>
      simp [restoredFlow, hproto, FlowKey.reverse, TransportProtocol.isEcho]
  exact ⟨returnFlow, session, (hedits.flows hecho).1, hid ▸ hs, hedits.forwards hecho⟩

/-- Every packet that a worker hands out is as it should be. -/
theorem emitsWell (h : state.Reachable) : EmitsWell state := by
  obtain ⟨first, last, hsound⟩ := h.sound
  obtain ⟨ephemeral, hl⟩ := hsound.leased
  have hforward : ∀ {io packet quicFlow target now natNow handled state'},
      (forwardInner io packet quicFlow target now natNow).run state = (.ok handled, state') →
      ∃ session, state'.sessions.get handled.sessionId = some session ∧
        Forwards false packet session.nat.translated handled.transmit.packet := by
    intro io packet quicFlow target now natNow handled state' hrun
    obtain ⟨flow, session, hs, -, hedits, hport, -⟩ := forwardInner_eq_ok hl hrun
    exact ⟨session, hs, hedits.forwards fun _ => hport⟩
  have hservfail : ∀ {key transaction config closed}, state.dnsByKey.get key = some transaction →
      servfailForTransaction transaction config = .ok closed →
      ServfailSent state config closed := by
    intro key transaction config closed hk hc
    obtain ⟨packet, query, hopened⟩ := h.opened hk
    exact ⟨key, transaction, hk, servfailForTransaction_sendable hopened hc⟩
  refine ⟨fun _ _ _ _ _ _ _ _ => hforward, fun _ _ _ _ _ _ _ => hforward,
    fun packet now handled state' hrun => ?_, fun _ _ _ _ _ => handleReverseForInner_sent,
    fun _ _ _ _ _ _ => handleReverseForInner_sent, fun _ _ _ _ _ _ _ => handleDnsQueryAt_sent hl,
    fun packet natNow response state' hrun => ?_, fun _ _ _ _ _ hrun closed hmem => ?_,
    fun binding config natNow closed state' hrun => ?_, fun _ _ _ _ hrun closed hmem => ?_⟩
  · obtain ⟨flow, -, hrun⟩ := lift_bind_eq_ok.mp hrun
    rw [Act.bind_of_ok (Act.run_get state)] at hrun
    cases hlookup : state.sessions.lookupReverseLocator flow with
    | none =>
      rw [hlookup] at hrun
      cases hrun
    | some locator =>
      rw [hlookup] at hrun
      exact handleReverseForInner_sent hrun
  · have hspec := handleDnsResponse_spec hl packet natNow state (.refl state)
    rw [hrun] at hspec
    obtain ⟨p, payload, key, transaction, hm, -, ha⟩ := hspec
    obtain ⟨raw, query, hopened⟩ := h.opened hm.held
    exact ⟨key, transaction, payload, hm.held, ha.transactionId, ha.sent hl hm hopened⟩
  · obtain ⟨key, transaction, hk, hc⟩ := expireDnsTransactions_answers hrun hmem
    exact hservfail hk hc
  · have hspec := abortDnsTransaction_spec hl binding config natNow state (.refl state)
    rw [hrun] at hspec
    obtain ⟨key, transaction, hk, -, -, hc⟩ := hspec
    exact hservfail hk hc
  · obtain ⟨key, transaction, hk, hc⟩ := abortRemoteDnsTransactions_answers hrun hmem
    exact hservfail hk hc

/-- A SYN from 192.168.1.2:5000 to 8.8.8.8:443 with an MSS of 1460. -/
def synPacket : Bytes :=
  [69, 0, 0, 44, 0, 1, 0, 0, 64, 6, 169, 17, 192, 168, 1, 2, 8, 8, 8, 8,
    19, 136, 1, 187, 0, 0, 0, 1, 0, 0, 0, 0, 96, 2, 255, 255, 177, 40, 0, 0, 2, 4, 5, 180]

/-- It leaves from 192.0.2.2:40000 with an MSS of 1333. -/
theorem emitsWell_syn : onePortWorker.Reachable ∧ ∃ translated : FlowKey,
    parseFlowKey [69, 0, 0, 44, 0, 1, 0, 0, 63, 6, 169, 185, 192, 0, 2, 2, 8, 8, 8, 8, 156, 64, 1,
      187, 0, 0, 0, 1, 0, 0, 0, 0, 96, 2, 255, 255, 40, 151, 0, 0, 2, 4, 5, 53] = .ok translated ∧
    Forwards false synPacket translated [69, 0, 0, 44, 0, 1, 0, 0, 63, 6, 169, 185, 192, 0, 2, 2,
      8, 8, 8, 8, 156, 64, 1, 187, 0, 0, 0, 1, 0, 0, 0, 0, 96, 2, 255, 255, 40, 151, 0, 0, 2, 4,
      5, 53] := by
  have hreachable : onePortWorker.Reachable :=
    ⟨1, some (dotted 192 0 2 2), none, 40000, 40000, onePortWorker, [], rfl, rfl⟩
  obtain ⟨session, -, hsent⟩ := (emitsWell hreachable).intercept ⟨3, 0⟩ synPacket ⟨⟨1⟩, 1, 0⟩ ⟨4, 0⟩
    0 0 ⟨⟨1⟩, ⟨4, 0⟩, [69, 0, 0, 44, 0, 1, 0, 0, 63, 6, 169, 185, 192, 0, 2, 2, 8, 8, 8, 8, 156,
      64, 1, 187, 0, 0, 0, 1, 0, 0, 0, 0, 96, 2, 255, 255, 40, 151, 0, 0, 2, 4, 5, 53], none⟩ _
    (Prod.ext (by decide +kernel) rfl)
  exact ⟨hreachable, session.nat.translated, hsent.flow, hsent⟩

end Emitted

end FlowWorkerState

open FlowWorkerState Packet

/-- In a session of some worker, `q` is handed out for `p`. -/
inductive HandedOn (p q : Bytes) : Prop where
  | forward {state state' : FlowWorkerState} {io : IoOwnerKey} {quicFlow : QuicFlow}
      {target : Session → IoOwnerKey} {now natNow : Instant} {handled : HandledIntercept}
      (reachable : state.Reachable)
      (run : (forwardInner io p quicFlow target now natNow).run state = (.ok handled, state'))
      (sent : handled.transmit.packet = q) : HandedOn p q
  | reply {state state' : FlowWorkerState} {locator : SessionLocator}
      {observed : Option IoOwnerKey} {now : Instant} {handled : HandledReverse}
      (run : (handleReverseForInner p locator observed now).run state =
        (.ok (some handled), state'))
      (sent : handled.packet = q) : HandedOn p q

theorem HandedOn.hops {p q : Bytes} (h : HandedOn p q) :
    (hopsLeft q).toNat + 1 = (hopsLeft p).toNat ∧ 1 ≤ (hopsLeft q).toNat := by
  cases h with
  | forward hreachable hrun hsent =>
    obtain ⟨_, _, hsound⟩ := hreachable.sound
    obtain ⟨_, hleased⟩ := hsound.leased
    obtain ⟨_, _, -, -, hedits, hport, -⟩ := forwardInner_eq_ok hleased hrun
    exact hsent ▸ (hedits.forwards fun _ => hport).hops
  | reply hrun hsent =>
    obtain ⟨_, _, -, -, hforwards⟩ := handleReverseForInner_sent hrun
    exact hsent ▸ hforwards.hops

/-- Each worker on the way takes one hop, and the last one leaves one. -/
theorem length_lt_hops {p : Bytes} {packets : List Bytes} (h : (p :: packets).IsChain HandedOn)
    (hne : packets ≠ []) : packets.length < (hopsLeft p).toNat := by
  induction packets generalizing p with
  | nil => exact absurd rfl hne
  | cons q packets ih =>
    obtain ⟨hpq, hrest⟩ := List.isChain_cons_cons.mp h
    have hops := hpq.hops
    rw [List.length_cons]
    by_cases hpackets : packets = []
    · rw [hpackets, List.length_nil]
      omega
    · have hlt := ih hrest hpackets
      omega

/-- The workers of a client and of its server pass a datagram on. -/
theorem length_lt_hops_datagram : ∃ q r, HandedOn datagram q ∧ HandedOn q r ∧
    2 < (hopsLeft datagram).toNat := by
  have hclient := HandedOn.forward clientSide_reachable (Prod.ext clientSide_run rfl) rfl
  have hserver := HandedOn.forward serverSide_reachable (Prod.ext serverSide_run rfl) rfl
  exact ⟨_, _, hclient, hserver, length_lt_hops
    (List.isChain_cons_cons.mpr ⟨hclient, List.isChain_pair.mpr hserver⟩) (by simp)⟩

end NewProxy
