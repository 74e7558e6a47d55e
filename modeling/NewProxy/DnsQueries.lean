import NewProxy.DnsRecords
import NewProxy.WorkerInvariant

/-!
# What a DNS query does to a flow worker

A query is turned down, meets the transaction it retransmits, or opens one with a
lease of its own. Each function on the way has one specification that says which of
these happened and what it left; the invariant of a worker follows from it.
-/
namespace NewProxy.FlowWorkerState

open Outcome Packet Dns

variable {first last : UInt16} {strict : Prop} {listen : SocketAddr} {capacity : ℕ}
  {state start : FlowWorkerState} {ephemeral : SessionId → Option NatBinding}

/-- Nothing was leased, filed or closed: counters and outlived quarantines apart,
`state` is `start`. -/
structure Idle (start state : FlowWorkerState) : Prop extends SameDns start state where
  sessions : ∃ quarantined, state.sessions = start.sessions.withQuarantined quarantined

theorem Idle.refl (state : FlowWorkerState) : Idle state state :=
  ⟨.refl state, state.sessions.nat.quarantined, rfl⟩

theorem Idle.framed (h : Idle start state) (hl : Leased first last ephemeral start) :
    Framed first last ephemeral start state := by
  obtain ⟨quarantined, hs⟩ := h.sessions
  refine ⟨h.toSameDns, ?_, ?_⟩
  · rw [hs, h.workerId]
    exact hl.owner
  · rw [hs]
    exact hl.sessions.withQuarantined quarantined

theorem Idle.sound (h : Idle start state) (hs : Sound first last strict listen capacity start) :
    Sound first last strict listen capacity state := by
  obtain ⟨ephemeral, hl, ht⟩ := hs
  exact ⟨ephemeral, (h.framed hl).leased hl, fun hstrict => (h.framed hl).timely (ht hstrict)⟩

theorem count_idle {ε : Type} {f : FlowWorkerStats → FlowWorkerStats} {E : FlowWorkerState → Prop}
    (hf : ∀ stats, (f stats).dnsTransactionsActive = stats.dnsTransactionsActive) :
    Act.Triple (Idle start) (count f : Act FlowWorkerState ε Unit) (fun _ => Idle start) E :=
  .modify fun _ h => ⟨h.toSameDns.count hf, h.sessions⟩

theorem rewriteDnsQuery_ne_panic (packet : Bytes) (transaction : DnsFlowTransaction) :
    rewriteDnsQuery packet transaction ≠ panic := by
  refine bind_ne_panic (rewritePacket_ne_panic packet _) fun _ _ => ?_
  exact ite_ne_panic (fun _ => pure_ne_panic _) fun _ => pure_ne_panic _

/-- The protocol of an ephemeral lease is that of the flow it was taken out for. -/
theorem translated_protocol_of_ephemeral {table : SessionTable} {token : SessionId}
    {binding : NatBinding} (h : table.Linked first last ephemeral)
    (ht : ephemeral token = some binding) :
    binding.translated.protocol = binding.original.protocol := by
  obtain ⟨snat, -, htr⟩ := h.nat.translated _ _ (h.ledger_ephemeral ht).2
  rw [show binding.translated = NatTable.translate binding.original snat _ from htr]
  rfl

/-- The query a transaction is opened for: its packet, its flow, the configuration, the
route it was given and the time. -/
structure DnsRequest where
  ioOwner : IoOwnerKey
  packet : Bytes
  flow : FlowKey
  config : DnsFlowConfig
  remote : Bool
  now : Instant

namespace DnsRequest

def resolver (request : DnsRequest) : SocketAddr :=
  if request.remote then request.config.remoteResolver else request.config.localResolver

/-- The flow the lease is taken out for. -/
def original (request : DnsRequest) : FlowKey :=
  ⟨request.flow.source, request.resolver.ip, request.flow.sourcePort, request.resolver.port, .udp⟩

def transaction (request : DnsRequest) (token : SessionId) (binding : NatBinding) :
    DnsFlowTransaction :=
  { token, client := ⟨request.flow.source, request.flow.sourcePort⟩,
    dnsVip := request.config.listen, binding, localTarget := request.ioOwner,
    remote := request.remote, createdAt := request.now,
    expiresAt := request.now + request.config.timeout, originalPacket := request.packet }

end DnsRequest

/-- A transaction was opened for `request`, with a lease under a token of its own. -/
structure Filed (first last : UInt16) (ephemeral : SessionId → Option NatBinding)
    (start : FlowWorkerState) (key : DnsFlowTransactionKey) (request : DnsRequest)
    (transaction : DnsFlowTransaction) (state : FlowWorkerState) : Prop where
  made : ∃ counter binding, binding.original = request.original ∧
    transaction = request.transaction ⟨((1 : UInt64) <<< 63) ||| counter⟩ binding
  fresh : ephemeral transaction.token = none
  unused : start.sessions.sessions.get transaction.token = none
  leased : Leased first last
    (Function.update ephemeral transaction.token (some transaction.binding)) state
  room : start.dnsByKey.len < request.config.transactionCapacity
  free : start.dnsByKey.get key = none
  dnsByKey : state.dnsByKey = start.dnsByKey.insert key transaction
  dnsDeadlines : state.dnsDeadlines = start.dnsDeadlines.file transaction.expiresAt key
  active : state.stats.dnsTransactionsActive = state.dnsByKey.len
  workerId : state.workerId = start.workerId
  sessions : state.sessions.sessions = start.sessions.sessions

theorem Filed.withStats {key : DnsFlowTransactionKey} {request : DnsRequest}
    {transaction : DnsFlowTransaction}
    (h : Filed first last ephemeral start key request transaction state) {stats : FlowWorkerStats}
    (hs : stats.dnsTransactionsActive = state.stats.dnsTransactionsActive) :
    Filed first last ephemeral start key request transaction { state with stats } :=
  ⟨h.made, h.fresh, h.unused, ⟨h.leased.owner, h.leased.sessions, h.leased.ephemeral,
    h.leased.tokens, h.leased.reverse, h.leased.query⟩, h.room, h.free, h.dnsByKey, h.dnsDeadlines,
    hs.trans h.active, h.workerId, h.sessions⟩

/-- The request was turned down and answered with a SERVFAIL. -/
def TurnedDown (start : FlowWorkerState) (ioOwner : IoOwnerKey) (packet : Bytes) (flow : FlowKey)
    (config : DnsFlowConfig) (result : HandledDnsQuery) (state : FlowWorkerState) : Prop :=
  Idle start state ∧ ∃ transmit, result = .servfail transmit ∧
    dnsServfailTransmit ioOwner packet flow config = .ok transmit

/-- The end of a query that leaves no transaction, or one that is filed: its packet was
written, unless the resolver is of another family. -/
def QueryFailed (first last : UInt16) (ephemeral : SessionId → Option NatBinding)
    (start : FlowWorkerState) (key : DnsFlowTransactionKey) (request : DnsRequest)
    (state : FlowWorkerState) : Prop :=
  Idle start state ∨ ∃ transaction,
    Filed first last ephemeral start key request transaction state ∧
      ∀ r, rewriteDnsQuery request.packet transaction ≠ .ok r

theorem refuseQuery_spec {f : FlowWorkerStats → FlowWorkerStats}
    (hf : ∀ stats, (f stats).dnsTransactionsActive = stats.dnsTransactionsActive)
    (ioOwner : IoOwnerKey) {packet : Bytes} {l : Layout} {flow : FlowKey}
    (h : Carries packet l flow) (hu : flow.protocol = .udp) (config : DnsFlowConfig) :
    Act.Triple (Idle start) (refuseQuery f ioOwner packet flow config)
      (TurnedDown start ioOwner packet flow config) (Idle start) := by
  refine .bind (count_idle fun stats => hf stats) fun _ => ?_
  exact .lift_bind (dnsServfailTransmitToListen_cases h hu ioOwner config.listen).1
    (fun _ hs => hs) fun transmit ht => .pure fun _ hs => ⟨hs, transmit, rfl, ht⟩

/-- A query that gets as far as this is turned down or opens a transaction. -/
theorem openDnsTransaction_spec (hl : Leased first last ephemeral start)
    {key : DnsFlowTransactionKey} (hk : start.dnsByKey.get key = none) (request : DnsRequest)
    {l : Layout} (hc : Carries request.packet l request.flow) (hu : request.flow.protocol = .udp)
    (natNow : Instant) :
    Act.Triple (Idle start)
      (openDnsTransaction request.ioOwner request.packet request.flow key request.resolver
        request.remote request.config request.now natNow)
      (fun r s => TurnedDown start request.ioOwner request.packet request.flow request.config r s ∨
        ∃ transaction, Filed first last ephemeral start key request transaction s ∧
          rewriteDnsQuery request.packet transaction = .ok r)
      (QueryFailed first last ephemeral start key request) := by
  have hrefuse : ∀ f : FlowWorkerStats → FlowWorkerStats, (∀ stats,
      (f stats).dnsTransactionsActive = stats.dnsTransactionsActive) → Act.Triple (Idle start)
        (refuseQuery f request.ioOwner request.packet request.flow request.config)
        (fun r s =>
          TurnedDown start request.ioOwner request.packet request.flow request.config r s ∨
          ∃ transaction, Filed first last ephemeral start key request transaction s ∧
            rewriteDnsQuery request.packet transaction = .ok r)
        (QueryFailed first last ephemeral start key request) :=
    fun f hf => (refuseQuery_spec hf request.ioOwner hc hu request.config).weaken (fun _ hs => hs)
      (fun _ _ hs => .inl hs) fun _ hs => .inl hs
  refine .get fun state h => .ite
    (fun _ => .pre (fun _ hs => hs ▸ h) (hrefuse _ (by intro; rfl))) fun _ => .ite
    (fun _ => .pre (fun _ hs => hs ▸ h) (hrefuse _ (by intro; rfl))) fun hroom => ?_
  intro s hs
  rw [hs]
  have hlease := (h.framed hl).leased hl
  let token : SessionId := ⟨((1 : UInt64) <<< 63) ||| state.nextDnsToken⟩
  let issued : FlowWorkerState := { state with nextDnsToken := nextCounter state.nextDnsToken }
  rw [Act.bind_of_ok (show nextDnsSessionToken.run state = (.ok token, issued) from rfl)]
  rcases SessionTable.allocateEphemeralNat_cases hlease.sessions.toLinked token
    ⟨request.flow.source, request.resolver.ip, request.flow.sourcePort, request.resolver.port, .udp⟩
    natNow with ⟨e, quarantined, hrun⟩ | ⟨binding, nat, hrun, horig, hfree, hunused, hlink⟩
  · -- no lease: nothing was filed
    let refused : FlowWorkerState :=
      { issued with sessions := state.sessions.withQuarantined quarantined }
    have hidle : Idle start refused := by
      obtain ⟨_, hsessions⟩ := h.sessions
      refine ⟨⟨h.workerId, h.dnsByKey, h.dnsByReverse, h.dnsDeadlines, h.active⟩, quarantined, ?_⟩
      change state.sessions.withQuarantined quarantined = _
      rw [hsessions]
      rfl
    rw [← hlease.owner, Act.bind_of_ok (attempt_onSessions_fail (s := issued) hrun)]
    exact Act.Triple.ite (fun _ => hrefuse _ (by intro; rfl))
      (fun _ => .fail fun _ hs => .inl hs) refused hidle
  · let leased : FlowWorkerState := { issued with sessions := { state.sessions with nat } }
    rw [← hlease.owner, Act.bind_of_ok (attempt_onSessions_ok (s := issued) hrun)]
    have hproto : binding.translated.protocol = .udp := by
      rw [translated_protocol_of_ephemeral hlink (Function.update_self _ _ _), horig]
    have hk' : state.dnsByKey.get key = none := by rw [h.dnsByKey]; exact hk
    obtain ⟨quarantined, hsessions⟩ := h.sessions
    refine Act.Triple.bind (P := fun s => s = leased) (.modify (Q := fun _ s =>
      s = fileTransaction key (request.transaction token binding) leased)
      fun _ hs => by rw [hs]; rfl) (fun _ => ?_) leased rfl
    obtain ⟨completed, order, heq⟩ :=
      fileTransaction_eq key (request.transaction token binding) leased
    refine .bind (Q := fun _ => Filed first last ephemeral start key request
      (request.transaction token binding)) (.modify ?_) fun _ => .bind (Q := fun _ =>
        Filed first last ephemeral start key request (request.transaction token binding))
        (.modify fun _ hs => hs.withStats (by split_ifs <;> rfl)) fun _ => ?_
    · rintro _ rfl
      refine ⟨⟨state.nextDnsToken, binding, horig, rfl⟩, hfree, ?_, ?_, ?_, hk, ?_, ?_, rfl, ?_, ?_⟩
      · rw [hsessions] at hunused
        exact hunused
      · exact hlease.filed { state.sessions with nat } (request.transaction token binding) hk' hfree
          ⟨hlink, hlease.sessions.deadlines⟩ rfl ⟨hproto, l, request.flow, hc, hu⟩ _ _
      · rw [← h.dnsByKey]
        omega
      · rw [heq, ← h.dnsByKey]
      · rw [heq, ← h.dnsDeadlines]
      · rw [heq]
        exact h.workerId
      · rw [heq]
        change state.sessions.sessions = _
        rw [hsessions]
        rfl
    · refine .lift_or (rewriteDnsQuery_ne_panic _ _) (fun e s hfail hs => ?_)
        fun r s hok hs => .inr ⟨_, hs, hok⟩
      refine .inr ⟨_, hs, fun r hok => ?_⟩
      cases hok.symm.trans hfail

/-- A query that got past the size and fragment checks: its packet with the payload
size lowered, and what the clamp reported. -/
structure DnsQuery where
  ioOwner : IoOwnerKey
  packet : Bytes
  layout : Layout
  flow : FlowKey
  clamped : Option Bool
  config : DnsFlowConfig
  now : Instant

namespace DnsQuery

def payload (query : DnsQuery) : Bytes :=
  query.packet.slice (query.layout.offset + 8) query.layout.total

def client (query : DnsQuery) : SocketAddr := ⟨query.flow.source, query.flow.sourcePort⟩

def request (query : DnsQuery) (remote : Bool) : DnsRequest :=
  ⟨query.ioOwner, query.packet, query.flow, query.config, remote, query.now⟩

/-- Whether the query belongs to the remote resolver: its sections parse and its name
matches a rule. -/
def GoesRemote (query : DnsQuery) : Prop :=
  query.clamped ≠ none ∧ ∃ question, classifyQuery (ε := FlowWorkerError) query.payload
    query.config.remoteDomains = .ok (.remote question)

end DnsQuery

/-- How `packet` became `query`. -/
structure Admitted (packet : Bytes) (query : DnsQuery) : Prop where
  prepared : ∃ p, prepareForwardedPacket packet = .ok p ∧ Carries p query.layout query.flow ∧
    ednsClampPacket p = .ok (query.clamped, query.packet)
  carries : Carries query.packet query.layout query.flow
  udp : query.flow.protocol = .udp
  destination : query.flow.destination = query.config.listen.ip
  destinationPort : query.flow.destinationPort = query.config.listen.port
  question : ∃ question, parseQuestion query.payload = .ok question

/-- A query that was served: by the transaction it retransmits, or by a new one. -/
def Served (first last : UInt16) (ephemeral : SessionId → Option NatBinding)
    (start : FlowWorkerState) (query : DnsQuery) (result : HandledDnsQuery)
    (state : FlowWorkerState) : Prop :=
  ∃ dns, transactionKey (ε := FlowWorkerError) query.client query.payload = .ok dns ∧
    ((Idle start state ∧ ∃ transaction,
      start.dnsByKey.get ⟨query.ioOwner, dns⟩ = some transaction ∧
        rewriteDnsQuery query.packet transaction = .ok result) ∨
    ∃ remote transaction, (remote = true ↔ query.GoesRemote) ∧
      Filed first last ephemeral start ⟨query.ioOwner, dns⟩ (query.request remote) transaction
        state ∧
      rewriteDnsQuery query.packet transaction = .ok result)

/-- A query that failed: it left nothing, or a transaction whose packet cannot be
written because its resolver is of another family. -/
def Unserved (first last : UInt16) (ephemeral : SessionId → Option NatBinding)
    (start : FlowWorkerState) (query : DnsQuery) (state : FlowWorkerState) : Prop :=
  ∃ dns, transactionKey (ε := FlowWorkerError) query.client query.payload = .ok dns ∧
    ∃ remote, QueryFailed first last ephemeral start ⟨query.ioOwner, dns⟩ (query.request remote)
      state

/-- The route decides between the two resolvers and nothing else. -/
theorem routeDnsQuery_spec (hl : Leased first last ephemeral start) (query : DnsQuery)
    (hc : Carries query.packet query.layout query.flow) (hu : query.flow.protocol = .udp)
    (natNow : Instant) :
    Act.Triple (Idle start)
      (routeDnsQuery query.ioOwner query.packet query.payload (query.clamped = none) query.flow
        query.config query.now natNow)
      (fun r s => TurnedDown start query.ioOwner query.packet query.flow query.config r s ∨
        Served first last ephemeral start query r s)
      (Unserved first last ephemeral start query) := by
  obtain ⟨dns, hdns⟩ := transactionKey_ok (ε := FlowWorkerError) query.client query.payload
  refine .call_bind (fun hp => by cases hdns.symm.trans hp)
    (fun _ hs => ⟨dns, hdns, true, .inl hs⟩) fun found hfound => ?_
  cases hdns.symm.trans hfound
  refine .get fun state h => ?_
  cases hk : state.dnsByKey.get ⟨query.ioOwner, dns⟩ with
  | some transaction =>
    -- a retransmission meets its transaction
    have hk' : start.dnsByKey.get ⟨query.ioOwner, dns⟩ = some transaction := h.dnsByKey ▸ hk
    exact .lift (rewriteDnsQuery_ne_panic _ _)
      (fun _ hs => ⟨dns, hdns, true, .inl (hs ▸ h)⟩)
      fun _ _ hr hs => .inr ⟨dns, hdns, .inl ⟨hs ▸ h, transaction, hk', hr⟩⟩
  | none =>
    have hk' : start.dnsByKey.get ⟨query.ioOwner, dns⟩ = none := h.dnsByKey ▸ hk
    have hopen : ∀ remote : Bool, (remote = true ↔ query.GoesRemote) → Act.Triple (Idle start)
        (openDnsTransaction query.ioOwner query.packet query.flow ⟨query.ioOwner, dns⟩
          (query.request remote).resolver remote query.config query.now natNow)
        (fun r s => TurnedDown start query.ioOwner query.packet query.flow query.config r s ∨
          Served first last ephemeral start query r s)
        (Unserved first last ephemeral start query) := fun remote hremote =>
      (openDnsTransaction_spec hl hk' (query.request remote) hc hu natNow).weaken (fun _ hs => hs)
        (fun _ _ hs => hs.imp_right fun ⟨transaction, hfiled, hr⟩ =>
          ⟨dns, hdns, .inr ⟨remote, transaction, hremote, hfiled, hr⟩⟩)
        fun _ hs => ⟨dns, hdns, remote, hs⟩
    obtain ⟨route, hroute⟩ := classifyQuery_ok (ε := FlowWorkerError) query.payload
      query.config.remoteDomains
    refine .call_bind ?_ (fun _ hs => ⟨dns, hdns, true, .inl (hs ▸ h)⟩) fun chosen hchosen => ?_
    · exact ite_ne_panic (fun _ => ok_ne_panic _) fun _ => by rw [hroute]; exact ok_ne_panic _
    have hsame : ∀ s, s = state → Idle start s := fun _ hs => hs ▸ h
    -- the route is remote exactly where the remote resolver is taken
    have hgoes : query.GoesRemote ↔ ∃ question, chosen = .remote question := by
      by_cases hmal : query.clamped = none
      · simp only [hmal, decide_true, if_true, Except.ok.injEq] at hchosen
        simp [DnsQuery.GoesRemote, hmal, ← hchosen]
      · simp only [hmal, decide_false, Bool.false_eq_true, if_false] at hchosen
        simp [DnsQuery.GoesRemote, hmal, hchosen]
    cases chosen with
    | remote question => exact .pre hsame (hopen true (by simp [hgoes]))
    | «local» question => exact .pre hsame (hopen false (by simp [hgoes]))
    | localFallback =>
      exact .bind (.pre hsame (count_idle (by intro; rfl))) fun _ => hopen false (by simp [hgoes])

/-- `packet` was turned down, before the clamp or after it. -/
def Refused (start : FlowWorkerState) (ioOwner : IoOwnerKey) (packet : Bytes)
    (config : DnsFlowConfig) (result : HandledDnsQuery) (state : FlowWorkerState) : Prop :=
  ∃ p q l flow, prepareForwardedPacket packet = .ok p ∧ Carries p l flow ∧ Carries q l flow ∧
    flow.protocol = .udp ∧ flow.destination = config.listen.ip ∧
    (q = p ∨ ∃ clamped, ednsClampPacket p = .ok (clamped, q)) ∧
    TurnedDown start ioOwner q flow config result state

/-- The ends of a query that is not an error. -/
def QueryHandled (first last : UInt16) (ephemeral : SessionId → Option NatBinding)
    (start : FlowWorkerState) (ioOwner : IoOwnerKey) (packet : Bytes) (config : DnsFlowConfig)
    (now : Instant) (result : HandledDnsQuery) (state : FlowWorkerState) : Prop :=
  Refused start ioOwner packet config result state ∨ ∃ query l flow clamped,
    Admitted packet ⟨ioOwner, query, l, flow, clamped, config, now⟩ ∧
    Served first last ephemeral start ⟨ioOwner, query, l, flow, clamped, config, now⟩ result state

/-- The ends of a query that is one. -/
def QueryUnhandled (first last : UInt16) (ephemeral : SessionId → Option NatBinding)
    (start : FlowWorkerState) (ioOwner : IoOwnerKey) (packet : Bytes) (config : DnsFlowConfig)
    (now : Instant) (state : FlowWorkerState) : Prop :=
  Idle start state ∨ ∃ query l flow clamped,
    Admitted packet ⟨ioOwner, query, l, flow, clamped, config, now⟩ ∧
    Unserved first last ephemeral start ⟨ioOwner, query, l, flow, clamped, config, now⟩ state

theorem admitDnsQuery_spec (hl : Leased first last ephemeral start) (ioOwner : IoOwnerKey)
    {packet p : Bytes} {l : Layout} {flow : FlowKey} (hp : prepareForwardedPacket packet = .ok p)
    (hc : Carries p l flow) (hu : flow.protocol = .udp) {config : DnsFlowConfig}
    (hip : flow.destination = config.listen.ip) (hport : flow.destinationPort = config.listen.port)
    (now natNow : Instant) :
    Act.Triple (Idle start) (admitDnsQuery ioOwner p flow config now natNow)
      (QueryHandled first last ephemeral start ioOwner packet config now)
      (QueryUnhandled first last ephemeral start ioOwner packet config now) := by
  obtain ⟨clamped, q, hclamp, hcq⟩ := ednsClampPacket_ok hc hu
  refine .lift_bind (by rw [hclamp]; exact ok_ne_panic _) (fun _ hs => .inl hs) fun r hr => ?_
  cases hclamp.symm.trans hr
  refine .bind (count_idle fun stats => by split_ifs <;> rfl) fun _ => ?_
  refine .lift_bind (udpPayload_ne_panic q) (fun _ hs => .inl hs) fun payload hpayload => ?_
  cases (udpPayload_ok hcq hu).symm.trans hpayload
  refine .call_bind (attempt_ne_panic (parseQuestion_ne_panic _)) (fun _ hs => .inl hs)
    fun question hq => ?_
  have hrefused : ∀ r s, TurnedDown start ioOwner q flow config r s →
      QueryHandled first last ephemeral start ioOwner packet config now r s :=
    fun _ _ hs => .inl ⟨p, q, l, flow, hp, hc, hcq, hu, hip, .inr ⟨clamped, hclamp⟩, hs⟩
  rcases question with e | question
  · exact (refuseQuery_spec (by intro; rfl) ioOwner hcq hu config).weaken (fun _ hs => hs) hrefused
      fun _ hs => .inl hs
  · let query : DnsQuery := ⟨ioOwner, q, l, flow, clamped, config, now⟩
    have hadmit : Admitted packet query :=
      ⟨⟨p, hp, hc, hclamp⟩, hcq, hu, hip, hport, question, attempt_eq_ok_ok.mp hq⟩
    exact (routeDnsQuery_spec hl query hcq hu natNow).weaken (fun _ hs => hs)
      (fun r s hs => hs.elim (hrefused r s) fun hs => .inr ⟨q, l, flow, clamped, hadmit, hs⟩)
      fun _ hs => .inr ⟨q, l, flow, clamped, hadmit, hs⟩

theorem handleDnsQueryAt_spec (hl : Leased first last ephemeral start) (ioOwner : IoOwnerKey)
    (packet : Bytes) (config : DnsFlowConfig) (now natNow : Instant) :
    Act.Triple (Idle start) (handleDnsQueryAt ioOwner packet config now natNow)
      (QueryHandled first last ephemeral start ioOwner packet config now)
      (QueryUnhandled first last ephemeral start ioOwner packet config now) := by
  refine .lift_bind (prepareForwardedPacket_ne_panic packet) (fun _ hs => .inl hs) fun p hp => ?_
  refine .lift_bind (parseFlowKey_ne_panic p) (fun _ hs => .inl hs) fun flow hflow => ?_
  obtain ⟨l, hc⟩ := parseFlowKey_eq_ok.mp hflow
  refine .ite (fun _ => .fail fun _ hs => .inl hs) fun hdns => ?_
  simp only [not_or, not_not] at hdns
  obtain ⟨hu, hip, hport⟩ := hdns
  have hrefuse : Act.Triple (Idle start) (refuseQuery id ioOwner p flow config)
      (QueryHandled first last ephemeral start ioOwner packet config now)
      (QueryUnhandled first last ephemeral start ioOwner packet config now) :=
    (refuseQuery_spec (by intro; rfl) ioOwner hc hu config).weaken (fun _ hs => hs)
      (fun _ _ hs => .inl ⟨p, p, l, flow, hp, hc, hc, hu, hip, .inl rfl, hs⟩) fun _ hs => .inl hs
  refine .lift_bind (ipPacketIsFragmented_ne_panic p) (fun _ hs => .inl hs) fun _ _ => ?_
  refine .ite (fun _ => hrefuse) fun _ => ?_
  refine .lift_bind (udpPayload_ne_panic p) (fun _ hs => .inl hs) fun _ _ => ?_
  exact .ite (fun _ => hrefuse) fun _ =>
    admitDnsQuery_spec hl ioOwner hp hc hu hip hport now natNow

/-- A question that parses has its header, so the query can be answered later. -/
theorem Admitted.answerable {packet : Bytes} {query : DnsQuery} (h : Admitted packet query) :
    query.layout.offset + 20 ≤ query.layout.total ∧
      query.config.listen.ip.isV4 = query.layout.isV4 := by
  obtain ⟨question, hq⟩ := h.question
  have hlen := length_of_parseQuestion hq
  rw [DnsQuery.payload, Bytes.length_slice h.carries.layout.total_le] at hlen
  exact ⟨by omega, by rw [← h.destination]; exact h.carries.family.2⟩

theorem Filed.timely {key : DnsFlowTransactionKey} {request : DnsRequest}
    {transaction : DnsFlowTransaction}
    (h : Filed first last ephemeral start key request transaction state)
    (ht : Timely listen capacity start) (hcap : request.config.transactionCapacity = capacity)
    (hanswer : Answerable listen request.packet) : Timely listen capacity state := by
  refine ⟨?_, ?_, h.active, ?_⟩
  · rw [h.dnsDeadlines, h.dnsByKey]
    have hfile := DeadlineIndex.file_indexes ht.deadlines (k := key) (by simp [h.free])
      transaction.expiresAt
    convert hfile using 1
    funext key'
    simp only [HashMap.get_insert, Function.update_apply]
    split_ifs <;> rfl
  · have hroom := h.room
    rw [h.dnsByKey, HashMap.len_insert h.free, ← hcap]
    omega
  · intro key' transaction' hk'
    rw [h.dnsByKey, HashMap.get_insert] at hk'
    split_ifs at hk'
    · cases hk'
      obtain ⟨_, _, -, rfl⟩ := h.made
      exact hanswer
    · exact ht.answerable key' transaction' hk'

theorem handleDnsQueryAt_sound (ioOwner : IoOwnerKey) (packet : Bytes) (config : DnsFlowConfig)
    (hfit : strict → config.listen = listen ∧ config.transactionCapacity = capacity)
    (now natNow : Instant) :
    Act.Keeps (Sound first last strict listen capacity)
      (handleDnsQueryAt ioOwner packet config now natNow) := by
  intro start hsound
  obtain ⟨ephemeral, hl, ht⟩ := id hsound
  have hfiled : ∀ {query l flow clamped key remote transaction s},
      Admitted packet ⟨ioOwner, query, l, flow, clamped, config, now⟩ →
      Filed first last ephemeral start key ⟨ioOwner, query, flow, config, remote, now⟩
      transaction s → Sound first last strict listen capacity s := fun ha hf =>
    ⟨_, hf.leased, fun hs => hf.timely (ht hs) (hfit hs).2
      ⟨_, _, ha.carries, ha.udp, ha.answerable.1, (hfit hs).1 ▸ ha.answerable.2⟩⟩
  refine (handleDnsQueryAt_spec hl ioOwner packet config now natNow).weaken (fun _ hs => hs)
    ?_ ?_ start (.refl start)
  · rintro r s (⟨_, _, _, _, -, -, -, -, -, -, hidle, -⟩ |
      ⟨query, l, flow, clamped, ha, dns, -, ⟨hidle, -⟩ | ⟨remote, transaction, -, hf, -⟩⟩)
    · exact hidle.sound hsound
    · exact hidle.sound hsound
    · exact hfiled ha hf
  · rintro s (hidle | ⟨query, l, flow, clamped, ha, dns, -, remote, hidle | ⟨transaction, hf, -⟩⟩)
    · exact hidle.sound hsound
    · exact hidle.sound hsound
    · exact hfiled ha hf

end NewProxy.FlowWorkerState
