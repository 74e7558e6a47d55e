import NewProxy.RoundTrip

/-!
# Which bindings a worker holds

`Booked` names the bindings of the live sessions and of the active DNS transactions
of a worker. Every operation is described by what it books in or out and by nothing
else, which is all the reverse NAT directory has to follow.
-/
namespace NewProxy

open Outcome Packet Dns

/-- Bit 63 tells the token of a DNS transaction from the identifier of a session. -/
def SessionId.IsDnsToken (id : SessionId) : Prop := 2 ^ 63 ≤ id.value.toNat

instance : DecidablePred SessionId.IsDnsToken := fun _ => Nat.decLe _ _

/-- The transaction a query was sent for, and its lease. -/
def HandledDnsQuery.lease : HandledDnsQuery → Option (SessionId × NatBinding)
  | .local _ binding token | .remote _ binding token => some (token, binding)
  | .servfail _ => none

/-- What a worker is set up with: its ports, the listener and the number of transactions
of its DNS side, and the addresses it translates to. -/
structure Site where
  first : UInt16
  last : UInt16
  listen : SocketAddr
  capacity : ℕ
  addresses : Option (Vector UInt8 4) × Option (Vector UInt8 16)

/-- The keys of the flows that leave from an address and a port of the worker. -/
def Site.Serves (c : Site) (key : ReverseNatKey) : Prop :=
  ∃ flow, key = .fromTranslatedFlow flow ∧ (c.first ≤ flow.sourcePort ∧ flow.sourcePort ≤ c.last) ∧
    (c.addresses.1.map .v4 = some flow.source ∨ c.addresses.2.map .v6 = some flow.source)

/-- The bindings of the live sessions and the identifier of the next one. -/
structure SessionTable.Holding (c : Site) (sessions : SessionId → Option NatBinding)
    (next : UInt64) (table : SessionTable) : Prop where
  bindings : ∀ id, (table.sessions.get id).map Session.nat = sessions id
  next : table.nextSessionId = next
  addresses : table.nat.addresses = c.addresses

theorem SessionTable.holding_steady (c : Site) (sessions : SessionId → Option NatBinding)
    (next : UInt64) : Steady (Session.Same False) (Holding c sessions next) := by
  refine ⟨fun _ _ hnat h => ⟨h.bindings, h.next, hnat.trans h.addresses⟩,
    fun sessionId table before after _ h hs hsame => ⟨fun id => ?_, h.next, h.addresses⟩,
    fun table f hf h => ⟨fun id => ?_, h.next, h.addresses⟩⟩
  · rw [← h.bindings, HashMap.get_insert]
    split_ifs with hid
    · subst hid
      rw [hs, Option.map_some, Option.map_some, hsame.nat]
    · rfl
  · rw [← h.bindings, HashMap.get_mapValues, Option.map_map]
    congr 1
    funext session
    exact (hf session).nat

/-- Expiry issues no identifier and keeps the addresses. -/
theorem SessionTable.expireIdle_next {next : UInt64}
    {addresses : Option (Vector UInt8 4) × Option (Vector UInt8 16)} (caller : ℕ) (now : Instant)
    (clock : ℕ → Instant) :
    Act.Stable (fun table => table.nextSessionId = next ∧ table.nat.addresses = addresses)
      (expireIdle caller now clock) :=
  expireIdle_endable (R := fun _ _ => False) ⟨⟨fun _ _ hnat h => ⟨h.1, hnat.trans h.2⟩,
    fun _ _ _ _ _ h _ _ => h, fun _ _ _ h => h⟩, fun _ _ _ _ h => h, fun _ _ h => h⟩
    caller now clock

theorem SessionTable.getOrCreateWithFlagsAt_addresses
    {addresses : Option (Vector UInt8 4) × Option (Vector UInt8 16)} (caller : ℕ) (flow : FlowKey)
    (io : IoOwnerKey) (quicFlowId : QuicFlowId) (flags : Option UInt8) (isReverse : Bool)
    (now natNow : Instant) :
    Act.Stable (fun table => table.nat.addresses = addresses)
      (getOrCreateWithFlagsAt caller flow io quicFlowId flags isReverse now natNow) := by
  have hsteady : Steady (Session.Same False)
      fun table : SessionTable => table.nat.addresses = addresses :=
    ⟨fun _ _ hnat h => hnat.trans h, fun _ _ _ _ _ h _ _ => h, fun _ _ _ h => h⟩
  refine .bind (ensureOwner_steady caller) fun _ => .bind .get fun table => ?_
  dsimp only
  cases table.byKey.get ⟨flow, io.ifindex⟩ with
  | some sessionId =>
    exact .bind (touchTcp_steady (hsteady.replaced sessionId)
      (fun _ _ _ => ⟨rfl, rfl, fun _ => rfl⟩) caller flags isReverse now) fun _ => .pure _
  | none =>
    exact .bind (allocateAt_steady hsteady _ _ _ _) fun _ => .bind (.modify fun _ h => h)
      fun _ => .pure _

namespace FlowWorkerState

/-- The addresses a response has to be written to are of the family it comes in. -/
structure Formed (isV4 : Bool) (transaction : DnsFlowTransaction) : Prop where
  dnsVip : transaction.dnsVip.ip.isV4 = isV4
  client : transaction.client.ip.isV4 = isV4
  resolver : transaction.binding.translated.destination.isV4 = isV4

structure Booked (c : Site) (sessions transactions : SessionId → Option NatBinding) (next : UInt64)
    (state : FlowWorkerState) : Prop where
  leased : Leased c.first c.last transactions state
  timely : Timely c.listen c.capacity state
  holding : state.sessions.Holding c sessions next
  formed : ∀ key transaction, state.dnsByKey.get key = some transaction →
    Formed c.listen.ip.isV4 transaction
  tokens : ∀ token binding, transactions token = some binding → token.IsDnsToken

section Booked

variable {c : Site} {sessions transactions : SessionId → Option NatBinding} {next : UInt64}
  {start state : FlowWorkerState}

theorem Booked.sound (h : Booked c sessions transactions next state) :
    Sound c.first c.last True c.listen c.capacity state :=
  ⟨transactions, h.leased, fun _ => h.timely⟩

/-- No identifier is a session's and a transaction's. -/
theorem Booked.disjoint (h : Booked c sessions transactions next state)
    {id : SessionId} {binding : NatBinding} (hid : transactions id = some binding) :
    sessions id = none := by
  rw [← h.holding.bindings]
  cases hs : state.sessions.sessions.get id with
  | none => rfl
  | some session =>
    rw [h.leased.sessions.disjoint id session hs] at hid
    cases hid

theorem Booked.serves (h : Booked c sessions transactions next state) {id : SessionId}
    {binding : NatBinding} (hid : sessions id = some binding ∨ transactions id = some binding) :
    c.Serves (.fromTranslatedFlow binding.translated) := by
  have hlease : state.sessions.ledger transactions id =
      some ⟨binding, ⟨state.sessions.ownerWorkerId, id⟩⟩ := by
    rw [SessionTable.ledger, h.holding.bindings]
    rcases hid with hid | hid
    · rw [hid]
      rfl
    · rw [h.disjoint hid, hid]
      rfl
  have hnat := h.leased.sessions.nat
  obtain ⟨snat, hsnat, htranslated⟩ := hnat.translated id _ hlease
  refine ⟨_, rfl, hnat.leased id _ hlease, ?_⟩
  rw [htranslated, ← h.holding.addresses]
  cases hsource : binding.original.source <;> rw [hsource] at hsnat
  · exact .inl hsnat
  · exact .inr hsnat

theorem Booked.idle (h : Booked c sessions transactions next start)
    (hs : Idle start state) :
    Booked c sessions transactions next state := by
  have hf := hs.framed h.leased
  obtain ⟨quarantined, hsessions⟩ := hs.sessions
  refine ⟨hf.leased h.leased, hf.timely h.timely, ?_, by rw [hs.dnsByKey]; exact h.formed, h.tokens⟩
  rw [hsessions]
  exact ⟨h.holding.bindings, h.holding.next, h.holding.addresses⟩

/-- What leaves the DNS side alone and keeps the bindings of the sessions. -/
theorem booked_of_framed {ε α : Type} {x : Act FlowWorkerState ε α}
    (hframed : ∀ start, Act.Keeps (Framed c.first c.last transactions start) x)
    (hsteady : Act.Stable (fun s : FlowWorkerState => s.sessions.Holding c sessions next) x) :
    Act.Keeps (Booked c sessions transactions next) x := by
  intro start h
  have hends := hframed start start h.leased.framed
  have hhold := hsteady start h.holding
  have hbooked : ∀ s, Framed c.first c.last transactions start s →
      s.sessions.Holding c sessions next → Booked c sessions transactions next s := fun s hf hh =>
    ⟨hf.leased h.leased, hf.timely h.timely, hh, by rw [hf.dnsByKey]; exact h.formed, h.tokens⟩
  rcases hr : x.run start with ⟨(e | _) | a, s⟩ <;> rw [hr] at hends hhold
  · exact hbooked s hends hhold
  · exact hends
  · exact hbooked s hends hhold

/-! ## Sessions -/

theorem handleReverseForInner_booked (packet : Bytes) (locator : SessionLocator)
    (observed : Option IoOwnerKey) (now : Instant) :
    Act.Keeps (Booked c sessions transactions next)
      (handleReverseForInner packet locator observed now) :=
  booked_of_framed (fun _ => handleReverseForInner_keeps packet locator observed now)
    (handleReverseForInner_frame (steady_returnable (SessionTable.holding_steady c sessions next) _
      (fun h => h.elim)) packet now)

theorem handleReverse_booked (packet : Bytes) (now : Instant) :
    Act.Keeps (Booked c sessions transactions next)
      (handleReverse packet now) :=
  booked_of_framed (fun _ => handleReverse_keeps packet now)
    (handleReverse_frame (fun id => steady_returnable
      (SessionTable.holding_steady c sessions next) id (fun h => h.elim)) packet now)

theorem rebindQuicFlow_booked (oldId newId : QuicFlowId) :
    Act.Keeps (Booked c sessions transactions next)
      (rebindQuicFlow oldId newId) :=
  booked_of_framed (fun _ => rebindQuicFlow_keeps oldId newId)
    (rebindQuicFlow_steady (SessionTable.holding_steady c sessions next) oldId newId)

/-- A session is used again, or opened under the next identifier. -/
def Enters (sessions transactions : SessionId → Option NatBinding) (next next' : UInt64)
    (id : SessionId) (binding : NatBinding) : Prop :=
  sessions id = some binding ∧ next' = next ∨
    sessions id = none ∧ transactions id = none ∧ id = ⟨next⟩ ∧ next' = next + 1

theorem Booked.withSessions
    (h : Booked c sessions transactions next start) {table : SessionTable}
    (hco : table.Coherent c.first c.last transactions)
    (ho : table.ownerWorkerId = start.sessions.ownerWorkerId)
    {sessions' : SessionId → Option NatBinding} {next' : UInt64}
    (hh : table.Holding c sessions' next') :
    Booked c sessions' transactions next' { start with sessions := table } :=
  have hf := h.leased.framed.withSessions hco ho
  ⟨hf.leased h.leased, hf.timely h.timely, hh, h.formed, h.tokens⟩

theorem openSession_decides (h : Booked c sessions transactions next start) (flow : FlowKey)
    (io : IoOwnerKey) (quicFlowId : QuicFlowId) (flags : Option UInt8) (now natNow : Instant) :
    Act.Triple (fun s => s = start) (openSession flow io quicFlowId flags now natNow)
      (fun id s => start.sessions.Admits flow io natNow ∧
        ∃ binding next', Enters sessions transactions next next' id binding ∧
          Booked c (Function.update sessions id (some binding)) transactions next' s ∧
          ∃ session, s.sessions.get id = some session ∧ session.original = flow)
      (fun s => ¬ start.sessions.Admits flow io natNow ∧
        Booked c sessions transactions next s) := by
  rintro _ rfl
  rename_i start
  rw [openSession, Act.bind_of_ok (Act.run_get start), ← h.leased.owner]
  rcases SessionTable.getOrCreateWithFlagsAt_cases h.leased.sessions.toLinked flow io quicFlowId
    flags false now natNow with ⟨e, quarantined, hno, hrun⟩ | ⟨id, session, hs, hkey, hrun⟩ |
      ⟨session, nat, hfree, hroom, ho, hrun⟩
  · -- no lease
    rw [Act.bind_of_ok (attempt_onSessions_fail hrun)]
    exact Act.Triple.ite (fun _ => .bind
      (Q := fun _ => Booked c sessions transactions next)
      (.modify fun s hs => hs.idle ⟨⟨rfl, rfl, rfl, rfl, rfl⟩, s.sessions.nat.quarantined, rfl⟩)
      fun _ => .fail fun _ hs => ⟨hno, hs⟩) (fun _ => .fail fun _ hs => ⟨hno, hs⟩) _
      (h.idle ⟨⟨rfl, rfl, rfl, rfl, rfl⟩, quarantined, rfl⟩)
  · rw [Act.bind_of_ok (attempt_onSessions_ok hrun)]
    have hknown := (h.leased.sessions.byKey _ _).mpr ⟨session, hs, hkey⟩
    have hbinding : sessions id = some session.nat := by
      rw [← h.holding.bindings, hs]
      rfl
    refine ⟨.inl (by rw [hknown]; exact Option.some_ne_none id), session.nat, next,
      .inl ⟨hbinding, rfl⟩, ?_, _, (HashMap.get_insert _ _ _ _).trans (if_pos rfl),
      congrArg SessionKey.original hkey⟩
    rw [← hbinding, Function.update_eq_self]
    exact h.withSessions (h.leased.sessions.retimed hs flags false now) rfl
      ((SessionTable.holding_steady c sessions next).replaced _ _ _ _ _ h.holding hs
        ⟨rfl, rfl, fun _ => rfl⟩)
  · rw [Act.bind_of_ok (attempt_onSessions_ok hrun)]
    obtain ⟨hunused, hnone⟩ := h.leased.sessions.toLinked.free ho.free
    have haddresses :=
      SessionTable.getOrCreateWithFlagsAt_addresses start.sessions.ownerWorkerId flow
      io quicFlowId flags false now natNow start.sessions h.holding.addresses
    rw [hrun] at haddresses
    refine ⟨.inr hroom, session.nat, next + 1, .inr ⟨?_, hnone, ?_, rfl⟩, h.withSessions
      (h.leased.sessions.opened ho hfree) rfl ⟨fun id => ?_, ?_, haddresses⟩, session,
      (HashMap.get_insert _ _ _ _).trans (if_pos rfl), ho.original⟩
    · rw [← h.holding.bindings, hunused]
      rfl
    · rw [ho.id, h.holding.next]
    · rw [SessionTable.opened, HashMap.get_insert, Function.update_apply, ← h.holding.bindings]
      split_ifs <;> rfl
    · rw [← h.holding.next]
      rfl

/-- What it takes for a packet to be passed on outwards. -/
structure TakesIn (state : FlowWorkerState) (io : IoOwnerKey) (packet : Bytes) (quicFlow : QuicFlow)
    (natNow : Instant) : Prop where
  owner : quicFlow.flowWorkerId = state.workerId
  admits : ∃ flow, Forwardable packet flow ∧ state.sessions.Admits flow io natNow

theorem forwardInner_decides (h : Booked c sessions transactions next start) (io : IoOwnerKey)
    (packet : Bytes) (quicFlow : QuicFlow) (target : Session → IoOwnerKey) (now natNow : Instant) :
    Act.Triple (fun s => s = start) (forwardInner io packet quicFlow target now natNow)
      (fun handled s => start.TakesIn io packet quicFlow natNow ∧ ∃ binding next',
        Enters sessions transactions next next' handled.sessionId binding ∧
        Booked c (Function.update sessions handled.sessionId (some binding)) transactions next' s)
      (fun s => ¬ start.TakesIn io packet quicFlow natNow ∧
        Booked c sessions transactions next s) := by
  refine .get fun _ hstart => ?_
  subst hstart
  rename_i start
  refine .ite (fun hne => .fail fun s hs => ⟨fun ht => hne ht.owner, hs ▸ h⟩) fun howner => ?_
  -- a flow is forwardable only as the one that is parsed here
  have hparsed : ∀ {f}, Forwardable packet f → ∃ p, prepareForwardedPacket packet = .ok p ∧
    parseFlowKey p = .ok f := forwardable_iff.mp
  refine .lift_bind_or (prepareForwardedPacket_ne_panic packet) (fun e s hfail hs => ⟨?_, hs ▸ h⟩)
    fun p hp => ?_
  · rintro ⟨-, f, hf, -⟩
    obtain ⟨_, hok, -⟩ := hparsed hf
    cases hfail.symm.trans hok
  refine .lift_bind_or (parseFlowKey_ne_panic p) (fun e s hfail hs => ⟨?_, hs ▸ h⟩)
    fun flow hflow => ?_
  · rintro ⟨-, f, hf, -⟩
    obtain ⟨_, hok, hok'⟩ := hparsed hf
    cases hp.symm.trans hok
    cases hfail.symm.trans hok'
  obtain ⟨_, hcp⟩ := parseFlowKey_eq_ok.mp hflow
  obtain ⟨_, _, hclamps, -⟩ := clampTcpMss_ok hcp tcpMaxSafeMss
  refine .lift_bind_or (clampTcpMss_ne_panic _ _) (fun e s hfail _ => by
    cases hclamps.symm.trans hfail) fun clamped hclamp => ?_
  obtain ⟨l, hc⟩ := clamp_carries hflow hclamp
  refine .lift_bind_or (by rw [parseTcpFlags_ok hc]; exact ok_ne_panic _) (fun e s hfail _ => by
    cases (parseTcpFlags_ok hc).symm.trans hfail) fun tcpFlags _ => ?_
  refine .bind ((openSession_decides h flow io quicFlow.id tcpFlags now natNow).weaken
    (fun _ hs => hs) (fun _ _ hs => hs) fun s hs => ⟨?_, hs.2⟩) fun sessionId => ?_
  · rintro ⟨-, f, hf, hadmits⟩
    obtain ⟨_, hok, hok'⟩ := hparsed hf
    cases hp.symm.trans hok
    cases hflow.symm.trans hok'
    exact hs.1 hadmits
  refine .get fun state hstate => ?_
  obtain ⟨hadmits, binding, next', henters, hbooked, session, hs, horig⟩ := hstate
  -- the packet is of the family of its session, so nothing fails once the session is there
  obtain ⟨snat, port, hfam, htr⟩ := translated_eq hbooked.leased.sessions hs
  rw [horig] at hfam htr
  obtain ⟨q, hq, -⟩ := rewritePacket_ok hc (t := NatTable.translate flow snat port) rfl
    (hfam.trans hc.family.1) hc.family.2 hc.allowed
  have hrewrite : (rewritePacket session.nat.translated).exec clamped.2 = .ok q := by
    rw [htr]
    exact Act.exec_eq_ok.mpr ⟨(), hq⟩
  intro t ht
  subst ht
  simp only [hs]
  refine Act.Triple.expect_bind (P := fun s => s = t) ?_ t rfl
  refine .lift_bind_or (by rw [hrewrite]; exact ok_ne_panic _)
    (fun e s hfail _ => by cases hrewrite.symm.trans hfail) fun _ _ => .pure fun s hs => ?_
  rw [hs]
  exact ⟨⟨not_not.mp howner, flow, forwardable_iff.mpr ⟨p, hp, hflow⟩, hadmits⟩, binding, next',
    henters, hbooked⟩

theorem forwardInner_booked (io : IoOwnerKey) (packet : Bytes) (quicFlow : QuicFlow)
    (target : Session → IoOwnerKey) (now natNow : Instant) :
    Act.Triple (Booked c sessions transactions next)
      (forwardInner io packet quicFlow target now natNow)
      (fun handled s => ∃ binding next',
        Enters sessions transactions next next' handled.sessionId binding ∧
        Booked c (Function.update sessions handled.sessionId (some binding)) transactions next' s)
      (Booked c sessions transactions next) := fun start h =>
  (forwardInner_decides h io packet quicFlow target now natNow).weaken (fun _ hs => hs)
    (fun _ _ hs => hs.2) (fun _ hs => hs.2) start rfl

theorem removeSession_booked (id : SessionId) (natNow : Instant) :
    Act.Triple (Booked c sessions transactions next)
      (removeSession id natNow)
      (fun session s => sessions id = some session.nat ∧
        Booked c (Function.update sessions id none) transactions next s)
      (fun s => sessions id = none ∧
        Booked c sessions transactions next s) := by
  refine .get fun _ h start hstart => ?_
  subst hstart
  rw [← h.leased.owner]
  apply onSessions_ends
  cases hs : start.sessions.sessions.get id with
  | none =>
    rw [SessionTable.remove_unknown hs natNow]
    exact ⟨by rw [← h.holding.bindings, hs]; rfl, h⟩
  | some session =>
    rw [SessionTable.remove_ok h.leased.sessions.toLinked hs natNow]
    refine ⟨by rw [← h.holding.bindings, hs]; rfl, h.withSessions
      (h.leased.sessions.dropped hs natNow) rfl
      ⟨fun id' => ?_, h.holding.next, h.holding.addresses⟩⟩
    rw [SessionTable.dropped, HashMap.get_remove, Function.update_apply, ← h.holding.bindings]
    split_ifs <;> rfl

/-- The bindings without those of the listed identifiers. -/
def without (bindings : SessionId → Option NatBinding) (ids : List SessionId) (id : SessionId) :
    Option NatBinding :=
  if id ∈ ids then none else bindings id

theorem expireIdleSessions_booked (now : Instant) (clock : ℕ → Instant) :
    Act.Triple (Booked c sessions transactions next)
      (expireIdleSessions now clock)
      (fun expired s => (∀ session ∈ expired, sessions session.id = some session.nat) ∧
        Booked c (without sessions (expired.map Session.id)) transactions
          next s)
      (fun _ => False) := by
  refine .get fun _ h start hstart => ?_
  subst hstart
  obtain ⟨expired, table, hrun, hco, -, hmem, hget, ho⟩ :=
    SessionTable.expireIdle_ok h.leased.sessions now clock
  rw [← h.leased.owner]
  apply onSessions_ends
  rw [hrun]
  have hnext := SessionTable.expireIdle_next start.sessions.ownerWorkerId now clock start.sessions
    ⟨h.holding.next, h.holding.addresses⟩
  rw [hrun] at hnext
  refine ⟨fun session hs => ?_, h.withSessions hco ho ⟨fun id => ?_, hnext.1, hnext.2⟩⟩
  · rw [← h.holding.bindings, ((hmem session).mp hs).1]
    rfl
  · rw [without, hget, ← h.holding.bindings]
    cases hs : start.sessions.sessions.get id with
    | none => simp
    | some session =>
      have hid := (h.leased.sessions.session id session hs).1
      have hin : id ∈ expired.map Session.id ↔ session.expiresAt ≤ now := by
        constructor
        · rintro hin
          obtain ⟨other, hother, rfl⟩ := List.mem_map.mp hin
          obtain ⟨hs', hle⟩ := (hmem other).mp hother
          rw [hs, Option.some_inj] at hs'
          exact hs' ▸ hle
        · intro hle
          exact List.mem_map.mpr ⟨session, (hmem session).mpr ⟨hid ▸ hs, hle⟩, hid⟩
      simp only [Option.filter_some, hin]
      by_cases hle : session.expiresAt ≤ now
      · simp [hle, Nat.not_lt.mpr hle]
      · simp [hle, Nat.lt_of_not_le hle]

/-! ## DNS transactions -/

/-- The lease of a transaction translates its query to an address of its own family. -/
theorem Leased.translated_eq (h : Leased c.first c.last transactions state) {token : SessionId}
    {binding : NatBinding} (ht : transactions token = some binding) :
    ∃ snat port, snat.isV4 = binding.original.source.isV4 ∧
      binding.translated = NatTable.translate binding.original snat port :=
  h.sessions.nat.translated_family (h.sessions.toLinked.ledger_ephemeral ht).2

theorem isDnsToken_or (counter : UInt64) :
    SessionId.IsDnsToken ⟨((1 : UInt64) <<< 63) ||| counter⟩ := by
  rw [SessionId.IsDnsToken, UInt64.toNat_or]
  exact Nat.left_le_or

section Filing

variable {key : DnsFlowTransactionKey} {request : DnsRequest} {transaction : DnsFlowTransaction}
  {l : Layout}

/-- Query, listener and resolver are of one family. -/
structure Familiar (listen : SocketAddr) (l : Layout) (request : DnsRequest) : Prop where
  carries : Carries request.packet l request.flow
  udp : request.flow.protocol = .udp
  listen : listen.ip.isV4 = l.isV4
  resolver : request.resolver.ip.isV4 = l.isV4

/-- The tuple a query is sent on. -/
theorem Filed.translated (h : Filed c.first c.last transactions start key request transaction state)
    (hf : Familiar c.listen l request) :
    ∃ snat port, snat.isV4 = l.isV4 ∧ transaction.binding.translated =
      ⟨snat, request.resolver.ip, port, request.resolver.port, .udp⟩ := by
  obtain ⟨snat, port, hsnat, htr⟩ := h.leased.translated_eq (Function.update_self _ _ _)
  obtain ⟨counter, binding, horig, rfl⟩ := h.made
  rw [show (request.transaction _ binding).binding.original = request.original from horig]
    at hsnat htr
  exact ⟨snat, port, hsnat.trans hf.carries.family.1, htr⟩

theorem Filed.written (h : Filed c.first c.last transactions start key request transaction state)
    (hf : Familiar c.listen l request) :
    ∃ r, rewriteDnsQuery request.packet transaction = .ok r := by
  obtain ⟨snat, port, hsnat, htr⟩ := h.translated hf
  obtain ⟨q, hq, -⟩ := rewritePacket_ok hf.carries (t := transaction.binding.translated)
    (by rw [htr, hf.udp]) (by rw [htr]; exact hsnat) (by rw [htr]; exact hf.resolver)
    (by rw [htr]; trivial)
  rw [rewriteDnsQuery, Act.exec_eq_ok.mpr ⟨(), hq⟩, bind_ok]
  split_ifs <;> exact ⟨_, rfl⟩

theorem Booked.filed (h : Booked c sessions transactions next start)
    (hf : Filed c.first c.last transactions start key request transaction state)
    (hfam : Familiar c.listen l request) (hlisten : request.config.listen = c.listen)
    (hcap : request.config.transactionCapacity = c.capacity) (hlong : l.offset + 20 ≤ l.total)
    (hholding : state.sessions.Holding c sessions next) :
    Booked c sessions
      (Function.update transactions transaction.token (some transaction.binding)) next state := by
  refine ⟨hf.leased, ?_, hholding, fun key' transaction' hk' => ?_, fun token binding ht => ?_⟩
  · exact hf.timely h.timely hcap ⟨l, request.flow, hfam.carries, hfam.udp, hlong, hfam.listen⟩
  · rw [hf.dnsByKey, HashMap.get_insert] at hk'
    split_ifs at hk'
    · cases hk'
      obtain ⟨snat, port, -, htr⟩ := hf.translated hfam
      obtain ⟨counter, binding, -, rfl⟩ := hf.made
      exact ⟨by rw [← hlisten]; rfl, hfam.carries.family.1.trans hfam.listen.symm,
        by rw [htr, hfam.listen]; exact hfam.resolver⟩
    · exact h.formed key' transaction' hk'
  · rw [Function.update_apply] at ht
    split_ifs at ht with hc
    · obtain ⟨counter, binding, -, rfl⟩ := hf.made
      rw [hc]
      exact isDnsToken_or counter
    · exact h.tokens token binding ht

end Filing

/-- A configuration with the listener and the capacity of a worker, and with resolvers
of the listener's family. -/
structure Fits (c : Site) (config : DnsFlowConfig) : Prop where
  listen : config.listen = c.listen
  capacity : config.transactionCapacity = c.capacity
  localResolver : config.localResolver.ip.isV4 = c.listen.ip.isV4
  remoteResolver : config.remoteResolver.ip.isV4 = c.listen.ip.isV4

theorem Fits.familiar {config : DnsFlowConfig} (h : Fits c config) {packet : Bytes}
    {query : DnsQuery} (hconfig : query.config = config) (ha : Admitted packet query)
    (remote : Bool) : Familiar c.listen query.layout (query.request remote) := by
  have hlisten : c.listen.ip.isV4 = query.layout.isV4 := by
    rw [← ha.answerable.2, hconfig, h.listen]
  refine ⟨ha.carries, ha.udp, hlisten, ?_⟩
  rw [← hlisten, DnsRequest.resolver, show (query.request remote).config = config from hconfig]
  split_ifs
  · exact h.remoteResolver
  · exact h.localResolver

theorem rewriteDnsQuery_lease {packet : Bytes} {transaction : DnsFlowTransaction}
    {r : HandledDnsQuery} (h : rewriteDnsQuery packet transaction = .ok r) :
    r.lease = some (transaction.token, transaction.binding) := by
  obtain ⟨q, -, hr⟩ := bind_eq_ok.mp h
  split_ifs at hr <;> cases hr <;> rfl

/-- A query books its transaction in, unless it is turned down. -/
theorem handleDnsQueryAt_booked (ioOwner : IoOwnerKey) (packet : Bytes) {config : DnsFlowConfig}
    (hfits : Fits c config) (now natNow : Instant) :
    Act.Triple (Booked c sessions transactions next)
      (handleDnsQueryAt ioOwner packet config now natNow)
      (fun r s => match r.lease with
        | none => Booked c sessions transactions next s
        | some (token, binding) =>
          (transactions token = some binding ∨ transactions token = none ∧ sessions token = none) ∧
          Booked c sessions
            (Function.update transactions token (some binding)) next s)
      (Booked c sessions transactions next) := by
  intro start h
  refine ((handleDnsQueryAt_spec h.leased ioOwner packet config now natNow).and_stable
    (handleDnsQueryAt_steady (SessionTable.holding_steady c sessions next) ioOwner packet config now
      natNow)).weaken (fun _ hs => hs) ?_ ?_ start ⟨.refl start, h.holding⟩
  · rintro r s ⟨hr | ⟨query, l, flow, clamped, ha, dns, -, hserved⟩, hhold⟩
    · obtain ⟨_, _, _, _, -, -, -, -, -, -, hidle, transmit, rfl, -⟩ := hr
      exact h.idle hidle
    rcases hserved with ⟨hidle, transaction, hk, hr⟩ | ⟨remote, transaction, -, hf, hr⟩
    · have ht := h.leased.ephemeral_of_get hk
      rw [rewriteDnsQuery_lease hr]
      refine ⟨.inl ht, ?_⟩
      rw [← ht, Function.update_eq_self]
      exact h.idle hidle
    · rw [rewriteDnsQuery_lease hr]
      refine ⟨.inr ⟨hf.fresh, ?_⟩, h.filed hf (hfits.familiar rfl ha remote) hfits.listen
        hfits.capacity ha.answerable.1 hhold⟩
      rw [← h.holding.bindings, hf.unused]
      rfl
  · rintro s ⟨hidle | ⟨query, l, flow, clamped, ha, dns, -, remote,
      hidle | ⟨transaction, hf, hno⟩⟩, -⟩
    · exact h.idle hidle
    · exact h.idle hidle
    · -- a resolver of the listener's family can be written to
      obtain ⟨r, hr⟩ := hf.written (hfits.familiar rfl ha remote)
      exact absurd hr (hno r)

theorem Booked.ended (h : Booked c sessions transactions next start)
    {key : DnsFlowTransactionKey} {transaction : DnsFlowTransaction}
    (hk : start.dnsByKey.get key = some transaction) (natNow : Instant) :
    Booked c sessions
      (Function.update transactions transaction.token none) next
      (start.ended key transaction natNow) := by
  refine ⟨(removeDnsTransaction_ok h.leased hk FlowWorkerError.session natNow).2,
    h.timely.closed hk _, ⟨h.holding.bindings, h.holding.next, h.holding.addresses⟩,
    fun key' transaction' hk' => ?_, fun token binding ht => ?_⟩
  · rw [show (start.ended key transaction natNow).dnsByKey.get key' = _ from
      HashMap.get_remove _ _ _] at hk'
    split_ifs at hk'
    exact h.formed key' transaction' hk'
  · rw [Function.update_apply] at ht
    split_ifs at ht
    exact h.tokens token binding ht

/-- A response that matched can be written: all its addresses are of one family. -/
theorem Booked.answers (h : Booked c sessions transactions next start)
    {packet p payload : Bytes} {key : DnsFlowTransactionKey} {transaction : DnsFlowTransaction}
    (hm : Matched start packet p payload key transaction) :
    ∃ response, Answers p payload transaction response := by
  have hformed := h.formed key transaction hm.held
  by_cases hlong : payload.length ≤ dnsPayloadMax
  · obtain ⟨l, hc⟩ := parseFlowKey_eq_ok.mp hm.flow
    have hl : l.isV4 = c.listen.ip.isV4 := by
      rw [← hformed.resolver, ← hc.family.1]
      rfl
    obtain ⟨q, hq, -⟩ := rewritePacket_ok hc (t := ⟨transaction.dnsVip.ip, transaction.client.ip,
      transaction.dnsVip.port, transaction.client.port, .udp⟩)
      (h.leased.query key transaction hm.held).1.symm (hformed.dnsVip.trans hl.symm)
      (hformed.client.trans hl.symm) trivial
    exact ⟨⟨transaction.localTarget, q, transaction.binding, transaction.token⟩, rfl, rfl, rfl,
      .inl ⟨hlong, Act.exec_eq_ok.mpr ⟨(), hq⟩⟩⟩
  · obtain ⟨l, f, hc, hu, hroom, hfam⟩ := h.timely.answerable key transaction hm.held
    obtain ⟨q, hq, -⟩ := (dnsServfailTransmitToListen_cases hc hu transaction.localTarget
      transaction.dnsVip).2 hroom (hformed.dnsVip.trans hfam)
    exact ⟨⟨transaction.localTarget, q, transaction.binding, transaction.token⟩, rfl, rfl, rfl,
      .inr ⟨Nat.lt_of_not_le hlong, f, parseFlowKey_eq_ok.mpr ⟨l, hc⟩, hq⟩⟩

theorem handleDnsResponse_booked (packet : Bytes) (natNow : Instant) :
    Act.Triple (Booked c sessions transactions next)
      (handleDnsResponse packet natNow)
      (fun response s => match response with
        | none => Booked c sessions transactions next s
        | some response => transactions response.transactionId = some response.binding ∧
          sessions response.transactionId = none ∧
          Booked c sessions
            (Function.update transactions response.transactionId none) next s)
      (Booked c sessions transactions next) := by
  intro start h
  refine (handleDnsResponse_spec h.leased packet natNow).weaken (fun _ hs => hs) ?_ ?_ start
    (.refl start)
  · rintro (_ | response) s hs
    · exact h.idle hs.idle
    · obtain ⟨p, payload, key, transaction, hm, hs, ha⟩ := hs
      dsimp only
      rw [ha.binding, ha.transactionId]
      have ht := h.leased.ephemeral_of_get hm.held
      exact ⟨ht, h.disjoint ht, (h.ended hm.held natNow).idle hs.of_answered.idle⟩
  · rintro s (hs | ⟨p, payload, key, transaction, hm, hs, hno⟩)
    · exact h.idle hs.idle
    · obtain ⟨response, hr⟩ := h.answers hm
      exact absurd hr (hno response)

theorem servfailForTransaction_names {transaction : DnsFlowTransaction} {config : DnsFlowConfig}
    {answer : ExpiredDnsTransaction} (h : servfailForTransaction transaction config = .ok answer) :
    answer.binding = transaction.binding ∧ answer.transactionId = transaction.token := by
  obtain ⟨flow, -, h⟩ := bind_eq_ok.mp h
  obtain ⟨transmit, -, h⟩ := bind_eq_ok.mp h
  cases h
  exact ⟨rfl, rfl⟩

/-- An abort finds the transaction of a binding that is booked. -/
theorem abortDnsTransaction_booked {token : SessionId} {binding : NatBinding}
    (ht : transactions token = some binding) {config : DnsFlowConfig}
    (hlisten : config.listen = c.listen) (natNow : Instant) :
    Act.Triple (Booked c sessions transactions next)
      (abortDnsTransaction binding config natNow)
      (fun aborted s => aborted.isSome ∧ Booked c sessions (Function.update transactions token none)
        next s)
      (fun _ => False) := by
  intro start h
  refine (abortDnsTransaction_spec h.leased binding config natNow).weaken
    (fun _ hs => hs) ?_ ?_ start (.refl start)
  · rintro (_ | aborted) s hs
    · obtain ⟨key, transaction, hk, -, rfl⟩ := (h.leased.ephemeral token binding).mp ht
      rw [(h.leased.reverse _ key).mpr ⟨transaction, hk, rfl⟩] at hs
      cases hs.2
    · obtain ⟨key, transaction, hk, hrev, hs, -⟩ := hs
      rw [token_eq_of_reverse h.leased.sessions ht (h.leased.ephemeral_of_get hk) hrev.symm]
      exact ⟨rfl, (h.ended hk natNow).idle hs.idle⟩
  · rintro s ⟨key, transaction, hk, hs, hno⟩
    obtain ⟨packet, hp, -⟩ := servfailForTransaction_ok (closing_nil.mpr h.timely) hk hlisten
    exact hno _ hp

/-- The transactions that `answers` close are booked out. -/
structure BookedOut (c : Site) (sessions transactions : SessionId → Option NatBinding)
    (next : UInt64) (answers : List ExpiredDnsTransaction) (state : FlowWorkerState) : Prop where
  held : ∀ answer ∈ answers, transactions answer.transactionId = some answer.binding ∧
    sessions answer.transactionId = none
  left : Booked c sessions
    (without transactions (answers.map ExpiredDnsTransaction.transactionId)) next state

theorem Settled.names {config : DnsFlowConfig}
    {held : DnsFlowTransactionKey → Option DnsFlowTransaction} {keys : List DnsFlowTransactionKey}
    {answers : List ExpiredDnsTransaction} (hs : Settled config held keys answers state)
    (hnodup : keys.Nodup) {answer : ExpiredDnsTransaction} (hmem : answer ∈ answers) :
    ∃ key ∈ keys, ∃ transaction, held key = some transaction ∧
      answer.binding = transaction.binding ∧ answer.transactionId = transaction.token := by
  have hok : (.ok answer : Outcome PacketError ExpiredDnsTransaction) ∈ answers.map .ok :=
    List.mem_map_of_mem hmem
  rw [← hs.answers hnodup, List.mem_map] at hok
  obtain ⟨transaction, htr, hserv⟩ := hok
  obtain ⟨key, hkey, hk⟩ := List.mem_filterMap.mp htr
  exact ⟨key, hkey, transaction, hk, servfailForTransaction_names hserv⟩

theorem Booked.closed_iff (h : Booked c sessions transactions next start)
    {config : DnsFlowConfig} {keys : List DnsFlowTransactionKey} (hnodup : keys.Nodup)
    {answers : List ExpiredDnsTransaction}
    (hs : Settled config start.dnsByKey.get keys answers state) {key : DnsFlowTransactionKey}
    {transaction : DnsFlowTransaction} (hk : start.dnsByKey.get key = some transaction) :
    transaction.token ∈ answers.map ExpiredDnsTransaction.transactionId ↔ key ∈ keys := by
  constructor
  · intro hmem
    obtain ⟨answer, hin, htoken⟩ := List.mem_map.mp hmem
    obtain ⟨key', hkey', transaction', hk', -, htoken'⟩ := hs.names hnodup hin
    rw [h.leased.tokens key key' transaction transaction' hk hk' (htoken.symm.trans htoken')]
    exact hkey'
  · intro hkey
    have hserv := List.mem_map_of_mem (f := (servfailForTransaction · config))
      (List.mem_filterMap.mpr ⟨key, hkey, hk⟩)
    rw [hs.answers hnodup, List.mem_map] at hserv
    obtain ⟨answer, hin, hok⟩ := hserv
    exact List.mem_map.mpr ⟨answer, hin, (servfailForTransaction_names hok.symm).2⟩

theorem Booked.settled (h : Booked c sessions transactions next start)
    {config : DnsFlowConfig} {keys : List DnsFlowTransactionKey} (hnodup : keys.Nodup)
    {answers : List ExpiredDnsTransaction}
    (hs : Settled config start.dnsByKey.get keys answers state)
    (hsound : Sound c.first c.last True c.listen c.capacity state)
    (hholding : state.sessions.Holding c sessions next) :
    BookedOut c sessions transactions next answers state := by
  obtain ⟨ephemeral, hl, ht⟩ := hsound
  have hleft : ephemeral =
      without transactions (answers.map ExpiredDnsTransaction.transactionId) := by
    funext token
    refine Option.ext fun binding => ?_
    rw [hl.ephemeral, without]
    constructor
    · rintro ⟨key, transaction, hk, rfl, rfl⟩
      rw [hs.dnsByKey] at hk
      split_ifs at hk with hkey
      rw [if_neg (mt (h.closed_iff hnodup hs hk).mp hkey)]
      exact h.leased.ephemeral_of_get hk
    · intro htoken
      split_ifs at htoken with hmem
      obtain ⟨key, transaction, hk, rfl, rfl⟩ := (h.leased.ephemeral token binding).mp htoken
      exact ⟨key, transaction, by
        rw [hs.dnsByKey, if_neg (mt (h.closed_iff hnodup hs hk).mpr hmem), hk], rfl, rfl⟩
  subst hleft
  refine ⟨fun answer hmem => ?_, hl, ht trivial, hholding, fun key transaction hk => ?_,
    fun token binding htoken => ?_⟩
  · obtain ⟨key, -, transaction, hk, hb, htoken⟩ := hs.names hnodup hmem
    rw [hb, htoken]
    have hheld := h.leased.ephemeral_of_get hk
    exact ⟨hheld, h.disjoint hheld⟩
  · rw [hs.dnsByKey] at hk
    split_ifs at hk
    exact h.formed key transaction hk
  · rw [without] at htoken
    split_ifs at htoken
    exact h.tokens token binding htoken

theorem expireDnsTransactions_booked (now : Instant) {config : DnsFlowConfig}
    (hlisten : config.listen = c.listen) (clock : ℕ → Instant) :
    Act.Triple (Booked c sessions transactions next) (expireDnsTransactions now config clock)
      (BookedOut c sessions transactions next) (fun _ => False) := by
  intro start h
  refine ((expireDnsTransactions_spec now (fun _ : True => hlisten) clock
    start.dnsByKey.get).and_stable (expireDnsTransactions_frame (steady_closable
      (SessionTable.holding_steady c sessions next)) now config clock)).weaken (fun _ hs => hs)
    ?_ ?_ start ⟨⟨h.sound, rfl⟩, h.holding⟩
  · rintro answers s ⟨⟨hsound, hsettled⟩, hhold⟩
    obtain ⟨keys, hnodup, -, hs⟩ := hsettled trivial
    exact h.settled hnodup hs hsound hhold
  · rintro s ⟨⟨hno, -⟩, -⟩
    exact hno trivial

/-- Every remote transaction is booked out. -/
theorem abortRemoteDnsTransactions_booked {config : DnsFlowConfig}
    (hlisten : config.listen = c.listen) (clock : ℕ → Instant) :
    Act.Triple (Booked c sessions transactions next) (abortRemoteDnsTransactions config clock)
      (BookedOut c sessions transactions next) (fun _ => False) := by
  intro start h
  refine ((abortRemoteDnsTransactions_spec (fun _ : True => hlisten) clock
    start.dnsByKey.get).and_stable (abortRemoteDnsTransactions_frame (steady_closable
      (SessionTable.holding_steady c sessions next)) config clock)).weaken (fun _ hs => hs)
    ?_ ?_ start ⟨⟨h.sound, rfl⟩, h.holding⟩
  · rintro answers s ⟨⟨hsound, keys, hnodup, -, hs⟩, hhold⟩
    exact h.settled hnodup hs hsound hhold
  · rintro s ⟨⟨hno, -⟩, -⟩
    exact hno trivial

end Booked

end FlowWorkerState

end NewProxy
