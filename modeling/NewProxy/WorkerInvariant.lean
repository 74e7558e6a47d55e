import NewProxy.DnsPacket
import NewProxy.SessionCoherence

/-!
# Sessions and DNS transactions share one SNAT table

`Leased` ties the DNS indexes and the session table to the leases: the ephemeral
ones are exactly those of the active transactions. Session operations stay inside
`Framed`, which says that the DNS side is as it was; the DNS operations file or
close transactions. No `expect` of the worker can fail in a state with `Leased`.
-/
namespace NewProxy

/-- `I` holds again however the computation ends. -/
abbrev Act.Keeps {σ ε α : Type} (I : σ → Prop) (x : Act σ ε α) : Prop :=
  Act.Triple I x (fun _ => I) I

namespace FlowWorkerState

open Outcome Packet Dns

structure Leased (first last : UInt16) (ephemeral : SessionId → Option NatBinding)
    (state : FlowWorkerState) : Prop where
  owner : state.sessions.ownerWorkerId = state.workerId
  sessions : state.sessions.Coherent first last ephemeral
  ephemeral : ∀ token binding, ephemeral token = some binding ↔
    ∃ key transaction, state.dnsByKey.get key = some transaction ∧
      transaction.token = token ∧ transaction.binding = binding
  tokens : ∀ key key' transaction transaction', state.dnsByKey.get key = some transaction →
    state.dnsByKey.get key' = some transaction' → transaction.token = transaction'.token →
    key = key'
  reverse : ∀ flow key, state.dnsByReverse.get flow = some key ↔
    ∃ transaction, state.dnsByKey.get key = some transaction ∧
      transaction.binding.translated.reverse = flow
  query : ∀ key transaction, state.dnsByKey.get key = some transaction →
    transaction.binding.translated.protocol = .udp ∧
      ∃ l f, Carries transaction.originalPacket l f ∧ f.protocol = .udp

/-- The DNS side of `state` is that of `start`. -/
structure SameDns (start state : FlowWorkerState) : Prop where
  workerId : state.workerId = start.workerId
  dnsByKey : state.dnsByKey = start.dnsByKey
  dnsByReverse : state.dnsByReverse = start.dnsByReverse
  dnsDeadlines : state.dnsDeadlines = start.dnsDeadlines
  active : state.stats.dnsTransactionsActive = start.stats.dnsTransactionsActive

/-- And the sessions are coherent. -/
structure Framed (first last : UInt16) (ephemeral : SessionId → Option NatBinding)
    (start state : FlowWorkerState) : Prop extends SameDns start state where
  owner : state.sessions.ownerWorkerId = state.workerId
  sessions : state.sessions.Coherent first last ephemeral

section Frame

variable {first last : UInt16} {ephemeral : SessionId → Option NatBinding}
  {start state : FlowWorkerState} {ε α : Type}

theorem SameDns.refl (state : FlowWorkerState) : SameDns state state := ⟨rfl, rfl, rfl, rfl, rfl⟩

theorem SameDns.count (h : SameDns start state) {f : FlowWorkerStats → FlowWorkerStats}
    (hf : ∀ stats, (f stats).dnsTransactionsActive = stats.dnsTransactionsActive) :
    SameDns start { state with stats := f state.stats } :=
  ⟨h.workerId, h.dnsByKey, h.dnsByReverse, h.dnsDeadlines, (hf _).trans h.active⟩

theorem Leased.framed (h : Leased first last ephemeral state) :
    Framed first last ephemeral state state :=
  ⟨.refl state, h.owner, h.sessions⟩

theorem Framed.leased (h : Framed first last ephemeral start state)
    (hs : Leased first last ephemeral start) : Leased first last ephemeral state := by
  refine ⟨h.owner, h.sessions, ?_, ?_, ?_, ?_⟩
  · simpa only [h.dnsByKey] using hs.ephemeral
  · simpa only [h.dnsByKey] using hs.tokens
  · simpa only [h.dnsByKey, h.dnsByReverse] using hs.reverse
  · simpa only [h.dnsByKey] using hs.query

/-- Another session table under the same frame. -/
theorem Framed.withSessions (h : Framed first last ephemeral start state) {table : SessionTable}
    (hc : table.Coherent first last ephemeral)
    (ho : table.ownerWorkerId = state.sessions.ownerWorkerId) :
    Framed first last ephemeral start { state with sessions := table } :=
  ⟨⟨h.workerId, h.dnsByKey, h.dnsByReverse, h.dnsDeadlines, h.active⟩, ho.trans h.owner, hc⟩

theorem count_keeps {f : FlowWorkerStats → FlowWorkerStats}
    (hf : ∀ stats, (f stats).dnsTransactionsActive = stats.dnsTransactionsActive) :
    Act.Keeps (Framed first last ephemeral start) (count f : Act FlowWorkerState ε Unit) :=
  .modify fun _ h => ⟨h.toSameDns.count hf, h.owner, h.sessions⟩

theorem onSessions_ends {e : SessionError → ε} {x : Act SessionTable SessionError α}
    {Q : α → FlowWorkerState → Prop} {E : FlowWorkerState → Prop}
    (h : Act.Ends (fun a table => Q a { state with sessions := table })
      (fun table => E { state with sessions := table }) (x.run state.sessions)) :
    Act.Ends Q E ((onSessions e x).run state) := by
  rcases hr : x.run state.sessions with ⟨(_ | _) | a, table⟩ <;> rw [hr] at h <;>
    simp only [onSessions, Act.zoom, hr, mapErr]
  · exact h
  · exact h
  · exact h

variable {ε' : Type} {e : SessionError → ε} {x : Act SessionTable SessionError α}
  {table : SessionTable}

theorem attempt_onSessions_ok {s : FlowWorkerState} {a : α}
    (h : x.run s.sessions = (.ok a, table)) :
    (Act.attempt (onSessions e x) : Act FlowWorkerState ε' (Except ε α)).run s =
      (.ok (.ok a), { s with sessions := table }) := by
  simp only [Act.attempt, onSessions, Act.zoom, h, mapErr]

theorem attempt_onSessions_fail {s : FlowWorkerState} {error : SessionError}
    (h : x.run s.sessions = (fail error, table)) :
    (Act.attempt (onSessions e x) : Act FlowWorkerState ε' (Except ε α)).run s =
      (.ok (.error (e error)), { s with sessions := table }) := by
  simp only [Act.attempt, onSessions, Act.zoom, h, mapErr, fail]

end Frame

section Sessions

variable {first last : UInt16} {ephemeral : SessionId → Option NatBinding}
  {start : FlowWorkerState}

theorem openSession_spec (flow : FlowKey) (io : IoOwnerKey) (quicFlowId : QuicFlowId)
    (tcpFlags : Option UInt8) (now natNow : Instant) :
    Act.Triple (Framed first last ephemeral start)
      (openSession flow io quicFlowId tcpFlags now natNow)
      (fun sessionId state => Framed first last ephemeral start state ∧
        ∃ session, state.sessions.get sessionId = some session ∧
          session.key = ⟨flow, io.ifindex⟩)
      (Framed first last ephemeral start) := by
  refine .get fun state h => ?_
  refine .bind (.attempt (R := fun result state => Framed first last ephemeral start state ∧
      ∀ id, result = .ok id → ∃ session, state.sessions.get id = some session ∧
        session.key = ⟨flow, io.ifindex⟩)
    (Q := fun id state => Framed first last ephemeral start state ∧
      ∃ session, state.sessions.get id = some session ∧ session.key = ⟨flow, io.ifindex⟩)
    (E := Framed first last ephemeral start) ?_
    (fun id _ hs => ⟨hs.1, fun _ hid => by cases hid; exact hs.2⟩)
    fun _ _ hs => ⟨hs, fun _ hid => by cases hid⟩) fun result => ?_
  · rintro _ rfl
    rw [← h.owner]
    obtain ⟨hne, hco, ho, hok⟩ := SessionTable.getOrCreateWithFlagsAt_coherent h.sessions flow io
      quicFlowId tcpFlags false now natNow
    exact onSessions_ends (Act.ends_of hne (fun id hid => ⟨h.withSessions hco ho, hok id hid⟩)
      (h.withSessions hco ho))
  · rcases result with error | sessionId
    · refine .ite (fun _ => ?_) fun _ => .fail fun _ hs => hs.1
      exact .bind (.pre (fun _ hs => hs.1) (count_keeps (by intro; rfl)))
        fun _ => .fail fun _ hs => hs
    · exact .pure fun _ hs => ⟨hs.1, hs.2 sessionId rfl⟩

/-- The packet of a flow, with its MSS clamped, still carries the flow. -/
theorem clamp_carries {p : Bytes} {flow : FlowKey} (h : parseFlowKey p = .ok flow)
    {r : Bool × Bytes} (hr : clampTcpMss p tcpMaxSafeMss = .ok r) : ∃ l, Carries r.2 l flow := by
  obtain ⟨l, hl⟩ := parseFlowKey_eq_ok.mp h
  obtain ⟨b, q, hq, hc, -⟩ := clampTcpMss_ok hl tcpMaxSafeMss
  rw [hq] at hr
  cases hr
  exact ⟨l, hc⟩

theorem forwardInner_keeps (io : IoOwnerKey) (packet : Bytes) (quicFlow : QuicFlow)
    (target : Session → IoOwnerKey) (now natNow : Instant) :
    Act.Keeps (Framed first last ephemeral start)
      (forwardInner io packet quicFlow target now natNow) := by
  refine .get fun state h => .pre (fun _ ht => ht ▸ h) ?_
  refine .ite (fun _ => .fail fun _ hs => hs) fun _ => ?_
  refine .lift_bind (prepareForwardedPacket_ne_panic packet) (fun _ hs => hs) fun p hp => ?_
  refine .lift_bind (parseFlowKey_ne_panic p) (fun _ hs => hs) fun flow hflow => ?_
  refine .lift_bind (clampTcpMss_ne_panic p _) (fun _ hs => hs) fun clamped hclamp => ?_
  refine .lift_bind (parseTcpFlags_ne_panic _) (fun _ hs => hs) fun tcpFlags _ => ?_
  refine .bind (openSession_spec flow io quicFlow.id tcpFlags now natNow) fun sessionId => ?_
  refine .get fun state hstate => ?_
  obtain ⟨hframed, session, hs, hkey⟩ := hstate
  refine .bind (.expect (Q := fun s t => s = session ∧ t = state)
    fun t ht => ⟨session, hs, rfl, ht⟩) fun found => ?_
  rintro t ⟨rfl, rfl⟩
  refine Act.Triple.lift_bind (P := fun u => u = t) (rewritePacket_ne_panic _ _)
    (fun _ hu => hu ▸ hframed) (fun _ _ => .pure fun _ hu => hu ▸ hframed) t rfl

/-- The session a return packet belongs to, as the frame sees it. -/
structure Restores (start state : FlowWorkerState) (first last : UInt16)
    (ephemeral : SessionId → Option NatBinding) (id : SessionId) (returnFlow : FlowKey) : Prop where
  framed : Framed first last ephemeral start state
  session : ∃ session, state.sessions.sessions.get id = some session ∧
    returnFlow.ReturnsTo session.nat.translated

theorem correctServerReturnIo_spec {ε : Type} (id : SessionId) (observed : IoOwnerKey)
    (returnFlow : FlowKey) :
    Act.Keeps (fun state => Restores start state first last ephemeral id returnFlow)
      (correctServerReturnIo id observed : Act FlowWorkerState ε Bool) := by
  refine .get fun state h => ?_
  obtain ⟨session, hs, hret⟩ := h.session
  refine .bind
    (.attempt (R := fun _ state => Restores start state first last ephemeral id returnFlow)
    (Q := fun _ state => Restores start state first last ephemeral id returnFlow)
    (E := fun state => Restores start state first last ephemeral id returnFlow) ?_
    (fun _ _ hr => hr) fun _ _ hr => hr) fun result => ?_
  · rintro _ rfl
    rw [← h.framed.owner]
    apply onSessions_ends
    rcases SessionTable.correctInterceptIo_cases hs observed with
      ⟨-, hrun⟩ | ⟨-, hif, -, hrun⟩ | ⟨-, -, hrun⟩ <;> rw [hrun]
    · exact h
    · refine ⟨h.framed.withSessions (h.framed.sessions.corrected hs hif) rfl, _,
        (HashMap.get_insert _ _ _ _).trans (if_pos rfl), hret⟩
    · exact h
  · have hcount : Act.Keeps (fun state => Restores start state first last ephemeral id returnFlow)
        (count (fun stats => { stats with queueMismatchDrops := stats.queueMismatchDrops + 1 }) :
          Act FlowWorkerState ε Unit) :=
      .modify fun _ hr => ⟨⟨⟨hr.framed.workerId, hr.framed.dnsByKey, hr.framed.dnsByReverse,
        hr.framed.dnsDeadlines, hr.framed.active⟩, hr.framed.owner, hr.framed.sessions⟩, hr.session⟩
    rcases result with _ | _ | _ | _
    · exact .bind hcount fun _ => .pure fun _ hr => hr
    · exact .pure fun _ hr => hr
    · exact .pure fun _ hr => hr
    · exact .bind hcount fun _ => .pure fun _ hr => hr

theorem acceptsObserved_spec (id : SessionId) (observed : Option IoOwnerKey)
    (returnFlow : FlowKey) :
    Act.Keeps (fun state => Restores start state first last ephemeral id returnFlow)
      (acceptsObserved id observed) := by
  cases observed with
  | none => exact .pure fun _ h => h
  | some owner => exact correctServerReturnIo_spec id owner returnFlow

/-- A restored flow has a supported type: that of the return packet. -/
theorem restoredFlow_allows {session : Session} {returnFlow : FlowKey}
    (hret : returnFlow.ReturnsTo session.nat.translated)
    (hproto : session.nat.translated.protocol = session.original.protocol)
    (hallow : returnFlow.protocol.Allows returnFlow.destinationPort) :
    (restoredFlow session returnFlow).protocol.Allows
      (restoredFlow session returnFlow).destinationPort := by
  have hp : returnFlow.protocol = session.original.protocol := hret.2.2.1.trans hproto
  rw [hp] at hallow
  cases horig : session.original.protocol <;> rw [horig] at hallow <;>
    simp only [restoredFlow, horig, FlowKey.reverse, TransportProtocol.Allows] at hallow ⊢
  · exact hallow
  · exact hallow

theorem touchTcp_restores {workerId : ℕ} (hworker : workerId = start.workerId) (id : SessionId)
    (flags : Option UInt8) (now : Instant) (returnFlow : FlowKey) :
    Act.Triple (fun state => Restores start state first last ephemeral id returnFlow)
      (onSessions FlowWorkerError.session (SessionTable.touchTcp workerId id flags true now))
      (fun _ state => Restores start state first last ephemeral id returnFlow)
      (Framed first last ephemeral start) := by
  intro state h
  obtain ⟨session, hs, hret⟩ := h.session
  have howner : workerId = state.sessions.ownerWorkerId :=
    hworker.trans (h.framed.workerId.symm.trans h.framed.owner.symm)
  rw [howner]
  apply onSessions_ends
  rw [SessionTable.touchTcp_ok hs flags true now]
  exact ⟨h.framed.withSessions (h.framed.sessions.retimed hs flags true now) rfl, _,
    (HashMap.get_insert _ _ _ _).trans (if_pos rfl), hret⟩

theorem handleReverseForInner_keeps (packet : Bytes) (locator : SessionLocator)
    (observed : Option IoOwnerKey) (now : Instant) :
    Act.Keeps (Framed first last ephemeral start)
      (handleReverseForInner packet locator observed now) := by
  refine .lift_bind (prepareForwardedPacket_ne_panic packet) (fun _ hs => hs) fun p hp => ?_
  refine .lift_bind (parseFlowKey_ne_panic p) (fun _ hs => hs) fun flow hflow => ?_
  refine .get fun state h => ?_
  cases hl : state.sessions.lookupReverseLocator flow with
  | none => exact .pure fun _ ht => ht ▸ h
  | some found =>
    obtain ⟨session, hs, -, hret⟩ := h.sessions.toLinked.lookupReverseLocator_eq_some.mp hl
    refine .ite (fun _ => .pure fun _ ht => ht ▸ h) fun _ => ?_
    refine .lift_bind (clampTcpMss_ne_panic p _) (fun _ ht => ht ▸ h) fun clamped hclamp => ?_
    refine .lift_bind (parseTcpFlags_ne_panic _) (fun _ ht => ht ▸ h) fun tcpFlags _ => ?_
    refine .bind ((acceptsObserved_spec found.sessionId observed flow).weaken
      (fun _ ht => ht ▸ ⟨h, session, hs, hret⟩) (fun _ _ hr => hr) fun _ hr => hr.framed)
      fun accepted => .ite (fun _ => .pure fun _ hr => hr.framed) fun _ => ?_
    refine .bind (touchTcp_restores h.workerId found.sessionId tcpFlags now flow) fun _ => ?_
    refine .get fun state hr => ?_
    obtain ⟨session, hs, hret⟩ := hr.session
    refine .bind (.expect (Q := fun s t => s = session ∧ t = state)
      fun t ht => ⟨session, hs, rfl, ht⟩) fun found => ?_
    rintro t ⟨rfl, rfl⟩
    exact Act.Triple.lift_bind (P := fun u => u = t) (rewritePacket_ne_panic _ _)
      (fun _ hu => hu ▸ hr.framed) (fun _ _ => .pure fun _ hu => hu ▸ hr.framed) t rfl

theorem handleReverse_keeps (packet : Bytes) (now : Instant) :
    Act.Keeps (Framed first last ephemeral start) (handleReverse packet now) := by
  refine .lift_bind (parseFlowKey_ne_panic packet) (fun _ hs => hs) fun flow _ => ?_
  refine .get fun state h => ?_
  cases state.sessions.lookupReverseLocator flow with
  | none => exact .pure fun _ ht => ht ▸ h
  | some locator =>
    exact .pre (fun _ ht => ht ▸ h) (handleReverseForInner_keeps packet locator none now)

/-- A call on the sessions that succeeds and keeps them coherent. -/
theorem onSessions_keeps {α : Type} (x : ℕ → Act SessionTable SessionError α)
    (hx : ∀ table : SessionTable, table.Coherent first last ephemeral →
      ∃ o table', (x table.ownerWorkerId).run table = (o, table') ∧ o ≠ panic ∧
        table'.Coherent first last ephemeral ∧ table'.ownerWorkerId = table.ownerWorkerId) :
    Act.Keeps (Framed first last ephemeral start)
      (Act.get >>= fun state : FlowWorkerState => onSessions id (x state.workerId)) := by
  refine .get fun state h => ?_
  rintro _ rfl
  obtain ⟨o, table', hrun, hne, hco, ho⟩ := hx _ h.sessions
  rw [h.owner] at hrun
  apply onSessions_ends
  rw [hrun]
  exact Act.ends_of hne (fun _ _ => h.withSessions hco ho) (h.withSessions hco ho)

theorem rebindQuicFlow_keeps (oldId newId : QuicFlowId) :
    Act.Keeps (Framed first last ephemeral start) (rebindQuicFlow oldId newId) :=
  onSessions_keeps (SessionTable.rebindQuicFlow · oldId newId) fun _ h => by
    obtain ⟨count, table', hrun, hco, -, ho⟩ := SessionTable.rebindQuicFlow_ok h oldId newId
    exact ⟨_, table', hrun, ok_ne_panic _, hco, ho⟩

theorem removeSession_keeps (id : SessionId) (natNow : Instant) :
    Act.Keeps (Framed first last ephemeral start) (removeSession id natNow) :=
  onSessions_keeps (SessionTable.remove · id natNow) fun table h => by
    cases hs : table.sessions.get id with
    | none => exact ⟨_, _, SessionTable.remove_unknown hs natNow, fail_ne_panic _, h, rfl⟩
    | some session =>
      exact ⟨_, _, SessionTable.remove_ok h.toLinked hs natNow, ok_ne_panic _,
        h.dropped hs natNow, rfl⟩

theorem expireIdleSessions_keeps (now : Instant) (clock : ℕ → Instant) :
    Act.Keeps (Framed first last ephemeral start) (expireIdleSessions now clock) :=
  onSessions_keeps (SessionTable.expireIdle · now clock) fun _ h => by
    obtain ⟨sessions, table', hrun, hco, -, -, -, ho⟩ := SessionTable.expireIdle_ok h now clock
    exact ⟨_, table', hrun, ok_ne_panic _, hco, ho⟩

theorem removeByQuicFlow_keeps (quicFlowId : QuicFlowId) (clock : ℕ → Instant) :
    Act.Keeps (Framed first last ephemeral start) (removeByQuicFlow quicFlowId clock) := by
  have hcall : Act.Keeps (Framed first last ephemeral start)
      (Act.get >>= fun state : FlowWorkerState => onSessions id
        (SessionTable.removeByQuicFlow state.workerId quicFlowId clock)) :=
    onSessions_keeps (SessionTable.removeByQuicFlow · quicFlowId clock) fun _ h => by
      obtain ⟨count, table', hrun, hco, -, ho⟩ :=
        SessionTable.removeByQuicFlow_ok h quicFlowId clock
      exact ⟨_, table', hrun, ok_ne_panic _, hco, ho⟩
  refine .get fun state h => .bind (Q := fun _ => Framed first last ephemeral start) ?_
    fun _ => .pure fun _ hs => hs
  rintro _ rfl
  exact hcall _ h

end Sessions

section Transactions

variable {first last : UInt16} {ephemeral : SessionId → Option NatBinding}
  {state : FlowWorkerState} {key : DnsFlowTransactionKey} {transaction : DnsFlowTransaction}

theorem reverse_inj {f g : FlowKey} (h : f.reverse = g.reverse) : f = g := by
  obtain ⟨_, _, _, _, _⟩ := f
  obtain ⟨_, _, _, _, _⟩ := g
  simp only [FlowKey.reverse, FlowKey.mk.injEq] at h ⊢
  exact ⟨h.2.1, h.1, h.2.2.2.1, h.2.2.1, h.2.2.2.2⟩

/-- Two leases never answer to one return tuple. -/
theorem token_eq_of_reverse {table : SessionTable} (h : table.Coherent first last ephemeral)
    {token token' : SessionId} {binding binding' : NatBinding}
    (ht : ephemeral token = some binding) (ht' : ephemeral token' = some binding')
    (hr : binding.translated.reverse = binding'.translated.reverse) : token = token' :=
  h.nat.exclusive _ _ _ _ (h.toLinked.ledger_ephemeral ht).2 (h.toLinked.ledger_ephemeral ht').2
    (congrArg FlowKey.sourcePort (reverse_inj hr))

/-- A transaction is known by its token alone. -/
theorem Leased.ephemeral_of_get (h : Leased first last ephemeral state)
    (hk : state.dnsByKey.get key = some transaction) :
    ephemeral transaction.token = some transaction.binding :=
  (h.ephemeral _ _).mpr ⟨key, transaction, hk, rfl, rfl⟩

theorem fileTransaction_eq (key : DnsFlowTransactionKey) (transaction : DnsFlowTransaction)
    (state : FlowWorkerState) :
    ∃ completed order, fileTransaction key transaction state =
      { state with
        dnsByReverse := state.dnsByReverse.insert transaction.binding.translated.reverse key
        dnsByKey := state.dnsByKey.insert key transaction
        dnsDeadlines := state.dnsDeadlines.file transaction.expiresAt key
        dnsCompletedReverse := completed
        dnsCompletedOrder := order } := by
  simp only [fileTransaction, forgetCompletedDnsReverse]
  split <;> exact ⟨_, _, rfl⟩

/-- A new transaction over a new lease. -/
theorem Leased.filed (h : Leased first last ephemeral state) (table : SessionTable)
    (transaction : DnsFlowTransaction) (hk : state.dnsByKey.get key = none)
    (hfree : ephemeral transaction.token = none)
    (hco : table.Coherent first last
      (Function.update ephemeral transaction.token (some transaction.binding)))
    (ho : table.ownerWorkerId = state.sessions.ownerWorkerId)
    (hq : transaction.binding.translated.protocol = .udp ∧
      ∃ l f, Carries transaction.originalPacket l f ∧ f.protocol = .udp) (next : UInt64)
    (stats : FlowWorkerStats) :
    Leased first last (Function.update ephemeral transaction.token (some transaction.binding))
      { fileTransaction key transaction { state with sessions := table, nextDnsToken := next } with
        stats := stats } := by
  obtain ⟨completed, order, heq⟩ := fileTransaction_eq key transaction
    { state with sessions := table, nextDnsToken := next }
  rw [heq]
  have hne : ∀ key' transaction', state.dnsByKey.get key' = some transaction' →
      transaction'.token ≠ transaction.token := by
    intro key' transaction' hk' hc
    have he := h.ephemeral_of_get hk'
    rw [hc, hfree] at he
    cases he
  have hget : ∀ key', (state.dnsByKey.insert key transaction).get key' =
      if key' = key then some transaction else state.dnsByKey.get key' :=
    fun key' => HashMap.get_insert _ _ _ _
  refine ⟨ho.trans h.owner, hco, ?_, ?_, ?_, ?_⟩
  · intro token binding
    simp only [hget, Function.update_apply]
    split_ifs with hc
    · subst hc
      constructor
      · rintro ⟨rfl⟩
        exact ⟨key, transaction, if_pos rfl, rfl, rfl⟩
      · rintro ⟨key', transaction', hk', htoken, rfl⟩
        split_ifs at hk' with hkk
        · cases hk'
          rfl
        · exact absurd htoken (hne key' transaction' hk')
    · rw [h.ephemeral]
      refine exists_congr fun key' => exists_congr fun transaction' =>
        and_congr_left fun hb => ?_
      split_ifs with hkk
      · subst hkk
        rw [hk]
        refine iff_of_false (by simp) fun he => hc ?_
        cases he
        exact hb.1.symm
      · rfl
  · intro key1 key2 t1 t2 h1 h2 htoken
    simp only [hget] at h1 h2
    split_ifs at h1 h2 with hc1 hc2 hc2
    · exact hc1.trans hc2.symm
    · cases h1
      exact absurd htoken.symm (hne key2 t2 h2)
    · cases h2
      exact absurd htoken (hne key1 t1 h1)
    · exact h.tokens key1 key2 t1 t2 h1 h2 htoken
  · intro flow key'
    simp only [hget, HashMap.get_insert]
    -- the tuple of the new lease was nobody's, since no other lease has its port
    have hnew : ∀ key' transaction', state.dnsByKey.get key' = some transaction' →
        transaction'.binding.translated.reverse ≠ transaction.binding.translated.reverse := by
      intro key' transaction' hk' hr
      refine hne key' transaction' hk' (token_eq_of_reverse hco ?_ ?_ hr)
      · rw [Function.update_of_ne (hne key' transaction' hk')]
        exact h.ephemeral_of_get hk'
      · exact Function.update_self _ _ _
    by_cases hf : flow = transaction.binding.translated.reverse
    · rw [if_pos hf, Option.some_inj]
      subst hf
      constructor
      · rintro rfl
        exact ⟨transaction, if_pos rfl, rfl⟩
      · rintro ⟨transaction', hk', hr⟩
        split_ifs at hk' with hkk
        · exact hkk.symm
        · exact absurd hr (hnew key' transaction' hk')
    · rw [if_neg hf, h.reverse]
      refine exists_congr fun transaction' => and_congr_left fun hr => ?_
      split_ifs with hkk
      · subst hkk
        rw [hk]
        refine iff_of_false (by simp) fun he => hf ?_
        cases he
        exact hr.symm
      · rfl
  · intro key' transaction' hk'
    rw [hget] at hk'
    split_ifs at hk'
    · cases hk'
      exact hq
    · exact h.query key' transaction' hk'

/-- The state after a transaction was closed. -/
def closed (state : FlowWorkerState) (key : DnsFlowTransactionKey)
    (transaction : DnsFlowTransaction) (nat : NatTable) : FlowWorkerState :=
  { unfileTransaction key transaction state with
    sessions := { state.sessions with nat }
    stats := { state.stats with dnsTransactionsActive := (state.dnsByKey.remove key).len } }

/-- The state after a transaction was closed and its lease put under quarantine. -/
def ended (state : FlowWorkerState) (key : DnsFlowTransactionKey)
    (transaction : DnsFlowTransaction) (natNow : Instant) : FlowWorkerState :=
  state.closed key transaction
    (state.sessions.nat.withoutLease transaction.token transaction.binding natNow)

/-- Closing a transaction gives back its lease and everything filed under it. -/
theorem removeDnsTransaction_ok {ε : Type} (h : Leased first last ephemeral state)
    (hk : state.dnsByKey.get key = some transaction) (e : SessionError → ε) (natNow : Instant) :
    (removeDnsTransaction e key natNow).run state =
        (.ok (some transaction), state.ended key transaction natNow) ∧
      Leased first last (Function.update ephemeral transaction.token none)
        (state.ended key transaction natNow) := by
  obtain ⟨hrun, hl⟩ := SessionTable.releaseEphemeralNat_ok h.sessions.toLinked
    (h.ephemeral_of_get hk) natNow
  have hget : ∀ key', (state.dnsByKey.remove key).get key' =
      if key' = key then none else state.dnsByKey.get key' := fun key' => HashMap.get_remove _ _ _
  refine ⟨?_, h.owner, ⟨hl, h.sessions.deadlines⟩, ?_, ?_, ?_, ?_⟩
  · rw [removeDnsTransaction, Act.bind_of_ok (Act.run_get state)]
    simp only [hk]
    rw [Act.bind_of_ok (Act.run_modify _ _)]
    have hrun' : (onSessions e (SessionTable.releaseEphemeralNat state.workerId transaction.token
        natNow)).run (unfileTransaction key transaction state) = (.ok transaction.binding,
          { unfileTransaction key transaction state with
            sessions.nat := state.sessions.nat.withoutLease transaction.token transaction.binding
              natNow }) := by
      rw [← h.owner]
      simp only [onSessions, Act.zoom, unfileTransaction, hrun, mapErr]
    rw [Act.bind_of_ok hrun']
    rfl
  · intro token binding
    simp only [ended, closed, unfileTransaction, hget, Function.update_apply]
    split_ifs with hc
    · subst hc
      refine iff_of_false (by simp) ?_
      rintro ⟨key', transaction', hk', htoken, -⟩
      split_ifs at hk' with hkk
      exact hkk (h.tokens key' key transaction' transaction hk' hk htoken)
    · rw [h.ephemeral]
      refine exists_congr fun key' => exists_congr fun transaction' =>
        and_congr_left fun hb => ?_
      split_ifs with hkk
      · subst hkk
        rw [hk]
        refine iff_of_false (fun he => hc ?_) (by simp)
        cases he
        exact hb.1.symm
      · rfl
  · intro key1 key2 t1 t2 h1 h2
    simp only [ended, closed, unfileTransaction, hget] at h1 h2
    split_ifs at h1 h2
    exact h.tokens key1 key2 t1 t2 h1 h2
  · intro flow key'
    simp only [ended, closed, unfileTransaction, hget, HashMap.get_remove]
    by_cases hf : flow = transaction.binding.translated.reverse
    · rw [if_pos hf]
      subst hf
      refine iff_of_false (by simp) ?_
      rintro ⟨transaction', hk', hr⟩
      split_ifs at hk' with hkk
      exact hkk (h.tokens key' key transaction' transaction hk' hk (token_eq_of_reverse h.sessions
        (h.ephemeral_of_get hk') (h.ephemeral_of_get hk) hr))
    · rw [if_neg hf, h.reverse]
      refine exists_congr fun transaction' => and_congr_left fun hr => ?_
      split_ifs with hkk
      · subst hkk
        rw [hk]
        refine iff_of_false (fun he => hf ?_) (by simp)
        cases he
        exact hr.symm
      · rfl
  · intro key' transaction' hk'
    simp only [ended, closed, unfileTransaction, hget] at hk'
    split_ifs at hk'
    exact h.query key' transaction' hk'

end Transactions

/-- A query that the listener can answer. -/
def Answerable (listen : SocketAddr) (query : Bytes) : Prop :=
  ∃ l f, Carries query l f ∧ f.protocol = .udp ∧ l.offset + 20 ≤ l.total ∧
    listen.ip.isV4 = l.isV4

/-- What holds besides while one listener and one capacity are in use: deadlines
and the count of transactions are exact, and every query can be answered. -/
structure Timely (listen : SocketAddr) (capacity : ℕ) (state : FlowWorkerState) : Prop where
  deadlines : state.dnsDeadlines.Indexes fun key => (state.dnsByKey.get key).map (·.expiresAt)
  capacity : state.dnsByKey.len ≤ capacity
  active : state.stats.dnsTransactionsActive = state.dnsByKey.len
  answerable : ∀ key transaction, state.dnsByKey.get key = some transaction →
    Answerable listen transaction.originalPacket

/-- The invariant of a worker; `strict` is set where the configuration is fixed. -/
def Sound (first last : UInt16) (strict : Prop) (listen : SocketAddr) (capacity : ℕ)
    (state : FlowWorkerState) : Prop :=
  ∃ ephemeral, Leased first last ephemeral state ∧ (strict → Timely listen capacity state)

section Soundness

variable {first last : UInt16} {strict : Prop} {listen : SocketAddr} {capacity : ℕ}
  {state start : FlowWorkerState} {ephemeral : SessionId → Option NatBinding}

theorem Framed.timely (h : Framed first last ephemeral start state)
    (ht : Timely listen capacity start) : Timely listen capacity state := by
  refine ⟨?_, ?_, ?_, ?_⟩
  · simpa only [h.dnsByKey, h.dnsDeadlines] using ht.deadlines
  · simpa only [h.dnsByKey] using ht.capacity
  · rw [h.active, h.dnsByKey]
    exact ht.active
  · simpa only [h.dnsByKey] using ht.answerable

/-- What stays inside the frame keeps the invariant. -/
theorem sound_of_framed {ε α : Type} {x : Act FlowWorkerState ε α}
    (h : ∀ ephemeral start, Act.Keeps (Framed first last ephemeral start) x) :
    Act.Keeps (Sound first last strict listen capacity) x := by
  rintro state ⟨ephemeral, hl, ht⟩
  have hends := h ephemeral state state hl.framed
  have hsound : ∀ s, Framed first last ephemeral state s →
      Sound first last strict listen capacity s :=
    fun s hs => ⟨ephemeral, hs.leased hl, fun hstrict => hs.timely (ht hstrict)⟩
  rcases hr : x.run state with ⟨(e | _) | a, s⟩ <;> rw [hr] at hends
  · exact hsound s hends
  · exact hends
  · exact hsound s hends

end Soundness

end FlowWorkerState

end NewProxy
