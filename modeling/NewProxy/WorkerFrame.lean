import NewProxy.Triple
import NewProxy.Worker

/-!
# What the calls of a flow worker leave alone

A call changes the tables of its worker through a few operations: a session is touched or
its carrier changed, a lease is taken out or given back, a transaction is filed or closed.
A condition that outlasts these operations outlasts the call.
-/
namespace NewProxy

namespace SessionTable

variable {R : Session → Session → Prop} {P : SessionTable → Prop} {id : SessionId}

/-- `P` outlasts a change of the session `id` that `R` allows. -/
def Withstands (R : Session → Session → Prop) (id : SessionId) (P : SessionTable → Prop) : Prop :=
  ∀ (table : SessionTable) (before after : Session) (deadlines : DeadlineIndex SessionId),
    P table → table.sessions.get id = some before → R before after →
    P { table with sessions := table.sessions.insert id after, deadlines }

/-- `P` looks neither at the leases nor at what `R` lets change in a session. -/
structure Steady (R : Session → Session → Prop) (P : SessionTable → Prop) : Prop where
  nat : ∀ (table : SessionTable) (nat : NatTable), nat.addresses = table.nat.addresses → P table →
    P { table with nat }
  replaced : ∀ id, Withstands R id P
  rebound : ∀ (table : SessionTable) (f : Session → Session), (∀ session, R session (f session)) →
    P table → P { table with sessions := table.sessions.mapValues f }

/-- `P` outlasts the end of a session as well. -/
structure Endable (R : Session → Session → Prop) (P : SessionTable → Prop) : Prop
    extends Steady R P where
  ended : ∀ (table : SessionTable) id deadlines byKey, P table →
    P { table with sessions := table.sessions.remove id, deadlines, byKey }
  deadlines : ∀ (table : SessionTable) deadlines, P table → P { table with deadlines }

theorem ensureOwner_steady (caller : ℕ) : Act.Stable P (ensureOwner caller) :=
  .bind .get fun _ => .call _

theorem allocateAt_steady (h : Steady R P) (sessionId : SessionId) (original : FlowKey)
    (locator : SessionLocator) (now : Instant) :
    Act.Stable P (onNat (NatTable.allocateAt sessionId original locator now)) :=
  fun table hp => h.nat table _ (table.nat.addresses_allocateAt sessionId original locator now) hp

theorem removeAt_steady (h : Steady R P) (sessionId : SessionId) (now : Instant) :
    Act.Stable P (onNat (NatTable.removeAt sessionId now)) :=
  fun table hp => h.nat table _ (table.nat.addresses_removeAt sessionId now) hp

theorem touchTcp_steady (h : Withstands R id P)
    (hR : ∀ session tcpState expiresAt, R session { session with tcpState, expiresAt })
    (caller : ℕ) (flags : Option UInt8) (isReverse : Bool) (now : Instant) :
    Act.Stable P (touchTcp caller id flags isReverse now) := by
  refine .bind (ensureOwner_steady caller) fun _ table hp => ?_
  rw [Act.bind_of_ok (Act.run_get table)]
  cases hs : table.sessions.get id with
  | none => exact hp
  | some before => exact h table before _ _ hp hs (hR before _ _)

theorem correctInterceptIo_steady (h : Withstands R id P)
    (hR : ∀ session interceptIo, R session { session with interceptIo }) (caller : ℕ)
    (observed : IoOwnerKey) : Act.Stable P (correctInterceptIo caller id observed) := by
  refine .bind (ensureOwner_steady caller) fun _ table hp => ?_
  rw [Act.bind_of_ok (Act.run_get table)]
  cases hs : table.sessions.get id with
  | none => exact hp
  | some before =>
    simp only [Outcome.okOr]
    rw [Act.bind_of_ok (Act.run_call _ _)]
    split_ifs
    · exact hp
    · exact h table before _ table.deadlines hp hs (hR before observed)
    · exact hp

theorem rebindQuicFlow_steady (h : Steady R P)
    (hR : ∀ session quicFlowId, R session { session with quicFlowId }) (caller : ℕ)
    (oldId newId : QuicFlowId) : Act.Stable P (rebindQuicFlow caller oldId newId) := by
  refine .bind (ensureOwner_steady caller) fun _ => .bind .get fun _ =>
    .bind (.modify fun table hp => h.rebound table _ (fun session => ?_) hp) fun _ => .pure _
  split_ifs
  · exact hR session newId
  · exact hR session session.quicFlowId

theorem allocateEphemeralNat_steady (h : Steady R P) (caller : ℕ) (token : SessionId)
    (original : FlowKey) (natNow : Instant) :
    Act.Stable P (allocateEphemeralNat caller token original natNow) :=
  .bind (ensureOwner_steady caller) fun _ => .bind .get fun _ => allocateAt_steady h _ _ _ _

theorem releaseEphemeralNat_steady (h : Steady R P) (caller : ℕ) (token : SessionId)
    (natNow : Instant) : Act.Stable P (releaseEphemeralNat caller token natNow) :=
  .bind (ensureOwner_steady caller) fun _ => removeAt_steady h _ _

theorem remove_endable (h : Endable R P) (caller : ℕ) (sessionId : SessionId) (natNow : Instant) :
    Act.Stable P (remove caller sessionId natNow) :=
  .bind (ensureOwner_steady caller) fun _ => .bind .get fun _ => .bind (.call _) fun _ =>
    .bind (removeAt_steady h.toSteady _ _) fun _ =>
      .bind (.modify fun table hp => h.ended table sessionId _ _ hp) fun _ => .pure _

theorem removeAll_endable (h : Endable R P) (caller : ℕ) (clock : ℕ → Instant)
    (ids : List SessionId) : Act.Stable P (removeAll caller clock ids) := by
  induction ids with
  | nil => exact .pure _
  | cons sessionId rest ih =>
    exact .bind (remove_endable h caller sessionId _) fun _ => .bind ih fun _ => .pure _

theorem expireIdle_endable (h : Endable R P) (caller : ℕ) (now : Instant) (clock : ℕ → Instant) :
    Act.Stable P (expireIdle caller now clock) :=
  .bind (ensureOwner_steady caller) fun _ => .bind .get fun _ =>
    .bind (.modify fun table hp => h.deadlines table _ hp) fun _ =>
      removeAll_endable h caller clock _

theorem removeByQuicFlow_endable (h : Endable R P) (caller : ℕ) (quicFlowId : QuicFlowId)
    (clock : ℕ → Instant) : Act.Stable P (removeByQuicFlow caller quicFlowId clock) :=
  .bind (ensureOwner_steady caller) fun _ => .bind .get fun _ =>
    .bind (removeAll_endable h caller clock _) fun _ => .pure _

end SessionTable

namespace FlowWorkerState

variable {P Q : FlowWorkerState → Prop} {ε : Type}

/-- `P` does not look at the counters. -/
def Uncounted (P : FlowWorkerState → Prop) : Prop := ∀ state stats, P state → P { state with stats }

theorem Uncounted.count (h : Uncounted P) (f : FlowWorkerStats → FlowWorkerStats) :
    Act.Stable P (count f : Act FlowWorkerState ε Unit) :=
  .modify fun _ hs => h _ _ hs

theorem Uncounted.countActive (h : Uncounted P) :
    Act.Stable P (countActive : Act FlowWorkerState ε Unit) :=
  .modify fun _ hs => h _ _ hs

section Sessions

/-- A packet on its way out asks for the session of its flow. -/
theorem forwardInner_frame (h : Uncounted P) {io : IoOwnerKey} {quicFlow : QuicFlow}
    {now natNow : Instant} (hcreate : ∀ state flow flags, P state → Act.Stable P
      (onSessions FlowWorkerError.session (SessionTable.getOrCreateWithFlagsAt state.workerId
        flow io quicFlow.id flags false now natNow)))
    (packet : Bytes) (target : Session → IoOwnerKey) :
    Act.Stable P (forwardInner io packet quicFlow target now natNow) := by
  refine .bind .get fun _ => .ite (.fail _) (.bind (.lift _ _) fun _ => .bind (.lift _ _)
    fun flow => .bind (.lift _ _) fun _ => .bind (.lift _ _) fun flags => .bind ?_ fun _ =>
      .bind .get fun _ => .bind (.expect _) fun _ => .bind (.lift _ _) fun _ => .pure _)
  refine .get_bind fun state hs => .bind (.attempt (hcreate state flow flags hs)) fun result => ?_
  rcases result with error | sessionId
  · exact .ite (.bind (h.count _) fun _ => .fail _) (.fail _)
  · exact .pure _

/-- `P` outlasts what a return packet does to the session `id`. -/
structure Returnable (P : FlowWorkerState → Prop) (id : SessionId) (observed : Option IoOwnerKey) :
    Prop where
  stats : Uncounted P
  corrects : ∀ owner caller, observed = some owner → Act.Stable P
    (onSessions FlowWorkerError.session (SessionTable.correctInterceptIo caller id owner))
  touches : ∀ caller flags now, Act.Stable P
    (onSessions FlowWorkerError.session (SessionTable.touchTcp caller id flags true now))

theorem handleReverseForInner_frame {locator : SessionLocator} {observed : Option IoOwnerKey}
    (h : Returnable P locator.sessionId observed) (packet : Bytes) (now : Instant) :
    Act.Stable P (handleReverseForInner packet locator observed now) := by
  have haccepts : Act.Stable P (acceptsObserved locator.sessionId observed) := by
    cases observed with
    | none => exact .pure _
    | some owner =>
      refine .bind .get fun _ => .bind (.attempt (h.corrects owner _ rfl)) fun result => ?_
      rcases result with _ | _ | _ | _
      · exact .bind (h.stats.count _) fun _ => .pure _
      · exact .pure _
      · exact .pure _
      · exact .bind (h.stats.count _) fun _ => .pure _
  refine .bind (.lift _ _) fun _ => .bind (.lift _ _) fun flow => .bind .get fun state => ?_
  cases state.sessions.lookupReverseLocator flow with
  | none => exact .pure _
  | some found =>
    dsimp only
    split_ifs with hother
    · exact .pure _
    · obtain rfl : found = locator := not_not.mp (not_or.mp hother).1
      refine .bind (.lift _ _) fun _ => .bind (.lift _ _) fun _ => .bind haccepts fun _ =>
        .ite (.pure _) ?_
      exact .bind (h.touches _ _ _) fun _ => .bind .get fun _ => .bind (.expect _) fun _ =>
        .bind (.lift _ _) fun _ => .pure _

theorem handleReverse_frame (h : ∀ id, Returnable P id none) (packet : Bytes) (now : Instant) :
    Act.Stable P (handleReverse packet now) := by
  refine .bind (.lift _ _) fun flow => .bind .get fun state => ?_
  cases state.sessions.lookupReverseLocator flow with
  | none => exact .pure _
  | some locator => exact handleReverseForInner_frame (h _) packet now

end Sessions

section Queries

theorem refuseQuery_frame (h : Uncounted P) (f : FlowWorkerStats → FlowWorkerStats)
    (ioOwner : IoOwnerKey) (packet : Bytes) (flow : FlowKey) (config : DnsFlowConfig) :
    Act.Stable P (refuseQuery f ioOwner packet flow config) :=
  .bind (h.count _) fun _ => .bind (.lift _ _) fun _ => .pure _

/-- A query gets to `Q` where the opening of its transaction does. -/
theorem handleDnsQueryAt_leads_of (h : Uncounted P) (hleft : ∀ s, P s → Q s) {ioOwner : IoOwnerKey}
    {config : DnsFlowConfig} {now natNow : Instant}
    (hopens : ∀ state packet flow key resolver remote, P state → state.dnsByKey.get key = none →
      Act.Leads P Q (openDnsTransaction ioOwner packet flow key resolver remote config now natNow))
    (packet : Bytes) : Act.Leads P Q (handleDnsQueryAt ioOwner packet config now natNow) := by
  have hrefuse : ∀ f packet flow, Act.Leads P Q (refuseQuery f ioOwner packet flow config) :=
    fun f packet flow => .of_stable (refuseQuery_frame h f ioOwner packet flow config) hleft
  refine .bind (.lift _ _) hleft fun packet => .bind (.lift _ _) hleft fun flow =>
    .ite (.of_stable (.fail _) hleft) (.bind (.lift _ _) hleft fun _ => .ite (hrefuse _ _ _)
      (.bind (.lift _ _) hleft fun _ => .ite (hrefuse _ _ _) ?_))
  -- from here `admitDnsQuery`
  refine .bind (.lift _ _) hleft fun clamped => .bind (h.count _) hleft fun _ =>
    .bind (.lift _ _) hleft fun payload => .bind (.call _) hleft fun question => ?_
  rcases question with error | question
  · exact hrefuse _ _ _
  refine .bind (.call _) hleft fun dns => .get_bind fun state hs => ?_
  cases hk : state.dnsByKey.get ⟨ioOwner, dns⟩ with
  | some transaction => exact .of_stable (.lift _ _) hleft
  | none =>
    have hopen := fun packet flow resolver remote =>
      hopens state packet flow ⟨ioOwner, dns⟩ resolver remote hs hk
    refine .bind (.call _) hleft fun route => ?_
    cases route with
    | remote => exact hopen _ _ _ _
    | «local» => exact hopen _ _ _ _
    | localFallback => exact .bind (h.count _) hleft fun _ => hopen _ _ _ _

end Queries

section Closing

/-- `P` outlasts the end of a transaction's lease. -/
structure Releasable (P : FlowWorkerState → Prop) : Prop where
  stats : Uncounted P
  releases : ∀ {ε : Type} (e : SessionError → ε) caller token natNow, Act.Stable P
    (onSessions e (SessionTable.releaseEphemeralNat caller token natNow))

/-- `P` outlasts the closing of transactions. -/
structure Closable (P : FlowWorkerState → Prop) : Prop extends Releasable P where
  unfile : ∀ state key transaction, P state → P (unfileTransaction key transaction state)
  deadlines : ∀ state dnsDeadlines, P state → P { state with dnsDeadlines }

theorem removeDnsTransaction_frame (h : Closable P) (e : SessionError → ε)
    (key : DnsFlowTransactionKey) (natNow : Instant) :
    Act.Stable P (removeDnsTransaction e key natNow) := by
  refine .bind .get fun state => ?_
  cases state.dnsByKey.get key with
  | none => exact .pure _
  | some transaction =>
    exact .bind (.modify fun s hs => h.unfile s key transaction hs) fun _ =>
      .bind (h.releases _ _ _ _) fun _ => .bind h.stats.countActive fun _ => .pure _

theorem closeTransactions_frame (h : Closable P) (f : FlowWorkerStats → FlowWorkerStats)
    (config : DnsFlowConfig) (clock : ℕ → Instant) (keys : List DnsFlowTransactionKey) :
    Act.Stable P (closeTransactions f config clock keys) := by
  induction keys with
  | nil => exact .pure _
  | cons key rest ih =>
    refine .bind (removeDnsTransaction_frame h _ _ _) fun removed => ?_
    cases removed with
    | none => exact ih
    | some transaction =>
      exact .bind (.lift _ _) fun _ => .bind (h.stats.count _) fun _ => .bind ih fun _ => .pure _

theorem expireDnsTransactions_frame (h : Closable P) (now : Instant) (config : DnsFlowConfig)
    (clock : ℕ → Instant) : Act.Stable P (expireDnsTransactions now config clock) :=
  .bind .get fun _ => .bind (.modify fun s hs => h.deadlines s _ hs) fun _ =>
    .bind (closeTransactions_frame h _ config clock _) fun _ =>
      .bind h.stats.countActive fun _ => .pure _

theorem abortDnsTransaction_frame (h : Closable P) (binding : NatBinding) (config : DnsFlowConfig)
    (natNow : Instant) : Act.Stable P (abortDnsTransaction binding config natNow) := by
  refine .bind .get fun state => ?_
  cases state.dnsByReverse.get binding.translated.reverse with
  | none => exact .pure _
  | some key =>
    exact .bind (removeDnsTransaction_frame h _ _ _) fun _ => .bind (.expect _) fun _ =>
      .bind (h.stats.count _) fun _ => .bind (.lift _ _) fun _ => .pure _

theorem abortRemoteDnsTransactions_frame (h : Closable P) (config : DnsFlowConfig)
    (clock : ℕ → Instant) : Act.Stable P (abortRemoteDnsTransactions config clock) :=
  .bind .get fun _ => closeTransactions_frame h _ config clock _

/-- A response closes a transaction and is remembered. -/
theorem handleDnsResponse_frame (h : Closable P)
    (hremember : ∀ flow state, P state → P (rememberCompletedDnsReverse flow state))
    (packet : Bytes) (natNow : Instant) : Act.Stable P (handleDnsResponse packet natNow) := by
  have hspoofed : Act.Stable P (do
      countSpoofed
      return none : Act FlowWorkerState FlowWorkerError (Option HandledDnsResponse)) :=
    .bind (h.stats.count _) fun _ => .pure _
  refine .bind (.lift _ _) fun _ => .ite hspoofed (.bind (.lift _ _) fun p => .bind (.lift _ _)
    fun flow => .bind .get fun state => ?_)
  cases state.dnsByReverse.get flow with
  | none => exact .bind (h.stats.count _) fun _ => .pure _
  | some key =>
    dsimp only
    cases state.dnsByKey.get key with
    | none => exact hspoofed
    | some transaction =>
      refine .bind (.lift _ _) fun payload => .bind (.lift _ _) fun _ => .bind (.call _)
        fun matched => ?_
      rcases matched with _ | _
      · exact hspoofed
      · refine .bind (removeDnsTransaction_frame h _ _ _) fun _ => .bind (.expect _) fun _ =>
          .bind (.modify fun s hs => hremember flow s hs) fun _ =>
            .bind h.stats.countActive fun _ =>
            .bind (.ite ?_ ?_) fun _ => .pure _
        · exact .bind (.lift _ _) fun _ => .bind (h.stats.count _) fun _ => .bind (.lift _ _)
            fun _ => .pure _
        · exact .bind (h.stats.count _) fun _ => .bind (.lift _ _) fun _ => .pure _

/-- The DNS tables are emptied before the leases are given back. -/
theorem removeDnsTransactions_leads (h : Releasable Q)
    (hempty : ∀ state, P state → Q { state with
      dnsByKey := .empty, dnsByReverse := .empty, dnsDeadlines := .empty,
      dnsCompletedReverse := .empty, dnsCompletedOrder := .empty }) (clock : ℕ → Instant) :
    Act.Leads P Q (removeDnsTransactions clock) := by
  have hreleases : ∀ transactions, Act.Stable Q (releaseAll clock transactions) := by
    intro transactions
    induction transactions with
    | nil => exact .pure _
    | cons transaction rest ih =>
      exact .bind .get fun _ => .bind (h.releases _ _ _ _) fun _ => .bind ih fun _ => .pure _
  exact .get_bind fun _ _ => .bind_stable (.modify hempty) fun _ => .bind (hreleases _) fun _ =>
    .bind (.modify fun _ hs => h.stats _ _ hs) fun _ => .pure _

end Closing

end FlowWorkerState

end NewProxy
