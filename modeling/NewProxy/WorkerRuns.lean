import NewProxy.DnsAnswers

/-!
# Whole runs of a flow worker

The calls a worker receives, in any order and with any clock readings: the invariant
holds along every run, so the indexes of sessions, transactions and leases agree, no
call panics, and expiry is exact.
-/
namespace NewProxy.FlowWorkerState

open Outcome Packet Dns

section Runs

/-- The calls a worker receives, each with the clock readings made inside it. -/
inductive Op where
  | handleIntercept (ioOwner : IoOwnerKey) (packet : Bytes) (quicFlow : QuicFlow)
      (tunnelTarget : IoOwnerKey) (now natNow : Instant)
  | handleServerInner (defaultIntercept : IoOwnerKey) (packet : Bytes) (quicFlow : QuicFlow)
      (now natNow : Instant)
  | handleReverse (packet : Bytes) (now : Instant)
  | handleReverseFor (packet : Bytes) (expectedLocator : SessionLocator) (now : Instant)
  | handleServerReverse (observed : IoOwnerKey) (packet : Bytes)
      (expectedLocator : SessionLocator) (now : Instant)
  | expireIdleSessions (now : Instant) (clock : ℕ → Instant)
  | removeSession (sessionId : SessionId) (natNow : Instant)
  | removeByQuicFlow (quicFlowId : QuicFlowId) (clock : ℕ → Instant)
  | rebindQuicFlow (oldQuicFlowId newQuicFlowId : QuicFlowId)
  | handleDnsQueryAt (ioOwner : IoOwnerKey) (packet : Bytes) (now natNow : Instant)
  | handleDnsResponse (packet : Bytes) (natNow : Instant)
  | expireDnsTransactions (now : Instant) (clock : ℕ → Instant)
  | abortDnsTransaction (binding : NatBinding) (natNow : Instant)
  | abortRemoteDnsTransactions (clock : ℕ → Instant)
  | removeDnsTransactions (clock : ℕ → Instant)

/-- A call whose result is not looked at. -/
def discard {ε α : Type} (e : ε → FlowWorkerError) (x : Act FlowWorkerState ε α) :
    Act FlowWorkerState FlowWorkerError Unit :=
  ⟨fun s => ((x.run s).1.mapErr e >>= fun _ => .ok (), (x.run s).2)⟩

def Op.call (config : DnsFlowConfig) : Op → Act FlowWorkerState FlowWorkerError Unit
  | .handleIntercept ioOwner packet quicFlow tunnelTarget now natNow =>
    discard id (FlowWorkerState.handleIntercept ioOwner packet quicFlow tunnelTarget now natNow)
  | .handleServerInner defaultIntercept packet quicFlow now natNow =>
    discard id (FlowWorkerState.handleServerInner defaultIntercept packet quicFlow now natNow)
  | .handleReverse packet now => discard id (FlowWorkerState.handleReverse packet now)
  | .handleReverseFor packet locator now =>
    discard id (FlowWorkerState.handleReverseFor packet locator now)
  | .handleServerReverse observed packet locator now =>
    discard id (FlowWorkerState.handleServerReverse observed packet locator now)
  | .expireIdleSessions now clock =>
    discard .session (FlowWorkerState.expireIdleSessions now clock)
  | .removeSession sessionId natNow =>
    discard .session (FlowWorkerState.removeSession sessionId natNow)
  | .removeByQuicFlow quicFlowId clock =>
    discard .session (FlowWorkerState.removeByQuicFlow quicFlowId clock)
  | .rebindQuicFlow oldId newId => discard .session (FlowWorkerState.rebindQuicFlow oldId newId)
  | .handleDnsQueryAt ioOwner packet now natNow =>
    discard id (FlowWorkerState.handleDnsQueryAt ioOwner packet config now natNow)
  | .handleDnsResponse packet natNow =>
    discard id (FlowWorkerState.handleDnsResponse packet natNow)
  | .expireDnsTransactions now clock =>
    discard id (FlowWorkerState.expireDnsTransactions now config clock)
  | .abortDnsTransaction binding natNow =>
    discard id (FlowWorkerState.abortDnsTransaction binding config natNow)
  | .abortRemoteDnsTransactions clock =>
    discard id (FlowWorkerState.abortRemoteDnsTransactions config clock)
  | .removeDnsTransactions clock =>
    discard .session (FlowWorkerState.removeDnsTransactions clock)

/-- The state after a sequence of calls; a call that fails leaves what it left. -/
def after (state : FlowWorkerState) (ops : List (DnsFlowConfig × Op)) : FlowWorkerState :=
  ops.foldl (fun s op => ((op.2.call op.1).run s).2) state

variable {first last : UInt16} {strict : Prop} {listen : SocketAddr} {capacity : ℕ}
  {state : FlowWorkerState}

theorem sound_newDual {workerId : ℕ} {snatIpv4 : Option (Vector UInt8 4)}
    {snatIpv6 : Option (Vector UInt8 16)}
    (h : newDual workerId snatIpv4 snatIpv6 first last = .ok state) :
    Sound first last strict listen capacity state := by
  obtain ⟨sessions, hsessions, h⟩ := Outcome.bind_eq_ok.mp h
  cases h
  obtain ⟨hco, ho⟩ := SessionTable.coherent_newDual hsessions
  refine ⟨fun _ => none, ⟨ho, hco, by simp, by simp, by simp, by simp⟩,
    fun _ => ⟨?_, Nat.zero_le _, rfl, by simp⟩⟩
  exact DeadlineIndex.indexes_empty

theorem discard_keeps {ε α : Type} {e : ε → FlowWorkerError} {x : Act FlowWorkerState ε α}
    {I : FlowWorkerState → Prop} (h : Act.Keeps I x) : Act.Keeps I (discard e x) := by
  intro s hs
  have hends := h s hs
  rcases hr : x.run s with ⟨(_ | _) | a, t⟩ <;> rw [hr] at hends <;>
    simp only [discard, hr, mapErr]
  · exact hends
  · exact hends
  · exact hends

/-- One call keeps the invariant and does not panic. -/
theorem call_sound (config : DnsFlowConfig)
    (hfit : strict → config.listen = listen ∧ config.transactionCapacity = capacity) (op : Op) :
    Act.Keeps (Sound first last strict listen capacity) (op.call config) := by
  cases op with
  | handleIntercept ioOwner packet quicFlow tunnelTarget now natNow =>
    exact discard_keeps (sound_of_framed fun _ _ => forwardInner_keeps _ _ _ _ _ _)
  | handleServerInner defaultIntercept packet quicFlow now natNow =>
    exact discard_keeps (sound_of_framed fun _ _ => forwardInner_keeps _ _ _ _ _ _)
  | handleReverse packet now =>
    exact discard_keeps (sound_of_framed fun _ _ => handleReverse_keeps _ _)
  | handleReverseFor packet locator now =>
    exact discard_keeps (sound_of_framed fun _ _ => handleReverseForInner_keeps _ _ _ _)
  | handleServerReverse observed packet locator now =>
    exact discard_keeps (sound_of_framed fun _ _ => handleReverseForInner_keeps _ _ _ _)
  | expireIdleSessions now clock =>
    exact discard_keeps (sound_of_framed fun _ _ => expireIdleSessions_keeps _ _)
  | removeSession sessionId natNow =>
    exact discard_keeps (sound_of_framed fun _ _ => removeSession_keeps _ _)
  | removeByQuicFlow quicFlowId clock =>
    exact discard_keeps (sound_of_framed fun _ _ => removeByQuicFlow_keeps _ _)
  | rebindQuicFlow oldId newId =>
    exact discard_keeps (sound_of_framed fun _ _ => rebindQuicFlow_keeps _ _)
  | handleDnsQueryAt ioOwner packet now natNow =>
    exact discard_keeps (handleDnsQueryAt_sound ioOwner packet config hfit now natNow)
  | handleDnsResponse packet natNow => exact discard_keeps (handleDnsResponse_sound packet natNow)
  | expireDnsTransactions now clock =>
    exact discard_keeps
      (keeps_of_held (expireDnsTransactions_spec now (fun hs => (hfit hs).1) clock))
  | abortDnsTransaction binding natNow =>
    exact discard_keeps (abortDnsTransaction_sound binding config natNow)
  | abortRemoteDnsTransactions clock =>
    exact discard_keeps
      (keeps_of_held (abortRemoteDnsTransactions_spec (fun hs => (hfit hs).1) clock))
  | removeDnsTransactions clock =>
    exact discard_keeps ((removeDnsTransactions_sound clock).weaken (fun _ hs => hs)
      (fun _ _ hs => hs.1) fun _ hs => hs.elim)

theorem after_sound (h : Sound first last strict listen capacity state)
    (ops : List (DnsFlowConfig × Op))
    (hfit : ∀ op ∈ ops, strict → op.1.listen = listen ∧ op.1.transactionCapacity = capacity) :
    Sound first last strict listen capacity (state.after ops) := by
  induction ops generalizing state with
  | nil => exact h
  | cons op rest ih =>
    exact ih ((call_sound op.1 (hfit op (by simp)) op.2).state h)
      fun op' hop' => hfit op' (List.mem_cons_of_mem _ hop')

/-- The indexes of the sessions and of the SNAT table agree. -/
structure IndexesAgree (state : FlowWorkerState) : Prop where
  byKey : ∀ original ifindex id, state.sessions.byKey.get ⟨original, ifindex⟩ = some id ↔
    ∃ session, state.sessions.get id = some session ∧ session.original = original ∧
      session.interceptIo.ifindex = ifindex
  deadlines : ∀ deadline id, state.sessions.deadlines.Filed deadline id ↔
    ∃ session, state.sessions.get id = some session ∧ session.expiresAt = deadline
  buckets : ∀ deadline bucket, state.sessions.deadlines.get deadline = some bucket →
    ∃ id, bucket.get id = some ()
  nat : ∀ id session, state.sessions.get id = some session →
    state.sessions.nat.get id = some session.nat
  forward : ∀ id, (∃ binding, state.sessions.nat.get id = some binding) ↔
    (∃ session, state.sessions.get id = some session) ∨
      ∃ key transaction, state.dnsByKey.get key = some transaction ∧ transaction.token = id
  disjoint : ∀ id session key transaction, state.sessions.get id = some session →
    state.dnsByKey.get key = some transaction → transaction.token ≠ id

/-- Expiry removes the sessions whose time has come, as a full scan would, and frees
their leases and ports. -/
def ExpiresExactly (now : Instant) (clock : ℕ → Instant) (state : FlowWorkerState) : Prop :=
  ∃ expired state', (expireIdleSessions now clock).run state = (.ok expired, state') ∧
    (expired.map Session.id).Nodup ∧
    (∀ session, session ∈ expired ↔
      state.sessions.get session.id = some session ∧ session.expiresAt ≤ now) ∧
    (∀ id, state'.sessions.get id =
      (state.sessions.get id).filter fun session => now < session.expiresAt) ∧
    ∀ session ∈ expired, state'.sessions.nat.get session.id = none ∧
      state'.sessions.nat.availablePorts.get session.nat.translated.sourcePort = some ()

theorem Leased.indexesAgree {ephemeral : SessionId → Option NatBinding}
    (h : Leased first last ephemeral state) : IndexesAgree state := by
  have hnat : ∀ id, state.sessions.nat.get id =
      ((state.sessions.get id).map Session.nat <|> ephemeral id) := by
    intro id
    rw [NatTable.get, h.sessions.nat.forward]
    simp [SessionTable.ledger, SessionTable.get, Function.comp_def]
  refine ⟨fun original ifindex id => ?_, fun deadline id => ?_, h.sessions.deadlines.nonempty,
    fun id session hs => ?_, fun id => ?_, fun id session key transaction hs hk ht => ?_⟩
  · rw [h.sessions.byKey]
    simp only [Session.key, SessionKey.mk.injEq, SessionTable.get]
  · rw [h.sessions.deadlines.filed, SessionTable.due, Option.map_eq_some_iff]
    rfl
  · rw [hnat, hs]
    rfl
  · rw [hnat]
    cases hs : state.sessions.get id with
    | some session => simp
    | none =>
      have hempty : ((none : Option Session).map Session.nat <|> ephemeral id) = ephemeral id := rfl
      simp only [hempty, h.ephemeral, reduceCtorEq, exists_false, false_or]
      constructor
      · rintro ⟨binding, key, transaction, hk, ht, -⟩
        exact ⟨key, transaction, hk, ht⟩
      · rintro ⟨key, transaction, hk, ht⟩
        exact ⟨transaction.binding, key, transaction, hk, ht, rfl⟩
  · have heph := h.ephemeral_of_get hk
    rw [ht, h.sessions.disjoint id session hs] at heph
    cases heph

theorem Leased.expiresExactly {ephemeral : SessionId → Option NatBinding}
    (h : Leased first last ephemeral state) (now : Instant) (clock : ℕ → Instant) :
    ExpiresExactly now clock state := by
  obtain ⟨expired, table, hrun, hco, hnodup, hmem, hget, ho⟩ :=
    SessionTable.expireIdle_ok h.sessions now clock
  refine ⟨expired, { state with sessions := table }, ?_, hnodup, hmem, hget, fun session hs => ?_⟩
  · rw [expireIdleSessions, Act.bind_of_ok (Act.run_get state)]
    simp only [onSessions, Act.zoom, ← h.owner, hrun, mapErr]
  obtain ⟨hs, hle⟩ := (hmem session).mp hs
  have hgone : table.ledger ephemeral session.id = none := by
    have hfiltered : table.sessions.get session.id = none := by
      rw [hget]
      simp [show state.sessions.sessions.get session.id = some session from hs,
        Option.filter_some, Nat.not_lt.mpr hle]
    simp [SessionTable.ledger, hfiltered, h.sessions.disjoint _ _ hs]
  refine ⟨by rw [NatTable.get, hco.nat.forward, hgone]; rfl, ?_⟩
  have hold := h.sessions.toLinked.ledger_session hs
  refine (hco.nat.available _).mpr ⟨h.sessions.nat.leased _ _ hold, ?_⟩
  rintro ⟨id, lease, hlease, hport⟩
  -- a lease that is left was there before, and no two had one port
  have hbefore : state.sessions.ledger ephemeral id = some lease := by
    simp only [SessionTable.ledger, hget, ho] at hlease ⊢
    cases hid : state.sessions.sessions.get id with
    | none => simpa [hid] using hlease
    | some other =>
      by_cases hlt : now < other.expiresAt
      · simpa [hid, Option.filter_some, hlt] using hlease
      · simp [hid, Option.filter_some, hlt, h.sessions.disjoint id other hid] at hlease
  rw [h.sessions.nat.exclusive _ _ _ _ hbefore hold hport, hgone] at hlease
  cases hlease

/-- Along every run the indexes of sessions, deadlines and leases agree; no call that
may come next panics; and expiry is exact. -/
theorem run_sessions_coherent {workerId : ℕ} {snatIpv4 : Option (Vector UInt8 4)}
    {snatIpv6 : Option (Vector UInt8 16)} {first last : UInt16} {start : FlowWorkerState}
    (hstart : newDual workerId snatIpv4 snatIpv6 first last = .ok start)
    (ops : List (DnsFlowConfig × Op)) :
    IndexesAgree (start.after ops) ∧
      (∀ config op, (((op : Op).call config).run (start.after ops)).1 ≠ panic) ∧
      ∀ now clock, ExpiresExactly now clock (start.after ops) := by
  have hsound : Sound first last False ⟨.v4 (Vector.replicate 4 0), 0⟩ 0 (start.after ops) :=
    after_sound (sound_newDual hstart) ops fun _ _ hs => hs.elim
  obtain ⟨ephemeral, hl, -⟩ := id hsound
  exact ⟨hl.indexesAgree, fun config op =>
    (call_sound config (fun hs => hs.elim) op).ne_panic hsound,
    fun now clock => hl.expiresExactly now clock⟩

/-- A datagram opens a session, which then has its lease and its deadline. -/
theorem run_sessions_coherent_datagram : ∃ start config,
    newDual 0 (some #v[192, 0, 2, 1]) none 1000 1001 = .ok start ∧
    let state := start.after [(config,
      .handleIntercept ⟨3, 0⟩ [69, 0, 0, 28, 0, 1, 0, 0, 9, 17, 224, 22, 192, 168, 1, 2, 8, 8, 8, 8,
        19, 136, 0, 53, 0, 8, 0, 0] ⟨⟨1⟩, 0, 0⟩ ⟨4, 0⟩ 7 7)]
    ∃ session, state.sessions.get ⟨1⟩ = some session ∧
      state.sessions.nat.get ⟨1⟩ = some session.nat ∧
      state.sessions.deadlines.Filed session.expiresAt ⟨1⟩ := by
  have hnew : newDual 0 (some #v[192, 0, 2, 1]) none 1000 1001 = .ok _ := rfl
  refine ⟨_, ⟨⟨.v4 #v[10, 0, 0, 53], 53⟩, ⟨.v4 #v[10, 0, 0, 54], 53⟩, ⟨.v4 #v[9, 9, 9, 9], 53⟩,
    ⟨HashMap.empty⟩, 8, 5, true⟩, hnew, ?_⟩
  intro state
  have hrun : IndexesAgree state := (run_sessions_coherent hnew _).1
  have hsome : (state.sessions.get ⟨1⟩).isSome := by decide +kernel
  obtain ⟨session, hsession⟩ := Option.isSome_iff_exists.mp hsome
  exact ⟨session, hsession, hrun.nat _ _ hsession,
    (hrun.deadlines _ _).mpr ⟨session, hsession, rfl⟩⟩

/-- The indexes of the DNS transactions agree with each other and with the SNAT table. -/
structure TransactionsAgree (capacity : ℕ) (state : FlowWorkerState) : Prop where
  reverse : ∀ flow key, state.dnsByReverse.get flow = some key ↔
    ∃ transaction, state.dnsByKey.get key = some transaction ∧
      transaction.binding.translated.reverse = flow
  deadlines : ∀ deadline key, state.dnsDeadlines.Filed deadline key ↔
    ∃ transaction, state.dnsByKey.get key = some transaction ∧ transaction.expiresAt = deadline
  buckets : ∀ deadline bucket, state.dnsDeadlines.get deadline = some bucket →
    ∃ key, bucket.get key = some ()
  bound : ∀ key transaction, state.dnsByKey.get key = some transaction →
    state.sessions.nat.get transaction.token = some transaction.binding
  capacity : state.dnsByKey.len ≤ capacity
  active : state.stats.dnsTransactionsActive = state.dnsByKey.len

/-- Expiry removes the transactions whose time has come and returns one SERVFAIL for
each of them. -/
def AnswersExpired (now : Instant) (config : DnsFlowConfig) (clock : ℕ → Instant)
    (state : FlowWorkerState) : Prop :=
  ∃ answers state', (expireDnsTransactions now config clock).run state = (.ok answers, state') ∧
    (∀ key, state'.dnsByKey.get key =
      (state.dnsByKey.get key).filter fun transaction => now < transaction.expiresAt) ∧
    (answers.map ExpiredDnsTransaction.transactionId).Nodup ∧
    (∀ key transaction, state.dnsByKey.get key = some transaction → transaction.expiresAt ≤ now →
      ∃ answer ∈ answers, answer.transactionId = transaction.token) ∧
    ∀ answer ∈ answers, ∃ key transaction, state.dnsByKey.get key = some transaction ∧
      transaction.expiresAt ≤ now ∧ answer.transactionId = transaction.token ∧
      answer.binding = transaction.binding ∧ answer.transmit.target = transaction.localTarget ∧
      IsServfail config.listen transaction.originalPacket answer.transmit.packet

theorem Leased.transactionsAgree {ephemeral : SessionId → Option NatBinding}
    (h : Leased first last ephemeral state) (ht : Timely listen capacity state) :
    TransactionsAgree capacity state := by
  refine ⟨h.reverse, fun deadline key => ?_, ht.deadlines.nonempty, fun key transaction hk => ?_,
    ht.capacity, ht.active⟩
  · rw [ht.deadlines.filed, Option.map_eq_some_iff]
  · have heph := h.ephemeral_of_get hk
    have hnone : state.sessions.sessions.get transaction.token = none := by
      cases hs : state.sessions.sessions.get transaction.token with
      | none => rfl
      | some session =>
        rw [h.sessions.disjoint _ _ hs] at heph
        cases heph
    rw [NatTable.get, h.sessions.nat.forward]
    simp [SessionTable.ledger, hnone, heph]

theorem Settled.answersExpired {ephemeral : SessionId → Option NatBinding} {now : Instant}
    {config : DnsFlowConfig} {clock : ℕ → Instant} {answers : List ExpiredDnsTransaction}
    {state' : FlowWorkerState} (hl : Leased first last ephemeral state)
    (ht : Timely config.listen capacity state)
    (hrun : (expireDnsTransactions now config clock).run state = (.ok answers, state'))
    {keys : List DnsFlowTransactionKey} (hnodup : keys.Nodup)
    (hkeys : ∀ key, key ∈ keys ↔
      ∃ transaction, state.dnsByKey.get key = some transaction ∧ transaction.expiresAt ≤ now)
    (hs : Settled config state.dnsByKey.get keys answers state') :
    AnswersExpired now config clock state := by
  have hanswers := hs.answers hnodup
  have hserv : ∀ key transaction, state.dnsByKey.get key = some transaction → ∃ packet,
      servfailForTransaction transaction config =
        .ok ⟨⟨transaction.localTarget, packet, none⟩, transaction.binding, transaction.token⟩ ∧
      IsServfail config.listen transaction.originalPacket packet :=
    fun key transaction hk => servfailForTransaction_ok (closing_nil.mpr ht) hk rfl
  refine ⟨answers, state', hrun, fun key => ?_, ?_, fun key transaction hk hle => ?_,
    fun answer hmem => ?_⟩
  · rw [hs.dnsByKey]
    simp only [hkeys]
    cases state.dnsByKey.get key with
    | none => simp
    | some transaction =>
      by_cases hle : transaction.expiresAt ≤ now
      · simp [hle, Option.filter_some, Nat.not_lt.mpr hle]
      · simp [hle, Option.filter_some, Nat.lt_of_not_le hle]
  · -- the tokens of the answers are those of the transactions, which are distinct
    have htokens : (keys.filterMap state.dnsByKey.get).map (some ∘ DnsFlowTransaction.token) =
        answers.map (some ∘ ExpiredDnsTransaction.transactionId) := by
      have hlists := congrArg (List.map fun answer : Outcome PacketError ExpiredDnsTransaction =>
        answer.toOption.map ExpiredDnsTransaction.transactionId) hanswers
      rw [List.map_map, List.map_map] at hlists
      refine (List.map_congr_left fun transaction hmem => ?_).trans hlists
      obtain ⟨key, -, hk⟩ := List.mem_filterMap.mp hmem
      obtain ⟨packet, hp, -⟩ := hserv key transaction hk
      simp [hp, Except.toOption]
    rw [← List.map_map, ← List.map_map] at htokens
    rw [← (Option.some_injective _).list_map htokens, List.map_filterMap]
    refine hnodup.filterMap fun key key' token h h' => ?_
    obtain ⟨transaction, hk, rfl⟩ := Option.map_eq_some_iff.mp h
    obtain ⟨transaction', hk', htoken⟩ := Option.map_eq_some_iff.mp h'
    exact hl.tokens key key' transaction transaction' hk hk' htoken.symm
  · have hin : servfailForTransaction transaction config ∈ answers.map Except.ok := by
      rw [← hanswers]
      exact List.mem_map_of_mem (List.mem_filterMap.mpr
        ⟨key, (hkeys key).mpr ⟨transaction, hk, hle⟩, hk⟩)
    obtain ⟨answer, hmem, hok⟩ := List.mem_map.mp hin
    obtain ⟨packet, hp, -⟩ := hserv key transaction hk
    rw [hp, Except.ok.injEq] at hok
    exact ⟨answer, hmem, by rw [hok]⟩
  · have hin : (Except.ok answer : Outcome PacketError ExpiredDnsTransaction) ∈
        (keys.filterMap state.dnsByKey.get).map (servfailForTransaction · config) := by
      rw [hanswers]
      exact List.mem_map_of_mem hmem
    obtain ⟨transaction, hmem, hok⟩ := List.mem_map.mp hin
    obtain ⟨key, hkey, hk⟩ := List.mem_filterMap.mp hmem
    obtain ⟨packet, hp, hshape⟩ := hserv key transaction hk
    obtain ⟨_, hk', hle⟩ := (hkeys key).mp hkey
    rw [hk, Option.some_inj] at hk'
    rw [hp, Except.ok.injEq] at hok
    exact ⟨key, transaction, hk, hk' ▸ hle, by rw [← hok], by rw [← hok], by rw [← hok],
      by rw [← hok]; exact hshape⟩

/-- Along every run with one configuration the indexes of the DNS transactions agree,
and expiry answers exactly the transactions whose time has come. -/
theorem run_transactions_coherent {workerId : ℕ} {snatIpv4 : Option (Vector UInt8 4)}
    {snatIpv6 : Option (Vector UInt8 16)} {first last : UInt16} {start : FlowWorkerState}
    (hstart : newDual workerId snatIpv4 snatIpv6 first last = .ok start) (config : DnsFlowConfig)
    (ops : List Op) :
    TransactionsAgree config.transactionCapacity (start.after (ops.map fun op => (config, op))) ∧
      ∀ now clock, AnswersExpired now config clock
        (start.after (ops.map fun op => (config, op))) := by
  have hsound : Sound first last True config.listen config.transactionCapacity
      (start.after (ops.map fun op => (config, op))) := by
    refine after_sound (sound_newDual hstart) _ fun op hop _ => ?_
    obtain ⟨_, _, rfl⟩ := List.mem_map.mp hop
    exact ⟨rfl, rfl⟩
  obtain ⟨ephemeral, hl, ht⟩ := id hsound
  refine ⟨hl.transactionsAgree (ht trivial), fun now clock => ?_⟩
  obtain ⟨answers, state', hrun, -, hsettled⟩ :=
    (expireDnsTransactions_spec now (fun _ => rfl) clock _).returns (fun _ hs => hs.1 trivial)
      ⟨hsound, rfl⟩
  obtain ⟨keys, hnodup, hkeys, hsettled⟩ := hsettled trivial
  exact hsettled.answersExpired hl (ht trivial) hrun hnodup hkeys

/-- A query for `a.` opens a transaction, which then holds a lease under its token. -/
theorem run_transactions_coherent_query : ∃ start config,
    newDual 0 (some #v[192, 0, 2, 1]) none 1000 1001 = .ok start ∧
    let state :=
      start.after ([Op.handleDnsQueryAt ⟨3, 0⟩ [69, 0, 0, 47, 0, 1, 0, 0, 9, 17, 229, 222,
      192, 168, 1, 2, 10, 0, 0, 53, 19, 136, 0, 53, 0, 27, 0, 0, 18, 52, 1, 0, 0, 1, 0, 0, 0, 0, 0,
      0, 1, 97, 0, 0, 1, 0, 1] 7 7].map fun op => (config, op))
    ∃ key transaction, state.dnsByKey.get key = some transaction ∧
      state.sessions.nat.get transaction.token = some transaction.binding ∧
      AnswersExpired 100 config (fun _ => 100) state := by
  have hnew : newDual 0 (some #v[192, 0, 2, 1]) none 1000 1001 = .ok _ := rfl
  refine ⟨_, ⟨⟨.v4 #v[10, 0, 0, 53], 53⟩, ⟨.v4 #v[10, 0, 0, 54], 53⟩, ⟨.v4 #v[9, 9, 9, 9], 53⟩,
    ⟨HashMap.empty⟩, 8, 5, true⟩, hnew, ?_⟩
  intro state
  have hsome : state.dnsByKey.toList.head?.isSome := by decide +kernel
  obtain ⟨⟨key, transaction⟩, hhead⟩ := Option.isSome_iff_exists.mp hsome
  have hk := HashMap.mem_toList.mp (List.mem_of_head? hhead)
  exact ⟨key, transaction, hk, (run_transactions_coherent hnew _ _).1.bound key transaction hk,
    (run_transactions_coherent hnew _ _).2 _ _⟩

end Runs

end NewProxy.FlowWorkerState
