import NewProxy.DnsQueries

/-!
# The ends of a DNS transaction

Its answer, its deadline, an abort of one or of all remote ones, and the drain at
shutdown. Each gives back the lease and every index entry.
-/
namespace NewProxy.FlowWorkerState

open Outcome Packet Dns

section Closing

variable {first last : UInt16} {strict : Prop} {listen : SocketAddr} {capacity : ℕ}
  {state start : FlowWorkerState} {ephemeral : SessionId → Option NatBinding}
  {key : DnsFlowTransactionKey} {transaction : DnsFlowTransaction}

/-- `Timely` while a loop closes transactions: the deadlines of the pending keys may
already be out of the index. -/
structure Closing (listen : SocketAddr) (capacity : ℕ) (pending : List DnsFlowTransactionKey)
    (state : FlowWorkerState) : Prop where
  deadlines : state.dnsDeadlines.Indexes fun key =>
    if key ∈ pending then none else (state.dnsByKey.get key).map (·.expiresAt)
  capacity : state.dnsByKey.len ≤ capacity
  active : state.stats.dnsTransactionsActive = state.dnsByKey.len
  answerable : ∀ key transaction, state.dnsByKey.get key = some transaction →
    Answerable listen transaction.originalPacket

theorem closing_nil : Closing listen capacity [] state ↔ Timely listen capacity state :=
  ⟨fun h => ⟨by simpa using h.deadlines, h.capacity, h.active, h.answerable⟩,
    fun h => ⟨by simpa using h.deadlines, h.capacity, h.active, h.answerable⟩⟩

/-- Closing the first pending transaction leaves the others pending. -/
theorem Closing.closed {pending rest : List DnsFlowTransactionKey}
    (h : Closing listen capacity pending state)
    (hrest : ∀ k, k ≠ key → (k ∈ pending ↔ k ∈ rest))
    (hk : state.dnsByKey.get key = some transaction) (nat : NatTable) :
    Closing listen capacity rest (state.closed key transaction nat) := by
  have hget : ∀ key', (state.dnsByKey.remove key).get key' =
      if key' = key then none else state.dnsByKey.get key' := fun key' => HashMap.get_remove _ _ _
  refine ⟨?_, ?_, rfl, ?_⟩
  · have hun := DeadlineIndex.unfile_indexes h.deadlines (k := key) (t := transaction.expiresAt) (by
      by_cases hp : key ∈ pending <;> simp [hp, hk])
    change (state.dnsDeadlines.unfile transaction.expiresAt key).Indexes _
    convert hun using 1
    funext key'
    simp only [FlowWorkerState.closed, unfileTransaction, hget, Function.update_apply]
    by_cases hc : key' = key
    · simp [hc]
    · simp only [hc, if_false, hrest key' hc]
  · have hlen := HashMap.len_remove hk
    have hcap := h.capacity
    simp only [FlowWorkerState.closed, unfileTransaction]
    omega
  · intro key' transaction' hk'
    simp only [FlowWorkerState.closed, unfileTransaction, hget] at hk'
    split_ifs at hk'
    exact h.answerable key' transaction' hk'

theorem Timely.closed (h : Timely listen capacity state)
    (hk : state.dnsByKey.get key = some transaction) (nat : NatTable) :
    Timely listen capacity (state.closed key transaction nat) :=
  closing_nil.mp ((closing_nil.mpr h).closed (fun _ _ => Iff.rfl) hk nat)

theorem servfailForTransaction_ne_panic (h : Leased first last ephemeral state)
    (hk : state.dnsByKey.get key = some transaction) (config : DnsFlowConfig) :
    servfailForTransaction transaction config ≠ panic := by
  obtain ⟨-, l, f, hc, hu⟩ := h.query key transaction hk
  rw [servfailForTransaction, parseFlowKey_eq_ok.mpr ⟨l, hc⟩, bind_ok]
  exact bind_ne_panic (dnsServfailTransmitToListen_cases hc hu _ config.listen).1
    fun _ _ => pure_ne_panic _

/-- An answerable transaction gets its SERVFAIL. -/
theorem servfailForTransaction_ok {pending : List DnsFlowTransactionKey}
    (h : Closing listen capacity pending state)
    (hk : state.dnsByKey.get key = some transaction) {config : DnsFlowConfig}
    (hlisten : config.listen = listen) :
    ∃ packet, servfailForTransaction transaction config =
      .ok ⟨⟨transaction.localTarget, packet, none⟩, transaction.binding, transaction.token⟩ ∧
        IsServfail config.listen transaction.originalPacket packet := by
  obtain ⟨l, f, hc, hu, hlong, hfam⟩ := h.answerable key transaction hk
  obtain ⟨packet, hp, hshape⟩ := (dnsServfailTransmitToListen_cases hc hu transaction.localTarget
    config.listen).2 hlong (hlisten ▸ hfam)
  refine ⟨packet, ?_, hshape⟩
  rw [servfailForTransaction, parseFlowKey_eq_ok.mpr ⟨l, hc⟩, bind_ok, dnsServfailTransmit, hp]
  rfl

theorem Sound.counted (h : Sound first last strict listen capacity state) :
    Sound first last strict listen capacity
      { state with stats := { state.stats with dnsTransactionsActive := state.dnsByKey.len } } := by
  obtain ⟨ephemeral, hl, ht⟩ := h
  exact ⟨ephemeral, ⟨hl.owner, hl.sessions, hl.ephemeral, hl.tokens, hl.reverse, hl.query⟩,
    fun hs => ⟨(ht hs).deadlines, (ht hs).capacity, rfl, (ht hs).answerable⟩⟩

/-- Counters and remembered tuples apart, `state` is `start`. -/
structure Counted (start state : FlowWorkerState) : Prop extends SameDns start state where
  sessions : state.sessions = start.sessions

theorem Counted.refl (state : FlowWorkerState) : Counted state state := ⟨.refl state, rfl⟩

theorem Counted.idle (h : Counted start state) : Idle start state :=
  ⟨h.toSameDns, start.sessions.nat.quarantined, h.sessions⟩

theorem Counted.ended (h : Counted start state) (key : DnsFlowTransactionKey)
    (transaction : DnsFlowTransaction) (natNow : Instant) :
    Counted (start.ended key transaction natNow) (state.ended key transaction natNow) := by
  refine ⟨⟨h.workerId, ?_, ?_, ?_, ?_⟩, ?_⟩ <;>
    simp only [FlowWorkerState.ended, FlowWorkerState.closed, unfileTransaction, h.sessions,
      h.dnsByKey, h.dnsByReverse, h.dnsDeadlines]

theorem count_counted {ε : Type} {f : FlowWorkerStats → FlowWorkerStats}
    {E : FlowWorkerState → Prop}
    (hf : ∀ stats, (f stats).dnsTransactionsActive = stats.dnsTransactionsActive) :
    Act.Triple (Counted start) (count f : Act FlowWorkerState ε Unit) (fun _ => Counted start) E :=
  .modify fun _ h => ⟨h.toSameDns.count hf, h.sessions⟩

/-- Counters apart, `state` is `start`. -/
structure Unchanged (start state : FlowWorkerState) : Prop extends Counted start state where
  completed : state.dnsCompletedReverse = start.dnsCompletedReverse
  order : state.dnsCompletedOrder = start.dnsCompletedOrder
  sequence : state.nextDnsCompletedSequence = start.nextDnsCompletedSequence

theorem Unchanged.refl (state : FlowWorkerState) : Unchanged state state :=
  ⟨.refl state, rfl, rfl, rfl⟩

theorem count_unchanged {ε : Type} {f : FlowWorkerStats → FlowWorkerStats}
    {E : FlowWorkerState → Prop}
    (hf : ∀ stats, (f stats).dnsTransactionsActive = stats.dnsTransactionsActive) :
    Act.Triple (Unchanged start) (count f : Act FlowWorkerState ε Unit)
      (fun _ => Unchanged start) E :=
  .modify fun _ h => ⟨⟨h.toSameDns.count hf, h.sessions⟩, h.completed, h.order, h.sequence⟩

/-- The state after a transaction was closed by its response. -/
def answered (state : FlowWorkerState) (key : DnsFlowTransactionKey)
    (transaction : DnsFlowTransaction) (natNow : Instant) : FlowWorkerState :=
  rememberCompletedDnsReverse transaction.binding.translated.reverse
    (state.ended key transaction natNow)

theorem Unchanged.of_answered {natNow : Instant}
    (h : Unchanged (start.answered key transaction natNow) state) :
    Counted (start.ended key transaction natNow) state :=
  ⟨⟨h.workerId, h.dnsByKey, h.dnsByReverse, h.dnsDeadlines, h.active⟩, h.sessions⟩

theorem Unchanged.answered (h : Unchanged start state) (key : DnsFlowTransactionKey)
    (transaction : DnsFlowTransaction) (natNow : Instant) :
    Unchanged (start.answered key transaction natNow) (state.answered key transaction natNow) := by
  have hended := h.ended key transaction natNow
  have hcompleted : (state.ended key transaction natNow).dnsCompletedReverse =
      (start.ended key transaction natNow).dnsCompletedReverse := h.completed
  have horder : (state.ended key transaction natNow).dnsCompletedOrder =
      (start.ended key transaction natNow).dnsCompletedOrder := h.order
  have hsequence : (state.ended key transaction natNow).nextDnsCompletedSequence =
      (start.ended key transaction natNow).nextDnsCompletedSequence := h.sequence
  refine ⟨⟨⟨hended.workerId, hended.dnsByKey, hended.dnsByReverse, hended.dnsDeadlines,
    hended.active⟩, hended.sessions⟩, ?_, ?_, ?_⟩ <;>
  simp only [FlowWorkerState.answered, rememberCompletedDnsReverse, hcompleted, horder, hsequence]

/-- The response a transaction is given for `packet`: the packet itself, sent on to the
client, or a SERVFAIL for the query when the payload is too long. -/
structure Answers (packet payload : Bytes) (transaction : DnsFlowTransaction)
    (response : HandledDnsResponse) : Prop where
  localTarget : response.localTarget = transaction.localTarget
  binding : response.binding = transaction.binding
  transactionId : response.transactionId = transaction.token
  packet : (payload.length ≤ dnsPayloadMax ∧ (rewritePacket ⟨transaction.dnsVip.ip,
      transaction.client.ip, transaction.dnsVip.port, transaction.client.port, .udp⟩).exec packet =
        .ok response.packet) ∨
    (dnsPayloadMax < payload.length ∧ ∃ flow, parseFlowKey transaction.originalPacket = .ok flow ∧
      dnsServfailTransmitToListen transaction.localTarget transaction.originalPacket flow
        transaction.dnsVip = .ok ⟨transaction.localTarget, response.packet, none⟩)

theorem answerTransaction_spec (packet payload : Bytes) {l : Layout} {f : FlowKey}
    (hc : Carries transaction.originalPacket l f) (hu : f.protocol = .udp) :
    Act.Triple (Unchanged start) (answerTransaction packet payload transaction)
      (fun response s => Unchanged start s ∧ Answers packet payload transaction response)
      (fun s => Unchanged start s ∧ ∀ response, ¬ Answers packet payload transaction response) := by
  refine .ite (fun hlong => ?_) fun hshort => ?_
  · refine .lift_bind_or (parseFlowKey_ne_panic _) (fun e s hfail _ => ?_) fun flow hflow => ?_
    · cases (parseFlowKey_eq_ok.mpr ⟨l, hc⟩).symm.trans hfail
    cases (parseFlowKey_eq_ok.mpr ⟨l, hc⟩).symm.trans hflow
    refine .bind (count_unchanged (by intro; rfl)) fun _ => ?_
    refine .lift_bind_or (dnsServfailTransmitToListen_cases hc hu _ _).1
      (fun e s hfail hs => ⟨hs, fun response ha => ?_⟩) fun transmit ht => .pure fun _ hs =>
        ⟨hs, rfl, rfl, rfl, .inr ⟨hlong, f, parseFlowKey_eq_ok.mpr ⟨l, hc⟩, ?_⟩⟩
    · rcases ha.packet with ⟨hle, -⟩ | ⟨-, flow, hflow, hok⟩
      · exact absurd hlong (Nat.not_lt.mpr hle)
      · cases (parseFlowKey_eq_ok.mpr ⟨l, hc⟩).symm.trans hflow
        cases hfail.symm.trans hok
    · rw [ht, dnsServfailTransmitToListen_target ht]
  · refine .bind (count_unchanged fun stats => by split_ifs <;> rfl) fun _ => ?_
    refine .lift_bind_or (rewritePacket_ne_panic packet _)
      (fun e s hfail hs => ⟨hs, fun response ha => ?_⟩) fun q hq => .pure fun _ hs =>
        ⟨hs, rfl, rfl, rfl, .inl ⟨Nat.not_lt.mp hshort, hq⟩⟩
    rcases ha.packet with ⟨-, hok⟩ | ⟨hlong, -⟩
    · cases hfail.symm.trans hok
    · exact absurd hlong hshort

/-- `packet` is a response to the query of an active transaction: it came back on the
transaction's tuple, with the query's identifier and question. -/
structure Matched (start : FlowWorkerState) (packet p payload : Bytes)
    (key : DnsFlowTransactionKey) (transaction : DnsFlowTransaction) : Prop where
  unfragmented : ipPacketIsFragmented packet = .ok false
  prepared : prepareForwardedPacket packet = .ok p
  flow : parseFlowKey p = .ok transaction.binding.translated.reverse
  held : start.dnsByKey.get key = some transaction
  carried : udpPayload p = .ok payload
  question : ∃ query, udpPayload transaction.originalPacket = .ok query ∧
    responseMatchesQuery query payload = .ok ()

/-- A response that is not dropped closes its transaction. -/
theorem handleDnsResponse_spec (hl : Leased first last ephemeral start) (packet : Bytes)
    (natNow : Instant) :
    Act.Triple (Unchanged start) (handleDnsResponse packet natNow)
      (fun response s => match response with
        | none => Unchanged start s
        | some response => ∃ p payload key transaction,
            Matched start packet p payload key transaction ∧
          Unchanged (start.answered key transaction natNow) s ∧
          Answers p payload transaction response)
      (fun s => Unchanged start s ∨ ∃ p payload key transaction,
        Matched start packet p payload key transaction ∧
        Unchanged (start.answered key transaction natNow) s ∧
        ∀ response, ¬ Answers p payload transaction response) := by
  refine .lift_bind (ipPacketIsFragmented_ne_panic packet) (fun _ hs => .inl hs)
    fun frag hfrag => ?_
  refine .ite (fun _ => .bind (count_unchanged (by intro; rfl)) fun _ => .pure fun _ hs => hs)
    fun hwhole => ?_
  refine .lift_bind (prepareForwardedPacket_ne_panic packet) (fun _ hs => .inl hs) fun p hp => ?_
  refine .lift_bind (parseFlowKey_ne_panic p) (fun _ hs => .inl hs) fun flow hflow => ?_
  refine .get fun state h => ?_
  cases hr : state.dnsByReverse.get flow with
  | none =>
    exact .bind (.pre (fun _ hs => hs ▸ h) (count_unchanged fun stats => by split_ifs <;> rfl))
      fun _ => .pure fun _ hs => hs
  | some key =>
    -- the reverse index names a transaction
    rw [h.dnsByReverse] at hr
    obtain ⟨transaction, hk, rfl⟩ := (hl.reverse flow key).mp hr
    have hk' : state.dnsByKey.get key = some transaction := h.dnsByKey ▸ hk
    simp only [hk']
    refine .pre (fun _ hs => hs ▸ h) ?_
    obtain ⟨-, l, f, hc, hu⟩ := hl.query key transaction hk
    refine .lift_bind (udpPayload_ne_panic p) (fun _ hs => .inl hs) fun payload hpayload => ?_
    refine .lift_bind (udpPayload_ne_panic _) (fun _ hs => .inl hs) fun query hquery => ?_
    refine .call_bind (attempt_ne_panic (responseMatchesQuery_ne_panic _ _)) (fun _ hs => .inl hs)
      fun matched hm => ?_
    rcases matched with e | _
    · exact .bind (count_unchanged (by intro; rfl)) fun _ => .pure fun _ hs => hs
    have hmatched : Matched start packet p payload key transaction :=
      ⟨by rw [hfrag, Bool.of_not_eq_true hwhole], hp, hflow, hk, hpayload, query, hquery,
        attempt_eq_ok_ok.mp hm⟩
    intro s hs
    obtain ⟨hrun, -⟩ := removeDnsTransaction_ok ((hs.idle.framed hl).leased hl)
      (hs.dnsByKey ▸ hk) FlowWorkerError.session natNow
    rw [Act.bind_of_ok hrun]
    refine Act.Triple.expect_bind (P := fun t => t = s.ended key transaction natNow) ?_ _ rfl
    refine .bind (Q := fun _ => Unchanged (start.answered key transaction natNow)) (.modify ?_)
      fun _ => ?_
    · rintro _ rfl
      exact hs.answered key transaction natNow
    refine .bind (Q := fun _ => Unchanged (start.answered key transaction natNow))
      (.modify fun _ hs =>
      ⟨⟨⟨hs.workerId, hs.dnsByKey, hs.dnsByReverse, hs.dnsDeadlines,
        congrArg HashMap.len hs.dnsByKey⟩, hs.sessions⟩, hs.completed, hs.order, hs.sequence⟩)
      fun _ => ?_
    exact .bind ((answerTransaction_spec p payload hc hu).weaken (fun _ hs => hs) (fun _ _ hs => hs)
      fun _ hs => .inr ⟨p, payload, key, transaction, hmatched, hs⟩) fun response =>
        .pure fun _ hs =>
        ⟨p, payload, key, transaction, hmatched, hs⟩

/-- An abort closes the transaction that holds the tuple. -/
theorem abortDnsTransaction_spec (hl : Leased first last ephemeral start) (binding : NatBinding)
    (config : DnsFlowConfig) (natNow : Instant) :
    Act.Triple (Counted start) (abortDnsTransaction binding config natNow)
      (fun aborted s => match aborted with
        | none => Counted start s ∧ start.dnsByReverse.get binding.translated.reverse = none
        | some aborted => ∃ key transaction, start.dnsByKey.get key = some transaction ∧
          transaction.binding.translated.reverse = binding.translated.reverse ∧
          Counted (start.ended key transaction natNow) s ∧
          servfailForTransaction transaction config = .ok aborted)
      (fun s => ∃ key transaction, start.dnsByKey.get key = some transaction ∧
        Counted (start.ended key transaction natNow) s ∧
        ∀ aborted, servfailForTransaction transaction config ≠ .ok aborted) := by
  refine .get fun state h => ?_
  cases hr : state.dnsByReverse.get binding.translated.reverse with
  | none => exact .pure fun _ hs => ⟨hs ▸ h, h.dnsByReverse ▸ hr⟩
  | some key =>
    -- the reverse index names a transaction, so the expected one is there
    rw [h.dnsByReverse] at hr
    obtain ⟨transaction, hk, hrev⟩ := (hl.reverse _ _).mp hr
    intro s hs
    have hs : Counted start s := hs ▸ h
    obtain ⟨hrun, -⟩ := removeDnsTransaction_ok ((hs.idle.framed hl).leased hl)
      (hs.dnsByKey ▸ hk) FlowWorkerError.session natNow
    dsimp only
    rw [Act.bind_of_ok hrun]
    refine Act.Triple.expect_bind (P := Counted (start.ended key transaction natNow)) ?_ _
      (hs.ended key transaction natNow)
    refine .bind (count_counted (by intro; rfl)) fun _ => ?_
    refine .lift_bind_or (servfailForTransaction_ne_panic hl hk config) (fun e s hfail hs => ?_)
      fun aborted ha => .pure fun _ hs => ⟨key, transaction, hk, hrev, hs, ha⟩
    exact ⟨key, transaction, hk, hs, fun aborted ha => by cases hfail.symm.trans ha⟩

theorem Sound.ended (h : Sound first last strict listen capacity start)
    (hk : start.dnsByKey.get key = some transaction) (natNow : Instant) :
    Sound first last strict listen capacity (start.ended key transaction natNow) := by
  obtain ⟨ephemeral, hl, ht⟩ := h
  exact ⟨_, (removeDnsTransaction_ok hl hk FlowWorkerError.session natNow).2,
    fun hs => (ht hs).closed hk _⟩

theorem handleDnsResponse_sound (packet : Bytes) (natNow : Instant) :
    Act.Keeps (Sound first last strict listen capacity) (handleDnsResponse packet natNow) := by
  intro start h
  obtain ⟨ephemeral, hl, -⟩ := id h
  refine (handleDnsResponse_spec hl packet natNow).weaken (fun _ hs => hs) ?_ ?_ start (.refl start)
  · rintro (_ | response) s hs
    · exact hs.idle.sound h
    · obtain ⟨p, payload, key, transaction, hm, hs, -⟩ := hs
      exact hs.of_answered.idle.sound (h.ended hm.held natNow)
  · rintro s (hs | ⟨p, payload, key, transaction, hm, hs, -⟩)
    · exact hs.idle.sound h
    · exact hs.of_answered.idle.sound (h.ended hm.held natNow)

theorem abortDnsTransaction_sound (binding : NatBinding) (config : DnsFlowConfig)
    (natNow : Instant) :
    Act.Keeps (Sound first last strict listen capacity)
      (abortDnsTransaction binding config natNow) := by
  intro start h
  obtain ⟨ephemeral, hl, -⟩ := id h
  refine (abortDnsTransaction_spec hl binding config natNow).weaken (fun _ hs => hs) ?_ ?_ start
    (.refl start)
  · rintro (_ | aborted) s hs
    · exact hs.1.idle.sound h
    · obtain ⟨key, transaction, hk, -, hs, -⟩ := hs
      exact hs.idle.sound (h.ended hk natNow)
  · rintro s ⟨key, transaction, hk, hs, -⟩
    exact hs.idle.sound (h.ended hk natNow)

/-- The invariant between two rounds of a loop that closes transactions. -/
def Mid (first last : UInt16) (strict : Prop) (listen : SocketAddr) (capacity : ℕ)
    (pending : List DnsFlowTransactionKey) (state : FlowWorkerState) : Prop :=
  ∃ ephemeral, Leased first last ephemeral state ∧ (strict → Closing listen capacity pending state)

theorem mid_nil : Mid first last strict listen capacity [] state ↔
    Sound first last strict listen capacity state := by
  simp only [Mid, Sound, closing_nil]

/-- A pending key without a transaction is no longer pending. -/
theorem Closing.skip {pending rest : List DnsFlowTransactionKey}
    (h : Closing listen capacity pending state)
    (hrest : ∀ k, k ≠ key → (k ∈ pending ↔ k ∈ rest)) (hk : state.dnsByKey.get key = none) :
    Closing listen capacity rest state := by
  refine ⟨?_, h.capacity, h.active, h.answerable⟩
  convert h.deadlines using 1
  funext key'
  by_cases hc : key' = key
  · simp [hc, hk]
  · simp only [hrest key' hc]

/-- What closing `keys` makes of the transactions `held`: those are gone, the others
stay, and the answers are the SERVFAILs in turn. -/
structure Settled (config : DnsFlowConfig)
    (held : DnsFlowTransactionKey → Option DnsFlowTransaction) (keys : List DnsFlowTransactionKey)
    (answers : List ExpiredDnsTransaction) (state : FlowWorkerState) : Prop where
  dnsByKey : ∀ key, state.dnsByKey.get key = if key ∈ keys then none else held key
  answers : keys.Nodup →
    (keys.filterMap held).map (servfailForTransaction · config) = answers.map .ok

variable {config : DnsFlowConfig} {held : DnsFlowTransactionKey → Option DnsFlowTransaction}
  {rest : List DnsFlowTransactionKey} {answers : List ExpiredDnsTransaction}

theorem Settled.skip (h : Settled config held rest answers state) (hk : held key = none) :
    Settled config held (key :: rest) answers state := by
  refine ⟨fun key' => ?_, fun hnodup => ?_⟩
  · rw [h.dnsByKey]
    by_cases hc : key' = key
    · simp [hc, hk]
    · simp [hc]
  · rw [List.filterMap_cons_none hk]
    exact h.answers (List.nodup_cons.mp hnodup).2

theorem Settled.close (h : Settled config (Function.update held key none) rest answers state)
    (hk : held key = some transaction) {answer : ExpiredDnsTransaction}
    (ha : servfailForTransaction transaction config = .ok answer) :
    Settled config held (key :: rest) (answer :: answers) state := by
  refine ⟨fun key' => ?_, fun hnodup => ?_⟩
  · rw [h.dnsByKey, Function.update_apply]
    by_cases hc : key' = key
    · simp [hc]
    · simp [hc]
  · obtain ⟨hnot, hnodup⟩ := List.nodup_cons.mp hnodup
    have hrest : rest.filterMap (Function.update held key none) = rest.filterMap held := by
      refine List.filterMap_congr fun key' hmem => ?_
      have hne : key' ≠ key := fun hc => hnot (hc ▸ hmem)
      rw [Function.update_of_ne hne]
    rw [List.filterMap_cons_some hk, List.map_cons, List.map_cons, ha, ← h.answers hnodup, hrest]

/-- Every round closes one transaction with its SERVFAIL. An error can only come from
a listener of another family, which a fixed configuration rules out. `popped` says
whether the deadlines of the keys are out of the index already. -/
theorem closeTransactions_spec {f : FlowWorkerStats → FlowWorkerStats}
    (hf : ∀ stats, (f stats).dnsTransactionsActive = stats.dnsTransactionsActive)
    (hlisten : strict → config.listen = listen) (clock : ℕ → Instant)
    (popped : Bool) (keys : List DnsFlowTransactionKey)
    (held : DnsFlowTransactionKey → Option DnsFlowTransaction) :
    Act.Triple
      (fun s => Mid first last strict listen capacity (if popped then keys else []) s ∧
        s.dnsByKey.get = held)
      (closeTransactions f config clock keys)
      (fun answers s => Sound first last strict listen capacity s ∧
        Settled config held keys answers s)
      (fun s => ¬ strict ∧ Sound first last strict listen capacity s) := by
  induction keys generalizing held with
  | nil =>
    refine .pure fun s ⟨hs, hheld⟩ => ⟨mid_nil.mp (by cases popped <;> exact hs), ?_⟩
    exact ⟨fun key => by simp [hheld], fun _ => rfl⟩
  | cons key rest ih =>
    have hrest : ∀ k, k ≠ key → (k ∈ (if popped then key :: rest else []) ↔
        k ∈ (if popped then rest else [])) := by
      intro k hk
      cases popped
      · rfl
      · simp [hk]
    rintro state ⟨⟨ephemeral, hl, hclosing⟩, rfl⟩
    cases hk : state.dnsByKey.get key with
    | none =>
      have hrun : (removeDnsTransaction FlowWorkerError.session key (clock rest.length)).run state =
          (.ok none, state) := by
        rw [removeDnsTransaction, Act.bind_of_ok (Act.run_get state)]
        simp only [hk]
        rfl
      rw [closeTransactions, Act.bind_of_ok hrun]
      exact (ih _).weaken (fun _ hs => hs) (fun _ _ hs => ⟨hs.1, hs.2.skip hk⟩)
        (fun _ hs => hs) state ⟨⟨ephemeral, hl, fun hs => (hclosing hs).skip hrest hk⟩, rfl⟩
    | some transaction =>
      obtain ⟨hrun, hclosed⟩ := removeDnsTransaction_ok hl hk FlowWorkerError.session
        (clock rest.length)
      rw [closeTransactions, Act.bind_of_ok hrun]
      dsimp only
      rcases hserv : servfailForTransaction transaction config with (e | _) | answer
      · -- not reached with the fixed listener
        have hnot : ¬ strict := fun hs => by
          obtain ⟨packet, hp, -⟩ := servfailForTransaction_ok (hclosing hs) hk (hlisten hs)
          rw [hp] at hserv
          cases hserv
        exact ⟨hnot, _, hclosed, fun hs => absurd hs hnot⟩
      · exact absurd hserv (servfailForTransaction_ne_panic hl hk config)
      · have hcount : Mid first last strict listen capacity (if popped then rest else [])
            { state.ended key transaction (clock rest.length) with
              stats := f (state.ended key transaction (clock rest.length)).stats } :=
          ⟨_, ⟨hclosed.owner, hclosed.sessions, hclosed.ephemeral, hclosed.tokens, hclosed.reverse,
            hclosed.query⟩, fun hs =>
            have hc := (hclosing hs).closed hrest hk _
            ⟨hc.deadlines, hc.capacity, (hf _).trans hc.active, hc.answerable⟩⟩
        have hothers : Act.Triple
            (fun s => Mid first last strict listen capacity (if popped then rest else []) s ∧
              s.dnsByKey.get = Function.update state.dnsByKey.get key none)
            (do let others ← closeTransactions f config clock rest
                return answer :: others)
            (fun answers s => Sound first last strict listen capacity s ∧
              Settled config state.dnsByKey.get (key :: rest) answers s)
            (fun s => ¬ strict ∧ Sound first last strict listen capacity s) :=
          .bind (ih _) fun _ => .pure fun _ hs => ⟨hs.1, hs.2.close hk hserv⟩
        refine hothers _ ⟨hcount, ?_⟩
        funext key'
        rw [Function.update_apply]
        exact HashMap.get_remove _ _ _

theorem abortRemoteDnsTransactions_spec (hlisten : strict → config.listen = listen)
    (clock : ℕ → Instant) (held : DnsFlowTransactionKey → Option DnsFlowTransaction) :
    Act.Triple (fun s => Sound first last strict listen capacity s ∧ s.dnsByKey.get = held)
      (abortRemoteDnsTransactions config clock)
      (fun answers s => Sound first last strict listen capacity s ∧ ∃ keys : List _, keys.Nodup ∧
        (∀ key, key ∈ keys ↔ ∃ transaction, held key = some transaction ∧ transaction.remote) ∧
        Settled config held keys answers s)
      (fun s => ¬ strict ∧ Sound first last strict listen capacity s) := by
  refine .get fun state ⟨h, hheld⟩ => ?_
  refine (closeTransactions_spec (by intro; rfl) hlisten clock false _ held).weaken
    (fun s hs => by rw [hs]; exact ⟨mid_nil.mpr h, hheld⟩)
    (fun answers s hs => ⟨hs.1, _, ?_, ?_, hs.2⟩) fun _ hs => hs
  · exact state.dnsByKey.nodup_keys.sublist (List.filter_sublist.map Prod.fst)
  · intro key
    simp only [List.mem_map, List.mem_filter, HashMap.mem_toList, Prod.exists, exists_and_right,
      exists_eq_right, ← hheld]

/-- Without a remote transaction there is nothing to abort. -/
theorem abortRemoteDnsTransactions_quiet
    (h : ∀ key transaction, state.dnsByKey.get key = some transaction → transaction.remote = false)
    (config : DnsFlowConfig) (clock : ℕ → Instant) :
    (abortRemoteDnsTransactions config clock).run state = (.ok [], state) := by
  have hnone : state.dnsByKey.toList.filter (fun e => e.2.remote) = [] := by
    rw [List.filter_eq_nil_iff]
    rintro ⟨key, transaction⟩ hmem
    simp [h key transaction (HashMap.mem_toList.mp hmem)]
  rw [abortRemoteDnsTransactions, Act.bind_of_ok (Act.run_get state), hnone]
  rfl

theorem expireDnsTransactions_spec (now : Instant) (hlisten : strict → config.listen = listen)
    (clock : ℕ → Instant) (held : DnsFlowTransactionKey → Option DnsFlowTransaction) :
    Act.Triple (fun s => Sound first last strict listen capacity s ∧ s.dnsByKey.get = held)
      (expireDnsTransactions now config clock)
      (fun answers s => Sound first last strict listen capacity s ∧
        (strict → ∃ keys : List _, keys.Nodup ∧ (∀ key, key ∈ keys ↔
          ∃ transaction, held key = some transaction ∧ transaction.expiresAt ≤ now) ∧
          Settled config held keys answers s))
      (fun s => ¬ strict ∧ Sound first last strict listen capacity s) := by
  refine .get fun state ⟨h, hheld⟩ => ?_
  obtain ⟨ephemeral, hl, ht⟩ := h
  refine .bind (Q := fun _ s => Mid first last strict listen capacity
    (if true then (state.dnsDeadlines.popDue now).1 else []) s ∧ s.dnsByKey.get = held)
    (.modify fun s hs => ?_) fun _ => .bind
      (closeTransactions_spec (by intro; rfl) hlisten clock true _ held) fun answers => .bind
        (.modify fun s hs =>
          ⟨hs.1.counted, fun hstrict => ⟨_, ?_, ?_, hs.2.dnsByKey, hs.2.answers⟩⟩)
          fun _ => .pure fun _ hs => hs
  · subst hs
    refine ⟨⟨ephemeral, ⟨hl.owner, hl.sessions, hl.ephemeral, hl.tokens, hl.reverse, hl.query⟩,
      fun hstrict => ⟨?_, (ht hstrict).capacity, (ht hstrict).active, (ht hstrict).answerable⟩⟩,
      hheld⟩
    change (s.dnsDeadlines.popDue now).2.Indexes _
    convert DeadlineIndex.popDue_indexes (ht hstrict).deadlines now using 1
    funext key
    simp only [if_true, DeadlineIndex.mem_popDue (ht hstrict).deadlines]
    cases s.dnsByKey.get key with
    | none => simp
    | some transaction =>
      by_cases hle : transaction.expiresAt ≤ now
      · simp [hle, Option.filter_some, Nat.not_lt.mpr hle]
      · simp [hle, Option.filter_some, Nat.lt_of_not_le hle]
  · exact DeadlineIndex.nodup_popDue (ht hstrict).deadlines now
  · intro key
    rw [DeadlineIndex.mem_popDue (ht hstrict).deadlines, hheld]
    simp

/-- A spec over the transactions held at the start keeps the invariant. -/
theorem keeps_of_held {α : Type} {x : Act FlowWorkerState FlowWorkerError α}
    {R : (DnsFlowTransactionKey → Option DnsFlowTransaction) → α → FlowWorkerState → Prop}
    (h : ∀ held, Act.Triple
      (fun s => Sound first last strict listen capacity s ∧ s.dnsByKey.get = held) x
      (fun a s => Sound first last strict listen capacity s ∧ R held a s)
      (fun s => ¬ strict ∧ Sound first last strict listen capacity s)) :
    Act.Keeps (Sound first last strict listen capacity) x :=
  fun s hs => (h s.dnsByKey.get).weaken (fun _ hs => hs) (fun _ _ hs => hs.1) (fun _ hs => hs.2) s
    ⟨hs, rfl⟩

/-- While the drained transactions give their leases back, the leases left are those
of the transactions still to come. -/
structure Draining (first last : UInt16) (remaining : List DnsFlowTransaction)
    (state : FlowWorkerState) : Prop where
  owner : state.sessions.ownerWorkerId = state.workerId
  sessions : ∃ ephemeral, state.sessions.Coherent first last ephemeral ∧
    ∀ token binding, ephemeral token = some binding ↔
      ∃ transaction ∈ remaining, transaction.token = token ∧ transaction.binding = binding
  tokens : (remaining.map DnsFlowTransaction.token).Nodup
  dnsByKey : state.dnsByKey = .empty
  dnsByReverse : state.dnsByReverse = .empty
  dnsDeadlines : state.dnsDeadlines = .empty

theorem releaseAll_spec (clock : ℕ → Instant) (transactions : List DnsFlowTransaction) :
    Act.Triple (Draining first last transactions) (releaseAll clock transactions)
      (fun _ => Draining first last []) (fun _ => False) := by
  induction transactions with
  | nil => exact .pure fun _ h => h
  | cons transaction rest ih =>
    refine .get fun state h => ?_
    obtain ⟨ephemeral, hco, heph⟩ := h.sessions
    have htoken : ephemeral transaction.token = some transaction.binding :=
      (heph _ _).mpr ⟨transaction, by simp, rfl, rfl⟩
    have hnodup := h.tokens
    rw [List.map_cons, List.nodup_cons] at hnodup
    obtain ⟨hrun, hl⟩ := SessionTable.releaseEphemeralNat_ok hco.toLinked htoken
      (clock rest.length)
    refine .bind (Q := fun _ => Draining first last rest) ?_ fun _ =>
      .bind ih fun _ => .pure fun _ hs => hs
    intro s hs
    rw [hs, ← h.owner]
    apply onSessions_ends
    rw [hrun]
    refine ⟨h.owner, ⟨_, ⟨hl, hco.deadlines⟩, fun token binding => ?_⟩, hnodup.2, h.dnsByKey,
      h.dnsByReverse, h.dnsDeadlines⟩
    rw [Function.update_apply]
    split_ifs with hc
    · subst hc
      refine iff_of_false (by simp) ?_
      rintro ⟨t, hmem, ht, -⟩
      exact hnodup.1 (ht ▸ List.mem_map_of_mem hmem)
    · rw [heph]
      simp only [List.mem_cons, exists_eq_or_imp]
      refine or_iff_right fun hb => hc hb.1.symm

/-- The drain leaves no transaction. -/
theorem removeDnsTransactions_sound (clock : ℕ → Instant) :
    Act.Triple (Sound first last strict listen capacity) (removeDnsTransactions clock)
      (fun _ s => Sound first last strict listen capacity s ∧ s.dnsByKey = .empty)
      (fun _ => False) := by
  refine .get fun state h => ?_
  obtain ⟨ephemeral, hl, -⟩ := h
  refine .bind (Q := fun _ => Draining first last (state.dnsByKey.toList.map Prod.snd))
    (.modify fun s hs => ?_) fun _ => .bind (releaseAll_spec clock _) fun _ =>
      .bind (.modify fun s hs => ?_) fun _ => .pure fun _ hs => hs
  · subst hs
    refine ⟨hl.owner, ⟨ephemeral, hl.sessions, fun token binding => ?_⟩, ?_, rfl, rfl, rfl⟩
    · rw [hl.ephemeral]
      simp only [List.mem_map, Prod.exists, exists_eq_right, HashMap.mem_toList]
      constructor
      · rintro ⟨key, transaction, hk, ht⟩
        exact ⟨transaction, ⟨key, hk⟩, ht⟩
      · rintro ⟨transaction, ⟨key, hk⟩, ht⟩
        exact ⟨key, transaction, hk, ht⟩
    · -- keys are filed once and tokens name keys
      rw [List.map_map]
      refine (List.Nodup.of_map _ s.dnsByKey.nodup_keys).map_on ?_
      rintro ⟨key, transaction⟩ hmem ⟨key', transaction'⟩ hmem' htoken
      rw [HashMap.mem_toList] at hmem hmem'
      have hkey := hl.tokens key key' transaction transaction' hmem hmem' htoken
      subst hkey
      rw [hmem, Option.some_inj] at hmem'
      rw [hmem']
  · obtain ⟨ephemeral, hco, heph⟩ := hs.sessions
    have hget : ∀ key, s.dnsByKey.get key = none := fun key => by rw [hs.dnsByKey]; rfl
    have hrev : ∀ flow, s.dnsByReverse.get flow = none := fun flow => by rw [hs.dnsByReverse]; rfl
    refine ⟨⟨ephemeral, ⟨hs.owner, hco, fun token binding => ?_, ?_, ?_, ?_⟩,
      fun _ => ⟨?_, ?_, ?_, ?_⟩⟩, hs.dnsByKey⟩
    · rw [heph]
      simp [hget]
    · simp [hget]
    · simp [hget, hrev]
    · simp [hget]
    · simp only [hs.dnsDeadlines, hget, Option.map_none]
      exact DeadlineIndex.indexes_empty
    · simp only [hs.dnsByKey]
      exact Nat.zero_le _
    · simp only [hs.dnsByKey]
      rfl
    · simp [hget]

end Closing

end NewProxy.FlowWorkerState
