import NewProxy.RoundTrip

/-!
# What a call does to the DNS side of a flow worker

Each call closes transactions, or opens one for a query, or completes one with its
response, or drains them all. The tuples remembered as completed change with the last
three only. What holds of the transactions along a run follows from these four.
-/
namespace NewProxy

namespace FlowWorkerState

open Outcome Packet Dns

variable {first last : UInt16} {strict : Prop} {listen : SocketAddr} {capacity : ℕ}
  {ephemeral : SessionId → Option NatBinding} {start state state' : FlowWorkerState}

/-- The tuples remembered as completed, and the number of the next one. -/
def memory (state : FlowWorkerState) : HashMap FlowKey UInt64 × OrdMap UInt64 FlowKey × UInt64 :=
  (state.dnsCompletedReverse, state.dnsCompletedOrder, state.nextDnsCompletedSequence)

theorem memory_eq_iff : state'.memory = state.memory ↔
    state'.dnsCompletedReverse = state.dnsCompletedReverse ∧
      state'.dnsCompletedOrder = state.dnsCompletedOrder ∧
      state'.nextDnsCompletedSequence = state.nextDnsCompletedSequence := by
  simp only [memory, Prod.mk.injEq]

theorem memory_forget_congr (h : state'.memory = state.memory) (flow : FlowKey) :
    (forgetCompletedDnsReverse flow state').memory =
      (forgetCompletedDnsReverse flow state).memory := by
  obtain ⟨hcompleted, horder, hsequence⟩ := memory_eq_iff.mp h
  simp only [forgetCompletedDnsReverse, hcompleted]
  cases state.dnsCompletedReverse.get flow with
  | none => exact h
  | some sequence => simp only [memory, horder, hsequence]

theorem memory_remember_congr (h : state'.memory = state.memory) (flow : FlowKey) :
    (rememberCompletedDnsReverse flow state').memory =
      (rememberCompletedDnsReverse flow state).memory := by
  obtain ⟨hcompleted, horder, hsequence⟩ := memory_eq_iff.mp h
  simp only [rememberCompletedDnsReverse, memory, hcompleted, horder, hsequence]

section Closing

/-- A property of the DNS side, which calls on the sessions do not touch. -/
structure DnsOnly (P : FlowWorkerState → Prop) : Prop where
  sessions : ∀ state sessions, P state → P { state with sessions }
  stats : Uncounted P

variable {ε α : Type} {P : FlowWorkerState → Prop}

theorem DnsOnly.onSessions (h : DnsOnly P) {e : SessionError → ε}
    {x : Act SessionTable SessionError α} : Act.Stable P (onSessions e x) :=
  .zoom_frame fun _ _ hs => h.sessions _ _ hs

theorem DnsOnly.returnable (h : DnsOnly P) (id : SessionId) (observed : Option IoOwnerKey) :
    Returnable P id observed :=
  ⟨h.stats, fun _ _ _ => h.onSessions, fun _ _ _ => h.onSessions⟩

theorem DnsOnly.releasable (h : DnsOnly P) : Releasable P := ⟨h.stats, fun _ _ _ _ => h.onSessions⟩

theorem DnsOnly.closable (h : DnsOnly P)
    (hunfile : ∀ state key transaction, P state → P (unfileTransaction key transaction state))
    (hdeadlines : ∀ state dnsDeadlines, P state → P { state with dnsDeadlines }) : Closable P :=
  ⟨h.releasable, hunfile, hdeadlines⟩

/-- Nothing but closing transactions has happened since `start`. -/
structure Dropped (start state : FlowWorkerState) : Prop where
  held : ∀ key transaction, state.dnsByKey.get key = some transaction →
    start.dnsByKey.get key = some transaction
  memory : state.memory = start.memory

theorem Dropped.refl (state : FlowWorkerState) : Dropped state state := ⟨fun _ _ h => h, rfl⟩

theorem dropped_dnsOnly (start : FlowWorkerState) : DnsOnly (Dropped start) :=
  ⟨fun _ _ h => ⟨h.held, h.memory⟩, fun _ _ h => ⟨h.held, h.memory⟩⟩

theorem dropped_closable (start : FlowWorkerState) : Closable (Dropped start) := by
  refine (dropped_dnsOnly start).closable (fun s key transaction h =>
    ⟨fun key' transaction' hk => ?_, h.memory⟩) fun _ _ h => ⟨h.held, h.memory⟩
  rw [show (unfileTransaction key transaction s).dnsByKey.get key' = _ from
    HashMap.get_remove _ _ _] at hk
  split_ifs at hk
  exact h.held key' transaction' hk

end Closing

section Opening

/-- The DNS side is that of `start`. -/
def DnsSame (start state : FlowWorkerState) : Prop :=
  state.dnsByKey = start.dnsByKey ∧ state.memory = start.memory

/-- A transaction was added, and its tuple is no longer remembered. -/
structure Added (start : FlowWorkerState) (key : DnsFlowTransactionKey)
    (transaction : DnsFlowTransaction) (state : FlowWorkerState) : Prop where
  free : start.dnsByKey.get key = none
  dnsByKey : state.dnsByKey = start.dnsByKey.insert key transaction
  memory : state.memory =
    (forgetCompletedDnsReverse transaction.binding.translated.reverse start).memory

/-- The token the next transaction is given. -/
def nextToken (state : FlowWorkerState) : SessionId :=
  ⟨((1 : UInt64) <<< 63) ||| state.nextDnsToken⟩

theorem nextCounter_toNat {counter : UInt64} (h : counter.toNat + 1 < 2 ^ 64) :
    (nextCounter counter).toNat = counter.toNat + 1 := by
  have hadd : (counter + 1).toNat = counter.toNat + 1 := by
    rw [UInt64.toNat_add]
    exact Nat.mod_eq_of_lt h
  rw [nextCounter, UInt64.toNat_max, hadd]
  exact max_eq_left (Nat.le_add_left 1 _)

/-- The DNS side is that of `start`, with at most one token drawn, or one more transaction
under it. -/
def AtMostAdded (start state : FlowWorkerState) : Prop :=
  (DnsSame start state ∧ (state.nextDnsToken = start.nextDnsToken ∨
      state.nextDnsToken = nextCounter start.nextDnsToken)) ∨
    ∃ key transaction, Added start key transaction state ∧ transaction.token = start.nextToken ∧
      state.nextDnsToken = nextCounter start.nextDnsToken

theorem atMostAdded_dnsOnly (start : FlowWorkerState) : DnsOnly (AtMostAdded start) :=
  ⟨fun _ _ h => h.imp id fun ⟨key, transaction, h, htoken⟩ =>
      ⟨key, transaction, ⟨h.free, h.dnsByKey, h.memory⟩, htoken⟩,
    fun _ _ h => h.imp id fun ⟨key, transaction, h, htoken⟩ =>
      ⟨key, transaction, ⟨h.free, h.dnsByKey, h.memory⟩, htoken⟩⟩

theorem fileTransaction_added {key : DnsFlowTransactionKey} (hfree : start.dnsByKey.get key = none)
    (transaction : DnsFlowTransaction) (h : DnsSame start state) :
    Added start key transaction (fileTransaction key transaction state) ∧
      (fileTransaction key transaction state).nextDnsToken = state.nextDnsToken := by
  have hforget := memory_forget_congr h.2 transaction.binding.translated.reverse
  obtain ⟨completed, order, heq⟩ := fileTransaction_eq key transaction state
  refine ⟨⟨hfree, ?_, hforget ▸ rfl⟩, by rw [heq]⟩
  rw [heq]
  exact congrArg (HashMap.insert · key transaction) h.1

/-- Nothing has happened to the DNS side since `start`. -/
def DnsIdle (start state : FlowWorkerState) : Prop :=
  DnsSame start state ∧ state.nextDnsToken = start.nextDnsToken

theorem dnsIdle_dnsOnly (start : FlowWorkerState) : DnsOnly (DnsIdle start) :=
  ⟨fun _ _ h => h, fun _ _ h => h⟩

theorem DnsIdle.atMostAdded (h : DnsIdle start state) : AtMostAdded start state :=
  .inl ⟨h.1, .inl h.2⟩

theorem openDnsTransaction_leads {key : DnsFlowTransactionKey}
    (hfree : start.dnsByKey.get key = none) (ioOwner : IoOwnerKey) (packet : Bytes) (flow : FlowKey)
    (resolver : SocketAddr) (remote : Bool) (config : DnsFlowConfig) (now natNow : Instant) :
    Act.Leads (DnsIdle start) (AtMostAdded start)
      (openDnsTransaction ioOwner packet flow key resolver remote config now natNow) := by
  have hidle := dnsIdle_dnsOnly start
  -- once the token is drawn
  let D : FlowWorkerState → Prop := fun s =>
    DnsSame start s ∧ s.nextDnsToken = nextCounter start.nextDnsToken
  have hD : DnsOnly D := ⟨fun _ _ h => h, fun _ _ h => h⟩
  have hDQ : ∀ s, D s → AtMostAdded start s := fun s h => .inl ⟨h.1, .inr h.2⟩
  have hrefuse : ∀ {P} (_ : DnsOnly P), (∀ s, P s → AtMostAdded start s) → ∀ f,
      Act.Leads P (AtMostAdded start) (refuseQuery f ioOwner packet flow config) :=
    fun hP hPQ f => .of_stable (refuseQuery_frame hP.stats f ioOwner packet flow config) hPQ
  refine .bind .get (fun _ h => h.atMostAdded) fun state => .ite
    (hrefuse hidle (fun _ h => h.atMostAdded) _)
    (.ite (hrefuse hidle (fun _ h => h.atMostAdded) _) ?_)
  intro s hs
  rw [Act.bind_of_ok (show nextDnsSessionToken.run s = (.ok s.nextToken,
    { s with nextDnsToken := nextCounter s.nextDnsToken }) from rfl)]
  have htoken : s.nextToken = start.nextToken := by rw [nextToken, nextToken, hs.2]
  have hdrawn : D { s with nextDnsToken := nextCounter s.nextDnsToken } :=
    ⟨hs.1, congrArg nextCounter hs.2⟩
  refine Act.Leads.bind (.attempt hD.onSessions) hDQ (fun result => ?_) _ hdrawn
  rcases result with error | binding
  · exact .ite (hrefuse hD hDQ _) (.of_stable (.fail _) hDQ)
  · have hadded := atMostAdded_dnsOnly start
    refine .bind_stable (.modify fun s' h => ?_) fun _ =>
      .bind hadded.stats.countActive fun _ => .bind (hadded.stats.count _) fun _ => .lift _ _
    obtain ⟨hfiled, hnext⟩ := fileTransaction_added hfree
      { token := s.nextToken, client := ⟨flow.source, flow.sourcePort⟩, dnsVip := config.listen,
        binding, localTarget := ioOwner, remote, createdAt := now,
        expiresAt := now + config.timeout, originalPacket := packet } h.1
    exact .inr ⟨key, _, hfiled, htoken, hnext.trans h.2⟩

theorem handleDnsQueryAt_leads (ioOwner : IoOwnerKey) (packet : Bytes) (config : DnsFlowConfig)
    (now natNow : Instant) :
    Act.Leads (DnsIdle start) (AtMostAdded start)
      (handleDnsQueryAt ioOwner packet config now natNow) :=
  handleDnsQueryAt_leads_of (dnsIdle_dnsOnly start).stats (fun _ h => h.atMostAdded)
    (fun _ packet flow _ resolver remote hs hk => openDnsTransaction_leads (hs.1.1 ▸ hk) ioOwner
      packet flow resolver remote config now natNow) packet

/-- `transaction` was opened for the query in the client's packet `packet`. -/
structure Opened (packet : Bytes) (query : DnsQuery) (transaction : DnsFlowTransaction) : Prop where
  admitted : Admitted packet query
  made : ∃ remote token binding, transaction = (query.request remote).transaction token binding
  source : transaction.binding.translated.source.isV4 = query.layout.isV4

theorem Filed.opened {key : DnsFlowTransactionKey} {packet : Bytes} {query : DnsQuery}
    {remote : Bool} {transaction : DnsFlowTransaction} (ha : Admitted packet query)
    (h : Filed first last ephemeral start key (query.request remote) transaction state) :
    Opened packet query transaction := by
  obtain ⟨snat, port, hsnat, htr⟩ := h.leased.sessions.nat.translated_family
    (h.leased.sessions.toLinked.ledger_ephemeral (Function.update_self _ _ _)).2
  obtain ⟨counter, binding, horig, rfl⟩ := h.made
  refine ⟨ha, ⟨remote, _, binding, rfl⟩, ?_⟩
  change binding.translated.source.isV4 = _
  replace htr : binding.translated = NatTable.translate binding.original snat port := htr
  rw [htr]
  change snat.isV4 = _
  rw [hsnat, ← ha.carries.family.1]
  change binding.original.source.isV4 = _
  rw [horig]
  rfl

/-- What one call does to the DNS side; the flag tells whether it completes a transaction. -/
inductive DnsChange (start state : FlowWorkerState) : Bool → Prop
  | dropped (h : Dropped start state) : DnsChange start state false
  | opened {packet : Bytes} {query : DnsQuery} {key : DnsFlowTransactionKey}
      {transaction : DnsFlowTransaction} (hopened : Opened packet query transaction)
      (h : Added start key transaction state) : DnsChange start state false
  | completed {key : DnsFlowTransactionKey} {transaction : DnsFlowTransaction}
      (hk : start.dnsByKey.get key = some transaction)
      (hleft : state.dnsByKey = start.dnsByKey.remove key)
      (hmemory : state.memory =
        (rememberCompletedDnsReverse transaction.binding.translated.reverse start).memory) :
      DnsChange start state true
  | drained (hkey : state.dnsByKey = .empty) (hcompleted : state.dnsCompletedReverse = .empty)
      (horder : state.dnsCompletedOrder = .empty)
      (hsequence : state.nextDnsCompletedSequence = start.nextDnsCompletedSequence) :
      DnsChange start state false

/-- A query that adds a transaction opens it, under the next token. -/
theorem handleDnsQueryAt_opened (hl : Leased first last ephemeral start) (ioOwner : IoOwnerKey)
    (packet : Bytes) (config : DnsFlowConfig) (now natNow : Instant) :
    let state := ((handleDnsQueryAt ioOwner packet config now natNow).run start).2
    (DnsSame start state ∧ (state.nextDnsToken = start.nextDnsToken ∨
        state.nextDnsToken = nextCounter start.nextDnsToken)) ∨
      ∃ query key transaction, Opened packet query transaction ∧
        Added start key transaction state ∧ query.ioOwner = ioOwner ∧ query.config = config ∧
        transaction.binding.original = (query.request transaction.remote).original ∧
        transaction.token = start.nextToken ∧
        state.nextDnsToken = nextCounter start.nextDnsToken := by
  have hleads := handleDnsQueryAt_leads ioOwner packet config now natNow start ⟨⟨rfl, rfl⟩, rfl⟩
  have hspec := handleDnsQueryAt_spec hl ioOwner packet config now natNow start (.refl start)
  generalize (handleDnsQueryAt ioOwner packet config now natNow).run start = r at hleads hspec
  refine hleads.imp_right fun ⟨key, transaction, hadded, hdrawn⟩ => ?_
  have hget : r.2.dnsByKey.get key = some transaction := by
    rw [hadded.dnsByKey, HashMap.get_insert, if_pos rfl]
  have hidle : ¬ Idle start r.2 := by
    intro hidle
    rw [hidle.dnsByKey, hadded.free] at hget
    cases hget
  -- the transaction that was filed is the one that was added
  have hfiled : ∀ {query key' remote transaction'}, Admitted packet query →
      query.ioOwner = ioOwner ∧ query.config = config →
      Filed first last ephemeral start key' (query.request remote) transaction' r.2 →
      ∃ query key transaction, Opened packet query transaction ∧ Added start key transaction r.2 ∧
        query.ioOwner = ioOwner ∧ query.config = config ∧
        transaction.binding.original = (query.request transaction.remote).original ∧
        transaction.token = start.nextToken ∧
        r.2.nextDnsToken = nextCounter start.nextDnsToken := by
    intro query key' remote transaction' ha hquery hf
    rw [hf.dnsByKey, HashMap.get_insert] at hget
    split_ifs at hget with hc
    · cases hget
      refine ⟨query, key, _, hf.opened ha, hadded, hquery.1, hquery.2, ?_, hdrawn⟩
      obtain ⟨_, binding, horiginal, htransaction⟩ := hf.made
      rw [htransaction]
      exact horiginal
    · rw [hadded.free] at hget
      cases hget
  rcases r with ⟨(e | _) | result, s⟩
  · obtain hs | ⟨query, l, flow, clamped, ha, dns, -, remote, hs | ⟨transaction', hf, -⟩⟩ := hspec
    · exact absurd hs hidle
    · exact absurd hs hidle
    · exact hfiled ha ⟨rfl, rfl⟩ hf
  · exact hspec.elim
  · obtain hs | ⟨query, l, flow, clamped, ha, dns, -, ⟨hs, -⟩ | ⟨remote, transaction', -, hf, -⟩⟩ :=
      hspec
    · obtain ⟨_, _, _, _, -, -, -, -, -, -, hs, -⟩ := hs
      exact absurd hs hidle
    · exact absurd hs hidle
    · exact hfiled ha ⟨rfl, rfl⟩ hf

theorem handleDnsQueryAt_changes (hl : Leased first last ephemeral start) (ioOwner : IoOwnerKey)
    (packet : Bytes) (config : DnsFlowConfig) (now natNow : Instant) :
    DnsChange start ((handleDnsQueryAt ioOwner packet config now natNow).run start).2 false := by
  obtain ⟨⟨hkey, hmemory⟩, -⟩ | ⟨query, key, transaction, hopened, hadded, -⟩ :=
    handleDnsQueryAt_opened hl ioOwner packet config now natNow
  · exact .dropped ⟨fun _ _ h => hkey ▸ h, hmemory⟩
  · exact .opened hopened hadded

/-- A resolver's packet completes a transaction when one is gone afterwards. -/
def completes (state : FlowWorkerState) : Op → Bool
  | .handleDnsResponse packet natNow =>
    ((handleDnsResponse packet natNow).run state).2.dnsByKey.len < state.dnsByKey.len
  | _ => false

theorem handleDnsResponse_changes (hl : Leased first last ephemeral start) (packet : Bytes)
    (natNow : Instant) : DnsChange start ((handleDnsResponse packet natNow).run start).2
      (start.completes (.handleDnsResponse packet natNow)) := by
  let state := ((handleDnsResponse packet natNow).run start).2
  change DnsChange start state (decide (state.dnsByKey.len < start.dnsByKey.len))
  have hunchanged : Unchanged start state →
      DnsChange start state (decide (state.dnsByKey.len < start.dnsByKey.len)) := by
    intro h
    rw [decide_eq_false (by rw [h.dnsByKey]; exact lt_irrefl _)]
    exact .dropped ⟨fun _ _ hk => h.dnsByKey ▸ hk,
      memory_eq_iff.mpr ⟨h.completed, h.order, h.sequence⟩⟩
  have hanswered : ∀ {p payload key transaction}, Matched start packet p payload key transaction →
      Unchanged (start.answered key transaction natNow) state →
      DnsChange start state (decide (state.dnsByKey.len < start.dnsByKey.len)) := by
    intro p payload key transaction hm h
    have hleft : state.dnsByKey = start.dnsByKey.remove key := h.dnsByKey
    have hlen := HashMap.len_remove hm.held
    rw [decide_eq_true (by rw [hleft]; omega)]
    exact .completed hm.held hleft ((memory_eq_iff.mpr ⟨h.completed, h.order, h.sequence⟩).trans
      (memory_remember_congr rfl _))
  have hspec := handleDnsResponse_spec hl packet natNow start (.refl start)
  rcases hr : (handleDnsResponse packet natNow).run start with ⟨(e | _) | response, s⟩ <;>
    have hs : state = s := congrArg Prod.snd hr
  · rw [hr] at hspec
    obtain hspec | ⟨p, payload, key, transaction, hm, hspec, -⟩ := hspec
    · exact hunchanged (hs ▸ hspec)
    · exact hanswered hm (hs ▸ hspec)
  · rw [hr] at hspec
    exact hspec.elim
  · rw [hr] at hspec
    cases response with
    | none => exact hunchanged (hs ▸ hspec)
    | some response =>
      obtain ⟨p, payload, key, transaction, hm, hspec, -⟩ := hspec
      exact hanswered hm (hs ▸ hspec)

theorem removeDnsTransactions_changes (clock : ℕ → Instant) :
    DnsChange start ((removeDnsTransactions clock).run start).2 false := by
  let P : FlowWorkerState → Prop := fun s => s.dnsByKey = .empty ∧ s.dnsCompletedReverse = .empty ∧
    s.dnsCompletedOrder = .empty ∧ s.nextDnsCompletedSequence = start.nextDnsCompletedSequence
  have hP : DnsOnly P := ⟨fun _ _ h => h, fun _ _ h => h⟩
  have hleads : Act.Leads (fun s => s = start) P (removeDnsTransactions clock) := by
    refine removeDnsTransactions_leads hP.releasable ?_ clock
    rintro _ rfl
    exact ⟨rfl, rfl, rfl, rfl⟩
  obtain ⟨hkey, hcompleted, horder, hsequence⟩ := hleads start rfl
  exact .drained hkey hcompleted horder hsequence

end Opening

section Runs

/-- The calls that do nothing to the DNS side but close transactions without a response. -/
def Op.onlyCloses : Op → Bool
  | .handleDnsQueryAt .. => false
  | .handleDnsResponse .. => false
  | .removeDnsTransactions .. => false
  | _ => true

theorem call_closable {P : FlowWorkerState → Prop} (hsessions : DnsOnly P) (hP : Closable P)
    (config : DnsFlowConfig) (op : Op) (hop : op.onlyCloses = true) :
    Act.Stable P (op.call config) := by
  cases op with
  | handleIntercept ioOwner packet quicFlow tunnelTarget now natNow =>
    exact discard_stable (forwardInner_frame hP.stats (fun _ _ _ _ => hsessions.onSessions) _ _)
  | handleServerInner defaultIntercept packet quicFlow now natNow =>
    exact discard_stable (forwardInner_frame hP.stats (fun _ _ _ _ => hsessions.onSessions) _ _)
  | handleReverse packet now =>
    exact discard_stable (handleReverse_frame (fun id => hsessions.returnable id none) _ _)
  | handleReverseFor packet locator now =>
    exact discard_stable (handleReverseForInner_frame (hsessions.returnable _ _) _ _)
  | handleServerReverse observed packet locator now =>
    exact discard_stable (handleReverseForInner_frame (hsessions.returnable _ _) _ _)
  | expireIdleSessions now clock =>
    exact discard_stable (.bind .get fun _ => hsessions.onSessions)
  | removeSession sessionId natNow =>
    exact discard_stable (.bind .get fun _ => hsessions.onSessions)
  | removeByQuicFlow quicFlowId clock =>
    exact discard_stable (.bind .get fun _ => .bind hsessions.onSessions fun _ => .pure _)
  | rebindQuicFlow oldId newId =>
    exact discard_stable (.bind .get fun _ => hsessions.onSessions)
  | expireDnsTransactions now clock =>
    exact discard_stable (expireDnsTransactions_frame hP now config clock)
  | abortDnsTransaction binding natNow =>
    exact discard_stable (abortDnsTransaction_frame hP binding config natNow)
  | abortRemoteDnsTransactions clock =>
    exact discard_stable (abortRemoteDnsTransactions_frame hP config clock)
  | handleDnsQueryAt ioOwner packet now natNow => cases hop
  | handleDnsResponse packet natNow => cases hop
  | removeDnsTransactions clock => cases hop

theorem call_changes (h : Sound first last strict listen capacity state) (config : DnsFlowConfig)
    (op : Op) : DnsChange state ((op.call config).run state).2 (state.completes op) := by
  obtain ⟨ephemeral, hl, -⟩ := h
  have hcloses : op.onlyCloses = true → Dropped state ((op.call config).run state).2 :=
    fun hop => call_closable (dropped_dnsOnly state) (dropped_closable state) config op hop state
      (.refl state)
  cases op with
  | handleDnsQueryAt ioOwner packet now natNow =>
    exact handleDnsQueryAt_changes hl ioOwner packet config now natNow
  | handleDnsResponse packet natNow => exact handleDnsResponse_changes hl packet natNow
  | removeDnsTransactions clock => exact removeDnsTransactions_changes clock
  | _ => exact .dropped (hcloses rfl)

/-- What holds at the start and survives every change holds in every state reached. -/
theorem Reachable.induction {I : FlowWorkerState → Prop} (h : state.Reachable)
    (hnew : ∀ state : FlowWorkerState, state.dnsByKey = .empty → I state)
    (hstep : ∀ start state completed, I start → DnsChange start state completed → I state) :
    I state := by
  obtain ⟨_, _, _, first, last, start, ops, hstart, rfl⟩ := h
  have hsound : Sound first last False ⟨.v4 (Vector.replicate 4 0), 0⟩ 0 start :=
    sound_newDual hstart
  have hempty : start.dnsByKey = .empty := by
    obtain ⟨sessions, -, h⟩ := Outcome.bind_eq_ok.mp hstart
    cases h
    rfl
  have hI := hnew start hempty
  clear hstart hempty
  induction ops generalizing start with
  | nil => exact hI
  | cons op rest ih =>
    exact ih _ ((call_sound op.1 (fun hs => hs.elim) op.2).state hsound)
      (hstep _ _ _ hI (call_changes hsound op.1 op.2))

/-- Every transaction was opened for some client's query. -/
theorem Reachable.opened (h : state.Reachable) {key : DnsFlowTransactionKey}
    {transaction : DnsFlowTransaction} (hk : state.dnsByKey.get key = some transaction) :
    ∃ packet query, Opened packet query transaction := by
  refine h.induction (I := fun state => ∀ key transaction,
    state.dnsByKey.get key = some transaction → ∃ packet query, Opened packet query transaction)
    (fun s hs key transaction hk => ?_) (fun s s' _ ih hchange key transaction hk => ?_) key
    transaction hk
  · rw [hs] at hk
    cases hk
  · cases hchange with
    | dropped h => exact ih key transaction (h.held key transaction hk)
    | opened hopened h =>
      rw [h.dnsByKey, HashMap.get_insert] at hk
      split_ifs at hk
      · cases hk
        exact ⟨_, _, hopened⟩
      · exact ih key transaction hk
    | completed _ hleft _ =>
      rw [hleft, HashMap.get_remove] at hk
      split_ifs at hk
      exact ih key transaction hk
    | drained hkey =>
      rw [hkey] at hk
      cases hk

end Runs

end FlowWorkerState

end NewProxy
