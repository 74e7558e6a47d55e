import NewProxy.DnsClamp
import NewProxy.DnsServfail
import NewProxy.Tickets

/-!
# Every DNS token is answered once

A token stands for one transaction. The call that answers it closes the transaction, so
its lease is released and its tuple quarantined, and no later call can answer it: not
before the tokens come round, after `2 ^ 63` queries.
-/
namespace NewProxy

/-- The tuple of a transaction in the SNAT table. -/
def DnsFlowTransaction.tuple (transaction : DnsFlowTransaction) : ReverseNatKey :=
  .fromTranslatedFlow transaction.binding.translated

namespace FlowWorkerState

open Outcome Packet Dns Bytes

variable {first last : UInt16} {ephemeral : SessionId → Option NatBinding} {strict : Prop}
  {listen : SocketAddr} {capacity : ℕ} {start state state' : FlowWorkerState}
  {key : DnsFlowTransactionKey} {transaction : DnsFlowTransaction}

section Closing

variable {reads : Instant → Prop} {config : DnsFlowConfig}

/-- No two transactions have one tuple. -/
theorem Leased.tuple_unique (h : Leased first last ephemeral state) {key' : DnsFlowTransactionKey}
    {transaction' : DnsFlowTransaction} (hk : state.dnsByKey.get key = some transaction)
    (hk' : state.dnsByKey.get key' = some transaction')
    (heq : transaction.tuple = transaction'.tuple) : key = key' := by
  have hlease := h.sessions.toLinked.ledger_ephemeral (h.ephemeral_of_get hk)
  have hlease' := h.sessions.toLinked.ledger_ephemeral (h.ephemeral_of_get hk')
  have htoken := h.sessions.nat.exclusive _ _ _ _ hlease.2 hlease'.2
    (ReverseNatKey.sourcePort_eq_of_key heq)
  exact h.tokens key key' transaction transaction' hk hk' htoken

/-- Transactions of `start` were closed, each at a time in `reads`: their leases are
released and their tuples quarantined. Other tuples are as they were. -/
structure Closes (reads : Instant → Prop) (start state : FlowWorkerState) : Prop where
  held : ∀ key transaction, state.dnsByKey.get key = some transaction →
    start.dnsByKey.get key = some transaction
  forward : ∀ id, start.sessions.nat.get id = none → state.sessions.nat.get id = none
  released : ∀ key transaction, start.dnsByKey.get key = some transaction →
    state.dnsByKey.get key = none → state.sessions.nat.get transaction.token = none ∧
      ∃ time, reads time ∧ state.sessions.nat.quarantined.get transaction.tuple =
        some (time + reuseQuarantine transaction.binding.translated.protocol)
  kept : ∀ tuple, (∀ key transaction, start.dnsByKey.get key = some transaction →
      state.dnsByKey.get key = none → transaction.tuple ≠ tuple) →
    state.sessions.nat.quarantined.get tuple = start.sessions.nat.quarantined.get tuple

theorem Closes.of_same (hkeys : state.dnsByKey = start.dnsByKey)
    (hsessions : state.sessions = start.sessions) : Closes reads start state := by
  refine ⟨fun key transaction hk => hkeys ▸ hk, fun id h => hsessions ▸ h,
    fun key transaction hk hnone => ?_, fun tuple _ => by rw [hsessions]⟩
  rw [hkeys, hk] at hnone
  cases hnone

theorem Closes.trans (hl : Leased first last ephemeral start) (h : Closes reads start state)
    (h' : Closes reads state state') : Closes reads start state' := by
  refine ⟨fun key transaction hk => h.held key transaction (h'.held key transaction hk),
    fun id hid => h'.forward id (h.forward id hid), fun key transaction hk hnone => ?_,
    fun tuple htuple => ?_⟩
  · cases hmid : state.dnsByKey.get key with
    | some transaction' =>
      obtain rfl : transaction = transaction' :=
        Option.some.inj (hk.symm.trans (h.held key transaction' hmid))
      exact h'.released key transaction hmid hnone
    | none =>
      -- closed first; what is closed later has another tuple
      obtain ⟨hfree, time, htime, hquarantined⟩ := h.released key transaction hk hmid
      refine ⟨h'.forward _ hfree, time, htime, ?_⟩
      rw [h'.kept transaction.tuple fun key' transaction' hk' _ heq => ?_, hquarantined]
      have hsame := hl.tuple_unique (h.held key' transaction' hk') hk heq
      rw [hsame, hmid] at hk'
      cases hk'
  · rw [h'.kept tuple fun key transaction hk hnone =>
        htuple key transaction (h.held key transaction hk) hnone,
      h.kept tuple fun key transaction hk hnone => htuple key transaction hk ?_]
    cases hend : state'.dnsByKey.get key with
    | none => rfl
    | some transaction' =>
      rw [h'.held key transaction' hend] at hnone
      cases hnone

/-- One transaction is closed. -/
theorem closes_ended (hk : start.dnsByKey.get key = some transaction) {natNow : Instant}
    (hread : reads natNow) (hkeys : state.dnsByKey = (start.ended key transaction natNow).dnsByKey)
    (hsessions : state.sessions = (start.ended key transaction natNow).sessions) :
    Closes reads start state := by
  have hget : ∀ key', state.dnsByKey.get key' =
      if key' = key then none else start.dnsByKey.get key' := by
    intro key'
    rw [hkeys]
    exact HashMap.get_remove _ _ _
  have hforward : ∀ id, state.sessions.nat.get id =
      if id = transaction.token then none else start.sessions.nat.get id := by
    intro id
    rw [hsessions]
    exact HashMap.get_remove _ _ _
  have hquarantined : ∀ tuple, state.sessions.nat.quarantined.get tuple =
      if tuple = transaction.tuple then
        some (natNow + reuseQuarantine transaction.binding.translated.protocol)
      else start.sessions.nat.quarantined.get tuple := by
    intro tuple
    rw [hsessions]
    exact HashMap.get_insert _ _ _ _
  refine ⟨fun key' transaction' hk' => ?_, fun id hid => ?_, fun key' transaction' hk' hnone => ?_,
    fun tuple htuple => ?_⟩
  · rw [hget] at hk'
    split_ifs at hk'
    exact hk'
  · rw [hforward, hid, ite_self]
  · rw [hget] at hnone
    split_ifs at hnone with hkey
    · rw [hkey, hk, Option.some_inj] at hk'
      subst hk'
      exact ⟨by rw [hforward, if_pos rfl], natNow, hread, by rw [hquarantined, if_pos rfl]⟩
    · rw [hk'] at hnone
      cases hnone
  · have hne := htuple key transaction hk (by rw [hget, if_pos rfl])
    rw [hquarantined, if_neg (Ne.symm hne)]

/-- The tokens in the list are those of transactions that were closed, each listed once. -/
structure Redeems (reads : Instant → Prop) (start state : FlowWorkerState)
    (tokens : List SessionId) : Prop extends Closes reads start state where
  nodup : tokens.Nodup
  closed : ∀ token ∈ tokens, ∃ key transaction, start.dnsByKey.get key = some transaction ∧
    transaction.token = token ∧ state.dnsByKey.get key = none

theorem Closes.redeems_nil (h : Closes reads start state) : Redeems reads start state [] :=
  ⟨h, List.nodup_nil, nofun⟩

/-- The transaction that was closed last comes first. -/
theorem Redeems.cons (hl : Leased first last ephemeral start)
    (hk : start.dnsByKey.get key = some transaction) {natNow : Instant} (hread : reads natNow)
    (hkeys : state.dnsByKey = (start.ended key transaction natNow).dnsByKey)
    (hsessions : state.sessions = (start.ended key transaction natNow).sessions)
    {tokens : List SessionId} (hrest : Redeems reads state state' tokens) :
    Redeems reads start state' (transaction.token :: tokens) := by
  have hone : Closes reads start state := closes_ended hk hread hkeys hsessions
  have hgone : state.dnsByKey.get key = none := by
    rw [hkeys]
    exact (HashMap.get_remove _ _ _).trans (if_pos rfl)
  have hgone' : state'.dnsByKey.get key = none := by
    cases hend : state'.dnsByKey.get key with
    | none => rfl
    | some _ =>
      rw [hrest.held key _ hend] at hgone
      cases hgone
  refine ⟨hone.trans hl hrest.toCloses, List.nodup_cons.mpr ⟨fun hmem => ?_, hrest.nodup⟩, ?_⟩
  · obtain ⟨key', transaction', hk', htoken, -⟩ := hrest.closed _ hmem
    have hsame :=
      hl.tokens key' key transaction' transaction (hone.held key' transaction' hk') hk htoken
    rw [hsame, hgone] at hk'
    cases hk'
  · intro token hmem
    rcases List.mem_cons.mp hmem with rfl | hmem
    · exact ⟨key, transaction, hk, rfl, hgone'⟩
    · obtain ⟨key', transaction', hk', htoken, hnone⟩ := hrest.closed token hmem
      exact ⟨key', transaction', hone.held key' transaction' hk', htoken, hnone⟩

/-- A loop that closes transactions answers each of them once. -/
theorem closeTransactions_redeems (hl : Leased first last ephemeral start)
    (f : FlowWorkerStats → FlowWorkerStats) {clock : ℕ → Instant} (hread : ∀ n, reads (clock n))
    {keys : List DnsFlowTransactionKey} {answers : List ExpiredDnsTransaction}
    (h : (closeTransactions f config clock keys).run start = (.ok answers, state)) :
    Redeems reads start state (answers.map ExpiredDnsTransaction.transactionId) := by
  induction keys generalizing start ephemeral answers with
  | nil =>
    cases h
    exact (Closes.of_same rfl rfl).redeems_nil
  | cons key rest ih =>
    obtain ⟨removed, s, hremove, h⟩ := Act.bind_eq_ok.mp h
    cases hk : start.dnsByKey.get key with
    | none =>
      rw [removeDnsTransaction, Act.bind_of_ok (Act.run_get start), hk] at hremove
      cases hremove
      exact ih hl h
    | some transaction =>
      obtain ⟨hrun, hl'⟩ :=
        removeDnsTransaction_ok hl hk FlowWorkerError.session (clock rest.length)
      cases hrun.symm.trans hremove
      obtain ⟨closed, s', hclosed, h⟩ := Act.bind_eq_ok.mp h
      rw [Act.run_lift] at hclosed
      obtain ⟨hclosed, rfl⟩ := Prod.ext_iff.mp hclosed
      obtain ⟨_, s', hcount, h⟩ := Act.bind_eq_ok.mp h
      cases hcount
      obtain ⟨others, s', hothers, h⟩ := Act.bind_eq_ok.mp h
      cases h
      -- the round leaves the state without the transaction, and a counter moved
      let ended := start.ended key transaction (clock rest.length)
      have hleft : Leased first last (Function.update ephemeral transaction.token none)
          { ended with stats := f ended.stats } :=
        ⟨hl'.owner, hl'.sessions, hl'.ephemeral, hl'.tokens, hl'.reverse, hl'.query⟩
      have htoken := (servfailForTransaction_servfailOf (mapErr_eq_ok.mp hclosed)).1
      rw [List.map_cons, htoken]
      refine .cons hl hk (hread rest.length) ?_ ?_ (ih hleft hothers) <;> rfl

/-- The times at which a call releases leases of transactions that it answers. -/
def Op.Reads : Op → Instant → Prop
  | .handleDnsResponse _ natNow, time => time = natNow
  | .expireDnsTransactions _ clock, time => ∃ n, time = clock n
  | .abortDnsTransaction _ natNow, time => time = natNow
  | .abortRemoteDnsTransactions clock, time => ∃ n, time = clock n
  | _, _ => False

/-- The tokens that a call answers for good: with the resolver's response, with the SERVFAIL
of a timeout or with that of an abort. -/
def terminals (state : FlowWorkerState) (config : DnsFlowConfig) : Op → List SessionId
  | .handleDnsResponse packet natNow =>
    match ((handleDnsResponse packet natNow).run state).1 with
    | .ok (some response) => [response.transactionId]
    | _ => []
  | .expireDnsTransactions now clock =>
    match ((expireDnsTransactions now config clock).run state).1 with
    | .ok answers => answers.map ExpiredDnsTransaction.transactionId
    | _ => []
  | .abortDnsTransaction binding natNow =>
    match ((abortDnsTransaction binding config natNow).run state).1 with
    | .ok (some answer) => [answer.transactionId]
    | _ => []
  | .abortRemoteDnsTransactions clock =>
    match ((abortRemoteDnsTransactions config clock).run state).1 with
    | .ok answers => answers.map ExpiredDnsTransaction.transactionId
    | _ => []
  | _ => []

/-- A call that answers one transaction. -/
theorem redeems_one (hl : Leased first last ephemeral start)
    (hk : start.dnsByKey.get key = some transaction) {natNow : Instant} (hread : reads natNow)
    (h : Counted (start.ended key transaction natNow) state) :
    Redeems reads start state [transaction.token] :=
  .cons hl hk hread h.dnsByKey h.sessions (Closes.of_same rfl rfl).redeems_nil

/-- What a call answers it closes. -/
theorem call_redeems (hl : Leased first last ephemeral state) (config : DnsFlowConfig) (op : Op) :
    state.terminals config op = [] ∨
      Redeems op.Reads state ((op.call config).run state).2 (state.terminals config op) := by
  cases op with
  | handleDnsResponse packet natNow =>
    have hspec := handleDnsResponse_spec hl packet natNow state (.refl state)
    have hstate : ((Op.call config (.handleDnsResponse packet natNow)).run state).2 =
        ((handleDnsResponse packet natNow).run state).2 := rfl
    rw [hstate, terminals]
    rcases hr : (handleDnsResponse packet natNow).run state with ⟨_ | _ | response, s⟩
    · exact .inl rfl
    · exact .inl rfl
    · rw [hr] at hspec
      obtain ⟨p, payload, key, transaction, hm, hs, ha⟩ := hspec
      dsimp only
      rw [show response.transactionId = transaction.token from ha.transactionId]
      exact .inr (redeems_one hl hm.held rfl hs.of_answered)
  | abortDnsTransaction binding natNow =>
    have hspec := abortDnsTransaction_spec hl binding config natNow state (.refl state)
    have hstate : ((Op.call config (.abortDnsTransaction binding natNow)).run state).2 =
        ((abortDnsTransaction binding config natNow).run state).2 := rfl
    rw [hstate, terminals]
    rcases hr : (abortDnsTransaction binding config natNow).run state with ⟨_ | _ | answer, s⟩
    · exact .inl rfl
    · exact .inl rfl
    · rw [hr] at hspec
      obtain ⟨key, transaction, hk, -, hs, ha⟩ := hspec
      dsimp only
      rw [show answer.transactionId = transaction.token from
        (servfailForTransaction_servfailOf ha).1]
      exact .inr (redeems_one hl hk rfl hs)
  | expireDnsTransactions now clock =>
    have hstate : ((Op.call config (.expireDnsTransactions now clock)).run state).2 =
        ((expireDnsTransactions now config clock).run state).2 := rfl
    rw [hstate, terminals]
    rcases hr : (expireDnsTransactions now config clock).run state with ⟨_ | answers, s⟩
    · exact .inl rfl
    · rw [expireDnsTransactions, Act.bind_of_ok (Act.run_get state),
        Act.bind_of_ok (Act.run_modify _ _)] at hr
      obtain ⟨closed, s', hclosed, hr⟩ := Act.bind_eq_ok.mp hr
      cases hr
      have hpopped : Leased first last ephemeral
          { state with dnsDeadlines := (state.dnsDeadlines.popDue now).2 } :=
        ⟨hl.owner, hl.sessions, hl.ephemeral, hl.tokens, hl.reverse, hl.query⟩
      have h : Redeems (Op.expireDnsTransactions now clock).Reads _ _ _ :=
        closeTransactions_redeems hpopped _ (fun n => ⟨n, rfl⟩) hclosed
      exact .inr ⟨⟨h.held, h.forward, h.released, h.kept⟩, h.nodup, h.closed⟩
  | abortRemoteDnsTransactions clock =>
    have hstate : ((Op.call config (.abortRemoteDnsTransactions clock)).run state).2 =
        ((abortRemoteDnsTransactions config clock).run state).2 := rfl
    rw [hstate, terminals]
    rcases hr : (abortRemoteDnsTransactions config clock).run state with ⟨_ | answers, s⟩
    · exact .inl rfl
    · rw [abortRemoteDnsTransactions, Act.bind_of_ok (Act.run_get state)] at hr
      exact .inr (closeTransactions_redeems hl _ (fun n => ⟨n, rfl⟩) hr)
  | _ => exact .inl rfl

end Closing

section Tokens

/-- The token that is drawn as number `n`, counted from 0. -/
def token (n : ℕ) : SessionId := ⟨((1 : UInt64) <<< 63) ||| .ofNat (n + 1)⟩

/-- The lower bits of a token are those of its number. -/
theorem token_inj {m n : ℕ} (hm : m < 2 ^ 63) (hn : n < 2 ^ 63) (h : token m = token n) :
    m = n := by
  have hlow : ∀ k < 2 ^ 63, (token k).value.toNat % 2 ^ 63 = (k + 1) % 2 ^ 63 := by
    intro k hk
    have hhigh : ((1 : UInt64) <<< 63).toNat % 2 ^ 63 = 0 := by decide
    rw [token, UInt64.toNat_or, Nat.or_mod_two_pow, hhigh, Nat.zero_or,
      UInt64.toNat_ofNat_of_lt' (show k + 1 < 2 ^ 64 by omega)]
  have hmod : (m + 1) % 2 ^ 63 = (n + 1) % 2 ^ 63 := by
    rw [← hlow m hm, ← hlow n hn, h]
  omega

theorem nextCounter_ofNat {n : ℕ} (h : n + 1 < 2 ^ 64) :
    nextCounter (.ofNat n) = .ofNat (n + 1) := by
  have hn : (UInt64.ofNat n).toNat = n :=
    UInt64.toNat_ofNat_of_lt' (show n < 2 ^ 64 by omega)
  rw [← UInt64.toNat_inj, nextCounter_toNat (by rw [hn]; exact h), hn,
    UInt64.toNat_ofNat_of_lt' h]

/-- The tokens of the active transactions. -/
def activeTokens (state : FlowWorkerState) : Set SessionId :=
  { token | ∃ key transaction, state.dnsByKey.get key = some transaction ∧
    transaction.token = token }

/-- So many tokens were drawn, and those in the list were answered. -/
structure Drawn (drawn : ℕ) (answered : List SessionId) (state : FlowWorkerState) : Prop where
  next : state.nextDnsToken = .ofNat (drawn + 1)
  tickets : Tickets token drawn state.activeTokens answered

def Op.isQuery : Op → Bool
  | .handleDnsQueryAt .. => true
  | _ => false

/-- Calls other than queries open no transaction and draw no token. -/
theorem call_drops (config : DnsFlowConfig) (op : Op) (hop : op.isQuery = false)
    (state : FlowWorkerState) :
    (∀ key transaction, ((op.call config).run state).2.dnsByKey.get key = some transaction →
        state.dnsByKey.get key = some transaction) ∧
      ((op.call config).run state).2.nextDnsToken = state.nextDnsToken := by
  let P : FlowWorkerState → Prop := fun s =>
    (∀ key transaction, s.dnsByKey.get key = some transaction →
      state.dnsByKey.get key = some transaction) ∧ s.nextDnsToken = state.nextDnsToken
  have hsessions : DnsOnly P := ⟨fun _ _ h => h, fun _ _ h => h⟩
  have hP : Closable P := by
    refine hsessions.closable (fun s key transaction h => ⟨fun key' transaction' hk => ?_, h.2⟩)
      fun _ _ h => h
    rw [show (unfileTransaction key transaction s).dnsByKey.get key' = _ from
      HashMap.get_remove _ _ _] at hk
    split_ifs at hk
    exact h.1 key' transaction' hk
  have hself : P state := ⟨fun _ _ h => h, rfl⟩
  suffices hstable : Act.Stable P (op.call config) from hstable state hself
  by_cases hcloses : op.onlyCloses = true
  · exact call_closable hsessions hP config op hcloses
  cases op with
  | handleDnsResponse packet natNow =>
    exact discard_stable (handleDnsResponse_frame hP (fun _ _ h => h) packet natNow)
  | removeDnsTransactions clock =>
    refine discard_stable (removeDnsTransactions_leads hP.toReleasable (fun s h => ⟨?_, h.2⟩) clock)
    intro key transaction hk
    cases hk
  | handleDnsQueryAt ioOwner packet now natNow => cases hop
  | _ => exact absurd rfl hcloses

theorem activeTokens_subset
    (h : ∀ key transaction, state'.dnsByKey.get key = some transaction →
      state.dnsByKey.get key = some transaction) : state'.activeTokens ⊆ state.activeTokens := by
  rintro _ ⟨key, transaction, hk, rfl⟩
  exact ⟨key, transaction, h key transaction hk, rfl⟩

/-- One call, as long as the tokens do not come round. -/
theorem Drawn.call {drawn : ℕ} {answered : List SessionId}
    (hl : Leased first last ephemeral state) (h : Drawn drawn answered state)
    (config : DnsFlowConfig) (op : Op) (hbound : drawn + (if op.isQuery then 1 else 0) ≤ 2 ^ 63) :
    ∃ drawn' ≤ drawn + (if op.isQuery then 1 else 0),
      Drawn drawn' (answered ++ state.terminals config op) ((op.call config).run state).2 := by
  cases hop : op.isQuery with
  | false =>
    obtain ⟨hheld, hnext⟩ := call_drops config op hop state
    have hsub := activeTokens_subset hheld
    refine ⟨drawn, Nat.le_add_right _ _, hnext.trans h.next, ?_⟩
    rcases call_redeems hl config op with hnone | hredeems
    · rw [hnone, List.append_nil]
      exact h.tickets.lose hsub
    · refine h.tickets.redeem hredeems.nodup (fun token htoken => ?_) hsub
      obtain ⟨key, transaction, hk, rfl, hgone⟩ := hredeems.closed token htoken
      refine ⟨⟨key, transaction, hk, rfl⟩, ?_⟩
      rintro ⟨key', transaction', hk', heq⟩
      obtain rfl := hl.tokens key' key transaction' transaction (hheld key' transaction' hk') hk heq
      rw [hgone] at hk'
      cases hk'
  | true =>
    rw [hop, if_pos rfl] at hbound
    cases op with
    | handleDnsQueryAt ioOwner packet now natNow =>
      have hfresh : ∀ i < drawn, token i ≠ token drawn := by
        intro i hi heq
        have := token_inj (by omega) (by omega) heq
        omega
      have hdrawn : nextCounter state.nextDnsToken = .ofNat (drawn + 1 + 1) := by
        rw [h.next, nextCounter_ofNat (by omega)]
      have htoken : state.nextToken = token drawn := by
        rw [nextToken, h.next]
        rfl
      rw [show state.terminals config (.handleDnsQueryAt ioOwner packet now natNow) = [] from rfl,
        List.append_nil]
      obtain ⟨hsame, hkept | hnext⟩ | ⟨query, key, transaction, -, hadded, -, -, -, hnew, hnext⟩ :=
        handleDnsQueryAt_opened hl ioOwner packet config now natNow
      · refine ⟨drawn, Nat.le_add_right _ _, hkept.trans h.next, h.tickets.lose ?_⟩
        exact activeTokens_subset fun key transaction hk => hsame.1 ▸ hk
      · refine ⟨drawn + 1, le_rfl, hnext.trans hdrawn, h.tickets.issue hfresh ?_⟩
        exact (activeTokens_subset fun key transaction hk => hsame.1 ▸ hk).trans
          (Set.subset_insert _ _)
      · refine ⟨drawn + 1, le_rfl, hnext.trans hdrawn, h.tickets.issue hfresh ?_⟩
        rintro _ ⟨key', transaction', hk', rfl⟩
        change (FlowWorkerState.dnsByKey _).get key' = some transaction' at hk'
        rw [show ((Op.call config (.handleDnsQueryAt ioOwner packet now natNow)).run
          state).2.dnsByKey = _ from hadded.dnsByKey, HashMap.get_insert] at hk'
        split_ifs at hk' with hkey
        · cases hk'
          exact .inl (hnew.trans htoken)
        · exact .inr ⟨key', transaction', hk', rfl⟩
    | _ => cases hop

/-- The number of queries in a run. -/
def queries (ops : List (DnsFlowConfig × Op)) : ℕ := ops.countP fun op => op.2.isQuery

/-- The tokens that a run answers for good, in turn. -/
def terminalAnswers (state : FlowWorkerState) : List (DnsFlowConfig × Op) → List SessionId
  | [] => []
  | op :: rest =>
    state.terminals op.1 op.2 ++ terminalAnswers ((op.2.call op.1).run state).2 rest

/-- Along a run no token is answered twice. -/
theorem Drawn.after {drawn : ℕ} {answered : List SessionId}
    (hsound : Sound first last False listen capacity state) (h : Drawn drawn answered state)
    (ops : List (DnsFlowConfig × Op)) (hbound : drawn + queries ops ≤ 2 ^ 63) :
    (answered ++ state.terminalAnswers ops).Nodup := by
  induction ops generalizing state drawn answered with
  | nil =>
    rw [terminalAnswers, List.append_nil]
    exact h.tickets.nodup
  | cons op rest ih =>
    obtain ⟨ephemeral, hl⟩ := hsound.leased
    have hcount : queries (op :: rest) = queries rest + if op.2.isQuery then 1 else 0 :=
      List.countP_cons
    rw [hcount] at hbound
    obtain ⟨drawn', hle, hnext⟩ := h.call hl op.1 op.2 (by omega)
    rw [terminalAnswers, ← List.append_assoc]
    exact ih ((call_sound op.1 (fun hs => hs.elim) op.2).state hsound) hnext (by omega)

end Tokens

section Questions

variable {p q : Bytes} {question : DnsQuestion}

/-- A question that is read behind the clamp was read in front of it: a name that reads a
lowered class does not parse. -/
theorem question_of_clampOf (h : ClampOf p q) (hlen : p.length ≤ dnsPayloadMax)
    (hq : parseQuestion q = .ok question) :
    parseQuestion p = .ok question ∧ q.wordAt 0 = p.wordAt 0 := by
  obtain rfl | ⟨lowered, n, ⟨hl, -, -⟩, hend⟩ := h
  · exact ⟨hq, rfl⟩
  have hagree := hl.agree
  obtain ⟨h12, hdir, hop, hfields⟩ := parseQuestion_eq_ok.mp hq
  obtain ⟨-, hcount, stop, hname, hstop, htype, hclass⟩ := parseQuestionFields_eq_ok.mp hfields
  have hparse : parseName q 12 = parseName p 12 := by
    refine parseName_congr hagree.length fun i hread => hagree.byte i fun hi => ?_
    exact hread.parse_lowered hi (hi.lt_length hend) hl hend hlen hname
  rw [hparse] at hname
  -- the header is in front of every class, and so is the question
  have hheader : ∀ i, i + 1 < 12 → q.wordAt i = p.wordAt i := by
    have hbyte : ∀ i < 12, q.byteAt i = p.byteAt i := by
      refine fun i hi => hagree.byte i fun hclass => ?_
      obtain ⟨_, ⟨⟨_, _, _, -, -, ⟨a, hquestions, -⟩, -⟩, -⟩, -⟩ := id hclass
      have hrec : RecordAt p 0 a := ⟨a, hquestions, .nil _⟩
      have h12 := hrec.behind_header
      have hlt := hclass.behind hrec
      omega
    exact fun i hi => wordAt_congr (hbyte i (by omega)) (hbyte (i + 1) hi)
  rw [hheader 2 (by omega)] at hdir hop
  rw [hheader 4 (by omega)] at hcount
  rw [hagree.length] at h12 hstop
  obtain ⟨target, hends⟩ := (parseNameFrom_ends hname).2 rfl
  have hrec : RecordAt p 0 (stop + 4) := by
    refine ⟨stop + 4, ?_, .nil _⟩
    rw [hcount]
    exact .cons hends (.nil _)
  have hfront : ∀ i, i + 1 < stop + 4 → q.wordAt i = p.wordAt i := fun i hi =>
    wordAt_congr (SameExcept.front hagree hrec (by omega)) (SameExcept.front hagree hrec hi)
  rw [hfront stop (by omega)] at htype
  rw [hfront (stop + 2) (by omega)] at hclass
  exact ⟨parseQuestion_eq_ok.mpr ⟨h12, hdir, hop, parseQuestionFields_eq_ok.mpr
    ⟨h12, hcount, stop, hname, hstop, htype, hclass⟩⟩, hheader 0 (by omega)⟩

end Questions

section Queries

variable {packet : Bytes} {query : DnsQuery}

/-- A query whose payload is too long opens nothing. -/
theorem handleDnsQueryAt_tooLong {p payload : Bytes} (ha : Admitted packet query)
    (hp : prepareForwardedPacket packet = .ok p) (hpayload : udpPayload p = .ok payload)
    (hlong : dnsPayloadMax < payload.length) (ioOwner : IoOwnerKey) (now natNow : Instant) :
    DnsSame state ((handleDnsQueryAt ioOwner packet query.config now natNow).run state).2 := by
  obtain ⟨p', hp', hc, -⟩ := ha.prepared
  cases hp.symm.trans hp'
  have hrefuse : Act.Stable (DnsSame state) (refuseQuery id ioOwner p query.flow query.config) :=
    refuseQuery_frame (fun _ _ h => h) _ _ _ _ _
  rw [handleDnsQueryAt, Act.lift_bind_run hp, Act.lift_bind_run (parseFlowKey_eq_ok.mpr ⟨_, hc⟩),
    if_neg (by simp [ha.udp, ha.destination, ha.destinationPort])]
  refine Act.Stable.bind (.lift _ _) (fun fragmented => .ite hrefuse fun s hs => ?_) state
    ⟨rfl, rfl⟩
  rw [Act.lift_bind_run hpayload, if_pos hlong]
  exact hrefuse s hs

/-- The query that a transaction was opened for, and its call in the run. -/
structure Asked (start : FlowWorkerState) (ops : List (DnsFlowConfig × Op)) (packet : Bytes)
    (query : DnsQuery) (transaction : DnsFlowTransaction) : Prop where
  call : ∃ earlier later now natNow key,
    ops = earlier ++ (query.config, .handleDnsQueryAt query.ioOwner packet now natNow) :: later ∧
      Added (start.after earlier) key transaction (start.after
        (earlier ++ [(query.config, .handleDnsQueryAt query.ioOwner packet now natNow)])) ∧
      transaction.token = (start.after earlier).nextToken
  opened : Opened packet query transaction
  original : transaction.binding.original = (query.request transaction.remote).original
  short : ∀ p payload, prepareForwardedPacket packet = .ok p → udpPayload p = .ok payload →
    payload.length ≤ dnsPayloadMax

theorem after_concat (start : FlowWorkerState) (ops : List (DnsFlowConfig × Op))
    (op : DnsFlowConfig × Op) :
    start.after (ops ++ [op]) = ((op.2.call op.1).run (start.after ops)).2 := by
  rw [after, List.foldl_append]
  rfl

theorem Asked.concat {ops : List (DnsFlowConfig × Op)}
    (h : Asked start ops packet query transaction)
    (op : DnsFlowConfig × Op) : Asked start (ops ++ [op]) packet query transaction := by
  obtain ⟨earlier, later, now, natNow, key, rfl, hadded, htoken⟩ := h.call
  exact ⟨⟨earlier, later ++ [op], now, natNow, key, by simp, hadded, htoken⟩, h.opened, h.original,
    h.short⟩

/-- Every active transaction was opened by a query of the run. -/
theorem asked_of_active (hsound : Sound first last False listen capacity start)
    (ops : List (DnsFlowConfig × Op)) {key : DnsFlowTransactionKey}
    {transaction : DnsFlowTransaction} (hempty : start.dnsByKey = .empty)
    (hk : (start.after ops).dnsByKey.get key = some transaction) :
    ∃ packet query, Asked start ops packet query transaction := by
  induction ops using List.reverseRecOn generalizing key transaction with
  | nil =>
    rw [after, List.foldl_nil, hempty] at hk
    cases hk
  | append_singleton ops op ih =>
    have hbefore : Sound first last False listen capacity (start.after ops) :=
      after_sound hsound ops fun _ _ hs => hs.elim
    obtain ⟨ephemeral, hl⟩ := hbefore.leased
    have hkept : (start.after ops).dnsByKey.get key = some transaction →
        ∃ packet query, Asked start (ops ++ [op]) packet query transaction := by
      intro hold
      obtain ⟨packet, query, hasked⟩ := ih hold
      exact ⟨packet, query, hasked.concat op⟩
    rw [after_concat] at hk
    by_cases hop : op.2.isQuery = true
    · obtain ⟨config, op⟩ := op
      cases op with
      | handleDnsQueryAt ioOwner packet now natNow =>
        obtain ⟨hsame, -⟩ | ⟨query, key', transaction', hopened, hadded, rfl, rfl, horiginal,
          htoken, -⟩ :=
          handleDnsQueryAt_opened hl ioOwner packet config now natNow
        · exact hkept (hsame.1 ▸ hk)
        · rw [show ((Op.call query.config (.handleDnsQueryAt query.ioOwner packet now natNow)).run
            (start.after ops)).2.dnsByKey = _ from hadded.dnsByKey, HashMap.get_insert] at hk
          split_ifs at hk with hkey
          · cases hk
            refine ⟨packet, query, ⟨ops, [], now, natNow, key', rfl, ?_, htoken⟩, hopened,
              horiginal, fun p payload hp hpayload => ?_⟩
            · rw [after_concat]
              exact hadded
            · by_contra hlong
              have hsame : DnsSame (start.after ops) _ := handleDnsQueryAt_tooLong hopened.admitted
                hp hpayload (Nat.lt_of_not_le hlong) query.ioOwner now natNow
              have hget := hadded.free
              rw [← hsame.1, hadded.dnsByKey, HashMap.get_insert, if_pos rfl] at hget
              cases hget
          · exact hkept hk
      | _ => cases hop
    · exact hkept ((call_drops op.1 op.2 (Bool.eq_false_iff.mpr hop) _).1 key transaction hk)

end Queries

section Delivery

variable {packet p payload raw : Bytes} {query : DnsQuery} {response : HandledDnsResponse}
  {ops : List (DnsFlowConfig × Op)}

/-- The flow of an answer that `listen` gives to `client`. -/
def answerFlow (listen client : SocketAddr) : FlowKey :=
  ⟨listen.ip, client.ip, listen.port, client.port, .udp⟩

/-- The answer `response` to the resolver's `packet` after the calls `ops`: it goes to the
client that sent `raw`, and says what the resolver said. -/
structure Delivers (start : FlowWorkerState) (ops : List (DnsFlowConfig × Op))
    (packet : Bytes) (response : HandledDnsResponse) (raw : Bytes) (query : DnsQuery)
    (transaction : DnsFlowTransaction) : Prop where
  asked : Asked start ops raw query transaction
  client : parseFlowKey raw = .ok query.flow
  token : response.transactionId = transaction.token
  target : response.localTarget = query.ioOwner
  flow : parseFlowKey response.packet = .ok (answerFlow query.config.listen query.client)
  binding : (start.after ops).sessions.nat.get transaction.token = some transaction.binding
  arrived : parseFlowKey packet = .ok transaction.binding.translated.reverse
  resolver : (⟨transaction.binding.translated.destination,
    transaction.binding.translated.destinationPort⟩ : SocketAddr) =
      (query.request transaction.remote).resolver
  carried : ∃ payload, udpPayload packet = .ok payload ∧
    if payload.length ≤ dnsPayloadMax then
      udpPayload response.packet = .ok payload ∧ ∃ message question, udpPayload raw = .ok message ∧
        payload.wordAt 0 = message.wordAt 0 ∧ parseQuestion message = .ok question ∧
        validateMessage payload true = .ok question
    else IsServfail query.config.listen transaction.originalPacket response.packet

/-- The flow and the payload of a packet that is forwarded are those it arrived with. -/
theorem arrived_of_prepared {f : FlowKey} (hp : prepareForwardedPacket packet = .ok p)
    (hflow : parseFlowKey p = .ok f) (hu : f.protocol = .udp)
    (hpayload : udpPayload p = .ok payload) :
    parseFlowKey packet = .ok f ∧ udpPayload packet = .ok payload := by
  obtain ⟨l, hc, -, -, rfl⟩ := carries_of_prepare hp hflow
  refine ⟨parseFlowKey_eq_ok.mpr ⟨l, hc⟩, ?_⟩
  rw [udpPayload_ok hc hu, ← slice_forwarded hc.layout, ← hpayload,
    udpPayload_ok (hc.keep_forwarding hc.layout.forwarded) hu]

theorem Asked.client_flow (h : Asked start ops raw query transaction) :
    parseFlowKey raw = .ok query.flow := by
  obtain ⟨p, hp, hc, -⟩ := h.opened.admitted.prepared
  exact (arrived_of_prepared hp (parseFlowKey_eq_ok.mpr ⟨_, hc⟩) h.opened.admitted.udp
    (udpPayload_ok hc h.opened.admitted.udp)).1

/-- What the client asked is what its transaction keeps: the clamp changes neither the
identifier nor the question. -/
theorem Asked.message {question : DnsQuestion} (h : Asked start ops raw query transaction)
    (hq : parseQuestion query.payload = .ok question) :
    ∃ message, udpPayload raw = .ok message ∧ query.payload.wordAt 0 = message.wordAt 0 ∧
      parseQuestion message = .ok question := by
  have hu := h.opened.admitted.udp
  obtain ⟨p, hp, hc, hclamp⟩ := h.opened.admitted.prepared
  have hpayload := udpPayload_ok hc hu
  have hraw := (arrived_of_prepared hp (parseFlowKey_eq_ok.mpr ⟨_, hc⟩) hu hpayload).2
  obtain ⟨hquestion, hid⟩ := question_of_clampOf
    (clampOf_prepared hraw hp hc hu (.inr ⟨_, hclamp⟩)) (h.short p _ hp hpayload) hq
  exact ⟨_, hraw, hid, hquestion⟩

theorem Asked.fields (h : Asked start ops raw query transaction) :
    transaction.client = query.client ∧ transaction.dnsVip = query.config.listen ∧
      transaction.localTarget = query.ioOwner ∧ transaction.originalPacket = query.packet := by
  obtain ⟨remote, token, binding, rfl⟩ := h.opened.made
  exact ⟨rfl, rfl, rfl, rfl⟩

theorem Matched.delivers (hl : Leased first last ephemeral (start.after ops))
    (hm : Matched (start.after ops) packet p payload key transaction)
    (ha : Answers p payload transaction response) (h : Asked start ops raw query transaction) :
    Delivers start ops packet response raw query transaction := by
  have hu := (hl.query key transaction hm.held).1
  obtain ⟨hclient, hvip, htarget, hpacket⟩ := h.fields
  have hadmitted := h.opened.admitted
  have hlease := (hl.sessions.toLinked.ledger_ephemeral (hl.ephemeral_of_get hm.held)).2
  obtain ⟨harrived, hcarried⟩ := arrived_of_prepared hm.prepared hm.flow hu hm.carried
  obtain ⟨l, hc⟩ := parseFlowKey_eq_ok.mp hm.flow
  have hresolver : (⟨transaction.binding.translated.destination,
      transaction.binding.translated.destinationPort⟩ : SocketAddr) =
        (query.request transaction.remote).resolver := by
    obtain ⟨snat, -, htranslated⟩ := hl.sessions.nat.translated _ _ hlease
    rw [show transaction.binding.translated = NatTable.translate transaction.binding.original snat _
      from htranslated, h.original]
    rfl
  have hanswer : parseFlowKey response.packet = .ok (answerFlow query.config.listen query.client) ∧
      if payload.length ≤ dnsPayloadMax then udpPayload response.packet = .ok payload
      else IsServfail query.config.listen transaction.originalPacket response.packet := by
    rcases ha.packet with ⟨hle, hrun⟩ | ⟨hlong, flow, hflow, hrun⟩
    · obtain ⟨hproto, hsrc, hdst⟩ := rewritePacket_families hc hrun
      obtain ⟨q, hq, hcq, -, hsame⟩ := rewritePacket_ok hc hproto hsrc hdst trivial
      obtain ⟨_, hrun⟩ := Act.exec_eq_ok.mp hrun
      cases hrun.symm.trans hq
      rw [hvip, hclient] at hcq
      rw [if_pos hle]
      refine ⟨parseFlowKey_eq_ok.mpr ⟨l, hcq⟩, ?_⟩
      rw [udpPayload_ok hcq rfl, ← hm.carried, udpPayload_ok hc hu]
      exact congrArg _ (hsame.slice hc.layout.total_le fun i hi _ =>
        hc.layout.not_translation_udp hi)
    · rw [hpacket] at hflow hrun
      cases (parseFlowKey_eq_ok.mpr ⟨_, hadmitted.carries⟩).symm.trans hflow
      obtain ⟨hroom, hfamily⟩ := hadmitted.answerable
      obtain ⟨q, hq, hservfail⟩ :=
        (dnsServfailTransmitToListen_cases hadmitted.carries hadmitted.udp
        transaction.localTarget query.config.listen).2 hroom hfamily
      rw [hvip] at hrun
      cases hrun.symm.trans hq
      rw [if_neg (Nat.not_le.mpr hlong), hpacket]
      refine ⟨?_, hservfail⟩
      obtain ⟨flow, _, _, hflow, -, hkey, -⟩ := hservfail
      cases (parseFlowKey_eq_ok.mpr ⟨_, hadmitted.carries⟩).symm.trans hflow
      exact hkey
  refine ⟨h, h.client_flow, ha.transactionId, ha.localTarget.trans htarget, hanswer.1, ?_, harrived,
    hresolver, payload, hcarried, ?_⟩
  · rw [NatTable.get, hl.sessions.nat.forward, hlease]
    rfl
  split_ifs with hle
  · rw [if_pos hle] at hanswer
    obtain ⟨message, hmessage, hmatch⟩ := hm.question
    rw [hpacket, udpPayload_ok hadmitted.carries hadmitted.udp] at hmessage
    cases hmessage
    obtain ⟨hid, question, hquestion, hresponse⟩ := responseMatchesQuery_eq_ok.mp hmatch
    obtain ⟨message, hmessage, hid', hquestion'⟩ := h.message hquestion
    exact ⟨hanswer.2, message, question, hmessage, hid.trans hid', hquestion', hresponse⟩
  · rw [if_neg hle] at hanswer
    exact hanswer.2

end Delivery

section Runs

variable {workerId : ℕ} {snatIpv4 : Option (Vector UInt8 4)} {snatIpv6 : Option (Vector UInt8 16)}
  {ops : List (DnsFlowConfig × Op)}

theorem drawn_newDual (hstart : newDual workerId snatIpv4 snatIpv6 first last = .ok start) :
    Drawn 0 [] start := by
  obtain ⟨sessions, -, h⟩ := bind_eq_ok.mp hstart
  cases h
  refine ⟨rfl, ?_⟩
  convert Tickets.none_issued token
  ext token
  refine iff_of_false ?_ (Set.notMem_empty token)
  rintro ⟨key, transaction, hk, -⟩
  cases hk

/-- With the last answer for a token its lease is released and its tuple quarantined. The
answers of resolvers reach the clients that asked. -/
structure AnswersClients (start : FlowWorkerState) (ops : List (DnsFlowConfig × Op)) : Prop where
  released : ∀ before config op rest, ops = before ++ (config, op) :: rest →
    ∀ token ∈ (start.after before).terminals config op, ∃ binding time,
      (start.after before).sessions.nat.get token = some binding ∧ op.Reads time ∧
      (start.after (before ++ [(config, op)])).sessions.nat.get token = none ∧
      (start.after (before ++ [(config, op)])).sessions.nat.quarantined.get
        (.fromTranslatedFlow binding.translated) =
          some (time + reuseQuarantine binding.translated.protocol)
  delivered : ∀ before config packet natNow rest response,
    ops = before ++ (config, .handleDnsResponse packet natNow) :: rest →
      ((handleDnsResponse packet natNow).run (start.after before)).1 = .ok (some response) →
        ∃ raw query transaction, Delivers start before packet response raw query transaction

/-- What the answers of a run should be: a token is answered for good at most once. -/
structure AnswersOnce (start : FlowWorkerState) (ops : List (DnsFlowConfig × Op)) : Prop
    extends AnswersClients start ops where
  once : (start.terminalAnswers ops).Nodup

/-- The answers reach the clients, and in a run with at most 2^63 queries they are as they
should be. -/
theorem dnsAnswers_once (hstart : newDual workerId snatIpv4 snatIpv6 first last = .ok start) :
    AnswersClients start ops ∧ (queries ops ≤ 2 ^ 63 → AnswersOnce start ops) := by
  have hsound : Sound first last False ⟨.v4 (Vector.replicate 4 0), 0⟩ 0 start :=
    sound_newDual hstart
  have hempty : start.dnsByKey = .empty := by
    obtain ⟨sessions, -, h⟩ := bind_eq_ok.mp hstart
    cases h
    rfl
  have hleased : ∀ before, ∃ ephemeral, Leased first last ephemeral (start.after before) :=
    fun before => (after_sound hsound before fun _ _ hs => hs.elim).leased
  suffices hclients : AnswersClients start ops by
    refine ⟨hclients, fun hbound => ⟨hclients, ?_⟩⟩
    have h := (drawn_newDual hstart).after hsound ops (by rwa [Nat.zero_add])
    rwa [List.nil_append] at h
  refine ⟨?_, ?_⟩
  · intro before config op rest _ token hmem
    obtain ⟨ephemeral, hl⟩ := hleased before
    rw [after_concat]
    obtain hnone | hr := call_redeems hl config op
    · rw [hnone] at hmem
      cases hmem
    obtain ⟨key, transaction, hk, rfl, hgone⟩ := hr.closed token hmem
    obtain ⟨hfree, time, hread, hquarantined⟩ := hr.released key transaction hk hgone
    refine ⟨transaction.binding, time, ?_, hread, hfree, hquarantined⟩
    rw [NatTable.get, hl.sessions.nat.forward,
      (hl.sessions.toLinked.ledger_ephemeral (hl.ephemeral_of_get hk)).2]
    rfl
  · intro before config packet natNow rest response _ hrun
    obtain ⟨ephemeral, hl⟩ := hleased before
    have hspec := handleDnsResponse_spec hl packet natNow _ (.refl _)
    rw [show (handleDnsResponse packet natNow).run (start.after before) =
      (.ok (some response), _) from Prod.ext hrun rfl] at hspec
    obtain ⟨p, payload, key, transaction, hm, -, ha⟩ := hspec
    obtain ⟨raw, query, hasked⟩ := asked_of_active hsound before hempty hm.held
    exact ⟨raw, query, transaction, hm.delivers hl ha hasked⟩

/-- A worker with one port. -/
def onePortWorker : FlowWorkerState :=
  (newDual 1 (some (dotted 192 0 2 2)) none 40000 40000).toOption.get rfl

def onePortConfig : DnsFlowConfig :=
  ⟨⟨.v4 (dotted 192 0 2 1), 53⟩, ⟨.v4 (dotted 192 0 2 53), 53⟩, ⟨.v4 (dotted 9 9 9 9), 53⟩,
    ⟨.empty⟩, 8, 5, true⟩

/-- A client asks for `a.`. -/
def ask (now : Instant) : DnsFlowConfig × Op :=
  (onePortConfig, .handleDnsQueryAt ⟨0, 0⟩ plainQuery now now)

/-- The transaction of that client is aborted. -/
def giveUp (now : Instant) : DnsFlowConfig × Op :=
  (onePortConfig, .abortDnsTransaction
    ⟨⟨.v4 (dotted 192 0 2 9), .v4 (dotted 192 0 2 53), 40000, 53, .udp⟩,
      ⟨.v4 (dotted 192 0 2 2), .v4 (dotted 192 0 2 53), 40000, 53, .udp⟩⟩ now)

/-- The client asks and the resolver answers. -/
theorem dnsAnswers_once_answered :
    let ops := [ask 0, (onePortConfig, .handleDnsResponse emptyAnswer 1)]
    newDual 1 (some (dotted 192 0 2 2)) none 40000 40000 = .ok onePortWorker ∧ queries ops = 1 ∧
      onePortWorker.terminalAnswers ops = [token 0] ∧ AnswersOnce onePortWorker ops := by
  have hstart : newDual 1 (some (dotted 192 0 2 2)) none 40000 40000 = .ok onePortWorker := rfl
  exact ⟨hstart, rfl, by decide +kernel, (dnsAnswers_once hstart).2 (by decide)⟩

end Runs

section Wrap

theorem terminalAnswers_append (state : FlowWorkerState) (ops rest : List (DnsFlowConfig × Op)) :
    state.terminalAnswers (ops ++ rest) =
      state.terminalAnswers ops ++ (state.after ops).terminalAnswers rest := by
  induction ops generalizing state with
  | nil => rfl
  | cons op ops ih => rw [List.cons_append, terminalAnswers, terminalAnswers, ih, List.append_assoc,
      after, after, List.foldl_cons]

/-- The worker while its port is in quarantine. -/
def coolingWorker : FlowWorkerState := onePortWorker.after [ask 0, giveUp 0]

/-- A query that finds no port costs a token. -/
theorem ask_cooling (n : UInt64) (stats : FlowWorkerStats) :
    (((ask 0).2.call (ask 0).1).run { coolingWorker with nextDnsToken := n, stats }).2 =
      { coolingWorker with
        nextDnsToken := nextCounter n
        stats := { stats with
          dnsNatExhausted := stats.dnsNatExhausted + 1
          dnsServfail := stats.dnsServfail + 1 } } := by
  with_unfolding_all rfl

theorem after_cooling (n : ℕ) (h : n + 2 < 2 ^ 64) :
    coolingWorker.after (List.replicate n (ask 0)) =
      { coolingWorker with
        nextDnsToken := .ofNat (n + 2)
        stats := { coolingWorker.stats with
          dnsNatExhausted := coolingWorker.stats.dnsNatExhausted + n
          dnsServfail := coolingWorker.stats.dnsServfail + n } } := by
  induction n with
  | zero => with_unfolding_all rfl
  | succ n ih =>
    rw [List.replicate_succ', after_concat, ih (by omega), ask_cooling,
      nextCounter_ofNat (by omega)]
    rfl

/-- A run in which the counter of the tokens wraps: 2^63 - 1 queries come while the port is in
quarantine, and one after it. -/
def wrappingRun : List (DnsFlowConfig × Op) :=
  [ask 0, giveUp 0] ++ (List.replicate (2 ^ 63 - 1) (ask 0) ++
    [ask udpReuseQuarantine, giveUp udpReuseQuarantine])

theorem wrappingRun_answers_twice : newDual 1 (some (dotted 192 0 2 2)) none 40000 40000 =
      .ok onePortWorker ∧ queries wrappingRun = 2 ^ 63 + 1 ∧
    2 ≤ (onePortWorker.terminalAnswers wrappingRun).count (token 0) ∧
    ¬ AnswersOnce onePortWorker wrappingRun := by
  have hfirst : onePortWorker.terminalAnswers [ask 0, giveUp 0] = [token 0] := by decide +kernel
  have hsecond : (coolingWorker.after (List.replicate (2 ^ 63 - 1) (ask 0))).terminalAnswers
      [ask udpReuseQuarantine, giveUp udpReuseQuarantine] = [token 0] := by
    rw [after_cooling (2 ^ 63 - 1) (by decide)]
    decide +kernel
  have hcount : 2 ≤ (onePortWorker.terminalAnswers wrappingRun).count (token 0) := by
    have hcooling : onePortWorker.after [ask 0, giveUp 0] = coolingWorker := rfl
    rw [wrappingRun, terminalAnswers_append, terminalAnswers_append, List.count_append,
      List.count_append, hfirst, hcooling, hsecond, List.count_singleton_self]
    omega
  refine ⟨rfl, ?_, hcount, fun h => ?_⟩
  · rw [queries, wrappingRun, List.countP_append, List.countP_append, List.countP_replicate]
    rfl
  · have hone := List.nodup_iff_count_le_one.mp h.once (token 0)
    omega

end Wrap

end FlowWorkerState

end NewProxy
