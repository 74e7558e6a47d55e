import NewProxy.DnsChanges
import NewProxy.DnsFailClosed

/-!
# Resolver packets that cannot be used

Every check of `handle_dns_response` but one stands before the transaction is taken out.
The exception is the length of the DNS payload.
-/
namespace NewProxy

namespace Dns

open Outcome Bytes

variable {p query response : Bytes} {question : DnsQuestion}

theorem parseQuestion_eq_ok : parseQuestion p = .ok question ↔
    12 ≤ p.length ∧ p.wordAt 2 &&& 0x8000 = 0 ∧ p.wordAt 2 &&& 0x7800 = 0 ∧
      parseQuestionFields p = .ok question := by
  constructor
  · intro h
    obtain ⟨header, hheader, h⟩ := bind_eq_ok.mp h
    obtain ⟨⟨-, h12⟩, rfl⟩ := getRange_eq_some.mp (okOr_eq_ok.mp hheader)
    obtain ⟨_, hdir, h⟩ := bind_eq_ok.mp h
    obtain ⟨_, hop, h⟩ := bind_eq_ok.mp h
    rw [ensure_eq_ok, wordAt_slice (by omega), Nat.zero_add] at hdir hop
    exact ⟨h12, hdir, hop, h⟩
  · rintro ⟨h12, hdir, hop, h⟩
    rw [parseQuestion, getRange_some (Nat.zero_le 12) h12]
    simp only [okOr, bind_ok]
    rw [wordAt_slice (by omega), Nat.zero_add, ensure_eq_ok (u := ()).mpr hdir,
      ensure_eq_ok (u := ()).mpr hop, bind_ok, bind_ok, h]

theorem dnsId_eq (h : 2 ≤ p.length) : dnsId p = some (p.wordAt 0) := by
  rw [dnsId, getRange_some (Nat.zero_le 2) h, Option.map_some, wordAt_slice (by omega)]

/-- A response is matched by its identifier and its question. -/
theorem responseMatchesQuery_eq_ok : responseMatchesQuery query response = .ok () ↔
    response.wordAt 0 = query.wordAt 0 ∧
      ∃ question, parseQuestion query = .ok question ∧
      validateMessage response true = .ok question := by
  constructor
  · intro h
    obtain ⟨queryId, hquery, h⟩ := bind_eq_ok.mp h
    obtain ⟨responseId, hresponse, h⟩ := bind_eq_ok.mp h
    obtain ⟨_, hid, h⟩ := bind_eq_ok.mp h
    obtain ⟨_, -, h⟩ := bind_eq_ok.mp h
    obtain ⟨_, -, h⟩ := bind_eq_ok.mp h
    obtain ⟨question, hquestion, h⟩ := bind_eq_ok.mp h
    obtain ⟨question', hquestion', hsame⟩ := bind_eq_ok.mp h
    rw [ensure_eq_ok] at hid hsame
    rw [mapErr_eq_ok] at hquestion hquestion'
    rw [okOr_eq_ok, dnsId_eq (by have := (parseQuestion_eq_ok.mp hquestion).1; omega)] at hquery
    rw [okOr_eq_ok, dnsId_eq (by have := length_of_validateMessage hquestion'; omega)] at hresponse
    cases hquery
    cases hresponse
    exact ⟨hid, question, hquestion, hsame ▸ hquestion'⟩
  · rintro ⟨hid, question, hquestion, hresponse⟩
    have h12 := (parseQuestion_eq_ok.mp hquestion).1
    obtain ⟨h12', hdir, hop, -⟩ := validateMessage_eq_ok.mp hresponse
    rw [responseMatchesQuery, dnsId_eq (by omega), dnsId_eq (by omega),
      getRange_some (Nat.zero_le 12) h12', hquestion, hresponse]
    simp only [okOr, bind_ok, mapErr]
    rw [wordAt_slice (by omega), Nat.zero_add, ensure_eq_ok (u := ()).mpr hid,
      ensure_eq_ok (u := ()).mpr ⟨hdir.mpr rfl, hop⟩, bind_ok, bind_ok]
    exact ensure_eq_ok.mpr trivial

end Dns

namespace FlowWorkerState

open Outcome Packet Dns

variable {first last : UInt16} {ephemeral : SessionId → Option NatBinding}
  {state : FlowWorkerState} {packet p payload query : Bytes} {key : DnsFlowTransactionKey}
  {transaction : DnsFlowTransaction}

/-- A packet in good order on the reverse tuple of an active transaction, and the two
DNS messages. -/
structure Hits (state : FlowWorkerState) (packet p payload query : Bytes)
    (key : DnsFlowTransactionKey) (transaction : DnsFlowTransaction) : Prop where
  prepared : prepareForwardedPacket packet = .ok p
  flow : parseFlowKey p = .ok transaction.binding.translated.reverse
  held : state.dnsByKey.get key = some transaction
  carried : udpPayload p = .ok payload
  original : udpPayload transaction.originalPacket = .ok query

/-- What makes a packet from a resolver unusable. -/
inductive Unusable (state : FlowWorkerState) (packet : Bytes) : Prop
  | fragmented (h : ipPacketIsFragmented packet = .ok true)
  /-- A length, a checksum or the hop limit is wrong. -/
  | refused (h : ∀ p, prepareForwardedPacket packet ≠ .ok p)
  | noFlow {p : Bytes} (hp : prepareForwardedPacket packet = .ok p)
      (h : ∀ flow, parseFlowKey p ≠ .ok flow)
  | inactive {p : Bytes} {flow : FlowKey} (hp : prepareForwardedPacket packet = .ok p)
      (hflow : parseFlowKey p = .ok flow)
      (h : ∀ key transaction, state.dnsByKey.get key = some transaction →
        transaction.binding.translated.reverse ≠ flow)
  | wrongId {p payload query key transaction : _}
      (hits : Hits state packet p payload query key transaction)
      (h : payload.wordAt 0 ≠ query.wordAt 0)
  | wrongOpcode {p payload query key transaction : _}
      (hits : Hits state packet p payload query key transaction)
      (h : ¬ (payload.wordAt 2 &&& 0x8000 ≠ 0 ∧ payload.wordAt 2 &&& 0x7800 = 0))
  | malformed {p payload query key transaction : _}
      (hits : Hits state packet p payload query key transaction)
      (h : ∀ question, validateMessage payload true ≠ .ok question)
  | wrongQuestion {p payload query key transaction question question' : _}
      (hits : Hits state packet p payload query key transaction)
      (hquery : parseQuestion query = .ok question)
      (hresponse : validateMessage payload true = .ok question') (h : question' ≠ question)
  | tooLong {p payload : Bytes} (hp : prepareForwardedPacket packet = .ok p)
      (hpayload : udpPayload p = .ok payload) (h : dnsPayloadMax < payload.length)

/-- The packet is longer than allowed and otherwise the answer. -/
def Oversized (state : FlowWorkerState) (packet : Bytes) : Prop :=
  ∃ p payload key transaction, Matched state packet p payload key transaction ∧
    dnsPayloadMax < payload.length

theorem Matched.hits (h : Matched state packet p payload key transaction) :
    ∃ query, Hits state packet p payload query key transaction ∧
      responseMatchesQuery query payload = .ok () := by
  obtain ⟨query, hquery, hm⟩ := h.question
  exact ⟨query, ⟨h.prepared, h.flow, h.held, h.carried, hquery⟩, hm⟩

theorem not_fragmented_of_prepared (h : prepareForwardedPacket packet = .ok p) :
    ipPacketIsFragmented packet = .ok false := by
  obtain ⟨fragmented, hf, h⟩ := bind_eq_ok.mp h
  obtain ⟨_, hfalse, -⟩ := bind_eq_ok.mp h
  rw [hf, ensure_eq_ok.mp hfalse]

/-- The packet names at most one transaction. -/
theorem Hits.unique (hl : Leased first last ephemeral state) {p' payload' query' : Bytes}
    {key' : DnsFlowTransactionKey} {transaction' : DnsFlowTransaction}
    (h : Hits state packet p payload query key transaction)
    (h' : Hits state packet p' payload' query' key' transaction') :
    p' = p ∧ payload' = payload ∧ query' = query ∧ key' = key ∧ transaction' = transaction := by
  cases h.prepared.symm.trans h'.prepared
  cases h.carried.symm.trans h'.carried
  have hflow := Except.ok.inj (h.flow.symm.trans h'.flow)
  have hkey := (hl.reverse _ key).mpr ⟨transaction, h.held, rfl⟩
  cases hkey.symm.trans ((hl.reverse _ key').mpr ⟨transaction', h'.held, hflow.symm⟩)
  cases h.held.symm.trans h'.held
  cases h.original.symm.trans h'.original
  exact ⟨rfl, rfl, rfl, rfl, rfl⟩

/-- The query that is kept has a question. -/
theorem Opened.asks {query : DnsQuery} (h : Opened packet query transaction) :
    udpPayload transaction.originalPacket = .ok query.payload ∧
      ∃ question, parseQuestion query.payload = .ok question := by
  obtain ⟨remote, token, binding, rfl⟩ := h.made
  exact ⟨udpPayload_ok h.admitted.carries h.admitted.udp, h.admitted.question⟩

/-- The packet answers an active transaction or is unusable. -/
theorem unusable_iff (h : state.Reachable) : Unusable state packet ↔
    ¬ ∃ p payload key transaction, Matched state packet p payload key transaction ∧
      payload.length ≤ dnsPayloadMax := by
  obtain ⟨first, last, hsound⟩ := h.sound
  obtain ⟨ephemeral, hl⟩ := hsound.leased
  constructor
  · rintro hu ⟨p, payload, key, transaction, hm, hle⟩
    obtain ⟨query, hits, hmatch⟩ := hm.hits
    obtain ⟨hid, question, hquestion, hresponse⟩ := responseMatchesQuery_eq_ok.mp hmatch
    obtain ⟨-, hdir, hop, -⟩ := validateMessage_eq_ok.mp hresponse
    cases hu with
    | fragmented hf => cases hm.unfragmented.symm.trans hf
    | refused hr => exact hr p hm.prepared
    | noFlow hp hn =>
      cases hm.prepared.symm.trans hp
      exact hn _ hm.flow
    | inactive hp hflow hn =>
      cases hm.prepared.symm.trans hp
      exact hn key transaction hm.held (Except.ok.inj (hm.flow.symm.trans hflow))
    | wrongId hits' hn =>
      obtain ⟨rfl, rfl, rfl, rfl, rfl⟩ := hits.unique hl hits'
      exact hn hid
    | wrongOpcode hits' hn =>
      obtain ⟨rfl, rfl, rfl, rfl, rfl⟩ := hits.unique hl hits'
      exact hn ⟨hdir.mpr rfl, hop⟩
    | malformed hits' hn =>
      obtain ⟨rfl, rfl, rfl, rfl, rfl⟩ := hits.unique hl hits'
      exact hn question hresponse
    | wrongQuestion hits' hquestion' hresponse' hn =>
      obtain ⟨rfl, rfl, rfl, rfl, rfl⟩ := hits.unique hl hits'
      cases hquestion.symm.trans hquestion'
      exact hn (Except.ok.inj (hresponse'.symm.trans hresponse))
    | tooLong hp hpayload hn =>
      cases hm.prepared.symm.trans hp
      cases hm.carried.symm.trans hpayload
      exact absurd hle (Nat.not_le.mpr hn)
  · intro hn
    by_contra hu
    -- the checks one after the other; the first that fails is the reason
    rcases hp : prepareForwardedPacket packet with e | p
    · exact hu (.refused fun p hok => by cases hp.symm.trans hok)
    rcases hflow : parseFlowKey p with e | flow
    · exact hu (.noFlow hp fun flow hok => by cases hflow.symm.trans hok)
    by_cases hactive : ∃ key transaction, state.dnsByKey.get key = some transaction ∧
        transaction.binding.translated.reverse = flow
    · obtain ⟨key, transaction, hk, rfl⟩ := hactive
      obtain ⟨l, hc⟩ := parseFlowKey_eq_ok.mp hflow
      obtain ⟨hudp, -⟩ := hl.query key transaction hk
      obtain ⟨_, query, hopened⟩ := h.opened hk
      obtain ⟨hquery, question, hquestion⟩ := hopened.asks
      have hpayload := udpPayload_ok hc hudp
      have hits : Hits state packet p _ query.payload key transaction :=
        ⟨hp, hflow, hk, hpayload, hquery⟩
      have hid := not_not.mp fun hid => hu (.wrongId hits hid)
      rcases hresponse : validateMessage (p.slice (l.offset + 8) l.total) true with e | question'
      · exact hu (.malformed hits fun question hok => by cases hresponse.symm.trans hok)
      have hsame := not_not.mp fun hsame => hu (.wrongQuestion hits hquestion hresponse hsame)
      have hmatch := responseMatchesQuery_eq_ok.mpr ⟨hid, question, hquestion, hsame ▸ hresponse⟩
      refine hn ⟨p, _, key, transaction, ⟨not_fragmented_of_prepared hp, hp, hflow, hk, hpayload, _,
        hquery, hmatch⟩, ?_⟩
      exact Nat.not_lt.mp fun hlong => hu (.tooLong hp hpayload hlong)
    · exact hu (.inactive hp hflow fun key transaction hk heq =>
        hactive ⟨key, transaction, hk, heq⟩)

/-- A packet that answers a transaction closes it, whatever comes of the answer. -/
theorem Matched.run (hl : Leased first last ephemeral state)
    (h : Matched state packet p payload key transaction) (natNow : Instant) :
    ∃ s, Unchanged (state.answered key transaction natNow) s ∧
      (handleDnsResponse packet natNow).run state =
        (answerTransaction p payload transaction >>= fun response =>
          pure (some response)).run s := by
  obtain ⟨query, hquery, hmatch⟩ := h.question
  have hreverse := (hl.reverse _ key).mpr ⟨transaction, h.held, rfl⟩
  obtain ⟨hrun, -⟩ := removeDnsTransaction_ok hl h.held FlowWorkerError.session natNow
  let answered := state.answered key transaction natNow
  refine ⟨{ answered with stats.dnsTransactionsActive := answered.dnsByKey.len },
    ⟨⟨⟨rfl, rfl, rfl, rfl, rfl⟩, rfl⟩, rfl, rfl, rfl⟩, ?_⟩
  rw [handleDnsResponse, Act.lift_bind_run h.unfragmented, if_neg Bool.false_ne_true,
    Act.lift_bind_run h.prepared, Act.lift_bind_run h.flow, Act.bind_of_ok (Act.run_get state)]
  simp only [hreverse, h.held]
  rw [completeTransaction, Act.lift_bind_run h.carried, Act.lift_bind_run hquery,
    Act.call_bind_run (attempt_eq_ok_ok.mpr hmatch)]
  simp only
  rw [Act.bind_of_ok hrun, Act.bind_of_ok (Act.run_expect _ _), Act.bind_of_ok (Act.run_modify _ _),
    countActive, Act.bind_of_ok (Act.run_modify _ _)]
  rfl

theorem Matched.closes (hl : Leased first last ephemeral state)
    (h : Matched state packet p payload key transaction) (natNow : Instant) :
    Unchanged (state.answered key transaction natNow)
        ((handleDnsResponse packet natNow).run state).2 ∧
      ∀ response, Answers p payload transaction response → ∃ response,
        ((handleDnsResponse packet natNow).run state).1 = .ok (some response) ∧
          Answers p payload transaction response := by
  obtain ⟨-, l, f, hc, hu⟩ := hl.query key transaction h.held
  obtain ⟨s, hs, hrun⟩ := h.run hl natNow
  have hanswer := answerTransaction_spec p payload hc hu s hs
  rw [hrun]
  rcases ha : (answerTransaction p payload transaction).run s with ⟨(e | _) | response, s'⟩
  · rw [ha] at hanswer
    rw [Act.run_bind, ha]
    exact ⟨hanswer.1, fun response hr => absurd hr (hanswer.2 response)⟩
  · rw [ha] at hanswer
    exact hanswer.elim
  · rw [ha] at hanswer
    rw [Act.bind_of_ok ha]
    exact ⟨hanswer.1, fun _ _ => ⟨response, rfl, hanswer.2⟩⟩

/-- The answer goes out: all its addresses are of the family of the client's query. -/
theorem Matched.answers (h : state.Reachable)
    (hm : Matched state packet p payload key transaction) (hle : payload.length ≤ dnsPayloadMax) :
    ∃ response, Answers p payload transaction response := by
  obtain ⟨first, last, hsound⟩ := h.sound
  obtain ⟨ephemeral, hl⟩ := hsound.leased
  obtain ⟨_, query, hopened⟩ := h.opened hm.held
  obtain ⟨l, hc⟩ := parseFlowKey_eq_ok.mp hm.flow
  have hfamily : l.isV4 = query.layout.isV4 := hc.family.2.symm.trans hopened.source
  obtain ⟨hsource, hdestination⟩ := hopened.admitted.carries.family
  rw [hopened.admitted.destination] at hdestination
  have hproto := (hl.query key transaction hm.held).1
  obtain ⟨remote, token, binding, rfl⟩ := hopened.made
  obtain ⟨q, hq, -⟩ := rewritePacket_ok hc (t := ⟨query.config.listen.ip, query.flow.source,
    query.config.listen.port, query.flow.sourcePort, .udp⟩) hproto.symm
    (hdestination.trans hfamily.symm) (hsource.trans hfamily.symm) trivial
  exact ⟨⟨_, q, _, _⟩, rfl, rfl, rfl, .inl ⟨hle, Act.exec_eq_ok.mpr ⟨(), hq⟩⟩⟩

/-- What a resolver's packet should do: one that is unusable moves counters only, every
other one completes the transaction of its tuple. -/
def Settles (state : FlowWorkerState) (packet : Bytes) (natNow : Instant) : Prop :=
  let ran := (handleDnsResponse packet natNow).run state
  (Unusable state packet → ((∃ e, ran.1 = fail e) ∨ ran.1 = .ok none) ∧ Unchanged state ran.2 ∧
    ∀ later, Unusable ran.2 later ↔ Unusable state later) ∧
  (¬ Unusable state packet → ∃ p payload key transaction response,
    Matched state packet p payload key transaction ∧ ran.1 = .ok (some response) ∧
    Answers p payload transaction response ∧
    Unchanged (state.answered key transaction natNow) ran.2)

theorem Unusable.congr {state' : FlowWorkerState} (hkeys : state'.dnsByKey = state.dnsByKey)
    (h : Unusable state packet) : Unusable state' packet := by
  have hits : ∀ {p payload query key transaction},
      Hits state packet p payload query key transaction →
      Hits state' packet p payload query key transaction := fun h =>
    ⟨h.prepared, h.flow, hkeys ▸ h.held, h.carried, h.original⟩
  cases h with
  | fragmented h => exact .fragmented h
  | refused h => exact .refused h
  | noFlow hp h => exact .noFlow hp h
  | inactive hp hflow h => exact .inactive hp hflow (hkeys ▸ h)
  | wrongId h hid => exact .wrongId (hits h) hid
  | wrongOpcode h hop => exact .wrongOpcode (hits h) hop
  | malformed h hm => exact .malformed (hits h) hm
  | wrongQuestion h hq hr hne => exact .wrongQuestion (hits h) hq hr hne
  | tooLong hp hpayload h => exact .tooLong hp hpayload h

/-- A packet without an answer for an active transaction moves counters only. -/
theorem handleDnsResponse_unmatched (hl : Leased first last ephemeral state)
    (h : ∀ p payload key transaction, ¬ Matched state packet p payload key transaction)
    (natNow : Instant) :
    ((∃ e, ((handleDnsResponse packet natNow).run state).1 = fail e) ∨
        ((handleDnsResponse packet natNow).run state).1 = .ok none) ∧
      Unchanged state ((handleDnsResponse packet natNow).run state).2 := by
  have hspec := handleDnsResponse_spec hl packet natNow state (.refl state)
  rcases hr : (handleDnsResponse packet natNow).run state with ⟨(e | _) | _ | response, s⟩
  · rw [hr] at hspec
    obtain hspec | ⟨p, payload, key, transaction, hm, -⟩ := hspec
    · exact ⟨.inl ⟨e, rfl⟩, hspec⟩
    · exact absurd hm (h p payload key transaction)
  · rw [hr] at hspec
    exact hspec.elim
  · rw [hr] at hspec
    exact ⟨.inr rfl, hspec⟩
  · rw [hr] at hspec
    obtain ⟨p, payload, key, transaction, hm, -⟩ := hspec
    exact absurd hm (h p payload key transaction)

/-- A resolver's packet does what it should unless it is an answer longer than 1232 bytes. -/
theorem settles_iff (h : state.Reachable) (packet : Bytes) (natNow : Instant) :
    Settles state packet natNow ↔ ¬ Oversized state packet := by
  obtain ⟨first, last, hsound⟩ := h.sound
  obtain ⟨ephemeral, hl⟩ := hsound.leased
  constructor
  · rintro ⟨hunusable, -⟩ ⟨p, payload, key, transaction, hm, hlong⟩
    -- the packet is unusable, and yet its transaction is gone
    obtain ⟨-, hunchanged, -⟩ := hunusable (.tooLong hm.prepared hm.carried hlong)
    have hkeys : state.dnsByKey.remove key = state.dnsByKey :=
      (hm.closes hl natNow).1.dnsByKey.symm.trans hunchanged.dnsByKey
    have hheld := hm.held
    rw [← hkeys, HashMap.get_remove, if_pos rfl] at hheld
    cases hheld
  · intro hshort
    have hle : ∀ {p payload key transaction}, Matched state packet p payload key transaction →
        payload.length ≤ dnsPayloadMax := fun hm =>
      Nat.not_lt.mp fun hlong => hshort ⟨_, _, _, _, hm, hlong⟩
    refine ⟨fun hunusable => ?_, fun husable => ?_⟩
    · obtain ⟨hresult, hunchanged⟩ :=
        handleDnsResponse_unmatched hl (fun p payload key transaction hm =>
        (unusable_iff h).mp hunusable ⟨p, payload, key, transaction, hm, hle hm⟩) natNow
      exact ⟨hresult, hunchanged, fun later =>
        ⟨.congr hunchanged.dnsByKey.symm, .congr hunchanged.dnsByKey⟩⟩
    · rw [unusable_iff h, not_not] at husable
      obtain ⟨p, payload, key, transaction, hm, hlen⟩ := husable
      obtain ⟨hclosed, hanswered⟩ := hm.closes hl natNow
      obtain ⟨response, ha⟩ := hm.answers h hlen
      obtain ⟨response, hresult, ha⟩ := hanswered response ha
      exact ⟨p, payload, key, transaction, response, hm, hresult, ha, hclosed⟩

/-- A worker with one active transaction, for `a.`. -/
def askedWorker : FlowWorkerState :=
  ((newDual 0 (some (dotted 192 0 2 2)) none 40000 40000).toOption.get rfl).after
    [(⟨⟨.v4 (dotted 192 0 2 1), 53⟩, ⟨.v4 (dotted 192 0 2 53), 53⟩, ⟨.v4 (dotted 9 9 9 9), 53⟩,
    ⟨.empty⟩, 8, 5,
        true⟩,
      .handleDnsQueryAt ⟨0, 0⟩ plainQuery 0 0)]

theorem askedWorker_reachable : askedWorker.Reachable :=
  ⟨0, some #v[192, 0, 2, 2], none, 40000, 40000, _, _, rfl, rfl⟩

/-- The resolver's answer without a record. -/
def emptyAnswer : Bytes :=
  [0x45, 0, 0, 47, 0, 1, 0, 0, 64, 17, 246, 133, 192, 0, 2, 53, 192, 0, 2, 2,
    0, 53, 0x9c, 0x40, 0, 27, 0, 0,
    0x12, 0x34, 129, 128, 0, 1, 0, 0, 0, 0, 0, 0, 1, 97, 0, 0, 1, 0, 1]

theorem emptyAnswer_settles : askedWorker.Reachable ∧ ¬ Oversized askedWorker emptyAnswer ∧
    Settles askedWorker emptyAnswer 1 := by
  have hshort : ¬ Oversized askedWorker emptyAnswer := by
    rintro ⟨p, payload, key, transaction, hm, hlong⟩
    have hp : prepareForwardedPacket emptyAnswer =
        .ok ((emptyAnswer.patch 8 [63]).patch 10 [247, 133]) := by decide +kernel
    cases hm.prepared.symm.trans hp
    have hpayload : udpPayload ((emptyAnswer.patch 8 [63]).patch 10 [247, 133]) =
        .ok (emptyAnswer.drop 28) := by decide +kernel
    cases hm.carried.symm.trans hpayload
    exact absurd hlong (by decide)
  exact ⟨askedWorker_reachable, hshort,
    (settles_iff askedWorker_reachable emptyAnswer 1).mpr hshort⟩

/-- The resolver's answer with one record, 1233 bytes of DNS. -/
def longAnswer : Bytes :=
  [0x45, 0, 4, 0xed, 0, 1, 0, 0, 64, 17, 241, 199, 192, 0, 2, 53, 192, 0, 2, 2,
    0, 53, 0x9c, 0x40, 4, 0xd9, 0, 0,
    0x12, 0x34, 129, 128, 0, 1, 0, 1, 0, 0, 0, 0, 1, 97, 0, 0, 1, 0, 1,
    0xc0, 12, 0, 16, 0, 1, 0, 0, 0, 0, 4, 0xb2] ++ List.replicate 1202 0

/-- The long answer is unusable, and its transaction is gone. -/
theorem longAnswer_completes : askedWorker.Reachable ∧ Unusable askedWorker longAnswer ∧
    askedWorker.dnsByKey.len = 1 ∧
    ((handleDnsResponse longAnswer 1).run askedWorker).1.toOption.map Option.isSome = some true ∧
    ((handleDnsResponse longAnswer 1).run askedWorker).2.dnsByKey.len = 0 ∧
    ¬ Settles askedWorker longAnswer 1 := by
  have hp : prepareForwardedPacket longAnswer =
      .ok ((longAnswer.patch 8 [63]).patch 10 [242, 199]) := by decide +kernel
  have hpayload : udpPayload ((longAnswer.patch 8 [63]).patch 10 [242, 199]) =
      .ok (longAnswer.drop 28) := by decide +kernel
  have hunusable : Unusable askedWorker longAnswer := .tooLong hp hpayload (by decide +kernel)
  have hactive : askedWorker.dnsByKey.len = 1 := by decide +kernel
  have hgone : ((handleDnsResponse longAnswer 1).run askedWorker).2.dnsByKey.len = 0 := by
    decide +kernel
  refine ⟨askedWorker_reachable, hunusable, hactive, by decide +kernel, hgone, fun hsettles => ?_⟩
  obtain ⟨-, hunchanged, -⟩ := hsettles.1 hunusable
  rw [hunchanged.dnsByKey, hactive] at hgone
  cases hgone

end FlowWorkerState

end NewProxy
