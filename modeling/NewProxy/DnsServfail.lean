import NewProxy.DnsResponses

/-!
# The SERVFAIL messages

A SERVFAIL is made by editing the query in place: its flags are set and its record
counts are cleared, but its records stay. So it is a valid answer only to a query
without records.
-/
namespace NewProxy

namespace Dns

open Outcome Bytes

variable {query asked message : Bytes} {question : DnsQuestion} {e : ℕ}

section Header

variable (h : 12 ≤ message.length)

include h

theorem length_servfailMessage : (servfailMessage message).length = message.length :=
  (FlowWorkerState.servfail_payload message _ h).2.2.1

theorem byteAt_servfailMessage {i : ℕ} (hi : i < 2 ∨ 4 ≤ i ∧ i < 6 ∨ 12 ≤ i) :
    (servfailMessage message).byteAt i = message.byteAt i := by
  have hflags : 2 + (be16Bytes (FlowWorkerState.servfailFlags (message.wordAt 2))).length ≤
      message.length := by
    rw [length_be16Bytes]
    omega
  have hcounts : 6 + [(0 : UInt8), 0, 0, 0, 0, 0].length ≤ (message.patch 2
      (be16Bytes (FlowWorkerState.servfailFlags (message.wordAt 2)))).length := by
    rw [length_patch hflags]
    exact h
  have haway : i < 6 ∨ 6 + [(0 : UInt8), 0, 0, 0, 0, 0].length ≤ i := by
    change i < 6 ∨ 12 ≤ i
    omega
  rw [servfailMessage, byteAt_patch_of_disjoint hcounts haway]
  exact byteAt_patch_of_disjoint hflags (by rw [length_be16Bytes]; omega)

theorem wordAt_servfailMessage {i : ℕ} (hi : i = 0 ∨ i = 4 ∨ 12 ≤ i) :
    (servfailMessage message).wordAt i = message.wordAt i :=
  wordAt_congr (byteAt_servfailMessage h (by omega)) (byteAt_servfailMessage h (by omega))

theorem servfailMessage_flags : (servfailMessage message).wordAt 2 =
    FlowWorkerState.servfailFlags (message.wordAt 2) :=
  (FlowWorkerState.servfail_payload message _ h).2.2.2.2.1

theorem walkedRecords_servfailMessage : walkedRecords (servfailMessage message) = 0 := by
  have hcounts : (servfailMessage message).slice 6 12 = [0, 0, 0, 0, 0, 0] :=
    (FlowWorkerState.servfail_payload message _ h).2.2.2.2.2
  have hword : ∀ i, i + 2 ≤ 6 → (servfailMessage message).wordAt (6 + i) =
      wordAt [0, 0, 0, 0, 0, 0] i := by
    intro i hi
    rw [← hcounts, wordAt_slice (by omega)]
  rw [walkedRecords, hword 0 (by omega), hword 2 (by omega), hword 4 (by omega)]
  decide

end Header

/-- A SERVFAIL is a response with the opcode of its query and RCODE 2. -/
theorem servfailFlags_bits (flags : UInt16) :
    FlowWorkerState.servfailFlags flags &&& 0x8000 = 0x8000 ∧
      FlowWorkerState.servfailFlags flags &&& 0x7800 = flags &&& 0x7800 ∧
      FlowWorkerState.servfailFlags flags &&& 0x000f = 2 := by
  refine ⟨?_, ?_, ?_⟩ <;>
  · apply UInt16.toBitVec_inj.mp
    ext i hi
    simp only [FlowWorkerState.servfailFlags, UInt16.toBitVec_and, UInt16.toBitVec_or,
      UInt16.toBitVec_not, BitVec.getElem_and, BitVec.getElem_or]
    interval_cases i <;> simp

/-- The message a query became on its way: the query itself, or what the clamp made of it
on its walk to the end of the last record. -/
def ClampOf (query asked : Bytes) : Prop :=
  asked = query ∨ ∃ lowered n, Clamped query query.length lowered asked ∧
    RecordAt query n query.length

theorem walkedRecords_eq_zero (h : walkedRecords query = 0) : (query.wordAt 10).toNat = 0 := by
  rw [walkedRecords, toNat_saturatingAdd] at h
  omega

/-- The clamp writes behind the question, and not at all without records. -/
theorem ClampOf.same (h : ClampOf query asked) (hvalid : validateQuery query = .ok question)
    (hskip : skipName query 12 = .ok e) :
    asked.length = query.length ∧ (∀ i < e + 4, asked.byteAt i = query.byteAt i) ∧
      (walkedRecords query = 0 → asked = query) := by
  obtain rfl | ⟨lowered, n, ⟨hl, -, -⟩, -⟩ := h
  · exact ⟨rfl, fun _ _ => rfl, fun _ => rfl⟩
  have hbehind : ∀ i, OversizedClass query i → e + 4 ≤ i := by
    rintro i ⟨fixed, ⟨⟨n, o, target, -, -, ⟨a, hq, hr⟩, hname⟩, -⟩, hi⟩
    obtain ⟨-, -, -, hfields, -⟩ := validateMessage_eq_ok.mp hvalid
    obtain ⟨-, hcount, -⟩ := parseQuestionFields_eq_ok.mp hfields
    obtain ⟨target', hends⟩ := skipNameFrom_ends hskip
    rw [hcount] at hq
    obtain rfl := hq.unique (.cons hends (.nil _))
    have hle := hr.le
    have hlt := hname.lt
    omega
  refine ⟨hl.same.length, fun i hi => hl.same.byte i fun hc => ?_, fun hnone => ?_⟩
  · exact absurd (hbehind i hc.1) (Nat.not_le.mpr hi)
  · refine ext_byteAt hl.same.length fun i _ => hl.same.byte i ?_
    rintro ⟨⟨fixed, ⟨⟨n, o, target, hn, hn', -⟩, -⟩, -⟩, -⟩
    rw [walkedRecords_eq_zero hnone] at hn'
    omega

/-- Without records only the flags are changed, so a name that reads neither of their bytes
reads the same. -/
theorem servfailMessage_reads (hvalid : validateQuery query = .ok question)
    (hnone : walkedRecords query = 0) (hname : ∀ i, NameReads query 12 i → i ≠ 2 ∧ i ≠ 3) :
    parseName (servfailMessage query) 12 = parseName query 12 ∧
      skipName (servfailMessage query) 12 = skipName query 12 := by
  obtain ⟨h12, -, -, -, e, hskip, -⟩ := validateMessage_eq_ok.mp hvalid
  have hzero : ∀ m : Bytes, walkedRecords m = 0 → ∀ i, 6 ≤ i → i < 12 → (m.byteAt i).toNat = 0 := by
    intro m hm i hi hlt
    rw [walkedRecords, toNat_saturatingAdd, toNat_saturatingAdd] at hm
    obtain ⟨h6, h7⟩ := bytes_of_wordAt (n := 0) (p := m) (o := 6) (by omega)
    obtain ⟨h8, h9⟩ := bytes_of_wordAt (n := 0) (p := m) (o := 8) (by omega)
    obtain ⟨h10, h11⟩ := bytes_of_wordAt (n := 0) (p := m) (o := 10) (by omega)
    interval_cases i <;> assumption
  have hbyte : ∀ i, i ≠ 2 ∧ i ≠ 3 → (servfailMessage query).byteAt i = query.byteAt i := by
    intro i hi
    by_cases hcount : 6 ≤ i ∧ i < 12
    · exact UInt8.toNat_inj.mp
        ((hzero _ (walkedRecords_servfailMessage h12) i hcount.1 hcount.2).trans
        (hzero query hnone i hcount.1 hcount.2).symm)
    · exact byteAt_servfailMessage h12 (by omega)
  have hlen := length_servfailMessage h12
  refine ⟨parseName_congr hlen fun i hi => hbyte i (hname i hi), hskip ▸ ?_⟩
  exact skipNameFrom_congr hskip hlen (fun i hi _ => hbyte i (by omega)) fun t ht =>
    parseName_congr hlen fun i hi => hbyte i (hname i (ht.reads hi))

/-- Records take room. -/
theorem Records.eq_zero_of_le {n o stop : ℕ} (h : Records query n o stop) (hle : stop ≤ o) :
    n = 0 := by
  cases h with
  | nil => rfl
  | cons hname hrest =>
    have hlt := hname.lt
    have hrest := hrest.le
    rw [recordEnd] at hrest
    omega

/-- The SERVFAIL answers the query exactly if the query has no records and its name is
still read the same, that is, reads none of the bytes that were set. -/
theorem servfailMessage_matches_iff (hvalid : validateQuery query = .ok question)
    (hclamp : ClampOf query asked) :
    responseMatchesQuery query (servfailMessage asked) = .ok () ↔
      walkedRecords query = 0 ∧ parseName (servfailMessage query) 12 = parseName query 12 ∧
        skipName (servfailMessage query) 12 = skipName query 12 := by
  obtain ⟨h12, hdir, hop, hfields, e, hskip, hrecords⟩ := validateMessage_eq_ok.mp hvalid
  obtain ⟨hlen, hbytes, hsame⟩ := hclamp.same hvalid hskip
  obtain ⟨target, hends⟩ := skipNameFrom_ends hskip
  have hquestion : parseQuestion query = .ok question :=
    parseQuestion_eq_ok.mpr
    ⟨h12, not_not.mp fun hr => Bool.false_ne_true (hdir.mp hr), hop, hfields⟩
  constructor
  · intro hm
    obtain ⟨-, question', hquestion', hresponse⟩ := responseMatchesQuery_eq_ok.mp hm
    cases hquestion.symm.trans hquestion'
    obtain ⟨h12', -, -, hfields', e', hskip', hend⟩ := validateMessage_eq_ok.mp hresponse
    -- the name itself is the same, so the question ends where it ended
    have hends' : NameEnds (servfailMessage asked) 12 e target := by
      refine hends.congr ((length_servfailMessage (by omega)).trans hlen) fun i hi hlt => ?_
      rw [byteAt_servfailMessage (by omega) (.inr (.inr hi)), hbytes i (by omega)]
    obtain ⟨_, hends''⟩ := skipNameFrom_ends hskip'
    obtain ⟨rfl, -⟩ := hends'.unique hends''
    rw [walkedRecords_servfailMessage (by omega), length_servfailMessage (by omega), hlen] at hend
    have hfull : e' + 4 = query.length := Except.ok.inj hend
    have hnone := (skipResourceRecords_ends hrecords).eq_zero_of_le hfull.ge
    obtain rfl := hsame hnone
    obtain ⟨-, -, stop, hname, -⟩ := parseQuestionFields_eq_ok.mp hfields
    obtain ⟨-, -, stop', hname', -⟩ := parseQuestionFields_eq_ok.mp hfields'
    obtain ⟨_, hstop⟩ := (parseNameFrom_ends hname).2 rfl
    obtain ⟨_, hstop'⟩ := (parseNameFrom_ends hname').2 rfl
    obtain ⟨rfl, -⟩ := hends.unique hstop
    obtain ⟨rfl, -⟩ := hends'.unique hstop'
    exact ⟨hnone, hname'.trans hname.symm, hskip'.trans hskip.symm⟩
  · rintro ⟨hnone, hname, hskip'⟩
    obtain rfl := hsame hnone
    rw [hskip] at hskip'
    rw [hnone] at hrecords
    obtain ⟨-, hcount, stop, hparse, hstop, htype, hclass⟩ := parseQuestionFields_eq_ok.mp hfields
    rw [hparse] at hname
    obtain ⟨_, hstops⟩ := (parseNameFrom_ends hparse).2 rfl
    have hlt := hstops.lt
    have hlength := length_servfailMessage h12
    have hflags := servfailMessage_flags h12
    refine responseMatchesQuery_eq_ok.mpr ⟨wordAt_servfailMessage h12 (.inl rfl), question,
      hquestion, validateMessage_eq_ok.mpr ⟨hlength ▸ h12, ?_, ?_,
        parseQuestionFields_eq_ok.mpr ⟨hlength ▸ h12, ?_, stop, hname, hlength ▸ hstop, ?_, ?_⟩,
        e, hskip', ?_⟩⟩
    · rw [hflags, (servfailFlags_bits _).1]
      decide
    · rw [hflags, (servfailFlags_bits _).2.1, hop]
    · rw [wordAt_servfailMessage h12 (.inr (.inl rfl)), hcount]
    · rw [wordAt_servfailMessage h12 (.inr (.inr (by omega))), htype]
    · rw [wordAt_servfailMessage h12 (.inr (.inr (by omega))), hclass]
    · rw [walkedRecords_servfailMessage h12, hlength]
      exact hrecords

end Dns

namespace FlowWorkerState

open Outcome Packet Dns

variable {first last : UInt16} {ephemeral : SessionId → Option NatBinding}
  {start state : FlowWorkerState} {p packet query answer : Bytes} {l : Layout} {f : FlowKey}
  {transaction : DnsFlowTransaction} {question : DnsQuestion}

section Payload

/-- A SERVFAIL that is built carries the edited message. -/
theorem dnsServfailTransmitToListen_payload (h : Carries p l f) (hu : f.protocol = .udp)
    (hroom : l.offset + 20 ≤ l.total) {target : IoOwnerKey} {listen : SocketAddr}
    {transmit : IoTransmit} (hok : dnsServfailTransmitToListen target p f listen = .ok transmit) :
    udpPayload transmit.packet = .ok (servfailMessage (p.slice (l.offset + 8) l.total)) := by
  rcases dnsServfailTransmitToListen_eq h hu target listen with ⟨e, he, hshort⟩ |
    ⟨q, l', -, -, -, hkeep, hlen, hcp, hbuilt⟩
  · omega
  obtain ⟨rfl, rfl⟩ := hkeep hroom
  obtain ⟨r, hr, hok⟩ := bind_eq_ok.mp (hbuilt.symm.trans hok)
  cases hok
  obtain ⟨-, hsource, hdestination⟩ := rewritePacket_families hcp hr
  obtain ⟨r', hr', hcr, -, hsame⟩ := rewritePacket_ok hcp (t := ⟨listen.ip, f.source, listen.port,
    f.sourcePort, .udp⟩) hu.symm hsource hdestination trivial
  obtain rfl : r' = r := Except.ok.inj ((Act.exec_eq_ok.mpr ⟨(), hr'⟩).symm.trans hr)
  have htot := h.layout.total_le
  rw [udpPayload_ok hcr rfl, hsame.slice hcp.layout.total_le fun i hi _ =>
      h.layout.not_translation_udp hi, Bytes.slice_patch_all (by omega) (by omega)]

/-- The payload the worker goes on with is the client's or what the clamp made of it. -/
theorem clampOf_prepared (hquery : udpPayload packet = .ok query)
    (hp : prepareForwardedPacket packet = .ok p) (hc : Carries p l f) (hu : f.protocol = .udp)
    {q : Bytes} (hq : q = p ∨ ∃ clamped, ednsClampPacket p = .ok (clamped, q)) :
    ClampOf query (q.slice (l.offset + 8) l.total) := by
  obtain ⟨l', hc', -, -, rfl⟩ := carries_of_prepare hp (parseFlowKey_eq_ok.mpr ⟨l, hc⟩)
  obtain rfl : l = l' :=
    hc.layout.unique (hc'.layout.congr hc'.layout.forwarded fun i => Layout.not_forwarding)
  cases (udpPayload_ok hc' hu).symm.trans hquery
  rw [← slice_forwarded hc'.layout]
  obtain rfl | ⟨clamped, hclamp⟩ := hq
  · exact .inl rfl
  rcases ednsClampPacket_cases hc hu with ⟨-, hrun⟩ | ⟨lowered, payload, q', hrun', hrun, -, rfl, -⟩
  · cases hrun.symm.trans hclamp
    exact .inl rfl
  · cases hrun.symm.trans hclamp
    have hrun := clampEdnsUdpPayload_clamped hrun'
    exact .inr ⟨lowered, _, hrun.1, hrun.2.1⟩

end Payload

section Paths

/-- The packet of a SERVFAIL for `transaction`. -/
def ServfailOf (transaction : DnsFlowTransaction) (answer : Bytes) : Prop :=
  ∃ flow listen transmit, parseFlowKey transaction.originalPacket = .ok flow ∧
    dnsServfailTransmitToListen transaction.localTarget transaction.originalPacket flow listen =
      .ok transmit ∧ transmit.packet = answer

theorem servfailForTransaction_servfailOf {config : DnsFlowConfig} {closed : ExpiredDnsTransaction}
    (h : servfailForTransaction transaction config = .ok closed) :
    closed.transactionId = transaction.token ∧ ServfailOf transaction closed.transmit.packet := by
  obtain ⟨flow, hflow, h⟩ := bind_eq_ok.mp h
  obtain ⟨transmit, htransmit, h⟩ := bind_eq_ok.mp h
  cases h
  exact ⟨rfl, flow, config.listen, transmit, hflow, htransmit, rfl⟩

theorem removeDnsTransaction_held {ε : Type} {e : SessionError → ε} {key : DnsFlowTransactionKey}
    {natNow : Instant} {s s' : FlowWorkerState}
    (h : (removeDnsTransaction e key natNow).run s = (.ok (some transaction), s')) :
    s.dnsByKey.get key = some transaction := by
  rw [removeDnsTransaction, Act.bind_of_ok (Act.run_get s)] at h
  cases hk : s.dnsByKey.get key with
  | none =>
    rw [hk] at h
    cases h
  | some held =>
    rw [hk] at h
    obtain ⟨_, _, -, h⟩ := Act.bind_eq_ok.mp h
    obtain ⟨_, _, -, h⟩ := Act.bind_eq_ok.mp h
    obtain ⟨_, _, -, h⟩ := Act.bind_eq_ok.mp h
    cases h
    rfl

/-- Transactions are closed with answers of their own. -/
theorem closeTransactions_answers {f : FlowWorkerStats → FlowWorkerStats} {config : DnsFlowConfig}
    {clock : ℕ → Instant} {keys : List DnsFlowTransactionKey} {s s' : FlowWorkerState}
    {answers : List ExpiredDnsTransaction} (hs : Dropped start s)
    (h : (closeTransactions f config clock keys).run s = (.ok answers, s')) :
    ∀ closed ∈ answers, ∃ key transaction, start.dnsByKey.get key = some transaction ∧
      servfailForTransaction transaction config = .ok closed := by
  induction keys generalizing s answers with
  | nil =>
    cases h
    exact fun _ hmem => absurd hmem List.not_mem_nil
  | cons key rest ih =>
    obtain ⟨removed, s₁, hremove, h⟩ := Act.bind_eq_ok.mp h
    have hs₁ : Dropped start s₁ := by
      have := removeDnsTransaction_frame (dropped_closable start) FlowWorkerError.session key
        (clock rest.length) s hs
      rwa [hremove] at this
    cases removed with
    | none => exact ih hs₁ h
    | some transaction =>
      obtain ⟨closed, s₂, hclosed, h⟩ := Act.bind_eq_ok.mp h
      rw [Act.run_lift] at hclosed
      obtain ⟨hclosed, rfl⟩ := Prod.ext_iff.mp hclosed
      obtain ⟨_, s₃, hcount, h⟩ := Act.bind_eq_ok.mp h
      cases hcount
      obtain ⟨others, s₄, hothers, h⟩ := Act.bind_eq_ok.mp h
      cases h
      intro answer hmem
      rcases List.mem_cons.mp hmem with rfl | hmem
      · exact ⟨key, transaction, hs.held key transaction (removeDnsTransaction_held hremove),
          mapErr_eq_ok.mp hclosed⟩
      · refine ih ?_ hothers answer hmem
        exact ⟨hs₁.held, hs₁.memory⟩

theorem expireDnsTransactions_answers {now : Instant} {config : DnsFlowConfig} {clock : ℕ → Instant}
    {s : FlowWorkerState} {answers : List ExpiredDnsTransaction} {closed : ExpiredDnsTransaction}
    (h : (expireDnsTransactions now config clock).run state = (.ok answers, s))
    (hmem : closed ∈ answers) : ∃ key transaction, state.dnsByKey.get key = some transaction ∧
      servfailForTransaction transaction config = .ok closed := by
  obtain ⟨_, _, hget, h⟩ := Act.bind_eq_ok.mp h
  cases hget
  obtain ⟨_, _, hmodify, h⟩ := Act.bind_eq_ok.mp h
  cases hmodify
  obtain ⟨answers, _, hclose, h⟩ := Act.bind_eq_ok.mp h
  obtain ⟨_, _, -, h⟩ := Act.bind_eq_ok.mp h
  cases h
  have hpopped : Dropped state { state with dnsDeadlines := (state.dnsDeadlines.popDue now).2 } :=
    ⟨fun _ _ h => h, rfl⟩
  exact closeTransactions_answers hpopped hclose _ hmem

theorem abortRemoteDnsTransactions_answers {config : DnsFlowConfig} {clock : ℕ → Instant}
    {s : FlowWorkerState} {answers : List ExpiredDnsTransaction} {closed : ExpiredDnsTransaction}
    (h : (abortRemoteDnsTransactions config clock).run state = (.ok answers, s))
    (hmem : closed ∈ answers) : ∃ key transaction, state.dnsByKey.get key = some transaction ∧
      servfailForTransaction transaction config = .ok closed := by
  obtain ⟨_, _, hget, h⟩ := Act.bind_eq_ok.mp h
  cases hget
  exact closeTransactions_answers (.refl state) h _ hmem

/-- The calls that end a transaction with a SERVFAIL, and the packet they send. -/
inductive EndsWithServfail (state : FlowWorkerState) : SessionId → Bytes → Prop
  | timeout {now : Instant} {config : DnsFlowConfig} {clock : ℕ → Instant} {s : FlowWorkerState}
      {answers : List ExpiredDnsTransaction} {closed : ExpiredDnsTransaction}
      (hrun : (expireDnsTransactions now config clock).run state = (.ok answers, s))
      (h : closed ∈ answers) :
      EndsWithServfail state closed.transactionId closed.transmit.packet
  | abort {binding : NatBinding} {config : DnsFlowConfig} {natNow : Instant} {s : FlowWorkerState}
      {closed : ExpiredDnsTransaction}
      (hrun : (abortDnsTransaction binding config natNow).run state = (.ok (some closed), s)) :
      EndsWithServfail state closed.transactionId closed.transmit.packet
  | abortRemote {config : DnsFlowConfig} {clock : ℕ → Instant} {s : FlowWorkerState}
      {answers : List ExpiredDnsTransaction} {closed : ExpiredDnsTransaction}
      (hrun : (abortRemoteDnsTransactions config clock).run state = (.ok answers, s))
      (h : closed ∈ answers) :
      EndsWithServfail state closed.transactionId closed.transmit.packet
  | tooLong {packet p payload : Bytes} {natNow : Instant} {s : FlowWorkerState}
      {response : HandledDnsResponse} (hp : prepareForwardedPacket packet = .ok p)
      (hpayload : udpPayload p = .ok payload) (hlong : dnsPayloadMax < payload.length)
      (hrun : (handleDnsResponse packet natNow).run state = (.ok (some response), s)) :
      EndsWithServfail state response.transactionId response.packet

/-- The SERVFAIL is that of an active transaction. -/
theorem EndsWithServfail.of_active (hl : Leased first last ephemeral state) {token : SessionId}
    (h : EndsWithServfail state token answer) : ∃ key transaction,
      state.dnsByKey.get key = some transaction ∧ transaction.token = token ∧
        ServfailOf transaction answer := by
  have hclosed : ∀ {key transaction config} {closed : ExpiredDnsTransaction},
      state.dnsByKey.get key = some transaction →
      servfailForTransaction transaction config = .ok closed → ∃ key transaction,
        state.dnsByKey.get key = some transaction ∧ transaction.token = closed.transactionId ∧
          ServfailOf transaction closed.transmit.packet := fun hk hc =>
    ⟨_, _, hk, (servfailForTransaction_servfailOf hc).1.symm,
    (servfailForTransaction_servfailOf hc).2⟩
  cases h with
  | timeout hrun hmem =>
    obtain ⟨key, transaction, hk, hc⟩ := expireDnsTransactions_answers hrun hmem
    exact hclosed hk hc
  | @abort binding config natNow _ closed hrun =>
    have hspec := abortDnsTransaction_spec hl binding config natNow state (.refl state)
    rw [hrun] at hspec
    obtain ⟨key, transaction, hk, -, -, hc⟩ := hspec
    exact hclosed hk hc
  | abortRemote hrun hmem =>
    obtain ⟨key, transaction, hk, hc⟩ := abortRemoteDnsTransactions_answers hrun hmem
    exact hclosed hk hc
  | @tooLong packet p payload natNow _ response hp hpayload hlong hrun =>
    have hspec := handleDnsResponse_spec hl packet natNow state (.refl state)
    rw [hrun] at hspec
    obtain ⟨p', payload', key, transaction, hm, -, ha⟩ := hspec
    cases hp.symm.trans hm.prepared
    cases hpayload.symm.trans hm.carried
    refine ⟨key, transaction, hm.held, ha.transactionId.symm, ?_⟩
    rcases ha.packet with ⟨hle, -⟩ | ⟨-, flow, hflow, hok⟩
    · exact absurd hle (Nat.not_le.mpr hlong)
    · exact ⟨flow, _, _, hflow, hok, rfl⟩

/-- The SERVFAILs for the query in a client's packet: the packet is refused at once, or
the transaction it opened is ended later, after any other calls. -/
inductive AnsweredByServfail (query : Bytes) : Bytes → Prop
  | refused {state s : FlowWorkerState} {ioOwner : IoOwnerKey} {packet : Bytes}
      {config : DnsFlowConfig} {now natNow : Instant} {transmit : IoTransmit}
      (hreach : state.Reachable) (hquery : udpPayload packet = .ok query)
      (hrun : (handleDnsQueryAt ioOwner packet config now natNow).run state =
        (.ok (.servfail transmit), s)) : AnsweredByServfail query transmit.packet
  | ended {state : FlowWorkerState} {ioOwner : IoOwnerKey} {packet answer : Bytes}
      {config : DnsFlowConfig} {now natNow : Instant} {key : DnsFlowTransactionKey}
      {transaction : DnsFlowTransaction} {ops : List (DnsFlowConfig × Op)}
      (hreach : state.Reachable) (hquery : udpPayload packet = .ok query)
      (hfree : state.dnsByKey.get key = none)
      (hopened :
        ((handleDnsQueryAt ioOwner packet config now natNow).run state).2.dnsByKey.get key =
          some transaction)
      (hheld : (((handleDnsQueryAt ioOwner packet config now natNow).run state).2.after
        ops).dnsByKey.get key = some transaction)
      (h : EndsWithServfail (((handleDnsQueryAt ioOwner packet config now natNow).run state).2.after
        ops) transaction.token answer) : AnsweredByServfail query answer

theorem Reachable.after (h : state.Reachable) (ops : List (DnsFlowConfig × Op)) :
    (state.after ops).Reachable := by
  obtain ⟨workerId, snatIpv4, snatIpv6, first, last, start, before, hstart, rfl⟩ := h
  exact ⟨workerId, snatIpv4, snatIpv6, first, last, start, before ++ ops, hstart,
    (List.foldl_append ..).symm⟩

theorem rewriteDnsQuery_ne_servfail {transmit : IoTransmit} :
    rewriteDnsQuery packet transaction ≠ .ok (.servfail transmit) := by
  intro h
  obtain ⟨q, -, h⟩ := bind_eq_ok.mp h
  split_ifs at h <;> cases h

/-- A query that parses has its header. -/
theorem header_of_valid {q : Bytes} (hvalid : validateQuery query = .ok question)
    (hc : Carries q l f) (hclamp : ClampOf query (q.slice (l.offset + 8) l.total)) :
    l.offset + 20 ≤ l.total := by
  obtain ⟨h12, -, -, -, e, hskip, -⟩ := validateMessage_eq_ok.mp hvalid
  have hlen := (hclamp.same hvalid hskip).1
  rw [Bytes.length_slice hc.layout.total_le] at hlen
  omega

/-- On every path the payload sent is the client's message, edited in place. -/
theorem AnsweredByServfail.payload (h : AnsweredByServfail query answer)
    (hvalid : validateQuery query = .ok question) :
    ∃ asked, ClampOf query asked ∧ udpPayload answer = .ok (servfailMessage asked) := by
  cases h with
  | @refused state s ioOwner packet config now natNow transmit hreach hquery hrun =>
    obtain ⟨first, last, hsound⟩ := hreach.sound
    obtain ⟨ephemeral, hl⟩ := hsound.leased
    have hspec := handleDnsQueryAt_spec hl ioOwner packet config now natNow state (.refl state)
    rw [hrun] at hspec
    obtain ⟨p, q, l, flow, hp, hcp, hcq, hu, -, hq, -, transmit', ht, hok⟩ |
      ⟨_, _, _, _, -, _, -, ⟨-, _, -, hserved⟩ | ⟨_, _, -, -, hserved⟩⟩ := hspec
    · cases ht
      have hclamp := clampOf_prepared hquery hp hcp hu hq
      exact ⟨_, hclamp, dnsServfailTransmitToListen_payload hcq hu
        (header_of_valid hvalid hcq hclamp) hok⟩
    · exact absurd hserved rewriteDnsQuery_ne_servfail
    · exact absurd hserved rewriteDnsQuery_ne_servfail
  | @ended state ioOwner packet answer config now natNow key transaction ops hreach hquery
      hfree hopened hheld hends =>
    obtain ⟨first, last, hsound⟩ := hreach.sound
    obtain ⟨ephemeral, hl⟩ := hsound.leased
    -- the transaction was opened for this packet
    obtain ⟨⟨hsame, -⟩, -⟩ | ⟨query', key', transaction', hopen, hadded, -⟩ :=
      handleDnsQueryAt_opened hl ioOwner packet config now natNow
    · rw [hsame, hfree] at hopened
      cases hopened
    rw [hadded.dnsByKey, HashMap.get_insert] at hopened
    split_ifs at hopened with hkey
    swap
    · rw [hfree] at hopened
      cases hopened
    cases hopened
    -- and it is the one that is ended
    have hreach' : (((handleDnsQueryAt ioOwner packet config now natNow).run state).2.after
        ops).Reachable :=
      hreach.after ((config, .handleDnsQueryAt ioOwner packet now natNow) :: ops)
    obtain ⟨first', last', hsound'⟩ := hreach'.sound
    obtain ⟨ephemeral', hl'⟩ := hsound'.leased
    obtain ⟨key'', transaction'', hk'', htoken, flow, listen, transmit, hflow, hok, rfl⟩ :=
      hends.of_active hl'
    cases hl'.tokens _ _ _ _ hk'' hheld htoken
    cases hheld.symm.trans hk''
    obtain ⟨p, hp, hcp, hclamped⟩ := hopen.admitted.prepared
    have hclamp := clampOf_prepared hquery hp hcp hopen.admitted.udp (.inr ⟨_, hclamped⟩)
    have hcq := hopen.admitted.carries
    obtain ⟨remote, token, binding, rfl⟩ := hopen.made
    cases (parseFlowKey_eq_ok.mpr ⟨_, hcq⟩).symm.trans hflow
    exact ⟨_, hclamp, dnsServfailTransmitToListen_payload hcq hopen.admitted.udp
      (header_of_valid hvalid hcq hclamp) hok⟩

/-- A client that applies the program's own check takes the packet for a SERVFAIL. -/
def Accepts (query answer : Bytes) : Prop :=
  ∃ payload, udpPayload answer = .ok payload ∧ responseMatchesQuery query payload = .ok () ∧
    payload.wordAt 2 &&& 0x000f = 2 ∧
    ∃ e, skipName payload 12 = .ok e ∧
      skipResourceRecords payload (walkedRecords payload) (e + 4) = .ok payload.length

/-- A SERVFAIL for a valid query is accepted exactly if the query has no records and its
name reads the same in the edited message, as a name does that reads neither byte of the
flags. -/
theorem servfail_accepted_iff (hvalid : validateQuery query = .ok question)
    (h : AnsweredByServfail query answer) :
    (Accepts query answer ↔ walkedRecords query = 0 ∧
      parseName (servfailMessage query) 12 = parseName query 12 ∧
      skipName (servfailMessage query) 12 = skipName query 12) ∧
    (walkedRecords query = 0 → (∀ i, NameReads query 12 i → i ≠ 2 ∧ i ≠ 3) →
      Accepts query answer) := by
  obtain ⟨asked, hclamp, hpayload⟩ := h.payload hvalid
  suffices hiff : Accepts query answer ↔ _ from
    ⟨hiff, fun hnone hname => hiff.mpr ⟨hnone, servfailMessage_reads hvalid hnone hname⟩⟩
  rw [← servfailMessage_matches_iff hvalid hclamp]
  constructor
  · rintro ⟨payload, hpayload', hmatch, -⟩
    cases hpayload.symm.trans hpayload'
    exact hmatch
  · intro hmatch
    obtain ⟨-, _, -, hresponse⟩ := responseMatchesQuery_eq_ok.mp hmatch
    obtain ⟨h12, -, -, -, e, hskip, hend⟩ := validateMessage_eq_ok.mp hresponse
    refine ⟨_, hpayload, hmatch, ?_, e, hskip, hend⟩
    obtain ⟨h12', -, -, -, e', hskip', -⟩ := validateMessage_eq_ok.mp hvalid
    have hlen := (hclamp.same hvalid hskip').1
    rw [servfailMessage_flags (by omega), (servfailFlags_bits _).2.2]

/-- What a worker without room for a transaction makes of a query. -/
def refuse (packet : Bytes) : Outcome FlowWorkerError HandledDnsQuery × FlowWorkerState :=
  (handleDnsQueryAt ⟨0, 0⟩ packet ⟨⟨.v4 (dotted 192 0 2 1), 53⟩, ⟨.v4 (dotted 192 0 2 53), 53⟩,
    ⟨.v4 (dotted 9 9 9 9), 53⟩, ⟨.empty⟩, 0, 5, true⟩ 0 0).run askedWorker

theorem refuse_answers (hquery : udpPayload packet = .ok query)
    (hrun : (refuse packet).1 = .ok (.servfail ⟨⟨0, 0⟩, answer, none⟩)) :
    AnsweredByServfail query answer :=
  .refused askedWorker_reachable hquery (Prod.ext hrun rfl)

/-- A query for `b.` without records. -/
def bareQuery : Bytes :=
  [0x45, 0, 0, 47, 0, 1, 0, 0, 64, 17, 246, 178, 192, 0, 2, 9, 192, 0, 2, 1,
    0x9c, 0x40, 0, 53, 0, 27, 0, 0,
    0x12, 0x34, 1, 0, 0, 1, 0, 0, 0, 0, 0, 0, 1, 98, 0, 0, 1, 0, 1]

theorem bareQuery_servfail : ∃ answer, validateQuery (bareQuery.drop 28) = .ok ⟨[98], 1, 1⟩ ∧
    AnsweredByServfail (bareQuery.drop 28) answer ∧ Accepts (bareQuery.drop 28) answer := by
  have hquery : udpPayload bareQuery = .ok (bareQuery.drop 28) := by decide +kernel
  have hvalid : validateQuery (bareQuery.drop 28) = .ok ⟨[98], 1, 1⟩ := by decide +kernel
  have hanswer : AnsweredByServfail (bareQuery.drop 28)
      ([69, 0, 0, 47, 0, 1, 0, 0, 63, 17, 247, 178, 192, 0, 2, 1, 192, 0, 2, 9,
        0, 53, 156, 64, 0, 27, 0, 0] ++ servfailMessage (bareQuery.drop 28)) :=
    refuse_answers hquery (by decide +kernel)
  refine ⟨_, hvalid, hanswer, (servfail_accepted_iff hvalid hanswer).2 (by decide +kernel)
    fun i hi => ?_⟩
  have hle := (NameEnds.label (by decide) (by decide) (by decide)
    (.root (by decide) (by decide))).reads_ge hi
  omega

/-- A query for `b.` with an OPT record. -/
def optQuery : Bytes :=
  [0x45, 0, 0, 58, 0, 1, 0, 0, 64, 17, 246, 167, 192, 0, 2, 9, 192, 0, 2, 1,
    0x9c, 0x40, 0, 53, 0, 38, 0, 0,
    0x12, 0x34, 1, 0, 0, 1, 0, 0, 0, 0, 0, 1, 1, 98, 0, 0, 1, 0, 1,
    0, 0, 41, 4, 0xd0, 0, 0, 0, 0, 0, 0]

/-- The record is left behind the question, and no count accounts for it. -/
theorem optQuery_servfail : ∃ answer payload,
    validateQuery (optQuery.drop 28) = .ok ⟨[98], 1, 1⟩ ∧
    AnsweredByServfail (optQuery.drop 28) answer ∧ udpPayload answer = .ok payload ∧
    responseMatchesQuery (optQuery.drop 28) payload = fail .responseMismatch ∧
    ¬ Accepts (optQuery.drop 28) answer := by
  have hquery : udpPayload optQuery = .ok (optQuery.drop 28) := by decide +kernel
  have hvalid : validateQuery (optQuery.drop 28) = .ok ⟨[98], 1, 1⟩ := by decide +kernel
  let answer : Bytes := [69, 0, 0, 58, 0, 1, 0, 0, 63, 17, 247, 167, 192, 0, 2, 1, 192, 0, 2, 9,
    0, 53, 156, 64, 0, 38, 0, 0] ++ servfailMessage (optQuery.drop 28)
  have hanswer : AnsweredByServfail (optQuery.drop 28) answer :=
    refuse_answers hquery (by decide +kernel)
  have hpayload : udpPayload answer = .ok (servfailMessage (optQuery.drop 28)) := by decide +kernel
  have hmismatch : responseMatchesQuery (optQuery.drop 28) (servfailMessage (optQuery.drop 28)) =
      fail .responseMismatch := by decide +kernel
  refine ⟨answer, _, hvalid, hanswer, hpayload, hmismatch, ?_⟩
  rintro ⟨payload, hpayload', hmatch, -⟩
  cases hpayload.symm.trans hpayload'
  cases hmismatch.symm.trans hmatch

end Paths

end FlowWorkerState

end NewProxy
