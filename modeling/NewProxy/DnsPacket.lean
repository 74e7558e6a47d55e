import NewProxy.PacketSafety
import NewProxy.Triple
import NewProxy.Worker

/-!
# DNS messages inside packets

The message readers cannot panic. A UDP packet keeps its flow and its layout when
its payload is padded, clamped or turned into a SERVFAIL, so that the answer to a
query can be built whenever the listener is of the family of the query.
-/
namespace NewProxy

namespace Dns

open Outcome

theorem normalizeLabel_ne_panic (label : Bytes) : normalizeLabel label ≠ panic :=
  bind_ne_panic ensure_ne_panic fun _ _ => pure_ne_panic _

theorem parseNameFrom_ne_panic (payload : Bytes) (rounds offset : ℕ) (labels : List Bytes)
    (next : Option ℕ) (seen : List ℕ) :
    parseNameFrom payload rounds offset labels next seen ≠ panic := by
  induction rounds generalizing offset labels next seen with
  | zero => exact fail_ne_panic _
  | succ rounds ih =>
    rw [parseNameFrom]
    refine ite_ne_panic (fun _ => fail_ne_panic _) fun _ => ?_
    refine bind_ne_panic okOr_ne_panic fun length _ => ?_
    refine ite_ne_panic (fun _ => ?_) fun _ => ite_ne_panic (fun _ => fail_ne_panic _) fun _ =>
      ite_ne_panic (fun _ => ?_) fun _ => ?_
    · exact bind_ne_panic okOr_ne_panic fun _ _ => bind_ne_panic ensure_ne_panic fun _ _ =>
        ih _ _ _ _
    · exact bind_ne_panic ensure_ne_panic fun _ _ => pure_ne_panic _
    · exact bind_ne_panic okOr_ne_panic fun _ _ =>
        bind_ne_panic (normalizeLabel_ne_panic _) fun _ _ => ih _ _ _ _

/-- The index behind the checked one is the one that was checked. -/
theorem validateNamePointer_ne_panic (payload : Bytes) (offset start : ℕ) :
    validateNamePointer payload offset start ≠ panic := by
  refine bind_ne_panic okOr_ne_panic fun next hnext => ?_
  have hlt : offset + 1 < payload.length :=
    (List.getElem?_eq_some_iff.mp (okOr_eq_ok.mp hnext)).1
  refine bind_ne_panic (Bytes.index_ne_panic (by omega)) fun _ _ => ?_
  exact bind_ne_panic ensure_ne_panic fun _ _ =>
    bind_ne_panic (parseNameFrom_ne_panic _ _ _ _ _ _) fun _ _ => pure_ne_panic _

theorem skipNameFrom_ne_panic (payload : Bytes) (start rounds offset : ℕ) :
    skipNameFrom payload start rounds offset ≠ panic := by
  induction rounds generalizing offset with
  | zero => exact fail_ne_panic _
  | succ rounds ih =>
    refine bind_ne_panic okOr_ne_panic fun length _ => ?_
    refine ite_ne_panic (fun _ => ?_) fun _ => ite_ne_panic (fun _ => fail_ne_panic _) fun _ =>
      ite_ne_panic (fun _ => pure_ne_panic _) fun _ => ?_
    · exact bind_ne_panic (validateNamePointer_ne_panic _ _ _) fun _ _ => pure_ne_panic _
    · exact bind_ne_panic ensure_ne_panic fun _ _ => ih _

theorem skipResourceRecords_ne_panic (payload : Bytes) (count offset : ℕ) :
    skipResourceRecords payload count offset ≠ panic := by
  induction count generalizing offset with
  | zero => exact ok_ne_panic _
  | succ count ih =>
    refine bind_ne_panic ?_ fun _ _ => ih _
    exact bind_ne_panic (skipNameFrom_ne_panic _ _ _ _) fun _ _ =>
      bind_ne_panic okOr_ne_panic fun _ _ => bind_ne_panic ensure_ne_panic fun _ _ =>
        pure_ne_panic _

theorem skipQuestions_ne_panic (payload : Bytes) (count offset : ℕ) :
    skipQuestions payload count offset ≠ panic := by
  induction count generalizing offset with
  | zero => exact ok_ne_panic _
  | succ count ih =>
    exact bind_ne_panic (skipNameFrom_ne_panic _ _ _ _) fun _ _ =>
      bind_ne_panic ensure_ne_panic fun _ _ => ih _

theorem parseQuestionFields_ne_panic (payload : Bytes) : parseQuestionFields payload ≠ panic :=
  bind_ne_panic okOr_ne_panic fun _ _ => bind_ne_panic ensure_ne_panic fun _ _ =>
    bind_ne_panic (parseNameFrom_ne_panic _ _ _ _ _ _) fun _ _ =>
      bind_ne_panic okOr_ne_panic fun _ _ => pure_ne_panic _

theorem parseQuestion_ne_panic (payload : Bytes) : parseQuestion payload ≠ panic :=
  bind_ne_panic okOr_ne_panic fun _ _ => bind_ne_panic ensure_ne_panic fun _ _ =>
    bind_ne_panic ensure_ne_panic fun _ _ => parseQuestionFields_ne_panic payload

theorem validateMessage_ne_panic (payload : Bytes) (response : Bool) :
    validateMessage payload response ≠ panic :=
  bind_ne_panic okOr_ne_panic fun _ _ => bind_ne_panic ensure_ne_panic fun _ _ =>
    bind_ne_panic ensure_ne_panic fun _ _ =>
      bind_ne_panic (parseQuestionFields_ne_panic payload) fun _ _ =>
        bind_ne_panic (skipNameFrom_ne_panic _ _ _ _) fun _ _ =>
          bind_ne_panic (skipResourceRecords_ne_panic _ _ _) fun _ _ =>
            bind_ne_panic ensure_ne_panic fun _ _ => pure_ne_panic _

/-- A message that passes has its header. -/
theorem length_of_validateMessage {payload : Bytes} {response : Bool} {question : DnsQuestion}
    (h : validateMessage payload response = .ok question) : 12 ≤ payload.length := by
  obtain ⟨header, hh, -⟩ := Outcome.bind_eq_ok.mp h
  exact (Bytes.getRange_eq_some.mp (okOr_eq_ok.mp hh)).1.2

theorem length_of_parseQuestion {payload : Bytes} {question : DnsQuestion}
    (h : parseQuestion payload = .ok question) : 12 ≤ payload.length := by
  obtain ⟨header, hh, -⟩ := Outcome.bind_eq_ok.mp h
  exact (Bytes.getRange_eq_some.mp (okOr_eq_ok.mp hh)).1.2

variable {ε : Type}

theorem classifyQuery_ok (payload : Bytes) (rules : RemoteDomainRules) :
    ∃ route, (classifyQuery payload rules : Outcome ε DnsRoute) = .ok route := by
  rw [classifyQuery, validateQuery]
  rcases hv : validateMessage payload false with (e | _) | question
  · exact ⟨.localFallback, rfl⟩
  · exact absurd hv (validateMessage_ne_panic payload false)
  · simp only [attempt, bind_ok]
    split_ifs
    · exact ⟨.remote question, rfl⟩
    · exact ⟨.local question, rfl⟩

/-- A validated query has an identifier, so the one that is expected is there. -/
theorem transactionKey_ok (client : SocketAddr) (payload : Bytes) :
    ∃ key, (transactionKey client payload : Outcome ε DnsTransactionKey) = .ok key := by
  rw [transactionKey, validateQuery]
  rcases hv : validateMessage payload false with (e | _) | question
  · exact ⟨.opaqueQuery client (dnsId payload) (fnv1a payload), rfl⟩
  · exact absurd hv (validateMessage_ne_panic payload false)
  · have hlen := length_of_validateMessage hv
    have hid : dnsId payload = some ((payload.slice 0 2).wordAt 0) := by
      rw [dnsId, Bytes.getRange_some (Nat.zero_le 2) (by omega), Option.map_some]
    refine ⟨.question client ((payload.slice 0 2).wordAt 0) question.qname question.qtype
      question.qclass, ?_⟩
    simp only [attempt, bind_ok, hid, expect]
    rfl

theorem responseMatchesQuery_ne_panic (query response : Bytes) :
    responseMatchesQuery query response ≠ panic := by
  refine bind_ne_panic okOr_ne_panic fun _ _ => bind_ne_panic okOr_ne_panic fun _ _ =>
    bind_ne_panic ensure_ne_panic fun _ _ => bind_ne_panic okOr_ne_panic fun _ _ =>
      bind_ne_panic ensure_ne_panic fun _ _ => ?_
  refine bind_ne_panic (mapErr_eq_panic.not.mpr (parseQuestion_ne_panic query)) fun _ _ => ?_
  exact bind_ne_panic (mapErr_eq_panic.not.mpr (validateMessage_ne_panic response true))
    fun _ _ => ensure_ne_panic

/-- The walk writes inside the record it has just read, so it keeps the length. -/
theorem clampAdditional_length (n count offset : ℕ) (clamped : Bool) :
    Act.Triple (fun payload : Bytes => payload.length = n) (clampAdditional count offset clamped)
      (fun _ payload => payload.length = n) (fun payload => payload.length = n) := by
  induction count generalizing offset clamped with
  | zero => exact .pure fun _ h => h
  | succ count ih =>
    refine .get fun payload hn => ?_
    refine .bind (.call (Q := fun _ p => p = payload) (skipNameFrom_ne_panic _ _ _ _)
      (fun _ h => h ▸ hn) fun _ _ _ h => h) fun start => ?_
    refine .bind (.call (Q := fun rr p => p = payload ∧ start + 10 ≤ payload.length)
      okOr_ne_panic (fun _ h => h ▸ hn)
      fun rr p hrr h => ⟨h, (Bytes.getRange_eq_some.mp (okOr_eq_ok.mp hrr)).1.2⟩) fun rr => ?_
    refine .bind (Q := fun _ p => p.length = n) ?_ fun _ => ?_
    · refine .ite (fun _ => ?_) fun _ => .pure fun p h => h.1 ▸ hn
      rintro p ⟨rfl, hroom⟩
      have hw : start + 2 + (be16Bytes (.ofNat dnsPayloadMax)).length ≤ p.length := by
        rw [length_be16Bytes]
        omega
      rw [Bytes.run_put hw]
      exact (Bytes.length_patch hw).trans hn
    · exact .bind (.call ensure_ne_panic (fun _ h => h) fun _ _ _ h => h) fun _ => ih _ _

theorem clampEdnsUdpPayload_length (n : ℕ) :
    Act.Triple (fun payload : Bytes => payload.length = n) clampEdnsUdpPayload
      (fun _ payload => payload.length = n) (fun payload => payload.length = n) := by
  refine .get fun payload hn => ?_
  have hcall : ∀ {α : Type} {o : Outcome DnsError α}, o ≠ panic →
      Act.Triple (fun p : Bytes => p = payload) (Act.call o) (fun _ p => p = payload)
        fun p => p.length = n := fun ho => .call ho (fun _ h => h ▸ hn) fun _ _ _ h => h
  refine .bind (hcall okOr_ne_panic) fun header => ?_
  refine .bind (hcall (skipQuestions_ne_panic _ _ _)) fun _ => ?_
  refine .bind (hcall (skipResourceRecords_ne_panic _ _ _)) fun offset => ?_
  refine .bind (.pre (fun _ h => h ▸ hn) (clampAdditional_length n _ _ _)) fun _ => ?_
  exact .bind (.call ensure_ne_panic (fun _ h => h) fun _ _ _ h => h) fun _ => .pure fun _ h => h

end Dns

namespace Packet

open Outcome

variable {p q : Bytes} {l : Layout} {f : FlowKey}

theorem udpPayloadRange_ok (h : Carries p l f) (hu : f.protocol = .udp) :
    udpPayloadRange p = .ok (l.offset + 8, l.total) := by
  have hle := h.fields_le.2.2.2
  have hproto : l.protocol = ipProtocolUdp := by rw [h.protocol, hu]; rfl
  rw [udpPayloadRange, h.layout.transportMetadata, bind_ok]
  simp only [hproto, ensure, if_true, bind_ok, validateUdpLayout_ok h hu]
  rw [Nat.add_sub_cancel' h.layout.offset_le]
  rfl

theorem udpPayload_ok (h : Carries p l f) (hu : f.protocol = .udp) :
    udpPayload p = .ok (p.slice (l.offset + 8) l.total) := by
  rw [udpPayload, udpPayloadRange_ok h hu, bind_ok]
  exact Bytes.range_ok h.fields_le.2.2.2 h.layout.total_le

/-- A translation leaves the payload of a datagram alone. -/
theorem Layout.Of.not_translation_udp (h : l.Of p) {i : ℕ} (hi : l.offset + 8 ≤ i) :
    ¬ l.Translation .udp i := by
  have hpos := h.length_pos
  simp only [Layout.Translation, Layout.HeaderSum, Layout.Address, Layout.Ports,
    Layout.TransportSum, TransportProtocol.sourceField, TransportProtocol.destinationField,
    TransportProtocol.checksumField]
  split_ifs with hv
  · omega
  · have h40 := hpos.2 (by simpa using hv)
    omega

/-- A payload may be replaced by one of its length. -/
theorem Carries.withPayload (h : Carries p l f) (hu : f.protocol = .udp) {bs : Bytes}
    (hbs : bs.length = l.total - (l.offset + 8)) :
    Carries (p.patch (l.offset + 8) bs) l f := by
  have hle := h.fields_le.2.2.2
  have htot := h.layout.total_le
  have hpos := h.layout.length_pos
  refine h.keep (Bytes.SameExcept.patch (T := fun i => l.offset + 8 ≤ i) (by omega)
    fun i h0 _ => h0) fun i hi => ?_
  simp only [Layout.Reads, ShapeReads, Layout.Address, Layout.Ports, hu,
    TransportProtocol.sourceField, TransportProtocol.destinationField] at hi
  split_ifs at hi with hv
  · omega
  · have h40 := hpos.2 (by simpa using hv)
    omega

/-- A packet that grew at its end, with its two length fields adjusted. -/
theorem Carries.grown (h : Carries p l f) (hu : f.protocol = .udp) {m : ℕ}
    (hlen : q.length = l.total + m)
    (hbyte : ∀ i, i < l.offset + 4 → ¬ (if l.isV4 then i = 2 ∨ i = 3 else i = 4 ∨ i = 5) →
      q.byteAt i = p.byteAt i)
    (hudp : (q.wordAt (l.offset + 4)).toNat = l.total - l.offset + m)
    (htotal : (q.wordAt (if l.isV4 then 2 else 4)).toNat + (if l.isV4 then 0 else 40) =
      l.total + m) : Carries q { l with total := l.total + m } f := by
  have hle := h.fields_le.2.2.2
  have hpos := h.layout.length_pos
  have hoff := h.layout.offset_le
  have hsrc := h.sourcePort
  have hdst := h.destinationPort
  simp only [hu, TransportProtocol.sourceField, TransportProtocol.destinationField] at hsrc hdst
  have hports : q.wordAt (l.offset + 0) = f.sourcePort ∧ q.wordAt (l.offset + 2) =
      f.destinationPort := by
    rw [← hsrc, ← hdst]
    cases hv : l.isV4 with
    | true =>
      simp only [hv, if_true] at hbyte
      exact ⟨Bytes.wordAt_congr (hbyte _ (by omega) (by omega)) (hbyte _ (by omega) (by omega)),
        Bytes.wordAt_congr (hbyte _ (by omega) (by omega)) (hbyte _ (by omega) (by omega))⟩
    | false =>
      have h40 := hpos.2 hv
      simp only [hv, Bool.false_eq_true, if_false] at hbyte
      exact ⟨Bytes.wordAt_congr (hbyte _ (by omega) (by omega)) (hbyte _ (by omega) (by omega)),
        Bytes.wordAt_congr (hbyte _ (by omega) (by omega)) (hbyte _ (by omega) (by omega))⟩
  have haddr : l.source q = l.source p ∧ l.destination q = l.destination p := by
    simp only [Layout.source, Layout.destination]
    split_ifs at hbyte ⊢ with hv
    · rw [Bytes.octetsAt_congr (fun i h0 h1 => hbyte i (by omega) (by omega)),
        Bytes.octetsAt_congr (fun i h0 h1 => hbyte i (by omega) (by omega))]
      exact ⟨rfl, rfl⟩
    · have h40 := hpos.2 (by simpa using hv)
      rw [Bytes.octetsAt_congr (fun i h0 h1 => hbyte i (by omega) (by omega)),
        Bytes.octetsAt_congr (fun i h0 h1 => hbyte i (by omega) (by omega))]
      exact ⟨rfl, rfl⟩
  refine ⟨⟨?_, by dsimp only; omega, by dsimp only; omega, fun hv => ?_, fun hv => ?_⟩,
    h.protocol, ?_, h.allowed, ?_, ?_, ?_, ?_⟩
  · rw [hbyte 0 (by omega) (by split_ifs <;> simp)]
    exact h.layout.version
  · dsimp only at hv ⊢
    obtain ⟨h20, hhead, -, hfrag, hnum⟩ := h.layout.ipv4 hv
    simp only [hv, if_true] at hbyte htotal
    rw [hbyte 0 (by omega) (by omega), hbyte 9 (by omega) (by omega),
      Bytes.wordAt_congr (hbyte 6 (by omega) (by omega)) (hbyte 7 (by omega) (by omega))]
    exact ⟨h20, hhead, by omega, hfrag, hnum⟩
  · dsimp only at hv ⊢
    obtain ⟨h40, -, hwalk⟩ := h.layout.ipv6 hv
    simp only [hv, Bool.false_eq_true, if_false] at hbyte htotal
    rw [hbyte 6 (by omega) (by omega)]
    -- the extension headers lie before the transport header and are kept
    exact ⟨h40, by omega, ipv6TransportOffset_congr (by omega) (by omega)
      (fun i h0 h1 => hbyte i (by omega) (by omega)) hwalk⟩
  · simp only [hu, Shape]
    omega
  · rw [← h.source]
    exact haddr.1
  · rw [← h.destination]
    exact haddr.2
  · rw [hu]
    exact hports.1
  · rw [hu]
    exact hports.2

theorem length_resize (p : Bytes) (n : ℕ) : (resize p n).length = n := by
  simp only [resize, List.length_append, List.length_take, List.length_replicate]
  omega

theorem byteAt_resize (htot : l.total ≤ p.length) {m i : ℕ} (hi : i < l.total) :
    Bytes.byteAt (resize p (l.total + m)) i = p.byteAt i := by
  have hlt : i < (p.take (l.total + m)).length := by
    rw [List.length_take]
    omega
  simp only [resize, Bytes.byteAt, List.getElem?_append_left hlt, List.getElem?_take,
    show i < l.total + m by omega, if_true]

/-- Writing both length fields of a packet that was resized. -/
theorem Carries.padded (h : Carries p l f) (hu : f.protocol = .udp) {m : ℕ}
    (hudp : l.total - l.offset + m < 65536)
    (hip : l.total + m - (if l.isV4 then 0 else 40) < 65536) :
    Carries (((resize p (l.total + m)).patch (l.offset + 4)
        (be16Bytes (.ofNat (l.total - l.offset + m)))).patch (if l.isV4 then 2 else 4)
          (be16Bytes (.ofNat (l.total + m - (if l.isV4 then 0 else 40)))))
      { l with total := l.total + m } f := by
  have hle := h.fields_le.2.2.2
  have htot := h.layout.total_le
  have hpos := h.layout.length_pos
  have hr : (resize p (l.total + m)).length = l.total + m := length_resize p _
  have hfield : (if l.isV4 then 2 else 4) + 2 ≤ l.offset := by
    cases hv : l.isV4 with
    | true => simp only [if_true]; omega
    | false =>
      have h40 := hpos.2 hv
      simp only [Bool.false_eq_true, if_false]
      omega
  have hw1 : l.offset + 4 + (be16Bytes (.ofNat (l.total - l.offset + m))).length ≤
      (resize p (l.total + m)).length := by
    rw [length_be16Bytes, hr]
    omega
  have hl1 := Bytes.length_patch hw1
  have hw2 : (if l.isV4 then 2 else 4) +
      (be16Bytes (.ofNat (l.total + m - (if l.isV4 then 0 else 40)))).length ≤
      ((resize p (l.total + m)).patch (l.offset + 4)
        (be16Bytes (.ofNat (l.total - l.offset + m)))).length := by
    rw [length_be16Bytes, hl1, hr]
    omega
  refine h.grown hu ((Bytes.length_patch hw2).trans (hl1.trans hr)) (fun i hi hne => ?_) ?_ ?_
  · rw [Bytes.byteAt_patch_of_disjoint hw2 (by rw [length_be16Bytes]; split_ifs at hne ⊢ <;> omega),
      Bytes.byteAt_patch_of_disjoint hw1 (by omega), byteAt_resize htot (by omega)]
  · rw [Bytes.wordAt_congr (Bytes.byteAt_patch_of_disjoint hw2 (by rw [length_be16Bytes]; omega))
      (Bytes.byteAt_patch_of_disjoint hw2 (by rw [length_be16Bytes]; omega)),
      Bytes.wordAt_patch _ (by rw [hr]; omega), UInt16.toNat_ofNat_of_lt' hudp]
  · rw [Bytes.wordAt_patch _ (by rw [hl1, hr]; omega), UInt16.toNat_ofNat_of_lt' hip]
    split_ifs with hv
    · omega
    · have h40 := hpos.2 (by simpa using hv)
      omega

/-- Padding is refused or leaves a packet of the flow with room for `n` bytes. -/
theorem ensureUdpPayloadLen_cases (h : Carries p l f) (hu : f.protocol = .udp) (n : ℕ) :
    (∃ e, ensureUdpPayloadLen p n = fail e ∧ l.total < l.offset + 8 + n) ∨
    ∃ q l', ensureUdpPayloadLen p n = .ok q ∧ Carries q l' f ∧ l'.isV4 = l.isV4 ∧
      l'.offset + 8 + n ≤ l'.total ∧ (l.offset + 8 + n ≤ l.total → q = p ∧ l' = l) := by
  have hle := h.fields_le.2.2.2
  have htot := h.layout.total_le
  have hpos := h.layout.length_pos
  have hver := h.layout.version
  have hproto : l.protocol = ipProtocolUdp := by rw [h.protocol, hu]; rfl
  rw [ensureUdpPayloadLen, h.layout.transportMetadata, bind_ok]
  simp only [hproto, ensure, if_true, bind_ok, validateUdpLayout_ok h hu]
  by_cases hroom : n ≤ l.total - l.offset - 8
  · rw [if_pos hroom]
    exact .inr ⟨p, l, rfl, h, rfl, by omega, fun _ => ⟨rfl, rfl⟩⟩
  rw [if_neg hroom]
  let m := n - (l.total - l.offset - 8)
  have hm : n = l.total - l.offset - 8 + m := by omega
  by_cases hudp : l.total - l.offset + m < 65536
  swap
  · exact .inl ⟨.invalidIpLength, by rw [if_neg hudp]; rfl, by omega⟩
  rw [if_pos hudp, bind_ok]
  have hr : (resize p (l.total + m)).length = l.total + m := length_resize p _
  have hw1 : l.offset + 4 + (be16Bytes (.ofNat (l.total - l.offset + m))).length ≤
      (resize p (l.total + m)).length := by
    rw [length_be16Bytes, hr]
    omega
  have hl1 := Bytes.length_patch hw1
  have hfirst : Bytes.byteAt ((resize p (l.total + m)).patch (l.offset + 4)
      (be16Bytes (.ofNat (l.total - l.offset + m)))) 0 = p.byteAt 0 := by
    rw [Bytes.byteAt_patch_of_disjoint hw1 (by omega), byteAt_resize htot (by omega)]
  rw [Bytes.write_ok hw1, bind_ok, Bytes.index_ok (by rw [hl1, hr]; omega), bind_ok, hfirst, hver]
  have hpad := h.padded hu hudp
  cases hv : l.isV4 with
  | true =>
    simp only [hv, if_true, Nat.sub_zero] at hpad ⊢
    by_cases hip : l.total + m < 65536
    · rw [if_pos hip, bind_ok, Bytes.write_ok (by rw [length_be16Bytes, hl1, hr]; omega)]
      exact .inr ⟨_, _, rfl, hpad hip, rfl, by dsimp only; omega, fun hc => by omega⟩
    · exact .inl ⟨.invalidIpLength, by rw [if_neg hip]; rfl, by omega⟩
  | false =>
    have h40 := hpos.2 hv
    simp only [hv, Bool.false_eq_true, if_false] at hpad ⊢
    rw [if_neg (by decide), if_pos trivial]
    have hsum : l.total + m - 40 = l.total - 40 + m := by omega
    rw [hsum] at hpad
    by_cases hip : l.total - 40 + m < 65536
    · rw [if_pos ⟨by omega, hip⟩, bind_ok,
        Bytes.write_ok (by rw [length_be16Bytes, hl1, hr]; omega)]
      exact .inr ⟨_, _, rfl, hpad hip, rfl, by dsimp only; omega, fun hc => by omega⟩
    · exact .inl ⟨.invalidIpLength, by rw [if_neg (fun hc => hip hc.2)]; rfl, by omega⟩

end Packet

/-- The payload of a SERVFAIL for `message`. -/
def Dns.servfailMessage (message : Bytes) : Bytes :=
  (message.patch 2 (be16Bytes (FlowWorkerState.servfailFlags (message.wordAt 2)))).patch 6
    [0, 0, 0, 0, 0, 0]

namespace FlowWorkerState

open Outcome Packet Dns

variable {p : Bytes} {l : Layout} {f : FlowKey}

/-- `packet` is the listener's SERVFAIL to `query`: it goes back to the client, keeps
the message id, and has QR set, RCODE 2 and no records behind the question. -/
def IsServfail (listen : SocketAddr) (query packet : Bytes) : Prop :=
  ∃ flow question answer, parseFlowKey query = .ok flow ∧ udpPayload query = .ok question ∧
    parseFlowKey packet = .ok ⟨listen.ip, flow.source, listen.port, flow.sourcePort, .udp⟩ ∧
    udpPayload packet = .ok answer ∧ answer.wordAt 0 = question.wordAt 0 ∧
    answer.wordAt 2 &&& 0x800f = 0x8002 ∧ answer.slice 6 12 = [0, 0, 0, 0, 0, 0]

theorem servfailFlags_and (flags : UInt16) : servfailFlags flags &&& 0x800f = 0x8002 := by
  apply UInt16.toBitVec_inj.mp
  ext i hi
  simp only [servfailFlags, UInt16.toBitVec_and, UInt16.toBitVec_or, UInt16.toBitVec_not,
    BitVec.getElem_and, BitVec.getElem_or]
  interval_cases i <;> simp

/-- Flags and record counts are written inside the header. -/
theorem servfail_payload (query : Bytes) (flags : UInt16) (h : 12 ≤ query.length) :
    query.write (ε := PacketError) 2 (be16Bytes flags) = .ok (query.patch 2 (be16Bytes flags)) ∧
    (query.patch 2 (be16Bytes flags)).write (ε := PacketError) 6 [0, 0, 0, 0, 0, 0] =
      .ok ((query.patch 2 (be16Bytes flags)).patch 6 [0, 0, 0, 0, 0, 0]) ∧
    let answer := (query.patch 2 (be16Bytes flags)).patch 6 [0, 0, 0, 0, 0, 0]
    answer.length = query.length ∧ answer.wordAt 0 = query.wordAt 0 ∧
      answer.wordAt 2 = flags ∧ answer.slice 6 12 = [0, 0, 0, 0, 0, 0] := by
  have hw1 : 2 + (be16Bytes flags).length ≤ query.length := by
    rw [length_be16Bytes]
    omega
  have hl1 := Bytes.length_patch hw1
  have hw2 : 6 + [(0 : UInt8), 0, 0, 0, 0, 0].length ≤
      (query.patch 2 (be16Bytes flags)).length := by
    rw [hl1]
    exact h
  have hl2 := Bytes.length_patch hw2
  have hsame : ∀ i, i < 6 →
      ((query.patch 2 (be16Bytes flags)).patch 6 [0, 0, 0, 0, 0, 0]).byteAt i =
        (query.patch 2 (be16Bytes flags)).byteAt i :=
    fun i hi => Bytes.byteAt_patch_of_disjoint hw2 (by omega)
  refine ⟨Bytes.write_ok hw1, Bytes.write_ok hw2, hl2.trans hl1, ?_, ?_, ?_⟩
  · exact Bytes.wordAt_congr
      ((hsame 0 (by omega)).trans (Bytes.byteAt_patch_of_disjoint hw1 (by omega)))
      ((hsame 1 (by omega)).trans (Bytes.byteAt_patch_of_disjoint hw1 (by omega)))
  · rw [Bytes.wordAt_congr (hsame 2 (by omega)) (hsame 3 (by omega))]
    exact Bytes.wordAt_patch flags (by omega)
  · apply Bytes.ext_byteAt
    · rw [Bytes.length_slice (by omega)]
      rfl
    · intro i hi
      rw [Bytes.length_slice (by omega)] at hi
      rw [Bytes.byteAt_slice (by omega), Bytes.byteAt_patch hw2, if_pos (by simp; omega),
        Nat.add_sub_cancel_left]

theorem dnsServfailTransmitToListen_target {target : IoOwnerKey} {listen : SocketAddr}
    {transmit : IoTransmit} (h : dnsServfailTransmitToListen target p f listen = .ok transmit) :
    transmit = ⟨target, transmit.packet, none⟩ := by
  obtain ⟨_, -, h⟩ := Outcome.bind_eq_ok.mp h
  obtain ⟨_, -, h⟩ := Outcome.bind_eq_ok.mp h
  obtain ⟨_, -, h⟩ := Outcome.bind_eq_ok.mp h
  obtain ⟨_, -, h⟩ := Outcome.bind_eq_ok.mp h
  obtain ⟨_, -, h⟩ := Outcome.bind_eq_ok.mp h
  obtain ⟨_, -, h⟩ := Outcome.bind_eq_ok.mp h
  obtain ⟨_, -, h⟩ := Outcome.bind_eq_ok.mp h
  cases h
  rfl

/-- A SERVFAIL is refused, or it is the padded query with the edited message, rewritten. -/
theorem dnsServfailTransmitToListen_eq (h : Carries p l f) (hu : f.protocol = .udp)
    (target : IoOwnerKey) (listen : SocketAddr) :
    (∃ e, dnsServfailTransmitToListen target p f listen = fail e ∧ l.total < l.offset + 20) ∨
    ∃ q l', Carries q l' f ∧ l'.isV4 = l.isV4 ∧ l'.offset + 20 ≤ l'.total ∧
      (l.offset + 20 ≤ l.total → q = p ∧ l' = l) ∧
      let answer := servfailMessage (q.slice (l'.offset + 8) l'.total)
      answer.length = l'.total - (l'.offset + 8) ∧
      Carries (q.patch (l'.offset + 8) answer) l' f ∧
      dnsServfailTransmitToListen target p f listen =
        ((rewritePacket ⟨listen.ip, f.source, listen.port, f.sourcePort, .udp⟩).exec
          (q.patch (l'.offset + 8) answer) >>= fun packet => pure ⟨target, packet, none⟩) := by
  rw [dnsServfailTransmitToListen, ensureMinimumDnsResponse]
  rcases ensureUdpPayloadLen_cases h hu 12 with ⟨e, he, hshort⟩ | ⟨q, l', hq, hc, hv, hroom, hkeep⟩
  · rw [he]
    exact .inl ⟨e, rfl, by omega⟩
  have hle := hc.fields_le.2.2.2
  have htot := hc.layout.total_le
  have hs : (q.slice (l'.offset + 8) l'.total).length = l'.total - (l'.offset + 8) :=
    Bytes.length_slice htot
  obtain ⟨hw1, hw2, hlen, -⟩ := servfail_payload (q.slice (l'.offset + 8) l'.total)
    (servfailFlags ((q.slice (l'.offset + 8) l'.total).wordAt 2)) (by omega)
  refine .inr ⟨q, l', hc, hv, by omega, fun hlong => hkeep (by omega), hlen.trans hs,
    hc.withPayload hu (hlen.trans hs), ?_⟩
  rw [hq, bind_ok, udpPayloadRange_ok hc hu, bind_ok]
  simp only [Bytes.range_ok hle htot, bind_ok]
  rw [Bytes.word_ok (by omega), bind_ok, hw1, bind_ok, hw2, bind_ok]
  rfl

/-- A SERVFAIL is refused or built; it is built when the message has its header and
the listener is of its family. -/
theorem dnsServfailTransmitToListen_cases (h : Carries p l f) (hu : f.protocol = .udp)
    (target : IoOwnerKey) (listen : SocketAddr) :
    dnsServfailTransmitToListen target p f listen ≠ panic ∧
      (l.offset + 20 ≤ l.total → listen.ip.isV4 = l.isV4 →
        ∃ packet, dnsServfailTransmitToListen target p f listen = .ok ⟨target, packet, none⟩ ∧
          IsServfail listen p packet) := by
  rcases dnsServfailTransmitToListen_eq h hu target listen with ⟨e, he, hshort⟩ |
    ⟨q, l', hc, hv, hroom, hkeep, hlen, hcp, hbuilt⟩
  · rw [he]
    exact ⟨fail_ne_panic e, fun hlong => by omega⟩
  rw [hbuilt]
  refine ⟨bind_ne_panic (rewritePacket_ne_panic _ _) fun _ _ => pure_ne_panic _,
    fun hlong hlisten => ?_⟩
  obtain ⟨r, hr, hcr, -, hsame⟩ := rewritePacket_ok hcp
    (t := ⟨listen.ip, f.source, listen.port, f.sourcePort, .udp⟩) hu.symm (hlisten.trans hv.symm)
    hcp.family.1 trivial
  refine ⟨r, by rw [Act.exec_eq_ok.mpr ⟨(), hr⟩]; rfl, ?_⟩
  -- nothing was padded, and the translation leaves the payload alone
  obtain ⟨rfl, rfl⟩ := hkeep hlong
  obtain ⟨-, -, -, hid, hflags, hcounts⟩ := servfail_payload (q.slice (l'.offset + 8) l'.total)
    (servfailFlags ((q.slice (l'.offset + 8) l'.total).wordAt 2))
    (by rw [Bytes.length_slice h.layout.total_le]; omega)
  refine ⟨f, _, _, parseFlowKey_eq_ok.mpr ⟨l', h⟩, udpPayload_ok h hu,
    parseFlowKey_eq_ok.mpr ⟨l', hcr⟩, udpPayload_ok hcr rfl, ?_⟩
  rw [hsame.slice hcp.layout.total_le fun i hi _ => h.layout.not_translation_udp hi,
    Bytes.slice_patch_all (by omega) h.layout.total_le]
  exact ⟨hid, by rw [servfailMessage, hflags, servfailFlags_and], hcounts⟩

end FlowWorkerState

end NewProxy
