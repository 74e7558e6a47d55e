import NewProxy.DnsNames
import NewProxy.RewriteExact

/-!
# The EDNS clamp is exact

It lowers the CLASS of the OPT records of the additional section that announce more than
the limit, leaves every record where it was, and in a packet makes the checksums fit.
-/
namespace NewProxy

namespace Dns

open Bytes (SameExcept)

variable {p q : Bytes} {n m o o' fixed stop : ℕ} {target : Option ℕ}

/-- An OPT record of the additional section has its fixed part at `fixed`. The section
starts behind as many records as the source counts; see `recordsBefore_eq`. -/
def AdditionalOpt (p : Bytes) (fixed : ℕ) : Prop :=
  (∃ n o target, recordsBefore p ≤ n ∧ n < recordsBefore p + (p.wordAt 10).toNat ∧
    RecordAt p n o ∧ NameEnds p o fixed target) ∧ p.wordAt fixed = 41

theorem oversizedOpt_iff :
    OversizedOpt p fixed ↔ AdditionalOpt p fixed ∧ .ofNat dnsPayloadMax < p.wordAt (fixed + 2) :=
  and_assoc.symm

theorem Records.split (h : Records p (n + m) o stop) :
    ∃ o', Records p n o o' ∧ Records p m o' stop := by
  induction n generalizing o with
  | zero => exact ⟨o, .nil o, by simpa using h⟩
  | succ n ih =>
    rw [Nat.succ_add] at h
    cases h with
    | cons hname h =>
      obtain ⟨o', hn, hm⟩ := ih h
      exact ⟨o', .cons hname hn, hm⟩

/-- A walk passes every record in front of its end. -/
theorem RecordAt.before (h : RecordAt p m stop) (hn : n < m) :
    ∃ o fixed target, RecordAt p n o ∧ NameEnds p o fixed target ∧ recordEnd p fixed ≤ stop := by
  obtain ⟨a, hq, hr⟩ := h
  obtain ⟨k, rfl⟩ : ∃ k, m = n + (k + 1) := ⟨m - n - 1, by omega⟩
  obtain ⟨o, hn, hrest⟩ := hr.split
  cases hrest with
  | cons hname hrest => exact ⟨o, _, _, ⟨a, hq, hn⟩, hname, hrest.le⟩

theorem RecordAt.unique (h : RecordAt p n o) (h' : RecordAt p n o') : o' = o :=
  (h'.mono h le_rfl).antisymm (h.mono h' le_rfl)

/-- Only a message too long for UDP has so many records that the source's count of those
in front of the additional section saturates. -/
theorem recordsBefore_eq (h : RecordAt p (recordsBefore p + m) p.length) (hlen : p.length ≤ 65535) :
    recordsBefore p = (p.wordAt 6).toNat + (p.wordAt 8).toNat := by
  obtain ⟨a, -, hr⟩ := h
  have hle := hr.length_le
  rw [recordsBefore, toNat_saturatingAdd] at *
  omega

theorem Questions.le (h : Questions p n o stop) : o ≤ stop := by
  induction h with
  | nil => exact le_rfl
  | cons hname _ ih =>
    have := hname.lt
    omega

theorem RecordAt.behind_header (h : RecordAt p 0 o) : 12 ≤ o := by
  obtain ⟨a, hq, hr⟩ := h
  cases hr
  exact hq.le

section Agree

variable (hagree : SameExcept (OversizedClass p) p q)

include hagree

theorem Questions.agree {a : ℕ} (h : Questions p n o stop) (hrec : RecordAt p 0 a)
    (hle : stop ≤ a) : Questions q n o stop := by
  induction h with
  | nil o => exact .nil o
  | cons hname hrest ih =>
    have := hrest.le
    exact .cons (hname.congr hagree.length fun i _ hi => SameExcept.front hagree hrec (by omega))
      (ih hle)

theorem header_agree (hrec : RecordAt p 0 o) {i : ℕ} (hi : i + 1 < 12) :
    q.wordAt i = p.wordAt i := by
  have := hrec.behind_header
  exact Bytes.wordAt_congr (SameExcept.front hagree hrec (by omega))
    (SameExcept.front hagree hrec (by omega))

/-- The records lie where they lay. -/
theorem RecordAt.agree (h : RecordAt p n o) : RecordAt q n o := by
  obtain ⟨a, hq, hr⟩ := h
  have hstart : RecordAt p 0 a := ⟨a, hq, .nil a⟩
  refine ⟨a, ?_, hr.agree hagree hstart⟩
  rw [header_agree hagree hstart (by omega)]
  exact hq.agree hagree hstart le_rfl

theorem additionalOpt_agree
    (hwalk : RecordAt p (recordsBefore p + (p.wordAt 10).toNat) stop) :
    AdditionalOpt q fixed ↔ AdditionalOpt p fixed := by
  obtain ⟨a, hq, -⟩ := id hwalk
  have hstart : RecordAt p 0 a := ⟨a, hq, .nil a⟩
  have hbefore : recordsBefore q = recordsBefore p := by
    rw [recordsBefore, recordsBefore, header_agree hagree hstart (by omega),
      header_agree hagree hstart (by omega)]
  have hcount : q.wordAt 10 = p.wordAt 10 := header_agree hagree hstart (by omega)
  -- name and type of a record are not written
  have hkept : ∀ {n o fixed target}, RecordAt p n o → NameEnds p o fixed target →
      NameEnds q o fixed target ∧ q.wordAt fixed = p.wordAt fixed := by
    intro n o fixed target hrec hname
    have hlt := hname.lt
    refine ⟨hname.congr hagree.length fun i hi _ => ?_, hagree.wordAt ?_ ?_⟩
    · exact hagree.byte i (hrec.not_class hname hi (by omega) (.inl (by omega)))
    · exact hrec.not_class hname (by omega) (by omega) (.inl (by omega))
    · exact hrec.not_class hname (by omega) (by omega) (.inl (by omega))
  rw [AdditionalOpt, AdditionalOpt, hbefore, hcount]
  constructor
  · rintro ⟨⟨n, o, target, hn, hn', hrec, hname⟩, htype⟩
    obtain ⟨o', fixed', target', hrec', hname', -⟩ := hwalk.before hn'
    obtain ⟨hname'', htype'⟩ := hkept hrec' hname'
    obtain rfl := (hrec'.agree hagree).unique hrec
    obtain ⟨rfl, -⟩ := hname''.unique hname
    exact ⟨⟨n, o, target', hn, hn', hrec', hname'⟩, htype'.symm.trans htype⟩
  · rintro ⟨⟨n, o, target, hn, hn', hrec, hname⟩, htype⟩
    obtain ⟨hname', htype'⟩ := hkept hrec hname
    exact ⟨⟨n, o, target, hn, hn', hrec.agree hagree, hname'⟩, htype'.trans htype⟩

end Agree

/-- What the clamp makes of a message `p` that it gets through. -/
structure EdnsClamped (p : Bytes) (clamped : Bool) (q : Bytes) : Prop where
  /-- The OPT records of the additional section are the same ones. -/
  records : ∀ fixed, AdditionalOpt q fixed ↔ AdditionalOpt p fixed
  bounded : ∀ fixed, AdditionalOpt q fixed → q.wordAt (fixed + 2) ≤ .ofNat dnsPayloadMax
  lowered : ∀ fixed, AdditionalOpt p fixed → .ofNat dnsPayloadMax < p.wordAt (fixed + 2) →
    q.wordAt (fixed + 2) = .ofNat dnsPayloadMax
  kept : ∀ fixed, AdditionalOpt p fixed → p.wordAt (fixed + 2) ≤ .ofNat dnsPayloadMax →
    q.wordAt (fixed + 2) = p.wordAt (fixed + 2)
  same : SameExcept (OversizedClass p) p q
  reported : clamped = true ↔ ∃ fixed, OversizedOpt p fixed
  /-- In a message that fits UDP the section starts behind all answers and authorities. -/
  section_start : p.length ≤ 65535 → recordsBefore p = (p.wordAt 6).toNat + (p.wordAt 8).toNat

theorem clampEdnsUdpPayload_exact {b : Bool} (h : clampEdnsUdpPayload.run p = (.ok b, q)) :
    EdnsClamped p b q := by
  obtain ⟨⟨hlowered, hkept, hfound⟩, hwalk, -⟩ := clampEdnsUdpPayload_clamped h
  have hinside : ∀ fixed, AdditionalOpt p fixed → fixed < p.length := by
    rintro fixed ⟨⟨n, o, target, -, hn, hrec, hname⟩, -⟩
    obtain ⟨o', fixed', target', hrec', hname', hle⟩ := hwalk.before hn
    obtain rfl := hrec'.unique hrec
    obtain ⟨rfl, -⟩ := hname'.unique hname
    rw [recordEnd] at hle
    omega
  have hrecords : ∀ fixed, AdditionalOpt q fixed ↔ AdditionalOpt p fixed := fun fixed =>
    additionalOpt_agree hlowered.agree hwalk
  have hlower : ∀ fixed, AdditionalOpt p fixed → .ofNat dnsPayloadMax < p.wordAt (fixed + 2) →
      q.wordAt (fixed + 2) = .ofNat dnsPayloadMax := fun fixed hopt hlarge =>
    hlowered.lowered fixed (oversizedOpt_iff.mpr ⟨hopt, hlarge⟩) (hinside fixed hopt)
  have hsmall : ∀ fixed, AdditionalOpt p fixed → p.wordAt (fixed + 2) ≤ .ofNat dnsPayloadMax →
      q.wordAt (fixed + 2) = p.wordAt (fixed + 2) := by
    rintro fixed hopt hle
    obtain ⟨n, o, target, -, -, hrec, hname⟩ := hopt.1
    -- another oversized record has its class elsewhere
    have haway : ∀ i, i = fixed + 2 ∨ i = fixed + 3 → ¬ OversizedClass p i := by
      rintro i hi ⟨fixed', hopt', hi'⟩
      have hplace := hopt'.place hrec hname
      have hlt := hname.lt
      rw [recordEnd] at hplace
      obtain rfl : fixed' = fixed := by omega
      exact absurd hopt'.2.2 (UInt16.not_lt.mpr hle)
    exact hlowered.agree.wordAt (haway _ (.inl rfl)) (haway _ (.inr rfl))
  refine ⟨hrecords, fun fixed hopt => ?_, hlower, hsmall, hlowered.agree, ⟨hfound, ?_⟩,
    recordsBefore_eq hwalk⟩
  · have hopt' := (hrecords fixed).mp hopt
    rcases UInt16.lt_or_le (.ofNat dnsPayloadMax) (p.wordAt (fixed + 2)) with hlarge | hle
    · rw [hlower fixed hopt' hlarge]
      exact UInt16.le_refl _
    · rw [hsmall fixed hopt' hle]
      exact hle
  · rintro ⟨fixed, hopt⟩
    obtain ⟨hopt', hlarge⟩ := oversizedOpt_iff.mp hopt
    by_contra hb
    have hclass := hlower fixed hopt' hlarge
    rw [hkept (by simpa using hb)] at hclass
    rw [hclass] at hlarge
    exact absurd hlarge (UInt16.lt_irrefl _)

end Dns

namespace FlowWorkerState

open Outcome Packet Dns Bytes

variable {p q : Bytes} {l : Layout} {f : FlowKey}

/-- Where a clamped packet may differ: in its checksums and in the lowered classes. -/
def ClampedAt (p : Bytes) (l : Layout) (i : ℕ) : Prop :=
  l.HeaderSum i ∨ l.TransportSum .udp i ∨ l.offset + 8 ≤ i ∧
    OversizedClass (p.slice (l.offset + 8) l.total) (i - (l.offset + 8))

theorem clamps_spelled (h : Carries p l f) (hq : Carries q l f) (hu : f.protocol = .udp)
    (hs : SameExcept (Clamps p l) p q) : SameExcept (ClampedAt p l) p q := by
  refine (Rewritten.spelled hs (hq.source.trans h.source.symm)
    (hq.destination.trans h.destination.symm) (hq.sourcePort.trans h.sourcePort.symm)
    (hq.destinationPort.trans h.destinationPort.symm)).mono ?_
  rw [hu]
  rintro i ⟨(hc | hc | hc | hc) | hc, ha, hp⟩
  · exact .inl hc
  · exact absurd hc ha
  · exact absurd hc hp
  · exact .inr (.inl hc)
  · exact .inr (.inr hc)

/-- The EDNS clamp changes only what it must, in a message and in a packet. -/
theorem edns_clamp_exact :
    (∀ (p q : Bytes) (b : Bool), clampEdnsUdpPayload.run p = (.ok b, q) → EdnsClamped p b q) ∧
    ∀ (p : Bytes) (f : FlowKey), parseFlowKey p = .ok f → f.protocol = .udp →
      ∃ clamped q, ednsClampPacket p = .ok (clamped, q) ∧
        (clamped ≠ some true → q = p) ∧
        (clamped = some true → parseFlowKey q = .ok f ∧ validatePacketChecksums q = .ok () ∧
          ∃ l payload, Carries p l f ∧ Carries q l f ∧
            clampEdnsUdpPayload.run (p.slice (l.offset + 8) l.total) = (.ok true, payload) ∧
            q.slice (l.offset + 8) l.total = payload ∧ SameExcept (ClampedAt p l) p q ∧
            (q.wordAt (l.offset + 6) = 0 ↔ l.isV4 = true ∧ p.wordAt (l.offset + 6) = 0)) := by
  refine ⟨fun p q b h => clampEdnsUdpPayload_exact h, fun p f hparse hu => ?_⟩
  obtain ⟨l, hc⟩ := parseFlowKey_eq_ok.mp hparse
  rcases ednsClampPacket_cases hc hu with
    ⟨-, hrun⟩ | ⟨lowered, payload, q, hclamp, hrun, hcq, hslice, hkept, hs, hrewritten⟩
  · exact ⟨none, p, hrun, fun _ => rfl, fun h => by cases h⟩
  · refine ⟨some lowered, q, hrun, fun h => hkept (by simpa using h), fun h => ?_⟩
    obtain rfl : lowered = true := Option.some.inj h
    have hlen : payload.length = l.total - (l.offset + 8) := by
      rw [← hslice, length_slice hcq.layout.total_le]
    have hp' := hc.withPayload hu hlen
    have hr := hrewritten rfl
    refine ⟨parseFlowKey_eq_ok.mpr ⟨l, hcq⟩,
      (validatePacketChecksums_eq_ok hcq).mpr (hr.checked hp'.placed), l, payload, hc, hcq, hclamp,
      hslice, clamps_spelled hc hcq hu hs, ?_⟩
    rw [hr.udp_zero_iff hp'.placed hu]
    have hput : l.offset + 8 + payload.length ≤ p.length := by
      have hle := hc.fields_le.2.2.2
      have htot := hc.layout.total_le
      omega
    rw [wordAt_congr (byteAt_patch_of_disjoint hput (by omega))
      (byteAt_patch_of_disjoint hput (by omega))]

/-- A query with an OPT record that announces 4096 bytes, without a UDP checksum. -/
def ednsQuery : Bytes :=
  [0x45, 0, 0, 58, 0, 0, 0, 0, 64, 17, 0, 0, 192, 0, 2, 1, 198, 51, 100, 7,
    0x30, 0x39, 0, 53, 0, 38, 0, 0,
    0, 7, 1, 0, 0, 1, 0, 0, 0, 0, 0, 1, 1, 97, 0, 0, 1, 0, 1,
    0, 0, 41, 0x10, 0, 0, 0, 0, 0, 0, 0]

theorem ednsQuery_clamped :
    (∃ q, EdnsClamped (ednsQuery.slice 28 58) true q) ∧
      ∃ q, ednsClampPacket ednsQuery = .ok (some true, q) ∧ validatePacketChecksums q = .ok () := by
  have hrun : (clampEdnsUdpPayload.run (ednsQuery.slice 28 58)).1 = .ok true := by decide +kernel
  have hparse : parseFlowKey ednsQuery =
      .ok ⟨.v4 #v[192, 0, 2, 1], .v4 #v[198, 51, 100, 7], 12345, 53, .udp⟩ := by
    decide +kernel
  have hclamp : (ednsClampPacket ednsQuery).map Prod.fst = .ok (some true) := by decide +kernel
  refine ⟨⟨_, edns_clamp_exact.1 _ _ true (Prod.ext hrun rfl)⟩, ?_⟩
  obtain ⟨clamped, q, hq, -, hvalid⟩ := edns_clamp_exact.2 ednsQuery _ hparse rfl
  rw [hq] at hclamp
  obtain rfl : clamped = some true := by simpa [Except.map] using hclamp
  exact ⟨q, hq, (hvalid rfl).2.1⟩

end FlowWorkerState

end NewProxy
