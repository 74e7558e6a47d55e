import NewProxy.PacketEdit

/-!
# Clamping the MSS option

The option walk of `clampTcpMss` never leaves the TCP header, changes nothing
but MSS values above the limit, and finds nothing to change when it is run on
its own result. What it does depends on the option bytes alone, so that it
commutes with every edit elsewhere in the packet.
-/
namespace NewProxy.Packet

open Outcome (ensure okOr fail)
open Bytes (SameExcept)

variable {p q : Bytes} {l : Layout} {f : FlowKey} {m : UInt16} {stop off : ℕ}

/-- The option at `off`: its length and whether it is a maximum segment size.
`none` ends the walk. -/
def optionAt (p : Bytes) (stop off : ℕ) : Option (ℕ × Bool) :=
  if off < stop then
    if p.byteAt off = 0 then none
    else if p.byteAt off = 1 then some (1, false)
    else if stop ≤ off + 1 then none
    else if (p.byteAt (off + 1)).toNat < 2 ∨ stop < off + (p.byteAt (off + 1)).toNat then none
    else some ((p.byteAt (off + 1)).toNat,
      decide (p.byteAt off = 2 ∧ (p.byteAt (off + 1)).toNat = 4))
  else none

theorem optionAt_bounds {len : ℕ} {mss : Bool} (h : optionAt p stop off = some (len, mss)) :
    1 ≤ len ∧ off + len ≤ stop ∧ (mss = true → len = 4) := by
  unfold optionAt at h
  split_ifs at h with h1 h2 h3 h4 h5
  · cases h
    exact ⟨le_rfl, h1, by simp⟩
  · cases h
    rw [not_or] at h5
    refine ⟨by omega, by omega, ?_⟩
    simp only [decide_eq_true_eq]
    exact fun hm => hm.2

/-- An option is found again wherever its own bytes are. -/
theorem optionAt_congr {len : ℕ} {mss : Bool} (h : optionAt p stop off = some (len, mss))
    (hq : ∀ i, off ≤ i → i < off + len → i < off + 2 → q.byteAt i = p.byteAt i) :
    optionAt q stop off = some (len, mss) := by
  have hb := optionAt_bounds h
  have h0 := hq off le_rfl (by omega) (by omega)
  unfold optionAt at h ⊢
  rw [h0]
  split_ifs at h with h1 h2 h3 h4 h5
  · rw [if_pos h1, if_neg h2, if_pos h3]
    exact h
  · have hlen : (p.byteAt (off + 1)).toNat = len := by cases h; rfl
    rw [not_or] at h5
    rw [hq (off + 1) (by omega) (by omega) (by omega), if_pos h1, if_neg h2, if_neg h3, if_neg h4,
      if_neg (by omega)]
    exact h

/-- One option of the walk. -/
theorem clampMssOptions_eq (hp : stop ≤ p.length) (modified : Bool) :
    clampMssOptions m stop p off modified =
      match optionAt p stop off with
      | none => .ok (modified, p)
      | some (len, mss) =>
        if mss = true ∧ m < p.wordAt (off + 2) then
          clampMssOptions m stop (p.patch (off + 2) (be16Bytes m)) (off + len) true
        else clampMssOptions m stop p (off + len) modified := by
  rw [clampMssOptions]
  unfold optionAt
  by_cases h0 : off < stop
  · rw [dif_pos h0, if_pos h0, Bytes.index_ok (by omega), Outcome.bind_ok]
    by_cases h1 : p.byteAt off = 0
    · simp only [if_pos h1]
      rfl
    by_cases h2 : p.byteAt off = 1
    · simp [h2]
    by_cases h3 : stop ≤ off + 1
    · simp only [if_neg h1, if_neg h2, if_pos h3]
      rfl
    rw [if_neg h1, if_neg h1, if_neg h2, if_neg h2, if_neg h3, if_neg h3,
      Bytes.index_ok (by omega), Outcome.bind_ok]
    by_cases h4 : (p.byteAt (off + 1)).toNat < 2 ∨ stop < off + (p.byteAt (off + 1)).toNat
    · rw [dif_pos h4, if_pos h4]
      rfl
    rw [dif_neg h4, if_neg h4]
    by_cases h5 : p.byteAt off = 2 ∧ (p.byteAt (off + 1)).toNat = 4
    · rw [if_pos h5, Bytes.word_ok (by omega), Outcome.bind_ok,
        Bytes.write_ok (by simp only [length_be16Bytes]; omega), Outcome.bind_ok]
      simp only [h5, and_self, decide_true, true_and]
    · simp only [h5, decide_false, Bool.false_eq_true, false_and, if_false]
  · rw [dif_neg h0, if_neg h0]
    rfl

/-- The walk on its own: it succeeds, it writes between `off` and `stop` only, and
it leaves nothing for a second walk. -/
theorem clampMssOptions_ok (m : UInt16) (off : ℕ) (hp : stop ≤ p.length) (modified : Bool) :
    ∃ b q, clampMssOptions m stop p off modified = .ok (b, q) ∧
      SameExcept (fun i => off ≤ i ∧ i < stop) p q ∧
      ∀ again, clampMssOptions m stop q off again = .ok (again, q) := by
  induction hn : stop - off using Nat.strong_induction_on generalizing off p modified with
  | h n ih =>
    rw [clampMssOptions_eq hp]
    rcases hopt : optionAt p stop off with _ | ⟨len, mss⟩
    · refine ⟨modified, p, rfl, .refl _ _, fun again => ?_⟩
      rw [clampMssOptions_eq hp, hopt]
    obtain ⟨h1, h2, h3⟩ := optionAt_bounds hopt
    dsimp only
    split_ifs with hm
    · -- an MSS above the limit: it is lowered, and kind and length stay as they are
      have hlen := h3 hm.1
      have hput : off + 2 + (be16Bytes m).length ≤ p.length := by
        simp only [length_be16Bytes]
        omega
      have hp' : stop ≤ (p.patch (off + 2) (be16Bytes m)).length := by
        rw [Bytes.length_patch hput]
        exact hp
      obtain ⟨b, q, hrun, hsame, hagain⟩ := ih (stop - (off + len)) (by omega) _ hp' true rfl
      have hsame' : SameExcept (fun i => off + 2 ≤ i ∧ i < stop) p q := by
        refine SameExcept.trans (.patch hput fun i hi hj => ?_) (hsame.mono fun i hi => by omega)
        simp only [length_be16Bytes] at hj
        omega
      have hq : stop ≤ q.length := hsame'.length ▸ hp
      have hword : q.wordAt (off + 2) = m := by
        rw [hsame.wordAt (by omega) (by omega), Bytes.wordAt_patch m (by omega)]
      refine ⟨b, q, hrun, hsame'.mono fun i hi => by omega, fun again => ?_⟩
      rw [clampMssOptions_eq hq, optionAt_congr hopt fun i _ _ hi => hsame'.byte i (by omega)]
      dsimp only
      rw [hword, if_neg fun hc => UInt16.lt_irrefl m hc.2, hagain]
    · obtain ⟨b, q, hrun, hsame, hagain⟩ := ih (stop - (off + len)) (by omega) _ hp modified rfl
      have hq : stop ≤ q.length := hsame.length ▸ hp
      refine ⟨b, q, hrun, hsame.mono fun i hi => by omega, fun again => ?_⟩
      rw [clampMssOptions_eq hq, optionAt_congr hopt fun i _ hi _ => hsame.byte i (by omega)]
      dsimp only
      rw [if_neg, hagain]
      rintro ⟨hmss, hlt⟩
      have hlen := h3 hmss
      rw [hsame.wordAt (by omega) (by omega)] at hlt
      exact hm ⟨hmss, hlt⟩

/-- The walk commutes with edits outside the options. -/
theorem clampMssOptions_congr {T : ℕ → Prop} (hp : stop ≤ p.length) (hs : SameExcept T p q)
    (hT : ∀ i, T i → i < off ∨ stop ≤ i) (modified : Bool) :
    ∃ b p' q', clampMssOptions m stop p off modified = .ok (b, p') ∧
      clampMssOptions m stop q off modified = .ok (b, q') ∧ SameExcept T p' q' := by
  induction hn : stop - off using Nat.strong_induction_on generalizing off p q modified with
  | h n ih =>
    have hq : stop ≤ q.length := hs.length ▸ hp
    have hin : ∀ i, off ≤ i → i < stop → ¬ T i := fun i h1 h2 ht => by
      have := hT i ht
      omega
    rw [clampMssOptions_eq hp, clampMssOptions_eq hq]
    rcases hopt : optionAt p stop off with _ | ⟨len, mss⟩
    · rcases hopt' : optionAt q stop off with _ | ⟨len, mss⟩
      · exact ⟨modified, p, q, rfl, rfl, hs⟩
      · have hb := optionAt_bounds hopt'
        have := optionAt_congr hopt' fun i h1 h2 _ => hs.symm.byte i (hin i h1 (by omega))
        rw [hopt] at this
        cases this
    obtain ⟨h1, h2, h3⟩ := optionAt_bounds hopt
    rw [optionAt_congr hopt fun i hi hj _ => hs.byte i (hin i hi (by omega))]
    dsimp only
    have hiff : (mss = true ∧ m < q.wordAt (off + 2)) ↔ (mss = true ∧ m < p.wordAt (off + 2)) := by
      refine and_congr_right fun hmss => ?_
      have hlen := h3 hmss
      rw [hs.wordAt (hin _ (by omega) (by omega)) (hin _ (by omega) (by omega))]
    have hT' : ∀ i, T i → i < off + len ∨ stop ≤ i := fun i ht => by
      have := hT i ht
      omega
    simp only [hiff]
    split_ifs with hm
    · have hlen := h3 hm.1
      have hput : off + 2 + (be16Bytes m).length ≤ p.length := by
        simp only [length_be16Bytes]
        omega
      have hput' : off + 2 + (be16Bytes m).length ≤ q.length := hs.length ▸ hput
      refine ih (stop - (off + len)) (by omega) ?_ ?_ hT' true rfl
      · rw [Bytes.length_patch hput]
        exact hp
      · refine ⟨by rw [Bytes.length_patch hput, Bytes.length_patch hput', hs.length], ?_⟩
        intro i hi
        rw [Bytes.byteAt_patch hput, Bytes.byteAt_patch hput', hs.byte i hi]
    · exact ih (stop - (off + len)) (by omega) hp hs hT' modified rfl

section Packets

/-- Everything forwarding and translation may touch. -/
def Layout.Edited (l : Layout) (proto : TransportProtocol) (i : ℕ) : Prop :=
  l.Forwarding i ∨ l.Translation proto i

theorem tcp_header (h : Carries p l f) (hf : f.protocol = .tcp) :
    l.protocol = ipProtocolTcp ∧ l.offset + 20 ≤ l.total ∧
      20 ≤ (p.byteAt (l.offset + 12) >>> 4).toNat * 4 ∧
      l.offset + (p.byteAt (l.offset + 12) >>> 4).toNat * 4 ≤ l.total := by
  have hproto := h.protocol
  have hshape := h.shape
  rw [hf] at hproto hshape
  exact ⟨hproto, hshape⟩

theorem clampTcpMss_eq (h : Carries p l f) (m : UInt16) :
    clampTcpMss p m =
      if f.protocol = .tcp ∧ p.byteAt (l.offset + 13) &&& 0x02 ≠ 0 then
        clampMssOptions m (l.offset + (p.byteAt (l.offset + 12) >>> 4).toNat * 4) p
          (l.offset + 20) false
      else .ok (false, p) := by
  have htot := h.layout.total_le
  rw [clampTcpMss, h.layout.transportMetadata, Outcome.bind_ok]
  dsimp only
  by_cases hf : f.protocol = .tcp
  · obtain ⟨hproto, h20, h1, h2⟩ := tcp_header h hf
    rw [if_neg (by simp [hproto]), Bytes.getRange_some (by omega) (by omega)]
    simp only [okOr, Outcome.bind_ok, hf, true_and]
    rw [Bytes.byteAt_slice (by omega), Bytes.byteAt_slice (by omega)]
    by_cases hsyn : p.byteAt (l.offset + 13) &&& 0x02 = 0
    · rw [if_pos hsyn, if_neg (by simp [hsyn])]
      rfl
    · rw [if_neg hsyn, if_pos hsyn, ensure, if_pos ⟨h1, h2⟩, Outcome.bind_ok]
  · have hne : l.protocol ≠ ipProtocolTcp := fun hc =>
      hf (TransportProtocol.number_inj (h.protocol.symm.trans hc))
    rw [if_pos hne, if_neg (by simp [hf])]
    rfl

theorem Layout.Of.lt_of_reads (hl : l.Of p) {proto : TransportProtocol} {i : ℕ}
    (h : l.Reads i ∨ ShapeReads l.offset proto i ∨ l.Address i ∨ l.Ports proto i) :
    i < l.offset + 20 := by
  have hpos := hl.length_pos
  simp only [Layout.Reads, Layout.Address, Layout.Ports] at h
  cases proto <;> simp only [ShapeReads, TransportProtocol.sourceField,
    TransportProtocol.destinationField] at h <;> split_ifs at h with hv <;> simp [hv] at * <;> omega

/-- Clamping succeeds, keeps the flow key, stays inside the TCP options and
leaves nothing to clamp. -/
theorem clampTcpMss_ok (h : Carries p l f) (m : UInt16) :
    ∃ b q, clampTcpMss p m = .ok (b, q) ∧ Carries q l f ∧
      SameExcept (fun i => l.offset + 20 ≤ i ∧ i < l.total) p q ∧
      clampTcpMss q m = .ok (false, q) := by
  have htot := h.layout.total_le
  by_cases hc : f.protocol = .tcp ∧ p.byteAt (l.offset + 13) &&& 0x02 ≠ 0
  · obtain ⟨-, h20, h1, h2⟩ := tcp_header h hc.1
    obtain ⟨b, q, hrun, hsame, hagain⟩ := clampMssOptions_ok m (l.offset + 20)
      (show l.offset + (p.byteAt (l.offset + 12) >>> 4).toNat * 4 ≤ p.length by omega) false
    have hsame' : SameExcept (fun i => l.offset + 20 ≤ i ∧ i < l.total) p q :=
      hsame.mono fun i hi => by omega
    have hcarry : Carries q l f := h.keep hsame' fun i hi hT => by
      have := h.layout.lt_of_reads hi
      omega
    refine ⟨b, q, ?_, hcarry, hsame', ?_⟩
    · rw [clampTcpMss_eq h, if_pos hc, hrun]
    · rw [clampTcpMss_eq hcarry, hsame'.byte (l.offset + 13) (by omega),
        hsame'.byte (l.offset + 12) (by omega), if_pos hc, hagain]
  · have hno : clampTcpMss p m = .ok (false, p) := by rw [clampTcpMss_eq h, if_neg hc]
    exact ⟨false, p, hno, h, .refl _ _, hno⟩

theorem Layout.Of.edited_lt (hl : l.Of p) {i : ℕ} (h : l.Edited .tcp i) :
    i < l.offset + 20 ∧ i ≠ l.offset + 12 ∧ i ≠ l.offset + 13 := by
  have hpos := hl.length_pos
  simp only [Layout.Edited, Layout.Forwarding, Layout.Translation, Layout.Hop, Layout.HeaderSum,
    Layout.Address, Layout.Ports, Layout.TransportSum, TransportProtocol.sourceField,
    TransportProtocol.destinationField, TransportProtocol.checksumField] at h
  split_ifs at h with hv <;> simp [hv] at * <;> omega

/-- Clamping commutes with forwarding and translation. -/
theorem clampTcpMss_congr {g : FlowKey} (h : Carries p l f) (hq : Carries q l g)
    (hproto : g.protocol = f.protocol) (hs : SameExcept (l.Edited f.protocol) p q) (m : UInt16) :
    ∃ b p' q', clampTcpMss p m = .ok (b, p') ∧ clampTcpMss q m = .ok (b, q') ∧
      SameExcept (l.Edited f.protocol) p' q' := by
  have htot := h.layout.total_le
  rw [clampTcpMss_eq h, clampTcpMss_eq hq, hproto]
  by_cases hf : f.protocol = .tcp
  · rw [hf] at hs ⊢
    obtain ⟨-, h20, h1, h2⟩ := tcp_header h hf
    rw [hs.byte (l.offset + 12) fun hc => (h.layout.edited_lt hc).2.1 rfl,
      hs.byte (l.offset + 13) fun hc => (h.layout.edited_lt hc).2.2 rfl]
    split_ifs with hsyn
    · exact clampMssOptions_congr (by omega) hs (fun i hi => .inl (h.layout.edited_lt hi).1) false
    · exact ⟨false, p, q, rfl, rfl, hs⟩
  · simp only [hf, false_and, if_false]
    exact ⟨false, p, q, rfl, rfl, hs⟩

theorem parseTcpFlags_ok (h : Carries p l f) :
    parseTcpFlags p =
      .ok (if f.protocol = .tcp then some (p.byteAt (l.offset + 13)) else none) := by
  have htot := h.layout.total_le
  rw [parseTcpFlags, h.layout.transportMetadata, Outcome.bind_ok]
  dsimp only
  by_cases hf : f.protocol = .tcp
  · obtain ⟨hproto, h20, h1, h2⟩ := tcp_header h hf
    rw [if_neg (by simp [hproto]), Bytes.getRange_some (by omega) (by omega), if_pos hf]
    simp only [okOr, Outcome.bind_ok]
    rw [Bytes.byteAt_slice (by omega), Bytes.byteAt_slice (by omega), ensure, if_pos ⟨h1, h2⟩]
    rfl
  · have hne : l.protocol ≠ ipProtocolTcp := fun hc =>
      hf (TransportProtocol.number_inj (h.protocol.symm.trans hc))
    rw [if_pos hne, if_neg hf]
    rfl

end Packets

section Walk

/-- The walk over the options that starts at the first place gets to the second. -/
inductive Walks (p : Bytes) (stop : ℕ) : ℕ → ℕ → Prop
  | here (off : ℕ) : Walks p stop off off
  | next {off off' len : ℕ} {mss : Bool} : optionAt p stop off = some (len, mss) →
    Walks p stop (off + len) off' → Walks p stop off off'

/-- The walk finds an MSS option at `place`. -/
def MssFound (p : Bytes) (stop off place : ℕ) : Prop :=
  Walks p stop off place ∧ ∃ len, optionAt p stop place = some (len, true)

theorem Walks.le {off' : ℕ} (h : Walks p stop off off') : off ≤ off' := by
  induction h with
  | here => exact le_rfl
  | next _ _ ih => omega

/-- The walk reads nothing in front of its start. -/
theorem MssFound.congr {place : ℕ} (h : MssFound p stop off place)
    (hq : ∀ i, off ≤ i → q.byteAt i = p.byteAt i) : MssFound q stop off place := by
  obtain ⟨hwalk, len, hopt⟩ := h
  refine ⟨?_, len, optionAt_congr hopt fun i hi _ _ => hq i (hwalk.le.trans hi)⟩
  clear hopt
  induction hwalk with
  | here off => exact .here off
  | next hopt _ ih =>
    exact .next (optionAt_congr hopt fun i hi _ _ => hq i hi) (ih fun i hi => hq i (by omega))

theorem clampMssOptions_modified {b : Bool} (hp : stop ≤ p.length)
    (h : clampMssOptions m stop p off true = .ok (b, q)) : b = true := by
  induction hn : stop - off using Nat.strong_induction_on generalizing off p with
  | h n ih =>
    rw [clampMssOptions_eq hp] at h
    rcases hopt : optionAt p stop off with _ | ⟨len, mss⟩
    · rw [hopt] at h
      cases h
      rfl
    obtain ⟨h1, h2, h3⟩ := optionAt_bounds hopt
    rw [hopt] at h
    dsimp only at h
    split_ifs at h with hm
    · refine ih (stop - (off + len)) (by omega) ?_ h rfl
      have := h3 hm.1
      rw [Bytes.length_patch (by simp only [length_be16Bytes]; omega)]
      exact hp
    · exact ih (stop - (off + len)) (by omega) hp h rfl

/-- Where the walk changes nothing, no MSS it finds is above the limit. -/
theorem MssFound.le {place : ℕ} (h : MssFound p stop off place) (hp : stop ≤ p.length)
    (hclamp : clampMssOptions m stop p off false = .ok (false, q)) : p.wordAt (place + 2) ≤ m := by
  obtain ⟨hwalk, len, hopt⟩ := h
  have hstep : ∀ {off len : ℕ} {mss : Bool}, optionAt p stop off = some (len, mss) →
      clampMssOptions m stop p off false = .ok (false, q) →
      (mss = true → p.wordAt (off + 2) ≤ m) ∧
        clampMssOptions m stop p (off + len) false = .ok (false, q) := by
    intro off len mss hopt hrun
    obtain ⟨h1, h2, h3⟩ := optionAt_bounds hopt
    rw [clampMssOptions_eq hp, hopt] at hrun
    dsimp only at hrun
    split_ifs at hrun with hm
    · have := h3 hm.1
      have hp' : stop ≤ (p.patch (off + 2) (be16Bytes m)).length := by
        rw [Bytes.length_patch (by simp only [length_be16Bytes]; omega)]
        exact hp
      cases clampMssOptions_modified hp' hrun
    · exact ⟨fun hmss => UInt16.not_lt.mp fun hlt => hm ⟨hmss, hlt⟩, hrun⟩
  induction hwalk with
  | here off => exact (hstep hopt hclamp).1 rfl
  | next hnext _ ih => exact ih (hstep hnext hclamp).2 hopt

/-- A byte of an MSS value above the limit. -/
def MssAbove (m : UInt16) (p : Bytes) (place i : ℕ) : Prop :=
  m < p.wordAt (place + 2) ∧ (i = place + 2 ∨ i = place + 3)

/-- The walk writes into the MSS values above the limit and nowhere else. -/
theorem clampMssOptions_same (m : UInt16) (off : ℕ) (hp : stop ≤ p.length) {modified b : Bool}
    (h : clampMssOptions m stop p off modified = .ok (b, q)) :
    SameExcept (fun i => ∃ place, MssFound p stop off place ∧ MssAbove m p place i) p q := by
  induction hn : stop - off using Nat.strong_induction_on generalizing off p modified with
  | h n ih =>
    rw [clampMssOptions_eq hp] at h
    rcases hopt : optionAt p stop off with _ | ⟨len, mss⟩
    · rw [hopt] at h
      cases h
      exact .refl _ _
    obtain ⟨h1, h2, h3⟩ := optionAt_bounds hopt
    rw [hopt] at h
    dsimp only at h
    split_ifs at h with hm
    · have hlen := h3 hm.1
      obtain ⟨rfl, habove⟩ := hm
      have hput : off + 2 + (be16Bytes m).length ≤ p.length := by
        simp only [length_be16Bytes]
        omega
      have hsame : ∀ i, off + len ≤ i → p.byteAt i = (p.patch (off + 2) (be16Bytes m)).byteAt i :=
        fun i hi => (Bytes.byteAt_patch_of_disjoint hput
          (by rw [length_be16Bytes]; omega)).symm
      have hrest := ih (stop - (off + len)) (by omega) (off + len)
        (by rw [Bytes.length_patch hput]; exact hp) h rfl
      refine SameExcept.trans (.patch hput fun i hi hj => ⟨off, ⟨.here off, len, hopt⟩, habove, ?_⟩)
        (hrest.mono fun i ⟨place, hfound, habove, hi⟩ => ⟨place, ?_, ?_, hi⟩)
      · simp only [length_be16Bytes] at hj
        omega
      · have hback := hfound.congr hsame
        exact ⟨.next hopt hback.1, hback.2⟩
      · have hle := hfound.1.le
        rwa [Bytes.wordAt_congr (hsame _ (by omega)) (hsame _ (by omega))]
    · exact (ih (stop - (off + len)) (by omega) (off + len) hp h rfl).mono
        fun i ⟨place, hfound, hi⟩ => ⟨place, ⟨.next hopt hfound.1, hfound.2⟩, hi⟩

/-- The end of the TCP options of a packet. -/
def Layout.optionsEnd (l : Layout) (p : Bytes) : ℕ :=
  l.offset + (p.byteAt (l.offset + 12) >>> 4).toNat * 4

/-- A TCP packet with SYN set has an MSS option at `place`. -/
def Layout.MssOption (l : Layout) (f : FlowKey) (p : Bytes) (place : ℕ) : Prop :=
  f.protocol = .tcp ∧ p.byteAt (l.offset + 13) &&& 0x02 ≠ 0 ∧
    MssFound p (l.optionsEnd p) (l.offset + 20) place

theorem clampTcpMss_same (h : Carries p l f) {b : Bool} (hclamp : clampTcpMss p m = .ok (b, q)) :
    SameExcept (fun i => ∃ place, l.MssOption f p place ∧ MssAbove m p place i) p q := by
  have htot := h.layout.total_le
  rw [clampTcpMss_eq h] at hclamp
  split_ifs at hclamp with hsyn
  · obtain ⟨-, h20, h1, h2⟩ := tcp_header h hsyn.1
    exact (clampMssOptions_same m _ (by omega) hclamp).mono
      fun i ⟨place, hfound, hi⟩ => ⟨place, ⟨hsyn.1, hsyn.2, hfound⟩, hi⟩
  · cases hclamp
    exact .refl _ _

theorem Layout.MssOption.le {place : ℕ} (hmss : l.MssOption f p place) (h : Carries p l f)
    (hclamp : clampTcpMss p m = .ok (false, q)) : p.wordAt (place + 2) ≤ m := by
  have htot := h.layout.total_le
  obtain ⟨-, h20, h1, h2⟩ := tcp_header h hmss.1
  rw [clampTcpMss_eq h, if_pos ⟨hmss.1, hmss.2.1⟩] at hclamp
  exact hmss.2.2.le (by rw [Layout.optionsEnd]; omega) hclamp

end Walk

end NewProxy.Packet
