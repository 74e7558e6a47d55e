import NewProxy.Fragmentation

/-!
# Delivery of inner packets

The receiving side of `Fragmentation`: every open entry holds bytes of one packet
that was sent, a complete one is that packet, and a packet whose datagrams all
arrive in time and find room is delivered once.
-/
namespace NewProxy.QuicEngine

open Quic Quic.InnerReassembly

variable {hmac : Hmac} {sent : List Emission} {engine : QuicEngine hmac}

/-- What happens at the receiver: datagram `j` of emission `i` arrives, or the table is
pruned. -/
inductive Arrival where
  | datagram (now : Instant) (i j : ℕ)
  | prune (now : Instant)

namespace Arrival

def now : Arrival → Instant
  | .datagram now _ _ => now
  | .prune now => now

/-- It brings a datagram of emission `i`. -/
def Brings (i : ℕ) : Arrival → Prop
  | .datagram _ k _ => k = i
  | .prune _ => False

instance (i : ℕ) : DecidablePred (Brings i)
  | .datagram _ k _ => inferInstanceAs (Decidable (k = i))
  | .prune _ => inferInstanceAs (Decidable False)

/-- It brings datagram `j` of emission `i`. -/
def Is (i j : ℕ) : Arrival → Prop
  | .datagram _ k l => k = i ∧ l = j
  | .prune _ => False

instance (i j : ℕ) : DecidablePred (Is i j)
  | .datagram _ k l => inferInstanceAs (Decidable (k = i ∧ l = j))
  | .prune _ => inferInstanceAs (Decidable False)

/-- What arrives was sent. -/
def Sent (sent : List Emission) : Arrival → Prop
  | .datagram _ i j => ∃ e, sent[i]? = some e ∧ j < e.datagrams.length
  | .prune _ => True

end Arrival

/-- Datagram `j` of emission `i`. -/
def datagramAt (sent : List Emission) (i j : ℕ) : Option Bytes :=
  sent[i]?.bind fun e => e.datagrams[j]?

def receive (sent : List Emission) (engine : QuicEngine hmac) : Arrival → QuicEngine hmac
  | .datagram now i j =>
    match datagramAt sent i j with
    | some datagram => ((handleApplicationDatagram now datagram).run engine).2
    | none => engine
  | .prune now => engine.pruneReassembly now

def receiveAll (sent : List Emission) (engine : QuicEngine hmac) (arrivals : List Arrival) :
    QuicEngine hmac :=
  arrivals.foldl (receive sent) engine

/-- The events an arrival adds. -/
def produced (sent : List Emission) (engine : QuicEngine hmac) (arrival : Arrival) :
    List QuicEngineEvent :=
  (receive sent engine arrival).events.drop engine.events.length

/-- The events added by the datagrams of emission `i`. -/
def delivered (sent : List Emission) (i : ℕ) : List Arrival → QuicEngine hmac → List QuicEngineEvent
  | [], _ => []
  | arrival :: rest, engine =>
    (if arrival.Brings i then produced sent engine arrival else []) ++
      delivered sent i rest (receive sent engine arrival)

/-- What the receiver relies on about the sender. -/
structure Numbered (sent : List Emission) : Prop where
  forms : ∀ e ∈ sent, e.Idle ∨ e.Plain ∨ ∃ size, e.Split size
  distinct : sent.Pairwise fun e e' => (∃ size, e.Split size) → e.packetId ≠ e'.packetId

theorem forms_emissions {hmac : Hmac} (calls : List Call) (engine : QuicEngine hmac) :
    ∀ e ∈ emissions calls engine, e.Idle ∨ e.Plain ∨ ∃ size, e.Split size := by
  induction calls generalizing engine with
  | nil => simp [emissions]
  | cons call rest ih =>
    rcases emissions_cons call rest engine with ⟨answers, packet, heq, -⟩ | ⟨heq, -⟩
    · rw [heq]
      intro e he
      rcases List.mem_cons.mp he with rfl | he
      · rcases emission_cases answers packet engine with ⟨hidle, -⟩ | ⟨hplain, -⟩ | ⟨hsplit, -⟩
        · exact .inl hidle
        · exact .inr (.inl hplain)
        · exact .inr (.inr hsplit)
      · exact ih (call.apply engine) e he
    · rw [heq]
      exact ih (call.apply engine)

theorem numbered_emissions {hmac : Hmac} (calls : List Call) (engine : QuicEngine hmac)
    (hcount : (emissions calls engine).length < 2 ^ 64) : Numbered (emissions calls engine) :=
  ⟨forms_emissions calls engine, packetId_pairwise calls engine hcount⟩

theorem Numbered.unique (h : Numbered sent) {i k size size' : ℕ} {e e' : Emission}
    (hi : sent[i]? = some e) (hk : sent[k]? = some e') (hs : e.Split size) (hs' : e'.Split size')
    (hid : e.packetId = e'.packetId) : i = k := by
  have hpair := List.pairwise_iff_getElem.mp h.distinct
  obtain ⟨hilt, rfl⟩ := List.getElem?_eq_some_iff.mp hi
  obtain ⟨hklt, rfl⟩ := List.getElem?_eq_some_iff.mp hk
  rcases lt_trichotomy i k with hlt | heq | hgt
  · exact absurd hid (hpair i k hilt hklt hlt ⟨size, hs⟩)
  · exact heq
  · exact absurd hid.symm (hpair k i hklt hilt hgt ⟨size', hs'⟩)

section Entries

variable {entry entry' : InnerReassembly} {packet : Bytes} {size j : ℕ}

/-- The bytes that have arrived are those of the packet. -/
structure Holds (entry : InnerReassembly) (packet : Bytes) : Prop where
  length : entry.packet.length = packet.length
  bytes : ∀ p : ℕ, entry.received[p]? = some true → entry.packet[p]? = packet[p]?

theorem holds_fresh (now : Instant) (packet : Bytes) : Holds (fresh now packet.length) packet where
  length := by simp [fresh]
  bytes p h := by
    obtain ⟨_, hp⟩ := List.getElem?_eq_some_iff.mp h
    simp [fresh] at hp

theorem getElem?_slice {p : ℕ} (hlo : j * size ≤ p)
    (hhi : p < min packet.length (j * size + size)) :
    (packet.slice (j * size) (min packet.length (j * size + size)))[p - j * size]? =
      packet[p]? := by
  rw [Bytes.slice, List.getElem?_drop, Nat.add_sub_cancel' hlo, List.getElem?_take_of_lt hhi]

theorem Holds.filled (h : Holds entry packet) (hj : j * size < packet.length)
    (hf : Filled entry (j * size)
      (packet.slice (j * size) (min packet.length (j * size + size))) entry') :
    Holds entry' packet := by
  have hlen := length_slice_fragment hj
  refine ⟨hf.packetLength.trans h.length, fun p hp => ?_⟩
  rw [hf.received, hlen] at hp
  rw [hf.packet, hlen]
  split_ifs at hp ⊢ with hin
  · exact getElem?_slice hin.1 hin.2
  · exact h.bytes p hp

/-- An entry with all its flags set holds the packet. -/
theorem Holds.complete (h : Holds entry packet)
    (hall : ∀ p < packet.length, entry.received[p]? = some true) : entry.packet = packet := by
  apply List.ext_getElem?
  intro p
  by_cases hp : p < packet.length
  · exact h.bytes p (hall p hp)
  · rw [List.getElem?_eq_none (by rw [h.length]; omega), List.getElem?_eq_none (by omega)]

end Entries

/-- Every open entry belongs to a packet that was sent. -/
structure Receiving (sent : List Emission) (engine : QuicEngine hmac) : Prop where
  accounted : engine.Accounted
  authenticated : engine.isAuthenticated = true
  entries : ∀ id entry, engine.reassembly.get id = some entry → ∃ (i size : ℕ) (e : Emission),
    sent[i]? = some e ∧ e.Split size ∧ e.packetId = id ∧ Holds entry e.packet

section Step

variable {i j size : ℕ} {e : Emission} {d : Bytes} {now : Instant}

theorem Receiving.holds (h : Receiving sent engine) (hn : Numbered sent) (hi : sent[i]? = some e)
    (hs : e.Split size) {entry : InnerReassembly}
    (hget : engine.reassembly.get e.packetId = some entry) : Holds entry e.packet := by
  obtain ⟨k, size', e', hk, hs', hid, hholds⟩ := h.entries _ _ hget
  obtain rfl := hn.unique hi hk hs hs' hid.symm
  rw [hi, Option.some_inj] at hk
  rw [hk]
  exact hholds

/-- A fragment that was sent goes to the entry of its packet. -/
theorem run_fragment (h : Receiving sent engine) (hs : e.Split size)
    (hd : e.datagrams[j]? = some d) :
    (handleApplicationDatagram now d).run engine =
      (fillEntry e.packetId e.packet.length (j * size)
        (e.packet.slice (j * size) (min e.packet.length (j * size + size)))).run
        (engine.openEntry now e.packetId e.packet.length) := by
  have hget : (fragments e.packetId e.packet size)[j]? = some d := by
    obtain ⟨hj, rfl⟩ := List.getElem?_eq_some_iff.mp hd
    exact hs.datagrams.getElem hj ▸ List.getElem?_eq_getElem _
  obtain ⟨hlt, rfl⟩ := getElem?_fragments hget hs.pos
  have hlen := length_slice_fragment hlt
  have hmax : maxInnerPacketLen = 65535 := rfl
  have hheader : innerFragmentHeaderLen = 13 := rfl
  have hle := hs.length_le
  have hpos := hs.pos
  set fragment := e.packet.slice (j * size) (min e.packet.length (j * size + size))
  set payload := fragmentPayload e.packetId (UInt16.ofNat e.packet.length) (UInt16.ofNat (j * size))
    fragment
  have hlong : payload.length = 12 + fragment.length := length_fragmentPayload _ _ _ _
  obtain ⟨hid, hword8, hword10, hslice⟩ : be64 (payload.slice 0 8) = e.packetId ∧
      payload.wordAt 8 = UInt16.ofNat e.packet.length ∧
      payload.wordAt 10 = UInt16.ofNat (j * size) ∧ payload.slice 12 payload.length = fragment :=
    fragmentPayload_fields _ _ _ _
  have htotal : (UInt16.ofNat e.packet.length).toNat = e.packet.length := by
    rw [UInt16.toNat_ofNat']
    omega
  have hoffset : (UInt16.ofNat (j * size)).toNat = j * size := by
    rw [UInt16.toNat_ofNat']
    omega
  have hfits : Fits (payload.wordAt 8).toNat (payload.wordAt 10).toNat
      (payload.slice 12 payload.length) := by
    rw [hword8, hword10, hslice, htotal, hoffset]
    exact ⟨hle, hlt, by omega⟩
  have hrun : (handleInnerFragment now payload).run engine = _ :=
    handleInnerFragment_fits (by omega) hfits
  rw [hid, hword8, hword10, hslice, htotal, hoffset] at hrun
  rw [handleApplicationDatagram, Act.run_bind, Act.run_get]
  simp only [h.authenticated, and_true, if_true]
  rw [if_neg fun hkind => absurd hkind.1 (by decide)]
  exact hrun

section Frame

variable {entry' : InnerReassembly}

theorem openEntry_frame (now : Instant) (id : UInt64) (totalLen : ℕ) (engine : QuicEngine hmac) :
    (engine.openEntry now id totalLen).connection = engine.connection ∧
      (engine.openEntry now id totalLen).events = engine.events ∧
      ∀ other, other ≠ id →
        (engine.openEntry now id totalLen).reassembly.get other = engine.reassembly.get other := by
  unfold openEntry
  split_ifs
  · exact ⟨rfl, rfl, fun _ _ => rfl⟩
  · exact ⟨rfl, rfl, fun _ _ => rfl⟩
  · exact ⟨rfl, rfl, fun other hne => by rw [HashMap.get_insert, if_neg hne]⟩

theorem filled_frame (id : UInt64) (entry : InnerReassembly) (engine : QuicEngine hmac) :
    (engine.filled id entry).connection = engine.connection ∧
      ∀ other, other ≠ id →
        (engine.filled id entry).reassembly.get other = engine.reassembly.get other := by
  unfold filled
  split_ifs
  · exact ⟨rfl, fun other hne => by rw [push, HashMap.get_remove, if_neg hne]⟩
  · exact ⟨rfl, fun other hne => by rw [HashMap.get_insert, if_neg hne]⟩

theorem get_filled (id : UInt64) (entry : InnerReassembly) (engine : QuicEngine hmac) :
    (engine.filled id entry).reassembly.get id =
      if entry.receivedCount = entry.packet.length then none else some entry := by
  unfold filled
  split_ifs
  · rw [push, HashMap.get_remove, if_pos rfl]
  · rw [HashMap.get_insert, if_pos rfl]

theorem events_filled (id : UInt64) (entry : InnerReassembly) (engine : QuicEngine hmac) :
    (engine.filled id entry).events = engine.events ++
      if entry.receivedCount = entry.packet.length then [.innerPacket entry.packet] else [] := by
  unfold filled
  split_ifs
  · rfl
  · rw [List.append_nil]

end Frame

theorem datagramAt_eq_some {sent : List Emission} {i j : ℕ} {d : Bytes} :
    datagramAt sent i j = some d ↔ ∃ e, sent[i]? = some e ∧ e.datagrams[j]? = some d := by
  rw [datagramAt, Option.bind_eq_some_iff]

/-- What an arrival makes of the receiver. -/
inductive Takes (sent : List Emission) (engine : QuicEngine hmac) :
    Arrival → QuicEngine hmac → Prop
  | prune (now : Instant) : Takes sent engine (.prune now) (engine.pruneReassembly now)
  | plain (now : Instant) {i : ℕ} {e : Emission} (hi : sent[i]? = some e) (hp : e.Plain) :
      Takes sent engine (.datagram now i 0) (engine.push (.innerPacket e.packet))
  | refused (now : Instant) {i j size : ℕ} {e : Emission} (hi : sent[i]? = some e)
      (hs : e.Split size) (hnone : engine.reassembly.get e.packetId = none)
      (hfull : ¬ engine.HasRoom e.packet.length) : Takes sent engine (.datagram now i j) engine
  | filled (now : Instant) {i j size : ℕ} {e : Emission} {entry entry' : InnerReassembly}
      (hi : sent[i]? = some e) (hs : e.Split size) (hj : j * size < e.packet.length)
      (hget : (engine.openEntry now e.packetId e.packet.length).reassembly.get e.packetId =
        some entry)
      (hholds : Holds entry e.packet)
      (hfilled : Filled entry (j * size)
        (e.packet.slice (j * size) (min e.packet.length (j * size + size))) entry') :
      Takes sent engine (.datagram now i j)
        ((engine.openEntry now e.packetId e.packet.length).filled e.packetId entry')

theorem Receiving.takes (h : Receiving sent engine) (hn : Numbered sent) {arrival : Arrival}
    (ha : arrival.Sent sent) : Takes sent engine arrival (receive sent engine arrival) := by
  cases arrival with
  | prune now => exact .prune now
  | datagram now i j =>
    obtain ⟨e, hi, hj⟩ := ha
    have hd : e.datagrams[j]? = some e.datagrams[j] := List.getElem?_eq_getElem hj
    have hreceive : receive sent engine (.datagram now i j) =
        ((handleApplicationDatagram now e.datagrams[j]).run engine).2 := by
      rw [receive, datagramAt_eq_some.mpr ⟨e, hi, hd⟩]
    rw [hreceive]
    rcases hn.forms e (List.mem_of_getElem? hi) with hidle | hplain | ⟨size, hs⟩
    · simp [hidle.datagrams] at hj
    · have hj0 : j = 0 := by
        rw [hplain.datagrams, List.length_singleton] at hj
        omega
      subst hj0
      have hhead : e.datagrams[0] = innerPacket :: e.packet := by simp [hplain.datagrams]
      have hrun : ((handleApplicationDatagram now e.datagrams[0]).run engine).2 =
          engine.push (.innerPacket e.packet) := by
        rw [hhead, handleApplicationDatagram, Act.run_bind, Act.run_get]
        simp only [h.authenticated, hplain.nonempty, ne_eq, not_false_eq_true, and_self, if_true]
        rfl
      rw [hrun]
      exact .plain now hi hplain
    · rw [run_fragment h hs hd]
      have hlt : j * size < e.packet.length :=
        (lt_fragments_iff hs.pos).mp (hj.trans_le hs.datagrams.length_le)
      have hpos := hs.pos
      have hsize := hs.size_lt
      have hacc : (engine.openEntry now e.packetId e.packet.length).Accounted :=
        h.accounted.openEntry now e.packetId (by omega) hs.length_le
      have hstop : j * size + (e.packet.slice (j * size)
          (min e.packet.length (j * size + size))).length ≤ e.packet.length := by
        rw [length_slice_fragment hlt]
        exact Nat.min_le_left _ _
      have hfill : ∀ entry, (engine.openEntry now e.packetId e.packet.length).reassembly.get
          e.packetId = some entry → Holds entry e.packet → Takes sent engine (.datagram now i j)
          ((fillEntry e.packetId e.packet.length (j * size) (e.packet.slice (j * size)
            (min e.packet.length (j * size + size)))).run
            (engine.openEntry now e.packetId e.packet.length)).2 := by
        intro entry hget hholds
        obtain ⟨entry', hfilled, hrun⟩ := fillEntry_run hacc hget hholds.length hstop
        rw [hrun]
        exact .filled now hi hs hlt hget hholds hfilled
      cases hget : engine.reassembly.get e.packetId with
      | some entry =>
        refine hfill entry ?_ (h.holds hn hi hs hget)
        rw [openEntry_of_some hget]
        exact hget
      | none =>
        by_cases hroom : engine.HasRoom e.packet.length
        · refine hfill (fresh now e.packet.length) ?_ (holds_fresh now e.packet)
          rw [openEntry_of_none hget hroom, HashMap.get_insert, if_pos rfl]
        · rw [openEntry_of_full hget hroom, fillEntry_none hget]
          exact .refused now hi hs hget hroom

/-- What an arrival adds is the packet it belongs to. -/
theorem Takes.events {arrival : Arrival} {engine' : QuicEngine hmac} (h : Receiving sent engine)
    (ht : Takes sent engine arrival engine') :
    ∃ added, engine'.events = engine.events ++ added ∧ ∀ event ∈ added,
      ∃ (i : ℕ) (e : Emission), arrival.Brings i ∧ sent[i]? = some e ∧
        event = .innerPacket e.packet := by
  cases ht with
  | prune now => exact ⟨[], (List.append_nil _).symm, by simp⟩
  | plain now hi hp =>
    refine ⟨_, rfl, fun event hevent => ⟨_, _, rfl, hi, List.mem_singleton.mp hevent⟩⟩
  | refused now hi hs hnone hfull => exact ⟨[], (List.append_nil _).symm, by simp⟩
  | @filled now i j size e entry entry' hi hs hj hget hholds hfilled =>
    have hsize := hs.size_lt
    have hacc : (engine.openEntry now e.packetId e.packet.length).Accounted :=
      h.accounted.openEntry now e.packetId (by omega) hs.length_le
    have hsound := hacc.entries _ _ hget
    have hholds' := hholds.filled hj hfilled
    rw [events_filled, (openEntry_frame now e.packetId e.packet.length engine).2.1]
    refine ⟨_, rfl, fun event hevent => ⟨i, e, rfl, hi, ?_⟩⟩
    split_ifs at hevent with hdone
    · have hflags : entry'.received.length = entry'.packet.length := by
        rw [hfilled.flags, hfilled.packetLength, hsound.flags]
      have hall := (count_eq_length_iff hflags hfilled.count).mp hdone
      rw [hholds'.length] at hall
      rw [List.mem_singleton.mp hevent, hholds'.complete hall]
    · cases hevent

theorem Takes.receiving {arrival : Arrival} {engine' : QuicEngine hmac}
    (h : Receiving sent engine) (ht : Takes sent engine arrival engine') :
    Receiving sent engine' := by
  cases ht with
  | prune now =>
    exact ⟨h.accounted.pruneReassembly now, h.authenticated, fun id entry hget =>
      h.entries id entry (HashMap.get_retain.mp hget).1⟩
  | plain now hi hp =>
    have ha := h.accounted
    exact ⟨⟨ha.entries, ha.bytes, ha.bytes_le, ha.len_le⟩, h.authenticated, h.entries⟩
  | refused now hi hs hnone hfull => exact h
  | @filled now i j size e entry entry' hi hs hj hget hholds hfilled =>
    have hsize := hs.size_lt
    have hacc : (engine.openEntry now e.packetId e.packet.length).Accounted :=
      h.accounted.openEntry now e.packetId (by omega) hs.length_le
    obtain ⟨hconn, -, hother⟩ := openEntry_frame now e.packetId e.packet.length engine
    obtain ⟨hconn', hother'⟩ := filled_frame e.packetId entry'
      (engine.openEntry now e.packetId e.packet.length)
    refine ⟨hacc.filled hget hfilled, ?_, fun id held hheld => ?_⟩
    · rw [isAuthenticated, hconn', hconn]
      exact h.authenticated
    · by_cases hid : id = e.packetId
      · subst hid
        rw [get_filled] at hheld
        split_ifs at hheld
        cases hheld
        exact ⟨i, size, e, hi, hs, rfl, hholds.filled hj hfilled⟩
      · rw [hother' id hid, hother id hid] at hheld
        exact h.entries id held hheld

end Step

section Runs

variable {arrivals : List Arrival}

theorem Receiving.receive (h : Receiving sent engine) (hn : Numbered sent) {arrival : Arrival}
    (ha : arrival.Sent sent) : Receiving sent (receive sent engine arrival) :=
  (h.takes hn ha).receiving h

theorem Receiving.receiveAll (h : Receiving sent engine) (hn : Numbered sent)
    (ha : ∀ arrival ∈ arrivals, arrival.Sent sent) :
    Receiving sent (receiveAll sent engine arrivals) := by
  induction arrivals generalizing engine with
  | nil => exact h
  | cons arrival rest ih =>
    exact ih (h.receive hn (ha _ List.mem_cons_self)) fun a hrest =>
      ha a (List.mem_cons_of_mem _ hrest)

theorem Receiving.produced (h : Receiving sent engine) (hn : Numbered sent) {arrival : Arrival}
    (ha : arrival.Sent sent) : ∀ event ∈ produced sent engine arrival,
      ∃ (i : ℕ) (e : Emission), arrival.Brings i ∧ sent[i]? = some e ∧
        event = .innerPacket e.packet := by
  obtain ⟨added, hevents, hadded⟩ := (h.takes hn ha).events h
  rw [QuicEngine.produced, hevents, List.drop_left]
  exact hadded

theorem delivered_append (i : ℕ) (before after : List Arrival) (engine : QuicEngine hmac) :
    delivered sent i (before ++ after) engine =
      delivered sent i before engine ++ delivered sent i after (receiveAll sent engine before) := by
  induction before generalizing engine with
  | nil => rfl
  | cons arrival before ih =>
    simp only [List.cons_append, delivered, ih, List.append_assoc]
    rfl

theorem delivered_eq_nil {i : ℕ} (h : ∀ arrival ∈ arrivals, ¬ arrival.Brings i)
    (engine : QuicEngine hmac) : delivered sent i arrivals engine = [] := by
  induction arrivals generalizing engine with
  | nil => rfl
  | cons arrival rest ih =>
    rw [delivered, if_neg (h _ List.mem_cons_self), List.nil_append]
    exact ih (fun a ha => h a (List.mem_cons_of_mem _ ha)) _

section Plain

variable {i : ℕ} {e : Emission}

theorem produced_plain (h : Receiving sent engine) (hn : Numbered sent) (hi : sent[i]? = some e)
    (hp : e.Plain) {arrival : Arrival} (ha : arrival.Sent sent) (hb : arrival.Brings i) :
    QuicEngine.produced sent engine arrival = [.innerPacket e.packet] := by
  have ht := h.takes hn ha
  rw [QuicEngine.produced]
  generalize QuicEngine.receive sent engine arrival = engine' at ht
  cases ht with
  | prune now => exact hb.elim
  | plain now hi' hp' =>
    obtain rfl : _ = i := hb
    rw [hi, Option.some_inj] at hi'
    rw [push, List.drop_left, hi']
  | refused now hi' hs hnone hfull =>
    obtain rfl : _ = i := hb
    rw [hi, Option.some_inj] at hi'
    exact absurd (hi' ▸ hs) hp.not_split
  | filled now hi' hs hj hget hholds hfilled =>
    obtain rfl : _ = i := hb
    rw [hi, Option.some_inj] at hi'
    exact absurd (hi' ▸ hs) hp.not_split

/-- A packet in one datagram is delivered with each of its arrivals. -/
theorem delivered_plain (h : Receiving sent engine) (hn : Numbered sent) (hi : sent[i]? = some e)
    (hp : e.Plain) (ha : ∀ arrival ∈ arrivals, arrival.Sent sent) :
    delivered sent i arrivals engine =
      List.replicate (arrivals.countP fun arrival => arrival.Brings i) (.innerPacket e.packet) := by
  induction arrivals generalizing engine with
  | nil => rfl
  | cons arrival rest ih =>
    have hsent := ha _ List.mem_cons_self
    have hrest := ih (h.receive hn hsent) fun a hrest => ha a (List.mem_cons_of_mem _ hrest)
    rw [delivered, hrest, List.countP_cons]
    by_cases hb : arrival.Brings i
    · rw [if_pos hb, produced_plain h hn hi hp hsent hb, if_pos (decide_eq_true hb)]
      rfl
    · rw [if_neg hb, if_neg (by simp [hb])]
      rfl

end Plain

section Split

variable {i size : ℕ} {e : Emission} {seen : List ℕ} {start : Instant}

/-- The flags of the entry are those of the fragments in `seen`. -/
def Marks (e : Emission) (size : ℕ) (seen : List ℕ) (entry : InnerReassembly) : Prop :=
  ∀ p < e.packet.length, entry.received[p]? = some true ↔ p / size ∈ seen

/-- Fragments of the packet have arrived since `start`, but not all. -/
structure Partial (e : Emission) (size : ℕ) (seen : List ℕ) (start : Instant)
    (engine : QuicEngine hmac) : Prop where
  missing : ∃ k, k * size < e.packet.length ∧ k ∉ seen
  entry : ∃ entry, engine.reassembly.get e.packetId = some entry ∧ entry.createdAt = start ∧
    Marks e size seen entry

theorem div_eq_iff_fragment {p j : ℕ} (hsize : 0 < size) (hp : p < e.packet.length) :
    p / size = j ↔ j * size ≤ p ∧ p < min e.packet.length (j * size + size) := by
  rw [Nat.div_eq_iff hsize]
  omega

theorem Marks.filled {entry entry' : InnerReassembly} {j : ℕ} (h : Marks e size seen entry)
    (hs : e.Split size) (hj : j * size < e.packet.length)
    (hf : Filled entry (j * size)
      (e.packet.slice (j * size) (min e.packet.length (j * size + size))) entry') :
    Marks e size (j :: seen) entry' := by
  intro p hp
  rw [hf.received, length_slice_fragment hj, List.mem_cons, div_eq_iff_fragment hs.pos hp, ← h p hp]
  split_ifs with hin
  · exact ⟨fun _ => .inl hin, fun _ => rfl⟩
  · exact (or_iff_right hin).symm

/-- A complete packet is one of which no fragment is missing. -/
theorem Marks.complete_iff {entry : InnerReassembly} (h : Marks e size seen entry)
    (hs : e.Split size) (hlen : entry.packet.length = e.packet.length)
    (hflags : entry.received.length = entry.packet.length)
    (hcount : entry.receivedCount = entry.received.count true) :
    entry.receivedCount = entry.packet.length ↔ ∀ k, k * size < e.packet.length → k ∈ seen := by
  rw [count_eq_length_iff hflags hcount, hlen]
  constructor
  · intro hall k hk
    have hmem := (h (k * size) hk).mp (hall _ hk)
    rwa [Nat.mul_div_cancel k hs.pos] at hmem
  · intro hall p hp
    exact (h p hp).mpr (hall _ ((Nat.div_mul_le_self p size).trans_lt hp))

/-- A fragment either completes the packet or leaves it open with one more of its
fragments. -/
theorem arrive_fragment (h : Receiving sent engine) (hs : e.Split size) {now : Instant} {j : ℕ}
    {entry entry' : InnerReassembly} (hj : j * size < e.packet.length)
    (hget : (engine.openEntry now e.packetId e.packet.length).reassembly.get e.packetId =
      some entry) (hholds : Holds entry e.packet) (hmarks : Marks e size seen entry)
    (hf : Filled entry (j * size)
      (e.packet.slice (j * size) (min e.packet.length (j * size + size))) entry') :
    let engine' := (engine.openEntry now e.packetId e.packet.length).filled e.packetId entry'
    ((∀ k, k * size < e.packet.length → k ∈ j :: seen) ∧
        engine'.events = engine.events ++ [.innerPacket e.packet]) ∨
      (Partial e size (j :: seen) entry.createdAt engine' ∧ engine'.events = engine.events) := by
  have hsize := hs.size_lt
  have hacc : (engine.openEntry now e.packetId e.packet.length).Accounted :=
    h.accounted.openEntry now e.packetId (by omega) hs.length_le
  have hsound := hacc.entries _ _ hget
  have hflags : entry'.received.length = entry'.packet.length := by
    rw [hf.flags, hf.packetLength, hsound.flags]
  have hholds' := hholds.filled hj hf
  have hmarks' := hmarks.filled hs hj hf
  have hdone := hmarks'.complete_iff hs hholds'.length hflags hf.count
  dsimp only
  rw [events_filled, (openEntry_frame now e.packetId e.packet.length engine).2.1]
  by_cases hcount : entry'.receivedCount = entry'.packet.length
  · left
    have hall := (count_eq_length_iff hflags hf.count).mp hcount
    rw [hholds'.length] at hall
    rw [if_pos hcount, hholds'.complete hall]
    exact ⟨hdone.mp hcount, rfl⟩
  · right
    rw [if_neg hcount, List.append_nil]
    refine ⟨⟨?_, entry', ?_, hf.createdAt, hmarks'⟩, rfl⟩
    · by_contra hnone
      push Not at hnone
      exact hcount (hdone.mpr hnone)
    · rw [get_filled, if_neg hcount]

/-- The entry of the packet is touched by its own fragments and by prunings only. -/
theorem get_receive_other (h : Receiving sent engine) (hn : Numbered sent) (hi : sent[i]? = some e)
    (hs : e.Split size) {now : Instant} {k j : ℕ} (hk : k ≠ i)
    (ha : (Arrival.datagram now k j).Sent sent) :
    (QuicEngine.receive sent engine (.datagram now k j)).reassembly.get e.packetId =
      engine.reassembly.get e.packetId := by
  have ht := h.takes hn ha
  generalize QuicEngine.receive sent engine (.datagram now k j) = engine' at ht
  cases ht with
  | plain => rfl
  | refused => rfl
  | @filled _ _ _ size' e' entry entry' hk' hs' hj hget hholds hfilled =>
    have hne : e.packetId ≠ e'.packetId := fun hid => hk (hn.unique hk' hi hs' hs hid.symm)
    rw [(filled_frame _ _ _).2 _ hne, (openEntry_frame _ _ _ _).2.2 _ hne]

theorem get_prune {id : UInt64} {entry : InnerReassembly} {now : Instant}
    (hget : engine.reassembly.get id = some entry)
    (hnow : now < entry.createdAt + reassemblyTimeout) :
    (engine.pruneReassembly now).reassembly.get id = some entry := by
  refine HashMap.get_retain.mpr ⟨hget, decide_eq_true ?_⟩
  rcases le_total entry.createdAt now with hle | hle
  · exact Nat.sub_lt_left_of_lt_add hle hnow
  · rw [Nat.sub_eq_zero_of_le hle]
    decide

theorem get_prune_none {id : UInt64} (hget : engine.reassembly.get id = none) (now : Instant) :
    (engine.pruneReassembly now).reassembly.get id = none := by
  cases hpruned : (engine.pruneReassembly now).reassembly.get id with
  | none => rfl
  | some entry =>
    have hheld := (HashMap.get_retain.mp hpruned).1
    rw [hget] at hheld
    cases hheld

/-- Before its first fragment a packet has no entry. -/
theorem get_before (h : Receiving sent engine) (hn : Numbered sent) (hi : sent[i]? = some e)
    (hs : e.Split size) (hnone : engine.reassembly.get e.packetId = none)
    (ha : ∀ arrival ∈ arrivals, arrival.Sent sent)
    (hother : ∀ arrival ∈ arrivals, ¬ arrival.Brings i) :
    (QuicEngine.receiveAll sent engine arrivals).reassembly.get e.packetId = none := by
  induction arrivals generalizing engine with
  | nil => exact hnone
  | cons arrival rest ih =>
    have hsent := ha _ List.mem_cons_self
    refine ih (h.receive hn hsent) ?_ (fun a hrest => ha a (List.mem_cons_of_mem _ hrest))
      fun a hrest => hother a (List.mem_cons_of_mem _ hrest)
    cases arrival with
    | prune now => exact get_prune_none hnone now
    | datagram now k j =>
      rw [get_receive_other h hn hi hs (hother _ List.mem_cons_self) hsent]
      exact hnone

theorem Arrival.brings_iff {arrival : Arrival} {i : ℕ} :
    arrival.Brings i ↔ ∃ j, arrival.Is i j := by
  cases arrival with
  | prune now => simp [Arrival.Brings, Arrival.Is]
  | datagram now k j => simp [Arrival.Brings, Arrival.Is]

/-- A fragment of a packet that has an entry goes into it. -/
theorem Partial.arrive (hpart : Partial e size seen start engine) (h : Receiving sent engine)
    (hn : Numbered sent) (hi : sent[i]? = some e) (hs : e.Split size) {now : Instant} {j : ℕ}
    (ha : (Arrival.datagram now i j).Sent sent) :
    ((∀ k, k * size < e.packet.length → k ∈ j :: seen) ∧
        QuicEngine.produced sent engine (.datagram now i j) = [.innerPacket e.packet]) ∨
      (Partial e size (j :: seen) start (QuicEngine.receive sent engine (.datagram now i j)) ∧
        QuicEngine.produced sent engine (.datagram now i j) = []) := by
  obtain ⟨held, hheld, hstart, hmarks⟩ := hpart.entry
  have ht := h.takes hn ha
  rw [QuicEngine.produced]
  generalize QuicEngine.receive sent engine (.datagram now i j) = engine' at ht
  cases ht with
  | plain _ hi' hp =>
    rw [hi, Option.some_inj] at hi'
    exact absurd (hi' ▸ hs) hp.not_split
  | refused _ hi' hs' hnone hfull =>
    rw [hi, Option.some_inj] at hi'
    subst hi'
    rw [hheld] at hnone
    cases hnone
  | @filled _ _ _ size' e' entry entry' hi' hs' hj hget hholds hfilled =>
    rw [hi, Option.some_inj] at hi'
    subst hi'
    have hsizes : size' = size := by
      have hlimit := hs'.limit.symm.trans hs.limit
      rw [Option.some_inj] at hlimit
      omega
    subst hsizes
    have hsame : entry = held := by
      rw [openEntry_of_some hheld, hheld, Option.some_inj] at hget
      exact hget.symm
    subst hsame
    rcases arrive_fragment h hs' hj hget hholds hmarks hfilled with ⟨hall, hevents⟩ |
      ⟨hpart', hevents⟩
    · exact .inl ⟨hall, by rw [hevents, List.drop_left]⟩
    · exact .inr ⟨hstart ▸ hpart', by rw [hevents, List.drop_length]⟩

/-- Nothing of a packet is left to come when all its fragments are seen. -/
theorem not_brings_of_seen (hs : e.Split size) (hi : sent[i]? = some e)
    (ha : ∀ arrival ∈ arrivals, arrival.Sent sent)
    (hcount : ∀ k, k * size < e.packet.length →
      (arrivals.countP fun arrival => arrival.Is i k) = 0) :
    ∀ arrival ∈ arrivals, ¬ arrival.Brings i := by
  intro arrival hmem hb
  obtain ⟨j, hj⟩ := Arrival.brings_iff.mp hb
  have hsent := ha arrival hmem
  cases arrival with
  | prune now => exact hb
  | datagram now k l =>
    obtain ⟨rfl, rfl⟩ := hj
    obtain ⟨e', hi', hl⟩ := hsent
    rw [hi, Option.some_inj] at hi'
    subst hi'
    have hlt := (lt_fragments_iff hs.pos).mp (hl.trans_le hs.datagrams.length_le)
    have hzero := List.countP_eq_zero.mp (hcount l hlt) _ hmem
    exact hzero (decide_eq_true ⟨rfl, rfl⟩)

/-- Once the first fragment is there, the rest of them completes the packet. -/
theorem Partial.delivered (hpart : Partial e size seen start engine) (h : Receiving sent engine)
    (hn : Numbered sent) (hi : sent[i]? = some e) (hs : e.Split size)
    (ha : ∀ arrival ∈ arrivals, arrival.Sent sent)
    (hclock : arrivals.Pairwise fun a b => a.now ≤ b.now)
    (hlate : ∀ arrival ∈ arrivals, arrival.Brings i → arrival.now < start + reassemblyTimeout)
    (hcount : ∀ k, k * size < e.packet.length →
      (arrivals.countP fun arrival => arrival.Is i k) = if k ∈ seen then 0 else 1) :
    delivered sent i arrivals engine = [.innerPacket e.packet] := by
  -- along the arrivals; what is missing in the entry is still to come
  induction arrivals generalizing engine seen with
  | nil =>
    obtain ⟨k, hk, hnot⟩ := hpart.missing
    have hzero := hcount k hk
    rw [if_neg hnot] at hzero
    simp at hzero
  | cons arrival rest ih =>
    have hsent := ha _ List.mem_cons_self
    have harest : ∀ a ∈ rest, a.Sent sent := fun a hrest => ha a (List.mem_cons_of_mem _ hrest)
    have hnext := h.receive hn hsent
    obtain ⟨hfirst, hclock'⟩ := List.pairwise_cons.mp hclock
    have hlate' : ∀ a ∈ rest, a.Brings i → a.now < start + reassemblyTimeout :=
      fun a hrest => hlate a (List.mem_cons_of_mem _ hrest)
    rw [QuicEngine.delivered]
    by_cases hb : arrival.Brings i
    · obtain ⟨j, hj⟩ := Arrival.brings_iff.mp hb
      rw [if_pos hb]
      cases arrival with
      | prune now => exact hb.elim
      | datagram now k l =>
        obtain ⟨rfl, rfl⟩ := hj
        -- this fragment has not been there before and does not come again
        have hrest : ∀ m, m * size < e.packet.length →
            (rest.countP fun a => a.Is k m) = if m ∈ l :: seen then 0 else 1 := by
          intro m hm
          have hm' := hcount m hm
          rw [List.countP_cons] at hm'
          by_cases hml : m = l
          · subst hml
            rw [if_pos (decide_eq_true ⟨rfl, rfl⟩)] at hm'
            rw [if_pos List.mem_cons_self]
            split_ifs at hm'
            omega
          · rw [if_neg (by simp [Arrival.Is, Ne.symm hml])] at hm'
            simpa [hml] using hm'
        rcases hpart.arrive h hn hi hs hsent with ⟨hall, hprod⟩ | ⟨hpart', hprod⟩
        · rw [hprod, delivered_eq_nil (not_brings_of_seen hs hi harest fun m hm => by
            rw [hrest m hm, if_pos (hall m hm)])]
          rfl
        · rw [hprod, List.nil_append]
          exact ih hpart' hnext harest hclock' hlate' hrest
    · rw [if_neg hb, List.nil_append]
      have hcount' : ∀ m, m * size < e.packet.length →
          (rest.countP fun a => a.Is i m) = if m ∈ seen then 0 else 1 := by
        intro m hm
        rw [← hcount m hm, List.countP_cons,
          if_neg (by simpa using fun his => hb (Arrival.brings_iff.mpr ⟨m, his⟩)), Nat.add_zero]
      refine ih ?_ hnext harest hclock' hlate' hcount'
      obtain ⟨entry, hget, hstart, hmarks⟩ := hpart.entry
      refine ⟨hpart.missing, entry, ?_, hstart, hmarks⟩
      cases arrival with
      | datagram now k j =>
        rw [get_receive_other h hn hi hs hb hsent]
        exact hget
      | prune now =>
        -- a fragment that is still missing arrives later than this pruning
        obtain ⟨m, hm, hnot⟩ := hpart.missing
        have hone := hcount' m hm
        rw [if_neg hnot] at hone
        have hpos : 0 < rest.countP fun a => a.Is i m := by omega
        obtain ⟨a, hmem, his⟩ := List.countP_pos_iff.mp hpos
        have hlater := hlate' a hmem (Arrival.brings_iff.mpr ⟨m, of_decide_eq_true his⟩)
        refine get_prune hget ?_
        rw [hstart]
        exact lt_of_le_of_lt (hfirst a hmem) hlater

/-- The first fragment opens an entry if there is room for it. -/
theorem delivered_split (h : Receiving sent engine) (hn : Numbered sent) (hi : sent[i]? = some e)
    (hs : e.Split size) (hnone : engine.reassembly.get e.packetId = none)
    (hroom : engine.HasRoom e.packet.length) {now : Instant} {j : ℕ}
    (ha : ∀ arrival ∈ Arrival.datagram now i j :: arrivals, arrival.Sent sent)
    (hclock : arrivals.Pairwise fun a b => a.now ≤ b.now)
    (hlate : ∀ arrival ∈ arrivals, arrival.Brings i → arrival.now < now + reassemblyTimeout)
    (hcount : ∀ k, k * size < e.packet.length →
      (arrivals.countP fun arrival => arrival.Is i k) = if k ∈ [j] then 0 else 1) :
    delivered sent i (.datagram now i j :: arrivals) engine = [.innerPacket e.packet] := by
  have hsent := ha _ List.mem_cons_self
  have hopen : (engine.openEntry now e.packetId e.packet.length).reassembly.get e.packetId =
      some (fresh now e.packet.length) := by
    rw [openEntry_of_none hnone hroom, HashMap.get_insert, if_pos rfl]
  have hmarks : Marks e size [] (fresh now e.packet.length) := by
    intro p hp
    simp [fresh, hp]
  have ht := h.takes hn hsent
  have hnext := h.receive hn hsent
  rw [QuicEngine.delivered, if_pos (show Arrival.Brings i (.datagram now i j) from rfl),
    QuicEngine.produced]
  generalize QuicEngine.receive sent engine (.datagram now i j) = engine' at ht hnext
  cases ht with
  | plain _ hi' hp =>
    rw [hi, Option.some_inj] at hi'
    exact absurd (hi' ▸ hs) hp.not_split
  | refused _ hi' hs' hnone' hfull =>
    rw [hi, Option.some_inj] at hi'
    exact absurd (hi' ▸ hroom) hfull
  | @filled _ _ _ size' e' entry entry' hi' hs' hj hget hholds hfilled =>
    rw [hi, Option.some_inj] at hi'
    subst hi'
    have hsizes : size' = size := by
      have hlimit := hs'.limit.symm.trans hs.limit
      rw [Option.some_inj] at hlimit
      omega
    subst hsizes
    rw [hopen, Option.some_inj] at hget
    subst hget
    rcases arrive_fragment h hs' hj hopen hholds hmarks hfilled with ⟨hall, -⟩ | ⟨hpart, hevents⟩
    · -- there are at least two fragments
      have hlt := hs'.size_lt
      have h0 := hall 0 (by omega)
      have h1 := hall 1 (by omega)
      simp only [List.mem_singleton] at h0 h1
      omega
    · rw [hevents, List.drop_length, List.nil_append]
      exact hpart.delivered hnext hn hi hs' (fun a hrest => ha a (List.mem_cons_of_mem _ hrest))
        hclock hlate hcount

end Split

end Runs

/-- Emission `i` is sent whole, each of its datagrams arrives once and within the
timeout, and its first fragment finds room. -/
structure Intact (sent : List Emission) (receiver : QuicEngine hmac) (arrivals : List Arrival)
    (i : ℕ) (e : Emission) : Prop where
  emitted : sent[i]? = some e
  whole : e.result = .ok ()
  once : ∀ j < e.datagrams.length, (arrivals.countP fun arrival => arrival.Is i j) = 1
  timely : ∀ a ∈ arrivals, ∀ b ∈ arrivals, a.Brings i → b.Brings i →
    b.now < a.now + reassemblyTimeout
  room : 1 < e.datagrams.length → ∀ before a after, arrivals = before ++ a :: after →
    a.Brings i → (∀ b ∈ before, ¬ b.Brings i) →
    (receiveAll sent receiver before).HasRoom e.packet.length

theorem Intact.delivered {receiver : QuicEngine hmac} {arrivals : List Arrival} {i : ℕ}
    {e : Emission} (h : Intact sent receiver arrivals i e) (hr : Receiving sent receiver)
    (hempty : receiver.reassembly = .empty) (hn : Numbered sent)
    (ha : ∀ arrival ∈ arrivals, arrival.Sent sent)
    (hclock : arrivals.Pairwise fun a b => a.now ≤ b.now) :
    delivered sent i arrivals receiver = [.innerPacket e.packet] := by
  rcases hn.forms e (List.mem_of_getElem? h.emitted) with hidle | hplain | ⟨size, hs⟩
  · exact absurd h.whole hidle.result
  · have hsame : ∀ a ∈ arrivals, (decide (a.Brings i) = true ↔ decide (a.Is i 0) = true) := by
      intro a hmem
      rw [decide_eq_true_iff, decide_eq_true_iff, Arrival.brings_iff]
      refine ⟨fun ⟨j, hj⟩ => ?_, fun h0 => ⟨0, h0⟩⟩
      have hsent := ha a hmem
      cases a with
      | prune now => exact hj.elim
      | datagram now k l =>
        obtain ⟨rfl, rfl⟩ := hj
        obtain ⟨e', hi', hl⟩ := hsent
        rw [h.emitted, Option.some_inj] at hi'
        rw [← hi', hplain.datagrams, List.length_singleton] at hl
        exact ⟨rfl, by omega⟩
    rw [delivered_plain hr hn h.emitted hplain ha, List.countP_congr hsame,
      h.once 0 (by simp [hplain.datagrams])]
    rfl
  · have hdatagrams := hs.whole h.whole
    have hcover : ∀ k, k * size < e.packet.length ↔ k < e.datagrams.length := by
      intro k
      rw [hdatagrams, lt_fragments_iff hs.pos]
    have hlt := hs.size_lt
    have htwo : 1 < e.datagrams.length := (hcover 1).mp (by omega)
    -- the first of its fragments to arrive
    obtain ⟨first, hfirst, his⟩ : ∃ a ∈ arrivals, a.Is i 0 := by
      have hone := h.once 0 (by omega)
      have hpos : 0 < arrivals.countP fun a => a.Is i 0 := by omega
      obtain ⟨a, hmem, his⟩ := List.countP_pos_iff.mp hpos
      exact ⟨a, hmem, of_decide_eq_true his⟩
    obtain ⟨a, hfind⟩ : ∃ a, arrivals.find? (fun a => a.Brings i) = some a := by
      rw [← Option.isSome_iff_exists, List.find?_isSome]
      exact ⟨first, hfirst, decide_eq_true (Arrival.brings_iff.mpr ⟨0, his⟩)⟩
    obtain ⟨hb, before, after, rfl, hbefore⟩ := List.find?_eq_some_iff_append.mp hfind
    have hb' : a.Brings i := of_decide_eq_true hb
    have hother : ∀ b ∈ before, ¬ b.Brings i := fun b hmem => by simpa using hbefore b hmem
    have habefore : ∀ b ∈ before, b.Sent sent := fun b hmem => ha b (List.mem_append_left _ hmem)
    have hr' := hr.receiveAll hn habefore
    have hnone := get_before hr hn h.emitted hs (by rw [hempty]; rfl) habefore hother
    have hclock' := (List.pairwise_append.mp hclock).2.1
    have htimely : ∀ b ∈ after, b.Brings i → b.now < a.now + reassemblyTimeout := fun b hmem =>
      h.timely a (by simp) b (by simp [hmem]) hb'
    have hroom := h.room htwo before a after rfl hb' hother
    rw [delivered_append, delivered_eq_nil hother, List.nil_append]
    cases a with
    | prune now => exact hb'.elim
    | datagram now k j =>
      obtain rfl : k = i := hb'
      refine delivered_split hr' hn h.emitted hs hnone hroom
        (fun b hmem => ha b (List.mem_append_right _ hmem)) (List.pairwise_cons.mp hclock').2
        htimely fun m hm => ?_
      have hone := h.once m ((hcover m).mp hm)
      have hzero : (before.countP fun b => b.Is k m) = 0 := by
        refine List.countP_eq_zero.mpr fun b hmem hb => hother b hmem ?_
        exact Arrival.brings_iff.mpr ⟨m, of_decide_eq_true hb⟩
      rw [List.countP_append, hzero, List.countP_cons, Nat.zero_add] at hone
      by_cases hmj : m = j
      · subst hmj
        rw [if_pos (decide_eq_true ⟨rfl, rfl⟩)] at hone
        rw [if_pos (List.mem_singleton_self m)]
        omega
      · rw [if_neg (by simp [Arrival.Is, Ne.symm hmj])] at hone
        rw [if_neg (by simp [hmj])]
        omega

/-- Whatever a sender emits and however its datagrams reach an authenticated receiver:
packets of the admitted lengths go out whole, datagrams keep to the limits they were
sent under, every inner packet the receiver hands over is one that was sent, and a
packet that arrives intact is handed over once. -/
theorem inner_packets_round_trip {hmac' : Hmac} (sender : QuicEngine hmac') (calls : List Call)
    (receiver : QuicEngine hmac) (arrivals : List Arrival)
    (hcount : (emissions calls sender).length < 2 ^ 64)
    (hauth : receiver.isAuthenticated = true) (hempty : receiver.reassembly = .empty)
    (hbytes : receiver.reassemblyBytes = 0)
    (hsent : ∀ arrival ∈ arrivals, arrival.Sent (emissions calls sender))
    (hclock : arrivals.Pairwise fun a b => a.now ≤ b.now) :
    (∀ (engine : QuicEngine hmac') (answers : Answers) (packet : Bytes) (m : ℕ),
      engine.isAuthenticated = true → packet ≠ [] → packet.length ≤ maxInnerPacketLen →
      answers.maxDatagramSize = some m → innerFragmentHeaderLen < m →
      (∀ k, answers.accepts k = true) → (engine.emission answers packet).result = .ok ()) ∧
    (∀ e ∈ emissions calls sender, ∀ d ∈ e.datagrams,
      ∃ m, e.maxDatagramSize = some m ∧ d.length ≤ m) ∧
    (∀ before arrival after, arrivals = before ++ arrival :: after →
      ∀ event ∈ produced (emissions calls sender)
          (receiveAll (emissions calls sender) receiver before) arrival,
        ∃ e ∈ emissions calls sender, event = .innerPacket e.packet) ∧
    ∀ i e, Intact (emissions calls sender) receiver arrivals i e →
      delivered (emissions calls sender) i arrivals receiver = [.innerPacket e.packet] := by
  have hn := numbered_emissions calls sender hcount
  have hr : Receiving (emissions calls sender) receiver := by
    refine ⟨⟨?_, ?_, ?_, ?_⟩, hauth, ?_⟩
    · intro id entry hget
      rw [hempty] at hget
      cases hget
    · rw [hempty, hbytes, HashMap.sum_empty]
    · rw [hbytes]
      exact Nat.zero_le _
    · rw [hempty]
      exact Nat.zero_le _
    · intro id entry hget
      rw [hempty] at hget
      cases hget
  refine ⟨fun engine answers packet m => emission_ok,
    fun e he d hd => Emission.length_le (hn.forms e he) hd, ?_, ?_⟩
  · rintro before arrival after rfl event hevent
    have hbefore := hr.receiveAll hn fun a hmem => hsent a (List.mem_append_left _ hmem)
    obtain ⟨i, e, -, hi, rfl⟩ := hbefore.produced hn (hsent arrival (by simp)) event hevent
    exact ⟨e, List.mem_of_getElem? hi, rfl⟩
  · intro i e hintact
    exact hintact.delivered hr hempty hn hsent hclock

/-- An authenticated engine with nothing in reassembly. -/
def idlePeer : QuicEngine fun key _ => key :=
  let start : QuicEngine fun key _ => key := emptyEngine (Vector.replicate 32 0) 8 0 1 .server
  let auth := { AuthState.default with authenticated := true }
  { start with connection := some { ManagedConnection.new 0 0 with auth } }

def smallLimit : Answers where
  handled := none
  draws := []
  maxDatagramSize := some 26
  accepts := fun _ => true
  attempts := []
  drive := ⟨⟨[], [], 0, [], []⟩, ⟨[], [], 0, [], []⟩, []⟩

def shortPacket : Bytes := (List.range 26).map UInt8.ofNat

/-- Its two fragments, in the other order. -/
def twoFragments : List Arrival := [.datagram 1 0 1, .prune 2, .datagram 3 0 0]

theorem round_trip_shortPacket :
    delivered (emissions [.sendInner smallLimit 0 shortPacket] idlePeer) 0 twoFragments idlePeer =
      [.innerPacket shortPacket] := by
  have hlength : (idlePeer.emission smallLimit shortPacket).datagrams.length = 2 := by
    decide +kernel
  have hsent : ∀ arrival ∈ twoFragments,
      arrival.Sent (emissions [.sendInner smallLimit 0 shortPacket] idlePeer) := by
    intro arrival hmem
    fin_cases hmem
    · exact ⟨_, rfl, by rw [hlength]; decide⟩
    · exact trivial
    · exact ⟨_, rfl, by rw [hlength]; decide⟩
  refine (inner_packets_round_trip idlePeer [.sendInner smallLimit 0 shortPacket] idlePeer
    twoFragments (by decide) rfl rfl rfl hsent (by simp [twoFragments, Arrival.now])).2.2.2 0
    (idlePeer.emission smallLimit shortPacket) ⟨rfl, rfl, ?_, ?_, ?_⟩
  · intro j hj
    rw [hlength] at hj
    interval_cases j <;> decide
  · intro a ha b hb
    fin_cases ha <;> fin_cases hb <;> decide
  · intro _ before a after heq ha hbefore
    cases before with
    | nil => exact ⟨by decide, by decide⟩
    | cons first rest =>
      simp only [twoFragments, List.cons_append, List.cons.injEq] at heq
      exact absurd rfl (heq.1 ▸ hbefore first List.mem_cons_self)

end NewProxy.QuicEngine
