import NewProxy.QuicEngine
import NewProxy.PacketSafety

/-!
# Reassembly of inner packets

What one fragment does to the table, whatever its bytes are. The flags of an entry
say which bytes of it have arrived and are counted along with them; the bytes held in
all entries are counted beside the table. As long as both counts are right, no access
of the loop over a fragment fails and nothing is subtracted that is not there.
-/
namespace NewProxy

open Quic

namespace Quic

variable {entry entry' : InnerReassembly} {position totalLen : ℕ} {fragment : Bytes}

namespace InnerReassembly

/-- An entry that is still open and counts its flags. -/
structure Sound (entry : InnerReassembly) : Prop where
  flags : entry.received.length = entry.packet.length
  count : entry.receivedCount = entry.received.count true
  length_le : entry.packet.length ≤ maxInnerPacketLen
  open_ : entry.receivedCount < entry.packet.length

/-- `entry'` is `entry` with the fragment written from `position` on. -/
structure Filled (entry : InnerReassembly) (position : ℕ) (fragment : Bytes)
    (entry' : InnerReassembly) : Prop where
  createdAt : entry'.createdAt = entry.createdAt
  packetLength : entry'.packet.length = entry.packet.length
  packet : ∀ p, entry'.packet[p]? = if position ≤ p ∧ p < position + fragment.length
    then fragment[p - position]? else entry.packet[p]?
  flags : entry'.received.length = entry.received.length
  received : ∀ p, entry'.received[p]? = if position ≤ p ∧ p < position + fragment.length
    then some true else entry.received[p]?
  count : entry'.receivedCount = entry'.received.count true

/-- All bytes have arrived exactly when the count says so. -/
theorem count_eq_length_iff (hflags : entry.received.length = entry.packet.length)
    (hcount : entry.receivedCount = entry.received.count true) :
    entry.receivedCount = entry.packet.length ↔
      ∀ p < entry.packet.length, entry.received[p]? = some true := by
  rw [hcount, ← hflags, List.count_eq_length]
  constructor
  · intro hall p hp
    rw [List.getElem?_eq_getElem hp, hall _ (List.getElem_mem hp)]
  · intro hall b hb
    obtain ⟨p, hp, rfl⟩ := List.mem_iff_getElem.mp hb
    have hget := hall p hp
    rw [List.getElem?_eq_getElem hp, Option.some_inj] at hget
    exact hget.symm

theorem count_le_length (hflags : entry.received.length = entry.packet.length)
    (hcount : entry.receivedCount = entry.received.count true) :
    entry.receivedCount ≤ entry.packet.length := by
  rw [hcount, ← hflags]
  exact List.count_le_length

/-- The entry a packet begins with. -/
def fresh (now : Instant) (totalLen : ℕ) : InnerReassembly :=
  ⟨now, List.replicate totalLen 0, List.replicate totalLen false, 0⟩

theorem fresh_sound (now : Instant) (hpos : 0 < totalLen) (hle : totalLen ≤ maxInnerPacketLen) :
    (fresh now totalLen).Sound where
  flags := by simp [fresh]
  count := by simp [fresh, List.count_replicate]
  length_le := by simpa [fresh] using hle
  open_ := by simpa [fresh] using hpos

end InnerReassembly

open InnerReassembly

/-- The flag of one position is set, and counted unless it was. -/
theorem mark_position {received : List Bool} {seen : Bool} (h : received[position]? = some seen) :
    (if seen then received else received.set position true) = received.set position true ∧
      (received.set position true).count true = received.count true + (if seen then 0 else 1) := by
  have hp : position < received.length := (List.getElem?_eq_some_iff.mp h).1
  have hget : received[position] = seen := (List.getElem?_eq_some_iff.mp h).2
  cases seen with
  | true =>
    have hset : received.set position true = received := by
      rw [← hget]
      exact List.set_getElem_self hp
    simp [hset]
  | false => simp [List.count_set hp, hget]

theorem receiveBytes_filled (fragment : Bytes) (position : ℕ) (entry : InnerReassembly)
    (hflags : entry.received.length = entry.packet.length)
    (hcount : entry.receivedCount = entry.received.count true)
    (hroom : position + fragment.length ≤ entry.packet.length) :
    ∃ entry', QuicEngine.receiveBytes fragment position entry = .ok entry' ∧
      Filled entry position fragment entry' := by
  -- along the bytes; the flags and their count stay right at every position
  induction fragment generalizing position entry with
  | nil =>
    refine ⟨entry, rfl, rfl, rfl, fun p => ?_, rfl, fun p => ?_, hcount⟩
    all_goals rw [if_neg (by simp only [List.length_nil]; omega)]
  | cons byte rest ih =>
    rw [List.length_cons] at hroom
    have hp : position < entry.packet.length := by omega
    have hp' : position < entry.received.length := by omega
    obtain ⟨seen, hseen⟩ : ∃ seen, entry.received[position]? = some seen :=
      ⟨_, List.getElem?_eq_getElem hp'⟩
    obtain ⟨hmark, hmarked⟩ := mark_position hseen
    let next : InnerReassembly :=
      ⟨entry.createdAt, entry.packet.set position byte, entry.received.set position true,
        entry.receivedCount + if seen then 0 else 1⟩
    have hstep : QuicEngine.receiveBytes (byte :: rest) position entry =
        QuicEngine.receiveBytes rest (position + 1) next := by
      have hpacket : (if seen then entry else { entry with
          received := entry.received.set position true
          receivedCount := entry.receivedCount + 1 }) =
          ⟨entry.createdAt, entry.packet, entry.received.set position true,
            entry.receivedCount + if seen then 0 else 1⟩ := by
        rw [← hmark]
        cases seen <;> rfl
      simp only [QuicEngine.receiveBytes, hseen, Outcome.expect, Outcome.bind_ok, hpacket,
        List.getElem?_eq_getElem hp]
      rfl
    obtain ⟨entry', hrun, hfilled⟩ := ih (position + 1) next (by simpa [next] using hflags)
      (by simp only [next, hmarked, hcount]) (by simp only [next, List.length_set]; omega)
    refine ⟨entry', hstep.trans hrun, hfilled.createdAt, ?_, fun p => ?_, ?_, fun p => ?_,
      hfilled.count⟩
    · simpa [next] using hfilled.packetLength
    · rw [hfilled.packet, List.length_cons]
      by_cases hat : p = position
      · subst hat
        simp [next, hp]
      · have hset : next.packet[p]? = entry.packet[p]? := List.getElem?_set_ne (Ne.symm hat)
        rw [hset]
        by_cases hlo : position + 1 ≤ p
        · have hsub : p - position = p - (position + 1) + 1 := by omega
          rw [hsub, List.getElem?_cons_succ]
          exact if_congr (by omega) rfl rfl
        · rw [if_neg (by omega), if_neg (by omega)]
    · simpa [next] using hfilled.flags
    · rw [hfilled.received, List.length_cons]
      by_cases hat : p = position
      · subst hat
        simp [next, hp']
      · have hset : next.received[p]? = entry.received[p]? := List.getElem?_set_ne (Ne.symm hat)
        rw [hset]
        exact if_congr (by omega) rfl rfl

end Quic

namespace QuicEngine

open Quic.InnerReassembly

variable {hmac : Hmac} {engine : QuicEngine hmac} {now : Instant} {id : UInt64}
  {totalLen offset : ℕ} {fragment payload : Bytes}

abbrev packetLen (entry : InnerReassembly) : ℕ := entry.packet.length

/-- Every entry is sound, and the bytes held in all of them are counted. -/
structure Accounted (engine : QuicEngine hmac) : Prop where
  entries : ∀ id entry, engine.reassembly.get id = some entry → entry.Sound
  bytes : engine.reassemblyBytes = engine.reassembly.sum packetLen
  bytes_le : engine.reassemblyBytes ≤ maxReassemblyBytes
  len_le : engine.reassembly.len ≤ maxReassemblyEntries

/-- There is room for one more packet of this length. -/
def HasRoom (totalLen : ℕ) (engine : QuicEngine hmac) : Prop :=
  engine.reassembly.len < maxReassemblyEntries ∧
    engine.reassemblyBytes + totalLen ≤ maxReassemblyBytes

/-- A length the sender may announce, and a fragment that lies within it. -/
structure Fits (totalLen offset : ℕ) (fragment : Bytes) : Prop where
  length_le : totalLen ≤ maxInnerPacketLen
  offset_lt : offset < totalLen
  stop_le : offset + fragment.length ≤ totalLen

theorem fragmentFields_ok (h : innerFragmentHeaderLen ≤ payload.length) :
    fragmentFields payload = .ok (be64 (payload.slice 0 8), (payload.wordAt 8).toNat,
      (payload.wordAt 10).toNat, payload.slice 12 payload.length) := by
  have h13 : 13 ≤ payload.length := h
  simp only [fragmentFields, Bytes.range_ok (Nat.zero_le 8) (show 8 ≤ payload.length by omega),
    Bytes.word_ok (show 8 + 1 < payload.length by omega),
    Bytes.word_ok (show 10 + 1 < payload.length by omega),
    Bytes.range_ok (show 12 ≤ payload.length by omega) le_rfl, Outcome.bind_ok]
  rfl

section Open

theorem openEntry_of_some {entry : InnerReassembly} (h : engine.reassembly.get id = some entry) :
    engine.openEntry now id totalLen = engine := by
  rw [openEntry, if_pos (by simp [HashMap.contains, h])]

theorem openEntry_of_none (h : engine.reassembly.get id = none) (hroom : engine.HasRoom totalLen) :
    engine.openEntry now id totalLen =
      { engine with
        reassembly := engine.reassembly.insert id (fresh now totalLen)
        reassemblyBytes := engine.reassemblyBytes + totalLen } := by
  have hno : ¬ (maxReassemblyEntries ≤ engine.reassembly.len ∨
      maxReassemblyBytes < engine.reassemblyBytes + totalLen) := by
    rw [not_or, not_le, not_lt]
    exact hroom
  rw [openEntry, if_neg (by simp [HashMap.contains, h]), if_neg hno]
  rfl

theorem openEntry_of_full (h : engine.reassembly.get id = none)
    (hroom : ¬ engine.HasRoom totalLen) : engine.openEntry now id totalLen = engine := by
  have hno : maxReassemblyEntries ≤ engine.reassembly.len ∨
      maxReassemblyBytes < engine.reassemblyBytes + totalLen := by
    rwa [HasRoom, not_and_or, not_lt, not_le] at hroom
  rw [openEntry, if_neg (by simp [HashMap.contains, h]), if_pos hno]

theorem Accounted.openEntry (h : engine.Accounted) (now : Instant) (id : UInt64)
    (hpos : 0 < totalLen) (hle : totalLen ≤ maxInnerPacketLen) :
    (engine.openEntry now id totalLen).Accounted := by
  cases hget : engine.reassembly.get id with
  | some entry =>
    rw [openEntry_of_some hget]
    exact h
  | none =>
    by_cases hroom : engine.HasRoom totalLen
    · rw [openEntry_of_none hget hroom]
      refine ⟨fun other entry hentry => ?_, ?_, hroom.2, ?_⟩
      · rw [HashMap.get_insert] at hentry
        split_ifs at hentry with hother
        · cases hentry
          exact fresh_sound now hpos hle
        · exact h.entries other entry hentry
      · have hlen : packetLen (fresh now totalLen) = totalLen := by simp [packetLen, fresh]
        rw [HashMap.sum_insert_of_none _ hget, hlen, h.bytes, Nat.add_comm]
      · rw [HashMap.len_insert hget]
        exact hroom.1
    · rw [openEntry_of_full hget hroom]
      exact h

end Open

section Fill

/-- The table after a fragment: a complete packet leaves it and is handed over. -/
def filled (id : UInt64) (entry : InnerReassembly) (engine : QuicEngine hmac) : QuicEngine hmac :=
  if entry.receivedCount = entry.packet.length then
    push (.innerPacket entry.packet)
      { engine with
        reassembly := engine.reassembly.remove id
        reassemblyBytes := engine.reassemblyBytes - entry.packet.length }
  else { engine with reassembly := engine.reassembly.insert id entry }

theorem fillEntry_none (h : engine.reassembly.get id = none) :
    (fillEntry id totalLen offset fragment).run engine = (.ok (), engine) := by
  simp [fillEntry, Act.run_bind, h]

theorem fillEntry_ne {entry : InnerReassembly} (h : engine.reassembly.get id = some entry)
    (hne : entry.packet.length ≠ totalLen) :
    (fillEntry id totalLen offset fragment).run engine = (.ok (), engine) := by
  simp [fillEntry, Act.run_bind, h, hne]

theorem fillEntry_run {entry : InnerReassembly} (h : engine.Accounted)
    (hget : engine.reassembly.get id = some entry) (hlen : entry.packet.length = totalLen)
    (hstop : offset + fragment.length ≤ totalLen) :
    ∃ entry', Filled entry offset fragment entry' ∧
      (fillEntry id totalLen offset fragment).run engine = (.ok (), engine.filled id entry') := by
  have hsound := h.entries id entry hget
  obtain ⟨entry', hrun, hfilled⟩ :=
    receiveBytes_filled fragment offset entry hsound.flags hsound.count (by omega)
  refine ⟨entry', hfilled, ?_⟩
  have hlen' : entry'.packet.length = totalLen := hfilled.packetLength.trans hlen
  have hheld : totalLen ≤ engine.reassemblyBytes := by
    rw [h.bytes, ← hlen]
    exact HashMap.le_sum packetLen hget
  rw [fillEntry, Act.run_bind, Act.run_get]
  simp only [hget, hlen, ne_eq, not_true_eq_false, if_false]
  rw [filled, hlen']
  by_cases hdone : entry'.receivedCount = totalLen
  · simp [Act.run_bind, hrun, hdone, HashMap.get_insert, Act.expect, Outcome.expect, hlen', hheld]
  · simp [Act.run_bind, hrun, hdone]

theorem Accounted.filled {entry entry' : InnerReassembly} (h : engine.Accounted)
    (hget : engine.reassembly.get id = some entry) (hfilled : Filled entry offset fragment entry') :
    (engine.filled id entry').Accounted := by
  have hsound := h.entries id entry hget
  have hflags : entry'.received.length = entry'.packet.length := by
    rw [hfilled.flags, hfilled.packetLength, hsound.flags]
  have hremove := HashMap.sum_remove packetLen hget
  have hlen : packetLen entry' = packetLen entry := hfilled.packetLength
  rw [QuicEngine.filled]
  split_ifs with hdone
  · refine ⟨fun other held hheld => ?_, ?_, (Nat.sub_le _ _).trans h.bytes_le, ?_⟩
    · rw [push, HashMap.get_remove] at hheld
      split_ifs at hheld
      exact h.entries other held hheld
    · simp only [push, hfilled.packetLength, h.bytes, ← hremove, packetLen]
      omega
    · have hcard := HashMap.len_remove hget
      have hle := h.len_le
      simp only [push]
      omega
  · refine ⟨fun other held hheld => ?_, ?_, h.bytes_le, ?_⟩
    · rw [HashMap.get_insert] at hheld
      split_ifs at hheld with hother
      · cases hheld
        exact ⟨hflags, hfilled.count, hfilled.packetLength ▸ hsound.length_le,
          lt_of_le_of_ne (count_le_length hflags hfilled.count) hdone⟩
      · exact h.entries other held hheld
    · simp only [h.bytes, HashMap.sum_insert_remove, hlen, hremove]
    · have hcard := HashMap.len_remove hget
      have hinsert :
          (engine.reassembly.insert id entry').len = (engine.reassembly.remove id).len + 1 :=
        rfl
      have hle := h.len_le
      simp only [hinsert]
      omega

end Fill

section Fragment

/-- A payload whose fields do not fit together is ignored. -/
theorem handleInnerFragment_misfit
    (h : payload.length < innerFragmentHeaderLen ∨ ¬ Fits (payload.wordAt 8).toNat
      (payload.wordAt 10).toNat (payload.slice 12 payload.length)) :
    (handleInnerFragment now payload).run engine = (.ok (), engine) := by
  by_cases hshort : payload.length < innerFragmentHeaderLen
  · rw [handleInnerFragment, if_pos hshort]
    rfl
  · have hmisfit := h.resolve_left hshort
    have hcond : (payload.wordAt 8).toNat = 0 ∨ maxInnerPacketLen < (payload.wordAt 8).toNat ∨
        (payload.wordAt 8).toNat ≤ (payload.wordAt 10).toNat ∨ (payload.wordAt 8).toNat <
          (payload.wordAt 10).toNat + (payload.slice 12 payload.length).length := by
      by_contra hall
      push Not at hall
      exact hmisfit ⟨hall.2.1, hall.2.2.1, hall.2.2.2⟩
    rw [handleInnerFragment, if_neg hshort, Act.run_bind, fragmentFields_ok (not_lt.mp hshort),
      Act.run_call]
    simp only [if_pos hcond]
    rfl

theorem handleInnerFragment_fits (hlen : innerFragmentHeaderLen ≤ payload.length)
    (h : Fits (payload.wordAt 8).toNat (payload.wordAt 10).toNat
      (payload.slice 12 payload.length)) :
    (handleInnerFragment now payload).run engine =
      (fillEntry (be64 (payload.slice 0 8)) (payload.wordAt 8).toNat (payload.wordAt 10).toNat
        (payload.slice 12 payload.length)).run
        (engine.openEntry now (be64 (payload.slice 0 8)) (payload.wordAt 8).toNat) := by
  have hlt := h.offset_lt
  have hle := h.length_le
  have hstop := h.stop_le
  have hcond : ¬ ((payload.wordAt 8).toNat = 0 ∨ maxInnerPacketLen < (payload.wordAt 8).toNat ∨
      (payload.wordAt 8).toNat ≤ (payload.wordAt 10).toNat ∨ (payload.wordAt 8).toNat <
        (payload.wordAt 10).toNat + (payload.slice 12 payload.length).length) := by
    omega
  rw [handleInnerFragment, if_neg (not_lt.mpr hlen), Act.run_bind, fragmentFields_ok hlen,
    Act.run_call]
  simp only [if_neg hcond]
  rw [Act.run_bind, Act.run_modify]

theorem Accounted.fillEntry (h : engine.Accounted) (hstop : offset + fragment.length ≤ totalLen) :
    ∃ engine', (QuicEngine.fillEntry id totalLen offset fragment).run engine = (.ok (), engine') ∧
      engine'.Accounted := by
  cases hget : engine.reassembly.get id with
  | none => exact ⟨engine, fillEntry_none hget, h⟩
  | some entry =>
    by_cases hlen : entry.packet.length = totalLen
    · obtain ⟨entry', hfilled, hrun⟩ := fillEntry_run h hget hlen hstop
      exact ⟨_, hrun, h.filled hget hfilled⟩
    · exact ⟨engine, fillEntry_ne hget hlen, h⟩

/-- No payload breaks the accounts or makes the loop over it fail. -/
theorem Accounted.handleInnerFragment (h : engine.Accounted) (now : Instant) (payload : Bytes) :
    ∃ engine', (QuicEngine.handleInnerFragment now payload).run engine = (.ok (), engine') ∧
      engine'.Accounted := by
  by_cases hmisfit : payload.length < innerFragmentHeaderLen ∨ ¬ Fits (payload.wordAt 8).toNat
      (payload.wordAt 10).toNat (payload.slice 12 payload.length)
  · exact ⟨engine, handleInnerFragment_misfit hmisfit, h⟩
  · rw [not_or, not_lt, not_not] at hmisfit
    obtain ⟨hlen, hfits⟩ := hmisfit
    have hlt := hfits.offset_lt
    obtain ⟨engine', hrun, haccounted⟩ :=
      (h.openEntry now (be64 (payload.slice 0 8)) (by omega) hfits.length_le).fillEntry
      hfits.stop_le
    exact ⟨engine', (handleInnerFragment_fits hlen hfits).trans hrun, haccounted⟩

theorem Accounted.pruneReassembly (h : engine.Accounted) (now : Instant) :
    (engine.pruneReassembly now).Accounted where
  entries id entry hget := h.entries id entry (HashMap.get_retain.mp hget).1
  bytes := rfl
  bytes_le := by
    have hle := h.bytes_le
    rw [h.bytes] at hle
    exact (HashMap.sum_retain_le packetLen _ _).trans hle
  len_le := (HashMap.len_retain_le _ _).trans h.len_le

theorem accounted_clearReassembly (engine : QuicEngine hmac) :
    engine.clearReassembly.Accounted where
  entries id entry hget := by cases hget
  bytes := rfl
  bytes_le := Nat.zero_le _
  len_le := Nat.zero_le _

end Fragment

section Runs

/-- The calls that change the table. -/
inductive ReassemblyCall where
  | fragment (now : Instant) (payload : Bytes)
  | prune (now : Instant)
  | clear

def ReassemblyCall.act : ReassemblyCall → Act (QuicEngine hmac) Empty Unit
  | .fragment now payload => handleInnerFragment now payload
  | .prune now => Act.modify (pruneReassembly now)
  | .clear => Act.modify clearReassembly

theorem Accounted.act (h : engine.Accounted) (call : ReassemblyCall) :
    ∃ engine', call.act.run engine = (.ok (), engine') ∧ engine'.Accounted := by
  cases call with
  | fragment now payload => exact h.handleInnerFragment now payload
  | prune now => exact ⟨_, rfl, h.pruneReassembly now⟩
  | clear => exact ⟨_, rfl, accounted_clearReassembly engine⟩

theorem Accounted.forM (h : engine.Accounted) (calls : List ReassemblyCall) :
    ∃ engine', (calls.forM ReassemblyCall.act).run engine = (.ok (), engine') ∧
      engine'.Accounted := by
  induction calls generalizing engine with
  | nil => exact ⟨engine, rfl, h⟩
  | cons call rest ih =>
    obtain ⟨next, hrun, hnext⟩ := h.act call
    obtain ⟨engine', hrest, hlast⟩ := ih hnext
    exact ⟨engine', (Act.bind_of_ok hrun).trans hrest, hlast⟩

/-- Whatever arrives at an engine that began with an empty table, the calls succeed and
the accounts are right. -/
theorem reassembly_accounted (calls : List ReassemblyCall) (engine : QuicEngine hmac)
    (hempty : engine.reassembly = .empty) (hbytes : engine.reassemblyBytes = 0) :
    ∃ engine', (calls.forM ReassemblyCall.act).run engine = (.ok (), engine') ∧
      engine'.reassemblyBytes = engine'.reassembly.sum (fun entry => entry.packet.length) ∧
      engine'.reassemblyBytes ≤ 1024 * 1024 ∧ engine'.reassembly.len ≤ 4096 ∧
      ∀ id entry, engine'.reassembly.get id = some entry →
        entry.received.length = entry.packet.length ∧ 1 ≤ entry.packet.length ∧
        entry.packet.length ≤ 65535 ∧ entry.receivedCount = entry.received.count true ∧
        entry.receivedCount < entry.packet.length := by
  have hclear : engine.clearReassembly = engine := by
    rw [clearReassembly, ← hempty, ← hbytes]
  have hstart : engine.Accounted := hclear ▸ accounted_clearReassembly engine
  obtain ⟨engine', hrun, h⟩ := hstart.forM calls
  refine ⟨engine', hrun, h.bytes, h.bytes_le, h.len_le, fun id entry hget => ?_⟩
  have hsound := h.entries id entry hget
  have hopen := hsound.open_
  exact ⟨hsound.flags, by omega, hsound.length_le, hsound.count, hopen⟩

/-- Two overlapping fragments of a packet of four bytes complete it. -/
theorem reassembly_accounted_overlapping :
    ∃ engine', (List.forM [.fragment 0 [0, 0, 0, 0, 0, 0, 0, 7, 0, 4, 0, 0, 1, 2, 3], .prune 9,
        .fragment 1 [0, 0, 0, 0, 0, 0, 0, 7, 0, 4, 0, 2, 3, 4]] ReassemblyCall.act).run
        (emptyEngine (Vector.replicate 32 0) 8 0 1 .server : QuicEngine fun key _ => key) =
          (.ok (), engine') ∧
      engine'.reassemblyBytes ≤ 1024 * 1024 := by
  obtain ⟨engine', hrun, -, hle, -⟩ := reassembly_accounted
    [.fragment 0 [0, 0, 0, 0, 0, 0, 0, 7, 0, 4, 0, 0, 1, 2, 3], .prune 9,
      .fragment 1 [0, 0, 0, 0, 0, 0, 0, 7, 0, 4, 0, 2, 3, 4]]
    (emptyEngine (Vector.replicate 32 0) 8 0 1 .server : QuicEngine fun key _ => key) rfl rfl
  exact ⟨engine', hrun, hle⟩

end Runs

end QuicEngine

end NewProxy
