import NewProxy.Xsk

/-!
# No chunk is lost or used twice

The chunks of the memory fall into two halves. Those for TX are free, in the TX ring,
with the kernel, or in the completion ring; those for RX are in the fill ring, with the
kernel, or in the RX ring. `TxSide` and `RxSide` say so for every step of a call, with
what the call has read already and not published yet; the bounds of the rings follow
from the number of chunks.
-/
namespace NewProxy.Xsk

open RingBuffer

theorem Ring.slot_eq (index : UInt32) : Ring.slot index = index.toNat % 1024 := by
  rw [Ring.slot, UInt32.toNat_and, show Ring.mask.toNat = 2 ^ 10 - 1 from rfl,
    Nat.and_two_pow_sub_one_eq_mod]

namespace Ring

variable {α : Type} (ring : Ring α)

/-- The entries between two indices. -/
def between (head tail : UInt32) : List α := entries 1024 ring.descriptors head tail

variable {ring} {head tail : UInt32}

@[simp] theorem length_between : (ring.between head tail).length = (tail - head).toNat :=
  length_entries

theorem between_pop (h : head ≠ tail) :
    ring.between head tail = ring.read head :: ring.between (head + 1) tail := by
  rw [read, slot_eq]
  exact entries_pop (by decide) h

theorem between_push (hroom : (tail - head).toNat < 1024) (x : α) :
    (ring.write tail x).between head (tail + 1) = ring.between head tail ++ [x] := by
  rw [between, write, slot_eq]
  exact entries_push (by decide) (by decide) hroom x

end Ring

theorem toNat_succ {i n : UInt32} (h : i < n) : (i + 1).toNat = i.toNat + 1 := by
  have hlt := UInt32.lt_iff_toNat_lt.mp h
  have := n.toNat_lt
  rw [UInt32.toNat_add, UInt32.toNat_one]
  omega

theorem min_le (a b : UInt32) : min a b ≤ a := by
  change (if a ≤ b then a else b) ≤ a
  split_ifs with h
  · exact UInt32.le_refl a
  · exact UInt32.le_of_lt (UInt32.not_le.mp h)

section Lag

variable {producer announced consumer : UInt32} {lag : ℕ}

/-- The reader takes an entry while `lag` entries are written and not announced. -/
theorem lag_pop (h : consumer ≠ announced)
    (hlag : (announced - consumer).toNat + lag = (producer - consumer).toNat) :
    consumer ≠ producer ∧
      (announced - (consumer + 1)).toNat + lag = (producer - (consumer + 1)).toNat := by
  have hone := toNat_sub_succ h
  have hne : consumer ≠ producer := by
    rintro rfl
    rw [UInt32.sub_self, UInt32.toNat_zero] at hlag
    omega
  have hmore := toNat_sub_succ hne
  exact ⟨hne, by omega⟩

theorem eq_of_lag (h : lag = 0)
    (hlag : (announced - consumer).toNat + lag = (producer - consumer).toNat) :
    announced = producer := by
  rw [h, Nat.add_zero, UInt32.toNat_inj] at hlag
  exact (UInt32.sub_left_inj _).mp hlag

end Lag

/-- One element goes from one list to the end of the next. -/
theorem perm_hand_over {a : ℕ} {l : List ℕ} (h : a ∈ l) (before after : List ℕ) :
    (before ++ l.erase a ++ (after ++ [a])).Perm (before ++ l ++ after) := by
  refine List.perm_iff_count.mpr fun b => ?_
  have hl := (List.perm_cons_erase h).count_eq b
  simp only [List.count_append, List.count_cons, List.count_nil] at hl ⊢
  omega

namespace Call

/-- How many entries of the RX ring are read and not yet given back. -/
def rxOffset : Call → UInt32
  | .receiving _ offset => offset
  | _ => 0

/-- How many entries of the RX ring the call has seen. -/
def rxCount : Call → UInt32
  | .receiving count _ => count
  | _ => 0

/-- How many entries of the fill ring are not yet published. -/
def fillLag : Call → ℕ
  | .receiving _ offset => offset.toNat
  | .refilled count => count.toNat
  | _ => 0

def completionOffset : Call → UInt32
  | .reclaiming _ offset _ => offset
  | _ => 0

def completionCount : Call → UInt32
  | .reclaiming count _ _ => count
  | _ => 0

/-- The frames for which there is a free buffer each. -/
def frames : Call → List Bytes
  | .transmitting _ frames => frames
  | _ => []

/-- How many frames the batch has in all. -/
def batch : Call → ℕ
  | .transmitting count _ => count
  | _ => 0

/-- How many entries of the TX ring are not yet published. -/
def txLag : Call → ℕ
  | .transmitting count frames => count - frames.length
  | _ => 0

/-- A call that holds nothing of the RX half. -/
structure RxQuiet (call : Call) : Prop where
  rxOffset : call.rxOffset = 0
  rxCount : call.rxCount = 0
  fillLag : call.fillLag = 0

/-- A call that holds nothing of the TX half. -/
structure TxQuiet (call : Call) : Prop where
  completionOffset : call.completionOffset = 0
  completionCount : call.completionCount = 0
  frames : call.frames = []
  txLag : call.txLag = 0
  going : call ≠ .panicked

end Call

namespace Socket

def fillRing (s : Socket) : List ℕ := s.fill.between s.fill.consumer s.fillProducer

/-- The entry of the RX ring that is read next. -/
def rxHead (s : Socket) : UInt32 := s.rxConsumer + s.call.rxOffset

def unreadRx (s : Socket) : List XdpDesc := s.rx.between s.rxHead s.rx.producer

def txRing (s : Socket) : List XdpDesc := s.tx.between s.tx.consumer s.txProducer

def completionHead (s : Socket) : UInt32 := s.completionConsumer + s.call.completionOffset

def unreadCompletions (s : Socket) : List ℕ :=
  s.completion.between s.completionHead s.completion.producer

/-- Every RX chunk is in one place. -/
def RxConserved (s : Socket) : Prop :=
  (s.fillRing.map (· / chunkSize) ++ s.taken ++ s.unreadRx.map (·.addr / chunkSize)).Perm
    (List.range rxChunks)

/-- Every TX chunk is in one place. -/
def TxConserved (s : Socket) : Prop :=
  (s.freeTx ++ (s.txRing.map (·.addr) ++ s.sending) ++ s.unreadCompletions).Perm txAddresses

structure RxSide (s : Socket) : Prop where
  conserved : s.RxConserved
  consumer : s.rx.consumer = s.rxConsumer
  published : (s.fill.producer - s.fill.consumer).toNat + s.call.fillLag =
    (s.fillProducer - s.fill.consumer).toNat
  offset_le : s.call.rxOffset ≤ s.call.rxCount
  count_le : s.call.rxCount ≤ s.rx.producer - s.rxConsumer
  offset_lag : s.call.rxOffset.toNat ≤ s.call.fillLag

/-- A step after which the RX half is in order, and that overwrites none of its entries. -/
structure RxStep (s s' : Socket) : Prop where
  side : RxSide s'
  fill : Advances s.fill.consumer s'.fill.consumer s.fillRing s'.fillRing
  rx : Advances s.rxHead s'.rxHead s.unreadRx s'.unreadRx

structure TxSide (s : Socket) : Prop where
  conserved : s.TxConserved
  consumer : s.completion.consumer = s.completionConsumer
  published : (s.tx.producer - s.tx.consumer).toNat + s.call.txLag =
    (s.txProducer - s.tx.consumer).toNat
  offset_le : s.call.completionOffset ≤ s.call.completionCount
  count_le : s.call.completionCount ≤ s.completion.producer - s.completionConsumer
  offset_free : s.call.completionOffset.toNat ≤ s.freeTx.length
  frames_free : s.call.frames.length ≤ s.freeTx.length
  frames_batch : s.call.frames.length ≤ s.call.batch
  frames_fit : ∀ frame ∈ s.call.frames, frame.length ≤ chunkSize
  going : s.call ≠ .panicked

structure TxStep (s s' : Socket) : Prop where
  side : TxSide s'
  tx : Advances s.tx.consumer s'.tx.consumer s.txRing s'.txRing
  completion : Advances s.completionHead s'.completionHead s.unreadCompletions s'.unreadCompletions

/-- The RX half is untouched. -/
structure SameRx (s s' : Socket) : Prop where
  rx : s'.rx = s.rx
  fill : s'.fill = s.fill
  rxConsumer : s'.rxConsumer = s.rxConsumer
  fillProducer : s'.fillProducer = s.fillProducer
  taken : s'.taken = s.taken

/-- The TX half is untouched. -/
structure SameTx (s s' : Socket) : Prop where
  tx : s'.tx = s.tx
  completion : s'.completion = s.completion
  txProducer : s'.txProducer = s.txProducer
  completionConsumer : s'.completionConsumer = s.completionConsumer
  freeTx : s'.freeTx = s.freeTx
  sending : s'.sending = s.sending

section Rx

variable {s s' : Socket}

theorem RxSide.total (h : RxSide s) :
    (s.fillProducer - s.fill.consumer).toNat + s.taken.length + s.unreadRx.length = 1024 := by
  have hlen := h.conserved.length_eq
  simpa [fillRing, rxChunks, Nat.add_assoc] using hlen

theorem RxSide.unread_add (h : RxSide s) :
    s.unreadRx.length + s.call.rxOffset.toNat = (s.rx.producer - s.rxConsumer).toNat := by
  rw [unreadRx, rxHead, Ring.length_between]
  exact toNat_add_sub (UInt32.le_iff_toNat_le.mp (UInt32.le_trans h.offset_le h.count_le))

/-- Neither ring of the half is overrun, not even by what is unpublished. -/
theorem RxSide.bounded (h : RxSide s) :
    (s.fillProducer - s.fill.consumer).toNat ≤ 1024 ∧
      (s.rx.producer - s.rxConsumer).toNat ≤ 1024 := by
  have htotal := h.total
  have hunread := h.unread_add
  have hpublished := h.published
  have hlag := h.offset_lag
  omega

theorem SameRx.fillRing (h : SameRx s s') : s'.fillRing = s.fillRing := by
  rw [Socket.fillRing, h.fill, h.fillProducer, Socket.fillRing]

theorem SameRx.rxHead (h : SameRx s s') (hoffset : s'.call.rxOffset = s.call.rxOffset) :
    s'.rxHead = s.rxHead := by
  rw [Socket.rxHead, h.rxConsumer, hoffset, Socket.rxHead]

theorem SameRx.unreadRx (h : SameRx s s') (hoffset : s'.call.rxOffset = s.call.rxOffset) :
    s'.unreadRx = s.unreadRx := by
  rw [Socket.unreadRx, h.rx, h.rxHead hoffset, Socket.unreadRx]

theorem SameRx.conserved (h : SameRx s s') (hoffset : s'.call.rxOffset = s.call.rxOffset)
    (hconserved : s.RxConserved) : s'.RxConserved := by
  rw [RxConserved, h.fillRing, h.unreadRx hoffset, h.taken]
  exact hconserved

/-- A step of the other half. -/
theorem RxSide.frame (h : RxSide s) (hsame : SameRx s s') (hcall : s'.call = s.call) :
    RxStep s s' := by
  cases s
  cases s'
  obtain ⟨rfl, rfl, rfl, rfl, rfl⟩ := hsame
  subst hcall
  exact ⟨⟨h.conserved, h.consumer, h.published, h.offset_le, h.count_le, h.offset_lag⟩,
    .of_eq rfl rfl, .of_eq rfl rfl⟩

theorem RxSide.published_eq (h : RxSide s) (hlag : s.call.fillLag = 0) :
    s.fill.producer = s.fillProducer :=
  eq_of_lag hlag h.published

theorem RxSide.of_quiet (hconserved : s.RxConserved) (hconsumer : s.rx.consumer = s.rxConsumer)
    (hpublished : s.fill.producer = s.fillProducer) (hquiet : s.call.RxQuiet) : RxSide s := by
  obtain ⟨hoffset, hcount, hlag⟩ := hquiet
  refine ⟨hconserved, hconsumer, ?_, ?_, ?_, ?_⟩
  · rw [hpublished, hlag, Nat.add_zero]
  · rw [hoffset]
    exact UInt32.zero_le
  · rw [hcount]
    exact UInt32.zero_le
  · rw [hoffset]
    exact Nat.zero_le _

/-- The call goes on, with nothing taken from the RX half and nothing left there. -/
theorem RxSide.quiet (h : RxSide s) (hsame : SameRx s s') (hbefore : s.call.RxQuiet)
    (hafter : s'.call.RxQuiet) : RxStep s s' := by
  have hoffset : s'.call.rxOffset = s.call.rxOffset := by rw [hafter.rxOffset, hbefore.rxOffset]
  refine ⟨.of_quiet (hsame.conserved hoffset h.conserved) ?_ ?_ hafter,
    .of_eq (congrArg Ring.consumer hsame.fill) hsame.fillRing,
    .of_eq (hsame.rxHead hoffset) (hsame.unreadRx hoffset)⟩
  · rw [hsame.rx, hsame.rxConsumer]
    exact h.consumer
  · rw [hsame.fill, hsame.fillProducer]
    exact h.published_eq hbefore.fillLag

theorem RxSide.takeFill (h : RxSide s) (hstep : s.takeFill = some s') : RxStep s s' := by
  rw [Socket.takeFill] at hstep
  split_ifs at hstep with hempty
  cases hstep
  obtain ⟨hlocal, hpublished⟩ := lag_pop hempty h.published
  refine ⟨⟨?_, h.consumer, hpublished, h.offset_le, h.count_le, h.offset_lag⟩,
    .pop rfl (Ring.between_pop hlocal), .of_eq rfl rfl⟩
  refine List.Perm.trans ?_ h.conserved
  rw [fillRing, fillRing, Ring.between_pop hlocal, List.map_cons, List.cons_append,
    List.cons_append]
  exact List.perm_middle.append_right _

theorem RxSide.deliver (h : RxSide s) {chunk headroom : ℕ} {frame : Bytes}
    (hstep : s.deliver chunk headroom frame = some s') : RxStep s s' := by
  rw [Socket.deliver] at hstep
  split_ifs at hstep with hguard
  cases hstep
  obtain ⟨htaken, -, hroom⟩ := hguard
  have htotal := h.total
  have hbounded := h.bounded
  have hlen := List.length_pos_of_mem htaken
  have hunread : (s.rx.producer - (s.rxConsumer + s.call.rxOffset)).toNat < 1024 := by
    rw [unreadRx, rxHead, Ring.length_between] at htotal
    omega
  have hmore := toNat_succ_sub s.rx.producer s.rxConsumer (by omega)
  have hnew : Socket.unreadRx { s with
      umem := s.umem.copy (chunk * chunkSize + headroom) frame
      rx := { s.rx.write s.rx.producer ⟨chunk * chunkSize + headroom, frame.length⟩ with
        producer := s.rx.producer + 1 }
      taken := s.taken.erase chunk } =
      s.unreadRx ++ [⟨chunk * chunkSize + headroom, frame.length⟩] :=
    Ring.between_push hunread _
  refine ⟨⟨?_, h.consumer, h.published, h.offset_le, ?_, h.offset_lag⟩, .of_eq rfl rfl, .push hnew⟩
  · have hchunk : (chunk * chunkSize + headroom) / chunkSize = chunk := by
      rw [Nat.mul_comm, Nat.mul_add_div (by decide), Nat.div_eq_of_lt hroom, Nat.add_zero]
    refine List.Perm.trans ?_ h.conserved
    rw [hnew, List.map_append, List.map_singleton, hchunk]
    exact perm_hand_over htaken _ _
  · have hcount := UInt32.le_iff_toNat_le.mp h.count_le
    rw [UInt32.le_iff_toNat_le]
    exact hcount.trans (by rw [hmore]; exact Nat.le_succ _)

theorem RxSide.beginReceive (h : RxSide s) (hquiet : s.call.RxQuiet) {count : UInt32}
    (hcount : count ≤ s.rx.producer - s.rxConsumer) :
    RxStep s { s with call := .receiving count 0 } := by
  have hsame : SameRx s { s with call := .receiving count 0 } := ⟨rfl, rfl, rfl, rfl, rfl⟩
  have hoffset : (Call.receiving count 0).rxOffset = s.call.rxOffset := hquiet.rxOffset.symm
  have hpublished := h.published
  rw [hquiet.fillLag] at hpublished
  exact ⟨⟨hsame.conserved hoffset h.conserved, h.consumer, hpublished, UInt32.zero_le, hcount,
    le_refl _⟩, .of_eq rfl rfl, .of_eq (hsame.rxHead hoffset) (hsame.unreadRx hoffset)⟩

/-- One round of `receive_with`: the chunk goes from the RX ring to the fill ring. -/
theorem RxSide.receiveOne (h : RxSide s) {count offset : UInt32}
    (hcall : s.call = .receiving count offset) (hmore : offset < count) :
    RxStep s { s.receiveOne (s.rxConsumer + offset) with
      call := .receiving count (offset + 1) } := by
  have htotal := h.total
  have hadd := h.unread_add
  obtain ⟨hconserved, hconsumer, hpublished, -, hcount, -⟩ := h
  simp only [unreadRx, rxHead, hcall, Call.rxOffset, Call.rxCount, Call.fillLag,
    Ring.length_between] at htotal hadd hpublished hcount
  have hsucc := toNat_succ hmore
  have hle := UInt32.le_iff_toNat_le.mp hcount
  have hlt := UInt32.lt_iff_toNat_lt.mp hmore
  have hhead : s.rxHead = s.rxConsumer + offset := by rw [rxHead, hcall]; rfl
  have hread : s.rxConsumer + offset ≠ s.rx.producer := by
    intro heq
    rw [heq, UInt32.sub_self, UInt32.toNat_zero] at hadd
    omega
  have hone := toNat_sub_succ hread
  have hroom : (s.fillProducer - s.fill.consumer).toNat < 1024 := by omega
  have hfill : Socket.fillRing { s.receiveOne (s.rxConsumer + offset) with
      call := .receiving count (offset + 1) } =
      s.fillRing ++ [(s.rx.read (s.rxConsumer + offset)).addr] :=
    Ring.between_push hroom _
  have hunread : s.unreadRx = s.rx.read (s.rxConsumer + offset) ::
      Socket.unreadRx { s.receiveOne (s.rxConsumer + offset) with
        call := .receiving count (offset + 1) } := by
    rw [unreadRx, hhead]
    refine (Ring.between_pop hread).trans ?_
    rw [UInt32.add_assoc]
    rfl
  refine ⟨⟨?_, hconsumer, ?_, ?_, hcount, le_refl _⟩, .push hfill, .pop ?_ hunread⟩
  · refine List.Perm.trans ?_ hconserved
    rw [hfill, hunread, List.map_append, List.map_singleton, List.map_cons]
    refine List.perm_iff_count.mpr fun b => ?_
    simp only [List.count_append, List.count_cons, List.count_nil]
    change _ + List.count b s.taken + _ = _
    omega
  · have hfilled := toNat_succ_sub s.fillProducer s.fill.consumer (by omega)
    change (s.fill.producer - s.fill.consumer).toNat + (offset + 1).toNat =
      (s.fillProducer + 1 - s.fill.consumer).toNat
    omega
  · change offset + 1 ≤ count
    rw [UInt32.le_iff_toNat_le]
    omega
  · rw [hhead, UInt32.add_assoc]
    rfl

theorem RxSide.received (h : RxSide s) {count offset : UInt32}
    (hcall : s.call = .receiving count offset) (hdone : ¬ offset < count) :
    RxStep s { s with
      rxConsumer := s.rxConsumer + count
      rx := { s.rx with consumer := s.rxConsumer + count }
      call := .refilled count } := by
  obtain ⟨hconserved, hconsumer, hpublished, hoffset, hcount, hlag⟩ := h
  simp only [hcall, Call.rxOffset, Call.rxCount, Call.fillLag] at hpublished hoffset
  obtain rfl : offset = count := UInt32.le_antisymm hoffset (UInt32.not_lt.mp hdone)
  have hhead : Socket.rxHead { s with
      rxConsumer := s.rxConsumer + offset
      rx := { s.rx with consumer := s.rxConsumer + offset }
      call := .refilled offset } = s.rxHead := by
    rw [rxHead, rxHead, hcall]
    exact UInt32.add_zero _
  have hunread : Socket.unreadRx { s with
      rxConsumer := s.rxConsumer + offset
      rx := { s.rx with consumer := s.rxConsumer + offset }
      call := .refilled offset } = s.unreadRx := by
    rw [unreadRx, hhead]
    rfl
  refine ⟨⟨?_, rfl, hpublished, UInt32.le_refl _, UInt32.zero_le, Nat.zero_le _⟩, .of_eq rfl rfl,
    .of_eq hhead hunread⟩
  rw [RxConserved, hunread]
  exact hconserved

theorem RxSide.refilled (h : RxSide s) {count : UInt32} (hcall : s.call = .refilled count)
    (result : Option CallResult) : RxStep s { s.publishFill with call := .idle result } := by
  have hhead : Socket.rxHead { s.publishFill with call := .idle result } = s.rxHead := by
    rw [rxHead, rxHead, hcall]
    rfl
  have hunread : Socket.unreadRx { s.publishFill with call := .idle result } = s.unreadRx := by
    rw [unreadRx, hhead]
    rfl
  refine ⟨.of_quiet ?_ h.consumer rfl ⟨rfl, rfl, rfl⟩, .of_eq rfl rfl, .of_eq hhead hunread⟩
  rw [RxConserved, hunread]
  exact h.conserved

end Rx

section Tx

variable {s s' : Socket}

theorem TxSide.total (h : TxSide s) :
    s.freeTx.length + (s.txProducer - s.tx.consumer).toNat + s.sending.length +
      s.unreadCompletions.length = 1024 := by
  have hlen := h.conserved.length_eq
  simpa [txRing, txAddresses, chunkCount, rxChunks, Nat.add_assoc] using hlen

theorem TxSide.unread_add (h : TxSide s) :
    s.unreadCompletions.length + s.call.completionOffset.toNat =
      (s.completion.producer - s.completionConsumer).toNat := by
  rw [unreadCompletions, completionHead, Ring.length_between]
  exact toNat_add_sub (UInt32.le_iff_toNat_le.mp (UInt32.le_trans h.offset_le h.count_le))

theorem TxSide.bounded (h : TxSide s) :
    (s.txProducer - s.tx.consumer).toNat ≤ 1024 ∧
      (s.completion.producer - s.completionConsumer).toNat ≤ 1024 := by
  have htotal := h.total
  have hunread := h.unread_add
  have hfree := h.offset_free
  omega

theorem SameTx.txRing (h : SameTx s s') : s'.txRing = s.txRing := by
  rw [Socket.txRing, h.tx, h.txProducer, Socket.txRing]

theorem SameTx.completionHead (h : SameTx s s')
    (hoffset : s'.call.completionOffset = s.call.completionOffset) :
    s'.completionHead = s.completionHead := by
  rw [Socket.completionHead, h.completionConsumer, hoffset, Socket.completionHead]

theorem SameTx.unreadCompletions (h : SameTx s s')
    (hoffset : s'.call.completionOffset = s.call.completionOffset) :
    s'.unreadCompletions = s.unreadCompletions := by
  rw [Socket.unreadCompletions, h.completion, h.completionHead hoffset, Socket.unreadCompletions]

theorem SameTx.conserved (h : SameTx s s')
    (hoffset : s'.call.completionOffset = s.call.completionOffset) (hconserved : s.TxConserved) :
    s'.TxConserved := by
  rw [TxConserved, h.freeTx, h.txRing, h.unreadCompletions hoffset, h.sending]
  exact hconserved

/-- A step of the other half. -/
theorem TxSide.frame (h : TxSide s) (hsame : SameTx s s') (hcall : s'.call = s.call) :
    TxStep s s' := by
  cases s
  cases s'
  obtain ⟨rfl, rfl, rfl, rfl, rfl, rfl⟩ := hsame
  subst hcall
  exact ⟨⟨h.conserved, h.consumer, h.published, h.offset_le, h.count_le, h.offset_free,
    h.frames_free, h.frames_batch, h.frames_fit, h.going⟩, .of_eq rfl rfl, .of_eq rfl rfl⟩

theorem TxSide.takeTx (h : TxSide s) (hstep : s.takeTx = some s') : TxStep s s' := by
  rw [Socket.takeTx] at hstep
  split_ifs at hstep with hempty
  cases hstep
  obtain ⟨hlocal, hpublished⟩ := lag_pop hempty h.published
  refine ⟨⟨?_, h.consumer, hpublished, h.offset_le, h.count_le, h.offset_free, h.frames_free,
    h.frames_batch, h.frames_fit, h.going⟩, .pop rfl (Ring.between_pop hlocal), .of_eq rfl rfl⟩
  refine List.Perm.trans ?_ h.conserved
  rw [txRing, txRing, Ring.between_pop hlocal, List.map_cons, List.cons_append]
  exact (List.perm_middle.append_left _).append_right _

theorem TxSide.complete (h : TxSide s) {address : ℕ} (hstep : s.complete address = some s') :
    TxStep s s' := by
  rw [Socket.complete] at hstep
  split_ifs at hstep with hsending
  cases hstep
  have htotal := h.total
  have hbounded := h.bounded
  have hlen := List.length_pos_of_mem hsending
  have hunread :
      (s.completion.producer - (s.completionConsumer + s.call.completionOffset)).toNat < 1024 := by
    rw [unreadCompletions, completionHead, Ring.length_between] at htotal
    omega
  have hmore := toNat_succ_sub s.completion.producer s.completionConsumer (by omega)
  have hnew : Socket.unreadCompletions { s with
      completion := { s.completion.write s.completion.producer address with
        producer := s.completion.producer + 1 }
      sending := s.sending.erase address } = s.unreadCompletions ++ [address] :=
    Ring.between_push hunread _
  refine ⟨⟨?_, h.consumer, h.published, h.offset_le, ?_, h.offset_free, h.frames_free,
    h.frames_batch, h.frames_fit, h.going⟩, .of_eq rfl rfl, .push hnew⟩
  · refine List.Perm.trans ?_ h.conserved
    rw [hnew, ← List.append_assoc s.freeTx, ← List.append_assoc s.freeTx]
    exact perm_hand_over hsending _ _
  · have hcount := UInt32.le_iff_toNat_le.mp h.count_le
    rw [UInt32.le_iff_toNat_le]
    exact hcount.trans (by rw [hmore]; exact Nat.le_succ _)

theorem TxSide.beginReclaim (h : TxSide s) {frames : Option (List Bytes)}
    (hquiet : s.call.TxQuiet) :
    TxStep s { s with
      call := .reclaiming (s.completion.producer - s.completionConsumer) 0 frames } := by
  have hsame : SameTx s { s with
      call := .reclaiming (s.completion.producer - s.completionConsumer) 0 frames } :=
    ⟨rfl, rfl, rfl, rfl, rfl, rfl⟩
  have hoffset : (0 : UInt32) = s.call.completionOffset := hquiet.completionOffset.symm
  have hpublished := h.published
  rw [hquiet.txLag] at hpublished
  exact ⟨⟨hsame.conserved hoffset h.conserved, h.consumer, hpublished, UInt32.zero_le,
    UInt32.le_refl _, Nat.zero_le _, Nat.zero_le _, Nat.zero_le _, List.forall_mem_nil _, by simp⟩,
    .of_eq rfl rfl, .of_eq (hsame.completionHead hoffset)
    (hsame.unreadCompletions hoffset)⟩

/-- One round of `reclaim_completions`. -/
theorem TxSide.reclaimOne (h : TxSide s) {count offset : UInt32} {frames : Option (List Bytes)}
    (hcall : s.call = .reclaiming count offset frames) (hmore : offset < count) :
    TxStep s { s.reclaimOne (s.completionConsumer + offset) with
      call := .reclaiming count (offset + 1) frames } := by
  have hadd := h.unread_add
  obtain ⟨hconserved, hconsumer, hpublished, -, hcount, hfree, -, -, -, -⟩ := h
  simp only [unreadCompletions, completionHead, hcall, Call.completionOffset, Call.completionCount,
    Call.txLag, Ring.length_between] at hadd hpublished hcount hfree
  have hsucc := toNat_succ hmore
  have hle := UInt32.le_iff_toNat_le.mp hcount
  have hlt := UInt32.lt_iff_toNat_lt.mp hmore
  have hhead : s.completionHead = s.completionConsumer + offset := by
    rw [completionHead, hcall]
    rfl
  have hread : s.completionConsumer + offset ≠ s.completion.producer := by
    intro heq
    rw [heq, UInt32.sub_self, UInt32.toNat_zero] at hadd
    omega
  have hunread : s.unreadCompletions = s.completion.read (s.completionConsumer + offset) ::
      Socket.unreadCompletions { s.reclaimOne (s.completionConsumer + offset) with
        call := .reclaiming count (offset + 1) frames } := by
    rw [unreadCompletions, hhead]
    refine (Ring.between_pop hread).trans ?_
    rw [UInt32.add_assoc]
    rfl
  refine ⟨⟨?_, hconsumer, hpublished, ?_, hcount, ?_, Nat.zero_le _, Nat.zero_le _,
    by simp [Call.frames], by simp⟩, .of_eq rfl rfl, .pop ?_ hunread⟩
  · refine List.Perm.trans ?_ hconserved
    rw [hunread]
    refine List.perm_iff_count.mpr fun b => ?_
    change List.count b (s.freeTx ++ [_] ++ (s.txRing.map _ ++ s.sending) ++ _) = _
    simp only [List.count_append, List.count_cons, List.count_nil]
    omega
  · change offset + 1 ≤ count
    rw [UInt32.le_iff_toNat_le]
    omega
  · change (offset + 1).toNat ≤ (s.freeTx ++ [_]).length
    rw [List.length_append, List.length_singleton]
    omega
  · rw [hhead, UInt32.add_assoc]
    rfl

theorem txQuiet_reclaimed (frames : Option (List Bytes)) : Call.TxQuiet (reclaimed frames) := by
  cases frames <;> exact ⟨rfl, rfl, rfl, rfl, by simp [reclaimed]⟩

theorem TxSide.of_quiet (hconserved : s.TxConserved)
    (hconsumer : s.completion.consumer = s.completionConsumer)
    (hpublished : s.tx.producer = s.txProducer) (hquiet : s.call.TxQuiet) : TxSide s := by
  obtain ⟨hoffset, hcount, hframes, hlag, hgoing⟩ := hquiet
  refine ⟨hconserved, hconsumer, ?_, ?_, ?_, ?_, ?_, ?_, ?_, hgoing⟩
  · rw [hpublished, hlag, Nat.add_zero]
  · rw [hoffset]
    exact UInt32.zero_le
  · rw [hcount]
    exact UInt32.zero_le
  · rw [hoffset]
    exact Nat.zero_le _
  · rw [hframes]
    exact Nat.zero_le _
  · rw [hframes]
    exact Nat.zero_le _
  · rw [hframes]
    exact List.forall_mem_nil _

theorem TxSide.published_eq (h : TxSide s) (hlag : s.call.txLag = 0) :
    s.tx.producer = s.txProducer :=
  eq_of_lag hlag h.published

/-- The call goes on, with nothing taken from the TX half and nothing left there. -/
theorem TxSide.quiet (h : TxSide s) (hsame : SameTx s s') (hbefore : s.call.TxQuiet)
    (hafter : s'.call.TxQuiet) : TxStep s s' := by
  have hoffset : s'.call.completionOffset = s.call.completionOffset := by
    rw [hafter.completionOffset, hbefore.completionOffset]
  refine ⟨.of_quiet (hsame.conserved hoffset h.conserved) ?_ ?_ hafter,
    .of_eq (congrArg Ring.consumer hsame.tx) hsame.txRing,
    .of_eq (hsame.completionHead hoffset) (hsame.unreadCompletions hoffset)⟩
  · rw [hsame.completion, hsame.completionConsumer]
    exact h.consumer
  · rw [hsame.tx, hsame.txProducer]
    exact h.published_eq hbefore.txLag

theorem TxSide.reclaimed (h : TxSide s) {count offset : UInt32} {frames : Option (List Bytes)}
    (hcall : s.call = .reclaiming count offset frames) (hdone : ¬ offset < count) :
    TxStep s { s with
      completionConsumer := s.completionConsumer + count
      completion := { s.completion with consumer := s.completionConsumer + count }
      call := Socket.reclaimed frames } := by
  have hoffset := h.offset_le
  simp only [hcall, Call.completionOffset, Call.completionCount] at hoffset
  obtain rfl : offset = count := UInt32.le_antisymm hoffset (UInt32.not_lt.mp hdone)
  have hhead : Socket.completionHead { s with
      completionConsumer := s.completionConsumer + offset
      completion := { s.completion with consumer := s.completionConsumer + offset }
      call := Socket.reclaimed frames } = s.completionHead := by
    rw [completionHead, completionHead, hcall, (txQuiet_reclaimed frames).completionOffset,
      UInt32.add_zero]
    rfl
  have hunread : Socket.unreadCompletions { s with
      completionConsumer := s.completionConsumer + offset
      completion := { s.completion with consumer := s.completionConsumer + offset }
      call := Socket.reclaimed frames } = s.unreadCompletions := by
    rw [unreadCompletions, hhead]
    rfl
  refine ⟨.of_quiet ?_ rfl (h.published_eq (by rw [hcall]; rfl)) (txQuiet_reclaimed frames),
    .of_eq rfl rfl, .of_eq hhead hunread⟩
  rw [TxConserved, hunread]
  exact h.conserved

theorem TxSide.startBatch (h : TxSide s) (hquiet : s.call.TxQuiet) {count : ℕ}
    {frames : List Bytes} (hlen : frames.length = count) (hfree : count ≤ s.freeTx.length)
    (hfit : ∀ frame ∈ frames, frame.length ≤ chunkSize) :
    TxStep s { s with call := .transmitting count frames } := by
  have hsame : SameTx s { s with call := .transmitting count frames } :=
    ⟨rfl, rfl, rfl, rfl, rfl, rfl⟩
  have hoffset : (0 : UInt32) = s.call.completionOffset := hquiet.completionOffset.symm
  have hpublished := h.published
  rw [hquiet.txLag] at hpublished
  refine ⟨⟨hsame.conserved hoffset h.conserved, h.consumer, ?_, UInt32.le_refl _, UInt32.zero_le,
    Nat.zero_le _, hlen.trans_le hfree, hlen.le, hfit, by simp⟩, .of_eq rfl rfl,
    .of_eq (hsame.completionHead hoffset)
    (hsame.unreadCompletions hoffset)⟩
  simpa [Call.txLag, hlen] using hpublished

/-- The batch is limited to the free buffers, and none of its frames exceeds one. -/
theorem TxSide.beginBatch (h : TxSide s) {frames : List Bytes} (hcall : s.call = .transmit frames) :
    TxStep s (s.beginBatch frames) := by
  have hquiet : s.call.TxQuiet := hcall ▸ ⟨rfl, rfl, rfl, rfl, by simp⟩
  rw [Socket.beginBatch]
  split_ifs with hzero hlong
  · exact h.quiet ⟨rfl, rfl, rfl, rfl, rfl, rfl⟩ hquiet ⟨rfl, rfl, rfl, rfl, by simp⟩
  · exact h.quiet ⟨rfl, rfl, rfl, rfl, rfl, rfl⟩ hquiet ⟨rfl, rfl, rfl, rfl, by simp⟩
  · refine h.startBatch hquiet ?_ ?_ (by simpa using hlong)
    · rw [List.length_take, txBatchCapacity]
      omega
    · rw [txBatchCapacity]
      omega

/-- One round of `transmit_batch`: the buffer goes from the free ones to the TX ring. -/
theorem TxSide.transmitOne (h : TxSide s) {count address : ℕ} {frame : Bytes} {frames : List Bytes}
    {free : List ℕ} (hcall : s.call = .transmitting count (frame :: frames))
    (hfree : s.freeTx = address :: free) :
    TxStep s { s.transmitOne address free frame with call := .transmitting count frames } := by
  have htotal := h.total
  obtain ⟨hconserved, hconsumer, hpublished, -, -, -, hframes, hbatch, hfit, -⟩ := h
  simp only [hcall, hfree, Call.frames, Call.batch, Call.txLag, List.length_cons]
    at htotal hpublished hframes hbatch hfit
  have hroom : (s.txProducer - s.tx.consumer).toNat < 1024 := by omega
  have hmore := toNat_succ_sub s.txProducer s.tx.consumer (by omega)
  have hring : Socket.txRing { s.transmitOne address free frame with
      call := .transmitting count frames } = s.txRing ++ [⟨address, frame.length⟩] :=
    Ring.between_push hroom _
  have hhead : Socket.completionHead { s.transmitOne address free frame with
      call := .transmitting count frames } = s.completionHead := by
    rw [completionHead, completionHead, hcall]
    rfl
  have hunread : Socket.unreadCompletions { s.transmitOne address free frame with
      call := .transmitting count frames } = s.unreadCompletions := by
    rw [unreadCompletions, hhead]
    rfl
  refine ⟨⟨?_, hconsumer, ?_, UInt32.le_refl _, UInt32.zero_le, Nat.zero_le _, ?_, ?_, ?_, by simp⟩,
    .push hring, .of_eq hhead hunread⟩
  · refine List.Perm.trans ?_ hconserved
    rw [hring, hunread, hfree, List.map_append, List.map_singleton]
    refine List.perm_iff_count.mpr fun b => ?_
    change List.count b (free ++ (s.txRing.map _ ++ [address] ++ s.sending) ++ _) = _
    simp only [List.count_append, List.count_cons, List.count_nil]
    omega
  · change (s.tx.producer - s.tx.consumer).toNat + (count - frames.length) =
      (s.txProducer + 1 - s.tx.consumer).toNat
    omega
  · change frames.length ≤ free.length
    omega
  · change frames.length ≤ count
    omega
  · exact fun f hf => hfit f (List.mem_cons_of_mem _ hf)

theorem TxSide.transmitted (h : TxSide s) {count : ℕ} (hcall : s.call = .transmitting count [])
    (result : Option CallResult) :
    TxStep s { s with
      tx := { s.tx with producer := s.txProducer }
      call := .idle result } := by
  have hhead : Socket.completionHead { s with
      tx := { s.tx with producer := s.txProducer }
      call := .idle result } = s.completionHead := by
    rw [completionHead, completionHead, hcall]
    rfl
  have hunread : Socket.unreadCompletions { s with
      tx := { s.tx with producer := s.txProducer }
      call := .idle result } = s.unreadCompletions := by
    rw [unreadCompletions, hhead]
    rfl
  refine ⟨.of_quiet ?_ h.consumer rfl ⟨rfl, rfl, rfl, rfl, by simp⟩, .of_eq rfl rfl,
    .of_eq hhead hunread⟩
  rw [TxConserved, hunread]
  exact h.conserved

end Tx

section Steps

variable {s s' : Socket}

structure Sides (s : Socket) : Prop where
  rx : RxSide s
  tx : TxSide s

structure SidesStep (s s' : Socket) : Prop where
  rx : RxStep s s'
  tx : TxStep s s'

theorem rxQuiet_reclaimed (frames : Option (List Bytes)) : Call.RxQuiet (reclaimed frames) := by
  cases frames <;> exact ⟨rfl, rfl, rfl⟩

theorem beginBatch_sameRx (s : Socket) (frames : List Bytes) :
    SameRx s (s.beginBatch frames) ∧ (s.beginBatch frames).call.RxQuiet := by
  rw [Socket.beginBatch]
  split_ifs <;> exact ⟨⟨rfl, rfl, rfl, rfl, rfl⟩, ⟨rfl, rfl, rfl⟩⟩

/-- The socket goes on from a call that holds nothing to one that holds nothing. -/
theorem Sides.quiet (h : Sides s) (call : Call) (hrx : s.call.RxQuiet) (htx : s.call.TxQuiet)
    (hrx' : call.RxQuiet) (htx' : call.TxQuiet) : SidesStep s { s with call } :=
  ⟨h.rx.quiet ⟨rfl, rfl, rfl, rfl, rfl⟩ hrx hrx',
    h.tx.quiet ⟨rfl, rfl, rfl, rfl, rfl, rfl⟩ htx htx'⟩

theorem Sides.advance (h : Sides s) {kicked : Bool} (hstep : s.advance kicked = some s') :
    SidesStep s s' := by
  rw [Socket.advance] at hstep
  cases hcall : s.call with
  | idle last => simp [hcall] at hstep
  | panicked => simp [hcall] at hstep
  | receive budget =>
    have hrx : s.call.RxQuiet := hcall ▸ ⟨rfl, rfl, rfl⟩
    have htx : s.call.TxQuiet := hcall ▸ ⟨rfl, rfl, rfl, rfl, by simp⟩
    simp only [hcall] at hstep
    split_ifs at hstep <;> cases hstep
    · exact h.quiet _ hrx htx ⟨rfl, rfl, rfl⟩ ⟨rfl, rfl, rfl, rfl, by simp⟩
    · exact ⟨h.rx.beginReceive hrx (min_le _ _),
        h.tx.quiet ⟨rfl, rfl, rfl, rfl, rfl, rfl⟩ htx ⟨rfl, rfl, rfl, rfl, by simp⟩⟩
  | receiving count offset =>
    have htx : s.call.TxQuiet := hcall ▸ ⟨rfl, rfl, rfl, rfl, by simp⟩
    simp only [hcall] at hstep
    split_ifs at hstep with hmore <;> cases hstep
    · exact ⟨h.rx.receiveOne hcall hmore,
        h.tx.quiet ⟨rfl, rfl, rfl, rfl, rfl, rfl⟩ htx ⟨rfl, rfl, rfl, rfl, by simp⟩⟩
    · exact ⟨h.rx.received hcall hmore,
        h.tx.quiet ⟨rfl, rfl, rfl, rfl, rfl, rfl⟩ htx ⟨rfl, rfl, rfl, rfl, by simp⟩⟩
  | refilled count =>
    have htx : s.call.TxQuiet := hcall ▸ ⟨rfl, rfl, rfl, rfl, by simp⟩
    simp only [hcall] at hstep
    cases hstep
    exact ⟨h.rx.refilled hcall _,
      h.tx.quiet ⟨rfl, rfl, rfl, rfl, rfl, rfl⟩ htx ⟨rfl, rfl, rfl, rfl, by simp⟩⟩
  | reclaim frames =>
    have hrx : s.call.RxQuiet := hcall ▸ ⟨rfl, rfl, rfl⟩
    have htx : s.call.TxQuiet := hcall ▸ ⟨rfl, rfl, rfl, rfl, by simp⟩
    simp only [hcall] at hstep
    split_ifs at hstep <;> cases hstep
    · exact h.quiet _ hrx htx (rxQuiet_reclaimed frames) (txQuiet_reclaimed frames)
    · exact ⟨h.rx.quiet ⟨rfl, rfl, rfl, rfl, rfl⟩ hrx ⟨rfl, rfl, rfl⟩, h.tx.beginReclaim htx⟩
  | reclaiming count offset frames =>
    have hrx : s.call.RxQuiet := hcall ▸ ⟨rfl, rfl, rfl⟩
    simp only [hcall] at hstep
    split_ifs at hstep with hmore <;> cases hstep
    · exact ⟨h.rx.quiet ⟨rfl, rfl, rfl, rfl, rfl⟩ hrx ⟨rfl, rfl, rfl⟩, h.tx.reclaimOne hcall hmore⟩
    · exact ⟨h.rx.quiet ⟨rfl, rfl, rfl, rfl, rfl⟩ hrx (rxQuiet_reclaimed frames),
        h.tx.reclaimed hcall hmore⟩
  | transmit frames =>
    have hrx : s.call.RxQuiet := hcall ▸ ⟨rfl, rfl, rfl⟩
    simp only [hcall] at hstep
    cases hstep
    obtain ⟨hsame, hrx'⟩ := beginBatch_sameRx s frames
    exact ⟨h.rx.quiet hsame hrx hrx', h.tx.beginBatch hcall⟩
  | transmitting count frames =>
    have hrx : s.call.RxQuiet := hcall ▸ ⟨rfl, rfl, rfl⟩
    cases frames with
    | nil =>
      simp only [hcall] at hstep
      cases hstep
      exact ⟨h.rx.quiet ⟨rfl, rfl, rfl, rfl, rfl⟩ hrx ⟨rfl, rfl, rfl⟩, h.tx.transmitted hcall _⟩
    | cons frame frames =>
      cases hfree : s.freeTx with
      | nil =>
        -- a batch is never longer than the list of free buffers
        have hframes := h.tx.frames_free
        simp [hcall, hfree, Call.frames] at hframes
      | cons address free =>
        simp only [hcall, hfree] at hstep
        cases hstep
        exact ⟨h.rx.quiet ⟨rfl, rfl, rfl, rfl, rfl⟩ hrx ⟨rfl, rfl, rfl⟩,
          h.tx.transmitOne hcall hfree⟩

theorem Sides.begin (h : Sides s) {call : Call} (hstep : s.begin { s with call } = some s')
    (hrx : call.RxQuiet) (htx : call.TxQuiet) : SidesStep s s' := by
  rw [Socket.begin] at hstep
  cases hcall : s.call with
  | idle last =>
    simp only [hcall] at hstep
    cases hstep
    exact h.quiet call (hcall ▸ ⟨rfl, rfl, rfl⟩) (hcall ▸ ⟨rfl, rfl, rfl, rfl, by simp⟩) hrx htx
  | _ => simp [hcall] at hstep

theorem takeFill_sameTx (h : s.takeFill = some s') : SameTx s s' ∧ s'.call = s.call := by
  rw [takeFill] at h
  split_ifs at h
  cases h
  exact ⟨⟨rfl, rfl, rfl, rfl, rfl, rfl⟩, rfl⟩

theorem deliver_sameTx {chunk headroom : ℕ} {frame : Bytes}
    (h : s.deliver chunk headroom frame = some s') : SameTx s s' ∧ s'.call = s.call := by
  rw [deliver] at h
  split_ifs at h
  cases h
  exact ⟨⟨rfl, rfl, rfl, rfl, rfl, rfl⟩, rfl⟩

theorem takeTx_sameRx (h : s.takeTx = some s') : SameRx s s' ∧ s'.call = s.call := by
  rw [takeTx] at h
  split_ifs at h
  cases h
  exact ⟨⟨rfl, rfl, rfl, rfl, rfl⟩, rfl⟩

theorem complete_sameRx {address : ℕ} (h : s.complete address = some s') :
    SameRx s s' ∧ s'.call = s.call := by
  rw [complete] at h
  split_ifs at h
  cases h
  exact ⟨⟨rfl, rfl, rfl, rfl, rfl⟩, rfl⟩

theorem Sides.step (h : Sides s) {step : Step} (hstep : s.step step = some s') :
    SidesStep s s' := by
  cases step with
  | receiveWith budget => exact h.begin hstep ⟨rfl, rfl, rfl⟩ ⟨rfl, rfl, rfl, rfl, by simp⟩
  | transmitBatch frames =>
    simp only [Socket.step, Socket.transmitBatch] at hstep
    split_ifs at hstep
    · exact h.begin hstep ⟨rfl, rfl, rfl⟩ ⟨rfl, rfl, rfl, rfl, by simp⟩
    · exact h.begin hstep ⟨rfl, rfl, rfl⟩ ⟨rfl, rfl, rfl, rfl, by simp⟩
  | reclaimCompletions => exact h.begin hstep ⟨rfl, rfl, rfl⟩ ⟨rfl, rfl, rfl, rfl, by simp⟩
  | advance kicked => exact h.advance hstep
  | takeFill =>
    obtain ⟨hsame, hcall⟩ := takeFill_sameTx hstep
    exact ⟨h.rx.takeFill hstep, h.tx.frame hsame hcall⟩
  | deliver chunk headroom frame =>
    obtain ⟨hsame, hcall⟩ := deliver_sameTx hstep
    exact ⟨h.rx.deliver hstep, h.tx.frame hsame hcall⟩
  | takeTx =>
    obtain ⟨hsame, hcall⟩ := takeTx_sameRx hstep
    exact ⟨h.rx.frame hsame hcall, h.tx.takeTx hstep⟩
  | complete address =>
    obtain ⟨hsame, hcall⟩ := complete_sameRx hstep
    exact ⟨h.rx.frame hsame hcall, h.tx.complete hstep⟩

end Steps

section Created

variable (umem : Umem) (rx tx : ℕ → XdpDesc) (fill completion : ℕ → ℕ)

/-- The fill ring after the first `n` chunks are pushed. -/
def pushed (s : Socket) (n : ℕ) : Socket :=
  (List.range n).foldl (fun s chunk => s.pushFill (chunk * chunkSize)) s

theorem pushed_succ (s : Socket) (n : ℕ) :
    s.pushed (n + 1) = (s.pushed n).pushFill (n * chunkSize) := by
  simp [pushed, List.range_succ]

/-- Only the fill ring changes, and it holds the chunks in their order. -/
theorem pushed_spec {s : Socket} (hempty : s.fillProducer = s.fill.consumer) {n : ℕ}
    (hn : n ≤ 1024) :
    ∃ (ring : Ring ℕ) (producer : UInt32),
      s.pushed n = { s with fill := ring, fillProducer := producer } ∧
      ring.consumer = s.fill.consumer ∧
      ring.between ring.consumer producer = (List.range n).map (· * chunkSize) := by
  induction n with
  | zero =>
    refine ⟨s.fill, s.fillProducer, rfl, rfl, ?_⟩
    rw [hempty]
    exact entries_self _
  | succ n ih =>
    obtain ⟨ring, producer, hsame, hconsumer, hring⟩ := ih (by omega)
    have hlen := congrArg List.length hring
    rw [Ring.length_between, List.length_map, List.length_range] at hlen
    refine ⟨ring.write producer (n * chunkSize), producer + 1, ?_, hconsumer, ?_⟩
    · rw [pushed_succ, hsame]
      rfl
    · rw [List.range_succ, List.map_append, List.map_singleton, ← hring]
      have hroom : (producer - ring.consumer).toNat < 1024 := by omega
      exact Ring.between_push hroom _

theorem sides_created : Sides (seedFillRing (mapped umem rx tx fill completion)) := by
  obtain ⟨ring, producer, hsame, hconsumer, hring⟩ :=
    pushed_spec (s := mapped umem rx tx fill completion) rfl (n := rxChunks) (by decide)
  have hseed : seedFillRing (mapped umem rx tx fill completion) =
      publishFill (pushed (mapped umem rx tx fill completion) rxChunks) := rfl
  rw [hseed, hsame]
  refine ⟨.of_quiet ?_ rfl rfl ⟨rfl, rfl, rfl⟩, .of_quiet ?_ rfl rfl ⟨rfl, rfl, rfl, rfl, ?_⟩⟩
  · have hchunks : (List.range rxChunks).map ((· / chunkSize) ∘ (· * chunkSize)) =
        List.range rxChunks := by
      refine (List.map_congr_left fun n _ => ?_).trans (List.map_id _)
      exact Nat.mul_div_cancel n (by decide)
    have hfill : Socket.fillRing (publishFill { mapped umem rx tx fill completion with
        fill := ring, fillProducer := producer }) = (List.range rxChunks).map (· * chunkSize) :=
      hring
    rw [RxConserved, hfill, List.map_map, hchunks]
    exact .of_eq
      (by simp [unreadRx, rxHead, mapped, publishFill, Ring.between, entries, Call.rxOffset])
  · exact .of_eq (by simp [unreadCompletions, completionHead, txRing, mapped, publishFill,
      Ring.between, entries, Call.completionOffset])
  · simp [publishFill, mapped]

end Created

section Run

variable {s s' : Socket}

theorem Reachable.sides (h : Reachable s) : Sides s := by
  induction h with
  | created umem rx tx fill completion => exact sides_created umem rx tx fill completion
  | step step _ hstep ih =>
    have hnext := ih.step hstep
    exact ⟨hnext.rx.side, hnext.tx.side⟩

/-- No ring holds more than its size, from the entries that are not given back yet up
to those that are not published yet. -/
structure Bounded (s : Socket) : Prop where
  fill : (s.fillProducer - s.fill.consumer).toNat ≤ ringSize.toNat
  fillPublished : (s.fill.producer - s.fill.consumer).toNat ≤
    (s.fillProducer - s.fill.consumer).toNat
  rx : (s.rx.producer - s.rx.consumer).toNat ≤ ringSize.toNat
  tx : (s.txProducer - s.tx.consumer).toNat ≤ ringSize.toNat
  txPublished : (s.tx.producer - s.tx.consumer).toNat ≤ (s.txProducer - s.tx.consumer).toNat
  completion : (s.completion.producer - s.completion.consumer).toNat ≤ ringSize.toNat

theorem Sides.bounded (h : Sides s) : Bounded s := by
  refine ⟨h.rx.bounded.1, h.rx.published ▸ Nat.le_add_right _ _, ?_, h.tx.bounded.1,
    h.tx.published ▸ Nat.le_add_right _ _, ?_⟩
  · rw [h.rx.consumer]
    exact h.rx.bounded.2
  · rw [h.tx.consumer]
    exact h.tx.bounded.2

/-- No entry that stays in a ring is overwritten. -/
structure Keeps (s s' : Socket) : Prop where
  fill : Advances s.fill.consumer s'.fill.consumer s.fillRing s'.fillRing
  rx : Advances s.rxHead s'.rxHead s.unreadRx s'.unreadRx
  tx : Advances s.tx.consumer s'.tx.consumer s.txRing s'.txRing
  completion : Advances s.completionHead s'.completionHead s.unreadCompletions s'.unreadCompletions

/-- A chunk that is in a ring or with the kernel. -/
def OutOfHand (s : Socket) (chunk : ℕ) : Prop :=
  chunk * chunkSize ∈ s.txRing.map (·.addr) ++ s.sending ++ s.unreadCompletions ∨
    chunk ∈ s.fillRing.map (· / chunkSize) ++ s.taken ++ s.unreadRx.map (·.addr / chunkSize)

/-- The bytes of a chunk are the same. -/
def SameChunk (s s' : Socket) (chunk : ℕ) : Prop :=
  ∀ i < chunkSize, s'.umem.bytes (chunk * chunkSize + i) = s.umem.bytes (chunk * chunkSize + i)

/-- Beyond the rings two steps matter: a batch is begun or refused, and a frame is copied to the
memory of the socket. -/
theorem advance_cases {kicked : Bool} (h : s.advance kicked = some s') :
    (s'.umem = s.umem ∧ s'.call ≠ .idle (some .oversized)) ∨
      (∃ frames, s.call = .transmit frames ∧ s' = s.beginBatch frames) ∨
      ∃ count frame frames address free,
        s.call = .transmitting count (frame :: frames) ∧ s.freeTx = address :: free ∧
          s' = { s.transmitOne address free frame with call := .transmitting count frames } := by
  have hreclaimed : ∀ frames, reclaimed frames ≠ .idle (some .oversized) := by
    rintro (_ | frames) <;> simp [reclaimed]
  rw [advance] at h
  cases hcall : s.call with
  | idle last => simp [hcall] at h
  | panicked => simp [hcall] at h
  | receive budget =>
    simp only [hcall] at h
    split_ifs at h <;> cases h <;> exact .inl ⟨rfl, nofun⟩
  | receiving count offset =>
    simp only [hcall] at h
    split_ifs at h <;> cases h <;> exact .inl ⟨rfl, nofun⟩
  | refilled count =>
    simp only [hcall] at h
    cases h
    exact .inl ⟨rfl, nofun⟩
  | reclaim frames =>
    simp only [hcall] at h
    split_ifs at h <;> cases h
    · exact .inl ⟨rfl, hreclaimed frames⟩
    · exact .inl ⟨rfl, nofun⟩
  | reclaiming count offset frames =>
    simp only [hcall] at h
    split_ifs at h <;> cases h
    · exact .inl ⟨rfl, nofun⟩
    · exact .inl ⟨rfl, hreclaimed frames⟩
  | transmit frames =>
    simp only [hcall] at h
    cases h
    exact .inr (.inl ⟨frames, rfl, rfl⟩)
  | transmitting count frames =>
    cases frames with
    | nil =>
      simp only [hcall] at h
      cases h
      exact .inl ⟨rfl, by cases kicked <;> nofun⟩
    | cons frame frames =>
      cases hfree : s.freeTx with
      | nil =>
        simp only [hcall, hfree] at h
        cases h
        exact .inl ⟨rfl, nofun⟩
      | cons address free =>
        simp only [hcall, hfree] at h
        cases h
        exact .inr (.inr ⟨count, frame, frames, address, free, rfl, rfl, rfl⟩)

theorem nodup_txAddresses : txAddresses.Nodup := by
  refine List.nodup_range.map fun i j h => ?_
  have := Nat.eq_of_mul_eq_mul_right (by decide : 0 < chunkSize) h
  omega

theorem mem_txAddresses {address : ℕ} (h : address ∈ txAddresses) :
    ∃ chunk, rxChunks ≤ chunk ∧ address = chunk * chunkSize := by
  obtain ⟨i, -, rfl⟩ := List.mem_map.mp h
  exact ⟨rxChunks + i, Nat.le_add_right _ _, rfl⟩

/-- A free buffer is no chunk that is out of hand. -/
theorem Sides.free_not_outOfHand (h : Sides s) {address : ℕ} (hfree : address ∈ s.freeTx) :
    ∃ chunk, address = chunk * chunkSize ∧ ¬ s.OutOfHand chunk := by
  have hmem : address ∈ txAddresses :=
    h.tx.conserved.subset (List.mem_append_left _ (List.mem_append_left _ hfree))
  obtain ⟨chunk, hchunk, rfl⟩ := mem_txAddresses hmem
  refine ⟨chunk, rfl, ?_⟩
  rintro (hout | hout)
  · have hnodup := h.tx.conserved.nodup_iff.mpr nodup_txAddresses
    rw [List.append_assoc] at hnodup
    exact (List.nodup_append.mp hnodup).2.2 _ hfree _ hout rfl
  · have hrange := h.rx.conserved.subset hout
    rw [List.mem_range] at hrange
    omega

theorem Sides.sameChunk (h : Sides s) {kicked : Bool} (hstep : s.advance kicked = some s')
    {chunk : ℕ} (hout : s.OutOfHand chunk) : SameChunk s s' chunk := by
  intro i hi
  rcases advance_cases hstep with
    ⟨heq, -⟩ | ⟨frames, -, rfl⟩ | ⟨count, frame, frames, address, free, hcall, hfree, rfl⟩
  · rw [heq]
  · rw [beginBatch]
    split_ifs <;> rfl
  · obtain ⟨other, rfl, hother⟩ := h.free_not_outOfHand (hfree ▸ List.mem_cons_self)
    have hfit := h.tx.frames_fit frame (by rw [hcall]; exact List.mem_cons_self)
    have hne : chunk ≠ other := fun heq => hother (heq ▸ hout)
    refine if_neg ?_
    rcases Nat.lt_or_gt_of_ne hne with hlt | hlt
    · have := Nat.mul_le_mul_right chunkSize (Nat.succ_le_of_lt hlt)
      rw [Nat.succ_mul] at this
      omega
    · have := Nat.mul_le_mul_right chunkSize (Nat.succ_le_of_lt hlt)
      rw [Nat.succ_mul] at this
      omega

/-- Along every run of the socket with the kernel each chunk is in one place, no entry of
a ring is overwritten before it is read, the expected free buffer is there, and the socket
writes to no chunk that is out of its hands. A batch with a frame that is too long changes nothing. -/
theorem chunks_conserved (h : Reachable s) :
    s.TxConserved ∧ s.RxConserved ∧ s.Bounded ∧ s.call ≠ .panicked ∧
      (∀ step s', s.step step = some s' → Keeps s s') ∧
      ∀ kicked s', s.advance kicked = some s' →
        (∀ chunk, s.OutOfHand chunk → SameChunk s s' chunk) ∧
        (s'.call = .idle (some .oversized) → (∃ frames, s.call = .transmit frames) ∧
          s'.freeTx = s.freeTx ∧ s'.tx = s.tx ∧ s'.txProducer = s.txProducer) := by
  have hsides := h.sides
  refine ⟨hsides.tx.conserved, hsides.rx.conserved, hsides.bounded, hsides.tx.going,
    fun step s' hstep => ?_, fun kicked s' hstep => ⟨fun chunk => hsides.sameChunk hstep, ?_⟩⟩
  · have hnext := hsides.step hstep
    exact ⟨hnext.rx.fill, hnext.rx.rx, hnext.tx.tx, hnext.tx.completion⟩
  · intro hresult
    rcases advance_cases hstep with ⟨-, hne⟩ | ⟨frames, hcall, rfl⟩ | ⟨_, _, _, _, _, -, -, rfl⟩
    · exact absurd hresult hne
    · rw [beginBatch] at hresult ⊢
      split_ifs at hresult ⊢
      · cases hresult
      · exact ⟨⟨frames, hcall⟩, rfl, rfl, rfl⟩
    · cases hresult

/-- A run of the socket's steps and the kernel's. -/
def run (s : Socket) (steps : List Step) : Option Socket := steps.foldlM step s

theorem Reachable.run (h : Reachable s) {steps : List Step} (hrun : s.run steps = some s') :
    Reachable s' := by
  induction steps generalizing s with
  | nil =>
    cases hrun
    exact h
  | cons first rest ih =>
    obtain ⟨next, hstep, hrest⟩ := Option.bind_eq_some_iff.mp hrun
    exact ih (h.step first hstep) hrest

def freshSocket : Socket :=
  seedFillRing (mapped ⟨fun _ => 0⟩ (fun _ => ⟨0, 0⟩) (fun _ => ⟨0, 0⟩) (fun _ => 0) (fun _ => 0))

/-- A frame comes in while another one is read, and a buffer is completed while another one
is reclaimed. -/
def sampleSteps : List Step :=
  [.takeFill, .takeFill, .deliver 0 256 [1, 2, 3], .receiveWith 8, .advance true,
    .deliver 1 0 [4], .advance true, .advance true, .takeFill, .advance true,
    .transmitBatch [[5, 6], [7]], .advance true, .advance true, .advance true, .advance true,
    .advance true, .takeTx, .takeTx, .complete (1024 * chunkSize), .reclaimCompletions,
    .advance true, .complete (1025 * chunkSize), .advance true, .advance true]

theorem sampleSteps_isSome : (freshSocket.run sampleSteps).isSome := by decide +kernel

theorem sampleSteps_conserved :
    let s := (freshSocket.run sampleSteps).get sampleSteps_isSome
    s.handled = [[1, 2, 3]] ∧ s.unreadRx = [⟨chunkSize, 1⟩] ∧
      s.unreadCompletions = [1025 * chunkSize] ∧ s.freeTx.length = 1023 ∧
      s.TxConserved ∧ s.RxConserved ∧ ∀ step s', s.step step = some s' → Keeps s s' := by
  have hsafe := chunks_conserved ((Reachable.created _ _ _ _ _).run
    (Option.some_get sampleSteps_isSome).symm)
  exact ⟨by decide +kernel, by decide +kernel, by decide +kernel, by decide +kernel, hsafe.1,
    hsafe.2.1, hsafe.2.2.2.2.1⟩

end Run

end Socket

end NewProxy.Xsk
