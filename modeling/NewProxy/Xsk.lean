import NewProxy.ByteString
import NewProxy.RingBuffer

/-!
# The AF_XDP socket

A socket owns a memory of chunks and shares four rings with the kernel. The calls of
the socket are cut into the steps between which the kernel may run: every read and
every publication of a shared index, and every round of a loop. The kernel takes the
entries of the fill and TX rings in their order, delivers frames inside chunks it has
taken, and completes each address it has taken once.
-/
namespace NewProxy.Xsk

open RingBuffer

def ringSize : UInt32 := 1024

def chunkSize : ℕ := 4096

def chunkCount : ℕ := 2048

def rxChunks : ℕ := 1024

def txBatchCapacity (requested freeBuffers : ℕ) (producer consumer : UInt32) : ℕ :=
  min (min requested freeBuffers) (ringSize.toNat - (producer - consumer).toNat)

structure XdpDesc where
  addr : ℕ
  len : ℕ
  deriving DecidableEq

/-- The shared part of a ring. -/
structure Ring (α : Type) where
  producer : UInt32
  consumer : UInt32
  descriptors : ℕ → α

namespace Ring

variable {α : Type}

def mask : UInt32 := ringSize - 1

def slot (index : UInt32) : ℕ := (index &&& mask).toNat

def read (ring : Ring α) (index : UInt32) : α := ring.descriptors (slot index)

def write (ring : Ring α) (index : UInt32) (descriptor : α) : Ring α :=
  { ring with descriptors := Function.update ring.descriptors (slot index) descriptor }

end Ring

/-- The memory of the chunks. -/
structure Umem where
  bytes : ℕ → UInt8

namespace Umem

def length : ℕ := chunkSize * chunkCount

def copy (umem : Umem) (address : ℕ) (frame : Bytes) : Umem where
  bytes i := if address ≤ i ∧ i < address + frame.length then frame.getD (i - address) 0
    else umem.bytes i

def slice (umem : Umem) (descriptor : XdpDesc) : Bytes :=
  (List.range descriptor.len).map fun i => umem.bytes (descriptor.addr + i)

end Umem

inductive CallResult where
  | received (count : UInt32)
  | reclaimed
  | transmitted (count : ℕ)
  /-- "frame exceeds AF_XDP chunk size" -/
  | oversized
  /-- `sendto` failed for another reason than being interrupted or full. -/
  | kickFailed
  deriving DecidableEq

/-- Where the socket is in one of its calls. -/
inductive Call where
  | idle (last : Option CallResult)
  /-- The producer of the RX ring is not yet read. -/
  | receive (budget : UInt32)
  | receiving (count offset : UInt32)
  /-- The consumer of the RX ring is published, the producer of the fill ring is not. -/
  | refilled (count : UInt32)
  /-- `reclaim_completions`, before the frames of a batch or on its own. -/
  | reclaim (frames : Option (List Bytes))
  | reclaiming (count offset : UInt32) (frames : Option (List Bytes))
  /-- Reclaimed, the indices of the TX ring are not yet read. -/
  | transmit (frames : List Bytes)
  | transmitting (count : ℕ) (frames : List Bytes)
  /-- A free buffer was expected and there was none. -/
  | panicked

structure Socket where
  umem : Umem
  rx : Ring XdpDesc
  tx : Ring XdpDesc
  fill : Ring ℕ
  completion : Ring ℕ
  rxConsumer : UInt32
  fillProducer : UInt32
  txProducer : UInt32
  completionConsumer : UInt32
  freeTx : List ℕ
  /-- What the callback of `receive_with` has got. -/
  handled : List Bytes
  call : Call
  /-- The chunks the kernel has taken from the fill ring and not delivered. -/
  taken : List ℕ
  /-- The addresses it has taken from the TX ring and not completed. -/
  sending : List ℕ

namespace Socket

def pushFill (s : Socket) (address : ℕ) : Socket :=
  { s with fill := s.fill.write s.fillProducer address, fillProducer := s.fillProducer + 1 }

def publishFill (s : Socket) : Socket :=
  { s with fill := { s.fill with producer := s.fillProducer } }

def seedFillRing (s : Socket) : Socket :=
  publishFill ((List.range rxChunks).foldl (fun s chunk => s.pushFill (chunk * chunkSize)) s)

/-- The chunks that are not given to the fill ring. -/
def txAddresses : List ℕ :=
  (List.range (chunkCount - rxChunks)).map fun i => (rxChunks + i) * chunkSize

/-- A socket whose memory and rings are mapped, before the fill ring is seeded. -/
def mapped (umem : Umem) (rx tx : ℕ → XdpDesc) (fill completion : ℕ → ℕ) : Socket where
  umem := umem
  rx := ⟨0, 0, rx⟩
  tx := ⟨0, 0, tx⟩
  fill := ⟨0, 0, fill⟩
  completion := ⟨0, 0, completion⟩
  rxConsumer := 0
  fillProducer := 0
  txProducer := 0
  completionConsumer := 0
  freeTx := txAddresses
  handled := []
  call := .idle none
  taken := []
  sending := []

/-- One round of `receive_with`. -/
def receiveOne (s : Socket) (index : UInt32) : Socket :=
  let descriptor := s.rx.read index
  { s.pushFill descriptor.addr with
    handled := if descriptor.addr + descriptor.len ≤ Umem.length
      then s.handled ++ [s.umem.slice descriptor] else s.handled }

/-- One round of `reclaim_completions`. -/
def reclaimOne (s : Socket) (index : UInt32) : Socket :=
  { s with freeTx := s.freeTx ++ [s.completion.read index] }

/-- One round of `transmit_batch`, with the address that was popped. -/
def transmitOne (s : Socket) (address : ℕ) (free : List ℕ) (frame : Bytes) : Socket :=
  { s with
    freeTx := free
    umem := s.umem.copy address frame
    tx := s.tx.write s.txProducer ⟨address, frame.length⟩
    txProducer := s.txProducer + 1 }

/-- What follows `reclaim_completions`. -/
def reclaimed : Option (List Bytes) → Call
  | some frames => .transmit frames
  | none => .idle (some .reclaimed)

/-- How many frames `transmit_batch` takes, and whether one of them is too long. -/
def beginBatch (s : Socket) (frames : List Bytes) : Socket :=
  let count := txBatchCapacity frames.length s.freeTx.length s.tx.producer s.tx.consumer
  if count = 0 then { s with call := .idle (some (.transmitted 0)) }
  else if (frames.take count).any fun frame => chunkSize < frame.length then
    { s with call := .idle (some .oversized) }
  else { s with call := .transmitting count (frames.take count) }

/-- The next step of the call that is running; `kicked` is the answer of `sendto`. -/
def advance (s : Socket) (kicked : Bool) : Option Socket :=
  match s.call with
  | .idle _ => none
  | .panicked => none
  | .receive budget =>
    let count := min (s.rx.producer - s.rxConsumer) budget
    if count = 0 then some { s with call := .idle (some (.received 0)) }
    else some { s with call := .receiving count 0 }
  | .receiving count offset =>
    if offset < count then
      some { s.receiveOne (s.rxConsumer + offset) with call := .receiving count (offset + 1) }
    else
      let rxConsumer := s.rxConsumer + count
      some { s with
        rxConsumer
        rx := { s.rx with consumer := rxConsumer }
        call := .refilled count }
  | .refilled count => some { s.publishFill with call := .idle (some (.received count)) }
  | .reclaim frames =>
    let count := s.completion.producer - s.completionConsumer
    if count = 0 then some { s with call := reclaimed frames }
    else some { s with call := .reclaiming count 0 frames }
  | .reclaiming count offset frames =>
    if offset < count then
      some { s.reclaimOne (s.completionConsumer + offset) with
        call := .reclaiming count (offset + 1) frames }
    else
      let completionConsumer := s.completionConsumer + count
      some { s with
        completionConsumer
        completion := { s.completion with consumer := completionConsumer }
        call := reclaimed frames }
  | .transmit frames => some (s.beginBatch frames)
  | .transmitting count (frame :: frames) =>
    match s.freeTx with
    | address :: free =>
      some { s.transmitOne address free frame with call := .transmitting count frames }
    | [] => some { s with call := .panicked }
  | .transmitting count [] =>
    some { s with
      tx := { s.tx with producer := s.txProducer }
      call := .idle (some (if kicked then .transmitted count else .kickFailed)) }

def transmitBatch (s : Socket) (frames : List Bytes) : Socket :=
  if frames = [] then { s with call := .idle (some (.transmitted 0)) }
  else { s with call := .reclaim (some frames) }

def takeFill (s : Socket) : Option Socket :=
  if s.fill.consumer = s.fill.producer then none
  else some { s with
    fill := { s.fill with consumer := s.fill.consumer + 1 }
    taken := s.fill.read s.fill.consumer / chunkSize :: s.taken }

/-- The kernel writes a frame into a chunk that it has, and hands it out. -/
def deliver (s : Socket) (chunk headroom : ℕ) (frame : Bytes) : Option Socket :=
  if chunk ∈ s.taken ∧ headroom + frame.length ≤ chunkSize ∧ headroom < chunkSize then
    let descriptor : XdpDesc := ⟨chunk * chunkSize + headroom, frame.length⟩
    some { s with
      umem := s.umem.copy descriptor.addr frame
      rx := { s.rx.write s.rx.producer descriptor with producer := s.rx.producer + 1 }
      taken := s.taken.erase chunk }
  else none

def takeTx (s : Socket) : Option Socket :=
  if s.tx.consumer = s.tx.producer then none
  else some { s with
    tx := { s.tx with consumer := s.tx.consumer + 1 }
    sending := (s.tx.read s.tx.consumer).addr :: s.sending }

def complete (s : Socket) (address : ℕ) : Option Socket :=
  if address ∈ s.sending then
    some { s with
      completion := { s.completion.write s.completion.producer address with
        producer := s.completion.producer + 1 }
      sending := s.sending.erase address }
  else none

end Socket

inductive Step where
  | receiveWith (budget : UInt32)
  | transmitBatch (frames : List Bytes)
  | reclaimCompletions
  | advance (kicked : Bool)
  | takeFill
  | deliver (chunk headroom : ℕ) (frame : Bytes)
  | takeTx
  | complete (address : ℕ)

namespace Socket

def begin (s : Socket) (next : Socket) : Option Socket :=
  match s.call with
  | .idle _ => some next
  | _ => none

def step (s : Socket) : Step → Option Socket
  | .receiveWith budget => s.begin { s with call := .receive budget }
  | .transmitBatch frames => s.begin (s.transmitBatch frames)
  | .reclaimCompletions => s.begin { s with call := .reclaim none }
  | .advance kicked => s.advance kicked
  | .takeFill => s.takeFill
  | .deliver chunk headroom frame => s.deliver chunk headroom frame
  | .takeTx => s.takeTx
  | .complete address => s.complete address

/-- A state of a socket that was created and has run with the kernel for a while. -/
inductive Reachable : Socket → Prop
  | created (umem : Umem) (rx tx : ℕ → XdpDesc) (fill completion : ℕ → ℕ) :
      Reachable (seedFillRing (mapped umem rx tx fill completion))
  | step {s s' : Socket} (step : Step) : Reachable s → s.step step = some s' → Reachable s'

end Socket

end NewProxy.Xsk
