import NewProxy.QuicAuth

/-!
# The QUIC engine of a flow worker

The active connection, a candidate that may replace it, the connection ids the
worker is reached by and the reassembly of inner packets. The calls of the worker's
loop change this state and queue events for it. The queue between the generator of
connection ids and the calls around it is empty before and after each of them and is
left out, and so are the calls that hand a discarded connection back to its endpoint.
-/
namespace NewProxy

open Outcome

/-- `u64::from_be_bytes`. -/
def be64 (bytes : Bytes) : UInt64 := UInt64.ofNat (bytes.foldl (fun n b => n * 256 + b.toNat) 0)

namespace Quic

abbrev innerPacket : UInt8 := 16
abbrev innerFragment : UInt8 := 17
def innerFragmentHeaderLen : ℕ := 13
def maxInnerPacketLen : ℕ := 65535
def maxReassemblyBytes : ℕ := 1024 * 1024
def maxReassemblyEntries : ℕ := 4096
def reassemblyTimeout : Duration := .fromSecs 5

structure InnerReassembly where
  createdAt : Instant
  packet : Bytes
  received : List Bool
  receivedCount : ℕ

structure ClientReconnect where
  workerId : ℕ
  workerCount : ℕ

/-- `WorkerConnectionIdGenerator`, as the endpoint holds it. -/
structure CidGenerator where
  workerId : ℕ
  workerCount : ℕ

section Answers

inductive DatagramEvent where
  | newConnection
  | connectionEvent

/-- The answers while both connections are driven. -/
structure DriveInput where
  active : ConnectionInput
  candidate : ConnectionInput
  transmits : List OuterTransmit

/-- One attempt to connect: the handle of the connection, unless there is an error. -/
structure Attempt where
  connected : Option ConnectionHandle
  draws : List (List Draw)
  now : Instant
  drive : DriveInput

/-- All the answers of the library during one call of the engine. -/
structure Answers where
  handled : Option (ConnectionHandle × DatagramEvent)
  draws : List (List Draw)
  maxDatagramSize : Option ℕ
  accepts : ℕ → Bool
  attempts : List Attempt
  drive : DriveInput

end Answers

end Quic

open Quic

structure QuicEngine (hmac : Hmac) where
  role : QuicRole
  generator : CidGenerator
  connection : Option ManagedConnection
  candidate : Option ManagedConnection
  clientReconnect : Option ClientReconnect
  sharedKey : Secret
  dcidLen : ℕ
  publishedDcids : HashSet Bytes
  candidatePromotionPending : Bool
  nextInnerPacketId : UInt64
  reassembly : HashMap UInt64 InnerReassembly
  reassemblyBytes : ℕ
  events : List QuicEngineEvent

namespace Quic

/-- `generate_cid`: draws until the id belongs to the worker. -/
def generateCid (generator : CidGenerator) (dcidLen : ℕ) (draws : List Draw) : Option Bytes :=
  (draws.map fun bytes => bytes.toList.take dcidLen).find? fun dcid =>
    bootstrapOwner dcid generator.workerCount = .ok generator.workerId

def extractDcid (packet : Bytes) (fixedLen : ℕ) : Option Bytes := do
  let first ← packet[0]?
  if first &&& 0x80 ≠ 0 then
    let dcidLen : UInt8 ← packet[5]?
    if dcidLen.toNat = 0 ∨ 20 < dcidLen.toNat then none
    else packet.getRange 6 (6 + dcidLen.toNat)
  else packet.getRange 1 (1 + fixedLen)

end Quic

namespace QuicEngine

variable {hmac : Hmac}

def isAuthenticated (engine : QuicEngine hmac) : Bool :=
  engine.connection.any fun connection => connection.auth.authenticated

def push (event : QuicEngineEvent) (engine : QuicEngine hmac) : QuicEngine hmac :=
  { engine with events := engine.events ++ [event] }

/-- The ids the generator makes during one call of the library. -/
def generated (draws : List (List Draw)) (engine : QuicEngine hmac) : List Bytes :=
  draws.filterMap (generateCid engine.generator engine.dcidLen)

section ConnectionIds

def publishDcid (engine : QuicEngine hmac) (dcid : Bytes) : QuicEngine hmac :=
  if engine.publishedDcids.contains dcid then engine
  else push (.dcidPublished dcid)
    { engine with publishedDcids := engine.publishedDcids.insert dcid () }

/-- `connection_for_handle_mut`: the active connection is looked at first. -/
def connectionForHandle (handle : ConnectionHandle) (engine : QuicEngine hmac) :
    Option ManagedConnection :=
  if engine.connection.any (·.handle = handle) then engine.connection
  else engine.candidate.filter (·.handle = handle)

def updateForHandle (handle : ConnectionHandle) (f : ManagedConnection → ManagedConnection)
    (engine : QuicEngine hmac) : QuicEngine hmac :=
  if engine.connection.any (·.handle = handle) then
    { engine with connection := engine.connection.map f }
  else
    { engine with candidate := engine.candidate.map fun candidate =>
        if candidate.handle = handle then f candidate else candidate }

/-- Published if the connection is authenticated, staged if it is not. -/
def announceDcid (authenticated : Bool) (engine : QuicEngine hmac) (dcid : Bytes) :
    QuicEngine hmac :=
  if authenticated then engine.publishDcid dcid else engine.push (.dcidStaged dcid)

def stageDcidsForHandle (handle : ConnectionHandle) (generated : List Bytes)
    (engine : QuicEngine hmac) : QuicEngine hmac :=
  let engine := engine.updateForHandle handle fun connection =>
    generated.foldl ManagedConnection.trackDcid connection
  match engine.connectionForHandle handle with
  | none => engine
  | some connection =>
    if connection.dcidLimitExceeded then engine
    else generated.foldl (announceDcid connection.auth.authenticated) engine

/-- The elements of a set in the order of its iteration. -/
def members (dcids : HashSet Bytes) : List Bytes := dcids.toList.map Prod.fst

def publishActiveDcids (engine : QuicEngine hmac) : QuicEngine hmac :=
  match engine.connection with
  | some connection => (members connection.dcids).foldl publishDcid engine
  | none => engine

def retireStagedDcids (dcids : HashSet Bytes) (engine : QuicEngine hmac) : QuicEngine hmac :=
  { engine with
    events := engine.events ++ ((members dcids).filter fun dcid =>
      !engine.publishedDcids.contains dcid).map .dcidRetired }

def retireAllDcids (engine : QuicEngine hmac) : QuicEngine hmac :=
  { engine with
    publishedDcids := .empty
    events := engine.events ++ (members engine.publishedDcids).map .dcidRetired }

end ConnectionIds

section Inner

def clearReassembly (engine : QuicEngine hmac) : QuicEngine hmac :=
  { engine with reassembly := .empty, reassemblyBytes := 0 }

def pruneReassembly (now : Instant) (engine : QuicEngine hmac) : QuicEngine hmac :=
  let reassembly :=
    engine.reassembly.retain fun _ entry => now - entry.createdAt < reassemblyTimeout
  { engine with reassembly, reassemblyBytes := reassembly.sum fun entry => entry.packet.length }

/-- The loop over the bytes of a fragment, from `position` on. -/
def receiveBytes : Bytes → ℕ → InnerReassembly → Outcome Empty InnerReassembly
  | [], _, entry => .ok entry
  | byte :: rest, position, entry => do
    let seen ← expect entry.received[position]?
    let entry := if seen then entry else { entry with
      received := entry.received.set position true
      receivedCount := entry.receivedCount + 1 }
    let _ ← expect entry.packet[position]?
    receiveBytes rest (position + 1) { entry with packet := entry.packet.set position byte }

/-- The fields of a fragment behind its kind byte: packet id, total length, offset and
bytes. -/
def fragmentFields (payload : Bytes) : Outcome Empty (UInt64 × ℕ × ℕ × Bytes) := do
  let packetId := be64 (← payload.range 0 8)
  let totalLen := (← payload.word 8).toNat
  let offset := (← payload.word 10).toNat
  let fragment ← payload.range 12 payload.length
  return (packetId, totalLen, offset, fragment)

/-- A new entry, if there is none and the limits leave room for one. -/
def openEntry (now : Instant) (packetId : UInt64) (totalLen : ℕ) (engine : QuicEngine hmac) :
    QuicEngine hmac :=
  if engine.reassembly.contains packetId then engine
  else if maxReassemblyEntries ≤ engine.reassembly.len ∨
      maxReassemblyBytes < engine.reassemblyBytes + totalLen then engine
  else
    { engine with
      reassembly := engine.reassembly.insert packetId
        ⟨now, List.replicate totalLen 0, List.replicate totalLen false, 0⟩
      reassemblyBytes := engine.reassemblyBytes + totalLen }

/-- Without an entry of the packet's length the fragment is ignored. -/
def fillEntry (packetId : UInt64) (totalLen offset : ℕ) (fragment : Bytes) :
    Act (QuicEngine hmac) Empty Unit := do
  let engine ← Act.get
  match engine.reassembly.get packetId with
  | none => return ()
  | some entry =>
    if entry.packet.length ≠ totalLen then return ()
    else do
      let entry ← Act.call (receiveBytes fragment offset entry)
      Act.modify fun engine =>
        { engine with reassembly := engine.reassembly.insert packetId entry }
      if entry.receivedCount = totalLen then do
        let engine ← Act.get
        let completed ← Act.expect (engine.reassembly.get packetId)
        Act.modify fun engine =>
          { engine with reassembly := engine.reassembly.remove packetId }
        let _ ← Act.expect
            (if completed.packet.length ≤ engine.reassemblyBytes then some () else none)
        Act.modify fun engine => push (.innerPacket completed.packet)
          { engine with reassemblyBytes := engine.reassemblyBytes - completed.packet.length }
      else return ()

def handleInnerFragment (now : Instant) (payload : Bytes) : Act (QuicEngine hmac) Empty Unit := do
  if payload.length < innerFragmentHeaderLen then return ()
  else do
    let (packetId, totalLen, offset, fragment) ← Act.call (fragmentFields payload)
    if totalLen = 0 ∨ maxInnerPacketLen < totalLen ∨ totalLen ≤ offset ∨
        totalLen < offset + fragment.length then return ()
    else do
      Act.modify (openEntry now packetId totalLen)
      fillEntry packetId totalLen offset fragment

def handleApplicationDatagram (now : Instant) (datagram : Bytes) :
    Act (QuicEngine hmac) Empty Unit := do
  match datagram with
  | [] => return ()
  | kind :: payload => do
    let engine ← Act.get
    if kind = Quic.innerPacket ∧ engine.isAuthenticated ∧ payload ≠ [] then
      Act.modify (push (.innerPacket payload))
    else if kind = innerFragment ∧ engine.isAuthenticated then handleInnerFragment now payload
    else return ()

/-- Handed to the active connection; `none` when there is none or it refuses. -/
def sendDatagram (accepts : Bool) (datagram : Bytes) (engine : QuicEngine hmac) :
    Option (QuicEngine hmac) :=
  match engine.connection with
  | none => none
  | some managed =>
    if accepts then
      let connection := { managed.connection with
        datagrams := managed.connection.datagrams ++ [datagram] }
      some { engine with connection := some { managed with connection } }
    else none

/-- The datagram for the bytes of a packet between two offsets. -/
def fragmentWire (packetId : UInt64) (packet : Bytes) (offset stop : ℕ) : Bytes :=
  innerFragment :: be64Bytes packetId ++ be16Bytes (UInt16.ofNat packet.length) ++
    be16Bytes (UInt16.ofNat offset) ++ packet.slice offset stop

/-- `(0..packet.len()).step_by(size)`. -/
def fragmentOffsets (length size : ℕ) : List ℕ :=
  (List.range ((length + size - 1) / size)).map (· * size)

/-- The loop over the fragments; `index` counts the calls of the library. -/
def sendFragments (accepts : ℕ → Bool) (packetId : UInt64) (packet : Bytes) (size : ℕ) :
    ℕ → List ℕ → QuicEngine hmac → Except QuicEngineError Unit × QuicEngine hmac
  | _, [], engine => (.ok (), engine)
  | index, offset :: rest, engine =>
    match engine.sendDatagram (accepts index)
        (fragmentWire packetId packet offset (min packet.length (offset + size))) with
    | none => (.error .datagramTooLarge, engine)
    | some engine => sendFragments accepts packetId packet size (index + 1) rest engine

def sendFragmentedInner (accepts : ℕ → Bool) (packet : Bytes) (maxDatagramSize : ℕ)
    (engine : QuicEngine hmac) : Except QuicEngineError Unit × QuicEngine hmac :=
  if maxInnerPacketLen < packet.length ∨ maxDatagramSize ≤ innerFragmentHeaderLen then
    (.error .datagramTooLarge, engine)
  else
    let packetId := engine.nextInnerPacketId
    let size := maxDatagramSize - innerFragmentHeaderLen
    sendFragments accepts packetId packet size 0 (fragmentOffsets packet.length size)
      { engine with nextInnerPacketId := packetId + 1 }

end Inner

section Drive

/-- One event for the endpoint; the ids it makes go to the connection it came from. -/
def handleEndpointEvent (engine : QuicEngine hmac) (event : ConnectionHandle × EndpointEvent) :
    QuicEngine hmac :=
  engine.stageDcidsForHandle event.1 (engine.generated event.2.draws)

def promoteCandidate (engine : QuicEngine hmac) : QuicEngine hmac :=
  match engine.candidate with
  | none => engine
  | some candidate =>
    match engine.connection with
    | some _ => push (.replaced (members candidate.dcids))
        { engine with candidatePromotionPending := true }
    | none =>
      push .authenticated ((members candidate.dcids).foldl publishDcid
        { engine with candidate := none, connection := some candidate })

/-- The candidate is given up, with the ids that were only staged for it. -/
def dropCandidate (engine : QuicEngine hmac) : QuicEngine hmac :=
  match engine.candidate with
  | none => engine
  | some candidate => retireStagedDcids candidate.dcids { engine with candidate := none }

/-- The active connection has just authenticated itself. -/
def admitActive (active : ConnectionDrive) (engine : QuicEngine hmac) : QuicEngine hmac :=
  if active.authenticatedNow then push .authenticated engine.publishActiveDcids else engine

/-- The candidate has just authenticated itself, or is lost. -/
def admitCandidate (candidate : ConnectionDrive) (engine : QuicEngine hmac) : QuicEngine hmac :=
  if candidate.authenticatedNow then engine.promoteCandidate
  else if candidate.lost then engine.dropCandidate
  else engine

/-- The active connection is lost and the candidate with it, unless it has just
authenticated itself. -/
def closeLost (active candidate : ConnectionDrive) (engine : QuicEngine hmac) : QuicEngine hmac :=
  if active.lost && !candidate.authenticatedNow then
    push .closed (retireAllDcids (clearReassembly { engine.dropCandidate with connection := none }))
  else engine

/-- What both connections reported is acted upon. -/
def settle (active candidate : ConnectionDrive) (engine : QuicEngine hmac) : QuicEngine hmac :=
  ((engine.admitActive active).admitCandidate candidate).closeLost active candidate

/-- The datagrams that are read in a round. -/
def applicationDatagrams (active candidate : ConnectionDrive) : List Bytes :=
  if candidate.authenticatedNow then candidate.datagrams
  else if active.lost then []
  else active.datagrams

/-- A round over both connections. A connection that is not there reports nothing. -/
def drive (input : DriveInput) (now : Instant) (engine : QuicEngine hmac) : QuicEngine hmac :=
  let driveOne (input : ConnectionInput) (managed : ManagedConnection) : Driven :=
    driveConnection hmac engine.role engine.sharedKey now input managed
  let active := engine.connection.map (driveOne input.active)
  let candidate := engine.candidate.map (driveOne input.candidate)
  let activeDrive := (active.map (·.drive)).getD .default
  let candidateDrive := (candidate.map (·.drive)).getD .default
  let engine : QuicEngine hmac :=
    { engine with connection := active.map (·.managed), candidate := candidate.map (·.managed) }
  let engine := (activeDrive.endpointEvents ++ candidateDrive.endpointEvents).foldl
    handleEndpointEvent engine
  let engine := pruneReassembly now (engine.settle activeDrive candidateDrive)
  let engine := (applicationDatagrams activeDrive candidateDrive).foldl
    (fun engine datagram => ((handleApplicationDatagram now datagram).run engine).2) engine
  { engine with
    events := engine.events ++
      (activeDrive.transmits ++ candidateDrive.transmits ++ input.transmits).map .transmit }

end Drive

section Calls

def handleOuter (answers : Answers) (now : Instant) (packet : Bytes) (engine : QuicEngine hmac) :
    QuicEngine hmac :=
  match answers.handled with
  | none => engine.drive answers.drive now
  | some (handle, event) =>
    let generated := engine.generated answers.draws
    let engine := match event with
      -- a second candidate is closed at once
      | .newConnection => if engine.candidate.isSome then engine
          else { engine with candidate := some (.new handle now) }
      | .connectionEvent => engine
    let engine := match extractDcid packet engine.dcidLen with
      | some dcid => engine.updateForHandle handle (·.trackDcid dcid)
      | none => engine
    (engine.stageDcidsForHandle handle generated).drive answers.drive now

/-- `send_inner` up to its round of driving. -/
def emitInner (answers : Answers) (packet : Bytes) (engine : QuicEngine hmac) :
    Except QuicEngineError Unit × QuicEngine hmac :=
  if packet = [] then (.error .emptyInnerPacket, engine)
  else if engine.isAuthenticated = false then (.error .notAuthenticated, engine)
  else
    match answers.maxDatagramSize with
    | none => (.error .notConnected, engine)
    | some maxDatagramSize =>
      if packet.length < maxDatagramSize then
        match engine.sendDatagram (answers.accepts 0) (Quic.innerPacket :: packet) with
        | none => (.error .datagramTooLarge, engine)
        | some engine => (.ok (), engine)
      else engine.sendFragmentedInner answers.accepts packet maxDatagramSize

def sendInner (answers : Answers) (now : Instant) (packet : Bytes) (engine : QuicEngine hmac) :
    Except QuicEngineError Unit × QuicEngine hmac :=
  match engine.emitInner answers packet with
  | (.error error, engine) => (.error error, engine)
  | (.ok _, engine) => (.ok (), engine.drive answers.drive now)

def close (engine : QuicEngine hmac) : QuicEngine hmac :=
  push .closed (retireAllDcids (clearReassembly
    { engine with connection := none, candidate := none }))

def poll (answers : Answers) (now : Instant) (engine : QuicEngine hmac) :
    Option QuicEngineEvent × QuicEngine hmac :=
  let engine := engine.drive answers.drive now
  match engine.events with
  | [] => (none, engine)
  | event :: rest => (some event, { engine with events := rest })

def commitCandidateReplacement (engine : QuicEngine hmac) : QuicEngine hmac :=
  match engine.candidate with
  | none => engine
  | some candidate =>
    let engine : QuicEngine hmac :=
      clearReassembly { engine with candidate := none, connection := some candidate }
    push .authenticated
      { engine with
        events := engine.events ++ ((members engine.publishedDcids).filter fun dcid =>
          !candidate.dcids.contains dcid).map .dcidRetired
        publishedDcids := candidate.dcids }

def resolveCandidateReplacement (publishSucceeded : Bool) (engine : QuicEngine hmac) :
    QuicEngine hmac :=
  if engine.candidatePromotionPending = false then engine
  else
    let engine := { engine with candidatePromotionPending := false }
    if publishSucceeded then engine.commitCandidateReplacement else engine.dropCandidate

section Connect

variable (sharedKey : Secret) (dcidLen workerId workerCount : ℕ)

def emptyEngine (role : QuicRole) : QuicEngine hmac where
  role
  generator := ⟨workerId, workerCount⟩
  connection := none
  candidate := none
  clientReconnect := none
  sharedKey
  dcidLen
  publishedDcids := .empty
  candidatePromotionPending := false
  nextInnerPacketId := 0
  reassembly := .empty
  reassemblyBytes := 0
  events := []

/-- The owner named by the first outgoing datagram that has a destination id. -/
def initialOwner (engine : QuicEngine hmac) (workerCount : ℕ) : Option ℕ :=
  engine.events.findSome? fun event =>
    match event with
    | .transmit transmit =>
      (extractDcid transmit.contents engine.dcidLen).bind fun dcid =>
        (bootstrapOwner dcid workerCount).toOption
    | _ => none

/-- The engine of one attempt. -/
def attemptEngine (handle : ConnectionHandle) (attempt : Attempt) : QuicEngine hmac :=
  let start : QuicEngine hmac := emptyEngine sharedKey dcidLen workerId workerCount .client
  let engine : QuicEngine hmac :=
    { start with
      connection := some (.new handle attempt.now)
      clientReconnect := some ⟨workerId, workerCount⟩ }
  (engine.stageDcidsForHandle handle (engine.generated attempt.draws)).drive attempt.drive
    attempt.now

/-- The loop over the attempts to connect. -/
def connectLoop : ℕ → List Attempt → Except QuicEngineError (QuicEngine hmac)
  | 0, _ | _, [] => .error .connect
  | rounds + 1, attempt :: rest =>
    match attempt.connected with
    | none => .error .connect
    | some handle =>
      let engine := attemptEngine sharedKey dcidLen workerId workerCount handle attempt
      if initialOwner engine workerCount = some workerId then .ok engine
      else connectLoop rounds rest

def clientForWorker (attempts : List Attempt) : Except QuicEngineError (QuicEngine hmac) :=
  if dcidLen = 0 ∨ 20 < dcidLen then .error .invalidDcidLength
  else if workerCount = 0 ∨ workerCount ≤ workerId then .error .connect
  else connectLoop sharedKey dcidLen workerId workerCount 1024 attempts

def serverForWorker : Except QuicEngineError (QuicEngine hmac) :=
  if dcidLen = 0 ∨ 20 < dcidLen then .error .invalidDcidLength
  else .ok (emptyEngine sharedKey dcidLen workerId workerCount .server)

end Connect

def reconnectClient (answers : Answers) (engine : QuicEngine hmac) :
    Except QuicEngineError Unit × QuicEngine hmac :=
  match engine.clientReconnect with
  | none => (.error .missingClientConfig, engine)
  | some reconnect =>
    match clientForWorker engine.sharedKey engine.dcidLen reconnect.workerId reconnect.workerCount
        answers.attempts with
    | .error error => (.error error, engine)
    | .ok engine => (.ok (), engine)

end Calls

/-- The calls of a worker's loop. What is sent where is the library's business. -/
instance : Engine (QuicEngine hmac) Answers where
  isAuthenticated := isAuthenticated
  handleOuter answers now _ _ packet engine := engine.handleOuter answers now packet
  sendInner answers now packet engine := engine.sendInner answers now packet
  poll answers now engine := engine.poll answers now
  close _ _ engine := engine.close
  reconnectClient answers engine := engine.reconnectClient answers
  resolveCandidateReplacement _ _ published engine := engine.resolveCandidateReplacement published

end QuicEngine

end NewProxy
