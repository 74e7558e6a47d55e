import NewProxy.Dns
import NewProxy.SessionTable

/-!
# The state of a flow worker

Packets from the intercept side, from the tunnel and back, and the DNS
transactions of the client role. Sessions and DNS transactions lease SNAT ports
from one table. Every reading of the clock inside an operation is an argument of
its own: `now` for the operation, `natNow` for the SNAT table, `clock` for the
readings of a loop.
-/
namespace NewProxy

structure QuicFlow where
  id : QuicFlowId
  flowWorkerId : ℕ
  tunnelQueueId : UInt32
  deriving DecidableEq

structure OuterRoute where
  sourceIp : Option IpAddr
  sourcePort : UInt16
  destination : SocketAddr
  deriving DecidableEq

structure IoTransmit where
  target : IoOwnerKey
  packet : Bytes
  outer : Option OuterRoute
  deriving DecidableEq

structure FlowWorkerStats where
  queueMismatchDrops : ℕ := 0
  unknownDcidDrops : ℕ := 0
  sessionNatExhausted : ℕ := 0
  dnsQueryLocal : ℕ := 0
  dnsQueryRemote : ℕ := 0
  dnsResponseLocal : ℕ := 0
  dnsResponseRemote : ℕ := 0
  dnsServfail : ℕ := 0
  dnsCapacityExhausted : ℕ := 0
  dnsNatExhausted : ℕ := 0
  dnsMalformedLocalFallback : ℕ := 0
  dnsSpoofedResponseDrop : ℕ := 0
  dnsLateResponseDrop : ℕ := 0
  dnsEdnsClamped : ℕ := 0
  dnsTimeout : ℕ := 0
  dnsTransactionsActive : ℕ := 0
  deriving DecidableEq

structure HandledIntercept where
  sessionId : SessionId
  transmit : IoTransmit
  deriving DecidableEq

structure HandledReverse where
  sessionId : SessionId
  quicFlowId : QuicFlowId
  localTarget : IoOwnerKey
  packet : Bytes
  deriving DecidableEq

structure DnsFlowConfig where
  listen : SocketAddr
  localResolver : SocketAddr
  remoteResolver : SocketAddr
  remoteDomains : RemoteDomainRules
  transactionCapacity : ℕ
  timeout : Duration
  remoteAvailable : Bool

inductive HandledDnsQuery where
  | local (transmit : IoTransmit) (binding : NatBinding) (transactionId : SessionId)
  | remote (packet : Bytes) (binding : NatBinding) (transactionId : SessionId)
  | servfail (transmit : IoTransmit)
  deriving DecidableEq

structure HandledDnsResponse where
  localTarget : IoOwnerKey
  packet : Bytes
  binding : NatBinding
  transactionId : SessionId
  deriving DecidableEq

structure ExpiredDnsTransaction where
  transmit : IoTransmit
  binding : NatBinding
  transactionId : SessionId
  deriving DecidableEq

structure DnsFlowTransaction where
  token : SessionId
  client : SocketAddr
  dnsVip : SocketAddr
  binding : NatBinding
  localTarget : IoOwnerKey
  remote : Bool
  createdAt : Instant
  expiresAt : Instant
  originalPacket : Bytes
  deriving DecidableEq

structure DnsFlowTransactionKey where
  ioOwner : IoOwnerKey
  dns : DnsTransactionKey
  deriving DecidableEq

inductive DnsFlowError where
  | notDnsQuery
  deriving DecidableEq

inductive FlowWorkerError where
  | packet (error : PacketError)
  | session (error : SessionError)
  | dns (error : DnsFlowError)
  | wrongQuicFlowOwner (expected actual : ℕ)
  deriving DecidableEq

instance isStrictTotalOrderUInt64 : IsStrictTotalOrder UInt64 (· < ·) where
  trichotomous := by grind
  irrefl := by grind
  trans := by grind

structure FlowWorkerState where
  workerId : ℕ
  sessions : SessionTable
  nextDnsToken : UInt64
  dnsByKey : HashMap DnsFlowTransactionKey DnsFlowTransaction
  dnsByReverse : HashMap FlowKey DnsFlowTransactionKey
  dnsDeadlines : DeadlineIndex DnsFlowTransactionKey
  dnsCompletedReverse : HashMap FlowKey UInt64
  dnsCompletedOrder : OrdMap UInt64 FlowKey
  nextDnsCompletedSequence : UInt64
  stats : FlowWorkerStats

def dnsCompletedReverseCapacity : ℕ := 65536

namespace FlowWorkerState

open Outcome (ensure okOr)
open Packet Dns

def newDual (workerId : ℕ) (snatIpv4 : Option (Vector UInt8 4))
    (snatIpv6 : Option (Vector UInt8 16)) (first last : UInt16) :
    Outcome SessionError FlowWorkerState := do
  let sessions ← SessionTable.newDual workerId snatIpv4 snatIpv6 first last
  return {
    workerId, sessions
    nextDnsToken := 1
    dnsByKey := .empty
    dnsByReverse := .empty
    dnsDeadlines := .empty
    dnsCompletedReverse := .empty
    dnsCompletedOrder := .empty
    nextDnsCompletedSequence := 1
    stats := {} }

section Sessions

/-- A call on the session table. -/
def onSessions {ε α : Type} (f : SessionError → ε) (x : Act SessionTable SessionError α) :
    Act FlowWorkerState ε α :=
  Act.zoom sessions (fun sessions state => { state with sessions }) f x

def count (f : FlowWorkerStats → FlowWorkerStats) {ε : Type} : Act FlowWorkerState ε Unit :=
  Act.modify fun state => { state with stats := f state.stats }

/-- The session of a flow; a port range that is used up is counted. -/
def openSession (flow : FlowKey) (io : IoOwnerKey) (quicFlowId : QuicFlowId)
    (tcpFlags : Option UInt8) (now natNow : Instant) :
    Act FlowWorkerState FlowWorkerError SessionId := do
  let state ← Act.get
  match ← Act.attempt (onSessions .session (SessionTable.getOrCreateWithFlagsAt state.workerId flow
      io quicFlowId tcpFlags false now natNow)) with
  | .ok sessionId => return sessionId
  | .error error =>
    if error = .session (.nat .portRangeExhausted) then do
      count fun stats => { stats with sessionNatExhausted := stats.sessionNatExhausted + 1 }
      Act.fail error
    else Act.fail error

/-- A packet of an inner flow on its way out, translated and sent to `target`. -/
def forwardInner (io : IoOwnerKey) (packet : Bytes) (quicFlow : QuicFlow)
    (target : Session → IoOwnerKey) (now natNow : Instant) :
    Act FlowWorkerState FlowWorkerError HandledIntercept := do
  let state ← Act.get
  if quicFlow.flowWorkerId ≠ state.workerId then
    Act.fail (.wrongQuicFlowOwner state.workerId quicFlow.flowWorkerId)
  else do
    let packet ← Act.lift .packet (prepareForwardedPacket packet)
    let flow ← Act.lift .packet (parseFlowKey packet)
    let (_, packet) ← Act.lift .packet (clampTcpMss packet tcpMaxSafeMss)
    let tcpFlags ← Act.lift .packet (parseTcpFlags packet)
    let sessionId ← openSession flow io quicFlow.id tcpFlags now natNow
    let state ← Act.get
    let session ← Act.expect (state.sessions.get sessionId)
    let packet ← Act.lift .packet ((rewritePacket session.nat.translated).exec packet)
    return ⟨sessionId, ⟨target session, packet, none⟩⟩

def handleIntercept (ioOwner : IoOwnerKey) (packet : Bytes) (quicFlow : QuicFlow)
    (tunnelTarget : IoOwnerKey) (now natNow : Instant) :
    Act FlowWorkerState FlowWorkerError HandledIntercept :=
  forwardInner ioOwner packet quicFlow (fun _ => tunnelTarget) now natNow

def handleServerInner (defaultIntercept : IoOwnerKey) (packet : Bytes) (quicFlow : QuicFlow)
    (now natNow : Instant) : Act FlowWorkerState FlowWorkerError HandledIntercept :=
  forwardInner defaultIntercept packet quicFlow Session.interceptIo now natNow

def correctServerReturnIo {ε : Type} (sessionId : SessionId) (observed : IoOwnerKey) :
    Act FlowWorkerState ε Bool := do
  let state ← Act.get
  match ← Act.attempt (onSessions FlowWorkerError.session
      (SessionTable.correctInterceptIo state.workerId sessionId observed)) with
  | .ok .unchanged | .ok .corrected => return true
  | .ok .mismatch | .error _ => do
    count fun stats => { stats with queueMismatchDrops := stats.queueMismatchDrops + 1 }
    return false

/-- The flow a return packet is given back. -/
def restoredFlow (session : Session) (returnFlow : FlowKey) : FlowKey :=
  match session.original.protocol with
  | .tcp | .udp => session.original.reverse
  | .icmp | .icmpv6 =>
    { source := session.original.destination
      destination := session.original.source
      sourcePort := session.original.sourcePort
      destinationPort := returnFlow.destinationPort
      protocol := session.original.protocol }

/-- Whether the interface a return packet came in on fits its session. -/
def acceptsObserved (sessionId : SessionId) : Option IoOwnerKey →
    Act FlowWorkerState FlowWorkerError Bool
  | none => return true
  | some owner => correctServerReturnIo sessionId owner

def handleReverseForInner (packet : Bytes) (expectedLocator : SessionLocator)
    (observed : Option IoOwnerKey) (now : Instant) :
    Act FlowWorkerState FlowWorkerError (Option HandledReverse) := do
  let restored ← Act.lift .packet (prepareForwardedPacket packet)
  let returnFlow ← Act.lift .packet (parseFlowKey restored)
  let state ← Act.get
  match state.sessions.lookupReverseLocator returnFlow with
  | none => return none
  | some locator =>
    if locator ≠ expectedLocator ∨ locator.flowWorkerId ≠ state.workerId then return none
    else do
      let (_, restored) ← Act.lift .packet (clampTcpMss restored tcpMaxSafeMss)
      let tcpFlags ← Act.lift .packet (parseTcpFlags restored)
      let sessionId := locator.sessionId
      let accepted ← acceptsObserved sessionId observed
      if accepted = false then return none
      else do
        onSessions .session (SessionTable.touchTcp state.workerId sessionId tcpFlags true now)
        let state ← Act.get
        let session ← Act.expect (state.sessions.get sessionId)
        let restored ← Act.lift .packet
          ((rewritePacket (restoredFlow session returnFlow)).exec restored)
        return some ⟨sessionId, session.quicFlowId, session.interceptIo, restored⟩

def handleReverseFor (packet : Bytes) (expectedLocator : SessionLocator) (now : Instant) :
    Act FlowWorkerState FlowWorkerError (Option HandledReverse) :=
  handleReverseForInner packet expectedLocator none now

def handleServerReverse (observed : IoOwnerKey) (packet : Bytes)
    (expectedLocator : SessionLocator) (now : Instant) :
    Act FlowWorkerState FlowWorkerError (Option HandledReverse) :=
  handleReverseForInner packet expectedLocator (some observed) now

def handleReverse (packet : Bytes) (now : Instant) :
    Act FlowWorkerState FlowWorkerError (Option HandledReverse) := do
  let flow ← Act.lift .packet (parseFlowKey packet)
  let state ← Act.get
  match state.sessions.lookupReverseLocator flow with
  | none => return none
  | some locator => handleReverseFor packet locator now

def session (state : FlowWorkerState) (sessionId : SessionId) : Option Session :=
  state.sessions.get sessionId

def rebindQuicFlow (oldQuicFlowId newQuicFlowId : QuicFlowId) :
    Act FlowWorkerState SessionError ℕ := do
  let state ← Act.get
  onSessions id (SessionTable.rebindQuicFlow state.workerId oldQuicFlowId newQuicFlowId)

def removeByQuicFlow (quicFlowId : QuicFlowId) (clock : ℕ → Instant) :
    Act FlowWorkerState SessionError (List Session) := do
  let state ← Act.get
  let sessions := (state.sessions.sessions.toList.filter
    fun e => e.2.quicFlowId = quicFlowId).map Prod.snd
  let _ ← onSessions id (SessionTable.removeByQuicFlow state.workerId quicFlowId clock)
  return sessions

def removeSession (sessionId : SessionId) (natNow : Instant) :
    Act FlowWorkerState SessionError Session := do
  let state ← Act.get
  onSessions id (SessionTable.remove state.workerId sessionId natNow)

def expireIdleSessions (now : Instant) (clock : ℕ → Instant) :
    Act FlowWorkerState SessionError (List Session) := do
  let state ← Act.get
  onSessions id (SessionTable.expireIdle state.workerId now clock)

def lookupReverseLocator (state : FlowWorkerState) (flow : FlowKey) : Option SessionLocator :=
  state.sessions.lookupReverseLocator flow

def dnsReverseMatches (state : FlowWorkerState) (flow : FlowKey) (locator : SessionLocator) :
    Bool :=
  locator.flowWorkerId = state.workerId &&
    ((state.dnsByReverse.get flow).bind state.dnsByKey.get).any
      fun transaction => transaction.token = locator.sessionId

def hasDnsReverse (state : FlowWorkerState) (flow : FlowKey) : Bool :=
  state.dnsByReverse.contains flow

end Sessions

section Dns

/-- `None` when the sections of the message do not parse. The packet is replaced
only when a payload size was lowered. -/
def ednsClampPacket (packet : Bytes) : Outcome PacketError (Option Bool × Bytes) := do
  let flow ← parseFlowKey packet
  let (start, stop) ← udpPayloadRange packet
  let payload ← packet.range start stop
  let clamp : Act Bytes PacketError (Except DnsError Bool) := clampEdnsUdpPayload.attempt
  match ← (clamp.run payload).1 with
  | .ok true => do
    let packet ← (rewritePacket flow).exec (packet.patch start (clamp.run payload).2)
    return (some true, packet)
  | .ok false => return (some false, packet)
  | .error _ => return (none, packet)

def ensureMinimumDnsResponse (packet : Bytes) : Outcome PacketError Bytes :=
  ensureUdpPayloadLen packet 12

def servfailFlags (flags : UInt16) : UInt16 := ((flags ||| 0x8000) &&& ~~~0x000f) ||| 0x0002

def dnsServfailTransmitToListen (target : IoOwnerKey) (packet : Bytes) (flow : FlowKey)
    (listen : SocketAddr) : Outcome PacketError IoTransmit := do
  let packet ← ensureMinimumDnsResponse packet
  let (start, stop) ← udpPayloadRange packet
  let payload ← packet.range start stop
  let flags ← payload.word 2
  let payload ← payload.write 2 (be16Bytes (servfailFlags flags))
  let payload ← payload.write 6 [0, 0, 0, 0, 0, 0]
  let packet ← (rewritePacket ⟨listen.ip, flow.source, listen.port, flow.sourcePort, .udp⟩).exec
    (packet.patch start payload)
  return ⟨target, packet, none⟩

def dnsServfailTransmit (target : IoOwnerKey) (packet : Bytes) (flow : FlowKey)
    (config : DnsFlowConfig) : Outcome PacketError IoTransmit :=
  dnsServfailTransmitToListen target packet flow config.listen

def rewriteDnsQuery (packet : Bytes) (transaction : DnsFlowTransaction) :
    Outcome PacketError HandledDnsQuery := do
  let packet ← (rewritePacket transaction.binding.translated).exec packet
  if transaction.remote then return .remote packet transaction.binding transaction.token
  else return .local ⟨transaction.localTarget, packet, none⟩ transaction.binding transaction.token

/-- `wrapping_add(1).max(1)`, the successor of both DNS counters. -/
def nextCounter (counter : UInt64) : UInt64 := max (counter + 1) 1

def nextDnsSessionToken {ε : Type} : Act FlowWorkerState ε SessionId := do
  let state ← Act.get
  Act.modify fun state => { state with nextDnsToken := nextCounter state.nextDnsToken }
  return ⟨((1 : UInt64) <<< 63) ||| state.nextDnsToken⟩

/-- The oldest completed tuples go while there are too many. An entry of the
order that no longer is its tuple's last one only leaves the order. The source
would spin on an order that runs out first. -/
def trimCompleted : List (UInt64 × FlowKey) → HashMap FlowKey UInt64 → OrdMap UInt64 FlowKey →
    HashMap FlowKey UInt64 × OrdMap UInt64 FlowKey
  | [], completed, order => (completed, order)
  | (sequence, expired) :: rest, completed, order =>
    if dnsCompletedReverseCapacity < completed.len then
      trimCompleted rest
        (if completed.get expired = some sequence then completed.remove expired else completed)
        (order.remove sequence)
    else (completed, order)

def rememberCompletedDnsReverse (flow : FlowKey) (state : FlowWorkerState) : FlowWorkerState :=
  let sequence := state.nextDnsCompletedSequence
  let order := match state.dnsCompletedReverse.get flow with
    | some previous => state.dnsCompletedOrder.remove previous
    | none => state.dnsCompletedOrder
  let order := order.insert sequence flow
  let trimmed := trimCompleted order.entries (state.dnsCompletedReverse.insert flow sequence) order
  { state with
    nextDnsCompletedSequence := nextCounter sequence
    dnsCompletedReverse := trimmed.1
    dnsCompletedOrder := trimmed.2 }

def forgetCompletedDnsReverse (flow : FlowKey) (state : FlowWorkerState) : FlowWorkerState :=
  match state.dnsCompletedReverse.get flow with
  | some sequence =>
    { state with
      dnsCompletedReverse := state.dnsCompletedReverse.remove flow
      dnsCompletedOrder := state.dnsCompletedOrder.remove sequence }
  | none => state

/-- `stats.dns_transactions_active` is set to the number of transactions. -/
def countActive {ε : Type} : Act FlowWorkerState ε Unit :=
  Act.modify fun state =>
    { state with stats := { state.stats with dnsTransactionsActive := state.dnsByKey.len } }

/-- The answer to a query that is not served. -/
def refuseQuery (f : FlowWorkerStats → FlowWorkerStats) (ioOwner : IoOwnerKey) (packet : Bytes)
    (flow : FlowKey) (config : DnsFlowConfig) :
    Act FlowWorkerState FlowWorkerError HandledDnsQuery := do
  count fun stats => { f stats with dnsServfail := (f stats).dnsServfail + 1 }
  let transmit ← Act.lift .packet (dnsServfailTransmit ioOwner packet flow config)
  return .servfail transmit

/-- The indexes of a new transaction. The source computes the key a second time for
the deadlines, from the same payload. -/
def fileTransaction (key : DnsFlowTransactionKey) (transaction : DnsFlowTransaction)
    (state : FlowWorkerState) : FlowWorkerState :=
  let reverse := transaction.binding.translated.reverse
  let state := forgetCompletedDnsReverse reverse state
  { state with
    dnsByReverse := state.dnsByReverse.insert reverse key
    dnsByKey := state.dnsByKey.insert key transaction
    dnsDeadlines := state.dnsDeadlines.file transaction.expiresAt key }

/-- The part of `handle_dns_query_at` that takes out a lease for a new query. -/
def openDnsTransaction (ioOwner : IoOwnerKey) (packet : Bytes) (flow : FlowKey)
    (key : DnsFlowTransactionKey) (resolver : SocketAddr) (remote : Bool)
    (config : DnsFlowConfig) (now natNow : Instant) :
    Act FlowWorkerState FlowWorkerError HandledDnsQuery := do
  let state ← Act.get
  if remote ∧ config.remoteAvailable = false then refuseQuery id ioOwner packet flow config
  else if config.transactionCapacity ≤ state.dnsByKey.len then
    refuseQuery (fun stats => { stats with dnsCapacityExhausted := stats.dnsCapacityExhausted + 1 })
      ioOwner packet flow config
  else do
    let token ← nextDnsSessionToken
    match ← Act.attempt (onSessions id (SessionTable.allocateEphemeralNat state.workerId token
        ⟨flow.source, resolver.ip, flow.sourcePort, resolver.port, .udp⟩ natNow)) with
    | .error error =>
      if error = .nat .portRangeExhausted then
        refuseQuery (fun stats => { stats with dnsNatExhausted := stats.dnsNatExhausted + 1 })
          ioOwner packet flow config
      else Act.fail (.session error)
    | .ok binding => do
      let transaction : DnsFlowTransaction :=
        { token, client := ⟨flow.source, flow.sourcePort⟩, dnsVip := config.listen, binding,
          localTarget := ioOwner, remote, createdAt := now, expiresAt := now + config.timeout,
          originalPacket := packet }
      Act.modify (fileTransaction key transaction)
      countActive
      count fun stats =>
        if remote then { stats with dnsQueryRemote := stats.dnsQueryRemote + 1 }
        else { stats with dnsQueryLocal := stats.dnsQueryLocal + 1 }
      Act.lift .packet (rewriteDnsQuery packet transaction)

/-- The part of `handle_dns_query_at` from the transaction key on. -/
def routeDnsQuery (ioOwner : IoOwnerKey) (packet payload : Bytes) (malformedSections : Bool)
    (flow : FlowKey) (config : DnsFlowConfig) (now natNow : Instant) :
    Act FlowWorkerState FlowWorkerError HandledDnsQuery := do
  let dns ← Act.call (transactionKey ⟨flow.source, flow.sourcePort⟩ payload)
  let key : DnsFlowTransactionKey := ⟨ioOwner, dns⟩
  let state ← Act.get
  match state.dnsByKey.get key with
  | some transaction => Act.lift .packet (rewriteDnsQuery packet transaction)
  | none => do
    let route ← Act.call (if malformedSections then .ok .localFallback
      else classifyQuery payload config.remoteDomains)
    match route with
    | .remote _ =>
      openDnsTransaction ioOwner packet flow key config.remoteResolver true config now natNow
    | .local _ =>
      openDnsTransaction ioOwner packet flow key config.localResolver false config now natNow
    | .localFallback => do
      count fun stats =>
        { stats with dnsMalformedLocalFallback := stats.dnsMalformedLocalFallback + 1 }
      openDnsTransaction ioOwner packet flow key config.localResolver false config now natNow

/-- The part of `handle_dns_query_at` for a query of admissible size. -/
def admitDnsQuery (ioOwner : IoOwnerKey) (packet : Bytes) (flow : FlowKey)
    (config : DnsFlowConfig) (now natNow : Instant) :
    Act FlowWorkerState FlowWorkerError HandledDnsQuery := do
  let (clamped, packet) ← Act.lift .packet (ednsClampPacket packet)
  count fun stats =>
    if clamped = some true then { stats with dnsEdnsClamped := stats.dnsEdnsClamped + 1 } else stats
  let payload ← Act.lift .packet (udpPayload packet)
  match ← Act.call (parseQuestion payload).attempt with
  | .error _ => refuseQuery id ioOwner packet flow config
  | .ok _ => routeDnsQuery ioOwner packet payload (clamped = none) flow config now natNow

def handleDnsQueryAt (ioOwner : IoOwnerKey) (packet : Bytes) (config : DnsFlowConfig)
    (now natNow : Instant) : Act FlowWorkerState FlowWorkerError HandledDnsQuery := do
  let packet ← Act.lift .packet (prepareForwardedPacket packet)
  let flow ← Act.lift .packet (parseFlowKey packet)
  if flow.protocol ≠ .udp ∨ flow.destination ≠ config.listen.ip ∨
      flow.destinationPort ≠ config.listen.port then Act.fail (.dns .notDnsQuery)
  else do
    let fragmented ← Act.lift .packet (ipPacketIsFragmented packet)
    if fragmented then refuseQuery id ioOwner packet flow config
    else do
      let payload ← Act.lift .packet (udpPayload packet)
      if dnsPayloadMax < payload.length then refuseQuery id ioOwner packet flow config
      else admitDnsQuery ioOwner packet flow config now natNow

/-- Everything but the SNAT lease of a transaction is dropped. -/
def unfileTransaction (key : DnsFlowTransactionKey) (transaction : DnsFlowTransaction)
    (state : FlowWorkerState) : FlowWorkerState :=
  { state with
    dnsByKey := state.dnsByKey.remove key
    dnsDeadlines := state.dnsDeadlines.unfile transaction.expiresAt key
    dnsByReverse := state.dnsByReverse.remove transaction.binding.translated.reverse }

def removeDnsTransaction {ε : Type} (f : SessionError → ε) (key : DnsFlowTransactionKey)
    (natNow : Instant) : Act FlowWorkerState ε (Option DnsFlowTransaction) := do
  let state ← Act.get
  match state.dnsByKey.get key with
  | none => return none
  | some transaction => do
    Act.modify (unfileTransaction key transaction)
    let _ ← onSessions f (SessionTable.releaseEphemeralNat state.workerId transaction.token natNow)
    countActive
    return some transaction

def servfailForTransaction (transaction : DnsFlowTransaction) (config : DnsFlowConfig) :
    Outcome PacketError ExpiredDnsTransaction := do
  let flow ← parseFlowKey transaction.originalPacket
  let transmit ← dnsServfailTransmit transaction.localTarget transaction.originalPacket flow config
  return ⟨transmit, transaction.binding, transaction.token⟩

def countSpoofed {ε : Type} : Act FlowWorkerState ε Unit :=
  count fun stats => { stats with dnsSpoofedResponseDrop := stats.dnsSpoofedResponseDrop + 1 }

/-- The part of `handle_dns_response` after the transaction is closed. -/
def answerTransaction (packet payload : Bytes) (transaction : DnsFlowTransaction) :
    Act FlowWorkerState FlowWorkerError HandledDnsResponse := do
  if dnsPayloadMax < payload.length then do
    let originalFlow ← Act.lift .packet (parseFlowKey transaction.originalPacket)
    count fun stats => { stats with dnsServfail := stats.dnsServfail + 1 }
    let transmit ← Act.lift .packet (dnsServfailTransmitToListen transaction.localTarget
      transaction.originalPacket originalFlow transaction.dnsVip)
    return ⟨transaction.localTarget, transmit.packet, transaction.binding, transaction.token⟩
  else do
    count fun stats =>
      if transaction.remote then { stats with dnsResponseRemote := stats.dnsResponseRemote + 1 }
      else { stats with dnsResponseLocal := stats.dnsResponseLocal + 1 }
    let packet ← Act.lift .packet ((rewritePacket ⟨transaction.dnsVip.ip, transaction.client.ip,
      transaction.dnsVip.port, transaction.client.port, .udp⟩).exec packet)
    return ⟨transaction.localTarget, packet, transaction.binding, transaction.token⟩

/-- The part of `handle_dns_response` for a response that names a transaction. -/
def completeTransaction (packet : Bytes) (flow : FlowKey) (key : DnsFlowTransactionKey)
    (transaction : DnsFlowTransaction) (natNow : Instant) :
    Act FlowWorkerState FlowWorkerError (Option HandledDnsResponse) := do
  let payload ← Act.lift .packet (udpPayload packet)
  let query ← Act.lift .packet (udpPayload transaction.originalPacket)
  match ← Act.call (responseMatchesQuery query payload).attempt with
  | .error _ => do
    countSpoofed
    return none
  | .ok _ => do
    let removed ← removeDnsTransaction .session key natNow
    let transaction ← Act.expect removed
    Act.modify (rememberCompletedDnsReverse flow)
    countActive
    let response ← answerTransaction packet payload transaction
    return some response

def handleDnsResponse (packet : Bytes) (natNow : Instant) :
    Act FlowWorkerState FlowWorkerError (Option HandledDnsResponse) := do
  let fragmented ← Act.lift .packet (ipPacketIsFragmented packet)
  if fragmented then do
    countSpoofed
    return none
  else do
    let packet ← Act.lift .packet (prepareForwardedPacket packet)
    let flow ← Act.lift .packet (parseFlowKey packet)
    let state ← Act.get
    match state.dnsByReverse.get flow with
    | none => do
      count fun stats =>
        if state.dnsCompletedReverse.contains flow then
          { stats with dnsLateResponseDrop := stats.dnsLateResponseDrop + 1 }
        else { stats with dnsSpoofedResponseDrop := stats.dnsSpoofedResponseDrop + 1 }
      return none
    | some key =>
      match state.dnsByKey.get key with
      | none => do
        countSpoofed
        return none
      | some transaction => completeTransaction packet flow key transaction natNow

/-- Closes the listed transactions in turn with a SERVFAIL each; a key without a
transaction is passed over. -/
def closeTransactions (f : FlowWorkerStats → FlowWorkerStats) (config : DnsFlowConfig)
    (clock : ℕ → Instant) : List DnsFlowTransactionKey →
    Act FlowWorkerState FlowWorkerError (List ExpiredDnsTransaction)
  | [] => return []
  | key :: rest => do
    match ← removeDnsTransaction .session key (clock rest.length) with
    | none => closeTransactions f config clock rest
    | some transaction => do
      let closed ← Act.lift .packet (servfailForTransaction transaction config)
      count f
      let others ← closeTransactions f config clock rest
      return closed :: others

def expireDnsTransactions (now : Instant) (config : DnsFlowConfig) (clock : ℕ → Instant) :
    Act FlowWorkerState FlowWorkerError (List ExpiredDnsTransaction) := do
  let state ← Act.get
  let (expired, dnsDeadlines) := state.dnsDeadlines.popDue now
  Act.modify fun state => { state with dnsDeadlines }
  let transmits ← closeTransactions
    (fun stats => { stats with
      dnsTimeout := stats.dnsTimeout + 1, dnsServfail := stats.dnsServfail + 1 })
    config clock expired
  countActive
  return transmits

def abortDnsTransaction (binding : NatBinding) (config : DnsFlowConfig) (natNow : Instant) :
    Act FlowWorkerState FlowWorkerError (Option ExpiredDnsTransaction) := do
  let state ← Act.get
  match state.dnsByReverse.get binding.translated.reverse with
  | none => return none
  | some key => do
    let removed ← removeDnsTransaction .session key natNow
    let transaction ← Act.expect removed
    count fun stats => { stats with dnsServfail := stats.dnsServfail + 1 }
    let aborted ← Act.lift .packet (servfailForTransaction transaction config)
    return some aborted

def abortRemoteDnsTransactions (config : DnsFlowConfig) (clock : ℕ → Instant) :
    Act FlowWorkerState FlowWorkerError (List ExpiredDnsTransaction) := do
  let state ← Act.get
  closeTransactions (fun stats => { stats with dnsServfail := stats.dnsServfail + 1 }) config clock
    ((state.dnsByKey.toList.filter fun e => e.2.remote).map Prod.fst)

def releaseAll (clock : ℕ → Instant) :
    List DnsFlowTransaction → Act FlowWorkerState SessionError (List NatBinding)
  | [] => return []
  | transaction :: rest => do
    let state ← Act.get
    let _ ← onSessions id (SessionTable.releaseEphemeralNat state.workerId transaction.token
      (clock rest.length))
    let bindings ← releaseAll clock rest
    return transaction.binding :: bindings

def removeDnsTransactions (clock : ℕ → Instant) :
    Act FlowWorkerState SessionError (List NatBinding) := do
  let state ← Act.get
  let transactions := state.dnsByKey.toList.map Prod.snd
  Act.modify fun state =>
    { state with
      dnsByKey := .empty
      dnsByReverse := .empty
      dnsDeadlines := .empty
      dnsCompletedReverse := .empty
      dnsCompletedOrder := .empty }
  let bindings ← releaseAll clock transactions
  Act.modify fun state => { state with stats := { state.stats with dnsTransactionsActive := 0 } }
  return bindings

end Dns

end FlowWorkerState

end NewProxy
