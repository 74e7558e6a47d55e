import NewProxy.Directory
import NewProxy.Policy
import NewProxy.PortPartition

/-!
# The loop of a flow worker

Messages of the IO workers, events of the QUIC engine and deadlines, each handled
on the worker's own state and on the two shared tables. The engine is a parameter:
`Engine` lists the calls the loop makes on it, and what the transport answers during
a call is an argument. Counters kept for statistics are left out.
-/
namespace NewProxy

open Outcome Packet

/-- `u64::to_be_bytes`. -/
def be64Bytes (w : UInt64) : Bytes :=
  [56, 48, 40, 32, 24, 16, 8, 0].map fun shift : UInt64 => (w >>> shift).toUInt8

inductive FlowMessage where
  | interceptIngress (ioOwner : IoOwnerKey) (packet : Bytes)
      (expectedLocator : Option SessionLocator)
  | tunnelIngress (ioOwner : IoOwnerKey) (dcid : Bytes) (remote : SocketAddr) (localIp : IpAddr)
      (packet : Bytes)
  | reloadPolicies (remoteDomains : Option RemoteDomainRules)

structure OuterTransmit where
  destination : SocketAddr
  sourceIp : Option IpAddr
  contents : Bytes
  segmentSize : Option ℕ
  deriving DecidableEq

inductive QuicEngineEvent where
  | transmit (transmit : OuterTransmit)
  | authenticated
  | innerPacket (packet : Bytes)
  | dcidStaged (dcid : Bytes)
  | dcidPublished (dcid : Bytes)
  | dcidRetired (dcid : Bytes)
  | replaced (dcids : List Bytes)
  | closed
  deriving DecidableEq

inductive QuicEngineError where
  | invalidDcidLength
  | missingClientConfig
  | connect
  | notConnected
  | notAuthenticated
  | emptyInnerPacket
  | datagramTooLarge
  deriving DecidableEq

/-- The calls of the loop on its engine; `I` is what the transport answers in one of them. -/
class Engine (E : Type) (I : outParam Type) where
  isAuthenticated : E → Bool
  handleOuter : I → Instant → SocketAddr → Option IpAddr → Bytes → E → E
  sendInner : I → Instant → Bytes → E → Except QuicEngineError Unit × E
  poll : I → Instant → E → Option QuicEngineEvent × E
  close : I → Instant → E → E
  reconnectClient : I → E → Except QuicEngineError Unit × E
  resolveCandidateReplacement : I → Instant → Bool → E → E

structure DnsLocalResponseClassifier where
  resolver : SocketAddr
  natIp : IpAddr
  natPortStart : UInt16
  natPortEnd : UInt16
  deriving DecidableEq

structure FlowLoopContext (E : Type) where
  role : Role
  workerId : ℕ
  state : FlowWorkerState
  engine : E
  quicFlow : QuicFlow
  flowWorkerCount : ℕ
  tunnelQueueCount : UInt32
  tunnelIfindex : UInt32
  defaultIntercept : IoOwnerKey
  localPort : UInt16
  dnsConfig : Option DnsFlowConfig
  dnsLocalResponse : Option DnsLocalResponseClassifier

structure PendingInner where
  epoch : UInt64
  packets : List Bytes
  deriving DecidableEq

namespace PendingInner

def new (epoch : UInt64) : PendingInner := ⟨epoch, []⟩

def advance (epoch : UInt64) (_ : PendingInner) : PendingInner := ⟨epoch, []⟩

/-- `none` when the packet is not taken. -/
def push (epoch : UInt64) (packet : Bytes) (pending : PendingInner) : Option PendingInner :=
  if epoch ≠ pending.epoch ∨ 1024 ≤ pending.packets.length then none
  else some { pending with packets := pending.packets ++ [packet] }

end PendingInner

inductive InnerSendOutcome where
  | sent
  | queued
  | dropped
  deriving DecidableEq

/-- What leaves a worker: a packet for an IO worker, a packet for the tunnel, and the
result of an attempt to connect again. A full channel or a blocked tunnel may still
lose it. -/
inductive Output where
  | io (transmit : IoTransmit)
  | inner (packet : Bytes)
  | reconnect (connected : Bool)
  deriving DecidableEq

/-- The context of a worker and the variables of its loop. -/
structure Thread (E : Type) where
  context : FlowLoopContext E
  reconnectEpoch : UInt64
  pendingInner : PendingInner

/-- All a step of the loop reads and writes. -/
structure Flow (E : Type) extends Thread E where
  activeDcids : ActiveDcidIndex
  reverseNat : ReverseNatDirectory
  outputs : List Output

/-- The readings made during a step, by the place that makes them: the clock, the clock
of the SNAT table, the clock inside a loop, the transport, and the exit flag. -/
structure Readings (I : Type) where
  now : ℕ → Instant
  natNow : ℕ → Instant
  loop : ℕ → ℕ → Instant
  engine : ℕ → I
  exitRequested : Bool

abbrev FlowM (E : Type) := Act (Flow E) Empty

namespace Flow

variable {E I : Type} [Engine E I] {ε α : Type}

/-- A call on the worker's state, its error handed back as a value. -/
def onState (x : Act FlowWorkerState ε α) : FlowM E (Except ε α) :=
  Act.attempt (Act.zoom (fun flow : Flow E => flow.context.state)
    (fun state flow => { flow with context := { flow.context with state } }) id x)

def onReverseNat (x : Act ReverseNatDirectory ε α) : FlowM E (Except ε α) :=
  Act.attempt (Act.zoom reverseNat (fun reverseNat flow => { flow with reverseNat }) id x)

def onActiveDcids (x : Act ActiveDcidIndex ε α) : FlowM E (Except ε α) :=
  Act.attempt (Act.zoom activeDcids (fun activeDcids flow => { flow with activeDcids }) id x)

def onEngine (f : E → α × E) : FlowM E α :=
  ⟨fun flow => (.ok (f flow.context.engine).1,
    { flow with context := { flow.context with engine := (f flow.context.engine).2 } })⟩

def output (out : Output) : FlowM E Unit :=
  Act.modify fun flow => { flow with outputs := flow.outputs ++ [out] }

def sendIo (transmit : IoTransmit) : FlowM E Unit := output (.io transmit)

/-- `parse_flow_key(packet).ok()`. -/
def flowOf (packet : Bytes) : FlowM E (Option FlowKey) := do
  match ← Act.call (parseFlowKey packet).attempt with
  | .ok flow => return some flow
  | .error _ => return none

section Directory

def publishSession (sessionId : SessionId) (site : ℕ) (r : Readings I) : FlowM E Bool := do
  let flow ← Act.get
  match flow.context.state.session sessionId with
  | none => return false
  | some session =>
    match ← onReverseNat (ReverseNatDirectory.publish session.nat
        ⟨flow.context.workerId, sessionId⟩) with
    | .ok _ => return true
    | .error _ => do
      let _ ← onState (FlowWorkerState.removeSession sessionId (r.natNow site))
      return false

def retireEntry (binding : NatBinding) (sessionId : SessionId) : FlowM E Unit :=
  Act.modify fun flow =>
    { flow with
      reverseNat := flow.reverseNat.retire binding ⟨flow.context.workerId, sessionId⟩ }

def retireSession (sessionId : SessionId) (site : ℕ) (r : Readings I) : FlowM E Unit := do
  match ← onState (FlowWorkerState.removeSession sessionId (r.natNow site)) with
  | .ok session => retireEntry session.nat sessionId
  | .error _ => return ()

def publishDnsReverse (binding : NatBinding) (transactionId : SessionId) : FlowM E Bool := do
  let flow ← Act.get
  match ← onReverseNat (ReverseNatDirectory.publish binding
      ⟨flow.context.workerId, transactionId⟩) with
  | .ok _ => return true
  | .error _ => return false

def retireDnsReverse (binding : NatBinding) (transactionId : SessionId) : FlowM E Unit :=
  retireEntry binding transactionId

end Directory

def sendInner (packet : Bytes) (site : ℕ) (r : Readings I) :
    FlowM E (Except QuicEngineError Unit) := do
  output (.inner packet)
  onEngine (Engine.sendInner (r.engine site) (r.now site) packet)

def sendOrQueueInner (packet : Bytes) (reconnectEpoch : UInt64) (site : ℕ) (r : Readings I) :
    FlowM E InnerSendOutcome := do
  match ← sendInner packet site r with
  | .ok _ => return .sent
  | .error .notAuthenticated | .error .notConnected => do
    let flow ← Act.get
    match flow.pendingInner.push reconnectEpoch packet with
    | some pendingInner => do
      Act.modify fun flow => { flow with pendingInner }
      return .queued
    | none => return .dropped
  | .error _ => return .dropped

section Messages

def isDnsLocalResolverCandidate (packet : Bytes) (classifier : DnsLocalResponseClassifier) :
    FlowM E Bool := do
  let flow ← flowOf packet
  return flow.any fun flow =>
    flow.protocol = .udp && flow.source = classifier.resolver.ip &&
      flow.sourcePort = classifier.resolver.port && flow.destination = classifier.natIp &&
      classifier.natPortStart ≤ flow.destinationPort && flow.destinationPort ≤ classifier.natPortEnd

/-- A response that completed a transaction takes the entry of its tuple with it. -/
def completeDns : Except FlowWorkerError (Option HandledDnsResponse) → FlowM E Unit
  | .ok (some restored) => do
    retireDnsReverse restored.binding restored.transactionId
    sendIo ⟨restored.localTarget, restored.packet, none⟩
  | _ => return ()

def sendRestored : Except FlowWorkerError (Option HandledReverse) → FlowM E Unit
  | .ok (some restored) => sendIo ⟨restored.localTarget, restored.packet, none⟩
  | _ => return ()

/-- A packet of the local resolver. Without a locator it is left to what follows. -/
def handleDnsCandidate (packet : Bytes) (expectedLocator : Option SessionLocator)
    (r : Readings I) : FlowM E Bool := do
  match expectedLocator with
  | none => return false
  | some locator => do
    let returnFlow ← flowOf packet
    let flow ← Act.get
    if returnFlow.any (flow.context.state.dnsReverseMatches · locator) then do
      completeDns (← onState (FlowWorkerState.handleDnsResponse packet (r.natNow 0)))
      return true
    else do
      sendRestored (← onState (FlowWorkerState.handleReverseFor packet locator (r.now 0)))
      return true

/-- `true` for a packet of the local resolver that needs no more handling. -/
def handleDnsReturn (packet : Bytes) (expectedLocator : Option SessionLocator) (r : Readings I) :
    FlowM E Bool := do
  let flow ← Act.get
  match flow.context.dnsLocalResponse with
  | none => return false
  | some classifier =>
    if ← isDnsLocalResolverCandidate packet classifier then
      handleDnsCandidate packet expectedLocator r
    else return false

/-- The tuple of a new transaction is published, or the transaction is given up. -/
def publishOrAbort (binding : NatBinding) (transactionId : SessionId) (config : DnsFlowConfig)
    (r : Readings I) (send : FlowM E Unit) : FlowM E Unit := do
  if ← publishDnsReverse binding transactionId then send
  else
    match ← onState (FlowWorkerState.abortDnsTransaction binding config (r.natNow 2)) with
    | .ok (some aborted) => sendIo aborted.transmit
    | _ => return ()

/-- `false` for a packet that is not a query to the listener. -/
def handleDnsIngress (ioOwner : IoOwnerKey) (packet : Bytes) (config : DnsFlowConfig)
    (reconnectEpoch : UInt64) (r : Readings I) : FlowM E Bool := do
  match ← onState
    (FlowWorkerState.handleDnsQueryAt ioOwner packet config (r.now 1) (r.natNow 1)) with
  | .ok (.local transmit binding transactionId) => do
    publishOrAbort binding transactionId config r (sendIo transmit)
    return true
  | .ok (.servfail transmit) => do
    sendIo transmit
    return true
  | .ok (.remote packet binding transactionId) => do
    publishOrAbort binding transactionId config r do
      let _ ← sendOrQueueInner packet reconnectEpoch 2 r
      return ()
    return true
  | .error (.dns .notDnsQuery) => return false
  | .error _ => return true

/-- An ordinary packet of the intercept side on its way into the tunnel. -/
def handleForward (ioOwner : IoOwnerKey) (packet : Bytes) (reconnectEpoch : UInt64)
    (r : Readings I) : FlowM E Unit := do
  let flow ← Act.get
  if Engine.isAuthenticated flow.context.engine = false then return ()
  else
    match ← onState (FlowWorkerState.handleIntercept ioOwner packet flow.context.quicFlow
        ⟨flow.context.tunnelIfindex, flow.context.quicFlow.tunnelQueueId⟩ (r.now 3)
        (r.natNow 3)) with
    | .error _ => return ()
    | .ok handled =>
      if ← publishSession handled.sessionId 4 r then
        match ← sendOrQueueInner handled.transmit.packet reconnectEpoch 5 r with
        | .dropped => retireSession handled.sessionId 6 r
        | _ => return ()
      else return ()

def handleClientIngress (ioOwner : IoOwnerKey) (packet : Bytes)
    (expectedLocator : Option SessionLocator) (reconnectEpoch : UInt64) (r : Readings I) :
    FlowM E Unit := do
  let flow ← Act.get
  match flow.context.dnsConfig with
  | none => handleForward ioOwner packet reconnectEpoch r
  | some config =>
    if ← handleDnsReturn packet expectedLocator r then return ()
    else
      let flow ← Act.get
      let config := { config with remoteAvailable := Engine.isAuthenticated flow.context.engine }
      if ← handleDnsIngress ioOwner packet config reconnectEpoch r then return ()
      else handleForward ioOwner packet reconnectEpoch r

def handleServerIngress (ioOwner : IoOwnerKey) (packet : Bytes)
    (expectedLocator : Option SessionLocator) (reconnectEpoch : UInt64) (r : Readings I) :
    FlowM E Unit := do
  let flow ← Act.get
  match expectedLocator with
  | none => return ()
  | some locator =>
    if locator.flowWorkerId ≠ flow.context.workerId then return ()
    else
      match ← onState (FlowWorkerState.handleServerReverse ioOwner packet locator (r.now 0)) with
      | .ok (some restored) => do
        let _ ← sendOrQueueInner restored.packet reconnectEpoch 1 r
        return ()
      | _ => return ()

def handleFlowMessage (message : FlowMessage) (reconnectEpoch : UInt64) (r : Readings I) :
    FlowM E Unit := do
  match message with
  | .reloadPolicies remoteDomains =>
    Act.modify fun flow =>
      match flow.context.dnsConfig, remoteDomains with
      | some config, some remoteDomains =>
        { flow with context :=
          { flow.context with dnsConfig := some { config with remoteDomains } } }
      | _, _ => flow
  | .interceptIngress ioOwner packet expectedLocator => do
    let flow ← Act.get
    match flow.context.role with
    | .client => handleClientIngress ioOwner packet expectedLocator reconnectEpoch r
    | .server => handleServerIngress ioOwner packet expectedLocator reconnectEpoch r
  | .tunnelIngress _ _ remote localIp packet =>
    onEngine fun engine =>
      ((), Engine.handleOuter (r.engine 0) (r.now 0) remote (some localIp) packet engine)

end Messages

section Events

/-- `contents` in pieces of `size`, the last one shorter. -/
def chunks (size : ℕ) : ℕ → Bytes → List Bytes
  | 0, _ => []
  | fuel + 1, contents =>
    if contents.isEmpty then [] else contents.take size :: chunks size fuel (contents.drop size)

def splitOuterTransmit (contents : Bytes) (segmentSize : Option ℕ) : List Bytes :=
  match segmentSize.filter fun size => 0 < size ∧ size < contents.length with
  | none => [contents]
  | some size => chunks size contents.length contents

/-- The packets that waited go out in turn; one that does not is put back. -/
def flushPending (r : Readings I) : ℕ → List Bytes → FlowM E Unit
  | _, [] => return ()
  | site, packet :: rest => do
    match ← sendInner packet site r with
    | .ok _ => do
      Act.modify fun flow =>
        { flow with pendingInner := { flow.pendingInner with packets := rest } }
      flushPending r (site + 1) rest
    | .error _ => return ()

def closeEngine (site : ℕ) (r : Readings I) : FlowM E Unit :=
  onEngine fun engine => ((), Engine.close (r.engine site) (r.now site) engine)

/-- A packet on the tuple of an active transaction may be its response. -/
def handleDnsInner (packet : Bytes) (r : Readings I) :
    FlowM E (Except FlowWorkerError (Option HandledDnsResponse)) := do
  let flow ← Act.get
  let returnFlow ← flowOf packet
  if returnFlow.any flow.context.state.hasDnsReverse then
    onState (FlowWorkerState.handleDnsResponse packet (r.natNow 1))
  else return .ok none

/-- An inner packet that came out of the tunnel on the client's side. -/
def handleClientInner (packet : Bytes) (r : Readings I) : FlowM E Unit := do
  match ← handleDnsInner packet r with
  | .ok none => sendRestored (← onState (FlowWorkerState.handleReverse packet (r.now 2)))
  | restored => completeDns restored

def handleServerPacket (packet : Bytes) (r : Readings I) : FlowM E Unit := do
  let flow ← Act.get
  match ← onState (FlowWorkerState.handleServerInner flow.context.defaultIntercept packet
      flow.context.quicFlow (r.now 1) (r.natNow 1)) with
  | .error _ => return ()
  | .ok handled =>
    if ← publishSession handled.sessionId 2 r then sendIo handled.transmit else return ()

/-- Gives up the remote queries. What the abort returns is not looked at. -/
def abortRemote (r : Readings I) : FlowM E Unit := do
  let flow ← Act.get
  match flow.context.dnsConfig with
  | some config => do
    let _ ← onState (FlowWorkerState.abortRemoteDnsTransactions config (r.loop 1))
    return ()
  | none => return ()

/-- The transport is gone. -/
def handleClosed (reconnectEpoch : UInt64) (r : Readings I) : FlowM E Unit := do
  Act.modify fun flow => { flow with pendingInner := flow.pendingInner.advance reconnectEpoch }
  abortRemote r
  let flow ← Act.get
  let closedFlowId := flow.context.quicFlow.id
  Act.modify fun flow => { flow with activeDcids := flow.activeDcids.closeFlow closedFlowId }
  if r.exitRequested then return ()
  else
    let nextFlowId : QuicFlowId :=
      ⟨closedFlowId.value + UInt64.ofNat flow.context.flowWorkerCount⟩
    match QuicFlow.new nextFlowId flow.context.workerId (be64Bytes nextFlowId.value)
        flow.context.tunnelQueueCount with
    | .error _ => return ()
    | .ok quicFlow => do
      Act.modify fun flow => { flow with context := { flow.context with quicFlow } }
      let _ ← onState (FlowWorkerState.rebindQuicFlow closedFlowId nextFlowId)
      if flow.context.role = .client then do
        let result ← onEngine (Engine.reconnectClient (r.engine 1))
        output (.reconnect result.isOk)
      else return ()

def handleEngineEvent (event : QuicEngineEvent) (reconnectEpoch : UInt64) (r : Readings I) :
    FlowM E Unit := do
  match event with
  | .transmit transmit =>
    Act.modify fun flow =>
      let target : IoOwnerKey := ⟨flow.context.tunnelIfindex, flow.context.quicFlow.tunnelQueueId⟩
      let route : OuterRoute := ⟨transmit.sourceIp, flow.context.localPort, transmit.destination⟩
      { flow with
        outputs := flow.outputs ++ (splitOuterTransmit transmit.contents transmit.segmentSize).map
          fun packet => .io ⟨target, packet, some route⟩ }
  | .authenticated => do
    let flow ← Act.get
    if flow.pendingInner.epoch = reconnectEpoch then flushPending r 1 flow.pendingInner.packets
    else return ()
  | .innerPacket packet => do
    let flow ← Act.get
    match flow.context.role with
    | .server => handleServerPacket packet r
    | .client => handleClientInner packet r
  | .dcidPublished dcid => do
    let flow ← Act.get
    match ← onActiveDcids (ActiveDcidIndex.publishForFlow dcid flow.context.quicFlow) with
    | .ok _ => return ()
    | .error _ => closeEngine 1 r
  | .dcidStaged dcid => do
    let flow ← Act.get
    match ← onActiveDcids (ActiveDcidIndex.stageForFlow dcid flow.context.quicFlow) with
    | .ok _ => return ()
    | .error _ => closeEngine 1 r
  | .dcidRetired dcid =>
    Act.modify fun flow =>
      { flow with activeDcids := flow.activeDcids.retireForFlow dcid flow.context.quicFlow }
  | .replaced dcids => do
    let flow ← Act.get
    let published ← onActiveDcids (ActiveDcidIndex.publishBatchForFlow dcids flow.context.quicFlow)
    onEngine fun engine => ((), Engine.resolveCandidateReplacement (r.engine 1) (r.now 1)
      published.isOk engine)
    if published.isOk then
      Act.modify fun flow => { flow with pendingInner := flow.pendingInner.advance reconnectEpoch }
    else return ()
  | .closed => handleClosed reconnectEpoch r

/-- One round of `drain_engine`; `false` when the engine has no event. -/
def pollEngine (reconnectEpoch : UInt64) (r : Readings I) : FlowM E Bool := do
  match ← onEngine (Engine.poll (r.engine 0) (r.now 0)) with
  | none => return false
  | some event => do
    handleEngineEvent event reconnectEpoch r
    return true

/-- `drain_engine`, with the readings of its rounds; `false` when they run out first. -/
def drainEngine (reconnectEpoch : UInt64) : List (Readings I) → FlowM E Bool
  | [] => return false
  | r :: rest => do
    if ← pollEngine reconnectEpoch r then drainEngine reconnectEpoch rest else return true

end Events

section Deadlines

def expireIdleSessions (r : Readings I) : FlowM E Unit := do
  match ← onState (FlowWorkerState.expireIdleSessions (r.now 0) (r.loop 0)) with
  | .error _ => return ()
  | .ok expired => expired.forM fun session => retireEntry session.nat session.id

def expireDnsTransactions (r : Readings I) : FlowM E Unit := do
  let flow ← Act.get
  match flow.context.dnsConfig with
  | none => return ()
  | some config =>
    match ← onState (FlowWorkerState.expireDnsTransactions (r.now 0) config (r.loop 0)) with
    | .error _ => return ()
    | .ok transmits => transmits.forM fun expired => do
      retireDnsReverse expired.binding expired.transactionId
      sendIo expired.transmit

end Deadlines

section Steps

/-- What a worker does between two looks at its queue: a message, one round of
`drain_engine`, the two expiries, a new reconnect epoch, and the end of the loop. -/
inductive Step (I : Type) where
  | message (message : FlowMessage) (r : Readings I)
  | poll (r : Readings I)
  | expireDnsTransactions (r : Readings I)
  | expireIdleSessions (r : Readings I)
  | reconnect (requestedEpoch : UInt64) (r : Readings I)
  | exit (r : Readings I)

def renewEpoch (requestedEpoch : UInt64) (r : Readings I) : FlowM E Unit := do
  let flow ← Act.get
  if requestedEpoch ≠ flow.reconnectEpoch then do
    Act.modify fun flow =>
      { flow with
        reconnectEpoch := requestedEpoch
        pendingInner := flow.pendingInner.advance requestedEpoch }
    closeEngine 0 r
  else return ()

def Step.act : Step I → FlowM E Unit
  | .message received r => do
    let flow ← Act.get
    handleFlowMessage received flow.reconnectEpoch r
  | .poll r => do
    let flow ← Act.get
    let _ ← pollEngine flow.reconnectEpoch r
    return ()
  | .expireDnsTransactions r => Flow.expireDnsTransactions r
  | .expireIdleSessions r => Flow.expireIdleSessions r
  | .reconnect requestedEpoch r => renewEpoch requestedEpoch r
  | .exit r => closeEngine 0 r

end Steps

end Flow

/-! ## The workers of one process -/

def dnsFlowConfig (config : ApplianceConfig) : Option DnsFlowConfig :=
  config.dns.map fun dns =>
    { listen := dns.listen
      localResolver := dns.localResolver
      remoteResolver := dns.remoteResolver
      remoteDomains := .new dns.remoteDomains
      transactionCapacity := dns.transactionCapacity
      timeout := .fromSecs dns.timeoutSeconds
      remoteAvailable := false }

def dnsLocalResponseClassifier (config : ApplianceConfig) : Option DnsLocalResponseClassifier := do
  let dns ← config.dns
  let natIp ← if dns.localResolver.ip.isV4 then config.nat.addressV4.map IpAddr.v4
    else config.nat.addressV6.map IpAddr.v6
  return ⟨dns.localResolver, natIp, config.nat.portStart, config.nat.portEnd⟩

/-- What the interfaces and the socket of the tunnel add to the configuration. -/
structure Placement where
  tunnelQueueCount : UInt32
  tunnelIfindex : UInt32
  defaultIntercept : IoOwnerKey
  localPort : UInt16

inductive StartError where
  | natRangeTooSmall (workers : ℕ)
  | interface (error : SessionError)
  | quic (error : QuicFlowError)
  deriving DecidableEq

/-- The context a flow worker is started with. -/
def startThread {E : Type} (config : ApplianceConfig) (placement : Placement) (engine : E)
    (epoch : UInt64) (workerId : ℕ) : Outcome StartError (Thread E) := do
  let ports ← workerPortRange config.nat.portStart config.nat.portEnd workerId
      config.flowWorkerCount
  let (first, last) ← okOr ports (.natRangeTooSmall config.flowWorkerCount)
  let state ← (FlowWorkerState.newDual workerId config.nat.addressV4 config.nat.addressV6 first
    last).mapErr .interface
  let id : QuicFlowId := ⟨UInt64.ofNat workerId + 1⟩
  let quicFlow ← (QuicFlow.new id workerId (be64Bytes id.value)
    placement.tunnelQueueCount).mapErr .quic
  return {
    context := {
      role := config.role
      workerId, state, engine, quicFlow
      flowWorkerCount := config.flowWorkerCount
      tunnelQueueCount := placement.tunnelQueueCount
      tunnelIfindex := placement.tunnelIfindex
      defaultIntercept := placement.defaultIntercept
      localPort := placement.localPort
      dnsConfig := dnsFlowConfig config
      dnsLocalResponse := dnsLocalResponseClassifier config }
    reconnectEpoch := epoch
    pendingInner := .new epoch }

/-- The flow workers of a process and the tables they share. -/
structure System (E : Type) (n : ℕ) where
  threads : Fin n → Thread E
  activeDcids : ActiveDcidIndex
  reverseNat : ReverseNatDirectory

namespace System

variable {E I : Type} [Engine E I] {n : ℕ}

/-- The system as a step of worker `w` sees it. -/
def flow (system : System E n) (w : Fin n) : Flow E :=
  { system.threads w with
    activeDcids := system.activeDcids
    reverseNat := system.reverseNat
    outputs := [] }

def step (system : System E n) (w : Fin n) (step : Flow.Step I) : System E n :=
  let flow := (step.act.run (system.flow w)).2
  { threads := Function.update system.threads w flow.toThread
    activeDcids := flow.activeDcids
    reverseNat := flow.reverseNat }

/-- The system after steps of its workers in any order. -/
def after (system : System E n) (steps : List (Fin n × Flow.Step I)) : System E n :=
  steps.foldl (fun system s => system.step s.1 s.2) system

/-- Every worker has its start context, and nothing has been published. -/
structure Started (config : ApplianceConfig) (placement : Placement)
    (system : System E config.flowWorkerCount) : Prop where
  threads : ∀ w : Fin config.flowWorkerCount, ∃ engine epoch,
    startThread config placement engine epoch w = .ok (system.threads w)
  activeDcids : system.activeDcids = .empty
  reverseNat : system.reverseNat = .empty

end System

end NewProxy
