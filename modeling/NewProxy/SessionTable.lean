import NewProxy.DeadlineIndex
import NewProxy.NatTable

/-!
# The session table of a flow worker

Sessions are found by identifier, by original flow and interface, and by
deadline; each holds one lease of the SNAT table, which it shares with the
ephemeral leases of DNS transactions.
-/
namespace NewProxy

structure IoOwnerKey where
  ifindex : UInt32
  queueId : UInt32
  deriving DecidableEq

inductive TcpSessionState where
  | established
  | finSeenForward
  | finSeenReverse
  | closing
  | reset
  deriving DecidableEq

structure SessionKey where
  original : FlowKey
  interceptIfindex : UInt32
  deriving DecidableEq

structure Session where
  id : SessionId
  original : FlowKey
  nat : NatBinding
  flowWorkerId : ℕ
  interceptIo : IoOwnerKey
  quicFlowId : QuicFlowId
  expiresAt : Instant
  tcpState : Option TcpSessionState
  deriving DecidableEq

inductive SessionError where
  | wrongOwner (expected actual : ℕ)
  | unknownSession (sessionId : SessionId)
  | nat (error : NatError)
  deriving DecidableEq

inductive InterceptIoUpdate where
  | unchanged
  | corrected
  | mismatch
  deriving DecidableEq

def tcpIdleTimeout : Duration := .fromSecs 300
def tcpClosingTimeout : Duration := .fromSecs 5
def tcpRstTimeout : Duration := .fromSecs 2
def udpIdleTimeout : Duration := .fromSecs 60
def icmpIdleTimeout : Duration := .fromSecs 30

def protocolIdleTimeout : TransportProtocol → Duration
  | .tcp => tcpIdleTimeout
  | .udp => udpIdleTimeout
  | .icmp | .icmpv6 => icmpIdleTimeout

def Session.key (session : Session) : SessionKey :=
  ⟨session.original, session.interceptIo.ifindex⟩

structure SessionTable where
  ownerWorkerId : ℕ
  nextSessionId : UInt64
  byKey : HashMap SessionKey SessionId
  sessions : HashMap SessionId Session
  deadlines : DeadlineIndex SessionId
  nat : NatTable

namespace SessionTable

open Outcome (ensure okOr)

def newDual (ownerWorkerId : ℕ) (snatIpv4 : Option (Vector UInt8 4))
    (snatIpv6 : Option (Vector UInt8 16)) (first last : UInt16) :
    Outcome SessionError SessionTable := do
  let nat ← (NatTable.newDual snatIpv4 snatIpv6 first last).mapErr .nat
  return {
    ownerWorkerId
    nextSessionId := 1
    byKey := .empty
    sessions := .empty
    deadlines := .empty
    nat }

def ensureOwner (callerWorkerId : ℕ) : Act SessionTable SessionError Unit := do
  let table ← Act.get
  Act.call (ensure (callerWorkerId = table.ownerWorkerId)
    (.wrongOwner table.ownerWorkerId callerWorkerId))

/-- A call on the SNAT table. -/
def onNat {α : Type} (x : Act NatTable NatError α) : Act SessionTable SessionError α :=
  Act.zoom nat (fun nat table => { table with nat }) .nat x

/-- The TCP state after a packet and the timeout it is given. -/
def touchedState (session : Session) (flags : Option UInt8) (isReverse : Bool) :
    Option TcpSessionState × Duration :=
  let idle := match session.tcpState with
    | some .closing => tcpClosingTimeout
    | some .reset => tcpRstTimeout
    | _ => tcpIdleTimeout
  match session.original.protocol, flags with
  | .tcp, some flags =>
    if flags &&& 0x04 ≠ 0 then (some .reset, tcpRstTimeout)
    else if flags &&& 0x01 ≠ 0 then
      let nextState : TcpSessionState := match session.tcpState, isReverse with
        | some .finSeenReverse, false => .closing
        | some .finSeenForward, true => .closing
        | some .closing, _ => .closing
        | some .reset, _ => .reset
        | _, true => .finSeenReverse
        | _, false => .finSeenForward
      (some nextState,
        if nextState = .closing ∨ nextState = .reset then tcpClosingTimeout else tcpIdleTimeout)
    else (session.tcpState, idle)
  | .tcp, none => (session.tcpState, idle)
  | protocol, _ => (session.tcpState, protocolIdleTimeout protocol)

def touchTcp (callerWorkerId : ℕ) (sessionId : SessionId) (flags : Option UInt8)
    (isReverse : Bool) (now : Instant) : Act SessionTable SessionError Unit := do
  ensureOwner callerWorkerId
  let table ← Act.get
  let session ← Act.call (okOr (table.sessions.get sessionId) (.unknownSession sessionId))
  let (tcpState, timeout) := touchedState session flags isReverse
  Act.modify fun table =>
    { table with
      sessions := table.sessions.insert sessionId
        { session with tcpState, expiresAt := now + timeout }
      deadlines := (table.deadlines.unfile session.expiresAt sessionId).file
        (now + timeout) sessionId }

/-- State and timeout of a new session. -/
def initialState (protocol : TransportProtocol) (flags : Option UInt8) :
    Option TcpSessionState × Duration :=
  match protocol, flags with
  | .tcp, some flags =>
    (some .established,
      if flags &&& 0x04 ≠ 0 then tcpRstTimeout
      else if flags &&& 0x01 ≠ 0 then tcpClosingTimeout
      else tcpIdleTimeout)
  | .tcp, none => (some .established, tcpIdleTimeout)
  | protocol, _ => (none, protocolIdleTimeout protocol)

/-- `natNow` is the clock reading `NatTable::allocate` takes for itself. -/
def getOrCreateWithFlagsAt (callerWorkerId : ℕ) (original : FlowKey) (interceptIo : IoOwnerKey)
    (quicFlowId : QuicFlowId) (flags : Option UInt8) (isReverse : Bool) (now natNow : Instant) :
    Act SessionTable SessionError SessionId := do
  ensureOwner callerWorkerId
  let table ← Act.get
  let key : SessionKey := ⟨original, interceptIo.ifindex⟩
  match table.byKey.get key with
  | some sessionId => do
    touchTcp callerWorkerId sessionId flags isReverse now
    return sessionId
  | none => do
    let sessionId : SessionId := ⟨table.nextSessionId⟩
    let locator : SessionLocator := ⟨table.ownerWorkerId, sessionId⟩
    let nat ← onNat (NatTable.allocateAt sessionId original locator natNow)
    let (tcpState, timeout) := initialState original.protocol flags
    Act.modify fun table =>
      { table with
        byKey := table.byKey.insert key sessionId
        sessions := table.sessions.insert sessionId
          { id := sessionId, original, nat, flowWorkerId := table.ownerWorkerId, interceptIo,
            quicFlowId, expiresAt := now + timeout, tcpState }
        deadlines := table.deadlines.file (now + timeout) sessionId
        nextSessionId := table.nextSessionId + 1 }
    return sessionId

def get (table : SessionTable) (sessionId : SessionId) : Option Session :=
  table.sessions.get sessionId

def correctInterceptIo (callerWorkerId : ℕ) (sessionId : SessionId) (observed : IoOwnerKey) :
    Act SessionTable SessionError InterceptIoUpdate := do
  ensureOwner callerWorkerId
  let table ← Act.get
  let session ← Act.call (okOr (table.sessions.get sessionId) (.unknownSession sessionId))
  if session.interceptIo = observed then return .unchanged
  else if session.interceptIo.ifindex = observed.ifindex ∧ session.interceptIo.queueId = 0 then do
    Act.modify fun table =>
      { table with
        sessions := table.sessions.insert sessionId { session with interceptIo := observed } }
    return .corrected
  else return .mismatch

def lookupReverseLocator (table : SessionTable) (returnFlow : FlowKey) : Option SessionLocator :=
  ((table.nat.lookupReverse returnFlow).filter
    fun locator => locator.flowWorkerId = table.ownerWorkerId).filter
    fun locator => table.sessions.contains locator.sessionId

def remove (callerWorkerId : ℕ) (sessionId : SessionId) (natNow : Instant) :
    Act SessionTable SessionError Session := do
  ensureOwner callerWorkerId
  let table ← Act.get
  let session ← Act.call (okOr (table.sessions.get sessionId) (.unknownSession sessionId))
  let _ ← onNat (NatTable.removeAt sessionId natNow)
  Act.modify fun table =>
    { table with
      sessions := table.sessions.remove sessionId
      deadlines := table.deadlines.unfile session.expiresAt sessionId
      byKey := table.byKey.remove session.key }
  return session

/-- Removes the listed sessions in turn; every removal reads the clock. -/
def removeAll (callerWorkerId : ℕ) (clock : ℕ → Instant) :
    List SessionId → Act SessionTable SessionError (List Session)
  | [] => return []
  | sessionId :: rest => do
    let session ← remove callerWorkerId sessionId (clock rest.length)
    let sessions ← removeAll callerWorkerId clock rest
    return session :: sessions

def expireIdle (callerWorkerId : ℕ) (now : Instant) (clock : ℕ → Instant) :
    Act SessionTable SessionError (List Session) := do
  ensureOwner callerWorkerId
  let table ← Act.get
  let (due, deadlines) := table.deadlines.popDue now
  Act.modify fun table => { table with deadlines }
  let expired := due.filter fun sessionId =>
    (table.sessions.get sessionId).any fun session => session.expiresAt ≤ now
  removeAll callerWorkerId clock expired

def allocateEphemeralNat (callerWorkerId : ℕ) (token : SessionId) (original : FlowKey)
    (natNow : Instant) : Act SessionTable SessionError NatBinding := do
  ensureOwner callerWorkerId
  let table ← Act.get
  onNat (NatTable.allocateAt token original ⟨table.ownerWorkerId, token⟩ natNow)

def releaseEphemeralNat (callerWorkerId : ℕ) (token : SessionId) (natNow : Instant) :
    Act SessionTable SessionError NatBinding := do
  ensureOwner callerWorkerId
  onNat (NatTable.removeAt token natNow)

def rebindQuicFlow (callerWorkerId : ℕ) (oldQuicFlowId newQuicFlowId : QuicFlowId) :
    Act SessionTable SessionError ℕ := do
  ensureOwner callerWorkerId
  let table ← Act.get
  let count := (table.sessions.toList.filter fun e => e.2.quicFlowId = oldQuicFlowId).length
  Act.modify fun table =>
    { table with
      sessions := table.sessions.mapValues fun session =>
        if session.quicFlowId = oldQuicFlowId then { session with quicFlowId := newQuicFlowId }
        else session }
  return count

def removeByQuicFlow (callerWorkerId : ℕ) (quicFlowId : QuicFlowId) (clock : ℕ → Instant) :
    Act SessionTable SessionError ℕ := do
  ensureOwner callerWorkerId
  let table ← Act.get
  let sessionIds := (table.sessions.toList.filter fun e => e.2.quicFlowId = quicFlowId).map
    fun e => e.2.id
  let _ ← removeAll callerWorkerId clock sessionIds
  return sessionIds.length

end SessionTable

end NewProxy
