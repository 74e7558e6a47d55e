import NewProxy.FlowLoop

/-!
# Authentication of a QUIC connection

One connection of the engine: the frames exchanged on its authentication stream and
what a round of driving it reports. The QUIC library answers arbitrarily; all it
answers during one call is an argument, and what it was handed is kept in
`Connection`. HMAC is a parameter as well.
-/
namespace NewProxy

inductive QuicRole where
  | client
  | server
  deriving DecidableEq

abbrev Nonce := Vector UInt8 16

/-- Thirty-two bytes: the shared key, an exporter value, a MAC. -/
abbrev Secret := Vector UInt8 32

abbrev Hmac := Secret → Bytes → Secret

abbrev ConnectionHandle := ℕ

abbrev StreamId := ℕ

namespace Quic

def text (s : String) : Bytes := s.toList.map fun c => UInt8.ofNat c.toNat

abbrev authRequest : UInt8 := 1
abbrev authResponse : UInt8 := 2
abbrev authConfirm : UInt8 := 3
abbrev authComplete : UInt8 := 4
def authFrameLen : ℕ := 65
def authProtocol : Bytes := text "new-proxy-auth-v2"
def emptyNonce : Nonce := Vector.replicate 16 0
def authTimeout : Duration := .fromSecs 10
def maxTrackedDcids : ℕ := 32

/-- What the engine has handed to a connection: datagrams, and bytes of the
authentication stream. -/
structure Connection where
  datagrams : List Bytes
  written : Bytes

structure AuthState where
  clientNonce : Option Nonce
  serverNonce : Option Nonce
  stream : Option StreamId
  receive : Bytes
  transmit : List Bytes
  transmitOffset : ℕ
  authenticateAfterFlush : Bool
  authenticated : Bool

inductive AuthFlushOutcome where
  | complete
  | blocked
  | failed
  deriving DecidableEq

structure ManagedConnection where
  handle : ConnectionHandle
  connection : Connection
  auth : AuthState
  dcids : HashSet Bytes
  authDeadline : Instant
  dcidLimitExceeded : Bool
  retiredDcidFrames : UInt64

section Answers

/-- `write`: one byte and as many more as there is room for, or none. -/
inductive WriteOutcome where
  | written (more : ℕ)
  | blocked
  | failed

/-- The answers while one frame is taken in and replied to: the exporter, asked for
the check and again for the reply, a random nonce, and the writes. -/
structure Exchange where
  exporter : Option Secret
  nonce : Nonce
  replyExporter : Option Secret
  writes : List WriteOutcome

/-- What the stream holds; `none` when it was reset or cannot be read. -/
structure StreamRead where
  bytes : Option Bytes
  exchange : Exchange

inductive StreamEvent where
  | openedBi (accepted : List (StreamId × StreamRead))
  | openedUni
  | readable (id : StreamId) (read : StreamRead)
  | writable (id : StreamId) (writes : List WriteOutcome)
  | stopped (id : StreamId)
  | finished (id : StreamId)
  | available

inductive Event where
  | connected (stream : Option StreamId) (exchange : Exchange)
  | datagramReceived (datagrams : List Bytes)
  | stream (event : StreamEvent)
  | connectionLost
  | other

/-- What `fill_bytes` leaves in the buffer of a connection id. -/
abbrev Draw := Vector UInt8 20

/-- An event for the endpoint, with the draws for each connection id it asks for. -/
structure EndpointEvent where
  draws : List (List Draw)

/-- The answers of a connection while it is driven. -/
structure ConnectionInput where
  events : List Event
  flush : List WriteOutcome
  retireConnectionId : UInt64
  endpointEvents : List EndpointEvent
  transmits : List OuterTransmit

end Answers

structure ConnectionDrive where
  endpointEvents : List (ConnectionHandle × EndpointEvent)
  transmits : List OuterTransmit
  datagrams : List Bytes
  authenticatedNow : Bool
  lost : Bool

def Connection.new : Connection := ⟨[], []⟩

def AuthState.default : AuthState := ⟨none, none, none, [], [], 0, false, false⟩

def ConnectionDrive.default : ConnectionDrive := ⟨[], [], [], false, false⟩

namespace ManagedConnection

def new (handle : ConnectionHandle) (now : Instant) : ManagedConnection where
  handle
  connection := .new
  auth := .default
  dcids := .empty
  authDeadline := now + authTimeout
  dcidLimitExceeded := false
  retiredDcidFrames := 0

def trackDcid (managed : ManagedConnection) (dcid : Bytes) : ManagedConnection :=
  if managed.dcids.contains dcid then managed
  else if maxTrackedDcids ≤ managed.dcids.len then { managed with dcidLimitExceeded := true }
  else { managed with dcids := managed.dcids.insert dcid () }

end ManagedConnection

def authMac (hmac : Hmac) (key : Secret) (label : Bytes) (clientNonce serverNonce : Nonce)
    (exporter : Secret) : Secret :=
  hmac key (authProtocol ++ label ++ clientNonce.toList ++ serverNonce.toList ++ exporter.toList)

def constantTimeEq (left right : Bytes) : Bool :=
  left.length = right.length ∧
    (left.zip right).foldl (fun difference pair => difference ||| (pair.1 ^^^ pair.2)) 0 = 0

/-- The loop of `flush_auth_stream`, along the answers to its writes. -/
def flushFrames : List WriteOutcome → ManagedConnection → AuthFlushOutcome × ManagedConnection
  | writes, managed =>
    match managed.auth.transmit with
    | [] => (.complete, managed)
    | frame :: rest =>
      match writes with
      | [] | .blocked :: _ => (.blocked, managed)
      | .failed :: _ => (.failed, managed)
      | .written more :: writes =>
        let room := frame.drop managed.auth.transmitOffset
        let offset := managed.auth.transmitOffset + min (more + 1) room.length
        let connection := { managed.connection with
          written := managed.connection.written ++ room.take (more + 1) }
        let auth := if offset = frame.length
          then { managed.auth with transmit := rest, transmitOffset := 0 }
          else { managed.auth with transmitOffset := offset }
        flushFrames writes { managed with connection, auth }

def flushAuthStream (writes : List WriteOutcome) (managed : ManagedConnection) :
    AuthFlushOutcome × ManagedConnection :=
  match managed.auth.stream with
  | none => (if managed.auth.transmit.isEmpty then .complete else .failed, managed)
  | some _ => flushFrames writes managed

def queueAuthFrame (hmac : Hmac) (sharedKey : Secret) (kind : UInt8) (label : Bytes)
    (clientNonce serverNonce : Nonce) (exporter : Option Secret) (writes : List WriteOutcome)
    (managed : ManagedConnection) : AuthFlushOutcome × ManagedConnection :=
  match exporter with
  | none => (.failed, managed)
  | some exporter =>
    let frame := kind :: clientNonce.toList ++ serverNonce.toList ++
      (authMac hmac sharedKey label clientNonce serverNonce exporter).toList
    flushAuthStream writes
      { managed with auth := { managed.auth with transmit := managed.auth.transmit ++ [frame] } }

/-- A connection under way and what the round reports of it so far. -/
structure Driven where
  managed : ManagedConnection
  drive : ConnectionDrive

namespace Driven

def setLost (driven : Driven) : Driven :=
  { driven with drive := { driven.drive with lost := true } }

def setAuth (f : AuthState → AuthState) (driven : Driven) : Driven :=
  { driven with managed := { driven.managed with auth := f driven.managed.auth } }

/-- `authenticated` is set and reported. -/
def authenticate (driven : Driven) : Driven :=
  { managed := { driven.managed with auth := { driven.managed.auth with authenticated := true } }
    drive := { driven.drive with authenticatedNow := true } }

/-- `authenticated` is taken back and the connection given up. -/
def revoke (driven : Driven) : Driven :=
  (driven.setAuth fun auth => { auth with authenticated := false }).setLost

/-- The frame is queued; a failure is left to the caller's `next`. -/
def queue (hmac : Hmac) (sharedKey : Secret) (kind : UInt8) (label : Bytes)
    (clientNonce serverNonce : Nonce) (exchange : Exchange)
    (next : AuthFlushOutcome → Driven → Driven) (driven : Driven) : Driven :=
  let (outcome, managed) := queueAuthFrame hmac sharedKey kind label clientNonce serverNonce
    exchange.replyExporter exchange.writes driven.managed
  next outcome { driven with managed }

def lostIfFailed : AuthFlushOutcome → Driven → Driven
  | .failed, driven => driven.setLost
  | _, driven => driven

end Driven

section Frames

variable (hmac : Hmac) (role : QuicRole) (sharedKey : Secret)

def startClientAuthentication (stream : Option StreamId) (exchange : Exchange) (driven : Driven) :
    Driven :=
  match stream with
  | none => driven.setLost
  | some stream =>
    let driven := driven.setAuth fun auth =>
      { auth with stream := some stream, clientNonce := some exchange.nonce }
    driven.queue hmac sharedKey authRequest (text "client") exchange.nonce emptyNonce exchange
      Driven.lostIfFailed

def handleAuthFrame (frame : Bytes) (exchange : Exchange) (driven : Driven) : Driven :=
  let kind := frame.byteAt 0
  let clientNonce : Nonce := frame.octetsAt 16 1
  let serverNonce : Nonce := frame.octetsAt 16 17
  let receivedMac : Secret := frame.octetsAt 32 33
  let auth := driven.managed.auth
  match exchange.exporter with
  | none => driven.setLost
  | some exporter =>
    let genuine (label : Bytes) : Bool := constantTimeEq receivedMac.toList
      (authMac hmac sharedKey label clientNonce serverNonce exporter).toList
    if role = .server ∧ kind = authRequest ∧ serverNonce = emptyNonce ∧
        genuine (text "client") then
      let driven := driven.setAuth fun auth =>
        { auth with clientNonce := some clientNonce, serverNonce := some exchange.nonce }
      driven.queue hmac sharedKey authResponse (text "server") clientNonce exchange.nonce exchange
        Driven.lostIfFailed
    else if role = .client ∧ kind = authResponse ∧ auth.clientNonce = some clientNonce ∧
        serverNonce ≠ emptyNonce ∧ genuine (text "server") then
      let driven := driven.setAuth fun auth => { auth with serverNonce := some serverNonce }
      driven.queue hmac sharedKey authConfirm (text "confirm") clientNonce serverNonce exchange
        Driven.lostIfFailed
    else if role = .server ∧ kind = authConfirm ∧ auth.clientNonce = some clientNonce ∧
        auth.serverNonce = some serverNonce ∧ genuine (text "confirm") then
      driven.queue hmac sharedKey authComplete (text "complete") clientNonce serverNonce exchange
        fun outcome driven => match outcome with
          | .complete => driven.authenticate
          | .blocked => driven.setAuth fun auth => { auth with authenticateAfterFlush := true }
          | .failed => driven.setLost
    else if role = .client ∧ kind = authComplete ∧ auth.clientNonce = some clientNonce ∧
        auth.serverNonce = some serverNonce ∧ genuine (text "complete") then
      (driven.setAuth fun auth =>
        { auth with clientNonce := some clientNonce, serverNonce := some serverNonce }).authenticate
    else driven.setLost

/-- A frame is complete at 65 bytes and more than that is refused, so the loop over
complete frames has at most one round. -/
def drainAuthStream (read : StreamRead) (driven : Driven) : Driven :=
  match driven.managed.auth.stream with
  | none => driven
  | some _ =>
    match read.bytes with
    | none => driven.revoke
    | some received =>
      let receive := driven.managed.auth.receive ++ received
      let driven := driven.setAuth fun auth => { auth with receive }
      if authFrameLen < receive.length then driven.setLost
      else if receive.length = authFrameLen then
        handleAuthFrame hmac role sharedKey receive read.exchange
          (driven.setAuth fun auth => { auth with receive := [] })
      else driven

/-- `flush_auth_stream` and what its two callers make of the outcome. -/
def flushAndAuthenticate (writes : List WriteOutcome) (driven : Driven) : Driven :=
  let (outcome, managed) := flushAuthStream writes driven.managed
  let driven := { driven with managed }
  match outcome with
  | .complete =>
    if managed.auth.authenticateAfterFlush then
      (driven.setAuth fun auth => { auth with authenticateAfterFlush := false }).authenticate
    else driven
  | .failed => driven.revoke
  | .blocked => driven

def acceptStream (driven : Driven) (accepted : StreamId × StreamRead) : Driven :=
  if driven.managed.auth.stream = none then
    drainAuthStream hmac role sharedKey accepted.2
      (driven.setAuth fun auth => { auth with stream := some accepted.1 })
  else driven.setLost

def handleStreamEvent (driven : Driven) (event : StreamEvent) : Driven :=
  match event with
  | .openedBi accepted =>
    if role = .server then accepted.foldl (acceptStream hmac role sharedKey) driven
    else driven.setLost
  | .openedUni => driven.setLost
  | .readable id read =>
    if driven.managed.auth.stream = some id then drainAuthStream hmac role sharedKey read driven
    else driven.setLost
  | .writable id writes =>
    if driven.managed.auth.stream = some id then flushAndAuthenticate writes driven
    else driven.setLost
  | .stopped _ => driven.setLost
  | .finished id => if driven.managed.auth.stream ≠ some id then driven.setLost else driven
  | .available => driven

/-- One round of the loop over `poll`; stream events are only collected there. -/
def handleEvent (driven : Driven) (event : Event) : Driven :=
  match event with
  | .connected stream exchange =>
    if role = .client then startClientAuthentication hmac sharedKey stream exchange driven
    else driven
  | .datagramReceived datagrams =>
    { driven with drive := { driven.drive with datagrams := driven.drive.datagrams ++ datagrams } }
  | .stream _ => driven
  | .connectionLost => driven.setLost
  | .other => driven

def streamEvent? : Event → Option StreamEvent
  | .stream event => some event
  | _ => none

/-- A peer that retires an id after the authentication loses the connection. -/
def checkRetired (wasAuthenticated : Bool) (retired : UInt64) (driven : Driven) : Driven :=
  let managed := driven.managed
  let noted := { driven with managed := { managed with retiredDcidFrames := retired } }
  if wasAuthenticated = false ∧ managed.auth.authenticated then noted
  else if managed.auth.authenticated ∧ managed.retiredDcidFrames < retired then noted.setLost
  else if managed.auth.authenticated = false then noted
  else driven

def finishConnectionDrive (input : ConnectionInput) (driven : Driven) : Driven :=
  { driven with
    drive := { driven.drive with
      endpointEvents := driven.drive.endpointEvents ++
        input.endpointEvents.map fun event => (driven.managed.handle, event)
      transmits := driven.drive.transmits ++ input.transmits } }

def driveConnection (now : Instant) (input : ConnectionInput) (managed : ManagedConnection) :
    Driven :=
  let late : Bool := managed.auth.authenticated = false ∧ managed.authDeadline ≤ now
  let driven : Driven :=
    ⟨managed, { ConnectionDrive.default with lost := managed.dcidLimitExceeded || late }⟩
  let driven := input.events.foldl (handleEvent hmac role sharedKey) driven
  let driven := (input.events.filterMap streamEvent?).foldl (handleStreamEvent hmac role sharedKey)
    driven
  if driven.drive.lost then finishConnectionDrive input driven
  else finishConnectionDrive input (checkRetired managed.auth.authenticated input.retireConnectionId
    (flushAndAuthenticate input.flush driven))

end Frames

end Quic

end NewProxy
