import NewProxy.HashMap
import NewProxy.Packet

/-!
# DNS messages as the flow plane reads them

Question parsing, section validation, the EDNS clamp and the keys a transaction
is found by. Names are the UTF-8 bytes of the source's strings. A name may run
through compression pointers to any earlier or later place of the message, so
each reader bounds the number of its rounds.
-/
namespace NewProxy

structure SocketAddr where
  ip : IpAddr
  port : UInt16
  deriving DecidableEq

structure DnsQuestion where
  qname : Bytes
  qtype : UInt16
  qclass : UInt16
  deriving DecidableEq

inductive DnsRoute where
  | local (question : DnsQuestion)
  | remote (question : DnsQuestion)
  | localFallback
  deriving DecidableEq

inductive DnsTransactionKey where
  | question (client : SocketAddr) (id : UInt16) (qname : Bytes) (qtype qclass : UInt16)
  | opaqueQuery (client : SocketAddr) (id : Option UInt16) (payloadHash : UInt64)
  deriving DecidableEq

inductive DnsError where
  | truncated
  | nonStandardOpcode
  | questionCount
  | malformedName
  | responseMismatch
  | notQuery
  deriving DecidableEq

structure RemoteDomainRules where
  suffixes : HashSet Bytes

namespace RemoteDomainRules

def new (domains : List Bytes) : RemoteDomainRules :=
  ⟨domains.foldl (fun suffixes domain => HashMap.insert suffixes domain ()) .empty⟩

/-- The rests of a name behind each of its dots. -/
def afterDots : Bytes → List Bytes
  | [] => []
  | byte :: rest => if byte = 46 then rest :: afterDots rest else afterDots rest

def matchesQname (rules : RemoteDomainRules) (qname : Bytes) : Bool :=
  rules.suffixes.contains qname || (afterDots qname).any rules.suffixes.contains

end RemoteDomainRules

namespace Dns

open Outcome (ensure okOr fail)

def dnsPayloadMax : ℕ := 1232

def fnv1a (bytes : Bytes) : UInt64 :=
  bytes.foldl (fun hash byte => (hash ^^^ byte.toUInt64) * 0x100000001b3) 0xcbf29ce484222325

def dnsId (payload : Bytes) : Option UInt16 :=
  (payload.getRange 0 2).map fun header => header.wordAt 0

def isAsciiAlphanumeric (byte : UInt8) : Bool :=
  48 ≤ byte && byte ≤ 57 || 65 ≤ byte && byte ≤ 90 || 97 ≤ byte && byte ≤ 122

def toAsciiLowercase (byte : UInt8) : UInt8 :=
  if 65 ≤ byte ∧ byte ≤ 90 then byte + 32 else byte

/-- Letters, digits and inner hyphens; what passes is ASCII, so that reading it as
text cannot fail. -/
def normalizeLabel (label : Bytes) : Outcome DnsError Bytes := do
  ensure (label ≠ [] ∧ label.head? ≠ some 45 ∧ label.getLast? ≠ some 45 ∧
    label.all fun byte => isAsciiAlphanumeric byte || byte = 45) .malformedName
  return label.map toAsciiLowercase

/-- `labels.join(".")`. -/
def joinLabels (labels : List Bytes) : Bytes := List.intercalate [46] labels

/-- The target of the compression pointer with these two bytes. -/
def pointerTarget (first next : UInt8) : ℕ := (first &&& 0x3f).toNat * 256 + next.toNat

/-- The rounds of `parseName`: labels read so far, where the name ends in place,
and the offsets already visited. -/
def parseNameFrom (payload : Bytes) : ℕ → ℕ → List Bytes → Option ℕ → List ℕ →
    Outcome DnsError (Bytes × ℕ)
  | 0, _, _, _, _ => fail .malformedName
  | rounds + 1, offset, labels, nextOffset, seen =>
    if offset ∈ seen then fail .malformedName
    else do
      let length ← okOr payload[offset]? .truncated
      if length &&& 0xc0 = 0xc0 then do
        let next ← okOr payload[offset + 1]? .truncated
        ensure (pointerTarget length next < payload.length) .malformedName
        parseNameFrom payload rounds (pointerTarget length next) labels
          (some (nextOffset.getD (offset + 2))) (offset :: seen)
      else if length &&& 0xc0 ≠ 0 then fail .malformedName
      else if length = 0 then do
        ensure (labels ≠ []) .malformedName
        return (joinLabels labels, nextOffset.getD (offset + 1))
      else do
        let label ← okOr (payload.getRange (offset + 1) (offset + 1 + length.toNat)) .truncated
        let label ← normalizeLabel label
        parseNameFrom payload rounds (offset + 1 + length.toNat) (labels ++ [label]) nextOffset
          (offset :: seen)

def parseName (payload : Bytes) (offset : ℕ) : Outcome DnsError (Bytes × ℕ) :=
  parseNameFrom payload 128 offset [] none []

def validateNamePointer (payload : Bytes) (offset ownerStart : ℕ) : Outcome DnsError Unit := do
  let next ← okOr payload[offset + 1]? .truncated
  let first ← payload.index offset
  ensure (pointerTarget first next < ownerStart) .malformedName
  let _ ← parseName payload (pointerTarget first next)
  return ()

def skipNameFrom (payload : Bytes) (start : ℕ) : ℕ → ℕ → Outcome DnsError ℕ
  | 0, _ => fail .malformedName
  | rounds + 1, offset => do
    let length ← okOr payload[offset]? .truncated
    if length &&& 0xc0 = 0xc0 then do
      validateNamePointer payload offset start
      return offset + 2
    else if length &&& 0xc0 ≠ 0 then fail .malformedName
    else if length = 0 then return offset + 1
    else do
      ensure (offset + 1 + length.toNat ≤ payload.length) .truncated
      skipNameFrom payload start rounds (offset + 1 + length.toNat)

def skipName (payload : Bytes) (offset : ℕ) : Outcome DnsError ℕ :=
  skipNameFrom payload offset 128 offset

def skipResourceRecord (payload : Bytes) (offset : ℕ) : Outcome DnsError ℕ := do
  let offset ← skipName payload offset
  let rr ← okOr (payload.getRange offset (offset + 10)) .truncated
  let stop := offset + 10 + (rr.wordAt 8).toNat
  ensure (stop ≤ payload.length) .truncated
  return stop

def skipResourceRecords (payload : Bytes) : ℕ → ℕ → Outcome DnsError ℕ
  | 0, offset => .ok offset
  | count + 1, offset => do
    let offset ← skipResourceRecord payload offset
    skipResourceRecords payload count offset

def parseQuestionFields (payload : Bytes) : Outcome DnsError DnsQuestion := do
  let header ← okOr (payload.getRange 0 12) .truncated
  ensure (header.wordAt 4 = 1) .questionCount
  let (qname, offset) ← parseName payload 12
  let fields ← okOr (payload.getRange offset (offset + 4)) .truncated
  return { qname, qtype := fields.wordAt 0, qclass := fields.wordAt 2 }

def parseQuestion (payload : Bytes) : Outcome DnsError DnsQuestion := do
  let header ← okOr (payload.getRange 0 12) .truncated
  let flags := header.wordAt 2
  ensure (flags &&& 0x8000 = 0) .notQuery
  ensure (flags &&& 0x7800 = 0) .nonStandardOpcode
  parseQuestionFields payload

/-- `u16::saturating_add`. -/
def saturatingAdd (a b : UInt16) : UInt16 := .ofNat (min (a.toNat + b.toNat) 65535)

def validateMessage (payload : Bytes) (response : Bool) : Outcome DnsError DnsQuestion := do
  let header ← okOr (payload.getRange 0 12) .truncated
  let flags := header.wordAt 2
  ensure (flags &&& 0x8000 ≠ 0 ↔ response = true)
    (if response then .responseMismatch else .notQuery)
  ensure (flags &&& 0x7800 = 0) .nonStandardOpcode
  let question ← parseQuestionFields payload
  let offset ← skipName payload 12
  let count := saturatingAdd (saturatingAdd (header.wordAt 6) (header.wordAt 8)) (header.wordAt 10)
  let offset ← skipResourceRecords payload count.toNat (offset + 4)
  ensure (offset = payload.length) .truncated
  return question

def validateQuery (payload : Bytes) : Outcome DnsError DnsQuestion :=
  validateMessage payload false

def classifyQuery {ε : Type} (payload : Bytes) (remoteDomains : RemoteDomainRules) :
    Outcome ε DnsRoute := do
  match ← (validateQuery payload).attempt with
  | .ok question =>
    if remoteDomains.matchesQname question.qname then return .remote question
    else return .local question
  | .error _ => return .localFallback

def transactionKey {ε : Type} (client : SocketAddr) (payload : Bytes) :
    Outcome ε DnsTransactionKey := do
  match ← (validateQuery payload).attempt with
  | .ok question => do
    let id ← Outcome.expect (dnsId payload)
    return .question client id question.qname question.qtype question.qclass
  | .error _ => return .opaqueQuery client (dnsId payload) (fnv1a payload)

def responseMatchesQuery (query response : Bytes) : Outcome DnsError Unit := do
  let queryId ← okOr (dnsId query) .truncated
  let responseId ← okOr (dnsId response) .truncated
  ensure (responseId = queryId) .responseMismatch
  let header ← okOr (response.getRange 0 12) .truncated
  let flags := header.wordAt 2
  ensure (flags &&& 0x8000 ≠ 0 ∧ flags &&& 0x7800 = 0) .responseMismatch
  let queryQuestion ← (parseQuestion query).mapErr fun _ => .responseMismatch
  let responseQuestion ← (validateMessage response true).mapErr fun _ => .responseMismatch
  ensure (responseQuestion = queryQuestion) .responseMismatch

def skipQuestions (payload : Bytes) : ℕ → ℕ → Outcome DnsError ℕ
  | 0, offset => .ok offset
  | count + 1, offset => do
    let offset ← skipName payload offset
    ensure (offset + 4 ≤ payload.length) .truncated
    skipQuestions payload count (offset + 4)

def lowerClass (lower : Bool) (offset : ℕ) : Act Bytes DnsError Unit :=
  if lower then Bytes.put (offset + 2) (be16Bytes (.ofNat dnsPayloadMax)) else pure ()

/-- The additional records, with every OPT class above the limit lowered in place
while the walk is on. -/
def clampAdditional : ℕ → ℕ → Bool → Act Bytes DnsError (Bool × ℕ)
  | 0, offset, clamped => return (clamped, offset)
  | count + 1, offset, clamped => do
    let payload ← Act.get
    let offset ← Act.call (skipName payload offset)
    let rr ← Act.call (okOr (payload.getRange offset (offset + 10)) .truncated)
    let lower := decide (rr.wordAt 0 = 41 ∧ UInt16.ofNat dnsPayloadMax < rr.wordAt 2)
    lowerClass lower offset
    let stop := offset + 10 + (rr.wordAt 8).toNat
    Act.call (ensure (stop ≤ payload.length) .truncated)
    clampAdditional count stop (clamped || lower)

def clampEdnsUdpPayload : Act Bytes DnsError Bool := do
  let payload ← Act.get
  let header ← Act.call (okOr (payload.getRange 0 12) .truncated)
  let offset ← Act.call (skipQuestions payload (header.wordAt 4).toNat 12)
  let offset ← Act.call (skipResourceRecords payload
    (saturatingAdd (header.wordAt 6) (header.wordAt 8)).toNat offset)
  let (clamped, offset) ← clampAdditional (header.wordAt 10).toNat offset false
  Act.call (ensure (offset = payload.length) .truncated)
  return clamped

end Dns

end NewProxy
