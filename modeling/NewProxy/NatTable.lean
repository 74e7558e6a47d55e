import NewProxy.HashMap
import NewProxy.OrdMap
import NewProxy.PacketLayout

/-!
# The SNAT table of a flow worker

Ports are leased to sessions one each. The table keeps four collections in step:
free ports, bindings by session, locators by return key, and return keys whose
reuse is delayed. `Represents` connects it to what an observer of its calls has
seen succeed, a ledger of leases.
-/
namespace NewProxy

/-- Instants and durations are counted in nanoseconds. -/
abbrev Instant := ℕ

abbrev Duration := ℕ

def Duration.fromSecs (seconds : ℕ) : Duration := seconds * 1000000000

structure SessionId where
  value : UInt64
  deriving DecidableEq

structure QuicFlowId where
  value : UInt64
  deriving DecidableEq

structure SessionLocator where
  flowWorkerId : ℕ
  sessionId : SessionId
  deriving DecidableEq

/-- `flow` answers packets of `translated`. Echo messages answer by identifier,
whatever their type. -/
def FlowKey.ReturnsTo (flow translated : FlowKey) : Prop :=
  flow.source = translated.destination ∧ flow.destination = translated.source ∧
    flow.protocol = translated.protocol ∧
    if translated.protocol.isEcho then flow.sourcePort = translated.sourcePort
    else flow.sourcePort = translated.destinationPort ∧
      flow.destinationPort = translated.sourcePort

/-- The key a return packet is looked up by. -/
structure ReverseNatKey where
  flow : FlowKey
  deriving DecidableEq

namespace ReverseNatKey

def fromTranslatedFlow (flow : FlowKey) : ReverseNatKey :=
  match flow.protocol with
  | .tcp | .udp => ⟨flow.reverse⟩
  | .icmp | .icmpv6 =>
    ⟨{ source := flow.destination
       destination := flow.source
       sourcePort := flow.sourcePort
       destinationPort := 0
       protocol := flow.protocol }⟩

def fromReturnFlow (flow : FlowKey) : ReverseNatKey :=
  match flow.protocol with
  | .icmp | .icmpv6 => ⟨{ flow with destinationPort := 0 }⟩
  | .tcp | .udp => ⟨flow⟩

/-- Return flows match on their key. -/
theorem fromReturnFlow_eq_iff {flow translated : FlowKey} :
    fromReturnFlow flow = fromTranslatedFlow translated ↔ flow.ReturnsTo translated := by
  obtain ⟨fs, fd, fsp, fdp, fp⟩ := flow
  obtain ⟨ts, td, tsp, tdp, tp⟩ := translated
  cases fp <;> cases tp <;>
    simp [fromReturnFlow, fromTranslatedFlow, FlowKey.reverse, FlowKey.ReturnsTo,
      TransportProtocol.isEcho]

theorem destination_fromTranslatedFlow (flow : FlowKey) :
    (fromTranslatedFlow flow).flow.destination = flow.source := by
  obtain ⟨_, _, _, _, p⟩ := flow
  cases p <;> rfl

theorem destination_fromReturnFlow (flow : FlowKey) :
    (fromReturnFlow flow).flow.destination = flow.destination := by
  obtain ⟨_, _, _, _, p⟩ := flow
  cases p <;> rfl

/-- Return flows keep the port that was leased, so their key names it. -/
theorem sourcePort_eq_of_key {f g : FlowKey} (h : fromTranslatedFlow f = fromTranslatedFlow g) :
    f.sourcePort = g.sourcePort := by
  obtain ⟨_, _, _, _, p⟩ := f
  obtain ⟨_, _, _, _, p'⟩ := g
  cases p <;> cases p' <;> simp_all [fromTranslatedFlow, FlowKey.reverse]

end ReverseNatKey

structure NatBinding where
  original : FlowKey
  translated : FlowKey
  deriving DecidableEq

inductive NatError where
  | invalidPortRange
  | addressFamilyMismatch
  | portRangeExhausted
  | duplicateSession (sessionId : SessionId)
  | duplicateReverseKey (key : ReverseNatKey)
  | unknownSession (sessionId : SessionId)
  deriving DecidableEq

def tcpReuseQuarantine : Duration := .fromSecs 120
def udpReuseQuarantine : Duration := .fromSecs 60
def icmpReuseQuarantine : Duration := .fromSecs 30

def reuseQuarantine : TransportProtocol → Duration
  | .tcp => tcpReuseQuarantine
  | .udp => udpReuseQuarantine
  | .icmp | .icmpv6 => icmpReuseQuarantine

instance isStrictTotalOrderUInt16 : IsStrictTotalOrder UInt16 (· < ·) where
  trichotomous := by grind
  irrefl := by grind
  trans := by grind

structure NatTable where
  snatIpv4 : Option (Vector UInt8 4)
  snatIpv6 : Option (Vector UInt8 16)
  availablePorts : OrdSet UInt16
  forward : HashMap SessionId NatBinding
  reverse : HashMap ReverseNatKey SessionLocator
  quarantined : HashMap ReverseNatKey Instant

namespace NatTable

open Outcome (ensure okOr)

/-- `first..=last`. -/
def portRange (first last : UInt16) : List UInt16 :=
  (List.range (last.toNat + 1 - first.toNat)).map fun i => UInt16.ofNat (first.toNat + i)

def newDual (snatIpv4 : Option (Vector UInt8 4)) (snatIpv6 : Option (Vector UInt8 16))
    (first last : UInt16) : Outcome NatError NatTable := do
  ensure (first ≤ last) .invalidPortRange
  return {
    snatIpv4, snatIpv6
    availablePorts := OrdMap.collect (portRange first last)
    forward := .empty
    reverse := .empty
    quarantined := .empty }

/-- The SNAT address of the family of `source`. -/
def snatIp (table : NatTable) (source : IpAddr) : Option IpAddr :=
  match source with
  | .v4 _ => table.snatIpv4.map .v4
  | .v6 _ => table.snatIpv6.map .v6

/-- The flow as it leaves with `port`. -/
def translate (original : FlowKey) (snatIp : IpAddr) (port : UInt16) : FlowKey :=
  { original with source := snatIp, sourcePort := port }

/-- The least free port whose return key is neither live nor quarantined. -/
def findPort (table : NatTable) (original : FlowKey) (snatIp : IpAddr) :
    Option (UInt16 × FlowKey × ReverseNatKey) :=
  table.availablePorts.keys.findSome? fun port =>
    let translated := translate original snatIp port
    let reverseKey := ReverseNatKey.fromTranslatedFlow translated
    if !table.reverse.contains reverseKey && !table.quarantined.contains reverseKey then
      some (port, translated, reverseKey)
    else none

def allocateAt (sessionId : SessionId) (original : FlowKey) (locator : SessionLocator)
    (now : Instant) : Act NatTable NatError NatBinding := do
  let table ← Act.get
  if table.forward.contains sessionId then Act.fail (.duplicateSession sessionId)
  else do
    let snatIp ← Act.call (okOr (table.snatIp original.source) .addressFamilyMismatch)
    Act.modify fun table =>
      { table with quarantined := table.quarantined.retain fun _ expiresAt => now < expiresAt }
    let table ← Act.get
    let (port, translated, reverseKey) ←
      Act.call (okOr (table.findPort original snatIp) .portRangeExhausted)
    Act.modify fun table =>
      { table with
        availablePorts := table.availablePorts.remove port
        reverse := table.reverse.insert reverseKey locator
        forward := table.forward.insert sessionId { original, translated } }
    let table ← Act.get
    Act.expect (table.forward.get sessionId)

def get (table : NatTable) (sessionId : SessionId) : Option NatBinding :=
  table.forward.get sessionId

def lookupReverse (table : NatTable) (returnFlow : FlowKey) : Option SessionLocator :=
  table.reverse.get (ReverseNatKey.fromReturnFlow returnFlow)

def removeAt (sessionId : SessionId) (now : Instant) : Act NatTable NatError NatBinding := do
  let table ← Act.get
  let binding ← Act.call (okOr (table.forward.get sessionId) (.unknownSession sessionId))
  let reverseKey := ReverseNatKey.fromTranslatedFlow binding.translated
  Act.modify fun table =>
    { table with
      forward := table.forward.remove sessionId
      reverse := table.reverse.remove reverseKey
      quarantined := table.quarantined.insert reverseKey
        (now + reuseQuarantine binding.translated.protocol)
      availablePorts := table.availablePorts.insert binding.translated.sourcePort () }
  return binding

def len (table : NatTable) : ℕ := table.forward.len

def reverseLen (table : NatTable) : ℕ := table.reverse.len

/-- A lease as its owner knows it: the binding it was given and the locator it
asked for. -/
structure Lease where
  binding : NatBinding
  locator : SessionLocator

namespace Lease

def port (lease : Lease) : UInt16 := lease.binding.translated.sourcePort

def key (lease : Lease) : ReverseNatKey :=
  ReverseNatKey.fromTranslatedFlow lease.binding.translated

end Lease

abbrev Ledger := SessionId → Option Lease

/-- The table holds exactly the leases of the ledger. -/
structure Represents (first last : UInt16) (ledger : Ledger) (table : NatTable) : Prop where
  forward : ∀ id, table.forward.get id = (ledger id).map Lease.binding
  available : ∀ port, table.availablePorts.get port = some () ↔
    (first ≤ port ∧ port ≤ last) ∧ ¬ ∃ id lease, ledger id = some lease ∧ lease.port = port
  leased : ∀ id lease, ledger id = some lease → first ≤ lease.port ∧ lease.port ≤ last
  exclusive : ∀ id id' lease lease', ledger id = some lease → ledger id' = some lease' →
    lease.port = lease'.port → id = id'
  reverse : ∀ key locator, table.reverse.get key = some locator ↔
    ∃ id lease, ledger id = some lease ∧ lease.key = key ∧ lease.locator = locator
  reverse_len : table.reverse.len = table.forward.len
  translated : ∀ id lease, ledger id = some lease →
    ∃ snat, table.snatIp lease.binding.original.source = some snat ∧
      lease.binding.translated = translate lease.binding.original snat lease.port

/-- A lease translates its flow to an address of the same family. -/
theorem Represents.translated_family {first last : UInt16} {ledger : Ledger} {table : NatTable}
    (h : Represents first last ledger table) {id : SessionId} {lease : Lease}
    (hid : ledger id = some lease) :
    ∃ snat port, snat.isV4 = lease.binding.original.source.isV4 ∧
      lease.binding.translated = translate lease.binding.original snat port := by
  obtain ⟨snat, hsnat, htr⟩ := h.translated id lease hid
  refine ⟨snat, _, ?_, htr⟩
  cases hsource : lease.binding.original.source <;> rw [hsource] at hsnat <;>
    obtain ⟨_, -, rfl⟩ := Option.map_eq_some_iff.mp hsnat <;> rfl

section Calls

variable {table : NatTable} {sessionId : SessionId} {original : FlowKey}
  {locator : SessionLocator} {now : Instant}

/-- The table after a successful allocation. -/
def withLease (table : NatTable) (sessionId : SessionId) (binding : NatBinding)
    (locator : SessionLocator) : NatTable :=
  { table with
    availablePorts := table.availablePorts.remove binding.translated.sourcePort
    reverse := table.reverse.insert (.fromTranslatedFlow binding.translated) locator
    forward := table.forward.insert sessionId binding }

/-- The table after a successful removal. -/
def withoutLease (table : NatTable) (sessionId : SessionId) (binding : NatBinding)
    (now : Instant) : NatTable :=
  { table with
    forward := table.forward.remove sessionId
    reverse := table.reverse.remove (.fromTranslatedFlow binding.translated)
    quarantined := table.quarantined.insert (.fromTranslatedFlow binding.translated)
      (now + reuseQuarantine binding.translated.protocol)
    availablePorts := table.availablePorts.insert binding.translated.sourcePort () }

theorem findPort_eq_some {snat : IpAddr} {port : UInt16} {translated : FlowKey}
    {key : ReverseNatKey} (h : table.findPort original snat = some (port, translated, key)) :
    table.availablePorts.get port = some () ∧ translated = translate original snat port ∧
      key = .fromTranslatedFlow (translate original snat port) ∧ table.reverse.get key = none := by
  obtain ⟨port, hport, hr⟩ := List.exists_of_findSome?_eq_some h
  dsimp only at hr
  split_ifs at hr with hfree
  cases hr
  simp only [Bool.and_eq_true, Bool.not_eq_true', HashMap.contains, Option.isSome_eq_false_iff,
    Option.isNone_iff_eq_none] at hfree
  obtain ⟨u, hu⟩ := Option.isSome_iff_exists.mp (OrdMap.mem_keys.mp hport)
  exact ⟨hu, rfl, rfl, hfree.1⟩

/-- The table without the quarantines that are over. -/
def pruned (table : NatTable) (now : Instant) : NatTable :=
  { table with quarantined := table.quarantined.retain fun _ expiresAt => now < expiresAt }

/-- A port the search may take. -/
def Usable (table : NatTable) (original : FlowKey) (snat : IpAddr) (port : UInt16) : Prop :=
  table.availablePorts.get port = some () ∧
    table.reverse.get (.fromTranslatedFlow (translate original snat port)) = none ∧
    table.quarantined.get (.fromTranslatedFlow (translate original snat port)) = none

theorem findPort_none {snat : IpAddr} : table.findPort original snat = none ↔
    ∀ port, ¬ table.Usable original snat port := by
  rw [findPort, List.findSome?_eq_none_iff]
  refine forall_congr' fun port => ?_
  rw [OrdMap.mem_keys]
  cases hport : table.availablePorts.get port <;>
    cases hrev : table.reverse.get (.fromTranslatedFlow (translate original snat port)) <;>
    cases hquar : table.quarantined.get (.fromTranslatedFlow (translate original snat port)) <;>
    simp [Usable, HashMap.contains, hport, hrev, hquar]

/-- What an allocation at `now` needs: an identifier without a lease, an address of the
family, and a port whose tuple is neither live nor quarantined. -/
def HasRoom (table : NatTable) (sessionId : SessionId) (original : FlowKey) (now : Instant) :
    Prop :=
  table.forward.get sessionId = none ∧ ∃ snat, table.snatIp original.source = some snat ∧
    ∃ port, (table.pruned now).Usable original snat port

/-- A session with a lease, or a family without an address, is refused as it stands. -/
theorem allocateAt_refused (h : table.forward.get sessionId ≠ none ∨
      table.snatIp original.source = none) (locator : SessionLocator) (now : Instant) :
    ∃ e, (allocateAt sessionId original locator now).run table = (Outcome.fail e, table) := by
  rw [allocateAt, Act.bind_of_ok (Act.run_get table)]
  cases hdup : table.forward.contains sessionId with
  | true => exact ⟨_, rfl⟩
  | false =>
    have hnone : table.forward.get sessionId = none := by
      simpa [HashMap.contains] using hdup
    rw [if_neg (by simp), h.resolve_left (not_not.mpr hnone)]
    exact ⟨_, rfl⟩

/-- Otherwise the search for a port decides, over what is still quarantined. -/
theorem allocateAt_run {snat : IpAddr} (hid : table.forward.get sessionId = none)
    (hsnat : table.snatIp original.source = some snat) (locator : SessionLocator) (now : Instant) :
    ((table.pruned now).findPort original snat = none ∧
      (allocateAt sessionId original locator now).run table =
        (Outcome.fail .portRangeExhausted, table.pruned now)) ∨
    ∃ port, (table.pruned now).findPort original snat = some (port, translate original snat port,
        .fromTranslatedFlow (translate original snat port)) ∧
      (allocateAt sessionId original locator now).run table =
        (.ok ⟨original, translate original snat port⟩,
          (table.pruned now).withLease sessionId ⟨original, translate original snat port⟩
            locator) := by
  rw [allocateAt, Act.bind_of_ok (Act.run_get table), if_neg (by simp [HashMap.contains, hid])]
  cases hfind : (table.pruned now).findPort original snat with
  | none =>
    rw [pruned] at hfind
    refine .inl ⟨rfl, ?_⟩
    simp [Act.run_bind, okOr, hsnat, hfind, pruned, Outcome.fail]
  | some r =>
    obtain ⟨port, translated, key⟩ := r
    obtain ⟨-, rfl, rfl, -⟩ := findPort_eq_some hfind
    rw [pruned] at hfind
    refine .inr ⟨port, rfl, ?_⟩
    simp [Act.run_bind, okOr, hsnat, hfind, pruned, withLease, translate, HashMap.get_insert,
      Outcome.expect]

theorem allocateAt_eq_ok {locator : SessionLocator} {now : Instant} :
    (∃ binding after, (allocateAt sessionId original locator now).run table =
      (.ok binding, after)) ↔ table.HasRoom sessionId original now := by
  constructor
  · rintro ⟨binding, after, hrun⟩
    by_cases h : table.forward.get sessionId ≠ none ∨ table.snatIp original.source = none
    · obtain ⟨e, hfail⟩ := allocateAt_refused h locator now
      cases hrun.symm.trans hfail
    · obtain ⟨hid, hne⟩ := not_or.mp h
      obtain ⟨snat, hsnat⟩ := Option.ne_none_iff_exists'.mp hne
      refine ⟨not_not.mp hid, snat, hsnat, ?_⟩
      rcases allocateAt_run (not_not.mp hid) hsnat locator now with ⟨-, hfail⟩ | ⟨port, hfind, -⟩
      · cases hrun.symm.trans hfail
      · by_contra hnone
        cases (findPort_none.mpr (not_exists.mp hnone)).symm.trans hfind
  · rintro ⟨hid, snat, hsnat, port, husable⟩
    rcases allocateAt_run hid hsnat locator now with ⟨hfind, -⟩ | ⟨port, -, hrun⟩
    · exact absurd husable (findPort_none.mp hfind port)
    · exact ⟨_, _, hrun⟩

/-- What an allocation can do: fail and at most forget outlived quarantines, or
bind a free port. -/
theorem allocateAt_cases (table : NatTable) (sessionId : SessionId) (original : FlowKey)
    (locator : SessionLocator) (now : Instant) :
    (∃ e quarantined, (allocateAt sessionId original locator now).run table =
      (Outcome.fail e, { table with quarantined })) ∨
    (∃ snat port quarantined, table.forward.get sessionId = none ∧
      table.snatIp original.source = some snat ∧ table.availablePorts.get port = some () ∧
      table.reverse.get (.fromTranslatedFlow (translate original snat port)) = none ∧
      (allocateAt sessionId original locator now).run table =
        (.ok ⟨original, translate original snat port⟩,
          withLease { table with quarantined } sessionId
            ⟨original, translate original snat port⟩ locator)) := by
  by_cases h : table.forward.get sessionId ≠ none ∨ table.snatIp original.source = none
  · obtain ⟨e, hrun⟩ := allocateAt_refused h locator now
    exact .inl ⟨e, table.quarantined, hrun⟩
  · obtain ⟨hid, hne⟩ := not_or.mp h
    obtain ⟨snat, hsnat⟩ := Option.ne_none_iff_exists'.mp hne
    have hid := not_not.mp hid
    rcases allocateAt_run hid hsnat locator now with ⟨-, hrun⟩ | ⟨port, hfind, hrun⟩
    · exact .inl ⟨_, _, hrun⟩
    · obtain ⟨hport, -, -, hfree⟩ := findPort_eq_some hfind
      exact .inr ⟨snat, port, _, hid, hsnat, hport, hfree, hrun⟩

/-- The addresses a table translates to. -/
def addresses (table : NatTable) : Option (Vector UInt8 4) × Option (Vector UInt8 16) :=
  (table.snatIpv4, table.snatIpv6)

theorem addresses_allocateAt (table : NatTable) (sessionId : SessionId) (original : FlowKey)
    (locator : SessionLocator) (now : Instant) :
    ((allocateAt sessionId original locator now).run table).2.addresses = table.addresses := by
  rcases allocateAt_cases table sessionId original locator now with
    ⟨e, quarantined, hrun⟩ | ⟨snat, port, quarantined, -, -, -, -, hrun⟩
  · rw [hrun]
    rfl
  · rw [hrun]
    rfl

theorem removeAt_cases (table : NatTable) (sessionId : SessionId) (now : Instant) :
    (table.forward.get sessionId = none ∧
      (removeAt sessionId now).run table = (Outcome.fail (.unknownSession sessionId), table)) ∨
    (∃ binding, table.forward.get sessionId = some binding ∧
      (removeAt sessionId now).run table =
        (.ok binding, table.withoutLease sessionId binding now)) := by
  cases hget : table.forward.get sessionId with
  | none => exact .inl ⟨rfl, by simp [removeAt, Act.run_bind, okOr, hget, Outcome.fail]⟩
  | some binding =>
    exact .inr ⟨binding, rfl, by simp [removeAt, Act.run_bind, okOr, hget, withoutLease]⟩

end Calls

section Represents

variable {first last : UInt16} {ledger : Ledger} {table : NatTable} {sessionId : SessionId}

theorem addresses_removeAt (table : NatTable) (sessionId : SessionId) (now : Instant) :
    ((removeAt sessionId now).run table).2.addresses = table.addresses := by
  rcases removeAt_cases table sessionId now with ⟨-, hrun⟩ | ⟨binding, -, hrun⟩
  · rw [hrun]
  · rw [hrun]
    rfl

theorem Represents.withQuarantined (h : Represents first last ledger table)
    (quarantined : HashMap ReverseNatKey Instant) :
    Represents first last ledger { table with quarantined } :=
  ⟨h.forward, h.available, h.leased, h.exclusive, h.reverse, h.reverse_len, h.translated⟩

theorem Represents.ledger_eq_none (h : Represents first last ledger table)
    (hid : table.forward.get sessionId = none) : ledger sessionId = none := by
  rw [h.forward] at hid
  simpa using hid

/-- The leases of a ledger with one lease more. -/
theorem exists_lease_update {lease : Lease} {P : Lease → Prop} (h : ledger sessionId = none) :
    (∃ id l, Function.update ledger sessionId (some lease) id = some l ∧ P l) ↔
      P lease ∨ ∃ id l, ledger id = some l ∧ P l := by
  simp only [Function.update_apply]
  constructor
  · rintro ⟨id, l, hl, hP⟩
    split_ifs at hl with hc
    · cases hl
      exact .inl hP
    · exact .inr ⟨id, l, hl, hP⟩
  · rintro (hP | ⟨id, l, hl, hP⟩)
    · exact ⟨sessionId, lease, if_pos rfl, hP⟩
    · refine ⟨id, l, ?_, hP⟩
      rw [if_neg, hl]
      rintro rfl
      rw [h] at hl
      cases hl

theorem Represents.withLease (h : Represents first last ledger table) {original : FlowKey}
    {snat : IpAddr} {port : UInt16} (locator : SessionLocator)
    (hid : table.forward.get sessionId = none) (hsnat : table.snatIp original.source = some snat)
    (hport : table.availablePorts.get port = some ())
    (hkey : table.reverse.get (.fromTranslatedFlow (translate original snat port)) = none) :
    Represents first last
      (Function.update ledger sessionId (some ⟨⟨original, translate original snat port⟩, locator⟩))
      (table.withLease sessionId ⟨original, translate original snat port⟩ locator) := by
  have hnone := h.ledger_eq_none hid
  obtain ⟨hrange, hother⟩ := (h.available port).mp hport
  have hforward : ∀ id, (table.withLease sessionId ⟨original, translate original snat port⟩
      locator).forward.get id = (Function.update ledger sessionId
        (some ⟨⟨original, translate original snat port⟩, locator⟩) id).map Lease.binding := by
    intro id
    simp only [NatTable.withLease, HashMap.get_insert, Function.update_apply, h.forward]
    split_ifs <;> rfl
  refine ⟨hforward, ?_, ?_, ?_, ?_, ?_, ?_⟩
  · intro p
    rw [exists_lease_update hnone, not_or, and_left_comm, ← h.available]
    simp only [NatTable.withLease, OrdMap.get_remove, Lease.port, translate]
    split_ifs with hp
    · simp [hp]
    · simp [Ne.symm hp]
  · intro id lease hl
    rw [Function.update_apply] at hl
    split_ifs at hl with hc
    · cases hl
      exact hrange
    · exact h.leased id lease hl
  · intro id id' lease lease' hl hl' hp
    rw [Function.update_apply] at hl hl'
    split_ifs at hl hl' with hc hc' hc'
    · exact hc.trans hc'.symm
    · cases hl
      exact absurd ⟨id', lease', hl', hp.symm⟩ hother
    · cases hl'
      exact absurd ⟨id, lease, hl, hp⟩ hother
    · exact h.exclusive id id' lease lease' hl hl' hp
  · intro key loc
    rw [exists_lease_update hnone, ← h.reverse]
    simp only [NatTable.withLease, HashMap.get_insert, Lease.key]
    split_ifs with hk
    · subst hk
      simp [hkey]
    · simp [Ne.symm hk]
  · simp only [NatTable.withLease]
    rw [HashMap.len_insert hkey, HashMap.len_insert hid, h.reverse_len]
  · intro id lease hl
    rw [Function.update_apply] at hl
    split_ifs at hl with hc
    · cases hl
      exact ⟨snat, hsnat, rfl⟩
    · exact h.translated id lease hl

theorem Represents.exists_lease_erase (h : Represents first last ledger table) {lease : Lease}
    (hid : ledger sessionId = some lease) {P : Lease → Prop} :
    (∃ id l, Function.update ledger sessionId none id = some l ∧ P l) ↔
      ∃ id l, ledger id = some l ∧ P l ∧ l.port ≠ lease.port := by
  simp only [Function.update_apply]
  constructor
  · rintro ⟨id, l, hl, hP⟩
    split_ifs at hl with hc
    exact ⟨id, l, hl, hP, fun hp => hc (h.exclusive id sessionId l lease hl hid hp)⟩
  · rintro ⟨id, l, hl, hP, hp⟩
    refine ⟨id, l, ?_, hP⟩
    rw [if_neg, hl]
    rintro rfl
    rw [hid] at hl
    cases hl
    exact hp rfl

theorem Represents.withoutLease (h : Represents first last ledger table) {lease : Lease}
    (hid : ledger sessionId = some lease) (now : Instant) :
    Represents first last (Function.update ledger sessionId none)
      (table.withoutLease sessionId lease.binding now) := by
  have hget : table.forward.get sessionId = some lease.binding := by rw [h.forward, hid]; rfl
  have hrev : table.reverse.get lease.key = some lease.locator :=
    (h.reverse _ _).mpr ⟨sessionId, lease, hid, rfl, rfl⟩
  refine ⟨?_, ?_, ?_, ?_, ?_, ?_, ?_⟩
  · intro id
    simp only [NatTable.withoutLease, HashMap.get_remove, Function.update_apply, h.forward]
    split_ifs <;> rfl
  · intro p
    rw [h.exists_lease_erase hid]
    simp only [NatTable.withoutLease, OrdMap.get_insert]
    split_ifs with hp
    · subst hp
      refine iff_of_true rfl ⟨h.leased sessionId lease hid, ?_⟩
      rintro ⟨id, l, -, hl, hne⟩
      exact hne hl
    · rw [h.available]
      refine and_congr_right fun _ => not_congr ?_
      constructor
      · rintro ⟨id, l, hl, rfl⟩
        exact ⟨id, l, hl, rfl, hp⟩
      · rintro ⟨id, l, hl, hlp, -⟩
        exact ⟨id, l, hl, hlp⟩
  · intro id l hl
    rw [Function.update_apply] at hl
    split_ifs at hl
    exact h.leased id l hl
  · intro id id' l l' hl hl'
    rw [Function.update_apply] at hl hl'
    split_ifs at hl hl'
    exact h.exclusive id id' l l' hl hl'
  · intro key loc
    rw [h.exists_lease_erase hid]
    simp only [NatTable.withoutLease, HashMap.get_remove]
    split_ifs with hk
    · refine iff_of_false (by simp) ?_
      rintro ⟨id, l, -, ⟨hl, -⟩, hne⟩
      exact hne (ReverseNatKey.sourcePort_eq_of_key (hl.trans hk))
    · rw [h.reverse]
      constructor
      · rintro ⟨id, l, hl, rfl, rfl⟩
        refine ⟨id, l, hl, ⟨rfl, rfl⟩, fun hp => hk ?_⟩
        obtain rfl := h.exclusive id sessionId l lease hl hid hp
        rw [hid] at hl
        cases hl
        rfl
      · rintro ⟨id, l, hl, ⟨hlk, hll⟩, -⟩
        exact ⟨id, l, hl, hlk, hll⟩
  · have h1 := HashMap.len_remove hrev
    have h2 := HashMap.len_remove hget
    have h3 := h.reverse_len
    simp only [NatTable.withoutLease]
    rw [Lease.key] at h1
    omega
  · intro id l hl
    rw [Function.update_apply] at hl
    split_ifs at hl
    exact h.translated id l hl

end Represents

section Runs

variable {first last : UInt16} {ledger : Ledger} {table : NatTable}

theorem mem_portRange {port : UInt16} (h : first ≤ last) :
    port ∈ portRange first last ↔ first ≤ port ∧ port ≤ last := by
  have h1 := first.toNat_lt
  have h2 := last.toNat_lt
  have h3 := port.toNat_lt
  simp only [UInt16.le_iff_toNat_le] at h ⊢
  simp only [portRange, List.mem_map, List.mem_range]
  constructor
  · rintro ⟨i, hi, rfl⟩
    rw [UInt16.toNat_ofNat']
    omega
  · rintro ⟨hl, hr⟩
    refine ⟨port.toNat - first.toNat, by omega, ?_⟩
    apply UInt16.toNat_inj.mp
    rw [UInt16.toNat_ofNat']
    omega

theorem represents_newDual {snatIpv4 : Option (Vector UInt8 4)}
    {snatIpv6 : Option (Vector UInt8 16)} (h : newDual snatIpv4 snatIpv6 first last = .ok table) :
    Represents first last (fun _ => none) table := by
  obtain ⟨hle, hnew⟩ := Outcome.bind_unit_eq_ok.mp h
  rw [Outcome.ensure_eq_ok] at hle
  rw [Outcome.pure_eq_ok] at hnew
  subst hnew
  refine ⟨fun _ => rfl, ?_, by simp, by simp, by simp, rfl, by simp⟩
  intro port
  simp only [OrdMap.get_collect, mem_portRange hle]
  simp

/-- The calls that change a table. -/
inductive Call where
  | allocate (sessionId : SessionId) (original : FlowKey) (locator : SessionLocator)
      (now : Instant)
  | remove (sessionId : SessionId) (now : Instant)

def Call.act : Call → Act NatTable NatError NatBinding
  | .allocate sessionId original locator now => allocateAt sessionId original locator now
  | .remove sessionId now => removeAt sessionId now

/-- What a successful call means for the ledger of its caller. -/
def Call.record (ledger : Ledger) (binding : NatBinding) : Call → Ledger
  | .allocate sessionId _ locator _ =>
    Function.update ledger sessionId (some ⟨binding, locator⟩)
  | .remove sessionId _ => Function.update ledger sessionId none

/-- A table together with the ledger of everybody who called it. -/
structure Observed where
  table : NatTable
  ledger : Ledger

def Observed.step (s : Observed) (call : Call) : Observed :=
  match call.act.run s.table with
  | (.ok binding, table) => ⟨table, call.record s.ledger binding⟩
  | (.error _, table) => ⟨table, s.ledger⟩

def observe (table : NatTable) (calls : List Call) : Observed :=
  calls.foldl Observed.step ⟨table, fun _ => none⟩

/-- One call: it does not panic, an error leaves all but the quarantine alone, and
a success is what the ledger records. -/
theorem Represents.call (h : Represents first last ledger table) (call : Call) :
    (∃ e quarantined, call.act.run table = (Outcome.fail e, { table with quarantined })) ∨
    ∃ binding table', call.act.run table = (.ok binding, table') ∧
      Represents first last (call.record ledger binding) table' := by
  cases call with
  | allocate sessionId original locator now =>
    rcases allocateAt_cases table sessionId original locator now with
      ⟨e, quarantined, hrun⟩ | ⟨snat, port, quarantined, hid, hsnat, hport, hkey, hrun⟩
    · exact .inl ⟨e, quarantined, hrun⟩
    · exact .inr
        ⟨_, _, hrun, (h.withQuarantined quarantined).withLease locator hid hsnat hport hkey⟩
  | remove sessionId now =>
    rcases removeAt_cases table sessionId now with ⟨-, hrun⟩ | ⟨binding, hget, hrun⟩
    · exact .inl ⟨_, table.quarantined, hrun⟩
    · rw [h.forward, Option.map_eq_some_iff] at hget
      obtain ⟨lease, hid, rfl⟩ := hget
      exact .inr ⟨_, _, hrun, h.withoutLease hid now⟩

theorem represents_observe (h : Represents first last (fun _ => none) table) (calls : List Call) :
    Represents first last (observe table calls).ledger (observe table calls).table := by
  suffices hfold : ∀ (calls : List Call) (s : Observed), Represents first last s.ledger s.table →
      Represents first last (calls.foldl Observed.step s).ledger
        (calls.foldl Observed.step s).table from hfold calls _ h
  intro calls
  induction calls with
  | nil => exact fun _ hs => hs
  | cons call calls ih =>
    intro s hs
    refine ih _ ?_
    rcases hs.call call with ⟨e, quarantined, hrun⟩ | ⟨binding, table', hrun, hs'⟩
    · simp only [Observed.step, hrun, Outcome.fail]
      exact hs.withQuarantined quarantined
    · simp only [Observed.step, hrun]
      exact hs'

theorem Represents.get_eq_some (h : Represents first last ledger table) {id : SessionId}
    {binding : NatBinding} :
    table.get id = some binding ↔ ∃ locator, ledger id = some ⟨binding, locator⟩ := by
  rw [get, h.forward, Option.map_eq_some_iff]
  constructor
  · rintro ⟨⟨b, locator⟩, hl, rfl⟩
    exact ⟨locator, hl⟩
  · rintro ⟨locator, hl⟩
    exact ⟨_, hl, rfl⟩

theorem Represents.port_held (h : Represents first last ledger table) {port : UInt16} :
    (∃ id binding, table.get id = some binding ∧ binding.translated.sourcePort = port) ↔
      ∃ id lease, ledger id = some lease ∧ lease.port = port := by
  simp only [h.get_eq_some]
  constructor
  · rintro ⟨id, binding, ⟨locator, hl⟩, hp⟩
    exact ⟨id, _, hl, hp⟩
  · rintro ⟨id, lease, hl, hp⟩
    exact ⟨id, lease.binding, ⟨lease.locator, hl⟩, hp⟩

theorem Represents.lookupReverse_eq_some (h : Represents first last ledger table) {flow : FlowKey}
    {locator : SessionLocator} :
    table.lookupReverse flow = some locator ↔ ∃ id lease, ledger id = some lease ∧
      lease.locator = locator ∧ flow.ReturnsTo lease.binding.translated := by
  rw [lookupReverse, h.reverse]
  refine exists_congr fun id => exists_congr fun lease => and_congr_right fun _ => ?_
  rw [and_comm, Lease.key, eq_comm (b := ReverseNatKey.fromReturnFlow flow),
    ReverseNatKey.fromReturnFlow_eq_iff]

/-- In every state a table reaches, free and leased ports partition the
configured range, no port is leased twice, the reverse index has exactly the
return keys of the leases with the locators they were asked for, a return flow
finds exactly the lease it answers, and a failed call changes none of it. -/
theorem observe_coherent {snatIpv4 : Option (Vector UInt8 4)} {snatIpv6 : Option (Vector UInt8 16)}
    (hnew : newDual snatIpv4 snatIpv6 first last = .ok table) (calls : List Call) :
    let s := observe table calls
    (∀ port, (first ≤ port ∧ port ≤ last ↔ s.table.availablePorts.get port = some () ∨
        ∃ id binding, s.table.get id = some binding ∧ binding.translated.sourcePort = port) ∧
      ¬ (s.table.availablePorts.get port = some () ∧
        ∃ id binding, s.table.get id = some binding ∧ binding.translated.sourcePort = port)) ∧
    (∀ id id' binding binding', s.table.get id = some binding → s.table.get id' = some binding' →
      binding.translated.sourcePort = binding'.translated.sourcePort → id = id') ∧
    (∀ id binding, s.table.get id = some binding ↔
      ∃ locator, s.ledger id = some ⟨binding, locator⟩) ∧
    (∀ key locator, s.table.reverse.get key = some locator ↔ ∃ id binding,
      s.ledger id = some ⟨binding, locator⟩ ∧ .fromTranslatedFlow binding.translated = key) ∧
    s.table.reverseLen = s.table.len ∧
    (∀ flow locator, s.table.lookupReverse flow = some locator ↔ ∃ id binding,
      s.ledger id = some ⟨binding, locator⟩ ∧ flow.ReturnsTo binding.translated) ∧
    ∀ call : Call, (call.act.run s.table).1 ≠ Outcome.panic ∧
      ∀ e, (call.act.run s.table).1 = Outcome.fail e →
        (call.act.run s.table).2.forward = s.table.forward ∧
        (call.act.run s.table).2.reverse = s.table.reverse ∧
        (call.act.run s.table).2.availablePorts = s.table.availablePorts := by
  intro s
  have h : Represents first last s.ledger s.table :=
    represents_observe (represents_newDual hnew) calls
  refine ⟨fun port => ?_, fun id id' binding binding' hb hb' => ?_, fun id binding =>
    h.get_eq_some, fun key locator => ?_, h.reverse_len, fun flow locator => ?_, fun call => ?_⟩
  · rw [h.port_held, h.available]
    have hrange : (∃ id lease, s.ledger id = some lease ∧ lease.port = port) →
        first ≤ port ∧ port ≤ last := by
      rintro ⟨id, lease, hl, rfl⟩
      exact h.leased id lease hl
    by_cases hheld : ∃ id lease, s.ledger id = some lease ∧ lease.port = port
    · simp only [hheld, hrange hheld, and_self, or_true, not_true_eq_false, and_false, false_and,
        not_false_eq_true]
    · simp only [hheld, or_false, not_false_eq_true, and_true, and_false]
  · obtain ⟨locator, hl⟩ := h.get_eq_some.mp hb
    obtain ⟨locator', hl'⟩ := h.get_eq_some.mp hb'
    exact h.exclusive id id' _ _ hl hl'
  · rw [h.reverse]
    constructor
    · rintro ⟨id, lease, hl, hk, rfl⟩
      exact ⟨id, lease.binding, hl, hk⟩
    · rintro ⟨id, binding, hl, hk⟩
      exact ⟨id, _, hl, hk, rfl⟩
  · rw [h.lookupReverse_eq_some]
    constructor
    · rintro ⟨id, lease, hl, rfl, hr⟩
      exact ⟨id, lease.binding, hl, hr⟩
    · rintro ⟨id, binding, hl, hr⟩
      exact ⟨id, _, hl, rfl, hr⟩
  · rcases h.call call with ⟨e, quarantined, hrun⟩ | ⟨binding, table', hrun, -⟩
    · rw [hrun]
      exact ⟨by simp [Outcome.fail, Outcome.panic], fun _ _ => ⟨rfl, rfl, rfl⟩⟩
    · rw [hrun]
      exact ⟨by simp [Outcome.panic], fun e he => by cases he⟩

/-- A ping is answered: its reply, of another type, finds the session. -/
theorem observe_coherent_ping : ∃ table,
    newDual (some #v[192, 0, 2, 1]) none 1000 1001 = .ok table ∧
    (observe table [.allocate ⟨1⟩ ⟨.v4 #v[10, 0, 0, 2], .v4 #v[203, 0, 113, 10], 7, 0x0800, .icmp⟩
      ⟨0, ⟨1⟩⟩ 0]).table.lookupReverse
        ⟨.v4 #v[203, 0, 113, 10], .v4 #v[192, 0, 2, 1], 1000, 0, .icmp⟩ = some ⟨0, ⟨1⟩⟩ := by
  have hnew : newDual (some #v[192, 0, 2, 1]) none 1000 1001 = .ok _ := rfl
  refine ⟨_, hnew, ((observe_coherent hnew _).2.2.2.2.2.1 _ _).mpr ⟨⟨1⟩, _, rfl, ?_⟩⟩
  simp [FlowKey.ReturnsTo, TransportProtocol.isEcho, translate]

end Runs

end NatTable

end NewProxy
