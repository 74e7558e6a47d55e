import NewProxy.Network
import NewProxy.ReturnPath

/-!
# Locators that have grown old

An IO worker looks the locator of a return packet up and sends it along. By the time the
flow worker takes the message the session or the transaction may be gone, its port leased
again and the directory rewritten. The flow worker compares the locator with its own
tables, so the packet reaches what the locator names or nothing.
-/
namespace NewProxy

open Outcome Packet
open FlowWorkerState (Booked Matched)

namespace SessionTable

variable {id : SessionId} {start : SessionTable}

/-- All sessions but `id` are as they were. -/
def SameBut (id : SessionId) (start table : SessionTable) : Prop :=
  ∀ other, other ≠ id → table.sessions.get other = start.sessions.get other

theorem sameBut_withstands : Withstands (fun _ _ => True) id (SameBut id start) := by
  intro table before after deadlines h hs hafter other hother
  rw [HashMap.get_insert, if_neg hother]
  exact h other hother

end SessionTable

namespace FlowWorkerState

variable {id : SessionId} {start state : FlowWorkerState}

/-- Every session and every transaction with another id is as it was. -/
structure Confined (id : SessionId) (start state : FlowWorkerState) : Prop where
  sessions : SessionTable.SameBut id start.sessions state.sessions
  transactions : ∀ key transaction, transaction.token ≠ id →
    (state.dnsByKey.get key = some transaction ↔ start.dnsByKey.get key = some transaction)

theorem Confined.refl (id : SessionId) (start : FlowWorkerState) : Confined id start start :=
  ⟨fun _ _ => rfl, fun _ _ _ => Iff.rfl⟩

theorem Confined.of_counted (h : Counted start state) : Confined id start state :=
  ⟨fun _ _ => by rw [h.sessions], fun _ _ _ => by rw [h.dnsByKey]⟩

/-- A transaction is closed. -/
theorem Confined.of_ended {key : DnsFlowTransactionKey} {transaction : DnsFlowTransaction}
    {natNow : Instant} (hheld : start.dnsByKey.get key = some transaction)
    (h : Counted (start.ended key transaction natNow) state) :
    Confined transaction.token start state := by
  refine ⟨fun _ _ => by rw [h.sessions]; rfl, fun key' other hother => ?_⟩
  have hget : state.dnsByKey.get key' = if key' = key then none else start.dnsByKey.get key' := by
    rw [h.dnsByKey]
    exact HashMap.get_remove _ _ _
  rw [hget]
  split_ifs with hkey
  · subst hkey
    rw [hheld]
    refine ⟨fun h => ?_, fun heq => absurd ?_ hother⟩
    · cases h
    · rw [Option.some.inj heq]
  · exact Iff.rfl

/-- `Confined`, as far as the sessions go. -/
theorem onSessions_confined {ε α : Type} {e : SessionError → ε}
    {x : Act SessionTable SessionError α}
    (h : Act.Stable (SessionTable.SameBut id start.sessions) x) :
    Act.Stable (Confined id start) (onSessions e x) :=
  fun state hs => ⟨h state.sessions hs.sessions, hs.transactions⟩

/-- A return packet touches only the session its locator names. -/
theorem confined_returnable (id : SessionId) (start : FlowWorkerState)
    (observed : Option IoOwnerKey) : Returnable (Confined id start) id observed where
  stats _ _ h := ⟨h.sessions, h.transactions⟩
  corrects owner caller _ := onSessions_confined (SessionTable.correctInterceptIo_steady
    SessionTable.sameBut_withstands (fun _ _ => trivial) caller owner)
  touches caller flags now := onSessions_confined (SessionTable.touchTcp_steady
    SessionTable.sameBut_withstands (fun _ _ _ => trivial) caller flags true now)

/-- A response touches only the transaction it matches. -/
theorem handleDnsResponse_confined {first last : UInt16} {ephemeral : SessionId → Option NatBinding}
    (hl : Leased first last ephemeral start) {packet : Bytes}
    (hid : ∀ p payload key transaction, Matched start packet p payload key transaction →
      transaction.token = id) (natNow : Instant) :
    Confined id start ((handleDnsResponse packet natNow).run start).2 := by
  have hends := handleDnsResponse_spec hl packet natNow start (.refl start)
  have hanswered : ∀ {p payload key transaction state},
      Matched start packet p payload key transaction →
        Unchanged (start.answered key transaction natNow) state → Confined id start state :=
    fun hm hs => hid _ _ _ _ hm ▸ .of_ended hm.held hs.of_answered
  rcases hrun : (handleDnsResponse packet natNow).run start with ⟨(e | _) | _ | response, state⟩ <;>
    rw [hrun] at hends
  · rcases hends with hs | ⟨p, payload, key, transaction, hm, hs, -⟩
    · exact .of_counted hs.toCounted
    · exact hanswered hm hs
  · exact hends.elim
  · exact .of_counted hends.toCounted
  · obtain ⟨p, payload, key, transaction, hm, hs, -⟩ := hends
    exact hanswered hm hs

end FlowWorkerState

namespace Flow

variable {E I : Type} {c : Site} {sessions transactions : SessionId → Option NatBinding}
  {next : UInt64} {flow f : Flow E} {packet : Bytes} {locator : SessionLocator} {r : Readings I}

/-- Nothing is opened, and only what the locator names may change. -/
structure Confines (locator : SessionLocator) (before after : Flow E) : Prop where
  opens : OpensNothing before after
  others : FlowWorkerState.Confined locator.sessionId before.context.state after.context.state

/-- The packet answers the binding of the live session that the locator names, and goes
back as the session's own return flow. -/
def RestoresSession (locator : SessionLocator) (packet : Bytes) (before after : Flow E) : Prop :=
  ∃ session returnFlow restored, before.context.state.session locator.sessionId = some session ∧
    packetFlow packet = some returnFlow ∧ returnFlow.ReturnsTo session.nat.translated ∧
    restored.sessionId = locator.sessionId ∧
    Edits packet returnFlow (FlowWorkerState.restoredFlow session returnFlow) restored.packet ∧
    after.outputs = before.outputs ++ [before.returned restored]

/-- The packet answers the transaction whose token the locator has; the transaction is
closed and its client gets the answer. -/
def CompletesTransaction (locator : SessionLocator) (packet : Bytes) (before after : Flow E) :
    Prop :=
  ∃ key transaction answer, before.context.state.dnsByKey.get key = some transaction ∧
    transaction.token = locator.sessionId ∧
    packetFlow packet = some transaction.binding.translated.reverse ∧
    after.context.state.dnsByKey.get key = none ∧
    after.outputs = before.outputs ++ [.io ⟨transaction.localTarget, answer, none⟩]

theorem Reverses.confines {observed : Option IoOwnerKey}
    (h : Reverses packet locator observed r flow f)
    (hb : Booked c sessions transactions next flow.context.state) : Confines locator flow f := by
  refine ⟨(h.handledAsReturn hb).1, ?_⟩
  obtain ⟨result, hrun, -⟩ := h.ran
  exact (FlowWorkerState.handleReverseForInner_frame (FlowWorkerState.confined_returnable
    locator.sessionId flow.context.state observed) packet (r.now 0)).of_run (.refl _ _) hrun

theorem Reverses.restores {observed : Option IoOwnerKey}
    (h : Reverses packet locator observed r flow f)
    (hb : Booked c sessions transactions next flow.context.state) :
    f.outputs = flow.outputs ∨ RestoresSession locator packet flow f := by
  obtain ⟨result, hrun, hsent⟩ := h.ran
  rcases result with e | _ | restored
  · exact Or.inl (hsent.trans (List.append_nil _))
  · exact Or.inl (hsent.trans (List.append_nil _))
  · right
    obtain ⟨hnamed, returnFlow, touched, hlookup, htouched, hedits⟩ :=
      FlowWorkerState.handleReverseForInner_eq_ok hrun
    obtain ⟨session, hs, hret⟩ := live_of_lookup hb hlookup
    have hsame : session.Same False touched := by
      have hkept : SessionTable.Kept False locator.sessionId session f.context.state.sessions := by
        refine (FlowWorkerState.handleReverseForInner_frame (FlowWorkerState.steady_returnable
          (SessionTable.kept_endable False locator.sessionId session).toSteady _ (fun h => h.elim))
          packet (r.now 0)).of_run (fun now hnow => ?_) hrun
        cases (show flow.context.state.sessions.get locator.sessionId =
          some session from hs).symm.trans hnow
        exact .refl _ _
      exact hkept touched htouched
    have hflow : FlowWorkerState.restoredFlow touched returnFlow =
        FlowWorkerState.restoredFlow session returnFlow := by
      simp only [FlowWorkerState.restoredFlow, hsame.original]
    obtain ⟨p, _, _, hp, hparsed, -⟩ := id hedits
    exact ⟨session, returnFlow, restored, hs, packetFlow_of_prepared hp hparsed, hret, hnamed,
      hflow ▸ hedits, hsent⟩

theorem Responds.confines (h : Responds packet r flow f)
    (hb : Booked c sessions transactions next flow.context.state)
    (hmatches : (packetFlow packet).any
      (fun returnFlow => flow.context.state.dnsReverseMatches returnFlow locator)) :
    Confines locator flow f := by
  refine ⟨(h.handledAsReturn hb hmatches).1, ?_⟩
  obtain ⟨result, hrun, -⟩ := h.ran
  have hconfined := FlowWorkerState.handleDnsResponse_confined hb.leased
    (fun p payload key transaction hm => token_of_matches hb hmatches hm) (r.natNow 0)
  rw [hrun] at hconfined
  exact hconfined

theorem Responds.completes (h : Responds packet r flow f)
    (hb : Booked c sessions transactions next flow.context.state)
    (hmatches : (packetFlow packet).any
      (fun returnFlow => flow.context.state.dnsReverseMatches returnFlow locator)) :
    f.outputs = flow.outputs ∨ CompletesTransaction locator packet flow f := by
  obtain ⟨result, hrun, hsent⟩ := h.ran
  have hends := FlowWorkerState.handleDnsResponse_spec hb.leased packet (r.natNow 0)
    flow.context.state (.refl _)
  rw [hrun] at hends
  rcases result with (e | _) | _ | response
  · exact Or.inl (hsent.trans (List.append_nil _))
  · exact hends.elim
  · exact Or.inl (hsent.trans (List.append_nil _))
  · right
    obtain ⟨p, payload, key, transaction, hm, hs, hanswers⟩ := hends
    refine ⟨key, transaction, response.packet, hm.held, token_of_matches hb hmatches hm,
      packetFlow_of_prepared hm.prepared hm.flow, ?_, ?_⟩
    · rw [hs.dnsByKey]
      exact (HashMap.get_remove _ _ _).trans (if_pos rfl)
    · rw [hsent, answersBack, hanswers.localTarget]

section Messages

variable [Engine E I] {scope : Scope} {ioOwner : IoOwnerKey}

/-- A server drops the packet or gives it to the session. -/
theorem handleFlowMessage_server (h : Following scope flow) (hrole : flow.context.role = .server)
    (hw : locator.flowWorkerId = flow.context.workerId) (epoch : UInt64) :
    Act.Triple (fun f => f = flow)
      (handleFlowMessage (.interceptIngress ioOwner packet (some locator)) epoch r)
      (fun _ f => Confines locator flow f ∧
        (f.outputs = flow.outputs ∨ RestoresSession locator packet flow f))
      (fun _ => False) := by
  obtain ⟨sessions, transactions, next, ht⟩ := h
  refine .get fun f hf => ?_
  subst hf
  simp only [hrole]
  exact (handleServerIngress_reverses ht.state hrole hw ioOwner epoch).weaken (fun _ h => h)
    (fun _ _ h => ⟨h.confines ht.state, h.restores ht.state⟩) fun _ h => h

/-- A client drops the packet of the local resolver, or gives it to the transaction or the
session. -/
theorem handleFlowMessage_localResponse (h : Following scope flow)
    (hrole : flow.context.role = .client) (hlocal : flow.LocalResponse packet) (epoch : UInt64) :
    Act.Triple (fun f => f = flow)
      (handleFlowMessage (.interceptIngress ioOwner packet (some locator)) epoch r)
      (fun _ f => Confines locator flow f ∧ (f.outputs = flow.outputs ∨
        CompletesTransaction locator packet flow f ∨ RestoresSession locator packet flow f))
      (fun _ => False) := by
  obtain ⟨sessions, transactions, next, ht⟩ := h
  obtain ⟨config, hdns⟩ := Option.isSome_iff_exists.mp hlocal.1
  refine .get fun f hf => ?_
  subst hf
  simp only [hrole]
  refine .get fun g hg => ?_
  subst hg
  simp only [hdns]
  refine .bind (handleDnsReturn_tries ht.state hrole hlocal) fun done => ?_
  rintro f ⟨rfl, htries⟩
  split_ifs at htries with hmatches
  · exact ⟨htries.confines ht.state hmatches,
      (htries.completes ht.state hmatches).imp_right Or.inl⟩
  · exact ⟨htries.confines ht.state, (htries.restores ht.state).imp_right Or.inr⟩

end Messages

end Flow

/-- The locator of a message is the one of the directory, and names the receiver. -/
theorem IoWorker.Sends.looked_up {classifier : IoWorker.IoClassifierConfig}
    {activeDcids : ActiveDcidIndex} {reverseNat : ReverseNatDirectory}
    {parsed : IoWorker.ParsedIpFrame} {workerId : ℕ} {ioOwner : IoOwnerKey} {packet : Bytes}
    {locator : SessionLocator}
    (h : IoWorker.Sends classifier activeDcids reverseNat parsed workerId
      (.interceptIngress ioOwner packet (some locator))) :
    locator.flowWorkerId = workerId ∧ ∃ returnFlow, Flow.packetFlow packet = some returnFlow ∧
      reverseNat.lookup returnFlow = some locator := by
  cases h with
  | returned flow_eq found =>
    refine ⟨rfl, _, ?_, found⟩
    rw [Flow.packetFlow, mapErr_eq_ok.mp flow_eq]

namespace Network

variable {E I : Type} [Engine E I] {config : ApplianceConfig} {placement : Placement}
  {hash : IoOwnerKey → DnsTransactionKey → UInt64} {network : Network E config.flowWorkerCount}

/-- A locator in a channel is one the directory had for the flow of the packet. -/
theorem looked_up (hstart : network.Started config placement)
    {steps : List (Step I config.flowWorkerCount)} {w : Fin config.flowWorkerCount}
    {ioOwner : IoOwnerKey} {packet : Bytes} {locator : SessionLocator}
    (h : .interceptIngress ioOwner packet (some locator) ∈ (network.after hash steps).queue w) :
    locator.flowWorkerId = w ∧ ∃ before later classifier frame returnFlow,
      steps = before ++ .frame classifier frame :: later ∧
      Flow.packetFlow packet = some returnFlow ∧
      (network.after hash before).system.reverseNat.lookup returnFlow = some locator := by
  rcases mem_queue_after h with hqueue | ⟨before, s, later, rfl, hsent⟩
  · rw [hstart.queues] at hqueue
    cases hqueue
  · cases hsent with
    | frame hparsed hsends =>
      obtain ⟨hw, returnFlow, hflow, hlookup⟩ := hsends.looked_up
      exact ⟨hw, before, later, _, _, returnFlow, rfl, hflow, hlookup⟩

/-- Whatever happens between the lookup of a locator and the handling of its message, a
server drops the packet or restores it into the live session the locator names, which the
packet answers; a client drops a packet of its local resolver, completes the transaction
the locator names with it, or restores it into the session the locator names. -/
theorem stale_locators_confined (ha : config.accepted) (hstart : network.Started config placement)
    {steps : List (Step I config.flowWorkerCount)} {w : Fin config.flowWorkerCount}
    {ioOwner : IoOwnerKey} {packet : Bytes} {locator : SessionLocator} {rest : List FlowMessage}
    (hqueue : (network.after hash steps).queue w =
      .interceptIngress ioOwner packet (some locator) :: rest) (r : Readings I) :
    let flow := (network.after hash steps).system.flow w
    let ran := (Flow.Step.message (.interceptIngress ioOwner packet (some locator)) r).act.run flow
    (∃ before later classifier frame returnFlow,
      steps = before ++ .frame classifier frame :: later ∧
      Flow.packetFlow packet = some returnFlow ∧
      (network.after hash before).system.reverseNat.lookup returnFlow = some locator) ∧
    ran.1 = .ok () ∧
    (config.role = .server → Flow.Confines locator flow ran.2 ∧
      (ran.2.outputs = flow.outputs ∨ Flow.RestoresSession locator packet flow ran.2)) ∧
    (config.role = .client → flow.LocalResponse packet → Flow.Confines locator flow ran.2 ∧
      (ran.2.outputs = flow.outputs ∨ Flow.CompletesTransaction locator packet flow ran.2 ∨
        Flow.RestoresSession locator packet flow ran.2)) := by
  intro flow ran
  obtain ⟨hw, hlookup⟩ := looked_up hstart (hqueue ▸ List.mem_cons_self)
  obtain ⟨taken, htaken⟩ := exists_system_after hash network steps
  obtain ⟨site, -, -, hfollowing⟩ := (System.kept_after ha hstart.system taken).workers w
  rw [← htaken] at hfollowing
  have hworker : locator.flowWorkerId = flow.context.workerId := by
    obtain ⟨_, _, _, ht⟩ := hfollowing
    exact hw.trans ht.workerId.symm
  have hrole : flow.context.role = config.role := by
    obtain ⟨engine, epoch, hthread⟩ := hstart.system.threads w
    have hsetup := (System.setup_after network.system taken w).trans (startThread_setup hthread)
    rw [← htaken] at hsetup
    exact congrArg Setup.role hsetup
  have hran : ran = (Flow.handleFlowMessage (.interceptIngress ioOwner packet (some locator))
      flow.reconnectEpoch r).run flow := Act.bind_of_ok (Act.run_get flow)
  refine ⟨hlookup, ?_, fun hserver => ?_, fun hclient hlocal => ?_⟩
  · obtain ⟨sessions, transactions, next, ht⟩ := hfollowing
    obtain ⟨_, _, hrun, -⟩ := (Flow.step_spec _).returns (fun _ h => h) ⟨ht, fun h => h.elim⟩
    exact congrArg Prod.fst hrun
  · obtain ⟨_, after, hrun, hafter⟩ := (Flow.handleFlowMessage_server hfollowing
      (hrole.trans hserver) hworker flow.reconnectEpoch).returns (fun _ h => h) rfl
    rw [hran, hrun]
    exact hafter
  · obtain ⟨_, after, hrun, hafter⟩ := (Flow.handleFlowMessage_localResponse hfollowing
      (hrole.trans hclient) hlocal flow.reconnectEpoch).returns (fun _ h => h) rfl
    rw [hran, hrun]
    exact hafter

end Network

/-! Runs of a client with one worker, two ports and a local resolver whose network is
tunnelled. -/

namespace Aging

open IoWorker (IoClassifierConfig)

def config : ApplianceConfig :=
  { TwoPorts.config with ipPolicy := .tunnelPrefixes [.startingWith 10] }

theorem startThread_isSome :
    (startThread config Scenario.placement (⟨true⟩ : ScriptedEngine) 0 0).toOption.isSome := by
  decide +kernel

def network : Network ScriptedEngine config.flowWorkerCount :=
  ⟨alone startThread_isSome, ⟨[⟨[], 16, true⟩], 0, 0, 0⟩⟩

def first : Fin config.flowWorkerCount := ⟨0, by decide⟩

theorem network_started : network.Started config Scenario.placement := by
  refine ⟨alone_started rfl _, fun w => ?_⟩
  have hw : w.val = 0 := Nat.lt_one_iff.mp w.isLt
  rw [Network.queue, hw]
  rfl

def hash : IoOwnerKey → DnsTransactionKey → UInt64 := fun _ _ => 0

/-- The IO worker of the interface with the listener. -/
def classifier : IoClassifierConfig where
  owner := ⟨3, 0⟩
  tunnel := false
  intercept := true
  tunnelPort := 443
  tunnelLocalIps := []
  natReturnIps := [.v4 (dotted 192 0 2 1)]
  dnsListen := some ⟨.v4 (dotted 10 0 0 53), 53⟩
  dnsLocalResponse := some ⟨⟨.v4 (dotted 10 0 0 54), 53⟩, .v4 (dotted 192 0 2 1), 40000, 40001⟩
  dcidLen := 8
  flowWorkerCount := 1
  interceptPolicy := .tunnelPrefixes [.startingWith 10]

abbrev Steps := List (Network.Step (Option QuicEngineEvent) config.flowWorkerCount)

def received (packet : Bytes) : Network.Step (Option QuicEngineEvent) config.flowWorkerCount :=
  .frame classifier (List.replicate 12 0 ++ [8, 0] ++ packet)

def handled : Network.Step (Option QuicEngineEvent) config.flowWorkerCount :=
  .receive first (Scenario.readings none)

/-- A datagram of a client to the local resolver itself. -/
def datagram : Bytes :=
  [69, 0, 0, 28, 0, 1, 0, 0, 9, 17, 229, 240, 192, 168, 1, 2, 10, 0, 0, 54, 19, 136, 0, 53,
  0, 8, 0, 0]

/-- A query of a client for `b.`, which is left to the local resolver. -/
def query : Bytes :=
  [69, 0, 0, 47, 0, 1, 0, 0, 9, 17, 229, 222, 192, 168, 1, 2, 10, 0, 0, 53, 19, 136, 0, 53, 0, 27,
    0, 0, 18, 52, 1, 0, 0, 1, 0, 0, 0, 0, 0, 0, 1, 98, 0, 0, 1, 0, 1]

/-- A datagram of the local resolver to the first port. -/
def answer : Bytes :=
  [69, 0, 0, 28, 0, 1, 0, 0, 9, 17, 229, 153, 10, 0, 0, 54, 192, 0, 2, 1, 0, 53, 156, 64,
  0, 8, 0, 0]

/-- The answer waits until its transaction has expired. -/
def outlived : Steps :=
  [received query, handled, received answer, .work first (.expireDnsTransactions
    ⟨fun _ => 10 ^ 10, fun _ => 10 ^ 10, fun _ _ => 10 ^ 10, fun _ => none, false⟩)]

/-- The answer comes for a session. -/
def answered : Steps := [received datagram, handled, received answer]

end Aging

namespace Network

open Aging

/-- The packet is dropped, although the directory had its transaction. -/
theorem stale_locators_confined_outlived :
    let flow := (network.after hash outlived).system.flow first
    let ran := (Flow.Step.message (.interceptIngress ⟨3, 0⟩ answer (some ⟨0, ⟨0x8000000000000001⟩⟩))
      (Scenario.readings none)).act.run flow
    (network.after hash outlived).queue first =
        [.interceptIngress ⟨3, 0⟩ answer (some ⟨0, ⟨0x8000000000000001⟩⟩)] ∧
      flow.LocalResponse answer ∧ ran.2.outputs = [] ∧
      Flow.Confines ⟨0, ⟨0x8000000000000001⟩⟩ flow ran.2 := by
  intro flow ran
  have hqueue : (network.after hash outlived).queue first =
      [.interceptIngress ⟨3, 0⟩ answer (some ⟨0, ⟨0x8000000000000001⟩⟩)] := by
    with_unfolding_all rfl
  have hlocal : flow.LocalResponse answer := by
    refine ⟨by decide +kernel, ⟨⟨.v4 (dotted 10 0 0 54), 53⟩, .v4 (dotted 192 0 2 1), 40000, 40001⟩,
      ?_, ?_⟩
    · decide +kernel
    · decide +kernel
  exact ⟨hqueue, hlocal, by decide +kernel, ((stale_locators_confined (by decide +kernel)
    network_started hqueue (Scenario.readings none)).2.2.2 rfl hlocal).1⟩

/-- A packet of the local resolver with a locator is sent on although there is no DNS
transaction at all. -/
theorem localResponse_restored :
    let flow := (network.after hash answered).system.flow first
    let ran := (Flow.Step.message (.interceptIngress ⟨3, 0⟩ answer (some ⟨0, ⟨1⟩⟩))
      (Scenario.readings none)).act.run flow
    config.accepted ∧ config.role = .client ∧ network.Started config Scenario.placement ∧
      (network.after hash answered).queue first =
        [.interceptIngress ⟨3, 0⟩ answer (some ⟨0, ⟨1⟩⟩)] ∧
      flow.LocalResponse answer ∧ ran.2.outputs ≠ flow.outputs ∧
      ¬ Flow.CompletesTransaction ⟨0, ⟨1⟩⟩ answer flow ran.2 := by
  intro flow ran
  refine ⟨by decide +kernel, rfl, network_started, by with_unfolding_all rfl, ⟨by decide +kernel,
    ⟨⟨.v4 (dotted 10 0 0 54), 53⟩, .v4 (dotted 192 0 2 1), 40000, 40001⟩, ?_, ?_⟩, ?_, ?_⟩
  · decide +kernel
  · decide +kernel
  · decide +kernel
  · rintro ⟨key, transaction, -, hheld, -⟩
    have hempty : flow.context.state.dnsByKey.isEmpty := by decide +kernel
    rw [HashMap.isEmpty_iff.mp hempty key] at hheld
    cases hheld

end Network

end NewProxy
