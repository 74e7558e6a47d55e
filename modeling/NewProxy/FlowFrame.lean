import NewProxy.FlowLoop
import NewProxy.Triple

/-!
# What the steps of a flow worker leave alone

A handler of the loop touches the worker's state, its engine, the shared directory, the
packets that wait and the output, and of the rest of its context only the domain rules. A
condition that is insensitive to these survives every handler; with the calls on the DCID
index added it survives every step.
-/
namespace NewProxy

namespace Flow

variable {E I : Type} {ε α : Type}

def withState (flow : Flow E) (state : FlowWorkerState) : Flow E :=
  { flow with context := { flow.context with state } }

def withEngine (flow : Flow E) (engine : E) : Flow E :=
  { flow with context := { flow.context with engine } }

def withQuicFlow (flow : Flow E) (quicFlow : QuicFlow) : Flow E :=
  { flow with context := { flow.context with quicFlow } }

def withDomains (flow : Flow E) (config : DnsFlowConfig) (remoteDomains : RemoteDomainRules) :
    Flow E :=
  { flow with context := { flow.context with dnsConfig := some { config with remoteDomains } } }

def withDcids (flow : Flow E) (activeDcids : ActiveDcidIndex) : Flow E := { flow with activeDcids }

/-- `P` does not look at what the handlers change. -/
structure Frame (P : Flow E → Prop) : Prop where
  state : ∀ flow state, P flow → P (flow.withState state)
  engine : ∀ flow engine, P flow → P (flow.withEngine engine)
  reverseNat : ∀ flow reverseNat, P flow → P { flow with reverseNat }
  outputs : ∀ flow outputs, P flow → P { flow with outputs }
  pendingInner : ∀ (flow : Flow E) pendingInner, P flow → P { flow with pendingInner }
  remoteDomains : ∀ flow config remoteDomains, flow.context.dnsConfig = some config → P flow →
    P (flow.withDomains config remoteDomains)

/-- The calls on the DCID index for ids of the worker's flow keep `P`. -/
structure IndexFrame (P : Flow E → Prop) : Prop where
  stage : ∀ flow dcid, P flow → P (flow.withDcids
    ((ActiveDcidIndex.stageForFlow dcid flow.context.quicFlow).run flow.activeDcids).2)
  publish : ∀ flow dcid, P flow → P (flow.withDcids
    ((ActiveDcidIndex.publishForFlow dcid flow.context.quicFlow).run flow.activeDcids).2)
  publishBatch : ∀ flow dcids, P flow → P (flow.withDcids
    ((ActiveDcidIndex.publishBatchForFlow dcids flow.context.quicFlow).run flow.activeDcids).2)
  retire : ∀ flow dcid, P flow →
    P (flow.withDcids (flow.activeDcids.retireForFlow dcid flow.context.quicFlow))

/-- All calls on the DCID index keep `P`, and so does the change to a new QUIC flow. -/
structure DcidFrame (P : Flow E → Prop) : Prop extends Frame P, IndexFrame P where
  close : ∀ flow, P flow →
    P (flow.withDcids (flow.activeDcids.closeFlow flow.context.quicFlow.id))
  renew : ∀ flow quicFlow, let nextFlowId : QuicFlowId :=
      ⟨flow.context.quicFlow.id.value + UInt64.ofNat flow.context.flowWorkerCount⟩
    QuicFlow.new nextFlowId flow.context.workerId (be64Bytes nextFlowId.value)
      flow.context.tunnelQueueCount = .ok quicFlow → P flow →
    P ((flow.withDcids (flow.activeDcids.closeFlow flow.context.quicFlow.id)).withQuicFlow quicFlow)

/-- `P` does not look at what the handlers of messages and packets change, and their call
on the engine keeps it. -/
structure HandlerFrame [Engine E I] (P : Flow E → Prop) : Prop where
  state : ∀ flow state, P flow → P (flow.withState state)
  sendInner : ∀ (flow : Flow E) (input : I) now packet, P flow →
    P (flow.withEngine (Engine.sendInner input now packet flow.context.engine).2)
  reverseNat : ∀ flow reverseNat, P flow → P { flow with reverseNat }
  outputs : ∀ flow added, (∀ out ∈ added, ∀ connected, out ≠ .reconnect connected) → P flow →
    P { flow with outputs := flow.outputs ++ added }
  pendingInner : ∀ (flow : Flow E) pendingInner, P flow → P { flow with pendingInner }
  remoteDomains : ∀ flow config remoteDomains, flow.context.dnsConfig = some config → P flow →
    P (flow.withDomains config remoteDomains)

/-- The handlers of all events but `Closed` keep `P`. -/
structure EventFrame [Engine E I] (P : Flow E → Prop) : Prop
    extends HandlerFrame P, IndexFrame P where
  closeEngine : ∀ (flow : Flow E) (input : I) now, P flow →
    P (flow.withEngine (Engine.close input now flow.context.engine))
  resolve : ∀ (flow : Flow E) (input : I) now published, P flow → P (flow.withEngine
    (Engine.resolveCandidateReplacement input now published flow.context.engine))

theorem Frame.handlers [Engine E I] {P : Flow E → Prop} (h : Frame P) : HandlerFrame P where
  state := h.state
  sendInner flow _ _ _ := h.engine flow _
  reverseNat := h.reverseNat
  outputs flow _ _ := h.outputs flow _
  pendingInner := h.pendingInner
  remoteDomains := h.remoteDomains

theorem DcidFrame.events [Engine E I] {P : Flow E → Prop} (h : DcidFrame P) : EventFrame P where
  toHandlerFrame := h.handlers
  toIndexFrame := h.toIndexFrame
  closeEngine flow _ _ := h.engine flow _
  resolve flow _ _ _ := h.engine flow _

theorem onState_frame {P : Flow E → Prop} (hP : ∀ flow state, P flow → P (flow.withState state))
    (x : Act FlowWorkerState ε α) : Act.Stable P (onState x) :=
  .attempt (.zoom_frame fun state flow h => hP flow state h)

theorem abortRemote_frame {P : Flow E → Prop} (hP : ∀ flow state, P flow → P (flow.withState state))
    (r : Readings I) : Act.Stable P (abortRemote r) := by
  refine .bind .get fun flow => ?_
  cases flow.context.dnsConfig with
  | none => exact .pure _
  | some config => exact .bind (onState_frame hP _) fun _ => .pure _

section Handlers

variable [Engine E I] {P : Flow E → Prop}

theorem onReverseNat_frame (hP : HandlerFrame P) (x : Act ReverseNatDirectory ε α) :
    Act.Stable P (onReverseNat x) :=
  .attempt (.zoom_frame fun reverseNat flow h => hP.reverseNat flow reverseNat h)

theorem output_frame (hP : HandlerFrame P) {out : Output}
    (hout : ∀ connected, out ≠ .reconnect connected) : Act.Stable P (output out) :=
  .modify fun flow h => hP.outputs flow [out] (fun _ ho => List.mem_singleton.mp ho ▸ hout) h

theorem sendIo_frame (hP : HandlerFrame P) (transmit : IoTransmit) :
    Act.Stable P (sendIo transmit) :=
  output_frame hP nofun

theorem flowOf_frame (packet : Bytes) : Act.Stable P (flowOf packet) := by
  refine .bind (.call _) fun result => ?_
  cases result <;> exact .pure _

theorem publishSession_frame (hP : HandlerFrame P) (id : SessionId) (site : ℕ) (r : Readings I) :
    Act.Stable P (publishSession id site r) := by
  refine .bind .get fun flow => ?_
  cases flow.context.state.session id with
  | none => exact .pure _
  | some session =>
    refine .bind (onReverseNat_frame hP _) fun result => ?_
    cases result with
    | ok _ => exact .pure _
    | error _ => exact .bind (onState_frame hP.state _) fun _ => .pure _

theorem retireEntry_frame (hP : HandlerFrame P) (binding : NatBinding) (id : SessionId) :
    Act.Stable P (retireEntry binding id) :=
  .modify fun flow h => hP.reverseNat flow _ h

theorem retireSession_frame (hP : HandlerFrame P) (id : SessionId) (site : ℕ) (r : Readings I) :
    Act.Stable P (retireSession id site r) := by
  refine .bind (onState_frame hP.state _) fun result => ?_
  cases result with
  | ok session => exact retireEntry_frame hP _ _
  | error _ => exact .pure _

theorem publishDnsReverse_frame (hP : HandlerFrame P) (binding : NatBinding) (id : SessionId) :
    Act.Stable P (publishDnsReverse binding id) := by
  refine .bind .get fun flow => .bind (onReverseNat_frame hP _) fun result => ?_
  cases result <;> exact .pure _

theorem completeDns_frame (hP : HandlerFrame P)
    (result : Except FlowWorkerError (Option HandledDnsResponse)) :
    Act.Stable P (completeDns result) := by
  rcases result with _ | _ | restored
  · exact .pure _
  · exact .pure _
  · exact .bind (retireEntry_frame hP _ _) fun _ => sendIo_frame hP _

theorem sendRestored_frame (hP : HandlerFrame P)
    (result : Except FlowWorkerError (Option HandledReverse)) :
    Act.Stable P (sendRestored result) := by
  rcases result with _ | _ | restored
  · exact .pure _
  · exact .pure _
  · exact sendIo_frame hP _

theorem publishOrAbort_frame (hP : HandlerFrame P) (binding : NatBinding) (id : SessionId)
    (config : DnsFlowConfig) (r : Readings I) {send : FlowM E Unit} (hsend : Act.Stable P send) :
    Act.Stable P (publishOrAbort binding id config r send) := by
  refine .bind (publishDnsReverse_frame hP _ _) fun published => .ite hsend ?_
  refine .bind (onState_frame hP.state _) fun result => ?_
  rcases result with _ | _ | aborted
  · exact .pure _
  · exact .pure _
  · exact sendIo_frame hP _

theorem sendInner_frame (hP : HandlerFrame P) (packet : Bytes) (site : ℕ) (r : Readings I) :
    Act.Stable P (sendInner packet site r) :=
  .bind (output_frame hP nofun) fun _ flow h =>
    hP.sendInner flow (r.engine site) (r.now site) packet h

theorem sendOrQueueInner_frame (hP : HandlerFrame P) (packet : Bytes) (epoch : UInt64) (site : ℕ)
    (r : Readings I) : Act.Stable P (sendOrQueueInner packet epoch site r) := by
  refine .bind (sendInner_frame hP _ _ _) fun result => ?_
  rcases result with e | _
  · cases e <;> try exact .pure _
    all_goals
      refine .bind .get fun flow => ?_
      cases flow.pendingInner.push epoch packet with
      | none => exact .pure _
      | some pending =>
        exact .bind (.modify fun flow h => hP.pendingInner flow pending h) fun _ => .pure _
  · exact .pure _

theorem handleDnsReturn_frame (hP : HandlerFrame P) (packet : Bytes)
    (expectedLocator : Option SessionLocator) (r : Readings I) :
    Act.Stable P (handleDnsReturn packet expectedLocator r) := by
  refine .bind .get fun flow => ?_
  cases flow.context.dnsLocalResponse with
  | none => exact .pure _
  | some classifier =>
    refine .bind (.bind (flowOf_frame packet) fun _ => .pure _) fun candidate => .ite ?_ (.pure _)
    cases expectedLocator with
    | none => exact .pure _
    | some locator =>
      refine .bind (flowOf_frame packet) fun _ => .bind .get fun _ => .ite ?_ ?_
      · exact .bind (onState_frame hP.state _) fun _ =>
          .bind (completeDns_frame hP _) fun _ => .pure _
      · exact .bind (onState_frame hP.state _) fun _ =>
          .bind (sendRestored_frame hP _) fun _ => .pure _

theorem handleDnsIngress_frame (hP : HandlerFrame P) (ioOwner : IoOwnerKey) (packet : Bytes)
    (config : DnsFlowConfig) (epoch : UInt64) (r : Readings I) :
    Act.Stable P (handleDnsIngress ioOwner packet config epoch r) := by
  refine .bind (onState_frame hP.state _) fun result => ?_
  rcases result with e | ⟨transmit, binding, id⟩ | ⟨query, binding, id⟩ | transmit
  · rcases e with e | e | (_ | _) | ⟨_, _⟩ <;> exact .pure _
  · exact .bind (publishOrAbort_frame hP _ _ _ _ (sendIo_frame hP _)) fun _ => .pure _
  · exact .bind (publishOrAbort_frame hP _ _ _ _ (.bind (sendOrQueueInner_frame hP _ _ _ _)
      fun _ => .pure _)) fun _ => .pure _
  · exact .bind (sendIo_frame hP _) fun _ => .pure _

theorem handleForward_frame (hP : HandlerFrame P) (ioOwner : IoOwnerKey) (packet : Bytes)
    (epoch : UInt64) (r : Readings I) : Act.Stable P (handleForward ioOwner packet epoch r) := by
  refine .bind .get fun flow => .ite (.pure _) (.bind (onState_frame hP.state _) fun result => ?_)
  rcases result with e | handled
  · exact .pure _
  · refine .bind (publishSession_frame hP _ _ _) fun published => .ite ?_ (.pure _)
    refine .bind (sendOrQueueInner_frame hP _ _ _ _) fun outcome => ?_
    cases outcome
    · exact .pure _
    · exact .pure _
    · exact retireSession_frame hP _ _ _

theorem handleClientIngress_frame (hP : HandlerFrame P) (ioOwner : IoOwnerKey) (packet : Bytes)
    (expectedLocator : Option SessionLocator) (epoch : UInt64) (r : Readings I) :
    Act.Stable P (handleClientIngress ioOwner packet expectedLocator epoch r) := by
  refine .bind .get fun flow => ?_
  cases flow.context.dnsConfig with
  | none => exact handleForward_frame hP _ _ _ _
  | some config =>
    exact .bind (handleDnsReturn_frame hP _ _ _) fun _ => .ite (.pure _) (.bind .get fun _ =>
      .bind (handleDnsIngress_frame hP _ _ _ _ _) fun _ => .ite (.pure _)
        (handleForward_frame hP _ _ _ _))

theorem handleServerIngress_frame (hP : HandlerFrame P) (ioOwner : IoOwnerKey) (packet : Bytes)
    (expectedLocator : Option SessionLocator) (epoch : UInt64) (r : Readings I) :
    Act.Stable P (handleServerIngress ioOwner packet expectedLocator epoch r) := by
  refine .bind .get fun flow => ?_
  cases expectedLocator with
  | none => exact .pure _
  | some locator =>
    refine .ite (.pure _) (.bind (onState_frame hP.state _) fun result => ?_)
    rcases result with _ | _ | restored
    · exact .pure _
    · exact .pure _
    · exact .bind (sendOrQueueInner_frame hP _ _ _ _) fun _ => .pure _

/-- A datagram of the tunnel goes to the engine, which has to keep `P` as well. -/
theorem handleFlowMessage_frame (hP : HandlerFrame P) (message : FlowMessage) (epoch : UInt64)
    (r : Readings I) (houter : ∀ flow remote localIp packet, P flow → P (flow.withEngine
      (Engine.handleOuter (r.engine 0) (r.now 0) remote localIp packet flow.context.engine))) :
    Act.Stable P (handleFlowMessage message epoch r) := by
  cases message with
  | reloadPolicies remoteDomains =>
    refine .modify fun flow h => ?_
    split
    · rename_i config remoteDomains hconfig
      exact hP.remoteDomains flow config remoteDomains hconfig h
    · exact h
  | interceptIngress ioOwner packet expectedLocator =>
    refine .bind .get fun flow => ?_
    cases flow.context.role with
    | client => exact handleClientIngress_frame hP _ _ _ _ _
    | server => exact handleServerIngress_frame hP _ _ _ _ _
  | tunnelIngress ioOwner dcid remote localIp packet =>
    exact fun flow h => houter flow remote (some localIp) packet h

theorem flushPending_frame (hP : HandlerFrame P) (r : Readings I) (site : ℕ)
    (packets : List Bytes) : Act.Stable P (flushPending r site packets) := by
  induction packets generalizing site with
  | nil => exact .pure _
  | cons packet rest ih =>
    refine .bind (sendInner_frame hP _ _ _) fun result => ?_
    cases result with
    | ok _ => exact .bind (.modify fun flow h => hP.pendingInner flow _ h) fun _ => ih _
    | error _ => exact .pure _

theorem handleClientInner_frame (hP : HandlerFrame P) (packet : Bytes) (r : Readings I) :
    Act.Stable P (handleClientInner packet r) := by
  refine .bind (.bind .get fun flow => .bind (flowOf_frame packet) fun _ => .ite
    (onState_frame hP.state _) (.pure _)) fun result => ?_
  rcases result with _ | _ | restored
  · exact completeDns_frame hP _
  · exact .bind (onState_frame hP.state _) fun _ => sendRestored_frame hP _
  · exact completeDns_frame hP _

theorem handleServerPacket_frame (hP : HandlerFrame P) (packet : Bytes) (r : Readings I) :
    Act.Stable P (handleServerPacket packet r) := by
  refine .bind .get fun flow => .bind (onState_frame hP.state _) fun result => ?_
  rcases result with e | handled
  · exact .pure _
  · exact .bind (publishSession_frame hP _ _ _) fun _ => .ite (sendIo_frame hP _) (.pure _)

theorem expireIdleSessions_frame (hP : HandlerFrame P) (r : Readings I) :
    Act.Stable P (expireIdleSessions r) := by
  have hall : ∀ expired : List Session,
      Act.Stable P (expired.forM fun session => retireEntry session.nat session.id) := by
    intro expired
    induction expired with
    | nil => exact .pure _
    | cons session rest ih => exact .bind (retireEntry_frame hP _ _) fun _ => ih
  refine .bind (onState_frame hP.state _) fun result => ?_
  cases result with
  | error _ => exact .pure _
  | ok expired => exact hall expired

theorem expireDnsTransactions_frame (hP : HandlerFrame P) (r : Readings I) :
    Act.Stable P (expireDnsTransactions r) := by
  have hall : ∀ transmits : List ExpiredDnsTransaction,
      Act.Stable P (transmits.forM fun expired => do
        retireDnsReverse expired.binding expired.transactionId
        sendIo expired.transmit) := by
    intro transmits
    induction transmits with
    | nil => exact .pure _
    | cons expired rest ih =>
      exact .bind (.bind (retireEntry_frame hP _ _) fun _ => sendIo_frame hP _) fun _ => ih
  refine .bind .get fun flow => ?_
  cases flow.context.dnsConfig with
  | none => exact .pure _
  | some config =>
    refine .bind (onState_frame hP.state _) fun result => ?_
    cases result with
    | error _ => exact .pure _
    | ok transmits => exact hall transmits

end Handlers

section Steps

variable [Engine E I] {P : Flow E → Prop}

theorem onEngine_frame (hP : Frame P) (f : E → α × E) : Act.Stable P (onEngine f) :=
  fun flow h => hP.engine flow _ h

/-- The old flow's ids are dropped before the new flow is put in its place. -/
theorem handleClosed_frame (hP : DcidFrame P) (epoch : UInt64) (r : Readings I) :
    Act.Stable P (handleClosed epoch r) := by
  refine .bind (.modify fun flow h => hP.pendingInner flow _ h) fun _ =>
    .bind (abortRemote_frame hP.state r) fun _ flow h => ?_
  rw [Act.bind_of_ok (Act.run_get flow), Act.bind_of_ok (Act.run_modify _ flow)]
  by_cases hexit : r.exitRequested = true
  · rw [if_pos hexit]
    exact hP.close flow h
  rw [if_neg hexit]
  dsimp only
  split
  · exact hP.close flow h
  · rename_i quicFlow hnew
    rw [Act.bind_of_ok (Act.run_modify _ _)]
    refine Act.Stable.bind (onState_frame hP.handlers.state _) (fun _ => ?_) _
      (hP.renew flow quicFlow hnew h)
    exact .ite (.bind (onEngine_frame hP.toFrame _) fun _ => .modify fun flow h =>
      hP.outputs flow _ h) (.pure _)

theorem onActiveDcids_frame {x : Act ActiveDcidIndex ε α} {k : Except ε α → FlowM E Unit}
    {flow : Flow E} (h : P (flow.withDcids (x.run flow.activeDcids).2))
    (hk : ∀ result, Act.Stable P (k result)) : P (((onActiveDcids x) >>= k).run flow).2 := by
  rw [Act.run_bind, onActiveDcids, Act.attempt, Act.zoom]
  rcases hrun : x.run flow.activeDcids with ⟨(e | _) | a, index⟩ <;> rw [hrun] at h <;>
    simp only [hrun, Outcome.mapErr, Outcome.fail, Outcome.panic]
  · exact hk _ _ h
  · exact h
  · exact hk _ _ h

theorem handleEngineEvent_keeps (hP : EventFrame P) {event : QuicEngineEvent}
    (hclosed : event ≠ .closed) (epoch : UInt64) (r : Readings I) :
    Act.Stable P (handleEngineEvent event epoch r) := by
  have hframe := hP.toHandlerFrame
  have hclose : ∀ (site : ℕ), Act.Stable P (closeEngine site r : FlowM E Unit) :=
    fun site flow h => hP.closeEngine flow (r.engine site) (r.now site) h
  cases event with
  | transmit transmit =>
    refine .modify fun flow h => hP.outputs flow _ (fun out hout connected => ?_) h
    obtain ⟨packet, -, rfl⟩ := List.mem_map.mp hout
    exact nofun
  | authenticated =>
    exact .bind .get fun flow => .ite (flushPending_frame hframe _ _ _) (.pure _)
  | innerPacket packet =>
    refine .bind .get fun flow => ?_
    cases flow.context.role with
    | client => exact handleClientInner_frame hframe _ _
    | server => exact handleServerPacket_frame hframe _ _
  | dcidPublished dcid =>
    intro flow h
    rw [handleEngineEvent, Act.bind_of_ok (Act.run_get flow)]
    refine onActiveDcids_frame (hP.publish flow dcid h) fun result => ?_
    cases result with
    | ok _ => exact .pure _
    | error _ => exact hclose 1
  | dcidStaged dcid =>
    intro flow h
    rw [handleEngineEvent, Act.bind_of_ok (Act.run_get flow)]
    refine onActiveDcids_frame (hP.stage flow dcid h) fun result => ?_
    cases result with
    | ok _ => exact .pure _
    | error _ => exact hclose 1
  | dcidRetired dcid => exact .modify fun flow h => hP.retire flow dcid h
  | replaced dcids =>
    intro flow h
    rw [handleEngineEvent, Act.bind_of_ok (Act.run_get flow)]
    refine onActiveDcids_frame (hP.publishBatch flow dcids h) fun published =>
      .bind (fun flow h => hP.resolve flow (r.engine 1) (r.now 1) published.isOk h) fun _ => ?_
    exact .ite (.modify fun flow h => hP.pendingInner flow _ h) (.pure _)
  | closed => exact absurd rfl hclosed

theorem handleEngineEvent_frame (hP : DcidFrame P) (event : QuicEngineEvent) (epoch : UInt64)
    (r : Readings I) : Act.Stable P (handleEngineEvent event epoch r) := by
  by_cases hclosed : event = .closed
  · subst hclosed
    exact handleClosed_frame hP epoch r
  · exact handleEngineEvent_keeps hP.events hclosed epoch r

theorem pollEngine_frame (hP : DcidFrame P) (epoch : UInt64) (r : Readings I) :
    Act.Stable P (pollEngine epoch r) := by
  refine .bind (onEngine_frame hP.toFrame _) fun event => ?_
  cases event with
  | none => exact .pure _
  | some event => exact .bind (handleEngineEvent_frame hP event epoch r) fun _ => .pure _

theorem epoch_frame {epoch : UInt64} :
    DcidFrame fun flow : Flow E => flow.reconnectEpoch = epoch where
  state _ _ h := h
  engine _ _ h := h
  reverseNat _ _ h := h
  outputs _ _ h := h
  pendingInner _ _ h := h
  remoteDomains _ _ _ _ h := h
  stage _ _ h := h
  publish _ _ h := h
  publishBatch _ _ h := h
  retire _ _ h := h
  close _ h := h
  renew _ _ _ h := h

/-- The rounds of a drain are poll steps: none of them changes the epoch they are all given. -/
theorem drainEngine_polls (rounds : List (Readings I)) (flow : Flow E) :
    ∃ polls, polls <+: rounds ∧ ((drainEngine flow.reconnectEpoch rounds).run flow).2 =
      polls.foldl (fun flow r => ((Step.poll r).act.run flow).2) flow := by
  induction rounds generalizing flow with
  | nil => exact ⟨[], List.nil_prefix, rfl⟩
  | cons r rest ih =>
    have hepoch : ((pollEngine flow.reconnectEpoch r).run flow).2.reconnectEpoch =
        flow.reconnectEpoch := pollEngine_frame epoch_frame _ r flow rfl
    have hpoll :
        ((Step.poll r).act.run flow).2 = ((pollEngine flow.reconnectEpoch r).run flow).2 := by
      rw [Step.act, Act.bind_of_ok (Act.run_get flow), Act.run_bind]
      rcases (pollEngine flow.reconnectEpoch r).run flow with ⟨_ | _, next⟩ <;> rfl
    rw [drainEngine, Act.run_bind]
    rcases hrun : (pollEngine flow.reconnectEpoch r).run flow with ⟨e | more, next⟩ <;>
      rw [hrun] at hepoch hpoll
    · exact ⟨[r], ⟨rest, rfl⟩, hpoll.symm⟩
    · cases more with
      | false => exact ⟨[r], ⟨rest, rfl⟩, hpoll.symm⟩
      | true =>
        obtain ⟨polls, hpolls, hdrained⟩ := ih next
        refine ⟨r :: polls, List.cons_prefix_cons.mpr ⟨rfl, hpolls⟩, ?_⟩
        rw [List.foldl_cons, hpoll, ← hdrained, hepoch]
        rfl

/-- A step keeps what it does not look at. -/
theorem step_frame (hP : DcidFrame P)
    (hepoch : ∀ (flow : Flow E) reconnectEpoch, P flow → P { flow with reconnectEpoch })
    (step : Step I) : Act.Stable P step.act := by
  cases step with
  | message message r =>
    exact .bind .get fun _ => handleFlowMessage_frame hP.handlers _ _ _ fun flow _ _ _ =>
      hP.engine flow _
  | poll r => exact .bind .get fun _ => .bind (pollEngine_frame hP _ _) fun _ => .pure _
  | expireDnsTransactions r => exact expireDnsTransactions_frame hP.handlers r
  | expireIdleSessions r => exact expireIdleSessions_frame hP.handlers r
  | reconnect requestedEpoch r =>
    refine .bind .get fun flow => .ite (.bind (.modify fun flow h => ?_) fun _ =>
      onEngine_frame hP.toFrame _) (.pure _)
    exact hP.pendingInner { flow with reconnectEpoch := requestedEpoch } _
      (hepoch flow requestedEpoch h)
  | exit r => exact onEngine_frame hP.toFrame fun engine =>
      ((), Engine.close (r.engine 0) (r.now 0) engine)

end Steps

end Flow

/-- The part of a worker's context that its steps leave alone. -/
structure Setup where
  role : Role
  workerId : ℕ
  flowWorkerCount : ℕ
  tunnelQueueCount : UInt32
  dnsLocalResponse : Option DnsLocalResponseClassifier
  listen : Option SocketAddr

def FlowLoopContext.setup {E : Type} (context : FlowLoopContext E) : Setup :=
  ⟨context.role, context.workerId, context.flowWorkerCount, context.tunnelQueueCount,
    context.dnsLocalResponse, context.dnsConfig.map DnsFlowConfig.listen⟩

theorem startThread_setup {E : Type} {config : ApplianceConfig} {placement : Placement} {engine : E}
    {epoch : UInt64} {workerId : ℕ} {thread : Thread E}
    (h : startThread config placement engine epoch workerId = .ok thread) :
    thread.context.setup =
      ⟨config.role, workerId, config.flowWorkerCount, placement.tunnelQueueCount,
      dnsLocalResponseClassifier config, (dnsFlowConfig config).map DnsFlowConfig.listen⟩ := by
  obtain ⟨ports, -, h⟩ := Outcome.bind_eq_ok.mp h
  obtain ⟨⟨first, last⟩, -, h⟩ := Outcome.bind_eq_ok.mp h
  obtain ⟨state, -, h⟩ := Outcome.bind_eq_ok.mp h
  obtain ⟨quicFlow, -, h⟩ := Outcome.bind_eq_ok.mp h
  rw [← Except.ok.inj h]
  rfl

namespace System

variable {E I : Type} [Engine E I] {n : ℕ}

/-- What holds of a worker and does not look at the shared tables lasts. -/
theorem after_frame {P : Thread E → Prop} (hP : Flow.DcidFrame fun flow => P flow.toThread)
    (hepoch : ∀ (thread : Thread E) reconnectEpoch, P thread → P { thread with reconnectEpoch })
    (system : System E n) (steps : List (Fin n × Flow.Step I)) (w : Fin n)
    (h : P (system.threads w)) : P ((system.after steps).threads w) := by
  induction steps generalizing system with
  | nil => exact h
  | cons s rest ih =>
    refine ih (system.step s.1 s.2) ?_
    by_cases hw : w = s.1
    · subst hw
      simp only [step, Function.update_self]
      exact Flow.step_frame hP (fun flow => hepoch flow.toThread) s.2 (system.flow s.1) h
    · simp only [step, Function.update_of_ne hw]
      exact h

theorem setup_after (system : System E n) (steps : List (Fin n × Flow.Step I)) (w : Fin n) :
    ((system.after steps).threads w).context.setup = (system.threads w).context.setup := by
  refine after_frame (P := fun thread => thread.context.setup = (system.threads w).context.setup)
    ⟨⟨?_, ?_, ?_, ?_, ?_, ?_⟩, ⟨?_, ?_, ?_, ?_⟩, ?_, ?_⟩ (fun _ _ h => h) system steps w
    rfl <;> intros
  all_goals try assumption
  rename_i flow config remoteDomains hconfig h
  rw [← h]
  simp only [Flow.withDomains, FlowLoopContext.setup, hconfig, Option.map_some]

end System

end NewProxy
