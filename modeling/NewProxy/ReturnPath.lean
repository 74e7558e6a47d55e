import NewProxy.DirectorySystem
import NewProxy.FlowFrame
import NewProxy.Reload

/-!
# Return packets

A packet that comes with a locator answers a session or a DNS transaction of the worker.
It is to be restored or dropped, and nothing may be opened for it.
-/
namespace NewProxy

open Outcome Packet
open FlowWorkerState (Booked Fits Enters Matched)

theorem ReverseNatDirectory.get_of_retire {directory : ReverseNatDirectory} {binding : NatBinding}
    {retired locator : SessionLocator} {key : ReverseNatKey}
    (h : (directory.retire binding retired).entries.get key = some locator) :
    directory.entries.get key = some locator := by
  rw [get_retire] at h
  split_ifs at h
  exact h

namespace Flow

variable {E I : Type}

/-- No session is created, no binding allocated and no entry published. -/
structure OpensNothing (before after : Flow E) : Prop where
  sessions : ∀ id, (after.context.state.session id).isSome →
    (before.context.state.session id).isSome
  nextSessionId : after.context.state.sessions.nextSessionId =
    before.context.state.sessions.nextSessionId
  bindings : ∀ id binding, after.context.state.sessions.nat.forward.get id = some binding →
    before.context.state.sessions.nat.forward.get id = some binding
  entries : ∀ key locator, after.reverseNat.entries.get key = some locator →
    before.reverseNat.entries.get key = some locator

/-- How a restored packet leaves: to the intercept side, or into the tunnel. -/
def returned (flow : Flow E) (restored : HandledReverse) : Output :=
  match flow.context.role with
  | .client => .io ⟨restored.localTarget, restored.packet, none⟩
  | .server => .inner restored.packet

/-- The packet is given back to the session or to the DNS transaction the locator names. -/
inductive RestoredInto (locator : SessionLocator) (packet : Bytes) (r : Readings I)
    (before after : Flow E) : Prop where
  | session (observed : Option IoOwnerKey) (restored : HandledReverse) (session : Session)
      (live : before.context.state.session locator.sessionId = some session)
      (run : (FlowWorkerState.handleReverseForInner packet locator observed (r.now 0)).run
        before.context.state = (.ok (some restored), after.context.state))
      (named : restored.sessionId = locator.sessionId)
      (sent : after.outputs = before.outputs ++ [before.returned restored])
  | transaction (response : HandledDnsResponse) (key : DnsFlowTransactionKey)
      (transaction : DnsFlowTransaction)
      (active : before.context.state.dnsByKey.get key = some transaction)
      (token : transaction.token = locator.sessionId)
      (run : (FlowWorkerState.handleDnsResponse packet (r.natNow 0)).run before.context.state =
        (.ok (some response), after.context.state))
      (named : response.transactionId = locator.sessionId)
      (sent : after.outputs =
        before.outputs ++ [.io ⟨response.localTarget, response.packet, none⟩])

/-- The packet is handled as a return packet and as nothing else. -/
def HandledAsReturn (locator : SessionLocator) (packet : Bytes) (r : Readings I)
    (before after : Flow E) : Prop :=
  OpensNothing before after ∧
    (after.outputs = before.outputs ∨ RestoredInto locator packet r before after)

/-- What `is_dns_local_resolver_candidate` looks for in the flow of a packet. -/
def fromLocalResolver (classifier : DnsLocalResponseClassifier) (flow : FlowKey) : Bool :=
  flow.protocol = .udp && flow.source = classifier.resolver.ip &&
    flow.sourcePort = classifier.resolver.port && flow.destination = classifier.natIp &&
    classifier.natPortStart ≤ flow.destinationPort && flow.destinationPort ≤ classifier.natPortEnd

/-- The packet of a client's local resolver. -/
def LocalResponse (flow : Flow E) (packet : Bytes) : Prop :=
  flow.context.dnsConfig.isSome ∧ ∃ classifier, flow.context.dnsLocalResponse = some classifier ∧
    (packetFlow packet).any (fromLocalResolver classifier)

/-- A client takes the packet in as traffic of its own: its transport is up, the packet may
be forwarded, and there is a session for its flow or room for one. -/
def TakesIn [Engine E I] (flow : Flow E) (ioOwner : IoOwnerKey) (packet : Bytes)
    (natNow : Instant) : Prop :=
  Engine.isAuthenticated flow.context.engine = true ∧
    flow.context.state.TakesIn ioOwner packet flow.context.quicFlow natNow

section Effects

variable {c : Site} {sessions transactions transactions' : SessionId → Option NatBinding}
  {next : UInt64} {before after flow : Flow E} {packet : Bytes} {locator : SessionLocator}
  {r : Readings I}

theorem forward_of_booked {state : FlowWorkerState} (h : Booked c sessions transactions next state)
    (id : SessionId) :
    state.sessions.nat.forward.get id = (sessions id <|> transactions id) := by
  rw [h.leased.sessions.nat.forward, SessionTable.ledger, h.holding.bindings]
  cases sessions id <;> cases transactions id <;> rfl

/-- A step that at most closes transactions opens nothing. -/
theorem OpensNothing.of_booked (hb : Booked c sessions transactions next before.context.state)
    (ha : Booked c sessions transactions' next after.context.state)
    (hsub : ∀ id binding, transactions' id = some binding → transactions id = some binding)
    (hentries : ∀ key locator, after.reverseNat.entries.get key = some locator →
      before.reverseNat.entries.get key = some locator) : OpensNothing before after := by
  refine ⟨fun id hid => ?_, by rw [ha.holding.next, hb.holding.next], fun id binding hid => ?_,
    hentries⟩
  · have hsame := (ha.holding.bindings id).trans (hb.holding.bindings id).symm
    have hsome := congrArg Option.isSome hsame
    rw [Option.isSome_map, Option.isSome_map] at hsome
    exact hsome ▸ hid
  · rw [forward_of_booked ha] at hid
    rw [forward_of_booked hb]
    cases hs : sessions id with
    | some _ =>
      rw [hs] at hid
      exact hid
    | none =>
      rw [hs] at hid
      exact hsub id binding hid

/-- A call on the worker's state, its end known by the call itself. -/
theorem onState_from {ε α : Type} {P : FlowWorkerState → Prop} {x : Act FlowWorkerState ε α}
    {Q : α → FlowWorkerState → Prop} {R : FlowWorkerState → Prop} (hx : Act.Triple P x Q R)
    (hP : P flow.context.state) :
    Act.Triple (fun f => f = flow) (onState x)
      (fun result f => ∃ state, f = flow.withState state ∧ match result with
        | .ok a => x.run flow.context.state = (.ok a, state) ∧ Q a state
        | .error e => x.run flow.context.state = (fail e, state) ∧ R state)
      (fun _ => False) := by
  intro f hf
  rw [hf]
  have hends := hx _ hP
  rcases hrun : x.run flow.context.state with ⟨(e | _) | a, state⟩ <;> rw [hrun] at hends <;>
    simp only [onState, Act.attempt, Act.zoom, hrun, mapErr, fail]
  · exact ⟨state, rfl, rfl, hends⟩
  · exact hends
  · exact ⟨state, rfl, rfl, hends⟩

/-- A packet is handed to the engine and perhaps queued. -/
structure Sends (packet : Bytes) (before after : Flow E) : Prop where
  outputs : after.outputs = before.outputs ++ [.inner packet]
  state : after.context.state = before.context.state
  reverseNat : after.reverseNat = before.reverseNat

theorem sendOrQueueInner_sends [Engine E I] (packet : Bytes) (epoch : UInt64) (site : ℕ) :
    Act.Triple (fun f => f = flow) (sendOrQueueInner packet epoch site r)
      (fun _ => Sends packet flow) (fun _ => False) := by
  refine .bind (Q := fun _ => Sends packet flow) ?_ fun result => ?_
  · intro f hf
    rw [hf]
    exact ⟨rfl, rfl, rfl⟩
  rcases result with e | _
  · cases e <;> try exact .pure fun _ h => h
    all_goals
      refine .get fun f hf => .pre (fun _ h => h ▸ hf) ?_
      cases f.pendingInner.push epoch packet with
      | none => exact .pure fun _ h => h
      | some pending =>
        exact .bind (Q := fun _ => Sends packet flow)
          (.modify fun _ h => ⟨h.outputs, h.state, h.reverseNat⟩) fun _ => .pure fun _ h => h
  · exact .pure fun _ h => h

theorem live_of_lookup (hb : Booked c sessions transactions next before.context.state)
    {returnFlow : FlowKey}
    (h : before.context.state.sessions.lookupReverseLocator returnFlow = some locator) :
    ∃ session, before.context.state.session locator.sessionId = some session ∧
      returnFlow.ReturnsTo session.nat.translated := by
  obtain ⟨session, hs, -, hret⟩ :=
    hb.leased.sessions.toLinked.lookupReverseLocator_eq_some.mp h
  exact ⟨session, hs, hret⟩

/-- What goes out for a packet that was tried on a session. -/
def sentBack (flow : Flow E) : Outcome FlowWorkerError (Option HandledReverse) → List Output
  | .ok (some restored) => [flow.returned restored]
  | _ => []

/-- The packet is tried on the session that the locator names, and nothing else is done. -/
structure Reverses (packet : Bytes) (locator : SessionLocator) (observed : Option IoOwnerKey)
    (r : Readings I) (before after : Flow E) : Prop where
  ran : ∃ result, (FlowWorkerState.handleReverseForInner packet locator observed (r.now 0)).run
      before.context.state = (result, after.context.state) ∧
    after.outputs = before.outputs ++ before.sentBack result
  booked : ∀ {c sessions transactions next},
    Booked c sessions transactions next before.context.state →
    Booked c sessions transactions next after.context.state
  reverseNat : after.reverseNat = before.reverseNat

/-- What goes out for a packet that was tried on the DNS transactions. -/
def answersBack : Outcome FlowWorkerError (Option HandledDnsResponse) → List Output
  | .ok (some response) => [.io ⟨response.localTarget, response.packet, none⟩]
  | _ => []

/-- The packet is tried on the transaction of its tuple, and nothing else is done. -/
structure Responds (packet : Bytes) (r : Readings I) (before after : Flow E) : Prop where
  ran : ∃ result, (FlowWorkerState.handleDnsResponse packet (r.natNow 0)).run
      before.context.state = (result, after.context.state) ∧
    after.outputs = before.outputs ++ answersBack result
  entries : ∀ key locator, after.reverseNat.entries.get key = some locator →
    before.reverseNat.entries.get key = some locator

theorem handledAsReturn_dropped (hb : Booked c sessions transactions next before.context.state)
    (ha : Booked c sessions transactions next after.context.state)
    (hdirectory : after.reverseNat = before.reverseNat) (hsent : after.outputs = before.outputs) :
    HandledAsReturn locator packet r before after :=
  ⟨.of_booked hb ha (fun _ _ h => h) (fun _ _ h => hdirectory ▸ h), .inl hsent⟩

theorem Reverses.handledAsReturn {observed : Option IoOwnerKey}
    (h : Reverses packet locator observed r before after)
    (hb : Booked c sessions transactions next before.context.state) :
    HandledAsReturn locator packet r before after := by
  obtain ⟨result, hrun, hsent⟩ := h.ran
  rcases result with e | _ | restored
  · exact handledAsReturn_dropped hb (h.booked hb) h.reverseNat (hsent.trans (List.append_nil _))
  · exact handledAsReturn_dropped hb (h.booked hb) h.reverseNat (hsent.trans (List.append_nil _))
  · obtain ⟨hnamed, returnFlow, -, hlookup, -⟩ := FlowWorkerState.handleReverseForInner_eq_ok hrun
    obtain ⟨session, hs, -⟩ := live_of_lookup hb hlookup
    exact ⟨.of_booked hb (h.booked hb) (fun _ _ h => h) (fun _ _ hk => h.reverseNat ▸ hk),
      .inr (.session observed restored session hs hrun hnamed hsent)⟩

end Effects

section Returns

variable {c : Site} {sessions transactions : SessionId → Option NatBinding}
  {next : UInt64} {flow : Flow E} {packet : Bytes} {locator : SessionLocator} {r : Readings I}

theorem onState_reverses (hb : Booked c sessions transactions next flow.context.state)
    (observed : Option IoOwnerKey) :
    Act.Triple (fun f => f = flow)
      (onState (FlowWorkerState.handleReverseForInner packet locator observed (r.now 0)))
      (fun result f => ∃ state, f = flow.withState state ∧
        (FlowWorkerState.handleReverseForInner packet locator observed (r.now 0)).run
          flow.context.state = (result.mapError .error, state))
      (fun _ => False) := by
  refine (onState_from (FlowWorkerState.handleReverseForInner_booked packet locator observed
    (r.now 0)) hb).weaken (fun _ h => h) (fun result f hf => ?_) fun _ h => h
  obtain ⟨state, rfl, hrun⟩ := hf
  cases result with
  | ok a => exact ⟨state, rfl, hrun.1⟩
  | error e => exact ⟨state, rfl, hrun.1⟩

theorem booked_of_reverse {state : FlowWorkerState} {observed : Option IoOwnerKey}
    {result : Outcome FlowWorkerError (Option HandledReverse)}
    (hrun : (FlowWorkerState.handleReverseForInner packet locator observed (r.now 0)).run
      flow.context.state = (result, state)) {c : Site}
    {sessions transactions : SessionId → Option NatBinding} {next : UInt64}
    (hb : Booked c sessions transactions next flow.context.state) :
    Booked c sessions transactions next state := by
  have hstate := (FlowWorkerState.handleReverseForInner_booked packet locator observed
    (r.now 0)).state hb
  rw [hrun] at hstate
  exact hstate

theorem handleServerIngress_reverses [Engine E I]
    (hb : Booked c sessions transactions next flow.context.state)
    (hrole : flow.context.role = .server)
    (hw : locator.flowWorkerId = flow.context.workerId) (ioOwner : IoOwnerKey) (epoch : UInt64) :
    Act.Triple (fun f => f = flow) (handleServerIngress ioOwner packet (some locator) epoch r)
      (fun _ => Reverses packet locator (some ioOwner) r flow) (fun _ => False) := by
  refine .get fun f hf => ?_
  subst hf
  simp only [hw, ne_eq, not_true_eq_false, if_false]
  refine .bind (onState_reverses hb (some ioOwner)) fun result => ?_
  rcases result with e | _ | restored
  · refine .pure ?_
    rintro _ ⟨state, rfl, hrun⟩
    exact ⟨⟨_, hrun, (List.append_nil _).symm⟩, booked_of_reverse hrun, rfl⟩
  · refine .pure ?_
    rintro _ ⟨state, rfl, hrun⟩
    exact ⟨⟨_, hrun, (List.append_nil _).symm⟩, booked_of_reverse hrun, rfl⟩
  · rintro _ ⟨state, rfl, hrun⟩
    refine Act.Triple.bind (sendOrQueueInner_sends restored.packet epoch 1)
      (fun _ => .pure ?_) _ rfl
    intro after hsent
    have hstate : after.context.state = state := hsent.state
    refine ⟨⟨.ok (some restored), hstate ▸ hrun, ?_⟩, fun hb => hstate ▸ booked_of_reverse hrun hb,
      hsent.reverseNat⟩
    rw [hsent.outputs, sentBack, returned, hrole]
    rfl

theorem handleServerIngress_returns [Engine E I]
    (hb : Booked c sessions transactions next flow.context.state)
    (hrole : flow.context.role = .server)
    (hw : locator.flowWorkerId = flow.context.workerId) (ioOwner : IoOwnerKey) (epoch : UInt64) :
    Act.Triple (fun f => f = flow) (handleServerIngress ioOwner packet (some locator) epoch r)
      (fun _ => HandledAsReturn locator packet r flow) (fun _ => False) :=
  (handleServerIngress_reverses hb hrole hw ioOwner epoch).weaken (fun _ h => h)
    (fun _ _ h => h.handledAsReturn hb) fun _ h => h

theorem isDnsLocalResolverCandidate_run (classifier : DnsLocalResponseClassifier) (flow : Flow E) :
    (isDnsLocalResolverCandidate packet classifier).run flow =
      (.ok ((packetFlow packet).any (fromLocalResolver classifier)), flow) := by
  rw [isDnsLocalResolverCandidate, Act.bind_of_ok (flowOf_run packet flow), Act.run_pure]
  rfl

theorem packetFlow_of_prepared {p : Bytes} {returnFlow : FlowKey}
    (hp : prepareForwardedPacket packet = .ok p) (hflow : parseFlowKey p = .ok returnFlow) :
    packetFlow packet = some returnFlow := by
  obtain ⟨l, hc, -⟩ := carries_of_prepare hp hflow
  rw [packetFlow, parseFlowKey_eq_ok.mpr ⟨l, hc⟩]

/-- The transaction that a response with the right locator completes is the one it names. -/
theorem token_of_matches {f : Flow E} (hb : Booked c sessions transactions next f.context.state)
    (hmatches : (packetFlow packet).any
      (fun returnFlow => f.context.state.dnsReverseMatches returnFlow locator))
    {p payload : Bytes} {key : DnsFlowTransactionKey} {transaction : DnsFlowTransaction}
    (hm : Matched f.context.state packet p payload key transaction) :
    transaction.token = locator.sessionId := by
  have hreverse := (hb.leased.reverse transaction.binding.translated.reverse key).mpr
    ⟨transaction, hm.held, rfl⟩
  rw [packetFlow_of_prepared hm.prepared hm.flow, Option.any_some,
    FlowWorkerState.dnsReverseMatches, hreverse, Option.bind_some, hm.held, Option.any_some,
    Bool.and_eq_true, decide_eq_true_eq, decide_eq_true_eq] at hmatches
  exact hmatches.2

theorem Responds.handledAsReturn {f : Flow E} (h : Responds packet r flow f)
    (hb : Booked c sessions transactions next flow.context.state)
    (hmatches : (packetFlow packet).any
      (fun returnFlow => flow.context.state.dnsReverseMatches returnFlow locator)) :
    HandledAsReturn locator packet r flow f := by
  obtain ⟨result, hrun, hsent⟩ := h.ran
  have hbooked := FlowWorkerState.handleDnsResponse_booked packet (r.natNow 0) flow.context.state hb
  rw [hrun] at hbooked
  rcases result with (e | _) | _ | response
  · exact ⟨.of_booked hb hbooked (fun _ _ h => h) h.entries, .inl (hsent.trans (List.append_nil _))⟩
  · exact hbooked.elim
  · exact ⟨.of_booked hb hbooked (fun _ _ h => h) h.entries, .inl (hsent.trans (List.append_nil _))⟩
  · obtain ⟨-, -, ha⟩ := hbooked
    have hends := FlowWorkerState.handleDnsResponse_spec hb.leased packet (r.natNow 0)
      flow.context.state (.refl _)
    rw [hrun] at hends
    obtain ⟨p, payload, key, transaction, hm, -, hanswers⟩ := hends
    have htoken := token_of_matches hb hmatches hm
    refine ⟨.of_booked hb ha (fun id binding hid => ?_) h.entries,
      .inr (.transaction response key transaction hm.held htoken hrun
        (hanswers.transactionId.trans htoken) hsent)⟩
    rw [Function.update_apply] at hid
    split_ifs at hid
    exact hid

/-- A response of the local resolver is tried on the transaction of its tuple, when the
locator names it, or else on a session. -/
theorem handleDnsReturn_tries (hb : Booked c sessions transactions next flow.context.state)
    (hrole : flow.context.role = .client) (hlocal : flow.LocalResponse packet) :
    Act.Triple (fun f => f = flow) (handleDnsReturn packet (some locator) r)
      (fun done f => done = true ∧
        if (packetFlow packet).any
          (fun returnFlow => flow.context.state.dnsReverseMatches returnFlow locator)
        then Responds packet r flow f else Reverses packet locator none r flow f)
      (fun _ => False) := by
  obtain ⟨-, classifier, hclassifier, hany⟩ := hlocal
  refine .get fun f hf => ?_
  subst hf
  simp only [hclassifier]
  refine .bind (Q := fun candidate g => candidate = true ∧ g = f) ?_ fun candidate => ?_
  · rintro _ rfl
    rw [isDnsLocalResolverCandidate_run]
    exact ⟨hany, rfl⟩
  rintro _ ⟨rfl, rfl⟩
  rename_i f
  rw [if_pos rfl, handleDnsCandidate, Act.bind_of_ok (flowOf_run packet f),
    Act.bind_of_ok (Act.run_get f)]
  split_ifs with hmatches
  · refine Act.Triple.bind (onState_from (FlowWorkerState.handleDnsResponse_booked packet
      (r.natNow 0)) hb) (fun result => ?_) f rfl
    rcases result with e | _ | response
    · rintro _ ⟨state, rfl, hrun, -⟩
      exact ⟨rfl, ⟨_, hrun, (List.append_nil _).symm⟩, fun _ _ hk => hk⟩
    · rintro _ ⟨state, rfl, hrun, -⟩
      exact ⟨rfl, ⟨_, hrun, (List.append_nil _).symm⟩, fun _ _ hk => hk⟩
    · rintro _ ⟨state, rfl, hrun, -⟩
      exact ⟨rfl, ⟨_, hrun, rfl⟩, fun _ _ hk => ReverseNatDirectory.get_of_retire hk⟩
  · refine Act.Triple.bind (onState_reverses hb none) (fun result => ?_) f rfl
    rcases result with e | _ | restored
    · rintro _ ⟨state, rfl, hrun⟩
      exact ⟨rfl, ⟨_, hrun, (List.append_nil _).symm⟩, booked_of_reverse hrun, rfl⟩
    · rintro _ ⟨state, rfl, hrun⟩
      exact ⟨rfl, ⟨_, hrun, (List.append_nil _).symm⟩, booked_of_reverse hrun, rfl⟩
    · rintro _ ⟨state, rfl, hrun⟩
      refine ⟨rfl, ⟨.ok (some restored), hrun, ?_⟩, booked_of_reverse hrun, rfl⟩
      rw [sentBack, returned, hrole]
      rfl

/-- A response of the local resolver with a locator is restored or dropped. -/
theorem handleDnsReturn_returns (hb : Booked c sessions transactions next flow.context.state)
    (hrole : flow.context.role = .client) (hlocal : flow.LocalResponse packet) :
    Act.Triple (fun f => f = flow) (handleDnsReturn packet (some locator) r)
      (fun done f => done = true ∧ HandledAsReturn locator packet r flow f) (fun _ => False) := by
  refine (handleDnsReturn_tries hb hrole hlocal).weaken (fun _ h => h) (fun done f hf => ?_)
    fun _ h => h
  obtain ⟨hdone, htries⟩ := hf
  split_ifs at htries with hmatches
  · exact ⟨hdone, htries.handledAsReturn hb hmatches⟩
  · exact ⟨hdone, htries.handledAsReturn hb⟩

end Returns

section Forwards

variable {c : Scope} {sessions transactions : SessionId → Option NatBinding}
  {next : UInt64} {flow : Flow E} {packet : Bytes} {locator : SessionLocator} {r : Readings I}

/-- A packet that is not for the listener is left to the session side, unless it cannot be
forwarded at all. -/
theorem handleDnsQueryAt_other {config : DnsFlowConfig}
    (hother : ∀ f, packetFlow packet = some f → f.destination ≠ config.listen.ip)
    (ioOwner : IoOwnerKey) (now natNow : Instant) (state : FlowWorkerState) :
    let run := (FlowWorkerState.handleDnsQueryAt ioOwner packet config now natNow).run state
    run = (fail (.dns .notDnsQuery), state) ∨
      ∃ e, run = (fail (.packet e), state) ∧ ∀ f, ¬ Forwardable packet f := by
  rw [FlowWorkerState.handleDnsQueryAt]
  rcases hp : prepareForwardedPacket packet with (e | _) | p
  · refine .inr ⟨e, rfl, fun f hf => ?_⟩
    obtain ⟨_, hok, -⟩ := forwardable_iff.mp hf
    cases hp.symm.trans hok
  · exact absurd hp (prepareForwardedPacket_ne_panic packet)
  rw [Act.lift_bind_run rfl]
  rcases hflow : parseFlowKey p with (e | _) | f
  · refine .inr ⟨e, rfl, fun f hf => ?_⟩
    obtain ⟨_, hok, hok'⟩ := forwardable_iff.mp hf
    cases hp.symm.trans hok
    cases hflow.symm.trans hok'
  · exact absurd hflow (parseFlowKey_ne_panic p)
  · rw [Act.lift_bind_run rfl,
      if_pos (.inr (.inl (hother f (packetFlow_of_prepared hp hflow))))]
    exact .inl rfl

theorem handleDnsIngress_other [Engine E I] (config : DnsFlowConfig)
    (hother : ∀ f, packetFlow packet = some f → f.destination ≠ config.listen.ip)
    (ioOwner : IoOwnerKey) (epoch : UInt64) (flow : Flow E) :
    ∃ done, (handleDnsIngress ioOwner packet config epoch r).run flow = (.ok done, flow) ∧
      (done = true → ∀ f, ¬ Forwardable packet f) := by
  rcases handleDnsQueryAt_other hother ioOwner (r.now 1) (r.natNow 1) flow.context.state with
    hrun | ⟨e, hrun, hno⟩
  · refine ⟨false, ?_, fun h => by cases h⟩
    simp only [handleDnsIngress, Act.run_bind, onState, Act.attempt, Act.zoom, hrun, mapErr, fail]
    rfl
  · refine ⟨true, ?_, fun _ => hno⟩
    simp only [handleDnsIngress, Act.run_bind, onState, Act.attempt, Act.zoom, hrun, mapErr, fail]
    rfl

section Sessions

variable [Engine E I] {ioOwner : IoOwnerKey}

omit [Engine E I] in
/-- Only a key somebody else has keeps a session from being published. -/
theorem publishSession_unlisted {id : SessionId} {binding : NatBinding}
    (hb : Booked c.toSite sessions transactions next flow.context.state)
    (hid : sessions id = some binding) (site : ℕ) :
    Act.Triple (fun f => f = flow) (publishSession id site r)
      (fun published f => f.outputs = flow.outputs ∧
        (published = true → f.context.state = flow.context.state) ∧ (published = false →
        f.context.state.sessions.nextSessionId = next ∧ ∃ other,
          flow.reverseNat.entries.get binding.returnKey = some other ∧
            other ≠ ⟨flow.context.workerId, id⟩))
      (fun _ => False) := by
  obtain ⟨session, hs, rfl⟩ := Option.map_eq_some_iff.mp ((hb.holding.bindings id).trans hid)
  refine .get fun f hf => ?_
  subst hf
  simp only [show f.context.state.session id = some session from hs]
  refine .bind (publish_spec session.nat id f.context.workerId f) fun result => ?_
  rcases result with e | _
  · rintro _ ⟨rfl, other, hother, hne⟩
    refine Act.Triple.bind
      (onState_from (FlowWorkerState.removeSession_booked id (r.natNow site)) hb)
      (fun result => .pure ?_) _ rfl
    rintro _ ⟨state, rfl, hresult⟩
    refine ⟨rfl, fun h => absurd h Bool.false_ne_true, fun _ => ⟨?_, other, hother, hne⟩⟩
    rcases result with e | removed
    · exact hresult.2.2.holding.next
    · exact hresult.2.2.holding.next
  · rintro _ ⟨directory, -, rfl⟩
    exact ⟨rfl, fun _ => rfl, fun h => by cases h⟩

omit [Engine E I] in
theorem retireSession_outputs (hb : Booked c.toSite sessions transactions next flow.context.state)
    (id : SessionId) (site : ℕ) :
    Act.Triple (fun f => f = flow) (retireSession id site r)
      (fun _ f => f.outputs = flow.outputs) (fun _ => False) := by
  refine .bind (onState_from (FlowWorkerState.removeSession_booked id (r.natNow site)) hb)
    fun result => ?_
  rcases result with e | session
  · rintro _ ⟨state, rfl, -⟩
    rfl
  · rintro _ ⟨state, rfl, -⟩
    rfl

/-- How a packet is left by the session side: not taken in, or sent into the tunnel, or
dropped with the session that was opened for it. -/
inductive ForwardAttempted (c : Scope) (sessions transactions : SessionId → Option NatBinding)
    (next : UInt64) (takes : Prop) (flow f : Flow E) : Prop where
  | refused {state : FlowWorkerState} (refused : ¬ takes) (same : f = flow.withState state)
      (booked : Booked c.toSite sessions transactions next state)
  | sent {sent : Bytes} (taken : takes) (outputs : f.outputs = flow.outputs ++ [.inner sent])
  | unpublished (taken : takes) (opened : f.context.state.sessions.nextSessionId ≠
      flow.context.state.sessions.nextSessionId)

theorem handleForward_attempted (h : Tracked c sessions transactions next flow) (epoch : UInt64) :
    Act.Triple (fun f => f = flow) (handleForward ioOwner packet epoch r)
      (fun _ => ForwardAttempted c sessions transactions next
        (flow.TakesIn ioOwner packet (r.natNow 3)) flow)
      (fun _ => False) := by
  refine .get fun f hf => ?_
  subst hf
  refine .ite (fun hauth => .pure ?_) fun hauth => ?_
  · rintro _ rfl
    exact .refused (fun ht => Bool.false_ne_true (hauth.symm.trans ht.1)) rfl h.state
  refine .bind (onState_from (FlowWorkerState.forwardInner_decides h.state ioOwner packet
    f.context.quicFlow _ (r.now 3) (r.natNow 3)) rfl) fun result => ?_
  rcases result with e | handled
  · refine .pure ?_
    rintro _ ⟨state, rfl, -, hno, ha⟩
    exact .refused (fun ht => hno ht.2) rfl ha
  rintro _ ⟨state, rfl, -, htakes, binding, next', henters, ha⟩
  have htaken : f.TakesIn ioOwner packet (r.natNow 3) := ⟨eq_true_of_ne_false hauth, htakes⟩
  refine Act.Triple.bind (publishSession_unlisted ha (Function.update_self _ _ _) 4)
    (fun published => ?_) _ rfl
  cases published with
  | false =>
    refine .pure ?_
    rintro g ⟨-, -, hg⟩
    obtain ⟨hnext, other, hother, hne⟩ := hg rfl
    refine .unpublished htaken ?_
    rw [hnext, h.state.holding.next]
    rcases henters with ⟨hheld, -⟩ | ⟨-, -, -, rfl⟩
    · cases (h.entries.listed handled.sessionId binding hheld).symm.trans hother
      exact absurd (congrArg (SessionLocator.mk · _) h.workerId.symm) hne
    · simp
  | true =>
    rintro g ⟨hout, hstate, -⟩
    refine Act.Triple.bind (sendOrQueueInner_sends handled.transmit.packet epoch 5)
      (fun outcome s hs => ?_) g rfl
    have hsent : s.outputs = f.outputs ++ [.inner handled.transmit.packet] := by
      rw [hs.outputs, hout]
      rfl
    have hbooked : Booked c.toSite (Function.update sessions handled.sessionId (some binding))
        transactions next' s.context.state := by
      rw [hs.state, hstate rfl]
      exact ha
    cases outcome with
    | sent => exact .sent htaken hsent
    | queued => exact .sent htaken hsent
    | dropped =>
      exact (retireSession_outputs hbooked handled.sessionId 6).weaken (fun _ h => h)
        (fun _ s' hs' => .sent htaken (hs'.trans hsent)) (fun _ h => h) s rfl

end Sessions

end Forwards

section Messages

variable [Engine E I] {c : Scope} {flow : Flow E} {packet : Bytes} {locator : SessionLocator}
  {r : Readings I}

omit [Engine E I] in
theorem handleDnsReturn_other (hdns : flow.context.dnsConfig.isSome)
    (hother : ¬ flow.LocalResponse packet) :
    (handleDnsReturn packet (some locator) r).run flow = (.ok false, flow) := by
  rw [handleDnsReturn, Act.bind_of_ok (Act.run_get flow)]
  cases hclassifier : flow.context.dnsLocalResponse with
  | none => rfl
  | some classifier =>
    have hnot : (packetFlow packet).any (fromLocalResolver classifier) = false :=
      Bool.eq_false_iff.mpr fun hany => hother ⟨hdns, classifier, hclassifier, hany⟩
    simp only
    rw [Act.bind_of_ok (isDnsLocalResolverCandidate_run classifier flow), hnot]
    rfl

omit [Engine E I] in
theorem ForwardAttempted.returns {sessions transactions : SessionId → Option NatBinding}
    {next : UInt64} {takes : Prop} {f : Flow E} (hrole : flow.context.role = .client)
    (hb : Booked c.toSite sessions transactions next flow.context.state)
    (h : ForwardAttempted c sessions transactions next takes flow f) :
    HandledAsReturn locator packet r flow f ↔ ¬ takes := by
  cases h with
  | refused refused same booked =>
    subst same
    exact ⟨fun _ => refused, fun _ => handledAsReturn_dropped hb booked rfl rfl⟩
  | sent taken outputs =>
    refine ⟨fun hreturn => ?_, fun h => absurd taken h⟩
    rcases hreturn.2 with hnone | ⟨_, _, _, -, -, -, hsent⟩ | ⟨_, _, _, -, -, -, -, hsent⟩
    · rw [outputs] at hnone
      simp at hnone
    · rw [outputs, returned, hrole] at hsent
      simp at hsent
    · rw [outputs] at hsent
      simp at hsent
  | unpublished taken opened =>
    exact ⟨fun hreturn => absurd hreturn.1.nextSessionId opened, fun h => absurd taken h⟩

/-- The packet is not addressed to the listener. -/
def NotForListener (flow : Flow E) (packet : Bytes) : Prop :=
  ∀ config f, flow.context.dnsConfig = some config → packetFlow packet = some f →
    f.destination ≠ config.listen.ip

/-- A client handles such a packet with a locator as a return packet exactly when it comes
from the local resolver, or when it does not take it in. -/
theorem handleClientIngress_returns (h : Following c flow) (hrole : flow.context.role = .client)
    (hother : flow.NotForListener packet) (ioOwner : IoOwnerKey) (epoch : UInt64) :
    Act.Triple (fun f => f = flow) (handleClientIngress ioOwner packet (some locator) epoch r)
      (fun _ f => HandledAsReturn locator packet r flow f ↔
        flow.LocalResponse packet ∨ ¬ flow.TakesIn ioOwner packet (r.natNow 3))
      (fun _ => False) := by
  obtain ⟨sessions, transactions, next, ht⟩ := h
  have hforward : ¬ flow.LocalResponse packet → Act.Triple (fun f => f = flow)
      (handleForward ioOwner packet epoch r) (fun _ f => HandledAsReturn locator packet r flow f ↔
        flow.LocalResponse packet ∨ ¬ flow.TakesIn ioOwner packet (r.natNow 3))
      (fun _ => False) := fun hlocal =>
    (handleForward_attempted ht epoch).weaken (fun _ h => h)
      (fun _ g hg => by rw [or_iff_right hlocal]; exact hg.returns hrole ht.state) fun _ h => h
  refine .get fun f hf => ?_
  subst hf
  cases hdns : f.context.dnsConfig with
  | none => exact hforward fun hlocal => by simp [LocalResponse, hdns] at hlocal
  | some config =>
    simp only
    by_cases hlocal : f.LocalResponse packet
    · refine .bind (handleDnsReturn_returns ht.state hrole hlocal) fun done => ?_
      rintro g ⟨rfl, hg⟩
      exact ⟨fun _ => .inl hlocal, fun _ => hg⟩
    · intro g hg
      subst hg
      obtain ⟨done, hrun, hdone⟩ := handleDnsIngress_other (r := r)
        { config with remoteAvailable := Engine.isAuthenticated g.context.engine }
        (fun f => hother config f hdns) ioOwner epoch g
      rw [Act.bind_of_ok (handleDnsReturn_other (by rw [hdns]; rfl) hlocal),
        if_neg Bool.false_ne_true, Act.bind_of_ok (Act.run_get g), Act.bind_of_ok hrun]
      cases done with
      | true =>
        refine ⟨fun _ => .inr ?_, fun _ => handledAsReturn_dropped ht.state ht.state rfl rfl⟩
        rintro ⟨-, -, f, hf, -⟩
        exact hdone rfl f hf
      | false => exact hforward hlocal g rfl

/-- What keeps a message with a locator from being more than a return packet. -/
def Guarded (flow : Flow E) (ioOwner : IoOwnerKey) (packet : Bytes) (natNow : Instant) : Prop :=
  flow.context.role = .server ∨ flow.LocalResponse packet ∨ ¬ flow.TakesIn ioOwner packet natNow

theorem handleFlowMessage_returns (h : Following c flow)
    (hw : locator.flowWorkerId = flow.context.workerId) (hother : flow.NotForListener packet)
    (ioOwner : IoOwnerKey) (epoch : UInt64) :
    Act.Triple (fun f => f = flow)
      (handleFlowMessage (.interceptIngress ioOwner packet (some locator)) epoch r)
      (fun _ f => HandledAsReturn locator packet r flow f ↔
        flow.Guarded ioOwner packet (r.natNow 3))
      (fun _ => False) := by
  refine .get fun f hf => ?_
  subst hf
  cases hrole : f.context.role with
  | client =>
    refine (handleClientIngress_returns h hrole hother ioOwner epoch).weaken (fun _ h => h)
      (fun _ g hg => ?_) fun _ h => h
    rw [Guarded, hrole, hg]
    simp
  | server =>
    obtain ⟨sessions, transactions, next, ht⟩ := h
    exact (handleServerIngress_returns ht.state hrole hw ioOwner epoch).weaken (fun _ h => h)
      (fun _ g hg => ⟨fun _ => .inl hrole, fun _ => hg⟩) fun _ h => h

end Messages

end Flow

namespace TwoPorts

/-- The process of `Scenario` with a second port. -/
def config : ApplianceConfig :=
  { Scenario.config with nat := ⟨some (dotted 192 0 2 1), none, 40000, 40001⟩ }

theorem startThread_isSome :
    (startThread config Scenario.placement (⟨true⟩ : ScriptedEngine) 0 0).toOption.isSome := by
  decide +kernel

def process : System ScriptedEngine config.flowWorkerCount := alone startThread_isSome

def first : Fin config.flowWorkerCount := ⟨0, by decide⟩

theorem process_started : process.Started config Scenario.placement := alone_started rfl _

/-- The interface that owns the listener. -/
def intercepts : List (InterceptConfig × InterfaceInfo) :=
  [(⟨⟨"eth1"⟩⟩, ⟨⟨"eth1"⟩, 3, 1, #v[2, 0, 0, 0, 0, 4], [.v4 (dotted 10 0 0 53)],
    some (dotted 10 0 0 53), none⟩)]

/-- The datagram that answers `Scenario.datagram`, sent from the intercept side. -/
def forged : Bytes :=
  [69, 0, 0, 28, 0, 1, 0, 0, 9, 17, 223, 191, 8, 8, 8, 8, 192, 0, 2, 1, 0, 53, 156, 64, 0, 8, 0, 0]

end TwoPorts

namespace System

open NewProxy.Flow

variable {E I : Type} [Engine E I] {config : ApplianceConfig}
  {system : System E config.flowWorkerCount}

/-- A message with a locator of the worker that receives it, other than a packet to the
listener, is handled as a return packet, restored or dropped, exactly when it is guarded: on a
server, from the local resolver, or where a client would not take the packet in as its own. -/
theorem return_packets_guarded {placement : Placement} (ha : config.accepted)
    (hstart : system.Started config placement)
    (steps : List (Fin config.flowWorkerCount × Flow.Step I)) (w : Fin config.flowWorkerCount)
    (ioOwner : IoOwnerKey) (packet : Bytes) (locator : SessionLocator)
    (hw : locator.flowWorkerId = w)
    (hother : ((system.after steps).flow w).NotForListener packet) (r : Readings I) :
    let flow := (system.after steps).flow w
    let ran := (Flow.Step.message (.interceptIngress ioOwner packet (some locator)) r).act.run flow
    ran.1 = .ok () ∧ (HandledAsReturn locator packet r flow ran.2 ↔
      flow.Guarded ioOwner packet (r.natNow 3)) := by
  intro flow ran
  obtain ⟨site, -, -, hfollowing⟩ := (kept_after ha hstart steps).workers w
  have hw' : locator.flowWorkerId = flow.context.workerId := by
    obtain ⟨_, _, _, ht⟩ := hfollowing
    exact hw.trans ht.workerId.symm
  obtain ⟨_, after, hrun, hafter⟩ := (handleFlowMessage_returns hfollowing hw' hother ioOwner
    flow.reconnectEpoch).returns (fun _ h => h) rfl
  have hran : ran = (.ok (), after) := (Act.bind_of_ok (Act.run_get flow)).trans hrun
  rw [hran]
  exact ⟨rfl, hafter⟩

/-- A packet that was looked up with success goes to an address of the SNAT range, never to
the listener. -/
theorem notForListener_of_lookup {placement : Placement} (ha : config.accepted)
    (hstart : system.Started config placement)
    (earlier steps : List (Fin config.flowWorkerCount × Flow.Step I))
    (w : Fin config.flowWorkerCount) {packet : Bytes} {returnFlow : FlowKey}
    {locator : SessionLocator} (hflow : packetFlow packet = some returnFlow)
    (hlookup : (system.after earlier).reverseNat.lookup returnFlow = some locator) :
    ((system.after steps).flow w).NotForListener packet := by
  intro dns f hdns hf hlisten
  cases hflow.symm.trans hf
  have haddress := (kept_after ha hstart earlier).addressed hlookup
  rw [ReverseNatKey.destination_fromReturnFlow, hlisten] at haddress
  obtain ⟨engine, epoch, hthread⟩ := hstart.threads w
  have hsetup := (setup_after system steps w).trans (startThread_setup hthread)
  have hlistens : some dns.listen = (dnsFlowConfig config).map DnsFlowConfig.listen :=
    (congrArg (Option.map DnsFlowConfig.listen) hdns).symm.trans (congrArg Setup.listen hsetup)
  exact listen_not_mem ha hlistens.symm haddress

/-- The only port of the worker is taken: the packet that answers its session, sent from the
intercept side, is dropped. -/
theorem return_packets_guarded_forged :
    let flow := (Scenario.process.after [(Scenario.first, Scenario.datagram)]).flow Scenario.first
    HandledAsReturn ⟨0, ⟨1⟩⟩ TwoPorts.forged (Scenario.readings none) flow
      ((Flow.Step.message (.interceptIngress ⟨3, 0⟩ TwoPorts.forged (some ⟨0, ⟨1⟩⟩))
        (Scenario.readings none)).act.run flow).2 := by
  intro flow
  have ha : Scenario.config.accepted := by decide +kernel
  have hflow : packetFlow TwoPorts.forged =
      some ⟨.v4 #v[8, 8, 8, 8], .v4 #v[192, 0, 2, 1], 53, 40000, .udp⟩ := by decide +kernel
  have hlookup :
      flow.reverseNat.lookup ⟨.v4 #v[8, 8, 8, 8], .v4 #v[192, 0, 2, 1], 53, 40000, .udp⟩ =
      some ⟨0, ⟨1⟩⟩ := by decide +kernel
  refine (return_packets_guarded ha Scenario.process_started
    [(Scenario.first, Scenario.datagram)] Scenario.first ⟨3, 0⟩ TwoPorts.forged ⟨0, ⟨1⟩⟩ rfl
    (notForListener_of_lookup ha Scenario.process_started [(Scenario.first, Scenario.datagram)] _ _
      hflow hlookup) (Scenario.readings none)).2.mpr (.inr (.inr ?_))
  rintro ⟨-, -, f, ⟨l, hc, -⟩, hadmits⟩
  rw [packetFlow, parseFlowKey_eq_ok.mpr ⟨l, hc⟩] at hflow
  cases hflow
  rcases hadmits with hknown | ⟨-, snat, hsnat, port, husable⟩
  · exact hknown (by decide +kernel)
  · obtain rfl : snat = .v4 #v[192, 0, 2, 1] := by
      refine Option.some_inj.mp (hsnat.symm.trans ?_)
      decide +kernel
    exact NatTable.findPort_none.mp (by decide +kernel) port husable

/-- The return tuple of a session, sent by a host of the intercept side with the locator the
directory has for it, opens a session of its own. -/
theorem forged_return_opens_session : ∃ (config : ApplianceConfig) (placement : Placement)
    (intercepts : List (InterceptConfig × InterfaceInfo)) (ifindex : Option UInt32)
    (system : System ScriptedEngine config.flowWorkerCount)
    (steps : List (Fin config.flowWorkerCount × Flow.Step (Option QuicEngineEvent)))
    (w : Fin config.flowWorkerCount) (ioOwner : IoOwnerKey) (packet : Bytes)
    (returnFlow : FlowKey) (locator : SessionLocator) (r : Readings (Option QuicEngineEvent)),
    config.accepted ∧ config.role = .client ∧
    validateDnsRuntimeAddresses config [] intercepts = .ok ifindex ∧
    system.Started config placement ∧ locator.flowWorkerId = w ∧
    let flow := (system.after steps).flow w
    let ran := (Flow.Step.message (.interceptIngress ioOwner packet (some locator)) r).act.run flow
    packetFlow packet = some returnFlow ∧ flow.reverseNat.lookup returnFlow = some locator ∧
      ¬ HandledAsReturn locator packet r flow ran.2 ∧
      ∃ id session, flow.context.state.session id = none ∧
        ran.2.context.state.session id = some session ∧ session.original = returnFlow := by
  refine ⟨TwoPorts.config, Scenario.placement, TwoPorts.intercepts, some 3, TwoPorts.process,
    [(TwoPorts.first, Scenario.datagram)], TwoPorts.first, ⟨3, 0⟩, TwoPorts.forged,
    ⟨.v4 #v[8, 8, 8, 8], .v4 #v[192, 0, 2, 1], 53, 40000, .udp⟩, ⟨0, ⟨1⟩⟩, Scenario.readings none,
    by decide +kernel, rfl, by decide +kernel, TwoPorts.process_started, rfl, ?_⟩
  intro flow ran
  have hfree : flow.context.state.session ⟨2⟩ = none := by decide +kernel
  have hopened : (ran.2.context.state.session ⟨2⟩).map Session.original =
      some ⟨.v4 #v[8, 8, 8, 8], .v4 #v[192, 0, 2, 1], 53, 40000, .udp⟩ := by decide +kernel
  obtain ⟨session, hsession, horiginal⟩ := Option.map_eq_some_iff.mp hopened
  refine ⟨by decide +kernel, by decide +kernel, fun hreturn => ?_, ⟨2⟩, session, hfree, hsession,
    horiginal⟩
  have hbefore := hreturn.1.sessions ⟨2⟩ (by rw [hsession]; rfl)
  rw [hfree] at hbefore
  cases hbefore

end System

end NewProxy
