import NewProxy.EngineRuns
import NewProxy.DirectorySystem
import NewProxy.FlowFrame

/-!
# How a client gets its connection back

A client connects again only when it takes a `Closed` event out of the queue of its
engine. As long as these attempts succeed, an engine without a connection has a `Closed`
event waiting; after one that failed it has neither, and nothing but a signal brings
the worker to another attempt.
-/
namespace NewProxy

open Quic QuicEngine

variable {hmac : Hmac}

/-- The endpoint accepts a connection, which that of a client never does. -/
def Quic.Answers.Accepts (answers : Answers) : Prop :=
  ∃ handle, answers.handled = some (handle, .newConnection)

namespace QuicEngine

variable {engine next : QuicEngine hmac}

section Attended

/-- There is a connection, or the worker will be told that there is none. -/
def Attended (engine : QuicEngine hmac) : Prop :=
  engine.connection.isSome ∨ .closed ∈ engine.events

theorem isSome_of_rel {R : ManagedConnection → ManagedConnection → Prop}
    {slot slot' : Option ManagedConnection} (h : Option.Rel R slot slot') :
    slot'.isSome = slot.isSome := by
  cases h <;> rfl

theorem Adds.mem {P : QuicEngineEvent → Prop} (h : Adds P engine next) {event : QuicEngineEvent}
    (he : event ∈ engine.events) : event ∈ next.events := by
  obtain ⟨added, heq, -⟩ := h
  rw [heq]
  exact List.mem_append_left _ he

theorem Attended.announces (h : engine.Attended) (ha : Announces engine next) : next.Attended :=
  h.imp (fun hc => (isSome_of_rel ha.connection).trans hc) ha.events.mem

theorem Attended.drive (h : engine.Attended) (input : DriveInput) (now : Instant) :
    (engine.drive input now).Attended := by
  let round : Round hmac := ⟨engine, input, now⟩
  have hs := round.settles_settled
  have hd := delivers_drive round
  obtain ⟨ids, ids', -, -, hevents⟩ := hs.events
  have hannounced : round.announced.connection.isSome = engine.connection.isSome :=
    isSome_of_rel round.announced_connection
  unfold Attended
  rw [hd.connection, hs.connection]
  rcases h with h | h
  · by_cases hnow : round.candidateDrive.authenticatedNow
    · rw [if_pos hnow, Option.isSome_or, hannounced, h]
      exact Or.inl rfl
    · rw [if_neg hnow]
      by_cases hlost : round.activeDrive.lost
      · right
        refine hd.events.mem ?_
        rw [hevents, verdict, if_neg hnow, if_pos hlost]
        simp
      · rw [if_neg hlost]
        exact Or.inl (hannounced.trans h)
  · right
    refine hd.events.mem ?_
    rw [hevents]
    exact List.mem_append_left _ (round.announces_announced.events.mem h)

theorem Attended.handleOuter (h : engine.Attended) (answers : Answers) (now : Instant)
    (packet : Bytes) : (engine.handleOuter answers now packet).Attended := by
  have hopened : (engine.openedBy answers now).Attended := by
    unfold openedBy
    split
    · split_ifs <;> exact h
    · exact h
  rw [handleOuter_eq]
  exact (hopened.announces (announces_receiveOuter answers now packet engine)).drive _ _

theorem Attended.sendInner (h : engine.Attended) (answers : Answers) (now : Instant)
    (packet : Bytes) : (engine.sendInner answers now packet).2.Attended := by
  have hemit := h.announces (announces_emitInner answers packet engine)
  unfold QuicEngine.sendInner
  generalize engine.emitInner answers packet = emitted at hemit ⊢
  obtain ⟨_ | _, emitted⟩ := emitted
  · exact hemit
  · exact hemit.drive answers.drive now

theorem attended_close (engine : QuicEngine hmac) : engine.close.Attended :=
  Or.inr (List.mem_append_right _ (List.mem_singleton_self _))

theorem Attended.resolve (h : engine.Attended) (published : Bool) :
    (engine.resolveCandidateReplacement published).Attended := by
  rcases resolve_cases published engine with ⟨-, heq⟩ |
    ⟨-, ⟨-, -, heq⟩ | ⟨-, managed, -, hcommits⟩ | ⟨-, heq⟩⟩
  · rw [heq]
    exact h
  · rw [heq]
    exact h
  · exact Or.inl (by rw [hcommits.connection]; rfl)
  · obtain ⟨hconnection, -, -, -, hevents⟩ :=
      dropCandidate_slots { engine with candidatePromotionPending := false }
    unfold Attended
    rw [heq, hconnection]
    exact h.imp id hevents.mem

/-- What a poll hands out and what it leaves. -/
theorem Attended.poll (h : engine.Attended) (answers : Answers) (now : Instant) :
    (engine.poll answers now).1 = some .closed ∨ (engine.poll answers now).2.Attended := by
  have hdrive := h.drive answers.drive now
  unfold QuicEngine.poll
  dsimp only
  cases he : (engine.drive answers.drive now).events with
  | nil => exact Or.inr hdrive
  | cons event rest =>
    unfold Attended at hdrive
    rw [he] at hdrive
    rcases hdrive with hc | hc
    · exact Or.inr (Or.inl hc)
    · rcases List.mem_cons.mp hc with rfl | hc
      · exact Or.inl rfl
      · exact Or.inr (Or.inr hc)

theorem isSome_of_drained (h : engine.Attended) {answers : Answers} {now : Instant}
    (hnone : (engine.poll answers now).1 = none) :
    (engine.poll answers now).2.connection.isSome := by
  rcases h.poll answers now with hclosed | hattended
  · rw [hnone] at hclosed
    cases hclosed
  · unfold QuicEngine.poll at hnone hattended ⊢
    dsimp only at hnone hattended ⊢
    cases he : (engine.drive answers.drive now).events with
    | cons event rest =>
      rw [he] at hnone
      cases hnone
    | nil =>
      rw [he] at hattended
      refine hattended.resolve_right ?_
      dsimp only
      rw [he]
      exact List.not_mem_nil

theorem attended_attemptEngine (sharedKey : Secret) (dcidLen workerId workerCount : ℕ)
    (handle : ConnectionHandle) (attempt : Attempt) :
    (attemptEngine sharedKey dcidLen workerId workerCount handle attempt :
      QuicEngine hmac).Attended :=
  Attended.drive (Attended.announces (Or.inl rfl) (announces_stageDcidsForHandle _ _ _)) _ _

theorem attended_clientForWorker {sharedKey : Secret} {dcidLen workerId workerCount : ℕ}
    {attempts : List Attempt}
    (h : clientForWorker sharedKey dcidLen workerId workerCount attempts = .ok engine) :
    engine.Attended := by
  have hloop : ∀ rounds attempts,
      connectLoop sharedKey dcidLen workerId workerCount rounds attempts = .ok engine →
        engine.Attended := by
    intro rounds
    induction rounds with
    | zero => exact fun attempts h => by cases attempts <;> cases h
    | succ rounds ih =>
      intro attempts h
      cases attempts with
      | nil => cases h
      | cons attempt rest =>
        unfold connectLoop at h
        cases hc : attempt.connected with
        | none =>
          rw [hc] at h
          cases h
        | some handle =>
          rw [hc] at h
          dsimp only at h
          split_ifs at h
          · cases h
            exact attended_attemptEngine _ _ _ _ _ _
          · exact ih rest h
  unfold clientForWorker at h
  split_ifs at h
  exact hloop 1024 attempts h

theorem attended_reconnectClient {answers : Answers}
    (h : (engine.reconnectClient answers).1.isOk) :
    (engine.reconnectClient answers).2.Attended := by
  unfold QuicEngine.reconnectClient at h ⊢
  cases hr : engine.clientReconnect with
  | none =>
    rw [hr] at h
    cases h
  | some reconnect =>
    rw [hr] at h
    dsimp only at h ⊢
    cases hc : (clientForWorker engine.sharedKey engine.dcidLen reconnect.workerId
        reconnect.workerCount answers.attempts : Except QuicEngineError (QuicEngine hmac)) with
    | error error =>
      rw [hc] at h
      cases h
    | ok connected => exact attended_clientForWorker hc

end Attended

section Stranded

/-- No connection, and nothing in the queue that would tell the worker. -/
structure Stranded (engine : QuicEngine hmac) : Prop where
  connection : engine.connection = none
  candidate : engine.candidate = none
  events : ∀ event ∈ engine.events, ∃ transmit, event = .transmit transmit

theorem Stranded.sendInner (h : engine.Stranded) (answers : Answers) (now : Instant)
    (packet : Bytes) : (engine.sendInner answers now packet).2 = engine := by
  have hauth : engine.isAuthenticated = false := by
    unfold QuicEngine.isAuthenticated
    rw [h.connection]
    rfl
  unfold QuicEngine.sendInner emitInner
  by_cases hp : packet = []
  · rw [if_pos hp]
  · rw [if_neg hp, if_pos hauth]

/-- Without a connection a round only takes up what the endpoint has to send. -/
theorem drive_of_none (hc : engine.connection = none) (hk : engine.candidate = none)
    (input : DriveInput) (now : Instant) :
    engine.drive input now = { pruneReassembly now engine with
      events := engine.events ++ input.transmits.map .transmit } := by
  cases engine
  cases hc
  cases hk
  rfl

theorem Stranded.drive (h : engine.Stranded) (input : DriveInput) (now : Instant) :
    (engine.drive input now).Stranded := by
  rw [drive_of_none h.connection h.candidate]
  refine ⟨h.connection, h.candidate, fun event he => ?_⟩
  rcases List.mem_append.mp he with he | he
  · exact h.events event he
  · obtain ⟨transmit, -, rfl⟩ := List.mem_map.mp he
    exact ⟨transmit, rfl⟩

theorem Stranded.handleOuter (h : engine.Stranded) {answers : Answers}
    (hanswers : ¬ answers.Accepts)
    (now : Instant) (packet : Bytes) : (engine.handleOuter answers now packet).Stranded := by
  have hupdate : ∀ handle f, engine.updateForHandle handle f = engine := by
    intro handle f
    cases engine
    cases h.connection
    cases h.candidate
    rfl
  have hstage : ∀ handle generated, engine.stageDcidsForHandle handle generated = engine := by
    intro handle generated
    cases engine
    cases h.connection
    cases h.candidate
    rfl
  rw [handleOuter_eq]
  refine Stranded.drive ?_ _ _
  unfold receiveOuter openedBy
  rcases hhandled : answers.handled with _ | ⟨handle, _ | _⟩
  · exact h
  · exact absurd ⟨handle, hhandled⟩ hanswers
  · dsimp only
    split
    · rw [hupdate, hstage]
      exact h
    · rw [hstage]
      exact h

theorem Stranded.poll (h : engine.Stranded) (answers : Answers) (now : Instant) :
    (engine.poll answers now).2.Stranded ∧
      ∀ event, (engine.poll answers now).1 = some event →
      ∃ transmit, event = .transmit transmit := by
  have hd := h.drive answers.drive now
  unfold QuicEngine.poll
  dsimp only
  cases he : (engine.drive answers.drive now).events with
  | nil => exact ⟨hd, nofun⟩
  | cons event rest =>
    refine ⟨⟨hd.connection, hd.candidate, fun other ho => ?_⟩, fun other ho => ?_⟩
    · exact hd.events other (he ▸ List.mem_cons_of_mem _ ho)
    · cases ho
      exact hd.events event (he ▸ List.mem_cons_self)

end Stranded

end QuicEngine

namespace Flow

variable {flow : Flow (QuicEngine hmac)}

section Attended

def Attended (flow : Flow (QuicEngine hmac)) : Prop := flow.context.engine.Attended

theorem attended_events : EventFrame (Attended : Flow (QuicEngine hmac) → Prop) where
  state _ _ h := h
  sendInner _ input now packet h := QuicEngine.Attended.sendInner h input now packet
  reverseNat _ _ h := h
  outputs _ _ _ h := h
  pendingInner _ _ h := h
  remoteDomains _ _ _ _ h := h
  stage _ _ h := h
  publish _ _ h := h
  publishBatch _ _ h := h
  retire _ _ h := h
  closeEngine _ _ _ _ := attended_close _
  resolve _ _ _ published h := QuicEngine.Attended.resolve h published

/-- A client with a tunnel queue, which every client has that was started. -/
def Client (flow : Flow (QuicEngine hmac)) : Prop :=
  flow.context.role = .client ∧ flow.context.tunnelQueueCount ≠ 0

theorem quicFlow_new_ok (id : QuicFlowId) (workerId : ℕ) {queues : UInt32} (h : queues ≠ 0) :
    ∃ quicFlow, QuicFlow.new id workerId (be64Bytes id.value) queues = .ok quicFlow := by
  refine ⟨_, Outcome.bind_unit_eq_ok.mpr ⟨Outcome.ensure_eq_ok.mpr ?_,
    Outcome.bind_unit_eq_ok.mpr ⟨Outcome.ensure_eq_ok.mpr h, rfl⟩⟩⟩
  simp [be64Bytes]

/-- A client that takes a `Closed` event out of the queue connects again. -/
theorem attended_handleClosed (hclient : flow.Client) {epoch : UInt64} {r : Readings Answers}
    (hexit : r.exitRequested = false)
    (hconnects : (flow.context.engine.reconnectClient (r.engine 1)).1.isOk) {done : Unit}
    {next : Flow (QuicEngine hmac)} (hrun : (handleClosed epoch r).run flow = (.ok done, next)) :
    next.Attended := by
  obtain ⟨_, pending, hpending, hrun⟩ := Act.bind_eq_ok.mp hrun
  obtain ⟨_, aborted, habort, hrun⟩ := Act.bind_eq_ok.mp hrun
  obtain ⟨haborted, hengine⟩ : aborted.Client ∧ aborted.context.engine = flow.context.engine := by
    have hkeeps := abortRemote_frame (P := fun f => f.Client ∧
      f.context.engine = flow.context.engine) (fun _ _ h => h) r pending
    rw [habort] at hkeeps
    cases hpending
    exact hkeeps ⟨hclient, rfl⟩
  rw [Act.bind_of_ok (Act.run_get aborted), Act.bind_of_ok (Act.run_modify _ _),
    if_neg (by simp [hexit])] at hrun
  obtain ⟨quicFlow, hnew⟩ := quicFlow_new_ok (⟨aborted.context.quicFlow.id.value +
    UInt64.ofNat aborted.context.flowWorkerCount⟩ : QuicFlowId) aborted.context.workerId haborted.2
  dsimp only at hrun
  rw [hnew] at hrun
  dsimp only at hrun
  obtain ⟨_, renewed, hrenewed, hrun⟩ := Act.bind_eq_ok.mp hrun
  obtain ⟨_, rebound, hrebound, hrun⟩ := Act.bind_eq_ok.mp hrun
  rw [if_pos haborted.1] at hrun
  obtain ⟨connected, engaged, hengaged, hrun⟩ := Act.bind_eq_ok.mp hrun
  cases hrenewed
  have hsame : rebound.context.engine = flow.context.engine := by
    refine Act.Stable.of_run (onState_frame (P := fun f => f.context.engine = flow.context.engine)
      (fun _ _ h => h) _) ?_ hrebound
    exact hengine
  cases hengaged
  cases hrun
  rw [← hsame] at hconnects
  exact attended_reconnectClient hconnects

/-- The exit flag is not set when the step looks at it. -/
def Step.Running : Step Answers → Prop
  | .poll r => r.exitRequested = false
  | .exit _ => False
  | _ => True

/-- The exit flag is not set, and a worker that hears that its connection is gone gets a new
one. -/
def Step.Succeeds (engine : QuicEngine hmac) : Step Answers → Prop
  | .poll r => r.exitRequested = false ∧ let polled := engine.poll (r.engine 0) (r.now 0)
    polled.1 = some .closed → (polled.2.reconnectClient (r.engine 1)).1.isOk
  | .exit _ => False
  | _ => True

theorem attended_pollEngine (hclient : flow.Client) (h : flow.Attended) {epoch : UInt64}
    {r : Readings Answers} (hsucceeds : (Step.poll r).Succeeds flow.context.engine) {done : Bool}
    {next : Flow (QuicEngine hmac)} (hrun : (pollEngine epoch r).run flow = (.ok done, next)) :
    next.Attended := by
  obtain ⟨event, polled, hpolled, hrun⟩ := Act.bind_eq_ok.mp hrun
  cases hpolled
  let left := flow.withEngine (Engine.poll (r.engine 0) (r.now 0) flow.context.engine).2
  have hpoll : (Engine.poll (r.engine 0) (r.now 0) flow.context.engine).1 = some .closed ∨
      left.Attended := QuicEngine.Attended.poll h (r.engine 0) (r.now 0)
  cases hevent : (Engine.poll (r.engine 0) (r.now 0) flow.context.engine).1 with
  | none =>
    rw [hevent] at hpoll hrun
    cases hrun
    exact hpoll.resolve_left nofun
  | some event =>
    rw [hevent] at hpoll hrun
    obtain ⟨_, handled, hhandled, hrun⟩ := Act.bind_eq_ok.mp hrun
    cases hrun
    by_cases hclosed : event = .closed
    · subst hclosed
      exact attended_handleClosed (show left.Client from hclient) hsucceeds.1 (hsucceeds.2 hevent)
        hhandled
    · have hleft := hpoll.resolve_left fun h => hclosed (Option.some.inj h)
      exact (handleEngineEvent_keeps attended_events hclosed epoch r).of_run hleft hhandled

theorem attended_step (hclient : flow.Client) (h : flow.Attended) {step : Step Answers}
    (hsucceeds : step.Succeeds flow.context.engine) {done : Unit} {next : Flow (QuicEngine hmac)}
    (hrun : step.act.run flow = (.ok done, next)) : next.Attended := by
  have hhandlers : HandlerFrame (Attended : Flow (QuicEngine hmac) → Prop) :=
    attended_events.toHandlerFrame
  cases step with
  | message message r =>
    refine Act.Stable.of_run (.bind .get fun _ => handleFlowMessage_frame hhandlers _ _ _ ?_) h hrun
    exact fun flow _ _ packet h => QuicEngine.Attended.handleOuter h _ _ packet
  | poll r =>
    rw [Step.act, Act.bind_of_ok (Act.run_get flow)] at hrun
    obtain ⟨_, polled, hpolled, hrun⟩ := Act.bind_eq_ok.mp hrun
    cases hrun
    exact attended_pollEngine hclient h hsucceeds hpolled
  | expireDnsTransactions r => exact (expireDnsTransactions_frame hhandlers r).of_run h hrun
  | expireIdleSessions r => exact (expireIdleSessions_frame hhandlers r).of_run h hrun
  | reconnect requestedEpoch r =>
    have hrenew : Act.Stable Attended
        (renewEpoch requestedEpoch r : FlowM (QuicEngine hmac) Unit) :=
      .bind .get fun _ => .ite (.bind (.modify fun _ h => h) fun _ flow _ =>
        attended_close flow.context.engine) (.pure _)
    exact hrenew.of_run h hrun
  | exit r => exact hsucceeds.elim

end Attended

section Stranded

/-- The step of a worker that is left to itself: no signal, no exit, and an endpoint that
accepts no connection. -/
def Step.Unprompted : Step Answers → Prop
  | .message _ r => ¬ (r.engine 0).Accepts
  | .poll _ | .expireDnsTransactions _ | .expireIdleSessions _ => True
  | .reconnect _ _ | .exit _ => False

/-- The step has tried to connect. -/
def Tries (flow : Flow (QuicEngine hmac)) : Prop := ∃ connected, .reconnect connected ∈ flow.outputs

/-- The engine is stranded and the step has not tried to connect. -/
def Stranded (flow : Flow (QuicEngine hmac)) : Prop :=
  flow.context.engine.Stranded ∧ ¬ flow.Tries

theorem stranded_handlers : HandlerFrame (Stranded : Flow (QuicEngine hmac) → Prop) where
  state _ _ h := h
  sendInner flow input now packet h := ⟨(h.1.sendInner input now packet).symm ▸ h.1, h.2⟩
  reverseNat _ _ h := h
  outputs flow added hadded h := by
    refine ⟨h.1, fun ⟨connected, hc⟩ => ?_⟩
    rcases List.mem_append.mp hc with hc | hc
    · exact h.2 ⟨connected, hc⟩
    · exact hadded _ hc connected rfl
  pendingInner _ _ h := h
  remoteDomains _ _ _ _ h := h

theorem stranded_step {step : Step Answers} (hstep : step.Unprompted) :
    Act.Stable (Stranded : Flow (QuicEngine hmac) → Prop) step.act := by
  cases step with
  | message message r =>
    refine .bind .get fun _ => handleFlowMessage_frame stranded_handlers _ _ _ ?_
    exact fun flow _ _ packet h => ⟨h.1.handleOuter hstep _ packet, h.2⟩
  | poll r =>
    refine .bind .get fun flow => .bind (fun flow h => ?_) fun _ => .pure _
    obtain ⟨hpoll, hevent⟩ := h.1.poll (r.engine 0) (r.now 0)
    have hleft : Stranded (flow.withEngine
      (Engine.poll (r.engine 0) (r.now 0) flow.context.engine).2) := ⟨hpoll, h.2⟩
    rw [pollEngine, Act.bind_of_ok rfl]
    cases he : (Engine.poll (r.engine 0) (r.now 0) flow.context.engine).1 with
    | none => exact hleft
    | some event =>
      obtain ⟨transmit, rfl⟩ := hevent event he
      refine Act.Stable.bind (.modify fun flow h => ?_) (fun _ => .pure _) _ hleft
      refine stranded_handlers.outputs flow _ (fun out hout => ?_) h
      obtain ⟨packet, -, rfl⟩ := List.mem_map.mp hout
      exact nofun
  | expireDnsTransactions r => exact expireDnsTransactions_frame stranded_handlers r
  | expireIdleSessions r => exact expireIdleSessions_frame stranded_handlers r
  | reconnect requestedEpoch r => exact hstep.elim
  | exit r => exact hstep.elim

end Stranded

end Flow

namespace System

section Recovery

variable {n : ℕ} {w : Fin n}

/-- One step of one worker has tried to connect. -/
def Attempts (system : System (QuicEngine hmac) n) (s : Fin n × Flow.Step Answers) : Prop :=
  (s.2.act.run (system.flow s.1)).2.Tries

/-- The process goes on without a signal for the worker, which polls its engine again and
again. -/
structure LeftAlone (w : Fin n) (steps : ℕ → Fin n × Flow.Step Answers) : Prop where
  unprompted : ∀ k, (steps k).1 = w → (steps k).2.Unprompted ∧ (steps k).2.Running
  polls : ∀ k, ∃ j ≥ k, ∃ r, steps j = (w, .poll r)

/-- The worker has a connection, or will try to connect without being told to. -/
def Recovers (system : System (QuicEngine hmac) n) (w : Fin n) : Prop :=
  (system.threads w).context.engine.connection.isSome ∨
    ∀ steps : ℕ → Fin n × Flow.Step Answers, LeftAlone w steps →
      ∃ k, (steps k).1 = w ∧ (system.after ((List.range k).map steps)).Attempts (steps k)

theorem stranded_after {system : System (QuicEngine hmac) n}
    (h : (system.threads w).context.engine.Stranded) {steps : List (Fin n × Flow.Step Answers)}
    (hsteps : ∀ s ∈ steps, s.1 = w → s.2.Unprompted) :
    ((system.after steps).threads w).context.engine.Stranded := by
  induction steps generalizing system with
  | nil => exact h
  | cons s rest ih =>
    refine ih ?_ fun s hs => hsteps s (List.mem_cons_of_mem _ hs)
    by_cases hw : s.1 = w
    · have hstep := hsteps s List.mem_cons_self hw
      subst hw
      have hend := Flow.stranded_step hstep (system.flow s.1) ⟨h, nofun⟩
      simp only [step, Function.update_self]
      exact hend.1
    · simp only [step, Function.update_of_ne (Ne.symm hw)]
      exact h

/-- Nothing but a signal gets a stranded worker to another attempt, and it has no
connection until then. -/
theorem stranded_of_leftAlone {system : System (QuicEngine hmac) n}
    (h : (system.threads w).context.engine.Stranded) {steps : ℕ → Fin n × Flow.Step Answers}
    (hsteps : LeftAlone w steps) (k : ℕ) :
    ((system.after ((List.range k).map steps)).threads w).context.engine.Stranded ∧
      ((steps k).1 = w → ¬ (system.after ((List.range k).map steps)).Attempts (steps k)) := by
  have hstranded :
      ((system.after ((List.range k).map steps)).threads w).context.engine.Stranded := by
    refine stranded_after h fun s hs hw => ?_
    obtain ⟨j, -, rfl⟩ := List.mem_map.mp hs
    exact (hsteps.unprompted j hw).1
  refine ⟨hstranded, fun hw => ?_⟩
  have hstep := (hsteps.unprompted k hw).1
  subst hw
  exact (Flow.stranded_step hstep ((system.after ((List.range k).map steps)).flow (steps k).1)
    ⟨hstranded, nofun⟩).2

theorem not_recovers_of_stranded {system : System (QuicEngine hmac) n} {r : Readings Answers}
    (hr : r.exitRequested = false) (h : (system.threads w).context.engine.Stranded) :
    ¬ system.Recovers w := by
  rintro (hsome | hattempts)
  · rw [h.connection] at hsome
    cases hsome
  · have halone : LeftAlone w fun _ => (w, .poll r) :=
      ⟨fun _ _ => ⟨trivial, hr⟩, fun k => ⟨k, le_refl k, r, rfl⟩⟩
    obtain ⟨k, hw, hattempt⟩ := hattempts _ halone
    exact (stranded_of_leftAlone h halone k).2 hw hattempt

end Recovery

section Clients

variable {config : ApplianceConfig} {placement : Placement}
  {system : System (QuicEngine hmac) config.flowWorkerCount}

theorem Kept.returns (h : system.Kept config fun _ => False) (w : Fin config.flowWorkerCount)
    (step : Flow.Step Answers) : ∃ done next, step.act.run (system.flow w) = (.ok done, next) := by
  obtain ⟨site, -, -, sessions, transactions, next, ht⟩ := h.workers w
  obtain ⟨done, next, hrun, -⟩ :=
    (Flow.step_spec step).returns (fun _ h => h) ⟨ht, fun h => h.elim⟩
  exact ⟨done, next, hrun⟩

/-- The worker is a client whose engine is attended. -/
structure Served (config : ApplianceConfig) (w : Fin config.flowWorkerCount)
    (system : System (QuicEngine hmac) config.flowWorkerCount) : Prop where
  kept : system.Kept config fun _ => False
  client : (system.flow w).Client
  attended : (system.flow w).Attended

theorem client_of_setup {flow flow' : Flow (QuicEngine hmac)}
    (h : flow'.context.setup = flow.context.setup) (hclient : flow.Client) : flow'.Client :=
  ⟨(congrArg Setup.role h).trans hclient.1,
    fun hzero => hclient.2 ((congrArg Setup.tunnelQueueCount h).symm.trans hzero)⟩

theorem Served.step {w : Fin config.flowWorkerCount} (h : system.Served config w)
    {s : Fin config.flowWorkerCount × Flow.Step Answers}
    (hs : s.1 = w → s.2.Succeeds (system.threads w).context.engine) :
    (system.step s.1 s.2).Served config w := by
  have hsetup : ((system.step s.1 s.2).flow w).context.setup = (system.flow w).context.setup :=
    system.setup_after [s] w
  refine ⟨h.kept.step s.1 s.2 fun h => h.elim, client_of_setup hsetup h.client, ?_⟩
  by_cases hw : s.1 = w
  · subst hw
    obtain ⟨done, next, hrun⟩ := h.kept.returns s.1 s.2
    have hend := Flow.attended_step h.client h.attended (hs rfl) hrun
    have hnext : (s.2.act.run (system.flow s.1)).2 = next := congrArg Prod.snd hrun
    rw [← hnext] at hend
    simp only [System.step, flow, Function.update_self]
    exact hend
  · simp only [System.step, flow, Function.update_of_ne (Ne.symm hw)]
    exact h.attended

theorem startThread_engine {engine : QuicEngine hmac} {epoch : UInt64} {workerId : ℕ}
    {thread : Thread (QuicEngine hmac)}
    (h : startThread config placement engine epoch workerId = .ok thread) :
    thread.context.engine = engine := by
  obtain ⟨ports, -, h⟩ := Outcome.bind_eq_ok.mp h
  obtain ⟨⟨first, last⟩, -, h⟩ := Outcome.bind_eq_ok.mp h
  obtain ⟨state, -, h⟩ := Outcome.bind_eq_ok.mp h
  obtain ⟨quicFlow, -, h⟩ := Outcome.bind_eq_ok.mp h
  rw [← Except.ok.inj h]

theorem served_of_started (ha : config.accepted) (hrole : config.role = .client)
    (hstart : system.Started config placement)
    {w : Fin config.flowWorkerCount} (hengine : (system.flow w).Attended) :
    system.Served config w := by
  refine ⟨kept_of_started ha hstart, ⟨?_, ?_⟩, hengine⟩
  all_goals obtain ⟨engine, epoch, hthread⟩ := hstart.threads w
  · exact (congrArg Setup.role (startThread_setup hthread)).trans hrole
  · have hqueues := congrArg Setup.tunnelQueueCount (startThread_setup hthread)
    obtain ⟨ports, -, hthread⟩ := Outcome.bind_eq_ok.mp hthread
    obtain ⟨⟨first, last⟩, -, hthread⟩ := Outcome.bind_eq_ok.mp hthread
    obtain ⟨state, -, hthread⟩ := Outcome.bind_eq_ok.mp hthread
    obtain ⟨quicFlow, hnew, -⟩ := Outcome.bind_eq_ok.mp hthread
    obtain ⟨-, hnew⟩ := Outcome.bind_unit_eq_ok.mp (Outcome.mapErr_eq_ok.mp hnew)
    have hne := Outcome.ensure_eq_ok.mp (Outcome.bind_unit_eq_ok.mp hnew).1
    exact fun hzero => hne (hqueues.symm.trans hzero)

/-- The step in which a worker finds its engine drained. -/
theorem engine_of_drained {n : ℕ} {system : System (QuicEngine hmac) n} {w : Fin n}
    {r : Readings Answers}
    (hdrained : ((system.threads w).context.engine.poll (r.engine 0) (r.now 0)).1 = none) :
    ((system.step w (.poll r)).threads w).context.engine =
      ((system.threads w).context.engine.poll (r.engine 0) (r.now 0)).2 := by
  have hevent : (Engine.poll (r.engine 0) (r.now 0) (system.flow w).context.engine).1 = none :=
    hdrained
  have hpoll : (Flow.pollEngine (system.flow w).reconnectEpoch r).run (system.flow w) =
      (.ok false, (system.flow w).withEngine
        (Engine.poll (r.engine 0) (r.now 0) (system.flow w).context.engine).2) := by
    rw [Flow.pollEngine, Act.bind_of_ok rfl, hevent]
    rfl
  simp only [step, Function.update_self]
  rw [Flow.Step.act, Act.bind_of_ok (Act.run_get (system.flow w)), Act.bind_of_ok hpoll]
  rfl

/-- As long as a client worker gets a new connection whenever it hears that the old one is
gone, it recovers once it has drained its engine, whatever the other workers do. -/
theorem recovers_of_succeeds (ha : config.accepted) (hrole : config.role = .client)
    (hstart : system.Started config placement) {w : Fin config.flowWorkerCount}
    (hengine : ∃ sharedKey dcidLen attempts,
      clientForWorker sharedKey dcidLen w config.flowWorkerCount attempts =
        .ok (system.threads w).context.engine)
    {steps : List (Fin config.flowWorkerCount × Flow.Step Answers)}
    (hsteps : Along (fun system s => system.step s.1 s.2)
      (fun system s => s.1 = w → s.2.Succeeds (system.threads w).context.engine) system steps)
    {r : Readings Answers}
    (hdrained : (((system.after steps).threads w).context.engine.poll (r.engine 0)
      (r.now 0)).1 = none) :
    ((system.after steps).step w (.poll r)).Recovers w := by
  have hserved : system.Served config w := by
    obtain ⟨sharedKey, dcidLen, attempts, hengine⟩ := hengine
    exact served_of_started ha hrole hstart (attended_clientForWorker hengine)
  have hreached : (system.after steps).Served config w :=
    hsteps.invariant hserved fun _ _ h hs => h.step hs
  left
  rw [engine_of_drained hdrained]
  exact isSome_of_drained hreached.attended hdrained

end Clients

end System

/-! Runs of a client with one worker. -/

namespace Scenario

def dialling (connected : Option ConnectionHandle) : Attempt :=
  ⟨connected, [], 0, ⟨quiet, quiet,
    [⟨⟨.v4 (dotted 203 0 113 9), 443⟩, none, [192, 0, 0, 0, 1, 1, 7], none⟩]⟩⟩

def client : QuicEngine noMac :=
  attemptEngine (Vector.replicate 32 0) 8 0 config.flowWorkerCount 5 (dialling (some 5))

theorem clientForWorker_client :
    clientForWorker (Vector.replicate 32 0) 8 0 config.flowWorkerCount [dialling (some 5)] =
      .ok client := by
  have howner : initialOwner client config.flowWorkerCount = some 0 := by decide +kernel
  rw [clientForWorker, if_neg (by decide), if_neg (by decide), connectLoop]
  exact if_pos howner

theorem startClient_isSome : (startThread config placement client 0 0).toOption.isSome := by
  decide +kernel

def clientProcess : System (QuicEngine noMac) config.flowWorkerCount := alone startClient_isSome

theorem clientProcess_started : clientProcess.Started config placement := alone_started rfl _

theorem clientProcess_engines (w : Fin config.flowWorkerCount) : ∃ sharedKey dcidLen attempts,
    clientForWorker sharedKey dcidLen w config.flowWorkerCount attempts =
      .ok (clientProcess.threads w).context.engine := by
  refine ⟨Vector.replicate 32 0, 8, [dialling (some 5)], ?_⟩
  have hw : w.val = 0 := Nat.lt_one_iff.mp w.isLt
  rw [clientProcess, System.startThread_engine (startThread_alone rfl startClient_isSome w), hw]
  exact clientForWorker_client

/-- The connection has `active` to report; an attempt to connect has the outcome
`connected`. -/
def reporting (active : ConnectionInput) (connected : Option ConnectionHandle) : Answers :=
  { answering none active quiet with attempts := [dialling connected] }

/-- The worker takes one event of the engine. -/
def polling (active : ConnectionInput) (connected : Option ConnectionHandle) :
    Fin config.flowWorkerCount × Flow.Step Answers :=
  (first, .poll ⟨fun _ => 7, fun _ => 7, fun _ _ => 7, fun _ => reporting active connected, false⟩)

/-- The connection is lost, the worker is told, and tries to connect. -/
def losing (connected : Option ConnectionHandle) :
    List (Fin config.flowWorkerCount × Flow.Step Answers) :=
  [polling (hears .connectionLost) connected, polling quiet connected]

end Scenario

namespace System

open Scenario

/-- The attempt succeeds, and the worker drains the new engine. -/
theorem recovers_of_succeeds_losing :
    ((clientProcess.after (losing (some 6))).threads first).context.engine.events ≠ [] ∧
      ((clientProcess.after (losing (some 6) ++ [polling quiet none])).step first
        (polling quiet none).2).Recovers first := by
  refine ⟨by decide +kernel, recovers_of_succeeds (by decide +kernel) rfl clientProcess_started
    (clientProcess_engines first) ?_ (by decide +kernel)⟩
  refine ⟨fun _ => ⟨rfl, ?_⟩, fun _ => ⟨rfl, ?_⟩, fun _ => ⟨rfl, ?_⟩, trivial⟩ <;> decide +kernel

/-- The attempt fails. The engine is drained at once, and the worker never tries again. -/
theorem losing_not_recovers :
    config.accepted ∧ config.role = .client ∧ clientProcess.Started config placement ∧
      (∀ w : Fin config.flowWorkerCount, ∃ sharedKey dcidLen attempts,
        clientForWorker sharedKey dcidLen w config.flowWorkerCount attempts =
          .ok (clientProcess.threads w).context.engine) ∧
      (∀ s ∈ losing none ++ [polling quiet none], s.2.Running ∧ s.2.Unprompted) ∧
      (((clientProcess.after (losing none)).threads first).context.engine.poll
        (reporting quiet none) 7).1 = none ∧
      ¬ ((clientProcess.after (losing none)).step first (polling quiet none).2).Recovers first := by
  refine ⟨by decide +kernel, rfl, clientProcess_started, clientProcess_engines, ?_,
    by decide +kernel, ?_⟩
  · simp [losing, polling, Flow.Step.Running, Flow.Step.Unprompted]
  · have hengine : ((clientProcess.after (losing none ++ [polling quiet none])).threads
        first).context.engine.Stranded := by
      refine ⟨Option.isNone_iff_eq_none.mp (by decide +kernel),
        Option.isNone_iff_eq_none.mp (by decide +kernel), ?_⟩
      have hempty : ((clientProcess.after (losing none ++ [polling quiet none])).threads
          first).context.engine.events = [] := by decide +kernel
      rw [hempty]
      exact nofun
    have hr : Flow.Step.Running (polling quiet none).2 := rfl
    exact not_recovers_of_stranded hr hengine

end System

end NewProxy
