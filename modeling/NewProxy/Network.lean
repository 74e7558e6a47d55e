import NewProxy.IoWorker
import NewProxy.Runs

/-!
# The IO workers, the flow workers and the channels between them

An IO worker holds both shared tables for reading while it classifies a frame, and puts
at most one message into the channel of a flow worker. The flow worker takes the message
later, when the tables may say something else.
-/
namespace NewProxy

open IoWorker

namespace FlowDispatcher

variable {dispatcher : FlowDispatcher}

/-- The messages that wait for a worker. -/
def queue (dispatcher : FlowDispatcher) (workerId : ℕ) : List FlowMessage :=
  (dispatcher.senders[workerId]?.map FlowChannel.queue).getD []

/-- The worker takes the first message. -/
def take (dispatcher : FlowDispatcher) (workerId : ℕ) : FlowDispatcher :=
  { dispatcher with senders :=
      dispatcher.senders.modify workerId fun channel =>
        { channel with queue := channel.queue.tail } }

/-- The message is appended to the queue of `workerId`, or is lost. -/
theorem queue_dispatchTo (dispatcher : FlowDispatcher) (workerId : ℕ) (message : FlowMessage) :
    (dispatcher.dispatchTo workerId message).2.queue = dispatcher.queue ∨
      (dispatcher.dispatchTo workerId message).2.queue =
        Function.update dispatcher.queue workerId (dispatcher.queue workerId ++ [message]) := by
  unfold dispatchTo
  cases hchannel : dispatcher.senders[workerId]? with
  | none => exact Or.inl rfl
  | some channel =>
    dsimp only
    split_ifs
    · exact Or.inl rfl
    · right
      funext other
      have hlt := (List.getElem?_eq_some_iff.mp hchannel).1
      by_cases hother : other = workerId
      · subst hother
        simp [queue, hlt, ← (List.getElem?_eq_some_iff.mp hchannel).2]
      · simp [queue, Function.update_of_ne hother, List.getElem?_set_ne (Ne.symm hother)]
    · exact Or.inl rfl

theorem queue_take (dispatcher : FlowDispatcher) (workerId : ℕ) :
    (dispatcher.take workerId).queue =
      Function.update dispatcher.queue workerId (dispatcher.queue workerId).tail := by
  funext other
  by_cases hother : other = workerId
  · subst hother
    cases hchannel : dispatcher.senders[other]? <;> simp [queue, take, hchannel]
  · simp [queue, take, Function.update_of_ne hother, Ne.symm hother]

end FlowDispatcher

namespace IoWorker

variable {hash : IoOwnerKey → DnsTransactionKey → UInt64} {config : IoClassifierConfig}
  {activeDcids : ActiveDcidIndex} {reverseNat : ReverseNatDirectory} {frame : Bytes}

/-- The messages a frame may be turned into, each with the worker it is sent to. -/
inductive Sends (config : IoClassifierConfig) (activeDcids : ActiveDcidIndex)
    (reverseNat : ReverseNatDirectory) (parsed : ParsedIpFrame) : ℕ → FlowMessage → Prop where
  | tunnel {outer : OuterQuic} {workerId : ℕ}
      (outer_eq : parseOuterQuic parsed config.tunnelPort config.dcidLen = .ok (some outer))
      (owner : tunnelOwner config activeDcids outer = .ok workerId) :
      Sends config activeDcids reverseNat parsed workerId
        (.tunnelIngress config.owner outer.dcid outer.remote outer.localIp outer.payload)
  | returned {flow : FlowKey} {locator : SessionLocator}
      (flow_eq : flowOf parsed.ipPacket = .ok flow)
      (found : reverseNat.lookup flow = some locator) :
      Sends config activeDcids reverseNat parsed locator.flowWorkerId
        (.interceptIngress config.owner parsed.ipPacket (some locator))
  | opened {workerId : ℕ} :
      Sends config activeDcids reverseNat parsed workerId
        (.interceptIngress config.owner parsed.ipPacket none)

/-- The dispatcher has been handed at most one of these messages. -/
def Handed (sends : ℕ → FlowMessage → Prop) (dispatcher next : FlowDispatcher) : Prop :=
  next = dispatcher ∨ ∃ workerId message, sends workerId message ∧
    next = (dispatcher.dispatchTo workerId message).2

/-- The computation hands over at most one of these messages. -/
def Hands {ε α : Type} (sends : ℕ → FlowMessage → Prop) (x : Act FlowDispatcher ε α) : Prop :=
  ∀ dispatcher, Act.Leads (fun d => d = dispatcher) (Handed sends dispatcher) x

theorem hands_dispatch {sends : ℕ → FlowMessage → Prop} {workerId : ℕ} {message : FlowMessage}
    (h : sends workerId message) : Hands sends (dispatch workerId message) := by
  rintro dispatcher _ rfl
  exact Or.inr ⟨workerId, message, h, rfl⟩

theorem hands_of_stable {ε α : Type} {sends : ℕ → FlowMessage → Prop} {x : Act FlowDispatcher ε α}
    (h : ∀ dispatcher, Act.Stable (fun d => d = dispatcher) x) : Hands sends x :=
  fun dispatcher => .of_stable (h dispatcher) fun _ hd => Or.inl hd

theorem hands_call_bind {ε α β : Type} {sends : ℕ → FlowMessage → Prop} {o : Outcome ε α}
    {f : α → Act FlowDispatcher ε β} (hf : ∀ a, o = .ok a → Hands sends (f a)) :
    Hands sends (Act.call o >>= f) :=
  fun dispatcher => .call_bind (fun _ hd => Or.inl hd) fun a ha => hf a ha dispatcher

theorem hands_ite {ε α : Type} {sends : ℕ → FlowMessage → Prop} {c : Prop} [Decidable c]
    {x y : Act FlowDispatcher ε α} (hx : Hands sends x) (hy : Hands sends y) :
    Hands sends (if c then x else y) :=
  fun dispatcher => .ite (hx dispatcher) (hy dispatcher)

variable {parsed : ParsedIpFrame}

theorem hands_handleTunnel :
    Hands (Sends config activeDcids reverseNat parsed)
    (handleTunnel config parsed activeDcids) := by
  refine hands_call_bind fun result hresult => ?_
  rcases result with reason | _ | outer
  · exact hands_call_bind fun _ _ => hands_of_stable fun _ => .fail reason
  · exact hands_of_stable fun _ => .pure _
  · refine hands_call_bind fun workerId howner => hands_dispatch (.tunnel ?_ howner)
    exact Outcome.attempt_eq_ok_ok.mp hresult

theorem hands_handleIntercept :
    Hands (Sends config activeDcids reverseNat parsed)
      (handleIntercept hash config parsed reverseNat) := by
  refine hands_ite ?_ (hands_ite ?_ ?_)
  · exact hands_call_bind fun _ _ => hands_call_bind fun _ _ => hands_call_bind fun _ _ =>
      hands_call_bind fun _ _ => hands_dispatch .opened
  · refine hands_call_bind fun _ _ => hands_call_bind fun flow hflow => hands_call_bind
      fun locator hlocator => hands_dispatch (.returned hflow ?_)
    exact Outcome.okOr_eq_ok.mp hlocator
  · refine hands_call_bind fun flow hflow => ?_
    cases hlookup : reverseNat.lookup flow with
    | some locator => exact hands_dispatch (.returned hflow hlookup)
    | none =>
      exact hands_call_bind fun _ _ => hands_ite (hands_dispatch .opened)
        (hands_of_stable fun _ => .pure _)

/-- What a frame is turned into. -/
theorem handleFrame_sends {ε : Type} (dispatcher : FlowDispatcher) :
    Handed (fun workerId message => ∃ parsed, parseIpFrame frame = .ok parsed ∧
        Sends config activeDcids reverseNat parsed workerId message) dispatcher
      ((handleFrame hash config frame activeDcids reverseNat :
        Act FlowDispatcher ε IngressOutcome).run dispatcher).2 := by
  have hclassify : Hands (fun workerId message => ∃ parsed, parseIpFrame frame = .ok parsed ∧
      Sends config activeDcids reverseNat parsed workerId message)
      (classify hash config frame activeDcids reverseNat) := by
    refine hands_call_bind fun parsed hparsed => ?_
    have hmono : ∀ {x : Act FlowDispatcher DropReason IngressOutcome},
        Hands (Sends config activeDcids reverseNat parsed) x →
          Hands (fun workerId message => ∃ parsed, parseIpFrame frame = .ok parsed ∧
            Sends config activeDcids reverseNat parsed workerId message) x := by
      intro x hx dispatcher d hd
      refine (hx dispatcher d hd).imp_right ?_
      rintro ⟨workerId, message, hsends, hnext⟩
      exact ⟨workerId, message, ⟨parsed, hparsed, hsends⟩, hnext⟩
    exact hands_ite (hmono hands_handleTunnel) (hands_ite (hands_of_stable fun _ => .pure _)
      (hmono hands_handleIntercept))
  have hattempt : Handed (fun workerId message => ∃ parsed, parseIpFrame frame = .ok parsed ∧
      Sends config activeDcids reverseNat parsed workerId message) dispatcher
      ((Act.attempt (classify hash config frame activeDcids reverseNat) :
        Act FlowDispatcher ε _).run dispatcher).2 := (hclassify dispatcher).attempt dispatcher rfl
  unfold handleFrame
  rw [Act.run_bind]
  rcases hrun : (Act.attempt (classify hash config frame activeDcids reverseNat) :
    Act FlowDispatcher ε _).run dispatcher with ⟨_ | _ | _, _⟩ <;> rw [hrun] at hattempt <;>
    exact hattempt

end IoWorker

/-- The flow workers and the channels the IO workers reach them through. -/
structure Network (E : Type) (n : ℕ) where
  system : System E n
  dispatcher : FlowDispatcher

namespace Network

/-- What a flow worker does besides the handling of a message. -/
inductive Chore (I : Type) where
  | poll (r : Readings I)
  | expireDnsTransactions (r : Readings I)
  | expireIdleSessions (r : Readings I)
  | reconnect (requestedEpoch : UInt64) (r : Readings I)
  | exit (r : Readings I)

def Chore.step {I : Type} : Chore I → Flow.Step I
  | .poll r => .poll r
  | .expireDnsTransactions r => .expireDnsTransactions r
  | .expireIdleSessions r => .expireIdleSessions r
  | .reconnect requestedEpoch r => .reconnect requestedEpoch r
  | .exit r => .exit r

/-- A step of one thread: an IO worker classifies a frame, the main thread gets a reload
message into the channel of one worker, a flow worker takes a message from its channel, or
does a chore. -/
inductive Step (I : Type) (n : ℕ) where
  | frame (config : IoClassifierConfig) (frame : Bytes)
  | reload (w : Fin n) (remoteDomains : Option RemoteDomainRules)
  | receive (w : Fin n) (r : Readings I)
  | work (w : Fin n) (chore : Chore I)

variable {E I : Type} [Engine E I] {n : ℕ} {hash : IoOwnerKey → DnsTransactionKey → UInt64}
  {network : Network E n}

/-- The messages that wait for a worker, the oldest first. -/
def queue (network : Network E n) (w : Fin n) : List FlowMessage := network.dispatcher.queue w

def step (hash : IoOwnerKey → DnsTransactionKey → UInt64) (network : Network E n) :
    Step I n → Network E n
  | .frame config frame =>
    { network with dispatcher :=
        ((handleFrame hash config frame network.system.activeDcids network.system.reverseNat :
          Act FlowDispatcher Empty IngressOutcome).run network.dispatcher).2 }
  | .reload w remoteDomains =>
    { network with dispatcher :=
      (network.dispatcher.dispatchTo w (.reloadPolicies remoteDomains)).2 }
  | .receive w r =>
    match network.queue w with
    | [] => network
    | message :: _ => ⟨network.system.step w (.message message r), network.dispatcher.take w⟩
  | .work w chore => { network with system := network.system.step w chore.step }

def after (hash : IoOwnerKey → DnsTransactionKey → UInt64) (network : Network E n)
    (steps : List (Step I n)) : Network E n :=
  steps.foldl (step hash) network

/-- The workers have their start context and nothing has been received. -/
structure Started (config : ApplianceConfig) (placement : Placement)
    (network : Network E config.flowWorkerCount) : Prop where
  system : network.system.Started config placement
  queues : ∀ w, network.queue w = []

theorem step_receive_nil {w : Fin n} (h : network.queue w = []) (r : Readings I) :
    network.step hash (.receive w r) = network := by
  simp only [step, h]

theorem step_receive_cons {w : Fin n} {message : FlowMessage} {rest : List FlowMessage}
    (h : network.queue w = message :: rest) (r : Readings I) :
    network.step hash (.receive w r) =
      ⟨network.system.step w (.message message r), network.dispatcher.take w⟩ := by
  simp only [step, h]

/-- The flow workers of a run have made some steps of their own. -/
theorem exists_system_after (hash : IoOwnerKey → DnsTransactionKey → UInt64) (network : Network E n)
    (steps : List (Step I n)) :
    ∃ taken, (network.after hash steps).system = network.system.after taken := by
  induction steps generalizing network with
  | nil => exact ⟨[], rfl⟩
  | cons s rest ih =>
    obtain ⟨taken, htaken⟩ := ih (network.step hash s)
    have hstep : (∃ step, (network.step hash s).system = network.system.after [step]) ∨
        (network.step hash s).system = network.system := by
      cases s with
      | frame config frame => exact Or.inr rfl
      | reload w remoteDomains => exact Or.inr rfl
      | receive w r =>
        cases hq : network.queue w with
        | nil => exact Or.inr (by rw [step_receive_nil hq])
        | cons message rest =>
          exact Or.inl ⟨(w, .message message r), by rw [step_receive_cons hq]; rfl⟩
      | work w chore => exact Or.inl ⟨(w, chore.step), rfl⟩
    rcases hstep with ⟨step, hstep⟩ | hstep
    · refine ⟨step :: taken, htaken.trans ?_⟩
      rw [hstep]
      rfl
    · exact ⟨taken, htaken.trans (by rw [hstep])⟩

/-- A message a step puts into the channel of a worker. -/
inductive Sent (network : Network E n) : Step I n → Fin n → FlowMessage → Prop where
  | frame {config : IoClassifierConfig} {frame : Bytes} {parsed : ParsedIpFrame} {w : Fin n}
      {message : FlowMessage} (parsed_eq : parseIpFrame frame = .ok parsed)
      (sends : Sends config network.system.activeDcids network.system.reverseNat parsed w message) :
      Sent network (.frame config frame) w message
  | reload {w : Fin n} {remoteDomains : Option RemoteDomainRules} :
      Sent network (.reload w remoteDomains) w (.reloadPolicies remoteDomains)

/-- A message in a channel was there before the step, or is put there by it. -/
theorem mem_queue_step {s : Step I n} {w : Fin n} {message : FlowMessage}
    (h : message ∈ (network.step hash s).queue w) :
    message ∈ network.queue w ∨ Sent network s w message := by
  have hdispatch : ∀ {workerId : ℕ} {other : FlowMessage},
      message ∈ (network.dispatcher.dispatchTo workerId other).2.queue w →
        message ∈ network.queue w ∨ (w : ℕ) = workerId ∧ message = other := by
    intro workerId other hmem
    rcases network.dispatcher.queue_dispatchTo workerId other with heq | heq <;> rw [heq] at hmem
    · exact Or.inl hmem
    · by_cases hw : (w : ℕ) = workerId
      · subst hw
        rw [Function.update_self] at hmem
        exact (List.mem_append.mp hmem).imp_right fun h => ⟨rfl, List.mem_singleton.mp h⟩
      · rw [Function.update_of_ne hw] at hmem
        exact Or.inl hmem
  cases s with
  | frame config frame =>
    have hsends : Handed (fun workerId message => ∃ parsed, parseIpFrame frame = .ok parsed ∧
        Sends config network.system.activeDcids network.system.reverseNat parsed workerId message)
        network.dispatcher (network.step (I := I) hash (.frame config frame)).dispatcher :=
      handleFrame_sends network.dispatcher
    rcases hsends with heq | ⟨workerId, other, ⟨parsed, hparsed, hsends⟩, heq⟩
    · left
      rw [queue, heq] at h
      exact h
    · rw [queue, heq] at h
      refine (hdispatch h).imp_right ?_
      rintro ⟨rfl, rfl⟩
      exact .frame hparsed hsends
  | reload w' remoteDomains =>
    refine (hdispatch h).imp_right ?_
    rintro ⟨hw, rfl⟩
    obtain rfl : w = w' := Fin.ext hw
    exact .reload
  | receive w' r =>
    left
    cases hq : network.queue w' with
    | nil =>
      rw [step_receive_nil hq] at h
      exact h
    | cons first rest =>
      rw [step_receive_cons hq, queue, FlowDispatcher.queue_take] at h
      by_cases hw : (w : ℕ) = w'
      · rw [hw, Function.update_self] at h
        rw [queue, hw]
        exact List.mem_of_mem_tail h
      · rw [Function.update_of_ne hw] at h
        exact h
  | work w' chore => exact Or.inl h

/-- A message in a channel was put there by an earlier step. -/
theorem mem_queue_after {steps : List (Step I n)} {w : Fin n} {message : FlowMessage}
    (h : message ∈ (network.after hash steps).queue w) :
    message ∈ network.queue w ∨ ∃ before s later, steps = before ++ s :: later ∧
      Sent (network.after hash before) s w message := by
  induction steps generalizing network with
  | nil => exact Or.inl h
  | cons s rest ih =>
    rcases ih h with hqueue | ⟨before, s', later, rfl, hsent⟩
    · rcases mem_queue_step hqueue with hqueue | hsent
      · exact Or.inl hqueue
      · exact Or.inr ⟨[], s, rest, rfl, hsent⟩
    · exact Or.inr ⟨s :: before, s', later, rfl, hsent⟩

end Network

end NewProxy
