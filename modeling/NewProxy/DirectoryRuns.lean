import NewProxy.DirectoryEntries
import NewProxy.FlowLoop

/-!
# The directory follows the sessions and the DNS transactions

Each handler of a flow worker is described by the bindings it books in or out and by
the entries it publishes or retires for them. The entries of a worker then match its
bindings after every step, whatever the other workers do in between.
-/
namespace NewProxy

open Outcome Packet
open ReverseNatDirectory (Entries Publishes Apart)
open FlowWorkerState (Booked Fits Enters without)

/-- The worker looked at and the directory its step began with. `strict` is set where the
entries of DNS tokens are followed as well. -/
structure Scope extends Site where
  w : ℕ
  strict : Prop
  start : ReverseNatDirectory

namespace Flow

variable {E I : Type} {ε α : Type}

/-- The directory has the entries of these bindings; `Q` says what the worker books. -/
structure Holds (c : Scope) (sessions transactions : SessionId → Option NatBinding)
    (Q : FlowWorkerState → Prop) (flow : Flow E) : Prop where
  workerId : flow.context.workerId = c.w
  config : ∀ config, flow.context.dnsConfig = some config → Fits c.toSite config
  entries : Entries c.Serves c.w c.strict c.start sessions transactions flow.reverseNat
  state : Q flow.context.state

/-- Directory and worker agree on the bindings. -/
abbrev Tracked (c : Scope) (sessions transactions : SessionId → Option NatBinding)
    (next : UInt64) : Flow E → Prop :=
  Holds c sessions transactions
    (Booked c.toSite sessions transactions next)

def Following (c : Scope) (flow : Flow E) : Prop :=
  ∃ sessions transactions next, Tracked c sessions transactions next flow

section Calls

variable {c : Scope} {sessions transactions : SessionId → Option NatBinding} {next : UInt64}
  {P : FlowWorkerState → Prop} {Q : α → FlowWorkerState → Prop} {R : FlowWorkerState → Prop}

theorem Holds.following {flow : Flow E} (h : Tracked c sessions transactions next flow) :
    Following c flow := ⟨sessions, transactions, next, h⟩

theorem onState_spec {x : Act FlowWorkerState ε α} (hx : Act.Triple P x Q R) :
    Act.Triple (Holds c sessions transactions P : Flow E → Prop) (onState x)
      (fun result => Holds c sessions transactions fun state => match result with
        | .ok a => Q a state
        | .error _ => R state)
      (fun _ => False) := by
  intro flow h
  have hends := hx _ h.state
  rcases hrun : x.run flow.context.state with ⟨(e | _) | a, state⟩ <;> rw [hrun] at hends <;>
    simp only [onState, Act.attempt, Act.zoom, hrun, mapErr, fail]
  · exact ⟨h.workerId, h.config, h.entries, hends⟩
  · exact hends
  · exact ⟨h.workerId, h.config, h.entries, hends⟩

/-- A call on the state that books nothing. -/
theorem onState_tracked {x : Act FlowWorkerState ε α}
    (hx : Act.Keeps (Booked c.toSite sessions transactions next) x) :
    Act.Triple (Tracked c sessions transactions next : Flow E → Prop) (onState x)
      (fun _ => Tracked c sessions transactions next) (fun _ => False) :=
  (onState_spec hx).weaken (fun _ h => h)
    (fun result _ h => ⟨h.workerId, h.config, h.entries, by cases result <;> exact h.state⟩)
    fun _ h => h

theorem onEngine_holds (f : E → α × E) :
    Act.Triple (Holds c sessions transactions P) (onEngine f)
      (fun _ => Holds c sessions transactions P) (fun _ => False) :=
  fun _ h => ⟨h.workerId, h.config, h.entries, h.state⟩

theorem output_holds (out : Output) :
    Act.Triple (Holds c sessions transactions P : Flow E → Prop) (output out)
      (fun _ => Holds c sessions transactions P) (fun _ => False) :=
  .modify fun _ h => ⟨h.workerId, h.config, h.entries, h.state⟩

theorem onActiveDcids_holds {x : Act ActiveDcidIndex ε α}
    (hx : Act.Triple (fun _ => True) x (fun _ _ => True) fun _ => True) :
    Act.Triple (Holds c sessions transactions P : Flow E → Prop) (onActiveDcids x)
      (fun _ => Holds c sessions transactions P) (fun _ => False) := by
  intro flow h
  have hends := hx flow.activeDcids trivial
  rcases hrun : x.run flow.activeDcids with ⟨(e | _) | a, index⟩ <;> rw [hrun] at hends <;>
    simp only [onActiveDcids, Act.attempt, Act.zoom, hrun, mapErr, fail]
  · exact ⟨h.workerId, h.config, h.entries, h.state⟩
  · exact hends
  · exact ⟨h.workerId, h.config, h.entries, h.state⟩

/-- The flow of a packet, if it has one. -/
def packetFlow (packet : Bytes) : Option FlowKey :=
  match parseFlowKey packet with
  | .ok flow => some flow
  | .error _ => none

theorem flowOf_run (packet : Bytes) (flow : Flow E) :
    (flowOf packet).run flow = (.ok (packetFlow packet), flow) := by
  obtain ⟨result, hresult⟩ := attempt_ok_of_ne_panic (parseFlowKey_ne_panic packet)
  rw [flowOf, hresult, Act.bind_of_ok (Act.run_call _ _), packetFlow]
  rcases result with e | key
  · rw [attempt_eq_ok_error.mp hresult]
    rfl
  · rw [attempt_eq_ok_ok.mp hresult]
    rfl

theorem flowOf_spec (packet : Bytes) {A : Flow E → Prop} {B : α → Flow E → Prop}
    {k : Option FlowKey → FlowM E α} (hk : Act.Triple A (k (packetFlow packet)) B fun _ => False) :
    Act.Triple A (flowOf packet >>= k) B fun _ => False := by
  intro flow h
  rw [Act.bind_of_ok (flowOf_run packet flow)]
  exact hk flow h

theorem publish_spec (binding : NatBinding) (id : SessionId) (w : ℕ) (flow : Flow E) :
    Act.Triple (fun f => f = flow) (onReverseNat (ReverseNatDirectory.publish binding ⟨w, id⟩))
      (fun result f => match result with
        | .ok _ => ∃ directory, Publishes binding ⟨w, id⟩ flow.reverseNat directory ∧
          f = { flow with reverseNat := directory }
        | .error _ => f = flow ∧ ∃ other,
          flow.reverseNat.entries.get binding.returnKey = some other ∧ other ≠ ⟨w, id⟩)
      (fun _ => False) := by
  intro f hf
  rw [hf]
  rcases ReverseNatDirectory.publish_cases binding ⟨w, id⟩ flow.reverseNat with
    ⟨directory, hrun, hp⟩ | ⟨e, other, hrun, hget, hne⟩ <;>
    simp only [onReverseNat, Act.attempt, Act.zoom, hrun, mapErr, fail]
  · exact ⟨directory, hp, rfl⟩
  · exact ⟨rfl, other, hget, hne⟩

end Calls

section WorkerSide

variable {c : Scope} {sessions transactions : SessionId → Option NatBinding}
  {next next' : UInt64} {id : SessionId} {binding : NatBinding} {P : FlowWorkerState → Prop}

/-- A session that was found or opened is published, or removed again. -/
theorem publishSession_spec (henters : Enters sessions transactions next next' id binding)
    (hplain : c.strict → ¬ id.IsDnsToken) (site : ℕ) (r : Readings I) :
    Act.Triple (Holds c sessions transactions (Booked c.toSite
        (Function.update sessions id (some binding)) transactions next') : Flow E → Prop)
      (publishSession id site r)
      (fun published flow => if published
        then Tracked c (Function.update sessions id (some binding)) transactions next' flow
        else Tracked c sessions transactions next' flow)
      (fun _ => False) := by
  refine .get fun flow h => ?_
  obtain ⟨session, hs, hnat⟩ : ∃ session,
      flow.context.state.session id = some session ∧ session.nat = binding := by
    have hb := h.state.holding.bindings id
    rw [Function.update_self, Option.map_eq_some_iff] at hb
    exact hb
  have hsame : ∀ other, sessions id = some other → other = binding := by
    intro other hother
    rcases henters with ⟨hheld, -⟩ | ⟨hnone, -⟩
    · exact Option.some_inj.mp (hother.symm.trans hheld)
    · cases hnone.symm.trans hother
  simp only [hs]
  refine .bind (publish_spec session.nat id flow.context.workerId flow) fun result => ?_
  rcases result with e | _
  · -- the key is somebody else's: a listed session would have it
    rintro f ⟨hf, other, hother, hne⟩
    subst hf
    rw [hnat] at hother
    rw [h.workerId] at hne
    have hnone : sessions id = none := by
      rcases henters with ⟨hheld, -⟩ | ⟨hnone, -⟩
      · cases (h.entries.listed id binding hheld).symm.trans hother
        exact absurd rfl hne
      · exact hnone
    refine Act.Triple.bind (onState_spec (FlowWorkerState.removeSession_booked id (r.natNow site)))
      (fun result => .pure fun f hf => ?_) _ h
    have hback : Function.update (Function.update sessions id (some binding)) id none =
        sessions := by
      rw [Function.update_idem, ← hnone, Function.update_eq_self]
    refine ⟨hf.workerId, hf.config, hf.entries, ?_⟩
    rcases result with e | removed
    · have hgone := hf.state.1
      rw [Function.update_self] at hgone
      cases hgone
    · have hbooked := hf.state.2
      rwa [hback] at hbooked
  · rintro _ ⟨directory, hp, rfl⟩
    rw [hnat, h.workerId] at hp
    exact ⟨h.workerId, h.config, h.entries.publishSession hp hsame hplain
      (h.state.serves (.inl (Function.update_self id (some binding) sessions))), h.state⟩

theorem retireEntry_run (binding : NatBinding) (id : SessionId) (flow : Flow E) :
    (retireEntry binding id).run flow = (.ok (),
      { flow with
        reverseNat := flow.reverseNat.retireAll flow.context.workerId [(id, binding)] }) :=
  rfl

theorem without_singleton (bindings : SessionId → Option NatBinding) (id : SessionId) :
    without bindings [id] = Function.update bindings id none := by
  funext id'
  simp only [without, List.mem_singleton, Function.update_apply]

theorem retireSession_spec (id : SessionId) (site : ℕ) (r : Readings I) :
    Act.Triple (Tracked c sessions transactions next : Flow E → Prop) (retireSession id site r)
      (fun _ => Following c) (fun _ => False) := by
  refine .bind (onState_spec (FlowWorkerState.removeSession_booked id (r.natNow site)))
    fun result => ?_
  rcases result with e | session
  · exact .pure fun flow h => ⟨sessions, transactions, next, h.workerId, h.config, h.entries,
      h.state.2⟩
  · intro flow h
    obtain ⟨hs, hbooked⟩ := h.state
    rw [retireEntry_run, h.workerId]
    refine ⟨_, transactions, next, h.workerId, h.config,
      h.entries.retireSessions [(id, session.nat)] (by simpa using hs), ?_⟩
    rwa [List.map_cons, List.map_nil, without_singleton]

/-- The flow has the directory before, or the entry was added to it. -/
theorem publishDnsReverse_spec (binding : NatBinding) (id : SessionId) :
    Act.Triple (Holds c sessions transactions P : Flow E → Prop) (publishDnsReverse binding id)
      (fun published flow => ∃ directory,
        Holds c sessions transactions P { flow with reverseNat := directory } ∧
        if published then Publishes binding ⟨c.w, id⟩ directory flow.reverseNat
        else flow.reverseNat = directory ∧ ∃ other,
          directory.entries.get binding.returnKey = some other ∧ other ≠ ⟨c.w, id⟩)
      (fun _ => False) := by
  refine .get fun flow h => .bind (publish_spec binding id flow.context.workerId flow)
    fun result => ?_
  rcases result with e | _
  · rintro f ⟨hf, hother⟩
    subst hf
    rw [h.workerId] at hother
    exact ⟨f.reverseNat, h, rfl, hother⟩
  · rintro f ⟨directory, hp, rfl⟩
    rw [h.workerId] at hp
    exact ⟨flow.reverseNat, h, hp⟩

/-- The tuple of a transaction is published, or the transaction is gone. -/
theorem publishOrAbort_spec {config : DnsFlowConfig} (hfits : Fits c.toSite config)
    (r : Readings I) {send : FlowM E Unit}
    (hsend : Act.Triple (Tracked c sessions (Function.update transactions id (some binding)) next)
      send (fun _ => Following c) fun _ => False) :
    Act.Triple (Holds c sessions transactions fun state =>
        (transactions id = some binding ∨ transactions id = none ∧ sessions id = none) ∧
        Booked c.toSite sessions
          (Function.update transactions id (some binding)) next state)
      (publishOrAbort binding id config r send) (fun _ => Following c) (fun _ => False) := by
  have hbound : Function.update transactions id (some binding) id = some binding :=
    Function.update_self _ _ _
  refine .bind (publishDnsReverse_spec binding id) fun published => ?_
  rintro flow ⟨directory, h, hpublished⟩
  obtain ⟨hheld, hbooked⟩ := h.state
  have hsame : ∀ other, transactions id = some other → other = binding := by
    intro other hother
    rcases hheld with hheld | ⟨hnone, -⟩
    · exact Option.some_inj.mp (hother.symm.trans hheld)
    · cases hnone.symm.trans hother
  cases published with
  | true =>
    exact hsend flow ⟨h.workerId, h.config, h.entries.publishTransaction hpublished
      (hbooked.tokens id binding hbound) (hbooked.disjoint hbound) hsame
      (hbooked.serves (.inr hbound)), hbooked⟩
  | false =>
    obtain ⟨hdirectory, other, hother, hne⟩ := hpublished
    have hentries := h.entries.dropTransaction hother hne hsame
    rw [← hdirectory] at hentries
    refine Act.Triple.bind (P := Holds c sessions (Function.update transactions id none)
        (Booked c.toSite sessions
          (Function.update transactions id (some binding)) next))
      (onState_spec (FlowWorkerState.abortDnsTransaction_booked hbound hfits.listen (r.natNow 2)))
      (fun result => ?_) flow ⟨h.workerId, h.config, hentries, hbooked⟩
    rcases result with e | _ | aborted
    · exact .pure fun f hf => hf.state.elim
    · exact .pure fun f hf => by cases hf.state.1
    · have hgone : ∀ f : Flow E, Holds c sessions (Function.update transactions id none)
          (fun state => (some aborted).isSome ∧ Booked c.toSite sessions (Function.update
            (Function.update transactions id (some binding)) id none) next state) f →
          Tracked c sessions (Function.update transactions id none) next f := by
        intro f hf
        have hbooked := hf.state.2
        rw [Function.update_idem] at hbooked
        exact ⟨hf.workerId, hf.config, hf.entries, hbooked⟩
      exact (output_holds _).weaken hgone (fun _ _ hf => hf.following) fun _ hf => hf

theorem retireDnsReverse_spec (binding : NatBinding) (id : SessionId) :
    Act.Triple (Holds c sessions transactions fun state => transactions id = some binding ∧
        sessions id = none ∧ Booked c.toSite sessions
          (Function.update transactions id none) next state)
      (retireDnsReverse binding id : FlowM E Unit)
      (fun _ => Tracked c sessions (Function.update transactions id none) next)
      (fun _ => False) := by
  intro flow h
  obtain ⟨ht, hs, hbooked⟩ := h.state
  have hentries :=
    h.entries.retireTransactions [(id, binding)] (by simpa using ht) (by simpa using hs)
  rw [List.map_cons, List.map_nil, without_singleton] at hentries
  rw [retireDnsReverse, retireEntry_run, h.workerId]
  exact ⟨h.workerId, h.config, hentries, hbooked⟩

/-- What a worker books after `handle_dns_response`. -/
def Completed (c : Scope) (sessions transactions : SessionId → Option NatBinding) (next : UInt64) :
    Except FlowWorkerError (Option HandledDnsResponse) → FlowWorkerState → Prop
  | .ok (some response), state =>
    transactions response.transactionId = some response.binding ∧
      sessions response.transactionId = none ∧
      Booked c.toSite sessions
        (Function.update transactions response.transactionId none) next state
  | _, state => Booked c.toSite sessions transactions next state

theorem handleDnsResponse_completed (packet : Bytes) (natNow : Instant) :
    Act.Triple (Tracked c sessions transactions next : Flow E → Prop)
      (onState (FlowWorkerState.handleDnsResponse packet natNow))
      (fun result => Holds c sessions transactions (Completed c sessions transactions next result))
      (fun _ => False) := by
  refine (onState_spec (FlowWorkerState.handleDnsResponse_booked packet natNow)).weaken
    (fun _ h => h) (fun result f h => ⟨h.workerId, h.config, h.entries, ?_⟩) fun _ h => h
  rcases result with e | _ | response <;> exact h.state

/-- A response takes the entry of its transaction with it. -/
theorem completeDns_spec (next : UInt64)
    (result : Except FlowWorkerError (Option HandledDnsResponse)) :
    Act.Triple (Holds c sessions transactions (Completed c sessions transactions next result))
      (completeDns result : FlowM E Unit) (fun _ => Following c) (fun _ => False) := by
  rcases result with e | _ | response
  · exact .pure fun _ h => Holds.following h
  · exact .pure fun _ h => Holds.following h
  · exact .bind (retireDnsReverse_spec response.binding response.transactionId) fun _ =>
      (output_holds _).weaken (fun _ h => h) (fun _ _ h => Holds.following h) fun _ h => h

theorem sendRestored_holds (result : Except FlowWorkerError (Option HandledReverse)) :
    Act.Triple (Holds c sessions transactions P : Flow E → Prop) (sendRestored result)
      (fun _ => Holds c sessions transactions P) (fun _ => False) := by
  rcases result with e | _ | restored
  · exact .pure fun _ h => h
  · exact .pure fun _ h => h
  · exact output_holds _

theorem handleDnsCandidate_spec (packet : Bytes) (expectedLocator : Option SessionLocator)
    (r : Readings I) :
    Act.Triple (Tracked c sessions transactions next : Flow E → Prop)
      (handleDnsCandidate packet expectedLocator r)
      (fun done flow => if done then Following c flow
        else Tracked c sessions transactions next flow)
      (fun _ => False) := by
  cases expectedLocator with
  | none => exact .pure fun _ h => h
  | some locator =>
    refine flowOf_spec packet (.get fun flow h => .pre (fun f hf => hf ▸ h) ?_)
    refine .ite (fun _ => ?_) fun _ => ?_
    · exact .bind (handleDnsResponse_completed packet (r.natNow 0)) fun result =>
        .bind (completeDns_spec next result) fun _ => .pure fun _ h => h
    · exact .bind (onState_tracked (FlowWorkerState.handleReverseForInner_booked packet locator none
        (r.now 0))) fun result => .bind (sendRestored_holds result) fun _ =>
          .pure fun _ h => Holds.following h

theorem handleDnsReturn_spec (packet : Bytes) (expectedLocator : Option SessionLocator)
    (r : Readings I) :
    Act.Triple (Tracked c sessions transactions next : Flow E → Prop)
      (handleDnsReturn packet expectedLocator r)
      (fun done flow => if done then Following c flow
        else Tracked c sessions transactions next flow)
      (fun _ => False) := by
  refine .get fun flow h => .pre (fun f hf => hf ▸ h) ?_
  cases flow.context.dnsLocalResponse with
  | none => exact .pure fun _ h => h
  | some classifier =>
    refine .bind (Q := fun _ => Tracked c sessions transactions next)
      (flowOf_spec packet (.pure fun _ h => h)) fun candidate => ?_
    exact .ite (fun _ => handleDnsCandidate_spec packet expectedLocator r)
      fun _ => .pure fun _ h => h

/-- A session that is found or opened has no DNS token, unless the identifiers have run
into them. -/
theorem plain_of_enters {id : SessionId} {binding : NatBinding} {directory : ReverseNatDirectory}
    (henters : Enters sessions transactions next next' id binding)
    (h : Entries c.Serves c.w c.strict c.start sessions transactions directory)
    (hnext : c.strict → next.toNat < 2 ^ 63) (hs : c.strict) : ¬ id.IsDnsToken := by
  rcases henters with ⟨hheld, -⟩ | ⟨-, -, rfl, -⟩
  · exact h.plain hs id binding hheld
  · exact Nat.not_le.mpr (hnext hs)

/-- What follows the publication of a session a packet was forwarded for. -/
theorem publishForwarded_spec {id : SessionId} (hnext : c.strict → next.toNat < 2 ^ 63)
    (site : ℕ) (r : Readings I) {send : FlowM E Unit}
    (hsend : ∀ sessions' next', Act.Triple (Tracked c sessions' transactions next') send
      (fun _ => Following c) fun _ => False) :
    Act.Triple (Holds c sessions transactions fun state => ∃ binding next',
        Enters sessions transactions next next' id binding ∧
        Booked c.toSite
          (Function.update sessions id (some binding)) transactions next' state)
      (do if ← publishSession id site r then send else return ())
      (fun _ => Following c) (fun _ => False) := by
  intro flow h
  obtain ⟨binding, next', henters, hbooked⟩ := h.state
  refine Act.Triple.bind
    (publishSession_spec henters (plain_of_enters henters h.entries hnext) site r)
    (fun published => ?_) flow ⟨h.workerId, h.config, h.entries, hbooked⟩
  cases published with
  | true => exact hsend _ _
  | false => exact .pure fun _ hf => Holds.following hf

theorem following_of_tracked {x : FlowM E α}
    (hx : ∀ sessions transactions next, Act.Triple (Tracked c sessions transactions next) x
      (fun _ => Tracked c sessions transactions next) fun _ => False) :
    Act.Triple (Following c) x (fun _ => Following c) fun _ => False := by
  rintro flow ⟨sessions, transactions, next, h⟩
  exact (hx sessions transactions next).weaken (fun _ h => h) (fun _ _ h => Holds.following h)
    (fun _ h => h) flow h

theorem handleClientInner_spec (packet : Bytes) (r : Readings I) :
    Act.Triple (Tracked c sessions transactions next : Flow E → Prop) (handleClientInner packet r)
      (fun _ => Following c) (fun _ => False) := by
  refine .bind (Q := fun result => Holds c sessions transactions
      (Completed c sessions transactions next result))
    (.get fun flow h => .pre (fun f hf => hf ▸ h) (flowOf_spec packet ?_)) fun result => ?_
  · exact .ite (fun _ => handleDnsResponse_completed packet (r.natNow 1)) fun _ =>
      .pure fun _ h => h
  · rcases result with e | _ | response
    · exact completeDns_spec next (.error e)
    · exact .bind (onState_tracked (FlowWorkerState.handleReverse_booked packet (r.now 2)))
        fun restored => (sendRestored_holds restored).weaken (fun _ h => h)
          (fun _ _ h => Holds.following h) fun _ h => h
    · exact completeDns_spec next (.ok (some response))

theorem handleServerPacket_spec (hnext : c.strict → next.toNat < 2 ^ 63) (packet : Bytes)
    (r : Readings I) :
    Act.Triple (Tracked c sessions transactions next : Flow E → Prop) (handleServerPacket packet r)
      (fun _ => Following c) (fun _ => False) := by
  refine .get fun flow h => .pre (fun f hf => hf ▸ h) (.bind (onState_spec
    (FlowWorkerState.forwardInner_booked flow.context.defaultIntercept packet
      flow.context.quicFlow _ (r.now 1) (r.natNow 1))) fun result => ?_)
  rcases result with e | handled
  · exact .pure fun _ h => Holds.following h
  · exact publishForwarded_spec hnext 2 r fun _ _ => (output_holds _).weaken (fun _ h => h)
      (fun _ _ h => Holds.following h) fun _ h => h

/-- No remote query is waiting. -/
def NoRemote (flow : Flow E) : Prop :=
  ∀ key transaction, flow.context.state.dnsByKey.get key = some transaction →
    transaction.remote = false

/-- The entries of the aborted queries are left behind: with one of them waiting,
nothing is known of the entries of DNS tokens any more. -/
theorem abortRemote_spec (r : Readings I) :
    Act.Triple (fun flow : Flow E => Tracked c sessions transactions next flow ∧
        (c.strict → flow.NoRemote)) (abortRemote r) (fun _ => Following c) (fun _ => False) := by
  refine .get fun flow ⟨h, hquiet⟩ => ?_
  cases hconfig : flow.context.dnsConfig with
  | none => exact .pure fun f hf => Holds.following (hf ▸ h)
  | some config =>
    have hfits := h.config config hconfig
    by_cases hs : c.strict
    · have hrun :
          (onState (FlowWorkerState.abortRemoteDnsTransactions config (r.loop 1))).run flow =
          (.ok (.ok []), flow) := by
        simp only [onState, Act.attempt, Act.zoom,
          FlowWorkerState.abortRemoteDnsTransactions_quiet (hquiet hs) config (r.loop 1), mapErr]
      intro f hf
      rw [hf]
      dsimp only
      rw [Act.bind_of_ok hrun]
      exact h.following
    · refine .pre (fun f hf => hf ▸ h) (.bind (onState_spec
        (FlowWorkerState.abortRemoteDnsTransactions_booked hfits.listen (r.loop 1)))
        fun result => .pure fun f hf => ?_)
      rcases result with e | answers
      · exact hf.state.elim
      · exact ⟨sessions, _, next, hf.workerId, hf.config, hf.entries.forget hs _, hf.state.2⟩

theorem retireExpired_run (expired : List Session) (flow : Flow E) :
    (expired.forM fun session => retireEntry session.nat session.id).run flow =
      (.ok (), { flow with
        reverseNat := flow.reverseNat.retireAll flow.context.workerId
          (expired.map fun session => (session.id, session.nat)) }) := by
  induction expired generalizing flow with
  | nil => rfl
  | cons session rest ih =>
    rw [List.forM, Act.bind_of_ok (retireEntry_run _ _ _), ih]
    rfl

theorem expireIdleSessions_spec (r : Readings I) :
    Act.Triple (Tracked c sessions transactions next : Flow E → Prop) (expireIdleSessions r)
      (fun _ => Following c) (fun _ => False) := by
  refine .bind (onState_spec (FlowWorkerState.expireIdleSessions_booked (r.now 0) (r.loop 0)))
    fun result => ?_
  rcases result with e | expired
  · exact .pure fun _ h => h.state.elim
  · intro flow h
    obtain ⟨hexpired, hbooked⟩ := h.state
    rw [retireExpired_run, h.workerId]
    refine ⟨_, transactions, next, h.workerId, h.config, h.entries.retireSessions _ ?_, ?_⟩
    · intro entry hentry
      obtain ⟨session, hs, rfl⟩ := List.mem_map.mp hentry
      exact hexpired session hs
    · rwa [List.map_map]

theorem retireAnswered_run (answers : List ExpiredDnsTransaction) (flow : Flow E) :
    (answers.forM fun expired => do
      retireDnsReverse expired.binding expired.transactionId
      sendIo expired.transmit : FlowM E Unit).run flow = (.ok (),
      { flow with
        reverseNat := flow.reverseNat.retireAll flow.context.workerId
          (answers.map fun expired => (expired.transactionId, expired.binding))
        outputs := flow.outputs ++ answers.map fun expired => .io expired.transmit }) := by
  induction answers generalizing flow with
  | nil => simp [List.forM, ReverseNatDirectory.retireAll]
  | cons answer rest ih =>
    have hone : (do
        retireDnsReverse answer.binding answer.transactionId
        sendIo answer.transmit : FlowM E Unit).run flow = (.ok (),
          { flow with
            reverseNat := flow.reverseNat.retireAll flow.context.workerId
              [(answer.transactionId, answer.binding)]
            outputs := flow.outputs ++ [.io answer.transmit] }) := rfl
    rw [List.forM, Act.bind_of_ok hone, ih]
    simp [ReverseNatDirectory.retireAll]

theorem expireDnsTransactions_spec (r : Readings I) :
    Act.Triple (Tracked c sessions transactions next : Flow E → Prop) (expireDnsTransactions r)
      (fun _ => Following c) (fun _ => False) := by
  refine .get fun flow h => ?_
  cases hconfig : flow.context.dnsConfig with
  | none => exact .pure fun f hf => Holds.following (hf ▸ h)
  | some config =>
    refine .pre (fun f hf => hf ▸ h) (.bind (onState_spec
      (FlowWorkerState.expireDnsTransactions_booked (r.now 0) (h.config config hconfig).listen
        (r.loop 0))) fun result => ?_)
    rcases result with e | answers
    · exact .pure fun _ h => h.state.elim
    · intro flow h
      obtain ⟨hanswers, hbooked⟩ := h.state
      rw [retireAnswered_run, h.workerId]
      refine ⟨sessions, _, next, h.workerId, h.config, h.entries.retireTransactions _ ?_ ?_, ?_⟩
      · intro entry hentry
        obtain ⟨answer, ha, rfl⟩ := List.mem_map.mp hentry
        exact (hanswers answer ha).1
      · intro entry hentry
        obtain ⟨answer, ha, rfl⟩ := List.mem_map.mp hentry
        exact (hanswers answer ha).2
      · rwa [List.map_map]

end WorkerSide

section EngineSide

variable [Engine E I] {c : Scope} {sessions transactions : SessionId → Option NatBinding}
  {next : UInt64} {P : FlowWorkerState → Prop}

theorem sendInner_holds (packet : Bytes) (site : ℕ) (r : Readings I) :
    Act.Triple (Holds c sessions transactions P : Flow E → Prop) (sendInner packet site r)
      (fun _ => Holds c sessions transactions P) (fun _ => False) :=
  .bind (output_holds _) fun _ => onEngine_holds _

theorem sendOrQueueInner_holds (packet : Bytes) (epoch : UInt64) (site : ℕ) (r : Readings I) :
    Act.Triple (Holds c sessions transactions P : Flow E → Prop)
      (sendOrQueueInner packet epoch site r)
      (fun _ => Holds c sessions transactions P) (fun _ => False) := by
  refine .bind (sendInner_holds packet site r) fun result => ?_
  rcases result with e | _
  · cases e with
    | notConnected | notAuthenticated =>
      refine .get fun flow h => .pre (fun f hf => hf ▸ h) ?_
      cases flow.pendingInner.push epoch packet with
      | none => exact .pure fun _ h => h
      | some pendingInner =>
        exact .bind (.modify fun _ h => ⟨h.workerId, h.config, h.entries, h.state⟩)
          fun _ => .pure fun _ h => h
    | _ => exact .pure fun _ h => h
  · exact .pure fun _ h => h

theorem handleDnsIngress_spec (ioOwner : IoOwnerKey) (packet : Bytes) {config : DnsFlowConfig}
    (hfits : Fits c.toSite config) (epoch : UInt64) (r : Readings I) :
    Act.Triple (Tracked c sessions transactions next : Flow E → Prop)
      (handleDnsIngress ioOwner packet config epoch r)
      (fun done flow => if done then Following c flow
        else Tracked c sessions transactions next flow)
      (fun _ => False) := by
  refine .bind (onState_spec (FlowWorkerState.handleDnsQueryAt_booked ioOwner packet hfits (r.now 1)
    (r.natNow 1))) fun result => ?_
  rcases result with e | transmit | packet | transmit
  · have hdone : Act.Triple (Tracked c sessions transactions next : Flow E → Prop)
        (return true : FlowM E Bool) (fun done flow => if done then Following c flow
          else Tracked c sessions transactions next flow) (fun _ => False) :=
      .pure fun _ h => Holds.following h
    cases e with
    | dns e => cases e with
      | notDnsQuery => exact .pure fun _ h => h
    | _ => exact hdone
  · exact .bind (publishOrAbort_spec hfits r ((output_holds _).weaken (fun _ h => h)
      (fun _ _ h => Holds.following h) fun _ h => h)) fun _ => .pure fun _ h => h
  · exact .bind (publishOrAbort_spec hfits r (.bind (sendOrQueueInner_holds packet epoch 2 r)
      fun _ => .pure fun _ h => Holds.following h)) fun _ => .pure fun _ h => h
  · exact .bind (output_holds _) fun _ => .pure fun _ h => Holds.following h

theorem handleForward_spec (hnext : c.strict → next.toNat < 2 ^ 63) (ioOwner : IoOwnerKey)
    (packet : Bytes) (epoch : UInt64) (r : Readings I) :
    Act.Triple (Tracked c sessions transactions next : Flow E → Prop)
      (handleForward ioOwner packet epoch r) (fun _ => Following c) (fun _ => False) := by
  refine .get fun flow h => .pre (fun f hf => hf ▸ h) (.ite (fun _ => .pure fun _ h =>
    Holds.following h) fun _ => ?_)
  refine .bind (onState_spec (FlowWorkerState.forwardInner_booked ioOwner packet
    flow.context.quicFlow _ (r.now 3) (r.natNow 3))) fun result => ?_
  rcases result with e | handled
  · exact .pure fun _ h => Holds.following h
  · refine publishForwarded_spec hnext 4 r fun sessions' next' =>
      .bind (sendOrQueueInner_holds handled.transmit.packet epoch 5 r) fun outcome => ?_
    cases outcome with
    | dropped => exact retireSession_spec handled.sessionId 6 r
    | _ => exact .pure fun _ h => Holds.following h

theorem handleClientIngress_spec (hnext : c.strict → next.toNat < 2 ^ 63) (ioOwner : IoOwnerKey)
    (packet : Bytes) (expectedLocator : Option SessionLocator) (epoch : UInt64) (r : Readings I) :
    Act.Triple (Tracked c sessions transactions next : Flow E → Prop)
      (handleClientIngress ioOwner packet expectedLocator epoch r) (fun _ => Following c)
      (fun _ => False) := by
  refine .get fun flow h => ?_
  cases hconfig : flow.context.dnsConfig with
  | none => exact .pre (fun f hf => hf ▸ h) (handleForward_spec hnext ioOwner packet epoch r)
  | some config =>
    have hfits := h.config config hconfig
    refine .pre (fun f hf => hf ▸ h) (.bind (handleDnsReturn_spec packet expectedLocator r)
      fun done => .ite (fun hdone => .pure fun f hf => by rwa [if_pos hdone] at hf) fun hdone => ?_)
    refine .get fun flow h => ?_
    rw [if_neg hdone] at h
    have hfits' : Fits c.toSite
        { config with remoteAvailable := Engine.isAuthenticated flow.context.engine } :=
      ⟨hfits.listen, hfits.capacity, hfits.localResolver, hfits.remoteResolver⟩
    refine .pre (fun f hf => hf ▸ h) (.bind (handleDnsIngress_spec ioOwner packet hfits' epoch r)
      fun done => .ite (fun hdone => .pure fun f hf => by rwa [if_pos hdone] at hf) fun hdone => ?_)
    exact (handleForward_spec hnext ioOwner packet epoch r).pre fun f hf => by
      rwa [if_neg hdone] at hf

theorem handleServerIngress_spec (ioOwner : IoOwnerKey) (packet : Bytes)
    (expectedLocator : Option SessionLocator) (epoch : UInt64) (r : Readings I) :
    Act.Triple (Tracked c sessions transactions next : Flow E → Prop)
      (handleServerIngress ioOwner packet expectedLocator epoch r) (fun _ => Following c)
      (fun _ => False) := by
  refine .get fun flow h => .pre (fun f hf => hf ▸ h) ?_
  cases expectedLocator with
  | none => exact .pure fun _ h => Holds.following h
  | some locator =>
    refine .ite (fun _ => .pure fun _ h => Holds.following h) fun _ => .bind (onState_tracked
      (FlowWorkerState.handleReverseForInner_booked packet locator (some ioOwner) (r.now 0)))
        fun result => ?_
    rcases result with e | _ | restored
    · exact .pure fun _ h => Holds.following h
    · exact .pure fun _ h => Holds.following h
    · exact .bind (sendOrQueueInner_holds restored.packet epoch 1 r)
        fun _ => .pure fun _ h => Holds.following h

theorem handleFlowMessage_spec (hnext : c.strict → next.toNat < 2 ^ 63) (message : FlowMessage)
    (epoch : UInt64) (r : Readings I) :
    Act.Triple (Tracked c sessions transactions next : Flow E → Prop)
      (handleFlowMessage message epoch r) (fun _ => Following c) (fun _ => False) := by
  cases message with
  | interceptIngress ioOwner packet expectedLocator =>
    refine .get fun flow h => .pre (fun f hf => hf ▸ h) ?_
    cases flow.context.role with
    | client => exact handleClientIngress_spec hnext ioOwner packet expectedLocator epoch r
    | server => exact handleServerIngress_spec ioOwner packet expectedLocator epoch r
  | tunnelIngress ioOwner dcid remote localIp packet =>
    exact fun flow h => ⟨sessions, transactions, next, h.workerId, h.config, h.entries, h.state⟩
  | reloadPolicies remoteDomains =>
    refine .modify fun flow h => ⟨sessions, transactions, next, ?_⟩
    cases hconfig : flow.context.dnsConfig with
    | none => simpa only [hconfig] using h
    | some config =>
      cases remoteDomains with
      | none => simpa only [hconfig] using h
      | some domains =>
        have hfits := h.config config hconfig
        refine ⟨h.workerId, fun config' hconfig' => ?_, h.entries, h.state⟩
        cases hconfig'
        exact ⟨hfits.listen, hfits.capacity, hfits.localResolver, hfits.remoteResolver⟩

theorem flushPending_holds (r : Readings I) (site : ℕ) (packets : List Bytes) :
    Act.Triple (Holds c sessions transactions P : Flow E → Prop) (flushPending r site packets)
      (fun _ => Holds c sessions transactions P) (fun _ => False) := by
  induction packets generalizing site with
  | nil => exact .pure fun _ h => h
  | cons packet rest ih =>
    refine .bind (sendInner_holds packet site r) fun result => ?_
    rcases result with e | _
    · exact .pure fun _ h => h
    · exact .bind (.modify fun _ h => ⟨h.workerId, h.config, h.entries, h.state⟩) fun _ => ih _

theorem handleClosed_spec (epoch : UInt64) (r : Readings I) :
    Act.Triple (fun flow : Flow E => Tracked c sessions transactions next flow ∧
        (c.strict → flow.NoRemote)) (handleClosed epoch r) (fun _ => Following c)
      (fun _ => False) := by
  refine .bind (Q := fun _ flow => Tracked c sessions transactions next flow ∧
    (c.strict → flow.NoRemote)) (.modify fun flow ⟨h, hq⟩ =>
      ⟨⟨h.workerId, h.config, h.entries, h.state⟩, hq⟩) fun _ =>
        .bind (abortRemote_spec r) fun _ => ?_
  refine .get fun flow h => .pre (fun f hf => hf ▸ h) ?_
  refine .bind (following_of_tracked fun _ _ _ =>
    .modify fun _ h => ⟨h.workerId, h.config, h.entries, h.state⟩) fun _ =>
      .ite (fun _ => .pure fun _ h => h) fun _ => ?_
  dsimp only
  split
  · exact .pure fun _ h => h
  · refine .bind (following_of_tracked fun _ _ _ =>
      .modify fun _ h => ⟨h.workerId, h.config, h.entries, h.state⟩) fun _ => ?_
    refine .bind (following_of_tracked fun _ _ _ =>
      onState_tracked (FlowWorkerState.rebindQuicFlow_booked _ _)) fun _ => ?_
    refine .ite (fun _ => ?_) fun _ => .pure fun _ h => h
    exact .bind (following_of_tracked fun _ _ _ => onEngine_holds _) fun _ =>
      following_of_tracked fun _ _ _ => output_holds _

theorem stageForFlow_total (dcid : Bytes) (quicFlow : QuicFlow) :
    Act.Triple (fun _ => True) (ActiveDcidIndex.stageForFlow dcid quicFlow) (fun _ _ => True)
      fun _ => True := by
  refine .call_bind ensure_ne_panic (fun _ h => h) fun _ _ => .get fun index _ => ?_
  cases index.resolve dcid with
  | none => exact .modify fun _ _ => trivial
  | some existing =>
    exact .ite (fun _ => .pure fun _ _ => trivial) fun _ => .fail fun _ _ => trivial

theorem publishForFlow_total (dcid : Bytes) (quicFlow : QuicFlow) :
    Act.Triple (fun _ => True) (ActiveDcidIndex.publishForFlow dcid quicFlow) (fun _ _ => True)
      fun _ => True := by
  refine .call_bind ensure_ne_panic (fun _ h => h) fun _ _ => .get fun index _ => ?_
  cases index.byDcid.get dcid with
  | some existing =>
    exact .ite (fun _ => .pure fun _ _ => trivial) fun _ => .fail fun _ _ => trivial
  | none =>
    refine .bind (.modify (Q := fun _ _ => True) fun _ _ => trivial) fun _ => ?_
    cases (index.stagedByDcid.get dcid).filter (· ≠ quicFlow.owner) with
    | some existing =>
      exact .bind (.modify (Q := fun _ _ => True) fun _ _ => trivial) fun _ =>
        .fail fun _ _ => trivial
    | none => exact .modify fun _ _ => trivial

theorem checkBatch_ne_panic (index : ActiveDcidIndex) (owner : DcidOwner)
    (dcids unique : List Bytes) : index.checkBatch owner dcids unique ≠ panic := by
  induction dcids generalizing unique with
  | nil => exact ok_ne_panic _
  | cons dcid rest ih =>
    refine bind_ne_panic ensure_ne_panic fun _ _ => ite_ne_panic (fun _ => ih unique) fun _ => ?_
    cases index.resolve dcid with
    | none => exact ih _
    | some existing => exact ite_ne_panic (fun _ => fail_ne_panic _) fun _ => ih _

theorem publishBatchForFlow_total (dcids : List Bytes) (quicFlow : QuicFlow) :
    Act.Triple (fun _ => True) (ActiveDcidIndex.publishBatchForFlow dcids quicFlow)
      (fun _ _ => True) fun _ => True :=
  .get fun index _ => .call_bind (checkBatch_ne_panic index _ _ _) (fun _ _ => trivial)
    fun _ _ => .modify fun _ _ => trivial

theorem handleEngineEvent_spec (hnext : c.strict → next.toNat < 2 ^ 63) (event : QuicEngineEvent)
    (epoch : UInt64) (r : Readings I) :
    Act.Triple (fun flow : Flow E => Tracked c sessions transactions next flow ∧
        (event = .closed → c.strict → flow.NoRemote)) (handleEngineEvent event epoch r)
      (fun _ => Following c) (fun _ => False) := by
  have hfollow : ∀ flow : Flow E, Tracked c sessions transactions next flow ∧
      (event = .closed → c.strict → flow.NoRemote) → Following c flow := fun _ h => h.1.following
  cases event with
  | transmit transmit =>
    exact .pre hfollow (following_of_tracked fun _ _ _ =>
      .modify fun _ h => ⟨h.workerId, h.config, h.entries, h.state⟩)
  | authenticated =>
    exact .get fun flow h => .pre (fun f hf => hf ▸ h) (.pre hfollow (.ite (fun _ =>
      following_of_tracked fun _ _ _ => flushPending_holds r 1 _) fun _ => .pure fun _ h => h))
  | innerPacket packet =>
    refine .get fun flow h => .pre (fun f hf => hf ▸ h.1) ?_
    cases flow.context.role with
    | server => exact handleServerPacket_spec hnext packet r
    | client => exact handleClientInner_spec packet r
  | dcidStaged dcid =>
    refine .get fun flow h => .pre (fun f hf => hf ▸ hfollow flow h) (.bind
      (following_of_tracked fun _ _ _ => onActiveDcids_holds (stageForFlow_total dcid _))
      fun result => ?_)
    rcases result with e | _
    · exact following_of_tracked fun _ _ _ => onEngine_holds _
    · exact .pure fun _ h => h
  | dcidPublished dcid =>
    refine .get fun flow h => .pre (fun f hf => hf ▸ hfollow flow h) (.bind
      (following_of_tracked fun _ _ _ => onActiveDcids_holds (publishForFlow_total dcid _))
      fun result => ?_)
    rcases result with e | _
    · exact following_of_tracked fun _ _ _ => onEngine_holds _
    · exact .pure fun _ h => h
  | dcidRetired dcid =>
    exact .pre hfollow (following_of_tracked fun _ _ _ =>
      .modify fun _ h => ⟨h.workerId, h.config, h.entries, h.state⟩)
  | replaced dcids =>
    refine .get fun flow h => .pre (fun f hf => hf ▸ hfollow flow h) (.bind
      (following_of_tracked fun _ _ _ => onActiveDcids_holds (publishBatchForFlow_total dcids _))
      fun published => .bind (following_of_tracked fun _ _ _ => onEngine_holds _) fun _ => ?_)
    exact .ite (fun _ => following_of_tracked fun _ _ _ =>
      .modify fun _ h => ⟨h.workerId, h.config, h.entries, h.state⟩) fun _ => .pure fun _ h => h
  | closed => exact .pre (fun _ h => ⟨h.1, h.2 rfl⟩) (handleClosed_spec epoch r)

/-- A transport that goes away in this round finds no remote query waiting. -/
def Step.Quiet (flow : Flow E) : Step I → Prop
  | .poll r => (Engine.poll (r.engine 0) (r.now 0) flow.context.engine).1 = some .closed →
    flow.NoRemote
  | _ => True

theorem pollEngine_spec (hnext : c.strict → next.toNat < 2 ^ 63) (epoch : UInt64) (r : Readings I) :
    Act.Triple (fun flow : Flow E => Tracked c sessions transactions next flow ∧
        (c.strict → Step.Quiet flow (.poll r))) (pollEngine epoch r) (fun _ => Following c)
      (fun _ => False) := by
  refine .bind (Q := fun event flow => Tracked c sessions transactions next flow ∧
    (event = some .closed → c.strict → flow.NoRemote)) ?_ fun event => ?_
  · rintro flow ⟨h, hq⟩
    exact ⟨⟨h.workerId, h.config, h.entries, h.state⟩, fun he hs => hq hs he⟩
  · cases event with
    | none => exact .pure fun _ h => h.1.following
    | some event =>
      exact .bind (.pre (fun _ h => ⟨h.1, fun he => h.2 (congrArg some he)⟩)
        (handleEngineEvent_spec hnext event epoch r)) fun _ => .pure fun _ h => h

/-- One step of a worker. -/
theorem step_spec (step : Step I) :
    Act.Triple (fun flow : Flow E => Tracked c sessions transactions next flow ∧
        (c.strict → next.toNat < 2 ^ 63 ∧ step.Quiet flow)) step.act (fun _ => Following c)
      (fun _ => False) := by
  rintro flow ⟨h, hquiet⟩
  have hnext : c.strict → next.toNat < 2 ^ 63 := fun hs => (hquiet hs).1
  have hown := h.following
  cases step with
  | message message r => exact handleFlowMessage_spec hnext message flow.reconnectEpoch r flow h
  | poll r =>
    have hpoll : Act.Triple (fun flow : Flow E => Tracked c sessions transactions next flow ∧
        (c.strict → Step.Quiet flow (.poll r)))
        (do let _ ← pollEngine flow.reconnectEpoch r; return ()) (fun _ => Following c)
        fun _ => False :=
      .bind (pollEngine_spec hnext flow.reconnectEpoch r) fun _ => .pure fun _ h => h
    exact hpoll flow ⟨h, fun hs => (hquiet hs).2⟩
  | expireDnsTransactions r => exact expireDnsTransactions_spec r flow h
  | expireIdleSessions r => exact expireIdleSessions_spec r flow h
  | reconnect epoch r =>
    have hrenew : Act.Triple (Following c : Flow E → Prop) (renewEpoch epoch r)
        (fun _ => Following c) fun _ => False := by
      refine .get fun flow h => .pre (fun f hf => hf ▸ h)
        (.ite (fun _ => ?_) fun _ => .pure fun _ h => h)
      exact .bind (following_of_tracked fun _ _ _ =>
        .modify fun _ h => ⟨h.workerId, h.config, h.entries, h.state⟩) fun _ =>
          following_of_tracked fun _ _ _ => onEngine_holds _
    exact hrenew flow hown
  | exit r =>
    have hclose : Act.Triple (Following c : Flow E → Prop) (closeEngine 0 r) (fun _ => Following c)
        fun _ => False := following_of_tracked fun _ _ _ => onEngine_holds _
    exact hclose flow hown

end EngineSide

end Flow

end NewProxy
