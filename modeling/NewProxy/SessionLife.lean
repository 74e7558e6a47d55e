import NewProxy.WorkerFrame
import NewProxy.WorkerRuns

/-!
# What does not change while a session lives

Packets of either direction, rebinding and the queue correction change the timing
and the carrier of a session, never its flow or its lease. A session that is there
all along a run is therefore the session it was at the start.
-/
namespace NewProxy

open Outcome

/-- The flow and the lease stay; a pinned session also keeps its interface. -/
structure Session.Same (pinned : Prop) (before after : Session) : Prop where
  original : after.original = before.original
  nat : after.nat = before.nat
  interceptIo : pinned → after.interceptIo = before.interceptIo

theorem Session.Same.refl (pinned : Prop) (session : Session) : session.Same pinned session :=
  ⟨rfl, rfl, fun _ => rfl⟩

theorem Session.Same.trans {pinned : Prop} {a b c : Session} (h : a.Same pinned b)
    (h' : b.Same pinned c) : a.Same pinned c :=
  ⟨h'.original.trans h.original, h'.nat.trans h.nat,
    fun hp => (h'.interceptIo hp).trans (h.interceptIo hp)⟩

namespace SessionTable

variable {pinned : Prop} {id : SessionId} {session : Session}

/-- The session, where it is still there, is the one it was. -/
def Kept (pinned : Prop) (id : SessionId) (session : Session) (table : SessionTable) : Prop :=
  ∀ now, table.sessions.get id = some now → session.Same pinned now

theorem kept_endable (pinned : Prop) (id : SessionId) (session : Session) :
    Endable (Session.Same pinned) (Kept pinned id session) where
  nat _ _ _ h := h
  replaced sessionId table before after _ h hs hsame now hnow := by
    rw [HashMap.get_insert] at hnow
    split_ifs at hnow with hid
    · subst hid
      cases hnow
      exact (h before hs).trans hsame
    · exact h now hnow
  rebound table f hf h now hnow := by
    rw [HashMap.get_mapValues] at hnow
    obtain ⟨before, hs, rfl⟩ := Option.map_eq_some_iff.mp hnow
    exact (h before hs).trans (hf before)
  ended table sessionId _ _ h now hnow := by
    rw [HashMap.get_remove] at hnow
    split_ifs at hnow
    exact h now hnow
  deadlines _ _ h := h

/-- A coherent table in which the session is there and is the one it was. -/
structure Holds (first last : UInt16) (ephemeral : SessionId → Option NatBinding) (owner : ℕ)
    (pinned : Prop) (id : SessionId) (session : Session) (table : SessionTable) : Prop where
  coherent : table.Coherent first last ephemeral
  owner : table.ownerWorkerId = owner
  session : ∃ now, table.sessions.get id = some now ∧ session.Same pinned now

theorem Holds.kept {first last : UInt16} {ephemeral : SessionId → Option NatBinding} {owner : ℕ}
    {table : SessionTable} (h : Holds first last ephemeral owner pinned id session table) :
    Kept pinned id session table := by
  obtain ⟨now, hs, hsame⟩ := h.session
  intro now' hs'
  rw [hs, Option.some_inj] at hs'
  exact hs' ▸ hsame

/-- A new session does not take the place of one that is there. -/
theorem getOrCreateWithFlagsAt_holds {first last : UInt16}
    {ephemeral : SessionId → Option NatBinding} {owner : ℕ} (original : FlowKey)
    (interceptIo : IoOwnerKey) (quicFlowId : QuicFlowId) (flags : Option UInt8) (isReverse : Bool)
    (now natNow : Instant) :
    Act.Stable (Holds first last ephemeral owner pinned id session)
      (getOrCreateWithFlagsAt owner original interceptIo quicFlowId flags isReverse now
      natNow) := by
  rintro table ⟨h, rfl, before, hs, hsame⟩
  obtain ⟨-, hco, ho, -⟩ := getOrCreateWithFlagsAt_coherent h original interceptIo quicFlowId flags
    isReverse now natNow
  refine ⟨hco, ho, ?_⟩
  rcases getOrCreateWithFlagsAt_cases h.toLinked original interceptIo quicFlowId flags isReverse now
    natNow with ⟨e, quarantined, -, hrun⟩ | ⟨other, found, hid, -, hrun⟩ |
      ⟨opened, nat, -, -, hopen, hrun⟩ <;> rw [hrun]
  · exact ⟨before, hs, hsame⟩
  · by_cases hc : id = other
    · subst hc
      rw [hs, Option.some_inj] at hid
      subst hid
      exact ⟨_, (HashMap.get_insert _ _ _ _).trans (if_pos rfl),
        hsame.trans ⟨rfl, rfl, fun _ => rfl⟩⟩
    · exact ⟨before, ((HashMap.get_insert _ _ _ _).trans (if_neg hc)).trans hs, hsame⟩
  · have hne : id ≠ opened.id := by
      intro hc
      rw [hc, (h.toLinked.free hopen.free).1] at hs
      cases hs
    exact ⟨before, ((HashMap.get_insert _ _ _ _).trans (if_neg hne)).trans hs, hsame⟩

end SessionTable

namespace FlowWorkerState

section Life

variable {pinned : Prop} {id : SessionId} {session : Session} {ε α : Type}
  {R : Session → Session → Prop} {P : SessionTable → Prop}

open SessionTable (Steady)

/-- `SessionTable.Kept`, for the worker that owns the table. -/
def Kept (pinned : Prop) (id : SessionId) (session : Session) (state : FlowWorkerState) : Prop :=
  state.sessions.Kept pinned id session

theorem onSessions_steady {e : SessionError → ε} {x : Act SessionTable SessionError α}
    (h : Act.Stable P x) : Act.Stable (fun s : FlowWorkerState => P s.sessions) (onSessions e x) :=
  .zoom h fun _ _ => rfl

/-- A pinned session has to be left where it is. -/
theorem steady_returnable (hP : Steady (Session.Same pinned) P) (id : SessionId)
    {observed : Option IoOwnerKey} (hpin : pinned → observed = none) :
    Returnable (fun s => P s.sessions) id observed where
  stats _ _ h := h
  corrects owner caller ho := onSessions_steady (SessionTable.correctInterceptIo_steady
    (hP.replaced id) (fun _ _ => ⟨rfl, rfl, fun hp => by cases (hpin hp).symm.trans ho⟩)
    caller owner)
  touches caller flags now := onSessions_steady (SessionTable.touchTcp_steady (hP.replaced id)
    (fun _ _ _ => ⟨rfl, rfl, fun _ => rfl⟩) caller flags true now)

theorem steady_closable (hP : Steady R P) : Closable fun s => P s.sessions where
  stats _ _ h := h
  releases _ _ _ _ := onSessions_steady (SessionTable.releaseEphemeralNat_steady hP _ _ _)
  unfile _ _ _ h := h
  deadlines _ _ h := h

theorem openDnsTransaction_steady (hP : Steady R P) (ioOwner : IoOwnerKey) (packet : Bytes)
    (flow : FlowKey) (key : DnsFlowTransactionKey) (resolver : SocketAddr) (remote : Bool)
    (config : DnsFlowConfig) (now natNow : Instant) :
    Act.Stable (fun s : FlowWorkerState => P s.sessions)
      (openDnsTransaction ioOwner packet flow key resolver remote config now natNow) := by
  have hstats : Uncounted fun s => P s.sessions := fun _ _ h => h
  refine .bind .get fun state => .ite (refuseQuery_frame hstats _ _ _ _ _)
    (.ite (refuseQuery_frame hstats _ _ _ _ _) (.bind (.bind .get fun _ =>
      .bind (.modify fun _ h => h) fun _ => .pure _) fun token => .bind (.attempt
        (onSessions_steady (SessionTable.allocateEphemeralNat_steady hP _ _ _ _)))
          fun result => ?_))
  rcases result with error | binding
  · exact .ite (refuseQuery_frame hstats _ _ _ _ _) (.fail _)
  · refine .bind (.modify fun state h => ?_) fun _ => .bind hstats.countActive fun _ =>
      .bind (hstats.count _) fun _ => .lift _ _
    obtain ⟨completed, order, heq⟩ := fileTransaction_eq key _ state
    rw [heq]
    exact h

theorem handleDnsQueryAt_steady (hP : Steady R P) (ioOwner : IoOwnerKey) (packet : Bytes)
    (config : DnsFlowConfig) (now natNow : Instant) :
    Act.Stable (fun s : FlowWorkerState => P s.sessions)
      (handleDnsQueryAt ioOwner packet config now natNow) :=
  handleDnsQueryAt_leads_of (fun _ _ h => h) (fun _ h => h)
    (fun _ packet flow key resolver remote _ _ =>
      openDnsTransaction_steady hP ioOwner packet flow key resolver remote config now natNow) packet

theorem rebindQuicFlow_steady (hP : Steady (Session.Same pinned) P) (oldId newId : QuicFlowId) :
    Act.Stable (fun s : FlowWorkerState => P s.sessions) (rebindQuicFlow oldId newId) :=
  .bind .get fun _ => onSessions_steady (SessionTable.rebindQuicFlow_steady hP
    (fun _ _ => ⟨rfl, rfl, fun _ => rfl⟩) _ oldId newId)

variable {first last : UInt16} {strict : Prop} {listen : SocketAddr} {capacity : ℕ}
  {ephemeral : SessionId → Option NatBinding} {state : FlowWorkerState}

/-- Packets on their way out open sessions and end none. -/
theorem forwardInner_holds (owner : ℕ) (io : IoOwnerKey) (packet : Bytes) (quicFlow : QuicFlow)
    (target : Session → IoOwnerKey) (now natNow : Instant) :
    Act.Stable (fun s : FlowWorkerState => s.workerId = owner ∧
        s.sessions.Holds first last ephemeral owner pinned id session)
      (forwardInner io packet quicFlow target now natNow) := by
  refine forwardInner_frame (fun _ _ h => h) (fun state flow flags hs => ?_) packet target
  rw [hs.1]
  exact fun s hs => ⟨hs.1, SessionTable.getOrCreateWithFlagsAt_holds _ _ _ _ _ _ _ _ hs.2⟩

/-- Only `handle_server_reverse` corrects the queue of a session. -/
def Op.corrects : Op → Bool
  | .handleServerReverse .. => true
  | _ => false

theorem discard_stable {P : FlowWorkerState → Prop} {e : ε → FlowWorkerError}
    {x : Act FlowWorkerState ε α} (h : Act.Stable P x) : Act.Stable P (discard e x) := h

/-- One call leaves a session the same, or ends it. -/
theorem call_kept (h : Sound first last strict listen capacity state)
    {before : Session} (hs : state.sessions.get id = some before)
    (hsame : session.Same pinned before)
    (config : DnsFlowConfig) (op : Op) (hpin : pinned → op.corrects = false) :
    Kept pinned id session ((op.call config).run state).2 := by
  obtain ⟨ephemeral, hl, -⟩ := h
  have hholds : state.sessions.Holds first last ephemeral state.workerId pinned id session :=
    ⟨hl.sessions, hl.owner, before, hs, hsame⟩
  have hkept : Kept pinned id session state := hholds.kept
  have hP := SessionTable.kept_endable pinned id session
  have hreturns : ∀ id {observed}, (pinned → observed = none) →
      Returnable (Kept pinned _ session) id observed := fun id _ => steady_returnable hP.toSteady id
  have hcloses : Closable (Kept pinned id session) := steady_closable hP.toSteady
  cases op with
  | handleIntercept ioOwner packet quicFlow tunnelTarget now natNow =>
    exact (discard_stable (forwardInner_holds _ _ _ _ _ _ _) state ⟨rfl, hholds⟩).2.kept
  | handleServerInner defaultIntercept packet quicFlow now natNow =>
    exact (discard_stable (forwardInner_holds _ _ _ _ _ _ _) state ⟨rfl, hholds⟩).2.kept
  | handleReverse packet now =>
    exact discard_stable (handleReverse_frame (fun id => hreturns id fun _ => rfl) _ _) state hkept
  | handleReverseFor packet locator now =>
    exact discard_stable (handleReverseForInner_frame (hreturns _ fun _ => rfl) _ _) state hkept
  | handleServerReverse observed packet locator now =>
    exact discard_stable (handleReverseForInner_frame (hreturns _ fun hp => by cases hpin hp) _ _)
      state hkept
  | expireIdleSessions now clock =>
    exact discard_stable (.bind .get fun _ => onSessions_steady
      (SessionTable.expireIdle_endable hP _ now clock)) state hkept
  | removeSession sessionId natNow =>
    exact discard_stable (.bind .get fun _ => onSessions_steady
      (SessionTable.remove_endable hP _ sessionId natNow)) state hkept
  | removeByQuicFlow quicFlowId clock =>
    exact discard_stable (.bind .get fun _ => .bind (onSessions_steady
      (SessionTable.removeByQuicFlow_endable hP _ quicFlowId clock)) fun _ => .pure _) state hkept
  | rebindQuicFlow oldId newId =>
    exact discard_stable (rebindQuicFlow_steady hP.toSteady oldId newId) state hkept
  | handleDnsQueryAt ioOwner packet now natNow =>
    exact discard_stable (handleDnsQueryAt_steady hP.toSteady _ _ _ _ _) state hkept
  | handleDnsResponse packet natNow =>
    exact discard_stable (handleDnsResponse_frame hcloses (fun _ _ h => h) _ _) state hkept
  | expireDnsTransactions now clock =>
    exact discard_stable (expireDnsTransactions_frame hcloses now config clock) state hkept
  | abortDnsTransaction binding natNow =>
    exact discard_stable (abortDnsTransaction_frame hcloses _ _ _) state hkept
  | abortRemoteDnsTransactions clock =>
    exact discard_stable (abortRemoteDnsTransactions_frame hcloses config clock) state hkept
  | removeDnsTransactions clock =>
    exact discard_stable (removeDnsTransactions_leads hcloses.toReleasable (fun _ h => h) clock)
      state hkept

/-- The session is there at the start, after every call and at the end of a run. -/
def StaysLive (id : SessionId) : FlowWorkerState → List (DnsFlowConfig × Op) → Prop
  | state, [] => ∃ session, state.sessions.get id = some session
  | state, op :: rest => (∃ session, state.sessions.get id = some session) ∧
    StaysLive id ((op.2.call op.1).run state).2 rest

theorem StaysLive.start {ops : List (DnsFlowConfig × Op)} (h : StaysLive id state ops) :
    ∃ session, state.sessions.get id = some session := by
  cases ops with
  | nil => exact h
  | cons op rest => exact h.1

/-- A session that is there all along a run is the one it was at the start. -/
theorem after_same {ops : List (DnsFlowConfig × Op)}
    (h : Sound first last False listen capacity state) (hlive : StaysLive id state ops)
    (hs : state.sessions.get id = some session)
    (hpin : pinned → ∀ op ∈ ops, op.2.corrects = false) :
    ∃ now, (state.after ops).sessions.get id = some now ∧ session.Same pinned now := by
  induction ops generalizing state session with
  | nil => exact ⟨session, hs, .refl _ _⟩
  | cons op rest ih =>
    have hkept : Kept pinned id session ((op.2.call op.1).run state).2 :=
      call_kept h hs (.refl _ _) op.1 op.2 fun hp => hpin hp op (by simp)
    obtain ⟨next, hnext⟩ := hlive.2.start
    obtain ⟨now, hnow, hsame⟩ :=
      ih ((call_sound op.1 (fun hs => hs.elim) op.2).state h) hlive.2 hnext
      fun hp op' hop' => hpin hp op' (List.mem_cons_of_mem _ hop')
    exact ⟨now, hnow, (hkept next hnext).trans hsame⟩

end Life

end FlowWorkerState

end NewProxy
