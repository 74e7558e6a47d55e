import NewProxy.SessionTable

/-!
# Coherence of the session table

`Linked` ties the key index and the SNAT leases to the sessions, `Coherent` the
deadlines as well. Every operation of the table keeps them; the lemmas below say
for each operation what it returns and what it leaves behind, so that no caller
looks into its definition again.
-/
namespace NewProxy.SessionTable

open Outcome (ensure okOr)

section Coherence

variable {first last : UInt16} {ephemeral : SessionId → Option NatBinding} {table : SessionTable}
  {sessionId : SessionId} {session : Session}

/-- The leases behind a table: one for each session and one for each ephemeral
binding, all of them located at the owner. -/
def ledger (table : SessionTable) (ephemeral : SessionId → Option NatBinding) :
    NatTable.Ledger := fun id =>
  ((table.sessions.get id).map Session.nat <|> ephemeral id).map
    fun binding => ⟨binding, ⟨table.ownerWorkerId, id⟩⟩

/-- Everything but the deadlines. -/
structure Linked (first last : UInt16) (ephemeral : SessionId → Option NatBinding)
    (table : SessionTable) : Prop where
  nat : table.nat.Represents first last (table.ledger ephemeral)
  disjoint : ∀ id session, table.sessions.get id = some session → ephemeral id = none
  byKey : ∀ key id, table.byKey.get key = some id ↔
    ∃ session, table.sessions.get id = some session ∧ session.key = key
  session : ∀ id session, table.sessions.get id = some session →
    session.id = id ∧ session.flowWorkerId = table.ownerWorkerId ∧
      session.nat.original = session.original

/-- The deadlines that should be filed. -/
def due (table : SessionTable) (id : SessionId) : Option Instant :=
  (table.sessions.get id).map Session.expiresAt

structure Coherent (first last : UInt16) (ephemeral : SessionId → Option NatBinding)
    (table : SessionTable) : Prop extends Linked first last ephemeral table where
  deadlines : table.deadlines.Indexes table.due

/-- A new table holds nothing. -/
theorem coherent_newDual {owner : ℕ} {snatIpv4 : Option (Vector UInt8 4)}
    {snatIpv6 : Option (Vector UInt8 16)}
    (h : newDual owner snatIpv4 snatIpv6 first last = .ok table) :
    table.Coherent first last (fun _ => none) ∧ table.ownerWorkerId = owner := by
  obtain ⟨nat, hnat, h⟩ := Outcome.bind_eq_ok.mp h
  cases h
  refine ⟨⟨⟨?_, by simp, by simp, by simp⟩, ?_⟩, rfl⟩
  · exact NatTable.represents_newDual (Outcome.mapErr_eq_ok.mp hnat)
  · exact DeadlineIndex.indexes_empty

/-- The table with a session put in the place of an old one. -/
def withSession (table : SessionTable) (id : SessionId) (session : Session)
    (deadlines : DeadlineIndex SessionId) : SessionTable :=
  { table with sessions := table.sessions.insert id session, deadlines }

theorem Linked.withSession (h : Linked first last ephemeral table) {session' : Session}
    (hid : table.sessions.get sessionId = some session) (hkey : session'.key = session.key)
    (hnat : session'.nat = session.nat) (hfields : session'.id = session.id ∧
      session'.flowWorkerId = session.flowWorkerId) (deadlines : DeadlineIndex SessionId) :
    Linked first last ephemeral (table.withSession sessionId session' deadlines) := by
  have hget : ∀ id, (table.withSession sessionId session' deadlines).sessions.get id =
      if id = sessionId then some session' else table.sessions.get id :=
    fun id => HashMap.get_insert _ _ _ _
  refine ⟨?_, ?_, ?_, ?_⟩
  · have hledger : (table.withSession sessionId session' deadlines).ledger ephemeral =
        table.ledger ephemeral := by
      funext id
      simp only [ledger, hget]
      split_ifs with hc
      · subst hc
        simp [hid, hnat, SessionTable.withSession]
      · rfl
    rw [hledger]
    exact h.nat
  · intro id s hs
    rw [hget] at hs
    split_ifs at hs with hc
    · subst hc
      exact h.disjoint id session hid
    · exact h.disjoint id s hs
  · intro key id
    simp only [hget]
    refine (h.byKey key id).trans ?_
    split_ifs with hc
    · subst hc
      simp [hid, hkey]
    · rfl
  · intro id s hs
    rw [hget] at hs
    split_ifs at hs with hc
    · subst hc
      cases hs
      obtain ⟨h1, h2, h3⟩ := h.session id session hid
      have horig : session'.original = session.original := congrArg SessionKey.original hkey
      rw [hfields.1, hfields.2, hnat, horig]
      exact ⟨h1, h2, h3⟩
    · exact h.session id s hs

theorem Linked.free (h : Linked first last ephemeral table)
    (hid : table.nat.forward.get sessionId = none) :
    table.sessions.get sessionId = none ∧ ephemeral sessionId = none := by
  have hl := h.nat.ledger_eq_none hid
  simpa [ledger] using hl

theorem Linked.ledger_session (h : Linked first last ephemeral table)
    (hid : table.sessions.get sessionId = some session) :
    table.ledger ephemeral sessionId =
      some ⟨session.nat, ⟨table.ownerWorkerId, sessionId⟩⟩ := by
  simp [ledger, hid, h.disjoint sessionId session hid]

theorem Linked.ledger_ephemeral (h : Linked first last ephemeral table) {binding : NatBinding}
    (hid : ephemeral sessionId = some binding) :
    table.sessions.get sessionId = none ∧ table.ledger ephemeral sessionId =
      some ⟨binding, ⟨table.ownerWorkerId, sessionId⟩⟩ := by
  have hnone : table.sessions.get sessionId = none := by
    cases hs : table.sessions.get sessionId with
    | none => rfl
    | some session =>
      rw [h.disjoint sessionId session hs] at hid
      cases hid
  exact ⟨hnone, by simp [ledger, hnone, hid]⟩

/-- A new session over a new lease. -/
theorem Linked.create (h : Linked first last ephemeral table) {nat : NatTable}
    (hfree : table.nat.forward.get session.id = none) (hkey : table.byKey.get session.key = none)
    (hnat : nat.Represents first last (Function.update (table.ledger ephemeral) session.id
      (some ⟨session.nat, ⟨table.ownerWorkerId, session.id⟩⟩)))
    (howner : session.flowWorkerId = table.ownerWorkerId)
    (horig : session.nat.original = session.original) (deadlines : DeadlineIndex SessionId)
    (nextSessionId : UInt64) :
    Linked first last ephemeral
      { table with
        nat, deadlines, nextSessionId
        byKey := table.byKey.insert session.key session.id
        sessions := table.sessions.insert session.id session } := by
  obtain ⟨hnone, heph⟩ := h.free hfree
  refine ⟨?_, ?_, ?_, ?_⟩
  · convert hnat using 1
    funext id
    simp only [ledger, HashMap.get_insert, Function.update_apply]
    split_ifs with hc
    · subst hc
      rfl
    · rfl
  · intro id s hs
    rw [HashMap.get_insert] at hs
    split_ifs at hs with hc
    · rw [hc]
      exact heph
    · exact h.disjoint id s hs
  · intro key id
    simp only [HashMap.get_insert]
    by_cases hk : key = session.key
    · rw [if_pos hk, Option.some_inj]
      subst hk
      constructor
      · rintro rfl
        exact ⟨session, if_pos rfl, rfl⟩
      · rintro ⟨s, hs, hsk⟩
        split_ifs at hs with hc
        · exact hc.symm
        · have := (h.byKey s.key id).mpr ⟨s, hs, rfl⟩
          rw [hsk, hkey] at this
          cases this
    · rw [if_neg hk, h.byKey]
      refine exists_congr fun s => and_congr_left fun hsk => ?_
      split_ifs with hc
      · subst hc
        rw [hnone]
        refine iff_of_false (by simp) fun he => hk ?_
        cases he
        exact hsk.symm
      · rfl
  · intro id s hs
    rw [HashMap.get_insert] at hs
    split_ifs at hs with hc
    · cases hs
      exact ⟨hc.symm, howner, horig⟩
    · exact h.session id s hs

/-- A session gives its lease back. -/
theorem Linked.drop (h : Linked first last ephemeral table) {nat : NatTable}
    (hid : table.sessions.get sessionId = some session)
    (hnat : nat.Represents first last (Function.update (table.ledger ephemeral) sessionId none))
    (deadlines : DeadlineIndex SessionId) :
    Linked first last ephemeral
      { table with
        nat, deadlines
        byKey := table.byKey.remove session.key
        sessions := table.sessions.remove sessionId } := by
  refine ⟨?_, ?_, ?_, ?_⟩
  · convert hnat using 1
    funext id
    simp only [ledger, HashMap.get_remove, Function.update_apply]
    split_ifs with hc
    · subst hc
      simp [h.disjoint id session hid]
    · rfl
  · intro id s hs
    rw [HashMap.get_remove] at hs
    split_ifs at hs
    exact h.disjoint id s hs
  · intro key id
    simp only [HashMap.get_remove]
    by_cases hk : key = session.key
    · subst hk
      rw [if_pos rfl]
      refine iff_of_false (by simp) ?_
      rintro ⟨s, hs, hsk⟩
      split_ifs at hs with hc
      have h1 := (h.byKey session.key id).mpr ⟨s, hs, hsk⟩
      have h2 := (h.byKey session.key sessionId).mpr ⟨session, hid, rfl⟩
      rw [h2, Option.some_inj] at h1
      exact hc h1.symm
    · rw [if_neg hk, h.byKey]
      refine exists_congr fun s => and_congr_left fun hsk => ?_
      split_ifs with hc
      · subst hc
        rw [hid]
        refine iff_of_false (fun he => hk ?_) (by simp)
        cases he
        exact hsk.symm
      · rfl
  · intro id s hs
    rw [HashMap.get_remove] at hs
    split_ifs at hs
    exact h.session id s hs

/-- A lease without a session. -/
theorem Linked.lend (h : Linked first last ephemeral table) {nat : NatTable}
    {binding : NatBinding} (hfree : table.nat.forward.get sessionId = none)
    (hnat : nat.Represents first last (Function.update (table.ledger ephemeral) sessionId
      (some ⟨binding, ⟨table.ownerWorkerId, sessionId⟩⟩))) :
    Linked first last (Function.update ephemeral sessionId (some binding)) { table with nat } := by
  obtain ⟨hnone, heph⟩ := h.free hfree
  refine ⟨?_, ?_, h.byKey, h.session⟩
  · convert hnat using 1
    funext id
    simp only [ledger, Function.update_apply]
    split_ifs with hc
    · subst hc
      simp [hnone]
    · rfl
  · intro id s hs
    rw [Function.update_apply, if_neg]
    · exact h.disjoint id s hs
    · rintro rfl
      rw [hnone] at hs
      cases hs

theorem Linked.reclaim (h : Linked first last ephemeral table) {nat : NatTable}
    {binding : NatBinding} (heph : ephemeral sessionId = some binding)
    (hnat : nat.Represents first last (Function.update (table.ledger ephemeral) sessionId none)) :
    Linked first last (Function.update ephemeral sessionId none) { table with nat } := by
  obtain ⟨hnone, -⟩ := h.ledger_ephemeral heph
  refine ⟨?_, ?_, h.byKey, h.session⟩
  · convert hnat using 1
    funext id
    simp only [ledger, Function.update_apply]
    split_ifs with hc
    · subst hc
      simp [hnone]
    · rfl
  · intro id s hs
    rw [Function.update_apply]
    split_ifs
    · rfl
    · exact h.disjoint id s hs

end Coherence

section Operations

variable {first last : UInt16} {ephemeral : SessionId → Option NatBinding} {table : SessionTable}
  {sessionId : SessionId} {session : Session} {α : Type}

theorem ensureOwner_ok (table : SessionTable) :
    (ensureOwner table.ownerWorkerId).run table = (.ok (), table) := by
  simp [ensureOwner, Act.run_bind, ensure]

theorem ensureOwner_wrong {caller : ℕ} (h : caller ≠ table.ownerWorkerId) :
    (ensureOwner caller).run table =
      (.error (.error (.wrongOwner table.ownerWorkerId caller)), table) := by
  simp [ensureOwner, Act.run_bind, ensure, h, Outcome.fail]

theorem onNat_ok {x : Act NatTable NatError α} {a : α} {nat : NatTable}
    (h : x.run table.nat = (.ok a, nat)) : (onNat x).run table = (.ok a, { table with nat }) := by
  simp [onNat, Act.zoom, h, Outcome.mapErr]

theorem onNat_fail {x : Act NatTable NatError α} {e : NatError} {nat : NatTable}
    (h : x.run table.nat = (Outcome.fail e, nat)) :
    (onNat x).run table = (Outcome.fail (.nat e), { table with nat }) := by
  simp [onNat, Act.zoom, h, Outcome.mapErr, Outcome.fail]

/-- The table after a failed allocation. -/
def withQuarantined (table : SessionTable) (quarantined : HashMap ReverseNatKey Instant) :
    SessionTable := { table with nat := { table.nat with quarantined } }

theorem Linked.withQuarantined (h : Linked first last ephemeral table)
    (quarantined : HashMap ReverseNatKey Instant) :
    Linked first last ephemeral (table.withQuarantined quarantined) :=
  ⟨h.nat.withQuarantined quarantined, h.disjoint, h.byKey, h.session⟩

theorem Coherent.withQuarantined (h : Coherent first last ephemeral table)
    (quarantined : HashMap ReverseNatKey Instant) :
    Coherent first last ephemeral (table.withQuarantined quarantined) :=
  ⟨h.toLinked.withQuarantined quarantined, h.deadlines⟩

/-- The table after a packet of a known session. -/
def retimed (table : SessionTable) (id : SessionId) (session : Session) (flags : Option UInt8)
    (isReverse : Bool) (now : Instant) : SessionTable :=
  let touched := touchedState session flags isReverse
  table.withSession id { session with tcpState := touched.1, expiresAt := now + touched.2 }
    ((table.deadlines.unfile session.expiresAt id).file (now + touched.2) id)

theorem touchTcp_ok (hid : table.sessions.get sessionId = some session) (flags : Option UInt8)
    (isReverse : Bool) (now : Instant) :
    (touchTcp table.ownerWorkerId sessionId flags isReverse now).run table =
      (.ok (), table.retimed sessionId session flags isReverse now) := by
  rw [touchTcp, Act.bind_of_ok (ensureOwner_ok table), Act.bind_of_ok (Act.run_get table)]
  simp only [hid, okOr]
  rw [Act.bind_of_ok (Act.run_call _ _)]
  rfl

theorem due_withSession (deadlines : DeadlineIndex SessionId) :
    (table.withSession sessionId session deadlines).due =
      Function.update table.due sessionId (some session.expiresAt) := by
  funext id
  simp only [due, withSession, HashMap.get_insert, Function.update_apply]
  split_ifs <;> rfl

theorem Coherent.retimed (h : Coherent first last ephemeral table)
    (hid : table.sessions.get sessionId = some session) (flags : Option UInt8) (isReverse : Bool)
    (now : Instant) :
    Coherent first last ephemeral (table.retimed sessionId session flags isReverse now) := by
  rw [SessionTable.retimed]
  refine ⟨h.toLinked.withSession hid (by rfl) (by rfl) ⟨by rfl, by rfl⟩ _, ?_⟩
  rw [due_withSession]
  have hdue : table.due sessionId = some session.expiresAt := by simp [due, hid]
  have hun := DeadlineIndex.unfile_indexes h.deadlines (.inl hdue)
  have hfile := DeadlineIndex.file_indexes hun (k := sessionId) (by simp)
    (now + (touchedState session flags isReverse).2)
  rw [Function.update_idem] at hfile
  exact hfile

/-- A session as a call creates it. -/
structure Opened (table : SessionTable) (flow : FlowKey) (io : IoOwnerKey)
    (session : Session) (natAfter : NatTable) (first last : UInt16)
    (ephemeral : SessionId → Option NatBinding) : Prop where
  id : session.id = ⟨table.nextSessionId⟩
  original : session.original = flow
  interceptIo : session.interceptIo = io
  owner : session.flowWorkerId = table.ownerWorkerId
  binding : session.nat.original = flow
  free : table.nat.forward.get session.id = none
  nat : natAfter.Represents first last (Function.update (table.ledger ephemeral) session.id
    (some ⟨session.nat, ⟨table.ownerWorkerId, session.id⟩⟩))

/-- The table with that session. -/
def opened (table : SessionTable) (session : Session) (nat : NatTable) : SessionTable :=
  { table with
    nat
    byKey := table.byKey.insert session.key session.id
    sessions := table.sessions.insert session.id session
    deadlines := table.deadlines.file session.expiresAt session.id
    nextSessionId := table.nextSessionId + 1 }

/-- There is a session for the flow, or room for one. -/
def Admits (table : SessionTable) (flow : FlowKey) (io : IoOwnerKey) (natNow : Instant) : Prop :=
  table.byKey.get ⟨flow, io.ifindex⟩ ≠ none ∨
    table.nat.HasRoom ⟨table.nextSessionId⟩ flow natNow

/-- A packet of a flow either fails to get a lease, belongs to a known session, or
opens one. -/
theorem getOrCreateWithFlagsAt_cases (h : Linked first last ephemeral table) (original : FlowKey)
    (interceptIo : IoOwnerKey) (quicFlowId : QuicFlowId) (flags : Option UInt8) (isReverse : Bool)
    (now natNow : Instant) :
    let run := (getOrCreateWithFlagsAt table.ownerWorkerId original interceptIo quicFlowId flags
      isReverse now natNow).run table
    (∃ e quarantined, ¬ table.Admits original interceptIo natNow ∧
      run = (Outcome.fail (.nat e), table.withQuarantined quarantined)) ∨
    (∃ id session, table.sessions.get id = some session ∧
      session.key = ⟨original, interceptIo.ifindex⟩ ∧
      run = (.ok id, table.retimed id session flags isReverse now)) ∨
    (∃ session nat, table.byKey.get ⟨original, interceptIo.ifindex⟩ = none ∧
      table.nat.HasRoom ⟨table.nextSessionId⟩ original natNow ∧
      Opened table original interceptIo session nat first last ephemeral ∧
      run = (.ok session.id, table.opened session nat)) := by
  intro run
  have hrun :
      run = (getOrCreateWithFlagsAt table.ownerWorkerId original interceptIo quicFlowId flags
      isReverse now natNow).run table := rfl
  rw [getOrCreateWithFlagsAt, Act.bind_of_ok (ensureOwner_ok table),
    Act.bind_of_ok (Act.run_get table)] at hrun
  cases hkey : table.byKey.get ⟨original, interceptIo.ifindex⟩ with
  | some id =>
    simp only [hkey] at hrun
    obtain ⟨session, hid, hsk⟩ := (h.byKey _ _).mp hkey
    rw [Act.bind_of_ok (touchTcp_ok hid flags isReverse now)] at hrun
    exact .inr (.inl ⟨id, session, hid, hsk, hrun⟩)
  | none =>
    simp only [hkey] at hrun
    rcases NatTable.allocateAt_cases table.nat ⟨table.nextSessionId⟩ original
      ⟨table.ownerWorkerId, ⟨table.nextSessionId⟩⟩ natNow with
      ⟨e, quarantined, halloc⟩ | ⟨snat, port, quarantined, hfree, hsnat, hport, hrev, halloc⟩
    · rw [Act.bind_of_error (onNat_fail halloc)] at hrun
      refine .inl ⟨e, quarantined, ?_, hrun⟩
      rintro (hknown | hroom)
      · exact hknown hkey
      · obtain ⟨_, _, hok⟩ := NatTable.allocateAt_eq_ok.mpr hroom
        cases halloc.symm.trans hok
    · rw [Act.bind_of_ok (onNat_ok halloc)] at hrun
      let initial := initialState original.protocol flags
      refine .inr (.inr ⟨{
        id := ⟨table.nextSessionId⟩
        original
        nat := ⟨original, NatTable.translate original snat port⟩
        flowWorkerId := table.ownerWorkerId
        interceptIo, quicFlowId
        expiresAt := now + initial.2
        tcpState := initial.1 }, _, rfl, NatTable.allocateAt_eq_ok.mp ⟨_, _, halloc⟩,
        ⟨rfl, rfl, rfl, rfl, rfl, hfree, ?_⟩, hrun⟩)
      exact (h.nat.withQuarantined quarantined).withLease _ hfree hsnat hport hrev

theorem Coherent.opened (h : Coherent first last ephemeral table) {flow : FlowKey}
    {io : IoOwnerKey} {nat : NatTable} (ho : Opened table flow io session nat first last ephemeral)
    (hkey : table.byKey.get ⟨flow, io.ifindex⟩ = none) :
    Coherent first last ephemeral (table.opened session nat) := by
  have hsk : session.key = ⟨flow, io.ifindex⟩ := by
    rw [Session.key, ho.original, ho.interceptIo]
  refine ⟨h.toLinked.create ho.free (hsk ▸ hkey) ho.nat ho.owner
    (ho.binding.trans ho.original.symm) _ _, ?_⟩
  have hdue : (table.opened session nat).due =
      Function.update table.due session.id (some session.expiresAt) := by
    funext id
    simp only [due, SessionTable.opened, HashMap.get_insert, Function.update_apply]
    split_ifs <;> rfl
  rw [hdue]
  exact DeadlineIndex.file_indexes h.deadlines (by simp [due, (h.toLinked.free ho.free).1]) _

theorem getOrCreateWithFlagsAt_coherent (h : Coherent first last ephemeral table)
    (original : FlowKey) (interceptIo : IoOwnerKey) (quicFlowId : QuicFlowId)
    (flags : Option UInt8) (isReverse : Bool) (now natNow : Instant) :
    let run := (getOrCreateWithFlagsAt table.ownerWorkerId original interceptIo quicFlowId flags
      isReverse now natNow).run table
    run.1 ≠ Outcome.panic ∧ Coherent first last ephemeral run.2 ∧
      run.2.ownerWorkerId = table.ownerWorkerId ∧
      ∀ id, run.1 = .ok id → ∃ session, run.2.sessions.get id = some session ∧
        session.key = ⟨original, interceptIo.ifindex⟩ := by
  intro run
  rcases getOrCreateWithFlagsAt_cases h.toLinked original interceptIo quicFlowId flags isReverse now
    natNow with ⟨e, quarantined, -, hrun⟩ | ⟨id, session, hid, hsk, hrun⟩ |
      ⟨session, nat, hkey, -, ho, hrun⟩
  · change run = _ at hrun
    rw [hrun]
    exact ⟨by simp [Outcome.fail, Outcome.panic], h.withQuarantined quarantined, rfl,
      fun id hid => by cases hid⟩
  · change run = _ at hrun
    rw [hrun]
    refine ⟨by simp [Outcome.panic], h.retimed hid flags isReverse now, rfl, fun id' hid' => ?_⟩
    cases hid'
    exact ⟨_, (HashMap.get_insert _ _ _ _).trans (if_pos rfl), hsk⟩
  · change run = _ at hrun
    rw [hrun]
    refine ⟨by simp [Outcome.panic], h.opened ho hkey, rfl, fun id hid => ?_⟩
    cases hid
    refine ⟨session, by simp [SessionTable.opened, HashMap.get_insert], ?_⟩
    rw [Session.key, ho.original, ho.interceptIo]

/-- The table after a removal. -/
def dropped (table : SessionTable) (id : SessionId) (session : Session) (natNow : Instant) :
    SessionTable :=
  { table with
    nat := table.nat.withoutLease id session.nat natNow
    byKey := table.byKey.remove session.key
    sessions := table.sessions.remove id
    deadlines := table.deadlines.unfile session.expiresAt id }

theorem remove_ok (h : Linked first last ephemeral table)
    (hid : table.sessions.get sessionId = some session) (natNow : Instant) :
    (remove table.ownerWorkerId sessionId natNow).run table =
      (.ok session, table.dropped sessionId session natNow) := by
  rw [remove, Act.bind_of_ok (ensureOwner_ok table), Act.bind_of_ok (Act.run_get table)]
  simp only [hid, okOr]
  rw [Act.bind_of_ok (Act.run_call _ _)]
  have hget : table.nat.forward.get sessionId = some session.nat := by
    rw [h.nat.forward, h.ledger_session hid]
    rfl
  rcases NatTable.removeAt_cases table.nat sessionId natNow with ⟨hnone, -⟩ | ⟨b, hb, hrun⟩
  · rw [hget] at hnone
    cases hnone
  · rw [hget, Option.some_inj] at hb
    subst hb
    rw [Act.bind_of_ok (onNat_ok hrun)]
    rfl

theorem remove_unknown (hid : table.sessions.get sessionId = none) (natNow : Instant) :
    (remove table.ownerWorkerId sessionId natNow).run table =
      (Outcome.fail (.unknownSession sessionId), table) := by
  rw [remove, Act.bind_of_ok (ensureOwner_ok table), Act.bind_of_ok (Act.run_get table)]
  simp only [hid, okOr]
  rfl

theorem Linked.dropped (h : Linked first last ephemeral table)
    (hid : table.sessions.get sessionId = some session) (natNow : Instant) :
    Linked first last ephemeral (table.dropped sessionId session natNow) :=
  h.drop hid (h.nat.withoutLease (h.ledger_session hid) natNow) _

theorem due_dropped (natNow : Instant) :
    (table.dropped sessionId session natNow).due = Function.update table.due sessionId none := by
  funext id
  simp only [due, dropped, HashMap.get_remove, Function.update_apply]
  split_ifs <;> rfl

theorem Coherent.dropped (h : Coherent first last ephemeral table)
    (hid : table.sessions.get sessionId = some session) (natNow : Instant) :
    Coherent first last ephemeral (table.dropped sessionId session natNow) := by
  refine ⟨h.toLinked.dropped hid natNow, ?_⟩
  rw [due_dropped]
  exact DeadlineIndex.unfile_indexes h.deadlines (.inl (by simp [due, hid]))

/-- Removing a list of sessions. The deadlines of the listed ones may already have
been taken out of the index. -/
theorem removeAll_ok (h : Linked first last ephemeral table) {filed : SessionId → Option Instant}
    (hfiled : table.deadlines.Indexes filed) (ids : List SessionId)
    (hids : ∀ id ∈ ids, ∃ session, table.sessions.get id = some session ∧
      (filed id = some session.expiresAt ∨ filed id = none))
    (hnodup : ids.Nodup) (clock : ℕ → Instant) :
    ∃ sessions table', (removeAll table.ownerWorkerId clock ids).run table =
      (.ok sessions, table') ∧ Linked first last ephemeral table' ∧
      table'.deadlines.Indexes (fun id => if id ∈ ids then none else filed id) ∧
      sessions.map some = ids.map table.sessions.get ∧
      (∀ id, table'.sessions.get id = if id ∈ ids then none else table.sessions.get id) ∧
      table'.ownerWorkerId = table.ownerWorkerId := by
  induction ids generalizing table filed with
  | nil => exact ⟨[], table, rfl, h, by simpa using hfiled, rfl, by simp, rfl⟩
  | cons id rest ih =>
    obtain ⟨hnot, hnodup⟩ := List.nodup_cons.mp hnodup
    obtain ⟨session, hid, hdue⟩ := hids id (by simp)
    have hget : ∀ id', (table.dropped id session (clock rest.length)).sessions.get id' =
        if id' = id then none else table.sessions.get id' := fun id' => HashMap.get_remove _ _ _
    obtain ⟨sessions, table', hrun, hl, hd, hs, hg, ho⟩ :=
      ih (h.dropped hid (clock rest.length)) (DeadlineIndex.unfile_indexes hfiled hdue)
        (fun id' hmem => by
          have hne : id' ≠ id := fun hc => hnot (hc ▸ hmem)
          obtain ⟨s, hs, hsd⟩ := hids id' (List.mem_cons_of_mem _ hmem)
          refine ⟨s, ?_, ?_⟩
          · rw [hget, if_neg hne, hs]
          · rw [Function.update_of_ne hne]
            exact hsd) hnodup
    refine ⟨session :: sessions, table', ?_, hl, ?_, ?_, ?_, ho⟩
    · rw [removeAll, Act.bind_of_ok (remove_ok h hid _)]
      have hrun' : (removeAll table.ownerWorkerId clock rest).run
        (table.dropped id session (clock rest.length)) = (.ok sessions, table') := hrun
      rw [Act.bind_of_ok hrun']
      rfl
    · convert hd using 1
      funext id'
      simp only [List.mem_cons, Function.update_apply]
      grind
    · rw [List.map_cons, List.map_cons, hs, hid]
      congr 1
      apply List.map_congr_left
      intro id' hmem
      rw [hget, if_neg fun hc : id' = id => hnot (hc ▸ hmem)]
    · intro id'
      simp only [hg, hget, List.mem_cons]
      grind

/-- The sessions a removal returns carry the identifiers it was given. -/
theorem Linked.map_id (h : Linked first last ephemeral table) {ids : List SessionId}
    {sessions : List Session} (hs : sessions.map some = ids.map table.sessions.get) :
    sessions.map Session.id = ids := by
  induction ids generalizing sessions with
  | nil => simpa using hs
  | cons id rest ih =>
    cases sessions with
    | nil => simp at hs
    | cons session sessions =>
      simp only [List.map_cons, List.cons.injEq] at hs
      rw [List.map_cons, ih hs.2, (h.session id session hs.1.symm).1]

/-- `expireIdle` removes exactly the sessions whose time has come. -/
theorem expireIdle_ok (h : Coherent first last ephemeral table) (now : Instant)
    (clock : ℕ → Instant) :
    ∃ sessions table', (expireIdle table.ownerWorkerId now clock).run table =
      (.ok sessions, table') ∧
      Coherent first last ephemeral table' ∧ (sessions.map Session.id).Nodup ∧
      (∀ session, session ∈ sessions ↔
        table.sessions.get session.id = some session ∧ session.expiresAt ≤ now) ∧
      (∀ id, table'.sessions.get id =
        (table.sessions.get id).filter fun session => now < session.expiresAt) ∧
      table'.ownerWorkerId = table.ownerWorkerId := by
  let popped := table.deadlines.popDue now
  let expired := popped.1.filter fun sessionId =>
    (table.sessions.get sessionId).any fun session => session.expiresAt ≤ now
  have hmem : ∀ id, id ∈ expired ↔
      ∃ session, table.sessions.get id = some session ∧ session.expiresAt ≤ now := by
    intro id
    simp only [expired, popped, List.mem_filter, DeadlineIndex.mem_popDue h.deadlines, due,
      Option.any_eq_true, decide_eq_true_eq, Option.map_eq_some_iff]
    grind
  have hnodup : expired.Nodup := (DeadlineIndex.nodup_popDue h.deadlines now).filter _
  have hlinked : Linked first last ephemeral { table with deadlines := popped.2 } :=
    ⟨h.nat, h.disjoint, h.byKey, h.session⟩
  obtain ⟨sessions, table', hrun, hl, hd, hs, hg, ho⟩ := removeAll_ok hlinked
    (DeadlineIndex.popDue_indexes h.deadlines now) expired
    (fun id hid => by
      obtain ⟨session, hget, hle⟩ := (hmem id).mp hid
      exact ⟨session, hget, .inr (by simp [due, hget, hle])⟩) hnodup clock
  refine ⟨sessions, table', ?_, ⟨hl, ?_⟩, ?_, ?_, ?_, ho⟩
  · rw [expireIdle, Act.bind_of_ok (ensureOwner_ok table), Act.bind_of_ok (Act.run_get table)]
    exact hrun
  · convert hd using 1
    funext id
    simp only [due, hg, hmem]
    cases hget : table.sessions.get id with
    | none => simp
    | some session =>
      by_cases hle : session.expiresAt ≤ now
      · simp [hle]
      · simp [hle, Option.filter_some, Nat.lt_of_not_le hle]
  · rw [h.toLinked.map_id hs]
    exact hnodup
  · intro session
    have hin : session ∈ sessions ↔ some session ∈ expired.map table.sessions.get := by
      rw [← hs]
      simp
    rw [hin, List.mem_map]
    constructor
    · rintro ⟨id, hid, hget⟩
      obtain ⟨s, hs', hle⟩ := (hmem id).mp hid
      rw [hget, Option.some_inj] at hs'
      subst hs'
      rw [(h.session id session hget).1]
      exact ⟨hget, hle⟩
    · rintro ⟨hget, hle⟩
      exact ⟨session.id, (hmem _).mpr ⟨session, hget, hle⟩, hget⟩
  · intro id
    simp only [hg, hmem]
    cases hget : table.sessions.get id with
    | none => simp
    | some session =>
      by_cases hle : session.expiresAt ≤ now
      · simp [hle, Option.filter_some, Nat.not_lt.mpr hle]
      · simp [hle, Option.filter_some, Nat.lt_of_not_le hle]

theorem removeByQuicFlow_ok (h : Coherent first last ephemeral table) (quicFlowId : QuicFlowId)
    (clock : ℕ → Instant) :
    ∃ count table', (removeByQuicFlow table.ownerWorkerId quicFlowId clock).run table =
        (.ok count, table') ∧
      Coherent first last ephemeral table' ∧
      (∀ id, table'.sessions.get id =
        (table.sessions.get id).filter fun session => session.quicFlowId ≠ quicFlowId) ∧
      table'.ownerWorkerId = table.ownerWorkerId := by
  let ids := (table.sessions.toList.filter fun e => e.2.quicFlowId = quicFlowId).map fun e => e.2.id
  have hmem : ∀ id, id ∈ ids ↔
      ∃ session, table.sessions.get id = some session ∧ session.quicFlowId = quicFlowId := by
    intro id
    simp only [ids, List.mem_map, List.mem_filter, Prod.exists, HashMap.mem_toList,
      decide_eq_true_eq]
    constructor
    · rintro ⟨id', session, ⟨hget, hq⟩, rfl⟩
      rw [(h.session id' session hget).1]
      exact ⟨session, hget, hq⟩
    · rintro ⟨session, hget, hq⟩
      exact ⟨id, session, ⟨hget, hq⟩, (h.session id session hget).1⟩
  have hnodup : ids.Nodup := by
    have hkeys : ids = (table.sessions.toList.filter
        fun e => e.2.quicFlowId = quicFlowId).map Prod.fst := by
      apply List.map_congr_left
      rintro ⟨id, session⟩ he
      exact (h.session id session (HashMap.mem_toList.mp (List.mem_filter.mp he).1)).1
    rw [hkeys]
    exact table.sessions.nodup_keys.sublist (List.filter_sublist.map _)
  obtain ⟨sessions, table', hrun, hl, hd, -, hg, ho⟩ := removeAll_ok h.toLinked h.deadlines ids
    (fun id hid => by
      obtain ⟨session, hget, -⟩ := (hmem id).mp hid
      exact ⟨session, hget, .inl (by simp [due, hget])⟩) hnodup clock
  have hget : ∀ id, table'.sessions.get id =
      (table.sessions.get id).filter fun session => session.quicFlowId ≠ quicFlowId := by
    intro id
    simp only [hg, hmem]
    cases hget : table.sessions.get id with
    | none => simp
    | some session =>
      by_cases hq : session.quicFlowId = quicFlowId <;> simp [hq, Option.filter_some]
  refine ⟨ids.length, table', ?_, ⟨hl, ?_⟩, hget, ho⟩
  · rw [removeByQuicFlow, Act.bind_of_ok (ensureOwner_ok table),
      Act.bind_of_ok (Act.run_get table), Act.bind_of_ok hrun]
    rfl
  · convert hd using 1
    funext id
    simp only [due, hg]
    split_ifs <;> rfl

theorem rebindQuicFlow_ok (h : Coherent first last ephemeral table)
    (oldQuicFlowId newQuicFlowId : QuicFlowId) :
    ∃ count table', (rebindQuicFlow table.ownerWorkerId oldQuicFlowId newQuicFlowId).run table =
        (.ok count, table') ∧
      Coherent first last ephemeral table' ∧
      (∀ id, table'.sessions.get id = (table.sessions.get id).map fun session =>
        if session.quicFlowId = oldQuicFlowId then { session with quicFlowId := newQuicFlowId }
        else session) ∧ table'.ownerWorkerId = table.ownerWorkerId := by
  let rebind : Session → Session := fun session =>
    if session.quicFlowId = oldQuicFlowId then { session with quicFlowId := newQuicFlowId }
    else session
  have hsame : ∀ session, (rebind session).nat = session.nat ∧ (rebind session).key = session.key ∧
      (rebind session).id = session.id ∧ (rebind session).flowWorkerId = session.flowWorkerId ∧
      (rebind session).original = session.original ∧
      (rebind session).expiresAt = session.expiresAt := by
    intro session
    simp only [rebind]
    split_ifs <;> exact ⟨rfl, rfl, rfl, rfl, rfl, rfl⟩
  have hget : ∀ id, (table.sessions.mapValues rebind).get id = (table.sessions.get id).map rebind :=
    fun id => HashMap.get_mapValues _ _ _
  have hrun : (rebindQuicFlow table.ownerWorkerId oldQuicFlowId newQuicFlowId).run table =
      (.ok (table.sessions.toList.filter fun e => e.2.quicFlowId = oldQuicFlowId).length,
        { table with sessions := table.sessions.mapValues rebind }) := by
    rw [rebindQuicFlow, Act.bind_of_ok (ensureOwner_ok table), Act.bind_of_ok (Act.run_get table)]
    rfl
  refine ⟨_, _, hrun, ⟨⟨?_, ?_, ?_, ?_⟩, ?_⟩, hget, rfl⟩
  · convert h.nat using 1
    funext id
    simp only [ledger, hget, Option.map_map, Function.comp_def, (hsame _).1]
  · intro id session hs
    rw [hget, Option.map_eq_some_iff] at hs
    obtain ⟨session', hs', -⟩ := hs
    exact h.disjoint id session' hs'
  · intro key id
    rw [h.byKey]
    simp only [hget, Option.map_eq_some_iff]
    constructor
    · rintro ⟨session, hs, hk⟩
      exact ⟨rebind session, ⟨session, hs, rfl⟩, (hsame session).2.1.trans hk⟩
    · rintro ⟨_, ⟨session, hs, rfl⟩, hk⟩
      exact ⟨session, hs, (hsame session).2.1.symm.trans hk⟩
  · intro id session hs
    rw [hget, Option.map_eq_some_iff] at hs
    obtain ⟨session', hs', rfl⟩ := hs
    obtain ⟨h1, h2, h3, h4, h5, -⟩ := hsame session'
    rw [h1, h3, h4, h5]
    exact h.session id session' hs'
  · convert h.deadlines using 1
    funext id
    simp only [due, hget, Option.map_map, Function.comp_def, (hsame _).2.2.2.2.2]

theorem correctInterceptIo_cases (hid : table.sessions.get sessionId = some session)
    (observed : IoOwnerKey) :
    let run := (correctInterceptIo table.ownerWorkerId sessionId observed).run table
    (session.interceptIo = observed ∧ run = (.ok .unchanged, table)) ∨
    (session.interceptIo ≠ observed ∧ session.interceptIo.ifindex = observed.ifindex ∧
      session.interceptIo.queueId = 0 ∧ run = (.ok .corrected,
        table.withSession sessionId { session with interceptIo := observed } table.deadlines)) ∨
    (session.interceptIo ≠ observed ∧
      ¬ (session.interceptIo.ifindex = observed.ifindex ∧ session.interceptIo.queueId = 0) ∧
      run = (.ok .mismatch, table)) := by
  intro run
  have hrun : run = (correctInterceptIo table.ownerWorkerId sessionId observed).run table := rfl
  rw [correctInterceptIo, Act.bind_of_ok (ensureOwner_ok table),
    Act.bind_of_ok (Act.run_get table)] at hrun
  simp only [hid, okOr] at hrun
  rw [Act.bind_of_ok (Act.run_call _ _)] at hrun
  split_ifs at hrun with h1 h2
  · exact .inl ⟨h1, hrun⟩
  · exact .inr (.inl ⟨h1, h2.1, h2.2, hrun⟩)
  · exact .inr (.inr ⟨h1, h2, hrun⟩)

theorem Coherent.corrected (h : Coherent first last ephemeral table) {observed : IoOwnerKey}
    (hid : table.sessions.get sessionId = some session)
    (hif : session.interceptIo.ifindex = observed.ifindex) :
    Coherent first last ephemeral
      (table.withSession sessionId { session with interceptIo := observed } table.deadlines) := by
  refine ⟨h.toLinked.withSession hid (by simp [Session.key, hif]) (by rfl) ⟨by rfl, by rfl⟩ _, ?_⟩
  rw [due_withSession]
  have hdue : table.due sessionId = some session.expiresAt := by simp [due, hid]
  rw [← hdue, Function.update_eq_self]
  exact h.deadlines

theorem Linked.lookupReverseLocator_eq_some (h : Linked first last ephemeral table)
    {flow : FlowKey} {locator : SessionLocator} :
    table.lookupReverseLocator flow = some locator ↔
      ∃ session, table.sessions.get locator.sessionId = some session ∧
        locator.flowWorkerId = table.ownerWorkerId ∧ flow.ReturnsTo session.nat.translated := by
  simp only [lookupReverseLocator, Option.filter_eq_some_iff, h.nat.lookupReverse_eq_some,
    decide_eq_true_eq, HashMap.contains, Option.isSome_iff_exists]
  constructor
  · rintro ⟨⟨⟨id, lease, hl, rfl, hr⟩, ho⟩, session, hs⟩
    obtain ⟨b, -, rfl⟩ := Option.map_eq_some_iff.mp hl
    rw [h.ledger_session hs, Option.some_inj] at hl
    obtain rfl : session.nat = b := congrArg NatTable.Lease.binding hl
    exact ⟨session, hs, ho, hr⟩
  · rintro ⟨session, hs, ho, hr⟩
    refine ⟨⟨⟨_, _, h.ledger_session hs, ?_, hr⟩, ho⟩, session, hs⟩
    rw [← ho]

theorem allocateEphemeralNat_cases (h : Linked first last ephemeral table) (token : SessionId)
    (original : FlowKey) (natNow : Instant) :
    let run := (allocateEphemeralNat table.ownerWorkerId token original natNow).run table
    (∃ e quarantined, run = (Outcome.fail (.nat e), table.withQuarantined quarantined)) ∨
    ∃ binding nat, run = (.ok binding, { table with nat }) ∧ binding.original = original ∧
      ephemeral token = none ∧ table.sessions.get token = none ∧
      Linked first last (Function.update ephemeral token (some binding)) { table with nat } := by
  intro run
  have hrun : run = (allocateEphemeralNat table.ownerWorkerId token original natNow).run table :=
    rfl
  rw [allocateEphemeralNat, Act.bind_of_ok (ensureOwner_ok table),
    Act.bind_of_ok (Act.run_get table)] at hrun
  rcases NatTable.allocateAt_cases table.nat token original ⟨table.ownerWorkerId, token⟩ natNow with
    ⟨e, quarantined, halloc⟩ | ⟨snat, port, quarantined, hfree, hsnat, hport, hrev, halloc⟩
  · rw [onNat_fail halloc] at hrun
    exact .inl ⟨e, quarantined, hrun⟩
  · rw [onNat_ok halloc] at hrun
    obtain ⟨hs, he⟩ := h.free hfree
    exact .inr ⟨_, _, hrun, rfl, he, hs, h.lend hfree
      ((h.nat.withQuarantined quarantined).withLease _ hfree hsnat hport hrev)⟩

theorem releaseEphemeralNat_ok (h : Linked first last ephemeral table) {token : SessionId}
    {binding : NatBinding} (htoken : ephemeral token = some binding) (natNow : Instant) :
    let released := { table with nat := table.nat.withoutLease token binding natNow }
    (releaseEphemeralNat table.ownerWorkerId token natNow).run table = (.ok binding, released) ∧
      Linked first last (Function.update ephemeral token none) released := by
  obtain ⟨-, hl⟩ := h.ledger_ephemeral htoken
  have hget : table.nat.forward.get token = some binding := by
    rw [h.nat.forward, hl]
    rfl
  rw [releaseEphemeralNat, Act.bind_of_ok (ensureOwner_ok table)]
  rcases NatTable.removeAt_cases table.nat token natNow with ⟨hnone, -⟩ | ⟨b, hb, hrun⟩
  · rw [hget] at hnone
    cases hnone
  · rw [hget, Option.some_inj] at hb
    subst hb
    exact ⟨onNat_ok hrun, h.reclaim htoken (h.nat.withoutLease hl natNow)⟩

end Operations

end NewProxy.SessionTable
