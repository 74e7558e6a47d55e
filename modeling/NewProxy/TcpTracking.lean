import NewProxy.SessionLife

/-!
# Close tracking over the packets of a session

The session table advances the TCP state in two places: a packet of a known
session goes through `touchTcp`, and the packet that opens one is looked at only
for its timeout. `closeState` is the law over a whole history of segments. The
table follows it from the second segment on, so what the first one says about
closing counts only if a later segment says it again.
-/
namespace NewProxy

/-- What close tracking sees of a packet. -/
structure TcpSegment where
  flags : Option UInt8
  isReverse : Bool
  now : Instant
  deriving DecidableEq

namespace TcpSegment

def rst (segment : TcpSegment) : Bool := segment.flags.any fun flags => flags &&& 0x04 ≠ 0

def fin (segment : TcpSegment) : Bool := segment.flags.any fun flags => flags &&& 0x01 ≠ 0

/-- A segment that closes one direction. -/
def closes (isReverse : Bool) (segment : TcpSegment) : Bool :=
  segment.fin && segment.isReverse == isReverse

end TcpSegment

/-- The state a history of segments amounts to. -/
def closeState (segments : List TcpSegment) : TcpSessionState :=
  if segments.any TcpSegment.rst then .reset
  else match segments.any (TcpSegment.closes false), segments.any (TcpSegment.closes true) with
    | true, true => .closing
    | true, false => .finSeenForward
    | false, true => .finSeenReverse
    | false, false => .established

/-- What the first segment says about closing is said again by the others. -/
def Repeated : List TcpSegment → Prop
  | [] => True
  | first :: rest =>
    (first.rst → rest.any TcpSegment.rst) ∧
      (first.fin → rest.any TcpSegment.rst ∨ rest.any (TcpSegment.closes first.isReverse))

section CloseState

variable {segments rest : List TcpSegment} {first segment : TcpSegment}

theorem closeState_eq_reset : closeState segments = .reset ↔ segments.any TcpSegment.rst := by
  unfold closeState
  split_ifs with h
  · simp [h]
  · constructor
    · intro hs
      split at hs <;> cases hs
    · exact fun hc => absurd hc h

/-- The first segment is forgotten without loss exactly when it is repeated. -/
theorem closeState_cons_iff : closeState (first :: rest) = closeState rest ↔
    Repeated (first :: rest) := by
  cases hreset : rest.any TcpSegment.rst with
  | true => simp [closeState, Repeated, hreset]
  | false =>
    cases hrst : first.rst with
    | true =>
      constructor
      · intro h
        have hc : closeState rest = .reset := by
          rw [← h, closeState_eq_reset, List.any_cons, hrst]
          rfl
        exact absurd (closeState_eq_reset.mp hc) (by simp [hreset])
      · exact fun h => absurd (h.1 hrst) (by simp [hreset])
    | false =>
      cases hfin : first.fin with
      | false => simp [closeState, Repeated, TcpSegment.closes, hreset, hrst, hfin]
      | true =>
        cases hdir : first.isReverse <;>
          cases hf : rest.any (TcpSegment.closes false) <;>
          cases hr : rest.any (TcpSegment.closes true) <;>
          simp [closeState, Repeated, TcpSegment.closes, hreset, hrst, hfin, hdir, hf, hr]

end CloseState

namespace SessionTable

section Touch

variable {session : Session} {segments : List TcpSegment}

/-- `touchTcp` takes the law one segment further. -/
theorem touchedState_closeState (hproto : session.original.protocol = .tcp)
    (hstate : session.tcpState = some (closeState segments)) (segment : TcpSegment) :
    (touchedState session segment.flags segment.isReverse).1 =
      some (closeState (segments ++ [segment])) := by
  obtain ⟨flags, isReverse, now⟩ := segment
  unfold touchedState
  rcases flags with _ | flags
  · simp [hproto, hstate, closeState, TcpSegment.rst, TcpSegment.closes,
      TcpSegment.fin]
  by_cases hrst : flags &&& 0x04 = 0
  · by_cases hfin : flags &&& 0x01 = 0
    · simp [hproto, hstate, closeState, TcpSegment.rst, TcpSegment.closes,
        TcpSegment.fin, hrst, hfin]
    · -- a FIN: the four states that are left, in either direction
      have h1 : TcpSegment.rst ⟨some flags, isReverse, now⟩ = false := by
        simp [TcpSegment.rst, hrst]
      have h2 : ∀ d, TcpSegment.closes d ⟨some flags, isReverse, now⟩ = (isReverse == d) := by
        simp [TcpSegment.closes, TcpSegment.fin, hfin]
      simp only [hproto, hstate, hrst, closeState, List.any_append, List.any_cons,
        List.any_nil, Bool.or_false, h1, h2]
      cases segments.any TcpSegment.rst <;> cases segments.any (TcpSegment.closes false) <;>
        cases segments.any (TcpSegment.closes true) <;> cases isReverse <;> simp [hfin]
  · simp [hproto, closeState, TcpSegment.rst, hrst]

/-- A session that is reset is given at most the closing timeout. -/
theorem touchedState_reset_le (hproto : session.original.protocol = .tcp) {flags : Option UInt8}
    {isReverse : Bool} (h : (touchedState session flags isReverse).1 = some .reset) :
    (touchedState session flags isReverse).2 ≤ tcpClosingTimeout := by
  have hle : tcpRstTimeout ≤ tcpClosingTimeout := by decide
  unfold touchedState at h ⊢
  rcases flags with _ | flags
  · simp only [hproto] at h ⊢
    simp [h, hle]
  by_cases hrst : flags &&& 0x04 = 0
  · by_cases hfin : flags &&& 0x01 = 0
    · simp only [hproto, hrst, hfin] at h ⊢
      simp only [ne_eq, not_true_eq_false, if_false] at h
      simp [h, hle]
    · simp only [hproto, hrst, ne_eq, not_true_eq_false, if_false, hfin,
        not_false_eq_true, if_true, Option.some_inj] at h ⊢
      rw [if_pos (.inr h)]
  · simp [hproto, hrst, hle]

end Touch

/-- The calls on a session table that change it. -/
inductive Call where
  | getOrCreateWithFlagsAt (original : FlowKey) (interceptIo : IoOwnerKey)
      (quicFlowId : QuicFlowId) (flags : Option UInt8) (isReverse : Bool) (now natNow : Instant)
  | touchTcp (sessionId : SessionId) (flags : Option UInt8) (isReverse : Bool) (now : Instant)
  | correctInterceptIo (sessionId : SessionId) (observed : IoOwnerKey)
  | remove (sessionId : SessionId) (natNow : Instant)
  | expireIdle (now : Instant) (clock : ℕ → Instant)
  | allocateEphemeralNat (token : SessionId) (original : FlowKey) (natNow : Instant)
  | releaseEphemeralNat (token : SessionId) (natNow : Instant)
  | rebindQuicFlow (oldQuicFlowId newQuicFlowId : QuicFlowId)
  | removeByQuicFlow (quicFlowId : QuicFlowId) (clock : ℕ → Instant)

/-- The table after a call of the worker `caller`. -/
def Call.apply (caller : ℕ) (table : SessionTable) : Call → SessionTable
  | .getOrCreateWithFlagsAt original interceptIo quicFlowId flags isReverse now natNow =>
    ((SessionTable.getOrCreateWithFlagsAt caller original interceptIo quicFlowId flags isReverse now
      natNow).run table).2
  | .touchTcp sessionId flags isReverse now =>
    ((SessionTable.touchTcp caller sessionId flags isReverse now).run table).2
  | .correctInterceptIo sessionId observed =>
    ((SessionTable.correctInterceptIo caller sessionId observed).run table).2
  | .remove sessionId natNow => ((SessionTable.remove caller sessionId natNow).run table).2
  | .expireIdle now clock => ((SessionTable.expireIdle caller now clock).run table).2
  | .allocateEphemeralNat token original natNow =>
    ((SessionTable.allocateEphemeralNat caller token original natNow).run table).2
  | .releaseEphemeralNat token natNow =>
    ((SessionTable.releaseEphemeralNat caller token natNow).run table).2
  | .rebindQuicFlow oldQuicFlowId newQuicFlowId =>
    ((SessionTable.rebindQuicFlow caller oldQuicFlowId newQuicFlowId).run table).2
  | .removeByQuicFlow quicFlowId clock =>
    ((SessionTable.removeByQuicFlow caller quicFlowId clock).run table).2

/-- What a call did with a packet. -/
inductive Handled where
  | nothing
  | created (sessionId : SessionId) (segment : TcpSegment)
  | touched (sessionId : SessionId) (segment : TcpSegment)

def Call.handled (caller : ℕ) (table : SessionTable) : Call → Handled
  | .getOrCreateWithFlagsAt original interceptIo quicFlowId flags isReverse now natNow =>
    match ((SessionTable.getOrCreateWithFlagsAt caller original interceptIo quicFlowId flags
      isReverse now natNow).run table).1, table.byKey.get ⟨original, interceptIo.ifindex⟩ with
    | .ok sessionId, none => .created sessionId ⟨flags, isReverse, now⟩
    | .ok sessionId, some _ => .touched sessionId ⟨flags, isReverse, now⟩
    | .error _, _ => .nothing
  | .touchTcp sessionId flags isReverse now =>
    match ((SessionTable.touchTcp caller sessionId flags isReverse now).run table).1 with
    | .ok _ => .touched sessionId ⟨flags, isReverse, now⟩
    | .error _ => .nothing
  | _ => .nothing

/-- The history of the session `id`, one packet further. -/
def Handled.record (id : SessionId) (segments : List TcpSegment) : Handled → List TcpSegment
  | .nothing => segments
  | .created sessionId segment => if sessionId = id then [segment] else segments
  | .touched sessionId segment => if sessionId = id then segments ++ [segment] else segments

/-- A run of calls, with the packets handled for the session `id` since it was
created. -/
def track (id : SessionId) (start : SessionTable × List TcpSegment) (calls : List (ℕ × Call)) :
    SessionTable × List TcpSegment :=
  calls.foldl (fun s call =>
    (call.2.apply call.1 s.1, (call.2.handled call.1 s.1).record id s.2)) start

/-- The session `id`, where it is there, has followed the law since its second
segment. -/
def Followed (id : SessionId) (table : SessionTable) (segments : List TcpSegment) : Prop :=
  ∀ session, table.sessions.get id = some session → session.original.protocol = .tcp →
    ∃ first rest, segments = first :: rest ∧ session.tcpState = some (closeState rest) ∧
      (closeState rest = .reset →
        ∀ last ∈ segments.getLast?, session.expiresAt ≤ last.now + tcpClosingTimeout)

section Quiet

variable {id : SessionId} {segments : List TcpSegment} {table : SessionTable} {caller : ℕ}

/-- Flow, state and deadline of a session. -/
structure SameTiming (before after : Session) : Prop where
  original : after.original = before.original
  tcpState : after.tcpState = before.tcpState
  expiresAt : after.expiresAt = before.expiresAt

theorem SameTiming.refl (session : Session) : SameTiming session session := ⟨rfl, rfl, rfl⟩

theorem Followed.of_same {table' : SessionTable} (h : Followed id table segments)
    (hsame : ∀ session', table'.sessions.get id = some session' →
      ∃ session, table.sessions.get id = some session ∧ SameTiming session session') :
    Followed id table' segments := by
  intro session' hs' hproto
  obtain ⟨session, hs, horig, htcp, hexp⟩ := hsame session' hs'
  rw [htcp, hexp]
  exact h session hs (horig ▸ hproto)

/-- What leaves the timing of the sessions alone leaves the law alone. -/
theorem followed_endable : Endable SameTiming (Followed id · segments) where
  nat _ _ _ h := h
  replaced sessionId table before after _ h hs hsame := by
    refine h.of_same fun session' hs' => ?_
    change (table.sessions.insert sessionId _).get id = _ at hs'
    rw [HashMap.get_insert] at hs'
    split_ifs at hs' with hid
    · subst hid
      cases hs'
      exact ⟨before, hs, hsame⟩
    · exact ⟨session', hs', .refl _⟩
  rebound table f hf h := by
    refine h.of_same fun session' hs' => ?_
    rw [HashMap.get_mapValues] at hs'
    obtain ⟨session, hs, rfl⟩ := Option.map_eq_some_iff.mp hs'
    exact ⟨session, hs, hf session⟩
  ended table sessionId _ _ h := by
    refine h.of_same fun session' hs' => ?_
    rw [HashMap.get_remove] at hs'
    split_ifs at hs'
    exact ⟨session', hs', .refl _⟩
  deadlines _ _ h := h

end Quiet

section Packets

variable {id : SessionId} {segments : List TcpSegment} {table : SessionTable}

/-- A packet of a known session. -/
theorem Followed.retimed (h : Followed id table segments) {sessionId : SessionId}
    {session : Session} (hs : table.sessions.get sessionId = some session) (segment : TcpSegment) :
    Followed id (table.retimed sessionId session segment.flags segment.isReverse segment.now)
      ((Handled.touched sessionId segment).record id segments) := by
  intro session' hs' hproto
  change (table.sessions.insert sessionId _).get id = _ at hs'
  rw [HashMap.get_insert] at hs'
  by_cases hid : sessionId = id
  · subst hid
    rw [if_pos rfl, Option.some_inj] at hs'
    subst hs'
    replace hproto : session.original.protocol = .tcp := hproto
    obtain ⟨first, rest, rfl, hstate, -⟩ := h session hs hproto
    have htouched := touchedState_closeState hproto hstate segment
    refine ⟨first, rest ++ [segment], by simp [Handled.record], htouched,
      fun hreset last hlast => ?_⟩
    have hle := touchedState_reset_le hproto (htouched.trans (congrArg some hreset))
    simp only [Handled.record, if_true, List.getLast?_concat, Option.mem_def,
      Option.some_inj] at hlast
    subst hlast
    exact Nat.add_le_add_left hle _
  · rw [if_neg fun hc => hid hc.symm] at hs'
    simp only [Handled.record, if_neg hid]
    exact h session' hs' hproto

theorem initialState_tcp {original : FlowKey} {flags : Option UInt8}
    (hproto : original.protocol = .tcp) :
    (initialState original.protocol flags).1 = some .established := by
  rw [hproto]
  cases flags <;> rfl

/-- The packet that opens a session. -/
theorem Followed.opened (h : Followed id table segments) (session : Session) (nat : NatTable)
    (segment : TcpSegment)
    (hstate : session.original.protocol = .tcp → session.tcpState = some .established) :
    Followed id (table.opened session nat)
      ((Handled.created session.id segment).record id segments) := by
  intro session' hs' hproto
  change (table.sessions.insert session.id _).get id = _ at hs'
  rw [HashMap.get_insert] at hs'
  by_cases hid : session.id = id
  · rw [if_pos hid.symm, Option.some_inj] at hs'
    subst hs'
    exact ⟨segment, [], by simp [Handled.record, hid], hstate hproto, fun hc => by cases hc⟩
  · rw [if_neg fun hc => hid hc.symm] at hs'
    simp only [Handled.record, if_neg hid]
    exact h session' hs' hproto

theorem touchTcp_followed (h : Followed id table segments) (caller : ℕ) (sessionId : SessionId)
    (flags : Option UInt8) (isReverse : Bool) (now : Instant) :
    Followed id ((Call.touchTcp sessionId flags isReverse now).apply caller table)
      (((Call.touchTcp sessionId flags isReverse now).handled caller table).record id
      segments) := by
  simp only [Call.apply, Call.handled]
  by_cases howner : caller = table.ownerWorkerId
  · subst howner
    cases hs : table.sessions.get sessionId with
    | some session =>
      rw [touchTcp_ok hs flags isReverse now]
      exact h.retimed hs ⟨flags, isReverse, now⟩
    | none =>
      rw [SessionTable.touchTcp, Act.bind_of_ok (ensureOwner_ok table),
        Act.bind_of_ok (Act.run_get table), hs]
      exact h
  · rw [SessionTable.touchTcp, Act.bind_of_error (ensureOwner_wrong howner)]
    exact h

theorem getOrCreateWithFlagsAt_followed (h : Followed id table segments) (caller : ℕ)
    (original : FlowKey) (interceptIo : IoOwnerKey) (quicFlowId : QuicFlowId)
    (flags : Option UInt8) (isReverse : Bool) (now natNow : Instant) :
    let call := Call.getOrCreateWithFlagsAt original interceptIo quicFlowId flags isReverse now
      natNow
    Followed id (call.apply caller table) ((call.handled caller table).record id segments) := by
  dsimp only
  simp only [Call.apply, Call.handled]
  by_cases howner : caller = table.ownerWorkerId
  · subst howner
    rw [SessionTable.getOrCreateWithFlagsAt, Act.bind_of_ok (ensureOwner_ok table),
      Act.bind_of_ok (Act.run_get table)]
    cases hkey : table.byKey.get ⟨original, interceptIo.ifindex⟩ with
    | some sessionId =>
      cases hs : table.sessions.get sessionId with
      | some session =>
        simp only [hkey]
        rw [Act.bind_of_ok (touchTcp_ok hs flags isReverse now)]
        exact h.retimed hs ⟨flags, isReverse, now⟩
      | none =>
        simp only [hkey]
        have hrun : (SessionTable.touchTcp table.ownerWorkerId sessionId flags isReverse now).run
            table = (.error (.error (.unknownSession sessionId)), table) := by
          rw [SessionTable.touchTcp, Act.bind_of_ok (ensureOwner_ok table),
            Act.bind_of_ok (Act.run_get table), hs]
          rfl
        rw [Act.bind_of_error hrun]
        exact h
    | none =>
      simp only [hkey]
      rcases NatTable.allocateAt_cases table.nat ⟨table.nextSessionId⟩ original
        ⟨table.ownerWorkerId, ⟨table.nextSessionId⟩⟩ natNow with
        ⟨e, quarantined, halloc⟩ | ⟨snat, port, quarantined, -, -, -, -, halloc⟩
      · rw [Act.bind_of_error (onNat_fail halloc)]
        exact h
      · rw [Act.bind_of_ok (onNat_ok halloc)]
        exact h.opened { original, interceptIo, quicFlowId, .. } _ ⟨flags, isReverse, now⟩
          fun hproto =>
          initialState_tcp hproto
  · rw [SessionTable.getOrCreateWithFlagsAt, Act.bind_of_error (ensureOwner_wrong howner)]
    exact h

/-- One call of a run. -/
theorem Call.followed (h : Followed id table segments) (caller : ℕ) (call : Call) :
    Followed id (call.apply caller table) ((call.handled caller table).record id segments) := by
  have hquiet : Endable SameTiming (Followed id · segments) := followed_endable
  cases call with
  | getOrCreateWithFlagsAt original interceptIo quicFlowId flags isReverse now natNow =>
    exact getOrCreateWithFlagsAt_followed h caller original interceptIo quicFlowId flags isReverse
      now natNow
  | touchTcp sessionId flags isReverse now =>
    exact touchTcp_followed h caller sessionId flags isReverse now
  | correctInterceptIo sessionId observed =>
    exact correctInterceptIo_steady (hquiet.replaced sessionId) (fun _ _ => ⟨rfl, rfl, rfl⟩) caller
      observed table h
  | remove sessionId natNow => exact remove_endable hquiet caller sessionId natNow table h
  | expireIdle now clock => exact expireIdle_endable hquiet caller now clock table h
  | allocateEphemeralNat token original natNow =>
    exact allocateEphemeralNat_steady hquiet.toSteady caller token original natNow table h
  | releaseEphemeralNat token natNow =>
    exact releaseEphemeralNat_steady hquiet.toSteady caller token natNow table h
  | rebindQuicFlow oldId newId =>
    exact rebindQuicFlow_steady hquiet.toSteady (fun _ _ => ⟨rfl, rfl, rfl⟩) caller oldId
      newId table h
  | removeByQuicFlow quicFlowId clock =>
    exact removeByQuicFlow_endable hquiet caller quicFlowId clock table h

/-- A run of calls from a table without the session. -/
theorem track_followed (calls : List (ℕ × Call)) (h : Followed id table segments) :
    Followed id (track id (table, segments) calls).1 (track id (table, segments) calls).2 := by
  induction calls generalizing table segments with
  | nil => exact h
  | cons call calls ih => exact ih (Call.followed h call.1 call.2)

end Packets

/-- The state and the deadline of a session as the whole history of its segments
has them. -/
def TracksClose (session : Session) (segments : List TcpSegment) : Prop :=
  session.tcpState = some (closeState segments) ∧
    (segments.any TcpSegment.rst →
      ∀ last ∈ segments.getLast?, session.expiresAt ≤ last.now + tcpClosingTimeout)

/-- In every run of calls, a TCP session that was created in it is tracked exactly
iff its first segment carried neither RST nor FIN or a later one repeated it. -/
theorem track_closes_iff {id : SessionId} {table : SessionTable}
    (hnew : table.sessions.get id = none) (calls : List (ℕ × Call)) {session : Session}
    (hs : (track id (table, []) calls).1.sessions.get id = some session)
    (hproto : session.original.protocol = .tcp) :
    TracksClose session (track id (table, []) calls).2 ↔
      Repeated (track id (table, []) calls).2 := by
  have hstart : Followed id table [] := fun session hs => by
    rw [hnew] at hs
    cases hs
  obtain ⟨first, rest, hsegments, hstate, hdue⟩ := track_followed calls hstart session hs hproto
  rw [hsegments] at hdue ⊢
  rw [← closeState_cons_iff]
  constructor
  · rintro ⟨hexact, -⟩
    exact Option.some_inj.mp (hexact.symm.trans hstate)
  · intro h
    refine ⟨hstate.trans (congrArg some h.symm), fun hrst => hdue ?_⟩
    rw [← h, closeState_eq_reset]
    exact hrst

/-- A table of its own for the runs below. -/
def oneAddressTable : SessionTable :=
  (newDual 0 (some (dotted 203 0 113 5)) none 40000 40009).toOption.get rfl

def webFlow : FlowKey := ⟨.v4 (dotted 192 0 2 1), .v4 (dotted 198 51 100 7), 12345, 443, .tcp⟩

/-- A packet of `webFlow` with the given flags at a given time. -/
def webPacket (flags : UInt8) (now : Instant) : ℕ × Call :=
  (0, .getOrCreateWithFlagsAt webFlow ⟨3, 0⟩ ⟨1⟩ (some flags) false now now)

/-- SYN, then RST. -/
def resetLater : SessionTable × List TcpSegment :=
  track ⟨1⟩ (oneAddressTable, []) [webPacket 0x02 0, webPacket 0x04 7]

theorem resetLater_tracked :
    ∃ session, resetLater.1.sessions.get ⟨1⟩ = some session ∧
      TracksClose session resetLater.2 := by
  have hs := Option.some_get (x := resetLater.1.sessions.get ⟨1⟩) (by decide +kernel)
  exact ⟨_, hs.symm, (track_closes_iff (by decide +kernel) _ hs.symm (by decide +kernel)).mpr
    ⟨by decide +kernel, by decide +kernel⟩⟩

/-- RST, then ACK. -/
def resetFirst : SessionTable × List TcpSegment :=
  track ⟨1⟩ (oneAddressTable, []) [webPacket 0x04 0, webPacket 0x10 1]

/-- A session opened by an RST is established, and its next packet gives it the
five minutes of an open connection. -/
theorem resetFirst_established :
    ∃ session, resetFirst.1.sessions.get ⟨1⟩ = some session ∧
      session.tcpState = some .established ∧ session.expiresAt = 1 + Duration.fromSecs 300 ∧
      ¬ TracksClose session resetFirst.2 := by
  have hs := Option.some_get (x := resetFirst.1.sessions.get ⟨1⟩) (by decide +kernel)
  have hstate : ((resetFirst.1.sessions.get ⟨1⟩).get (by decide +kernel)).tcpState =
      some .established := by
    decide +kernel
  have hreset : closeState resetFirst.2 = .reset := by decide +kernel
  refine ⟨_, hs.symm, hstate, by decide +kernel, fun h => ?_⟩
  exact absurd (hstate.symm.trans (h.1.trans (congrArg some hreset))) (by decide)

end SessionTable

end NewProxy
