import NewProxy.SessionLife

/-!
# The way of a reply through both translations

A packet leaves through the client's worker and the server's worker, each putting
its own address and port in place of the source. The reply to what leaves the server
comes back through both in turn and reaches the flow the packet came from.
-/
namespace NewProxy

namespace Packet

section Passing

variable {p q : Bytes} {l : Layout} {f t : FlowKey}

/-- The TTL or hop limit of a packet. -/
def hopsLeft (p : Bytes) : UInt8 := if p.byteAt 0 >>> 4 = 4 then p.byteAt 8 else p.byteAt 7

theorem Layout.Of.hopsLeft (h : l.Of p) : hopsLeft p = l.hopLimit p := by
  rw [Packet.hopsLeft, Layout.hopLimit, h.version]
  cases l.isV4 <;> simp

theorem Layout.Of.not_translation_hop (h : l.Of p) (proto : TransportProtocol) :
    ¬ l.Translation proto (if l.isV4 then 8 else 7) := by
  have hpos := h.length_pos
  simp only [Layout.Translation, Layout.HeaderSum, Layout.Address, Layout.Ports,
    Layout.TransportSum]
  split_ifs with hv <;> simp [hv] <;> omega

/-- `q` is `p` one hop further, with the flow key `t` and the MSS clamped. -/
structure PassedOn (l : Layout) (p : Bytes) (t : FlowKey) (q : Bytes) : Prop where
  carries : Carries q l t
  checked : Checked q l
  hopLimit : l.hopLimit q = l.hopLimit p - 1
  bytes : ∃ b p', clampTcpMss p tcpMaxSafeMss = .ok (b, p') ∧
    Bytes.SameExcept (l.Edited t.protocol) p' q

/-- The three edits a worker makes go through. -/
theorem passedOn (h : Carries p l f) (hc : Checked p l) (hhop : 1 < l.hopLimit p)
    (hproto : t.protocol = f.protocol) (hsrc : t.source.isV4 = l.isV4)
    (hdst : t.destination.isV4 = l.isV4) (hallow : t.protocol.Allows t.destinationPort) :
    ∃ a b c q, prepareForwardedPacket p = .ok a ∧ parseFlowKey a = .ok f ∧
      clampTcpMss a tcpMaxSafeMss = .ok (b, c) ∧ Carries c l f ∧
      (rewritePacket t).exec c = .ok q ∧ PassedOn l p t q := by
  have hfw := h.layout.forwarded
  have ha := h.keep_forwarding hfw
  have hprep : prepareForwardedPacket p = .ok (forwarded p l) :=
    (prepareForwardedPacket_eq_ok h.layout).mpr
      ⟨(validatePacketChecksums_eq_ok h).mpr hc, hhop, rfl⟩
  obtain ⟨b, p', c, hp', hclamp, hsame⟩ :=
    clampTcpMss_congr h ha rfl (hfw.mono fun i hi => .inl hi) tcpMaxSafeMss
  obtain ⟨_, _, hclamp', hcc, hoptions, -⟩ := clampTcpMss_ok ha tcpMaxSafeMss
  rw [hclamp] at hclamp'
  cases hclamp'
  obtain ⟨q, hrun, hcq, hchecked, htr⟩ := rewritePacket_ok hcc hproto hsrc hdst hallow
  refine ⟨_, b, c, q, hprep, parseFlowKey_eq_ok.mpr ⟨l, ha⟩, hclamp, hcc,
    Act.exec_eq_ok.mpr ⟨(), hrun⟩, hcq, hchecked, ?_, b, p', hp', ?_⟩
  · -- neither the options nor the translated fields hold the hop limit
    have hpos := h.layout.length_pos.1
    rw [← hopLimit_forwarded h.layout]
    calc l.hopLimit q = l.hopLimit c := htr.byte _ (h.layout.not_translation_hop _)
      _ = l.hopLimit (forwarded p l) := hoptions.byte _ (by split_ifs <;> omega)
  · rw [hproto] at htr ⊢
    exact hsame.trans (htr.mono fun i hi => .inr hi)

/-- `q` is made of the packet `p` of the flow `f` by the three edits of a worker: a hop is
counted, the MSS is clamped, and the flow key `t` is put in. -/
def Edits (p : Bytes) (f t : FlowKey) (q : Bytes) : Prop :=
  ∃ a b c, prepareForwardedPacket p = .ok a ∧ parseFlowKey a = .ok f ∧
    clampTcpMss a tcpMaxSafeMss = .ok (b, c) ∧ (rewritePacket t).exec c = .ok q

/-- Edits that go through pass the packet on. -/
theorem Edits.passedOn (h : Edits p f t q)
    (hecho : t.protocol.isEcho = true → t.destinationPort = f.destinationPort) :
    ∃ l, Carries p l f ∧ 1 < l.hopLimit p ∧ t.protocol = f.protocol ∧ PassedOn l p t q := by
  obtain ⟨a, b, c, hprep, hflow, hclamp, hrewrite⟩ := h
  obtain ⟨l, hc, hchecked, hhop, rfl⟩ := carries_of_prepare hprep hflow
  obtain ⟨b', c', hclamp', hcc, -⟩ := clampTcpMss_ok (hc.keep_forwarding hc.layout.forwarded)
    tcpMaxSafeMss
  cases hclamp.symm.trans hclamp'
  obtain ⟨hproto, hsrc, hdst⟩ := rewritePacket_families hcc hrewrite
  have hallow : t.protocol.Allows t.destinationPort := by
    have hallowed := hc.allowed
    rw [← hproto] at hallowed
    cases htp : t.protocol <;> rw [htp] at hecho hallowed <;> first
      | trivial
      | (rw [hecho rfl]; exact hallowed)
  obtain ⟨a', b', c', q', hprep', -, hclamp', -, hrewrite', hpassed⟩ :=
    Packet.passedOn hc hchecked hhop hproto hsrc hdst hallow
  cases hprep.symm.trans hprep'
  cases hclamp.symm.trans hclamp'
  cases hrewrite.symm.trans hrewrite'
  exact ⟨l, hc, hhop, hproto, hpassed⟩

theorem Edits.flows (h : Edits p f t q)
    (hecho : t.protocol.isEcho = true → t.destinationPort = f.destinationPort) :
    parseFlowKey p = .ok f ∧ parseFlowKey q = .ok t := by
  obtain ⟨l, hc, -, -, hpassed⟩ := h.passedOn hecho
  exact ⟨parseFlowKey_eq_ok.mpr ⟨l, hc⟩, parseFlowKey_eq_ok.mpr ⟨l, hpassed.carries⟩⟩

/-- Two hops: the second clamp finds nothing to do. -/
theorem PassedOn.twice {r : Bytes} {t' : FlowKey} (h : Carries p l f) (h1 : PassedOn l p t q)
    (h2 : PassedOn l q t' r) (hproto : t.protocol = f.protocol)
    (hproto' : t'.protocol = f.protocol) :
    l.hopLimit r = l.hopLimit p - 2 ∧ ∃ b p', clampTcpMss p tcpMaxSafeMss = .ok (b, p') ∧
      Bytes.SameExcept (l.Edited f.protocol) p' r := by
  obtain ⟨b, p', hp', hsame⟩ := h1.bytes
  obtain ⟨_, q', hq', hsame'⟩ := h2.bytes
  obtain ⟨_, _, hp'', hcp', -, hagain⟩ := clampTcpMss_ok h tcpMaxSafeMss
  rw [hp'] at hp''
  cases hp''
  rw [hproto] at hsame
  rw [hproto'] at hsame'
  obtain ⟨_, _, _, hagain', hq'', hclamped⟩ :=
    clampTcpMss_congr hcp' h1.carries hproto hsame tcpMaxSafeMss
  rw [hagain] at hagain'
  rw [hq'] at hq''
  cases hagain'
  cases hq''
  refine ⟨?_, b, p', hp', hclamped.trans hsame'⟩
  rw [h2.hopLimit, h1.hopLimit]
  grind

end Passing

end Packet

namespace FlowWorkerState

open Outcome Packet

section Legs

variable {first last : UInt16} {ephemeral : SessionId → Option NatBinding}
  {state state' : FlowWorkerState} {id : SessionId} {session : Session}

/-- A session is translated to an address of its own family. -/
theorem translated_eq {table : SessionTable} (h : table.Coherent first last ephemeral)
    (hs : table.sessions.get id = some session) :
    ∃ snat port, snat.isV4 = session.original.source.isV4 ∧
      session.nat.translated = NatTable.translate session.original snat port := by
  have horig : session.nat.original = session.original := (h.session id session hs).2.2
  rw [← horig]
  exact h.nat.translated_family (h.toLinked.ledger_session hs)

theorem lift_bind_eq_ok {ε ε' α β : Type} {f : ε' → ε} {o : Outcome ε' α}
    {k : α → Act FlowWorkerState ε β} {b : β} :
    (Act.lift f o >>= k).run state = (.ok b, state') ↔
      ∃ a, o = .ok a ∧ (k a).run state = (.ok b, state') := by
  rcases o with (e | _) | a <;> simp [Act.run_bind, mapErr, fail, Outcome.panic]

theorem openSession_eq_ok (h : Leased first last ephemeral state) {flow : FlowKey}
    {io : IoOwnerKey} {quicFlowId : QuicFlowId} {flags : Option UInt8} {now natNow : Instant}
    (hrun : (openSession flow io quicFlowId flags now natNow).run state = (.ok id, state')) :
    ∃ session, state'.sessions.get id = some session ∧ session.original = flow ∧
      (state.sessions.byKey.get ⟨flow, io.ifindex⟩ = none → session.interceptIo = io) := by
  obtain ⟨_, _, hget, hrun⟩ := Act.bind_eq_ok.mp hrun
  cases hget
  obtain ⟨result, s, hattempt, hrun⟩ := Act.bind_eq_ok.mp hrun
  rw [← h.owner] at hattempt
  rcases SessionTable.getOrCreateWithFlagsAt_cases h.sessions.toLinked flow io quicFlowId
    flags false now natNow with ⟨e, quarantined, -, hcall⟩ | ⟨found, session, hs, hkey, hcall⟩ |
      ⟨session, nat, hfree, -, ho, hcall⟩ <;>
    simp only [Act.attempt, onSessions, Act.zoom, hcall, mapErr, fail, Prod.mk.injEq,
      Except.ok.injEq] at hattempt <;> obtain ⟨rfl, rfl⟩ := hattempt
  · dsimp only at hrun
    split_ifs at hrun
    · cases (Act.bind_eq_ok.mp hrun).choose_spec.choose_spec.2
    · cases hrun
  · cases hrun
    refine ⟨_, (HashMap.get_insert _ _ _ _).trans (if_pos rfl), congrArg SessionKey.original hkey,
      fun hnone => ?_⟩
    rw [(h.sessions.byKey _ _).mpr ⟨session, hs, hkey⟩] at hnone
    cases hnone
  · cases hrun
    exact ⟨session, (HashMap.get_insert _ _ _ _).trans (if_pos rfl), ho.original,
      fun _ => ho.interceptIo⟩

/-- What is known of a packet that was passed on outwards. -/
theorem forwardInner_eq_ok (h : Leased first last ephemeral state) {io : IoOwnerKey}
    {packet : Bytes} {quicFlow : QuicFlow} {target : Session → IoOwnerKey} {now natNow : Instant}
    {handled : HandledIntercept}
    (hrun : (forwardInner io packet quicFlow target now natNow).run state =
      (.ok handled, state')) :
    ∃ flow session, state'.sessions.get handled.sessionId = some session ∧ session.original = flow ∧
      Edits packet flow session.nat.translated handled.transmit.packet ∧
      session.nat.translated.destinationPort = flow.destinationPort ∧
      (state.sessions.byKey.get ⟨flow, io.ifindex⟩ = none → session.interceptIo = io) := by
  obtain ⟨_, _, hget, hrun⟩ := Act.bind_eq_ok.mp hrun
  cases hget
  split_ifs at hrun
  · cases hrun
  obtain ⟨prepared, hprep, hrun⟩ := lift_bind_eq_ok.mp hrun
  obtain ⟨flow, hflow, hrun⟩ := lift_bind_eq_ok.mp hrun
  obtain ⟨clamped, hclamp, hrun⟩ := lift_bind_eq_ok.mp hrun
  obtain ⟨flags, -, hrun⟩ := lift_bind_eq_ok.mp hrun
  obtain ⟨sessionId, s, hopen, hrun⟩ := Act.bind_eq_ok.mp hrun
  obtain ⟨session, hs, horig, hnew⟩ := openSession_eq_ok h hopen
  rw [Act.bind_of_ok (Act.run_get s)] at hrun
  simp only [hs] at hrun
  rw [Act.bind_of_ok (show (Act.expect (some session) :
    Act FlowWorkerState FlowWorkerError Session).run s = (.ok session, s) from rfl)] at hrun
  obtain ⟨packet', hrewrite, hrun⟩ := lift_bind_eq_ok.mp hrun
  cases hrun
  have hframed : Framed first last ephemeral state state' := by
    have hends := openSession_spec flow io quicFlow.id flags now natNow state h.framed
    rw [hopen] at hends
    exact hends.1
  obtain ⟨snat, port, -, htr⟩ := translated_eq hframed.sessions hs
  refine ⟨flow, session, hs, horig,
    ⟨prepared, clamped.1, clamped.2, hprep, hflow, hclamp, hrewrite⟩, ?_, hnew⟩
  rw [htr, horig]
  rfl

/-- What is known of a reply that was passed on. -/
theorem handleReverseForInner_eq_ok {packet : Bytes} {locator : SessionLocator}
    {observed : Option IoOwnerKey} {now : Instant} {restored : HandledReverse}
    (h : (handleReverseForInner packet locator observed now).run state =
      (.ok (some restored), state')) :
    restored.sessionId = locator.sessionId ∧ ∃ returnFlow session,
      state.sessions.lookupReverseLocator returnFlow = some locator ∧
      state'.sessions.get locator.sessionId = some session ∧
      Edits packet returnFlow (restoredFlow session returnFlow) restored.packet := by
  obtain ⟨p, hp, h⟩ := lift_bind_eq_ok.mp h
  obtain ⟨returnFlow, hflow, h⟩ := lift_bind_eq_ok.mp h
  rw [Act.bind_of_ok (Act.run_get state)] at h
  cases hlookup : state.sessions.lookupReverseLocator returnFlow with
  | none =>
    rw [hlookup] at h
    cases h
  | some found =>
    simp only [hlookup] at h
    split_ifs at h with hother
    · cases h
    have hfound : found = locator := not_not.mp (not_or.mp hother).1
    obtain ⟨clamped, hclamp, h⟩ := lift_bind_eq_ok.mp h
    obtain ⟨flags, -, h⟩ := lift_bind_eq_ok.mp h
    obtain ⟨accepted, s, -, h⟩ := Act.bind_eq_ok.mp h
    split_ifs at h
    · cases h
    obtain ⟨_, s, -, h⟩ := Act.bind_eq_ok.mp h
    rw [Act.bind_of_ok (Act.run_get s)] at h
    obtain ⟨session, s', hexpect, h⟩ := Act.bind_eq_ok.mp h
    obtain ⟨hs, rfl⟩ := Prod.ext_iff.mp hexpect
    obtain ⟨q, hrewrite, h⟩ := lift_bind_eq_ok.mp h
    cases h
    rw [← hfound]
    exact ⟨rfl, returnFlow, session, hlookup, expect_eq_ok.mp hs, p, clamped.1, clamped.2,
      hp, hflow, hclamp, hrewrite⟩

/-- The queue rule of `correct_intercept_io`: the queue of the session, or any queue
of its interface while it has the first one. -/
def QueueAccepts (recorded observed : IoOwnerKey) : Prop :=
  recorded = observed ∨ recorded.ifindex = observed.ifindex ∧ recorded.queueId = 0

/-- An accepted queue becomes the session's queue. -/
theorem acceptsObserved_ok (h : Leased first last ephemeral state)
    (hs : state.sessions.get id = some session) {observed : Option IoOwnerKey}
    (hobs : ∀ io, observed = some io → QueueAccepts session.interceptIo io) :
    ∃ s, (acceptsObserved id observed).run state = (.ok true, s) ∧
      s.sessions.ownerWorkerId = state.sessions.ownerWorkerId ∧ s.sessions.get id =
        some { session with interceptIo := observed.getD session.interceptIo } := by
  cases observed with
  | none => exact ⟨state, rfl, rfl, hs⟩
  | some io =>
    rw [acceptsObserved, correctServerReturnIo, Act.bind_of_ok (Act.run_get state), ← h.owner,
      Act.run_bind]
    rcases SessionTable.correctInterceptIo_cases hs io with
      ⟨rfl, hrun⟩ | ⟨-, -, -, hrun⟩ | ⟨hne, hqueue, -⟩
    · simp only [Act.attempt, onSessions, Act.zoom, hrun, mapErr]
      exact ⟨state, rfl, rfl, hs⟩
    · simp only [Act.attempt, onSessions, Act.zoom, hrun, mapErr]
      exact ⟨_, rfl, rfl, (HashMap.get_insert _ _ _ _).trans (if_pos rfl)⟩
    · exact absurd (hobs io rfl) (not_or.mpr ⟨hne, hqueue⟩)

theorem touchTcp_same (hs : state.sessions.get id = some session) (flags : Option UInt8)
    (isReverse : Bool) (now : Instant) :
    ∃ s touched, (onSessions FlowWorkerError.session (SessionTable.touchTcp
        state.sessions.ownerWorkerId id flags isReverse now)).run state = (.ok (), s) ∧
      s.sessions.get id = some touched ∧ session.Same True touched ∧
      touched.quicFlowId = session.quicFlowId := by
  simp only [onSessions, Act.zoom, SessionTable.touchTcp_ok hs, mapErr]
  exact ⟨_, _, rfl, (HashMap.get_insert _ _ _ _).trans (if_pos rfl), ⟨rfl, rfl, fun _ => rfl⟩, rfl⟩

/-- A reply to a live session is passed on as the session's own return flow. -/
theorem handleReverseForInner_ok (h : Leased first last ephemeral state)
    (hs : state.sessions.get id = some session) {r : Bytes} {l : Layout} {g : FlowKey}
    (hc : Carries r l g) (hchecked : Checked r l) (hhop : 1 < l.hopLimit r)
    (hret : g.ReturnsTo session.nat.translated) {observed : Option IoOwnerKey}
    (hobs : ∀ io, observed = some io → QueueAccepts session.interceptIo io) (now : Instant) :
    state.lookupReverseLocator g = some ⟨state.workerId, id⟩ ∧
    ∃ q s, (handleReverseForInner r ⟨state.workerId, id⟩ observed now).run state =
        (.ok (some ⟨id, session.quicFlowId, observed.getD session.interceptIo, q⟩), s) ∧
      PassedOn l r (restoredFlow session g) q := by
  have hlookup : state.lookupReverseLocator g = some ⟨state.workerId, id⟩ :=
    h.sessions.toLinked.lookupReverseLocator_eq_some.mpr ⟨session, hs, h.owner.symm, hret⟩
  refine ⟨hlookup, ?_⟩
  obtain ⟨snat, port, hfam, htr⟩ := translated_eq h.sessions hs
  rw [htr] at hret
  -- the restored flow fits the packet
  have hproto : (restoredFlow session g).protocol = g.protocol := by
    rw [hret.2.2.1]
    simp only [restoredFlow]
    split <;> rfl
  have hends : (restoredFlow session g).source = session.original.destination ∧
      (restoredFlow session g).destination = session.original.source := by
    simp only [restoredFlow]
    split <;> exact ⟨rfl, rfl⟩
  have hsrc : (restoredFlow session g).source.isV4 = l.isV4 := by
    rw [hends.1, ← hc.family.1, hret.1]
    rfl
  have hdst : (restoredFlow session g).destination.isV4 = l.isV4 := by
    rw [hends.2, ← hfam, ← hc.family.2, hret.2.1]
    rfl
  have hallow : (restoredFlow session g).protocol.Allows
      (restoredFlow session g).destinationPort :=
    restoredFlow_allows (htr ▸ hret) (by rw [htr]; rfl) hc.allowed
  obtain ⟨a, b, c, q, hprep, hflow, hclamp, hcc, hrewrite, hpassed⟩ :=
    passedOn hc hchecked hhop hproto hsrc hdst hallow
  obtain ⟨s, haccept, howner, hs'⟩ := acceptsObserved_ok h hs hobs
  obtain ⟨flags, hflags⟩ : ∃ flags, parseTcpFlags c = .ok flags := ⟨_, parseTcpFlags_ok hcc⟩
  obtain ⟨s', touched, htouch, hfound, hsame, hquic⟩ := touchTcp_same hs' flags true now
  rw [howner, h.owner] at htouch
  have horig : touched.original = session.original := hsame.original
  have hio : touched.interceptIo = observed.getD session.interceptIo := hsame.interceptIo trivial
  have hrestored : restoredFlow touched g = restoredFlow session g := by
    simp only [restoredFlow, horig]
  refine ⟨q, s', ?_, hpassed⟩
  refine lift_bind_eq_ok.mpr ⟨a, hprep, lift_bind_eq_ok.mpr ⟨g, hflow, ?_⟩⟩
  rw [Act.bind_of_ok (Act.run_get state)]
  simp only [show state.sessions.lookupReverseLocator g = _ from hlookup]
  rw [if_neg (by simp)]
  refine lift_bind_eq_ok.mpr ⟨(b, c), hclamp, lift_bind_eq_ok.mpr ⟨flags, hflags, ?_⟩⟩
  rw [Act.bind_of_ok haccept, if_neg (by simp), Act.bind_of_ok htouch,
    Act.bind_of_ok (Act.run_get _)]
  simp only [hfound]
  refine lift_bind_eq_ok.mpr ⟨q, by rw [hrestored]; exact hrewrite, ?_⟩
  rw [hquic, hio]
  rfl

theorem handleReverse_ok (h : Leased first last ephemeral state)
    (hs : state.sessions.get id = some session) {r : Bytes} {l : Layout} {g : FlowKey}
    (hc : Carries r l g) (hchecked : Checked r l) (hhop : 1 < l.hopLimit r)
    (hret : g.ReturnsTo session.nat.translated) (now : Instant) :
    ∃ q s, (handleReverse r now).run state =
        (.ok (some ⟨id, session.quicFlowId, session.interceptIo, q⟩), s) ∧
      PassedOn l r (restoredFlow session g) q := by
  obtain ⟨hlookup, q, s, hrun, hpassed⟩ := handleReverseForInner_ok h hs hc hchecked hhop hret
    (fun io (hio : none = some io) => by cases hio) now
  refine ⟨q, s, lift_bind_eq_ok.mpr ⟨g, parseFlowKey_eq_ok.mpr ⟨l, hc⟩, ?_⟩, hpassed⟩
  rw [Act.bind_of_ok (Act.run_get state)]
  simp only [show state.sessions.lookupReverseLocator g = _ from hlookup]
  exact hrun

end Legs

section RoundTrip

/-- The states a worker can get into. -/
def Reachable (state : FlowWorkerState) : Prop :=
  ∃ workerId snatIpv4 snatIpv6 first last start ops,
    newDual workerId snatIpv4 snatIpv6 first last = .ok start ∧ state = start.after ops

theorem Sound.leased {first last : UInt16} {strict : Prop} {listen : SocketAddr} {capacity : ℕ}
    {state : FlowWorkerState} (h : Sound first last strict listen capacity state) :
    ∃ ephemeral, Leased first last ephemeral state := by
  obtain ⟨ephemeral, hl, -⟩ := h
  exact ⟨ephemeral, hl⟩

theorem Sound.forwardInner {first last : UInt16} {strict : Prop} {listen : SocketAddr}
    {capacity : ℕ} {state state' : FlowWorkerState}
    (h : Sound first last strict listen capacity state) {io : IoOwnerKey} {packet : Bytes}
    {quicFlow : QuicFlow} {target : Session → IoOwnerKey} {now natNow : Instant}
    {handled : HandledIntercept} (hrun : (forwardInner io packet quicFlow target now natNow).run
      state = (.ok handled, state')) : Sound first last strict listen capacity state' := by
  have hends :=
    (sound_of_framed fun _ _ => forwardInner_keeps io packet quicFlow target now natNow).state h
  rwa [hrun] at hends

theorem Reachable.sound {state : FlowWorkerState} (h : state.Reachable) :
    ∃ first last, Sound first last False ⟨.v4 (Vector.replicate 4 0), 0⟩ 0 state := by
  obtain ⟨_, _, _, first, last, _, ops, hstart, rfl⟩ := h
  exact ⟨first, last, after_sound (sound_newDual hstart) ops fun _ _ hs => hs.elim⟩

/-- A packet of a flow that is fit for two hops. A fragment has no flow. -/
structure Deliverable (packet : Bytes) (flow : FlowKey) : Prop where
  flow : parseFlowKey packet = .ok flow
  checksums : validatePacketChecksums packet = .ok ()
  hops : 2 < hopsLeft packet

/-- The answer of a session's worker answers the flow the session came from. -/
theorem restoredFlow_returnsTo (session : Session) (reply : FlowKey) :
    (restoredFlow session reply).ReturnsTo session.original := by
  cases horig : session.original.protocol <;>
    simp [restoredFlow, FlowKey.ReturnsTo, FlowKey.reverse, TransportProtocol.isEcho, horig]

/-- The flow a reply has once it is back: that of the packet reversed, where echo
messages keep the reply's type and the packet's identifier. -/
def returnedFlow (flow reply : FlowKey) : FlowKey :=
  if flow.protocol.isEcho then
    ⟨flow.destination, flow.source, flow.sourcePort, reply.destinationPort, flow.protocol⟩
  else flow.reverse

theorem restoredFlow_restoredFlow {session session' : Session} {reply : FlowKey}
    (hproto : session'.original.protocol = session.original.protocol) :
    restoredFlow session (restoredFlow session' reply) = returnedFlow session.original reply := by
  cases horig : session.original.protocol <;> rw [horig] at hproto <;>
    simp [restoredFlow, returnedFlow, TransportProtocol.isEcho, horig, hproto]

/-- Replies find their way back. A packet goes out through both workers; a reply to it
comes in while both sessions live. The server's worker and the client's worker pass it
on, it reaches the interface recorded for the packet's session with the packet's flow
reversed, and nothing changes but hop limit, addresses, ports or identifier, checksums
and an MSS above the safe one. -/
theorem round_trip {client client' server server' : FlowWorkerState} (hclient : client.Reachable)
    (hserver : server.Reachable) {io tunnelTarget defaultIntercept observed : IoOwnerKey}
    {packet : Bytes} {quicFlow quicFlow' : QuicFlow} {now natNow now' natNow' : Instant}
    {sent served : HandledIntercept}
    (hsent : (handleIntercept io packet quicFlow tunnelTarget now natNow).run client =
      (.ok sent, client'))
    (hserved : (handleServerInner defaultIntercept sent.transmit.packet quicFlow' now' natNow').run
      server = (.ok served, server'))
    {clientOps serverOps : List (DnsFlowConfig × Op)}
    (hclientLive : StaysLive sent.sessionId client' clientOps)
    (hserverLive : StaysLive served.sessionId server' serverOps)
    {reply : Bytes} {translated replyFlow : FlowKey}
    (htranslated : parseFlowKey served.transmit.packet = .ok translated)
    (hreply : Deliverable reply replyFlow) (hreturns : replyFlow.ReturnsTo translated)
    (hqueue : ∀ session, (server'.after serverOps).sessions.get served.sessionId = some session →
      QueueAccepts session.interceptIo observed) (serverNow clientNow : Instant) :
    ∃ flow locator atServer server'' atClient client'' recorded,
      parseFlowKey packet = .ok flow ∧
      (server'.after serverOps).lookupReverseLocator replyFlow = some locator ∧
      (handleServerReverse observed reply locator serverNow).run (server'.after serverOps) =
        (.ok (some atServer), server'') ∧
      (handleReverse atServer.packet clientNow).run (client'.after clientOps) =
        (.ok (some atClient), client'') ∧
      (client'.after clientOps).sessions.get sent.sessionId = some recorded ∧
      atClient.localTarget = recorded.interceptIo ∧
      (client.sessions.byKey.get ⟨flow, io.ifindex⟩ = none →
        (∀ op ∈ clientOps, op.2.corrects = false) → atClient.localTarget = io) ∧
      parseFlowKey atClient.packet = .ok (returnedFlow flow replyFlow) ∧
      validatePacketChecksums atClient.packet = .ok () ∧
      hopsLeft atClient.packet = hopsLeft reply - 2 ∧
      ∃ (l : Layout) (b : Bool) (clamped : Bytes), l.Of reply ∧
      clampTcpMss reply tcpMaxSafeMss = .ok (b, clamped) ∧
        Bytes.SameExcept (l.Edited replyFlow.protocol) clamped atClient.packet := by
  obtain ⟨first, last, hc⟩ := hclient.sound
  obtain ⟨first', last', hs⟩ := hserver.sound
  -- what the two workers know of the packet when the reply comes
  obtain ⟨flow, session, hsession, horig, hedits, hport, hnew⟩ :=
    forwardInner_eq_ok hc.leased.choose_spec hsent
  obtain ⟨between, session', hsession', horig', hedits', hport', -⟩ :=
    forwardInner_eq_ok hs.leased.choose_spec hserved
  obtain ⟨hflow, hbetween⟩ := hedits.flows fun _ => hport
  obtain ⟨hbetween', htranslated'⟩ := hedits'.flows fun _ => hport'
  rw [hbetween, Except.ok.injEq] at hbetween'
  rw [htranslated, Except.ok.injEq] at htranslated'
  have hc' := hc.forwardInner hsent
  have hs' := hs.forwardInner hserved
  obtain ⟨recorded, hrecorded, hsame⟩ : ∃ now,
      (client'.after clientOps).sessions.get sent.sessionId = some now ∧
        session.Same (∀ op ∈ clientOps, op.2.corrects = false) now :=
    after_same hc' hclientLive hsession fun hp => hp
  obtain ⟨recorded', hrecorded', hsame'⟩ : ∃ now,
      (server'.after serverOps).sessions.get served.sessionId = some now ∧
        session'.Same False now :=
    after_same hs' hserverLive hsession' fun hp => hp.elim
  obtain ⟨_, hlc⟩ := (after_sound hc' clientOps fun _ _ hp => hp.elim).leased
  obtain ⟨_, hls⟩ := (after_sound hs' serverOps fun _ _ hp => hp.elim).leased
  -- the server's leg
  obtain ⟨l, hcarry⟩ := parseFlowKey_eq_ok.mp hreply.flow
  have hchecked := (validatePacketChecksums_eq_ok hcarry).mp hreply.checksums
  have hhops := hreply.hops
  rw [hcarry.layout.hopsLeft] at hhops
  have hret : replyFlow.ReturnsTo recorded'.nat.translated := by
    rw [hsame'.nat, ← htranslated']
    exact hreturns
  obtain ⟨hlookup, q, server'', hrun, hpassed⟩ := handleReverseForInner_ok hls hrecorded' hcarry
    hchecked (by grind) hret (fun io' (hio : some observed = some io') =>
      Option.some_inj.mp hio ▸ hqueue recorded' hrecorded') serverNow
  -- the client's leg
  have hret' : (restoredFlow recorded' replyFlow).ReturnsTo recorded.nat.translated := by
    rw [hsame.nat, hbetween', ← horig', ← hsame'.original]
    exact restoredFlow_returnsTo recorded' replyFlow
  obtain ⟨q', client'', hrun', hpassed'⟩ := handleReverse_ok hlc hrecorded hpassed.carries
    hpassed.checked (by rw [hpassed.hopLimit]; grind) hret' clientNow
  -- both flows have the protocol of the reply
  have hproto : recorded'.original.protocol = recorded.original.protocol := by
    obtain ⟨_, _, -, htr⟩ := translated_eq hlc.sessions hrecorded
    rw [hsame'.original, horig', ← hbetween', ← hsame.nat, htr]
    rfl
  have hproto' : replyFlow.protocol = recorded'.original.protocol := by
    obtain ⟨_, _, -, htr⟩ := translated_eq hls.sessions hrecorded'
    rw [hret.2.2.1, htr]
    rfl
  obtain ⟨hhop, b, clamped, hclamp, hbytes⟩ := hpassed.twice hcarry hpassed'
    ((restoredFlow_returnsTo recorded' replyFlow).2.2.1.trans hproto'.symm)
    ((restoredFlow_returnsTo recorded _).2.2.1.trans (hproto'.trans hproto).symm)
  refine ⟨flow, _, _, server'', _, client'', recorded, hflow, hlookup, hrun, hrun', hrecorded, rfl,
    fun hfree hpin => (hsame.interceptIo hpin).trans (hnew hfree), ?_,
    (validatePacketChecksums_eq_ok hpassed'.carries).mpr hpassed'.checked, ?_,
    l, b, clamped, hcarry.layout, hclamp, hbytes⟩
  · rw [← horig, ← hsame.original, ← restoredFlow_restoredFlow hproto]
    exact parseFlowKey_eq_ok.mpr ⟨l, hpassed'.carries⟩
  · rw [hcarry.layout.hopsLeft, hpassed'.carries.layout.hopsLeft, hhop]

/-- A datagram from 192.168.1.2:5000 to 8.8.8.8:53. -/
def datagram : Bytes :=
  [69, 0, 0, 28, 0, 1, 0, 0, 9, 17, 224, 22, 192, 168, 1, 2, 8, 8, 8, 8, 19, 136, 0, 53, 0, 8, 0, 0]

def clientSide : FlowWorkerState :=
  (newDual 0 (some #v[192, 0, 2, 1]) none 1000 1001).toOption.get rfl

def serverSide : FlowWorkerState :=
  (newDual 0 (some #v[198, 51, 100, 1]) none 1000 1001).toOption.get rfl

theorem clientSide_reachable : clientSide.Reachable :=
  ⟨0, some #v[192, 0, 2, 1], none, 1000, 1001, clientSide, [], rfl, rfl⟩

theorem serverSide_reachable : serverSide.Reachable :=
  ⟨0, some #v[198, 51, 100, 1], none, 1000, 1001, serverSide, [], rfl, rfl⟩

/-- What the client's worker makes of it. -/
def datagramSent : HandledIntercept :=
  ⟨⟨1⟩, ⟨4, 0⟩, [69, 0, 0, 28, 0, 1, 0, 0, 8, 17, 224, 191, 192, 0, 2, 1, 8, 8, 8, 8, 3, 232, 0, 53,
    0, 8, 0, 0], none⟩

theorem clientSide_run :
    ((handleIntercept ⟨3, 0⟩ datagram ⟨⟨1⟩, 0, 0⟩ ⟨4, 0⟩ 0 0).run clientSide).1 =
      .ok datagramSent := by
  decide +kernel

/-- What the server's worker makes of that. -/
def datagramServed : HandledIntercept :=
  ⟨⟨1⟩, ⟨5, 0⟩, [69, 0, 0, 28, 0, 1, 0, 0, 7, 17, 121, 140, 198, 51, 100, 1, 8, 8, 8, 8, 3, 232, 0,
    53, 0, 8, 0, 0], none⟩

theorem serverSide_run :
    ((handleServerInner ⟨5, 0⟩ datagramSent.transmit.packet ⟨⟨1⟩, 0, 0⟩ 0 0).run
    serverSide).1 = .ok datagramServed := by
  decide +kernel

/-- The datagram leaves as one from 198.51.100.1:1000 and is answered. -/
theorem round_trip_datagram : ∃ client client' server server' sent served,
    (handleIntercept ⟨3, 0⟩ datagram ⟨⟨1⟩, 0, 0⟩ ⟨4, 0⟩ 0 0).run client = (.ok sent, client') ∧
    (handleServerInner ⟨5, 0⟩ sent.transmit.packet ⟨⟨1⟩, 0, 0⟩ 0 0).run server =
      (.ok served, server') ∧
    ∃ locator atServer server'' atClient client'',
      (handleServerReverse ⟨5, 2⟩ [69, 0, 0, 28, 0, 1, 0, 0, 9, 17, 119, 140, 8, 8, 8, 8, 198, 51,
        100, 1, 0, 53, 3, 232, 0, 8, 0, 0] locator 1).run server' =
          (.ok (some atServer), server'') ∧
      (handleReverse atServer.packet 1).run client' = (.ok (some atClient), client'') ∧
      parseFlowKey atClient.packet =
        .ok ⟨.v4 #v[8, 8, 8, 8], .v4 #v[192, 168, 1, 2], 53, 5000, .udp⟩ := by
  let server' := ((handleServerInner ⟨5, 0⟩ datagramSent.transmit.packet ⟨⟨1⟩, 0, 0⟩ 0 0).run
    serverSide).2
  have hreply : Deliverable [69, 0, 0, 28, 0, 1, 0, 0, 9, 17, 119, 140, 8, 8, 8, 8, 198, 51, 100, 1,
      0, 53, 3, 232, 0, 8, 0, 0] ⟨.v4 #v[8, 8, 8, 8], .v4 #v[198, 51, 100, 1], 53, 1000, .udp⟩ :=
    ⟨by decide +kernel, by decide +kernel, by decide +kernel⟩
  have hqueue : ∀ session, (server'.after []).sessions.get ⟨1⟩ = some session →
      QueueAccepts session.interceptIo ⟨5, 2⟩ := by
    have hall : (server'.sessions.get ⟨1⟩).all
        (fun session => session.interceptIo = ⟨5, 0⟩) = true := by decide +kernel
    intro session hsession
    rw [show server'.sessions.get ⟨1⟩ = some session from hsession] at hall
    have hio : session.interceptIo = ⟨5, 0⟩ := by simpa using hall
    exact .inr ⟨by rw [hio], by rw [hio]⟩
  obtain ⟨flow, locator, atServer, server'', atClient, client'', recorded, hflow, -, hatServer,
    hatClient, -, -, -, hparse, -⟩ := round_trip clientSide_reachable
    serverSide_reachable (Prod.ext clientSide_run rfl) (Prod.ext serverSide_run rfl)
    (show StaysLive ⟨1⟩ _ [] from Option.isSome_iff_exists.mp (by decide +kernel))
    (show StaysLive ⟨1⟩ _ [] from Option.isSome_iff_exists.mp (by decide +kernel))
    (show parseFlowKey _ = .ok ⟨.v4 #v[198, 51, 100, 1], .v4 #v[8, 8, 8, 8], 1000, 53, .udp⟩ from
      by decide +kernel) hreply (by simp [FlowKey.ReturnsTo, TransportProtocol.isEcho]) hqueue 1 1
  have hflow' : flow = ⟨.v4 #v[192, 168, 1, 2], .v4 #v[8, 8, 8, 8], 5000, 53, .udp⟩ :=
    Except.ok.inj (hflow.symm.trans (by decide +kernel))
  subst hflow'
  exact ⟨clientSide, _, serverSide, server', datagramSent, datagramServed,
    Prod.ext clientSide_run rfl, Prod.ext serverSide_run rfl, locator, atServer, server'', atClient,
    client'', hatServer, hatClient, hparse⟩

end RoundTrip

end FlowWorkerState

end NewProxy
