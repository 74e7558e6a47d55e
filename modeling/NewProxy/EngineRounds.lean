import NewProxy.QuicCalls

/-!
# One round of the engine

Every call of the engine ends with a round that drives both connections and then acts
upon what they reported. Here is what one round can do: to a connection while it is
driven, to the ids that are announced meanwhile, and to the two slots, the published
ids and the queue when the reports are settled.
-/
namespace NewProxy

open Quic

namespace Quic

section Driving

/-- What driving a connection leaves alone: its handle, its ids and its deadline. -/
def ManagedConnection.marks (managed : ManagedConnection) :
    ConnectionHandle × HashSet Bytes × Instant × Bool :=
  (managed.handle, managed.dcids, managed.authDeadline, managed.dcidLimitExceeded)

/-- A part of driving a connection. What has been reported stays reported, and the
connection is authenticated only by being reported so. -/
structure Driven.Leads (driven next : Driven) : Prop where
  marks : next.managed.marks = driven.managed.marks
  endpointEvents : next.drive.endpointEvents = driven.drive.endpointEvents
  authenticated : next.managed.auth.authenticated →
    driven.managed.auth.authenticated ∨ next.drive.authenticatedNow
  authenticatedNow : driven.drive.authenticatedNow → next.drive.authenticatedNow
  lost : driven.drive.lost → next.drive.lost

namespace Driven

variable {driven next last : Driven}

theorem Leads.refl (driven : Driven) : driven.Leads driven :=
  ⟨rfl, rfl, Or.inl, id, id⟩

theorem Leads.trans (h : driven.Leads next) (h' : next.Leads last) : driven.Leads last where
  marks := h'.marks.trans h.marks
  endpointEvents := h'.endpointEvents.trans h.endpointEvents
  authenticated ha := by
    rcases h'.authenticated ha with ha | ha
    · exact (h.authenticated ha).imp_right h'.authenticatedNow
    · exact Or.inr ha
  authenticatedNow := h'.authenticatedNow ∘ h.authenticatedNow
  lost := h'.lost ∘ h.lost

theorem Leads.foldl {α : Type} {f : Driven → α → Driven}
    (hf : ∀ (driven : Driven) a, driven.Leads (f driven a))
    (l : List α) (driven : Driven) : driven.Leads (l.foldl f driven) := by
  induction l generalizing driven with
  | nil => exact .refl driven
  | cons a l ih => exact (hf driven a).trans (ih (f driven a))

/-- Only the streams and what was written on them change. -/
theorem leads_of_managed {managed : ManagedConnection} (hm : managed.marks = driven.managed.marks)
    (ha : managed.auth.authenticated = driven.managed.auth.authenticated) :
    driven.Leads { driven with managed } :=
  ⟨hm, rfl, fun h => Or.inl (ha ▸ h), id, id⟩

theorem leads_setLost (driven : Driven) : driven.Leads driven.setLost :=
  ⟨rfl, rfl, Or.inl, id, fun _ => rfl⟩

/-- First a change that leaves `authenticated` alone or takes it back. -/
theorem Leads.of_setAuth {f : AuthState → AuthState} (h : (driven.setAuth f).Leads next)
    (hf : ∀ auth, (f auth).authenticated → auth.authenticated) : driven.Leads next :=
  have hset : driven.Leads (driven.setAuth f) := ⟨rfl, rfl, fun h => Or.inl (hf _ h), id, id⟩
  hset.trans h

theorem leads_authenticate (driven : Driven) : driven.Leads driven.authenticate :=
  ⟨rfl, rfl, fun _ => Or.inr rfl, fun _ => rfl, id⟩

theorem leads_revoke (driven : Driven) : driven.Leads driven.revoke :=
  .of_setAuth (leads_setLost _) fun _ h => by cases h

theorem leads_lostIfFailed (outcome : AuthFlushOutcome) (driven : Driven) :
    driven.Leads (lostIfFailed outcome driven) := by
  cases outcome with
  | failed => exact leads_setLost driven
  | complete => exact .refl driven
  | blocked => exact .refl driven

end Driven

open Driven

theorem flushFrames_keeps (writes : List WriteOutcome) (managed : ManagedConnection) :
    (flushFrames writes managed).2.marks = managed.marks ∧
      (flushFrames writes managed).2.auth.authenticated = managed.auth.authenticated := by
  induction writes generalizing managed with
  | nil =>
    unfold flushFrames
    split <;> exact ⟨rfl, rfl⟩
  | cons write writes ih =>
    unfold flushFrames
    cases managed.auth.transmit with
    | nil => exact ⟨rfl, rfl⟩
    | cons frame rest =>
      cases write with
      | blocked => exact ⟨rfl, rfl⟩
      | failed => exact ⟨rfl, rfl⟩
      | written more =>
        obtain ⟨hm, ha⟩ := ih _
        refine ⟨hm.trans rfl, ha.trans ?_⟩
        dsimp only
        split_ifs <;> rfl

theorem flushAuthStream_keeps (writes : List WriteOutcome) (managed : ManagedConnection) :
    (flushAuthStream writes managed).2.marks = managed.marks ∧
      (flushAuthStream writes managed).2.auth.authenticated = managed.auth.authenticated := by
  unfold flushAuthStream
  cases managed.auth.stream with
  | none => exact ⟨rfl, rfl⟩
  | some stream => exact flushFrames_keeps writes managed

variable {hmac : Hmac} {role : QuicRole} {sharedKey : Secret}

theorem queueAuthFrame_keeps (kind : UInt8) (label : Bytes) (clientNonce serverNonce : Nonce)
    (exporter : Option Secret) (writes : List WriteOutcome) (managed : ManagedConnection) :
    let queued := (queueAuthFrame hmac sharedKey kind label clientNonce serverNonce exporter writes
      managed).2
    queued.marks = managed.marks ∧ queued.auth.authenticated = managed.auth.authenticated := by
  unfold queueAuthFrame
  cases exporter with
  | none => exact ⟨rfl, rfl⟩
  | some exporter => exact flushAuthStream_keeps writes _

theorem leads_queue (kind : UInt8) (label : Bytes) (clientNonce serverNonce : Nonce)
    (exchange : Exchange) {next : AuthFlushOutcome → Driven → Driven}
    (hnext : ∀ outcome (driven : Driven), driven.Leads (next outcome driven)) (driven : Driven) :
    driven.Leads
      (driven.queue hmac sharedKey kind label clientNonce serverNonce exchange next) := by
  obtain ⟨hm, ha⟩ := queueAuthFrame_keeps kind label clientNonce serverNonce exchange.replyExporter
    exchange.writes driven.managed
  exact (leads_of_managed hm ha).trans (hnext _ _)

theorem leads_startClientAuthentication (stream : Option StreamId) (exchange : Exchange)
    (driven : Driven) :
    driven.Leads (startClientAuthentication hmac sharedKey stream exchange driven) := by
  unfold startClientAuthentication
  cases stream with
  | none => exact leads_setLost driven
  | some stream =>
    exact .of_setAuth (leads_queue _ _ _ _ _ leads_lostIfFailed _) fun _ h => h

theorem leads_handleAuthFrame (frame : Bytes) (exchange : Exchange) (driven : Driven) :
    driven.Leads (handleAuthFrame hmac role sharedKey frame exchange driven) := by
  unfold handleAuthFrame
  cases exchange.exporter with
  | none => exact leads_setLost driven
  | some exporter =>
    dsimp only
    split_ifs
    · exact .of_setAuth (leads_queue _ _ _ _ _ leads_lostIfFailed _) fun _ h => h
    · exact .of_setAuth (leads_queue _ _ _ _ _ leads_lostIfFailed _) fun _ h => h
    · refine leads_queue _ _ _ _ _ (fun outcome driven => ?_) driven
      cases outcome with
      | complete => exact leads_authenticate driven
      | blocked => exact .of_setAuth (.refl _) fun _ h => h
      | failed => exact leads_setLost driven
    · exact .of_setAuth (leads_authenticate _) fun _ h => h
    · exact leads_setLost driven

theorem leads_drainAuthStream (read : StreamRead) (driven : Driven) :
    driven.Leads (drainAuthStream hmac role sharedKey read driven) := by
  unfold drainAuthStream
  cases driven.managed.auth.stream with
  | none => exact .refl driven
  | some stream =>
    cases read.bytes with
    | none => exact leads_revoke driven
    | some received =>
      dsimp only
      split_ifs
      · exact .of_setAuth (leads_setLost _) fun _ h => h
      · exact .of_setAuth (.of_setAuth (leads_handleAuthFrame _ _ _) fun _ h => h) fun _ h => h
      · exact .of_setAuth (.refl _) fun _ h => h

theorem leads_flushAndAuthenticate (writes : List WriteOutcome) (driven : Driven) :
    driven.Leads (flushAndAuthenticate writes driven) := by
  obtain ⟨hm, ha⟩ := flushAuthStream_keeps writes driven.managed
  have hflushed := leads_of_managed hm ha
  unfold flushAndAuthenticate
  dsimp only
  cases (flushAuthStream writes driven.managed).1 with
  | complete =>
    dsimp only
    split_ifs
    · exact hflushed.trans (.of_setAuth (leads_authenticate _) fun _ h => h)
    · exact hflushed
  | failed => exact hflushed.trans (leads_revoke _)
  | blocked => exact hflushed

theorem leads_acceptStream (driven : Driven) (accepted : StreamId × StreamRead) :
    driven.Leads (acceptStream hmac role sharedKey driven accepted) := by
  unfold acceptStream
  split_ifs
  · exact .of_setAuth (leads_drainAuthStream _ _) fun _ h => h
  · exact leads_setLost driven

theorem leads_handleStreamEvent (driven : Driven) (event : StreamEvent) :
    driven.Leads (handleStreamEvent hmac role sharedKey driven event) := by
  cases event with
  | openedBi accepted =>
    unfold handleStreamEvent
    dsimp only
    split_ifs
    · exact .foldl leads_acceptStream accepted driven
    · exact leads_setLost driven
  | openedUni => exact leads_setLost driven
  | readable id read =>
    unfold handleStreamEvent
    dsimp only
    split_ifs
    · exact leads_drainAuthStream read driven
    · exact leads_setLost driven
  | writable id writes =>
    unfold handleStreamEvent
    dsimp only
    split_ifs
    · exact leads_flushAndAuthenticate writes driven
    · exact leads_setLost driven
  | stopped id => exact leads_setLost driven
  | finished id =>
    unfold handleStreamEvent
    dsimp only
    split_ifs
    · exact leads_setLost driven
    · exact .refl driven
  | available => exact .refl driven

theorem leads_handleEvent (driven : Driven) (event : Event) :
    driven.Leads (handleEvent hmac role sharedKey driven event) := by
  cases event with
  | connected stream exchange =>
    unfold handleEvent
    dsimp only
    split_ifs
    · exact leads_startClientAuthentication stream exchange driven
    · exact .refl driven
  | datagramReceived datagrams => exact ⟨rfl, rfl, Or.inl, id, id⟩
  | stream event => exact .refl driven
  | connectionLost => exact leads_setLost driven
  | other => exact .refl driven

theorem leads_checkRetired (wasAuthenticated : Bool) (retired : UInt64) (driven : Driven) :
    driven.Leads (checkRetired wasAuthenticated retired driven) := by
  have hnoted : driven.Leads
      { driven with managed := { driven.managed with retiredDcidFrames := retired } } :=
    leads_of_managed rfl rfl
  unfold checkRetired
  dsimp only
  split_ifs
  · exact hnoted
  · exact hnoted.trans (leads_setLost _)
  · exact hnoted
  · exact .refl driven

/-- What driving a connection comes to. -/
structure Drives (now : Instant) (managed : ManagedConnection) (driven : Driven) : Prop where
  marks : driven.managed.marks = managed.marks
  /-- its events for the endpoint bear its handle -/
  handles : ∀ event ∈ driven.drive.endpointEvents, event.1 = managed.handle
  authenticated : driven.managed.auth.authenticated →
    managed.auth.authenticated ∨ driven.drive.authenticatedNow
  late : managed.auth.authenticated = false → managed.authDeadline ≤ now → driven.drive.lost

theorem drives_of_leads {now : Instant} {managed : ManagedConnection} {first driven : Driven}
    (input : ConnectionInput) (hm : first.managed = managed) (he : first.drive.endpointEvents = [])
    (hl : managed.auth.authenticated = false → managed.authDeadline ≤ now → first.drive.lost)
    (h : first.Leads driven) : Drives now managed (finishConnectionDrive input driven) where
  marks := h.marks.trans (congrArg _ hm)
  handles event hevent := by
    have hmarks : driven.managed.marks = managed.marks := h.marks.trans (congrArg _ hm)
    have hhandle : driven.managed.handle = managed.handle := congrArg Prod.fst hmarks
    simp only [finishConnectionDrive, h.endpointEvents, he, List.nil_append, List.mem_map] at hevent
    obtain ⟨_, _, rfl⟩ := hevent
    exact hhandle
  authenticated ha := hm ▸ h.authenticated ha
  late ha hd := h.lost (hl ha hd)

theorem driveConnection_drives (now : Instant) (input : ConnectionInput)
    (managed : ManagedConnection) :
    Drives now managed (driveConnection hmac role sharedKey now input managed) := by
  have hevents : ∀ first : Driven, first.Leads
      ((input.events.filterMap streamEvent?).foldl (handleStreamEvent hmac role sharedKey)
        (input.events.foldl (handleEvent hmac role sharedKey) first)) :=
    fun first => (Leads.foldl leads_handleEvent _ first).trans (.foldl leads_handleStreamEvent _ _)
  have hlate : managed.auth.authenticated = false → managed.authDeadline ≤ now →
      (managed.dcidLimitExceeded ||
        decide (managed.auth.authenticated = false ∧ managed.authDeadline ≤ now)) = true := by
    intro ha hd
    rw [decide_eq_true ⟨ha, hd⟩, Bool.or_true]
  unfold driveConnection
  dsimp only
  split_ifs
  · exact drives_of_leads input rfl rfl hlate (hevents _)
  · exact drives_of_leads input rfl rfl hlate
      ((hevents _).trans ((leads_flushAndAuthenticate _ _).trans (leads_checkRetired _ _ _)))

end Driving

section Ids

/-- More ids are tracked for a connection, or datagrams were handed to it. -/
structure ManagedConnection.Grows (managed next : ManagedConnection) : Prop where
  handle : next.handle = managed.handle
  auth : next.auth = managed.auth
  authDeadline : next.authDeadline = managed.authDeadline
  dcids : ∀ dcid, managed.dcids.contains dcid → next.dcids.contains dcid
  exceeded : managed.dcidLimitExceeded → next.dcidLimitExceeded

namespace ManagedConnection

variable {managed next last : ManagedConnection}

theorem Grows.refl (managed : ManagedConnection) : managed.Grows managed :=
  ⟨rfl, rfl, rfl, fun _ => id, id⟩

theorem Grows.trans (h : managed.Grows next) (h' : next.Grows last) : managed.Grows last where
  handle := h'.handle.trans h.handle
  auth := h'.auth.trans h.auth
  authDeadline := h'.authDeadline.trans h.authDeadline
  dcids dcid := h'.dcids dcid ∘ h.dcids dcid
  exceeded := h'.exceeded ∘ h.exceeded

theorem contains_insert {dcids : HashSet Bytes} {dcid other : Bytes} :
    (dcids.insert dcid ()).contains other ↔ other = dcid ∨ dcids.contains other := by
  unfold HashMap.contains
  rw [HashMap.get_insert]
  split_ifs with h
  · simp [h]
  · simp [h]

theorem grows_trackDcid (managed : ManagedConnection) (dcid : Bytes) :
    managed.Grows (managed.trackDcid dcid) := by
  unfold trackDcid
  split_ifs
  · exact .refl managed
  · exact ⟨rfl, rfl, rfl, fun _ => id, fun _ => rfl⟩
  · exact ⟨rfl, rfl, rfl, fun _ h => contains_insert.mpr (Or.inr h), id⟩

theorem grows_trackDcids (generated : List Bytes) (managed : ManagedConnection) :
    managed.Grows (generated.foldl trackDcid managed) := by
  induction generated generalizing managed with
  | nil => exact .refl managed
  | cons dcid generated ih => exact (grows_trackDcid managed dcid).trans (ih _)

theorem tracked_of_within {dcid : Bytes} (h : (managed.trackDcid dcid).dcidLimitExceeded = false) :
    (managed.trackDcid dcid).dcids.contains dcid := by
  unfold trackDcid at h ⊢
  by_cases hc : managed.dcids.contains dcid
  · rw [if_pos hc]
    exact hc
  · rw [if_neg hc] at h ⊢
    split_ifs at h ⊢
    exact contains_insert.mpr (Or.inl rfl)

/-- Below the limit all the ids are tracked. -/
theorem mem_trackDcids {generated : List Bytes}
    (h : (generated.foldl trackDcid managed).dcidLimitExceeded = false) :
    ∀ dcid ∈ generated, (generated.foldl trackDcid managed).dcids.contains dcid := by
  induction generated generalizing managed with
  | nil => simp
  | cons first generated ih =>
    intro dcid hdcid
    have hgrows := grows_trackDcids generated (managed.trackDcid first)
    rcases List.mem_cons.mp hdcid with rfl | hdcid
    · refine hgrows.dcids _ (tracked_of_within ?_)
      by_contra hexceeded
      rw [Bool.not_eq_false] at hexceeded
      exact Bool.false_ne_true (h.symm.trans (hgrows.exceeded hexceeded))
    · exact ih h dcid hdcid

end ManagedConnection

end Ids

end Quic

namespace QuicEngine

open Quic.ManagedConnection

variable {hmac : Hmac} {engine next last : QuicEngine hmac}

/-- The events a change of the engine queues are all of one kind. -/
def Adds (P : QuicEngineEvent → Prop) (engine next : QuicEngine hmac) : Prop :=
  ∃ added, next.events = engine.events ++ added ∧ ∀ event ∈ added, P event

namespace Adds

variable {P : QuicEngineEvent → Prop}

theorem of_eq (h : next.events = engine.events) : Adds P engine next :=
  ⟨[], by rw [h, List.append_nil], by simp⟩

theorem trans (h : Adds P engine next) (h' : Adds P next last) : Adds P engine last := by
  obtain ⟨added, heq, hall⟩ := h
  obtain ⟨added', heq', hall'⟩ := h'
  refine ⟨added ++ added', by rw [heq', heq, List.append_assoc], fun event he => ?_⟩
  exact (List.mem_append.mp he).elim (hall event) (hall' event)

theorem push {event : QuicEngineEvent} (h : P event) (engine : QuicEngine hmac) :
    Adds P engine (engine.push event) :=
  ⟨[event], rfl, by simpa using h⟩

end Adds

section Announcing

/-- Both slots stay, with more ids in them; those of an authenticated connection may be
published. -/
structure Announces (engine next : QuicEngine hmac) : Prop where
  connection : Option.Rel Grows engine.connection next.connection
  candidate : Option.Rel Grows engine.candidate next.candidate
  pending : next.candidatePromotionPending = engine.candidatePromotionPending
  reassembly : next.reassembly = engine.reassembly
  published : ∀ dcid, next.publishedDcids.contains dcid → engine.publishedDcids.contains dcid ∨
    ∃ managed, (next.connection = some managed ∨ next.candidate = some managed) ∧
      managed.auth.authenticated ∧ managed.dcids.contains dcid
  events : Adds (fun event => ∃ dcid, event = .dcidStaged dcid ∨ event = .dcidPublished dcid)
    engine next

theorem rel_refl (slot : Option ManagedConnection) : Option.Rel Grows slot slot := by
  cases slot with
  | none => exact .none
  | some managed => exact .some (.refl managed)

theorem rel_trans {slot slot' slot'' : Option ManagedConnection} (h : Option.Rel Grows slot slot')
    (h' : Option.Rel Grows slot' slot'') : Option.Rel Grows slot slot'' := by
  cases h with
  | none => exact h'
  | some h =>
    cases h' with
    | some h' => exact .some (h.trans h')

theorem rel_map {f : ManagedConnection → ManagedConnection}
    (hf : ∀ managed : ManagedConnection, managed.Grows (f managed))
    (slot : Option ManagedConnection) : Option.Rel Grows slot (slot.map f) := by
  cases slot with
  | none => exact .none
  | some managed => exact .some (hf managed)

theorem exists_of_rel {R : ManagedConnection → ManagedConnection → Prop}
    {slot slot' : Option ManagedConnection} {managed : ManagedConnection}
    (h : Option.Rel R slot slot') (hm : slot = some managed) :
    ∃ managed', slot' = some managed' ∧ R managed managed' := by
  subst hm
  cases h with
  | some h => exact ⟨_, rfl, h⟩

namespace Announces

theorem refl (engine : QuicEngine hmac) : Announces engine engine :=
  ⟨rel_refl _, rel_refl _, rfl, rfl, fun _ => Or.inl, .of_eq rfl⟩

theorem trans (h : Announces engine next) (h' : Announces next last) : Announces engine last where
  connection := rel_trans h.connection h'.connection
  candidate := rel_trans h.candidate h'.candidate
  pending := h'.pending.trans h.pending
  reassembly := h'.reassembly.trans h.reassembly
  published dcid hdcid := by
    rcases h'.published dcid hdcid with hdcid | hdcid
    · refine (h.published dcid hdcid).imp_right ?_
      -- the connection that tracked the id still does
      rintro ⟨managed, hm, ha, hd⟩
      rcases hm with hm | hm
      · obtain ⟨managed', hm', hg⟩ := exists_of_rel h'.connection hm
        exact ⟨managed', Or.inl hm', hg.auth ▸ ha, hg.dcids dcid hd⟩
      · obtain ⟨managed', hm', hg⟩ := exists_of_rel h'.candidate hm
        exact ⟨managed', Or.inr hm', hg.auth ▸ ha, hg.dcids dcid hd⟩
    · exact Or.inr hdcid
  events := h.events.trans h'.events

theorem foldl {α : Type} {f : QuicEngine hmac → α → QuicEngine hmac}
    (hf : ∀ engine a, Announces engine (f engine a)) (l : List α) (engine : QuicEngine hmac) :
    Announces engine (l.foldl f engine) := by
  induction l generalizing engine with
  | nil => exact .refl engine
  | cons a l ih => exact (hf engine a).trans (ih _)

end Announces

theorem announces_updateForHandle (handle : ConnectionHandle)
    {f : ManagedConnection → ManagedConnection}
    (hf : ∀ managed : ManagedConnection, managed.Grows (f managed))
    (engine : QuicEngine hmac) : Announces engine (engine.updateForHandle handle f) := by
  unfold updateForHandle
  split_ifs
  · exact ⟨rel_map hf _, rel_refl _, rfl, rfl, fun _ => Or.inl, .of_eq rfl⟩
  · refine ⟨rel_refl _, rel_map (fun managed => ?_) _, rfl, rfl, fun _ => Or.inl, .of_eq rfl⟩
    split_ifs
    · exact hf managed
    · exact .refl managed

theorem connectionForHandle_eq_some {handle : ConnectionHandle} {managed : ManagedConnection}
    (h : engine.connectionForHandle handle = some managed) :
    (engine.connection = some managed ∨ engine.candidate = some managed) ∧
      managed.handle = handle := by
  unfold connectionForHandle at h
  split_ifs at h with ha
  · rw [h, Option.any_some, decide_eq_true_eq] at ha
    exact ⟨Or.inl h, ha⟩
  · rw [Option.filter_eq_some_iff, decide_eq_true_eq] at h
    exact ⟨Or.inr h.1, h.2⟩

theorem connectionForHandle_updateForHandle (handle : ConnectionHandle)
    {f : ManagedConnection → ManagedConnection}
    (hf : ∀ managed : ManagedConnection, managed.Grows (f managed))
    (engine : QuicEngine hmac) :
    (engine.updateForHandle handle f).connectionForHandle handle =
      (engine.connectionForHandle handle).map f := by
  have hany : ∀ slot : Option ManagedConnection,
      (slot.map f).any (·.handle = handle) = slot.any (·.handle = handle) := by
    rintro (_ | managed)
    · rfl
    · simp [(hf managed).handle]
  unfold updateForHandle connectionForHandle
  split_ifs with ha hb
  · rfl
  · exact absurd ((hany _).trans ha) hb
  · dsimp only
    cases engine.candidate with
    | none => rfl
    | some candidate =>
      by_cases hc : candidate.handle = handle
      · simp [hc, Option.filter, (hf candidate).handle]
      · simp [hc, Option.filter]

theorem contains_publishDcid {dcid other : Bytes}
    (h : (engine.publishDcid dcid).publishedDcids.contains other) :
    other = dcid ∨ engine.publishedDcids.contains other := by
  unfold publishDcid at h
  split_ifs at h
  · exact Or.inr h
  · exact contains_insert.mp h

theorem announces_publishDcid {managed : ManagedConnection} {dcid : Bytes}
    (hm : engine.connection = some managed ∨ engine.candidate = some managed)
    (ha : managed.auth.authenticated) (hd : managed.dcids.contains dcid) :
    Announces engine (engine.publishDcid dcid) := by
  have hpublished : ∀ other, (engine.publishDcid dcid).publishedDcids.contains other →
      engine.publishedDcids.contains other ∨ ∃ managed,
        (engine.connection = some managed ∨ engine.candidate = some managed) ∧
          managed.auth.authenticated ∧ managed.dcids.contains other := by
    intro other ho
    rcases contains_publishDcid ho with rfl | ho
    · exact Or.inr ⟨managed, hm, ha, hd⟩
    · exact Or.inl ho
  unfold publishDcid at hpublished ⊢
  split_ifs at hpublished ⊢
  · exact .refl engine
  · exact ⟨rel_refl _, rel_refl _, rfl, rfl, hpublished, .push ⟨dcid, Or.inr rfl⟩ _⟩

theorem announces_announceDcids {managed : ManagedConnection} {generated : List Bytes}
    (hm : engine.connection = some managed ∨ engine.candidate = some managed)
    (hd : ∀ dcid ∈ generated, managed.dcids.contains dcid) :
    Announces engine (generated.foldl (announceDcid managed.auth.authenticated) engine) := by
  induction generated generalizing engine with
  | nil => exact .refl engine
  | cons dcid generated ih =>
    have hslots : (engine.announceDcid managed.auth.authenticated dcid).connection =
          engine.connection ∧
        (engine.announceDcid managed.auth.authenticated dcid).candidate = engine.candidate := by
      unfold announceDcid publishDcid
      split_ifs <;> exact ⟨rfl, rfl⟩
    have hone : Announces engine (engine.announceDcid managed.auth.authenticated dcid) := by
      unfold announceDcid
      split_ifs with ha
      · exact announces_publishDcid hm ha (hd dcid List.mem_cons_self)
      · exact ⟨rel_refl _, rel_refl _, rfl, rfl, fun _ => Or.inl, .push ⟨dcid, Or.inl rfl⟩ _⟩
    refine hone.trans (ih ?_ fun other ho => hd other (List.mem_cons_of_mem _ ho))
    rw [hslots.1, hslots.2]
    exact hm

theorem announces_stageDcidsForHandle (handle : ConnectionHandle) (generated : List Bytes)
    (engine : QuicEngine hmac) :
    Announces engine (engine.stageDcidsForHandle handle generated) := by
  have htrack := grows_trackDcids generated
  have hupdate := announces_updateForHandle handle htrack engine
  have hfind := connectionForHandle_updateForHandle handle htrack engine
  unfold stageDcidsForHandle
  dsimp only
  split
  · exact hupdate
  · rename_i managed hm
    split_ifs with hexceeded
    · exact hupdate
    · refine hupdate.trans (announces_announceDcids (connectionForHandle_eq_some hm).1 ?_)
      rw [hm] at hfind
      obtain ⟨found, -, rfl⟩ := Option.map_eq_some_iff.mp hfind.symm
      exact mem_trackDcids (Bool.eq_false_of_not_eq_true hexceeded)

theorem announces_sendDatagram {accepts : Bool} {datagram : Bytes}
    (h : engine.sendDatagram accepts datagram = some next) : Announces engine next := by
  unfold sendDatagram at h
  cases hm : engine.connection with
  | none => simp [hm] at h
  | some managed =>
    simp only [hm] at h
    split_ifs at h
    cases h
    refine ⟨?_, rel_refl _, rfl, rfl, fun _ => Or.inl, .of_eq rfl⟩
    rw [hm]
    exact .some ⟨rfl, rfl, rfl, fun _ => id, id⟩

theorem announces_sendFragments (accepts : ℕ → Bool) (packetId : UInt64) (packet : Bytes) (size : ℕ)
    (index : ℕ) (offsets : List ℕ) (engine : QuicEngine hmac) :
    Announces engine (sendFragments accepts packetId packet size index offsets engine).2 := by
  induction offsets generalizing index engine with
  | nil => exact .refl engine
  | cons offset rest ih =>
    unfold sendFragments
    split
    · exact .refl engine
    · rename_i sent hsent
      exact (announces_sendDatagram hsent).trans (ih _ sent)

theorem announces_emitInner (answers : Answers) (packet : Bytes) (engine : QuicEngine hmac) :
    Announces engine (engine.emitInner answers packet).2 := by
  unfold emitInner
  split_ifs
  · exact .refl engine
  · exact .refl engine
  · cases answers.maxDatagramSize with
    | none => exact .refl engine
    | some maxDatagramSize =>
      dsimp only
      split_ifs
      · split
        · exact .refl engine
        · rename_i sent hsent
          exact announces_sendDatagram hsent
      · unfold sendFragmentedInner
        split_ifs
        · exact .refl engine
        · refine Announces.trans ?_ (announces_sendFragments _ _ _ _ _ _ _)
          exact ⟨rel_refl _, rel_refl _, rfl, rfl, fun _ => Or.inl, .of_eq rfl⟩

end Announcing

section Settling

/-- An event about one connection id. -/
def AboutId (event : QuicEngineEvent) : Prop :=
  ∃ dcid, event = .dcidStaged dcid ∨ event = .dcidPublished dcid ∨ event = .dcidRetired dcid

/-- Only the published ids change. -/
structure Publishes (P : Bytes → Prop) (engine next : QuicEngine hmac) : Prop where
  connection : next.connection = engine.connection
  candidate : next.candidate = engine.candidate
  pending : next.candidatePromotionPending = engine.candidatePromotionPending
  published : ∀ dcid, next.publishedDcids.contains dcid →
    engine.publishedDcids.contains dcid ∨ P dcid
  events : Adds AboutId engine next

theorem publishes_publishDcids (dcids : List Bytes) (engine : QuicEngine hmac) :
    Publishes (· ∈ dcids) engine (dcids.foldl publishDcid engine) := by
  induction dcids generalizing engine with
  | nil => exact ⟨rfl, rfl, rfl, fun _ => Or.inl, .of_eq rfl⟩
  | cons dcid dcids ih =>
    obtain ⟨hconnection, hcandidate, hpending, hpublished, hevents⟩ := ih (engine.publishDcid dcid)
    have hone : (engine.publishDcid dcid).connection = engine.connection ∧
        (engine.publishDcid dcid).candidate = engine.candidate ∧
        (engine.publishDcid dcid).candidatePromotionPending = engine.candidatePromotionPending ∧
        Adds AboutId engine (engine.publishDcid dcid) := by
      unfold publishDcid
      split_ifs
      · exact ⟨rfl, rfl, rfl, .of_eq rfl⟩
      · exact ⟨rfl, rfl, rfl, .push ⟨dcid, Or.inr (Or.inl rfl)⟩ _⟩
    refine ⟨hconnection.trans hone.1, hcandidate.trans hone.2.1, hpending.trans hone.2.2.1,
      fun other ho => ?_, hone.2.2.2.trans hevents⟩
    rcases hpublished other ho with ho | ho
    · rcases contains_publishDcid ho with rfl | ho
      · exact Or.inr List.mem_cons_self
      · exact Or.inl ho
    · exact Or.inr (List.mem_cons_of_mem _ ho)

theorem mem_members {dcids : HashSet Bytes} {dcid : Bytes} :
    dcid ∈ members dcids ↔ dcids.contains dcid := by
  unfold members HashMap.contains
  constructor
  · intro h
    obtain ⟨⟨_, _⟩, he, rfl⟩ := List.mem_map.mp h
    rw [HashMap.mem_toList.mp he]
    rfl
  · intro h
    obtain ⟨_, he⟩ := Option.isSome_iff_exists.mp h
    exact List.mem_map.mpr ⟨_, HashMap.mem_toList.mpr he, rfl⟩

/-- What is queued last when the reports of a round are settled. -/
def verdict (active candidate : ConnectionDrive) (engine : QuicEngine hmac) :
    List QuicEngineEvent :=
  if candidate.authenticatedNow then
    match engine.candidate, engine.connection with
    | none, _ => []
    | some managed, some _ => [.replaced (members managed.dcids)]
    | some _, none => [.authenticated]
  else if active.lost then [.closed]
  else []

/-- What the reports `a` of the active connection and `c` of the candidate come to. -/
structure Settles (a c : ConnectionDrive) (engine next : QuicEngine hmac) : Prop where
  connection : next.connection =
    if c.authenticatedNow then engine.connection.or engine.candidate
    else if a.lost then none else engine.connection
  candidate : next.candidate =
    if c.authenticatedNow then if engine.connection.isSome then engine.candidate else none
    else if a.lost ∨ c.lost then none else engine.candidate
  pending : next.candidatePromotionPending = (engine.candidatePromotionPending ||
    c.authenticatedNow && engine.connection.isSome && engine.candidate.isSome)
  published : ∀ dcid, next.publishedDcids.contains dcid → engine.publishedDcids.contains dcid ∨
    (a.authenticatedNow ∧ ∃ managed, engine.connection = some managed ∧
      managed.dcids.contains dcid) ∨
    c.authenticatedNow ∧ ∃ managed, engine.candidate = some managed ∧ managed.dcids.contains dcid
  events : ∃ ids ids', (∀ event ∈ ids, AboutId event) ∧ (∀ event ∈ ids', AboutId event) ∧
    next.events = engine.events ++ (ids ++ (if a.authenticatedNow then [.authenticated] else []) ++
      ids' ++ verdict a c engine)

/-- The engine once the report of the active connection is settled. -/
structure Admits (a : ConnectionDrive) (engine next : QuicEngine hmac) : Prop where
  connection : next.connection = engine.connection
  candidate : next.candidate = engine.candidate
  pending : next.candidatePromotionPending = engine.candidatePromotionPending
  published : ∀ dcid, next.publishedDcids.contains dcid → engine.publishedDcids.contains dcid ∨
    a.authenticatedNow ∧ ∃ managed, engine.connection = some managed ∧ managed.dcids.contains dcid
  events : ∃ ids, (∀ event ∈ ids, AboutId event) ∧
    next.events = engine.events ++ (ids ++ if a.authenticatedNow then [.authenticated] else [])

theorem admits_admitActive (a : ConnectionDrive) (engine : QuicEngine hmac) :
    Admits a engine (engine.admitActive a) := by
  unfold admitActive
  by_cases ha : a.authenticatedNow
  · rw [if_pos ha]
    have hpublishes : Publishes (fun dcid => ∃ managed, engine.connection = some managed ∧
        managed.dcids.contains dcid) engine engine.publishActiveDcids := by
      unfold publishActiveDcids
      cases hm : engine.connection with
      | none => exact ⟨rfl, rfl, rfl, fun _ => Or.inl, .of_eq rfl⟩
      | some managed =>
        have h := publishes_publishDcids (members managed.dcids) engine
        refine ⟨h.connection, h.candidate, h.pending, fun dcid hdcid => ?_, h.events⟩
        exact (h.published dcid hdcid).imp_right fun hd => ⟨managed, rfl, mem_members.mp hd⟩
    obtain ⟨ids, hids, hall⟩ := hpublishes.events
    refine ⟨hpublishes.connection, hpublishes.candidate, hpublishes.pending, fun dcid hdcid => ?_,
      ids, hall, ?_⟩
    · exact (hpublishes.published dcid hdcid).imp_right fun h => ⟨ha, h⟩
    · rw [if_pos ha]
      change engine.publishActiveDcids.events ++ _ = _
      rw [hids, List.append_assoc]
  · rw [if_neg ha]
    exact ⟨rfl, rfl, rfl, fun _ => Or.inl, [], by simp, by simp [ha]⟩

theorem dropCandidate_slots (engine : QuicEngine hmac) :
    engine.dropCandidate.connection = engine.connection ∧ engine.dropCandidate.candidate = none ∧
      engine.dropCandidate.candidatePromotionPending = engine.candidatePromotionPending ∧
      engine.dropCandidate.publishedDcids = engine.publishedDcids ∧
      Adds AboutId engine engine.dropCandidate := by
  unfold dropCandidate
  cases hc : engine.candidate with
  | none => exact ⟨rfl, hc, rfl, rfl, .of_eq rfl⟩
  | some candidate =>
    refine ⟨rfl, rfl, rfl, rfl, _, rfl, fun event he => ?_⟩
    obtain ⟨dcid, -, rfl⟩ := List.mem_map.mp he
    exact ⟨dcid, Or.inr (Or.inr rfl)⟩

/-- A candidate that has just authenticated itself takes the empty slot or is announced. -/
theorem settles_promote {a c : ConnectionDrive} {admitted : QuicEngine hmac}
    (h : Admits a engine admitted) (hc : c.authenticatedNow) :
    Settles a c engine admitted.promoteCandidate := by
  obtain ⟨ids, hids, hevents⟩ := h.events
  have hverdict : verdict a c engine = match engine.candidate, engine.connection with
      | none, _ => []
      | some managed, some _ => [.replaced (members managed.dcids)]
      | some _, none => [.authenticated] := if_pos hc
  unfold promoteCandidate
  rw [h.candidate, h.connection]
  cases hk : engine.candidate with
  | none =>
    refine ⟨?_, ?_, ?_, fun dcid hd => (h.published dcid hd).imp_right Or.inl, ids, [], hids,
      by simp, ?_⟩
    · rw [if_pos hc, h.connection, hk, Option.or_none]
    · rw [if_pos hc, h.candidate, hk, ite_self]
    · rw [h.pending, hk, Option.isSome_none, Bool.and_false, Bool.or_false]
    · rw [hevents, hverdict, hk, List.append_nil, List.append_nil]
  | some managed =>
    cases hm : engine.connection with
    | some active =>
      refine ⟨?_, ?_, ?_, fun dcid hd => (h.published dcid hd).imp_right Or.inl, ids, [], hids,
        by simp, ?_⟩
      · rw [if_pos hc, hm]
        rfl
      · rw [if_pos hc, hm, hk]
        rfl
      · rw [hk, hm, hc]
        exact (Bool.or_true _).symm
      · rw [hverdict, hk, hm, List.append_nil]
        change admitted.events ++ _ = _
        rw [hevents, List.append_assoc]
    | none =>
      let promoted : QuicEngine hmac :=
        { admitted with candidate := none, connection := some managed }
      have hpublishes := publishes_publishDcids (members managed.dcids) promoted
      obtain ⟨ids', hids', hall'⟩ := hpublishes.events
      refine ⟨?_, ?_, ?_, fun dcid hd => ?_, ids, ids', hids, hall', ?_⟩
      · rw [if_pos hc, hm, hk, Option.none_or]
        exact hpublishes.connection
      · rw [if_pos hc, hm]
        exact hpublishes.candidate
      · rw [hm, Option.isSome_none, Bool.and_false, Bool.false_and, Bool.or_false]
        exact hpublishes.pending.trans h.pending
      · rcases hpublishes.published dcid hd with hd | hd
        · exact (h.published dcid hd).imp_right Or.inl
        · exact Or.inr (Or.inr ⟨hc, managed, hk, mem_members.mp hd⟩)
      · rw [hverdict, hk, hm]
        change (List.foldl publishDcid _ _).events ++ _ = _
        rw [hids']
        change admitted.events ++ ids' ++ _ = _
        rw [hevents]
        simp only [List.append_assoc]

/-- The loss of the active connection takes the candidate with it. -/
theorem settles_lost {a c : ConnectionDrive} {admitted left : QuicEngine hmac}
    (h : Admits a engine admitted) (hleft : Adds AboutId admitted left)
    (hpending : left.candidatePromotionPending = admitted.candidatePromotionPending)
    (hc : c.authenticatedNow = false) (ha : a.lost) :
    Settles a c engine (push .closed (retireAllDcids (clearReassembly
      { left.dropCandidate with connection := none }))) := by
  obtain ⟨ids, hids, hevents⟩ := h.events
  obtain ⟨-, hnone, hpending', -, hdrop⟩ := dropCandidate_slots left
  obtain ⟨ids', hids', hall'⟩ := hleft.trans hdrop
  refine ⟨?_, ?_, ?_, fun dcid hd => (by cases hd), ids,
    ids' ++ (members left.dropCandidate.publishedDcids).map .dcidRetired, hids, ?_, ?_⟩
  · rw [hc, if_neg Bool.false_ne_true, if_pos ha]
    rfl
  · rw [hc, if_neg Bool.false_ne_true, if_pos (Or.inl ha)]
    exact hnone
  · rw [hc, Bool.false_and, Bool.false_and, Bool.or_false]
    exact hpending'.trans (hpending.trans h.pending)
  · intro event he
    rcases List.mem_append.mp he with he | he
    · exact hall' event he
    · obtain ⟨dcid, -, rfl⟩ := List.mem_map.mp he
      exact ⟨dcid, Or.inr (Or.inr rfl)⟩
  · have hverdict : verdict a c engine = [.closed] := by
      unfold verdict
      rw [hc, if_neg Bool.false_ne_true, if_pos ha]
    rw [hverdict]
    change left.dropCandidate.events ++
      (members left.dropCandidate.publishedDcids).map .dcidRetired ++ _ = _
    rw [hids', hevents]
    simp only [List.append_assoc]

theorem settles_settle (a c : ConnectionDrive) (engine : QuicEngine hmac) :
    Settles a c engine (engine.settle a c) := by
  have h := admits_admitActive a engine
  unfold settle closeLost admitCandidate
  generalize engine.admitActive a = admitted at h ⊢
  cases hc : c.authenticatedNow with
  | true =>
    rw [Bool.not_true, Bool.and_false, if_pos rfl, if_neg Bool.false_ne_true]
    exact settles_promote h hc
  | false =>
    rw [Bool.not_false, Bool.and_true, if_neg Bool.false_ne_true]
    obtain ⟨hconnection, hnone, hpending, hpublished, hdrop⟩ := dropCandidate_slots admitted
    obtain ⟨ids, hids, hevents⟩ := h.events
    by_cases ha : a.lost
    · rw [if_pos ha]
      by_cases hl : c.lost
      · rw [if_pos hl]
        exact settles_lost h hdrop hpending hc ha
      · rw [if_neg hl]
        exact settles_lost h (.of_eq rfl) rfl hc ha
    · rw [if_neg ha]
      have hverdict : verdict a c engine = [] := by
        unfold verdict
        rw [hc, if_neg Bool.false_ne_true, if_neg ha]
      by_cases hl : c.lost
      · rw [if_pos hl]
        obtain ⟨ids', hids', hall'⟩ := hdrop
        refine ⟨?_, ?_, ?_, fun dcid hd => ?_, ids, ids', hids, hall', ?_⟩
        · rw [hc, if_neg Bool.false_ne_true, if_neg ha]
          exact hconnection.trans h.connection
        · rw [hc, if_neg Bool.false_ne_true, if_pos (Or.inr hl)]
          exact hnone
        · rw [hc, Bool.false_and, Bool.false_and, Bool.or_false]
          exact hpending.trans h.pending
        · rw [hpublished] at hd
          exact (h.published dcid hd).imp_right Or.inl
        · rw [hids', hevents, hverdict, List.append_nil]
          simp only [List.append_assoc]
      · rw [if_neg hl]
        refine ⟨?_, ?_, ?_, fun dcid hd => (h.published dcid hd).imp_right Or.inl, ids, [], hids,
          by simp, ?_⟩
        · rw [hc, if_neg Bool.false_ne_true, if_neg ha]
          exact h.connection
        · rw [hc, if_neg Bool.false_ne_true, if_neg (not_or.mpr ⟨ha, hl⟩)]
          exact h.candidate
        · rw [hc, Bool.false_and, Bool.false_and, Bool.or_false]
          exact h.pending
        · rw [hevents, hverdict, List.append_nil, List.append_nil]

end Settling

section Rounds

/-- An engine before a round, and the answers during the round. -/
structure Round (hmac : Hmac) where
  engine : QuicEngine hmac
  input : DriveInput
  now : Instant

namespace Round

variable (round : Round hmac)

def driveOne (input : ConnectionInput) (managed : ManagedConnection) : Driven :=
  driveConnection hmac round.engine.role round.engine.sharedKey round.now input managed

def active : Option Driven := round.engine.connection.map (round.driveOne round.input.active)

def candidate : Option Driven := round.engine.candidate.map (round.driveOne round.input.candidate)

/-- What the active connection reports. -/
def activeDrive : ConnectionDrive := (round.active.map (·.drive)).getD .default

/-- What the candidate reports. -/
def candidateDrive : ConnectionDrive := (round.candidate.map (·.drive)).getD .default

/-- The engine once both connections are driven and their events are with the endpoint. -/
def announced : QuicEngine hmac :=
  (round.activeDrive.endpointEvents ++ round.candidateDrive.endpointEvents).foldl
    handleEndpointEvent
    { round.engine with
      connection := round.active.map (·.managed)
      candidate := round.candidate.map (·.managed) }

/-- The engine once the reports are settled. -/
def settled : QuicEngine hmac := round.announced.settle round.activeDrive round.candidateDrive

end Round

/-- An event about a packet. -/
def AboutPacket (event : QuicEngineEvent) : Prop :=
  (∃ packet, event = .innerPacket packet) ∨ ∃ transmit, event = .transmit transmit

/-- Packets are taken in and handed out; connections and ids stay. -/
structure Delivers (engine next : QuicEngine hmac) : Prop where
  connection : next.connection = engine.connection
  candidate : next.candidate = engine.candidate
  pending : next.candidatePromotionPending = engine.candidatePromotionPending
  published : next.publishedDcids = engine.publishedDcids
  events : Adds AboutPacket engine next

theorem delivers_applicationDatagrams (now : Instant) (datagrams : List Bytes)
    (engine : QuicEngine hmac) :
    Delivers engine (datagrams.foldl
      (fun engine datagram => ((handleApplicationDatagram now datagram).run engine).2) engine) := by
  have hstable : ∀ datagram, Act.Stable (Delivers engine)
      (handleApplicationDatagram now datagram : Act (QuicEngine hmac) Empty Unit) := by
    intro datagram
    refine stable_handleApplicationDatagram _ (fun e _ _ h => ?_)
      (fun e packet h => ?_) now datagram
    · exact ⟨h.connection, h.candidate, h.pending, h.published, h.events⟩
    · exact ⟨h.connection, h.candidate, h.pending, h.published,
        h.events.trans (.push (Or.inl ⟨packet, rfl⟩) e)⟩
  have hfold : ∀ e, Delivers engine e → Delivers engine (datagrams.foldl
      (fun engine datagram => ((handleApplicationDatagram now datagram).run engine).2) e) := by
    induction datagrams with
    | nil => exact fun _ => id
    | cons datagram datagrams ih => exact fun e h => ih _ (hstable datagram e h)
  exact hfold engine ⟨rfl, rfl, rfl, rfl, .of_eq rfl⟩

theorem delivers_drive (round : Round hmac) :
    Delivers round.settled (round.engine.drive round.input round.now) := by
  let pruned := pruneReassembly round.now round.settled
  have h := delivers_applicationDatagrams round.now
    (applicationDatagrams round.activeDrive round.candidateDrive) pruned
  refine ⟨h.connection, h.candidate, h.pending, h.published, ?_⟩
  obtain ⟨added, heq, hall⟩ := h.events
  let transmits := (round.activeDrive.transmits ++ round.candidateDrive.transmits ++
    round.input.transmits).map QuicEngineEvent.transmit
  have hevents : (round.engine.drive round.input round.now).events =
      round.settled.events ++ added ++ transmits := congrArg (· ++ transmits) heq
  refine ⟨added ++ transmits, by rw [hevents, List.append_assoc], fun event he => ?_⟩
  rcases List.mem_append.mp he with he | he
  · exact hall event he
  · obtain ⟨transmit, -, rfl⟩ := List.mem_map.mp he
    exact Or.inr ⟨transmit, rfl⟩

/-- A connection before a round and when its report is settled. -/
structure Drove (drive : ConnectionDrive) (managed next : ManagedConnection) : Prop where
  handle : next.handle = managed.handle
  dcids : ∀ dcid, managed.dcids.contains dcid → next.dcids.contains dcid
  authenticated : next.auth.authenticated → managed.auth.authenticated ∨ drive.authenticatedNow

namespace Round

variable (round : Round hmac)

theorem announces_announced :
    Announces { round.engine with
      connection := round.active.map (·.managed)
      candidate := round.candidate.map (·.managed) } round.announced :=
  .foldl (fun engine _ => announces_stageDcidsForHandle _ _ engine) _ _

theorem drives_driveOne (input : ConnectionInput) (managed : ManagedConnection) :
    Drives round.now managed (round.driveOne input managed) :=
  driveConnection_drives round.now input managed

/-- What a slot holds when the reports are settled. -/
theorem drove_slot {input : ConnectionInput} {slot slot' : Option ManagedConnection}
    (h : Option.Rel Grows ((slot.map (round.driveOne input)).map (·.managed)) slot') :
    Option.Rel (Drove (((slot.map (round.driveOne input)).map (·.drive)).getD .default))
      slot slot' := by
  cases slot with
  | none =>
    cases h
    exact .none
  | some managed =>
    obtain ⟨next, rfl, hgrows⟩ := exists_of_rel h rfl
    have hd := round.drives_driveOne input managed
    have hhandle : (round.driveOne input managed).managed.handle = managed.handle :=
      congrArg Prod.fst hd.marks
    have hdcids : (round.driveOne input managed).managed.dcids = managed.dcids :=
      congrArg (fun marks => marks.2.1) hd.marks
    refine .some ⟨hgrows.handle.trans hhandle, fun dcid h => ?_, fun h => ?_⟩
    · exact hgrows.dcids dcid (hdcids ▸ h)
    · exact hd.authenticated (hgrows.auth ▸ h)

theorem announced_connection :
    Option.Rel (Drove round.activeDrive) round.engine.connection round.announced.connection :=
  round.drove_slot round.announces_announced.connection

theorem announced_candidate :
    Option.Rel (Drove round.candidateDrive) round.engine.candidate round.announced.candidate :=
  round.drove_slot round.announces_announced.candidate

theorem settles_settled :
    Settles round.activeDrive round.candidateDrive round.announced round.settled :=
  settles_settle _ _ _

end Round

end Rounds

section Resolving

/-- The candidate has taken the place of the active connection. -/
structure Commits (managed : ManagedConnection) (engine next : QuicEngine hmac) : Prop where
  connection : next.connection = some managed
  candidate : next.candidate = none
  pending : next.candidatePromotionPending = engine.candidatePromotionPending
  published : next.publishedDcids = managed.dcids
  reassembly : next.reassembly = .empty ∧ next.reassemblyBytes = 0
  events : ∃ ids, (∀ event ∈ ids, AboutId event) ∧
    next.events = engine.events ++ (ids ++ [.authenticated])

theorem commits_commitCandidateReplacement {candidate : ManagedConnection}
    (h : engine.candidate = some candidate) :
    Commits candidate engine engine.commitCandidateReplacement := by
  unfold commitCandidateReplacement
  rw [h]
  refine ⟨rfl, rfl, rfl, rfl, ⟨rfl, rfl⟩, _, fun event he => ?_, List.append_assoc _ _ _⟩
  obtain ⟨dcid, -, rfl⟩ := List.mem_map.mp he
  exact ⟨dcid, Or.inr (Or.inr rfl)⟩

/-- The answer to a `Replaced` event: without effect, a replacement, or the end of the
candidate. -/
theorem resolve_cases (published : Bool) (engine : QuicEngine hmac) :
    (engine.candidatePromotionPending = false ∧
      engine.resolveCandidateReplacement published = engine) ∨
    engine.candidatePromotionPending ∧
      ((published = true ∧ engine.candidate = none ∧ engine.resolveCandidateReplacement published =
          { engine with candidatePromotionPending := false }) ∨
        (published = true ∧ ∃ candidate, engine.candidate = some candidate ∧
          Commits candidate { engine with candidatePromotionPending := false }
            (engine.resolveCandidateReplacement published)) ∨
        published = false ∧ engine.resolveCandidateReplacement published =
          dropCandidate { engine with candidatePromotionPending := false }) := by
  unfold resolveCandidateReplacement
  by_cases hpending : engine.candidatePromotionPending = false
  · exact Or.inl ⟨hpending, if_pos hpending⟩
  · rw [if_neg hpending]
    refine Or.inr ⟨by simpa using hpending, ?_⟩
    cases published with
    | false => exact Or.inr (Or.inr ⟨rfl, rfl⟩)
    | true =>
      rcases Option.eq_none_or_eq_some engine.candidate with hc | ⟨candidate, hc⟩
      · refine Or.inl ⟨rfl, hc, ?_⟩
        dsimp only
        unfold commitCandidateReplacement
        rw [if_pos rfl, hc]
      · exact Or.inr (Or.inl ⟨rfl, candidate, hc, commits_commitCandidateReplacement hc⟩)

end Resolving

end QuicEngine

end NewProxy
