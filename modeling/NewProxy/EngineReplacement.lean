import NewProxy.EngineRuns

/-!
# The replacement of the active connection

A run of the engine is watched from outside: how many `Replaced` events were handed out
and not yet answered, and which connections have completed their authentication. Under
the worker's discipline a connection that has not completed it never gets anywhere.
-/
namespace NewProxy.QuicEngine

open Quic ManagedConnection

variable {hmac : Hmac} {engine next : QuicEngine hmac} {call : Call}

def isReplaced : QuicEngineEvent → Bool
  | .replaced _ => true
  | _ => false

/-- An engine, the number of its `Replaced` events that wait for an answer, and the
handles of the connections that have reported their authentication since they were
opened. -/
structure Watch (hmac : Hmac) where
  engine : QuicEngine hmac
  waiting : ℕ
  completed : List ConnectionHandle

namespace Watch

variable {watch : Watch hmac}

def step (watch : Watch hmac) (call : Call) : Watch hmac where
  engine := call.apply watch.engine
  waiting :=
    match call with
    | .resolveCandidateReplacement _ => watch.waiting - 1
    | _ => watch.waiting + (call.popped watch.engine).countP isReplaced
  completed := watch.completed.filter (fun handle => call.opens watch.engine ≠ some handle) ++
    call.authenticates watch.engine

def after (watch : Watch hmac) (calls : List Call) : Watch hmac := calls.foldl step watch

/-- A `Replaced` event is queued or waits for its answer. -/
def Open (watch : Watch hmac) : Prop :=
  0 < watch.waiting ∨ watch.engine.events.any isReplaced

/-- The discipline of `drain_engine`, and handles as the endpoint gives them. -/
def Obeys (watch : Watch hmac) (call : Call) : Prop :=
  call.Fresh watch.engine ∧
    match call with
    | .handleOuter _ _ _ => ¬ watch.Open
    | .resolveCandidateReplacement _ => 0 < watch.waiting
    | _ => True

instance decidableOpen (watch : Watch hmac) : Decidable watch.Open :=
  inferInstanceAs (Decidable (_ ∨ _))

instance decidableObeys (watch : Watch hmac) : (call : Call) → Decidable (watch.Obeys call)
  | .handleOuter _ _ _ => inferInstanceAs (Decidable (_ ∧ ¬ watch.Open))
  | .sendInner _ _ _ => inferInstanceAs (Decidable (_ ∧ True))
  | .poll _ _ => inferInstanceAs (Decidable (_ ∧ True))
  | .close => inferInstanceAs (Decidable (_ ∧ True))
  | .resolveCandidateReplacement _ => inferInstanceAs (Decidable (_ ∧ 0 < watch.waiting))

end Watch

section Vouching

/-- Only connections from the list are active, authenticated or about to replace the
active one. -/
structure Vouched (completed : List ConnectionHandle) (engine : QuicEngine hmac) : Prop where
  active : ∀ handle, engine.activeHandle = some handle → handle ∈ completed
  authenticated : ∀ managed, engine.connection = some managed ∨ engine.candidate = some managed →
    managed.auth.authenticated → managed.handle ∈ completed
  promoted : engine.candidatePromotionPending → ∀ handle, engine.candidateHandle = some handle →
    handle ∈ completed

variable {completed more : List ConnectionHandle}

theorem Vouched.mono (h : Vouched completed engine) (hsub : completed ⊆ more) :
    Vouched more engine where
  active handle ha := hsub (h.active handle ha)
  authenticated managed hm ha := hsub (h.authenticated managed hm ha)
  promoted hp handle hc := hsub (h.promoted hp handle hc)

theorem exists_of_rel_right {R : ManagedConnection → ManagedConnection → Prop}
    {slot slot' : Option ManagedConnection} {managed : ManagedConnection}
    (h : Option.Rel R slot slot') (hm : slot' = some managed) :
    ∃ earlier, slot = some earlier ∧ R earlier managed := by
  subst hm
  cases h with
  | some h => exact ⟨_, rfl, h⟩

theorem eq_none_of_rel {R : ManagedConnection → ManagedConnection → Prop}
    {slot slot' : Option ManagedConnection} (h : Option.Rel R slot slot') (hnone : slot = none) :
    slot' = none := by
  subst hnone
  cases h
  rfl

theorem Vouched.announces (h : Vouched completed engine) (ha : Announces engine next) :
    Vouched completed next where
  active handle hactive := h.active handle (ha.activeHandle ▸ hactive)
  authenticated managed hm hauth := by
    rcases hm with hm | hm
    · obtain ⟨earlier, he, hgrows⟩ := exists_of_rel_right ha.connection hm
      exact hgrows.handle ▸ h.authenticated earlier (Or.inl he) (hgrows.auth ▸ hauth)
    · obtain ⟨earlier, he, hgrows⟩ := exists_of_rel_right ha.candidate hm
      exact hgrows.handle ▸ h.authenticated earlier (Or.inr he) (hgrows.auth ▸ hauth)
  promoted hp handle hc := h.promoted (ha.pending ▸ hp) handle (ha.candidateHandle ▸ hc)

variable (round : Round hmac)

theorem Vouched.announced (h : Vouched completed round.engine) :
    Vouched (completed ++ round.reported (·.authenticatedNow)) round.announced where
  active handle ha := by
    rw [round.activeHandle_announced] at ha
    exact List.mem_append_left _ (h.active handle ha)
  authenticated managed hm ha := by
    rcases hm with hm | hm
    · obtain ⟨earlier, he, hdrove⟩ := exists_of_rel_right round.announced_connection hm
      rw [hdrove.handle]
      rcases hdrove.authenticated ha with ha | ha
      · exact List.mem_append_left _ (h.authenticated earlier (Or.inl he) ha)
      · exact List.mem_append_right _
          (Round.mem_reported.mpr (Or.inl ⟨ha, congrArg (Option.map _) he⟩))
    · obtain ⟨earlier, he, hdrove⟩ := exists_of_rel_right round.announced_candidate hm
      rw [hdrove.handle]
      rcases hdrove.authenticated ha with ha | ha
      · exact List.mem_append_left _ (h.authenticated earlier (Or.inr he) ha)
      · exact List.mem_append_right _
          (Round.mem_reported.mpr (Or.inr ⟨ha, congrArg (Option.map _) he⟩))
  promoted hp handle hc := by
    rw [round.candidateHandle_announced] at hc
    have hpending : round.announced.candidatePromotionPending =
        round.engine.candidatePromotionPending := round.announces_announced.pending
    exact List.mem_append_left _ (h.promoted (hpending ▸ hp) handle hc)

/-- A connection of the settled engine was in one of the slots before. -/
theorem mem_slots_of_settled {managed : ManagedConnection}
    (h : round.settled.connection = some managed ∨ round.settled.candidate = some managed) :
    round.announced.connection = some managed ∨ round.announced.candidate = some managed := by
  have hs := round.settles_settled
  rcases h with h | h
  · rw [hs.connection] at h
    split_ifs at h
    · exact (Option.or_eq_some_iff.mp h).imp_right And.right
    · exact Or.inl h
  · rw [hs.candidate] at h
    split_ifs at h
    · exact Or.inr h
    · exact Or.inr h

theorem Vouched.settled (h : Vouched completed round.engine) :
    Vouched (completed ++ round.reported (·.authenticatedNow)) round.settled := by
  have hannounced := h.announced round
  have hcandidate : round.candidateDrive.authenticatedNow → ∀ handle,
      round.engine.candidateHandle = some handle →
        handle ∈ completed ++ round.reported (·.authenticatedNow) :=
    fun hnow handle hc => List.mem_append_right _ (Round.mem_reported.mpr (Or.inr ⟨hnow, hc⟩))
  refine ⟨fun handle ha => ?_, fun managed hm => hannounced.authenticated managed
    (mem_slots_of_settled round hm), fun hp handle hc => ?_⟩
  · rw [round.activeHandle_settled] at ha
    split_ifs at ha with hnow
    · rcases Option.or_eq_some_iff.mp ha with ha | ⟨-, hc⟩
      · exact List.mem_append_left _ (h.active handle ha)
      · exact hcandidate hnow handle hc
    · exact List.mem_append_left _ (h.active handle ha)
  · rw [round.candidateHandle_settled] at hc
    split_ifs at hc with hnow
    · exact hcandidate hnow handle hc
    · rw [round.settles_settled.pending, Bool.eq_false_of_not_eq_true hnow, Bool.false_and,
        Bool.false_and, Bool.or_false] at hp
      rw [← round.candidateHandle_announced] at hc
      exact hannounced.promoted hp handle hc

/-- A connection is opened unauthenticated, and only while nothing waits for an answer. -/
theorem Vouched.opening (h : Vouched completed engine) (hf : call.Fresh engine)
    (hp : call.opens engine ≠ none → engine.candidatePromotionPending = false) :
    Vouched (completed.filter fun handle => call.opens engine ≠ some handle)
      (call.opening engine) := by
  cases ho : call.opens engine with
  | none =>
    rw [Call.opening_of_opens_eq_none ho]
    exact h.mono fun handle hh => List.mem_filter.mpr ⟨hh, by simp⟩
  | some opened =>
    obtain ⟨-, now, hopening⟩ := Call.opening_of_opens ho
    have hkept : ∀ handle, engine.activeHandle = some handle →
        handle ∈ completed.filter fun handle => some opened ≠ some handle := by
      intro handle ha
      refine List.mem_filter.mpr ⟨h.active handle ha, decide_eq_true fun heq => ?_⟩
      exact hf opened ho (Or.inl (Option.some.inj heq ▸ ha))
    rw [hopening]
    refine ⟨hkept, fun managed hm ha => ?_, fun hpending => ?_⟩
    · rcases hm with hm | hm
      · exact hkept managed.handle (congrArg (Option.map _) hm)
      · cases hm
        cases ha
    · have hfalse := hp (by simp [ho])
      exact absurd (hfalse.symm.trans hpending) Bool.false_ne_true

end Vouching

section Questions

theorem aboutId_not_replaced {event : QuicEngineEvent} (h : AboutId event) :
    isReplaced event = false := by
  obtain ⟨dcid, rfl | rfl | rfl⟩ := h <;> rfl

theorem aboutPacket_not_replaced {event : QuicEngineEvent} (h : AboutPacket event) :
    isReplaced event = false := by
  rcases h with ⟨packet, rfl⟩ | ⟨transmit, rfl⟩ <;> rfl

theorem any_replaced_eq_false {P : QuicEngineEvent → Prop} {events : List QuicEngineEvent}
    (hP : ∀ event, P event → isReplaced event = false) (h : ∀ event ∈ events, P event) :
    events.any isReplaced = false := by
  rw [List.any_eq_false]
  intro event he
  rw [hP event (h event he)]
  exact Bool.false_ne_true

/-- A call asks for a replacement exactly when a candidate has just authenticated itself
beside an active connection. -/
theorem replaced_queued {round : Round hmac} (h : call.round engine = some round) :
    (call.queued engine).any isReplaced =
      (round.candidateDrive.authenticatedNow && round.announced.connection.isSome &&
        round.announced.candidate.isSome) := by
  obtain ⟨ids, ids', packets, hids, hids', hpackets, -, hqueued⟩ := Call.queued_of_round h
  have hauth : (if round.activeDrive.authenticatedNow then [QuicEngineEvent.authenticated]
      else []).any isReplaced = false := by
    split_ifs <;> rfl
  rw [hqueued]
  simp only [List.any_append, any_replaced_eq_false (fun _ => aboutId_not_replaced) hids,
    any_replaced_eq_false (fun _ => aboutId_not_replaced) hids', hauth,
    any_replaced_eq_false (fun _ => aboutPacket_not_replaced) hpackets, Bool.false_or,
    Bool.or_false]
  unfold verdict
  cases round.candidateDrive.authenticatedNow with
  | false =>
    rw [if_neg Bool.false_ne_true]
    split_ifs <;> rfl
  | true =>
    rw [if_pos rfl]
    cases round.announced.candidate with
    | none => exact (Bool.and_false _).symm
    | some candidate => cases round.announced.connection <;> rfl

theorem open_step_of_round {watch : Watch hmac} {round : Round hmac}
    (h : call.round watch.engine = some round) :
    (watch.step call).Open ↔ watch.Open ∨ (call.queued watch.engine).any isReplaced := by
  obtain ⟨-, -, -, -, -, -, hevents, -⟩ := Call.queued_of_round h
  have hwaiting : (watch.step call).waiting =
      watch.waiting + (call.popped watch.engine).countP isReplaced := by
    cases call with
    | resolveCandidateReplacement published => cases h
    | _ => rfl
  have hany : (call.popped watch.engine).any isReplaced ∨
      (call.apply watch.engine).events.any isReplaced ↔
        watch.engine.events.any isReplaced ∨ (call.queued watch.engine).any isReplaced := by
    rw [← Bool.or_eq_true, ← List.any_append, hevents, List.any_append, Bool.or_eq_true]
  have hcount : 0 < (call.popped watch.engine).countP isReplaced ↔
      (call.popped watch.engine).any isReplaced := by
    rw [List.countP_pos_iff, List.any_eq_true]
  unfold Watch.Open
  rw [hwaiting, Nat.add_pos_iff_pos_or_pos, hcount, or_assoc, or_assoc]
  exact or_congr_right hany

end Questions

section Soundness

/-- A replacement is pending only while its question is open, and while a question is
open no other candidate can be mistaken for the one it is about. -/
structure Watch.Sound (watch : Watch hmac) : Prop where
  vouched : Vouched watch.completed watch.engine
  asked : watch.engine.candidatePromotionPending → watch.Open
  answered : watch.Open → watch.engine.candidatePromotionPending ∨ watch.engine.candidate = none

variable {watch : Watch hmac}

theorem Vouched.congr {completed : List ConnectionHandle} (h : Vouched completed engine)
    (hconnection : next.connection = engine.connection)
    (hcandidate : next.candidate = engine.candidate)
    (hpending : next.candidatePromotionPending = engine.candidatePromotionPending) :
    Vouched completed next where
  active handle ha := h.active handle ((congrArg (Option.map _) hconnection).symm.trans ha)
  authenticated managed hm := h.authenticated managed (by rwa [← hconnection, ← hcandidate])
  promoted hp handle hc :=
    h.promoted (hpending ▸ hp) handle ((congrArg (Option.map _) hcandidate).symm.trans hc)

/-- A call that opens nothing and comes to no round forgets no completed connection. -/
theorem Watch.completed_subset_step (ho : call.opens watch.engine = none) :
    watch.completed ⊆ (watch.step call).completed := by
  intro handle hh
  refine List.mem_append_left _ (List.mem_filter.mpr ⟨hh, ?_⟩)
  rw [ho]
  exact decide_eq_true (by simp)

namespace Watch.Sound

theorem pending_of_opens (h : watch.Sound) (hobeys : watch.Obeys call)
    (ho : call.opens watch.engine ≠ none) :
    watch.engine.candidatePromotionPending = false := by
  cases call with
  | handleOuter answers now packet =>
    by_contra hpending
    exact hobeys.2 (h.asked (by simpa using hpending))
  | _ => exact absurd rfl ho

theorem step_of_round (h : watch.Sound) (hobeys : watch.Obeys call) {round : Round hmac}
    (hround : call.round watch.engine = some round) : (watch.step call).Sound := by
  have hr := Call.rounds_of_round hround
  have hs := round.settles_settled
  have hauth : call.authenticates watch.engine = round.reported (·.authenticatedNow) := by
    unfold Call.authenticates
    rw [hround]
    rfl
  have hopening : (call.opening watch.engine).candidatePromotionPending =
      watch.engine.candidatePromotionPending := by
    cases ho : call.opens watch.engine with
    | none => rw [Call.opening_of_opens_eq_none ho]
    | some opened =>
      obtain ⟨-, now, hopening⟩ := Call.opening_of_opens ho
      rw [hopening]
  have hannounced : round.announced.candidatePromotionPending =
      watch.engine.candidatePromotionPending :=
    round.announces_announced.pending.trans (hr.prepared.pending.trans hopening)
  have hpending : (call.apply watch.engine).candidatePromotionPending =
      (watch.engine.candidatePromotionPending || (call.queued watch.engine).any isReplaced) := by
    rw [hr.pending, hs.pending, hannounced, replaced_queued hround]
  refine ⟨?_, fun hp => ?_, fun hopen => ?_⟩
  · have hvouched := ((h.vouched.opening hobeys.1 (h.pending_of_opens hobeys)).announces
      hr.prepared).settled round
    rw [← hauth] at hvouched
    exact hvouched.congr hr.connection hr.candidate hr.pending
  · rw [open_step_of_round hround]
    exact (Bool.or_eq_true_iff.mp (hpending ▸ hp)).imp_left h.asked
  · rcases (open_step_of_round hround).mp hopen with hearlier | hqueued
    · rcases h.answered hearlier with hp | hnone
      · exact Or.inl (hpending.trans (by rw [hp, Bool.true_or]))
      · right
        have hopens : call.opens watch.engine = none := by
          cases call with
          | handleOuter answers now packet => exact absurd hearlier hobeys.2
          | _ => rfl
        have hprepared := hr.prepared.candidate
        rw [Call.opening_of_opens_eq_none hopens] at hprepared
        have hannouncedNone := eq_none_of_rel round.announced_candidate
          (eq_none_of_rel hprepared hnone)
        refine hr.candidate.trans (hs.candidate.trans ?_)
        rw [hannouncedNone, ite_self, ite_self, ite_self]
    · exact Or.inl (hpending.trans (by rw [hqueued, Bool.or_true]))

theorem step_of_refused (h : watch.Sound) {answers : Answers} {now : Instant} {packet : Bytes}
    (hround : (Call.sendInner answers now packet).round watch.engine = none) :
    (watch.step (.sendInner answers now packet)).Sound := by
  have ha := Call.announces_of_refused hround
  obtain ⟨added, hevents, hadded⟩ := ha.events
  have hany : added.any isReplaced = false := by
    refine any_replaced_eq_false (fun event he => ?_) hadded
    obtain ⟨dcid, rfl | rfl⟩ := he <;> rfl
  have hopen : (watch.step (.sendInner answers now packet)).Open ↔ watch.Open := by
    refine or_congr Iff.rfl ?_
    change ((Call.sendInner answers now packet).apply watch.engine).events.any isReplaced ↔ _
    rw [hevents, List.any_append, hany, Bool.or_false]
  refine ⟨(h.vouched.announces ha).mono (completed_subset_step rfl), fun hp => ?_, fun ho => ?_⟩
  · exact hopen.mpr (h.asked (ha.pending ▸ hp))
  · refine (h.answered (hopen.mp ho)).imp (fun hp => ha.pending.trans hp) fun hnone => ?_
    exact eq_none_of_rel ha.candidate hnone

theorem step_of_close (h : watch.Sound) : (watch.step .close).Sound := by
  refine ⟨⟨?_, ?_, ?_⟩, fun hp => ?_, fun _ => Or.inr rfl⟩
  · intro handle ha
    cases ha
  · rintro managed (hm | hm) <;> cases hm
  · intro _ handle hc
    cases hc
  · refine (h.asked hp).imp id fun hany => ?_
    change (watch.engine.events ++ _ ++ _).any isReplaced
    rw [List.any_append, List.any_append, hany, Bool.true_or, Bool.true_or]

/-- After an answer there is no candidate and nothing pending. -/
theorem resolved (h : watch.Sound) (hwaiting : 0 < watch.waiting) (published : Bool) :
    (watch.engine.resolveCandidateReplacement published).candidate = none ∧
      (watch.engine.resolveCandidateReplacement published).candidatePromotionPending = false := by
  rcases resolve_cases published watch.engine with ⟨hp, heq⟩ |
    ⟨-, ⟨-, hnone, heq⟩ | ⟨-, candidate, -, hcommits⟩ | ⟨-, heq⟩⟩
  · rw [heq]
    refine ⟨(h.answered (Or.inl hwaiting)).resolve_left fun hpending => ?_, hp⟩
    exact Bool.false_ne_true (hp.symm.trans hpending)
  · rw [heq]
    exact ⟨hnone, rfl⟩
  · exact ⟨hcommits.candidate, hcommits.pending⟩
  · obtain ⟨-, hnone, hpending, -⟩ :=
      dropCandidate_slots { watch.engine with candidatePromotionPending := false }
    rw [heq]
    exact ⟨hnone, hpending⟩

theorem step_of_resolve (h : watch.Sound) (hwaiting : 0 < watch.waiting) (published : Bool) :
    (watch.step (.resolveCandidateReplacement published)).Sound := by
  obtain ⟨hnone, hpending⟩ := h.resolved hwaiting published
  have hactive : ∀ handle,
      (watch.engine.resolveCandidateReplacement published).activeHandle = some handle →
        handle ∈ watch.completed := by
    rcases resolve_cases published watch.engine with ⟨-, heq⟩ |
      ⟨hp, ⟨-, -, heq⟩ | ⟨-, candidate, hc, hcommits⟩ | ⟨-, heq⟩⟩
    · rw [heq]
      exact h.vouched.active
    · rw [heq]
      exact h.vouched.active
    · intro handle ha
      refine h.vouched.promoted hp handle (Eq.trans ?_ ha)
      exact congrArg (Option.map _) (hc.trans hcommits.connection.symm)
    · obtain ⟨hconnection, -⟩ :=
        dropCandidate_slots { watch.engine with candidatePromotionPending := false }
      intro handle ha
      rw [heq] at ha
      exact h.vouched.active handle ((congrArg (Option.map _) hconnection).symm.trans ha)
  have hsubset : watch.completed ⊆
      (watch.step (.resolveCandidateReplacement published)).completed :=
    Watch.completed_subset_step rfl
  refine ⟨⟨fun handle ha => hsubset (hactive handle ha), fun managed hm _ => ?_, fun hp => ?_⟩,
    fun hp => ?_, fun _ => Or.inr hnone⟩
  · rcases hm with hm | hm
    · exact hsubset (hactive managed.handle (congrArg (Option.map _) hm))
    · exact absurd (hnone.symm.trans hm) (by simp)
  · exact absurd (hpending.symm.trans hp) Bool.false_ne_true
  · exact absurd (hpending.symm.trans hp) Bool.false_ne_true

theorem step (h : watch.Sound) (hobeys : watch.Obeys call) : (watch.step call).Sound := by
  cases hround : call.round watch.engine with
  | some round => exact h.step_of_round hobeys hround
  | none =>
    cases call with
    | handleOuter answers now packet => cases hround
    | sendInner answers now packet => exact h.step_of_refused hround
    | poll answers now => cases hround
    | close => exact h.step_of_close
    | resolveCandidateReplacement published => exact h.step_of_resolve hobeys.2 published

end Watch.Sound

end Soundness

section Atomicity

/-- The id is tracked for a connection of the list. -/
def TrackedFor (completed : List ConnectionHandle) (engine : QuicEngine hmac) (dcid : Bytes) :
    Prop :=
  ∃ managed, (engine.connection = some managed ∨ engine.candidate = some managed) ∧
    managed.handle ∈ completed ∧ managed.dcids.contains dcid

/-- The engine when the ids that come up during the call are tracked: before the reports
of the round are settled, if there is one. -/
def Call.tracking (engine : QuicEngine hmac) (call : Call) : QuicEngine hmac :=
  (call.round engine).elim (call.apply engine) Round.announced

/-- What a call does to the two connections, the published ids and the reassembly. -/
structure Atomic (watch : Watch hmac) (call : Call) : Prop where
  active : ∀ handle, (watch.step call).engine.activeHandle = some handle →
    handle ∈ (watch.step call).completed
  /-- the active connection is given up for one of three reasons -/
  kept : ∀ handle, watch.engine.activeHandle = some handle →
    (watch.step call).engine.activeHandle = some handle ∨ call = .close ∨
      handle ∈ call.loses watch.engine ∨
      call = .resolveCandidateReplacement true ∧ ∃ other ∈ watch.completed,
        watch.engine.candidateHandle = some other ∧
          (watch.step call).engine.activeHandle = some other
  /-- an id is published for a connection that has completed its authentication -/
  published : ∀ dcid, (watch.step call).engine.publishedDcids.contains dcid →
    watch.engine.publishedDcids.contains dcid ∨
      TrackedFor (watch.step call).completed (call.tracking watch.engine) dcid
  authenticated : .authenticated ∈ call.queued watch.engine →
    (∃ handle, handle ∈ call.authenticates watch.engine) ∨
      call = .resolveCandidateReplacement true ∧ ∃ handle ∈ watch.completed,
        watch.engine.candidateHandle = some handle
  rejected : call = .resolveCandidateReplacement false →
    (watch.step call).engine.connection = watch.engine.connection ∧
      (watch.step call).engine.publishedDcids = watch.engine.publishedDcids ∧
      (watch.step call).engine.reassembly = watch.engine.reassembly ∧
      (watch.step call).engine.reassemblyBytes = watch.engine.reassemblyBytes ∧
      (watch.step call).engine.candidate = none
  committed : call = .resolveCandidateReplacement true →
    ∀ managed, watch.engine.candidate = some managed →
      (watch.step call).engine.connection = some managed ∧
        (watch.step call).engine.candidate = none ∧
        (watch.step call).engine.publishedDcids = managed.dcids ∧
        (watch.step call).engine.reassembly = .empty ∧
        (watch.step call).engine.reassemblyBytes = 0

variable {watch : Watch hmac}

theorem authenticated_not_aboutId {events : List QuicEngineEvent}
    (h : ∀ event ∈ events, AboutId event) : .authenticated ∉ events := by
  intro he
  obtain ⟨dcid, heq | heq | heq⟩ := h _ he <;> cases heq

theorem authenticated_not_aboutPacket {events : List QuicEngineEvent}
    (h : ∀ event ∈ events, AboutPacket event) : .authenticated ∉ events := by
  intro he
  rcases h _ he with ⟨packet, heq⟩ | ⟨transmit, heq⟩ <;> cases heq

namespace Watch.Sound

/-- The ids a round adds belong to connections that are authenticated by then. -/
theorem published_of_round (h : watch.Sound) (hobeys : watch.Obeys call) {round : Round hmac}
    (hround : call.round watch.engine = some round) {dcid : Bytes}
    (hd : (call.apply watch.engine).publishedDcids.contains dcid) :
    watch.engine.publishedDcids.contains dcid ∨
      TrackedFor (watch.step call).completed round.announced dcid := by
  have hr := Call.rounds_of_round hround
  have hprepared := (h.vouched.opening hobeys.1 (h.pending_of_opens hobeys)).announces hr.prepared
  have hannounced := hprepared.announced round
  have hcompleted : (watch.step call).completed =
      watch.completed.filter (fun handle => call.opens watch.engine ≠ some handle) ++
        round.reported (·.authenticatedNow) := by
    unfold Watch.step Call.authenticates
    rw [hround]
    rfl
  rw [hcompleted]
  have hactive : ∀ managed, round.announced.connection = some managed →
      managed.handle ∈ watch.completed.filter
        (fun handle => call.opens watch.engine ≠ some handle) ++
          round.reported (·.authenticatedNow) :=
    fun managed hm => hannounced.active managed.handle (congrArg (Option.map _) hm)
  have hpublished : (call.opening watch.engine).publishedDcids = watch.engine.publishedDcids := by
    cases ho : call.opens watch.engine with
    | none => rw [Call.opening_of_opens_eq_none ho]
    | some opened =>
      obtain ⟨-, now, hopening⟩ := Call.opening_of_opens ho
      rw [hopening]
  rw [hr.published] at hd
  rcases round.settles_settled.published dcid hd with
    hd | ⟨-, managed, hm, hd⟩ | ⟨hnow, managed, hm, hd⟩
  · rcases round.announces_announced.published dcid hd with hd | ⟨managed, hm, ha, hd⟩
    · rcases hr.prepared.published dcid hd with hd | ⟨managed, hm, ha, hd⟩
      · exact Or.inl (hpublished ▸ hd)
      · -- published before the round, for a connection that is still there in the round
        have hhandle := List.mem_append_left (round.reported (·.authenticatedNow))
          (hprepared.authenticated managed hm ha)
        rcases hm with hm | hm
        · obtain ⟨later, hslot, hdrove⟩ := exists_of_rel round.announced_connection hm
          exact Or.inr ⟨later, Or.inl hslot, hdrove.handle ▸ hhandle, hdrove.dcids dcid hd⟩
        · obtain ⟨later, hslot, hdrove⟩ := exists_of_rel round.announced_candidate hm
          exact Or.inr ⟨later, Or.inr hslot, hdrove.handle ▸ hhandle, hdrove.dcids dcid hd⟩
    · exact Or.inr ⟨managed, hm, hannounced.authenticated managed hm ha, hd⟩
  · exact Or.inr ⟨managed, Or.inl hm, hactive managed hm, hd⟩
  · refine Or.inr ⟨managed, Or.inr hm, List.mem_append_right _ (Round.mem_reported.mpr ?_), hd⟩
    exact Or.inr ⟨hnow, round.candidateHandle_announced.symm.trans (congrArg (Option.map _) hm)⟩

theorem authenticated_of_round {round : Round hmac} (hround : call.round engine = some round)
    (h : .authenticated ∈ call.queued engine) : ∃ handle, handle ∈ call.authenticates engine := by
  have hauth : call.authenticates engine = round.reported (·.authenticatedNow) := by
    unfold Call.authenticates
    rw [hround]
    rfl
  rw [hauth]
  obtain ⟨ids, ids', packets, hids, hids', hpackets, -, hqueued⟩ := Call.queued_of_round hround
  simp only [hqueued, List.mem_append, authenticated_not_aboutId hids,
    authenticated_not_aboutId hids', authenticated_not_aboutPacket hpackets, false_or,
    or_false] at h
  rcases h with h | h
  · -- the active connection has reported it, so there is one
    have hnow : round.activeDrive.authenticatedNow := by
      by_contra hnow
      rw [if_neg hnow] at h
      cases h
    cases hm : round.engine.connection with
    | none =>
      unfold Round.activeDrive Round.active at hnow
      rw [hm] at hnow
      cases hnow
    | some managed =>
      exact ⟨managed.handle, Round.mem_reported.mpr (Or.inl ⟨hnow, congrArg (Option.map _) hm⟩)⟩
  · unfold verdict at h
    split_ifs at h with hnow hlost
    · cases hc : round.announced.candidate with
      | none =>
        rw [hc] at h
        cases h
      | some managed =>
        refine ⟨managed.handle, Round.mem_reported.mpr (Or.inr ⟨hnow, ?_⟩)⟩
        exact round.candidateHandle_announced.symm.trans (congrArg (Option.map _) hc)
    · simp at h
    · cases h

theorem atomic_of_round (h : watch.Sound) (hobeys : watch.Obeys call) {round : Round hmac}
    (hround : call.round watch.engine = some round) : Atomic watch call := by
  have hr := Call.rounds_of_round hround
  have hresolve : ∀ published, call ≠ .resolveCandidateReplacement published := by
    rintro published rfl
    cases hround
  refine ⟨(h.step hobeys).vouched.active, fun handle ha => ?_, fun dcid hd => ?_,
    fun hq => Or.inl (authenticated_of_round hround hq), fun hc => absurd hc (hresolve false),
    fun hc => absurd hc (hresolve true)⟩
  · have hactive : round.engine.activeHandle = some handle := by
      rw [hr.prepared.activeHandle, Call.activeHandle_opening, ha]
    have hnext : (call.apply watch.engine).activeHandle = round.settled.activeHandle :=
      congrArg (Option.map _) hr.connection
    rw [round.activeHandle_settled, hactive] at hnext
    split_ifs at hnext with hnow hlost
    · exact Or.inl hnext
    · refine Or.inr (Or.inr (Or.inl ?_))
      unfold Call.loses
      rw [hround]
      exact Round.mem_reported.mpr (Or.inl ⟨hlost, hactive⟩)
    · exact Or.inl hnext
  · have htracking : call.tracking watch.engine = round.announced := by
      unfold Call.tracking
      rw [hround]
      rfl
    rw [htracking]
    exact h.published_of_round hobeys hround hd

theorem atomic_of_refused (h : watch.Sound) {answers : Answers} {now : Instant} {packet : Bytes}
    (hobeys : watch.Obeys (.sendInner answers now packet))
    (hround : (Call.sendInner answers now packet).round watch.engine = none) :
    Atomic watch (.sendInner answers now packet) := by
  have ha := Call.announces_of_refused hround
  have hstep := h.step hobeys
  refine ⟨hstep.vouched.active, fun handle hactive => Or.inl (ha.activeHandle.trans hactive),
    fun dcid hd => ?_, fun hq => ?_, nofun, nofun⟩
  · refine (ha.published dcid hd).imp_right ?_
    rintro ⟨managed, hm, hauth, hd⟩
    have htracking : (Call.sendInner answers now packet).tracking watch.engine =
        (Call.sendInner answers now packet).apply watch.engine := by
      unfold Call.tracking
      rw [hround]
      rfl
    rw [htracking]
    exact ⟨managed, hm, hstep.vouched.authenticated managed hm hauth, hd⟩
  · obtain ⟨added, hevents, hadded⟩ := ha.events
    have hqueued : (Call.sendInner answers now packet).queued watch.engine = added := by
      unfold Call.queued
      rw [hevents]
      exact List.drop_left
    rw [hqueued] at hq
    obtain ⟨dcid, heq | heq⟩ := hadded _ hq <;> cases heq

theorem atomic_of_close (h : watch.Sound) (hobeys : watch.Obeys .close) : Atomic watch .close := by
  refine ⟨(h.step hobeys).vouched.active, fun _ _ => Or.inr (Or.inl rfl), nofun,
    fun hq => ?_, nofun, nofun⟩
  have hqueued : (Call.close.queued watch.engine) =
      (members watch.engine.publishedDcids).map .dcidRetired ++ [.closed] := by
    change ((watch.engine.events ++ _) ++ [QuicEngineEvent.closed]).drop _ = _
    rw [List.append_assoc, List.drop_left]
    rfl
  rw [hqueued] at hq
  simp at hq

/-- An answer that replaces nothing: the active connection and its ids stay. -/
theorem atomic_of_kept (h : watch.Sound) {published : Bool}
    (hobeys : watch.Obeys (.resolveCandidateReplacement published))
    (hkept : published = true → watch.engine.candidate = none)
    (hconnection : (watch.engine.resolveCandidateReplacement published).connection =
      watch.engine.connection)
    (hpublished : (watch.engine.resolveCandidateReplacement published).publishedDcids =
      watch.engine.publishedDcids)
    (hreassembly : (watch.engine.resolveCandidateReplacement published).reassembly =
      watch.engine.reassembly ∧
        (watch.engine.resolveCandidateReplacement published).reassemblyBytes =
          watch.engine.reassemblyBytes)
    (hevents : Adds AboutId watch.engine (watch.engine.resolveCandidateReplacement published)) :
    Atomic watch (.resolveCandidateReplacement published) := by
  refine ⟨(h.step hobeys).vouched.active, fun handle ha => Or.inl ?_, fun dcid hd => Or.inl ?_,
    fun hq => ?_, fun _ => ?_, fun hc managed hm => ?_⟩
  · exact (congrArg (Option.map _) hconnection).trans ha
  · rw [← hpublished]
    exact hd
  · obtain ⟨added, hadded, hall⟩ := hevents
    have hqueued : (Call.resolveCandidateReplacement published).queued watch.engine = added := by
      change (watch.engine.resolveCandidateReplacement published).events.drop _ = added
      rw [hadded, List.drop_left]
    exact absurd (hqueued ▸ hq) (authenticated_not_aboutId hall)
  · exact ⟨hconnection, hpublished, hreassembly.1, hreassembly.2, (h.resolved hobeys.2 published).1⟩
  · cases hc
    exact absurd ((hkept rfl).symm.trans hm) (by simp)

theorem atomic_of_commits (h : watch.Sound) {managed : ManagedConnection}
    (hobeys : watch.Obeys (.resolveCandidateReplacement true))
    (hp : watch.engine.candidatePromotionPending) (hc : watch.engine.candidate = some managed)
    (hcommits : Commits managed { watch.engine with candidatePromotionPending := false }
      (watch.engine.resolveCandidateReplacement true)) :
    Atomic watch (.resolveCandidateReplacement true) := by
  have hcandidate : watch.engine.candidateHandle = some managed.handle := congrArg (Option.map _) hc
  have hcompleted := h.vouched.promoted hp managed.handle hcandidate
  have hsubset : watch.completed ⊆ (watch.step (.resolveCandidateReplacement true)).completed :=
    Watch.completed_subset_step rfl
  refine ⟨(h.step hobeys).vouched.active, fun handle _ => ?_, fun dcid hd => Or.inr ?_,
    fun _ => Or.inr ⟨rfl, managed.handle, hcompleted, hcandidate⟩, nofun, fun _ other hother => ?_⟩
  · refine Or.inr (Or.inr (Or.inr ⟨rfl, managed.handle, hcompleted, hcandidate, ?_⟩))
    exact congrArg (Option.map _) hcommits.connection
  · refine ⟨managed, Or.inl hcommits.connection, hsubset hcompleted, ?_⟩
    rw [← hcommits.published]
    exact hd
  · cases hc.symm.trans hother
    exact ⟨hcommits.connection, hcommits.candidate, hcommits.published, hcommits.reassembly.1,
      hcommits.reassembly.2⟩

theorem atomic_of_resolve (h : watch.Sound) {published : Bool}
    (hobeys : watch.Obeys (.resolveCandidateReplacement published)) :
    Atomic watch (.resolveCandidateReplacement published) := by
  rcases resolve_cases published watch.engine with ⟨hp, heq⟩ |
    ⟨hp, ⟨-, hnone, heq⟩ | ⟨rfl, managed, hc, hcommits⟩ | ⟨rfl, heq⟩⟩
  · have hnone : watch.engine.candidate = none :=
      (h.answered (Or.inl hobeys.2)).resolve_left fun hpending =>
        Bool.false_ne_true (hp.symm.trans hpending)
    refine h.atomic_of_kept hobeys (fun _ => hnone) ?_ ?_ ?_ ?_ <;> rw [heq]
    · exact ⟨rfl, rfl⟩
    · exact .of_eq rfl
  · refine h.atomic_of_kept hobeys (fun _ => hnone) ?_ ?_ ?_ ?_ <;> rw [heq]
    · exact ⟨rfl, rfl⟩
    · exact .of_eq rfl
  · exact h.atomic_of_commits hobeys hp hc hcommits
  · obtain ⟨hconnection, -, -, hpublished, hevents⟩ :=
      dropCandidate_slots { watch.engine with candidatePromotionPending := false }
    refine h.atomic_of_kept hobeys nofun ?_ ?_ ?_ ?_ <;> rw [heq]
    · exact hconnection
    · exact hpublished
    · unfold dropCandidate
      split <;> exact ⟨rfl, rfl⟩
    · exact hevents

theorem atomic (h : watch.Sound) (hobeys : watch.Obeys call) : Atomic watch call := by
  cases hround : call.round watch.engine with
  | some round => exact h.atomic_of_round hobeys hround
  | none =>
    cases call with
    | handleOuter answers now packet => cases hround
    | sendInner answers now packet => exact h.atomic_of_refused hobeys hround
    | poll answers now => cases hround
    | close => exact h.atomic_of_close hobeys
    | resolveCandidateReplacement published => exact h.atomic_of_resolve hobeys

end Watch.Sound

/-- A server before its first call. -/
def Watch.start (engine : QuicEngine hmac) : Watch hmac := ⟨engine, 0, []⟩

theorem sound_serverForWorker {sharedKey : Secret} {dcidLen workerId workerCount : ℕ}
    {start : QuicEngine hmac}
    (h : serverForWorker sharedKey dcidLen workerId workerCount = .ok start) :
    (Watch.start start).Sound := by
  unfold serverForWorker at h
  split_ifs at h
  cases h
  exact ⟨⟨nofun, nofun, nofun⟩, nofun, fun _ => Or.inr rfl⟩

/-- Every call of a run that keeps the discipline leaves the active connection, its ids and
the reassembly to connections that have completed their authentication. -/
theorem replacement_atomic {sharedKey : Secret} {dcidLen workerId workerCount : ℕ}
    {start : QuicEngine hmac} {calls : List Call}
    (hstart : serverForWorker sharedKey dcidLen workerId workerCount = .ok start)
    (hobeys : Along Watch.step Watch.Obeys (.start start) calls) :
    ∀ before call later, calls = before ++ call :: later →
      Atomic ((Watch.start start).after before) call := by
  rintro before call later rfl
  have hsound : ((Watch.start start).after before).Sound :=
    (Along.append_iff.mp hobeys).1.invariant (sound_serverForWorker hstart)
      fun _ _ h hobeys => h.step hobeys
  exact hsound.atomic hobeys.split.1

/-- A second client takes the place of the first. -/
def replacingRun : List Call :=
  [request 7 0, confirm 7 1 quiet [.written 64], request 8 2, confirm 8 3 quiet [.written 64],
    .poll (answering none quiet quiet) 4, .poll (answering none quiet quiet) 5,
    .resolveCandidateReplacement true]

theorem replacement_atomic_replacing :
    serverForWorker (Vector.replicate 32 0) 8 0 1 = .ok idleServer ∧
      ((Watch.start idleServer).after replacingRun).engine.activeHandle = some 8 ∧
      ∀ before call later, replacingRun = before ++ call :: later →
        Atomic ((Watch.start idleServer).after before) call :=
  have hstart : serverForWorker (Vector.replicate 32 0) 8 0 1 = .ok idleServer := rfl
  ⟨hstart, by decide +kernel, replacement_atomic hstart (by decide +kernel)⟩

end Atomicity

end NewProxy.QuicEngine
