import NewProxy.EngineRounds
import NewProxy.Runs

/-!
# Runs of calls on one engine

Each call opens at most one connection, comes to at most one round and then leaves
both slots as the round settled them, or empties or exchanges them.
-/
namespace NewProxy.QuicEngine

open Quic ManagedConnection

variable {hmac : Hmac} {engine : QuicEngine hmac} {call : Call}

section Calls

/-- The engine with the candidate a datagram opens; a second candidate is refused. -/
def openedBy (answers : Answers) (now : Instant) (engine : QuicEngine hmac) : QuicEngine hmac :=
  match answers.handled with
  | some (handle, .newConnection) =>
    if engine.candidate.isSome then engine
    else { engine with candidate := some (.new handle now) }
  | _ => engine

/-- `handle_outer` up to its round. -/
def receiveOuter (answers : Answers) (now : Instant) (packet : Bytes) (engine : QuicEngine hmac) :
    QuicEngine hmac :=
  match answers.handled with
  | none => engine
  | some (handle, _) =>
    let opened := engine.openedBy answers now
    let tracked := match extractDcid packet opened.dcidLen with
      | some dcid => opened.updateForHandle handle (·.trackDcid dcid)
      | none => opened
    tracked.stageDcidsForHandle handle (engine.generated answers.draws)

theorem handleOuter_eq (answers : Answers) (now : Instant) (packet : Bytes)
    (engine : QuicEngine hmac) :
    engine.handleOuter answers now packet =
      (engine.receiveOuter answers now packet).drive answers.drive now := by
  unfold handleOuter receiveOuter openedBy
  rcases answers.handled with _ | ⟨handle, _ | _⟩
  · rfl
  · rfl
  · rfl

theorem poll_eq (answers : Answers) (now : Instant) (engine : QuicEngine hmac) :
    (engine.poll answers now).2 =
      { engine.drive answers.drive now with
        events := (engine.drive answers.drive now).events.drop 1 } := by
  unfold poll
  dsimp only
  generalize engine.drive answers.drive now = driven
  cases he : driven.events with
  | nil =>
    cases driven
    cases he
    rfl
  | cons event rest => rfl

theorem announces_receiveOuter (answers : Answers) (now : Instant) (packet : Bytes)
    (engine : QuicEngine hmac) :
    Announces (engine.openedBy answers now) (engine.receiveOuter answers now packet) := by
  unfold receiveOuter
  rcases hhandled : answers.handled with _ | ⟨handle, event⟩
  · unfold openedBy
    rw [hhandled]
    exact .refl engine
  · refine Announces.trans ?_ (announces_stageDcidsForHandle _ _ _)
    split
    · exact announces_updateForHandle handle (fun managed => grows_trackDcid managed _) _
    · exact .refl _

namespace Call

/-- The engine with the connection the call opens. -/
def opening (engine : QuicEngine hmac) : Call → QuicEngine hmac
  | .handleOuter answers now _ => engine.openedBy answers now
  | _ => engine

/-- The handle of the connection the call opens. -/
def opens (engine : QuicEngine hmac) : Call → Option ConnectionHandle
  | .handleOuter answers _ _ =>
    match answers.handled with
    | some (handle, .newConnection) => if engine.candidate.isSome then none else some handle
    | _ => none
  | _ => none

/-- The round the call comes to. -/
def round (engine : QuicEngine hmac) : Call → Option (Round hmac)
  | .handleOuter answers now packet =>
    some ⟨engine.receiveOuter answers now packet, answers.drive, now⟩
  | .sendInner answers now packet =>
    match engine.emitInner answers packet with
    | (.ok _, engine) => some ⟨engine, answers.drive, now⟩
    | (.error _, _) => none
  | .poll answers now => some ⟨engine, answers.drive, now⟩
  | .close | .resolveCandidateReplacement _ => none

/-- The event the call takes out of the queue. -/
def popped (engine : QuicEngine hmac) : Call → List QuicEngineEvent
  | .poll answers now => (engine.drive answers.drive now).events.take 1
  | _ => []

/-- The events the call puts into the queue. -/
def queued (engine : QuicEngine hmac) (call : Call) : List QuicEngineEvent :=
  (call.popped engine ++ (call.apply engine).events).drop engine.events.length

/-- How a call that comes to a round ends. -/
structure Rounds (engine : QuicEngine hmac) (call : Call) (round : Round hmac) : Prop where
  prepared : Announces (call.opening engine) round.engine
  connection : (call.apply engine).connection = round.settled.connection
  candidate : (call.apply engine).candidate = round.settled.candidate
  pending : (call.apply engine).candidatePromotionPending = round.settled.candidatePromotionPending
  published : (call.apply engine).publishedDcids = round.settled.publishedDcids
  events : ∃ packets, (∀ event ∈ packets, AboutPacket event) ∧
    call.popped engine ++ (call.apply engine).events = round.settled.events ++ packets

theorem rounds_of_drive {round : Round hmac}
    (hprepared : Announces (call.opening engine) round.engine)
    (happly : call.apply engine = round.engine.drive round.input round.now)
    (hpopped : call.popped engine = []) : call.Rounds engine round := by
  have h := delivers_drive round
  obtain ⟨packets, hevents, hall⟩ := h.events
  refine ⟨hprepared, ?_, ?_, ?_, ?_, packets, hall, ?_⟩ <;> rw [happly]
  · exact h.connection
  · exact h.candidate
  · exact h.pending
  · exact h.published
  · rw [hpopped, hevents, List.nil_append]

theorem rounds_of_round {round : Round hmac} (h : call.round engine = some round) :
    call.Rounds engine round := by
  cases call with
  | handleOuter answers now packet =>
    cases h
    exact rounds_of_drive (announces_receiveOuter answers now packet engine)
      (handleOuter_eq answers now packet engine) rfl
  | sendInner answers now packet =>
    have hemit := announces_emitInner answers packet engine
    unfold Call.round at h
    dsimp only at h
    split at h
    · rename_i next he
      cases h
      rw [he] at hemit
      refine rounds_of_drive hemit ?_ rfl
      unfold Call.apply QuicEngine.sendInner
      dsimp only
      rw [he]
    · cases h
  | poll answers now =>
    cases h
    have hd := delivers_drive ⟨engine, answers.drive, now⟩
    obtain ⟨packets, hevents, hall⟩ := hd.events
    let driven := engine.drive answers.drive now
    have hpoll : (Call.poll answers now).apply engine =
        { driven with events := driven.events.drop 1 } := poll_eq answers now engine
    refine ⟨.refl engine, ?_, ?_, ?_, ?_, packets, hall, ?_⟩ <;> rw [hpoll]
    · exact hd.connection
    · exact hd.candidate
    · exact hd.pending
    · exact hd.published
    · exact (List.take_append_drop 1 driven.events).trans hevents
  | close => cases h
  | resolveCandidateReplacement published => cases h

/-- A packet that is refused changes nothing the connections are known by. -/
theorem announces_of_refused {answers : Answers} {now : Instant} {packet : Bytes}
    (h : (Call.sendInner answers now packet).round engine = none) :
    Announces engine ((Call.sendInner answers now packet).apply engine) := by
  have hemit := announces_emitInner answers packet engine
  unfold Call.round at h
  unfold Call.apply QuicEngine.sendInner
  dsimp only at h ⊢
  split at h
  · cases h
  · rename_i error next he
    rw [he] at hemit ⊢
    exact hemit

end Call

end Calls

section Handles

def activeHandle (engine : QuicEngine hmac) : Option ConnectionHandle :=
  engine.connection.map (·.handle)

def candidateHandle (engine : QuicEngine hmac) : Option ConnectionHandle :=
  engine.candidate.map (·.handle)

def Bears (engine : QuicEngine hmac) (handle : ConnectionHandle) : Prop :=
  engine.activeHandle = some handle ∨ engine.candidateHandle = some handle

instance decidableBears (engine : QuicEngine hmac) (handle : ConnectionHandle) :
    Decidable (engine.Bears handle) :=
  inferInstanceAs (Decidable (_ ∨ _))

theorem map_handle_of_rel {R : ManagedConnection → ManagedConnection → Prop}
    (hR : ∀ managed next, R managed next → next.handle = managed.handle)
    {slot slot' : Option ManagedConnection} (h : Option.Rel R slot slot') :
    slot'.map (·.handle) = slot.map (·.handle) := by
  cases h with
  | none => rfl
  | some h => exact congrArg some (hR _ _ h)

theorem Announces.activeHandle {next : QuicEngine hmac} (h : Announces engine next) :
    next.activeHandle = engine.activeHandle :=
  map_handle_of_rel (fun _ _ h => h.handle) h.connection

theorem Announces.candidateHandle {next : QuicEngine hmac} (h : Announces engine next) :
    next.candidateHandle = engine.candidateHandle :=
  map_handle_of_rel (fun _ _ h => h.handle) h.candidate

namespace Round

variable (round : Round hmac)

theorem activeHandle_announced : round.announced.activeHandle = round.engine.activeHandle :=
  map_handle_of_rel (fun _ _ h => h.handle) round.announced_connection

theorem candidateHandle_announced :
    round.announced.candidateHandle = round.engine.candidateHandle :=
  map_handle_of_rel (fun _ _ h => h.handle) round.announced_candidate

theorem activeHandle_settled : round.settled.activeHandle =
    if round.candidateDrive.authenticatedNow then
      round.engine.activeHandle.or round.engine.candidateHandle
    else if round.activeDrive.lost then none else round.engine.activeHandle := by
  rw [← activeHandle_announced, ← candidateHandle_announced]
  unfold QuicEngine.activeHandle QuicEngine.candidateHandle
  rw [round.settles_settled.connection]
  split_ifs
  · exact Option.map_or
  · rfl
  · rfl

theorem candidateHandle_settled : round.settled.candidateHandle =
    if round.candidateDrive.authenticatedNow then
      if round.engine.activeHandle.isSome then round.engine.candidateHandle else none
    else if round.activeDrive.lost ∨ round.candidateDrive.lost then none
    else round.engine.candidateHandle := by
  rw [← activeHandle_announced, ← candidateHandle_announced]
  unfold QuicEngine.activeHandle QuicEngine.candidateHandle
  rw [round.settles_settled.candidate, Option.isSome_map]
  split_ifs <;> rfl

/-- The handles of the connections a report is made of. -/
def reported (report : ConnectionDrive → Bool) : List ConnectionHandle :=
  (if report round.activeDrive then round.engine.activeHandle.toList else []) ++
    if report round.candidateDrive then round.engine.candidateHandle.toList else []

variable {round} in
theorem mem_reported {report : ConnectionDrive → Bool} {handle : ConnectionHandle} :
    handle ∈ round.reported report ↔
      report round.activeDrive ∧ round.engine.activeHandle = some handle ∨
        report round.candidateDrive ∧ round.engine.candidateHandle = some handle := by
  unfold reported
  rw [List.mem_append]
  split_ifs with ha hc hc <;> simp [ha, hc, Option.mem_toList]

end Round

theorem handles_resolve (published : Bool) (engine : QuicEngine hmac) :
    let next := engine.resolveCandidateReplacement published
    (next.activeHandle = engine.activeHandle ∧ next.candidateHandle = engine.candidateHandle) ∨
      (next.activeHandle = engine.activeHandle ∧ next.candidateHandle = none) ∨
      next.activeHandle = engine.candidateHandle ∧ next.candidateHandle = none := by
  dsimp only
  rcases resolve_cases published engine with ⟨-, h⟩ |
    ⟨-, ⟨-, -, h⟩ | ⟨-, candidate, hc, h⟩ | ⟨-, h⟩⟩
  · rw [h]
    exact Or.inl ⟨rfl, rfl⟩
  · rw [h]
    exact Or.inl ⟨rfl, rfl⟩
  · refine Or.inr (Or.inr ⟨?_, congrArg (Option.map _) h.candidate⟩)
    exact congrArg (Option.map _) (h.connection.trans hc.symm)
  · obtain ⟨ha, hc, -⟩ := dropCandidate_slots { engine with candidatePromotionPending := false }
    rw [h]
    exact Or.inr (Or.inl ⟨congrArg (Option.map _) ha, congrArg (Option.map _) hc⟩)

namespace Call

/-- The connections the call finds lost. -/
def loses (engine : QuicEngine hmac) (call : Call) : List ConnectionHandle :=
  (call.round engine).elim [] (·.reported (·.lost))

/-- The connections that complete their authentication during the call. -/
def authenticates (engine : QuicEngine hmac) (call : Call) : List ConnectionHandle :=
  (call.round engine).elim [] (·.reported (·.authenticatedNow))

/-- A connection is opened only into the empty slot of the candidate. -/
theorem opening_of_opens {handle : ConnectionHandle} (h : call.opens engine = some handle) :
    engine.candidate = none ∧
      ∃ now, call.opening engine = { engine with candidate := some (.new handle now) } := by
  cases call with
  | handleOuter answers now packet =>
    unfold opens at h
    unfold opening openedBy
    dsimp only at h ⊢
    rcases hhandled : answers.handled with _ | ⟨opened, _ | _⟩ <;> rw [hhandled] at h
    · cases h
    · dsimp only at h ⊢
      by_cases hc : engine.candidate.isSome
      · rw [if_pos hc] at h
        cases h
      · rw [if_neg hc] at h ⊢
        cases h
        exact ⟨by simpa using hc, now, rfl⟩
    · cases h
  | _ => cases h

theorem opening_of_opens_eq_none (h : call.opens engine = none) : call.opening engine = engine := by
  cases call with
  | handleOuter answers now packet =>
    unfold opens at h
    unfold opening openedBy
    dsimp only at h ⊢
    rcases hhandled : answers.handled with _ | ⟨opened, _ | _⟩
    · rfl
    · rw [hhandled] at h
      dsimp only at h ⊢
      by_cases hc : engine.candidate.isSome
      · rw [if_pos hc]
      · rw [if_neg hc] at h
        cases h
    · rfl
  | _ => rfl

theorem activeHandle_opening (engine : QuicEngine hmac) (call : Call) :
    (call.opening engine).activeHandle = engine.activeHandle := by
  cases ho : call.opens engine with
  | none => rw [opening_of_opens_eq_none ho]
  | some opened =>
    obtain ⟨-, now, h⟩ := opening_of_opens ho
    rw [h]
    rfl

theorem candidateHandle_opening {handle : ConnectionHandle} (h : call.opens engine = some handle) :
    (call.opening engine).candidateHandle = some handle := by
  obtain ⟨-, now, h⟩ := opening_of_opens h
  rw [h]
  rfl

theorem events_opening (engine : QuicEngine hmac) (call : Call) :
    (call.opening engine).events = engine.events := by
  cases ho : call.opens engine with
  | none => rw [opening_of_opens_eq_none ho]
  | some opened =>
    obtain ⟨-, now, h⟩ := opening_of_opens ho
    rw [h]

/-- What a call with a round puts into the queue. -/
theorem queued_of_round {round : Round hmac} (h : call.round engine = some round) :
    ∃ ids ids' packets, (∀ event ∈ ids, AboutId event) ∧ (∀ event ∈ ids', AboutId event) ∧
      (∀ event ∈ packets, AboutPacket event) ∧
      call.popped engine ++ (call.apply engine).events = engine.events ++ call.queued engine ∧
      call.queued engine = ids ++
        (if round.activeDrive.authenticatedNow then [.authenticated] else []) ++ ids' ++
        verdict round.activeDrive round.candidateDrive round.announced ++ packets := by
  have hr := rounds_of_round h
  obtain ⟨packets, hpackets, hevents⟩ := hr.events
  obtain ⟨ids, ids', hids, hids', hsettled⟩ := round.settles_settled.events
  obtain ⟨announced, hannounced, hall⟩ := round.announces_announced.events
  obtain ⟨prepared, hprepared, hall'⟩ := hr.prepared.events
  have habout : ∀ event, (∃ dcid, event = .dcidStaged dcid ∨ event = .dcidPublished dcid) →
      AboutId event := fun event ⟨dcid, h⟩ => ⟨dcid, h.imp_right Or.inl⟩
  have htotal : call.popped engine ++ (call.apply engine).events = engine.events ++
      (prepared ++ announced ++ ids ++
        (if round.activeDrive.authenticatedNow then [.authenticated] else []) ++ ids' ++
        verdict round.activeDrive round.candidateDrive round.announced ++ packets) := by
    have hannounced' : round.announced.events = round.engine.events ++ announced := hannounced
    rw [hevents, hsettled, hannounced', hprepared, events_opening]
    simp only [List.append_assoc]
  have hqueued : call.queued engine = prepared ++ announced ++ ids ++
      (if round.activeDrive.authenticatedNow then [.authenticated] else []) ++ ids' ++
      verdict round.activeDrive round.candidateDrive round.announced ++ packets := by
    unfold queued
    rw [htotal, List.drop_left]
  refine ⟨prepared ++ announced ++ ids, ids', packets, fun event he => ?_, hids', hpackets,
    ?_, hqueued⟩
  · rcases List.mem_append.mp he with he | he
    · exact (List.mem_append.mp he).elim (fun h => habout _ (hall' _ h)) fun h =>
        habout _ (hall _ h)
    · exact hids event he
  · rw [htotal, hqueued]

/-- What a call can do to the handles of the two slots. -/
theorem handles_apply (engine : QuicEngine hmac) (call : Call) :
    let next := call.apply engine
    let handle := (call.opening engine).candidateHandle
    (next.activeHandle = engine.activeHandle ∧ next.candidateHandle = handle) ∨
      (next.activeHandle = engine.activeHandle ∧ next.candidateHandle = none) ∨
      (next.activeHandle = none ∧ next.candidateHandle = none) ∨
      next.activeHandle = handle ∧ next.candidateHandle = none := by
  dsimp only
  cases hround : call.round engine with
  | some round =>
    have h := rounds_of_round hround
    have ha : (call.apply engine).activeHandle = round.settled.activeHandle :=
      congrArg (Option.map _) h.connection
    have hc : (call.apply engine).candidateHandle = round.settled.candidateHandle :=
      congrArg (Option.map _) h.candidate
    rw [ha, hc, round.activeHandle_settled, round.candidateHandle_settled,
      h.prepared.activeHandle, h.prepared.candidateHandle, activeHandle_opening]
    cases engine.activeHandle with
    | none => split_ifs <;> simp_all
    | some active => split_ifs <;> simp_all
  | none =>
    cases call with
    | handleOuter answers now packet => cases hround
    | sendInner answers now packet =>
      have h := announces_of_refused hround
      exact Or.inl ⟨h.activeHandle, h.candidateHandle⟩
    | poll answers now => cases hround
    | close => exact Or.inr (Or.inr (Or.inl ⟨rfl, rfl⟩))
    | resolveCandidateReplacement published =>
      rcases handles_resolve published engine with h | h | h
      · exact Or.inl h
      · exact Or.inr (Or.inl h)
      · exact Or.inr (Or.inr (Or.inr h))

end Call

/-- No two connections of an engine bear one handle. -/
def Distinct (engine : QuicEngine hmac) : Prop :=
  ∀ handle, engine.activeHandle = some handle → engine.candidateHandle ≠ some handle

/-- The endpoint names a new connection by a handle that is not in use. -/
def Call.Fresh (engine : QuicEngine hmac) (call : Call) : Prop :=
  ∀ handle ∈ call.opens engine, ¬ engine.Bears handle

theorem Distinct.opening (h : engine.Distinct) (hf : call.Fresh engine) :
    (call.opening engine).Distinct := by
  cases ho : call.opens engine with
  | none =>
    rw [Call.opening_of_opens_eq_none ho]
    exact h
  | some opened =>
    intro handle ha hc
    rw [Call.activeHandle_opening] at ha
    rw [Call.candidateHandle_opening ho] at hc
    have hopened : opened = handle := Option.some.inj hc
    exact hf opened ho (Or.inl (hopened ▸ ha))

theorem Announces.distinct {next : QuicEngine hmac} (h : Announces engine next)
    (hd : engine.Distinct) : next.Distinct := by
  unfold Distinct
  rw [h.activeHandle, h.candidateHandle]
  exact hd

theorem Distinct.apply (h : engine.Distinct) (hf : call.Fresh engine) :
    (call.apply engine).Distinct := by
  have hopening := h.opening hf
  intro handle
  rcases Call.handles_apply engine call with ⟨ha, hc⟩ | ⟨ha, hc⟩ | ⟨ha, hc⟩ | ⟨ha, hc⟩ <;>
    rw [ha, hc]
  · rw [← Call.activeHandle_opening engine call]
    exact hopening handle
  · simp
  · simp
  · simp

end Handles

section Losses

def after (engine : QuicEngine hmac) (calls : List Call) : QuicEngine hmac :=
  calls.foldl Call.apply engine

def Call.now : Call → Option Instant
  | .handleOuter _ now _ | .sendInner _ now _ | .poll _ now => some now
  | .close | .resolveCandidateReplacement _ => none

/-- The clock does not go back. -/
def Timely (calls : List Call) : Prop := (calls.filterMap Call.now).Pairwise (· ≤ ·)

instance decidableTimely (calls : List Call) : Decidable (Timely calls) :=
  inferInstanceAs (Decidable (List.Pairwise _ _))

/-- A candidate that has just authenticated itself is not lost, and the active connection
is not lost with it. -/
def Call.Untangled (engine : QuicEngine hmac) (call : Call) : Prop :=
  ∀ round ∈ call.round engine, round.candidateDrive.authenticatedNow →
    round.candidateDrive.lost = false ∧ round.activeDrive.lost = false

/-- The run answers for the authenticated candidate of this handle that it takes its place. -/
def Committed (handle : ConnectionHandle) (engine : QuicEngine hmac) (later : List Call) : Prop :=
  ∃ next rest, later = next ++ .resolveCandidateReplacement true :: rest ∧
    (after engine next).candidatePromotionPending ∧ (after engine next).candidate.any fun managed =>
      managed.handle = handle ∧ managed.auth.authenticated

/-- The candidate of the call's round is not lost, and takes the place of the active
connection. -/
def Call.Replaces (engine : QuicEngine hmac) (later : List Call) (call : Call) : Prop :=
  ∃ round ∈ call.round engine, round.candidateDrive.lost = false ∧
    ∃ handle ∈ round.engine.candidateHandle, Committed handle (call.apply engine) later

/-- In no round that authenticates the candidate a connection is lost, except an active one
whose replacement is committed. -/
def Untangled : QuicEngine hmac → List Call → Prop
  | _, [] => True
  | engine, call :: later => (call.Untangled engine ∨ call.Replaces engine later) ∧
    Untangled (call.apply engine) later

theorem Untangled.split {before later : List Call}
    (h : Untangled engine (before ++ call :: later)) :
    call.Untangled (after engine before) ∨ call.Replaces (after engine before) later := by
  induction before generalizing engine with
  | nil => exact h.1
  | cons _ before ih => exact ih h.2

instance decidableFresh (engine : QuicEngine hmac) (call : Call) : Decidable (call.Fresh engine) :=
  inferInstanceAs (Decidable (∀ handle ∈ call.opens engine, _))

instance decidableUntangled (engine : QuicEngine hmac) (call : Call) :
    Decidable (call.Untangled engine) :=
  inferInstanceAs (Decidable (∀ round ∈ call.round engine, _))

theorem after_append (engine : QuicEngine hmac) (before later : List Call) :
    after engine (before ++ later) = after (after engine before) later :=
  List.foldl_append

/-- An active connection that is lost in the round of its replacement is out of both slots
with the answer, and another one is active. -/
theorem Call.Replaces.replaced {later : List Call} (h : call.Replaces engine later)
    (hd : engine.Distinct) (hf : call.Fresh engine) {handle : ConnectionHandle}
    (hlost : handle ∈ call.loses engine) : ∃ next rest managed, later = next ++ rest ∧
      (after (call.apply engine) next).connection = some managed ∧ managed.handle ≠ handle ∧
      managed.auth.authenticated ∧ ¬ (after (call.apply engine) next).Bears handle := by
  obtain ⟨round, hround, hkept, candidate, hcandidate, next, rest, rfl, hpending, hany⟩ := h
  have hr := Call.rounds_of_round hround
  unfold Call.loses at hlost
  rw [Option.mem_def.mp hround] at hlost
  have hactive : round.engine.activeHandle = some handle := by
    rcases Round.mem_reported.mp hlost with ⟨-, hactive⟩ | ⟨hlost, -⟩
    · exact hactive
    · exact absurd (hkept.symm.trans hlost) Bool.false_ne_true
  have hne : candidate ≠ handle := by
    rintro rfl
    exact hr.prepared.distinct (hd.opening hf) candidate hactive hcandidate
  obtain ⟨managed, hmanaged, hsame⟩ := (Option.any_eq_true _ _).mp hany
  obtain ⟨hhandle, hauth⟩ := of_decide_eq_true hsame
  let engaged := after (call.apply engine) next
  obtain ⟨_, hc, hcommits⟩ : ∃ managed, engaged.candidate = some managed ∧
      Commits managed _ (engaged.resolveCandidateReplacement true) := by
    rcases resolve_cases true engaged with ⟨hidle, -⟩ |
      ⟨-, ⟨-, hnone, -⟩ | ⟨-, hcommits⟩ | ⟨hfalse, -⟩⟩
    · exact absurd (hidle.symm.trans hpending) Bool.false_ne_true
    · cases hnone.symm.trans hmanaged
    · exact hcommits
    · cases hfalse
  cases hc.symm.trans hmanaged
  have hafter : after (call.apply engine) (next ++ [.resolveCandidateReplacement true]) =
      engaged.resolveCandidateReplacement true := after_append _ _ _
  refine ⟨next ++ [.resolveCandidateReplacement true], rest, managed, by simp, ?_, hhandle ▸ hne,
    hauth, ?_⟩ <;> rw [hafter]
  · exact hcommits.connection
  · rw [Bears, activeHandle, candidateHandle, hcommits.connection, hcommits.candidate]
    simpa [hhandle] using hne

def noMac : Hmac := fun _ _ => Vector.replicate 32 0

def idleServer : QuicEngine noMac := emptyEngine (Vector.replicate 32 0) 8 0 1 .server

def serverNonce : Nonce := Vector.replicate 16 1

/-- A frame with an empty client nonce and an empty MAC. -/
def clientFrame (kind : UInt8) (nonce : Nonce) : Bytes :=
  kind :: List.replicate 16 0 ++ nonce.toList ++ List.replicate 32 0

/-- A frame arrives and its reply meets these writes. -/
def reads (kind : UInt8) (nonce : Nonce) (writes : List WriteOutcome) : StreamRead :=
  ⟨some (clientFrame kind nonce), ⟨some (Vector.replicate 32 0), serverNonce,
    some (Vector.replicate 32 0), writes⟩⟩

def quiet : ConnectionInput := ⟨[], [], 0, [], []⟩

def hears (event : Event) : ConnectionInput := { quiet with events := [event] }

def answering (handled : Option (ConnectionHandle × DatagramEvent))
    (active candidate : ConnectionInput) : Answers :=
  ⟨handled, [], none, fun _ => true, [], ⟨active, candidate, []⟩⟩

/-- A client connects and asks to be authenticated. -/
def request (handle : ConnectionHandle) (now : Instant) : Call :=
  .handleOuter (answering (some (handle, .newConnection)) quiet
    (hears (.stream (.openedBi [(0, reads authRequest emptyNonce [.written 64])])))) now []

/-- The client confirms; meanwhile the active connection has `active` to report. -/
def confirm (handle : ConnectionHandle) (now : Instant) (active : ConnectionInput)
    (writes : List WriteOutcome) : Call :=
  .handleOuter (answering (some (handle, .connectionEvent)) active
    (hears (.stream (.readable 0 (reads authConfirm serverNonce writes))))) now []

end Losses

end NewProxy.QuicEngine
