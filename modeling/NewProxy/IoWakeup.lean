import Mathlib.Logic.Function.Basic
import Mathlib.Data.List.Basic

/-!
# Waking an IO worker

Flow workers push frames into the channel of an IO worker and then notify it: they
set the pending flag and, if it was clear, write the eventfd. The IO worker empties
the channel, polls, drains the eventfd and clears the flag. Every atomic access is a
step of its own, so that a producer may come between any two steps of the consumer.

The flag is set for as long as one wakeup is on its way, and `Signal` says where that
wakeup is: with the producer that set the flag, in the eventfd, or with the consumer
that has drained it.
-/
namespace NewProxy.IoWakeup

def ioBatchSize : ℕ := 64

/-- Where a producer is in `send_io`. -/
inductive Producer where
  | idle
  /-- The transmit is in the channel, `notify` has not begun. -/
  | pushed
  /-- The flag was clear, the eventfd is not yet written. -/
  | writing
  deriving DecidableEq

/-- Where the consumer is in `io_loop`. -/
inductive Consumer where
  /-- The head of the outer loop. -/
  | receiving
  | filling (received txCount : ℕ) (transmitted : Bool)
  /-- Behind the loop that fills a batch. -/
  | filled (received txCount : ℕ) (transmitted : Bool)
  | polling
  /-- The poll has reported the eventfd. -/
  | draining
  | clearing
  | stopped
  deriving DecidableEq

structure State (P T : Type) where
  channel : List T
  pending : Bool
  eventfd : ℕ
  producer : P → Producer
  consumer : Consumer

/-- What the poll reports: its timeout, a signal and a ready socket alone all leave
the eventfd as it is. -/
inductive PollResult where
  | wakeup
  | other
  | failed
  deriving DecidableEq

inductive Action (P T : Type) where
  | trySend (p : P) (transmit : T)
  | swapPending (p : P)
  | writeEventfd (p : P)
  | exit
  | receiveWith (received : ℕ)
  /-- One round of the filling loop; `framed` is the answer of `fill_ethernet_frame`. -/
  | tryRecv (framed : Bool)
  | disconnected
  /-- The end of a batch, of which `sent` frames are transmitted. -/
  | transmitBatch (sent : ℕ)
  | poll (result : PollResult)
  | drain (ok : Bool)
  | clearPending

variable {P T : Type}

namespace State

def start : State P T := ⟨[], false, 0, fun _ => .idle, .receiving⟩

def moved [DecidableEq P] (s : State P T) (p : P) (pc : Producer) : State P T :=
  { s with producer := Function.update s.producer p pc }

def trySend [DecidableEq P] (capacity : ℕ) (s : State P T) (p : P) (transmit : T) : State P T :=
  if s.channel.length < capacity then
    { s with channel := s.channel ++ [transmit] }.moved p .pushed
  else s

def swapPending [DecidableEq P] (s : State P T) (p : P) : State P T :=
  if s.pending then s.moved p .idle
  else { s with pending := true }.moved p .writing

def writeEventfd [DecidableEq P] (s : State P T) (p : P) : State P T :=
  { s with eventfd := s.eventfd + 1 }.moved p .idle

def tryRecv (s : State P T) (received txCount : ℕ) (transmitted framed : Bool) : State P T :=
  if txCount < ioBatchSize then
    match s.channel with
    | _ :: rest =>
      let txCount := if framed then txCount + 1 else txCount
      { s with channel := rest, consumer := .filling received txCount transmitted }
    | [] => { s with consumer := .filled received txCount transmitted }
  else { s with consumer := .filled received txCount transmitted }

def transmitBatch (s : State P T) (received txCount : ℕ) (transmitted : Bool) (sent : ℕ) :
    State P T :=
  if txCount = 0 then
    if received = 0 ∧ transmitted = false then { s with consumer := .polling }
    else { s with consumer := .receiving }
  else { s with consumer := .filling received 0 (transmitted || decide (0 < sent)) }

def poll (s : State P T) : PollResult → Option (State P T)
  | .wakeup => if 0 < s.eventfd then some { s with consumer := .draining } else none
  | .other => some { s with consumer := .receiving }
  | .failed => some { s with consumer := .stopped }

def drain (s : State P T) (ok : Bool) : State P T :=
  if ok then { s with eventfd := 0, consumer := .clearing } else { s with consumer := .stopped }

def clearPending (s : State P T) : State P T :=
  { s with pending := false, consumer := .receiving }

/-- One atomic step of a producer or of the consumer, if it is the next one there. -/
def step [DecidableEq P] (capacity : ℕ) (s : State P T) : Action P T → Option (State P T)
  | .trySend p transmit =>
    if s.producer p = .idle then some (s.trySend capacity p transmit) else none
  | .swapPending p => if s.producer p = .pushed then some (s.swapPending p) else none
  | .writeEventfd p => if s.producer p = .writing then some (s.writeEventfd p) else none
  | .exit => if s.consumer = .receiving then some { s with consumer := .stopped } else none
  | .receiveWith received =>
    if s.consumer = .receiving then some { s with consumer := .filling received 0 false } else none
  | .tryRecv framed => match s.consumer with
    | .filling received txCount transmitted => some (s.tryRecv received txCount transmitted framed)
    | _ => none
  | .disconnected => match s.consumer with
    | .filling _ _ _ => some { s with consumer := .stopped }
    | _ => none
  | .transmitBatch sent => match s.consumer with
    | .filled received txCount transmitted =>
      some (s.transmitBatch received txCount transmitted sent)
    | _ => none
  | .poll result => if s.consumer = .polling then s.poll result else none
  | .drain ok => if s.consumer = .draining then some (s.drain ok) else none
  | .clearPending => if s.consumer = .clearing then some s.clearPending else none

inductive Reachable [DecidableEq P] (capacity : ℕ) : State P T → Prop
  | start : Reachable capacity start
  | step {s s' : State P T} (action : Action P T) :
      Reachable capacity s → s.step capacity action = some s' → Reachable capacity s'

section Steps

variable [DecidableEq P] {capacity : ℕ} {s s' : State P T}

theorem step_tryRecv {framed : Bool} (h : s.step capacity (.tryRecv framed) = some s') :
    ∃ received txCount transmitted, s.consumer = .filling received txCount transmitted ∧
      s.tryRecv received txCount transmitted framed = s' := by
  cases hpc : s.consumer with
  | filling received txCount transmitted =>
    simp only [step, hpc, Option.some_inj] at h
    exact ⟨received, txCount, transmitted, rfl, h⟩
  | _ => simp [step, hpc] at h

theorem step_transmitBatch {sent : ℕ} (h : s.step capacity (.transmitBatch sent) = some s') :
    ∃ received txCount transmitted, s.consumer = .filled received txCount transmitted ∧
      s.transmitBatch received txCount transmitted sent = s' := by
  cases hpc : s.consumer with
  | filled received txCount transmitted =>
    simp only [step, hpc, Option.some_inj] at h
    exact ⟨received, txCount, transmitted, rfl, h⟩
  | _ => simp [step, hpc] at h

theorem step_disconnected (h : s.step capacity .disconnected = some s') :
    s.consumer ≠ .clearing ∧ { s with consumer := .stopped } = s' := by
  cases hpc : s.consumer with
  | filling received txCount transmitted =>
    simp only [step, hpc, Option.some_inj] at h
    exact ⟨by simp, h⟩
  | _ => simp [step, hpc] at h

end Steps

section Signal

variable {capacity : ℕ} {s s' : State P T} {p : P}

/-- Where the wakeup is that goes with a set flag; there is at most one. -/
inductive Signal (s : State P T) : Prop
  | none (pending : s.pending = false) (eventfd : s.eventfd = 0)
      (quiet : ∀ p, s.producer p ≠ .writing)
      (away : s.consumer ≠ .draining) (open_ : s.consumer ≠ .clearing)
  | producer (p : P) (pending : s.pending = true) (eventfd : s.eventfd = 0)
      (writing : ∀ q, s.producer q = .writing ↔ q = p)
      (away : s.consumer ≠ .draining) (open_ : s.consumer ≠ .clearing)
  | eventfd (pending : s.pending = true) (eventfd : s.eventfd = 1)
      (quiet : ∀ p, s.producer p ≠ .writing) (open_ : s.consumer ≠ .clearing)
  | consumer (pending : s.pending = true) (eventfd : s.eventfd = 0)
      (quiet : ∀ p, s.producer p ≠ .writing) (clearing : s.consumer = .clearing)

/-- A step that has nothing to do with the wakeup. -/
theorem Signal.frame (h : Signal s) (hp : s'.pending = s.pending) (he : s'.eventfd = s.eventfd)
    (hw : ∀ p, s'.producer p = .writing ↔ s.producer p = .writing)
    (hd : s'.consumer = .draining → s.consumer = .draining)
    (hc : s'.consumer = .clearing ↔ s.consumer = .clearing) : Signal s' := by
  cases h with
  | none pending eventfd quiet away open_ =>
    exact .none (hp ▸ pending) (he ▸ eventfd) (fun p => (hw p).not.mpr (quiet p)) (mt hd away)
      (hc.not.mpr open_)
  | producer p pending eventfd writing away open_ =>
    exact .producer p (hp ▸ pending) (he ▸ eventfd) (fun q => (hw q).trans (writing q))
      (mt hd away) (hc.not.mpr open_)
  | eventfd pending eventfd quiet open_ =>
    exact .eventfd (hp ▸ pending) (he ▸ eventfd) (fun p => (hw p).not.mpr (quiet p))
      (hc.not.mpr open_)
  | consumer pending eventfd quiet clearing =>
    exact .consumer (hp ▸ pending) (he ▸ eventfd) (fun p => (hw p).not.mpr (quiet p))
      (hc.mpr clearing)

/-- The consumer goes on without touching the wakeup. -/
structure Elsewhere (s s' : State P T) : Prop where
  pending : s'.pending = s.pending
  eventfd : s'.eventfd = s.eventfd
  producer : s'.producer = s.producer
  away : s'.consumer ≠ .draining
  open_ : s'.consumer ≠ .clearing

theorem Signal.elsewhere (h : Signal s) (hfrom : s.consumer ≠ .clearing) (hs : Elsewhere s s') :
    Signal s' :=
  h.frame hs.pending hs.eventfd (fun p => by rw [hs.producer]) (absurd · hs.away)
    (by simp [hfrom, hs.open_])

theorem elsewhere_of (s : State P T) {pc : Consumer} (hd : pc ≠ .draining) (hc : pc ≠ .clearing) :
    Elsewhere s { s with consumer := pc } :=
  ⟨rfl, rfl, rfl, hd, hc⟩

theorem tryRecv_elsewhere (s : State P T) (received txCount : ℕ) (transmitted framed : Bool) :
    Elsewhere s (s.tryRecv received txCount transmitted framed) := by
  rw [State.tryRecv]
  by_cases hroom : txCount < ioBatchSize
  · rw [if_pos hroom]
    split
    · exact ⟨rfl, rfl, rfl, by simp, by simp⟩
    · exact elsewhere_of s (by simp) (by simp)
  · rw [if_neg hroom]
    exact elsewhere_of s (by simp) (by simp)

theorem transmitBatch_elsewhere (s : State P T) (received txCount : ℕ) (transmitted : Bool)
    (sent : ℕ) : Elsewhere s (s.transmitBatch received txCount transmitted sent) := by
  rw [State.transmitBatch]
  split_ifs
  all_goals exact elsewhere_of s (by simp) (by simp)

theorem Signal.drain (h : Signal s) (hpc : s.consumer = .draining) (ok : Bool) :
    Signal (s.drain ok) := by
  rw [State.drain]
  split_ifs
  · cases h with
    | none _ _ _ away => exact absurd hpc away
    | producer _ _ _ _ away => exact absurd hpc away
    | eventfd pending eventfd quiet => exact .consumer pending rfl quiet rfl
    | consumer _ _ _ clearing => simp [hpc] at clearing
  · exact h.elsewhere (by simp [hpc]) (elsewhere_of s (by simp) (by simp))

theorem Signal.poll (h : Signal s) (hpc : s.consumer = .polling) {result : PollResult}
    (hstep : s.poll result = some s') : Signal s' := by
  cases result with
  | wakeup =>
    simp only [State.poll] at hstep
    split_ifs at hstep with hready
    cases hstep
    cases h with
    | none _ eventfd => omega
    | producer _ _ eventfd => omega
    | eventfd pending eventfd quiet => exact .eventfd pending eventfd quiet (by simp)
    | consumer _ _ _ clearing => simp [hpc] at clearing
  | other =>
    cases hstep
    exact h.elsewhere (by simp [hpc]) (elsewhere_of s (by simp) (by simp))
  | failed =>
    cases hstep
    exact h.elsewhere (by simp [hpc]) (elsewhere_of s (by simp) (by simp))

theorem Signal.clearPending (h : Signal s) (hpc : s.consumer = .clearing) :
    Signal s.clearPending := by
  rw [State.clearPending]
  cases h with
  | none _ _ _ _ open_ => exact absurd hpc open_
  | producer _ _ _ _ _ open_ => exact absurd hpc open_
  | eventfd _ _ _ open_ => exact absurd hpc open_
  | consumer _ eventfd quiet => exact .none rfl eventfd quiet (by simp) (by simp)

variable [DecidableEq P]

@[simp] theorem moved_channel (pc : Producer) : (s.moved p pc).channel = s.channel := rfl
@[simp] theorem moved_pending (pc : Producer) : (s.moved p pc).pending = s.pending := rfl
@[simp] theorem moved_eventfd (pc : Producer) : (s.moved p pc).eventfd = s.eventfd := rfl
@[simp] theorem moved_consumer (pc : Producer) : (s.moved p pc).consumer = s.consumer := rfl

theorem moved_producer (pc : Producer) (q : P) :
    (s.moved p pc).producer q = if q = p then pc else s.producer q :=
  Function.update_apply _ _ _ _

/-- A producer that neither begins nor ends a write. -/
theorem writing_moved {pc : Producer} (hbefore : s.producer p ≠ .writing) (hafter : pc ≠ .writing)
    (q : P) : (s.moved p pc).producer q = .writing ↔ s.producer q = .writing := by
  rw [moved_producer]
  split_ifs with hq
  · simp [hq, hbefore, hafter]
  · rfl

theorem Signal.trySend (h : Signal s) (hpc : s.producer p = .idle) (transmit : T) :
    Signal (s.trySend capacity p transmit) := by
  rw [State.trySend]
  split_ifs
  · have hpushed : Producer.pushed ≠ .writing := by decide
    exact h.frame rfl rfl (writing_moved (by simp [hpc]) hpushed) id .rfl
  · exact h

theorem Signal.swapPending (h : Signal s) (hpc : s.producer p = .pushed) :
    Signal (s.swapPending p) := by
  rw [State.swapPending]
  split_ifs with hset
  · exact h.frame rfl rfl (writing_moved (by simp [hpc]) (by decide)) id .rfl
  · -- only a flag that was clear can be set, so no wakeup is on its way
    cases h with
    | none pending eventfd quiet away open_ =>
      refine .producer p rfl eventfd (fun q => ?_) away open_
      rw [moved_producer]
      split_ifs with hq
      · simp [hq]
      · simp [hq, quiet q]
    | producer _ pending => exact absurd pending hset
    | eventfd pending => exact absurd pending hset
    | consumer pending => exact absurd pending hset

theorem Signal.writeEventfd (h : Signal s) (hpc : s.producer p = .writing) :
    Signal (s.writeEventfd p) := by
  rw [State.writeEventfd]
  cases h with
  | none pending eventfd quiet => exact absurd hpc (quiet p)
  | producer writer pending eventfd writing away open_ =>
    obtain rfl : p = writer := (writing p).mp hpc
    refine .eventfd pending (by simp [eventfd]) (fun q => ?_) open_
    rw [moved_producer]
    split_ifs with hq
    · decide
    · exact (writing q).not.mpr hq
  | eventfd pending eventfd quiet => exact absurd hpc (quiet p)
  | consumer pending eventfd quiet => exact absurd hpc (quiet p)

end Signal

section Announced

variable {capacity : ℕ} {s s' : State P T} {p : P}

/-- The consumer has found the channel empty and not looked again. -/
def Settled : Consumer → Prop
  | .filled _ txCount _ => txCount = 0
  | .polling => True
  | _ => False

/-- Whatever has come into the channel since, the flag is or will be set for it. -/
def Announced (s : State P T) : Prop :=
  Settled s.consumer → s.channel ≠ [] → s.pending = true ∨ ∃ p, s.producer p = .pushed

theorem announced_of_unsettled (h : ¬ Settled s.consumer) : Announced s :=
  fun hs => absurd hs h

/-- A batch that stays empty has seen the channel empty. -/
theorem announced_tryRecv (received txCount : ℕ) (transmitted framed : Bool) :
    Announced (s.tryRecv received txCount transmitted framed) := by
  rw [State.tryRecv]
  by_cases hroom : txCount < ioBatchSize
  · rw [if_pos hroom]
    split
    · exact announced_of_unsettled id
    · next hempty => exact fun _ hne => absurd hempty hne
  · rw [if_neg hroom]
    refine announced_of_unsettled fun hs => hroom ?_
    rw [show txCount = 0 from hs]
    decide

theorem Announced.transmitBatch (h : Announced s) {received txCount : ℕ} {transmitted : Bool}
    (hpc : s.consumer = .filled received txCount transmitted) (sent : ℕ) :
    Announced (s.transmitBatch received txCount transmitted sent) := by
  rw [State.transmitBatch]
  split_ifs with hzero
  · exact fun _ => h (by rw [hpc]; exact hzero)
  · exact announced_of_unsettled id
  · exact announced_of_unsettled id

variable [DecidableEq P]

theorem Announced.trySend (h : Announced s) (transmit : T) :
    Announced (s.trySend capacity p transmit) := by
  rw [State.trySend]
  split_ifs
  · exact fun _ _ => .inr ⟨p, by simp [moved_producer]⟩
  · exact h

theorem announced_swapPending : Announced (s.swapPending p) := by
  rw [State.swapPending]
  split_ifs with hset
  · exact fun _ _ => .inl hset
  · exact fun _ _ => .inl rfl

theorem Announced.writeEventfd (h : Announced s) (hpc : s.producer p = .writing) :
    Announced (s.writeEventfd p) := by
  rw [State.writeEventfd]
  intro hs hne
  refine (h hs hne).imp id fun ⟨q, hq⟩ => ⟨q, ?_⟩
  rw [moved_producer, if_neg]
  · exact hq
  · rintro rfl
    simp [hpc] at hq

end Announced

section Run

theorem signal_start : Signal (start : State P T) :=
  .none rfl rfl (by simp [start]) (by simp [start]) (by simp [start])

variable [DecidableEq P] {capacity : ℕ} {s s' : State P T}

theorem wakes_step (h : Signal s) (ha : Announced s) {action : Action P T}
    (hstep : s.step capacity action = some s') : Signal s' ∧ Announced s' := by
  cases action with
  | trySend p transmit =>
    obtain ⟨hpc, rfl⟩ := Option.ite_some_none_eq_some.mp hstep
    exact ⟨h.trySend hpc transmit, ha.trySend transmit⟩
  | swapPending p =>
    obtain ⟨hpc, rfl⟩ := Option.ite_some_none_eq_some.mp hstep
    exact ⟨h.swapPending hpc, announced_swapPending⟩
  | writeEventfd p =>
    obtain ⟨hpc, rfl⟩ := Option.ite_some_none_eq_some.mp hstep
    exact ⟨h.writeEventfd hpc, ha.writeEventfd hpc⟩
  | exit =>
    obtain ⟨hpc, rfl⟩ := Option.ite_some_none_eq_some.mp hstep
    exact ⟨h.elsewhere (by simp [hpc]) (elsewhere_of s (by simp) (by simp)),
      announced_of_unsettled id⟩
  | receiveWith received =>
    obtain ⟨hpc, rfl⟩ := Option.ite_some_none_eq_some.mp hstep
    exact ⟨h.elsewhere (by simp [hpc]) (elsewhere_of s (by simp) (by simp)),
      announced_of_unsettled id⟩
  | tryRecv framed =>
    obtain ⟨received, txCount, transmitted, hpc, rfl⟩ := step_tryRecv hstep
    exact ⟨h.elsewhere (by simp [hpc]) (tryRecv_elsewhere s received txCount transmitted framed),
      announced_tryRecv received txCount transmitted framed⟩
  | disconnected =>
    obtain ⟨hpc, rfl⟩ := step_disconnected hstep
    exact ⟨h.elsewhere hpc (elsewhere_of s (by simp) (by simp)), announced_of_unsettled id⟩
  | transmitBatch sent =>
    obtain ⟨received, txCount, transmitted, hpc, rfl⟩ := step_transmitBatch hstep
    exact ⟨h.elsewhere (by simp [hpc])
      (transmitBatch_elsewhere s received txCount transmitted sent), ha.transmitBatch hpc sent⟩
  | poll result =>
    obtain ⟨hpc, hstep⟩ := Option.ite_none_right_eq_some.mp hstep
    refine ⟨h.poll hpc hstep, announced_of_unsettled ?_⟩
    cases result with
    | wakeup =>
      obtain ⟨-, rfl⟩ := Option.ite_some_none_eq_some.mp hstep
      exact id
    | other =>
      cases hstep
      exact id
    | failed =>
      cases hstep
      exact id
  | drain ok =>
    obtain ⟨hpc, rfl⟩ := Option.ite_some_none_eq_some.mp hstep
    refine ⟨h.drain hpc ok, announced_of_unsettled ?_⟩
    cases ok <;> exact id
  | clearPending =>
    obtain ⟨hpc, rfl⟩ := Option.ite_some_none_eq_some.mp hstep
    exact ⟨h.clearPending hpc, announced_of_unsettled id⟩

theorem Reachable.wakes (h : Reachable capacity s) : Signal s ∧ Announced s := by
  induction h with
  | start => exact ⟨signal_start, announced_of_unsettled id⟩
  | step action _ hstep ih => exact wakes_step ih.1 ih.2 hstep

/-- A consumer that polls while the channel is not empty has its wakeup in the
eventfd already, unless some producer is still on its way through `send_io`. -/
theorem no_lost_wakeup (h : Reachable capacity s) (hpoll : s.consumer = .polling)
    (hqueued : s.channel ≠ []) (hdone : ∀ p, s.producer p = .idle) : 0 < s.eventfd := by
  obtain ⟨hsignal, hannounced⟩ := h.wakes
  rcases hannounced (by rw [hpoll]; trivial) hqueued with hset | ⟨p, hp⟩
  · cases hsignal with
    | none pending => simp [hset] at pending
    | producer p _ _ writing => simpa [hdone] using (writing p).mpr rfl
    | eventfd _ eventfd => omega
    | consumer _ _ _ clearing => simp [hpoll] at clearing
  · simp [hdone] at hp

/-- A frame that comes while the consumer polls. -/
theorem frameWhilePolling_wakes : ∃ s : State (Fin 2) ℕ, Reachable 1 s ∧ s.consumer = .polling ∧
    s.channel = [7] ∧ (∀ p, s.producer p = .idle) ∧ 0 < s.eventfd := by
  have hpolling : Reachable 1 (⟨[], false, 0, fun _ => .idle, .polling⟩ : State (Fin 2) ℕ) :=
    .step (.transmitBatch 0) (.step (.tryRecv true) (.step (.receiveWith 0) .start rfl) rfl) rfl
  have hsent := Reachable.step (.writeEventfd 0)
    (.step (.swapPending 0) (.step (.trySend 0 7) hpolling rfl) rfl) rfl
  exact ⟨_, hsent, rfl, rfl, by decide, no_lost_wakeup hsent rfl (List.cons_ne_nil _ _) (by decide)⟩

end Run

end State

end NewProxy.IoWakeup
