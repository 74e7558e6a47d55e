import NewProxy.DnsResponses
import NewProxy.Mirror

/-!
# The memory of completed DNS tuples

A response completes its transaction and its tuple is remembered under the next number.
The tuples and their numbers are two maps, and the loop that makes room only ends
because they mirror each other.
-/
namespace NewProxy

namespace FlowWorkerState

variable {first last : UInt16} {start state : FlowWorkerState} {k : ℕ}

section Eviction

variable {completed : HashMap FlowKey UInt64} {order : OrdMap UInt64 FlowKey}

/-- The body of the loop in `remember_completed_dns_reverse`. -/
def evictRound (maps : HashMap FlowKey UInt64 × OrdMap UInt64 FlowKey) :
    HashMap FlowKey UInt64 × OrdMap UInt64 FlowKey :=
  match maps.2.popFirst with
  | some ((sequence, expired), order) =>
    (if maps.1.get expired = some sequence then maps.1.remove expired else maps.1, order)
  | none => maps

/-- The loop itself, cut off after some rounds. -/
def evictLoop : ℕ → HashMap FlowKey UInt64 × OrdMap UInt64 FlowKey →
    Option (HashMap FlowKey UInt64 × OrdMap UInt64 FlowKey)
  | 0, maps => if dnsCompletedReverseCapacity < maps.1.len then none else some maps
  | rounds + 1, maps =>
    if dnsCompletedReverseCapacity < maps.1.len then evictLoop rounds (evictRound maps)
    else some maps

/-- The two maps when the loop is entered. -/
def entered (flow : FlowKey) (state : FlowWorkerState) :
    HashMap FlowKey UInt64 × OrdMap UInt64 FlowKey :=
  (state.dnsCompletedReverse.insert flow state.nextDnsCompletedSequence,
    (match state.dnsCompletedReverse.get flow with
      | some previous => state.dnsCompletedOrder.remove previous
      | none => state.dnsCompletedOrder).insert state.nextDnsCompletedSequence flow)

theorem trimCompleted_of_le (h : completed.len ≤ dnsCompletedReverseCapacity)
    (entries : List (UInt64 × FlowKey)) :
    trimCompleted entries completed order = (completed, order) := by
  cases entries with
  | nil => rfl
  | cons e rest => exact if_neg (not_lt.mpr h)

theorem exists_popFirst (h : Mirrored completed order) (hlen : 0 < completed.len) :
    ∃ sequence flow rest, order.popFirst = some ((sequence, flow), rest) := by
  obtain ⟨_ | ⟨e, l⟩, hsorted⟩ := order
  · rw [← h.length_values] at hlen
    exact absurd hlen (lt_irrefl 0)
  · exact ⟨e.1, e.2, _, rfl⟩

/-- The oldest tuples are gone, as many as there were too many. -/
structure Evicted (completed : HashMap FlowKey UInt64) (order : OrdMap UInt64 FlowKey)
    (maps : HashMap FlowKey UInt64 × OrdMap UInt64 FlowKey) : Prop where
  mirrored : Mirrored maps.1 maps.2
  kept : ∀ sequence flow, maps.2.get sequence = some flow → order.get sequence = some flow
  values : maps.2.values = order.values.drop (completed.len - dnsCompletedReverseCapacity)

theorem Evicted.of_le (h : Mirrored completed order)
    (hlen : completed.len ≤ dnsCompletedReverseCapacity) :
    Evicted completed order (completed, order) := by
  refine ⟨h, fun _ _ hget => hget, ?_⟩
  rw [Nat.sub_eq_zero_of_le hlen]
  rfl

/-- On mirrored maps the loop ends. -/
theorem evictLoop_mirrored (rounds : ℕ) (h : Mirrored completed order)
    (hlen : completed.len ≤ dnsCompletedReverseCapacity + rounds) :
    evictLoop rounds (completed, order) = some (trimCompleted order.entries completed order) ∧
      Evicted completed order (trimCompleted order.entries completed order) := by
  induction rounds generalizing completed order with
  | zero =>
    rw [Nat.add_zero] at hlen
    rw [trimCompleted_of_le hlen]
    exact ⟨if_neg (not_lt.mpr hlen), .of_le h hlen⟩
  | succ rounds ih =>
    rcases le_or_gt completed.len dnsCompletedReverseCapacity with hle | hgt
    · rw [trimCompleted_of_le hle]
      exact ⟨if_neg (not_lt.mpr hle), .of_le h hle⟩
    -- the first of the order is the entry of its own tuple, so a tuple goes with it
    obtain ⟨sequence, flow, rest, hpop⟩ := exists_popFirst h (by omega)
    obtain ⟨hentries, hget, rfl⟩ := OrdMap.popFirst_eq_some hpop
    have hflow := (h flow sequence).mpr hget
    have hround : evictRound (completed, order) =
        (completed.remove flow, order.remove sequence) := by
      simp only [evictRound, hpop, if_pos hflow]
    have htrim : trimCompleted order.entries completed order = trimCompleted
        (order.remove sequence).entries (completed.remove flow) (order.remove sequence) := by
      rw [hentries, trimCompleted, if_pos hgt, if_pos hflow]
    have hshrunk := HashMap.len_remove hflow
    obtain ⟨hloop, hmirrored, hkept, hvalues⟩ := ih (h.remove hflow) (by omega)
    rw [htrim]
    refine ⟨?_, hmirrored, fun sequence' flow' hs => ?_, ?_⟩
    · rw [evictLoop, if_pos hgt, hround, hloop]
    · have hleft := hkept sequence' flow' hs
      rw [OrdMap.get_remove] at hleft
      split_ifs at hleft
      exact hleft
    · have hfirst : order.values = flow :: (order.remove sequence).values := by
        simp only [OrdMap.values, hentries, List.map_cons]
      obtain ⟨n, hn⟩ := Nat.exists_eq_add_of_lt hgt
      rw [hvalues, hfirst, show completed.len - dnsCompletedReverseCapacity = n + 1 by omega,
        show (completed.remove flow).len - dnsCompletedReverseCapacity = n by omega,
        List.drop_succ_cons]

end Eviction

/-- The number of responses that completed a transaction. -/
def completions : FlowWorkerState → List (DnsFlowConfig × Op) → ℕ
  | _, [] => 0
  | state, (config, op) :: rest =>
    (if state.completes op then 1 else 0) + completions ((op.call config).run state).2 rest

/-- The memory after `k` completions. -/
structure Recalls (k : ℕ) (state : FlowWorkerState) : Prop where
  mirrored : Mirrored state.dnsCompletedReverse state.dnsCompletedOrder
  len : state.dnsCompletedReverse.len ≤ dnsCompletedReverseCapacity
  numbers : ∀ sequence flow, state.dnsCompletedOrder.get sequence = some flow → sequence.toNat ≤ k
  next : k + 1 < 2 ^ 64 → state.nextDnsCompletedSequence.toNat = k + 1
  active : ∀ key transaction, state.dnsByKey.get key = some transaction →
    state.dnsCompletedReverse.get transaction.binding.translated.reverse = none

/-- What one call does to the remembered tuples, oldest first. -/
inductive MemoryStep (start state : FlowWorkerState) : Bool → Prop
  | kept (h : state.dnsCompletedOrder.values = start.dnsCompletedOrder.values) :
      MemoryStep start state false
  | forgotten {key : DnsFlowTransactionKey} {transaction : DnsFlowTransaction}
      (hfree : start.dnsByKey.get key = none) (hk : state.dnsByKey.get key = some transaction)
      (h : state.dnsCompletedOrder.values =
        start.dnsCompletedOrder.values.erase transaction.binding.translated.reverse) :
      MemoryStep start state false
  | drained (hkey : state.dnsByKey = .empty) (h : state.dnsCompletedOrder.values = []) :
      MemoryStep start state false
  | completed {key : DnsFlowTransactionKey} {transaction : DnsFlowTransaction} {rounds : ℕ}
      (hk : start.dnsByKey.get key = some transaction) (hgone : state.dnsByKey.get key = none)
      (hloop : evictLoop rounds (start.entered transaction.binding.translated.reverse) =
        some (state.dnsCompletedReverse, state.dnsCompletedOrder))
      (h : state.dnsCompletedOrder.values =
        (start.dnsCompletedOrder.values ++ [transaction.binding.translated.reverse]).drop
          (start.dnsCompletedOrder.values.length + 1 - dnsCompletedReverseCapacity)) :
      MemoryStep start state true

theorem Recalls.below_next (h : Recalls k state) (hk : k + 1 < 2 ^ 64) {sequence : UInt64}
    {flow : FlowKey} (hget : state.dnsCompletedOrder.get sequence = some flow) :
    sequence < state.nextDnsCompletedSequence := by
  have hsequence := h.numbers sequence flow hget
  have hnext := h.next hk
  exact UInt64.lt_iff_toNat_lt.mpr (by omega)

/-- The maps with a tuple that was not remembered. -/
theorem Recalls.entered (h : Recalls k state) (hk : k + 1 < 2 ^ 64) {flow : FlowKey}
    (hflow : state.dnsCompletedReverse.get flow = none) :
    Mirrored (state.entered flow).1 (state.entered flow).2 ∧
      (state.entered flow).1.len = state.dnsCompletedOrder.values.length + 1 ∧
      (state.entered flow).2.values = state.dnsCompletedOrder.values ++ [flow] := by
  have hfree : state.dnsCompletedOrder.get state.nextDnsCompletedSequence = none := by
    refine Option.eq_none_iff_forall_ne_some.mpr fun flow hget => ?_
    exact absurd (h.below_next hk hget) (UInt64.lt_irrefl _)
  simp only [FlowWorkerState.entered, hflow]
  refine ⟨h.mirrored.insert hflow hfree, ?_, OrdMap.values_insert_last fun _ _ => h.below_next hk⟩
  rw [HashMap.len_insert hflow, h.mirrored.length_values]

theorem Recalls.remember (h : Recalls k state) (hk : k + 1 < 2 ^ 64) {flow : FlowKey}
    (hflow : state.dnsCompletedReverse.get flow = none) :
    let next := rememberCompletedDnsReverse flow state
    evictLoop 1 (state.entered flow) = some (next.dnsCompletedReverse, next.dnsCompletedOrder) ∧
      Evicted (state.entered flow).1 (state.entered flow).2
        (next.dnsCompletedReverse, next.dnsCompletedOrder) := by
  obtain ⟨hmirrored, hlen, -⟩ := h.entered hk hflow
  have hroom := h.len
  rw [← h.mirrored.length_values] at hroom
  exact evictLoop_mirrored 1 hmirrored (hlen.le.trans (Nat.add_le_add_right hroom 1))

theorem Recalls.congr (h : Recalls k start) (hmemory : state.memory = start.memory)
    (hactive : ∀ key transaction, state.dnsByKey.get key = some transaction →
      start.dnsCompletedReverse.get transaction.binding.translated.reverse = none) :
    Recalls k state := by
  obtain ⟨hcompleted, horder, hsequence⟩ := memory_eq_iff.mp hmemory
  refine ⟨?_, ?_, ?_, ?_, ?_⟩
  · rw [hcompleted, horder]
    exact h.mirrored
  · rw [hcompleted]
    exact h.len
  · rw [horder]
    exact h.numbers
  · rw [hsequence]
    exact h.next
  · rw [hcompleted]
    exact hactive

/-- Without a tuple the memory is one of fewer tuples. -/
theorem Recalls.forget (h : Recalls k state) (flow : FlowKey) :
    Recalls k (forgetCompletedDnsReverse flow state) ∧
      (forgetCompletedDnsReverse flow state).dnsCompletedReverse.get flow = none ∧
      (forgetCompletedDnsReverse flow state).dnsCompletedOrder.values =
        state.dnsCompletedOrder.values.erase flow := by
  cases hget : state.dnsCompletedReverse.get flow with
  | none =>
    have hflow : flow ∉ state.dnsCompletedOrder.values := by
      rw [h.mirrored.mem_values, hget]
      exact fun ⟨_, hs⟩ => nomatch hs
    have hsame : forgetCompletedDnsReverse flow state = state := by
      simp only [forgetCompletedDnsReverse, hget]
    rw [hsame]
    exact ⟨h, hget, (List.erase_of_not_mem hflow).symm⟩
  | some sequence =>
    have hlen := HashMap.len_remove hget
    simp only [forgetCompletedDnsReverse, hget]
    refine ⟨⟨h.mirrored.remove hget, ?_, ?_, h.next, ?_⟩, ?_, h.mirrored.values_remove hget⟩
    · exact (Nat.le_of_succ_le hlen.le).trans h.len
    · intro sequence' flow' hs
      rw [OrdMap.get_remove] at hs
      split_ifs at hs
      exact h.numbers sequence' flow' hs
    · intro key transaction hk
      rw [HashMap.get_remove, h.active key transaction hk, ite_self]
    · rw [HashMap.get_remove, if_pos rfl]

/-- A completion: the tuple of the transaction that is gone is remembered. -/
theorem Recalls.complete {key : DnsFlowTransactionKey} {transaction : DnsFlowTransaction}
    (h : Recalls k start) (hnumber : k + 1 < 2 ^ 64)
    (hunique : ∀ key' transaction', start.dnsByKey.get key' = some transaction' →
      transaction'.binding.translated.reverse = transaction.binding.translated.reverse → key' = key)
    (hk : start.dnsByKey.get key = some transaction)
    (hleft : state.dnsByKey = start.dnsByKey.remove key)
    (hmemory : state.memory =
      (rememberCompletedDnsReverse transaction.binding.translated.reverse start).memory) :
    Recalls (k + 1) state ∧ MemoryStep start state true := by
  obtain ⟨hcompleted, horder, hsequence⟩ := memory_eq_iff.mp hmemory
  have hnew := h.active key transaction hk
  obtain ⟨-, hlen, hentered⟩ := h.entered hnumber hnew
  obtain ⟨hloop, hevicted⟩ := h.remember hnumber hnew
  rw [← hcompleted, ← horder] at hloop hevicted
  have hvalues := hevicted.values
  rw [hlen, hentered] at hvalues
  have hkept : ∀ sequence flow, state.dnsCompletedOrder.get sequence = some flow →
      (sequence = start.nextDnsCompletedSequence ∧
        flow = transaction.binding.translated.reverse) ∨
      start.dnsCompletedOrder.get sequence = some flow := by
    intro sequence flow hs
    have hin := hevicted.kept sequence flow hs
    simp only [FlowWorkerState.entered, hnew, OrdMap.get_insert] at hin
    split_ifs at hin with hnext
    · exact .inl ⟨hnext, (Option.some.inj hin).symm⟩
    · exact .inr hin
  refine ⟨⟨hevicted.mirrored, ?_, ?_, ?_, ?_⟩, .completed hk ?_ hloop hvalues⟩
  · rw [← hevicted.mirrored.length_values, hvalues, List.length_drop, List.length_append,
      List.length_singleton]
    omega
  · intro sequence flow hs
    rcases hkept sequence flow hs with ⟨rfl, -⟩ | hold
    · exact (h.next hnumber).le
    · exact (h.numbers sequence flow hold).trans (Nat.le_succ k)
  · intro hnext
    have hcounter := h.next hnumber
    rw [hsequence]
    exact (nextCounter_toNat (by omega)).trans (by omega)
  · intro key' transaction' hk'
    rw [hleft, HashMap.get_remove] at hk'
    split_ifs at hk' with hne
    refine Option.eq_none_iff_forall_ne_some.mpr fun sequence hs => ?_
    rcases hkept sequence _ ((hevicted.mirrored _ _).mp hs) with ⟨-, heq⟩ | hold
    · exact hne (hunique key' transaction' hk' heq)
    · have hnone := h.active key' transaction' hk'
      rw [(h.mirrored _ _).mpr hold] at hnone
      cases hnone
  · rw [hleft, HashMap.get_remove, if_pos rfl]

/-- What one call keeps and what it does. -/
theorem Recalls.step {completed : Bool} (h : Recalls k start)
    (hchange : DnsChange start state completed)
    (hunique : ∀ key transaction key' transaction', start.dnsByKey.get key = some transaction →
      start.dnsByKey.get key' = some transaction' →
      transaction'.binding.translated.reverse = transaction.binding.translated.reverse → key' = key)
    (hnumber : k + (if completed then 1 else 0) < 2 ^ 64) :
    Recalls (k + if completed then 1 else 0) state ∧ MemoryStep start state completed := by
  cases hchange with
  | dropped hd =>
    refine ⟨h.congr hd.memory fun key transaction hk => ?_, .kept ?_⟩
    · exact h.active key transaction (hd.held key transaction hk)
    · rw [(memory_eq_iff.mp hd.memory).2.1]
  | @opened _ _ key transaction _ ha =>
    obtain ⟨hforget, hnone, hvalues⟩ := h.forget transaction.binding.translated.reverse
    have hget : state.dnsByKey.get key = some transaction := by
      rw [ha.dnsByKey, HashMap.get_insert, if_pos rfl]
    refine ⟨hforget.congr ha.memory fun key' transaction' hk' => ?_, .forgotten ha.free hget ?_⟩
    · rw [ha.dnsByKey, HashMap.get_insert] at hk'
      split_ifs at hk' with heq
      · cases hk'
        exact hnone
      · have hsame : (forgetCompletedDnsReverse transaction.binding.translated.reverse
            start).dnsByKey = start.dnsByKey := by
          rw [forgetCompletedDnsReverse]
          split <;> rfl
        exact hforget.active key' transaction' (hsame ▸ hk')
    · rw [(memory_eq_iff.mp ha.memory).2.1, hvalues]
  | completed hk hleft hmemory =>
    exact h.complete hnumber (fun key' transaction' hk' => hunique _ _ _ _ hk hk') hk hleft hmemory
  | drained hkey hcompleted horder hsequence =>
    refine ⟨⟨?_, ?_, ?_, ?_, ?_⟩, .drained hkey (by rw [horder]; rfl)⟩
    · rw [hcompleted, horder]
      intro flow sequence
      constructor <;>
      · intro hget
        cases hget
    · rw [hcompleted]
      exact Nat.zero_le _
    · rw [horder]
      intro sequence flow hget
      cases hget
    · rw [hsequence]
      exact h.next
    · rw [hkey]
      intro key transaction hget
      cases hget

theorem Leased.reverse_unique {ephemeral : SessionId → Option NatBinding}
    {key key' : DnsFlowTransactionKey} {transaction transaction' : DnsFlowTransaction}
    (h : Leased first last ephemeral state) (hk : state.dnsByKey.get key = some transaction)
    (hk' : state.dnsByKey.get key' = some transaction')
    (heq : transaction'.binding.translated.reverse = transaction.binding.translated.reverse) :
    key' = key := by
  have hkey := (h.reverse transaction.binding.translated.reverse key).mpr ⟨transaction, hk, rfl⟩
  have hkey' := (h.reverse transaction.binding.translated.reverse key').mpr ⟨transaction', hk', heq⟩
  exact Option.some.inj (hkey'.symm.trans hkey)

/-- Along a run the memory is kept, and every call does one of the steps. -/
theorem Recalls.after {listen : SocketAddr} {capacity : ℕ}
    (hsound : Sound first last False listen capacity start) (h : Recalls k start)
    (ops : List (DnsFlowConfig × Op)) (hnumber : k + completions start ops < 2 ^ 64) :
    Recalls (k + completions start ops) (start.after ops) ∧
      ∀ before op rest, ops = before ++ op :: rest →
        MemoryStep (start.after before) (start.after (before ++ [op]))
          ((start.after before).completes op.2) := by
  induction ops generalizing start k with
  | nil =>
    refine ⟨h, fun before op rest heq => ?_⟩
    cases before <;> cases heq
  | cons op rest ih =>
    obtain ⟨ephemeral, hl⟩ := hsound.leased
    rw [completions, ← Nat.add_assoc] at hnumber ⊢
    obtain ⟨hnext, hstep⟩ := h.step (call_changes hsound op.1 op.2)
      (fun _ _ _ _ => hl.reverse_unique) (by omega)
    obtain ⟨hend, hsteps⟩ :=
      ih ((call_sound op.1 (fun hs => hs.elim) op.2).state hsound) hnext hnumber
    refine ⟨hend, fun before op' rest' heq => ?_⟩
    cases before with
    | nil =>
      cases heq
      exact hstep
    | cons first before =>
      cases heq
      exact hsteps before op' rest' rfl

theorem recalls_newDual {workerId : ℕ} {snatIpv4 : Option (Vector UInt8 4)}
    {snatIpv6 : Option (Vector UInt8 16)}
    (h : newDual workerId snatIpv4 snatIpv6 first last = .ok state) : Recalls 0 state := by
  obtain ⟨sessions, -, h⟩ := Outcome.bind_eq_ok.mp h
  cases h
  exact ⟨fun _ _ => ⟨fun h => (nomatch h), fun h => (nomatch h)⟩, Nat.zero_le _,
    fun _ _ h => (nomatch h), fun _ => rfl, fun _ _ h => (nomatch h)⟩

/-- Over a run with fewer than `2 ^ 64` completed responses the tuples and their numbers
mirror each other, at most 65536 are remembered and none is that of an active transaction.
A completion ends its loop, and only the oldest tuples go. -/
theorem completed_memory {workerId : ℕ} {snatIpv4 : Option (Vector UInt8 4)}
    {snatIpv6 : Option (Vector UInt8 16)}
    (hstart : newDual workerId snatIpv4 snatIpv6 first last = .ok start)
    (ops : List (DnsFlowConfig × Op)) (hnumber : completions start ops < 2 ^ 64) :
    let state := start.after ops
    (∀ flow sequence, state.dnsCompletedReverse.get flow = some sequence ↔
      state.dnsCompletedOrder.get sequence = some flow) ∧
    state.dnsCompletedReverse.len ≤ 65536 ∧ state.dnsCompletedOrder.entries.length ≤ 65536 ∧
    (∀ key transaction, state.dnsByKey.get key = some transaction →
      state.dnsCompletedReverse.get transaction.binding.translated.reverse = none) ∧
    ∀ before op rest, ops = before ++ op :: rest →
      MemoryStep (start.after before) (start.after (before ++ [op]))
        ((start.after before).completes op.2) := by
  have hsound : Sound first last False ⟨.v4 (Vector.replicate 4 0), 0⟩ 0 start :=
    sound_newDual hstart
  obtain ⟨h, hsteps⟩ := (recalls_newDual hstart).after hsound ops (by rwa [Nat.zero_add])
  have hlen := h.mirrored.length_values
  rw [OrdMap.values, List.length_map] at hlen
  exact ⟨h.mirrored, h.len, hlen.le.trans h.len, h.active, hsteps⟩

/-- A query for `a.` and the resolver's answer. -/
def answeredRun : List (DnsFlowConfig × Op) :=
  let config : DnsFlowConfig := ⟨⟨.v4 (dotted 192 0 2 1), 53⟩, ⟨.v4 (dotted 192 0 2 53), 53⟩,
    ⟨.v4 (dotted 9 9 9 9), 53⟩, ⟨.empty⟩, 8, 5, true⟩
  [(config, .handleDnsQueryAt ⟨0, 0⟩ plainQuery 0 0), (config, .handleDnsResponse emptyAnswer 1)]

theorem completed_memory_answered : ∃ start,
    newDual 0 (some #v[192, 0, 2, 2]) none 40000 40000 = .ok start ∧
    completions start answeredRun = 1 ∧
    (start.after answeredRun).dnsCompletedOrder.values =
      [⟨.v4 #v[192, 0, 2, 53], .v4 #v[192, 0, 2, 2], 53, 40000, .udp⟩] ∧
    ∀ flow sequence,
      (start.after answeredRun).dnsCompletedReverse.get flow = some sequence ↔
        (start.after answeredRun).dnsCompletedOrder.get sequence = some flow := by
  let start := (newDual 0 (some #v[192, 0, 2, 2]) none 40000 40000).toOption.get rfl
  have hstart : newDual 0 (some #v[192, 0, 2, 2]) none 40000 40000 = .ok start := rfl
  have hone : completions start answeredRun = 1 := by decide +kernel
  refine ⟨start, hstart, hone, by decide +kernel, ?_⟩
  exact (completed_memory hstart answeredRun (by rw [hone]; decide)).1

end FlowWorkerState

end NewProxy
