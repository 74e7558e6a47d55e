import NewProxy.NatTable

/-!
# The quarantine of released tuples

A tuple that was given back stays out of use for a time that depends on its
protocol. The table forgets a quarantine only when an allocation finds it over, so
what it remembers is compared with the history of the calls: along calls whose
times never decrease, the two agree on every tuple at every later time.
-/
namespace NewProxy.NatTable

section Ports

variable {table : NatTable} {original : FlowKey} {snat : IpAddr}

/-- The search runs through the ports in ascending order. -/
theorem findPort_least {port : UInt16} {r : FlowKey × ReverseNatKey}
    (h : table.findPort original snat = some (port, r)) :
    table.Usable original snat port ∧ ∀ p, table.Usable original snat p → port ≤ p := by
  obtain ⟨before, p, after, hkeys, hp, hbefore⟩ := List.findSome?_eq_some_iff.mp h
  dsimp only at hp
  split_ifs at hp with hfree
  cases hp
  have hmem : port ∈ table.availablePorts.keys := by rw [hkeys]; simp
  simp only [Bool.and_eq_true, Bool.not_eq_true', HashMap.contains, Option.isSome_eq_false_iff,
    Option.isNone_iff_eq_none] at hfree
  obtain ⟨u, hu⟩ := Option.isSome_iff_exists.mp (OrdMap.mem_keys.mp hmem)
  refine ⟨⟨hu, hfree⟩, fun p hp => ?_⟩
  obtain ⟨havail, hrev, hquar⟩ := hp
  have hpmem : p ∈ before ++ port :: after := by
    rw [← hkeys]
    exact OrdMap.mem_keys.mpr (by simp [havail])
  rcases List.mem_append.mp hpmem with hpmem | hpmem
  · -- ports before the one found were turned down
    have hnone := hbefore p hpmem
    simp [HashMap.contains, hrev, hquar] at hnone
  · rcases List.mem_cons.mp hpmem with rfl | hpmem
    · exact UInt16.le_refl _
    · have hsorted : (before ++ port :: after).Pairwise (· < ·) := by
        rw [← hkeys]
        exact List.pairwise_map.mpr table.availablePorts.sorted
      have hcons := (List.pairwise_append.mp hsorted).2.1
      exact UInt16.le_of_lt ((List.pairwise_cons.mp hcons).1 p hpmem)

end Ports

section History

def Call.time : Call → Instant
  | .allocate _ _ _ now => now
  | .remove _ now => now

/-- Along `calls` the tuple `key` was given back at `time`, by a lease of `protocol`. -/
def Released (start : NatTable) (calls : List Call) (key : ReverseNatKey)
    (protocol : TransportProtocol) (time : Instant) : Prop :=
  ∃ earlier sessionId later binding, calls = earlier ++ .remove sessionId time :: later ∧
    ((removeAt sessionId time).run (observe start earlier).table).1 = .ok binding ∧
    .fromTranslatedFlow binding.translated = key ∧ binding.translated.protocol = protocol

/-- A release of `key` is more recent than the quarantine of its protocol. -/
def UnderQuarantine (start : NatTable) (calls : List Call) (key : ReverseNatKey)
    (now : Instant) : Prop :=
  ∃ protocol time, Released start calls key protocol time ∧ now < time + reuseQuarantine protocol

variable {start : NatTable} {calls : List Call} {key : ReverseNatKey} {now : Instant}

theorem observe_concat (start : NatTable) (calls : List Call) (call : Call) :
    observe start (calls ++ [call]) = (observe start calls).step call := by
  simp [observe]

theorem released_concat {call : Call} {protocol : TransportProtocol} {time : Instant} :
    Released start (calls ++ [call]) key protocol time ↔ Released start calls key protocol time ∨
      ∃ sessionId binding, call = .remove sessionId time ∧
        ((removeAt sessionId time).run (observe start calls).table).1 = .ok binding ∧
        .fromTranslatedFlow binding.translated = key ∧ binding.translated.protocol = protocol := by
  constructor
  · rintro ⟨earlier, sessionId, later, binding, hcalls, hrun, hkey⟩
    rcases List.eq_nil_or_concat later with rfl | ⟨later, last, rfl⟩
    · obtain ⟨rfl, hcall⟩ := List.append_inj' hcalls rfl
      exact .inr ⟨sessionId, binding, List.singleton_inj.mp hcall, hrun, hkey⟩
    · rw [List.concat_eq_append, ← List.cons_append, ← List.append_assoc] at hcalls
      obtain ⟨rfl, -⟩ := List.append_inj' hcalls rfl
      exact .inl ⟨earlier, sessionId, later, binding, rfl, hrun, hkey⟩
  · rintro (⟨earlier, sessionId, later, binding, rfl, hrun, hkey⟩ |
      ⟨sessionId, binding, rfl, hrun, hkey⟩)
    · exact ⟨earlier, sessionId, later ++ [call], binding, by simp, hrun, hkey⟩
    · exact ⟨calls, sessionId, [], binding, rfl, hrun, hkey⟩

/-- What the table remembers of the quarantines is what the history says, for every
time that is not before the calls. -/
def Remembers (start : NatTable) (calls : List Call) (table : NatTable) : Prop :=
  ∀ now, (∀ call ∈ calls, call.time ≤ now) → ∀ key,
    (∃ expiresAt, table.quarantined.get key = some expiresAt ∧ now < expiresAt) ↔
      UnderQuarantine start calls key now

/-- Pruning forgets nothing that a later time could still ask for. -/
theorem get_pruned {table : NatTable} {now later : Instant} (h : now ≤ later)
    (key : ReverseNatKey) :
    (∃ expiresAt, (table.pruned now).quarantined.get key = some expiresAt ∧ later < expiresAt) ↔
      ∃ expiresAt, table.quarantined.get key = some expiresAt ∧ later < expiresAt := by
  simp only [pruned, HashMap.get_retain, decide_eq_true_eq]
  refine exists_congr fun expiresAt => ?_
  constructor
  · rintro ⟨⟨hget, -⟩, hlt⟩
    exact ⟨hget, hlt⟩
  · rintro ⟨hget, hlt⟩
    exact ⟨⟨hget, lt_of_le_of_lt h hlt⟩, hlt⟩

/-- An allocation leaves the quarantines as they are, or pruned. -/
theorem allocateAt_quarantined (table : NatTable) (sessionId : SessionId) (original : FlowKey)
    (locator : SessionLocator) (now : Instant) :
    ((allocateAt sessionId original locator now).run table).2.quarantined = table.quarantined ∨
      ((allocateAt sessionId original locator now).run table).2.quarantined =
        (table.pruned now).quarantined := by
  by_cases h : table.forward.get sessionId ≠ none ∨ table.snatIp original.source = none
  · obtain ⟨e, hrun⟩ := allocateAt_refused h locator now
    exact .inl (by rw [hrun])
  · obtain ⟨hid, hne⟩ := not_or.mp h
    obtain ⟨snat, hsnat⟩ := Option.ne_none_iff_exists'.mp hne
    rcases allocateAt_run (not_not.mp hid) hsnat locator now with ⟨-, hrun⟩ | ⟨port, -, hrun⟩
    · exact .inr (by rw [hrun])
    · exact .inr (by rw [hrun]; rfl)

theorem observed_step_table (s : Observed) (call : Call) :
    (s.step call).table = (call.act.run s.table).2 := by
  rw [Observed.step]
  rcases call.act.run s.table with ⟨_ | binding, table⟩ <;> rfl

/-- The protocol of a lease is part of its key. -/
theorem protocol_eq_of_key {f g : FlowKey}
    (h : ReverseNatKey.fromTranslatedFlow f = .fromTranslatedFlow g) : f.protocol = g.protocol := by
  obtain ⟨_, _, _, _, p⟩ := f
  obtain ⟨_, _, _, _, p'⟩ := g
  cases p <;> cases p' <;> simp_all [ReverseNatKey.fromTranslatedFlow, FlowKey.reverse]

theorem Remembers.step (h : Remembers start calls (observe start calls).table) {call : Call}
    (hlate : ∀ c ∈ calls, c.time ≤ call.time) :
    Remembers start (calls ++ [call]) (observe start (calls ++ [call])).table := by
  intro now hnow key
  have hcall : call.time ≤ now := hnow call (by simp)
  have hbefore : ∀ c ∈ calls, c.time ≤ now := fun c hc => (hlate c hc).trans hcall
  rw [observe_concat, observed_step_table]
  cases call with
  | allocate sessionId original locator time =>
    have hsame : UnderQuarantine start (calls ++ [.allocate sessionId original locator time])
        key now ↔ UnderQuarantine start calls key now := by
      simp [UnderQuarantine, released_concat]
    rw [hsame, ← h now hbefore key]
    rcases allocateAt_quarantined (observe start calls).table sessionId original locator time with
      heq | heq
    · simp only [Call.act, heq]
    · simp only [Call.act, heq]
      exact get_pruned hcall key
  | remove sessionId time =>
    rcases removeAt_cases (observe start calls).table sessionId time with
      ⟨-, hrun⟩ | ⟨binding, -, hrun⟩
    · have hsame : UnderQuarantine start (calls ++ [.remove sessionId time]) key now ↔
          UnderQuarantine start calls key now := by
        simp only [UnderQuarantine, released_concat, Call.remove.injEq]
        refine exists_congr fun protocol => exists_congr fun t => and_congr_left fun _ =>
          or_iff_left ?_
        rintro ⟨_, binding, ⟨rfl, rfl⟩, hok, -⟩
        rw [hrun] at hok
        cases hok
      rw [hsame, ← h now hbefore key]
      simp only [Call.act, hrun]
    · simp only [Call.act, hrun, withoutLease, HashMap.get_insert]
      -- the new release is the latest of its tuple, so its quarantine is the longest
      have hnew : UnderQuarantine start (calls ++ [.remove sessionId time]) key now ↔
          UnderQuarantine start calls key now ∨ key = .fromTranslatedFlow binding.translated ∧
            now < time + reuseQuarantine binding.translated.protocol := by
        simp only [UnderQuarantine, released_concat, or_and_right, exists_or, Call.remove.injEq]
        refine or_congr_right ⟨?_, ?_⟩
        · rintro ⟨_, _, ⟨_, b, ⟨rfl, rfl⟩, hok, rfl, rfl⟩, hlt⟩
          rw [hrun] at hok
          cases hok
          exact ⟨rfl, hlt⟩
        · rintro ⟨rfl, hlt⟩
          exact ⟨_, _, ⟨_, binding, ⟨rfl, rfl⟩, by rw [hrun], rfl, rfl⟩, hlt⟩
      rw [hnew]
      by_cases hkey : key = .fromTranslatedFlow binding.translated
      · rw [if_pos hkey]
        simp only [Option.some_inj, exists_eq_left', hkey, true_and]
        refine ⟨.inr, fun hor => hor.elim ?_ id⟩
        rintro ⟨_, t, ⟨earlier, id', later, b, rfl, hrun', hk, rfl⟩, hlt⟩
        have hle : t ≤ time := hlate _ (List.mem_append_right _ List.mem_cons_self)
        rw [← protocol_eq_of_key hk]
        exact hlt.trans_le (Nat.add_le_add_right hle _)
      · rw [if_neg hkey, h now hbefore key]
        simp [hkey]

theorem remembers_observe {snatIpv4 : Option (Vector UInt8 4)} {snatIpv6 : Option (Vector UInt8 16)}
    {first last : UInt16} (hnew : newDual snatIpv4 snatIpv6 first last = .ok start)
    (hmono : calls.Pairwise fun a b => a.time ≤ b.time) :
    Remembers start calls (observe start calls).table := by
  induction calls using List.reverseRecOn with
  | nil =>
    obtain ⟨-, hnew⟩ := Outcome.bind_unit_eq_ok.mp hnew
    rw [Outcome.pure_eq_ok] at hnew
    subst hnew
    intro now _ key
    simp [observe, UnderQuarantine, Released]
  | append_singleton calls call ih =>
    obtain ⟨hmono, -, hlast⟩ := List.pairwise_append.mp hmono
    exact (ih hmono).step fun c hc => hlast c hc call (by simp)

theorem snatIp_observe (start : NatTable) (calls : List Call) (source : IpAddr) :
    (observe start calls).table.snatIp source = start.snatIp source := by
  induction calls using List.reverseRecOn with
  | nil => rfl
  | append_singleton calls call ih =>
    rw [← ih, observe_concat, observed_step_table]
    cases call with
    | allocate sessionId original locator now =>
      rcases allocateAt_cases (observe start calls).table sessionId original locator now with
        ⟨e, quarantined, hrun⟩ | ⟨snat, port, quarantined, -, -, -, -, hrun⟩ <;>
        rw [Call.act, hrun] <;> rfl
    | remove sessionId now =>
      rcases removeAt_cases (observe start calls).table sessionId now with
        ⟨-, hrun⟩ | ⟨binding, -, hrun⟩
      · rw [Call.act, hrun]
      · rw [Call.act, hrun]
        rfl

/-- A port of the range that no lease has. -/
def FreePort (table : NatTable) (first last port : UInt16) : Prop :=
  (first ≤ port ∧ port ≤ last) ∧
    ∀ id binding, table.get id = some binding → binding.translated.sourcePort ≠ port

/-- Which ports the search may take, in terms of the leases and of the history. -/
theorem usable_pruned {first last : UInt16} {ledger : Ledger} {table : NatTable}
    (h : Represents first last ledger table) (hr : Remembers start calls table)
    (hnow : ∀ call ∈ calls, call.time ≤ now) (original : FlowKey) (snat : IpAddr) (port : UInt16) :
    (table.pruned now).Usable original snat port ↔ table.FreePort first last port ∧
      ¬ UnderQuarantine start calls (.fromTranslatedFlow (translate original snat port)) now := by
  have hquar :
      (table.pruned now).quarantined.get (.fromTranslatedFlow (translate original snat port))
      = none ↔
      ¬ UnderQuarantine start calls (.fromTranslatedFlow (translate original snat port)) now := by
    rw [← hr now hnow, Option.eq_none_iff_forall_ne_some]
    simp [pruned, HashMap.get_retain]
  have havail : table.availablePorts.get port = some () ↔ table.FreePort first last port := by
    rw [h.available, ← h.port_held, FreePort]
    simp
  -- the key of a live lease names its port, which then is not free
  have hrev : table.FreePort first last port →
      table.reverse.get (.fromTranslatedFlow (translate original snat port)) = none := by
    intro hfree
    cases hget : table.reverse.get (.fromTranslatedFlow (translate original snat port)) with
    | none => rfl
    | some locator =>
      obtain ⟨id, lease, hl, hkey, -⟩ := (h.reverse _ _).mp hget
      refine absurd (ReverseNatKey.sourcePort_eq_of_key hkey) (hfree.2 id lease.binding ?_)
      exact h.get_eq_some.mpr ⟨lease.locator, hl⟩
  rw [Usable, hquar]
  constructor
  · rintro ⟨hport, -, hq⟩
    exact ⟨havail.mp hport, hq⟩
  · rintro ⟨hfree, hq⟩
    exact ⟨havail.mpr hfree, hrev hfree, hq⟩

/-- Along calls whose times never decrease, no allocation returns a tuple under
quarantine. A session without a lease, of a family with an address, is given the
least free port whose tuple is not under quarantine, and is refused as exhausted
exactly when there is none. -/
theorem observe_quarantine {snatIpv4 : Option (Vector UInt8 4)}
    {snatIpv6 : Option (Vector UInt8 16)} {first last : UInt16} {table : NatTable}
    (hnew : newDual snatIpv4 snatIpv6 first last = .ok table) (calls : List Call)
    (hmono : calls.Pairwise fun a b => a.time ≤ b.time) (now : Instant)
    (hnow : ∀ call ∈ calls, call.time ≤ now) (sessionId : SessionId) (original : FlowKey)
    (locator : SessionLocator) :
    let s := observe table calls
    let result := ((allocateAt sessionId original locator now).run s.table).1
    (∀ binding, result = .ok binding →
      ¬ UnderQuarantine table calls (.fromTranslatedFlow binding.translated) now) ∧
    ∀ snat, s.table.get sessionId = none → table.snatIp original.source = some snat →
      let usable := fun port => s.table.FreePort first last port ∧
        ¬ UnderQuarantine table calls (.fromTranslatedFlow (translate original snat port)) now
      ((∃ binding, result = .ok binding) ↔ ∃ port, usable port) ∧
      (∀ binding, result = .ok binding → ∃ port, usable port ∧ (∀ p, usable p → port ≤ p) ∧
        binding = ⟨original, translate original snat port⟩) ∧
      ((∀ port, ¬ usable port) → result = Outcome.fail .portRangeExhausted) := by
  intro s result
  have hrep : Represents first last s.ledger s.table :=
    represents_observe (represents_newDual hnew) calls
  have huse := usable_pruned hrep (remembers_observe hnew hmono) hnow original
  have hfound : ∀ snat, s.table.get sessionId = none → s.table.snatIp original.source = some snat →
      ((∀ port, ¬ (s.table.pruned now).Usable original snat port) ∧
        result = Outcome.fail .portRangeExhausted) ∨
      ∃ port, (s.table.pruned now).Usable original snat port ∧
        (∀ p, (s.table.pruned now).Usable original snat p → port ≤ p) ∧
        result = .ok ⟨original, translate original snat port⟩ := by
    intro snat hid hsnat
    rcases allocateAt_run hid hsnat locator now with ⟨hfind, hrun⟩ | ⟨port, hfind, hrun⟩
    · exact .inl ⟨findPort_none.mp hfind, congrArg Prod.fst hrun⟩
    · obtain ⟨hport, hleast⟩ := findPort_least hfind
      exact .inr ⟨port, hport, hleast, congrArg Prod.fst hrun⟩
  refine ⟨fun binding hok => ?_, fun snat hid hsnat => ?_⟩
  · by_cases h : s.table.forward.get sessionId ≠ none ∨ s.table.snatIp original.source = none
    · obtain ⟨e, hrun⟩ := allocateAt_refused h locator now
      simp only [result, hrun] at hok
      cases hok
    · obtain ⟨hid, hne⟩ := not_or.mp h
      obtain ⟨snat, hsnat⟩ := Option.ne_none_iff_exists'.mp hne
      rcases hfound snat (not_not.mp hid) hsnat with ⟨-, hfail⟩ | ⟨port, hport, -, hres⟩
      · rw [hfail] at hok
        cases hok
      · rw [hres] at hok
        cases hok
        exact ((huse snat port).mp hport).2
  · intro usable
    have hiff : ∀ port, (s.table.pruned now).Usable original snat port ↔ usable port := huse snat
    have hsearch := hfound snat hid (by rw [snatIp_observe]; exact hsnat)
    simp only [hiff] at hsearch
    rcases hsearch with
      ⟨hnone, hfail⟩ | ⟨port, hport, hleast, hres⟩
    · rw [hfail]
      refine ⟨iff_of_false ?_ fun ⟨port, hp⟩ => hnone port hp, ?_, fun _ => rfl⟩
      · rintro ⟨binding, hb⟩
        cases hb
      · intro binding hb
        cases hb
    · rw [hres]
      refine ⟨iff_of_true ⟨_, rfl⟩ ⟨port, hport⟩, fun binding hb => ?_, fun h =>
        absurd hport (h port)⟩
      cases hb
      exact ⟨port, hport, hleast, rfl⟩

/-- Five seconds after its release the tuple of port 1000 is still passed over. -/
theorem observe_quarantine_passed_over : ∃ table,
    newDual (some #v[192, 0, 2, 1]) none 1000 1001 = .ok table ∧
    let flow : FlowKey := ⟨.v4 #v[10, 0, 0, 2], .v4 #v[203, 0, 113, 10], 7, 443, .tcp⟩
    let calls : List Call := [.allocate ⟨1⟩ flow ⟨0, ⟨1⟩⟩ 0, .remove ⟨1⟩ (Duration.fromSecs 5)]
    ∃ binding, ((allocateAt ⟨2⟩ flow ⟨0, ⟨2⟩⟩ (Duration.fromSecs 10)).run
        (observe table calls).table).1 = .ok binding ∧ binding.translated.sourcePort = 1001 ∧
      ¬ UnderQuarantine table calls (.fromTranslatedFlow binding.translated)
        (Duration.fromSecs 10) := by
  have hnew : newDual (some #v[192, 0, 2, 1]) none 1000 1001 = .ok _ := rfl
  refine ⟨_, hnew, ?_⟩
  intro flow calls
  refine ⟨_, Outcome.eq_ok_get (by decide +kernel), by decide +kernel, ?_⟩
  exact (observe_quarantine hnew calls (by decide +kernel) (Duration.fromSecs 10)
    (by decide +kernel) ⟨2⟩ flow ⟨0, ⟨2⟩⟩).1 _ (Outcome.eq_ok_get _)

end History

end NewProxy.NatTable
