import NewProxy.DirectoryRuns

/-!
# The directory and all the workers of a process

Every worker keeps its own entries in step with its bindings, and its steps leave the
entries of the others alone; so the directory matches the bindings of all of them
after any steps in any order.
-/
namespace NewProxy

open Outcome
open ReverseNatDirectory (Entries Apart)
open ApplianceConfig (dnsAccepted natAddresses)
open FlowWorkerState (Booked Fits)

namespace FlowWorkerState

/-- A new worker holds nothing. -/
theorem booked_newDual {workerId : ℕ} {snatIpv4 : Option (Vector UInt8 4)}
    {snatIpv6 : Option (Vector UInt8 16)} {first last : UInt16} {state : FlowWorkerState}
    (h : newDual workerId snatIpv4 snatIpv6 first last = .ok state) (listen : SocketAddr)
    (capacity : ℕ) :
    Booked ⟨first, last, listen, capacity, snatIpv4, snatIpv6⟩ (fun _ => none) (fun _ => none) 1
      state := by
  obtain ⟨sessions, hsessions, h⟩ := bind_eq_ok.mp h
  cases h
  obtain ⟨hco, ho⟩ := SessionTable.coherent_newDual hsessions
  obtain ⟨nat, hnat, hsessions⟩ := bind_eq_ok.mp hsessions
  cases hsessions
  obtain ⟨-, -, hnat⟩ := bind_eq_ok.mp (mapErr_eq_ok.mp hnat)
  cases hnat
  exact ⟨⟨ho, hco, by simp, by simp, by simp, by simp⟩, ⟨DeadlineIndex.indexes_empty,
    Nat.zero_le _, rfl, by simp⟩, ⟨fun _ => rfl, rfl, rfl⟩, by simp, by simp⟩

end FlowWorkerState

/-- The ports of two workers do not overlap. -/
theorem workerPortRange_disjoint {ε : Type} {first last : UInt16} {n : ℕ} (h : first ≤ last)
    (hn : n ≤ portCount first last) {w w' : ℕ} (hw : w < n) (hw' : w' < n)
    {lo hi lo' hi' port : UInt16}
    (hrange : (workerPortRange first last w n : Outcome ε _) = .ok (some (lo, hi)))
    (hrange' : (workerPortRange first last w' n : Outcome ε _) = .ok (some (lo', hi')))
    (hport : lo ≤ port ∧ port ≤ hi) (hport' : lo' ≤ port ∧ port ≤ hi') : w = w' := by
  obtain ⟨_, _, heq, hlo, hhi⟩ := workerPortRange_ok (ε := ε) h hn hw
  obtain ⟨_, _, heq', hlo', hhi'⟩ := workerPortRange_ok (ε := ε) h hn hw'
  cases hrange.symm.trans heq
  cases hrange'.symm.trans heq'
  simp only [UInt16.le_iff_toNat_le] at hport hport'
  have hshare : PortPartition.offset (portCount first last) n w ≤ port.toNat - first.toNat ∧
      port.toNat - first.toNat < PortPartition.offset (portCount first last) n (w + 1) := by omega
  exact PortPartition.share_unique hshare (by omega)

/-! ## A process with one worker -/

section Alone

variable {E : Type} {config : ApplianceConfig} {placement : Placement} {engine : E}

/-- The process whose only worker has the engine. -/
def alone (h : (startThread config placement engine 0 0).toOption.isSome) :
    System E config.flowWorkerCount :=
  ⟨fun _ => (startThread config placement engine 0 0).toOption.get h, .empty, .empty⟩

theorem startThread_alone (hone : config.flowWorkerCount = 1)
    (h : (startThread config placement engine 0 0).toOption.isSome)
    (w : Fin config.flowWorkerCount) :
    startThread config placement engine 0 w = .ok ((alone h).threads w) := by
  have hw : w.val = 0 := by omega
  rw [hw]
  exact eq_ok_get h

theorem alone_started (hone : config.flowWorkerCount = 1)
    (h : (startThread config placement engine 0 0).toOption.isSome) :
    (alone h).Started config placement :=
  ⟨fun w => ⟨engine, 0, startThread_alone hone h w⟩, rfl, rfl⟩

end Alone

/-- An engine that reports the events it is handed. -/
structure ScriptedEngine where
  authenticated : Bool

instance : Engine ScriptedEngine (Option QuicEngineEvent) where
  isAuthenticated engine := engine.authenticated
  handleOuter _ _ _ _ _ engine := engine
  sendInner _ _ _ engine := (.ok (), engine)
  poll event _ engine := (event, engine)
  close _ _ engine := engine
  reconnectClient _ engine := (.ok (), engine)
  resolveCandidateReplacement _ _ _ engine := engine

namespace Scenario

/-- One port, and `a.` resolved by the remote resolver. -/
def config : ApplianceConfig where
  role := .client
  tunnelInterface := ⟨"eth0"⟩
  interceptInterfaces := [⟨⟨"eth1"⟩⟩]
  endpoint := some ⟨.v4 (dotted 203 0 113 9), 443⟩
  listen := none
  flowWorkerCount := 1
  nat := ⟨some (dotted 192 0 2 1), none, 40000, 40000⟩
  ipPolicy := .tunnelPrefixes [.startingWith 8]
  dns := some ⟨⟨.v4 (dotted 10 0 0 53), 53⟩, ⟨.v4 (dotted 10 0 0 54), 53⟩,
    ⟨.v4 (dotted 9 9 9 9), 53⟩, [[97]], 8, 5⟩
  configSourcePath := none

def placement : Placement := ⟨1, 4, ⟨3, 0⟩, 443⟩

def first : Fin config.flowWorkerCount := ⟨0, by decide⟩

theorem startThread_isSome :
    (startThread config placement (⟨true⟩ : ScriptedEngine) 0 0).toOption.isSome := by
  decide +kernel

def process : System ScriptedEngine config.flowWorkerCount := alone startThread_isSome

theorem process_started : process.Started config placement := alone_started rfl _

/-- Everything happens at one time; the transport reports `event`. -/
def readings (event : Option QuicEngineEvent) : Readings (Option QuicEngineEvent) :=
  ⟨fun _ => 7, fun _ => 7, fun _ _ => 7, fun _ => event, false⟩

/-- The query of a client for `a.`. -/
def query : Flow.Step (Option QuicEngineEvent) :=
  .message (.interceptIngress ⟨3, 0⟩ [69, 0, 0, 47, 0, 1, 0, 0, 9, 17, 229, 222, 192, 168, 1, 2, 10,
    0, 0, 53, 19, 136, 0, 53, 0, 27, 0, 0, 18, 52, 1, 0, 0, 1, 0, 0, 0, 0, 0, 0, 1, 97, 0, 0, 1, 0,
    1] none) (readings none)

/-- A datagram of a client to `8.8.8.8`. -/
def datagram : Flow.Step (Option QuicEngineEvent) :=
  .message (.interceptIngress ⟨3, 0⟩ [69, 0, 0, 28, 0, 1, 0, 0, 9, 17, 224, 22, 192, 168, 1, 2, 8,
    8, 8, 8, 19, 136, 0, 53, 0, 8, 0, 0] none) (readings none)

/-- The transport goes away. -/
def closed : Flow.Step (Option QuicEngineEvent) := .poll (readings (some .closed))

end Scenario

namespace System

variable {E I : Type} [Engine E I] {config : ApplianceConfig}
  {strict : Fin config.flowWorkerCount → Prop} {system : System E config.flowWorkerCount}

/-- Directory and workers agree; every entry names a worker. The entries of DNS tokens are
followed for the workers of `strict`. -/
structure Kept (config : ApplianceConfig) (strict : Fin config.flowWorkerCount → Prop)
    (system : System E config.flowWorkerCount) : Prop where
  workers : ∀ w : Fin config.flowWorkerCount, ∃ site : Site,
    (workerPortRange config.nat.portStart config.nat.portEnd w config.flowWorkerCount :
      Outcome StartError _) = .ok (some (site.first, site.last)) ∧
    site.addresses = (config.nat.addressV4, config.nat.addressV6) ∧
    (system.flow w).Following ⟨site, w, strict w, system.reverseNat⟩
  named : ∀ key locator, system.reverseNat.entries.get key = some locator →
    locator.flowWorkerId < config.flowWorkerCount

theorem dnsAccepted_of_accepted (h : config.accepted) {dns : DnsConfig}
    (hdns : config.dns = some dns) : dnsAccepted config.nat dns := by
  simp only [ApplianceConfig.accepted, Bool.and_eq_true] at h
  have hall := h.1.2
  rwa [hdns] at hall

/-- The listener and the resolvers of an accepted configuration are of one family. -/
theorem fits_of_accepted (h : config.accepted) {dns : DnsFlowConfig}
    (hdns : dnsFlowConfig config = some dns) {site : Site} (hlisten : site.listen = dns.listen)
    (hcapacity : site.capacity = dns.transactionCapacity) : Fits site dns := by
  obtain ⟨d, hd, rfl⟩ := Option.map_eq_some_iff.mp hdns
  have hall := dnsAccepted_of_accepted h hd
  simp only [dnsAccepted, Bool.and_eq_true, decide_eq_true_eq] at hall
  obtain ⟨⟨⟨⟨⟨⟨⟨⟨-, hlocal⟩, hremote⟩, -⟩, -⟩, -⟩, -⟩, -⟩, -⟩ := hall
  exact ⟨hlisten.symm, hcapacity.symm, by rw [hlisten]; exact hlocal.symm,
    by rw [hlisten]; exact hremote.symm⟩

/-- The listener is no SNAT address. -/
theorem listen_not_mem (h : config.accepted) {listen : SocketAddr}
    (hlisten : (dnsFlowConfig config).map DnsFlowConfig.listen = some listen) :
    listen.ip ∉ natAddresses config.nat := by
  rw [dnsFlowConfig, Option.map_map, Option.map_eq_some_iff] at hlisten
  obtain ⟨d, hd, rfl⟩ := hlisten
  have hall := dnsAccepted_of_accepted h hd
  simp only [dnsAccepted, Bool.and_eq_true] at hall
  simpa using hall.1.1.1.1.2

theorem kept_of_started {placement : Placement} (ha : config.accepted)
    (h : system.Started config placement) : system.Kept config strict := by
  have hempty : ∀ key, system.reverseNat.entries.get key = none := fun key => by
    rw [h.reverseNat]
    rfl
  refine ⟨fun w => ?_, fun key locator hkey => ?_⟩
  · obtain ⟨engine, epoch, hstart⟩ := h.threads w
    obtain ⟨ports, hports, hstart⟩ := bind_eq_ok.mp hstart
    obtain ⟨⟨first, last⟩, hrange, hstart⟩ := bind_eq_ok.mp hstart
    obtain ⟨state, hstate, hstart⟩ := bind_eq_ok.mp hstart
    obtain ⟨quicFlow, -, hstart⟩ := bind_eq_ok.mp hstart
    have hthread := Except.ok.inj hstart
    have hentries : ∀ A strict, Entries A w strict system.reverseNat (fun _ => none)
        (fun _ => none) system.reverseNat := by
      intro A strict
      refine ⟨by simp [ReverseNatDirectory.Lists], fun key id _ hkey => ?_,
        fun _ key id _ hkey => ?_, by simp, .refl _ _, fun key id hkey => ?_⟩ <;>
        cases (hempty key).symm.trans hkey
    let listen := ((dnsFlowConfig config).map DnsFlowConfig.listen).getD ⟨.v4 #v[0, 0, 0, 0], 0⟩
    let capacity := ((dnsFlowConfig config).map DnsFlowConfig.transactionCapacity).getD 0
    refine ⟨⟨first, last, listen, capacity, config.nat.addressV4, config.nat.addressV6⟩, ?_, rfl,
      fun _ => none, fun _ => none, 1, ?_, ?_, hentries _ _, ?_⟩
    · rw [hports, okOr_eq_ok.mp hrange]
    · rw [flow, ← hthread]
    · intro dns hdns
      rw [flow, ← hthread] at hdns
      have hdns : dnsFlowConfig config = some dns := hdns
      exact fits_of_accepted ha hdns
        (by simp only [listen, hdns, Option.map_some, Option.getD_some])
        (by simp only [capacity, hdns, Option.map_some, Option.getD_some])
    · rw [flow, ← hthread]
      exact FlowWorkerState.booked_newDual (mapErr_eq_ok.mp hstate) listen capacity
  · cases (hempty key).symm.trans hkey

/-- Fewer than `2 ^ 63` sessions have been opened, and a transport that goes away finds no
remote query waiting. -/
def Calm (system : System E config.flowWorkerCount) (w : Fin config.flowWorkerCount)
    (step : Flow.Step I) : Prop :=
  (system.threads w).context.state.sessions.nextSessionId.toNat < 2 ^ 63 ∧
    step.Quiet (system.flow w)

theorem Kept.step (h : system.Kept config strict) (w : Fin config.flowWorkerCount)
    (step : Flow.Step I) (hcalm : strict w → system.Calm w step) :
    (system.step w step).Kept config strict := by
  obtain ⟨site, hrange, hnat, sessions, transactions, next, ht⟩ := h.workers w
  obtain ⟨_, flow', hrun, sessions', transactions', next', ht'⟩ :=
    (Flow.step_spec step).returns (fun _ h => h) ⟨ht, fun hs =>
      ⟨by rw [← ht.state.holding.next]; exact (hcalm hs).1, (hcalm hs).2⟩⟩
  have hstep : system.step w step = ⟨Function.update system.threads w flow'.toThread,
      flow'.activeDcids, flow'.reverseNat⟩ := by
    rw [System.step, hrun]
  rw [hstep]
  refine ⟨fun w' => ?_, fun key locator hkey => ?_⟩
  · by_cases hw : w' = w
    · subst hw
      refine ⟨site, hrange, hnat, sessions', transactions', next', ?_⟩
      simp only [flow, Function.update_self]
      exact ⟨ht'.workerId, ht'.config, ⟨ht'.entries.listed, ht'.entries.live, ht'.entries.active,
        ht'.entries.plain, .refl _ _, ht'.entries.within⟩, ht'.state⟩
    · obtain ⟨site, hrange, hnat, sessions, transactions, next, ho⟩ := h.workers w'
      refine ⟨site, hrange, hnat, sessions, transactions, next, ?_⟩
      simp only [flow, Function.update_of_ne hw]
      exact ⟨ho.workerId, ho.config, ho.entries.frame (fun hc => hw (Fin.ext hc)) ht'.entries.apart,
        ho.state⟩
  · by_cases hw : locator.flowWorkerId = w
    · rw [hw]
      exact w.isLt
    · exact h.named key locator ((ht'.entries.apart key locator hw).mp hkey)

/-- `P` holds of every step before it is taken. -/
def Meets {n : ℕ} (P : System E n → Fin n → Flow.Step I → Prop) :
    System E n → List (Fin n × Flow.Step I) → Prop
  | _, [] => True
  | system, s :: rest => P system s.1 s.2 ∧ Meets P (system.step s.1 s.2) rest

theorem Kept.after (h : system.Kept config strict)
    (steps : List (Fin config.flowWorkerCount × Flow.Step I))
    (hcalm : system.Meets (fun system w step => strict w → system.Calm w step) steps) :
    (system.after steps).Kept config strict := by
  induction steps generalizing system with
  | nil => exact h
  | cons s rest ih => exact ih (h.step s.1 s.2 hcalm.1) hcalm.2

theorem meets_of_forall {n : ℕ} {P : System E n → Fin n → Flow.Step I → Prop}
    (h : ∀ system w step, P system w step) (system : System E n)
    (steps : List (Fin n × Flow.Step I)) : system.Meets P steps := by
  induction steps generalizing system with
  | nil => trivial
  | cons s rest ih => exact ⟨h system s.1 s.2, ih _⟩

theorem kept_after {placement : Placement} (ha : config.accepted)
    (h : system.Started config placement)
    (steps : List (Fin config.flowWorkerCount × Flow.Step I)) :
    (system.after steps).Kept config fun _ => False :=
  (kept_of_started ha h).after steps (meets_of_forall (fun _ _ _ hs => hs.elim) _ _)

/-- Every entry is for answers to an address the process translates to. -/
theorem Kept.addressed (h : system.Kept config strict) {key : ReverseNatKey}
    {locator : SessionLocator} (hkey : system.reverseNat.entries.get key = some locator) :
    key.flow.destination ∈ natAddresses config.nat := by
  obtain ⟨site, -, hnat, _, _, _, ht⟩ := h.workers ⟨_, h.named key locator hkey⟩
  obtain ⟨flow, rfl, -, haddress⟩ := ht.entries.within key locator.sessionId hkey
  rw [ReverseNatKey.destination_fromTranslatedFlow]
  simpa [hnat, natAddresses] using haddress

/-- Every live session is published under its worker and its identifier, and every entry
for the identifier of a session is that of a live session. -/
theorem directory_matches_sessions {placement : Placement} (ha : config.accepted)
    (hstart : system.Started config placement)
    (steps : List (Fin config.flowWorkerCount × Flow.Step I)) (w : Fin config.flowWorkerCount) :
    let reached := system.after steps
    (∀ id session, (reached.threads w).context.state.session id = some session →
      reached.reverseNat.entries.get (.fromTranslatedFlow session.nat.translated) = some ⟨w, id⟩) ∧
    ∀ key id, reached.reverseNat.entries.get key = some ⟨w, id⟩ → ¬ id.IsDnsToken →
      ∃ session, (reached.threads w).context.state.session id = some session ∧
        key = .fromTranslatedFlow session.nat.translated := by
  obtain ⟨site, -, -, sessions, transactions, next, ht⟩ := (kept_after ha hstart steps).workers w
  have hbindings := ht.state.holding.bindings
  refine ⟨fun id session hs => ht.entries.listed id session.nat ?_, fun key id hkey hid => ?_⟩
  · rw [← hbindings]
    exact congrArg (Option.map Session.nat) hs
  · obtain ⟨binding, hb, hk⟩ := ht.entries.live key id hid hkey
    rw [← hbindings, Option.map_eq_some_iff] at hb
    obtain ⟨session, hs, rfl⟩ := hb
    exact ⟨session, hs, hk⟩

/-- A datagram is forwarded and its session published. -/
theorem directory_matches_sessions_datagram :
    let reached := Scenario.process.after [(Scenario.first, Scenario.datagram)]
    ∃ session, (reached.threads Scenario.first).context.state.session ⟨1⟩ = some session ∧
      reached.reverseNat.entries.get (.fromTranslatedFlow session.nat.translated) =
        some ⟨0, ⟨1⟩⟩ := by
  intro reached
  have hsome : ((reached.threads Scenario.first).context.state.session ⟨1⟩).isSome := by
    decide +kernel
  obtain ⟨session, hs⟩ := Option.isSome_iff_exists.mp hsome
  exact ⟨session, hs, (directory_matches_sessions (by decide +kernel) Scenario.process_started _
    Scenario.first).1 _ _ hs⟩

/-- Where the entries of DNS tokens are followed, every entry is that of a lease. -/
theorem entry_leased {c : Scope} {sessions transactions : SessionId → Option NatBinding}
    {next : UInt64} {flow : Flow E} (h : flow.Tracked c sessions transactions next) (hs : c.strict)
    {key : ReverseNatKey} {id : SessionId}
    (hkey : flow.reverseNat.entries.get key = some ⟨c.w, id⟩) :
    ∃ lease, flow.context.state.sessions.ledger transactions id = some lease ∧ key = lease.key := by
  have hco := h.state.leased.sessions.toLinked
  by_cases hid : id.IsDnsToken
  · obtain ⟨binding, hb, hk⟩ := h.entries.active hs key id hid hkey
    exact ⟨_, (hco.ledger_ephemeral hb).2, hk⟩
  · obtain ⟨binding, hb, hk⟩ := h.entries.live key id hid hkey
    rw [← h.state.holding.bindings, Option.map_eq_some_iff] at hb
    obtain ⟨session, hsession, rfl⟩ := hb
    exact ⟨_, hco.ledger_session hsession, hk⟩

/-- A binding fresh from the table of a worker has no entry yet: its port is no other
worker's, and no lease of its own worker has its key. -/
theorem Kept.allocated_free (h : system.Kept config strict) (ha : config.accepted)
    {w : Fin config.flowWorkerCount} (hs : strict w) {id : SessionId} {original : FlowKey}
    {locator : SessionLocator} {natNow : Instant} {binding : NatBinding} {table : NatTable}
    (hrun : (NatTable.allocateAt id original locator natNow).run
      (system.threads w).context.state.sessions.nat = (.ok binding, table)) :
    system.reverseNat.entries.get binding.returnKey = none := by
  obtain ⟨site, hrange, -, sessions, transactions, next, ht⟩ := h.workers w
  have hnat := ht.state.leased.sessions.nat
  rcases NatTable.allocateAt_cases (system.threads w).context.state.sessions.nat id original locator
    natNow with ⟨e, quarantined, hfail⟩ | ⟨snat, port, quarantined, -, -, hport, hfree, hok⟩
  · cases hrun.symm.trans hfail
  cases hrun.symm.trans hok
  have hin := ((hnat.available port).mp hport).1
  refine Option.eq_none_iff_forall_ne_some.mpr fun held hheld => ?_
  obtain ⟨site', hrange', -, _, _, _, ht'⟩ := h.workers ⟨_, h.named _ held hheld⟩
  obtain ⟨flow, hflow, hin', -⟩ := ht'.entries.within _ held.sessionId hheld
  rw [← ReverseNatKey.sourcePort_eq_of_key hflow] at hin'
  simp only [ApplianceConfig.accepted, Bool.and_eq_true, decide_eq_true_eq] at ha
  have hw : w = held.flowWorkerId := workerPortRange_disjoint ha.1.1.1.1.2 (by
    have hcount := ha.1.1.1.2
    have hle := UInt16.le_iff_toNat_le.mp ha.1.1.1.1.2
    rw [portCount]
    omega) w.isLt (h.named _ held hheld) hrange hrange' hin hin'
  obtain ⟨lease, hlease, hkey⟩ := entry_leased ht hs (hheld.trans (congrArg some
    (congrArg (SessionLocator.mk · held.sessionId) hw.symm)))
  have hreverse := (hnat.reverse lease.key lease.locator).mpr ⟨_, lease, hlease, rfl, rfl⟩
  rw [← hkey] at hreverse
  cases hfree.symm.trans hreverse

/-- While no remote query of a worker is waiting when its transport goes away, every entry of
the worker for a DNS token is that of an active transaction, and no new binding of the worker
finds its key taken, whatever happens to the others. -/
theorem directory_matches_transactions {placement : Placement} (ha : config.accepted)
    (hstart : system.Started config placement)
    (steps : List (Fin config.flowWorkerCount × Flow.Step I)) (w : Fin config.flowWorkerCount)
    (hcalm : system.Meets (fun system v step => v = w → system.Calm v step) steps) :
    let reached := system.after steps
    let state := (reached.threads w).context.state
    (∀ key id, reached.reverseNat.entries.get key = some ⟨w, id⟩ → id.IsDnsToken →
      ∃ k transaction, state.dnsByKey.get k = some transaction ∧ transaction.token = id ∧
        key = .fromTranslatedFlow transaction.binding.translated) ∧
    ∀ id original natNow binding table,
      (NatTable.allocateAt id original ⟨w, id⟩ natNow).run state.sessions.nat =
        (.ok binding, table) →
      ∃ directory, (ReverseNatDirectory.publish binding ⟨w, id⟩).run reached.reverseNat =
        (.ok (), directory) := by
  have hkept : system.Kept config (· = w) := kept_of_started ha hstart
  have hreached := hkept.after steps hcalm
  refine ⟨fun key id hkey hid => ?_, fun id original natNow binding table hrun => ?_⟩
  · obtain ⟨site, -, -, sessions, transactions, next, ht⟩ := hreached.workers w
    obtain ⟨binding, hb, hk⟩ := ht.entries.active rfl key id hid hkey
    obtain ⟨k, transaction, hheld, rfl, rfl⟩ := (ht.state.leased.ephemeral id binding).mp hb
    exact ⟨k, transaction, hheld, rfl, hk⟩
  · rcases ReverseNatDirectory.publish_cases binding ⟨w, id⟩ (system.after steps).reverseNat with
      ⟨directory, hok, -⟩ | ⟨e, other, -, hother, -⟩
    · exact ⟨directory, hok⟩
    · cases (hreached.allocated_free ha rfl hrun).symm.trans hother

/-- The entry of a waiting query belongs to its transaction. -/
theorem directory_matches_transactions_query :
    let reached := Scenario.process.after [(Scenario.first, Scenario.query)]
    ∃ key id k transaction, reached.reverseNat.entries.get key = some ⟨0, id⟩ ∧ id.IsDnsToken ∧
      (reached.threads Scenario.first).context.state.dnsByKey.get k = some transaction ∧
      transaction.token = id ∧ key = .fromTranslatedFlow transaction.binding.translated := by
  intro reached
  have hhead : reached.reverseNat.entries.toList.head? = some (⟨⟨.v4 #v[9, 9, 9, 9],
      .v4 #v[192, 0, 2, 1], 53, 40000, .udp⟩⟩, ⟨0, ⟨9223372036854775809⟩⟩) := by decide +kernel
  have hkey := HashMap.mem_toList.mp (List.mem_of_head? hhead)
  have hcalm : Scenario.process.Meets (fun system v step => v = Scenario.first → system.Calm v step)
      [(Scenario.first, Scenario.query)] := ⟨fun _ => ⟨by decide +kernel, trivial⟩, trivial⟩
  obtain ⟨k, transaction, hheld⟩ := (directory_matches_transactions (by decide +kernel)
    Scenario.process_started _ Scenario.first hcalm).1 _ _ hkey (by decide)
  exact ⟨_, _, k, transaction, hkey, by decide, hheld⟩

/-- A transport that goes away under a waiting remote query leaves the entry of the query
behind, and the next binding on the tuple cannot be published. -/
theorem closed_leaves_entry : ∃ (config : ApplianceConfig) (placement : Placement)
    (system : System ScriptedEngine config.flowWorkerCount)
    (steps : List (Fin config.flowWorkerCount × Flow.Step (Option QuicEngineEvent)))
    (w : Fin config.flowWorkerCount), config.accepted ∧ config.role = .client ∧
    system.Started config placement ∧
    let reached := system.after steps
    let state := (reached.threads w).context.state
    (∃ key id, reached.reverseNat.entries.get key = some ⟨w, id⟩ ∧ id.IsDnsToken ∧
      ∀ k, state.dnsByKey.get k = none) ∧
    ∃ id original natNow binding table e,
      (NatTable.allocateAt id original ⟨w, id⟩ natNow).run state.sessions.nat =
        (.ok binding, table) ∧
      (ReverseNatDirectory.publish binding ⟨w, id⟩).run reached.reverseNat =
        (fail e, reached.reverseNat) := by
  refine ⟨Scenario.config, Scenario.placement, Scenario.process,
    [(Scenario.first, Scenario.query), (Scenario.first, Scenario.closed)],
    Scenario.first, by decide +kernel, rfl, Scenario.process_started, ?_⟩
  intro reached state
  have hkey : reached.reverseNat.entries.get ⟨⟨.v4 #v[9, 9, 9, 9], .v4 #v[192, 0, 2, 1], 53, 40000,
      .udp⟩⟩ = some ⟨Scenario.first, ⟨9223372036854775809⟩⟩ := by decide +kernel
  have hnone : state.dnsByKey.toList.isEmpty := by decide +kernel
  refine ⟨⟨_, _, hkey, by decide, fun k => ?_⟩, ?_⟩
  · refine Option.eq_none_iff_forall_ne_some.mpr fun transaction hk => ?_
    have hmem := HashMap.mem_toList.mpr hk
    rw [List.isEmpty_iff.mp hnone] at hmem
    cases hmem
  · -- the quarantine is over
    let binding : NatBinding := ⟨⟨.v4 #v[192, 168, 1, 2], .v4 #v[9, 9, 9, 9], 5000, 53, .udp⟩,
      ⟨.v4 #v[192, 0, 2, 1], .v4 #v[9, 9, 9, 9], 40000, 53, .udp⟩⟩
    let token : SessionId := ⟨9223372036854775810⟩
    have hrun : (NatTable.allocateAt token binding.original ⟨Scenario.first, token⟩
        (Duration.fromSecs 100)).run state.sessions.nat = (.ok binding, _) :=
      Prod.ext (by decide +kernel) rfl
    rcases ReverseNatDirectory.publish_cases binding ⟨Scenario.first, token⟩ reached.reverseNat with
      ⟨_, -, hp⟩ | ⟨e, _, hfail, -, -⟩
    · exact absurd (hp.free _ hkey) (by decide)
    · exact ⟨_, _, _, _, _, e, hrun, hfail⟩

end System

end NewProxy
