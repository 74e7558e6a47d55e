import NewProxy.DnsPacket

/-!
# Where the records of a DNS message lie

The places of names and records depend on the bytes a walk passes over, not on what
compression pointers lead to. So the clamp, which writes while it walks, finds the
records of the message it was given: it lowers the CLASS of every oversized OPT record
of the additional section and writes nothing else.
-/
namespace NewProxy

namespace Dns

open Outcome Bytes

variable {p q : Bytes} {o o' i stop stop' n n' : ℕ} {target target' : Option ℕ}

/-- A name at `o` takes the bytes up to `stop` and goes on at `target`, if anywhere. -/
inductive NameEnds (p : Bytes) : ℕ → ℕ → Option ℕ → Prop
  | root {o : ℕ} : o < p.length → p.byteAt o = 0 → NameEnds p o (o + 1) none
  | pointer {o : ℕ} : o + 1 < p.length → p.byteAt o &&& 0xc0 = 0xc0 →
    NameEnds p o (o + 2) (some (pointerTarget (p.byteAt o) (p.byteAt (o + 1))))
  | label {o stop : ℕ} {target : Option ℕ} : o < p.length → p.byteAt o &&& 0xc0 = 0 →
    p.byteAt o ≠ 0 → NameEnds p (o + 1 + (p.byteAt o).toNat) stop target → NameEnds p o stop target

/-- `n` questions take the bytes from `o` to `stop`. -/
inductive Questions (p : Bytes) : ℕ → ℕ → ℕ → Prop
  | nil (o : ℕ) : Questions p 0 o o
  | cons {n o fixed stop : ℕ} {target : Option ℕ} : NameEnds p o fixed target →
    Questions p n (fixed + 4) stop → Questions p (n + 1) o stop

/-- Where the record with the fixed part at `fixed` ends. -/
def recordEnd (p : Bytes) (fixed : ℕ) : ℕ := fixed + 10 + (p.wordAt (fixed + 8)).toNat

/-- `n` records take the bytes from `o` to `stop`. -/
inductive Records (p : Bytes) : ℕ → ℕ → ℕ → Prop
  | nil (o : ℕ) : Records p 0 o o
  | cons {n o fixed stop : ℕ} {target : Option ℕ} : NameEnds p o fixed target →
    Records p n (recordEnd p fixed) stop → Records p (n + 1) o stop

section Places

theorem NameEnds.lt (h : NameEnds p o stop target) : o < stop := by
  induction h with
  | root => omega
  | pointer => omega
  | label _ _ _ _ ih => omega

theorem and_c0_cases {b : UInt8} (h : b &&& 0xc0 = 0xc0) : b &&& 0xc0 ≠ 0 ∧ b ≠ 0 := by
  refine ⟨by rw [h]; decide, ?_⟩
  rintro rfl
  exact absurd h (by decide)

theorem NameEnds.unique (h : NameEnds p o stop target) (h' : NameEnds p o stop' target') :
    stop' = stop ∧ target' = target := by
  induction h with
  | root _ hzero =>
    cases h' with
    | root => exact ⟨rfl, rfl⟩
    | pointer _ hptr => exact absurd hzero (and_c0_cases hptr).2
    | label _ _ hne => exact absurd hzero hne
  | pointer _ hptr =>
    cases h' with
    | root _ hzero => exact absurd hzero (and_c0_cases hptr).2
    | pointer => exact ⟨rfl, rfl⟩
    | label _ hplain => exact absurd hplain (and_c0_cases hptr).1
  | label _ hplain hne _ ih =>
    cases h' with
    | root _ hzero => exact absurd hzero hne
    | pointer _ hptr => exact absurd hplain (and_c0_cases hptr).1
    | label _ _ _ h' => exact ih h'

/-- The bytes of the name itself decide where it ends. -/
theorem NameEnds.congr (h : NameEnds p o stop target) (hlen : q.length = p.length)
    (hq : ∀ i, o ≤ i → i < stop → q.byteAt i = p.byteAt i) : NameEnds q o stop target := by
  induction h with
  | root hlt hzero => exact .root (hlen ▸ hlt) ((hq _ le_rfl (by omega)).trans hzero)
  | @pointer o hlt hptr =>
    rw [← hq o le_rfl (by omega), ← hq (o + 1) (by omega) (by omega)]
    exact .pointer (hlen ▸ hlt) (by rwa [hq o le_rfl (by omega)])
  | @label o _ _ hlt hplain hne hrest ih =>
    have hbyte := hq o le_rfl (by have := hrest.lt; omega)
    refine .label (hlen ▸ hlt) (by rwa [hbyte]) (by rwa [hbyte]) ?_
    rw [hbyte]
    exact ih fun i hi => hq i (by omega)

theorem Questions.unique (h : Questions p n o stop) (h' : Questions p n o stop') :
    stop' = stop := by
  induction h with
  | nil =>
    cases h'
    rfl
  | cons hname _ ih =>
    cases h' with
    | cons hname' h' =>
      obtain ⟨rfl, -⟩ := hname.unique hname'
      exact ih h'

theorem Records.unique (h : Records p n o stop) (h' : Records p n o stop') : stop' = stop := by
  induction h with
  | nil =>
    cases h'
    rfl
  | cons hname _ ih =>
    cases h' with
    | cons hname' h' =>
      obtain ⟨rfl, -⟩ := hname.unique hname'
      exact ih h'

theorem Records.le (h : Records p n o stop) : o ≤ stop := by
  induction h with
  | nil => exact le_rfl
  | cons hname _ ih =>
    have := hname.lt
    rw [recordEnd] at ih
    omega

theorem Records.snoc {fixed : ℕ} (h : Records p n o stop) (hname : NameEnds p stop fixed target) :
    Records p (n + 1) o (recordEnd p fixed) := by
  induction h with
  | nil => exact .cons hname (.nil _)
  | cons hfirst _ ih => exact .cons hfirst (ih hname)

/-- A longer walk gets further. -/
theorem Records.mono (h : Records p n o stop) (h' : Records p n' o stop') (hn : n ≤ n') :
    stop ≤ stop' := by
  induction h generalizing n' with
  | nil => exact h'.le
  | cons hname _ ih =>
    cases h' with
    | nil => omega
    | cons hname' h' =>
      obtain ⟨rfl, -⟩ := hname.unique hname'
      exact ih h' (by omega)

end Places

section Readers

variable {start rounds count e : ℕ}

theorem getElem?_eq_byteAt {b : UInt8} (h : p[o]? = some b) : o < p.length ∧ p.byteAt o = b := by
  obtain ⟨hlt, -⟩ := List.getElem?_eq_some_iff.mp h
  exact ⟨hlt, by rw [byteAt, h]; rfl⟩

theorem skipNameFrom_ends (h : skipNameFrom p start rounds o = .ok e) :
    ∃ target, NameEnds p o e target := by
  induction rounds generalizing o with
  | zero => cases h
  | succ rounds ih =>
    obtain ⟨length, hlength, h⟩ := bind_eq_ok.mp h
    obtain ⟨hlt, rfl⟩ := getElem?_eq_byteAt (okOr_eq_ok.mp hlength)
    split_ifs at h with hptr hodd hzero
    · obtain ⟨_, hvalid, h⟩ := bind_eq_ok.mp h
      obtain ⟨next, hnext, -⟩ := bind_eq_ok.mp hvalid
      cases h
      exact ⟨_, .pointer (getElem?_eq_byteAt (okOr_eq_ok.mp hnext)).1 hptr⟩
    · cases h
    · cases h
      exact ⟨_, .root hlt hzero⟩
    · obtain ⟨_, -, h⟩ := bind_eq_ok.mp h
      obtain ⟨target, hrest⟩ := ih h
      exact ⟨target, .label hlt (not_not.mp hodd) hzero hrest⟩

theorem skipResourceRecords_ends (h : skipResourceRecords p count o = .ok e) :
    Records p count o e := by
  induction count generalizing o with
  | zero =>
    cases h
    exact .nil _
  | succ count ih =>
    obtain ⟨stop, hrecord, h⟩ := bind_eq_ok.mp h
    obtain ⟨fixed, hname, hrecord⟩ := bind_eq_ok.mp hrecord
    obtain ⟨rr, hrr, hrecord⟩ := bind_eq_ok.mp hrecord
    obtain ⟨_, -, hrecord⟩ := bind_eq_ok.mp hrecord
    obtain ⟨target, hends⟩ := skipNameFrom_ends hname
    obtain ⟨-, rfl⟩ := getRange_eq_some.mp (okOr_eq_ok.mp hrr)
    cases hrecord
    rw [wordAt_slice (by omega)] at h
    exact .cons hends (ih h)

theorem skipQuestions_ends (h : skipQuestions p count o = .ok e) : Questions p count o e := by
  induction count generalizing o with
  | zero =>
    cases h
    exact .nil _
  | succ count ih =>
    obtain ⟨fixed, hname, h⟩ := bind_eq_ok.mp h
    obtain ⟨_, -, h⟩ := bind_eq_ok.mp h
    obtain ⟨target, hends⟩ := skipNameFrom_ends hname
    exact .cons hends (ih h)

end Readers

section Clamp

/-- The records in front of the additional section. -/
def recordsBefore (p : Bytes) : ℕ := (saturatingAdd (p.wordAt 6) (p.wordAt 8)).toNat

/-- Behind the questions and `n` records the owner name of a record is at `o`. -/
def RecordAt (p : Bytes) (n o : ℕ) : Prop :=
  ∃ a, Questions p (p.wordAt 4).toNat 12 a ∧ Records p n a o

/-- An OPT record of the additional section, with its fixed part at `fixed`, announces
more than the limit. -/
def OversizedOpt (p : Bytes) (fixed : ℕ) : Prop :=
  (∃ n o target, recordsBefore p ≤ n ∧ n < recordsBefore p + (p.wordAt 10).toNat ∧
    RecordAt p n o ∧ NameEnds p o fixed target) ∧
  p.wordAt fixed = 41 ∧ .ofNat dnsPayloadMax < p.wordAt (fixed + 2)

/-- A byte of the CLASS of an oversized OPT record. -/
def OversizedClass (p : Bytes) (i : ℕ) : Prop :=
  ∃ fixed, OversizedOpt p fixed ∧ (i = fixed + 2 ∨ i = fixed + 3)

/-- `q` is `p` with the oversized classes before `reach` lowered. -/
structure Lowered (p : Bytes) (reach : ℕ) (q : Bytes) : Prop where
  same : SameExcept (fun i => OversizedClass p i ∧ i < reach) p q
  lowered : ∀ fixed, OversizedOpt p fixed → fixed < reach →
    q.wordAt (fixed + 2) = .ofNat dnsPayloadMax

theorem RecordAt.next {fixed : ℕ} (h : RecordAt p n o) (hname : NameEnds p o fixed target) :
    RecordAt p (n + 1) (recordEnd p fixed) :=
  let ⟨a, hq, hr⟩ := h
  ⟨a, hq, hr.snoc hname⟩

theorem RecordAt.mono (h : RecordAt p n o) (h' : RecordAt p n' o') (hn : n ≤ n') : o ≤ o' := by
  obtain ⟨a, hq, hr⟩ := h
  obtain ⟨a', hq', hr'⟩ := h'
  cases hq.unique hq'
  exact hr.mono hr' hn

/-- A record lies in front of another one, is that record, or lies behind it. -/
theorem RecordAt.place {fixed fixed' : ℕ} (h : RecordAt p n o) (hname : NameEnds p o fixed target)
    (h' : RecordAt p n' o') (hname' : NameEnds p o' fixed' target') :
    (n' < n ∧ fixed' + 10 ≤ o) ∨ (n' = n ∧ fixed' = fixed) ∨
      (n < n' ∧ recordEnd p fixed < fixed') := by
  rcases lt_trichotomy n' n with hn | rfl | hn
  · have hle := (h'.next hname').mono h hn
    rw [recordEnd] at hle
    exact .inl ⟨hn, by omega⟩
  · cases (h.mono h' le_rfl).antisymm (h'.mono h le_rfl)
    exact .inr (.inl ⟨rfl, (hname.unique hname').1⟩)
  · have hle := (h.next hname).mono h' hn
    exact .inr (.inr ⟨hn, hle.trans_lt hname'.lt⟩)

theorem OversizedOpt.place {fixed fixed' : ℕ} (hopt : OversizedOpt p fixed') (h : RecordAt p n o)
    (hname : NameEnds p o fixed target) :
    fixed' + 10 ≤ o ∨ fixed' = fixed ∨ recordEnd p fixed < fixed' := by
  obtain ⟨⟨n', o', target', -, -, h', hname'⟩, -, -⟩ := hopt
  rcases h.place hname h' hname' with hp | hp | hp
  · exact .inl hp.2
  · exact .inr (.inl hp.2)
  · exact .inr (.inr hp.2)

/-- A record that starts in front of another one ends in front of it. -/
theorem OversizedOpt.end_le {fixed : ℕ} (hopt : OversizedOpt p fixed) (h : RecordAt p n o)
    (hlt : fixed < o) : fixed + 10 ≤ o := by
  obtain ⟨⟨n', o', target', -, -, h', hname'⟩, -, -⟩ := hopt
  have hname := hname'.lt
  rcases lt_or_ge n' n with hn | hn
  · have hle := (h'.next hname').mono h hn
    rw [recordEnd] at hle
    omega
  · have hle := h.mono h' hn
    omega

/-- What the clamp makes of the message at one record. -/
def lowerAt (lower : Bool) (fixed : ℕ) (q : Bytes) : Bytes :=
  if lower then q.patch (fixed + 2) (be16Bytes (.ofNat dnsPayloadMax)) else q

/-- One record of the walk. -/
theorem Lowered.step {fixed : ℕ} (h : Lowered p o q) (hrec : RecordAt p n o)
    (hname : NameEnds p o fixed target)
    (hroom : fixed + 10 ≤ p.length) {lower : Bool} (hlower : lower = true ↔ OversizedOpt p fixed) :
    Lowered p (recordEnd p fixed) (lowerAt lower fixed q) := by
  have hlt := hname.lt
  have hend : fixed + 10 ≤ recordEnd p fixed := by
    rw [recordEnd]
    omega
  have hput : fixed + 2 + (be16Bytes (.ofNat dnsPayloadMax)).length ≤ q.length := by
    rw [length_be16Bytes, h.same.length]
    omega
  have hkept : ∀ i, OversizedClass p i ∧ i < o → OversizedClass p i ∧ i < recordEnd p fixed :=
    fun i hi => ⟨hi.1, by omega⟩
  cases lower with
  | false =>
    refine ⟨h.same.mono hkept, fun fixed' hopt hreach => ?_⟩
    rcases hopt.place hrec hname with hbefore | rfl | hbehind
    · exact h.lowered fixed' hopt (by omega)
    · cases hlower.mpr hopt
    · omega
  | true =>
    have hopt := hlower.mp rfl
    refine ⟨(h.same.mono hkept).trans (.patch hput fun i hi hi' => ?_),
      fun fixed' hopt' hreach => ?_⟩
    · rw [length_be16Bytes] at hi'
      exact ⟨⟨fixed, hopt, by omega⟩, by omega⟩
    rcases hopt'.place hrec hname with hbefore | rfl | hbehind
    · rw [lowerAt, if_pos rfl, wordAt_congr (byteAt_patch_of_disjoint hput (by omega))
        (byteAt_patch_of_disjoint hput (by omega))]
      exact h.lowered fixed' hopt' (by omega)
    · exact wordAt_patch _ (by rw [h.same.length]; omega)
    · omega

theorem lowerClass_run {lower : Bool} {fixed : ℕ} (hroom : fixed + 10 ≤ q.length) :
    (lowerClass lower fixed).run q = (.ok (), lowerAt lower fixed q) := by
  cases lower with
  | false => rfl
  | true => exact run_put (by rw [length_be16Bytes]; omega)

/-- What the walk reads of the record it is at is what the message had there. -/
theorem Lowered.wordAt_record {fixed : ℕ} (h : Lowered p o q) (hlt : o < fixed) (hi : i ≤ 8) :
    (q.slice fixed (fixed + 10)).wordAt i = p.wordAt (fixed + i) := by
  rw [wordAt_slice (by omega)]
  exact wordAt_congr (h.same.byte _ fun hc => by omega) (h.same.byte _ fun hc => by omega)

/-- The walk lowers exactly the oversized OPT records. -/
theorem Lowered.lower_iff {fixed : ℕ} (h : Lowered p o q) (hbefore : recordsBefore p ≤ n)
    (hn : n < recordsBefore p + (p.wordAt 10).toNat) (hrec : RecordAt p n o)
    (hname : NameEnds p o fixed target) :
    decide ((q.slice fixed (fixed + 10)).wordAt 0 = 41 ∧
      .ofNat dnsPayloadMax < (q.slice fixed (fixed + 10)).wordAt 2) = true ↔
      OversizedOpt p fixed := by
  rw [decide_eq_true_iff, h.wordAt_record hname.lt (by omega), h.wordAt_record hname.lt (by omega)]
  exact ⟨fun hc => ⟨⟨n, o, target, hbefore, hn, hrec, hname⟩, hc⟩, fun hc => hc.2⟩

/-- What the walk has done when it is at `o`: `clamped` tells whether it has found an
oversized record, and nothing is written as long as it has not. -/
structure Clamped (p : Bytes) (o : ℕ) (clamped : Bool) (q : Bytes) : Prop where
  lowered : Lowered p o q
  kept : clamped = false → q = p
  found : clamped = true → ∃ fixed, OversizedOpt p fixed

/-- The walk gets past the owner names of the records of the section from the `n`th on. -/
def Walked (p : Bytes) (n : ℕ) : Prop :=
  ∀ m owner, n ≤ m → m < recordsBefore p + (p.wordAt 10).toNat → RecordAt p m owner →
    ∃ q fixed, Lowered p owner q ∧ skipName q owner = .ok fixed

theorem clampAdditional_clamped {count : ℕ} (clamped : Bool) (hbefore : recordsBefore p ≤ n)
    (hn : n + count = recordsBefore p + (p.wordAt 10).toNat) (hrec : RecordAt p n o) :
    Act.Triple (Clamped p o clamped) (clampAdditional count o clamped)
      (fun r q => Clamped p r.2 r.1 q ∧ RecordAt p (recordsBefore p + (p.wordAt 10).toNat) r.2 ∧
        Walked p n)
      (fun _ => True) := by
  induction count generalizing n o clamped with
  | zero => exact .pure fun q h => ⟨h, hn ▸ hrec, fun m owner hm hlt => absurd hm (by omega)⟩
  | succ count ih =>
    refine .get fun q h => ?_
    refine .call_bind (skipNameFrom_ne_panic _ _ _ _) (fun _ _ => trivial) fun fixed hskip => ?_
    refine .call_bind okOr_ne_panic (fun _ _ => trivial) fun rr hrr => ?_
    obtain ⟨⟨-, hroom⟩, rfl⟩ := getRange_eq_some.mp (okOr_eq_ok.mp hrr)
    obtain ⟨target, hname⟩ := skipNameFrom_ends hskip
    have hl := h.lowered
    -- nothing was written from here on
    have hsame : ∀ i, o ≤ i → p.byteAt i = q.byteAt i := fun i hi =>
      (hl.same.byte i fun hc => by omega).symm
    replace hname := hname.congr hl.same.length.symm fun i hi _ => hsame i hi
    have hlt := hname.lt
    have hopt := hl.lower_iff hbefore (by omega) hrec hname
    have hnext := hl.step hrec hname (hl.same.length ▸ hroom) hopt
    dsimp only
    generalize decide ((q.slice fixed (fixed + 10)).wordAt 0 = 41 ∧
      .ofNat dnsPayloadMax < (q.slice fixed (fixed + 10)).wordAt 2) = lower at hopt hnext ⊢
    rw [hl.wordAt_record hlt le_rfl]
    refine .bind (Q := fun _ t => t = lowerAt lower fixed q) ?_ fun _ => ?_
    · rintro _ rfl
      rw [lowerClass_run hroom]
      rfl
    refine .call_bind ensure_ne_panic (fun _ _ => trivial) fun _ _ => ?_
    refine (ih (n := n + 1) _ (by omega) (by omega) (hrec.next hname)).weaken ?_
      (fun r q' hr => ⟨hr.1, hr.2.1, fun m owner hm hlt howner => ?_⟩) fun _ h => h
    swap
    · rcases hm.eq_or_lt with rfl | hm
      · cases (hrec.mono howner le_rfl).antisymm (howner.mono hrec le_rfl)
        exact ⟨q, fixed, hl, hskip⟩
      · exact hr.2.2 m owner hm hlt howner
    rintro _ rfl
    refine ⟨hnext, fun hc => ?_, fun hc => ?_⟩
    · obtain ⟨hclamped, rfl⟩ := Bool.or_eq_false_iff.mp hc
      exact h.kept hclamped
    · rcases Bool.or_eq_true_iff.mp hc with hc | hc
      · exact h.found hc
      · exact ⟨fixed, hopt.mp hc⟩

/-- A clamp that goes through has walked to the end of the message. -/
theorem clampEdnsUdpPayload_clamped {b : Bool} (h : clampEdnsUdpPayload.run p = (.ok b, q)) :
    Clamped p p.length b q ∧ RecordAt p (recordsBefore p + (p.wordAt 10).toNat) p.length ∧
      Walked p (recordsBefore p) := by
  have hspec : Act.Triple (fun t => t = p) clampEdnsUdpPayload
      (fun b q => Clamped p p.length b q ∧
        RecordAt p (recordsBefore p + (p.wordAt 10).toNat) p.length ∧ Walked p (recordsBefore p))
      (fun _ => True) := by
    refine .get fun _ hp => ?_
    cases hp
    refine .call_bind okOr_ne_panic (fun _ _ => trivial) fun header hheader => ?_
    obtain ⟨-, rfl⟩ := getRange_eq_some.mp (okOr_eq_ok.mp hheader)
    refine .call_bind (skipQuestions_ne_panic _ _ _) (fun _ _ => trivial) fun a ha => ?_
    refine .call_bind (skipResourceRecords_ne_panic _ _ _) (fun _ _ => trivial) fun c hc => ?_
    simp only [wordAt_slice (show 0 + 4 + 1 < 12 by omega),
      wordAt_slice (show 0 + 6 + 1 < 12 by omega),
      wordAt_slice (show 0 + 8 + 1 < 12 by omega), wordAt_slice (show 0 + 10 + 1 < 12 by omega),
      Nat.zero_add] at ha hc ⊢
    have hfrom : RecordAt p (recordsBefore p) c :=
      ⟨a, skipQuestions_ends ha, skipResourceRecords_ends hc⟩
    have hadditional := clampAdditional_clamped false le_rfl rfl hfrom
    refine .bind (.pre ?_ hadditional) fun r => ?_
    · rintro _ rfl
      refine ⟨⟨.refl _ _, fun fixed hopt hlt => ?_⟩, fun _ => rfl, fun hc => by cases hc⟩
      -- every record of the section lies behind its start
      obtain ⟨⟨n, o, target, hn, -, hrec, hname⟩, -⟩ := hopt
      have hle := hfrom.mono hrec hn
      have := hname.lt
      omega
    refine .call_bind ensure_ne_panic (fun _ _ => trivial) fun _ hend => .pure fun q h => ?_
    rw [ensure_eq_ok.mp hend] at h
    exact h
  have hends := hspec p rfl
  rw [h] at hends
  exact hends

end Clamp

end Dns

namespace FlowWorkerState

open Outcome Packet Dns Bytes

variable {p : Bytes} {l : Layout} {f : FlowKey}

/-- A byte the clamp writes: of an oversized class, or of what a rewrite to the same
flow touches. -/
def Clamps (p : Bytes) (l : Layout) (i : ℕ) : Prop :=
  l.Translation .udp i ∨ l.offset + 8 ≤ i ∧
    OversizedClass (p.slice (l.offset + 8) l.total) (i - (l.offset + 8))

/-- The clamp gives up and leaves the packet, or hands back the packet with the clamped
payload in it. -/
theorem ednsClampPacket_cases (h : Carries p l f) (hu : f.protocol = .udp) :
    ((∃ e s, clampEdnsUdpPayload.run (p.slice (l.offset + 8) l.total) = (fail e, s)) ∧
      ednsClampPacket p = .ok (none, p)) ∨
    ∃ lowered payload q, clampEdnsUdpPayload.run (p.slice (l.offset + 8) l.total) =
        (.ok lowered, payload) ∧ ednsClampPacket p = .ok (some lowered, q) ∧ Carries q l f ∧
      q.slice (l.offset + 8) l.total = payload ∧ (lowered = false → q = p) ∧
      SameExcept (Clamps p l) p q ∧
      (lowered = true → Rewritten (p.patch (l.offset + 8) payload) q l f) := by
  have hle := h.fields_le.2.2.2
  have htot := h.layout.total_le
  have hlen : (p.slice (l.offset + 8) l.total).length = l.total - (l.offset + 8) :=
    length_slice htot
  rw [ednsClampPacket, parseFlowKey_eq_ok.mpr ⟨l, h⟩, bind_ok, udpPayloadRange_ok h hu, bind_ok]
  simp only [range_ok hle htot, bind_ok]
  have hclamp := clampEdnsUdpPayload_length _ _ hlen
  rcases hrun : clampEdnsUdpPayload.run (p.slice (l.offset + 8) l.total) with
    ⟨(e | _) | lowered, payload⟩ <;> rw [hrun] at hclamp
  · exact .inl ⟨⟨e, payload, rfl⟩, by simp only [Act.attempt, hrun, bind_ok]; rfl⟩
  · exact hclamp.elim
  · obtain ⟨hlowered, hsame, -⟩ := (clampEdnsUdpPayload_clamped hrun).1
    cases lowered with
    | false =>
      refine .inr ⟨false, payload, p, rfl, ?_, h, (hsame rfl).symm, fun _ => rfl, .refl _ _,
        fun hc => (by cases hc)⟩
      simp only [Act.attempt, hrun, bind_ok]
      rfl
    | true =>
      replace hclamp : payload.length = l.total - (l.offset + 8) := hclamp
      have hc := h.withPayload hu hclamp
      obtain ⟨q, hq, hrewritten⟩ := rewritePacket_rewrites hc rfl hc.family.1 hc.family.2
      have htr := hrewritten.same
      have hput : l.offset + 8 + payload.length ≤ p.length := by
        rw [hclamp]
        omega
      refine .inr ⟨true, payload, q, rfl, ?_, hrewritten.carries hc.placed hc.allowed, ?_,
        fun hc => (by cases hc), ?_, fun _ => hrewritten⟩
      · simp only [Act.attempt, hrun, bind_ok, Act.exec_eq_ok.mpr ⟨(), hq⟩]
        rfl
      · rw [htr.slice (by rw [length_patch hput]; exact htot) fun i hi _ => by
            rw [hu]
            exact h.layout.not_translation_udp hi,
          slice_patch_all (by rw [hclamp]; omega) htot]
      · refine SameExcept.trans ⟨length_patch hput, fun i hi => ?_⟩
          (htr.mono fun i hi => .inl (hu ▸ hi))
        rw [byteAt_patch hput]
        split_ifs with hin
        · have hbyte := hlowered.same.byte (i - (l.offset + 8)) fun hc => hi (.inr ⟨hin.1, hc.1⟩)
          rw [hbyte, byteAt_slice (by omega), Nat.add_sub_cancel' hin.1]
        · rfl

/-- The clamp hands back a packet of the same flow, with the layout it had. -/
theorem ednsClampPacket_ok (h : Carries p l f) (hu : f.protocol = .udp) :
    ∃ clamped q, ednsClampPacket p = .ok (clamped, q) ∧ Carries q l f := by
  rcases ednsClampPacket_cases h hu with ⟨-, hrun⟩ | ⟨lowered, payload, q, -, hrun, hc, -⟩
  · exact ⟨none, p, hrun, h⟩
  · exact ⟨some lowered, q, hrun, hc⟩

end FlowWorkerState

end NewProxy
