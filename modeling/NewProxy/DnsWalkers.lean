import NewProxy.DnsClamp

/-!
# The walkers over a DNS message agree

`parse_name` follows compression pointers, `skip_name` does not, and the clamp writes
while it walks. All of them stay inside the message and inside 64 bits, find the same
ends, and so cut a valid message into its question and its records.
-/
namespace NewProxy.Dns

open Outcome Bytes

section Offsets

/-!
The walkers once more, with each sum of offsets taken in 64 bits.
-/

/-- A sum of two `usize`, which panics when it does not fit. -/
def usizeAdd {ε : Type} (a b : ℕ) : Outcome ε ℕ := if a + b < 2 ^ 64 then .ok (a + b) else panic

def parseNameFromUsize (payload : Bytes) : ℕ → ℕ → List Bytes → Option ℕ → List ℕ →
    Outcome DnsError (Bytes × ℕ)
  | 0, _, _, _, _ => fail .malformedName
  | rounds + 1, offset, labels, nextOffset, seen =>
    if offset ∈ seen then fail .malformedName
    else do
      let length ← okOr payload[offset]? .truncated
      if length &&& 0xc0 = 0xc0 then do
        let low ← usizeAdd offset 1
        let next ← okOr payload[low]? .truncated
        ensure (pointerTarget length next < payload.length) .malformedName
        let stop ← usizeAdd offset 2
        parseNameFromUsize payload rounds (pointerTarget length next) labels
          (some (nextOffset.getD stop)) (offset :: seen)
      else if length &&& 0xc0 ≠ 0 then fail .malformedName
      else do
        let start ← usizeAdd offset 1
        if length = 0 then do
          ensure (labels ≠ []) .malformedName
          return (joinLabels labels, nextOffset.getD start)
        else do
          let stop ← usizeAdd start length.toNat
          let label ← okOr (payload.getRange start stop) .truncated
          let label ← normalizeLabel label
          parseNameFromUsize payload rounds stop (labels ++ [label]) nextOffset (offset :: seen)

def parseNameUsize (payload : Bytes) (offset : ℕ) : Outcome DnsError (Bytes × ℕ) :=
  parseNameFromUsize payload 128 offset [] none []

def validateNamePointerUsize (payload : Bytes) (offset ownerStart : ℕ) :
    Outcome DnsError Unit := do
  let low ← usizeAdd offset 1
  let next ← okOr payload[low]? .truncated
  let first ← payload.index offset
  ensure (pointerTarget first next < ownerStart) .malformedName
  let _ ← parseNameUsize payload (pointerTarget first next)
  return ()

def skipNameFromUsize (payload : Bytes) (start : ℕ) : ℕ → ℕ → Outcome DnsError ℕ
  | 0, _ => fail .malformedName
  | rounds + 1, offset => do
    let length ← okOr payload[offset]? .truncated
    if length &&& 0xc0 = 0xc0 then do
      validateNamePointerUsize payload offset start
      usizeAdd offset 2
    else if length &&& 0xc0 ≠ 0 then fail .malformedName
    else do
      let offset ← usizeAdd offset 1
      if length = 0 then return offset
      else do
        -- `checked_add`, so a sum that does not fit is a truncated name
        ensure (offset + length.toNat < 2 ^ 64 ∧ offset + length.toNat ≤ payload.length) .truncated
        skipNameFromUsize payload start rounds (offset + length.toNat)

def skipNameUsize (payload : Bytes) (offset : ℕ) : Outcome DnsError ℕ :=
  skipNameFromUsize payload offset 128 offset

variable {p : Bytes}

theorem usizeAdd_ok {ε : Type} {a b : ℕ} (h : a + b < 2 ^ 64) :
    usizeAdd (ε := ε) a b = .ok (a + b) :=
  if_pos h

/-- A byte of a slice is so far from the end of the address space that no walker leaves
it. -/
theorem lt_of_getElem? {o : ℕ} {b : UInt8} (hlen : p.length < 2 ^ 63) (h : p[o]? = some b) :
    o + 257 < 2 ^ 64 := by
  have := (getElem?_eq_byteAt h).1
  omega

/-- What follows a successful `okOr` may use that it succeeded. -/
theorem okOr_bind_congr {ε α β : Type} {x : Option α} {e : ε} {f g : α → Outcome ε β}
    (h : ∀ a, x = some a → f a = g a) : (okOr x e >>= f) = (okOr x e >>= g) := by
  cases x with
  | none => rfl
  | some a => exact h a rfl

theorem parseNameFromUsize_eq (hlen : p.length < 2 ^ 63) (rounds o : ℕ) (labels : List Bytes)
    (next : Option ℕ) (seen : List ℕ) :
    parseNameFromUsize p rounds o labels next seen = parseNameFrom p rounds o labels next seen := by
  induction rounds generalizing o labels next seen with
  | zero => rfl
  | succ rounds ih =>
    rw [parseNameFromUsize, parseNameFrom]
    refine if_congr Iff.rfl rfl (okOr_bind_congr fun length hlength => ?_)
    have hroom := lt_of_getElem? hlen hlength
    have hsmall := length.toNat_lt
    simp only [usizeAdd_ok (show o + 1 < 2 ^ 64 by omega),
      usizeAdd_ok (show o + 2 < 2 ^ 64 by omega),
      usizeAdd_ok (show o + 1 + length.toNat < 2 ^ 64 by omega), bind_ok, ih]

theorem validateNamePointerUsize_eq (hlen : p.length < 2 ^ 63) {o : ℕ} (ho : o + 257 < 2 ^ 64)
    (start : ℕ) : validateNamePointerUsize p o start = validateNamePointer p o start := by
  rw [validateNamePointerUsize, usizeAdd_ok (by omega), bind_ok]
  simp only [parseNameUsize, parseNameFromUsize_eq hlen]
  rfl

theorem skipNameFromUsize_eq (hlen : p.length < 2 ^ 63) (start rounds o : ℕ) :
    skipNameFromUsize p start rounds o = skipNameFrom p start rounds o := by
  induction rounds generalizing o with
  | zero => rfl
  | succ rounds ih =>
    rw [skipNameFromUsize, skipNameFrom]
    refine okOr_bind_congr fun length hlength => ?_
    have hroom := lt_of_getElem? hlen hlength
    have hsmall := length.toNat_lt
    have hfits : o + 1 + length.toNat < 2 ^ 64 := by omega
    simp only [usizeAdd_ok (show o + 1 < 2 ^ 64 by omega),
      usizeAdd_ok (show o + 2 < 2 ^ 64 by omega),
      bind_ok, ih, validateNamePointerUsize_eq hlen hroom, hfits, true_and]
    rfl

end Offsets

section Tiling

variable {p q : Bytes} {o e : ℕ} {places : ℕ → ℕ} {count : ℕ}

theorem places_mono (hstep : ∀ n < count, places n < places (n + 1)) {m n : ℕ} (hmn : m ≤ n)
    (hn : n ≤ count) : places m ≤ places n := by
  induction hmn with
  | refl => exact le_rfl
  | step hmn ih => exact (ih (by omega)).trans (hstep _ hn).le

/-- Ascending boundaries cut what lies between the first and the last one into pieces. -/
theorem existsUnique_piece (hstep : ∀ n < count, places n < places (n + 1)) {i : ℕ}
    (hfirst : places 0 ≤ i) (hlast : i < places count) :
    ∃! n, n < count ∧ places n ≤ i ∧ i < places (n + 1) := by
  have hexists : ∃ n, i < places n := ⟨count, hlast⟩
  -- the piece in front of the first boundary behind `i`
  obtain ⟨n, hn⟩ : ∃ n, Nat.find hexists = n + 1 := by
    refine Nat.exists_eq_succ_of_ne_zero fun hzero => ?_
    have hspec := Nat.find_spec hexists
    rw [hzero] at hspec
    omega
  have hspec := Nat.find_spec hexists
  have hle := Nat.find_min' hexists hlast
  have hmin := Nat.find_min hexists (m := n) (by omega)
  rw [hn] at hspec hle
  refine ⟨n, ⟨hle, by omega, hspec⟩, fun m hm => ?_⟩
  have hmn : n + 1 ≤ m + 1 := hn ▸ Nat.find_min' hexists hm.2.2
  by_contra hne
  have hmono := places_mono hstep (show n + 1 ≤ m by omega) hm.1.le
  omega

/-- The question, with its name up to `a`, and the records between the boundaries
`places` are all there is behind the header. -/
structure Tiled (p : Bytes) (question : DnsQuestion) (a : ℕ) (places : ℕ → ℕ) : Prop where
  parsed : parseName p 12 = .ok (question.qname, a)
  skipped : skipName p 12 = .ok a
  name : 12 < a
  first : places 0 = a + 4
  last : places (walkedRecords p) = p.length
  record : ∀ n < walkedRecords p, skipResourceRecord p (places n) = .ok (places (n + 1))
  ascending : ∀ n < walkedRecords p, places n < places (n + 1)
  /-- Behind the question each byte is part of one record. -/
  piece : ∀ i, a + 4 ≤ i → i < p.length →
    ∃! n, n < walkedRecords p ∧ places n ≤ i ∧ i < places (n + 1)

theorem skipResourceRecord_lt (h : skipResourceRecord p o = .ok e) : o < e := by
  obtain ⟨fixed, hname, -, -, rfl⟩ := skipResourceRecord_eq_ok.mp h
  obtain ⟨target, hends⟩ := skipNameFrom_ends hname
  have := hends.lt
  rw [recordEnd]
  omega

theorem skipResourceRecords_one : skipResourceRecords p 1 o = skipResourceRecord p o := by
  rw [skipResourceRecords]
  cases skipResourceRecord p o <;> rfl

/-- A walk over records passes its boundaries. -/
theorem skipResourceRecords_places (h : skipResourceRecords p count o = .ok e) :
    ∃ places : ℕ → ℕ, places 0 = o ∧ places count = e ∧
      (∀ n ≤ count, skipResourceRecords p n o = .ok (places n)) ∧
      ∀ n < count, skipResourceRecord p (places n) = .ok (places (n + 1)) := by
  have hmid : ∀ n, ∃ mid, n ≤ count → skipResourceRecords p n o = .ok mid := by
    intro n
    by_cases hn : n ≤ count
    · rw [← Nat.add_sub_cancel' hn] at h
      obtain ⟨mid, hmid, -⟩ := skipResourceRecords_append h
      exact ⟨mid, fun _ => hmid⟩
    · exact ⟨0, fun h => absurd h hn⟩
  choose places hplaces using hmid
  refine ⟨places, ?_, ?_, hplaces, fun n hn => ?_⟩
  · exact (Except.ok.inj (hplaces 0 (Nat.zero_le _))).symm
  · exact Except.ok.inj ((hplaces count le_rfl).symm.trans h)
  · obtain ⟨mid, hmid, hnext⟩ := skipResourceRecords_append (hplaces (n + 1) hn)
    obtain rfl : places n = mid := Except.ok.inj ((hplaces n hn.le).symm.trans hmid)
    rwa [skipResourceRecords_one] at hnext

theorem validateMessage_tiled {response : Bool} {question : DnsQuestion}
    (h : validateMessage p response = .ok question) :
    ∃ a places, Tiled p question a places ∧
      ∀ n ≤ walkedRecords p, skipResourceRecords p n (a + 4) = .ok (places n) := by
  obtain ⟨-, -, -, hfields, a, ha, hrecords⟩ := validateMessage_eq_ok.mp h
  obtain ⟨-, -, stop, hname, -, -⟩ := parseQuestionFields_eq_ok.mp hfields
  obtain ⟨target, hends⟩ := skipNameFrom_ends ha
  obtain ⟨target', hends'⟩ := (parseNameFrom_ends hname).2 rfl
  obtain rfl : stop = a := (hends.unique hends').1
  obtain ⟨places, hfirst, hlast, hplaces, hrecord⟩ := skipResourceRecords_places hrecords
  have hstep : ∀ n < walkedRecords p, places n < places (n + 1) := fun n hn =>
    skipResourceRecord_lt (hrecord n hn)
  exact ⟨stop, places, ⟨hname, ha, hends.lt, hfirst, hlast, hrecord, hstep,
    fun i hlo hhi => existsUnique_piece hstep (hfirst ▸ hlo) (hlast ▸ hhi)⟩, hplaces⟩

end Tiling

section Clamp

variable {p q : Bytes} {o : ℕ} {places : ℕ → ℕ} {count : ℕ}

/-- The loop of the clamp, cut in two. -/
theorem clampAdditional_add (k m o : ℕ) (clamped : Bool) :
    clampAdditional (k + m) o clamped =
      clampAdditional k o clamped >>= fun r => clampAdditional m r.2 r.1 := by
  induction k generalizing o clamped with
  | zero =>
    rw [Nat.zero_add]
    rfl
  | succ k ih =>
    rw [Nat.succ_add, clampAdditional, clampAdditional]
    simp only [ih, Act.bind_assoc]

/-- What lies in front of the walk is no longer written. -/
theorem clampAdditional_front (k o : ℕ) (clamped : Bool) (s : Bytes) :
    Act.Triple (fun q => q = s) (clampAdditional k o clamped)
      (fun _ q => ∀ i < o, q.byteAt i = s.byteAt i)
      (fun q => ∀ i < o, q.byteAt i = s.byteAt i) := by
  induction k generalizing o clamped s with
  | zero =>
    refine .pure fun q h i _ => ?_
    rw [h]
  | succ k ih =>
    refine .get fun q h => ?_
    subst h
    have hsame : ∀ t : Bytes, t = q → ∀ i < o, t.byteAt i = q.byteAt i := by
      rintro _ rfl i _
      rfl
    refine .call_bind (skipNameFrom_ne_panic _ _ _ _) hsame fun fixed hskip => ?_
    refine .call_bind okOr_ne_panic hsame fun rr hrr => ?_
    obtain ⟨⟨-, hroom⟩, rfl⟩ := getRange_eq_some.mp (okOr_eq_ok.mp hrr)
    obtain ⟨target, hname⟩ := skipNameFrom_ends hskip
    have hlt := hname.lt
    dsimp only
    generalize decide ((q.slice fixed (fixed + 10)).wordAt 0 = 41 ∧
      .ofNat dnsPayloadMax < (q.slice fixed (fixed + 10)).wordAt 2) = lower
    have hfront : ∀ i < o, (lowerAt lower fixed q).byteAt i = q.byteAt i := by
      intro i hi
      cases lower with
      | false => rfl
      | true =>
        refine byteAt_patch_of_disjoint ?_ (.inl (by omega))
        rw [length_be16Bytes]
        omega
    refine .bind (Q := fun _ t => t = lowerAt lower fixed q) ?_ fun _ => ?_
    · rintro _ rfl
      rw [lowerClass_run hroom]
      rfl
    refine .call_bind ensure_ne_panic (fun _ h => h ▸ hfront) fun _ _ => ?_
    have hrest : ∀ t : Bytes, (∀ i < fixed + 10 + ((q.slice fixed (fixed + 10)).wordAt 8).toNat,
        t.byteAt i = (lowerAt lower fixed q).byteAt i) → ∀ i < o, t.byteAt i = q.byteAt i :=
      fun t ht i hi => (ht i (by omega)).trans (hfront i hi)
    exact (ih _ _ _).weaken (fun _ h => h) (fun _ => hrest) hrest

/-- As long as nothing is written, the clamp is at the boundaries of the records. -/
theorem clampAdditional_places
    (hrecord : ∀ n < count, skipResourceRecord p (places n) = .ok (places (n + 1)))
    (k m : ℕ) (hm : m + k ≤ count)
    (hkept : ((clampAdditional k (places m) false).run p).2 = p) :
    (clampAdditional k (places m) false).run p = (.ok (false, places (m + k)), p) := by
  induction k generalizing m with
  | zero => rfl
  | succ k ih =>
    obtain ⟨fixed, hname, hroom, hend, hnext⟩ := skipResourceRecord_eq_ok.mp (hrecord m (by omega))
    rw [clampAdditional_succ false hname hroom hend] at hkept ⊢
    dsimp only at hkept ⊢
    cases hlower : decide (p.wordAt fixed = 41 ∧ .ofNat dnsPayloadMax < p.wordAt (fixed + 2)) with
    | false =>
      rw [hlower, ← hnext] at hkept
      rw [← hnext]
      have hrest := ih (m + 1) (by omega) hkept
      rw [Nat.succ_add_eq_add_succ] at hrest
      exact hrest
    | true =>
      -- what was written stays written
      rw [hlower] at hkept
      have hfront := (clampAdditional_front k (recordEnd p fixed) (false || true)
        (lowerAt true fixed p)).state rfl
      rw [hkept] at hfront
      have hclass : p.wordAt (fixed + 2) = .ofNat dnsPayloadMax := by
        rw [wordAt_congr (hfront _ (by rw [recordEnd]; omega))
          (hfront _ (by rw [recordEnd]; omega))]
        exact wordAt_patch _ (by omega)
      rw [decide_eq_true_iff, hclass] at hlower
      exact absurd hlower.2 (UInt16.lt_irrefl _)

end Clamp

section Main

/-- Where the clamp is in a message `p` with the record boundaries `places`, as long as it
has not written anything. -/
structure ClampVisits (p : Bytes) (places : ℕ → ℕ) : Prop where
  questions : skipQuestions p (p.wordAt 4).toNat 12 = .ok (places 0)
  before : recordsBefore p ≤ walkedRecords p
  records : ∀ n ≤ recordsBefore p, skipResourceRecords p n (places 0) = .ok (places n)
  /-- The first `k` rounds of the loop over the additional records. -/
  additional : ∀ k, recordsBefore p + k ≤ walkedRecords p →
    ((clampAdditional k (places (recordsBefore p)) false).run p).2 = p →
    (clampAdditional k (places (recordsBefore p)) false).run p =
      (.ok (false, places (recordsBefore p + k)), p)

theorem validateMessage_visits {p : Bytes} {response : Bool} {question : DnsQuestion} {a : ℕ}
    {places : ℕ → ℕ} (h : validateMessage p response = .ok question)
    (htiled : Tiled p question a places)
    (hplaces : ∀ n ≤ walkedRecords p, skipResourceRecords p n (a + 4) = .ok (places n)) :
    ClampVisits p places := by
  obtain ⟨-, -, -, hfields, -⟩ := validateMessage_eq_ok.mp h
  obtain ⟨-, hcount, stop, hname, hstop, -⟩ := parseQuestionFields_eq_ok.mp hfields
  obtain rfl : stop = a := (Prod.mk.inj (Except.ok.inj (hname.symm.trans htiled.parsed))).2
  have hbefore : recordsBefore p ≤ walkedRecords p := by
    rw [walkedRecords, toNat_saturatingAdd, ← recordsBefore]
    have hlt : recordsBefore p < 65536 := UInt16.toNat_lt _
    omega
  refine ⟨?_, hbefore, fun n hn => ?_, fun k hk hkept => ?_⟩
  · rw [hcount, htiled.first]
    change (skipName p 12 >>= fun offset => _) = _
    rw [htiled.skipped, bind_ok, (ensure_eq_ok (u := ())).mpr hstop]
    rfl
  · rw [htiled.first]
    exact hplaces n (hn.trans hbefore)
  · exact clampAdditional_places htiled.record k (recordsBefore p) hk hkept

/-- The walkers never panic, also in 64 bits; they agree on the end of a name; and a valid
message is cut into its question and its records, where the clamp finds them too. -/
theorem dns_walkers_consistent :
    (∀ (p : Bytes) (o : ℕ), p.length < 2 ^ 63 →
      parseNameUsize p o = parseName p o ∧ parseNameUsize p o ≠ panic ∧
      skipNameUsize p o = skipName p o ∧ skipNameUsize p o ≠ panic) ∧
    (∀ (p : Bytes) (o : ℕ) (name : Bytes) (e e' : ℕ),
      parseName p o = .ok (name, e) → skipName p o = .ok e' → e = e') ∧
    (∀ (p : Bytes) (response : Bool) (question : DnsQuestion),
      validateMessage p response = .ok question →
      ∃ a places, Tiled p question a places ∧ ClampVisits p places) ∧
    ∀ (k m o : ℕ) (clamped : Bool), clampAdditional (k + m) o clamped =
      clampAdditional k o clamped >>= fun r => clampAdditional m r.2 r.1 := by
  refine ⟨fun p o hlen => ?_, fun p o name e e' hparse hskip => ?_,
    fun p response question h => ?_, clampAdditional_add⟩
  · have hparse : parseNameUsize p o = parseName p o := parseNameFromUsize_eq hlen _ _ _ _ _
    have hskip : skipNameUsize p o = skipName p o := skipNameFromUsize_eq hlen _ _ _
    rw [hparse, hskip]
    exact ⟨rfl, parseNameFrom_ne_panic _ _ _ _ _ _, rfl, skipNameFrom_ne_panic _ _ _ _⟩
  · obtain ⟨target, hends⟩ := (parseNameFrom_ends hparse).2 rfl
    obtain ⟨target', hends'⟩ := skipNameFrom_ends hskip
    exact (hends'.unique hends).1
  · obtain ⟨a, places, htiled, hplaces⟩ := validateMessage_tiled h
    exact ⟨a, places, htiled, validateMessage_visits h htiled hplaces⟩

/-- A query for a name of one label, with an OPT record. -/
def ednsMessage : Bytes :=
  [0, 7, 1, 0, 0, 1, 0, 0, 0, 0, 0, 1, 1, 97, 0, 0, 1, 0, 1, 0, 0, 41, 0x10, 0, 0, 0, 0, 0, 0, 0]

theorem ednsMessage_walked :
    (parseNameUsize ednsMessage 12 ≠ panic ∧ skipName ednsMessage 12 = .ok 15) ∧
      ∃ a places, Tiled ednsMessage ⟨[97], 1, 1⟩ a places ∧ ClampVisits ednsMessage places := by
  have hparse : parseName ednsMessage 12 = .ok ([97], 15) := by decide +kernel
  have hskip : skipName ednsMessage 12 = .ok 15 := by decide +kernel
  have hvalid : validateMessage ednsMessage false = .ok ⟨[97], 1, 1⟩ := by decide +kernel
  obtain ⟨htotal, hends, htiled, -⟩ := dns_walkers_consistent
  exact ⟨⟨(htotal ednsMessage 12 (by decide)).2.1, hends _ _ _ _ _ hparse hskip ▸ hskip⟩,
    htiled _ _ _ hvalid⟩

end Main

end NewProxy.Dns
