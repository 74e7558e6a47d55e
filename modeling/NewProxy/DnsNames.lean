import NewProxy.DnsRecords

/-!
# What the names of a DNS message read

A name may run through compression pointers over any bytes of the message, the CLASS
of an OPT record among them. A name that keeps off the lowered classes reads as
before. One that reads such a byte no longer parses: the high byte becomes a label
length of four with a byte behind it that no label may hold, and the low byte becomes
a pointer behind the end of the message.
-/
namespace NewProxy.Dns

open Outcome Bytes

variable {p q : Bytes} {o i : ℕ}

/-- Reading the name at `o` looks at the byte at `i`. -/
inductive NameReads (p : Bytes) : ℕ → ℕ → Prop
  | here (o : ℕ) : NameReads p o o
  | low {o : ℕ} : p.byteAt o &&& 0xc0 = 0xc0 → NameReads p o (o + 1)
  | jump {o i : ℕ} : p.byteAt o &&& 0xc0 = 0xc0 →
    NameReads p (pointerTarget (p.byteAt o) (p.byteAt (o + 1))) i → NameReads p o i
  | char {o i : ℕ} : p.byteAt o &&& 0xc0 = 0 → o < i → i ≤ o + (p.byteAt o).toNat →
    NameReads p o i
  | next {o i : ℕ} : p.byteAt o &&& 0xc0 = 0 → p.byteAt o ≠ 0 →
    NameReads p (o + 1 + (p.byteAt o).toNat) i → NameReads p o i

/-- A name reads what it goes on with. -/
theorem NameEnds.reads {stop t : ℕ} (h : NameEnds p o stop (some t)) (ht : NameReads p t i) :
    NameReads p o i := by
  generalize htarget : some t = target at h
  induction h with
  | root => cases htarget
  | pointer _ hptr =>
    cases htarget
    exact .jump hptr ht
  | label _ hplain hne _ ih => exact .next hplain hne (ih htarget)

/-- A name without a pointer reads nothing in front of it. -/
theorem NameEnds.reads_ge {stop : ℕ} (h : NameEnds p o stop none) (hi : NameReads p o i) :
    o ≤ i := by
  generalize htarget : none = target at h
  induction h with
  | root _ hzero =>
    cases hi with
    | here => exact le_rfl
    | low hptr | jump hptr _ => simp [hzero] at hptr
    | char _ hlt _ => exact hlt.le
    | next _ hne _ => exact absurd hzero hne
  | pointer => cases htarget
  | label _ hplain _ _ ih =>
    cases hi with
    | here => exact le_rfl
    | low hptr | jump hptr _ => simp [hplain] at hptr
    | char _ hlt _ => exact hlt.le
    | next _ _ hrest =>
      have hle := ih hrest htarget
      omega

theorem getElem?_eq_ite (p : Bytes) (o : ℕ) :
    p[o]? = if o < p.length then some (p.byteAt o) else none := by
  split_ifs with h
  · rw [byteAt_of_lt h, List.getElem?_eq_getElem h]
  · exact List.getElem?_eq_none (not_lt.mp h)

theorem getElem?_congr (hlen : q.length = p.length) (hq : q.byteAt o = p.byteAt o) :
    q[o]? = p[o]? := by
  rw [getElem?_eq_ite, getElem?_eq_ite, hlen, hq]

theorem getRange_congr {a b : ℕ} (hlen : q.length = p.length)
    (hq : ∀ i, a ≤ i → i < b → q.byteAt i = p.byteAt i) : q.getRange a b = p.getRange a b := by
  by_cases h : a ≤ b ∧ b ≤ p.length
  · rw [getRange_some h.1 (hlen ▸ h.2), getRange_some h.1 h.2,
      slice_congr (hlen ▸ h.2) h.2 hq]
  · simp only [getRange, hlen]
    rw [if_neg h, if_neg h]

/-- One round of a name that is read to its end. -/
theorem parseNameFrom_round {rounds : ℕ} {labels : List Bytes} {next : Option ℕ} {seen : List ℕ}
    {r : Bytes × ℕ} (h : parseNameFrom p rounds o labels next seen = .ok r) :
    ∃ rest, rounds = rest + 1 ∧ o < p.length ∧
      ((p.byteAt o &&& 0xc0 = 0xc0 ∧ o + 1 < p.length ∧
        pointerTarget (p.byteAt o) (p.byteAt (o + 1)) < p.length ∧
        parseNameFrom p rest (pointerTarget (p.byteAt o) (p.byteAt (o + 1))) labels
          (some (next.getD (o + 2))) (o :: seen) = .ok r) ∨
      (p.byteAt o = 0 ∧ r.2 = next.getD (o + 1)) ∨
      (p.byteAt o &&& 0xc0 = 0 ∧ p.byteAt o ≠ 0 ∧ ∃ label label',
        p.getRange (o + 1) (o + 1 + (p.byteAt o).toNat) = some label ∧
        normalizeLabel label = .ok label' ∧
        parseNameFrom p rest (o + 1 + (p.byteAt o).toNat) (labels ++ [label']) next (o :: seen) =
          .ok r)) := by
  cases rounds with
  | zero => cases h
  | succ rest =>
    rw [parseNameFrom] at h
    by_cases hseen : o ∈ seen
    · rw [if_pos hseen] at h
      cases h
    rw [if_neg hseen] at h
    obtain ⟨length, hlength, h⟩ := bind_eq_ok.mp h
    obtain ⟨hlt, rfl⟩ := getElem?_eq_byteAt (okOr_eq_ok.mp hlength)
    refine ⟨rest, rfl, hlt, ?_⟩
    split_ifs at h with hptr hodd hzero
    · obtain ⟨low, hlow, h⟩ := bind_eq_ok.mp h
      obtain ⟨hlt', rfl⟩ := getElem?_eq_byteAt (okOr_eq_ok.mp hlow)
      obtain ⟨_, htarget, h⟩ := bind_eq_ok.mp h
      exact .inl ⟨hptr, hlt', ensure_eq_ok.mp htarget, h⟩
    · cases h
    · obtain ⟨_, -, h⟩ := bind_eq_ok.mp h
      cases h
      exact .inr (.inl ⟨hzero, rfl⟩)
    · obtain ⟨label, hlabel, h⟩ := bind_eq_ok.mp h
      obtain ⟨label', hnorm, h⟩ := bind_eq_ok.mp h
      exact .inr (.inr ⟨not_not.mp hodd, hzero, label, label', okOr_eq_ok.mp hlabel, hnorm, h⟩)

section Congruence

/-- A name is read off the bytes it looks at. -/
theorem parseNameFrom_congr (hlen : q.length = p.length) {rounds : ℕ} {labels : List Bytes}
    {next : Option ℕ} {seen : List ℕ} (hq : ∀ i, NameReads p o i → q.byteAt i = p.byteAt i) :
    parseNameFrom q rounds o labels next seen = parseNameFrom p rounds o labels next seen := by
  induction rounds generalizing o labels next seen with
  | zero => rfl
  | succ rounds ih =>
    rw [parseNameFrom, parseNameFrom, hlen, getElem?_congr hlen (hq o (.here o))]
    by_cases hseen : o ∈ seen
    · rw [if_pos hseen, if_pos hseen]
    rw [if_neg hseen, if_neg hseen]
    by_cases hlt : o < p.length
    swap
    · rw [getElem?_eq_ite, if_neg hlt]
      rfl
    rw [getElem?_eq_ite p o, if_pos hlt]
    simp only [okOr, bind_ok]
    by_cases hptr : p.byteAt o &&& 0xc0 = 0xc0
    · rw [if_pos hptr, if_pos hptr, getElem?_congr hlen (hq _ (.low hptr))]
      by_cases hlow : o + 1 < p.length
      · rw [getElem?_eq_ite p (o + 1), if_pos hlow]
        simp only [bind_ok, ih fun i hi => hq i (.jump hptr hi)]
      · rw [getElem?_eq_ite p (o + 1), if_neg hlow]
        rfl
    rw [if_neg hptr, if_neg hptr]
    by_cases hplain : p.byteAt o &&& 0xc0 = 0
    · rw [getRange_congr hlen fun i hi hi' => hq i (.char hplain (by omega) (by omega))]
      by_cases hzero : p.byteAt o = 0
      · simp only [hzero, if_true]
      · simp only [if_neg hzero, ih fun i hi => hq i (.next hplain hzero hi)]
    · rw [if_pos hplain, if_pos hplain]

theorem parseName_congr (hlen : q.length = p.length)
    (hq : ∀ i, NameReads p o i → q.byteAt i = p.byteAt i) : parseName q o = parseName p o :=
  parseNameFrom_congr hlen hq

end Congruence

section Lowering

theorem bytes_of_wordAt {n : ℕ} (h : (p.wordAt o).toNat = n) :
    (p.byteAt o).toNat = n / 256 ∧ (p.byteAt (o + 1)).toNat = n % 256 := by
  rw [wordAt, be16_toNat] at h
  have := (p.byteAt (o + 1)).toNat_lt
  omega

theorem OversizedOpt.type_bytes {fixed : ℕ} (h : OversizedOpt p fixed) :
    p.byteAt (fixed + 1) = 41 ∧ fixed < p.length := by
  have hlow : p.byteAt (fixed + 1) = 41 :=
    UInt8.toNat_inj.mp (bytes_of_wordAt (congrArg UInt16.toNat h.2.1)).2
  refine ⟨hlow, ?_⟩
  by_contra hlt
  rw [byteAt_of_le (by omega)] at hlow
  cases hlow

variable {n reach : ℕ}

theorem OversizedClass.lt_length (h : OversizedClass p i) (hend : RecordAt p n p.length) :
    i < p.length := by
  obtain ⟨fixed, hopt, hi⟩ := h
  have hle := hopt.end_le hend hopt.type_bytes.2
  omega

/-- The two bytes of a lowered class. -/
theorem Lowered.class_bytes {fixed : ℕ} (h : Lowered p reach q) (hopt : OversizedOpt p fixed)
    (hlt : fixed < reach) : q.byteAt (fixed + 2) = 4 ∧ q.byteAt (fixed + 3) = 0xd0 := by
  have hword := congrArg UInt16.toNat (h.lowered fixed hopt hlt)
  obtain ⟨hhigh, hlow⟩ := bytes_of_wordAt hword
  exact ⟨UInt8.toNat_inj.mp hhigh, UInt8.toNat_inj.mp hlow⟩

/-- A byte of a lowered class is no character of a label. -/
theorem normalizeLabel_lowered {stop : ℕ} {label label' : Bytes} (h : Lowered p reach q)
    (hi : OversizedClass p i) (hr : i < reach) (ho : o ≤ i) (hstop : i < stop)
    (hlabel : q.getRange o stop = some label) : normalizeLabel label ≠ .ok label' := by
  obtain ⟨⟨-, hlen⟩, rfl⟩ := getRange_eq_some.mp hlabel
  intro hok
  obtain ⟨_, hens, -⟩ := bind_eq_ok.mp hok
  have hall := (ensure_eq_ok.mp hens).2.2.2
  have hmem : q.byteAt i ∈ q.slice o stop := by
    have hbyte := byteAt_slice (p := q) (a := o) (b := stop) (i := i - o) (by omega)
    rw [show o + (i - o) = i by omega, byteAt_of_lt (by rw [length_slice hlen]; omega)] at hbyte
    rw [← hbyte]
    exact List.getElem_mem _
  have hchar := List.all_eq_true.mp hall _ hmem
  obtain ⟨fixed, hopt, rfl | rfl⟩ := hi
  · rw [(h.class_bytes hopt (by omega)).1] at hchar
    exact absurd hchar (by decide)
  · rw [(h.class_bytes hopt (by omega)).2] at hchar
    exact absurd hchar (by decide)

/-- A pointer whose low byte lies in a class lies there itself: its high byte is no byte
of the type. -/
theorem OversizedClass.of_low (h : OversizedClass p (o + 1)) (hptr : p.byteAt o &&& 0xc0 = 0xc0) :
    OversizedClass p o := by
  obtain ⟨fixed, hopt, hc | hc⟩ := h
  · obtain rfl : o = fixed + 1 := by omega
    rw [hopt.type_bytes.1] at hptr
    exact absurd hptr (by decide)
  · exact ⟨fixed, hopt, .inl (by omega)⟩

/-- A name cannot start in a lowered class. -/
theorem parseNameFrom_class {rounds : ℕ} {labels : List Bytes} {next : Option ℕ}
    {seen : List ℕ} {r : Bytes × ℕ} (h : Lowered p reach q) (hreach : RecordAt p n reach)
    (hlen : p.length ≤ dnsPayloadMax) (ho : OversizedClass p o) (hr : o < reach) :
    parseNameFrom q rounds o labels next seen ≠ .ok r := by
  intro hok
  obtain ⟨rest, -, -, hround⟩ := parseNameFrom_round hok
  obtain ⟨fixed, hopt, rfl | rfl⟩ := ho
  · -- a label of four bytes with the low byte of the class behind its length
    have hend := hopt.end_le hreach (by omega)
    rw [(h.class_bytes hopt (by omega)).1] at hround
    rcases hround with ⟨hptr, -⟩ | ⟨hzero, -⟩ | ⟨-, -, label, label', hlabel, hnorm, -⟩
    · exact absurd hptr (by decide)
    · exact absurd hzero (by decide)
    · exact normalizeLabel_lowered h ⟨fixed, hopt, .inr rfl⟩ (by omega) (by omega) (by simp) hlabel
        hnorm
  · -- a pointer behind the end of the message
    rw [(h.class_bytes hopt (by omega)).2] at hround
    rcases hround with ⟨-, -, htarget, -⟩ | ⟨hzero, -⟩ | ⟨hplain, -⟩
    · have hhigh : ((0xd0 : UInt8) &&& 0x3f).toNat = 16 := by decide
      rw [h.same.length, pointerTarget, hhigh] at htarget
      rw [dnsPayloadMax] at hlen
      omega
    · exact absurd hzero (by decide)
    · exact absurd hplain (by decide)

/-- A name that reads a byte of an oversized class no longer parses once that class is
lowered. -/
theorem NameReads.parse_lowered {rounds : ℕ} {labels : List Bytes} {next : Option ℕ}
    {seen : List ℕ} {r : Bytes × ℕ} (hread : NameReads p o i) (hi : OversizedClass p i)
    (hr : i < reach) (h : Lowered p reach q) (hreach : RecordAt p n reach)
    (hlen : p.length ≤ dnsPayloadMax) : parseNameFrom q rounds o labels next seen ≠ .ok r := by
  -- the place the name is at is either lowered itself or has its old byte
  have hplace : ∀ {o : ℕ}, (OversizedClass p o ∧ o < reach ∧ ∀ {rounds labels next seen},
      parseNameFrom q rounds o labels next seen ≠ .ok r) ∨
      (¬ (OversizedClass p o ∧ o < reach) ∧ q.byteAt o = p.byteAt o) := by
    intro o
    by_cases ho : OversizedClass p o ∧ o < reach
    · exact .inl ⟨ho.1, ho.2, parseNameFrom_class h hreach hlen ho.1 ho.2⟩
    · exact .inr ⟨ho, h.same.byte o ho⟩
  induction hread generalizing rounds labels next seen with
  | here => exact parseNameFrom_class h hreach hlen hi hr
  | @low o hptr =>
    obtain ⟨-, -, hfail⟩ | ⟨ho, -⟩ := @hplace o
    · exact hfail
    · exact absurd ⟨hi.of_low hptr, by omega⟩ ho
  | @jump o _ hptr _ ih =>
    obtain ⟨-, -, hfail⟩ | ⟨ho, hbyte⟩ := @hplace o
    · exact hfail
    intro hok
    obtain ⟨rest, -, -, hround⟩ := parseNameFrom_round hok
    rw [hbyte] at hround
    rcases hround with ⟨-, -, -, hround⟩ | ⟨hzero, -⟩ | ⟨hplain, -⟩
    · obtain ⟨hlow, hlt, -⟩ | ⟨-, hlow⟩ := @hplace (o + 1)
      · exact absurd ⟨hlow.of_low hptr, by omega⟩ ho
      · rw [hlow] at hround
        exact ih hi hr hround
    · exact absurd hzero (and_c0_cases hptr).2
    · exact absurd hplain (and_c0_cases hptr).1
  | @char o i hplain hlt hle =>
    obtain ⟨-, -, hfail⟩ | ⟨-, hbyte⟩ := @hplace o
    · exact hfail
    intro hok
    obtain ⟨rest, -, -, hround⟩ := parseNameFrom_round hok
    rw [hbyte] at hround
    rcases hround with ⟨hptr, -⟩ | ⟨hzero, -⟩ | ⟨-, -, label, label', hlabel, hnorm, -⟩
    · exact absurd hplain (and_c0_cases hptr).1
    · rw [hzero] at hle
      exact absurd hle (by simp; omega)
    · exact normalizeLabel_lowered h hi hr (by omega) (by omega) hlabel hnorm
  | @next o _ hplain hne _ ih =>
    obtain ⟨-, -, hfail⟩ | ⟨-, hbyte⟩ := @hplace o
    · exact hfail
    intro hok
    obtain ⟨rest, -, -, hround⟩ := parseNameFrom_round hok
    rw [hbyte] at hround
    rcases hround with ⟨hptr, -⟩ | ⟨hzero, -⟩ | ⟨-, -, label, label', -, -, hround⟩
    · exact absurd hplain (and_c0_cases hptr).1
    · exact absurd hzero hne
    · exact ih hi hr hround

end Lowering

section Messages

variable {n fixed stop start rounds count e : ℕ} {target : Option ℕ}

/-- A name of the message is read from `o` on: its question, or what an owner name
points to. -/
def NameOf (p : Bytes) (o : ℕ) : Prop :=
  o = 12 ∨ ∃ n owner fixed, n < recordsBefore p + (p.wordAt 10).toNat ∧ RecordAt p n owner ∧
    NameEnds p owner fixed (some o)

/-- No name of the message reads the CLASS of an oversized OPT record. -/
def NamesAvoidClasses (p : Bytes) : Prop :=
  ∀ o i, NameOf p o → NameReads p o i → ¬ OversizedClass p i

/-- The owner of an additional record points to a name that reads the CLASS of an oversized
OPT record in front of it. -/
def ReadsPassedClass (p : Bytes) : Prop :=
  ∃ n owner fixed t i, recordsBefore p ≤ n ∧ n < recordsBefore p + (p.wordAt 10).toNat ∧
    RecordAt p n owner ∧ NameEnds p owner fixed (some t) ∧ NameReads p t i ∧ OversizedClass p i ∧
    i < owner

/-- The oversized classes lie behind the questions. -/
theorem OversizedClass.behind (h : OversizedClass p i) (hrec : RecordAt p 0 o) : o < i := by
  obtain ⟨fixed, ⟨⟨n, o', target, -, -, hrec', hname⟩, -⟩, hi⟩ := h
  have hle := hrec.mono hrec' (Nat.zero_le n)
  have := hname.lt
  omega

/-- Of a record only the CLASS can be an oversized one. -/
theorem RecordAt.not_class (h : RecordAt p n o) (hname : NameEnds p o fixed target) (hi : o ≤ i)
    (hend : i < fixed + 10) (hclass : i < fixed + 2 ∨ fixed + 4 ≤ i) : ¬ OversizedClass p i := by
  rintro ⟨fixed', hopt, hc⟩
  have hplace := hopt.place h hname
  rw [recordEnd] at hplace
  omega

theorem skipNameFrom_congr (h : skipNameFrom p start rounds o = .ok e) (hlen : q.length = p.length)
    (hbytes : ∀ i, o ≤ i → i < e → q.byteAt i = p.byteAt i)
    (htarget : ∀ t, NameEnds p o e (some t) → parseName q t = parseName p t) :
    skipNameFrom q start rounds o = .ok e := by
  induction rounds generalizing o with
  | zero => cases h
  | succ rounds ih =>
    obtain ⟨target, hname⟩ := skipNameFrom_ends h
    have hlt := hname.lt
    have hhere := hbytes o le_rfl hlt
    rw [skipNameFrom] at h ⊢
    obtain ⟨length, hlength, h⟩ := bind_eq_ok.mp h
    rw [getElem?_congr hlen hhere, hlength, bind_ok, hlen]
    obtain ⟨hin, rfl⟩ := getElem?_eq_byteAt (okOr_eq_ok.mp hlength)
    split_ifs at h ⊢ with hptr hodd hzero
    · obtain ⟨_, hvalid, h⟩ := bind_eq_ok.mp h
      cases h
      obtain ⟨low, hlow, hvalid⟩ := bind_eq_ok.mp hvalid
      obtain ⟨hlt', rfl⟩ := getElem?_eq_byteAt (okOr_eq_ok.mp hlow)
      rw [index_ok hin, bind_ok] at hvalid
      rw [validateNamePointer, getElem?_congr hlen (hbytes _ (by omega) (by omega)), hlow, bind_ok,
        index_ok (hlen ▸ hin), bind_ok, hhere, htarget _ (.pointer hlt' hptr), hvalid]
      rfl
    · exact h
    · exact h
    · obtain ⟨_, hens, h⟩ := bind_eq_ok.mp h
      rw [hens, bind_ok]
      refine ih h (fun i hi => hbytes i (by omega)) fun t ht => ?_
      exact htarget t (.label hin (not_not.mp hodd) hzero ht)

/-- What a skipped name points to parses. -/
theorem skipNameFrom_target {t : ℕ} (h : skipNameFrom p start rounds o = .ok e)
    (ht : NameEnds p o e (some t)) : ∃ r, parseName p t = .ok r := by
  induction rounds generalizing o with
  | zero => cases h
  | succ rounds ih =>
    obtain ⟨length, hlength, h⟩ := bind_eq_ok.mp h
    obtain ⟨hin, rfl⟩ := getElem?_eq_byteAt (okOr_eq_ok.mp hlength)
    split_ifs at h with hptr hodd hzero
    · obtain ⟨_, hvalid, h⟩ := bind_eq_ok.mp h
      cases h
      obtain ⟨low, hlow, hvalid⟩ := bind_eq_ok.mp hvalid
      obtain ⟨hlt', rfl⟩ := getElem?_eq_byteAt (okOr_eq_ok.mp hlow)
      rw [index_ok hin, bind_ok] at hvalid
      obtain ⟨_, -, hvalid⟩ := bind_eq_ok.mp hvalid
      obtain ⟨r, hr, -⟩ := bind_eq_ok.mp hvalid
      cases (NameEnds.pointer hlt' hptr).unique ht |>.2
      exact ⟨r, hr⟩
    · cases h
    · cases h
      cases (NameEnds.root hin hzero).unique ht |>.2
    · obtain ⟨_, -, h⟩ := bind_eq_ok.mp h
      refine ih h ?_
      cases ht with
      | pointer _ hptr' => exact absurd hptr' hptr
      | label _ _ _ ht => exact ht

/-- `n` records in a row are skipped as the first ones and then the others. -/
theorem skipResourceRecords_append {count' : ℕ}
    (h : skipResourceRecords p (count + count') o = .ok e) :
    ∃ mid, skipResourceRecords p count o = .ok mid ∧ skipResourceRecords p count' mid = .ok e := by
  induction count generalizing o with
  | zero => exact ⟨o, rfl, by rwa [Nat.zero_add] at h⟩
  | succ count ih =>
    rw [Nat.succ_add] at h
    obtain ⟨next, hrecord, h⟩ := bind_eq_ok.mp h
    obtain ⟨mid, hmid, h⟩ := ih h
    exact ⟨mid, by rw [skipResourceRecords, hrecord, bind_ok, hmid], h⟩

theorem skipResourceRecord_eq_ok : skipResourceRecord p o = .ok e ↔
    ∃ fixed, skipName p o = .ok fixed ∧ fixed + 10 ≤ p.length ∧ recordEnd p fixed ≤ p.length ∧
      e = recordEnd p fixed := by
  constructor
  · intro h
    obtain ⟨fixed, hname, h⟩ := bind_eq_ok.mp h
    obtain ⟨rr, hrr, h⟩ := bind_eq_ok.mp h
    obtain ⟨⟨-, hroom⟩, rfl⟩ := getRange_eq_some.mp (okOr_eq_ok.mp hrr)
    obtain ⟨_, hens, h⟩ := bind_eq_ok.mp h
    rw [wordAt_slice (by omega)] at hens h
    cases h
    exact ⟨fixed, hname, hroom, ensure_eq_ok.mp hens, rfl⟩
  · rintro ⟨fixed, hname, hroom, hend, rfl⟩
    rw [skipResourceRecord, hname, bind_ok, getRange_some (by omega) hroom]
    rw [recordEnd] at hend
    simp only [okOr, bind_ok]
    rw [wordAt_slice (by omega), (ensure_eq_ok (u := ())).mpr hend]
    rfl

variable (hagree : SameExcept (OversizedClass p) p q)

include hagree

/-- A name whose pointer reads old bytes is skipped as before. -/
theorem skipName_agree (hrec : RecordAt p n o) (hname : skipName p o = .ok fixed)
    (hread : ∀ t i, NameEnds p o fixed (some t) → NameReads p t i → q.byteAt i = p.byteAt i) :
    skipName q o = .ok fixed := by
  obtain ⟨target, hends⟩ := skipNameFrom_ends hname
  refine skipNameFrom_congr hname hagree.length (fun i hi hlt => hagree.byte i ?_) fun t ht =>
    parseName_congr hagree.length fun i hi => hread t i ht hi
  exact hrec.not_class hends hi (by omega) (.inl (by omega))

theorem recordEnd_agree (hrec : RecordAt p n o) (hname : NameEnds p o fixed target) :
    recordEnd q fixed = recordEnd p fixed := by
  have hlt := hname.lt
  rw [recordEnd, recordEnd, hagree.wordAt]
  · exact hrec.not_class hname (by omega) (by omega) (.inr (by omega))
  · exact hrec.not_class hname (by omega) (by omega) (.inr (by omega))

theorem skipResourceRecords_agree (havoid : NamesAvoidClasses p) (hrec : RecordAt p n o)
    (hn : n + count ≤ recordsBefore p + (p.wordAt 10).toNat)
    (h : skipResourceRecords p count o = .ok e) : skipResourceRecords q count o = .ok e := by
  induction count generalizing n o with
  | zero => exact h
  | succ count ih =>
    obtain ⟨next, hrecord, h⟩ := bind_eq_ok.mp h
    obtain ⟨fixed, hname, hroom, hend, rfl⟩ := skipResourceRecord_eq_ok.mp hrecord
    obtain ⟨target, hends⟩ := skipNameFrom_ends hname
    have hsame := recordEnd_agree hagree hrec hends
    have hname' := skipName_agree hagree hrec hname fun t i ht hi =>
      hagree.byte i (havoid t i (.inr ⟨n, o, fixed, by omega, hrec, ht⟩) hi)
    have hrecord' : skipResourceRecord q o = .ok (recordEnd p fixed) :=
      skipResourceRecord_eq_ok.mpr
        ⟨fixed, hname', by rwa [hagree.length], by rwa [hsame, hagree.length], hsame.symm⟩
    rw [skipResourceRecords, hrecord', bind_ok]
    exact ih (hrec.next hends) (by omega) h

omit hagree in
/-- A record takes at least eleven bytes. -/
theorem Records.length_le (h : Records p n o stop) : o + 11 * n ≤ stop := by
  induction h with
  | nil => omega
  | cons hname _ ih =>
    have := hname.lt
    rw [recordEnd] at ih
    omega

/-- The walk over the records finds them at their old places. -/
theorem Records.agree {m : ℕ} (h : Records p n o stop) (hrec : RecordAt p m o) :
    Records q n o stop := by
  induction h generalizing m with
  | nil o => exact .nil o
  | cons hname _ ih =>
    have hname' := hname.congr hagree.length fun i hi hlt =>
      hagree.byte i (hrec.not_class hname hi (by omega) (.inl (by omega)))
    refine .cons hname' ?_
    rw [recordEnd_agree hagree hrec hname]
    exact ih (hrec.next hname)

end Messages

section Validation

variable {response : Bool} {question : DnsQuestion}

/-- What is checked of a message. -/
structure Validated (p : Bytes) (response : Bool) (question : DnsQuestion) : Prop where
  header : 12 ≤ p.length
  direction : p.wordAt 2 &&& 0x8000 ≠ 0 ↔ response = true
  opcode : p.wordAt 2 &&& 0x7800 = 0
  fields : parseQuestionFields p = .ok question
  records : ∃ a, skipName p 12 = .ok a ∧
    skipResourceRecords p (recordsBefore p + (p.wordAt 10).toNat) (a + 4) = .ok p.length

theorem toNat_saturatingAdd (a b : UInt16) :
    (saturatingAdd a b).toNat = min (a.toNat + b.toNat) 65535 := by
  rw [saturatingAdd, UInt16.toNat_ofNat_of_lt' ((min_le_right _ _).trans_lt (by decide))]

/-- The records that `validate_message` walks over. -/
def walkedRecords (p : Bytes) : ℕ :=
  (saturatingAdd (saturatingAdd (p.wordAt 6) (p.wordAt 8)) (p.wordAt 10)).toNat

theorem validateMessage_eq_ok : validateMessage p response = .ok question ↔
    12 ≤ p.length ∧ (p.wordAt 2 &&& 0x8000 ≠ 0 ↔ response = true) ∧ p.wordAt 2 &&& 0x7800 = 0 ∧
      parseQuestionFields p = .ok question ∧
      ∃ a, skipName p 12 = .ok a ∧
      skipResourceRecords p (walkedRecords p) (a + 4) = .ok p.length := by
  constructor
  · intro h
    obtain ⟨header, hheader, h⟩ := bind_eq_ok.mp h
    obtain ⟨⟨-, h12⟩, rfl⟩ := getRange_eq_some.mp (okOr_eq_ok.mp hheader)
    obtain ⟨_, hdir, h⟩ := bind_eq_ok.mp h
    obtain ⟨_, hop, h⟩ := bind_eq_ok.mp h
    obtain ⟨question', hfields, h⟩ := bind_eq_ok.mp h
    obtain ⟨a, ha, h⟩ := bind_eq_ok.mp h
    obtain ⟨stop, hstop, h⟩ := bind_eq_ok.mp h
    obtain ⟨_, hend, h⟩ := bind_eq_ok.mp h
    cases h
    rw [ensure_eq_ok, wordAt_slice (by omega), Nat.zero_add] at hdir hop
    rw [wordAt_slice (by omega), wordAt_slice (by omega), wordAt_slice (by omega),
      ensure_eq_ok.mp hend] at hstop
    simp only [Nat.zero_add] at hstop
    exact ⟨h12, hdir, hop, hfields, a, ha, hstop⟩
  · rintro ⟨h12, hdir, hop, hfields, a, ha, hstop⟩
    rw [validateMessage, getRange_some (Nat.zero_le _) h12]
    simp only [okOr, bind_ok]
    rw [wordAt_slice (by omega), wordAt_slice (by omega), wordAt_slice (by omega),
      wordAt_slice (by omega)]
    simp only [Nat.zero_add]
    rw [(ensure_eq_ok (u := ())).mpr hdir, bind_ok, (ensure_eq_ok (u := ())).mpr hop, bind_ok,
      hfields, bind_ok, ha, bind_ok, ← walkedRecords, hstop, bind_ok,
      (ensure_eq_ok (u := ())).mpr rfl, bind_ok]
    rfl

/-- Messages of admissible size have too few records for their count to saturate. -/
theorem validateMessage_iff (hlen : p.length ≤ dnsPayloadMax) :
    validateMessage p response = .ok question ↔ Validated p response question := by
  have hcount : ∀ {count o : ℕ}, skipResourceRecords p count o = .ok p.length → count ≤ 112 := by
    intro count o h
    have := (skipResourceRecords_ends h).length_le
    rw [dnsPayloadMax] at hlen
    omega
  have htotal : ∀ o, skipResourceRecords p (walkedRecords p) o = .ok p.length ↔
      skipResourceRecords p (recordsBefore p + (p.wordAt 10).toNat) o = .ok p.length := by
    intro o
    rw [walkedRecords, toNat_saturatingAdd, ← recordsBefore]
    constructor <;> intro h
    · have := hcount h
      rwa [min_eq_left (by omega)] at h
    · have := hcount h
      rwa [min_eq_left (by omega)]
  simp only [validateMessage_eq_ok, htotal]
  exact ⟨fun ⟨h12, hdir, hop, hfields, hrecords⟩ => ⟨h12, hdir, hop, hfields, hrecords⟩,
    fun h => ⟨h.header, h.direction, h.opcode, h.fields, h.records⟩⟩

/-- A name that is read to its end ends in place. -/
theorem parseNameFrom_ends {rounds : ℕ} {labels : List Bytes} {next : Option ℕ} {seen : List ℕ}
    {r : Bytes × ℕ} (h : parseNameFrom p rounds o labels next seen = .ok r) :
    (∀ stop, next = some stop → r.2 = stop) ∧
      (next = none → ∃ target, NameEnds p o r.2 target) := by
  induction rounds generalizing o labels next seen with
  | zero => cases h
  | succ rounds ih =>
    obtain ⟨rest, hrest, hlt, hround⟩ := parseNameFrom_round h
    cases hrest
    rcases hround with ⟨hptr, hlt', -, hround⟩ | ⟨hzero, hr⟩ |
      ⟨hplain, hne, label, label', -, -, hround⟩
    · have hstop := (ih hround).1 _ rfl
      rw [hstop]
      refine ⟨fun stop hnext => by rw [hnext]; rfl, fun hnext => ?_⟩
      rw [hnext]
      exact ⟨_, .pointer hlt' hptr⟩
    · rw [hr]
      refine ⟨fun stop hnext => by rw [hnext]; rfl, fun hnext => ?_⟩
      rw [hnext]
      exact ⟨_, .root hlt hzero⟩
    · refine ⟨(ih hround).1, fun hnext => ?_⟩
      obtain ⟨target, hends⟩ := (ih hround).2 hnext
      exact ⟨target, .label hlt hplain hne hends⟩

theorem parseQuestionFields_eq_ok : parseQuestionFields p = .ok question ↔
    12 ≤ p.length ∧ p.wordAt 4 = 1 ∧ ∃ stop, parseName p 12 = .ok (question.qname, stop) ∧
      stop + 4 ≤ p.length ∧ question.qtype = p.wordAt stop ∧
      question.qclass = p.wordAt (stop + 2) := by
  constructor
  · intro h
    obtain ⟨header, hheader, h⟩ := bind_eq_ok.mp h
    obtain ⟨⟨-, h12⟩, rfl⟩ := getRange_eq_some.mp (okOr_eq_ok.mp hheader)
    obtain ⟨_, hcount, h⟩ := bind_eq_ok.mp h
    obtain ⟨⟨qname, stop⟩, hname, h⟩ := bind_eq_ok.mp h
    obtain ⟨fields, hfields, h⟩ := bind_eq_ok.mp h
    obtain ⟨⟨-, hstop⟩, rfl⟩ := getRange_eq_some.mp (okOr_eq_ok.mp hfields)
    cases h
    rw [ensure_eq_ok, wordAt_slice (by omega)] at hcount
    exact ⟨h12, hcount, stop, hname, hstop, wordAt_slice (by omega), wordAt_slice (by omega)⟩
  · rintro ⟨h12, hcount, stop, hname, hstop, htype, hclass⟩
    rw [parseQuestionFields, getRange_some (Nat.zero_le _) h12]
    simp only [okOr, bind_ok]
    rw [wordAt_slice (by omega), Nat.zero_add, (ensure_eq_ok (u := ())).mpr hcount, bind_ok, hname,
      bind_ok]
    dsimp only
    rw [getRange_some (by omega) hstop]
    simp only [bind_ok]
    rw [wordAt_slice (by omega), wordAt_slice (by omega), Nat.add_zero, ← htype, ← hclass]
    rfl

/-- The records of a message start behind its one question. -/
theorem Validated.recordAt (h : Validated p response question) {a : ℕ}
    (ha : skipName p 12 = .ok a) : RecordAt p 0 (a + 4) := by
  obtain ⟨target, hends⟩ := skipNameFrom_ends ha
  obtain ⟨-, hcount, -⟩ := parseQuestionFields_eq_ok.mp h.fields
  refine ⟨a + 4, ?_, .nil _⟩
  rw [hcount]
  exact .cons hends (.nil _)

variable (hagree : SameExcept (OversizedClass p) p q)

include hagree

/-- Nothing in front of the records is written. -/
theorem SameExcept.front (hrec : RecordAt p 0 o) (hi : i < o) : q.byteAt i = p.byteAt i :=
  hagree.byte i fun hc => by
    have := hc.behind hrec
    omega

/-- A message whose names keep off the classes validates as before. -/
theorem Validated.agree (h : Validated p response question) (havoid : NamesAvoidClasses p) :
    Validated q response question := by
  obtain ⟨a, ha, hrecords⟩ := h.records
  have hrec := h.recordAt ha
  obtain ⟨target, hends⟩ := skipNameFrom_ends ha
  have hlt := hends.lt
  have hword : ∀ i, i + 1 < a + 4 → q.wordAt i = p.wordAt i := fun i hi =>
    wordAt_congr (SameExcept.front hagree hrec (by omega)) (SameExcept.front hagree hrec hi)
  obtain ⟨h12, hcount, stop, hname, hstop, htype, hclass⟩ := parseQuestionFields_eq_ok.mp h.fields
  obtain ⟨target', hends'⟩ := (parseNameFrom_ends hname).2 rfl
  obtain rfl : stop = a := (hends.unique hends').1
  have hname' : parseName q 12 = parseName p 12 := parseName_congr hagree.length fun i hi =>
    hagree.byte i (havoid 12 i (.inl rfl) hi)
  refine ⟨by rw [hagree.length]; exact h12, ?_, ?_, parseQuestionFields_eq_ok.mpr ?_, stop, ?_, ?_⟩
  · rw [hword 2 (by omega)]
    exact h.direction
  · rw [hword 2 (by omega)]
    exact h.opcode
  · rw [hagree.length, hword 4 (by omega), hname']
    refine ⟨h12, hcount, stop, hname, hstop, ?_, ?_⟩
    · rw [htype, hword stop (by omega)]
    · rw [hclass, hword (stop + 2) (by omega)]
  · refine skipNameFrom_congr ha hagree.length
      (fun i hi hlt => SameExcept.front hagree hrec (by omega)) fun t ht => ?_
    exact parseName_congr hagree.length fun i hi =>
      hagree.byte i (havoid 12 i (.inl rfl) (ht.reads hi))
  · rw [recordsBefore, hword 6 (by omega), hword 8 (by omega), hword 10 (by omega), hagree.length,
      ← recordsBefore]
    exact skipResourceRecords_agree hagree havoid hrec (by omega) hrecords

omit hagree

theorem Lowered.agree {reach : ℕ} (h : Lowered p reach q) : SameExcept (OversizedClass p) p q :=
  h.same.mono fun _ hc => hc.1

/-- One round of the clamp, at a record that parses. -/
theorem clampAdditional_succ {count fixed : ℕ} (clamped : Bool) (hname : skipName q o = .ok fixed)
    (hroom : fixed + 10 ≤ q.length) (hend : recordEnd q fixed ≤ q.length) :
    (clampAdditional (count + 1) o clamped).run q =
      let lower := decide (q.wordAt fixed = 41 ∧ .ofNat dnsPayloadMax < q.wordAt (fixed + 2))
      (clampAdditional count (recordEnd q fixed) (clamped || lower)).run
        (lowerAt lower fixed q) := by
  rw [clampAdditional, Act.bind_of_ok (Act.run_get q)]
  rw [Act.bind_of_ok (show (Act.call (skipName q o)).run q = (.ok fixed, q) by
    rw [Act.run_call, hname])]
  rw [getRange_some (by omega) hroom]
  rw [Act.bind_of_ok (show (Act.call (okOr (some _) _)).run q = (.ok _, q) from rfl)]
  rw [wordAt_slice (by omega), wordAt_slice (by omega), wordAt_slice (by omega)]
  dsimp only
  rw [Act.bind_of_ok (lowerClass_run hroom), ← recordEnd]
  rw [Act.bind_of_ok (show (Act.call (ensure _ _)).run _ = (.ok (), _) by
    rw [Act.run_call, (ensure_eq_ok (u := ())).mpr hend])]
  rfl

/-- The clamp gets through records whose names keep off the classes it has passed. -/
theorem clampAdditional_run {n count e : ℕ} (havoid : ¬ ReadsPassedClass p)
    (hbefore : recordsBefore p ≤ n) (hn : n + count = recordsBefore p + (p.wordAt 10).toNat)
    (hrec : RecordAt p n o) (h : skipResourceRecords p count o = .ok e) (hs : Lowered p o q)
    (clamped : Bool) : ∃ b q', (clampAdditional count o clamped).run q = (.ok (b, e), q') := by
  induction count generalizing n o q clamped with
  | zero =>
    cases h
    exact ⟨clamped, q, rfl⟩
  | succ count ih =>
    obtain ⟨next, hrecord, h⟩ := bind_eq_ok.mp h
    obtain ⟨fixed, hname, hroom, hend, rfl⟩ := skipResourceRecord_eq_ok.mp hrecord
    obtain ⟨target, hends⟩ := skipNameFrom_ends hname
    have hlt := hends.lt
    have hname' := skipName_agree hs.agree hrec hname fun t i ht hi => hs.same.byte i fun hc =>
      havoid ⟨n, o, fixed, t, i, hbefore, by omega, hrec, ht, hi, hc⟩
    have hroom' : fixed + 10 ≤ q.length := by rwa [hs.same.length]
    have hsame := recordEnd_agree hs.agree hrec hends
    have hopt := hs.lower_iff hbefore (by omega) hrec hends
    rw [wordAt_slice (by omega), wordAt_slice (by omega)] at hopt
    have hnext := hs.step hrec hends hroom hopt
    rw [clampAdditional_succ clamped hname' hroom' (by rwa [hsame, hs.same.length]), hsame]
    exact ih (by omega) (by omega) (hrec.next hends) h hnext _

theorem Validated.clamp_ok (h : Validated p response question) (havoid : ¬ ReadsPassedClass p) :
    ∃ b q, clampEdnsUdpPayload.run p = (.ok b, q) := by
  obtain ⟨a, ha, hrecords⟩ := h.records
  have hrec := h.recordAt ha
  obtain ⟨-, hcount, stop, hname, hstop, -⟩ := parseQuestionFields_eq_ok.mp h.fields
  obtain ⟨target, hends⟩ := skipNameFrom_ends ha
  obtain ⟨target', hends'⟩ := (parseNameFrom_ends hname).2 rfl
  obtain rfl : stop = a := (hends.unique hends').1
  obtain ⟨mid, hbefore, hadditional⟩ := skipResourceRecords_append hrecords
  have hmid : RecordAt p (recordsBefore p) mid := by
    obtain ⟨c, hq, hnil⟩ := hrec
    cases hnil
    exact ⟨_, hq, skipResourceRecords_ends hbefore⟩
  have hstart : Lowered p mid p := by
    refine ⟨.refl _ _, fun fixed hopt hlt => ?_⟩
    obtain ⟨⟨n, o, target, hn, -, hrec', hname'⟩, -⟩ := hopt
    have hle := hmid.mono hrec' hn
    have := hname'.lt
    omega
  obtain ⟨b, q, hrun⟩ := clampAdditional_run havoid le_rfl rfl hmid hadditional hstart false
  have hquestion : skipQuestions p (p.wordAt 4).toNat 12 = .ok (stop + 4) := by
    rw [hcount]
    change (skipName p 12 >>= fun offset => _) = _
    rw [ha, bind_ok, (ensure_eq_ok (u := ())).mpr hstop]
    rfl
  refine ⟨b, q, ?_⟩
  rw [clampEdnsUdpPayload, Act.bind_of_ok (Act.run_get p), getRange_some (Nat.zero_le _) h.header]
  rw [Act.bind_of_ok (show (Act.call (okOr (some _) _)).run p = (.ok _, p) from rfl)]
  rw [wordAt_slice (by omega), wordAt_slice (by omega), wordAt_slice (by omega),
    wordAt_slice (by omega)]
  simp only [Nat.zero_add]
  rw [Act.bind_of_ok (show (Act.call (skipQuestions p _ 12)).run p = (.ok _, p) by
    rw [Act.run_call, hquestion])]
  rw [Act.bind_of_ok (show (Act.call (skipResourceRecords p _ _)).run p = (.ok mid, p) by
    rw [Act.run_call, ← recordsBefore, hbefore])]
  rw [Act.bind_of_ok hrun]
  dsimp only
  rw [Act.bind_of_ok (show (Act.call (ensure _ _)).run q = (.ok (), q) by
    rw [Act.run_call, (ensure_eq_ok (u := ())).mpr rfl])]
  rfl

/-- The clamp gives up exactly if an additional record reads a class it has passed. -/
theorem Validated.clamp_fails_iff (h : Validated p response question)
    (hlen : p.length ≤ dnsPayloadMax) :
    (∃ e s, clampEdnsUdpPayload.run p = (fail e, s)) ↔ ReadsPassedClass p := by
  constructor
  · rintro ⟨e, s, hfail⟩
    by_contra havoid
    obtain ⟨b, q, hok⟩ := h.clamp_ok havoid
    cases hok.symm.trans hfail
  · rintro ⟨n, owner, fixed, t, i, hn, hn', hrec, hname, hread, hi, hlt⟩
    have hclamp := clampEdnsUdpPayload_length _ p rfl
    rcases hrun : clampEdnsUdpPayload.run p with ⟨(e | _) | b, s⟩ <;> rw [hrun] at hclamp
    · exact ⟨e, s, rfl⟩
    · exact hclamp.elim
    · obtain ⟨q, fixed', hl, hskip⟩ := (clampEdnsUdpPayload_clamped hrun).2.2 n owner hn hn' hrec
      have hname' := hname.congr hl.same.length fun i hi hstop =>
        hl.agree.byte i (hrec.not_class hname hi (by omega) (.inl (by omega)))
      obtain ⟨_, hends⟩ := skipNameFrom_ends hskip
      obtain ⟨rfl, -⟩ := hends.unique hname'
      obtain ⟨r, hr⟩ := skipNameFrom_target hskip hname'
      exact absurd hr (hread.parse_lowered hi hlt hl hrec hlen)

theorem NamesAvoidClasses.not_reads (h : NamesAvoidClasses p) : ¬ ReadsPassedClass p :=
  fun ⟨n, owner, fixed, t, i, _, hn, hrec, hname, hread, hi, _⟩ =>
    h t i (.inr ⟨n, owner, fixed, hn, hrec, hname⟩) hread hi

/-- A message that still validates after the clamp has no name that reads a lowered
class. -/
theorem Validated.avoids {response' : Bool} {question' : DnsQuestion} {n : ℕ}
    (h : Validated p response question) (hlen : p.length ≤ dnsPayloadMax)
    (hl : Lowered p p.length q) (hend : RecordAt p n p.length)
    (h' : Validated q response' question') : NamesAvoidClasses p := by
  intro o i hname hread hi
  have hfail : ∀ r, parseName q o ≠ .ok r := fun r =>
    hread.parse_lowered hi (hi.lt_length hend) hl hend hlen
  have hagree := hl.agree
  obtain ⟨a, ha, -⟩ := h.records
  obtain ⟨a', ha', hrecords⟩ := h'.records
  have hrec := h.recordAt ha
  obtain ⟨target, hends⟩ := skipNameFrom_ends ha
  have hlt := hends.lt
  have hword : ∀ i, i + 1 < a + 4 → q.wordAt i = p.wordAt i := fun i hi =>
    wordAt_congr (SameExcept.front hagree hrec (by omega)) (SameExcept.front hagree hrec hi)
  rcases hname with rfl | ⟨n, owner, fixed, hn, howner, hpoints⟩
  · obtain ⟨-, -, stop, hparse, -⟩ := parseQuestionFields_eq_ok.mp h'.fields
    exact hfail _ hparse
  · -- both walks get to the owner name
    obtain ⟨target', hends'⟩ := skipNameFrom_ends ha'
    obtain rfl : a = a' := (hends'.unique (hends.congr hagree.length fun i hi hlt =>
      SameExcept.front hagree hrec (by omega))).1
    rw [recordsBefore, hword 6 (by omega), hword 8 (by omega), hword 10 (by omega),
      ← recordsBefore, show recordsBefore p + (p.wordAt 10).toNat =
        n + (recordsBefore p + (p.wordAt 10).toNat - n - 1 + 1) by omega] at hrecords
    obtain ⟨mid, hmid, hrecords⟩ := skipResourceRecords_append hrecords
    obtain ⟨c, hq, hwalk⟩ := howner
    obtain ⟨c', hq', hnil⟩ := hrec
    cases hnil
    cases hq'.unique hq
    obtain rfl : mid = owner :=
      (hwalk.agree hagree ⟨_, hq, .nil _⟩).unique (skipResourceRecords_ends hmid)
    obtain ⟨next, hrecord, -⟩ := bind_eq_ok.mp hrecords
    obtain ⟨fixed', hskip, -⟩ := skipResourceRecord_eq_ok.mp hrecord
    have howner : RecordAt p n mid := ⟨_, hq, hwalk⟩
    have hpoints' := hpoints.congr hagree.length fun i hi hlt =>
      hagree.byte i (howner.not_class hpoints hi (by omega) (.inl (by omega)))
    obtain ⟨target'', hends''⟩ := skipNameFrom_ends hskip
    obtain ⟨rfl, -⟩ := hends''.unique hpoints'
    obtain ⟨r, hr⟩ := skipNameFrom_target hskip hpoints'
    exact hfail r hr

end Validation

end NewProxy.Dns
