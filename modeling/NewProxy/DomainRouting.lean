import NewProxy.ByteFields
import NewProxy.DnsNames
import NewProxy.Domains

/-!
# Routing by domain

A name in its plain wire form is read back as its labels in lower case, so a query goes
to the remote resolver exactly if the labels of some rule end its name.
-/
namespace NewProxy.Dns

open Outcome Bytes Text

variable {labels : List Bytes} {question : DnsQuestion}

section Wire

/-- A label behind its length. -/
def wireLabel (label : Bytes) : Bytes := .ofNat label.length :: label

/-- A name without compression. -/
def wireName (labels : List Bytes) : Bytes := labels.flatMap wireLabel ++ [0]

theorem wireName_cons (label : Bytes) (labels : List Bytes) :
    wireName (label :: labels) = wireLabel label ++ wireName labels := by
  rw [wireName, List.flatMap_cons, List.append_assoc, wireName]

theorem getElem?_append_cons (front rest : Bytes) (b : UInt8) :
    (front ++ b :: rest)[front.length]? = some b := by
  rw [List.getElem?_append_right le_rfl, Nat.sub_self]
  rfl

theorem getRange_append (front middle rest : Bytes) :
    getRange (front ++ (middle ++ rest)) front.length (front.length + middle.length) =
      some middle := by
  rw [getRange_some (Nat.le_add_right _ _) (by simp only [List.length_append]; omega), slice,
    ← List.append_assoc, List.take_left' (List.length_append ..), List.drop_left' rfl]

/-- The length byte of a label is no pointer. -/
theorem wireLabel_plain {n : ℕ} (h : n ≤ 63) :
    (UInt8.ofNat n).toNat = n ∧ UInt8.ofNat n &&& 0xc0 = 0 := by
  have hall : ∀ n < 64, (UInt8.ofNat n).toNat = n ∧ UInt8.ofNat n &&& 0xc0 = 0 := by decide
  exact hall n (by omega)

/-- The bytes at a label: its length, its text, and the rest of the name behind it. -/
theorem wireName_step {label : Bytes} (hlabel : IsLabel label) (labels : List Bytes)
    (front rest : Bytes) :
    let message := front ++ (wireName (label :: labels) ++ rest)
    message[front.length]? = some (.ofNat label.length) ∧ UInt8.ofNat label.length ≠ 0 ∧
      message.getRange (front.length + 1) (front.length + 1 + label.length) = some label ∧
      message = (front ++ wireLabel label) ++ (wireName labels ++ rest) ∧
      (front ++ wireLabel label).length = front.length + 1 + label.length := by
  have hnat := (wireLabel_plain hlabel.length).1
  have htext : front ++ (wireName (label :: labels) ++ rest) =
      (front ++ [UInt8.ofNat label.length]) ++ (label ++ (wireName labels ++ rest)) := by
    simp only [wireName_cons, wireLabel, List.append_assoc, List.cons_append, List.nil_append]
  have hrange :=
    getRange_append (front ++ [UInt8.ofNat label.length]) label (wireName labels ++ rest)
  rw [← htext, List.length_append, List.length_singleton] at hrange
  refine ⟨?_, fun hzero => ?_, hrange, ?_, ?_⟩
  · rw [htext, List.append_assoc]
    exact getElem?_append_cons _ _ _
  · rw [hzero] at hnat
    exact hlabel.ne_nil (List.length_eq_zero_iff.mp hnat.symm)
  · rw [wireName_cons, List.append_assoc, List.append_assoc]
  · rw [List.length_append, wireLabel, List.length_cons]
    omega

theorem length_wireName_cons (label : Bytes) (labels : List Bytes) :
    (wireName (label :: labels)).length = 1 + label.length + (wireName labels).length := by
  rw [wireName_cons, List.length_append, wireLabel, List.length_cons, Nat.add_comm label.length]

/-- Reading a name from the label it has come to. -/
theorem parseNameFrom_wireName {rounds : ℕ} (hrounds : labels.length < rounds)
    (hlabels : ∀ label ∈ labels, IsLabel label) (done : List Bytes) (hne : done ++ labels ≠ [])
    (seen : List ℕ) (front rest : Bytes) (hseen : ∀ o ∈ seen, o < front.length) :
    parseNameFrom (front ++ (wireName labels ++ rest)) rounds front.length done none seen =
      .ok (joinLabels (done ++ labels.map (List.map toAsciiLowercase)),
        front.length + (wireName labels).length) := by
  induction labels generalizing rounds done seen front with
  | nil =>
    obtain ⟨rounds, rfl⟩ := Nat.exists_eq_succ_of_ne_zero (Nat.ne_of_gt hrounds)
    rw [List.append_nil] at hne
    have hfresh : front.length ∉ seen := fun h => absurd (hseen _ h) (lt_irrefl _)
    rw [parseNameFrom, if_neg hfresh]
    simp only [wireName, List.flatMap_nil, List.nil_append, List.singleton_append,
      getElem?_append_cons, okOr, bind_ok]
    rw [if_neg (by decide), if_neg (by decide), if_pos trivial, ensure, if_pos hne, List.map_nil,
      List.append_nil]
    rfl
  | cons label labels ih =>
    obtain ⟨rounds, rfl⟩ := Nat.exists_eq_succ_of_ne_zero (Nat.ne_of_gt (Nat.zero_lt_of_lt hrounds))
    have hlabel := hlabels label List.mem_cons_self
    obtain ⟨hnat, hplain⟩ := wireLabel_plain hlabel.length
    obtain ⟨hbyte, hpos, hrange, hnext, hfront⟩ := wireName_step hlabel labels front rest
    have hfresh : front.length ∉ seen := fun h => absurd (hseen _ h) (lt_irrefl _)
    have hseen' : ∀ o ∈ front.length :: seen, o < (front ++ wireLabel label).length := by
      intro o ho
      rw [hfront]
      rcases List.mem_cons.mp ho with rfl | ho
      · omega
      · have := hseen o ho
        omega
    have hrest := ih (Nat.lt_of_succ_lt_succ hrounds)
      (fun l hl => hlabels l (List.mem_cons_of_mem _ hl)) (done ++ [label.map toAsciiLowercase])
      (by simp) (front.length :: seen) (front ++ wireLabel label) hseen'
    rw [← hnext, hfront] at hrest
    rw [parseNameFrom, if_neg hfresh, hbyte]
    simp only [okOr, bind_ok]
    rw [hplain, if_neg (by decide), if_neg (by simp), if_neg hpos, hnat, hrange]
    simp only [bind_ok, normalizeLabel_ok hlabel]
    rw [hrest, List.append_assoc, length_wireName_cons, List.map_cons, List.singleton_append,
      Nat.add_assoc, Nat.add_assoc, Nat.add_assoc]

theorem parseName_wireName (hne : labels ≠ []) (hcount : labels.length ≤ 127)
    (hlabels : ∀ label ∈ labels, IsLabel label) (front rest : Bytes) :
    parseName (front ++ (wireName labels ++ rest)) front.length =
      .ok (joinLabels (labels.map (List.map toAsciiLowercase)),
        front.length + (wireName labels).length) :=
  parseNameFrom_wireName (Nat.lt_succ_of_le hcount) hlabels [] hne [] front rest
    fun _ h => absurd h List.not_mem_nil

theorem skipNameFrom_wireName {rounds : ℕ} (hrounds : labels.length < rounds)
    (hlabels : ∀ label ∈ labels, IsLabel label) (start : ℕ) (front rest : Bytes) :
    skipNameFrom (front ++ (wireName labels ++ rest)) start rounds front.length =
      .ok (front.length + (wireName labels).length) := by
  induction labels generalizing rounds front with
  | nil =>
    obtain ⟨rounds, rfl⟩ := Nat.exists_eq_succ_of_ne_zero (Nat.ne_of_gt hrounds)
    rw [skipNameFrom]
    simp only [wireName, List.flatMap_nil, List.nil_append, List.singleton_append,
      getElem?_append_cons, okOr, bind_ok]
    rw [if_neg (by decide), if_neg (by decide), if_pos trivial]
    rfl
  | cons label labels ih =>
    obtain ⟨rounds, rfl⟩ := Nat.exists_eq_succ_of_ne_zero (Nat.ne_of_gt (Nat.zero_lt_of_lt hrounds))
    have hlabel := hlabels label List.mem_cons_self
    obtain ⟨hnat, hplain⟩ := wireLabel_plain hlabel.length
    obtain ⟨hbyte, hpos, hrange, hnext, hfront⟩ := wireName_step hlabel labels front rest
    have hroom := (getRange_eq_some.mp hrange).1.2
    have hrest := ih (Nat.lt_of_succ_lt_succ hrounds)
      (fun l hl => hlabels l (List.mem_cons_of_mem _ hl)) (front ++ wireLabel label)
    rw [← hnext, hfront] at hrest
    rw [skipNameFrom, hbyte]
    simp only [okOr, bind_ok]
    rw [hplain, if_neg (by decide), if_neg (by simp), if_neg hpos, hnat, ensure,
      if_pos hroom, bind_ok,
      hrest, length_wireName_cons, Nat.add_assoc, Nat.add_assoc, Nat.add_assoc]

end Wire

section Queries

variable {id flags qtype qclass : UInt16}

/-- A query with one question and no other records. -/
def queryMessage (id flags : UInt16) (labels : List Bytes) (qtype qclass : UInt16) : Bytes :=
  (be16Bytes id ++ be16Bytes flags ++ [0, 1, 0, 0, 0, 0, 0, 0]) ++
    (wireName labels ++ (be16Bytes qtype ++ be16Bytes qclass))

theorem has_append (front bs rest : Bytes) : Has (front ++ (bs ++ rest)) front.length bs := by
  intro i hi
  rw [byteAt, byteAt, List.getElem?_append_right (Nat.le_add_right _ _), Nat.add_sub_cancel_left,
    List.getElem?_append_left hi]

theorem wordAt_append (front rest : Bytes) {i : ℕ} (h : i + 1 < front.length) :
    wordAt (front ++ rest) i = front.wordAt i := by
  have hbyte : ∀ i < front.length, byteAt (front ++ rest) i = front.byteAt i := by
    intro i hi
    rw [byteAt, byteAt, List.getElem?_append_left hi]
  exact wordAt_congr (hbyte i (by omega)) (hbyte (i + 1) h)

/-- The words of the header. -/
theorem queryMessage_header (id : UInt16) (labels : List Bytes) (qtype qclass : UInt16)
    (hflags : flags &&& 0xf800 = 0) :
    let message := queryMessage id flags labels qtype qclass
    message.wordAt 2 &&& 0x8000 = 0 ∧ message.wordAt 2 &&& 0x7800 = 0 ∧ message.wordAt 4 = 1 ∧
      walkedRecords message = 0 := by
  let header : Bytes := be16Bytes id ++ be16Bytes flags ++ [0, 1, 0, 0, 0, 0, 0, 0]
  have hword : ∀ i, i + 1 < 12 →
      (queryMessage id flags labels qtype qclass).wordAt i = header.wordAt i :=
    fun i hi => wordAt_append header _ hi
  have hflag : header.wordAt 2 = flags := by
    have h : Has header 2 (be16Bytes flags) := by
      simpa [header] using has_append (be16Bytes id) (be16Bytes flags) [0, 1, 0, 0, 0, 0, 0, 0]
    exact h.wordAt
  have hcounts : ∀ i, i + 1 < 8 → header.wordAt (4 + i) = wordAt [0, 1, 0, 0, 0, 0, 0, 0] i := by
    intro i hi
    have h := has_append (be16Bytes id ++ be16Bytes flags) [0, 1, 0, 0, 0, 0, 0, 0] []
    rw [List.append_nil] at h
    rw [wordAt, wordAt]
    exact congrArg₂ be16 (h i (by simp only [List.length_cons, List.length_nil]; omega))
      (h (i + 1) (by simp only [List.length_cons, List.length_nil]; omega))
  refine ⟨?_, ?_, ?_, ?_⟩
  · rw [hword 2 (by decide), hflag, show (0x8000 : UInt16) = 0xf800 &&& 0x8000 from rfl,
      ← UInt16.and_assoc, hflags]
    rfl
  · rw [hword 2 (by decide), hflag, show (0x7800 : UInt16) = 0xf800 &&& 0x7800 from rfl,
      ← UInt16.and_assoc, hflags]
    rfl
  · rw [hword 4 (by decide), hcounts 0 (by decide)]
    decide
  · rw [walkedRecords, hword 6 (by decide), hword 8 (by decide), hword 10 (by decide),
      hcounts 2 (by decide), hcounts 4 (by decide), hcounts 6 (by decide)]
    decide

theorem validateQuery_queryMessage (hflags : flags &&& 0xf800 = 0) (hne : labels ≠ [])
    (hcount : labels.length ≤ 127) (hlabels : ∀ label ∈ labels, IsLabel label) :
    validateQuery (queryMessage id flags labels qtype qclass) =
      .ok ⟨joinLabels (labels.map (List.map toAsciiLowercase)), qtype, qclass⟩ := by
  let header : Bytes := be16Bytes id ++ be16Bytes flags ++ [0, 1, 0, 0, 0, 0, 0, 0]
  let message : Bytes := queryMessage id flags labels qtype qclass
  have hheader : header.length = 12 := rfl
  have hlen : message.length = 12 + (wireName labels).length + 4 := by
    simp only [message, queryMessage, List.length_append, length_be16Bytes, List.length_cons,
      List.length_nil]
    omega
  have htype : message.wordAt (12 + (wireName labels).length) = qtype := by
    have h := has_append (header ++ wireName labels) (be16Bytes qtype) (be16Bytes qclass)
    rw [List.append_assoc, List.length_append, hheader] at h
    exact h.wordAt
  have hclass : message.wordAt (12 + (wireName labels).length + 2) = qclass := by
    have h := has_append (header ++ wireName labels ++ be16Bytes qtype) (be16Bytes qclass) []
    rw [List.append_nil, List.append_assoc, List.append_assoc, List.length_append,
      List.length_append, hheader, length_be16Bytes] at h
    exact h.wordAt
  obtain ⟨hdir, hop, hone, hnone⟩ := queryMessage_header id labels qtype qclass hflags
  have hparse := parseName_wireName hne hcount hlabels header (be16Bytes qtype ++ be16Bytes qclass)
  have hskip := skipNameFrom_wireName (Nat.lt_succ_of_le hcount) hlabels 12 header
    (be16Bytes qtype ++ be16Bytes qclass)
  rw [hheader] at hparse hskip
  have hroom : 12 ≤ message.length := by omega
  have hstop : 12 + (wireName labels).length + 4 ≤ message.length := by omega
  refine validateMessage_eq_ok.mpr ⟨hroom, ?_, hop, parseQuestionFields_eq_ok.mpr ⟨hroom, hone, _,
    hparse, hstop, htype.symm, hclass.symm⟩, _, hskip, ?_⟩
  · rw [hdir]
    decide
  · rw [hnone]
    exact congrArg Except.ok hlen.symm

theorem lowercase_no_dot (hlabels : ∀ label ∈ labels, IsLabel label) :
    ∀ label ∈ labels.map (List.map toAsciiLowercase), 46 ∉ label := by
  intro label hl hdot
  obtain ⟨raw, hraw, rfl⟩ := List.mem_map.mp hl
  obtain ⟨b, hb, heq⟩ := List.mem_map.mp hdot
  have hval := congrArg UInt8.toNat heq
  rw [toAsciiLowercase_toNat] at hval
  change _ = 46 at hval
  obtain rfl : b = 46 := by
    refine UInt8.toNat_inj.mp ?_
    change _ = 46
    split_ifs at hval <;> omega
  exact (hlabels raw hraw).no_dot hb

theorem forall₂_mem {α β : Type} {R : α → β → Prop} {l : List α} {l' : List β}
    (h : List.Forall₂ R l l') : (∀ a ∈ l, ∃ b ∈ l', R a b) ∧ ∀ b ∈ l', ∃ a ∈ l, R a b := by
  induction h with
  | nil => simp
  | cons hab _ ih => simp_all

/-- The rules match a name exactly if the labels of one of them end it. -/
theorem matchesQname_labels {texts domains : List Text}
    (hrules : List.Forall₂ (fun text domain => normalizeDomain text = .ok domain) texts domains)
    (hne : labels ≠ []) (hlabels : ∀ label ∈ labels, IsLabel label) :
    (RemoteDomainRules.new (domains.map utf8)).matchesQname
        (joinLabels (labels.map (List.map toAsciiLowercase))) ↔
      ∃ text ∈ texts, (ruleLabels text).map (List.map toAsciiLowercase) <:+
        labels.map (List.map toAsciiLowercase) := by
  have hdomain : ∀ {text domain}, normalizeDomain text = .ok domain →
      (domainMatches (utf8 domain) (joinLabels (labels.map (List.map toAsciiLowercase))) ↔
        (ruleLabels text).map (List.map toAsciiLowercase) <:+
          labels.map (List.map toAsciiLowercase)) := by
    intro text domain h
    obtain ⟨hrule, hrne, hjoin, -⟩ := normalizeDomain_eq_ok h
    rw [hjoin]
    exact domainMatches_joinLabels (by simpa using hrne) (lowercase_no_dot hrule)
      (by simpa using hne) (lowercase_no_dot hlabels)
  simp only [matchesQname_iff, contains_new, List.mem_map]
  constructor
  · rintro ⟨_, ⟨domain, hmem, rfl⟩, hmatch⟩
    obtain ⟨text, htext, h⟩ := (forall₂_mem hrules).2 domain hmem
    exact ⟨text, htext, (hdomain h).mp hmatch⟩
  · rintro ⟨text, htext, hsuffix⟩
    obtain ⟨domain, hmem, h⟩ := (forall₂_mem hrules).1 text htext
    exact ⟨_, ⟨domain, hmem, rfl⟩, (hdomain h).mpr hsuffix⟩

/-- The resolver a query is routed to is decided by the labels of its name, the name of a
rule's own labels is the rule, and the set of rules decides as each rule does. -/
theorem domain_routing {ε : Type} :
    (∀ texts domains : List Text,
      List.Forall₂ (fun text domain => normalizeDomain text = .ok domain) texts domains →
      ∀ (id flags : UInt16) (labels : List Bytes) (qtype qclass : UInt16),
        flags &&& 0xf800 = 0 → labels ≠ [] → labels.length ≤ 127 →
        (∀ label ∈ labels, IsLabel label) →
        let question : DnsQuestion :=
          ⟨joinLabels (labels.map (List.map toAsciiLowercase)), qtype, qclass⟩
        (classifyQuery (queryMessage id flags labels qtype qclass)
            (RemoteDomainRules.new (domains.map utf8)) : Outcome ε DnsRoute) =
          .ok (if ∃ text ∈ texts, (ruleLabels text).map (List.map toAsciiLowercase) <:+
              labels.map (List.map toAsciiLowercase)
            then .remote question else .local question)) ∧
    (∀ text domain : Text, normalizeDomain text = .ok domain → ∀ front rest : Bytes,
      parseName (front ++ (wireName (ruleLabels text) ++ rest)) front.length =
        .ok (utf8 domain, front.length + (wireName (ruleLabels text)).length)) ∧
    ∀ (rules : RemoteDomainRules) (qname : Bytes), rules.matchesQname qname ↔
      ∃ rule, rules.suffixes.contains rule ∧ domainMatches rule qname := by
  refine ⟨fun texts domains hrules id flags labels qtype qclass hflags hne hcount hlabels => ?_,
    fun text domain h front rest => ?_, fun rules qname => matchesQname_iff⟩
  · rw [classifyQuery, validateQuery_queryMessage hflags hne hcount hlabels]
    simp only [attempt, bind_ok, matchesQname_labels hrules hne hlabels]
    split_ifs <;> rfl
  · obtain ⟨hlabels, hne, hjoin, -⟩ := normalizeDomain_eq_ok h
    rw [hjoin]
    exact parseName_wireName hne (length_ruleLabels h) hlabels front rest

/-- The rule ` A.bc. ` takes `X.a.BC` and leaves `xa.bc` alone. -/
theorem domain_routing_sample :
    let rule : Text := [' ', 'A', '.', 'b', 'c', '.', ' ']
    normalizeDomain rule = .ok ['a', '.', 'b', 'c'] ∧
      (classifyQuery (queryMessage 7 0x0100 [[88], [97], [66, 67]] 1 1)
          (RemoteDomainRules.new ([['a', '.', 'b', 'c']].map utf8)) : Outcome DnsError DnsRoute) =
        .ok (.remote ⟨[120, 46, 97, 46, 98, 99], 1, 1⟩) ∧
      (classifyQuery (queryMessage 7 0x0100 [[120, 97], [98, 99]] 1 1)
          (RemoteDomainRules.new ([['a', '.', 'b', 'c']].map utf8)) : Outcome DnsError DnsRoute) =
        .ok (.local ⟨[120, 97, 46, 98, 99], 1, 1⟩) ∧
      parseName (wireName (ruleLabels rule) ++ [5]) 0 = .ok ([97, 46, 98, 99], 6) := by
  intro rule
  have hrule : normalizeDomain rule = .ok ['a', '.', 'b', 'c'] := by decide +kernel
  have hrules : List.Forall₂ (fun text domain => normalizeDomain text = .ok domain) [rule]
      [['a', '.', 'b', 'c']] := .cons hrule .nil
  refine ⟨hrule, ?_, ?_, ?_⟩
  · exact (domain_routing.1 _ _ hrules 7 0x0100 [[88], [97], [66, 67]] 1 1 (by decide) (by decide)
      (by decide) (by decide +kernel)).trans (by decide +kernel)
  · exact (domain_routing.1 _ _ hrules 7 0x0100 [[120, 97], [98, 99]] 1 1 (by decide) (by decide)
      (by decide) (by decide +kernel)).trans (by decide +kernel)
  · exact ((domain_routing (ε := DnsError)).2.1 rule _ hrule [] [5]).trans (by decide +kernel)

end Queries

end NewProxy.Dns
