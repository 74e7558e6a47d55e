import NewProxy.Dns
import NewProxy.Text

/-!
# Domain rules

A rule is read from a line of text and kept as a lower-case name. Names and rules are
compared as texts, which comes to the same as comparing their labels.
-/
namespace NewProxy

namespace Text

/-- The bytes of a text in UTF-8. -/
def utf8 (text : Text) : Bytes := text.flatMap String.utf8EncodeChar

/-- `str::to_ascii_lowercase`. -/
def toAsciiLowercase (text : Text) : Text := text.map Char.toLower

/-- `strip_suffix('.')`, or the text itself. -/
def stripDot (text : Text) : Text :=
  if text.getLast? = some '.' then text.dropLast else text

theorem utf8_append (text text' : Text) : utf8 (text ++ text') = utf8 text ++ utf8 text' :=
  List.flatMap_append

theorem utf8_intercalate (labels : List Text) :
    utf8 (List.intercalate ['.'] labels) = Dns.joinLabels (labels.map utf8) := by
  induction labels with
  | nil => rfl
  | cons label rest ih =>
    cases rest with
    | nil => simp [Dns.joinLabels]
    | cons next rest =>
      rw [List.intercalate_cons_cons, utf8_append, utf8_append, ih]
      simp only [Dns.joinLabels, List.map_cons, List.intercalate_cons_cons]
      rfl

/-- An ASCII character is one byte, and every other one has bytes from 128 on. -/
theorem utf8EncodeChar_cases (c : Char) :
    (c.val.toNat < 128 ∧ String.utf8EncodeChar c = [.ofNat c.val.toNat]) ∨
      (128 ≤ c.val.toNat ∧ ∀ b ∈ String.utf8EncodeChar c, 128 ≤ b.toNat) := by
  have hbyte : ∀ n, 128 ≤ n → n < 256 → 128 ≤ (UInt8.ofNat n).toNat := by
    intro n hle hlt
    rwa [UInt8.toNat_ofNat_of_lt' hlt]
  rcases Nat.lt_or_ge c.val.toNat 128 with hlt | hge
  · exact .inl ⟨hlt, if_pos (by omega)⟩
  refine .inr ⟨hge, ?_⟩
  simp only [String.utf8EncodeChar]
  rw [if_neg (by omega)]
  split_ifs <;> simp only [List.forall_mem_cons, List.not_mem_nil, false_imp_iff, implies_true,
    and_true]
  · exact ⟨hbyte _ (by omega) (by omega), hbyte _ (by omega) (by omega)⟩
  · exact ⟨hbyte _ (by omega) (by omega), hbyte _ (by omega) (by omega),
      hbyte _ (by omega) (by omega)⟩
  · exact ⟨hbyte _ (by omega) (by omega), hbyte _ (by omega) (by omega),
      hbyte _ (by omega) (by omega), hbyte _ (by omega) (by omega)⟩

theorem toLower_val (c : Char) : c.toLower.val.toNat =
    if 65 ≤ c.val.toNat ∧ c.val.toNat ≤ 90 then c.val.toNat + 32 else c.val.toNat := by
  have hupper : (c.val ≥ 'A'.val ∧ c.val ≤ 'Z'.val) ↔ 65 ≤ c.val.toNat ∧ c.val.toNat ≤ 90 :=
    Iff.and UInt32.le_iff_toNat_le UInt32.le_iff_toNat_le
  by_cases h : c.val ≥ 'A'.val ∧ c.val ≤ 'Z'.val
  · have hbound := hupper.mp h
    delta Char.toLower
    rw [dif_pos h, if_pos hbound, UInt32.toNat_add]
    exact Nat.mod_eq_of_lt (show c.val.toNat + 32 < 2 ^ 32 by omega)
  · delta Char.toLower
    rw [dif_neg h, if_neg (hupper.not.mp h)]

theorem toAsciiLowercase_toNat (b : UInt8) : (Dns.toAsciiLowercase b).toNat =
    if 65 ≤ b.toNat ∧ b.toNat ≤ 90 then b.toNat + 32 else b.toNat := by
  have hupper : (65 ≤ b ∧ b ≤ 90) ↔ 65 ≤ b.toNat ∧ b.toNat ≤ 90 :=
    Iff.and UInt8.le_iff_toNat_le UInt8.le_iff_toNat_le
  rw [Dns.toAsciiLowercase]
  by_cases h : 65 ≤ b ∧ b ≤ 90
  · have hbound := hupper.mp h
    rw [if_pos h, if_pos hbound, UInt8.toNat_add]
    exact Nat.mod_eq_of_lt (show b.toNat + 32 < 2 ^ 8 by omega)
  · rw [if_neg h, if_neg (hupper.not.mp h)]

theorem utf8EncodeChar_toLower (c : Char) : String.utf8EncodeChar c.toLower =
    (String.utf8EncodeChar c).map Dns.toAsciiLowercase := by
  have hval := toLower_val c
  rcases utf8EncodeChar_cases c with ⟨hlt, henc⟩ | ⟨hge, hbytes⟩
  · have hlower : c.toLower.val.toNat < 128 := by
      rw [hval]
      split_ifs <;> omega
    rcases utf8EncodeChar_cases c.toLower with ⟨-, henc'⟩ | ⟨hge', -⟩
    · rw [henc, henc', List.map_singleton]
      refine congrArg (fun b => [b]) (UInt8.toNat_inj.mp ?_)
      rw [toAsciiLowercase_toNat, UInt8.toNat_ofNat_of_lt' (show c.val.toNat < 256 by omega),
        UInt8.toNat_ofNat_of_lt' (show c.toLower.val.toNat < 256 by omega), hval]
    · omega
  · have hsame : c.toLower = c := by
      rw [if_neg (by omega)] at hval
      exact Char.ext (UInt32.toNat_inj.mp hval)
    rw [hsame]
    refine (List.map_congr_left fun b hb => UInt8.toNat_inj.mp ?_).trans (List.map_id _) |>.symm
    rw [toAsciiLowercase_toNat, if_neg (by have := hbytes b hb; omega)]
    rfl

theorem utf8_toAsciiLowercase (text : Text) :
    utf8 (toAsciiLowercase text) = (utf8 text).map Dns.toAsciiLowercase := by
  simp only [utf8, toAsciiLowercase, List.flatMap_map, List.map_flatMap, utf8EncodeChar_toLower]

/-- A byte below 128 stands for a character of its own. -/
theorem eq_of_mem_utf8EncodeChar {c d : Char} (hd : d.val.toNat < 128)
    (h : UInt8.ofNat d.val.toNat ∈ String.utf8EncodeChar c) :
    String.utf8EncodeChar c = [.ofNat d.val.toNat] ∧ c = d := by
  have hnat : (UInt8.ofNat d.val.toNat).toNat = d.val.toNat :=
    UInt8.toNat_ofNat_of_lt' (show d.val.toNat < 256 by omega)
  rcases utf8EncodeChar_cases c with ⟨hlt, henc⟩ | ⟨-, hbytes⟩
  · rw [henc, List.mem_singleton] at h
    rw [henc, h]
    have hval := congrArg UInt8.toNat h
    rw [hnat, UInt8.toNat_ofNat_of_lt' (show c.val.toNat < 256 by omega)] at hval
    exact ⟨rfl, Char.ext (UInt32.toNat_inj.mp hval.symm)⟩
  · have := hbytes _ h
    omega

end Text

namespace Dns

open Text

section Labels

variable {b : UInt8} {label : Bytes}

/-- One to 63 letters, digits and hyphens, without a hyphen at an end. -/
structure IsLabel (label : Bytes) : Prop where
  length : label.length ≤ 63
  ne_nil : label ≠ []
  head : label.head? ≠ some 45
  last : label.getLast? ≠ some 45
  chars : ∀ b ∈ label, isAsciiAlphanumeric b ∨ b = 45

instance (label : Bytes) : Decidable (IsLabel label) :=
  decidable_of_iff (label.length ≤ 63 ∧ label ≠ [] ∧ label.head? ≠ some 45 ∧
    label.getLast? ≠ some 45 ∧ label.all (fun b => isAsciiAlphanumeric b || b = 45) = true) (by
      simp only [List.all_eq_true, Bool.or_eq_true, decide_eq_true_eq]
      exact ⟨fun ⟨h1, h2, h3, h4, h5⟩ => ⟨h1, h2, h3, h4, h5⟩, fun h => ⟨h.1, h.2, h.3, h.4, h.5⟩⟩)

theorem isAsciiAlphanumeric_iff : isAsciiAlphanumeric b ↔ 48 ≤ b.toNat ∧ b.toNat ≤ 57 ∨
    65 ≤ b.toNat ∧ b.toNat ≤ 90 ∨ 97 ≤ b.toNat ∧ b.toNat ≤ 122 := by
  simp only [isAsciiAlphanumeric, Bool.or_eq_true, Bool.and_eq_true, decide_eq_true_eq,
    UInt8.le_iff_toNat_le, or_assoc]
  exact Iff.rfl

theorem IsLabel.no_dot (h : IsLabel label) : 46 ∉ label := by
  intro hmem
  rcases h.chars 46 hmem with halnum | hhyphen
  · exact absurd halnum (by decide)
  · exact absurd hhyphen (by decide)

theorem normalizeLabel_ok (h : IsLabel label) :
    normalizeLabel label = .ok (label.map toAsciiLowercase) := by
  have hall : label.all fun byte => isAsciiAlphanumeric byte || byte = 45 := by
    simpa only [List.all_eq_true, Bool.or_eq_true, decide_eq_true_eq] using h.chars
  rw [normalizeLabel, Outcome.ensure, if_pos ⟨h.ne_nil, h.head, h.last, hall⟩]
  rfl

theorem toAsciiLowercase_eq_hyphen : toAsciiLowercase b = 45 ↔ b = 45 := by
  rw [← UInt8.toNat_inj, ← UInt8.toNat_inj, toAsciiLowercase_toNat]
  change _ = 45 ↔ _ = 45
  split_ifs <;> omega

theorem isLabel_of_lowercase (h : IsLabel (label.map toAsciiLowercase)) : IsLabel label := by
  refine ⟨by simpa using h.length, by simpa using h.ne_nil, fun hhead => h.head ?_,
    fun hlast => h.last ?_, fun b hb => ?_⟩
  · rw [List.head?_map, hhead]
    rfl
  · rw [List.getLast?_map, hlast]
    rfl
  · refine (h.chars _ (List.mem_map_of_mem hb)).imp (fun halnum => ?_) toAsciiLowercase_eq_hyphen.mp
    rw [isAsciiAlphanumeric_iff, toAsciiLowercase_toNat] at halnum
    rw [isAsciiAlphanumeric_iff]
    split_ifs at halnum <;> omega

/-- A label of an accepted text is one in bytes. -/
theorem isLabel_utf8 {label : Text} (hlen : (utf8 label).length ≤ 63) (hne : label ≠ [])
    (hhead : label.head? ≠ some '-') (hlast : label.getLast? ≠ some '-')
    (hchars : ∀ b ∈ utf8 label, isAsciiAlphanumeric b ∨ b = 45) : IsLabel (utf8 label) := by
  refine ⟨hlen, ?_, ?_, ?_, hchars⟩
  · obtain ⟨c, rest, rfl⟩ := List.exists_cons_of_ne_nil hne
    simp [utf8, String.utf8EncodeChar_ne_nil]
  · intro h
    obtain ⟨c, rest, rfl⟩ := List.exists_cons_of_ne_nil hne
    obtain ⟨b, bytes, henc⟩ := List.exists_cons_of_ne_nil (String.utf8EncodeChar_ne_nil (c := c))
    rw [utf8, List.flatMap_cons, henc] at h
    obtain rfl : b = 45 := Option.some.inj h
    obtain ⟨-, rfl⟩ := eq_of_mem_utf8EncodeChar (c := c) (d := '-') (by decide)
      (henc ▸ List.mem_cons_self)
    exact hhead rfl
  · intro h
    obtain ⟨rest, c, rfl⟩ : ∃ rest c, label = rest ++ [c] :=
      ⟨_, _, (List.dropLast_append_getLast hne).symm⟩
    rw [utf8_append, show utf8 [c] = String.utf8EncodeChar c from List.flatMap_singleton _ _,
      List.getLast?_append_of_ne_nil _ String.utf8EncodeChar_ne_nil] at h
    obtain ⟨-, rfl⟩ := eq_of_mem_utf8EncodeChar (c := c) (d := '-') (by decide)
      (List.mem_of_getLast? h)
    exact hlast (by simp)

end Labels

section Rules

inductive ConfigError where
  | invalidRemoteDomain (value : Text)
  | invalidInteger (field : Text)
  deriving DecidableEq

/-- The checks of `normalize_domain` on one label. -/
def acceptsLabel (label : Text) : Bool :=
  label ≠ [] && (utf8 label).length ≤ 63 && label.head? ≠ some '-' && label.getLast? ≠ some '-' &&
    (utf8 label).all fun byte => isAsciiAlphanumeric byte || byte = 45

def normalizeDomain (value : Text) : Except ConfigError Text :=
  let value := value.trim
  let value := value.stripDot
  let value := value.toAsciiLowercase
  if value = [] ∨ 253 < (utf8 value).length ∨ '*' ∈ value then .error (.invalidRemoteDomain value)
  else if (value.splitOn '.').all acceptsLabel then .ok value
  else .error (.invalidRemoteDomain value)

/-- The labels of a rule as it is written. -/
def ruleLabels (text : Text) : List Bytes := (text.trim.stripDot.splitOn '.').map utf8

variable {text domain : Text}

theorem acceptsLabel_isLabel {label : Text} (h : acceptsLabel label) : IsLabel (utf8 label) := by
  simp only [acceptsLabel, Bool.and_eq_true, decide_eq_true_eq, List.all_eq_true,
    Bool.or_eq_true] at h
  obtain ⟨⟨⟨⟨hne, hlen⟩, hhead⟩, hlast⟩, hchars⟩ := h
  exact isLabel_utf8 hlen hne hhead hlast hchars

section Splitting

variable {α β : Type} [DecidableEq α] [DecidableEq β] {x : α} {l piece : List α}

/-- A map that keeps the separators apart from the rest keeps the pieces. -/
theorem splitOn_map {f : α → β} {y : β} (hf : ∀ a, f a = y ↔ a = x) (l : List α) :
    (l.map f).splitOn y = (l.splitOn x).map (List.map f) := by
  induction l with
  | nil => rfl
  | cons a l ih =>
    rw [List.map_cons, List.splitOn_cons_eq_if_modifyHead, List.splitOn_cons_eq_if_modifyHead, ih]
    simp only [beq_iff_eq, hf a]
    split_ifs with ha
    · rfl
    · obtain ⟨first, rest, hl⟩ := List.exists_cons_of_ne_nil (List.splitOn_ne_nil x l)
      rw [hl]
      rfl

end Splitting

theorem toLower_eq_dot (c : Char) : c.toLower = '.' ↔ c = '.' := by
  constructor
  · intro hc
    have hval := toLower_val c
    rw [hc] at hval
    refine Char.ext (UInt32.toNat_inj.mp ?_)
    change 46 = _ at hval
    change _ = 46
    split_ifs at hval <;> omega
  · rintro rfl
    rfl

/-- What a text must be for its rule to be taken. -/
theorem normalizeDomain_eq_ok (h : normalizeDomain text = .ok domain) :
    (∀ label ∈ ruleLabels text, IsLabel label) ∧ ruleLabels text ≠ [] ∧
      utf8 domain = joinLabels ((ruleLabels text).map (List.map toAsciiLowercase)) ∧
      (utf8 domain).length ≤ 253 := by
  have hpieces : (text.trim.stripDot.toAsciiLowercase.splitOn '.').map utf8 =
      (ruleLabels text).map (List.map toAsciiLowercase) := by
    rw [Text.toAsciiLowercase, splitOn_map toLower_eq_dot, ruleLabels, List.map_map, List.map_map]
    exact List.map_congr_left fun label _ => utf8_toAsciiLowercase label
  rw [normalizeDomain] at h
  split_ifs at h with hbad hlabels
  cases h
  rw [not_or, not_or, Nat.not_lt] at hbad
  refine ⟨fun label hl => ?_, ?_, ?_, hbad.2.1⟩
  · have hmem := List.mem_map_of_mem (f := List.map toAsciiLowercase) hl
    rw [← hpieces] at hmem
    obtain ⟨piece, hpiece, heq⟩ := List.mem_map.mp hmem
    exact isLabel_of_lowercase
      (heq ▸ acceptsLabel_isLabel (List.all_eq_true.mp hlabels piece hpiece))
  · rw [ruleLabels, ne_eq, List.map_eq_nil_iff]
    exact List.splitOn_ne_nil _ _
  · rw [← hpieces, ← utf8_intercalate, List.intercalate_splitOn]

theorem length_joinLabels (labels : List Bytes) (h : ∀ label ∈ labels, label ≠ []) :
    2 * labels.length ≤ (joinLabels labels).length + 1 := by
  induction labels with
  | nil => exact Nat.zero_le _
  | cons label rest ih =>
    have hlabel := List.length_pos_iff.mpr (h label List.mem_cons_self)
    have hrest := ih fun l hl => h l (List.mem_cons_of_mem _ hl)
    cases rest with
    | nil => simp [joinLabels]; omega
    | cons next rest =>
      simp only [joinLabels, List.intercalate_cons_cons, List.length_append, List.length_cons,
        List.length_nil] at hrest ⊢
      omega

/-- A rule has at most 127 labels. -/
theorem length_ruleLabels (h : normalizeDomain text = .ok domain) :
    (ruleLabels text).length ≤ 127 := by
  obtain ⟨hlabels, -, hjoin, hlen⟩ := normalizeDomain_eq_ok h
  have hcount := length_joinLabels ((ruleLabels text).map (List.map toAsciiLowercase))
    (by simpa using fun label hl => (hlabels label hl).ne_nil)
  rw [← hjoin, List.length_map] at hcount
  omega

end Rules

section Matching

variable {rules : RemoteDomainRules} {rule qname : Bytes}

def domainMatches (rule qname : Bytes) : Bool :=
  qname = rule || (rule.isSuffixOf qname &&
    (qname.take (qname.length - rule.length)).getLast? = some 46)

theorem domainMatches_iff : domainMatches rule qname ↔
    qname = rule ∨ ∃ front, qname = front ++ 46 :: rule := by
  simp only [domainMatches, Bool.or_eq_true, decide_eq_true_eq, Bool.and_eq_true,
    List.isSuffixOf_iff_suffix]
  refine or_congr_right ⟨?_, ?_⟩
  · rintro ⟨⟨front, rfl⟩, hlast⟩
    rw [List.length_append, Nat.add_sub_cancel, List.take_left] at hlast
    obtain ⟨before, rfl⟩ := List.getLast?_eq_some_iff.mp hlast
    exact ⟨before, by simp⟩
  · rintro ⟨front, rfl⟩
    refine ⟨⟨front ++ [46], by simp⟩, ?_⟩
    rw [show front ++ 46 :: rule = (front ++ [46]) ++ rule by simp, List.length_append,
      Nat.add_sub_cancel, List.take_left]
    simp

theorem mem_afterDots {rest : Bytes} :
    rest ∈ RemoteDomainRules.afterDots qname ↔ ∃ front, qname = front ++ 46 :: rest := by
  induction qname with
  | nil => simp [RemoteDomainRules.afterDots]
  | cons b qname ih =>
    rw [RemoteDomainRules.afterDots]
    have hcons : (∃ front, b :: qname = front ++ 46 :: rest) ↔
        (b = 46 ∧ qname = rest) ∨ ∃ front, qname = front ++ 46 :: rest := by
      constructor
      · rintro ⟨_ | ⟨c, front⟩, h⟩
        · exact .inl (by simpa using h)
        · exact .inr ⟨front, (List.cons.inj h).2⟩
      · rintro (⟨rfl, rfl⟩ | ⟨front, rfl⟩)
        · exact ⟨[], rfl⟩
        · exact ⟨b :: front, rfl⟩
    rw [hcons, ← ih]
    split_ifs with hb <;> simp [hb, eq_comm]

/-- The set of rules decides as each rule does. -/
theorem matchesQname_iff : rules.matchesQname qname ↔
    ∃ rule, rules.suffixes.contains rule ∧ domainMatches rule qname := by
  simp only [RemoteDomainRules.matchesQname, Bool.or_eq_true, List.any_eq_true, mem_afterDots,
    domainMatches_iff]
  constructor
  · rintro (h | ⟨rule, hfront, h⟩)
    · exact ⟨qname, h, .inl rfl⟩
    · exact ⟨rule, h, .inr hfront⟩
  · rintro ⟨rule, h, rfl | hfront⟩
    · exact .inl h
    · exact .inr ⟨rule, hfront, h⟩

theorem contains_new {domains : List Bytes} :
    (RemoteDomainRules.new domains).suffixes.contains rule ↔ rule ∈ domains := by
  have hfold : ∀ suffixes : HashSet Bytes,
      (domains.foldl (fun suffixes domain => suffixes.insert domain ()) suffixes).contains rule ↔
        rule ∈ domains ∨ suffixes.contains rule := by
    induction domains with
    | nil => simp
    | cons domain rest ih =>
      intro suffixes
      rw [List.foldl_cons, ih, HashMap.contains, HashMap.get_insert, List.mem_cons]
      by_cases h : rule = domain <;> simp [h, HashMap.contains]
  rw [RemoteDomainRules.new, hfold]
  simp [HashMap.contains]

theorem splitOn_joinLabels {labels : List Bytes} (hne : labels ≠ [])
    (h : ∀ label ∈ labels, 46 ∉ label) : (joinLabels labels).splitOn 46 = labels :=
  List.splitOn_intercalate 46 h hne

theorem joinLabels_cons (label : Bytes) {labels : List Bytes} (hne : labels ≠ []) :
    joinLabels (label :: labels) = label ++ 46 :: joinLabels labels := by
  rw [joinLabels, List.intercalate_cons_of_ne_nil hne, List.append_assoc]
  rfl

theorem joinLabels_append {labels labels' : List Bytes} (hne : labels ≠ []) (hne' : labels' ≠ []) :
    joinLabels (labels ++ labels') = joinLabels labels ++ 46 :: joinLabels labels' := by
  induction labels with
  | nil => exact absurd rfl hne
  | cons label rest ih =>
    rw [List.cons_append, joinLabels_cons label (List.append_ne_nil_of_right_ne_nil _ hne')]
    by_cases hrest : rest = []
    · rw [hrest, List.nil_append, joinLabels, joinLabels, List.intercalate_singleton]
    · rw [ih hrest, joinLabels_cons label hrest, List.append_assoc, List.cons_append]

/-- On names, matching is matching of labels from the right. -/
theorem domainMatches_joinLabels {labels labels' : List Bytes} (hne : labels ≠ [])
    (h : ∀ label ∈ labels, 46 ∉ label) (hne' : labels' ≠ []) (h' : ∀ label ∈ labels', 46 ∉ label) :
    domainMatches (joinLabels labels) (joinLabels labels') ↔ labels <:+ labels' := by
  rw [domainMatches_iff]
  constructor
  · rintro (heq | ⟨front, heq⟩)
    · rw [← splitOn_joinLabels hne h, ← splitOn_joinLabels hne' h', heq]
    · have hsplit := congrArg (List.splitOn 46) heq
      rw [splitOn_joinLabels hne' h', List.splitOn_append_cons_self,
        splitOn_joinLabels hne h] at hsplit
      exact ⟨_, hsplit.symm⟩
  · rintro ⟨before, rfl⟩
    by_cases hbefore : before = []
    · exact .inl (by rw [hbefore, List.nil_append])
    · exact .inr ⟨joinLabels before, joinLabels_append hbefore hne⟩

end Matching

end Dns

end NewProxy
