import NewProxy.Domains

/-!
# Keys in hexadecimal digits

A key is read from 64 bytes of text, two at a time. The bytes are cut out of the text by
their positions, where a character must start and end, and each pair goes through the
number parser of the standard library, which also takes a plus sign.
-/
namespace NewProxy

namespace Text

variable {ε : Type}

/-- The text in front of byte `n` and behind it; none if byte `n` is inside a character
or there are not as many. -/
def splitAtByte : ℕ → Text → Option (Text × Text)
  | 0, text => some ([], text)
  | _ + 1, [] => none
  | n + 1, c :: rest =>
    if c.utf8Size ≤ n + 1 then
      (splitAtByte (n + 1 - c.utf8Size) rest).map fun parts => (c :: parts.1, parts.2)
    else none

/-- `&text[start..stop]`. -/
def range (text : Text) (start stop : ℕ) : Outcome ε Text :=
  if start ≤ stop then do
    let parts ← Outcome.expect (text.splitAtByte start)
    let parts ← Outcome.expect (parts.2.splitAtByte (stop - start))
    return parts.1
  else Outcome.panic

/-- `char::to_digit(16)`. -/
def toDigit (c : Char) : Option ℕ :=
  if '0' ≤ c ∧ c ≤ '9' then some (c.toNat - 48)
  else if 'a' ≤ c ∧ c ≤ 'f' then some (c.toNat - 87)
  else if 'A' ≤ c ∧ c ≤ 'F' then some (c.toNat - 55)
  else none

/-- The digits of `u8::from_str_radix(_, 16)`, from the left; each step must stay in range. -/
def parseHexDigits : Bytes → ℕ → Option UInt8
  | [], value => some (.ofNat value)
  | byte :: rest, value =>
    match toDigit (Char.ofNat byte.toNat) with
    | some digit =>
      let value := value * 16 + digit
      if value < 256 then parseHexDigits rest value else none
    | none => none

/-- `u8::from_str_radix(_, 16)`: one plus sign may precede the digits. -/
def parseHexU8 : Bytes → Option UInt8
  | [] => none
  | [43] => none
  | 43 :: digits => parseHexDigits digits 0
  | digits => parseHexDigits digits 0

end Text

open Text Outcome Dns

def sharedKeyField : Text := "Appliance.SharedKey".toList

/-- The loop of `parse_hex_key` from `index` on. -/
def parseHexBytes (value : Text) : ℕ → ℕ → Outcome ConfigError Bytes
  | 0, _ => return []
  | count + 1, index => do
    let digits ← value.range (index * 2) (index * 2 + 2)
    let output ← okOr (parseHexU8 digits.utf8) (.invalidInteger sharedKeyField)
    let rest ← parseHexBytes value count (index + 1)
    return output :: rest

def parseHexKey (value : Text) : Outcome ConfigError Bytes :=
  if value.utf8.length ≠ 64 then fail (.invalidInteger sharedKeyField)
  else parseHexBytes value 32 0

section Characters

variable {c a b : Char} {text rest : Text}

theorem length_utf8_cons (c : Char) (text : Text) :
    (utf8 (c :: text)).length = c.utf8Size + (utf8 text).length := by
  rw [utf8, List.flatMap_cons, List.length_append, String.length_utf8EncodeChar]
  rfl

theorem splitAtByte_append (text rest : Text) :
    splitAtByte (utf8 text).length (text ++ rest) = some (text, rest) := by
  induction text with
  | nil => cases rest <;> rfl
  | cons c text ih =>
    have hpos := c.utf8Size_pos
    obtain ⟨n, hn⟩ : ∃ n, c.utf8Size + (utf8 text).length = n + 1 :=
      ⟨_, (Nat.succ_pred_eq_of_pos (by omega)).symm⟩
    rw [length_utf8_cons, hn, List.cons_append, splitAtByte, if_pos (by omega),
      show n + 1 - c.utf8Size = (utf8 text).length by omega, ih]
    rfl

/-- Two bytes at a position where a character starts. -/
theorem range_append (text rest : Text) {n : ℕ} (h : (utf8 text).length = n) :
    (range (text ++ rest) n (n + 2) : Outcome ConfigError Text) =
      (expect (splitAtByte 2 rest) >>= fun parts => return parts.1) := by
  rw [range, if_pos (by omega), ← h, splitAtByte_append, Nat.add_sub_cancel_left]
  rfl

theorem splitAtByte_two (ha : a.utf8Size = 1) (hb : b.utf8Size = 1) (rest : Text) :
    splitAtByte 2 (a :: b :: rest) = some ([a, b], rest) := by
  rw [splitAtByte, ha, if_pos (by omega), splitAtByte, hb, if_pos (by omega)]
  cases rest <;> rfl

theorem splitAtByte_wide (hc : c.utf8Size = 2) (rest : Text) :
    splitAtByte 2 (c :: rest) = some ([c], rest) := by
  rw [splitAtByte, hc, if_pos (by omega)]
  cases rest <;> rfl

/-- The second byte is inside a character that starts with it. -/
theorem splitAtByte_inside (ha : a.utf8Size = 1) (hb : b.utf8Size ≠ 1) (rest : Text) :
    splitAtByte 2 (a :: b :: rest) = none := by
  have hpos := b.utf8Size_pos
  rw [splitAtByte, ha, if_pos (by omega), splitAtByte, if_neg (by omega)]
  rfl

theorem splitAtByte_long (hc : 2 < c.utf8Size) (rest : Text) :
    splitAtByte 2 (c :: rest) = none := by
  rw [splitAtByte, if_neg (by omega)]

/-- A character of one byte is that byte. -/
theorem utf8EncodeChar_one (h : c.utf8Size = 1) :
    String.utf8EncodeChar c = [.ofNat c.toNat] ∧ Char.ofNat (UInt8.ofNat c.toNat).toNat = c := by
  have hle : c.val.toNat ≤ 127 := UInt32.le_iff_toNat_le.mp (Char.utf8Size_eq_one_iff.mp h)
  rcases utf8EncodeChar_cases c with ⟨hlt, henc⟩ | ⟨hge, -⟩
  · refine ⟨henc, ?_⟩
    rw [UInt8.toNat_ofNat_of_lt' (show c.toNat < 256 by exact hlt.trans (by decide)),
      Char.ofNat_toNat]
  · omega

theorem toDigit_eq_some {d : ℕ} (h : toDigit c = some d) :
    d < 16 ∧ c.toNat < 128 ∧ c ≠ '+' := by
  have hle : ∀ {x y : Char}, x ≤ y → x.toNat ≤ y.toNat := fun h => UInt32.le_iff_toNat_le.mp h
  have hplus : c.toNat ≠ 43 → c ≠ '+' := fun hne heq => hne (heq ▸ rfl)
  rw [toDigit] at h
  split_ifs at h with h1 h2 h3
  · have hlow : 48 ≤ c.toNat := hle h1.1
    have hhigh : c.toNat ≤ 57 := hle h1.2
    cases h
    exact ⟨by omega, by omega, hplus (by omega)⟩
  · have hlow : 97 ≤ c.toNat := hle h2.1
    have hhigh : c.toNat ≤ 102 := hle h2.2
    cases h
    exact ⟨by omega, by omega, hplus (by omega)⟩
  · have hlow : 65 ≤ c.toNat := hle h3.1
    have hhigh : c.toNat ≤ 70 := hle h3.2
    cases h
    exact ⟨by omega, by omega, hplus (by omega)⟩

theorem utf8Size_of_toDigit {d : ℕ} (h : toDigit c = some d) : c.utf8Size = 1 := by
  have hlt := (toDigit_eq_some h).2.1
  exact Char.utf8Size_eq_one_iff.mpr (UInt32.le_iff_toNat_le.mpr (Nat.le_of_lt_succ hlt))

/-- No byte from 128 on is a digit. -/
theorem toDigit_ofNat_eq_none {n : ℕ} (hle : 128 ≤ n) (hlt : n < 256) :
    toDigit (Char.ofNat n) = none := by
  cases h : toDigit (Char.ofNat n) with
  | none => rfl
  | some d =>
    have hvalid : n.isValidChar := .inl (by omega)
    have hsmall := (toDigit_eq_some h).2.1
    rw [Char.ofNat, dif_pos hvalid] at hsmall
    exact absurd hsmall (Nat.not_lt.mpr hle)

/-- What the parser makes of two characters of one byte each: a plus sign in front of a
digit counts for nothing. -/
def pairValue (a b : Char) : Option UInt8 :=
  match if a = '+' then some 0 else toDigit a, toDigit b with
  | some high, some low => some (.ofNat (high * 16 + low))
  | _, _ => none

theorem parseHexU8_of_ne_plus {byte : UInt8} (h : byte ≠ 43) (bytes : Bytes) :
    parseHexU8 (byte :: bytes) = parseHexDigits (byte :: bytes) 0 := by
  unfold parseHexU8
  split <;> simp_all

theorem parseHexU8_pair (ha : a.utf8Size = 1) (hb : b.utf8Size = 1) :
    parseHexU8 (utf8 [a, b]) = pairValue a b := by
  obtain ⟨henca, hofa⟩ := utf8EncodeChar_one ha
  obtain ⟨hencb, hofb⟩ := utf8EncodeChar_one hb
  have hutf8 : utf8 [a, b] = [.ofNat a.toNat, .ofNat b.toNat] := by
    simp only [utf8, List.flatMap_cons, List.flatMap_nil, henca, hencb, List.cons_append,
      List.nil_append]
  have hone : ∀ high, high < 16 → parseHexDigits [.ofNat b.toNat] high =
      (toDigit b).map fun low => .ofNat (high * 16 + low) := by
    intro high hhigh
    rw [parseHexDigits, hofb]
    cases hdigit : toDigit b with
    | none => rfl
    | some low =>
      have hlow := (toDigit_eq_some hdigit).1
      dsimp only
      rw [if_pos (by omega)]
      rfl
  rw [hutf8, pairValue]
  by_cases hplus : a = '+'
  · subst hplus
    change parseHexDigits [.ofNat b.toNat] 0 = _
    rw [hone 0 (by omega), if_pos rfl]
    cases toDigit b <;> rfl
  · have hbyte : UInt8.ofNat a.toNat ≠ 43 := by
      intro h
      rw [h] at hofa
      exact hplus hofa.symm
    rw [if_neg hplus, parseHexU8_of_ne_plus hbyte, parseHexDigits, hofa]
    cases hdigit : toDigit a with
    | none => rfl
    | some high =>
      have hhigh := (toDigit_eq_some hdigit).1
      dsimp only
      rw [if_pos (by omega), Nat.zero_mul, Nat.zero_add, hone high hhigh]
      cases toDigit b <;> rfl

/-- A character of two bytes is no number. -/
theorem parseHexU8_wide (hc : c.utf8Size = 2) : parseHexU8 (utf8 [c]) = none := by
  have hlen : (utf8 [c]).length = 2 := by
    rw [length_utf8_cons, hc]
    rfl
  have hbytes : ∀ byte ∈ utf8 [c], 128 ≤ byte.toNat := by
    rcases utf8EncodeChar_cases c with ⟨-, henc⟩ | ⟨-, hbytes⟩
    · rw [utf8, List.flatMap_singleton, henc] at hlen
      cases hlen
    · rwa [utf8, List.flatMap_singleton]
  obtain ⟨first, second, hpair⟩ := List.length_eq_two.mp hlen
  rw [hpair] at hbytes ⊢
  have hfirst := hbytes first (by simp)
  have hne : first ≠ 43 := by
    intro heq
    rw [heq] at hfirst
    exact absurd hfirst (by decide)
  rw [parseHexU8_of_ne_plus hne, parseHexDigits, toDigit_ofNat_eq_none hfirst first.toNat_lt]

end Characters

section Keys

variable {value text rest : Text} {count index : ℕ} {bytes : Bytes}

/-- The text is a row of pairs that the parser takes, with these values. -/
inductive Pairs : Text → Bytes → Prop
  | nil : Pairs [] []
  | cons {a b : Char} {rest : Text} {byte : UInt8} {bytes : Bytes} (ha : a.utf8Size = 1)
      (hb : b.utf8Size = 1) (h : pairValue a b = some byte) (hrest : Pairs rest bytes) :
      Pairs (a :: b :: rest) (byte :: bytes)

/-- Behind a row of pairs that the parser takes stands one that it refuses: two characters
of one byte that are no pair of digits, or one character of two bytes. -/
inductive Refused : Text → Prop
  | pair {a b : Char} (ha : a.utf8Size = 1) (hb : b.utf8Size = 1) (h : pairValue a b = none)
      (rest : Text) : Refused (a :: b :: rest)
  | wide {c : Char} (hc : c.utf8Size = 2) (rest : Text) : Refused (c :: rest)
  | later {a b : Char} {rest : Text} {byte : UInt8} (ha : a.utf8Size = 1) (hb : b.utf8Size = 1)
      (h : pairValue a b = some byte) (hrest : Refused rest) : Refused (a :: b :: rest)

theorem parseHexBytes_pair {a b : Char} (htext : (utf8 text).length = index * 2)
    (ha : a.utf8Size = 1) (hb : b.utf8Size = 1) :
    parseHexBytes (text ++ a :: b :: rest) (count + 1) index = (do
      let output ← okOr (pairValue a b) (.invalidInteger sharedKeyField)
      let bytes ← parseHexBytes (text ++ [a, b] ++ rest) count (index + 1)
      return output :: bytes) := by
  rw [parseHexBytes, range_append text _ htext, splitAtByte_two ha hb]
  simp only [List.append_assoc, List.cons_append, List.nil_append]
  rw [← parseHexU8_pair ha hb]
  rfl

theorem parseHexBytes_wide {c : Char} (htext : (utf8 text).length = index * 2)
    (hc : c.utf8Size = 2) : parseHexBytes (text ++ c :: rest) (count + 1) index =
      fail (.invalidInteger sharedKeyField) := by
  rw [parseHexBytes, range_append text _ htext, splitAtByte_wide hc]
  change okOr (parseHexU8 (utf8 [c])) (ConfigError.invalidInteger sharedKeyField) >>= _ = _
  rw [parseHexU8_wide hc]
  rfl

theorem parseHexBytes_cut (htext : (utf8 text).length = index * 2)
    (hrest : splitAtByte 2 rest = none) :
    parseHexBytes (text ++ rest) (count + 1) index = panic := by
  rw [parseHexBytes, range_append text _ htext, hrest]
  rfl

theorem length_utf8_pair {a b : Char} (ha : a.utf8Size = 1) (hb : b.utf8Size = 1) (rest : Text) :
    (utf8 (a :: b :: rest)).length = 2 + (utf8 rest).length := by
  rw [length_utf8_cons, length_utf8_cons, ha, hb]
  omega

theorem length_utf8_behind {a b : Char} (ha : a.utf8Size = 1) (hb : b.utf8Size = 1)
    (htext : (utf8 text).length = index * 2) :
    (utf8 (text ++ [a, b])).length = (index + 1) * 2 := by
  rw [utf8_append, List.length_append, length_utf8_pair ha hb, htext, Nat.succ_mul]
  rfl

/-! From a position where a character starts, the loop returns the values of the pairs, fails at
the first pair that is refused, and panics at a pair that cuts a character. -/

theorem Pairs.run (h : Pairs rest bytes) (htext : (utf8 text).length = index * 2)
    (hrest : (utf8 rest).length = count * 2) :
    parseHexBytes (text ++ rest) count index = .ok bytes := by
  induction h generalizing text index count with
  | nil =>
    obtain rfl : count = 0 := by
      change 0 = count * 2 at hrest
      omega
    rfl
  | cons ha hb hvalue _ ih =>
    rw [length_utf8_pair ha hb] at hrest
    obtain ⟨count, rfl⟩ : ∃ n, count = n + 1 := ⟨count - 1, by omega⟩
    rw [parseHexBytes_pair htext ha hb, hvalue, ih (length_utf8_behind ha hb htext) (by omega)]
    rfl

theorem Refused.run (h : Refused rest) (htext : (utf8 text).length = index * 2)
    (hrest : (utf8 rest).length = count * 2) :
    parseHexBytes (text ++ rest) count index = fail (.invalidInteger sharedKeyField) := by
  induction h generalizing text index count with
  | pair ha hb hvalue rest =>
    rw [length_utf8_pair ha hb] at hrest
    obtain ⟨count, rfl⟩ : ∃ n, count = n + 1 := ⟨count - 1, by omega⟩
    rw [parseHexBytes_pair htext ha hb, hvalue]
    rfl
  | wide hc rest =>
    rw [length_utf8_cons, hc] at hrest
    obtain ⟨count, rfl⟩ : ∃ n, count = n + 1 := ⟨count - 1, by omega⟩
    exact parseHexBytes_wide htext hc
  | later ha hb hvalue _ ih =>
    rw [length_utf8_pair ha hb] at hrest
    obtain ⟨count, rfl⟩ : ∃ n, count = n + 1 := ⟨count - 1, by omega⟩
    rw [parseHexBytes_pair htext ha hb, hvalue, ih (length_utf8_behind ha hb htext) (by omega)]
    rfl

theorem pairs_or_refused_or_panics (htext : (utf8 text).length = index * 2)
    (hrest : (utf8 rest).length = count * 2) :
    (∃ bytes, Pairs rest bytes) ∨ Refused rest ∨
      parseHexBytes (text ++ rest) count index = panic := by
  induction count generalizing text rest index with
  | zero =>
    cases rest with
    | nil => exact .inl ⟨[], .nil⟩
    | cons c rest =>
      have hpos := c.utf8Size_pos
      rw [length_utf8_cons] at hrest
      omega
  | succ count ih =>
    rcases rest with _ | ⟨a, rest⟩
    · exact .inr (.inr (parseHexBytes_cut htext rfl))
    rcases a.utf8Size_eq with ha | ha | ha
    · rcases rest with _ | ⟨b, rest⟩
      · rw [length_utf8_cons, ha] at hrest
        change 1 + 0 = _ at hrest
        omega
      by_cases hb : b.utf8Size = 1
      · cases hvalue : pairValue a b with
        | none => exact .inr (.inl (.pair ha hb hvalue rest))
        | some byte =>
          rw [length_utf8_pair ha hb] at hrest
          rcases ih (length_utf8_behind ha hb htext) (show (utf8 rest).length = _ by omega) with
            ⟨bytes, h⟩ | h | h
          · exact .inl ⟨_, .cons ha hb hvalue h⟩
          · exact .inr (.inl (.later ha hb hvalue h))
          · rw [parseHexBytes_pair htext ha hb, hvalue, h]
            exact .inr (.inr rfl)
      · exact .inr (.inr (parseHexBytes_cut htext (splitAtByte_inside ha hb rest)))
    · exact .inr (.inl (.wide ha rest))
    · exact .inr (.inr (parseHexBytes_cut htext (splitAtByte_long (by omega) rest)))

/-- A key is written in 64 hexadecimal digits. -/
def IsHexKey (value : Text) : Prop := value.length = 64 ∧ ∀ c ∈ value, ∃ d, toDigit c = some d

/-- The bytes that pairs of digits stand for. -/
def decodeHex : Text → Bytes
  | high :: low :: rest =>
    .ofNat ((toDigit high).getD 0 * 16 + (toDigit low).getD 0) :: decodeHex rest
  | _ => []

/-- Digits are pairs that the parser takes, at their value. -/
theorem pairs_decodeHex (hlen : text.length = count * 2)
    (h : ∀ c ∈ text, ∃ d, toDigit c = some d) : Pairs text (decodeHex text) := by
  induction count generalizing text with
  | zero =>
    rw [List.length_eq_zero_iff.mp hlen]
    exact .nil
  | succ count ih =>
    obtain ⟨a, b, rest, rfl⟩ : ∃ a b rest, text = a :: b :: rest := by
      rcases text with _ | ⟨a, _ | ⟨b, rest⟩⟩
      · cases hlen
      · rw [List.length_singleton] at hlen
        omega
      · exact ⟨a, b, rest, rfl⟩
    simp only [List.length_cons] at hlen
    obtain ⟨high, hhigh⟩ := h a (by simp)
    obtain ⟨low, hlow⟩ := h b (by simp)
    have hrest := ih (show rest.length = count * 2 by omega) fun c hc => h c (by simp [hc])
    refine .cons (utf8Size_of_toDigit hhigh) (utf8Size_of_toDigit hlow) ?_ hrest
    rw [pairValue, if_neg (toDigit_eq_some hhigh).2.2, hhigh, hlow]
    rfl

theorem length_utf8_of_digits (h : ∀ c ∈ text, ∃ d, toDigit c = some d) :
    (utf8 text).length = text.length := by
  induction text with
  | nil => rfl
  | cons c text ih =>
    obtain ⟨d, hd⟩ := h c (by simp)
    rw [length_utf8_cons, utf8Size_of_toDigit hd, ih fun c hc => h c (by simp [hc]),
      List.length_cons]
    omega

/-- What reading a key should do: digits give their bytes and everything else an error. -/
def ParsesHexKey (value : Text) : Prop :=
  (IsHexKey value → parseHexKey value = .ok (decodeHex value)) ∧
    (¬ IsHexKey value → ∃ e, parseHexKey value = fail e)

/-- A text of 64 bytes that are not 64 digits is refused only if the parser comes to a pair
that it refuses before one that cuts a character, and before the end. -/
theorem parsesHexKey_iff (value : Text) :
    ParsesHexKey value ↔ (utf8 value).length ≠ 64 ∨ IsHexKey value ∨ Refused value := by
  by_cases hlen : (utf8 value).length = 64
  · have hrun : parseHexKey value = parseHexBytes ([] ++ value) 32 0 := if_neg (not_not.mpr hlen)
    have hnil : (utf8 []).length = 0 * 2 := rfl
    have hall : (utf8 value).length = 32 * 2 := hlen
    by_cases hkey : IsHexKey value
    · have hpairs := pairs_decodeHex (show value.length = 32 * 2 from hkey.1) hkey.2
      exact iff_of_true ⟨fun _ => hrun.trans (hpairs.run hnil hall), fun hnot => absurd hkey hnot⟩
        (.inr (.inl hkey))
    · constructor
      · rintro ⟨-, herr⟩
        obtain ⟨e, he⟩ := herr hkey
        rcases pairs_or_refused_or_panics hnil hall with ⟨bytes, h⟩ | h | h
        · cases he.symm.trans (hrun.trans (h.run hnil hall))
        · exact .inr (.inr h)
        · cases he.symm.trans (hrun.trans h)
      · rintro (hne | h | h)
        · exact absurd hlen hne
        · exact absurd h hkey
        · exact ⟨fun h => absurd h hkey, fun _ => ⟨_, hrun.trans (h.run hnil hall)⟩⟩
  · refine iff_of_true ⟨fun hkey => ?_, fun _ => ⟨_, if_pos hlen⟩⟩ (.inl hlen)
    rw [length_utf8_of_digits hkey.2] at hlen
    exact absurd hkey.1 hlen

/-- A letter of two bytes behind one digit is cut in two, and a row of pairs with plus
signs is read as a key. -/
theorem parseHexKey_panics_and_takes_signs :
    let cut := 'a' :: 'é' :: List.replicate 61 'a'
    let signed := (List.replicate 32 ['+', '1']).flatten
    ¬ ParsesHexKey cut ∧ parseHexKey cut = panic ∧
      ¬ ParsesHexKey signed ∧ parseHexKey signed = .ok (List.replicate 32 1) := by
  intro cut signed
  have hpanic : parseHexKey cut = panic := by decide +kernel
  have hsigned : parseHexKey signed = .ok (List.replicate 32 1) := by decide +kernel
  have hcut : ¬ IsHexKey cut := fun h => absurd h.1 (by decide)
  have hplus : ¬ IsHexKey signed := by
    intro h
    obtain ⟨d, hd⟩ := h.2 '+' (by decide)
    cases hd
  refine ⟨fun h => ?_, hpanic, fun h => ?_, hsigned⟩
  · obtain ⟨e, he⟩ := h.2 hcut
    cases hpanic.symm.trans he
  · obtain ⟨e, he⟩ := h.2 hplus
    cases hsigned.symm.trans he

end Keys

end NewProxy
