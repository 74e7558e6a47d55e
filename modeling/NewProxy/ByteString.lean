import NewProxy.Outcome

/-!
# Byte strings with checked and unchecked access

`index`, `range` and `write` are the panicking accesses of a slice, `getRange`
is the one that answers with an option. Each has a total counterpart (`byteAt`,
`slice`, `patch`) that agrees with it inside the bounds; proofs are carried out
on those. Words are stored high byte first.
-/
namespace NewProxy

abbrev Bytes := List UInt8

/-- `u16::from_be_bytes`. -/
def be16 (hi lo : UInt8) : UInt16 := UInt16.ofNat (hi.toNat * 256 + lo.toNat)

/-- `u16::to_be_bytes`. -/
def be16Bytes (w : UInt16) : Bytes :=
  [UInt8.ofNat (w.toNat / 256), UInt8.ofNat (w.toNat % 256)]

theorem be16_toNat (hi lo : UInt8) : (be16 hi lo).toNat = hi.toNat * 256 + lo.toNat := by
  have h1 := hi.toNat_lt
  have h2 := lo.toNat_lt
  simp only [be16, UInt16.toNat_ofNat']
  omega

@[simp] theorem length_be16Bytes (w : UInt16) : (be16Bytes w).length = 2 := rfl

theorem be16_div_mod (w : UInt16) :
    be16 (UInt8.ofNat (w.toNat / 256)) (UInt8.ofNat (w.toNat % 256)) = w := by
  have h := w.toNat_lt
  apply UInt16.toNat_inj.mp
  rw [be16_toNat]
  simp only [UInt8.toNat_ofNat']
  omega

theorem be16Bytes_be16 (hi lo : UInt8) : be16Bytes (be16 hi lo) = [hi, lo] := by
  have h1 := hi.toNat_lt
  have h2 := lo.toNat_lt
  simp only [be16Bytes, be16_toNat, List.cons.injEq, and_true]
  constructor <;> apply UInt8.toNat_inj.mp <;> simp only [UInt8.toNat_ofNat'] <;> omega

namespace Bytes

variable {ε : Type}

def byteAt (p : Bytes) (i : ℕ) : UInt8 := p[i]?.getD 0

def slice (p : Bytes) (a b : ℕ) : Bytes := (p.take b).drop a

/-- `p` with `bs` written over it from `off` on. -/
def patch (p : Bytes) (off : ℕ) (bs : Bytes) : Bytes :=
  p.take off ++ bs ++ p.drop (off + bs.length)

def wordAt (p : Bytes) (i : ℕ) : UInt16 := be16 (p.byteAt i) (p.byteAt (i + 1))

/-- The `n` bytes from `off` on, as an address holds them. -/
def octetsAt (p : Bytes) (n off : ℕ) : Vector UInt8 n :=
  Vector.ofFn fun i => p.byteAt (off + i.val)

/-- `p[i]`. -/
def index (p : Bytes) (i : ℕ) : Outcome ε UInt8 :=
  if i < p.length then .ok (p.byteAt i) else Outcome.panic

/-- `u16::from_be_bytes([p[i], p[i + 1]])`. -/
def word (p : Bytes) (i : ℕ) : Outcome ε UInt16 := do
  let hi ← p.index i
  let lo ← p.index (i + 1)
  return be16 hi lo

/-- `&p[a..b]`. -/
def range (p : Bytes) (a b : ℕ) : Outcome ε Bytes :=
  if a ≤ b ∧ b ≤ p.length then .ok (p.slice a b) else Outcome.panic

/-- `p.get(a..b)`. -/
def getRange (p : Bytes) (a b : ℕ) : Option Bytes :=
  if a ≤ b ∧ b ≤ p.length then some (p.slice a b) else none

/-- `p[off..off + bs.len()].copy_from_slice(bs)`. -/
def write (p : Bytes) (off : ℕ) (bs : Bytes) : Outcome ε Bytes :=
  if off + bs.length ≤ p.length then .ok (p.patch off bs) else Outcome.panic

/-- The same write, in place. -/
def put (off : ℕ) (bs : Bytes) : Act Bytes ε Unit := Act.update fun p => p.write off bs

theorem index_ok {p : Bytes} {i : ℕ} (h : i < p.length) :
    (p.index i : Outcome ε UInt8) = .ok (p.byteAt i) := if_pos h

theorem word_ok {p : Bytes} {i : ℕ} (h : i + 1 < p.length) :
    (p.word i : Outcome ε UInt16) = .ok (p.wordAt i) := by
  rw [word, index_ok (by omega), Outcome.bind_ok, index_ok h]
  rfl

theorem range_ok {p : Bytes} {a b : ℕ} (h : a ≤ b) (hb : b ≤ p.length) :
    (p.range a b : Outcome ε Bytes) = .ok (p.slice a b) := if_pos ⟨h, hb⟩

theorem getRange_some {p : Bytes} {a b : ℕ} (h : a ≤ b) (hb : b ≤ p.length) :
    p.getRange a b = some (p.slice a b) := if_pos ⟨h, hb⟩

theorem write_ok {p bs : Bytes} {off : ℕ} (h : off + bs.length ≤ p.length) :
    (p.write off bs : Outcome ε Bytes) = .ok (p.patch off bs) := if_pos h

theorem run_put {p bs : Bytes} {off : ℕ} (h : off + bs.length ≤ p.length) :
    (put off bs : Act Bytes ε Unit).run p = (.ok (), p.patch off bs) :=
  Act.update_of_ok (write_ok h)

@[simp] theorem index_eq_ok {p : Bytes} {i : ℕ} {b : UInt8} :
    (p.index i : Outcome ε UInt8) = .ok b ↔ i < p.length ∧ p.byteAt i = b := by
  by_cases h : i < p.length <;> simp [index, Outcome.panic, h]

@[simp] theorem word_eq_ok {p : Bytes} {i : ℕ} {w : UInt16} :
    (p.word i : Outcome ε UInt16) = .ok w ↔ i + 1 < p.length ∧ p.wordAt i = w := by
  simp only [word, Outcome.bind_eq_ok, index_eq_ok, Outcome.pure_eq_ok]
  constructor
  · rintro ⟨hi, ⟨-, rfl⟩, lo, ⟨h, rfl⟩, hw⟩
    exact ⟨h, hw⟩
  · rintro ⟨h, rfl⟩
    exact ⟨_, ⟨by omega, rfl⟩, _, ⟨h, rfl⟩, rfl⟩

@[simp] theorem range_eq_ok {p q : Bytes} {a b : ℕ} :
    (p.range a b : Outcome ε Bytes) = .ok q ↔ (a ≤ b ∧ b ≤ p.length) ∧ p.slice a b = q := by
  by_cases h : a ≤ b ∧ b ≤ p.length <;> simp [range, Outcome.panic, h]

@[simp] theorem getRange_eq_some {p q : Bytes} {a b : ℕ} :
    p.getRange a b = some q ↔ (a ≤ b ∧ b ≤ p.length) ∧ p.slice a b = q := by
  by_cases h : a ≤ b ∧ b ≤ p.length <;> simp [getRange, h]

@[simp] theorem write_eq_ok {p q bs : Bytes} {off : ℕ} :
    (p.write off bs : Outcome ε Bytes) = .ok q ↔
      off + bs.length ≤ p.length ∧ p.patch off bs = q := by
  by_cases h : off + bs.length ≤ p.length <;> simp [write, Outcome.panic, h]

theorem byteAt_of_lt {p : Bytes} {i : ℕ} (h : i < p.length) : p.byteAt i = p[i] := by
  simp [byteAt, h]

theorem byteAt_of_le {p : Bytes} {i : ℕ} (h : p.length ≤ i) : p.byteAt i = 0 := by
  simp [byteAt, h]

/-- Two strings of one length are equal when they agree at every position. -/
theorem ext_byteAt {p q : Bytes} (hl : p.length = q.length)
    (h : ∀ i < p.length, p.byteAt i = q.byteAt i) : p = q := by
  apply List.ext_getElem hl
  intro i hp hq
  have hi := h i hp
  rw [byteAt_of_lt hp, byteAt_of_lt hq] at hi
  simpa using hi

theorem byteAt_append {p q : Bytes} {i : ℕ} (h : i < p.length) :
    Bytes.byteAt (p ++ q) i = p.byteAt i := by
  simp [byteAt, List.getElem?_append_left h]

theorem length_slice {p : Bytes} {a b : ℕ} (hb : b ≤ p.length) :
    (p.slice a b).length = b - a := by
  simp only [slice, List.length_drop, List.length_take]
  omega

theorem length_of_getRange {p q : Bytes} {a b : ℕ} (h : p.getRange a b = some q) :
    q.length = b - a := by
  obtain ⟨⟨-, hb⟩, rfl⟩ := getRange_eq_some.mp h
  exact length_slice hb

theorem byteAt_slice {p : Bytes} {a b i : ℕ} (h : a + i < b) :
    (p.slice a b).byteAt i = p.byteAt (a + i) := by
  simp only [byteAt, slice, List.getElem?_drop, List.getElem?_take, h, if_true]

theorem length_patch {p bs : Bytes} {off : ℕ} (h : off + bs.length ≤ p.length) :
    (p.patch off bs).length = p.length := by
  simp only [patch, List.length_append, List.length_take, List.length_drop]
  omega

theorem byteAt_patch {p bs : Bytes} {off : ℕ} (h : off + bs.length ≤ p.length) (i : ℕ) :
    (p.patch off bs).byteAt i =
      if off ≤ i ∧ i < off + bs.length then bs.byteAt (i - off) else p.byteAt i := by
  have hoff : min off p.length = off := by omega
  simp only [byteAt, patch, List.append_assoc, List.getElem?_append,
    List.length_take, hoff, List.getElem?_take, List.getElem?_drop]
  split_ifs with h1 h2 h3 h3
  · omega
  · rfl
  · rfl
  · omega
  · omega
  · congr 2
    omega

/-- Bytes outside the written range are kept. -/
theorem byteAt_patch_of_disjoint {p bs : Bytes} {off i : ℕ} (h : off + bs.length ≤ p.length)
    (hi : i < off ∨ off + bs.length ≤ i) : (p.patch off bs).byteAt i = p.byteAt i := by
  rw [byteAt_patch h, if_neg (by omega)]

theorem slice_congr {p q : Bytes} {a b : ℕ} (hp : b ≤ p.length) (hq : b ≤ q.length)
    (h : ∀ i, a ≤ i → i < b → p.byteAt i = q.byteAt i) : p.slice a b = q.slice a b := by
  apply ext_byteAt
  · rw [length_slice hp, length_slice hq]
  · intro i hi
    rw [length_slice hp] at hi
    rw [byteAt_slice (by omega), byteAt_slice (by omega)]
    exact h _ (by omega) (by omega)

theorem wordAt_slice {p : Bytes} {a b i : ℕ} (h : a + i + 1 < b) :
    (p.slice a b).wordAt i = p.wordAt (a + i) := by
  rw [wordAt, wordAt, byteAt_slice (by omega), byteAt_slice (by omega)]
  rfl

theorem octetsAt_slice {p : Bytes} {n a b i : ℕ} (h : a + i + n ≤ b) :
    (p.slice a b).octetsAt n i = p.octetsAt n (a + i) := by
  simp only [octetsAt]
  congr 1
  funext j
  have hj := j.isLt
  rw [byteAt_slice (by omega), Nat.add_assoc]

theorem slice_slice {p : Bytes} {a b n : ℕ} (h : a + n ≤ b) :
    (p.slice a b).slice 0 n = p.slice a (a + n) := by
  simp only [slice, List.drop_zero, List.take_drop, List.take_take]
  congr 2
  omega

/-- Reading a front part of a slice is reading the part it came from. -/
theorem getRange_slice {p : Bytes} {a b n : ℕ} (hb : b ≤ p.length) {t : Bytes} (hab : a ≤ b) :
    (p.slice a b).getRange 0 n = some t ↔ a + n ≤ b ∧ p.slice a (a + n) = t := by
  rw [getRange_eq_some, length_slice hb]
  constructor
  · rintro ⟨⟨-, h⟩, rfl⟩
    exact ⟨by omega, (slice_slice (by omega)).symm⟩
  · rintro ⟨h, rfl⟩
    exact ⟨⟨by omega, by omega⟩, slice_slice h⟩

theorem octetsAt_congr {p q : Bytes} {n off : ℕ}
    (h : ∀ i, off ≤ i → i < off + n → p.byteAt i = q.byteAt i) :
    p.octetsAt n off = q.octetsAt n off := by
  simp only [octetsAt]
  congr 1
  funext i
  exact h _ (by omega) (by have := i.isLt; omega)

theorem byteAt_toList {n : ℕ} (v : Vector UInt8 n) (i : ℕ) (h : i < n) :
    byteAt v.toList i = v[i] := by
  rw [byteAt_of_lt (by simpa using h)]
  simp

/-- An address reads back as it was written. -/
theorem octetsAt_patch {p : Bytes} {n off : ℕ} (v : Vector UInt8 n) (h : off + n ≤ p.length) :
    (p.patch off v.toList).octetsAt n off = v := by
  ext i hi
  simp only [octetsAt, Vector.getElem_ofFn]
  rw [byteAt_patch (by simpa using h), if_pos (by simp only [Vector.length_toList]; omega),
    Nat.add_sub_cancel_left, byteAt_toList v i hi]

theorem wordAt_congr {p q : Bytes} {i : ℕ} (h0 : p.byteAt i = q.byteAt i)
    (h1 : p.byteAt (i + 1) = q.byteAt (i + 1)) : p.wordAt i = q.wordAt i := by
  simp only [wordAt, h0, h1]

/-- A word spells its two bytes. -/
theorem byteAt_of_wordAt {p q : Bytes} {k i : ℕ} (h : p.wordAt k = q.wordAt k) (h0 : k ≤ i)
    (h1 : i < k + 2) : p.byteAt i = q.byteAt i := by
  have hb := congrArg be16Bytes h
  rw [wordAt, wordAt, be16Bytes_be16, be16Bytes_be16] at hb
  obtain rfl | rfl : i = k ∨ i = k + 1 := by omega
  · exact (List.cons.inj hb).1
  · exact (List.cons.inj (List.cons.inj hb).2).1

theorem byteAt_of_octetsAt {p q : Bytes} {n off i : ℕ} (h : p.octetsAt n off = q.octetsAt n off)
    (h0 : off ≤ i) (h1 : i < off + n) : p.byteAt i = q.byteAt i := by
  have hv := congrArg (fun v => v[i - off]?) h
  simp only [octetsAt, Vector.getElem?_ofFn] at hv
  simpa [show i - off < n by omega, show off + (i - off) = i by omega] using hv

/-- A word reads back as it was written. -/
theorem wordAt_patch {p : Bytes} {off : ℕ} (w : UInt16) (h : off + 2 ≤ p.length) :
    (p.patch off (be16Bytes w)).wordAt off = w := by
  have hl : off + (be16Bytes w).length ≤ p.length := by simpa using h
  have h0 := byteAt_patch hl off
  have h1 := byteAt_patch hl (off + 1)
  rw [if_pos (by simp)] at h0
  rw [if_pos (by simp)] at h1
  rw [wordAt, h0, h1, Nat.sub_self, Nat.add_sub_cancel_left]
  exact be16_div_mod w

/-- Writing at one place twice is writing there once. -/
theorem patch_patch {p bs cs : Bytes} {off : ℕ} (h : off + bs.length ≤ p.length)
    (hl : bs.length = cs.length) : (p.patch off bs).patch off cs = p.patch off cs := by
  have h' : off + cs.length ≤ p.length := by omega
  have hp := length_patch h
  apply ext_byteAt
  · rw [length_patch (by omega), hp, length_patch h']
  · intro i _
    rw [byteAt_patch (by omega), byteAt_patch h, byteAt_patch h', hl]
    split_ifs <;> rfl

/-- Writing what is there. -/
theorem patch_wordAt {p : Bytes} {off : ℕ} (h : off + 2 ≤ p.length) :
    p.patch off (be16Bytes (p.wordAt off)) = p := by
  have hl : off + (be16Bytes (p.wordAt off)).length ≤ p.length := by simpa using h
  refine ext_byteAt (length_patch hl) fun i _ => ?_
  by_cases hi : off ≤ i ∧ i < off + 2
  · exact byteAt_of_wordAt (wordAt_patch _ h) hi.1 hi.2
  · exact byteAt_patch_of_disjoint hl (by simp only [length_be16Bytes]; omega)

/-- A write inside a slice. -/
theorem slice_patch {p bs : Bytes} {a b k : ℕ} (hk : a + k + bs.length ≤ b)
    (hb : b ≤ p.length) : (p.patch (a + k) bs).slice a b = (p.slice a b).patch k bs := by
  have hp : (p.patch (a + k) bs).length = p.length := length_patch (by omega)
  have hs : (p.slice a b).length = b - a := length_slice hb
  apply ext_byteAt
  · rw [length_patch (by omega), length_slice (by omega), hs]
  · intro i hi
    rw [length_slice (by omega)] at hi
    rw [byteAt_slice (by omega), byteAt_patch (by omega), byteAt_patch (by omega),
      byteAt_slice (by omega)]
    have hsub : a + i - (a + k) = i - k := by omega
    rw [hsub]
    split_ifs <;> first | rfl | omega

theorem slice_patch_all {p bs : Bytes} {a b : ℕ} (hbs : a + bs.length = b) (hb : b ≤ p.length) :
    (p.patch a bs).slice a b = bs := by
  have hp : (p.patch a bs).length = p.length := length_patch (by omega)
  apply ext_byteAt
  · rw [length_slice (by omega)]
    omega
  · intro i hi
    rw [length_slice (by omega)] at hi
    rw [byteAt_slice (by omega), byteAt_patch (by omega), if_pos (by omega),
      Nat.add_sub_cancel_left]

/-- The two strings have one length and differ at positions of `T` only. -/
structure SameExcept (T : ℕ → Prop) (p q : Bytes) : Prop where
  length : q.length = p.length
  byte : ∀ i, ¬ T i → q.byteAt i = p.byteAt i

namespace SameExcept

variable {T U : ℕ → Prop} {p q r : Bytes}

theorem refl (T : ℕ → Prop) (p : Bytes) : SameExcept T p p := ⟨rfl, fun _ _ => rfl⟩

theorem symm (h : SameExcept T p q) : SameExcept T q p :=
  ⟨h.length.symm, fun i hi => (h.byte i hi).symm⟩

theorem trans (h : SameExcept T p q) (h' : SameExcept T q r) : SameExcept T p r :=
  ⟨h'.length.trans h.length, fun i hi => (h'.byte i hi).trans (h.byte i hi)⟩

theorem mono (hTU : ∀ i, T i → U i) (h : SameExcept T p q) : SameExcept U p q :=
  ⟨h.length, fun i hi => h.byte i fun ht => hi (hTU i ht)⟩

theorem patch {bs : Bytes} {off : ℕ} (h : off + bs.length ≤ p.length)
    (hT : ∀ i, off ≤ i → i < off + bs.length → T i) : SameExcept T p (p.patch off bs) := by
  refine ⟨length_patch h, fun i hi => byteAt_patch_of_disjoint h ?_⟩
  by_contra hc
  exact hi (hT i (by omega) (by omega))

theorem wordAt (h : SameExcept T p q) {i : ℕ} (h0 : ¬ T i) (h1 : ¬ T (i + 1)) :
    q.wordAt i = p.wordAt i := wordAt_congr (h.byte i h0) (h.byte (i + 1) h1)

theorem octetsAt (h : SameExcept T p q) {n off : ℕ} (hT : ∀ i, off ≤ i → i < off + n → ¬ T i) :
    q.octetsAt n off = p.octetsAt n off :=
  octetsAt_congr fun i h0 h1 => h.byte i (hT i h0 h1)

theorem slice (h : SameExcept T p q) {a b : ℕ} (hb : b ≤ p.length)
    (hT : ∀ i, a ≤ i → i < b → ¬ T i) : q.slice a b = p.slice a b :=
  slice_congr (h.length ▸ hb) hb fun i h0 h1 => h.byte i (hT i h0 h1)

end SameExcept

end Bytes

end NewProxy
