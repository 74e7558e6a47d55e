import NewProxy.HashMap

/-!
# Longest-prefix tables

Keys are the leading bits of an address, of any length. A lookup asks for the
longest stored key that the address starts with. Tables are written over in
place: `longest_overlay_iff` says when a lookup through the older entries of a
table gives what the newer entries alone would give.
-/
namespace NewProxy

/-- The first `bits` bits of a byte; the others cleared. -/
def keepBits (bits : ℕ) (byte : UInt8) : UInt8 :=
  if 8 ≤ bits then byte else byte &&& ~~~((255 : UInt8) >>> UInt8.ofNat bits)

/-- The first `len` bits of an address; the others cleared. -/
def maskAddress {n : ℕ} (len : ℕ) (address : Vector UInt8 n) : Vector UInt8 n :=
  Vector.ofFn fun i => keepBits (len - 8 * i) address[i]

structure LpmKey (n : ℕ) where
  prefixLen : ℕ
  address : Vector UInt8 n
  deriving DecidableEq

/-- The key of length `len` that an address falls under. -/
def LpmKey.above {n : ℕ} (address : Vector UInt8 n) (len : ℕ) : LpmKey n :=
  ⟨len, maskAddress len address⟩

/-- The value at the greatest length, from `bits` down, that has one. -/
def longest {V : Type} (get : ℕ → Option V) : ℕ → Option V
  | 0 => get 0
  | len + 1 => (get (len + 1)).or (longest get len)

abbrev LpmTrie (n : ℕ) (V : Type) := HashMap (LpmKey n) V

def LpmTrie.lookup {n : ℕ} {V : Type} (trie : LpmTrie n V) (address : Vector UInt8 n) : Option V :=
  longest (fun len => trie.get (.above address len)) (8 * n)

variable {V : Type} {get newer older : ℕ → Option V} {bits : ℕ} {v : V}

theorem longest_eq_none : longest get bits = none ↔ ∀ len ≤ bits, get len = none := by
  induction bits with
  | zero => simp [longest]
  | succ bits ih =>
    rw [longest, Option.or_eq_none_iff, ih]
    constructor
    · rintro ⟨hlast, hrest⟩ len hlen
      rcases Nat.lt_or_eq_of_le hlen with h | rfl
      · exact hrest len (by omega)
      · exact hlast
    · intro h
      exact ⟨h _ le_rfl, fun len hlen => h len (by omega)⟩

theorem longest_eq_some : longest get bits = some v ↔
    ∃ len ≤ bits, get len = some v ∧ ∀ longer ≤ bits, len < longer → get longer = none := by
  induction bits with
  | zero =>
    constructor
    · intro h
      exact ⟨0, le_rfl, h, fun longer hle hlt => by omega⟩
    · rintro ⟨len, hlen, h, -⟩
      obtain rfl : len = 0 := by omega
      exact h
  | succ bits ih =>
    rw [longest, Option.or_eq_some_iff, ih]
    constructor
    · rintro (h | ⟨hlast, len, hlen, h, hlonger⟩)
      · exact ⟨bits + 1, le_rfl, h, fun longer hle hlt => by omega⟩
      · refine ⟨len, by omega, h, fun longer hle hlt => ?_⟩
        rcases Nat.lt_or_eq_of_le hle with hb | rfl
        · exact hlonger longer (by omega) hlt
        · exact hlast
    · rintro ⟨len, hlen, h, hlonger⟩
      rcases Nat.lt_or_eq_of_le hlen with hb | rfl
      · exact .inr ⟨hlonger _ le_rfl hb, len, by omega, h,
          fun longer hle hlt => hlonger longer (by omega) hlt⟩
      · exact .inl h

/-- An older value that no newer one of its length or a greater one hides. -/
def Uncovered (newer older : ℕ → Option V) (bits : ℕ) (v : V) : Prop :=
  ∃ len ≤ bits, newer len = none ∧ older len = some v ∧
    ∀ longer ≤ bits, len < longer → newer longer = none ∧ older longer = none

theorem longest_of_uncovered (h : Uncovered newer older bits v) :
    longest (fun len => (newer len).or (older len)) bits = some v := by
  obtain ⟨len, hlen, hnew, hold, hlonger⟩ := h
  refine longest_eq_some.mpr ⟨len, hlen, by simp [hnew, hold], fun longer hle hlt => ?_⟩
  simp [hlonger longer hle hlt]

theorem longest_of_covered (h : ∀ v, ¬ Uncovered newer older bits v) :
    longest (fun len => (newer len).or (older len)) bits = longest newer bits := by
  rcases hm : longest (fun len => (newer len).or (older len)) bits with _ | v
  · have hnone : ∀ len ≤ bits, newer len = none := fun len hlen =>
      (Option.or_eq_none_iff.mp (longest_eq_none.mp hm len hlen)).1
    exact (longest_eq_none.mpr hnone).symm
  · obtain ⟨len, hlen, hv, hlonger⟩ := longest_eq_some.mp hm
    have hnone : ∀ longer ≤ bits, len < longer → newer longer = none ∧ older longer = none :=
      fun longer hle hlt => Option.or_eq_none_iff.mp (hlonger longer hle hlt)
    rcases Option.or_eq_some_iff.mp hv with hnew | ⟨hnew, hold⟩
    · exact (longest_eq_some.mpr
        ⟨len, hlen, hnew, fun longer hle hlt => (hnone longer hle hlt).1⟩).symm
    · exact absurd ⟨len, hlen, hnew, hold, hnone⟩ (h v)

/-- Reading the older entries through the newer ones changes nothing exactly if
every uncovered older value would be judged as the newer entries judge. -/
theorem longest_overlay_iff {β : Type} (judge : Option V → β) :
    judge (longest (fun len => (newer len).or (older len)) bits) = judge (longest newer bits) ↔
      ∀ v, Uncovered newer older bits v → judge (some v) = judge (longest newer bits) := by
  constructor
  · intro h v hv
    rwa [longest_of_uncovered hv] at h
  · intro h
    by_cases hex : ∃ v, Uncovered newer older bits v
    · obtain ⟨v, hv⟩ := hex
      rw [longest_of_uncovered hv]
      exact h v hv
    · rw [longest_of_covered fun v hv => hex ⟨v, hv⟩]

end NewProxy
