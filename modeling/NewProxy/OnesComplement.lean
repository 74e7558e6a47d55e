import NewProxy.ByteString

/-!
# One's-complement sums of byte strings

A byte string is summed as a sequence of 16-bit words, an odd last byte taken
as a high byte. Folding the carries back computes the sum modulo `2^16 - 1`,
except that only the zero sum folds to zero. A checksum that complements the
folded sum therefore makes the whole string sum to a positive multiple of
`2^16 - 1`, which is what a receiver tests.
-/
namespace NewProxy.OnesComplement

/-- The unfolded sum of the words of a byte string. -/
def wordSum : Bytes → ℕ
  | hi :: lo :: rest => (be16 hi lo).toNat + wordSum rest
  | [byte] => byte.toNat * 256
  | [] => 0

/-- Carries are added back until the sum is one word. -/
def fold (sum : ℕ) : ℕ :=
  if sum < 65536 then sum else fold (sum % 65536 + sum / 65536)
termination_by sum
decreasing_by omega

def finish (sum : ℕ) : UInt16 := ~~~ UInt16.ofNat (fold sum)

theorem fold_lt (sum : ℕ) : fold sum < 65536 := by
  induction sum using fold.induct with
  | case1 sum h => rw [fold, if_pos h]; exact h
  | case2 sum h ih => rw [fold, if_neg h]; exact ih

theorem fold_mod (sum : ℕ) : fold sum % 65535 = sum % 65535 := by
  induction sum using fold.induct with
  | case1 sum h => rw [fold, if_pos h]
  | case2 sum h ih => rw [fold, if_neg h, ih]; omega

theorem fold_eq_zero (sum : ℕ) : fold sum = 0 ↔ sum = 0 := by
  induction sum using fold.induct with
  | case1 sum h => rw [fold, if_pos h]
  | case2 sum h ih => rw [fold, if_neg h, ih]; omega

theorem finish_toNat (sum : ℕ) : (finish sum).toNat = 65535 - fold sum := by
  have h := fold_lt sum
  simp only [finish, UInt16.toNat_not, UInt16.toNat_ofNat', UInt16.size]
  omega

/-- What a receiver's test of a sum means. -/
theorem finish_eq_zero {sum : ℕ} : finish sum = 0 ↔ 0 < sum ∧ sum % 65535 = 0 := by
  have hlt := fold_lt sum
  have hmod := fold_mod sum
  have hzero := fold_eq_zero sum
  rw [← UInt16.toNat_inj, finish_toNat]
  simp only [UInt16.toNat_zero]
  omega

/-- Adding the checksum of a sum makes it pass the test. -/
theorem finish_add_finish (sum : ℕ) : finish (sum + (finish sum).toNat) = 0 := by
  have hlt := fold_lt sum
  have hmod := fold_mod sum
  have hzero := fold_eq_zero sum
  rw [finish_eq_zero, finish_toNat]
  omega

/-- A zero checksum may be sent as all ones: the two differ by the modulus. -/
theorem finish_add_max {sum : ℕ} (h : finish sum = 0) : finish (sum + 65535) = 0 := by
  rw [finish_eq_zero] at h ⊢
  omega

theorem wordSum_le (bytes : Bytes) : wordSum bytes ≤ 65535 * ((bytes.length + 1) / 2) := by
  induction bytes using wordSum.induct with
  | case1 hi lo rest ih =>
    have := (be16 hi lo).toNat_lt
    simp only [wordSum, List.length_cons]
    omega
  | case2 byte =>
    have := byte.toNat_lt
    simp only [wordSum, List.length_singleton]
    omega
  | case3 => exact Nat.zero_le _

theorem wordSum_append {xs ys : Bytes} (h : xs.length % 2 = 0) :
    wordSum (xs ++ ys) = wordSum xs + wordSum ys := by
  induction xs using wordSum.induct with
  | case1 hi lo rest ih =>
    have hr : rest.length % 2 = 0 := by simp only [List.length_cons] at h; omega
    simp only [List.cons_append, wordSum, ih hr]
    omega
  | case2 byte => simp at h
  | case3 => simp [wordSum]

theorem wordSum_be16Bytes (w : UInt16) : wordSum (be16Bytes w) = w.toNat := by
  have h := congrArg UInt16.toNat (be16_div_mod w)
  simpa [be16Bytes, wordSum] using h

/-- Writing a word at an even position over a zero word adds that word. -/
theorem wordSum_patch {p : Bytes} {off : ℕ} (h : off + 2 ≤ p.length) (heven : off % 2 = 0)
    (w : UInt16) :
    wordSum (p.patch off (be16Bytes w)) = wordSum (p.patch off [0, 0]) + w.toNat := by
  have htake : (p.take off).length % 2 = 0 := by
    rw [List.length_take]
    omega
  simp only [Bytes.patch, List.append_assoc, wordSum_append htake]
  rw [wordSum_append (by simp), wordSum_append (by simp), wordSum_be16Bytes]
  simp only [length_be16Bytes, List.length_cons, List.length_nil, Nat.reduceAdd, wordSum]
  have hz : (be16 0 0).toNat = 0 := by decide
  omega

/-- Writing the checksum into its zeroed field makes the string pass the test,
whatever else is summed along with it. -/
theorem finish_checksum (base : ℕ) (s : Bytes) (k : ℕ) (h : k + 2 ≤ s.length)
    (heven : k % 2 = 0) {w : UInt16} (hw : w = finish (base + wordSum (s.patch k [0, 0]))) :
    finish (base + wordSum (s.patch k (be16Bytes w))) = 0 := by
  rw [wordSum_patch h heven, ← Nat.add_assoc, hw]
  exact finish_add_finish _

/-- The same with a zero checksum sent as all ones. -/
theorem finish_checksum_max (base : ℕ) (s : Bytes) (k : ℕ) (h : k + 2 ≤ s.length)
    (heven : k % 2 = 0) (hw : finish (base + wordSum (s.patch k [0, 0])) = 0) :
    finish (base + wordSum (s.patch k (be16Bytes 0xffff))) = 0 := by
  rw [wordSum_patch h heven, ← Nat.add_assoc]
  exact finish_add_max hw

end NewProxy.OnesComplement
