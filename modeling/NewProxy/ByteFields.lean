import NewProxy.ByteString

/-!
# Fields of a byte string

A string that is filled in field by field, each field a run of bytes at its own
place. `Has` says that a field is there; the readers of bytes, words and addresses
find it. Fields written in order do not disturb each other.
-/
namespace NewProxy.Bytes

variable {p q bs : Bytes} {off i : ℕ}

/-- `bs` stands at `off`. -/
def Has (p : Bytes) (off : ℕ) (bs : Bytes) : Prop :=
  ∀ i < bs.length, p.byteAt (off + i) = bs.byteAt i

theorem has_patch (h : off + bs.length ≤ p.length) : (p.patch off bs).Has off bs := by
  intro i hi
  rw [byteAt_patch h, if_pos (by omega), Nat.add_sub_cancel_left]

namespace Has

theorem congr (h : p.Has off bs)
    (hpq : ∀ i, off ≤ i → i < off + bs.length → q.byteAt i = p.byteAt i) : q.Has off bs := by
  intro i hi
  rw [hpq (off + i) (by omega) (by omega)]
  exact h i hi

theorem byteAt {b : UInt8} (h : p.Has off [b]) : p.byteAt off = b := h 0 Nat.one_pos

theorem wordAt {w : UInt16} (h : p.Has off (be16Bytes w)) : p.wordAt off = w := by
  have h0 := h 0 (by simp)
  have h1 := h 1 (by simp)
  rw [Bytes.wordAt, ← Nat.add_zero off, h0, h1]
  exact be16_div_mod w

theorem octetsAt {n : ℕ} {v : Vector UInt8 n} (h : p.Has off v.toList) : p.octetsAt n off = v := by
  ext i hi
  simp only [Bytes.octetsAt, Vector.getElem_ofFn]
  rw [h i (by simpa using hi), byteAt_toList v i hi]

theorem slice (h : p.Has off bs) (hle : off + bs.length ≤ p.length) :
    p.slice off (off + bs.length) = bs := by
  apply ext_byteAt
  · rw [length_slice hle, Nat.add_sub_cancel_left]
  · intro i hi
    rw [length_slice hle, Nat.add_sub_cancel_left] at hi
    rw [byteAt_slice (by omega)]
    exact h i hi

end Has

/-- Two slices that meet. -/
theorem slice_append_slice {a b c : ℕ} (hab : a ≤ b) (hbc : b ≤ c) :
    p.slice a b ++ p.slice b c = p.slice a c := by
  have htake : p.take b = (p.take c).take b := by
    rw [List.take_take, Nat.min_eq_left hbc]
  have hdrop : p.slice b c = ((p.take c).drop a).drop (b - a) := by
    rw [Bytes.slice, List.drop_drop, Nat.add_sub_cancel' hab]
  rw [hdrop, Bytes.slice, htake, List.drop_take, List.take_append_drop]
  rfl

theorem slice_word (off : ℕ) (h : off + 2 ≤ p.length) :
    p.slice off (off + 2) = be16Bytes (p.wordAt off) := by
  have hhas : p.Has off (be16Bytes (p.wordAt off)) := by
    rw [Bytes.wordAt, be16Bytes_be16]
    intro i hi
    simp only [List.length_cons, List.length_nil] at hi
    interval_cases i <;> rfl
  exact hhas.slice (by simpa using h)

section Filling

variable {ε : Type} {fields : List (ℕ × Bytes)}

/-- The fields are written one after the other. -/
def putAll (fields : List (ℕ × Bytes)) : Act Bytes ε Unit :=
  fields.forM fun field => put field.1 field.2

/-- `q` is `p` with the fields filled in. -/
structure FilledIn (fields : List (ℕ × Bytes)) (p q : Bytes) : Prop where
  length : q.length = p.length
  has : ∀ field ∈ fields, q.Has field.1 field.2
  rest : ∀ i, (∀ field ∈ fields, i < field.1 ∨ field.1 + field.2.length ≤ i) →
    q.byteAt i = p.byteAt i

theorem run_putAll (fields : List (ℕ × Bytes))
    (hroom : ∀ field ∈ fields, field.1 + field.2.length ≤ p.length)
    (hapart : fields.Pairwise fun a b => a.1 + a.2.length ≤ b.1) :
    ∃ q, (putAll fields : Act Bytes ε Unit).run p = (.ok (), q) ∧ FilledIn fields p q := by
  induction fields generalizing p with
  | nil => exact ⟨p, rfl, rfl, fun field hmem => by simp at hmem, fun i _ => rfl⟩
  | cons field rest ih =>
    have hfield := hroom field List.mem_cons_self
    obtain ⟨hfirst, hrest⟩ := List.pairwise_cons.mp hapart
    have hlength : (p.patch field.1 field.2).length = p.length := length_patch hfield
    obtain ⟨q, hrun, hq⟩ := ih (fun other hmem => by
      rw [hlength]
      exact hroom other (List.mem_cons_of_mem _ hmem)) hrest
    refine ⟨q, ?_, hq.length.trans hlength, ?_, ?_⟩
    · exact (Act.bind_of_ok (run_put hfield)).trans hrun
    · intro other hmem
      rcases List.mem_cons.mp hmem with rfl | hmem
      · -- the later fields lie behind this one
        refine (has_patch hfield).congr fun i _ hi => hq.rest i fun later hlater => .inl ?_
        exact hi.trans_le (hfirst later hlater)
      · exact hq.has other hmem
    · intro i hi
      rw [hq.rest i fun other hmem => hi other (List.mem_cons_of_mem _ hmem),
        byteAt_patch_of_disjoint hfield (hi field List.mem_cons_self)]

/-- Words between the fields stay. -/
theorem FilledIn.wordAt (h : FilledIn fields p q) {k : ℕ}
    (hapart : ∀ field ∈ fields, k + 2 ≤ field.1 ∨ field.1 + field.2.length ≤ k) :
    q.wordAt k = p.wordAt k := by
  refine wordAt_congr (h.rest k fun field hmem => ?_) (h.rest (k + 1) fun field hmem => ?_)
  · have := hapart field hmem
    omega
  · have := hapart field hmem
    omega

/-- One more field, away from the others. -/
theorem FilledIn.patch (h : FilledIn fields p q) (off : ℕ) (bs : Bytes)
    (hroom : off + bs.length ≤ p.length)
    (hapart : ∀ field ∈ fields, field.1 + field.2.length ≤ off ∨ off + bs.length ≤ field.1) :
    FilledIn (fields ++ [(off, bs)]) p (q.patch off bs) := by
  have hroom' : off + bs.length ≤ q.length := h.length ▸ hroom
  refine ⟨(length_patch hroom').trans h.length, fun field hmem => ?_, fun i hi => ?_⟩
  · rcases List.mem_append.mp hmem with hmem | hmem
    · refine (h.has field hmem).congr fun i hlo hhi => byteAt_patch_of_disjoint hroom' ?_
      have := hapart field hmem
      omega
    · obtain rfl := List.mem_singleton.mp hmem
      exact has_patch hroom'
  · rw [byteAt_patch_of_disjoint hroom' (hi (off, bs) (by simp)),
      h.rest i fun field hmem => hi field (List.mem_append_left _ hmem)]

end Filling

end NewProxy.Bytes
