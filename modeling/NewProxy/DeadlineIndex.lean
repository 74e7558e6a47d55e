import NewProxy.HashMap
import NewProxy.OrdMap

/-!
# Items filed under their deadlines

The items of a table are grouped into buckets by deadline, so that the expired
ones are found without a scan. `Indexes d f` says that the buckets are exactly
the deadlines `f` gives: every item is filed once, under its own deadline,
nothing else is filed and no bucket is empty. Filing, unfiling and popping the
due buckets keep it for the accordingly changed `f`.
-/
namespace NewProxy

abbrev DeadlineIndex (K : Type) := OrdMap ℕ (HashSet K)

namespace DeadlineIndex

variable {K : Type} [DecidableEq K]

def file (d : DeadlineIndex K) (t : ℕ) (k : K) : DeadlineIndex K :=
  d.insert t (((d.get t).getD HashMap.empty).insert k ())

/-- The item leaves its bucket, and a bucket left empty is dropped. -/
def unfile (d : DeadlineIndex K) (t : ℕ) (k : K) : DeadlineIndex K :=
  match d.get t with
  | none => d
  | some bucket =>
    if (bucket.remove k).isEmpty then d.remove t else d.insert t (bucket.remove k)

def dueKeys (now : ℕ) : List (ℕ × HashSet K) → List K
  | [] => []
  | (t, bucket) :: rest => if t ≤ now then bucket.keys ++ dueKeys now rest else []

def dropDue (now : ℕ) : List (ℕ × HashSet K) → List (ℕ × HashSet K)
  | [] => []
  | (t, bucket) :: rest => if t ≤ now then dropDue now rest else (t, bucket) :: rest

omit [DecidableEq K] in
theorem dropDue_sublist (now : ℕ) (l : List (ℕ × HashSet K)) : (dropDue now l).Sublist l := by
  induction l with
  | nil => exact List.Sublist.refl _
  | cons head rest ih =>
    obtain ⟨t, bucket⟩ := head
    simp only [dropDue]
    split_ifs
    · exact ih.cons _
    · exact List.Sublist.refl _

/-- The least bucket is popped as long as its deadline has passed. -/
def popDue (d : DeadlineIndex K) (now : ℕ) : List K × DeadlineIndex K :=
  (dueKeys now d.entries, ⟨dropDue now d.entries, d.sorted.sublist (dropDue_sublist now _)⟩)

def Filed (d : DeadlineIndex K) (t : ℕ) (k : K) : Prop :=
  ∃ bucket, d.get t = some bucket ∧ bucket.get k = some ()

structure Indexes (d : DeadlineIndex K) (f : K → Option ℕ) : Prop where
  filed : ∀ t k, Filed d t k ↔ f k = some t
  nonempty : ∀ t bucket, d.get t = some bucket → ∃ k, bucket.get k = some ()

theorem indexes_empty : Indexes (OrdMap.empty : DeadlineIndex K) fun _ => none := by
  constructor
  · simp [Filed]
  · simp

theorem filed_file {d : DeadlineIndex K} {t t' : ℕ} {k k' : K} :
    Filed (file d t k) t' k' ↔ (t' = t ∧ k' = k) ∨ Filed d t' k' := by
  simp only [Filed, file, OrdMap.get_insert]
  by_cases ht : t' = t
  · subst ht
    simp only [if_true, Option.some.injEq, exists_eq_left', HashMap.get_insert, true_and]
    by_cases hk : k' = k
    · simp [hk]
    · cases hd : d.get t' <;> simp [hk]
  · simp [ht]

theorem file_indexes {d : DeadlineIndex K} {f : K → Option ℕ} (h : Indexes d f) {k : K}
    (hk : f k = none) (t : ℕ) : Indexes (file d t k) (Function.update f k (some t)) := by
  constructor
  · intro t' k'
    rw [filed_file, h.filed, Function.update_apply]
    by_cases hkk : k' = k
    · subst hkk
      simp [hk, eq_comm]
    · simp [hkk]
  · intro t' bucket hb
    simp only [file, OrdMap.get_insert] at hb
    split_ifs at hb with ht
    · obtain rfl := Option.some.inj hb
      exact ⟨k, by simp [HashMap.get_insert]⟩
    · exact h.nonempty t' bucket hb

theorem filed_unfile {d : DeadlineIndex K} {t t' : ℕ} {k k' : K} :
    Filed (unfile d t k) t' k' ↔ Filed d t' k' ∧ ¬ (t' = t ∧ k' = k) := by
  simp only [unfile]
  cases hd : d.get t with
  | none =>
    simp only [Filed]
    by_cases ht : t' = t
    · simp [ht, hd]
    · simp [ht]
  | some bucket =>
    simp only
    by_cases ht : t' = t
    · subst ht
      split_ifs with he
      · have hnone := HashMap.isEmpty_iff.mp he k'
        rw [HashMap.get_remove] at hnone
        simp only [Filed, OrdMap.get_remove, if_true, hd, Option.some.injEq, exists_eq_left']
        grind
      · simp only [Filed, OrdMap.get_insert, if_true, hd, Option.some.injEq, exists_eq_left',
          HashMap.get_remove]
        grind
    · split_ifs
      · simp [Filed, OrdMap.get_remove, ht]
      · simp [Filed, OrdMap.get_insert, ht]

theorem unfile_nonempty {d : DeadlineIndex K} {t : ℕ} {k : K}
    (h : ∀ t bucket, d.get t = some bucket → ∃ k, bucket.get k = some ()) (t' : ℕ)
    (bucket' : HashSet K) (hb : (unfile d t k).get t' = some bucket') :
    ∃ k, bucket'.get k = some () := by
  simp only [unfile] at hb
  cases hd : d.get t with
  | none => exact h t' bucket' (by simpa [hd] using hb)
  | some bucket =>
    simp only [hd] at hb
    split_ifs at hb with he
    · rw [OrdMap.get_remove] at hb
      split_ifs at hb
      exact h t' bucket' hb
    · rw [OrdMap.get_insert] at hb
      split_ifs at hb
      · obtain rfl := Option.some.inj hb
        by_contra hnone
        apply he
        rw [HashMap.isEmpty_iff]
        intro j
        cases hj : (bucket.remove k).get j with
        | none => rfl
        | some u => exact absurd ⟨j, hj⟩ hnone
      · exact h t' bucket' hb

/-- Unfiling under the recorded deadline, or under any deadline of an item that
is not filed any more. -/
theorem unfile_indexes {d : DeadlineIndex K} {f : K → Option ℕ} (h : Indexes d f) {k : K} {t : ℕ}
    (hk : f k = some t ∨ f k = none) : Indexes (unfile d t k) (Function.update f k none) := by
  constructor
  · intro t' k'
    rw [filed_unfile, h.filed, Function.update_apply]
    by_cases hkk : k' = k
    · subst hkk
      rcases hk with hk | hk <;> simp [hk, eq_comm]
    · simp [hkk]
  · exact unfile_nonempty h.nonempty

theorem mem_dueKeys {now : ℕ} {l : List (ℕ × HashSet K)} (hl : l.Pairwise fun a b => a.1 < b.1)
    {k : K} : k ∈ dueKeys now l ↔ ∃ t bucket, (t, bucket) ∈ l ∧ t ≤ now ∧
    bucket.get k = some () := by
  induction l with
  | nil => simp [dueKeys]
  | cons head rest ih =>
    obtain ⟨t, bucket⟩ := head
    obtain ⟨ht, hrest⟩ := List.pairwise_cons.mp hl
    have hkeys : k ∈ bucket.keys ↔ bucket.get k = some () := by
      rw [← AList.mem_keys, ← AList.lookup_isSome]
      change (bucket.get k).isSome ↔ _
      cases bucket.get k <;> simp
    simp only [dueKeys]
    split_ifs with hnow
    · rw [List.mem_append, hkeys, ih hrest]
      simp only [List.mem_cons]
      grind
    · simp only [List.not_mem_nil, List.mem_cons, false_iff]
      rintro ⟨t', bucket', hmem, hle, -⟩
      rcases hmem with hmem | hmem
      · simp only [Prod.mk.injEq] at hmem
        omega
      · have := ht _ hmem
        simp only at this
        omega

omit [DecidableEq K] in
theorem mem_dropDue {now : ℕ} {l : List (ℕ × HashSet K)} (hl : l.Pairwise fun a b => a.1 < b.1)
    {t : ℕ} {bucket : HashSet K} :
    (t, bucket) ∈ dropDue now l ↔ (t, bucket) ∈ l ∧ now < t := by
  induction l with
  | nil => simp [dropDue]
  | cons head rest ih =>
    obtain ⟨t', bucket'⟩ := head
    obtain ⟨ht, hrest⟩ := List.pairwise_cons.mp hl
    simp only [dropDue]
    split_ifs with hnow
    · rw [ih hrest, List.mem_cons]
      grind
    · constructor
      · intro h
        refine ⟨h, ?_⟩
        rcases List.mem_cons.mp h with h | h
        · simp only [Prod.mk.injEq] at h
          omega
        · have := ht _ h
          simp only at this
          omega
      · exact fun h => h.1

theorem nodup_dueKeys {now : ℕ} {l : List (ℕ × HashSet K)} (hl : l.Pairwise fun a b => a.1 < b.1)
    (hf : ∀ t bucket t' bucket' k, (t, bucket) ∈ l → (t', bucket') ∈ l → bucket.get k = some () →
      bucket'.get k = some () → t = t') : (dueKeys now l).Nodup := by
  induction l with
  | nil => simp [dueKeys]
  | cons head rest ih =>
    obtain ⟨t, bucket⟩ := head
    obtain ⟨ht, hrest⟩ := List.pairwise_cons.mp hl
    simp only [dueKeys]
    split_ifs with hnow
    · refine List.nodup_append'.mpr ⟨bucket.keys_nodup, ih hrest ?_, ?_⟩
      · intro t1 b1 t2 b2 k h1 h2
        exact hf t1 b1 t2 b2 k (List.mem_cons_of_mem _ h1) (List.mem_cons_of_mem _ h2)
      · intro k hk hk'
        obtain ⟨t', bucket', hmem, -, hget⟩ := (mem_dueKeys hrest).mp hk'
        have hself : bucket.get k = some () := by
          have := AList.lookup_isSome.mpr (AList.mem_keys.mpr hk)
          change (bucket.get k).isSome at this
          obtain ⟨u, hu⟩ := Option.isSome_iff_exists.mp this
          exact hu
        have heq := hf t bucket t' bucket' k List.mem_cons_self (List.mem_cons_of_mem _ hmem)
          hself hget
        have hlt := ht _ hmem
        simp only at hlt
        omega
    · exact List.nodup_nil

theorem mem_popDue {d : DeadlineIndex K} {f : K → Option ℕ} (h : Indexes d f) {now : ℕ} {k : K} :
    k ∈ (popDue d now).1 ↔ ∃ t, f k = some t ∧ t ≤ now := by
  simp only [popDue, mem_dueKeys d.sorted, OrdMap.mem_entries, ← h.filed, Filed]
  grind

theorem nodup_popDue {d : DeadlineIndex K} {f : K → Option ℕ} (h : Indexes d f) (now : ℕ) :
    (popDue d now).1.Nodup := by
  apply nodup_dueKeys d.sorted
  intro t bucket t' bucket' k h1 h2 hk hk'
  have ht := (h.filed t k).mp ⟨bucket, OrdMap.mem_entries.mp h1, hk⟩
  have ht' := (h.filed t' k).mp ⟨bucket', OrdMap.mem_entries.mp h2, hk'⟩
  rw [ht] at ht'
  exact Option.some.inj ht'

/-- What is left indexes the deadlines still to come. -/
theorem popDue_indexes {d : DeadlineIndex K} {f : K → Option ℕ} (h : Indexes d f) (now : ℕ) :
    Indexes (popDue d now).2 fun k => (f k).filter fun t => now < t := by
  have hget : ∀ t bucket, (popDue d now).2.get t = some bucket ↔
      d.get t = some bucket ∧ now < t := by
    intro t bucket
    rw [← OrdMap.mem_entries, ← OrdMap.mem_entries]
    exact mem_dropDue d.sorted
  constructor
  · intro t k
    simp only [Filed, hget, Option.filter_eq_some_iff, ← h.filed, decide_eq_true_eq]
    grind
  · intro t bucket hb
    exact h.nonempty t bucket ((hget t bucket).mp hb).1

end DeadlineIndex

end NewProxy
