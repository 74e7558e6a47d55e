import Mathlib.Order.Defs.Unbundled
import Mathlib.Tactic

/-!
# Finite maps ordered by key

The entries are kept sorted by key, so that iteration is ascending and the
first entry is the least one. A set is a map to `Unit`.
-/
namespace NewProxy

variable {K V : Type} [LT K]

/-- A sorted association list; equal keys cannot occur. -/
structure OrdMap (K V : Type) [LT K] where
  entries : List (K × V)
  sorted : entries.Pairwise fun a b => a.1 < b.1

abbrev OrdSet (K : Type) [LT K] := OrdMap K Unit

namespace OrdMap

theorem ext_entries {m n : OrdMap K V} (h : m.entries = n.entries) : m = n := by
  cases m
  cases n
  congr

instance [DecidableEq K] [DecidableEq V] : DecidableEq (OrdMap K V) := fun m n =>
  decidable_of_iff (m.entries = n.entries) ⟨ext_entries, congrArg entries⟩

def empty : OrdMap K V := ⟨[], List.Pairwise.nil⟩

def keys (m : OrdMap K V) : List K := m.entries.map Prod.fst

/-- The least entry, removed. -/
def popFirst (m : OrdMap K V) : Option ((K × V) × OrdMap K V) :=
  match m with
  | ⟨[], _⟩ => none
  | ⟨e :: rest, h⟩ => some (e, ⟨rest, h.of_cons⟩)

variable [DecidableEq K]

def lookup (k : K) : List (K × V) → Option V
  | [] => none
  | (j, v) :: rest => if j = k then some v else lookup k rest

def get (m : OrdMap K V) (k : K) : Option V := lookup k m.entries

def remove (m : OrdMap K V) (k : K) : OrdMap K V :=
  ⟨m.entries.filter fun e => e.1 ≠ k, m.sorted.filter _⟩

variable [DecidableLT K] [IsStrictTotalOrder K (· < ·)]

def insertEntry (k : K) (v : V) : List (K × V) → List (K × V)
  | [] => [(k, v)]
  | (j, w) :: rest =>
    if k < j then (k, v) :: (j, w) :: rest
    else if k = j then (k, v) :: rest
    else (j, w) :: insertEntry k v rest

omit [IsStrictTotalOrder K (· < ·)] in
theorem fst_mem_insertEntry {k : K} {v : V} {l : List (K × V)} {e : K × V}
    (h : e ∈ insertEntry k v l) : e.1 = k ∨ e ∈ l := by
  induction l with
  | nil => simp_all [insertEntry]
  | cons head rest ih =>
    obtain ⟨j, w⟩ := head
    simp only [insertEntry] at h
    split_ifs at h with h1 h2
    · rcases List.mem_cons.mp h with rfl | h
      · exact Or.inl rfl
      · exact Or.inr h
    · rcases List.mem_cons.mp h with rfl | h
      · exact Or.inl rfl
      · exact Or.inr (List.mem_cons_of_mem _ h)
    · rcases List.mem_cons.mp h with rfl | h
      · exact Or.inr List.mem_cons_self
      · exact (ih h).imp_right (List.mem_cons_of_mem _)

theorem sorted_insertEntry {k : K} {v : V} {l : List (K × V)}
    (h : l.Pairwise fun a b => a.1 < b.1) :
    (insertEntry k v l).Pairwise fun a b => a.1 < b.1 := by
  induction l with
  | nil => simp [insertEntry]
  | cons head rest ih =>
    obtain ⟨j, w⟩ := head
    obtain ⟨hj, hrest⟩ := List.pairwise_cons.mp h
    simp only [insertEntry]
    split_ifs with h1 h2
    · refine List.pairwise_cons.mpr ⟨?_, h⟩
      intro e he
      rcases List.mem_cons.mp he with rfl | he
      · exact h1
      · exact IsTrans.trans _ _ _ h1 (hj e he)
    · subst h2
      exact List.pairwise_cons.mpr ⟨hj, hrest⟩
    · refine List.pairwise_cons.mpr ⟨?_, ih hrest⟩
      intro e he
      rcases fst_mem_insertEntry he with rfl | he
      · rcases trichotomous_of (· < ·) j e.1 with hlt | heq | hgt
        · exact hlt
        · exact absurd heq.symm h2
        · exact absurd hgt h1
      · exact hj e he

def insert (m : OrdMap K V) (k : K) (v : V) : OrdMap K V :=
  ⟨insertEntry k v m.entries, sorted_insertEntry m.sorted⟩

omit [DecidableLT K] [IsStrictTotalOrder K (· < ·)] in
@[simp] theorem get_empty (k : K) : (empty : OrdMap K V).get k = none := rfl

theorem get_insert (m : OrdMap K V) (k j : K) (v : V) :
    (m.insert k v).get j = if j = k then some v else m.get j := by
  suffices h : ∀ l : List (K × V), lookup j (insertEntry k v l) =
      if j = k then some v else lookup j l from h m.entries
  intro l
  induction l with
  | nil => simp [insertEntry, lookup, eq_comm]
  | cons head rest ih =>
    obtain ⟨i, w⟩ := head
    simp only [insertEntry]
    split_ifs with h1 h2 h3 <;> grind [lookup]

omit [DecidableLT K] [IsStrictTotalOrder K (· < ·)] in
theorem get_remove (m : OrdMap K V) (k j : K) :
    (m.remove k).get j = if j = k then none else m.get j := by
  suffices h : ∀ l : List (K × V), lookup j (l.filter fun e => e.1 ≠ k) =
      if j = k then none else lookup j l from h m.entries
  intro l
  induction l with
  | nil => simp [lookup]
  | cons head rest ih =>
    obtain ⟨i, w⟩ := head
    by_cases hi : i = k
    · rw [List.filter_cons_of_neg (by simp [hi]), ih]
      grind [lookup]
    · rw [List.filter_cons_of_pos (by simp [hi])]
      grind [lookup]

omit [DecidableLT K] in
theorem mem_entries {m : OrdMap K V} {k : K} {v : V} : (k, v) ∈ m.entries ↔ m.get k = some v := by
  suffices h : ∀ l : List (K × V), (l.Pairwise fun a b => a.1 < b.1) →
      ((k, v) ∈ l ↔ lookup k l = some v) from h m.entries m.sorted
  intro l hl
  induction l with
  | nil => simp [lookup]
  | cons head rest ih =>
    obtain ⟨j, w⟩ := head
    obtain ⟨hj, hrest⟩ := List.pairwise_cons.mp hl
    rw [List.mem_cons, ih hrest, lookup]
    split_ifs with h
    · subst h
      have hnot : lookup j rest ≠ some v := by
        intro hv
        exact irrefl_of (· < ·) j (hj _ ((ih hrest).mpr hv))
      simp [hnot, eq_comm]
    · simp [Ne.symm h]

omit [DecidableLT K] in
theorem mem_keys {m : OrdMap K V} {k : K} : k ∈ m.keys ↔ (m.get k).isSome := by
  simp only [keys, List.mem_map, Option.isSome_iff_exists, ← mem_entries]
  constructor
  · rintro ⟨⟨j, v⟩, he, rfl⟩
    exact ⟨v, he⟩
  · rintro ⟨v, he⟩
    exact ⟨_, he, rfl⟩

omit [DecidableEq K] [DecidableLT K] in
theorem nodup_keys (m : OrdMap K V) : m.keys.Nodup := by
  refine List.pairwise_map.mpr (m.sorted.imp fun {a b} hlt heq => ?_)
  exact irrefl_of (· < ·) a.1 (heq ▸ hlt)

/-- The set of the members of a list. -/
def collect (l : List K) : OrdSet K := l.foldl (fun s k => s.insert k ()) empty

theorem get_collect (l : List K) (k : K) : (collect l).get k = if k ∈ l then some () else none := by
  suffices h : ∀ s : OrdSet K, (l.foldl (fun s k => s.insert k ()) s).get k =
      if k ∈ l then some () else s.get k from h empty
  induction l with
  | nil => simp
  | cons j rest ih =>
    intro s
    rw [List.foldl_cons, ih, get_insert]
    grind

end OrdMap

end NewProxy
