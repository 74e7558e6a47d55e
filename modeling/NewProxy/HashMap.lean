import Mathlib.Algebra.Order.BigOperators.Group.List
import Mathlib.Data.List.AList
import Mathlib.Tactic

/-!
# Finite maps with one value type

Mathlib's association lists at a constant family, under the names of a hash
map. A set is a map to `Unit`. Iteration follows the list of entries; nothing
below depends on its order.
-/
namespace NewProxy

abbrev HashMap (K V : Type) := AList fun _ : K => V

abbrev HashSet (K : Type) := HashMap K Unit

namespace HashMap

variable {K V W : Type} [DecidableEq K]

def empty : HashMap K V := ∅

def get (m : HashMap K V) (k : K) : Option V := AList.lookup k m

def contains (m : HashMap K V) (k : K) : Bool := (m.get k).isSome

def insert (m : HashMap K V) (k : K) (v : V) : HashMap K V := AList.insert k v m

def remove (m : HashMap K V) (k : K) : HashMap K V := AList.erase k m

def len (m : HashMap K V) : ℕ := m.entries.length

def isEmpty (m : HashMap K V) : Bool := m.entries.isEmpty

def toList (m : HashMap K V) : List (K × V) := m.entries.map fun e => (e.1, e.2)

def retain (m : HashMap K V) (keep : K → V → Bool) : HashMap K V :=
  ⟨m.entries.filter fun e => keep e.1 e.2, m.nodupKeys.sublist List.filter_sublist⟩

def mapValues (m : HashMap K V) (f : V → W) : HashMap K W :=
  ⟨m.entries.map fun e => ⟨e.1, f e.2⟩, by
    have h := m.nodupKeys
    simp only [List.NodupKeys, List.keys, List.map_map] at h ⊢
    exact h⟩

@[simp] theorem get_empty (k : K) : (empty : HashMap K V).get k = none := rfl

theorem get_insert (m : HashMap K V) (k j : K) (v : V) :
    (m.insert k v).get j = if j = k then some v else m.get j := by
  by_cases h : j = k
  · subst h
    rw [if_pos rfl]
    exact AList.lookup_insert m
  · rw [if_neg h]
    exact AList.lookup_insert_ne h

theorem get_remove (m : HashMap K V) (k j : K) :
    (m.remove k).get j = if j = k then none else m.get j := by
  by_cases h : j = k
  · subst h
    rw [if_pos rfl]
    exact AList.lookup_erase j m
  · rw [if_neg h]
    exact AList.lookup_erase_ne h

@[simp] theorem remove_insert (m : HashMap K V) (k : K) (v : V) :
    (m.insert k v).remove k = m.remove k := by
  apply AList.ext
  exact List.kerase_cons_eq rfl

/-- Several keys removed in turn. -/
theorem get_foldl_remove (l : List (K × W)) (m : HashMap K V) (j : K) :
    (l.foldl (fun m e => m.remove e.1) m).get j =
      if j ∈ l.map Prod.fst then none else m.get j := by
  induction l generalizing m with
  | nil => simp
  | cons e l ih =>
    rw [List.foldl_cons, ih, get_remove]
    have hmem : j ∈ (e :: l).map Prod.fst ↔ j = e.1 ∨ j ∈ l.map Prod.fst := List.mem_cons
    rw [if_congr hmem rfl rfl]
    split_ifs <;> grind

theorem mem_entries {m : HashMap K V} {k : K} {v : V} :
    (⟨k, v⟩ : (_ : K) × V) ∈ m.entries ↔ m.get k = some v := by
  simpa [get] using (AList.mem_lookup_iff (s := m) (a := k) (b := v)).symm

@[simp] theorem mem_toList {m : HashMap K V} {k : K} {v : V} :
    (k, v) ∈ m.toList ↔ m.get k = some v := by
  rw [← mem_entries, toList, List.mem_map]
  constructor
  · rintro ⟨⟨k', v'⟩, he, heq⟩
    simp only [Prod.mk.injEq] at heq
    obtain ⟨rfl, rfl⟩ := heq
    exact he
  · intro h
    exact ⟨_, h, rfl⟩

omit [DecidableEq K] in
theorem nodup_keys (m : HashMap K V) : (m.toList.map Prod.fst).Nodup := by
  have h := m.nodupKeys
  simpa [toList, List.NodupKeys, List.keys, List.map_map, Function.comp_def] using h

theorem get_retain {m : HashMap K V} {keep : K → V → Bool} {k : K} {v : V} :
    (m.retain keep).get k = some v ↔ m.get k = some v ∧ keep k v := by
  rw [← mem_entries, ← mem_entries, retain, List.mem_filter]

@[simp] theorem get_mapValues (m : HashMap K V) (f : V → W) (k : K) :
    (m.mapValues f).get k = (m.get k).map f := by
  ext w
  rw [Option.map_eq_some_iff, ← mem_entries, mapValues, List.mem_map]
  constructor
  · rintro ⟨⟨k', v⟩, he, heq⟩
    simp only [Sigma.mk.injEq, heq_eq_eq] at heq
    obtain ⟨rfl, rfl⟩ := heq
    exact ⟨v, mem_entries.mp he, rfl⟩
  · rintro ⟨v, hv, rfl⟩
    exact ⟨⟨k, v⟩, mem_entries.mpr hv, rfl⟩

theorem len_insert {m : HashMap K V} {k : K} {v : V} (h : m.get k = none) :
    (m.insert k v).len = m.len + 1 := by
  have hk : k ∉ m := AList.lookup_eq_none.mp h
  rw [len, insert, AList.entries_insert_of_notMem hk]
  rfl

theorem len_remove {m : HashMap K V} {k : K} {v : V} (h : m.get k = some v) :
    (m.remove k).len + 1 = m.len := by
  have hs : (AList.lookup k m).isSome := by
    change (m.get k).isSome
    simp [h]
  have hk : k ∈ m.keys := AList.mem_keys.mp (AList.lookup_isSome.mp hs)
  have hl := List.length_erase_add_one hk
  rw [← AList.keys_erase] at hl
  simpa [len, remove, AList.keys, List.keys] using hl

theorem isEmpty_iff {m : HashMap K V} : m.isEmpty ↔ ∀ k, m.get k = none := by
  rw [isEmpty, List.isEmpty_iff]
  constructor
  · intro h k
    cases hg : m.get k with
    | none => rfl
    | some v =>
      have := mem_entries.mpr hg
      simp [h] at this
  · intro h
    apply List.eq_nil_iff_forall_not_mem.mpr
    rintro ⟨k, v⟩ he
    exact absurd (mem_entries.mp he) (by simp [h k])

section Sum

variable (f : V → ℕ)

/-- The sum of a measure over the values. -/
def sum (m : HashMap K V) : ℕ := (m.toList.map fun e => f e.2).sum

omit [DecidableEq K] in
@[simp] theorem sum_empty : sum f (empty : HashMap K V) = 0 := rfl

theorem sum_remove {m : HashMap K V} {k : K} {v : V} (h : m.get k = some v) :
    f v + sum f (m.remove k) = sum f m := by
  have hk : k ∈ m.entries.keys := List.mem_keys_of_mem (mem_entries.mpr h)
  obtain ⟨w, l₁, l₂, hnot, hsplit, herase⟩ := List.exists_of_kerase hk
  have hw : m.get k = some w := mem_entries.mp (by rw [hsplit]; simp)
  rw [h, Option.some_inj] at hw
  subst hw
  have herased : (m.remove k).entries = l₁ ++ l₂ := herase
  simp only [sum, toList, herased, hsplit, List.map_append, List.map_cons, List.sum_append,
    List.sum_cons]
  omega

theorem sum_remove_of_none {m : HashMap K V} {k : K} (h : m.get k = none) :
    sum f (m.remove k) = sum f m := by
  have hk : k ∉ m.entries.keys := AList.lookup_eq_none.mp h
  have herased : (m.remove k).entries = m.entries := List.kerase_of_notMem_keys hk
  rw [sum, toList, herased, sum, toList]

theorem sum_insert_remove (m : HashMap K V) (k : K) (v : V) :
    sum f (m.insert k v) = f v + sum f (m.remove k) := rfl

theorem sum_insert_of_none {m : HashMap K V} {k : K} {v : V} (h : m.get k = none) :
    sum f (m.insert k v) = f v + sum f m := by
  rw [sum_insert_remove, sum_remove_of_none f h]

theorem le_sum {m : HashMap K V} {k : K} {v : V} (h : m.get k = some v) : f v ≤ sum f m := by
  have hsum := sum_remove f h
  omega

omit [DecidableEq K] in
theorem sum_retain_le (m : HashMap K V) (keep : K → V → Bool) :
    sum f (m.retain keep) ≤ sum f m := by
  have hsub : (m.retain keep).toList.Sublist m.toList := List.filter_sublist.map _
  exact (hsub.map _).sum_le_sum fun _ _ => Nat.zero_le _

end Sum

omit [DecidableEq K] in
theorem len_retain_le (m : HashMap K V) (keep : K → V → Bool) : (m.retain keep).len ≤ m.len :=
  List.filter_sublist.length_le

end HashMap

end NewProxy
