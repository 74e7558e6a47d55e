import Mathlib.Data.List.Basic
import Mathlib.Data.Nat.ModEq
import Mathlib.Logic.Function.Basic

/-!
# Ring buffers with free-running indices

Producer and consumer are 32-bit counters that wrap around, and the slot of an index
is its remainder by the size of the ring. The entries between two indices are a list;
a producer appends to it and a consumer takes its head, as long as the ring is not
larger than the range of the counters and is not overrun.
-/
namespace NewProxy.RingBuffer

variable {α : Type} {size : ℕ} {cells : ℕ → α} {head tail : UInt32}

/-- The entries from the index `head` up to `tail`. -/
def entries (size : ℕ) (cells : ℕ → α) (head tail : UInt32) : List α :=
  (List.range (tail - head).toNat).map fun i => cells ((head.toNat + i) % size)

@[simp] theorem length_entries : (entries size cells head tail).length = (tail - head).toNat := by
  simp [entries]

theorem entries_self (i : UInt32) : entries size cells i i = [] := by
  simp [entries]

/-- One more index is one more entry, short of a full turn of the counter. -/
theorem toNat_succ_sub (tail head : UInt32) (h : (tail - head).toNat < 2 ^ 32 - 1) :
    (tail + 1 - head).toNat = (tail - head).toNat + 1 := by
  rw [UInt32.toNat_sub] at h
  rw [UInt32.toNat_sub, UInt32.toNat_sub, UInt32.toNat_add]
  simp only [UInt32.reduceToNat]
  have := tail.toNat_lt
  have := head.toNat_lt
  omega

theorem toNat_sub_succ (h : head ≠ tail) :
    (tail - (head + 1)).toNat + 1 = (tail - head).toNat := by
  have hne : head.toNat ≠ tail.toNat := fun he => h (UInt32.toNat_inj.mp he)
  rw [UInt32.toNat_sub, UInt32.toNat_sub, UInt32.toNat_add]
  simp only [UInt32.reduceToNat]
  have := tail.toNat_lt
  have := head.toNat_lt
  omega

theorem toNat_add_sub {i : UInt32} (h : i.toNat ≤ (tail - head).toNat) :
    (tail - (head + i)).toNat + i.toNat = (tail - head).toNat := by
  rw [UInt32.toNat_sub] at h ⊢
  rw [UInt32.toNat_sub, UInt32.toNat_add]
  have := tail.toNat_lt
  have := head.toNat_lt
  have := i.toNat_lt
  omega

/-- Within one turn of the ring different entries have different slots. -/
theorem slot_ne {start i n : ℕ} (hi : i < n) (hn : n < size) :
    (start + i) % size ≠ (start + n) % size := by
  intro heq
  have hmod : i ≡ n [MOD size] := Nat.ModEq.add_left_cancel' start heq
  rw [Nat.ModEq, Nat.mod_eq_of_lt (hi.trans hn), Nat.mod_eq_of_lt hn] at hmod
  omega

section Wrap

variable (hsize : size ∣ 2 ^ 32)

include hsize

theorem slot_add (i k : UInt32) (j : ℕ) :
    ((i + k).toNat + j) % size = (i.toNat + (k.toNat + j)) % size := by
  rw [UInt32.toNat_add, Nat.add_mod, Nat.mod_mod_of_dvd _ hsize, ← Nat.add_mod, Nat.add_assoc]

/-- The slot of the tail, counted from the head. -/
theorem slot_tail (head tail : UInt32) : tail.toNat % size =
    (head.toNat + (tail - head).toNat) % size := by
  have h := slot_add hsize head (tail - head) 0
  rwa [show head + (tail - head) = tail by rw [UInt32.add_comm, UInt32.sub_add_cancel]] at h

/-- What is written at or behind the tail is not seen before it. -/
theorem entries_write {behind : UInt32} (x : α) (hle : (tail - head).toNat ≤ (behind - head).toNat)
    (hroom : (behind - head).toNat < size) :
    entries size (Function.update cells (behind.toNat % size) x) head tail =
      entries size cells head tail := by
  refine List.map_congr_left fun i hi => ?_
  rw [List.mem_range] at hi
  rw [slot_tail hsize head behind]
  exact Function.update_of_ne (slot_ne (hi.trans_le hle) hroom) _ _

/-- A producer that does not overrun the ring appends its entry. -/
theorem entries_push (hlt : size < 2 ^ 32) (hroom : (tail - head).toNat < size) (x : α) :
    entries size (Function.update cells (tail.toNat % size) x) head (tail + 1) =
      entries size cells head tail ++ [x] := by
  have hkept : entries size (Function.update cells (tail.toNat % size) x) head tail = _ :=
    entries_write hsize x (le_refl _) hroom
  rw [entries, toNat_succ_sub tail head (by omega), List.range_succ, List.map_append,
    ← hkept, entries, List.map_singleton, ← slot_tail hsize head tail, Function.update_self]

/-- A consumer takes the first entry. -/
theorem entries_pop (h : head ≠ tail) :
    entries size cells head tail =
      cells (head.toNat % size) :: entries size cells (head + 1) tail := by
  rw [entries, ← toNat_sub_succ h, List.range_succ_eq_map, List.map_cons, List.map_map,
    Nat.add_zero, entries]
  congr 1
  refine List.map_congr_left fun i _ => ?_
  rw [slot_add hsize, Function.comp_apply, UInt32.toNat_one, Nat.add_comm 1]

end Wrap

section Advances

variable {l l' : List α} {x : α}

/-- The consumer goes from `head` to `head'`, entries are added behind, and those it has not
read stay where they are. -/
def Advances (head head' : UInt32) (l l' : List α) : Prop :=
  (head' - head).toNat ≤ l.length ∧ ∃ added, l' = l.drop (head' - head).toNat ++ added

theorem Advances.push (h : l' = l ++ [x]) : Advances head head l l' := by
  rw [Advances, UInt32.sub_self]
  exact ⟨Nat.zero_le _, [x], h⟩

theorem Advances.of_eq {head' : UInt32} (hhead : head' = head) (h : l' = l) :
    Advances head head' l l' := by
  rw [Advances, hhead, UInt32.sub_self, h]
  exact ⟨Nat.zero_le _, [], (List.append_nil l).symm⟩

theorem Advances.pop {head' : UInt32} (hhead : head' = head + 1) (h : l = x :: l') :
    Advances head head' l l' := by
  rw [Advances, hhead, UInt32.add_comm, UInt32.add_sub_cancel, h]
  exact ⟨Nat.succ_le_succ (Nat.zero_le _), [], (List.append_nil l').symm⟩

end Advances

end NewProxy.RingBuffer
