import NewProxy.HashMap
import NewProxy.OrdMap

/-!
# A map and its mirror

A map from keys to distinct numbers and the ordered map from the numbers back to the
keys. The ordered one lists the keys from the least number to the greatest.
-/
namespace NewProxy

variable {K S : Type} [DecidableEq K] [LT S] [DecidableEq S]

/-- The two maps are inverse to each other. -/
def Mirrored (map : HashMap K S) (order : OrdMap S K) : Prop :=
  ∀ k s, map.get k = some s ↔ order.get s = some k

namespace OrdMap

/-- The values, in the order of their keys. -/
def values (order : OrdMap S K) : List K := order.entries.map Prod.snd

variable {order rest : OrdMap S K} {s : S} {k : K} [IsStrictTotalOrder S (· < ·)]

omit [DecidableEq K] in
theorem mem_values : k ∈ order.values ↔ ∃ s, order.get s = some k := by
  simp only [values, List.mem_map, Prod.exists, exists_eq_right, mem_entries]

omit [DecidableEq K] in
/-- A number above all others goes to the end. -/
theorem values_insert_last [DecidableLT S] (h : ∀ j v, order.get j = some v → j < s) :
    (order.insert s k).values = order.values ++ [k] := by
  have hlast : ∀ l : List (S × K), (∀ e ∈ l, e.1 < s) → insertEntry s k l = l ++ [(s, k)] := by
    intro l
    induction l with
    | nil => exact fun _ => rfl
    | cons e l ih =>
      intro hl
      have he : e.1 < s := hl e List.mem_cons_self
      have hne : s ≠ e.1 := fun h => irrefl_of (· < ·) s (h ▸ he)
      rw [insertEntry, if_neg (asymm_of (· < ·) he), if_neg hne,
        ih fun e' he' => hl e' (List.mem_cons_of_mem _ he')]
      rfl
  have hentries : (order.insert s k).entries = order.entries ++ [(s, k)] :=
    hlast order.entries fun e he => h e.1 e.2 (mem_entries.mp he)
  simp only [values, hentries, List.map_append, List.map_cons, List.map_nil]

omit [DecidableEq K] in
/-- The least number is the first one. -/
theorem popFirst_eq_some (h : order.popFirst = some ((s, k), rest)) :
    order.entries = (s, k) :: rest.entries ∧ order.get s = some k ∧ rest = order.remove s := by
  obtain ⟨_ | ⟨e, l⟩, hsorted⟩ := order
  · cases h
  obtain ⟨rfl, rfl⟩ : (s, k) = e ∧ rest = ⟨l, hsorted.of_cons⟩ := by
    cases h
    exact ⟨rfl, rfl⟩
  refine ⟨rfl, mem_entries.mp List.mem_cons_self, ext_entries ?_⟩
  have habove : ∀ e ∈ l, e.1 ≠ s := fun e he hs =>
    irrefl_of (· < ·) s (hs ▸ (List.pairwise_cons.mp hsorted).1 e he)
  simp only [remove, ne_eq, decide_not, List.filter_cons, decide_true, Bool.not_true,
    Bool.false_eq_true, if_false]
  exact (List.filter_eq_self.mpr fun e he => by simp [habove e he]).symm

end OrdMap

namespace Mirrored

variable {map : HashMap K S} {order rest : OrdMap S K} {s : S} {k : K}
  [IsStrictTotalOrder S (· < ·)]

omit [IsStrictTotalOrder S (· < ·)] in
theorem remove (h : Mirrored map order) (hk : map.get k = some s) :
    Mirrored (map.remove k) (order.remove s) := by
  intro j t
  rw [HashMap.get_remove, OrdMap.get_remove]
  have hs := (h k s).mp hk
  have hj := h j t
  split_ifs with hjk hts hts
  · simp
  · subst hjk
    rw [hk, Option.some.injEq] at hj
    refine ⟨fun hn => ?_, fun hv => absurd (hj.mpr hv).symm hts⟩
    cases hn
  · subst hts
    rw [hs, Option.some.injEq] at hj
    refine ⟨fun hv => absurd (hj.mp hv).symm hjk, fun hn => ?_⟩
    cases hn
  · exact hj

theorem insert [DecidableLT S] (h : Mirrored map order) (hk : map.get k = none)
    (hs : order.get s = none) : Mirrored (map.insert k s) (order.insert s k) := by
  intro j t
  rw [HashMap.get_insert, OrdMap.get_insert]
  have hj := h j t
  split_ifs with hjk hts hts
  · subst hjk hts
    simp
  · subst hjk
    rw [hk] at hj
    refine ⟨fun hst => absurd (Option.some.inj hst).symm hts, fun hv => ?_⟩
    cases hj.mpr hv
  · subst hts
    rw [hs] at hj
    refine ⟨fun hv => ?_, fun hkj => absurd (Option.some.inj hkj).symm hjk⟩
    cases hj.mp hv
  · exact hj

theorem mem_values (h : Mirrored map order) : k ∈ order.values ↔ ∃ s, map.get k = some s := by
  rw [OrdMap.mem_values]
  exact exists_congr fun s => (h k s).symm

theorem nodup_values (h : Mirrored map order) : order.values.Nodup := by
  refine List.pairwise_map.mpr (List.Pairwise.imp_of_mem ?_ order.sorted)
  rintro ⟨s, k⟩ ⟨t, _⟩ hs ht hlt rfl
  have heq : map.get k = some s := (h k s).mpr (OrdMap.mem_entries.mp hs)
  rw [(h k t).mpr (OrdMap.mem_entries.mp ht)] at heq
  exact irrefl_of (· < ·) s (Option.some.inj heq ▸ hlt)

theorem values_remove (h : Mirrored map order) (hk : map.get k = some s) :
    (order.remove s).values = order.values.erase k := by
  rw [h.nodup_values.erase_eq_filter, OrdMap.values, OrdMap.values, List.filter_map]
  refine congrArg _ (List.filter_congr ?_)
  rintro ⟨t, j⟩ he
  have hj := (h j t).mpr (OrdMap.mem_entries.mp he)
  have hiff : t = s ↔ j = k := by
    constructor
    · rintro rfl
      exact Option.some.inj ((OrdMap.mem_entries.mp he).symm.trans ((h k t).mp hk))
    · rintro rfl
      exact Option.some.inj (hj.symm.trans hk)
  simp only [ne_eq, Function.comp_apply, bne, hiff, decide_not]
  rfl

/-- Both have as many entries. -/
theorem length_values (h : Mirrored map order) : order.values.length = map.len := by
  have hperm : (map.toList.map Prod.fst).Perm order.values := by
    refine (List.perm_ext_iff_of_nodup map.nodup_keys h.nodup_values).mpr fun k => ?_
    simp only [h.mem_values, List.mem_map, Prod.exists, exists_and_right, exists_eq_right,
      HashMap.mem_toList]
  rw [← hperm.length_eq, HashMap.toList, List.length_map, List.length_map]
  rfl

end Mirrored

end NewProxy
