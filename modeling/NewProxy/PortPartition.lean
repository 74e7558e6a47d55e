import NewProxy.WorkerRuns

/-!
# The port ranges of the workers

The SNAT ports are cut into one range for each worker. Workers lease ports without
a lock between them, so two leases of different workers answer to different tuples
only because the cut is exact.
-/
namespace NewProxy

open Outcome

/-- The arithmetic is that of `u32`, after a cast of both counts. -/
def workerPortRange {ε : Type} (first last : UInt16) (workerId workerCount : ℕ) :
    Outcome ε (Option (UInt16 × UInt16)) :=
  if workerCount = 0 ∨ workerCount ≤ workerId ∨ last < first then .ok none
  else
    let start := first.toUInt32
    let total := last.toUInt32 - start + 1
    let count := UInt32.ofNat workerCount
    if total < count then .ok none
    -- the source divides
    else if count = 0 then panic
    else
      let base := total / count
      let extra := total % count
      let worker := UInt32.ofNat workerId
      let offset := worker * base + min worker extra
      let length := base + if worker < extra then 1 else 0
      .ok (some ((start + offset).toUInt16, (start + offset + length - 1).toUInt16))

namespace PortPartition

/-- Where the share of the `w`-th of `n` workers begins. -/
def offset (total n w : ℕ) : ℕ := w * (total / n) + min w (total % n)

def size (total n w : ℕ) : ℕ := total / n + if w < total % n then 1 else 0

variable {total n : ℕ}

theorem offset_succ (total n w : ℕ) :
    offset total n (w + 1) = offset total n w + size total n w := by
  simp only [offset, size, Nat.succ_mul]
  split_ifs <;> omega

theorem offset_zero (total n : ℕ) : offset total n 0 = 0 := by simp [offset]

theorem offset_all (total : ℕ) (hn : 0 < n) : offset total n n = total := by
  rw [offset, min_eq_right (Nat.mod_lt _ hn).le]
  exact Nat.div_add_mod total n

theorem offset_mono (total n : ℕ) : Monotone (offset total n) :=
  monotone_nat_of_le_succ fun w => by rw [offset_succ]; exact Nat.le_add_right _ _

theorem size_pos (hn : 0 < n) (h : n ≤ total) (w : ℕ) : 0 < size total n w :=
  Nat.lt_of_lt_of_le (Nat.div_pos h hn) (Nat.le_add_right _ _)

/-- Every place of the whole belongs to a share. -/
theorem exists_share (hn : 0 < n) {i : ℕ} (hi : i < total) :
    ∃ w < n, offset total n w ≤ i ∧ i < offset total n (w + 1) := by
  have hall : ∃ w, i < offset total n w := ⟨n, by rwa [offset_all total hn]⟩
  -- the first share that ends after the place
  have hlt := Nat.find_spec hall
  obtain ⟨w, hw⟩ : ∃ w, Nat.find hall = w + 1 := by
    refine Nat.exists_eq_succ_of_ne_zero fun h0 => ?_
    rw [h0, offset_zero] at hlt
    omega
  rw [hw] at hlt
  refine ⟨w, ?_, Nat.not_lt.mp (Nat.find_min hall (by omega)), hlt⟩
  have hmin := Nat.find_min' hall (m := n) (by rwa [offset_all total hn])
  omega

/-- Shares do not overlap. -/
theorem share_unique {w w' i : ℕ} (h : offset total n w ≤ i ∧ i < offset total n (w + 1))
    (h' : offset total n w' ≤ i ∧ i < offset total n (w' + 1)) : w = w' := by
  rcases Nat.lt_trichotomy w w' with hlt | rfl | hlt
  · have := offset_mono total n (show w + 1 ≤ w' from hlt)
    omega
  · rfl
  · have := offset_mono total n (show w' + 1 ≤ w from hlt)
    omega

end PortPartition

open PortPartition

section Range

variable {first last : UInt16} {n : ℕ}

/-- The number of ports in `first..=last`. -/
def portCount (first last : UInt16) : ℕ := last.toNat + 1 - first.toNat

/-- What the 32-bit computation returns, in numbers that do not wrap. -/
theorem workerPortRange_ok {ε : Type} (h : first ≤ last) (hn : n ≤ portCount first last) {w : ℕ}
    (hw : w < n) :
    ∃ lo hi : UInt16, (workerPortRange first last w n : Outcome ε _) = .ok (some (lo, hi)) ∧
      lo.toNat = first.toNat + offset (portCount first last) n w ∧
      hi.toNat + 1 = first.toNat + offset (portCount first last) n (w + 1) := by
  have hfirst := first.toNat_lt
  have hlast := last.toNat_lt
  have hle := UInt16.le_iff_toNat_le.mp h
  have hcount : portCount first last ≤ 65536 := by rw [portCount]; omega
  set total := portCount first last with htotal
  -- the casts are exact
  have hn32 : (UInt32.ofNat n).toNat = n := by rw [UInt32.toNat_ofNat']; omega
  have hw32 : (UInt32.ofNat w).toNat = w := by rw [UInt32.toNat_ofNat']; omega
  have htotal32 : (last.toUInt32 - first.toUInt32 + 1).toNat = total := by
    rw [UInt32.toNat_add, UInt32.toNat_sub_of_le _ _ (by
      rw [UInt32.le_iff_toNat_le]; simpa using hle)]
    simp only [UInt16.toNat_toUInt32, UInt32.toNat_one]
    rw [htotal, portCount]
    omega
  have hend : offset total n (w + 1) ≤ total := by
    calc offset total n (w + 1) ≤ offset total n n := offset_mono total n hw
      _ = total := offset_all total (by omega)
  have hpos := size_pos (by omega) hn w
  have hsucc := offset_succ total n w
  have hmul : w * (total / n) ≤ offset total n w := Nat.le_add_right _ _
  have hmin : (min (UInt32.ofNat w) ((last.toUInt32 - first.toUInt32 + 1) % UInt32.ofNat n)).toNat =
      min w (total % n) := by
    rw [UInt32.toNat_min, UInt32.toNat_mod, htotal32, hn32, hw32]
  have hoff : (UInt32.ofNat w * ((last.toUInt32 - first.toUInt32 + 1) / UInt32.ofNat n) +
      min (UInt32.ofNat w) ((last.toUInt32 - first.toUInt32 + 1) % UInt32.ofNat n)).toNat =
      offset total n w := by
    rw [UInt32.toNat_add, UInt32.toNat_mul, UInt32.toNat_div, hmin, htotal32, hn32, hw32]
    rw [Nat.mod_eq_of_lt (a := w * (total / n)) (by omega)]
    exact Nat.mod_eq_of_lt (by rw [← offset]; omega)
  have hlen : ((last.toUInt32 - first.toUInt32 + 1) / UInt32.ofNat n +
      (if UInt32.ofNat w < (last.toUInt32 - first.toUInt32 + 1) % UInt32.ofNat n then 1
        else 0)).toNat = size total n w := by
    have hlt : UInt32.ofNat w < (last.toUInt32 - first.toUInt32 + 1) % UInt32.ofNat n ↔
        w < total % n := by
      rw [UInt32.lt_iff_toNat_lt, UInt32.toNat_mod, htotal32, hn32, hw32]
    rw [UInt32.toNat_add, UInt32.toNat_div, htotal32, hn32]
    simp only [hlt]
    rw [size] at hsucc ⊢
    split_ifs at hsucc ⊢ <;> simp <;> omega
  have hrun : (workerPortRange first last w n : Outcome ε _) = .ok (some
      ((first.toUInt32 + (UInt32.ofNat w * ((last.toUInt32 - first.toUInt32 + 1) / UInt32.ofNat n) +
        min (UInt32.ofNat w) ((last.toUInt32 - first.toUInt32 + 1) % UInt32.ofNat n))).toUInt16,
      (first.toUInt32 + (UInt32.ofNat w * ((last.toUInt32 - first.toUInt32 + 1) / UInt32.ofNat n) +
        min (UInt32.ofNat w) ((last.toUInt32 - first.toUInt32 + 1) % UInt32.ofNat n)) +
        ((last.toUInt32 - first.toUInt32 + 1) / UInt32.ofNat n +
        (if UInt32.ofNat w < (last.toUInt32 - first.toUInt32 + 1) % UInt32.ofNat n then 1 else 0)) -
        1).toUInt16)) := by
    rw [workerPortRange, if_neg, if_neg, if_neg]
    · rw [← UInt32.toNat_inj, hn32, UInt32.toNat_zero]
      omega
    · rw [UInt32.lt_iff_toNat_lt, htotal32, hn32]
      omega
    · rw [UInt16.lt_iff_toNat_lt]
      omega
  have hbound : first.toNat + total ≤ 65536 := by rw [htotal, portCount]; omega
  refine ⟨_, _, hrun, ?_, ?_⟩
  · rw [UInt32.toNat_toUInt16, UInt32.toNat_add, hoff, UInt16.toNat_toUInt32]
    omega
  · rw [UInt32.toNat_toUInt16, UInt32.toNat_sub_of_le _ _ (by
      rw [UInt32.le_iff_toNat_le, UInt32.toNat_add, UInt32.toNat_add, hoff, hlen,
        UInt16.toNat_toUInt32, UInt32.toNat_one]
      omega), UInt32.toNat_add, UInt32.toNat_add, hoff, hlen, UInt16.toNat_toUInt32,
      UInt32.toNat_one]
    omega

end Range

namespace FlowWorkerState

/-- The workers after calls on any of them, in any order. -/
def interleave (workers : ℕ → FlowWorkerState) (calls : List (ℕ × DnsFlowConfig × Op)) :
    ℕ → FlowWorkerState :=
  calls.foldl (fun workers call =>
    Function.update workers call.1 ((workers call.1).after [call.2])) workers

/-- Each worker has seen its own calls. -/
theorem interleave_apply (workers : ℕ → FlowWorkerState) (calls : List (ℕ × DnsFlowConfig × Op))
    (w : ℕ) : interleave workers calls w =
      (workers w).after ((calls.filter fun call => call.1 = w).map Prod.snd) := by
  induction calls generalizing workers with
  | nil => rfl
  | cons call rest ih =>
    rw [interleave, List.foldl_cons, ← interleave, ih]
    by_cases h : call.1 = w
    · subst h
      rw [Function.update_self, List.filter_cons_of_pos (by simp), List.map_cons]
      rfl
    · rw [Function.update_of_ne (Ne.symm h), List.filter_cons_of_neg (by simp [h])]

/-- The port of every lease of a worker is one of its range. -/
theorem lease_port_mem {workerId : ℕ} {snatIpv4 : Option (Vector UInt8 4)}
    {snatIpv6 : Option (Vector UInt8 16)} {first last : UInt16} {start : FlowWorkerState}
    (hstart : newDual workerId snatIpv4 snatIpv6 first last = .ok start)
    (ops : List (DnsFlowConfig × Op)) {id : SessionId} {binding : NatBinding}
    (hb : (start.after ops).sessions.nat.get id = some binding) :
    first ≤ binding.translated.sourcePort ∧ binding.translated.sourcePort ≤ last := by
  have hsound : Sound first last False ⟨.v4 (Vector.replicate 4 0), 0⟩ 0 (start.after ops) :=
    after_sound (sound_newDual hstart) ops fun _ _ hs => hs.elim
  obtain ⟨ephemeral, hl, -⟩ := hsound
  obtain ⟨locator, hlease⟩ := hl.sessions.nat.get_eq_some.mp hb
  exact hl.sessions.nat.leased id _ hlease

theorem newDual_ok (workerId : ℕ) (snatIpv4 : Option (Vector UInt8 4))
    (snatIpv6 : Option (Vector UInt8 16)) {first last : UInt16} (h : first ≤ last) :
    ∃ state, newDual workerId snatIpv4 snatIpv6 first last = .ok state := by
  rw [newDual, SessionTable.newDual, NatTable.newDual, ensure, if_pos h]
  exact ⟨_, rfl⟩

/-- The ranges of the workers are a partition of the ports into consecutive pieces of
nearly the same size, and so no two leases of different workers ever answer to one
tuple. -/
theorem workerPortRange_partition {first last : UInt16} (h : first ≤ last) {n : ℕ} (hn : 1 ≤ n)
    (hports : n ≤ portCount first last) :
    ∃ lo hi : ℕ → UInt16,
      (∀ w < n, (workerPortRange first last w n : Outcome Empty _) = .ok (some (lo w, hi w))) ∧
      (∀ w < n, lo w ≤ hi w) ∧
      lo 0 = first ∧ hi (n - 1) = last ∧
      (∀ w, w + 1 < n → (lo (w + 1)).toNat = (hi w).toNat + 1) ∧
      (∀ w < n, ∀ w' < n, ∀ port, lo w ≤ port ∧ port ≤ hi w → lo w' ≤ port ∧ port ≤ hi w' →
        w = w') ∧
      (∀ port, first ≤ port ∧ port ≤ last ↔ ∃ w < n, lo w ≤ port ∧ port ≤ hi w) ∧
      (∀ w < n, ∀ w' < n, portCount (lo w) (hi w) ≤ portCount (lo w') (hi w') + 1) ∧
      (∀ w < n, (lo w).toNat = first.toNat + offset (portCount first last) n w ∧
        (hi w).toNat + 1 = (lo w).toNat + size (portCount first last) n w) ∧
      ∀ (snatIpv4 : Option (Vector UInt8 4)) (snatIpv6 : Option (Vector UInt8 16))
        (start : ℕ → FlowWorkerState),
        (∀ w < n, newDual w snatIpv4 snatIpv6 (lo w) (hi w) = .ok (start w)) →
        ∀ calls, ∀ w < n, ∀ w' < n, w ≠ w' → ∀ id id' binding binding',
          (interleave start calls w).sessions.nat.get id = some binding →
          (interleave start calls w').sessions.nat.get id' = some binding' →
          ReverseNatKey.fromTranslatedFlow binding.translated ≠
            .fromTranslatedFlow binding'.translated := by
  set total := portCount first last with htotal
  have hle := UInt16.le_iff_toNat_le.mp h
  have hcount : first.toNat + total = last.toNat + 1 := by rw [htotal, portCount]; omega
  have hrange : ∀ w, ∃ lo hi : UInt16, w < n →
      (workerPortRange first last w n : Outcome Empty _) = .ok (some (lo, hi)) ∧
      lo.toNat = first.toNat + offset total n w ∧
      hi.toNat + 1 = first.toNat + offset total n (w + 1) := by
    intro w
    by_cases hw : w < n
    · obtain ⟨lo, hi, hrest⟩ := workerPortRange_ok (ε := Empty) h hports hw
      exact ⟨lo, hi, fun _ => hrest⟩
    · exact ⟨0, 0, fun hc => absurd hc hw⟩
  choose lo hi hrange using hrange
  have hmem : ∀ w < n, ∀ port : UInt16, lo w ≤ port ∧ port ≤ hi w ↔ first ≤ port ∧
      offset total n w ≤ port.toNat - first.toNat ∧
        port.toNat - first.toNat < offset total n (w + 1) := by
    intro w hw port
    obtain ⟨-, hlo, hhi⟩ := hrange w hw
    simp only [UInt16.le_iff_toNat_le]
    omega
  have hsucc : ∀ w, offset total n (w + 1) = offset total n w + size total n w :=
    offset_succ total n
  have hdisjoint : ∀ w < n, ∀ w' < n, ∀ port, lo w ≤ port ∧ port ≤ hi w →
      lo w' ≤ port ∧ port ≤ hi w' → w = w' := by
    intro w hw w' hw' port hp hp'
    exact share_unique ((hmem w hw port).mp hp).2 ((hmem w' hw' port).mp hp').2
  refine ⟨lo, hi, fun w hw => (hrange w hw).1, fun w hw => ?_, ?_, ?_, fun w hw => ?_, hdisjoint,
    fun port => ?_, fun w hw w' hw' => ?_, fun w hw => ?_, ?_⟩
  · obtain ⟨-, hlo, hhi⟩ := hrange w hw
    have hpos := size_pos (by omega) hports w
    have := hsucc w
    rw [UInt16.le_iff_toNat_le]
    omega
  · obtain ⟨-, hlo, -⟩ := hrange 0 (by omega)
    rw [offset_zero] at hlo
    exact UInt16.toNat_inj.mp (by omega)
  · obtain ⟨-, -, hhi⟩ := hrange (n - 1) (by omega)
    rw [Nat.sub_add_cancel hn, offset_all total (by omega)] at hhi
    exact UInt16.toNat_inj.mp (by omega)
  · obtain ⟨-, -, hhi⟩ := hrange w (by omega)
    obtain ⟨-, hlo, -⟩ := hrange (w + 1) hw
    omega
  · constructor
    · rintro ⟨hf, hl⟩
      rw [UInt16.le_iff_toNat_le] at hf hl
      obtain ⟨w, hw, hshare⟩ := exists_share (show 0 < n by omega)
        (show port.toNat - first.toNat < total by omega)
      exact ⟨w, hw, (hmem w hw port).mpr ⟨UInt16.le_iff_toNat_le.mpr hf, hshare⟩⟩
    · rintro ⟨w, hw, hp⟩
      obtain ⟨hf, hshare⟩ := (hmem w hw port).mp hp
      have hend : offset total n (w + 1) ≤ total := by
        calc offset total n (w + 1) ≤ offset total n n := offset_mono total n hw
          _ = total := offset_all total (by omega)
      refine ⟨hf, UInt16.le_iff_toNat_le.mpr ?_⟩
      omega
  · obtain ⟨-, hlo, hhi⟩ := hrange w hw
    obtain ⟨-, hlo', hhi'⟩ := hrange w' hw'
    have h1 := hsucc w
    have h2 := hsucc w'
    rw [size] at h1 h2
    simp only [portCount]
    split_ifs at h1 h2 <;> omega
  · obtain ⟨-, hlo, hhi⟩ := hrange w hw
    exact ⟨hlo, by rw [hhi, hsucc, hlo]; omega⟩
  · intro snatIpv4 snatIpv6 start hstart calls w hw w' hw' hne id id' binding binding' hb hb' hkey
    rw [interleave_apply] at hb hb'
    have hport := lease_port_mem (hstart w hw) _ hb
    have hport' := lease_port_mem (hstart w' hw') _ hb'
    rw [ReverseNatKey.sourcePort_eq_of_key hkey] at hport
    exact hne (hdisjoint w hw w' hw' _ hport hport')

/-- Three workers share the last eight ports. The first two translate one datagram each,
from ports 65528 and 65531. -/
theorem workerPortRange_partition_last : ∃ (lo hi : ℕ → UInt16) (start : ℕ → FlowWorkerState),
    lo 2 = 65534 ∧ hi 2 = 65535 ∧
    (∀ w < 3, newDual w (some #v[192, 0, 2, 1]) none (lo w) (hi w) = .ok (start w)) ∧
    ∃ (config : DnsFlowConfig) (packet : Bytes) (binding binding' : NatBinding),
      let workers := interleave start
        [(0, config, .handleIntercept ⟨3, 0⟩ packet ⟨⟨1⟩, 0, 0⟩ ⟨4, 0⟩ 7 7),
          (1, config, .handleIntercept ⟨3, 0⟩ packet ⟨⟨1⟩, 1, 0⟩ ⟨4, 0⟩ 7 7)]
      (workers 0).sessions.nat.get ⟨1⟩ = some binding ∧
      (workers 1).sessions.nat.get ⟨1⟩ = some binding' ∧
      ReverseNatKey.fromTranslatedFlow binding.translated ≠
        .fromTranslatedFlow binding'.translated := by
  obtain ⟨lo, hi, hrange, hle, -, -, -, -, -, -, -, hkeys⟩ := workerPortRange_partition
    (show (65528 : UInt16) ≤ 65535 by decide) (show 1 ≤ 3 by decide) (by decide)
  have hends : ∀ w < 3, ∀ r, (workerPortRange 65528 65535 w 3 : Outcome Empty _) = .ok (some r) →
      (lo w, hi w) = r := fun w hw r hr => by
    rw [hrange w hw, Except.ok.injEq, Option.some_inj] at hr
    exact hr
  have hlo0 := hends 0 (by decide) (65528, 65530) (by decide +kernel)
  have hlo1 := hends 1 (by decide) (65531, 65533) (by decide +kernel)
  have hlo2 := hends 2 (by decide) (65534, 65535) (by decide +kernel)
  have hnew : ∀ w, ∃ s, w < 3 → newDual w (some #v[192, 0, 2, 1]) none (lo w) (hi w) = .ok s := by
    intro w
    by_cases hw : w < 3
    · obtain ⟨s, hs⟩ := newDual_ok w (some #v[192, 0, 2, 1]) none (hle w hw)
      exact ⟨s, fun _ => hs⟩
    · obtain ⟨s, -⟩ := newDual_ok w none none (show (0 : UInt16) ≤ 0 by decide)
      exact ⟨s, fun hc => absurd hc hw⟩
  choose start hstart using hnew
  let config : DnsFlowConfig := ⟨⟨.v4 #v[10, 0, 0, 53], 53⟩, ⟨.v4 #v[10, 0, 0, 54], 53⟩,
    ⟨.v4 #v[9, 9, 9, 9], 53⟩, ⟨HashMap.empty⟩, 8, 5, true⟩
  let packet : Bytes := [69, 0, 0, 28, 0, 1, 0, 0, 9, 17, 224, 22, 192, 168, 1, 2, 8, 8, 8, 8,
    19, 136, 0, 53, 0, 8, 0, 0]
  have hzero := hstart 0 (by decide)
  have hone := hstart 1 (by decide)
  rw [(Prod.mk.inj hlo0).1, (Prod.mk.inj hlo0).2] at hzero
  rw [(Prod.mk.inj hlo1).1, (Prod.mk.inj hlo1).2] at hone
  have hzero := Except.ok.inj (hzero.symm.trans rfl)
  have hone := Except.ok.inj (hone.symm.trans rfl)
  have hget0 : ((interleave start
      [(0, config, .handleIntercept ⟨3, 0⟩ packet ⟨⟨1⟩, 0, 0⟩ ⟨4, 0⟩ 7 7),
        (1, config, .handleIntercept ⟨3, 0⟩ packet ⟨⟨1⟩, 1, 0⟩ ⟨4, 0⟩ 7 7)]
      0).sessions.nat.get ⟨1⟩).isSome := by
    rw [interleave_apply, hzero]
    decide +kernel
  have hget1 : ((interleave start
      [(0, config, .handleIntercept ⟨3, 0⟩ packet ⟨⟨1⟩, 0, 0⟩ ⟨4, 0⟩ 7 7),
        (1, config, .handleIntercept ⟨3, 0⟩ packet ⟨⟨1⟩, 1, 0⟩ ⟨4, 0⟩ 7 7)]
      1).sessions.nat.get ⟨1⟩).isSome := by
    rw [interleave_apply, hone]
    decide +kernel
  obtain ⟨binding, hb⟩ := Option.isSome_iff_exists.mp hget0
  obtain ⟨binding', hb'⟩ := Option.isSome_iff_exists.mp hget1
  exact ⟨lo, hi, start, (Prod.mk.inj hlo2).1, (Prod.mk.inj hlo2).2, hstart, config, packet, binding,
    binding', hb, hb', hkeys _ _ start hstart _ 0 (by decide) 1 (by decide)
    (by decide) _ _ _ _ hb hb'⟩

end FlowWorkerState

end NewProxy
