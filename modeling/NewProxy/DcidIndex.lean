import NewProxy.Directory

/-!
# The index of connection ids

Three maps that several flow workers write: the owners of the active ids, those
of the staged ones, and the active ids of each flow. `Coherent` says how they
belong together. Each operation is described by what lookups return after it, for
the id it is about and for all others; the invariant, the owners that stay and
the atomic batch all come from these descriptions.
-/
namespace NewProxy

namespace ActiveDcidIndex

variable {index index' : ActiveDcidIndex} {owner : DcidOwner} {dcid : Bytes}

/-- `dcid` is filed under the flow `id`. -/
def Lists (index : ActiveDcidIndex) (id : QuicFlowId) (dcid : Bytes) : Prop :=
  ∃ dcids, index.byFlow.get id = some dcids ∧ dcids.get dcid = some ()

structure Coherent (index : ActiveDcidIndex) : Prop where
  disjoint : ∀ dcid owner, index.byDcid.get dcid = some owner → index.stagedByDcid.get dcid = none
  lists : ∀ id dcid, index.Lists id dcid ↔
    ∃ owner, index.byDcid.get dcid = some owner ∧ owner.quicFlowId = id
  nonempty : ∀ id dcids, index.byFlow.get id = some dcids → ∃ dcid, dcids.get dcid = some ()

/-- The three maps answer alike. -/
structure SameMaps (index index' : ActiveDcidIndex) : Prop where
  byDcid : ∀ dcid, index'.byDcid.get dcid = index.byDcid.get dcid
  stagedByDcid : ∀ dcid, index'.stagedByDcid.get dcid = index.stagedByDcid.get dcid
  byFlow : ∀ id, index'.byFlow.get id = index.byFlow.get id

theorem coherent_empty : Coherent .empty := by
  refine ⟨fun dcid owner h => ?_, fun id dcid => ?_, fun id dcids h => ?_⟩
  · cases h
  · simp [Lists, empty]
  · cases h

theorem SameMaps.refl (index : ActiveDcidIndex) : SameMaps index index :=
  ⟨fun _ => rfl, fun _ => rfl, fun _ => rfl⟩

theorem SameMaps.resolve (h : SameMaps index index') (dcid : Bytes) :
    index'.resolve dcid = index.resolve dcid := by
  rw [ActiveDcidIndex.resolve, ActiveDcidIndex.resolve, h.byDcid, h.stagedByDcid]

theorem Coherent.of_sameMaps (h : Coherent index) (hs : SameMaps index index') :
    Coherent index' := by
  have hlists : ∀ id dcid, index'.Lists id dcid ↔ index.Lists id dcid := fun id dcid => by
    rw [Lists, Lists, hs.byFlow]
  refine ⟨fun dcid owner => ?_, fun id dcid => ?_, fun id dcids => ?_⟩
  · rw [hs.byDcid, hs.stagedByDcid]
    exact h.disjoint dcid owner
  · rw [hlists, h.lists, hs.byDcid]
  · rw [hs.byFlow]
    exact h.nonempty id dcids

/-- An active id is not shadowed by a staged one. -/
theorem Coherent.resolve_eq_some (h : Coherent index) :
    index.resolve dcid = some owner ↔
      index.byDcid.get dcid = some owner ∨ index.stagedByDcid.get dcid = some owner := by
  rw [resolve]
  cases hb : index.byDcid.get dcid with
  | none => simp
  | some other => simp [h.disjoint dcid other hb]

theorem resolve_eq_none :
    index.resolve dcid = none ↔
      index.byDcid.get dcid = none ∧ index.stagedByDcid.get dcid = none := by
  rw [resolve]
  cases index.byDcid.get dcid <;> simp

section Stage

theorem refused_empty (h : dcid = []) (index : ActiveDcidIndex) :
    (Act.call (Outcome.ensure (dcid ≠ []) QuicFlowError.emptyDcid)).run index =
      (.error (.error .emptyDcid), index) := by
  simp [Outcome.ensure, Outcome.fail, h]

theorem accepted_nonempty (h : dcid ≠ []) (index : ActiveDcidIndex) :
    (Act.call (Outcome.ensure (dcid ≠ []) QuicFlowError.emptyDcid)).run index =
      (.ok (), index) := by
  simp [Outcome.ensure, h]

def staged (owner : DcidOwner) (dcid : Bytes) (index : ActiveDcidIndex) : ActiveDcidIndex :=
  { index with stagedByDcid := index.stagedByDcid.insert dcid owner }

theorem resolve_staged (hnone : index.resolve dcid = none) (other : Bytes) :
    (staged owner dcid index).resolve other =
      if other = dcid then some owner else index.resolve other := by
  rw [resolve, staged, HashMap.get_insert]
  split_ifs with h
  · subst h
    simp [(resolve_eq_none.mp hnone).1]
  · rfl

theorem Coherent.staged (h : Coherent index) (hnone : index.resolve dcid = none) :
    Coherent (staged owner dcid index) := by
  refine ⟨fun other found hb => ?_, h.lists, h.nonempty⟩
  rw [ActiveDcidIndex.staged, HashMap.get_insert]
  split_ifs with hd
  · subst hd
    exact absurd hb (by simp [ActiveDcidIndex.staged, (resolve_eq_none.mp hnone).1])
  · exact h.disjoint other found hb

/-- Staging either finds the id where it belongs, is refused, or adds it. -/
theorem stageForFlow_cases (index : ActiveDcidIndex) (dcid : Bytes) (flow : QuicFlow) :
    (∃ e, (stageForFlow dcid flow).run index = (.error (.error e), index) ∧
      (e = .emptyDcid ∧ dcid = [] ∨
        ∃ owner, e = .duplicateDcid owner ∧ index.resolve dcid = some owner ∧
          owner ≠ flow.owner)) ∨
    (dcid ≠ [] ∧ index.resolve dcid = some flow.owner ∧
      (stageForFlow dcid flow).run index = (.ok (), index)) ∨
    (dcid ≠ [] ∧ index.resolve dcid = none ∧
      (stageForFlow dcid flow).run index = (.ok (), staged flow.owner dcid index)) := by
  by_cases hempty : dcid = []
  · refine .inl ⟨.emptyDcid, ?_, .inl ⟨rfl, hempty⟩⟩
    rw [stageForFlow, Act.bind_of_error (refused_empty hempty index)]
  have hrun : (stageForFlow dcid flow).run index = _ :=
    Act.bind_of_ok (accepted_nonempty hempty index)
  rw [Act.bind_of_ok (Act.run_get index)] at hrun
  cases hres : index.resolve dcid with
  | none =>
    simp only [hres] at hrun
    exact .inr (.inr ⟨hempty, rfl, hrun⟩)
  | some existing =>
    simp only [hres] at hrun
    split_ifs at hrun with howner
    · exact .inr (.inl ⟨hempty, howner ▸ rfl, hrun⟩)
    · exact .inl ⟨_, hrun, .inr ⟨existing, rfl, rfl, howner⟩⟩

end Stage

section Activate

/-- The entry of `dcid` moved to the active ids. -/
def activated (owner : DcidOwner) (index : ActiveDcidIndex) (dcid : Bytes) : ActiveDcidIndex :=
  fileByFlow owner.quicFlowId dcid { index with
    stagedByDcid := index.stagedByDcid.remove dcid
    byDcid := index.byDcid.insert dcid owner }

theorem byDcid_activated (other : Bytes) :
    (activated owner index dcid).byDcid.get other =
      if other = dcid then some owner else index.byDcid.get other :=
  HashMap.get_insert _ _ _ _

theorem stagedByDcid_activated (other : Bytes) :
    (activated owner index dcid).stagedByDcid.get other =
      if other = dcid then none else index.stagedByDcid.get other :=
  HashMap.get_remove _ _ _

theorem resolve_activated (other : Bytes) :
    (activated owner index dcid).resolve other =
      if other = dcid then some owner else index.resolve other := by
  rw [resolve, byDcid_activated, stagedByDcid_activated]
  split_ifs <;> rfl

theorem byFlow_activated (id : QuicFlowId) :
    (activated owner index dcid).byFlow.get id =
      if id = owner.quicFlowId then
        some (((index.byFlow.get owner.quicFlowId).getD .empty).insert dcid ())
      else index.byFlow.get id :=
  HashMap.get_insert _ _ _ _

theorem lists_activated (id : QuicFlowId) (other : Bytes) :
    (activated owner index dcid).Lists id other ↔
      id = owner.quicFlowId ∧ other = dcid ∨ index.Lists id other := by
  rw [Lists, Lists, byFlow_activated]
  by_cases hid : id = owner.quicFlowId
  · subst hid
    simp only [if_true, Option.some_inj, true_and]
    constructor
    · rintro ⟨_, rfl, hget⟩
      rw [HashMap.get_insert] at hget
      split_ifs at hget with hd
      · exact .inl hd
      · cases hb : index.byFlow.get owner.quicFlowId with
        | none => simp [hb] at hget
        | some dcids => exact .inr ⟨dcids, rfl, by simpa [hb] using hget⟩
    · intro h
      refine ⟨_, rfl, ?_⟩
      rw [HashMap.get_insert]
      split_ifs with hd
      · rfl
      · obtain ⟨dcids, hb, hget⟩ := h.resolve_left hd
        simpa [hb] using hget
  · simp [hid]

/-- Activating an id keeps the invariant, unless somebody else has it. -/
theorem Coherent.activated (h : Coherent index)
    (hfree : ∀ other, index.resolve dcid = some other → other = owner) :
    Coherent (activated owner index dcid) := by
  refine ⟨fun other found hb => ?_, fun id other => ?_, fun id dcids hb => ?_⟩
  · rw [stagedByDcid_activated]
    rw [byDcid_activated] at hb
    split_ifs at hb ⊢ with hd
    · rfl
    · exact h.disjoint other found hb
  · rw [lists_activated, h.lists, byDcid_activated]
    by_cases hd : other = dcid
    · subst hd
      simp only [and_true, if_true, Option.some_inj, exists_eq_left']
      constructor
      · rintro (rfl | ⟨found, hb, rfl⟩)
        · rfl
        · rw [hfree found (h.resolve_eq_some.mpr (.inl hb))]
      · exact fun hid => .inl hid.symm
    · simp [hd]
  · rw [byFlow_activated] at hb
    split_ifs at hb with hid
    · cases hb
      exact ⟨dcid, by rw [HashMap.get_insert, if_pos rfl]⟩
    · exact h.nonempty id dcids hb

/-- Publishing finds the id where it belongs, is refused with the maps as they
were, or activates it. -/
theorem publishForFlow_cases (h : Coherent index) (dcid : Bytes) (flow : QuicFlow) :
    (∃ e index', (publishForFlow dcid flow).run index = (.error (.error e), index') ∧
      SameMaps index index' ∧ (e = .emptyDcid ∧ dcid = [] ∨
        ∃ owner, e = .duplicateDcid owner ∧ index.resolve dcid = some owner ∧
          owner ≠ flow.owner)) ∨
    (dcid ≠ [] ∧ index.byDcid.get dcid = some flow.owner ∧
      (publishForFlow dcid flow).run index = (.ok (), index)) ∨
    (dcid ≠ [] ∧ (∀ other, index.resolve dcid = some other → other = flow.owner) ∧
      (publishForFlow dcid flow).run index = (.ok (), activated flow.owner index dcid)) := by
  by_cases hempty : dcid = []
  · refine .inl ⟨.emptyDcid, index, ?_, .refl _, .inl ⟨rfl, hempty⟩⟩
    rw [publishForFlow, publish, Act.bind_of_error (refused_empty hempty index)]
  have hrun : (publishForFlow dcid flow).run index = _ :=
    Act.bind_of_ok (accepted_nonempty hempty index)
  rw [Act.bind_of_ok (Act.run_get index)] at hrun
  cases hb : index.byDcid.get dcid with
  | some existing =>
    simp only [hb] at hrun
    split_ifs at hrun with howner
    · exact .inr (.inl ⟨hempty, howner ▸ rfl, hrun⟩)
    · exact .inl ⟨_, _, hrun, .refl _, .inr ⟨existing, rfl,
        h.resolve_eq_some.mpr (.inl hb), howner⟩⟩
  | none =>
    simp only [hb] at hrun
    rw [Act.bind_of_ok (Act.run_modify _ _)] at hrun
    cases hs : (index.stagedByDcid.get dcid).filter (· ≠ flow.owner) with
    | some existing =>
      simp only [hs] at hrun
      rw [Act.bind_of_ok (Act.run_modify _ _)] at hrun
      obtain ⟨hs, hne⟩ := Option.filter_eq_some_iff.mp hs
      refine .inl ⟨_, _, hrun, ⟨fun _ => rfl, fun other => ?_, fun _ => rfl⟩,
        .inr ⟨existing, rfl, h.resolve_eq_some.mpr (.inr hs), by simpa using hne⟩⟩
      -- removed and put back
      change ((index.stagedByDcid.remove dcid).insert dcid existing).get other = _
      rw [HashMap.get_insert, HashMap.get_remove]
      split_ifs with hd
      · rw [hd, hs]
      · rfl
    | none =>
      simp only [hs] at hrun
      refine .inr (.inr ⟨hempty, fun other hres => ?_, hrun⟩)
      rcases h.resolve_eq_some.mp hres with hc | hc
      · rw [hb] at hc
        cases hc
      · rw [hc] at hs
        simpa [Option.filter] using hs

end Activate

section Batch

theorem byDcid_activatedAll (unique : List Bytes) (index : ActiveDcidIndex) (other : Bytes) :
    (unique.foldl (activated owner) index).byDcid.get other =
      if other ∈ unique then some owner else index.byDcid.get other := by
  induction unique generalizing index with
  | nil => simp
  | cons dcid rest ih =>
    rw [List.foldl_cons, ih, byDcid_activated]
    grind

theorem resolve_activatedAll (unique : List Bytes) (index : ActiveDcidIndex) (other : Bytes) :
    (unique.foldl (activated owner) index).resolve other =
      if other ∈ unique then some owner else index.resolve other := by
  induction unique generalizing index with
  | nil => simp
  | cons dcid rest ih =>
    rw [List.foldl_cons, ih, resolve_activated]
    grind

theorem Coherent.activatedAll (unique : List Bytes) (index : ActiveDcidIndex) (h : Coherent index)
    (hfree : ∀ dcid ∈ unique, ∀ other, index.resolve dcid = some other → other = owner) :
    Coherent (unique.foldl (ActiveDcidIndex.activated owner) index) := by
  induction unique generalizing index with
  | nil => exact h
  | cons dcid rest ih =>
    refine ih _ (h.activated (hfree dcid List.mem_cons_self)) fun other hmem found hres => ?_
    rw [resolve_activated] at hres
    split_ifs at hres
    · exact (Option.some_inj.mp hres).symm
    · exact hfree other (List.mem_cons_of_mem _ hmem) found hres

/-- Why a batch, or a single id, is refused. -/
inductive Refuses (index : ActiveDcidIndex) (owner : DcidOwner) (dcids : List Bytes) :
    QuicFlowError → Prop
  | empty : [] ∈ dcids → Refuses index owner dcids .emptyDcid
  | taken {dcid other} : dcid ∈ dcids → index.resolve dcid = some other → other ≠ owner →
      Refuses index owner dcids (.duplicateDcid other)

theorem Refuses.mono {dcids more : List Bytes} {e : QuicFlowError}
    (h : Refuses index owner dcids e) (hsub : ∀ dcid ∈ dcids, dcid ∈ more) :
    Refuses index owner more e := by
  cases h with
  | empty hmem => exact .empty (hsub _ hmem)
  | taken hmem hres hne => exact .taken (hsub _ hmem) hres hne

/-- What the ids of an accepted batch have in common. -/
def Free (index : ActiveDcidIndex) (owner : DcidOwner) (dcid : Bytes) : Prop :=
  dcid ≠ [] ∧ ∀ other, index.resolve dcid = some other → other = owner

theorem checkBatch_cases (index : ActiveDcidIndex) (owner : DcidOwner) (dcids unique : List Bytes)
    (hunique : ∀ dcid ∈ unique, Free index owner dcid) :
    (∃ e, checkBatch index owner dcids unique = .error (.error e) ∧ Refuses index owner dcids e) ∨
    ∃ all, checkBatch index owner dcids unique = .ok all ∧
      (∀ dcid, dcid ∈ all ↔ dcid ∈ unique ∨ dcid ∈ dcids) ∧
      ∀ dcid ∈ all, Free index owner dcid := by
  induction dcids generalizing unique with
  | nil => exact .inr ⟨unique, rfl, by simp, hunique⟩
  | cons dcid rest ih =>
    have hstep : ∀ unique', (∀ d, d ∈ unique' ↔ d ∈ unique ∨ d = dcid) →
        (∀ d ∈ unique', Free index owner d) →
        (∃ e, checkBatch index owner rest unique' = .error (.error e) ∧
          Refuses index owner (dcid :: rest) e) ∨
        ∃ all, checkBatch index owner rest unique' = .ok all ∧
          (∀ d, d ∈ all ↔ d ∈ unique ∨ d ∈ dcid :: rest) ∧ ∀ d ∈ all, Free index owner d := by
      intro unique' hmem hfree
      rcases ih unique' hfree with ⟨e, hrun, he⟩ | ⟨all, hrun, hall, hfree'⟩
      · exact .inl ⟨e, hrun, he.mono fun _ => List.mem_cons_of_mem _⟩
      · refine .inr ⟨all, hrun, fun d => ?_, hfree'⟩
        rw [hall, hmem, List.mem_cons, or_assoc]
    by_cases hempty : dcid = []
    · subst hempty
      exact .inl ⟨.emptyDcid, by simp [checkBatch, Outcome.ensure, Outcome.fail],
        .empty List.mem_cons_self⟩
    by_cases hseen : dcid ∈ unique
    · have hrun : checkBatch index owner (dcid :: rest) unique =
          checkBatch index owner rest unique := by
        simp [checkBatch, Outcome.ensure, hempty, hseen]
      rw [hrun]
      exact hstep unique (fun d => ⟨.inl, fun hd => hd.elim id fun hd => hd ▸ hseen⟩) hunique
    -- an id seen for the first time
    by_cases hfree : ∀ other, index.resolve dcid = some other → other = owner
    · have hrun : checkBatch index owner (dcid :: rest) unique =
          checkBatch index owner rest (unique ++ [dcid]) := by
        cases hres : index.resolve dcid with
        | none => simp [checkBatch, Outcome.ensure, hempty, hseen, hres]
        | some existing => simp [checkBatch, Outcome.ensure, hempty, hseen, hres, hfree _ hres]
      rw [hrun]
      refine hstep _ (by simp) fun d hd => ?_
      rcases List.mem_append.mp hd with hd | hd
      · exact hunique d hd
      · rw [List.mem_singleton.mp hd]
        exact ⟨hempty, hfree⟩
    · push Not at hfree
      obtain ⟨existing, hres, hne⟩ := hfree
      exact .inl ⟨.duplicateDcid existing,
        by simp [checkBatch, Outcome.ensure, Outcome.fail, hempty, hseen, hres, hne],
        .taken List.mem_cons_self hres hne⟩

theorem publishBatchForFlow_cases (index : ActiveDcidIndex) (dcids : List Bytes) (flow : QuicFlow) :
    (∃ e, (publishBatchForFlow dcids flow).run index = (.error (.error e), index) ∧
      Refuses index flow.owner dcids e) ∨
    ∃ unique : List Bytes, (publishBatchForFlow dcids flow).run index =
        (.ok (), unique.foldl (activated flow.owner) index) ∧
      (∀ dcid, dcid ∈ unique ↔ dcid ∈ dcids) ∧ ∀ dcid ∈ unique, Free index flow.owner dcid := by
  have hrun : (publishBatchForFlow dcids flow).run index = _ :=
    Act.bind_of_ok (Act.run_get index)
  rcases checkBatch_cases index flow.owner dcids [] (by simp) with
    ⟨e, hcheck, he⟩ | ⟨unique, hcheck, hmem, hfree⟩
  · refine .inl ⟨e, ?_, he⟩
    rw [hrun, Act.bind_of_error (by rw [Act.run_call, hcheck])]
  · refine .inr ⟨unique, ?_, by simpa using hmem, hfree⟩
    rw [hrun, Act.bind_of_ok (by rw [Act.run_call, hcheck])]
    rfl

end Batch

section Retire

/-- What the second half of `retire` leaves of the flow's set. -/
def unfiled (id : QuicFlowId) (dcid : Bytes) (index : ActiveDcidIndex) : ActiveDcidIndex :=
  match index.byFlow.get id with
  | none => index
  | some dcids =>
    let dcids := dcids.remove dcid
    { index with byFlow := if dcids.isEmpty then index.byFlow.remove id
        else index.byFlow.insert id dcids }

theorem byDcid_unfiled (id : QuicFlowId) : (unfiled id dcid index).byDcid = index.byDcid := by
  rw [unfiled]
  split <;> rfl

theorem stagedByDcid_unfiled (id : QuicFlowId) :
    (unfiled id dcid index).stagedByDcid = index.stagedByDcid := by
  rw [unfiled]
  split <;> rfl

/-- A set that loses its last id goes, the other sets stay. -/
theorem byFlow_unfiled (id other : QuicFlowId) :
    (unfiled id dcid index).byFlow.get other =
      if other = id then
        ((index.byFlow.get id).map (·.remove dcid)).filter fun dcids => !dcids.isEmpty
      else index.byFlow.get other := by
  rw [unfiled]
  cases hget : index.byFlow.get id with
  | none =>
    split_ifs with hid
    · rw [hid, hget]
      rfl
    · rfl
  | some dcids =>
    by_cases hempty : (dcids.remove dcid).isEmpty
    · simp [hempty, HashMap.get_remove, Option.filter]
    · simp [hempty, HashMap.get_insert, Option.filter]

theorem lists_unfiled (id other : QuicFlowId) (d : Bytes) :
    (unfiled id dcid index).Lists other d ↔ index.Lists other d ∧ (other = id → d ≠ dcid) := by
  rw [Lists, Lists, byFlow_unfiled]
  by_cases hid : other = id
  · subst hid
    simp only [if_true, Option.filter_eq_some_iff, Option.map_eq_some_iff, true_imp_iff]
    constructor
    · rintro ⟨_, ⟨⟨dcids, hget, rfl⟩, -⟩, hd⟩
      rw [HashMap.get_remove] at hd
      split_ifs at hd with hne
      exact ⟨⟨dcids, hget, hd⟩, hne⟩
    · rintro ⟨⟨dcids, hget, hd⟩, hne⟩
      have hd' : (dcids.remove dcid).get d = some () := by rw [HashMap.get_remove, if_neg hne, hd]
      refine ⟨_, ⟨⟨dcids, hget, rfl⟩, ?_⟩, hd'⟩
      simp only [Bool.not_eq_true', Bool.eq_false_iff, ne_eq, HashMap.isEmpty_iff, not_forall]
      exact ⟨d, by simp [hd']⟩
  · simp [hid]

theorem nonempty_unfiled (id : QuicFlowId)
    (h : ∀ id dcids, index.byFlow.get id = some dcids → ∃ dcid, dcids.get dcid = some ())
    (other : QuicFlowId) (dcids : HashSet Bytes)
    (hget : (unfiled id dcid index).byFlow.get other = some dcids) :
    ∃ d, dcids.get d = some () := by
  rw [byFlow_unfiled] at hget
  split_ifs at hget
  · obtain ⟨-, hne⟩ := Option.filter_eq_some_iff.mp hget
    simp only [Bool.not_eq_true', Bool.eq_false_iff, ne_eq, HashMap.isEmpty_iff, not_forall] at hne
    obtain ⟨d, hd⟩ := hne
    exact ⟨d, Option.ne_none_iff_exists'.mp hd |>.choose_spec⟩
  · exact h other dcids hget

/-- An active id leaves the active ones, any other the staged ones. -/
theorem retire_cases (index : ActiveDcidIndex) (dcid : Bytes) :
    (index.resolve dcid = none ∧ index.retire dcid = index) ∨
    (∃ owner, index.byDcid.get dcid = some owner ∧ index.retire dcid =
      unfiled owner.quicFlowId dcid { index with byDcid := index.byDcid.remove dcid }) ∨
    ∃ owner, index.byDcid.get dcid = none ∧ index.stagedByDcid.get dcid = some owner ∧
      index.retire dcid =
        unfiled owner.quicFlowId dcid
          { index with stagedByDcid := index.stagedByDcid.remove dcid } := by
  rw [retire]
  cases hb : index.byDcid.get dcid with
  | some owner =>
    refine .inr (.inl ⟨owner, rfl, ?_⟩)
    simp only [resolve, hb, HashMap.contains]
    rfl
  | none =>
    cases hs : index.stagedByDcid.get dcid with
    | none =>
      refine .inl ⟨by simp [resolve, hb, hs], ?_⟩
      simp only [resolve, hb, hs]
      rfl
    | some owner =>
      refine .inr (.inr ⟨owner, rfl, rfl, ?_⟩)
      simp only [resolve, hb, hs, HashMap.contains]
      rfl

/-- Retiring removes one id, from wherever it is. -/
structure Retired (index : ActiveDcidIndex) (dcid : Bytes) (next : ActiveDcidIndex) : Prop where
  byDcid : ∀ other, next.byDcid.get other = if other = dcid then none else index.byDcid.get other
  stagedByDcid : ∀ other, next.stagedByDcid.get other =
    if other = dcid then none else index.stagedByDcid.get other

theorem Retired.resolve (h : Retired index dcid index') (other : Bytes) :
    index'.resolve other = if other = dcid then none else index.resolve other := by
  rw [ActiveDcidIndex.resolve, h.byDcid, h.stagedByDcid, ActiveDcidIndex.resolve]
  split_ifs <;> rfl

theorem Coherent.retire_retired (h : Coherent index) (dcid : Bytes) :
    Retired index dcid (index.retire dcid) := by
  rcases retire_cases index dcid with ⟨hnone, heq⟩ | ⟨owner, hb, heq⟩ | ⟨owner, hb, hs, heq⟩
  · rw [heq]
    obtain ⟨hb, hs⟩ := resolve_eq_none.mp hnone
    exact ⟨fun other => by split_ifs with hd <;> simp [hd, hb],
      fun other => by split_ifs with hd <;> simp [hd, hs]⟩
  · rw [heq]
    refine ⟨fun other => ?_, fun other => ?_⟩
    · rw [byDcid_unfiled, HashMap.get_remove]
    · rw [stagedByDcid_unfiled]
      split_ifs with hd
      · exact hd ▸ h.disjoint dcid owner hb
      · rfl
  · rw [heq]
    refine ⟨fun other => ?_, fun other => ?_⟩
    · rw [byDcid_unfiled]
      split_ifs with hd
      · exact hd ▸ hb
      · rfl
    · rw [stagedByDcid_unfiled, HashMap.get_remove]

/-- Only the set of an active id's flow is left smaller. -/
theorem Coherent.lists_retire (h : Coherent index) (dcid : Bytes) (id : QuicFlowId)
    (other : Bytes) : (index.retire dcid).Lists id other ↔ index.Lists id other ∧ other ≠ dcid := by
  rcases retire_cases index dcid with ⟨hnone, heq⟩ | ⟨owner, hb, heq⟩ | ⟨owner, hb, hs, heq⟩
  · rw [heq, h.lists]
    refine ⟨fun hl => ⟨hl, ?_⟩, And.left⟩
    rintro rfl
    obtain ⟨owner, hget, -⟩ := hl
    simp [(resolve_eq_none.mp hnone).1] at hget
  · rw [heq, lists_unfiled]
    change index.Lists id other ∧ _ ↔ _
    refine and_congr_right fun hl => ⟨?_, fun hne _ => hne⟩
    rintro hne rfl
    obtain ⟨found, hget, rfl⟩ := (h.lists id other).mp hl
    rw [hb, Option.some_inj] at hget
    exact hne (by rw [hget]) rfl
  · rw [heq, lists_unfiled]
    change index.Lists id other ∧ _ ↔ _
    refine and_congr_right fun hl => ⟨?_, fun hne _ => hne⟩
    rintro - rfl
    obtain ⟨found, hget, -⟩ := (h.lists id other).mp hl
    simp [hb] at hget

theorem Coherent.retire (h : Coherent index) (dcid : Bytes) : Coherent (index.retire dcid) := by
  have hretired := h.retire_retired dcid
  refine ⟨fun other owner hb => ?_, fun id other => ?_, ?_⟩
  · rw [hretired.byDcid] at hb
    rw [hretired.stagedByDcid]
    split_ifs at hb ⊢
    exact h.disjoint other owner hb
  · rw [h.lists_retire, h.lists, hretired.byDcid]
    by_cases hd : other = dcid <;> simp [hd]
  · rcases retire_cases index dcid with ⟨-, heq⟩ | ⟨owner, -, heq⟩ | ⟨owner, -, -, heq⟩
    · rw [heq]
      exact h.nonempty
    · rw [heq]
      exact nonempty_unfiled _ h.nonempty
    · rw [heq]
      exact nonempty_unfiled _ h.nonempty

end Retire

section Close

/-- The owner of an entry that does not belong to the flow `id`. -/
def unlessFlow (id : QuicFlowId) (entry : Option DcidOwner) : Option DcidOwner :=
  entry.filter fun owner => owner.quicFlowId ≠ id

theorem byFlow_closeFlow (index : ActiveDcidIndex) (id other : QuicFlowId) :
    (index.closeFlow id).byFlow.get other =
      if other = id then none else index.byFlow.get other := by
  rw [closeFlow]
  cases hget : index.byFlow.get id with
  | none =>
    split_ifs with hid
    · rw [hid]
      exact hget
    · rfl
  | some dcids => exact HashMap.get_remove _ _ _

theorem Coherent.byDcid_closeFlow (h : Coherent index) (id : QuicFlowId) (dcid : Bytes) :
    (index.closeFlow id).byDcid.get dcid = unlessFlow id (index.byDcid.get dcid) := by
  rw [closeFlow]
  ext owner
  rw [unlessFlow, Option.filter_eq_some_iff, decide_eq_true_iff]
  cases hget : index.byFlow.get id with
  | none =>
    refine ⟨fun hb => ⟨hb, fun hid => ?_⟩, And.left⟩
    obtain ⟨dcids, hlisted, -⟩ := (h.lists id dcid).mpr ⟨owner, hb, hid⟩
    simp [hget] at hlisted
  | some dcids =>
    have hlists : dcid ∈ dcids.toList.map Prod.fst ↔ index.Lists id dcid := by
      simp [Lists, hget, Unique.exists_iff]
    simp only [HashMap.get_foldl_remove, hlists, h.lists]
    constructor
    · intro hb
      split_ifs at hb with hlisted
      exact ⟨hb, fun hid => hlisted ⟨owner, hb, hid⟩⟩
    · rintro ⟨hb, hid⟩
      rw [if_neg, hb]
      rintro ⟨found, hfound, hid'⟩
      rw [hb, Option.some_inj] at hfound
      exact hid (hfound ▸ hid')

theorem stagedByDcid_closeFlow (index : ActiveDcidIndex) (id : QuicFlowId) (dcid : Bytes) :
    (index.closeFlow id).stagedByDcid.get dcid = unlessFlow id (index.stagedByDcid.get dcid) := by
  rw [closeFlow]
  ext owner
  rw [HashMap.get_retain, unlessFlow, Option.filter_eq_some_iff]
  cases index.byFlow.get id <;> rfl

theorem Coherent.closeFlow (h : Coherent index) (id : QuicFlowId) :
    Coherent (index.closeFlow id) := by
  refine ⟨fun dcid owner hb => ?_, fun other dcid => ?_, fun other dcids hget => ?_⟩
  · rw [h.byDcid_closeFlow, unlessFlow, Option.filter_eq_some_iff] at hb
    rw [stagedByDcid_closeFlow, h.disjoint dcid owner hb.1]
    rfl
  · rw [Lists, byFlow_closeFlow, h.byDcid_closeFlow]
    simp only [unlessFlow, Option.filter_eq_some_iff, decide_eq_true_iff]
    split_ifs with hid
    · simp only [false_and, exists_false, false_iff]
      rintro ⟨owner, ⟨-, hne⟩, howner⟩
      exact hne (howner.trans hid)
    · refine (h.lists other dcid).trans (exists_congr fun owner => ?_)
      constructor
      · rintro ⟨hb, howner⟩
        exact ⟨⟨hb, fun hid' => hid (howner.symm.trans hid')⟩, howner⟩
      · rintro ⟨⟨hb, -⟩, howner⟩
        exact ⟨hb, howner⟩
  · rw [byFlow_closeFlow] at hget
    split_ifs at hget
    exact h.nonempty other dcids hget

theorem Coherent.resolve_closeFlow (h : Coherent index) (id : QuicFlowId) (dcid : Bytes) :
    (index.closeFlow id).resolve dcid = unlessFlow id (index.resolve dcid) := by
  rw [resolve, h.byDcid_closeFlow, stagedByDcid_closeFlow, resolve]
  cases hb : index.byDcid.get dcid with
  | none => rfl
  | some owner =>
    rw [h.disjoint dcid owner hb]
    change (unlessFlow id (some owner) <|> none) = unlessFlow id (some owner)
    cases unlessFlow id (some owner) <;> rfl

end Close

section Calls

/-- One call of a flow worker. -/
inductive Call where
  | stageForFlow (dcid : Bytes) (flow : QuicFlow)
  | publishForFlow (dcid : Bytes) (flow : QuicFlow)
  | publishBatchForFlow (dcids : List Bytes) (flow : QuicFlow)
  | retire (dcid : Bytes)
  | retireForFlow (dcid : Bytes) (flow : QuicFlow)
  | closeFlow (quicFlowId : QuicFlowId)

def Call.act : Call → Act ActiveDcidIndex QuicFlowError Unit
  | .stageForFlow dcid flow => ActiveDcidIndex.stageForFlow dcid flow
  | .publishForFlow dcid flow => ActiveDcidIndex.publishForFlow dcid flow
  | .publishBatchForFlow dcids flow => ActiveDcidIndex.publishBatchForFlow dcids flow
  | .retire dcid => Act.modify (ActiveDcidIndex.retire dcid)
  | .retireForFlow dcid flow => Act.modify (ActiveDcidIndex.retireForFlow dcid flow)
  | .closeFlow quicFlowId => Act.modify (ActiveDcidIndex.closeFlow quicFlowId)

/-- The index after some calls, whether they were refused or not. -/
def after (calls : List Call) : ActiveDcidIndex :=
  calls.foldl (fun index call => (call.act.run index).2) .empty

/-- Nobody's id becomes somebody else's. -/
def KeepsOwners (index next : ActiveDcidIndex) : Prop :=
  ∀ dcid owner, index.resolve dcid = some owner →
    next.resolve dcid = some owner ∨ next.resolve dcid = none

/-- What the next call does to a coherent index. -/
structure Handles (index : ActiveDcidIndex) (call : Call)
    (ran : Outcome QuicFlowError Unit × ActiveDcidIndex) : Prop where
  coherent : Coherent ran.2
  keepsOwners : KeepsOwners index ran.2
  refused : ∀ fault, ran.1 = .error fault → SameMaps index ran.2
  batch : ∀ dcids flow, call = .publishBatchForFlow dcids flow → ran.1 = .ok () →
    ∀ dcid ∈ dcids, ran.2.byDcid.get dcid = some flow.owner
  closed : ∀ id, call = .closeFlow id → ∀ dcid,
    ran.2.byDcid.get dcid = unlessFlow id (index.byDcid.get dcid) ∧
    ran.2.stagedByDcid.get dcid = unlessFlow id (index.stagedByDcid.get dcid)

theorem KeepsOwners.refl (index : ActiveDcidIndex) : KeepsOwners index index :=
  fun _ _ => .inl

theorem SameMaps.keepsOwners (h : SameMaps index index') : KeepsOwners index index' :=
  fun dcid owner hres => .inl (by rw [h.resolve, hres])

theorem Retired.keepsOwners (h : Retired index dcid index') : KeepsOwners index index' := by
  intro other owner hres
  rw [h.resolve, hres]
  split_ifs
  · exact .inr rfl
  · exact .inl rfl

theorem stageForFlow_handles (h : Coherent index) (dcid : Bytes) (flow : QuicFlow) :
    Handles index (.stageForFlow dcid flow) ((stageForFlow dcid flow).run index) := by
  rcases stageForFlow_cases index dcid flow with
    ⟨e, hrun, -⟩ | ⟨-, -, hrun⟩ | ⟨-, hnone, hrun⟩ <;> rw [hrun]
  · exact ⟨h, .refl _, fun _ _ => .refl _, by simp, by simp⟩
  · exact ⟨h, .refl _, by simp, by simp, by simp⟩
  · refine ⟨h.staged hnone, fun other owner hres => .inl ?_, by simp, by simp, by simp⟩
    rw [resolve_staged hnone, if_neg, hres]
    rintro rfl
    simp [hnone] at hres

theorem activatedAll_keepsOwners (unique : List Bytes)
    (hfree : ∀ dcid ∈ unique, ∀ other, index.resolve dcid = some other → other = owner) :
    KeepsOwners index (unique.foldl (activated owner) index) := by
  intro dcid other hres
  rw [resolve_activatedAll]
  split_ifs with hmem
  · exact .inl (by rw [hfree dcid hmem other hres])
  · exact .inl hres

theorem publishForFlow_handles (h : Coherent index) (dcid : Bytes) (flow : QuicFlow) :
    Handles index (.publishForFlow dcid flow) ((publishForFlow dcid flow).run index) := by
  rcases publishForFlow_cases h dcid flow with
    ⟨e, next, hrun, hsame, -⟩ | ⟨-, -, hrun⟩ | ⟨-, hfree, hrun⟩ <;> rw [hrun]
  · exact ⟨h.of_sameMaps hsame, hsame.keepsOwners, fun _ _ => hsame, by simp, by simp⟩
  · exact ⟨h, .refl _, by simp, by simp, by simp⟩
  · exact ⟨h.activated hfree, activatedAll_keepsOwners [dcid] (by simpa using hfree),
      by simp, by simp, by simp⟩

theorem publishBatchForFlow_handles (h : Coherent index) (dcids : List Bytes) (flow : QuicFlow) :
    Handles index (.publishBatchForFlow dcids flow)
      ((publishBatchForFlow dcids flow).run index) := by
  rcases publishBatchForFlow_cases index dcids flow with
    ⟨e, hrun, -⟩ | ⟨unique, hrun, hmem, hfree⟩ <;> rw [hrun]
  · exact ⟨h, .refl _, fun _ _ => .refl _, by simp, by simp⟩
  · have hfree := fun dcid hd => (hfree dcid hd).2
    refine ⟨h.activatedAll unique index hfree, activatedAll_keepsOwners unique hfree, by simp,
      ?_, by simp⟩
    rintro _ _ ⟨rfl, rfl⟩ - dcid hd
    rw [byDcid_activatedAll, if_pos ((hmem dcid).mpr hd)]

theorem retire_handles (h : Coherent index) (dcid : Bytes) :
    Handles index (.retire dcid) (.ok (), index.retire dcid) :=
  ⟨h.retire dcid, (h.retire_retired dcid).keepsOwners, by simp, by simp, by simp⟩

theorem retireForFlow_handles (h : Coherent index) (dcid : Bytes) (flow : QuicFlow) :
    Handles index (.retireForFlow dcid flow) (.ok (), index.retireForFlow dcid flow) := by
  rw [retireForFlow]
  split_ifs
  · exact ⟨h, .refl _, by simp, by simp, by simp⟩
  · exact ⟨h.retire dcid, (h.retire_retired dcid).keepsOwners, by simp, by simp, by simp⟩

theorem closeFlow_handles (h : Coherent index) (id : QuicFlowId) :
    Handles index (.closeFlow id) (.ok (), index.closeFlow id) := by
  refine ⟨h.closeFlow id, fun dcid owner hres => ?_, by simp, by simp, ?_⟩
  · simp only [h.resolve_closeFlow, hres, unlessFlow, Option.filter]
    split_ifs
    · exact .inl rfl
    · exact .inr rfl
  · rintro _ ⟨rfl⟩ dcid
    exact ⟨h.byDcid_closeFlow id dcid, stagedByDcid_closeFlow index id dcid⟩

theorem Call.handles (h : Coherent index) (call : Call) :
    Handles index call (call.act.run index) := by
  cases call with
  | stageForFlow dcid flow => exact stageForFlow_handles h dcid flow
  | publishForFlow dcid flow => exact publishForFlow_handles h dcid flow
  | publishBatchForFlow dcids flow => exact publishBatchForFlow_handles h dcids flow
  | retire dcid => exact retire_handles h dcid
  | retireForFlow dcid flow => exact retireForFlow_handles h dcid flow
  | closeFlow id => exact closeFlow_handles h id

theorem after_concat (calls : List Call) (call : Call) :
    after (calls ++ [call]) = (call.act.run (after calls)).2 := by
  simp [after]

theorem coherent_after (calls : List Call) : Coherent (after calls) := by
  induction calls using List.reverseRecOn with
  | nil => exact coherent_empty
  | append_singleton calls call ih =>
    rw [after_concat]
    exact (call.handles ih).coherent

/-- After any calls the three maps belong together, and the next call treats them
as it should: it gives no id to another owner, leaves everything as it was when it is
refused, activates a whole batch or nothing of it, and closes one flow and no other. -/
theorem calls_handled (calls : List Call) (call : Call) :
    Coherent (after calls) ∧ Handles (after calls) call (call.act.run (after calls)) :=
  ⟨coherent_after calls, call.handles (coherent_after calls)⟩

end Calls

end ActiveDcidIndex

end NewProxy
