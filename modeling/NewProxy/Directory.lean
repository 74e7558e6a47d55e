import NewProxy.Worker

/-!
# What the flow workers share

Two tables stand between the IO workers and the flow workers. The reverse NAT
directory names the worker and the session, or DNS transaction, a return tuple
belongs to; the DCID index names the worker and the QUIC flow of a connection id.
Every flow worker writes to both.
-/
namespace NewProxy

structure ReverseNatDirectory where
  entries : HashMap ReverseNatKey SessionLocator

namespace ReverseNatDirectory

def empty : ReverseNatDirectory := ⟨.empty⟩

def publish (binding : NatBinding) (locator : SessionLocator) :
    Act ReverseNatDirectory NatError Unit := do
  let directory ← Act.get
  let key := ReverseNatKey.fromTranslatedFlow binding.translated
  match directory.entries.get key with
  | some existing =>
    if existing = locator then return () else Act.fail (.duplicateReverseKey key)
  | none => Act.modify fun directory => { entries := directory.entries.insert key locator }

def lookup (directory : ReverseNatDirectory) (returnFlow : FlowKey) : Option SessionLocator :=
  directory.entries.get (ReverseNatKey.fromReturnFlow returnFlow)

def retire (binding : NatBinding) (expected : SessionLocator) (directory : ReverseNatDirectory) :
    ReverseNatDirectory :=
  let key := ReverseNatKey.fromTranslatedFlow binding.translated
  if directory.entries.get key ≠ some expected then directory
  else { entries := directory.entries.remove key }

variable {binding : NatBinding} {locator : SessionLocator} {directory : ReverseNatDirectory}

/-- Publishing fails exactly on an entry of somebody else. -/
theorem publish_run :
    (publish binding locator).run directory =
      match directory.entries.get (.fromTranslatedFlow binding.translated) with
      | some existing =>
        (if existing = locator then .ok ()
          else Outcome.fail (.duplicateReverseKey (.fromTranslatedFlow binding.translated)),
          directory)
      | none => (.ok (),
        ⟨directory.entries.insert (.fromTranslatedFlow binding.translated) locator⟩) := by
  rw [publish, Act.bind_of_ok (Act.run_get directory)]
  cases hget : directory.entries.get (.fromTranslatedFlow binding.translated) with
  | none => simp only [hget, Act.run_modify]
  | some existing =>
    simp only [hget]
    split_ifs <;> rfl

theorem get_retire (key : ReverseNatKey) :
    (directory.retire binding locator).entries.get key =
      if key = .fromTranslatedFlow binding.translated ∧ directory.entries.get key = some locator
      then none else directory.entries.get key := by
  rw [retire]
  by_cases hown : directory.entries.get (.fromTranslatedFlow binding.translated) = some locator
  · rw [if_neg (not_not.mpr hown), HashMap.get_remove]
    by_cases hk : key = .fromTranslatedFlow binding.translated
    · subst hk
      simp [hown]
    · simp [hk]
  · rw [if_pos hown]
    split_ifs with hk
    · exact absurd (hk.1 ▸ hk.2) hown
    · rfl

end ReverseNatDirectory

structure DcidOwner where
  flowWorkerId : ℕ
  quicFlowId : QuicFlowId
  deriving DecidableEq

inductive QuicFlowError where
  | emptyDcid
  | zeroWorkers
  | zeroTunnelQueues
  | duplicateDcid (owner : DcidOwner)
  deriving DecidableEq

open Outcome Dns

def QuicFlow.new (id : QuicFlowId) (flowWorkerId : ℕ) (initialDcid : Bytes)
    (tunnelQueueCount : UInt32) : Outcome QuicFlowError QuicFlow := do
  ensure (initialDcid ≠ []) .emptyDcid
  ensure (tunnelQueueCount ≠ 0) .zeroTunnelQueues
  return ⟨id, flowWorkerId, ((fnv1a initialDcid).toNat % tunnelQueueCount.toNat).toUInt32⟩

def QuicFlow.owner (flow : QuicFlow) : DcidOwner := ⟨flow.flowWorkerId, flow.id⟩

def bootstrapOwner (dcid : Bytes) (workerCount : ℕ) : Outcome QuicFlowError ℕ := do
  ensure (dcid ≠ []) .emptyDcid
  ensure (workerCount ≠ 0) .zeroWorkers
  return (fnv1a dcid).toNat % workerCount

structure ActiveDcidIndex where
  byDcid : HashMap Bytes DcidOwner
  stagedByDcid : HashMap Bytes DcidOwner
  byFlow : HashMap QuicFlowId (HashSet Bytes)

namespace ActiveDcidIndex

def empty : ActiveDcidIndex := ⟨.empty, .empty, .empty⟩

def resolve (index : ActiveDcidIndex) (dcid : Bytes) : Option DcidOwner :=
  index.byDcid.get dcid <|> index.stagedByDcid.get dcid

/-- `by_flow.entry(id).or_default().insert(dcid)`. -/
def fileByFlow (id : QuicFlowId) (dcid : Bytes) (index : ActiveDcidIndex) : ActiveDcidIndex :=
  { index with
    byFlow := index.byFlow.insert id (((index.byFlow.get id).getD .empty).insert dcid ()) }

def stageForFlow (dcid : Bytes) (flow : QuicFlow) : Act ActiveDcidIndex QuicFlowError Unit := do
  Act.call (ensure (dcid ≠ []) .emptyDcid)
  let index ← Act.get
  match index.resolve dcid with
  | some existing =>
    if existing = flow.owner then return () else Act.fail (.duplicateDcid existing)
  | none =>
    Act.modify fun index =>
      { index with stagedByDcid := index.stagedByDcid.insert dcid flow.owner }

/-- `staged_by_dcid.remove` comes before the look at what it removed; the entry of
another owner is put back. -/
def publish (dcid : Bytes) (owner : DcidOwner) : Act ActiveDcidIndex QuicFlowError Unit := do
  Act.call (ensure (dcid ≠ []) .emptyDcid)
  let index ← Act.get
  match index.byDcid.get dcid with
  | some existing => if existing = owner then return () else Act.fail (.duplicateDcid existing)
  | none => do
    Act.modify fun index => { index with stagedByDcid := index.stagedByDcid.remove dcid }
    match (index.stagedByDcid.get dcid).filter (· ≠ owner) with
    | some existing => do
      Act.modify fun index =>
        { index with stagedByDcid := index.stagedByDcid.insert dcid existing }
      Act.fail (.duplicateDcid existing)
    | none =>
      Act.modify fun index => fileByFlow owner.quicFlowId dcid
        { index with byDcid := index.byDcid.insert dcid owner }

def publishForFlow (dcid : Bytes) (flow : QuicFlow) : Act ActiveDcidIndex QuicFlowError Unit :=
  publish dcid flow.owner

/-- The distinct ids of a batch, unless one is empty or somebody else's. -/
def checkBatch (index : ActiveDcidIndex) (owner : DcidOwner) :
    List Bytes → List Bytes → Outcome QuicFlowError (List Bytes)
  | [], unique => .ok unique
  | dcid :: rest, unique => do
    ensure (dcid ≠ []) .emptyDcid
    if dcid ∈ unique then checkBatch index owner rest unique
    else
      match index.resolve dcid with
      | some existing =>
        if existing ≠ owner then fail (.duplicateDcid existing)
        else checkBatch index owner rest (unique ++ [dcid])
      | none => checkBatch index owner rest (unique ++ [dcid])

def publishBatchForFlow (dcids : List Bytes) (flow : QuicFlow) :
    Act ActiveDcidIndex QuicFlowError Unit := do
  let index ← Act.get
  let unique ← Act.call (checkBatch index flow.owner dcids [])
  Act.modify fun index => unique.foldl (fun index dcid =>
    fileByFlow flow.id dcid { index with
      stagedByDcid := index.stagedByDcid.remove dcid
      byDcid := index.byDcid.insert dcid flow.owner }) index

def retire (dcid : Bytes) (index : ActiveDcidIndex) : ActiveDcidIndex :=
  match index.resolve dcid with
  | none => index
  | some owner =>
    let index :=
      if index.byDcid.contains dcid then { index with byDcid := index.byDcid.remove dcid }
      else { index with stagedByDcid := index.stagedByDcid.remove dcid }
    match index.byFlow.get owner.quicFlowId with
    | none => index
    | some dcids =>
      let dcids := dcids.remove dcid
      { index with byFlow := if dcids.isEmpty then index.byFlow.remove owner.quicFlowId
          else index.byFlow.insert owner.quicFlowId dcids }

def retireForFlow (dcid : Bytes) (flow : QuicFlow) (index : ActiveDcidIndex) : ActiveDcidIndex :=
  if index.resolve dcid ≠ some flow.owner then index else index.retire dcid

def closeFlow (quicFlowId : QuicFlowId) (index : ActiveDcidIndex) : ActiveDcidIndex :=
  let index := match index.byFlow.get quicFlowId with
    | some dcids =>
      { index with
        byFlow := index.byFlow.remove quicFlowId
        byDcid := dcids.toList.foldl (fun byDcid (entry : Bytes × Unit) =>
          HashMap.remove byDcid entry.1) index.byDcid }
    | none => index
  { index with
    stagedByDcid := index.stagedByDcid.retain fun _ owner => owner.quicFlowId ≠ quicFlowId }

end ActiveDcidIndex

end NewProxy
