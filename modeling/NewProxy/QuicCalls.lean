import NewProxy.QuicEngine

/-!
# Runs of one engine

The calls a worker makes on its engine between two connections of its own, and what
none of them touches: the parameters the engine was built with and, apart from
`send_inner`, the number of the next inner packet.
-/
namespace NewProxy.QuicEngine

open Quic

variable {hmac : Hmac} {engine : QuicEngine hmac}

inductive Call where
  | handleOuter (answers : Answers) (now : Instant) (packet : Bytes)
  | sendInner (answers : Answers) (now : Instant) (packet : Bytes)
  | poll (answers : Answers) (now : Instant)
  | close
  | resolveCandidateReplacement (published : Bool)

def Call.apply (engine : QuicEngine hmac) : Call → QuicEngine hmac
  | .handleOuter answers now packet => engine.handleOuter answers now packet
  | .sendInner answers now packet => (engine.sendInner answers now packet).2
  | .poll answers now => (engine.poll answers now).2
  | .close => engine.close
  | .resolveCandidateReplacement published => engine.resolveCandidateReplacement published

/-- The parameters of an engine. -/
structure Setup where
  role : QuicRole
  generator : CidGenerator
  clientReconnect : Option ClientReconnect
  sharedKey : Secret
  dcidLen : ℕ

def setup (engine : QuicEngine hmac) : Setup :=
  ⟨engine.role, engine.generator, engine.clientReconnect, engine.sharedKey, engine.dcidLen⟩

/-- The parameters and the number of the next inner packet. -/
def fixed (engine : QuicEngine hmac) : Setup × UInt64 := (engine.setup, engine.nextInnerPacketId)

section Fixed

variable {α : Type}

theorem fixed_foldl {f : QuicEngine hmac → α → QuicEngine hmac}
    (hf : ∀ engine a, (f engine a).fixed = engine.fixed) (l : List α) (engine : QuicEngine hmac) :
    (l.foldl f engine).fixed = engine.fixed := by
  induction l generalizing engine with
  | nil => rfl
  | cons a l ih =>
    rw [List.foldl_cons, ih]
    exact hf engine a

@[simp] theorem fixed_push (event : QuicEngineEvent) (engine : QuicEngine hmac) :
    (engine.push event).fixed = engine.fixed := rfl

@[simp] theorem fixed_publishDcid (engine : QuicEngine hmac) (dcid : Bytes) :
    (engine.publishDcid dcid).fixed = engine.fixed := by
  unfold publishDcid
  split_ifs <;> rfl

@[simp] theorem fixed_updateForHandle (handle : ConnectionHandle)
    (f : ManagedConnection → ManagedConnection) (engine : QuicEngine hmac) :
    (engine.updateForHandle handle f).fixed = engine.fixed := by
  unfold updateForHandle
  split_ifs <;> rfl

theorem fixed_announceDcid (authenticated : Bool) (engine : QuicEngine hmac) (dcid : Bytes) :
    (engine.announceDcid authenticated dcid).fixed = engine.fixed := by
  unfold announceDcid
  split_ifs
  · exact fixed_publishDcid engine dcid
  · rfl

@[simp] theorem fixed_stageDcidsForHandle (handle : ConnectionHandle) (generated : List Bytes)
    (engine : QuicEngine hmac) :
    (engine.stageDcidsForHandle handle generated).fixed = engine.fixed := by
  have hupdate := fixed_updateForHandle handle
    (fun connection => generated.foldl ManagedConnection.trackDcid connection) engine
  unfold stageDcidsForHandle
  dsimp only
  split
  · exact hupdate
  · split_ifs
    · exact hupdate
    · exact (fixed_foldl (fixed_announceDcid _) _ _).trans hupdate

@[simp] theorem fixed_publishActiveDcids (engine : QuicEngine hmac) :
    engine.publishActiveDcids.fixed = engine.fixed := by
  unfold publishActiveDcids
  cases engine.connection with
  | none => rfl
  | some connection => exact fixed_foldl fixed_publishDcid _ _

@[simp] theorem fixed_dropCandidate (engine : QuicEngine hmac) :
    engine.dropCandidate.fixed = engine.fixed := by
  unfold dropCandidate
  cases engine.candidate <;> rfl

@[simp] theorem fixed_promoteCandidate (engine : QuicEngine hmac) :
    engine.promoteCandidate.fixed = engine.fixed := by
  unfold promoteCandidate
  cases engine.candidate with
  | none => rfl
  | some candidate =>
    cases engine.connection with
    | some connection => rfl
    | none => exact fixed_foldl fixed_publishDcid _ _

@[simp] theorem fixed_settle (active candidate : ConnectionDrive) (engine : QuicEngine hmac) :
    (engine.settle active candidate).fixed = engine.fixed := by
  have hactive : (engine.admitActive active).fixed = engine.fixed := by
    unfold admitActive
    split_ifs
    · exact fixed_publishActiveDcids engine
    · rfl
  have hcandidate : ∀ engine : QuicEngine hmac,
      (engine.admitCandidate candidate).fixed = engine.fixed := by
    intro engine
    unfold admitCandidate
    split_ifs <;> simp
  have hlost : ∀ engine : QuicEngine hmac,
      (engine.closeLost active candidate).fixed = engine.fixed := by
    intro engine
    unfold closeLost
    split_ifs
    · exact fixed_dropCandidate engine
    · rfl
  exact (hlost _).trans ((hcandidate _).trans hactive)

theorem stable_fillEntry (P : QuicEngine hmac → Prop)
    (htable : ∀ engine reassembly reassemblyBytes, P engine →
      P { engine with reassembly, reassemblyBytes })
    (hpush : ∀ engine packet, P engine → P (push (.innerPacket packet) engine))
    (id : UInt64) (totalLen offset : ℕ) (fragment : Bytes) :
    Act.Stable P (fillEntry id totalLen offset fragment : Act (QuicEngine hmac) Empty Unit) := by
  refine .get_bind fun engine _ => ?_
  cases engine.reassembly.get id with
  | none => exact .pure ()
  | some entry =>
    refine .ite (.pure ()) (.bind (.call _) fun entry => .bind (.modify fun e h => ?_) fun _ => ?_)
    · exact htable e _ e.reassemblyBytes h
    · refine .ite (.bind .get fun engine => .bind (.expect _) fun completed => ?_) (.pure ())
      refine .bind (.modify fun e h => htable e _ e.reassemblyBytes h) fun _ =>
        .bind (.expect _) fun _ => ?_
      exact .modify fun e h => hpush _ _ (htable e e.reassembly _ h)

/-- What survives the changes a datagram can make survives the datagram. -/
theorem stable_handleApplicationDatagram (P : QuicEngine hmac → Prop)
    (htable : ∀ engine reassembly reassemblyBytes, P engine →
      P { engine with reassembly, reassemblyBytes })
    (hpush : ∀ engine packet, P engine → P (push (.innerPacket packet) engine))
    (now : Instant) (datagram : Bytes) :
    Act.Stable P (handleApplicationDatagram now datagram : Act (QuicEngine hmac) Empty Unit) := by
  cases datagram with
  | nil => exact .pure ()
  | cons kind payload =>
    refine .get_bind fun engine _ => .ite (.modify fun e h => hpush e _ h) (.ite ?_ (.pure ()))
    refine .ite (.pure ()) (.bind (.call _) fun fields => .ite (.pure ()) ?_)
    refine .bind (.modify fun e h => ?_) fun _ => stable_fillEntry P htable hpush _ _ _ _
    unfold openEntry
    split_ifs
    · exact h
    · exact h
    · exact htable e _ _ h

theorem fixed_handleApplicationDatagram (now : Instant) (engine : QuicEngine hmac)
    (datagram : Bytes) :
    ((handleApplicationDatagram now datagram).run engine).2.fixed = engine.fixed :=
  stable_handleApplicationDatagram (fun e => e.fixed = engine.fixed) (fun _ _ _ h => h)
    (fun _ _ h => h) now datagram engine rfl

@[simp] theorem fixed_drive (input : DriveInput) (now : Instant) (engine : QuicEngine hmac) :
    (engine.drive input now).fixed = engine.fixed := by
  have hsettled : ∀ (engine : QuicEngine hmac) (active candidate : ConnectionDrive),
      (pruneReassembly now (engine.settle active candidate)).fixed = engine.fixed :=
    fun engine active candidate => fixed_settle active candidate engine
  unfold drive
  exact (fixed_foldl (fixed_handleApplicationDatagram now) _ _).trans ((hsettled _ _ _).trans
    (fixed_foldl (fun engine _ => fixed_stageDcidsForHandle _ _ engine) _ _))

theorem fixed_handleOuter (answers : Answers) (now : Instant) (packet : Bytes)
    (engine : QuicEngine hmac) : (engine.handleOuter answers now packet).fixed = engine.fixed := by
  unfold handleOuter
  cases answers.handled with
  | none => exact fixed_drive _ _ _
  | some handled =>
    obtain ⟨handle, event⟩ := handled
    dsimp only
    rw [fixed_drive, fixed_stageDcidsForHandle]
    cases event with
    | newConnection =>
      dsimp only
      split
      · rw [fixed_updateForHandle]
        split_ifs <;> rfl
      · split_ifs <;> rfl
    | connectionEvent =>
      dsimp only
      split
      · exact fixed_updateForHandle _ _ _
      · rfl

theorem fixed_poll (answers : Answers) (now : Instant) (engine : QuicEngine hmac) :
    (engine.poll answers now).2.fixed = engine.fixed := by
  have hdrive := fixed_drive answers.drive now engine
  unfold poll
  dsimp only
  split <;> exact hdrive

theorem fixed_resolveCandidateReplacement (published : Bool) (engine : QuicEngine hmac) :
    (engine.resolveCandidateReplacement published).fixed = engine.fixed := by
  unfold resolveCandidateReplacement
  dsimp only
  split_ifs
  · rfl
  · unfold commitCandidateReplacement
    dsimp only
    cases engine.candidate <;> rfl
  · exact fixed_dropCandidate _

end Fixed

end NewProxy.QuicEngine
