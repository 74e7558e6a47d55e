import NewProxy.Outcome

/-!
# Pre- and postconditions for computations that may panic

`Act.Triple P x Q E` says that `x`, started in a state with `P`, does not panic,
ends a success with `Q` and a reported error with `E`. The rules follow the
constructs a computation is built from, so that the proof of a triple follows
the text of the computation. `Act.Stable P x` is the weaker statement that `P`
survives `x` however it ends.
-/
namespace NewProxy.Act

variable {σ τ ε ε' α β : Type}

/-- What may be said of the end of a computation. -/
def Ends (Q : α → σ → Prop) (E : σ → Prop) : Outcome ε α × σ → Prop
  | (.ok a, s) => Q a s
  | (.error (.error _), s) => E s
  | (.error .panic, _) => False

theorem ends_of {Q : α → σ → Prop} {E : σ → Prop} {r : Outcome ε α × σ}
    (hne : r.1 ≠ Outcome.panic) (hok : ∀ a, r.1 = .ok a → Q a r.2) (herr : E r.2) :
    Ends Q E r := by
  obtain ⟨(e | _) | a, s⟩ := r
  · exact herr
  · exact absurd rfl hne
  · exact hok a rfl

def Triple (P : σ → Prop) (x : Act σ ε α) (Q : α → σ → Prop) (E : σ → Prop) : Prop :=
  ∀ s, P s → Ends Q E (x.run s)

namespace Triple

variable {P P' : σ → Prop} {Q Q' : α → σ → Prop} {E E' : σ → Prop} {x : Act σ ε α}

theorem ne_panic (h : Triple P x Q E) {s : σ} (hs : P s) : (x.run s).1 ≠ Outcome.panic := by
  have he := h s hs
  rcases hr : x.run s with ⟨(e | _) | a, t⟩
  · simp [Outcome.panic]
  · simp [hr, Ends] at he
  · simp [Outcome.panic]

/-- A computation whose errors are ruled out returns. -/
theorem returns (h : Triple P x Q E) (hE : ∀ s, ¬ E s) {s : σ} (hs : P s) :
    ∃ a t, x.run s = (.ok a, t) ∧ Q a t := by
  have he := h s hs
  rcases hr : x.run s with ⟨(e | _) | a, t⟩ <;> rw [hr] at he
  · exact absurd he (hE t)
  · exact he.elim
  · exact ⟨a, t, rfl, he⟩

/-- A condition both ends share holds wherever the computation ends. -/
theorem state (h : Triple P x (fun _ => E) E) {s : σ} (hs : P s) : E (x.run s).2 := by
  have he := h s hs
  rcases hr : x.run s with ⟨(e | _) | a, t⟩ <;> rw [hr] at he
  · exact he
  · exact he.elim
  · exact he

theorem weaken (h : Triple P x Q E) (hP : ∀ s, P' s → P s) (hQ : ∀ a s, Q a s → Q' a s)
    (hE : ∀ s, E s → E' s) : Triple P' x Q' E' := by
  intro s hs
  have he := h s (hP s hs)
  rcases hr : x.run s with ⟨(e | _) | a, t⟩ <;> rw [hr] at he
  · exact hE t he
  · exact he
  · exact hQ a t he

theorem pre (hP : ∀ s, P' s → P s) (h : Triple P x Q E) : Triple P' x Q E :=
  fun s hs => h s (hP s hs)

theorem pure {a : α} (h : ∀ s, P s → Q a s) : Triple P (pure a : Act σ ε α) Q E := h

theorem fail {e : ε} (h : ∀ s, P s → E s) : Triple P (Act.fail e : Act σ ε α) Q E := h

theorem bind {R : β → σ → Prop} {f : α → Act σ ε β} (hx : Triple P x Q E)
    (hf : ∀ a, Triple (Q a) (f a) R E) : Triple P (x >>= f) R E := by
  intro s hs
  have he := hx s hs
  rw [run_bind]
  rcases hr : x.run s with ⟨(e | _) | a, t⟩ <;> rw [hr] at he
  · exact he
  · exact he
  · exact hf a t he

/-- The state that was read is a name for the one the rest starts in. -/
theorem get {R : β → σ → Prop} {f : σ → Act σ ε β}
    (hf : ∀ s, P s → Triple (fun t => t = s) (f s) R E) : Triple P (Act.get >>= f) R E :=
  fun s hs => hf s hs s rfl

theorem modify {f : σ → σ} {Q : Unit → σ → Prop} (h : ∀ s, P s → Q () (f s)) :
    Triple P (Act.modify f : Act σ ε Unit) Q E := h

/-- A stateless call that cannot panic keeps what was known. -/
theorem call {o : Outcome ε α} (ho : o ≠ Outcome.panic) (hE : ∀ s, P s → E s)
    (hQ : ∀ a s, o = .ok a → P s → Q a s) : Triple P (Act.call o) Q E := by
  intro s hs
  rcases o with (e | _) | a
  · exact hE s hs
  · exact absurd rfl ho
  · exact hQ a s rfl hs

/-- The error of a stateless call is known by the call itself. -/
theorem lift_or {f : ε' → ε} {o : Outcome ε' α} (ho : o ≠ Outcome.panic)
    (hE : ∀ e s, o = Outcome.fail e → P s → E s) (hQ : ∀ a s, o = .ok a → P s → Q a s) :
    Triple P (Act.lift f o) Q E := by
  intro s hs
  rcases o with (e | _) | a
  · exact hE e s rfl hs
  · exact absurd rfl ho
  · exact hQ a s rfl hs

theorem lift {f : ε' → ε} {o : Outcome ε' α} (ho : o ≠ Outcome.panic) (hE : ∀ s, P s → E s)
    (hQ : ∀ a s, o = .ok a → P s → Q a s) : Triple P (Act.lift f o) Q E :=
  lift_or ho (fun _ s _ hs => hE s hs) hQ

/-- The value of a stateless call is known by the call itself. -/
theorem call_bind {R : β → σ → Prop} {o : Outcome ε α} {f : α → Act σ ε β}
    (ho : o ≠ Outcome.panic) (hE : ∀ s, P s → E s)
    (hf : ∀ a, o = .ok a → Triple P (f a) R E) : Triple P (Act.call o >>= f) R E := by
  intro s hs
  rcases o with (e | _) | a
  · exact hE s hs
  · exact absurd rfl ho
  · exact hf a rfl s hs

theorem lift_bind_or {R : β → σ → Prop} {g : ε' → ε} {o : Outcome ε' α} {f : α → Act σ ε β}
    (ho : o ≠ Outcome.panic) (hE : ∀ e s, o = Outcome.fail e → P s → E s)
    (hf : ∀ a, o = .ok a → Triple P (f a) R E) : Triple P (Act.lift g o >>= f) R E := by
  intro s hs
  rcases o with (e | _) | a
  · exact hE e s rfl hs
  · exact absurd rfl ho
  · exact hf a rfl s hs

theorem lift_bind {R : β → σ → Prop} {g : ε' → ε} {o : Outcome ε' α} {f : α → Act σ ε β}
    (ho : o ≠ Outcome.panic) (hE : ∀ s, P s → E s)
    (hf : ∀ a, o = .ok a → Triple P (f a) R E) : Triple P (Act.lift g o >>= f) R E :=
  lift_bind_or ho (fun _ s _ hs => hE s hs) hf

theorem expect {o : Option α} (h : ∀ s, P s → ∃ a, o = some a ∧ Q a s) :
    Triple P (Act.expect o : Act σ ε α) Q E := by
  intro s hs
  obtain ⟨a, rfl, ha⟩ := h s hs
  exact ha

theorem expect_bind {R : β → σ → Prop} {a : α} {f : α → Act σ ε β} (hf : Triple P (f a) R E) :
    Triple P (Act.expect (some a) >>= f) R E := hf

/-- An error that is handed over as a value is an end like any other. -/
theorem attempt {R : Except ε α → σ → Prop} (hx : Triple P x Q E)
    (hok : ∀ a s, Q a s → R (.ok a) s) (herr : ∀ e s, E s → R (.error e) s) :
    Triple P (x.attempt : Act σ ε' (Except ε α)) R E' := by
  intro s hs
  have he := hx s hs
  rcases hr : x.run s with ⟨(e | _) | a, t⟩ <;> rw [hr] at he <;> simp only [Act.attempt, hr]
  · exact herr e t he
  · exact he
  · exact hok a t he

theorem ite {c : Prop} [Decidable c] {y : Act σ ε α} (hx : c → Triple P x Q E)
    (hy : ¬ c → Triple P y Q E) : Triple P (if c then x else y) Q E := by
  split_ifs with hc
  · exact hx hc
  · exact hy hc

end Triple

def Stable (P : σ → Prop) (x : Act σ ε α) : Prop := ∀ s, P s → P (x.run s).2

/-- What a computation leaves alone may be carried along. -/
theorem Triple.and_stable {P R : σ → Prop} {Q : α → σ → Prop} {E : σ → Prop} {x : Act σ ε α}
    (h : Triple P x Q E) (hR : Stable R x) :
    Triple (fun s => P s ∧ R s) x (fun a s => Q a s ∧ R s) (fun s => E s ∧ R s) := by
  rintro s ⟨hp, hr⟩
  have he := h s hp
  have hend := hR s hr
  rcases hrun : x.run s with ⟨(e | _) | a, t⟩ <;> rw [hrun] at he hend
  · exact ⟨he, hend⟩
  · exact he
  · exact ⟨he, hend⟩

namespace Stable

variable {P : σ → Prop} {x : Act σ ε α}

theorem of_run (hx : Stable P x) {s s' : σ} {r : Outcome ε α} (hs : P s)
    (hrun : x.run s = (r, s')) : P s' := by
  have hend := hx s hs
  rw [hrun] at hend
  exact hend

theorem pure (a : α) : Stable P (pure a : Act σ ε α) := fun _ hs => hs

theorem fail (e : ε) : Stable P (Act.fail e : Act σ ε α) := fun _ hs => hs

theorem get : Stable P (Act.get : Act σ ε σ) := fun _ hs => hs

theorem call (o : Outcome ε α) : Stable P (Act.call o) := fun _ hs => hs

theorem lift (f : ε' → ε) (o : Outcome ε' α) : Stable P (Act.lift f o) := fun _ hs => hs

theorem expect (o : Option α) : Stable P (Act.expect o : Act σ ε α) := fun _ hs => hs

theorem modify {f : σ → σ} (h : ∀ s, P s → P (f s)) :
    Stable P (Act.modify f : Act σ ε Unit) := h

theorem bind {f : α → Act σ ε β} (hx : Stable P x) (hf : ∀ a, Stable P (f a)) :
    Stable P (x >>= f) := by
  intro s hs
  have hend := hx s hs
  rw [run_bind]
  rcases hr : x.run s with ⟨e | a, t⟩ <;> rw [hr] at hend
  · exact hend
  · exact hf a t hend

/-- The state read is one with `P`. -/
theorem get_bind {f : σ → Act σ ε β} (hf : ∀ s, P s → Stable P (f s)) :
    Stable P (Act.get >>= f) := fun s hs => hf s hs s hs

theorem attempt (hx : Stable P x) : Stable P (x.attempt : Act σ ε' (Except ε α)) := by
  intro s hs
  have hend := hx s hs
  rcases hr : x.run s with ⟨(e | _) | a, t⟩ <;> rw [hr] at hend <;> simp only [Act.attempt, hr]
  · exact hend
  · exact hend
  · exact hend

/-- A call on one field of the state. -/
theorem zoom {view : σ → τ} {put : τ → σ → σ} {f : ε' → ε} {Q : τ → Prop} {y : Act τ ε' α}
    (hy : Stable Q y) (hput : ∀ t s, view (put t s) = t) :
    Stable (fun s => Q (view s)) (Act.zoom view put f y) := by
  intro s hs
  change Q (view (put (y.run (view s)).2 s))
  rw [hput]
  exact hy (view s) hs

/-- A call on a field that `P` does not look at. -/
theorem zoom_frame {view : σ → τ} {put : τ → σ → σ} {f : ε' → ε} {y : Act τ ε' α}
    (hput : ∀ t s, P s → P (put t s)) : Stable P (Act.zoom view put f y) :=
  fun s hs => hput _ s hs

theorem ite {c : Prop} [Decidable c] {y : Act σ ε α} (hx : Stable P x) (hy : Stable P y) :
    Stable P (if c then x else y) := by
  split_ifs
  · exact hx
  · exact hy

end Stable

/-- From `P` a computation gets to `Q`, however it ends. -/
def Leads (P Q : σ → Prop) (x : Act σ ε α) : Prop := ∀ s, P s → Q (x.run s).2

namespace Leads

variable {P Q : σ → Prop} {x : Act σ ε α}

theorem of_stable (h : Stable P x) (hPQ : ∀ s, P s → Q s) : Leads P Q x :=
  fun s hs => hPQ _ (h s hs)

theorem bind {f : α → Act σ ε β} (hx : Stable P x) (hPQ : ∀ s, P s → Q s)
    (hf : ∀ a, Leads P Q (f a)) : Leads P Q (x >>= f) := by
  intro s hs
  have hend := hx s hs
  rw [run_bind]
  rcases hr : x.run s with ⟨e | a, t⟩ <;> rw [hr] at hend
  · exact hPQ t hend
  · exact hf a t hend

/-- The value of a stateless call is known by the call itself. -/
theorem call_bind {o : Outcome ε α} {f : α → Act σ ε β} (hPQ : ∀ s, P s → Q s)
    (hf : ∀ a, o = .ok a → Leads P Q (f a)) : Leads P Q (Act.call o >>= f) := by
  intro s hs
  rcases o with e | a
  · exact hPQ s hs
  · exact hf a rfl s hs

theorem attempt (hx : Leads P Q x) : Leads P Q (x.attempt : Act σ ε' (Except ε α)) := by
  intro s hs
  have hend := hx s hs
  rcases hr : x.run s with ⟨(e | _) | a, t⟩ <;> rw [hr] at hend <;> simp only [Act.attempt, hr]
  · exact hend
  · exact hend
  · exact hend

theorem ite {c : Prop} [Decidable c] {y : Act σ ε α} (hx : Leads P Q x) (hy : Leads P Q y) :
    Leads P Q (if c then x else y) := by
  split_ifs
  · exact hx
  · exact hy

theorem modify {f : σ → σ} (h : ∀ s, P s → Q (f s)) : Leads P Q (Act.modify f : Act σ ε Unit) := h

/-- The state read is one with `P`. -/
theorem get_bind {f : σ → Act σ ε β} (hf : ∀ s, P s → Leads P Q (f s)) :
    Leads P Q (Act.get >>= f) := fun s hs => hf s hs s hs

/-- Once `Q` is reached it is kept. -/
theorem bind_stable {f : α → Act σ ε β} (hx : Leads P Q x) (hf : ∀ a, Stable Q (f a)) :
    Leads P Q (x >>= f) := by
  intro s hs
  have hend := hx s hs
  rw [run_bind]
  rcases hr : x.run s with ⟨e | a, t⟩ <;> rw [hr] at hend
  · exact hend
  · exact hf a t hend

end Leads

end NewProxy.Act
