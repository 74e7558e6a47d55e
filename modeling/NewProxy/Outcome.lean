import Mathlib.Tactic

/-!
# Fallible and stateful computations that may panic

A call ends with a value, with a reported error, or with a panic: a failed
index, slice or `expect`. The three ends stay apart, so that the absence of
panics is a statement about a model and not a convention of it. `Act` threads
a mutable state through such calls and keeps the writes made before a failure.
-/
namespace NewProxy

/-- The two ways to end without a value. -/
inductive Fault (ε : Type) where
  | error (e : ε)
  | panic
  deriving DecidableEq

abbrev Outcome (ε α : Type) := Except (Fault ε) α

namespace Outcome

variable {ε ε' α β : Type}

def fail (e : ε) : Outcome ε α := .error (.error e)

def panic : Outcome ε α := .error .panic

def ensure (c : Prop) [Decidable c] (e : ε) : Outcome ε Unit :=
  if c then .ok () else fail e

def okOr (o : Option α) (e : ε) : Outcome ε α :=
  match o with
  | some a => .ok a
  | none => fail e

def expect (o : Option α) : Outcome ε α :=
  match o with
  | some a => .ok a
  | none => panic

def mapErr (f : ε → ε') : Outcome ε α → Outcome ε' α
  | .ok a => .ok a
  | .error (.error e) => fail (f e)
  | .error .panic => panic

/-- Hands an error to the caller as a value; a panic stays one. -/
def attempt : Outcome ε α → Outcome ε' (Except ε α)
  | .ok a => .ok (.ok a)
  | .error (.error e) => .ok (.error e)
  | .error .panic => panic

@[simp] theorem bind_ok (a : α) (f : α → Outcome ε β) : (Except.ok a >>= f) = f a := rfl

@[simp] theorem bind_error (e : Fault ε) (f : α → Outcome ε β) :
    ((Except.error e : Outcome ε α) >>= f) = .error e := rfl

@[simp] theorem pure_eq_ok {a b : α} : (pure a : Outcome ε α) = .ok b ↔ a = b :=
  ⟨fun h => Except.ok.inj h, fun h => congrArg Except.ok h⟩

theorem bind_eq_ok {o : Outcome ε α} {f : α → Outcome ε β} {b : β} :
    (o >>= f) = .ok b ↔ ∃ a, o = .ok a ∧ f a = .ok b := by
  cases o with
  | ok a => simp
  | error e => simp

theorem bind_unit_eq_ok {o : Outcome ε Unit} {f : Unit → Outcome ε β} {b : β} :
    (o >>= f) = .ok b ↔ o = .ok () ∧ f () = .ok b :=
  bind_eq_ok.trans ⟨fun ⟨_, h⟩ => h, fun h => ⟨(), h⟩⟩

theorem bind_ne_panic {o : Outcome ε α} {f : α → Outcome ε β} (ho : o ≠ panic)
    (hf : ∀ a, o = .ok a → f a ≠ panic) : (o >>= f) ≠ panic := by
  cases o with
  | ok a => exact hf a rfl
  | error e => simpa [panic] using ho

@[simp] theorem ensure_eq_ok {c : Prop} [Decidable c] {e : ε} {u : Unit} :
    ensure c e = .ok u ↔ c := by
  by_cases h : c <;> simp [ensure, fail, h]

@[simp] theorem okOr_eq_ok {o : Option α} {e : ε} {a : α} : okOr o e = .ok a ↔ o = some a := by
  cases o <;> simp [okOr, fail]

@[simp] theorem expect_eq_ok {o : Option α} {a : α} :
    (expect o : Outcome ε α) = .ok a ↔ o = some a := by
  cases o <;> simp [expect, panic]

@[simp] theorem mapErr_eq_ok {f : ε → ε'} {o : Outcome ε α} {a : α} :
    mapErr f o = .ok a ↔ o = .ok a := by
  rcases o with (_ | _) | _ <;> simp [mapErr, fail, panic]

@[simp] theorem mapErr_eq_panic {f : ε → ε'} {o : Outcome ε α} :
    mapErr f o = panic ↔ o = panic := by
  rcases o with (_ | _) | _ <;> simp [mapErr, fail, panic]

@[simp] theorem mapErr_id (o : Outcome ε α) : mapErr id o = o := by
  rcases o with (_ | _) | _ <;> rfl

@[simp] theorem attempt_eq_ok_ok {o : Outcome ε α} {a : α} :
    (o.attempt : Outcome ε' (Except ε α)) = .ok (.ok a) ↔ o = .ok a := by
  rcases o with (_ | _) | _ <;> simp [attempt, panic]

@[simp] theorem attempt_eq_ok_error {o : Outcome ε α} {e : ε} :
    (o.attempt : Outcome ε' (Except ε α)) = .ok (.error e) ↔ o = fail e := by
  rcases o with (_ | _) | _ <;> simp [attempt, panic, fail]

theorem attempt_ok_of_ne_panic {o : Outcome ε α} (h : o ≠ panic) :
    ∃ r, (o.attempt : Outcome ε' (Except ε α)) = .ok r := by
  rcases o with (e | _) | a
  · exact ⟨.error e, rfl⟩
  · exact absurd rfl h
  · exact ⟨.ok a, rfl⟩

theorem eq_ok_get {o : Outcome ε α} (h : o.toOption.isSome) : o = .ok (o.toOption.get h) := by
  rcases o with e | a
  · simp [Except.toOption] at h
  · rfl

theorem ensure_ne_panic {c : Prop} [Decidable c] {e : ε} : ensure c e ≠ panic := by
  by_cases h : c <;> simp [ensure, fail, panic, h]

theorem okOr_ne_panic {o : Option α} {e : ε} : okOr o e ≠ panic := by
  cases o <;> simp [okOr, fail, panic]

end Outcome

/-- A computation on a mutable state. A failed one still returns the state it
reached, as a method on `&mut self` does. -/
structure Act (σ ε α : Type) where
  run : σ → Outcome ε α × σ

namespace Act

variable {σ τ ε ε' α β γ : Type}

instance : Monad (Act σ ε) where
  pure a := ⟨fun s => (.ok a, s)⟩
  bind x f := ⟨fun s =>
    match x.run s with
    | (.ok a, s') => (f a).run s'
    | (.error e, s') => (.error e, s')⟩

def fail (e : ε) : Act σ ε α := ⟨fun s => (Outcome.fail e, s)⟩

def get : Act σ ε σ := ⟨fun s => (.ok s, s)⟩

def modify (f : σ → σ) : Act σ ε Unit := ⟨fun s => (.ok (), f s)⟩

/-- A stateless call. -/
def call (o : Outcome ε α) : Act σ ε α := ⟨fun s => (o, s)⟩

/-- A stateless call whose error is converted on the way out. -/
def lift (f : ε' → ε) (o : Outcome ε' α) : Act σ ε α := ⟨fun s => (o.mapErr f, s)⟩

def expect (o : Option α) : Act σ ε α := ⟨fun s => (Outcome.expect o, s)⟩

/-- A call on one field of the state. -/
def zoom (view : σ → τ) (put : τ → σ → σ) (f : ε' → ε) (x : Act τ ε' α) : Act σ ε α :=
  ⟨fun s => ((x.run (view s)).1.mapErr f, put (x.run (view s)).2 s)⟩

/-- Hands an error to the caller as a value; a panic still ends the run. -/
def attempt (x : Act σ ε α) : Act σ ε' (Except ε α) := ⟨fun s =>
  match x.run s with
  | (.ok a, s') => (.ok (.ok a), s')
  | (.error (.error e), s') => (.ok (.error e), s')
  | (.error .panic, s') => (Outcome.panic, s')⟩

/-- A write that may panic; a failed one leaves the state alone. -/
def update (f : σ → Outcome ε σ) : Act σ ε Unit := ⟨fun s =>
  match f s with
  | .ok s' => (.ok (), s')
  | .error e => (.error e, s)⟩

/-- The state a successful computation ends in. -/
def exec (x : Act σ ε α) (s : σ) : Outcome ε σ :=
  match x.run s with
  | (.ok _, s') => .ok s'
  | (.error e, _) => .error e

@[simp] theorem run_pure (a : α) (s : σ) : (pure a : Act σ ε α).run s = (.ok a, s) := rfl

@[simp] theorem run_fail (e : ε) (s : σ) :
    (fail e : Act σ ε α).run s = (Outcome.fail e, s) := rfl

@[simp] theorem run_get (s : σ) : (get : Act σ ε σ).run s = (.ok s, s) := rfl

@[simp] theorem run_modify (f : σ → σ) (s : σ) :
    (modify f : Act σ ε Unit).run s = (.ok (), f s) := rfl

@[simp] theorem run_call (o : Outcome ε α) (s : σ) : (call o).run s = (o, s) := rfl

@[simp] theorem run_lift (f : ε' → ε) (o : Outcome ε' α) (s : σ) :
    (lift f o).run s = (o.mapErr f, s) := rfl

@[simp] theorem run_expect (o : Option α) (s : σ) :
    (expect o : Act σ ε α).run s = (Outcome.expect o, s) := rfl

theorem run_bind (x : Act σ ε α) (f : α → Act σ ε β) (s : σ) :
    (x >>= f).run s = match x.run s with
      | (.ok a, s') => (f a).run s'
      | (.error e, s') => (.error e, s') := rfl

theorem bind_of_ok {x : Act σ ε α} {f : α → Act σ ε β} {s s' : σ} {a : α}
    (h : x.run s = (.ok a, s')) : (x >>= f).run s = (f a).run s' := by
  rw [run_bind, h]

theorem lift_bind_run {f : ε' → ε} {o : Outcome ε' α} {a : α} (h : o = .ok a)
    (k : α → Act σ ε β) (s : σ) : (lift f o >>= k).run s = (k a).run s := by
  rw [h]
  rfl

theorem call_bind_run {o : Outcome ε α} {a : α} (h : o = .ok a) (k : α → Act σ ε β) (s : σ) :
    (call o >>= k).run s = (k a).run s := by
  rw [h]
  rfl

theorem bind_assoc (x : Act σ ε α) (f : α → Act σ ε β) (g : β → Act σ ε γ) :
    (x >>= f) >>= g = x >>= fun a => f a >>= g := by
  refine congrArg Act.mk (funext fun s => ?_)
  change ((x >>= f) >>= g).run s = (x >>= fun a => f a >>= g).run s
  rw [run_bind, run_bind, run_bind]
  rcases x.run s with ⟨_ | a, t⟩ <;> rfl

/-- Two calls in a row, taken as one. -/
theorem bind_bind_of_ok {x : Act σ ε α} {y : Act σ ε β} {f : β → Act σ ε γ} {s s' : σ} {b : β}
    (h : (x >>= fun _ => y).run s = (.ok b, s')) :
    (x >>= fun _ => y >>= f).run s = (f b).run s' := by
  rw [run_bind] at h ⊢
  rcases hx : x.run s with ⟨_ | a, t⟩
  · simp [hx] at h
  · simp only [hx] at h ⊢
    exact bind_of_ok h

theorem bind_of_error {x : Act σ ε α} {f : α → Act σ ε β} {s s' : σ} {e : Fault ε}
    (h : x.run s = (.error e, s')) : (x >>= f).run s = (.error e, s') := by
  rw [run_bind, h]

theorem update_of_ok {f : σ → Outcome ε σ} {s s' : σ} (h : f s = .ok s') :
    (update f).run s = (.ok (), s') := by
  simp only [update, h]

theorem exec_eq_ok {x : Act σ ε α} {s s' : σ} :
    exec x s = .ok s' ↔ ∃ a, x.run s = (.ok a, s') := by
  rw [exec]
  rcases hx : x.run s with ⟨_ | a, t⟩ <;> simp

theorem bind_eq_ok {x : Act σ ε α} {f : α → Act σ ε β} {s s'' : σ} {b : β} :
    (x >>= f).run s = (.ok b, s'') ↔
      ∃ a s', x.run s = (.ok a, s') ∧ (f a).run s' = (.ok b, s'') := by
  rw [run_bind]
  rcases hx : x.run s with ⟨_ | a, s'⟩ <;> simp

end Act

end NewProxy
