import Mathlib.Data.List.Basic

/-!
# Conditions along a run

A run applies one action after the other to a state. `Along step P s run` says that
every action of the run meets `P` in the state it is applied to; an invariant need
then only be kept by the actions that meet `P`.
-/
namespace NewProxy

variable {σ α : Type} {step : σ → α → σ} {P : σ → α → Prop} {s : σ}

def Along (step : σ → α → σ) (P : σ → α → Prop) : σ → List α → Prop
  | _, [] => True
  | s, a :: run => P s a ∧ Along step P (step s a) run

namespace Along

instance decidable [∀ s a, Decidable (P s a)] : (s : σ) → (run : List α) →
    Decidable (Along step P s run)
  | _, [] => .isTrue trivial
  | s, a :: run => @instDecidableAnd _ _ _ (decidable (step s a) run)

theorem append_iff {run rest : List α} :
    Along step P s (run ++ rest) ↔ Along step P s run ∧ Along step P (run.foldl step s) rest := by
  induction run generalizing s with
  | nil => simp [Along]
  | cons a run ih => simp [Along, ih, and_assoc]

/-- The condition at one place of the run, and behind it. -/
theorem split {before after : List α} {a : α} (h : Along step P s (before ++ a :: after)) :
    P (before.foldl step s) a ∧ Along step P (step (before.foldl step s) a) after :=
  (append_iff.mp h).2

/-- What every admitted action keeps holds at the end of the run. -/
theorem invariant {I : σ → Prop} {run : List α} (h : Along step P s run) (hs : I s)
    (hstep : ∀ s a, I s → P s a → I (step s a)) : I (run.foldl step s) := by
  induction run generalizing s with
  | nil => exact hs
  | cons a run ih => exact ih h.2 (hstep s a hs h.1)

end Along

end NewProxy
