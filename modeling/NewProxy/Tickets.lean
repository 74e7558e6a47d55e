import Mathlib.Data.List.Nodup
import Mathlib.Data.Set.Insert

/-!
# Tickets handed out in turn

Tickets are numbered and given out one after the other. A ticket that was redeemed is no
longer held, and as long as the numbers do not come round none is redeemed twice.
-/
namespace NewProxy

/-- `issued` tickets were given out; those in `held` are still out and those in
`redeemed` were handed back, each once. -/
structure Tickets {τ : Type} (ticket : ℕ → τ) (issued : ℕ) (held : Set τ) (redeemed : List τ) :
    Prop where
  nodup : redeemed.Nodup
  apart : ∀ t ∈ redeemed, t ∉ held
  heldIssued : ∀ t ∈ held, ∃ i < issued, ticket i = t
  redeemedIssued : ∀ t ∈ redeemed, ∃ i < issued, ticket i = t

namespace Tickets

variable {τ : Type} {ticket : ℕ → τ} {issued : ℕ} {held held' : Set τ} {redeemed more : List τ}

theorem none_issued (ticket : ℕ → τ) : Tickets ticket 0 ∅ [] :=
  ⟨List.nodup_nil, nofun, nofun, nofun⟩

/-- Tickets may be lost. -/
theorem lose (h : Tickets ticket issued held redeemed) (hsub : held' ⊆ held) :
    Tickets ticket issued held' redeemed :=
  ⟨h.nodup, fun t ht hheld => h.apart t ht (hsub hheld), fun t ht => h.heldIssued t (hsub ht),
    h.redeemedIssued⟩

/-- The next ticket is given out, and perhaps lost at once. -/
theorem issue (h : Tickets ticket issued held redeemed)
    (hfresh : ∀ i < issued, ticket i ≠ ticket issued) (hsub : held' ⊆ insert (ticket issued) held) :
    Tickets ticket (issued + 1) held' redeemed := by
  refine ⟨h.nodup, fun t ht hheld => ?_, fun t ht => ?_, fun t ht => ?_⟩
  · obtain ⟨i, hi, rfl⟩ := h.redeemedIssued t ht
    rcases hsub hheld with heq | hheld
    · exact hfresh i hi heq
    · exact h.apart _ ht hheld
  · rcases hsub ht with rfl | ht
    · exact ⟨issued, Nat.lt_succ_self issued, rfl⟩
    · obtain ⟨i, hi, heq⟩ := h.heldIssued t ht
      exact ⟨i, Nat.lt_succ_of_lt hi, heq⟩
  · obtain ⟨i, hi, heq⟩ := h.redeemedIssued t ht
    exact ⟨i, Nat.lt_succ_of_lt hi, heq⟩

/-- Held tickets are redeemed. -/
theorem redeem (h : Tickets ticket issued held redeemed) (hnodup : more.Nodup)
    (hmore : ∀ t ∈ more, t ∈ held ∧ t ∉ held') (hsub : held' ⊆ held) :
    Tickets ticket issued held' (redeemed ++ more) := by
  refine ⟨h.nodup.append hnodup fun t ht hmem => h.apart t ht (hmore t hmem).1, fun t ht => ?_,
    fun t ht => h.heldIssued t (hsub ht), fun t ht => ?_⟩
  · rcases List.mem_append.mp ht with ht | ht
    · exact fun hheld => h.apart t ht (hsub hheld)
    · exact (hmore t ht).2
  · rcases List.mem_append.mp ht with ht | ht
    · exact h.redeemedIssued t ht
    · exact h.heldIssued t (hmore t ht).1

end Tickets

end NewProxy
