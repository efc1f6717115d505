import Mathlib.Algebra.Group.Int.Defs
import Mathlib.Algebra.GroupWithZero.Nat
import Mathlib.Tactic.Common

/-!
# Transition systems with partial steps

A system is a set of initial states and a step function; `step s a = none` says that the action `a`
is not enabled in `s`. `ReachableBy guard` are the states of the runs all of whose steps meet
`guard`, a condition on the state before the step and on the action; with no condition these are the
reachable states.

A step is a function, so what the surroundings decide (what arrives, whether memory is granted,
which thread is next) is part of the action. A run on given actions can then be evaluated, by
`runFrom`, and `of_runFrom` makes its last state a reachable one.

## The rules

* `ReachableBy.invariant`: an invariant of guarded runs is proved once for the initial states and
  once for a step.
* `runFrom_admits_or_bad`, the rule of the two regions: where guarded steps keep a state good, the
  others make it bad and a bad state stays bad, the state a run ends in tells whether the guard
  admitted all of it. It is how a condition is shown to be exact, and not only sufficient.
  `admits_iff_of_invariant` compares two guards in the same way.
* `not_endless_of_measure` and `endless_of_invariant`: a run that never ends is a sequence of
  states. A measure that every step lowers rules it out, and an invariant that some step always
  keeps gives one.
-/

set_option autoImplicit false

namespace Lib

variable {State Action : Type}

/-- The states of the runs whose every step meets `guard`. -/
inductive ReachableBy (init : State → Prop) (step : State → Action → Option State)
    (guard : State → Action → Prop) : State → Prop
  | start {s : State} : init s → ReachableBy init step guard s
  | next {s s' : State} {a : Action} : ReachableBy init step guard s → guard s a →
      step s a = some s' → ReachableBy init step guard s'

/-- The states of all runs. -/
abbrev Reachable (init : State → Prop) (step : State → Action → Option State) : State → Prop :=
  ReachableBy init step fun _ _ => True

section Rules

variable {init : State → Prop} {step : State → Action → Option State}
  {guard : State → Action → Prop}

/-- **The invariant rule.** What holds initially and is kept by every guarded step holds in every
    state of every guarded run. The induction on runs is done here, so that a proof about a system
    is one about its steps. -/
theorem ReachableBy.invariant (Inv : State → Prop) (hinit : ∀ {s}, init s → Inv s)
    (hstep : ∀ {s s' a}, Inv s → guard s a → step s a = some s' → Inv s') {s : State}
    (h : ReachableBy init step guard s) : Inv s := by
  induction h with
  | start hi => exact hinit hi
  | next _ hg hs ih => exact hstep ih hg hs

/-- A run of a guarded system is a run of the system. -/
theorem ReachableBy.reachable {s : State} (h : ReachableBy init step guard s) :
    Reachable init step s := by
  induction h with
  | start hi => exact .start hi
  | next _ _ hs ih => exact .next ih trivial hs

/-- A guarded step in front of a guarded run. -/
theorem ReachableBy.of_next {s s₁ : State} {a : Action} (hg : guard s a)
    (hs : step s a = some s₁) {s' : State} (h : ReachableBy (· = s₁) step guard s') :
    ReachableBy (· = s) step guard s' := by
  induction h with
  | start hi => exact .next (.start rfl) hg (hi ▸ hs)
  | next _ hg' hs' ih => exact .next ih hg' hs'

end Rules

/-- The state after a list of actions, if each is enabled. -/
def runFrom (step : State → Action → Option State) : State → List Action → Option State
  | s, [] => some s
  | s, a :: as => (step s a).bind fun s' => runFrom step s' as

/-- The guard admits each action of an executable run. -/
def admits (step : State → Action → Option State) (guard : State → Action → Prop) :
    State → List Action → Prop
  | _, [] => True
  | s, a :: as => guard s a ∧
      match step s a with
      | some s' => admits step guard s' as
      | none => True

instance decidableAdmits (step : State → Action → Option State) (guard : State → Action → Prop)
    [∀ s a, Decidable (guard s a)] : ∀ s as, Decidable (admits step guard s as)
  | _, [] => .isTrue trivial
  | s, a :: as =>
    letI : Decidable (match step s a with
        | some s' => admits step guard s' as
        | none => True) :=
      match step s a with
      | some s' => decidableAdmits step guard s' as
      | none => .isTrue trivial
    inferInstanceAs (Decidable (guard s a ∧ _))

/-- The state after an executable run that the guard admits. -/
theorem ReachableBy.of_runFrom {init : State → Prop} {step : State → Action → Option State}
    {guard : State → Action → Prop} (as : List Action) {s s' : State}
    (hs : ReachableBy init step guard s) (hg : admits step guard s as)
    (h : runFrom step s as = some s') : ReachableBy init step guard s' := by
  induction as generalizing s with
  | nil =>
    obtain rfl : s = s' := by simpa [runFrom] using h
    exact hs
  | cons a as ih =>
    obtain ⟨mid, hmid, hrest⟩ := Option.bind_eq_some_iff.mp h
    obtain ⟨hga, hgas⟩ := hg
    rw [hmid] at hgas
    exact ih (hs.next hga hmid) hgas hrest

/-- A guard that admits each action everywhere admits every run of them. -/
theorem admits_of_forall {step : State → Action → Option State} {guard : State → Action → Prop}
    {as : List Action} (hg : ∀ a ∈ as, ∀ s, guard s a) (s : State) : admits step guard s as := by
  induction as generalizing s with
  | nil => trivial
  | cons a as ih =>
    refine ⟨hg a (by simp) s, ?_⟩
    split
    · exact ih (fun b hb => hg b (by simp [hb])) _
    · trivial

/-- **Two guards admit the same runs** where they agree as long as they have agreed; `base` is what
    each run is known to keep to. -/
theorem admits_iff_of_invariant {step : State → Action → Option State}
    {base P Q : State → Action → Prop} (Inv : State → Prop)
    (hiff : ∀ {s a}, Inv s → base s a → (P s a ↔ Q s a))
    (hstep : ∀ {s s' a}, Inv s → base s a → Q s a → step s a = some s' → Inv s')
    {as : List Action} {s : State} (hs : Inv s) (hbase : admits step base s as) :
    admits step P s as ↔ admits step Q s as := by
  induction as generalizing s with
  | nil => exact Iff.rfl
  | cons a as ih =>
    obtain ⟨ha, hrest⟩ := hbase
    simp only [admits, hiff hs ha]
    refine and_congr_right fun hq => ?_
    cases hmid : step s a with
    | none => exact Iff.rfl
    | some mid =>
      rw [hmid] at hrest
      exact ih (hstep hs ha hq hmid) hrest

/-- **The rule of the two regions.** Where guarded steps keep a state good, the others make it bad,
    and a bad state stays bad, the guard tells where a run ends. It turns a condition on each step
    into an equivalence about runs. -/
theorem runFrom_admits_or_bad {step : State → Action → Option State}
    {guard : State → Action → Prop} (Good Bad : State → Prop)
    (hkeep : ∀ {s s' a}, Good s → guard s a → step s a = some s' → Good s')
    (hleave : ∀ {s s' a}, Good s → ¬guard s a → step s a = some s' → Bad s')
    (hbad : ∀ {s s' a}, Bad s → step s a = some s' → Bad s') {as : List Action} {s s' : State}
    (hs : Good s) (h : runFrom step s as = some s') :
    (Good s' ∧ admits step guard s as) ∨ (Bad s' ∧ ¬admits step guard s as) := by
  have hstay : ∀ {as : List Action} {s s' : State}, Bad s → runFrom step s as = some s' →
      Bad s' := by
    intro as
    induction as with
    | nil =>
      intro s s' hs h
      obtain rfl : s = s' := by simpa [runFrom] using h
      exact hs
    | cons a as ih =>
      intro s s' hs h
      obtain ⟨mid, hmid, hrest⟩ := Option.bind_eq_some_iff.mp h
      exact ih (hbad hs hmid) hrest
  induction as generalizing s with
  | nil =>
    obtain rfl : s = s' := by simpa [runFrom] using h
    exact .inl ⟨hs, trivial⟩
  | cons a as ih =>
    obtain ⟨mid, hmid, hrest⟩ := Option.bind_eq_some_iff.mp h
    by_cases ha : guard s a
    · rcases ih (hkeep hs ha hmid) hrest with ⟨hgood, hall⟩ | ⟨hbad', hnot⟩
      · exact .inl ⟨hgood, ha, by rwa [hmid]⟩
      · refine .inr ⟨hbad', fun hadm => hnot ?_⟩
        have htail := hadm.2
        rwa [hmid] at htail
    -- the first step that is not guarded
    · exact .inr ⟨hstay (hleave hs ha hmid) hrest, fun hadm => ha hadm.1⟩

/-- A guard on the actions alone admits a run if and only if it admits each of its actions. -/
theorem admits_iff_forall {step : State → Action → Option State} {admitted : Action → Prop}
    {as : List Action} {s s' : State} (h : runFrom step s as = some s') :
    admits step (fun _ a => admitted a) s as ↔ ∀ a ∈ as, admitted a := by
  induction as generalizing s with
  | nil => simp [admits]
  | cons a as ih =>
    obtain ⟨mid, hmid, hrest⟩ := Option.bind_eq_some_iff.mp h
    simp only [admits, hmid, ih hrest, List.mem_cons, forall_eq_or_imp]

/-- The rule of the two regions, where the guard is on the actions alone. -/
theorem runFrom_good_or_bad {step : State → Action → Option State} (admitted : Action → Prop)
    (Good Bad : State → Prop)
    (hkeep : ∀ {s s' a}, Good s → admitted a → step s a = some s' → Good s')
    (hleave : ∀ {s s' a}, Good s → ¬admitted a → step s a = some s' → Bad s')
    (hbad : ∀ {s s' a}, Bad s → step s a = some s' → Bad s') {as : List Action} {s s' : State}
    (hs : Good s) (h : runFrom step s as = some s') :
    (Good s' ∧ ∀ a ∈ as, admitted a) ∨ (Bad s' ∧ ∃ a ∈ as, ¬admitted a) := by
  have hregions : (Good s' ∧ admits step (fun _ a => admitted a) s as) ∨
      (Bad s' ∧ ¬admits step (fun _ a => admitted a) s as) :=
    runFrom_admits_or_bad Good Bad hkeep hleave hbad hs h
  rw [admits_iff_forall h] at hregions
  simpa only [not_forall, exists_prop] using hregions

/-- Steps of `Step` can go on from a state for ever. -/
def Endless (Step : State → State → Prop) (s : State) : Prop :=
  ∃ run : ℕ → State, run 0 = s ∧ ∀ n, Step (run n) (run (n + 1))

section Endless

variable {Step : State → State → Prop} (Inv : State → Prop)

/-- **The measure rule.** Where every step keeps the invariant and lowers the measure, all runs end.
    No bound on their length is asked for, only that there is no endless one. -/
theorem not_endless_of_measure (measure : State → ℕ)
    (hstep : ∀ {s s'}, Inv s → Step s s' → Inv s' ∧ measure s' < measure s) {s : State}
    (hs : Inv s) : ¬ Endless Step s := by
  rintro ⟨run, rfl, hrun⟩
  have hinv : ∀ n, Inv (run n) := by
    intro n
    induction n with
    | zero => exact hs
    | succ n ih => exact (hstep ih (hrun n)).1
  have hlower : ∀ n, measure (run n) + n ≤ measure (run 0) := by
    intro n
    induction n with
    | zero => exact Nat.le_refl _
    | succ n ih =>
      have hlt := (hstep (hinv n) (hrun n)).2
      omega
  have := hlower (measure (run 0) + 1)
  omega

/-- Where some step always keeps the invariant, a run never has to end. -/
theorem endless_of_invariant (hstep : ∀ {s}, Inv s → ∃ s', Step s s' ∧ Inv s') {s : State}
    (hs : Inv s) : Endless Step s := by
  choose next hnext using fun s : { s // Inv s } => hstep s.2
  let run : ℕ → { s // Inv s } :=
    fun n => n.rec ⟨s, hs⟩ fun _ state => ⟨next state, (hnext state).2⟩
  exact ⟨fun n => (run n).1, rfl, fun n => (hnext (run n)).1⟩

end Endless

/-- The state after an executable run is reachable. -/
theorem reachable_of_runFrom {init : State → Prop} {step : State → Action → Option State}
    (as : List Action) {s s' : State} (hs : Reachable init step s)
    (h : runFrom step s as = some s') : Reachable init step s' :=
  hs.of_runFrom as (admits_of_forall (fun _ _ _ => trivial) s) h

end Lib
