import LightDuer.Engine.Model
import Mathlib.Data.List.Range

/-!
# The delays between starts

`duer_engine_start` gives `start_timeout` to the timer when the start would block, and doubles it; a
profile sets it back to a second. It is an `int`, and nothing bounds the doubling. What starts the
connection again is the timer, a `SEND_RDY`, or `duer_start` with a profile without octets.

## What is recorded

A `Backoff` is the engine with a ghost beside it: the delays that starts have given to the timer
since the last profile. The ghost takes no part in the engine's steps, so every run of the engine is
a run here, and `Monotone` says what one expects of such a list: positive delays, none smaller than
those before it.

## Exactly up to 22

`delay k` is the value of `start_timeout` after `k` doublings, as an `int` of 32 bits has it. `Inv`
says that the recorded delays are `delay 0`, `delay 1` and so on, and that `start_timeout` is the
next of them; every step keeps it, as only a start sets `start_timeout`. Up to `delay 21` the
doublings fit, and the next one is negative. So `monotone_up_to` is an equivalence: in every run the
delays are monotone exactly while there are at most 22 of them.

The last section shows that the bound is reached. `Waiting` is the engine of a server that is never
ready: the timer is armed and nobody else is about to do anything. From there the timer expires, its
callback posts a start, the start would block and the timer is armed again, as often as one likes.
-/

set_option autoImplicit false

namespace LightDuer
namespace Engine

open Lib

/-- The engine, with the delays that have been given to the timer by starts that would block, since
    the last profile. -/
structure Backoff where
  sys : Sys
  delays : Option (List Int)

namespace Backoff

def init (t : Backoff) : Prop := t.sys.init ∧ t.delays = none

/-- The delays after a step. A start on a started connection returns at once. -/
def record (t : Backoff) : Act → Option (List Int)
  | .start profile rs =>
      if t.sys.ca.isStarted then t.delays
      else
        let delays := if profile then some [] else t.delays
        match rs with
        | .wouldBlock _ _ =>
            delays.map fun l => l ++ (next t.sys (.start profile rs)).timer.toList
        | _ => delays
  | _ => t.delays

def step (t : Backoff) (a : Act) : Option Backoff :=
  (Engine.step t.sys a).map fun sys => ⟨sys, t.record a⟩

/-- **The back-off is monotone**: all delays are positive, and none is smaller than those before.
    `duer_timer_start` takes a `size_t`, so a negative delay is a huge one there. -/
structure Monotone (l : List Int) : Prop where
  positive : ∀ d ∈ l, 0 < d
  ordered : l.Pairwise (· ≤ ·)

/-- `start_timeout` after so many doublings. -/
def delay (k : Nat) : Int := Int.bmod (1000 * 2 ^ k) (2 ^ 32)

theorem bmod_double (k n : Nat) :
    Int.bmod (2 * Int.bmod (1000 * 2 ^ k) n) n = Int.bmod (1000 * 2 ^ (k + 1)) n := by
  rw [Int.mul_bmod_bmod, Int.pow_succ, Int.mul_left_comm, Int.mul_comm 2]

theorem delay_succ (k : Nat) : Int.bmod (2 * delay k) (2 ^ 32) = delay (k + 1) :=
  bmod_double k (2 ^ 32)

/-- An `int` of 32 bits holds 22 of them. -/
theorem delay_of_lt : ∀ k < 22, delay k = 1000 * 2 ^ k := by
  decide

theorem delay_pos {k : Nat} (hk : k < 22) : 0 < delay k := by
  rw [delay_of_lt k hk]
  have hpow : (0 : Int) < 2 ^ k := Int.pow_pos (by decide)
  omega

theorem delay_le {i j : Nat} (hij : i ≤ j) (hj : j < 22) : delay i ≤ delay j := by
  rw [delay_of_lt i (by omega), delay_of_lt j hj]
  have hpow : (2 : Nat) ^ i ≤ 2 ^ j := Nat.pow_le_pow_right (by decide) hij
  have hcast : ((2 ^ i : Nat) : Int) ≤ ((2 ^ j : Nat) : Int) := Int.ofNat_le.mpr hpow
  rw [Int.natCast_pow, Int.natCast_pow] at hcast
  exact Int.mul_le_mul_of_nonneg_left hcast (by decide)

/-- The delays are the first of the doubled ones, and `start_timeout` is the next. The list decides
    everything else, since no step but a start writes to `start_timeout`, and each start that does
    so adds to the list. -/
def Inv (t : Backoff) : Prop :=
  ∀ l, t.delays = some l →
    l = (List.range l.length).map delay ∧ t.sys.startTimeout = delay l.length

theorem Inv.of_init {t : Backoff} (h : t.init) : t.Inv := by
  intro l hl
  rw [h.2] at hl
  cases hl

section Step

variable {s s' : Sys} {delays : Option (List Int)}

/-- Where nothing is recorded and `start_timeout` stands. -/
theorem Inv.same (h : Inv ⟨s, delays⟩) (hs : s'.startTimeout = s.startTimeout) :
    Inv ⟨s', delays⟩ := by
  intro l hl
  obtain ⟨heq, htimeout⟩ := h l hl
  exact ⟨heq, hs.trans htimeout⟩

theorem duerEngineStop_startTimeout (s : Sys) :
    (duerEngineStop s).startTimeout = s.startTimeout := by
  unfold duerEngineStop
  split <;> rfl

theorem duerEngineDataAvailable_startTimeout (s : Sys) (rs : CaResult) :
    (duerEngineDataAvailable s rs).startTimeout = s.startTimeout := by
  unfold duerEngineDataAvailable
  split
  · rfl
  · cases rs with
    | ok b | count st b =>
      by_cases hs : s.ca.isStarted = true
      · simp only [if_pos hs]
      · simp only [if_neg hs]
    | wouldBlock st b => rfl
    | failed => exact duerEngineStop_startTimeout s

/-- Only a start sets `start_timeout`. -/
theorem next_startTimeout {a : Act} (h : ∀ profile rs, a ≠ .start profile rs) :
    (next s a).startTimeout = s.startTimeout := by
  cases a with
  | start profile rs => exact absurd rfl (h profile rs)
  | dataAvailable rs => exact duerEngineDataAvailable_startTimeout _ rs
  | stop => exact duerEngineStop_startTimeout _
  | sendTimeout => exact duerEngineStop_startTimeout _
  | report n ok | response n ok | reportAlive ok => cases ok <;> rfl
  | postSend t ok | apiStart ok | apiStartEmpty ok | apiStop ok | recvRdy ok | postRestart ok
  | repost ok | rdyPost ok => cases ok <;> rfl
  | sendData m status => cases status <;> rfl
  | notify status =>
    cases status with
    | ok | wouldBlock => rfl
    | failed => exact duerEngineStop_startTimeout _
  | _ => rfl

/-- A profile begins the delays anew. -/
theorem Inv.profile (h : Inv ⟨s, delays⟩) (profile : Bool)
    (hs : s'.startTimeout = if profile then duerStartTimeout else s.startTimeout) :
    Inv ⟨s', if profile then some [] else delays⟩ := by
  cases profile with
  | false => exact h.same hs
  | true =>
    intro l hl
    obtain rfl := Option.some.inj hl
    exact ⟨rfl, hs⟩

/-- A start that would block gives `start_timeout` to the timer. -/
theorem Inv.wouldBlock (h : Inv ⟨s, delays⟩)
    (hs : s'.startTimeout = Int.bmod (2 * s.startTimeout) (2 ^ 32)) :
    Inv ⟨s', delays.map fun l => l ++ [s.startTimeout]⟩ := by
  intro l hl
  obtain ⟨l₀, hl₀, rfl⟩ := Option.map_eq_some_iff.mp hl
  obtain ⟨heq, htimeout⟩ := h l₀ hl₀
  have htimeout : s.startTimeout = delay l₀.length := htimeout
  refine ⟨?_, ?_⟩
  · rw [List.length_append, List.length_singleton, List.range_succ, List.map_append, ← heq,
      htimeout]
    rfl
  · show s'.startTimeout = _
    rw [hs, htimeout, delay_succ, List.length_append, List.length_singleton]

theorem Inv.start (h : Inv ⟨s, delays⟩) (profile : Bool) (rs : CaResult) :
    Inv ⟨next s (.start profile rs), record ⟨s, delays⟩ (.start profile rs)⟩ := by
  by_cases hstarted : s.ca.isStarted = true
  · have hnext : (next s (.start profile rs)).startTimeout = s.startTimeout := by
      simp only [next, duerEngineStart, if_pos hstarted]
    simp only [record, if_pos hstarted]
    exact h.same hnext
  have hset : Inv ⟨{ s with startTimeout := if profile then duerStartTimeout else s.startTimeout },
      if profile then some [] else delays⟩ := h.profile profile rfl
  simp only [record, if_neg hstarted]
  cases rs with
  | ok b =>
    refine hset.same ?_
    simp only [next, duerEngineStart, if_neg hstarted]
  | wouldBlock st b =>
    have htimer : (next s (.start profile (.wouldBlock st b))).timer =
        some (if profile then duerStartTimeout else s.startTimeout) := by
      simp only [next, duerEngineStart, if_neg hstarted]
    rw [htimer]
    refine hset.wouldBlock ?_
    simp only [next, duerEngineStart, if_neg hstarted]
  | count st b | failed =>
    refine hset.same ?_
    simp only [next, duerEngineStart, if_neg hstarted]

theorem Inv.engine (h : Inv ⟨s, delays⟩) (a : Act) : Inv ⟨next s a, record ⟨s, delays⟩ a⟩ := by
  by_cases hstart : ∃ profile rs, a = .start profile rs
  · obtain ⟨profile, rs, rfl⟩ := hstart
    exact h.start profile rs
  · have hnot : ∀ profile rs, a ≠ .start profile rs := fun profile rs heq =>
      hstart ⟨profile, rs, heq⟩
    have hrecord : record ⟨s, delays⟩ a = delays := by
      cases a with
      | start profile rs => exact absurd rfl (hnot profile rs)
      | _ => rfl
    rw [hrecord]
    exact h.same (next_startTimeout hnot)

theorem Inv.step {t t' : Backoff} (h : t.Inv) {a : Act} (hs : t.step a = some t') : t'.Inv := by
  obtain ⟨sys, hsys, rfl⟩ := Option.map_eq_some_iff.mp hs
  obtain ⟨-, rfl⟩ := step_eq_some.mp hsys
  exact h.engine a

end Step

/-! ## Runs -/

theorem monotone_iff {l : List Int} (h : l = (List.range l.length).map delay) :
    Monotone l ↔ l.length ≤ 22 := by
  constructor
  · intro hmono
    by_contra hlong
    have hmem : delay 22 ∈ l := by
      rw [h]
      exact List.mem_map_of_mem (List.mem_range.mpr (by omega))
    exact absurd (hmono.positive _ hmem) (by decide)
  · intro hle
    refine ⟨fun d hd => ?_, ?_⟩
    · rw [h] at hd
      obtain ⟨k, hk, rfl⟩ := List.mem_map.mp hd
      have hk := List.mem_range.mp hk
      exact delay_pos (by omega)
    · rw [h, List.pairwise_map]
      refine List.pairwise_lt_range.imp_of_mem fun {i j} _ hj hij => ?_
      have hj := List.mem_range.mp hj
      exact delay_le (Nat.le_of_lt hij) (by omega)

/-- **When the back-off is monotone**: in every run exactly up to 22 starts that would block, after
    the last profile. A list that is longer has the 23rd delay in it, which is negative; whatever
    comes behind it does not matter any more. -/
theorem monotone_up_to {t : Backoff} (h : Reachable init step t) {l : List Int}
    (hl : t.delays = some l) : Monotone l ↔ l.length ≤ 22 := by
  have hinv : t.Inv := h.invariant Inv Inv.of_init fun hi _ hs => hi.step hs
  exact monotone_iff (hinv l hl).1

/-- Two starts that would block: that of `duer_start`, and that of the timer. -/
def blockedStarts : List Act :=
  [.apiStart true, .start true (.wouldBlock .srConnecting false), .fire, .checkStarted,
    .postRestart true, .start false (.wouldBlock .srConnecting false)]

theorem monotone_up_to_two :
    ∃ t, runFrom step ⟨.created, none⟩ blockedStarts = some t ∧ t.delays = some [1000, 2000] ∧
      Monotone [1000, 2000] := by
  obtain ⟨t, hrun, hdelays⟩ : ∃ t, runFrom step ⟨.created, none⟩ blockedStarts = some t ∧
      t.delays = some [1000, 2000] := ⟨_, rfl, rfl⟩
  refine ⟨t, hrun, hdelays, (monotone_up_to ?_ hdelays).mpr (by decide)⟩
  exact reachable_of_runFrom blockedStarts (.start ⟨Sys.created_init, rfl⟩) hrun

/-! ## A server that is never ready -/

/-- The timer is armed, and nobody else is about to do anything. -/
structure Waiting (t : Backoff) : Prop where
  ca : t.sys.ca = .srConnecting
  worker : t.sys.worker = .idle
  events : t.sys.events = []
  timer : t.sys.timer ≠ none
  idle : t.sys.callers .timer = .idle

section Waiting

variable {t : Backoff} {l : List Int}

theorem reachable_engine (hr : Reachable init step t) {a : Act} (he : Enabled t.sys a) :
    Reachable init step ⟨next t.sys a, t.record a⟩ := by
  refine hr.next (a := a) trivial ?_
  rw [step, step_eq_some.mpr ⟨he, rfl⟩]
  rfl

/-- The timer expires, and posts a start. -/
theorem Waiting.posts (h : t.Waiting) (hr : Reachable init step t) :
    ∃ s, Reachable init step ⟨s, t.delays⟩ ∧ s.ca = .srConnecting ∧ s.worker = .idle ∧
      s.events = [.start false] ∧ s.callers .timer = .idle := by
  have hfired : (next t.sys .fire).callers .timer = .fired := Sys.setCaller_self t.sys .timer .fired
  have h₁ : Reachable init step ⟨next t.sys .fire, t.delays⟩ :=
    reachable_engine hr ⟨h.timer, h.idle⟩
  have h₂ := reachable_engine h₁ (a := .checkStarted) hfired
  have hrestart : (next (next t.sys .fire) .checkStarted).callers .timer = .restart := by
    have hset : (next (next t.sys .fire) .checkStarted).callers .timer =
        if t.sys.ca.isStarted then .alive else .restart :=
      Sys.setCaller_self (next t.sys .fire) .timer _
    rw [hset, h.ca]
    rfl
  have h₃ := reachable_engine h₂ (a := .postRestart true) hrestart
  refine ⟨_, h₃, h.ca, h.worker, ?_, Sys.setCaller_self _ .timer .idle⟩
  show t.sys.events ++ [.start false] = _
  rw [h.events]
  rfl

/-- The start would block, and the timer is armed again. -/
theorem Waiting.again (h : t.Waiting) (hr : Reachable init step t) (hl : t.delays = some l) :
    ∃ t' l', t'.Waiting ∧ Reachable init step t' ∧ t'.delays = some l' ∧
      l'.length = l.length + 1 := by
  obtain ⟨s, hs, hca, hworker, hevents, hidle⟩ := h.posts hr
  have hnot : ¬s.ca.isStarted = true := by
    rw [hca]
    decide
  have hstart := reachable_engine hs (a := .start false (.wouldBlock .srConnecting false))
    ⟨hworker, by rw [hevents]; rfl, rfl⟩
  refine ⟨_, l ++ [s.startTimeout], ⟨?_, ?_, ?_, ?_, ?_⟩, hstart, ?_, by simp⟩
  all_goals simp only [next, duerEngineStart, record, if_neg hnot]
  · exact hworker
  · rw [hevents]
    rfl
  · exact fun hnone => by cases hnone
  · exact hidle
  · show t.delays.map _ = _
    rw [hl]
    rfl

/-- **Nothing bounds the doublings**: there are reachable states in which as many starts have
    blocked as one likes, with the timer armed for the next. So the bound of `monotone_up_to` is not
    one that runs keep to by themselves. -/
theorem exists_delays (n : Nat) : ∃ t l, t.Waiting ∧ Reachable init step t ∧ t.delays = some l ∧
    l.length = n + 1 := by
  induction n with
  | zero =>
    refine ⟨_, [1000], ⟨rfl, rfl, rfl, ?_, rfl⟩, reachable_of_runFrom
      [.apiStart true, .start true (.wouldBlock .srConnecting false)]
      (.start (s := ⟨.created, none⟩) ⟨Sys.created_init, rfl⟩) rfl, rfl, rfl⟩
    exact fun hnone => by cases hnone
  | succ n ih =>
    obtain ⟨t, l, hwaiting, hr, hl, hlen⟩ := ih
    obtain ⟨t', l', hwaiting', hr', hl', hlen'⟩ := hwaiting.again hr hl
    exact ⟨t', l', hwaiting', hr', hl', by omega⟩

end Waiting

/-- The 23rd delay is negative. -/
theorem not_monotone_23 : ¬∀ t l, Reachable init step t → t.delays = some l → Monotone l := by
  intro hall
  obtain ⟨t, l, -, hr, hl, hlen⟩ := exists_delays 22
  have hinv : t.Inv := hr.invariant Inv Inv.of_init fun hi _ hs => hi.step hs
  have hle := (monotone_iff (hinv l hl).1).mp (hall t l hr hl)
  omega

end Backoff

end Engine
end LightDuer
