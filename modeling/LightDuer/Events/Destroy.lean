import LightDuer.Events.Queue

/-!
# Destroying the event queue of the Linux port

`duer_events_destroy` beside the worker and the producers of the queue. It sets the shutdown flag,
wakes the worker, sleeps for a second, frees the messages and then the handler. It runs in a thread
of its own or in a callback, on the worker. A callback takes any time. What the worker or a producer
does with a handler that has been freed is not followed; that it does it is noted in `touched`.

## Time

The clock of `Host` counts milliseconds and is advanced by an action of its own. The sleep cannot
end before its time has come; nothing else has to happen by any time, so the second is long enough
for the worker to leave in some runs and not in others. Nothing in the code waits for the worker:
`_shutdown` is set without the mutex, and a worker that has looked at it just before goes to sleep
on the condition variable.

## The condition

A handler may be freed when all is quiet: the worker has left its loop, and nobody is in
`duer_events_call`. After that no call may be made. In a run whose steps meet this the handler
outlives everybody who uses it (`Host.Inv`), and the condition is not too strong: any other step
leads, by steps of threads that are already on their way and without a new call, to where one of
them uses what was freed (`Host.Leads`). The last half is shown for each place the worker can be in,
from the one nearest to the top of its loop on.
-/

set_option autoImplicit false

namespace LightDuer
namespace Events

open Lib

inductive Caller where
  /-- the worker, in the callback it is running -/
  | worker
  | other (n : Nat)
deriving DecidableEq, Repr

/-- Where a thread is in `duer_events_destroy`. -/
inductive DestroyPc where
  | idle
  /-- about to look at `_shutdown` -/
  | called
  /-- has seen that it is not set -/
  | first
  /-- about to wake the worker -/
  | shut
  /-- in `sleep(1)`, until this time -/
  | asleep (till : Nat)
  /-- freeing the messages, with the mutex -/
  | drains
  /-- about to free the handler -/
  | drained
deriving DecidableEq, Repr

structure Host where
  sys : Sys
  /-- `_shutdown` -/
  shutdown : Bool
  /-- The worker has left its loop. -/
  exited : Bool
  /-- the time at which the worker began the callback it is in -/
  calling : Option Nat
  destroy : Caller → DestroyPc
  /-- who has the mutex from one step to the next -/
  mutex : Option Caller
  /-- in milliseconds -/
  clock : Nat
  /-- The handler has been freed. -/
  freed : Bool
  /-- The worker or a producer has used the handler since. -/
  touched : Bool

/-- After `duer_events_create`. -/
def Host.init (s : Host) : Prop :=
  s.sys.init ∧ s.shutdown = false ∧ s.exited = false ∧ s.calling = none ∧
    (∀ c, s.destroy c = .idle) ∧ s.mutex = none ∧ s.freed = false ∧ s.touched = false

inductive Move where
  /-- a step of the queue that is not about the run of a callback -/
  | queue (a : Act)
  /-- the worker calls the callback of the message it took -/
  | begin
  /-- the callback returns -/
  | finish
  /-- a thread calls `duer_events_destroy` -/
  | destroy (c : Caller)
  /-- it tests `_shutdown` -/
  | look (c : Caller)
  /-- it sets `_shutdown` -/
  | shut (c : Caller)
  /-- it wakes the worker and goes to sleep -/
  | sleep (c : Caller)
  /-- it takes the mutex -/
  | lock (c : Caller)
  /-- it frees the message at the head, or lets go of the mutex where there is none -/
  | drain (c : Caller)
  /-- it frees the handler -/
  | release (c : Caller)
  /-- some time goes by -/
  | pass (ms : Nat)
deriving DecidableEq, Repr

/-- The steps of the queue that take the mutex. -/
def Act.locks : Act → Bool
  | .link _ | .take | .wake => true
  | .make .. | .test _ | .signal _ | .run | .free => false

/-- The steps of the queue that use the handler. The line that `duer_events_call` logs first is not
    compiled in at the default level. -/
def Act.uses : Act → Bool
  | .link _ | .test _ | .signal _ | .take | .wake => true
  | .make .. | .run | .free => false

/-- A step of the queue, of the worker or a producer. -/
def Host.act (s : Host) (a : Act) : Option Host :=
  match step s.sys a with
  | none => none
  | some sys =>
    if s.freed = true ∧ a.uses = true then some { s with touched := true }
    else if s.mutex ≠ none ∧ a.locks = true then none
    else some { s with sys }

/-- The critical section of the worker, which looks at `_shutdown` as well. That is set without the
    mutex, so the worker may look and wait in two steps, with the mutex in between. -/
def Host.take (s : Host) : Option Host :=
  if s.exited = true ∨ s.sys.worker ≠ .start then none
  else if s.freed = true then some { s with touched := true }
  else if s.mutex = some .worker then
    (step s.sys .take).map fun sys => { s with sys, mutex := none }
  else if s.mutex ≠ none then none
  else if s.shutdown = true then some { s with exited := true }
  else if s.sys.events.tail = none then some { s with mutex := some .worker }
  else s.act .take

/-- The message the worker has taken has no callback. -/
def Host.noCallback (s : Host) : Bool :=
  match s.sys.worker with
  | .got a => ((s.sys.heap a).bind fun message => message.callback).isNone
  | _ => false

/-- A thread that destroys the handler uses one that has been freed. -/
def Host.astray (s : Host) : Caller → Host
  | .worker => { s with touched := true }
  | .other _ => { s with sys := { s.sys with fault := true } }

/-- `c` goes on in `duer_events_destroy`. -/
def Host.at (s : Host) (c : Caller) (pc : DestroyPc) : Host :=
  { s with destroy := Function.update s.destroy c pc }

/-- `c` is there in `duer_events_destroy`, and goes on with the handler. -/
def Host.goOn (s : Host) (c : Caller) (pc : DestroyPc) (rest : Option Host) : Option Host :=
  if s.destroy c ≠ pc then none else if s.freed = true then some (s.astray c) else rest

def Host.next (s : Host) : Move → Option Host
  | .queue .take => s.take
  | .queue .run => if s.calling = none ∧ s.noCallback = true then s.act .run else none
  | .queue a => s.act a
  | .begin =>
    match s.sys.worker with
    | .got _ =>
      if s.calling = none ∧ s.noCallback = false then some { s with calling := some s.clock }
      else none
    | _ => none
  | .finish =>
    match s.calling with
    | some since =>
      if s.destroy .worker ≠ .idle then none
      -- the time it took is logged, with the name of the queue
      else if s.freed = true ∧ 50 < s.clock - since then some { s with touched := true }
      else (s.act .run).map fun s => { s with calling := none }
    | none => none
  | .destroy c =>
    if s.destroy c = .idle ∧ (c = .worker → s.calling ≠ none) then some (s.at c .called) else none
  | .look c => s.goOn c .called (some (s.at c (if s.shutdown = true then .idle else .first)))
  | .shut c => s.goOn c .first (some { s.at c .shut with shutdown := true })
  | .sleep c =>
    s.goOn c .shut (some { s.at c (.asleep (s.clock + 1000)) with
      sys := { s.sys with
        worker := if s.sys.worker = .waiting then .start else s.sys.worker } })
  | .lock c =>
    match s.destroy c with
    | .asleep till =>
      if s.clock < till then none
      else
        s.goOn c (.asleep till)
          (if s.mutex ≠ none then none else some { s.at c .drains with mutex := some c })
    | _ => none
  | .drain c =>
    s.goOn c .drains
      (match s.sys.events.head with
      | none => some { s.at c .drained with mutex := none }
      | some a =>
        match s.sys.heap a with
        | none => some { s with sys := { s.sys with fault := true } }
        | some message =>
          some { s with
            sys := { s.sys with
              events := { s.sys.events with head := message.next }
              heap := Function.update s.sys.heap a none } })
  | .release c => s.goOn c .drained (some { s.at c .idle with freed := true })
  | .pass ms => some { s with clock := s.clock + ms }

/-- The worker has left its loop, and nobody is in `duer_events_call`. -/
def Host.Quiet (s : Host) : Prop := s.exited = true ∧ ∀ p, s.sys.producers p = .idle

/-- The handler is freed only when all is quiet, and no call is made with it afterwards. -/
def Host.Guard (s : Host) : Move → Prop
  | .release _ => s.Quiet
  | .queue (.make ..) => s.freed = false
  | _ => True

/-! ## Guarded runs -/

section Invariant

variable {s s' : Host}

structure Host.Inv (s : Host) : Prop where
  untouched : s.touched = false
  quiet : s.freed = true → s.Quiet
  exited : s.exited = true → s.sys.worker = .start
  calling : s.calling ≠ none → ∃ a, s.sys.worker = .got a
  own : s.destroy .worker ≠ .idle → s.calling ≠ none

theorem Host.Inv.of_init (h : s.init) : s.Inv := by
  obtain ⟨-, -, hexit, hcall, hidle, -, hfreed, htouch⟩ := h
  exact ⟨htouch, by simp [hfreed], by simp [hexit], by simp [hcall], by simp [hidle]⟩

/-- Where the worker has left, it is in no callback and destroys nothing. -/
theorem Host.Inv.worker_idle (h : s.Inv) (hexit : s.exited = true) :
    s.calling = none ∧ s.destroy .worker = .idle := by
  have hcall : s.calling = none := by
    by_contra hne
    obtain ⟨a, ha⟩ := h.calling hne
    exact absurd ((h.exited hexit).symm.trans ha) (by simp)
  refine ⟨hcall, ?_⟩
  by_contra hne
  exact h.own hne hcall

/-- The worker stays where it is in a callback, and where it has left. -/
theorem worker_kept {t t' : Sys} {a : Act} (h : step t a = some t') (htake : a ≠ .take)
    (hrun : a ≠ .run) :
    (t.worker = .start → t'.worker = .start) ∧ ∀ m, t.worker = .got m → t'.worker = .got m := by
  cases a with
  | make p b e =>
    simp only [step] at h
    split at h
    · obtain rfl := Option.some.inj h
      exact ⟨id, fun _ => id⟩
    · exact absurd h (by simp)
  | link p =>
    simp only [step] at h
    split at h
    · split at h <;> obtain rfl := Option.some.inj h <;> exact ⟨id, fun _ => id⟩
    · exact absurd h (by simp)
  | test p =>
    simp only [step] at h
    split at h
    · obtain rfl := Option.some.inj h
      exact ⟨id, fun _ => id⟩
    · exact absurd h (by simp)
  | signal p =>
    simp only [step] at h
    split at h
    · obtain rfl := Option.some.inj h
      exact ⟨fun hw => by simp [hw], fun m hw => by simp [hw]⟩
    · exact absurd h (by simp)
  | take => exact absurd rfl htake
  | wake =>
    simp only [step] at h
    split at h
    · rename_i hw
      exact ⟨fun hs => absurd (hw.symm.trans hs) (by simp),
        fun m hs => absurd (hw.symm.trans hs) (by simp)⟩
    · exact absurd h (by simp)
  | run => exact absurd rfl hrun
  | free =>
    simp only [step] at h
    split at h
    · rename_i m hw
      exact ⟨fun hs => absurd (hw.symm.trans hs) (by simp),
        fun m hs => absurd (hw.symm.trans hs) (by simp)⟩
    · exact absurd h (by simp)

/-- With nobody in `duer_events_call` and the worker at the top of its loop, only a new call and the
    worker itself can go on. -/
theorem quiet_acts {t t' : Sys} {a : Act} (h : step t a = some t') (hworker : t.worker = .start)
    (hidle : ∀ p, t.producers p = .idle) : a = .take ∨ ∃ p b e, a = .make p b e := by
  cases a with
  | make p b e => exact .inr ⟨p, b, e, rfl⟩
  | take => exact .inl rfl
  | link p | test p | signal p => simp [step, hidle p] at h
  | wake | run | free => simp [step, hworker] at h

theorem Host.act_cases {a : Act} (h : s.act a = some s') :
    ∃ sys, step s.sys a = some sys ∧
      ((s.freed = true ∧ a.uses = true ∧ s' = { s with touched := true }) ∨
        (¬(s.freed = true ∧ a.uses = true) ∧ s' = { s with sys })) := by
  unfold Host.act at h
  cases hstep : step s.sys a with
  | none => simp [hstep] at h
  | some sys =>
    simp only [hstep] at h
    split_ifs at h with hused hlock
    · exact ⟨sys, rfl, .inl ⟨hused.1, hused.2, (Option.some.inj h).symm⟩⟩
    · exact ⟨sys, rfl, .inr ⟨hused, (Option.some.inj h).symm⟩⟩

/-- A step of the queue in a guarded run, but for the two about the worker's own way. -/
theorem Host.Inv.act (h : s.Inv) {a : Act} (hguard : s.Guard (.queue a)) (htake : a ≠ .take)
    (hrun : a ≠ .run) (hs : s.act a = some s') : s'.Inv := by
  obtain ⟨sys, hstep, ⟨hfreed, huses, -⟩ | ⟨-, rfl⟩⟩ := Host.act_cases hs
  · -- once the handler is freed there is no step that uses it
    obtain ⟨hexit, hidle⟩ := h.quiet hfreed
    rcases quiet_acts hstep (h.exited hexit) hidle with rfl | ⟨p, b, e, rfl⟩
    · exact absurd rfl htake
    · exact absurd huses (by simp [Act.uses])
  · obtain ⟨hstart, hgot⟩ := worker_kept hstep htake hrun
    refine ⟨h.untouched, ?_, fun hexit => hstart (h.exited hexit), ?_, h.own⟩
    · intro hfreed
      obtain ⟨hexit, hidle⟩ := h.quiet hfreed
      rcases quiet_acts hstep (h.exited hexit) hidle with rfl | ⟨p, b, e, rfl⟩
      · exact absurd rfl htake
      · exact absurd (hguard.symm.trans hfreed) (by simp)
    · intro hcall
      obtain ⟨m, hm⟩ := h.calling hcall
      exact ⟨m, hgot m hm⟩

theorem Host.Inv.at (h : s.Inv) (c : Caller) {pc : DestroyPc}
    (hown : c = .worker → pc ≠ .idle → s.calling ≠ none) : (s.at c pc).Inv := by
  refine ⟨h.untouched, h.quiet, h.exited, h.calling, ?_⟩
  intro hne
  by_cases hc : c = .worker
  · subst hc
    exact hown rfl (by simpa [Host.at] using hne)
  · refine h.own ?_
    simpa [Host.at, Function.update_of_ne (Ne.symm hc)] using hne

/-- In a guarded run it is not the worker that uses the handler after it has been freed. -/
theorem Host.Inv.astray (h : s.Inv) {c : Caller} (hbusy : s.destroy c ≠ .idle)
    (hfreed : s.freed = true) : (s.astray c).Inv := by
  cases c with
  | worker => exact absurd (h.worker_idle (h.quiet hfreed).1).2 hbusy
  | other n => exact ⟨h.untouched, h.quiet, h.exited, h.calling, h.own⟩

theorem Host.Inv.not_freed (h : s.Inv) (hworker : s.sys.worker ≠ .start) : s.freed = false := by
  by_contra hfreed
  exact hworker (h.exited (h.quiet (by simpa using hfreed)).1)

/-- The worker goes on, in no callback, while the handler is there. -/
theorem Host.Inv.of_unfreed (h : s.Inv) (htouch : s'.touched = s.touched)
    (hfreed : s'.freed = false) (hcall : s'.calling = none) (hidle : s'.destroy .worker = .idle)
    (hexit : s'.exited = true → s'.sys.worker = .start) : s'.Inv :=
  ⟨htouch.trans h.untouched, by simp [hfreed], hexit, by simp [hcall], by simp [hidle]⟩

theorem Host.Inv.take (h : s.Inv) (hs : s.take = some s') : s'.Inv := by
  unfold Host.take at hs
  by_cases hbusy : s.exited = true ∨ s.sys.worker ≠ .start
  · exact absurd hs (by simp [hbusy])
  rw [if_neg hbusy] at hs
  obtain ⟨hexit, hworker⟩ := not_or.mp hbusy
  have hstart : s.sys.worker = .start := not_not.mp hworker
  have hfreed : s.freed = false := by
    by_contra hne
    exact hexit (h.quiet (by simpa using hne)).1
  have hcall : s.calling = none := by
    by_contra hne
    obtain ⟨a, ha⟩ := h.calling hne
    exact absurd (hstart.symm.trans ha) (by simp)
  have hidle : s.destroy .worker = .idle := by
    by_contra hne
    exact h.own hne hcall
  rw [if_neg (by simp [hfreed])] at hs
  split_ifs at hs with hpark hmutex hshut htail
  · -- the worker has looked before, and now waits
    obtain ⟨sys, -, rfl⟩ := Option.map_eq_some_iff.mp hs
    exact h.of_unfreed rfl hfreed hcall hidle (fun hx => absurd hx hexit)
  · obtain rfl := Option.some.inj hs
    exact h.of_unfreed rfl hfreed hcall hidle (fun _ => hstart)
  · obtain rfl := Option.some.inj hs
    exact h.of_unfreed rfl hfreed hcall hidle (fun hx => absurd hx hexit)
  · obtain ⟨sys, -, ⟨hgone, -, -⟩ | ⟨-, rfl⟩⟩ := Host.act_cases hs
    · exact absurd hgone (by simp [hfreed])
    · exact h.of_unfreed rfl hfreed hcall hidle (fun hx => absurd hx hexit)

theorem Host.Inv.run {s₁ : Host} (h : s.Inv) (hs : s.act .run = some s₁) (hcall : s'.calling = none)
    (hidle : s'.destroy .worker = .idle) (htouch : s'.touched = s₁.touched)
    (hfreed : s'.freed = s₁.freed) (hexit : s'.exited = s₁.exited) : s'.Inv := by
  obtain ⟨sys, hstep, ⟨-, huses, -⟩ | ⟨-, rfl⟩⟩ := Host.act_cases hs
  · exact absurd huses (by simp [Act.uses])
  have hworker : s.sys.worker ≠ .start := by
    intro hstart
    simp [step, hstart] at hstep
  refine h.of_unfreed htouch (hfreed.trans (h.not_freed hworker)) hcall hidle ?_
  intro hx
  exact absurd (h.exited (hexit.symm.trans hx)) hworker

theorem Host.Inv.goOn (h : s.Inv) {c : Caller} {pc : DestroyPc} {rest : Option Host}
    (hs : s.goOn c pc rest = some s') (hbusy : pc ≠ .idle)
    (hrest : s.freed = false → (c = .worker → s.calling ≠ none) → rest = some s' → s'.Inv) :
    s'.Inv := by
  unfold Host.goOn at hs
  by_cases hpc : s.destroy c = pc
  · rw [if_neg (not_not.mpr hpc)] at hs
    by_cases hfreed : s.freed = true
    · rw [if_pos hfreed] at hs
      obtain rfl := Option.some.inj hs
      exact h.astray (by rwa [hpc]) hfreed
    · rw [if_neg hfreed] at hs
      refine hrest (by simpa using hfreed) ?_ hs
      rintro rfl
      exact h.own (by rwa [hpc])
  · exact absurd hs (by simp [hpc])

/-- **A guarded step** keeps what holds in guarded runs. Most steps do not touch the handler at all;
    for those of the worker and of a call it is enough that the handler has not been freed, and for
    the destruction the guard says that nobody is left. -/
theorem Host.Inv.next (h : s.Inv) {m : Move} (hguard : s.Guard m) (hs : s.next m = some s') :
    s'.Inv := by
  cases m with
  | queue a =>
    cases a with
    | take => exact h.take hs
    | run =>
      simp only [Host.next] at hs
      split_ifs at hs with hcall
      have hidle : s.destroy .worker = .idle := by
        by_contra hne
        exact h.own hne hcall.1
      obtain ⟨sys, -, ⟨-, huses, -⟩ | ⟨-, rfl⟩⟩ := Host.act_cases hs
      · exact absurd huses (by simp [Act.uses])
      · exact h.run hs hcall.1 hidle rfl rfl rfl
    | make p b e => exact h.act hguard (by simp) (by simp) hs
    | link p | test p | signal p | wake | free => exact h.act hguard (by simp) (by simp) hs
  | begin =>
    simp only [Host.next] at hs
    split at hs
    · rename_i a hworker
      split_ifs at hs
      obtain rfl := Option.some.inj hs
      have hfreed := h.not_freed (by simp [hworker])
      exact ⟨h.untouched, by simp [hfreed], h.exited, fun _ => ⟨a, hworker⟩, fun _ => by simp⟩
    · exact absurd hs (by simp)
  | finish =>
    simp only [Host.next] at hs
    split at hs
    · rename_i since hcall
      split_ifs at hs with hbusy hlong
      · obtain ⟨a, ha⟩ := h.calling (by simp [hcall])
        exact absurd hlong.1 (by simp [h.not_freed (by simp [ha])])
      · obtain ⟨s₁, hrun, rfl⟩ := Option.map_eq_some_iff.mp hs
        obtain ⟨sys, -, ⟨-, huses, -⟩ | ⟨-, rfl⟩⟩ := Host.act_cases hrun
        · exact absurd huses (by simp [Act.uses])
        · exact h.run hrun rfl (not_not.mp hbusy) rfl rfl rfl
    · exact absurd hs (by simp)
  | destroy c =>
    simp only [Host.next] at hs
    split_ifs at hs with hc
    obtain rfl := Option.some.inj hs
    exact h.at c fun hw _ => hc.2 hw
  | look c =>
    refine h.goOn hs (by simp) fun _ hown hrest => ?_
    obtain rfl := Option.some.inj hrest
    exact h.at c fun hw _ => hown hw
  | shut c =>
    refine h.goOn hs (by simp) fun _ hown hrest => ?_
    obtain rfl := Option.some.inj hrest
    have hat : (s.at c .shut).Inv := h.at c fun hw _ => hown hw
    exact ⟨hat.untouched, hat.quiet, hat.exited, hat.calling, hat.own⟩
  | sleep c =>
    refine h.goOn hs (by simp) fun hfreed hown hrest => ?_
    obtain rfl := Option.some.inj hrest
    have hat : (s.at c (.asleep (s.clock + 1000))).Inv := h.at c fun hw _ => hown hw
    refine ⟨hat.untouched, fun hf => absurd (hfreed.symm.trans hf) (by simp), ?_, ?_, hat.own⟩
    · intro hexit
      simp [h.exited hexit]
    · intro hcall
      obtain ⟨a, ha⟩ := h.calling hcall
      exact ⟨a, by simp [ha]⟩
  | lock c =>
    simp only [Host.next] at hs
    split at hs
    · rename_i till _
      by_cases hearly : s.clock < till
      · exact absurd hs (by simp [hearly])
      · rw [if_neg hearly] at hs
        refine h.goOn hs (by simp) fun _ hown hrest => ?_
        split_ifs at hrest with hmutex
        obtain rfl := Option.some.inj hrest
        have hat : (s.at c .drains).Inv := h.at c fun hw _ => hown hw
        exact ⟨hat.untouched, hat.quiet, hat.exited, hat.calling, hat.own⟩
    · exact absurd hs (by simp)
  | drain c =>
    refine h.goOn hs (by simp) fun _ hown hrest => ?_
    split at hrest
    · obtain rfl := Option.some.inj hrest
      have hat : (s.at c .drained).Inv := h.at c fun hw _ => hown hw
      exact ⟨hat.untouched, hat.quiet, hat.exited, hat.calling, hat.own⟩
    · split at hrest <;> obtain rfl := Option.some.inj hrest <;>
        exact ⟨h.untouched, h.quiet, h.exited, h.calling, h.own⟩
  | release c =>
    refine h.goOn hs (by simp) fun _ _ hrest => ?_
    obtain rfl := Option.some.inj hrest
    have hat : (s.at c .idle).Inv := h.at c fun _ hne => absurd rfl hne
    exact ⟨hat.untouched, fun _ => hguard, hat.exited, hat.calling, hat.own⟩
  | pass ms =>
    obtain rfl := Option.some.inj hs
    exact ⟨h.untouched, h.quiet, h.exited, h.calling, h.own⟩

end Invariant

/-! ## Freeing the handler too early -/

section Leads

variable {s s' : Host}

/-- A step that is not the beginning of a call. -/
def Host.NoCall (_ : Host) : Move → Prop
  | .queue (.make ..) => False
  | _ => True

/-- The run can go on, without a new call, to where the worker or a producer uses the handler; or
    the memory of a message that was freed. -/
def Host.Leads (s : Host) : Prop :=
  ∃ s', ReachableBy (· = s) Host.next Host.NoCall s' ∧ (s'.touched = true ∨ s'.sys.fault = true)

theorem Host.Leads.of_next (m : Move) {s' : Host} (hs : s.next m = some s') (h : s'.Leads)
    (hm : s.NoCall m) : s.Leads := by
  obtain ⟨s'', hreach, hbad⟩ := h
  exact ⟨s'', hreach.of_next hm hs, hbad⟩

theorem Host.Leads.of_touched (m : Move) (hs : s.next m = some { s with touched := true })
    (hm : s.NoCall m) : s.Leads :=
  .of_next m hs ⟨_, .start rfl, .inl rfl⟩ hm

theorem Host.act_touches (hfreed : s.freed = true) {a : Act} (huses : a.uses = true) {sys : Sys}
    (hstep : step s.sys a = some sys) : s.act a = some { s with touched := true } := by
  simp [Host.act, hstep, hfreed, huses]

theorem Host.leads_of_producer (hfreed : s.freed = true) {p : Nat}
    (hp : s.sys.producers p ≠ .idle) : s.Leads := by
  cases hpc : s.sys.producers p with
  | idle => exact absurd hpc hp
  | made a =>
    obtain ⟨sys, hstep⟩ : ∃ sys, step s.sys (.link p) = some sys := by
      simp only [step, hpc]
      split <;> exact ⟨_, rfl⟩
    exact .of_touched (.queue (.link p)) (act_touches hfreed rfl hstep) trivial
  | linked a =>
    exact .of_touched (.queue (.test p))
      (act_touches hfreed rfl (by simp only [step, hpc]; rfl)) trivial
  | toSignal =>
    exact .of_touched (.queue (.signal p))
      (act_touches hfreed rfl (by simp only [step, hpc]; rfl)) trivial

theorem Host.leads_of_start (hfreed : s.freed = true) (hexit : s.exited = false)
    (hworker : s.sys.worker = .start) : s.Leads := by
  refine .of_touched (.queue .take) ?_ trivial
  simp [Host.next, Host.take, hfreed, hexit, hworker]

theorem Host.leads_of_ran (hfreed : s.freed = true) (hexit : s.exited = false) {a : Nat}
    (hworker : s.sys.worker = .ran a) : s.Leads := by
  cases ha : s.sys.heap a with
  | none =>
    have hnext : s.next (.queue .free) = some { s with sys := { s.sys with fault := true } } := by
      simp [Host.next, Host.act, step, hworker, ha, Act.uses, Act.locks]
    exact .of_next _ hnext ⟨_, .start rfl, .inr rfl⟩ trivial
  | some message =>
    have hnext : s.next (.queue .free) = some { s with sys := { s.sys with
        worker := .start, heap := Function.update s.sys.heap a none } } := by
      simp [Host.next, Host.act, step, hworker, ha, Act.uses, Act.locks]
    exact .of_next _ hnext (leads_of_start hfreed hexit rfl) trivial

/-- The worker is done with its message, whatever it was. -/
theorem Host.leads_of_act_run (hfreed : s.freed = true) (hexit : s.exited = false) {a : Nat}
    (hworker : s.sys.worker = .got a) (m : Move) (hm : s.NoCall m)
    (hnext : ∀ s₁, s.act .run = some s₁ → s.next m = some { s₁ with calling := none }) :
    s.Leads := by
  cases ha : s.sys.heap a with
  | none =>
    have hrun : s.act .run = some { s with sys := { s.sys with fault := true } } := by
      simp [Host.act, step, hworker, ha, Act.uses, Act.locks]
    exact .of_next m (hnext _ hrun) ⟨_, .start rfl, .inr rfl⟩ hm
  | some message =>
    have hrun : s.act .run = some { s with sys := { s.sys with
        worker := .ran a
        ran := s.sys.ran ++ if message.callback.isSome then [message.toEvent] else [] } } := by
      simp [Host.act, step, hworker, ha, Act.uses, Act.locks]
    exact .of_next m (hnext _ hrun) (leads_of_ran hfreed hexit (a := a) rfl) hm

theorem Host.goOn_freed (hfreed : s.freed = true) {c : Caller} {pc : DestroyPc}
    (hpc : s.destroy c = pc) (rest : Option Host) : s.goOn c pc rest = some (s.astray c) := by
  simp [Host.goOn, hpc, hfreed]

theorem Host.leads_of_calling (hfreed : s.freed = true) (hexit : s.exited = false) {a since : Nat}
    (hworker : s.sys.worker = .got a) (hcall : s.calling = some since) : s.Leads := by
  cases hpc : s.destroy .worker with
  | idle =>
    by_cases hlong : 50 < s.clock - since
    · refine .of_touched (.finish) ?_ trivial
      simp [Host.next, hcall, hpc, hfreed, hlong]
    · refine leads_of_act_run hfreed hexit hworker (.finish) trivial ?_
      intro s₁ hrun
      simp [Host.next, hcall, hpc, hlong, hrun]
  | called => exact .of_touched (.look .worker) (goOn_freed hfreed hpc _) trivial
  | first => exact .of_touched (.shut .worker) (goOn_freed hfreed hpc _) trivial
  | shut => exact .of_touched (.sleep .worker) (goOn_freed hfreed hpc _) trivial
  | asleep till =>
    refine .of_next (.pass till) rfl (.of_touched (.lock .worker) ?_ trivial) trivial
    simp [Host.next, hpc, Host.goOn, hfreed, Host.astray]
  | drains => exact .of_touched (.drain .worker) (goOn_freed hfreed hpc _) trivial
  | drained => exact .of_touched (.release .worker) (goOn_freed hfreed hpc _) trivial

theorem Host.leads_of_worker (hfreed : s.freed = true) (hexit : s.exited = false) : s.Leads := by
  cases hworker : s.sys.worker with
  | start => exact leads_of_start hfreed hexit hworker
  | waiting =>
    have hstep : step s.sys .wake = some { s.sys with worker := .start } := by
      simp only [step, hworker]
    exact .of_touched (.queue .wake) (act_touches hfreed rfl hstep) trivial
  | ran a => exact leads_of_ran hfreed hexit hworker
  | got a =>
    cases hcall : s.calling with
    | some since => exact leads_of_calling hfreed hexit hworker hcall
    | none =>
      cases hnull : s.noCallback with
      | true =>
        refine leads_of_act_run hfreed hexit hworker (.queue .run) trivial ?_
        intro s₁ hrun
        obtain ⟨sys, -, ⟨-, huses, -⟩ | ⟨-, rfl⟩⟩ := Host.act_cases hrun
        · exact absurd huses (by simp [Act.uses])
        · simp [Host.next, hcall, hnull, hrun]
      | false =>
        have hnext : s.next .begin = some { s with calling := some s.clock } := by
          simp [Host.next, hworker, hcall, hnull]
        exact .of_next _ hnext (leads_of_calling hfreed hexit hworker rfl) trivial

theorem Host.Inv.leads (h : s.Inv) {m : Move} (hguard : ¬s.Guard m) (hs : s.next m = some s') :
    s'.Leads := by
  cases m with
  | release c =>
    have hbusy : ¬s.Quiet := hguard
    have hfreed : s.freed = false := by
      by_contra hne
      exact hbusy (h.quiet (by simpa using hne))
    have hpc : s.destroy c = .drained := by
      by_contra hne
      simp [Host.next, Host.goOn, hne] at hs
    have hfree : s.next (.release c) = some { s.at c .idle with freed := true } := by
      simp [Host.next, Host.goOn, hpc, hfreed]
    obtain rfl := Option.some.inj (hfree.symm.trans hs)
    cases hexit : s.exited with
    | true =>
      obtain ⟨p, hp⟩ : ∃ p, s.sys.producers p ≠ .idle := by
        by_contra hall
        exact hbusy ⟨hexit, fun p => by_contra fun hp => hall ⟨p, hp⟩⟩
      exact leads_of_producer rfl hp
    | false => exact leads_of_worker rfl hexit
  | queue a =>
    cases a with
    | make p b e =>
      obtain ⟨sys, hstep, ⟨-, huses, -⟩ | ⟨-, rfl⟩⟩ := Host.act_cases hs
      · exact absurd huses (by simp [Act.uses])
      · have hfreed : s.freed = true := by simpa [Host.Guard] using hguard
        refine leads_of_producer hfreed (p := p) ?_
        simp only [step] at hstep
        split at hstep
        · obtain rfl := Option.some.inj hstep
          simp
        · exact absurd hstep (by simp)
    | link p | test p | signal p | take | wake | run | free => exact absurd trivial hguard
  | begin | finish | destroy c | look c | shut c | sleep c | lock c | drain c | pass ms =>
    exact absurd trivial hguard

end Leads

/-- **The handler outlives its worker.** In a run in which a handler is freed only when its worker
    has left the loop and nobody is in a call, and in which no call is made after that, neither the
    worker nor a producer uses the handler after it has been freed. Any other step leads to where
    one of them does, or has used a message that was freed before. -/
theorem handler_outlives {s : Host} (h : ReachableBy Host.init Host.next Host.Guard s) :
    s.touched = false ∧ ∀ m s', ¬s.Guard m → s.next m = some s' → s'.Leads := by
  have hinv : s.Inv := h.invariant Host.Inv Host.Inv.of_init fun hinv hguard hs =>
    hinv.next hguard hs
  exact ⟨hinv.untouched, fun m s' hguard hs => hinv.leads hguard hs⟩

def Host.created : Host :=
  { sys :=
      { heap := fun _ => none, events := ⟨none, none⟩, worker := .start
        producers := fun _ => .idle, accepted := [], ran := [], fault := false }
    shutdown := false, exited := false, calling := none, destroy := fun _ => .idle, mutex := none
    clock := 0, freed := false, touched := false }

theorem Host.created_init : Host.created.init :=
  ⟨⟨rfl, rfl, fun _ => rfl, rfl, rfl, rfl⟩, rfl, rfl, rfl, fun _ => rfl, rfl, rfl, rfl⟩

/-- A thread destroys the queue, from the call to the end. -/
def destroyMoves (c : Caller) : List Move :=
  [.destroy c, .look c, .shut c, .sleep c, .pass 1000, .lock c, .drain c, .release c]

/-- A thread destroys the queue while its worker waits, which leaves in time. -/
def waitingMoves : List Move :=
  [.queue .take, .queue .take, .destroy (.other 0), .look (.other 0), .shut (.other 0),
    .sleep (.other 0), .queue .take, .pass 1000, .lock (.other 0), .drain (.other 0),
    .release (.other 0)]

theorem handler_outlives_waiting :
    ∃ s, runFrom Host.next Host.created waitingMoves = some s ∧ s.freed = true ∧
      s.touched = false := by
  refine ⟨_, rfl, rfl, (handler_outlives ?_).1⟩
  refine ReachableBy.of_runFrom waitingMoves (.start Host.created_init) ?_ rfl
  exact ⟨trivial, trivial, trivial, trivial, trivial, trivial, trivial, trivial, trivial, trivial,
    ⟨rfl, fun _ => rfl⟩, trivial⟩

/-- Posting an event whose callback the worker begins to run. -/
def callbackMoves : List Move :=
  [.queue (.make 0 1 ⟨some 0, 0, 0⟩), .queue (.link 0), .queue (.test 0), .queue (.signal 0),
    .queue .take, .begin]

/-- **Two runs in which the worker uses the freed handler**: the callback takes longer than the
    second, and the callback destroys the queue itself. -/
theorem handler_touched :
    (∃ s, runFrom Host.next Host.created (callbackMoves ++ destroyMoves (.other 0) ++ [.finish]) =
      some s ∧ s.touched = true) ∧
    (∃ s, runFrom Host.next Host.created (callbackMoves ++ destroyMoves .worker ++ [.finish]) =
      some s ∧ s.touched = true) := by
  exact ⟨⟨_, rfl, rfl⟩, ⟨_, rfl, rfl⟩⟩

end Events
end LightDuer
