import LightDuer.Lib.Chain
import LightDuer.Lib.Transition

/-!
# The event queue of the Linux port

`lightduer_events.c` of `platform/source-linux`: producers allocate a message, hang it at the head
of a doubly linked list under the mutex, and signal the condition variable when, after the mutex is
released, their message is still at the tail. The worker takes messages from the tail, waits when
there is none, runs the callback and frees the message.

The model steps between the points where threads can interleave: a critical section is one step, the
unlocked test of the tail and the signal are steps of their own, and a wait may end without a
signal. Addresses are reused after they are freed.

## The heap

Messages lie in a heap, and the list is nothing but their pointers. A critical section that follows
a pointer to memory that is not allocated has no result, and `fault` is set in the state; that this
never happens is a theorem and no assumption. `pre` points towards the head and `next` towards the
tail; the worker leaves the `next` of the new tail as it was.

## The threads

There is one worker and any number of producers, each with a place in its function. A producer that
tests the tail may compare its message with one that was made later at the same address, as its own
has been taken and freed by then. It signals all the same, and a signal too many does no harm: a
worker that wakes up looks at the tail again.
-/

set_option autoImplicit false

namespace LightDuer
namespace Events

open Lib

/-- What `duer_events_call` is asked to post; a callback is `none` where it is `NULL`. -/
structure Event where
  callback : Option Nat
  what : Int
  data : Nat
deriving DecidableEq, Repr

/-- `duer_eq_message` -/
structure DuerEqMessage extends Event where
  pre : Option Nat
  next : Option Nat
deriving DecidableEq, Repr

/-- The list in `duer_events_t`. -/
structure DuerEvents where
  head : Option Nat
  tail : Option Nat
deriving DecidableEq, Repr

/-! ## The critical sections

Each gives `none` where it would follow a pointer to memory that is not allocated. -/

/-- The critical section of `duer_events_call`: the message at `a` becomes the head. -/
def linkMessage (heap : Heap DuerEqMessage) (events : DuerEvents) (a : Nat) :
    Option (Heap DuerEqMessage × DuerEvents) := do
  let heap ← match events.head with
    | none => some heap
    | some hd => do
        let node ← heap hd
        some (Function.update heap hd (some { node with pre := some a }))
  let message ← heap a
  some (Function.update heap a (some { message with next := events.head }),
    { head := some a, tail := if events.tail = none then some a else events.tail })

/-- The critical section of `duer_events_task`, when the tail is not `NULL`: the message at
    the tail is taken off the list. -/
def takeMessage (heap : Heap DuerEqMessage) (events : DuerEvents) :
    Option (Nat × DuerEvents) := do
  let a ← events.tail
  let message ← heap a
  some (a, { tail := message.pre, head := if message.pre = none then none else events.head })

/-! ## Threads -/

/-- Where the worker is in the loop of `duer_events_task`. -/
inductive WorkerPc where
  /-- about to lock the mutex and look at the tail -/
  | start
  /-- in `pthread_cond_wait` -/
  | waiting
  /-- with a message off the list whose callback it is about to run -/
  | got (a : Nat)
  /-- about to free the message -/
  | ran (a : Nat)
deriving DecidableEq, Repr

/-- Where a producer is in `duer_events_call`. -/
inductive ProducerPc where
  | idle
  /-- with a new message, about to enter the critical section -/
  | made (a : Nat)
  /-- out of the critical section, about to compare the tail with its message -/
  | linked (a : Nat)
  /-- about to signal -/
  | toSignal
deriving DecidableEq, Repr

/-- The queue, the threads and the heap, with what happened so far: the events accepted, in
    the order of their critical sections, and those whose callback was run. `fault` is set by
    a step that uses memory that is not allocated. -/
structure Sys where
  heap : Heap DuerEqMessage
  events : DuerEvents
  worker : WorkerPc
  producers : Nat → ProducerPc
  accepted : List Event
  ran : List Event
  fault : Bool

/-- After `duer_events_create`. -/
def Sys.init (s : Sys) : Prop :=
  s.events = { head := none, tail := none } ∧ s.worker = .start ∧
    (∀ p, s.producers p = .idle) ∧ s.accepted = [] ∧ s.ran = [] ∧ s.fault = false

inductive Act where
  /-- producer `p` allocates a message for `e`, at a free address -/
  | make (p a : Nat) (e : Event)
  /-- producer `p` runs its critical section -/
  | link (p : Nat)
  /-- producer `p` compares the tail with its message, without the mutex -/
  | test (p : Nat)
  /-- producer `p` signals the condition variable -/
  | signal (p : Nat)
  /-- the worker runs its critical section -/
  | take
  /-- the wait of the worker ends by itself -/
  | wake
  /-- the worker runs the callback of the message it took -/
  | run
  /-- the worker frees that message -/
  | free
deriving DecidableEq, Repr

def step (s : Sys) : Act → Option Sys
  | .make p a e =>
      match s.producers p, s.heap a with
      | .idle, none => some { s with
          producers := Function.update s.producers p (.made a)
          heap := Function.update s.heap a (some { e with pre := none, next := none }) }
      | _, _ => none
  | .link p =>
      match s.producers p with
      | .made a =>
          match linkMessage s.heap s.events a, s.heap a with
          | some (heap, events), some message => some { s with
              producers := Function.update s.producers p (.linked a)
              heap, events, accepted := s.accepted ++ [message.toEvent] }
          | _, _ => some { s with fault := true }
      | _ => none
  | .test p =>
      match s.producers p with
      | .linked a => some { s with
          producers := Function.update s.producers p
            (if s.events.tail = some a then .toSignal else .idle) }
      | _ => none
  | .signal p =>
      match s.producers p with
      | .toSignal => some { s with
          producers := Function.update s.producers p .idle
          worker := if s.worker = .waiting then .start else s.worker }
      | _ => none
  | .take =>
      match s.worker, s.events.tail with
      | .start, none => some { s with worker := .waiting }
      | .start, some _ =>
          match takeMessage s.heap s.events with
          | some (a, events) => some { s with events, worker := .got a }
          | none => some { s with fault := true }
      | _, _ => none
  | .wake =>
      match s.worker with
      | .waiting => some { s with worker := .start }
      | _ => none
  | .run =>
      match s.worker with
      | .got a =>
          match s.heap a with
          | some message => some { s with
              worker := .ran a
              ran := s.ran ++ if message.callback.isSome then [message.toEvent] else [] }
          | none => some { s with fault := true }
      | _ => none
  | .free =>
      match s.worker with
      | .ran a =>
          match s.heap a with
          | some _ => some { s with worker := .start, heap := Function.update s.heap a none }
          | none => some { s with fault := true }
      | _ => none

end Events
end LightDuer
