import LightDuer.Lib.Transition
import Mathlib.Logic.Function.Basic
import Mathlib.Tactic.Common

/-!
# The socket lock of the Linux port

`baidu_ca_socket_adp.c` of `platform/source-linux`: the engine thread creates, connects, reads,
closes and destroys sockets; the socket thread runs the `bcasoc_check_data` events these post, one
at a time. An event looks at the socket before it takes the lock and again after; `bcasoc_close`
takes the lock, `bcasoc_destroy` does not.

The model steps between the points where the threads can interleave. An event belongs to the socket
object it was posted for, whatever is allocated at its address later. `select` may return anything,
and an event may fail to be posted.

## What goes wrong

Two places of the source are wrong on their own. An event that finds the socket closed at its second
look returns with the lock taken, and the next close of any socket waits for ever. And an object may
be destroyed while an event for it is still queued or running, which then reads what was freed. Both
need the engine thread to act at the wrong time, so the conditions are on its steps: it gives a
socket the descriptor -1, by closing it or by a `socket()` that fails, between the two looks of an
event, or destroys one that an event is still to read.

## The proof

The property is that of a state: the lock is not left taken, and nothing freed has been read. The
invariant `LockSys.Inv` adds that the objects of all events are there, of those queued, running or
still in a timer that is started, since each of these is a later read; and that the lock is held by
exactly the thread that is inside of it. `lockStep` has an action for each piece of code between two
such points, and the invariant is proved for the actions of the two threads apart.
-/

set_option autoImplicit false

namespace LightDuer
namespace Linux

open Lib

/-- `bcasoc_t`: the descriptor, -1 where it is closed, and the timer. -/
structure Bcasoc where
  fd : Int
  timer : Option Nat
deriving DecidableEq, Repr

inductive Object where
  | unused
  | live (soc : Bcasoc)
  | freed
deriving DecidableEq, Repr

inductive Thread where
  | engine
  | socket
deriving DecidableEq, Repr

/-- Where the socket thread is in `bcasoc_check_data`, and with which object. -/
inductive CheckPc where
  /-- in no event -/
  | returned
  /-- about to look at the descriptor -/
  | entered (x : Nat)
  /-- about to take the lock -/
  | locking (x : Nat)
  /-- with the lock, about to look again -/
  | locked (x : Nat)
  /-- with the lock, in `select` -/
  | selecting (x : Nat)
  /-- about to give the lock back -/
  | leaving
deriving DecidableEq, Repr

/-- Where the engine thread is. -/
inductive EnginePc where
  | idle
  /-- in `bcasoc_connect`, with a descriptor -/
  | connecting (x : Nat)
  /-- in `bcasoc_close`, about to take the lock -/
  | closing (x : Nat)
  /-- in `bcasoc_close`, with the lock -/
  | closeLocked (x : Nat)
deriving DecidableEq, Repr

/-- The threads, the sockets, the queue of events and `g_mutex`; `started` gives the object that a
    started timer posts an event for. `fault` is set by an event that reads an object that is not
    allocated. -/
structure LockSys where
  objects : Nat → Object
  queue : List Nat
  check : CheckPc
  engine : EnginePc
  mutex : Option Thread
  started : Nat → Option Nat
  fault : Bool

/-- After `bcasoc_initialize`. -/
def LockSys.init (s : LockSys) : Prop :=
  (∀ x, s.objects x = .unused) ∧ s.queue = [] ∧ s.check = .returned ∧ s.engine = .idle ∧
    s.mutex = none ∧ (∀ t, s.started t = none) ∧ s.fault = false

/-- `bcasoc_events_call` for the object `x`. -/
def LockSys.eventsCall (s : LockSys) (x : Nat) (posted : Bool) : List Nat :=
  if posted then s.queue ++ [x] else s.queue

inductive LockAct where
  /-- `bcasoc_create` -/
  | create (x : Nat)
  /-- `bcasoc_connect`, as far as `socket()`, which gives `fd` -/
  | socket (x : Nat) (fd : Int)
  /-- the rest of it; `connect()` gives `rs`, `duer_timer_acquire` gives `timer` -/
  | connected (rs : Int) (timer : Option Nat) (posted : Bool)
  /-- `bcasoc_recv` with octets -/
  | recv (x : Nat) (posted : Bool)
  /-- `bcasoc_close`, as far as `bcasoc_lock` -/
  | close (x : Nat)
  | closeLock
  | closeUnlock
  /-- `bcasoc_destroy` -/
  | destroy (x : Nat)
  /-- a timer calls `bcasoc_timer_expired` -/
  | expire (timer : Nat) (posted : Bool)
  /-- the socket thread takes an event -/
  | take
  | firstTest
  | lock
  | doubleCheck
  /-- `select` returns `rs` -/
  | selected (rs : Int)
  | unlock
deriving DecidableEq, Repr

/-- The steps of the engine thread. -/
def LockAct.ofEngine : LockAct → Bool
  | .create _ | .socket .. | .connected .. | .recv .. | .close _ | .closeLock | .closeUnlock
  | .destroy _ => true
  | _ => false

/-- `duer_timer_release` of the timer, where there is one. -/
def releaseTimer (started : Nat → Option Nat) : Option Nat → Nat → Option Nat
  | some t => Function.update started t none
  | none => started

/-- `duer_timer_start` of the timer, where there is one. -/
def startTimer (started : Nat → Option Nat) (x : Nat) : Option Nat → Nat → Option Nat
  | some t => Function.update started t (some x)
  | none => started

def lockStep (s : LockSys) : LockAct → Option LockSys
  | .create x =>
      match s.engine, s.objects x with
      | .idle, .unused => some { s with
          objects := Function.update s.objects x (.live ⟨-1, none⟩) }
      | _, _ => none
  | .socket x fd =>
      match s.engine, s.objects x with
      | .idle, .live soc => some { s with
          objects := Function.update s.objects x (.live { soc with fd })
          engine := if fd < 0 then .idle else .connecting x }
      | _, _ => none
  | .connected rs timer posted =>
      match s.engine with
      | .connecting x =>
          if rs < 0 then some { s with engine := .idle }
          else
            match s.objects x with
            | .live soc => some { s with
                objects := Function.update s.objects x (.live { soc with timer })
                queue := s.eventsCall x posted, engine := .idle }
            | _ => none
      | _ => none
  | .recv x posted =>
      match s.engine, s.objects x with
      | .idle, .live soc =>
          if soc.fd = -1 then none else some { s with queue := s.eventsCall x posted }
      | _, _ => none
  | .close x =>
      match s.engine, s.objects x with
      | .idle, .live _ => some { s with engine := .closing x }
      | _, _ => none
  | .closeLock =>
      match s.engine, s.mutex with
      | .closing x, none => some { s with engine := .closeLocked x, mutex := some .engine }
      | _, _ => none
  | .closeUnlock =>
      match s.engine with
      | .closeLocked x =>
          match s.objects x with
          | .live soc => some { s with
              objects := Function.update s.objects x (.live ⟨-1, none⟩)
              started := releaseTimer s.started soc.timer
              engine := .idle, mutex := none }
          | _ => none
      | _ => none
  | .destroy x =>
      match s.engine, s.objects x with
      | .idle, .live _ => some { s with objects := Function.update s.objects x .freed }
      | _, _ => none
  | .expire t posted =>
      match s.started t with
      | some x => some { s with
          started := Function.update s.started t none, queue := s.eventsCall x posted }
      | none => none
  | .take =>
      match s.check, s.queue with
      | .returned, x :: queue => some { s with check := .entered x, queue }
      | _, _ => none
  | .firstTest =>
      match s.check with
      | .entered x =>
          match s.objects x with
          | .live soc => some { s with check := if soc.fd = -1 then .returned else .locking x }
          | _ => some { s with fault := true }
      | _ => none
  | .lock =>
      match s.check, s.mutex with
      | .locking x, none => some { s with check := .locked x, mutex := some .socket }
      | _, _ => none
  | .doubleCheck =>
      match s.check with
      | .locked x =>
          match s.objects x with
          -- the return here does not unlock
          | .live soc => some { s with check := if soc.fd = -1 then .returned else .selecting x }
          | _ => some { s with fault := true }
      | _ => none
  | .selected rs =>
      match s.check with
      | .selecting x =>
          if rs = 0 then
            match s.objects x with
            | .live soc => some { s with
                check := .leaving, started := startTimer s.started x soc.timer }
            | _ => some { s with fault := true }
          else some { s with check := .leaving }
      | _ => none
  | .unlock =>
      match s.check with
      | .leaving => some { s with check := .returned, mutex := none }
      | _ => none

/-! ## The property and the condition -/

/-- Between two events the socket thread does not hold the lock, and no event has read an object
    that was freed. -/
def LockSys.Sound (s : LockSys) : Prop :=
  (s.check = .returned → s.mutex ≠ some .socket) ∧ s.fault = false

/-- The running event is still to read the object. -/
def CheckPc.Reads (pc : CheckPc) (x : Nat) : Prop :=
  pc = .entered x ∨ pc = .locking x ∨ pc = .locked x ∨ pc = .selecting x

/-- The running event has seen the socket open and is to look at it again. -/
def CheckPc.Between (pc : CheckPc) (x : Nat) : Prop := pc = .locking x ∨ pc = .locked x

/-- The running event holds the lock. -/
def CheckPc.Holds (pc : CheckPc) : Prop :=
  (∃ x, pc = .locked x ∨ pc = .selecting x) ∨ pc = .leaving

/-- An event for the object is queued, or running and still to read it, or a timer is started that
    will post one. -/
def LockSys.EventFor (s : LockSys) (x : Nat) : Prop :=
  x ∈ s.queue ∨ s.check.Reads x ∨ ∃ t, s.started t = some x

/-- A socket gets no descriptor -1 between the two looks of an event at it, and no object is
    destroyed that an event is still to read. -/
def LockGuard (s : LockSys) : LockAct → Prop
  | .socket x fd => fd = -1 → ¬s.check.Between x
  | .closeUnlock => ∀ x, s.engine = .closeLocked x → ¬s.check.Between x
  | .destroy x => ¬s.EventFor x
  | _ => True

/-! ## The invariant -/

def LockSys.Live (s : LockSys) (x : Nat) : Prop := ∃ soc, s.objects x = .live soc

def LockSys.Open (s : LockSys) (x : Nat) : Prop := ∃ soc, s.objects x = .live soc ∧ soc.fd ≠ -1

structure LockSys.Inv (s : LockSys) : Prop where
  noFault : s.fault = false
  socketHolds : s.mutex = some .socket ↔ s.check.Holds
  engineHolds : s.mutex = some .engine ↔ ∃ x, s.engine = .closeLocked x
  live : ∀ x, s.EventFor x → s.Live x
  between : ∀ x, s.check.Between x → s.Open x

theorem LockSys.Inv.initial {s : LockSys} (h : s.init) : s.Inv := by
  obtain ⟨-, hqueue, hcheck, hengine, hmutex, hstarted, hfault⟩ := h
  refine ⟨hfault, ?_, ?_, ?_, ?_⟩
  · simp [hmutex, hcheck, CheckPc.Holds]
  · simp [hmutex, hengine]
  · rintro x (h | h | ⟨t, h⟩)
    · simp [hqueue] at h
    · simp [hcheck, CheckPc.Reads] at h
    · simp [hstarted] at h
  · intro x h
    simp [hcheck, CheckPc.Between] at h

theorem LockSys.Inv.sound {s : LockSys} (h : s.Inv) : s.Sound := by
  refine ⟨fun hcheck hmutex => ?_, h.noFault⟩
  have hholds := h.socketHolds.mp hmutex
  simp [hcheck, CheckPc.Holds] at hholds

section Steps

variable {s s' : LockSys}

theorem CheckPc.Between.reads {pc : CheckPc} {x : Nat} (h : pc.Between x) : pc.Reads x := by
  rcases h with h | h
  · exact .inr (.inl h)
  · exact .inr (.inr (.inl h))

theorem LockSys.mem_eventsCall {x y : Nat} {posted : Bool} (h : y ∈ s.eventsCall x posted) :
    y ∈ s.queue ∨ y = x := by
  cases posted with
  | true => simpa [LockSys.eventsCall] using h
  | false => exact .inl h

/-- A timer that is started after a release was started before. -/
theorem releaseTimer_some {started : Nat → Option Nat} {timer : Option Nat} {t x : Nat}
    (h : releaseTimer started timer t = some x) : started t = some x := by
  cases timer with
  | none => exact h
  | some t' =>
    by_cases ht : t = t'
    · simp [releaseTimer, ht] at h
    · simpa only [releaseTimer, Function.update_of_ne ht] using h

theorem startTimer_some {started : Nat → Option Nat} {timer : Option Nat} {t x y : Nat}
    (h : startTimer started x timer t = some y) : started t = some y ∨ y = x := by
  cases timer with
  | none => exact .inl h
  | some t' =>
    by_cases ht : t = t'
    · rw [startTimer, ht, Function.update_self] at h
      exact .inr (Option.some.inj h).symm
    · rw [startTimer, Function.update_of_ne ht] at h
      exact .inl h

/-- Writing to a socket frees none. -/
theorem live_update {objects : Nat → Object} {x y : Nat} {soc : Bcasoc}
    (h : ∃ soc, objects y = .live soc) :
    ∃ soc', Function.update objects x (.live soc) y = .live soc' := by
  by_cases hy : y = x
  · subst hy
    exact ⟨soc, Function.update_self ..⟩
  · rwa [Function.update_of_ne hy]

/-- Writing to a socket closes no other one. -/
theorem open_update {objects : Nat → Object} {x y : Nat} {soc : Bcasoc}
    (h : ∃ soc, objects y = .live soc ∧ soc.fd ≠ -1) (hx : y = x → soc.fd ≠ -1) :
    ∃ soc', Function.update objects x (.live soc) y = .live soc' ∧ soc'.fd ≠ -1 := by
  by_cases hy : y = x
  · subst hy
    exact ⟨soc, Function.update_self .., hx rfl⟩
  · rwa [Function.update_of_ne hy]

/-- The engine thread without the lock. -/
theorem LockSys.Inv.engine_free (hi : s.Inv) (h : ∀ x, s.engine ≠ .closeLocked x) :
    s.mutex ≠ some .engine := by
  intro hmutex
  obtain ⟨x, hx⟩ := hi.engineHolds.mp hmutex
  exact h x hx

/-- The engine thread goes on without the lock. -/
theorem holds_of_free {mutex : Option Thread} {pc : EnginePc} (hmutex : mutex ≠ some .engine)
    (hpc : ∀ x, pc ≠ .closeLocked x) : mutex = some .engine ↔ ∃ x, pc = .closeLocked x :=
  ⟨fun h => absurd h hmutex, fun ⟨x, h⟩ => absurd h (hpc x)⟩

theorem LockSys.Inv.create (hi : s.Inv) {x : Nat} (hs : lockStep s (.create x) = some s') :
    s'.Inv := by
  simp only [lockStep] at hs
  split at hs
  · rename_i hengine hunused
    obtain rfl := Option.some.inj hs
    refine ⟨hi.noFault, hi.socketHolds, hi.engineHolds, fun y hy => live_update (hi.live y hy),
      fun y hy => open_update (hi.between y hy) ?_⟩
    rintro rfl
    obtain ⟨soc, hsoc, -⟩ := hi.between y hy
    exact absurd (hunused.symm.trans hsoc) (by simp)
  · exact absurd hs (by simp)

theorem LockSys.Inv.socket (hi : s.Inv) {x : Nat} {fd : Int} (hg : LockGuard s (.socket x fd))
    (hs : lockStep s (.socket x fd) = some s') : s'.Inv := by
  simp only [lockStep] at hs
  split at hs
  · rename_i soc hengine hsoc
    obtain rfl := Option.some.inj hs
    have hfree : s.mutex ≠ some .engine := hi.engine_free (by simp [hengine])
    refine ⟨hi.noFault, hi.socketHolds, holds_of_free hfree (by intro y; split <;> simp),
      fun y hy => live_update (hi.live y hy), fun y hy => open_update (hi.between y hy) ?_⟩
    rintro rfl hfd
    exact hg hfd hy
  · exact absurd hs (by simp)

/-- Posting an event for a socket that is allocated. -/
theorem LockSys.Inv.post (hi : s.Inv) {x : Nat} {posted : Bool} (hx : s.Live x) :
    LockSys.Inv { s with queue := s.eventsCall x posted } := by
  refine ⟨hi.noFault, hi.socketHolds, hi.engineHolds, fun y hy => ?_, hi.between⟩
  rcases hy with h | h | h
  · rcases s.mem_eventsCall h with h | rfl
    · exact hi.live y (.inl h)
    · exact hx
  · exact hi.live y (.inr (.inl h))
  · exact hi.live y (.inr (.inr h))

theorem LockSys.Inv.connected (hi : s.Inv) {rs : Int} {timer : Option Nat} {posted : Bool}
    (hs : lockStep s (.connected rs timer posted) = some s') : s'.Inv := by
  simp only [lockStep] at hs
  split at hs
  · rename_i x hengine
    have hfree : s.mutex ≠ some .engine := hi.engine_free (by simp [hengine])
    split at hs
    · obtain rfl := Option.some.inj hs
      exact ⟨hi.noFault, hi.socketHolds, holds_of_free hfree (by simp), hi.live, hi.between⟩
    · split at hs
      · rename_i soc hsoc
        obtain rfl := Option.some.inj hs
        have hpost : LockSys.Inv { s with queue := s.eventsCall x posted } := hi.post ⟨soc, hsoc⟩
        refine ⟨hi.noFault, hi.socketHolds, holds_of_free hfree (by simp),
          fun y hy => live_update (hpost.live y hy), fun y hy => open_update (hi.between y hy) ?_⟩
        -- the descriptor stays what it is
        rintro rfl
        obtain ⟨soc', hsoc', hfd⟩ := hi.between y hy
        obtain rfl := Object.live.inj (hsoc.symm.trans hsoc')
        exact hfd
      · exact absurd hs (by simp)
  · exact absurd hs (by simp)

theorem LockSys.Inv.recv (hi : s.Inv) {x : Nat} {posted : Bool}
    (hs : lockStep s (.recv x posted) = some s') : s'.Inv := by
  simp only [lockStep] at hs
  split at hs
  · rename_i soc hengine hsoc
    split at hs
    · exact absurd hs (by simp)
    · obtain rfl := Option.some.inj hs
      exact hi.post ⟨soc, hsoc⟩
  · exact absurd hs (by simp)

theorem LockSys.Inv.close (hi : s.Inv) {x : Nat} (hs : lockStep s (.close x) = some s') :
    s'.Inv := by
  simp only [lockStep] at hs
  split at hs
  · rename_i hengine hsoc
    obtain rfl := Option.some.inj hs
    have hfree : s.mutex ≠ some .engine := hi.engine_free (by simp [hengine])
    exact ⟨hi.noFault, hi.socketHolds, holds_of_free hfree (by simp), hi.live, hi.between⟩
  · exact absurd hs (by simp)

theorem LockSys.Inv.closeLock (hi : s.Inv) (hs : lockStep s .closeLock = some s') : s'.Inv := by
  simp only [lockStep] at hs
  split at hs
  · rename_i x hengine hmutex
    obtain rfl := Option.some.inj hs
    have hholds : ¬s.check.Holds := fun h => by
      have := hi.socketHolds.mpr h
      simp [hmutex] at this
    exact ⟨hi.noFault, ⟨fun h => by simp at h, fun h => absurd h hholds⟩,
      ⟨fun _ => ⟨x, rfl⟩, fun _ => rfl⟩, hi.live, hi.between⟩
  · exact absurd hs (by simp)

theorem LockSys.Inv.closeUnlock (hi : s.Inv) (hg : LockGuard s .closeUnlock)
    (hs : lockStep s .closeUnlock = some s') : s'.Inv := by
  simp only [lockStep] at hs
  split at hs
  · rename_i x hengine
    have hmutex : s.mutex = some .engine := hi.engineHolds.mpr ⟨x, hengine⟩
    have hholds : ¬s.check.Holds := fun h => by
      have := hi.socketHolds.mpr h
      simp [hmutex] at this
    split at hs
    · rename_i soc hsoc
      obtain rfl := Option.some.inj hs
      refine ⟨hi.noFault, ⟨fun h => by simp at h, fun h => absurd h hholds⟩,
        ⟨fun h => by simp at h, fun ⟨y, hy⟩ => by simp at hy⟩, fun y hy => live_update ?_,
        fun y hy => open_update (hi.between y hy) ?_⟩
      · rcases hy with h | h | ⟨t, h⟩
        · exact hi.live y (.inl h)
        · exact hi.live y (.inr (.inl h))
        · exact hi.live y (.inr (.inr ⟨t, releaseTimer_some h⟩))
      · rintro rfl
        exact absurd hy (hg y hengine)
    · exact absurd hs (by simp)
  · exact absurd hs (by simp)

theorem LockSys.Inv.destroy (hi : s.Inv) {x : Nat} (hg : LockGuard s (.destroy x))
    (hs : lockStep s (.destroy x) = some s') : s'.Inv := by
  simp only [lockStep] at hs
  split at hs
  · obtain rfl := Option.some.inj hs
    have hne : ∀ y, s.EventFor y → y ≠ x := by
      rintro y hy rfl
      exact hg hy
    refine ⟨hi.noFault, hi.socketHolds, hi.engineHolds, fun y hy => ?_, fun y hy => ?_⟩
    · obtain ⟨soc, hsoc⟩ := hi.live y hy
      exact ⟨soc, (Function.update_of_ne (hne y hy) ..).trans hsoc⟩
    · obtain ⟨soc, hsoc, hfd⟩ := hi.between y hy
      exact ⟨soc, (Function.update_of_ne (hne y (.inr (.inl hy.reads))) ..).trans hsoc, hfd⟩
  · exact absurd hs (by simp)

theorem LockSys.Inv.expire (hi : s.Inv) {t : Nat} {posted : Bool}
    (hs : lockStep s (.expire t posted) = some s') : s'.Inv := by
  simp only [lockStep] at hs
  split at hs
  · rename_i x hstarted
    obtain rfl := Option.some.inj hs
    have hpost : LockSys.Inv { s with queue := s.eventsCall x posted } :=
      hi.post (hi.live x (.inr (.inr ⟨t, hstarted⟩)))
    refine ⟨hi.noFault, hi.socketHolds, hi.engineHolds, fun y hy => ?_, hi.between⟩
    rcases hy with h | h | ⟨t', h⟩
    · exact hpost.live y (.inl h)
    · exact hi.live y (.inr (.inl h))
    · by_cases ht : t' = t
      · subst ht
        exact absurd ((Function.update_self ..).symm.trans h) (by simp)
      · exact hi.live y (.inr (.inr ⟨t', (Function.update_of_ne ht ..).symm.trans h⟩))
  · exact absurd hs (by simp)

/-! The socket thread goes on in its event, or to the next one. -/

/-- A step that takes the running event on, with the object it has. -/
theorem LockSys.Inv.goOn (hi : s.Inv) {pc : CheckPc}
    (hholds : pc.Holds ↔ s.check.Holds) (hreads : ∀ y, pc.Reads y → s.check.Reads y)
    (hbetween : ∀ y, pc.Between y → s.Open y) : LockSys.Inv { s with check := pc } := by
  refine ⟨hi.noFault, hi.socketHolds.trans hholds.symm, hi.engineHolds, fun y hy => ?_, hbetween⟩
  rcases hy with h | h | h
  · exact hi.live y (.inl h)
  · exact hi.live y (.inr (.inl (hreads y h)))
  · exact hi.live y (.inr (.inr h))

theorem LockSys.Inv.take (hi : s.Inv) (hs : lockStep s .take = some s') : s'.Inv := by
  simp only [lockStep] at hs
  split at hs
  · rename_i x queue hcheck hqueue
    obtain rfl := Option.some.inj hs
    have hfree := hi.socketHolds
    rw [hcheck] at hfree
    refine ⟨hi.noFault, hfree.trans (by simp [CheckPc.Holds]), hi.engineHolds, fun y hy => ?_,
      fun y hy => by simp [CheckPc.Between] at hy⟩
    rcases hy with h | h | h
    · exact hi.live y (.inl (hqueue ▸ List.mem_cons_of_mem x h))
    · obtain rfl : x = y := by simpa [CheckPc.Reads] using h
      exact hi.live x (.inl (hqueue ▸ List.mem_cons_self ..))
    · exact hi.live y (.inr (.inr h))
  · exact absurd hs (by simp)

theorem LockSys.Inv.firstTest (hi : s.Inv) (hs : lockStep s .firstTest = some s') : s'.Inv := by
  simp only [lockStep] at hs
  split at hs
  · rename_i x hcheck
    obtain ⟨soc, hsoc⟩ := hi.live x (.inr (.inl (.inl hcheck)))
    simp only [hsoc, Option.some.injEq] at hs
    subst hs
    refine hi.goOn ?_ ?_ ?_
    · split <;> simp [CheckPc.Holds, hcheck]
    · intro y
      split <;> simp [CheckPc.Reads, hcheck]
    · intro y hy
      split at hy
      · simp [CheckPc.Between] at hy
      · obtain rfl : x = y := by simpa [CheckPc.Between] using hy
        rename_i hfd
        exact ⟨soc, hsoc, hfd⟩
  · exact absurd hs (by simp)

theorem LockSys.Inv.lock (hi : s.Inv) (hs : lockStep s .lock = some s') : s'.Inv := by
  simp only [lockStep] at hs
  split at hs
  · rename_i x hcheck hmutex
    obtain rfl := Option.some.inj hs
    have hengine : ¬∃ y, s.engine = .closeLocked y := fun h => by
      have := hi.engineHolds.mpr h
      simp [hmutex] at this
    refine ⟨hi.noFault, ⟨fun _ => .inl ⟨x, .inl rfl⟩, fun _ => rfl⟩,
      ⟨fun h => by simp at h, fun h => absurd h hengine⟩, fun y hy => ?_, fun y hy => ?_⟩
    · rcases hy with h | h | h
      · exact hi.live y (.inl h)
      · obtain rfl : x = y := by simpa [CheckPc.Reads] using h
        exact hi.live x (.inr (.inl (.inr (.inl hcheck))))
      · exact hi.live y (.inr (.inr h))
    · obtain rfl : x = y := by simpa [CheckPc.Between] using hy
      exact hi.between x (.inl hcheck)
  · exact absurd hs (by simp)

/-- The second look finds what the first one did. -/
theorem LockSys.Inv.doubleCheck (hi : s.Inv) (hs : lockStep s .doubleCheck = some s') :
    s'.Inv := by
  simp only [lockStep] at hs
  split at hs
  · rename_i x hcheck
    obtain ⟨soc, hsoc, hfd⟩ := hi.between x (.inr hcheck)
    simp only [hsoc, if_neg hfd, Option.some.injEq] at hs
    subst hs
    refine hi.goOn ?_ ?_ ?_
    · simp [CheckPc.Holds, hcheck]
    · simp [CheckPc.Reads, hcheck]
    · simp [CheckPc.Between]
  · exact absurd hs (by simp)

theorem LockSys.Inv.selected (hi : s.Inv) {rs : Int} (hs : lockStep s (.selected rs) = some s') :
    s'.Inv := by
  simp only [lockStep] at hs
  split at hs
  · rename_i x hcheck
    have hleaving : LockSys.Inv { s with check := .leaving } := by
      refine hi.goOn ?_ ?_ ?_
      · simp [CheckPc.Holds, hcheck]
      · simp [CheckPc.Reads]
      · simp [CheckPc.Between]
    split at hs
    · obtain ⟨soc, hsoc⟩ := hi.live x (.inr (.inl (.inr (.inr (.inr hcheck)))))
      simp only [hsoc, Option.some.injEq] at hs
      subst hs
      refine ⟨hi.noFault, hleaving.socketHolds, hi.engineHolds, fun y hy => ?_, hleaving.between⟩
      rcases hy with h | h | ⟨t, h⟩
      · exact hi.live y (.inl h)
      · exact hleaving.live y (.inr (.inl h))
      · rcases startTimer_some h with h | rfl
        · exact hi.live y (.inr (.inr ⟨t, h⟩))
        · exact ⟨soc, hsoc⟩
    · obtain rfl := Option.some.inj hs
      exact hleaving
  · exact absurd hs (by simp)

theorem LockSys.Inv.unlock (hi : s.Inv) (hs : lockStep s .unlock = some s') : s'.Inv := by
  simp only [lockStep] at hs
  split at hs
  · rename_i hcheck
    obtain rfl := Option.some.inj hs
    have hmutex : s.mutex = some .socket := hi.socketHolds.mpr (.inr hcheck)
    have hengine : ¬∃ y, s.engine = .closeLocked y := fun h => by
      have := hi.engineHolds.mpr h
      simp [hmutex] at this
    refine ⟨hi.noFault, ?_, ⟨fun h => by simp at h, fun h => absurd h hengine⟩, fun y hy => ?_,
      fun y hy => by simp [CheckPc.Between] at hy⟩
    · simp [CheckPc.Holds]
    · rcases hy with h | h | h
      · exact hi.live y (.inl h)
      · simp [CheckPc.Reads] at h
      · exact hi.live y (.inr (.inr h))
  · exact absurd hs (by simp)

/-- **One step** that the condition admits. The invariant speaks of the lock and of the sockets that
    events are still to read; each action changes one of these, and the fields of the invariant that
    it does not touch are taken over. -/
theorem LockSys.Inv.step (hi : s.Inv) {a : LockAct} (hg : LockGuard s a)
    (hs : lockStep s a = some s') : s'.Inv := by
  cases a with
  | create x => exact hi.create hs
  | socket x fd => exact hi.socket hg hs
  | connected rs timer posted => exact hi.connected hs
  | recv x posted => exact hi.recv hs
  | close x => exact hi.close hs
  | closeLock => exact hi.closeLock hs
  | closeUnlock => exact hi.closeUnlock hg hs
  | destroy x => exact hi.destroy hg hs
  | expire t posted => exact hi.expire hs
  | take => exact hi.take hs
  | firstTest => exact hi.firstTest hs
  | lock => exact hi.lock hs
  | doubleCheck => exact hi.doubleCheck hs
  | selected rs => exact hi.selected hs
  | unlock => exact hi.unlock hs

end Steps

/-! ## Without the condition -/

/-- What the socket thread and the timers can come to while the engine thread does nothing. -/
def LeftAlone (s s' : LockSys) : Prop :=
  ∃ as : List LockAct, (∀ a ∈ as, a.ofEngine = false) ∧ runFrom lockStep s as = some s'

section LeftAlone

variable {s mid s' : LockSys} {x : Nat}

theorem LeftAlone.refl (s : LockSys) : LeftAlone s s := ⟨[], by simp, rfl⟩

theorem LeftAlone.head {a : LockAct} (ha : a.ofEngine = false) (hs : lockStep s a = some mid)
    (h : LeftAlone mid s') : LeftAlone s s' := by
  obtain ⟨as, has, hrun⟩ := h
  refine ⟨a :: as, ?_, Option.bind_eq_some_iff.mpr ⟨mid, hs, hrun⟩⟩
  intro b hb
  rcases List.mem_cons.mp hb with rfl | hb
  · exact ha
  · exact has b hb

theorem LeftAlone.trans (h : LeftAlone s mid) (h' : LeftAlone mid s') : LeftAlone s s' := by
  obtain ⟨as, has, hrun⟩ := h
  induction as generalizing s with
  | nil =>
    obtain rfl := Option.some.inj hrun
    exact h'
  | cons a as ih =>
    obtain ⟨next, hnext, hrest⟩ := Option.bind_eq_some_iff.mp hrun
    exact .head (has a (by simp)) hnext (ih (fun b hb => has b (by simp [hb])) hrest)

/-- No step of theirs is one the condition is about. -/
theorem LockSys.Inv.leftAlone (hi : s.Inv) (h : LeftAlone s s') : s'.Inv := by
  obtain ⟨as, has, hrun⟩ := h
  induction as generalizing s with
  | nil =>
    obtain rfl := Option.some.inj hrun
    exact hi
  | cons a as ih =>
    obtain ⟨next, hnext, hrest⟩ := Option.bind_eq_some_iff.mp hrun
    have ha := has a (by simp)
    have hg : LockGuard s a := by cases a <;> trivial
    exact ih (hi.step hg hnext) (fun b hb => has b (by simp [hb])) hrest

/-- The lock is free where no thread is in its critical section. -/
theorem LockSys.Inv.mutex_none (hi : s.Inv) (hengine : ∀ y, s.engine ≠ .closeLocked y)
    (hcheck : ¬s.check.Holds) : s.mutex = none := by
  have hengine := hi.engine_free hengine
  have hsocket := mt hi.socketHolds.mp hcheck
  cases hmutex : s.mutex with
  | none => rfl
  | some t =>
    cases t with
    | engine => exact absurd hmutex hengine
    | socket => exact absurd hmutex hsocket

/-- The lock is free for an event that waits for it. -/
theorem lock_step (hcheck : s.check = .locking x) (hmutex : s.mutex = none) :
    lockStep s .lock = some { s with check := .locked x, mutex := some .socket } := by
  simp only [lockStep, hcheck, hmutex]

/-- An event that finds the socket closed at its second look keeps the lock. -/
theorem lock_kept {soc : Bcasoc} (hbetween : s.check.Between x) (hsoc : s.objects x = .live soc)
    (hfd : soc.fd = -1) (hfree : ¬s.check.Holds → s.mutex = none)
    (hheld : s.check.Holds → s.mutex = some .socket) : ∃ s', LeftAlone s s' ∧ ¬s'.Sound := by
  -- from the second look on
  have hlocked : ∀ t : LockSys, t.check = .locked x → t.objects x = .live soc →
      t.mutex = some .socket → ∃ s', LeftAlone t s' ∧ ¬s'.Sound := by
    intro t hcheck hsoc hmutex
    have hstep : lockStep t .doubleCheck = some { t with check := .returned } := by
      simp only [lockStep, hcheck, hsoc, if_pos hfd]
    exact ⟨_, .head rfl hstep (.refl _), fun hsound => hsound.1 rfl hmutex⟩
  rcases hbetween with hcheck | hcheck
  · have hmutex := hfree (by simp [hcheck, CheckPc.Holds])
    obtain ⟨s', hleft, hbad⟩ := hlocked { s with check := .locked x, mutex := some .socket } rfl
      hsoc rfl
    exact ⟨s', .head rfl (lock_step hcheck hmutex) hleft, hbad⟩
  · exact hlocked s hcheck hsoc (hheld (.inl ⟨x, .inl hcheck⟩))

/-- The object was freed with an event for it queued, or running and still to read it. -/
structure LockSys.Owed (s : LockSys) (x : Nat) : Prop where
  freed : s.objects x = .freed
  lock : ¬s.check.Holds → s.mutex = none
  live : ∀ y, y ≠ x → s.EventFor y → s.Live y
  between : ∀ y, y ≠ x → s.check.Between y → s.Open y
  due : x ∈ s.queue ∨ s.check.Reads x

/-- The running event reads it. -/
theorem LockSys.Owed.reads (ho : s.Owed x) (h : s.check.Reads x) :
    ∃ s', LeftAlone s s' ∧ ¬s'.Sound := by
  have hfreed := ho.freed
  have hbad : ∀ t : LockSys, t.fault = true → ¬t.Sound := fun t hfault hsound =>
    absurd (hfault.symm.trans hsound.2) (by simp)
  rcases h with hcheck | hcheck | hcheck | hcheck
  · have hstep : lockStep s .firstTest = some { s with fault := true } := by
      simp only [lockStep, hcheck, hfreed]
    exact ⟨_, .head rfl hstep (.refl _), hbad _ rfl⟩
  · have hmutex := ho.lock (by simp [hcheck, CheckPc.Holds])
    have hstep : lockStep { s with check := .locked x, mutex := some .socket } .doubleCheck =
        some { s with check := .locked x, mutex := some .socket, fault := true } := by
      simp only [lockStep, hfreed]
    exact ⟨_, .head rfl (lock_step hcheck hmutex) (.head rfl hstep (.refl _)), hbad _ rfl⟩
  · have hstep : lockStep s .doubleCheck = some { s with fault := true } := by
      simp only [lockStep, hcheck, hfreed]
    exact ⟨_, .head rfl hstep (.refl _), hbad _ rfl⟩
  · have hstep : lockStep s (.selected 0) = some { s with fault := true } := by
      simp only [lockStep, hcheck, hfreed, if_true]
    exact ⟨_, .head rfl hstep (.refl _), hbad _ rfl⟩

theorem unlock_step (hcheck : s.check = .leaving) :
    lockStep s .unlock = some { s with check := .returned, mutex := none } := by
  simp only [lockStep, hcheck]

/-- From inside `select` an event gives the lock back. -/
theorem selecting_returns (hcheck : s.check = .selecting x) :
    LeftAlone s { s with check := .returned, mutex := none } := by
  have hselected : lockStep s (.selected 1) = some { s with check := .leaving } := by
    simp only [lockStep, hcheck, if_neg (show (1 : Int) ≠ 0 by decide)]
  exact .head rfl hselected (.head rfl (unlock_step rfl) (.refl _))

/-- With the lock, and the socket open. -/
theorem locked_returns (hcheck : s.check = .locked x) (hopen : s.Open x) :
    LeftAlone s { s with check := .returned, mutex := none } := by
  obtain ⟨soc, hsoc, hfd⟩ := hopen
  have hdouble : lockStep s .doubleCheck = some { s with check := .selecting x } := by
    simp only [lockStep, hcheck, hsoc, if_neg hfd]
  exact .head rfl hdouble (selecting_returns (s := { s with check := .selecting x }) rfl)

theorem locking_returns (hcheck : s.check = .locking x) (hmutex : s.mutex = none)
    (hopen : s.Open x) : LeftAlone s { s with check := .returned, mutex := none } :=
  .head rfl (lock_step hcheck hmutex)
    (locked_returns (s := { s with check := .locked x, mutex := some .socket }) rfl hopen)

/-- An event for another object returns. -/
theorem LockSys.Owed.returns (ho : s.Owed x) (h : ¬s.check.Reads x) :
    LeftAlone s { s with check := .returned, mutex := none } := by
  have hne : ∀ y, s.check.Reads y → y ≠ x := by
    rintro y hy rfl
    exact h hy
  cases hcheck : s.check with
  | returned =>
    have hmutex := ho.lock (by simp [hcheck, CheckPc.Holds])
    have hsame : { s with check := .returned, mutex := none } = s := by rw [← hcheck, ← hmutex]
    rw [hsame]
    exact .refl s
  | entered y =>
    have hmutex := ho.lock (by simp [hcheck, CheckPc.Holds])
    obtain ⟨soc, hsoc⟩ := ho.live y (hne y (.inl hcheck)) (.inr (.inl (.inl hcheck)))
    by_cases hfd : soc.fd = -1
    · have hfirst : lockStep s .firstTest = some { s with check := .returned } := by
        simp only [lockStep, hcheck, hsoc, if_pos hfd]
      have hsame : { s with check := .returned, mutex := none } =
          { s with check := .returned } := by rw [← hmutex]
      rw [hsame]
      exact .head rfl hfirst (.refl _)
    · have hfirst : lockStep s .firstTest = some { s with check := .locking y } := by
        simp only [lockStep, hcheck, hsoc, if_neg hfd]
      exact .head rfl hfirst
        (locking_returns (s := { s with check := .locking y }) rfl hmutex ⟨soc, hsoc, hfd⟩)
  | locking y =>
    have hmutex := ho.lock (by simp [hcheck, CheckPc.Holds])
    exact locking_returns hcheck hmutex
      (ho.between y (hne y (.inr (.inl hcheck))) (.inl hcheck))
  | locked y =>
    exact locked_returns hcheck (ho.between y (hne y (.inr (.inr (.inl hcheck)))) (.inr hcheck))
  | selecting y => exact selecting_returns hcheck
  | leaving => exact .head rfl (unlock_step hcheck) (.refl _)

/-- The events before it return, and then it reads the freed object. -/
theorem LockSys.Owed.fault (ho : s.Owed x) : ∃ s', LeftAlone s s' ∧ ¬s'.Sound := by
  generalize hqueue : s.queue = queue
  induction queue generalizing s with
  | nil =>
    refine ho.reads (ho.due.resolve_left ?_)
    simp [hqueue]
  | cons y queue ih =>
    by_cases hreads : s.check.Reads x
    · exact ho.reads hreads
    · have hdue := ho.due.resolve_right hreads
      have htake : lockStep { s with check := .returned, mutex := none } .take =
          some { s with check := .entered y, mutex := none, queue } := by
        simp only [lockStep, hqueue]
      have hnext : LockSys.Owed { s with check := .entered y, mutex := none, queue } x := by
        refine ⟨ho.freed, fun _ => rfl, fun z hz hevent => ?_,
          fun z _ hbetween => by simp [CheckPc.Between] at hbetween, ?_⟩
        · refine ho.live z hz ?_
          rcases hevent with h | h | h
          · exact .inl (hqueue ▸ List.mem_cons_of_mem y h)
          · obtain rfl : y = z := by simpa [CheckPc.Reads] using h
            exact .inl (hqueue ▸ List.mem_cons_self ..)
          · exact .inr (.inr h)
        · rw [hqueue] at hdue
          rcases List.mem_cons.mp hdue with rfl | h
          · exact .inr (.inl rfl)
          · exact .inl h
      obtain ⟨s', hleft, hbad⟩ := ih hnext rfl
      exact ⟨s', (ho.returns hreads).trans (.head rfl htake hleft), hbad⟩

/-- An object destroyed too early. -/
theorem LockSys.Inv.destroyed (hi : s.Inv) (hevent : s.EventFor x)
    (hs : lockStep s (.destroy x) = some s') : ∃ s'', LeftAlone s' s'' ∧ ¬s''.Sound := by
  simp only [lockStep] at hs
  split at hs
  · rename_i soc hengine hsoc
    obtain rfl := Option.some.inj hs
    have hkeep : ∀ y, y ≠ x → Function.update s.objects x .freed y = s.objects y :=
      fun y hy => Function.update_of_ne hy ..
    have howed : ∀ (queue : List Nat) (started : Nat → Option Nat),
        (∀ y, y ∈ queue → s.EventFor y) → (∀ t y, started t = some y → s.started t = some y) →
        (x ∈ queue ∨ s.check.Reads x) → LockSys.Owed { s with
          objects := Function.update s.objects x .freed, queue, started } x := by
      intro queue started hqueue hstarted hdue
      refine ⟨Function.update_self .., hi.mutex_none (by simp [hengine]), fun y hy h => ?_,
        fun y hy h => ?_, hdue⟩
      · have hlive : s.Live y := by
          rcases h with h | h | ⟨t, h⟩
          · exact hi.live y (hqueue y h)
          · exact hi.live y (.inr (.inl h))
          · exact hi.live y (.inr (.inr ⟨t, hstarted t y h⟩))
        exact hlive.imp fun soc hsoc => (hkeep y hy).trans hsoc
      · exact (hi.between y h).imp fun soc hsoc => ⟨(hkeep y hy).trans hsoc.1, hsoc.2⟩
    rcases hevent with h | h | ⟨t, ht⟩
    · exact (howed s.queue s.started (fun y hy => .inl hy) (fun _ _ h => h) (.inl h)).fault
    · exact (howed s.queue s.started (fun y hy => .inl hy) (fun _ _ h => h) (.inr h)).fault
    · -- the timer posts an event first
      have hexpire : lockStep { s with objects := Function.update s.objects x .freed }
          (.expire t true) = some { s with
            objects := Function.update s.objects x .freed
            queue := s.queue ++ [x], started := Function.update s.started t none } := by
        simp only [lockStep, ht, LockSys.eventsCall, if_true]
      have hdue := howed (s.queue ++ [x]) (Function.update s.started t none) (fun y hy => ?_)
        (fun t' y h => ?_) (.inl (by simp))
      · obtain ⟨s'', hleft, hbad⟩ := hdue.fault
        exact ⟨s'', .head rfl hexpire hleft, hbad⟩
      · rcases List.mem_append.mp hy with hy | hy
        · exact .inl hy
        · obtain rfl := List.mem_singleton.mp hy
          exact .inr (.inr ⟨t, ht⟩)
      · exact releaseTimer_some (show releaseTimer s.started (some t) t' = some y from h)
  · exact absurd hs (by simp)

/-- **A step that the condition does not admit**: the socket thread alone makes the damage. The
    engine thread has nothing more to do then; the harm is done by steps of the socket thread, and
    by a timer where one is started. -/
theorem LockSys.Inv.broken (hi : s.Inv) {a : LockAct} (hg : ¬LockGuard s a)
    (hs : lockStep s a = some s') : ∃ s'', LeftAlone s' s'' ∧ ¬s''.Sound := by
  cases a with
  | destroy x => exact hi.destroyed (not_not.mp hg) hs
  | socket x fd =>
    simp only [LockGuard, Classical.not_imp, not_not] at hg
    obtain ⟨rfl, hbetween⟩ := hg
    simp only [lockStep] at hs
    split at hs
    · rename_i soc hengine hsoc
      obtain rfl := Option.some.inj hs
      exact lock_kept hbetween (Function.update_self ..) rfl
        (hi.mutex_none (by simp [hengine])) hi.socketHolds.mpr
    · exact absurd hs (by simp)
  | closeUnlock =>
    simp only [LockGuard, not_forall, not_not] at hg
    obtain ⟨x, hengine, hbetween⟩ := hg
    have hmutex : s.mutex = some .engine := hi.engineHolds.mpr ⟨x, hengine⟩
    have hholds : ¬s.check.Holds := fun h => by
      have := hi.socketHolds.mpr h
      simp [hmutex] at this
    simp only [lockStep, hengine] at hs
    split at hs
    · obtain rfl := Option.some.inj hs
      exact lock_kept hbetween (Function.update_self ..) rfl (fun _ => rfl)
        (fun h => absurd h hholds)
    · exact absurd hs (by simp)
  | _ => exact absurd trivial hg

end LeftAlone

/-! ## Every run -/

/-- **The lock is given back and no freed socket is read.** After every run in which no socket is
    closed between the two looks of an event and none is destroyed that an event is still to read;
    and a step is one of these if and only if, with the engine thread doing nothing more, the
    socket thread keeps the property for ever. -/
theorem socket_lock_sound {s : LockSys} (h : ReachableBy LockSys.init lockStep LockGuard s) :
    s.Sound ∧ ∀ a s', lockStep s a = some s' →
      (LockGuard s a ↔ ∀ s'', LeftAlone s' s'' → s''.Sound) := by
  have hi : s.Inv := ReachableBy.invariant LockSys.Inv LockSys.Inv.initial
    (fun hi hg hs => hi.step hg hs) h
  refine ⟨hi.sound, fun a s' hs => ⟨fun hg s'' hleft => ?_, fun hsound => ?_⟩⟩
  · exact ((hi.step hg hs).leftAlone hleft).sound
  · by_contra hg
    obtain ⟨s'', hleft, hbad⟩ := hi.broken hg hs
    exact hbad (hsound s'' hleft)

/-- Nothing has been created yet. -/
def LockSys.empty : LockSys where
  objects _ := .unused
  queue := []
  check := .returned
  engine := .idle
  mutex := none
  started _ := none
  fault := false

theorem LockSys.empty_init : LockSys.empty.init :=
  ⟨fun _ => rfl, rfl, rfl, rfl, rfl, fun _ => rfl, rfl⟩

/-- A socket is connected, read once, closed and, when its events have returned, destroyed. -/
theorem socket_lock_sound_closed :
    ∃ s, runFrom lockStep .empty [.create 0, .socket 0 5, .connected 0 none true, .take,
        .firstTest, .lock, .doubleCheck, .selected 1, .unlock, .recv 0 true, .close 0, .closeLock,
        .closeUnlock, .take, .firstTest, .destroy 0] = some s ∧
      s.objects 0 = .freed ∧ s.Sound := by
  obtain ⟨s, hrun, hfreed⟩ : ∃ s, runFrom lockStep .empty [.create 0, .socket 0 5,
        .connected 0 none true, .take, .firstTest, .lock, .doubleCheck, .selected 1, .unlock,
        .recv 0 true, .close 0, .closeLock, .closeUnlock, .take, .firstTest, .destroy 0] = some s ∧
      s.objects 0 = .freed := ⟨_, rfl, rfl⟩
  have hreach : ReachableBy LockSys.init lockStep LockGuard s := by
    refine ReachableBy.of_runFrom _ (.start LockSys.empty_init) ?_ hrun
    refine ⟨trivial, nofun, trivial, trivial, trivial, trivial, trivial, trivial, trivial, trivial,
      trivial, trivial, ?_, trivial, trivial, ?_, trivial⟩
    · rintro x - (h | h) <;> nomatch h
    · rintro (h | (h | h | h | h) | ⟨t, h⟩)
      all_goals nomatch h
  exact ⟨s, hrun, hfreed, (socket_lock_sound hreach).1⟩

/-- A socket is closed between the two looks of the event that its connection posted: the event
    returns with the lock. And a socket is destroyed with that event queued: it reads freed
    memory. -/
theorem socket_lock_kept_and_freed_read :
    (∃ s, runFrom lockStep .empty [.create 0, .socket 0 5, .connected 0 none true, .take,
        .firstTest, .close 0, .closeLock, .closeUnlock, .lock, .doubleCheck] = some s ∧
      s.check = .returned ∧ s.mutex = some .socket) ∧
    ∃ s, runFrom lockStep .empty [.create 0, .socket 0 5, .connected 0 none true, .close 0,
        .closeLock, .closeUnlock, .destroy 0, .take, .firstTest] = some s ∧ s.fault = true :=
  ⟨⟨_, rfl, rfl, rfl⟩, _, rfl, rfl⟩

end Linux
end LightDuer
