import LightDuer.Engine.Model
import Mathlib.Data.List.Nodup
import Mathlib.Data.List.Count
import Mathlib.Data.List.Induction

/-!
# Queued messages have a single owner

`duer_engine_send` reads the top of the queue, sends it, releases it and pops the queue in separate
mutex sections, while `duer_engine_clear_data` may run in the socket thread. What happens to
messages is recorded in `Sys.history`, and `Lawful` says what may come after what. It holds in every
run in which the queue is not cleared while the event thread holds a message (`ClearGuard`): then
the message held is still the top, and not yet freed, at each step.

## What is allowed

`Allowed h o` says what may happen behind a history. A message is accepted once. It is passed to the
transport and logged only while it has not been freed, and is freed once. Messages are sent in the
order in which they were accepted, and what the pop behind a successful send takes out of the queue
is the message that was sent last. `SingleOwner` adds that nothing is leaked: each message that was
accepted has been freed once, or is still queued and has not been freed.

## The invariant

`OwnInv s gone` splits the messages accepted into those that have left the queue and those that are
in it. What the event thread holds is the top; only between the release and the pop does the queue
hold a message that was freed, and that is the one held. The code frees a message before it pops it,
hence this exception; the guard keeps the other threads out of it.

A run keeps the invariant step by step, with one lemma for each operation on messages (`push`,
`use`, `sent`, `release`, `pop`, `clear`); all other steps leave messages alone. Where the socket
thread clears the queue under the event thread, a message is passed on after it has been freed.
-/

set_option autoImplicit false

namespace LightDuer
namespace Engine

open Lib

/-! ## Histories -/

/-- The messages accepted, in order. -/
def accepts : List Obs → List Nat
  | [] => []
  | .accept m :: h => m :: accepts h
  | _ :: h => accepts h

/-- The messages sent, in order. -/
def sents : List Obs → List Nat
  | [] => []
  | .sent m :: h => m :: sents h
  | _ :: h => sents h

/-- What may happen after the history `h`: a message is accepted once, passed to the transport
    and logged only while it is not freed, freed once, and sent in the order of acceptance;
    the pop takes the message that was sent last. -/
def Allowed (h : List Obs) : Obs → Prop
  | .accept m => m ∉ accepts h
  | .pass m | .log m => .free m ∉ h
  | .sent m => (sents h ++ [m]).Sublist (accepts h)
  | .free m => .free m ∉ h ∧ m ∈ accepts h
  | .pop x => x ≠ none ∧ x = (sents h).getLast?

/-- Everything in the history was allowed when it happened. -/
def Lawful (h : List Obs) : Prop :=
  ∀ pre o post, h = pre ++ o :: post → Allowed pre o

/-- **A single owner**: the history is lawful, and each message accepted was freed once, or is still
    in the queue and was not freed. The first part says that no message is used after it was freed
    or freed twice, the second that none is forgotten. -/
structure SingleOwner (s : Sys) : Prop where
  lawful : Lawful s.history
  freedOnce : ∀ m ∈ accepts s.history, s.history.count (.free m) = 1 ∨
    (s.history.count (.free m) = 0 ∧ m ∈ s.queue)

section Histories

variable {h : List Obs}

theorem accepts_append (h₁ h₂ : List Obs) : accepts (h₁ ++ h₂) = accepts h₁ ++ accepts h₂ := by
  induction h₁ with
  | nil => rfl
  | cons o h₁ ih => cases o <;> simp [accepts, ih]

theorem sents_append (h₁ h₂ : List Obs) : sents (h₁ ++ h₂) = sents h₁ ++ sents h₂ := by
  induction h₁ with
  | nil => rfl
  | cons o h₁ ih => cases o <;> simp [sents, ih]

@[simp] theorem accepts_map_free (ms : List Nat) : accepts (ms.map .free) = [] := by
  induction ms with
  | nil => rfl
  | cons m ms ih => exact ih

@[simp] theorem sents_map_free (ms : List Nat) : sents (ms.map .free) = [] := by
  induction ms with
  | nil => rfl
  | cons m ms ih => exact ih

theorem Lawful.nil : Lawful [] := fun pre o post heq => absurd heq (by simp)

/-- A history grows lawfully by what is allowed next. -/
theorem Lawful.snoc (hl : Lawful h) {o : Obs} (ho : Allowed h o) : Lawful (h ++ [o]) := by
  intro pre o' post heq
  rcases List.eq_nil_or_concat' post with rfl | ⟨post, last, rfl⟩
  · obtain ⟨rfl, hlast⟩ := List.append_inj' heq rfl
    obtain rfl : o = o' := by simpa using hlast
    exact ho
  · have heq' : h ++ [o] = (pre ++ o' :: post) ++ [last] := by simpa using heq
    exact hl pre o' post (List.append_inj' heq' rfl).1

/-- What was freed had been accepted. -/
theorem Lawful.mem_accepts (hl : Lawful h) {m : Nat} (hm : .free m ∈ h) : m ∈ accepts h := by
  obtain ⟨pre, post, rfl⟩ := List.append_of_mem hm
  rw [accepts_append]
  exact List.mem_append_left _ (hl pre _ post rfl).2

/-- No message is freed twice. -/
theorem Lawful.count_free (hl : Lawful h) {m : Nat} (hm : .free m ∈ h) :
    h.count (.free m) = 1 := by
  induction h using List.reverseRecOn with
  | nil => exact absurd hm (by simp)
  | append_singleton h o ih =>
    have hl' : Lawful h := fun pre o' post heq => hl pre o' (post ++ [o]) (by simp [heq])
    have ho : Allowed h o := hl h o [] rfl
    rw [List.count_append, List.count_singleton]
    by_cases heq : o = .free m
    · subst heq
      simp [List.count_eq_zero_of_not_mem ho.1]
    · have hm' : .free m ∈ h := by simpa [Ne.symm heq] using hm
      simp [ih hl' hm', heq]

/-- Freeing a list of messages, all accepted and none freed before. -/
theorem Lawful.freeAll {ms : List Nat} : ∀ {h : List Obs}, Lawful h → ms.Nodup →
    (∀ m ∈ ms, .free m ∉ h ∧ m ∈ accepts h) → Lawful (h ++ ms.map .free) := by
  induction ms with
  | nil => exact fun hl _ _ => by simpa using hl
  | cons m ms ih =>
    intro h hl hnd hms
    obtain ⟨hm, hnd'⟩ := List.nodup_cons.mp hnd
    have hfirst : Lawful (h ++ [.free m]) := hl.snoc (hms m (by simp))
    have hrest := ih hfirst hnd' fun m' hm' => ?_
    · simpa using hrest
    · obtain ⟨h1, h2⟩ := hms m' (by simp [hm'])
      have hne : m' ≠ m := fun heq => hm (heq ▸ hm')
      exact ⟨by simp [h1, hne], by rw [accepts_append]; exact List.mem_append_left _ h2⟩

end Histories

/-! ## The invariant -/

/-- The message the event thread holds, from its read of the top to its pop. -/
def WorkerPc.message : WorkerPc → Option Nat
  | .holding m | .sent m | .armed m | .logged m | .released m => some m
  | _ => none

/-- The message it has sent and not yet popped. -/
def WorkerPc.sentMessage : WorkerPc → Option Nat
  | .sent m | .armed m | .logged m | .released m => some m
  | _ => none

theorem WorkerPc.noSent {pc : WorkerPc} (h : pc.message = none) :
    pc.sentMessage = none ∧ ∀ m, pc ≠ .released m := by
  cases pc <;> simp_all [WorkerPc.message, WorkerPc.sentMessage]

/-- The condition on the steps of a run: the queue is not cleared while the event thread holds
    a message. -/
def ClearGuard (s : Sys) : Act → Prop
  | .clear => s.worker.message = none
  | _ => True

/-- `gone` are the messages that have left the queue, by a pop or a clear, in the order in which
    they were accepted. With what is still queued they are all there are, so a message is
    accounted for by where it is. `top` is the heart of it: what the event thread holds is what
    it would pop. -/
structure OwnInv (s : Sys) (gone : List Nat) : Prop where
  lawful : Lawful s.history
  accepted : accepts s.history = gone ++ s.queue
  nodup : (gone ++ s.queue).Nodup
  below : ∀ m ∈ gone ++ s.queue, m < s.fresh
  top : ∀ m, s.worker.message = some m → s.queue.head? = some m
  freedGone : ∀ m ∈ gone, .free m ∈ s.history
  freedQueue : ∀ m ∈ s.queue, .free m ∈ s.history ↔ s.worker = .released m
  sentGone : (sents s.history).Sublist (gone ++ s.worker.sentMessage.toList)
  lastSent : ∀ m, s.worker.sentMessage = some m → (sents s.history).getLast? = some m

/-- Nothing that concerns messages differs. -/
structure SameMessages (s s' : Sys) : Prop where
  history : s'.history = s.history
  queue : s'.queue = s.queue
  fresh : s'.fresh = s.fresh
  worker : s'.worker = s.worker

section Steps

variable {s s' : Sys} {gone : List Nat}

theorem OwnInv.initial (h : s.init) : OwnInv s [] := by
  obtain ⟨-, hq, -, -, hw, -, -, -, -, -, hh⟩ := h
  refine ⟨hh ▸ Lawful.nil, by simp [hh, hq, accepts], by simp [hq], by simp [hq], ?_, by simp,
    by simp [hq], by simp [hh, sents], ?_⟩
  · exact fun m hm => absurd hm (by simp [hw, WorkerPc.message])
  · exact fun m hm => absurd hm (by simp [hw, WorkerPc.sentMessage])

theorem OwnInv.same (hi : OwnInv s gone) (h : SameMessages s s') : OwnInv s' gone := by
  obtain ⟨hh, hq, hf, hw⟩ := h
  obtain ⟨h1, h2, h3, h4, h5, h6, h7, h8, h9⟩ := hi
  constructor <;> simpa only [hh, hq, hf, hw]

/-- The event thread takes an event. -/
theorem OwnInv.dropEvent (hi : OwnInv s gone) :
    OwnInv ({ s with events := s.events.tail } : Sys) gone := hi.same ⟨rfl, rfl, rfl, rfl⟩

theorem SameMessages.setCaller (t : Thread) (pc : CallerPc) :
    SameMessages s (s.setCaller t pc) := ⟨rfl, rfl, rfl, rfl⟩

theorem SameMessages.post (e : Ev) (ok : Bool) : SameMessages s (s.post e ok) := by
  cases ok <;> exact ⟨rfl, rfl, rfl, rfl⟩

theorem SameWork.messages (h : SameWork s s') : SameMessages s s' :=
  ⟨h.history, h.queue, h.fresh, h.worker⟩

theorem SameMessages.trans {s'' : Sys} (h : SameMessages s s') (h' : SameMessages s' s'') :
    SameMessages s s'' :=
  ⟨h'.history.trans h.history, h'.queue.trans h.queue, h'.fresh.trans h.fresh,
    h'.worker.trans h.worker⟩

/-- The event thread moves on and nothing happens to a message. -/
theorem OwnInv.move (hi : OwnInv s gone) (hh : s'.history = s.history) (hq : s'.queue = s.queue)
    (hf : s'.fresh = s.fresh)
    (hm : ∀ m, s'.worker.message = some m → s.queue.head? = some m)
    (hs : s'.worker.sentMessage = s.worker.sentMessage)
    (hr : ∀ m, s'.worker = .released m ↔ s.worker = .released m) : OwnInv s' gone := by
  obtain ⟨h1, h2, h3, h4, h5, h6, h7, h8, h9⟩ := hi
  refine ⟨hh ▸ h1, by rw [hh, hq, h2], hq ▸ h3, by rw [hq, hf]; exact h4, fun m h => by
    rw [hq]; exact hm m h, by rw [hh]; exact h6, ?_, by rw [hh, hs]; exact h8,
    by rw [hh, hs]; exact h9⟩
  intro m hmem
  rw [hh, hr]
  exact h7 m (hq ▸ hmem)

/-- A report or a response puts a new message behind the others. -/
theorem OwnInv.push (hi : OwnInv s gone) : OwnInv s.push gone := by
  have hnew : s.fresh ∉ gone ++ s.queue := fun h => Nat.lt_irrefl _ (hi.below _ h)
  have hfree : .free s.fresh ∉ s.history := fun h =>
    hnew (hi.accepted ▸ hi.lawful.mem_accepts h)
  have hacc : accepts s.push.history = gone ++ s.push.queue := by
    simp [Sys.push, accepts_append, accepts, hi.accepted]
  have hsent : sents s.push.history = sents s.history := by
    simp [Sys.push, sents_append, sents]
  refine ⟨hi.lawful.snoc ?_, hacc, ?_, ?_, ?_, ?_, ?_, hsent ▸ hi.sentGone, hsent ▸ hi.lastSent⟩
  · show s.fresh ∉ accepts s.history
    rw [hi.accepted]
    exact hnew
  · simp only [Sys.push, ← List.append_assoc]
    exact List.nodup_append.mpr ⟨hi.nodup, by simp, fun a ha b hb => by
      rintro rfl
      exact hnew (List.mem_singleton.mp hb ▸ ha)⟩
  · intro m hm
    simp only [Sys.push, ← List.append_assoc, List.mem_append, List.mem_singleton] at hm ⊢
    rcases hm with hm | rfl
    · exact Nat.lt_succ_of_lt (hi.below m (List.mem_append.mpr hm))
    · exact Nat.lt_succ_self _
  · intro m hm
    have htop := hi.top m hm
    simp [Sys.push, List.head?_append, htop]
  · exact fun m hm => List.mem_append_left _ (hi.freedGone m hm)
  · intro m hm
    simp only [Sys.push, List.mem_append, List.mem_singleton, reduceCtorEq, or_false] at hm ⊢
    rcases hm with hm | rfl
    · exact hi.freedQueue m hm
    · refine ⟨fun h => absurd h hfree, fun h => ?_⟩
      have htop := hi.top s.fresh (by rw [h]; rfl)
      exact absurd (List.mem_append_right gone (List.mem_of_head? htop)) hnew

theorem OwnInv.mem_queue (hi : OwnInv s gone) {m : Nat} (hm : s.worker.message = some m) :
    m ∈ s.queue := List.mem_of_head? (hi.top m hm)

/-- The message held is not freed before its release. -/
theorem OwnInv.not_freed (hi : OwnInv s gone) {m : Nat} (hm : s.worker.message = some m)
    (hw : s.worker ≠ .released m) : .free m ∉ s.history :=
  fun h => hw ((hi.freedQueue m (hi.mem_queue hm)).mp h)

/-- Passing the message held to the transport, or logging it. -/
theorem OwnInv.use (hi : OwnInv s gone) {m : Nat} (hm : s.worker.message = some m)
    (hw : s.worker ≠ .released m) {o : Obs} (ho : o = .pass m ∨ o = .log m) :
    OwnInv { s with history := s.history ++ [o] } gone := by
  have hallowed : Allowed s.history o := by
    rcases ho with rfl | rfl <;> exact hi.not_freed hm hw
  have hacc : accepts (s.history ++ [o]) = accepts s.history := by
    rcases ho with rfl | rfl <;> simp [accepts_append, accepts]
  have hsent : sents (s.history ++ [o]) = sents s.history := by
    rcases ho with rfl | rfl <;> simp [sents_append, sents]
  have hfree : ∀ m', .free m' ∈ s.history ++ [o] ↔ .free m' ∈ s.history := by
    rcases ho with rfl | rfl <;> simp
  refine ⟨hi.lawful.snoc hallowed, hacc.trans hi.accepted, hi.nodup, hi.below, hi.top,
    fun m' hm' => (hfree m').mpr (hi.freedGone m' hm'),
    fun m' hm' => (hfree m').trans (hi.freedQueue m' hm'), ?_, ?_⟩
  · rw [hsent]
    exact hi.sentGone
  · rw [hsent]
    exact hi.lastSent

/-- The transport accepted the message held. -/
theorem OwnInv.sent (hi : OwnInv s gone) {m : Nat} (hw : s.worker = .holding m) :
    OwnInv { s with worker := .sent m, history := s.history ++ [.sent m] } gone := by
  have htop := hi.top m (by rw [hw]; rfl)
  obtain ⟨rest, hrest⟩ := List.head?_eq_some_iff.mp htop
  have hgone : (sents s.history).Sublist gone := by
    simpa [hw, WorkerPc.sentMessage] using hi.sentGone
  have hallowed : Allowed s.history (.sent m) := by
    show (sents s.history ++ [m]).Sublist (accepts s.history)
    have hsplit : accepts s.history = gone ++ [m] ++ rest := by simp [hi.accepted, hrest]
    rw [hsplit]
    exact (hgone.append (List.Sublist.refl [m])).trans (List.sublist_append_left ..)
  have hacc : accepts (s.history ++ [.sent m]) = accepts s.history := by
    simp [accepts_append, accepts]
  have hsent : sents (s.history ++ [.sent m]) = sents s.history ++ [m] := by
    simp [sents_append, sents]
  refine ⟨hi.lawful.snoc hallowed, hacc.trans hi.accepted, hi.nodup, hi.below, ?_,
    fun m' hm' => List.mem_append_left _ (hi.freedGone m' hm'), ?_, ?_, ?_⟩
  · intro m' hm'
    obtain rfl : m = m' := Option.some.inj hm'
    exact htop
  · intro m' hm'
    have hold := hi.freedQueue m' hm'
    simpa [hw] using hold
  · rw [hsent]
    exact hgone.append (List.Sublist.refl _)
  · intro m' hm'
    obtain rfl : m = m' := Option.some.inj hm'
    rw [hsent, List.getLast?_append, List.getLast?_singleton, Option.some_or]

/-- The release of the message sent. -/
theorem OwnInv.release (hi : OwnInv s gone) {m : Nat} (hw : s.worker = .logged m) :
    OwnInv { s with worker := .released m, history := s.history ++ [.free m] } gone := by
  have hmsg : s.worker.message = some m := by rw [hw]; rfl
  have hallowed : Allowed s.history (.free m) := by
    refine ⟨hi.not_freed hmsg (by simp [hw]), ?_⟩
    rw [hi.accepted]
    exact List.mem_append_right _ (hi.mem_queue hmsg)
  have hacc : accepts (s.history ++ [.free m]) = accepts s.history := by
    simp [accepts_append, accepts]
  have hsent : sents (s.history ++ [.free m]) = sents s.history := by
    simp [sents_append, sents]
  refine ⟨hi.lawful.snoc hallowed, hacc.trans hi.accepted, hi.nodup, hi.below, ?_,
    fun m' hm' => List.mem_append_left _ (hi.freedGone m' hm'), ?_, ?_, ?_⟩
  · intro m' hm'
    obtain rfl : m = m' := Option.some.inj hm'
    exact hi.top m hmsg
  · intro m' hm'
    have hold := hi.freedQueue m' hm'
    rw [hw] at hold
    have hnot : .free m' ∉ s.history := fun h => absurd (hold.mp h) (by simp)
    simp [hnot, eq_comm]
  · rw [hsent]
    simpa [hw, WorkerPc.sentMessage] using hi.sentGone
  · intro m' hm'
    rw [hsent]
    exact hi.lastSent m' (by rw [hw]; exact hm')

/-- The pop after it. -/
theorem OwnInv.pop (hi : OwnInv s gone) {m : Nat} (hw : s.worker = .released m) :
    OwnInv { s with
      worker := .notify .ok, queue := s.queue.tail
      history := s.history ++ [.pop s.queue.head?] } (gone ++ [m]) := by
  have htop := hi.top m (by rw [hw]; rfl)
  obtain ⟨rest, hrest⟩ := List.head?_eq_some_iff.mp htop
  have hallowed : Allowed s.history (.pop s.queue.head?) := by
    refine ⟨by simp [htop], ?_⟩
    rw [htop, hi.lastSent m (by rw [hw]; rfl)]
  have hsplit : gone ++ [m] ++ s.queue.tail = gone ++ s.queue := by simp [hrest]
  have hacc : accepts (s.history ++ [.pop s.queue.head?]) = accepts s.history := by
    simp [accepts_append, accepts]
  have hsent : sents (s.history ++ [.pop s.queue.head?]) = sents s.history := by
    simp [sents_append, sents]
  have hfree : ∀ m', .free m' ∈ s.history ++ [.pop s.queue.head?] ↔ .free m' ∈ s.history := by
    simp
  have hmem : m ∈ s.queue := by simp [hrest]
  have hnotin : m ∉ rest := by
    have hnd := (List.nodup_append.mp hi.nodup).2.1
    rw [hrest] at hnd
    exact (List.nodup_cons.mp hnd).1
  refine ⟨hi.lawful.snoc hallowed, by rw [hacc, hi.accepted, hsplit],
    by rw [hsplit]; exact hi.nodup, by rw [hsplit]; exact hi.below,
    fun m' hm' => absurd hm' (by simp [WorkerPc.message]), ?_, ?_, ?_,
    fun m' hm' => absurd hm' (by simp [WorkerPc.sentMessage])⟩
  · intro m' hm'
    rw [hfree]
    rcases List.mem_append.mp hm' with hm' | hm'
    · exact hi.freedGone m' hm'
    · obtain rfl := List.mem_singleton.mp hm'
      exact (hi.freedQueue m' hmem).mpr hw
  · intro m' hm'
    have hm'' : m' ∈ rest := by simpa [hrest] using hm'
    rw [hfree]
    refine ⟨fun h => ?_, fun h => absurd h (by simp)⟩
    have heq := (hi.freedQueue m' (by simp [hrest, hm''])).mp h
    obtain rfl : m = m' := WorkerPc.released.inj (hw.symm.trans heq)
    exact absurd hm'' hnotin
  · rw [hsent]
    simpa [hw, WorkerPc.sentMessage] using hi.sentGone

/-- Clearing the queue while the event thread holds no message. -/
theorem OwnInv.clear (hi : OwnInv s gone) (hw : s.worker.message = none) :
    OwnInv (duerEngineClearData s) (gone ++ s.queue) := by
  have hrel : ∀ m, s.worker ≠ .released m := fun m h =>
    absurd hw (by rw [h]; simp [WorkerPc.message])
  have hsm : s.worker.sentMessage = none := by
    cases hpc : s.worker <;> simp_all [WorkerPc.message, WorkerPc.sentMessage]
  have hqueue : ∀ m ∈ s.queue, .free m ∉ s.history := fun m hm h =>
    hrel m ((hi.freedQueue m hm).mp h)
  have hacc : accepts (s.history ++ s.queue.map .free) = accepts s.history := by
    simp [accepts_append]
  have hsent : sents (s.history ++ s.queue.map .free) = sents s.history := by
    simp [sents_append]
  refine ⟨hi.lawful.freeAll (List.nodup_append.mp hi.nodup).2.1 fun m hm => ⟨hqueue m hm, ?_⟩,
    ?_, ?_, ?_, ?_, ?_, ?_, ?_, ?_⟩
  · rw [hi.accepted]
    exact List.mem_append_right _ hm
  · simpa [duerEngineClearData] using hacc.trans hi.accepted
  · simpa [duerEngineClearData] using hi.nodup
  · simpa [duerEngineClearData] using hi.below
  · exact fun m hm => absurd (hw.symm.trans hm) (by simp)
  · intro m hm
    rcases List.mem_append.mp hm with hm | hm
    · exact List.mem_append_left _ (hi.freedGone m hm)
    · exact List.mem_append_right _ (List.mem_map_of_mem hm)
  · exact fun m hm => absurd hm (by simp [duerEngineClearData])
  · have hgone : (sents s.history).Sublist gone := by simpa [hsm] using hi.sentGone
    show (sents (s.history ++ s.queue.map .free)).Sublist _
    rw [hsent]
    exact (hgone.trans (List.sublist_append_left ..)).trans (List.sublist_append_left ..)
  · exact fun m hm => absurd (hsm.symm.trans hm) (by simp)

end Steps

/-! ## Steps, by the thread that takes them -/

section Threads

variable {s : Sys} {gone : List Nat} {a : Act}

/-- A step of the event thread that leaves it without a message. -/
theorem OwnInv.leave {s' : Sys} (hi : OwnInv s gone) (h₁ : s'.history = s.history)
    (h₂ : s'.queue = s.queue) (h₃ : s'.fresh = s.fresh) (hold : s.worker.sentMessage = none)
    (hnew : s'.worker.message = none) : OwnInv s' gone := by
  obtain ⟨hn₁, hn₂⟩ := WorkerPc.noSent hnew
  refine hi.move h₁ h₂ h₃ (fun m hm => absurd (hnew.symm.trans hm) (by simp))
    (hn₁.trans hold.symm) fun m => ⟨fun h => absurd h (hn₂ m), fun h => ?_⟩
  exact absurd hold (by rw [h]; simp [WorkerPc.sentMessage])

/-- Callers push messages, and take none. -/
theorem OwnInv.next_caller (hi : OwnInv s gone) (ha : a.ofCaller = true) :
    ∃ gone', OwnInv (Engine.next s a) gone' := by
  cases a with
  | report n ok | response n ok =>
    cases ok with
    | true => exact ⟨gone, hi.push.same (.setCaller ..)⟩
    | false => exact ⟨gone, hi⟩
  | readLength t => exact ⟨gone, hi.same (.setCaller ..)⟩
  | postSend t ok => exact ⟨gone, hi.same ((SameMessages.post ..).trans (.setCaller ..))⟩
  | apiStart ok | apiStartEmpty ok | apiStop ok | recvRdy ok => exact ⟨gone, hi.same (.post ..)⟩
  | fire => exact ⟨gone, hi.same ⟨rfl, rfl, rfl, rfl⟩⟩
  | checkStarted => exact ⟨gone, hi.same (.setCaller ..)⟩
  | reportAlive ok =>
    cases ok with
    | true => exact ⟨gone, hi.push.same (.setCaller ..)⟩
    | false => exact ⟨gone, hi.same (.setCaller ..)⟩
  | postRestart ok => exact ⟨gone, hi.same ((SameMessages.post ..).trans (.setCaller ..))⟩
  | _ => exact absurd ha Bool.false_ne_true

theorem OwnInv.next_connection (hi : OwnInv s gone) (ha : a.ofConnection = true) :
    ∃ gone', OwnInv (Engine.next s a) gone' := by
  cases a with
  | start profile rs =>
    exact ⟨gone, hi.dropEvent.same (SameWork.duerEngineStart _ profile rs).messages⟩
  | dataAvailable rs =>
    exact ⟨gone, hi.dropEvent.same (SameWork.duerEngineDataAvailable _ rs).messages⟩
  | stop => exact ⟨gone, hi.dropEvent.same (SameWork.duerEngineStop _).messages⟩
  | _ => exact absurd ha Bool.false_ne_true

/-- The message at the top goes to the transport; it is the event thread's only once it is sent. -/
theorem OwnInv.sendData (hi : OwnInv s gone) {m : Nat} {status : SendStatus}
    (hpc : s.worker = .holding m) : OwnInv (Engine.next s (.sendData m status)) gone := by
  have hpass : OwnInv { s with history := s.history ++ [.pass m] } gone :=
    hi.use (by rw [hpc]; rfl) (by simp [hpc]) (.inl rfl)
  have hleave {s' : Sys} (h₁ : s'.history = s.history ++ [.pass m]) (h₂ : s'.queue = s.queue)
      (h₃ : s'.fresh = s.fresh) (st : SendStatus) (h₄ : s'.worker = .notify st) :
      OwnInv s' gone :=
    hpass.move h₁ h₂ h₃ (fun m' hm' => absurd hm' (by simp [h₄, WorkerPc.message]))
      (by simp [h₄, hpc, WorkerPc.sentMessage]) (by simp [h₄, hpc])
  cases status with
  | ok =>
    have hsent := hpass.sent hpc
    simpa [Engine.next] using hsent
  | wouldBlock => exact hleave rfl rfl rfl .wouldBlock rfl
  | failed => exact hleave rfl rfl rfl .failed rfl

theorem OwnInv.next_send (hi : OwnInv s gone) (ha : a.ofSend = true) (he : Enabled s a) :
    ∃ gone', OwnInv (Engine.next s a) gone' := by
  cases a with
  | take => exact ⟨gone, hi.leave rfl rfl rfl (by rw [he.1]; rfl) rfl⟩
  | checkStopped =>
    have hpc : s.worker = .entered := he
    refine ⟨gone, hi.leave rfl rfl rfl (by rw [hpc]; rfl) ?_⟩
    simp only [Engine.next]
    split <;> rfl
  | stopTimer =>
    have hpc : s.worker = .stopTimer := he
    exact ⟨gone, hi.leave rfl rfl rfl (by rw [hpc]; rfl) rfl⟩
  | readTop =>
    have hpc : s.worker = .top := he
    cases hq : s.queue.head? with
    | none =>
      refine ⟨gone, hi.leave rfl rfl rfl (by rw [hpc]; rfl) ?_⟩
      simp only [Engine.next, hq, WorkerPc.message]
    | some m =>
      refine ⟨gone, hi.move rfl rfl rfl ?_ ?_ ?_⟩
      · intro m' hm'
        simp only [Engine.next, hq, WorkerPc.message] at hm'
        rw [hq]
        exact hm'
      · simp only [Engine.next, hq, hpc, WorkerPc.sentMessage]
      · simp [Engine.next, hq, hpc]
  | sendData m status => exact ⟨gone, hi.sendData he.1⟩
  | startTimer m =>
    have hpc : s.worker = .sent m := he
    refine ⟨gone, hi.move rfl rfl rfl (fun m' hm' => ?_) (by rw [hpc]; rfl)
      (by simp [Engine.next, hpc])⟩
    exact hi.top m' (by rw [hpc]; exact hm')
  | log m =>
    have hpc : s.worker = .armed m := he
    have huse : OwnInv { s with history := s.history ++ [.log m] } gone :=
      hi.use (by rw [hpc]; rfl) (by simp [hpc]) (.inr rfl)
    refine ⟨gone, huse.move rfl rfl rfl (fun m' hm' => ?_)
      (by simp [Engine.next, hpc, WorkerPc.sentMessage]) (by simp [Engine.next, hpc])⟩
    exact hi.top m' (by rw [hpc]; exact hm')
  | release m => exact ⟨gone, hi.release he⟩
  | pop m => exact ⟨gone ++ [m], hi.pop he⟩
  | notify status =>
    have hpc : s.worker = .notify status := he
    have hold : s.worker.sentMessage = none := by rw [hpc]; rfl
    cases status with
    | ok =>
      refine ⟨gone, hi.leave rfl rfl rfl hold ?_⟩
      simp only [Engine.next]
      split <;> rfl
    | wouldBlock => exact ⟨gone, hi.leave rfl rfl rfl hold rfl⟩
    | failed =>
      obtain ⟨hh, hq, hf, -⟩ := (SameWork.duerEngineStop s).messages
      exact ⟨gone, hi.leave hh hq hf hold rfl⟩
  | repost ok =>
    have hpc : s.worker = .post := he
    obtain ⟨hh, hq, hf, -⟩ := SameMessages.post (s := s) .send ok
    exact ⟨gone, hi.leave hh hq hf (by rw [hpc]; rfl) rfl⟩
  | _ => exact absurd ha Bool.false_ne_true

theorem OwnInv.next_socket (hi : OwnInv s gone) (ha : a.ofSocket = true) (hg : ClearGuard s a) :
    ∃ gone', OwnInv (Engine.next s a) gone' := by
  cases a with
  | sendRdy | rdyStarted | rdyDone => exact ⟨gone, hi.same ⟨rfl, rfl, rfl, rfl⟩⟩
  | rdyPost ok => exact ⟨gone, hi.same (.trans (.post ..) ⟨rfl, rfl, rfl, rfl⟩)⟩
  | sendTimeout =>
    exact ⟨gone, hi.same (.trans (SameWork.duerEngineStop s).messages ⟨rfl, rfl, rfl, rfl⟩)⟩
  | clear =>
    have hclear := hi.clear hg
    exact ⟨gone ++ s.queue, hclear.same ⟨rfl, rfl, rfl, rfl⟩⟩
  | _ => exact absurd ha Bool.false_ne_true

/-- **Every step that meets the guard keeps the invariant.** What has left the queue may be more
    than before, which is why the list is existential. -/
theorem OwnInv.next (hi : OwnInv s gone) (hg : ClearGuard s a) (he : Enabled s a) :
    ∃ gone', OwnInv (Engine.next s a) gone' := by
  rcases a.threads with ha | ha | ha | ha
  · exact hi.next_caller ha
  · exact hi.next_connection ha
  · exact hi.next_send ha he
  · exact hi.next_socket ha hg

end Threads

/-- The invariant settles who owns each message. -/
theorem OwnInv.singleOwner {s : Sys} {gone : List Nat} (hi : OwnInv s gone) : SingleOwner s := by
  refine ⟨hi.lawful, fun m hm => ?_⟩
  by_cases hfree : .free m ∈ s.history
  · exact .inl (hi.lawful.count_free hfree)
  · refine .inr ⟨List.count_eq_zero_of_not_mem hfree, ?_⟩
    rw [hi.accepted] at hm
    exact (List.mem_append.mp hm).resolve_left fun h => hfree (hi.freedGone m h)

/-! ## Runs -/

/-- **A single owner, unless the queue is cleared under the event thread.** In every run in
    which `duer_engine_clear_data` never runs while the event thread holds a message, every
    state reached has a lawful history, and each message accepted is freed once or still
    queued. -/
theorem single_owner {s : Sys} (h : ReachableBy Sys.init step ClearGuard s) : SingleOwner s := by
  have hinv : ∃ gone, OwnInv s gone := by
    refine ReachableBy.invariant (fun s => ∃ gone, OwnInv s gone) (fun hs => ⟨[], .initial hs⟩)
      ?_ h
    intro s s' a ⟨gone, hi⟩ hg hs
    obtain ⟨he, rfl⟩ := step_eq_some.mp hs
    exact hi.next hg he
  obtain ⟨gone, hi⟩ := hinv
  exact hi.singleOwner

/-- A response on a started connection, sent, released and popped. -/
theorem single_owner_response :
    ∃ s, ReachableBy Sys.init step ClearGuard s ∧ SingleOwner s ∧
      s.history = [.accept 0, .pass 0, .sent 0, .log 0, .free 0, .pop (some 0)] := by
  obtain ⟨s, hrun, hs⟩ : ∃ s, runFrom step .created [.apiStart true, .start true (.ok false),
      .response 0 true, .postSend (.app 0) true, .take, .checkStopped, .stopTimer, .readTop,
      .sendData 0 .ok, .startTimer 0, .log 0, .release 0, .pop 0] = some s ∧
      s.history = [.accept 0, .pass 0, .sent 0, .log 0, .free 0, .pop (some 0)] :=
    ⟨_, rfl, rfl⟩
  have hreach : ReachableBy Sys.init step ClearGuard s :=
    (ReachableBy.start Sys.created_init).of_runFrom _ (admits_of_forall (by simp [ClearGuard]) _)
      hrun
  exact ⟨s, hreach, single_owner hreach, hs⟩

/-- **A message is passed to the transport after it was freed.** The event thread has read
    the top of the queue again when the socket thread, whose blocked first send timed out,
    clears the queue; then the event thread sends it. -/
theorem passed_after_clear :
    ∃ s, Reachable Sys.init step s ∧ ¬ SingleOwner s ∧
      s.history = [.accept 0, .pass 0, .accept 1, .free 0, .free 1, .pass 0] := by
  obtain ⟨s, hrun, hs⟩ : ∃ s, runFrom step .created [.apiStart true, .start true (.ok false),
      .response 0 true, .postSend (.app 0) true, .take, .checkStopped, .stopTimer, .readTop,
      .sendData 0 .wouldBlock, .notify .wouldBlock, .response 1 true, .postSend (.app 1) true,
      .take, .checkStopped, .stopTimer, .readTop, .sendTimeout, .clear, .sendData 0 .failed] =
        some s ∧
      s.history = [.accept 0, .pass 0, .accept 1, .free 0, .free 1, .pass 0] :=
    ⟨_, rfl, rfl⟩
  refine ⟨s, reachable_of_runFrom _ (.start Sys.created_init) hrun, fun hso => ?_, hs⟩
  have hpass := hso.lawful [.accept 0, .pass 0, .accept 1, .free 0, .free 1] (.pass 0) [] hs
  exact hpass (by decide)

end Engine
end LightDuer
