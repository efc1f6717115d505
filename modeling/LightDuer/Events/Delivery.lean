import LightDuer.Events.Queue

/-!
# The event queue delivers once, in order, and does not sleep on work

`QueueInv s q done pending` ties the heap to lists: from the tail, `pre` links the addresses `q`,
oldest message first, and they hold the events `pending`; `done` are the events whose callbacks were
run or which had none. Every step keeps it. Signals are sent by a producer whose message it saw at
the tail, and `awake` says why that suffices: while the worker waits nothing leaves the list, so the
producer of the message at the tail is still to see it there.

## The parts of the invariant

Three groups of facts make each other possible. The list: a chain of distinct addresses that hold
the pending events, with the head at its end. The memory: a message that a producer has made and not
linked yet, and the one that the worker has taken off, are not on the list and are allocated, and no
two producers have made the same; this is what an address that is used again after it was freed
could otherwise break. And the history: the accepted events, in the order of the critical sections,
are those done, the one in hand and those on the list.

## Steps

There is one lemma for each action. Only two of them change the list, and each has a specification
of its critical section as a function on the heap (`linkMessage_spec`, `takeMessage_spec`); for the
others the work is to show that another thread's message was not touched. A run lemma over
`ReachableBy.invariant` then gives all parts of the result at once, since they are all in the
invariant.
-/

set_option autoImplicit false

namespace LightDuer
namespace Events

open Lib

/-- An event with a callback. -/
def hasCallback (e : Event) : Bool := e.callback.isSome

/-- The message the worker has taken off the list. -/
def WorkerPc.message : WorkerPc → Option Nat
  | .got a | .ran a => some a
  | .start | .waiting => none

/-- The event taken off the list whose callback is still to be run. -/
def WorkerPc.inHand (heap : Heap DuerEqMessage) : WorkerPc → List Event
  | .got a => ((heap a).map DuerEqMessage.toEvent).toList
  | _ => []

/-- A producer that has not yet sent the signal it owes for the message at the tail: it is to find
    its own message there, or has found it. A producer that finds another message at the tail sends
    none, and need not, since that message has a producer of its own. -/
def Sys.OwesSignal (s : Sys) (p : Nat) : Prop :=
  s.producers p = .toSignal ∨ ∃ a, s.producers p = .linked a ∧ s.events.tail = some a

structure QueueInv (s : Sys) (q : List Nat) (done pending : List Event) : Prop where
  noFault : s.fault = false
  chain : Chain DuerEqMessage.pre s.heap s.events.tail q
  head : s.events.head = q.getLast?
  nodup : q.Nodup
  contents : q.map (fun a => (s.heap a).map DuerEqMessage.toEvent) = pending.map some
  made : ∀ p a, s.producers p = .made a →
    a ∉ q ∧ s.worker.message ≠ some a ∧ ∃ n, s.heap a = some n ∧ n.pre = none
  made_inj : ∀ p p' a, s.producers p = .made a → s.producers p' = .made a → p = p'
  worker : ∀ a, s.worker.message = some a → a ∉ q ∧ ∃ n, s.heap a = some n
  accepted : s.accepted = done ++ s.worker.inHand s.heap ++ pending
  ran : s.ran = done.filter hasCallback
  awake : s.worker = .waiting → s.events.tail ≠ none → ∃ p, s.OwesSignal p

theorem QueueInv.initial {s : Sys} (h : s.init) : QueueInv s [] [] [] := by
  obtain ⟨hev, hw, hp, hacc, hran, hf⟩ := h
  refine ⟨hf, by rw [hev]; rfl, by rw [hev]; rfl, List.nodup_nil, rfl, ?_, ?_, ?_, ?_, hran, ?_⟩
  · exact fun p a h => absurd ((hp p).symm.trans h) (by simp)
  · exact fun p _ a h => absurd ((hp p).symm.trans h) (by simp)
  · exact fun a h => absurd h (by simp [hw, WorkerPc.message])
  · rw [hacc, hw]
    rfl
  · exact fun h => absurd (hw.symm.trans h) (by simp)

/-! ## The critical sections on the list -/

section Sections

variable {heap : Heap DuerEqMessage} {events : DuerEvents} {q : List Nat}

/-- Linking puts the message behind the newest one and changes no event. -/
theorem linkMessage_spec {a : Nat} {message : DuerEqMessage}
    (hc : Chain DuerEqMessage.pre heap events.tail q) (hhead : events.head = q.getLast?)
    (hnd : q.Nodup) (ha : heap a = some message) (hpre : message.pre = none) (hq : a ∉ q) :
    ∃ heap', linkMessage heap events a = some (heap',
        { head := some a, tail := if events.tail = none then some a else events.tail }) ∧
      Chain DuerEqMessage.pre heap' (if events.tail = none then some a else events.tail)
        (q ++ [a]) ∧
      (∀ b, (heap' b).map DuerEqMessage.toEvent = (heap b).map DuerEqMessage.toEvent) ∧
      (∀ b, b ∉ q → b ≠ a → heap' b = heap b) := by
  rcases List.eq_nil_or_concat' q with rfl | ⟨q, hd, rfl⟩
  · -- the list was empty
    have htail : events.tail = none := hc
    have hhead' : events.head = none := hhead
    refine ⟨Function.update heap a (some { message with next := none }), ?_, ?_, ?_, ?_⟩
    · simp [linkMessage, hhead', htail, ha]
    · rw [if_pos htail]
      exact ⟨rfl, _, Function.update_self .., hpre⟩
    · intro b
      by_cases hb : b = a
      · subst hb
        simp [ha]
      · rw [Function.update_of_ne hb]
    · exact fun b _ hb => Function.update_of_ne hb ..
  · have hhead' : events.head = some hd := by simpa using hhead
    obtain ⟨node, hnode⟩ := hc.live hd (by simp)
    have hne : a ≠ hd := fun h => hq (by simp [h])
    have htail : events.tail ≠ none := fun h => by
      rw [h] at hc
      exact absurd hc.eq_nil (by simp)
    have hread : Function.update heap hd (some { node with pre := some a }) a = some message := by
      rw [Function.update_of_ne hne, ha]
    have hcomm : Function.update (Function.update heap hd (some { node with pre := some a })) a
          (some { message with next := some hd }) =
        Function.update (Function.update heap a (some { message with next := some hd })) hd
          (some { node with pre := some a }) := Function.update_comm hne.symm ..
    refine ⟨Function.update (Function.update heap hd (some { node with pre := some a })) a
      (some { message with next := some hd }), ?_, ?_, ?_, ?_⟩
    · simp only [linkMessage, hhead', hnode, Option.bind_eq_bind, Option.bind_some, hread]
    · rw [if_neg htail, hcomm]
      refine (hc.congr fun b hb => Function.update_of_ne ?_ ..).extend hnd rfl
        (Function.update_self ..) hpre hq
      rintro rfl
      exact hq hb
    · intro b
      by_cases hb : b = a
      · subst hb
        simp [ha]
      · rw [Function.update_of_ne hb]
        by_cases hbd : b = hd
        · subst hbd
          simp [hnode]
        · rw [Function.update_of_ne hbd]
    · intro b hbq hb
      rw [Function.update_of_ne hb, Function.update_of_ne (fun h => hbq (by simp [h]))]

/-- Taking removes the oldest message. -/
theorem takeMessage_spec {a : Nat} (hc : Chain DuerEqMessage.pre heap events.tail q)
    (hhead : events.head = q.getLast?) (htail : events.tail = some a) :
    ∃ rest message, q = a :: rest ∧ heap a = some message ∧
      takeMessage heap events = some (a, { tail := message.pre, head := rest.getLast? }) ∧
      Chain DuerEqMessage.pre heap message.pre rest := by
  rw [htail] at hc
  obtain ⟨message, rest, rfl, hmsg, hrest⟩ := hc.exists_cons
  refine ⟨rest, message, rfl, hmsg, ?_, hrest⟩
  cases rest with
  | nil =>
    have hpre : message.pre = none := hrest
    simp [takeMessage, htail, hmsg, hpre]
  | cons b rest =>
    have hpre : message.pre = some b := hrest.1
    simp [takeMessage, htail, hmsg, hpre, hhead]

end Sections

/-! ## Every step keeps the invariant -/

section Steps

variable {s s' : Sys} {q : List Nat} {done pending : List Event}

/-- The event in hand only depends on the message the worker holds. -/
theorem WorkerPc.inHand_congr {w : WorkerPc} {heap heap' : Heap DuerEqMessage}
    (hh : ∀ a, w.message = some a →
      (heap' a).map DuerEqMessage.toEvent = (heap a).map DuerEqMessage.toEvent) :
    w.inHand heap = w.inHand heap' := by
  cases w with
  | got a => simp only [WorkerPc.inHand, hh a rfl]
  | _ => rfl

/-- A producer at `made` after another one moved on was there before. -/
theorem made_of_update {pcs : Nat → ProducerPc} {p p' a : Nat} {pc : ProducerPc}
    (hpc : ∀ b, pc ≠ .made b) (h : Function.update pcs p pc p' = .made a) :
    pcs p' = .made a := by
  by_cases hp : p' = p
  · rw [hp, Function.update_self] at h
    exact absurd h (hpc a)
  · rwa [Function.update_of_ne hp] at h

/-- A signal owed is still owed after another producer moved on. -/
theorem Sys.OwesSignal.update {p p' : Nat} {pc : ProducerPc} (h : s.OwesSignal p')
    (hp : p' ≠ p) (htail : s'.events.tail = s.events.tail)
    (hpcs : s'.producers = Function.update s.producers p pc) : s'.OwesSignal p' := by
  rw [Sys.OwesSignal, hpcs, htail, Function.update_of_ne hp]
  exact h

theorem QueueInv.make (hi : QueueInv s q done pending) {p a : Nat} {e : Event}
    (hs : step s (.make p a e) = some s') : QueueInv s' q done pending := by
  simp only [step] at hs
  split at hs
  · rename_i hp ha
    obtain rfl := Option.some.inj hs
    -- the address is free, so no list and no thread holds it
    have hlive : ∀ b, (∃ n, s.heap b = some n) → b ≠ a := by
      rintro b ⟨n, hn⟩ rfl
      exact absurd (ha.symm.trans hn) (by simp)
    have hq : ∀ b ∈ q, b ≠ a := fun b hb => hlive b (hi.chain.live b hb)
    have hw : ∀ b, s.worker.message = some b → b ≠ a := fun b hb => hlive b (hi.worker b hb).2
    refine ⟨hi.noFault, ?_, hi.head, hi.nodup, ?_, ?_, ?_, ?_, ?_, hi.ran, ?_⟩
    · exact hi.chain.congr fun b hb => Function.update_of_ne (hq b hb) ..
    · refine (List.map_congr_left fun b hb => ?_).trans hi.contents
      exact congrArg _ (Function.update_of_ne (hq b hb) ..)
    · intro p' b hb
      by_cases hp' : p' = p
      · subst hp'
        obtain rfl : a = b := ProducerPc.made.inj ((Function.update_self ..).symm.trans hb)
        exact ⟨fun h => hq a h rfl, fun h => hw a h rfl, _, Function.update_self .., rfl⟩
      · obtain ⟨h1, h2, n, hn, hpre⟩ :=
          hi.made p' b ((Function.update_of_ne hp' ..).symm.trans hb)
        exact ⟨h1, h2, n, (Function.update_of_ne (hlive b ⟨n, hn⟩) ..).trans hn, hpre⟩
    · intro p₁ p₂ b h₁ h₂
      have hother : ∀ p', p' ≠ p → Function.update s.producers p (.made a) p' = .made b → b ≠ a :=
        fun p' hp' h => by
          obtain ⟨-, -, n, hn, -⟩ := hi.made p' b ((Function.update_of_ne hp' ..).symm.trans h)
          exact hlive b ⟨n, hn⟩
      have hself : ∀ p', p' = p → Function.update s.producers p (.made a) p' = .made b → b = a :=
        fun p' hp' h => by
          subst hp'
          exact (ProducerPc.made.inj ((Function.update_self ..).symm.trans h)).symm
      by_cases hp₁ : p₁ = p
      · by_cases hp₂ : p₂ = p
        · rw [hp₁, hp₂]
        · exact absurd (hself p₁ hp₁ h₁) (hother p₂ hp₂ h₂)
      · by_cases hp₂ : p₂ = p
        · exact absurd (hself p₂ hp₂ h₂) (hother p₁ hp₁ h₁)
        · exact hi.made_inj p₁ p₂ b ((Function.update_of_ne hp₁ ..).symm.trans h₁)
            ((Function.update_of_ne hp₂ ..).symm.trans h₂)
    · intro b hb
      obtain ⟨h1, n, hn⟩ := hi.worker b hb
      exact ⟨h1, n, (Function.update_of_ne (hw b hb) ..).trans hn⟩
    · exact hi.accepted.trans (congrArg (done ++ · ++ pending) (WorkerPc.inHand_congr
        fun b hb => congrArg _ (Function.update_of_ne (hw b hb) ..)))
    · intro hwait htail
      obtain ⟨p', hp'⟩ := hi.awake hwait htail
      refine ⟨p', hp'.update ?_ rfl rfl⟩
      rintro rfl
      simp [Sys.OwesSignal, hp] at hp'
  · exact absurd hs (by simp)

/-- The critical section of a producer: its event is accepted, behind the pending ones. -/
theorem QueueInv.link (hi : QueueInv s q done pending) {p : Nat}
    (hs : step s (.link p) = some s') :
    ∃ a e, s.producers p = .made a ∧ QueueInv s' (q ++ [a]) done (pending ++ [e]) := by
  simp only [step] at hs
  split at hs
  · rename_i a hp
    obtain ⟨hq, hw, message, hmsg, hpre⟩ := hi.made p a hp
    obtain ⟨heap, hlink, hchain, hevents, hframe⟩ :=
      linkMessage_spec hi.chain hi.head hi.nodup hmsg hpre hq
    simp only [hlink, hmsg] at hs
    obtain rfl := Option.some.inj hs
    have hmade : ∀ p' b, Function.update s.producers p (.linked a) p' = .made b →
        p' ≠ p ∧ s.producers p' = .made b := fun p' b h => by
      have hb := made_of_update (by simp) h
      refine ⟨?_, hb⟩
      rintro rfl
      exact absurd ((Function.update_self ..).symm.trans h) (by simp)
    refine ⟨a, message.toEvent, hp, hi.noFault, hchain, by simp, ?_, ?_, ?_, ?_, ?_, ?_, hi.ran, ?_⟩
    · exact List.nodup_append.mpr ⟨hi.nodup, by simp, fun b hb c hc => by
        rintro rfl
        exact hq (List.mem_singleton.mp hc ▸ hb)⟩
    · rw [List.map_append, List.map_append, ← hi.contents]
      refine congrArg₂ _ (List.map_congr_left fun b _ => hevents b) ?_
      simp [hevents a, hmsg]
    · intro p' b hb
      obtain ⟨hne, hb'⟩ := hmade p' b hb
      obtain ⟨h1, h2, n, hn, hpre'⟩ := hi.made p' b hb'
      have hba : b ≠ a := fun h => hne (hi.made_inj p' p a (h ▸ hb') hp)
      refine ⟨?_, h2, n, (hframe b h1 hba).trans hn, hpre'⟩
      simp [h1, hba]
    · exact fun p₁ p₂ b h₁ h₂ =>
        hi.made_inj p₁ p₂ b (hmade p₁ b h₁).2 (hmade p₂ b h₂).2
    · intro b hb
      obtain ⟨h1, n, hn⟩ := hi.worker b hb
      have hba : b ≠ a := fun h => hw (h ▸ hb)
      refine ⟨by simp [h1, hba], n, (hframe b h1 hba).trans hn⟩
    · refine (congrArg (· ++ [message.toEvent]) hi.accepted).trans ?_
      rw [List.append_assoc]
      exact congrArg (done ++ · ++ (pending ++ [message.toEvent]))
        (WorkerPc.inHand_congr fun b _ => hevents b)
    · -- the list was empty, and then this message is at the tail; or the debt is as before
      intro hwait _
      by_cases htail : s.events.tail = none
      · exact ⟨p, .inr ⟨a, Function.update_self .., by simp [htail]⟩⟩
      · obtain ⟨p', hp'⟩ := hi.awake hwait htail
        refine ⟨p', hp'.update ?_ (by simp [htail]) rfl⟩
        rintro rfl
        simp [Sys.OwesSignal, hp] at hp'
  · exact absurd hs (by simp)

theorem QueueInv.test (hi : QueueInv s q done pending) {p : Nat}
    (hs : step s (.test p) = some s') : QueueInv s' q done pending := by
  simp only [step] at hs
  split at hs
  · rename_i a hp
    obtain rfl := Option.some.inj hs
    have hpc : ∀ b, (if s.events.tail = some a then ProducerPc.toSignal else .idle) ≠ .made b := by
      intro b
      split <;> simp
    refine ⟨hi.noFault, hi.chain, hi.head, hi.nodup, hi.contents,
      fun p' b hb => hi.made p' b (made_of_update hpc hb),
      fun p₁ p₂ b h₁ h₂ => hi.made_inj p₁ p₂ b (made_of_update hpc h₁) (made_of_update hpc h₂),
      hi.worker, hi.accepted, hi.ran, fun hwait htail => ?_⟩
    obtain ⟨p', hp'⟩ := hi.awake hwait htail
    by_cases hne : p' = p
    · -- it owes the signal for the message at the tail, which is what it sees there
      subst hne
      rcases hp' with h | ⟨b, hb, htail'⟩
      · exact absurd (hp.symm.trans h) (by simp)
      · obtain rfl := ProducerPc.linked.inj (hp.symm.trans hb)
        refine ⟨p', .inl ((Function.update_self ..).trans ?_)⟩
        rw [if_pos htail']
    · exact ⟨p', hp'.update hne rfl rfl⟩
  · exact absurd hs (by simp)

theorem QueueInv.signal (hi : QueueInv s q done pending) {p : Nat}
    (hs : step s (.signal p) = some s') : QueueInv s' q done pending := by
  simp only [step] at hs
  split at hs
  · rename_i hp
    obtain rfl := Option.some.inj hs
    have hmsg : (if s.worker = .waiting then WorkerPc.start else s.worker).message =
        s.worker.message := by
      split
      · rename_i hw
        rw [hw]
        rfl
      · rfl
    refine ⟨hi.noFault, hi.chain, hi.head, hi.nodup, hi.contents, ?_,
      fun p₁ p₂ b h₁ h₂ => hi.made_inj p₁ p₂ b (made_of_update (by simp) h₁)
        (made_of_update (by simp) h₂), fun b hb => hi.worker b (hmsg ▸ hb), ?_, hi.ran, ?_⟩
    · intro p' b hb
      obtain ⟨h1, h2, h3⟩ := hi.made p' b (made_of_update (by simp) hb)
      exact ⟨h1, hmsg ▸ h2, h3⟩
    · refine hi.accepted.trans (congrArg (done ++ · ++ pending) ?_)
      by_cases hw : s.worker = .waiting
      · simp [WorkerPc.inHand, hw]
      · simp [WorkerPc.inHand, hw]
    · -- the worker does not wait after a signal
      intro hwait
      refine absurd hwait ?_
      by_cases hw : s.worker = .waiting
      · simp [hw]
      · simp [hw]
  · exact absurd hs (by simp)

/-- The critical section of the worker: it waits, or takes the oldest message. -/
theorem QueueInv.take (hi : QueueInv s q done pending) (hs : step s .take = some s') :
    ∃ pending', QueueInv s' q.tail done pending' := by
  simp only [step] at hs
  split at hs
  · rename_i hw htail
    obtain rfl := Option.some.inj hs
    obtain rfl : q = [] := (htail ▸ hi.chain).eq_nil
    refine ⟨pending, hi.noFault, hi.chain, hi.head, hi.nodup, hi.contents, ?_, hi.made_inj,
      fun b hb => absurd hb (by simp [WorkerPc.message]), ?_, hi.ran,
      fun _ h => absurd htail h⟩
    · intro p b hb
      obtain ⟨h1, -, h3⟩ := hi.made p b hb
      exact ⟨h1, by simp [WorkerPc.message], h3⟩
    · refine hi.accepted.trans (congrArg (done ++ · ++ pending) ?_)
      simp [WorkerPc.inHand, hw]
  · rename_i a hw htail
    obtain ⟨rest, message, rfl, hmsg, htake, hrest⟩ := takeMessage_spec hi.chain hi.head htail
    simp only [htake] at hs
    obtain rfl := Option.some.inj hs
    obtain ⟨hnotin, hnd⟩ := List.nodup_cons.mp hi.nodup
    cases pending with
    | nil => exact absurd hi.contents (by simp)
    | cons e pending =>
      have hcont := hi.contents
      rw [List.map_cons, List.map_cons, List.cons.injEq] at hcont
      refine ⟨pending, hi.noFault, hrest, rfl, hnd, hcont.2, ?_, hi.made_inj, ?_, ?_, hi.ran,
        fun h => absurd h (by simp)⟩
      · intro p b hb
        obtain ⟨h1, -, h3⟩ := hi.made p b hb
        refine ⟨fun h => h1 (List.mem_cons_of_mem a h), fun h => h1 ?_, h3⟩
        obtain rfl : a = b := Option.some.inj h
        exact List.mem_cons_self ..
      · intro b hb
        obtain rfl : a = b := Option.some.inj hb
        exact ⟨hnotin, message, hmsg⟩
      · refine hi.accepted.trans ?_
        simp [hw, WorkerPc.inHand, hcont.1]
  · exact absurd hs (by simp)

theorem QueueInv.wake (hi : QueueInv s q done pending) (hs : step s .wake = some s') :
    QueueInv s' q done pending := by
  simp only [step] at hs
  split at hs
  · rename_i hw
    obtain rfl := Option.some.inj hs
    refine ⟨hi.noFault, hi.chain, hi.head, hi.nodup, hi.contents, ?_, hi.made_inj,
      fun b hb => absurd hb (by simp [WorkerPc.message]), ?_, hi.ran,
      fun h => absurd h (by simp)⟩
    · intro p b hb
      obtain ⟨h1, -, h3⟩ := hi.made p b hb
      exact ⟨h1, by simp [WorkerPc.message], h3⟩
    · refine hi.accepted.trans (congrArg (done ++ · ++ pending) ?_)
      simp [WorkerPc.inHand, hw]
  · exact absurd hs (by simp)

/-- Running the callback: the event in hand is done. -/
theorem QueueInv.run (hi : QueueInv s q done pending) (hs : step s .run = some s') :
    ∃ e, QueueInv s' q (done ++ [e]) pending := by
  simp only [step] at hs
  split at hs
  · rename_i a hw
    obtain ⟨hq, message, hmsg⟩ := hi.worker a (by rw [hw]; rfl)
    simp only [hmsg] at hs
    obtain rfl := Option.some.inj hs
    refine ⟨message.toEvent, hi.noFault, hi.chain, hi.head, hi.nodup, hi.contents, ?_, hi.made_inj,
      ?_, ?_, ?_, fun h => absurd h (by simp)⟩
    · intro p b hb
      obtain ⟨h1, h2, h3⟩ := hi.made p b hb
      exact ⟨h1, by simpa [hw, WorkerPc.message] using h2, h3⟩
    · intro b hb
      exact hi.worker b (by simpa [hw, WorkerPc.message] using hb)
    · refine hi.accepted.trans ?_
      simp [hw, hmsg, WorkerPc.inHand]
    · rw [List.filter_append, ← hi.ran]
      by_cases hcb : message.callback.isSome <;> simp [hasCallback, hcb]
  · exact absurd hs (by simp)

theorem QueueInv.free (hi : QueueInv s q done pending) (hs : step s .free = some s') :
    QueueInv s' q done pending := by
  simp only [step] at hs
  split at hs
  · rename_i a hw
    obtain ⟨hq, message, hmsg⟩ := hi.worker a (by rw [hw]; rfl)
    simp only [hmsg] at hs
    obtain rfl := Option.some.inj hs
    have hne : ∀ b ∈ q, b ≠ a := by
      rintro b hb rfl
      exact hq hb
    refine ⟨hi.noFault, hi.chain.congr fun b hb => Function.update_of_ne (hne b hb) .., hi.head,
      hi.nodup, ?_, ?_, hi.made_inj, fun b hb => absurd hb (by simp [WorkerPc.message]), ?_, hi.ran,
      fun h => absurd h (by simp)⟩
    · refine (List.map_congr_left fun b hb => ?_).trans hi.contents
      exact congrArg _ (Function.update_of_ne (hne b hb) ..)
    · intro p b hb
      obtain ⟨h1, h2, n, hn, hpre⟩ := hi.made p b hb
      have hba : b ≠ a := by
        rintro rfl
        exact h2 (by rw [hw]; rfl)
      exact ⟨h1, by simp [WorkerPc.message], n, (Function.update_of_ne hba ..).trans hn, hpre⟩
    · refine hi.accepted.trans (congrArg (done ++ · ++ pending) ?_)
      simp [WorkerPc.inHand, hw]
  · exact absurd hs (by simp)

theorem QueueInv.step (hi : QueueInv s q done pending) {a : Act} (hs : step s a = some s') :
    ∃ q' done' pending', QueueInv s' q' done' pending' := by
  cases a with
  | make p a e => exact ⟨_, _, _, hi.make hs⟩
  | link p =>
    obtain ⟨_, _, -, h⟩ := hi.link hs
    exact ⟨_, _, _, h⟩
  | test p => exact ⟨_, _, _, hi.test hs⟩
  | signal p => exact ⟨_, _, _, hi.signal hs⟩
  | take =>
    obtain ⟨_, h⟩ := hi.take hs
    exact ⟨_, _, _, h⟩
  | wake => exact ⟨_, _, _, hi.wake hs⟩
  | run =>
    obtain ⟨_, h⟩ := hi.run hs
    exact ⟨_, _, _, h⟩
  | free => exact ⟨_, _, _, hi.free hs⟩

end Steps

/-! ## Every run -/

/-- **Each accepted event is delivered once, in order, and the worker does not sleep on work.**
    In every reachable state: nothing freed was used; the events accepted so far, in the order
    of their critical sections, are those done, the one in hand and those on the list; so the
    callbacks run are a prefix of the accepted events that have one; and while the worker waits
    with a message on the list, some producer has still to execute its signal. -/
theorem events_delivered_in_order {s : Sys} (h : Reachable Sys.init step s) :
    s.fault = false ∧
    (∃ q done pending, Chain DuerEqMessage.pre s.heap s.events.tail q ∧
      q.map (fun a => (s.heap a).map DuerEqMessage.toEvent) = pending.map some ∧
      s.accepted = done ++ s.worker.inHand s.heap ++ pending ∧
      s.ran = done.filter hasCallback) ∧
    s.ran <+: s.accepted.filter hasCallback ∧
    (s.worker = .waiting → s.events.tail ≠ none → ∃ p, s.OwesSignal p) := by
  obtain ⟨q, done, pending, hi⟩ : ∃ q done pending, QueueInv s q done pending := by
    refine ReachableBy.invariant (fun s => ∃ q done pending, QueueInv s q done pending)
      (fun hinit => ⟨[], [], [], .initial hinit⟩) ?_ h
    rintro s s' a ⟨q, done, pending, hi⟩ - hs
    exact hi.step hs
  refine ⟨hi.noFault, ⟨q, done, pending, hi.chain, hi.contents, hi.accepted, hi.ran⟩, ?_, hi.awake⟩
  rw [hi.accepted, List.append_assoc, List.filter_append, ← hi.ran]
  exact List.prefix_append ..

/-- The queue with nothing in it and nothing allocated. -/
def Sys.empty : Sys where
  heap := fun _ => none
  events := { head := none, tail := none }
  worker := .start
  producers := fun _ => .idle
  accepted := []
  ran := []
  fault := false

/-- The worker goes to sleep, two producers post, the second before the first has signalled:
    the signal is still owed. -/
theorem events_delivered_in_order_asleep :
    ∃ s, runFrom step .empty [.take, .make 0 7 ⟨some 1, 10, 0⟩, .link 0,
        .make 1 8 ⟨some 1, 11, 0⟩, .link 1, .test 1] = some s ∧
      s.worker = .waiting ∧ s.accepted = [⟨some 1, 10, 0⟩, ⟨some 1, 11, 0⟩] ∧
      ∃ p, s.OwesSignal p := by
  obtain ⟨s, hrun, hw, hacc, htail⟩ : ∃ s, runFrom step .empty [.take,
      .make 0 7 ⟨some 1, 10, 0⟩, .link 0, .make 1 8 ⟨some 1, 11, 0⟩, .link 1, .test 1] = some s ∧
      s.worker = .waiting ∧ s.accepted = [⟨some 1, 10, 0⟩, ⟨some 1, 11, 0⟩] ∧
      s.events.tail = some 7 := ⟨_, rfl, rfl, rfl, rfl⟩
  have hreach : Reachable Sys.init step s :=
    reachable_of_runFrom _ (.start ⟨rfl, rfl, fun _ => rfl, rfl, rfl, rfl⟩) hrun
  exact ⟨s, hrun, hw, hacc, (events_delivered_in_order hreach).2.2.2 hw (by simp [htail])⟩

end Events
end LightDuer
