import LightDuer.Events.Delivery

/-!
# The list of pending messages

The list of `lightduer_events.c` is linked both ways: the worker follows `_pre` from the tail, the
loop in `duer_events_destroy` follows `_next` from the head. `duer_events_call` sets both links, and
the worker clears neither: what is left after a removal still has a `_next` into the message that
was taken off, and will be freed, unless nothing is left.

## What is well formed

`ListSys` adds the addresses of the pending messages to the queue, and `WellFormed` says that both
directions visit exactly these, in the two orders, and that the loop of `duer_events_destroy` ends
and frees each of them once. That the worker never notices is no contradiction: it goes by `_pre`
alone, and the results on delivery hold whether the other direction is intact or not.

## The proof

The `_pre` direction is part of `QueueInv` already and is taken from there. For `_next` a removal is
harmless only if the message is the last one, which is a condition on the state before the step
(`TakesLast`: the head is the tail). All other steps of the queue leave the list alone
(`step_frame`), and linking sets a single `_next`, from the new head to the old one.

In the other direction, a removal that leaves messages breaks the list at once: the last of them
still points to the message that was taken off, so the chain from the head does not end where it
should, and the loop goes on into it (`ListSys.Inv.broken`).
-/

set_option autoImplicit false

namespace LightDuer
namespace Events

open Lib

/-- The queue, and the addresses of the pending messages, the oldest one first. -/
structure ListSys where
  sys : Sys
  pending : List Nat

def ListSys.init (s : ListSys) : Prop := s.sys.init ∧ s.pending = []

/-- The messages that are pending after a step: `duer_events_call` adds one, the worker removes the
    one at the tail. -/
def ListSys.after (s : ListSys) : Act → List Nat
  | .link p =>
    match s.sys.producers p with
    | .made a => s.pending ++ [a]
    | _ => s.pending
  | .take =>
    match s.sys.events.tail with
    | some a => s.pending.erase a
    | none => s.pending
  | _ => s.pending

def listStep (s : ListSys) (a : Act) : Option ListSys :=
  (step s.sys a).map fun sys => ⟨sys, s.after a⟩

/-- The loop in `duer_events_destroy`, for at most `n` rounds: the messages it frees, or `none` if
    it has not ended or has used one that is not allocated. -/
def destroyLoop : Nat → Heap DuerEqMessage → Option Nat → Option (List Nat)
  | _, _, none => some []
  | 0, _, some _ => none
  | n + 1, heap, some a =>
    match heap a with
    | none => none
    | some message =>
      (destroyLoop n (Function.update heap a none) message.next).map fun freed => a :: freed

/-- **The list is well formed**: from the head along `_next` as from the tail along `_pre` one
    visits the pending messages, and the loop frees these, each one once. The worker only ever
    follows `_pre`; `_next` is what the destruction of the handler goes by. -/
structure ListSys.WellFormed (s : ListSys) : Prop where
  next : Chain DuerEqMessage.next s.sys.heap s.sys.events.head s.pending.reverse
  pre : Chain DuerEqMessage.pre s.sys.heap s.sys.events.tail s.pending
  once : s.pending.Nodup
  destroyed : ∃ n, destroyLoop n s.sys.heap s.sys.events.head = some s.pending.reverse

/-- The worker takes a message off only where it is the last one. -/
def TakesLast (s : ListSys) : Act → Prop
  | .take => s.sys.events.head = s.sys.events.tail
  | _ => True

/-! ## The two directions -/

/-- A chain of distinct messages is freed from its first one to its last. -/
theorem destroyLoop_chain {heap : Heap DuerEqMessage} {p : Option Nat} {as : List Nat}
    (hc : Chain DuerEqMessage.next heap p as) (hnd : as.Nodup) :
    destroyLoop as.length heap p = some as := by
  induction as generalizing heap p with
  | nil =>
    obtain rfl : p = none := hc
    rfl
  | cons a as ih =>
    obtain ⟨rfl, message, hmsg, hrest⟩ := hc
    obtain ⟨hnot, hnd⟩ := List.nodup_cons.mp hnd
    have hrest' : Chain DuerEqMessage.next (Function.update heap a none) message.next as :=
      hrest.congr fun b hb => Function.update_of_ne (ne_of_mem_of_not_mem hb hnot) ..
    simp only [List.length_cons, destroyLoop, hmsg, ih hrest' hnd, Option.map_some]

/-- Linking a message sets its `_next` and no other one. -/
theorem linkMessage_next {heap heap' : Heap DuerEqMessage} {events events' : DuerEvents} {a : Nat}
    (h : linkMessage heap events a = some (heap', events')) :
    events'.head = some a ∧ (heap' a).map DuerEqMessage.next = some events.head ∧
      ∀ b, b ≠ a → (heap' b).map DuerEqMessage.next = (heap b).map DuerEqMessage.next := by
  unfold linkMessage at h
  cases hhead : events.head with
  | none =>
    simp only [hhead, Option.bind_eq_bind, Option.bind_some] at h
    obtain ⟨message, -, h⟩ := Option.bind_eq_some_iff.mp h
    obtain ⟨rfl, rfl⟩ := Prod.mk.inj (Option.some.inj h)
    refine ⟨rfl, by rw [Function.update_self]; rfl, fun b hb => ?_⟩
    rw [Function.update_of_ne hb]
  | some hd =>
    simp only [hhead, Option.bind_eq_bind, Option.bind_some] at h
    obtain ⟨node, hnode, h⟩ := Option.bind_eq_some_iff.mp h
    obtain ⟨message, -, h⟩ := Option.bind_eq_some_iff.mp h
    obtain ⟨rfl, rfl⟩ := Prod.mk.inj (Option.some.inj h)
    refine ⟨rfl, by rw [Function.update_self]; rfl, fun b hb => ?_⟩
    rw [Function.update_of_ne hb]
    -- the old head gets a `_pre`
    by_cases hbd : b = hd
    · subst hbd
      rw [Function.update_self, hnode]
      rfl
    · rw [Function.update_of_ne hbd]

/-- Taking a message off changes no message. -/
theorem step_take_heap {s s' : Sys} (hs : step s .take = some s') : s'.heap = s.heap := by
  simp only [step] at hs
  split at hs
  · rw [← Option.some.inj hs]
  · split at hs <;> rw [← Option.some.inj hs]
  · exact absurd hs (by simp)

/-! ## Every step -/

section Queue

variable {s s' : Sys} {q : List Nat} {done pending : List Event}

/-- One message at most is pending where the head is the tail. -/
theorem QueueInv.head_eq_tail_iff (hq : QueueInv s q done pending) :
    s.events.head = s.events.tail ↔ q.tail = [] := by
  have hhead := hq.head
  have hchain := hq.chain
  have hnd := hq.nodup
  cases q with
  | nil =>
    have htail : s.events.tail = none := hchain
    simp [hhead, htail]
  | cons a rest =>
    have htail : s.events.tail = some a := hchain.1
    rw [hhead, htail, List.tail_cons]
    constructor
    · intro hlast
      by_contra hne
      -- the newest message would be the oldest one too
      rw [← List.singleton_append, List.getLast?_append_of_ne_nil _ hne] at hlast
      exact (List.nodup_cons.mp hnd).1 (List.mem_of_getLast? hlast)
    · rintro rfl
      rfl

/-- The steps outside of the critical sections leave the list and its messages. -/
theorem step_frame (hq : QueueInv s q done pending) {a : Act} (hlink : ∀ p, a ≠ .link p)
    (htake : a ≠ .take) (hs : step s a = some s') :
    s'.events = s.events ∧ (∀ b ∈ q, s'.heap b = s.heap b) ∧
      ∃ done' pending', QueueInv s' q done' pending' := by
  cases a with
  | link p => exact absurd rfl (hlink p)
  | take => exact absurd rfl htake
  | make p a e =>
    have hq' := hq.make hs
    simp only [step] at hs
    split at hs
    · rename_i ha
      obtain rfl := Option.some.inj hs
      refine ⟨rfl, fun b hb => Function.update_of_ne ?_ .., _, _, hq'⟩
      -- the address is free
      rintro rfl
      obtain ⟨message, hmsg⟩ := hq.chain.live b hb
      exact absurd (ha.symm.trans hmsg) (by simp)
    · exact absurd hs (by simp)
  | test p =>
    have hq' := hq.test hs
    simp only [step] at hs
    split at hs
    · obtain rfl := Option.some.inj hs
      exact ⟨rfl, fun _ _ => rfl, _, _, hq'⟩
    · exact absurd hs (by simp)
  | signal p =>
    have hq' := hq.signal hs
    simp only [step] at hs
    split at hs
    · obtain rfl := Option.some.inj hs
      exact ⟨rfl, fun _ _ => rfl, _, _, hq'⟩
    · exact absurd hs (by simp)
  | wake =>
    have hq' := hq.wake hs
    simp only [step] at hs
    split at hs
    · obtain rfl := Option.some.inj hs
      exact ⟨rfl, fun _ _ => rfl, _, _, hq'⟩
    · exact absurd hs (by simp)
  | run =>
    obtain ⟨e, hq'⟩ := hq.run hs
    simp only [step] at hs
    split at hs
    · split at hs
      · obtain rfl := Option.some.inj hs
        exact ⟨rfl, fun _ _ => rfl, _, _, hq'⟩
      · obtain rfl := Option.some.inj hs
        exact ⟨rfl, fun _ _ => rfl, _, _, hq'⟩
    · exact absurd hs (by simp)
  | free =>
    have hq' := hq.free hs
    simp only [step] at hs
    split at hs
    · rename_i a hw
      split at hs
      · obtain rfl := Option.some.inj hs
        refine ⟨rfl, fun b hb => Function.update_of_ne ?_ .., _, _, hq'⟩
        -- the message in hand is off the list
        rintro rfl
        exact (hq.worker b (by rw [hw]; rfl)).1 hb
      · obtain rfl := Option.some.inj hs
        exact ⟨rfl, fun _ _ => rfl, _, _, hq'⟩
    · exact absurd hs (by simp)

end Queue

/-- Both directions, with what the queue needs. -/
structure ListSys.Inv (s : ListSys) : Prop where
  queue : ∃ done pending, QueueInv s.sys s.pending done pending
  next : Chain DuerEqMessage.next s.sys.heap s.sys.events.head s.pending.reverse

theorem ListSys.Inv.initial {s : ListSys} (h : s.init) : s.Inv := by
  obtain ⟨hinit, hpending⟩ := h
  have hq := QueueInv.initial hinit
  have hhead : s.sys.events.head = none := hq.head
  refine ⟨⟨[], [], hpending ▸ hq⟩, ?_⟩
  rw [hpending, hhead]
  rfl

section Steps

variable {s s' : ListSys}

theorem ListSys.Inv.wellFormed (h : s.Inv) : s.WellFormed := by
  obtain ⟨done, pending, hq⟩ := h.queue
  have hnd : s.pending.reverse.Nodup := List.nodup_reverse.mpr hq.nodup
  exact ⟨h.next, hq.chain, hq.nodup, _, destroyLoop_chain h.next hnd⟩

/-- The critical section of a producer. -/
theorem ListSys.Inv.link (h : s.Inv) {p : Nat} (hs : listStep s (.link p) = some s') : s'.Inv := by
  obtain ⟨done, pending, hq⟩ := h.queue
  obtain ⟨t, ht, rfl⟩ := Option.map_eq_some_iff.mp hs
  obtain ⟨a, e, hmade, hq'⟩ := hq.link ht
  have hafter : s.after (.link p) = s.pending ++ [a] := by simp only [ListSys.after, hmade]
  refine ⟨⟨done, _, hafter ▸ hq'⟩, ?_⟩
  obtain ⟨hnot, -, message, hmsg, -⟩ := hq.made p a hmade
  simp only [hafter, List.reverse_append, List.reverse_singleton, List.singleton_append]
  simp only [step, hmade, hmsg] at ht
  cases hlink : linkMessage s.sys.heap s.sys.events a with
  | none =>
    simp only [hlink, Option.some.injEq] at ht
    exact absurd (ht ▸ hq'.noFault) (by simp)
  | some result =>
    obtain ⟨heap, events⟩ := result
    simp only [hlink, Option.some.injEq] at ht
    subst ht
    obtain ⟨hhead, hnext, hkeep⟩ := linkMessage_next hlink
    obtain ⟨node, hnode, hlinkeq⟩ := Option.map_eq_some_iff.mp hnext
    refine ⟨hhead, node, hnode, ?_⟩
    rw [hlinkeq]
    refine h.next.of_links fun b hb => hkeep b ?_
    rintro rfl
    exact hnot (List.mem_reverse.mp hb)

/-- What the worker leaves when it takes a message off. -/
theorem ListSys.Inv.took (h : s.Inv) (hs : listStep s .take = some s') :
    (∃ done pending, QueueInv s'.sys s'.pending done pending) ∧ s'.pending = s.pending.tail ∧
      s'.sys.heap = s.sys.heap ∧
      (s.pending.tail ≠ [] → s'.sys.events.head = s.sys.events.head) := by
  obtain ⟨done, pending, hq⟩ := h.queue
  obtain ⟨t, ht, rfl⟩ := Option.map_eq_some_iff.mp hs
  obtain ⟨pending', hq'⟩ := hq.take ht
  have hafter : s.after .take = s.pending.tail := by
    cases htail : s.sys.events.tail with
    | none =>
      have hnil : s.pending = [] := (htail ▸ hq.chain).eq_nil
      simp only [ListSys.after, htail, hnil, List.tail_nil]
    | some a =>
      obtain ⟨message, rest, hpending, -, -⟩ := (htail ▸ hq.chain).exists_cons
      simp only [ListSys.after, htail, hpending, List.erase_cons_head, List.tail_cons]
  refine ⟨⟨done, pending', hafter ▸ hq'⟩, hafter, step_take_heap ht, fun hne => ?_⟩
  rw [hq'.head, hq.head]
  cases hpending : s.pending with
  | nil => exact absurd (by rw [hpending, List.tail_nil]) hne
  | cons a rest =>
    rw [hpending, List.tail_cons] at hne
    rw [List.tail_cons, ← List.singleton_append, List.getLast?_append_of_ne_nil _ hne]

/-- **One step** that leaves nothing behind the message it removes. The message that is the tail
    then has a `_next` from before, which nobody reads, as there is no such message. -/
theorem ListSys.Inv.step (h : s.Inv) {a : Act} (hg : TakesLast s a) (hs : listStep s a = some s') :
    s'.Inv := by
  obtain ⟨done, pending, hq⟩ := h.queue
  cases a with
  | link p => exact h.link hs
  | take =>
    obtain ⟨hqueue, hpending, -, -⟩ := h.took hs
    refine ⟨hqueue, ?_⟩
    obtain ⟨done', pending', hq'⟩ := hqueue
    have hnil : s'.pending = [] := hpending.trans (hq.head_eq_tail_iff.mp hg)
    have hhead : s'.sys.events.head = none := by rw [hq'.head, hnil]; rfl
    rw [hnil, hhead]
    rfl
  | make | test | signal | wake | run | free =>
    obtain ⟨t, ht, rfl⟩ := Option.map_eq_some_iff.mp hs
    obtain ⟨hevents, hheap, hqueue⟩ := step_frame hq (by simp) (by simp) ht
    refine ⟨hqueue, ?_⟩
    show Chain _ t.heap t.events.head _
    rw [hevents]
    exact h.next.congr fun b hb => hheap b (List.mem_reverse.mp hb)

/-- A removal that leaves messages leaves the last of them with a `_next`. -/
theorem ListSys.Inv.broken (h : s.Inv) {a : Act} (hg : ¬TakesLast s a)
    (hs : listStep s a = some s') : ¬s'.WellFormed := by
  cases a with
  | take =>
    obtain ⟨done, pending, hq⟩ := h.queue
    obtain ⟨-, hpending, hheap, hhead⟩ := h.took hs
    intro hw
    have hne : s.pending.tail ≠ [] := fun hnil => hg (hq.head_eq_tail_iff.mpr hnil)
    have hnext := hw.next
    rw [hhead hne, hheap, hpending] at hnext
    -- but from the same head the chain goes on to the message that was taken off
    have hlen := congrArg List.length (h.next.unique hnext)
    simp only [List.length_reverse, List.length_tail] at hlen
    have hpos := List.length_pos_of_ne_nil hne
    simp only [List.length_tail] at hpos
    omega
  | link | make | test | signal | wake | run | free => exact absurd trivial hg

end Steps

/-! ## Every run -/

/-- **The list of pending messages.** After every run whose removals each take the only message,
    following `_next` from the head, or `_pre` from the tail, visits the pending messages, and
    `duer_events_destroy` frees these and each once; the next step keeps this if and only if it
    takes no message or the only one. -/
theorem list_wellFormed_iff {s : ListSys} (h : ReachableBy ListSys.init listStep TakesLast s) :
    s.WellFormed ∧ ∀ a s', listStep s a = some s' → (s'.WellFormed ↔ TakesLast s a) := by
  have hi : s.Inv := ReachableBy.invariant ListSys.Inv ListSys.Inv.initial
    (fun hi hg hs => hi.step hg hs) h
  refine ⟨hi.wellFormed, fun a s' hs => ⟨fun hw => ?_, fun hg => (hi.step hg hs).wellFormed⟩⟩
  by_contra hg
  exact hi.broken hg hs hw

/-- The queue with nothing in it. -/
def ListSys.empty : ListSys := ⟨Sys.empty, []⟩

theorem ListSys.empty_init : ListSys.empty.init :=
  ⟨⟨rfl, rfl, fun _ => rfl, rfl, rfl, rfl⟩, rfl⟩

/-- One message is posted and taken, then two are pending. -/
theorem list_wellFormed_iff_pending :
    ∃ s, runFrom listStep .empty [.make 0 7 ⟨some 1, 10, 0⟩, .link 0, .take,
        .make 1 8 ⟨some 1, 11, 0⟩, .link 1, .make 2 9 ⟨some 1, 12, 0⟩, .link 2] = some s ∧
      s.pending = [8, 9] ∧ s.WellFormed := by
  obtain ⟨s, hrun, hpending⟩ : ∃ s, runFrom listStep .empty [.make 0 7 ⟨some 1, 10, 0⟩, .link 0,
        .take, .make 1 8 ⟨some 1, 11, 0⟩, .link 1, .make 2 9 ⟨some 1, 12, 0⟩, .link 2] = some s ∧
      s.pending = [8, 9] := ⟨_, rfl, rfl⟩
  have hreach : ReachableBy ListSys.init listStep TakesLast s := by
    refine ReachableBy.of_runFrom _ (.start ListSys.empty_init) ?_ hrun
    exact ⟨trivial, trivial, rfl, trivial, trivial, trivial, trivial, trivial⟩
  exact ⟨s, hrun, hpending, (list_wellFormed_iff hreach).1⟩

/-- Two messages are pending, the first of them is delivered and freed: the second one still has
    the first as its `_next`, and `duer_events_destroy` goes there after it has freed the second. -/
theorem list_broken_after_removal :
    ∃ s, runFrom listStep .empty [.make 0 7 ⟨some 1, 10, 0⟩, .link 0,
        .make 1 8 ⟨some 1, 11, 0⟩, .link 1, .take, .run, .free] = some s ∧
      s.pending = [8] ∧ ¬s.WellFormed ∧
      ∀ n, destroyLoop n s.sys.heap s.sys.events.head = none := by
  -- the message at the head is the only one, and its `_next` is where the first one was
  have hfree : ∃ s message, runFrom listStep .empty [.make 0 7 ⟨some 1, 10, 0⟩, .link 0,
        .make 1 8 ⟨some 1, 11, 0⟩, .link 1, .take, .run, .free] = some s ∧ s.pending = [8] ∧
      s.sys.events.head = some 8 ∧ s.sys.heap 8 = some message ∧ message.next = some 7 ∧
      s.sys.heap 7 = none := ⟨_, _, rfl, rfl, rfl, rfl, rfl, rfl⟩
  obtain ⟨s, message, hrun, hpending, hhead, hmsg, hnext, hfreed⟩ := hfree
  have hloop : ∀ n, destroyLoop n s.sys.heap s.sys.events.head = none := by
    intro n
    rw [hhead]
    rcases n with _ | _ | n
    · rfl
    · simp only [destroyLoop, hmsg, hnext, Option.map_none]
    · simp only [destroyLoop, hmsg, hnext, Function.update_of_ne (show 7 ≠ 8 by decide), hfreed,
        Option.map_none]
  refine ⟨s, hrun, hpending, fun hw => ?_, hloop⟩
  obtain ⟨n, hn⟩ := hw.destroyed
  exact absurd ((hloop n).symm.trans hn) (by simp)

end Events
end LightDuer
