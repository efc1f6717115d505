import LightDuer.Lib.Retry
import LightDuer.Lib.Transition
import LightDuer.LibCoap.Resend

/-!
# How often a message is sent

The messages in the list do not get in each other's way: what the library does about one of them is
what a timer of its own would have it do, at the times of `sn_coap_protocol_exec`.

This rests on the addresses and IDs in the list being different (`WellKept.apart`). The library does
not see to that. IDs are counted up by `sn_coap_protocol_build` where the application gives none, in
sixteen bits, and a message may be given the ID of another that still waits; then the one that has
failed, or is answered, is not the one that is removed. So the runs here are those in which each
message that is stored is apart from those that wait (`ResendAction.Fresh`), and this is a condition
of the three results:

* `Resending.Reached.resent`: whatever is done about the others, a message is sent again when its
  timer says so;
* `Resending.Reached.fails`: if nobody answers and the library is called often enough, that is as
  often as is set, and then it fails;
* `Resending.Reached.silenced`: once an answer is matched with it, it is neither sent nor reported
  again.

The timer itself is not of this library (`Lib.Retry`). What connects the two is `execLoop_eq`: the
loop over the list is a map over it, although it removes what has failed by looking for it.
-/

set_option autoImplicit false

namespace LightDuer
namespace LibCoap

open Lib Lib.Retry

/-! ## Timers -/

/-- Sent again `sn_coap_resending_count` times, with the interval doubled each time. -/
def Resending.policy (s : Resending) : Policy where
  limit := s.resendingCount
  next now n := (now + s.resendingIntervall * 2 ^ n) % 2 ^ 32

namespace CoapSendMsg

def timer (msg : CoapSendMsg) : Timer := ⟨msg.resendingCounter, msg.resendingTime⟩

/-- Whom an answer is from, and what it is for. -/
def key (msg : CoapSendMsg) : SnNsdlAddr × Nat := (msg.dstAddr, msg.msgId)

/-- No answer to one is taken for the other. -/
def Apart (msg msg' : CoapSendMsg) : Prop :=
  msg'.answeredBy msg.dstAddr msg.msgId = false ∧ msg.answeredBy msg'.dstAddr msg'.msgId = false

def withTimer (msg : CoapSendMsg) (t : Timer) : CoapSendMsg :=
  { msg with resendingCounter := t.tries, resendingTime := t.due }

/-- The event of an outcome. -/
def event (msg : CoapSendMsg) : Nat × Outcome → SendEvent
  | (now, .again) => .resent now msg.packet msg.dstAddr
  | (now, .failed) => .sendingFailed now msg.packet msg.dstAddr

/-- The message after a look at it. -/
def next (p : Policy) (now : Nat) (msg : CoapSendMsg) : Option CoapSendMsg :=
  (p.tick msg.timer now).1.map msg.withTimer

def done (p : Policy) (now : Nat) (msg : CoapSendMsg) : Option SendEvent :=
  (p.tick msg.timer now).2.map fun o => msg.event (now, o)

@[simp] theorem withTimer_timer (msg : CoapSendMsg) (t : Timer) : (msg.withTimer t).timer = t :=
  rfl

@[simp] theorem withTimer_withTimer (msg : CoapSendMsg) (t t' : Timer) :
    (msg.withTimer t).withTimer t' = msg.withTimer t' := rfl

@[simp] theorem withTimer_event (msg : CoapSendMsg) (t : Timer) (o : Nat × Outcome) :
    (msg.withTimer t).event o = msg.event o := by
  obtain ⟨now, outcome⟩ := o
  cases outcome <;> rfl

theorem answeredBy_self (msg : CoapSendMsg) : msg.answeredBy msg.dstAddr msg.msgId = true := by
  simp [answeredBy, SnNsdlAddr.same_self]

theorem Apart.symm {msg msg' : CoapSendMsg} (h : Apart msg msg') : Apart msg' msg := ⟨h.2, h.1⟩

theorem Apart.key_ne {msg msg' : CoapSendMsg} (h : Apart msg msg') : msg.key ≠ msg'.key := by
  intro heq
  have haddr : msg.dstAddr = msg'.dstAddr := congrArg Prod.fst heq
  have hid : msg.msgId = msg'.msgId := congrArg Prod.snd heq
  have hself := msg'.answeredBy_self
  rw [← haddr, ← hid, h.1] at hself
  exact Bool.false_ne_true hself

theorem next_apart {p : Policy} {now : Nat} {msg msg' n : CoapSendMsg} (h : Apart msg msg')
    (hn : msg'.next p now = some n) : Apart msg n := by
  obtain ⟨t, -, rfl⟩ := Option.map_eq_some_iff.mp hn
  exact h

end CoapSendMsg

def SendEvent.key : SendEvent → SnNsdlAddr × Nat
  | .resent _ packet dst => (dst, packetMsgId packet)
  | .sendingFailed _ packet dst => (dst, packetMsgId packet)

@[simp] theorem CoapSendMsg.event_key (msg : CoapSendMsg) (o : Nat × Outcome) :
    (msg.event o).key = msg.key := by
  obtain ⟨now, outcome⟩ := o
  cases outcome <;> rfl

/-! ## The list -/

/-- The messages are apart, and have been counted; none has been sent again more than
    `SN_COAP_MAX_ALLOWED_RESENDING_COUNT` times. -/
structure WellKept (s : Resending) : Prop where
  apart : s.linkedListResentMsgs.Pairwise CoapSendMsg.Apart
  counted : s.countResentMsgs = s.linkedListResentMsgs.length % 2 ^ 16
  counter_le : ∀ msg ∈ s.linkedListResentMsgs, msg.resendingCounter ≤ 6
  count_le : s.resendingCount ≤ 6

theorem wellKept_init : WellKept {} where
  apart := .nil
  counted := rfl
  counter_le := by simp
  count_le := by decide

section Exec

variable {s : Resending} {now : Nat} {done msgs : List CoapSendMsg}

/-- The last of messages that are apart is removed by its address and its ID. -/
theorem sendMsgRemove_last {msg : CoapSendMsg}
    (hapart : (done ++ [msg]).Pairwise CoapSendMsg.Apart) :
    ({ s with linkedListResentMsgs := done ++ [msg] } : Resending).sendMsgRemove msg.dstAddr
        msg.msgId =
      { s with
        linkedListResentMsgs := done
        countResentMsgs := (s.countResentMsgs + 2 ^ 16 - 1) % 2 ^ 16 } := by
  have hnot : ∀ m ∈ done, ¬m.answeredBy msg.dstAddr msg.msgId = true := by
    intro m hm
    have := ((List.pairwise_append.mp hapart).2.2 m hm msg (List.mem_singleton_self msg)).2
    rw [this]
    exact Bool.false_ne_true
  have hfind : (done ++ [msg]).find? (·.answeredBy msg.dstAddr msg.msgId) = some msg := by
    rw [List.find?_append, List.find?_eq_none.mpr hnot]
    simp [msg.answeredBy_self]
  have herase : (done ++ [msg]).eraseP (·.answeredBy msg.dstAddr msg.msgId) = done := by
    rw [List.eraseP_append_right _ hnot]
    simp [msg.answeredBy_self]
  simp only [Resending.sendMsgRemove, Resending.sendMsgSearch, hfind, herase]

/-- The loop, over messages that are apart. -/
theorem execLoop_eq (hapart : (done ++ msgs).Pairwise CoapSendMsg.Apart)
    (hcounted : s.countResentMsgs = (done ++ msgs).length % 2 ^ 16)
    (hcounter : ∀ msg ∈ msgs, msg.resendingCounter ≤ 6) :
    Resending.execLoop now s done msgs =
      ({ s with
        linkedListResentMsgs := done ++ msgs.filterMap (·.next s.policy now)
        countResentMsgs := (done ++ msgs.filterMap (·.next s.policy now)).length % 2 ^ 16 },
      msgs.filterMap (·.done s.policy now)) := by
  induction msgs generalizing s done with
  | nil =>
    rw [List.append_nil] at hcounted
    simp only [Resending.execLoop, List.filterMap_nil, List.append_nil, ← hcounted]
  | cons msg msgs ih =>
    have hle := hcounter msg List.mem_cons_self
    have hmod : (msg.resendingCounter + 1) % 2 ^ 8 = msg.resendingCounter + 1 :=
      Nat.mod_eq_of_lt (by omega)
    have hsplit : ∀ msg : CoapSendMsg, done ++ msg :: msgs = (done ++ [msg]) ++ msgs := by simp
    -- the same message with another timer is as far apart from the others
    have hupdate : ∀ t : Timer,
        ((done ++ [msg.withTimer t]) ++ msgs).Pairwise CoapSendMsg.Apart := by
      intro t
      obtain ⟨hd, hm, hcross⟩ := List.pairwise_append.mp hapart
      have hm' : (msg.withTimer t :: msgs).Pairwise CoapSendMsg.Apart :=
        List.Pairwise.cons (List.pairwise_cons.mp hm).1 (List.pairwise_cons.mp hm).2
      rw [List.append_assoc]
      refine List.pairwise_append.mpr ⟨hd, hm', ?_⟩
      intro a ha b hb
      rcases List.mem_cons.mp hb with rfl | hb
      · exact hcross a ha msg List.mem_cons_self
      · exact hcross a ha b (List.mem_cons_of_mem msg hb)
    rw [Resending.execLoop]
    by_cases hdue : msg.resendingTime ≤ now
    · rw [if_pos hdue]
      simp only [hmod]
      by_cases hlimit : s.resendingCount < msg.resendingCounter + 1
      · have htick : s.policy.tick msg.timer now = (none, some .failed) :=
          Policy.tick_failed hdue (Nat.le_of_lt_succ hlimit)
        have hnext : msg.next s.policy now = none := by
          rw [CoapSendMsg.next, htick]
          rfl
        have hdone : msg.done s.policy now =
            some (.sendingFailed now msg.packet msg.dstAddr) := by
          rw [CoapSendMsg.done, htick]
          rfl
        have hremoved := sendMsgRemove_last (s := s)
          (List.pairwise_append.mp (hupdate ⟨msg.resendingCounter + 1, msg.resendingTime⟩)).1
        have hsub : (done ++ msgs).Sublist (done ++ msg :: msgs) :=
          (List.sublist_cons_self msg msgs).append_left done
        have hcount : (s.countResentMsgs + 2 ^ 16 - 1) % 2 ^ 16 =
            (done ++ msgs).length % 2 ^ 16 := by
          rw [hcounted, List.length_append, List.length_append, List.length_cons]
          omega
        have hrest := ih (s := { s with
            linkedListResentMsgs := done
            countResentMsgs := (s.countResentMsgs + 2 ^ 16 - 1) % 2 ^ 16 })
          (hapart.sublist hsub) hcount fun m hm => hcounter m (List.mem_cons_of_mem msg hm)
        have hremoved' : ({ s with
            linkedListResentMsgs := done ++
              [{ msg with resendingCounter := msg.resendingCounter + 1 }] } :
              Resending).sendMsgRemove msg.dstAddr msg.msgId =
            { s with
              linkedListResentMsgs := done
              countResentMsgs := (s.countResentMsgs + 2 ^ 16 - 1) % 2 ^ 16 } := hremoved
        have hid : CoapSendMsg.msgId { msg with resendingCounter := msg.resendingCounter + 1 } =
            msg.msgId := rfl
        rw [if_pos hlimit, hid, hremoved', hrest, List.filterMap_cons, hnext, List.filterMap_cons,
          hdone]
        rfl
      · have htick : s.policy.tick msg.timer now =
            (some ⟨msg.resendingCounter + 1, s.policy.next now (msg.resendingCounter + 1)⟩,
              some .again) := Policy.tick_again hdue (Nat.not_lt.mp hlimit)
        have hnext : msg.next s.policy now = some (msg.withTimer
            ⟨msg.resendingCounter + 1, s.policy.next now (msg.resendingCounter + 1)⟩) := by
          rw [CoapSendMsg.next, htick]
          rfl
        have hdone : msg.done s.policy now = some (.resent now msg.packet msg.dstAddr) := by
          rw [CoapSendMsg.done, htick]
          rfl
        have hrest := ih (s := s) (hupdate
            ⟨msg.resendingCounter + 1, s.policy.next now (msg.resendingCounter + 1)⟩)
          (by rw [hcounted]; simp) fun m hm => hcounter m (List.mem_cons_of_mem msg hm)
        simp only [CoapSendMsg.withTimer, Resending.policy] at hrest
        rw [if_neg hlimit, List.filterMap_cons, hnext, List.filterMap_cons, hdone, hrest,
          List.append_assoc]
        rfl
    · have htick : s.policy.tick msg.timer now = (some msg.timer, none) :=
        Policy.tick_of_lt (Nat.not_le.mp hdue)
      rw [if_neg hdue]
      have hnext : msg.next s.policy now = some msg := by
        rw [CoapSendMsg.next, htick]
        rfl
      have hdone : msg.done s.policy now = none := by
        rw [CoapSendMsg.done, htick]
        rfl
      rw [hsplit] at hapart hcounted
      rw [ih hapart hcounted fun m hm => hcounter m (List.mem_cons_of_mem msg hm),
        List.filterMap_cons, hnext, List.filterMap_cons, hdone, List.append_assoc]
      rfl

theorem exec_eq (h : WellKept s) (now : Nat) :
    s.exec now =
      ({ s with
        linkedListResentMsgs := s.linkedListResentMsgs.filterMap (·.next s.policy now)
        countResentMsgs :=
          (s.linkedListResentMsgs.filterMap (·.next s.policy now)).length % 2 ^ 16
        systemTime := now },
      s.linkedListResentMsgs.filterMap (·.done s.policy now)) :=
  show Resending.execLoop now { s with systemTime := now } [] s.linkedListResentMsgs = _ from
    execLoop_eq h.apart h.counted h.counter_le

end Exec

/-! ## Runs -/

namespace ResendAction

/-- A message that is stored is apart from those that wait: none of them has its address and ID, so
    that an answer is for one message at most. -/
def Fresh (s : Resending) : ResendAction → Prop
  | .build dst msgType packet uriPath => msgType = .confirmable →
      ∀ msg ∈ s.linkedListResentMsgs, msg.Apart ⟨0, s.firstDue, packet, dst, uriPath⟩
  | _ => True

instance (s : Resending) : ∀ a, Decidable (Fresh s a)
  | .build _ _ _ _ => inferInstanceAs (Decidable (_ → ∀ _ ∈ _, _ ∧ _))
  | .answered _ _ _ => .isTrue trivial
  | .exec _ => .isTrue trivial
  | .delete _ => .isTrue trivial
  | .clear => .isTrue trivial
  | .setParameters _ _ => .isTrue trivial
  | .setBuffer _ _ => .isTrue trivial

/-- What is stored, if it is. -/
def key? : ResendAction → Option (SnNsdlAddr × Nat)
  | .build dst msgType packet _ =>
      if msgType = .confirmable then some (dst, packetMsgId packet) else none
  | _ => none

/-- Neither the message nor how often it is sent is touched. -/
def Spares (msg : CoapSendMsg) : ResendAction → Prop
  | .build dst msgType packet _ => msgType = .confirmable → (dst, packetMsgId packet) ≠ msg.key
  | .answered src msgType msgId =>
      msgType = .acknowledgement ∨ msgType = .reset → msg.answeredBy src msgId = false
  | .exec _ => True
  | .delete msgId => msgId ≠ msg.msgId
  | .clear => False
  | .setParameters count intervall => ¬(count ≤ 6 ∧ intervall ≤ 40)
  | .setBuffer _ _ => True

instance (msg : CoapSendMsg) : ∀ a, Decidable (Spares msg a)
  | .build _ _ _ _ => inferInstanceAs (Decidable (_ → _ ≠ _))
  | .answered _ _ _ => inferInstanceAs (Decidable (_ ∨ _ → _ = _))
  | .exec _ => .isTrue trivial
  | .delete _ => inferInstanceAs (Decidable (_ ≠ _))
  | .clear => .isFalse id
  | .setParameters _ _ => inferInstanceAs (Decidable ¬(_ ∧ _))
  | .setBuffer _ _ => .isTrue trivial

end ResendAction

/-- The times of `sn_coap_protocol_exec`. -/
def execTimes : List ResendAction → List Nat
  | [] => []
  | .exec now :: actions => now :: execTimes actions
  | _ :: actions => execTimes actions

namespace Resending

/-- The state after a list of actions, and what has been done. -/
def run (s : Resending) : List ResendAction → Resending × List SendEvent
  | [] => (s, [])
  | a :: actions =>
      (((s.step a).1.run actions).1, (s.step a).2 ++ ((s.step a).1.run actions).2)

/-- Each message that is stored is fresh. -/
def Admitted (s : Resending) (actions : List ResendAction) : Prop :=
  admits (fun s a => some (s.step a).1) ResendAction.Fresh s actions

instance (s : Resending) (actions : List ResendAction) : Decidable (s.Admitted actions) :=
  inferInstanceAs (Decidable (admits _ _ _ _))

end Resending

/-! ### The list is well kept -/

section Kept

variable {s : Resending}

/-- One message fewer. -/
theorem WellKept.erase (h : WellKept s) {p : CoapSendMsg → Bool} {msg : CoapSendMsg}
    (hmem : msg ∈ s.linkedListResentMsgs) (hp : p msg = true) :
    WellKept { s with
      linkedListResentMsgs := s.linkedListResentMsgs.eraseP p
      countResentMsgs := (s.countResentMsgs + 2 ^ 16 - 1) % 2 ^ 16 } where
  apart := h.apart.sublist List.eraseP_sublist
  counted := by
    have hlen := List.length_eraseP_of_mem hmem hp
    have hpos := List.length_pos_of_mem hmem
    simp only [hlen, h.counted]
    omega
  counter_le m hm := h.counter_le m (List.mem_of_mem_eraseP hm)
  count_le := h.count_le

theorem WellKept.sendMsgRemove (h : WellKept s) (src : SnNsdlAddr) (msgId : Nat) :
    WellKept (s.sendMsgRemove src msgId) := by
  rw [Resending.sendMsgRemove, Resending.sendMsgSearch]
  cases hfind : s.linkedListResentMsgs.find? (·.answeredBy src msgId) with
  | none => exact h
  | some msg =>
    have hp := List.find?_some hfind
    exact h.erase (List.mem_of_find?_eq_some hfind) hp

theorem WellKept.sendMsgStore (h : WellKept s) {dst : SnNsdlAddr} {packet uriPath : List UInt8}
    {time : Nat}
    (hfresh : ∀ msg ∈ s.linkedListResentMsgs, msg.Apart ⟨0, time, packet, dst, uriPath⟩) :
    WellKept (s.sendMsgStore dst packet time uriPath) := by
  rw [Resending.sendMsgStore]
  split
  · exact h
  split
  · exact h
  split
  · exact h
  refine ⟨?_, ?_, ?_, h.count_le⟩
  · refine List.pairwise_append.mpr ⟨h.apart, List.pairwise_singleton _ _, ?_⟩
    intro msg hmsg new hnew
    rw [List.mem_singleton.mp hnew]
    exact hfresh msg hmsg
  · simp only [List.length_append, List.length_singleton, h.counted]
    omega
  · intro msg hmsg
    rcases List.mem_append.mp hmsg with hmsg | hnew
    · exact h.counter_le msg hmsg
    · rw [List.mem_singleton.mp hnew]
      exact Nat.zero_le 6

theorem WellKept.exec (h : WellKept s) (now : Nat) : WellKept (s.exec now).1 := by
  rw [exec_eq h]
  refine ⟨?_, rfl, ?_, h.count_le⟩
  · refine List.Pairwise.filterMap _ ?_ h.apart
    intro a a' haa b hb b' hb'
    exact (CoapSendMsg.next_apart (CoapSendMsg.next_apart haa hb').symm hb).symm
  · intro msg hmsg
    obtain ⟨old, hold, hnext⟩ := List.mem_filterMap.mp hmsg
    obtain ⟨t, ht, rfl⟩ := Option.map_eq_some_iff.mp hnext
    rcases Nat.lt_or_ge now old.resendingTime with hlt | hdue
    · rw [Policy.tick_of_lt (t := old.timer) hlt] at ht
      rw [← Option.some.inj ht]
      exact h.counter_le old hold
    rcases Nat.lt_or_ge old.resendingCounter s.resendingCount with hlimit | hlimit
    · rw [Policy.tick_again (p := s.policy) (t := old.timer) hdue hlimit] at ht
      rw [← Option.some.inj ht]
      exact Nat.le_trans hlimit h.count_le
    · rw [Policy.tick_failed (p := s.policy) (t := old.timer) hdue hlimit] at ht
      exact absurd ht (Option.some_ne_none t).symm

/-- **The step lemma**: one action keeps the messages apart by address and ID, and their number and
    their counters right. -/
theorem WellKept.step (h : WellKept s) {a : ResendAction} (hfresh : a.Fresh s) :
    WellKept (s.step a).1 := by
  cases a with
  | build dst msgType packet uriPath =>
    simp only [Resending.step, Resending.build]
    split
    next htype => exact h.sendMsgStore (hfresh htype)
    next => exact h
  | answered src msgType msgId =>
    simp only [Resending.step, Resending.answered]
    split
    · cases s.sendMsgSearch src msgId with
      | none => exact h
      | some msg => exact h.sendMsgRemove src msgId
    · exact h
  | exec now => exact h.exec now
  | delete msgId =>
    simp only [Resending.step, Resending.deleteRetransmission]
    cases hfind : s.linkedListResentMsgs.find? (·.msgId == msgId) with
    | none => exact h
    | some msg =>
      have hp := List.find?_some hfind
      exact h.erase (List.mem_of_find?_eq_some hfind) hp
  | clear =>
    refine ⟨.nil, ?_, fun _ hmem => absurd hmem List.not_mem_nil, h.count_le⟩
    simp only [Resending.step, Resending.clearRetransmissionBuffer, h.counted, List.length_nil]
    omega
  | setParameters count intervall =>
    simp only [Resending.step, Resending.setRetransmissionParameters]
    split
    next hle => exact ⟨h.apart, h.counted, h.counter_le, hle.1⟩
    next => exact h
  | setBuffer msgs bytes =>
    simp only [Resending.step, Resending.setRetransmissionBuffer]
    split
    · exact ⟨h.apart, h.counted, h.counter_le, h.count_le⟩
    · exact h

/-- **The run lemma**: what the step lemma says of one action, of all those that are admitted. -/
theorem WellKept.run (h : WellKept s) {actions : List ResendAction} (hadm : s.Admitted actions) :
    WellKept (s.run actions).1 := by
  induction actions generalizing s with
  | nil => exact h
  | cons a actions ih => exact ih (h.step hadm.1) hadm.2

end Kept

/-! ### One message of a run -/

section OneMessage

variable {s : Resending} {msg : CoapSendMsg} {cur : Option Timer} {actions : List ResendAction}

/-- What waits with the address and the ID of the message: itself with this timer, or nothing. -/
def Waits (s : Resending) (msg : CoapSendMsg) (cur : Option Timer) : Prop :=
  s.linkedListResentMsgs.filter (·.key = msg.key) = (cur.map msg.withTimer).toList

theorem waits_of_mem (h : WellKept s) (hmem : msg ∈ s.linkedListResentMsgs) :
    Waits s msg (some msg.timer) := by
  have hapart := h.apart
  rw [Waits]
  generalize s.linkedListResentMsgs = msgs at hmem hapart
  show msgs.filter (·.key = msg.key) = [msg]
  induction msgs with
  | nil => exact absurd hmem List.not_mem_nil
  | cons a msgs ih =>
    obtain ⟨hhead, hrest⟩ := List.pairwise_cons.mp hapart
    rcases List.mem_cons.mp hmem with rfl | hmem
    · have hnone : msgs.filter (·.key = msg.key) = [] :=
        List.filter_eq_nil_iff.mpr fun b hb => by simpa using (hhead b hb).key_ne.symm
      simp [hnone]
    · simp [(hhead msg hmem).key_ne, ih hmem hrest]

/-- A filter that what is mapped to meets as well. -/
theorem filter_filterMap_of {α β : Type} {f : α → Option β} {q : α → Bool} {q' : β → Bool}
    (h : ∀ {a b}, f a = some b → q' b = q a) (l : List α) :
    (l.filterMap f).filter q' = (l.filter q).filterMap f := by
  induction l with
  | nil => rfl
  | cons a l ih =>
    cases hf : f a with
    | none =>
      rw [List.filterMap_cons_none hf, ih, List.filter_cons]
      split
      · rw [List.filterMap_cons_none hf]
      · rfl
    | some b =>
      rw [List.filterMap_cons_some hf, List.filter_cons, h hf, ih, List.filter_cons]
      split
      · rw [List.filterMap_cons_some hf]
      · rfl

/-- What is removed is another message. -/
theorem filter_eraseP {α : Type} {p q : α → Bool} {l : List α}
    (h : ∀ a ∈ l, q a = true → p a = false) : (l.eraseP p).filter q = l.filter q := by
  induction l with
  | nil => rfl
  | cons a l ih =>
    cases hp : p a with
    | true =>
      have hq : ¬q a = true := fun hq =>
        Bool.false_ne_true ((h a List.mem_cons_self hq).symm.trans hp)
      rw [List.eraseP_cons_of_pos hp, List.filter_cons_of_neg hq]
    | false =>
      have hnot : ¬p a = true := by rw [hp]; exact Bool.false_ne_true
      rw [List.eraseP_cons_of_neg hnot, List.filter_cons, List.filter_cons,
        ih fun b hb => h b (List.mem_cons_of_mem a hb)]

theorem CoapSendMsg.answeredBy_of_key_eq {m : CoapSendMsg} (h : m.key = msg.key)
    (src : SnNsdlAddr) (msgId : Nat) : m.answeredBy src msgId = msg.answeredBy src msgId := by
  have haddr : m.dstAddr = msg.dstAddr := congrArg Prod.fst h
  have hid : m.msgId = msg.msgId := congrArg Prod.snd h
  rw [answeredBy, answeredBy, haddr, hid]

theorem Waits.sendMsgRemove (h : Waits s msg cur) {src : SnNsdlAddr} {msgId : Nat}
    (hnot : msg.answeredBy src msgId = false) : Waits (s.sendMsgRemove src msgId) msg cur := by
  rw [Resending.sendMsgRemove]
  cases s.sendMsgSearch src msgId with
  | none => exact h
  | some _ =>
    refine (filter_eraseP fun m _ hm => ?_).trans h
    rw [CoapSendMsg.answeredBy_of_key_eq (of_decide_eq_true hm), hnot]

theorem Waits.build (h : Waits s msg cur) {dst : SnNsdlAddr} {msgType : MsgType}
    {packet uriPath : List UInt8}
    (hne : msgType = .confirmable → (dst, packetMsgId packet) ≠ msg.key) :
    Waits (s.build dst msgType packet uriPath) msg cur := by
  rw [Resending.build]
  split
  next htype =>
    rw [Resending.sendMsgStore]
    split
    · exact h
    split
    · exact h
    split
    · exact h
    have hnew : ∀ path, CoapSendMsg.key ⟨0, s.firstDue, packet, dst, path⟩ ≠ msg.key :=
      fun _ => hne htype
    rw [Waits] at h ⊢
    simpa [hnew] using h
  next => exact h

/-- What the list becomes for the message is what becomes of its timer. -/
theorem Waits.exec (hkept : WellKept s) (h : Waits s msg cur) (now : Nat) :
    Waits (s.exec now).1 msg (cur.bind fun t => (s.policy.tick t now).1) ∧
      (s.exec now).2.filter (·.key = msg.key) =
        (cur.bind fun t => (s.policy.tick t now).2.map fun o => msg.event (now, o)).toList := by
  have hnextKey : ∀ {m n : CoapSendMsg}, m.next s.policy now = some n →
      decide (n.key = msg.key) = decide (m.key = msg.key) := by
    intro m n hn
    obtain ⟨t, -, rfl⟩ := Option.map_eq_some_iff.mp hn
    rfl
  have hdoneKey : ∀ {m : CoapSendMsg} {e : SendEvent}, m.done s.policy now = some e →
      decide (e.key = msg.key) = decide (m.key = msg.key) := by
    intro m e he
    obtain ⟨o, -, rfl⟩ := Option.map_eq_some_iff.mp he
    rw [CoapSendMsg.event_key]
  rw [exec_eq hkept, Waits]
  simp only [filter_filterMap_of hnextKey, filter_filterMap_of hdoneKey]
  rw [show s.linkedListResentMsgs.filter (·.key = msg.key) = _ from h]
  cases cur with
  | none => exact ⟨rfl, rfl⟩
  | some t =>
    constructor
    · show List.filterMap _ [msg.withTimer t] = _
      cases htick : (s.policy.tick t now).1 <;> simp [CoapSendMsg.next, htick]
    · show List.filterMap _ [msg.withTimer t] = _
      cases htick : (s.policy.tick t now).2 <;> simp [CoapSendMsg.done, htick]

theorem Waits.delete (h : Waits s msg cur) {msgId : Nat} (hne : msgId ≠ msg.msgId) :
    Waits (s.deleteRetransmission msgId).1 msg cur := by
  rw [Resending.deleteRetransmission]
  cases s.linkedListResentMsgs.find? (·.msgId == msgId) with
  | none => exact h
  | some _ =>
    refine (filter_eraseP fun m _ hm => ?_).trans h
    have hid : m.msgId = msg.msgId := congrArg Prod.snd (of_decide_eq_true hm)
    rw [hid]
    simpa using hne.symm

theorem Waits.answered (h : Waits s msg cur) {src : SnNsdlAddr} {msgType : MsgType} {msgId : Nat}
    (hnot : msgType = .acknowledgement ∨ msgType = .reset → msg.answeredBy src msgId = false) :
    Waits (s.answered src msgType msgId).1 msg cur := by
  rw [Resending.answered]
  split
  next hguard =>
    cases s.sendMsgSearch src msgId with
    | none => exact h
    | some _ => exact h.sendMsgRemove (hnot hguard.1)
  next => exact h

/-- Only `sn_coap_protocol_exec` does anything. -/
theorem step_events {a : ResendAction} (h : ∀ now, a ≠ .exec now) : (s.step a).2 = [] := by
  cases a with
  | exec now => exact absurd rfl (h now)
  | _ => rfl

theorem sendMsgStore_policy (dst : SnNsdlAddr) (packet uriPath : List UInt8) (time : Nat) :
    (s.sendMsgStore dst packet time uriPath).policy = s.policy := by
  rw [Resending.sendMsgStore]
  split
  · rfl
  split
  · rfl
  split <;> rfl

/-- What spares the message lets it be sent as often, and as far apart. -/
theorem step_policy (hkept : WellKept s) {a : ResendAction} (h : a.Spares msg) :
    (s.step a).1.policy = s.policy := by
  cases a with
  | build dst msgType packet uriPath =>
    simp only [Resending.step, Resending.build]
    split
    · exact sendMsgStore_policy dst packet _ _
    · rfl
  | answered src msgType msgId =>
    simp only [Resending.step, Resending.answered]
    split
    · cases hfind : s.sendMsgSearch src msgId with
      | none => rfl
      | some _ =>
        simp only [Resending.sendMsgRemove, hfind]
        rfl
    · rfl
  | exec now =>
    rw [Resending.step, exec_eq hkept]
    rfl
  | delete msgId =>
    simp only [Resending.step, Resending.deleteRetransmission]
    cases s.linkedListResentMsgs.find? (·.msgId == msgId) <;> rfl
  | clear => exact h.elim
  | setParameters count intervall =>
    rw [Resending.step, Resending.setRetransmissionParameters, if_neg h]
  | setBuffer msgs bytes =>
    simp only [Resending.step, Resending.setRetransmissionBuffer]
    split <;> rfl

/-- The message goes on waiting through what spares it and is no `sn_coap_protocol_exec`. -/
theorem Waits.step (h : Waits s msg cur) {a : ResendAction} (hspares : a.Spares msg)
    (hexec : ∀ now, a ≠ .exec now) : Waits (s.step a).1 msg cur := by
  cases a with
  | build dst msgType packet uriPath => exact h.build hspares
  | answered src msgType msgId => exact h.answered hspares
  | exec now => exact absurd rfl (hexec now)
  | delete msgId => exact h.delete hspares
  | clear => exact hspares.elim
  | setParameters count intervall =>
    rw [Resending.step, Resending.setRetransmissionParameters, if_neg hspares]
    exact h
  | setBuffer msgs bytes =>
    simp only [Resending.step, Resending.setRetransmissionBuffer]
    split
    · exact h
    · exact h

/-- **What is done about one message** is what comes of its timer, whatever becomes of the others.
    On the right there is no list any more: a policy, a timer, and the times at which the library
    was called. -/
theorem Waits.run (hkept : WellKept s) (h : Waits s msg cur) (hadm : s.Admitted actions)
    (hspares : ∀ a ∈ actions, a.Spares msg) :
    (s.run actions).2.filter (·.key = msg.key) =
      (s.policy.run cur (execTimes actions)).map msg.event := by
  induction actions generalizing s cur with
  | nil => cases cur <;> rfl
  | cons a actions ih =>
    have ha := hspares a List.mem_cons_self
    have hrest : ∀ a ∈ actions, a.Spares msg := fun b hb => hspares b (List.mem_cons_of_mem a hb)
    have hkept' := hkept.step hadm.1
    rw [Resending.run, List.filter_append]
    by_cases hexec : ∃ now, a = .exec now
    · obtain ⟨now, rfl⟩ := hexec
      obtain ⟨hwaits, hevents⟩ := h.exec hkept now
      rw [ih hkept' hwaits hadm.2 hrest, step_policy hkept ha, execTimes]
      rw [show ((s.step (.exec now)).2.filter (·.key = msg.key)) = _ from hevents]
      cases cur with
      | none => simp
      | some t => cases htick : (s.policy.tick t now).2 <;> simp [Policy.run, htick]
    · have hexec' : ∀ now, a ≠ .exec now := fun now heq => hexec ⟨now, heq⟩
      have htimes : execTimes (a :: actions) = execTimes actions := by
        cases a with
        | exec now => exact absurd rfl (hexec' now)
        | _ => rfl
      rw [ih hkept' (h.step ha hexec') hadm.2 hrest, step_policy hkept ha, htimes,
        step_events hexec', List.filter_nil, List.nil_append]

/-! ### A message that does not wait -/

theorem Waits.of_sublist {s' : Resending} (h : Waits s msg none)
    (hsub : s'.linkedListResentMsgs.Sublist s.linkedListResentMsgs) : Waits s' msg none := by
  have hfilter := hsub.filter (fun m => decide (m.key = msg.key))
  rw [show s.linkedListResentMsgs.filter (·.key = msg.key) = [] from h] at hfilter
  exact List.sublist_nil.mp hfilter

theorem sendMsgRemove_sublist (src : SnNsdlAddr) (msgId : Nat) :
    (s.sendMsgRemove src msgId).linkedListResentMsgs.Sublist s.linkedListResentMsgs := by
  rw [Resending.sendMsgRemove]
  cases s.sendMsgSearch src msgId with
  | none => exact List.Sublist.refl _
  | some _ => exact List.eraseP_sublist

/-- What does not wait does not until it is stored. -/
theorem Waits.none_step (hkept : WellKept s) (h : Waits s msg none) {a : ResendAction}
    (hkey : a.key? ≠ some msg.key) : Waits (s.step a).1 msg none := by
  cases a with
  | build dst msgType packet uriPath =>
    refine h.build fun htype heq => hkey ?_
    rw [ResendAction.key?, if_pos htype, heq]
  | answered src msgType msgId =>
    simp only [Resending.step, Resending.answered]
    split
    · cases s.sendMsgSearch src msgId with
      | none => exact h
      | some _ => exact h.of_sublist (sendMsgRemove_sublist src msgId)
    · exact h
  | exec now => exact (h.exec hkept now).1
  | delete msgId =>
    simp only [Resending.step, Resending.deleteRetransmission]
    cases s.linkedListResentMsgs.find? (·.msgId == msgId) with
    | none => exact h
    | some _ => exact h.of_sublist List.eraseP_sublist
  | clear => exact h.of_sublist (List.nil_sublist _)
  | setParameters count intervall =>
    simp only [Resending.step, Resending.setRetransmissionParameters]
    split
    · exact h
    · exact h
  | setBuffer msgs bytes =>
    simp only [Resending.step, Resending.setRetransmissionBuffer]
    split
    · exact h
    · exact h

theorem Waits.none_run (hkept : WellKept s) (h : Waits s msg none) (hadm : s.Admitted actions)
    (hkey : ∀ a ∈ actions, a.key? ≠ some msg.key) : ∀ e ∈ (s.run actions).2, e.key ≠ msg.key := by
  induction actions generalizing s with
  | nil => exact fun e he => absurd he List.not_mem_nil
  | cons a actions ih =>
    intro e he
    have ha := hkey a List.mem_cons_self
    rcases List.mem_append.mp he with he | he
    · cases a with
      | exec now =>
        have hnone : (s.exec now).2.filter (·.key = msg.key) = [] := (h.exec hkept now).2
        simpa using List.filter_eq_nil_iff.mp hnone e he
      | _ => exact absurd he List.not_mem_nil
    · exact ih (hkept.step hadm.1) (h.none_step hkept ha) hadm.2
        (fun b hb => hkey b (List.mem_cons_of_mem a hb)) e he

/-- Its own address and ID remove the message, and no other. -/
theorem waits_none_sendMsgRemove (hkept : WellKept s) (hmem : msg ∈ s.linkedListResentMsgs) :
    Waits (s.sendMsgRemove msg.dstAddr msg.msgId) msg none ∧
      s.sendMsgSearch msg.dstAddr msg.msgId = some msg := by
  obtain ⟨before, after, hsplit⟩ := List.append_of_mem hmem
  have hapart := hkept.apart
  rw [hsplit] at hapart
  obtain ⟨-, htail, hcross⟩ := List.pairwise_append.mp hapart
  have hbefore : ∀ m ∈ before, m.Apart msg := fun m hm => hcross m hm msg List.mem_cons_self
  have hafter : ∀ m ∈ after, msg.Apart m := (List.pairwise_cons.mp htail).1
  have hnot : ∀ m ∈ before, ¬m.answeredBy msg.dstAddr msg.msgId = true := by
    intro m hm
    rw [(hbefore m hm).2]
    exact Bool.false_ne_true
  have hfind : s.sendMsgSearch msg.dstAddr msg.msgId = some msg := by
    rw [Resending.sendMsgSearch, hsplit, List.find?_append, List.find?_eq_none.mpr hnot]
    simp [msg.answeredBy_self]
  refine ⟨?_, hfind⟩
  have herase : (before ++ msg :: after).eraseP (·.answeredBy msg.dstAddr msg.msgId) =
      before ++ after := by
    rw [List.eraseP_append_right _ hnot]
    simp [msg.answeredBy_self]
  simp only [Resending.sendMsgRemove, hfind, hsplit, herase]
  refine List.filter_eq_nil_iff.mpr fun m hm => ?_
  rcases List.mem_append.mp hm with hm | hm
  · simpa using (hbefore m hm).key_ne
  · simpa using (hafter m hm).key_ne.symm

end OneMessage

/-! ## Main results -/

/-- The states of the runs in which each message that is stored is fresh. -/
def Resending.Reached : Resending → Prop :=
  ReachableBy (· = {}) (fun s a => some (s.step a).1) ResendAction.Fresh

theorem Resending.reached_init : Resending.Reached {} := .start rfl

theorem Resending.Reached.wellKept {s : Resending} (h : s.Reached) : WellKept s := by
  refine h.invariant WellKept ?_ ?_
  · rintro _ rfl
    exact wellKept_init
  · intro s s' a hkept hfresh hstep
    rw [← Option.some.inj hstep]
    exact hkept.step hfresh

theorem Resending.reached_run {s : Resending} (h : s.Reached) {actions : List ResendAction}
    (hadm : s.Admitted actions) : (s.run actions).1.Reached := by
  induction actions generalizing s with
  | nil => exact h
  | cons a actions ih => exact ih (h.next hadm.1 rfl) hadm.2

section Main

variable {s : Resending} {msg : CoapSendMsg} {actions : List ResendAction}

/-- **A message that waits is sent again on its own terms**, whatever is done about the others and
    in whatever order: at the first `sn_coap_protocol_exec` at which it is due, each time the
    interval doubled, up to the number of times that is set; and then it fails, once. -/
theorem Resending.Reached.resent (hs : s.Reached) (hmem : msg ∈ s.linkedListResentMsgs)
    (hadm : s.Admitted actions) (hspares : ∀ a ∈ actions, a.Spares msg) :
    (s.run actions).2.filter (·.key = msg.key) =
        (s.policy.run (some msg.timer) (execTimes actions)).map msg.event ∧
      s.policy.Spaced msg.timer (s.policy.run (some msg.timer) (execTimes actions)) :=
  ⟨(waits_of_mem hs.wellKept hmem).run hs.wellKept hadm hspares,
    Policy.run_spaced msg.timer (execTimes actions)⟩

/-- Two messages that wait, and what becomes of the second while the first is answered. -/
theorem Resending.Reached.resent_beside :
    ((Resending.run {} [.build ⟨[10, 0, 0, 1], 5683⟩ .confirmable [64, 1, 0, 7] [],
      .build ⟨[10, 0, 0, 2], 5683⟩ .confirmable [64, 1, 0, 8] []]).1.run
        [.exec 9, .exec 12, .answered ⟨[10, 0, 0, 1], 5683⟩ .acknowledgement 7, .exec 31,
          .exec 32]).2.filter (·.key = (⟨[10, 0, 0, 2], 5683⟩, 8)) =
      [.resent 12 [64, 1, 0, 8] ⟨[10, 0, 0, 2], 5683⟩,
        .resent 32 [64, 1, 0, 8] ⟨[10, 0, 0, 2], 5683⟩] :=
  (Resending.Reached.resent (Resending.reached_run Resending.reached_init (by decide))
    (show ⟨0, 10, [64, 1, 0, 8], ⟨[10, 0, 0, 2], 5683⟩, []⟩ ∈ _ by decide) (by decide)
    (by decide)).1.trans (by decide)

/-- **An answer stops a message**: once there has been an acknowledgement or a reset for it, from
    where it was sent, nothing is done about it until its address and ID are used again. -/
theorem Resending.Reached.silenced (hs : s.Reached) (hmem : msg ∈ s.linkedListResentMsgs)
    (hlen : s.linkedListResentMsgs.length < 2 ^ 16) {msgType : MsgType}
    (htype : msgType = .acknowledgement ∨ msgType = .reset)
    (hadm : s.Admitted (.answered msg.dstAddr msgType msg.msgId :: actions))
    (hkey : ∀ a ∈ actions, a.key? ≠ some msg.key) :
    ∀ e ∈ (s.run (.answered msg.dstAddr msgType msg.msgId :: actions)).2, e.key ≠ msg.key := by
  have hkept := hs.wellKept
  obtain ⟨hremoved, hfind⟩ := waits_none_sendMsgRemove hkept hmem
  have hcount : 0 < s.countResentMsgs := by
    rw [hkept.counted, Nat.mod_eq_of_lt hlen]
    exact List.length_pos_of_mem hmem
  have hwaits : Waits (s.step (.answered msg.dstAddr msgType msg.msgId)).1 msg none := by
    rw [Resending.step, Resending.answered, if_pos ⟨htype, hcount⟩, hfind]
    exact hremoved
  intro e he
  exact hwaits.none_run (hkept.step hadm.1) hadm.2 hkey e he

/-- The message that was answered is not sent again, and the other is. -/
theorem Resending.Reached.silenced_beside :
    ((Resending.run {} [.build ⟨[10, 0, 0, 1], 5683⟩ .confirmable [64, 1, 0, 7] [],
      .build ⟨[10, 0, 0, 2], 5683⟩ .confirmable [64, 1, 0, 8] []]).1.run
        [.answered ⟨[10, 0, 0, 1], 5683⟩ .reset 7, .exec 12]).2.filter
      (·.key = (⟨[10, 0, 0, 1], 5683⟩, 7)) = [] := by
  refine List.filter_eq_nil_iff.mpr fun e he => decide_eq_true_iff.not.mpr ?_
  exact Resending.Reached.silenced (Resending.reached_run Resending.reached_init (by decide))
    (show ⟨0, 10, [64, 1, 0, 7], ⟨[10, 0, 0, 1], 5683⟩, []⟩ ∈ _ by decide) (by decide) (.inr rfl)
    (by decide) (by decide) e he

end Main

end LibCoap
end LightDuer
