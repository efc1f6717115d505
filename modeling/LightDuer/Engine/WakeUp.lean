import LightDuer.Engine.Model

/-!
# No lost wake-up of the send queue

A message in the queue of a started connection needs somebody who will send it: a send event
posted or running, a caller on its way to post one, or a blocked transport that will notify.
`Sys.WokenBy` lists them. What can leave a message with none of them:

* A report whose message came into an empty queue reads the length of the queue after another
  message has joined its own. It leaves the send to a caller that does not ask for one either.
* A post of a send fails, for want of memory, or because the event queue is full.
* A send blocks after the socket thread has notified `SEND_RDY` and before it clears
  `is_send_block`. The flag of the new block is cleared with that of the old one.
* A start-up completes over messages that an earlier connection left behind: a failed send stops
  it, or it is stopped with its transport blocked, and what was queued stays queued.

The first three are steps of a started connection, `Watched.drops`. For the last one a run is
watched: `Watched.abandoned` records whether the queue has been given up since somebody asked for
a send. The guard `WakeGuard` names these steps by what the thread reads or meets there, and the
invariant is that a queue which has not been given up has somebody who attends to it. Of the
callers that is the one whose report opened the queue; one that reads the length behind it need
not ask.
-/

set_option autoImplicit false

namespace LightDuer
namespace Engine

open Lib

/-- Who will send what is in the queue. -/
inductive Waker where
  /-- a `duer_engine_send` posted to the event thread -/
  | event
  /-- the event thread, in `duer_engine_send` or its notification, unless that only reports
      that the send would block -/
  | worker
  /-- a caller between its push and its send request -/
  | caller (t : Thread)
  /-- the transport, send-blocked with its `SEND_RDY` to come, or in the callback for it and not
      past the post -/
  | transport
deriving DecidableEq, Repr

/-- The event thread is in a `duer_engine_send`, and not at its end because of a block. -/
def WorkerPc.running : WorkerPc → Bool
  | .idle | .notify .wouldBlock => false
  | _ => true

def Sys.WokenBy (s : Sys) : Waker → Prop
  | .event => .send ∈ s.events
  | .worker => s.worker.running = true
  | .caller t => s.callers t = .reported ∨ s.callers t = .sending
  | .transport =>
      (s.blocked = true ∧ (s.sock = .idle ∨ s.sock = .clearing)) ∨
        s.sock = .rdyAsk ∨ s.sock = .rdySend

/-- Messages wait on a started connection. -/
def Sys.Waiting (s : Sys) : Prop :=
  s.ca.isStarted = true ∧ s.queue ≠ []

instance (s : Sys) : Decidable s.Waiting := inferInstanceAs (Decidable (_ ∧ _))

/-- The engine, and what is remembered of the run that led to its state. -/
structure Watched where
  sys : Sys
  /-- the caller whose report opened the queue: its message came into an empty queue with no send
      posted or running, and nobody has asked for a send since -/
  opener : Option Thread
  /-- the queue has been given up since somebody last asked for a send -/
  abandoned : Bool

def Watched.init (w : Watched) : Prop :=
  w.sys.init ∧ w.opener = none ∧ w.abandoned = false

/-- Before the first step. -/
def Watched.created : Watched := ⟨.created, none, false⟩

theorem Watched.created_init : Watched.created.init := ⟨Sys.created_init, rfl, rfl⟩

/-- A send is asked for that does not get posted: by the caller that reads a length that is not
    its own message's, by a post that fails, or by a `SEND_RDY` that is forgotten. -/
def Watched.drops (w : Watched) : Act → Bool
  | .readLength t => w.opener = some t ∧ 1 < w.sys.queue.length
  | .postSend _ ok | .repost ok => !ok
  | .rdyPost ok => !ok ∧ w.sys.sock = .rdySend
  | .sendData _ .wouldBlock => w.sys.sock = .rdyStart ∨ w.sys.sock = .rdyClear
  | _ => false

/-- The connection goes with whoever would have sent: its send fails and asks for nothing, its
    blocked transport is closed, or the `SEND_RDY` is spent on a start. -/
def Sys.closes (s : Sys) : Act → Bool
  | .notify .failed => true
  | .stop | .sendTimeout | .dataAvailable .failed => s.blocked
  | .start _ .failed | .start _ (.count _ _) => !s.ca.isStarted && s.blocked
  | .rdyStarted => !s.ca.isStarted
  | _ => false

/-- The opener after a push by `t`. -/
def Watched.opened (w : Watched) (t : Thread) : Option Thread :=
  if w.sys.queue = [] ∧ .send ∉ w.sys.events ∧ w.sys.worker.running = false then some t
  else w.opener

/-- `duer_response` has pushed its message; it posts a send whatever is queued. -/
def Act.responds : Act → Bool
  | .response _ ok => ok
  | _ => false

/-- Nothing is queued after the step, or a send is asked for. -/
def Sys.Asked (s : Sys) (a : Act) : Prop :=
  (next s a).queue = [] ∨ .send ∈ (next s a).events ∨ a.responds = true

instance (s : Sys) (a : Act) : Decidable (s.Asked a) :=
  inferInstanceAs (Decidable (_ ∨ _ ∨ _))

def Watched.next (w : Watched) (a : Act) : Watched where
  sys := Engine.next w.sys a
  opener :=
    if w.sys.Asked a then none
    else match a with
      | .report n true => w.opened (.app n)
      | .reportAlive true => w.opened .timer
      | _ => w.opener
  abandoned :=
    if w.sys.Asked a then false else w.abandoned || w.drops a || w.sys.closes a

def watchedStep (w : Watched) (a : Act) : Option Watched :=
  if Enabled w.sys a then some (w.next a) else none

theorem watchedStep_eq_some {w w' : Watched} {a : Act} :
    watchedStep w a = some w' ↔ Enabled w.sys a ∧ w.next a = w' := by
  unfold watchedStep
  split <;> simp [*]

/-- The watching has no part in the run: every run of the engine can be watched. -/
theorem exists_watched {s : Sys} (h : Reachable Sys.init step s) :
    ∃ w, Reachable Watched.init watchedStep w ∧ w.sys = s := by
  induction h with
  | @start s hi => exact ⟨⟨s, none, false⟩, .start ⟨hi, rfl, rfl⟩, rfl⟩
  | @next s s' a _ _ hs ih =>
    obtain ⟨w, hw, rfl⟩ := ih
    obtain ⟨he, rfl⟩ := step_eq_some.mp hs
    exact ⟨w.next a, hw.next trivial (watchedStep_eq_some.mpr ⟨he, rfl⟩), rfl⟩

/-- The condition on the steps of a run. Where messages wait, no send that is asked for is dropped;
    and a start-up completes over no queue that has been given up. -/
def WakeGuard (w : Watched) : Act → Prop
  | .start _ (.ok _) | .dataAvailable (.ok _) =>
      w.sys.ca.isStarted = true ∨ w.abandoned = false
  | a => w.sys.Waiting → w.drops a = false

instance (w : Watched) (a : Act) : Decidable (WakeGuard w a) := by
  unfold WakeGuard
  split <;> infer_instance

/-! ## Who attends to the queue -/

/-- Who will send what is in the queue, whatever the lengths that callers read: of those that have
    yet to read it only the opener counts. -/
def Sys.AttendedBy (s : Sys) (opener : Option Thread) : Waker → Prop
  | .caller t => s.callers t = .sending ∨ (s.callers t = .reported ∧ opener = some t)
  | k => s.WokenBy k

/-- **The invariant**: a queue that has not been given up is attended to, and on a started
    connection it has not been given up. -/
structure Watched.Inv (w : Watched) : Prop where
  attended : w.abandoned = false → w.sys.queue ≠ [] → ∃ k, w.sys.AttendedBy w.opener k
  started : w.sys.ca.isStarted = true → w.abandoned = false

theorem Watched.Inv.initial {w : Watched} (h : w.init) : w.Inv :=
  ⟨fun _ hq => absurd h.1.2.1 hq, fun _ => h.2.2⟩

section Attended

variable {s s' : Sys} {o : Option Thread} {k : Waker}

/-- Whoever attends stays where nothing is taken from them. -/
theorem Sys.AttendedBy.mono (h : s.AttendedBy o k) (hev : .send ∈ s.events → .send ∈ s'.events)
    (hw : s.worker.running = true → s'.worker.running = true) (hc : s'.callers = s.callers)
    (ht : s.WokenBy .transport → s'.WokenBy .transport) : s'.AttendedBy o k := by
  cases k with
  | event => exact hev h
  | worker => exact hw h
  | caller t => simpa only [Sys.AttendedBy, hc] using h
  | transport => exact ht h

/-- A post leaves everybody where they are. -/
theorem Sys.AttendedBy.post (h : s.AttendedBy o k) (e : Ev) (ok : Bool) :
    (s.post e ok).AttendedBy o k := by
  unfold Sys.post
  split
  · exact h.mono (List.mem_append_left _) id rfl id
  · exact h

/-- A caller that does not attend moves on. -/
theorem Sys.AttendedBy.setCaller (h : s.AttendedBy o k) {t : Thread} (hk : k ≠ .caller t)
    (pc : CallerPc) : (s.setCaller t pc).AttendedBy o k := by
  cases k with
  | caller t' =>
    have hne : t' ≠ t := fun heq => hk (by rw [heq])
    simpa only [Sys.AttendedBy, Sys.setCaller_of_ne s hne] using h
  | event | worker | transport => exact h

/-- One that is neither about to read the length nor about to post does not attend. -/
theorem Sys.AttendedBy.ne_caller (h : s.AttendedBy o k) {t : Thread}
    (ht : s.callers t ≠ .sending ∧ s.callers t ≠ .reported) : k ≠ .caller t := by
  rintro rfl
  exact h.elim ht.1 fun hr => ht.2 hr.1

/-- The event thread takes an event that is not a send. -/
theorem Sys.AttendedBy.dropEvent (h : s.AttendedBy o k) {e : Ev} (he : s.events.head? = some e)
    (hne : e ≠ .send) : ({ s with events := s.events.tail } : Sys).AttendedBy o k :=
  h.mono (send_mem_tail he hne) id rfl id

/-- A transport that is blocked, and no longer so once the connection is stopped. -/
theorem Sys.AttendedBy.stop (h : s.AttendedBy o k) (hb : s.blocked = false) :
    (duerEngineStop s).AttendedBy o k := by
  unfold duerEngineStop
  split
  · exact h
  · refine h.mono id id rfl fun ht => ?_
    exact .inr (ht.resolve_left fun h => absurd h.1 (by simp [hb]))

/-- A start-up may block its transport on the way. -/
theorem Sys.WokenBy.block {b : Bool} (h : s.WokenBy .transport)
    (hb : s'.blocked = (s.blocked || b)) (hsock : s'.sock = s.sock) : s'.WokenBy .transport := by
  rcases h with ⟨hblocked, hs⟩ | hs
  · exact .inl ⟨by rw [hb, hblocked, Bool.true_or], by rw [hsock]; exact hs⟩
  · exact .inr (by rw [hsock]; exact hs)

theorem Sys.AttendedBy.start (h : s.AttendedBy o k) (profile : Bool) {rs : CaResult}
    (hc : s.closes (.start profile rs) = false) :
    (duerEngineStart s profile rs).AttendedBy o k := by
  unfold duerEngineStart
  split
  · exact h
  · rename_i hns
    have hns : s.ca.isStarted = false := by simpa using hns
    cases rs with
    | ok b => exact h.mono id id rfl fun ht => ht.block rfl rfl
    | wouldBlock st b => exact h.mono id id rfl fun ht => ht.block rfl rfl
    | count st b | failed =>
      have hb : s.blocked = false := by simpa [Sys.closes, hns] using hc
      have hstop := Sys.AttendedBy.stop (s := { s with ca := .unregistered })
        (h.mono id id rfl id) hb
      exact hstop.mono id id rfl id

theorem Sys.AttendedBy.dataAvailable (h : s.AttendedBy o k) {rs : CaResult}
    (hc : s.closes (.dataAvailable rs) = false) :
    (duerEngineDataAvailable s rs).AttendedBy o k := by
  unfold duerEngineDataAvailable
  split
  · exact h
  · cases rs with
    | ok b | count st b =>
      by_cases hs : s.ca.isStarted = true
      · simp only [if_pos hs]
        exact h.mono id id rfl fun ht => ht.block rfl rfl
      · simp only [if_neg hs]
        exact h.mono id id rfl fun ht => ht.block rfl rfl
    | wouldBlock st b => exact h.mono id id rfl fun ht => ht.block rfl rfl
    | failed => exact h.stop hc

end Attended

/-! ## Steps

What a step does to those who attend, one lemma for each of the threads. A step that asks for a send
or empties the queue needs none of them. -/

section Steps

variable {w : Watched} {k : Waker}

/-- Somebody attends to the queue after the step. -/
def Watched.AttendedNext (w : Watched) (a : Act) : Prop :=
  ∃ k, (Engine.next w.sys a).AttendedBy (w.next a).opener k

/-- Whoever attends to the queue behind a step that opens it for nobody. -/
theorem Watched.AttendedNext.of_attended {a : Act} (hna : ¬ w.sys.Asked a)
    (hopen : ∀ n, a ≠ .report n true) (hopen' : a ≠ .reportAlive true)
    (h : (Engine.next w.sys a).AttendedBy w.opener k) : w.AttendedNext a := by
  have hopener : (w.next a).opener = w.opener := by
    simp only [Watched.next, if_neg hna]
  exact ⟨k, hopener ▸ h⟩

/-- The event thread in the middle of a send. -/
theorem Watched.AttendedNext.of_running {a : Act}
    (h : (Engine.next w.sys a).worker.running = true) : w.AttendedNext a :=
  ⟨.worker, h⟩

/-- A report pushes: onto a queue that is attended to, or its caller opens the queue. -/
theorem attended_push {t : Thread} (ht : w.sys.callers t ≠ .sending ∧ w.sys.callers t ≠ .reported)
    (h : w.sys.queue ≠ [] → ∃ k, w.sys.AttendedBy w.opener k) :
    ∃ k, (w.sys.push.setCaller t .reported).AttendedBy (w.opened t) k := by
  by_cases hopen : w.sys.queue = [] ∧ .send ∉ w.sys.events ∧ w.sys.worker.running = false
  · refine ⟨.caller t, .inr ⟨Sys.setCaller_self .., ?_⟩⟩
    rw [Watched.opened, if_pos hopen]
  · obtain ⟨k, hk⟩ : ∃ k, w.sys.AttendedBy w.opener k := by
      by_cases hq : w.sys.queue = []
      · by_cases hsend : .send ∈ w.sys.events
        · exact ⟨.event, hsend⟩
        · exact ⟨.worker, (Bool.not_eq_false _).mp fun hw => hopen ⟨hq, hsend, hw⟩⟩
      · exact h hq
    refine ⟨k, ?_⟩
    rw [Watched.opened, if_neg hopen]
    exact Sys.AttendedBy.setCaller (s := w.sys.push) (hk.mono id id rfl id) (hk.ne_caller ht) _

theorem attendedNext_caller {a : Act} (ha : a.ofCaller = true) (he : Enabled w.sys a)
    (hna : ¬ w.sys.Asked a) (hd : w.drops a = false)
    (h : w.sys.queue ≠ [] → ∃ k, w.sys.AttendedBy w.opener k) : w.AttendedNext a := by
  have hq' : (next w.sys a).queue ≠ [] := fun hq => hna (.inl hq)
  cases a with
  | report n ok =>
    have hidle : w.sys.callers (.app n) = .idle := he
    cases ok with
    | true =>
      have hopener : (w.next (.report n true)).opener = w.opened (.app n) := by
        simp only [Watched.next, if_neg hna]
      obtain ⟨k, hk⟩ := attended_push (t := .app n) (by simp [hidle]) h
      exact ⟨k, by rw [hopener]; exact hk⟩
    | false =>
      obtain ⟨k, hk⟩ := h hq'
      exact .of_attended hna (by simp) (by simp) hk
  | response n ok =>
    cases ok with
    | true => exact absurd (.inr (.inr rfl)) hna
    | false =>
      obtain ⟨k, hk⟩ := h hq'
      exact .of_attended hna (by simp) (by simp) hk
  | readLength t =>
    by_cases hlen : w.sys.queue.length = 1
    · refine .of_attended (k := .caller t) hna (by simp) (by simp) (.inl ?_)
      simp only [next, if_pos hlen, Sys.setCaller_self]
    · obtain ⟨k, hk⟩ := h hq'
      -- the queue is longer, so this caller is not the one that opened it
      have hlong : 1 < w.sys.queue.length := by
        have hpos := List.length_pos_iff.mpr (show w.sys.queue ≠ [] from hq')
        omega
      have hopener : w.opener ≠ some t := by simpa [Watched.drops, hlong] using hd
      have hreported : w.sys.callers t = .reported := he
      have hne : k ≠ .caller t := by
        rintro rfl
        rcases hk with hs | ⟨-, ho⟩
        · exact absurd (hreported.symm.trans hs) (by simp)
        · exact hopener ho
      exact .of_attended hna (by simp) (by simp) (hk.setCaller hne _)
  | postSend t ok =>
    cases ok with
    | true => exact absurd (.inr (.inl (List.mem_append_right _ (List.mem_singleton.mpr rfl)))) hna
    | false => exact absurd hd (by simp [Watched.drops])
  | apiStart ok | apiStartEmpty ok | apiStop ok | recvRdy ok =>
    obtain ⟨k, hk⟩ := h (by cases ok <;> exact hq')
    exact .of_attended hna (by simp) (by simp) (hk.post _ ok)
  | fire =>
    obtain ⟨k, hk⟩ := h hq'
    have hmove := hk.setCaller (hk.ne_caller (t := .timer) (by simp [he.2])) .fired
    exact .of_attended hna (by simp) (by simp) (hmove.mono id id rfl id)
  | checkStarted =>
    obtain ⟨k, hk⟩ := h hq'
    have hfired : w.sys.callers .timer = .fired := he
    exact .of_attended hna (by simp) (by simp)
      (hk.setCaller (hk.ne_caller (t := .timer) (by simp [hfired])) _)
  | reportAlive ok =>
    have halive : w.sys.callers .timer = .alive := he
    cases ok with
    | true =>
      have hopener : (w.next (.reportAlive true)).opener = w.opened .timer := by
        simp only [Watched.next, if_neg hna]
      obtain ⟨k, hk⟩ := attended_push (t := .timer) (by simp [halive]) h
      exact ⟨k, by rw [hopener]; exact hk⟩
    | false =>
      obtain ⟨k, hk⟩ := h hq'
      exact .of_attended hna (by simp) (by simp)
        (hk.setCaller (hk.ne_caller (t := .timer) (by simp [halive])) .idle)
  | postRestart ok =>
    obtain ⟨k, hk⟩ := h (by cases ok <;> exact hq')
    have hrestart : w.sys.callers .timer = .restart := he
    have hpost := hk.post (.start false) ok
    refine .of_attended hna (by simp) (by simp) (hpost.setCaller (hpost.ne_caller ?_) .idle)
    cases ok <;> simp [Sys.post, hrestart]
  | _ => exact absurd ha Bool.false_ne_true

theorem attendedNext_connection {a : Act} (ha : a.ofConnection = true) (he : Enabled w.sys a)
    (hna : ¬ w.sys.Asked a) (hc : w.sys.closes a = false)
    (h : w.sys.queue ≠ [] → ∃ k, w.sys.AttendedBy w.opener k) : w.AttendedNext a := by
  have hq' : (next w.sys a).queue ≠ [] := fun hq => hna (.inl hq)
  cases a with
  | start profile rs =>
    obtain ⟨k, hk⟩ := h fun hq => hq' ((SameWork.duerEngineStart _ profile rs).queue.trans hq)
    exact .of_attended hna (by simp) (by simp) ((hk.dropEvent he.2.1 (by simp)).start profile hc)
  | dataAvailable rs =>
    obtain ⟨k, hk⟩ := h fun hq => hq' ((SameWork.duerEngineDataAvailable _ rs).queue.trans hq)
    exact .of_attended hna (by simp) (by simp) ((hk.dropEvent he.2.1 (by simp)).dataAvailable hc)
  | stop =>
    obtain ⟨k, hk⟩ := h fun hq => hq' ((SameWork.duerEngineStop _).queue.trans hq)
    exact .of_attended hna (by simp) (by simp) ((hk.dropEvent he.2 (by simp)).stop hc)
  | _ => exact absurd ha Bool.false_ne_true

theorem attendedNext_send {a : Act} (ha : a.ofSend = true) (he : Enabled w.sys a)
    (hna : ¬ w.sys.Asked a) (hd : w.drops a = false) (hc : w.sys.closes a = false)
    (h : w.sys.queue ≠ [] → ∃ k, w.sys.AttendedBy w.opener k) : w.AttendedNext a := by
  cases a with
  | take | stopTimer | startTimer m | log m | release m | pop m => exact .of_running rfl
  | checkStopped | readTop =>
    refine .of_running ?_
    simp only [next]
    split <;> rfl
  | sendData m status =>
    cases status with
    | ok | failed => exact .of_running rfl
    | wouldBlock =>
      -- the socket thread is not on its way to clear the flag
      refine ⟨.transport, ?_⟩
      have hsock : w.sys.sock ≠ .rdyStart ∧ w.sys.sock ≠ .rdyClear := by
        simpa [Watched.drops] using hd
      cases hs : w.sys.sock with
      | idle => exact .inl ⟨rfl, .inl hs⟩
      | clearing => exact .inl ⟨rfl, .inr hs⟩
      | rdyAsk => exact .inr (.inl hs)
      | rdySend => exact .inr (.inr hs)
      | rdyStart => exact absurd hs hsock.1
      | rdyClear => exact absurd hs hsock.2
  | notify status =>
    have hpc : w.sys.worker = .notify status := he
    cases status with
    | ok =>
      have hlen : 0 < w.sys.queue.length := List.length_pos_iff.mpr fun hq => hna (.inl hq)
      exact .of_running (by simp only [next, if_pos hlen]; rfl)
    | wouldBlock =>
      -- the event thread was not counted on
      obtain ⟨k, hk⟩ := h fun hq => hna (.inl hq)
      refine .of_attended hna (by simp) (by simp) (hk.mono id (fun hw => ?_) rfl id)
      rw [hpc] at hw
      exact absurd hw Bool.false_ne_true
    | failed => exact absurd hc (by simp [Sys.closes])
  | repost ok =>
    cases ok with
    | true => exact absurd (.inr (.inl (List.mem_append_right _ (List.mem_singleton.mpr rfl)))) hna
    | false => exact absurd hd (by simp [Watched.drops])
  | _ => exact absurd ha Bool.false_ne_true

theorem attendedNext_socket {a : Act} (ha : a.ofSocket = true) (he : Enabled w.sys a)
    (hna : ¬ w.sys.Asked a) (hd : w.drops a = false) (hc : w.sys.closes a = false)
    (h : w.sys.queue ≠ [] → ∃ k, w.sys.AttendedBy w.opener k) : w.AttendedNext a := by
  have hq' : (next w.sys a).queue ≠ [] := fun hq => hna (.inl hq)
  cases a with
  | sendRdy => exact ⟨.transport, .inr (.inl rfl)⟩
  | rdyStarted =>
    have hs : w.sys.ca.isStarted = true := by simpa [Sys.closes] using hc
    exact ⟨.transport, .inr (.inr (by simp only [next, if_pos hs]))⟩
  | rdyPost ok =>
    rcases he with hsock | hsock
    · cases ok with
      | true =>
        refine absurd (.inr (.inl ?_)) hna
        simp only [next, if_pos hsock]
        exact List.mem_append_right _ (List.mem_singleton.mpr rfl)
      | false => exact absurd hd (by simp [Watched.drops, hsock])
    · obtain ⟨k, hk⟩ := h (by cases ok <;> exact hq')
      have hpost := hk.post (.start false) ok
      refine .of_attended (k := k) hna (by simp) (by simp) ?_
      simp only [next, hsock, reduceCtorEq, if_false]
      refine hpost.mono id id rfl fun ht => ?_
      cases ok <;> simp [Sys.WokenBy, Sys.post, hsock] at ht
  | rdyDone =>
    obtain ⟨k, hk⟩ := h hq'
    have hsock : w.sys.sock = .rdyClear := he
    refine .of_attended hna (by simp) (by simp) (hk.mono id id rfl fun ht => ?_)
    simp [Sys.WokenBy, hsock] at ht
  | sendTimeout => exact absurd hc (by simp [Sys.closes, he.2])
  | clear => exact absurd rfl hq'
  | _ => exact absurd ha Bool.false_ne_true

/-- Only a start-up that completes starts a connection. -/
theorem isStarted_of_next {s : Sys} {a : Act} (he : Enabled s a)
    (h : (next s a).ca.isStarted = true) : s.ca.isStarted = true ∨
      (∃ profile b, a = .start profile (.ok b)) ∨ ∃ b, a = .dataAvailable (.ok b) := by
  by_cases hs : s.ca.isStarted = true
  · exact .inl hs
  have hstop : ∀ s : Sys, (duerEngineStop s).ca.isStarted = false := duerEngineStop_not_started
  by_cases hspared : a.sparesAgent = true
  · exact .inl (next_ca hspared ▸ h)
  cases a with
  | start profile rs =>
    cases rs with
    | ok b => exact .inr (.inl ⟨profile, b, rfl⟩)
    | wouldBlock st b =>
      simp only [next, duerEngineStart, if_neg hs] at h
      exact absurd h (by simp [CaResult.not_started_of_valid he.2.2])
    | count st b | failed =>
      simp only [next, duerEngineStart, if_neg hs] at h
      exact absurd h (by simp [hstop])
  | dataAvailable rs =>
    by_cases hstopped : s.ca.isStopped = true
    · rw [next_dataAvailable_stopped hstopped] at h
      exact absurd h hs
    · cases rs with
      | ok b => exact .inr (.inr ⟨b, rfl⟩)
      | wouldBlock st b =>
        simp only [next, duerEngineDataAvailable, if_neg hstopped, if_neg hs] at h
        exact absurd h (by simp [CaResult.not_started_of_valid he.2.2])
      | count st b =>
        simp only [next, duerEngineDataAvailable, if_neg hstopped, if_neg hs] at h
        exact absurd h (by simp [CaResult.not_started_of_valid (b := b) he.2.2])
      | failed =>
        simp only [next, duerEngineDataAvailable, if_neg hstopped] at h
        exact absurd h (by simp [hstop])
  | stop | sendTimeout => exact absurd h (by simp [next, hstop])
  | notify status =>
    cases status with
    | failed => exact absurd h (by simp [next, hstop])
    | ok | wouldBlock => exact absurd rfl hspared
  | _ => exact absurd rfl hspared

/-- A connection that closes is not started after that. -/
theorem not_started_of_closes {s : Sys} {a : Act} (hc : s.closes a = true) :
    (next s a).ca.isStarted = false := by
  have hstop : ∀ s : Sys, (duerEngineStop s).ca.isStarted = false := duerEngineStop_not_started
  cases a with
  | notify status =>
    cases status with
    | failed => exact hstop _
    | ok | wouldBlock => exact absurd hc Bool.false_ne_true
  | stop | sendTimeout => exact hstop _
  | start profile rs =>
    cases rs with
    | ok b | wouldBlock st b => exact absurd hc Bool.false_ne_true
    | count st b | failed =>
      have hns : ¬ s.ca.isStarted = true := by
        intro hs
        simp [Sys.closes, hs] at hc
      simp only [next, duerEngineStart, if_neg hns]
      exact hstop _
  | dataAvailable rs =>
    cases rs with
    | failed =>
      by_cases hstopped : s.ca.isStopped = true
      · rw [next_dataAvailable_stopped hstopped]
        exact CaState.not_started_of_stopped hstopped
      · simp only [next, duerEngineDataAvailable, if_neg hstopped]
        exact hstop _
    | _ => exact absurd hc Bool.false_ne_true
  | rdyStarted =>
    rw [next_ca rfl]
    simpa [Sys.closes] using hc
  | _ => exact absurd hc Bool.false_ne_true

/-- A step that drops a send leaves the queue as it is. -/
theorem queue_of_drops {a : Act} (hd : w.drops a = true) : (next w.sys a).queue = w.sys.queue := by
  cases a with
  | readLength t => rfl
  | postSend t ok | repost ok | rdyPost ok => cases ok <;> rfl
  | sendData m status => cases status <;> rfl
  | _ => exact absurd hd Bool.false_ne_true

/-- The guard of a step other than the end of a start-up. -/
theorem WakeGuard.drops {a : Act} (h : WakeGuard w a) (hwait : w.sys.Waiting) :
    w.drops a = false := by
  unfold WakeGuard at h
  split at h
  · rfl
  · rfl
  · exact h hwait

/-- What attends after a step of any thread. -/
theorem attendedNext {a : Act} (he : Enabled w.sys a) (hna : ¬ w.sys.Asked a)
    (hd : w.drops a = false) (hc : w.sys.closes a = false)
    (h : w.sys.queue ≠ [] → ∃ k, w.sys.AttendedBy w.opener k) : w.AttendedNext a := by
  rcases a.threads with ha | ha | ha | ha
  · exact attendedNext_caller ha he hna hd h
  · exact attendedNext_connection ha he hna hc h
  · exact attendedNext_send ha he hna hd hc h
  · exact attendedNext_socket ha he hna hd hc h

end Steps

/-- **Every step that meets the guard keeps the invariant.** -/
theorem Watched.Inv.next {w : Watched} {a : Act} (h : w.Inv) (hg : WakeGuard w a)
    (he : Enabled w.sys a) : (w.next a).Inv := by
  by_cases hasked : w.sys.Asked a
  · have hkept : (w.next a).abandoned = false := by simp only [Watched.next, if_pos hasked]
    refine ⟨fun _ hq => ?_, fun _ => hkept⟩
    rcases hasked with hempty | hsend | hresponds
    · exact absurd hempty hq
    · exact ⟨.event, hsend⟩
    · cases a with
      | response n ok =>
        obtain rfl : ok = true := hresponds
        exact ⟨.caller (.app n), .inl (Sys.setCaller_self ..)⟩
      | _ => exact absurd hresponds Bool.false_ne_true
  · have hnext : (w.next a).abandoned = (w.abandoned || w.drops a || w.sys.closes a) := by
      simp only [Watched.next, if_neg hasked]
    refine ⟨fun hkept _ => ?_, fun hs => ?_⟩
    · rw [hnext, Bool.or_eq_false_iff, Bool.or_eq_false_iff] at hkept
      obtain ⟨⟨hbefore, hd⟩, hc⟩ := hkept
      exact attendedNext he hasked hd hc (h.attended hbefore)
    · -- the connection is up, so the step did not close it
      have hc : w.sys.closes a = false := by
        by_contra hcloses
        have hns := not_started_of_closes ((Bool.not_eq_false _).mp hcloses)
        exact absurd hs (by simp [Watched.next, hns])
      have hd : w.drops a = false := by
        by_contra hdrops
        have hdrops := (Bool.not_eq_false _).mp hdrops
        have hq : w.sys.queue ≠ [] := fun hq => hasked (.inl ((queue_of_drops hdrops).trans hq))
        rcases isStarted_of_next he hs with hup | ⟨profile, b, rfl⟩ | ⟨b, rfl⟩
        · exact absurd (hg.drops ⟨hup, hq⟩) (by simp [hdrops])
        · exact absurd hdrops Bool.false_ne_true
        · exact absurd hdrops Bool.false_ne_true
      have hbefore : w.abandoned = false := by
        rcases isStarted_of_next he hs with hup | ⟨profile, b, rfl⟩ | ⟨b, rfl⟩
        · exact h.started hup
        · exact hg.elim h.started id
        · exact hg.elim h.started id
      rw [hnext, hbefore, hd, hc]
      rfl

/-! ## Runs -/

/-- **A block between the callback and the clearing of the flag is forgotten.** The send that
    `SEND_RDY` asks for blocks again before the socket thread is back from the callback; then the
    flag is cleared, and no `SEND_RDY` is to come for the message. -/
theorem lost_wakeUp_forgotten_block :
    ∃ s, Reachable Sys.init step s ∧ s.ca.isStarted = true ∧ s.queue = [0] ∧
      .send ∉ s.events ∧ s.worker = .idle ∧
      (∀ t, s.callers t ≠ .reported ∧ s.callers t ≠ .sending) ∧
      s.blocked = false ∧ s.sock = .idle := by
  obtain ⟨s, hrun, hs⟩ : ∃ s, runFrom step .created [.apiStart true, .start true (.ok false),
      .report 0 true, .readLength (.app 0), .postSend (.app 0) true,
      .take, .checkStopped, .stopTimer, .readTop, .sendData 0 .wouldBlock, .notify .wouldBlock,
      .sendRdy, .rdyStarted, .rdyPost true,
      .take, .checkStopped, .stopTimer, .readTop, .sendData 0 .wouldBlock, .notify .wouldBlock,
      .rdyDone] = some s ∧
      s.ca.isStarted = true ∧ s.queue = [0] ∧ .send ∉ s.events ∧ s.worker = .idle ∧
      s.callers = Function.update (Function.update (Function.update
        (fun _ => .idle) (.app 0) .reported) (.app 0) .sending) (.app 0) .idle ∧
      s.blocked = false ∧ s.sock = .idle :=
    ⟨_, rfl, rfl, rfl, by decide, rfl, rfl, rfl, rfl⟩
  obtain ⟨hst, hq, hev, hw, hc, hb, hsock⟩ := hs
  refine ⟨s, reachable_of_runFrom _ (.start Sys.created_init) hrun, hst, hq, hev, hw, ?_, hb, hsock⟩
  intro t
  rw [hc]
  by_cases h₀ : t = .app 0 <;> simp [h₀]

end Engine
end LightDuer
