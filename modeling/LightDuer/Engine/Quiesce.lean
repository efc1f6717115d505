import LightDuer.Engine.Model

/-!
# The event thread of a stopped connection

`duer_engine_send` on a stopped connection does nothing and reports success, and after a success the
notification posts another send while anything is queued. So a send event and a message left in the
queue keep the event thread busy for ever, and nothing else does: `Sys.Reposting` says when both are
there. Only the steps of the event thread are considered, with no caller, timer or socket in
between.

## What can go on for ever

Quiet means that there is no endless sequence of such steps. An endless one is built from
`Sys.Reposting.step`: where a send is posted, or runs and is going to report success, and something
will be left in the queue for it to find, some step of the event thread leads to a state of the same
kind. The events in front of the send are taken first; a start among them is taken to fail, as a
start on a stopped connection can.

## What comes to rest

For the other direction `Sys.Resting` is the opposite in a form that the steps keep: nothing is left
to send, or no send is posted and the one that may be running cannot succeed. Every step keeps it
and makes `Sys.work` smaller, which counts ten for each event that is posted, and the steps to the
end of a send that runs; the one that posts a send again costs more than that send. So an event
thread at rest has a bound on what it still does. The steps of a send have one lemma each.

`quiesces_iff` puts both together, for every state of a stopped connection, reachable or not: the
event thread processes finitely many events if and only if no send posts itself. A report on a
stopped connection is enough to make it run for ever.
-/

set_option autoImplicit false

namespace LightDuer
namespace Engine

open Lib

/-- The actions of the event thread. -/
def Act.isEventThread : Act → Bool
  | .start _ _ | .dataAvailable _ | .stop | .take | .checkStopped | .stopTimer | .readTop
  | .sendData _ _ | .startTimer _ | .log _ | .release _ | .pop _ | .notify _ | .repost _ => true
  | _ => false

def EventStep (s s' : Sys) : Prop :=
  ∃ a : Act, a.isEventThread = true ∧ step s a = some s'

/-- In a `duer_engine_send` whose message has been sent and is yet to be popped. -/
def WorkerPc.popping : WorkerPc → Bool
  | .sent _ | .armed _ | .logged _ | .released _ => true
  | _ => false

/-- The event thread is on its way to a notification of success. -/
def WorkerPc.succeeding : WorkerPc → Bool
  | .entered | .notify .ok | .post => true
  | pc => pc.popping

/-- What is queued once the send that runs is over. -/
def Sys.left (s : Sys) : List Nat :=
  if s.worker.popping then s.queue.tail else s.queue

/-- A send is posted, or runs and will report success. -/
def Sys.SendPending (s : Sys) : Prop :=
  .send ∈ s.events ∨ s.worker.succeeding = true

/-- **Sends that post themselves again**: one of them and a message for it to find. Both are told
    from a single state: what the running send will have popped counts as gone, and a send that has
    yet to notify a success counts as one that is posted. -/
def Sys.Reposting (s : Sys) : Prop :=
  s.left ≠ [] ∧ s.SendPending

/-! ## A send that posts itself for ever -/

section Endless

variable {s : Sys}

theorem Sys.left_eq (h : s.worker.popping = false) : s.left = s.queue := by
  rw [Sys.left, h]
  rfl

/-- A start that fails leaves a stopped connection stopped. -/
theorem next_start_failed (hca : s.ca.isStopped = true) (profile : Bool) :
    next s (.start profile .failed) = { s with
      ca := .stoped, events := s.events.tail, blocked := false
      startTimeout := if profile then duerStartTimeout else s.startTimeout } := by
  simp [next, duerEngineStart, CaState.not_started_of_stopped hca, duerEngineStop,
    CaState.isStopped]

/-- Some step of the event thread leaves the connection stopped and the send posting itself. -/
theorem Sys.Reposting.step (hca : s.ca.isStopped = true) (h : s.Reposting) :
    ∃ s', EventStep s s' ∧ s'.ca.isStopped = true ∧ s'.Reposting := by
  obtain ⟨hleft, hpending⟩ := h
  have hposted (hw : s.worker.succeeding = false) : .send ∈ s.events :=
    hpending.resolve_right (by simp [hw])
  -- by the place of the event thread: the queue only loses the message being popped
  cases hw : s.worker with
  | idle =>
    rw [Sys.left_eq (by rw [hw]; rfl)] at hleft
    have hsend : .send ∈ s.events := hposted (by rw [hw]; rfl)
    obtain ⟨e, rest, hev⟩ := List.exists_cons_of_ne_nil (List.ne_nil_of_mem hsend)
    have hhead : s.events.head? = some e := by rw [hev]; rfl
    have hkept {s' : Sys} (hne : e ≠ .send) (hw' : s'.worker = s.worker)
        (hq : s'.queue = s.queue) (hev : s'.events = s.events.tail) : s'.Reposting := by
      refine ⟨?_, .inl (hev ▸ send_mem_tail hhead hne hsend)⟩
      rw [Sys.left_eq (by rw [hw', hw]; rfl), hq]
      exact hleft
    cases e with
    | send => exact ⟨_, ⟨.take, rfl, step_eq_some.mpr ⟨⟨hw, hhead⟩, rfl⟩⟩, hca, hleft, .inr rfl⟩
    | start profile =>
      -- it fails, and its notification stops the connection again
      refine ⟨_, ⟨.start profile .failed, rfl, step_eq_some.mpr ⟨⟨hw, hhead, rfl⟩, rfl⟩⟩, ?_⟩
      rw [next_start_failed hca]
      exact ⟨rfl, hkept (by simp) rfl rfl rfl⟩
    | dataAvailable =>
      refine ⟨_, ⟨.dataAvailable .failed, rfl, step_eq_some.mpr ⟨⟨hw, hhead, rfl⟩, rfl⟩⟩, ?_⟩
      rw [next_dataAvailable_stopped hca]
      exact ⟨hca, hkept (by simp) rfl rfl rfl⟩
    | stop =>
      refine ⟨_, ⟨.stop, rfl, step_eq_some.mpr ⟨⟨hw, hhead⟩, rfl⟩⟩, ?_⟩
      rw [next_stop_stopped hca]
      exact ⟨hca, hkept (by simp) rfl rfl rfl⟩
  | entered =>
    rw [Sys.left, hw] at hleft
    refine ⟨_, ⟨.checkStopped, rfl, step_eq_some.mpr ⟨hw, rfl⟩⟩, ?_⟩
    simp only [next, if_pos hca]
    exact ⟨hca, hleft, .inr rfl⟩
  | stopTimer =>
    rw [Sys.left, hw] at hleft
    exact ⟨_, ⟨.stopTimer, rfl, step_eq_some.mpr ⟨hw, rfl⟩⟩, hca, hleft,
      .inl (hposted (by rw [hw]; rfl))⟩
  | top =>
    rw [Sys.left_eq (by rw [hw]; rfl)] at hleft
    obtain ⟨m, rest, hq⟩ := List.exists_cons_of_ne_nil hleft
    refine ⟨_, ⟨.readTop, rfl, step_eq_some.mpr ⟨hw, rfl⟩⟩, hca, ?_,
      .inl (hposted (by rw [hw]; rfl))⟩
    simp [next, hq, Sys.left, WorkerPc.popping]
  | holding m =>
    -- the agent has no handle, so the message stays queued
    rw [Sys.left, hw] at hleft
    exact ⟨_, ⟨.sendData m .failed, rfl, step_eq_some.mpr ⟨⟨hw, fun _ => rfl⟩, rfl⟩⟩, hca, hleft,
      .inl (hposted (by rw [hw]; rfl))⟩
  | sent m =>
    rw [Sys.left, hw] at hleft
    exact ⟨_, ⟨.startTimer m, rfl, step_eq_some.mpr ⟨hw, rfl⟩⟩, hca, hleft, .inr rfl⟩
  | armed m =>
    rw [Sys.left, hw] at hleft
    exact ⟨_, ⟨.log m, rfl, step_eq_some.mpr ⟨hw, rfl⟩⟩, hca, hleft, .inr rfl⟩
  | logged m =>
    rw [Sys.left, hw] at hleft
    exact ⟨_, ⟨.release m, rfl, step_eq_some.mpr ⟨hw, rfl⟩⟩, hca, hleft, .inr rfl⟩
  | released m =>
    rw [Sys.left, hw] at hleft
    exact ⟨_, ⟨.pop m, rfl, step_eq_some.mpr ⟨hw, rfl⟩⟩, hca, hleft, .inr rfl⟩
  | notify status =>
    refine ⟨_, ⟨.notify status, rfl, step_eq_some.mpr ⟨hw, rfl⟩⟩, ?_⟩
    rw [Sys.left_eq (by rw [hw]; rfl)] at hleft
    cases status with
    | ok =>
      simp only [next, if_pos (List.length_pos_iff.mpr hleft)]
      exact ⟨hca, hleft, .inr rfl⟩
    | wouldBlock => exact ⟨hca, hleft, .inl (hposted (by rw [hw]; rfl))⟩
    | failed =>
      simp only [next, duerEngineStop_of_stopped hca]
      exact ⟨hca, hleft, .inl (hposted (by rw [hw]; rfl))⟩
  | post =>
    rw [Sys.left, hw] at hleft
    exact ⟨_, ⟨.repost true, rfl, step_eq_some.mpr ⟨hw, rfl⟩⟩, hca, hleft,
      .inl (List.mem_append_right _ (List.mem_singleton.mpr rfl))⟩

theorem Sys.Reposting.endless (hca : s.ca.isStopped = true) (h : s.Reposting) :
    Endless EventStep s := by
  refine endless_of_invariant (fun s => s.ca.isStopped = true ∧ s.Reposting) ?_ ⟨hca, h⟩
  rintro s ⟨hca, hr⟩
  exact hr.step hca

end Endless

/-! ## Everything else comes to rest -/

/-- How far a place is from the next event; posting a send again costs that send. -/
def WorkerPc.rank : WorkerPc → Nat
  | .idle => 0
  | .notify _ => 1
  | .released _ => 2
  | .logged _ => 3
  | .armed _ => 4
  | .sent _ => 5
  | .holding _ => 6
  | .top => 7
  | .stopTimer => 8
  | .entered => 9
  | .post => 11

/-- The work in front of the event thread. An event costs more than all steps of a send, so that
    taking one makes the work less; the step that posts a send again costs more than the event it
    posts, so that it counts as progress too. -/
def Sys.work (s : Sys) : Nat := 10 * s.events.length + s.worker.rank

/-- In a `duer_engine_send` that has seen the connection not stopped and sent nothing yet. -/
def WorkerPc.trying : WorkerPc → Bool
  | .stopTimer | .top | .holding _ => true
  | _ => false

/-- No send will be posted: nothing is left to send, or no send runs that could succeed. -/
def Sys.Resting (s : Sys) : Prop :=
  s.left = [] ∨ (.send ∉ s.events ∧ s.worker.succeeding = false ∧
    (s.worker.trying = true → s.ca.isStopped = true))

section Steps

variable {s s' : Sys}

/-- The event thread is done with an event that is not a send. -/
theorem Sys.Resting.drop (h : s.Resting) (hw : s.worker = .idle) {e : Ev}
    (he : s.events.head? = some e) (hs : SameWork { s with events := s.events.tail } s') :
    s'.Resting ∧ s'.work < s.work := by
  obtain ⟨hq, -, hev, hworker, -⟩ := hs
  have hw' : s'.worker = .idle := hworker.trans hw
  obtain ⟨rest, hrest⟩ := List.head?_eq_some_iff.mp he
  refine ⟨?_, ?_⟩
  · rcases h with hleft | ⟨hsend, -, -⟩
    · refine .inl ?_
      rw [Sys.left_eq (by rw [hw]; rfl)] at hleft
      rw [Sys.left_eq (by rw [hw']; rfl), hq]
      exact hleft
    · refine .inr ⟨?_, by rw [hw']; rfl, by rw [hw']; exact fun h => absurd h Bool.false_ne_true⟩
      rw [hev]
      exact fun hmem => hsend (List.mem_of_mem_tail hmem)
  · simp only [Sys.work, hw, hw', hev, hrest, List.tail_cons, List.length_cons]
    omega

/-- The event thread goes on within a send, closer to its end, and posts nothing. -/
theorem Sys.Resting.advance (h : s.Resting) (hev : s'.events = s.events)
    (hleft : s.left = [] → s'.left = [])
    (hgo : s.left ≠ [] → s.worker.succeeding = false →
      (s.worker.trying = true → s.ca.isStopped = true) → s'.worker.succeeding = false ∧
        (s'.worker.trying = true → s'.ca.isStopped = true))
    (hrank : s'.worker.rank < s.worker.rank) : s'.Resting ∧ s'.work < s.work := by
  refine ⟨?_, ?_⟩
  · by_cases hl : s.left = []
    · exact .inl (hleft hl)
    · obtain ⟨hsend, hs, ht⟩ := h.resolve_left hl
      exact .inr ⟨by rw [hev]; exact hsend, hgo hl hs ht⟩
  · simp only [Sys.work, hev]
    omega

/-- A send that has succeeded goes on to its pop. -/
theorem Sys.Resting.success (h : s.Resting) (hev : s'.events = s.events)
    (hs : s.worker.succeeding = true) (hleft : s'.left = s.left)
    (hrank : s'.worker.rank < s.worker.rank) : s'.Resting ∧ s'.work < s.work :=
  h.advance hev (fun hl => hleft.trans hl) (fun _ hf => absurd hs (by simp [hf])) hrank

/-! The steps of a send, one by one: what is left to send stays empty, or no send is posted and the
one that runs will not succeed. -/

theorem Sys.Resting.take (h : s.Resting) (he : Enabled s .take) :
    (next s .take).Resting ∧ (next s .take).work < s.work := by
  obtain ⟨hw, hhead⟩ := he
  obtain ⟨rest, hrest⟩ := List.head?_eq_some_iff.mp hhead
  refine ⟨.inl ?_, ?_⟩
  · -- a send is posted, so nothing is left to send
    have hleft := h.resolve_right fun hr => hr.1 (by rw [hrest]; exact List.mem_cons_self)
    rw [Sys.left_eq (by rw [hw]; rfl)] at hleft
    exact hleft
  · simp only [next, Sys.work, hw, hrest, List.tail_cons, List.length_cons, WorkerPc.rank]
    omega

theorem Sys.Resting.checkStopped (h : s.Resting) (hw : s.worker = .entered) :
    (next s .checkStopped).Resting ∧ (next s .checkStopped).work < s.work := by
  have hsucc : s.worker.succeeding = true := by rw [hw]; rfl
  by_cases hca : s.ca.isStopped = true
  · have hnext : next s .checkStopped = { s with worker := .notify .ok } := by
      simp only [next, if_pos hca]
    rw [hnext]
    exact h.success rfl hsucc (by simp [Sys.left, hw, WorkerPc.popping])
      (by simp [hw, WorkerPc.rank])
  · have hnext : next s .checkStopped = { s with worker := .stopTimer } := by
      simp only [next, if_neg hca]
    rw [hnext]
    exact h.success rfl hsucc (by simp [Sys.left, hw, WorkerPc.popping])
      (by simp [hw, WorkerPc.rank])

theorem Sys.Resting.stopTimer (h : s.Resting) (hw : s.worker = .stopTimer) :
    (next s .stopTimer).Resting ∧ (next s .stopTimer).work < s.work := by
  refine h.advance rfl (fun hl => ?_) (fun _ _ ht => ⟨rfl, fun _ => ht (by rw [hw]; rfl)⟩)
    (by simp [next, hw, WorkerPc.rank])
  rw [Sys.left_eq (by rw [hw]; rfl)] at hl
  exact hl

theorem Sys.Resting.readTop (h : s.Resting) (hw : s.worker = .top) :
    (next s .readTop).Resting ∧ (next s .readTop).work < s.work := by
  cases hq : s.queue with
  | nil =>
    have hnext : next s .readTop = { s with worker := .notify .ok } := by
      simp only [next, hq, List.head?_nil]
    rw [hnext]
    refine h.advance rfl (fun _ => hq) (fun hl => absurd ?_ hl) (by simp [hw, WorkerPc.rank])
    rw [Sys.left_eq (by rw [hw]; rfl)]
    exact hq
  | cons m rest =>
    have hnext : next s .readTop = { s with worker := .holding m } := by
      simp only [next, hq, List.head?_cons]
    rw [hnext]
    refine h.advance rfl (fun hl => ?_) (fun _ _ ht => ⟨rfl, fun _ => ht (by rw [hw]; rfl)⟩)
      (by simp [hw, WorkerPc.rank])
    rw [Sys.left_eq (by rw [hw]; rfl)] at hl
    exact hl

theorem Sys.Resting.sendData (h : s.Resting) {m : Nat} {status : SendStatus}
    (he : Enabled s (.sendData m status)) :
    (next s (.sendData m status)).Resting ∧ (next s (.sendData m status)).work < s.work := by
  obtain ⟨hw, hstopped⟩ := he
  refine h.advance (by cases status <;> rfl) (fun hl => ?_) (fun _ _ ht => ?_)
    (by cases status <;> simp [next, hw, WorkerPc.rank])
  · rw [Sys.left_eq (by rw [hw]; rfl)] at hl
    cases status with
    | ok => exact congrArg List.tail hl
    | wouldBlock | failed => exact hl
  · -- a stopped connection sends nothing
    obtain rfl := hstopped (ht (by rw [hw]; rfl))
    exact ⟨rfl, fun h' => absurd h' Bool.false_ne_true⟩

theorem Sys.Resting.notify (h : s.Resting) {status : SendStatus} (hw : s.worker = .notify status) :
    (next s (.notify status)).Resting ∧ (next s (.notify status)).work < s.work := by
  have hleft : s.left = s.queue := Sys.left_eq (by rw [hw]; rfl)
  cases status with
  | ok =>
    -- it was right to report success, so nothing is left
    have hq : s.queue = [] := by
      rw [← hleft]
      exact h.resolve_right fun hr => absurd hr.2.1 (by rw [hw]; simp [WorkerPc.succeeding])
    have hnext : next s (.notify .ok) = { s with worker := .idle } := by
      simp [next, hq]
    rw [hnext]
    exact h.advance rfl (fun _ => hq) (fun hl => absurd (hleft.trans hq) hl)
      (by simp [hw, WorkerPc.rank])
  | wouldBlock =>
    exact h.advance rfl (fun hl => hleft.symm.trans hl)
      (fun _ _ _ => ⟨rfl, fun h' => absurd h' Bool.false_ne_true⟩)
      (by simp [next, hw, WorkerPc.rank])
  | failed =>
    obtain ⟨hq, -, hev, -, -⟩ := SameWork.duerEngineStop s
    refine h.advance hev (fun hl => ?_)
      (fun _ _ _ => ⟨rfl, fun h' => absurd h' Bool.false_ne_true⟩)
      (by simp [next, hw, WorkerPc.rank])
    exact hq.trans (hleft.symm.trans hl)

theorem Sys.Resting.repost (h : s.Resting) (hw : s.worker = .post) (ok : Bool) :
    (next s (.repost ok)).Resting ∧ (next s (.repost ok)).work < s.work := by
  have hq : s.queue = [] := by
    rw [← Sys.left_eq (s := s) (by rw [hw]; rfl)]
    exact h.resolve_right fun hr => absurd hr.2.1 (by rw [hw]; simp [WorkerPc.succeeding])
  cases ok with
  | true =>
    refine ⟨.inl hq, ?_⟩
    simp only [next, Sys.work, Sys.post, if_true, hw, WorkerPc.rank, List.length_append,
      List.length_singleton]
    omega
  | false =>
    refine ⟨.inl hq, ?_⟩
    simp only [next, Sys.work, Sys.post, Bool.false_eq_true, if_false, hw, WorkerPc.rank]
    omega

/-- **Every step of the event thread keeps the rest and takes work away.** Together with the other
    half, that a send which posts itself goes on for ever, this leaves no state undecided. -/
theorem Sys.Resting.step (h : s.Resting) (hstep : EventStep s s') :
    s'.Resting ∧ s'.work < s.work := by
  obtain ⟨a, ha, hs⟩ := hstep
  obtain ⟨he, rfl⟩ := step_eq_some.mp hs
  cases a with
  | start profile rs => exact h.drop he.1 he.2.1 (.duerEngineStart _ profile rs)
  | dataAvailable rs => exact h.drop he.1 he.2.1 (.duerEngineDataAvailable _ rs)
  | stop => exact h.drop he.1 he.2 (.duerEngineStop _)
  | take => exact h.take he
  | checkStopped => exact h.checkStopped he
  | stopTimer => exact h.stopTimer he
  | readTop => exact h.readTop he
  | sendData m status => exact h.sendData he
  | startTimer m =>
    have hw : s.worker = .sent m := he
    exact h.success rfl (by rw [hw]; rfl) (by rw [Sys.left, Sys.left, hw]; rfl)
      (by simp [next, hw, WorkerPc.rank])
  | log m =>
    have hw : s.worker = .armed m := he
    exact h.success rfl (by rw [hw]; rfl) (by rw [Sys.left, Sys.left, hw]; rfl)
      (by simp [next, hw, WorkerPc.rank])
  | release m =>
    have hw : s.worker = .logged m := he
    exact h.success rfl (by rw [hw]; rfl) (by rw [Sys.left, Sys.left, hw]; rfl)
      (by simp [next, hw, WorkerPc.rank])
  | pop m =>
    have hw : s.worker = .released m := he
    exact h.success rfl (by rw [hw]; rfl) (by rw [Sys.left, Sys.left, hw]; rfl)
      (by simp [next, hw, WorkerPc.rank])
  | notify status => exact h.notify he
  | repost ok => exact h.repost he ok
  | _ => exact absurd ha Bool.false_ne_true

end Steps

/-! ## Exactly when -/

/-- **The event thread of a stopped connection comes to rest, unless a send posts itself.** With
    no caller, timer or socket in between, it processes finitely many events if and only if no
    send is posted or about to succeed, or nothing is left in the queue for it to find. -/
theorem quiesces_iff {s : Sys} (hca : s.ca.isStopped = true) :
    ¬ Endless EventStep s ↔ ¬ s.Reposting := by
  refine ⟨fun h hr => h (hr.endless hca), fun h => ?_⟩
  · have hrest : s.Resting := by
      by_cases hleft : s.left = []
      · exact .inl hleft
      · refine .inr ⟨fun hsend => h ⟨hleft, .inl hsend⟩, ?_, fun _ => hca⟩
        exact Bool.eq_false_iff.mpr fun hsucc => h ⟨hleft, .inr hsucc⟩
    exact not_endless_of_measure Sys.Resting Sys.work (fun hi hs => hi.step hs) hrest

/-- A stopped connection with a report in its queue, whose send is over. -/
theorem quiesces_report :
    ∃ s, Reachable Sys.init step s ∧ s.ca.isStopped = true ∧ s.queue = [0] ∧
      ¬ Endless EventStep s := by
  obtain ⟨s, hrun, hca, hq, hev, hw⟩ : ∃ s, runFrom step .created [.report 0 true] = some s ∧
      s.ca.isStopped = true ∧ s.queue = [0] ∧ s.events = [] ∧ s.worker = .idle :=
    ⟨_, rfl, rfl, rfl, rfl, rfl⟩
  refine ⟨s, reachable_of_runFrom _ (.start Sys.created_init) hrun, hca, hq,
    (quiesces_iff hca).mpr ?_⟩
  rintro ⟨-, hsend | hsucc⟩
  · exact absurd hsend (by simp [hev])
  · exact absurd hsucc (by simp [hw, WorkerPc.succeeding, WorkerPc.popping])

/-- **A report on a stopped connection keeps the event thread busy for ever**: its send finds the
    connection stopped, reports success, and is posted again for the message still queued. The queue
    of a stopped connection is not cleared, so any message in it will do. -/
theorem report_never_quiesces :
    ∃ s, Reachable Sys.init step s ∧ s.ca.isStopped = true ∧ s.queue = [0] ∧
      Endless EventStep s := by
  obtain ⟨s, hrun, hca, hq, hev, hw⟩ : ∃ s, runFrom step .created [.report 0 true,
      .readLength (.app 0), .postSend (.app 0) true] = some s ∧
      s.ca.isStopped = true ∧ s.queue = [0] ∧ s.events = [.send] ∧ s.worker = .idle :=
    ⟨_, rfl, rfl, rfl, rfl, rfl⟩
  have hrep : s.Reposting := by
    refine ⟨?_, .inl (by simp [hev])⟩
    rw [Sys.left_eq (by rw [hw]; rfl), hq]
    simp
  exact ⟨s, reachable_of_runFrom _ (.start Sys.created_init) hrun, hca, hq, hrep.endless hca⟩

end Engine
end LightDuer
