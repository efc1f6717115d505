import LightDuer.Engine.Model

/-!
# The keepalive timer

Every `duer_engine_send` stops the timer and only a successful send starts it again, so an idle
connection stays alive only where each send finds something to send. `Sys.Kept` says, for each place
the event thread can be in, what stands for the timer there. `KeepGuard` leaves out the three steps
that give it up: a send that finds the queue empty, an alive report that cannot be queued, and a
queue cleared on a started connection.

## The property

`Sys.KeepsAlive` speaks of a connection that is started and quiet: nothing is queued, and no send is
posted or running. It has its timer armed, or the callback of the timer is pending or about to
report. If it has not, nothing in the engine sends by itself again, and the server takes the device
for gone.

## The invariant

The timer is away whenever the event thread is between its stop and its start, so the property
itself is not preserved by the steps of a send. `Sys.Kept` is. Before the top of the queue is read
nothing is needed; a message that is held is still queued, and will start the timer or stay in the
queue; and behind the start of the timer the timer is live, or its alive report is in the queue
behind the message about to be popped.

The steps are taken thread by thread: the callers and the timer, the events of the connection, the
send, and the socket thread. For most of them it is enough that the timer stays live, that a posted
send stays posted and that the queue does not get shorter (`KeepInv.mono`). The guard is used where
that fails. That it cannot be dropped is shown by a run with one send too many.
-/

set_option autoImplicit false

namespace LightDuer
namespace Engine

open Lib

/-- The timer is armed, or its callback is pending or about to report. -/
def Sys.TimerLive (s : Sys) : Prop :=
  s.timer ≠ none ∨ s.callers .timer = .fired ∨ s.callers .timer = .alive

/-- **Keepalive**: a started connection with nothing to send and no send event queued or running has
    its timer. In every other state of a started connection there is something to send or a send
    under way, and the timer is its business. -/
def Sys.KeepsAlive (s : Sys) : Prop :=
  s.ca.isStarted = true → s.queue = [] → .send ∉ s.events → s.worker = .idle → s.TimerLive

/-- In a `duer_engine_send` that has yet to start the timer. -/
def WorkerPc.beforeTimer : WorkerPc → Bool
  | .entered | .stopTimer | .top | .holding _ | .sent _ => true
  | _ => false

/-- In a `duer_engine_send` that has read the top and not yet popped it. -/
def WorkerPc.holds : WorkerPc → Bool
  | .holding _ | .sent _ | .armed _ | .logged _ | .released _ => true
  | _ => false

/-- The condition on the steps of a run. On a started connection: a send that finds the queue
    empty leaves the timer's callback pending or another send behind it; an alive report that
    fails leaves the timer, a send on its way to start it, or something to send; and a clear
    comes while the event thread holds no message and leaves the timer or a send. -/
def KeepGuard (s : Sys) : Act → Prop
  | .readTop => s.ca.isStarted = false ∨ s.queue ≠ [] ∨ s.TimerLive ∨ .send ∈ s.events
  | .reportAlive ok => ok = true ∨ s.ca.isStarted = false ∨ s.timer ≠ none ∨
      s.worker.beforeTimer = true ∨ 2 ≤ s.queue.length ∨
      (s.worker.holds = false ∧ (s.queue ≠ [] ∨ .send ∈ s.events))
  | .clear => s.ca.isStarted = false ∨ s.queue = [] ∨
      (s.worker.holds = false ∧ (s.TimerLive ∨ .send ∈ s.events ∨ s.worker.beforeTimer = true))
  | _ => True

/-! ## The invariant -/

/-- What stands for the timer, by where the event thread is. Before the top is read nothing is
    needed; a message held will start the timer or stay queued; after that the timer is live, or
    the alive report of its callback is behind the message about to be popped. -/
def Sys.Kept (s : Sys) : Prop :=
  match s.worker with
  | .entered | .stopTimer | .top => True
  | .holding _ | .sent _ => 0 < s.queue.length
  | .armed _ | .logged _ | .released _ =>
      2 ≤ s.queue.length ∨ (s.TimerLive ∧ 0 < s.queue.length)
  | .idle | .notify _ | .post => s.TimerLive ∨ .send ∈ s.events ∨ 0 < s.queue.length

def KeepInv (s : Sys) : Prop := s.ca.isStarted = true → s.Kept

section Steps

variable {s s' : Sys}

/-- The timer is live, unless the event thread holds a message that has left the queue. -/
theorem Sys.Kept.of_live (h : s.TimerLive) (hw : s.worker.holds = true → 0 < s.queue.length) :
    s.Kept := by
  unfold Sys.Kept
  cases hpc : s.worker with
  | entered | stopTimer | top => trivial
  | holding m | sent m => exact hw (by rw [hpc]; rfl)
  | armed m | logged m | released m => exact .inr ⟨h, hw (by rw [hpc]; rfl)⟩
  | idle | notify _ | post => exact .inl h

/-- Messages are queued, one more than the event thread holds. -/
theorem Sys.Kept.of_queued (h : 0 < s.queue.length)
    (hw : s.worker.holds = true → 2 ≤ s.queue.length) : s.Kept := by
  unfold Sys.Kept
  cases hpc : s.worker with
  | entered | stopTimer | top => trivial
  | holding m | sent m => exact h
  | armed m | logged m | released m => exact .inl (hw (by rw [hpc]; rfl))
  | idle | notify _ | post => exact .inr (.inr h)

/-- The event thread is on its way to start the timer. -/
theorem Sys.Kept.of_beforeTimer (h : s.worker.beforeTimer = true)
    (hw : s.worker.holds = true → 0 < s.queue.length) : s.Kept := by
  unfold Sys.Kept
  cases hpc : s.worker with
  | entered | stopTimer | top => trivial
  | holding m | sent m => exact hw (by rw [hpc]; rfl)
  | _ => exact absurd h (by simp [hpc, WorkerPc.beforeTimer])

/-- A message held is still queued. -/
theorem Sys.Kept.pos (h : s.Kept) (hw : s.worker.holds = true) : 0 < s.queue.length := by
  unfold Sys.Kept at h
  cases hpc : s.worker with
  | holding m | sent m => simpa only [hpc] using h
  | armed m | logged m | released m =>
    simp only [hpc] at h
    rcases h with h | h
    · exact Nat.lt_of_lt_of_le Nat.two_pos h
    · exact h.2
  | _ => exact absurd hw (by simp [hpc, WorkerPc.holds])

/-- Other threads only add messages and sends, and leave the timer. -/
theorem Sys.Kept.mono (h : s.Kept) (hw : s'.worker = s.worker) (hlive : s.TimerLive → s'.TimerLive)
    (hsend : .send ∈ s.events → .send ∈ s'.events) (hq : s.queue.length ≤ s'.queue.length) :
    s'.Kept := by
  unfold Sys.Kept at h ⊢
  rw [hw]
  cases hpc : s.worker with
  | entered | stopTimer | top => trivial
  | holding m | sent m =>
    simp only [hpc] at h
    exact Nat.lt_of_lt_of_le h hq
  | armed m | logged m | released m =>
    simp only [hpc] at h
    exact h.imp (Nat.le_trans · hq) (.imp hlive (Nat.lt_of_lt_of_le · hq))
  | idle | notify _ | post =>
    simp only [hpc] at h
    exact h.imp hlive (.imp hsend (Nat.lt_of_lt_of_le · hq))

/-- Between two sends, and in the notification of one. -/
theorem Sys.Kept.of_resting (hw : s.worker.beforeTimer = false) (hh : s.worker.holds = false) :
    s.Kept ↔ s.TimerLive ∨ .send ∈ s.events ∨ 0 < s.queue.length := by
  unfold Sys.Kept
  cases hpc : s.worker with
  | idle | notify _ | post => exact Iff.rfl
  | entered | stopTimer | top => exact absurd hw (by simp [hpc, WorkerPc.beforeTimer])
  | _ => exact absurd hh (by simp [hpc, WorkerPc.holds])

theorem KeepInv.of_not_started (h : s.ca.isStarted = false) : KeepInv s :=
  fun hs => absurd hs (by simp [h])

theorem KeepInv.mono (h : KeepInv s) (hca : s'.ca = s.ca) (hw : s'.worker = s.worker)
    (hlive : s.TimerLive → s'.TimerLive) (hsend : .send ∈ s.events → .send ∈ s'.events)
    (hq : s.queue.length ≤ s'.queue.length) : KeepInv s' :=
  fun hs => (h (hca ▸ hs)).mono hw hlive hsend hq

theorem KeepInv.post (h : KeepInv s) (e : Ev) (ok : Bool) : KeepInv (s.post e ok) := by
  cases ok with
  | true => exact h.mono rfl rfl id (List.mem_append_left _) (Nat.le_refl _)
  | false => exact h

theorem KeepInv.push (h : KeepInv s) : KeepInv s.push :=
  h.mono rfl rfl id id (by simp [Sys.push])

/-- A caller other than a live callback of the timer moves on. -/
theorem KeepInv.setCaller (h : KeepInv s) {t : Thread} (pc : CallerPc)
    (ht : s.callers t ≠ .fired ∧ s.callers t ≠ .alive) : KeepInv (s.setCaller t pc) := by
  refine h.mono rfl rfl (fun hl => ?_) id (Nat.le_refl _)
  by_cases htimer : t = .timer
  · subst htimer
    exact .inl (hl.resolve_right (fun hc => hc.elim ht.1 ht.2))
  · have hsame : (s.setCaller t pc).callers .timer = s.callers .timer :=
      Function.update_of_ne (Ne.symm htimer) ..
    rcases hl with hl | hl
    · exact .inl hl
    · exact .inr (hsame ▸ hl)

/-- The event thread takes an event that is not a send. -/
theorem KeepInv.dropEvent (h : KeepInv s) {e : Ev} (he : s.events.head? = some e)
    (hne : e ≠ .send) : KeepInv ({ s with events := s.events.tail } : Sys) :=
  h.mono rfl rfl id (send_mem_tail he hne) (Nat.le_refl _)

/-- A start-up that completes arms the timer. -/
theorem KeepInv.duerEngineStart (h : KeepInv s) (hw : s.worker = .idle) (profile : Bool)
    {rs : CaResult} (hvalid : rs.valid = true) : KeepInv (duerEngineStart s profile rs) := by
  unfold Engine.duerEngineStart
  split
  · exact h
  · cases rs with
    | ok b =>
      exact fun _ => .of_live (.inl (by simp)) fun hh => absurd hh (by simp [hw, WorkerPc.holds])
    | wouldBlock st b => exact .of_not_started (CaResult.not_started_of_valid hvalid)
    | count st b => exact .of_not_started (duerEngineStop_not_started _)
    | failed => exact .of_not_started (duerEngineStop_not_started _)

theorem KeepInv.duerEngineDataAvailable (h : KeepInv s) (hw : s.worker = .idle) {rs : CaResult}
    (hvalid : rs.valid = true) : KeepInv (duerEngineDataAvailable s rs) := by
  unfold Engine.duerEngineDataAvailable
  split
  · exact h
  · cases rs with
    | ok b =>
      by_cases hs : s.ca.isStarted = true
      · simp only [if_pos hs]
        exact h.mono rfl rfl id id (Nat.le_refl _)
      · simp only [if_neg hs]
        exact fun _ => .of_live (.inl (by simp)) fun hh => absurd hh (by simp [hw, WorkerPc.holds])
    | wouldBlock st b =>
      by_cases hs : s.ca.isStarted = true
      · simp only [if_pos hs]
        exact h.mono rfl rfl id id (Nat.le_refl _)
      · refine .of_not_started ?_
        simp only [if_neg hs, CaResult.not_started_of_valid hvalid]
    | count st b =>
      by_cases hs : s.ca.isStarted = true
      · simp only [if_pos hs]
        exact h.mono rfl rfl id id (Nat.le_refl _)
      · simp only [if_neg hs]
        exact .of_not_started (CaResult.not_started_of_valid (b := b) hvalid)
    | failed => exact .of_not_started (duerEngineStop_not_started _)

end Steps

/-! ## Steps, by the thread that takes them -/

section Threads

variable {s : Sys} {a : Act}

/-- An alive report that cannot be queued: what the guard asks for stands for the timer. -/
theorem KeepInv.reportAlive_failed (hi : KeepInv s) (hg : KeepGuard s (.reportAlive false)) :
    KeepInv (Engine.next s (.reportAlive false)) := by
  intro hs
  have hkept : s.Kept := hi hs
  rcases hg with hok | hns | ht | hbefore | hlen | ⟨hhold, hq⟩
  · exact absurd hok (by simp)
  · exact absurd hs (by simp [Engine.next, Sys.setCaller, hns])
  · exact hkept.mono rfl (fun _ => .inl ht) id (Nat.le_refl _)
  · exact .of_beforeTimer hbefore hkept.pos
  · exact .of_queued (Nat.lt_of_lt_of_le Nat.two_pos hlen) fun _ => hlen
  · by_cases hbefore : s.worker.beforeTimer = true
    · exact .of_beforeTimer hbefore hkept.pos
    · have hresting : (Engine.next s (.reportAlive false)).worker.beforeTimer = false :=
        Bool.eq_false_iff.mpr hbefore
      refine (Sys.Kept.of_resting hresting hhold).mpr (.inr ?_)
      exact hq.symm.imp id List.length_pos_iff.mpr

/-- An alive report in the queue, behind whatever message the event thread holds. -/
theorem KeepInv.reportAlive_queued (hi : KeepInv s) :
    KeepInv (Engine.next s (.reportAlive true)) := by
  intro hs
  refine .of_queued (by simp [Engine.next, Sys.setCaller, Sys.push]) fun hw => ?_
  have hpos := (hi hs).pos hw
  simp only [Engine.next, if_true, Sys.setCaller, Sys.push, List.length_append,
    List.length_singleton]
  exact Nat.succ_le_succ hpos

theorem KeepInv.next_caller (hi : KeepInv s) (ha : a.ofCaller = true) (hg : KeepGuard s a)
    (he : Enabled s a) : KeepInv (Engine.next s a) := by
  cases a with
  | report n ok | response n ok =>
    have hidle : s.callers (.app n) = .idle := he
    cases ok with
    | true => exact hi.push.setCaller _ (by simp [Sys.push, hidle])
    | false => exact hi
  | readLength t => exact hi.setCaller _ (by simp [show s.callers t = .reported from he])
  | postSend t ok =>
    refine (hi.post _ _).setCaller _ ?_
    cases ok <;> simp [Sys.post, show s.callers t = .sending from he]
  | apiStart ok | apiStartEmpty ok | apiStop ok | recvRdy ok => exact hi.post _ _
  | fire =>
    have hfired : (s.setCaller .timer .fired).callers .timer = .fired := Sys.setCaller_self ..
    exact hi.mono rfl rfl (fun _ => .inr (.inl hfired)) id (Nat.le_refl _)
  | checkStarted =>
    by_cases hs : s.ca.isStarted = true
    · refine hi.mono rfl rfl (fun _ => .inr (.inr ?_)) id (Nat.le_refl _)
      simp only [Engine.next, if_pos hs, Sys.setCaller_self]
    · exact .of_not_started (show s.ca.isStarted = false by simpa using hs)
  | reportAlive ok =>
    cases ok with
    | true => exact hi.reportAlive_queued
    | false => exact hi.reportAlive_failed hg
  | postRestart ok =>
    refine (hi.post _ _).setCaller _ ?_
    cases ok <;> simp [Sys.post, show s.callers .timer = .restart from he]
  | _ => exact absurd ha Bool.false_ne_true

theorem KeepInv.next_connection (hi : KeepInv s) (ha : a.ofConnection = true)
    (he : Enabled s a) : KeepInv (Engine.next s a) := by
  cases a with
  | start profile rs =>
    exact (hi.dropEvent he.2.1 (by simp)).duerEngineStart he.1 profile he.2.2
  | dataAvailable rs =>
    exact (hi.dropEvent he.2.1 (by simp)).duerEngineDataAvailable he.1 he.2.2
  | stop => exact .of_not_started (duerEngineStop_not_started _)
  | _ => exact absurd ha Bool.false_ne_true

/-- What a resting event thread leaves, it finds again. -/
theorem KeepInv.rest {s' : Sys} (hi : KeepInv s) (hca : s'.ca = s.ca) (ht : s'.timer = s.timer)
    (hc : s'.callers = s.callers) (hq : s'.queue = s.queue) (hev : s'.events = s.events)
    (hold : s.worker.beforeTimer = false ∧ s.worker.holds = false)
    (hnew : s'.worker.beforeTimer = false ∧ s'.worker.holds = false) : KeepInv s' := by
  intro hs
  have hkept := (Sys.Kept.of_resting hold.1 hold.2).mp (hi (hca ▸ hs))
  refine (Sys.Kept.of_resting hnew.1 hnew.2).mpr ?_
  simpa only [Sys.TimerLive, ht, hc, hq, hev] using hkept

/-- Within a send, up to its notification: the message that is held starts the timer or stays. -/
theorem KeepInv.next_send (hi : KeepInv s) (ha : a.ofSend = true) (hg : KeepGuard s a)
    (he : Enabled s a) : KeepInv (Engine.next s a) := by
  cases a with
  | take | stopTimer => exact fun _ => trivial
  | checkStopped =>
    by_cases hs : s.ca.isStarted = true
    · intro _
      simp [Engine.next, CaState.not_stopped_of_started hs, Sys.Kept]
    · exact .of_not_started (show s.ca.isStarted = false by simpa using hs)
  | readTop =>
    cases hq : s.queue with
    | nil =>
      rcases hg with hs | hne | hlive
      · exact .of_not_started hs
      · exact absurd hq hne
      · intro _
        simp only [Engine.next, hq, List.head?_nil, Sys.Kept]
        exact hlive.imp id .inl
    | cons m rest =>
      intro _
      simp [Engine.next, hq, Sys.Kept]
  | sendData m status =>
    have hpc : s.worker = .holding m := he.1
    intro hs
    have hpos : 0 < s.queue.length :=
      (hi (by cases status <;> exact hs)).pos (by rw [hpc]; rfl)
    cases status with
    | ok => exact hpos
    | wouldBlock => exact .inr (.inr hpos)
    | failed => exact .inr (.inr hpos)
  | startTimer m =>
    have hpc : s.worker = .sent m := he
    exact fun hs => .inr ⟨.inl (by simp [Engine.next]), (hi hs).pos (by rw [hpc]; rfl)⟩
  | log m =>
    have hpc : s.worker = .armed m := he
    intro hs
    have hkept := hi hs
    simp only [Sys.Kept, hpc] at hkept
    exact hkept
  | release m =>
    have hpc : s.worker = .logged m := he
    intro hs
    have hkept := hi hs
    simp only [Sys.Kept, hpc] at hkept
    exact hkept
  | pop m =>
    have hpc : s.worker = .released m := he
    intro hs
    have hkept := hi hs
    simp only [Sys.Kept, hpc] at hkept
    rcases hkept with hlen | hlive
    · refine .inr (.inr ?_)
      simp only [Engine.next, List.length_tail]
      omega
    · exact .inl hlive.1
  | notify status =>
    have hpc : s.worker = .notify status := he
    cases status with
    | ok =>
      refine hi.rest rfl rfl rfl rfl rfl (by rw [hpc]; exact ⟨rfl, rfl⟩) ?_
      simp only [Engine.next]
      split <;> exact ⟨rfl, rfl⟩
    | wouldBlock => exact hi.rest rfl rfl rfl rfl rfl (by rw [hpc]; exact ⟨rfl, rfl⟩) ⟨rfl, rfl⟩
    | failed => exact .of_not_started (duerEngineStop_not_started s)
  | repost ok =>
    have hpc : s.worker = .post := he
    have hidle : KeepInv ({ s with worker := .idle } : Sys) :=
      hi.rest rfl rfl rfl rfl rfl (by rw [hpc]; exact ⟨rfl, rfl⟩) ⟨rfl, rfl⟩
    have hpost := hidle.post .send ok
    cases ok <;> exact hpost
  | _ => exact absurd ha Bool.false_ne_true

theorem KeepInv.next_socket (hi : KeepInv s) (ha : a.ofSocket = true) (hg : KeepGuard s a) :
    KeepInv (Engine.next s a) := by
  cases a with
  | sendRdy | rdyStarted | rdyDone => exact hi.mono rfl rfl id id (Nat.le_refl _)
  | rdyPost ok => exact (hi.post _ ok).mono rfl rfl id id (Nat.le_refl _)
  | sendTimeout => exact .of_not_started (duerEngineStop_not_started s)
  | clear =>
    intro hs
    rcases hg with hns | hq | ⟨hhold, hlive⟩
    · exact absurd hs (by simp [Engine.next, duerEngineClearData, hns])
    · exact (hi hs).mono rfl id id (by simp [hq])
    · have hheld : s.worker.holds = true → 0 < (Engine.next s .clear).queue.length :=
        fun h => absurd (hhold.symm.trans h) (by simp)
      by_cases hbefore : s.worker.beforeTimer = true
      · exact .of_beforeTimer hbefore hheld
      · have hresting : (Engine.next s .clear).worker.beforeTimer = false :=
          Bool.eq_false_iff.mpr hbefore
        refine (Sys.Kept.of_resting hresting hhold).mpr ?_
        rcases hlive with hlive | hsend | hb
        · exact .inl hlive
        · exact .inr (.inl hsend)
        · exact absurd hb hbefore
  | _ => exact absurd ha Bool.false_ne_true

/-- **Every step that meets the guard keeps the invariant.** The steps are sorted by thread; those
    that start or end a connection need no guard, as a start-up that completes arms the timer
    itself. -/
theorem KeepInv.next (hi : KeepInv s) (hg : KeepGuard s a) (he : Enabled s a) :
    KeepInv (Engine.next s a) := by
  rcases a.threads with ha | ha | ha | ha
  · exact hi.next_caller ha hg he
  · exact hi.next_connection ha he
  · exact hi.next_send ha hg he
  · exact hi.next_socket ha hg

end Threads

theorem KeepInv.initial {s : Sys} (h : s.init) : KeepInv s :=
  .of_not_started (by rw [h.1]; rfl)

/-! ## Runs -/

/-- **The keepalive timer stays, as long as the guard is met.** In every run whose steps meet
    `KeepGuard`, a started connection with nothing to send and no send queued or running has
    its timer armed or the callback pending. -/
theorem keepalive_stays {s : Sys} (h : ReachableBy Sys.init step KeepGuard s) :
    s.KeepsAlive := by
  have hi : KeepInv s := by
    refine ReachableBy.invariant KeepInv .initial ?_ h
    intro s s' a hi hg hs
    obtain ⟨he, rfl⟩ := step_eq_some.mp hs
    exact hi.next hg he
  intro hs hq hev hw
  have hkept := hi hs
  simp only [Sys.Kept, hw] at hkept
  rcases hkept with hlive | hsend | hpos
  · exact hlive
  · exact absurd hsend hev
  · exact absurd hpos (by simp [hq])

/-- A response is sent and the timer armed again, with nothing left to send. -/
theorem keepalive_stays_response :
    ∃ s, ReachableBy Sys.init step KeepGuard s ∧ s.ca.isStarted = true ∧ s.queue = [] ∧
      .send ∉ s.events ∧ s.worker = .idle ∧ s.TimerLive := by
  obtain ⟨s, hrun, hs, hq, hev, hw⟩ : ∃ s, runFrom step .created [.apiStart true,
      .start true (.ok false), .response 0 true, .postSend (.app 0) true, .take, .checkStopped,
      .stopTimer, .readTop, .sendData 0 .ok, .startTimer 0, .log 0, .release 0, .pop 0,
      .notify .ok] = some s ∧
      s.ca.isStarted = true ∧ s.queue = [] ∧ .send ∉ s.events ∧ s.worker = .idle :=
    ⟨_, rfl, rfl, rfl, by decide, rfl⟩
  have hreach : ReachableBy Sys.init step KeepGuard s := by
    refine (ReachableBy.start Sys.created_init).of_runFrom _ ?_ hrun
    refine ⟨trivial, trivial, trivial, trivial, trivial, trivial, trivial, ?_, trivial, trivial,
      trivial, trivial, trivial, trivial, trivial⟩
    exact Or.inr (Or.inl (by decide))
  exact ⟨s, hreach, hs, hq, hev, hw, keepalive_stays hreach hs hq hev hw⟩

/-- **A send too many stops the keepalive for good.** Two responses post a send each, and the first
    send posts another for the message left: the third finds the queue empty with the timer stopped.
    None of the calls is unusual; two responses in a row are enough. -/
theorem keepalive_dies_surplus_send :
    ∃ s, Reachable Sys.init step s ∧ s.ca.isStarted = true ∧ s.queue = [] ∧ s.events = [] ∧
      s.worker = .idle ∧ s.timer = none ∧ s.callers .timer = .idle := by
  obtain ⟨s, hrun, hs⟩ : ∃ s, runFrom step .created [.apiStart true, .start true (.ok false),
      .response 0 true, .postSend (.app 0) true, .response 1 true, .postSend (.app 1) true,
      .take, .checkStopped, .stopTimer, .readTop, .sendData 0 .ok, .startTimer 0, .log 0,
      .release 0, .pop 0, .notify .ok, .repost true,
      .take, .checkStopped, .stopTimer, .readTop, .sendData 1 .ok, .startTimer 1, .log 1,
      .release 1, .pop 1, .notify .ok,
      .take, .checkStopped, .stopTimer, .readTop, .notify .ok] = some s ∧
      s.ca.isStarted = true ∧ s.queue = [] ∧ s.events = [] ∧ s.worker = .idle ∧
      s.timer = none ∧ s.callers .timer = .idle :=
    ⟨_, rfl, rfl, rfl, rfl, rfl, rfl, rfl⟩
  exact ⟨s, reachable_of_runFrom _ (.start Sys.created_init) hrun, hs⟩

end Engine
end LightDuer
