import LightDuer.Engine.Session

/-!
# Registration

Since the last stop of the agent a registered connection has been connected, has sent its
registration and has had it answered with 2.05. Between the events a started agent is always
registered. What is seen in between, or notified, need not be: `baidu_ca_is_started` compares state
numbers, and `DUER_ST_REGISTER_FAIL` is the largest; and an arrival that returns the count of octets
that are no header is taken for a start-up that has succeeded.

## Registered

`Registered` is a statement about what the agent has shown: the three observations of a
registration, in their order, are among those since the last stop. `Agent.Tracks` connects it with
the state: a state has so much of a registration behind it (`CaState.registration`), and the agent
has shown it. It holds in every session, with no condition on server or transport
(`Session.tracks`), so a started connection is always a registered one between the events.

## What must not come too early

Two things are to come behind a registration, and each has its condition and its counterexample.

* A message of the queue. `registration_first` is about runs in which no message is given to
  `baidu_ca_send_data`, and no send comes to an armed timer, in the middle of a start-up. Then no
  message reaches the transport before the registration, and no send touches the start-up.
* The word that the connection is started. `started_registered` is about runs in which the server
  answers a registration with 2.05 only, and no octets that are no header are received where an
  arrival carries a start-up on.

Both go through `Agent.Turn`, the list of what a step makes of the agent. `Preceded p Registered`
says that whenever something of the kind `p` was shown, the agent was registered at that time.
-/

set_option autoImplicit false

namespace LightDuer
namespace Engine

open Lib Net Relation

/-- The agent was stopped. -/
def Seen.resets : Seen → Bool
  | .state .stoped => true
  | _ => false

/-- What a registration shows. -/
def registering : List Seen := [.connected, .registration, .response duerMsgRspContent]

/-- **Registered**: connected, with the registration sent and answered, since the last stop. It is
    read off what the agent has shown and not off its state, so that a state which says too much can
    be found out. -/
def Registered (seen : List Seen) : Prop :=
  registering.Sublist (since Seen.resets seen)

instance (seen : List Seen) : Decidable (Registered seen) :=
  inferInstanceAs (Decidable (List.Sublist _ _))

/-- `DUER_EVENT_STARTED`, or a state in which `baidu_ca_is_started` returns true. -/
def Seen.saysStarted : Seen → Bool
  | .started => true
  | .state st => st.isStarted
  | _ => false

/-- How much of a registration a state has behind it. -/
def CaState.registration : CaState → ℕ
  | .srDataSending => 1
  | .srDataReceiving | .registerFail => 2
  | .srInitialized | .rptConnected | .rptInitialized | .started | .reporting | .reported => 3
  | _ => 0

/-- The agent has shown what its state has behind it. It holds at every moment of a start-up, also
    between two passes and where one is given up half-way, as every state is written behind what it
    stands for. -/
def Agent.Tracks (a : Agent) : Prop :=
  (registering.take a.state.registration).Sublist (since Seen.resets a.seen)

section Tracks

variable {a a' : Agent}

theorem Agent.Tracks.observe (h : a.Tracks) {o : Seen} (ho : o.resets = false) :
    (a.observe o).Tracks :=
  sublist_since_concat h ho

theorem Agent.Tracks.setState {st : CaState}
    (h : (registering.take st.registration).Sublist (since Seen.resets a.seen)) :
    (a.setState st).Tracks := by
  by_cases hst : st = .stoped
  · subst hst
    exact List.nil_sublist _
  · have ho : Seen.resets (.state st) = false := by
      cases st <;> first | rfl | exact absurd rfl hst
    exact sublist_since_concat h ho

theorem Agent.Tracks.move {codes : ℕ → Prop} (h : a.Tracks) (hmove : a.Move codes a') :
    a'.Tracks := by
  cases hmove with
  | acquire _ => exact h
  | start _ | unregistered _ | registerConnected _ | registered _ =>
    exact .setState (List.nil_sublist _)
  | connect hst =>
    exact .setState (concat_sublist_since_concat (List.nil_sublist _) rfl)
  | register hst =>
    rw [Tracks, hst] at h
    exact .setState (concat_sublist_since_concat h rfl)
  | content hst =>
    rw [Tracks, hst] at h
    exact .setState (concat_sublist_since_concat h rfl)
  | reject hst code _ _ =>
    rw [Tracks, hst] at h
    exact .setState (sublist_since_concat h rfl)
  | response _ code => exact h.observe rfl
  | staged _ => exact h
  | initialized hst =>
    refine .setState ?_
    rcases hst with hst | hst
    · rw [Tracks, hst] at h
      exact h
    · rw [Tracks, hst] at h
      exact h

theorem Agent.Tracks.moves {codes : ℕ → Prop} (h : a.Tracks) (hmoves : a.Moves codes a') :
    a'.Tracks := by
  induction hmoves with
  | refl => exact h
  | tail _ hmove ih => exact ih.move hmove

theorem Agent.Tracks.stop (h : a.Tracks) : (baiduCaStop a).Tracks := by
  unfold baiduCaStop
  split
  · exact h
  · exact List.nil_sublist _

theorem Agent.Tracks.startsUp {codes : ℕ → Prop} {countOk : Bool} {rs : CaResult} (h : a.Tracks)
    (hup : a.StartsUp codes countOk rs a') : a'.Tracks := by
  obtain ⟨b, status, hmoves, -, -, rfl⟩ := hup
  have hb : b.Tracks := h.moves hmoves
  cases rs with
  | ok _ => exact hb.observe rfl
  | wouldBlock _ _ => exact hb
  | failed => exact hb.stop
  | count _ _ =>
    cases countOk with
    | true => exact hb.observe rfl
    | false => exact hb.stop

theorem Agent.Tracks.registered (h : a.Tracks) (hst : a.state = .started) : Registered a.seen := by
  rw [Tracks, hst] at h
  exact h

end Tracks

/-- Every step keeps track, whatever the transport and the library give. -/
theorem Agent.Tracks.turn {codes : ℕ → Prop} {count send : Prop} {a a' : Agent} (h : a.Tracks)
    (hturn : a.Turn codes count send a') : a'.Tracks := by
  cases hturn with
  | same => exact h
  | sent m _ _ => exact h.observe rfl
  | response code _ => exact h.observe rfl
  | stop => exact h.stop
  | responseStop code _ => exact Tracks.stop (h.observe rfl)
  | startsUp hup _ => exact h.startsUp hup

/-- **The agent of every run**: linked to the engine, and with what its state has behind it. Neither
    the server nor the transport has any part in it, and no guard is needed. -/
theorem Session.tracks {s : Session} (h : Reachable Session.init Session.step s) :
    s.Linked ∧ s.agent.Tracks := by
  refine h.invariant (fun s => s.Linked ∧ s.agent.Tracks) ?_ ?_
  · intro s hi
    refine ⟨.initial hi, ?_⟩
    rw [hi.2]
    exact List.nil_sublist _
  · intro s s' x ⟨hl, ht⟩ _ hs
    have hturn : s.agent.Turn (fun _ => True) True True s'.agent :=
      hl.turn hs (fun _ => x.2.lib.wire.responds_any) (fun _ _ _ _ => trivial)
        fun _ _ _ => trivial
    exact ⟨hl.step hs, ht.turn hturn⟩

/-- Between the events a started connection is registered. -/
theorem Session.registered {s : Session} (h : Reachable Session.init Session.step s)
    (hst : s.sys.ca.isStarted = true) : Registered s.agent.seen := by
  obtain ⟨hl, ht⟩ := Session.tracks h
  exact ht.registered (hl.rest.started (hl.ca ▸ hst))

/-- What of this kind the agent has shown, it has shown registered. -/
def Agent.Shows (p : Seen → Bool) (a : Agent) : Prop := Preceded p Registered a.seen

section Shows

variable {p : Seen → Bool} {a : Agent}

theorem Agent.Shows.acquired : Agent.acquired.Shows p := .nil

theorem Agent.Shows.observe (h : a.Shows p) {o : Seen} (ho : p o = true → Registered a.seen) :
    (a.observe o).Shows p :=
  h.concat ho

theorem Agent.Shows.silent (h : a.Shows p) {o : Seen} (ho : p o = false) :
    (a.observe o).Shows p :=
  h.concat fun hp => absurd hp (by simp [ho])

theorem Agent.Shows.setState (h : a.Shows p) {st : CaState} (ho : p (.state st) = false) :
    (a.setState st).Shows p :=
  h.concat fun hp => absurd hp (by simp [ho])

theorem Agent.Shows.stop (h : a.Shows p) (ho : p (.state .stoped) = false) :
    (baiduCaStop a).Shows p := by
  unfold baiduCaStop
  split
  · exact h
  · exact h.setState ho

end Shows

/-! ## Messages of the queue -/

def Seen.isMessage : Seen → Bool
  | .message _ => true
  | _ => false

/-- In the middle of a start-up no message is given to `baidu_ca_send_data`, and the event thread
    comes to no armed timer that it would stop. -/
def SendGuard (s : Session) (x : Act × Meets) : Prop :=
  match x.1 with
  | .stopTimer => s.sys.timer = none ∨ s.sys.ca.isStarted = true ∨ s.sys.ca.isStopped = true
  | .sendData _ _ => s.sys.ca.isStarted = true ∨ s.sys.ca.isStopped = true
  | _ => True

instance (s : Session) (x : Act × Meets) : Decidable (SendGuard s x) := by
  unfold SendGuard
  split <;> infer_instance

section Messages

variable {codes : ℕ → Prop} {a a' : Agent}

/-- A start-up shows no message. -/
theorem Agent.Shows.messages_moves (h : a.Shows Seen.isMessage) (hmoves : a.Moves codes a') :
    a'.Shows Seen.isMessage := by
  induction hmoves with
  | refl => exact h
  | tail _ hmove ih =>
    cases hmove with
    | acquire _ | staged _ => exact ih
    | start _ | unregistered _ | registerConnected _ | registered _ | initialized _ =>
      exact ih.setState rfl
    | connect _ | register _ | content _ => exact Shows.setState (ih.silent rfl) rfl
    | reject _ code _ _ => exact Shows.setState (ih.silent rfl) rfl
    | response _ code => exact ih.silent rfl

theorem Agent.Shows.messages_startsUp {countOk : Bool} {rs : CaResult}
    (h : a.Shows Seen.isMessage) (hup : a.StartsUp codes countOk rs a') :
    a'.Shows Seen.isMessage := by
  obtain ⟨b, status, hmoves, -, -, rfl⟩ := hup
  have hb : b.Shows Seen.isMessage := h.messages_moves hmoves
  cases rs with
  | ok _ => exact hb.silent rfl
  | wouldBlock _ _ => exact hb
  | failed => exact hb.stop rfl
  | count _ _ =>
    cases countOk with
    | true => exact hb.silent rfl
    | false => exact hb.stop rfl

/-- A turn of the agent shows a message only where it has a handle. -/
theorem Agent.Shows.messages_turn {count send : Prop} (h : a.Shows Seen.isMessage)
    (hturn : a.Turn codes count send a') (hsent : send → a.sr = true → Registered a.seen) :
    a'.Shows Seen.isMessage := by
  cases hturn with
  | same => exact h
  | sent m hsr hsend => exact h.observe fun _ => hsent hsend hsr
  | response code _ => exact h.silent rfl
  | stop => exact h.stop rfl
  | responseStop code _ => exact Shows.stop (h.silent rfl) rfl
  | startsUp hup _ => exact h.messages_startsUp hup

end Messages

/-- Where the event thread is about to start the timer behind a send, or to stop the connection
    behind one that failed. -/
def WorkerPc.meddles : WorkerPc → Bool
  | .sent _ | .notify .failed => true
  | _ => false

/-- Neither meets a start-up. -/
def Session.SendsClear (s : Session) : Prop :=
  s.sys.worker.meddles = true → s.sys.ca.isStarted = true ∨ s.sys.ca.isStopped = true

/-- How the event thread comes to one of these places: only a send goes there, and only the step
    that is taken there leaves. -/
theorem worker_meddles {s : Sys} {act : Act} (he : Enabled s act)
    (h : (next s act).worker.meddles = true) :
    (∃ m status, act = .sendData m status) ∨ act = .sendTimeout ∨
      (s.worker.meddles = true ∧ act.sparesAgent = true) := by
  have hidle (hw : s.worker = .idle) (hsame : (next s act).worker = s.worker) :
      (next s act).worker.meddles ≠ true := by
    rw [hsame, hw]
    exact Bool.false_ne_true
  cases act with
  | sendData m status => exact .inl ⟨m, status, rfl⟩
  | sendTimeout => exact .inr (.inl rfl)
  | start profile rs =>
    exact absurd h (hidle he.1 (SameWork.duerEngineStart _ profile rs).worker)
  | dataAvailable rs =>
    exact absurd h (hidle he.1 (SameWork.duerEngineDataAvailable _ rs).worker)
  | stop => exact absurd h (hidle he.1 (SameWork.duerEngineStop _).worker)
  | report n ok | response n ok | reportAlive ok =>
    cases ok <;> exact .inr (.inr ⟨h, rfl⟩)
  | postSend t ok | postRestart ok => cases ok <;> exact .inr (.inr ⟨h, rfl⟩)
  | apiStart ok | apiStartEmpty ok | apiStop ok | recvRdy ok =>
    cases ok <;> exact .inr (.inr ⟨h, rfl⟩)
  | rdyPost ok => cases ok <;> exact .inr (.inr ⟨h, rfl⟩)
  | readLength t | fire | checkStarted | sendRdy | rdyStarted | rdyDone | clear =>
    exact .inr (.inr ⟨h, rfl⟩)
  | checkStopped | readTop =>
    simp only [next] at h
    split at h <;> exact absurd h (by simp [WorkerPc.meddles])
  | notify status =>
    cases status with
    | ok =>
      simp only [next] at h
      split at h <;> exact absurd h (by simp [WorkerPc.meddles])
    | wouldBlock | failed => exact absurd h (by simp [next, WorkerPc.meddles])
  | _ => exact absurd h (by simp [next, WorkerPc.meddles])

theorem Session.SendsClear.step {s s' : Session} {x : Act × Meets} (h : s.SendsClear)
    (hg : SendGuard s x) (hs : s.step x = some s') : s'.SendsClear := by
  obtain ⟨act, x⟩ := x
  obtain ⟨henabled, hsys, -⟩ := Session.step_eq_some.mp hs
  intro hw
  rw [hsys] at hw
  rcases worker_meddles henabled hw with ⟨m, status, hact⟩ | hact | ⟨hold, hspared⟩
  · simp only at hact
    subst hact
    rw [hsys, next_ca rfl]
    exact hg
  · simp only at hact
    subst hact
    have hstopped : (next s.sys .sendTimeout).ca = .stoped := duerEngineStop_ca _
    rw [hsys, hstopped]
    exact .inr rfl
  · rw [hsys, next_ca hspared]
    exact h hold

/-- **A send leaves a start-up alone**: its state, and the timer that is to try again. A send that
    runs beside a start-up could stop the timer, start it with the delay of the keepalive, or end
    the start-up by a failure; the guard keeps it from the places where it would. -/
theorem Session.SendsClear.spares {s s' : Session} {x : Act × Meets} (h : s.SendsClear)
    (hsend : x.1.ofSend = true) (hg : SendGuard s x) (hs : s.step x = some s')
    (hst : s.sys.ca.suspended = true) : s'.sys.ca = s.sys.ca ∧ s'.sys.timer = s.sys.timer := by
  obtain ⟨act, x⟩ := x
  obtain ⟨henabled, hsys, -⟩ := Session.step_eq_some.mp hs
  obtain ⟨hns, hnp, -⟩ := CaState.suspended_not hst
  have hno : ¬ (s.sys.ca.isStarted = true ∨ s.sys.ca.isStopped = true) := by simp [hns, hnp]
  rw [hsys]
  cases act with
  | take | readTop | log m | release m | pop m => exact ⟨rfl, rfl⟩
  | checkStopped => exact ⟨rfl, rfl⟩
  | stopTimer => exact ⟨rfl, (hg.resolve_right hno).symm⟩
  | sendData m status => exact absurd hg hno
  | startTimer m =>
    have hpc : s.sys.worker = .sent m := henabled
    exact absurd (h (by rw [hpc]; rfl)) hno
  | notify status =>
    cases status with
    | ok | wouldBlock => exact ⟨rfl, rfl⟩
    | failed =>
      have hpc : s.sys.worker = .notify .failed := henabled
      exact absurd (h (by rw [hpc]; rfl)) hno
  | repost ok => cases ok <;> exact ⟨rfl, rfl⟩
  | _ => exact absurd hsend Bool.false_ne_true

/-- **Registration comes first.** In every run in which, in the middle of a start-up, no message is
    given to `baidu_ca_send_data` and no send comes to an armed timer, no message of the queue is
    handed to the transport before the connection is registered, and no step of `duer_engine_send`
    or its notification touches a start-up: it stays in its state, with the timer that tries again
    as it was. -/
theorem registration_first {s : Session}
    (h : ReachableBy Session.init Session.step SendGuard s) :
    Preceded Seen.isMessage Registered s.agent.seen ∧
      ∀ x s', x.1.ofSend = true → SendGuard s x → s.step x = some s' →
        s.sys.ca.suspended = true → s'.sys.ca = s.sys.ca ∧ s'.sys.timer = s.sys.timer := by
  suffices hall : s.Linked ∧ s.agent.Tracks ∧ s.agent.Shows Seen.isMessage ∧ s.SendsClear by
    obtain ⟨-, -, hmessages, hclear⟩ := hall
    exact ⟨hmessages, fun x s' hsend hg hs hst => hclear.spares hsend hg hs hst⟩
  refine h.invariant (fun s => s.Linked ∧ s.agent.Tracks ∧ s.agent.Shows Seen.isMessage ∧
    s.SendsClear) ?_ ?_
  · intro s hi
    refine ⟨.initial hi, ?_, ?_, ?_⟩
    · rw [hi.2]
      exact List.nil_sublist _
    · rw [hi.2]
      exact .acquired
    · intro hw
      rw [hi.1.2.2.2.2.1] at hw
      exact absurd hw Bool.false_ne_true
  · rintro s s' ⟨act, x⟩ ⟨hl, ht, hm, hc⟩ hg hs
    have hturn : s.agent.Turn (fun _ => True) True
        (s.sys.ca.isStarted = true ∨ s.sys.ca.isStopped = true) s'.agent := by
      refine hl.turn hs (fun _ => x.lib.wire.responds_any) (fun _ _ _ _ => trivial) ?_
      rintro m status rfl
      exact hg
    refine ⟨hl.step hs, ht.turn hturn, hm.messages_turn hturn ?_, hc.step hg hs⟩
    -- a stopped agent has no handle, and a started one is registered
    rintro (hst | hst) hsr
    · exact ht.registered (hl.rest.started (hl.ca ▸ hst))
    · exact absurd (hl.handle (hl.rest.stopped (hl.ca ▸ hst))) (by simp [hsr])

/-- A library with a handle, that passes on a 2.05 for every message. -/
def contentLib : CoapLib where
  acquire := true
  library _ _ := { ok := true, response := some duerMsgRspContent }

/-- These results, and then nothing to receive. -/
def feedOf (results : List TransResult) : Feed where
  results n := results.getD n (.status duerErrTransWouldBlock (by decide))
  taken := 0

/-- The results of an action. -/
def meets (results : List TransResult) : Meets where
  lib := contentLib
  io := feedOf results
  fuel := 6
  loads := true

/-- The connection is accepted and the registration taken. -/
def requested : List TransResult := [.status 0 (by decide), .octets [0]]

/-- The answer to the registration: a header and a message of one octet. -/
def answer : List TransResult := [.octets (be32 duerCoapTcpHdr ++ be32 1), .octets [0x41]]

/-- What the agent has shown when it waits for its first answer. -/
def waiting : List Seen :=
  [.state .unregistered, .state .registerConnected, .state .registered, .state .srConnecting,
    .connected, .state .srDataSending, .registration, .state .srDataReceiving]

/-- A report is queued and its send comes to the top of the queue. -/
def reportToTop : List (Act × Meets) :=
  [(.report 0 true, meets []), (.readLength (.app 0), meets []),
    (.postSend (.app 0) true, meets []), (.take, meets []), (.checkStopped, meets []),
    (.stopTimer, meets []), (.readTop, meets [])]

/-- A report on a connection that has been started. -/
theorem registration_first_report :
    ∃ s, ReachableBy Session.init Session.step SendGuard s ∧
      s.agent.seen.getLast? = some (.message 0) ∧
      Preceded Seen.isMessage Registered s.agent.seen := by
  let run := (.apiStart true, meets []) ::
    (.start true (.ok false), meets (requested ++ answer)) :: reportToTop
  obtain ⟨s, s', hrun, hadmits, hst, hsend, hlast⟩ : ∃ s s',
      runFrom Session.step .created run = some s ∧ admits Session.step SendGuard .created run ∧
      s.sys.ca.isStarted = true ∧ s.step (.sendData 0 .ok, meets [.octets [0]]) = some s' ∧
      s'.agent.seen.getLast? = some (.message 0) := ⟨_, _, rfl, by decide, rfl, rfl, rfl⟩
  have hguard : SendGuard s (.sendData 0 .ok, meets [.octets [0]]) := Or.inl hst
  have hreach : ReachableBy Session.init Session.step SendGuard s' :=
    ((ReachableBy.start Session.created_init).of_runFrom run hadmits hrun).next hguard hsend
  exact ⟨s', hreach, hlast, (registration_first hreach).1⟩

/-- **A report in the middle of a start-up**: the connection waits for the answer to its
    registration when the report is handed to the transport. Its send has stopped the timer that
    would have started the connection again, and since it fails it stops the start-up. -/
theorem report_before_registration :
    ∃ s, Reachable Session.init Session.step s ∧ s.agent.seen.getLast? = some (.message 0) ∧
      ¬ Preceded Seen.isMessage Registered s.agent.seen ∧
      s.sys.worker = .notify .failed ∧ s.sys.ca = .srDataReceiving ∧ s.sys.timer = none := by
  let run := (.apiStart true, meets []) ::
    (.start true (.wouldBlock .srDataReceiving false), meets requested) ::
      (reportToTop ++ [(.sendData 0 .failed, meets [.status duerErrFailed (by decide)])])
  obtain ⟨s, hrun, hseen, hw, hca, htimer⟩ : ∃ s, runFrom Session.step .created run = some s ∧
      s.agent.seen = waiting ++ [.message 0] ∧ s.sys.worker = .notify .failed ∧
      s.sys.ca = .srDataReceiving ∧ s.sys.timer = none := ⟨_, rfl, rfl, rfl, rfl, rfl⟩
  refine ⟨s, reachable_of_runFrom run (.start Session.created_init) hrun, by rw [hseen]; rfl, ?_,
    hw, hca, htimer⟩
  intro hpreceded
  exact absurd (hpreceded waiting (.message 0) [] hseen rfl) (by decide)

/-! ## A start-up that is told of -/

/-- A positive count of octets that are no header. -/
def TransResult.stray : TransResult → Bool
  | .status _ _ => false
  | .octets b => b ≠ [] ∧ frameSize b = none

/-- The first result received in front of the registration's answer, in a pass that begins with
    the connection, with the registration, or with the receive. -/
def Loop.answer (l : Loop) : TransResult :=
  match l.agent.state with
  | .srConnecting => l.io.rest.rest.next
  | .srDataSending => l.io.rest.next
  | _ => l.io.next

/-- Connecting gives a status, and what is received is no stray octets. -/
def Loop.Framed (l : Loop) : Prop :=
  (l.agent.state = .srConnecting → l.io.next.count ≤ 0) ∧
    (l.agent.state.suspended = true → l.answer.stray = false)

/-- The server answers with 2.05 only. -/
def CoapLib.AnswersContent (lib : CoapLib) : Prop :=
  ∀ k msg code, (lib.library k msg).response = some code → code = duerMsgRspContent

/-- While a start-up waits for its answer, the server answers with 2.05 only; and where an arrival
    carries the start-up on, no stray octets are received. -/
def StartGuard (s : Session) (x : Act × Meets) : Prop :=
  s.StartsUp x.1 → x.2.lib.AnswersContent ∧ ∀ rs, x.1 = .dataAvailable rs →
    ∀ l, ReflTransGen (Pass x.2.lib) ⟨0, s.agent, x.2.io⟩ l → l.Framed

section Framed

variable {lib : CoapLib} {a a' : Agent} {io io' : Feed} {rs : Int}

theorem NsdlResult.status_le (r : NsdlResult) : r.status ≤ 0 := by
  unfold NsdlResult.status
  split <;> decide

/-- Without stray octets, a receive gives no count. -/
theorem srDataAvailable_le (hstray : io.next.stray = false)
    (h : srDataAvailable lib.wire a io = some (rs, a', io')) : rs ≤ 0 := by
  cases hnext : io.next with
  | status rs' hle =>
    rw [srDataAvailable_status (feed_gives_of lib hnext)] at h
    obtain rfl := (Prod.mk.inj (Option.some.inj h)).1
    exact hle
  | octets b =>
    cases hb : frameSize b with
    | none =>
      have hempty : b = [] := by simpa [hnext, TransResult.stray, hb] using hstray
      rw [srDataAvailable_noFrame (feed_gives_of lib hnext) hb] at h
      obtain rfl := (Prod.mk.inj (Option.some.inj h)).1
      simp [hempty]
    | some n =>
      cases hnext' : io.rest.next with
      | status rs' hle =>
        rw [srDataAvailable_headerOnly (feed_gives_of lib hnext) hb (feed_gives_of lib hnext')] at h
        obtain rfl := (Prod.mk.inj (Option.some.inj h)).1
        exact hle
      | octets m =>
        rw [srDataAvailable_message (feed_gives_of lib hnext) hb (feed_gives_of lib hnext')] at h
        split at h
        · obtain rfl := (Prod.mk.inj (Option.some.inj h)).1
          exact Int.le_refl 0
        · obtain rfl := (Prod.mk.inj (Option.some.inj h)).1
          exact NsdlResult.status_le _

theorem srReceive_le (hstray : io.next.stray = false)
    (h : srReceive lib.wire a io = some (rs, a', io')) : rs ≤ 0 := by
  obtain ⟨⟨rs₁, a₁, io₁⟩, hcall, hrest⟩ := Option.bind_eq_some_iff.mp h
  have hle : rs₁ ≤ 0 := srDataAvailable_le hstray hcall
  simp only at hrest
  split at hrest
  · obtain rfl := (Prod.mk.inj (Option.some.inj hrest)).1
    exact hle
  · obtain ⟨a₂, -, hrest⟩ := Option.bind_eq_some_iff.mp hrest
    obtain rfl := (Prod.mk.inj (Option.some.inj hrest)).1
    split
    · decide
    · exact hle

theorem srRegister_le (hstray : io.rest.next.stray = false)
    (h : srRegister lib.wire a io = some (rs, a', io')) : rs ≤ 0 := by
  have hsend : duerCoapSend lib.wire io =
      some (if io.next.count ≤ 0 then io.next.count else 0, io.rest) := rfl
  generalize (if io.next.count ≤ 0 then io.next.count else 0) = rs₁ at hsend
  simp only [srRegister, hsend, Option.bind_eq_bind, Option.bind_some] at h
  split at h
  · rename_i hneg
    exact Int.le_of_lt ((Prod.mk.inj (Option.some.inj h)).1 ▸ hneg)
  · exact srReceive_le hstray h

theorem srConnect_le (hconnect : io.next.count ≤ 0) (hstray : io.rest.rest.next.stray = false)
    (h : srConnect lib.wire a io = some (rs, a', io')) : rs ≤ 0 := by
  have hcall : lib.wire.connect io = some (io.next.count, io.rest) := rfl
  simp only [srConnect, hcall, Option.bind_eq_bind, Option.bind_some] at h
  split at h
  · exact srRegister_le hstray h
  · obtain rfl := (Prod.mk.inj (Option.some.inj h)).1
    exact hconnect

theorem baiduCaRun_le {rs₀ : Int} (hframed : Loop.Framed ⟨rs₀, a, io⟩)
    (h : baiduCaRun lib.wire a io = some (rs, a', io')) : rs ≤ 0 := by
  obtain ⟨hconnect, hanswer⟩ := hframed
  have hfailed : duerErrFailed ≤ 0 := by decide
  have hrouter (hst : a.state.suspended = true)
      (h : baiduCaCreateServiceRouter lib.wire a io = some (rs, a', io')) : rs ≤ 0 := by
    have hstray := hanswer hst
    unfold baiduCaCreateServiceRouter at h
    split at h
    · exact (Prod.mk.inj (Option.some.inj h)).1 ▸ hfailed
    · cases hs : a.state with
      | srConnecting =>
        simp only [hs] at h hconnect
        simp only [Loop.answer, hs] at hstray
        exact srConnect_le (hconnect trivial) hstray h
      | srDataSending =>
        simp only [hs] at h
        simp only [Loop.answer, hs] at hstray
        exact srRegister_le hstray h
      | srDataReceiving =>
        simp only [hs] at h
        simp only [Loop.answer, hs] at hstray
        exact srReceive_le hstray h
      | _ => exact absurd hst (by simp [hs, CaState.suspended])
  unfold baiduCaRun at h
  cases hst : a.state with
  | srConnecting | srDataSending | srDataReceiving =>
    simp only [hst] at h
    exact hrouter (by rw [hst]; rfl) h
  | unregistered | registerConnected | registered | srInitialized | rptInitialized | started =>
    simp only [hst] at h
    exact (Prod.mk.inj (Option.some.inj h)).1 ▸ Int.le_refl 0
  | _ =>
    simp only [hst] at h
    exact (Prod.mk.inj (Option.some.inj h)).1 ▸ hfailed

/-- **Without stray octets a start-up gives no count.** The induction is on the fuel of the loop,
    with the condition on every pass that it comes to; a count can come from nothing but a
    receive. -/
theorem doStartLoop_le {fuel : ℕ} {rs₀ : Int} (h0 : rs₀ ≤ 0)
    (hframed : ∀ l, ReflTransGen (Pass lib) ⟨rs₀, a, io⟩ l → l.Framed)
    (h : doStartLoop lib.wire fuel rs₀ a io = some (rs, a', io')) : rs ≤ 0 := by
  induction fuel generalizing rs₀ a io with
  | zero =>
    unfold doStartLoop at h
    split at h
    · exact absurd h (by simp)
    · exact (Prod.mk.inj (Option.some.inj h)).1 ▸ h0
  | succ fuel ih =>
    unfold doStartLoop at h
    split at h
    · rename_i hgo
      obtain ⟨⟨rs₁, a₁, io₁⟩, hrun, h⟩ := Option.bind_eq_some_iff.mp h
      have hpass : Pass lib ⟨rs₀, a, io⟩ ⟨rs₁, a₁, io₁⟩ := ⟨hgo, hrun⟩
      exact ih (baiduCaRun_le (hframed _ .refl) hrun) (fun l hl => hframed l (.head hpass hl)) h
    · exact (Prod.mk.inj (Option.some.inj h)).1 ▸ h0

end Framed

/-- An arrival without stray octets carries a start-up on to no count. -/
theorem agentNext_no_count {a a' : Agent} {x : Meets} {st : CaState} {b : Bool}
    (hst : a.state.suspended = true)
    (hframed : ∀ l, ReflTransGen (Pass x.lib) ⟨0, a, x.io⟩ l → l.Framed) :
    agentNext a x (.dataAvailable (.count st b)) ≠ some a' := by
  intro h
  obtain ⟨-, hnp, -⟩ := CaState.suspended_not hst
  simp only [agentNext, hnp, Bool.false_eq_true, if_false] at h
  obtain ⟨⟨status, a₁, io⟩, hcall, h⟩ := Option.bind_eq_some_iff.mp h
  rw [baiduCaDataAvailable_eq_doStart hst] at hcall
  have hle : status ≤ 0 := doStartLoop_le (Int.le_refl 0) hframed hcall
  split at h
  · rename_i htells
    exact absurd htells.1 (by simp only; omega)
  · exact absurd h (by simp)

/-! ## What says that the connection is started -/

section Started

variable {a a' : Agent}

/-- The agent of a guarded run: what it has behind it, and what it has said. -/
theorem Agent.Shows.started_moves (ht : a.Tracks) (h : a.Shows Seen.saysStarted)
    (hmoves : a.Moves (· = duerMsgRspContent) a') : a'.Shows Seen.saysStarted := by
  induction hmoves with
  | refl => exact h
  | @tail b c hprev hmove ih =>
    have hb : b.Tracks := ht.moves hprev
    cases hmove with
    | acquire _ | staged _ => exact ih
    | start _ | unregistered _ | registerConnected _ | registered _ => exact ih.setState rfl
    | connect _ | register _ | content _ => exact Shows.setState (ih.silent rfl) rfl
    | reject _ code hcode hrsp => exact absurd hrsp hcode
    | response _ code => exact ih.silent rfl
    | initialized hst =>
      refine Preceded.concat ih fun _ => ?_
      rcases hst with hst | hst
      · rw [Tracks, hst] at hb
        exact hb
      · rw [Tracks, hst] at hb
        exact hb

theorem Agent.Shows.started_turn {send : Prop} (ht : a.Tracks) (h : a.Shows Seen.saysStarted)
    (hturn : a.Turn (· = duerMsgRspContent) False send a') : a'.Shows Seen.saysStarted := by
  cases hturn with
  | same => exact h
  | sent m _ _ => exact h.silent rfl
  | response code _ => exact h.silent rfl
  | stop => exact h.stop rfl
  | responseStop code _ => exact Shows.stop (h.silent rfl) rfl
  | @startsUp _ countOk rs hup hcount =>
    obtain ⟨b, status, hmoves, hcomplete, htells, rfl⟩ := hup
    have hb : b.Shows Seen.saysStarted := h.started_moves ht hmoves
    cases rs with
    | ok _ => exact hb.observe fun _ => (ht.moves hmoves).registered (hcomplete.started htells)
    | wouldBlock _ _ => exact hb
    | failed => exact hb.stop rfl
    | count st k =>
      cases countOk with
      | true => exact absurd (hcount st k rfl rfl) id
      | false => exact hb.stop rfl

end Started

/-- **Started means registered.** In every run in which, while a start-up waits for its answer, the
    server answers with 2.05 only, and no stray octets are received where an arrival carries the
    start-up on, whatever says that the connection is started comes behind its registration:
    `DUER_EVENT_STARTED`, and every state in which `baidu_ca_is_started` returns true. -/
theorem started_registered {s : Session}
    (h : ReachableBy Session.init Session.step StartGuard s) :
    Preceded Seen.saysStarted Registered s.agent.seen ∧
      (s.sys.ca.isStarted = true → Registered s.agent.seen) := by
  refine ⟨?_, Session.registered h.reachable⟩
  suffices hall : s.Linked ∧ s.agent.Tracks ∧ s.agent.Shows Seen.saysStarted from hall.2.2
  refine h.invariant (fun s => s.Linked ∧ s.agent.Tracks ∧ s.agent.Shows Seen.saysStarted) ?_ ?_
  · intro s hi
    refine ⟨.initial hi, ?_, ?_⟩
    · rw [hi.2]
      exact List.nil_sublist _
    · rw [hi.2]
      exact .acquired
  · rintro s s' ⟨act, x⟩ ⟨hl, ht, hm⟩ hg hs
    have hturn : s.agent.Turn (· = duerMsgRspContent) False True s'.agent := by
      refine hl.turn hs (fun hup => ?_) (fun hup st b hact => ?_) fun _ _ _ => trivial
      · intro io msg code hrsp
        exact (hg hup).1 io.taken msg code hrsp
      · -- the arrival would have to return a count
        simp only at hact
        subst hact
        exact agentNext_no_count hup ((hg hup).2 _ rfl) (Session.step_eq_some.mp hs).2.2
    exact ⟨hl.step hs, ht.turn hturn, hm.started_turn ht hturn⟩

/-- A connection that has been started. -/
theorem started_registered_first :
    ∃ s, ReachableBy Session.init Session.step StartGuard s ∧ .started ∈ s.agent.seen ∧
      Preceded Seen.saysStarted Registered s.agent.seen := by
  obtain ⟨s, s', hpost, hstart, hmem⟩ : ∃ s s',
      Session.created.step (.apiStart true, meets []) = some s ∧
      s.step (.start true (.ok false), meets (requested ++ answer)) = some s' ∧
      .started ∈ s'.agent.seen := ⟨_, _, rfl, rfl, by decide⟩
  have hguard : StartGuard s (.start true (.ok false), meets (requested ++ answer)) := by
    refine fun _ => ⟨fun k msg code hrsp => ?_, fun rs hrs => absurd hrs (by simp)⟩
    exact (Option.some.inj hrsp).symm
  have hreach : ReachableBy Session.init Session.step StartGuard s' :=
    ((ReachableBy.start Session.created_init).next (fun hup => hup.elim) hpost).next hguard hstart
  exact ⟨s', hreach, hmem, (started_registered hreach).1⟩

/-- **Eight octets that are no header** start the connection: they come in front of the
    registration's answer, and the arrival returns their count. A server that sends anything but a
    frame first will do. -/
theorem started_unregistered :
    ∃ s, Reachable Session.init Session.step s ∧ s.agent.seen.getLast? = some .started ∧
      ¬ Registered s.agent.seen ∧ ¬ Preceded Seen.saysStarted Registered s.agent.seen := by
  let run : List (Act × Meets) := [(.apiStart true, meets []),
    (.start true (.wouldBlock .srDataReceiving false), meets requested), (.recvRdy true, meets []),
    (.dataAvailable (.count .srDataReceiving false), meets [.octets (List.replicate 8 0)])]
  obtain ⟨s, hrun, hseen⟩ : ∃ s, runFrom Session.step .created run = some s ∧
      s.agent.seen = waiting ++ [.started] := ⟨_, rfl, rfl⟩
  refine ⟨s, reachable_of_runFrom run (.start Session.created_init) hrun, by rw [hseen]; rfl,
    ?_, ?_⟩
  · rw [hseen]
    decide
  · intro hpreceded
    exact absurd (hpreceded waiting .started [] hseen rfl) (by decide)

end Engine
end LightDuer
