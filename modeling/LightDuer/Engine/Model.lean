import LightDuer.Lib.Transition
import Mathlib.Logic.Function.Basic

/-!
# The connection engine

`lightduer_engine.c` and `lightduer_connagent.c`: the queue of messages to send, the events
posted to the event thread, the keepalive timer, and the threads that meet there. Threads
interleave between the mutex sections, the reads of the connection state and the calls into
the timer, the transport and the event queue; each of these is one step.

* The event thread takes events in the order they were posted. `duer_engine_send` is followed
  step by step; a start, a stop and an arrival of data are one step each, with the outcome of
  the connection agent (`baidu_ca_start`, `baidu_ca_data_available`) as a parameter.
* Callers run `duer_data_report` or `duer_response`; the timer's callback is a caller too.
* The socket thread checks a blocked socket (`is_send_block`, in `source-mbed` and
  `source-freertos`) and notifies `SEND_RDY` or `SEND_TIMEOUT`. It clears the flag only when the
  callback for `SEND_RDY` has returned, so a send that blocks in between is forgotten.
* A stop first changes the state of the agent and then closes the socket, which waits for the
  check to end. So a check that has seen the flag may ask for the state when the connection is
  stopped already. Here a stop is one step, and the check goes on by itself behind it.

The engine has been created, so the handler, the queue, its mutex and the timer exist.
-/

set_option autoImplicit false

namespace LightDuer
namespace Engine

/-! ## The connection state -/

/-- `duer_state_e` of `lightduer_ca.c`. -/
inductive CaState where
  | stoped | unregistered | registerConnected | registered | srConnecting | srDataSending
  | srDataReceiving | srInitialized | rptConnected | rptInitialized | started | reporting
  | reported | registerFail
deriving DecidableEq, Repr

/-- `baidu_ca_is_started`: the enumeration value is at least that of `DUER_ST_STARTED`. -/
def CaState.isStarted : CaState → Bool
  | .started | .reporting | .reported | .registerFail => true
  | _ => false

/-- `baidu_ca_is_stopped` -/
def CaState.isStopped : CaState → Bool
  | .stoped => true
  | _ => false

theorem CaState.not_stopped_of_started {st : CaState} (h : st.isStarted = true) :
    st.isStopped = false := by
  cases st <;> first | rfl | exact absurd h (by decide)

/-- `DUER_KEEPALIVE_INTERVAL`, in milliseconds. -/
def duerKeepaliveInterval : Int := 55 * 1000
/-- `DUER_START_TIMEOUT`, in milliseconds. -/
def duerStartTimeout : Int := 1 * 1000

/-! ## Threads and events -/

/-- What is posted to the event thread. -/
inductive Ev where
  /-- `duer_engine_start`, with or without a profile -/
  | start (profile : Bool)
  /-- `duer_engine_send` -/
  | send
  /-- `duer_engine_data_available` -/
  | dataAvailable
  /-- `duer_engine_stop` -/
  | stop
deriving DecidableEq, Repr

/-- The status `duer_engine_send` gives to the notification. -/
inductive SendStatus where
  | ok | wouldBlock | failed
deriving DecidableEq, Repr

/-- Where the event thread is: between events, or in `duer_engine_send` and the notification
    that follows it. -/
inductive WorkerPc where
  | idle
  /-- about to ask `baidu_ca_is_stopped` -/
  | entered
  /-- about to stop the timer -/
  | stopTimer
  /-- about to read the top of the queue -/
  | top
  /-- about to call `baidu_ca_send_data` with message `m` -/
  | holding (m : Nat)
  /-- `m` was sent; about to start the timer -/
  | sent (m : Nat)
  /-- about to log `m` -/
  | armed (m : Nat)
  /-- about to release `m` -/
  | logged (m : Nat)
  /-- about to pop the queue -/
  | released (m : Nat)
  /-- in `duer_engine_notify_callback` for `DUER_EVT_SEND_DATA` -/
  | notify (status : SendStatus)
  /-- about to post another `duer_engine_send` -/
  | post
deriving DecidableEq, Repr

inductive Thread where
  /-- the thread that runs `duer_timer_expired` -/
  | timer
  | app (n : Nat)
deriving DecidableEq, Repr

/-- Where a caller of the engine is. -/
inductive CallerPc where
  | idle
  /-- the timer expired; about to ask `baidu_ca_is_started` -/
  | fired
  /-- the timer's callback saw the connection started; about to report that it is alive -/
  | alive
  /-- the timer's callback saw it not started; about to post a start -/
  | restart
  /-- in `duer_data_report` with its message in the queue; about to read the queue's length -/
  | reported
  /-- in `duer_data_send`, about to post `duer_engine_send` -/
  | sending
deriving DecidableEq, Repr

/-- Where the socket thread is in `bcasoc_check_data`, which notifies the engine through
    `duer_transport_notify`. -/
inductive SockPc where
  | idle
  /-- in the callback for `SEND_RDY`: about to ask `baidu_ca_is_started` -/
  | rdyAsk
  /-- `SEND_RDY` of a started connection: about to post `duer_engine_send` -/
  | rdySend
  /-- `SEND_RDY` of a connection that is not started: about to post a start -/
  | rdyStart
  /-- `SEND_RDY` has been notified: about to clear `is_send_block` -/
  | rdyClear
  /-- `SEND_TIMEOUT`, after the notification stopped the engine: about to clear the queue -/
  | clearing
deriving DecidableEq, Repr

/-- What happens to a message, in the order it happens. -/
inductive Obs where
  /-- put into the queue by a report or a response -/
  | accept (m : Nat)
  /-- given to `baidu_ca_send_data` -/
  | pass (m : Nat)
  /-- `baidu_ca_send_data` succeeded -/
  | sent (m : Nat)
  /-- its payload is read for the log -/
  | log (m : Nat)
  /-- `duer_engine_release_data` -/
  | free (m : Nat)
  /-- the pop after a successful send took this out of the queue -/
  | pop (m : Option Nat)
deriving DecidableEq, Repr

structure Sys where
  /-- the state of the connection agent -/
  ca : CaState
  /-- `g_qcache_handler`, oldest message first -/
  queue : List Nat
  /-- the next message to be allocated -/
  fresh : Nat
  /-- posted to the event thread, oldest first -/
  events : List Ev
  worker : WorkerPc
  callers : Thread → CallerPc
  sock : SockPc
  /-- the delay `g_timer` was started with, while it is armed -/
  timer : Option Int
  /-- `start_timeout` -/
  startTimeout : Int
  /-- `is_send_block` of the socket: a check of it notifies a `SEND_RDY` or `SEND_TIMEOUT` -/
  blocked : Bool
  history : List Obs

/-- After `duer_initialize`: nothing queued or posted, not connected. -/
def Sys.init (s : Sys) : Prop :=
  s.ca = .stoped ∧ s.queue = [] ∧ s.fresh = 0 ∧ s.events = [] ∧ s.worker = .idle ∧
    (∀ t, s.callers t = .idle) ∧ s.sock = .idle ∧ s.timer = none ∧ s.startTimeout = 0 ∧
    s.blocked = false ∧ s.history = []

/-- That state, with no thread doing anything. -/
def Sys.created : Sys where
  ca := .stoped
  queue := []
  fresh := 0
  events := []
  worker := .idle
  callers := fun _ => .idle
  sock := .idle
  timer := none
  startTimeout := 0
  blocked := false
  history := []

theorem Sys.created_init : Sys.created.init :=
  ⟨rfl, rfl, rfl, rfl, rfl, fun _ => rfl, rfl, rfl, rfl, rfl, rfl⟩

/-! ## Operations -/

def Sys.setCaller (s : Sys) (t : Thread) (pc : CallerPc) : Sys :=
  { s with callers := Function.update s.callers t pc }

theorem Sys.setCaller_self (s : Sys) (t : Thread) (pc : CallerPc) :
    (s.setCaller t pc).callers t = pc := Function.update_self ..

theorem Sys.setCaller_of_ne (s : Sys) {t t' : Thread} (h : t' ≠ t) (pc : CallerPc) :
    (s.setCaller t pc).callers t' = s.callers t' := Function.update_of_ne h ..

/-- `duer_events_call`; it fails where the event cannot be allocated. -/
def Sys.post (s : Sys) (e : Ev) (ok : Bool) : Sys :=
  if ok then { s with events := s.events ++ [e] } else s

/-- `duer_qcache_push` of a new message. -/
def Sys.push (s : Sys) : Sys :=
  { s with
    queue := s.queue ++ [s.fresh]
    fresh := s.fresh + 1
    history := s.history ++ [.accept s.fresh] }

/-- `duer_engine_stop`, in whatever thread: the connection agent stops and lets go of its
    socket. -/
def duerEngineStop (s : Sys) : Sys :=
  if s.ca.isStopped then s else { s with ca := .stoped, blocked := false }

theorem duerEngineStop_not_started (s : Sys) : (duerEngineStop s).ca.isStarted = false := by
  unfold duerEngineStop
  split
  · rename_i h
    cases hca : s.ca <;> rw [hca] at h <;> first | rfl | exact absurd h (by decide)
  · rfl

/-- `duer_engine_clear_data` -/
def duerEngineClearData (s : Sys) : Sys :=
  { s with queue := [], history := s.history ++ s.queue.map .free }

/-- What the connection agent makes of a start, or of data that arrives. A call that would
    block leaves the agent in some state of the start-up; sending may have blocked on the way. -/
inductive CaResult where
  | ok (blocked : Bool)
  | wouldBlock (st : CaState) (blocked : Bool)
  /-- a positive count of octets, with the start-up suspended in `st` -/
  | count (st : CaState) (blocked : Bool)
  | failed
deriving DecidableEq, Repr

/-- The states a start-up can be suspended in. -/
def CaResult.valid : CaResult → Bool
  | .wouldBlock st _ | .count st _ => !st.isStarted && !st.isStopped
  | _ => true

theorem CaResult.not_started_of_valid {st : CaState} {b : Bool}
    (h : (CaResult.wouldBlock st b).valid = true) : st.isStarted = false := by
  simp only [CaResult.valid, Bool.and_eq_true, Bool.not_eq_true'] at h
  exact h.1

/-- `duer_engine_start` and its notification. A failure, also of loading the profile, makes
    the notification stop the engine; a count is not `DUER_OK` either. `start_timeout` is an
    `int`. -/
def duerEngineStart (s : Sys) (profile : Bool) (rs : CaResult) : Sys :=
  if s.ca.isStarted then s
  else
    let startTimeout := if profile then duerStartTimeout else s.startTimeout
    match rs with
    | .ok b => { s with
        ca := .started, timer := some duerKeepaliveInterval, startTimeout
        blocked := s.blocked || b }
    | .wouldBlock st b => { s with
        ca := st, timer := some startTimeout
        startTimeout := Int.bmod (2 * startTimeout) (2 ^ 32)
        blocked := s.blocked || b }
    | .count _ _ | .failed =>
        { duerEngineStop { s with ca := .unregistered } with startTimeout }

/-- `duer_engine_data_available` and its notification. On a connection that is not started it
    carries the start-up on, and a success starts the keepalive timer; a count is taken for a
    success. -/
def duerEngineDataAvailable (s : Sys) (rs : CaResult) : Sys :=
  if s.ca.isStopped then s
  else
    match rs with
    | .ok b =>
        if s.ca.isStarted then { s with blocked := s.blocked || b }
        else { s with
          ca := .started, timer := some duerKeepaliveInterval, blocked := s.blocked || b }
    | .wouldBlock st b =>
        { s with ca := if s.ca.isStarted then s.ca else st, blocked := s.blocked || b }
    | .count st b =>
        if s.ca.isStarted then { s with blocked := s.blocked || b }
        else { s with ca := st, timer := some duerKeepaliveInterval, blocked := s.blocked || b }
    | .failed => duerEngineStop s

/-! ## Steps -/

inductive Act where
  /-- `duer_data_report` up to its push, or its failure -/
  | report (n : Nat) (ok : Bool)
  /-- `duer_response` up to its push, or its failure -/
  | response (n : Nat) (ok : Bool)
  /-- a report compares the length of the queue with one -/
  | readLength (t : Thread)
  /-- `duer_data_send` -/
  | postSend (t : Thread) (ok : Bool)
  /-- `duer_start` with a profile -/
  | apiStart (ok : Bool)
  /-- `duer_start` of size 0, or of one that is no positive `int`: the start it posts has no
      profile -/
  | apiStartEmpty (ok : Bool)
  /-- `duer_stop` -/
  | apiStop (ok : Bool)
  /-- `DUER_TEVT_RECV_RDY` or `duer_data_available` -/
  | recvRdy (ok : Bool)
  /-- the timer expires -/
  | fire
  /-- its callback asks whether the connection is started -/
  | checkStarted
  /-- its callback reports, up to the push, or fails to -/
  | reportAlive (ok : Bool)
  /-- its callback posts a start -/
  | postRestart (ok : Bool)
  /-- the event thread takes a start -/
  | start (profile : Bool) (rs : CaResult)
  /-- the event thread takes an arrival of data -/
  | dataAvailable (rs : CaResult)
  /-- the event thread takes a stop -/
  | stop
  /-- the event thread takes a `duer_engine_send` -/
  | take
  | checkStopped
  | stopTimer
  | readTop
  | sendData (m : Nat) (status : SendStatus)
  | startTimer (m : Nat)
  | log (m : Nat)
  | release (m : Nat)
  | pop (m : Nat)
  /-- the notification of a send -/
  | notify (status : SendStatus)
  /-- the notification posts another send -/
  | repost (ok : Bool)
  /-- the socket thread: the blocked transport can send again, and it calls back -/
  | sendRdy
  /-- the socket thread asks whether the connection is started -/
  | rdyStarted
  /-- the socket thread posts what `SEND_RDY` asks for -/
  | rdyPost (ok : Bool)
  /-- the socket thread is back from the callback and clears `is_send_block` -/
  | rdyDone
  /-- the socket thread: the blocked transport times out, and the notification stops the
      engine -/
  | sendTimeout
  /-- the socket thread clears the queue -/
  | clear
deriving DecidableEq, Repr

/-! The threads whose steps these are, for what is proved of each of them. -/

/-- The steps of the callers and of the timer. -/
def Act.ofCaller : Act → Bool
  | .report .. | .response .. | .readLength _ | .postSend .. | .apiStart _ | .apiStartEmpty _
  | .apiStop _ | .recvRdy _ | .fire | .checkStarted | .reportAlive _ | .postRestart _ => true
  | _ => false

/-- The steps of the event thread that begin and end with an event. -/
def Act.ofConnection : Act → Bool
  | .start .. | .dataAvailable _ | .stop => true
  | _ => false

/-- The steps of `duer_engine_send` and its notification. -/
def Act.ofSend : Act → Bool
  | .take | .checkStopped | .stopTimer | .readTop | .sendData .. | .startTimer _ | .log _
  | .release _ | .pop _ | .notify _ | .repost _ => true
  | _ => false

/-- The steps of the socket thread. -/
def Act.ofSocket : Act → Bool
  | .sendRdy | .rdyStarted | .rdyPost _ | .rdyDone | .sendTimeout | .clear => true
  | _ => false

/-- Every step is one of theirs. -/
theorem Act.threads (a : Act) :
    a.ofCaller = true ∨ a.ofConnection = true ∨ a.ofSend = true ∨ a.ofSocket = true := by
  cases a <;> simp [Act.ofCaller, Act.ofConnection, Act.ofSend, Act.ofSocket]

/-- Whether the thread of an action is where the action happens. A connection agent that is
    stopped has no handle to send with. -/
def Enabled (s : Sys) : Act → Prop
  | .report n _ => s.callers (.app n) = .idle
  | .response n _ => s.callers (.app n) = .idle
  | .readLength t => s.callers t = .reported
  | .postSend t _ => s.callers t = .sending
  | .apiStart _ => True
  | .apiStartEmpty _ => True
  | .apiStop _ => True
  | .recvRdy _ => True
  | .fire => s.timer ≠ none ∧ s.callers .timer = .idle
  | .checkStarted => s.callers .timer = .fired
  | .reportAlive _ => s.callers .timer = .alive
  | .postRestart _ => s.callers .timer = .restart
  | .start profile rs => s.worker = .idle ∧ s.events.head? = some (.start profile) ∧ rs.valid = true
  | .dataAvailable rs => s.worker = .idle ∧ s.events.head? = some .dataAvailable ∧ rs.valid = true
  | .stop => s.worker = .idle ∧ s.events.head? = some .stop
  | .take => s.worker = .idle ∧ s.events.head? = some .send
  | .checkStopped => s.worker = .entered
  | .stopTimer => s.worker = .stopTimer
  | .readTop => s.worker = .top
  | .sendData m status =>
      s.worker = .holding m ∧ (s.ca.isStopped = true → status = .failed)
  | .startTimer m => s.worker = .sent m
  | .log m => s.worker = .armed m
  | .release m => s.worker = .logged m
  | .pop m => s.worker = .released m
  | .notify status => s.worker = .notify status
  | .repost _ => s.worker = .post
  | .sendRdy => s.sock = .idle ∧ s.blocked = true
  | .rdyStarted => s.sock = .rdyAsk
  | .rdyPost _ => s.sock = .rdySend ∨ s.sock = .rdyStart
  | .rdyDone => s.sock = .rdyClear
  | .sendTimeout => s.sock = .idle ∧ s.blocked = true
  | .clear => s.sock = .clearing

instance (s : Sys) (a : Act) : Decidable (Enabled s a) := by
  cases a <;> unfold Enabled <;> infer_instance

def next (s : Sys) : Act → Sys
  | .report n ok => if ok then s.push.setCaller (.app n) .reported else s
  | .response n ok => if ok then s.push.setCaller (.app n) .sending else s
  | .readLength t => s.setCaller t (if s.queue.length = 1 then .sending else .idle)
  | .postSend t ok => (s.post .send ok).setCaller t .idle
  | .apiStart ok => s.post (.start true) ok
  | .apiStartEmpty ok => s.post (.start false) ok
  | .apiStop ok => s.post .stop ok
  | .recvRdy ok => s.post .dataAvailable ok
  | .fire => { s.setCaller .timer .fired with timer := none }
  | .checkStarted => s.setCaller .timer (if s.ca.isStarted then .alive else .restart)
  | .reportAlive ok => if ok then s.push.setCaller .timer .reported else s.setCaller .timer .idle
  | .postRestart ok => (s.post (.start false) ok).setCaller .timer .idle
  | .start profile rs => duerEngineStart { s with events := s.events.tail } profile rs
  | .dataAvailable rs => duerEngineDataAvailable { s with events := s.events.tail } rs
  | .stop => duerEngineStop { s with events := s.events.tail }
  | .take => { s with events := s.events.tail, worker := .entered }
  | .checkStopped => { s with worker := if s.ca.isStopped then .notify .ok else .stopTimer }
  | .stopTimer => { s with timer := none, worker := .top }
  | .readTop => { s with
      worker := match s.queue.head? with
        | some m => .holding m
        | none => .notify .ok }
  | .sendData m status =>
      match status with
      | .ok => { s with worker := .sent m, history := s.history ++ [.pass m, .sent m] }
      | .wouldBlock => { s with
          worker := .notify .wouldBlock, blocked := true, history := s.history ++ [.pass m] }
      | .failed => { s with worker := .notify .failed, history := s.history ++ [.pass m] }
  | .startTimer m => { s with timer := some duerKeepaliveInterval, worker := .armed m }
  | .log m => { s with worker := .logged m, history := s.history ++ [.log m] }
  | .release m => { s with worker := .released m, history := s.history ++ [.free m] }
  | .pop _ => { s with
      worker := .notify .ok, queue := s.queue.tail, history := s.history ++ [.pop s.queue.head?] }
  | .notify status =>
      match status with
      | .ok => { s with worker := if 0 < s.queue.length then .post else .idle }
      | .wouldBlock => { s with worker := .idle }
      | .failed => { duerEngineStop s with worker := .idle }
  | .repost ok => { s.post .send ok with worker := .idle }
  | .sendRdy => { s with sock := .rdyAsk }
  | .rdyStarted => { s with sock := if s.ca.isStarted then .rdySend else .rdyStart }
  | .rdyPost ok =>
      { s.post (if s.sock = .rdySend then .send else .start false) ok with sock := .rdyClear }
  -- whatever has blocked since the callback is forgotten with the rest
  | .rdyDone => { s with blocked := false, sock := .idle }
  | .sendTimeout => { duerEngineStop s with sock := .clearing }
  | .clear => { duerEngineClearData s with sock := .idle }

def step (s : Sys) (a : Act) : Option Sys :=
  if Enabled s a then some (next s a) else none

/-- Taking an event that is not a send leaves the sends that are posted. -/
theorem send_mem_tail {events : List Ev} {e : Ev} (he : events.head? = some e) (hne : e ≠ .send)
    (h : .send ∈ events) : .send ∈ events.tail := by
  obtain ⟨rest, rfl⟩ := List.head?_eq_some_iff.mp he
  exact (List.mem_cons.mp h).resolve_left hne.symm

theorem step_eq_some {s s' : Sys} {a : Act} : step s a = some s' ↔ Enabled s a ∧ next s a = s' := by
  unfold step
  split <;> simp [*]

/-- What a start, an arrival of data and a stop leave alone. -/
structure SameWork (s s' : Sys) : Prop where
  queue : s'.queue = s.queue
  fresh : s'.fresh = s.fresh
  events : s'.events = s.events
  worker : s'.worker = s.worker
  history : s'.history = s.history

theorem SameWork.duerEngineStop (s : Sys) : SameWork s (duerEngineStop s) := by
  unfold Engine.duerEngineStop
  split <;> exact ⟨rfl, rfl, rfl, rfl, rfl⟩

theorem SameWork.duerEngineStart (s : Sys) (profile : Bool) (rs : CaResult) :
    SameWork s (duerEngineStart s profile rs) := by
  unfold Engine.duerEngineStart
  split
  · exact ⟨rfl, rfl, rfl, rfl, rfl⟩
  · cases rs with
    | ok b | wouldBlock st b => exact ⟨rfl, rfl, rfl, rfl, rfl⟩
    | count st b | failed =>
      obtain ⟨hq, hf, he, hw, hh⟩ := SameWork.duerEngineStop { s with ca := .unregistered }
      exact ⟨hq, hf, he, hw, hh⟩

theorem SameWork.duerEngineDataAvailable (s : Sys) (rs : CaResult) :
    SameWork s (duerEngineDataAvailable s rs) := by
  unfold Engine.duerEngineDataAvailable
  split
  · exact ⟨rfl, rfl, rfl, rfl, rfl⟩
  · cases rs with
    | ok b | count st b =>
      by_cases hs : s.ca.isStarted = true
      · simp only [if_pos hs]
        exact ⟨rfl, rfl, rfl, rfl, rfl⟩
      · simp only [if_neg hs]
        exact ⟨rfl, rfl, rfl, rfl, rfl⟩
    | wouldBlock st b => exact ⟨rfl, rfl, rfl, rfl, rfl⟩
    | failed => exact SameWork.duerEngineStop s

/-! ## The state that a step leaves -/

/-- The actions that leave the agent's state to others. -/
def Act.sparesAgent : Act → Bool
  | .start _ _ | .dataAvailable _ | .stop | .notify .failed | .sendTimeout => false
  | _ => true

section Frame

variable {s : Sys}

theorem Sys.post_ca (s : Sys) (e : Ev) (ok : Bool) : (s.post e ok).ca = s.ca := by
  unfold Sys.post
  split <;> rfl

theorem next_ca {act : Act} (h : act.sparesAgent = true) : (next s act).ca = s.ca := by
  cases act with
  | report n ok | response n ok | reportAlive ok => cases ok <;> rfl
  | postSend t ok | postRestart ok => exact Sys.post_ca ..
  | apiStart ok | apiStartEmpty ok | apiStop ok | recvRdy ok => exact Sys.post_ca ..
  | repost ok | rdyPost ok => exact Sys.post_ca ..
  | sendData m status => cases status <;> rfl
  | notify status =>
    cases status with
    | failed => exact absurd h Bool.false_ne_true
    | ok | wouldBlock => rfl
  | start | dataAvailable | stop | sendTimeout => exact absurd h Bool.false_ne_true
  | _ => rfl

theorem duerEngineStop_ca (s : Sys) : (duerEngineStop s).ca = .stoped := by
  unfold duerEngineStop
  split
  · rename_i h
    cases hca : s.ca <;> rw [hca] at h <;> first | rfl | exact absurd h Bool.false_ne_true
  · rfl

end Frame

/-! ## On a stopped connection -/

section Stopped

variable {s : Sys}

theorem CaState.not_started_of_stopped {st : CaState} (h : st.isStopped = true) :
    st.isStarted = false := by
  cases hs : st.isStarted with
  | false => rfl
  | true => exact absurd (CaState.not_stopped_of_started hs) (by simp [h])

theorem duerEngineStop_of_stopped (hca : s.ca.isStopped = true) : duerEngineStop s = s := by
  rw [duerEngineStop, if_pos hca]

theorem next_dataAvailable_stopped (hca : s.ca.isStopped = true) (rs : CaResult) :
    next s (.dataAvailable rs) = { s with events := s.events.tail } :=
  if_pos hca

theorem next_stop_stopped (hca : s.ca.isStopped = true) :
    next s .stop = { s with events := s.events.tail } :=
  duerEngineStop_of_stopped hca

end Stopped

end Engine
end LightDuer
