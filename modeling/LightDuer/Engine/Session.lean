import LightDuer.Engine.StartLoop
import LightDuer.Lib.Trace

/-!
# The engine with its connection agent

The engine takes the outcome of a start, of an arrival or of a send as a parameter; here the
connection agent computes it, from whatever the transport and the CoAP library give. A session is
both together, and each of its runs is a run of the engine. What the agent shows is recorded in
`Agent.seen`, with the notifications of `DUER_EVENT_STARTED` among it.

## A step of both

An action of a session comes with what it `Meets`: the library, the results of the transport, and
whether the profile of a start can be loaded. `agentNext` runs the agent over that, and lets the
action happen only if its result is the one that the agent computes: `CaResult.tells` compares the
two, and `sendStatus` does so for a send. So the engine's parameter has become a function of what
the network does, and no result is possible that the code could not return.

A start-up that never returns is no step. That it can be so is what the loop of `baidu_ca_do_start`
is about; here the steps that are taken are those of calls that have come back.

## What is proved of it

`Session.Linked` holds in every session that is reached, whatever the transport and the library do:
the engine and the agent agree on the state of the connection, which between the events is stopped,
started or suspended in one of three states, and a stopped agent has no handle.

`Agent.Turn` then says once what a step can make of the agent: nothing, a message that is sent, a
response on a started connection, a stop, or a start-up that is carried on. What is proved of all
runs of a session, such as that the registration comes first, goes by its cases and never looks into
the agent's functions again.
-/

set_option autoImplicit false

namespace LightDuer
namespace Engine

open Lib Net Relation

/-- What an action meets: the CoAP library, the results of the transport, how far a start-up is
    followed, and whether the profile of a start can be loaded. -/
structure Meets where
  lib : CoapLib
  io : Feed
  fuel : ℕ
  loads : Bool

structure Session where
  sys : Sys
  agent : Agent

def Session.init (s : Session) : Prop := s.sys.init ∧ s.agent = .acquired

def Session.created : Session := ⟨.created, .acquired⟩

theorem Session.created_init : Session.created.init := ⟨Sys.created_init, rfl⟩

/-- The engine's result where a call returned a status and left the agent in a state. On a started
    connection everything but an error is one. -/
def CaResult.tells (r : CaResult) (rs : Int) (st : CaState) : Prop :=
  match r with
  | .ok _ => rs = 0 ∨ (st.isStarted = true ∧ (rs = duerErrTransWouldBlock ∨ 0 < rs))
  | .wouldBlock st' _ => rs = duerErrTransWouldBlock ∧ st' = st
  | .count st' _ => 0 < rs ∧ st' = st
  | .failed => rs < 0 ∧ rs ≠ duerErrTransWouldBlock

instance (r : CaResult) (rs : Int) (st : CaState) : Decidable (r.tells rs st) := by
  cases r <;> unfold CaResult.tells <;> infer_instance

/-- What `duer_engine_send` makes of the status of `baidu_ca_send_data`. -/
def sendStatus (rs : Int) : SendStatus :=
  if rs = duerErrTransWouldBlock then .wouldBlock else if rs < 0 then .failed else .ok

/-- The notification behind a start-up, where a positive count is taken for a success or not. -/
def Agent.notifyStart (a : Agent) (countOk : Bool) : CaResult → Agent
  | .ok _ => a.observe .started
  | .wouldBlock _ _ => a
  | .count _ _ => if countOk then a.observe .started else baiduCaStop a
  | .failed => baiduCaStop a

/-- The agent after an action, if the action's result is the one that the agent computes. -/
def agentNext (a : Agent) (x : Meets) : Act → Option Agent
  | .start profile rs =>
      if a.state.isStarted then some a
      else if profile = true ∧ x.loads = false then
        if rs = .failed then some (baiduCaStop a) else none
      else (baiduCaStart x.lib.wire x.fuel a x.io).bind fun out =>
        if rs.tells out.1 out.2.1.state then some (out.2.1.notifyStart false rs) else none
  | .dataAvailable rs =>
      if a.state.isStopped then some a
      else (baiduCaDataAvailable x.lib.wire x.fuel a x.io).bind fun out =>
        if rs.tells out.1 out.2.1.state then
          if a.state.isStarted then some (if rs = .failed then baiduCaStop out.2.1 else out.2.1)
          else some (out.2.1.notifyStart true rs)
        else none
  | .sendData m status =>
      (baiduCaSendData x.lib.wire a m x.io).bind fun out =>
        if status = sendStatus out.1 then some out.2.1 else none
  | .stop | .notify .failed | .sendTimeout => some (baiduCaStop a)
  | _ => some a

def Session.step (s : Session) (x : Act × Meets) : Option Session :=
  (Engine.step s.sys x.1).bind fun sys =>
    (agentNext s.agent x.2 x.1).map fun agent => ⟨sys, agent⟩

theorem Session.step_eq_some {s s' : Session} {x : Act × Meets} :
    s.step x = some s' ↔ Enabled s.sys x.1 ∧ s'.sys = next s.sys x.1 ∧
      agentNext s.agent x.2 x.1 = some s'.agent := by
  constructor
  · intro h
    obtain ⟨sys, hsys, h⟩ := Option.bind_eq_some_iff.mp h
    obtain ⟨agent, hagent, rfl⟩ := Option.map_eq_some_iff.mp h
    obtain ⟨henabled, rfl⟩ := Engine.step_eq_some.mp hsys
    exact ⟨henabled, rfl, hagent⟩
  · rintro ⟨henabled, hsys, hagent⟩
    have hstep : Engine.step s.sys x.1 = some s'.sys :=
      Engine.step_eq_some.mpr ⟨henabled, hsys.symm⟩
    simp [Session.step, hstep, hagent]

/-! ## Between the events -/

/-- The states of the agent between the events. -/
def CaState.AtRest (st : CaState) : Prop :=
  st = .stoped ∨ st.suspended = true ∨ st = .started

/-- The engine sees the agent's state, which is at rest; a stopped agent has no handle. With `ca` a
    fact about the engine, of which other threads read the state, is a fact about the agent, and the
    other way round. -/
structure Session.Linked (s : Session) : Prop where
  ca : s.sys.ca = s.agent.state
  rest : s.agent.state.AtRest
  handle : s.agent.state = .stoped → s.agent.sr = false

theorem Session.Linked.initial {s : Session} (h : s.init) : s.Linked := by
  obtain ⟨⟨hca, -⟩, hagent⟩ := h
  refine ⟨by rw [hca, hagent]; rfl, ?_, fun _ => by rw [hagent]; rfl⟩
  rw [hagent]
  exact .inl rfl

theorem CaState.suspended_not {st : CaState} (h : st.suspended = true) :
    st.isStarted = false ∧ st.isStopped = false ∧ st ≠ .stoped := by
  cases st <;> first | exact ⟨rfl, rfl, by simp⟩ | exact absurd h Bool.false_ne_true

theorem CaState.AtRest.started {st : CaState} (h : st.AtRest) (hst : st.isStarted = true) :
    st = .started := by
  rcases h with rfl | hs | hs
  · exact absurd hst (by decide)
  · exact absurd hst (by simp [(CaState.suspended_not hs).1])
  · exact hs

theorem CaState.AtRest.stopped {st : CaState} (h : st.AtRest) (hst : st.isStopped = true) :
    st = .stoped := by
  cases st <;> first | rfl | exact absurd hst Bool.false_ne_true

@[simp] theorem baiduCaStop_state (a : Agent) : (baiduCaStop a).state = .stoped := by
  unfold baiduCaStop
  split
  · assumption
  · rfl

theorem baiduCaStop_sr {a : Agent} (h : a.state = .stoped → a.sr = false) :
    (baiduCaStop a).sr = false := by
  unfold baiduCaStop
  split
  · exact h ‹_›
  · rfl

/-- What a start-up leaves where its result is a success. -/
theorem Completes.started {rs : Int} {a : Agent} (h : Completes rs a) {b : Bool}
    (htells : (CaResult.ok b).tells rs a.state) : a.state = .started := by
  rcases htells with h0 | ⟨hst, hcount⟩
  · exact h.1 h0
  · exact absurd hst (by simp [(CaState.suspended_not (h.2 hcount)).1])

/-! ## What an event makes of the agent -/

section Turns

variable {codes : Nat → Prop} {a a' : Agent} {x : Meets}

/-- A start-up at an event, and its notification. -/
def Agent.StartsUp (codes : Nat → Prop) (countOk : Bool) (a : Agent) (rs : CaResult)
    (a' : Agent) : Prop :=
  ∃ b status, a.Moves codes b ∧ Completes status b ∧ rs.tells status b.state ∧
    a' = b.notifyStart countOk rs

/-- A start of a connection that is not started. -/
theorem agentNext_start (hw : x.lib.wire.Responds codes)
    (hst : a.state = .stoped ∨ a.state.suspended = true) {profile : Bool} {rs : CaResult}
    (h : agentNext a x (.start profile rs) = some a') : a.StartsUp codes false rs a' := by
  have hns : ¬ a.state.isStarted = true := by
    rcases hst with hs | hs
    · simp [hs, CaState.isStarted]
    · simp [(CaState.suspended_not hs).1]
  simp only [agentNext, if_neg hns] at h
  by_cases hload : profile = true ∧ x.loads = false
  · -- the profile is not loaded
    rw [if_pos hload] at h
    split at h
    · rename_i hrs
      obtain rfl : baiduCaStop a = a' := by simpa using h
      subst hrs
      refine ⟨a, duerErrFailed, .refl, ⟨fun h0 => absurd h0 (by decide), ?_⟩,
        ⟨by decide, by decide⟩, rfl⟩
      exact fun hpos => absurd hpos (by decide)
    · exact absurd h (by simp)
  · rw [if_neg hload] at h
    obtain ⟨⟨status, b, io⟩, hcall, h⟩ := Option.bind_eq_some_iff.mp h
    obtain ⟨hmoves, hcomplete⟩ := baiduCaStart_spec hw hst hcall
    split at h
    · exact ⟨b, status, hmoves, hcomplete, ‹_›, by simpa using h.symm⟩
    · exact absurd h (by simp)

/-- Data on a connection that is on its way up. -/
theorem agentNext_dataAvailable_suspended (hw : x.lib.wire.Responds codes)
    (hst : a.state.suspended = true) {rs : CaResult}
    (h : agentNext a x (.dataAvailable rs) = some a') : a.StartsUp codes true rs a' := by
  obtain ⟨hns, hnp, -⟩ := CaState.suspended_not hst
  simp only [agentNext, hnp, Bool.false_eq_true, if_false] at h
  obtain ⟨⟨status, b, io⟩, hcall, h⟩ := Option.bind_eq_some_iff.mp h
  obtain ⟨hmoves, hcomplete⟩ := baiduCaDataAvailable_suspended hw hst hcall
  by_cases htells : rs.tells status b.state
  · simp only [if_pos htells, hns, Bool.false_eq_true, if_false, Option.some.injEq] at h
    exact ⟨b, status, hmoves, hcomplete, htells, h.symm⟩
  · simp only [if_neg htells, reduceCtorEq] at h

/-- Data on a started connection. -/
theorem agentNext_dataAvailable_started (hst : a.state = .started) {rs : CaResult}
    (h : agentNext a x (.dataAvailable rs) = some a') :
    ∃ b, (b = a ∨ ∃ code, b = a.observe (.response code)) ∧
      a' = if rs = .failed then baiduCaStop b else b := by
  simp only [agentNext, hst, CaState.isStopped, Bool.false_eq_true, if_false] at h
  obtain ⟨⟨status, b, io⟩, hcall, h⟩ := Option.bind_eq_some_iff.mp h
  by_cases htells : rs.tells status b.state
  · simp only [if_pos htells, CaState.isStarted, if_true, Option.some.injEq] at h
    exact ⟨b, baiduCaDataAvailable_started hst hcall, h.symm⟩
  · simp only [if_neg htells, reduceCtorEq] at h

/-- A message that is sent. -/
theorem agentNext_sendData {m : Nat} {status : SendStatus}
    (h : agentNext a x (.sendData m status) = some a') :
    (a.sr = true ∧ a' = a.observe (.message m)) ∨ (a.sr = false ∧ a' = a) := by
  obtain ⟨⟨rs, b, io⟩, hcall, h⟩ := Option.bind_eq_some_iff.mp h
  split at h
  · obtain rfl : b = a' := by simpa using h
    rcases baiduCaSendData_cases hcall with hsent | ⟨hsr, hb, -⟩
    · exact .inl hsent
    · exact .inr ⟨hsr, hb⟩
  · exact absurd h (by simp)

end Turns

/-! ## Every step -/

theorem agentNext_spared {a a' : Agent} {x : Meets} {act : Act} (h : act.sparesAgent = true)
    (hnext : agentNext a x act = some a') :
    a' = a ∨ ∃ m status, act = .sendData m status ∧ a.sr = true ∧ a' = a.observe (.message m) := by
  cases act with
  | sendData m status =>
    rcases agentNext_sendData hnext with ⟨hsr, hsent⟩ | ⟨-, hsame⟩
    · exact .inr ⟨m, status, rfl, hsr, hsent⟩
    · exact .inl hsame
  | notify status =>
    cases status with
    | failed => exact absurd h Bool.false_ne_true
    | ok | wouldBlock => exact .inl (by simpa [agentNext] using hnext.symm)
  | start | dataAvailable | stop | sendTimeout => exact absurd h Bool.false_ne_true
  | _ => exact .inl (by simpa [agentNext] using hnext.symm)

/-- A stopped agent has no handle. -/
def Agent.Released (a : Agent) : Prop := a.state = .stoped → a.sr = false

theorem Agent.Released.of_state {a : Agent} (h : a.state ≠ .stoped) : a.Released :=
  fun hst => absurd hst h

theorem Agent.Released.stop {a : Agent} (h : a.Released) : (baiduCaStop a).Released :=
  fun _ => baiduCaStop_sr h

theorem Agent.Released.moves {codes : Nat → Prop} {a a' : Agent} (h : a.Released)
    (hmoves : a.Moves codes a') : a'.Released := by
  induction hmoves with
  | refl => exact h
  | tail _ hmove ih =>
    cases hmove with
    | acquire hst => exact .of_state (CaState.suspended_not hst).2.2
    | response hst code => exact ih
    | staged hst => exact .of_state (by simp [hst])
    | _ => exact .of_state (by simp)

/-- What a notified start-up leaves. -/
theorem Agent.StartsUp.released {codes : Nat → Prop} {countOk : Bool} {a a' : Agent}
    {rs : CaResult} (h : a.StartsUp codes countOk rs a') (hr : a.Released) : a'.Released := by
  obtain ⟨b, status, hmoves, -, -, rfl⟩ := h
  have hb : b.Released := hr.moves hmoves
  cases rs with
  | ok _ | wouldBlock _ _ => exact hb
  | failed => exact hb.stop
  | count _ _ =>
    cases countOk with
    | true => exact hb
    | false => exact hb.stop

/-- The state that a start-up leaves, by its result. -/
def CaResult.leaves (rs : CaResult) (countOk : Bool) : CaState :=
  match rs with
  | .ok _ => .started
  | .wouldBlock st _ => st
  | .count st _ => if countOk then st else .stoped
  | .failed => .stoped

theorem Agent.StartsUp.state {codes : Nat → Prop} {countOk : Bool} {a a' : Agent} {rs : CaResult}
    (h : a.StartsUp codes countOk rs a') :
    a'.state = rs.leaves countOk ∧ (rs.leaves countOk).AtRest := by
  obtain ⟨b, status, -, hcomplete, htells, rfl⟩ := h
  cases rs with
  | ok _ => exact ⟨hcomplete.started htells, .inr (.inr rfl)⟩
  | wouldBlock st _ =>
    obtain ⟨hstatus, rfl⟩ := htells
    exact ⟨rfl, .inr (.inl (hcomplete.2 (.inl hstatus)))⟩
  | count st _ =>
    obtain ⟨hstatus, rfl⟩ := htells
    cases countOk with
    | true => exact ⟨rfl, .inr (.inl (hcomplete.2 (.inr hstatus)))⟩
    | false => exact ⟨baiduCaStop_state b, .inl rfl⟩
  | failed => exact ⟨baiduCaStop_state b, .inl rfl⟩

theorem next_start_ca {s : Sys} (hns : s.ca.isStarted = false) (profile : Bool) (rs : CaResult) :
    (next s (.start profile rs)).ca = rs.leaves false := by
  simp only [next, duerEngineStart, hns, Bool.false_eq_true, if_false]
  cases rs with
  | ok _ | wouldBlock _ _ => rfl
  | count _ _ | failed => exact duerEngineStop_ca _

theorem next_dataAvailable_ca {s : Sys} (hns : s.ca.isStarted = false)
    (hnp : s.ca.isStopped = false) (rs : CaResult) :
    (next s (.dataAvailable rs)).ca = rs.leaves true := by
  simp only [next, duerEngineDataAvailable, hnp, Bool.false_eq_true, if_false]
  cases rs with
  | failed => exact duerEngineStop_ca _
  | _ => simp only [hns, Bool.false_eq_true, if_false]; rfl

theorem next_dataAvailable_started_ca {s : Sys} (hst : s.ca = .started) (rs : CaResult) :
    (next s (.dataAvailable rs)).ca = if rs = .failed then .stoped else .started := by
  simp only [next, duerEngineDataAvailable, hst, CaState.isStopped, Bool.false_eq_true, if_false]
  cases rs with
  | failed => exact duerEngineStop_ca _
  | _ => simp [CaState.isStarted]

/-- **The agent between the events**, whatever the transport and the library give. An event that
    does not return is no step; one that has returned has left the agent in a state from which the
    next can go on. -/
theorem Session.Linked.step {s s' : Session} {x : Act × Meets} (h : s.Linked)
    (hs : s.step x = some s') : s'.Linked := by
  obtain ⟨-, hsys, hagent⟩ := Session.step_eq_some.mp hs
  obtain ⟨act, x⟩ := x
  simp only at hsys hagent
  have hreleased : s.agent.Released := h.handle
  have hany : x.lib.wire.Responds fun _ => True := x.lib.wire.responds_any
  have hstart {countOk : Bool} {rs : CaResult}
      (hup : s.agent.StartsUp (fun _ => True) countOk rs s'.agent)
      (hca : s'.sys.ca = rs.leaves countOk) : s'.Linked := by
    obtain ⟨hstate, hrest⟩ := hup.state
    exact ⟨hca.trans hstate.symm, hstate ▸ hrest, hup.released hreleased⟩
  have hstop (hca : s'.sys.ca = .stoped) (hagent : some (baiduCaStop s.agent) = some s'.agent) :
      s'.Linked := by
    obtain hagent : baiduCaStop s.agent = s'.agent := by simpa using hagent
    refine ⟨by rw [hca, ← hagent, baiduCaStop_state], ?_, ?_⟩
    · rw [← hagent]
      exact .inl (baiduCaStop_state _)
    · rw [← hagent]
      exact hreleased.stop
  by_cases hspared : act.sparesAgent = true
  · have hca : s'.sys.ca = s.sys.ca := by rw [hsys, next_ca hspared]
    rcases agentNext_spared hspared hagent with hsame | ⟨m, _, -, -, hsent⟩
    · exact ⟨by rw [hca, h.ca, hsame], hsame ▸ h.rest, hsame ▸ hreleased⟩
    · exact ⟨by rw [hca, h.ca, hsent]; rfl, hsent ▸ h.rest, hsent ▸ hreleased⟩
  cases act with
  | start profile rs =>
    rcases h.rest with hst | hst | hst
    · have hns : s.sys.ca.isStarted = false := by rw [h.ca, hst]; rfl
      exact hstart (agentNext_start hany (.inl hst) hagent) (hsys ▸ next_start_ca hns profile rs)
    · have hns : s.sys.ca.isStarted = false := h.ca ▸ (CaState.suspended_not hst).1
      exact hstart (agentNext_start hany (.inr hst) hagent) (hsys ▸ next_start_ca hns profile rs)
    · -- a started connection is left alone
      have hsame : s.agent = s'.agent := by simpa [agentNext, hst, CaState.isStarted] using hagent
      refine ⟨?_, hsame ▸ h.rest, hsame ▸ hreleased⟩
      rw [hsys, ← hsame, ← h.ca]
      simp [next, duerEngineStart, h.ca, hst, CaState.isStarted]
  | dataAvailable rs =>
    rcases h.rest with hst | hst | hst
    · have hsame : s.agent = s'.agent := by simpa [agentNext, hst, CaState.isStopped] using hagent
      refine ⟨?_, hsame ▸ h.rest, hsame ▸ hreleased⟩
      rw [hsys, ← hsame, ← h.ca, next_dataAvailable_stopped (by rw [h.ca, hst]; rfl)]
    · obtain ⟨hns, hnp, -⟩ := CaState.suspended_not hst
      exact hstart (agentNext_dataAvailable_suspended hany hst hagent)
        (hsys ▸ next_dataAvailable_ca (h.ca ▸ hns) (h.ca ▸ hnp) rs)
    · obtain ⟨b, hanswered, hagent'⟩ := agentNext_dataAvailable_started hst hagent
      have hb : b.state = .started := by
        rcases hanswered with rfl | ⟨code, rfl⟩
        · exact hst
        · exact hst
      have hca : s'.sys.ca = if rs = .failed then .stoped else .started :=
        hsys ▸ next_dataAvailable_started_ca (h.ca.trans hst) rs
      have hbr : b.Released := .of_state (by simp [hb])
      by_cases hrs : rs = .failed
      · rw [if_pos hrs] at hca hagent'
        refine ⟨by rw [hca, hagent', baiduCaStop_state], ?_, hagent' ▸ hbr.stop⟩
        rw [hagent']
        exact .inl (baiduCaStop_state b)
      · rw [if_neg hrs] at hca hagent'
        exact ⟨by rw [hca, hagent', hb], hagent' ▸ .inr (.inr hb), hagent' ▸ hbr⟩
  | stop => exact hstop (hsys ▸ duerEngineStop_ca _) hagent
  | sendTimeout => exact hstop (hsys ▸ duerEngineStop_ca _) hagent
  | notify status =>
    cases status with
    | failed => exact hstop (hsys ▸ duerEngineStop_ca _) hagent
    | ok | wouldBlock => exact absurd rfl hspared
  | _ => exact absurd rfl hspared

/-- The agent of every reachable session is linked to its engine. -/
theorem Session.linked {s : Session} (h : Reachable Session.init Session.step s) : s.Linked :=
  h.invariant Session.Linked (fun hi => .initial hi) fun hl _ hs => hl.step hs

/-! ## What a step makes of the agent -/

/-- A start-up is carried on at an event: a start, or an arrival on its way up. -/
def Session.StartsUp (s : Session) : Act → Prop
  | .start _ _ => s.agent.state ≠ .started
  | .dataAvailable _ => s.agent.state.suspended = true
  | _ => False

/-- What a step can make of the agent. A start-up meets responses of these codes; `count` says
    whether a positive count can be taken for its success, `send` whether a message can be sent. -/
inductive Agent.Turn (codes : Nat → Prop) (count send : Prop) (a : Agent) : Agent → Prop
  | same : Turn codes count send a a
  | sent (m : Nat) (h : a.sr = true) (hsend : send) :
      Turn codes count send a (a.observe (.message m))
  | response (code : Nat) (h : a.state = .started) :
      Turn codes count send a (a.observe (.response code))
  | stop : Turn codes count send a (baiduCaStop a)
  | responseStop (code : Nat) (h : a.state = .started) :
      Turn codes count send a (baiduCaStop (a.observe (.response code)))
  | startsUp {a' : Agent} {countOk : Bool} {rs : CaResult} (h : a.StartsUp codes countOk rs a')
      (hcount : ∀ st b, rs = .count st b → countOk = true → count) : Turn codes count send a a'

theorem Session.Linked.turn {s s' : Session} {x : Act × Meets} {codes : Nat → Prop}
    {count send : Prop} (h : s.Linked) (hs : s.step x = some s')
    (hw : s.StartsUp x.1 → x.2.lib.wire.Responds codes)
    (hcount : s.StartsUp x.1 → ∀ st b, x.1 = .dataAvailable (.count st b) → count)
    (hsend : ∀ m status, x.1 = .sendData m status → send) :
    s.agent.Turn codes count send s'.agent := by
  obtain ⟨-, -, hagent⟩ := Session.step_eq_some.mp hs
  obtain ⟨act, x⟩ := x
  simp only at hagent hw hcount hsend
  have hstop (hagent : some (baiduCaStop s.agent) = some s'.agent) :
      s.agent.Turn codes count send s'.agent := by
    obtain hagent : baiduCaStop s.agent = s'.agent := by simpa using hagent
    exact hagent ▸ .stop
  by_cases hspared : act.sparesAgent = true
  · rcases agentNext_spared hspared hagent with hsame | ⟨m, status, hact, hsr, hsent⟩
    · exact hsame ▸ .same
    · exact hsent ▸ .sent m hsr (hsend m status hact)
  cases act with
  | start profile rs =>
    have hup (hst : s.agent.state = .stoped ∨ s.agent.state.suspended = true) :
        s.agent.Turn codes count send s'.agent := by
      have hns : s.StartsUp (.start profile rs) := by
        rcases hst with hst | hst
        · simp [StartsUp, hst]
        · exact fun hs => absurd hst (by simp [hs, CaState.suspended])
      exact .startsUp (agentNext_start (hw hns) hst hagent) (by simp)
    rcases h.rest with hst | hst | hst
    · exact hup (.inl hst)
    · exact hup (.inr hst)
    · have hsame : s.agent = s'.agent := by simpa [agentNext, hst, CaState.isStarted] using hagent
      exact hsame ▸ .same
  | dataAvailable rs =>
    rcases h.rest with hst | hst | hst
    · have hsame : s.agent = s'.agent := by simpa [agentNext, hst, CaState.isStopped] using hagent
      exact hsame ▸ .same
    · refine .startsUp (agentNext_dataAvailable_suspended (hw hst) hst hagent) ?_
      exact fun st b hrs _ => hcount hst st b (by rw [hrs])
    · obtain ⟨b, hanswered, hagent'⟩ := agentNext_dataAvailable_started hst hagent
      rw [hagent']
      rcases hanswered with rfl | ⟨code, rfl⟩
      · split
        · exact .stop
        · exact .same
      · split
        · exact .responseStop code hst
        · exact .response code hst
  | stop => exact hstop hagent
  | sendTimeout => exact hstop hagent
  | notify status =>
    cases status with
    | failed => exact hstop hagent
    | ok | wouldBlock => exact absurd rfl hspared
  | _ => exact absurd rfl hspared

end Engine
end LightDuer
