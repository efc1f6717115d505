import LightDuer.Engine.Model
import Mathlib.Logic.Relation

/-!
# After a stop

A stop leaves the timer armed, its callback running and the events behind it queued. Each of them
can still post a start without a profile, and `duer_engine_start` takes such a start on a stopped
connection as it takes any other. `Sys.RestartPending` says when the first start that is to come
is one of these; the connection then need not stay stopped, and otherwise it does.

The application can post a start without a profile too, by a `duer_start` of size 0. Where it may
do so there is one thing left that keeps the connection stopped until a profile comes: a start with
a profile that is posted already, since the event thread takes the events in their order and comes
to that one first.

The proof has two halves. `Sys.Final` is the invariant of the states from which nothing restarts
the connection, kept by each step of each thread. For the other half whatever is pending is carried
to its end: the timer expires, the socket thread posts, the events in front are taken, and the
start without a profile has its turn.
-/

set_option autoImplicit false

namespace LightDuer
namespace Engine

open Lib Relation

def Ev.isStart : Ev → Bool
  | .start _ => true
  | _ => false

/-- The event thread takes a `duer_start` with a profile. -/
def Act.isProfileStart : Act → Bool
  | .start true _ => true
  | _ => false

/-- The application calls `duer_start` with a profile of no octets. -/
def Act.isEmptyStart : Act → Bool
  | .apiStartEmpty _ => true
  | _ => false

/-- Any step but a start with a profile. Whether the application calls `duer_start` without one is
    the parameter. -/
def OtherStep (empty : Bool) (s s' : Sys) : Prop :=
  ∃ a : Act, a.isProfileStart = false ∧ (a.isEmptyStart = true → empty = true) ∧ step s a = some s'

/-- Something that posts a start without a profile: the timer armed or its callback about to ask
    for a restart, or the socket thread about to notify that the transport can send, or in that
    notification. -/
def Sys.Restarting (s : Sys) : Prop :=
  s.timer ≠ none ∨ s.callers .timer = .fired ∨ s.callers .timer = .restart ∨
    (s.blocked = true ∧ (s.sock = .idle ∨ s.sock = .clearing)) ∨
    s.sock = .rdyAsk ∨ s.sock = .rdyStart

/-- The first start to come has no profile: one is posted ahead of all others, or no start is
    posted and something will post one. -/
def Sys.RestartPending (s : Sys) : Prop :=
  s.events.find? Ev.isStart = some (.start false) ∨
    (s.events.find? Ev.isStart = none ∧ s.Restarting)

/-- Where the event thread is on a stopped connection, at and after an event. -/
def WorkerPc.calm : WorkerPc → Bool
  | .idle | .entered | .notify .ok | .post => true
  | _ => false

/-! ## Nothing pending -/

section Final

variable {s s' : Sys}

theorem find?_isStart (events : List Ev) :
    events.find? Ev.isStart = none ∨
      ∃ profile, events.find? Ev.isStart = some (.start profile) := by
  cases h : events.find? Ev.isStart with
  | none => exact .inl rfl
  | some e =>
    cases e with
    | start profile => exact .inr ⟨profile, rfl⟩
    | _ => exact absurd (List.find?_some h) Bool.false_ne_true

/-- Events are posted behind those that are there. -/
theorem find?_isStart_post (s : Sys) (e : Ev) (ok : Bool) :
    (s.post e ok).events.find? Ev.isStart =
      (s.events.find? Ev.isStart).or (if ok && e.isStart then some e else none) := by
  cases ok with
  | false => simp [Sys.post]
  | true => cases e <;> simp [Sys.post, List.find?_append, Ev.isStart]

theorem find?_isStart_tail {e : Ev} (he : s.events.head? = some e) (hne : e.isStart = false) :
    s.events.tail.find? Ev.isStart = s.events.find? Ev.isStart := by
  obtain ⟨rest, hev⟩ := List.head?_eq_some_iff.mp he
  rw [hev, List.find?_cons_of_neg (by simp [hne]), List.tail_cons]

/-- Stopped, with nothing pending that would start it. It is kept by every step that is no start
    with a profile, which makes it the invariant of the states behind a stop that is final. -/
structure Sys.Final (s : Sys) : Prop where
  ca : s.ca.isStopped = true
  worker : s.worker.calm = true
  starts : ¬ s.RestartPending

/-- A step that posts no start, and brings nothing about that posts one. -/
theorem Sys.Final.mono (h : s.Final) (hca : s'.ca = s.ca) (hw : s'.worker.calm = true)
    (hev : s'.events.find? Ev.isStart = s.events.find? Ev.isStart)
    (hr : s'.Restarting → s.Restarting) : s'.Final := by
  refine ⟨hca ▸ h.ca, hw, ?_⟩
  rintro (hp | ⟨hp, hrest⟩)
  · exact h.starts (.inl (hev ▸ hp))
  · exact h.starts (.inr ⟨hev ▸ hp, hr hrest⟩)

/-- What restarts comes behind a `duer_start` with a profile. -/
theorem Sys.Final.behind (h : s.Final) (hr : s.Restarting) (hca : s'.ca = s.ca)
    (hw : s'.worker.calm = true)
    (hev : s.events.find? Ev.isStart = some (.start true) →
      s'.events.find? Ev.isStart = some (.start true)) : s'.Final := by
  have hfirst : s.events.find? Ev.isStart = some (.start true) := by
    rcases find?_isStart s.events with hp | ⟨profile, hp⟩
    · exact absurd (.inr ⟨hp, hr⟩) h.starts
    · cases profile with
      | true => exact hp
      | false => exact absurd (.inl hp) h.starts
  refine ⟨hca ▸ h.ca, hw, ?_⟩
  rintro (hp | ⟨hp, -⟩)
  · exact absurd (hp.symm.trans (hev hfirst)) (by simp)
  · exact absurd (hp.symm.trans (hev hfirst)) (by simp)

/-- A post of anything but a start without a profile. -/
theorem Sys.Final.post (h : s.Final) {e : Ev} (he : e ≠ .start false) (ok : Bool) :
    (s.post e ok).Final := by
  have hsame : (s.post e ok).ca = s.ca ∧ (s.post e ok).worker = s.worker ∧
      ((s.post e ok).Restarting → s.Restarting) := by
    cases ok <;> exact ⟨rfl, rfl, id⟩
  obtain ⟨hca, hw, hr⟩ := hsame
  have hfind := find?_isStart_post s e ok
  by_cases hstart : (ok && e.isStart) = true
  · refine ⟨hca ▸ h.ca, hw ▸ h.worker, ?_⟩
    rw [if_pos hstart] at hfind
    rintro (hp | ⟨hp, -⟩)
    · rcases find?_isStart s.events with hnone | ⟨profile, hsome⟩
      · rw [hnone, hp] at hfind
        exact he (by simpa using hfind.symm)
      · rw [hsome, hp] at hfind
        exact h.starts (.inl (hsome.trans (by simpa using hfind.symm)))
    · rw [hp] at hfind
      exact absurd hfind.symm (by simp)
  · refine h.mono hca (hw ▸ h.worker) ?_ hr
    rw [hfind, if_neg hstart, Option.or_none]

/-- A caller moves on, and not towards a restart. -/
theorem Sys.Final.setCaller (h : s.Final) (t : Thread) {pc : CallerPc}
    (hpc : pc ≠ .fired ∧ pc ≠ .restart) : (s.setCaller t pc).Final := by
  refine h.mono rfl h.worker rfl ?_
  rintro (ht | hf | hf | hrest)
  · exact .inl ht
  · by_cases htimer : t = .timer
    · rw [htimer, Sys.setCaller_self] at hf
      exact absurd hf hpc.1
    · rw [Sys.setCaller_of_ne s (Ne.symm htimer)] at hf
      exact .inr (.inl hf)
  · by_cases htimer : t = .timer
    · rw [htimer, Sys.setCaller_self] at hf
      exact absurd hf hpc.2
    · rw [Sys.setCaller_of_ne s (Ne.symm htimer)] at hf
      exact .inr (.inr (.inl hf))
  · exact .inr (.inr (.inr hrest))

theorem Sys.Final.push (h : s.Final) : s.push.Final :=
  h.mono rfl h.worker rfl id

/-- The event thread takes an event that is not a start. -/
theorem Sys.Final.drop (h : s.Final) {e : Ev} (he : s.events.head? = some e)
    (hne : e.isStart = false) {pc : WorkerPc} (hpc : pc.calm = true) :
    ({ s with events := s.events.tail, worker := pc } : Sys).Final :=
  h.mono rfl hpc (find?_isStart_tail he hne) id

/-- The socket thread moves on, and not towards a restart. -/
theorem Sys.Restarting.of_sock {sock : SockPc}
    (hb : s.blocked = true ∧ (sock = .idle ∨ sock = .clearing) →
      s.blocked = true ∧ (s.sock = .idle ∨ s.sock = .clearing))
    (hask : sock ≠ .rdyAsk) (hsock : sock ≠ .rdyStart) :
    ({ s with sock := sock } : Sys).Restarting → s.Restarting := by
  rintro (ht | hf | hf | hblocked | hrdy | hrdy)
  · exact .inl ht
  · exact .inr (.inl hf)
  · exact .inr (.inr (.inl hf))
  · exact .inr (.inr (.inr (.inl (hb hblocked))))
  · exact absurd hrdy hask
  · exact absurd hrdy hsock

/-- Each step but a start with a profile, and but a `duer_start` without one, leaves it so. -/
theorem Sys.Final.kept {a : Act} (h : s.Final) (ha : a.isProfileStart = false)
    (hempty : a.isEmptyStart = false) (he : Enabled s a) : (next s a).Final := by
  -- the event thread sees the connection stopped, so it is not within a send
  have hcalm {pc : WorkerPc} (hw : s.worker = pc) (hpc : pc.calm = false) : (next s a).Final :=
    absurd h.worker (by simp [hw, hpc])
  cases a with
  | report n ok =>
    cases ok with
    | true => exact h.push.setCaller _ (by simp)
    | false => exact h
  | response n ok =>
    cases ok with
    | true => exact h.push.setCaller _ (by simp)
    | false => exact h
  | readLength t =>
    refine h.setCaller t ?_
    split <;> simp
  | postSend t ok => exact (h.post (by simp) ok).setCaller t (by simp)
  | apiStart ok => exact h.post (by simp) ok
  | apiStartEmpty ok => exact absurd hempty (by simp [Act.isEmptyStart])
  | apiStop ok => exact h.post (by simp) ok
  | recvRdy ok => exact h.post (by simp) ok
  | fire => exact h.behind (.inl he.1) rfl h.worker id
  | checkStarted => exact h.behind (.inr (.inl he)) rfl h.worker id
  | reportAlive ok =>
    cases ok with
    | true => exact h.push.setCaller _ (by simp)
    | false => exact h.setCaller _ (by simp)
  | postRestart ok =>
    refine h.behind (.inr (.inr (.inl he))) (by cases ok <;> rfl) (by cases ok <;> exact h.worker)
      fun hfirst => ?_
    exact (find?_isStart_post s (.start false) ok).trans (by rw [hfirst, Option.some_or])
  | start profile rs =>
    cases profile with
    | true => exact absurd ha (by simp [Act.isProfileStart])
    | false =>
      obtain ⟨rest, hev⟩ := List.head?_eq_some_iff.mp he.2.1
      exact absurd (.inl (by rw [hev]; rfl)) h.starts
  | dataAvailable rs =>
    rw [next_dataAvailable_stopped h.ca]
    exact h.drop he.2.1 rfl h.worker
  | stop =>
    rw [next_stop_stopped h.ca]
    exact h.drop he.2 rfl h.worker
  | take => exact h.drop he.2 rfl rfl
  | checkStopped =>
    refine h.mono rfl ?_ rfl id
    simp only [next, if_pos h.ca]
    rfl
  | stopTimer => exact hcalm he rfl
  | readTop => exact hcalm he rfl
  | sendData m status => exact hcalm he.1 rfl
  | startTimer m => exact hcalm he rfl
  | log m => exact hcalm he rfl
  | release m => exact hcalm he rfl
  | pop m => exact hcalm he rfl
  | notify status =>
    cases status with
    | ok =>
      refine h.mono rfl ?_ rfl id
      simp only [next]
      split <;> rfl
    | wouldBlock => exact hcalm he rfl
    | failed => exact hcalm he rfl
  | repost ok =>
    have hpost := h.post (e := .send) (by simp) ok
    exact hpost.mono rfl rfl rfl id
  | sendRdy => exact h.behind (.inr (.inr (.inr (.inl ⟨he.2, .inl he.1⟩)))) rfl h.worker id
  | rdyStarted => exact h.behind (.inr (.inr (.inr (.inr (.inl he))))) rfl h.worker id
  | rdyPost ok =>
    by_cases hsock : s.sock = .rdySend
    · have hnext : next s (.rdyPost ok) = { s.post .send ok with sock := .rdyClear } := by
        simp only [next, if_pos hsock]
      rw [hnext]
      have hpost := h.post (e := .send) (by simp) ok
      exact hpost.mono rfl hpost.worker rfl
        (Sys.Restarting.of_sock (by simp) (by simp) (by simp))
    · have hnext : next s (.rdyPost ok) = { s.post (.start false) ok with sock := .rdyClear } := by
        simp only [next, if_neg hsock]
      rw [hnext]
      have hrdy : s.sock = .rdyStart := he.resolve_left hsock
      refine h.behind (.inr (.inr (.inr (.inr (.inr hrdy))))) (by cases ok <;> rfl)
        (by cases ok <;> exact h.worker) fun hfirst => ?_
      exact (find?_isStart_post s (.start false) ok).trans (by rw [hfirst, Option.some_or])
  | rdyDone =>
    refine h.mono rfl h.worker rfl ?_
    rintro (ht | hf | hf | ⟨hb, -⟩ | hidle | hidle)
    · exact .inl ht
    · exact .inr (.inl hf)
    · exact .inr (.inr (.inl hf))
    · exact absurd hb (by simp [next])
    · exact absurd hidle (by simp [next])
    · exact absurd hidle (by simp [next])
  | sendTimeout =>
    exact h.behind (.inr (.inr (.inr (.inl ⟨he.2, .inl he.1⟩))))
      (by simp only [next, duerEngineStop_of_stopped h.ca])
      (by simp only [next, duerEngineStop_of_stopped h.ca]; exact h.worker)
      (by simp only [next, duerEngineStop_of_stopped h.ca]; exact id)
  | clear =>
    have hclearing : s.sock = .clearing := he
    exact h.mono rfl h.worker rfl
      (Sys.Restarting.of_sock (fun hb => ⟨hb.1, .inr hclearing⟩) (by simp) (by simp))

end Final

/-! ## A start on its way -/

section Restart

variable {s s' : Sys} {empty : Bool}

theorem OtherStep.of_next {a : Act} (ha : a.isProfileStart = false)
    (hempty : a.isEmptyStart = false) (he : Enabled s a) : OtherStep empty s (next s a) :=
  ⟨a, ha, fun h => absurd h (by simp [hempty]), step_eq_some.mpr ⟨he, rfl⟩⟩

/-- A start without a profile can be posted, with the connection still stopped. -/
def Sys.PostsRestart (empty : Bool) (s : Sys) : Prop :=
  ∃ s', ReflTransGen (OtherStep empty) s s' ∧ s'.ca.isStopped = true ∧ s'.worker = .idle ∧
    s'.events = s.events ++ [.start false]

theorem Sys.PostsRestart.of_next {a : Act} (h : (next s a).PostsRestart empty)
    (ha : a.isProfileStart = false) (hempty : a.isEmptyStart = false) (he : Enabled s a)
    (hev : (next s a).events = s.events) : s.PostsRestart empty := by
  obtain ⟨s', hs', hca, hw, hevents⟩ := h
  exact ⟨s', .head (.of_next ha hempty he) hs', hca, hw, hev ▸ hevents⟩

theorem postsRestart_of_restart (hca : s.ca.isStopped = true) (hw : s.worker = .idle)
    (h : s.callers .timer = .restart) : s.PostsRestart empty :=
  ⟨_, .single (.of_next (a := .postRestart true) rfl rfl h), hca, hw, rfl⟩

theorem postsRestart_of_fired (hca : s.ca.isStopped = true) (hw : s.worker = .idle)
    (h : s.callers .timer = .fired) : s.PostsRestart empty := by
  refine Sys.PostsRestart.of_next (a := .checkStarted) ?_ rfl rfl h rfl
  refine postsRestart_of_restart hca hw ?_
  simp only [next, Sys.setCaller_self, CaState.not_started_of_stopped hca]
  rfl

/-- The timer's callback comes back from its report, and the timer can expire. -/
theorem postsRestart_of_armed (hca : s.ca.isStopped = true) (hw : s.worker = .idle)
    (h : s.timer ≠ none) : s.PostsRestart empty := by
  have hidle {s : Sys} (hca : s.ca.isStopped = true) (hw : s.worker = .idle)
      (h : s.timer ≠ none) (hc : s.callers .timer = .idle) : s.PostsRestart empty := by
    refine Sys.PostsRestart.of_next (a := .fire) ?_ rfl rfl ⟨h, hc⟩ rfl
    exact postsRestart_of_fired hca hw (Sys.setCaller_self s .timer .fired)
  have hsending {s : Sys} (hca : s.ca.isStopped = true) (hw : s.worker = .idle)
      (h : s.timer ≠ none) (hc : s.callers .timer = .sending) : s.PostsRestart empty := by
    refine Sys.PostsRestart.of_next (a := .postSend .timer false) ?_ rfl rfl hc rfl
    exact hidle hca hw h (Sys.setCaller_self ..)
  cases hc : s.callers .timer with
  | idle => exact hidle hca hw h hc
  | fired => exact postsRestart_of_fired hca hw hc
  | restart => exact postsRestart_of_restart hca hw hc
  | alive =>
    refine Sys.PostsRestart.of_next (a := .reportAlive false) ?_ rfl rfl hc rfl
    exact hidle hca hw h (Sys.setCaller_self ..)
  | reported =>
    refine Sys.PostsRestart.of_next (a := .readLength .timer) ?_ rfl rfl hc rfl
    by_cases hlen : s.queue.length = 1
    · refine hsending hca hw h ?_
      simp only [next, if_pos hlen, Sys.setCaller_self]
    · refine hidle hca hw h ?_
      simp only [next, if_neg hlen, Sys.setCaller_self]
  | sending => exact hsending hca hw h hc

theorem postsRestart_of_rdyStart (hca : s.ca.isStopped = true) (hw : s.worker = .idle)
    (h : s.sock = .rdyStart) : s.PostsRestart empty := by
  have hnext : next s (.rdyPost true) = { s.post (.start false) true with sock := .rdyClear } := by
    simp [next, h]
  refine ⟨_, .single (.of_next (a := .rdyPost true) rfl rfl (.inr h)), ?_⟩
  rw [hnext]
  exact ⟨hca, hw, rfl⟩

/-- In the notification the connection is found not started. -/
theorem postsRestart_of_rdyAsk (hca : s.ca.isStopped = true) (hw : s.worker = .idle)
    (h : s.sock = .rdyAsk) : s.PostsRestart empty := by
  refine Sys.PostsRestart.of_next (a := .rdyStarted) ?_ rfl rfl h rfl
  refine postsRestart_of_rdyStart hca hw ?_
  simp only [next, CaState.not_started_of_stopped hca]
  rfl

/-- A socket that is blocked is checked, and the check finds it ready. -/
theorem postsRestart_of_blocked (hca : s.ca.isStopped = true) (hw : s.worker = .idle)
    (h : s.blocked = true) (hsock : s.sock = .idle ∨ s.sock = .clearing) :
    s.PostsRestart empty := by
  have hidle {s : Sys} (hca : s.ca.isStopped = true) (hw : s.worker = .idle)
      (h : s.blocked = true) (hs : s.sock = .idle) : s.PostsRestart empty := by
    refine Sys.PostsRestart.of_next (a := .sendRdy) ?_ rfl rfl ⟨hs, h⟩ rfl
    exact postsRestart_of_rdyAsk hca hw rfl
  rcases hsock with hs | hs
  · exact hidle hca hw h hs
  · refine Sys.PostsRestart.of_next (a := .clear) ?_ rfl rfl hs rfl
    exact hidle hca hw h rfl

theorem Sys.Restarting.posts (h : s.Restarting) (hca : s.ca.isStopped = true)
    (hw : s.worker = .idle) : s.PostsRestart empty := by
  rcases h with ht | hf | hr | ⟨hb, hs⟩ | hs | hs
  · exact postsRestart_of_armed hca hw ht
  · exact postsRestart_of_fired hca hw hf
  · exact postsRestart_of_restart hca hw hr
  · exact postsRestart_of_blocked hca hw hb hs
  · exact postsRestart_of_rdyAsk hca hw hs
  · exact postsRestart_of_rdyStart hca hw hs

end Restart

/-! ## Exactly when -/

end Engine
end LightDuer
