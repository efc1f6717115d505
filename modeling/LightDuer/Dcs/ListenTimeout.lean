import LightDuer.Lib.Transition

/-!
# The timeout of a listening session

`lightduer_dcs_voice_input.c`: a session starts with `ListenStarted`, ends with `StopListen`, and is
ended by a timer if that takes too long. Each of the three has one section under `s_mutex`, and a
step is such a section. A timer that has expired runs its callback in a thread of its own, which may
have to wait for the mutex; what `duer_timer_stop` does comes too late for it.

Sessions are counted, and each timer and each callback has the session it was started for. The
source has no such number: whether there is a session is all it knows.

## The property

A timeout is to end the session it was raised for (`OwnTimeouts`), and every session is to have the
full time (`FullTimeout`): its timer is due 20 seconds after its start, or these have passed and the
callback is on its way.

## What is needed for it

`ListenGuard` is a condition on the start of a session: no callback waits for the mutex, and the
timer can be started. Then the timer and all callbacks that wait belong to the session, and each
section keeps it so. Once a session is over, what is left of it does not matter until the next
start.

That a start with a callback waiting does harm is shown in general, not by one run: in every
reachable state without a session in which a callback waits, a session that starts can be ended by
that callback.
-/

set_option autoImplicit false

namespace LightDuer
namespace Dcs

open Lib

/-- `MAX_LISTEN_TIME`, in ms -/
def maxListenTime : Nat := 20000

/-- `s_listen_timer` while it runs. -/
structure ListenTimer where
  session : Nat
  due : Nat
deriving DecidableEq, Repr

/-- The variables of the module, the timer and the clock. -/
structure VoiceInput where
  isListening : Bool
  timer : Option ListenTimer
  /-- the callbacks of expired timers that have not got the mutex -/
  waiting : List Nat
  now : Nat
  /-- the sessions there have been -/
  session : Nat
  /-- when the last one has started -/
  started : Nat
  /-- the callbacks that have stopped the recorder and reported `ListenTimedOut`, each with the
      session that this has ended -/
  timedOut : List (Nat × Nat)
deriving DecidableEq, Repr

inductive ListenAct where
  /-- `duer_dcs_on_listen_started`; `armed` tells whether `duer_timer_start` has succeeded. -/
  | listenStarted (armed : Bool)
  /-- `duer_listen_stop_cb`; `disarmed` tells whether `duer_timer_stop` has. -/
  | stopListen (disarmed : Bool)
  /-- the callback of this session gets the mutex -/
  | timeout (session : Nat)
  /-- the timer expires -/
  | expire
  /-- time passes -/
  | pass (ms : Nat)
deriving DecidableEq, Repr

namespace VoiceInput

/-- Before the first session. -/
def init (s : VoiceInput) : Prop :=
  s.isListening = false ∧ s.timer = none ∧ s.waiting = [] ∧ s.session = 0 ∧ s.timedOut = []

/-- `duer_dcs_on_listen_started` -/
def onListenStarted (s : VoiceInput) (armed : Bool) : VoiceInput :=
  if s.isListening = false then
    { s with
      isListening := true
      session := s.session + 1
      started := s.now
      -- the result of `duer_timer_start` is not looked at
      timer := if armed = true then some ⟨s.session + 1, s.now + maxListenTime⟩ else s.timer }
  else s

/-- `duer_listen_stop_cb` -/
def listenStopCb (s : VoiceInput) (disarmed : Bool) : VoiceInput :=
  if s.isListening = true then
    { s with
      isListening := false
      timer := if disarmed = true then none else s.timer }
  else s

/-- `duer_listen_timeout`, for the timer of `session` -/
def listenTimeout (s : VoiceInput) (session : Nat) : VoiceInput :=
  if s.isListening = true then
    { s with
      isListening := false
      timedOut := s.timedOut ++ [(session, s.session)] }
  else s

def step (s : VoiceInput) : ListenAct → Option VoiceInput
  | .listenStarted armed => some (s.onListenStarted armed)
  | .stopListen disarmed => some (s.listenStopCb disarmed)
  | .timeout session =>
      if session ∈ s.waiting then
        some ({ s with waiting := s.waiting.erase session }.listenTimeout session)
      else none
  | .expire =>
      match s.timer with
      | some t =>
          if t.due ≤ s.now then some { s with timer := none, waiting := s.waiting ++ [t.session] }
          else none
      | none => none
  | .pass ms => some { s with now := s.now + ms }

/-- A timeout has ended the session it was raised for. -/
def OwnTimeouts (s : VoiceInput) : Prop := ∀ e ∈ s.timedOut, e.1 = e.2

/-- The session has its timer, with the full time from its start; or the time is over, and the
    callback is on its way. -/
def FullTimeout (s : VoiceInput) : Prop :=
  s.isListening = true →
    s.timer = some ⟨s.session, s.started + maxListenTime⟩ ∨
      s.session ∈ s.waiting ∧ s.started + maxListenTime ≤ s.now

/-- A session starts when no callback waits, and its timer is started. -/
def ListenGuard (s : VoiceInput) : ListenAct → Prop
  | .listenStarted armed => s.isListening = true ∨ s.waiting = [] ∧ armed = true
  | _ => True

/-- The timer and the callbacks of a session are its own. -/
structure Inv (s : VoiceInput) : Prop where
  own : s.OwnTimeouts
  full : s.FullTimeout
  waiting : s.isListening = true → ∀ j ∈ s.waiting, j = s.session
  timer : s.isListening = true → ∀ t ∈ s.timer, t.session = s.session

section Steps

variable {s s' : VoiceInput}

/-- Where no session is, only the past matters. -/
theorem Inv.of_not_listening (hown : s.OwnTimeouts) (h : s.isListening = false) : s.Inv where
  own := hown
  full := fun hl => absurd (h.symm.trans hl) Bool.false_ne_true
  waiting := fun hl => absurd (h.symm.trans hl) Bool.false_ne_true
  timer := fun hl => absurd (h.symm.trans hl) Bool.false_ne_true

theorem Inv.initial (h : s.init) : s.Inv := by
  obtain ⟨hlistening, -, -, -, htimed⟩ := h
  refine .of_not_listening ?_ hlistening
  intro e he
  rw [htimed] at he
  exact absurd he List.not_mem_nil

/-- A new session finds nothing of those before it. -/
theorem Inv.onListenStarted (h : s.Inv) {armed : Bool}
    (hg : s.ListenGuard (.listenStarted armed)) : (s.onListenStarted armed).Inv := by
  unfold VoiceInput.onListenStarted
  split
  · rename_i hnot
    rcases hg with hl | ⟨hwaiting, rfl⟩
    · exact absurd (hnot.symm.trans hl) Bool.false_ne_true
    · refine ⟨h.own, fun _ => .inl rfl, ?_, ?_⟩
      · intro _ j hj
        rw [hwaiting] at hj
        exact absurd hj List.not_mem_nil
      · rintro _ t ⟨⟩
        rfl
  · exact h

theorem Inv.listenStopCb (h : s.Inv) (disarmed : Bool) : (s.listenStopCb disarmed).Inv := by
  unfold VoiceInput.listenStopCb
  split
  · exact .of_not_listening h.own rfl
  · exact h

/-- The callback that gets the mutex is one of the session. -/
theorem Inv.listenTimeout (h : s.Inv) {j : Nat} (hj : j ∈ s.waiting) :
    ({ s with waiting := s.waiting.erase j }.listenTimeout j).Inv := by
  unfold VoiceInput.listenTimeout
  split
  · rename_i hl
    refine .of_not_listening ?_ rfl
    intro e he
    rcases List.mem_append.mp he with he | he
    · exact h.own e he
    · rw [List.mem_singleton.mp he]
      exact h.waiting hl j hj
  · rename_i hl
    exact .of_not_listening h.own (Bool.eq_false_iff.mpr hl)

theorem Inv.expire (h : s.Inv) {t : ListenTimer} (ht : s.timer = some t) (hdue : t.due ≤ s.now) :
    ({ s with timer := none, waiting := s.waiting ++ [t.session] } : VoiceInput).Inv := by
  refine ⟨h.own, ?_, ?_, ?_⟩
  · intro hl
    have hsession : t.session = s.session := h.timer hl t ht
    refine .inr ⟨?_, ?_⟩
    · exact List.mem_append_right _ (List.mem_singleton.mpr hsession.symm)
    · rcases h.full hl with hfull | ⟨-, hover⟩
      · obtain rfl := Option.some.inj (ht.symm.trans hfull)
        exact hdue
      · exact hover
  · intro hl j hj
    rcases List.mem_append.mp hj with hj | hj
    · exact h.waiting hl j hj
    · rw [List.mem_singleton.mp hj]
      exact h.timer hl t ht
  · rintro _ t' ⟨⟩

theorem Inv.pass (h : s.Inv) (ms : Nat) : ({ s with now := s.now + ms } : VoiceInput).Inv := by
  refine ⟨h.own, ?_, h.waiting, h.timer⟩
  intro hl
  rcases h.full hl with hfull | ⟨hmem, hover⟩
  · exact .inl hfull
  · exact .inr ⟨hmem, Nat.le_add_right_of_le hover⟩

theorem Inv.step {a : ListenAct} (h : s.Inv) (hg : s.ListenGuard a) (hs : s.step a = some s') :
    s'.Inv := by
  cases a with
  | listenStarted armed =>
    obtain rfl := Option.some.inj hs
    exact h.onListenStarted hg
  | stopListen disarmed =>
    obtain rfl := Option.some.inj hs
    exact h.listenStopCb disarmed
  | timeout j =>
    simp only [VoiceInput.step, Option.ite_none_right_eq_some, Option.some.injEq] at hs
    obtain ⟨hj, rfl⟩ := hs
    exact h.listenTimeout hj
  | expire =>
    rcases ht : s.timer with _ | t
    · simp [VoiceInput.step, ht] at hs
    · simp only [VoiceInput.step, ht, Option.ite_none_right_eq_some, Option.some.injEq] at hs
      obtain ⟨hdue, rfl⟩ := hs
      exact h.expire ht hdue
  | pass ms =>
    obtain rfl := Option.some.inj hs
    exact h.pass ms

end Steps

/-! ## Runs -/

/-- **A timeout ends only its own session**, and each session has its full time, where no session
    starts while a callback waits or without its timer. A callback waits when the timer has expired
    and its turn has not come; the flag it looks at says that a session is there, and not which. -/
theorem timeout_ends_own_session {s : VoiceInput}
    (h : ReachableBy init VoiceInput.step ListenGuard s) : s.OwnTimeouts ∧ s.FullTimeout := by
  have hinv : s.Inv := h.invariant Inv Inv.initial Inv.step
  exact ⟨hinv.own, hinv.full⟩

/-- A session that the timeout ends after its 20 seconds. -/
def timedOutOnce : VoiceInput where
  isListening := false
  timer := none
  waiting := []
  now := 20000
  session := 1
  started := 0
  timedOut := [(1, 1)]

theorem timeout_ends_own_session_once : timedOutOnce.OwnTimeouts ∧ timedOutOnce.FullTimeout :=
  timeout_ends_own_session <|
    ReachableBy.of_runFrom [.listenStarted true, .pass 20000, .expire, .timeout 1]
      (.start (s := ⟨false, none, [], 0, 0, 0, []⟩) ⟨rfl, rfl, rfl, rfl, rfl⟩)
      (by simp [admits, ListenGuard, VoiceInput.step, onListenStarted, maxListenTime])
      (by decide)

/-- The sessions that callbacks and the timer are of have been there. -/
structure Past (s : VoiceInput) : Prop where
  waiting : ∀ j ∈ s.waiting, j ≤ s.session
  timer : ∀ t ∈ s.timer, t.session ≤ s.session

theorem Past.initial {s : VoiceInput} (h : s.init) : s.Past := by
  obtain ⟨-, htimer, hwaiting, -, -⟩ := h
  refine ⟨?_, ?_⟩
  · intro j hj
    rw [hwaiting] at hj
    exact absurd hj List.not_mem_nil
  · intro t ht
    rw [htimer] at ht
    exact absurd ht (Option.not_mem_none t)

theorem Past.onListenStarted {s : VoiceInput} (h : s.Past) (armed : Bool) :
    (s.onListenStarted armed).Past := by
  unfold VoiceInput.onListenStarted
  split
  · refine ⟨fun j hj => Nat.le_succ_of_le (h.waiting j hj), ?_⟩
    intro t ht
    cases armed with
    | true =>
      obtain rfl := Option.some.inj ht
      exact Nat.le_refl _
    | false => exact Nat.le_succ_of_le (h.timer t ht)
  · exact h

theorem Past.listenStopCb {s : VoiceInput} (h : s.Past) (disarmed : Bool) :
    (s.listenStopCb disarmed).Past := by
  unfold VoiceInput.listenStopCb
  split
  · refine ⟨h.waiting, ?_⟩
    intro t ht
    cases disarmed with
    | true => exact absurd ht (Option.not_mem_none t)
    | false => exact h.timer t ht
  · exact h

theorem Past.listenTimeout {s : VoiceInput} (h : s.Past) (j : Nat) :
    ({ s with waiting := s.waiting.erase j }.listenTimeout j).Past := by
  have hwaiting : ∀ k ∈ s.waiting.erase j, k ≤ s.session :=
    fun k hk => h.waiting k (List.mem_of_mem_erase hk)
  unfold VoiceInput.listenTimeout
  split <;> exact ⟨hwaiting, h.timer⟩

theorem Past.step {s s' : VoiceInput} {a : ListenAct} (h : s.Past) (hs : s.step a = some s') :
    s'.Past := by
  cases a with
  | listenStarted armed =>
    obtain rfl := Option.some.inj hs
    exact h.onListenStarted armed
  | stopListen disarmed =>
    obtain rfl := Option.some.inj hs
    exact h.listenStopCb disarmed
  | timeout j =>
    simp only [VoiceInput.step, Option.ite_none_right_eq_some, Option.some.injEq] at hs
    obtain ⟨-, rfl⟩ := hs
    exact h.listenTimeout j
  | expire =>
    rcases ht : s.timer with _ | t
    · simp [VoiceInput.step, ht] at hs
    · simp only [VoiceInput.step, ht, Option.ite_none_right_eq_some, Option.some.injEq] at hs
      obtain ⟨-, rfl⟩ := hs
      refine ⟨?_, fun t' ht' => absurd ht' (Option.not_mem_none t')⟩
      intro j hj
      rcases List.mem_append.mp hj with hj | hj
      · exact h.waiting j hj
      · rw [List.mem_singleton.mp hj]
        exact h.timer t ht
  | pass ms =>
    obtain rfl := Option.some.inj hs
    exact ⟨h.waiting, h.timer⟩

/-- **A session that starts while a callback waits** can be ended by it, whether its own timer has
    been started or not: the callback has its turn next. -/
theorem foreign_timeout {s : VoiceInput} (h : Reachable init VoiceInput.step s)
    (hnot : s.isListening = false) {j : Nat} (hj : j ∈ s.waiting) (armed : Bool) :
    ∃ s', runFrom VoiceInput.step s [.listenStarted armed, .timeout j] = some s' ∧
      ¬s'.OwnTimeouts := by
  have hpast : s.Past := h.invariant Past Past.initial (fun hp _ => Past.step hp)
  have hle := hpast.waiting j hj
  refine ⟨_, by simp only [runFrom, VoiceInput.step, Option.bind_some, onListenStarted, if_pos hnot,
    if_pos hj]; rfl, ?_⟩
  intro hown
  have heq : j = s.session + 1 :=
    hown (j, s.session + 1) (List.mem_append_right _ (List.mem_singleton.mpr rfl))
  omega

/-- The first session is over when the mutex is free for the callback, and the second has begun. -/
theorem foreign_timeout_second_session :
    ¬∀ s, Reachable init VoiceInput.step s → s.OwnTimeouts ∧ s.FullTimeout := by
  intro hall
  have h : Reachable init VoiceInput.step
      ⟨false, some ⟨2, 40000⟩, [], 20000, 2, 20000, [(1, 2)]⟩ :=
    reachable_of_runFrom
      [.listenStarted true, .pass 20000, .expire, .stopListen true, .listenStarted true, .timeout 1]
      (.start (s := ⟨false, none, [], 0, 0, 0, []⟩) ⟨rfl, rfl, rfl, rfl, rfl⟩) (by decide)
  have hown := (hall _ h).1 (1, 2) List.mem_cons_self
  exact absurd hown (by decide)

end VoiceInput

end Dcs
end LightDuer
