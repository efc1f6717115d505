import LightDuer.Dcs.PlayQueue

/-!
# Resuming the right item

The item at the head of the queue, the token reported last, the state and the offset are four
variables. While an item plays, or is paused at some offset, the head of the queue is that item with
its token; so what is resumed is what was paused, at the offset of that pause. Only the operations
that keep the first entry can put another one in its place: `duer_empty_play_queue` stops at a
`NULL`, and what is behind it comes in front of the entry that is pushed again. A `NULL` comes there
with a `Play` directive whose url or token is no string.

## What has been paused

The player itself does not know which item it has paused. A `Tracked` player has that beside it: at
a pause the item which the application was given last, by a call of its play or its seek handler,
and the offset that the pause handler has returned. The queue has no part in it, so it can be
compared with the queue. `Tracked.Resumes` does this at every state in which the player is paused: a
resumption would seek that item to that offset. At the offset 0 there is nothing to go on with, and
the resumption starts the first item.

## The invariant

`Player.Current` says that an item that plays, or is paused on its way, is at the head of the queue,
and that token and application agree on it. `Keeps` is what one operation has to do for it, and most
operations do nothing to the track (`SameTrack`).

The guard is about a `NULL` in the queue. Where every `Play` directive has strings for its url and
its token there is none, and no guard is needed (`resume_right_item_of_strings`).
-/

set_option autoImplicit false

namespace LightDuer
namespace Dcs

open Lib Player

/-- An item plays, or is paused on its way. -/
def Player.Active (p : Player) : Prop :=
  p.playState = .playing ∨ p.playState = .paused ∧ p.playOffset ≠ 0

/-- The head of the queue is an item: the one that was last given to the application to play, with
    the token reported last. -/
def Player.Headed (p : Player) : Prop :=
  ∃ item, p.playQueue.head? = some (some item) ∧ p.latestToken = some item.token ∧
    p.handed = some item

/-- The head of the queue is what plays. -/
def Player.Current (p : Player) : Prop := p.Active → p.Headed

/-- The player, with what the application played when it was paused last, and what its pause
    handler returned. What it played is what its play or its seek handler was given last, wherever
    the queue has got to since: the queue has no part in it. -/
structure Tracked where
  player : Player
  paused : Option (Option PlayItem × Int)

/-- Before the first directive, with room for every allocation. -/
def Tracked.init (t : Tracked) : Prop :=
  t.player.init ∧ t.player.mallocs = [] ∧ t.paused = none

def trackedStep (t : Tracked) (op : Op) : Option Tracked :=
  some
    { player := t.player.handle op
      paused :=
        if t.player.playState = .playing ∧ (t.player.handle op).playState = .paused then
          some (t.player.handed, t.player.offsets.headD 0)
        else t.paused }

/-- An operation that keeps the first entry finds no `NULL` with entries behind it, while an item
    is active. -/
def Tracked.Guard (t : Tracked) (op : Op) : Prop :=
  op.KeepsFirst → t.player.Active → (drain t.player.playQueue.tail).2 = []

/-- **What a resumption does**: it seeks the item that was paused to the offset of that pause, or
    it starts the first item. -/
def Tracked.Resumes (t : Tracked) : Prop :=
  t.player.playState = .paused →
    (t.player.playOffset ≠ 0 → ∃ item : PlayItem,
      t.paused = some (some item, t.player.playOffset) ∧
      t.player.resumeAudio.log = t.player.log ++
        [(.audioSeek item.url t.player.playOffset, t.player.speechState),
          (.playEvent .resumed, t.player.speechState)]) ∧
    (t.player.playOffset = 0 → t.player.speechState ≠ .playing → ∀ item, t.player.top = some item →
      t.player.resumeAudio.log = t.player.log ++
        [(.playEvent .started, t.player.speechState), (.audioPlay item.url, t.player.speechState)])

/-! ## What does not touch the track -/

/-- State, offset, token and what the application plays do not differ, and there is room. -/
structure SameTrack (p p' : Player) : Prop where
  state : p'.playState = p.playState
  offset : p'.playOffset = p.playOffset
  token : p'.latestToken = p.latestToken
  handed : p'.handed = p.handed
  mallocs : p.mallocs = [] → p'.mallocs = []

section Track

variable {p p' p'' : Player}

theorem SameTrack.refl (p : Player) : SameTrack p p := ⟨rfl, rfl, rfl, rfl, id⟩

theorem SameTrack.trans (h : SameTrack p p') (h' : SameTrack p' p'') : SameTrack p p'' :=
  ⟨h'.state.trans h.state, h'.offset.trans h.offset, h'.token.trans h.token,
    h'.handed.trans h.handed, fun hm => h'.mallocs (h.mallocs hm)⟩

theorem SameTrack.active (h : SameTrack p p') (hp : p'.Active) : p.Active := by
  unfold Player.Active at hp ⊢
  rwa [h.state, h.offset] at hp

theorem call_sameTrack (p : Player) (c : Call) : SameTrack p (p.call c) :=
  ⟨rfl, rfl, rfl, rfl, id⟩

theorem reportPlayEvent_sameTrack (p : Player) (type : AudioEvent) :
    SameTrack p (p.reportPlayEvent type) := by
  rw [Player.reportPlayEvent]
  split
  · exact .refl p
  · exact call_sameTrack p _

theorem reportSpeechEvent_sameTrack (p : Player) (name : String) :
    SameTrack p (reportSpeechEvent p name) := by
  rw [reportSpeechEvent]
  split
  · exact .refl p
  · exact call_sameTrack p _

theorem emptyPlayQueue_sameTrack (p : Player) : SameTrack p p.emptyPlayQueue :=
  ⟨rfl, rfl, rfl, rfl, id⟩

/-- What is pushed stands at the end. -/
theorem push_sameTrack (hm : p.mallocs = []) (item : Option PlayItem) :
    SameTrack p (p.push item) ∧ (p.push item).playQueue = p.playQueue ++ [item] := by
  rw [push_of_room hm]
  exact ⟨⟨rfl, rfl, rfl, rfl, id⟩, rfl⟩

/-- An item is made, or none. -/
theorem createPlayItem_sameTrack (hm : p.mallocs = []) (url token : Option String) :
    SameTrack p (p.createPlayItem url token).2 ∧
      (p.createPlayItem url token).2.playQueue = p.playQueue := by
  cases url with
  | none => exact ⟨.refl p, rfl⟩
  | some url =>
    cases token with
    | none => exact ⟨.refl p, rfl⟩
    | some token =>
      rw [createPlayItem_of_room hm]
      exact ⟨⟨rfl, rfl, rfl, rfl, id⟩, rfl⟩

/-- A new entry, which may be `NULL`. -/
theorem pushNew_sameTrack (hm : p.mallocs = []) (url token : Option String) :
    ∃ item, SameTrack p ((p.createPlayItem url token).2.push (p.createPlayItem url token).1) ∧
      ((p.createPlayItem url token).2.push (p.createPlayItem url token).1).playQueue =
        p.playQueue ++ [item] := by
  obtain ⟨hsame, hqueue⟩ := createPlayItem_sameTrack hm url token
  obtain ⟨hsame', hqueue'⟩ := push_sameTrack (hsame.mallocs hm) (p.createPlayItem url token).1
  exact ⟨_, hsame.trans hsame', by rw [hqueue', hqueue]⟩

/-- The first entry is kept, behind what `duer_empty_play_queue` leaves. -/
theorem keepFirst_sameTrack (hm : p.mallocs = []) :
    SameTrack p p.keepFirst ∧
      p.keepFirst.playQueue = (drain p.playQueue.tail).2 ++ [p.top] := by
  have hpop : SameTrack p ({ p with playQueue := p.playQueue.tail } : Player).emptyPlayQueue :=
    ⟨rfl, rfl, rfl, rfl, id⟩
  obtain ⟨hsame, hqueue⟩ := push_sameTrack (hpop.mallocs hm) p.top
  exact ⟨hpop.trans hsame, hqueue⟩

/-! ## One operation -/

/-- There is room, the head of the queue is what plays, and a player that is paused on its way has
    been so before, or plays and is paused now. -/
structure Keeps (p p' : Player) : Prop where
  room : p'.mallocs = []
  current : p'.Current
  paused : p'.playState = .paused → p'.playOffset ≠ 0 → p'.top = p.top ∧
    (p.playState = .playing ∧ p'.playOffset = p.offsets.headD 0 ∨
      p.playState = .paused ∧ p'.playOffset = p.playOffset)

theorem Player.Headed.head?_append (h : p.Headed) (l : List (Option PlayItem)) :
    (p.playQueue ++ l).head? = p.playQueue.head? := by
  obtain ⟨item, hhead, -, -⟩ := h
  rw [List.head?_append, hhead]
  rfl

/-- Nothing happens to the track, and the head of the queue stays while it is active. -/
theorem Keeps.of_same (hm : p.mallocs = []) (hp : p.Current) (hs : SameTrack p p')
    (hhead : p.Active → p'.playQueue.head? = p.playQueue.head?) : Keeps p p' where
  room := hs.mallocs hm
  current := by
    intro hactive
    have hactive' := hs.active hactive
    obtain ⟨item, hitem, htoken, hhanded⟩ := hp hactive'
    exact ⟨item, (hhead hactive').trans hitem, hs.token.trans htoken, hs.handed.trans hhanded⟩
  paused := by
    intro hstate hoffset
    rw [hs.state] at hstate
    rw [hs.offset] at hoffset
    refine ⟨?_, .inr ⟨hstate, hs.offset⟩⟩
    rw [Player.top, Player.top, hhead (.inr ⟨hstate, hoffset⟩)]

/-- The player is at rest. -/
theorem Keeps.of_rest (hm : p'.mallocs = []) (h : p'.playState ≠ .playing)
    (h' : p'.playState = .paused → p'.playOffset = 0) : Keeps p p' where
  room := hm
  current := by
    rintro (hstate | ⟨hstate, hoffset⟩)
    · exact absurd hstate h
    · exact absurd (h' hstate) hoffset
  paused := fun hstate hoffset => absurd (h' hstate) hoffset

/-- What follows does not touch the track and the queue. -/
theorem Keeps.same (h : Keeps p p') (hs : SameTrack p' p'') (hq : SameQueue p' p'') :
    Keeps p p'' where
  room := hs.mallocs h.room
  current := by
    intro hactive
    obtain ⟨item, hhead, htoken, hhanded⟩ := h.current (hs.active hactive)
    exact ⟨item, by rw [hq.queue, hhead], hs.token.trans htoken, hs.handed.trans hhanded⟩
  paused := by
    intro hstate hoffset
    rw [hs.state] at hstate
    rw [hs.offset] at hoffset ⊢
    rw [Player.top, hq.queue]
    exact h.paused hstate hoffset

theorem Keeps.report (h : Keeps p p') (type : AudioEvent) : Keeps p (p'.reportPlayEvent type) :=
  h.same (reportPlayEvent_sameTrack p' type) (reportPlayEvent_sameQueue p' type)

theorem strdup_of_room (hm : p.mallocs = []) (token : String) :
    p.strdup token = (some token, p) := by
  obtain ⟨queue, latest, play, offset, speech, state, dialog, mallocs, offsets, created, freed,
    log, handed⟩ := p
  obtain rfl : mallocs = [] := hm
  rfl

/-- **A start** takes the head of the queue, or waits for the speech, or finds nothing. -/
theorem startAudioPlay_keeps (p : Player) {q : Player} (hm : q.mallocs = []) :
    Keeps p q.startAudioPlay := by
  unfold Player.startAudioPlay
  rcases htop : q.top with _ | item
  · exact .of_rest hm (fun h => by cases h) (fun h => by cases h)
  · simp only
    split
    · exact .of_rest hm (fun h => by cases h) (fun _ => rfl)
    · have hroom : ({ q with playState := .playing } : Player).mallocs = [] := hm
      rw [strdup_of_room hroom]
      have hreported := reportPlayEvent_sameTrack
        ({ q with playState := .playing, latestToken := some item.token } : Player) .started
      have hqueue := (reportPlayEvent_sameQueue
        ({ q with playState := .playing, latestToken := some item.token } : Player) .started).queue
      refine ⟨hreported.mallocs hm, fun _ => ⟨item, ?_, hreported.token, rfl⟩, fun hpaused => ?_⟩
      · exact (congrArg List.head? hqueue).trans (Option.join_eq_some_iff.mp htop)
      · exact absurd (hreported.state.symm.trans hpaused) (by simp)

/-- At the end of the queue a new item starts; otherwise it waits. -/
theorem startIfFinished_keeps (hm : p.mallocs = []) (hp : p.Current) (hs : SameTrack p p')
    (hhead : p.Active → p'.playQueue.head? = p.playQueue.head?) : Keeps p p'.startIfFinished := by
  unfold Player.startIfFinished
  split
  · exact startAudioPlay_keeps p (hs.mallocs hm)
  · exact .of_same hm hp hs hhead

theorem replacePlayQueue_keeps (hm : p.mallocs = []) (url token : Option String) :
    Keeps p (p.replacePlayQueue url token) := by
  unfold Player.replacePlayQueue
  have hstopped : SameTrack p (if p.playState = .playing then p.call .audioStop else p) := by
    split
    · exact call_sameTrack p _
    · exact .refl p
  have hempty := hstopped.trans (emptyPlayQueue_sameTrack _)
  obtain ⟨item, hsame, -⟩ := pushNew_sameTrack (hempty.mallocs hm) url token
  exact startAudioPlay_keeps p (hsame.mallocs (hempty.mallocs hm))

theorem enqueuePlayItem_keeps (hm : p.mallocs = []) (hp : p.Current) (url token : Option String) :
    Keeps p (p.enqueuePlayItem url token) := by
  obtain ⟨item, hsame, hqueue⟩ := pushNew_sameTrack hm url token
  have hhead : p.Active → ((p.createPlayItem url token).2.push
      (p.createPlayItem url token).1).playQueue.head? = p.playQueue.head? := by
    intro hactive
    rw [hqueue]
    exact (hp hactive).head?_append [item]
  exact startIfFinished_keeps hm hp hsame hhead

/-- Where nothing is left behind a `NULL`, the first entry stays the first. -/
theorem keepFirst_head? (hm : p.mallocs = []) (hp : p.Current)
    (hg : p.Active → (drain p.playQueue.tail).2 = []) (hactive : p.Active)
    (l : List (Option PlayItem)) :
    (p.keepFirst.playQueue ++ l).head? = p.playQueue.head? := by
  obtain ⟨item, hhead, -, -⟩ := hp hactive
  rw [(keepFirst_sameTrack hm).2, hg hactive, Player.top, hhead]
  rfl

theorem replaceEnqueuedItem_keeps (hm : p.mallocs = []) (hp : p.Current)
    (hg : p.Active → (drain p.playQueue.tail).2 = []) (url token : Option String) :
    Keeps p (p.replaceEnqueuedItem url token) := by
  obtain ⟨hkeep, -⟩ := keepFirst_sameTrack hm
  obtain ⟨item, hsame, hqueue⟩ := pushNew_sameTrack (hkeep.mallocs hm) url token
  have hhead : p.Active → ((p.keepFirst.createPlayItem url token).2.push
      (p.keepFirst.createPlayItem url token).1).playQueue.head? = p.playQueue.head? := by
    intro hactive
    rw [hqueue]
    exact keepFirst_head? hm hp hg hactive [item]
  exact startIfFinished_keeps hm hp (hkeep.trans hsame) hhead

theorem duerAudioPlayCb_keeps (hm : p.mallocs = []) (hp : p.Current) (d : Option PlayDirective)
    (hg : (Op.play d).KeepsFirst → p.Active → (drain p.playQueue.tail).2 = []) :
    Keeps p (duerAudioPlayCb p d).2 := by
  have hsame : Keeps p p := .of_same hm hp (.refl p) fun _ => rfl
  cases d with
  | none => exact hsame
  | some d =>
    unfold duerAudioPlayCb
    simp only
    split
    · exact replacePlayQueue_keeps hm d.url d.token
    · split
      · exact enqueuePlayItem_keeps hm hp d.url d.token
      · split
        · rename_i hbehavior
          exact replaceEnqueuedItem_keeps hm hp (hg hbehavior) d.url d.token
        · exact hsame

theorem duerQueueClearCb_keeps (hm : p.mallocs = []) (hp : p.Current) (behavior : Option String)
    (hg : (Op.clearQueue behavior).KeepsFirst → p.Active → (drain p.playQueue.tail).2 = []) :
    Keeps p (duerQueueClearCb p behavior).2 := by
  have hsame : Keeps p p := .of_same hm hp (.refl p) fun _ => rfl
  cases behavior with
  | none => exact hsame
  | some behavior =>
    unfold duerQueueClearCb
    simp only
    split
    · rename_i hbehavior
      have hkeep : Keeps p p.keepFirst := by
        refine .of_same hm hp (keepFirst_sameTrack hm).1 fun hactive => ?_
        have hhead := keepFirst_head? hm hp (hg hbehavior) hactive []
        rwa [List.append_nil] at hhead
      exact hkeep.report .queueCleared
    · split
      · have hstopped : Keeps p
            ({ p.call .audioStop with playState := .stopped } : Player).emptyPlayQueue :=
          .of_rest hm (fun h => by cases h) (fun h => by cases h)
        exact hstopped.report .queueCleared
      · exact hsame

theorem duerDcsAudioOnFinished_keeps (hm : p.mallocs = []) (hp : p.Current) :
    Keeps p (duerDcsAudioOnFinished p) := by
  unfold duerDcsAudioOnFinished
  split
  · exact .of_same hm hp (.refl p) fun _ => rfl
  · have hreported := (reportPlayEvent_sameTrack p .nearlyFinished).trans
      (reportPlayEvent_sameTrack _ .finished)
    simp only [Player.pop]
    refine startAudioPlay_keeps p ?_
    unfold Player.destroyPlayItem
    split <;> exact hreported.mallocs hm

/-- **A pause** keeps the head of the queue, and has the offset of the handler. -/
theorem pauseAudio_keeps (hm : p.mallocs = []) (hp : p.Current) {q : Player}
    (hs : SameTrack p q) (hqueue : q.playQueue = p.playQueue) (hoffsets : q.offsets = p.offsets) :
    Keeps p q.pauseAudio := by
  unfold Player.pauseAudio
  split
  · rename_i hplaying
    have hplaying' : p.playState = .playing := hs.state.symm.trans hplaying
    have hpaused : Keeps p (({ q with
        playState := .paused
        playOffset := q.offsets.headD 0
        offsets := q.offsets.tail } : Player).call .audioPause) := by
      refine ⟨hs.mallocs hm, fun _ => ?_, fun _ _ => ⟨?_, .inl ⟨hplaying', ?_⟩⟩⟩
      · obtain ⟨item, hhead, htoken, hhanded⟩ := hp (.inl hplaying')
        exact ⟨item, (congrArg List.head? hqueue).trans hhead, hs.token.trans htoken,
          hs.handed.trans hhanded⟩
      · exact congrArg (fun l => (List.head? l).join) hqueue
      · exact congrArg (fun l => List.headD l 0) hoffsets
    exact hpaused.report .paused
  · exact .of_same hm hp hs fun _ => congrArg List.head? hqueue

theorem duerSpeakCb_keeps (hm : p.mallocs = []) (hp : p.Current)
    (payload : Option (String × String)) : Keeps p (duerSpeakCb p payload).2 := by
  cases payload with
  | none => exact .of_same hm hp (.refl p) fun _ => rfl
  | some payload =>
    obtain ⟨url, token⟩ := payload
    simp only [duerSpeakCb, strdup_of_room hm]
    have hpaused := pauseAudio_keeps hm hp
      (q := { p with speechToken := some token, speechState := .playing })
      ⟨rfl, rfl, rfl, rfl, id⟩ rfl rfl
    exact hpaused.same ((reportSpeechEvent_sameTrack _ _).trans (call_sameTrack _ _))
      ((reportSpeechEvent_sameQueue _ _).trans (call_sameQueue _ _))

/-- **A resumption** plays the head of the queue. -/
theorem resumeAudio_keeps (hm : p.mallocs = []) (hp : p.Current) {q : Player}
    (hs : SameTrack p q) (hqueue : q.playQueue = p.playQueue) : Keeps p q.resumeAudio := by
  unfold Player.resumeAudio
  split
  · exact .of_same hm hp hs fun _ => congrArg List.head? hqueue
  · rename_i hpaused
    have hpaused' : p.playState = .paused := by
      rw [← hs.state]
      exact not_not.mp hpaused
    simp only
    split
    · exact startAudioPlay_keeps p (hs.mallocs hm)
    · rename_i hoffset
      split
      · exact .of_rest (hs.mallocs hm) (fun h => by cases h) (fun h => by cases h)
      · rename_i item htop
        have hplaying : Keeps p (({ q with playState := .playing } : Player).hand item
            (.audioSeek item.url q.playOffset)) := by
          refine ⟨hs.mallocs hm, fun _ => ?_, fun h => by cases h⟩
          have hoffset' : p.playOffset ≠ 0 := by
            rw [← hs.offset]
            exact hoffset
          obtain ⟨item', hhead, htoken, -⟩ := hp (.inr ⟨hpaused', hoffset'⟩)
          have hhead' : q.playQueue.head? = some (some item') :=
            (congrArg List.head? hqueue).trans hhead
          obtain rfl : item' = item :=
            Option.some.inj (Option.some.inj (hhead'.symm.trans (Option.join_eq_some_iff.mp htop)))
          exact ⟨item', hhead', hs.token.trans htoken, rfl⟩
        exact hplaying.report .resumed

theorem duerDcsSpeechOnFinished_keeps (hm : p.mallocs = []) (hp : p.Current) :
    Keeps p (duerDcsSpeechOnFinished p) := by
  unfold duerDcsSpeechOnFinished
  split
  · have hfinished : SameTrack p { p with speechState := .finished } := ⟨rfl, rfl, rfl, rfl, id⟩
    have hs : SameTrack p
        (reportSpeechEvent { p with speechState := .finished } "SpeechFinished") :=
      hfinished.trans (reportSpeechEvent_sameTrack _ _)
    have hqueue : (reportSpeechEvent { p with speechState := .finished }
        "SpeechFinished").playQueue = p.playQueue := (reportSpeechEvent_sameQueue _ _).queue
    simp only
    split
    · exact .of_same hm hp hs fun _ => congrArg List.head? hqueue
    · exact resumeAudio_keeps hm hp hs hqueue
  · exact .of_same hm hp (.refl p) fun _ => rfl

theorem handle_keeps (hm : p.mallocs = []) (hp : p.Current) (op : Op)
    (hg : op.KeepsFirst → p.Active → (drain p.playQueue.tail).2 = []) : Keeps p (p.handle op) := by
  cases op with
  | play d => exact duerAudioPlayCb_keeps hm hp d hg
  | stop => exact .of_rest hm (fun h => by cases h) (fun h => by cases h)
  | clearQueue behavior => exact duerQueueClearCb_keeps hm hp behavior hg
  | audioFinished => exact duerDcsAudioOnFinished_keeps hm hp
  | speak payload => exact duerSpeakCb_keeps hm hp payload
  | speechFinished => exact duerDcsSpeechOnFinished_keeps hm hp
  | listenStarted => exact pauseAudio_keeps hm hp ⟨rfl, rfl, rfl, rfl, id⟩ rfl rfl
  | listen => exact .of_same hm hp ⟨rfl, rfl, rfl, rfl, id⟩ fun _ => rfl

theorem reportPlayEvent_log (h : p.latestToken ≠ none) (type : AudioEvent) :
    (p.reportPlayEvent type).log = p.log ++ [(.playEvent type, p.speechState)] := by
  have hreports : ¬(type ≠ .queueCleared ∧ p.latestToken = none) := fun hnone => h hnone.2
  rw [Player.reportPlayEvent, if_neg hreports]
  rfl

/-- What a resumption does for a player that is paused on its way. -/
theorem resumeAudio_seeks {item : PlayItem} (hpaused : p.playState = .paused)
    (hoffset : p.playOffset ≠ 0) (htop : p.top = some item) (htoken : p.latestToken ≠ none) :
    p.resumeAudio.log = p.log ++ [(.audioSeek item.url p.playOffset, p.speechState),
      (.playEvent .resumed, p.speechState)] := by
  have htop' : ({ p with playState := .playing } : Player).top = some item := htop
  unfold Player.resumeAudio
  rw [if_neg (not_not_intro hpaused)]
  simp only [if_neg hoffset, htop']
  have hlog := reportPlayEvent_log (p := ({ p with playState := .playing } : Player).hand item
    (.audioSeek item.url p.playOffset)) htoken .resumed
  rw [hlog]
  simp only [Player.hand, Player.call, List.append_assoc]
  rfl

/-- What it does for one that has not begun. -/
theorem resumeAudio_starts {item : PlayItem} (hm : p.mallocs = []) (hpaused : p.playState = .paused)
    (hoffset : p.playOffset = 0) (htop : p.top = some item) (hspeech : p.speechState ≠ .playing) :
    p.resumeAudio.log = p.log ++
      [(.playEvent .started, p.speechState), (.audioPlay item.url, p.speechState)] := by
  have hroom : ({ p with playState := .playing } : Player).mallocs = [] := hm
  have htop' : ({ p with playState := .playing } : Player).top = some item := htop
  unfold Player.resumeAudio
  rw [if_neg (not_not_intro hpaused)]
  simp only [if_pos hoffset]
  unfold Player.startAudioPlay
  rw [htop']
  simp only [if_neg hspeech, strdup_of_room hroom]
  have hlog := reportPlayEvent_log (p := { p with
    playState := .playing, latestToken := some item.token }) (Option.some_ne_none _) .started
  rw [Player.hand, Player.call, hlog]
  simp only [List.append_assoc]
  rfl

end Track

/-! ## Runs -/

/-- There is room, the head of the queue is what plays, and what was paused on its way is the head
    still. -/
structure Tracked.Inv (t : Tracked) : Prop where
  room : t.player.mallocs = []
  current : t.player.Current
  paused : t.player.playState = .paused → t.player.playOffset ≠ 0 →
    t.paused = some (t.player.top, t.player.playOffset)

section Runs

variable {t t' : Tracked}

theorem Tracked.Inv.initial (h : t.init) : t.Inv := by
  obtain ⟨⟨-, -, hstate, -⟩, hm, -⟩ := h
  have hkeeps : Keeps t.player t.player := by
    refine .of_rest hm ?_ ?_
    · rw [hstate]
      intro h
      cases h
    · rw [hstate]
      intro h
      cases h
  refine ⟨hm, hkeeps.current, ?_⟩
  rw [hstate]
  intro h
  cases h

theorem Tracked.Inv.step (h : t.Inv) {op : Op} (hg : t.Guard op)
    (hs : trackedStep t op = some t') : t'.Inv := by
  obtain rfl := Option.some.inj hs
  have hkeeps := handle_keeps h.room h.current op hg
  refine ⟨hkeeps.room, hkeeps.current, ?_⟩
  intro hstate hoffset
  obtain ⟨htop, hbefore⟩ := hkeeps.paused hstate hoffset
  simp only at hstate hoffset ⊢
  rcases hbefore with ⟨hplaying, hnew⟩ | ⟨hpaused, hsame⟩
  · -- what plays is what was handed last, and the queue has kept it at its head
    obtain ⟨item, hhead, -, hhanded⟩ := h.current (.inl hplaying)
    have htop' : t.player.top = some item := Option.join_eq_some_iff.mpr hhead
    rw [if_pos ⟨hplaying, hstate⟩, htop, hnew, hhanded, htop']
  · rw [hsame] at hoffset
    rw [if_neg, h.paused hpaused hoffset, htop, hsame]
    rintro ⟨hplaying, -⟩
    rw [hpaused] at hplaying
    cases hplaying

theorem Tracked.Inv.resumes (h : t.Inv) : t.Resumes := by
  intro hstate
  refine ⟨fun hoffset => ?_, fun hoffset hspeech item htop => ?_⟩
  · obtain ⟨item, hhead, htoken, -⟩ := h.current (.inr ⟨hstate, hoffset⟩)
    have htop : t.player.top = some item := by
      rw [Player.top, hhead]
      rfl
    refine ⟨item, by rw [h.paused hstate hoffset, htop], ?_⟩
    refine resumeAudio_seeks hstate hoffset htop ?_
    rw [htoken]
    exact Option.some_ne_none _
  · exact resumeAudio_starts h.room hstate hoffset htop hspeech

/-- **Resume continues the right item**, in every run in which what keeps the first entry finds no
    `NULL` with entries behind it. What was paused is known from the calls of the handlers, and
    compared with what the resumption gives them. -/
theorem resume_right_item (h : ReachableBy Tracked.init trackedStep Tracked.Guard t) :
    t.player.Current ∧ t.Resumes := by
  have hinv : t.Inv := h.invariant Tracked.Inv Tracked.Inv.initial fun hi hg hs => hi.step hg hs
  exact ⟨hinv.current, hinv.resumes⟩

/-! ### Directives of strings -/

/-- No `NULL` behind the head. -/
def Player.Tidy (p : Player) : Prop := none ∉ p.playQueue.tail

theorem drain_of_not_mem {l : List (Option PlayItem)} (h : none ∉ l) : (drain l).2 = [] := by
  induction l with
  | nil => rfl
  | cons x rest ih =>
    cases x with
    | none => exact absurd List.mem_cons_self h
    | some item => exact ih fun hmem => h (List.mem_cons_of_mem _ hmem)

theorem none_not_mem_drain {l : List (Option PlayItem)} (h : none ∉ l.tail) :
    none ∉ (drain l).2 := by
  cases l with
  | nil => exact List.not_mem_nil
  | cons x rest =>
    cases x with
    | none => exact h
    | some item =>
      have hrest : (drain rest).2 = [] := drain_of_not_mem h
      show none ∉ (drain rest).2
      rw [hrest]
      exact List.not_mem_nil

theorem none_not_mem_concat {l : List (Option PlayItem)} (h : none ∉ l) (item : PlayItem) :
    none ∉ l ++ [some item] := by
  intro hmem
  rcases List.mem_append.mp hmem with hmem | hmem
  · exact h hmem
  · cases List.mem_singleton.mp hmem

theorem Player.Tidy.of_queue {p p' : Player} (h : p.Tidy) (hs : SameQueue p p') : p'.Tidy := by
  unfold Player.Tidy
  rw [hs.queue]
  exact h

/-- A new item, at the end of the queue. -/
theorem tidy_pushNew {p : Player} (hm : p.mallocs = []) (h : p.Tidy) (url token : String) :
    ((p.createPlayItem (some url) (some token)).2.push
      (p.createPlayItem (some url) (some token)).1).Tidy := by
  rw [createPlayItem_of_room hm]
  simp only
  have hroom : ({ p with created := p.created + 1 } : Player).mallocs = [] := hm
  rw [push_of_room hroom]
  unfold Player.Tidy at h ⊢
  rcases hqueue : p.playQueue with _ | ⟨x, rest⟩
  · exact List.not_mem_nil
  · rw [hqueue] at h
    exact none_not_mem_concat h _

theorem tidy_emptyPlayQueue {p : Player} (h : p.Tidy) : p.emptyPlayQueue.Tidy :=
  fun hmem => none_not_mem_drain h (List.mem_of_mem_tail hmem)

/-- Of a tidy queue the head is kept, and nothing else. -/
theorem tidy_keepFirst {p : Player} (hm : p.mallocs = []) (h : p.Tidy) : p.keepFirst.Tidy := by
  unfold Player.Tidy
  rw [(keepFirst_sameTrack hm).2, drain_of_not_mem h]
  exact List.not_mem_nil

theorem duerAudioPlayCb_tidy {p : Player} (hm : p.mallocs = []) (h : p.Tidy)
    {d : Option PlayDirective} (htyped : (Op.play d).WellTyped) :
    (duerAudioPlayCb p d).2.Tidy := by
  cases d with
  | none => exact h
  | some d =>
    obtain ⟨behavior, url, token⟩ := d
    obtain ⟨url, rfl⟩ := Option.isSome_iff_exists.mp htyped.1
    obtain ⟨token, rfl⟩ := Option.isSome_iff_exists.mp htyped.2
    unfold duerAudioPlayCb
    simp only
    split
    · unfold Player.replacePlayQueue
      generalize hq : (if p.playState = .playing then p.call .audioStop else p) = q
      have hstopped : SameQueue p q := by
        rw [← hq]
        split
        · exact call_sameQueue p _
        · exact .refl p
      have hempty := tidy_emptyPlayQueue (h.of_queue hstopped)
      have hroom : q.emptyPlayQueue.mallocs = [] := hstopped.mallocs hm
      exact (tidy_pushNew hroom hempty url token).of_queue (startAudioPlay_sameQueue _)
    · split
      · exact (tidy_pushNew hm h url token).of_queue (startIfFinished_sameQueue _)
      · split
        · have hkeep := tidy_keepFirst hm h
          exact (tidy_pushNew ((keepFirst_sameTrack hm).1.mallocs hm) hkeep url token).of_queue
            (startIfFinished_sameQueue _)
        · exact h

theorem duerQueueClearCb_tidy {p : Player} (hm : p.mallocs = []) (h : p.Tidy)
    (behavior : Option String) : (duerQueueClearCb p behavior).2.Tidy := by
  cases behavior with
  | none => exact h
  | some behavior =>
    unfold duerQueueClearCb
    simp only
    split
    · have hkeep := tidy_keepFirst hm h
      exact hkeep.of_queue (reportPlayEvent_sameQueue _ .queueCleared)
    · split
      · have hempty : ({ p.call .audioStop with playState := .stopped } :
            Player).emptyPlayQueue.Tidy := tidy_emptyPlayQueue h
        exact hempty.of_queue (reportPlayEvent_sameQueue _ .queueCleared)
      · exact h

theorem duerDcsAudioOnFinished_tidy {p : Player} (h : p.Tidy) :
    (duerDcsAudioOnFinished p).Tidy := by
  unfold duerDcsAudioOnFinished
  split
  · exact h
  · have hreported := (reportPlayEvent_sameQueue p .nearlyFinished).trans
      (reportPlayEvent_sameQueue _ .finished)
    simp only [Player.pop]
    have htail : none ∉
        ((p.reportPlayEvent .nearlyFinished).reportPlayEvent .finished).playQueue.tail.tail := by
      rw [hreported.queue]
      exact fun hmem => h (List.mem_of_mem_tail hmem)
    unfold Player.Tidy
    rw [(startAudioPlay_sameQueue _).queue]
    unfold Player.destroyPlayItem
    split <;> exact htail

theorem handle_tidy {p : Player} (hm : p.mallocs = []) (h : p.Tidy) {op : Op}
    (htyped : op.WellTyped) : (p.handle op).Tidy := by
  cases op with
  | play d => exact duerAudioPlayCb_tidy hm h htyped
  | clearQueue behavior => exact duerQueueClearCb_tidy hm h behavior
  | audioFinished => exact duerDcsAudioOnFinished_tidy h
  | speak payload => exact h.of_queue (duerSpeakCb_sameQueue p payload)
  | speechFinished => exact h.of_queue (duerDcsSpeechOnFinished_sameQueue p)
  | listenStarted =>
    exact Player.Tidy.of_queue (p := { p with isMultipleDialog := false, speechState := .finished })
      h (pauseAudio_sameQueue _)
  | stop | listen => exact h

/-- **Where every `Play` directive has strings for its url and its token**, resume continues the
    right item: there is no `NULL` in the queue then. -/
theorem resume_right_item_of_strings
    (h : ReachableBy Tracked.init trackedStep (fun _ op => op.WellTyped) t) :
    t.player.Current ∧ t.Resumes := by
  have hinv : t.Inv ∧ t.player.Tidy := by
    refine h.invariant (fun t => t.Inv ∧ t.player.Tidy) (fun hi => ⟨.initial hi, ?_⟩) ?_
    · unfold Player.Tidy
      rw [hi.1.1]
      exact List.not_mem_nil
    · intro t t' op hi htyped hs
      have hguard : t.Guard op := fun _ _ => drain_of_not_mem hi.2
      refine ⟨hi.1.step hguard hs, ?_⟩
      obtain rfl := Option.some.inj hs
      exact handle_tidy hi.1.room hi.2 htyped
  exact ⟨hinv.1.current, hinv.1.resumes⟩

end Runs

/-- Before the first directive, with the offset that the pause handler will give. -/
def Tracked.fresh : Tracked := ⟨{ Player.fresh with offsets := [70] }, none⟩

theorem Tracked.fresh_init : Tracked.fresh.init :=
  ⟨⟨rfl, rfl, rfl, rfl, rfl, rfl, rfl, rfl, rfl, rfl, rfl⟩, rfl, rfl⟩

/-- A speech over the first of two items. -/
theorem resume_right_item_speech : ∃ t, runFrom trackedStep Tracked.fresh
    [.play (some ⟨"ENQUEUE", some "a", some "1"⟩), .play (some ⟨"ENQUEUE", some "b", some "2"⟩),
      .speak (some ("c", "3")), .clearQueue (some "CLEAR_ENQUEUED")] = some t ∧
    t.player.playState = .paused ∧ t.player.playOffset = 70 ∧ t.player.Current ∧ t.Resumes := by
  obtain ⟨t, hrun⟩ : ∃ t, runFrom trackedStep Tracked.fresh
      [.play (some ⟨"ENQUEUE", some "a", some "1"⟩), .play (some ⟨"ENQUEUE", some "b", some "2"⟩),
        .speak (some ("c", "3")), .clearQueue (some "CLEAR_ENQUEUED")] = some t := ⟨_, rfl⟩
  refine ⟨t, hrun, ?_, ?_, resume_right_item (.of_runFrom _ (.start Tracked.fresh_init) ?_ hrun)⟩
  · obtain rfl := Option.some.inj hrun
    rfl
  · obtain rfl := Option.some.inj hrun
    rfl
  · exact ⟨fun hkeeps => absurd hkeeps (by decide), fun hkeeps => absurd hkeeps (by decide),
      fun hkeeps => absurd hkeeps (by decide), fun _ _ => rfl, trivial⟩

/-- Without a url an item cannot be made, and a `NULL` is in the queue in front of another item:
    this one takes the place of the one that plays. -/
theorem resume_wrong_item :
    ¬∀ t, Reachable Tracked.init trackedStep t → t.player.Current ∧ t.Resumes := by
  intro hall
  obtain ⟨t, hrun⟩ : ∃ t, runFrom trackedStep Tracked.fresh
      [.play (some ⟨"ENQUEUE", some "a", some "1"⟩), .play (some ⟨"ENQUEUE", none, some "0"⟩),
        .play (some ⟨"ENQUEUE", some "b", some "2"⟩), .clearQueue (some "CLEAR_ENQUEUED")] =
      some t := ⟨_, rfl⟩
  have hcurrent := (hall t (reachable_of_runFrom _ (.start Tracked.fresh_init) hrun)).1
  obtain rfl := Option.some.inj hrun
  obtain ⟨item, hhead, htoken, -⟩ := hcurrent (.inl rfl)
  obtain rfl := Option.some.inj (Option.some.inj hhead)
  exact absurd htoken (by decide)

end Dcs
end LightDuer
