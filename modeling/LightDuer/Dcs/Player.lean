import LightDuer.Lib.Transition

/-!
# The audio player and the voice output

`lightduer_dcs_audio_player.c`, `lightduer_dcs_voice_output.c`, and what
`lightduer_dcs_voice_input.c` does to the two. Each directive and each notification of the
application is run to its end before the next. The play queue is the list of the pointers in
`lightduer_queue_cache.c`: an entry can be `NULL`, and a pop gives `NULL` for it as it does for the
empty queue. The calls that leave the module are logged, each with the state the speech is in at
that moment.

## Memory

An item is told from another by its address. Items are made by `duer_create_play_item`, which may
find no memory and then gives `NULL`, and that is pushed like an item. Whether the next allocations
succeed is a list in the state; so is what the application's pause handler will return. Freed
addresses are collected, so that what is freed twice or never can be told.

## Who plays what

`latestToken`, `playState` and `playOffset` are the module's own variables, and the queue's head is
what a start plays. The application has none of them. What it plays is the item whose url it was
given last, by its play or its seek handler; `Player.hand` logs such a call and keeps the item.

Three files share the state, and their functions call each other: a speech that starts pauses the
audio, one that ends resumes it, and an item that is enqueued while a speech plays waits for its
end. `Op` lists the directives and notifications, and `Player.handle` runs one.
-/

set_option autoImplicit false

namespace LightDuer
namespace Dcs

/-- `play_item_t`, at its address. -/
structure PlayItem where
  addr : Nat
  url : String
  token : String
deriving DecidableEq, Repr

/-- `enum _play_state` of the audio player. -/
inductive PlayState where
  | playing | stopped | paused | bufferUnderrun | finished
deriving DecidableEq, Repr

/-- `enum _play_state` of the voice output. -/
inductive SpeechState where
  | playing | finished
deriving DecidableEq, Repr

/-- `duer_dcs_audio_event_t` -/
inductive AudioEvent where
  | started | finished | nearlyFinished | stopped | paused | resumed | queueCleared
deriving DecidableEq, Repr

/-- The application's handlers, and the reports to the cloud. -/
inductive Call where
  | audioPlay (url : String)
  | audioStop
  | audioPause
  | audioSeek (url : String) (offset : Int)
  | speak (url : String)
  | playEvent (type : AudioEvent)
  | speechEvent (name : String)
deriving DecidableEq, Repr

/-- The static variables of the three files, with their surroundings. -/
structure Player where
  /-- `s_play_queue` -/
  playQueue : List (Option PlayItem)
  /-- `s_latest_token` of the audio player -/
  latestToken : Option String
  playState : PlayState
  playOffset : Int
  /-- `s_latest_token` of the voice output -/
  speechToken : Option String
  speechState : SpeechState
  isMultipleDialog : Bool
  /-- results of the next allocations; they succeed where none is left -/
  mallocs : List Bool
  /-- what the next calls of the pause handler return; 0 where none is left -/
  offsets : List Int
  /-- how many items there have been; the next one is at this address -/
  created : Nat
  /-- the addresses of the items freed -/
  freed : List Nat
  log : List (Call × SpeechState)
  /-- what the application plays: the item last given to its play or its seek handler -/
  handed : Option PlayItem
deriving DecidableEq, Repr

/-- Before the first directive. -/
def Player.init (p : Player) : Prop :=
  p.playQueue = [] ∧ p.latestToken = none ∧ p.playState = .finished ∧ p.playOffset = 0 ∧
    p.speechToken = none ∧ p.speechState = .finished ∧ p.isMultipleDialog = false ∧
    p.created = 0 ∧ p.freed = [] ∧ p.log = [] ∧ p.handed = none

/-- The first state, with room for every allocation. -/
def Player.fresh : Player :=
  ⟨[], none, .finished, 0, none, .finished, false, [], [], 0, [], [], none⟩

/-- What the callback of a directive returns. -/
inductive Status where
  | ok | badRequest | memoryOverlow
deriving DecidableEq, Repr

namespace Player

def malloc (p : Player) : Bool × Player :=
  (p.mallocs.headD true, { p with mallocs := p.mallocs.tail })

def call (p : Player) (c : Call) : Player := { p with log := p.log ++ [(c, p.speechState)] }

/-- A call of the play or the seek handler, which is given the url of an item: from now on this is
    the item the application plays. -/
def hand (p : Player) (item : PlayItem) (c : Call) : Player :=
  { p.call c with handed := some item }

/-! ## The queue -/

/-- `duer_qcache_top` -/
def top (p : Player) : Option PlayItem := p.playQueue.head?.join

/-- `duer_qcache_pop` -/
def pop (p : Player) : Option PlayItem × Player :=
  (p.top, { p with playQueue := p.playQueue.tail })

/-- `duer_qcache_push`, whose result is not used. -/
def push (p : Player) (item : Option PlayItem) : Player :=
  match p.malloc with
  | (true, p) => { p with playQueue := p.playQueue ++ [item] }
  | (false, p) => p

/-- `duer_destroy_play_item` -/
def destroyPlayItem (p : Player) : Option PlayItem → Player
  | some item => { p with freed := p.freed ++ [item.addr] }
  | none => p

/-- `duer_create_play_item`: the item, its url and its token are allocated. -/
def createPlayItem (p : Player) (url token : Option String) : Option PlayItem × Player :=
  match url, token with
  | some url, some token =>
    match p.malloc with
    | (false, p) => (none, p)
    | (true, p) =>
      match p.malloc with
      | (false, p) => (none, p)
      | (true, p) =>
        match p.malloc with
        | (false, p) => (none, p)
        | (true, p) => (some ⟨p.created, url, token⟩, { p with created := p.created + 1 })
  | _, _ => (none, p)

/-- The items that come before the first `NULL`, and the entries behind it. -/
def drain : List (Option PlayItem) → List PlayItem × List (Option PlayItem)
  | [] => ([], [])
  | none :: rest => ([], rest)
  | some item :: rest => (item :: (drain rest).1, (drain rest).2)

/-- `duer_empty_play_queue`: the first `NULL` that is popped ends it. -/
def emptyPlayQueue (p : Player) : Player :=
  { p with
    playQueue := (drain p.playQueue).2
    freed := p.freed ++ (drain p.playQueue).1.map PlayItem.addr }

/-! ## Audio -/

/-- `duer_dcs_report_play_event` -/
def reportPlayEvent (p : Player) (type : AudioEvent) : Player :=
  if type ≠ .queueCleared ∧ p.latestToken = none then p else p.call (.playEvent type)

/-- `duer_strdup_internal` of a token. -/
def strdup (p : Player) (token : String) : Option String × Player :=
  match p.malloc with
  | (true, p) => (some token, p)
  | (false, p) => (none, p)

/-- `duer_start_audio_play` -/
def startAudioPlay (p : Player) : Player :=
  match p.top with
  | none => { p with playState := .finished }
  | some item =>
    -- `duer_speech_need_play_internal`
    if p.speechState = .playing then { p with playState := .paused, playOffset := 0 }
    else
      match ({ p with playState := .playing } : Player).strdup item.token with
      | (token, p) =>
        (({ p with latestToken := token } : Player).reportPlayEvent .started).hand item
          (.audioPlay item.url)

/-- `duer_replace_play_queue` -/
def replacePlayQueue (p : Player) (url token : Option String) : Player :=
  let p := if p.playState = .playing then p.call .audioStop else p
  match p.emptyPlayQueue.createPlayItem url token with
  | (item, p) => (p.push item).startAudioPlay

/-- Where the player is at its end, a new item starts. -/
def startIfFinished (p : Player) : Player :=
  if p.playState = .finished then p.startAudioPlay else p

/-- `duer_enqueue_play_item` -/
def enqueuePlayItem (p : Player) (url token : Option String) : Player :=
  match p.createPlayItem url token with
  | (item, p) => (p.push item).startIfFinished

/-- What is behind the first entry goes; the entry is popped and pushed again. -/
def keepFirst (p : Player) : Player :=
  match p.pop with
  | (item, p) => p.emptyPlayQueue.push item

/-- `duer_replace_enqueued_item` -/
def replaceEnqueuedItem (p : Player) (url token : Option String) : Player :=
  match p.keepFirst.createPlayItem url token with
  | (item, p) => (p.push item).startIfFinished

/-- `duer_pause_audio_internal` -/
def pauseAudio (p : Player) : Player :=
  if p.playState = .playing then
    (({ p with
      playState := .paused
      playOffset := p.offsets.headD 0
      offsets := p.offsets.tail } : Player).call .audioPause).reportPlayEvent .paused
  else p

/-- `duer_resume_audio_internal` -/
def resumeAudio (p : Player) : Player :=
  if p.playState ≠ .paused then p
  else
    let p := { p with playState := .playing }
    -- this audio has not been played
    if p.playOffset = 0 then p.startAudioPlay
    else
      match p.top with
      | none => { p with playState := .finished }
      | some item => (p.hand item (.audioSeek item.url p.playOffset)).reportPlayEvent .resumed

/-! ## Directives and notifications -/

/-- A `Play` directive; a value that is no string is none. -/
structure PlayDirective where
  behavior : String
  url : Option String
  token : Option String
deriving DecidableEq, Repr

end Player

open Player

/-- `duer_audio_play_cb`; a directive without the parts it needs is none. -/
def duerAudioPlayCb (p : Player) : Option PlayDirective → Status × Player
  | none => (.badRequest, p)
  | some d =>
    if d.behavior = "REPLACE_ALL" then (.ok, p.replacePlayQueue d.url d.token)
    else if d.behavior = "ENQUEUE" then (.ok, p.enqueuePlayItem d.url d.token)
    else if d.behavior = "REPLACE_ENQUEUED" then (.ok, p.replaceEnqueuedItem d.url d.token)
    else (.badRequest, p)

/-- `duer_queue_clear_cb` -/
def duerQueueClearCb (p : Player) : Option String → Status × Player
  | none => (.badRequest, p)
  | some behavior =>
    if behavior = "CLEAR_ENQUEUED" then (.ok, p.keepFirst.reportPlayEvent .queueCleared)
    else if behavior = "CLEAR_ALL" then
      (.ok, ({ p.call .audioStop with playState := .stopped } : Player).emptyPlayQueue
        |>.reportPlayEvent .queueCleared)
    else (.badRequest, p)

/-- `duer_audio_stop_cb` -/
def duerAudioStopCb (p : Player) : Status × Player :=
  (.ok, { p.call .audioStop with playState := .stopped })

/-- `duer_dcs_audio_on_finished` -/
def duerDcsAudioOnFinished (p : Player) : Player :=
  if p.playState ≠ .playing then p
  else
    match ((p.reportPlayEvent .nearlyFinished).reportPlayEvent .finished).pop with
    | (item, p) => (p.destroyPlayItem item).startAudioPlay

/-- `duer_report_speech_event` -/
def reportSpeechEvent (p : Player) (name : String) : Player :=
  if p.speechToken = none then p else p.call (.speechEvent name)

/-- `duer_speak_cb` with the url and the token of its payload. -/
def duerSpeakCb (p : Player) : Option (String × String) → Status × Player
  | none => (.badRequest, p)
  | some (url, token) =>
    match p.strdup token with
    | (none, p) => (.memoryOverlow, { p with speechToken := none })
    | (token, p) =>
      let p := ({ p with speechToken := token, speechState := .playing } : Player).pauseAudio
      (.ok, (reportSpeechEvent p "SpeechStarted").call (.speak url))

/-- `duer_dcs_speech_on_finished` -/
def duerDcsSpeechOnFinished (p : Player) : Player :=
  if p.speechState = .playing then
    let p := reportSpeechEvent { p with speechState := .finished } "SpeechFinished"
    if p.isMultipleDialog then p else p.resumeAudio
  else p

/-- `duer_dcs_on_listen_started`, as far as it concerns the two players. -/
def duerDcsOnListenStarted (p : Player) : Player :=
  ({ p with isMultipleDialog := false, speechState := .finished } : Player).pauseAudio

/-- `duer_listen_start_cb` -/
def duerListenStartCb (p : Player) : Player := { p with isMultipleDialog := true }

/-! ## Runs -/

inductive Op where
  | play (directive : Option PlayDirective)
  | stop
  | clearQueue (behavior : Option String)
  | audioFinished
  | speak (payload : Option (String × String))
  | speechFinished
  | listenStarted
  | listen
deriving DecidableEq, Repr

def Player.handle (p : Player) : Op → Player
  | .play d => (duerAudioPlayCb p d).2
  | .stop => (duerAudioStopCb p).2
  | .clearQueue behavior => (duerQueueClearCb p behavior).2
  | .audioFinished => duerDcsAudioOnFinished p
  | .speak payload => (duerSpeakCb p payload).2
  | .speechFinished => duerDcsSpeechOnFinished p
  | .listenStarted => duerDcsOnListenStarted p
  | .listen => duerListenStartCb p

def step (p : Player) (op : Op) : Option Player := some (p.handle op)

end Dcs
end LightDuer
