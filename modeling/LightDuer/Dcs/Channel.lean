import LightDuer.Dcs.Player

/-!
# One channel for speech and music

The audio player and the voice output share the loudspeaker. Whoever starts the audio asks
`duer_speech_need_play_internal` first, a speech pauses the audio, and the audio is resumed only
when the speech is over; so the two never play at once, in whatever order the directives and the
notifications come.

## Two readings

`Player.Exclusive` says it twice. The states say it of the present: not both of them are `PLAYING`.
The log says it of the past: whenever the audio was made to sound, by its play handler or by its
seek handler, no speech was playing at that moment. The second is the stronger, as a state that is
set late or not at all does not make a sound unheard; it is why every call is logged together with
the state of the speech.

## From call to run

A call that does not sound keeps both, whatever else it reports. The functions that may sound are
few: a start asks for the speech, a resumption happens when the speech is over, and both are proved
from `Player.Heard` alone. All other functions leave the channel as it is (`SameChannel`), so each
directive and each notification is put together from these, and `exclusive_always` is the induction
over a run.
-/

set_option autoImplicit false

namespace LightDuer
namespace Dcs

/-- A call that makes the audio sound. -/
def Call.Sounds : Call → Prop
  | .audioPlay _ | .audioSeek _ _ => True
  | _ => False

/-- No audio has been made to sound while a speech was playing. -/
def Player.Heard (p : Player) : Prop :=
  ∀ c speech, (c, speech) ∈ p.log → c.Sounds → speech ≠ .playing

/-- **Speech and music do not play together**, and have not been made to. The second part looks at
    what has been done and not at the states: a start of the audio during a speech counts even if it
    has been ended since. -/
structure Player.Exclusive (p : Player) : Prop where
  states : ¬(p.playState = .playing ∧ p.speechState = .playing)
  heard : p.Heard

/-- Nothing that concerns the channel differs. -/
structure SameChannel (p p' : Player) : Prop where
  play : p'.playState = p.playState
  speech : p'.speechState = p.speechState
  log : p'.log = p.log

section Same

variable {p p' p'' : Player}

theorem SameChannel.refl (p : Player) : SameChannel p p := ⟨rfl, rfl, rfl⟩

theorem SameChannel.trans (h : SameChannel p p') (h' : SameChannel p' p'') :
    SameChannel p p'' :=
  ⟨h'.play.trans h.play, h'.speech.trans h.speech, h'.log.trans h.log⟩

theorem SameChannel.heard (h : SameChannel p p') (hp : p.Heard) : p'.Heard := by
  intro c speech hmem
  rw [h.log] at hmem
  exact hp c speech hmem

theorem SameChannel.exclusive (h : SameChannel p p') (hp : p.Exclusive) : p'.Exclusive :=
  ⟨by rw [h.play, h.speech]; exact hp.states, h.heard hp.heard⟩

theorem malloc_same (p : Player) : SameChannel p p.malloc.2 := ⟨rfl, rfl, rfl⟩

theorem push_same (p : Player) (item : Option PlayItem) : SameChannel p (p.push item) := by
  have hsame := malloc_same p
  rw [Player.push]
  generalize p.malloc = run at hsame ⊢
  obtain ⟨ok, p₁⟩ := run
  cases ok with
  | true => exact ⟨hsame.play, hsame.speech, hsame.log⟩
  | false => exact hsame

theorem createPlayItem_same (p : Player) (url token : Option String) :
    SameChannel p (p.createPlayItem url token).2 := by
  cases url with
  | none => exact .refl p
  | some url =>
    cases token with
    | none => exact .refl p
    | some token =>
      have h₁ := malloc_same p
      simp only [Player.createPlayItem]
      generalize p.malloc = run at h₁ ⊢
      obtain ⟨ok, p₁⟩ := run
      cases ok with
      | false => exact h₁
      | true =>
        have h₂ := h₁.trans (malloc_same p₁)
        simp only
        generalize p₁.malloc = run at h₂ ⊢
        obtain ⟨ok, p₂⟩ := run
        cases ok with
        | false => exact h₂
        | true =>
          have h₃ := h₂.trans (malloc_same p₂)
          simp only
          generalize p₂.malloc = run at h₃ ⊢
          obtain ⟨ok, p₃⟩ := run
          cases ok with
          | false => exact h₃
          | true => exact ⟨h₃.play, h₃.speech, h₃.log⟩

theorem keepFirst_same (p : Player) : SameChannel p p.keepFirst := by
  have hrest : SameChannel p ({ p with playQueue := p.playQueue.tail } : Player).emptyPlayQueue :=
    ⟨rfl, rfl, rfl⟩
  exact hrest.trans (push_same _ p.top)

theorem strdup_same (p : Player) (token : String) : SameChannel p (p.strdup token).2 := by
  have hsame := malloc_same p
  rw [Player.strdup]
  generalize p.malloc = run at hsame ⊢
  obtain ⟨ok, p₁⟩ := run
  cases ok with
  | true => exact hsame
  | false => exact hsame

theorem destroyPlayItem_same (p : Player) (item : Option PlayItem) :
    SameChannel p (p.destroyPlayItem item) := by
  cases item with
  | none => exact .refl p
  | some item => exact ⟨rfl, rfl, rfl⟩

end Same

/-! ## Calls -/

section Calls

variable {p : Player}

/-- A call may sound only while there is no speech. -/
theorem Player.Heard.call (h : p.Heard) {c : Call} (hc : c.Sounds → p.speechState ≠ .playing) :
    (p.call c).Heard := by
  intro c' speech hmem hsounds
  rcases List.mem_append.mp hmem with hmem | hmem
  · exact h c' speech hmem hsounds
  · obtain ⟨rfl, rfl⟩ : c' = c ∧ speech = p.speechState := by simpa using hmem
    exact hc hsounds

theorem Player.Exclusive.call (h : p.Exclusive) {c : Call} (hc : ¬c.Sounds) :
    (p.call c).Exclusive :=
  ⟨h.states, h.heard.call fun hs => absurd hs hc⟩

theorem Player.Heard.reportPlayEvent (h : p.Heard) (type : AudioEvent) :
    (p.reportPlayEvent type).Heard := by
  rw [Player.reportPlayEvent]
  split
  · exact h
  · exact h.call nofun

theorem reportPlayEvent_states (p : Player) (type : AudioEvent) :
    (p.reportPlayEvent type).playState = p.playState ∧
      (p.reportPlayEvent type).speechState = p.speechState := by
  rw [Player.reportPlayEvent]
  split <;> exact ⟨rfl, rfl⟩

theorem Player.Exclusive.reportPlayEvent (h : p.Exclusive) (type : AudioEvent) :
    (p.reportPlayEvent type).Exclusive := by
  rw [Player.reportPlayEvent]
  split
  · exact h
  · exact h.call (fun hs => hs)

theorem Player.Exclusive.reportSpeechEvent (h : p.Exclusive) (name : String) :
    (reportSpeechEvent p name).Exclusive := by
  rw [Dcs.reportSpeechEvent]
  split
  · exact h
  · exact h.call (fun hs => hs)

/-! ## The functions -/

/-- **A start asks whether there is a speech**, whatever the player did before. -/
theorem startAudioPlay_exclusive (h : p.Heard) : p.startAudioPlay.Exclusive := by
  rw [Player.startAudioPlay]
  cases p.top with
  | none => exact ⟨fun hboth => absurd hboth.1 (by simp), h⟩
  | some item =>
    simp only
    by_cases hspeech : p.speechState = .playing
    · rw [if_pos hspeech]
      exact ⟨fun hboth => absurd hboth.1 (by simp), h⟩
    · rw [if_neg hspeech]
      have hsame := strdup_same { p with playState := .playing } item.token
      generalize ({ p with playState := .playing } : Player).strdup item.token = run at hsame ⊢
      obtain ⟨token, p₁⟩ := run
      have hquiet : p₁.speechState ≠ .playing := hsame.speech ▸ hspeech
      have hheard : ({ p₁ with latestToken := token } : Player).Heard := hsame.heard h
      obtain ⟨-, hkept⟩ := reportPlayEvent_states { p₁ with latestToken := token } .started
      refine ⟨fun hboth => hquiet (hkept.symm.trans hboth.2), ?_⟩
      exact (hheard.reportPlayEvent .started).call fun _ hplaying => hquiet (hkept ▸ hplaying)

theorem startIfFinished_exclusive (h : p.Exclusive) : p.startIfFinished.Exclusive := by
  rw [Player.startIfFinished]
  split
  · exact startAudioPlay_exclusive h.heard
  · exact h

/-- A speech pauses the audio. -/
theorem pauseAudio_exclusive (h : p.Heard) : p.pauseAudio.Exclusive := by
  rw [Player.pauseAudio]
  by_cases hplay : p.playState = .playing
  · rw [if_pos hplay]
    apply Player.Exclusive.reportPlayEvent
    refine ⟨fun hboth => absurd hboth.1 (by simp [Player.call]), ?_⟩
    apply Player.Heard.call h
    exact fun hs => absurd hs id
  · rw [if_neg hplay]
    exact ⟨fun hboth => hplay hboth.1, h⟩

/-- The audio is resumed once the speech is over. -/
theorem resumeAudio_exclusive (h : p.Heard) (hspeech : p.speechState ≠ .playing) :
    p.resumeAudio.Exclusive := by
  have hexclusive : p.Exclusive := ⟨fun hboth => hspeech hboth.2, h⟩
  rw [Player.resumeAudio]
  split
  · exact hexclusive
  · simp only
    split
    · exact startAudioPlay_exclusive h
    · split
      · exact ⟨fun hboth => hspeech hboth.2, h⟩
      · apply Player.Exclusive.reportPlayEvent
        refine ⟨fun hboth => hspeech hboth.2, ?_⟩
        exact Player.Heard.call h fun _ => hspeech

theorem replacePlayQueue_exclusive (h : p.Exclusive) (url token : Option String) :
    (p.replacePlayQueue url token).Exclusive := by
  have hstop : (if p.playState = .playing then p.call .audioStop else p).Heard := by
    split
    · exact h.heard.call nofun
    · exact h.heard
  rw [Player.replacePlayQueue]
  generalize (if p.playState = .playing then p.call .audioStop else p) = p₁ at hstop ⊢
  have hsame := createPlayItem_same p₁.emptyPlayQueue url token
  simp only
  exact startAudioPlay_exclusive ((push_same _ _).heard (hsame.heard hstop))

theorem enqueuePlayItem_exclusive (h : p.Exclusive) (url token : Option String) :
    (p.enqueuePlayItem url token).Exclusive :=
  startIfFinished_exclusive
    ((push_same _ _).exclusive ((createPlayItem_same p url token).exclusive h))

theorem replaceEnqueuedItem_exclusive (h : p.Exclusive) (url token : Option String) :
    (p.replaceEnqueuedItem url token).Exclusive := by
  have hkept : p.keepFirst.Exclusive := (keepFirst_same p).exclusive h
  exact startIfFinished_exclusive
    ((push_same _ _).exclusive ((createPlayItem_same p.keepFirst url token).exclusive hkept))

/-! ## Runs -/

/-- Speech starts once the audio is paused. -/
theorem duerSpeakCb_exclusive (h : p.Exclusive) (payload : Option (String × String)) :
    (duerSpeakCb p payload).2.Exclusive := by
  cases payload with
  | none => exact h
  | some payload =>
    obtain ⟨url, token⟩ := payload
    simp only [duerSpeakCb]
    have hsame := strdup_same p token
    generalize p.strdup token = run at hsame ⊢
    obtain ⟨token, p₁⟩ := run
    cases token with
    | none => exact SameChannel.exclusive ⟨hsame.play, hsame.speech, hsame.log⟩ h
    | some token =>
      have hpaused : ({ p₁ with
          speechToken := some token, speechState := .playing } : Player).pauseAudio.Exclusive :=
        pauseAudio_exclusive (hsame.heard h.heard)
      apply Player.Exclusive.call (hpaused.reportSpeechEvent "SpeechStarted")
      exact id

/-- Audio resumes once speech is over. -/
theorem duerDcsSpeechOnFinished_exclusive (h : p.Exclusive) :
    (duerDcsSpeechOnFinished p).Exclusive := by
  simp only [duerDcsSpeechOnFinished]
  split
  · have hover : ({ p with speechState := .finished } : Player).Exclusive :=
      ⟨fun hboth => absurd hboth.2 (by simp), h.heard⟩
    have hreported := hover.reportSpeechEvent "SpeechFinished"
    have hspeech : (reportSpeechEvent { p with speechState := .finished }
        "SpeechFinished").speechState = .finished := by
      rw [reportSpeechEvent]
      split <;> rfl
    split
    · exact hreported
    · exact resumeAudio_exclusive hreported.heard (by rw [hspeech]; simp)
  · exact h

/-- **One operation** keeps the two apart. Those of the speech pause the audio first, and those that
    could start the audio ask whether there is a speech. -/
theorem handle_exclusive (h : p.Exclusive) (op : Op) : (p.handle op).Exclusive := by
  have hstopped : ({ p.call .audioStop with playState := .stopped } : Player).Exclusive :=
    ⟨fun hboth => absurd hboth.1 (by simp), h.heard.call nofun⟩
  cases op with
  | play directive =>
    cases directive with
    | none => exact h
    | some d =>
      simp only [Player.handle, duerAudioPlayCb]
      split
      · exact replacePlayQueue_exclusive h _ _
      · split
        · exact enqueuePlayItem_exclusive h _ _
        · split
          · exact replaceEnqueuedItem_exclusive h _ _
          · exact h
  | stop => exact hstopped
  | clearQueue behavior =>
    cases behavior with
    | none => exact h
    | some behavior =>
      simp only [Player.handle, duerQueueClearCb]
      split
      · exact ((keepFirst_same p).exclusive h).reportPlayEvent .queueCleared
      · split
        · have hemptied : ({ p.call .audioStop with
              playState := .stopped } : Player).emptyPlayQueue.Exclusive :=
            ⟨hstopped.states, hstopped.heard⟩
          exact hemptied.reportPlayEvent .queueCleared
        · exact h
  | audioFinished =>
    simp only [Player.handle, duerDcsAudioOnFinished]
    split
    · exact h
    · have hreports := (h.reportPlayEvent .nearlyFinished).reportPlayEvent .finished
      apply startAudioPlay_exclusive
      apply (destroyPlayItem_same _ _).heard
      exact hreports.heard
  | speak payload => exact duerSpeakCb_exclusive h payload
  | speechFinished => exact duerDcsSpeechOnFinished_exclusive h
  | listenStarted => exact pauseAudio_exclusive h.heard
  | listen => exact ⟨h.states, h.heard⟩

theorem exclusive_init (h : p.init) : p.Exclusive := by
  obtain ⟨-, -, hplay, -, -, -, -, -, -, hlog, -⟩ := h
  refine ⟨fun hboth => absurd (hplay.symm.trans hboth.1) nofun, fun c speech hmem => ?_⟩
  rw [hlog] at hmem
  cases hmem

/-- **Speech and music never play together**: after each operation of every run at most one of them
    plays, and the audio has never been made to sound during a speech. No condition is needed:
    whatever is operated, and in whichever order. -/
theorem exclusive_always (h : Lib.Reachable Player.init step p) : p.Exclusive := by
  refine h.invariant Player.Exclusive exclusive_init fun hp _ hstep => ?_
  obtain rfl := Option.some.inj hstep
  exact handle_exclusive hp _

end Calls

/-- Music, and a speech over it. -/
theorem exclusive_speech_over_music : ∃ p, Lib.runFrom step Player.fresh
    [.play (some ⟨"ENQUEUE", some "a", some "1"⟩), .speak (some ("b", "2")), .speechFinished] =
      some p ∧ p.Exclusive := by
  have hfresh : Player.fresh.init := ⟨rfl, rfl, rfl, rfl, rfl, rfl, rfl, rfl, rfl, rfl, rfl⟩
  obtain ⟨p, hrun⟩ : ∃ p, Lib.runFrom step Player.fresh [.play (some ⟨"ENQUEUE", some "a",
      some "1"⟩), .speak (some ("b", "2")), .speechFinished] = some p := ⟨_, rfl⟩
  exact ⟨p, hrun, exclusive_always (Lib.reachable_of_runFrom _ (.start hfresh) hrun)⟩

end Dcs
end LightDuer
