import LightDuer.Dcs.Player

/-!
# The play queue

What the directives mean for the queue is a list: `QueueOp` over any type of entries. The queue of
the player follows it as long as nothing is kept of an empty queue: `keepFirst` pops the first entry
and pushes it again, and of an empty queue that is a `NULL`. From then on the queue is not the list
any more, and neither a start nor `duer_empty_play_queue` gets past that entry.

## The list beside the player

`QueueOp.apply` is the specification, on lists of entries, and says nothing of addresses or of
memory. `Both` runs the player with that list beside it: `Op.queueOp` is what a directive or a
notification means for the list, and it is read off the directive, not off what the player does.

`Both.Refines` compares the two. The queue has the entries of the list, none of them `NULL`; and
every item that was ever made is in the queue, or it has been freed, and none has been freed twice.

## The invariant

`Player.Holds` has the items themselves instead of their entries, and says that the addresses that
were freed together with those in the queue are all that were given out. The operations on items
have one lemma each: an item is pushed, the queue is emptied, the first is dropped, or all but the
first. Whatever does not concern the queue is `SameQueue`.

`playQueue_refines` adds what happens at the border: an item that comes to the empty queue of a
player at its end starts, and an operation keeps the refinement if and only if it does not keep the
first entry of an empty queue.
-/

set_option autoImplicit false

namespace LightDuer
namespace Dcs

open Player

/-! ## The list -/

/-- What a directive or the end of the music means for a list of entries. -/
inductive QueueOp (α : Type) where
  | replaceAll (x : α)
  | enqueue (x : α)
  | replaceEnqueued (x : α)
  | clearEnqueued
  | clearAll
  | finished

def QueueOp.apply {α : Type} : QueueOp α → List α → List α
  | .replaceAll x, _ => [x]
  | .enqueue x, l => l ++ [x]
  | .replaceEnqueued x, l => l.take 1 ++ [x]
  | .clearEnqueued, l => l.take 1
  | .clearAll, _ => []
  | .finished, l => l.tail

/-- An entry of the list: a url and its token. -/
abbrev Entry := String × String

def PlayItem.entry (item : PlayItem) : Entry := (item.url, item.token)

/-- What an operation means for the list, in a state of the player. -/
def Op.queueOp (p : Player) : Op → Option (QueueOp Entry)
  | .play (some ⟨behavior, some url, some token⟩) =>
      if behavior = "REPLACE_ALL" then some (.replaceAll (url, token))
      else if behavior = "ENQUEUE" then some (.enqueue (url, token))
      else if behavior = "REPLACE_ENQUEUED" then some (.replaceEnqueued (url, token))
      else none
  | .clearQueue (some behavior) =>
      if behavior = "CLEAR_ENQUEUED" then some .clearEnqueued
      else if behavior = "CLEAR_ALL" then some .clearAll
      else none
  | .audioFinished => if p.playState = .playing then some .finished else none
  | _ => none

/-- The player, with the list beside it. -/
abbrev Both := Player × List Entry

def bothStep (s : Both) (op : Op) : Option Both :=
  some (s.1.handle op,
    match op.queueOp s.1 with
    | some q => q.apply s.2
    | none => s.2)

/-- The empty queue, and allocations that succeed. -/
def Both.init (s : Both) : Prop := s.1.init ∧ s.1.mallocs = [] ∧ s.2 = []

/-- The operations that keep the first entry and drop what is behind it. -/
def Op.KeepsFirst : Op → Prop
  | .play (some d) => d.behavior = "REPLACE_ENQUEUED"
  | .clearQueue (some behavior) => behavior = "CLEAR_ENQUEUED"
  | _ => False

instance : DecidablePred Op.KeepsFirst := fun op => by
  unfold Op.KeepsFirst
  split <;> infer_instance

/-- Url and token of a `Play` directive are strings. -/
def Op.WellTyped : Op → Prop
  | .play (some d) => d.url.isSome ∧ d.token.isSome
  | _ => True

/-- Nothing is kept of an empty queue. -/
def Op.Fits (s : Both) (op : Op) : Prop := s.1.playQueue = [] → ¬op.KeepsFirst

/-! ## What a player holds -/

/-- The queue holds `items` and nothing else, and every item there has been is in it or has been
    freed, once. -/
structure Player.Holds (p : Player) (items : List PlayItem) : Prop where
  queue : p.playQueue = items.map some
  owned : (p.freed ++ items.map PlayItem.addr).Perm (List.range p.created)
  mallocs : p.mallocs = []

section Holds

variable {p p' : Player} {items : List PlayItem}

theorem drain_map_some (items : List PlayItem) : drain (items.map some) = (items, []) := by
  induction items with
  | nil => rfl
  | cons item rest ih => rw [List.map_cons, drain, ih]

theorem Player.Holds.emptyPlayQueue (h : p.Holds items) : p.emptyPlayQueue.Holds [] := by
  refine ⟨?_, ?_, h.mallocs⟩
  · rw [Player.emptyPlayQueue, h.queue, drain_map_some]
    rfl
  · simp only [Player.emptyPlayQueue, h.queue, drain_map_some, List.map_nil, List.append_nil]
    exact h.owned

/-- Nothing that concerns the queue differs. -/
structure SameQueue (p p' : Player) : Prop where
  queue : p'.playQueue = p.playQueue
  freed : p'.freed = p.freed
  created : p'.created = p.created
  mallocs : p.mallocs = [] → p'.mallocs = []

theorem SameQueue.refl (p : Player) : SameQueue p p := ⟨rfl, rfl, rfl, id⟩

theorem SameQueue.trans {p'' : Player} (h : SameQueue p p') (h' : SameQueue p' p'') :
    SameQueue p p'' :=
  ⟨h'.queue.trans h.queue, h'.freed.trans h.freed, h'.created.trans h.created,
    fun hm => h'.mallocs (h.mallocs hm)⟩

theorem Player.Holds.same (h : p.Holds items) (hs : SameQueue p p') : p'.Holds items :=
  ⟨hs.queue.trans h.queue, by rw [hs.freed, hs.created]; exact h.owned, hs.mallocs h.mallocs⟩

theorem call_sameQueue (p : Player) (c : Call) : SameQueue p (p.call c) := ⟨rfl, rfl, rfl, id⟩

theorem hand_sameQueue (p : Player) (item : PlayItem) (c : Call) : SameQueue p (p.hand item c) :=
  ⟨rfl, rfl, rfl, id⟩

theorem reportPlayEvent_sameQueue (p : Player) (type : AudioEvent) :
    SameQueue p (p.reportPlayEvent type) := by
  rw [Player.reportPlayEvent]
  split
  · exact .refl p
  · exact call_sameQueue p _

theorem reportSpeechEvent_sameQueue (p : Player) (name : String) :
    SameQueue p (reportSpeechEvent p name) := by
  rw [reportSpeechEvent]
  split
  · exact .refl p
  · exact call_sameQueue p _

theorem strdup_sameQueue (p : Player) (token : String) : SameQueue p (p.strdup token).2 := by
  rw [Player.strdup, Player.malloc]
  cases p.mallocs.headD true with
  | true => exact ⟨rfl, rfl, rfl, fun hm => by simp [hm]⟩
  | false => exact ⟨rfl, rfl, rfl, fun hm => by simp [hm]⟩

theorem startAudioPlay_sameQueue (p : Player) : SameQueue p p.startAudioPlay := by
  rw [Player.startAudioPlay]
  cases p.top with
  | none => exact ⟨rfl, rfl, rfl, id⟩
  | some item =>
    simp only
    split
    · exact ⟨rfl, rfl, rfl, id⟩
    · have hdup := strdup_sameQueue { p with playState := .playing } item.token
      generalize ({ p with playState := .playing } : Player).strdup item.token = run at hdup ⊢
      obtain ⟨token, p₁⟩ := run
      have hset : SameQueue p { p₁ with latestToken := token } :=
        ⟨hdup.queue, hdup.freed, hdup.created, hdup.mallocs⟩
      exact (hset.trans (reportPlayEvent_sameQueue _ .started)).trans (hand_sameQueue _ _ _)

theorem startIfFinished_sameQueue (p : Player) : SameQueue p p.startIfFinished := by
  rw [Player.startIfFinished]
  split
  · exact startAudioPlay_sameQueue p
  · exact .refl p

theorem pauseAudio_sameQueue (p : Player) : SameQueue p p.pauseAudio := by
  rw [Player.pauseAudio]
  split
  · have hpaused : SameQueue p (({ p with
        playState := .paused, playOffset := p.offsets.headD 0,
        offsets := p.offsets.tail } : Player).call .audioPause) := ⟨rfl, rfl, rfl, id⟩
    exact hpaused.trans (reportPlayEvent_sameQueue _ .paused)
  · exact .refl p

theorem resumeAudio_sameQueue (p : Player) : SameQueue p p.resumeAudio := by
  rw [Player.resumeAudio]
  split
  · exact .refl p
  · have hplaying : SameQueue p { p with playState := .playing } := ⟨rfl, rfl, rfl, id⟩
    simp only
    split
    · exact hplaying.trans (startAudioPlay_sameQueue _)
    · split
      · exact ⟨rfl, rfl, rfl, id⟩
      · exact (hplaying.trans (hand_sameQueue _ _ _)).trans (reportPlayEvent_sameQueue _ .resumed)

theorem duerSpeakCb_sameQueue (p : Player) (payload : Option (String × String)) :
    SameQueue p (duerSpeakCb p payload).2 := by
  cases payload with
  | none => exact .refl p
  | some payload =>
    obtain ⟨url, token⟩ := payload
    have hdup := strdup_sameQueue p token
    simp only [duerSpeakCb]
    generalize p.strdup token = run at hdup ⊢
    obtain ⟨token, p₁⟩ := run
    cases token with
    | none => exact ⟨hdup.queue, hdup.freed, hdup.created, hdup.mallocs⟩
    | some token =>
      have hspeaking : SameQueue p { p₁ with speechToken := some token, speechState := .playing } :=
        ⟨hdup.queue, hdup.freed, hdup.created, hdup.mallocs⟩
      exact ((hspeaking.trans (pauseAudio_sameQueue _)).trans
        (reportSpeechEvent_sameQueue _ _)).trans (call_sameQueue _ _)

theorem duerDcsSpeechOnFinished_sameQueue (p : Player) :
    SameQueue p (duerDcsSpeechOnFinished p) := by
  simp only [duerDcsSpeechOnFinished]
  split
  · have hover : SameQueue p { p with speechState := .finished } := ⟨rfl, rfl, rfl, id⟩
    have hreported := hover.trans (reportSpeechEvent_sameQueue _ "SpeechFinished")
    split
    · exact hreported
    · exact hreported.trans (resumeAudio_sameQueue _)
  · exact .refl p

/-! ## Items come and go -/

theorem createPlayItem_of_room (h : p.mallocs = []) (url token : String) :
    p.createPlayItem (some url) (some token) =
      (some ⟨p.created, url, token⟩, { p with created := p.created + 1 }) := by
  obtain ⟨queue, latest, play, offset, speech, state, dialog, mallocs, offsets, created, freed,
    log, handed⟩ := p
  obtain rfl : mallocs = [] := h
  rfl

theorem push_of_room (h : p.mallocs = []) (item : Option PlayItem) :
    p.push item = { p with playQueue := p.playQueue ++ [item] } := by
  obtain ⟨queue, latest, play, offset, speech, state, dialog, mallocs, offsets, created, freed,
    log, handed⟩ := p
  obtain rfl : mallocs = [] := h
  rfl

/-- **A new item** goes to the end, with the url and the token as its own. -/
theorem Player.Holds.pushNew (h : p.Holds items) (url token : String) :
    ∃ item : PlayItem, item.entry = (url, token) ∧
      (match p.createPlayItem (some url) (some token) with
        | (item, p) => p.push item).Holds (items ++ [item]) := by
  refine ⟨⟨p.created, url, token⟩, rfl, ?_⟩
  rw [createPlayItem_of_room h.mallocs]
  simp only
  have hmallocs : ({ p with created := p.created + 1 } : Player).mallocs = [] := h.mallocs
  rw [push_of_room hmallocs]
  refine ⟨by rw [h.queue, List.map_append]; rfl, ?_, h.mallocs⟩
  rw [List.map_append, ← List.append_assoc, List.range_succ]
  exact h.owned.append_right [p.created]

/-- What is behind the first item is freed; a first item there must be. -/
theorem Player.Holds.keepFirst (h : p.Holds items) (hne : items ≠ []) :
    p.keepFirst.Holds (items.take 1) := by
  obtain ⟨item, rest, rfl⟩ := List.exists_cons_of_ne_nil hne
  have hkeep : p.keepFirst = { p with
      playQueue := [some item], freed := p.freed ++ rest.map PlayItem.addr } := by
    rw [Player.keepFirst, Player.pop, Player.top, h.queue]
    simp only [Player.emptyPlayQueue, List.map_cons, List.head?_cons, Option.join_some,
      List.tail_cons, drain_map_some]
    have hmallocs : ({ p with playQueue := [], freed := p.freed ++ rest.map PlayItem.addr } :
        Player).mallocs = [] := h.mallocs
    rw [push_of_room hmallocs]
    rfl
  rw [hkeep]
  refine ⟨rfl, ?_, h.mallocs⟩
  have howned := h.owned
  rw [List.map_cons] at howned
  refine List.Perm.trans ?_ howned
  rw [List.take_succ_cons, List.take_zero, List.map_singleton, List.append_assoc]
  exact (List.perm_append_singleton _ _).append_left p.freed

/-- The first item is freed. -/
theorem Player.Holds.dropFirst (h : p.Holds items) :
    (match p.pop with
      | (item, p) => p.destroyPlayItem item).Holds items.tail := by
  rw [Player.pop, Player.top, h.queue]
  cases items with
  | nil => exact ⟨rfl, h.owned, h.mallocs⟩
  | cons item rest =>
    refine ⟨rfl, ?_, h.mallocs⟩
    have howned := h.owned
    rw [List.map_cons] at howned
    simp only [Player.destroyPlayItem, List.map_cons, List.head?_cons, Option.join_some,
      List.tail_cons, List.append_assoc]
    exact howned

end Holds

/-! ## Runs -/

/-- **The queue is the list**: no entry is `NULL`, and every item that is not in the queue any more
    has been freed once. The list beside it is what the operations mean, kept in step by the same
    run. -/
structure Both.Refines (s : Both) : Prop where
  queue : s.1.playQueue.map (Option.map PlayItem.entry) = s.2.map some
  freedOnce : s.1.freed.Nodup
  freed : ∀ a, a ∈ s.1.freed ↔
    a < s.1.created ∧ ∀ item, some item ∈ s.1.playQueue → item.addr ≠ a

/-- The url plays, or it waits for the speech to end. -/
def Player.Starts (p : Player) (url : String) : Prop :=
  if p.speechState = .playing then p.playState = .paused ∧ p.playOffset = 0
  else p.playState = .playing ∧ p.log.getLast? = some (.audioPlay url, p.speechState)

/-- What the runs keep. -/
def Both.Inv (s : Both) : Prop :=
  ∃ items : List PlayItem, s.1.Holds items ∧ items.map PlayItem.entry = s.2

section Runs

variable {s s' : Both}

theorem Both.Inv.same {p : Player} (h : s.Inv) (hs : SameQueue s.1 p) : Both.Inv (p, s.2) := by
  obtain ⟨items, hholds, hentries⟩ := h
  exact ⟨items, hholds.same hs, hentries⟩

theorem Both.Inv.init (h : s.init) : s.Inv := by
  obtain ⟨⟨hqueue, -, -, -, -, -, -, hcreated, hfreed, -⟩, hmallocs, hlist⟩ := h
  refine ⟨[], ⟨hqueue, ?_, hmallocs⟩, hlist.symm⟩
  rw [hfreed, hcreated]
  exact .refl _

theorem Both.Inv.refines (h : s.Inv) : s.Refines := by
  obtain ⟨items, hholds, hentries⟩ := h
  have hnodup := hholds.owned.nodup_iff.mpr List.nodup_range
  refine ⟨?_, (List.nodup_append.mp hnodup).1, fun a => ?_⟩
  · rw [hholds.queue, ← hentries, List.map_map, List.map_map]
    rfl
  · have hmem := hholds.owned.mem_iff (a := a)
    have hapart := (List.nodup_append.mp hnodup).2.2
    rw [List.mem_append, List.mem_range] at hmem
    rw [hholds.queue]
    constructor
    · intro ha
      refine ⟨hmem.mp (.inl ha), fun item hitem heq => ?_⟩
      obtain ⟨_, hitem', hsame⟩ := List.mem_map.mp hitem
      obtain rfl := Option.some.inj hsame
      exact hapart a ha _ (List.mem_map_of_mem hitem') heq.symm
    · rintro ⟨hlt, hnot⟩
      rcases hmem.mpr hlt with ha | ha
      · exact ha
      · obtain ⟨item, hitem, heq⟩ := List.mem_map.mp ha
        exact absurd heq (hnot item (List.mem_map_of_mem hitem))

/-- **One operation** does to the queue what it means for the list. -/
theorem Both.Inv.step (h : s.Inv) {op : Op} (htyped : op.WellTyped) (hfits : op.Fits s)
    (hstep : bothStep s op = some s') : s'.Inv := by
  obtain rfl := Option.some.inj hstep
  obtain ⟨p, l⟩ := s
  obtain ⟨items, hholds, hentries⟩ := h
  have hne : op.KeepsFirst → items ≠ [] := by
    rintro hop rfl
    exact hfits hholds.queue hop
  have htake : (items.take 1).map PlayItem.entry = l.take 1 := by rw [List.map_take, hentries]
  cases op with
  | play directive =>
    cases directive with
    | none => exact ⟨items, hholds, hentries⟩
    | some d =>
      obtain ⟨behavior, url, token⟩ := d
      obtain ⟨url, rfl⟩ := Option.isSome_iff_exists.mp htyped.1
      obtain ⟨token, rfl⟩ := Option.isSome_iff_exists.mp htyped.2
      simp only [Player.handle, duerAudioPlayCb, Op.queueOp]
      by_cases hall : behavior = "REPLACE_ALL"
      · simp only [if_pos hall]
        have hstopped : SameQueue p (if p.playState = .playing then p.call .audioStop else p) := by
          split
          · exact call_sameQueue p _
          · exact .refl p
        obtain ⟨item, hitem, hpushed⟩ := (hholds.same hstopped).emptyPlayQueue.pushNew url token
        exact ⟨[item], hpushed.same (startAudioPlay_sameQueue _), by simp [hitem, QueueOp.apply]⟩
      · simp only [if_neg hall]
        by_cases henqueue : behavior = "ENQUEUE"
        · simp only [if_pos henqueue]
          obtain ⟨item, hitem, hpushed⟩ := hholds.pushNew url token
          refine ⟨items ++ [item], hpushed.same (startIfFinished_sameQueue _), ?_⟩
          rw [List.map_append, hentries, List.map_singleton, hitem]
          rfl
        · simp only [if_neg henqueue]
          by_cases hreplace : behavior = "REPLACE_ENQUEUED"
          · simp only [if_pos hreplace]
            obtain ⟨item, hitem, hpushed⟩ := (hholds.keepFirst (hne hreplace)).pushNew url token
            refine ⟨items.take 1 ++ [item], hpushed.same (startIfFinished_sameQueue _), ?_⟩
            rw [List.map_append, htake, List.map_singleton, hitem]
            rfl
          · simp only [if_neg hreplace]
            exact ⟨items, hholds, hentries⟩
  | stop => exact ⟨items, hholds.same ⟨rfl, rfl, rfl, id⟩, hentries⟩
  | clearQueue behavior =>
    cases behavior with
    | none => exact ⟨items, hholds, hentries⟩
    | some behavior =>
      simp only [Player.handle, duerQueueClearCb, Op.queueOp]
      by_cases henqueued : behavior = "CLEAR_ENQUEUED"
      · simp only [if_pos henqueued]
        have hcleared := (hholds.keepFirst (hne henqueued)).same
          (reportPlayEvent_sameQueue p.keepFirst .queueCleared)
        exact ⟨items.take 1, hcleared, htake⟩
      · simp only [if_neg henqueued]
        by_cases hall : behavior = "CLEAR_ALL"
        · simp only [if_pos hall]
          have hstopped : SameQueue p { p.call .audioStop with playState := .stopped } :=
            ⟨rfl, rfl, rfl, id⟩
          have hcleared := (hholds.same hstopped).emptyPlayQueue.same
            (reportPlayEvent_sameQueue _ .queueCleared)
          exact ⟨[], hcleared, rfl⟩
        · simp only [if_neg hall]
          exact ⟨items, hholds, hentries⟩
  | audioFinished =>
    simp only [Player.handle, duerDcsAudioOnFinished, Op.queueOp]
    by_cases hplaying : p.playState = .playing
    · simp only [if_neg (not_not_intro hplaying), if_pos hplaying]
      have hreports := (reportPlayEvent_sameQueue p .nearlyFinished).trans
        (reportPlayEvent_sameQueue _ .finished)
      refine ⟨items.tail, (hholds.same hreports).dropFirst.same (startAudioPlay_sameQueue _), ?_⟩
      rw [List.map_tail, hentries]
      rfl
    · simp only [if_pos hplaying, if_neg hplaying]
      exact ⟨items, hholds, hentries⟩
  | speak payload => exact ⟨items, hholds.same (duerSpeakCb_sameQueue p payload), hentries⟩
  | speechFinished => exact ⟨items, hholds.same (duerDcsSpeechOnFinished_sameQueue p), hentries⟩
  | listenStarted =>
    have hover : SameQueue p { p with isMultipleDialog := false, speechState := .finished } :=
      ⟨rfl, rfl, rfl, id⟩
    exact ⟨items, hholds.same (hover.trans (pauseAudio_sameQueue _)), hentries⟩
  | listen => exact ⟨items, hholds.same ⟨rfl, rfl, rfl, id⟩, hentries⟩

/-- An item that comes to the empty queue of a player at its end starts. -/
theorem Both.Inv.starts (h : s.Inv) (hfinished : s.1.playState = .finished) (hempty : s.2 = [])
    (url token : String) :
    (s.1.handle (.play (some ⟨"ENQUEUE", some url, some token⟩))).Starts url := by
  obtain ⟨p, l⟩ := s
  obtain ⟨items, hholds, hentries⟩ := h
  obtain rfl : items = [] := List.map_eq_nil_iff.mp (hentries.trans hempty)
  obtain ⟨queue, latest, play, offset, speech, state, dialog, mallocs, offsets, created, freed,
    log, handed⟩ := p
  obtain rfl : queue = [] := hholds.queue
  obtain rfl : mallocs = [] := hholds.mallocs
  obtain rfl : play = .finished := hfinished
  cases state with
  | playing => exact ⟨rfl, rfl⟩
  | finished =>
    refine ⟨rfl, ?_⟩
    exact List.getLast?_concat

/-- What is pushed stands behind a `NULL`, and a start does not take it away. -/
theorem none_mem_enqueued (p : Player) (hmallocs : p.mallocs = []) (url token : String) :
    none ∈ (match { p with playQueue := [none] }.createPlayItem (some url) (some token) with
      | (item, p) => (p.push item).startIfFinished).playQueue := by
  have hroom : ({ p with playQueue := [none] } : Player).mallocs = [] := hmallocs
  rw [createPlayItem_of_room hroom]
  have hcreated :
      ({ p with playQueue := [none], created := p.created + 1 } : Player).mallocs = [] :=
    hmallocs
  simp only
  rw [(startIfFinished_sameQueue _).queue, push_of_room hcreated]
  exact List.mem_cons_self

/-- Of an empty queue a `NULL` is kept. -/
theorem Both.Inv.none_mem (h : s.Inv) {op : Op} (htyped : op.WellTyped)
    (hempty : s.1.playQueue = []) (hkeeps : op.KeepsFirst) (hstep : bothStep s op = some s') :
    none ∈ s'.1.playQueue := by
  obtain rfl := Option.some.inj hstep
  obtain ⟨p, l⟩ := s
  obtain ⟨items, hholds, -⟩ := h
  have hkeep : p.keepFirst = { p with playQueue := [none] } := by
    have hqueue : p.playQueue = [] := hempty
    obtain ⟨queue, latest, play, offset, speech, state, dialog, mallocs, offsets, created, freed,
      log, handed⟩ := p
    obtain rfl : queue = [] := hqueue
    obtain rfl : mallocs = [] := hholds.mallocs
    simp [Player.keepFirst, Player.pop, Player.top, Player.emptyPlayQueue, drain, Player.push,
      Player.malloc]
  cases op with
  | play directive =>
    cases directive with
    | none => exact hkeeps.elim
    | some d =>
      obtain ⟨behavior, url, token⟩ := d
      obtain ⟨url, rfl⟩ := Option.isSome_iff_exists.mp htyped.1
      obtain ⟨token, rfl⟩ := Option.isSome_iff_exists.mp htyped.2
      obtain rfl : behavior = "REPLACE_ENQUEUED" := hkeeps
      have hmem := none_mem_enqueued p hholds.mallocs url token
      rw [← hkeep] at hmem
      exact hmem
  | clearQueue behavior =>
    cases behavior with
    | none => exact hkeeps.elim
    | some behavior =>
      obtain rfl : behavior = "CLEAR_ENQUEUED" := hkeeps
      have hqueue := (reportPlayEvent_sameQueue p.keepFirst .queueCleared).queue
      rw [hkeep] at hqueue
      have hcleared : (p.handle (.clearQueue (some "CLEAR_ENQUEUED"))).playQueue = [none] := by
        simp only [Player.handle, duerQueueClearCb, if_true]
        rw [hkeep]
        exact hqueue
      rw [hcleared]
      exact List.mem_cons_self
  | stop | audioFinished | speak | speechFinished | listenStarted | listen => exact hkeeps.elim

theorem Both.Refines.none_not_mem (h : s.Refines) : none ∉ s.1.playQueue := by
  intro hmem
  have hmapped : none ∈ s.1.playQueue.map (Option.map PlayItem.entry) :=
    List.mem_map.mpr ⟨none, hmem, rfl⟩
  rw [h.queue] at hmapped
  obtain ⟨_, -, hnone⟩ := List.mem_map.mp hmapped
  cases hnone

/-- **The play queue refines the list**, in every run that keeps nothing of an empty queue: what is
    enqueued at the end of the music starts, and the next operation keeps the queue the list only if
    it is again of this kind. So the condition is exact in every state that such runs come to. -/
theorem playQueue_refines
    (h : Lib.ReachableBy Both.init bothStep (fun s op => op.WellTyped ∧ op.Fits s) s) :
    s.Refines ∧
      (∀ url token, s.1.playState = .finished → s.2 = [] →
        (s.1.handle (.play (some ⟨"ENQUEUE", some url, some token⟩))).Starts url) ∧
      ∀ op s', op.WellTyped → bothStep s op = some s' → (s'.Refines ↔ op.Fits s) := by
  have hinv : s.Inv := h.invariant Both.Inv .init fun hs hadmitted hstep =>
    hs.step hadmitted.1 hadmitted.2 hstep
  refine ⟨hinv.refines, fun url token hfinished hempty => hinv.starts hfinished hempty url token,
    fun op s' htyped hstep => ⟨fun hrefines hempty hkeeps => ?_, fun hfits => ?_⟩⟩
  · exact hrefines.none_not_mem (hinv.none_mem htyped hempty hkeeps hstep)
  · exact (hinv.step htyped hfits hstep).refines

end Runs

/-- The empty queue, before the first directive. -/
def Both.fresh : Both := (Player.fresh, [])

theorem fresh_init : Both.fresh.init :=
  ⟨⟨rfl, rfl, rfl, rfl, rfl, rfl, rfl, rfl, rfl, rfl, rfl⟩, rfl, rfl⟩

/-- Two items, and the second replaced. -/
theorem playQueue_refines_replaced : ∃ s, Lib.runFrom bothStep Both.fresh
    [.play (some ⟨"ENQUEUE", some "a", some "1"⟩), .play (some ⟨"ENQUEUE", some "b", some "2"⟩),
      .play (some ⟨"REPLACE_ENQUEUED", some "c", some "3"⟩)] = some s ∧ s.Refines := by
  obtain ⟨s, hrun⟩ : ∃ s, Lib.runFrom bothStep Both.fresh
      [.play (some ⟨"ENQUEUE", some "a", some "1"⟩), .play (some ⟨"ENQUEUE", some "b", some "2"⟩),
        .play (some ⟨"REPLACE_ENQUEUED", some "c", some "3"⟩)] = some s := ⟨_, rfl⟩
  refine ⟨s, hrun, (playQueue_refines (.of_runFrom _ (.start fresh_init) ?_ hrun)).1⟩
  refine ⟨⟨⟨rfl, rfl⟩, fun _ => by decide⟩, ⟨⟨rfl, rfl⟩, fun _ => by decide⟩, ⟨⟨rfl, rfl⟩, ?_⟩, ?_⟩
  · exact fun hempty => absurd hempty (by decide)
  · trivial

/-- `CLEAR_ENQUEUED` on the empty queue leaves a `NULL` in it, and what is enqueued then does not
    start. -/
theorem clearEnqueued_of_empty : ∃ s, Both.fresh.init ∧
    Lib.runFrom bothStep Both.fresh [.clearQueue (some "CLEAR_ENQUEUED")] = some s ∧
    s.1.playState = .finished ∧ s.2 = [] ∧ s.1.playQueue = [none] ∧ ¬s.Refines ∧
    ¬(s.1.handle (.play (some ⟨"ENQUEUE", some "a", some "1"⟩))).Starts "a" := by
  refine ⟨_, fresh_init, rfl, rfl, rfl, rfl, fun hrefines => ?_, fun hstarts => ?_⟩
  · exact hrefines.none_not_mem (by decide)
  · exact absurd hstarts.1 (by decide)

end Dcs
end LightDuer
