import LightDuer.Lib.Transition
import LightDuer.Ota.Update
import Mathlib.Data.List.Count

/-!
# Who owns an updater

`duer_ota_create_updater` allocates an updater and its command, and posts them to the thread of the
event handler, which runs `ota_updater`. The creator goes on with the `BEGIN` notification, and ends
at the labels of the steps before the post if that fails. What each of the two allocates, frees and
uses is recorded; every call may fail or not.

## Two threads

The creator and the event thread interleave at every call they make. Commands follow each other and
are numbered, so the blocks of one are told from those of another. The `BEGIN` notification comes
behind the post, when the event may have begun or have ended already: if it fails, the creator frees
blocks that it has handed over. At its end an event destroys the handler with everything that is
still queued in it; whether a port deletes the thread then is a parameter.

## One owner

`Owned` is the property: nothing handed over is freed by the creator, no block is freed twice or
used by the event thread after it was freed, and when both threads have come to their end every
block has been freed. `Inv` is the invariant behind it. At any time each block that was made has
been freed, or is owed by one of three: the creator, an event that is queued, or the event that
runs; the counts add up. What the event thread uses is what it owes.

`Guard` leaves out the steps that break this: a `BEGIN` notification that fails, a downloader that
cannot be destroyed, a post to a handler that is gone, and a handler that is destroyed with an event
in it. Two short runs show that the first two are needed.
-/

set_option autoImplicit false

namespace LightDuer
namespace Ota
namespace Owner

open Lib

/-! ## The two threads -/

/-- The blocks of the `n`th command. -/
inductive Obj where
  | updater (n : Nat)
  | cmd (n : Nat)
deriving DecidableEq, Repr

def both (n : Nat) : List Obj := [.updater n, .cmd n]

inductive Who where
  | creator | event
deriving DecidableEq, Repr

/-- Where the creator is in `duer_ota_create_updater`. -/
inductive CreatorPc where
  | idle
  | mallocCmd (n : Nat)
  | mallocUpdater (n : Nat)
  /-- at `duer_events_call` -/
  | eventsCall (n : Nat)
  | notifyBegin (n : Nat)
  /-- at the label `free_updater` -/
  | notifyReject (n : Nat)
  | freeUpdater (n : Nat)
  /-- at the label `free_cmd` -/
  | freeCmd (n : Nat)
  /-- at the label `out` -/
  | out
deriving DecidableEq, Repr

/-- The calls of `ota_updater`, `duer_ota_destroy_updater` included. -/
inductive Stage where
  | createUnpacker | initUpdater | decompressDataBegin | getDownloader | initDownloader
  | registerDataNotify | connectServer | decompressDataEnd | notifyComplete | updateImageBegin
  | updateImage | updateImageEnd | notifyInstalled | reboot | packageInfo
  /-- at the label `notify_ota_event` -/
  | notifyEvent
  | uninitUpdater | destroyUnpacker | destroyDownloader | freeCmd | freeUpdater | eventsDestroy
deriving DecidableEq, Repr

namespace Stage

/-- What is used of the `n`th command: `updater->…`, or the command behind it. -/
def uses (n : Nat) : Stage → List Obj
  | createUnpacker | initUpdater | uninitUpdater | destroyUnpacker | destroyDownloader | freeCmd =>
      [.updater n]
  | getDownloader | connectServer | notifyComplete | notifyInstalled | packageInfo | notifyEvent =>
      both n
  | _ => []

/-- The stage after a call that succeeds or not. -/
def next (ok downloader : Bool) : Stage → Stage
  | createUnpacker => if ok then initUpdater else notifyEvent
  | initUpdater => if ok then decompressDataBegin else notifyEvent
  | decompressDataBegin => if ok then getDownloader else notifyEvent
  | getDownloader => if ok then initDownloader else notifyEvent
  | initDownloader => if ok then registerDataNotify else notifyEvent
  | registerDataNotify => if ok then connectServer else notifyEvent
  | connectServer => if ok then decompressDataEnd else notifyEvent
  | decompressDataEnd => if ok then notifyComplete else notifyEvent
  | notifyComplete => if ok then updateImageBegin else notifyEvent
  | updateImageBegin => if ok then updateImage else notifyEvent
  | updateImage => if ok then updateImageEnd else notifyEvent
  | updateImageEnd => if ok then notifyInstalled else notifyEvent
  | notifyInstalled => if ok then reboot else notifyEvent
  -- also if the reboot is disabled
  | reboot => if ok then packageInfo else notifyEvent
  | packageInfo | notifyEvent => uninitUpdater
  | uninitUpdater => destroyUnpacker
  | destroyUnpacker => destroyDownloader
  -- nothing is freed if the downloader cannot be destroyed
  | destroyDownloader => if downloader && !ok then eventsDestroy else freeCmd
  | freeCmd => freeUpdater
  | freeUpdater | eventsDestroy => eventsDestroy

end Stage

/-- An event that is run. -/
structure Task where
  n : Nat
  stage : Stage
  /-- `updater->downloader` is set -/
  downloader : Bool
deriving DecidableEq, Repr

structure Sys where
  creator : CreatorPc
  event : Option Task
  /-- `s_ota_updater_handler` -/
  handler : Handle
  /-- the updaters posted and not yet taken -/
  queue : List Nat
  /-- the commands so far -/
  commands : Nat
  made : List Obj
  /-- the updaters whose post has succeeded -/
  handed : List Nat
  freed : List (Who × Obj)
  /-- what the event thread has used after it was freed -/
  misused : List Obj
deriving DecidableEq, Repr

inductive Move where
  /-- A command comes; a handler is created if there is none. -/
  | command (created : Bool)
  /-- the next call of the creator -/
  | creator (ok : Bool)
  /-- The event thread takes an event. -/
  | take
  /-- the next call of the event -/
  | event (ok : Bool)
  /-- A block of data comes from the server: `handler`. -/
  | data
deriving DecidableEq, Repr

namespace Sys

def init (s : Sys) : Prop := s = ⟨.idle, none, .null, [], 0, [], [], [], []⟩

/-- `duer_events_destroy`: what is queued is dropped, and a port may delete the task. -/
def eventsDestroy (deletesTask : Bool) (s : Sys) : Sys :=
  match s.handler with
  | .live => { s with
      handler := .freed
      queue := []
      event := if deletesTask then none else s.event }
  | _ => s

/-- One call of the creator. -/
def create (deletesTask : Bool) (s : Sys) (ok : Bool) : Option Sys :=
  match s.creator with
  | .idle => none
  | .mallocCmd n =>
      if ok then some { s with made := .cmd n :: s.made, creator := .mallocUpdater n }
      else some { s with creator := .out }
  | .mallocUpdater n =>
      if ok then some { s with made := .updater n :: s.made, creator := .eventsCall n }
      else some { s with creator := .freeCmd n }
  | .eventsCall n =>
      if ok then
        some { s with
          handed := n :: s.handed
          -- nobody takes it from a handler that has been freed
          queue := if s.handler = .live then s.queue ++ [n] else s.queue
          creator := .notifyBegin n }
      else some { s with creator := .notifyReject n }
  | .notifyBegin n =>
      if ok then some { s with creator := .idle } else some { s with creator := .notifyReject n }
  | .notifyReject n => some { s with creator := .freeUpdater n }
  | .freeUpdater n =>
      some { s with freed := (.creator, .updater n) :: s.freed, creator := .freeCmd n }
  | .freeCmd n => some { s with freed := (.creator, .cmd n) :: s.freed, creator := .out }
  | .out => some { s.eventsDestroy deletesTask with creator := .idle }

/-- The event thread uses some blocks. -/
def use (s : Sys) (objs : List Obj) : Sys :=
  { s with misused := objs.filter (fun o => s.freed.any fun f => f.2 == o) ++ s.misused }

/-- One call of the event. -/
def run (deletesTask : Bool) (s : Sys) (ok : Bool) : Option Sys :=
  match s.event with
  | none => none
  | some t =>
    let s := s.use (t.stage.uses t.n)
    match t.stage with
    | .getDownloader =>
        some { s with event := some { t with stage := t.stage.next ok ok, downloader := ok } }
    | .freeCmd =>
        some { s with
          freed := (.event, .cmd t.n) :: s.freed
          event := some { t with stage := .freeUpdater } }
    | .freeUpdater =>
        some { s with
          freed := (.event, .updater t.n) :: s.freed
          event := some { t with stage := .eventsDestroy } }
    | .eventsDestroy => some { s.eventsDestroy deletesTask with event := none }
    | _ => some { s with event := some { t with stage := t.stage.next ok t.downloader } }

/-- A step of either thread. -/
def next (deletesTask : Bool) (s : Sys) : Move → Option Sys
  | .command created =>
      if s.creator = .idle then
        match s.handler with
        | .null =>
            if created then
              some { s with
                handler := .live
                commands := s.commands + 1
                creator := .mallocCmd s.commands }
            else some { s with commands := s.commands + 1, creator := .out }
        | _ => some { s with commands := s.commands + 1, creator := .mallocCmd s.commands }
      else none
  | .creator ok => s.create deletesTask ok
  | .take =>
      if s.handler = .live ∧ s.event = none then
        match s.queue with
        | [] => none
        | n :: rest =>
            some { s with queue := rest, event := some ⟨n, .createUnpacker, false⟩ }
      else none
  | .event ok => s.run deletesTask ok
  | .data =>
      match s.event with
      | some ⟨n, .connectServer, _⟩ => some (s.use (both n))
      | _ => none

/-! ## The property -/

/-- How often a block has been freed. -/
def freeCount (s : Sys) (o : Obj) : Nat := (s.freed.map (·.2)).count o

/-- Both threads have come to their end. -/
def Quiet (s : Sys) : Prop := s.creator = .idle ∧ s.event = none ∧ s.queue = []

/-- **One owner**: what has been handed over is not freed by the creator, each block is freed once,
    and the event thread uses none of them after that. That each block is freed at all is asked
    where both threads have come to their end, and not before. -/
structure Owned (s : Sys) : Prop where
  handed : ∀ n ∈ s.handed, ∀ o ∈ both n, (Who.creator, o) ∉ s.freed
  once : ∀ o, s.freeCount o ≤ 1
  all : s.Quiet → ∀ o ∈ s.made, s.freeCount o = 1
  unused : s.misused = []

/-- The `BEGIN` notification and the destruction of the downloader succeed, an event is posted to a
    handler that is there, and a handler is destroyed when no event of it is left. -/
def Guard (deletesTask : Bool) (s : Sys) : Move → Prop
  | .creator ok =>
      match s.creator with
      | .notifyBegin _ => ok = true
      | .eventsCall _ => ok = true → s.handler = .live
      | .out => s.handler = .live → s.queue = [] ∧ (deletesTask = true → s.event = none)
      | _ => True
  | .event ok =>
      match s.event with
      | some ⟨_, .destroyDownloader, downloader⟩ => downloader = true → ok = true
      | some ⟨_, .eventsDestroy, _⟩ => s.handler = .live → s.queue = []
      | _ => True
  | _ => True

/-! ## Who owes a block -/

end Sys

/-- The blocks that the creator still has to free or to hand over. -/
def CreatorPc.owes : CreatorPc → List Obj
  | .mallocUpdater n | .freeCmd n => [.cmd n]
  | .eventsCall n | .notifyReject n | .freeUpdater n => both n
  | _ => []

/-- The blocks that an event still has to free. -/
def Task.owes (t : Task) : List Obj :=
  match t.stage with
  | .freeUpdater => [.updater t.n]
  | .eventsDestroy => []
  | _ => both t.n

/-- The next block of the creator is a new one, and its command has not been handed over. -/
def CreatorPc.Fresh (commands : Nat) (made : List Obj) (handed : List Nat) : CreatorPc → Prop
  | .mallocCmd n => n < commands ∧ .cmd n ∉ made ∧ .updater n ∉ made ∧ n ∉ handed
  | .mallocUpdater n => n < commands ∧ .updater n ∉ made ∧ n ∉ handed
  | .eventsCall n | .notifyReject n | .freeUpdater n | .freeCmd n => n < commands ∧ n ∉ handed
  | _ => True

namespace Sys

def owned (s : Sys) : List Obj :=
  s.creator.owes ++ s.queue.flatMap both ++ (s.event.map Task.owes).getD []

/-- Each block made is freed, or owed by the creator, a queued event or the event that runs. -/
structure Inv (s : Sys) : Prop where
  owner : ∀ o, s.made.count o = s.freeCount o + s.owned.count o
  single : ∀ o, s.made.count o ≤ 1
  later : ∀ n, s.commands ≤ n → .cmd n ∉ s.made ∧ .updater n ∉ s.made ∧ n ∉ s.handed
  fresh : s.creator.Fresh s.commands s.made s.handed
  handed : ∀ n ∈ s.handed, ∀ o ∈ both n, (Who.creator, o) ∉ s.freed
  unused : s.misused = []

section Steps

variable {s s' : Sys} {deletesTask ok : Bool}

theorem Inv.of_init (h : s.init) : s.Inv := by
  rw [init] at h
  subst h
  exact ⟨fun _ => rfl, fun _ => Nat.zero_le _, fun n _ => by simp, trivial,
    fun n hn => by simp at hn, rfl⟩

theorem Inv.owned_of_quiet (hq : s.Quiet) : s.owned = [] := by
  simp [owned, hq.1, hq.2.1, hq.2.2, CreatorPc.owes]

theorem Inv.owns (h : s.Inv) : s.Owned where
  handed := h.handed
  once o := by
    have howner := h.owner o
    have hsingle := h.single o
    omega
  all hq o ho := by
    have howner := h.owner o
    have hsingle := h.single o
    have hmade := List.count_pos_iff.mpr ho
    rw [Inv.owned_of_quiet hq, List.count_nil] at howner
    omega
  unused := h.unused

/-- A block that somebody owes has not been freed. -/
theorem Inv.not_freed (h : s.Inv) {o : Obj} (ho : o ∈ s.owned) (w : Who) : (w, o) ∉ s.freed := by
  intro hfreed
  have howner := h.owner o
  have hsingle := h.single o
  have howes := List.count_pos_iff.mpr ho
  have hcount : 0 < s.freeCount o := List.count_pos_iff.mpr (List.mem_map_of_mem hfreed)
  omega

/-- A step that makes, frees and hands over nothing, and after which the same blocks are owed. -/
theorem Inv.pass (h : s.Inv) (hmade : s'.made = s.made) (hfreed : s'.freed = s.freed)
    (hhanded : s'.handed = s.handed) (hmisused : s'.misused = s.misused)
    (hcommands : s.commands ≤ s'.commands) (howned : ∀ o, s'.owned.count o = s.owned.count o)
    (hfresh : s'.creator.Fresh s'.commands s'.made s'.handed) : s'.Inv where
  owner o := by rw [hmade, freeCount, hfreed, howned o]; exact h.owner o
  single o := by rw [hmade]; exact h.single o
  later n hn := by rw [hmade, hhanded]; exact h.later n (Nat.le_trans hcommands hn)
  fresh := hfresh
  handed := by rw [hhanded, hfreed]; exact h.handed
  unused := by rw [hmisused]; exact h.unused

/-- A new block, and who made it owes it. -/
theorem Inv.make (h : s.Inv) {o : Obj} (hmade : s'.made = o :: s.made) (hfreed : s'.freed = s.freed)
    (hhanded : s'.handed = s.handed) (hmisused : s'.misused = s.misused)
    (hcommands : s'.commands = s.commands) (hnew : o ∉ s.made)
    (hown : ∀ n, s.commands ≤ n → o ∉ both n)
    (howned : ∀ o', s'.owned.count o' = s.owned.count o' + [o].count o')
    (hfresh : s'.creator.Fresh s'.commands s'.made s'.handed) : s'.Inv where
  owner o' := by
    have hold := h.owner o'
    rw [hmade, freeCount, hfreed, howned o', List.count_cons]
    rw [freeCount] at hold
    simp only [List.count_cons, List.count_nil]
    omega
  single o' := by
    rw [hmade, List.count_cons]
    by_cases heq : o = o'
    · subst heq
      rw [List.count_eq_zero.mpr hnew]
      simp
    · have hsingle := h.single o'
      simp [heq, hsingle]
  later n hn := by
    rw [hcommands] at hn
    obtain ⟨hcmd, hupdater, hhand⟩ := h.later n hn
    have hne := hown n hn
    simp only [both, List.mem_cons, List.not_mem_nil, or_false, not_or] at hne
    rw [hmade, hhanded]
    refine ⟨?_, ?_, hhand⟩
    · rw [List.mem_cons, not_or]
      exact ⟨fun heq => hne.2 heq.symm, hcmd⟩
    · rw [List.mem_cons, not_or]
      exact ⟨fun heq => hne.1 heq.symm, hupdater⟩
  fresh := hfresh
  handed := by rw [hhanded, hfreed]; exact h.handed
  unused := by rw [hmisused]; exact h.unused

/-- A block is freed by who owed it; the creator has not handed it over. -/
theorem Inv.free (h : s.Inv) {w : Who} {o : Obj} (hmade : s'.made = s.made)
    (hfreed : s'.freed = (w, o) :: s.freed) (hhanded : s'.handed = s.handed)
    (hmisused : s'.misused = s.misused) (hcommands : s'.commands = s.commands)
    (howned : ∀ o', s.owned.count o' = s'.owned.count o' + [o].count o')
    (hkept : w = .creator → ∀ n ∈ s.handed, o ∉ both n)
    (hfresh : s'.creator.Fresh s'.commands s'.made s'.handed) : s'.Inv where
  owner o' := by
    have hold := h.owner o'
    rw [howned o'] at hold
    simp only [freeCount, List.count_cons, List.count_nil] at hold
    simp only [hmade, freeCount, hfreed, List.map_cons, List.count_cons]
    omega
  single o' := by rw [hmade]; exact h.single o'
  later n hn := by rw [hmade, hhanded]; exact h.later n (hcommands ▸ hn)
  fresh := hfresh
  handed n hn o' ho' := by
    rw [hhanded] at hn
    rw [hfreed, List.mem_cons, not_or]
    refine ⟨fun heq => ?_, h.handed n hn o' ho'⟩
    obtain ⟨rfl, rfl⟩ := Prod.mk.inj heq
    exact hkept rfl n hn ho'
  unused := by rw [hmisused]; exact h.unused

/-- The creator has posted the updater: both blocks are owed by the event thread now. -/
theorem Inv.handOver (h : s.Inv) {n : Nat} (hmade : s'.made = s.made) (hfreed : s'.freed = s.freed)
    (hhanded : s'.handed = n :: s.handed) (hmisused : s'.misused = s.misused)
    (hcommands : s'.commands = s.commands) (hlt : n < s.commands)
    (howes : ∀ o ∈ both n, o ∈ s.owned) (howned : ∀ o, s'.owned.count o = s.owned.count o)
    (hfresh : s'.creator.Fresh s'.commands s'.made s'.handed) : s'.Inv where
  owner o := by
    rw [hmade, freeCount, hfreed, howned]
    exact h.owner o
  single o := by rw [hmade]; exact h.single o
  later m hm := by
    rw [hcommands] at hm
    obtain ⟨hcmd, hupdater, hhand⟩ := h.later m hm
    rw [hmade, hhanded]
    refine ⟨hcmd, hupdater, ?_⟩
    rw [List.mem_cons, not_or]
    exact ⟨Nat.ne_of_gt (Nat.lt_of_lt_of_le hlt hm), hhand⟩
  fresh := hfresh
  handed m hm o ho := by
    rw [hhanded] at hm
    rw [hfreed]
    rcases List.mem_cons.mp hm with rfl | hm
    · exact h.not_freed (howes o ho) _
    · exact h.handed m hm o ho
  unused := by rw [hmisused]; exact h.unused

/-- Blocks of one command are of no other. -/
theorem not_mem_both {o : Obj} {m n : Nat} (ho : o ∈ both m) (hne : n ≠ m) : o ∉ both n := by
  simp only [both, List.mem_cons, List.not_mem_nil, or_false] at ho ⊢
  rcases ho with rfl | rfl <;> simpa using fun heq => hne heq.symm

theorem Inv.create (h : s.Inv) (hg : s.Guard deletesTask (.creator ok))
    (hs : s.create deletesTask ok = some s') : s'.Inv := by
  obtain ⟨creator, event, handler, queue, commands, made, handed, freed, misused⟩ := s
  have hfresh := h.fresh
  cases creator with
  | idle => exact absurd hs (by simp [Sys.create])
  | mallocCmd n =>
    obtain ⟨hlt, hcmd, hupdater, hhanded⟩ := hfresh
    cases ok
    · obtain rfl := Option.some.inj hs
      exact h.pass rfl rfl rfl rfl (Nat.le_refl _) (fun _ => rfl) trivial
    · obtain rfl := Option.some.inj hs
      refine h.make rfl rfl rfl rfl rfl hcmd (fun m hm => ?_) (fun o => ?_) ⟨hlt, ?_, hhanded⟩
      · exact not_mem_both (m := n) (by simp [both]) (Nat.ne_of_gt (Nat.lt_of_lt_of_le hlt hm))
      · simp only [owned, CreatorPc.owes, List.count_append, List.count_nil]
        omega
      · simpa using hupdater
  | mallocUpdater n =>
    obtain ⟨hlt, hupdater, hhanded⟩ := hfresh
    cases ok
    · obtain rfl := Option.some.inj hs
      exact h.pass rfl rfl rfl rfl (Nat.le_refl _) (fun _ => rfl) ⟨hlt, hhanded⟩
    · obtain rfl := Option.some.inj hs
      refine h.make rfl rfl rfl rfl rfl hupdater (fun m hm => ?_) (fun o => ?_) ⟨hlt, hhanded⟩
      · exact not_mem_both (m := n) (by simp [both]) (Nat.ne_of_gt (Nat.lt_of_lt_of_le hlt hm))
      · simp only [owned, CreatorPc.owes, both, List.count_append, List.count_cons, List.count_nil]
        omega
  | eventsCall n =>
    obtain ⟨hlt, hhanded⟩ := hfresh
    cases ok
    · obtain rfl := Option.some.inj hs
      exact h.pass rfl rfl rfl rfl (Nat.le_refl _) (fun _ => rfl) ⟨hlt, hhanded⟩
    · have hlive : handler = .live := hg rfl
      subst hlive
      obtain rfl := Option.some.inj hs
      refine h.handOver rfl rfl rfl rfl rfl hlt (fun o ho => ?_) (fun o => ?_) trivial
      · simp [owned, CreatorPc.owes, ho]
      · simp only [owned, CreatorPc.owes, if_true, List.flatMap_append, List.flatMap_cons,
          List.flatMap_nil, List.append_nil, List.count_append, List.count_nil]
        omega
  | notifyBegin n =>
    obtain rfl : ok = true := hg
    obtain rfl := Option.some.inj hs
    exact h.pass rfl rfl rfl rfl (Nat.le_refl _) (fun _ => rfl) trivial
  | notifyReject n =>
    obtain rfl := Option.some.inj hs
    exact h.pass rfl rfl rfl rfl (Nat.le_refl _) (fun _ => rfl) hfresh
  | freeUpdater n =>
    obtain rfl := Option.some.inj hs
    refine h.free rfl rfl rfl rfl rfl (fun o => ?_) (fun _ m hm => ?_) hfresh
    · simp only [owned, CreatorPc.owes, both, List.count_append, List.count_cons, List.count_nil]
      omega
    · exact not_mem_both (m := n) (by simp [both]) fun heq => hfresh.2 (heq ▸ hm)
  | freeCmd n =>
    obtain rfl := Option.some.inj hs
    refine h.free rfl rfl rfl rfl rfl (fun o => ?_) (fun _ m hm => ?_) trivial
    · simp only [owned, CreatorPc.owes, List.count_append, List.count_cons, List.count_nil]
      omega
    · exact not_mem_both (m := n) (by simp [both]) fun heq => hfresh.2 (heq ▸ hm)
  | out =>
    obtain rfl := Option.some.inj hs
    cases handler with
    | live =>
      obtain ⟨hqueue, hevent⟩ := hg rfl
      have hevent' : (if deletesTask then none else event) = event := by
        cases deletesTask
        · rfl
        · exact (hevent rfl).symm
      have hqueue : queue = [] := hqueue
      subst hqueue
      refine h.pass rfl rfl rfl rfl (Nat.le_refl _) (fun o => ?_) trivial
      simp only [owned, eventsDestroy, CreatorPc.owes, hevent']
    | null => exact h.pass rfl rfl rfl rfl (Nat.le_refl _) (fun _ => rfl) trivial
    | freed => exact h.pass rfl rfl rfl rfl (Nat.le_refl _) (fun _ => rfl) trivial

/-! The event thread uses only what it owes. -/

theorem uses_owes {n : Nat} {stage : Stage} {downloader : Bool} {o : Obj}
    (ho : o ∈ stage.uses n) : o ∈ Task.owes ⟨n, stage, downloader⟩ := by
  cases stage <;> simp_all [Stage.uses, Task.owes, both]

/-- A call that frees nothing leaves what is owed, if a downloader that is there is destroyed. -/
theorem next_owes {n : Nat} {stage : Stage} {ok downloader downloader' : Bool}
    (hcmd : stage ≠ .freeCmd) (hupdater : stage ≠ .freeUpdater) (hend : stage ≠ .eventsDestroy)
    (hdown : stage = .destroyDownloader → downloader = true → ok = true) :
    Task.owes ⟨n, stage.next ok downloader, downloader'⟩ = Task.owes ⟨n, stage, downloader⟩ := by
  cases stage <;> cases ok <;> cases downloader <;>
    first
    | rfl
    | exact absurd rfl hcmd
    | exact absurd rfl hupdater
    | exact absurd rfl hend
    | exact absurd (hdown rfl rfl) (by decide)

theorem Inv.use_eq (h : s.Inv) {objs : List Obj} (hsub : ∀ o ∈ objs, o ∈ s.owned) :
    s.use objs = s := by
  have hnone : objs.filter (fun o => s.freed.any fun f => f.2 == o) = [] := by
    rw [List.filter_eq_nil_iff]
    intro o ho hany
    obtain ⟨f, hf, heq⟩ := List.any_eq_true.mp hany
    obtain rfl : f.2 = o := by simpa using heq
    exact h.not_freed (hsub _ ho) f.1 hf
  rw [use, hnone]
  rfl

theorem mem_owned_of_owes {t : Task} (ht : s.event = some t) {o : Obj} (ho : o ∈ t.owes) :
    o ∈ s.owned := by
  simp [owned, ht, ho]

theorem Inv.run (h : s.Inv) (hg : s.Guard deletesTask (.event ok))
    (hs : s.run deletesTask ok = some s') : s'.Inv := by
  obtain ⟨creator, event, handler, queue, commands, made, handed, freed, misused⟩ := s
  rcases event with _ | ⟨n, stage, downloader⟩
  · exact absurd hs (by simp [Sys.run])
  simp only [Sys.run] at hs
  rw [h.use_eq fun o ho => mem_owned_of_owes rfl (uses_owes ho)] at hs
  by_cases hcmd : stage = .freeCmd
  · subst hcmd
    obtain rfl := Option.some.inj hs
    refine h.free rfl rfl rfl rfl rfl (fun o => ?_) (fun hw => absurd hw (by decide)) h.fresh
    simp only [owned, Task.owes, both, Option.map_some, Option.getD_some, List.count_append,
      List.count_cons, List.count_nil]
    omega
  by_cases hupdater : stage = .freeUpdater
  · subst hupdater
    obtain rfl := Option.some.inj hs
    refine h.free rfl rfl rfl rfl rfl (fun o => ?_) (fun hw => absurd hw (by decide)) h.fresh
    simp only [owned, Task.owes, Option.map_some, Option.getD_some, List.count_append,
      List.count_cons, List.count_nil]
    omega
  by_cases hend : stage = .eventsDestroy
  · subst hend
    obtain rfl := Option.some.inj hs
    have howned : ∀ o, (owned ⟨creator, none, handler, queue, commands, made, handed, freed,
        misused⟩).count o = (owned ⟨creator, some ⟨n, .eventsDestroy, downloader⟩, handler, queue,
          commands, made, handed, freed, misused⟩).count o := fun o => rfl
    cases handler with
    | live =>
      have hqueue : queue = [] := hg rfl
      subst hqueue
      exact h.pass rfl rfl rfl rfl (Nat.le_refl _) howned h.fresh
    | null => exact h.pass rfl rfl rfl rfl (Nat.le_refl _) howned h.fresh
    | freed => exact h.pass rfl rfl rfl rfl (Nat.le_refl _) howned h.fresh
  have hdown : stage = .destroyDownloader → downloader = true → ok = true := by
    rintro rfl
    exact hg
  by_cases hget : stage = .getDownloader
  · subst hget
    obtain rfl := Option.some.inj hs
    refine h.pass rfl rfl rfl rfl (Nat.le_refl _) (fun o => ?_) h.fresh
    cases ok <;> rfl
  have hs : some (⟨creator, some ⟨n, stage.next ok downloader, downloader⟩, handler, queue,
      commands, made, handed, freed, misused⟩ : Sys) = some s' := by
    cases stage <;> first | exact hs | exact absurd rfl hcmd | exact absurd rfl hupdater |
      exact absurd rfl hend | exact absurd rfl hget
  obtain rfl := Option.some.inj hs
  refine h.pass rfl rfl rfl rfl (Nat.le_refl _) (fun o => ?_) h.fresh
  simp only [owned, Option.map_some, Option.getD_some, next_owes hcmd hupdater hend hdown]

theorem Inv.next (h : s.Inv) {m : Move} (hg : s.Guard deletesTask m)
    (hs : s.next deletesTask m = some s') : s'.Inv := by
  cases m with
  | command created =>
    simp only [Sys.next] at hs
    split at hs
    · rename_i hidle
      obtain ⟨creator, event, handler, queue, commands, made, handed, freed, misused⟩ := s
      obtain rfl : creator = .idle := hidle
      obtain ⟨hcmd, hupdater, hhanded⟩ := h.later commands (Nat.le_refl _)
      have hfresh : CreatorPc.Fresh (commands + 1) made handed (.mallocCmd commands) :=
        ⟨Nat.lt_succ_self commands, hcmd, hupdater, hhanded⟩
      cases handler with
      | null =>
        cases created
        · obtain rfl := Option.some.inj hs
          exact h.pass rfl rfl rfl rfl (Nat.le_succ _) (fun _ => rfl) trivial
        · obtain rfl := Option.some.inj hs
          exact h.pass rfl rfl rfl rfl (Nat.le_succ _) (fun _ => rfl) hfresh
      | live =>
        obtain rfl := Option.some.inj hs
        exact h.pass rfl rfl rfl rfl (Nat.le_succ _) (fun _ => rfl) hfresh
      | freed =>
        obtain rfl := Option.some.inj hs
        exact h.pass rfl rfl rfl rfl (Nat.le_succ _) (fun _ => rfl) hfresh
    · exact absurd hs (by simp)
  | creator ok => exact h.create hg hs
  | take =>
    simp only [Sys.next] at hs
    split at hs
    · rename_i htake
      obtain ⟨creator, event, handler, queue, commands, made, handed, freed, misused⟩ := s
      obtain rfl : event = none := htake.2
      rcases queue with _ | ⟨n, rest⟩
      · exact absurd hs (by simp)
      · obtain rfl := Option.some.inj hs
        refine h.pass rfl rfl rfl rfl (Nat.le_refl _) (fun o => ?_) h.fresh
        simp only [owned, Task.owes, List.flatMap_cons, Option.map_some, Option.map_none,
          Option.getD_some, Option.getD_none, List.count_append, List.count_nil]
        omega
    · exact absurd hs (by simp)
  | event ok => exact h.run hg hs
  | data =>
    simp only [Sys.next] at hs
    split at hs
    · rename_i n downloader hevent
      have huse : s.use (both n) = s := h.use_eq fun o ho => mem_owned_of_owes hevent ho
      rw [huse] at hs
      exact Option.some.inj hs ▸ h
    · exact absurd hs (by simp)

end Steps

/-- **One owner in every run** whose steps meet the guard, however the creator and the event thread
    take their turns, and for both kinds of port. -/
theorem one_owner (deletesTask : Bool) {s : Sys}
    (h : ReachableBy init (next deletesTask) (Guard deletesTask) s) : s.Owned :=
  (h.invariant Inv Inv.of_init fun hi hg hs => hi.next hg hs).owns

def start : Sys := ⟨.idle, none, .null, [], 0, [], [], [], []⟩

/-- A command whose event is posted. -/
def postMoves : List Move :=
  [.command true, .creator true, .creator true, .creator true]

/-- A whole update in which every call succeeds. -/
def updateMoves : List Move :=
  postMoves ++ [.take, .creator true] ++ List.replicate 21 (.event true)

theorem one_owner_update :
    ∃ s, runFrom (next false) start updateMoves = some s ∧ s.Quiet ∧
      s.made = [.updater 0, .cmd 0] ∧ s.Owned := by
  refine ⟨_, rfl, ⟨rfl, rfl, rfl⟩, rfl, one_owner false ?_⟩
  refine ReachableBy.of_runFrom updateMoves (.start rfl) ?_ rfl
  exact ⟨trivial, trivial, trivial, fun _ => rfl, trivial, rfl, trivial, trivial, trivial, trivial,
    trivial, trivial, trivial, trivial, trivial, trivial, trivial, trivial, trivial, trivial,
    trivial, trivial, trivial, fun _ => rfl, trivial, trivial, fun _ => rfl, trivial⟩

/-- The event has begun when the `BEGIN` notification fails. -/
def rejectMoves : List Move :=
  postMoves ++ [.take, .creator false, .creator true, .creator true, .creator true, .event true]

/-- The downloader cannot be destroyed at the end of the update. -/
def keptMoves : List Move :=
  postMoves ++ [.take, .creator true] ++ List.replicate 17 (.event true) ++
    [.event false, .event true]

/-- **Two runs with no owner and with two.** After the failed `BEGIN` notification the creator frees
    both blocks, and the event thread uses the updater; and what is not destroyed is never freed. -/
theorem not_owned_rejected_kept :
    (∃ s, runFrom (next false) start rejectMoves = some s ∧ ¬s.Owned ∧ s.misused ≠ []) ∧
      (∃ s, runFrom (next false) start keptMoves = some s ∧ s.Quiet ∧ ¬s.Owned) := by
  constructor
  · refine ⟨_, rfl, fun h => ?_, by decide⟩
    exact absurd h.unused (by decide)
  · refine ⟨_, rfl, ⟨rfl, rfl, rfl⟩, fun h => ?_⟩
    have hfreed := h.all ⟨rfl, rfl, rfl⟩ (.cmd 0) (by decide)
    exact absurd hfreed (by decide)

end Sys

end Owner
end Ota
end LightDuer
