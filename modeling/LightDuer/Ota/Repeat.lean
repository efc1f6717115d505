import LightDuer.Lib.Transition
import LightDuer.Ota.Install

/-!
# One command after another

The static variables of the OTA modules are set up by `duer_init_ota`, once, and every command that
comes to `ota_update` finds them as the one before has left them. `otaUpdate` is one command from
its arrival to the end of its event on `s_ota_updater_handler`: it gives none when a handler is used
that has been destroyed, or when the event does not end. The event is run once the command has been
answered.

A command can repeat what a first one does when it finds everything as `duer_init_ota` has left it.
`repeatable_iff` says when it does: as long as no command has come so far as to create an event
handler. All paths from there destroy the handler and keep its pointer.

## The state between commands

Only static variables live from one command to the next: the handler, the registered downloader and
its lock, the lock of the switch, whether `duer_init_ota` has run, and the counter of the progress
notifications. They are `OtaState`, and `Repeatable` compares what any command does in two such
states: its answer, and all that it records.

## Why so little can be repeated

A command that is turned away before it has a handler changes none of them. Every other command ends
with the handler destroyed, whether the update has succeeded or not, and from then on the pointer is
neither `NULL` nor good; `OtaState.Spent` is kept by every later command and every later
initialisation, as `duer_init_ota` does nothing when it is called again. So the two cases of
`repeatable_iff` are decided by the first command that gets through.
-/

set_option autoImplicit false

namespace LightDuer
namespace Ota

open Lib

/-- The static variables of the OTA modules. -/
structure OtaState extends OtaGlobals where
  /-- `s_lock_ota_updater` is created -/
  lockOtaUpdater : Bool
  /-- `first_time` in `duer_init_ota` -/
  firstTime : Bool
  /-- `count` in `handler` -/
  count : Int
deriving DecidableEq, Repr

/-- When the program starts. -/
def OtaState.start : OtaState := ⟨⟨.null, false, .null⟩, false, true, 1⟩

/-- What a `duer_init_ota` leaves in which nothing fails. -/
def OtaState.ready : OtaState := ⟨⟨.null, true, .live⟩, true, false, 1⟩

/-! ## Initialisation -/

/-- What the surroundings answer in one `duer_init_ota`. -/
structure InitEnv where
  /-- `ops` and its callbacks are set -/
  ops : Bool
  /-- the mutex for `s_lock_ota_updater` is created -/
  updaterMutex : Bool
  /-- the mutex for `s_ota_downloader_lock` is created -/
  downloadersMutex : Bool
  /-- the downloader is allocated, and its lock created -/
  downloader : Bool
  downloaderMutex : Bool
  /-- the lock of the downloader, in `duer_ota_downloader_register_downloader_ops` -/
  opsLock : Int
  opsUnlock : Int
  /-- `s_ota_downloader_lock` in `duer_ota_downloader_register_downloader` -/
  registerLock : Int
  registerUnlock : Int
  /-- the lock of the downloader, in `duer_ota_downloader_destroy_downloader` -/
  destroyLock : Int
deriving DecidableEq, Repr

/-- Nothing fails. -/
def InitEnv.Succeeds (e : InitEnv) : Prop :=
  e.ops = true ∧ e.updaterMutex = true ∧ e.downloadersMutex = true ∧ e.downloader = true ∧
    e.downloaderMutex = true ∧ e.opsLock = duerOk ∧ e.opsUnlock = duerOk ∧
    e.registerLock = duerOk ∧ e.registerUnlock = duerOk

instance : DecidablePred InitEnv.Succeeds :=
  fun e => inferInstanceAs (Decidable (e.ops = _ ∧ _))

section Init

variable (e : InitEnv)

/-- `duer_init_ota_downloader`, whose result is logged only. -/
def duerInitOtaDownloader (s : OtaState) : OtaState :=
  { s with
    downloader := false
    downloaderLock :=
      match s.downloaderLock with
      | .null => if e.downloadersMutex then .live else .null
      | lock => lock }

/-- `duer_ota_downloader_register_downloader` -/
def duerOtaDownloaderRegisterDownloader (s : OtaState) : Int × OtaState :=
  if s.downloaderLock ≠ .live ∨ e.registerLock ≠ duerOk then (duerErrFailed, s)
  else (if e.registerUnlock ≠ duerOk then duerErrFailed else duerOk, { s with downloader := true })

/-- The end of `duer_init_http_downloader` after an error behind the registration of its
    operations: `destroy_http_downloader` reads private data that is not there. -/
def destroyNewDownloader (ret : Int) (s : OtaState) : Option (Int × OtaState) :=
  if e.destroyLock ≠ duerOk then some (ret, s) else none

/-- `duer_init_http_downloader`. It succeeds where it has no lock for the downloader. -/
def duerInitHttpDownloader (s : OtaState) : Option (Int × OtaState) :=
  -- `memset` of what could not be allocated
  if e.downloader = false then none
  else if e.downloaderMutex = false then some (duerOk, s)
  else if e.opsLock ≠ duerOk then some (e.opsLock, s)
  else if e.opsUnlock ≠ duerOk then destroyNewDownloader e e.opsUnlock s
  else
    match duerOtaDownloaderRegisterDownloader e s with
    | (ret, s) => if ret ≠ duerOk then destroyNewDownloader e ret s else some (duerOk, s)

/-- `duer_init_ota` -/
def duerInitOta (s : OtaState) : Option (Int × OtaState) :=
  if e.ops = false then some (duerErrInvalidParameter, s)
  else if s.firstTime = false then some (duerOk, s)
  else
    let s := { s with firstTime := false }
    if s.lockOtaUpdater = false ∧ e.updaterMutex = false then some (duerErrMemoryOverlow, s)
    else duerInitHttpDownloader e (duerInitOtaDownloader e { s with lockOtaUpdater := true })

end Init

/-! ## Commands -/

/-- A command, with what the surroundings answer while it is handled. -/
structure Command where
  /-- `s_lock_ota_updater` in `duer_ota_get_switch` -/
  switchLock : Int
  switchUnlock : Int
  /-- the message has a payload -/
  payload : Bool
  /-- `duer_analyze_update_cmd` -/
  analyzed : Int
  /-- `duer_events_create` succeeds -/
  eventsCreated : Bool
  mallocCmd : Bool
  mallocUpdater : Bool
  /-- `duer_events_call` -/
  eventsCall : Int
  /-- the worker has taken the event when its queue is destroyed -/
  taken : Bool
  /-- the event, as in `OtaUpdater` -/
  env : UpdateEnv
  belows : List (List UInt8)
  progressReports : List Int
  mallocs : List Bool
  rets : List Int

/-- What a command leaves: the answer, what has happened, and the static variables. -/
structure Handled where
  ret : Int
  log : List Event
  state : OtaState

/-- `duer_ota_get_switch`: it gives what the unlock gives, not the switch. -/
def duerOtaGetSwitch (c : Command) (s : OtaState) : Int :=
  if s.lockOtaUpdater = false then duerErrFailed
  else if c.switchLock ≠ duerOk then duerErrFailed
  else if c.switchUnlock ≠ duerOk then duerErrFailed
  else duerOk

def disableOta : Int := -1

section Commands

variable (inf : Decoder UInt8 UInt8)

/-- The updater of a command. -/
def Command.updater (c : Command) (s : OtaState) : OtaUpdater inf where
  unpacker := .create
  downloader := false
  httpData := false
  receivedDataSize := 0
  count := s.count
  belows := c.belows
  progressReports := c.progressReports
  world := ⟨c.mallocs, c.rets, []⟩
  globals := s.toOtaGlobals

/-- `duer_events_destroy` of the handler, at the end of a command. -/
def OtaState.destroyHandler (s : OtaState) : OtaState :=
  { s with toOtaGlobals := s.toOtaGlobals.destroyHandler }

variable (parseMetaData : List UInt8 → Bool → Option PackageMetaData) (fuel : Nat)

/-- The update event of a command whose start has been notified. -/
def runUpdate (c : Command) (s : OtaState) (up : OtaUpdater inf) : Option Handled :=
  match otaUpdater c.env parseMetaData fuel up with
  | (true, up) =>
      some ⟨duerOk, up.world.log, { s with toOtaGlobals := up.globals, count := up.count }⟩
  | (false, _) => none

/-- `duer_ota_create_updater`, once there is a handler. -/
def postUpdater (c : Command) (s : OtaState) : Option Handled :=
  if c.mallocCmd = false ∨ c.mallocUpdater = false then
    some ⟨duerErrMemoryOverlow, [], s.destroyHandler⟩
  else if c.eventsCall ≠ duerOk then
    match duerOtaNotifierEvent c.env (c.updater inf s) (some .reject) with
    | (_, up) => some ⟨duerErrFailed, up.world.log, s.destroyHandler⟩
  else
    match duerOtaNotifierEvent c.env (c.updater inf s) (some .begin) with
    | (ret, up) =>
      if ret ≠ duerOk then
        match duerOtaNotifierEvent c.env up (some .reject) with
        -- the updater is freed while its event is in the queue
        | (_, up) => if c.taken then none else some ⟨duerErrFailed, up.world.log, s.destroyHandler⟩
      else runUpdate inf parseMetaData fuel c s up

/-- `duer_ota_create_updater`, and its event. Its command is never `NULL`. -/
def duerOtaCreateUpdater (c : Command) (s : OtaState) : Option Handled :=
  match s.updaterHandler with
  | .null =>
      if c.eventsCreated then
        postUpdater inf parseMetaData fuel c { s with updaterHandler := .live }
      else some ⟨duerErrFailed, [], s.destroyHandler⟩
  | .live => postUpdater inf parseMetaData fuel c s
  -- an event is posted to it, or it is destroyed again
  | .freed => none

/-- `ota_update` -/
def otaUpdate (c : Command) (s : OtaState) : Option Handled :=
  if duerOtaGetSwitch c s = disableOta then some ⟨duerErrFailed, [], s⟩
  else if c.payload = false then some ⟨duerErrFailed, [], s⟩
  else if c.analyzed ≠ duerOk then some ⟨c.analyzed, [], s⟩
  else duerOtaCreateUpdater inf parseMetaData fuel c s

/-! ## Runs -/

/-- The application initialises, or a command is handled to its end. -/
inductive Act where
  | init (e : InitEnv)
  | command (c : Command)

def step (s : OtaState) : Act → Option OtaState
  | .init e => (duerInitOta e s).map (·.2)
  | .command c => (otaUpdate inf parseMetaData fuel c s).map (·.state)

/-- **A command that comes in `s` can do what one can that comes in `first`**: the event handler is
    live or to be created, an HTTP downloader is registered, the locks exist, and whatever the
    command, the same happens. The last part is about every command there could be, and compares the
    answer and all that is recorded. -/
structure Repeatable (first s : OtaState) : Prop where
  handler : s.updaterHandler ≠ .freed
  downloader : s.downloader = true
  locks : s.downloaderLock = .live ∧ s.lockOtaUpdater = true
  sameSteps : ∀ c, (otaUpdate inf parseMetaData fuel c s).map (fun h => (h.ret, h.log)) =
    (otaUpdate inf parseMetaData fuel c first).map fun h => (h.ret, h.log)

/-- It is turned away before there is an event handler: at the switch, without a payload, by
    `duer_analyze_update_cmd`, or since no handler can be created. -/
def Command.TurnedAway (c : Command) : Prop :=
  c.switchLock ≠ duerOk ∨ c.switchUnlock ≠ duerOk ∨ c.payload = false ∨ c.analyzed ≠ duerOk ∨
    c.eventsCreated = false

instance : DecidablePred Command.TurnedAway :=
  fun c => inferInstanceAs (Decidable (c.switchLock ≠ _ ∨ _))

end Commands

/-! ## The handler in an update -/

section Update

variable {inf : Decoder UInt8 UInt8} {env : UpdateEnv}
  {parseMetaData : List UInt8 → Bool → Option PackageMetaData} {fuel : Nat}
  {up up' : OtaUpdater inf}

theorem handler_globals (up : OtaUpdater inf) (buf : List UInt8) :
    (handler env parseMetaData fuel up buf).2.globals = up.globals := by
  rw [handler]
  split
  · generalize up.world.malloc .block = run
    obtain ⟨ok, w⟩ := run
    cases ok with
    | false => rfl
    | true =>
      simp only
      generalize duerOtaUnpackDecompressData parseMetaData fuel up.unpacker w
        (up.belows.headD []) buf = run
      obtain ⟨res, u, w₁⟩ := run
      cases res with
      | ret code =>
        simp only [reportProgress]
        split <;> rfl
      | running => rfl
      | fault => rfl
  · rfl

theorem handleCalls_globals {calls : List Http.HandlerCall} {done : Bool}
    (h : handleCalls env parseMetaData fuel up calls = (done, up')) :
    up'.globals = up.globals := by
  induction calls generalizing up with
  | nil =>
    cases h
    rfl
  | cons call rest ih =>
    rw [handleCalls] at h
    have hkeep : (handler env parseMetaData fuel up call.block).2.globals = up.globals :=
      handler_globals up call.block
    generalize handler env parseMetaData fuel up call.block = run at h hkeep
    obtain ⟨res, up₁⟩ := run
    cases res with
    | ret code => exact (ih h).trans hkeep
    | running =>
      cases h
      exact hkeep
    | fault =>
      cases h
      exact hkeep

theorem connectServer_globals {stop : StepEnd}
    (h : duerOtaDownloaderConnectServer env parseMetaData fuel up = (stop, up')) :
    up'.globals = up.globals := by
  rw [duerOtaDownloaderConnectServer, connectHttpServer] at h
  generalize env.download fuel = run at h
  obtain ⟨out, client⟩ := run
  simp only at h
  generalize hcalls : handleCalls env parseMetaData fuel up client.calls = run at h
  obtain ⟨done, up₁⟩ := run
  have hkeep := handleCalls_globals hcalls
  by_cases hurl : urlLenMax ≤ env.urlLen
  · rw [if_pos hurl] at h
    cases h
    rfl
  · rw [if_neg hurl] at h
    by_cases hlock : env.connectLock ≠ duerOk
    · rw [if_pos hlock] at h
      cases h
      rfl
    · rw [if_neg hlock] at h
      cases done with
      | false =>
        cases h
        exact hkeep
      | true =>
        cases out with
        | done res =>
          by_cases hres : res = .ok <;> (simp only [hres] at h; cases h; exact hkeep)
        | running =>
          cases h
          exact hkeep
        | fault =>
          cases h
          exact hkeep

/-- No step changes the static variables. -/
theorem runStep_globals {s : Step} {stop : StepEnd}
    (h : runStep env parseMetaData fuel s up = (stop, up')) : up'.globals = up.globals := by
  cases s with
  | createUnpacker =>
    rw [runStep] at h
    split at h <;> (cases h; rfl)
  | initUpdater =>
    simp only [runStep] at h
    split at h <;> (cases h; rfl)
  | getDownloader =>
    simp only [runStep, duerOtaDownloaderGetDownloader] at h
    repeat' split at h
    all_goals (cases h; rfl)
  | initDownloader =>
    simp only [runStep, duerOtaDownloaderInitDownloader] at h
    repeat' split at h
    all_goals (cases h; rfl)
  | connectServer => exact connectServer_globals h
  | downloadComplete | installed | dataBegin | registerDataNotify | dataEnd | updateImageBegin
    | updateImage | updateImageEnd | reboot =>
    cases h
    rfl

theorem runSteps_globals {steps : List (Step × Option OtaEvent)} {stop : UpdateEnd}
    (h : runSteps env parseMetaData fuel steps up = (stop, up')) : up'.globals = up.globals := by
  induction steps generalizing up with
  | nil =>
    cases h
    rfl
  | cons step rest ih =>
    obtain ⟨s, event⟩ := step
    rw [runSteps] at h
    generalize hrun : runStep env parseMetaData fuel s (up.record (.step s)) = run at h
    obtain ⟨res, up₁⟩ := run
    have hkeep : up₁.globals = (up.record (.step s)).globals := runStep_globals hrun
    cases res with
    | ok => exact (ih h).trans hkeep
    | failed =>
      cases h
      exact hkeep
    | stuck =>
      cases h
      exact hkeep

theorem unregisterDownloader_handler (env : UpdateEnv) (g : OtaGlobals) :
    (duerOtaDownloaderUnregisterDownloader env g).2.updaterHandler = g.updaterHandler := by
  rw [duerOtaDownloaderUnregisterDownloader]
  cases g.downloaderLock with
  | null => rfl
  | freed => rfl
  | live =>
    simp only
    split <;> rfl

theorem destroyDownloader_handler (env : UpdateEnv) (up : OtaUpdater inf) :
    (duerOtaDownloaderDestroyDownloader env up).2.updaterHandler = up.globals.updaterHandler := by
  have hkeep := unregisterDownloader_handler env up.globals
  rw [duerOtaDownloaderDestroyDownloader]
  generalize duerOtaDownloaderUnregisterDownloader env up.globals = run at hkeep ⊢
  obtain ⟨ret, g⟩ := run
  split
  · rfl
  · split
    · rfl
    · split
      · rfl
      · cases ret <;> exact hkeep

theorem uninitDownloader_handler (g : OtaGlobals) :
    (duerUninitOtaDownloader env g).updaterHandler = g.updaterHandler := by
  rw [duerUninitOtaDownloader]
  cases g.downloaderLock with
  | null => rfl
  | freed => rfl
  | live =>
    simp only
    split <;> rfl

theorem destroyUpdater_handler {g : OtaGlobals} (h : duerOtaDestroyUpdater env up = some g) :
    g.updaterHandler = up.globals.updaterHandler := by
  have hkeep := destroyDownloader_handler env up
  rw [duerOtaDestroyUpdater] at h
  generalize duerOtaDownloaderDestroyDownloader env up = run at h hkeep
  obtain ⟨ret, g₁⟩ := run
  split at h
  · cases ret with
    | none => cases h
    | some ret =>
      obtain rfl := Option.some.inj h
      split
      · exact hkeep
      · exact (uninitDownloader_handler g₁).trans hkeep
  · obtain rfl := Option.some.inj h
    rfl

@[simp] theorem destroyHandler_of_live {g : OtaGlobals} (h : g.updaterHandler = .live) :
    g.destroyHandler.updaterHandler = .freed := by
  simp [OtaGlobals.destroyHandler, h]

/-- **An update that ends has destroyed its event handler.** It is the last thing that `ota_updater`
    does, whether its steps have succeeded or not, and the pointer is not cleared. -/
theorem otaUpdater_handler (hlive : up.globals.updaterHandler = .live)
    (h : otaUpdater env parseMetaData fuel up = (true, up')) :
    up'.globals.updaterHandler = .freed := by
  -- both ways to the end of the update go on with the globals it has started with
  have hfinish : ∀ (up₁ : OtaUpdater inf) (r : Bool × OtaUpdater inf), up₁.globals = up.globals →
      (duerOtaDestroyUpdater env up₁ = none → r.1 = false) →
      (∀ g, duerOtaDestroyUpdater env up₁ = some g → r.2.globals = g.destroyHandler) →
      r = (true, up') → up'.globals.updaterHandler = .freed := by
    intro up₁ r hglobals hnone hsome hr
    subst hr
    cases hdestroy : duerOtaDestroyUpdater env up₁ with
    | none => cases hnone hdestroy
    | some g =>
      have hend : up'.globals = g.destroyHandler := hsome g hdestroy
      have hkeep : g.updaterHandler = up₁.globals.updaterHandler := destroyUpdater_handler hdestroy
      rw [hglobals, hlive] at hkeep
      rw [hend]
      exact destroyHandler_of_live hkeep
  rw [otaUpdater] at h
  generalize hrun : runSteps env parseMetaData fuel otaUpdaterSteps up = run at h
  obtain ⟨stop, up₁⟩ := run
  have hkeep := runSteps_globals hrun
  cases stop with
  | completed =>
    exact hfinish up₁ _ hkeep (fun hd => by simp [hd]) (fun g hd => by simp [hd]) h
  | failed event =>
    exact hfinish (duerOtaNotifierEvent env up₁ event).2 _ hkeep (fun hd => by simp [hd])
      (fun g hd => by simp [hd]) h
  | stuck => cases h

end Update

/-! ## What a command leaves -/

section Leaves

variable {inf : Decoder UInt8 UInt8} {parseMetaData : List UInt8 → Bool → Option PackageMetaData}
  {fuel : Nat} {c : Command} {s s' : OtaState} {a : Act}

theorem duerInitOta_start {e : InitEnv} (h : e.Succeeds) :
    duerInitOta e .start = some (duerOk, .ready) := by
  obtain ⟨hops, hupdater, hdownloaders, hdownloader, hmutex, hopsLock, hopsUnlock, hlock,
    hunlock⟩ := h
  simp [duerInitOta, duerInitHttpDownloader, duerInitOtaDownloader,
    duerOtaDownloaderRegisterDownloader, OtaState.start, OtaState.ready, hops, hupdater,
    hdownloaders, hdownloader, hmutex, hopsLock, hopsUnlock, hlock, hunlock]

/-- `duer_init_ota` does nothing when it has been called before. -/
theorem duerInitOta_again {e : InitEnv} (hfirst : s.firstTime = false) :
    (duerInitOta e s).map (·.2) = some s := by
  by_cases hops : e.ops = false
  · rw [duerInitOta, if_pos hops]
    rfl
  · rw [duerInitOta, if_neg hops, if_pos hfirst]
    rfl

/-- Once there is a handler, a command that ends has destroyed it. -/
theorem postUpdater_handler {h : Handled} (hlive : s.updaterHandler = .live)
    (hpost : postUpdater inf parseMetaData fuel c s = some h) :
    h.state.updaterHandler = .freed ∧ h.state.firstTime = s.firstTime := by
  have hdestroyed : s.destroyHandler.updaterHandler = .freed := destroyHandler_of_live hlive
  rw [postUpdater] at hpost
  split at hpost
  · obtain rfl := Option.some.inj hpost
    exact ⟨hdestroyed, rfl⟩
  · split at hpost
    · obtain rfl := Option.some.inj hpost
      exact ⟨hdestroyed, rfl⟩
    · simp only at hpost
      split at hpost
      · split at hpost
        · cases hpost
        · obtain rfl := Option.some.inj hpost
          exact ⟨hdestroyed, rfl⟩
      · rw [runUpdate] at hpost
        generalize hrun : otaUpdater c.env parseMetaData fuel _ = run at hpost
        obtain ⟨done, up'⟩ := run
        cases done with
        | false => cases hpost
        | true =>
          obtain rfl := Option.some.inj hpost
          exact ⟨otaUpdater_handler hlive hrun, rfl⟩

/-- A command that is turned away leaves everything as it has found it. -/
theorem otaUpdate_turnedAway (h : c.TurnedAway) :
    (otaUpdate inf parseMetaData fuel c .ready).map (·.state) = some .ready := by
  rw [otaUpdate]
  by_cases hswitch : duerOtaGetSwitch c .ready = disableOta
  · rw [if_pos hswitch]
    rfl
  · rw [if_neg hswitch]
    by_cases hpayload : c.payload = false
    · rw [if_pos hpayload]
      rfl
    · rw [if_neg hpayload]
      by_cases hanalyzed : c.analyzed ≠ duerOk
      · rw [if_pos hanalyzed]
        rfl
      · rw [if_neg hanalyzed]
        -- what is left is that no handler can be created
        have hcreated : c.eventsCreated = false := by
          rcases h with h | h | h | h | h
          · exact absurd (by simp [duerOtaGetSwitch, OtaState.ready, h, duerErrFailed, disableOta])
              hswitch
          · refine absurd ?_ hswitch
            simp [duerOtaGetSwitch, OtaState.ready, h, duerErrFailed, disableOta]
          · exact absurd h hpayload
          · exact absurd h hanalyzed
          · exact h
        simp only [duerOtaCreateUpdater, OtaState.ready, hcreated]
        rfl

/-- Any other command that ends has destroyed the handler it has created. -/
theorem otaUpdate_not_turnedAway {h : Handled} (hnot : ¬c.TurnedAway)
    (hupdate : otaUpdate inf parseMetaData fuel c .ready = some h) :
    h.state.updaterHandler = .freed ∧ h.state.firstTime = false := by
  simp only [Command.TurnedAway, not_or, not_not, Bool.not_eq_false] at hnot
  obtain ⟨hlock, hunlock, hpayload, hanalyzed, hcreated⟩ := hnot
  have hswitch : duerOtaGetSwitch c .ready ≠ disableOta := by
    simp [duerOtaGetSwitch, OtaState.ready, hlock, hunlock, duerOk, disableOta]
  have hpost : otaUpdate inf parseMetaData fuel c .ready =
      postUpdater inf parseMetaData fuel c { OtaState.ready with updaterHandler := .live } := by
    rw [otaUpdate, if_neg hswitch, if_neg (by simp [hpayload]), if_neg (not_not_intro hanalyzed)]
    simp only [duerOtaCreateUpdater, OtaState.ready, hcreated, if_true]
  rw [hpost] at hupdate
  exact postUpdater_handler rfl hupdate

/-- **With a destroyed handler nothing is handled any more**: a command is turned away without a
    change, or it uses the handler. -/
theorem otaUpdate_freed {h : Handled} (hfreed : s.updaterHandler = .freed)
    (hupdate : otaUpdate inf parseMetaData fuel c s = some h) : h.state = s ∧ h.log = [] := by
  rw [otaUpdate] at hupdate
  split at hupdate
  · obtain rfl := Option.some.inj hupdate
    exact ⟨rfl, rfl⟩
  · split at hupdate
    · obtain rfl := Option.some.inj hupdate
      exact ⟨rfl, rfl⟩
    · split at hupdate
      · obtain rfl := Option.some.inj hupdate
        exact ⟨rfl, rfl⟩
      · rw [duerOtaCreateUpdater, hfreed] at hupdate
        cases hupdate

/-! ## Runs -/

/-- What no command is handled in. -/
def OtaState.Spent (s : OtaState) : Prop := s.updaterHandler = .freed ∧ s.firstTime = false

theorem step_turnedAway (hact : ∀ c, a = .command c → c.TurnedAway)
    (hstep : step inf parseMetaData fuel .ready a = some s') : s' = .ready := by
  cases a with
  | init e => exact Option.some.inj (hstep.symm.trans (duerInitOta_again rfl))
  | command c => exact Option.some.inj (hstep.symm.trans (otaUpdate_turnedAway (hact c rfl)))

theorem step_not_turnedAway (hact : ¬∀ c, a = .command c → c.TurnedAway)
    (hstep : step inf parseMetaData fuel .ready a = some s') : s'.Spent := by
  cases a with
  | init e => exact absurd (fun c heq => by cases heq) hact
  | command c =>
    have hnot : ¬c.TurnedAway := fun h => hact fun c' heq => by cases heq; exact h
    obtain ⟨h, hupdate, rfl⟩ := Option.map_eq_some_iff.mp hstep
    exact otaUpdate_not_turnedAway hnot hupdate

theorem step_spent (hs : s.Spent) (hstep : step inf parseMetaData fuel s a = some s') :
    s'.Spent := by
  cases a with
  | init e =>
    obtain rfl := Option.some.inj (hstep.symm.trans (duerInitOta_again hs.2))
    exact hs
  | command c =>
    obtain ⟨h, hupdate, rfl⟩ := Option.map_eq_some_iff.mp hstep
    rw [(otaUpdate_freed hs.1 hupdate).1]
    exact hs

/-- **When OTA can be repeated**: after a run, exactly when every command of it was turned away
    before there was an event handler. That a command was turned away depends on the command alone,
    not on how its update would have ended. -/
theorem repeatable_iff (inf : Decoder UInt8 UInt8)
    (parseMetaData : List UInt8 → Bool → Option PackageMetaData) (fuel : Nat)
    {e : InitEnv} {first s : OtaState} {as : List Act} (he : e.Succeeds)
    (hinit : duerInitOta e .start = some (duerOk, first))
    (hrun : runFrom (step inf parseMetaData fuel) first as = some s) :
    Repeatable inf parseMetaData fuel first s ↔ ∀ c, .command c ∈ as → c.TurnedAway := by
  obtain rfl : OtaState.ready = first := by
    have heq := (duerInitOta_start he).symm.trans hinit
    exact (Prod.mk.inj (Option.some.inj heq)).2
  have hends := runFrom_good_or_bad (fun a => ∀ c, a = .command c → c.TurnedAway) (· = .ready)
    OtaState.Spent (fun hs hact hstep => step_turnedAway hact (hs ▸ hstep))
    (fun hs hact hstep => step_not_turnedAway hact (hs ▸ hstep)) step_spent rfl hrun
  rcases hends with ⟨rfl, hall⟩ | ⟨hspent, a, ha, hact⟩
  · refine iff_of_true ⟨nofun, rfl, ⟨rfl, rfl⟩, fun _ => rfl⟩ fun c hc => hall _ hc c rfl
  · refine iff_of_false (fun h => h.handler hspent.1) fun hall => hact ?_
    rintro c rfl
    exact hall c ha

end Leaves

/-! ## A second package -/

/-- A command whose package is installed, with the reboot switched off. -/
def sampleCommand (body : List UInt8) : Command where
  switchLock := 0
  switchUnlock := 0
  payload := true
  analyzed := 0
  eventsCreated := true
  mallocCmd := true
  mallocUpdater := true
  eventsCall := 0
  taken := false
  env := { sampleEnv body with rebootEnabled := false }
  belows := []
  progressReports := []
  mallocs := []
  rets := []

def sampleInit : InitEnv := ⟨true, true, true, true, true, 0, 0, 0, 0, 0⟩

/-- After a package has been installed no other can be: the handler is destroyed, no downloader is
    registered, and their lock is destroyed. A second `duer_init_ota` does not change that, and
    the next command uses the handler. -/
theorem not_repeatable_after_install :
    ∃ h, otaUpdate (storedInflate (sampleStream 0) 85) sampleParseMetaData 50
        (sampleCommand (samplePackage 0)) .ready = some h ∧
      h.ret = duerOk ∧ .notify (some .installed) duerOk ∈ h.log ∧
      runFrom (step (storedInflate (sampleStream 0) 85) sampleParseMetaData 50)
        .ready [.command (sampleCommand (samplePackage 0)), .init sampleInit] = some h.state ∧
      h.state.updaterHandler = .freed ∧ h.state.downloader = false ∧
      h.state.downloaderLock = .freed ∧
      ¬Repeatable (storedInflate (sampleStream 0) 85) sampleParseMetaData 50
        .ready h.state ∧
      otaUpdate (storedInflate (sampleStream 0) 85) sampleParseMetaData 50
        (sampleCommand (samplePackage 0)) h.state = none := by
  have hrun : (otaUpdate (storedInflate (sampleStream 0) 85) sampleParseMetaData 50
      (sampleCommand (samplePackage 0)) .ready).map (fun h => (h.ret, h.state,
        decide (.notify (some .installed) duerOk ∈ h.log))) =
      some (duerOk, ⟨⟨.freed, false, .freed⟩, true, false, 1⟩, true) := by
    decide +kernel
  obtain ⟨⟨ret, log, s⟩, hupdate, heq⟩ := Option.map_eq_some_iff.mp hrun
  obtain ⟨rfl, rfl, hmem⟩ : ret = duerOk ∧ s = ⟨⟨.freed, false, .freed⟩, true, false, 1⟩ ∧ _ := by
    simpa only [Prod.mk.injEq] using heq
  have hstep := congrArg (Option.map Handled.state) hupdate
  exact ⟨_, hupdate, rfl, of_decide_eq_true hmem, Option.bind_eq_some_iff.mpr ⟨_, hstep, rfl⟩, rfl,
    rfl, rfl, fun h => h.handler rfl, rfl⟩

theorem repeatable_after_refused :
    Repeatable (storedInflate (sampleStream 0) 85) sampleParseMetaData 50 .ready
        .ready ↔
      ∀ c, Act.command c ∈ [Act.command { sampleCommand [] with payload := false },
        .init sampleInit] → c.TurnedAway :=
  repeatable_iff _ _ 50 (e := sampleInit) (by decide) rfl rfl

end Ota
end LightDuer
