import LightDuer.Ota.History

/-!
# How far an update comes

`ota_updater` comes to a step exactly if the steps before it have succeeded. `Downloads` and
`Completes` say what that means for the surroundings: the conditions under which it comes to
`decompress_data_end` and to `update_image_begin`.

## Steps

`passes` runs some steps and gives the updater if all of them succeed; what is notified when one
fails has no part in it. `step_mem_iff` is the general fact: a step that is not among those before
it is recorded in the log exactly if these pass.

## Conditions

Each step up to the image has a lemma that says when it succeeds and what it leaves. They only ask
the surroundings for what the code asks for: a lock that is taken, an allocation, a callback, the
length of the url, the HTTP client that has downloaded the body. Only the connection looks into the
download itself, and there it is enough that every call of `handler` returns, since its result is
not used. Neither the result of a block nor a verification of the package is among the conditions;
that is the whole reason why an update comes to the image with a package that nobody has accepted.
-/

set_option autoImplicit false

namespace LightDuer
namespace Ota

open Lib

section Reach

variable {inf : Decoder UInt8 UInt8} (env : UpdateEnv)
  (parseMetaData : List UInt8 → Bool → Option PackageMetaData) (fuel : Nat)

/-- The updater once some steps have all succeeded. -/
def passes : List Step → OtaUpdater inf → Option (OtaUpdater inf)
  | [], up => some up
  | s :: rest, up =>
      match runStep env parseMetaData fuel s (up.record (.step s)) with
      | (.ok, up) => passes rest up
      | _ => none

variable {env parseMetaData fuel}

theorem passes_cons {s : Step} {rest : List Step} {up up'' : OtaUpdater inf} :
    passes env parseMetaData fuel (s :: rest) up = some up'' ↔
      ∃ up', runStep env parseMetaData fuel s (up.record (.step s)) = (.ok, up') ∧
        passes env parseMetaData fuel rest up' = some up'' := by
  rw [passes]
  generalize runStep env parseMetaData fuel s (up.record (.step s)) = run
  obtain ⟨stop, up'⟩ := run
  cases stop <;> simp

theorem passes_append {pre post : List Step} {up up'' : OtaUpdater inf} :
    passes env parseMetaData fuel (pre ++ post) up = some up'' ↔
      ∃ up', passes env parseMetaData fuel pre up = some up' ∧
        passes env parseMetaData fuel post up' = some up'' := by
  induction pre generalizing up with
  | nil => simp [passes]
  | cons s rest ih =>
    rw [List.cons_append, passes_cons]
    simp only [ih, passes_cons]
    constructor
    · rintro ⟨up₁, h₁, up₂, h₂, h₃⟩
      exact ⟨up₂, ⟨up₁, h₁, h₂⟩, h₃⟩
    · rintro ⟨up₂, ⟨up₁, h₁, h₂⟩, h₃⟩
      exact ⟨up₁, h₁, up₂, h₂, h₃⟩

/-- Steps that succeed are followed by the others. -/
theorem runSteps_of_passes {pre post : List (Step × Option OtaEvent)}
    {up up' : OtaUpdater inf}
    (h : passes env parseMetaData fuel (pre.map Prod.fst) up = some up') :
    runSteps env parseMetaData fuel (pre ++ post) up =
      runSteps env parseMetaData fuel post up' := by
  induction pre generalizing up with
  | nil =>
    obtain rfl := Option.some.inj h
    rfl
  | cons step rest ih =>
    obtain ⟨up₁, h₁, h₂⟩ := passes_cons.mp h
    obtain ⟨s, event⟩ := step
    rw [List.cons_append, runSteps, h₁]
    exact ih h₂

/-- After a step that does not succeed there are no others. -/
theorem runSteps_of_not_passes {pre post : List (Step × Option OtaEvent)}
    {up : OtaUpdater inf} (h : passes env parseMetaData fuel (pre.map Prod.fst) up = none) :
    runSteps env parseMetaData fuel (pre ++ post) up =
      runSteps env parseMetaData fuel pre up := by
  induction pre generalizing up with
  | nil => cases h
  | cons step rest ih =>
    obtain ⟨s, event⟩ := step
    rw [List.map_cons, passes] at h
    rw [List.cons_append, runSteps, runSteps]
    generalize runStep env parseMetaData fuel s (up.record (.step s)) = run at h ⊢
    obtain ⟨stop, up₁⟩ := run
    cases stop with
    | ok => exact ih h
    | failed => rfl
    | stuck => rfl

/-- **A step is come to exactly if those before it succeed.** The step is in none of the others, and
    not in the log from before, so that its entry can only be its own. -/
theorem step_mem_iff {pre post : List (Step × Option OtaEvent)} {t : Step}
    {event : Option OtaEvent} {up : OtaUpdater inf} (ht : t ∉ pre.map Prod.fst)
    (hlog : Event.step t ∉ up.world.log) :
    Event.step t ∈ (runSteps env parseMetaData fuel (pre ++ (t, event) :: post) up).2.world.log ↔
      ∃ up', passes env parseMetaData fuel (pre.map Prod.fst) up = some up' := by
  constructor
  · intro hmem
    cases hpass : passes env parseMetaData fuel (pre.map Prod.fst) up with
    | some up' => exact ⟨up', rfl⟩
    | none =>
      rw [runSteps_of_not_passes hpass] at hmem
      obtain ⟨new, hadds, -⟩ := runSteps_adds_snd env parseMetaData fuel pre up
      rw [hadds.log] at hmem
      rcases List.mem_append.mp hmem with hmem | hmem
      · exact absurd hmem hlog
      · rcases hadds.all _ hmem with hinner | ⟨s, hs, heq⟩
        · exact hinner.elim
        · cases heq
          exact absurd hs ht
  · rintro ⟨up', hpass⟩
    rw [runSteps_of_passes hpass, runSteps]
    generalize hrun : runStep env parseMetaData fuel t (up'.record (.step t)) = run
    obtain ⟨stop, up₁⟩ := run
    obtain ⟨new, hadds, -⟩ := runStep_adds hrun
    have hfirst : Event.step t ∈ up₁.world.log := by
      rw [hadds.log]
      simp [OtaUpdater.record, World.record]
    cases stop with
    | ok =>
      obtain ⟨new', hadds', -⟩ := runSteps_adds_snd env parseMetaData fuel post up₁
      show Event.step t ∈ (runSteps env parseMetaData fuel post up₁).2.world.log
      rw [hadds'.log]
      exact List.mem_append_left _ hfirst
    | failed => exact hfirst
    | stuck => exact hfirst

/-! ## The conditions -/

/-- Lock, callback and unlock all succeed. -/
def Guarded.Succeeds (op : Guarded) : Prop :=
  op.lock = duerOk ∧ op.call = duerOk ∧ op.unlock = duerOk

instance : DecidablePred Guarded.Succeeds :=
  fun op => inferInstanceAs (Decidable (op.lock = _ ∧ op.call = _ ∧ op.unlock = _))

/-- The updater when it connects. -/
def OtaUpdater.connecting (env : UpdateEnv) (up : OtaUpdater inf) : OtaUpdater inf :=
  { up with
    unpacker := { OtaUnpacker.create with
      updater := env.setsUpdater, privateData := env.setsPrivateData }
    downloader := true
    httpData := true
    world := { up.world with log := up.world.log ++
      [.step .createUnpacker, .step .initUpdater, .step .dataBegin, .step .getDownloader,
        .step .initDownloader, .step .registerDataNotify, .step .connectServer] } }

/-- The package is downloaded: nothing fails up to the connection, the HTTP client succeeds,
    and every call of `handler` returns. -/
structure Downloads (env : UpdateEnv) (parseMetaData : List UInt8 → Bool → Option PackageMetaData)
    (fuel : Nat) (up : OtaUpdater inf) : Prop where
  unpacker : env.unpackerCreated = true
  initUpdater : env.initUpdater = some duerOk
  updater : env.setsUpdater = true
  dataBegin : env.dataBegin.Succeeds
  registered : up.globals.downloader = true
  lock : up.globals.downloaderLock = .live
  getDownloader : env.getDownloaderLock = duerOk ∧ env.getDownloaderUnlock = duerOk
  initDownloader : env.initLock = duerOk ∧ env.httpClient = true ∧
    env.httpPrivateData = true ∧ env.initUnlock = duerOk
  registerDataNotify : env.registerLock = duerOk ∧ env.registerUnlock = duerOk
  url : env.urlLen < urlLenMax
  connect : env.connectLock = duerOk ∧ env.connectUnlock = duerOk
  received : (env.download fuel).1 = .done .ok
  handled : (handleCalls env parseMetaData fuel (up.connecting env)
    (env.download fuel).2.calls).1 = true

/-- Nothing fails up to `update_image_begin`. -/
structure Completes (env : UpdateEnv) (parseMetaData : List UInt8 → Bool → Option PackageMetaData)
    (fuel : Nat) (up : OtaUpdater inf) : Prop extends Downloads env parseMetaData fuel up where
  dataEnd : env.dataEnd.Succeeds
  downloadComplete : env.notifier (some .downloadComplete) = duerOk

theorem ofRet_eq_ok {ret : Int} : StepEnd.ofRet ret = .ok ↔ ret = duerOk := by
  by_cases h : ret = duerOk <;> simp [StepEnd.ofRet, h]

theorem duerOtaUnpackOp_eq_ok {op : Guarded} {u : OtaUnpacker inf} :
    duerOtaUnpackOp op u = duerOk ↔ u.updater = true ∧ op.Succeeds := by
  unfold duerOtaUnpackOp Guarded.Succeeds
  by_cases hu : u.updater = false
  · simp [hu, duerOk, duerErrInvalidParameter]
  · by_cases hlock : op.lock = 0
    · by_cases hunlock : op.unlock = 0 <;> simp [hu, hlock, hunlock, duerErrFailed, duerOk]
    · simp [hu, hlock, duerErrFailed, duerOk]

section Steps

variable {up up' : OtaUpdater inf}

theorem createUnpacker_ok : runStep env parseMetaData fuel .createUnpacker up = (.ok, up') ↔
    env.unpackerCreated = true ∧ { up with unpacker := .create } = up' := by
  by_cases h : env.unpackerCreated = true <;> simp [runStep, h]

theorem initUpdater_ok : runStep env parseMetaData fuel .initUpdater up = (.ok, up') ↔
    env.initUpdater = some duerOk ∧ { up with unpacker := { up.unpacker with
      updater := env.setsUpdater, privateData := env.setsPrivateData } } = up' := by
  cases h : env.initUpdater <;> simp [runStep, h, ofRet_eq_ok]

theorem dataBegin_ok : runStep env parseMetaData fuel .dataBegin up = (.ok, up') ↔
    (up.unpacker.updater = true ∧ env.dataBegin.Succeeds) ∧ up = up' := by
  simp [runStep, ofRet_eq_ok, duerOtaUnpackDecompressDataBegin, duerOtaUnpackOp_eq_ok]

theorem getDownloader_ok : runStep env parseMetaData fuel .getDownloader up = (.ok, up') ↔
    (up.globals.downloader = true ∧ up.globals.downloaderLock = .live ∧
      env.getDownloaderLock = duerOk ∧ env.getDownloaderUnlock = duerOk) ∧
      { up with downloader := true } = up' := by
  simp only [runStep, duerOtaDownloaderGetDownloader]
  by_cases h : up.globals.downloader = false
  · simp [h]
  · cases hlock : up.globals.downloaderLock with
    | null => simp [h]
    | freed => simp [h]
    | live =>
      by_cases hget : env.getDownloaderLock ≠ duerOk ∨ env.getDownloaderUnlock ≠ duerOk
      · rw [if_neg h, if_pos hget]
        rcases hget with hget | hget <;> simp [hget]
      · rw [if_neg h, if_neg hget]
        simp only [not_or, not_not] at hget
        simp [h, hget]

theorem initDownloader_ok : runStep env parseMetaData fuel .initDownloader up = (.ok, up') ↔
    (env.initLock = duerOk ∧ env.httpClient = true ∧ env.httpPrivateData = true ∧
      env.initUnlock = duerOk) ∧ { up with httpData := true } = up' := by
  simp only [runStep, duerOtaDownloaderInitDownloader]
  by_cases hlock : env.initLock = duerOk
  · by_cases hmade : (env.httpClient && env.httpPrivateData) = true
    · rw [if_neg (not_not_intro hlock), hmade]
      rw [Bool.and_eq_true] at hmade
      by_cases hunlock : env.initUnlock = duerOk <;> simp [hlock, hmade, hunlock]
    · rw [if_neg (not_not_intro hlock)]
      rw [Bool.not_eq_true] at hmade
      rw [hmade]
      have hnot : ¬(env.httpClient = true ∧ env.httpPrivateData = true) := by
        simpa using hmade
      simp only [true_or, if_true, Prod.mk.injEq, reduceCtorEq, false_and, false_iff]
      rintro ⟨⟨-, hclient, hdata, -⟩, -⟩
      exact hnot ⟨hclient, hdata⟩
  · simp [hlock]

theorem registerDataNotify_ok :
    runStep env parseMetaData fuel .registerDataNotify up = (.ok, up') ↔
      (env.registerLock = duerOk ∧ env.registerUnlock = duerOk) ∧ up = up' := by
  simp only [runStep, duerOtaDownloaderRegisterDataNotify]
  by_cases h : env.registerLock ≠ duerOk ∨ env.registerUnlock ≠ duerOk
  · rw [if_pos h]
    rcases h with h | h <;> simp [h]
  · rw [if_neg h]
    simp only [not_or, not_not] at h
    simp [h]

theorem connectServer_ok : runStep env parseMetaData fuel .connectServer up = (.ok, up') ↔
    (env.urlLen < urlLenMax ∧ env.connectLock = duerOk ∧ env.connectUnlock = duerOk ∧
      (env.download fuel).1 = .done .ok) ∧
      handleCalls env parseMetaData fuel up (env.download fuel).2.calls = (true, up') := by
  simp only [runStep, duerOtaDownloaderConnectServer, connectHttpServer]
  by_cases hurl : urlLenMax ≤ env.urlLen
  · rw [if_pos hurl]
    simp [Nat.not_lt.mpr hurl]
  · rw [if_neg hurl]
    by_cases hlock : env.connectLock = duerOk
    · rw [if_neg (not_not_intro hlock)]
      generalize env.download fuel = run
      obtain ⟨out, client⟩ := run
      simp only
      generalize handleCalls env parseMetaData fuel up client.calls = run
      obtain ⟨done, up₁⟩ := run
      cases done with
      | false => simp
      | true =>
        cases out with
        | done res =>
          by_cases hres : res = .ok <;> by_cases hunlock : env.connectUnlock = duerOk <;>
            simp [hres, hunlock, hlock, Nat.lt_of_not_le hurl]
        | running => simp
        | fault => simp
    · rw [if_pos hlock]
      simp [hlock]

theorem dataEnd_ok : runStep env parseMetaData fuel .dataEnd up = (.ok, up') ↔
    (up.unpacker.updater = true ∧ env.dataEnd.Succeeds) ∧ up = up' := by
  simp [runStep, ofRet_eq_ok, duerOtaUnpackDecompressDataEnd, duerOtaUnpackOp_eq_ok]

theorem downloadComplete_ok :
    runStep env parseMetaData fuel .downloadComplete up = (.ok, up') ↔
      env.notifier (some .downloadComplete) = duerOk ∧
        (duerOtaNotifierEvent env up (some .downloadComplete)).2 = up' := by
  simp [runStep, notifyStep, duerOtaNotifierEvent, ofRet_eq_ok]

end Steps

/-- The steps up to the connection. -/
theorem passes_setUp {up up' : OtaUpdater inf} :
    passes env parseMetaData fuel [.createUnpacker, .initUpdater, .dataBegin, .getDownloader,
        .initDownloader, .registerDataNotify, .connectServer] up = some up' ↔
      Downloads env parseMetaData fuel up ∧
        handleCalls env parseMetaData fuel (up.connecting env) (env.download fuel).2.calls =
          (true, up') := by
  constructor
  · intro h
    obtain ⟨_, hrun, h⟩ := passes_cons.mp h
    obtain ⟨hunpacker, rfl⟩ := createUnpacker_ok.mp hrun
    obtain ⟨_, hrun, h⟩ := passes_cons.mp h
    obtain ⟨hinit, rfl⟩ := initUpdater_ok.mp hrun
    obtain ⟨_, hrun, h⟩ := passes_cons.mp h
    obtain ⟨⟨hupdater, hbegin⟩, rfl⟩ := dataBegin_ok.mp hrun
    obtain ⟨_, hrun, h⟩ := passes_cons.mp h
    obtain ⟨⟨hregistered, hlock, hget⟩, rfl⟩ := getDownloader_ok.mp hrun
    obtain ⟨_, hrun, h⟩ := passes_cons.mp h
    obtain ⟨hinitDownloader, rfl⟩ := initDownloader_ok.mp hrun
    obtain ⟨_, hrun, h⟩ := passes_cons.mp h
    obtain ⟨hregister, rfl⟩ := registerDataNotify_ok.mp hrun
    obtain ⟨up₁, hrun, h⟩ := passes_cons.mp h
    obtain ⟨⟨hurl, hconnect, hunlock, hreceived⟩, hcalls⟩ := connectServer_ok.mp hrun
    obtain rfl := Option.some.inj h
    have hcalls' : handleCalls env parseMetaData fuel (up.connecting env)
        (env.download fuel).2.calls = (true, up₁) := by
      rw [← hcalls]
      simp [OtaUpdater.connecting, OtaUpdater.record, World.record]
    exact ⟨⟨hunpacker, hinit, hupdater, hbegin, hregistered, hlock, hget, hinitDownloader,
      hregister, hurl, ⟨hconnect, hunlock⟩, hreceived, by rw [hcalls']⟩, hcalls'⟩
  · rintro ⟨hd, hcalls⟩
    refine passes_cons.mpr ⟨_, createUnpacker_ok.mpr ⟨hd.unpacker, rfl⟩, ?_⟩
    refine passes_cons.mpr ⟨_, initUpdater_ok.mpr ⟨hd.initUpdater, rfl⟩, ?_⟩
    refine passes_cons.mpr ⟨_, dataBegin_ok.mpr ⟨⟨hd.updater, hd.dataBegin⟩, rfl⟩, ?_⟩
    refine passes_cons.mpr ⟨_, getDownloader_ok.mpr
      ⟨⟨hd.registered, hd.lock, hd.getDownloader⟩, rfl⟩, ?_⟩
    refine passes_cons.mpr ⟨_, initDownloader_ok.mpr ⟨hd.initDownloader, rfl⟩, ?_⟩
    refine passes_cons.mpr ⟨_, registerDataNotify_ok.mpr ⟨hd.registerDataNotify, rfl⟩, ?_⟩
    refine passes_cons.mpr ⟨up', connectServer_ok.mpr
      ⟨⟨hd.url, hd.connect.1, hd.connect.2, hd.received⟩, ?_⟩, rfl⟩
    rw [← hcalls]
    simp [OtaUpdater.connecting, OtaUpdater.record, World.record]

theorem decompressData_updater (parseMetaData : List UInt8 → Bool → Option PackageMetaData)
    (fuel : Nat) (u : OtaUnpacker inf) (w : World) (below data : List UInt8) :
    (duerOtaUnpackDecompressData parseMetaData fuel u w below data).2.1.updater = u.updater := by
  rw [duerOtaUnpackDecompressData]
  cases mbedHashUpdateKey u.verification data with
  | none => rfl
  | some verification => rfl

theorem handler_updater (up : OtaUpdater inf) (buf : List UInt8) :
    (handler env parseMetaData fuel up buf).2.unpacker.updater = up.unpacker.updater := by
  rw [handler]
  split
  · generalize up.world.malloc .block = run
    obtain ⟨ok, w⟩ := run
    cases ok with
    | false => rfl
    | true =>
      have hkeep := decompressData_updater parseMetaData fuel up.unpacker w
        (up.belows.headD []) buf
      simp only
      generalize duerOtaUnpackDecompressData parseMetaData fuel up.unpacker w
        (up.belows.headD []) buf = run at hkeep ⊢
      obtain ⟨res, u, w₁⟩ := run
      cases res with
      | ret code =>
        refine Eq.trans ?_ hkeep
        simp only [reportProgress]
        split <;> rfl
      | running => exact hkeep
      | fault => exact hkeep
  · rfl

/-- The handler leaves the unpacker's updater as it is. -/
theorem handleCalls_updater {up up' : OtaUpdater inf} {calls : List Http.HandlerCall}
    {done : Bool} (h : handleCalls env parseMetaData fuel up calls = (done, up')) :
    up'.unpacker.updater = up.unpacker.updater := by
  induction calls generalizing up with
  | nil =>
    cases h
    rfl
  | cons call rest ih =>
    rw [handleCalls] at h
    have hkeep : (handler env parseMetaData fuel up call.block).2.unpacker.updater = _ :=
      handler_updater up call.block
    generalize handler env parseMetaData fuel up call.block = run at h hkeep
    obtain ⟨res, up₁⟩ := run
    cases res with
    | ret code => exact (ih h).trans hkeep
    | running =>
      cases h
      exact hkeep
    | fault =>
      cases h
      exact hkeep

/-- The steps up to `update_image_begin`. -/
theorem passes_completes {up : OtaUpdater inf} :
    (∃ up', passes env parseMetaData fuel [.createUnpacker, .initUpdater, .dataBegin,
        .getDownloader, .initDownloader, .registerDataNotify, .connectServer, .dataEnd,
        .downloadComplete] up = some up') ↔ Completes env parseMetaData fuel up := by
  constructor
  · rintro ⟨up', h⟩
    obtain ⟨up₁, hsetUp, h⟩ := passes_append.mp (show passes env parseMetaData fuel
      ([.createUnpacker, .initUpdater, .dataBegin, .getDownloader, .initDownloader,
        .registerDataNotify, .connectServer] ++ [.dataEnd, .downloadComplete]) up = _ from h)
    obtain ⟨_, hrun, h⟩ := passes_cons.mp h
    obtain ⟨⟨-, hend⟩, rfl⟩ := dataEnd_ok.mp hrun
    obtain ⟨_, hrun, -⟩ := passes_cons.mp h
    exact ⟨(passes_setUp.mp hsetUp).1, hend, (downloadComplete_ok.mp hrun).1⟩
  · intro hc
    generalize hcalls : handleCalls env parseMetaData fuel (up.connecting env)
      (env.download fuel).2.calls = run
    obtain ⟨done, up₁⟩ := run
    obtain rfl : done = true := by
      have hhandled := hc.handled
      rwa [hcalls] at hhandled
    have hupdater : up₁.unpacker.updater = true := (handleCalls_updater hcalls).trans hc.updater
    refine ⟨(duerOtaNotifierEvent env ((up₁.record (.step .dataEnd)).record
      (.step .downloadComplete)) (some .downloadComplete)).2, ?_⟩
    show passes env parseMetaData fuel ([.createUnpacker, .initUpdater, .dataBegin,
      .getDownloader, .initDownloader, .registerDataNotify, .connectServer] ++
        [.dataEnd, .downloadComplete]) up = _
    refine passes_append.mpr ⟨up₁, passes_setUp.mpr ⟨hc.toDownloads, hcalls⟩, ?_⟩
    exact passes_cons.mpr ⟨_, dataEnd_ok.mpr ⟨⟨hupdater, hc.dataEnd⟩, rfl⟩,
      passes_cons.mpr ⟨_, downloadComplete_ok.mpr ⟨hc.downloadComplete, rfl⟩, rfl⟩⟩

end Reach

end Ota
end LightDuer
