import LightDuer.Ota.Codes
import LightDuer.Ota.StoredInflate

/-!
# What is installed

Two properties of the log of an update, and exactly when `ota_updater` has them. The signature gate:
an image is written or booted only after `mbed_verification` has accepted the package. Fail-stop:
nothing is done with a package after a block of it has failed, or before its end. The updater has
the first only when it never comes to the image, and the second only when the download itself fails
or nothing in it does: it uses neither `mbed_verification` nor the result of a block.

## The properties

Both speak about the log of one update. `SignatureGate` asks that in front of every step that writes
or boots an image the package has been verified, over exactly the octets behind its header. No
function of the update records such a verification, since nothing calls `mbed_verification`; so the
gate holds exactly where no such step is come to, and `Completes` says when that is in terms of what
the surroundings answer.

`FailStop` asks that the end of the data and all that comes after it happen only if every block was
accepted, every allocation for a block succeeded and inflate has reported the end of the stream.

## When they hold

`CleanDownload` is a condition on what comes in: the answers of the surroundings, and the blocks of
the download as inflate alone takes them, window by window. That inflate returns the same within the
update is `inflateCodes_of_downloads`. `failStop_iff` then says that an update is fail-stop exactly
if it fails up to the download, or the download is clean. The samples are runs of the whole update
with a package that is installed although nobody has verified it.
-/

set_option autoImplicit false

namespace LightDuer
namespace Ota

open Lib

/-! ## The properties -/

/-- The package octets given to the unpacker. -/
def received (log : List Event) : List UInt8 :=
  log.flatMap fun
    | .data block => block
    | _ => []

/-- A step that writes or boots an image. -/
def Event.Installs (e : Event) : Prop :=
  e = .step .updateImageBegin ∨ e = .step .updateImage ∨ e = .step .reboot

/-- The package has been verified after its last octet: its hash is over exactly the octets
    behind the header, its signature is the header's. -/
def Verified (log : List Event) : Prop :=
  ∃ before sha1 packageSig after,
    log = before ++ .verification sha1 packageSig duerOk :: after ∧
      received after = [] ∧ sha1 = (received log).drop pckHeaderSz ∧
      packageSig = (((received log).take pckHeaderSz).drop packageSigOffset).take keyLen

/-- **The signature gate**: whatever writes or boots an image stands behind a verification of the
    package in the log. -/
def SignatureGate (log : List Event) : Prop :=
  ∀ before e after, log = before ++ e :: after → e.Installs → Verified before

/-- **Fail-stop.** The end of the data, the image, the notification of the install and the
    reboot come only after every block was accepted, every allocation for one succeeded, and
    inflate has reported the end of the compressed stream. -/
def FailStop (log : List Event) : Prop :=
  (.step .dataEnd ∈ log ∨ .step .updateImage ∈ log ∨ .step .installed ∈ log ∨
      .step .reboot ∈ log) →
    (∀ ret, .decompressed ret ∈ log → ret = duerOk) ∧
      (∀ what, .malloc what false ∉ log) ∧ .inflate zStreamEnd ∈ log

/-- What inflate returns for the blocks of the download. -/
def OtaUpdater.codes {inf : Decoder UInt8 UInt8} (env : UpdateEnv) (fuel : Nat)
    (up : OtaUpdater inf) : List Int :=
  packageCodes fuel (mbedZlibstreamDecompressInit : DecompressContext inf) up.belows
    ((env.download fuel).2.calls.map (·.block))

/-- No allocation is refused and no callback on data fails, and inflate takes the blocks of the
    download to the end of the stream. -/
structure CleanDownload {inf : Decoder UInt8 UInt8} (env : UpdateEnv) (fuel : Nat)
    (up : OtaUpdater inf) : Prop where
  calm : up.world.Calm
  inflates : ∀ code ∈ up.codes env fuel, ¬InflateFailed code
  ends : zStreamEnd ∈ up.codes env fuel

/-- The answers of the surroundings are those that the update asks for: none is left over. -/
structure Asked {inf : Decoder UInt8 UInt8} (env : UpdateEnv)
    (parseMetaData : List UInt8 → Bool → Option PackageMetaData) (fuel : Nat)
    (up : OtaUpdater inf) : Prop where
  mallocs : (otaUpdater env parseMetaData fuel up).2.world.mallocs = []
  rets : (otaUpdater env parseMetaData fuel up).2.world.rets = []

section Install

variable {inf : Decoder UInt8 UInt8} {env : UpdateEnv}
  {parseMetaData : List UInt8 → Bool → Option PackageMetaData} {fuel : Nat} {up : OtaUpdater inf}

/-! ## The log of an update -/

/-- The one event that an update may notify after its steps. -/
def Event.Notified : Event → Prop
  | .notify .. => True
  | _ => False

/-- After its steps an update may notify one event. -/
theorem otaUpdater_adds (env : UpdateEnv)
    (parseMetaData : List UInt8 → Bool → Option PackageMetaData) (fuel : Nat)
    (up : OtaUpdater inf) : ∃ tail : List Event,
    Adds Event.Notified (runSteps env parseMetaData fuel otaUpdaterSteps up).2.world
      (otaUpdater env parseMetaData fuel up).2.world tail := by
  rw [otaUpdater]
  generalize runSteps env parseMetaData fuel otaUpdaterSteps up = run
  obtain ⟨stop, up₁⟩ := run
  cases stop with
  | completed =>
    refine ⟨[], ?_⟩
    simp only
    cases duerOtaDestroyUpdater env up₁ <;> exact .refl _ _
  | failed event =>
    refine ⟨[.notify event (env.notifier event)], ?_⟩
    simp only
    cases duerOtaDestroyUpdater env (duerOtaNotifierEvent env up₁ event).2 <;>
      exact .record _ trivial trivial
  | stuck => exact ⟨[], .refl _ _⟩

/-- A step in the log of an update is in the log of its steps. -/
theorem step_mem_otaUpdater {s : Step} :
    .step s ∈ (otaUpdater env parseMetaData fuel up).2.world.log ↔
      .step s ∈ (runSteps env parseMetaData fuel otaUpdaterSteps up).2.world.log := by
  obtain ⟨tail, htail⟩ := otaUpdater_adds env parseMetaData fuel up
  rw [htail.log, List.mem_append, or_iff_left]
  exact fun hmem => htail.all _ hmem

/-- An update comes to a step exactly if those before it succeed. -/
theorem step_mem_iff_passes {k : Nat} {t : Step} {event : Option OtaEvent}
    (hsplit : otaUpdaterSteps =
      otaUpdaterSteps.take k ++ (t, event) :: otaUpdaterSteps.drop (k + 1))
    (hnew : t ∉ (otaUpdaterSteps.take k).map Prod.fst) (hlog : up.world.log = []) :
    .step t ∈ (otaUpdater env parseMetaData fuel up).2.world.log ↔
      ∃ up', passes env parseMetaData fuel ((otaUpdaterSteps.take k).map Prod.fst) up =
        some up' := by
  rw [step_mem_otaUpdater]
  conv => lhs; rw [hsplit]
  exact step_mem_iff hnew (by rw [hlog]; simp)

/-- The steps before one that is come to have succeeded. -/
theorem come_to {k : Nat} {t : Step} {event : Option OtaEvent} {early : List Step}
    (hsplit : otaUpdaterSteps =
      otaUpdaterSteps.take k ++ (t, event) :: otaUpdaterSteps.drop (k + 1))
    (hnew : t ∉ (otaUpdaterSteps.take k).map Prod.fst)
    (hearly : early <+: (otaUpdaterSteps.take k).map Prod.fst) (hlog : up.world.log = [])
    (hmem : .step t ∈ (otaUpdater env parseMetaData fuel up).2.world.log) :
    ∃ up', passes env parseMetaData fuel early up = some up' := by
  obtain ⟨up', hpass⟩ := (step_mem_iff_passes hsplit hnew hlog).mp hmem
  obtain ⟨late, hlate⟩ := hearly
  rw [← hlate] at hpass
  obtain ⟨up₁, hpass₁, -⟩ := passes_append.mp hpass
  exact ⟨up₁, hpass₁⟩

/-- No update records a verification: nothing calls `mbed_verification`. -/
theorem not_verification_mem (hlog : up.world.log = []) (sha1 packageSig : List UInt8)
    (ret : Int) : .verification sha1 packageSig ret ∉
      (otaUpdater env parseMetaData fuel up).2.world.log := by
  intro hmem
  obtain ⟨tail, htail⟩ := otaUpdater_adds env parseMetaData fuel up
  obtain ⟨new, hadds, -⟩ := runSteps_adds_snd env parseMetaData fuel otaUpdaterSteps up
  rw [htail.log, hadds.log, hlog, List.nil_append] at hmem
  rcases List.mem_append.mp hmem with hmem | hmem
  · rcases hadds.all _ hmem with hinner | ⟨s, -, heq⟩
    · exact hinner
    · cases heq
  · exact htail.all _ hmem

/-! ## The signature gate -/

theorem completes_iff_updateImageBegin (hlog : up.world.log = []) :
    Completes env parseMetaData fuel up ↔
      .step .updateImageBegin ∈ (otaUpdater env parseMetaData fuel up).2.world.log := by
  rw [← passes_completes, step_mem_iff_passes (k := 9) rfl (by decide) hlog]
  rfl

/-- An update that comes to the image has passed no gate. -/
theorem not_signatureGate_of_mem (hlog : up.world.log = [])
    (hmem : .step .updateImageBegin ∈ (otaUpdater env parseMetaData fuel up).2.world.log) :
    ¬SignatureGate (otaUpdater env parseMetaData fuel up).2.world.log := by
  intro hgate
  obtain ⟨before, after, hsplit⟩ := List.append_of_mem hmem
  obtain ⟨b, sha1, packageSig, a, hbefore, -⟩ := hgate before _ after hsplit (.inl rfl)
  exact not_verification_mem hlog sha1 packageSig duerOk (by rw [hsplit, hbefore]; simp)

/-- **When the gate holds**: exactly when the update fails before it comes to the image. What has
    been downloaded has no influence on it, nor whether a verification would have accepted it. -/
theorem signatureGate_iff (hlog : up.world.log = []) :
    SignatureGate (otaUpdater env parseMetaData fuel up).2.world.log ↔
      ¬Completes env parseMetaData fuel up := by
  constructor
  · intro hgate hcompletes
    exact not_signatureGate_of_mem hlog ((completes_iff_updateImageBegin hlog).mp hcompletes) hgate
  · intro hnot before e after hsplit hinstalls
    have hmem : e ∈ (otaUpdater env parseMetaData fuel up).2.world.log := by
      rw [hsplit]
      simp
    refine absurd ?_ hnot
    rw [← passes_completes]
    rcases hinstalls with rfl | rfl | rfl
    · exact come_to (k := 9) rfl (by decide) (by decide) hlog hmem
    · exact come_to (k := 10) rfl (by decide) (by decide) hlog hmem
    · exact come_to (k := 13) rfl (by decide) (by decide) hlog hmem

/-! ## Fail-stop -/

theorem downloads_iff_passes : Downloads env parseMetaData fuel up ↔
    ∃ up', passes env parseMetaData fuel [.createUnpacker, .initUpdater, .dataBegin,
      .getDownloader, .initDownloader, .registerDataNotify, .connectServer] up = some up' := by
  constructor
  · intro hd
    generalize hcalls : handleCalls env parseMetaData fuel (up.connecting env)
      (env.download fuel).2.calls = run
    obtain ⟨done, up'⟩ := run
    have hhandled := hd.handled
    rw [hcalls] at hhandled
    exact ⟨up', passes_setUp.mpr ⟨hd, hcalls.trans (congrArg (·, up') hhandled)⟩⟩
  · rintro ⟨up', h⟩
    exact (passes_setUp.mp h).1

/-- The steps after the download always end. -/
theorem runSteps_late_not_stuck (up' : OtaUpdater inf) :
    (runSteps env parseMetaData fuel (otaUpdaterSteps.drop 7) up').1 ≠ .stuck := by
  have hlate : ∀ steps : List (Step × Option OtaEvent),
      (∀ step ∈ steps, ∀ up₁ : OtaUpdater inf,
        (runStep env parseMetaData fuel step.1 up₁).1 ≠ .stuck) →
      ∀ up₁ : OtaUpdater inf, (runSteps env parseMetaData fuel steps up₁).1 ≠ .stuck := by
    intro steps
    induction steps with
    | nil => exact fun _ _ h => by cases h
    | cons step rest ih =>
      intro hall up₁
      have hstep := hall step (by simp) (up₁.record (.step step.1))
      rw [runSteps]
      generalize runStep env parseMetaData fuel step.1 (up₁.record (.step step.1)) = run at hstep ⊢
      obtain ⟨stop, up₂⟩ := run
      cases stop with
      | ok => exact ih (fun s hs => hall s (by simp [hs])) up₂
      | failed => exact fun h => by cases h
      | stuck => exact absurd rfl hstep
  have hret : ∀ ret : Int, StepEnd.ofRet ret ≠ .stuck := by
    intro ret
    unfold StepEnd.ofRet
    split <;> decide
  refine hlate _ (fun step hstep up₁ => ?_) up'
  simp only [otaUpdaterSteps, List.drop_succ_cons, List.drop_zero, List.mem_cons,
    List.not_mem_nil, or_false] at hstep
  rcases hstep with rfl | rfl | rfl | rfl | rfl | rfl | rfl
  · exact hret _
  · exact hret _
  · exact hret _
  · exact hret _
  · exact hret _
  · exact hret _
  · simp only [runStep, rebootStep]
    split
    · split
      · exact hret _
      · decide
    · decide

/-- The steps of a downloaded package, from the download on. -/
theorem runSteps_of_downloads (hd : Downloads env parseMetaData fuel up) : ∃ up',
    handleCalls env parseMetaData fuel (up.connecting env) (env.download fuel).2.calls =
        (true, up') ∧
      runSteps env parseMetaData fuel otaUpdaterSteps up =
        runSteps env parseMetaData fuel (otaUpdaterSteps.drop 7) up' := by
  obtain ⟨up', hpass⟩ := downloads_iff_passes.mp hd
  exact ⟨up', (passes_setUp.mp hpass).2, runSteps_of_passes (show passes env parseMetaData fuel
    ((otaUpdaterSteps.take 7).map Prod.fst) up = some up' from hpass)⟩

/-- What a downloaded package leaves in the log is faithful. -/
theorem faithful_of_downloads (hd : Downloads env parseMetaData fuel up) :
    ∃ new, Adds (fun _ => True) up.world (otaUpdater env parseMetaData fuel up).2.world new ∧
      Faithful new := by
  obtain ⟨tail, htail⟩ := otaUpdater_adds env parseMetaData fuel up
  obtain ⟨up', -, hrun⟩ := runSteps_of_downloads hd
  obtain ⟨new, hadds, hfaithful⟩ := runSteps_adds_snd env parseMetaData fuel otaUpdaterSteps up
  refine ⟨new ++ tail, (hadds.mono fun _ _ => trivial).trans (htail.mono fun _ _ => trivial),
    (hfaithful (by rw [hrun]; exact runSteps_late_not_stuck up')).append
      (.of_neutral fun e he => ?_)⟩
  have hnotified := htail.all e he
  cases e with
  | notify event ret => exact id
  | _ => exact hnotified.elim

/-- **Inflate returns what the blocks of the download make it return**, if no answer of the
    surroundings is a failure. This is where the two descriptions of the codes meet: the log of the
    update, and the decoder run on the blocks. -/
theorem inflateCodes_of_downloads (hlog : up.world.log = [])
    (hd : Downloads env parseMetaData fuel up) (hcalm : up.world.Calm) :
    inflateCodes (otaUpdater env parseMetaData fuel up).2.world.log = up.codes env fuel := by
  obtain ⟨tail, htail⟩ := otaUpdater_adds env parseMetaData fuel up
  obtain ⟨up', hcalls, hrun⟩ := runSteps_of_downloads hd
  have hquiet : inflateCodes tail = [] := by
    refine List.eq_nil_iff_forall_not_mem.mpr fun ret hret => ?_
    exact htail.all _ (mem_inflateCodes.mp hret)
  have hlate : inflateCodes (runSteps env parseMetaData fuel (otaUpdaterSteps.drop 7)
      up').2.world.log = inflateCodes up'.world.log :=
    runSteps_codes (by decide) up'
  have hconnecting : (up.connecting env).world.Calm := ⟨hcalm.mallocs, hcalm.rets⟩
  have hnone : inflateCodes (up.connecting env).world.log = [] := by
    rw [OtaUpdater.connecting, hlog]
    rfl
  rw [htail.log, inflateCodes_append, hquiet, List.append_nil, hrun, hlate,
    (handleCalls_codes hconnecting hcalls).log, hnone, List.nil_append]
  rfl

/-- **When an update is fail-stop**: exactly when it fails up to the download, or nothing fails in
    the download. Both conditions are on what comes in; that the second is needed is because the
    updater goes on to the image whatever has become of the blocks. -/
theorem failStop_iff (hlog : up.world.log = []) (hasked : Asked env parseMetaData fuel up) :
    FailStop (otaUpdater env parseMetaData fuel up).2.world.log ↔
      (¬Downloads env parseMetaData fuel up ∨ CleanDownload env fuel up) := by
  by_cases hd : Downloads env parseMetaData fuel up
  · obtain ⟨new, hadds, hfaithful⟩ := faithful_of_downloads hd
    have hnew : (otaUpdater env parseMetaData fuel up).2.world.log = new := by
      rw [hadds.log, hlog, List.nil_append]
    have hrefused := hadds.refused
    have hfailed := hadds.failed
    rw [hasked.mallocs] at hrefused
    rw [hasked.rets] at hfailed
    have hend : .step .dataEnd ∈ (otaUpdater env parseMetaData fuel up).2.world.log :=
      (step_mem_iff_passes (k := 7) rfl (by decide) hlog).mpr (downloads_iff_passes.mp hd)
    rw [or_iff_right (not_not_intro hd)]
    constructor
    · intro hstop
      obtain ⟨haccepted, hallocs, hstreamEnd⟩ := hstop (.inl hend)
      have hfine : ∀ e ∈ new, ¬e.CallFailed := hfaithful.mp (hnew ▸ haccepted)
      have hcalm : up.world.Calm := by
        constructor
        · intro ok hok
          cases ok with
          | true => rfl
          | false =>
            rcases hrefused.mp hok with hnil | ⟨e, he, hfail⟩
            · cases hnil
            · cases e with
              | malloc what ok => exact absurd (hfail ▸ hnew ▸ he) (hallocs what)
              | _ => exact hfail.elim
        · intro ret hret
          by_contra hne
          rcases hfailed.mp ⟨ret, hret, hne⟩ with ⟨_, hnil, -⟩ | ⟨e, he, hfail⟩
          · cases hnil
          · exact hfine e he hfail.callFailed
      have hcodes := inflateCodes_of_downloads hlog hd hcalm
      refine ⟨hcalm, fun code hcode => ?_, ?_⟩
      · rw [← hcodes, mem_inflateCodes, hnew] at hcode
        exact hfine _ hcode
      · rw [← hcodes, mem_inflateCodes]
        exact hstreamEnd
    · intro hclean _
      have hcodes := inflateCodes_of_downloads hlog hd hclean.calm
      have hgranted : ∀ e ∈ new, ¬e.AllocFailed := fun e he hfail =>
        absurd (hclean.calm.mallocs false (hrefused.mpr (.inr ⟨e, he, hfail⟩))) (by decide)
      have hfine : ∀ e ∈ new, ¬e.CallFailed := by
        intro e he hfail
        rcases hfail.cases with ⟨code, rfl, hcode⟩ | hcallback
        · refine hclean.inflates code ?_ hcode
          rw [← hcodes, mem_inflateCodes, hnew]
          exact he
        · obtain ⟨ret, hret, hne⟩ := hfailed.mpr (.inr ⟨e, he, hcallback⟩)
          exact hne (hclean.calm.rets ret hret)
      refine ⟨fun ret hret => hfaithful.mpr hfine ret (hnew ▸ hret), fun what hmem => ?_, ?_⟩
      · exact hgranted (.malloc what false) (hnew ▸ hmem) (Eq.refl false)
      · rw [← mem_inflateCodes, hcodes]
        exact hclean.ends
  · refine iff_of_true (fun hlate => absurd ?_ hd) (.inl hd)
    rw [downloads_iff_passes]
    rcases hlate with h | h | h | h
    · exact come_to (k := 7) rfl (by decide) (by decide) hlog h
    · exact come_to (k := 10) rfl (by decide) (by decide) hlog h
    · exact come_to (k := 12) rfl (by decide) (by decide) hlog h
    · exact come_to (k := 13) rfl (by decide) (by decide) hlog h

end Install

/-! ## A package that is no package -/

/-- A server that sends `body`. -/
def sampleServer (body : List UInt8) : Http.Conn :=
  ⟨some (ascii "h", ascii "/"), 0, [1, 1], fun _ =>
    ⟨⟨ascii "HTTP/1.1 200 OK\r\nContent-Length: " ++ ascii (toString body.length) ++
      ascii "\r\n\r\n" ++ body, List.replicate 8 (.ok 512)⟩, false⟩⟩

def sampleClient (body : List UInt8) : Http.HttpClient where
  customHeaders := []
  httpResponseCode := 0
  dataHdlrCb := true
  httpContentLen := 0
  httpContentType := []
  location := none
  isChunked := false
  chunkSize := 0
  recvSize := 0
  resumeRetryCount := 0
  buf := []
  dataPos := .first
  sock := ⟨⟨[], []⟩, false⟩
  sends := []
  sent := []
  conns := [sampleServer body]
  mallocs := []
  stops := []
  stopped := false
  calls := []

/-- Surroundings in which nothing fails. -/
def sampleEnv (body : List UInt8) : UpdateEnv where
  unpackerCreated := true
  initUpdater := some 0
  setsUpdater := true
  setsPrivateData := true
  dataBegin := ⟨0, 0, 0⟩
  dataEnd := ⟨0, 0, 0⟩
  updateImgBegin := ⟨0, 0, 0⟩
  updateImg := ⟨0, 0, 0⟩
  updateImgEnd := ⟨0, 0, 0⟩
  getDownloaderLock := 0
  getDownloaderUnlock := 0
  initLock := 0
  httpClient := true
  httpPrivateData := true
  initUnlock := 0
  registerLock := 0
  registerUnlock := 0
  urlLen := 10
  connectLock := 0
  connectUnlock := 0
  client := sampleClient body
  notifier := fun _ => 0
  reboot := some 0
  rebootEnabled := true
  tenths := fun _ => 0
  destroyLock := 0
  destroyUnlock := 0
  unregisterLock := 0
  unregisterUnlock := 0
  downloaderMutex := 0
  uninitMutex := 0

/-- An updater as `duer_ota_create_updater` leaves it, after `duer_init_ota`. -/
def sampleUpdater : OtaUpdater (storedInflate (sampleStream 0) 85) where
  unpacker := .create
  downloader := false
  httpData := false
  receivedDataSize := 0
  count := 1
  belows := []
  progressReports := []
  world := ⟨[], [], []⟩
  globals := ⟨.live, true, .live⟩

/-- The update of a package, with no failure around it. -/
def sampleUpdate (body : List UInt8) : List Event :=
  (otaUpdater (sampleEnv body) sampleParseMetaData 50 sampleUpdater).2.world.log

/-- The sample package is installed, although its signature is all zeros and nobody has
    verified it. -/
theorem installed_unverified : ¬SignatureGate (sampleUpdate (samplePackage 0)) :=
  not_signatureGate_of_mem rfl (by decide +kernel)

theorem signatureGate_sample :
    SignatureGate (sampleUpdate (samplePackage 0)) ↔
      ¬Completes (sampleEnv (samplePackage 0)) sampleParseMetaData 50
        sampleUpdater :=
  signatureGate_iff rfl

/-- A header and two octets that are no zlib header. -/
def invalidPackage : List UInt8 := List.replicate 282 0

/-- inflate refuses the package, and it is installed. -/
theorem installed_invalid : ¬FailStop (sampleUpdate invalidPackage) := by
  intro hstop
  have hend : .step .dataEnd ∈ sampleUpdate invalidPackage := by decide +kernel
  have hrefused : .decompressed duerErrFailed ∈ sampleUpdate invalidPackage := by decide +kernel
  exact absurd ((hstop (.inl hend)).1 _ hrefused) (by decide)

theorem failStop_sample :
    FailStop (sampleUpdate (samplePackage 0)) ↔
      (¬Downloads (sampleEnv (samplePackage 0)) sampleParseMetaData 50 sampleUpdater ∨
        CleanDownload (sampleEnv (samplePackage 0)) 50 sampleUpdater) :=
  failStop_iff rfl ⟨by decide +kernel, by decide +kernel⟩

end Ota
end LightDuer
