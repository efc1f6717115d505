import LightDuer.Http.Client
import LightDuer.Ota.Unpack

/-!
# The OTA updater

`lightduer_ota_updater.c`, with the HTTP downloader under it: `ota_updater` runs a fixed sequence of
steps, each of which ends it when it fails. The step in the middle downloads the package; the blocks
the HTTP client receives go to `handler`, which feeds them to the unpacker.

The HTTP client does not use what `handler` returns, so the calls of a download are those of
`duerHttpClientGet`, and `handler` is run on them one after the other. What the surroundings answer
in one update is `UpdateEnv`; the global variables are `OtaGlobals`.

## Surroundings

Most of the steps lock a mutex, run a callback of the platform and unlock it. What these return is
given beforehand, as a `Guarded` for each callback, and nothing in the code can tell that from
answers that are made up on the way. The allocations and the results of callbacks on data, of which
there may be any number, are in the `World` of the unpacker, which also has the log.

A pointer to a mutex or a handler is a `Handle`: it is `NULL`, or to a live object, or to one that
was destroyed. A step that uses a destroyed one has no result (`StepEnd.stuck`), like one whose call
does not return.

## The steps

`otaUpdaterSteps` lists the calls of `ota_updater` in their order, with the event that is notified
when the call fails, and `runStep` makes one of them. The list is data, so that a statement about
all steps, or about those in front of one, is one about lists. Each step is recorded before it is
run. At the end the updater is destroyed, the downloader with it, and the handler with the pointer
to it kept.
-/

set_option autoImplicit false

namespace LightDuer
namespace Ota

open Lib

/-! ## Surroundings -/

/-- A callback that is run under a mutex: what lock, callback and unlock return. -/
structure Guarded where
  lock : Int
  call : Int
  unlock : Int
deriving DecidableEq, Repr

/-- A pointer to an object that may have been freed. -/
inductive Handle where
  | null | live | freed
deriving DecidableEq, Repr

/-- The global variables of the OTA modules. -/
structure OtaGlobals where
  /-- `s_ota_updater_handler` -/
  updaterHandler : Handle
  /-- `s_ota_downloader[HTTP]` is registered -/
  downloader : Bool
  /-- `s_ota_downloader_lock` -/
  downloaderLock : Handle
deriving DecidableEq, Repr

/-- What the surroundings answer in one update. -/
structure UpdateEnv where
  /-- the allocations of `duer_ota_unpack_create_unpacker` succeed -/
  unpackerCreated : Bool
  /-- `init_updater`, where there is one -/
  initUpdater : Option Int
  /-- it has registered an updater -/
  setsUpdater : Bool
  /-- it has set the private data -/
  setsPrivateData : Bool
  dataBegin : Guarded
  dataEnd : Guarded
  updateImgBegin : Guarded
  updateImg : Guarded
  updateImgEnd : Guarded
  /-- `s_ota_downloader_lock` in `duer_ota_downloader_get_downloader` -/
  getDownloaderLock : Int
  getDownloaderUnlock : Int
  /-- the lock of the downloader, and the allocations of `init_http_downloader` -/
  initLock : Int
  httpClient : Bool
  httpPrivateData : Bool
  initUnlock : Int
  registerLock : Int
  registerUnlock : Int
  /-- `strlen(url)` -/
  urlLen : Nat
  connectLock : Int
  connectUnlock : Int
  /-- the HTTP client, with the network to come -/
  client : Http.HttpClient
  /-- `duer_ota_notifier_event`, for an event that may not have been set -/
  notifier : Option OtaEvent → Int
  /-- `reboot`, where there is one -/
  reboot : Option Int
  /-- `s_ota_reboot == ENABLE_REBOOT` -/
  rebootEnabled : Bool
  /-- `(int)(progress * 10) % 10`, for the octets received -/
  tenths : Nat → Int
  /-- the lock of the downloader in `duer_ota_downloader_destroy_downloader` -/
  destroyLock : Int
  destroyUnlock : Int
  /-- `s_ota_downloader_lock` in `duer_ota_downloader_unregister_downloader` -/
  unregisterLock : Int
  unregisterUnlock : Int
  /-- `duer_mutex_destroy` of the downloader's lock -/
  downloaderMutex : Int
  /-- `duer_mutex_destroy` in `duer_uninit_ota_downloader` -/
  uninitMutex : Int

/-- `OTAUpdater`, with its surroundings. -/
structure OtaUpdater (inf : Decoder UInt8 UInt8) where
  unpacker : OtaUnpacker inf
  /-- `downloader` is set -/
  downloader : Bool
  /-- the downloader has its private data -/
  httpData : Bool
  receivedDataSize : Nat
  /-- `count` in `handler` -/
  count : Int
  /-- what is in memory in front of the next copies of blocks -/
  belows : List (List UInt8)
  /-- results of the next progress notifications; 0 where none is left -/
  progressReports : List Int
  world : World
  globals : OtaGlobals

/-- How a step ends: with success, with an error, or not at all. -/
inductive StepEnd where
  | ok | failed | stuck
deriving DecidableEq, Repr

def StepEnd.ofRet (ret : Int) : StepEnd := if ret = duerOk then .ok else .failed

section Updater

variable {inf : Decoder UInt8 UInt8}

def OtaUpdater.record (up : OtaUpdater inf) (e : Event) : OtaUpdater inf :=
  { up with world := up.world.record e }

/-! ## The unpacker's callbacks -/

/-- The callbacks of the unpacker other than those on data are run alike, under its lock. -/
def duerOtaUnpackOp (op : Guarded) (u : OtaUnpacker inf) : Int :=
  if u.updater = false then duerErrInvalidParameter
  else if op.lock ≠ duerOk then duerErrFailed
  else if op.unlock ≠ duerOk then duerErrFailed
  else op.call

variable (env : UpdateEnv)

/-- `duer_ota_unpack_decompress_data_begin` -/
def duerOtaUnpackDecompressDataBegin (u : OtaUnpacker inf) : Int :=
  duerOtaUnpackOp env.dataBegin u

/-- `duer_ota_unpack_decompress_data_end` -/
def duerOtaUnpackDecompressDataEnd (u : OtaUnpacker inf) : Int :=
  duerOtaUnpackOp env.dataEnd u

/-- `duer_ota_unpack_update_image_begin` -/
def duerOtaUnpackUpdateImageBegin (u : OtaUnpacker inf) : Int :=
  duerOtaUnpackOp env.updateImgBegin u

/-- `duer_ota_unpack_update_image` -/
def duerOtaUnpackUpdateImage (u : OtaUnpacker inf) : Int :=
  duerOtaUnpackOp env.updateImg u

/-- `duer_ota_unpack_update_image_end` -/
def duerOtaUnpackUpdateImageEnd (u : OtaUnpacker inf) : Int :=
  duerOtaUnpackOp env.updateImgEnd u

/-! ## The data handler -/

variable (parseMetaData : List UInt8 → Bool → Option PackageMetaData) (fuel : Nat)

/-- The progress notification of `handler`, after a block of `len` octets. Its result is the
    one of `handler` when it is sent. -/
def reportProgress (up : OtaUpdater inf) (ret : Int) (len : Nat) : Int × OtaUpdater inf :=
  let up := { up with receivedDataSize := u32 (up.receivedDataSize + len) }
  if up.count ≤ env.tenths up.receivedDataSize then
    let ret := up.progressReports.headD 0
    (ret, { up with
      count := up.count + 1
      progressReports := up.progressReports.tail
      world := up.world.record (.notify (some .downloading) ret) })
  else (ret, up)

/-- `handler` -/
def handler (up : OtaUpdater inf) (buf : List UInt8) : Result × OtaUpdater inf :=
  if buf ≠ [] then
    match up.world.malloc .block with
    | (false, world) => (.ret duerErrFailed, { up with world })
    | (true, world) =>
      match duerOtaUnpackDecompressData parseMetaData fuel up.unpacker world
          (up.belows.headD []) buf with
      | (.ret ret, unpacker, world) =>
        match reportProgress env { up with unpacker, world, belows := up.belows.tail } ret
            buf.length with
        | (ret, up) => (.ret ret, up)
      | (res, unpacker, world) => (res, { up with unpacker, world })
  else (.ret duerOk, up)

/-- `handler` on the calls of a download, up to one that does not return. -/
def handleCalls : OtaUpdater inf → List Http.HandlerCall → Bool × OtaUpdater inf
  | up, [] => (true, up)
  | up, call :: rest =>
      match handler env parseMetaData fuel up call.block with
      | (.ret _, up) => handleCalls up rest
      | (_, up) => (false, up)

/-! ## The downloader -/

/-- The HTTP client once `register_data_notify` has been run. -/
def UpdateEnv.download (env : UpdateEnv) : Http.Outcome × Http.HttpClient :=
  Http.duerHttpClientGet fuel { env.client with dataHdlrCb := true, calls := [] } 0

/-- `connect_http_server` -/
def connectHttpServer (up : OtaUpdater inf) : StepEnd × OtaUpdater inf :=
  match env.download fuel with
  | (out, client) =>
    match handleCalls env parseMetaData fuel up client.calls with
    | (true, up) =>
      match out with
      | .done res => (if res = .ok then .ok else .failed, up)
      | _ => (.stuck, up)
    | (false, up) => (.stuck, up)

/-- `URL_LEN` -/
def urlLenMax : Nat := 301

/-- `duer_ota_downloader_get_downloader` -/
def duerOtaDownloaderGetDownloader (up : OtaUpdater inf) : StepEnd × OtaUpdater inf :=
  if up.globals.downloader = false then (.failed, up)
  else
    match up.globals.downloaderLock with
    | .freed => (.stuck, up)
    | .null => (.failed, up)
    | .live =>
      if env.getDownloaderLock ≠ duerOk ∨ env.getDownloaderUnlock ≠ duerOk then (.failed, up)
      else (.ok, { up with downloader := true })

/-- `duer_ota_downloader_init_downloader`, with `init_http_downloader` -/
def duerOtaDownloaderInitDownloader (up : OtaUpdater inf) : StepEnd × OtaUpdater inf :=
  if env.initLock ≠ duerOk then (.failed, up)
  else
    let made := env.httpClient && env.httpPrivateData
    let up := { up with httpData := made }
    if made = false ∨ env.initUnlock ≠ duerOk then (.failed, up) else (.ok, up)

/-- `duer_ota_downloader_register_data_notify`, with `register_data_notify` -/
def duerOtaDownloaderRegisterDataNotify : StepEnd :=
  if env.registerLock ≠ duerOk ∨ env.registerUnlock ≠ duerOk then .failed else .ok

/-- `duer_ota_downloader_connect_server` -/
def duerOtaDownloaderConnectServer (up : OtaUpdater inf) : StepEnd × OtaUpdater inf :=
  if urlLenMax ≤ env.urlLen then (.failed, up)
  else if env.connectLock ≠ duerOk then (.failed, up)
  else
    match connectHttpServer env parseMetaData fuel up with
    | (.stuck, up) => (.stuck, up)
    | (res, up) => (if env.connectUnlock ≠ duerOk then .failed else res, up)

/-! ## The update -/

/-- `duer_ota_notifier_event` -/
def duerOtaNotifierEvent (up : OtaUpdater inf) (event : Option OtaEvent) :
    Int × OtaUpdater inf :=
  (env.notifier event, up.record (.notify event (env.notifier event)))

/-- A step that is a notification. -/
def notifyStep (up : OtaUpdater inf) (event : OtaEvent) : StepEnd × OtaUpdater inf :=
  match duerOtaNotifierEvent env up (some event) with
  | (ret, up) => (.ofRet ret, up)

/-- The reboot: without one, or with the switch off, the update goes on. -/
def rebootStep : StepEnd :=
  match env.reboot with
  | some ret => if env.rebootEnabled then .ofRet ret else .ok
  | none => .ok

/-- The call a step of `ota_updater` makes. -/
def runStep (s : Step) (up : OtaUpdater inf) : StepEnd × OtaUpdater inf :=
  match s with
  | .createUnpacker =>
      if env.unpackerCreated then (.ok, { up with unpacker := .create }) else (.failed, up)
  | .initUpdater =>
      match env.initUpdater with
      | some ret => (.ofRet ret, { up with unpacker :=
          { up.unpacker with updater := env.setsUpdater, privateData := env.setsPrivateData } })
      | none => (.failed, up)
  | .dataBegin => (.ofRet (duerOtaUnpackDecompressDataBegin env up.unpacker), up)
  | .getDownloader => duerOtaDownloaderGetDownloader env up
  | .initDownloader => duerOtaDownloaderInitDownloader env up
  | .registerDataNotify => (duerOtaDownloaderRegisterDataNotify env, up)
  | .connectServer => duerOtaDownloaderConnectServer env parseMetaData fuel up
  | .dataEnd => (.ofRet (duerOtaUnpackDecompressDataEnd env up.unpacker), up)
  | .downloadComplete => notifyStep env up .downloadComplete
  | .updateImageBegin => (.ofRet (duerOtaUnpackUpdateImageBegin env up.unpacker), up)
  | .updateImage => (.ofRet (duerOtaUnpackUpdateImage env up.unpacker), up)
  | .updateImageEnd => (.ofRet (duerOtaUnpackUpdateImageEnd env up.unpacker), up)
  | .installed => notifyStep env up .installed
  | .reboot => (rebootStep env, up)

/-- The steps of `ota_updater`, each with the event that is notified when it fails, where one
    has been set. -/
def otaUpdaterSteps : List (Step × Option OtaEvent) :=
  [(.createUnpacker, some .reject), (.initUpdater, some .reject), (.dataBegin, some .reject),
    (.getDownloader, some .reject), (.initDownloader, some .reject),
    (.registerDataNotify, some .reject), (.connectServer, some .connectFail),
    (.dataEnd, some .reject), (.downloadComplete, none), (.updateImageBegin, some .writeError),
    (.updateImage, some .writeError), (.updateImageEnd, some .writeError), (.installed, none),
    (.reboot, none)]

/-- How the steps end. -/
inductive UpdateEnd where
  | completed
  | failed (event : Option OtaEvent)
  | stuck
deriving DecidableEq, Repr

/-- The steps one after the other, up to one that fails. -/
def runSteps : List (Step × Option OtaEvent) → OtaUpdater inf → UpdateEnd × OtaUpdater inf
  | [], up => (.completed, up)
  | (s, event) :: rest, up =>
      match runStep env parseMetaData fuel s (up.record (.step s)) with
      | (.ok, up) => runSteps rest up
      | (.failed, up) => (.failed event, up)
      | (.stuck, up) => (.stuck, up)

/-! ## The end of an update -/

/-- `duer_ota_downloader_unregister_downloader`, its result and the globals. -/
def duerOtaDownloaderUnregisterDownloader (g : OtaGlobals) : Option Int × OtaGlobals :=
  match g.downloaderLock with
  | .freed => (none, g)
  | .null => (some duerErrFailed, g)
  | .live =>
    if env.unregisterLock ≠ duerOk then (some env.unregisterLock, g)
    else (some env.unregisterUnlock, { g with downloader := false })

/-- `duer_ota_downloader_destroy_downloader`, with `destroy_http_downloader`, which reads the
    private data without a check. -/
def duerOtaDownloaderDestroyDownloader (up : OtaUpdater inf) : Option Int × OtaGlobals :=
  if env.destroyLock ≠ duerOk then (some env.destroyLock, up.globals)
  else if up.httpData = false then (none, up.globals)
  else if env.destroyUnlock ≠ duerOk then (some env.destroyUnlock, up.globals)
  else
    match duerOtaDownloaderUnregisterDownloader env up.globals with
    | (some ret, g) => (some (if ret ≠ duerOk then ret else env.downloaderMutex), g)
    | (none, g) => (none, g)

/-- `duer_uninit_ota_downloader`: the lock is destroyed, its pointer is kept. -/
def duerUninitOtaDownloader (g : OtaGlobals) : OtaGlobals :=
  match g.downloaderLock with
  | .live => if env.uninitMutex = duerOk then { g with downloaderLock := .freed } else g
  | _ => g

/-- `duer_ota_destroy_updater`, as far as it changes the globals; `none` when it does not
    return. -/
def duerOtaDestroyUpdater (up : OtaUpdater inf) : Option OtaGlobals :=
  if up.downloader then
    match duerOtaDownloaderDestroyDownloader env up with
    | (none, _) => none
    | (some ret, g) => some (if ret ≠ duerOk then g else duerUninitOtaDownloader env g)
  else some up.globals

/-- `duer_events_destroy(s_ota_updater_handler)`: the pointer is kept. -/
def OtaGlobals.destroyHandler (g : OtaGlobals) : OtaGlobals :=
  { g with updaterHandler :=
      match g.updaterHandler with
      | .null => .null
      | _ => .freed }

/-- `ota_updater`, with `false` when it does not return. A failed step is notified; what
    `notify_package_info` reports after the last step is not used. -/
def otaUpdater (up : OtaUpdater inf) : Bool × OtaUpdater inf :=
  let finish (up : OtaUpdater inf) : Bool × OtaUpdater inf :=
    match duerOtaDestroyUpdater env up with
    | some g => (true, { up with globals := g.destroyHandler })
    | none => (false, up)
  match runSteps env parseMetaData fuel otaUpdaterSteps up with
  | (.completed, up) => finish up
  | (.failed event, up) => finish (duerOtaNotifierEvent env up event).2
  | (.stuck, up) => (false, up)

end Updater

end Ota
end LightDuer
