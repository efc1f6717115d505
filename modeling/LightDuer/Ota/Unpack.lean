import LightDuer.Lib.Bytes
import LightDuer.Lib.Decoder

/-!
# The OTA unpacker

`lightduer_ota_unpack.c`, `verification.c` and `decompress.c`: a package is a header of 280
octets and a compressed part. Every block that arrives goes to two splitters, one that keeps
the header and hashes the rest, and one that skips the header and inflates the rest. What is
inflated is first the meta data and then the data of the modules.

## What stands for what

* **The hash context** is the list of the octets hashed, and `meta_data` the list of the octets
  stored in it (`meta_stored_size` is its length).
* **`inflate`** is a `Decoder`: a state and a run, of which nothing is assumed here. Which octets it
  takes and gives is a hypothesis of the theorems that need it (`Decoder.Streams`).
* **`parse_meta_data`** is a parameter, too. It is told whether its allocations are granted, and
  where it follows a `NULL` it has no result. `MetaRuns` runs the decompressor with the parser of
  `MetaData`, which is the source's.
* **Memory and callbacks** are lists of answers to come (`World`), and everything the unpacker does
  is recorded in `World.log`.
-/

set_option autoImplicit false

namespace LightDuer
namespace Ota

open Lib

/-! ## Data -/

/-- `struct module_info` -/
structure ModuleInfo where
  moduleName : List UInt8
  moduleSize : Nat
  moduleVersion : List UInt8
deriving DecidableEq

/-- `struct package_meta_data`: the name and the module list. -/
structure PackageMetaData where
  packageName : List UInt8
  moduleList : List ModuleInfo
deriving DecidableEq

/-- What memory is asked for while a block is handled. -/
inductive Alloc where
  /-- the copy of the block in `handler` -/
  | block
  /-- `meta_data` -/
  | metaData
  /-- the allocations of `parse_meta_data`, taken together -/
  | json
deriving DecidableEq, Repr

/-- The steps of `ota_updater` that can fail. -/
inductive Step where
  | createUnpacker | initUpdater | dataBegin | getDownloader | initDownloader
  | registerDataNotify | connectServer | dataEnd | downloadComplete
  | updateImageBegin | updateImage | updateImageEnd | installed | reboot
deriving DecidableEq, Repr

/-- `OTAEvent` -/
inductive OtaEvent where
  | begin | connectFail | connectionLost | timeout | downloading | downloadComplete
  | downloadFail | installing | imageInvalid | writeError | installed | deleted | reject
deriving DecidableEq, Repr

/-- What happens in an update. -/
inductive Event where
  /-- `ota_updater` comes to a step -/
  | step (s : Step)
  | malloc (what : Alloc) (ok : Bool)
  /-- `duer_ota_unpack_decompress_data` is given a block -/
  | data (block : List UInt8)
  /-- `next_in` and `avail_in` are set for inflate -/
  | window (input : List UInt8)
  | inflate (ret : Int)
  | notifyMetaData (info : PackageMetaData) (ret : Int)
  | notifyModuleData (offset : Nat) (data : List UInt8) (ret : Int)
  /-- `duer_ota_unpack_decompress_data` returns -/
  | decompressed (ret : Int)
  /-- `mbed_verification` of the octets hashed and the signature in the header -/
  | verification (sha1 packageSig : List UInt8) (ret : Int)
  /-- `duer_ota_notifier_event`; the event may not have been set -/
  | notify (event : Option OtaEvent) (ret : Int)
deriving DecidableEq

/-- The surroundings of the unpacker. -/
structure World where
  /-- results of the next allocations; they succeed where none is left -/
  mallocs : List Bool
  /-- results of the next callbacks on data; 0 where none is left -/
  rets : List Int
  log : List Event

namespace World

def record (w : World) (e : Event) : World := { w with log := w.log ++ [e] }

def malloc (w : World) (what : Alloc) : Bool × World :=
  let ok := w.mallocs.headD true
  (ok, { w with mallocs := w.mallocs.tail, log := w.log ++ [.malloc what ok] })

def call (w : World) (callback : Int → Event) : Int × World :=
  let ret := w.rets.headD 0
  (ret, { w with rets := w.rets.tail, log := w.log ++ [callback ret] })

/-- Every answer to come is a success. -/
structure Calm (w : World) : Prop where
  mallocs : ∀ ok ∈ w.mallocs, ok = true
  rets : ∀ ret ∈ w.rets, ret = 0

theorem Calm.call {w : World} (h : w.Calm) (callback : Int → Event) :
    (w.call callback).1 = 0 ∧ (w.call callback).2.Calm := by
  refine ⟨?_, h.mallocs, fun ret hret => h.rets ret (List.mem_of_mem_tail hret)⟩
  show w.rets.headD 0 = 0
  cases hrets : w.rets with
  | nil => rfl
  | cons ret rest => exact h.rets ret (by simp [hrets])

theorem Calm.malloc {w : World} (h : w.Calm) (what : Alloc) :
    (w.malloc what).1 = true ∧ (w.malloc what).2.Calm := by
  refine ⟨?_, fun ok hok => h.mallocs ok (List.mem_of_mem_tail hok), h.rets⟩
  show w.mallocs.headD true = true
  cases hmallocs : w.mallocs with
  | nil => rfl
  | cons ok rest => exact h.mallocs ok (by simp [hmallocs])

theorem Calm.record {w : World} (h : w.Calm) (e : Event) : (w.record e).Calm :=
  ⟨h.mallocs, h.rets⟩

end World

/-- How a call ends. -/
inductive Result where
  | ret (code : Int)
  /-- still in a loop -/
  | running
  /-- an access outside a buffer or through a null pointer -/
  | fault
deriving DecidableEq, Repr

def duerOk : Int := 0
def duerErrFailed : Int := -1
def duerErrInvalidParameter : Int := -16
def duerErrMemoryOverlow : Int := -17

/-! ## The header and the hash -/

/-- `sizeof(package_header_t)` -/
def pckHeaderSz : Nat := 280
/-- the offset of `package_sig` in the header -/
def packageSigOffset : Nat := 12
/-- the offset of `meta_size` in the header -/
def metaSizeOffset : Nat := 272
def keyLen : Nat := 128

/-- `verification_context_t` -/
structure VerificationContext where
  streamRecievedSz : Nat
  streamProcessedSz : Nat
  streamSigStoredSz : Nat
  pckHeaderSigPart : Buffer pckHeaderSz
  /-- the octets hashed so far -/
  sha1 : List UInt8

/-- `mbed_hash_init`, the allocations apart. -/
def mbedHashInit : VerificationContext := ⟨0, 0, 0, .fill pckHeaderSz 0, []⟩

/-- `mbedtls_sha1_update` and the count after it. -/
def VerificationContext.sha1Update (ctx : VerificationContext) (buffer : List UInt8) :
    VerificationContext :=
  { ctx with
    sha1 := ctx.sha1 ++ buffer
    streamProcessedSz := u32 (ctx.streamProcessedSz + buffer.length) }

/-- `mbed_hash_update_key`; `none` is a copy outside the header or the block. -/
def mbedHashUpdateKey (ctx : VerificationContext) (buffer : List UInt8) :
    Option VerificationContext :=
  let ctx := { ctx with streamRecievedSz := u32 (ctx.streamRecievedSz + buffer.length) }
  if ctx.streamSigStoredSz < pckHeaderSz then
    if ctx.streamRecievedSz ≤ pckHeaderSz then do
      let header ← ctx.pckHeaderSigPart.store ctx.streamSigStoredSz buffer
      return { ctx with
        pckHeaderSigPart := header
        streamSigStoredSz := u32 (ctx.streamSigStoredSz + buffer.length) }
    else
      let missing := pckHeaderSz - ctx.streamSigStoredSz
      if buffer.length < missing then none
      else do
        let header ← ctx.pckHeaderSigPart.store ctx.streamSigStoredSz (buffer.take missing)
        return ({ ctx with
          pckHeaderSigPart := header, streamSigStoredSz := pckHeaderSz } :
          VerificationContext).sha1Update (buffer.drop missing)
  else some (ctx.sha1Update buffer)

/-- `package_sig` of the header. -/
def VerificationContext.packageSig (ctx : VerificationContext) : List UInt8 :=
  (ctx.pckHeaderSigPart.bytes.drop packageSigOffset).take keyLen

/-- `meta_size` of the header. -/
def VerificationContext.metaSize (ctx : VerificationContext) : Nat :=
  ofLe32 (ctx.pckHeaderSigPart.bytes.drop metaSizeOffset)

/-- `mbed_verification`: `rsaInit` says whether the key can be read, `pkcs1Verify` checks a
    signature of the SHA-1 digest of some octets. -/
def mbedVerification (rsaInit : Bool) (pkcs1Verify : List UInt8 → List UInt8 → Int)
    (ctx : VerificationContext) (w : World) : Int × World :=
  let ret := if rsaInit ∧ pkcs1Verify ctx.sha1 ctx.packageSig = 0 then 0 else -1
  (ret, w.record (.verification ctx.sha1 ctx.packageSig ret))

/-! ## The decompressor -/

/-- `CHUNK` -/
def chunk : Nat := 128

def zStreamEnd : Int := 1
def zNeedDict : Int := 2
def zStreamError : Int := -2
def zDataError : Int := -3
def zMemError : Int := -4

/-- The codes of inflate that the decompressor takes as errors. -/
def InflateFailed (ret : Int) : Prop := ret = zNeedDict ∨ ret = zDataError ∨ ret = zMemError

instance : DecidablePred InflateFailed :=
  fun ret => inferInstanceAs (Decidable (ret = _ ∨ ret = _ ∨ ret = _))

/-- `decompress_context_t` -/
structure DecompressContext (inf : Decoder UInt8 UInt8) where
  streamRecievedSz : Nat
  streamProcessedSz : Nat
  metaSize : Nat
  metaData : List UInt8
  writeOffset : Nat
  /-- the state of inflate, until `inflateEnd` -/
  strm : Option inf.State

section Decompress

variable {inf : Decoder UInt8 UInt8}

/-- `mbed_zlibstream_decompress_init`, the allocations apart. -/
def mbedZlibstreamDecompressInit : DecompressContext inf := ⟨0, 0, 0, [], 0, some inf.init⟩

/-- What is inflated of a block. A block is shortened by what the header still takes of it, as
    long as nothing has been processed; `below` is the memory in front of the block, which the
    pointer falls into when more has been received than the header and the block. -/
def inflateWindow (ctx : DecompressContext inf) (below buffer : List UInt8) :
    Option (List UInt8) :=
  if ctx.streamProcessedSz = 0 then
    let size := ctx.streamRecievedSz - pckHeaderSz
    if size ≤ buffer.length then some (buffer.drop (buffer.length - size))
    else if size - buffer.length ≤ below.length then
      some (below.drop (below.length - (size - buffer.length)) ++ buffer)
    else none
  else some buffer

/-- Take `meta_size` from the header, if it has not been taken. When the memory for the meta
    data is refused, it is tried again with the next block. -/
def takeMetaSize (verify : VerificationContext) (ctx : DecompressContext inf) (w : World) :
    DecompressContext inf × World :=
  if ctx.metaSize = 0 ∧ 0 < verify.metaSize then
    match w.malloc .metaData with
    | (true, w) => ({ ctx with metaSize := verify.metaSize, metaData := [] }, w)
    | (false, w) => (ctx, w)
  else (ctx, w)

/-- `inflate`: its code, the input left and the output. -/
def inflate (ctx : DecompressContext inf) (w : World) (nextIn : List UInt8) :
    Int × List UInt8 × List UInt8 × DecompressContext inf × World :=
  match ctx.strm with
  | none => (zStreamError, nextIn, [], ctx, w.record (.inflate zStreamError))
  | some st =>
    let r := inf.run st nextIn chunk
    (r.ret, r.rest, r.out, { ctx with strm := some r.state }, w.record (.inflate r.ret))

/-- `stream_processed_sz += bufferSZ` -/
def DecompressContext.processed (ctx : DecompressContext inf) (bufferSZ : Nat) :
    DecompressContext inf :=
  { ctx with streamProcessedSz := u32 (ctx.streamProcessedSz + bufferSZ) }

variable (parseMetaData : List UInt8 → Bool → Option PackageMetaData)

/-- What is done with the complete meta data: it is parsed, its first module is read for the log,
    and it is handed to the updater. -/
def handleMetaData (registered : Bool) (metaData : List UInt8) (w : World) :
    Option Result × World :=
  match w.malloc .json with
  | (ok, w) =>
    match parseMetaData metaData ok with
    | none => (some .fault, w)
    | some info =>
      if info.moduleList = [] then (some .fault, w)
      else if registered then
        match w.call (.notifyMetaData info) with
        | (ret, w) => (if ret ≠ 0 then some (.ret ret) else none, w)
      else (none, w)

/-- The meta part of the output, with its size, and what is done once the meta data is complete. -/
def storeMetaData (registered : Bool) (ctx : DecompressContext inf) (w : World)
    (out : List UInt8) : Option Result × Nat × DecompressContext inf × World :=
  if ctx.metaData.length < ctx.metaSize then
    let copyByte := min out.length (ctx.metaSize - ctx.metaData.length)
    let ctx := { ctx with metaData := ctx.metaData ++ out.take copyByte }
    if ctx.metaData.length = ctx.metaSize then
      match handleMetaData parseMetaData registered ctx.metaData w with
      | (res, w) => (res, copyByte, ctx, w)
    else (none, copyByte, ctx, w)
  else (none, 0, ctx, w)

/-- The rest of the output. -/
def giveModuleData (registered : Bool) (ctx : DecompressContext inf) (w : World)
    (data : List UInt8) : Int × DecompressContext inf × World :=
  if data ≠ [] ∧ registered then
    match w.call (.notifyModuleData ctx.writeOffset data) with
    | (ret, w) => (ret, { ctx with writeOffset := u32 (ctx.writeOffset + data.length) }, w)
  else (0, ctx, w)

/-- The loop of `mbed_zlibstream_decompress_process`: until inflate leaves room in the output
    buffer. -/
def inflateLoop (registered : Bool) (bufferSZ : Nat) :
    Nat → DecompressContext inf → World → List UInt8 → Result × DecompressContext inf × World
  | 0, ctx, w, _ => (.running, ctx, w)
  | fuel + 1, ctx, w, nextIn =>
      match inflate ctx w nextIn with
      | (ret, nextIn, out, ctx, w) =>
        if InflateFailed ret then
          (.ret (if ret = zNeedDict then zDataError else ret),
            { ctx with strm := none }.processed bufferSZ, w)
        else
          match storeMetaData parseMetaData registered ctx w out with
          | (some res, _, ctx, w) => (res, ctx, w)
          | (none, copied, ctx, w) =>
            match giveModuleData registered ctx w (out.drop copied) with
            | (ret, ctx, w) =>
              if ret ≠ 0 then (.ret ret, ctx, w)
              else if out.length = chunk then
                inflateLoop registered bufferSZ fuel ctx w nextIn
              else (.ret 0, ctx.processed bufferSZ, w)

/-- `mbed_zlibstream_decompress_process` -/
def mbedZlibstreamDecompressProcess (fuel : Nat) (verify : VerificationContext)
    (registered : Bool) (ctx : DecompressContext inf) (w : World) (below buffer : List UInt8) :
    Result × DecompressContext inf × World :=
  if buffer = [] then (.ret (-7), ctx, w)
  else
    let ctx := { ctx with streamRecievedSz := u32 (ctx.streamRecievedSz + buffer.length) }
    if ctx.streamRecievedSz ≤ pckHeaderSz then (.ret 0, ctx, w)
    else
      match inflateWindow ctx below buffer with
      | none => (.fault, ctx, w)
      | some input =>
        match takeMetaSize verify ctx w with
        | (ctx, w) =>
          inflateLoop parseMetaData registered input.length fuel ctx
            (w.record (.window input)) input

/-! ## The unpacker -/

/-- `OTAUnpacker`: `updater` is registered, with all its callbacks, and `private_data` set. -/
structure OtaUnpacker (inf : Decoder UInt8 UInt8) where
  verification : VerificationContext
  decompress : DecompressContext inf
  updater : Bool
  privateData : Bool

/-- `duer_ota_unpack_create_unpacker`, the allocations apart. -/
def OtaUnpacker.create : OtaUnpacker inf :=
  ⟨mbedHashInit, mbedZlibstreamDecompressInit, false, false⟩

/-- The callbacks are called: `updater && updater->notify_… && update_cxt`. -/
def OtaUnpacker.registered (u : OtaUnpacker inf) : Bool := u.updater && u.privateData

/-- What `duer_ota_unpack_decompress_data` makes of the decompressor's result. -/
def Result.toStatus : Result → Result
  | .ret code => .ret (if code ≠ 0 then duerErrFailed else duerOk)
  | res => res

/-- The return of `duer_ota_unpack_decompress_data` in the log. -/
def World.returned (w : World) : Result → World
  | .ret code => w.record (.decompressed code)
  | _ => w

/-- `duer_ota_unpack_decompress_data` -/
def duerOtaUnpackDecompressData (fuel : Nat) (u : OtaUnpacker inf) (w : World)
    (below data : List UInt8) : Result × OtaUnpacker inf × World :=
  let w := w.record (.data data)
  match mbedHashUpdateKey u.verification data with
  | none => (.fault, u, w)
  | some verification =>
    match mbedZlibstreamDecompressProcess parseMetaData fuel verification u.registered
        u.decompress w below data with
    | (res, decompress, w) =>
      (res.toStatus, { u with verification, decompress }, w.returned res.toStatus)

end Decompress

end Ota
end LightDuer
