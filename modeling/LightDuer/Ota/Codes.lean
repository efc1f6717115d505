import LightDuer.Ota.Reach

/-!
# What inflate returns for a package

Whether an update is fail-stop depends on what inflate returns for the blocks of the download. Here
these codes are described without the unpacker: by inflate itself, run on the window of a block
until it leaves room in the output buffer (`loopCodes`), block after block (`packageCodes`). Nothing
of the meta data, of the callbacks or of the memory stands in it; of the decompressor only the two
counters, which cut out the window, and the stream, which `inflateEnd` takes away.

`handleCalls_codes` says that these are the codes in the log of a download, as long as no answer of
the surroundings is a failure. The other layers are followed one by one: each adds to the log what
`Traced` says and leaves a context that inflate does not tell from its own (`SameStream`).

## Why this is worth a description

A condition on the download should speak of what is downloaded. The log of the update is no such
thing, as it is what the condition is to be compared with. `packageCodes` takes the blocks, the
memory in front of their copies and the decoder, and runs nothing but the decoder. So it can be
stated, and evaluated, before any update is run, and the comparison with the log is a theorem.

The assumption that no answer is a failure is used in every layer: an allocation that is refused or
a callback that fails ends the loop of a block early, and then inflate is not called as often as the
input would have it.
-/

set_option autoImplicit false

namespace LightDuer
namespace Ota

open Lib

/-! ## Without the unpacker -/

/-- What inflate has returned. -/
def inflateCodes (log : List Event) : List Int :=
  log.filterMap fun
    | .inflate ret => some ret
    | _ => none

@[simp] theorem inflateCodes_append (a b : List Event) :
    inflateCodes (a ++ b) = inflateCodes a ++ inflateCodes b := List.filterMap_append

theorem mem_inflateCodes {log : List Event} {ret : Int} :
    ret ∈ inflateCodes log ↔ .inflate ret ∈ log := by
  rw [inflateCodes, List.mem_filterMap]
  constructor
  · rintro ⟨e, he, heq⟩
    cases e with
    | inflate code => exact Option.some.inj heq ▸ he
    | _ => cases heq
  · intro h
    exact ⟨_, h, rfl⟩

section Package

variable {inf : Decoder UInt8 UInt8}

/-- What inflate returns for a window, and the stream it leaves: none, once it has failed. -/
def loopCodes : Nat → Option inf.State → List UInt8 → List Int × Option inf.State
  | 0, strm, _ => ([], strm)
  | _ + 1, none, _ => ([zStreamError], none)
  | fuel + 1, some st, nextIn =>
      let r := inf.run st nextIn chunk
      if InflateFailed r.ret then ([r.ret], none)
      else if r.out.length = chunk then
        match loopCodes fuel (some r.state) r.rest with
        | (codes, strm) => (r.ret :: codes, strm)
      else ([r.ret], some r.state)

/-- What it returns for a block that has been counted, and the counters and the stream behind it. -/
def countedCodes (fuel : Nat) (ctx : DecompressContext inf) (below block : List UInt8) :
    List Int × DecompressContext inf :=
  if ctx.streamRecievedSz ≤ pckHeaderSz then ([], ctx)
  else
    match inflateWindow ctx below block with
    | none => ([], ctx)
    | some input =>
      match loopCodes fuel ctx.strm input with
      | (codes, strm) => (codes, { ctx with strm }.processed input.length)

/-- What it returns for a block. -/
def blockCodes (fuel : Nat) (ctx : DecompressContext inf) (below block : List UInt8) :
    List Int × DecompressContext inf :=
  countedCodes fuel { ctx with streamRecievedSz := u32 (ctx.streamRecievedSz + block.length) } below
    block

/-- What it returns for the blocks of a download, with the memory in front of their copies. -/
def packageCodes (fuel : Nat) : DecompressContext inf → List (List UInt8) → List (List UInt8) →
    List Int
  | _, _, [] => []
  | ctx, belows, block :: rest =>
      if block = [] then packageCodes fuel ctx belows rest
      else
        match blockCodes fuel ctx (belows.headD []) block with
        | (codes, ctx) => codes ++ packageCodes fuel ctx belows.tail rest

/-! ## Contexts that inflate does not tell apart -/

/-- The counters and the stream do not differ. -/
structure SameStream (ctx ctx' : DecompressContext inf) : Prop where
  recieved : ctx'.streamRecievedSz = ctx.streamRecievedSz
  processed : ctx'.streamProcessedSz = ctx.streamProcessedSz
  strm : ctx'.strm = ctx.strm

variable {ctx ctx' ctx'' : DecompressContext inf}

theorem SameStream.refl (ctx : DecompressContext inf) : SameStream ctx ctx := ⟨rfl, rfl, rfl⟩

theorem SameStream.trans (h : SameStream ctx ctx') (h' : SameStream ctx' ctx'') :
    SameStream ctx ctx'' :=
  ⟨h'.recieved.trans h.recieved, h'.processed.trans h.processed, h'.strm.trans h.strm⟩

theorem SameStream.count (h : SameStream ctx ctx') (n : Nat) :
    SameStream { ctx with streamRecievedSz := u32 (ctx.streamRecievedSz + n) }
      { ctx' with streamRecievedSz := u32 (ctx'.streamRecievedSz + n) } :=
  ⟨congrArg (fun r => u32 (r + n)) h.recieved, h.processed, h.strm⟩

/-- The window is cut out by the counters. -/
theorem SameStream.window (h : SameStream ctx ctx') (below block : List UInt8) :
    inflateWindow ctx' below block = inflateWindow ctx below block := by
  rw [inflateWindow, inflateWindow, h.recieved, h.processed]

theorem SameStream.counted (h : SameStream ctx ctx') (fuel : Nat) (below block : List UInt8) :
    (countedCodes fuel ctx' below block).1 = (countedCodes fuel ctx below block).1 ∧
      SameStream (countedCodes fuel ctx below block).2 (countedCodes fuel ctx' below block).2 := by
  rw [countedCodes, countedCodes, h.recieved, h.window below block, h.strm]
  split
  · exact ⟨rfl, h⟩
  · split
    · exact ⟨rfl, h⟩
    · exact ⟨rfl, rfl, congrArg (fun p => u32 (p + _)) h.processed, rfl⟩

theorem SameStream.package {fuel : Nat} {belows blocks : List (List UInt8)}
    (h : SameStream ctx ctx') :
    packageCodes fuel ctx' belows blocks = packageCodes fuel ctx belows blocks := by
  induction blocks generalizing ctx ctx' belows with
  | nil => rfl
  | cons block rest ih =>
    rw [packageCodes, packageCodes]
    split
    · exact ih h
    · obtain ⟨hcodes, hsame⟩ := (h.count block.length).counted fuel (belows.headD []) block
      simp only [blockCodes, hcodes, ih hsame]

end Package

/-! ## In the log of a download -/

/-- Between two worlds inflate returns these codes, and no answer to come is a failure. -/
structure Traced (w w' : World) (codes : List Int) : Prop where
  calm : w'.Calm
  log : inflateCodes w'.log = inflateCodes w.log ++ codes

section Traced

variable {w w' w'' : World} {codes codes' : List Int}

theorem Traced.refl (h : w.Calm) : Traced w w [] := ⟨h, (List.append_nil _).symm⟩

theorem Traced.trans (h : Traced w w' codes) (h' : Traced w' w'' codes') :
    Traced w w'' (codes ++ codes') :=
  ⟨h'.calm, by rw [h'.log, h.log, List.append_assoc]⟩

theorem Traced.record (h : w.Calm) (e : Event) : Traced w (w.record e) (inflateCodes [e]) :=
  ⟨h.record e, inflateCodes_append w.log [e]⟩

/-- A callback on data is no call of inflate. -/
theorem Traced.call (h : w.Calm) (callback : Int → Event)
    (hcallback : ∀ ret, inflateCodes [callback ret] = []) : Traced w (w.call callback).2 [] :=
  ⟨(h.call callback).2, by
    rw [World.call]
    exact (inflateCodes_append w.log _).trans (congrArg _ (hcallback _))⟩

theorem Traced.malloc (h : w.Calm) (what : Alloc) : Traced w (w.malloc what).2 [] :=
  ⟨(h.malloc what).2, inflateCodes_append w.log _⟩

end Traced

section Calls

variable {inf : Decoder UInt8 UInt8} {parseMetaData : List UInt8 → Bool → Option PackageMetaData}
  {registered : Bool} {ctx ctx' : DecompressContext inf} {w w' : World}

theorem takeMetaSize_codes (verify : VerificationContext) (ctx : DecompressContext inf)
    (hcalm : w.Calm) : SameStream ctx (takeMetaSize verify ctx w).1 ∧
      Traced w (takeMetaSize verify ctx w).2 [] := by
  rw [takeMetaSize]
  split
  · have htraced := Traced.malloc hcalm .metaData
    generalize w.malloc .metaData = run at htraced ⊢
    obtain ⟨ok, w₁⟩ := run
    cases ok <;> exact ⟨⟨rfl, rfl, rfl⟩, htraced⟩
  · exact ⟨.refl ctx, .refl hcalm⟩

theorem handleMetaData_codes {metaData : List UInt8} {res : Option Result} (hcalm : w.Calm)
    (h : handleMetaData parseMetaData registered metaData w = (res, w')) :
    Traced w w' [] ∧ ∀ code, res ≠ some (.ret code) := by
  have hmalloc := Traced.malloc hcalm .json
  rw [handleMetaData] at h
  generalize w.malloc .json = run at h hmalloc
  obtain ⟨ok, w₁⟩ := run
  simp only at h hmalloc
  split at h
  · cases h
    exact ⟨hmalloc, by simp⟩
  · rename_i info hparse
    split at h
    · cases h
      exact ⟨hmalloc, by simp⟩
    · split at h
      · have hcall := Traced.call hmalloc.calm (.notifyMetaData info) fun _ => rfl
        have hret := (hmalloc.calm.call (.notifyMetaData info)).1
        generalize w₁.call (.notifyMetaData info) = run at h hcall hret
        obtain ⟨ret, w₂⟩ := run
        simp only at h hcall hret
        cases h
        exact ⟨hmalloc.trans hcall, by simp [hret]⟩
      · cases h
        exact ⟨hmalloc, by simp⟩

theorem storeMetaData_codes {out : List UInt8} {res : Option Result} {copied : Nat}
    (hcalm : w.Calm)
    (h : storeMetaData parseMetaData registered ctx w out = (res, copied, ctx', w')) :
    SameStream ctx ctx' ∧ Traced w w' [] ∧ ∀ code, res ≠ some (.ret code) := by
  rw [storeMetaData] at h
  split at h
  · simp only at h
    split at h
    · generalize hrun : handleMetaData parseMetaData registered _ w = run at h
      obtain ⟨res₁, w₁⟩ := run
      cases h
      exact ⟨⟨rfl, rfl, rfl⟩, handleMetaData_codes hcalm hrun⟩
    · cases h
      exact ⟨⟨rfl, rfl, rfl⟩, .refl hcalm, by simp⟩
  · cases h
    exact ⟨.refl _, .refl hcalm, by simp⟩

theorem giveModuleData_codes {data : List UInt8} {ret : Int} (hcalm : w.Calm)
    (h : giveModuleData registered ctx w data = (ret, ctx', w')) :
    ret = 0 ∧ SameStream ctx ctx' ∧ Traced w w' [] := by
  rw [giveModuleData] at h
  split at h
  · have hcall := Traced.call hcalm (.notifyModuleData ctx.writeOffset data) fun _ => rfl
    have hret := (hcalm.call (.notifyModuleData ctx.writeOffset data)).1
    generalize w.call (.notifyModuleData ctx.writeOffset data) = run at h hcall hret
    obtain ⟨ret, w₁⟩ := run
    cases h
    exact ⟨hret, ⟨rfl, rfl, rfl⟩, hcall⟩
  · cases h
    exact ⟨rfl, .refl _, .refl hcalm⟩

/-- **The loop of the decompressor**: inflate returns what it returns without the callbacks. Nothing
    else happens to the stream in the loop, as no answer that comes in it is a failure. -/
theorem inflateLoop_codes {bufferSZ fuel : Nat} {nextIn : List UInt8} {code : Int}
    (hcalm : w.Calm)
    (h : inflateLoop parseMetaData registered bufferSZ fuel ctx w nextIn = (.ret code, ctx', w')) :
    Traced w w' (loopCodes fuel ctx.strm nextIn).1 ∧
      SameStream ({ ctx with strm := (loopCodes fuel ctx.strm nextIn).2 }.processed bufferSZ)
        ctx' := by
  induction fuel generalizing ctx w nextIn with
  | zero => cases h
  | succ fuel ih =>
    rw [inflateLoop, inflate] at h
    cases hstrm : ctx.strm with
    | none =>
      -- inflate refuses a stream that has ended, and nothing comes out of it
      have hrecord := Traced.record hcalm (.inflate zStreamError)
      simp only [hstrm, if_neg (show ¬InflateFailed zStreamError by decide)] at h
      split at h
      · rename_i hstore
        cases h
        exact absurd rfl ((storeMetaData_codes hrecord.calm hstore).2.2 _)
      · rename_i copied ctx₁ w₁ hstore
        obtain ⟨hsame, htraced, -⟩ := storeMetaData_codes hrecord.calm hstore
        generalize hgive : giveModuleData registered ctx₁ w₁ (([] : List UInt8).drop copied) = run
          at h
        obtain ⟨ret, ctx₂, w₂⟩ := run
        obtain ⟨rfl, hsame', htraced'⟩ := giveModuleData_codes htraced.calm hgive
        simp only [ne_eq, not_true_eq_false, if_false, List.length_nil,
          if_neg (show ¬0 = chunk by decide)] at h
        cases h
        have hctx := hsame.trans hsame'
        exact ⟨(hrecord.trans htraced).trans htraced', hctx.recieved,
          congrArg (fun p => u32 (p + bufferSZ)) hctx.processed, hctx.strm.trans hstrm⟩
    | some st =>
      simp only [hstrm] at h
      rw [loopCodes]
      generalize inf.run st nextIn chunk = r at h ⊢
      have hrecord := Traced.record hcalm (.inflate r.ret)
      by_cases hfailed : InflateFailed r.ret
      · rw [if_pos hfailed] at h
        cases h
        rw [if_pos hfailed]
        exact ⟨hrecord, .refl _⟩
      · rw [if_neg hfailed] at h ⊢
        split at h
        · rename_i hstore
          cases h
          exact absurd rfl ((storeMetaData_codes hrecord.calm hstore).2.2 _)
        · rename_i copied ctx₁ w₁ hstore
          obtain ⟨hsame, htraced, -⟩ := storeMetaData_codes hrecord.calm hstore
          generalize hgive : giveModuleData registered ctx₁ w₁ (r.out.drop copied) = run at h
          obtain ⟨ret, ctx₂, w₂⟩ := run
          obtain ⟨rfl, hsame', htraced'⟩ := giveModuleData_codes htraced.calm hgive
          simp only [ne_eq, not_true_eq_false, if_false] at h
          have hctx := hsame.trans hsame'
          have hworld := (hrecord.trans htraced).trans htraced'
          by_cases hroom : r.out.length = chunk
          · rw [if_pos hroom] at h ⊢
            obtain ⟨hrest, hleft⟩ := ih hworld.calm h
            rw [hctx.strm] at hrest hleft
            exact ⟨hworld.trans hrest, hleft.recieved.trans hctx.recieved,
              hleft.processed.trans (congrArg (fun p => u32 (p + bufferSZ)) hctx.processed),
              hleft.strm⟩
          · rw [if_neg hroom] at h ⊢
            cases h
            exact ⟨hworld, hctx.recieved, congrArg (fun p => u32 (p + bufferSZ)) hctx.processed,
              hctx.strm⟩

/-- A block for the decompressor. -/
theorem decompressProcess_codes {fuel : Nat} {verify : VerificationContext}
    {below block : List UInt8} {code : Int} (hne : block ≠ []) (hcalm : w.Calm)
    (h : mbedZlibstreamDecompressProcess parseMetaData fuel verify registered ctx w below block =
      (.ret code, ctx', w')) :
    Traced w w' (blockCodes fuel ctx below block).1 ∧
      SameStream (blockCodes fuel ctx below block).2 ctx' := by
  rw [mbedZlibstreamDecompressProcess, if_neg hne] at h
  simp only at h
  rw [blockCodes, countedCodes]
  split at h
  · rename_i hheader
    cases h
    rw [if_pos hheader]
    exact ⟨.refl hcalm, .refl _⟩
  · rename_i hheader
    rw [if_neg hheader]
    split at h
    · cases h
    · rename_i input hinput
      obtain ⟨hsame, htake⟩ := takeMetaSize_codes verify
        { ctx with streamRecievedSz := u32 (ctx.streamRecievedSz + block.length) } hcalm
      have hwindow := Traced.record htake.calm (.window input)
      obtain ⟨hloop, hleft⟩ := inflateLoop_codes hwindow.calm h
      rw [hsame.strm] at hloop hleft
      simp only [hinput]
      refine ⟨(htake.trans hwindow).trans hloop, hleft.recieved.trans hsame.recieved, ?_,
        hleft.strm⟩
      exact hleft.processed.trans (congrArg (fun p => u32 (p + input.length)) hsame.processed)

variable {fuel : Nat} {env : UpdateEnv} {up up' : OtaUpdater inf}

theorem decompressData_codes {u u' : OtaUnpacker inf} {below block : List UInt8} {code : Int}
    (hne : block ≠ []) (hcalm : w.Calm)
    (h : duerOtaUnpackDecompressData parseMetaData fuel u w below block = (.ret code, u', w')) :
    Traced w w' (blockCodes fuel u.decompress below block).1 ∧
      SameStream (blockCodes fuel u.decompress below block).2 u'.decompress := by
  have hdata := Traced.record hcalm (.data block)
  rw [duerOtaUnpackDecompressData] at h
  simp only at h
  split at h
  · cases h
  · rename_i verification hupdate
    generalize hrun : mbedZlibstreamDecompressProcess parseMetaData fuel verification
      u.registered u.decompress (w.record (.data block)) below block = run at h
    obtain ⟨res, decompress, w₁⟩ := run
    cases res with
    | ret code =>
      obtain ⟨hprocess, hsame⟩ := decompressProcess_codes hne hdata.calm hrun
      have hreturned := Traced.record hprocess.calm (.decompressed
        (if code ≠ 0 then duerErrFailed else duerOk))
      cases h
      have htraced := (hdata.trans hprocess).trans hreturned
      rw [show inflateCodes [Event.data block] = [] from rfl, List.nil_append,
        show ∀ ret, inflateCodes [Event.decompressed ret] = [] from fun _ => rfl,
        List.append_nil] at htraced
      exact ⟨htraced, hsame⟩
    | running => cases h
    | fault => cases h

theorem reportProgress_codes {ret ret' : Int} {len : Nat} (hcalm : up.world.Calm)
    (h : reportProgress env up ret len = (ret', up')) :
    Traced up.world up'.world [] ∧ up'.unpacker = up.unpacker ∧ up'.belows = up.belows := by
  rw [reportProgress] at h
  simp only at h
  split at h
  · cases h
    exact ⟨.record hcalm _, rfl, rfl⟩
  · cases h
    exact ⟨.refl hcalm, rfl, rfl⟩

theorem handler_codes {block : List UInt8} {code : Int} (hne : block ≠ []) (hcalm : up.world.Calm)
    (h : handler env parseMetaData fuel up block = (.ret code, up')) :
    Traced up.world up'.world
        (blockCodes fuel up.unpacker.decompress (up.belows.headD []) block).1 ∧
      SameStream (blockCodes fuel up.unpacker.decompress (up.belows.headD []) block).2
        up'.unpacker.decompress ∧ up'.belows = up.belows.tail := by
  have hmalloc := Traced.malloc hcalm .block
  have hgranted := (hcalm.malloc .block).1
  rw [handler, if_pos hne] at h
  generalize up.world.malloc .block = run at h hmalloc hgranted
  obtain ⟨ok, w₁⟩ := run
  obtain rfl : ok = true := hgranted
  simp only at h hmalloc
  generalize hrun : duerOtaUnpackDecompressData parseMetaData fuel up.unpacker w₁
    (up.belows.headD []) block = run at h
  obtain ⟨res, unpacker, w₂⟩ := run
  cases res with
  | ret code =>
    obtain ⟨hdata, hsame⟩ := decompressData_codes hne hmalloc.calm hrun
    simp only at h
    generalize hprogress : reportProgress env { up with
      unpacker, world := w₂, belows := up.belows.tail } code block.length = run at h
    obtain ⟨ret, up₁⟩ := run
    obtain ⟨hreport, hunpacker, hbelows⟩ := reportProgress_codes hdata.calm hprogress
    cases h
    have htraced := (hmalloc.trans hdata).trans hreport
    rw [List.nil_append, List.append_nil] at htraced
    rw [hunpacker]
    exact ⟨htraced, hsame, hbelows⟩
  | running => cases h
  | fault => cases h

/-- **The calls of a download**: inflate returns what the blocks alone make it return. The induction
    is on the calls, with the counters and the stream as what is handed on. -/
theorem handleCalls_codes {calls : List Http.HandlerCall} (hcalm : up.world.Calm)
    (h : handleCalls env parseMetaData fuel up calls = (true, up')) :
    Traced up.world up'.world (packageCodes fuel up.unpacker.decompress up.belows
      (calls.map (·.block))) := by
  induction calls generalizing up with
  | nil =>
    cases h
    exact .refl hcalm
  | cons call rest ih =>
    rw [handleCalls] at h
    rw [List.map_cons, packageCodes]
    generalize hrun : handler env parseMetaData fuel up call.block = run at h
    obtain ⟨res, up₁⟩ := run
    cases res with
    | ret code =>
      split
      · rename_i hnil
        rw [handler, if_neg (not_not_intro hnil)] at hrun
        cases hrun
        exact ih hcalm h
      · rename_i hne
        obtain ⟨hfirst, hsame, hbelows⟩ := handler_codes hne hcalm hrun
        have hrest := ih hfirst.calm h
        rw [hsame.package, hbelows] at hrest
        exact hfirst.trans hrest
    | running => cases h
    | fault => cases h

end Calls

/-! ## In the log of an update -/

section Update

variable {inf : Decoder UInt8 UInt8} {parseMetaData : List UInt8 → Bool → Option PackageMetaData}
  {fuel : Nat} {env : UpdateEnv}

/-- Only the download calls inflate. -/
theorem runStep_codes {s : Step} (hs : s ≠ .connectServer) (up : OtaUpdater inf) :
    inflateCodes (runStep env parseMetaData fuel s up).2.world.log =
      inflateCodes up.world.log := by
  have hnotify : ∀ event, inflateCodes (notifyStep env up event).2.world.log =
      inflateCodes up.world.log := by
    intro event
    exact (inflateCodes_append _ _).trans (List.append_nil _)
  cases s with
  | connectServer => exact absurd rfl hs
  | downloadComplete => exact hnotify _
  | installed => exact hnotify _
  | createUnpacker =>
    rw [runStep]
    split <;> rfl
  | initUpdater =>
    simp only [runStep]
    split <;> rfl
  | getDownloader =>
    simp only [runStep, duerOtaDownloaderGetDownloader]
    repeat' split
    all_goals rfl
  | initDownloader =>
    simp only [runStep, duerOtaDownloaderInitDownloader]
    repeat' split
    all_goals rfl
  | dataBegin | registerDataNotify | dataEnd | updateImageBegin | updateImage | updateImageEnd
    | reboot => rfl

theorem runSteps_codes {steps : List (Step × Option OtaEvent)}
    (hsteps : ∀ step ∈ steps, step.1 ≠ .connectServer) (up : OtaUpdater inf) :
    inflateCodes (runSteps env parseMetaData fuel steps up).2.world.log =
      inflateCodes up.world.log := by
  induction steps generalizing up with
  | nil => rfl
  | cons step rest ih =>
    obtain ⟨s, event⟩ := step
    have hstep : inflateCodes (runStep env parseMetaData fuel s
        (up.record (.step s))).2.world.log = inflateCodes up.world.log :=
      (runStep_codes (hsteps _ List.mem_cons_self) _).trans
        ((inflateCodes_append _ _).trans (List.append_nil _))
    rw [runSteps]
    generalize runStep env parseMetaData fuel s (up.record (.step s)) = run at hstep ⊢
    obtain ⟨stop, up₁⟩ := run
    cases stop with
    | ok => exact (ih (fun s hs => hsteps s (List.mem_cons_of_mem _ hs)) up₁).trans hstep
    | failed => exact hstep
    | stuck => exact hstep

end Update

end Ota
end LightDuer
