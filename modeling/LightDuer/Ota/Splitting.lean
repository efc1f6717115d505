import LightDuer.Ota.StoredInflate

/-!
# Splitting a package does not depend on how it is cut

The blocks of a package are fed to the unpacker. After every block the hash context and the
decompressor are where the octets received so far put them: `Split` says so, for the header kept,
the octets hashed and inflated, the meta data stored and the module data handed over. Inside a
block, `Delivered` says it of what inflate has emitted.

## The shape of the argument

The state after some blocks is described by the octets of all of them together, not by the blocks.
`Hashed s` does it for the hash context, which keeps the first octets of a package as its header and
hashes what is behind them. `Decompressed data Rep s` does it for the decompressor, where `data` is
what an input inflates to. A block extends `s`, and there are three cases for each of the two: the
block is all in the header, all behind it, or the header ends in it.

Within a block inflate is called until it leaves room in its output buffer. Each output is divided
between the meta data, as far as these are not complete, and the modules; `output_spec` is that
step, and `inflateLoop_spec` the loop, with `Decoder.Streams` for what inflate is relied on to do.
The offsets of the module data are counted in 32 bits and may wrap; the data themselves are still
contiguous.

## The limit

A package of 2³² octets makes the count of the received octets wrap, and then a block is taken for a
part of the header once more and is not inflated. The last section shows that a package of exactly
this length loses its last octet.
-/

set_option autoImplicit false

namespace LightDuer
namespace Ota

open Lib

/-! ## What is read off a run -/

/-- The octets given to inflate. -/
def inflateInput (log : List Event) : List UInt8 :=
  log.flatMap fun
    | .window input => input
    | _ => []

/-- The blocks given to `notify_module_data`, with their offsets. -/
def moduleBlocks (log : List Event) : List (Nat × List UInt8) :=
  log.filterMap fun
    | .notifyModuleData offset data _ => some (offset, data)
    | _ => none

/-- The octets given to `notify_module_data`. -/
def moduleData (log : List Event) : List UInt8 :=
  ((moduleBlocks log).map Prod.snd).flatten

/-- The blocks lie one behind the other from `offset` on, which is counted in an
    `unsigned int`. -/
def Contiguous : Nat → List (Nat × List UInt8) → Prop
  | _, [] => True
  | offset, (start, data) :: rest => start = u32 offset ∧ Contiguous (offset + data.length) rest

@[simp] theorem inflateInput_append (a b : List Event) :
    inflateInput (a ++ b) = inflateInput a ++ inflateInput b := by
  simp [inflateInput]

@[simp] theorem moduleBlocks_append (a b : List Event) :
    moduleBlocks (a ++ b) = moduleBlocks a ++ moduleBlocks b := by
  simp [moduleBlocks]

@[simp] theorem moduleData_append (a b : List Event) :
    moduleData (a ++ b) = moduleData a ++ moduleData b := by
  simp [moduleData]

theorem Contiguous.append {offset : Nat} {a b : List (Nat × List UInt8)}
    (ha : Contiguous offset a)
    (hb : Contiguous (offset + (a.map Prod.snd).flatten.length) b) :
    Contiguous offset (a ++ b) := by
  induction a generalizing offset with
  | nil => simpa using hb
  | cons head tail ih =>
    obtain ⟨hstart, htail⟩ := ha
    refine ⟨hstart, ih htail ?_⟩
    simpa [Nat.add_assoc] using hb

/-! ## The header and the hash -/

/-- `meta_size` in the header of a package. -/
def metaSizeOf (package : List UInt8) : Nat :=
  ofLe32 ((package.take pckHeaderSz).drop metaSizeOffset)

/-- The hash context after the octets `s` of a package. -/
structure Hashed (s : List UInt8) (ctx : VerificationContext) : Prop where
  recieved : ctx.streamRecievedSz = s.length
  stored : ctx.streamSigStoredSz = min s.length pckHeaderSz
  header : ctx.pckHeaderSigPart.bytes.take (min s.length pckHeaderSz) = s.take pckHeaderSz
  sha1 : ctx.sha1 = s.drop pckHeaderSz

theorem hashed_init : Hashed [] mbedHashInit :=
  ⟨rfl, rfl, rfl, rfl⟩

/-- Once the header is complete, it is the first part of the package. -/
theorem Hashed.metaSize {s : List UInt8} {ctx : VerificationContext} (h : Hashed s ctx)
    (hlen : pckHeaderSz ≤ s.length) : ctx.metaSize = metaSizeOf s := by
  have hheader := h.header
  rw [Nat.min_eq_right hlen, List.take_of_length_le (by simp)] at hheader
  rw [VerificationContext.metaSize, hheader, metaSizeOf]

/-- A block behind a complete header. -/
theorem mbedHashUpdateKey_behind {ctx : VerificationContext} (block : List UInt8)
    (hstored : ctx.streamSigStoredSz = pckHeaderSz) :
    mbedHashUpdateKey ctx block = some (VerificationContext.sha1Update
      { ctx with streamRecievedSz := u32 (ctx.streamRecievedSz + block.length) } block) := by
  rw [mbedHashUpdateKey]
  exact if_neg (Nat.not_lt.mpr (Nat.le_of_eq hstored.symm))

/-- A block that the header takes all of. -/
theorem mbedHashUpdateKey_inside {ctx : VerificationContext} {block : List UInt8}
    {header : Buffer pckHeaderSz} (hstored : ctx.streamSigStoredSz < pckHeaderSz)
    (hrecv : u32 (ctx.streamRecievedSz + block.length) ≤ pckHeaderSz)
    (hstore : ctx.pckHeaderSigPart.store ctx.streamSigStoredSz block = some header) :
    mbedHashUpdateKey ctx block = some
      { ctx with
        streamRecievedSz := u32 (ctx.streamRecievedSz + block.length)
        pckHeaderSigPart := header
        streamSigStoredSz := u32 (ctx.streamSigStoredSz + block.length) } := by
  rw [mbedHashUpdateKey, if_pos hstored, if_pos hrecv, hstore]
  rfl

/-- A block that completes the header and goes on behind it. -/
theorem mbedHashUpdateKey_across {ctx : VerificationContext} {block : List UInt8}
    {header : Buffer pckHeaderSz} (hstored : ctx.streamSigStoredSz < pckHeaderSz)
    (hrecv : pckHeaderSz < u32 (ctx.streamRecievedSz + block.length))
    (hlen : pckHeaderSz - ctx.streamSigStoredSz ≤ block.length)
    (hstore : ctx.pckHeaderSigPart.store ctx.streamSigStoredSz
      (block.take (pckHeaderSz - ctx.streamSigStoredSz)) = some header) :
    mbedHashUpdateKey ctx block = some (VerificationContext.sha1Update
      { ctx with
        streamRecievedSz := u32 (ctx.streamRecievedSz + block.length)
        pckHeaderSigPart := header, streamSigStoredSz := pckHeaderSz }
      (block.drop (pckHeaderSz - ctx.streamSigStoredSz))) := by
  rw [mbedHashUpdateKey, if_pos hstored, if_neg (Nat.not_le.mpr hrecv),
    if_neg (Nat.not_lt.mpr hlen), hstore]
  rfl

/-- **One block for the hash context**: what it keeps and hashes is that of all octets up to the end
    of the block, wherever the block begins and ends in the header. -/
theorem mbedHashUpdateKey_spec {s block : List UInt8} {ctx : VerificationContext}
    (h : Hashed s ctx) (hlt : (s ++ block).length < 2 ^ 32) :
    ∃ ctx', mbedHashUpdateKey ctx block = some ctx' ∧ Hashed (s ++ block) ctx' := by
  have hrecv : u32 (ctx.streamRecievedSz + block.length) = (s ++ block).length := by
    rw [h.recieved, ← List.length_append, u32_of_lt hlt]
  have hstored := h.stored
  have hheader := h.header
  have hlen : (s ++ block).length = s.length + block.length := List.length_append
  by_cases hfull : pckHeaderSz ≤ s.length
  · have hmin : min (s ++ block).length pckHeaderSz = pckHeaderSz := by omega
    rw [Nat.min_eq_right hfull] at hstored hheader
    refine ⟨_, mbedHashUpdateKey_behind block hstored, ⟨hrecv, ?_, ?_, ?_⟩⟩
    · exact hstored.trans hmin.symm
    · rw [hmin, List.take_append_of_le_length hfull]
      exact hheader
    · rw [List.drop_append_of_le_length hfull, ← h.sha1]
      rfl
  · rw [Nat.min_eq_left (by omega)] at hstored hheader
    rw [List.take_of_length_le (l := s) (by omega)] at hheader
    have hnone : ctx.sha1 = [] := h.sha1.trans (List.drop_of_length_le (by omega))
    by_cases hmore : (s ++ block).length ≤ pckHeaderSz
    · obtain ⟨header, hstore, htake⟩ :=
        @Buffer.store_extend pckHeaderSz ctx.pckHeaderSigPart s.length block (by omega)
      refine ⟨_, mbedHashUpdateKey_inside (by omega) (by omega) (hstored ▸ hstore),
        ⟨hrecv, ?_, ?_, ?_⟩⟩
      · rw [Nat.min_eq_left hmore, hlen, ← hstored]
        exact u32_of_lt (by omega)
      · rw [Nat.min_eq_left hmore, hlen, htake, hheader, List.take_of_length_le hmore]
      · rw [List.drop_of_length_le hmore]
        exact hnone
    · have hmissing : pckHeaderSz - s.length ≤ block.length := by omega
      have hfill : s.length + (block.take (pckHeaderSz - s.length)).length = pckHeaderSz := by
        rw [List.length_take]
        omega
      obtain ⟨header, hstore, htake⟩ :=
        @Buffer.store_extend pckHeaderSz ctx.pckHeaderSigPart s.length
          (block.take (pckHeaderSz - s.length)) (by omega)
      have hmin : min (s ++ block).length pckHeaderSz = pckHeaderSz := by omega
      rw [← hstored] at hmissing hstore
      refine ⟨_, mbedHashUpdateKey_across (by omega) (by omega) hmissing hstore,
        ⟨hrecv, hmin.symm, ?_, ?_⟩⟩
      · rw [hmin, List.take_append, List.take_of_length_le (l := s) (by omega)]
        rw [hfill, hheader] at htake
        exact htake
      · rw [List.drop_append, List.drop_of_length_le (l := s) (by omega), hstored]
        exact congrArg (· ++ _) hnone

/-! ## The output of inflate -/

section Output

variable {inf : Decoder UInt8 UInt8} {parseMetaData : List UInt8 → Bool → Option PackageMetaData}

/-- The meta data lists a module, when the inflated data has all of it. -/
def ModuleListed (parseMetaData : List UInt8 → Bool → Option PackageMetaData) (size : Nat)
    (inflated : List UInt8) : Prop :=
  0 < size → size ≤ inflated.length →
    ∃ info, parseMetaData (inflated.take size) true = some info ∧ info.moduleList ≠ []

/-- The context once `emitted` has been divided between the meta data and the modules. -/
def DecompressContext.divided (ctx : DecompressContext inf) (emitted : List UInt8) :
    DecompressContext inf :=
  { ctx with
    metaData := emitted.take ctx.metaSize
    writeOffset := u32 (emitted.length - ctx.metaSize) }

/-- The calls of `notify_module_data` once `emitted` has been divided. -/
structure Delivered (size : Nat) (emitted : List UInt8) (w : World) : Prop where
  contiguous : Contiguous 0 (moduleBlocks w.log)
  data : moduleData w.log = emitted.drop size
  calm : w.Calm

/-- What an output adds for the modules: all of it behind what the meta data still takes. -/
theorem drop_append_output (size : Nat) (emitted out : List UInt8) :
    (emitted ++ out).drop size =
      emitted.drop size ++ out.drop (min out.length (size - emitted.length)) := by
  rw [List.drop_append]
  congr 1
  by_cases h : out.length ≤ size - emitted.length
  · rw [Nat.min_eq_left h, List.drop_of_length_le h, List.drop_of_length_le (Nat.le_refl _)]
  · rw [Nat.min_eq_right (by omega)]

theorem take_append_output (size : Nat) (emitted out : List UInt8) :
    (emitted ++ out).take size =
      emitted.take size ++ out.take (min out.length (size - emitted.length)) := by
  rw [List.take_append]
  congr 1
  by_cases h : out.length ≤ size - emitted.length
  · rw [Nat.min_eq_left h, List.take_of_length_le h, List.take_of_length_le (Nat.le_refl _)]
  · rw [Nat.min_eq_right (by omega)]

/-- The complete meta data, where it lists a module. -/
theorem handleMetaData_spec {w : World} {metaData : List UInt8} (hcalm : w.Calm)
    (hlisted : ∃ info, parseMetaData metaData true = some info ∧ info.moduleList ≠ []) :
    ∃ w', handleMetaData parseMetaData true metaData w = (none, w') ∧
      w'.Calm ∧ inflateInput w'.log = inflateInput w.log ∧
      moduleBlocks w'.log = moduleBlocks w.log := by
  obtain ⟨info, hparse, hlist⟩ := hlisted
  obtain ⟨hok, hcalm'⟩ := hcalm.malloc .json
  obtain ⟨hret, hcalm''⟩ := hcalm'.call (.notifyMetaData info)
  refine ⟨((w.malloc .json).2.call (.notifyMetaData info)).2, ?_, hcalm'', ?_, ?_⟩
  · rw [handleMetaData]
    simp only [hok, hparse]
    rw [if_neg hlist, if_pos trivial, if_neg (not_not_intro hret)]
  · simp [World.call, World.malloc, inflateInput]
  · simp [World.call, World.malloc, moduleBlocks]

/-- The meta part of an output. -/
theorem storeMetaData_spec {ctx : DecompressContext inf} {w : World} {emitted out : List UInt8}
    (hmeta : ctx.metaData = emitted.take ctx.metaSize) (hcalm : w.Calm)
    (hlisted : ModuleListed parseMetaData ctx.metaSize (emitted ++ out)) :
    ∃ w', storeMetaData parseMetaData true ctx w out =
        (none, min out.length (ctx.metaSize - emitted.length),
          { ctx with metaData := (emitted ++ out).take ctx.metaSize }, w') ∧
      w'.Calm ∧ inflateInput w'.log = inflateInput w.log ∧
      moduleBlocks w'.log = moduleBlocks w.log := by
  have hlen : ctx.metaData.length = min ctx.metaSize emitted.length := by
    rw [hmeta, List.length_take]
  by_cases hlt : emitted.length < ctx.metaSize
  · have hheld : ctx.metaData.length = emitted.length := by omega
    have hstored : ctx.metaData ++ out.take (min out.length (ctx.metaSize - emitted.length)) =
        (emitted ++ out).take ctx.metaSize := by
      rw [hmeta, take_append_output]
    rw [storeMetaData, if_pos (by omega)]
    simp only [hheld, hstored]
    by_cases hfull : ((emitted ++ out).take ctx.metaSize).length = ctx.metaSize
    · obtain ⟨w', hhandle, hspec⟩ := handleMetaData_spec hcalm
        (hlisted (by omega) (by rw [List.length_take] at hfull; omega))
      refine ⟨w', ?_, hspec⟩
      rw [if_pos hfull, hhandle]
    · exact ⟨w, by rw [if_neg hfull], hcalm, rfl, rfl⟩
  · refine ⟨w, ?_, hcalm, rfl, rfl⟩
    have hkeep : (emitted ++ out).take ctx.metaSize = ctx.metaData := by
      rw [hmeta, List.take_append_of_le_length (by omega)]
    rw [storeMetaData, if_neg (by omega), hkeep,
      show ctx.metaSize - emitted.length = 0 by omega, Nat.min_zero]

/-- The module part of an output. -/
theorem giveModuleData_spec (ctx : DecompressContext inf) {w : World} (hcalm : w.Calm)
    (data : List UInt8) (hoff : ∃ n, ctx.writeOffset = u32 n) :
    ∃ w', giveModuleData true ctx w data =
        (0, { ctx with writeOffset := u32 (ctx.writeOffset + data.length) }, w') ∧
      w'.Calm ∧ inflateInput w'.log = inflateInput w.log ∧
      moduleBlocks w'.log =
        moduleBlocks w.log ++ (if data = [] then [] else [(ctx.writeOffset, data)]) := by
  by_cases hdata : data = []
  · obtain ⟨n, hn⟩ := hoff
    refine ⟨w, ?_, hcalm, rfl, by simp [hdata]⟩
    rw [giveModuleData, if_neg (by simp [hdata]), hdata, hn, List.length_nil, u32_add,
      Nat.add_zero, ← hn]
  · obtain ⟨hret, hcalm'⟩ := hcalm.call (.notifyModuleData ctx.writeOffset data)
    refine ⟨_, ?_, hcalm', ?_, ?_⟩
    · rw [giveModuleData, if_pos ⟨hdata, rfl⟩, ← hret]
    · simp [World.call, inflateInput]
    · simp [World.call, moduleBlocks, hdata]

/-- **One output**: divided between the meta data and the modules behind what was emitted before it.
    The end of the meta data may lie before, in or behind the output, and the metadata is notified
    of when it is complete. -/
theorem output_spec (ctx : DecompressContext inf) {w : World} {emitted : List UInt8}
    (out : List UInt8) (hctx : ctx = ctx.divided emitted)
    (hdelivered : Delivered ctx.metaSize emitted w)
    (hlisted : ModuleListed parseMetaData ctx.metaSize (emitted ++ out)) :
    ∃ copied ctx' w' w'', storeMetaData parseMetaData true ctx w out =
        (none, copied, ctx', w') ∧
      giveModuleData true ctx' w' (out.drop copied) = (0, ctx.divided (emitted ++ out), w'') ∧
      Delivered ctx.metaSize (emitted ++ out) w'' ∧
      inflateInput w''.log = inflateInput w.log := by
  have hmeta : ctx.metaData = emitted.take ctx.metaSize :=
    congrArg DecompressContext.metaData hctx
  have hoff : ctx.writeOffset = u32 (emitted.length - ctx.metaSize) :=
    congrArg DecompressContext.writeOffset hctx
  obtain ⟨w', hstore, hcalm', hinput', hblocks'⟩ :=
    storeMetaData_spec hmeta hdelivered.calm hlisted
  generalize hcopied : min out.length (ctx.metaSize - emitted.length) = copied at hstore
  obtain ⟨w'', hgive, hcalm'', hinput'', hblocks''⟩ :=
    giveModuleData_spec { ctx with metaData := (emitted ++ out).take ctx.metaSize }
      hcalm' (out.drop copied) ⟨_, hoff⟩
  have hrest : (emitted ++ out).drop ctx.metaSize =
      emitted.drop ctx.metaSize ++ out.drop copied := by
    rw [drop_append_output, hcopied]
  refine ⟨copied, _, w', w'', hstore, ?_, ⟨?_, ?_, hcalm''⟩, hinput''.trans hinput'⟩
  · rw [hgive, DecompressContext.divided, hoff, u32_add, ← List.length_drop, ← List.length_drop,
      hrest, List.length_append]
  · rw [hblocks'', hblocks']
    refine hdelivered.contiguous.append ?_
    split
    · trivial
    · refine ⟨?_, trivial⟩
      rw [Nat.zero_add]
      show ctx.writeOffset = u32 (moduleData w.log).length
      rw [hdelivered.data, List.length_drop, hoff]
  · have hsplit : moduleData w''.log = moduleData w.log ++ out.drop copied := by
      rw [moduleData, hblocks'', hblocks', List.map_append, List.flatten_append]
      congr 1
      split
      · rename_i hnone
        simp [hnone]
      · simp
    rw [hsplit, hdelivered.data, hrest]

variable {Valid : List UInt8 → Prop} {data : List UInt8 → List UInt8}
  {Rep : inf.State → List UInt8 → List UInt8 → Prop}

/-- **The loop over one block.** It takes all of the block, divides all that it decodes to,
    and ends: every round but the last fills the output buffer, which `fuel` bounds. -/
theorem inflateLoop_spec (hinf : inf.Streams InflateFailed Valid data Rep) (bufferSZ : Nat)
    {total : List UInt8} (fuel : Nat) {ctx : DecompressContext inf} {w : World}
    {fed emitted nextIn : List UInt8} {st : inf.State} (hstrm : ctx.strm = some st)
    (hrep : Rep st fed emitted) (hvalid : Valid (fed ++ nextIn))
    (hctx : ctx = ctx.divided emitted) (hdelivered : Delivered ctx.metaSize emitted w)
    (htotal : data (fed ++ nextIn) <+: total)
    (hlisted : ModuleListed parseMetaData ctx.metaSize total)
    (hfuel : total.length < emitted.length + fuel) :
    ∃ st' w', inflateLoop parseMetaData true bufferSZ fuel ctx w nextIn =
        (.ret 0, (({ ctx with strm := some st' } : DecompressContext inf).divided
          (data (fed ++ nextIn))).processed bufferSZ, w') ∧
      Rep st' (fed ++ nextIn) (data (fed ++ nextIn)) ∧
      Delivered ctx.metaSize (data (fed ++ nextIn)) w' ∧
      inflateInput w'.log = inflateInput w.log := by
  have hemitted := (hinf.emitted_part_data hrep hvalid).trans htotal
  induction fuel generalizing ctx w fed emitted nextIn st with
  | zero => exact absurd hemitted.length_le (by omega)
  | succ fuel ih =>
    have hfailed := hinf.run_not_failed hrep hvalid (show 0 < chunk by decide)
    have hroom := inf.out_le st nextIn chunk
    have hout : emitted ++ (inf.run st nextIn chunk).out <+: total := by
      obtain ⟨used, hcut, hrep'⟩ := hinf.run_full hrep hvalid (show 0 < chunk by decide)
      rw [hcut] at hvalid htotal
      exact (hinf.emitted_part_data hrep' hvalid).trans htotal
    have hlisted' : ModuleListed parseMetaData ctx.metaSize
        (emitted ++ (inf.run st nextIn chunk).out) := by
      intro hpos hsize
      rw [List.prefix_iff_eq_take.mp hout, List.take_take, Nat.min_eq_left hsize]
      exact hlisted hpos (Nat.le_trans hsize hout.length_le)
    obtain ⟨copied, ctx', w', w'', hstore, hgive, hdelivered', hinput⟩ :=
      output_spec { ctx with strm := some (inf.run st nextIn chunk).state }
        (w := w.record (.inflate (inf.run st nextIn chunk).ret))
        (inf.run st nextIn chunk).out
        (by rw [hctx]; rfl)
        ⟨by simpa [World.record, moduleBlocks] using hdelivered.contiguous,
          by simpa [World.record, moduleData, moduleBlocks] using hdelivered.data,
          hdelivered.calm.record _⟩
        hlisted'
    have hquiet : inflateInput w''.log = inflateInput w.log := by
      rw [hinput]
      simp [World.record, inflateInput]
    simp only [inflateLoop, inflate, hstrm, if_neg hfailed, hstore, hgive, ne_eq,
      not_true_eq_false, if_false]
    by_cases hfull : (inf.run st nextIn chunk).out.length = chunk
    · obtain ⟨used, hcut, hrep'⟩ := hinf.run_full hrep hvalid (show 0 < chunk by decide)
      rw [hcut] at hvalid htotal ⊢
      obtain ⟨st', w₃, hloop, hrep₃, hdelivered₃, hinput₃⟩ :=
        ih (show (({ ctx with strm := some (inf.run st nextIn chunk).state } :
            DecompressContext inf).divided (emitted ++ (inf.run st nextIn chunk).out)).strm =
              some (inf.run st nextIn chunk).state from rfl) hrep' hvalid rfl hdelivered' htotal
            hlisted
          (by rw [List.length_append, hfull]; unfold chunk; omega) hout
      refine ⟨st', w₃, ?_, hrep₃, hdelivered₃, hinput₃.trans hquiet⟩
      rw [if_pos hfull, hloop]
      rfl
    · obtain ⟨hall, hrep'⟩ := hinf.run_room hrep hvalid (Nat.lt_of_le_of_ne hroom hfull)
      refine ⟨_, w'', ?_, hrep', hall ▸ hdelivered', hquiet⟩
      rw [if_neg hfull, hall]

end Output

/-! ## One block for the decompressor -/

section Block

variable {inf : Decoder UInt8 UInt8} {parseMetaData : List UInt8 → Bool → Option PackageMetaData}
  {Valid : List UInt8 → Prop} {data : List UInt8 → List UInt8}
  {Rep : inf.State → List UInt8 → List UInt8 → Prop}

/-- The decompressor after the octets `s` of a package. -/
structure Decompressed (data : List UInt8 → List UInt8)
    (Rep : inf.State → List UInt8 → List UInt8 → Prop) (s : List UInt8)
    (ctx : DecompressContext inf) (w : World) : Prop where
  recieved : ctx.streamRecievedSz = s.length
  processed : ctx.streamProcessedSz = s.length - pckHeaderSz
  metaSize : ctx.metaSize = if s.length ≤ pckHeaderSz then 0 else metaSizeOf s
  strm : ∃ st, ctx.strm = some st ∧ Rep st (s.drop pckHeaderSz) (data (s.drop pckHeaderSz))
  divided : ctx = ctx.divided (data (s.drop pckHeaderSz))
  delivered : Delivered ctx.metaSize (data (s.drop pckHeaderSz)) w
  input : inflateInput w.log = s.drop pckHeaderSz

/-- What is recorded beside inflate and the modules changes nothing. -/
theorem Decompressed.record {s : List UInt8} {ctx : DecompressContext inf} {w : World}
    (h : Decompressed data Rep s ctx w) (e : Event) (hinput : inflateInput [e] = [])
    (hblocks : moduleBlocks [e] = []) : Decompressed data Rep s ctx (w.record e) := by
  have hlog : moduleBlocks (w.record e).log = moduleBlocks w.log := by
    rw [World.record, moduleBlocks_append, hblocks, List.append_nil]
  refine { h with delivered := ⟨?_, ?_, h.delivered.calm.record e⟩, input := ?_ }
  · rw [hlog]
    exact h.delivered.contiguous
  · rw [moduleData, hlog]
    exact h.delivered.data
  · rw [World.record, inflateInput_append, hinput, List.append_nil]
    exact h.input

/-- The header of a package that goes on is the same. -/
theorem metaSizeOf_append {s : List UInt8} (block : List UInt8) (h : pckHeaderSz ≤ s.length) :
    metaSizeOf (s ++ block) = metaSizeOf s := by
  rw [metaSizeOf, metaSizeOf, List.take_append_of_le_length h]

/-- The size in hand is the header's, unless no octet behind the header has come yet. -/
theorem Decompressed.metaSize_cases {s : List UInt8} {ctx : DecompressContext inf} {w : World}
    (h : Decompressed data Rep s ctx w) (block : List UInt8) :
    ctx.metaSize = metaSizeOf (s ++ block) ∨ s.length ≤ pckHeaderSz ∧ ctx.metaSize = 0 := by
  by_cases hs : s.length ≤ pckHeaderSz
  · exact .inr ⟨hs, h.metaSize.trans (if_pos hs)⟩
  · refine .inl (h.metaSize.trans ?_)
    rw [if_neg hs, metaSizeOf_append block (by omega)]

/-- As long as no octet behind the header has come, any size divides what is inflated. -/
theorem Decompressed.divided_at (hinf : inf.Streams InflateFailed Valid data Rep) {s : List UInt8}
    {ctx : DecompressContext inf} {w : World} (h : Decompressed data Rep s ctx w) {size : Nat}
    (hsize : ctx.metaSize = size ∨ s.length ≤ pckHeaderSz) :
    ctx.metaData = (data (s.drop pckHeaderSz)).take size ∧
      ctx.writeOffset = u32 ((data (s.drop pckHeaderSz)).length - size) ∧
      moduleData w.log = (data (s.drop pckHeaderSz)).drop size := by
  have hmeta := congrArg DecompressContext.metaData h.divided
  have hoffset := congrArg DecompressContext.writeOffset h.divided
  have hmodules := h.delivered.data
  rcases hsize with rfl | hs
  · exact ⟨hmeta, hoffset, hmodules⟩
  · have hnone : data (s.drop pckHeaderSz) = [] := by
      rw [List.drop_of_length_le hs, hinf.data_nil]
    rw [hnone] at hmeta hoffset hmodules ⊢
    exact ⟨hmeta.trans (by simp [DecompressContext.divided]),
      hoffset.trans (by simp [DecompressContext.divided]), hmodules.trans (by simp)⟩

theorem drop_append_block (s block : List UInt8) :
    (s ++ block).drop pckHeaderSz =
      s.drop pckHeaderSz ++ block.drop (pckHeaderSz - s.length) :=
  List.drop_append

/-- What is inflated of a block is what the header leaves of it. -/
theorem inflateWindow_spec (ctx : DecompressContext inf) {s block : List UInt8}
    (below : List UInt8) (hrecv : ctx.streamRecievedSz = (s ++ block).length)
    (hprocessed : ctx.streamProcessedSz = s.length - pckHeaderSz)
    (hmore : pckHeaderSz < (s ++ block).length) :
    inflateWindow ctx below block = some (block.drop (pckHeaderSz - s.length)) := by
  rw [List.length_append] at hrecv hmore
  by_cases hfirst : s.length ≤ pckHeaderSz
  · rw [inflateWindow, if_pos (by omega), hrecv]
    simp only
    rw [if_pos (by omega),
      show block.length - (s.length + block.length - pckHeaderSz) = pckHeaderSz - s.length by
        omega]
  · rw [inflateWindow, if_neg (by omega), show pckHeaderSz - s.length = 0 by omega,
      List.drop_zero]

/-- The size of the meta data is the one in the header, from the first inflated block on. -/
theorem takeMetaSize_spec (verify : VerificationContext) (ctx : DecompressContext inf)
    {w : World} (hcalm : w.Calm)
    (h : ctx.metaSize = verify.metaSize ∨ ctx.metaSize = 0 ∧ ctx.metaData = []) :
    ∃ w', takeMetaSize verify ctx w = ({ ctx with metaSize := verify.metaSize }, w') ∧
      w'.Calm ∧ inflateInput w'.log = inflateInput w.log ∧
      moduleBlocks w'.log = moduleBlocks w.log := by
  by_cases htake : ctx.metaSize = 0 ∧ 0 < verify.metaSize
  · have hempty : ctx.metaData = [] := by
      rcases h with h | h
      · exact absurd htake.2 (by omega)
      · exact h.2
    obtain ⟨hok, hcalm'⟩ := hcalm.malloc .metaData
    refine ⟨_, ?_, hcalm', ?_, ?_⟩
    · rw [takeMetaSize, if_pos htake, ← hempty]
      exact (show w.malloc .metaData = (true, (w.malloc .metaData).2) by rw [← hok]) ▸ rfl
    · simp [World.malloc, inflateInput]
    · simp [World.malloc, moduleBlocks]
  · have hsame : ctx.metaSize = verify.metaSize := by omega
    exact ⟨w, by rw [takeMetaSize, if_neg htake, ← hsame], hcalm, rfl, rfl⟩

/-- A block that ends inside the header, or with it: nothing is inflated. -/
theorem decompressProcess_header (parseMetaData : List UInt8 → Bool → Option PackageMetaData)
    (fuel : Nat) (verify : VerificationContext) {ctx : DecompressContext inf} {w : World}
    {s block : List UInt8} (below : List UInt8) (h : Decompressed data Rep s ctx w)
    (hne : block ≠ [])
    (hlen : (s ++ block).length ≤ pckHeaderSz) :
    ∃ ctx', mbedZlibstreamDecompressProcess parseMetaData fuel verify true ctx w below block =
        (.ret 0, ctx', w) ∧ Decompressed data Rep (s ++ block) ctx' w := by
  have hs : s.length ≤ pckHeaderSz := by
    rw [List.length_append] at hlen
    omega
  have hrecv : u32 (ctx.streamRecievedSz + block.length) = (s ++ block).length := by
    rw [h.recieved, ← List.length_append, u32_of_lt (by unfold pckHeaderSz at hlen; omega)]
  have hdrop : (s ++ block).drop pckHeaderSz = s.drop pckHeaderSz := by
    rw [List.drop_of_length_le hlen, List.drop_of_length_le hs]
  refine ⟨{ ctx with streamRecievedSz := u32 (ctx.streamRecievedSz + block.length) }, ?_,
    ⟨hrecv, ?_, ?_, ?_, ?_, ?_, ?_⟩⟩
  · rw [mbedZlibstreamDecompressProcess, if_neg hne]
    exact if_pos (hrecv.symm ▸ hlen)
  · exact h.processed.trans (by omega)
  · exact h.metaSize.trans (by rw [if_pos hs, if_pos hlen])
  · rw [hdrop]
    exact h.strm
  · rw [hdrop]
    exact congrArg (fun c : DecompressContext inf =>
      { c with streamRecievedSz := u32 (ctx.streamRecievedSz + block.length) }) h.divided
  · rw [hdrop]
    exact h.delivered
  · rw [hdrop]
    exact h.input

/-- A block that goes beyond the header: what is behind the header is inflated. -/
theorem decompressProcess_inflate (hinf : inf.Streams InflateFailed Valid data Rep)
    {fuel : Nat} {verify : VerificationContext} {ctx : DecompressContext inf} {w : World}
    {s block total : List UInt8} (below : List UInt8) (h : Decompressed data Rep s ctx w)
    (hverify : Hashed (s ++ block) verify) (hne : block ≠ [])
    (hlen : pckHeaderSz < (s ++ block).length) (hlt : (s ++ block).length < 2 ^ 32)
    (hvalid : Valid ((s ++ block).drop pckHeaderSz))
    (htotal : data ((s ++ block).drop pckHeaderSz) <+: total)
    (hlisted : ModuleListed parseMetaData (metaSizeOf (s ++ block)) total)
    (hfuel : total.length < fuel) :
    ∃ ctx' w', mbedZlibstreamDecompressProcess parseMetaData fuel verify true ctx w below block =
        (.ret 0, ctx', w') ∧ Decompressed data Rep (s ++ block) ctx' w' := by
  have hsum : (s ++ block).length = s.length + block.length := List.length_append
  have hrecv : u32 (ctx.streamRecievedSz + block.length) = (s ++ block).length := by
    rw [h.recieved, ← List.length_append, u32_of_lt hlt]
  have hsize := hverify.metaSize (by omega)
  have htaken := h.metaSize_cases block
  obtain ⟨w', htake, hcalm, hinput, hblocks⟩ := takeMetaSize_spec verify
    { ctx with streamRecievedSz := u32 (ctx.streamRecievedSz + block.length) }
    h.delivered.calm (by
      rcases htaken with htaken | ⟨hs, hzero⟩
      · exact .inl (htaken.trans hsize.symm)
      · have hnone : ctx.metaData = (data (s.drop pckHeaderSz)).take 0 :=
          (h.divided_at hinf (.inr hs)).1
        exact .inr ⟨hzero, hnone.trans List.take_zero⟩)
  obtain ⟨st, hstrm, hrep⟩ := h.strm
  rw [hsize] at htake
  have hwindow := inflateWindow_spec
    { ctx with streamRecievedSz := u32 (ctx.streamRecievedSz + block.length) } below
    hrecv h.processed hlen
  have hcut := drop_append_block s block
  generalize hnext : block.drop (pckHeaderSz - s.length) = nextIn at hwindow hcut
  rw [hcut] at hvalid htotal
  obtain ⟨hmeta, hoff, hmodules⟩ := h.divided_at hinf (htaken.imp_right And.left)
  have hnew : moduleBlocks (w'.record (.window nextIn)).log = moduleBlocks w.log := by
    rw [← hblocks]
    simp [World.record, moduleBlocks]
  obtain ⟨st', w'', hloop, hrep', hdelivered, hinput'⟩ := inflateLoop_spec hinf nextIn.length
    fuel (w := w'.record (.window nextIn))
    (show ({ ctx with
      streamRecievedSz := u32 (ctx.streamRecievedSz + block.length)
      metaSize := metaSizeOf (s ++ block) } : DecompressContext inf).strm = some st from hstrm)
    hrep hvalid (by rw [DecompressContext.divided, ← hmeta, ← hoff])
    ⟨hnew ▸ h.delivered.contiguous,
      (by rw [moduleData, hnew]; exact hmodules), hcalm.record _⟩
    htotal hlisted (by omega)
  rw [← hcut] at hloop hrep' hdelivered
  have hprocess : mbedZlibstreamDecompressProcess parseMetaData fuel verify true ctx w below
      block = inflateLoop parseMetaData true nextIn.length fuel
        { ctx with
          streamRecievedSz := u32 (ctx.streamRecievedSz + block.length)
          metaSize := metaSizeOf (s ++ block) } (w'.record (.window nextIn)) nextIn := by
    rw [mbedZlibstreamDecompressProcess, if_neg hne]
    refine (if_neg (hrecv.symm ▸ Nat.not_le.mpr hlen)).trans ?_
    simp only [hwindow, htake]
  refine ⟨_, w'', hprocess.trans hloop,
    ⟨hrecv, ?_, (if_neg (by omega)).symm, ⟨st', rfl, hrep'⟩, rfl, hdelivered, ?_⟩⟩
  · show u32 (ctx.streamProcessedSz + nextIn.length) = _
    rw [h.processed, ← hnext, List.length_drop, hsum, u32_of_lt (by omega)]
    omega
  · rw [hinput', hcut, ← h.input, ← hinput]
    simp [World.record, inflateInput]

/-- What `duer_ota_unpack_decompress_data` makes of its two parts. -/
theorem decompressData_eq {fuel : Nat} {u : OtaUnpacker inf} {w w' : World}
    {below octets : List UInt8} {verification : VerificationContext} {res : Result}
    {decompress : DecompressContext inf}
    (hupdate : mbedHashUpdateKey u.verification octets = some verification)
    (hprocess : mbedZlibstreamDecompressProcess parseMetaData fuel verification u.registered
      u.decompress (w.record (.data octets)) below octets = (res, decompress, w')) :
    duerOtaUnpackDecompressData parseMetaData fuel u w below octets =
      (res.toStatus, { u with verification, decompress }, w'.returned res.toStatus) := by
  simp only [duerOtaUnpackDecompressData, hupdate, hprocess]

/-- **One block for the unpacker**: hash context and decompressor are led from the octets before the
    block to those with it, and the block is accepted. -/
theorem decompressData_spec (hinf : inf.Streams InflateFailed Valid data Rep) {fuel : Nat}
    {u : OtaUnpacker inf} {w : World} {s block total : List UInt8} (below : List UInt8)
    (hu : u.registered = true) (hhashed : Hashed s u.verification)
    (hdecompressed : Decompressed data Rep s u.decompress w) (hne : block ≠ [])
    (hlt : (s ++ block).length < 2 ^ 32) (hvalid : Valid ((s ++ block).drop pckHeaderSz))
    (htotal : data ((s ++ block).drop pckHeaderSz) <+: total)
    (hlisted : pckHeaderSz < (s ++ block).length →
      ModuleListed parseMetaData (metaSizeOf (s ++ block)) total)
    (hfuel : total.length < fuel) :
    ∃ u' w', duerOtaUnpackDecompressData parseMetaData fuel u w below block =
        (.ret duerOk, u', w') ∧
      u'.registered = true ∧ Hashed (s ++ block) u'.verification ∧
      Decompressed data Rep (s ++ block) u'.decompress w' := by
  obtain ⟨verification, hupdate, hhashed'⟩ := mbedHashUpdateKey_spec hhashed hlt
  have hstart := hdecompressed.record (.data block) rfl rfl
  obtain ⟨decompress, w', hprocess, hdecompressed'⟩ : ∃ ctx' w',
      mbedZlibstreamDecompressProcess parseMetaData fuel verification true u.decompress
        (w.record (.data block)) below block = (.ret 0, ctx', w') ∧
      Decompressed data Rep (s ++ block) ctx' w' := by
    by_cases hlen : (s ++ block).length ≤ pckHeaderSz
    · obtain ⟨ctx', h, h'⟩ := decompressProcess_header parseMetaData fuel verification
        below hstart hne hlen
      exact ⟨ctx', _, h, h'⟩
    · exact decompressProcess_inflate hinf below hstart hhashed' hne (Nat.lt_of_not_le hlen) hlt
        hvalid htotal (hlisted (Nat.lt_of_not_le hlen)) hfuel
  rw [← hu] at hprocess
  exact ⟨{ u with verification, decompress }, w'.record (.decompressed duerOk),
    decompressData_eq hupdate hprocess, hu, hhashed', hdecompressed'.record _ rfl rfl⟩

end Block

/-! ## All blocks -/

/-- A block as it lies in memory. -/
structure Block where
  /-- what is in front of it -/
  below : List UInt8
  octets : List UInt8

/-- The octets of a package, from its blocks. -/
def package (blocks : List Block) : List UInt8 := blocks.flatMap Block.octets

section Package

variable {inf : Decoder UInt8 UInt8} (parseMetaData : List UInt8 → Bool → Option PackageMetaData)

/-- Feed the blocks of a package to `duer_ota_unpack_decompress_data`, with its results. -/
def feed (fuel : Nat) :
    OtaUnpacker inf → World → List Block → List Result × OtaUnpacker inf × World
  | u, w, [] => ([], u, w)
  | u, w, block :: rest =>
      match duerOtaUnpackDecompressData parseMetaData fuel u w block.below block.octets with
      | (res, u, w) =>
        match feed fuel u w rest with
        | (results, u, w) => (res :: results, u, w)

/-- An unpacker as the init callback of the application leaves it: with an updater and its
    private data. -/
def OtaUnpacker.ready : OtaUnpacker inf :=
  { OtaUnpacker.create with updater := true, privateData := true }

/-- A package and what its compressed part inflates to, divided exactly. -/
structure SplitExactly (octets inflated : List UInt8) (u : OtaUnpacker inf) (w : World) :
    Prop where
  stored : u.verification.streamSigStoredSz = min octets.length pckHeaderSz
  header : u.verification.pckHeaderSigPart.bytes.take (min octets.length pckHeaderSz) =
    octets.take pckHeaderSz
  sha1 : u.verification.sha1 = octets.drop pckHeaderSz
  input : inflateInput w.log = octets.drop pckHeaderSz
  metaData : u.decompress.metaData = inflated.take (metaSizeOf octets)
  modules : moduleData w.log = inflated.drop (metaSizeOf octets)
  contiguous : Contiguous 0 (moduleBlocks w.log)

variable {parseMetaData} {Valid : List UInt8 → Prop} {data : List UInt8 → List UInt8}
  {Rep : inf.State → List UInt8 → List UInt8 → Prop}

/-- The blocks that are left, after the octets `s`. -/
theorem feed_spec (hinf : inf.Streams InflateFailed Valid data Rep) {fuel : Nat}
    {octets : List UInt8} (hlt : octets.length < 2 ^ 32)
    (hvalid : Valid (octets.drop pckHeaderSz))
    (hlisted : ModuleListed parseMetaData (metaSizeOf octets) (data (octets.drop pckHeaderSz)))
    (hfuel : (data (octets.drop pckHeaderSz)).length < fuel) (blocks : List Block)
    {u : OtaUnpacker inf} {w : World} {s : List UInt8} (hcut : s ++ package blocks = octets)
    (hne : ∀ block ∈ blocks, block.octets ≠ []) (hu : u.registered = true)
    (hhashed : Hashed s u.verification)
    (hdecompressed : Decompressed data Rep s u.decompress w) :
    ∃ results u' w', feed parseMetaData fuel u w blocks = (results, u', w') ∧
      (∀ res ∈ results, res = .ret duerOk) ∧ Hashed octets u'.verification ∧
      Decompressed data Rep octets u'.decompress w' := by
  induction blocks generalizing u w s with
  | nil =>
    obtain rfl : s = octets := by simpa [package] using hcut
    exact ⟨[], u, w, rfl, by simp, hhashed, hdecompressed⟩
  | cons block rest ih =>
    have hcut' : (s ++ block.octets) ++ package rest = octets := by
      rw [← hcut, package, package, List.flatMap_cons, List.append_assoc]
    have hpart : s ++ block.octets <+: octets := ⟨_, hcut'⟩
    have hdrop := drop_isPrefix pckHeaderSz hpart
    obtain ⟨u', w', hfirst, hu', hhashed', hdecompressed'⟩ :=
      decompressData_spec hinf block.below hu hhashed hdecompressed (hne block (by simp))
        (Nat.lt_of_le_of_lt hpart.length_le hlt) (hinf.valid_of_part hdrop hvalid)
        (hinf.data_mono hdrop hvalid)
        (fun hlen => by rwa [← metaSizeOf_append (package rest) (Nat.le_of_lt hlen), hcut']) hfuel
    obtain ⟨results, u'', w'', hrest, hall, hhashed'', hdecompressed''⟩ :=
      ih hcut' (fun b hb => hne b (by simp [hb])) hu' hhashed' hdecompressed'
    refine ⟨.ret duerOk :: results, u'', w'', ?_, ?_, hhashed'', hdecompressed''⟩
    · simp only [feed, hfirst, hrest]
    · simpa using hall

theorem decompressed_init (hinf : inf.Streams InflateFailed Valid data Rep) {w : World}
    (hcalm : w.Calm) (hlog : w.log = []) :
    Decompressed data Rep [] (OtaUnpacker.ready : OtaUnpacker inf).decompress w := by
  have hnone : data (([] : List UInt8).drop pckHeaderSz) = [] := hinf.data_nil
  refine ⟨rfl, rfl, rfl, ⟨inf.init, rfl, by rw [hnone]; exact hinf.init⟩, ?_, ⟨?_, ?_, hcalm⟩,
    by rw [hlog]; rfl⟩
  · rw [hnone, DecompressContext.divided, List.take_nil, List.length_nil, Nat.zero_sub,
      u32_of_lt (by decide)]
    rfl
  · rw [hlog]
    trivial
  · rw [hlog, hnone]
    rfl

/-- After a whole package, the header's `meta_size` divides what it inflates to. -/
theorem Decompressed.at_metaSizeOf (hinf : inf.Streams InflateFailed Valid data Rep)
    {octets : List UInt8} {ctx : DecompressContext inf} {w : World}
    (h : Decompressed data Rep octets ctx w) :
    ctx.metaData = (data (octets.drop pckHeaderSz)).take (metaSizeOf octets) ∧
      moduleData w.log = (data (octets.drop pckHeaderSz)).drop (metaSizeOf octets) := by
  have hsize : ctx.metaSize = metaSizeOf octets ∨ octets.length ≤ pckHeaderSz := by
    by_cases hlen : octets.length ≤ pckHeaderSz
    · exact .inr hlen
    · exact .inl (h.metaSize.trans (if_neg hlen))
  obtain ⟨hmeta, -, hmodules⟩ := h.divided_at hinf hsize
  exact ⟨hmeta, hmodules⟩

/-- **Every cut of a package is split alike.** The blocks of a package shorter than `2 ^ 32`
    octets, whose compressed part inflates, are all accepted; the header, the octets hashed
    and inflated, the meta data and the module data are what the package as a whole fixes. -/
theorem package_split (hinf : inf.Streams InflateFailed Valid data Rep) {fuel : Nat}
    {blocks : List Block} {w : World} (hne : ∀ block ∈ blocks, block.octets ≠ [])
    (hlt : (package blocks).length < 2 ^ 32)
    (hvalid : Valid ((package blocks).drop pckHeaderSz))
    (hlisted : ModuleListed parseMetaData (metaSizeOf (package blocks))
      (data ((package blocks).drop pckHeaderSz)))
    (hcalm : w.Calm) (hlog : w.log = [])
    (hfuel : (data ((package blocks).drop pckHeaderSz)).length < fuel) :
    ∃ results u w', feed parseMetaData fuel (OtaUnpacker.ready : OtaUnpacker inf) w blocks =
        (results, u, w') ∧
      (∀ res ∈ results, res = .ret duerOk) ∧
      SplitExactly (package blocks) (data ((package blocks).drop pckHeaderSz)) u w' := by
  obtain ⟨results, u, w', hfeed, hall, hhashed, hdone⟩ := feed_spec hinf hlt hvalid hlisted hfuel
    blocks (List.nil_append _) hne rfl hashed_init (decompressed_init hinf hcalm hlog)
  obtain ⟨hmeta, hmodules⟩ := hdone.at_metaSizeOf hinf
  exact ⟨results, u, w', hfeed, hall, hhashed.stored, hhashed.header, hhashed.sha1, hdone.input,
    hmeta, hmodules, hdone.delivered.contiguous⟩

/-! ## Two blocks -/

/-- A package cut in two. -/
def twoBlocks (octets : List UInt8) (n : Nat) : List Block :=
  [⟨[], octets.take n⟩, ⟨[], octets.drop n⟩]

theorem package_twoBlocks (octets : List UInt8) (n : Nat) :
    package (twoBlocks octets n) = octets := by
  simp [package, twoBlocks]

theorem feed_twoBlocks {fuel : Nat} {u u' u'' : OtaUnpacker inf} {w w' w'' : World}
    {octets : List UInt8} {n : Nat} {res res' : Result}
    (hfirst : duerOtaUnpackDecompressData parseMetaData fuel u w [] (octets.take n) =
      (res, u', w'))
    (hsecond : duerOtaUnpackDecompressData parseMetaData fuel u' w' [] (octets.drop n) =
      (res', u'', w'')) :
    feed parseMetaData fuel u w (twoBlocks octets n) = ([res, res'], u'', w'') := by
  simp only [feed, twoBlocks, hfirst, hsecond]

theorem twoBlocks_ne {octets : List UInt8} {n : Nat} (hpos : 0 < n) (hn : n < octets.length) :
    ∀ block ∈ twoBlocks octets n, block.octets ≠ [] := by
  intro block hblock
  rcases List.mem_pair.mp hblock with rfl | rfl
  · exact List.ne_nil_of_length_pos (by rw [List.length_take]; omega)
  · exact List.ne_nil_of_length_pos (by rw [List.length_drop]; omega)

/-- The sample package, cut behind its header. -/
theorem package_split_at_300 :
    ∃ results u w', feed sampleParseMetaData 100
        (OtaUnpacker.ready : OtaUnpacker (storedInflate (sampleStream 0) 85)) ⟨[], [], []⟩
        (twoBlocks (samplePackage 0) 300) = (results, u, w') ∧
      (∀ res ∈ results, res = .ret duerOk) ∧
      SplitExactly (package (twoBlocks (samplePackage 0) 300)) (storedDecode 85
        ((package (twoBlocks (samplePackage 0) 300)).drop pckHeaderSz)) u w' :=
  package_split
    (storedInflate_streams (by rw [sampleStream_length]; decide))
    (twoBlocks_ne (by decide) (by rw [samplePackage_length]; decide))
    (by rw [package_twoBlocks, samplePackage_length]; decide)
    ⟨[], by rw [package_twoBlocks, samplePackage_drop, List.append_nil]⟩
    (fun _ _ => ⟨_, rfl, by decide⟩) ⟨by simp, by simp⟩ rfl
    (Nat.lt_of_le_of_lt (List.length_take_le _ _) (by decide))

/-- Once the octets received are counted beyond `2 ^ 32`, a block is taken for a part of the
    header and not inflated. -/
theorem decompressProcess_wrapped (parseMetaData : List UInt8 → Bool → Option PackageMetaData)
    (fuel : Nat) (verify : VerificationContext) {ctx : DecompressContext inf} {w : World}
    {s block : List UInt8} (below : List UInt8) (registered : Bool)
    (h : Decompressed data Rep s ctx w) (hne : block ≠ [])
    (hwrap : u32 (s.length + block.length) ≤ pckHeaderSz) :
    mbedZlibstreamDecompressProcess parseMetaData fuel verify registered ctx w below block =
      (.ret 0, { ctx with streamRecievedSz := u32 (ctx.streamRecievedSz + block.length) }, w) := by
  rw [mbedZlibstreamDecompressProcess, if_neg hne]
  exact if_pos (h.recieved ▸ hwrap)

/-- A package of `2 ^ 32` octets, the last of them in a block of its own: this octet is hashed,
    but not inflated. -/
theorem feed_wrapped (hinf : inf.Streams InflateFailed Valid data Rep) {fuel : Nat}
    {octets : List UInt8} {w : World} (hlen : octets.length = 2 ^ 32)
    (hvalid : Valid (octets.drop pckHeaderSz))
    (hlisted : ModuleListed parseMetaData (metaSizeOf octets) (data (octets.drop pckHeaderSz)))
    (hcalm : w.Calm) (hlog : w.log = [])
    (hfuel : (data (octets.drop pckHeaderSz)).length < fuel) :
    ∃ results u w', feed parseMetaData fuel (OtaUnpacker.ready : OtaUnpacker inf) w
        (twoBlocks octets (2 ^ 32 - 1)) = (results, u, w') ∧
      inflateInput w'.log ≠ octets.drop pckHeaderSz := by
  generalize hn : 2 ^ 32 - 1 = n
  have hpart : (octets.take n).length = n := by rw [List.length_take]; omega
  have hlast : (octets.drop n).length = 1 := by rw [List.length_drop]; omega
  have hheader : pckHeaderSz < (octets.take n).length := by
    rw [hpart, ← hn]
    decide
  have hdrop := drop_isPrefix pckHeaderSz ( List.take_prefix n octets)
  obtain ⟨u, w', hfirst, hu, hhashed, hdone⟩ := decompressData_spec hinf (s := []) []
    (u := OtaUnpacker.ready) rfl hashed_init (decompressed_init hinf hcalm hlog)
    (show octets.take n ≠ [] from List.ne_nil_of_length_pos (by omega))
    (by rw [List.nil_append, hpart]; omega) (hinf.valid_of_part hdrop hvalid)
    (hinf.data_mono hdrop hvalid) (fun _ => by
      have hsame := metaSizeOf_append (octets.drop n) (Nat.le_of_lt hheader)
      rw [List.take_append_drop] at hsame
      rwa [List.nil_append, ← hsame]) hfuel
  rw [List.nil_append] at hhashed hdone
  have hstored : u.verification.streamSigStoredSz = pckHeaderSz :=
    hhashed.stored.trans (Nat.min_eq_right (Nat.le_of_lt hheader))
  have hlastCall := decompressData_eq (mbedHashUpdateKey_behind (octets.drop n) hstored)
    (decompressProcess_wrapped parseMetaData fuel _ [] u.registered
      (hdone.record (.data (octets.drop n)) rfl rfl) (List.ne_nil_of_length_pos (by omega))
      (by
        rw [hpart, hlast, ← hn, u32]
        decide))
  refine ⟨_, _, _, feed_twoBlocks hfirst hlastCall, fun hall => ?_⟩
  have hinput : inflateInput ((w'.record (.data (octets.drop n))).returned
      (Result.ret 0).toStatus).log = inflateInput w'.log := by
    simp [World.record, World.returned, Result.toStatus, inflateInput]
  rw [hinput, hdone.input] at hall
  have hlengths := congrArg List.length hall
  rw [List.length_drop, List.length_drop, hpart] at hlengths
  unfold pckHeaderSz at hlengths
  omega

/-- The sample package with so many empty blocks that it has `2 ^ 32` octets. -/
theorem package_split_fails_at_two_pow_32 :
    (samplePackage 858993383).length = 2 ^ 32 ∧
      (storedInflate (sampleStream 858993383) 85).Streams InflateFailed
        (· <+: sampleStream 858993383) (storedDecode 85)
        (fun pos fed emitted => fed.length = pos ∧ emitted = storedDecode 85 fed) ∧
      (samplePackage 858993383).drop pckHeaderSz <+: sampleStream 858993383 ∧
      (∀ block ∈ twoBlocks (samplePackage 858993383) (2 ^ 32 - 1), block.octets ≠ []) ∧
      ∃ results u w', feed sampleParseMetaData 100
          (OtaUnpacker.ready : OtaUnpacker (storedInflate (sampleStream 858993383) 85))
          ⟨[], [], []⟩ (twoBlocks (samplePackage 858993383) (2 ^ 32 - 1)) = (results, u, w') ∧
        inflateInput w'.log ≠ (samplePackage 858993383).drop pckHeaderSz := by
  have hempties : 381 + 5 * 858993383 = 2 ^ 32 := by decide
  generalize 858993383 = empties at hempties
  have hlen := (samplePackage_length empties).trans hempties
  have hstreams : (storedInflate (sampleStream empties) 85).Streams InflateFailed
      (· <+: sampleStream empties) (storedDecode 85)
      (fun pos fed emitted => fed.length = pos ∧ emitted = storedDecode 85 fed) :=
    storedInflate_streams (by rw [sampleStream_length]; unfold storedOffset; omega)
  have hvalid : (samplePackage empties).drop pckHeaderSz <+: sampleStream empties :=
    ⟨[], by rw [samplePackage_drop, List.append_nil]⟩
  exact ⟨hlen, hstreams, hvalid, twoBlocks_ne (by decide) (by rw [hlen]; decide),
    feed_wrapped hstreams hlen hvalid (fun _ _ => ⟨_, rfl, by decide⟩) ⟨by simp, by simp⟩ rfl
      (Nat.lt_of_le_of_lt (List.length_take_le _ _) (by decide))⟩

end Package

end Ota
end LightDuer
