import LightDuer.Ota.MetaData
import LightDuer.Ota.Splitting
import LightDuer.Ota.Window

/-!
# The metadata of a run of the decompressor

`MetaData.Sys` knows of `mbed_zlibstream_decompress_process` only what matters for the meta region:
where the octets go that inflate gives. This file connects it with the decompressor of the unpacker
(`DecompressContext`, `World`), which takes `parse_meta_data` as a parameter: with the parser of
`MetaData` for it (`Parsing.parse`), every call is a run of `Sys`.

## The relation

`Runs` relates the two states, over the octets that inflate has given so far. `Sys` keeps positions
in them, so what the decompressor has stored and handed over is read off at these positions
(`octetsAt`); the metadata of which it has notified is that of `Sys`, with what was in memory for
the fields that nobody has written (`Parsing.module`).

## What is proved

`storeMetaData_runs` is one output, `inflateLoop_runs` one window and `process_runs` one call. A
call ends with a fault exactly where `Sys` is `Dead`. `stream_runs` is the theorem for whole runs:
every context that calls can lead to is that of a reachable state of `Sys`, so what `MetaData`
proves of these (`safe_runs`) is proved of the decompressor.
-/

set_option autoImplicit false

namespace LightDuer
namespace Ota
namespace MetaData

open Lib

/-! ## The parser -/

/-- `parse_meta_data` with all its allocations, and without one of them; and what a module of the
    list becomes, whose fields need not have been written. -/
structure Parsing where
  granted : Env
  refused : Env
  module : MetaModule → ModuleInfo

namespace Parsing

variable (e : Parsing)

/-- The surroundings, where the allocations are granted or not. -/
def env (ok : Bool) : Env := if ok then e.granted else e.refused

/-- What is handed over. -/
def package (info : MetaInfo) : PackageMetaData :=
  ⟨info.packageName, (info.moduleList.getD []).map e.module⟩

/-- `parse_meta_data`, for the unpacker. -/
def parse (region : List UInt8) (ok : Bool) : Option PackageMetaData :=
  match parseMetaData (e.env ok) region with
  | .parsed info => some (e.package info)
  | _ => none

end Parsing

/-! ## The relation -/

/-- The octets at some positions. -/
def octetsAt (octets : List UInt8) (positions : List Nat) : List UInt8 :=
  positions.map fun p => octets.getD p 0

/-- What has been notified of. -/
def metaInfos (log : List Event) : List PackageMetaData :=
  log.filterMap fun
    | .notifyMetaData info _ => some info
    | _ => none

@[simp] theorem metaInfos_append (a b : List Event) :
    metaInfos (a ++ b) = metaInfos a ++ metaInfos b := List.filterMap_append

@[simp] theorem octetsAt_append (octets : List UInt8) (ps qs : List Nat) :
    octetsAt octets (ps ++ qs) = octetsAt octets ps ++ octetsAt octets qs := List.map_append

/-- Positions in front of the end are not moved by what comes behind it. -/
theorem octetsAt_behind {octets : List UInt8} (out : List UInt8) {ps : List Nat}
    (h : ∀ p ∈ ps, p < octets.length) : octetsAt (octets ++ out) ps = octetsAt octets ps := by
  refine List.map_congr_left fun p hp => ?_
  rw [List.getD_eq_getElem?_getD, List.getD_eq_getElem?_getD, List.getElem?_append_left (h p hp)]

/-- The octets of an output, from one of them on. -/
theorem octetsAt_range' (octets out : List UInt8) (k n : Nat) (h : k + n ≤ out.length) :
    octetsAt (octets ++ out) (List.range' (octets.length + k) n) = (out.drop k).take n := by
  refine List.ext_getElem ?_ fun i hi hi' => ?_
  · rw [octetsAt, List.length_map, List.length_range', List.length_take, List.length_drop]
    omega
  · rw [octetsAt, List.length_map, List.length_range'] at hi
    simp only [octetsAt, List.getElem_map, List.getElem_range', List.getElem_take,
      List.getElem_drop]
    rw [List.getD_eq_getElem?_getD, List.getElem?_append_right (by omega),
      List.getElem?_eq_getElem (by omega), Option.getD_some]
    congr 1
    omega

section Relation

variable {inf : Decoder UInt8 UInt8}

/-- **A state of `Sys` is that of the decompressor**: `octets` are those that inflate has given, of
    which `Sys` has counted `total`. -/
structure Runs (e : Parsing) (octets : List UInt8) (s : Sys) (ctx : DecompressContext inf)
    (w : World) : Prop where
  metaSize : s.metaSize = ctx.metaSize
  metaData : s.metaData = ctx.metaData
  unstored : s.metaSize = 0 → s.stored = []
  stored : octetsAt octets s.stored = ctx.metaData
  delivered : octetsAt octets s.delivered = moduleData w.log
  notified : s.notified.map e.package = metaInfos w.log
  inside : ∀ p ∈ s.stored ++ s.delivered, p < octets.length

variable {e : Parsing} {octets out : List UInt8} {s : Sys} {ctx ctx' : DecompressContext inf}
  {w w' : World} {registered : Bool}

/-- What the relation is about is left as it is. -/
theorem Runs.keep (h : Runs e octets s ctx w) (hsize : ctx'.metaSize = ctx.metaSize)
    (hdata : ctx'.metaData = ctx.metaData) (hmodules : moduleData w'.log = moduleData w.log)
    (hinfos : metaInfos w'.log = metaInfos w.log) : Runs e octets s ctx' w' :=
  ⟨h.metaSize.trans hsize.symm, h.metaData.trans hdata.symm, h.unstored,
    h.stored.trans hdata.symm, h.delivered.trans hmodules.symm, h.notified.trans hinfos.symm,
    h.inside⟩

theorem Runs.behind (h : Runs e octets s ctx w) (out : List UInt8) :
    Runs e (octets ++ out) s ctx w where
  metaSize := h.metaSize
  metaData := h.metaData
  unstored := h.unstored
  stored := (octetsAt_behind out fun p hp => h.inside p (List.mem_append_left _ hp)).trans h.stored
  delivered := (octetsAt_behind out fun p hp =>
    h.inside p (List.mem_append_right _ hp)).trans h.delivered
  notified := h.notified
  inside p hp := by
    rw [List.length_append]
    exact Nat.lt_of_lt_of_le (h.inside p hp) (Nat.le_add_right _ _)

/-- The meta part of an output is stored. -/
theorem Runs.store (h : Runs e octets s ctx w) (out : List UInt8) (htotal : s.total = octets.length)
    (hlt : s.metaData.length < s.metaSize) :
    Runs e (octets ++ out) (s.store out)
      { ctx with metaData := ctx.metaData ++
          out.take (min out.length (ctx.metaSize - ctx.metaData.length)) } w := by
  have hbehind := h.behind out
  have hpart := octetsAt_range' octets out 0 (min out.length (ctx.metaSize - ctx.metaData.length))
    (by omega)
  rw [Nat.add_zero, List.drop_zero] at hpart
  refine ⟨h.metaSize, ?_, ?_, ?_, hbehind.delivered, h.notified, ?_⟩
  · show s.metaData ++ out.take (min out.length (s.metaSize - s.metaData.length)) = _
    rw [h.metaSize, h.metaData]
  · intro hzero
    have hzero : s.metaSize = 0 := hzero
    omega
  · show octetsAt (octets ++ out) (s.stored ++
      List.range' s.total (min out.length (s.metaSize - s.metaData.length))) = _
    rw [octetsAt_append, hbehind.stored, htotal, h.metaSize, h.metaData, hpart]
  · intro p hp
    have hp : p ∈ (s.stored ++ List.range' s.total (min out.length
      (s.metaSize - s.metaData.length))) ++ s.delivered := hp
    rw [List.mem_append, List.mem_append, or_right_comm, ← List.mem_append] at hp
    rcases hp with hp | hp
    · exact hbehind.inside p hp
    · have hrange := List.mem_range'_1.mp hp
      rw [List.length_append]
      omega

/-- The rest of it is handed over. -/
theorem Runs.deliver (h : Runs e (octets ++ out) s ctx w) (htotal : s.total = octets.length)
    {k : Nat} (hk : k ≤ out.length) (notify : Bool) {ret : Int}
    (hgive : giveModuleData registered ctx w (out.drop k) = (ret, ctx', w')) :
    Runs e (octets ++ out) (s.deliver ⟨notify, registered⟩ k out.length) ctx' w' := by
  have hpart := octetsAt_range' octets out k (out.length - k) (by omega)
  rw [List.take_of_length_le (by rw [List.length_drop])] at hpart
  have hmeta : ctx'.metaSize = ctx.metaSize ∧ ctx'.metaData = ctx.metaData ∧
      metaInfos w'.log = metaInfos w.log ∧
      moduleData w'.log = moduleData w.log ++ if registered then out.drop k else [] := by
    rw [giveModuleData] at hgive
    split at hgive
    · rename_i hcalled
      cases hgive
      refine ⟨rfl, rfl, ?_, ?_⟩
      · simp [metaInfos]
      · simp [moduleData, moduleBlocks, hcalled.2]
    · rename_i hcalled
      cases hgive
      refine ⟨rfl, rfl, rfl, ?_⟩
      cases registered with
      | false => simp
      | true =>
        have hnil : out.drop k = [] := by simpa using hcalled
        simp [hnil]
  obtain ⟨hsize, hdata, hinfos, hmodules⟩ := hmeta
  refine ⟨h.metaSize.trans hsize.symm, h.metaData.trans hdata.symm, h.unstored,
    h.stored.trans hdata.symm, ?_, h.notified.trans hinfos.symm, ?_⟩
  · rw [hmodules, ← h.delivered, Sys.deliver]
    cases registered with
    | false => simp
    | true =>
      simp only [if_true]
      rw [octetsAt_append, htotal, hpart]
  · intro p hp
    have hp : p ∈ s.stored ++ if registered then s.delivered ++
        List.range' (s.total + k) (out.length - k) else s.delivered := hp
    cases registered with
    | false => exact h.inside p hp
    | true =>
      simp only [if_true] at hp
      rw [← List.append_assoc, List.mem_append] at hp
      rcases hp with hp | hp
      · exact h.inside p hp
      · have hrange := List.mem_range'_1.mp hp
        rw [List.length_append]
        omega

/-- `Sys` counts the octets that it has been given. -/
theorem Runs.passed (h : Runs e octets s ctx w) (n : Nat) :
    Runs e octets { s with total := s.total + n } ctx w :=
  ⟨h.metaSize, h.metaData, h.unstored, h.stored, h.delivered, h.notified, h.inside⟩

/-! ## One output -/

theorem parsed_total {u : Updater} {env : Env} : (s.parsed u env).total = s.total := by
  rw [Sys.parsed]
  split
  · rfl
  · rfl
  · split
    · rfl
    · split <;> rfl

/-- What is done with the complete region: a fault is the end of `Sys`, and a callback that fails
    the end of the call. -/
theorem handleMetaData_runs (h : Runs e octets s ctx w) (halive : ¬s.Dead) {res : Option Result}
    (hhandle : handleMetaData e.parse registered ctx.metaData w = (res, w')) :
    ∃ env ret, Runs e octets (s.parsed ⟨registered, registered⟩ env) ctx w' ∧
      (res = some .fault ∧ (s.parsed ⟨registered, registered⟩ env).Dead ∨
        ¬(s.parsed ⟨registered, registered⟩ env).Dead ∧
          (res = none ∧ ¬(registered = true ∧ ret ≠ 0) ∨
            res = some (.ret ret) ∧ registered = true ∧ ret ≠ 0)) := by
  have hmalloc : Runs e octets s ctx (w.malloc .json).2 :=
    h.keep rfl rfl (by simp [World.malloc, moduleData, moduleBlocks])
      (by simp [World.malloc, metaInfos])
  rw [handleMetaData] at hhandle
  generalize w.malloc .json = run at hhandle hmalloc
  obtain ⟨ok, w₁⟩ := run
  simp only at hhandle hmalloc
  refine ⟨e.env ok, w₁.rets.headD 0, ?_⟩
  rw [Sys.parsed]
  rw [Parsing.parse, ← h.metaData] at hhandle
  cases hparse : parseMetaData (e.env ok) s.metaData with
  | outside =>
    rw [hparse] at hhandle
    cases hhandle
    exact ⟨⟨hmalloc.metaSize, hmalloc.metaData, hmalloc.unstored, hmalloc.stored,
      hmalloc.delivered, hmalloc.notified, hmalloc.inside⟩, .inl ⟨rfl, .inl rfl⟩⟩
  | fault =>
    rw [hparse] at hhandle
    cases hhandle
    exact ⟨⟨hmalloc.metaSize, hmalloc.metaData, hmalloc.unstored, hmalloc.stored,
      hmalloc.delivered, hmalloc.notified, hmalloc.inside⟩, .inl ⟨rfl, .inr (.inl rfl)⟩⟩
  | parsed info =>
    rw [hparse] at hhandle
    simp only at hhandle ⊢
    cases hms : info.moduleList with
    | none =>
      rw [if_pos (by simp [Parsing.package, hms])] at hhandle
      cases hhandle
      exact ⟨⟨hmalloc.metaSize, hmalloc.metaData, hmalloc.unstored, hmalloc.stored,
        hmalloc.delivered, hmalloc.notified, hmalloc.inside⟩, .inl ⟨rfl, .inr (.inr rfl)⟩⟩
    | some ms =>
      have hne : (e.package info).moduleList ≠ [] := by
        simpa [Parsing.package, hms] using (parseMetaData_types hparse hms).1
      rw [if_neg hne] at hhandle
      cases registered with
      | false =>
        cases hhandle
        exact ⟨hmalloc, .inr ⟨halive, .inl ⟨rfl, by simp⟩⟩⟩
      | true =>
        simp only [if_true, World.call] at hhandle ⊢
        cases hhandle
        refine ⟨⟨hmalloc.metaSize, hmalloc.metaData, hmalloc.unstored, hmalloc.stored, ?_, ?_,
          hmalloc.inside⟩, .inr ⟨halive, ?_⟩⟩
        · rw [moduleData_append]
          exact hmalloc.delivered.trans (List.append_nil _).symm
        · rw [metaInfos_append, ← hmalloc.notified, List.map_append]
          rfl
        · by_cases hret : w₁.rets.headD 0 = 0
          · exact .inl ⟨if_neg (not_not_intro hret), fun hfailed => hfailed.2 hret⟩
          · exact .inr ⟨if_pos hret, trivial, hret⟩

/-- **One output**: the two parts of it, for some surroundings and some result of the callback.
    `Sys` takes an output in one step where the decompressor has two functions, so what the first of
    them leaves is not compared. -/
theorem storeMetaData_runs (h : Runs e octets s ctx w) (htotal : s.total = octets.length)
    (halive : ¬s.Dead) {res : Option Result} {copied : Nat}
    (hstore : storeMetaData e.parse registered ctx w out = (res, copied, ctx', w')) :
    ∃ env ret,
      (∀ r, res = some r →
        Runs e (octets ++ out) (s.inflated ⟨registered, registered⟩ out env ret) ctx' w' ∧
          (r = .fault ↔ (s.inflated ⟨registered, registered⟩ out env ret).Dead)) ∧
      (res = none → ∀ ret' ctx₂ w₂,
        giveModuleData registered ctx' w' (out.drop copied) = (ret', ctx₂, w₂) →
        Runs e (octets ++ out) (s.inflated ⟨registered, registered⟩ out env ret) ctx₂ w₂ ∧
          ¬(s.inflated ⟨registered, registered⟩ out env ret).Dead) := by
  rw [storeMetaData] at hstore
  by_cases hlt : s.metaData.length < s.metaSize
  · rw [if_pos (h.metaSize ▸ h.metaData ▸ hlt)] at hstore
    simp only at hstore
    have hstored := h.store out htotal hlt
    have htotal' : (s.store out).total = octets.length := htotal
    have halive' : ¬(s.store out).Dead := halive
    have hcopied : min out.length (s.metaSize - s.metaData.length) =
        min out.length (ctx.metaSize - ctx.metaData.length) := by rw [h.metaSize, h.metaData]
    have hlength : (ctx.metaData ++ out.take (min out.length
        (ctx.metaSize - ctx.metaData.length))).length = ctx.metaSize ↔ s.completes out := by
      rw [List.length_append, List.length_take, ← h.metaSize, ← h.metaData, Sys.completes]
      omega
    by_cases hc : s.completes out
    · rw [if_pos (hlength.mpr hc)] at hstore
      generalize hhandle : handleMetaData e.parse registered _ w = run at hstore
      obtain ⟨res₁, w₁⟩ := run
      obtain ⟨env, ret, hparsed, hends⟩ := handleMetaData_runs hstored halive' hhandle
      cases hstore
      refine ⟨env, ret, ?_⟩
      rw [Sys.inflated_of_completes hc, hcopied, Sys.finish]
      rcases hends with ⟨rfl, hdead⟩ | ⟨hsafe, ⟨rfl, hret⟩ | ⟨rfl, hret⟩⟩
      · rw [if_pos (.inl hdead)]
        refine ⟨fun r hr => ?_, by simp⟩
        obtain rfl := Option.some.inj hr
        exact ⟨hparsed.passed out.length, iff_of_true rfl hdead⟩
      · rw [if_neg (by simp [hsafe, hret])]
        refine ⟨by simp, fun _ ret' ctx₂ w₂ hgive => ?_⟩
        exact ⟨hparsed.deliver (parsed_total.trans htotal') (Nat.min_le_left _ _) _ hgive, hsafe⟩
      · rw [if_pos (.inr hret)]
        refine ⟨fun r hr => ?_, by simp⟩
        obtain rfl := Option.some.inj hr
        exact ⟨hparsed.passed out.length, iff_of_false (by simp) hsafe⟩
    · rw [if_neg (fun hfull => hc (hlength.mp hfull))] at hstore
      cases hstore
      refine ⟨e.granted, 0, by simp, fun _ ret' ctx₂ w₂ hgive => ?_⟩
      rw [Sys.inflated_of_stores hlt hc, hcopied]
      exact ⟨hstored.deliver htotal' (Nat.min_le_left _ _) _ hgive, halive'⟩
  · rw [if_neg (h.metaSize ▸ h.metaData ▸ hlt)] at hstore
    cases hstore
    refine ⟨e.granted, 0, by simp, fun _ ret' ctx₂ w₂ hgive => ?_⟩
    rw [Sys.inflated_of_full hlt]
    exact ⟨(h.behind out).deliver htotal (Nat.zero_le _) _ hgive, halive⟩

/-! ## Windows, calls and runs -/

theorem inflated_total {u : Updater} {env : Env} {ret : Int} :
    (s.inflated u out env ret).total = s.total + out.length := by
  by_cases hlt : s.metaData.length < s.metaSize
  · by_cases hc : s.completes out
    · rw [Sys.inflated_of_completes hc, Sys.finish]
      split <;> exact congrArg (· + out.length) (parsed_total (s := s.store out))
    · rw [Sys.inflated_of_stores hlt hc]
      rfl
  · rw [Sys.inflated_of_full hlt]
    rfl

/-- A reachable state of `Sys` that is that of the decompressor, for a header with `size`. -/
structure Follows (e : Parsing) (size : Nat) (registered : Bool) (octets : List UInt8) (s : Sys)
    (ctx : DecompressContext inf) (w : World) : Prop extends Runs e octets s ctx w where
  reached : Reachable Sys.init (Sys.step size ⟨registered, registered⟩) s
  total : s.total = octets.length

variable {size : Nat}

theorem Follows.inflated (h : Follows e size registered octets s ctx w) (halive : ¬s.Dead)
    {env : Env} {ret : Int}
    (hruns : Runs e (octets ++ out) (s.inflated ⟨registered, registered⟩ out env ret) ctx' w') :
    Follows e size registered (octets ++ out) (s.inflated ⟨registered, registered⟩ out env ret)
      ctx' w' where
  toRuns := hruns
  reached := h.reached.next trivial
    (show Sys.step size _ s (.inflated out env ret) = _ from if_neg halive)
  total := by rw [inflated_total, h.total, List.length_append]

theorem Follows.keep (h : Follows e size registered octets s ctx w)
    (hsize : ctx'.metaSize = ctx.metaSize) (hdata : ctx'.metaData = ctx.metaData)
    (hmodules : moduleData w'.log = moduleData w.log)
    (hinfos : metaInfos w'.log = metaInfos w.log) :
    Follows e size registered octets s ctx' w' :=
  ⟨h.toRuns.keep hsize hdata hmodules hinfos, h.reached, h.total⟩

theorem Follows.record (h : Follows e size registered octets s ctx w) (event : Event)
    (hmodules : moduleBlocks [event] = []) (hinfos : metaInfos [event] = []) :
    Follows e size registered octets s ctx (w.record event) :=
  h.keep rfl rfl
    (by rw [World.record, moduleData, moduleBlocks_append, hmodules, List.append_nil]; rfl)
    (by rw [World.record, metaInfos_append, hinfos, List.append_nil])

/-- Inflate gives octets and does nothing with them. -/
theorem Follows.inflate (h : Follows e size registered octets s ctx w) (nextIn : List UInt8) :
    Follows e size registered octets s (inflate ctx w nextIn).2.2.2.1
      (inflate ctx w nextIn).2.2.2.2 := by
  rw [LightDuer.Ota.inflate]
  cases ctx.strm with
  | none => exact h.record _ rfl rfl
  | some st => exact (h.record _ rfl rfl).keep rfl rfl rfl rfl

/-- **A window**: the loop ends with a fault exactly where `Sys` is at its end. The induction is on
    the fuel, with one output after another. -/
theorem inflateLoop_runs {bufferSZ : Nat} (fuel : Nat) {nextIn : List UInt8} {res : Result}
    (h : Follows e size registered octets s ctx w) (halive : ¬s.Dead)
    (hloop : inflateLoop e.parse registered bufferSZ fuel ctx w nextIn = (res, ctx', w')) :
    ∃ octets' s', Follows e size registered octets' s' ctx' w' ∧ (res = .fault ↔ s'.Dead) := by
  induction fuel generalizing octets s ctx w nextIn with
  | zero =>
    cases hloop
    exact ⟨octets, s, h, iff_of_false (by simp) halive⟩
  | succ fuel ih =>
    have hinflate := h.inflate nextIn
    rw [inflateLoop] at hloop
    generalize inflate ctx w nextIn = run at hloop hinflate
    obtain ⟨ret, rest, out, ctx₁, w₁⟩ := run
    simp only at hloop hinflate
    by_cases hfailed : InflateFailed ret
    · rw [if_pos hfailed] at hloop
      cases hloop
      exact ⟨octets, s, hinflate.keep rfl rfl rfl rfl, iff_of_false (by simp) halive⟩
    · rw [if_neg hfailed] at hloop
      generalize hstore : storeMetaData e.parse registered ctx₁ w₁ out = run at hloop
      obtain ⟨res₁, copied, ctx₂, w₂⟩ := run
      obtain ⟨env, cbret, hended, hgiven⟩ :=
        storeMetaData_runs hinflate.toRuns hinflate.total halive hstore
      cases res₁ with
      | some r =>
        cases hloop
        obtain ⟨hruns, hdead⟩ := hended res rfl
        exact ⟨_, _, hinflate.inflated halive hruns, hdead⟩
      | none =>
        simp only at hloop
        generalize hgive : giveModuleData registered ctx₂ w₂ (out.drop copied) = run at hloop
        obtain ⟨ret', ctx₃, w₃⟩ := run
        obtain ⟨hruns, halive'⟩ := hgiven rfl ret' ctx₃ w₃ hgive
        have hfollows := hinflate.inflated halive hruns
        simp only at hloop
        split at hloop
        · cases hloop
          exact ⟨_, _, hfollows, iff_of_false (by simp) halive'⟩
        · split at hloop
          · exact ih hfollows halive' hloop
          · cases hloop
            exact ⟨_, _, hfollows.keep rfl rfl rfl rfl, iff_of_false (by simp) halive'⟩

/-- The header's size is taken. -/
theorem takeMetaSize_runs {verify : VerificationContext} (hsize : verify.metaSize = size)
    (h : Follows e size registered octets s ctx w) (halive : ¬s.Dead) :
    ∃ s', Follows e size registered octets s' (takeMetaSize verify ctx w).1
      (takeMetaSize verify ctx w).2 ∧ ¬s'.Dead := by
  rw [takeMetaSize]
  split
  · rename_i htake
    have hmalloc : Runs e octets s ctx (w.malloc .metaData).2 :=
      h.toRuns.keep rfl rfl (by simp [World.malloc, moduleData, moduleBlocks])
        (by simp [World.malloc, metaInfos])
    generalize w.malloc .metaData = run at hmalloc
    obtain ⟨ok, w₁⟩ := run
    cases ok with
    | false => exact ⟨s, ⟨hmalloc, h.reached, h.total⟩, halive⟩
    | true =>
      have hzero : s.metaSize = 0 := h.metaSize.trans htake.1
      have hstep : Sys.step size ⟨registered, registered⟩ s (.block true) =
          some { s with metaSize := size, metaData := [] } := by
        rw [Sys.step, if_neg halive, if_pos ⟨hzero, hsize ▸ htake.2, rfl⟩]
      have hnone := hmalloc.unstored hzero
      refine ⟨{ s with metaSize := size, metaData := [] }, ⟨⟨hsize.symm, rfl, fun _ => hnone, ?_,
        hmalloc.delivered, hmalloc.notified, hmalloc.inside⟩, h.reached.next trivial hstep,
        h.total⟩, halive⟩
      show octetsAt octets s.stored = []
      rw [hnone]
      rfl
  · exact ⟨s, h, halive⟩

/-- **A call** of `mbed_zlibstream_decompress_process`. It may also end with a fault when its window
    is in front of the block. -/
theorem process_runs {fuel : Nat} {verify : VerificationContext} {below buffer : List UInt8}
    {res : Result} (h : Follows e size registered octets s ctx w) (halive : ¬s.Dead)
    (hsize : pckHeaderSz < u32 (ctx.streamRecievedSz + buffer.length) → verify.metaSize = size)
    (hprocess : mbedZlibstreamDecompressProcess e.parse fuel verify registered ctx w below buffer =
      (res, ctx', w')) :
    ∃ octets' s', Follows e size registered octets' s' ctx' w' ∧ (s'.Dead → res = .fault) := by
  rw [mbedZlibstreamDecompressProcess] at hprocess
  split at hprocess
  · cases hprocess
    exact ⟨octets, s, h, fun hdead => absurd hdead halive⟩
  · simp only at hprocess
    have hcounted : Follows e size registered octets s { ctx with
        streamRecievedSz := u32 (ctx.streamRecievedSz + buffer.length) } w :=
      h.keep rfl rfl rfl rfl
    split at hprocess
    · cases hprocess
      exact ⟨octets, s, hcounted, fun hdead => absurd hdead halive⟩
    · rename_i hbehind
      split at hprocess
      · cases hprocess
        exact ⟨octets, s, hcounted, fun hdead => absurd hdead halive⟩
      · rename_i input hinput
        obtain ⟨s', hfollows, halive'⟩ :=
          takeMetaSize_runs (hsize (Nat.lt_of_not_le hbehind)) hcounted halive
        have hwindow := hfollows.record (.window input) rfl rfl
        obtain ⟨octets', s'', hfollows', hdead⟩ := inflateLoop_runs fuel hwindow halive' hprocess
        exact ⟨octets', s'', hfollows', hdead.mpr⟩

/-- The calls for one package: the header has `size`, and what is registered stays. -/
def ForPackage (size : Nat) (registered : Bool) (s : Stream inf) (call : Call) : Prop :=
  call.registered = registered ∧
    (pckHeaderSz < (s.recieved call).streamRecievedSz → call.verify.metaSize = size)

/-- **The decompressor runs as `Sys` does**: what calls have stored and handed over is what a
    reachable state of `Sys` has, at its positions in the octets that inflate has given. -/
theorem stream_runs (e : Parsing) (size : Nat) (registered : Bool) {s : Stream inf}
    (h : ReachableBy (fun s : Stream inf => s.init ∧ s.world.log = []) (Stream.step e.parse)
      (ForPackage size registered) s) :
    ∃ octets sys, Follows e size registered octets sys s.ctx s.world ∧ ¬sys.Dead := by
  refine h.invariant (fun s => ∃ octets sys, Follows e size registered octets sys s.ctx s.world ∧
    ¬sys.Dead) ?_ ?_
  · rintro s ⟨⟨hctx, -, -⟩, hlog⟩
    refine ⟨[], Sys.start, ⟨⟨?_, ?_, fun _ => rfl, ?_, ?_, ?_, by simp [Sys.start]⟩, .start rfl,
      rfl⟩, by simp [Sys.Dead, Sys.start]⟩
    all_goals first | rw [hctx]; rfl | rw [hlog]; rfl
  · rintro s s' call ⟨octets, sys, hfollows, halive⟩ ⟨hregistered, hsize⟩ hstep
    obtain ⟨code, ctx', w', hprocess, rfl⟩ := Stream.step_eq_some.mp hstep
    rw [Stream.process, hregistered] at hprocess
    obtain ⟨octets', sys', hfollows', hdead⟩ := process_runs hfollows halive hsize hprocess
    exact ⟨octets', sys', hfollows', fun hd => by cases hdead hd⟩

end Relation

end MetaData
end Ota
end LightDuer
