import LightDuer.Ota.Update

/-!
# What an update records

Every function of the unpacker and the updater only adds to the log. `Adds` says so of one call,
with the events added. From it: the steps in the log of an update are those it comes to, and a block
whose handling returns has been accepted exactly if no call made for it failed.

## Kinds of events

The functions are nested, and each layer adds events of its own kind: the loop of the decompressor
(`Event.InLoop`), the call around it (`Event.InProcess`), a step of the update (`Event.Inner`). A
statement about a step can so be read off an event's kind, without a look at what the functions
below have done. `Adds` also keeps account of the answers of the surroundings, the allocations and
the results of callbacks: an answer that is a failure is still to come, or it has been given and is
in the log.

## What a call reports

`Reports` connects the result of the decompressor with what it has added: it is a success exactly if
no call that was made failed. `Faithful` says the same of a whole list of events, block after block.
Each function has one lemma, from the output of inflate up to the steps of an update, and each is
put together from the lemmas of the functions it calls.
-/

set_option autoImplicit false

namespace LightDuer
namespace Ota

open Lib

/-! ## Kinds of events -/

/-- An event inside `mbed_zlibstream_decompress_process`. -/
def Event.InProcess : Event → Prop
  | .malloc .. | .window _ | .inflate _ | .notifyMetaData .. | .notifyModuleData .. => True
  | _ => False

/-- One of them that is not the window. -/
def Event.InLoop : Event → Prop
  | .malloc .. | .inflate _ | .notifyMetaData .. | .notifyModuleData .. => True
  | _ => False

/-- An event inside a step. -/
def Event.Inner : Event → Prop
  | .step _ | .verification .. => False
  | _ => True

/-- A failure of inflate or of a callback on data. -/
def Event.CallFailed : Event → Prop
  | .inflate ret => InflateFailed ret
  | .notifyMetaData _ ret => ret ≠ 0
  | .notifyModuleData _ _ ret => ret ≠ 0
  | _ => False

/-- A refused allocation. -/
def Event.AllocFailed : Event → Prop
  | .malloc _ ok => ok = false
  | _ => False

/-- A failure of a callback on data. -/
def Event.CallbackFailed : Event → Prop
  | .notifyMetaData _ ret => ret ≠ 0
  | .notifyModuleData _ _ ret => ret ≠ 0
  | _ => False

/-- An event that is no answer of the surroundings of the unpacker. -/
def Event.Unasked : Event → Prop
  | .malloc .. | .notifyMetaData .. | .notifyModuleData .. => False
  | _ => True

theorem Event.InProcess.inner {e : Event} (h : e.InProcess) : e.Inner := by
  cases e <;> trivial

theorem Event.InLoop.inProcess {e : Event} (h : e.InLoop) : e.InProcess := by
  cases e <;> trivial

theorem Event.Unasked.not_failed {e : Event} (h : e.Unasked) :
    ¬e.AllocFailed ∧ ¬e.CallbackFailed := by
  cases e <;> first | exact ⟨id, id⟩ | exact h.elim

theorem Event.CallbackFailed.callFailed {e : Event} (h : e.CallbackFailed) : e.CallFailed := by
  cases e <;> first | exact h | exact h.elim

/-- A call that fails is one of inflate or a callback. -/
theorem Event.CallFailed.cases {e : Event} (h : e.CallFailed) :
    (∃ code, e = .inflate code ∧ InflateFailed code) ∨ e.CallbackFailed := by
  cases e with
  | inflate code => exact .inl ⟨code, rfl, h⟩
  | notifyMetaData info ret => exact .inr h
  | notifyModuleData offset data ret => exact .inr h
  | _ => exact h.elim

theorem Event.not_inLoop_window (input : List UInt8) : ¬(Event.window input).InLoop := id

/-- What is added to the log between two worlds. An answer that is a failure is still to come, or
    it has been given and is in the log. -/
structure Adds (P : Event → Prop) (w w' : World) (new : List Event) : Prop where
  log : w'.log = w.log ++ new
  all : ∀ e ∈ new, P e
  refused : false ∈ w.mallocs ↔ false ∈ w'.mallocs ∨ ∃ e ∈ new, e.AllocFailed
  failed : (∃ ret ∈ w.rets, ret ≠ 0) ↔ (∃ ret ∈ w'.rets, ret ≠ 0) ∨ ∃ e ∈ new, e.CallbackFailed

section Adds

variable {P Q : Event → Prop} {w w' w'' : World} {new new' : List Event}

theorem Adds.refl (P : Event → Prop) (w : World) : Adds P w w [] :=
  ⟨(List.append_nil _).symm, by simp, by simp, by simp⟩

theorem exists_mem_append {S : Event → Prop} :
    (∃ e ∈ new ++ new', S e) ↔ (∃ e ∈ new, S e) ∨ ∃ e ∈ new', S e := by
  simp only [List.mem_append, or_and_right, exists_or]

theorem Adds.trans (h : Adds P w w' new) (h' : Adds P w' w'' new') :
    Adds P w w'' (new ++ new') := by
  refine ⟨by rw [h'.log, h.log, List.append_assoc], fun e he => ?_, ?_, ?_⟩
  · rcases List.mem_append.mp he with he | he
    · exact h.all e he
    · exact h'.all e he
  · rw [h.refused, h'.refused, exists_mem_append, or_assoc, or_comm (a := ∃ e ∈ new', _)]
  · rw [h.failed, h'.failed, exists_mem_append, or_assoc, or_comm (a := ∃ e ∈ new', _)]

theorem Adds.mono (h : Adds P w w' new) (hPQ : ∀ e, P e → Q e) : Adds Q w w' new :=
  ⟨h.log, fun e he => hPQ e (h.all e he), h.refused, h.failed⟩

theorem Adds.record (e : Event) (he : P e) (hunasked : e.Unasked) :
    Adds P w (w.record e) [e] := by
  obtain ⟨halloc, hcallback⟩ := hunasked.not_failed
  refine ⟨rfl, by simpa using he, ?_, ?_⟩
  · simp [World.record, halloc]
  · simp [World.record, hcallback]

/-- A callback on data takes the next answer. -/
theorem Adds.call (callback : Int → Event) (he : P (callback (w.call callback).1))
    (hfailed : ∀ ret, (callback ret).CallbackFailed ↔ ret ≠ 0)
    (hcalled : ∀ ret, ¬(callback ret).AllocFailed) :
    Adds P w (w.call callback).2 [callback (w.call callback).1] := by
  refine ⟨rfl, by simpa using he, ?_, ?_⟩
  · simp [World.call, hcalled]
  · simp only [List.mem_singleton, exists_eq_left, hfailed, World.call]
    cases w.rets with
    | nil => simp
    | cons ret rest => simp [or_comm]

theorem Adds.malloc (what : Alloc) (he : P (.malloc what (w.malloc what).1)) :
    Adds P w (w.malloc what).2 [.malloc what (w.malloc what).1] := by
  refine ⟨rfl, by simpa using he, ?_, ?_⟩
  · simp only [List.mem_singleton, exists_eq_left, Event.AllocFailed, World.malloc]
    cases w.mallocs with
    | nil => simp
    | cons ok rest => simp [or_comm, eq_comm]
  · simp [World.malloc, Event.CallbackFailed]

end Adds

/-! ## The decompressor -/

/-- A result of the decompressor tells whether one of the calls it made failed. -/
def Reports (res : Result) (new : List Event) : Prop :=
  ∀ code, res = .ret code → (code = 0 ↔ ∀ e ∈ new, ¬e.CallFailed)

section Decompress

variable {inf : Decoder UInt8 UInt8} {parseMetaData : List UInt8 → Bool → Option PackageMetaData}

theorem takeMetaSize_adds (verify : VerificationContext) (ctx : DecompressContext inf)
    (w : World) : ∃ new, Adds Event.InLoop w (takeMetaSize verify ctx w).2 new ∧
      ∀ e ∈ new, ¬e.CallFailed := by
  unfold takeMetaSize
  split
  · have h : Adds Event.InLoop w (w.malloc .metaData).2 _ := .malloc _ trivial
    refine ⟨[.malloc .metaData (w.malloc .metaData).1], ?_, by simp [Event.CallFailed]⟩
    split
    · rename_i w' hw
      exact (show w' = (w.malloc .metaData).2 by rw [hw]) ▸ h
    · rename_i w' hw
      exact (show w' = (w.malloc .metaData).2 by rw [hw]) ▸ h
  · exact ⟨[], .refl _ _, by simp⟩

/-- inflate adds its code. -/
theorem inflate_adds (ctx : DecompressContext inf) (w : World) (nextIn : List UInt8) :
    Adds Event.InLoop w (inflate ctx w nextIn).2.2.2.2 [.inflate (inflate ctx w nextIn).1] := by
  unfold inflate
  cases ctx.strm with
  | none => exact .record _ trivial trivial
  | some st => exact .record _ trivial trivial

/-- The complete meta data ends the loop with the result of a failed callback, or with a fault. -/
theorem handleMetaData_adds {registered : Bool} {metaData : List UInt8} {w w' : World}
    {res : Option Result}
    (h : handleMetaData parseMetaData registered metaData w = (res, w')) :
    ∃ new, Adds Event.InLoop w w' new ∧ (res = none → ∀ e ∈ new, ¬e.CallFailed) ∧
      ∀ r, res = some r → Reports r new := by
  have hfault : ∀ new r, some Result.fault = some r → Reports r new := by
    rintro new r hr code rfl
    cases hr
  have halloc : Adds Event.InLoop w _ _ := .malloc .json trivial
  have hfine : ∀ e ∈ [Event.malloc .json (w.malloc .json).1], ¬e.CallFailed := by
    simp [Event.CallFailed]
  rw [handleMetaData] at h
  generalize w.malloc .json = run at h halloc hfine
  obtain ⟨ok, w₁⟩ := run
  simp only at h halloc
  split at h
  · cases h
    exact ⟨_, halloc, fun _ => hfine, hfault _⟩
  · rename_i info hparse
    split at h
    · cases h
      exact ⟨_, halloc, fun _ => hfine, hfault _⟩
    · split at h
      · have hcall : Adds Event.InLoop w₁ _ _ := .call (.notifyMetaData info) trivial
          (fun _ => Iff.rfl) (fun _ => id)
        generalize w₁.call (.notifyMetaData info) = run at h hcall
        obtain ⟨ret, w₂⟩ := run
        simp only at h hcall
        cases h
        by_cases hret : ret = 0
        · rw [if_neg (not_not_intro hret)]
          exact ⟨_, halloc.trans hcall, fun _ => List.forall_mem_append.mpr
            ⟨hfine, by simpa [Event.CallFailed] using hret⟩, by simp⟩
        · rw [if_pos hret]
          refine ⟨_, halloc.trans hcall, by simp, fun r hr code hcode => ?_⟩
          obtain rfl := Option.some.inj hr
          cases hcode
          rw [List.forall_mem_append, and_iff_right hfine]
          simp [Event.CallFailed]
      · cases h
        exact ⟨_, halloc, fun _ => hfine, by simp⟩

/-- The meta part of an output ends the loop as the complete meta data does. -/
theorem storeMetaData_adds {registered : Bool} {ctx ctx' : DecompressContext inf} {w w' : World}
    {out : List UInt8} {res : Option Result} {copied : Nat}
    (h : storeMetaData parseMetaData registered ctx w out = (res, copied, ctx', w')) :
    ∃ new, Adds Event.InLoop w w' new ∧ (res = none → ∀ e ∈ new, ¬e.CallFailed) ∧
      ∀ r, res = some r → Reports r new := by
  rw [storeMetaData] at h
  split at h
  · simp only at h
    split at h
    · generalize hrun : handleMetaData parseMetaData registered _ w = run at h
      obtain ⟨res₁, w₁⟩ := run
      cases h
      exact handleMetaData_adds hrun
    · cases h
      exact ⟨[], .refl _ _, by simp, by simp⟩
  · cases h
    exact ⟨[], .refl _ _, by simp, by simp⟩

theorem giveModuleData_adds {registered : Bool} {ctx ctx' : DecompressContext inf}
    {w w' : World} {data : List UInt8} {ret : Int}
    (h : giveModuleData registered ctx w data = (ret, ctx', w')) :
    ∃ new, Adds Event.InLoop w w' new ∧ (ret = 0 ↔ ∀ e ∈ new, ¬e.CallFailed) := by
  unfold giveModuleData at h
  split at h
  · have hadds : Adds Event.InLoop w _ _ :=
      .call (.notifyModuleData ctx.writeOffset data) trivial (fun _ => Iff.rfl)
        (fun _ => id)
    generalize w.call _ = run at h hadds
    obtain ⟨ret, w₁⟩ := run
    cases h
    exact ⟨_, hadds, by simp [Event.CallFailed]⟩
  · cases h
    exact ⟨[], .refl _ _, by simp⟩

/-- **The loop of the decompressor** returns 0 exactly if no call it made failed. The induction
    is on the fuel; each round adds an inflate, what it notifies and what it allocates for the
    output. -/
theorem inflateLoop_adds {registered : Bool} {bufferSZ : Nat} (fuel : Nat)
    {ctx ctx' : DecompressContext inf} {w w' : World} {nextIn : List UInt8} {res : Result}
    (h : inflateLoop parseMetaData registered bufferSZ fuel ctx w nextIn = (res, ctx', w')) :
    ∃ new, Adds Event.InLoop w w' new ∧ Reports res new := by
  induction fuel generalizing ctx w nextIn with
  | zero =>
    cases h
    exact ⟨[], .refl _ _, fun code hcode => by cases hcode⟩
  | succ fuel ih =>
    have hinflate := inflate_adds ctx w nextIn
    rw [inflateLoop] at h
    generalize inflate ctx w nextIn = run at h hinflate
    obtain ⟨ret, rest, out, ctx₁, w₁⟩ := run
    simp only at h hinflate
    by_cases hfailed : InflateFailed ret
    · rw [if_pos hfailed] at h
      cases h
      refine ⟨_, hinflate, fun code hcode => ?_⟩
      cases hcode
      refine ⟨fun hzero => absurd hzero ?_,
        fun hall => absurd hfailed (hall (.inflate ret) (by simp))⟩
      split
      · decide
      · rcases hfailed with rfl | rfl | rfl <;> decide
    · rw [if_neg hfailed] at h
      have hfine : ∀ e ∈ [Event.inflate ret], ¬e.CallFailed := by
        simpa [Event.CallFailed] using hfailed
      split at h
      · rename_i r copied ctx₂ w₂ hstore
        cases h
        obtain ⟨new, hadds, -, hreports⟩ := storeMetaData_adds hstore
        refine ⟨_, hinflate.trans hadds, fun code hcode => ?_⟩
        rw [hreports _ rfl code hcode, List.forall_mem_append]
        exact (and_iff_right hfine).symm
      · rename_i copied ctx₂ w₂ hstore
        obtain ⟨new, hadds, hok, -⟩ := storeMetaData_adds hstore
        have hfine' := List.forall_mem_append.mpr ⟨hfine, hok rfl⟩
        generalize hgive : giveModuleData registered ctx₂ w₂ (out.drop copied) = run at h
        obtain ⟨ret', ctx₃, w₃⟩ := run
        simp only at h
        obtain ⟨new', hadds', hret⟩ := giveModuleData_adds hgive
        have hall := (hinflate.trans hadds).trans hadds'
        by_cases hzero : ret' = 0
        · rw [if_neg (not_not_intro hzero)] at h
          have hfine'' := List.forall_mem_append.mpr ⟨hfine', hret.mp hzero⟩
          split at h
          · obtain ⟨new'', hadds'', hreports⟩ := ih h
            refine ⟨_, hall.trans hadds'', fun code hcode => ?_⟩
            rw [hreports code hcode, List.forall_mem_append]
            exact (and_iff_right hfine'').symm
          · cases h
            refine ⟨_, hall, fun code hcode => ?_⟩
            cases hcode
            exact iff_of_true rfl hfine''
        · rw [if_pos hzero] at h
          cases h
          refine ⟨_, hall, fun code hcode => ?_⟩
          cases hcode
          rw [hret, List.forall_mem_append]
          exact (and_iff_right hfine').symm

/-- A call of `mbed_zlibstream_decompress_process` for a block that is not empty. -/
theorem decompressProcess_adds {fuel : Nat} {verify : VerificationContext} {registered : Bool}
    {ctx ctx' : DecompressContext inf} {w w' : World} {below buffer : List UInt8} {res : Result}
    (hne : buffer ≠ [])
    (h : mbedZlibstreamDecompressProcess parseMetaData fuel verify registered ctx w below
      buffer = (res, ctx', w')) :
    ∃ new, Adds Event.InProcess w w' new ∧ Reports res new := by
  rw [mbedZlibstreamDecompressProcess, if_neg hne] at h
  simp only at h
  split at h
  · cases h
    refine ⟨[], .refl _ _, fun code hcode => ?_⟩
    cases hcode
    exact iff_of_true rfl (by simp)
  · split at h
    · cases h
      exact ⟨[], .refl _ _, fun code hcode => by cases hcode⟩
    · rename_i input hwindow
      obtain ⟨new, hadds, hfine⟩ := takeMetaSize_adds verify
        { ctx with streamRecievedSz := u32 (ctx.streamRecievedSz + buffer.length) } w
      obtain ⟨new', hadds', hreports⟩ := inflateLoop_adds _ h
      have hall : Adds Event.InProcess w w' _ :=
        ((hadds.mono fun e he => he.inProcess).trans
          (.record (.window input) trivial trivial)).trans (hadds'.mono fun e he => he.inProcess)
      refine ⟨_, hall, fun code hcode => ?_⟩
      rw [hreports code hcode, List.forall_mem_append, List.forall_mem_append]
      exact (and_iff_right ⟨hfine, by simp [Event.CallFailed]⟩).symm

end Decompress

/-! ## The unpacker and the handler -/

/-- The calls of `duer_ota_unpack_decompress_data` have all been accepted exactly if no call
    made for them failed. -/
def Faithful (new : List Event) : Prop :=
  (∀ ret, .decompressed ret ∈ new → ret = duerOk) ↔ ∀ e ∈ new, ¬e.CallFailed

/-- Events that are neither a failure nor a result. -/
def Event.Neutral : Event → Prop
  | .decompressed _ => False
  | e => ¬e.CallFailed

theorem Faithful.append {a b : List Event} (ha : Faithful a) (hb : Faithful b) :
    Faithful (a ++ b) := by
  unfold Faithful at *
  rw [List.forall_mem_append, ← ha, ← hb]
  simp only [List.mem_append, or_imp, forall_and]

theorem Faithful.of_neutral {new : List Event} (h : ∀ e ∈ new, e.Neutral) : Faithful new := by
  refine iff_of_true (fun ret hret => (h _ hret).elim) fun e he => ?_
  have hneutral := h e he
  cases e <;> first | exact hneutral | exact hneutral.elim

/-- The events of one call: the block, what is done with it, and the result. -/
theorem Faithful.block {new : List Event} {ret : Int} (data : List UInt8)
    (hnone : ∀ ret, .decompressed ret ∉ new) (hret : ret = duerOk ↔ ∀ e ∈ new, ¬e.CallFailed) :
    Faithful ([.data data] ++ new ++ [.decompressed ret]) := by
  constructor
  · intro h e he
    have hfine := hret.mp (h ret (by simp))
    rw [List.append_assoc, List.singleton_append, List.mem_cons, List.mem_append,
      List.mem_singleton] at he
    rcases he with rfl | he | rfl
    · exact id
    · exact hfine e he
    · exact id
  · intro h r hr
    rw [List.append_assoc, List.singleton_append, List.mem_cons, List.mem_append,
      List.mem_singleton] at hr
    rcases hr with hr | hr | hr
    · cases hr
    · exact absurd hr (hnone r)
    · cases hr
      exact hret.mpr fun e he => h e (by simp [he])

section Handler

variable {inf : Decoder UInt8 UInt8} {parseMetaData : List UInt8 → Bool → Option PackageMetaData}
  {fuel : Nat} {env : UpdateEnv}

/-- A block for the unpacker. -/
theorem decompressData_adds {u u' : OtaUnpacker inf} {w w' : World} {below data : List UInt8}
    {res : Result} (hne : data ≠ [])
    (h : duerOtaUnpackDecompressData parseMetaData fuel u w below data = (res, u', w')) :
    ∃ new, Adds Event.Inner w w' new ∧ ((∃ code, res = .ret code) → Faithful new) := by
  rw [duerOtaUnpackDecompressData] at h
  simp only at h
  split at h
  · cases h
    exact ⟨_, .record (.data data) trivial trivial, fun ⟨code, hcode⟩ => by cases hcode⟩
  · rename_i verification hupdate
    generalize hrun : mbedZlibstreamDecompressProcess parseMetaData fuel verification
      u.registered u.decompress (w.record (.data data)) below data = run at h
    obtain ⟨r, decompress, w₁⟩ := run
    obtain ⟨new, hadds, hreports⟩ := decompressProcess_adds hne hrun
    have hinner := (Adds.record (w := w) (.data data) trivial trivial).trans
      (hadds.mono fun e he => he.inner)
    cases h
    cases r with
    | ret code =>
      have hstatus : (if code ≠ 0 then duerErrFailed else duerOk) = duerOk ↔
          ∀ e ∈ new, ¬e.CallFailed := by
        rw [← hreports code rfl]
        by_cases hzero : code = 0
        · simp [hzero]
        · simp [hzero, duerOk, duerErrFailed]
      exact ⟨_, hinner.trans (.record _ trivial trivial), fun _ =>
        .block data (fun ret hret => hadds.all _ hret) hstatus⟩
    | running => exact ⟨_, hinner, fun ⟨code, hres⟩ => by cases hres⟩
    | fault => exact ⟨_, hinner, fun ⟨code, hres⟩ => by cases hres⟩

theorem reportProgress_adds {up up' : OtaUpdater inf} {ret ret' : Int} {len : Nat}
    (h : reportProgress env up ret len = (ret', up')) :
    ∃ new, Adds Event.Inner up.world up'.world new ∧ Faithful new := by
  rw [reportProgress] at h
  simp only at h
  split at h
  · cases h
    exact ⟨_, .record _ trivial trivial, .of_neutral (by simp [Event.Neutral, Event.CallFailed])⟩
  · cases h
    exact ⟨[], .refl _ _, .of_neutral (by simp)⟩

theorem handler_adds {up up' : OtaUpdater inf} {buf : List UInt8} {res : Result}
    (h : handler env parseMetaData fuel up buf = (res, up')) :
    ∃ new, Adds Event.Inner up.world up'.world new ∧
      ((∃ code, res = .ret code) → Faithful new) := by
  rw [handler] at h
  split at h
  · rename_i hne
    have halloc : Adds Event.Inner up.world _ _ := .malloc .block trivial
    have hneutral : Faithful [Event.malloc .block (up.world.malloc .block).1] :=
      .of_neutral (by simp [Event.Neutral, Event.CallFailed])
    generalize up.world.malloc .block = run at h halloc hneutral
    obtain ⟨ok, w⟩ := run
    cases ok with
    | false =>
      cases h
      exact ⟨_, halloc, fun _ => hneutral⟩
    | true =>
      simp only at h
      generalize hrun : duerOtaUnpackDecompressData parseMetaData fuel up.unpacker w
        (up.belows.headD []) buf = run at h
      obtain ⟨r, unpacker, w₁⟩ := run
      obtain ⟨new, hadds, hfaithful⟩ := decompressData_adds hne hrun
      cases r with
      | ret code =>
        simp only at h
        generalize hprogress : reportProgress env { up with
          unpacker, world := w₁, belows := up.belows.tail } code buf.length = run at h
        obtain ⟨ret, up₁⟩ := run
        obtain ⟨new', hadds', hfaithful'⟩ := reportProgress_adds hprogress
        cases h
        exact ⟨_, (halloc.trans hadds).trans hadds',
          fun _ => (hneutral.append (hfaithful ⟨code, rfl⟩)).append hfaithful'⟩
      | running =>
        cases h
        exact ⟨_, halloc.trans hadds, fun ⟨code, hres⟩ => by cases hres⟩
      | fault =>
        cases h
        exact ⟨_, halloc.trans hadds, fun ⟨code, hres⟩ => by cases hres⟩
  · cases h
    exact ⟨[], .refl _ _, fun _ => .of_neutral (by simp)⟩

/-- **The calls of a download**: when all of them return, what is recorded is faithful. The result
    of a call is not looked at, so a block that is not accepted does not keep the next one from
    being recorded. -/
theorem handleCalls_adds {up up' : OtaUpdater inf} {calls : List Http.HandlerCall} {done : Bool}
    (h : handleCalls env parseMetaData fuel up calls = (done, up')) :
    ∃ new, Adds Event.Inner up.world up'.world new ∧ (done = true → Faithful new) := by
  induction calls generalizing up with
  | nil =>
    cases h
    exact ⟨[], .refl _ _, fun _ => .of_neutral (by simp)⟩
  | cons call rest ih =>
    rw [handleCalls] at h
    generalize hrun : handler env parseMetaData fuel up call.block = run at h
    obtain ⟨res, up₁⟩ := run
    obtain ⟨new, hadds, hfaithful⟩ := handler_adds hrun
    cases res with
    | ret code =>
      obtain ⟨new', hadds', hfaithful'⟩ := ih h
      exact ⟨_, hadds.trans hadds', fun hdone =>
        (hfaithful ⟨code, rfl⟩).append (hfaithful' hdone)⟩
    | running =>
      cases h
      exact ⟨_, hadds, fun hdone => by cases hdone⟩
    | fault =>
      cases h
      exact ⟨_, hadds, fun hdone => by cases hdone⟩

/-! ## The steps -/

theorem notifyStep_adds {up up' : OtaUpdater inf} {event : OtaEvent} {stop : StepEnd}
    (h : notifyStep env up event = (stop, up')) :
    ∃ new, Adds Event.Inner up.world up'.world new ∧ Faithful new := by
  cases h
  exact ⟨_, .record _ trivial trivial, .of_neutral (by simp [Event.Neutral, Event.CallFailed])⟩

theorem connectServer_adds {up up' : OtaUpdater inf} {stop : StepEnd}
    (h : duerOtaDownloaderConnectServer env parseMetaData fuel up = (stop, up')) :
    ∃ new, Adds Event.Inner up.world up'.world new ∧ (stop ≠ .stuck → Faithful new) := by
  have hnone : ∃ new, Adds Event.Inner up.world up.world new ∧ (stop ≠ .stuck → Faithful new) :=
    ⟨[], .refl _ _, fun _ => .of_neutral (by simp)⟩
  rw [duerOtaDownloaderConnectServer] at h
  split at h
  · cases h
    exact hnone
  · split at h
    · cases h
      exact hnone
    · generalize hconnect : connectHttpServer env parseMetaData fuel up = run at h
      obtain ⟨res, up₁⟩ := run
      have hadds : ∃ new, Adds Event.Inner up.world up₁.world new ∧
          (res ≠ .stuck → Faithful new) := by
        rw [connectHttpServer] at hconnect
        generalize env.download fuel = run at hconnect
        obtain ⟨out, client⟩ := run
        simp only at hconnect
        generalize hcalls : handleCalls env parseMetaData fuel up client.calls = run at hconnect
        obtain ⟨done, up₂⟩ := run
        obtain ⟨new, hadds, hfaithful⟩ := handleCalls_adds hcalls
        cases done with
        | true =>
          cases out with
          | done r =>
            cases hconnect
            exact ⟨new, hadds, fun _ => hfaithful rfl⟩
          | running =>
            cases hconnect
            exact ⟨new, hadds, fun hstuck => absurd rfl hstuck⟩
          | fault =>
            cases hconnect
            exact ⟨new, hadds, fun hstuck => absurd rfl hstuck⟩
        | false =>
          cases hconnect
          exact ⟨new, hadds, fun hstuck => absurd rfl hstuck⟩
      obtain ⟨new, hadds, hfaithful⟩ := hadds
      cases res with
      | stuck =>
        cases h
        exact ⟨new, hadds, fun hstuck => absurd rfl hstuck⟩
      | ok =>
        cases h
        exact ⟨new, hadds, fun _ => hfaithful (by decide)⟩
      | failed =>
        cases h
        exact ⟨new, hadds, fun _ => hfaithful (by decide)⟩

/-- **A step** records only what is inside it, and no step: that it has been come to is written down
    around it. -/
theorem runStep_adds {s : Step} {up up' : OtaUpdater inf} {stop : StepEnd}
    (h : runStep env parseMetaData fuel s up = (stop, up')) :
    ∃ new, Adds Event.Inner up.world up'.world new ∧ (stop ≠ .stuck → Faithful new) := by
  have hnone : up'.world = up.world →
      ∃ new, Adds Event.Inner up.world up'.world new ∧ (stop ≠ .stuck → Faithful new) :=
    fun hw => ⟨[], hw ▸ .refl _ _, fun _ => .of_neutral (by simp)⟩
  cases s with
  | createUnpacker =>
    rw [runStep] at h
    split at h <;> (cases h; exact hnone rfl)
  | initUpdater =>
    simp only [runStep] at h
    split at h <;> (cases h; exact hnone rfl)
  | getDownloader =>
    refine hnone ?_
    simp only [runStep, duerOtaDownloaderGetDownloader] at h
    repeat' split at h
    all_goals (cases h; rfl)
  | initDownloader =>
    refine hnone ?_
    simp only [runStep, duerOtaDownloaderInitDownloader] at h
    repeat' split at h
    all_goals (cases h; rfl)
  | connectServer => exact connectServer_adds h
  | downloadComplete =>
    obtain ⟨new, hadds, hfaithful⟩ := notifyStep_adds h
    exact ⟨new, hadds, fun _ => hfaithful⟩
  | installed =>
    obtain ⟨new, hadds, hfaithful⟩ := notifyStep_adds h
    exact ⟨new, hadds, fun _ => hfaithful⟩
  | dataBegin | registerDataNotify | dataEnd | updateImageBegin | updateImage | updateImageEnd
    | reboot =>
    cases h
    exact hnone rfl

/-- **The steps** record which of them are come to, and what is inside these. -/
theorem runSteps_adds {steps : List (Step × Option OtaEvent)} {up up' : OtaUpdater inf}
    {stop : UpdateEnd} (h : runSteps env parseMetaData fuel steps up = (stop, up')) :
    ∃ new, Adds (fun e => e.Inner ∨ ∃ s ∈ steps.map Prod.fst, e = .step s) up.world up'.world
        new ∧ (stop ≠ .stuck → Faithful new) := by
  induction steps generalizing up with
  | nil =>
    cases h
    exact ⟨[], .refl _ _, fun _ => .of_neutral (by simp)⟩
  | cons step rest ih =>
    obtain ⟨s, event⟩ := step
    rw [runSteps] at h
    generalize hrun : runStep env parseMetaData fuel s (up.record (.step s)) = run at h
    obtain ⟨res, up₁⟩ := run
    obtain ⟨new, hadds, hfaithful⟩ := runStep_adds hrun
    have hfirst : Adds (fun e => e.Inner ∨ ∃ t ∈ ((s, event) :: rest).map Prod.fst, e = .step t)
        up.world up₁.world ([.step s] ++ new) :=
      (Adds.record (.step s) (.inr ⟨s, by simp, rfl⟩) trivial).trans
        (hadds.mono fun e he => .inl he)
    have hstep : Faithful [Event.step s] :=
      .of_neutral (by simp [Event.Neutral, Event.CallFailed])
    cases res with
    | ok =>
      obtain ⟨new', hadds', hfaithful'⟩ := ih h
      refine ⟨_, hfirst.trans (hadds'.mono fun e he => ?_), fun hstop =>
        (hstep.append (hfaithful (by decide))).append (hfaithful' hstop)⟩
      rcases he with he | ⟨t, ht, rfl⟩
      · exact .inl he
      · exact .inr ⟨t, by simp [ht], rfl⟩
    | failed =>
      cases h
      exact ⟨_, hfirst, fun _ => hstep.append (hfaithful (by decide))⟩
    | stuck =>
      cases h
      exact ⟨_, hfirst, fun hstop => absurd rfl hstop⟩

theorem runSteps_adds_snd (env : UpdateEnv)
    (parseMetaData : List UInt8 → Bool → Option PackageMetaData) (fuel : Nat)
    (steps : List (Step × Option OtaEvent)) (up : OtaUpdater inf) :
    ∃ new, Adds (fun e => e.Inner ∨ ∃ s ∈ steps.map Prod.fst, e = .step s) up.world
      (runSteps env parseMetaData fuel steps up).2.world new ∧
      ((runSteps env parseMetaData fuel steps up).1 ≠ .stuck → Faithful new) :=
  runSteps_adds rfl

end Handler

end Ota
end LightDuer
