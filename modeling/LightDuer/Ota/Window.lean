import LightDuer.Lib.Transition
import LightDuer.Ota.History
import LightDuer.Ota.StoredInflate

/-!
# The window of inflate, and calls after an error

What inflate is given is cut out of the block by two counters: the octets received, which every call
counts, and those processed, which tell whether the header is still to be skipped. A call that a
callback ends does not count what it has processed, and one that inflate ends leaves a stream that
inflate refuses with a code the decompressor does not look for. So the window is right as long as no
call has failed, and a block that comes after that may be taken from in front of the buffer, handed
on, or accepted.

## One call

A `Call` has all that the function gets: the block, what is in memory in front of it, the
verification context and how far its loop is followed. `Stream.Keeps` is what a call should do:
inflate is given a part of the block, and once a call has returned an error every later one returns
an error too and calls nobody.

`windowInside_iff` says when the window lies in the block: when the header has been skipped before,
or when not more octets have come behind the header than the block has. While no call has failed the
two counters differ by the length of the header (`Stream.Counted`), and one of the two is the case.

## Runs

`window_and_errors` is about runs in which a block is given only while no call has failed. The
octets are counted in 32 bits; once 2³² have come the guard asks in addition that the counters are
still in order. Without the guard a single refused block is enough: the call behind it returns 0.
-/

set_option autoImplicit false

namespace LightDuer
namespace Ota

open Lib

/-- A callback on data. -/
def Event.Callback : Event → Prop
  | .notifyMetaData .. | .notifyModuleData .. => True
  | _ => False

/-- A call of `mbed_zlibstream_decompress_process`. -/
structure Call where
  verify : VerificationContext
  registered : Bool
  /-- what is in front of the block -/
  below : List UInt8
  buffer : List UInt8
  /-- how far the loop is followed -/
  fuel : Nat

/-- A context between two calls. -/
structure Stream (inf : Decoder UInt8 UInt8) where
  ctx : DecompressContext inf
  world : World
  /-- a call has returned an error -/
  failed : Bool
  /-- the octets of all calls -/
  total : Nat

section Calls

variable {inf : Decoder UInt8 UInt8} (parseMetaData : List UInt8 → Bool → Option PackageMetaData)

def Stream.init (s : Stream inf) : Prop :=
  s.ctx = mbedZlibstreamDecompressInit ∧ s.failed = false ∧ s.total = 0

def Stream.process (s : Stream inf) (call : Call) : Result × DecompressContext inf × World :=
  mbedZlibstreamDecompressProcess parseMetaData call.fuel call.verify call.registered s.ctx
    s.world call.below call.buffer

/-- A call that returns. -/
def Stream.step (s : Stream inf) (call : Call) : Option (Stream inf) :=
  match s.process parseMetaData call with
  | (.ret code, ctx, world) =>
      some ⟨ctx, world, s.failed || code ≠ 0, s.total + call.buffer.length⟩
  | _ => none

/-- The octets received, with those of the block. -/
def Stream.recieved (s : Stream inf) (call : Call) : DecompressContext inf :=
  { s.ctx with streamRecievedSz := u32 (s.ctx.streamRecievedSz + call.buffer.length) }

/-- What a call gives to inflate lies in its block. -/
def Stream.WindowInside (s : Stream inf) (call : Call) : Prop :=
  call.buffer ≠ [] → pckHeaderSz < (s.recieved call).streamRecievedSz →
    ∃ input, inflateWindow (s.recieved call) call.below call.buffer = some input ∧
      input <:+ call.buffer

/-- **The window and the errors** of a call: inflate is given a part of the block, and after an
    error the call returns an error and calls nobody. The part reaches to the end of the block; that
    it begins inside of it is what can fail. -/
structure Stream.Keeps (s : Stream inf) (call : Call) : Prop where
  window : s.WindowInside call
  added : ∃ new, (s.process parseMetaData call).2.2.log = s.world.log ++ new ∧
    (∀ input, .window input ∈ new → input <:+ call.buffer) ∧
    (s.failed = true → (∃ code, (s.process parseMetaData call).1 = .ret code ∧ code ≠ 0) ∧
      ∀ e ∈ new, ¬e.Callback)

/-- A block is given only while no call has failed. Once `2 ^ 32` octets have come, the counters
    may have wrapped, but not so that the header is skipped again. -/
def Stream.Guard (s : Stream inf) (call : Call) : Prop :=
  call.buffer = [] ∨
    s.failed = false ∧
      (s.total + call.buffer.length < 2 ^ 32 ∨
        (s.ctx.streamProcessedSz = 0 → s.ctx.streamRecievedSz ≤ pckHeaderSz))

end Calls

/-! ## The counters -/

/-- The counters do not differ. -/
structure SameCounts {inf : Decoder UInt8 UInt8} (ctx ctx' : DecompressContext inf) : Prop where
  recieved : ctx'.streamRecievedSz = ctx.streamRecievedSz
  processed : ctx'.streamProcessedSz = ctx.streamProcessedSz

section Counts

variable {inf : Decoder UInt8 UInt8} {parseMetaData : List UInt8 → Bool → Option PackageMetaData}
  {ctx ctx' : DecompressContext inf} {w w' : World}

theorem SameCounts.refl (ctx : DecompressContext inf) : SameCounts ctx ctx := ⟨rfl, rfl⟩

theorem SameCounts.trans {ctx'' : DecompressContext inf} (h : SameCounts ctx ctx')
    (h' : SameCounts ctx' ctx'') : SameCounts ctx ctx'' :=
  ⟨h'.recieved.trans h.recieved, h'.processed.trans h.processed⟩

theorem takeMetaSize_counts (verify : VerificationContext) (ctx : DecompressContext inf)
    (w : World) : SameCounts ctx (takeMetaSize verify ctx w).1 := by
  unfold takeMetaSize
  split
  · split <;> exact ⟨rfl, rfl⟩
  · exact .refl ctx

theorem inflate_counts (ctx : DecompressContext inf) (w : World) (nextIn : List UInt8) :
    SameCounts ctx (inflate ctx w nextIn).2.2.2.1 := by
  unfold inflate
  cases ctx.strm with
  | none => exact .refl ctx
  | some st => exact ⟨rfl, rfl⟩

/-- What the complete meta data ends with is not a success. -/
theorem handleMetaData_ne_ok {registered : Bool} {metaData : List UInt8} {res : Option Result}
    (h : handleMetaData parseMetaData registered metaData w = (res, w')) : res ≠ some (.ret 0) := by
  rw [handleMetaData] at h
  generalize w.malloc .json = run at h
  obtain ⟨ok, w₁⟩ := run
  simp only at h
  split at h
  · cases h
    simp
  · split at h
    · cases h
      simp
    · split at h
      · generalize w₁.call _ = run at h
        obtain ⟨ret, w₂⟩ := run
        cases h
        split
        · rename_i hret
          intro heq
          exact hret (Result.ret.inj (Option.some.inj heq))
        · simp
      · cases h
        simp

theorem storeMetaData_counts {registered : Bool} {out : List UInt8} {res : Option Result}
    {copied : Nat}
    (h : storeMetaData parseMetaData registered ctx w out = (res, copied, ctx', w')) :
    SameCounts ctx ctx' ∧ res ≠ some (.ret 0) := by
  rw [storeMetaData] at h
  split at h
  · simp only at h
    split at h
    · generalize hrun : handleMetaData parseMetaData registered _ w = run at h
      obtain ⟨res₁, w₁⟩ := run
      cases h
      exact ⟨⟨rfl, rfl⟩, handleMetaData_ne_ok hrun⟩
    · cases h
      exact ⟨⟨rfl, rfl⟩, by simp⟩
  · cases h
    exact ⟨.refl ctx, by simp⟩

theorem giveModuleData_counts {registered : Bool} {data : List UInt8} {ret : Int}
    (h : giveModuleData registered ctx w data = (ret, ctx', w')) : SameCounts ctx ctx' := by
  unfold giveModuleData at h
  split at h
  · generalize w.call _ = run at h
    obtain ⟨ret, w₁⟩ := run
    cases h
    exact ⟨rfl, rfl⟩
  · cases h
    exact .refl ctx

/-- **A loop that returns 0** has counted its window as processed. A call that a callback ends has
    not counted, and the next one goes by what is there. -/
theorem inflateLoop_counts {registered : Bool} {bufferSZ : Nat} (fuel : Nat)
    {nextIn : List UInt8}
    (h : inflateLoop parseMetaData registered bufferSZ fuel ctx w nextIn = (.ret 0, ctx', w')) :
    SameCounts (ctx.processed bufferSZ) ctx' := by
  induction fuel generalizing ctx w nextIn with
  | zero => cases h
  | succ fuel ih =>
    have hinflate := inflate_counts ctx w nextIn
    rw [inflateLoop] at h
    generalize inflate ctx w nextIn = run at h hinflate
    obtain ⟨ret, rest, out, ctx₁, w₁⟩ := run
    simp only at h hinflate
    by_cases hfailed : InflateFailed ret
    · rw [if_pos hfailed] at h
      have hcode := Result.ret.inj (congrArg Prod.fst h)
      split at hcode
      · exact absurd hcode (by decide)
      · rcases hfailed with rfl | rfl | rfl <;> exact absurd hcode (by decide)
    · rw [if_neg hfailed] at h
      split at h
      · rename_i r copied ctx₂ w₂ hstore
        cases h
        exact absurd rfl (storeMetaData_counts hstore).2
      · rename_i copied ctx₂ w₂ hstore
        have hsame := hinflate.trans (storeMetaData_counts hstore).1
        generalize hgive : giveModuleData registered ctx₂ w₂ (out.drop copied) = run at h
        obtain ⟨ret', ctx₃, w₃⟩ := run
        simp only at h
        have hsame' := hsame.trans (giveModuleData_counts hgive)
        have hprocessed : SameCounts (ctx.processed bufferSZ) (ctx₃.processed bufferSZ) :=
          ⟨hsame'.recieved, congrArg (fun n => u32 (n + bufferSZ)) hsame'.processed⟩
        split at h
        · rename_i hne
          exact absurd (Result.ret.inj (congrArg Prod.fst h)) hne
        · split at h
          · exact hprocessed.trans (ih h)
          · cases h
            exact hprocessed

end Counts

/-! ## One call -/

section Call

variable {inf : Decoder UInt8 UInt8} {parseMetaData : List UInt8 → Bool → Option PackageMetaData}
  {s : Stream inf} {call : Call}

theorem Stream.process_nil (h : call.buffer = []) :
    s.process parseMetaData call = (.ret (-7), s.ctx, s.world) := by
  rw [Stream.process, mbedZlibstreamDecompressProcess, if_pos h]

theorem Stream.process_header (hne : call.buffer ≠ [])
    (h : (s.recieved call).streamRecievedSz ≤ pckHeaderSz) :
    s.process parseMetaData call = (.ret 0, s.recieved call, s.world) := by
  rw [Stream.process, mbedZlibstreamDecompressProcess, if_neg hne]
  exact if_pos h

theorem Stream.process_window (hne : call.buffer ≠ [])
    (h : pckHeaderSz < (s.recieved call).streamRecievedSz) {input : List UInt8}
    (hwindow : inflateWindow (s.recieved call) call.below call.buffer = some input) :
    s.process parseMetaData call =
      inflateLoop parseMetaData call.registered input.length call.fuel
        (takeMetaSize call.verify (s.recieved call) s.world).1
        ((takeMetaSize call.verify (s.recieved call) s.world).2.record (.window input)) input := by
  have hnot : ¬u32 (s.ctx.streamRecievedSz + call.buffer.length) ≤ pckHeaderSz :=
    Nat.not_le_of_lt h
  rw [Stream.recieved] at hwindow
  rw [Stream.process, mbedZlibstreamDecompressProcess, if_neg hne]
  simp only [if_neg hnot, hwindow]
  rfl

/-- **Where the window lies**: in the block, or from in front of it on. -/
theorem Stream.windowInside_iff (hne : call.buffer ≠ [])
    (h : pckHeaderSz < (s.recieved call).streamRecievedSz) :
    s.WindowInside call ↔ s.ctx.streamProcessedSz ≠ 0 ∨
      (s.recieved call).streamRecievedSz - pckHeaderSz ≤ call.buffer.length := by
  have hprocessed : (s.recieved call).streamProcessedSz = s.ctx.streamProcessedSz := rfl
  unfold Stream.WindowInside inflateWindow
  simp only [hprocessed]
  by_cases hzero : s.ctx.streamProcessedSz = 0
  · simp only [if_pos hzero]
    by_cases hle : (s.recieved call).streamRecievedSz - pckHeaderSz ≤ call.buffer.length
    · rw [if_pos hle]
      exact iff_of_true (fun _ _ => ⟨_, rfl, List.drop_suffix _ _⟩) (.inr hle)
    · refine iff_of_false ?_ (not_or.mpr ⟨not_not_intro hzero, hle⟩)
      rw [if_neg hle]
      intro hinside
      obtain ⟨input, hinput, hsuffix⟩ := hinside hne h
      split at hinput
      · -- the input has all of the block, and more
        obtain rfl := Option.some.inj hinput
        have hlen := hsuffix.length_le
        rw [List.length_append, List.length_drop] at hlen
        omega
      · cases hinput
  · simp only [if_neg hzero]
    exact iff_of_true (fun _ _ => ⟨_, rfl, List.suffix_refl _⟩) (.inl hzero)

/-- Without an error so far, all that has come behind the header is processed. -/
def Stream.Counted (s : Stream inf) : Prop :=
  s.failed = false → s.total < 2 ^ 32 →
    s.ctx.streamRecievedSz = s.total ∧ s.ctx.streamProcessedSz = s.total - pckHeaderSz

theorem Stream.Counted.initial (h : s.init) : s.Counted := by
  obtain ⟨hctx, -, htotal⟩ := h
  intro _ _
  rw [hctx, htotal]
  exact ⟨rfl, (Nat.zero_sub _).symm⟩

theorem Stream.recieved_eq (hlt : s.ctx.streamRecievedSz + call.buffer.length < 2 ^ 32) :
    (s.recieved call).streamRecievedSz = s.ctx.streamRecievedSz + call.buffer.length :=
  u32_of_lt hlt

theorem Stream.recieved_le :
    (s.recieved call).streamRecievedSz ≤ s.ctx.streamRecievedSz + call.buffer.length := by
  show u32 _ ≤ _
  rw [u32]
  exact Nat.mod_le _ _

/-- The block is all behind the header, or the header ends in it. -/
theorem Stream.windowInside (hne : call.buffer ≠ [])
    (h : s.ctx.streamProcessedSz = 0 → s.ctx.streamRecievedSz ≤ pckHeaderSz) :
    s.WindowInside call := by
  intro _ hbehind
  refine (windowInside_iff hne hbehind).mpr ?_ hne hbehind
  have hle : (s.recieved call).streamRecievedSz ≤ s.ctx.streamRecievedSz + call.buffer.length :=
    recieved_le
  by_cases hzero : s.ctx.streamProcessedSz = 0
  · have hheader := h hzero
    exact .inr (by omega)
  · exact .inl hzero

/-- What is left of the block behind the header. -/
theorem Stream.inflateWindow_length {input : List UInt8}
    (hcounts : s.ctx.streamProcessedSz = s.ctx.streamRecievedSz - pckHeaderSz)
    (hlt : s.ctx.streamRecievedSz + call.buffer.length < 2 ^ 32)
    (hbehind : pckHeaderSz < (s.recieved call).streamRecievedSz)
    (h : inflateWindow (s.recieved call) call.below call.buffer = some input) :
    s.ctx.streamProcessedSz + input.length = (s.recieved call).streamRecievedSz - pckHeaderSz := by
  have hprocessed : (s.recieved call).streamProcessedSz = s.ctx.streamProcessedSz := rfl
  have hrecieved := recieved_eq hlt
  unfold inflateWindow at h
  rw [hprocessed] at h
  by_cases hzero : s.ctx.streamProcessedSz = 0
  · have hle : (s.recieved call).streamRecievedSz - pckHeaderSz ≤ call.buffer.length := by omega
    rw [if_pos hzero, if_pos hle] at h
    rw [← Option.some.inj h, List.length_drop]
    omega
  · rw [if_neg hzero] at h
    rw [← Option.some.inj h]
    omega

/-- A call that has returned. -/
theorem Stream.step_eq_some {s' : Stream inf} :
    s.step parseMetaData call = some s' ↔
      ∃ code ctx w, s.process parseMetaData call = (.ret code, ctx, w) ∧
        s' = ⟨ctx, w, s.failed || code ≠ 0, s.total + call.buffer.length⟩ := by
  unfold Stream.step
  generalize s.process parseMetaData call = run
  obtain ⟨res, ctx, w⟩ := run
  cases res with
  | ret code => simp [eq_comm]
  | running => simp
  | fault => simp

/-- A block that is accepted is counted. -/
theorem Stream.counts_of_accepted (hne : call.buffer ≠ [])
    (hcounts : s.ctx.streamProcessedSz = s.ctx.streamRecievedSz - pckHeaderSz)
    (hlt : s.ctx.streamRecievedSz + call.buffer.length < 2 ^ 32) {ctx' : DecompressContext inf}
    {w' : World} (hrun : s.process parseMetaData call = (.ret 0, ctx', w')) :
    ctx'.streamRecievedSz = s.ctx.streamRecievedSz + call.buffer.length ∧
      ctx'.streamProcessedSz = ctx'.streamRecievedSz - pckHeaderSz := by
  have hrecieved := recieved_eq hlt
  rcases Nat.lt_or_ge pckHeaderSz (s.recieved call).streamRecievedSz with hbehind | hheader
  · have hinside := s.windowInside hne fun hzero => by omega
    obtain ⟨input, hwindow, -⟩ := hinside hne hbehind
    have hsum := inflateWindow_length hcounts hlt hbehind hwindow
    rw [process_window hne hbehind hwindow] at hrun
    have hsame := inflateLoop_counts _ hrun
    have htake := takeMetaSize_counts call.verify (s.recieved call) s.world
    have hcount : ctx'.streamRecievedSz = (s.recieved call).streamRecievedSz :=
      hsame.recieved.trans htake.recieved
    have hcount' : ctx'.streamProcessedSz = u32 (s.ctx.streamProcessedSz + input.length) := by
      rw [hsame.processed]
      exact congrArg (fun n => u32 (n + input.length)) htake.processed
    rw [hcount', hsum, u32_of_lt (by omega), hcount]
    exact ⟨hrecieved, rfl⟩
  · rw [process_header hne hheader] at hrun
    obtain rfl : s.recieved call = ctx' := congrArg (fun r => r.2.1) hrun
    have hprocessed : (s.recieved call).streamProcessedSz = s.ctx.streamProcessedSz := rfl
    exact ⟨hrecieved, by omega⟩

theorem Stream.Counted.step (h : s.Counted) {s' : Stream inf}
    (hs : s.step parseMetaData call = some s') : s'.Counted := by
  obtain ⟨code, ctx', w', hrun, rfl⟩ := Stream.step_eq_some.mp hs
  intro hok' hlt
  obtain ⟨hok, hcode⟩ : s.failed = false ∧ code = 0 := by simpa using hok'
  subst hcode
  replace hlt : s.total + call.buffer.length < 2 ^ 32 := hlt
  obtain ⟨hrecieved, hprocessed⟩ := h hok (by omega)
  have hne : call.buffer ≠ [] := by
    -- a call without a block is an error
    intro hnil
    rw [process_nil hnil] at hrun
    exact absurd (Result.ret.inj (congrArg Prod.fst hrun)) (by decide)
  obtain ⟨hrecieved', hprocessed'⟩ :=
    counts_of_accepted hne (by omega) (by omega) hrun
  rw [hrecieved', hrecieved] at hprocessed'
  exact ⟨hrecieved'.trans (by rw [hrecieved]), hprocessed'⟩

/-- A guarded block lies behind the header, or the header ends in it. -/
theorem Stream.Counted.aligned (h : s.Counted) (hok : s.failed = false)
    (hg : s.total + call.buffer.length < 2 ^ 32 ∨
      (s.ctx.streamProcessedSz = 0 → s.ctx.streamRecievedSz ≤ pckHeaderSz)) :
    s.ctx.streamProcessedSz = 0 → s.ctx.streamRecievedSz ≤ pckHeaderSz := by
  rcases hg with hlt | hg
  · obtain ⟨hrecieved, hprocessed⟩ := h hok (by omega)
    omega
  · exact hg

/-- A call without a block does nothing. -/
theorem Stream.keeps_nil (h : call.buffer = []) : s.Keeps parseMetaData call := by
  refine ⟨fun hne => absurd h hne, [], ?_, by simp, fun _ => ⟨⟨-7, ?_, by decide⟩, by simp⟩⟩
  · rw [process_nil h, List.append_nil]
  · rw [process_nil h]

/-- A block before any error is given to inflate behind the header. -/
theorem Stream.keeps_block (hok : s.failed = false) (hne : call.buffer ≠ [])
    (h : s.ctx.streamProcessedSz = 0 → s.ctx.streamRecievedSz ≤ pckHeaderSz) :
    s.Keeps parseMetaData call := by
  have hnot : s.failed = true → False := fun hfailed => by
    rw [hok] at hfailed
    exact Bool.false_ne_true hfailed
  have hinside := s.windowInside hne h
  refine ⟨hinside, ?_⟩
  rcases Nat.lt_or_ge pckHeaderSz (s.recieved call).streamRecievedSz with hbehind | hheader
  · obtain ⟨input, hwindow, hsuffix⟩ := hinside hne hbehind
    obtain ⟨new, hadds, -⟩ := takeMetaSize_adds call.verify (s.recieved call) s.world
    generalize hrun : s.process parseMetaData call = run
    obtain ⟨res, ctx', w'⟩ := run
    rw [process_window hne hbehind hwindow] at hrun
    obtain ⟨new', hadds', -⟩ := inflateLoop_adds _ hrun
    refine ⟨new ++ [.window input] ++ new', ?_, ?_, fun hfailed => (hnot hfailed).elim⟩
    · show w'.log = _
      rw [hadds'.log, World.record, hadds.log]
      simp only [List.append_assoc]
    · intro input' hmem
      rcases List.mem_append.mp hmem with hmem | hmem
      · rcases List.mem_append.mp hmem with hmem | hmem
        · exact absurd (hadds.all _ hmem) (Event.not_inLoop_window input')
        · cases List.mem_singleton.mp hmem
          exact hsuffix
      · exact absurd (hadds'.all _ hmem) (Event.not_inLoop_window input')
  · refine ⟨[], ?_, by simp, fun hfailed => (hnot hfailed).elim⟩
    rw [process_header hne hheader, List.append_nil]

/-! ### After an error -/

/-- The header has passed and a callback has ended the first block behind it: the next block is
    not where the window begins. -/
theorem Stream.not_windowInside (hne : call.buffer ≠ [])
    (hlt : s.ctx.streamRecievedSz + call.buffer.length < 2 ^ 32)
    (hprocessed : s.ctx.streamProcessedSz = 0) (hbehind : pckHeaderSz < s.ctx.streamRecievedSz) :
    ¬s.WindowInside call := by
  have hrecieved := recieved_eq hlt
  rw [windowInside_iff hne (by omega)]
  rintro (hne' | hle)
  · exact hne' hprocessed
  · omega

theorem takeMetaSize_strm (verify : VerificationContext) (ctx : DecompressContext inf)
    (w : World) : (takeMetaSize verify ctx w).1.strm = ctx.strm := by
  unfold takeMetaSize
  split
  · split <;> rfl
  · rfl

/-- Without a stream the loop ends at once, as if all were well. -/
theorem inflateLoop_ended {registered : Bool} {bufferSZ fuel : Nat} {ctx : DecompressContext inf}
    (h : ctx.strm = none) (w : World) (nextIn : List UInt8) :
    ∃ ctx' w', inflateLoop parseMetaData registered bufferSZ (fuel + 1) ctx w nextIn =
      (.ret 0, ctx', w') := by
  have hinflate : inflate ctx w nextIn =
      (zStreamError, nextIn, [], ctx, w.record (.inflate zStreamError)) := by
    simp only [inflate, h]
  have hstore : ∃ ctx', storeMetaData parseMetaData registered ctx
      (w.record (.inflate zStreamError)) [] =
        (none, 0, ctx', w.record (.inflate zStreamError)) := by
    unfold storeMetaData
    split
    · rename_i hlt
      have hne : ctx.metaData.length ≠ ctx.metaSize := Nat.ne_of_lt hlt
      simp [hne]
    · exact ⟨ctx, rfl⟩
  obtain ⟨ctx', hstore⟩ := hstore
  have hgive : ∀ w', giveModuleData registered ctx' w' [] = (0, ctx', w') := by
    intro w'
    simp [giveModuleData]
  rw [inflateLoop, hinflate]
  simp only [hstore, List.drop_nil, hgive]
  exact ⟨_, _, rfl⟩

/-- **A block after inflate has failed** is accepted. The stream has been taken away, inflate
    refuses with a code that is not among those looked for, and the loop ends as after a success. -/
theorem Stream.accepted_after_inflate (hstrm : s.ctx.strm = none) (hne : call.buffer ≠ [])
    (hbehind : pckHeaderSz < (s.recieved call).streamRecievedSz) (hwindow : s.WindowInside call)
    (hfuel : 0 < call.fuel) :
    ∃ ctx w, s.process parseMetaData call = (.ret 0, ctx, w) := by
  obtain ⟨input, hinput, -⟩ := hwindow hne hbehind
  obtain ⟨fuel, hfuel⟩ : ∃ fuel, call.fuel = fuel + 1 := ⟨call.fuel - 1, by omega⟩
  rw [process_window hne hbehind hinput, hfuel]
  have hended : (takeMetaSize call.verify (s.recieved call) s.world).1.strm = none :=
    (takeMetaSize_strm _ _ _).trans hstrm
  exact inflateLoop_ended hended _ _

/-! ## Runs -/

/-- **The window and the errors of a run**: every call keeps them where a block is given only while
    no call has failed, and after `2 ^ 32` octets only while the counters are in order. -/
theorem window_and_errors (h : ReachableBy Stream.init (Stream.step parseMetaData) Stream.Guard s)
    (hg : s.Guard call) : s.Keeps parseMetaData call := by
  have hcounted : s.Counted :=
    h.invariant Stream.Counted Stream.Counted.initial fun hc _ hs => hc.step hs
  rcases hg with hnil | ⟨hok, hcounters⟩
  · exact Stream.keeps_nil hnil
  · by_cases hne : call.buffer = []
    · exact Stream.keeps_nil hne
    · exact Stream.keeps_block hok hne (hcounted.aligned hok hcounters)

end Call

/-! ## A package that inflate refuses -/

/-- The header, with two octets of a method that inflate does not know. -/
def refusedBlock : Call := ⟨mbedHashInit, true, [], List.replicate 280 0 ++ [0, 0], 1⟩

/-- The octet behind them. -/
def nextBlock : Call := ⟨mbedHashInit, true, [], [0], 1⟩

def createdStream : Stream (storedInflate (sampleStream 0) 85) :=
  ⟨mbedZlibstreamDecompressInit, ⟨[], [], []⟩, false, 0⟩

/-- The call with these two octets, on a new context. -/
theorem window_and_errors_created :
    createdStream.Keeps sampleParseMetaData refusedBlock :=
  window_and_errors (.start ⟨rfl, rfl, rfl⟩) (.inr ⟨rfl, .inl (by decide +kernel)⟩)

/-- The first call finds a data error. -/
theorem createdStream_refused :
    (createdStream.process sampleParseMetaData refusedBlock).1 = .ret zDataError ∧
      (createdStream.process sampleParseMetaData refusedBlock).2.1.strm.isNone ∧
      (createdStream.process sampleParseMetaData refusedBlock).2.1.streamProcessedSz =
        2 ∧
      (createdStream.process sampleParseMetaData refusedBlock).2.1.streamRecievedSz =
        282 := by
  decide +kernel

/-- The second call returns 0. -/
theorem refused_then_accepted :
    ¬∀ (s : Stream (storedInflate (sampleStream 0) 85)) (call : Call),
      Reachable Stream.init (Stream.step sampleParseMetaData) s →
        s.Keeps sampleParseMetaData call := by
  intro hall
  obtain ⟨hcode, hstrm, hprocessed, hrecieved⟩ := createdStream_refused
  generalize hrun : createdStream.process sampleParseMetaData refusedBlock = run at *
  obtain ⟨res, ctx, w⟩ := run
  simp only at hcode hstrm hprocessed hrecieved
  subst hcode
  have hlen : (282 : Nat) = createdStream.total + refusedBlock.buffer.length := by decide +kernel
  have hstep : createdStream.step sampleParseMetaData refusedBlock =
      some ⟨ctx, w, true, 282⟩ :=
    Stream.step_eq_some.mpr ⟨zDataError, ctx, w, hrun, by rw [hlen]; rfl⟩
  have hkeeps := hall ⟨ctx, w, true, 282⟩ nextBlock (.next (.start ⟨rfl, rfl, rfl⟩) trivial hstep)
  obtain ⟨new, -, -, herror⟩ := hkeeps.added
  obtain ⟨⟨code, hret, hne⟩, -⟩ := herror rfl
  have hbehind : pckHeaderSz <
      (Stream.recieved ⟨ctx, w, true, 282⟩ nextBlock).streamRecievedSz := by
    rw [Stream.recieved_eq] <;> rw [hrecieved] <;> decide
  have haccepted : ∃ ctx' w', Stream.process sampleParseMetaData ⟨ctx, w, true, 282⟩
      nextBlock = (.ret 0, ctx', w') :=
    Stream.accepted_after_inflate (Option.isNone_iff_eq_none.mp hstrm)
      (show nextBlock.buffer ≠ [] by decide) hbehind hkeeps.window (by decide)
  obtain ⟨ctx', w', haccepted⟩ := haccepted
  rw [haccepted] at hret
  exact hne (Result.ret.inj hret).symm

end Ota
end LightDuer
