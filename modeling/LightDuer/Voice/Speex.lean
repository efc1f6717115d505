import LightDuer.Lib.Framing

/-!
# The Speex framer

`lightduer_speex.c`: `duer_speex_encode` is given PCM in blocks of any size and passes whole frames
to the codec. `_buffer_in` has the bytes of a frame that is not complete, `_frame_cur` counts them.
A call without data fills the frame up with zeros.

Lengths are naturals: the block and `_buffer_in` are two objects in memory, so `cur + framesize`
does not pass what a `size_t` holds.

## Framing

What the framer should do is general: bytes are cut into frames of one length, a rest is carried,
and at the end the rest is padded. `Lib.Framing` has the cut, the rest and the padding of a list of
bytes. The framer is proved to be that cut: a block is cut together with the bytes carried before it
(`encode_block`), and so blocks are cut as one (`run_blocks`), wherever they begin and end. With a
flush behind them the codec has got all bytes, frame by frame, and fewer zeros than a frame has.

The codec is a parameter, and may filter the samples in place. `frameCur_lt`, that `_frame_cur` is
less than a frame, is a field of the state, and it is why the loop always has room to copy.

## After a flush

A flush passes the padded frame on but leaves `_frame_cur` where it was. `flushResets_iff` says of
every history of calls when a flush brings the framer back to its beginning: exactly when the bytes
given so far were whole frames, so that there was nothing to pad.
-/

set_option autoImplicit false

namespace LightDuer
namespace Voice

open Lib

/-- `duer_sample_rate_t` -/
inductive SampleRate where
  | sr8000 | sr16000
deriving DecidableEq, Repr

/-- `DUER_OUTPUT_HEADER_MAGIC_0` -/
def SampleRate.magic : SampleRate → UInt8
  | .sr8000 => 0x53
  | .sr16000 => 0x54

/-- A mode of the codec. The one for 8000 Hz may filter the samples in place, so
    `speex_encode_int` gives a buffer back; the bits are those `speex_bits_write` reads. -/
structure Codec where
  State : Type
  /-- in samples -/
  frameSize : Nat
  frameSize_pos : 0 < frameSize
  init : State
  encodeInt : State → Buffer (2 * frameSize) → State × Buffer (2 * frameSize) × List UInt8

/-- the bytes of a frame of `short`s -/
def Codec.framesize (c : Codec) : Nat := 2 * c.frameSize

theorem Codec.framesize_pos (c : Codec) : 0 < c.framesize :=
  Nat.mul_pos Nat.zero_lt_two c.frameSize_pos

/-- `duer_speex_t`, with the frames passed to the codec and what the callback has got. -/
structure DuerSpeex (c : Codec) where
  rate : SampleRate
  encoder : c.State
  frameCur : Nat
  bufferIn : Buffer c.framesize
  frameCur_lt : frameCur < c.framesize
  frames : List (List UInt8)
  packets : List (List UInt8)

namespace DuerSpeex

variable {c : Codec}

/-- What `duer_speex_create` gives; `memory` is what its `DUER_MALLOC` has found. -/
def fresh (c : Codec) (rate : SampleRate) (memory : Buffer c.framesize) : DuerSpeex c where
  rate := rate
  encoder := c.init
  frameCur := 0
  bufferIn := memory
  frameCur_lt := c.framesize_pos
  frames := []
  packets := []

/-- `duer_speex_encode_frame` -/
def encodeFrame (s : DuerSpeex c) : DuerSpeex c :=
  let r := c.encodeInt s.encoder s.bufferIn
  { s with
    encoder := r.1
    bufferIn := r.2.1
    frames := s.frames ++ [s.bufferIn.bytes]
    packets := s.packets ++
      [[UInt8.ofNat r.2.2.length, s.rate.magic, 0x50, 0x58] ++ r.2.2] }

/-- The `DUER_MEMCPY` that completes the frame. -/
def fill (s : DuerSpeex c) (bytes : List UInt8) (h : s.frameCur + bytes.length ≤ c.framesize) :
    DuerSpeex c :=
  { s with
    bufferIn := s.bufferIn.write s.frameCur bytes h
    frameCur := 0
    frameCur_lt := c.framesize_pos }

/-- The `DUER_MEMCPY` of what does not complete it. -/
def keep (s : DuerSpeex c) (bytes : List UInt8) (h : s.frameCur + bytes.length < c.framesize) :
    DuerSpeex c :=
  { s with
    bufferIn := s.bufferIn.write s.frameCur bytes (Nat.le_of_lt h)
    frameCur := s.frameCur + bytes.length
    frameCur_lt := h }

/-- The `DUER_MEMSET` of a flush: `_frame_cur` stays. -/
def padZero (s : DuerSpeex c) : DuerSpeex c :=
  { s with
    bufferIn := s.bufferIn.write s.frameCur (List.replicate (c.framesize - s.frameCur) 0) (by
      have h := s.frameCur_lt
      rw [List.length_replicate]
      omega) }

/-- The loop, with `cur` of its end. -/
def encodeLoop (s : DuerSpeex c) (data : List UInt8) (cur : Nat) : DuerSpeex c × Nat :=
  if cur + c.framesize - s.frameCur ≤ data.length then
    encodeLoop
      (s.fill ((data.drop cur).take (c.framesize - s.frameCur)) (by
        have h := s.frameCur_lt
        rw [List.length_take]
        omega)).encodeFrame
      data (cur + (c.framesize - s.frameCur))
  else (s, cur)
termination_by data.length - cur
decreasing_by
  have h := s.frameCur_lt
  omega

theorem encodeLoop_exit (s : DuerSpeex c) (data : List UInt8) (cur : Nat) :
    data.length < (s.encodeLoop data cur).2 + c.framesize - (s.encodeLoop data cur).1.frameCur := by
  fun_induction encodeLoop s data cur with
  | case1 s cur h ih => exact ih
  | case2 s cur h => exact Nat.lt_of_not_le h

/-- `duer_speex_encode`; a call without data has `[]`. -/
def encode (s : DuerSpeex c) (data : List UInt8) : DuerSpeex c :=
  let r := s.encodeLoop data 0
  if 0 < r.1.frameCur ∧ data = [] then r.1.padZero.encodeFrame
  else if h : r.2 < data.length then
    r.1.keep (data.drop r.2) (by
      have hexit : data.length < r.2 + c.framesize - r.1.frameCur := s.encodeLoop_exit data 0
      rw [List.length_drop]
      omega)
  else r.1

/-- Calls one after the other. -/
def run (s : DuerSpeex c) (blocks : List (List UInt8)) : DuerSpeex c := blocks.foldl encode s

/-- The bytes of a frame that is not complete. -/
def carried (s : DuerSpeex c) : List UInt8 := s.bufferIn.bytes.take s.frameCur

theorem carried_length (s : DuerSpeex c) : s.carried.length = s.frameCur := by
  have h := s.frameCur_lt
  rw [carried, List.length_take, Buffer.bytes_length]
  omega

theorem carried_length_lt (s : DuerSpeex c) : s.carried.length < c.framesize := by
  rw [carried_length]
  exact s.frameCur_lt

theorem carried_eq_nil {s : DuerSpeex c} (h : s.frameCur = 0) : s.carried = [] := by
  rw [carried, h, List.take_zero]

/-! ### One call -/

@[simp] theorem encodeFrame_frames (s : DuerSpeex c) :
    s.encodeFrame.frames = s.frames ++ [s.bufferIn.bytes] := rfl

@[simp] theorem encodeFrame_frameCur (s : DuerSpeex c) : s.encodeFrame.frameCur = s.frameCur := rfl

@[simp] theorem fill_frameCur (s : DuerSpeex c) (bytes : List UInt8)
    (h : s.frameCur + bytes.length ≤ c.framesize) : (s.fill bytes h).frameCur = 0 := rfl

@[simp] theorem fill_frames (s : DuerSpeex c) (bytes : List UInt8)
    (h : s.frameCur + bytes.length ≤ c.framesize) : (s.fill bytes h).frames = s.frames := rfl

/-- The frame that is passed on has the bytes carried and those that complete it. -/
theorem fill_bytes (s : DuerSpeex c) {bytes : List UInt8}
    (h : s.frameCur + bytes.length ≤ c.framesize)
    (hfull : s.frameCur + bytes.length = c.framesize) :
    (s.fill bytes h).bufferIn.bytes = s.carried ++ bytes :=
  Buffer.write_bytes_of_eq s.bufferIn h hfull

theorem fill_encodeFrame_carried (s : DuerSpeex c) (bytes : List UInt8)
    (h : s.frameCur + bytes.length ≤ c.framesize) : (s.fill bytes h).encodeFrame.carried = [] :=
  carried_eq_nil rfl

theorem keep_carried (s : DuerSpeex c) {bytes : List UInt8}
    (h : s.frameCur + bytes.length < c.framesize) :
    (s.keep bytes h).carried = s.carried ++ bytes :=
  Buffer.take_write s.bufferIn (Nat.le_of_lt h)

@[simp] theorem keep_frames (s : DuerSpeex c) (bytes : List UInt8)
    (h : s.frameCur + bytes.length < c.framesize) : (s.keep bytes h).frames = s.frames := rfl

/-- A flush passes the bytes carried on, with zeros behind them. -/
theorem padZero_bytes (s : DuerSpeex c) :
    s.padZero.bufferIn.bytes = Framing.pad c.framesize 0 s.carried := by
  have hlen : s.frameCur + (List.replicate (c.framesize - s.frameCur) (0 : UInt8)).length =
      c.framesize := by
    have h := s.frameCur_lt
    rw [List.length_replicate]
    omega
  rw [Framing.pad, carried_length]
  exact Buffer.write_bytes_of_eq s.bufferIn (Nat.le_of_eq hlen) hlen

/-- **The loop** passes on the frames that the bytes carried and the data make up. What is left of
    them is carried, or is the data from `cur` on. -/
theorem encodeLoop_spec (s : DuerSpeex c) (data : List UInt8) (cur : Nat) :
    (s.encodeLoop data cur).1.frames =
        s.frames ++ Framing.frames c.framesize (s.carried ++ data.drop cur) ∧
      (s.encodeLoop data cur).1.carried ++ data.drop (s.encodeLoop data cur).2 =
        Framing.rest c.framesize (s.carried ++ data.drop cur) := by
  have hpos := c.framesize_pos
  fun_induction encodeLoop s data cur with
  | case1 s cur h ih =>
    have hcur := s.frameCur_lt
    have hlen : s.frameCur + ((data.drop cur).take (c.framesize - s.frameCur)).length =
        c.framesize := by
      rw [List.length_take, List.length_drop]
      omega
    have hsplit : s.carried ++ data.drop cur =
        (s.carried ++ (data.drop cur).take (c.framesize - s.frameCur)) ++
          data.drop (cur + (c.framesize - s.frameCur)) := by
      rw [List.append_assoc, ← List.drop_drop, List.take_append_drop]
    have hframe : (s.carried ++ (data.drop cur).take (c.framesize - s.frameCur)).length =
        c.framesize := by
      rw [List.length_append, carried_length, hlen]
    rw [hsplit, Framing.frames_frame_append hpos hframe, Framing.rest_frame_append hpos hframe]
    obtain ⟨hframes, hrest⟩ := ih
    rw [fill_encodeFrame_carried, List.nil_append] at hframes hrest
    refine ⟨?_, hrest⟩
    rw [hframes, encodeFrame_frames, fill_frames, fill_bytes s _ hlen, List.append_assoc]
    rfl
  | case2 s cur h =>
    have hlt : (s.carried ++ data.drop cur).length < c.framesize := by
      have hcur := s.frameCur_lt
      rw [List.length_append, carried_length, List.length_drop]
      omega
    rw [Framing.frames_of_lt hlt, Framing.rest_of_lt hlt, List.append_nil]
    exact ⟨rfl, rfl⟩

/-- **A block** is cut with the bytes carried before it. -/
theorem encode_block (s : DuerSpeex c) {data : List UInt8} (hdata : data ≠ []) :
    (s.encode data).frames = s.frames ++ Framing.frames c.framesize (s.carried ++ data) ∧
      (s.encode data).carried = Framing.rest c.framesize (s.carried ++ data) := by
  obtain ⟨hframes, hrest⟩ := s.encodeLoop_spec data 0
  rw [List.drop_zero] at hframes hrest
  rw [encode, if_neg (fun h => hdata h.2)]
  split
  · rename_i hlt
    rw [keep_frames, keep_carried]
    exact ⟨hframes, hrest⟩
  · rename_i hge
    rw [List.drop_eq_nil_of_le (Nat.le_of_not_lt hge), List.append_nil] at hrest
    exact ⟨hframes, hrest⟩

theorem encodeLoop_nil (s : DuerSpeex c) : s.encodeLoop [] 0 = (s, 0) := by
  have h := s.frameCur_lt
  rw [encodeLoop, if_neg]
  rw [List.length_nil]
  omega

/-- **A flush** with bytes carried passes them on, and carries as many as before. -/
theorem encode_nil_of_pos {s : DuerSpeex c} (h : 0 < s.frameCur) :
    (s.encode []).frames = s.frames ++ [Framing.pad c.framesize 0 s.carried] ∧
      (s.encode []).frameCur = s.frameCur := by
  have henc : s.encode [] = s.padZero.encodeFrame := by
    simp only [encode, encodeLoop_nil]
    rw [if_pos ⟨h, trivial⟩]
  rw [henc, encodeFrame_frames, padZero_bytes]
  exact ⟨rfl, rfl⟩

/-- A flush without is void. -/
theorem encode_nil_of_eq_zero {s : DuerSpeex c} (h : s.frameCur = 0) : s.encode [] = s := by
  simp only [encode, encodeLoop_nil]
  rw [if_neg (fun hpos => Nat.ne_of_gt hpos.1 h)]
  rfl

/-- What a flush passes on. -/
theorem encode_nil_frames (s : DuerSpeex c) :
    (s.encode []).frames =
      s.frames ++ if s.carried = [] then [] else [Framing.pad c.framesize 0 s.carried] := by
  rcases Nat.eq_zero_or_pos s.frameCur with h | h
  · rw [encode_nil_of_eq_zero h, if_pos (carried_eq_nil h), List.append_nil]
  · have hne : s.carried ≠ [] := by
      rw [← List.length_pos_iff, carried_length]
      exact h
    rw [(encode_nil_of_pos h).1, if_neg hne]

/-- Whatever the call, as many bytes are carried as if all of them had been cut. -/
theorem encode_frameCur (s : DuerSpeex c) (data : List UInt8) :
    (s.encode data).frameCur = (s.frameCur + data.length) % c.framesize := by
  by_cases hdata : data = []
  · subst hdata
    rw [List.length_nil, Nat.add_zero, Nat.mod_eq_of_lt s.frameCur_lt]
    rcases Nat.eq_zero_or_pos s.frameCur with h | h
    · rw [encode_nil_of_eq_zero h]
    · exact (encode_nil_of_pos h).2
  · rw [← carried_length, (s.encode_block hdata).2, Framing.rest_length, List.length_append,
      carried_length]

/-! ### Runs -/

@[simp] theorem run_nil (s : DuerSpeex c) : s.run [] = s := rfl

@[simp] theorem run_cons (s : DuerSpeex c) (data : List UInt8) (blocks : List (List UInt8)) :
    s.run (data :: blocks) = (s.encode data).run blocks := rfl

theorem run_append (s : DuerSpeex c) (xs ys : List (List UInt8)) :
    s.run (xs ++ ys) = (s.run xs).run ys := List.foldl_append

theorem run_frameCur (s : DuerSpeex c) (blocks : List (List UInt8)) :
    (s.run blocks).frameCur = (s.frameCur + blocks.flatten.length) % c.framesize := by
  induction blocks generalizing s with
  | nil => exact (Nat.mod_eq_of_lt s.frameCur_lt).symm
  | cons data blocks ih =>
    rw [run_cons, ih, encode_frameCur, Nat.mod_add_mod, List.flatten_cons, List.length_append,
      Nat.add_assoc]

/-- **Blocks** are cut as one, with the bytes carried before them. -/
theorem run_blocks (s : DuerSpeex c) {blocks : List (List UInt8)} (h : ∀ b ∈ blocks, b ≠ []) :
    (s.run blocks).frames =
        s.frames ++ Framing.frames c.framesize (s.carried ++ blocks.flatten) ∧
      (s.run blocks).carried = Framing.rest c.framesize (s.carried ++ blocks.flatten) := by
  induction blocks generalizing s with
  | nil =>
    rw [List.flatten_nil, List.append_nil, Framing.frames_of_lt s.carried_length_lt,
      Framing.rest_of_lt s.carried_length_lt, List.append_nil]
    exact ⟨rfl, rfl⟩
  | cons data blocks ih =>
    obtain ⟨hframes, hcarried⟩ := s.encode_block (h data List.mem_cons_self)
    obtain ⟨hframes', hcarried'⟩ :=
      ih (s.encode data) (fun b hb => h b (List.mem_cons_of_mem data hb))
    rw [run_cons, hframes', hcarried', hframes, hcarried, List.flatten_cons, ← List.append_assoc,
      List.append_assoc s.frames]
    rw [← Framing.frames_append c.framesize_pos, ← Framing.rest_append c.framesize_pos]
    exact ⟨rfl, rfl⟩

/-- Blocks and a flush: the rest is passed on with zeros behind it. -/
theorem run_blocks_flush (s : DuerSpeex c) {blocks : List (List UInt8)}
    (h : ∀ b ∈ blocks, b ≠ []) :
    (s.run (blocks ++ [[]])).frames =
      s.frames ++ Framing.padded c.framesize 0 (s.carried ++ blocks.flatten) := by
  obtain ⟨hframes, hcarried⟩ := s.run_blocks h
  rw [run_append, run_cons, run_nil, encode_nil_frames, hframes, hcarried, List.append_assoc]
  rfl

/-! ### Any cuts of the blocks -/

/-- A codec that keeps the samples as they are. -/
def narrowband : Codec where
  State := Unit
  frameSize := 160
  frameSize_pos := by decide
  init := ()
  encodeInt := fun st buffer => (st, buffer, [])

/-- **The cuts of the blocks do not show**: the codec gets what they have together, frame by frame,
    and at the end fewer zeros than a frame has. The blocks may be of any size, smaller than a frame
    or many times as long; only an empty one would be taken for the flush. -/
theorem frames_of_blocks (c : Codec) (rate : SampleRate) (memory : Buffer c.framesize)
    (blocks : List (List UInt8)) (h : ∀ b ∈ blocks, b ≠ []) :
    ((fresh c rate memory).run (blocks ++ [[]])).frames =
        Framing.padded c.framesize 0 blocks.flatten ∧
      (∀ f ∈ ((fresh c rate memory).run (blocks ++ [[]])).frames, f.length = c.framesize) ∧
      ∃ k, k < c.framesize ∧ ((fresh c rate memory).run (blocks ++ [[]])).frames.flatten =
        blocks.flatten ++ List.replicate k 0 := by
  have hframes := run_blocks_flush (fresh c rate memory) h
  rw [carried_eq_nil rfl] at hframes
  replace hframes : ((fresh c rate memory).run (blocks ++ [[]])).frames =
      Framing.padded c.framesize 0 blocks.flatten := hframes
  rw [hframes]
  exact ⟨rfl, fun f hf => Framing.length_of_mem_padded c.framesize_pos hf,
    Framing.flatten_padded c.framesize_pos 0 blocks.flatten⟩

/-- Three octets in two blocks. -/
theorem frames_of_two_blocks :
    ((fresh narrowband .sr8000 (Buffer.fill _ 0)).run ([[1], [2, 3]] ++ [[]])).frames =
        Framing.padded 320 0 [1, 2, 3] ∧
      (∀ f ∈ ((fresh narrowband .sr8000 (Buffer.fill _ 0)).run ([[1], [2, 3]] ++ [[]])).frames,
        f.length = 320) ∧
      ∃ k, k < 320 ∧
        ((fresh narrowband .sr8000 (Buffer.fill _ 0)).run ([[1], [2, 3]] ++ [[]])).frames.flatten =
          [1, 2, 3] ++ List.replicate k 0 :=
  frames_of_blocks narrowband .sr8000 (Buffer.fill _ 0) [[1], [2, 3]] (by decide)

/-! ### After a flush -/

/-- After the calls of `history` and a flush, blocks are framed as by a fresh encoder, up to the
    next flush and by it. -/
def FlushResets (c : Codec) (rate : SampleRate) (memory : Buffer c.framesize)
    (history : List (List UInt8)) : Prop :=
  ∀ (memory' : Buffer c.framesize) (blocks last : List (List UInt8)), (∀ b ∈ blocks, b ≠ []) →
    last = [] ∨ last = [[]] →
    ((fresh c rate memory).run (history ++ [[]] ++ (blocks ++ last))).frames =
      ((fresh c rate memory).run (history ++ [[]])).frames ++
        ((fresh c rate memory').run (blocks ++ last)).frames

theorem frameCur_after_flush (c : Codec) (rate : SampleRate) (memory : Buffer c.framesize)
    (history : List (List UInt8)) :
    ((fresh c rate memory).run (history ++ [[]])).frameCur =
      history.flatten.length % c.framesize := by
  rw [run_frameCur, List.flatten_append, List.flatten_singleton, List.append_nil]
  exact congrArg (· % c.framesize) (Nat.zero_add _)

/-- Without bytes carried the frames are those of a fresh encoder. -/
theorem run_of_frameCur_eq_zero {s : DuerSpeex c} (hs : s.frameCur = 0) (rate : SampleRate)
    (memory : Buffer c.framesize) {blocks last : List (List UInt8)} (h : ∀ b ∈ blocks, b ≠ [])
    (hlast : last = [] ∨ last = [[]]) :
    (s.run (blocks ++ last)).frames =
      s.frames ++ ((fresh c rate memory).run (blocks ++ last)).frames := by
  rcases hlast with rfl | rfl
  · rw [List.append_nil, (s.run_blocks h).1, ((fresh c rate memory).run_blocks h).1,
      carried_eq_nil hs, carried_eq_nil rfl]
    rfl
  · rw [s.run_blocks_flush h, (fresh c rate memory).run_blocks_flush h, carried_eq_nil hs,
      carried_eq_nil rfl]
    rfl

/-- With bytes carried a block that completes their frame is passed on with them. -/
theorem not_flushResets {c : Codec} (rate : SampleRate) (memory : Buffer c.framesize)
    {history : List (List UInt8)} (h : history.flatten.length % c.framesize ≠ 0) :
    ¬FlushResets c rate memory history := by
  intro hresets
  have hcur := frameCur_after_flush c rate memory history
  have hpos := Nat.mod_lt history.flatten.length c.framesize_pos
  have hne : ∀ b ∈ [List.replicate (c.framesize - history.flatten.length % c.framesize)
      (0 : UInt8)], b ≠ [] := by
    intro b hb
    rw [List.mem_singleton.mp hb, ← List.length_pos_iff, List.length_replicate]
    omega
  have hframes := hresets memory _ [] hne (.inl rfl)
  rw [List.append_nil, run_append, (run_blocks _ hne).1, (run_blocks _ hne).1] at hframes
  have hone := List.append_cancel_left hframes
  rw [List.flatten_singleton] at hone
  -- as many bytes as a frame has on the one side, fewer on the other
  rw [Framing.frames_of_length_eq c.framesize_pos, Framing.frames_of_lt] at hone
  · exact absurd hone (List.cons_ne_nil _ _)
  · rw [List.length_append, carried_length, List.length_replicate]
    show 0 + _ < _
    omega
  · rw [List.length_append, carried_length, hcur, List.length_replicate]
    omega

/-- **A flush resets the framer** only where nothing is carried: the calls before it have given
    whole frames. The count of the carried octets is not set back by the flush, so what comes next
    is cut with octets of this session in front. -/
theorem flushResets_iff (c : Codec) (rate : SampleRate) (memory : Buffer c.framesize)
    (history : List (List UInt8)) :
    FlushResets c rate memory history ↔ history.flatten.length % c.framesize = 0 := by
  constructor
  · intro h
    by_contra hne
    exact not_flushResets rate memory hne h
  · intro h memory' blocks last hne hlast
    rw [run_append]
    refine run_of_frameCur_eq_zero ?_ rate memory' hne hlast
    rw [frameCur_after_flush, h]

/-- One octet, and a flush. -/
theorem not_flushResets_one_octet :
    ¬FlushResets narrowband .sr8000 (Buffer.fill _ 0) [[7]] :=
  not_flushResets .sr8000 (Buffer.fill _ 0) (by decide)

end DuerSpeex

end Voice
end LightDuer
