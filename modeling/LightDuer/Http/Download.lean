import LightDuer.Http.Receive

/-!
# Downloads are exact

What the data handler has been given is always the part of the resource from the start position to
`recv_size`, so that a connection that breaks is resumed at the right place. While a chunked body is
read, `p_chunk_buf` holds octets that were received and not handed over; `Owes` says that they come
between what was handed over and what is still on the wire. On an error they are dropped, and asked
for again.

## The invariant

`Exact R pos c` says of the calls of the handler so far that their blocks, one behind the other, are
the beginning of the resource from `pos` on, and that `recv_size` is where they end. It holds
between any two calls, on every path and also after errors; what a function reads and does not hand
over makes no difference to it. For a body in chunks the invariant of the loop is `Owes`: handed
over, in `p_chunk_buf`, still to come, in this order, is the resource.

## From the parts to the download

`contentLoop_spec` and `recvChunkLoop_spec` are inductions over the fuel and say how a body ends
(`BodyEnd`): exact in any case, and whole where the client reports success without having been
stopped. `Served` is what is asked of the servers: whatever position is asked for, the reply is one
with the resource from there on. `getLoop_spec` is the induction over the attempts. Each begins with
the position that the one before has left, and the attempts that fail change nothing else.

Lengths are below 2^31, since the announced length is kept in an `int`.
-/

set_option autoImplicit false

namespace LightDuer
namespace Http

open Lib

/-! ## What has been handed over -/

/-- The data of the handler calls. -/
def blocks (calls : List HandlerCall) : List UInt8 := calls.flatMap (·.block)

theorem blocks_append (calls calls' : List HandlerCall) :
    blocks (calls ++ calls') = blocks calls ++ blocks calls' := List.flatMap_append

theorem blocks_handle (c : HttpClient) (block : List UInt8) :
    blocks (c.handle block).calls = blocks c.calls ++ block := by
  simp [HttpClient.handle, blocks]

/-- The handler has been given the resource from `pos` to `recv_size`, now and after each
    call. -/
structure Exact (R : List UInt8) (pos : Nat) (c : HttpClient) : Prop where
  registered : c.dataHdlrCb = true
  size : c.recvSize = pos + (blocks c.calls).length
  part : blocks c.calls <+: R.drop pos
  stamped : ∀ done call rest, c.calls = done ++ call :: rest →
    call.recvSize = pos + (blocks (done ++ [call])).length

section Exact

variable {R : List UInt8} {pos : Nat} {c c' : HttpClient}

theorem Exact.congr (h : Exact R pos c) (hcalls : c'.calls = c.calls)
    (hsize : c'.recvSize = c.recvSize) (hcb : c'.dataHdlrCb = c.dataHdlrCb) : Exact R pos c' := by
  obtain ⟨h₁, h₂, h₃, h₄⟩ := h
  constructor <;> simpa only [hcalls, hsize, hcb]

/-- After each call the handler has been given the resource up to `recv_size`. -/
theorem Exact.slices (h : Exact R pos c) {done rest : List HandlerCall} {call : HandlerCall}
    (hcalls : c.calls = done ++ call :: rest) : pos ≤ call.recvSize ∧
      blocks (done ++ [call]) = (R.drop pos).take (call.recvSize - pos) := by
  have hsize := h.stamped done call rest hcalls
  have hpart : blocks (done ++ [call]) <+: R.drop pos := by
    refine List.IsPrefix.trans ⟨blocks rest, ?_⟩ h.part
    rw [← blocks_append, hcalls, List.append_assoc, List.singleton_append]
  refine ⟨by omega, ?_⟩
  rw [hsize, Nat.add_sub_cancel_left]
  exact List.prefix_iff_eq_take.mp hpart

theorem Exact.quiet (h : Exact R pos c) (hq : Quiet c c') : Exact R pos c' :=
  h.congr hq.calls hq.recvSize hq.dataHdlrCb

/-- What is left of the resource starts at `recv_size`. -/
theorem Exact.rest (h : Exact R pos c) : blocks c.calls ++ R.drop c.recvSize = R.drop pos := by
  obtain ⟨tail, htail⟩ := h.part
  have hdrop : R.drop c.recvSize = tail := by
    rw [h.size, ← List.drop_drop, ← htail, List.drop_left]
  rw [hdrop, htail]

variable (hR : R.length < 2 ^ 31) (hpos : pos < 2 ^ 31)
include hR hpos

theorem part_bound {l : List UInt8} (h : l <+: R.drop pos) : pos + l.length < 2 ^ 31 := by
  have hle := h.length_le
  rw [List.length_drop] at hle
  omega

theorem Exact.recvSize_lt (h : Exact R pos c) : c.recvSize < 2 ^ 31 :=
  h.size ▸ part_bound hR hpos h.part

/-- A call of the handler with the next part of the resource. -/
theorem Exact.handle (h : Exact R pos c) {block : List UInt8}
    (hpart : blocks c.calls ++ block <+: R.drop pos) : Exact R pos (c.handle block) := by
  have hlen : pos + (blocks c.calls ++ block).length < 2 ^ 31 := part_bound hR hpos hpart
  have hsize : u32 (c.recvSize + block.length) = pos + (blocks c.calls ++ block).length := by
    have hrecv := h.size
    rw [List.length_append] at hlen ⊢
    rw [u32_of_lt (by omega)]
    omega
  have hblocks := blocks_handle c block
  refine ⟨h.registered, ?_, hblocks ▸ hpart, ?_⟩
  · rw [hblocks]
    exact hsize
  · intro done call rest heq
    rcases List.eq_nil_or_concat' rest with rfl | ⟨rest, last, rfl⟩
    · obtain ⟨hdone, hcall⟩ := List.append_inj' heq rfl
      obtain rfl := List.singleton_inj.mp hcall
      rw [← hdone]
      have hlast : blocks (c.calls ++ [⟨c.dataPos, block, c.httpContentType,
          u32 (c.recvSize + block.length)⟩]) = blocks c.calls ++ block := hblocks
      rw [hlast]
      exact hsize
    · have heq' : (c.handle block).calls = (done ++ call :: rest) ++ [last] := by simpa using heq
      exact h.stamped done call rest (List.append_inj' heq' rfl).1

theorem Exact.handle_mid (h : Exact R pos c) {block : List UInt8}
    (hpart : blocks c.calls ++ block <+: R.drop pos) :
    Exact R pos { c.handle block with dataPos := .mid } :=
  (h.handle hR hpos hpart).congr rfl rfl rfl

end Exact

/-- How a body ends: what was handed over is right, and all of it when the client says so. -/
structure BodyEnd (R : List UInt8) (pos : Nat) (c : HttpClient) (out : Outcome)
    (c' : HttpClient) : Prop where
  exact : Exact R pos c'
  conns : c'.conns = c.conns
  whole : out = .done .ok → c'.stopped = false → blocks c'.calls = R.drop pos

/-! ## A body under a content length -/

section Content

variable {R : List UInt8} {pos : Nat} (hR : R.length < 2 ^ 31) (hpos : pos < 2 ^ 31)
include hR hpos

/-- Handing over what is in the buffer, if there is something. -/
theorem Exact.handOver {c : HttpClient} (h : Exact R pos c)
    (hpart : blocks c.calls ++ c.buf <+: R.drop pos) :
    ∃ c', (if c.buf.isEmpty then c else { c.handle c.buf with dataPos := .mid }) = c' ∧
      Exact R pos c' ∧ blocks c'.calls = blocks c.calls ++ c.buf ∧ c'.sock = c.sock ∧
      c'.conns = c.conns := by
  by_cases hempty : c.buf = []
  · exact ⟨c, by simp [hempty], h, by simp [hempty], rfl, rfl⟩
  · refine ⟨_, by simp [hempty], h.handle_mid hR hpos hpart, ?_, rfl, rfl⟩
    exact blocks_handle c c.buf

theorem contentLoop_spec {maxLen : Nat} (fuel : Nat) : ∀ (needToRead : Nat) (c : HttpClient),
    Exact R pos c → blocks c.calls ++ c.wire = R.drop pos →
    needToRead + c.buf.length = c.wire.length →
    ∃ out c', contentLoop maxLen fuel needToRead c = (out, c') ∧ BodyEnd R pos c out c' := by
  induction fuel with
  | zero =>
    exact fun needToRead c he _ _ => ⟨.running, c, rfl, he, rfl, fun h => absurd h (by simp)⟩
  | succ fuel ih =>
    intro needToRead c he howed hneed
    unfold contentLoop
    by_cases hover : needToRead = 0 ∧ c.buf = []
    · refine ⟨.done .ok, c, by rw [if_pos hover], he, rfl, fun _ _ => ?_⟩
      have hwire : c.wire = [] := by
        refine List.eq_nil_of_length_eq_zero ?_
        rw [← hneed, hover.1, hover.2]
        rfl
      rw [← howed, hwire, List.append_nil]
    · rw [if_neg hover]
      obtain ⟨stops, hstop | hstop⟩ := c.checkStop_cases
      · rw [hstop]
        exact ⟨.done .ok, _, rfl, he.congr rfl rfl rfl, rfl, fun _ h => absurd h (by simp)⟩
      · rw [hstop]
        obtain ⟨res, got, sock, hrecv, hres, hle, hs⟩ :=
          httpClientRecv_cases { c with stops } (min needToRead (maxLen - c.buf.length))
        simp only [hrecv]
        have hwire : c.wire = (c.buf ++ got) ++ sock.src.stream := by
          rw [HttpClient.wire, hs, List.append_assoc]
        have hheld : (c.buf ++ got).length - c.buf.length = got.length := by
          rw [List.length_append, Nat.add_sub_cancel_left]
        have hlen := congrArg List.length hwire
        rw [List.length_append, List.length_append] at hlen
        have hgot : got.length ≤ needToRead := Nat.le_trans hle (Nat.min_le_left ..)
        have howed₁ : blocks c.calls ++ (c.buf ++ got) ++ sock.src.stream = R.drop pos := by
          rw [List.append_assoc, ← hwire, howed]
        have he₁ : Exact R pos { c with stops, sock, buf := c.buf ++ got } :=
          he.congr rfl rfl rfl
        obtain ⟨c₂, hc₂, he₂, hblocks, hsock, hconns⟩ :=
          he₁.handOver hR hpos ⟨sock.src.stream, howed₁⟩
        have hcb : ¬ (c.buf ++ got ≠ [] ∧ c.dataHdlrCb = false) := by simp [he.registered]
        simp only [if_neg hcb, hc₂, hheld]
        by_cases hr : res = .ok
        · by_cases hgive : 0 < needToRead - got.length ∧ (c.buf ++ got).isEmpty = true
          · exact ⟨.done .failed, c₂, by simp [hr, hgive], he₂, hconns,
              fun h => absurd h (by simp)⟩
          · rw [if_neg (by simp [hr]), if_neg hgive]
            have howed₂ : blocks c₂.calls ++ ({ c₂ with buf := [] } : HttpClient).wire =
                R.drop pos := by
              rw [hblocks, HttpClient.wire, List.nil_append, hsock]
              exact howed₁
            have hneed₂ : needToRead - got.length + ([] : List UInt8).length =
                ({ c₂ with buf := [] } : HttpClient).wire.length := by
              rw [HttpClient.wire, List.nil_append, hsock, List.length_nil]
              show _ = sock.src.stream.length
              omega
            obtain ⟨out, c', hloop, hend⟩ :=
              ih (needToRead - got.length) { c₂ with buf := [] } (he₂.congr rfl rfl rfl)
                howed₂ hneed₂
            exact ⟨out, c', hloop, hend.exact, hend.conns.trans hconns, hend.whole⟩
        · exact ⟨.done res, c₂, by simp [hr], he₂, hconns, fun h => absurd (by simpa using h) hr⟩

/-- `http_client_recv_content_data`, once the headers announced the length of the body. -/
theorem httpClientRecvContentData_spec {maxLen fuel : Nat} {c : HttpClient} (he : Exact R pos c)
    (hwire : c.wire = R.drop c.recvSize)
    (hlen : c.httpContentLen = c.totalLen (R.drop c.recvSize).length) :
    ∃ out c', httpClientRecvContentData fuel c maxLen = (out, c') ∧ BodyEnd R pos c out c' := by
  have hneed : u32OfInt (c.httpContentLen - c.recvSize) = c.wire.length := by
    have hle : (R.drop c.recvSize).length < 2 ^ 32 := by
      rw [List.length_drop]
      omega
    rw [hlen, HttpClient.totalLen, u32OfInt_int32_add_sub hle, hwire]
  unfold httpClientRecvContentData
  simp only [hneed]
  split
  · exact ⟨.done .failed, c, rfl, he, rfl, fun h => absurd h (by simp)⟩
  · have hbuf : c.wire.length - c.buf.length + c.buf.length = c.wire.length := by
      rw [HttpClient.wire, List.length_append]
      omega
    exact contentLoop_spec hR hpos fuel _ c he (by rw [hwire, he.rest]) hbuf

end Content

/-! ## A body in chunks -/

/-- The octets in `p_chunk_buf` come next, and then `rest`. -/
structure Owes (R : List UInt8) (pos : Nat) (c : HttpClient) (chunkBuf rest : List UInt8) :
    Prop where
  exact : Exact R pos c
  room : chunkBuf.length < hcChunkSize - 1
  owed : blocks c.calls ++ chunkBuf ++ rest = R.drop pos

/-- How reading chunks ends, before `p_chunk_buf` is handed over. -/
structure ChunkEnd (R : List UInt8) (pos : Nat) (c : HttpClient) (out : Outcome)
    (chunkBuf : List UInt8) (c' : HttpClient) : Prop where
  exact : Exact R pos c'
  conns : c'.conns = c.conns
  part : out = .done .ok → blocks c'.calls ++ chunkBuf <+: R.drop pos
  whole : out = .done .ok → c'.stopped = false → blocks c'.calls ++ chunkBuf = R.drop pos

/-- What a step over the chunks comes to: an end, or `wire` to be read for the rest `body`,
    with at most `held` octets of it in the buffer. -/
def ChunkStep (R : List UInt8) (pos : Nat) (c : HttpClient) (body wire : List UInt8)
    (held : Nat) : Option Outcome × List UInt8 × HttpClient → Prop
  | (none, chunkBuf, c') => Owes R pos c' chunkBuf body ∧ c'.wire = wire ∧
      c'.buf.length ≤ held ∧ c'.conns = c.conns
  | (some out, chunkBuf, c') => ChunkEnd R pos c out chunkBuf c'

section Chunked

variable {R : List UInt8} {pos : Nat}

theorem Owes.congr {c c' : HttpClient} {chunkBuf rest : List UInt8} (h : Owes R pos c chunkBuf rest)
    (hcalls : c'.calls = c.calls) (hsize : c'.recvSize = c.recvSize)
    (hcb : c'.dataHdlrCb = c.dataHdlrCb) : Owes R pos c' chunkBuf rest :=
  ⟨h.exact.congr hcalls hsize hcb, h.room, by rw [hcalls, h.owed]⟩

/-- An end that is not a success. -/
theorem ChunkEnd.of_failure {c c' : HttpClient} {out : Outcome} {chunkBuf : List UInt8}
    (he : Exact R pos c') (hconns : c'.conns = c.conns) (hout : out ≠ .done .ok) :
    ChunkEnd R pos c out chunkBuf c' :=
  ⟨he, hconns, fun h => absurd h hout, fun h => absurd h hout⟩

/-- An end by the stop flag. -/
theorem ChunkEnd.of_stop {c c' : HttpClient} {out : Outcome} {chunkBuf rest : List UInt8}
    (ho : Owes R pos c' chunkBuf rest) (hconns : c'.conns = c.conns) (hstop : c'.stopped = true) :
    ChunkEnd R pos c out chunkBuf c' :=
  ⟨ho.exact, hconns, fun _ => ⟨rest, ho.owed⟩, fun _ h => absurd (hstop.symm.trans h) (by simp)⟩

theorem ChunkStep.of_conns {c c₀ : HttpClient} {body wire : List UInt8} {held : Nat}
    {r : Option Outcome × List UInt8 × HttpClient} (h : ChunkStep R pos c body wire held r)
    (hconns : c.conns = c₀.conns) : ChunkStep R pos c₀ body wire held r := by
  obtain ⟨out, chunkBuf, c'⟩ := r
  cases out with
  | none => exact ⟨h.1, h.2.1, h.2.2.1, h.2.2.2.trans hconns⟩
  | some out =>
    have hend : ChunkEnd R pos c out chunkBuf c' := h
    exact ⟨hend.exact, hend.conns.trans hconns, hend.part, hend.whole⟩

variable (hR : R.length < 2 ^ 31) (hpos : pos < 2 ^ 31)
include hR hpos

/-- **Re-blocking** loses nothing: what goes into `p_chunk_buf` comes out in order. A block is
    handed over when the buffer is full, and the octets that did not fit are the first of the next
    one. -/
theorem reblock_spec {c : HttpClient} {chunkBuf data rest : List UInt8}
    (ho : Owes R pos c chunkBuf (data ++ rest)) (hdata : data.length ≤ hcChunkSize - 1) :
    ∃ chunkBuf' c', reblock c chunkBuf data = (chunkBuf', c') ∧ Owes R pos c' chunkBuf' rest ∧
      c'.buf = c.buf ∧ c'.sock = c.sock ∧ c'.conns = c.conns := by
  obtain ⟨he, hroom, howed⟩ := ho
  unfold reblock
  by_cases hfull : hcChunkSize - 1 ≤ chunkBuf.length + data.length
  · simp only [if_pos hfull, he.registered, if_true]
    have hsplit : blocks c.calls ++ (chunkBuf ++ data.take (hcChunkSize - 1 - chunkBuf.length)) ++
        (data.drop (hcChunkSize - 1 - chunkBuf.length) ++ rest) = R.drop pos := by
      rw [← howed]
      conv_rhs => rw [← List.take_append_drop (hcChunkSize - 1 - chunkBuf.length) data]
      simp only [List.append_assoc]
    refine ⟨_, _, rfl, ⟨he.handle_mid hR hpos ⟨_, hsplit⟩, ?_, ?_⟩, rfl, rfl, rfl⟩
    · rw [List.length_drop]
      omega
    · show blocks (c.handle _).calls ++ _ ++ rest = R.drop pos
      rw [blocks_handle, ← hsplit]
      simp only [List.append_assoc]
  · refine ⟨chunkBuf ++ data, c, by rw [if_neg hfull], ⟨he, ?_, ?_⟩, rfl, rfl, rfl⟩
    · rw [List.length_append]
      omega
    · rw [← howed]
      simp only [List.append_assoc]

theorem copySmallChunk_spec {c : HttpClient} {chunkBuf data body wire : List UInt8}
    (ho : Owes R pos c chunkBuf (data ++ body)) (hwire : c.wire = data ++ crLf ++ wire)
    (hsize : c.chunkSize = data.length) (hheld : c.buf.length ≤ hcChunkSize - 1) :
    ChunkStep R pos c body wire (hcChunkSize - 1) (copySmallChunk c chunkBuf) := by
  unfold copySmallChunk
  simp only [hsize]
  by_cases hneed : c.buf.length < u32 (data.length + 2)
  · rw [if_pos hneed]
    exact .of_failure ho.exact rfl (by simp)
  · rw [if_neg hneed]
    by_cases hlen : c.buf.length < data.length + 2
    · rw [if_pos hlen]
      exact .of_failure ho.exact rfl (by simp)
    · rw [if_neg hlen]
      have hle : (data ++ crLf).length ≤ c.buf.length := by
        rw [List.length_append]
        exact Nat.le_of_not_lt hlen
      obtain ⟨tail, htail⟩ : data ++ crLf <+: c.buf :=
        List.prefix_of_prefix_length_le ⟨wire, rfl⟩ ⟨c.sock.src.stream, hwire⟩ hle
      have htake : c.buf.take data.length = data := by
        rw [← htail, List.append_assoc, List.take_left]
      have hdrop : c.buf.drop (data.length + 2) = tail := by
        rw [← htail, show data.length + 2 = (data ++ crLf).length by simp [crLf], List.drop_left]
      have hrest : tail ++ c.sock.src.stream = wire := by
        have hwhole : (data ++ crLf) ++ (tail ++ c.sock.src.stream) = (data ++ crLf) ++ wire := by
          rw [← List.append_assoc, htail]
          exact hwire
        exact List.append_cancel_left hwhole
      have hdata : data.length ≤ hcChunkSize - 1 := by omega
      obtain ⟨chunkBuf', c', hre, ho', hbuf, hsock, hconns⟩ := reblock_spec hR hpos ho hdata
      simp only [htake, hre, hbuf]
      split
      · refine ⟨ho'.congr rfl rfl rfl, ?_, ?_, hconns⟩
        · rw [HttpClient.wire, hdrop, hsock, hrest]
        · rw [List.length_drop]
          exact Nat.le_trans (Nat.sub_le ..) hheld
      · exact .of_failure ho'.exact hconns (by simp)

/-- **A chunk that fits the buffer.** It is received to its line end, copied, and taken off the
    buffer with that line end; what is behind is the size line of the next chunk. -/
theorem recvSmallChunk_spec {c : HttpClient} {chunkBuf data body wire : List UInt8}
    (ho : Owes R pos c chunkBuf (data ++ body)) (hwire : c.wire = data ++ crLf ++ wire)
    (hsize : c.chunkSize = data.length) (hheld : c.buf.length ≤ hcChunkSize - 1) :
    ChunkStep R pos c body wire (hcChunkSize - 1)
      (recvSmallChunk (hcChunkSize - 1) c chunkBuf) := by
  unfold recvSmallChunk
  split
  · obtain ⟨stops, hstop | hstop⟩ := c.checkStop_cases
    · rw [hstop]
      exact .of_stop (ho.congr rfl rfl rfl) rfl rfl
    · rw [hstop]
      obtain ⟨res, got, sock, hrecv, hres, hle, hs⟩ :=
        httpClientRecv_cases { c with stops } (hcChunkSize - 1 - c.buf.length)
      simp only [hrecv]
      rcases hres with rfl | rfl
      · simp only
        have hwire₁ : ({ c with stops, sock, buf := c.buf ++ got } : HttpClient).wire =
            data ++ crLf ++ wire := by
          rw [← hwire, HttpClient.wire, HttpClient.wire, hs, List.append_assoc]
        have hheld₁ : (c.buf ++ got).length ≤ hcChunkSize - 1 := by
          rw [List.length_append]
          omega
        have ho₁ : Owes R pos { c with stops, sock, buf := c.buf ++ got } chunkBuf (data ++ body) :=
          ho.congr rfl rfl rfl
        exact (copySmallChunk_spec hR hpos ho₁ hwire₁ hsize hheld₁).of_conns rfl
      · exact .of_failure (ho.exact.congr rfl rfl rfl) rfl (by simp)
  · exact copySmallChunk_spec hR hpos ho hwire hsize hheld

theorem largeChunkLoop_spec {body wire : List UInt8} (fuel : Nat) :
    ∀ (needToRead : Nat) (c : HttpClient) (chunkBuf data : List UInt8),
      Owes R pos c chunkBuf (data ++ body) → c.wire = data ++ crLf ++ wire →
      needToRead + c.buf.length = data.length → (needToRead = 0 → c.buf = []) →
      c.buf.length ≤ hcChunkSize - 1 →
      ChunkStep R pos c body (crLf ++ wire) 0
        (largeChunkLoop (hcChunkSize - 1) fuel needToRead c chunkBuf) := by
  induction fuel with
  | zero => exact fun needToRead c chunkBuf data ho _ _ _ _ =>
      .of_failure ho.exact rfl (by simp)
  | succ fuel ih =>
    intro needToRead c chunkBuf data ho hwire hneed hempty hheld
    unfold largeChunkLoop
    by_cases hover : needToRead = 0
    · rw [if_pos hover]
      have hbuf := hempty hover
      have hdata : data = [] := by
        refine List.eq_nil_of_length_eq_zero ?_
        rw [← hneed, hover, hbuf]
        rfl
      subst hdata
      exact ⟨ho, hwire, by simp [hbuf], rfl⟩
    · rw [if_neg hover]
      obtain ⟨stops, hstop | hstop⟩ := c.checkStop_cases
      · rw [hstop]
        exact .of_stop (ho.congr rfl rfl rfl) rfl rfl
      · rw [hstop]
        obtain ⟨res, got, sock, hrecv, hres, hle, hs⟩ :=
          httpClientRecv_cases { c with stops } (min needToRead (hcChunkSize - 1 - c.buf.length))
        simp only [hrecv] at hs ⊢
        have hgot : got.length ≤ needToRead := Nat.le_trans hle (Nat.min_le_left ..)
        have hlen : (c.buf ++ got).length = c.buf.length + got.length := List.length_append
        have hle' : (c.buf ++ got).length ≤ data.length := by omega
        -- what is in the buffer is data of this chunk
        obtain ⟨data', hdata'⟩ : c.buf ++ got <+: data := by
          have hbuf : c.buf ++ got <+: c.wire :=
            ⟨sock.src.stream, by rw [HttpClient.wire, hs, List.append_assoc]⟩
          have hdat : data <+: c.wire := ⟨crLf ++ wire, by rw [hwire, List.append_assoc]⟩
          exact List.prefix_of_prefix_length_le hbuf hdat hle'
        rcases hres with rfl | rfl
        · have hwire₁ : sock.src.stream = data' ++ crLf ++ wire := by
            refine (List.append_right_inj (c.buf ++ got)).mp ?_
            calc (c.buf ++ got) ++ sock.src.stream
              _ = c.wire := by rw [HttpClient.wire, hs, List.append_assoc]
              _ = data ++ crLf ++ wire := hwire
              _ = (c.buf ++ got) ++ (data' ++ crLf ++ wire) := by
                rw [← hdata']
                simp only [List.append_assoc]
          have ho₁ : Owes R pos { c with stops, sock, buf := c.buf ++ got } chunkBuf
              ((c.buf ++ got) ++ (data' ++ body)) := by
            rw [← List.append_assoc, hdata']
            exact ho.congr rfl rfl rfl
          have hfit : (c.buf ++ got).length ≤ hcChunkSize - 1 := by omega
          obtain ⟨chunkBuf', c', hre, ho', hbuf, hsock, hconns⟩ := reblock_spec hR hpos ho₁ hfit
          simp only [hlen, Nat.add_sub_cancel_left, hre]
          have hlen' := congrArg List.length hdata'
          rw [List.length_append, hlen] at hlen'
          have hneed₂ : needToRead - got.length + ([] : List UInt8).length = data'.length := by
            rw [List.length_nil]
            omega
          have hwire₂ : ({ c' with buf := [] } : HttpClient).wire = data' ++ crLf ++ wire := by
            rw [HttpClient.wire, List.nil_append, hsock]
            exact hwire₁
          have ho₂ : Owes R pos { c' with buf := [] } chunkBuf' (data' ++ body) :=
            ho'.congr rfl rfl rfl
          exact (ih _ { c' with buf := [] } chunkBuf' data' ho₂ hwire₂ hneed₂ (fun _ => rfl)
            (by simp)).of_conns hconns
        · exact .of_failure (ho.exact.congr rfl rfl rfl) rfl (by simp)

/-- **A chunk larger than the buffer.** It is received and copied by the bufferful, and its line end
    is read when all of it has been taken. -/
theorem recvLargeChunk_spec {fuel : Nat} {c : HttpClient} {chunkBuf data body wire : List UInt8}
    (ho : Owes R pos c chunkBuf (data ++ body)) (hwire : c.wire = data ++ crLf ++ wire)
    (hsize : c.chunkSize = data.length) (hheld : c.buf.length ≤ hcChunkSize - 1) :
    ChunkStep R pos c body wire (hcChunkSize - 1)
      (recvLargeChunk (hcChunkSize - 1) fuel c chunkBuf) := by
  unfold recvLargeChunk
  by_cases hsmall : c.chunkSize ≤ c.buf.length
  · rw [if_pos hsmall]
    exact .of_failure ho.exact rfl (by simp)
  · rw [if_neg hsmall]
    have hloop := largeChunkLoop_spec hR hpos fuel (c.chunkSize - c.buf.length) c chunkBuf data ho
      hwire (by omega) (by omega) hheld
    obtain ⟨out, chunkBuf', c', hr⟩ : ∃ out chunkBuf' c',
        largeChunkLoop (hcChunkSize - 1) fuel (c.chunkSize - c.buf.length) c chunkBuf =
          (out, chunkBuf', c') := ⟨_, _, _, rfl⟩
    rw [hr] at hloop ⊢
    cases out with
    | some out => exact hloop
    | none =>
      obtain ⟨ho', hwire', hbuf', hconns⟩ := hloop
      have hnil : c'.buf = [] := List.eq_nil_of_length_eq_zero (Nat.le_zero.mp hbuf')
      obtain ⟨res, got, sock, hrecv, hres, hle, hs⟩ := httpClientRecv_cases c' 2
      simp only [hrecv, hnil, List.nil_append]
      rcases hres with rfl | rfl
      · simp only
        split
        · rename_i hend
          refine ⟨ho'.congr rfl rfl rfl, ?_, by simp, hconns⟩
          rw [HttpClient.wire, hnil, List.nil_append, hs, hend] at hwire'
          exact List.append_cancel_left hwire'
        · exact .of_failure (ho'.exact.congr rfl rfl rfl) hconns (by simp)
      · exact .of_failure (ho'.exact.congr rfl rfl rfl) hconns (by simp)

/-- **All chunks**, whatever their sizes, and however they arrive. -/
theorem recvChunkLoop_spec (fuel : Nat) : ∀ (c : HttpClient) (chunkBuf body wire : List UInt8),
    Chunks body wire → Owes R pos c chunkBuf body → c.wire = wire →
    c.buf.length ≤ hcChunkSize - 1 →
    ∃ out chunkBuf' c', recvChunkLoop (hcChunkSize - 1) fuel c chunkBuf = (out, chunkBuf', c') ∧
      ChunkEnd R pos c out chunkBuf' c' := by
  induction fuel with
  | zero => exact fun c chunkBuf body wire _ ho _ _ =>
      ⟨.running, chunkBuf, c, rfl, .of_failure ho.exact rfl (by simp)⟩
  | succ fuel ih =>
    intro c chunkBuf body wire hchunks ho hwire hheld
    unfold recvChunkLoop
    obtain ⟨stops, hstop | hstop⟩ := c.checkStop_cases
    · rw [hstop]
      exact ⟨.done .ok, chunkBuf, _, rfl, .of_stop (ho.congr rfl rfl rfl) rfl rfl⟩
    · rw [hstop]
      cases hchunks with
      | @last line tail hline htail =>
        obtain ⟨out, c₁, hsize, hq, hok⟩ :=
          httpClientRecvChunkedSize_spec hline (by decide) fuel { c with stops } hwire hheld
        simp only [hsize]
        have ho₁ : Owes R pos c₁ chunkBuf [] := ho.congr hq.calls hq.recvSize hq.dataHdlrCb
        by_cases hout : out = .done .ok
        · subst hout
          obtain ⟨hn, -, -⟩ := hok rfl
          simp only [hn, if_true]
          refine ⟨.done .ok, chunkBuf, c₁, rfl, ho₁.exact, hq.conns, fun _ => ⟨[], ho₁.owed⟩,
            fun _ _ => ?_⟩
          simpa using ho₁.owed
        · refine ⟨out, chunkBuf, c₁, ?_, .of_failure ho₁.exact hq.conns hout⟩
          split
          · rename_i heq
            exact absurd (by simpa using congrArg Prod.fst heq) hout
          · rename_i heq
            rw [Prod.mk.injEq] at heq
            rw [heq.1, heq.2]
      | @chunk line data body wire' hline hne hrest =>
        have hdata : data.length < 2 ^ 31 := by
          have hle := congrArg List.length ho.owed
          simp only [List.length_append, List.length_drop] at hle
          omega
        obtain ⟨out, c₁, hsize, hq, hok⟩ :=
          httpClientRecvChunkedSize_spec hline (by omega) fuel { c with stops } hwire hheld
        simp only [hsize]
        have ho₁ : Owes R pos c₁ chunkBuf (data ++ body) :=
          ho.congr hq.calls hq.recvSize hq.dataHdlrCb
        by_cases hout : out = .done .ok
        · subst hout
          obtain ⟨hn, hwire₁, hheld₁⟩ := hok rfl
          have hstep : ChunkStep R pos c₁ body wire' (hcChunkSize - 1)
              (if u32 (c₁.chunkSize + 2) ≤ hcChunkSize - 1
                then recvSmallChunk (hcChunkSize - 1) c₁ chunkBuf
                else recvLargeChunk (hcChunkSize - 1) fuel c₁ chunkBuf) := by
            split
            · exact recvSmallChunk_spec hR hpos ho₁ hwire₁ hn hheld₁
            · exact recvLargeChunk_spec hR hpos ho₁ hwire₁ hn hheld₁
          have hpos' : ¬ c₁.chunkSize = 0 := by
            rw [hn]
            exact fun h0 => hne (List.eq_nil_of_length_eq_zero h0)
          obtain ⟨r, chunkBuf', c', hr⟩ : ∃ r chunkBuf' c',
              (if u32 (c₁.chunkSize + 2) ≤ hcChunkSize - 1
                then recvSmallChunk (hcChunkSize - 1) c₁ chunkBuf
                else recvLargeChunk (hcChunkSize - 1) fuel c₁ chunkBuf) = (r, chunkBuf', c') :=
            ⟨_, _, _, rfl⟩
          rw [hr] at hstep
          simp only [if_neg hpos', hr]
          cases r with
          | some out =>
            have hend : ChunkEnd R pos c₁ out chunkBuf' c' := hstep
            exact ⟨out, chunkBuf', c', rfl, hend.exact, hend.conns.trans hq.conns, hend.part,
              hend.whole⟩
          | none =>
            obtain ⟨ho', hwire', hheld', hconns⟩ := hstep
            obtain ⟨out, chunkBuf'', c'', hloop, hend⟩ :=
              ih c' chunkBuf' body wire' hrest ho' hwire' hheld'
            exact ⟨out, chunkBuf'', c'', hloop, hend.exact,
              hend.conns.trans (hconns.trans hq.conns), hend.part, hend.whole⟩
        · refine ⟨out, chunkBuf, c₁, ?_, .of_failure ho₁.exact hq.conns hout⟩
          split
          · rename_i heq
            exact absurd (by simpa using congrArg Prod.fst heq) hout
          · rename_i heq
            rw [Prod.mk.injEq] at heq
            rw [heq.1, heq.2]

/-- `http_client_recv_chunk`, once the headers announced chunks. -/
theorem httpClientRecvChunk_spec {fuel : Nat} {c : HttpClient} (he : Exact R pos c)
    {wire : List UInt8} (hchunks : Chunks (R.drop c.recvSize) wire) (hwire : c.wire = wire)
    (hheld : c.buf.length ≤ hcChunkSize - 1) :
    ∃ out c', httpClientRecvChunk fuel c (hcChunkSize - 1) = (out, c') ∧
      BodyEnd R pos c out c' := by
  have ho : Owes R pos c [] (R.drop c.recvSize) :=
    ⟨he, by decide, by rw [List.append_nil, he.rest]⟩
  obtain ⟨out, chunkBuf, c₁, hloop, hend⟩ :=
    recvChunkLoop_spec hR hpos fuel c [] _ wire hchunks ho hwire hheld
  unfold httpClientRecvChunk
  rw [if_neg (Nat.not_lt.mpr hheld), hloop]
  by_cases hout : out = .done .ok
  · subst hout
    have he₁ : Exact R pos { c₁ with dataPos := .mid } := hend.exact.congr rfl rfl rfl
    refine ⟨.done .ok, HttpClient.handle { c₁ with dataPos := .mid } chunkBuf, ?_,
      he₁.handle hR hpos (hend.part rfl), hend.conns, fun _ hs => ?_⟩
    · show (Outcome.done .ok, if c₁.dataHdlrCb then _ else _) = _
      rw [if_pos hend.exact.registered]
    · rw [← hend.whole rfl hs]
      exact blocks_handle { c₁ with dataPos := .mid } chunkBuf
  · refine ⟨out, c₁, ?_, hend.exact, hend.conns, fun h => absurd h hout⟩
    split
    · rename_i heq
      exact absurd (by simpa using congrArg Prod.fst heq) hout
    · rename_i heq
      rw [Prod.mk.injEq, Prod.mk.injEq] at heq
      rw [heq.1, heq.2.2]

end Chunked

/-! ## Connections -/

/-- A server that honours the range: whatever the position asked for, it replies with the
    resource from there on. What the connection makes of the reply is left open. -/
def Served (R : List UInt8) (conns : List Conn) : Prop :=
  ∀ conn ∈ conns, ∀ p < 2 ^ 31, Reply (R.drop p) (conn.reply p).src.stream

/-- The headers of a reply have been read, and its body comes next. -/
structure Connected (R : List UInt8) (c : HttpClient) : Prop where
  held : c.buf.length ≤ hcChunkSize - 1
  body : (c.isChunked = true ∧ Chunks (R.drop c.recvSize) c.wire) ∨
    (c.isChunked = false ∧ c.wire = R.drop c.recvSize ∧
      c.httpContentLen = c.totalLen (R.drop c.recvSize).length)

/-- The headers of a reply announce its body. -/
theorem AfterHeaders.connected {R body payload : List UInt8} {headers : List Header}
    {c c' : HttpClient} {maxLen : Nat} (h : AfterHeaders c headers payload maxLen c')
    (hmax : maxLen ≤ hcChunkSize - 1) (hnot : c.isChunked = false)
    (hsize : c'.recvSize = c.recvSize) (hbody : body = R.drop c.recvSize)
    (hlen : body.length < 2 ^ 31) (hframed : Framed body headers payload) : Connected R c' := by
  have hch : c'.isChunked = headers.any Header.chunked := by rw [h.chunked, hnot, Bool.false_or]
  refine ⟨Nat.le_trans h.held hmax, ?_⟩
  rw [hsize, ← hbody]
  rcases hframed with ⟨hany, hchunks⟩ | ⟨hany, hpayload, hnum, hex⟩
  · exact .inl ⟨hch.trans hany, h.wire ▸ hchunks⟩
  · refine .inr ⟨hch.trans hany, h.wire.trans hpayload, ?_⟩
    rw [h.length _ hlen hnum (.inr hex), HttpClient.totalLen, HttpClient.totalLen, hsize]

/-- The request is sent and the head of the reply is read. -/
theorem exchange_spec {R : List UInt8} {c : HttpClient} (hR : R.length < 2 ^ 31)
    (hreply : Reply (R.drop c.recvSize) c.sock.src.stream) (host path : List UInt8) :
    ∃ res c₁, httpClientSendRequest .get c host path = (res, c₁) ∧ Quiet c c₁ ∧
      ∃ res' c₂, httpClientSendHeaders hcChunkSize c₁.customHeaders c₁ = (res', c₂) ∧
        Quiet c c₂ ∧
      ∃ res'' c₃, httpClientRecvRspAndParse c₂ hcRspChunkSize = (res'', c₃) ∧ Quiet c c₃ ∧
        (res'' = .ok → ∀ fuel, ∃ out c₄,
          httpClientRecvHeadersAndParse fuel c₃ hcHeaderChunkSize = (out, c₄) ∧ Quiet c c₄ ∧
          out ≠ .done .redirection ∧ (out = .done .ok → Connected R c₄)) := by
  obtain ⟨status, headers, payload, hstream, hstatus, hloc, hframed⟩ := hreply.parts
  obtain ⟨res, c₁, hreq, hq₁, hsock₁⟩ := httpClientSendRequest_spec .get c host path
  obtain ⟨res', c₂, hhdr, hq₂, hsock₂⟩ := httpClientSendHeaders_spec c₁.customHeaders c₁
  have hstream₂ : c₂.sock.src.stream = status ++ crLf ++
      (headers.flatMap (fun h => h.line ++ crLf) ++ crLf ++ payload) := by
    rw [hsock₂, hsock₁, hstream]
  obtain ⟨res'', c₃, hrsp, hq₃, hok₃⟩ :=
    httpClientRecvRspAndParse_spec hcRspChunkSize hstream₂ hstatus
  have hq : Quiet c c₃ := (hq₁.trans hq₂).trans hq₃
  refine ⟨res, c₁, hreq, hq₁, res', c₂, hhdr, hq₁.trans hq₂, res'', c₃, hrsp, hq,
    fun hres fuel => ?_⟩
  obtain ⟨hwire₃, hheld₃⟩ := hok₃ hres
  obtain ⟨out, c₄, hloop, hq₄, hred, hok⟩ :=
    headersLoop_spec hcHeaderChunkSize fuel headers 0 [0] { c₃ with isChunked := false }
      hloc hwire₃ (Nat.le_trans hheld₃ (by decide))
  have hq' : Quiet c c₄ :=
    hq.trans ⟨hq₄.calls, hq₄.recvSize, hq₄.dataHdlrCb, hq₄.conns, hq₄.stopped⟩
  refine ⟨out, c₄, hloop, hq', hred, fun hout => ?_⟩
  refine (hok hout).connected (by decide) rfl hq₄.recvSize (by rw [← hq.recvSize]) ?_ hframed
  rw [List.length_drop]
  omega

/-- **Connecting** leaves the data handed over alone, uses up one connection, and where it succeeds
    the body of the reply comes next. The server does not redirect, so that the loop is one pass. -/
theorem connectLoop_spec {R : List UInt8} {c : HttpClient} (hR : R.length < 2 ^ 31)
    (hsize : c.recvSize < 2 ^ 31) (hserved : Served R c.conns) (fuel left revLen : Nat) :
    ∃ out n c', connectLoop fuel (left + 1) revLen c = (out, n, c') ∧
      Quiet { c with conns := c.conns.tail } c' ∧
      (out = .done .ok → n = c'.buf.length ∧ Connected R c') := by
  unfold connectLoop
  simp only
  obtain ⟨ok, rest, hm⟩ := HttpClient.malloc_cases { c with conns := c.conns.tail }
  rw [hm]
  cases ok with
  | false => exact ⟨.done .failed, revLen, _, rfl, ⟨rfl, rfl, rfl, rfl, rfl⟩, by simp⟩
  | true =>
    simp only
    obtain ⟨conn, hhead, hconn⟩ : ∃ conn, c.conns.headD .refused = conn ∧
        (¬ conn.connect < 0 → ∀ p < 2 ^ 31, Reply (R.drop p) (conn.reply p).src.stream) := by
      refine ⟨_, rfl, fun hc => ?_⟩
      cases hcs : c.conns with
      | nil =>
        rw [hcs] at hc
        exact absurd (by decide) hc
      | cons conn conns => exact hserved conn (by simp [hcs])
    simp only [hhead]
    cases conn.parseUrl with
    | none => exact ⟨.done .failed, revLen, _, rfl, ⟨rfl, rfl, rfl, rfl, rfl⟩, by simp⟩
    | some hostPath =>
      obtain ⟨host, path⟩ := hostPath
      by_cases hneg : conn.connect < 0
      · simp only [if_pos hneg]
        exact ⟨.done .conn, revLen, _, rfl, ⟨rfl, rfl, rfl, rfl, rfl⟩, by simp⟩
      · simp only [if_neg hneg]
        have hrange : rangeStart { c with conns := c.conns.tail, mallocs := rest } = c.recvSize :=
          int32_of_lt hsize
        rw [hrange]
        obtain ⟨res, c₁, hreq, hq₁, res', c₂, hhdr, hq₂, res'', c₃, hrsp, hq₃, hok₃⟩ :=
          exchange_spec hR (c := { c with
            conns := c.conns.tail, mallocs := rest, sock := conn.reply c.recvSize
            sends := conn.sends, sent := [] }) (hconn hneg c.recvSize hsize) host path
        have hquiet {c' : HttpClient} (hq : Quiet { c with
            conns := c.conns.tail, mallocs := rest, sock := conn.reply c.recvSize
            sends := conn.sends, sent := [] } c') : Quiet { c with conns := c.conns.tail } c' :=
          ⟨hq.calls, hq.recvSize, hq.dataHdlrCb, hq.conns, hq.stopped⟩
        simp only [hreq]
        cases res with
        | ok =>
          simp only [hhdr]
          cases res' with
          | ok =>
            simp only [hrsp]
            cases res'' with
            | ok =>
              obtain ⟨out, c₄, hhead, hq₄, hred, hconnected⟩ := hok₃ rfl fuel
              simp only [hhead]
              cases out with
              | done res =>
                cases res with
                | ok => exact ⟨.done .ok, _, c₄, rfl, hquiet hq₄, fun _ => ⟨rfl, hconnected rfl⟩⟩
                | redirection => exact absurd rfl hred
                | _ => exact ⟨_, _, c₄, rfl, hquiet hq₄, by simp⟩
              | _ => exact ⟨_, _, c₄, rfl, hquiet hq₄, by simp⟩
            | _ => exact ⟨_, revLen, c₃, rfl, hquiet hq₃, by simp⟩
          | _ => exact ⟨_, revLen, c₂, rfl, hquiet hq₂, by simp⟩
        | _ => exact ⟨_, revLen, c₁, rfl, hquiet hq₁, by simp⟩

/-! ## The download -/

section Get

variable {R : List UInt8} {pos : Nat} (hR : R.length < 2 ^ 31) (hpos : pos < 2 ^ 31)
include hR hpos

theorem httpClientConnect_spec {c : HttpClient} (he : Exact R pos c)
    (hserved : Served R c.conns) (fuel : Nat) :
    ∃ out n c', httpClientConnect fuel c = (out, n, c') ∧ Exact R pos c' ∧ Served R c'.conns ∧
      (out = .done .ok → n = c'.buf.length ∧ Connected R c') := by
  unfold httpClientConnect
  obtain ⟨ok, rest, hm⟩ := c.malloc_cases
  rw [hm]
  cases ok with
  | false => exact ⟨.done .parse, 0, _, rfl, he.congr rfl rfl rfl, hserved, by simp⟩
  | true =>
    have hsize : c.recvSize < 2 ^ 31 := he.recvSize_lt hR hpos
    obtain ⟨out, n, c', hloop, hq, hok⟩ :=
      connectLoop_spec (c := { c with mallocs := rest }) hR hsize hserved fuel hcRedirectionMax 0
    refine ⟨out, n, c', hloop, he.congr hq.calls hq.recvSize hq.dataHdlrCb, ?_, hok⟩
    rw [hq.conns]
    exact fun conn hm => hserved conn (List.mem_of_mem_tail hm)

/-- The body of a reply, in whichever framing. -/
theorem duerHttpClientGetData_spec (fuel : Nat) {remain : Nat} {c : HttpClient} (he : Exact R pos c)
    (hremain : remain = c.buf.length) (hc : Connected R c) :
    ∃ out c', duerHttpClientGetData fuel c remain = (out, c') ∧ BodyEnd R pos c out c' := by
  unfold duerHttpClientGetData
  subst hremain
  rw [List.take_length]
  rcases hc.body with ⟨hch, hchunks⟩ | ⟨hch, hwire, hlen⟩
  · rw [if_pos hch]
    exact httpClientRecvChunk_spec hR hpos he hchunks rfl hc.held
  · rw [if_neg (by simp [hch])]
    exact httpClientRecvContentData_spec hR hpos he hwire hlen

/-- **However often the connection breaks**, what has been handed over is right, and it is all of
    the rest of the resource when the client says so and was not stopped. The induction is on the
    attempts that are left: each one asks for what the handler has not been given, whatever the one
    before came to. -/
theorem getLoop_spec (fuel left : Nat) : ∀ (ret : HttpResult) (c : HttpClient),
    Exact R pos c → Served R c.conns → (ret = .ok → left ≠ 0) →
    ∃ out c', getLoop fuel left ret c = (out, c') ∧ Exact R pos c' ∧
      (out = .done .ok → c'.stopped = false → blocks c'.calls = R.drop pos) := by
  induction left with
  | zero =>
    exact fun ret c he _ hret =>
      ⟨.done ret, c, rfl, he, fun h => absurd rfl (hret (by simpa using h))⟩
  | succ left ih =>
    intro ret c he hserved _
    unfold getLoop
    obtain ⟨stops, hstop | hstop⟩ := c.checkStop_cases
    · rw [hstop]
      exact ⟨.done ret, _, rfl, he.congr rfl rfl rfl, fun _ h => absurd h (by simp)⟩
    · rw [hstop]
      have he₀ : Exact R pos { c with stops } := he.congr rfl rfl rfl
      obtain ⟨out, n, c₁, hconnect, he₁, hserved₁, hok₁⟩ :=
        httpClientConnect_spec hR hpos he₀ hserved fuel
      simp only [hconnect]
      -- a failed attempt is followed by another, or ends the download with an error
      have hnext (res : HttpResult) (hres : res ≠ .ok) {c₂ : HttpClient} (he₂ : Exact R pos c₂)
          (hserved₂ : Served R c₂.conns) :
          ∃ out c', (if res = .conn ∨ res = .timeout then
              getLoop fuel left res { c₂ with resumeRetryCount := c₂.resumeRetryCount + 1 }
            else (.done res, c₂)) = (out, c') ∧ Exact R pos c' ∧
            (out = .done .ok → c'.stopped = false → blocks c'.calls = R.drop pos) := by
        split
        · exact ih res { c₂ with resumeRetryCount := c₂.resumeRetryCount + 1 }
            (he₂.congr rfl rfl rfl) hserved₂ fun h => absurd h hres
        · exact ⟨.done res, c₂, rfl, he₂, fun h => absurd (by simpa using h) hres⟩
      cases out with
      | done res =>
        by_cases hres : res = .ok
        · subst hres
          obtain ⟨hn, hconnected⟩ := hok₁ rfl
          obtain ⟨out, c₂, hdata, hend⟩ :=
            duerHttpClientGetData_spec hR hpos fuel he₁ hn hconnected
          have hserved₂ : Served R c₂.conns := hend.conns ▸ hserved₁
          simp only [hdata]
          cases out with
          | done res =>
            by_cases hres : res = .ok
            · subst hres
              exact ⟨.done .ok, c₂, rfl, hend.exact, hend.whole⟩
            · exact hnext res hres hend.exact hserved₂
          | _ => exact ⟨_, c₂, rfl, hend.exact, by simp⟩
        · cases res with
          | ok => exact absurd rfl hres
          | _ => exact hnext _ hres he₁ hserved₁
      | _ => exact ⟨_, c₁, rfl, he₁, by simp⟩

/-- The closing call of the handler brings no data. -/
theorem getRet_spec {c : HttpClient} (he : Exact R pos c) :
    Exact R pos (getRet c) ∧ blocks (getRet c).calls = blocks c.calls ∧
      (getRet c).stopped = c.stopped := by
  unfold getRet
  simp only
  split
  · have he' : Exact R pos { c with dataPos := .last } := he.congr rfl rfl rfl
    have hpart : blocks c.calls ++ [] <+: R.drop pos := by simpa using he.part
    refine ⟨(he'.handle hR hpos hpart).congr rfl rfl rfl, ?_, rfl⟩
    exact (blocks_handle { c with dataPos := .last } []).trans (List.append_nil _)
  · exact ⟨he.congr rfl rfl rfl, rfl, rfl⟩

end Get

/-- **A download is exact.** Let a client with a data handler download a resource `R` from
    `pos` on, from a server that honours ranges, over connections that break where they like.
    After every call of the handler the data it has been given is the part of `R` from `pos`
    to `recv_size`; and when `duer_http_client_get` returns `HTTP_OK` without having been
    stopped, it is all of `R` from `pos`. -/
theorem download_exact (R : List UInt8) (pos fuel : Nat) (c : HttpClient)
    (hR : R.length < 2 ^ 31) (hpos : pos < 2 ^ 31) (hserved : Served R c.conns)
    (hregistered : c.dataHdlrCb = true) (hcalls : c.calls = []) :
    (∀ done call rest, (duerHttpClientGet fuel c pos).2.calls = done ++ call :: rest →
      pos ≤ call.recvSize ∧
      blocks (done ++ [call]) = (R.drop pos).take (call.recvSize - pos)) ∧
    ((duerHttpClientGet fuel c pos).1 = .done .ok →
      (duerHttpClientGet fuel c pos).2.stopped = false →
      blocks (duerHttpClientGet fuel c pos).2.calls = R.drop pos) := by
  obtain ⟨out, c', hget, he, hwhole⟩ : ∃ out c', duerHttpClientGet fuel c pos = (out, c') ∧
      Exact R pos c' ∧
      (out = .done .ok → c'.stopped = false → blocks c'.calls = R.drop pos) := by
    unfold duerHttpClientGet
    obtain ⟨c₀, hc₀, he₀, hserved₀⟩ : ∃ c₀, { c with
        dataPos := .first, resumeRetryCount := 0, recvSize := u32 pos, httpContentLen := 0 } = c₀ ∧
        Exact R pos c₀ ∧ Served R c₀.conns := by
      have hsize : u32 pos = pos := u32_of_lt (by omega)
      refine ⟨_, rfl, ⟨hregistered, ?_, by simp [hcalls, blocks], by simp [hcalls]⟩, hserved⟩
      simp [hcalls, blocks, hsize]
    simp only [hc₀]
    obtain ⟨ok, mallocs, hm⟩ := c₀.malloc_cases
    have he₁ : Exact R pos { c₀ with mallocs } := he₀.congr rfl rfl rfl
    rw [hm]
    cases ok with
    | false => exact ⟨.done .failed, _, rfl, (getRet_spec hR hpos he₁).1, by simp⟩
    | true =>
      obtain ⟨out, c₁, hloop, he₂, hwhole⟩ :=
        getLoop_spec hR hpos fuel (hcMaxRetryResumeCount + 1) .ok { c₀ with mallocs } he₁ hserved₀
          (by decide)
      simp only [hloop]
      cases out with
      | done res =>
        obtain ⟨he, hblocks, hstopped⟩ := getRet_spec hR hpos he₂
        exact ⟨.done res, _, rfl, he, fun hout hs => by rw [hblocks, hwhole hout (hstopped ▸ hs)]⟩
      | _ => exact ⟨_, c₁, rfl, he₂, by simp⟩
  rw [hget]
  exact ⟨fun done call rest hcalls => he.slices hcalls, hwhole⟩

/-- A content length of one digit. -/
def digitHeader (d : Fin 10) : Header where
  key := ascii "Content-Length"
  raw := [32, UInt8.ofNat (48 + d)]
  key_plain := by decide
  line_plain := by revert d; decide

theorem digitHeader_hasNumber (d : Fin 10) : (digitHeader d).HasNumber d := by
  refine ⟨[], [UInt8.ofNat (48 + d)], [], ?_, ⟨by simp, ?_⟩, ?_, by simp, by simp⟩
  · revert d
    decide +kernel
  · revert d
    decide +kernel
  · revert d
    decide +kernel

/-- A connection to a server of a short resource. -/
def shortServer (R : List UInt8) (results : List (Except RecvError Nat)) : Conn where
  parseUrl := some (ascii "host", ascii "/path")
  connect := 0
  sends := [100, 100]
  reply := fun p =>
    let body := R.drop p.toNat
    ⟨⟨replyHead (ascii "HTTP/1.1 206 OK") [digitHeader (Fin.ofNat 10 body.length)] ++ body,
      results⟩, true⟩

theorem shortServer_reply {R : List UInt8} (hR : R.length < 10)
    (results : List (Except RecvError Nat)) (p : Nat) :
    Reply (R.drop p) ((shortServer R results).reply p).src.stream := by
  have hlen : (R.drop p).length < 10 := by
    rw [List.length_drop]
    exact Nat.lt_of_le_of_lt (Nat.sub_le ..) hR
  refine .length (ascii "HTTP/1.1 206 OK") [digitHeader (Fin.ofNat 10 (R.drop p).length)]
    (by decide) (fun h hm => ?_) ⟨_, List.mem_singleton_self _, rfl⟩
  obtain rfl := List.mem_singleton.mp hm
  refine ⟨?_, ?_, fun _ => ?_⟩
  · show ascii "Content-Length" ≠ ascii "Location"
    decide
  · simp [Header.chunked, digitHeader,
      show ascii "Content-Length" ≠ ascii "Transfer-Encoding" by decide]
  · have hnum := digitHeader_hasNumber (Fin.ofNat 10 (R.drop p).length)
    simpa only [Fin.val_ofNat, Nat.mod_eq_of_lt hlen] using hnum

/-- A client with a connection that breaks in the headers and one that does not. -/
def retryingClient (R : List UInt8) : HttpClient where
  customHeaders := []
  httpResponseCode := 0
  dataHdlrCb := true
  httpContentLen := 0
  httpContentType := []
  location := none
  isChunked := false
  chunkSize := 0
  recvSize := 0
  resumeRetryCount := 0
  buf := []
  dataPos := .first
  sock := ⟨⟨[], []⟩, false⟩
  sends := []
  sent := []
  conns := [shortServer R [.ok 20, .error .failed], shortServer R [.ok 3, .ok 100, .error .closed]]
  mallocs := []
  stops := []
  stopped := false
  calls := []

/-- A download from position one, with one connection breaking on the way. -/
theorem download_exact_retried :
    (duerHttpClientGet 9 (retryingClient [7, 8, 9]) 1).1 = .done .ok ∧
      blocks (duerHttpClientGet 9 (retryingClient [7, 8, 9]) 1).2.calls = [8, 9] := by
  have hok : (duerHttpClientGet 9 (retryingClient [7, 8, 9]) 1).1 = .done .ok := by
    decide +kernel
  have hstopped : (duerHttpClientGet 9 (retryingClient [7, 8, 9]) 1).2.stopped = false := by
    decide +kernel
  have hserved : Served [7, 8, 9] (retryingClient [7, 8, 9]).conns := by
    intro conn hm p _
    rcases List.mem_cons.mp hm with rfl | hm
    · exact shortServer_reply (by decide) _ p
    · obtain rfl := List.mem_singleton.mp hm
      exact shortServer_reply (by decide) _ p
  exact ⟨hok, (download_exact [7, 8, 9] 1 9 (retryingClient [7, 8, 9]) (by decide) (by decide)
    hserved rfl rfl).2 hok hstopped⟩

end Http
end LightDuer
