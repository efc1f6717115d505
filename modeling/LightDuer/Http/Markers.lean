import LightDuer.Http.Download
import LightDuer.Http.Steps

/-!
# The position markers

The handler is told where a block stands in the download: `p_client->data_pos` starts at
`DATA_FIRST`, becomes `DATA_MID` when a block has been handed over, and `DATA_LAST` for the closing
call, which is made unless it still is `DATA_FIRST`.

The end of a chunked body sets it to `DATA_MID` first and then hands over what is left, though
nothing may be. That is right for a body of which a block has been handed over before, or where an
earlier attempt has delivered something. For a short chunked body it is not: its only block is
marked as a later one, and an empty body gets a block and a closing call. The sibling for a body
with a length sets `DATA_MID` behind its first call.

The markers are followed through the steps of a download. As long as no step is at that place with
nothing handed over they are right so far, and right when the download returns; the first step that
is spoils them for good, since no other attempt is made behind it.
-/

set_option autoImplicit false

namespace LightDuer
namespace Http

open Lib

/-! ## The protocol -/

/-- The blocks with data: the first one is marked as such, and the later ones are not. -/
def Tagged (calls : List HandlerCall) : Prop :=
  ∀ before call after, calls = before ++ call :: after → call.block ≠ [] →
    call.pos = if blocks before = [] then .first else .mid

/-- No closing call has been made. -/
def Open (calls : List HandlerCall) : Prop := ∀ call ∈ calls, call.pos ≠ .last

/-- **The calls of a download are marked**: its blocks are tagged, and where there is data a
    closing call without any is the last one and the only one; else there is none. The tags are
    those a handler goes by, `DATA_FIRST` for the block that begins the file and `DATA_MID` for
    the others. -/
structure Marked (calls : List HandlerCall) : Prop where
  tagged : Tagged calls
  nothing : blocks calls = [] → Open calls
  closed : blocks calls ≠ [] →
    ∃ before last, calls = before ++ [last] ∧ last.pos = .last ∧ last.block = [] ∧ Open before

/-- What can be said of the calls at a stage of a download. -/
def MarkedSoFar (s : Download) : Prop :=
  match s.stage with
  | .finished _ => Marked s.client.calls
  | _ => Tagged s.client.calls ∧ Open s.client.calls

/-! ## The condition -/

/-- At `RET` of `http_client_recv_chunk`, without an error, `data_pos` does not stand at
    `DATA_FIRST` any more, or no handler is registered. -/
def BlockBefore (s : Download) : Prop :=
  match s.stage with
  | .chunksOver _ .ok _ => s.client.dataHdlrCb = false ∨ s.client.dataPos ≠ .first
  | _ => True

instance (s : Download) : Decidable (BlockBefore s) := by
  unfold BlockBefore
  split <;> infer_instance

/-! ## What leaves the markers alone -/

/-- What the markers of the calls depend on. -/
def HttpClient.marks (c : HttpClient) : List HandlerCall × DataPos × Bool :=
  (c.calls, c.dataPos, c.dataHdlrCb)

section Marks

variable (c : HttpClient)

theorem HttpClient.malloc_marks : c.malloc.2.marks = c.marks := by
  obtain ⟨ok, rest, hm⟩ := c.malloc_cases
  rw [hm]
  rfl

theorem HttpClient.checkStop_marks : c.checkStop.2.marks = c.marks := by
  obtain ⟨rest, hstop | hgo⟩ := c.checkStop_cases
  · rw [hstop]
    rfl
  · rw [hgo]
    rfl

theorem httpClientSend_marks (text : List UInt8) : (httpClientSend c text).2.marks = c.marks := by
  unfold httpClientSend
  simp only
  split
  · rfl
  · split <;> rfl

theorem httpClientSendRequest_marks (method : HttpMeth) (host path : List UInt8) :
    (httpClientSendRequest method c host path).2.marks = c.marks := by
  unfold httpClientSendRequest
  obtain ⟨ok, rest, hm⟩ := c.malloc_cases
  rw [hm]
  cases ok with
  | false => rfl
  | true =>
    simp only
    generalize (requestHead method { c with mallocs := rest } host path).take _ = text
    have hsend := httpClientSend_marks { c with mallocs := rest } text
    generalize httpClientSend { c with mallocs := rest } text = r at hsend ⊢
    obtain ⟨res, c'⟩ := r
    cases res <;> exact hsend

theorem httpClientSendHeaders_marks (buffSize : Nat) (headers : List (List UInt8 × List UInt8)) :
    (httpClientSendHeaders buffSize headers c).2.marks = c.marks := by
  induction headers generalizing c with
  | nil => exact httpClientSend_marks c crLf
  | cons header headers ih =>
    unfold httpClientSendHeaders
    split
    · rfl
    · have hsend := httpClientSend_marks c ((headerLine header).take (buffSize - 1))
      generalize httpClientSend c ((headerLine header).take (buffSize - 1)) = r at hsend ⊢
      obtain ⟨res, c'⟩ := r
      cases res with
      | ok => exact (ih c').trans hsend
      | _ => exact hsend

theorem httpClientRecv_marks (maxLen : Nat) : (httpClientRecv c maxLen).2.marks = c.marks := by
  obtain ⟨res, got, sock, hrecv, -, -, -⟩ := httpClientRecv_cases c maxLen
  rw [hrecv]
  rfl

theorem httpClientRecvRspAndParse_marks (maxLen : Nat) :
    (httpClientRecvRspAndParse c maxLen).2.marks = c.marks := by
  unfold httpClientRecvRspAndParse
  have hrecv := httpClientRecv_marks { c with buf := [] } maxLen
  generalize httpClientRecv { c with buf := [] } maxLen = r at hrecv ⊢
  obtain ⟨res, c'⟩ := r
  cases res with
  | ok =>
    simp only
    split
    · exact hrecv
    · split
      · exact hrecv
      · split <;> exact hrecv
  | _ => exact hrecv

theorem request_marks : (request c).2.marks = c.marks := by
  unfold request
  simp only
  have hmalloc := HttpClient.malloc_marks { c with conns := c.conns.tail }
  generalize HttpClient.malloc { c with conns := c.conns.tail } = r at hmalloc ⊢
  obtain ⟨ok, c₁⟩ := r
  cases ok with
  | false => exact hmalloc
  | true =>
    simp only
    split
    · exact hmalloc
    · rename_i host path _
      split
      · exact hmalloc
      · generalize hc₂ : ({ c₁ with
          sock := (c.conns.headD .refused).reply (rangeStart c₁)
          sends := (c.conns.headD .refused).sends, sent := [] } : HttpClient) = c₂
        have hmarks : c₂.marks = c.marks := by
          rw [← hc₂]
          exact hmalloc
        have hrequest := httpClientSendRequest_marks c₂ .get host path
        generalize httpClientSendRequest .get c₂ host path = r at hrequest ⊢
        obtain ⟨res, c₃⟩ := r
        cases res with
        | ok =>
          simp only
          have hheaders := httpClientSendHeaders_marks c₃ hcChunkSize c₃.customHeaders
          generalize httpClientSendHeaders hcChunkSize c₃.customHeaders c₃ = r at hheaders ⊢
          obtain ⟨res, c₄⟩ := r
          cases res with
          | ok =>
            exact (httpClientRecvRspAndParse_marks c₄ _).trans
              (hheaders.trans (hrequest.trans hmarks))
          | _ => exact hheaders.trans (hrequest.trans hmarks)
        | _ => exact hrequest.trans hmarks

theorem parseHeader_marks (contentLen : Int) (key value : List UInt8) :
    (parseHeader c contentLen key value).2.2.marks = c.marks := by
  unfold parseHeader
  split
  · rfl
  · split
    · split
      · have h := HttpClient.malloc_marks { c with isChunked := true }
        split <;> rename_i hm <;> rw [hm] at h <;> exact h
      · rfl
    · split
      · rfl
      · split
        · have h := c.malloc_marks
          split <;> rename_i hm <;> rw [hm] at h <;> exact h
        · rfl

theorem headersLoop_marks (maxLen fuel : Nat) (contentLen : Int) (behind : List UInt8) :
    (headersLoop maxLen fuel contentLen behind c).2.marks = c.marks := by
  induction fuel generalizing contentLen behind c with
  | zero => rfl
  | succ fuel ih =>
    unfold headersLoop
    split
    · split
      · have hrecv := httpClientRecv_marks c (maxLen - c.buf.length)
        generalize httpClientRecv c (maxLen - c.buf.length) = r at hrecv ⊢
        obtain ⟨res, c'⟩ := r
        cases res with
        | ok => exact (ih c' contentLen _).trans hrecv
        | _ => exact hrecv
      · rfl
    · rfl
    · split
      · rfl
      · rename_i key value _
        have hparse := parseHeader_marks c contentLen key value
        generalize parseHeader c contentLen key value = r at hparse ⊢
        obtain ⟨res, contentLen', c'⟩ := r
        cases res with
        | some res => exact hparse
        | none => exact (ih _ contentLen' _).trans hparse

theorem httpClientParseRedirectLocation_marks :
    (httpClientParseRedirectLocation c).2.marks = c.marks := by
  unfold httpClientParseRedirectLocation
  split
  · rfl
  · split
    · rfl
    · have hmalloc := c.malloc_marks
      generalize c.malloc = r at hmalloc ⊢
      obtain ⟨ok, c'⟩ := r
      cases ok <;> exact hmalloc

theorem connectLoop_marks (fuel left revLen : Nat) :
    (connectLoop fuel left revLen c).2.2.marks = c.marks := by
  induction left generalizing revLen c with
  | zero => rfl
  | succ left ih =>
    rw [connectLoop_succ]
    have hrequest := request_marks c
    generalize request c = r at hrequest ⊢
    obtain ⟨res, c₁⟩ := r
    cases res with
    | ok =>
      simp only
      have hheaders : (httpClientRecvHeadersAndParse fuel c₁ hcHeaderChunkSize).2.marks =
          c₁.marks := headersLoop_marks { c₁ with isChunked := false } hcHeaderChunkSize fuel 0 [0]
      generalize httpClientRecvHeadersAndParse fuel c₁ hcHeaderChunkSize = r at hheaders ⊢
      obtain ⟨out, c₂⟩ := r
      have hhead : c₂.marks = c.marks := hheaders.trans hrequest
      rcases out with res | _ | _
      · by_cases hred : res = .redirection
        · subst hred
          simp only [connectTail]
          have hlocation := httpClientParseRedirectLocation_marks c₂
          generalize httpClientParseRedirectLocation c₂ = r at hlocation ⊢
          obtain ⟨res, c₃⟩ := r
          by_cases hres : res = .ok
          · subst hres
            exact (ih c₃ c₁.buf.length).trans (hlocation.trans hhead)
          · cases res <;> first | exact hlocation.trans hhead | exact absurd rfl hres
        · cases res <;> first | exact hhead | exact absurd rfl hred
      · exact hhead
      · exact hhead
    | _ => exact hrequest

theorem httpClientConnect_marks (fuel : Nat) : (httpClientConnect fuel c).2.2.marks = c.marks := by
  unfold httpClientConnect
  have hmalloc := c.malloc_marks
  generalize c.malloc = r at hmalloc ⊢
  obtain ⟨ok, c₁⟩ := r
  cases ok with
  | false => exact hmalloc
  | true => exact (connectLoop_marks c₁ fuel _ 0).trans hmalloc

theorem httpClientRecvChunkedSize_marks (maxLen fuel : Nat) :
    (httpClientRecvChunkedSize maxLen fuel c).2.marks = c.marks := by
  induction fuel generalizing c with
  | zero => rfl
  | succ fuel ih =>
    unfold httpClientRecvChunkedSize
    split
    · split <;> rfl
    · split
      · have hrecv := httpClientRecv_marks c (maxLen - c.buf.length)
        generalize httpClientRecv c (maxLen - c.buf.length) = r at hrecv ⊢
        obtain ⟨res, c'⟩ := r
        cases res with
        | ok => exact (ih c').trans hrecv
        | _ => exact hrecv
      · rfl

end Marks

/-! ## The calls so far -/

/-- Data have been handed over, and the closing call has not been made. -/
structure Begun (calls : List HandlerCall) : Prop where
  tagged : Tagged calls
  data : blocks calls ≠ []
  unclosed : Open calls

theorem Tagged.nil : Tagged [] := fun before call after h => absurd h (by simp)

theorem Tagged.append {calls : List HandlerCall} {call : HandlerCall} (h : Tagged calls)
    (hcall : call.block ≠ [] → call.pos = if blocks calls = [] then .first else .mid) :
    Tagged (calls ++ [call]) := by
  intro before call' after heq
  rcases List.eq_nil_or_concat' after with rfl | ⟨after, last, rfl⟩
  · obtain ⟨rfl, hlast⟩ := List.append_inj' heq rfl
    obtain rfl := List.singleton_inj.mp hlast
    exact hcall
  · rw [← List.cons_append, ← List.append_assoc] at heq
    exact h before call' after (List.append_inj' heq rfl).1

theorem Open.append {calls : List HandlerCall} {call : HandlerCall} (h : Open calls)
    (hcall : call.pos ≠ .last) : Open (calls ++ [call]) := by
  intro call' hmem
  rcases List.mem_append.mp hmem with hmem | hmem
  · exact h call' hmem
  · obtain rfl := List.mem_singleton.mp hmem
    exact hcall

/-- Behind the first data every call is marked `DATA_MID`. -/
theorem Begun.append {calls : List HandlerCall} {call : HandlerCall} (h : Begun calls)
    (hcall : call.pos = .mid) : Begun (calls ++ [call]) := by
  refine ⟨h.tagged.append fun _ => ?_, ?_, h.unclosed.append (by simp [hcall])⟩
  · rw [if_neg h.data, hcall]
  · rw [blocks_append]
    exact fun hnil => h.data (List.append_eq_nil_iff.mp hnil).1

/-- The first data. -/
theorem Begun.first {call : HandlerCall} (hcall : call.pos = .first) (hne : call.block ≠ []) :
    Begun [call] := by
  refine ⟨(Tagged.nil.append fun _ => hcall : Tagged ([] ++ [call])), ?_, ?_⟩
  · simpa [blocks] using hne
  · simp [Open, hcall]

/-- The closing call. -/
theorem Begun.marked {calls : List HandlerCall} {last : HandlerCall} (h : Begun calls)
    (hpos : last.pos = .last) (hblock : last.block = []) : Marked (calls ++ [last]) := by
  refine ⟨h.tagged.append fun hne => absurd hblock hne, fun hnil => ?_,
    fun _ => ⟨calls, last, rfl, hpos, hblock, h.unclosed⟩⟩
  rw [blocks_append] at hnil
  exact absurd (List.append_eq_nil_iff.mp hnil).1 h.data

theorem Marked.nil : Marked [] := ⟨.nil, by simp [Open], fun h => absurd rfl h⟩

/-- **The markers are right so far**: no handler, nothing handed over, or something. The position
    that the next call will have is part of it, since nothing else carries the tags from one
    function to the next. -/
def HttpClient.OnTrack (c : HttpClient) : Prop :=
  (c.dataHdlrCb = false ∧ c.calls = []) ∨ (c.dataPos = .first ∧ c.calls = []) ∨
    (c.dataHdlrCb = true ∧ c.dataPos = .mid ∧ Begun c.calls)

/-- The end of a chunked body has been handed over as `DATA_MID`, and nothing before it. -/
def HttpClient.Spoiled (c : HttpClient) : Prop :=
  c.dataHdlrCb = true ∧ c.dataPos = .mid ∧ ∃ call, c.calls = [call] ∧ call.pos = .mid

section OnTrack

variable {c c' : HttpClient}

theorem HttpClient.marks_inj (h : c'.marks = c.marks) :
    c'.calls = c.calls ∧ c'.dataPos = c.dataPos ∧ c'.dataHdlrCb = c.dataHdlrCb := by
  obtain ⟨hcalls, h⟩ := Prod.mk.inj h
  exact ⟨hcalls, Prod.mk.inj h⟩

theorem HttpClient.OnTrack.congr (h : c.OnTrack) (hmarks : c'.marks = c.marks) : c'.OnTrack := by
  obtain ⟨hcalls, hpos, hcb⟩ := HttpClient.marks_inj hmarks
  rwa [HttpClient.OnTrack, hcalls, hpos, hcb]

/-- A block with data is handed over. -/
theorem HttpClient.OnTrack.handle (h : c.OnTrack) (hcb : c.dataHdlrCb = true) {block : List UInt8}
    (hne : block ≠ []) : ({ c.handle block with dataPos := .mid } : HttpClient).OnTrack := by
  refine .inr (.inr ⟨hcb, rfl, ?_⟩)
  rcases h with ⟨hfalse, -⟩ | ⟨hpos, hcalls⟩ | ⟨-, hpos, hbegun⟩
  · exact absurd (hfalse.symm.trans hcb) (by simp)
  · simp only [HttpClient.handle, hcalls, List.nil_append]
    exact .first hpos hne
  · exact hbegun.append hpos

theorem reblock_onTrack (h : c.OnTrack) (chunkBuf data : List UInt8) :
    (reblock c chunkBuf data).2.OnTrack := by
  unfold reblock
  split
  · rename_i hfull
    have hne : chunkBuf ++ data.take (hcChunkSize - 1 - chunkBuf.length) ≠ [] := by
      intro hnil
      have hlen := congrArg List.length hnil
      simp only [List.length_append, List.length_take, List.length_nil] at hlen
      simp only [hcChunkSize] at hfull hlen
      omega
    cases hcb : c.dataHdlrCb with
    | true => exact h.handle hcb hne
    | false =>
      rcases h with ⟨-, hcalls⟩ | ⟨-, hcalls⟩ | ⟨htrue, -⟩
      · exact .inl ⟨hcb, hcalls⟩
      · exact .inl ⟨hcb, hcalls⟩
      · exact absurd (hcb.symm.trans htrue) (by simp)
  · exact h

theorem reblock_dataHdlrCb (c : HttpClient) (chunkBuf data : List UInt8) :
    (reblock c chunkBuf data).2.dataHdlrCb = c.dataHdlrCb := by
  unfold reblock
  split
  · simp only
    split <;> rfl
  · rfl

/-! ## The chunks -/

/-- The markers after a part of a chunked body, where they were right before. -/
def Keeps (c c' : HttpClient) : Prop := c'.dataHdlrCb = c.dataHdlrCb ∧ (c.OnTrack → c'.OnTrack)

theorem Keeps.of_marks (h : c'.marks = c.marks) : Keeps c c' :=
  ⟨(HttpClient.marks_inj h).2.2, fun htrack => htrack.congr h⟩

theorem Keeps.trans {c'' : HttpClient} (h : Keeps c c') (h' : Keeps c' c'') : Keeps c c'' :=
  ⟨h'.1.trans h.1, fun htrack => h'.2 (h.2 htrack)⟩

theorem reblock_keeps (c : HttpClient) (chunkBuf data : List UInt8) :
    Keeps c (reblock c chunkBuf data).2 :=
  ⟨reblock_dataHdlrCb c chunkBuf data, fun h => reblock_onTrack h chunkBuf data⟩

end OnTrack

theorem copySmallChunk_keeps (c : HttpClient) (chunkBuf : List UInt8) :
    Keeps c (copySmallChunk c chunkBuf).2.2 := by
  unfold copySmallChunk
  simp only
  split
  · exact .of_marks rfl
  · split
    · exact .of_marks rfl
    · have hkeeps := reblock_keeps c chunkBuf (c.buf.take c.chunkSize)
      generalize reblock c chunkBuf (c.buf.take c.chunkSize) = r at hkeeps ⊢
      obtain ⟨chunkBuf', c'⟩ := r
      simp only
      split
      · exact hkeeps.trans (.of_marks rfl)
      · exact hkeeps

theorem recvSmallChunk_keeps (maxLen : Nat) (c : HttpClient) (chunkBuf : List UInt8) :
    Keeps c (recvSmallChunk maxLen c chunkBuf).2.2 := by
  unfold recvSmallChunk
  split
  · have hstop := c.checkStop_marks
    generalize c.checkStop = r at hstop ⊢
    obtain ⟨stop, c₁⟩ := r
    cases stop with
    | true => exact .of_marks hstop
    | false =>
      simp only
      have hrecv := httpClientRecv_marks c₁ (maxLen - c₁.buf.length)
      generalize httpClientRecv c₁ (maxLen - c₁.buf.length) = r at hrecv ⊢
      obtain ⟨res, c₂⟩ := r
      have hmarks : Keeps c c₂ := .of_marks (hrecv.trans hstop)
      cases res with
      | ok => exact hmarks.trans (copySmallChunk_keeps c₂ chunkBuf)
      | _ => exact hmarks
  · exact copySmallChunk_keeps c chunkBuf

theorem largeChunkLoop_keeps (maxLen fuel needToRead : Nat) (c : HttpClient)
    (chunkBuf : List UInt8) :
    Keeps c (largeChunkLoop maxLen fuel needToRead c chunkBuf).2.2 := by
  induction fuel generalizing needToRead c chunkBuf with
  | zero => exact .of_marks rfl
  | succ fuel ih =>
    unfold largeChunkLoop
    split
    · exact .of_marks rfl
    · have hstop := c.checkStop_marks
      generalize c.checkStop = r at hstop ⊢
      obtain ⟨stop, c₁⟩ := r
      cases stop with
      | true => exact .of_marks hstop
      | false =>
        simp only
        have hrecv := httpClientRecv_marks c₁ (min needToRead (maxLen - c₁.buf.length))
        generalize httpClientRecv c₁ (min needToRead (maxLen - c₁.buf.length)) = r at hrecv ⊢
        obtain ⟨res, c₂⟩ := r
        have hmarks : Keeps c c₂ := .of_marks (hrecv.trans hstop)
        cases res with
        | ok =>
          simp only
          have hreblock := reblock_keeps c₂ chunkBuf c₂.buf
          generalize reblock c₂ chunkBuf c₂.buf = r at hreblock ⊢
          obtain ⟨chunkBuf', c₃⟩ := r
          have hnext : Keeps c₃ { c₃ with buf := [] } := .of_marks rfl
          exact hmarks.trans (hreblock.trans (hnext.trans (ih _ _ _)))
        | _ => exact hmarks

theorem recvLargeChunk_keeps (maxLen fuel : Nat) (c : HttpClient) (chunkBuf : List UInt8) :
    Keeps c (recvLargeChunk maxLen fuel c chunkBuf).2.2 := by
  unfold recvLargeChunk
  split
  · exact .of_marks rfl
  · have hloop := largeChunkLoop_keeps maxLen fuel (c.chunkSize - c.buf.length) c chunkBuf
    generalize largeChunkLoop maxLen fuel (c.chunkSize - c.buf.length) c chunkBuf = r at hloop ⊢
    obtain ⟨out, chunkBuf', c₁⟩ := r
    cases out with
    | some out => exact hloop
    | none =>
      simp only
      have hrecv := httpClientRecv_marks c₁ 2
      generalize httpClientRecv c₁ 2 = r at hrecv ⊢
      obtain ⟨res, c₂⟩ := r
      have hmarks : Keeps c c₂ := hloop.trans (.of_marks hrecv)
      cases res with
      | ok =>
        simp only
        split
        · exact hmarks.trans (.of_marks rfl)
        · exact hmarks
      | _ => exact hmarks

/-- **A pass over the chunks.** Within a body the markers stay right on every path; only the end of
    a body can go wrong. -/
theorem chunkPass_keeps (maxLen fuel : Nat) (c : HttpClient) (chunkBuf : List UInt8) :
    Keeps c (chunkPass maxLen fuel c chunkBuf).2.2 := by
  unfold chunkPass
  have hstop := c.checkStop_marks
  generalize c.checkStop = r at hstop ⊢
  obtain ⟨stop, c₁⟩ := r
  cases stop with
  | true => exact .of_marks hstop
  | false =>
    simp only
    have hsize := httpClientRecvChunkedSize_marks c₁ maxLen fuel
    generalize httpClientRecvChunkedSize maxLen fuel c₁ = r at hsize ⊢
    obtain ⟨out, c₂⟩ := r
    have hmarks : Keeps c c₂ := .of_marks (hsize.trans hstop)
    by_cases hok : out = .done .ok
    · subst hok
      simp only [chunkData]
      split
      · exact hmarks
      · split
        · exact hmarks.trans (recvSmallChunk_keeps maxLen c₂ chunkBuf)
        · exact hmarks.trans (recvLargeChunk_keeps maxLen fuel c₂ chunkBuf)
    · rw [chunkData_failed hok]
      exact hmarks

/-! ## A body with a length -/

theorem contentLoop_keeps (maxLen fuel needToRead : Nat) (c : HttpClient) :
    Keeps c (contentLoop maxLen fuel needToRead c).2 := by
  induction fuel generalizing needToRead c with
  | zero => exact .of_marks rfl
  | succ fuel ih =>
    unfold contentLoop
    split
    · exact .of_marks rfl
    · have hstop := c.checkStop_marks
      generalize c.checkStop = r at hstop ⊢
      obtain ⟨stop, c₁⟩ := r
      cases stop with
      | true => exact .of_marks hstop
      | false =>
        simp only
        have hrecv := httpClientRecv_marks c₁ (min needToRead (maxLen - c₁.buf.length))
        generalize httpClientRecv c₁ (min needToRead (maxLen - c₁.buf.length)) = r at hrecv ⊢
        obtain ⟨res, c₂⟩ := r
        have hmarks : Keeps c c₂ := .of_marks (hrecv.trans hstop)
        simp only
        split
        · exact hmarks
        · rename_i hregistered
          have hhanded : Keeps c₂ (if c₂.buf.isEmpty then c₂
              else { c₂.handle c₂.buf with dataPos := .mid }) := by
            split
            · exact .of_marks rfl
            · rename_i hempty
              have hne : c₂.buf ≠ [] := fun hnil => hempty (by simp [hnil])
              have hcb : c₂.dataHdlrCb = true := by
                by_contra hfalse
                exact hregistered ⟨hne, by simpa using hfalse⟩
              exact ⟨rfl, fun htrack => htrack.handle hcb hne⟩
          have hmarks := hmarks.trans hhanded
          split
          · exact hmarks
          · split
            · exact hmarks
            · exact hmarks.trans (.trans (.of_marks rfl) (ih _ _))

theorem httpClientRecvContentData_keeps (maxLen fuel : Nat) (c : HttpClient) :
    Keeps c (httpClientRecvContentData fuel c maxLen).2 := by
  unfold httpClientRecvContentData
  simp only
  split
  · exact .of_marks rfl
  · exact contentLoop_keeps ..

/-! ## A download -/

section Download

variable {c : HttpClient}

/-- What is left of a chunked body is handed over behind a block. -/
theorem HttpClient.OnTrack.chunkRet (h : c.OnTrack) {res : HttpResult}
    (hguard : res = .ok → c.dataHdlrCb = false ∨ c.dataPos ≠ .first) (chunkBuf : List UInt8) :
    (chunkRet res chunkBuf c).OnTrack := by
  unfold Http.chunkRet
  by_cases hok : res = .ok
  · rw [if_pos hok]
    by_cases hcb : c.dataHdlrCb = true
    · have hpos : c.dataPos ≠ .first := (hguard hok).resolve_left (by simp [hcb])
      simp only [if_pos hcb]
      rcases h with ⟨hfalse, -⟩ | ⟨hfirst, -⟩ | ⟨-, -, hbegun⟩
      · exact absurd (hfalse.symm.trans hcb) (by simp)
      · exact absurd hfirst hpos
      · exact .inr (.inr ⟨hcb, rfl, hbegun.append rfl⟩)
    · simp only [if_neg hcb]
      refine .inl ⟨by simpa using hcb, ?_⟩
      rcases h with ⟨-, hcalls⟩ | ⟨-, hcalls⟩ | ⟨htrue, -⟩
      · exact hcalls
      · exact hcalls
      · exact absurd htrue hcb
  · rw [if_neg hok]
    exact h

/-- Where there was none it is spoiled. -/
theorem HttpClient.OnTrack.chunkRet_spoiled (h : c.OnTrack) (hcb : c.dataHdlrCb = true)
    (hpos : c.dataPos = .first) (chunkBuf : List UInt8) :
    (Http.chunkRet .ok chunkBuf c).Spoiled := by
  have hcalls : c.calls = [] := by
    rcases h with ⟨-, hcalls⟩ | ⟨-, hcalls⟩ | ⟨-, hmid, -⟩
    · exact hcalls
    · exact hcalls
    · exact absurd (hmid.symm.trans hpos) (by simp)
  simp only [Http.chunkRet, if_true, if_pos hcb]
  refine ⟨hcb, rfl,
    ⟨.mid, chunkBuf, c.httpContentType, u32 (c.recvSize + chunkBuf.length)⟩, ?_, rfl⟩
  simp only [HttpClient.handle, hcalls, List.nil_append]

/-- `RET` makes the closing call. -/
theorem HttpClient.OnTrack.getRet (h : c.OnTrack) : Marked (getRet c).calls := by
  unfold Http.getRet
  rcases h with ⟨hcb, hcalls⟩ | ⟨hpos, hcalls⟩ | ⟨hcb, hpos, hbegun⟩
  · rw [if_neg (by simp [hcb])]
    exact hcalls ▸ .nil
  · rw [if_neg (by simp [hpos])]
    exact hcalls ▸ .nil
  · rw [if_pos ⟨by simp [hpos], hcb⟩]
    exact hbegun.marked rfl rfl

/-- Behind a lone block marked `DATA_MID` nothing makes up for it. -/
theorem HttpClient.Spoiled.getRet (h : c.Spoiled) : ¬Marked (getRet c).calls := by
  obtain ⟨hcb, hpos, call, hcalls, hmid⟩ := h
  unfold Http.getRet
  rw [if_pos ⟨by simp [hpos], hcb⟩]
  simp only [HttpClient.handle, hcalls]
  intro hmarked
  by_cases hblock : call.block = []
  · -- nothing was delivered, and the closing call is there
    have hopen := hmarked.nothing (by simp [blocks, hblock])
    exact hopen _ (List.mem_append_right [call] (List.mem_singleton_self _)) rfl
  · have htag := hmarked.tagged [] call _ rfl hblock
    rw [hmid] at htag
    exact absurd htag (by simp [blocks])

/-- Until `RET` there is no closing call. -/
theorem HttpClient.OnTrack.calls (h : c.OnTrack) : Tagged c.calls ∧ Open c.calls := by
  rcases h with ⟨-, hcalls⟩ | ⟨-, hcalls⟩ | ⟨-, -, hbegun⟩
  · exact hcalls ▸ ⟨.nil, by simp [Open]⟩
  · exact hcalls ▸ ⟨.nil, by simp [Open]⟩
  · exact ⟨hbegun.tagged, hbegun.unclosed⟩

/-- The markers are right, and will be. -/
def Good (s : Download) : Prop :=
  match s.stage with
  | .finished _ => Marked s.client.calls
  | _ => s.client.OnTrack

/-- They are spoiled: the download is on its way out. -/
def Bad (s : Download) : Prop :=
  match s.stage with
  | .finished _ => ¬Marked s.client.calls
  | .received _ .ok => s.client.Spoiled
  | .ret _ => s.client.Spoiled
  | _ => False

theorem Good.soFar {s : Download} (h : Good s) : MarkedSoFar s := by
  obtain ⟨stage, c⟩ := s
  cases stage with
  | finished res => exact h
  | _ => exact HttpClient.OnTrack.calls h

theorem afterAttempt_good (h : c.OnTrack) (left : Nat) (res : HttpResult) :
    Good (afterAttempt left res c) := by
  unfold afterAttempt
  split
  · exact HttpClient.OnTrack.congr h rfl
  · exact h

/-- A stage that is not the last. -/
theorem Outcome.stage_good (h : c.OnTrack) {next : HttpResult → Stage}
    (hnext : ∀ res res', next res ≠ .finished res') (out : Outcome) : Good ⟨out.stage next, c⟩ := by
  have hrest {stage : Stage} (hstage : ∀ res', stage ≠ .finished res') : Good ⟨stage, c⟩ := by
    cases stage with
    | finished res => exact absurd rfl (hstage res)
    | _ => exact h
  cases out with
  | done res => exact hrest (hnext res)
  | _ => exact hrest (by simp [Outcome.stage])

/-- **A step with a block before it** keeps the markers right, and any other step does too: the
    condition says something at the end of a chunked body and nowhere else. -/
theorem Good.step {s s' : Download} {fuel : Nat} (h : Good s) (hguard : BlockBefore s)
    (hstep : Http.step s fuel = some s') : Good s' := by
  obtain ⟨stage, c⟩ := s
  cases stage with
  | begin =>
    have htrack : c.malloc.2.OnTrack := HttpClient.OnTrack.congr h c.malloc_marks
    simp only [Http.step] at hstep
    split at hstep <;> rename_i hm <;> rw [hm] at htrack <;>
      rw [← Option.some.inj hstep] <;> exact htrack
  | attempts left ret =>
    cases left with
    | zero =>
      rw [← Option.some.inj hstep]
      exact h
    | succ left =>
      have htrack : c.checkStop.2.OnTrack := HttpClient.OnTrack.congr h c.checkStop_marks
      simp only [Http.step] at hstep
      split at hstep <;> rename_i c₁ hcheck <;> rw [hcheck] at htrack
      · rw [← Option.some.inj hstep]
        exact htrack
      · have htrack₂ : (httpClientConnect fuel c₁).2.2.OnTrack :=
          htrack.congr (httpClientConnect_marks c₁ fuel)
        split at hstep <;> rename_i hconnect <;> rw [hconnect] at htrack₂ <;>
          rw [← Option.some.inj hstep]
        · exact htrack₂
        · exact afterAttempt_good htrack₂ _ _
        · exact htrack₂
  | connected left remain =>
    have htrack : ({ c with buf := c.buf.take remain } : HttpClient).OnTrack :=
      HttpClient.OnTrack.congr h rfl
    simp only [Http.step] at hstep
    split at hstep
    · split at hstep <;> rw [← Option.some.inj hstep] <;> exact htrack
    · rw [← Option.some.inj hstep]
      have hkeeps := httpClientRecvContentData_keeps (hcChunkSize - 1) fuel
        { c with buf := c.buf.take remain }
      exact Outcome.stage_good (hkeeps.2 htrack) (by simp) _
  | chunks left chunkBuf =>
    have htrack : (chunkPass (hcChunkSize - 1) fuel c chunkBuf).2.2.OnTrack :=
      (chunkPass_keeps _ fuel c chunkBuf).2 h
    simp only [Http.step] at hstep
    split at hstep <;> rename_i hpass <;> rw [hpass] at htrack <;> rw [← Option.some.inj hstep]
    · exact htrack
    · exact Outcome.stage_good htrack (by simp) _
  | chunksOver left res chunkBuf =>
    rw [← Option.some.inj hstep]
    refine HttpClient.OnTrack.chunkRet h (fun hok => ?_) chunkBuf
    subst hok
    exact hguard
  | received left res =>
    rw [← Option.some.inj hstep]
    exact afterAttempt_good h left res
  | ret res =>
    rw [← Option.some.inj hstep]
    exact HttpClient.OnTrack.getRet h
  | finished res => cases hstep
  | stuck out => cases hstep

/-- **A step without one** spoils them: what the end of the body hands over is the first call, and
    is tagged as a later one. -/
theorem Good.step_bad {s s' : Download} {fuel : Nat} (h : Good s) (hguard : ¬BlockBefore s)
    (hstep : Http.step s fuel = some s') : Bad s' := by
  obtain ⟨stage, c⟩ := s
  cases stage with
  | chunksOver left res chunkBuf =>
    cases res with
    | ok =>
      rw [← Option.some.inj hstep]
      have hfirst : c.dataHdlrCb = true ∧ c.dataPos = .first := by
        simpa [BlockBefore] using hguard
      exact HttpClient.OnTrack.chunkRet_spoiled h hfirst.1 hfirst.2 chunkBuf
    | _ => exact absurd trivial hguard
  | _ => exact absurd trivial hguard

/-- Nothing mends them. -/
theorem Bad.step {s s' : Download} {fuel : Nat} (h : Bad s) (hstep : Http.step s fuel = some s') :
    Bad s' := by
  obtain ⟨stage, c⟩ := s
  cases stage with
  | received left res =>
    cases res with
    | ok =>
      rw [← Option.some.inj hstep]
      exact h
    | _ => exact h.elim
  | ret res =>
    rw [← Option.some.inj hstep]
    exact HttpClient.Spoiled.getRet h
  | finished res => cases hstep
  | _ => exact h.elim

/-- **The markers of a download**, as its steps go: where each step at the end of a chunked body has
    a block before it they are right in every stage reached, and those of a download that has
    returned are right only then. The runs are those of `duer_http_client_get`. -/
theorem markers_iff (c : HttpClient) (pos : Nat) (hcalls : c.calls = []) :
    (∀ as s, runFrom step (.start c pos) as = some s →
      (admits step (fun s _ => BlockBefore s) (.start c pos) as → MarkedSoFar s) ∧
      ∀ res, s.stage = .finished res →
        (Marked s.client.calls ↔ admits step (fun s _ => BlockBefore s) (.start c pos) as)) ∧
    ∀ fuel res c', duerHttpClientGet fuel c pos = (.done res, c') →
      ∃ as, runFrom step (.start c pos) as = some ⟨.finished res, c'⟩ := by
  refine ⟨fun as s h => ?_, fun fuel res c' h => download_run h⟩
  have hstart : Good (.start c pos) := .inr (.inl ⟨rfl, hcalls⟩)
  have hregions := runFrom_admits_or_bad Good Bad Good.step Good.step_bad Bad.step hstart h
  refine ⟨fun hall => ?_, fun res hover => ?_⟩
  · rcases hregions with ⟨hgood, -⟩ | ⟨-, hnot⟩
    · exact hgood.soFar
    · exact absurd hall hnot
  · obtain ⟨stage, c'⟩ := s
    obtain rfl : stage = .finished res := hover
    rcases hregions with ⟨hgood, hall⟩ | ⟨hbad, hnot⟩
    · exact iff_of_true hgood hall
    · exact iff_of_false hbad hnot

end Download

/-- A server that sends this response, in one go, and closes the connection. -/
def plainServer (response : List UInt8) : Conn where
  parseUrl := some (ascii "h", ascii "/")
  connect := 0
  sends := [100, 100]
  reply _ := ⟨⟨response, [.ok 100, .error .closed]⟩, true⟩

/-- A client that downloads it. -/
def plainClient (response : List UInt8) : HttpClient where
  customHeaders := []
  httpResponseCode := 0
  dataHdlrCb := true
  httpContentLen := 0
  httpContentType := []
  location := none
  isChunked := false
  chunkSize := 0
  recvSize := 0
  resumeRetryCount := 0
  buf := []
  dataPos := .first
  sock := ⟨⟨[], []⟩, false⟩
  sends := []
  sent := []
  conns := [plainServer response]
  mallocs := []
  stops := []
  stopped := false
  calls := []

/-- Five octets with their length. -/
def withLength : HttpClient :=
  plainClient (ascii "HTTP/1.1 200 OK\r\nContent-Length: 5\r\n\r\nhello")

/-- The same octets as a chunk. -/
def inChunks : HttpClient :=
  plainClient (ascii "HTTP/1.1 200 OK\r\nTransfer-Encoding: chunked\r\n\r\n5\r\nhello\r\n0\r\n\r\n")

/-- Where the calls stand, and their data. -/
def markedBlocks (c : HttpClient) : List (DataPos × List UInt8) :=
  (duerHttpClientGet 9 c 0).2.calls.map fun call => (call.pos, call.block)

/-- Five steps: the memory, a response, its data, and the two returns. -/
theorem markers_iff_length :
    markedBlocks withLength = [(.first, ascii "hello"), (.last, [])] ∧
      ∃ s, runFrom step (.start withLength 0) [9, 9, 9, 9, 9] = some s ∧ s.stage = .finished .ok ∧
        Marked s.client.calls := by
  have hstage : (runFrom step (.start withLength 0) [9, 9, 9, 9, 9]).map (·.stage) =
      some (.finished .ok) := by decide +kernel
  obtain ⟨s, hrun, hover⟩ := Option.map_eq_some_iff.mp hstage
  have hall : admits step (fun s _ => BlockBefore s) (.start withLength 0) [9, 9, 9, 9, 9] := by
    decide +kernel
  exact ⟨by decide +kernel, s, hrun, hover,
    (((markers_iff withLength 0 rfl).1 _ s hrun).2 .ok hover).mpr hall⟩

/-- **A short chunked body**: its only block is marked as a later one. It is smaller than the
    buffer, so it is handed over at the end of the body and not before. -/
theorem markers_chunk_unmarked :
    markedBlocks inChunks = [(.mid, ascii "hello"), (.last, [])] ∧
      ¬Marked (duerHttpClientGet 9 inChunks 0).2.calls := by
  have hblocks : markedBlocks inChunks = [(.mid, ascii "hello"), (.last, [])] := by decide +kernel
  refine ⟨hblocks, fun hmarked => ?_⟩
  obtain ⟨call, rest, hcalls, hcall, -⟩ := List.map_eq_cons_iff.mp hblocks
  obtain ⟨hpos, hblock⟩ := Prod.mk.inj hcall
  have htag := hmarked.tagged [] call rest hcalls (by rw [hblock]; decide)
  rw [hpos] at htag
  exact absurd htag (by simp [blocks])

end Http
end LightDuer
