import LightDuer.Http.Response

/-!
# Receiving a response, part by part

`HttpClient.wire` is what is still to be read: the octets in the buffer and those of the connection.
Each receiving function takes one part off the front of it, however the octets arrive, or ends with
an error, and touches nothing that concerns the data handed over.

## How segmentation disappears

`http_client_recv` reads until it has as many octets as it was asked for, or none are given.
Whatever it gets moves from the stream to the end of the buffer, so `wire` is the same before and
after (`httpClientRecv_wire`), and a statement in terms of `wire` does not mention segments at all.
The price is that a function may find less in the buffer than it needs; then it reads again, or
gives up with an error that the statement allows for.

## What the parts share

A line has been read when its end is in the buffer. `HttpClient.line_of_crLfPos` says that the line
that the client then takes is the line at the front of the wire, whether the end was looked for in
the whole buffer, in the text before a NUL or in all but the last octet; the three searches of the
source are prefixes of the buffer, and this is all the lemma asks.

`Quiet` collects the fields that the handing over of data depends on. Every function of this module
leaves them alone, which is the frame condition that the results on downloads use, and it composes
along a sequence of calls.
-/

set_option autoImplicit false

namespace LightDuer
namespace Http

open Lib

/-- What is still to be read of the response. -/
def HttpClient.wire (c : HttpClient) : List UInt8 := c.buf ++ c.sock.src.stream

/-- Nothing that concerns the data handed over differs. -/
structure Quiet (c c' : HttpClient) : Prop where
  calls : c'.calls = c.calls
  recvSize : c'.recvSize = c.recvSize
  dataHdlrCb : c'.dataHdlrCb = c.dataHdlrCb
  conns : c'.conns = c.conns
  stopped : c'.stopped = c.stopped

theorem Quiet.refl (c : HttpClient) : Quiet c c := ⟨rfl, rfl, rfl, rfl, rfl⟩

theorem Quiet.of_received {c c' : HttpClient} {sock : Socket} {buf : List UInt8}
    (h : Quiet { c with sock, buf } c') : Quiet c c' :=
  ⟨h.calls, h.recvSize, h.dataHdlrCb, h.conns, h.stopped⟩

theorem Quiet.trans {a b c : HttpClient} (h : Quiet a b) (h' : Quiet b c) : Quiet a c :=
  ⟨h'.calls.trans h.calls, h'.recvSize.trans h.recvSize, h'.dataHdlrCb.trans h.dataHdlrCb,
    h'.conns.trans h.conns, h'.stopped.trans h.stopped⟩

theorem HttpClient.malloc_cases (c : HttpClient) :
    ∃ ok rest, c.malloc = (ok, { c with mallocs := rest }) := by
  unfold HttpClient.malloc
  cases hm : c.mallocs with
  | nil => exact ⟨true, c.mallocs, rfl⟩
  | cons ok rest => exact ⟨ok, rest, rfl⟩

/-- A check of the stop flag that finds it, or leaves nothing changed that matters. -/
theorem HttpClient.checkStop_cases (c : HttpClient) :
    ∃ rest, c.checkStop = (true, { c with stops := rest, stopped := true }) ∨
      c.checkStop = (false, { c with stops := rest }) := by
  unfold HttpClient.checkStop
  cases hs : c.stops with
  | nil => exact ⟨c.stops, .inr rfl⟩
  | cons stop rest =>
    refine ⟨rest, ?_⟩
    cases stop with
    | true => exact .inl (by simp)
    | false => exact .inr (by simp)

/-- What is still to be read, and how much of it the chunk is, is the same. -/
structure SameReads (c c' : HttpClient) : Prop where
  sock : c'.sock = c.sock
  buf : c'.buf = c.buf
  chunkSize : c'.chunkSize = c.chunkSize

theorem SameReads.wire {c c' : HttpClient} (h : SameReads c c') : c'.wire = c.wire := by
  rw [HttpClient.wire, HttpClient.wire, h.sock, h.buf]

theorem HttpClient.checkStop_sameReads (c : HttpClient) : SameReads c c.checkStop.2 := by
  obtain ⟨rest, hstop | hgo⟩ := c.checkStop_cases
  · rw [hstop]
    exact ⟨rfl, rfl, rfl⟩
  · rw [hgo]
    exact ⟨rfl, rfl, rfl⟩

/-- Re-blocking hands data over and reads none. -/
theorem reblock_sameReads (c : HttpClient) (chunkBuf data : List UInt8) :
    SameReads c (reblock c chunkBuf data).2 := by
  unfold reblock
  split
  · simp only
    split <;> exact ⟨rfl, rfl, rfl⟩
  · exact ⟨rfl, rfl, rfl⟩

/-! ## Receive calls -/

theorem Socket.recv_cases (sock : Socket) (size : Nat) :
    ∃ ret got sock', sock.recv size = (ret, got, sock') ∧ got.length ≤ size ∧
      (0 < ret → ret = got.length) ∧ (ret ≤ 0 → got = []) ∧
      sock.src.stream = got ++ sock'.src.stream := by
  unfold Socket.recv
  rcases sock.src.recv_cases size with ⟨e, he⟩ | ⟨got, rest, hne, hle, hs, hrecv⟩
  · rw [he]
    cases e with
    | closed => exact ⟨0, [], _, rfl, by simp, by simp, by simp, rfl⟩
    | wouldBlock | failed =>
      refine ⟨_, [], _, rfl, by simp, fun hpos => absurd hpos ?_, by simp, rfl⟩
      split <;> simp
  · rw [hrecv]
    refine ⟨got.length, got, _, rfl, hle, by simp, fun hnil => ?_, hs⟩
    exact List.eq_nil_of_length_eq_zero (by omega)

/-- The octets stored come off the front of the stream. -/
theorem recvLoop_cases (n : Nat) : ∀ (sock : Socket) (want : Nat),
    ∃ res got sock', recvLoop n sock want = (res, got, sock') ∧ (res = .ok ∨ res = .conn) ∧
      got.length ≤ want ∧ sock.src.stream = got ++ sock'.src.stream := by
  induction n with
  | zero => exact fun sock want => ⟨.ok, [], sock, rfl, .inl rfl, by simp, rfl⟩
  | succ n ih =>
    intro sock want
    unfold recvLoop
    by_cases hw : want = 0
    · exact ⟨.ok, [], sock, by rw [if_pos hw], .inl rfl, by simp, rfl⟩
    · obtain ⟨ret, got, sock₁, hrecv, hle, hpos, hnil, hs⟩ := sock.recv_cases want
      simp only [if_neg hw, hrecv]
      by_cases hret : 0 < ret
      · obtain ⟨res, more, sock₂, hloop, hres, hmore, hs'⟩ := ih sock₁ (want - got.length)
        refine ⟨res, got ++ more, sock₂, by simp only [if_pos hret, hloop], hres, ?_, ?_⟩
        · rw [List.length_append]
          omega
        · rw [hs, hs', List.append_assoc]
      · obtain rfl := hnil (by omega)
        by_cases h0 : ret = 0
        · exact ⟨.ok, [], sock₁, by simp [h0], .inl rfl, by simp, hs⟩
        · exact ⟨.conn, [], sock₁, by simp [hret, h0], .inr rfl, by simp, hs⟩

/-- **`http_client_recv`** moves octets from the front of the stream to the end of the buffer, and
    changes nothing else of the client. It may move none and report success, which is why the loops
    around it need not end. -/
theorem httpClientRecv_cases (c : HttpClient) (maxLen : Nat) :
    ∃ res got sock, httpClientRecv c maxLen = (res, { c with sock, buf := c.buf ++ got }) ∧
      (res = .ok ∨ res = .conn) ∧ got.length ≤ maxLen ∧
      c.sock.src.stream = got ++ sock.src.stream := by
  obtain ⟨res, got, sock, hloop, hres, hle, hs⟩ := recvLoop_cases maxLen c.sock maxLen
  exact ⟨res, got, sock, by rw [httpClientRecv, hloop], hres, hle, hs⟩

/-- A receive takes octets from the stream to the buffer. -/
theorem httpClientRecv_wire {c c' : HttpClient} {maxLen : Nat} {res : HttpResult}
    (hcall : httpClientRecv c maxLen = (res, c')) :
    c'.wire = c.wire ∧ c.buf.length ≤ c'.buf.length := by
  obtain ⟨res', got, sock, hcases, -, -, hstream⟩ := httpClientRecv_cases c maxLen
  rw [hcases] at hcall
  simp only [Prod.mk.injEq] at hcall
  obtain ⟨rfl, rfl⟩ := hcall
  refine ⟨?_, by simp⟩
  simp [HttpClient.wire, hstream]

/-- The line at the front of what is to be read, once its end is in the buffer. -/
theorem HttpClient.line_of_crLfPos {c : HttpClient} {line rest seen : List UInt8} {pos : Nat}
    (hwire : c.wire = line ++ crLf ++ rest) (hline : 13 ∉ line) (hseen : seen <+: c.buf)
    (hpos : crLfPos seen = some pos) :
    pos = line.length ∧ c.buf.take pos = line ∧
      c.buf.drop (pos + 2) ++ c.sock.src.stream = rest ∧ pos + 2 ≤ c.buf.length := by
  have hbuf : c.buf <+: line ++ crLf ++ rest := ⟨c.sock.src.stream, hwire⟩
  have hlen : pos + 2 ≤ c.buf.length := Nat.le_trans (crLfPos_lt hpos) hseen.length_le
  rw [crLfPos_of_isPrefix hline (hseen.trans hbuf)] at hpos
  have hp : pos = line.length := by
    split at hpos
    · exact (Option.some.inj hpos).symm
    · exact absurd hpos (by simp)
  subst hp
  refine ⟨rfl, ?_, ?_, hlen⟩
  · obtain ⟨tail, htail⟩ := hbuf
    have h := congrArg (List.take line.length) htail
    rw [List.take_append_of_le_length (by omega), List.append_assoc,
      List.take_left' rfl] at h
    exact h
  · have h := congrArg (List.drop (line.length + 2)) hwire
    rw [wire, List.drop_append_of_le_length hlen] at h
    rw [h, show line.length + 2 = (line ++ crLf).length by simp [crLf], List.drop_left]

/-! ## The head of a response -/

/-- The status line comes off. -/
theorem httpClientRecvRspAndParse_spec {c : HttpClient} {line rest : List UInt8} (maxLen : Nat)
    (hs : c.sock.src.stream = line ++ crLf ++ rest) (hline : 13 ∉ line) :
    ∃ res c', httpClientRecvRspAndParse c maxLen = (res, c') ∧ Quiet c c' ∧
      (res = .ok → c'.wire = rest ∧ c'.buf.length ≤ maxLen) := by
  unfold httpClientRecvRspAndParse
  obtain ⟨res, got, sock, hrecv, hres, hle, hstream⟩ :=
    httpClientRecv_cases { c with buf := [] } maxLen
  rw [hrecv]
  rcases hres with rfl | rfl
  · simp only [List.nil_append]
    split
    · exact ⟨.prtcl, _, rfl, ⟨rfl, rfl, rfl, rfl, rfl⟩, by simp⟩
    · rename_i pos hpos
      split
      · exact ⟨.prtcl, _, rfl, ⟨rfl, rfl, rfl, rfl, rfl⟩, by simp⟩
      · split
        · exact ⟨.prtcl, _, rfl, ⟨rfl, rfl, rfl, rfl, rfl⟩, by simp⟩
        · refine ⟨.ok, _, rfl, ⟨rfl, rfl, rfl, rfl, rfl⟩, fun _ => ?_⟩
          have hwire : ({ c with sock := sock, buf := got } : HttpClient).wire =
              line ++ crLf ++ rest := hstream.symm.trans hs
          obtain ⟨-, -, hrest, -⟩ :=
            HttpClient.line_of_crLfPos hwire hline (cString_isPrefix got) hpos
          refine ⟨hrest, ?_⟩
          simp only [List.length_drop]
          exact Nat.le_trans (Nat.sub_le ..) hle
  · exact ⟨.conn, _, rfl, ⟨rfl, rfl, rfl, rfl, rfl⟩, by simp⟩

/-- A header line leaves the buffer and the connection alone. -/
theorem parseHeader_reads (c : HttpClient) (contentLen : Int) (key value : List UInt8) :
    (parseHeader c contentLen key value).2.2.sock = c.sock ∧
      (parseHeader c contentLen key value).2.2.buf = c.buf := by
  have hmalloc (c : HttpClient) : c.malloc.2.sock = c.sock ∧ c.malloc.2.buf = c.buf := by
    unfold HttpClient.malloc
    split <;> exact ⟨rfl, rfl⟩
  unfold parseHeader
  split
  · exact ⟨rfl, rfl⟩
  · split
    · split
      · have h := hmalloc { c with isChunked := true }
        split <;> rename_i hm <;> rw [hm] at h <;> exact h
      · exact ⟨rfl, rfl⟩
    · split
      · exact ⟨rfl, rfl⟩
      · split
        · have h := hmalloc c
          split <;> rename_i hm <;> rw [hm] at h <;> exact h
        · exact ⟨rfl, rfl⟩

/-! ## Sending -/

theorem httpClientSend_spec (c : HttpClient) (text : List UInt8) :
    ∃ res c', httpClientSend c text = (res, c') ∧ Quiet c c' ∧ c'.sock = c.sock := by
  unfold httpClientSend
  simp only
  split
  · exact ⟨.ok, _, rfl, ⟨rfl, rfl, rfl, rfl, rfl⟩, rfl⟩
  · split
    · exact ⟨.closed, _, rfl, ⟨rfl, rfl, rfl, rfl, rfl⟩, rfl⟩
    · exact ⟨.conn, _, rfl, ⟨rfl, rfl, rfl, rfl, rfl⟩, rfl⟩

theorem httpClientSendRequest_spec (method : HttpMeth) (c : HttpClient) (host path : List UInt8) :
    ∃ res c', httpClientSendRequest method c host path = (res, c') ∧ Quiet c c' ∧
      c'.sock = c.sock := by
  unfold httpClientSendRequest
  obtain ⟨ok, rest, hm⟩ := c.malloc_cases
  rw [hm]
  cases ok with
  | false => exact ⟨.failed, _, rfl, ⟨rfl, rfl, rfl, rfl, rfl⟩, rfl⟩
  | true =>
    simp only
    generalize ((requestHead method { c with mallocs := rest } host path).take _) = text
    obtain ⟨res, c', hsend, hq, hsock⟩ := httpClientSend_spec { c with mallocs := rest } text
    have hq' : Quiet c c' := ⟨hq.calls, hq.recvSize, hq.dataHdlrCb, hq.conns, hq.stopped⟩
    simp only [hsend]
    cases res with
    | ok => exact ⟨.ok, c', rfl, hq', hsock⟩
    | _ => exact ⟨.conn, c', rfl, hq', hsock⟩

theorem httpClientSendHeaders_spec {buffSize : Nat} (headers : List (List UInt8 × List UInt8)) :
    ∀ c : HttpClient, ∃ res c', httpClientSendHeaders buffSize headers c = (res, c') ∧
      Quiet c c' ∧ c'.sock = c.sock := by
  induction headers with
  | nil => exact fun c => httpClientSend_spec c crLf
  | cons header headers ih =>
    intro c
    unfold httpClientSendHeaders
    split
    · exact ⟨.failed, c, rfl, .refl c, rfl⟩
    · obtain ⟨res, c₁, hsend, hq, hsock⟩ :=
        httpClientSend_spec c ((headerLine header).take (buffSize - 1))
      simp only [hsend]
      cases res with
      | ok =>
        obtain ⟨res', c', hrest, hq', hsock'⟩ := ih c₁
        exact ⟨res', c', hrest, hq.trans hq', hsock'.trans hsock⟩
      | _ => exact ⟨.conn, c₁, rfl, hq, hsock⟩

/-! ## Header lines -/

/-- The content length the client notes for a body of `n` octets. -/
def HttpClient.totalLen (c : HttpClient) (n : Nat) : Int := int32 (n + c.recvSize)

/-- What a header line other than `Location` does. -/
theorem parseHeader_spec (c : HttpClient) (contentLen : Int) {h : Header}
    (hloc : h.key ≠ ascii "Location") :
    ∃ r len c', parseHeader c contentLen h.key h.value = (r, len, c') ∧ Quiet c c' ∧
      c'.buf = c.buf ∧ c'.sock = c.sock ∧ r ≠ some .redirection ∧ r ≠ some .ok ∧
      (r = none → c'.isChunked = (c.isChunked || h.chunked) ∧
        (h.key ≠ ascii "Content-Length" → c'.httpContentLen = c.httpContentLen) ∧
        ∀ n, h.key = ascii "Content-Length" → h.HasNumber n → n < 2 ^ 31 →
          c'.httpContentLen = c.totalLen n) := by
  unfold parseHeader
  by_cases hcl : h.key = ascii "Content-Length"
  · have hnc : h.chunked = false := by
      simp [Header.chunked, hcl, show ascii "Content-Length" ≠ ascii "Transfer-Encoding" by decide]
    rw [if_pos hcl]
    refine ⟨none, _, _, rfl, ⟨rfl, rfl, rfl, rfl, rfl⟩, rfl, rfl, by simp, by simp, fun _ =>
      ⟨by simp [hnc], fun hne => absurd hcl hne, fun n _ hn hlt => ?_⟩⟩
    simp only [Header.scanInt_value hn hlt, Option.getD_some, HttpClient.totalLen]
  · rw [if_neg hcl]
    by_cases hte : h.key = ascii "Transfer-Encoding"
    · rw [if_pos hte]
      by_cases hv : h.value = ascii "Chunked" ∨ h.value = ascii "chunked"
      · have hch : h.chunked = true := by simpa [Header.chunked, hte] using hv
        rw [if_pos hv]
        obtain ⟨ok, rest, hm⟩ := HttpClient.malloc_cases { c with isChunked := true }
        rw [hm]
        cases ok with
        | true =>
          exact ⟨none, _, _, rfl, ⟨rfl, rfl, rfl, rfl, rfl⟩, rfl, rfl, by simp, by simp, fun _ =>
            ⟨by simp [hch], fun _ => rfl, fun n hk => absurd hk hcl⟩⟩
        | false =>
          exact ⟨some .failed, _, _, rfl, ⟨rfl, rfl, rfl, rfl, rfl⟩, rfl, rfl, by simp, by simp,
            by simp⟩
      · have hnc : h.chunked = false := by simpa [Header.chunked, hte] using hv
        rw [if_neg hv]
        exact ⟨none, _, _, rfl, .refl c, rfl, rfl, by simp, by simp, fun _ =>
          ⟨by simp [hnc], fun _ => rfl, fun n hk => absurd hk hcl⟩⟩
    · have hnc : h.chunked = false := by simp [Header.chunked, hte]
      rw [if_neg hte]
      by_cases hct : h.key = ascii "Content-Type"
      · rw [if_pos hct]
        exact ⟨none, _, _, rfl, ⟨rfl, rfl, rfl, rfl, rfl⟩, rfl, rfl, by simp, by simp, fun _ =>
          ⟨by simp [hnc], fun _ => rfl, fun n hk => absurd hk hcl⟩⟩
      · rw [if_neg hct, if_neg hloc]
        exact ⟨none, _, _, rfl, .refl c, rfl, rfl, by simp, by simp, fun _ =>
          ⟨by simp [hnc], fun _ => rfl, fun n hk => absurd hk hcl⟩⟩

/-- What the client knows about the body once the headers are read. -/
structure AfterHeaders (c : HttpClient) (headers : List Header) (payload : List UInt8)
    (maxLen : Nat) (c' : HttpClient) : Prop where
  wire : c'.wire = payload
  held : c'.buf.length ≤ maxLen
  chunked : c'.isChunked = (c.isChunked || headers.any Header.chunked)
  length : ∀ n < 2 ^ 31, (∀ h ∈ headers, h.key = ascii "Content-Length" → h.HasNumber n) →
    (c.httpContentLen = c.totalLen n ∨ ∃ h ∈ headers, h.key = ascii "Content-Length") →
    c'.httpContentLen = c.totalLen n

/-- **The headers come off**, one line at a time. Buffer and wire together are the headers, the
    blank line and the payload; each round takes one line off the front, wherever the cut between
    the two is, and reads more when the line is not complete. -/
theorem headersLoop_spec {payload : List UInt8} (maxLen fuel : Nat) :
    ∀ (headers : List Header) (contentLen : Int) (behind : List UInt8) (c : HttpClient),
      (∀ h ∈ headers, h.key ≠ ascii "Location") →
      c.wire = headers.flatMap (fun h => h.line ++ crLf) ++ crLf ++ payload →
      c.buf.length ≤ maxLen →
      ∃ out c', headersLoop maxLen fuel contentLen behind c = (out, c') ∧ Quiet c c' ∧
        out ≠ .done .redirection ∧
        (out = .done .ok → AfterHeaders c headers payload maxLen c') := by
  induction fuel with
  | zero =>
    exact fun headers contentLen behind c _ _ _ =>
      ⟨.running, c, rfl, .refl c, by simp, fun h => absurd h (by simp)⟩
  | succ fuel ih =>
    intro headers contentLen behind c hloc hwire hheld
    unfold headersLoop
    cases hpos : crLfPos (cString c.buf) with
    | none =>
      by_cases hroom : c.buf.length < maxLen
      · simp only [if_pos hroom]
        obtain ⟨res, got, sock, hrecv, hres, hle, hs⟩ :=
          httpClientRecv_cases c (maxLen - c.buf.length)
        rw [hrecv]
        rcases hres with rfl | rfl
        · have hwire' : ({ c with sock := sock, buf := c.buf ++ got } : HttpClient).wire =
              headers.flatMap (fun h => h.line ++ crLf) ++ crLf ++ payload := by
            rw [← hwire, HttpClient.wire, HttpClient.wire, hs, List.append_assoc]
          have hheld' : (c.buf ++ got).length ≤ maxLen := by
            rw [List.length_append]
            omega
          obtain ⟨out, c', hloop, hq, hred, hok⟩ :=
            ih headers contentLen _ { c with sock, buf := c.buf ++ got } hloc hwire' hheld'
          refine ⟨out, c', hloop, hq.of_received, hred, fun hout => ?_⟩
          obtain ⟨h₁, h₂, h₃, h₄⟩ := hok hout
          exact ⟨h₁, h₂, h₃, h₄⟩
        · exact ⟨.done .conn, _, rfl, ⟨rfl, rfl, rfl, rfl, rfl⟩, by simp,
            fun h => absurd h (by simp)⟩
      · exact ⟨.done .prtcl, c, by rw [if_neg hroom], .refl c, by simp,
          fun h => absurd h (by simp)⟩
    | some pos =>
      cases headers with
      | nil =>
        have hline : c.wire = [] ++ crLf ++ payload := by simpa using hwire
        obtain ⟨rfl, -, hrest, hlen⟩ :=
          HttpClient.line_of_crLfPos hline (by simp) (cString_isPrefix _) hpos
        refine ⟨.done .ok, _, rfl, ⟨rfl, rfl, rfl, rfl, rfl⟩, by simp, fun _ => ⟨hrest, ?_, by simp,
          fun n _ _ h => ?_⟩⟩
        · simp only [List.length_drop]
          exact Nat.le_trans (Nat.sub_le ..) hheld
        · rcases h with h | ⟨h, hmem, -⟩
          · exact h
          · exact absurd hmem (by simp)
      | cons h hs =>
        have hline : c.wire = h.line ++ crLf ++
            (hs.flatMap (fun h => h.line ++ crLf) ++ crLf ++ payload) := by
          simpa using hwire
        obtain ⟨hp, htake, hrest, hlen⟩ :=
          HttpClient.line_of_crLfPos hline h.line_plain (cString_isPrefix _) hpos
        obtain ⟨p, rfl⟩ : ∃ p, pos = p + 1 := by
          refine Nat.exists_eq_add_one.mpr ?_
          rw [hp]
          exact List.length_pos_of_ne_nil h.line_ne_nil
        simp only [htake, h.splitHeader_line]
        obtain ⟨r, len, c₁, hparse, hq, hbuf, hsock, hred, hnok, hnone⟩ :=
          parseHeader_spec c contentLen (hloc h (by simp))
        rw [hparse]
        cases r with
        | some res =>
          exact ⟨.done res, _, rfl, hq.trans ⟨rfl, rfl, rfl, rfl, rfl⟩,
            fun heq => hred (by simpa using heq), fun heq => absurd (by simpa using heq) hnok⟩
        | none =>
          obtain ⟨hch, hkeep, hset⟩ := hnone rfl
          have hwire' : ({ c₁ with buf := c₁.buf.drop (p + 1 + 2) } : HttpClient).wire =
              hs.flatMap (fun h => h.line ++ crLf) ++ crLf ++ payload := by
            rw [HttpClient.wire, hbuf, hsock]
            exact hrest
          have hheld' : (c₁.buf.drop (p + 1 + 2)).length ≤ maxLen := by
            rw [hbuf, List.length_drop]
            exact Nat.le_trans (Nat.sub_le ..) hheld
          obtain ⟨out, c', hloop, hq', hred', hok⟩ :=
            ih hs len _ { c₁ with buf := c₁.buf.drop (p + 1 + 2) }
              (fun h' hm => hloc h' (by simp [hm])) hwire' hheld'
          refine ⟨out, c', hloop, hq.trans hq'.of_received, hred',
            fun hout => ?_⟩
          obtain ⟨h₁, h₂, h₃, h₄⟩ := hok hout
          refine ⟨h₁, h₂, by rw [h₃, hch, List.any_cons, Bool.or_assoc], fun n hn hnum hor => ?_⟩
          have htotal : c₁.totalLen n = c.totalLen n := by
            rw [HttpClient.totalLen, HttpClient.totalLen, hq.recvSize]
          have hlast := h₄ n hn (fun h' hm => hnum h' (by simp [hm]))
          simp only [HttpClient.totalLen] at hlast htotal ⊢
          rw [← htotal]
          refine hlast ?_
          by_cases hkey : h.key = ascii "Content-Length"
          · refine .inl ?_
            rw [htotal]
            exact hset n hkey (hnum h (by simp) hkey) hn
          · rcases hor with hor | ⟨h', hm, hk⟩
            · refine .inl ?_
              rw [htotal]
              exact (hkeep hkey).trans hor
            · refine .inr ⟨h', ?_, hk⟩
              rcases List.mem_cons.mp hm with rfl | hm
              · exact absurd hk hkey
              · exact hm

/-! ## Chunk sizes -/

/-- **A chunk-size line comes off**, and its number is noted. The number is below `2 ^ 32`, which is
    what there is room for. -/
theorem httpClientRecvChunkedSize_spec {maxLen n : Nat} {line rest : List UInt8}
    (hline : SizeLine line n) (hn : n < 2 ^ 32) (fuel : Nat) : ∀ c : HttpClient,
    c.wire = line ++ crLf ++ rest → c.buf.length ≤ maxLen →
    ∃ out c', httpClientRecvChunkedSize maxLen fuel c = (out, c') ∧ Quiet c c' ∧
      (out = .done .ok → c'.chunkSize = n ∧ c'.wire = rest ∧ c'.buf.length ≤ maxLen) := by
  induction fuel with
  | zero => exact fun c _ _ => ⟨.running, c, rfl, .refl c, fun h => absurd h (by simp)⟩
  | succ fuel ih =>
    intro c hwire hheld
    unfold httpClientRecvChunkedSize
    cases hpos : crLfPos c.buf.dropLast with
    | none =>
      by_cases hroom : c.buf.length < maxLen
      · simp only [if_pos hroom]
        obtain ⟨res, got, sock, hrecv, hres, hle, hs⟩ :=
          httpClientRecv_cases c (maxLen - c.buf.length)
        rw [hrecv]
        rcases hres with rfl | rfl
        · have hwire' : ({ c with sock := sock, buf := c.buf ++ got } : HttpClient).wire =
              line ++ crLf ++ rest := by
            rw [← hwire, HttpClient.wire, HttpClient.wire, hs, List.append_assoc]
          have hheld' : (c.buf ++ got).length ≤ maxLen := by
            rw [List.length_append]
            omega
          obtain ⟨out, c', hloop, hq, hok⟩ :=
            ih { c with sock, buf := c.buf ++ got } hwire' hheld'
          exact ⟨out, c', hloop, hq.of_received, hok⟩
        · exact ⟨.done .conn, _, rfl, ⟨rfl, rfl, rfl, rfl, rfl⟩, fun h => absurd h (by simp)⟩
      · exact ⟨.done .prtcl, c, by rw [if_neg hroom], .refl c, fun h => absurd h (by simp)⟩
    | some pos =>
      obtain ⟨-, htake, hrest, -⟩ := HttpClient.line_of_crLfPos hwire hline.plain
        ( List.dropLast_prefix _) hpos
      simp only [htake, hline.scanHex hn]
      refine ⟨.done .ok, _, rfl, ⟨rfl, rfl, rfl, rfl, rfl⟩, fun _ => ⟨rfl, hrest, ?_⟩⟩
      simp only [List.length_drop]
      exact Nat.le_trans (Nat.sub_le ..) hheld

end Http
end LightDuer
