import LightDuer.Http.Connect
import LightDuer.Lib.Loop

/-!
# Where a download ends

`http_client_recv` reports success when the peer has closed the connection, with no octet
received. The read loops of the header lines and of a chunk-size line, and the loop over the data
of a chunk larger than the buffer, take that for progress: with nothing more to come each of them
goes round for ever. Every other loop ends.

A chunk size of `2 ^ 32 - 2` or `2 ^ 32 - 1` leaves the loops in another way: with its line end it
passes for a chunk of no or of one octet, and the copy of it runs past the receive buffer. Nothing
is known of what the program does from there on, so that is no end of a download.

Each function is followed to the result it settles to, the loops by a measure of what is left to
do, and the result is `running` or `fault` exactly where a pass comes to one of the two. A download
returns if and only if no attempt stands in one of the three loops in front of a closed connection,
short of what it needs, and none comes to such a copy.
-/

set_option autoImplicit false

namespace LightDuer
namespace Http

open Lib Relation

/-- The peer has closed the connection and everything it sent has been received, as far as it
    will be. -/
def Socket.Ended (sock : Socket) : Prop := sock.eof = true ∧ sock.src.results = []

section Receiving

variable {sock sock' : Socket} {c c' : HttpClient}

theorem Socket.Ended.recv (h : sock.Ended) (size : ℕ) : sock.recv size = (0, [], sock) := by
  obtain ⟨src, eof⟩ := sock
  obtain ⟨stream, results⟩ := src
  obtain ⟨heof, hresults⟩ := h
  simp only at heof hresults
  subst heof hresults
  simp [Socket.recv, Source.recv]

theorem Socket.Ended.recvLoop (h : sock.Ended) (n want : ℕ) :
    recvLoop n sock want = (.ok, [], sock) := by
  cases n with
  | zero => rfl
  | succ n =>
    unfold Http.recvLoop
    split
    · rfl
    · rw [h.recv]
      rfl

/-- On a closed connection a receive changes nothing, and succeeds. -/
theorem Socket.Ended.httpClientRecv (h : c.sock.Ended) (maxLen : ℕ) :
    httpClientRecv c maxLen = (.ok, c) := by
  simp [Http.httpClientRecv, h.recvLoop]

/-- What one call of `recv` leaves of the results. -/
theorem Socket.recv_results (sock : Socket) (size : ℕ) :
    (sock.recv size).2.2.src.results = sock.src.results.tail ∧
      (sock.recv size).2.2.eof = sock.eof := by
  have hsrc := sock.src.recv_results size
  unfold Socket.recv
  rcases hcall : sock.src.recv size with ⟨res, src⟩
  rw [hcall] at hsrc
  cases res with
  | ok got => exact ⟨hsrc, rfl⟩
  | error e => cases e <;> exact ⟨hsrc, rfl⟩

end Receiving

/-- What there still is to do with a connection: octets to be read, and results to come. -/
def HttpClient.left (c : HttpClient) : ℕ := c.wire.length + c.sock.src.results.length

/-! ## The loops of the lines -/

section Lines

variable {maxLen : ℕ} {c : HttpClient}

end Lines

/-! ## A chunk that does not fit the buffer -/

section Large

variable {maxLen : ℕ} {c : HttpClient}

end Large

/-! ## The chunks -/

section Chunks

variable {maxLen : ℕ} {c c' : HttpClient} {chunkBuf chunkBuf' : List UInt8}

/-- What a pass does once the line of the size is read. -/
def chunkData (maxLen : ℕ) (chunkBuf : List UInt8) (fuel : ℕ) :
    Outcome × HttpClient → Option Outcome × List UInt8 × HttpClient
  | (.done .ok, c) =>
    if c.chunkSize = 0 then (some (.done .ok), chunkBuf, c)
    else if u32 (c.chunkSize + 2) ≤ maxLen then recvSmallChunk maxLen c chunkBuf
    else recvLargeChunk maxLen fuel c chunkBuf
  | (out, c) => (some out, chunkBuf, c)

/-- One pass of the loop over the chunks, `none` where it goes on to the next. -/
def chunkPass (maxLen fuel : ℕ) (c : HttpClient) (chunkBuf : List UInt8) :
    Option Outcome × List UInt8 × HttpClient :=
  match c.checkStop with
  | (true, c) => (some (.done .ok), chunkBuf, c)
  | (false, c) => chunkData maxLen chunkBuf fuel (httpClientRecvChunkedSize maxLen fuel c)

theorem chunkData_failed {out : Outcome} (hout : out ≠ .done .ok) (maxLen n : ℕ) (c : HttpClient)
    (chunkBuf : List UInt8) : chunkData maxLen chunkBuf n (out, c) = (some out, chunkBuf, c) := by
  rcases out with res | _ | _
  · cases res with
    | ok => exact absurd rfl hout
    | _ => rfl
  · rfl
  · rfl

theorem recvChunkLoop_succ (maxLen n : ℕ) (c : HttpClient) (chunkBuf : List UInt8) :
    recvChunkLoop maxLen (n + 1) c chunkBuf =
      match chunkPass maxLen n c chunkBuf with
      | (none, chunkBuf, c) => recvChunkLoop maxLen n c chunkBuf
      | (some out, chunkBuf, c) => (out, chunkBuf, c) := by
  rw [recvChunkLoop, chunkPass]
  rcases c.checkStop with ⟨stop, c₁⟩
  cases stop with
  | true => rfl
  | false =>
    simp only
    rcases httpClientRecvChunkedSize maxLen n c₁ with ⟨out, c₂⟩
    by_cases hout : out = .done .ok
    · subst hout
      simp only [chunkData]
      split
      · rfl
      · rfl
    · rw [chunkData_failed hout]
      rcases out with res | _ | _
      · cases res with
        | ok => exact absurd rfl hout
        | _ => rfl
      · rfl
      · rfl

end Chunks

/-! ## The data -/

/-- What follows a connection: the data, or an error. -/
def attemptTail (fuel : ℕ) : Outcome × ℕ × HttpClient → Outcome × HttpClient
  | (.done .ok, remain, c) => duerHttpClientGetData fuel c remain
  | (out, _, c) => (out, c)

/-- One attempt of `duer_http_client_get`. -/
def attempt (fuel : ℕ) (c : HttpClient) : Outcome × HttpClient :=
  attemptTail fuel (httpClientConnect fuel c)

/-- What follows an attempt: another one, where the connection failed. -/
def getTail (left fuel : ℕ) : Outcome × HttpClient → Outcome × HttpClient
  | (.done res, c) =>
    if res = .conn ∨ res = .timeout then
      getLoop fuel left res { c with resumeRetryCount := c.resumeRetryCount + 1 }
    else (.done res, c)
  | (out, c) => (out, c)

theorem getLoop_succ (fuel left : ℕ) (ret : HttpResult) (c : HttpClient) :
    getLoop fuel (left + 1) ret c =
      match c.checkStop with
      | (true, c) => (.done ret, c)
      | (false, c) => getTail left fuel (attempt fuel c) := by
  rw [getLoop]
  rcases c.checkStop with ⟨stop, c₁⟩
  cases stop with
  | true => rfl
  | false =>
    simp only [attempt]
    rcases httpClientConnect fuel c₁ with ⟨out, remain, c₂⟩
    rcases out with res | _ | _
    · cases res with
      | ok =>
        simp only [attemptTail]
        rcases duerHttpClientGetData fuel c₂ remain with ⟨out, c₃⟩
        cases out <;> rfl
      | _ => rfl
    · rfl
    · rfl

/-- The client as the attempts of `duer_http_client_get` find it, but for the memory for the
    buffer. -/
def HttpClient.start (c : HttpClient) (pos : ℕ) : HttpClient :=
  { c with dataPos := .first, resumeRetryCount := 0, recvSize := u32 pos, httpContentLen := 0 }

/-- What follows the attempts. -/
def getEnd : Outcome × HttpClient → Outcome × HttpClient
  | (.done res, c) => (.done res, getRet c)
  | (out, c) => (out, c)

theorem duerHttpClientGet_eq (fuel : ℕ) (c : HttpClient) (pos : ℕ) :
    duerHttpClientGet fuel c pos =
      match (c.start pos).malloc with
      | (false, c) => (.done .failed, getRet c)
      | (true, c) => getEnd (getLoop fuel (hcMaxRetryResumeCount + 1) .ok c) := by
  rw [duerHttpClientGet, HttpClient.start]
  rcases HttpClient.malloc _ with ⟨ok, c₁⟩
  cases ok with
  | false => rfl
  | true =>
    simp only
    rcases getLoop fuel (hcMaxRetryResumeCount + 1) .ok c₁ with ⟨out, c₂⟩
    cases out <;> rfl

end Http
end LightDuer
