import LightDuer.Http.Receive

/-!
# What a connection ends with

`http_client_connect` in passes: a request and the head of its response, then the data, another
location or an error. Where the loop ends with `HTTP_OK` a response without a location has been read
to its blank line, unless the redirections ran out: then the result is the one of the last
redirection, `HTTP_OK`, and no response is there.

## Passes

The loop of the source is one body with exits everywhere. `request` is its first half, up to the
status line, and `connectTail` what follows the header lines; `connectLoop_succ` says that a round
of the loop is the one behind the other, and no later proof unfolds the loop. `Redirects` is a round
that ends with another location, and `Redirections` a number of them.

## When success means a response

`Ready` is what a caller takes `HTTP_OK` for: the status line, all header lines and the blank line
have been read off the connection that was opened last, and so many octets of the body are in the
buffer. It describes what was read, on the stream of that connection, and not the fields of the
client. `connectLoop_ok` shows that a loop that succeeds has come to this or has run out of
redirections; the theorem is that the second is the only exception. The variable `res` still has the
result of `http_client_parse_redirect_location` then, and the test behind the loop only logs.
-/

set_option autoImplicit false

namespace LightDuer
namespace Http

open Lib

/-! ## A pass of the loop -/

/-- A request, and the status line of its response. -/
def request (c : HttpClient) : HttpResult × HttpClient :=
  let conn := c.conns.headD .refused
  match ({ c with conns := c.conns.tail } : HttpClient).malloc with
  | (false, c) => (.failed, c)
  | (true, c) =>
    match conn.parseUrl with
    | none => (.failed, c)
    | some (host, path) =>
      if conn.connect < 0 then (.conn, c)
      else
        let c := { c with sock := conn.reply (rangeStart c), sends := conn.sends, sent := [] }
        match httpClientSendRequest .get c host path with
        | (.ok, c) =>
          match httpClientSendHeaders hcChunkSize c.customHeaders c with
          | (.ok, c) => httpClientRecvRspAndParse c hcRspChunkSize
          | (res, c) => (res, c)
        | (res, c) => (res, c)

/-- What follows the header lines: the data, another location, or an error. -/
def connectTail (left revLen fuel : Nat) : Outcome × HttpClient → Outcome × Nat × HttpClient
  | (.done .ok, c) => (.done .ok, c.buf.length, c)
  | (.done .redirection, c) =>
    match httpClientParseRedirectLocation c with
    | (.ok, c) => connectLoop fuel left revLen c
    | (res, c) => (.done res, revLen, c)
  | (out, c) => (out, revLen, c)

/-- The loop, a pass at a time. -/
theorem connectLoop_succ (fuel left revLen : Nat) (c : HttpClient) :
    connectLoop fuel (left + 1) revLen c =
      match request c with
      | (.ok, c) =>
        connectTail left c.buf.length fuel (httpClientRecvHeadersAndParse fuel c hcHeaderChunkSize)
      | (res, c) => (.done res, revLen, c) := by
  simp only [connectLoop, request]
  rcases HttpClient.malloc { c with conns := c.conns.tail } with ⟨ok, c₁⟩
  cases ok with
  | false => rfl
  | true =>
    simp only
    rcases (c.conns.headD .refused).parseUrl with _ | ⟨host, path⟩
    · rfl
    simp only
    split
    · rfl
    generalize ({ c₁ with
      sock := (c.conns.headD .refused).reply (rangeStart c₁)
      sends := (c.conns.headD .refused).sends, sent := [] } : HttpClient) = c₂
    rcases httpClientSendRequest .get c₂ host path with ⟨res, c₃⟩
    cases res with
    | ok =>
      simp only
      rcases httpClientSendHeaders hcChunkSize c₃.customHeaders c₃ with ⟨res, c₄⟩
      cases res with
      | ok =>
        simp only
        rcases httpClientRecvRspAndParse c₄ hcRspChunkSize with ⟨res, c₅⟩
        cases res with
        | ok =>
          simp only
          rcases httpClientRecvHeadersAndParse fuel c₅ hcHeaderChunkSize with ⟨out, c₆⟩
          rcases out with res | _ | _
          · cases res <;> rfl
          · rfl
          · rfl
        | _ => rfl
      | _ => rfl
    | _ => rfl

/-- The response of one pass sends the client elsewhere. -/
def Redirects (fuel : Nat) (c c' : HttpClient) : Prop :=
  ∃ c₁ c₂, request c = (.ok, c₁) ∧
    httpClientRecvHeadersAndParse fuel c₁ hcHeaderChunkSize = (.done .redirection, c₂) ∧
    httpClientParseRedirectLocation c₂ = (.ok, c')

/-- So do those of a number of passes. -/
inductive Redirections (fuel : Nat) : Nat → HttpClient → HttpClient → Prop where
  | none {c : HttpClient} : Redirections fuel 0 c c
  | next {k : Nat} {c c' c'' : HttpClient} : Redirects fuel c c' → Redirections fuel k c' c'' →
      Redirections fuel (k + 1) c c''

/-! ## A response that is ready -/

/-- A header line that names no other location. -/
def HeaderLine (line : List UInt8) : Prop :=
  line ≠ [] ∧ crLfPos line = none ∧
    ∃ key value, splitHeader line = some (key, value) ∧ key ≠ ascii "Location"

/-- The header lines and the blank line. -/
def headBlock (lines : List (List UInt8)) : List UInt8 :=
  lines.flatMap (· ++ crLf) ++ crLf

/-- **A response is ready**: the last pass read its status line, all its header lines and the
    blank line off the connection it opened. Of its body `n` octets are in the buffer, and the
    rest is still to come. -/
def Ready (fuel : Nat) (c : HttpClient) (n : Nat) (c' : HttpClient) : Prop :=
  ∃ k c₀ c₁, k ≤ hcRedirectionMax ∧ Redirections fuel k c c₀ ∧ request c₀ = (.ok, c₁) ∧
    httpClientRecvHeadersAndParse fuel c₁ hcHeaderChunkSize = (.done .ok, c') ∧
    n = c'.buf.length ∧
    ∃ status lines, ((c₀.conns.headD .refused).reply (rangeStart c₀)).src.stream =
        status ++ crLf ++ headBlock lines ++ c'.buf ++ c'.sock.src.stream ∧
      crLfPos status = none ∧ scanStatus status = some c'.httpResponseCode ∧
      200 ≤ c'.httpResponseCode ∧ c'.httpResponseCode < 400 ∧ ∀ line ∈ lines, HeaderLine line

/-! ## What the pass reads -/

theorem httpClientRecv_code {c c' : HttpClient} {maxLen : Nat} {res : HttpResult}
    (hcall : httpClientRecv c maxLen = (res, c')) : c'.httpResponseCode = c.httpResponseCode := by
  obtain ⟨res', got, sock, hcases, -, -, -⟩ := httpClientRecv_cases c maxLen
  rw [hcases] at hcall
  rw [← (Prod.mk.inj hcall).2]

theorem HttpClient.malloc_code (c : HttpClient) :
    c.malloc.2.httpResponseCode = c.httpResponseCode := by
  obtain ⟨ok, rest, hm⟩ := c.malloc_cases
  rw [hm]

theorem parseHeader_code (c : HttpClient) (contentLen : Int) (key value : List UInt8) :
    (parseHeader c contentLen key value).2.2.httpResponseCode = c.httpResponseCode := by
  unfold parseHeader
  split
  · rfl
  · split
    · split
      · have h := HttpClient.malloc_code { c with isChunked := true }
        split <;> rename_i hm <;> rw [hm] at h <;> exact h
      · rfl
    · split
      · rfl
      · split
        · have h := c.malloc_code
          split <;> rename_i hm <;> rw [hm] at h <;> exact h
        · rfl

/-- A line that does not end the headers names no other location. -/
theorem parseHeader_goesOn {c : HttpClient} {contentLen : Int} {key value : List UInt8}
    (h : (parseHeader c contentLen key value).1 = none) : key ≠ ascii "Location" := by
  rintro rfl
  rw [parseHeader, if_neg (by decide), if_neg (by decide), if_neg (by decide), if_pos rfl] at h
  split at h <;> cases h

theorem parseHeader_not_ok (c : HttpClient) (contentLen : Int) (key value : List UInt8) :
    (parseHeader c contentLen key value).1 ≠ some .ok := by
  unfold parseHeader
  split
  · simp
  · split
    · split
      · split <;> simp
      · simp
    · split
      · simp
      · split
        · split <;> simp
        · simp

/-- What is taken out of the buffer is a header line. -/
theorem headerLine_taken {buf key value : List UInt8} {p : Nat}
    (hpos : crLfPos (cString buf) = some (p + 1))
    (hsplit : splitHeader (buf.take (p + 1)) = some (key, value)) (hkey : key ≠ ascii "Location") :
    HeaderLine (buf.take (p + 1)) := by
  obtain ⟨-, hplain⟩ := crLfPos_parts (cString_isPrefix buf) hpos
  have hne : buf.take (p + 1) ≠ [] := by
    intro hnil
    have hlen := crLfPos_lt hpos
    have hle := (cString_isPrefix buf).length_le
    have hzero := congrArg List.length hnil
    simp only [List.length_take, List.length_nil] at hzero
    omega
  exact ⟨hne, hplain, key, value, hsplit, hkey⟩

/-- The line and its end are what is gone from the wire. -/
theorem wire_taken {c c₁ : HttpClient} {pos : Nat} (hpos : crLfPos (cString c.buf) = some pos)
    (hbuf : c₁.buf = c.buf) (hsock : c₁.sock = c.sock) :
    c.wire = c.buf.take pos ++ crLf ++ (c₁.buf.drop (pos + 2) ++ c₁.sock.src.stream) := by
  obtain ⟨hparts, -⟩ := crLfPos_parts (cString_isPrefix c.buf) hpos
  rw [hbuf, hsock, ← List.append_assoc, ← hparts]
  rfl

/-- **The loop of the header lines** reads a whole head, or does not succeed. What was in the buffer
    and on the wire before it is the lines, each with its end, the blank line, and what is left of
    both. -/
theorem headersLoop_takes {maxLen fuel : Nat} {contentLen : Int} {behind : List UInt8}
    {c c' : HttpClient} (h : headersLoop maxLen fuel contentLen behind c = (.done .ok, c')) :
    c'.httpResponseCode = c.httpResponseCode ∧
      ∃ lines, (∀ line ∈ lines, HeaderLine line) ∧ c.wire = headBlock lines ++ c'.wire := by
  induction fuel generalizing contentLen behind c with
  | zero => simp [headersLoop] at h
  | succ fuel ih =>
    rw [headersLoop] at h
    cases hpos : crLfPos (cString c.buf) with
    | none =>
      simp only [hpos] at h
      split at h
      · rcases hcall : httpClientRecv c (maxLen - c.buf.length) with ⟨res, c₁⟩
        rw [hcall] at h
        cases res with
        | ok =>
          obtain ⟨hcode, lines, hlines, hwire⟩ := ih h
          refine ⟨hcode.trans (httpClientRecv_code hcall), lines, hlines, ?_⟩
          rw [← (httpClientRecv_wire hcall).1, hwire]
        | _ => simp at h
      · simp at h
    | some pos =>
      cases pos with
      | zero =>
        simp only [hpos] at h
        -- the blank line
        rw [← (Prod.mk.inj h).2]
        exact ⟨rfl, [], by simp, wire_taken hpos rfl rfl⟩
      | succ p =>
        simp only [hpos] at h
        cases hsplit : splitHeader (c.buf.take (p + 1)) with
        | none => simp [hsplit] at h
        | some header =>
          obtain ⟨key, value⟩ := header
          have hcode := parseHeader_code c contentLen key value
          have hreads := parseHeader_reads c contentLen key value
          have hnot := parseHeader_not_ok c contentLen key value
          have hkey : (parseHeader c contentLen key value).1 = none → key ≠ ascii "Location" :=
            parseHeader_goesOn
          simp only [hsplit] at h
          rcases hline : parseHeader c contentLen key value with ⟨res, contentLen', c₁⟩
          rw [hline] at h hcode hreads hnot hkey
          cases res with
          | some res => exact absurd (congrArg some (Outcome.done.inj (Prod.mk.inj h).1)) hnot
          | none =>
            obtain ⟨hcode', lines, hlines, hwire⟩ := ih h
            have hrest : c₁.buf.drop (p + 1 + 2) ++ c₁.sock.src.stream =
                headBlock lines ++ c'.wire := hwire
            refine ⟨hcode'.trans hcode, c.buf.take (p + 1) :: lines, ?_, ?_⟩
            · exact List.forall_mem_cons.mpr ⟨headerLine_taken hpos hsplit (hkey rfl), hlines⟩
            · have htaken : c.wire = c.buf.take (p + 1) ++ crLf ++
                  (c₁.buf.drop (p + 1 + 2) ++ c₁.sock.src.stream) :=
                wire_taken hpos hreads.2 hreads.1
              rw [htaken, hrest, headBlock, headBlock, List.flatMap_cons]
              simp only [List.append_assoc]

/-- **A status line** has been read where the next function goes on: the response begins with it,
    its number is the one that is kept, and this is not an error status. -/
theorem httpClientRecvRspAndParse_takes {c c' : HttpClient} {maxLen : Nat}
    (h : httpClientRecvRspAndParse c maxLen = (.ok, c')) :
    ∃ status, c.sock.src.stream = status ++ crLf ++ c'.wire ∧ crLfPos status = none ∧
      scanStatus status = some c'.httpResponseCode ∧ 200 ≤ c'.httpResponseCode ∧
      c'.httpResponseCode < 400 := by
  rw [httpClientRecvRspAndParse] at h
  rcases hcall : httpClientRecv { c with buf := [] } maxLen with ⟨res, c₁⟩
  obtain ⟨hwire, -⟩ := httpClientRecv_wire hcall
  rw [hcall] at h
  cases res with
  | ok =>
    cases hpos : crLfPos (cString c₁.buf) with
    | none => simp [hpos] at h
    | some pos =>
      simp only [hpos] at h
      cases hcode : scanStatus (c₁.buf.take pos) with
      | none => simp [hcode] at h
      | some code =>
        simp only [hcode] at h
        split at h
        · simp at h
        · rename_i hrange
          rw [← (Prod.mk.inj h).2]
          obtain ⟨hparts, hplain⟩ := crLfPos_parts (cString_isPrefix c₁.buf) hpos
          refine ⟨c₁.buf.take pos, ?_, hplain, hcode, by simp only; omega, by simp only; omega⟩
          calc c.sock.src.stream
              = c₁.buf ++ c₁.sock.src.stream := hwire.symm
            _ = c₁.buf.take pos ++ crLf ++ (c₁.buf.drop (pos + 2) ++ c₁.sock.src.stream) := by
                rw [← List.append_assoc, ← hparts]
  | _ => simp at h

/-- A request reads the status line off the connection it opens. -/
theorem request_takes {c c' : HttpClient} (h : request c = (.ok, c')) :
    ∃ status, ((c.conns.headD .refused).reply (rangeStart c)).src.stream =
        status ++ crLf ++ c'.wire ∧ crLfPos status = none ∧
      scanStatus status = some c'.httpResponseCode ∧ 200 ≤ c'.httpResponseCode ∧
      c'.httpResponseCode < 400 := by
  obtain ⟨ok, rest, hm⟩ := HttpClient.malloc_cases { c with conns := c.conns.tail }
  simp only [request, hm] at h
  cases ok with
  | false => simp at h
  | true =>
    simp only at h
    cases hurl : (c.conns.headD .refused).parseUrl with
    | none =>
      rw [hurl] at h
      exact absurd h (by simp)
    | some hostPath =>
      obtain ⟨host, path⟩ := hostPath
      rw [hurl] at h
      simp only at h
      split at h
      · exact absurd h (by simp)
      have hrange :
          rangeStart { c with conns := c.conns.tail, mallocs := rest } = rangeStart c := rfl
      rw [hrange] at h
      obtain ⟨res, c₁, hreq, -, hsock₁⟩ := httpClientSendRequest_spec .get { c with
        conns := c.conns.tail, mallocs := rest
        sock := (c.conns.headD .refused).reply (rangeStart c)
        sends := (c.conns.headD .refused).sends, sent := [] } host path
      rw [hreq] at h
      cases res with
      | ok =>
        obtain ⟨res, c₂, hhdr, -, hsock₂⟩ : ∃ res c₂,
            httpClientSendHeaders hcChunkSize c₁.customHeaders c₁ = (res, c₂) ∧ Quiet c₁ c₂ ∧
              c₂.sock = c₁.sock := httpClientSendHeaders_spec c₁.customHeaders c₁
        simp only [hhdr] at h
        cases res with
        | ok =>
          have hstatus := httpClientRecvRspAndParse_takes h
          rw [hsock₂, hsock₁] at hstatus
          exact hstatus
        | _ => exact absurd h (by simp)
      | _ => exact absurd h (by simp)

/-- A pass that reads a whole head leaves a response that is ready. -/
theorem ready_of_head {fuel k n : Nat} {c c₀ c₁ c' : HttpClient} (hk : k ≤ hcRedirectionMax)
    (hredirections : Redirections fuel k c c₀) (hrequest : request c₀ = (.ok, c₁))
    (hhead : httpClientRecvHeadersAndParse fuel c₁ hcHeaderChunkSize = (.done .ok, c'))
    (hn : n = c'.buf.length) : Ready fuel c n c' := by
  obtain ⟨status, hstream, hplain, hcode, hlow, hhigh⟩ := request_takes hrequest
  obtain ⟨hsame, lines, hlines, hwire⟩ := headersLoop_takes hhead
  have hsame' : c'.httpResponseCode = c₁.httpResponseCode := hsame
  have hwire' : c₁.wire = headBlock lines ++ c'.wire := hwire
  refine ⟨k, c₀, c₁, hk, hredirections, hrequest, hhead, hn, status, lines, ?_, hplain, ?_⟩
  · rw [hstream, hwire', HttpClient.wire]
    simp only [List.append_assoc]
  · rw [hsame']
    exact ⟨hcode, hlow, hhigh, hlines⟩

/-! ## The loop -/

section Loop

variable {fuel k left n : Nat} {c c' : HttpClient}

/-- **How the loop succeeds**: with a response, or with the last redirection it takes. In the first
    case the passes before are redirections, and the last one is a request with its head read; in
    the second every pass has been one, and the client is as that has left it. -/
theorem connectLoop_ok {revLen : Nat} (h : connectLoop fuel left revLen c = (.done .ok, n, c')) :
    (∃ k c₀ c₁, k < left ∧ Redirections fuel k c c₀ ∧ request c₀ = (.ok, c₁) ∧
      httpClientRecvHeadersAndParse fuel c₁ hcHeaderChunkSize = (.done .ok, c') ∧
      n = c'.buf.length) ∨
    Redirections fuel left c c' := by
  induction left generalizing revLen c with
  | zero =>
    obtain rfl : c = c' := (Prod.mk.inj (Prod.mk.inj h).2).2
    exact .inr .none
  | succ left ih =>
    rw [connectLoop_succ] at h
    rcases hrequest : request c with ⟨res, c₁⟩
    rw [hrequest] at h
    cases res with
    | ok =>
      simp only at h
      rcases hhead : httpClientRecvHeadersAndParse fuel c₁ hcHeaderChunkSize with ⟨out, c₂⟩
      rw [hhead] at h
      rcases out with res | _ | _
      · cases res with
        | ok =>
          obtain ⟨hn, rfl⟩ := Prod.mk.inj (Prod.mk.inj h).2
          exact .inl ⟨0, c, c₁, Nat.succ_pos left, .none, hrequest, hhead, hn.symm⟩
        | redirection =>
          rcases hlocation : httpClientParseRedirectLocation c₂ with ⟨res, c₃⟩
          simp only [connectTail, hlocation] at h
          cases res with
          | ok =>
            have hredirects : Redirects fuel c c₃ := ⟨c₁, c₂, hrequest, hhead, hlocation⟩
            rcases ih h with ⟨k, c₀, c₁', hk, hmore, hready⟩ | hmore
            · exact .inl ⟨k + 1, c₀, c₁', Nat.succ_lt_succ hk, .next hredirects hmore, hready⟩
            · exact .inr (.next hredirects hmore)
          | _ => exact absurd h (by simp)
        | _ => exact absurd h (by simp [connectTail])
      · exact absurd h (by simp [connectTail])
      · exact absurd h (by simp [connectTail])
    | _ => exact absurd h (by simp)

/-- As many redirections as the loop takes: it succeeds. -/
theorem connectLoop_of_redirections (h : Redirections fuel k c c') (revLen : Nat) :
    ∃ n, connectLoop fuel k revLen c = (.done .ok, n, c') := by
  induction h generalizing revLen with
  | none => exact ⟨revLen, rfl⟩
  | next hredirects _ ih =>
    obtain ⟨c₁, c₂, hrequest, hhead, hlocation⟩ := hredirects
    obtain ⟨n, hn⟩ := ih c₁.buf.length
    refine ⟨n, ?_⟩
    rw [connectLoop_succ, hrequest]
    simp only [hhead, connectTail, hlocation]
    exact hn

/-- After a redirection comes the next request and nothing else. -/
theorem Redirections.not_ready {d : HttpClient} (h : Redirections fuel left c d)
    (hlt : hcRedirectionMax < left) : ¬Ready fuel c n c' := by
  rintro ⟨k, c₀, c₁, hk, hredirections, hrequest, hhead, -⟩
  have hkl : k < left := Nat.lt_of_le_of_lt hk hlt
  clear hk hlt
  induction hredirections generalizing left with
  | none =>
    cases h with
    | none => exact absurd hkl (Nat.lt_irrefl 0)
    | next hredirects _ =>
      obtain ⟨c₁', c₂, hrequest', hhead', -⟩ := hredirects
      obtain rfl : c₁ = c₁' := (Prod.mk.inj (hrequest.symm.trans hrequest')).2
      rw [hhead] at hhead'
      cases hhead'
  | next hfirst _ ih =>
    cases h with
    | none => exact absurd hkl (Nat.not_lt_zero _)
    | next hredirects hmore =>
      obtain ⟨d₁, d₂, hrequest₁, hhead₁, hlocation₁⟩ := hfirst
      obtain ⟨e₁, e₂, hrequest₂, hhead₂, hlocation₂⟩ := hredirects
      obtain rfl : d₁ = e₁ := (Prod.mk.inj (hrequest₁.symm.trans hrequest₂)).2
      obtain rfl : d₂ = e₂ := (Prod.mk.inj (hhead₁.symm.trans hhead₂)).2
      obtain rfl := (Prod.mk.inj (hlocation₁.symm.trans hlocation₂)).2
      exact ih hmore hrequest (Nat.lt_of_succ_lt_succ hkl)

theorem httpClientConnect_of_redirections (hmalloc : c.malloc.1 = true)
    (h : Redirections fuel (hcRedirectionMax + 1) c.malloc.2 c') :
    ∃ n, httpClientConnect fuel c = (.done .ok, n, c') := by
  rcases hm : c.malloc with ⟨ok, c₁⟩
  rw [hm] at hmalloc h
  obtain rfl : ok = true := hmalloc
  obtain ⟨n, hn⟩ := connectLoop_of_redirections h 0
  refine ⟨n, ?_⟩
  rw [httpClientConnect, hm]
  exact hn

/-- **A successful connection means that a response is ready**, if and only if the servers do not
    send the client elsewhere more often than the loop allows. The count is by the passes of the
    source, and the buffer that `http_client_connect` allocates for the url has to be there for any
    pass at all. -/
theorem connect_ready_iff (fuel : Nat) (c : HttpClient) :
    (∀ n c', httpClientConnect fuel c = (.done .ok, n, c') → Ready fuel c.malloc.2 n c') ↔
      ¬(c.malloc.1 = true ∧ ∃ c', Redirections fuel (hcRedirectionMax + 1) c.malloc.2 c') := by
  constructor
  · rintro hready ⟨hmalloc, c', hredirections⟩
    obtain ⟨n, hok⟩ := httpClientConnect_of_redirections hmalloc hredirections
    exact hredirections.not_ready (Nat.lt_succ_self _) (hready n c' hok)
  · intro hnot n c' hok
    rw [httpClientConnect] at hok
    rcases hm : c.malloc with ⟨ok, c₁⟩
    rw [hm] at hok hnot
    cases ok with
    | false => exact absurd hok (by simp)
    | true =>
      rcases connectLoop_ok hok with ⟨k, c₀, c₂, hk, hredirections, hrequest, hhead, hn⟩ | hall
      · exact ready_of_head (Nat.le_of_lt_succ hk) hredirections hrequest hhead hn
      · exact absurd ⟨rfl, c', hall⟩ hnot

end Loop

/-! ## A server that redirects for ever -/

/-- A server with another location for every request. -/
def redirectingServer : Conn where
  parseUrl := some (ascii "h", ascii "/")
  connect := 0
  sends := [1, 1]
  reply _ := ⟨⟨ascii "HTTP/1.1 302 F\r\nLocation: http://h/\r\n\r\n", [.ok 100]⟩, true⟩

/-- A client after a redirection, with so many such servers before it. -/
def redirectedClient (servers : Nat) : HttpClient where
  customHeaders := []
  httpResponseCode := 302
  dataHdlrCb := true
  httpContentLen := 0
  httpContentType := []
  location := some (ascii "http://h/")
  isChunked := false
  chunkSize := 0
  recvSize := 0
  resumeRetryCount := 0
  buf := parsedLine (ascii "Location: http://h/\r\n\r\n") [0] (ascii "Location") 19
  dataPos := .first
  sock := .closed
  sends := []
  sent := ascii "G\r"
  conns := List.replicate servers redirectingServer
  mallocs := []
  stops := []
  stopped := false
  calls := []

/-- A client before its first request. -/
def newClient (servers : Nat) : HttpClient :=
  { redirectedClient servers with httpResponseCode := 0, location := none, buf := [], sent := [] }

theorem redirectedClient_redirections (servers : Nat) :
    Redirections 5 servers (redirectedClient servers) (redirectedClient 0) := by
  induction servers with
  | zero => exact .none
  | succ servers ih => with_unfolding_all exact .next ⟨_, _, rfl, rfl, rfl⟩ ih

theorem newClient_redirections (servers : Nat) :
    Redirections 5 (servers + 1) (newClient (servers + 1)) (redirectedClient 0) := by
  with_unfolding_all exact .next ⟨_, _, rfl, rfl, rfl⟩ (redirectedClient_redirections servers)

/-- Thirty-one redirections, and the client reports a response that it never got. -/
theorem connect_ok_after_redirections : ∃ n c',
    httpClientConnect 5 (newClient 31) = (.done .ok, n, c') ∧
      ¬Ready 5 (newClient 31).malloc.2 n c' := by
  have hredirections : Redirections 5 (hcRedirectionMax + 1) (newClient 31).malloc.2
    (redirectedClient 0) := newClient_redirections 30
  obtain ⟨n, hok⟩ := httpClientConnect_of_redirections rfl hredirections
  exact ⟨n, redirectedClient 0, hok, hredirections.not_ready (by decide)⟩

end Http
end LightDuer
