import LightDuer.Lib.Stream
import LightDuer.Lib.Text

/-!
# The HTTP client

`lightduer_http_client.c`: `duer_http_client_get` and what it calls. The receive buffer is the list
of the octets in it (`rev_len` is its length), and so is `p_chunk_buf`. The network is a list of
connections to come, the memory and the application's stop flag are lists of answers, and every call
of the data handler is recorded. The handler's return value is not used.

Loops that a peer can keep running take `fuel`; `Outcome.running` is a run that is still in one,
with what it has done so far in the client.

## What is kept of the buffer

The functions of the source share one buffer and pass its fill level along. A list of octets is
both, as long as nothing behind the fill level is looked at. There is one place where it is: the
header lines are searched with `strstr` and parsed with NULs written into them, and where a
redirection is the last one allowed, the buffer is left like that and read as a body. So
`headersLoop` carries what is in memory behind the octets of the list, and `parsedLine` is a line
with its NULs.

## Numbers

`size_t` has 32 bits here, as on the boards the client is written for, and `recv_size`, the chunk
size and the sums made of them wrap at that. Where a number is an `int` in one place and a `size_t`
in another, each place has it as its own (`rangeStart`, `httpContentLen`, `headerLen`).

## Errors

Each function returns a result and the client after it, also where it fails, since the download goes
on after `HTTP_CONN` with what is left there. The only undefined behaviour that is followed is a
copy past the end of the receive buffer, `Outcome.fault`; that everything else is in bounds is a
theorem, on the accesses written out beside each function.
-/

set_option autoImplicit false

namespace LightDuer
namespace Http

open Lib

/-! ## Data -/

/-- `e_http_result` -/
inductive HttpResult where
  | ok | processing | parse | dns | prtcl | notFound | refused | error | timeout | conn | closed
  | notSupport | redirection | failed
deriving DecidableEq, Repr

/-- How a call ends. -/
inductive Outcome where
  | done (res : HttpResult)
  /-- still in a loop -/
  | running
  /-- a copy past the end of the receive buffer -/
  | fault
deriving DecidableEq, Repr

/-- `e_data_pos` -/
inductive DataPos where
  | first | mid | last
deriving DecidableEq, Repr

/-- A call of the data handler, with `recv_size` as it is after the call. -/
structure HandlerCall where
  pos : DataPos
  block : List UInt8
  type : List UInt8
  recvSize : Nat
deriving DecidableEq

/-- A connected socket. Once no result is left the peer has closed it (`eof`), or it fails. -/
structure Socket where
  src : Source
  eof : Bool

/-- The socket after `ops.close`: every further `recv` on it fails. -/
def Socket.closed : Socket := ⟨⟨[], []⟩, false⟩

/-- One connection to come: what `http_client_parse_url` makes of its url (host and path, or a
    failure), what `connect` and the `send` calls return, and what the server sends back for a
    request with the given start of the range. -/
structure Conn where
  parseUrl : Option (List UInt8 × List UInt8)
  connect : Int
  sends : List Int
  reply : Int → Socket

/-- `http_client_c`, with its surroundings. -/
structure HttpClient where
  customHeaders : List (List UInt8 × List UInt8)
  httpResponseCode : Int
  /-- `data_hdlr_cb` is registered -/
  dataHdlrCb : Bool
  httpContentLen : Int
  httpContentType : List UInt8
  location : Option (List UInt8)
  isChunked : Bool
  chunkSize : Nat
  recvSize : Nat
  resumeRetryCount : Nat
  buf : List UInt8
  dataPos : DataPos
  /-- the connection in use -/
  sock : Socket
  /-- results of the next sends on it -/
  sends : List Int
  /-- the octets it has accepted -/
  sent : List UInt8
  /-- the connections to come -/
  conns : List Conn
  /-- results of the next allocations; they succeed where none is left -/
  mallocs : List Bool
  /-- answers of `check_stop_notify_cb`; no stop where none is left -/
  stops : List Bool
  /-- a check has found the stop flag -/
  stopped : Bool
  /-- the calls of the data handler so far -/
  calls : List HandlerCall

/-- `HC_CHUNK_SIZE` -/
def hcChunkSize : Nat := 1025
/-- `HC_RSP_CHUNK_SIZE` -/
def hcRspChunkSize : Nat := 100
/-- `HC_HEADER_CHUNK_SIZE` -/
def hcHeaderChunkSize : Nat := 512
/-- `HC_REDIRECTION_MAX` -/
def hcRedirectionMax : Nat := 30
/-- `HC_MAX_RETRY_RESUME_COUNT` -/
def hcMaxRetryResumeCount : Nat := 10
/-- `HC_REQUEST_CMD_STR_LEN_MAX` -/
def hcRequestCmdStrLenMax : Nat := 6
/-- `HC_MAX_RANGE_LEN` -/
def hcMaxRangeLen : Nat := 10
/-- `HC_CONTENT_TYPE_LEN_MAX` -/
def hcContentTypeLenMax : Nat := 32

namespace HttpClient

def malloc (c : HttpClient) : Bool × HttpClient :=
  match c.mallocs with
  | [] => (true, c)
  | ok :: rest => (ok, { c with mallocs := rest })

/-- `check_stop_notify_cb && check_stop_notify_cb()` -/
def checkStop (c : HttpClient) : Bool × HttpClient :=
  match c.stops with
  | [] => (false, c)
  | stop :: rest => (stop, { c with stops := rest, stopped := c.stopped || stop })

/-- Call the data handler with a block and add its length to `recv_size`, a 32-bit `size_t`. -/
def handle (c : HttpClient) (block : List UInt8) : HttpClient :=
  let recvSize := u32 (c.recvSize + block.length)
  { c with
    recvSize
    calls := c.calls ++ [⟨c.dataPos, block, c.httpContentType, recvSize⟩] }

end HttpClient

/-! ## Sending -/

/-- `http_client_send`: a positive result counts as success, however short. -/
def httpClientSend (c : HttpClient) (text : List UInt8) : HttpResult × HttpClient :=
  let ret := c.sends.headD (-1)
  let c := { c with sends := c.sends.tail }
  if 0 < ret then (.ok, { c with sent := c.sent ++ text.take ret.toNat })
  else if ret = 0 then (.closed, c)
  else (.conn, c)

/-- The start of the range, as `%d` prints the `size_t`. -/
def rangeStart (c : HttpClient) : Int := int32 c.recvSize

/-- `e_http_meth` -/
inductive HttpMeth where
  | get | post | put | delete | head
deriving DecidableEq, Repr

/-- `http_request_cmd` -/
def httpRequestCmd : HttpMeth → List UInt8
  | .get => ascii "GET"
  | .post => ascii "POST"
  | .put => ascii "PUT"
  | .delete => ascii "DELETE"
  | .head => ascii "HEAD"

/-- The format of `http_client_send_request`, filled in. -/
def requestHead (method : HttpMeth) (c : HttpClient) (host path : List UInt8) : List UInt8 :=
  httpRequestCmd method ++ ascii " " ++ path ++ ascii " HTTP/1.1\r\nHost: " ++ host ++
    ascii "\r\nRange: bytes=" ++ ascii (toString (rangeStart c)) ++ ascii "-\r\n"

/-- `req_fmt_len`, as the 32-bit `size_t` that `malloc` and `snprintf` get; the format has 44
    characters. -/
def reqFmtLen (host path : List UInt8) : Nat :=
  u32 (44 + hcRequestCmdStrLenMax + path.length + host.length + hcMaxRangeLen)

/-- `http_client_send_request` -/
def httpClientSendRequest (method : HttpMeth) (c : HttpClient) (host path : List UInt8) :
    HttpResult × HttpClient :=
  match c.malloc with
  | (false, c) => (.failed, c)
  | (true, c) =>
    match httpClientSend c ((requestHead method c host path).take (reqFmtLen host path - 1)) with
    | (.ok, c) => (.ok, c)
    | (_, c) => (.conn, c)

/-- The line of a custom header. -/
def headerLine (header : List UInt8 × List UInt8) : List UInt8 :=
  header.1 ++ ascii ": " ++ header.2 ++ crLf

/-- `header_len`, an `int`; the format of a header has 8 characters. -/
def headerLen (header : List UInt8 × List UInt8) : Int :=
  int32 (8 + header.1.length + header.2.length : Nat)

/-- `http_client_send_headers`: the check of the length is one of an `int`, which a header of
    `2 ^ 31` octets makes negative; `snprintf` then keeps what fits the buffer. -/
def httpClientSendHeaders (buffSize : Nat) :
    List (List UInt8 × List UInt8) → HttpClient → HttpResult × HttpClient
  | [], c => httpClientSend c crLf
  | header :: rest, c =>
      if (buffSize : Int) ≤ headerLen header then (.failed, c)
      else
        match httpClientSend c ((headerLine header).take (buffSize - 1)) with
        | (.ok, c) => httpClientSendHeaders buffSize rest c
        | (_, c) => (.conn, c)

/-! ## Receiving -/

/-- One call of `recv`: its result and the octets stored. -/
def Socket.recv (sock : Socket) (size : Nat) : Int × List UInt8 × Socket :=
  match sock.src.recv size with
  | (.ok got, src) => (got.length, got, { sock with src })
  | (.error .closed, src) => (0, [], { sock with src })
  | (.error _, src) =>
      (if sock.eof ∧ sock.src.results = [] then 0 else -1, [], { sock with src })

/-- The loop of `http_client_recv`: until `want` octets are there, the peer closes, or an
    error. Each round but the last takes an octet at least, which bounds their number. -/
def recvLoop : Nat → Socket → Nat → HttpResult × List UInt8 × Socket
  | 0, sock, _ => (.ok, [], sock)
  | n + 1, sock, want =>
      if want = 0 then (.ok, [], sock)
      else
        match sock.recv want with
        | (ret, got, sock) =>
          if 0 < ret then
            let (res, more, sock) := recvLoop n sock (want - got.length)
            (res, got ++ more, sock)
          else if ret = 0 then (.ok, [], sock)
          else (.conn, [], sock)

/-- `http_client_recv` behind what is in the buffer. -/
def httpClientRecv (c : HttpClient) (maxLen : Nat) : HttpResult × HttpClient :=
  let (res, got, sock) := recvLoop maxLen c.sock maxLen
  (res, { c with sock, buf := c.buf ++ got })

/-- `sscanf` with `"HTTP/%*d.%*d %d %*[^\r\n]"` -/
def scanStatus (line : List UInt8) : Option Int := do
  let rest ← dropLit (ascii "HTTP/") line
  let (_, rest) ← scanInt rest
  let rest ← dropLit (ascii ".") rest
  let (_, rest) ← scanInt rest
  let (code, _) ← scanInt rest
  return code

/-- `http_client_recv_rsp_and_parse` -/
def httpClientRecvRspAndParse (c : HttpClient) (maxLen : Nat) : HttpResult × HttpClient :=
  match httpClientRecv { c with buf := [] } maxLen with
  | (.ok, c) =>
    match crLfPos (cString c.buf) with
    | none => (.prtcl, c)
    | some pos =>
      match scanStatus (c.buf.take pos) with
      | none => (.prtcl, c)
      | some code =>
        let c := { c with httpResponseCode := code }
        if code < 200 ∨ 400 ≤ code then (.prtcl, c)
        else (.ok, { c with buf := c.buf.drop (pos + 2) })
  | (_, c) => (.conn, c)

/-- The key and the value of a header line: parted at the first colon, spaces skipped. -/
def splitHeader (line : List UInt8) : Option (List UInt8 × List UInt8) :=
  if 58 ∈ line then
    some (line.takeWhile (· != 58), ((line.dropWhile (· != 58)).tail).dropWhile (· == 32))
  else none

/-- What a header line does: an error ends the headers. `contentLen` is `http_content_len`. -/
def parseHeader (c : HttpClient) (contentLen : Int) (key value : List UInt8) :
    Option HttpResult × Int × HttpClient :=
  if key = ascii "Content-Length" then
    let contentLen := ((scanInt value).map (·.1)).getD contentLen
    (none, contentLen, { c with httpContentLen := int32 (contentLen + c.recvSize) })
  else if key = ascii "Transfer-Encoding" then
    if value = ascii "Chunked" ∨ value = ascii "chunked" then
      match ({ c with isChunked := true } : HttpClient).malloc with
      | (true, c) => (none, contentLen, c)
      | (false, c) => (some .failed, contentLen, c)
    else (none, contentLen, c)
  else if key = ascii "Content-Type" then
    (none, contentLen, { c with httpContentType := value.take (hcContentTypeLenMax - 1) })
  else if key = ascii "Location" then
    match c.malloc with
    | (true, c) => (some .redirection, contentLen, { c with location := some value })
    | (false, c) => (some .failed, contentLen, { c with location := none })
  else (none, contentLen, c)

/-- The receive buffer after a header line of `p` octets has been parsed: the line end and the
    colon are NULs now. `behind` is what the memory behind the octets of `buf` holds. -/
def parsedLine (buf behind key : List UInt8) (p : Nat) : List UInt8 :=
  ((buf ++ behind).set key.length 0).set p 0

/-- The loop of `http_client_recv_headers_and_parse`. The memory `behind` the octets of the
    buffer begins with their NUL; what follows it are octets that earlier lines have left there.
    A header that ends the loop leaves the buffer as it is, with the NULs in the line, and
    `HC_CHECK_ERR` closes the socket: `http_client_connect` counts on neither, but after the last
    redirection the body is looked for there. -/
def headersLoop (maxLen : Nat) :
    Nat → Int → List UInt8 → HttpClient → Outcome × HttpClient
  | 0, _, _, c => (.running, c)
  | fuel + 1, contentLen, behind, c =>
      match crLfPos (cString c.buf) with
      | none =>
          if c.buf.length < maxLen then
            match httpClientRecv c (maxLen - c.buf.length) with
            | (.ok, c') =>
                headersLoop maxLen fuel contentLen
                  (0 :: behind.drop (c'.buf.length - c.buf.length + 1)) c'
            | (res, c') => (.done res, c')
          else (.done .prtcl, c)
      | some 0 => (.done .ok, { c with buf := c.buf.drop 2 })
      | some (p + 1) =>
          match splitHeader (c.buf.take (p + 1)) with
          | none => (.done .prtcl, c)
          | some (key, value) =>
            match parseHeader c contentLen key value with
            | (some res, _, c) =>
                (.done res,
                  { c with buf := parsedLine c.buf behind key (p + 1), sock := .closed })
            | (none, contentLen, c) =>
                headersLoop maxLen fuel contentLen
                  (0 :: (parsedLine c.buf behind key (p + 1)).drop
                    (c.buf.length - (p + 1 + 2) + 1))
                  { c with buf := c.buf.drop (p + 1 + 2) }

/-- `http_client_recv_headers_and_parse`, behind the NUL that `http_client_recv_rsp_and_parse`
    leaves after the octets. -/
def httpClientRecvHeadersAndParse (fuel : Nat) (c : HttpClient) (maxLen : Nat) :
    Outcome × HttpClient :=
  headersLoop maxLen fuel 0 [0] { c with isChunked := false }

/-- `http_client_recv_chunked_size`. The line end is looked for in all but the last octet. -/
def httpClientRecvChunkedSize (maxLen : Nat) : Nat → HttpClient → Outcome × HttpClient
  | 0, c => (.running, c)
  | fuel + 1, c =>
      match crLfPos c.buf.dropLast with
      | some pos =>
          match scanHex (cString (c.buf.take pos)) with
          | none => (.done .prtcl, c)
          | some n => (.done .ok, { c with chunkSize := n, buf := c.buf.drop (pos + 2) })
      | none =>
          if c.buf.length < maxLen then
            match httpClientRecv c (maxLen - c.buf.length) with
            | (.ok, c) => httpClientRecvChunkedSize maxLen fuel c
            | (res, c) => (.done res, c)
          else (.done .prtcl, c)

/-! ## The body -/

/-- Append `data` to `p_chunk_buf`; when that fills it, hand it to the handler and go on with
    the rest of `data`. -/
def reblock (c : HttpClient) (chunkBuf data : List UInt8) : List UInt8 × HttpClient :=
  if hcChunkSize - 1 ≤ chunkBuf.length + data.length then
    let temp := hcChunkSize - 1 - chunkBuf.length
    let block := chunkBuf ++ data.take temp
    let c := if c.dataHdlrCb then c.handle block else c
    (data.drop temp, { c with dataPos := .mid })
  else (chunkBuf ++ data, c)

/-- Copy a chunk that is in the buffer, and check and drop the line end after it. `none` goes
    on to the next chunk. -/
def copySmallChunk (c : HttpClient) (chunkBuf : List UInt8) :
    Option Outcome × List UInt8 × HttpClient :=
  let size := c.chunkSize
  if c.buf.length < u32 (size + 2) then (some (.done .prtcl), chunkBuf, c)
  else if c.buf.length < size + 2 then (some .fault, chunkBuf, c)
  else
    let (chunkBuf, c) := reblock c chunkBuf (c.buf.take size)
    if (c.buf.drop size).take 2 = crLf then
      (none, chunkBuf, { c with buf := c.buf.drop (size + 2) })
    else (some (.done .prtcl), chunkBuf, c)

/-- A chunk that fits the buffer with its line end: read the rest of it and copy it. -/
def recvSmallChunk (maxLen : Nat) (c : HttpClient) (chunkBuf : List UInt8) :
    Option Outcome × List UInt8 × HttpClient :=
  if c.buf.length < u32 (c.chunkSize + 2) then
    match c.checkStop with
    | (true, c) => (some (.done .ok), chunkBuf, c)
    | (false, c) =>
      match httpClientRecv c (maxLen - c.buf.length) with
      | (.ok, c) => copySmallChunk c chunkBuf
      | (res, c) => (some (.done res), chunkBuf, c)
  else copySmallChunk c chunkBuf

/-- The loop over the data of a larger chunk. -/
def largeChunkLoop (maxLen : Nat) :
    Nat → Nat → HttpClient → List UInt8 → Option Outcome × List UInt8 × HttpClient
  | 0, _, c, chunkBuf => (some .running, chunkBuf, c)
  | fuel + 1, needToRead, c, chunkBuf =>
      if needToRead = 0 then (none, chunkBuf, c)
      else
        match c.checkStop with
        | (true, c) => (some (.done .ok), chunkBuf, c)
        | (false, c) =>
          let held := c.buf.length
          match httpClientRecv c (min needToRead (maxLen - held)) with
          | (.ok, c) =>
            let needToRead := needToRead - (c.buf.length - held)
            let (chunkBuf, c) := reblock c chunkBuf c.buf
            largeChunkLoop maxLen fuel needToRead { c with buf := [] } chunkBuf
          | (res, c) => (some (.done res), chunkBuf, c)

/-- A chunk that does not fit: its data, then its line end. -/
def recvLargeChunk (maxLen fuel : Nat) (c : HttpClient) (chunkBuf : List UInt8) :
    Option Outcome × List UInt8 × HttpClient :=
  if c.chunkSize ≤ c.buf.length then (some (.done .failed), chunkBuf, c)
  else
    match largeChunkLoop maxLen fuel (c.chunkSize - c.buf.length) c chunkBuf with
    | (none, chunkBuf, c) =>
      match httpClientRecv c 2 with
      | (.ok, c) =>
        if c.buf = crLf then (none, chunkBuf, { c with buf := [] })
        else (some (.done .prtcl), chunkBuf, c)
      | (res, c) => (some (.done res), chunkBuf, c)
    | (out, chunkBuf, c) => (out, chunkBuf, c)

/-- The loop of `http_client_recv_chunk`, up to `RET`. -/
def recvChunkLoop (maxLen : Nat) :
    Nat → HttpClient → List UInt8 → Outcome × List UInt8 × HttpClient
  | 0, c, chunkBuf => (.running, chunkBuf, c)
  | fuel + 1, c, chunkBuf =>
      match c.checkStop with
      | (true, c) => (.done .ok, chunkBuf, c)
      | (false, c) =>
        match httpClientRecvChunkedSize maxLen fuel c with
        | (.done .ok, c) =>
          if c.chunkSize = 0 then (.done .ok, chunkBuf, c)
          else
            match if u32 (c.chunkSize + 2) ≤ maxLen then recvSmallChunk maxLen c chunkBuf
              else recvLargeChunk maxLen fuel c chunkBuf with
            | (none, chunkBuf, c) => recvChunkLoop maxLen fuel c chunkBuf
            | (some out, chunkBuf, c) => (out, chunkBuf, c)
        | (out, c) => (out, chunkBuf, c)

/-- `http_client_recv_chunk`. What is left in `p_chunk_buf` is handed over where no error
    occurred, also on a stop. -/
def httpClientRecvChunk (fuel : Nat) (c : HttpClient) (maxLen : Nat) : Outcome × HttpClient :=
  if maxLen < c.buf.length then (.done .failed, c)
  else
    match recvChunkLoop maxLen fuel c [] with
    | (.done .ok, chunkBuf, c) =>
      let c := { c with dataPos := .mid }
      (.done .ok, if c.dataHdlrCb then c.handle chunkBuf else c)
    | (out, _, c) => (out, c)

/-- The loop of `http_client_recv_content_data`. -/
def contentLoop (maxLen : Nat) : Nat → Nat → HttpClient → Outcome × HttpClient
  | 0, _, c => (.running, c)
  | fuel + 1, needToRead, c =>
      if needToRead = 0 ∧ c.buf = [] then (.done .ok, c)
      else
        match c.checkStop with
        | (true, c) => (.done .ok, c)
        | (false, c) =>
          let held := c.buf.length
          match httpClientRecv c (min needToRead (maxLen - held)) with
          | (res, c) =>
            let needToRead := needToRead - (c.buf.length - held)
            if c.buf ≠ [] ∧ c.dataHdlrCb = false then (.done .failed, c)
            else
              let empty := c.buf.isEmpty
              let c := if empty then c else { c.handle c.buf with dataPos := .mid }
              if res ≠ .ok then (.done res, c)
              else if 0 < needToRead ∧ empty then (.done .failed, c)
              else contentLoop maxLen fuel needToRead { c with buf := [] }

/-- `http_client_recv_content_data` -/
def httpClientRecvContentData (fuel : Nat) (c : HttpClient) (maxLen : Nat) :
    Outcome × HttpClient :=
  let needToRead := u32OfInt (c.httpContentLen - c.recvSize)
  if maxLen < c.buf.length ∨ needToRead < c.buf.length then (.done .failed, c)
  else contentLoop maxLen fuel (needToRead - c.buf.length) c

/-- `duer_http_client_get_data`, with the number of octets of the buffer that are the body's. -/
def duerHttpClientGetData (fuel : Nat) (c : HttpClient) (remainSizeInBuf : Nat) :
    Outcome × HttpClient :=
  let c := { c with buf := c.buf.take remainSizeInBuf }
  if c.isChunked then httpClientRecvChunk fuel c (hcChunkSize - 1)
  else httpClientRecvContentData fuel c (hcChunkSize - 1)

/-! ## Connecting -/

/-- `http_client_parse_redirect_location`: only the memory for a joined path can fail. -/
def httpClientParseRedirectLocation (c : HttpClient) : HttpResult × HttpClient :=
  match c.location with
  | none => (.parse, c)
  | some location =>
    if location.head? = some 104 ∨ location.head? = some 47 then (.ok, c)
    else
      match c.malloc with
      | (true, c) => (.ok, c)
      | (false, c) => (.parse, c)

/-- A connection that cannot be made. -/
def Conn.refused : Conn := ⟨some ([], []), -1, [], fun _ => .closed⟩

/-- The loop of `http_client_connect`, with the redirections left, the count in hand and
    `rev_len`. A run out of redirections ends with the last result, which is `HTTP_OK`. -/
def connectLoop (fuel : Nat) : Nat → Nat → HttpClient → Outcome × Nat × HttpClient
  | 0, revLen, c => (.done .ok, revLen, c)
  | left + 1, revLen, c =>
      let conn := c.conns.headD .refused
      let c := { c with conns := c.conns.tail }
      match c.malloc with
      | (false, c) => (.done .failed, revLen, c)
      | (true, c) =>
        match conn.parseUrl with
        | none => (.done .failed, revLen, c)
        | some (host, path) =>
          if conn.connect < 0 then (.done .conn, revLen, c)
          else
            let c := { c with sock := conn.reply (rangeStart c), sends := conn.sends, sent := [] }
            match httpClientSendRequest .get c host path with
            | (.ok, c) =>
              match httpClientSendHeaders hcChunkSize c.customHeaders c with
              | (.ok, c) =>
                match httpClientRecvRspAndParse c hcRspChunkSize with
                | (.ok, c) =>
                  let revLen := c.buf.length
                  match httpClientRecvHeadersAndParse fuel c hcHeaderChunkSize with
                  | (.done .ok, c) => (.done .ok, c.buf.length, c)
                  | (.done .redirection, c) =>
                    match httpClientParseRedirectLocation c with
                    | (.ok, c) => connectLoop fuel left revLen c
                    | (res, c) => (.done res, revLen, c)
                  | (out, c) => (out, revLen, c)
                | (res, c) => (.done res, revLen, c)
              | (res, c) => (.done res, revLen, c)
            | (res, c) => (.done res, revLen, c)

/-- `http_client_connect`: the result and the number of octets left in the buffer. -/
def httpClientConnect (fuel : Nat) (c : HttpClient) : Outcome × Nat × HttpClient :=
  match c.malloc with
  | (false, c) => (.done .parse, 0, c)
  | (true, c) => connectLoop fuel (hcRedirectionMax + 1) 0 c

/-- The loop of `duer_http_client_get`, with the attempts left and the last result. -/
def getLoop (fuel : Nat) : Nat → HttpResult → HttpClient → Outcome × HttpClient
  | 0, ret, c => (.done ret, c)
  | left + 1, ret, c =>
      match c.checkStop with
      | (true, c) => (.done ret, c)
      | (false, c) =>
        match httpClientConnect fuel c with
        | (.done .ok, remain, c) =>
          match duerHttpClientGetData fuel c remain with
          | (.done res, c) =>
            if res = .conn ∨ res = .timeout then
              getLoop fuel left res { c with resumeRetryCount := c.resumeRetryCount + 1 }
            else (.done res, c)
          | (out, c) => (out, c)
        | (.done res, _, c) =>
          if res = .conn ∨ res = .timeout then
            getLoop fuel left res { c with resumeRetryCount := c.resumeRetryCount + 1 }
          else (.done res, c)
        | (out, _, c) => (out, c)

/-- `RET` of `duer_http_client_get`: the closing call of the handler. -/
def getRet (c : HttpClient) : HttpClient :=
  let c := if c.dataPos ≠ .first ∧ c.dataHdlrCb then { c with dataPos := .last }.handle [] else c
  { c with buf := [] }

/-- `duer_http_client_get` -/
def duerHttpClientGet (fuel : Nat) (c : HttpClient) (pos : Nat) : Outcome × HttpClient :=
  let c := { c with
    dataPos := .first, resumeRetryCount := 0, recvSize := u32 pos, httpContentLen := 0 }
  match c.malloc with
  | (false, c) => (.done .failed, getRet c)
  | (true, c) =>
    match getLoop fuel (hcMaxRetryResumeCount + 1) .ok c with
    | (.done res, c) => (.done res, getRet c)
    | (out, c) => (out, c)

end Http
end LightDuer
