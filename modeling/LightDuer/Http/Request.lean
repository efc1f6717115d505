import LightDuer.Http.Receive

/-!
# Sending a request

`http_client_send_request` sends the request line with the `Host` and `Range` headers in one piece,
`http_client_send_headers` each custom header and then the empty line in a piece of its own. Every
piece is one call of `http_client_send`, which makes one call of the socket's `send` and takes any
positive count for the whole.

## Two ways to lose octets

A piece is formatted into a buffer first, and may be cut there; and what is left of it is offered to
the socket, which may take less. `requestTexts` lists the texts with the sizes of their buffers,
`formatted` is what the buffer has of a text, and `accepted` what the socket takes of a sequence of
pieces. That what is accepted is the whole request exactly if neither happens to any piece
(`accepted_eq_iff`) needs an argument on lengths: a piece that is cut cannot be made up for by a
later one, since none of them is longer than it should be.

## Where the code sees to it

The buffer of the first piece is allocated for it, with room for the longest command and for a range
start of eleven characters, so it cuts nothing below 2^32 octets (`length_requestHead`). The buffer
of the headers has a fixed size, and the length of each header is checked first, as an `int`
(`length_headerLine`): a header of 2^31 octets and more has a negative length and passes.
-/

set_option autoImplicit false

namespace LightDuer
namespace Http

open Lib

/-- The request line, the `Host` and `Range` headers, every custom header and the empty line. -/
def wholeRequest (method : HttpMeth) (c : HttpClient) (host path : List UInt8) : List UInt8 :=
  requestHead method c host path ++ c.customHeaders.flatMap headerLine ++ crLf

/-- The texts of a request, each with the size of the buffer it is formatted into. -/
def requestTexts (method : HttpMeth) (buffSize : Nat) (c : HttpClient) (host path : List UInt8) :
    List (List UInt8 × Nat) :=
  (requestHead method c host path, reqFmtLen host path) ::
    (c.customHeaders.map (headerLine ·, buffSize) ++ [(crLf, crLf.length + 1)])

/-- What `snprintf` leaves of a text: its NUL has to fit, too. -/
def formatted (text : List UInt8 × Nat) : List UInt8 := text.1.take (text.2 - 1)

/-- No text is cut by its buffer. For the head of the request and for a header whose length is one
    of an `int` the code sees to it; a longer one it takes for a short one. -/
def Uncut (texts : List (List UInt8 × Nat)) : Prop :=
  ∀ text ∈ texts, text.1.length ≤ text.2 - 1

/-- Each of the next results of `send` is the length of its piece at least. -/
def TakesAll : List Int → List (List UInt8) → Prop
  | _, [] => True
  | sends, piece :: rest =>
      piece.length ≤ (sends.headD (-1)).toNat ∧ TakesAll sends.tail rest

/-- What the socket accepts of the pieces. -/
def accepted : List Int → List (List UInt8) → List UInt8
  | _, [] => []
  | sends, piece :: rest => piece.take (sends.headD (-1)).toNat ++ accepted sends.tail rest

/-! ## The text -/

theorem wholeRequest_eq_flatten (method : HttpMeth) (buffSize : Nat) (c : HttpClient)
    (host path : List UInt8) :
    wholeRequest method c host path =
      ((requestTexts method buffSize c host path).map (·.1)).flatten := by
  simp [wholeRequest, requestTexts, List.flatMap, Function.comp_def]

/-- A number that `%d` prints has eleven characters at most. -/
theorem length_rangeStart (c : HttpClient) : (ascii (toString (rangeStart c))).length ≤ 11 := by
  obtain ⟨hlow, hhigh⟩ := int32_bounds c.recvSize
  have hlen : (ascii (toString (rangeStart c))).length = (rangeStart c).repr.length := by
    rw [Int.toString_eq_repr, ascii, List.length_map, String.length_toList]
  have hdigits : ∀ n : Nat, n < 10 ^ 10 → n.repr.length ≤ 10 := fun n hn =>
    (Nat.length_repr_le_iff (by decide)).mpr hn
  rw [hlen, rangeStart, Int.repr_eq_if]
  split
  · have := hdigits (int32 c.recvSize).toNat (by omega)
    omega
  · have := hdigits (-int32 c.recvSize).toNat (by omega)
    rw [String.length_append]
    have hsign : "-".length = 1 := rfl
    omega

/-- The buffer has room for the whole head of a request that is not near `2 ^ 32` octets long. -/
theorem length_requestHead {method : HttpMeth} {host path : List UInt8}
    (hlen : 66 + path.length + host.length < 2 ^ 32) (c : HttpClient) :
    (requestHead method c host path).length ≤ reqFmtLen host path - 1 := by
  have hcmd : (httpRequestCmd method).length ≤ 6 := by cases method <;> decide
  have hrange := length_rangeStart c
  have hspace : (ascii " ").length = 1 := by decide
  have hhost : (ascii " HTTP/1.1\r\nHost: ").length = 17 := by decide
  have hbytes : (ascii "\r\nRange: bytes=").length = 15 := by decide
  have hend : (ascii "-\r\n").length = 3 := by decide
  rw [reqFmtLen, hcRequestCmdStrLenMax, hcMaxRangeLen, u32_of_lt (by omega)]
  simp only [requestHead, List.length_append, hspace, hhost, hbytes, hend]
  omega

/-- So has that of the headers for a header of less than `2 ^ 31` octets that the check lets
    through. -/
theorem length_headerLine {buffSize : Nat} {header : List UInt8 × List UInt8}
    (hlen : 8 + header.1.length + header.2.length < 2 ^ 31)
    (hcheck : headerLen header < buffSize) : (headerLine header).length ≤ buffSize - 1 := by
  have hcolon : (ascii ": ").length = 2 := by decide
  have hend : crLf.length = 2 := rfl
  rw [headerLen, int32_of_lt hlen] at hcheck
  simp only [headerLine, List.length_append, hcolon, hend]
  omega

/-! ## What is accepted -/

theorem length_accepted_le (sends : List Int) (pieces : List (List UInt8)) :
    (accepted sends pieces).length ≤ pieces.flatten.length := by
  induction pieces generalizing sends with
  | nil => exact Nat.le_refl _
  | cons piece rest ih =>
    have hrest := ih sends.tail
    simp only [accepted, List.flatten_cons, List.length_append, List.length_take]
    omega

theorem length_formatted_le (texts : List (List UInt8 × Nat)) :
    (texts.map formatted).flatten.length ≤ (texts.map (·.1)).flatten.length := by
  induction texts with
  | nil => exact Nat.le_refl _
  | cons text rest ih =>
    simp only [List.map_cons, List.flatten_cons, List.length_append, formatted, List.length_take]
    omega

/-- Nothing makes up for a text cut by its buffer or by a short send. -/
theorem accepted_eq_iff (sends : List Int) (texts : List (List UInt8 × Nat)) :
    accepted sends (texts.map formatted) = (texts.map (·.1)).flatten ↔
      TakesAll sends (texts.map (·.1)) ∧ Uncut texts := by
  induction texts generalizing sends with
  | nil => exact iff_of_true rfl ⟨trivial, List.forall_mem_nil _⟩
  | cons text rest ih =>
    have hmore : Uncut (text :: rest) ↔ text.1.length ≤ text.2 - 1 ∧ Uncut rest :=
      List.forall_mem_cons
    rw [List.map_cons, List.map_cons, accepted, List.flatten_cons, TakesAll, hmore]
    constructor
    · intro h
      -- neither the first text nor the rest can be longer than what they are to make up
      have hlen := congrArg List.length h
      have hrest := length_accepted_le sends.tail (rest.map formatted)
      have hcut := length_formatted_le rest
      simp only [formatted, List.length_append, List.length_take] at hlen
      obtain ⟨-, htail⟩ := List.append_inj h (by
        simp only [formatted, List.length_take]
        omega)
      obtain ⟨htakes, huncut⟩ := (ih sends.tail).mp htail
      exact ⟨⟨by omega, htakes⟩, by omega, huncut⟩
    · rintro ⟨⟨hall, htakes⟩, hroom, huncut⟩
      rw [(ih sends.tail).mpr ⟨htakes, huncut⟩, formatted, List.take_of_length_le hroom,
        List.take_of_length_le (by omega)]

/-! ## The functions -/

/-- A piece that is reported as sent. -/
theorem httpClientSend_ok {c c' : HttpClient} {text : List UInt8}
    (h : httpClientSend c text = (.ok, c')) :
    c' = { c with
      sends := c.sends.tail
      sent := c.sent ++ text.take (c.sends.headD (-1)).toNat } := by
  simp only [httpClientSend] at h
  split at h
  · exact (Prod.mk.inj h).2.symm
  · split at h <;> exact absurd (Prod.mk.inj h).1 (by simp)

theorem httpClientSendHeaders_ok {buffSize : Nat} {headers : List (List UInt8 × List UInt8)}
    {c c' : HttpClient} (h : httpClientSendHeaders buffSize headers c = (.ok, c')) :
    c'.sent = c.sent ++ accepted c.sends
      ((headers.map (headerLine ·, buffSize) ++ [(crLf, crLf.length + 1)]).map formatted) := by
  induction headers generalizing c with
  | nil =>
    rw [httpClientSendHeaders] at h
    rw [httpClientSend_ok h]
    simp [accepted, formatted]
  | cons header headers ih =>
    rw [httpClientSendHeaders] at h
    split at h
    · exact absurd (Prod.mk.inj h).1 (by simp)
    · split at h
      · rename_i c₁ hsend
        rw [ih h, httpClientSend_ok hsend]
        simp only [List.map_cons, List.cons_append, accepted, formatted, List.append_assoc]
      · exact absurd (Prod.mk.inj h).1 (by simp)

theorem httpClientSendRequest_ok {method : HttpMeth} {c c' : HttpClient} {host path : List UInt8}
    (h : httpClientSendRequest method c host path = (.ok, c')) :
    c'.sends = c.sends.tail ∧ c'.customHeaders = c.customHeaders ∧
      c'.sent = c.sent ++ (formatted (requestHead method c host path, reqFmtLen host path)).take
        (c.sends.headD (-1)).toNat := by
  obtain ⟨ok, rest, hm⟩ := c.malloc_cases
  cases ok with
  | false =>
    simp only [httpClientSendRequest, hm] at h
    exact absurd (Prod.mk.inj h).1 (by simp)
  | true =>
    simp only [httpClientSendRequest, hm] at h
    split at h
    · rename_i c₁ hsend
      obtain rfl := (Prod.mk.inj h).2
      rw [httpClientSend_ok hsend]
      exact ⟨rfl, rfl, rfl⟩
    · exact absurd (Prod.mk.inj h).1 (by simp)

/-- **A request goes out whole** if and only if each `send` takes the whole of its text and no text
    is cut by the buffer it is formatted into, where both functions report success. The whole
    request is written down apart from the functions, as one text with each custom header in it;
    what the socket has accepted is compared with that. -/
theorem request_whole_iff (method : HttpMeth) (host path : List UInt8) (buffSize : Nat)
    (c c₁ c₂ : HttpClient) (hrequest : httpClientSendRequest method c host path = (.ok, c₁))
    (hheaders : httpClientSendHeaders buffSize c₁.customHeaders c₁ = (.ok, c₂)) :
    c₂.sent = c.sent ++ wholeRequest method c host path ↔
      TakesAll c.sends ((requestTexts method buffSize c host path).map (·.1)) ∧
        Uncut (requestTexts method buffSize c host path) := by
  obtain ⟨hsends, hcustom, hsent⟩ := httpClientSendRequest_ok hrequest
  have hall : c₂.sent = c.sent ++
      accepted c.sends ((requestTexts method buffSize c host path).map formatted) := by
    rw [httpClientSendHeaders_ok hheaders, hsends, hcustom, hsent, requestTexts, List.map_cons,
      accepted, List.append_assoc]
  rw [hall, wholeRequest_eq_flatten method buffSize, List.append_cancel_left_eq, accepted_eq_iff]

/-- A client with one custom header, and these results of `send` to come. -/
def sendingClient (sends : List Int) : HttpClient where
  customHeaders := [(ascii "A", ascii "b")]
  httpResponseCode := 0
  dataHdlrCb := true
  httpContentLen := 0
  httpContentType := []
  location := none
  isChunked := false
  chunkSize := 0
  recvSize := 7
  resumeRetryCount := 0
  buf := []
  dataPos := .first
  sock := ⟨⟨[], []⟩, false⟩
  sends := sends
  sent := []
  conns := []
  mallocs := []
  stops := []
  stopped := false
  calls := []

/-- The client after `http_client_send_request` for the root of a host. -/
def requested (sends : List Int) : HttpResult × HttpClient :=
  httpClientSendRequest .get (sendingClient sends) (ascii "h") (ascii "/")

/-- And after `http_client_send_headers`. -/
def requestedAll (sends : List Int) : HttpResult × HttpClient :=
  httpClientSendHeaders hcChunkSize (requested sends).2.customHeaders (requested sends).2

/-- Three sends that take all. -/
theorem request_whole_iff_taken :
    (requested [42, 6, 2]).1 = .ok ∧ (requestedAll [42, 6, 2]).1 = .ok ∧
      (requestedAll [42, 6, 2]).2.sent =
        ascii "GET / HTTP/1.1\r\nHost: h\r\nRange: bytes=7-\r\nA: b\r\n\r\n" := by
  have hrequest : (requested [42, 6, 2]).1 = .ok := by decide +kernel
  have hheaders : (requestedAll [42, 6, 2]).1 = .ok := by decide +kernel
  have hwhole := (request_whole_iff .get (ascii "h") (ascii "/") hcChunkSize
    (sendingClient [42, 6, 2]) (requested [42, 6, 2]).2 (requestedAll [42, 6, 2]).2
    (Prod.ext hrequest rfl) (Prod.ext hheaders rfl)).mpr ⟨⟨by decide +kernel, by decide +kernel,
      by decide +kernel, trivial⟩, by unfold Uncut; decide +kernel⟩
  exact ⟨hrequest, hheaders, hwhole.trans (by decide +kernel)⟩

/-- A send that takes half of the custom header: success is reported, and the rest of the header
    is missing. -/
theorem request_cut_short :
    (requested [42, 3, 2]).1 = .ok ∧ (requestedAll [42, 3, 2]).1 = .ok ∧
      (requestedAll [42, 3, 2]).2.sent =
        ascii "GET / HTTP/1.1\r\nHost: h\r\nRange: bytes=7-\r\nA: \r\n" ∧
      (requestedAll [42, 3, 2]).2.sent ≠
        wholeRequest .get (sendingClient [42, 3, 2]) (ascii "h") (ascii "/") := by
  decide +kernel

end Http
end LightDuer
