import LightDuer.Http.Connect

/-!
# The buffers of the chunk decoder

`buf` and `p_chunk_buf` have 1025 octets each. Beside each receiving function stands the list of
what it does with them, in its order: the octets it reads and writes, by index, and the sums and
differences of lengths it takes, which are 32 bits wide. Three sums have a number from the server in
them, and where those do not wrap nothing goes wrong: an invariant on the fill levels bounds every
index. A chunk size of `2^32 - 2` or `2^32 - 1` passes for a small one.

## Accesses

A model in which a buffer is a list of octets cannot leave it, so the accesses are written down:
`recvAccesses`, `headersAccesses` and so on have the shape of the functions of `Http.Client`, branch
for branch, and go on with the state that these leave. Each entry is checked on its own
(`Access.Safe`). Sums in which a number of the server stands have constructors of their own, so that
the condition can speak of the numbers and not of what became of them.

## Bounded, and the invariant

`Bounded accesses` says that everything is safe as long as the numbers fit. It holds of a list that
is appended to another if it holds of both, which lets each function be treated alone. From function
to function goes what is known of the fill levels: `buf` has no more than the size that was asked
for, `p_chunk_buf` less than its own. A chunk that is copied fills the second up, is handed over,
and leaves less than was copied (`reblockAccesses_bounded`); the wrap is what would make it leave
more.
-/

set_option autoImplicit false

namespace LightDuer
namespace Http

open Lib

/-! ## Accesses -/

inductive Access where
  /-- octets of `buf`, from an index on -/
  | buf (first count : Nat)
  /-- octets of `p_chunk_buf`, from an index on -/
  | chunkBuf (first count : Nat)
  | sub (a b : Nat)
  | add (a b : Nat)
  /-- `sz_chunk_size + HC_CR_LF_LEN` -/
  | withLineEnd (chunkSize : Nat)
  /-- `recv_size += chunk_buff_len` -/
  | advance (recvSize chunkBuffLen : Nat)
  /-- `http_content_len + recv_size` -/
  | total (contentLen recvSize : Nat)
deriving DecidableEq, Repr

/-- Inside the buffer, not below zero, less than `2^32`. -/
def Access.Safe : Access → Prop
  | .buf first count => first + count ≤ hcChunkSize
  | .chunkBuf first count => first + count ≤ hcChunkSize
  | .sub a b => b ≤ a
  | .add a b => a + b < 2 ^ 32
  | .withLineEnd chunkSize => chunkSize + 2 < 2 ^ 32
  | .advance recvSize chunkBuffLen => recvSize + chunkBuffLen < 2 ^ 32
  | .total contentLen recvSize => contentLen + recvSize < 2 ^ 32

instance : DecidablePred Access.Safe := fun a => by
  cases a <;> unfold Access.Safe <;> infer_instance

/-- `http_client_recv` of at most `want` octets behind the `first` ones of `buf`; `held` are there
    already. -/
def recvAccesses (first : Nat) : Nat → Socket → Nat → Nat → List Access
  | 0, _, _, held => [.buf (first + held) 1]
  | n + 1, sock, want, held =>
      if want = 0 then [.buf (first + held) 1]
      else
        .sub (held + want) held :: .buf (first + held) want ::
          match sock.recv want with
          | (ret, got, sock) =>
            if 0 < ret then
              .add held got.length ::
                recvAccesses first n sock (want - got.length) (held + got.length)
            else [.buf (first + held) 1]

/-- A read behind what is in the buffer, the new length and the NUL there. -/
def fillAccesses (c : HttpClient) (want : Nat) : List Access :=
  recvAccesses c.buf.length want c.sock want 0 ++
    [.add c.buf.length ((httpClientRecv c want).2.buf.length - c.buf.length),
      .buf (httpClientRecv c want).2.buf.length 1]

/-- `memmove` of what is behind the first `n` octets, with the NUL, to the front. -/
def dropAccesses (c : HttpClient) (n : Nat) : List Access :=
  [.sub c.buf.length n, .buf n (c.buf.length - n + 1), .buf 0 (c.buf.length - n + 1)]

/-- A header line that ends at `pos`. -/
def headerAccesses (maxLen pos : Nat) (c : HttpClient) (contentLen : Int)
    (key value : List UInt8) : List Access :=
  if key = ascii "Content-Length" then
    [.total (u32OfInt (((scanInt value).map (·.1)).getD contentLen)) c.recvSize]
  else if key = ascii "Transfer-Encoding" then
    -- `max_len - (value - buf)`
    [.sub maxLen (pos - value.length)]
  else if key = ascii "Location" then [.add value.length 1]
  else []

/-- `http_client_recv_headers_and_parse` -/
def headersAccesses (maxLen : Nat) : Nat → Int → HttpClient → List Access
  | 0, _, _ => []
  | fuel + 1, contentLen, c =>
      .buf 0 ((cString c.buf).length + 1) ::
        match crLfPos (cString c.buf) with
        | none =>
            if c.buf.length < maxLen then
              .sub maxLen c.buf.length :: fillAccesses c (maxLen - c.buf.length) ++
                match httpClientRecv c (maxLen - c.buf.length) with
                | (.ok, c) => headersAccesses maxLen fuel contentLen c
                | _ => []
            else []
        | some 0 => dropAccesses c 2
        | some (p + 1) =>
            .buf (p + 1) 1 :: .buf 0 (p + 2) ::
              match splitHeader (c.buf.take (p + 1)) with
              | none => []
              | some (key, value) =>
                headerAccesses maxLen (p + 1) c contentLen key value ++
                  match parseHeader c contentLen key value with
                  | (some _, _, _) => []
                  | (none, contentLen, c) =>
                    .add (p + 1) 2 :: dropAccesses c (p + 1 + 2) ++
                      headersAccesses maxLen fuel contentLen
                        { c with buf := c.buf.drop (p + 1 + 2) }

/-- `http_client_recv_chunked_size` -/
def chunkedSizeAccesses (maxLen : Nat) : Nat → HttpClient → List Access
  | 0, _ => []
  | fuel + 1, c =>
      (if 2 ≤ c.buf.length then [.sub c.buf.length 2, .buf 0 (c.buf.length - 1)] else []) ++
        match crLfPos c.buf.dropLast with
        | some pos =>
            .buf pos 1 :: .buf 0 (pos + 1) ::
              match scanHex (cString (c.buf.take pos)) with
              | none => []
              | some _ => .add pos 2 :: dropAccesses c (pos + 2)
        | none =>
            if c.buf.length < maxLen then
              .sub maxLen c.buf.length :: fillAccesses c (maxLen - c.buf.length) ++
                match httpClientRecv c (maxLen - c.buf.length) with
                | (.ok, c) => chunkedSizeAccesses maxLen fuel c
                | _ => []
            else []

/-- Append the first `size` octets of `buf` to the `held` ones of `p_chunk_buf`, and hand it to
    the handler when that fills it. -/
def reblockAccesses (c : HttpClient) (held size : Nat) : List Access :=
  if hcChunkSize - 1 ≤ u32 (held + size) then
    let temp := hcChunkSize - 1 - held
    [.add held size, .sub (hcChunkSize - 1) held, .chunkBuf held temp, .buf 0 temp,
      .chunkBuf (hcChunkSize - 1) 1, .add held temp] ++
      (if c.dataHdlrCb then [.chunkBuf 0 (held + temp), .advance c.recvSize (held + temp)]
        else []) ++
      [.sub size temp, .buf temp (size - temp), .chunkBuf 0 (size - temp)]
  else [.add held size, .chunkBuf held size, .buf 0 size]

def copySmallChunkAccesses (c : HttpClient) (held : Nat) : List Access :=
  if c.buf.length < u32 (c.chunkSize + 2) then []
  else
    reblockAccesses c held c.chunkSize ++ .buf c.chunkSize 2 ::
      if (c.buf.drop c.chunkSize).take 2 = crLf then dropAccesses c (c.chunkSize + 2) else []

def recvSmallChunkAccesses (maxLen : Nat) (c : HttpClient) (held : Nat) : List Access :=
  if c.buf.length < u32 (c.chunkSize + 2) then
    match c.checkStop with
    | (true, _) => []
    | (false, c) =>
      .sub maxLen c.buf.length :: fillAccesses c (maxLen - c.buf.length) ++
        match httpClientRecv c (maxLen - c.buf.length) with
        | (.ok, c) => copySmallChunkAccesses c held
        | _ => []
  else copySmallChunkAccesses c held

def largeChunkAccesses (maxLen : Nat) : Nat → Nat → HttpClient → List UInt8 → List Access
  | 0, _, _, _ => []
  | fuel + 1, needToRead, c, chunkBuf =>
      if needToRead = 0 then []
      else
        match c.checkStop with
        | (true, _) => []
        | (false, c) =>
          let want := min needToRead (maxLen - c.buf.length)
          .sub maxLen c.buf.length :: fillAccesses c want ++
            .sub needToRead ((httpClientRecv c want).2.buf.length - c.buf.length) ::
            match httpClientRecv c want with
            | (.ok, c') =>
              reblockAccesses c' chunkBuf.length c'.buf.length ++
                match reblock c' chunkBuf c'.buf with
                | (chunkBuf, c'') =>
                  largeChunkAccesses maxLen fuel (needToRead - (c'.buf.length - c.buf.length))
                    { c'' with buf := [] } chunkBuf
            | _ => []

def recvLargeChunkAccesses (maxLen fuel : Nat) (c : HttpClient) (chunkBuf : List UInt8) :
    List Access :=
  if c.chunkSize ≤ c.buf.length then []
  else
    .sub c.chunkSize c.buf.length ::
      largeChunkAccesses maxLen fuel (c.chunkSize - c.buf.length) c chunkBuf ++
      match largeChunkLoop maxLen fuel (c.chunkSize - c.buf.length) c chunkBuf with
      | (none, _, c) =>
        recvAccesses 0 2 c.sock 2 0 ++ [.buf (httpClientRecv c 2).2.buf.length 1, .buf 0 2]
      | _ => []

/-- The loop of `http_client_recv_chunk` -/
def chunkLoopAccesses (maxLen : Nat) : Nat → HttpClient → List UInt8 → List Access
  | 0, _, _ => []
  | fuel + 1, c, chunkBuf =>
      match c.checkStop with
      | (true, _) => []
      | (false, c) =>
        chunkedSizeAccesses maxLen fuel c ++
          match httpClientRecvChunkedSize maxLen fuel c with
          | (.done .ok, c) =>
            if c.chunkSize = 0 then
              -- the NUL for the log
              if chunkBuf = [] then [] else [.chunkBuf chunkBuf.length 1]
            else
              .withLineEnd c.chunkSize ::
                (if u32 (c.chunkSize + 2) ≤ maxLen then
                  recvSmallChunkAccesses maxLen c chunkBuf.length
                else recvLargeChunkAccesses maxLen fuel c chunkBuf) ++
                match if u32 (c.chunkSize + 2) ≤ maxLen then recvSmallChunk maxLen c chunkBuf
                  else recvLargeChunk maxLen fuel c chunkBuf with
                | (none, chunkBuf, c) => chunkLoopAccesses maxLen fuel c chunkBuf
                | _ => []
          | _ => []

/-- What the loop hands over at its end. -/
def retAccesses : Outcome × List UInt8 × HttpClient → List Access
  | (.done .ok, chunkBuf, c) =>
    if c.dataHdlrCb then [.chunkBuf 0 chunkBuf.length, .advance c.recvSize chunkBuf.length] else []
  | _ => []

/-- `http_client_recv_chunk` -/
def recvChunkAccesses (fuel : Nat) (c : HttpClient) (maxLen : Nat) : List Access :=
  if maxLen < c.buf.length then []
  else
    chunkLoopAccesses maxLen fuel c [] ++ retAccesses (recvChunkLoop maxLen fuel c [])

/-- The head of a response whose status line has been read, and its body where it is chunked. -/
def responseAccesses (fuel : Nat) (c : HttpClient) : List Access :=
  match httpClientRecvRspAndParse c hcRspChunkSize with
  | (.ok, c) =>
    headersAccesses hcHeaderChunkSize fuel 0 { c with isChunked := false } ++
      match httpClientRecvHeadersAndParse fuel c hcHeaderChunkSize with
      | (.done .ok, c) => if c.isChunked then recvChunkAccesses fuel c (hcChunkSize - 1) else []
      | _ => []
  | _ => []

/-! ## Numbers from the server -/

/-- The numbers from the server fit: no chunk size with its line end, no octets handed over and
    no content length takes its sum to `2^32`. -/
structure NumbersFit (accesses : List Access) : Prop where
  sizes : ∀ chunkSize, .withLineEnd chunkSize ∈ accesses → chunkSize < 2 ^ 32 - 2
  totals : ∀ recvSize n, .advance recvSize n ∈ accesses → recvSize + n < 2 ^ 32
  lengths : ∀ contentLen recvSize, .total contentLen recvSize ∈ accesses →
    contentLen + recvSize < 2 ^ 32

/-- What is safe as long as the numbers from the server fit. -/
def Bounded (accesses : List Access) : Prop :=
  NumbersFit accesses → ∀ a ∈ accesses, a.Safe

theorem NumbersFit.mono {s t : List Access} (h : NumbersFit t) (hst : ∀ a ∈ s, a ∈ t) :
    NumbersFit s :=
  ⟨fun n hn => h.sizes n (hst _ hn), fun r n hn => h.totals r n (hst _ hn),
    fun l r hl => h.lengths l r (hst _ hl)⟩

theorem Bounded.nil : Bounded [] := fun _ => by simp

theorem Bounded.of_safe {t : List Access} (h : ∀ a ∈ t, a.Safe) : Bounded t := fun _ => h

theorem Bounded.append {s t : List Access} (hs : Bounded s) (ht : Bounded t) :
    Bounded (s ++ t) := by
  intro hfit a ha
  rcases List.mem_append.mp ha with ha | ha
  · exact hs (hfit.mono fun b hb => List.mem_append_left t hb) a ha
  · exact ht (hfit.mono fun b hb => List.mem_append_right s hb) a ha

theorem Bounded.cons {a : Access} {t : List Access} (ha : a.Safe) (ht : Bounded t) :
    Bounded (a :: t) := by
  have hfirst : Bounded [a] := .of_safe (by simpa using ha)
  exact hfirst.append ht

/-- A number from the server that fits bounds what comes after it. -/
theorem Bounded.number {a : Access} {t : List Access} (ha : NumbersFit [a] → a.Safe)
    (ht : a.Safe → Bounded t) : Bounded (a :: t) := by
  intro hfit b hb
  have hsafe : a.Safe := ha (hfit.mono (by simp))
  rcases List.mem_cons.mp hb with rfl | hb
  · exact hsafe
  · exact ht hsafe (hfit.mono fun d hd => List.mem_cons_of_mem a hd) b hb

/-- The other way round the numbers are among what has to be safe. -/
theorem numbersFit_of_safe {t : List Access} (h : ∀ a ∈ t, a.Safe) : NumbersFit t where
  sizes n hn := by
    have hsafe := h _ hn
    simp only [Access.Safe] at hsafe
    omega
  totals r n hn := h _ hn
  lengths l r hl := h _ hl

/-! ## Receiving -/

section Receiving

variable {maxLen : Nat} {c c' : HttpClient}

theorem recvAccesses_safe {first n : Nat} {sock : Socket} {want held : Nat}
    (hfirst : first + held + want < hcChunkSize) :
    ∀ a ∈ recvAccesses first n sock want held, a.Safe := by
  have hsize : hcChunkSize = 1025 := rfl
  have hnul : ∀ a ∈ [Access.buf (first + held) 1], a.Safe := by
    simp only [List.mem_singleton, forall_eq, Access.Safe]
    omega
  induction n generalizing sock want held with
  | zero => exact hnul
  | succ n ih =>
    rw [recvAccesses]
    split
    · exact hnul
    · obtain ⟨ret, got, sock₁, hrecv, hle, -⟩ := sock.recv_cases want
      rw [hrecv]
      simp only [List.forall_mem_cons]
      refine ⟨by simp only [Access.Safe]; omega, by simp only [Access.Safe]; omega, ?_⟩
      split
      · simp only [List.forall_mem_cons]
        refine ⟨by simp only [Access.Safe]; omega, ih (by omega) ?_⟩
        simp only [List.mem_singleton, forall_eq, Access.Safe]
        omega
      · exact hnul

theorem httpClientRecv_length {want : Nat} {res : HttpResult}
    (hcall : httpClientRecv c want = (res, c')) :
    c.buf.length ≤ c'.buf.length ∧ c'.buf.length ≤ c.buf.length + want := by
  obtain ⟨res', got, sock, hcases, -, hgot, -⟩ := httpClientRecv_cases c want
  rw [hcases] at hcall
  rw [← (Prod.mk.inj hcall).2]
  simp only [List.length_append]
  omega

theorem httpClientRecv_chunkSize {want : Nat} {res : HttpResult}
    (hcall : httpClientRecv c want = (res, c')) : c'.chunkSize = c.chunkSize := by
  obtain ⟨res', got, sock, hcases, -, -, -⟩ := httpClientRecv_cases c want
  rw [hcases] at hcall
  rw [← (Prod.mk.inj hcall).2]

theorem fillAccesses_safe {want : Nat} (hlen : c.buf.length + want < hcChunkSize) :
    ∀ a ∈ fillAccesses c want, a.Safe := by
  have hsize : hcChunkSize = 1025 := rfl
  obtain ⟨hge, hle⟩ := httpClientRecv_length (Prod.eta (httpClientRecv c want)).symm
  intro a ha
  rcases List.mem_append.mp ha with ha | ha
  · exact recvAccesses_safe (by omega) a ha
  · simp only [List.mem_cons, List.not_mem_nil, or_false] at ha
    rcases ha with rfl | rfl
    · simp only [Access.Safe]
      omega
    · simp only [Access.Safe]
      omega

theorem dropAccesses_safe {n : Nat} (hn : n ≤ c.buf.length) (hlen : c.buf.length < hcChunkSize) :
    ∀ a ∈ dropAccesses c n, a.Safe := by
  simp only [dropAccesses, List.forall_mem_cons, Access.Safe, List.not_mem_nil, false_imp_iff,
    implies_true, and_true]
  omega

theorem httpClientRecvRspAndParse_length (c : HttpClient) (maxLen : Nat) :
    (httpClientRecvRspAndParse c maxLen).2.buf.length ≤ maxLen := by
  rw [httpClientRecvRspAndParse]
  rcases hcall : httpClientRecv { c with buf := [] } maxLen with ⟨res, c₁⟩
  have hle : c₁.buf.length ≤ 0 + maxLen := (httpClientRecv_length hcall).2
  rw [Nat.zero_add] at hle
  cases res with
  | ok =>
    simp only
    split
    · exact hle
    · split
      · exact hle
      · split
        · exact hle
        · simp only [List.length_drop]
          omega
  | _ => exact hle

/-! ## Header lines and chunk sizes -/

theorem headerAccesses_bounded {pos : Nat} {contentLen : Int} {key value : List UInt8}
    (hpos : pos ≤ maxLen) (hvalue : value.length < 2 ^ 31) :
    Bounded (headerAccesses maxLen pos c contentLen key value) := by
  rw [headerAccesses]
  split
  · exact .number (fun hfit => hfit.lengths _ _ List.mem_cons_self) fun _ => .nil
  · split
    · exact .cons (by simp only [Access.Safe]; omega) .nil
    · split
      · exact .cons (by simp only [Access.Safe]; omega) .nil
      · exact .nil

theorem splitHeader_length {line key value : List UInt8}
    (h : splitHeader line = some (key, value)) : value.length ≤ line.length := by
  rw [splitHeader] at h
  split at h
  · obtain ⟨-, rfl⟩ := Prod.mk.inj (Option.some.inj h)
    calc (List.dropWhile (· == 32) ((line.dropWhile (· != 58)).tail)).length
        ≤ ((line.dropWhile (· != 58)).tail).length := (List.dropWhile_suffix _).length_le
      _ ≤ (line.dropWhile (· != 58)).length := (List.tail_suffix _).length_le
      _ ≤ line.length := (List.dropWhile_suffix _).length_le
  · cases h

theorem headersAccesses_bounded {fuel : Nat} {contentLen : Int} (hmax : maxLen < hcChunkSize)
    (hlen : c.buf.length ≤ maxLen) : Bounded (headersAccesses maxLen fuel contentLen c) := by
  have hsize : hcChunkSize = 1025 := rfl
  induction fuel generalizing contentLen c with
  | zero => exact .nil
  | succ fuel ih =>
    have hstring : (cString c.buf).length ≤ c.buf.length := (cString_isPrefix c.buf).length_le
    rw [headersAccesses]
    refine .cons (by simp only [Access.Safe]; omega) ?_
    rcases hpos : crLfPos (cString c.buf) with _ | _ | p
    · simp only
      split
      · refine .append (.cons (by simp only [Access.Safe]; omega)
          (.of_safe (fillAccesses_safe (by omega)))) ?_
        rcases hcall : httpClientRecv c (maxLen - c.buf.length) with ⟨res, c₁⟩
        have hle := (httpClientRecv_length hcall).2
        cases res with
        | ok => exact ih (by omega)
        | _ => exact .nil
      · exact .nil
    · have hlt := crLfPos_lt hpos
      exact .of_safe (dropAccesses_safe (by omega) (by omega))
    · have hlt := crLfPos_lt hpos
      simp only
      refine .cons (by simp only [Access.Safe]; omega) ?_
      refine .cons (by simp only [Access.Safe]; omega) ?_
      cases hsplit : splitHeader (c.buf.take (p + 1)) with
      | none => exact .nil
      | some header =>
        obtain ⟨key, value⟩ := header
        have hvalue := splitHeader_length hsplit
        rw [List.length_take] at hvalue
        refine .append (headerAccesses_bounded (by omega) (by omega)) ?_
        have hreads := (parseHeader_reads c contentLen key value).2
        rcases hline : parseHeader c contentLen key value with ⟨res, contentLen', c₁⟩
        rw [hline] at hreads
        cases res with
        | some res => exact .nil
        | none =>
          have hlen₁ : c₁.buf.length = c.buf.length := congrArg List.length hreads
          simp only
          refine .append (.cons (by simp only [Access.Safe]; omega)
            (.of_safe (dropAccesses_safe (by omega) (by omega)))) (ih ?_)
          simp only [List.length_drop]
          omega

theorem chunkedSizeAccesses_bounded {fuel : Nat} (hmax : maxLen < hcChunkSize)
    (hlen : c.buf.length ≤ maxLen) : Bounded (chunkedSizeAccesses maxLen fuel c) := by
  have hsize : hcChunkSize = 1025 := rfl
  induction fuel generalizing c with
  | zero => exact .nil
  | succ fuel ih =>
    rw [chunkedSizeAccesses]
    refine .append ?_ ?_
    · split
      · refine .cons (by simp only [Access.Safe]; omega) ?_
        exact .cons (by simp only [Access.Safe]; omega) .nil
      · exact .nil
    · cases hpos : crLfPos c.buf.dropLast with
      | none =>
        simp only
        split
        · refine .append (.cons (by simp only [Access.Safe]; omega)
            (.of_safe (fillAccesses_safe (by omega)))) ?_
          rcases hcall : httpClientRecv c (maxLen - c.buf.length) with ⟨res, c₁⟩
          have hle := (httpClientRecv_length hcall).2
          cases res with
          | ok => exact ih (by omega)
          | _ => exact .nil
        · exact .nil
      | some pos =>
        have hlt := crLfPos_lt hpos
        rw [List.length_dropLast] at hlt
        simp only
        refine .cons (by simp only [Access.Safe]; omega) ?_
        refine .cons (by simp only [Access.Safe]; omega) ?_
        cases scanHex (cString (c.buf.take pos)) with
        | none => exact .nil
        | some n =>
          exact .cons (by simp only [Access.Safe]; omega)
            (.of_safe (dropAccesses_safe (by omega) (by omega)))

/-- A chunk size is read with what is in the buffer inside it. -/
theorem httpClientRecvChunkedSize_length {fuel : Nat} {out : Outcome}
    (hlen : c.buf.length ≤ maxLen) (h : httpClientRecvChunkedSize maxLen fuel c = (out, c')) :
    c'.buf.length ≤ maxLen := by
  induction fuel generalizing c with
  | zero =>
    rw [← (Prod.mk.inj h).2]
    exact hlen
  | succ fuel ih =>
    rw [httpClientRecvChunkedSize] at h
    split at h
    · split at h
      · rw [← (Prod.mk.inj h).2]
        exact hlen
      · rw [← (Prod.mk.inj h).2]
        simp only [List.length_drop]
        omega
    · split at h
      · rcases hcall : httpClientRecv c (maxLen - c.buf.length) with ⟨res, c₁⟩
        have hle := (httpClientRecv_length hcall).2
        rw [hcall] at h
        cases res with
        | ok => exact ih (by omega) h
        | _ =>
          rw [← (Prod.mk.inj h).2]
          omega
      · rw [← (Prod.mk.inj h).2]
        exact hlen

/-! ## The body -/

variable {chunkBuf chunkBuf' : List UInt8}

/-- **The second buffer**: what does not fit any more is less than what it holds. So what stays in
    it after a full block leaves room again, and one block is handed over at most. -/
theorem reblockAccesses_bounded {held size : Nat} (hheld : held < hcChunkSize - 1)
    (hle : size < hcChunkSize) : Bounded (reblockAccesses c held size) := by
  have hsize : hcChunkSize = 1025 := rfl
  have hsum : u32 (held + size) = held + size := u32_of_lt (by omega)
  rw [reblockAccesses, hsum]
  split
  · refine .append (.append (.of_safe ?_) ?_) (.of_safe ?_)
    · simp only [List.forall_mem_cons, Access.Safe, List.not_mem_nil, false_imp_iff, implies_true,
        and_true]
      omega
    · split
      · refine .cons (by simp only [Access.Safe]; omega) (.number (fun hfit => ?_) fun _ => .nil)
        exact hfit.totals _ _ List.mem_cons_self
      · exact .nil
    · simp only [List.forall_mem_cons, Access.Safe, List.not_mem_nil, false_imp_iff, implies_true,
        and_true]
      omega
  · refine .of_safe ?_
    simp only [List.forall_mem_cons, Access.Safe, List.not_mem_nil, false_imp_iff, implies_true,
      and_true]
    omega

theorem reblock_held {data : List UInt8} (hheld : chunkBuf.length < hcChunkSize - 1)
    (hle : data.length < hcChunkSize) :
    (reblock c chunkBuf data).1.length < hcChunkSize - 1 := by
  have hsize : hcChunkSize = 1025 := rfl
  rw [reblock]
  split
  · simp only [List.length_drop]
    omega
  · simp only [List.length_append]
    omega

theorem copySmallChunkAccesses_bounded {held : Nat} (hheld : held < hcChunkSize - 1)
    (hlen : c.buf.length < hcChunkSize) (hfits : c.chunkSize + 2 < 2 ^ 32) :
    Bounded (copySmallChunkAccesses c held) := by
  rw [copySmallChunkAccesses, u32_of_lt hfits]
  split
  · exact .nil
  · refine .append (reblockAccesses_bounded hheld (by omega))
      (.cons (by simp only [Access.Safe]; omega) ?_)
    split
    · exact .of_safe (dropAccesses_safe (by omega) hlen)
    · exact .nil

/-- The fill levels after a chunk: that of `p_chunk_buf`, and where another chunk follows that of
    `buf`. -/
def Held (maxLen : Nat) (r : Option Outcome × List UInt8 × HttpClient) : Prop :=
  r.2.1.length < hcChunkSize - 1 ∧ (r.1 = none → r.2.2.buf.length ≤ maxLen)

theorem copySmallChunk_held (hmax : maxLen < hcChunkSize) (hlen : c.buf.length ≤ maxLen)
    (hheld : chunkBuf.length < hcChunkSize - 1) : Held maxLen (copySmallChunk c chunkBuf) := by
  have hblock : (reblock c chunkBuf (c.buf.take c.chunkSize)).1.length < hcChunkSize - 1 := by
    refine reblock_held hheld ?_
    rw [List.length_take]
    omega
  have hbuf := (reblock_sameReads c chunkBuf (c.buf.take c.chunkSize)).buf
  simp only [copySmallChunk]
  split
  · exact ⟨hheld, by simp⟩
  · split
    · exact ⟨hheld, by simp⟩
    · split
      · refine ⟨hblock, fun _ => ?_⟩
        simp only [hbuf, List.length_drop]
        omega
      · exact ⟨hblock, by simp⟩

/-- **A small chunk**, whose size with the line end does not wrap. Then what is copied of it, and
    what is moved to the front of the buffer behind it, stays inside, and the fill levels are
    bounded as before. -/
theorem recvSmallChunkAccesses_bounded (hmax : maxLen < hcChunkSize)
    (hlen : c.buf.length ≤ maxLen) (hheld : chunkBuf.length < hcChunkSize - 1)
    (hfits : c.chunkSize + 2 < 2 ^ 32) :
    Bounded (recvSmallChunkAccesses maxLen c chunkBuf.length) ∧
      Held maxLen (recvSmallChunk maxLen c chunkBuf) := by
  rw [recvSmallChunkAccesses, recvSmallChunk]
  split
  · obtain ⟨-, hbuf, hsize⟩ := c.checkStop_sameReads
    rcases hcheck : c.checkStop with ⟨stop, c₁⟩
    rw [hcheck] at hbuf hsize
    have hlen₁ : c₁.buf.length ≤ maxLen := Nat.le_trans (Nat.le_of_eq (congrArg _ hbuf)) hlen
    have hsize₁ : c₁.chunkSize = c.chunkSize := hsize
    cases stop with
    | true => exact ⟨.nil, hheld, by simp⟩
    | false =>
      simp only
      rcases hcall : httpClientRecv c₁ (maxLen - c₁.buf.length) with ⟨res, c₂⟩
      have hle := (httpClientRecv_length hcall).2
      have hsize₂ := httpClientRecv_chunkSize hcall
      have hfill : Bounded (.sub maxLen c₁.buf.length ::
          fillAccesses c₁ (maxLen - c₁.buf.length)) :=
        .cons hlen₁ (.of_safe (fillAccesses_safe (by omega)))
      cases res with
      | ok =>
        exact ⟨hfill.append (copySmallChunkAccesses_bounded hheld (by omega) (by omega)),
          copySmallChunk_held hmax (by omega) hheld⟩
      | _ => exact ⟨hfill.append .nil, hheld, by simp⟩
  · exact ⟨copySmallChunkAccesses_bounded hheld (by omega) hfits,
      copySmallChunk_held hmax hlen hheld⟩

/-- **The data of a larger chunk.** -/
theorem largeChunkAccesses_bounded (fuel : Nat) {needToRead : Nat} (hmax : maxLen < hcChunkSize)
    (hlen : c.buf.length ≤ maxLen) (hheld : chunkBuf.length < hcChunkSize - 1)
    (hend : needToRead = 0 → c.buf = []) :
    Bounded (largeChunkAccesses maxLen fuel needToRead c chunkBuf) ∧
      (largeChunkLoop maxLen fuel needToRead c chunkBuf).2.1.length < hcChunkSize - 1 ∧
      ((largeChunkLoop maxLen fuel needToRead c chunkBuf).1 = none →
        (largeChunkLoop maxLen fuel needToRead c chunkBuf).2.2.buf = []) := by
  induction fuel generalizing needToRead c chunkBuf with
  | zero => exact ⟨.nil, hheld, by simp [largeChunkLoop]⟩
  | succ fuel ih =>
    rw [largeChunkAccesses, largeChunkLoop]
    split
    · rename_i hneed
      exact ⟨.nil, hheld, fun _ => hend hneed⟩
    · have hbuf := c.checkStop_sameReads.buf
      rcases hcheck : c.checkStop with ⟨stop, c₁⟩
      rw [hcheck] at hbuf
      have hlen₁ : c₁.buf.length ≤ maxLen := Nat.le_trans (Nat.le_of_eq (congrArg _ hbuf)) hlen
      cases stop with
      | true => exact ⟨.nil, hheld, by simp⟩
      | false =>
        simp only
        rcases hcall : httpClientRecv c₁ (min needToRead (maxLen - c₁.buf.length)) with ⟨res, c₂⟩
        obtain ⟨hge, hle⟩ := httpClientRecv_length hcall
        have hfill : Bounded (.sub maxLen c₁.buf.length ::
            fillAccesses c₁ (min needToRead (maxLen - c₁.buf.length))) :=
          .cons hlen₁ (.of_safe (fillAccesses_safe (by omega)))
        have hneed : (Access.sub needToRead (c₂.buf.length - c₁.buf.length)).Safe := by
          simp only [Access.Safe]
          omega
        cases res with
        | ok =>
          have hblock : (reblock c₂ chunkBuf c₂.buf).1.length < hcChunkSize - 1 :=
            reblock_held hheld (by omega)
          rcases hre : reblock c₂ chunkBuf c₂.buf with ⟨chunkBuf₂, c₃⟩
          rw [hre] at hblock
          have hempty : ({ c₃ with buf := [] } : HttpClient).buf.length ≤ maxLen := Nat.zero_le _
          obtain ⟨hmore, hheld'⟩ := @ih { c₃ with buf := [] } chunkBuf₂
            (needToRead - (c₂.buf.length - c₁.buf.length)) hempty hblock fun _ => rfl
          simp only [hre]
          exact ⟨hfill.append (.cons hneed
            ((reblockAccesses_bounded hheld (by omega)).append hmore)), hheld'⟩
        | _ => exact ⟨hfill.append (.cons hneed .nil), hheld, by simp⟩

/-- **A larger chunk** and its line end. -/
theorem recvLargeChunkAccesses_bounded {fuel : Nat} (hmax : maxLen < hcChunkSize)
    (hlen : c.buf.length ≤ maxLen) (hheld : chunkBuf.length < hcChunkSize - 1) :
    Bounded (recvLargeChunkAccesses maxLen fuel c chunkBuf) ∧
      Held maxLen (recvLargeChunk maxLen fuel c chunkBuf) := by
  have hsize : hcChunkSize = 1025 := rfl
  rw [recvLargeChunkAccesses, recvLargeChunk]
  split
  · exact ⟨.nil, hheld, by simp⟩
  · rename_i hlt
    have hend : c.chunkSize - c.buf.length = 0 → c.buf = [] := by omega
    obtain ⟨hdata, hheld₁, hbuf⟩ := largeChunkAccesses_bounded fuel hmax hlen hheld hend
    have hfirst : Bounded (.sub c.chunkSize c.buf.length ::
        largeChunkAccesses maxLen fuel (c.chunkSize - c.buf.length) c chunkBuf) :=
      .cons (by simp only [Access.Safe]; omega) hdata
    rcases hloop : largeChunkLoop maxLen fuel (c.chunkSize - c.buf.length) c chunkBuf with
      ⟨_ | out, chunkBuf₁, c₁⟩
    · rw [hloop] at hheld₁ hbuf
      have hempty : c₁.buf = [] := hbuf rfl
      simp only
      have hlineEnd : Bounded (recvAccesses 0 2 c₁.sock 2 0 ++
          [.buf (httpClientRecv c₁ 2).2.buf.length 1, .buf 0 2]) := by
        have hle := (httpClientRecv_length (Prod.eta (httpClientRecv c₁ 2)).symm).2
        rw [hempty, List.length_nil] at hle
        refine .append (.of_safe (recvAccesses_safe (by omega)))
          (.cons (by simp only [Access.Safe]; omega)
            (.cons (by simp only [Access.Safe]; omega) .nil))
      refine ⟨hfirst.append hlineEnd, ?_⟩
      rcases httpClientRecv c₁ 2 with ⟨res, c₂⟩
      cases res with
      | ok =>
        simp only
        split
        · exact ⟨hheld₁, fun _ => Nat.zero_le _⟩
        · exact ⟨hheld₁, by simp⟩
      | _ => exact ⟨hheld₁, by simp⟩
    · rw [hloop] at hheld₁
      exact ⟨hfirst.append .nil, hheld₁, by simp⟩

/-- A chunk whose size fits, so that what passes for a small one is one. -/
theorem chunkDataAccesses_bounded (fuel : Nat) (hmax : maxLen < hcChunkSize)
    (hlen : c.buf.length ≤ maxLen) (hheld : chunkBuf.length < hcChunkSize - 1)
    (hfits : c.chunkSize + 2 < 2 ^ 32) :
    Bounded (if u32 (c.chunkSize + 2) ≤ maxLen then
        recvSmallChunkAccesses maxLen c chunkBuf.length
      else recvLargeChunkAccesses maxLen fuel c chunkBuf) ∧
      Held maxLen (if u32 (c.chunkSize + 2) ≤ maxLen then recvSmallChunk maxLen c chunkBuf
        else recvLargeChunk maxLen fuel c chunkBuf) := by
  split
  · exact recvSmallChunkAccesses_bounded hmax hlen hheld hfits
  · exact recvLargeChunkAccesses_bounded hmax hlen hheld

theorem retAccesses_bounded {r : Outcome × List UInt8 × HttpClient}
    (hheld : r.2.1.length < hcChunkSize - 1) : Bounded (retAccesses r) := by
  have hsize : hcChunkSize = 1025 := rfl
  obtain ⟨out, chunkBuf, c⟩ := r
  have hheld' : chunkBuf.length < hcChunkSize - 1 := hheld
  rw [retAccesses.eq_def]
  split
  · rename_i heq
    obtain ⟨-, heq'⟩ := Prod.mk.inj heq
    obtain ⟨rfl, rfl⟩ := Prod.mk.inj heq'
    split
    · refine .cons (by simp only [Access.Safe]; omega) (.number (fun hfit => ?_) fun _ => .nil)
      exact hfit.totals _ _ List.mem_cons_self
    · exact .nil
  · exact .nil

/-- **The loop over the chunks** keeps the fill levels in bounds from chunk to chunk. The induction
    is on the fuel; each round reads a line with a size, then a chunk that is small or large, and
    hands both buffers to the next as they were bounded before. -/
theorem chunkLoopAccesses_bounded {fuel : Nat} (hmax : maxLen < hcChunkSize)
    (hlen : c.buf.length ≤ maxLen) (hheld : chunkBuf.length < hcChunkSize - 1) :
    Bounded (chunkLoopAccesses maxLen fuel c chunkBuf ++
      retAccesses (recvChunkLoop maxLen fuel c chunkBuf)) := by
  have hsize : hcChunkSize = 1025 := rfl
  induction fuel generalizing c chunkBuf with
  | zero => exact .append .nil .nil
  | succ fuel ih =>
    rw [chunkLoopAccesses, recvChunkLoop]
    have hbuf := c.checkStop_sameReads.buf
    rcases hcheck : c.checkStop with ⟨stop, c₁⟩
    rw [hcheck] at hbuf
    have hlen₁ : c₁.buf.length ≤ maxLen := Nat.le_trans (Nat.le_of_eq (congrArg _ hbuf)) hlen
    cases stop with
    | true => exact .append .nil (retAccesses_bounded hheld)
    | false =>
      simp only
      have hline : Bounded (chunkedSizeAccesses maxLen fuel c₁) :=
        chunkedSizeAccesses_bounded hmax hlen₁
      rcases hread : httpClientRecvChunkedSize maxLen fuel c₁ with ⟨out, c₂⟩
      have hlen₂ := httpClientRecvChunkedSize_length hlen₁ hread
      rcases out with res | _ | _
      · cases res with
        | ok =>
          simp only
          split
          · refine .append (.append hline ?_) (retAccesses_bounded hheld)
            split
            · exact .nil
            · exact .cons (by simp only [Access.Safe]; omega) .nil
          · rw [List.append_assoc, List.cons_append, List.cons_append]
            refine .append hline (.number (fun hfit => ?_) fun hfits => ?_)
            · have hlt := hfit.sizes _ List.mem_cons_self
              simp only [Access.Safe]
              omega
            · obtain ⟨hdata, hheld₃, hlen₃⟩ :=
                chunkDataAccesses_bounded fuel hmax hlen₂ hheld hfits
              rw [List.append_assoc]
              refine hdata.append ?_
              rcases hchunk : (if u32 (c₂.chunkSize + 2) ≤ maxLen then
                  recvSmallChunk maxLen c₂ chunkBuf
                else recvLargeChunk maxLen fuel c₂ chunkBuf) with ⟨_ | out, chunkBuf₃, c₃⟩
              · rw [hchunk] at hheld₃ hlen₃
                exact ih (hlen₃ rfl) hheld₃
              · rw [hchunk] at hheld₃
                exact .append .nil (retAccesses_bounded hheld₃)
        | _ => exact .append (.append hline .nil) .nil
      · exact .append (.append hline .nil) .nil
      · exact .append (.append hline .nil) .nil

theorem recvChunkAccesses_bounded {fuel : Nat} (hmax : maxLen < hcChunkSize) :
    Bounded (recvChunkAccesses fuel c maxLen) := by
  rw [recvChunkAccesses]
  split
  · exact .nil
  · exact chunkLoopAccesses_bounded hmax (by omega) (by decide)

end Receiving

theorem responseAccesses_bounded (fuel : Nat) (c : HttpClient) :
    Bounded (responseAccesses fuel c) := by
  rw [responseAccesses]
  have hlen := httpClientRecvRspAndParse_length c hcRspChunkSize
  rcases hstatus : httpClientRecvRspAndParse c hcRspChunkSize with ⟨res, c₁⟩
  rw [hstatus] at hlen
  cases res with
  | ok =>
    have hlen₁ : c₁.buf.length ≤ hcHeaderChunkSize := Nat.le_trans hlen (by decide)
    refine .append (headersAccesses_bounded (by decide) hlen₁) ?_
    rcases httpClientRecvHeadersAndParse fuel c₁ hcHeaderChunkSize with ⟨out, c₂⟩
    rcases out with res | _ | _
    · cases res with
      | ok =>
        simp only
        split
        · exact recvChunkAccesses_bounded (by decide)
        · exact .nil
      | _ => exact .nil
    · exact .nil
    · exact .nil
  | _ => exact .nil

/-- **A response is decoded inside the buffers**, and no length wraps, if and only if the numbers
    the server sends fit; so is a chunked body, whatever is in the buffer before it. -/
theorem decoder_inBounds_iff (fuel : Nat) (c : HttpClient) :
    ((∀ a ∈ responseAccesses fuel c, a.Safe) ↔ NumbersFit (responseAccesses fuel c)) ∧
      ((∀ a ∈ recvChunkAccesses fuel c (hcChunkSize - 1), a.Safe) ↔
        NumbersFit (recvChunkAccesses fuel c (hcChunkSize - 1))) :=
  ⟨⟨numbersFit_of_safe, responseAccesses_bounded fuel c⟩,
    ⟨numbersFit_of_safe, recvChunkAccesses_bounded (by decide)⟩⟩

/-- A client before the response of a server that announces a chunk of `2^32 - 2` octets. -/
def hugeChunkClient : HttpClient where
  customHeaders := []
  httpResponseCode := 0
  dataHdlrCb := true
  httpContentLen := 0
  httpContentType := []
  location := none
  isChunked := false
  chunkSize := 0
  recvSize := 0
  resumeRetryCount := 0
  buf := []
  dataPos := .first
  sock := ⟨⟨ascii "HTTP/1.1 200 OK\r\nTransfer-Encoding: chunked\r\n\r\nFFFFFFFE\r\nx",
    [.ok 100]⟩, true⟩
  sends := []
  sent := []
  conns := []
  mallocs := []
  stops := []
  stopped := false
  calls := []

/-- The chunk passes for a small one, and nearly `2^32` octets are copied to the second buffer. -/
theorem response_hugeChunk :
    Access.chunkBuf 0 (2 ^ 32 - 2 - 1024) ∈ responseAccesses 3 hugeChunkClient ∧
      ¬∀ a ∈ responseAccesses 3 hugeChunkClient, a.Safe := by
  have hmem : Access.chunkBuf 0 (2 ^ 32 - 2 - 1024) ∈ responseAccesses 3 hugeChunkClient := by
    decide +kernel
  exact ⟨hmem, fun hsafe => absurd (hsafe _ hmem) (by decide)⟩

end Http
end LightDuer
