import LightDuer.Http.Client

/-!
# Responses of a server

What a response looks like on the wire: a status line, header lines, and the body, either as it is
under a `Content-Length` or cut into chunks. Lines are as long as they like; the client gives up on
those over its limits. The lemmas say what the client reads out of each part.

These are the responses that the results on exact downloads speak of. They are given by their
structure and not as octets that the client happens to accept: a `Header` is a key and the rest of
its line, with the conditions that make the line parse again; `Chunks` is inductive, a chunk in
front of more or the last one with anything behind it; `Reply` puts them together for a given body.
Whatever such a server sends can be cut in any way on its way to the client.

Two things are asked of the headers. None of them is a `Location`, which would send the client
elsewhere, and every `Content-Length` has the length of the body, as a decimal number with white
space around it. Nothing is asked of their order, of further headers, of the case of a
`Transfer-Encoding` that the client does not know, nor of the size of chunks; an extension behind a
chunk size is allowed, as the client stops reading the number there.

`Reply.parts` is the form in which the receiving functions meet a reply: the status line, the header
lines one behind the other, the blank line and the payload.
-/

set_option autoImplicit false

namespace LightDuer
namespace Http

open Lib

/-! ## Headers -/

/-- A header line, parted at its first colon. -/
structure Header where
  key : List UInt8
  raw : List UInt8
  key_plain : 58 ∉ key
  line_plain : 13 ∉ key ++ 58 :: raw

namespace Header

def line (h : Header) : List UInt8 := h.key ++ 58 :: h.raw

/-- The value, without the spaces before it. -/
def value (h : Header) : List UInt8 := h.raw.dropWhile (· == 32)

/-- `Transfer-Encoding: chunked`, in the two spellings the client knows. -/
def chunked (h : Header) : Bool :=
  h.key = ascii "Transfer-Encoding" ∧ (h.value = ascii "Chunked" ∨ h.value = ascii "chunked")

/-- A decimal number, with white space around it. -/
def HasNumber (h : Header) (n : Nat) : Prop :=
  ∃ lead ds trail, h.value = lead ++ ds ++ trail ∧ IsNumeral decDigit? ds ∧
    numeral decDigit? 10 ds = n ∧ (∀ b ∈ lead, b = 32 ∨ b = 9) ∧ (∀ b ∈ trail, b = 32 ∨ b = 9)

theorem line_ne_nil (h : Header) : h.line ≠ [] := by simp [line]

theorem splitHeader_line (h : Header) : splitHeader h.line = some (h.key, h.value) := by
  have hkey : ∀ b ∈ h.key, (b != 58) = true := by
    intro b hb
    have hne : b ≠ 58 := fun heq => h.key_plain (heq ▸ hb)
    simpa using hne
  have htake : h.line.takeWhile (· != 58) = h.key := by
    rw [line, List.takeWhile_append_of_pos hkey]
    simp
  have hdrop : h.line.dropWhile (· != 58) = 58 :: h.raw := by
    rw [line, List.dropWhile_append_of_pos hkey]
    simp
  have hmem : 58 ∈ h.line := by simp [line]
  simp only [splitHeader, hmem, if_true, htake, hdrop, List.tail_cons, value]

theorem scanInt_value {h : Header} {n : Nat} (hn : h.HasNumber n) (hlt : n < 2 ^ 31) :
    (scanInt h.value).map (·.1) = some (n : Int) := by
  obtain ⟨lead, ds, trail, hv, hds, hnum, hlead, htrail⟩ := hn
  have hspace : ∀ b ∈ lead, isSpace b = true := by
    intro b hb
    rcases hlead b hb with rfl | rfl <;> decide
  have hnot : ∀ b ∈ trail.head?, decDigit? b = none := by
    intro b hb
    rcases htrail b (List.mem_of_head? hb) with rfl | rfl <;> decide
  rw [hv, scanInt_numeral hspace hds hnot, hnum, Option.map_some]
  congr 1
  omega

end Header

/-! ## Chunks -/

/-- A chunk-size line: a hexadecimal number, perhaps followed by an extension. -/
def SizeLine (line : List UInt8) (n : Nat) : Prop :=
  ∃ ds ext, line = ds ++ ext ∧ IsNumeral hexDigit? ds ∧ numeral hexDigit? 16 ds = n ∧
    (∀ b ∈ ext.head?, b = 59 ∨ b = 32 ∨ b = 9) ∧ 13 ∉ line

theorem SizeLine.plain {line : List UInt8} {n : Nat} (h : SizeLine line n) : 13 ∉ line := by
  obtain ⟨ds, ext, -, -, -, -, hplain⟩ := h
  exact hplain

theorem SizeLine.scanHex {line : List UInt8} {n : Nat} (h : SizeLine line n) (hn : n < 2 ^ 32) :
    scanHex (cString line) = some n := by
  obtain ⟨ds, ext, rfl, hds, hnum, hext, -⟩ := h
  have hnul : 0 ∉ ds := fun h0 => absurd (hexDigit_ge (hds.2 0 h0)) (by decide)
  have hhead : ∀ b ∈ (cString ext).head?, hexDigit? b = none ∧ b ≠ 120 ∧ b ≠ 88 := by
    intro b hb
    have hmem : b ∈ ext.head? := mem_head?_of_cString hb
    rcases hext b hmem with rfl | rfl | rfl <;> decide
  rw [cString_append_of_notMem hnul, scanHex_numeral hds hhead, hnum]
  congr 1
  omega

/-- A body cut into chunks. After the last size line the trailer and a line end follow; the
    client reads none of it. -/
inductive Chunks : List UInt8 → List UInt8 → Prop where
  | last {line tail : List UInt8} : SizeLine line 0 → tail ≠ [] → Chunks [] (line ++ crLf ++ tail)
  | chunk {line data body wire : List UInt8} : SizeLine line data.length → data ≠ [] →
      Chunks body wire → Chunks (data ++ body) (line ++ crLf ++ (data ++ crLf ++ wire))

/-! ## Replies -/

/-- The status line and the headers. -/
def replyHead (status : List UInt8) (headers : List Header) : List UInt8 :=
  status ++ crLf ++ (headers.flatMap (fun h => h.line ++ crLf) ++ crLf)

/-- A response with a given body, and without a redirection. -/
inductive Reply (body : List UInt8) : List UInt8 → Prop where
  /-- the body as it is, its length in a header -/
  | length (status : List UInt8) (headers : List Header) : 13 ∉ status →
      (∀ h ∈ headers, h.key ≠ ascii "Location" ∧ h.chunked = false ∧
        (h.key = ascii "Content-Length" → h.HasNumber body.length)) →
      (∃ h ∈ headers, h.key = ascii "Content-Length") →
      Reply body (replyHead status headers ++ body)
  /-- the body in chunks -/
  | chunked (status : List UInt8) (headers : List Header) (wire : List UInt8) : 13 ∉ status →
      (∀ h ∈ headers, h.key ≠ ascii "Location") → (∃ h ∈ headers, h.chunked = true) →
      Chunks body wire → Reply body (replyHead status headers ++ wire)

/-- What the framing of a reply says about its body. -/
def Framed (body : List UInt8) (headers : List Header) (payload : List UInt8) : Prop :=
  (headers.any Header.chunked = true ∧ Chunks body payload) ∨
  (headers.any Header.chunked = false ∧ payload = body ∧
    (∀ h ∈ headers, h.key = ascii "Content-Length" → h.HasNumber body.length) ∧
    ∃ h ∈ headers, h.key = ascii "Content-Length")

theorem Reply.parts {body stream : List UInt8} (h : Reply body stream) :
    ∃ status headers payload, stream = status ++ crLf ++
        (headers.flatMap (fun h => h.line ++ crLf) ++ crLf ++ payload) ∧
      13 ∉ status ∧ (∀ h ∈ headers, h.key ≠ ascii "Location") ∧ Framed body headers payload := by
  cases h with
  | length status headers hstatus hheaders hlen =>
    refine ⟨status, headers, body, by simp [replyHead], hstatus, fun h hm => (hheaders h hm).1,
      .inr ⟨?_, rfl, fun h hm => (hheaders h hm).2.2, hlen⟩⟩
    exact List.any_eq_false.mpr fun h hm => by simp [(hheaders h hm).2.1]
  | chunked status headers wire hstatus hheaders hch hchunks =>
    exact ⟨status, headers, wire, by simp [replyHead], hstatus, hheaders,
      .inl ⟨List.any_eq_true.mpr hch, hchunks⟩⟩

end Http
end LightDuer
