import LightDuer.LibCoap.Message

/-!
# Parsing a packet

`sn_coap_parser` (`sn_coap_parser.c`).

The parser moves a pointer over the packet, and reads what is there before it compares the pointer
with the length of the packet; so a packet is a length and a memory, which goes on behind it. The
loop over the options is followed with fuel: it need not end (`Endless`).

## The packets that are meant

`message_left` is a `uint16_t` and becomes `packet_len` less the octets of header and token, so a
packet that is shorter than the token its first octet announces has some 65530 octets left. Such a
packet is not modelled, nor is one of `2 ^ 15 - 2 ^ 8` octets and more, which `duer_coap_recv` does
not hand over (its buffer is `DUER_BUFFER_SIZE`, 2048). In every other one the `uint16_t` counters
of `sn_coap_parser_options_count_needed_memory_multiple_option` do not wrap and its `int16_t` result
is not negative; the counters are wrapped here all the same, where the code's do, and `countLoop_eq`
in `Field` says that it is not seen.
-/

set_option autoImplicit false

namespace LightDuer
namespace LibCoap

open Lib

/-- `packet_data_ptr` and `packet_data_len`: a packet that holds its header and its token, if that
    is not refused for its length, and in which no sum of lengths leaves the `int16_t` it is kept
    in. -/
structure Packet where
  mem : Nat → UInt8
  len : Nat
  len_lt : len < 2 ^ 15 - 2 ^ 8
  token_le : (mem 0).toNat % 16 ≤ 8 → 4 + (mem 0).toNat % 16 ≤ len

namespace Packet

variable (packet : Packet)

/-! ## The value of an option -/

/-- `sn_coap_parser_options_parse_uint` -/
def optionsParseUint (pos optionLen : Nat) : Nat :=
  (window packet.mem pos optionLen).foldl (fun value b => value * 2 ^ 8 + b.toNat) 0

/-- An integer of at most `max` octets that has not been given before, and where it ends. The
    pointer is at the last octet of the head. -/
def integer (pos optionLen max : Nat) (given : Bool) : Option (Nat × Nat) :=
  if max < optionLen ∨ given then none
  else some (packet.optionsParseUint (pos + 1) optionLen, pos + 1 + optionLen)

/-- A string of 1 to `max` octets that has not been given before, and where it ends. -/
def string (pos optionLen max : Nat) (given : Bool) : Option (List UInt8 × Nat) :=
  if max < optionLen ∨ optionLen < 1 ∨ given then none
  else some (window packet.mem (pos + 1) optionLen, pos + 1 + optionLen)

/-- A part that is too long for its option. -/
def partTooLong : CoapOption → Nat → Bool
  | .locationPath, len | .uriPath, len | .uriQuery, len | .locationQuery, len => 255 < len
  | .accept, len => 2 < len
  | .etag, len => 8 < len
  | _, _ => false

/-- The loop of `sn_coap_parser_options_count_needed_memory_multiple_option`, with `i`, `ret_value`
    and `option_number_len`, which are of sixteen bits; each round that goes on moves `i`. -/
def countLoop (pos left : Nat) (option : CoapOption) : Nat → Nat → Nat → Nat → Option Nat
  | 0, _, ret, _ => some (ret - 1)
  | fuel + 1, i, ret, len =>
      if i < left then
        if partTooLong option len then none
        else
          let i := (i + len) % 2 ^ 16
          let ret := (ret + len + 1) % 2 ^ 16
          if left ≤ ret ∨ i = left then some (ret - 1)
          else
            let b := (packet.mem (pos + i)).toNat
            if b / 16 ≠ 0 then some (ret - 1)
            else if b % 16 = 15 then none
            else
              let next := Options.extended packet.mem (pos + i) (b % 16)
              countLoop pos left option fuel ((i + next.2 + 1) % 2 ^ 16) ret next.1
      else some (ret - 1)

/-- `sn_coap_parser_options_count_needed_memory_multiple_option` -/
def optionsCountNeededMemoryMultipleOption (pos left : Nat) (option : CoapOption) (len : Nat) :
    Option Nat :=
  packet.countLoop pos left option left 1 0 len

/-- The loop of `sn_coap_parser_options_parse_multiple_options`, with
    `returned_option_counter`, the pointer, what has been copied, and `option_number_len`; each
    round but the first copies a separator. -/
def copyLoop (option : CoapOption) (heap : Nat) :
    Nat → Nat → Nat → List UInt8 → Nat → Option (List UInt8 × Nat × Nat)
  | 0, counter, pos, dst, _ => some (dst, pos, counter)
  | fuel + 1, counter, pos, dst, len =>
      if dst.length < heap then
        let dst := if 0 < counter then dst ++ [option.separator] else dst
        if heap < dst.length + len then none
        else
          let dst := dst ++ window packet.mem (pos + 1) len
          let pos := pos + 1 + len
          let counter := (counter + 1) % 2 ^ 8
          let b := (packet.mem pos).toNat
          if heap ≤ dst.length ∨ b / 16 ≠ 0 then some (dst, pos, counter)
          else
            let next := Options.extended packet.mem pos (b % 16)
            copyLoop option heap fuel counter (pos + next.2) dst next.1
      else some (dst, pos, counter)

/-- `sn_coap_parser_options_parse_multiple_options`: what is stored, if memory was needed for it,
    and the pointer. The count is returned as an `int8_t`, and taken for a failure if that is
    negative. -/
def optionsParseMultipleOptions (pos left : Nat) (option : CoapOption) (len : Nat) :
    Option (Option (List UInt8) × Nat) :=
  match packet.optionsCountNeededMemoryMultipleOption pos left option len with
  | none => none
  | some 0 => some (none, pos)
  | some (heap + 1) =>
      match packet.copyLoop option (heap + 1) (heap + 2) 0 pos [] len with
      | some (dst, pos, counter) => if counter < 2 ^ 7 then some (some dst, pos) else none
      | none => none

end Packet

/-- The pointer and the length that a string of several parts has then: with no memory needed the
    length is zero and the pointer stays. -/
def storeParts (old parsed : Option (List UInt8)) : Option (List UInt8) :=
  match parsed with
  | some parts => some parts
  | none => old.map fun _ => []

/-- The ETag. Its length is stored through a `uint16_t *`, over the two flags behind it. -/
def SnCoapOptionsList.storeEtag (options : SnCoapOptionsList) (parsed : Option (List UInt8)) :
    SnCoapOptionsList :=
  let len := (parsed.getD []).length
  { options with
    etagLen := len % 2 ^ 8
    useSize1 := len / 2 ^ 8 % 2 == 1
    useSize2 := len / 2 ^ 9 % 2 == 1
    etagPtr := parsed.or options.etagPtr }

/-- The variables of `sn_coap_parser_options_parse`. -/
structure ParseState where
  pos : Nat
  previousOptionNumber : Nat
  messageLeft : Nat
  msg : SnCoapHdr
deriving DecidableEq, Repr

namespace Packet

variable (packet : Packet)

/-- The switch over the number of an option, with the pointer at the last octet of its head. -/
def optionParse (s : ParseState) (pos optionNumber optionLen : Nat) : Option (SnCoapHdr × Nat) :=
  let msg := s.msg
  let options := msg.allocOptions
  match CoapOption.ofNumber? optionNumber with
  | some .contentFormat =>
      (packet.integer pos optionLen 2 msg.contentFormat.isSome).map fun v =>
        ({ msg with contentFormat := some v.1 }, v.2)
  | some .maxAge =>
      (packet.integer pos optionLen 4 false).map fun v =>
        ({ msg with optionsList := some { options with maxAge := v.1 } }, v.2)
  | some .proxyUri =>
      (packet.string pos optionLen 1034 options.proxyUri.isSome).map fun v =>
        ({ msg with optionsList := some { options with proxyUri := some v.1 } }, v.2)
  | some .etag =>
      (packet.optionsParseMultipleOptions pos s.messageLeft .etag optionLen).map fun v =>
        ({ msg with optionsList := some (options.storeEtag v.1) }, v.2)
  | some .uriHost =>
      (packet.string pos optionLen 255 options.uriHost.isSome).map fun v =>
        ({ msg with optionsList := some { options with uriHost := some v.1 } }, v.2)
  | some .locationPath =>
      if options.locationPath.isSome then none
      else
        (packet.optionsParseMultipleOptions pos s.messageLeft .locationPath optionLen).map fun v =>
          ({ msg with
            optionsList := some { options with
              locationPath := storeParts options.locationPath v.1 } }, v.2)
  | some .uriPort =>
      (packet.integer pos optionLen 2 options.uriPort.isSome).map fun v =>
        ({ msg with optionsList := some { options with uriPort := some v.1 } }, v.2)
  | some .locationQuery =>
      (packet.optionsParseMultipleOptions pos s.messageLeft .locationQuery optionLen).map fun v =>
        ({ msg with
          optionsList := some { options with
            locationQuery := storeParts options.locationQuery v.1 } }, v.2)
  | some .uriPath =>
      (packet.optionsParseMultipleOptions pos s.messageLeft .uriPath optionLen).map fun v =>
        ({ msg with uriPath := storeParts msg.uriPath v.1 }, v.2)
  | some .observe =>
      (packet.integer pos optionLen 2 options.observe.isSome).map fun v =>
        ({ msg with optionsList := some { options with observe := some v.1 } }, v.2)
  | some .uriQuery =>
      (packet.optionsParseMultipleOptions pos s.messageLeft .uriQuery optionLen).map fun v =>
        ({ msg with
          optionsList := some { options with uriQuery := storeParts options.uriQuery v.1 } }, v.2)
  | some .block2 =>
      (packet.integer pos optionLen 3 options.block2.isSome).map fun v =>
        ({ msg with optionsList := some { options with block2 := some v.1 } }, v.2)
  | some .block1 =>
      (packet.integer pos optionLen 3 options.block1.isSome).map fun v =>
        ({ msg with optionsList := some { options with block1 := some v.1 } }, v.2)
  | some .accept =>
      (packet.integer pos optionLen 2 options.accept.isSome).map fun v =>
        ({ msg with optionsList := some { options with accept := some v.1 } }, v.2)
  | some .size1 =>
      (packet.integer pos optionLen 4 options.useSize1).map fun v =>
        ({ msg with optionsList := some { options with useSize1 := true, size1 := v.1 } }, v.2)
  | some .size2 =>
      (packet.integer pos optionLen 4 options.useSize2).map fun v =>
        ({ msg with optionsList := some { options with useSize2 := true, size2 := v.1 } }, v.2)
  | _ => none

/-- What a round of the loop over the options comes to. -/
inductive OptionsRound
  | failed
  | ended
  | next (s : ParseState)
deriving DecidableEq, Repr

/-- The number and the length in a head, and its last octet; `none` for a reserved nibble. -/
def optionHead (pos previous : Nat) : Option (Nat × Nat × Nat) :=
  let b := (packet.mem pos).toNat
  if b % 16 = 15 ∨ b / 16 = 15 then none
  else
    let delta := Options.extended packet.mem pos (b / 16)
    let len := Options.extended packet.mem (pos + delta.2) (b % 16)
    some ((delta.1 + previous) % 2 ^ 16, len.1, pos + delta.2 + len.2)

/-- A round of the loop of `sn_coap_parser_options_parse`. -/
def optionsRound (s : ParseState) : OptionsRound :=
  if s.messageLeft = 0 ∨ packet.mem s.pos = 0xff then .ended
  else
    match packet.optionHead s.pos s.previousOptionNumber with
    | none => .failed
    | some (optionNumber, optionLen, pos) =>
        match packet.optionParse s pos optionNumber optionLen with
        | none => .failed
        | some (msg, pos) =>
            if packet.len < pos then .failed
            else .next ⟨pos, optionNumber % 2 ^ 8, packet.len - pos, msg⟩

/-- The loop: how it ends, if it does with this many rounds. -/
def optionsLoop : Nat → ParseState → Option (Option ParseState)
  | 0, _ => none
  | fuel + 1, s =>
      match packet.optionsRound s with
      | .failed => some none
      | .ended => some (some s)
      | .next s' => optionsLoop fuel s'

/-! ## The packet -/

/-- `sn_coap_parser_header_parse`: the version, and a message with what the header says. -/
def headerParse : Nat × SnCoapHdr :=
  ((packet.mem 0).toNat / 0x40 * 0x40,
    { msgType := .ofOctet (packet.mem 0).toNat
      msgCode := (packet.mem 1).toNat
      msgId := (packet.mem 2).toNat * 2 ^ 8 + (packet.mem 3).toNat })

/-- `sn_coap_parser_options_parse` up to its loop: the token; `none` where it is too long. -/
def tokenParse : Option ParseState :=
  let msg := packet.headerParse.2
  let tokenLen := (packet.mem 0).toNat % 16
  if 8 < tokenLen then none
  else some {
    pos := 4 + tokenLen
    previousOptionNumber := 0
    messageLeft := (packet.len + 2 ^ 16 - (4 + tokenLen)) % 2 ^ 16
    msg := { msg with
      tokenLen
      tokenPtr := if tokenLen = 0 then none else some (window packet.mem 4 tokenLen) } }

/-- `sn_coap_parser_payload_parse` -/
def payloadParse (s : ParseState) : Option SnCoapHdr :=
  if s.pos < packet.len then
    if packet.mem s.pos = 0xff then
      if packet.len = s.pos + 1 then none
      else some { s.msg with
        payloadLen := packet.len - (s.pos + 1)
        payloadPtr := some (window packet.mem (s.pos + 1) (packet.len - (s.pos + 1))) }
    else none
  else some s.msg

/-- A message that could not be parsed; what the library reads of it is the header. -/
def parserError : SnCoapHdr :=
  { packet.headerParse.2 with coapStatus := .parserErrorInHeader }

/-- What `sn_coap_parser` makes of how the loop over the options ended. -/
def parserResult : Option ParseState → SnCoapHdr
  | none => packet.parserError
  | some s => (packet.payloadParse s).getD packet.parserError

/-- `sn_coap_parser` on a packet of four octets or more, with this many rounds of the loop: the
    version and the message. -/
def snCoapParser (fuel : Nat) : Option (Nat × SnCoapHdr) :=
  match packet.tokenParse with
  | none => some (packet.headerParse.1, packet.parserError)
  | some s =>
      (packet.optionsLoop fuel s).map fun r => (packet.headerParse.1, packet.parserResult r)

end Packet

end LibCoap
end LightDuer
