import LightDuer.Lib.Options

/-!
# CoAP messages

`sn_coap_hdr_s` and `sn_coap_options_list_s` (`sn_coap_header.h`), as the library hands them to the
application and takes them from it, and what `sn_coap_header_validity_check` and
`sn_coap_build_response` make of a message.

## Pointers, lengths and absent values

A pointer with a length field that is read only where the pointer is not `NULL` is one list of
octets, `none` for `NULL`. Three lengths are read in other places, too, and are fields of their own:
`token_len` (the header says it even where there is no token), `payload_len` (it decides whether a
payload is sent in blocks, and is cut to a block while the pointer stays) and `etag_len`. What the
builder does where such a length and the list of octets differ is modelled, and where it matters a
hypothesis says that they agree.

An `int32_t` or an enumeration with a value for "none" is an option, with the value as the unsigned
word it is cast to; the sizes have a flag instead, and keep it. The defaults of the two structures
are those of `sn_coap_parser_init_message` and `sn_coap_parser_alloc_options`, so that `{}` is the
message that the parser starts from.

## Option numbers

`CoapOption` are the options that the library knows, with their numbers and, for the five that have
several parts, the character that the parts are joined with. The parser goes from numbers to options
and the builder the other way; `ofNumber?_number` and `number_of_ofNumber?` say that these are
inverse.
-/

set_option autoImplicit false

namespace LightDuer
namespace LibCoap

/-- `sn_coap_msg_type_e` -/
inductive MsgType
  | confirmable | nonConfirmable | acknowledgement | reset
deriving DecidableEq, Repr

namespace MsgType

def value : MsgType → Nat
  | confirmable => 0x00
  | nonConfirmable => 0x10
  | acknowledgement => 0x20
  | reset => 0x30

/-- The type in the first octet, under `COAP_HEADER_MSG_TYPE_MASK`. -/
def ofOctet (b : Nat) : MsgType :=
  if b / 16 % 4 = 0 then confirmable
  else if b / 16 % 4 = 1 then nonConfirmable
  else if b / 16 % 4 = 2 then acknowledgement
  else reset

theorem value_le (t : MsgType) : t.value ≤ 0x30 := by cases t <;> decide

theorem ofOctet_value (t : MsgType) {version len : Nat} (hversion : version % 0x40 = 0)
    (hlen : len < 0x10) : ofOctet (version + t.value + len) = t := by
  have hbits : (version + t.value + len) / 16 % 4 = t.value / 16 := by
    cases t <;> simp only [value] <;> omega
  rw [ofOctet, hbits]
  cases t <;> rfl

end MsgType

/-- `sn_coap_option_numbers_e` -/
inductive CoapOption
  | ifMatch | uriHost | etag | ifNoneMatch | observe | uriPort | locationPath | uriPath
  | contentFormat | maxAge | uriQuery | accept | locationQuery | block2 | block1 | size2
  | proxyUri | proxyScheme | size1
deriving DecidableEq, Repr

namespace CoapOption

def number : CoapOption → Nat
  | ifMatch => 1
  | uriHost => 3
  | etag => 4
  | ifNoneMatch => 5
  | observe => 6
  | uriPort => 7
  | locationPath => 8
  | uriPath => 11
  | contentFormat => 12
  | maxAge => 14
  | uriQuery => 15
  | accept => 17
  | locationQuery => 20
  | block2 => 23
  | block1 => 27
  | size2 => 28
  | proxyUri => 35
  | proxyScheme => 39
  | size1 => 60

def ofNumber? : Nat → Option CoapOption
  | 1 => some ifMatch
  | 3 => some uriHost
  | 4 => some etag
  | 5 => some ifNoneMatch
  | 6 => some observe
  | 7 => some uriPort
  | 8 => some locationPath
  | 11 => some uriPath
  | 12 => some contentFormat
  | 14 => some maxAge
  | 15 => some uriQuery
  | 17 => some accept
  | 20 => some locationQuery
  | 23 => some block2
  | 27 => some block1
  | 28 => some size2
  | 35 => some proxyUri
  | 39 => some proxyScheme
  | 60 => some size1
  | _ => none

@[simp] theorem ofNumber?_number (o : CoapOption) : ofNumber? o.number = some o := by
  cases o <;> rfl

theorem number_le (o : CoapOption) : o.number ≤ 60 := by
  cases o <;> decide

theorem number_pos (o : CoapOption) : 0 < o.number := by
  cases o <;> decide

/-- The options of several parts, which the application gives and gets as one string. -/
def repeatable : CoapOption → Bool
  | etag | locationPath | uriPath | uriQuery | locationQuery => true
  | _ => false

/-- What the parts of that string are joined with. -/
def separator : CoapOption → UInt8
  | uriPath | locationPath => 47
  | _ => 38

end CoapOption

/-- `sn_coap_status_e` -/
inductive CoapStatus
  | ok | parserErrorInHeader | parserDuplicatedMsg | parserBlockwiseMsgReceiving
  | parserBlockwiseAck | parserBlockwiseMsgRejected | parserBlockwiseMsgReceived
  | builderMessageSendingFailed
deriving DecidableEq, Repr

/-- `COAP_OPTION_MAX_AGE_DEFAULT` -/
def maxAgeDefault : Nat := 60

/-- `sn_coap_options_list_s`, with the values that `sn_coap_parser_alloc_options` gives it. -/
structure SnCoapOptionsList where
  etagLen : Nat := 0
  useSize1 : Bool := false
  useSize2 : Bool := false
  accept : Option Nat := none
  maxAge : Nat := maxAgeDefault
  size1 : Nat := 0
  size2 : Nat := 0
  uriPort : Option Nat := none
  observe : Option Nat := none
  block1 : Option Nat := none
  block2 : Option Nat := none
  proxyUri : Option (List UInt8) := none
  etagPtr : Option (List UInt8) := none
  uriHost : Option (List UInt8) := none
  locationPath : Option (List UInt8) := none
  locationQuery : Option (List UInt8) := none
  uriQuery : Option (List UInt8) := none
deriving DecidableEq, Repr

/-- `sn_coap_hdr_s`, with the values that `sn_coap_parser_init_message` gives it. -/
structure SnCoapHdr where
  tokenLen : Nat := 0
  coapStatus : CoapStatus := .ok
  msgCode : Nat := 0
  msgType : MsgType := .confirmable
  contentFormat : Option Nat := none
  msgId : Nat := 0
  uriPath : Option (List UInt8) := none
  payloadLen : Nat := 0
  tokenPtr : Option (List UInt8) := none
  payloadPtr : Option (List UInt8) := none
  optionsList : Option SnCoapOptionsList := none
deriving DecidableEq, Repr

/-- `sn_coap_parser_alloc_options`: the options of the message, with its list made if it has none.
-/
def SnCoapHdr.allocOptions (msg : SnCoapHdr) : SnCoapOptionsList := msg.optionsList.getD {}

/-- `COAP_VERSION_1` -/
def coapVersion1 : Nat := 0x40

/-- The message codes that `sn_coap_header_validity_check` lets pass. -/
def validCodes : List Nat :=
  [0, 1, 2, 3, 4, 65, 66, 67, 68, 69, 128, 129, 130, 131, 132, 133, 134, 136, 140, 141, 143, 160,
    161, 162, 163, 164, 165, 95]

/-- `sn_coap_header_validity_check`: the version, and the code. The check of the message type is
    left out: `MsgType` has no values but the four that pass it. -/
def snCoapHeaderValidityCheck (msg : SnCoapHdr) (coapVersion : Nat) : Bool :=
  coapVersion == coapVersion1 && validCodes.contains msg.msgCode

theorem validCodes_lt {code : Nat} (h : code ∈ validCodes) : code < 256 := by
  have hall : ∀ c ∈ validCodes, c < 256 := by decide
  exact hall code h

/-- `sn_coap_build_response`: no response is built for an acknowledgement or a reset. -/
def snCoapBuildResponse (packet : SnCoapHdr) (msgCode : Nat) : Option SnCoapHdr :=
  let token : SnCoapHdr :=
    match packet.tokenPtr with
    | some ptr => { tokenLen := packet.tokenLen, tokenPtr := some (ptr.take packet.tokenLen) }
    | none => {}
  match packet.msgType with
  | .confirmable =>
      some { token with msgType := .acknowledgement, msgCode, msgId := packet.msgId }
  | .nonConfirmable => some { token with msgType := .nonConfirmable, msgCode }
  | _ => none

end LibCoap
end LightDuer
