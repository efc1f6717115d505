import LightDuer.LibCoap.Message

/-!
# Building a packet

`sn_coap_builder_2` and `sn_coap_builder_calc_needed_packet_data_size_2` (`sn_coap_builder.c`). The
second counts the octets of the packet, for the caller to allocate them and to send as many; the
first writes them. A string of several parts is cut at its separators as it is written, each part an
option of its own. A read behind the end of what a pointer points to is undefined behaviour: `none`.

## Writing

The packet pointer of the source moves along with `previous_option_number`; both are a `Writer`
here, with what has been written so far. It only ever grows, since whether it stays inside of what
was allocated is exactly the question of how the two functions agree, and is asked of the length at
the end.

The functions on a string of several parts are kept as the loops they are, with the counters in the
width they have: the number of the parts is a `uint8_t`, the place of a part an `int16_t` of which
-1 becomes the offset 65535. They start from the beginning of the string for each part. That they
find the parts of the string is a theorem (`partsOf_intercalate`) and not the definition, and it has
conditions.

## Counting

The count is kept apart from the writing in every detail, because the source does so: an ETag is
counted with the length that is stored and written with sixteen bits of memory from there on, the
Uri-Path of a notification is written nowhere and counted as the option in front of the next one. A
sum of 65536 octets and more is returned in a `uint16_t`.
-/

set_option autoImplicit false

namespace LightDuer
namespace LibCoap

open Lib

/-- What has been written to the packet, and `previous_option_number`. -/
structure Writer where
  packet : List UInt8
  previous : Nat

/-! ## One option -/

/-- `sn_coap_builder_options_build_add_one_option` -/
def optionsBuildAddOneOption (w : Writer) (option : Option (List UInt8)) (number : CoapOption) :
    Writer :=
  match option with
  | none => w
  | some value =>
      let optionLen := value.length
      let optionDelta := (number.number + 2 ^ 16 - w.previous) % 2 ^ 16
      let first := if optionLen ≤ 12 then optionLen else if optionLen < 269 then 0x0d else 0x0e
      let delta :=
        if optionDelta ≤ 12 then [UInt8.ofNat (first + optionDelta * 16)]
        else if optionDelta < 269 then
          [UInt8.ofNat (first + 0xd0), UInt8.ofNat (optionDelta - 13)]
        else
          [UInt8.ofNat (first + 0xe0), UInt8.ofNat ((optionDelta - 269) / 256),
            UInt8.ofNat (optionDelta - 269)]
      let len :=
        if optionLen ≤ 12 then []
        else if optionLen < 269 then [UInt8.ofNat (optionLen - 13)]
        else [UInt8.ofNat ((optionLen - 269) / 256), UInt8.ofNat (optionLen - 269)]
      ⟨w.packet ++ (delta ++ len ++ value), number.number⟩

/-- The loop of `sn_coap_builder_options_build_add_uint_option`: the word is shifted out, and its
    first octet is taken where it is not zero. After four rounds the word is zero. -/
def uintPayload : Nat → Nat → List UInt8
  | 0, _ => []
  | rounds + 1, value =>
      if value = 0 then []
      else (if value / 2 ^ 24 = 0 then [] else [UInt8.ofNat (value / 2 ^ 24)]) ++
        uintPayload rounds (value * 2 ^ 8 % 2 ^ 32)

/-- What `sn_coap_builder_options_build_add_uint_option` writes for an integer. -/
def uintOptionPayload (value : Nat) : List UInt8 := uintPayload 4 (value % 2 ^ 32)

/-- `sn_coap_builder_options_build_add_uint_option` with a place to write to, where the option is
    used. -/
def optionsBuildAddUintOption (w : Writer) (value : Option Nat) (number : CoapOption) : Writer :=
  optionsBuildAddOneOption w (value.map uintOptionPayload) number

/-! ## A string of several parts -/

/-- `sn_coap_builder_options_get_option_part_count`: the separators are counted between the first
    octet and the last, in a `uint8_t`. -/
def optionsGetOptionPartCount (query : List UInt8) (option : CoapOption) : Nat :=
  (((query.drop 1).dropLast.count option.separator) + 1) % 2 ^ 8

/-- The loop of
    `sn_coap_builder_options_get_option_part_length_from_whole_option_string`, with
    `returned_query_part_len` and `temp_query_index`. -/
def partLengthLoop (separator : UInt8) (queryIndex : Nat) : List UInt8 → Nat → Nat → Nat
  | [], len, _ => len
  | char :: query, len, index =>
      if char = separator ∧ 0 < len then
        if index = queryIndex then len else partLengthLoop separator queryIndex query 0 (index + 1)
      else if char ≠ separator then partLengthLoop separator queryIndex query (len + 1) index
      else partLengthLoop separator queryIndex query len index

def optionsGetOptionPartLength (query : List UInt8) (queryIndex : Nat) (option : CoapOption) :
    Nat :=
  partLengthLoop option.separator queryIndex query 0 0

/-- The loop of `sn_coap_builder_options_get_option_part_position`, with
    `returned_query_part_offset` and `temp_query_index`; -1 becomes an unsigned offset. -/
def partPositionLoop (separator : UInt8) (queryIndex : Nat) : List UInt8 → Nat → Nat → Nat
  | [], _, _ => 2 ^ 16 - 1
  | char :: query, offset, index =>
      if char = separator ∧ 0 < offset then
        if index = queryIndex - 1 then offset + 1
        else partPositionLoop separator queryIndex query (offset + 1) (index + 1)
      else partPositionLoop separator queryIndex query (offset + 1) index

def optionsGetOptionPartPosition (query : List UInt8) (queryIndex : Nat) (option : CoapOption) :
    Nat :=
  if queryIndex = 0 then
    if query.head? = some 0 ∨ query.head? = some option.separator then 1 else 0
  else partPositionLoop option.separator queryIndex query 0 0

/-- `len` octets at `offset` of what a pointer points to. -/
def readOctets (octets : List UInt8) (offset len : Nat) : Option (List UInt8) :=
  if offset + len ≤ octets.length then some ((octets.drop offset).take len) else none

/-- The part with this index, as it is written. -/
def optionPart (query : List UInt8) (option : CoapOption) (i : Nat) : Option (List UInt8) :=
  readOctets query (optionsGetOptionPartPosition query i option)
    (optionsGetOptionPartLength query i option)

/-- `sn_coap_builder_options_build_add_multiple_option` -/
def optionsBuildAddMultipleOption (w : Writer) (src : Option (List UInt8)) (option : CoapOption) :
    Option Writer :=
  match src with
  | none => some w
  | some query =>
      (List.range (optionsGetOptionPartCount query option)).foldlM
        (fun w i => (optionPart query option i).map fun part =>
          optionsBuildAddOneOption w (some part) option) w

/-! ## The packet -/

/-- `sn_coap_builder_header_build`; the header length octet is written into zeroed memory. -/
def headerBuild (msg : SnCoapHdr) : Option (List UInt8) :=
  if snCoapHeaderValidityCheck msg coapVersion1 then
    some [UInt8.ofNat (coapVersion1 + msg.msgType.value + msg.tokenLen), UInt8.ofNat msg.msgCode,
      UInt8.ofNat (msg.msgId / 256), UInt8.ofNat msg.msgId]
  else none

/-- The token: the place of `token_len` octets, zero where there is no token to copy. -/
def tokenBuild (msg : SnCoapHdr) : Option (List UInt8) :=
  match msg.tokenPtr with
  | some ptr => readOctets ptr 0 msg.tokenLen
  | none => some (List.replicate msg.tokenLen 0)

/-- The length of the ETag as `*(uint16_t *)&etag_len` reads it: the octet behind `etag_len` holds
    the two flags. -/
def SnCoapOptionsList.etagLen16 (options : SnCoapOptionsList) : Nat :=
  options.etagLen + 2 ^ 8 * options.useSize1.toNat + 2 ^ 9 * options.useSize2.toNat

/-- The ETag that is written, if there is one. -/
def SnCoapOptionsList.etagSource (options : SnCoapOptionsList) : Option (Option (List UInt8)) :=
  match options.etagPtr with
  | some ptr => (readOctets ptr 0 options.etagLen16).map some
  | none => some none

namespace SnCoapOptionsList

def maxAgeOption (options : SnCoapOptionsList) : Option Nat :=
  if options.maxAge = maxAgeDefault then none else some options.maxAge

def size1Option (options : SnCoapOptionsList) : Option Nat :=
  if options.useSize1 then some options.size1 else none

def size2Option (options : SnCoapOptionsList) : Option Nat :=
  if options.useSize2 then some options.size2 else none

end SnCoapOptionsList

/-- The Uri-Path that is written: none in a notification. -/
def SnCoapHdr.uriPathSource (msg : SnCoapHdr) : Option (List UInt8) :=
  match msg.optionsList with
  | none => msg.uriPath
  | some options => if options.observe = none then msg.uriPath else none

def etagBuild (w : Writer) (options : SnCoapOptionsList) : Option Writer :=
  options.etagSource.bind fun etag => optionsBuildAddMultipleOption w etag .etag

/-- The options in front of the Uri-Path, if there is a list of options. -/
def optionsBuildFirst (w : Writer) : Option SnCoapOptionsList → Option Writer
  | none => some w
  | some options => do
      let w := optionsBuildAddOneOption w options.uriHost .uriHost
      let w ← etagBuild w options
      let w := optionsBuildAddUintOption w options.observe .observe
      let w := optionsBuildAddUintOption w options.uriPort .uriPort
      optionsBuildAddMultipleOption w options.locationPath .locationPath

/-- The options behind the Content-Format. -/
def optionsBuildLast (w : Writer) : Option SnCoapOptionsList → Option Writer
  | none => some w
  | some options => do
      let w := optionsBuildAddUintOption w options.maxAgeOption .maxAge
      let w ← optionsBuildAddMultipleOption w options.uriQuery .uriQuery
      let w := optionsBuildAddUintOption w options.accept .accept
      let w ← optionsBuildAddMultipleOption w options.locationQuery .locationQuery
      let w := optionsBuildAddUintOption w options.block2 .block2
      let w := optionsBuildAddUintOption w options.block1 .block1
      let w := optionsBuildAddUintOption w options.size2Option .size2
      let w := optionsBuildAddOneOption w options.proxyUri .proxyUri
      some (optionsBuildAddUintOption w options.size1Option .size1)

/-- `sn_coap_builder_options_build`: what is written behind the header. -/
def optionsBuild (packet : List UInt8) (msg : SnCoapHdr) : Option (List UInt8) :=
  if msg.uriPath = none ∧ msg.tokenPtr = none ∧ msg.contentFormat = none ∧
      msg.optionsList = none then some packet
  else do
    let token ← tokenBuild msg
    let w ← optionsBuildFirst ⟨packet ++ token, 0⟩ msg.optionsList
    let w ← optionsBuildAddMultipleOption w msg.uriPathSource .uriPath
    let w := optionsBuildAddUintOption w msg.contentFormat .contentFormat
    let w ← optionsBuildLast w msg.optionsList
    some w.packet

/-- `sn_coap_builder_payload_build` -/
def payloadBuild (packet : List UInt8) (msg : SnCoapHdr) : Option (List UInt8) :=
  match msg.payloadPtr with
  | none => some packet
  | some ptr =>
      if msg.payloadLen = 0 then some packet
      else (readOctets ptr 0 msg.payloadLen).map fun payload => packet ++ 0xff :: payload

/-! ## How many octets are needed -/

/-- The check of the length of a part, by the number of the option. -/
def partLengthOk : CoapOption → Nat → Bool
  | .etag, len => 1 ≤ len && len ≤ 8
  | .locationPath, len | .uriPath, len | .locationQuery, len => len ≤ 255
  | .uriQuery, len => 1 ≤ len && len ≤ 255
  | _, _ => true

/-- What a part adds to the size of its string. -/
def partSize (len : Nat) : Nat :=
  (if len ≤ 12 then 1 else if len < 269 then 2 else if 270 ≤ len ∧ len < 1034 then 3 else 0) + len

/-- `sn_coap_builder_options_calc_option_size` -/
def optionsCalcOptionSize (query : List UInt8) (option : CoapOption) : Nat :=
  let lengths := (List.range (optionsGetOptionPartCount query option)).map fun i =>
    optionsGetOptionPartLength query i option
  if lengths.all (partLengthOk option) then (lengths.map partSize).sum % 2 ^ 16 else 0

/-- What a string of several parts adds, if there is one. -/
def calcMultiple (src : Option (List UInt8)) (option : CoapOption) : Option Nat :=
  match src with
  | none => some 0
  | some query =>
      if optionsCalcOptionSize query option = 0 then none
      else some (optionsCalcOptionSize query option)

/-- What an integer adds, if it is used: `sn_coap_builder_options_build_add_uint_option` with no
    place to write to. -/
def calcUint (value : Option Nat) (max : Nat) : Option Nat :=
  match value with
  | none => some 0
  | some v => if max < v then none else some (1 + (uintOptionPayload v).length)

def calcToken (msg : SnCoapHdr) : Option Nat :=
  match msg.tokenPtr with
  | none => some 0
  | some _ => if 8 < msg.tokenLen ∨ msg.tokenLen < 1 then none else some msg.tokenLen

def calcProxyUri (src : Option (List UInt8)) : Option Nat :=
  match src with
  | none => some 0
  | some uri =>
      if 1 ≤ uri.length ∧ uri.length ≤ 12 then some (1 + uri.length)
      else if 13 ≤ uri.length ∧ uri.length ≤ 269 then some (2 + uri.length)
      else if 270 ≤ uri.length ∧ uri.length ≤ 1034 then some (3 + uri.length)
      else none

def calcUriHost (src : Option (List UInt8)) : Option Nat :=
  match src with
  | none => some 0
  | some host =>
      if 0 < host.length ∧ host.length ≤ 12 then some (1 + host.length)
      else if 13 ≤ host.length ∧ host.length ≤ 255 then some (2 + host.length)
      else none

/-- The ETag counts with the length that is stored, not with the one that is read when it is
    written. -/
def SnCoapOptionsList.etagCounted (options : SnCoapOptionsList) : Option (List UInt8) :=
  options.etagPtr.map (·.take options.etagLen)

/-- What the list of options adds, if there is one. -/
def calcOptions : Option SnCoapOptionsList → Option Nat
  | none => some 0
  | some options => do
      let accept ← calcUint options.accept 0xffff
      let maxAge ← calcUint options.maxAgeOption 0xffffffff
      let proxyUri ← calcProxyUri options.proxyUri
      let etag ← calcMultiple options.etagCounted .etag
      let uriHost ← calcUriHost options.uriHost
      let locationPath ← calcMultiple options.locationPath .locationPath
      let uriPort ← calcUint options.uriPort 0xffff
      let locationQuery ← calcMultiple options.locationQuery .locationQuery
      let observe ← calcUint options.observe 0xffffff
      let uriQuery ← calcMultiple options.uriQuery .uriQuery
      let block1 ← calcUint options.block1 0xffffff
      let size1 ← calcUint options.size1Option 0xffffffff
      let block2 ← calcUint options.block2 0xffffff
      let size2 ← calcUint options.size2Option 0xffffffff
      some (accept + maxAge + proxyUri + etag + uriHost + locationPath + uriPort + locationQuery +
        observe + uriQuery + block1 + size1 + block2 + size2)

/-- The payload that is counted: not more than a block. -/
def calcPayload (payloadLen blockwisePayloadSize : Nat) : Nat :=
  (if blockwisePayloadSize < payloadLen ∧ 0 < blockwisePayloadSize then blockwisePayloadSize
    else payloadLen) + if payloadLen = 0 then 0 else 1

/-- `previous_option_number` and `needed_space` of `sn_coap_builder_options_calculate_jump_need`,
    behind an option that may be used. -/
def jumpOver (state : Nat × Nat) (option : Bool × CoapOption) : Nat × Nat :=
  if option.1 then
    (option.2.number, state.2 + if 12 < option.2.number - state.1 then 1 else 0)
  else state

/-- The options up to Content-Format, which need no jump, and whether they are used: Uri-Path also
    where it is not written. -/
def jumpLow (msg : SnCoapHdr) (options : SnCoapOptionsList) : List (Bool × CoapOption) :=
  [(options.uriHost.isSome, .uriHost), (options.etagPtr.isSome, .etag),
    (options.observe.isSome, .observe), (options.uriPort.isSome, .uriPort),
    (options.locationPath.isSome, .locationPath), (msg.uriPath.isSome, .uriPath),
    (msg.contentFormat.isSome, .contentFormat)]

def jumpHigh (options : SnCoapOptionsList) : List (Bool × CoapOption) :=
  [(options.maxAgeOption.isSome, .maxAge), (options.uriQuery.isSome, .uriQuery),
    (options.accept.isSome, .accept), (options.locationQuery.isSome, .locationQuery),
    (options.block2.isSome, .block2), (options.block1.isSome, .block1),
    (options.useSize2, .size2), (options.proxyUri.isSome, .proxyUri), (options.useSize1, .size1)]

/-- `sn_coap_builder_options_calculate_jump_need`: the octets for numbers that are too far from the
    one before. -/
def optionsCalculateJumpNeed (msg : SnCoapHdr) : Nat :=
  match msg.optionsList with
  | none => 0
  | some options =>
      if (jumpHigh options).any (·.1) then
        ((jumpHigh options).foldl jumpOver
          (((jumpLow msg options).filter (·.1)).getLast?.elim 0 (·.2.number), 0)).2
      else 0

/-- The sum that `sn_coap_builder_calc_needed_packet_data_size_2` makes, if no check fails. -/
def calcNeeded (msg : SnCoapHdr) (blockwisePayloadSize : Nat) : Option Nat :=
  if msg.msgType = .reset then some 4
  else do
    let token ← calcToken msg
    let uriPath ← calcMultiple msg.uriPathSource .uriPath
    let contentFormat ← calcUint msg.contentFormat 0xffff
    let options ← calcOptions msg.optionsList
    some (4 + token + uriPath + contentFormat + options +
      calcPayload msg.payloadLen blockwisePayloadSize + optionsCalculateJumpNeed msg)

/-- `sn_coap_builder_calc_needed_packet_data_size_2` -/
def snCoapBuilderCalcNeededPacketDataSize2 (msg : SnCoapHdr) (blockwisePayloadSize : Nat) : Nat :=
  (calcNeeded msg blockwisePayloadSize).getD 0 % 2 ^ 16

/-- `sn_coap_builder_2`: what is written from the start of the packet on, or -1. -/
def snCoapBuilder2 (msg : SnCoapHdr) (blockwisePayloadSize : Nat) :
    Option (Except Int (List UInt8)) :=
  if snCoapBuilderCalcNeededPacketDataSize2 msg blockwisePayloadSize = 0 then some (.error (-1))
  else
    match headerBuild msg with
    | none => some (.error (-1))
    | some header =>
        if msg.msgType = .reset then some (.ok header)
        else do
          let packet ← optionsBuild header msg
          let packet ← payloadBuild packet msg
          some (.ok packet)

end LibCoap
end LightDuer
