import LightDuer.LibCoap.Builder
import LightDuer.LibCoap.Resend

/-!
# Blockwise messages

`sn_coap_protocol.c` with `SN_COAP_MAX_BLOCKWISE_PAYLOAD_SIZE`, and without detection of duplicates.
A payload that does not fit into a block is kept, and the next block of it is sent as the peer asks
for it; the blocks that the peer sends are kept one by one, and put together behind the last. What
is written behind what was allocated for the whole is undefined behaviour: `none`. Memory is not
short.

## The state

`CoapS` has the three lists of `struct coap_s` and the two settings that matter: the messages that
wait for an acknowledgement (`Resending`, a module of its own), the messages that are kept for the
blocks that have not been sent yet, and the payloads that have come. The message ID is a global
variable of the library and is kept in the same place.

## One received message

`sn_coap_handle_blockwise_message` tells four situations apart, by Block1 or Block2 and by whether
the message is a request: the peer has acknowledged a block of ours (`sendBlock1`), sends a block of
a request (`receiveBlock1`) or of a response (`receiveBlock2`), or asks for a block of ours
(`sendBlock2`). Each is a function here, and gives a `Handled`: the state then, what is built and
sent to the peer at once, and the message that is given to the application.

The lists are searched in the order of their entries, and by what the source looks for: a stored
message by its ID, in one case by nothing at all; a payload by its address, while the loop that puts
payloads together removes the first one of whatever address. These are kept as they are. Lengths are
of sixteen bits, and what is computed with `int` before it is kept in them is so here
(`restLength`).
-/

set_option autoImplicit false

namespace LightDuer
namespace LibCoap

/-- `coap_blockwise_msg_s` -/
structure CoapBlockwiseMsg where
  timestamp : Nat
  coapMsg : SnCoapHdr
deriving DecidableEq, Repr

/-- `coap_blockwise_payload_s` -/
structure CoapBlockwisePayload where
  timestamp : Nat
  addr : SnNsdlAddr
  payload : List UInt8
deriving DecidableEq, Repr

/-- `struct coap_s`, and the `message_id` of the library. -/
structure CoapS where
  resending : Resending := {}
  blockwiseSentMsgs : List CoapBlockwiseMsg := []
  blockwiseReceivedPayloads : List CoapBlockwisePayload := []
  blockDataSize : Nat := 1024
  messageId : Nat := 100
deriving DecidableEq, Repr

/-- `sn_coap_convert_block_size` -/
def snCoapConvertBlockSize (blockSize : Nat) : Nat :=
  if blockSize = 16 then 0
  else if blockSize = 32 then 1
  else if blockSize = 64 then 2
  else if blockSize = 128 then 3
  else if blockSize = 256 then 4
  else if blockSize = 512 then 5
  else if blockSize = 1024 then 6
  else 0

/-- The blocks are numbered from the fifth bit of the option on; below are the flag for more to
    come, and the size. -/
def blockOption (number : Nat) (more : Bool) (blockTemp : Nat) : Nat :=
  number * 16 + (if more then 8 else 0) + blockTemp

def blockNumber (option : Nat) : Nat := option / 16

def blockMore (option : Nat) : Bool := option / 8 % 2 == 1

def blockTemp (option : Nat) : Nat := option % 8

/-- The code of a response is behind those of the requests. -/
def responseCreated : Nat := 65

/-- `sn_coap_protocol_copy_header`; what it does not copy is as the parser allocates it. -/
def copyHeader (source : SnCoapHdr) : SnCoapHdr where
  coapStatus := source.coapStatus
  msgType := source.msgType
  msgCode := source.msgCode
  msgId := source.msgId
  uriPath := source.uriPath
  tokenLen := if source.tokenPtr = none then 0 else source.tokenLen
  tokenPtr := source.tokenPtr.map (·.take source.tokenLen)
  contentFormat := source.contentFormat
  optionsList := source.optionsList.map fun options =>
    { maxAge := options.maxAge
      proxyUri := options.proxyUri
      etagLen := if options.etagPtr = none then 0 else options.etagLen
      etagPtr := options.etagPtr.map (·.take options.etagLen)
      uriHost := options.uriHost
      locationPath := options.locationPath
      uriPort := options.uriPort
      locationQuery := options.locationQuery
      observe := options.observe
      accept := options.accept
      uriQuery := options.uriQuery
      block1 := options.block1
      block2 := options.block2 }

/-- The rest of a length, computed in 32 bits and kept in 16. -/
def restLength (len skipped : Nat) : Nat := (((len : Int) - skipped) % 2 ^ 16).toNat

/-- What is sent of a payload for a block, and whether there is more to come. -/
def SnCoapHdr.block (msg : SnCoapHdr) (blockSize number : Nat) : SnCoapHdr × Bool :=
  let rest := msg.payloadPtr.map (·.drop (blockSize * number))
  if msg.payloadLen < blockSize * (number + 1) then
    ({ msg with
      payloadLen := restLength msg.payloadLen (blockSize * number)
      payloadPtr := rest }, false)
  else ({ msg with payloadLen := blockSize, payloadPtr := rest }, true)

/-- The request with the block behind the one that has been acknowledged, in blocks of the size in
    the acknowledgement. An option has three octets, so no product with a block number is too
    large. -/
def SnCoapHdr.nextBlock (stored : SnCoapHdr) (block1 messageId : Nat) : SnCoapHdr :=
  let number := blockNumber block1 + 1
  let block := stored.block (2 ^ (blockTemp block1 + 4)) number
  { block.1 with
    optionsList := some { stored.allocOptions with
      block1 := some (blockOption number block.2 (blockTemp block1))
      block2 := none }
    msgId := messageId }

namespace CoapS

variable (s : CoapS)

/-- Whether a payload is sent in blocks. -/
def Blockwise (msg : SnCoapHdr) : Prop := s.blockDataSize < msg.payloadLen ∧ 0 < s.blockDataSize

instance (msg : SnCoapHdr) : Decidable (s.Blockwise msg) := inferInstanceAs (Decidable (_ ∧ _))

/-- `sn_coap_protocol_set_block_size` -/
def setBlockSize (blockSize : Nat) : CoapS × Int :=
  if blockSize ∈ [0, 16, 32, 64, 128, 256, 512, 1024] then
    ({ s with blockDataSize := blockSize }, 0)
  else (s, -1)

/-- `prepare_blockwise_message` -/
def prepareBlockwiseMessage (msg : SnCoapHdr) : SnCoapHdr :=
  if s.Blockwise msg then
    let first := blockOption 0 true (snCoapConvertBlockSize s.blockDataSize)
    if msg.msgCode < responseCreated then
      { msg with
        optionsList := some { msg.allocOptions with
          block1 := some first
          useSize1 := true
          useSize2 := false
          size1 := msg.payloadLen } }
    else
      { msg with
        optionsList := some { msg.allocOptions with
          block2 := some first
          useSize1 := false
          useSize2 := true
          size2 := msg.payloadLen } }
  else msg

/-- The next message ID of the library: it never is zero. -/
def nextMessageId : Nat := if (s.messageId + 1) % 2 ^ 16 = 0 then 1 else (s.messageId + 1) % 2 ^ 16

/-- The message ID that `sn_coap_protocol_build` gives a message that has none. -/
def giveMsgId (msg : SnCoapHdr) : CoapS × SnCoapHdr :=
  if msg.msgType ≠ .acknowledgement ∧ msg.msgType ≠ .reset ∧ msg.msgId = 0 then
    ({ s with messageId := s.nextMessageId }, { msg with msgId := s.messageId })
  else (s, msg)

/-- A message that is sent is kept for its next blocks, with the whole payload; and a GET for the
    blocks of its response. The length of what is sent is in the message. -/
def storeBlockwise (msg : SnCoapHdr) (originalPayloadLen : Nat) : CoapS :=
  let stored : SnCoapHdr := copyHeader msg
  if s.blockDataSize < originalPayloadLen ∧ 0 < s.blockDataSize then
    { s with
      blockwiseSentMsgs := s.blockwiseSentMsgs ++
        [{ timestamp := s.resending.systemTime
           coapMsg := { stored with
             payloadLen := originalPayloadLen
             payloadPtr := msg.payloadPtr.map (·.take originalPayloadLen) } }] }
  else if msg.msgCode = 1 then
    { s with
      blockwiseSentMsgs := s.blockwiseSentMsgs ++
        [{ timestamp := s.resending.systemTime, coapMsg := stored }] }
  else s

/-- `sn_coap_protocol_build`: the packet, the message as the caller has it then, and the state. -/
def protocolBuild (dst : SnNsdlAddr) (src : SnCoapHdr) :
    Option (Except Int (List UInt8) × SnCoapHdr × CoapS) := do
  let (s, msg) := s.giveMsgId src
  let sent := if s.Blockwise msg then { msg with payloadLen := s.blockDataSize } else msg
  match ← snCoapBuilder2 sent s.blockDataSize with
  | .error e => some (.error e, sent, s)
  | .ok packet =>
      -- the number of octets is an `int16_t`
      if 2 ^ 15 ≤ packet.length % 2 ^ 16 then
        some (.error (packet.length % 2 ^ 16 - 2 ^ 16), sent, s)
      else
        let s := { s with
          resending := s.resending.build dst msg.msgType packet (msg.uriPath.getD []) }
        some (.ok packet, sent,
          s.storeBlockwise sent (if s.Blockwise msg then msg.payloadLen else 0))

/-! ## The payloads that are received -/

/-- `sn_coap_protocol_linked_list_blockwise_payload_store` -/
def blockwisePayloadStore (addr : SnNsdlAddr) (payloadLen : Nat) (payload : Option (List UInt8)) :
    CoapS :=
  match payload with
  | none => s
  | some octets =>
      if payloadLen = 0 then s
      else
        { s with
          blockwiseReceivedPayloads := s.blockwiseReceivedPayloads ++
            [{ timestamp := s.resending.systemTime, addr, payload := octets.take payloadLen }] }

/-- `sn_coap_protocol_linked_list_blockwise_payloads_get_len` -/
def blockwisePayloadsGetLen (src : SnNsdlAddr) : Nat :=
  ((s.blockwiseReceivedPayloads.filter (src.same ·.addr)).map (·.payload.length)).sum

/-- The loop that puts the payloads together: it copies the first of this address, and removes the
    oldest of all. Where the two are not the same, the payload of another peer is lost, and the one
    of this peer is copied again in the next round. -/
def copyPayloads (src : SnNsdlAddr) :
    List CoapBlockwisePayload → List UInt8 × List CoapBlockwisePayload
  | [] => ([], [])
  | p :: ps =>
      match (p :: ps).find? (src.same ·.addr) with
      | none => ([], p :: ps)
      | some found =>
          let rest := copyPayloads src ps
          (found.payload ++ rest.1, rest.2)

/-- The payloads of this address put together in as many octets as were allocated, and the state
    without them. -/
def assemble (src : SnNsdlAddr) (wholePayloadLen : Nat) : Option (List UInt8 × CoapS) :=
  let copied := copyPayloads src s.blockwiseReceivedPayloads
  if wholePayloadLen < copied.1.length then none
  else some (copied.1, { s with blockwiseReceivedPayloads := copied.2 })

/-- `sn_coap_protocol_block_remove` -/
def blockRemove (src : SnNsdlAddr) (payload : List UInt8) : CoapS :=
  { s with
    blockwiseReceivedPayloads :=
      s.blockwiseReceivedPayloads.eraseP fun p => src.same p.addr && p.payload == payload }

/-- Whether what has this timestamp is kept for more than
    `SN_COAP_BLOCKWISE_MAX_TIME_DATA_STORED` seconds. -/
def tooOld (timestamp : Nat) : Bool :=
  10 < (s.resending.systemTime + 2 ^ 32 - timestamp) % 2 ^ 32

/-- `sn_coap_protocol_linked_list_blockwise_remove_old_data` -/
def blockwiseRemoveOldData : CoapS :=
  { s with
    blockwiseSentMsgs := s.blockwiseSentMsgs.filter (!s.tooOld ·.timestamp)
    blockwiseReceivedPayloads := s.blockwiseReceivedPayloads.filter (!s.tooOld ·.timestamp) }

/-! ## `sn_coap_handle_blockwise_message` -/

end CoapS

/-- The state, the messages that are built and sent to the peer, and the message that is given to
    the application. -/
structure Handled where
  coap : CoapS
  sent : List SnCoapHdr
  result : Option SnCoapHdr

namespace CoapS

variable (s : CoapS)

/-- The stored message with an ID, and what is made of it. -/
def updateMsg (msgId : Nat) (f : SnCoapHdr → SnCoapHdr) :
    List CoapBlockwiseMsg → List CoapBlockwiseMsg
  | [] => []
  | m :: ms =>
      if m.coapMsg.msgId = msgId then { m with coapMsg := f m.coapMsg } :: ms
      else m :: updateMsg msgId f ms

/-- A response to a block of a request: the next block is sent. -/
def sendBlock1 (received : SnCoapHdr) (block1 : Nat) : Handled :=
  if blockMore block1 then
    match s.blockwiseSentMsgs.find? (·.coapMsg.msgId = received.msgId) with
    | none => ⟨s, [], some received⟩
    | some stored =>
        let next := stored.coapMsg.nextBlock block1 s.messageId
        ⟨{ s with
            blockwiseSentMsgs := updateMsg received.msgId
              (fun m => { m with optionsList := next.optionsList, msgId := next.msgId })
              s.blockwiseSentMsgs
            messageId := s.nextMessageId },
          [next], some { received with coapStatus := .parserBlockwiseAck }⟩
  else ⟨s, [], some { received with coapStatus := .ok }⟩

/-- The acknowledgement of a block of a request. -/
def block1Ack (received : SnCoapHdr) (block1 : Nat) : SnCoapHdr :=
  let token : SnCoapHdr :=
    match received.tokenPtr with
    | some ptr =>
        if 0 < received.tokenLen ∧ received.tokenLen ≤ 8 then
          { tokenLen := received.tokenLen, tokenPtr := some (ptr.take received.tokenLen) }
        else {}
    | none => {}
  let size := snCoapConvertBlockSize s.blockDataSize
  { token with
    msgCode :=
      if 65535 < received.allocOptions.size1 then 141
      else if received.msgCode = 1 then 69
      else if received.msgCode = 2 then 95
      else if received.msgCode = 3 then 95
      else if received.msgCode = 4 then 66
      else 0
    msgType := .acknowledgement
    msgId := received.msgId
    optionsList := some {
      size1 := if 65535 < received.allocOptions.size1 then 65535 else 0
      block1 := some
        (if size < blockTemp block1 then block1 / 8 * 8 + size else block1) } }

/-- A block of a request. -/
def receiveBlock1 (src : SnNsdlAddr) (received : SnCoapHdr) (block1 : Nat) : Option Handled :=
  let received := { received with payloadLen := min received.payloadLen s.blockDataSize }
  let s := s.blockwisePayloadStore src received.payloadLen received.payloadPtr
  if blockMore block1 then
    some ⟨s, [s.block1Ack received block1],
      some { received with coapStatus := .parserBlockwiseMsgReceiving }⟩
  else
    let wholePayloadLen := s.blockwisePayloadsGetLen src
    if 2 ^ 16 ≤ wholePayloadLen then some ⟨s, [], none⟩
    else (s.assemble src wholePayloadLen).map fun (payload, s) =>
      ⟨s, [], some { received with
        payloadLen := wholePayloadLen
        payloadPtr := some payload
        coapStatus := .parserBlockwiseMsgReceived }⟩

/-- The request for the next block of a response. -/
def block2Request (block2 : Nat) : SnCoapHdr where
  msgId := s.messageId
  optionsList := some { block2 := some (blockOption (blockNumber block2 + 1) false
    (blockTemp block2)) }

/-- A block of a response. -/
def receiveBlock2 (src : SnNsdlAddr) (received : SnCoapHdr) (block2 : Nat) : Option Handled :=
  let s := s.blockwisePayloadStore src received.payloadLen received.payloadPtr
  if blockMore block2 then
    match s.blockwiseSentMsgs.find? (·.coapMsg.msgId = received.msgId) with
    | none => some ⟨s, [], none⟩
    | some _ => do
        let request := s.block2Request block2
        let s := { s with
          blockwiseSentMsgs := s.blockwiseSentMsgs.eraseP (·.coapMsg.msgId = received.msgId)
          messageId := s.nextMessageId }
        match ← snCoapBuilder2 request s.blockDataSize with
        | .error _ => some ⟨s, [], none⟩
        | .ok packet =>
            let resending := s.resending.sendMsgStore src packet s.resending.firstDue []
            some ⟨{ s with
                blockwiseSentMsgs := s.blockwiseSentMsgs ++
                  [{ timestamp := s.resending.systemTime, coapMsg := request }]
                resending },
              [request], some { received with coapStatus := .parserBlockwiseMsgReceiving }⟩
  else
    let wholePayloadLen := s.blockwisePayloadsGetLen src % 2 ^ 16
    (s.assemble src wholePayloadLen).map fun (payload, s) =>
      ⟨s, [], some { received with
        payloadLen := wholePayloadLen
        payloadPtr := some payload
        coapStatus := .parserBlockwiseMsgReceived }⟩

/-- A request for a block of a response. It is taken to be for the message that has been kept for
    the longest time. -/
def sendBlock2 (received : SnCoapHdr) (block2 : Nat) : Handled :=
  match s.blockwiseSentMsgs with
  | [] => ⟨s, [], some received⟩
  | stored :: others =>
      let blockSize := 2 ^ (blockTemp block2 + 4)
      let number := blockNumber block2
      let block := stored.coapMsg.block blockSize number
      let options : SnCoapOptionsList :=
        { stored.coapMsg.allocOptions with
          block1 := none
          block2 := some (if block.2 ∧ blockMore block2 = false then block2 + 8 else block2) }
      let kept := { stored with
        coapMsg := { stored.coapMsg with
          optionsList := some options, msgId := received.msgId } }
      ⟨{ s with
          blockwiseSentMsgs :=
            if stored.coapMsg.payloadLen < blockSize * (number + 1) then others
            else kept :: others },
        [{ block.1 with optionsList := some options, msgId := received.msgId }],
        some { received with coapStatus := .parserBlockwiseAck }⟩

/-- `sn_coap_handle_blockwise_message` -/
def handleBlockwiseMessage (src : SnNsdlAddr) (received : SnCoapHdr) : Option Handled :=
  match received.allocOptions.block1, received.allocOptions.block2 with
  | some block1, _ =>
      if 4 < received.msgCode then some (s.sendBlock1 received block1)
      else s.receiveBlock1 src received block1
  | none, some block2 =>
      if 4 < received.msgCode then s.receiveBlock2 src received block2
      else some (s.sendBlock2 received block2)
  | none, none => some ⟨s, [], some received⟩

/-! ## `sn_coap_protocol_parse` -/

/-- `sn_coap_protocol_send_rst` -/
def rst (msgId : Nat) : SnCoapHdr where
  msgType := .reset
  msgId := msgId

/-- The message is one for `sn_coap_handle_blockwise_message`; else it ends the transfer that has
    its ID. -/
def handleBlocks (src : SnNsdlAddr) (received : SnCoapHdr) : Option Handled :=
  if received.allocOptions.block1.isSome ∨ received.allocOptions.block2.isSome then
    s.handleBlockwiseMessage src received
  else
    some ⟨{ s with
      blockwiseSentMsgs := s.blockwiseSentMsgs.eraseP (·.coapMsg.msgId = received.msgId) },
      [], some received⟩

/-- `sn_coap_protocol_parse`, behind `sn_coap_parser`. -/
def protocolParse (src : SnNsdlAddr) (coapVersion : Nat) (received : SnCoapHdr) :
    Option Handled :=
  if received.coapStatus = .parserErrorInHeader then some ⟨s, [rst received.msgId], none⟩
  else if snCoapHeaderValidityCheck received coapVersion = false then
    some ⟨s, if received.msgCode / 32 ∈ [1, 6, 7] then [rst received.msgId] else [], none⟩
  else if received.msgType = .confirmable ∧ received.msgCode = 0 then
    some ⟨s, [rst received.msgId], none⟩
  else
    (s.handleBlocks src received).map fun handled =>
      match handled.result with
      | none => handled
      | some msg =>
          let (resending, uriPath) :=
            handled.coap.resending.answered src msg.msgType msg.msgId
          ⟨{ handled.coap with resending }, handled.sent,
            some { msg with uriPath := uriPath.or msg.uriPath }⟩

/-- `sn_coap_protocol_exec` -/
def protocolExec (now : Nat) : CoapS × List SendEvent :=
  let s := { s with resending := { s.resending with systemTime := now } }.blockwiseRemoveOldData
  ({ s with resending := (s.resending.exec now).1 }, (s.resending.exec now).2)

end CoapS

end LibCoap
end LightDuer
