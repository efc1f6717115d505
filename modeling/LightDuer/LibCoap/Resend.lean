import LightDuer.LibCoap.Message

/-!
# Sending again

The confirmable messages that wait for an answer, as `sn_coap_protocol.c` keeps them
(`ENABLE_RESENDINGS`): a list of packets with the time at which each is due, looked at by
`sn_coap_protocol_exec`.

A message enters the list at the end of `sn_coap_protocol_build`, if there is room for it, and
leaves it in one of four ways: it has been sent again as often as is set and fails; an answer is
matched with it by ID and address; the application deletes it by its ID; or the whole list is
cleared.
Nothing in the list says which of the messages with one ID and address is meant, and the code takes
the first.

* **An answer is `answered` here only where it comes to the end of `sn_coap_protocol_parse`.**
  Before that it has been parsed, its header has been found valid, it is no duplicate, and if it has
  a block option `sn_coap_handle_blockwise_message` has given it back. An acknowledgement for which
  that function returns `NULL` leaves the list as it is.
* **The clock is what `sn_coap_protocol_exec` was last given**, also for a message that is sent in
  between (`firstDue`).
* Memory is not short, and the callbacks do not call the library.
-/

set_option autoImplicit false

namespace LightDuer
namespace LibCoap

/-- `sn_nsdl_addr_s`: the octets of an address, and the port. -/
structure SnNsdlAddr where
  addrPtr : List UInt8
  port : Nat
deriving DecidableEq, Repr

/-- `memcmp` over as many octets as the first address has, and the two ports. -/
def SnNsdlAddr.same (src stored : SnNsdlAddr) : Bool :=
  src.addrPtr == stored.addrPtr.take src.addrPtr.length && stored.port == src.port

theorem SnNsdlAddr.same_self (addr : SnNsdlAddr) : addr.same addr = true := by
  simp [same]

/-- `coap_send_msg_s`, with the fields of its `sn_nsdl_transmit_s` that are read. -/
structure CoapSendMsg where
  resendingCounter : Nat
  resendingTime : Nat
  packet : List UInt8
  dstAddr : SnNsdlAddr
  uriPath : List UInt8
deriving DecidableEq, Repr

/-- The message ID in a packet. -/
def packetMsgId (packet : List UInt8) : Nat :=
  (packet.getD 2 0).toNat * 2 ^ 8 + (packet.getD 3 0).toNat

namespace CoapSendMsg

def msgId (msg : CoapSendMsg) : Nat := packetMsgId msg.packet

/-- The stored message that an answer from this address is for. -/
def answeredBy (msg : CoapSendMsg) (src : SnNsdlAddr) (msgId : Nat) : Bool :=
  msg.msgId == msgId && src.same msg.dstAddr

end CoapSendMsg

/-- What `struct coap_s` has for sending again, with the values of `sn_coap_protocol_init`. -/
structure Resending where
  linkedListResentMsgs : List CoapSendMsg := []
  countResentMsgs : Nat := 0
  systemTime : Nat := 0
  resendingQueueMsgs : Nat := 2
  resendingQueueBytes : Nat := 0
  resendingCount : Nat := 3
  resendingIntervall : Nat := 10
deriving DecidableEq, Repr

/-- What the library does about a stored message. -/
inductive SendEvent
  | resent (now : Nat) (packet : List UInt8) (dst : SnNsdlAddr)
  | sendingFailed (now : Nat) (packet : List UInt8) (dst : SnNsdlAddr)
deriving DecidableEq, Repr

/-- `sn_coap_count_linked_list_size` -/
def countLinkedListSize (msgs : List CoapSendMsg) : Nat :=
  (msgs.map (·.packet.length)).sum % 2 ^ 16

namespace Resending

variable (s : Resending)

/-- `sn_coap_protocol_linked_list_send_msg_store` -/
def sendMsgStore (dst : SnNsdlAddr) (packet : List UInt8) (sendingTime : Nat)
    (uriPath : List UInt8) : Resending :=
  if (s.resendingQueueMsgs = 0 ∧ s.resendingQueueBytes = 0) ∨ s.resendingCount = 0 then s
  else if 0 < s.resendingQueueMsgs ∧ s.resendingQueueMsgs ≤ s.countResentMsgs then s
  else if 0 < s.resendingQueueBytes ∧
      s.resendingQueueBytes < countLinkedListSize s.linkedListResentMsgs + packet.length then s
  else
    { s with
      linkedListResentMsgs := s.linkedListResentMsgs ++
        [{ resendingCounter := 0, resendingTime := sendingTime, packet, dstAddr := dst, uriPath }]
      countResentMsgs := (s.countResentMsgs + 1) % 2 ^ 16 }

/-- When a message that is sent now is due: the time is that of the last
    `sn_coap_protocol_exec`. -/
def firstDue : Nat := (s.systemTime + s.resendingIntervall) % 2 ^ 32

/-- What `sn_coap_protocol_build` keeps of a packet. The length of the Uri-Path is handed over as a
    `uint8_t`, so of a path of 256 octets and more a beginning is kept, or none. -/
def build (dst : SnNsdlAddr) (msgType : MsgType) (packet : List UInt8) (uriPath : List UInt8) :
    Resending :=
  if msgType = .confirmable then
    s.sendMsgStore dst packet s.firstDue (uriPath.take (uriPath.length % 2 ^ 8))
  else s

/-- `sn_coap_protocol_linked_list_send_msg_search` -/
def sendMsgSearch (src : SnNsdlAddr) (msgId : Nat) : Option CoapSendMsg :=
  s.linkedListResentMsgs.find? (·.answeredBy src msgId)

/-- `sn_coap_protocol_linked_list_send_msg_remove` -/
def sendMsgRemove (src : SnNsdlAddr) (msgId : Nat) : Resending :=
  match s.sendMsgSearch src msgId with
  | none => s
  | some _ =>
      { s with
        linkedListResentMsgs := s.linkedListResentMsgs.eraseP (·.answeredBy src msgId)
        countResentMsgs := (s.countResentMsgs + 2 ^ 16 - 1) % 2 ^ 16 }

/-- The end of `sn_coap_protocol_parse`, for a message that has come so far: an acknowledgement or a
    reset stops the message that it is for. The Uri-Path of a message that was reset is handed
    on. -/
def answered (src : SnNsdlAddr) (msgType : MsgType) (msgId : Nat) :
    Resending × Option (List UInt8) :=
  if (msgType = .acknowledgement ∨ msgType = .reset) ∧ 0 < s.countResentMsgs then
    match s.sendMsgSearch src msgId with
    | none => (s, none)
    | some msg => (s.sendMsgRemove src msgId,
        if msgType = .reset ∧ msg.uriPath ≠ [] then some msg.uriPath else none)
  else (s, none)

/-- The loop of `sn_coap_protocol_exec`, with the messages that it has behind it and those to come.
    A message that has failed is removed by its address and its ID, so it is it or one in front of
    it with the same that goes. -/
def execLoop (now : Nat) :
    Resending → List CoapSendMsg → List CoapSendMsg → Resending × List SendEvent
  | s, done, [] => ({ s with linkedListResentMsgs := done }, [])
  | s, done, msg :: msgs =>
      if msg.resendingTime ≤ now then
        let msg := { msg with resendingCounter := (msg.resendingCounter + 1) % 2 ^ 8 }
        if s.resendingCount < msg.resendingCounter then
          let removed := { s with linkedListResentMsgs := done ++ [msg] }.sendMsgRemove msg.dstAddr
            msg.msgId
          let rest := execLoop now removed removed.linkedListResentMsgs msgs
          (rest.1, .sendingFailed now msg.packet msg.dstAddr :: rest.2)
        else
          let time := (now + s.resendingIntervall * 2 ^ msg.resendingCounter) % 2 ^ 32
          let rest := execLoop now s (done ++ [{ msg with resendingTime := time }]) msgs
          (rest.1, .resent now msg.packet msg.dstAddr :: rest.2)
      else execLoop now s (done ++ [msg]) msgs

/-- `sn_coap_protocol_exec` -/
def exec (now : Nat) : Resending × List SendEvent :=
  execLoop now { s with systemTime := now } [] s.linkedListResentMsgs

/-- `sn_coap_protocol_delete_retransmission` -/
def deleteRetransmission (msgId : Nat) : Resending × Int :=
  match s.linkedListResentMsgs.find? (·.msgId == msgId) with
  | none => (s, -2)
  | some _ =>
      ({ s with
        linkedListResentMsgs := s.linkedListResentMsgs.eraseP (·.msgId == msgId)
        countResentMsgs := (s.countResentMsgs + 2 ^ 16 - 1) % 2 ^ 16 }, 0)

/-- `sn_coap_protocol_clear_retransmission_buffer` -/
def clearRetransmissionBuffer : Resending :=
  { s with
    linkedListResentMsgs := []
    countResentMsgs :=
      (s.countResentMsgs + 2 ^ 16 - s.linkedListResentMsgs.length % 2 ^ 16) % 2 ^ 16 }

/-- `sn_coap_protocol_set_retransmission_parameters`: at most `SN_COAP_MAX_ALLOWED_RESENDING_COUNT`
    times and `SN_COAP_MAX_ALLOWED_RESPONSE_TIMEOUT` seconds. -/
def setRetransmissionParameters (resendingCount resendingIntervall : Nat) : Resending × Int :=
  if resendingCount ≤ 6 ∧ resendingIntervall ≤ 40 then
    ({ s with
      resendingCount
      resendingIntervall := if resendingIntervall = 0 then 1 else resendingIntervall }, 0)
  else (s, -1)

/-- `sn_coap_protocol_set_retransmission_buffer`: at most
    `SN_COAP_MAX_ALLOWED_RESENDING_BUFF_SIZE_MSGS` messages and
    `SN_COAP_MAX_ALLOWED_RESENDING_BUFF_SIZE_BYTES` octets; the octets are kept as a `uint8_t`. -/
def setRetransmissionBuffer (bufferSizeMessages bufferSizeBytes : Nat) : Resending × Int :=
  if bufferSizeBytes ≤ 512 ∧ bufferSizeMessages ≤ 6 then
    ({ s with
      resendingQueueBytes := bufferSizeBytes % 2 ^ 8
      resendingQueueMsgs := bufferSizeMessages }, 0)
  else (s, -1)

end Resending

/-- What the application, the network and the clock have the library do. -/
inductive ResendAction
  | build (dst : SnNsdlAddr) (msgType : MsgType) (packet : List UInt8) (uriPath : List UInt8)
  | answered (src : SnNsdlAddr) (msgType : MsgType) (msgId : Nat)
  | exec (now : Nat)
  | delete (msgId : Nat)
  | clear
  | setParameters (resendingCount resendingIntervall : Nat)
  | setBuffer (bufferSizeMessages bufferSizeBytes : Nat)
deriving DecidableEq, Repr

/-- The state then, and what was done. -/
def Resending.step (s : Resending) : ResendAction → Resending × List SendEvent
  | .build dst msgType packet uriPath => (s.build dst msgType packet uriPath, [])
  | .answered src msgType msgId => ((s.answered src msgType msgId).1, [])
  | .exec now => s.exec now
  | .delete msgId => ((s.deleteRetransmission msgId).1, [])
  | .clear => (s.clearRetransmissionBuffer, [])
  | .setParameters count intervall => ((s.setRetransmissionParameters count intervall).1, [])
  | .setBuffer msgs bytes => ((s.setRetransmissionBuffer msgs bytes).1, [])

end LibCoap
end LightDuer
