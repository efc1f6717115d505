import LightDuer.LibCoap.Wire

/-!
# Two ends and the packets between them

What one end sends the other one does not get as a message: it gets a packet, and parses it. Here
the library is at both ends. A message is on its way from one of them to the other; it is built by
the one, in the octets that were counted for it, parsed by the other, and handed to
`sn_coap_protocol_parse` there. What that sends is on its way back then.

No packet is lost, none comes twice, and nothing else is sent. The memory behind a packet is
arbitrary, as the parser reads it: a message arrives as another one only if that is what is parsed
with whatever is there.

## What is given, and when

`Given n e msg` says that an application is given `msg` after `n` more messages on the way. It is a
relation, and says nothing where a message does not arrive at all: what it relates is what must have
happened. A statement that something is given is therefore proved by showing each message on the way
to be conveyed, and one that nothing else is given by showing that whatever arrives arrives as one
thing (`Conveyed.unique`, `Arrives.unique`).

`given_zero` and `given_succ` are how the second kind is used: for a message that is `Legible`,
which arrives as the one that is read if it arrives, they turn what is given into what
`sn_coap_protocol_parse` makes of it, and what is given later into what becomes of a message that it
sends.
-/

set_option autoImplicit false

namespace LightDuer
namespace LibCoap

open Lib

/-! ## One message -/

/-- The packet is these octets, in some memory. -/
def Packet.Of (packet : Packet) (octets : List UInt8) : Prop :=
  packet.len = octets.length ∧ Holds packet.mem 0 octets

/-- The first message is built in blocks of this size, to as many octets as were counted for them,
    and is parsed as the second one, whatever is behind the packet. -/
def Conveyed (size : Nat) (msg msg' : SnCoapHdr) : Prop :=
  ∃ octets, snCoapBuilder2 msg size = some (.ok octets) ∧
    octets.length = snCoapBuilderCalcNeededPacketDataSize2 msg size ∧
      (∃ packet : Packet, packet.Of octets) ∧
        ∀ packet : Packet, packet.Of octets →
          Settles packet.snCoapParser (some (coapVersion1, msg'))

/-- From whatever the message is built to, it is parsed as `SnCoapHdr.read` says. -/
def Legible (msg : SnCoapHdr) : Prop :=
  ∀ size octets, snCoapBuilder2 msg size = some (.ok octets) → ∀ packet : Packet,
    packet.Of octets → Settles packet.snCoapParser (some (coapVersion1, msg.read))

section Conveyed

variable {size : Nat} {msg m m' : SnCoapHdr}

/-- A message arrives as one other message. -/
theorem Conveyed.unique (h : Conveyed size msg m) (h' : Conveyed size msg m') : m = m' := by
  obtain ⟨octets, hbuild, -, ⟨packet, hpacket⟩, hparse⟩ := h
  obtain ⟨octets', hbuild', -, -, hparse'⟩ := h'
  obtain rfl := Except.ok.inj (Option.some.inj (hbuild.symm.trans hbuild'))
  exact congrArg Prod.snd
    (Option.some.inj ((hparse packet hpacket).unique (hparse' packet hpacket)))

theorem Legible.eq_read (h : Legible msg) (hm : Conveyed size msg m) : m = msg.read := by
  obtain ⟨octets, hbuild, -, ⟨packet, hpacket⟩, hparse⟩ := hm
  exact congrArg Prod.snd
    (Option.some.inj ((hparse packet hpacket).unique (h size octets hbuild packet hpacket)))

end Conveyed

/-! ## Both ends -/

/-- An end: the address that the other one sees it under, and its state. -/
structure End where
  addr : SnNsdlAddr
  coap : CoapS

/-- A message on its way to the one end from the other. -/
structure Exchange where
  here : End
  peer : End
  msg : SnCoapHdr

namespace Exchange

/-- The message arrives, and this is what `sn_coap_protocol_parse` makes of it. -/
def Arrives (e : Exchange) (handled : Handled) : Prop :=
  ∃ msg, Conveyed e.peer.coap.blockDataSize e.msg msg ∧
    e.here.coap.protocolParse e.peer.addr coapVersion1 msg = some handled

/-- What is on its way back then. -/
def back (e : Exchange) (handled : Handled) (msg : SnCoapHdr) : Exchange :=
  ⟨e.peer, ⟨e.here.addr, handled.coap⟩, msg⟩

/-- The application at the other end is given this message, after `n` more on the way: it is the
    application of the end that this one is on its way to if `n` is even. -/
def Given : Nat → Exchange → SnCoapHdr → Prop
  | 0, e, msg => ∃ handled, e.Arrives handled ∧ handled.result = some msg
  | n + 1, e, msg => ∃ handled, e.Arrives handled ∧
      ∃ next ∈ handled.sent, Given n (e.back handled next) msg

variable {e : Exchange} {handled handled' : Handled} {msg : SnCoapHdr}

theorem Arrives.unique (h : e.Arrives handled) (h' : e.Arrives handled') : handled = handled' := by
  obtain ⟨m, hm, hparse⟩ := h
  obtain ⟨m', hm', hparse'⟩ := h'
  rw [hm.unique hm', hparse'] at hparse
  exact (Option.some.inj hparse).symm

theorem Arrives.parsed (h : Legible e.msg) (harrives : e.Arrives handled) :
    e.here.coap.protocolParse e.peer.addr coapVersion1 e.msg.read = some handled := by
  obtain ⟨m, hm, hparse⟩ := harrives
  rw [← h.eq_read hm]
  exact hparse

/-- What is given to the application with a message. -/
theorem given_zero (h : Legible e.msg)
    (hparse : e.here.coap.protocolParse e.peer.addr coapVersion1 e.msg.read = some handled)
    (hgiven : Given 0 e msg) : handled.result = some msg := by
  obtain ⟨handled', harrives, hresult⟩ := hgiven
  have hhandled := (harrives.parsed h).symm.trans hparse
  rw [Option.some.inj hhandled] at hresult
  exact hresult

/-- What is given later is what becomes of the message that is sent. -/
theorem given_succ (h : Legible e.msg)
    (hparse : e.here.coap.protocolParse e.peer.addr coapVersion1 e.msg.read = some handled)
    {n : Nat} (hgiven : Given (n + 1) e msg) :
    ∃ next ∈ handled.sent, Given n (e.back handled next) msg := by
  obtain ⟨handled', harrives, hnext⟩ := hgiven
  have hhandled := (harrives.parsed h).symm.trans hparse
  rw [Option.some.inj hhandled] at hnext
  exact hnext

end Exchange

end LibCoap
end LightDuer
