import LightDuer.Engine.ConnAgent

/-!
# A frame that arrives

`duer_coap_data_available` asks its transport for the eight octets of a header and, if they are one,
for the message. Each is one result of the transport, so a call is described by the first result, or
the first two: what it returns, what reaches `duer_engine_coap_handler`, and which results it
leaves.

## Results

`Gives w io r io'` says that the next receive gets the result `r` and leaves `io'`. It speaks of
receives of any length at once: a status is returned as it is, and of octets as many are given as
there is room for. With it the functions of the CoAP layer, which work on a buffer and its cursor,
can be run on a result without a look at the buffer.

## The cases of a call

The lemmas of this module are the list of them: a status in place of the header; octets that are no
header, whose count is returned; a header, behind which the call goes on to the message; a header
with a status behind it; and a whole frame, which the library is given. A count of octets that are
no header is positive and is no error, which is why it can be taken for a success further up.

They are what both the loop of the start-up and the registration are proved from. `frameSize` is the
one condition in them: whether octets begin with the header of a message that fits the receive
buffer.
-/

set_option autoImplicit false

namespace LightDuer
namespace Engine

open Lib Net

/-- A result as the count of a connection attempt or a send: the status, or the number of octets
    that were taken. A status is never positive, so a positive count is always one of octets. -/
def TransResult.count : TransResult → Int
  | .status rs _ => rs
  | .octets b => b.length

/-- A result as a receive of at most `need` octets. -/
def TransResult.give {cap : Nat} (data : Buffer cap) (need : Nat) :
    TransResult → Option (Int × Buffer cap)
  | .status rs _ => some (rs, data)
  | .octets b => do
      let data ← data.store 0 (b.take need)
      some ((b.take need).length, data)

/-- The length of the message that octets announce as a header, if they are one and the receive
    buffer has room for it. -/
def frameSize (b : List UInt8) : Option Nat :=
  if (b.take 8).length = 8 ∧ ofBe32 (b.take 8) = duerCoapTcpHdr ∧
      ofBe32 ((b.take 8).drop 4) ≤ duerBufferSize then
    some (ofBe32 ((b.take 8).drop 4))
  else none

section Arrival

variable {σ : Type} {w : Wire σ} {a : Agent} {io io₁ io₂ : σ}

/-- The next receive gets this result. The statement is about a receive of any length into any
    buffer that has the room for it, since the header and the message of a frame are asked for with
    different ones. -/
def Gives (w : Wire σ) (io : σ) (r : TransResult) (io' : σ) : Prop :=
  ∀ {cap : Nat} (data : Buffer cap) (need : Nat), w.recv io data need =
    (r.give data need).map fun x => (x.1, x.2, io')

theorem Gives.recv_status {rs : Int} {hrs : rs ≤ 0} (h : Gives w io (.status rs hrs) io₁)
    {cap : Nat} (data : Buffer cap) (need : Nat) :
    w.recv io data need = some (rs, data, io₁) := by
  rw [h data need]
  rfl

theorem Gives.recv_octets {b : List UInt8} (h : Gives w io (.octets b) io₁) {cap : Nat}
    (data : Buffer cap) {need : Nat} (hneed : need ≤ cap) :
    ∃ data', w.recv io data need = some (((b.take need).length : Int), data', io₁) ∧
      data'.bytes.take (b.take need).length = b.take need := by
  obtain ⟨data', hstore, htake⟩ :=
    data.store_zero (Nat.le_trans (List.length_take_le need b) hneed)
  refine ⟨data', ?_, htake⟩
  rw [h data need]
  simp [TransResult.give, hstore]

/-- `ctx->sr` with its transport in state `tr`, as `srDataAvailable` builds it. -/
def srCoap (w : Wire σ) (io tr : σ) : DuerCoap σ :=
  { trans := tr, remote := .tcp, nsdl := fun msg => (w.library io msg).status }

/-- **No frame**: the call returns what the transport did, and hands nothing over. The agent is left
    as it was, so what happens next is up to whoever looks at the status. -/
theorem srDataAvailable_status {rs : Int} {hrs : rs ≤ 0} (h : Gives w io (.status rs hrs) io₁) :
    srDataAvailable w a io = some (rs, a, io₁) := by
  have hcall : duerCoapDataAvailable w.toTransport (srCoap w io io) (Buffer.fill _ 0) =
      some (rs, none, srCoap w io io₁) :=
    duerCoapRecv_reject rfl (h.recv_status _ 8) (.inl (by omega))
  exact congrArg (Option.bind · _) hcall

/-- Octets that are no header: the call returns their count. -/
theorem srDataAvailable_noFrame {b : List UInt8} (h : Gives w io (.octets b) io₁)
    (hb : frameSize b = none) :
    srDataAvailable w a io = some (((b.take 8).length : Int), a, io₁) := by
  obtain ⟨value, hrecv, hvalue⟩ := h.recv_octets (Buffer.fill 8 0) (Nat.le_refl 8)
  have hrej : ((b.take 8).length : Int) ≠ 8 ∨ ofBe32 value.bytes ≠ duerCoapTcpHdr ∨
      duerBufferSize < ofBe32 (value.bytes.drop 4) := by
    by_cases hlen : (b.take 8).length = 8
    · -- all eight octets were stored
      rw [hlen, List.take_of_length_le (by simp)] at hvalue
      rw [hvalue]
      refine .inr ?_
      by_cases hmask : ofBe32 (b.take 8) = duerCoapTcpHdr
      · refine .inr ?_
        by_contra hle
        rw [frameSize, if_pos ⟨hlen, hmask, by omega⟩] at hb
        exact absurd hb (by simp)
      · exact .inl hmask
    · exact .inl (by omega)
  have hcall : duerCoapDataAvailable w.toTransport (srCoap w io io) (Buffer.fill _ 0) =
      some (((b.take 8).length : Int), none, srCoap w io io₁) :=
    duerCoapRecv_reject rfl hrecv hrej
  exact congrArg (Option.bind · _) hcall

/-- A header: the call goes on to the message. -/
theorem srDataAvailable_frame {b : List UInt8} {n : Nat} (h : Gives w io (.octets b) io₁)
    (hb : frameSize b = some n) :
    n ≤ duerBufferSize ∧ srDataAvailable w a io = (do
      let (rs, handed, coap) ←
        duerCoapRecvMessage w.toTransport (srCoap w io io₁) (Buffer.fill duerBufferSize 0) n
      some (rs, duerCoapNsdlRx w a io handed, coap.trans)) := by
  obtain ⟨value, hrecv, hvalue⟩ := h.recv_octets (Buffer.fill 8 0) (Nat.le_refl 8)
  unfold frameSize at hb
  split at hb
  · rename_i hheader
    obtain ⟨hlen, hmask, hle⟩ := hheader
    rw [hlen, List.take_of_length_le (by simp)] at hvalue
    obtain rfl : ofBe32 ((b.take 8).drop 4) = n := by simpa using hb
    refine ⟨hle, ?_⟩
    have hacc : duerCoapDataAvailable w.toTransport (srCoap w io io) (Buffer.fill _ 0) =
        duerCoapRecvMessage w.toTransport (srCoap w io io₁) (Buffer.fill duerBufferSize 0)
          (ofBe32 (value.bytes.drop 4)) :=
      duerCoapRecv_accept rfl hrecv (by rw [hvalue]; omega)
    rw [hvalue] at hacc
    exact congrArg (Option.bind · _) hacc
  · exact absurd hb (by simp)

/-- A header with no message behind it. -/
theorem srDataAvailable_headerOnly {b : List UInt8} {n : Nat} {rs : Int} {hrs : rs ≤ 0}
    (h : Gives w io (.octets b) io₁) (hb : frameSize b = some n)
    (h' : Gives w io₁ (.status rs hrs) io₂) :
    srDataAvailable w a io = some (rs, a, io₂) := by
  obtain ⟨-, hcall⟩ := srDataAvailable_frame (a := a) h hb
  have hmessage : duerCoapRecvMessage w.toTransport (srCoap w io io₁)
      (Buffer.fill duerBufferSize 0) n = some (rs, none, srCoap w io io₂) :=
    duerCoapRecvMessage_none (h'.recv_status _ n) hrs
  rw [hcall, hmessage]
  rfl

/-- **A frame**: the message is handed to the library, which decides on the status. If it passes a
    response on, the handler of the engine has been called by then, so the agent may have moved. An
    empty message is not handed over. -/
theorem srDataAvailable_message {b m : List UInt8} {n : Nat} (h : Gives w io (.octets b) io₁)
    (hb : frameSize b = some n) (h' : Gives w io₁ (.octets m) io₂) :
    srDataAvailable w a io =
      if m.take n = [] then some (0, a, io₂)
      else
        some ((w.library io (m.take n)).status, duerCoapNsdlRx w a io (some (m.take n)), io₂) := by
  obtain ⟨hn, hcall⟩ := srDataAvailable_frame (a := a) h hb
  obtain ⟨data', hrecv, hdata⟩ := h'.recv_octets (Buffer.fill duerBufferSize 0) hn
  by_cases hempty : m.take n = []
  · rw [hempty] at hrecv
    have hmessage : duerCoapRecvMessage w.toTransport (srCoap w io io₁)
        (Buffer.fill duerBufferSize 0) n = some (0, none, srCoap w io io₂) :=
      duerCoapRecvMessage_none hrecv (Int.le_refl 0)
    rw [if_pos hempty, hcall, hmessage]
    rfl
  · have hmessage : duerCoapRecvMessage w.toTransport (srCoap w io io₁)
        (Buffer.fill duerBufferSize 0) n =
          some ((w.library io (m.take n)).status, some (m.take n), srCoap w io io₂) :=
      duerCoapRecvMessage_some hrecv hempty (Nat.le_trans (List.length_take_le n m) hn) hdata
    rw [if_neg hempty, hcall, hmessage]
    rfl

end Arrival

end Engine
end LightDuer
