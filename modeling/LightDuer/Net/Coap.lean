import LightDuer.Net.Transport

/-!
# CoAP over a transport

`duer_coap_nsdl_tx`, `duer_coap_recv` and `duer_coap_data_available` (`lightduer_coap.c`). Over TCP
every CoAP message is preceded by eight octets, a magic number and the length of the message; the
receiver asks its transport first for these and then for the message. The transport behind
`duer_trans_recv` (plain, TLS or AES-CBC) is a parameter.

## What is followed

A call of `duer_coap_data_available` is one call of `duer_coap_recv` with a buffer on the stack. The
buffer is not initialised, so what it holds at first is given with each call, and nothing that is
proved may depend on it. What the call hands to the CoAP library is a result of its own next to the
status: a status says little, since the library's own status is returned for a message that was
handed over, and the errors of the transport for one that was not.

`dataAvailableRun` is a sequence of calls, with the messages that were handed over in order. It is
what the results about segmentation are about: which of the messages on the stream come out,
whatever the pieces that the socket gives.

## Specifications

The lemmas at the end say what a call does from what the transport does: a header that is not
accepted, a header that is, the message behind it. A proof about a transport shows what its `recv`
does in each of the two calls and applies them; it never unfolds `duer_coap_recv`.
-/

set_option autoImplicit false

namespace LightDuer
namespace Net

open Lib

/-- `DUER_COAP_TCP_HDR` -/
def duerCoapTcpHdr : Nat := 0xbeefdead
/-- `DUER_BUFFER_SIZE` -/
def duerBufferSize : Nat := 1024 * 2

/-- The protocols of `duer_network_defs.h`. -/
inductive DuerProto where
  | tcp | udp
deriving DecidableEq, Repr

/-- The receive callback a transport registers (`f_recv` of `duer_trans_cbs`): status or
    count, the caller's buffer, the transport after the call; `none` where the callback
    would access memory outside a buffer. -/
structure Transport (σ : Type) where
  recv : {cap : Nat} → σ → Buffer cap → Nat → Option (Int × Buffer cap × σ)

/-- The part of `duer_coap_t` the receive path reads. `nsdl` stands for the CoAP library
    behind `sn_nsdl_process_coap`: the status it returns for a message. -/
structure DuerCoap (σ : Type) where
  trans : σ
  remote : DuerProto
  nsdl : List UInt8 → Int

/-- The octets `duer_coap_nsdl_tx` gives to `duer_trans_send` for a message of at most 65535
    octets: over TCP the header goes in front, in memory allocated for it. The sum of the sizes
    is kept in a `uint16_t`. -/
def duerCoapNsdlTx (remote : DuerProto) (malloc : Bool) (data : List UInt8) :
    Option (List UInt8) :=
  match remote with
  | .tcp =>
      if malloc then
        some ((be32 duerCoapTcpHdr ++ be32 data.length ++ data).take ((data.length + 8) % 2 ^ 16))
      else none
  | .udp => some data

variable {σ : Type}

/-- The second half of `duer_coap_recv`: receive `size` octets and hand what arrived to
    the CoAP library. The middle component is what was handed over, if anything was. -/
def duerCoapRecvMessage (t : Transport σ) {cap : Nat} (coap : DuerCoap σ) (data : Buffer cap)
    (size : Nat) : Option (Int × Option (List UInt8) × DuerCoap σ) := do
  let (rs, data, tr) ← t.recv coap.trans data size
  let coap := { coap with trans := tr }
  if 0 < rs then
    let msg ← data.load 0 rs.toNat
    some (coap.nsdl msg, some msg, coap)
  else
    some (rs, none, coap)

/-- `duer_coap_recv` -/
def duerCoapRecv (t : Transport σ) {cap : Nat} (coap : DuerCoap σ) (data : Buffer cap)
    (size : Nat) : Option (Int × Option (List UInt8) × DuerCoap σ) :=
  match coap.remote with
  | .tcp => do
      let (rs, value, tr) ← t.recv coap.trans (Buffer.fill 8 0) 8
      let coap := { coap with trans := tr }
      let mask := ofBe32 value.bytes
      let valueSize := ofBe32 (value.bytes.drop 4)
      if rs ≠ 8 ∨ mask ≠ duerCoapTcpHdr ∨ size < valueSize then
        some (rs, none, coap)
      else
        duerCoapRecvMessage t coap data valueSize
  | .udp => duerCoapRecvMessage t coap data size

/-- `duer_coap_data_available`; `stack` is what its uninitialised local buffer holds. -/
def duerCoapDataAvailable (t : Transport σ) (coap : DuerCoap σ) (stack : Buffer duerBufferSize) :
    Option (Int × Option (List UInt8) × DuerCoap σ) :=
  duerCoapRecv t coap stack duerBufferSize

/-- One call of `duer_coap_data_available` after another, one for each stack content: all
    messages handed to the CoAP library, in order, and the final state. -/
def dataAvailableRun (t : Transport σ) :
    DuerCoap σ → List (Buffer duerBufferSize) → Option (List (List UInt8) × DuerCoap σ)
  | coap, [] => some ([], coap)
  | coap, stack :: calls => do
      let (_, handed, coap) ← duerCoapDataAvailable t coap stack
      let (msgs, coap) ← dataAvailableRun t coap calls
      some (handed.toList ++ msgs, coap)

/-! ## What a call does, from what the transport does -/

section Specs

variable {t : Transport σ} {cap : Nat} {coap : DuerCoap σ}

theorem duerCoapRecvMessage_none {data data' : Buffer cap} {size : Nat} {rs : Int}
    {tr : σ} (h : t.recv coap.trans data size = some (rs, data', tr)) (hrs : rs ≤ 0) :
    duerCoapRecvMessage t coap data size = some (rs, none, { coap with trans := tr }) := by
  simp only [duerCoapRecvMessage, h, Option.bind_eq_bind, Option.bind_some]
  rw [if_neg (by omega)]

theorem duerCoapRecvMessage_some {data data' : Buffer cap} {size : Nat} {msg : List UInt8}
    {tr : σ} (h : t.recv coap.trans data size = some ((msg.length : Int), data', tr))
    (hne : msg ≠ []) (hle : msg.length ≤ cap) (hdata : data'.bytes.take msg.length = msg) :
    duerCoapRecvMessage t coap data size =
      some (coap.nsdl msg, some msg, { coap with trans := tr }) := by
  have hpos := List.length_pos_of_ne_nil hne
  simp only [duerCoapRecvMessage, h, Option.bind_eq_bind, Option.bind_some]
  rw [if_pos (by omega)]
  simp [Buffer.load_zero _ hle, hdata]

/-- A header the receiver does not accept: nothing else is received. -/
theorem duerCoapRecv_reject {data : Buffer cap} {size : Nat} {rs : Int}
    {value : Buffer 8} {tr : σ} (hr : coap.remote = .tcp)
    (h : t.recv coap.trans (Buffer.fill 8 0) 8 = some (rs, value, tr))
    (hrej : rs ≠ 8 ∨ ofBe32 value.bytes ≠ duerCoapTcpHdr ∨ size < ofBe32 (value.bytes.drop 4)) :
    duerCoapRecv t coap data size = some (rs, none, { coap with trans := tr }) := by
  simp only [duerCoapRecv, hr, h, Option.bind_eq_bind, Option.bind_some]
  rw [if_pos hrej]

/-- A header it accepts: the announced octets are received next. -/
theorem duerCoapRecv_accept {data : Buffer cap} {size : Nat} {rs : Int} {value : Buffer 8}
    {tr : σ} (hr : coap.remote = .tcp)
    (h : t.recv coap.trans (Buffer.fill 8 0) 8 = some (rs, value, tr))
    (hacc : ¬ (rs ≠ 8 ∨ ofBe32 value.bytes ≠ duerCoapTcpHdr ∨
      size < ofBe32 (value.bytes.drop 4))) :
    duerCoapRecv t coap data size =
      duerCoapRecvMessage t { coap with trans := tr } data (ofBe32 (value.bytes.drop 4)) := by
  simp only [duerCoapRecv, hr, h, Option.bind_eq_bind, Option.bind_some]
  rw [if_neg hacc]

/-- A well-formed header for `n` octets. -/
theorem duerCoapRecv_header {data : Buffer cap} {size n : Nat} {value : Buffer 8} {tr : σ}
    (hr : coap.remote = .tcp)
    (h : t.recv coap.trans (Buffer.fill 8 0) 8 = some (8, value, tr))
    (hv : value.bytes = be32 duerCoapTcpHdr ++ be32 n) (hn : n ≤ size) (h32 : n < 2 ^ 32) :
    duerCoapRecv t coap data size = duerCoapRecvMessage t { coap with trans := tr } data n := by
  have hmask : ofBe32 value.bytes = duerCoapTcpHdr := by
    rw [hv, ofBe32_be32_append (by decide)]
  have hsize : ofBe32 (value.bytes.drop 4) = n := by
    rw [hv, List.drop_left' (be32_length _), ofBe32_be32 h32]
  rw [duerCoapRecv_accept hr h (by rw [hmask, hsize]; simp; omega), hsize]

/-- A message whose size still fits with the header is sent whole. -/
theorem duerCoapNsdlTx_tcp {data : List UInt8} (h : data.length + 8 < 2 ^ 16) :
    duerCoapNsdlTx .tcp true data = some (be32 duerCoapTcpHdr ++ be32 data.length ++ data) := by
  have hlen : (be32 duerCoapTcpHdr ++ be32 data.length ++ data).length = data.length + 8 := by
    simp
    omega
  rw [duerCoapNsdlTx, if_pos rfl, Nat.mod_eq_of_lt h, List.take_of_length_le (Nat.le_of_eq hlen)]

theorem dataAvailableRun_cons {stack : Buffer duerBufferSize}
    {calls : List (Buffer duerBufferSize)} {rs : Int} {handed : Option (List UInt8)}
    {coap₁ coap₂ : DuerCoap σ} {msgs : List (List UInt8)}
    (hcall : duerCoapDataAvailable t coap stack = some (rs, handed, coap₁))
    (hrun : dataAvailableRun t coap₁ calls = some (msgs, coap₂)) :
    dataAvailableRun t coap (stack :: calls) = some (handed.toList ++ msgs, coap₂) := by
  simp [dataAvailableRun, hcall, hrun]

end Specs

end Net
end LightDuer
