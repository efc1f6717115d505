import LightDuer.Net.Coap

/-!
# Between the socket and CoAP

What the engine thread's receive call finds between itself and the socket. Over plain TCP
(`duer_trans_wrapper_recv`) a call is one `recv` on the socket. Over TLS
(`duer_trans_encrypted_recv`) `mbedtls_ssl_read` gives octets of the record it has decrypted, as
many as are asked for and are left of it, and reads the socket only when there are none: first the
five octets of a record's header, then the rest of the record.

## One interface for both

For the question of who wakes the receiver up it matters which octets a layer can give without the
socket (`inHand`), and how many it asks the socket for when there are none (`want`). Everything else
about a transport is left out, so that `Layer` has just these, the state after octets were given or
fetched, and `unread`, everything that a reader would still get from what the layer keeps and from
what is in the socket.

Plain TCP keeps nothing: what a `recv` has brought is given to the call that made it. TLS keeps the
rest of a record, and a part of the next one. A record may be without octets, and a call may return
with none after it has read one; `blank` notes that.

## Records

`recordLen` is the length that the header of a record announces, and `TlsState` carries that what is
held of the next record is not the whole of it: a whole one is decrypted at once. Decryption is a
parameter, and nothing is asked of it, not even that what it gives is shorter than the record.
-/

set_option autoImplicit false

namespace LightDuer
namespace Linux

open Lib Net

/-- A transport, as far as a receive call is concerned. -/
structure Layer (σ : Type) where
  /-- the octets it can give without the socket -/
  inHand : σ → List UInt8
  /-- without the first `n` of them -/
  give : σ → Nat → σ
  /-- how many octets it asks of the socket for a call that asks it for `n` -/
  want : σ → Nat → Nat
  /-- with octets from the socket -/
  fetch : σ → List UInt8 → σ
  /-- it has just read a record without octets, after which the call may return with none -/
  blank : σ → Bool
  /-- everything it can give from what it keeps and from these octets in the socket -/
  unread : σ → List UInt8 → List UInt8
  inHand_give : ∀ s n, inHand (give s n) = (inHand s).drop n
  want_pos : ∀ s n, 0 < n → 0 < want s n
  inHand_of_blank : ∀ s, blank s = true → inHand s = []
  unread_nil : ∀ s, unread s [] = inHand s

/-- Plain TCP: what a `recv` has brought is given to the call that made it. -/
def plain : Layer (List UInt8) where
  inHand := id
  give s n := s.drop n
  want _ n := n
  fetch s got := s ++ got
  blank _ := false
  unread s sock := s ++ sock
  inHand_give _ _ := rfl
  want_pos _ _ h := h
  inHand_of_blank _ h := absurd h (by simp)
  unread_nil s := List.append_nil s

/-- The length of a record, header included, from its header. -/
def recordLen (raw : List UInt8) : Nat :=
  5 + ((raw.drop 3).headD 0).toNat * 2 ^ 8 + ((raw.drop 4).headD 0).toNat

/-- The octets end inside a record. -/
def Unfinished (raw : List UInt8) : Prop := raw.length < 5 ∨ raw.length < recordLen raw

instance (raw : List UInt8) : Decidable (Unfinished raw) := by
  unfold Unfinished
  infer_instance

theorem unfinished_nil : Unfinished [] := .inl (by decide)

/-- The input side of `mbedtls_ssl_context`: what is left of the decrypted record, and the octets
    of the next one that have been read. -/
structure TlsState where
  current : List UInt8
  held : List UInt8
  unfinished : Unfinished held

/-- What the whole records in `raw` carry, at most `n` of them. -/
def payloads (decrypt : List UInt8 → List UInt8) : Nat → List UInt8 → List UInt8
  | 0, _ => []
  | n + 1, raw =>
      if Unfinished raw then []
      else decrypt (raw.take (recordLen raw)) ++ payloads decrypt n (raw.drop (recordLen raw))

/-- TLS, with what decrypts a record. -/
def tls (decrypt : List UInt8 → List UInt8) : Layer TlsState where
  inHand s := s.current
  give s n := { s with current := s.current.drop n }
  want s _ := if s.held.length < 5 then 5 - s.held.length else recordLen s.held - s.held.length
  fetch s got :=
    if h : Unfinished (s.held ++ got) then { s with held := s.held ++ got, unfinished := h }
    else
      { current := s.current ++ decrypt (s.held ++ got), held := [], unfinished := unfinished_nil }
  blank s := s.current.isEmpty && s.held.isEmpty
  unread s sock := s.current ++ payloads decrypt (s.held ++ sock).length (s.held ++ sock)
  inHand_give _ _ := rfl
  want_pos s _ _ := by
    have h := s.unfinished
    unfold Unfinished at h
    split <;> omega
  inHand_of_blank s h := by
    simp only [Bool.and_eq_true, List.isEmpty_iff] at h
    exact h.1
  unread_nil s := by
    have h : payloads decrypt s.held.length s.held = [] := by
      cases s.held.length with
      | zero => rfl
      | succ n => exact if_pos s.unfinished
    rw [List.append_nil, h, List.append_nil]

end Linux
end LightDuer
