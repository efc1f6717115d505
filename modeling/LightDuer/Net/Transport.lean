import LightDuer.Lib.Stream

/-!
# The transport wrapper

Status codes (`lightduer_types.h`), sizes (`lightduer_net_transport.h`) and
`duer_trans_wrapper_recv` (`lightduer_net_transport.c`) over a socket adapter. The adapter
(`bcasoc_recv`) is a `Lib.Source`: it stores a piece of the stream in the caller's buffer and
returns its length, or returns a status that is not positive and stores nothing.

A status and a count of octets are one integer in the source, told apart by the sign, and stay one
here. Every later function passes it on in this form, and several of the results about the receive
path turn on a status being taken for a count, or on an error that is not negative: a socket that
the peer has closed gives 0.

The buffer belongs to the caller and has a size of its own, which the wrapper does not know. A call
for more octets than the buffer has room for has no result (`none`) as soon as so many arrive, and
`duerTransWrapperRecv_cases` is for the callers that see to it: then a call either gives nothing and
leaves the buffer and the stream as they were, or it splits a piece off the stream and puts it at
the start of the buffer. The behaviour of a particular adapter, which may report another number than
it has stored, is the subject of a module of its own.
-/

set_option autoImplicit false

namespace LightDuer
namespace Net

open Lib

/-! `duer_status_t` is an `Int`: a status, or a count of octets where it is positive. -/

def duerOk : Int := 0
def duerErrFailed : Int := -0x0001
def duerErrTransInternalError : Int := -0x0030
def duerErrTransWouldBlock : Int := -0x0031
def duerErrTransTimeout : Int := -0x0032

/-- `DUER_SIZEOF_TCPHEADER` -/
def duerSizeofTcpheader : Nat := 8
/-- `DUER_MIN_BODY_SIZE`, in the build with the AES-CBC transport -/
def duerMinBodySize : Nat := 16 + 1
/-- `DUER_MAX_BODY_SIZE` -/
def duerMaxBodySize : Nat := 2048

/-- What `bcasoc_recv` returns when it stored nothing. -/
def recvStatus : RecvError → Int
  | .wouldBlock => duerErrTransWouldBlock
  | .closed => 0
  | .failed => duerErrFailed

theorem recvStatus_le (e : RecvError) : recvStatus e ≤ 0 := by
  cases e <;> decide

/-- `duer_trans_wrapper_recv`: at most `need` octets of the stream into `data`. -/
def duerTransWrapperRecv {cap : Nat} (sock : Source) (data : Buffer cap) (need : Nat) :
    Option (Int × Buffer cap × Source) :=
  match sock.recv need with
  | (.error e, sock) => some (recvStatus e, data, sock)
  | (.ok got, sock) => do
      let data ← data.store 0 got
      some (got.length, data, sock)

/-- What one call of the wrapper can do, when the caller's buffer is large enough. -/
theorem duerTransWrapperRecv_cases {cap : Nat} (sock : Source) (data : Buffer cap) (need : Nat)
    (hneed : need ≤ cap) :
    (∃ rs, rs ≤ 0 ∧ (sock.recv need).2.stream = sock.stream ∧
      duerTransWrapperRecv sock data need = some (rs, data, (sock.recv need).2)) ∨
    (∃ (got : List UInt8) (data' : Buffer cap), got ≠ [] ∧ got.length ≤ need ∧
      sock.stream = got ++ (sock.recv need).2.stream ∧
      data'.bytes.take got.length = got ∧
      duerTransWrapperRecv sock data need =
        some ((got.length : Int), data', (sock.recv need).2)) := by
  rcases sock.recv_cases need with ⟨e, he⟩ | ⟨got, rest, hne, hle, hs, hrecv⟩
  · refine .inl ⟨recvStatus e, recvStatus_le e, by rw [he], ?_⟩
    simp only [duerTransWrapperRecv, he]
  · obtain ⟨data', hst, htake⟩ := data.store_zero (Nat.le_trans hle hneed)
    refine .inr ⟨got, data', hne, hle, by rw [hrecv, hs], htake, ?_⟩
    simp only [duerTransWrapperRecv, hrecv, hst, Option.bind_eq_bind, Option.bind_some]

end Net
end LightDuer
