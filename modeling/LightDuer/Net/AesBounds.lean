import LightDuer.Net.AesRoundTrip

/-!
# What a hostile body makes the AES-CBC receiver do

The peer chooses two lengths: that of the clear part, in the first octet of the body, and that of
the message, inside the data it has encrypted. The receiver takes the first from the size of the
body as unsigned numbers and copies as many octets as the second says. Nothing but the size of the
cipher's blocks stands in the way of a clear part longer than the body, of an encrypted part that is
empty, or of a message longer than what was decrypted.

## What staying in bounds means

`InBounds` speaks of the result of a call and of the body that it was left with. A call that reads
or writes outside of a buffer has no result. But that is not all: a length inside of the decrypted
data that is larger than they are makes the call copy what an earlier message has left behind them
in the same buffer, and hand it on; that is inside of an array of the program and still not a
message that anybody sent. So a result counts as in bounds only if what was decrypted lies inside
the body, and what was copied inside what was decrypted, behind its header.

## The two lengths

`Refused` and `Consistent` are conditions on the octets of the body. The first is the only check
there is, and it refuses some of the bodies whose first length is wrong: the wrapped difference is
rarely a multiple of sixteen. `decryptBody_wrapped` is the case in which it is one, and then the
cipher is called for almost 2^32 octets.
-/

set_option autoImplicit false

namespace LightDuer
namespace Net

open Lib

/-- The cipher refuses the body: its encrypted part would not be whole blocks. -/
def Refused (whole : List UInt8) : Prop := encryptedMsgLen whole % 16 ≠ 0

/-- The lengths in a body are consistent: the clear part lies inside it, and the message with the
    eight octets in front of it inside what the rest decrypts to. -/
def Consistent (aes : AesCbc) (ctx : AesContext) (whole : List UInt8) : Prop :=
  1 + rawDataLen whole ≤ whole.length ∧
    8 + innerLen (plainText aes ctx whole) ≤ (plainText aes ctx whole).length

/-- A call that was left with the body `whole` stays in bounds: it ends with an error and leaves
    the body as it came, or what it decrypts lies inside the body, and what it copies out inside
    the decrypted data behind their header and inside the caller's buffer. -/
def InBounds (aes : AesCbc) (ctx : AesContext) (whole : List UInt8) {cap : Nat}
    (result : Option (Int × Buffer cap × DuerTrans)) : Prop :=
  ∃ rs data trans, result = some (rs, data, trans) ∧
    (rs < 0 ∧ data.bytes.take whole.length = whole ∨
      ∃ n : Nat, rs = n ∧ 1 + rawDataLen whole ≤ whole.length ∧
        8 + n ≤ (plainText aes ctx whole).length ∧ n ≤ cap ∧
        data.bytes.take n = ((plainText aes ctx whole).drop 8).take n)

section Body

variable {aes : AesCbc} {ctx : AesContext} {trans : DuerTrans} {cap : Nat} {data : Buffer cap}
  {whole : List UInt8}

theorem decryptBody_refused (hpos : 0 < whole.length) (hcap : whole.length ≤ cap)
    (hdata : data.bytes.take whole.length = whole) (h : Refused whole) :
    decryptBody aes ctx trans data whole.length =
      some (duerErrTransInternalError, data, trans) := by
  have hdec : duerAesCbcDecrypt aes ctx data (1 + rawDataLen whole) (encryptedMsgLen whole)
      trans.receivedBody = some (duerErrFailed, trans.receivedBody) := by
    unfold Refused at h
    rw [duerAesCbcDecrypt, if_pos h]
  rw [decryptBody_eq aes ctx trans hpos hcap hdata, hdec, Option.bind_some,
    if_pos (show duerErrFailed < 0 by decide)]

/-- With a clear part longer than the body the length of the encrypted part wraps around, and the
    cipher goes far beyond both buffers. -/
theorem decryptBody_wrapped (hpos : 0 < whole.length) (hcap : whole.length ≤ cap)
    (hdata : data.bytes.take whole.length = whole) (hmax : whole.length ≤ 2048)
    (h : ¬ Refused whole) (hraw : whole.length < 1 + rawDataLen whole) :
    decryptBody aes ctx trans data whole.length = none := by
  have hraw256 : rawDataLen whole < 256 := (whole.headD 0).toNat_lt
  have henc : encryptedMsgLen whole = whole.length - 1 + 2 ^ 32 - rawDataLen whole := by
    have hone : subU32 whole.length 1 = whole.length - 1 := subU32_of_le hpos
    rw [encryptedMsgLen, hone, subU32, if_neg (by omega)]
  have hdec : duerAesCbcDecrypt aes ctx data (1 + rawDataLen whole) (encryptedMsgLen whole)
      trans.receivedBody = none := by
    unfold Refused at h
    rw [duerAesCbcDecrypt, if_neg h]
    cases hload : data.load (1 + rawDataLen whole) (encryptedMsgLen whole) with
    | none => rfl
    | some input =>
      have hinput : input.length = encryptedMsgLen whole := by
        unfold Buffer.load at hload
        split at hload
        · rw [← Option.some.inj hload, List.length_take, List.length_drop, data.bytes_length]
          omega
        · exact absurd hload (by simp)
      have hplain := aes.decrypt_length ctx input
        (by rw [hinput]; exact Decidable.not_not.mp h)
      have hstore : trans.receivedBody.store 0 (aes.decrypt ctx input) = none := by
        rw [Buffer.store, dif_neg (by omega)]
      simp only [Option.bind_eq_bind, Option.bind_some, hstore, Option.bind_none]
  rw [decryptBody_eq aes ctx trans hpos hcap hdata, hdec, Option.bind_none]

/-- What is copied out is as long as the received octets say, whatever that is. -/
theorem copyMessage_length {output : Buffer 2048} {size : Nat} {rs : Int} {data' : Buffer cap}
    {trans' : DuerTrans} (h : copyMessage trans data size output = some (rs, data', trans')) :
    rs = ofBe32 ((output.bytes.drop 4).take 4) := by
  have hword : output.load 4 4 = some ((output.bytes.drop 4).take 4) :=
    output.load_eq_some (by decide)
  simp only [copyMessage, hword, Option.bind_eq_bind, Option.bind_some,
    Option.bind_eq_some_iff] at h
  obtain ⟨zeroed, -, msg, -, data'', -, h⟩ := h
  exact (Prod.mk.inj (Option.some.inj h)).1.symm

/-- **The end of the body call stays in bounds** if and only if the body is refused or its lengths
    are consistent. A refusal comes before anything is read, so a length that is not whole blocks
    does no harm; every other inconsistency is followed. -/
theorem decryptBody_inBounds_iff (hpos : 0 < whole.length) (hcap : whole.length ≤ cap)
    (hdata : data.bytes.take whole.length = whole) (hmax : whole.length ≤ 2048) :
    InBounds aes ctx whole (decryptBody aes ctx trans data whole.length) ↔
      Refused whole ∨ Consistent aes ctx whole := by
  by_cases href : Refused whole
  · rw [decryptBody_refused hpos hcap hdata href]
    exact iff_of_true ⟨_, _, _, rfl, .inl ⟨by decide, hdata⟩⟩ (.inl href)
  rw [or_iff_right href]
  by_cases hraw : 1 + rawDataLen whole ≤ whole.length
  · have halign : (whole.length - (1 + rawDataLen whole)) % 16 = 0 := by
      rw [← encryptedMsgLen_of_le hraw]
      exact Decidable.not_not.mp href
    obtain ⟨output, hout, hdec⟩ := decryptBody_blocks aes ctx trans hcap hdata hmax hraw halign
    have hplain := plainText_length aes ctx halign
    rw [hdec]
    constructor
    · rintro ⟨rs, data', trans', hcopy, hcases⟩
      have hrs := copyMessage_length hcopy
      rcases hcases with ⟨hneg, -⟩ | ⟨n, hn, -, hfits, -⟩
      · omega
      · -- the length copied is that of the decrypted data
        have hinner : (output.bytes.drop 4).take 4 = ((plainText aes ctx whole).drop 4).take 4 := by
          rw [hout, List.drop_append_of_le_length (by omega),
            List.take_append_of_le_length (by rw [List.length_drop]; omega)]
        rw [hinner, hn] at hrs
        have hlen : n = innerLen (plainText aes ctx whole) := Int.ofNat_inj.mp hrs
        exact ⟨hraw, hlen ▸ hfits⟩
    · rintro ⟨-, hfits⟩
      obtain ⟨data', hcopy, htake⟩ := copyMessage_fits trans data hout hfits
        (by omega) hcap
      exact ⟨_, data', _, hcopy, .inr ⟨_, rfl, hraw, hfits, by omega, htake⟩⟩
  · rw [decryptBody_wrapped hpos hcap hdata hmax href (by omega)]
    exact iff_of_false (fun ⟨_, _, _, h, _⟩ => absurd h (by simp)) fun h => hraw h.1

end Body

/-- **A call that completes a body stays in bounds** if and only if the cipher refuses the length of
    the encrypted part, or the clear part lies inside the body and the message inside the decrypted
    data. -/
theorem aesCbc_recv_inBounds_iff (aes : AesCbc) (ctx : AesContext) (trans : DuerTrans) (cap : Nat)
    (data : Buffer cap) (size : Nat) (got : List UInt8) (sock : Source) (whole : List UInt8)
    (hctx : trans.secure = some ctx) (hmin : duerMinBodySize ≤ size) (hmax : size ≤ duerMaxBodySize)
    (hcap : size ≤ cap) (hheld : trans.receivedBodyBytes < size)
    (hrecv : trans.sock.recv (size - trans.receivedBodyBytes) = (.ok got, sock))
    (hgot : got.length = size - trans.receivedBodyBytes)
    (hwhole : whole = trans.receivedBody.bytes.take trans.receivedBodyBytes ++ got) :
    InBounds aes ctx whole (duerTransAesCbcEncryptedRecv aes trans data size) ↔
      Refused whole ∨ Consistent aes ctx whole := by
  unfold duerMinBodySize at hmin
  unfold duerMaxBodySize at hmax
  have hlen : whole.length = size := by
    rw [hwhole, List.length_append, List.length_take, Buffer.bytes_length]
    omega
  have hstream : trans.sock.stream = got ++ sock.stream := by
    rcases trans.sock.recv_cases (size - trans.receivedBodyBytes) with
      ⟨e, he⟩ | ⟨got', rest, -, -, hs, hcall⟩
    · exact absurd (congrArg Prod.fst (hrecv.symm.trans he)) (by simp)
    · rw [hrecv] at hcall
      obtain ⟨hgot', hsock⟩ := Prod.mk.inj hcall
      rw [hs, Except.ok.inj hgot', hsock]
  rcases duerTransAesCbcEncryptedRecv_body aes trans data hctx hmin hmax hcap hheld with
    ⟨rs, data', held, n, -, -, hn, hsplit⟩ | ⟨whole', data', held, hcall, hlen', hdata, hsplit⟩
  · -- the socket has given all that was missing
    have hlength := congrArg List.length hsplit
    rw [hrecv, hstream] at hlength
    simp only [List.length_append, List.length_take, Buffer.bytes_length] at hlength
    omega
  · rw [hrecv, hstream, ← List.append_assoc, ← hwhole] at hsplit
    obtain ⟨rfl, -⟩ := List.append_inj hsplit (hlen.trans hlen'.symm)
    rw [hcall, ← hlen']
    rw [← hlen'] at hdata
    exact decryptBody_inBounds_iff (by omega) (by omega) hdata (by omega)

/-- A frame as the sender writes it stays in bounds. -/
theorem aesCbc_recv_inBounds_oneBlock :
    InBounds oneBlockAes countingKey (oneBlockFrame.body oneBlockAes countingKey)
      (duerTransAesCbcEncryptedRecv oneBlockAes
        (DuerTrans.connected ⟨oneBlockFrame.body oneBlockAes countingKey, [.ok 19]⟩ countingKey [])
        (Buffer.fill duerBufferSize 0) 19) :=
  (aesCbc_recv_inBounds_iff oneBlockAes countingKey
    (DuerTrans.connected ⟨oneBlockFrame.body oneBlockAes countingKey, [.ok 19]⟩ countingKey [])
    duerBufferSize (Buffer.fill duerBufferSize 0) 19 (oneBlockFrame.body oneBlockAes countingKey)
    ⟨[], []⟩ (oneBlockFrame.body oneBlockAes countingKey) rfl (by decide) (by decide) (by decide)
    (by decide) rfl (by decide) rfl).mpr (.inr ⟨by decide, by decide⟩)

/-- A body of 17 octets whose clear part is said to take 32. -/
def wrappedBody : List UInt8 := 32 :: List.replicate 16 0

/-- It makes the receiver decrypt far beyond its buffers. -/
theorem aesCbc_recv_out_of_bounds :
    ¬ InBounds oneBlockAes countingKey wrappedBody
      (duerTransAesCbcEncryptedRecv oneBlockAes
        (DuerTrans.connected ⟨wrappedBody, [.ok 17]⟩ countingKey []) (Buffer.fill duerBufferSize 0)
        17) := by
  rintro ⟨rs, data, trans, h, -⟩
  have hnone : duerTransAesCbcEncryptedRecv oneBlockAes
      (DuerTrans.connected ⟨wrappedBody, [.ok 17]⟩ countingKey []) (Buffer.fill duerBufferSize 0)
      17 = none := by rfl
  exact absurd (hnone.symm.trans h) (by simp)

end Net
end LightDuer
