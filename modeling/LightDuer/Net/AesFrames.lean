import LightDuer.Net.AesCbc

/-!
# Encrypted frames, and what one receive call makes of them

The format of a well-formed frame, that the sender writes it, and one specification for each of the
calls `duer_coap_recv` makes on the AES-CBC transport: the header call, with or without octets of
the header held from before, the body call, and the decryption at its end.

## Frames

`EncryptedFrame` carries what makes a frame well formed: a clear part whose length fits one octet, a
message, a padding to whole blocks, and a body that the receiver has room for. The clear text begins
with the header of CoAP over TCP, so the length of the message stands twice in a frame, once in the
clear as the length of the whole body and once inside of what is encrypted.
`duerTransAesCbcEncryptedSend_wire` says that the sender's frames are such frames, under the
conditions that the fields of the structure express.

## Calls

The transport has one function for both of the caller's reads and tells them apart by the size that
is asked for: eight octets are a header. The header call keeps what has come in `received_header`
and returns nothing until all of it is there, and from then on returns it again without reading. The
body call does the same in `received_body`; when the body is complete it decrypts it and puts the
message in the place of the body.

The end of the body call is stated for any body and not only for that of a well-formed frame:
`rawDataLen`, `encryptedMsgLen` and `innerLen` are the three lengths as they are read out of the
octets that came, wrapping where the source wraps. The round trip uses it for frames, the results on
bounds for whatever a peer sends.
-/

set_option autoImplicit false

namespace LightDuer
namespace Net

open Lib

/-- A well-formed frame: a clear part whose length fits one octet, a non-empty message and
    padding to whole blocks, the body no longer than the receiver's buffer. -/
structure EncryptedFrame where
  rawData : List UInt8
  message : List UInt8
  padding : List UInt8
  rawData_le : rawData.length ≤ 255
  message_ne : message ≠ []
  aligned : (8 + message.length + padding.length) % 16 = 0
  body_le : 1 + rawData.length + (8 + message.length + padding.length) ≤ 2048

namespace EncryptedFrame

variable (aes : AesCbc) (ctx : AesContext) (f : EncryptedFrame)

/-- The clear text: the CoAP header over TCP, the message, the padding. -/
def clearText : List UInt8 :=
  be32 duerCoapTcpHdr ++ be32 f.message.length ++ f.message ++ f.padding

/-- `LEN_1`: the size of the body. -/
def bodySize : Nat := 1 + f.rawData.length + (8 + f.message.length + f.padding.length)

def body : List UInt8 :=
  UInt8.ofNat f.rawData.length :: f.rawData ++ aes.encrypt ctx f.clearText

/-- The frame on the wire. -/
def wire : List UInt8 :=
  be32 duerBdcaecMn ++ be32 f.bodySize ++ f.body aes ctx

/-- The stream made of a list of frames. -/
def wires (fs : List EncryptedFrame) : List UInt8 := fs.flatMap (wire aes ctx)

variable {f}

@[simp] theorem clearText_length :
    f.clearText.length = 8 + f.message.length + f.padding.length := by
  simp [clearText]
  omega

@[simp] theorem body_length : (f.body aes ctx).length = f.bodySize := by
  have henc := aes.encrypt_length ctx f.clearText (by simpa using f.aligned)
  simp only [body, List.cons_append, List.length_cons, List.length_append, henc,
    clearText_length, bodySize]
  omega

@[simp] theorem wire_length : (f.wire aes ctx).length = 8 + f.bodySize := by
  simp [wire]
  omega

theorem wires_length (fs : List EncryptedFrame) :
    (wires aes ctx fs).length = (fs.map (fun f => (f.wire aes ctx).length)).sum := by
  simp [wires]

theorem bodySize_ge : 17 ≤ f.bodySize := by
  have h := f.aligned
  have hpos := List.length_pos_of_ne_nil f.message_ne
  unfold bodySize
  omega

theorem bodySize_le : f.bodySize ≤ 2048 := f.body_le

end EncryptedFrame

/-! ## The sender writes such frames -/

/-- How many octets fill up the last block of `size`. -/
def paddingLen (size : Nat) : Nat := if size % 16 ≠ 0 then 16 - size % 16 else 0

theorem paddingLen_aligned (size : Nat) : (size + paddingLen size) % 16 = 0 := by
  unfold paddingLen
  split <;> omega

/-- **What `duer_trans_aes_cbc_encrypted_send` puts on the wire** for the octets it is given. It is
    stated for any octets and any device id, also one whose length does not fit the octet it is
    written to; when a receiver can make something of it is said elsewhere. -/
theorem duerTransAesCbcEncryptedSend_eq (aes : AesCbc) {ctx : AesContext} {trans : DuerTrans}
    (hctx : trans.secure = some ctx) (data : List UInt8) :
    duerTransAesCbcEncryptedSend aes trans data =
      some (be32 duerBdcaecMn ++
        be32 (1 + trans.keyInfo.length + (data.length + paddingLen data.length)) ++
        (UInt8.ofNat trans.keyInfo.length :: trans.keyInfo ++
          aes.encrypt ctx (data ++ List.replicate (paddingLen data.length) 0))) := by
  simp only [duerTransAesCbcEncryptedSend, hctx, paddingLen]
  rw [show ∀ pad, 4 + 4 + 1 + trans.keyInfo.length + data.length + pad - 4 - 4 =
    1 + trans.keyInfo.length + (data.length + pad) by omega]
  simp

/-- **The frames are the sender's**: what it puts on the wire for a CoAP message with its TCP header
    is a well-formed frame with that message. So what is proved of well-formed frames is about what
    a sender with the same key and a short enough id really sends. -/
theorem duerTransAesCbcEncryptedSend_wire {aes : AesCbc} {ctx : AesContext} {trans : DuerTrans}
    (hctx : trans.secure = some ctx) {message : List UInt8} (hne : message ≠ [])
    (hkey : trans.keyInfo.length ≤ 255)
    (hfit : 1 + trans.keyInfo.length +
      (8 + message.length + paddingLen (8 + message.length)) ≤ 2048) :
    ∃ f : EncryptedFrame, f.message = message ∧ f.rawData = trans.keyInfo ∧
      duerTransAesCbcEncryptedSend aes trans
        (be32 duerCoapTcpHdr ++ be32 message.length ++ message) = some (f.wire aes ctx) := by
  have hlen : (be32 duerCoapTcpHdr ++ be32 message.length ++ message).length =
      8 + message.length := by
    simp
    omega
  refine ⟨{ rawData := trans.keyInfo, message
            padding := List.replicate (paddingLen (8 + message.length)) 0
            rawData_le := hkey, message_ne := hne
            aligned := by simpa using paddingLen_aligned (8 + message.length)
            body_le := by simpa using hfit }, rfl, rfl, ?_⟩
  rw [duerTransAesCbcEncryptedSend_eq aes hctx, hlen]
  simp only [EncryptedFrame.wire, EncryptedFrame.body, EncryptedFrame.clearText,
    EncryptedFrame.bodySize, List.length_replicate]

/-! ## One call of the transport -/

/-- The header as the CoAP layer sees it: the AES magic number is replaced. -/
def coapHeader (hdr : List UInt8) : List UInt8 :=
  if ofBe32 hdr = duerBdcaecMn then be32 duerCoapTcpHdr ++ hdr.drop 4 else hdr

section Recv

variable (aes : AesCbc) (trans : DuerTrans)

/-- A header already held is returned again; nothing is received. -/
theorem duerTransAesCbcEncryptedRecv_cached (data : Buffer 8)
    (h : trans.receivedHeaderBytes = 8) :
    duerTransAesCbcEncryptedRecv aes trans data 8 = some (8, trans.receivedHeader, trans) := by
  have hst : data.store 0 trans.receivedHeader.bytes = some trans.receivedHeader :=
    data.store_full trans.receivedHeader.bytes_length
  simp [duerTransAesCbcEncryptedRecv, duerSizeofTcpheader, h, hst]

/-- **A header call**: either nothing is returned and what is held of the header, with the rest of
    the stream, is as before; or the eight octets of the header are complete. That what is held and
    what is to come stay the same octets is all that is needed to follow a stream over calls. -/
theorem duerTransAesCbcEncryptedRecv_header (data : Buffer 8)
    (h : trans.receivedHeaderBytes < 8) :
    ∃ rs data' header n, duerTransAesCbcEncryptedRecv aes trans data 8 =
        some (rs, data', { trans with
          sock := (trans.sock.recv (8 - trans.receivedHeaderBytes)).2
          receivedHeader := header, receivedHeaderBytes := n }) ∧
      ((rs ≤ 0 ∧ n < 8 ∧
          header.bytes.take n ++ (trans.sock.recv (8 - trans.receivedHeaderBytes)).2.stream =
            trans.receivedHeader.bytes.take trans.receivedHeaderBytes ++ trans.sock.stream) ∨
        (rs = 8 ∧ n = 8 ∧ data' = header ∧ ∃ hdr : List UInt8, hdr.length = 8 ∧
          header.bytes = coapHeader hdr ∧
          trans.receivedHeader.bytes.take trans.receivedHeaderBytes ++ trans.sock.stream =
            hdr ++ (trans.sock.recv (8 - trans.receivedHeaderBytes)).2.stream)) := by
  obtain ⟨sock, secure, keyInfo, held, n, body, bodyBytes⟩ := trans
  simp only at h ⊢
  have hne : n ≠ 8 := by omega
  simp only [duerTransAesCbcEncryptedRecv, duerSizeofTcpheader, if_pos, if_neg hne, if_pos h,
    recvHeader]
  rcases duerTransWrapperRecv_cases sock data (8 - n) (by omega) with
    ⟨rs, hrs, hstream, hrecv⟩ | ⟨got, data', hgot, hle, hstream, htake, hrecv⟩
  · refine ⟨rs, data, held, n, ?_, .inl ⟨hrs, h, by rw [hstream]⟩⟩
    simp only [hrecv, Option.bind_eq_bind, Option.bind_some, if_pos hrs]
  · have hpos := List.length_pos_of_ne_nil hgot
    obtain ⟨held', hst, hheld⟩ := held.store_extend (show n + got.length ≤ 8 by omega)
    have hload : data'.load 0 got.length = some got := by
      rw [data'.load_zero (by omega), htake]
    by_cases hfull : got.length = 8 - n
    · -- the header is complete
      have hheld' : held'.bytes = held.bytes.take n ++ got := by
        rw [← hheld, List.take_of_length_le (by simp; omega)]
      have h1 : ¬ ((got.length : Int) ≤ 0) := by omega
      have h2 : (got.length : Int) = ((8 - n : Nat) : Int) := by omega
      have hcopy : data'.store 0 held'.bytes = some held' := data'.store_full held'.bytes_length
      rw [hfull] at hload
      have hsplit : held.bytes.take n ++ sock.stream =
          held'.bytes ++ (sock.recv (8 - n)).2.stream := by
        rw [hheld', List.append_assoc, ← hstream]
      by_cases hmagic : ofBe32 held'.bytes = duerBdcaecMn
      · -- an AES frame: the magic number is replaced, here and in the copy that is kept
        obtain ⟨masked, hmask, hmasked⟩ := held'.store_eq_some
          (show 0 + (be32 duerCoapTcpHdr).length ≤ 8 by simp)
        have hwhole : masked.load 0 8 = some masked.bytes := by
          rw [masked.load_zero (Nat.le_refl 8), List.take_of_length_le (by simp)]
        refine ⟨8, masked, masked, 8, ?_, .inr ⟨rfl, rfl, rfl, held'.bytes, by simp, ?_, hsplit⟩⟩
        · simp only [hrecv, Option.bind_eq_bind, Option.bind_some, if_neg h1, if_pos h2, hload,
            hst, hcopy, if_pos hmagic, hmask, hwhole, held'.store_full masked.bytes_length]
          rfl
        · simpa [coapHeader, hmagic] using hmasked
      · refine ⟨8, held', held', 8, ?_, .inr ⟨rfl, rfl, rfl, held'.bytes, by simp, ?_, hsplit⟩⟩
        · simp only [hrecv, Option.bind_eq_bind, Option.bind_some, if_neg h1, if_pos h2, hload,
            hst, hcopy, if_neg hmagic]
          rfl
        · simp [coapHeader, hmagic]
    · refine ⟨duerErrTransWouldBlock, data', held', n + got.length, ?_,
        .inl ⟨by decide, by omega, ?_⟩⟩
      · have h1 : ¬ ((got.length : Int) ≤ 0) := by omega
        have h2 : ¬ ((got.length : Int) = ((8 - n : Nat) : Int)) := by omega
        simp only [hrecv, Option.bind_eq_bind, Option.bind_some, if_neg h1, if_neg h2,
          Int.toNat_natCast, hload, hst]
      · rw [hheld, hstream, List.append_assoc]

/-- **A body call**: either nothing is returned and what is held of the body, with the rest
    of the stream, is as before; or the body is complete, stands in the caller's buffer and
    is decrypted there. -/
theorem duerTransAesCbcEncryptedRecv_body {cap : Nat} (data : Buffer cap) {size : Nat}
    {ctx : AesContext} (hctx : trans.secure = some ctx) (hmin : 17 ≤ size)
    (hmax : size ≤ 2048) (hcap : size ≤ cap) (h : trans.receivedBodyBytes < size) :
    (∃ rs data' body n, duerTransAesCbcEncryptedRecv aes trans data size =
        some (rs, data', { trans with
          sock := (trans.sock.recv (size - trans.receivedBodyBytes)).2
          receivedBody := body, receivedBodyBytes := n }) ∧ rs ≤ 0 ∧ n < size ∧
        body.bytes.take n ++ (trans.sock.recv (size - trans.receivedBodyBytes)).2.stream =
          trans.receivedBody.bytes.take trans.receivedBodyBytes ++ trans.sock.stream) ∨
    (∃ whole data' body, duerTransAesCbcEncryptedRecv aes trans data size =
        decryptBody aes ctx { trans with
          sock := (trans.sock.recv (size - trans.receivedBodyBytes)).2
          receivedHeaderBytes := 0, receivedBody := body, receivedBodyBytes := 0 } data' size ∧
        whole.length = size ∧ data'.bytes.take size = whole ∧
        trans.receivedBody.bytes.take trans.receivedBodyBytes ++ trans.sock.stream =
          whole ++ (trans.sock.recv (size - trans.receivedBodyBytes)).2.stream) := by
  obtain ⟨sock, secure, keyInfo, header, headerBytes, held, n⟩ := trans
  simp only at h hctx ⊢
  have hsize : ¬ size = 8 := by omega
  simp only [duerTransAesCbcEncryptedRecv, duerSizeofTcpheader, duerMinBodySize, duerMaxBodySize,
    if_neg hsize, if_pos (show 16 + 1 ≤ size ∧ size ≤ 2048 by omega), if_pos h, recvBody]
  rcases duerTransWrapperRecv_cases sock data (size - n) (by omega) with
    ⟨rs, hrs, hstream, hrecv⟩ | ⟨got, data', hgot, hle, hstream, htake, hrecv⟩
  · refine .inl ⟨rs, data, held, n, ?_, hrs, h, by rw [hstream]⟩
    simp only [hrecv, Option.bind_eq_bind, Option.bind_some, if_pos hrs]
  · have hpos := List.length_pos_of_ne_nil hgot
    obtain ⟨held', hst, hheld⟩ := held.store_extend (show n + got.length ≤ 2048 by omega)
    have hload : data'.load 0 got.length = some got := by
      rw [data'.load_zero (by omega), htake]
    have h1 : ¬ ((got.length : Int) ≤ 0) := by omega
    by_cases hfull : got.length = size - n
    · have h2 : ¬ ((got.length : Int) ≠ ((size - n : Nat) : Int)) := by omega
      rw [hfull] at hload htake
      by_cases hn : n = 0
      · -- the body came in one piece
        subst hn
        refine .inr ⟨got, data', held, ?_, by omega, by simpa using htake, by simpa using hstream⟩
        simp only [hrecv, Option.bind_eq_bind, Option.bind_some, if_neg h1, if_neg h2, hctx]
        rw [if_neg (by omega)]
      · -- earlier pieces are put in front of this one
        have hwhole : held'.load 0 size = some (held.bytes.take n ++ got) := by
          rw [held'.load_zero (by omega), ← hheld, show n + got.length = size by omega]
        have hlen : (held.bytes.take n ++ got).length = size := by simp; omega
        obtain ⟨data'', hst'', htake''⟩ :=
          data'.store_zero (show (held.bytes.take n ++ got).length ≤ cap by omega)
        refine .inr ⟨held.bytes.take n ++ got, data'', held', ?_, hlen, ?_, ?_⟩
        · simp only [hrecv, Option.bind_eq_bind, Option.bind_some, if_neg h1, if_neg h2, hctx]
          rw [if_pos (by omega)]
          simp only [hload, hst, hwhole, hst'', Option.bind_some]
        · rw [← hlen]
          exact htake''
        · rw [hstream, List.append_assoc]
    · have h2 : (got.length : Int) ≠ ((size - n : Nat) : Int) := by omega
      refine .inl ⟨duerErrTransWouldBlock, data', held', n + got.length, ?_, by decide,
        by omega, ?_⟩
      · simp only [hrecv, Option.bind_eq_bind, Option.bind_some, if_neg h1, if_pos h2,
          Int.toNat_natCast, hload, hst]
      · rw [hheld, hstream, List.append_assoc]

end Recv

/-! ## The end of the body call -/

/-- The length of the clear part, as the body says it. -/
def rawDataLen (whole : List UInt8) : Nat := (whole.headD 0).toNat

/-- What the octets behind the clear part decrypt to. -/
def plainText (aes : AesCbc) (ctx : AesContext) (whole : List UInt8) : List UInt8 :=
  aes.decrypt ctx (whole.drop (1 + rawDataLen whole))

/-- The length of the message, as the clear text says it. -/
def innerLen (plain : List UInt8) : Nat := ofBe32 ((plain.drop 4).take 4)

/-- What `decryptBody` does once the decrypted data are in `output`. -/
def copyMessage {cap : Nat} (trans : DuerTrans) (data : Buffer cap) (size : Nat)
    (output : Buffer 2048) : Option (Int × Buffer cap × DuerTrans) := do
  let word ← output.load 4 4
  let data ← data.store 0 (List.replicate size 0)
  let msg ← output.load 8 (ofBe32 word)
  let data ← data.store 0 msg
  some ((ofBe32 word : Int), data, { trans with receivedBody := output })

/-- `encrypted_msg_len`, an `unsigned int`. -/
def encryptedMsgLen (whole : List UInt8) : Nat :=
  subU32 (subU32 whole.length 1) (rawDataLen whole)

section Decrypt

variable (aes : AesCbc) (ctx : AesContext) (trans : DuerTrans) {cap : Nat} {data : Buffer cap}
  {whole : List UInt8}

theorem plainText_length (h : (whole.length - (1 + rawDataLen whole)) % 16 = 0) :
    (plainText aes ctx whole).length = whole.length - (1 + rawDataLen whole) := by
  have hdrop : (whole.drop (1 + rawDataLen whole)).length =
      whole.length - (1 + rawDataLen whole) := List.length_drop
  rw [plainText, aes.decrypt_length ctx _ (by rw [hdrop]; exact h), hdrop]

theorem load_rawDataLen (hpos : 0 < whole.length) (hcap : whole.length ≤ cap)
    (hdata : data.bytes.take whole.length = whole) :
    ∃ first, data.load 0 1 = some [first] ∧ first.toNat = rawDataLen whole := by
  cases whole with
  | nil => exact absurd hpos (Nat.lt_irrefl 0)
  | cons first rest =>
    refine ⟨first, ?_, rfl⟩
    have htake := congrArg (List.take 1) hdata
    rw [List.take_take, Nat.min_eq_left (by rw [List.length_cons]; omega)] at htake
    rw [data.load_zero (by rw [List.length_cons] at hcap; omega), htake]
    rfl

theorem encryptedMsgLen_of_le (hraw : 1 + rawDataLen whole ≤ whole.length) :
    encryptedMsgLen whole = whole.length - (1 + rawDataLen whole) := by
  have hone : subU32 whole.length 1 = whole.length - 1 := subU32_of_le (by omega)
  rw [encryptedMsgLen, hone, subU32_of_le (by omega)]
  omega

/-- The decryption call as `decryptBody` makes it. -/
theorem decryptBody_eq (hpos : 0 < whole.length) (hcap : whole.length ≤ cap)
    (hdata : data.bytes.take whole.length = whole) :
    decryptBody aes ctx trans data whole.length =
      (duerAesCbcDecrypt aes ctx data (1 + rawDataLen whole) (encryptedMsgLen whole)
        trans.receivedBody).bind fun p =>
          if p.1 < 0 then
            some (duerErrTransInternalError, data, { trans with receivedBody := p.2 })
          else (p.2.load 4 4).bind fun word =>
            (data.store 0 (List.replicate whole.length 0)).bind fun data =>
              (p.2.load 8 (ofBe32 word)).bind fun msg =>
                (data.store 0 msg).bind fun data =>
                  some (if p.1 = 0 then (ofBe32 word : Int) else p.1, data,
                    { trans with receivedBody := p.2 }) := by
  obtain ⟨first, hfirst, hlen⟩ := load_rawDataLen hpos hcap hdata
  simp only [decryptBody, hfirst, List.headD_cons, hlen, Option.bind_eq_bind, Option.bind_some,
    encryptedMsgLen]

/-- **The encrypted part is decrypted** into the transport's buffer, where it consists of whole
    blocks and lies inside the body. The octets that the buffer had behind the plain text are still
    there, which matters for a message that claims to be longer. -/
theorem decryptBody_blocks (hcap : whole.length ≤ cap)
    (hdata : data.bytes.take whole.length = whole) (hmax : whole.length ≤ 2048)
    (hraw : 1 + rawDataLen whole ≤ whole.length)
    (halign : (whole.length - (1 + rawDataLen whole)) % 16 = 0) :
    ∃ output : Buffer 2048,
      output.bytes = plainText aes ctx whole ++
        trans.receivedBody.bytes.drop (plainText aes ctx whole).length ∧
      decryptBody aes ctx trans data whole.length =
        copyMessage trans data whole.length output := by
  have hload : data.load (1 + rawDataLen whole) (whole.length - (1 + rawDataLen whole)) =
      some (whole.drop (1 + rawDataLen whole)) := by
    rw [data.load_eq_some (by omega), ← List.drop_take, hdata]
  have hplain := plainText_length aes ctx halign
  obtain ⟨output, hst, hout⟩ := trans.receivedBody.store_eq_some
    (show 0 + (plainText aes ctx whole).length ≤ 2048 by omega)
  refine ⟨output, by simpa using hout, ?_⟩
  have hdec : duerAesCbcDecrypt aes ctx data (1 + rawDataLen whole)
      (whole.length - (1 + rawDataLen whole)) trans.receivedBody = some (duerOk, output) := by
    rw [duerAesCbcDecrypt, if_neg (by omega)]
    rw [plainText] at hst
    simp only [hload, hst, Option.bind_eq_bind, Option.bind_some]
  rw [decryptBody_eq aes ctx trans (by omega) hcap hdata, encryptedMsgLen_of_le hraw, hdec,
    Option.bind_some, if_neg (show ¬ duerOk < 0 by decide)]
  rfl

/-- **The message is copied out**, where it lies inside the decrypted data. Its length is the one
    that the decrypted header has; nothing else says where it ends. -/
theorem copyMessage_fits (data : Buffer cap) {plain rest : List UInt8} {output : Buffer 2048}
    {size : Nat} (hout : output.bytes = plain ++ rest) (hfits : 8 + innerLen plain ≤ plain.length)
    (hsize : plain.length ≤ size) (hcap : size ≤ cap) :
    ∃ data', copyMessage trans data size output =
        some ((innerLen plain : Int), data', { trans with receivedBody := output }) ∧
      data'.bytes.take (innerLen plain) = (plain.drop 8).take (innerLen plain) := by
  have hlen := congrArg List.length hout
  rw [output.bytes_length, List.length_append] at hlen
  have hpart (off n : Nat) (h : off + n ≤ plain.length) :
      output.load off n = some ((plain.drop off).take n) := by
    rw [output.load_eq_some (by omega), hout, List.drop_append_of_le_length (by omega),
      List.take_append_of_le_length (by rw [List.length_drop]; omega)]
  have hword := hpart 4 4 (by omega)
  have hmsg := hpart 8 (innerLen plain) hfits
  have hmsgLen : ((plain.drop 8).take (innerLen plain)).length = innerLen plain := by
    rw [List.length_take, List.length_drop]
    omega
  obtain ⟨zeroed, hzero, -⟩ :=
    data.store_zero (show (List.replicate size (0 : UInt8)).length ≤ cap by simpa using hcap)
  obtain ⟨data', hst, htake⟩ := zeroed.store_zero
    (show ((plain.drop 8).take (innerLen plain)).length ≤ cap by omega)
  rw [hmsgLen] at htake
  refine ⟨data', ?_, htake⟩
  rw [innerLen] at hmsg hst ⊢
  simp only [copyMessage, hword, hzero, hmsg, hst, Option.bind_eq_bind, Option.bind_some]

end Decrypt

section WellFormed

variable (aes : AesCbc) (ctx : AesContext) (trans : DuerTrans) {cap : Nat} {data : Buffer cap}

theorem innerLen_clearText {message padding : List UInt8} (h : message.length < 2 ^ 32) :
    innerLen (be32 duerCoapTcpHdr ++ be32 message.length ++ message ++ padding) =
      message.length := by
  rw [innerLen, List.append_assoc, List.append_assoc,
    take_drop_middle (be32_length _) (be32_length _), ofBe32_be32 h]

/-- **Decryption of a body gives its message**: the clear part, whose length fits one octet, the
    message with its header over TCP, and padding to whole blocks. -/
theorem decryptBody_message {rawData message padding : List UInt8} (hraw : rawData.length ≤ 255)
    (halign : (8 + message.length + padding.length) % 16 = 0)
    (hmax : 1 + rawData.length + (8 + message.length + padding.length) ≤ 2048)
    (hcap : 1 + rawData.length + (8 + message.length + padding.length) ≤ cap)
    (hdata : data.bytes.take (1 + rawData.length + (8 + message.length + padding.length)) =
      UInt8.ofNat rawData.length :: rawData ++ aes.encrypt ctx
        (be32 duerCoapTcpHdr ++ be32 message.length ++ message ++ padding)) :
    ∃ data' output, decryptBody aes ctx trans data
        (1 + rawData.length + (8 + message.length + padding.length)) =
        some ((message.length : Int), data', { trans with receivedBody := output }) ∧
      data'.bytes.take message.length = message := by
  obtain ⟨clear, hclear⟩ : ∃ clear, clear =
      be32 duerCoapTcpHdr ++ be32 message.length ++ message ++ padding := ⟨_, rfl⟩
  have hclearLen : clear.length = 8 + message.length + padding.length := by
    rw [hclear]
    simp
    omega
  have haligned : clear.length % 16 = 0 := hclearLen ▸ halign
  have henc := aes.encrypt_length ctx clear haligned
  rw [← hclear] at hdata
  obtain ⟨whole, hwhole⟩ : ∃ whole, whole =
      UInt8.ofNat rawData.length :: rawData ++ aes.encrypt ctx clear := ⟨_, rfl⟩
  have hlen : whole.length = 1 + rawData.length + (8 + message.length + padding.length) := by
    rw [hwhole]
    simp
    omega
  rw [← hwhole, ← hlen] at hdata
  have hrawLen : rawDataLen whole = rawData.length := by
    rw [hwhole]
    simp [rawDataLen]
    omega
  have hplain : plainText aes ctx whole = clear := by
    rw [plainText, hrawLen, hwhole, List.drop_left' (by simp; omega),
      aes.decrypt_encrypt ctx clear haligned]
  obtain ⟨output, hout, hdec⟩ := decryptBody_blocks aes ctx trans (hlen ▸ hcap) hdata
    (hlen ▸ hmax) (by omega) (by omega)
  rw [hplain] at hout
  have hinner : innerLen clear = message.length := by
    rw [hclear]
    exact innerLen_clearText (by omega)
  obtain ⟨data', hcopy, htake⟩ := copyMessage_fits trans data hout
    (by omega) (show clear.length ≤ whole.length by omega) (hlen ▸ hcap)
  refine ⟨data', output, ?_, ?_⟩
  · rw [← hlen, hdec, hcopy, hinner]
  · rw [hinner, hclear] at htake
    rw [htake, List.append_assoc]
    exact take_drop_middle (by simp) rfl

/-- **Decryption of a well-formed body** gives its message, in front of the caller's buffer,
    whatever was in either buffer before. -/
theorem decryptBody_wellFormed {f : EncryptedFrame} (hcap : f.bodySize ≤ cap)
    (hdata : data.bytes.take f.bodySize = f.body aes ctx) :
    ∃ data' output, decryptBody aes ctx trans data f.bodySize =
        some ((f.message.length : Int), data', { trans with receivedBody := output }) ∧
      data'.bytes.take f.message.length = f.message :=
  decryptBody_message aes ctx trans f.rawData_le f.aligned f.body_le hcap hdata

end WellFormed

end Net
end LightDuer
