import LightDuer.Net.Coap

/-!
# The AES-CBC transport

`lightduer_net_trans_aes_cbc_encrypted.c` over the AES library of `lightduer_aes.c`. A frame on the
wire is a magic number, the length of the rest, one octet for the length of the clear part (the
device id), the clear part and the encrypted message:

    MAGIC NUMBER | LEN_1 | LEN_2 | raw data | encrypted data

The receiver is asked for the eight octets of the header and then for the body; what a short read
leaves unfinished is kept in `receivedHeader` and `receivedBody` across calls.

## The cipher

`AesCbc` is the block cipher mode as far as the transport relies on it: what is encrypted has its
length, in whole blocks, and decryption undoes encryption. It is a structure that carries these
laws, so everything that is proved of the transport holds for any such cipher, and neither key
schedule nor rounds come in.

## Sending and receiving

A message is padded with zeros to whole blocks. How long it is without them stands in its own
header, and the receiver reads it there once it has decrypted the body. The lengths are unsigned
numbers of 32 bits and one octet, and the model computes them as such. A receive call runs either
the header path or the body path; both return without a message as long as octets are missing, with
what there is moved to the transport's own buffer. `duerTransAesCbcEncryptedRecv` has no result
where a copy would leave its buffer.
-/

set_option autoImplicit false

namespace LightDuer
namespace Net

open Lib

/-- `DUER_BDCAEC_MN` -/
def duerBdcaecMn : Nat := 0xBDCAEC01

/-- `duer_aes_context_t`: key and initial vector. -/
structure AesContext where
  key : List UInt8
  iv : List UInt8
deriving DecidableEq

/-- The block cipher mode behind `mbedtls_aes_crypt_cbc`, as far as the transport relies on
    it: on whole blocks the length is kept and decryption undoes encryption. -/
structure AesCbc where
  encrypt : AesContext → List UInt8 → List UInt8
  decrypt : AesContext → List UInt8 → List UInt8
  encrypt_length : ∀ ctx xs, xs.length % 16 = 0 → (encrypt ctx xs).length = xs.length
  decrypt_length : ∀ ctx xs, xs.length % 16 = 0 → (decrypt ctx xs).length = xs.length
  decrypt_encrypt : ∀ ctx xs, xs.length % 16 = 0 → decrypt ctx (encrypt ctx xs) = xs

/-- The fields of `duer_trans_t` the transport uses; `sock` is the socket behind `ctx`. -/
structure DuerTrans where
  sock : Source
  secure : Option AesContext
  keyInfo : List UInt8
  receivedHeader : Buffer 8
  receivedHeaderBytes : Nat
  receivedBody : Buffer 2048
  receivedBodyBytes : Nat

/-- The transport right after `duer_trans_acquire`, which clears it, and a successful
    `duer_trans_aes_cbc_encrypted_connect`. -/
def DuerTrans.connected (sock : Source) (ctx : AesContext) (keyInfo : List UInt8) : DuerTrans where
  sock := sock
  secure := some ctx
  keyInfo := keyInfo
  receivedHeader := Buffer.fill 8 0
  receivedHeaderBytes := 0
  receivedBody := Buffer.fill 2048 0
  receivedBodyBytes := 0

/-! ## Sending -/

/-- The octets `duer_trans_aes_cbc_encrypted_send` gives to the socket for `data`, when its
    allocations succeed; `none` without a context. `raw_data_size` is one octet. -/
def duerTransAesCbcEncryptedSend (aes : AesCbc) (trans : DuerTrans) (data : List UInt8) :
    Option (List UInt8) :=
  match trans.secure with
  | none => none
  | some ctx =>
      let paddingLen := if data.length % 16 ≠ 0 then 16 - data.length % 16 else 0
      let input := data ++ List.replicate paddingLen 0
      let headerLen := 4 + 4 + 1 + trans.keyInfo.length
      let outputLen := headerLen + data.length + paddingLen
      some (be32 duerBdcaecMn ++ be32 (outputLen - 4 - 4) ++
        UInt8.ofNat trans.keyInfo.length :: trans.keyInfo ++ aes.encrypt ctx input)

/-! ## Receiving -/

/-- `duer_aes_cbc_decrypt` of `len` octets of `data` from `off` on into the start of
    `output`. A length that is not whole blocks is refused before anything is read. -/
def duerAesCbcDecrypt (aes : AesCbc) (ctx : AesContext) {cap cap' : Nat} (data : Buffer cap)
    (off len : Nat) (output : Buffer cap') : Option (Int × Buffer cap') :=
  if len % 16 ≠ 0 then
    some (duerErrFailed, output)
  else do
    let input ← data.load off len
    let output ← output.store 0 (aes.decrypt ctx input)
    some (duerOk, output)

/-- The end of the body path: decrypt the body in `data` and put the inner message, whose
    length stands in the clear text, in its place. `encryptedMsgLen` is an `unsigned int`. -/
def decryptBody (aes : AesCbc) (ctx : AesContext) {cap : Nat} (trans : DuerTrans)
    (data : Buffer cap) (size : Nat) : Option (Int × Buffer cap × DuerTrans) := do
  let first ← data.load 0 1
  let rawDataLen := (first.headD 0).toNat
  let encryptedMsgLen := subU32 (subU32 size 1) rawDataLen
  let (rs, output) ← duerAesCbcDecrypt aes ctx data (1 + rawDataLen) encryptedMsgLen
    trans.receivedBody
  let tr := { trans with receivedBody := output }
  if rs < 0 then
    some (duerErrTransInternalError, data, tr)
  else
    let word ← output.load 4 4
    let length := ofBe32 word
    let data ← data.store 0 (List.replicate size 0)
    let msg ← output.load 8 length
    let data ← data.store 0 msg
    some (if rs = 0 then (length : Int) else rs, data, tr)

/-- The body path of `duer_trans_aes_cbc_encrypted_recv`: `need` octets of a body of `size`
    are missing. -/
def recvBody (aes : AesCbc) {cap : Nat} (trans : DuerTrans) (data : Buffer cap)
    (size need : Nat) : Option (Int × Buffer cap × DuerTrans) := do
  let (rs, data, sock) ← duerTransWrapperRecv trans.sock data need
  let tr := { trans with sock }
  if rs ≤ 0 then
    some (rs, data, tr)
  else if rs ≠ need then
    -- part of the body: keep it and ask the caller to try again
    let got ← data.load 0 rs.toNat
    let body ← tr.receivedBody.store tr.receivedBodyBytes got
    some (duerErrTransWouldBlock, data, { tr with
      receivedBody := body, receivedBodyBytes := tr.receivedBodyBytes + rs.toNat })
  else
    match tr.secure with
    | none => some (duerErrTransInternalError, data, tr)
    | some ctx =>
        if need ≠ size then
          -- the parts kept from earlier calls go back in front of this one
          let got ← data.load 0 need
          let body ← tr.receivedBody.store tr.receivedBodyBytes got
          let whole ← body.load 0 size
          let data ← data.store 0 whole
          decryptBody aes ctx { tr with
            receivedBody := body, receivedHeaderBytes := 0, receivedBodyBytes := 0 } data size
        else
          decryptBody aes ctx { tr with receivedHeaderBytes := 0, receivedBodyBytes := 0 }
            data size

/-- The header path of `duer_trans_aes_cbc_encrypted_recv`: `need` octets are missing. -/
def recvHeader {cap : Nat} (trans : DuerTrans) (data : Buffer cap) (size need : Nat) :
    Option (Int × Buffer cap × DuerTrans) := do
  let (rs, data, sock) ← duerTransWrapperRecv trans.sock data need
  let tr := { trans with sock }
  if rs ≤ 0 then
    some (rs, data, tr)
  else if rs = need then
    let got ← data.load 0 need
    let header ← tr.receivedHeader.store tr.receivedHeaderBytes got
    let data ← data.store 0 header.bytes
    if ofBe32 data.bytes = duerBdcaecMn then
      -- the CoAP layer looks for its own magic number
      let data ← data.store 0 (be32 duerCoapTcpHdr)
      let whole ← data.load 0 size
      let header ← header.store 0 whole
      some (size, data, { tr with receivedHeader := header, receivedHeaderBytes := size })
    else
      some (size, data, { tr with receivedHeader := header, receivedHeaderBytes := size })
  else
    let got ← data.load 0 rs.toNat
    let header ← tr.receivedHeader.store tr.receivedHeaderBytes got
    some (duerErrTransWouldBlock, data, { tr with
      receivedHeader := header, receivedHeaderBytes := tr.receivedHeaderBytes + rs.toNat })

/-- `duer_trans_aes_cbc_encrypted_recv` -/
def duerTransAesCbcEncryptedRecv (aes : AesCbc) {cap : Nat} (trans : DuerTrans)
    (data : Buffer cap) (size : Nat) : Option (Int × Buffer cap × DuerTrans) :=
  if size = duerSizeofTcpheader then
    if trans.receivedHeaderBytes = duerSizeofTcpheader then do
      let data ← data.store 0 trans.receivedHeader.bytes
      some (size, data, trans)
    else if trans.receivedHeaderBytes < duerSizeofTcpheader then
      recvHeader trans data size (size - trans.receivedHeaderBytes)
    else
      some (duerErrTransInternalError, data, trans)
  else if duerMinBodySize ≤ size ∧ size ≤ duerMaxBodySize then
    if trans.receivedBodyBytes < size then
      recvBody aes trans data size (size - trans.receivedBodyBytes)
    else
      some (duerErrTransInternalError, data, trans)
  else
    some (duerErrTransInternalError, data, trans)

/-- The AES-CBC transport as the CoAP layer sees it. -/
def aesCbcTransport (aes : AesCbc) : Transport DuerTrans where
  recv := duerTransAesCbcEncryptedRecv aes

end Net
end LightDuer
