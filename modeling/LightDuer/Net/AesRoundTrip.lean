import LightDuer.Net.AesSegmentation

/-!
# The AES-CBC frame, there and back

A CoAP message that `duer_coap_nsdl_tx` hands to `duer_trans_aes_cbc_encrypted_send` is framed
twice: with the header of CoAP over TCP, inside what is encrypted, and with the header of the
transport around the device id and the cipher text. The receiving side asks for the outer header and
then for as many octets as it announces; the message it is left with is the one sent, whatever its
length and that of the id.

The two ends have the same key and vector and nothing else in common. The receiver's own id is not
the sender's, since the clear part is skipped and not compared; its buffer may be larger than the
body. The cipher is the parameter `AesCbc`: it keeps the length of whole blocks and decryption
undoes encryption, and no other property of it is used.

Segmentation is left out here, since it has a theorem of its own. `AtFrame` says that the receiver
stands between two frames and that its socket gives the header and the body in a piece each; the two
calls are then the ones of `Net.AesFrames` with everything there at once. The lengths the theorem
asks for are those that the two limits of the format leave: one octet for the length of the id, and
`DUER_MAX_BODY_SIZE` for the body with its padding. A message that passes `duer_coap_nsdl_tx` and
does not fit them is sent in a frame that the receiver refuses.
-/

set_option autoImplicit false

namespace LightDuer
namespace Net

open Lib

/-- The receiver stands between two frames, and its socket gives `wire` in two pieces: the header,
    and the rest. -/
structure AtFrame (trans : DuerTrans) (wire rest : List UInt8) : Prop where
  header : trans.receivedHeaderBytes = 0
  body : trans.receivedBodyBytes = 0
  stream : trans.sock.stream = wire ++ rest
  results : ∃ a b results, trans.sock.results = .ok a :: .ok b :: results ∧ 8 ≤ a ∧
    wire.length ≤ 8 + b

section Receive

variable (aes : AesCbc) (trans : DuerTrans) {hdr body rest : List UInt8}

/-- A grant of all that is asked for, of a stream that starts with it. -/
theorem recv_whole {src : Source} {k : Nat} {results : List (Except RecvError Nat)}
    {part rest : List UInt8} (hstream : src.stream = part ++ rest)
    (hresults : src.results = .ok k :: results) (hk : part.length ≤ k) (hne : part ≠ []) :
    src.recv part.length = (.ok part, ⟨rest, results⟩) := by
  have hpos := List.length_pos_of_ne_nil hne
  have hn : min k (min part.length src.stream.length) = part.length := by
    rw [hstream, List.length_append]
    omega
  rw [src.recv_grant hresults (by omega), hn, hstream, List.take_left, List.drop_left]

/-- The header call on a header that comes whole. -/
theorem duerTransAesCbcEncryptedRecv_wholeHeader {k : Nat}
    {results : List (Except RecvError Nat)} (hfresh : trans.receivedHeaderBytes = 0)
    (hsock : trans.sock = ⟨hdr ++ rest, .ok k :: results⟩) (hhdr : hdr.length = 8) (hk : 8 ≤ k)
    (value : Buffer 8) :
    ∃ header : Buffer 8, duerTransAesCbcEncryptedRecv aes trans value 8 = some (8, header,
        { trans with
          sock := ⟨rest, results⟩, receivedHeader := header, receivedHeaderBytes := 8 }) ∧
      header.bytes = coapHeader hdr := by
  have hrecv : trans.sock.recv (8 - trans.receivedHeaderBytes) = (.ok hdr, ⟨rest, results⟩) := by
    have hne : hdr ≠ [] := List.ne_nil_of_length_pos (by omega)
    have hwhole : trans.sock.recv hdr.length = (.ok hdr, ⟨rest, results⟩) :=
      recv_whole (by rw [hsock]) (by rw [hsock]) (hhdr.symm ▸ hk) hne
    rw [hfresh, Nat.sub_zero, ← hhdr]
    exact hwhole
  obtain ⟨rs, data', header, n, hcall, hcases⟩ :=
    duerTransAesCbcEncryptedRecv_header aes trans value (by omega)
  rw [hrecv] at hcall hcases
  simp only [hfresh, List.take_zero, List.nil_append, hsock] at hcases
  rcases hcases with ⟨-, hn, hstream⟩ | ⟨rfl, rfl, rfl, hdr', hlen', hheader, hstream⟩
  · -- what is there has been taken
    have hlen := congrArg List.length hstream
    simp only [List.length_append, List.length_take, Buffer.bytes_length] at hlen
    omega
  · obtain ⟨rfl, -⟩ := List.append_inj hstream (by omega)
    exact ⟨data', hcall, hheader⟩

/-- The body call on a body that comes whole: it is decrypted in the caller's buffer. -/
theorem duerTransAesCbcEncryptedRecv_wholeBody {ctx : AesContext} {k cap : Nat}
    {results : List (Except RecvError Nat)} (hctx : trans.secure = some ctx)
    (hfresh : trans.receivedBodyBytes = 0)
    (hsock : trans.sock = ⟨body ++ rest, .ok k :: results⟩) (hmin : 17 ≤ body.length)
    (hmax : body.length ≤ 2048) (hcap : body.length ≤ cap) (hk : body.length ≤ k)
    (data : Buffer cap) :
    ∃ (data' : Buffer cap) (held : Buffer 2048),
      duerTransAesCbcEncryptedRecv aes trans data body.length =
        decryptBody aes ctx { trans with
          sock := ⟨rest, results⟩
          receivedHeaderBytes := 0, receivedBody := held, receivedBodyBytes := 0 } data'
          body.length ∧
      data'.bytes.take body.length = body := by
  have hrecv : trans.sock.recv (body.length - trans.receivedBodyBytes) =
      (.ok body, ⟨rest, results⟩) := by
    have hne : body ≠ [] := List.ne_nil_of_length_pos (by omega)
    rw [hfresh, Nat.sub_zero]
    exact recv_whole (by rw [hsock]) (by rw [hsock]) hk hne
  rcases duerTransAesCbcEncryptedRecv_body aes trans data hctx hmin hmax hcap (by omega) with
    ⟨rs, data', held, n, hcall, hrs, hn, hstream⟩ |
      ⟨whole, data', held, hcall, hlen, hdata, hstream⟩
  · rw [hrecv] at hstream
    have hlength := congrArg List.length hstream
    simp only [hsock, hfresh, List.length_append, List.length_take, Buffer.bytes_length] at hlength
    omega
  · rw [hrecv] at hcall hstream
    simp only [hsock, hfresh, List.take_zero, List.nil_append] at hstream
    obtain ⟨rfl, -⟩ := List.append_inj hstream hlen.symm
    exact ⟨data', held, hcall, hdata⟩

end Receive

/-- **The frame format is there and back**: what `duer_coap_nsdl_tx` and
    `duer_trans_aes_cbc_encrypted_send` make of a message is read back, with the same key, as that
    message with its length, by a call for the header and one for the octets it announces. -/
theorem aesCbc_roundTrip (aes : AesCbc) (ctx : AesContext) (sender : DuerTrans)
    (message : List UInt8) (hsender : sender.secure = some ctx)
    (hid : sender.keyInfo.length ≤ 255)
    (hfit : 1 + sender.keyInfo.length +
      (8 + message.length + paddingLen (8 + message.length)) ≤ duerMaxBodySize) :
    ∃ packet wire, duerCoapNsdlTx .tcp true message = some packet ∧
      duerTransAesCbcEncryptedSend aes sender packet = some wire ∧
      ∀ (receiver : DuerTrans) (rest : List UInt8) (value : Buffer 8) (cap : Nat)
        (data : Buffer cap), receiver.secure = some ctx → AtFrame receiver wire rest →
        wire.length ≤ 8 + cap →
        ∃ header trans data' trans',
          duerTransAesCbcEncryptedRecv aes receiver value 8 = some (8, header, trans) ∧
          ofBe32 header.bytes = duerCoapTcpHdr ∧
          duerTransAesCbcEncryptedRecv aes trans data (ofBe32 (header.bytes.drop 4)) =
            some ((message.length : Int), data', trans') ∧
          data'.bytes.take message.length = message ∧
          trans'.sock.stream = rest ∧ trans'.receivedHeaderBytes = 0 ∧
          trans'.receivedBodyBytes = 0 := by
  unfold duerMaxBodySize at hfit
  obtain ⟨padding, hpadding⟩ : ∃ padding : List UInt8, padding =
      List.replicate (paddingLen (8 + message.length)) 0 := ⟨_, rfl⟩
  have hpadLen : padding.length = paddingLen (8 + message.length) := by simp [hpadding]
  have halign := paddingLen_aligned (8 + message.length)
  rw [← hpadLen] at hfit halign
  obtain ⟨size, hsize⟩ : ∃ size, size =
    1 + sender.keyInfo.length + (8 + message.length + padding.length) := ⟨_, rfl⟩
  obtain ⟨body, hbody⟩ : ∃ body, body = UInt8.ofNat sender.keyInfo.length :: sender.keyInfo ++
    aes.encrypt ctx (be32 duerCoapTcpHdr ++ be32 message.length ++ message ++ padding) := ⟨_, rfl⟩
  have hclear : (be32 duerCoapTcpHdr ++ be32 message.length ++ message ++ padding).length =
      8 + message.length + padding.length := by
    simp
    omega
  have hbodyLen : body.length = size := by
    have henc := aes.encrypt_length ctx _ (hclear ▸ halign)
    rw [hbody, List.cons_append, List.length_cons, List.length_append, henc, hclear, hsize]
    omega
  refine ⟨be32 duerCoapTcpHdr ++ be32 message.length ++ message,
    (be32 duerBdcaecMn ++ be32 size) ++ body, duerCoapNsdlTx_tcp (by omega), ?_, ?_⟩
  · have hlen : (be32 duerCoapTcpHdr ++ be32 message.length ++ message).length =
        8 + message.length := by
      simp
      omega
    rw [duerTransAesCbcEncryptedSend_eq aes hsender, hlen, ← hpadding, ← hpadLen, ← hsize, hbody]
  · intro receiver rest value cap data hreceiver hat hcap
    obtain ⟨a, b, results, hresults, ha, hb⟩ := hat.results
    rw [List.length_append, hbodyLen] at hb hcap
    have hhdr : (be32 duerBdcaecMn ++ be32 size).length = 8 := rfl
    have hsock : receiver.sock =
        ⟨(be32 duerBdcaecMn ++ be32 size) ++ (body ++ rest), .ok a :: .ok b :: results⟩ := by
      have hstream := hat.stream
      rw [List.append_assoc] at hstream
      rcases hs : receiver.sock with ⟨stream, results'⟩
      rw [hs] at hresults hstream
      simp only at hresults hstream
      rw [hresults, hstream]
    obtain ⟨header, hheader, hbytes⟩ := duerTransAesCbcEncryptedRecv_wholeHeader aes receiver
      hat.header hsock hhdr ha value
    rw [coapHeader, ofBe32_be32_append (by decide), if_pos rfl,
      List.drop_left' (be32_length _)] at hbytes
    have hannounced : ofBe32 (header.bytes.drop 4) = body.length := by
      rw [hbytes, List.drop_left' (be32_length _), ofBe32_be32 (by omega), hbodyLen]
    obtain ⟨data', held, hcall, hdata⟩ := duerTransAesCbcEncryptedRecv_wholeBody aes
      { receiver with
        sock := ⟨body ++ rest, .ok b :: results⟩, receivedHeader := header
        receivedHeaderBytes := 8 }
      hreceiver hat.body rfl (by omega) (by omega) (show body.length ≤ cap by omega) (by omega) data
    rw [hbodyLen, hsize, hbody] at hdata
    obtain ⟨data'', output, hdec, htake⟩ := decryptBody_message aes ctx
      { receiver with
        sock := ⟨rest, results⟩, receivedHeader := header, receivedHeaderBytes := 0
        receivedBody := held, receivedBodyBytes := 0 }
      hid halign hfit (by omega) hdata
    rw [← hsize, ← hbodyLen] at hdec
    have hmask : ofBe32 header.bytes = duerCoapTcpHdr := by
      rw [hbytes, ofBe32_be32_append (by decide)]
    have hread := hcall.trans hdec
    rw [← hannounced] at hread
    exact ⟨header, _, data'', _, hheader, hmask, hread, htake, rfl, rfl, rfl⟩

/-- The key `00 01 … 0f` and a zero vector. -/
def countingKey : AesContext :=
  ⟨[0, 1, 2, 3, 4, 5, 6, 7, 8, 9, 10, 11, 12, 13, 14, 15], List.replicate 16 0⟩

/-- The device `12` sends a message of four octets to a receiver of another id. -/
theorem aesCbc_roundTrip_oneBlock :
    ∃ packet wire, duerCoapNsdlTx .tcp true [0x40, 0x01, 0x12, 0x34] = some packet ∧
      duerTransAesCbcEncryptedSend oneBlockAes
        (DuerTrans.connected ⟨[], []⟩ countingKey [0x31, 0x32]) packet = some wire ∧
      ∃ header trans data trans',
        duerTransAesCbcEncryptedRecv oneBlockAes
          (DuerTrans.connected ⟨wire, [.ok 8, .ok 19]⟩ countingKey [0x33]) (Buffer.fill 8 0) 8 =
            some (8, header, trans) ∧
        duerTransAesCbcEncryptedRecv oneBlockAes trans (Buffer.fill duerBufferSize 0)
          (ofBe32 (header.bytes.drop 4)) = some (4, data, trans') ∧
        data.bytes.take 4 = [0x40, 0x01, 0x12, 0x34] := by
  obtain ⟨packet, wire, hpacket, hwire, hread⟩ := aesCbc_roundTrip oneBlockAes countingKey
    (DuerTrans.connected ⟨[], []⟩ countingKey [0x31, 0x32]) [0x40, 0x01, 0x12, 0x34] rfl
    (by decide) (by decide)
  have hlen : wire.length = 27 := by
    obtain rfl := Option.some.inj hpacket
    obtain rfl := Option.some.inj hwire
    decide
  have hat : AtFrame (DuerTrans.connected ⟨wire, [.ok 8, .ok 19]⟩ countingKey [0x33]) wire [] :=
    ⟨rfl, rfl, (List.append_nil wire).symm, 8, 19, [], rfl, Nat.le_refl 8, by omega⟩
  obtain ⟨header, trans, data, trans', hheader, -, hbody, hmessage, -⟩ := hread
    (DuerTrans.connected ⟨wire, [.ok 8, .ok 19]⟩ countingKey [0x33]) [] (Buffer.fill 8 0)
    duerBufferSize (Buffer.fill duerBufferSize 0) rfl hat (by rw [hlen]; decide)
  exact ⟨packet, wire, hpacket, hwire, header, trans, data, trans', hheader, hbody, hmessage⟩

end Net
end LightDuer
