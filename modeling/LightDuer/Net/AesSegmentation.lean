import LightDuer.Net.AesFrames

/-!
# Receiving over AES-CBC does not depend on segmentation

A stream of well-formed encrypted frames is cut by the socket in any way. Between two calls of
`duer_coap_recv` the receiver is in one of two positions: inside a header, with the first octets of
it in `receivedHeader`, or inside a body, with the header and the first octets of the body held.
`RecvInv` says so of the frames still to be handed over; each call keeps it and hands over the
message of the frame it completes.

## The invariant

Both positions are described by one equation: what the receiver holds, followed by the rest of the
stream, is what is left of the frames. Nothing is said about how the octets came, and so no case is
made on the segmentation. A call takes a piece off the stream and puts it behind what is held, which
leaves the equation as it is; it ends the header or the body when as many octets are there as it
needs, and these are then the header or the body of the next frame.

The counters are the rest of the invariant. In a header no octet of a body is held, and in a body
the eight octets of the header are, with its magic number replaced by that of CoAP, so that
`duer_coap_recv` reads the same header again at each call.

## Progress

That everything arrives in the end needs the socket to give enough. `Source.Advance` says that a
call takes at least one of the results to come, `Source.Enough` that these suffice for the stream;
when all have been taken, the stream is empty and the messages are all there.
-/

set_option autoImplicit false

namespace LightDuer
namespace Net

open Lib EncryptedFrame

/-- Where the receiver can stand when `rest` are the frames whose messages are still to be
    handed over: what it holds, followed by the rest of the stream, is exactly theirs. -/
inductive RecvInv (aes : AesCbc) (ctx : AesContext) : List EncryptedFrame → DuerTrans → Prop
  | header {rest : List EncryptedFrame} {trans : DuerTrans} : trans.secure = some ctx →
      trans.receivedHeaderBytes < 8 → trans.receivedBodyBytes = 0 →
      trans.receivedHeader.bytes.take trans.receivedHeaderBytes ++ trans.sock.stream =
        wires aes ctx rest → RecvInv aes ctx rest trans
  | body {f : EncryptedFrame} {rest : List EncryptedFrame} {trans : DuerTrans} :
      trans.secure = some ctx → trans.receivedHeaderBytes = 8 →
      trans.receivedHeader.bytes = be32 duerCoapTcpHdr ++ be32 f.bodySize →
      trans.receivedBodyBytes < f.bodySize →
      trans.receivedBody.bytes.take trans.receivedBodyBytes ++ trans.sock.stream =
        f.body aes ctx ++ wires aes ctx rest → RecvInv aes ctx (f :: rest) trans

section Step

variable {aes : AesCbc} {ctx : AesContext} {rest : List EncryptedFrame}

/-- What is left of the stream determines how much has been taken beyond the frames done. -/
theorem RecvInv.held {trans : DuerTrans} (h : RecvInv aes ctx rest trans) :
    (rest = [] ∧ trans.sock.stream = []) ∨
    ∃ f fs held, rest = f :: fs ∧ held < (f.wire aes ctx).length ∧
      held + trans.sock.stream.length = (wires aes ctx rest).length := by
  cases h with
  | header hctx hlt hbody hs =>
    cases rest with
    | nil => exact .inl ⟨rfl, (List.append_eq_nil_iff.mp hs).2⟩
    | cons f fs =>
      have hlen := congrArg List.length hs
      refine .inr ⟨f, fs, trans.receivedHeaderBytes, rfl, by rw [wire_length]; omega, ?_⟩
      rw [← hlen]
      simp
      omega
  | @body f fs _ hctx hh hhdr hlt hs =>
    have hlen := congrArg List.length hs
    have hle := f.bodySize_le
    refine .inr ⟨f, fs, 8 + trans.receivedBodyBytes, rfl, by rw [wire_length]; omega, ?_⟩
    simp only [List.length_append, List.length_take, Buffer.bytes_length, body_length] at hlen
    simp only [wires, List.flatMap_cons, List.length_append, wire_length] at hlen ⊢
    omega

/-- The body call of `duer_coap_recv`, inside the body of `f`. -/
theorem duerCoapRecvMessage_aes (coap : DuerCoap DuerTrans) {f : EncryptedFrame}
    (stack : Buffer duerBufferSize) (hctx : coap.trans.secure = some ctx)
    (hh : coap.trans.receivedHeaderBytes = 8)
    (hhdr : coap.trans.receivedHeader.bytes = be32 duerCoapTcpHdr ++ be32 f.bodySize)
    (hlt : coap.trans.receivedBodyBytes < f.bodySize)
    (hs : coap.trans.receivedBody.bytes.take coap.trans.receivedBodyBytes ++
      coap.trans.sock.stream = f.body aes ctx ++ wires aes ctx rest) :
    ∃ rs handed tr, duerCoapRecvMessage (aesCbcTransport aes) coap stack f.bodySize =
        some (rs, handed, { coap with trans := tr }) ∧
      tr.sock = (coap.trans.sock.recv (f.bodySize - coap.trans.receivedBodyBytes)).2 ∧
      ((handed = none ∧ RecvInv aes ctx (f :: rest) tr) ∨
        (handed = some f.message ∧ RecvInv aes ctx rest tr)) := by
  have hle := f.bodySize_le
  have hcap : f.bodySize ≤ duerBufferSize := hle
  rcases duerTransAesCbcEncryptedRecv_body aes coap.trans stack hctx
    f.bodySize_ge hle hcap hlt with
    ⟨rs, data, body, n, hrecv, hrs, hn, hkeep⟩ | ⟨whole, data, body, hrecv, hlen, hdata, hsplit⟩
  · refine ⟨rs, none, _, duerCoapRecvMessage_none hrecv hrs, rfl, .inl ⟨rfl, ?_⟩⟩
    exact .body hctx hh hhdr hn (hkeep.trans hs)
  · -- the octets of the body are together: they are the body of `f`
    obtain ⟨hwhole, htail⟩ : whole = f.body aes ctx ∧
        (coap.trans.sock.recv (f.bodySize - coap.trans.receivedBodyBytes)).2.stream =
          wires aes ctx rest :=
      List.append_inj (hsplit.symm.trans hs) (by rw [hlen, body_length])
    rw [hwhole] at hdata
    obtain ⟨data', output, hdec, htake⟩ := decryptBody_wellFormed aes ctx
      { coap.trans with
        sock := (coap.trans.sock.recv (f.bodySize - coap.trans.receivedBodyBytes)).2
        receivedHeaderBytes := 0, receivedBody := body, receivedBodyBytes := 0 } hcap hdata
    have hmsg : f.message.length ≤ duerBufferSize := by
      unfold duerBufferSize EncryptedFrame.bodySize at *
      omega
    refine ⟨_, some f.message, _, duerCoapRecvMessage_some (hrecv.trans hdec) f.message_ne hmsg
      htake, rfl, .inr ⟨rfl, ?_⟩⟩
    exact .header hctx (by simp) rfl (by simpa using htail)

/-- **One call of `duer_coap_recv`** from any position: it runs without a memory fault, takes
    at least one receive result, and hands over nothing or the message of the next frame. -/
theorem duerCoapDataAvailable_aes {coap : DuerCoap DuerTrans} (hr : coap.remote = .tcp)
    (h : RecvInv aes ctx rest coap.trans) (stack : Buffer duerBufferSize) :
    ∃ rs handed tr, duerCoapDataAvailable (aesCbcTransport aes) coap stack =
        some (rs, handed, { coap with trans := tr }) ∧
      Source.Advance coap.trans.sock tr.sock ∧
      ((handed = none ∧ RecvInv aes ctx rest tr) ∨
        ∃ f fs, rest = f :: fs ∧ handed = some f.message ∧ RecvInv aes ctx fs tr) := by
  cases h with
  | header hctx hlt hbody hs =>
    obtain ⟨rs, value, header, n, hrecv, hcase⟩ :=
      duerTransAesCbcEncryptedRecv_header aes coap.trans (Buffer.fill 8 0) hlt
    have hneed : 0 < 8 - coap.trans.receivedHeaderBytes := by omega
    rcases hcase with ⟨hrs, hn, hkeep⟩ | ⟨rfl, rfl, rfl, hdr, hlen, hhdr, hsplit⟩
    · refine ⟨rs, none, _, duerCoapRecv_reject hr hrecv (.inl (by omega)), .one hneed,
        .inl ⟨rfl, ?_⟩⟩
      exact .header hctx hn hbody (hkeep.trans hs)
    · -- the header is whole, so it is the header of the next frame
      cases rest with
      | nil =>
        have h8 := congrArg List.length (hsplit.symm.trans hs)
        simp [hlen, wires] at h8
      | cons f fs =>
        obtain ⟨rfl, htail⟩ : hdr = be32 duerBdcaecMn ++ be32 f.bodySize ∧
            (coap.trans.sock.recv (8 - coap.trans.receivedHeaderBytes)).2.stream =
              f.body aes ctx ++ wires aes ctx fs := by
          refine List.append_inj (hsplit.symm.trans (hs.trans ?_)) (by simpa using hlen)
          simp [wires, wire]
        have hle := f.bodySize_le
        have hge := f.bodySize_ge
        have hvalue : value.bytes = be32 duerCoapTcpHdr ++ be32 f.bodySize := by
          rw [hhdr, coapHeader, ofBe32_be32_append (by decide), if_pos rfl,
            List.drop_left' (be32_length _)]
        obtain ⟨rs, handed, tr, hmsg, hsock, hout⟩ :=
          duerCoapRecvMessage_aes { coap with trans := { coap.trans with
              sock := (coap.trans.sock.recv (8 - coap.trans.receivedHeaderBytes)).2
              receivedHeader := value, receivedHeaderBytes := 8 } }
            stack hctx rfl hvalue (by simp only [hbody]; omega)
            (by simpa [hbody] using htail)
        refine ⟨rs, handed, tr,
          (duerCoapRecv_header hr hrecv hvalue hle (by omega)).trans hmsg, ?_, ?_⟩
        · rw [hsock]
          exact .more (.one hneed) (by simp only [hbody]; omega)
        · rcases hout with hnone | ⟨hsome, hinv⟩
          · exact .inl hnone
          · exact .inr ⟨f, fs, rfl, hsome, hinv⟩
  | @body f fs _ hctx hh hhdr hlt hs =>
    have hle := f.bodySize_le
    obtain ⟨rs, handed, tr, hmsg, hsock, hout⟩ :=
      duerCoapRecvMessage_aes coap stack hctx hh hhdr hlt hs
    refine ⟨rs, handed, tr,
      (duerCoapRecv_header hr (duerTransAesCbcEncryptedRecv_cached aes coap.trans _ hh) hhdr hle
        (by omega)).trans hmsg, ?_, ?_⟩
    · rw [hsock]
      exact .one (by omega)
    · rcases hout with hnone | ⟨hsome, hinv⟩
      · exact .inl hnone
      · exact .inr ⟨f, fs, rfl, hsome, hinv⟩

/-- **Any number of calls**: the frames split into those whose messages were handed over, in order,
    and those still to come, where the receiver stands as `RecvInv` says. The induction is on the
    calls, with the split of one call put in front of that of the others; every call uses up a
    result of the socket, which bounds how many calls can be in vain. -/
theorem dataAvailableRun_aes (calls : List (Buffer duerBufferSize)) :
    ∀ {rest : List EncryptedFrame} (coap : DuerCoap DuerTrans), coap.remote = .tcp →
      RecvInv aes ctx rest coap.trans →
      ∃ done rest' coap', dataAvailableRun (aesCbcTransport aes) coap calls =
          some (done.map message, coap') ∧ rest = done ++ rest' ∧
        RecvInv aes ctx rest' coap'.trans ∧
        (coap.trans.sock.Enough → coap'.trans.sock.Enough) ∧
        coap'.trans.sock.results.length ≤ coap.trans.sock.results.length - calls.length := by
  induction calls with
  | nil => exact fun {rest} coap _ h => ⟨[], rest, coap, rfl, rfl, h, id, by simp⟩
  | cons stack calls ih =>
    intro rest coap hr h
    obtain ⟨rs, handed, tr, hcall, hadv, hout⟩ := duerCoapDataAvailable_aes hr h stack
    have hres := hadv.results_length
    rcases hout with ⟨rfl, hinv⟩ | ⟨f, fs, rfl, rfl, hinv⟩
    · obtain ⟨done, rest', coap', hrun, hsplit, hinv', hen, hlen⟩ :=
        ih { coap with trans := tr } hr hinv
      refine ⟨done, rest', coap', dataAvailableRun_cons hcall hrun, hsplit, hinv',
        fun he => hen (hadv.enough he), ?_⟩
      simp only [List.length_cons] at hlen ⊢
      omega
    · obtain ⟨done, rest', coap', hrun, rfl, hinv', hen, hlen⟩ :=
        ih { coap with trans := tr } hr hinv
      refine ⟨f :: done, rest', coap', dataAvailableRun_cons hcall hrun, rfl, hinv',
        fun he => hen (hadv.enough he), ?_⟩
      simp only [List.length_cons] at hlen ⊢
      omega

end Step

/-- **Receiving over AES-CBC is independent of segmentation.** For every list of well-formed
    frames on the wire, every sequence of socket results and every number of calls: no call
    accesses memory outside a buffer, and the messages handed to the CoAP library are those of
    the frames that lie wholly inside the octets taken so far. Once there were enough results
    and calls to take the stream, these are all messages. -/
theorem aesCbc_recv_segmentation (aes : AesCbc) (ctx : AesContext) (keyInfo : List UInt8)
    (frames : List EncryptedFrame) (results : List (Except RecvError Nat))
    (nsdl : List UInt8 → Int) (calls : List (Buffer duerBufferSize)) :
    ∃ msgs coap', dataAvailableRun (aesCbcTransport aes)
        { trans := DuerTrans.connected ⟨wires aes ctx frames, results⟩ ctx keyInfo
          remote := .tcp, nsdl } calls = some (msgs, coap') ∧
      msgs = (within (fun f => (f.wire aes ctx).length) frames
        ((wires aes ctx frames).length - coap'.trans.sock.stream.length)).map message ∧
      (results.length ≤ calls.length → (wires aes ctx frames).length ≤ Source.grants results →
        msgs = frames.map message) := by
  obtain ⟨done, rest, coap', hrun, rfl, hinv, hen, hres⟩ := dataAvailableRun_aes calls
    { trans := DuerTrans.connected ⟨wires aes ctx frames, results⟩ ctx keyInfo
      remote := .tcp, nsdl } rfl (.header rfl (by simp [DuerTrans.connected]) rfl rfl)
  refine ⟨_, coap', hrun, ?_, fun hcalls hgrants => ?_⟩
  · congr 1
    rcases hinv.held with ⟨rfl, hs⟩ | ⟨f, fs, held, rfl, hlt, hlen⟩
    · rw [hs, List.append_nil, List.length_nil, Nat.sub_zero, wires_length, within_all]
    · have htaken : (wires aes ctx (done ++ f :: fs)).length - coap'.trans.sock.stream.length =
          (done.map (fun f => (f.wire aes ctx).length)).sum + held := by
        rw [← wires_length]
        simp only [wires, List.flatMap_append, List.length_append] at hlen ⊢
        omega
      rw [htaken]
      exact (within_append (fun g : EncryptedFrame => (g.wire aes ctx).length) hlt).symm
  · have hnil : coap'.trans.sock.stream = [] := by
      refine (hen hgrants).stream_eq_nil (List.eq_nil_of_length_eq_zero ?_)
      simp only [DuerTrans.connected] at hres
      omega
    rcases hinv.held with ⟨rfl, -⟩ | ⟨f, fs, held, rfl, hlt, hlen⟩
    · rw [List.append_nil]
    · -- nothing is left of the stream, so nothing can be missing of a frame
      rw [hnil] at hlen
      simp only [wires, List.flatMap_cons, List.length_append, List.length_nil] at hlen
      omega

/-! ### A run -/

/-- A cipher that agrees with AES-128-CBC under the key `00 01 … 0f` and a zero vector on one
    block, a CoAP message of four octets in its frame, and swaps it with its cipher text. -/
def oneBlockAes : AesCbc :=
  let clear : List UInt8 := [0xbe, 0xef, 0xde, 0xad, 0, 0, 0, 4, 0x40, 0x01, 0x12, 0x34, 0, 0, 0, 0]
  let cipher : List UInt8 := [0x2d, 0x25, 0xc5, 0xe3, 0x23, 0xe3, 0x5c, 0x0c,
    0xdf, 0xa5, 0x7a, 0xb1, 0x6e, 0x0a, 0xba, 0x63]
  let swap (xs : List UInt8) := if xs = clear then cipher else if xs = cipher then clear else xs
  have hlen (xs) : (swap xs).length = xs.length := by
    unfold swap
    split
    · simp_all [clear, cipher]
    · split <;> simp_all [clear, cipher]
  { encrypt := fun _ => swap
    decrypt := fun _ => swap
    encrypt_length := fun _ xs _ => hlen xs
    decrypt_length := fun _ xs _ => hlen xs
    decrypt_encrypt := by
      intro _ xs _
      have hne : cipher ≠ clear := by decide
      by_cases h1 : xs = clear
      · simp [swap, h1, hne]
      · by_cases h2 : xs = cipher <;> simp [swap, h1, h2, hne] }

/-- The frame of that message, from the device `12`. -/
def oneBlockFrame : EncryptedFrame where
  rawData := [0x31, 0x32]
  message := [0x40, 0x01, 0x12, 0x34]
  padding := [0, 0, 0, 0]
  rawData_le := by decide
  message_ne := by decide
  aligned := by decide
  body_le := by decide

/-- Two frames that arrive three octets at a time, with a call that would block between any
    two pieces. -/
theorem aesCbc_recv_segmentation_threes :
    ∃ msgs coap', dataAvailableRun (aesCbcTransport oneBlockAes)
        { trans := DuerTrans.connected
            ⟨wires oneBlockAes ⟨[0, 1, 2, 3, 4, 5, 6, 7, 8, 9, 10, 11, 12, 13, 14, 15],
                List.replicate 16 0⟩ [oneBlockFrame, oneBlockFrame],
              (List.replicate 54 [.error .wouldBlock, .ok 3]).flatten⟩
            ⟨[0, 1, 2, 3, 4, 5, 6, 7, 8, 9, 10, 11, 12, 13, 14, 15], List.replicate 16 0⟩
            [0x31, 0x32]
          remote := .tcp, nsdl := fun _ => 0 }
        (List.replicate 108 (Buffer.fill duerBufferSize 0xcc)) = some (msgs, coap') ∧
      msgs = [[0x40, 0x01, 0x12, 0x34], [0x40, 0x01, 0x12, 0x34]] := by
  obtain ⟨msgs, coap', hrun, -, hall⟩ := aesCbc_recv_segmentation oneBlockAes
    ⟨[0, 1, 2, 3, 4, 5, 6, 7, 8, 9, 10, 11, 12, 13, 14, 15], List.replicate 16 0⟩ [0x31, 0x32]
    [oneBlockFrame, oneBlockFrame] (List.replicate 54 [.error .wouldBlock, .ok 3]).flatten
    (fun _ => 0) (List.replicate 108 (Buffer.fill duerBufferSize 0xcc))
  refine ⟨msgs, coap', hrun, hall ?_ ?_⟩
  · simp
  · decide

end Net
end LightDuer
