import Mathlib.Data.List.TakeWhile
import LightDuer.Lib.Loop
import LightDuer.LibCoap.Legible
import LightDuer.LibCoap.Reassembly

/-!
# A payload in blocks, from one end to the other

A request whose payload does not fit into a block, sent by this library to this library. The blocks
are as large as the smaller of the two sizes, each asked for by the acknowledgement of the one
before. The block number is not looked at where the blocks are put together; but the option is
written without its octets that are zero, and without its last one it may say that there is more to
come.

Two messages make a round: a block, and its acknowledgement. `At` is what is known in front of each
round, of both ends and of the request that is on its way; a round leads from one such state to the
next, and `Exchange.Round` says that what is given to the application in the one is given in the
other. `Going` adds that the blocks in front have been kept, and nothing else: this is where the
transfer is, up to its last block.
-/

set_option autoImplicit false

namespace LightDuer
namespace LibCoap

open Lib

/-! ## What is given to the application -/

/-- The message has this payload, and is said to be a whole one. -/
structure Whole (payload : List UInt8) (msg : SnCoapHdr) : Prop where
  ptr : msg.payloadPtr = some payload
  len : msg.payloadLen = payload.length
  status : msg.coapStatus = .parserBlockwiseMsgReceived

namespace Exchange

/-- The application that the message is on its way to is given this payload in the end. -/
def Delivered (t : Exchange) (payload : List UInt8) : Prop :=
  ∃ n msg, t.Given (2 * n) msg ∧ Whole payload msg

/-- Two messages lead from the one to the other, and neither has a whole payload given to an
    application. -/
def Round (t t' : Exchange) : Prop :=
  ∀ {n : Nat} {msg : SnCoapHdr}, msg.coapStatus = .parserBlockwiseMsgReceived →
    t.Given n msg → ∃ m, n = m + 2 ∧ t'.Given m msg

/-- The two messages arrive. -/
def Arrived (t t' : Exchange) : Prop :=
  ∀ {n : Nat} {msg : SnCoapHdr}, t'.Given n msg → t.Given (n + 2) msg

/-- Both ends have the addresses and the sizes of blocks that they had. -/
structure Same (t' t : Exchange) : Prop where
  here_addr : t'.here.addr = t.here.addr
  peer_addr : t'.peer.addr = t.peer.addr
  here_size : t'.here.coap.blockDataSize = t.here.coap.blockDataSize
  peer_size : t'.peer.coap.blockDataSize = t.peer.coap.blockDataSize

variable {t t' : Exchange} {payload : List UInt8}

end Exchange

/-! ## Options -/

section Options

variable {t : Nat} (number : Nat) (more : Bool)

theorem blockMore_blockOption (ht : t < 8) : blockMore (blockOption number more t) = more := by
  cases more <;> simp only [blockMore, blockOption] <;> grind

theorem blockTemp_blockOption (ht : t < 8) : blockTemp (blockOption number more t) = t := by
  cases more <;> simp only [blockTemp, blockOption] <;> grind

theorem blockNumber_blockOption (ht : t < 8) :
    blockNumber (blockOption number more t) = number := by
  cases more <;> simp only [blockNumber, blockOption] <;> grind

end Options

/-! ## Both ends -/

section Ends

variable {s : CoapS} {src : SnNsdlAddr} {received : SnCoapHdr}

/-- A valid message with a block goes through `sn_coap_protocol_parse` to the blocks; what is given
    to the application may get another path. -/
theorem protocolParse_block1 (s : CoapS) (src : SnNsdlAddr) (hstatus : received.coapStatus = .ok)
    (hcode : received.msgCode ∈ validCodes) (hpos : 0 < received.msgCode)
    (hblock : received.allocOptions.block1.isSome) :
    ∃ f : Handled → Handled, s.protocolParse src coapVersion1 received =
        (s.handleBlockwiseMessage src received).map f ∧
      (∀ handled, handled.result = none → f handled = handled) ∧
      ∀ coap sent msg, ∃ resending uriPath, f ⟨coap, sent, some msg⟩ =
        ⟨{ coap with resending }, sent, some { msg with uriPath }⟩ := by
  have hvalid : snCoapHeaderValidityCheck received coapVersion1 = true := by
    simpa [snCoapHeaderValidityCheck] using hcode
  have hnot : ¬(received.msgType = .confirmable ∧ received.msgCode = 0) := fun h =>
    absurd h.2 (by omega)
  rw [CoapS.protocolParse, if_neg (by rw [hstatus]; decide), hvalid, if_neg (by decide),
    if_neg hnot, CoapS.handleBlocks, if_pos (.inl hblock)]
  refine ⟨_, rfl, ?_, ?_⟩
  · intro handled hnone
    simp only [hnone]
  · intro coap sent msg
    exact ⟨_, _, rfl⟩

theorem protocolParse_of_block1 (src : SnNsdlAddr) (hstatus : received.coapStatus = .ok)
    (hcode : received.msgCode ∈ validCodes) (hpos : 0 < received.msgCode)
    (hblock : received.allocOptions.block1.isSome) {coap : CoapS} {sent : List SnCoapHdr}
    {msg : SnCoapHdr}
    (h : s.handleBlockwiseMessage src received = some ⟨coap, sent, some msg⟩) :
    ∃ resending uriPath, s.protocolParse src coapVersion1 received =
      some ⟨{ coap with resending }, sent, some { msg with uriPath }⟩ := by
  obtain ⟨f, hparse, -, hf⟩ := protocolParse_block1 s src hstatus hcode hpos hblock
  obtain ⟨resending, uriPath, hmsg⟩ := hf coap sent msg
  exact ⟨resending, uriPath, by rw [hparse, h, Option.map_some, hmsg]⟩

theorem read_block1 {v : Nat} (h : received.allocOptions.block1 = some v) :
    received.read.allocOptions.block1 = some (readInt v) := by
  have hlist : received.read.optionsList = received.optionsList.map (·.read) := rfl
  rw [SnCoapHdr.allocOptions] at h ⊢
  rw [hlist]
  cases hoptions : received.optionsList with
  | none =>
    rw [hoptions] at h
    exact absurd h.symm (Option.some_ne_none v)
  | some options =>
    rw [hoptions] at h
    exact congrArg (Option.map readInt) h

/-- The option of an acknowledgement: the size is not larger than the receiver's. -/
def ackOption (s : CoapS) (block1 : Nat) : Nat :=
  if snCoapConvertBlockSize s.blockDataSize < blockTemp block1 then
    block1 / 8 * 8 + snCoapConvertBlockSize s.blockDataSize
  else block1

/-- Of an option in a packet the acknowledgement has one that is not larger. -/
theorem ackOption_le (s : CoapS) (block1 : Nat) : ackOption s block1 ≤ block1 := by
  rw [ackOption]
  split
  · next hlt =>
    rw [blockTemp] at hlt
    omega
  · exact Nat.le_refl _

theorem request_codes {c : Nat} (h : 1 ≤ c) (h' : c ≤ 4) :
    c ∈ validCodes ∧
      4 < (if c = 1 then 69 else if c = 2 then 95 else if c = 3 then 95 else if c = 4 then 66
        else 0) ∧
      (if c = 1 then 69 else if c = 2 then 95 else if c = 3 then 95 else if c = 4 then 66
        else 0) ∈ validCodes := by
  have hc : c = 1 ∨ c = 2 ∨ c = 3 ∨ c = 4 := by omega
  rcases hc with rfl | rfl | rfl | rfl <;> decide

/-- The acknowledgement of a block has the token and the ID of the block, and nothing else than the
    option for it. -/
theorem block1Ack_bare (s : CoapS) (hcode : 1 ≤ received.msgCode ∧ received.msgCode ≤ 4)
    (htoken : HasLength received.tokenPtr received.tokenLen ∧ received.tokenLen ≤ 8)
    (hid : received.msgId < 2 ^ 16) (hsize1 : received.allocOptions.size1 < 2 ^ 16) {v : Nat}
    (hv : v < 2 ^ 24) :
    Bare (s.block1Ack received v) (some (ackOption s v)) none ∧
      4 < (s.block1Ack received v).msgCode ∧ (s.block1Ack received v).msgId = received.msgId := by
  have hsmall : ¬65535 < received.allocOptions.size1 := by omega
  obtain ⟨-, hackCode, hackValid⟩ := request_codes hcode.1 hcode.2
  have hackToken : (s.block1Ack received v).tokenPtr = received.tokenPtr ∧
      (s.block1Ack received v).tokenLen = received.tokenLen := by
    obtain ⟨hlength, hle⟩ := htoken
    simp only [CoapS.block1Ack]
    cases hptr : received.tokenPtr with
    | none =>
      rw [hptr] at hlength
      exact ⟨rfl, hlength.symm⟩
    | some ptr =>
      rw [hptr] at hlength
      have hpos := List.length_pos_iff.mpr hlength.1
      have hlen := hlength.2
      simp only
      rw [if_pos (by omega), List.take_of_length_le (Nat.le_of_eq hlen)]
      exact ⟨rfl, rfl⟩
  have hstatus : (s.block1Ack received v).coapStatus = .ok ∧
      (s.block1Ack received v).uriPath = none ∧ (s.block1Ack received v).contentFormat = none ∧
        (s.block1Ack received v).payloadPtr = none ∧ (s.block1Ack received v).payloadLen = 0 := by
    simp only [CoapS.block1Ack]
    cases received.tokenPtr with
    | none => exact ⟨rfl, rfl, rfl, rfl, rfl⟩
    | some ptr =>
      simp only
      split <;> exact ⟨rfl, rfl, rfl, rfl, rfl⟩
  have hmsgCode : (s.block1Ack received v).msgCode = if received.msgCode = 1 then 69
      else if received.msgCode = 2 then 95 else if received.msgCode = 3 then 95
        else if received.msgCode = 4 then 66 else 0 := if_neg hsmall
  refine ⟨?_, by rw [hmsgCode]; exact hackCode, rfl⟩
  exact {
    status := hstatus.1
    uriPath := hstatus.2.1
    contentFormat := hstatus.2.2.1
    payload := hstatus.2.2.2
    options := by
      simp only [CoapS.block1Ack, if_neg hsmall]
      rfl
    some_block := .inl (Option.some_ne_none _)
    lt := fun value hvalue w hw => by
      have hle := ackOption_le s v
      rcases List.mem_cons.mp hvalue with rfl | hnone
      · rw [← Option.some.inj hw]
        omega
      · rw [List.mem_singleton.mp hnone] at hw
        exact absurd hw.symm (Option.some_ne_none w)
    token := by
      rw [hackToken.1, hackToken.2]
      exact htoken
    msgId_lt := hid
    code := by
      rw [hmsgCode]
      exact hackValid
    not_reset := MsgType.noConfusion }

/-- A block of a request that is not the last is stored and acknowledged, and is given to the
    application as one that is being received. -/
theorem receive_more (s : CoapS) (src : SnNsdlAddr) (hstatus : received.coapStatus = .ok)
    (hcode : 1 ≤ received.msgCode ∧ received.msgCode ≤ 4) {v : Nat}
    (hblock : received.allocOptions.block1 = some v) (hmore : blockMore v = true) :
    ∃ resending result, s.protocolParse src coapVersion1 received =
        some ⟨{ s with blockwiseReceivedPayloads := s.arrived src received, resending },
          [s.block1Ack received v], some result⟩ ∧
      result.coapStatus = .parserBlockwiseMsgReceiving := by
  have hstore : s.blockwisePayloadStore src (min received.payloadLen s.blockDataSize)
      received.payloadPtr = s.store src received := by
    rw [CoapS.store, hblock]
    rfl
  have hvalid := (request_codes hcode.1 hcode.2).1
  have hhandle : s.handleBlockwiseMessage src received =
      some ⟨s.store src received, [(s.store src received).block1Ack { received with
        payloadLen := min received.payloadLen s.blockDataSize } v],
        some { received with
          payloadLen := min received.payloadLen s.blockDataSize
          coapStatus := .parserBlockwiseMsgReceiving }⟩ := by
    simp only [CoapS.handleBlockwiseMessage, hblock, if_neg (Nat.not_lt.mpr hcode.2),
      CoapS.receiveBlock1, hmore, hstore, if_true]
  obtain ⟨resending, uriPath, hparse⟩ := protocolParse_of_block1 src hstatus hvalid hcode.1
    (by rw [hblock]; rfl) hhandle
  rw [CoapS.store_eq] at hparse
  exact ⟨resending, _, hparse, rfl⟩

/-- The acknowledgement of a block that is not the last has the next one sent. -/
theorem send_next (src : SnNsdlAddr) {ts : Nat} {m : SnCoapHdr}
    (hsent : s.blockwiseSentMsgs = [⟨ts, m⟩]) (hid : m.msgId = received.msgId)
    (hstatus : received.coapStatus = .ok) (hcode : 4 < received.msgCode)
    (hvalid : received.msgCode ∈ validCodes) {w : Nat}
    (hblock : received.allocOptions.block1 = some w) (hmore : blockMore w = true) :
    ∃ resending result, s.protocolParse src coapVersion1 received =
      some ⟨{ s with
        blockwiseSentMsgs := [⟨ts, { m with
          optionsList := (m.nextBlock w s.messageId).optionsList
          msgId := s.messageId }⟩]
        messageId := s.nextMessageId
        resending }, [m.nextBlock w s.messageId], some result⟩ ∧
      result.coapStatus = .parserBlockwiseAck := by
  have hhandle : s.handleBlockwiseMessage src received =
      some ⟨{ s with
        blockwiseSentMsgs := [⟨ts, { m with
          optionsList := (m.nextBlock w s.messageId).optionsList
          msgId := s.messageId }⟩]
        messageId := s.nextMessageId }, [m.nextBlock w s.messageId],
        some { received with coapStatus := .parserBlockwiseAck }⟩ := by
    simp only [CoapS.handleBlockwiseMessage, hblock, if_pos hcode, CoapS.sendBlock1, hmore, if_true,
      hsent, List.find?_cons, hid, decide_true, CoapS.updateMsg]
    rfl
  obtain ⟨resending, uriPath, hparse⟩ := protocolParse_of_block1 src hstatus hvalid (by omega)
    (by rw [hblock]; rfl) hhandle
  exact ⟨resending, _, hparse, rfl⟩

end Ends

/-! ## Rounds -/

/-- The message that is sent in blocks. -/
structure Source (m : SnCoapHdr) (payload : List UInt8) : Prop where
  ptr : m.payloadPtr = some payload
  len : m.payloadLen = payload.length
  code : 1 ≤ m.msgCode ∧ m.msgCode ≤ 4
  status : m.coapStatus = .ok

/-- The request on its way is for the block with this number of the one message of the sender, and
    can be read. -/
structure At (payload : List UInt8) (t : Exchange) (k temp : Nat) : Prop where
  stored : ∃ ts m, t.peer.coap.blockwiseSentMsgs = [⟨ts, m⟩] ∧ Source m payload ∧
    m.msgId = t.msg.msgId ∧ Kept t.peer.coap.blockDataSize m
  messageId : t.peer.coap.messageId < 2 ^ 16
  legible : Legible t.msg
  token : HasLength t.msg.tokenPtr t.msg.tokenLen ∧ t.msg.tokenLen ≤ 8
  msgId : t.msg.msgId < 2 ^ 16
  size1 : t.msg.read.allocOptions.size1 < 2 ^ 16
  code : 1 ≤ t.msg.msgCode ∧ t.msg.msgCode ≤ 4
  status : t.msg.coapStatus = .ok
  temp_le : temp ≤ 6
  inside : 2 ^ (temp + 4) * k ≤ payload.length
  option : t.msg.allocOptions.block1 =
    some (blockOption k (decide (2 ^ (temp + 4) * (k + 1) ≤ payload.length)) temp)
  ptr : t.msg.payloadPtr = some (payload.drop (2 ^ (temp + 4) * k))
  len : t.msg.payloadLen = min (2 ^ (temp + 4)) (payload.length - 2 ^ (temp + 4) * k)

section Rounds

variable {payload : List UInt8} {t : Exchange} {v : Nat}

theorem Source.next {m : SnCoapHdr} (h : Source m payload) (options : Option SnCoapOptionsList)
    (id : Nat) : Source { m with optionsList := options, msgId := id } payload :=
  ⟨h.ptr, h.len, h.code, h.status⟩

/-- Of the message with the next block other blocks are the same as before. -/
theorem Kept.next {size : Nat} {m : SnCoapHdr} (h : Kept size m) (w id : Nat) :
    Kept size { m with optionsList := (m.nextBlock w id).optionsList, msgId := id } :=
  ⟨h.token, h.useSize1, h.legible, h.conveyed⟩

/-- The next request is the message with another block. -/
theorem Source.nextBlock_eq {m : SnCoapHdr} (h : Source m payload) (w id : Nat) :
    ∃ more, m.nextBlock w id = m.withBlock (blockOption (blockNumber w + 1) more (blockTemp w)) id
      (m.nextBlock w id).payloadLen
        (payload.drop (2 ^ (blockTemp w + 4) * (blockNumber w + 1))) := by
  rw [SnCoapHdr.nextBlock, SnCoapHdr.block, h.ptr]
  split
  · exact ⟨false, rfl⟩
  · exact ⟨true, rfl⟩

/-- The header of the next request is that of the message. -/
theorem nextBlock_header (m : SnCoapHdr) (w id : Nat) :
    (m.nextBlock w id).msgId = id ∧ (m.nextBlock w id).msgCode = m.msgCode ∧
      (m.nextBlock w id).coapStatus = m.coapStatus := by
  have hblock : ∀ size number, (m.block size number).1.msgCode = m.msgCode ∧
      (m.block size number).1.coapStatus = m.coapStatus := by
    intro size number
    rw [SnCoapHdr.block]
    split
    · exact ⟨rfl, rfl⟩
    · exact ⟨rfl, rfl⟩
  exact ⟨rfl, (hblock _ _).1, (hblock _ _).2⟩

theorem nextBlock_of_lt (id : Nat) {m : SnCoapHdr} {w : Nat}
    (h : m.payloadLen < 2 ^ (blockTemp w + 4) * (blockNumber w + 1 + 1)) :
    (m.nextBlock w id).payloadLen =
        restLength m.payloadLen (2 ^ (blockTemp w + 4) * (blockNumber w + 1)) ∧
      (m.nextBlock w id).allocOptions.block1 =
        some (blockOption (blockNumber w + 1) false (blockTemp w)) := by
  rw [SnCoapHdr.nextBlock, SnCoapHdr.block, if_pos h]
  exact ⟨rfl, rfl⟩

theorem nextBlock_of_le (id : Nat) {m : SnCoapHdr} {w : Nat}
    (h : 2 ^ (blockTemp w + 4) * (blockNumber w + 1 + 1) ≤ m.payloadLen) :
    (m.nextBlock w id).payloadLen = 2 ^ (blockTemp w + 4) ∧
      (m.nextBlock w id).allocOptions.block1 =
        some (blockOption (blockNumber w + 1) true (blockTemp w)) := by
  rw [SnCoapHdr.nextBlock, SnCoapHdr.block, if_neg (Nat.not_lt.mpr h)]
  exact ⟨rfl, rfl⟩

theorem convert_le (blockSize : Nat) : snCoapConvertBlockSize blockSize ≤ 6 := by
  unfold snCoapConvertBlockSize
  repeat' split
  all_goals decide

/-- The option of an acknowledgement has the flag for more to come. -/
theorem ackOption_eq (s : CoapS) {v : Nat} (hmore : blockMore v = true) :
    ackOption s v = blockOption (blockNumber v) true
      (min (blockTemp v) (snCoapConvertBlockSize s.blockDataSize)) := by
  have hle := convert_le s.blockDataSize
  have hflag : v / 8 % 2 = 1 := by simpa [blockMore] using hmore
  rw [ackOption, blockOption, if_pos rfl, blockNumber, blockTemp]
  by_cases hlt : snCoapConvertBlockSize s.blockDataSize < v % 8
  · rw [if_pos hlt]
    omega
  · rw [if_neg hlt]
    omega

/-- An option with the flag is read as it is. -/
theorem readInt_more {k temp : Nat} (hk : k < 2 ^ 12) (htemp : temp ≤ 7) :
    readInt (blockOption k true temp) = blockOption k true temp := by
  refine readInt_of_low ?_ ?_ <;> simp only [blockOption, if_true] <;> omega

theorem At.lt {k temp : Nat} (h : At payload t k temp) (hlen : payload.length < 2 ^ 16) :
    k < 2 ^ 12 := by
  have hinside := h.inside
  have hpow : 2 ^ 4 ≤ 2 ^ (temp + 4) := Nat.pow_le_pow_right (by decide) (by omega)
  have hmul : 2 ^ 4 * k ≤ 2 ^ (temp + 4) * k := Nat.mul_le_mul_right k hpow
  omega

/-- What is stored of a block. -/
theorem At.arrived {k temp : Nat} (h : At payload t k temp) (src : SnNsdlAddr) :
    ∃ p : List CoapBlockwisePayload,
      t.here.coap.arrived src t.msg.read = t.here.coap.blockwiseReceivedPayloads ++ p ∧
        (∀ q ∈ p, q.addr = src ∧ q.payload ≠ []) ∧ p.flatMap (·.payload) =
          (payload.drop (2 ^ (temp + 4) * k)).take
            (min (2 ^ (temp + 4)) t.here.coap.blockDataSize) := by
  have hpos : 0 < 2 ^ (temp + 4) := Nat.two_pow_pos _
  have hsome : t.msg.read.allocOptions.block1.isSome = true := by
    rw [read_block1 h.option]
    rfl
  have hreadLen : t.msg.read.payloadLen = t.msg.payloadLen := by
    simp only [SnCoapHdr.read, h.ptr, if_neg (Option.some_ne_none _)]
  have hlen := h.len
  have hdrop : (payload.drop (2 ^ (temp + 4) * k)).length =
      payload.length - 2 ^ (temp + 4) * k := List.length_drop
  rw [CoapS.arrived, CoapS.store, if_pos hsome, hreadLen]
  by_cases hzero : t.msg.payloadLen = 0
  · -- the last block is empty
    have hptr : t.msg.read.payloadPtr = none := by
      simp only [SnCoapHdr.read, if_pos hzero]
    rw [hptr]
    refine ⟨[], (List.append_nil _).symm, fun q hq => absurd hq List.not_mem_nil, ?_⟩
    rw [List.eq_nil_of_length_eq_zero (l := payload.drop _) (by omega), List.take_nil]
    rfl
  have hptr : t.msg.read.payloadPtr =
      some ((payload.drop (2 ^ (temp + 4) * k)).take t.msg.payloadLen) := by
    simp only [SnCoapHdr.read, if_neg hzero, h.ptr, Option.map_some]
  rw [hptr]
  simp only [CoapS.blockwisePayloadStore]
  by_cases hnone : min t.msg.payloadLen t.here.coap.blockDataSize = 0
  · rw [if_pos hnone]
    refine ⟨[], (List.append_nil _).symm, fun q hq => absurd hq List.not_mem_nil, ?_⟩
    have hreceiver : min (2 ^ (temp + 4)) t.here.coap.blockDataSize = 0 := by omega
    rw [hreceiver, List.take_zero]
    rfl
  · rw [if_neg hnone]
    refine ⟨_, rfl, ?_, ?_⟩
    · intro q hq
      rw [List.mem_singleton.mp hq]
      refine ⟨rfl, fun hnil => ?_⟩
      have hlength := congrArg List.length hnil
      rw [List.length_take, List.length_take, hdrop, List.length_nil] at hlength
      omega
    · rw [List.flatMap_singleton, List.take_take]
      refine List.take_eq_take_iff.mpr ?_
      rw [hdrop]
      omega

theorem restLength_eq {len skipped : Nat} (h : skipped ≤ len) (hlen : len < 2 ^ 16) :
    restLength len skipped = len - skipped := by
  rw [restLength]
  omega

/-- The next request has its block inside of the payload. -/
theorem nextBlock_at {m : SnCoapHdr} (h : Source m payload) (hlen : payload.length < 2 ^ 16)
    (id : Nat) {number temp : Nat} (htemp : temp < 8)
    (hinside : 2 ^ (temp + 4) * (number + 1) ≤ payload.length) :
    (m.nextBlock (blockOption number true temp) id).allocOptions.block1 =
        some (blockOption (number + 1)
          (decide (2 ^ (temp + 4) * (number + 1 + 1) ≤ payload.length)) temp) ∧
      (m.nextBlock (blockOption number true temp) id).payloadLen =
        min (2 ^ (temp + 4)) (payload.length - 2 ^ (temp + 4) * (number + 1)) := by
  have hmul : 2 ^ (temp + 4) * (number + 1 + 1) =
      2 ^ (temp + 4) * (number + 1) + 2 ^ (temp + 4) := Nat.mul_succ _ _
  have htemp' := blockTemp_blockOption number true htemp
  have hnumber := blockNumber_blockOption number true htemp
  rcases Nat.lt_or_ge payload.length (2 ^ (temp + 4) * (number + 1 + 1)) with hlt | hle
  · have hnext := nextBlock_of_lt (w := blockOption number true temp) id (m := m)
      (by rw [h.len, htemp', hnumber]; exact hlt)
    rw [htemp', hnumber, h.len, restLength_eq hinside hlen] at hnext
    rw [hnext.1, hnext.2, decide_eq_false (Nat.not_le.mpr hlt)]
    refine ⟨rfl, ?_⟩
    omega
  · have hnext := nextBlock_of_le id (m := m) (w := blockOption number true temp)
      (by rw [h.len, htemp', hnumber]; exact hle)
    rw [htemp', hnumber] at hnext
    rw [hnext.1, hnext.2, decide_eq_true hle]
    refine ⟨rfl, ?_⟩
    omega

theorem nextMessageId_lt (s : CoapS) : s.nextMessageId < 2 ^ 16 := by
  rw [CoapS.nextMessageId]
  split
  · decide
  · exact Nat.mod_lt _ (Nat.two_pow_pos 16)

theorem withBlock_size1 {m : SnCoapHdr} (h : m.allocOptions.useSize1 = false)
    (block1 msgId payloadLen : Nat) (payload : List UInt8) :
    (m.withBlock block1 msgId payloadLen payload).read.allocOptions.size1 = 0 := by
  show (if m.allocOptions.useSize1 then readInt m.allocOptions.size1 else 0) = 0
  rw [h]
  rfl

/-- What becomes of a request with a block that is read as one before others: the next one is of
    the size that the receiver takes, and arrives if the sender has blocks of that size. -/
theorem At.round {k temp : Nat} (h : At payload t k temp) (hlen : payload.length < 2 ^ 16)
    {v : Nat} (hread : readInt (blockOption k
      (decide (2 ^ (temp + 4) * (k + 1) ≤ payload.length)) temp) = v)
    (hmore : blockMore v = true) {k' temp' : Nat} (hk' : k' = blockNumber v + 1)
    (htemp' : temp' = min (blockTemp v) (snCoapConvertBlockSize t.here.coap.blockDataSize))
    (hinside : 2 ^ (temp' + 4) * k' ≤ payload.length) :
    ∃ t', t.Round t' ∧ At payload t' k' temp' ∧
      t'.here.coap.blockwiseReceivedPayloads = t.here.coap.arrived t.peer.addr t.msg.read ∧
      t'.Same t ∧ (Conveyed t.peer.coap.blockDataSize t.msg t.msg.read → t.Arrived t') ∧
      (2 ^ (temp' + 4) ≤ t.peer.coap.blockDataSize →
        Conveyed t.peer.coap.blockDataSize t'.msg t'.msg.read) := by
  obtain ⟨ts, m, hsent, hsource, hid, hkept⟩ := h.stored
  have hstatus : t.msg.read.coapStatus = .ok := h.status
  have hcode : 1 ≤ t.msg.read.msgCode ∧ t.msg.read.msgCode ≤ 4 := h.code
  have hblock := read_block1 h.option
  rw [hread] at hblock
  have hv : v < 2 ^ 24 := by
    have hle := readInt_le (blockOption k
      (decide (2 ^ (temp + 4) * (k + 1) ≤ payload.length)) temp)
    have hlt := h.lt hlen
    have htemp := h.temp_le
    have hoption : blockOption k (decide (2 ^ (temp + 4) * (k + 1) ≤ payload.length)) temp <
        2 ^ 24 := by
      rw [blockOption]
      split <;> omega
    omega
  obtain ⟨resending, received, hparse, hreceiving⟩ :=
    receive_more t.here.coap t.peer.addr hstatus hcode hblock hmore
  obtain ⟨hbare, hackCode, hackId⟩ := block1Ack_bare t.here.coap hcode h.token h.msgId h.size1 hv
  generalize hack : t.here.coap.block1Ack t.msg.read v = ack at hparse hbare hackCode hackId
  have htemp_le : temp' ≤ 6 := by
    have := convert_le t.here.coap.blockDataSize
    omega
  have hpow : 2 ^ 4 ≤ 2 ^ (temp' + 4) := Nat.pow_le_pow_right (by decide) (by omega)
  have hmul : 2 ^ 4 * k' ≤ 2 ^ (temp' + 4) * k' := Nat.mul_le_mul_right k' hpow
  have hw : ackOption t.here.coap v = blockOption (blockNumber v) true temp' := by
    rw [ackOption_eq t.here.coap hmore, htemp']
  have hackBlock : ack.allocOptions.block1 = some (ackOption t.here.coap v) := by
    rw [SnCoapHdr.allocOptions, hbare.options]
    rfl
  have hackRead : ack.read.allocOptions.block1 = some (blockOption (blockNumber v) true temp') := by
    rw [read_block1 hackBlock, hw, readInt_more (by omega) (by omega)]
  have hackReadId : m.msgId = ack.read.msgId := hid.trans hackId.symm
  have hackReadStatus : ack.read.coapStatus = .ok := hbare.status
  obtain ⟨resending', answered, hparse', hanswered⟩ := send_next t.here.addr hsent hackReadId
    hackReadStatus hackCode hbare.code hackRead (blockMore_blockOption _ _ (by omega))
  generalize hnext : m.nextBlock (blockOption (blockNumber v) true temp') t.peer.coap.messageId =
    next at hparse'
  -- what is sent is a block of the message that is kept
  have hnumber : blockNumber (blockOption (blockNumber v) true temp') + 1 = k' := by
    rw [blockNumber_blockOption _ _ (by omega), hk']
  have htemp : blockTemp (blockOption (blockNumber v) true temp') = temp' :=
    blockTemp_blockOption _ _ (by omega)
  obtain ⟨hoption, hpayloadLen⟩ := nextBlock_at hsource hlen t.peer.coap.messageId
    (show temp' < 8 by omega) (hk' ▸ hinside)
  rw [hnext, ← hk'] at hoption hpayloadLen
  obtain ⟨more, hblockOf⟩ := hsource.nextBlock_eq (blockOption (blockNumber v) true temp')
    t.peer.coap.messageId
  rw [hnext, hnumber, htemp] at hblockOf
  have hoption_lt : blockOption k' more temp' < 2 ^ 24 := by
    rw [blockOption]
    split <;> omega
  have hdrop : next.payloadLen ≤ (payload.drop (2 ^ (temp' + 4) * k')).length := by
    rw [hpayloadLen, List.length_drop]
    exact Nat.min_le_right _ _
  refine ⟨⟨⟨t.here.addr, { t.here.coap with
      blockwiseReceivedPayloads := t.here.coap.arrived t.peer.addr t.msg.read
      resending }⟩, ⟨t.peer.addr, { t.peer.coap with
      blockwiseSentMsgs := [⟨ts, { m with
        optionsList := next.optionsList
        msgId := t.peer.coap.messageId }⟩]
      messageId := t.peer.coap.nextMessageId
      resending := resending' }⟩, next⟩, ?_, ?_, rfl, ⟨rfl, rfl, rfl, rfl⟩, ?_, ?_⟩
  · -- neither the block nor its acknowledgement is a whole payload
    intro n msg hmsg hgiven
    rcases n with _ | _ | n
    · have hresult := Exchange.given_zero h.legible hparse hgiven
      rw [← Option.some.inj hresult, hreceiving] at hmsg
      exact absurd hmsg CoapStatus.noConfusion
    · obtain ⟨ack', hmem, hgiven⟩ := Exchange.given_succ h.legible hparse hgiven
      obtain rfl := List.mem_singleton.mp hmem
      have hresult := Exchange.given_zero hbare.legible hparse' hgiven
      rw [← Option.some.inj hresult, hanswered] at hmsg
      exact absurd hmsg CoapStatus.noConfusion
    · obtain ⟨ack', hmem, hgiven⟩ := Exchange.given_succ h.legible hparse hgiven
      obtain rfl := List.mem_singleton.mp hmem
      obtain ⟨next', hmem, hgiven⟩ := Exchange.given_succ hbare.legible hparse' hgiven
      obtain rfl := List.mem_singleton.mp hmem
      exact ⟨n, rfl, hgiven⟩
  · obtain ⟨hnextId, hnextCode, hnextStatus⟩ := nextBlock_header m
      (blockOption (blockNumber v) true temp') t.peer.coap.messageId
    rw [hnext] at hnextId hnextCode hnextStatus
    exact {
      stored := by
        subst hnext
        exact ⟨ts, _, rfl, hsource.next _ _, hnextId.symm, hkept.next _ _⟩
      messageId := nextMessageId_lt _
      legible := by
        show Legible next
        rw [hblockOf]
        exact hkept.legible hoption_lt h.messageId hdrop
      token := by
        show HasLength next.tokenPtr next.tokenLen ∧ next.tokenLen ≤ 8
        rw [hblockOf]
        exact hkept.token
      msgId := hnextId ▸ h.messageId
      size1 := by
        show next.read.allocOptions.size1 < 2 ^ 16
        rw [hblockOf, withBlock_size1 hkept.useSize1]
        exact Nat.two_pow_pos 16
      code := by
        show 1 ≤ next.msgCode ∧ next.msgCode ≤ 4
        rw [hnextCode]
        exact hsource.code
      status := hnextStatus.trans hsource.status
      temp_le := htemp_le
      inside := hinside
      option := hoption
      ptr := by
        show next.payloadPtr = _
        rw [hblockOf]
        rfl
      len := hpayloadLen }
  · intro harrives n msg hgiven
    exact ⟨_, ⟨_, harrives, hparse⟩, ack, List.mem_singleton_self ack,
      _, ⟨_, hbare.conveyed _, hparse'⟩, next, List.mem_singleton_self next, hgiven⟩
  · intro hsize
    show Conveyed _ next next.read
    have hle : next.payloadLen ≤ t.peer.coap.blockDataSize := by
      rw [hpayloadLen]
      exact (Nat.min_le_left _ _).trans hsize
    rw [hblockOf]
    exact hkept.conveyed hoption_lt h.messageId (hblockOf ▸ hdrop) (hblockOf ▸ hle)

/-! ## The last block -/

theorem wholePayload_append (src : SnNsdlAddr) (ps qs : List CoapBlockwisePayload) :
    wholePayload src (ps ++ qs) = wholePayload src ps ++ wholePayload src qs := by
  simp [wholePayload]

theorem wholePayload_of_own {src : SnNsdlAddr} {ps : List CoapBlockwisePayload}
    (h : ∀ p ∈ ps, src.same p.addr = true) : wholePayload src ps = ps.flatMap (·.payload) := by
  rw [wholePayload, List.filter_eq_self.mpr h]

theorem overtaken_of_own {src : SnNsdlAddr} {ps : List CoapBlockwisePayload}
    (h : ∀ p ∈ ps, src.same p.addr = true) : overtaken src ps = false := by
  have hdrop : ps.dropWhile (src.same ·.addr) = [] := List.dropWhile_eq_nil_iff.mpr h
  rw [overtaken, hdrop]
  rfl

/-- The blocks of the payload that have been stored, and the one that arrives. -/
theorem At.wholePayload_arrived {k temp : Nat} (h : At payload t k temp) (src : SnNsdlAddr) :
    wholePayload src (t.here.coap.arrived src t.msg.read) =
      wholePayload src t.here.coap.blockwiseReceivedPayloads ++
        (payload.drop (2 ^ (temp + 4) * k)).take
          (min (2 ^ (temp + 4)) t.here.coap.blockDataSize) := by
  obtain ⟨p, harrived, hown, hp⟩ := h.arrived src
  have hsame : ∀ q ∈ p, src.same q.addr = true := fun q hq => by
    rw [(hown q hq).1, SnNsdlAddr.same_self]
  rw [harrived, wholePayload_append, wholePayload_of_own hsame, hp]

theorem At.noneEmpty_arrived {k temp : Nat} (h : At payload t k temp) (hne : t.here.coap.NoneEmpty)
    (src : SnNsdlAddr) : ∀ q ∈ t.here.coap.arrived src t.msg.read, q.payload ≠ [] := by
  obtain ⟨p, harrived, hown, -⟩ := h.arrived src
  rw [harrived]
  intro q hq
  rcases List.mem_append.mp hq with hq | hq
  · exact hne q hq
  · exact (hown q hq).2

theorem At.read_ne {k temp : Nat} (h : At payload t k temp) :
    t.msg.read.payloadPtr ≠ some [] := by
  intro hnil
  have hlen := h.len
  by_cases hzero : t.msg.payloadLen = 0
  · simp only [SnCoapHdr.read, if_pos hzero] at hnil
    exact absurd hnil.symm (Option.some_ne_none _)
  · simp only [SnCoapHdr.read, if_neg hzero, h.ptr, Option.map_some] at hnil
    have hlength := congrArg List.length (Option.some.inj hnil)
    rw [List.length_take, List.length_drop, List.length_nil] at hlength
    omega

theorem At.valid {k temp : Nat} (h : At payload t k temp) :
    t.msg.read.msgCode ∈ validCodes := by
  have hall : ∀ c, 1 ≤ c → c ≤ 4 → c ∈ validCodes := by
    intro c h1 h4
    have hc : c = 1 ∨ c = 2 ∨ c = 3 ∨ c = 4 := by omega
    rcases hc with rfl | rfl | rfl | rfl <;> decide
  exact hall _ h.code.1 h.code.2

/-- A request that is read as the last block: if the application is given anything, it is what has
    been stored. -/
theorem At.given_last {k temp : Nat} (h : At payload t k temp) (hne : t.here.coap.NoneEmpty)
    {v : Nat} (hread : readInt (blockOption k
      (decide (2 ^ (temp + 4) * (k + 1) ≤ payload.length)) temp) = v)
    (hmore : blockMore v = false) {whole : List UInt8}
    (hwhole : wholePayload t.peer.addr (t.here.coap.arrived t.peer.addr t.msg.read) = whole) :
    (∀ n msg, t.Given n msg → msg.payloadPtr = some whole) ∧
      (whole.length < 2 ^ 16 →
        overtaken t.peer.addr (t.here.coap.arrived t.peer.addr t.msg.read) = false →
          Conveyed t.peer.coap.blockDataSize t.msg t.msg.read → t.Delivered whole) := by
  have hblock := read_block1 h.option
  rw [hread] at hblock
  have hstatus : t.msg.read.coapStatus = .ok := h.status
  obtain ⟨f, hparse, hfailed, hanswered⟩ := protocolParse_block1 t.here.coap t.peer.addr hstatus
    h.valid h.code.1 (by rw [hblock]; rfl)
  rw [hne.handle_block1 h.read_ne hblock h.code.2 hmore, hwhole] at hparse
  by_cases hlong : 2 ^ 16 ≤ whole.length
  · -- nothing is given to the application
    rw [if_pos hlong, Option.map_some, hfailed _ rfl] at hparse
    refine ⟨?_, fun hlt => absurd hlong (Nat.not_le.mpr hlt)⟩
    rintro (_ | n) msg hgiven
    · exact absurd (Exchange.given_zero h.legible hparse hgiven).symm (Option.some_ne_none msg)
    · obtain ⟨next, hnext, -⟩ := Exchange.given_succ h.legible hparse hgiven
      exact absurd hnext List.not_mem_nil
  rw [if_neg hlong] at hparse
  cases hover : overtaken t.peer.addr (t.here.coap.arrived t.peer.addr t.msg.read) with
  | true =>
    -- the copy goes past what was allocated
    rw [if_pos hover, Option.map_none] at hparse
    refine ⟨?_, fun _ hfalse => absurd hfalse.symm Bool.false_ne_true⟩
    rintro (_ | n) msg hgiven
    · obtain ⟨handled, harrives, -⟩ := hgiven
      exact absurd ((harrives.parsed h.legible).symm.trans hparse) (Option.some_ne_none handled)
    · obtain ⟨handled, harrives, -⟩ := hgiven
      exact absurd ((harrives.parsed h.legible).symm.trans hparse) (Option.some_ne_none handled)
  | false =>
    rw [if_neg (by rw [hover]; exact Bool.false_ne_true), Option.map_some] at hparse
    obtain ⟨resending, uriPath, hmsg⟩ := hanswered _ [] (t.msg.read.withWhole whole)
    rw [hmsg] at hparse
    refine ⟨?_, fun _ _ harrives => ⟨0, _, ⟨_, ⟨_, harrives, hparse⟩, rfl⟩, rfl, rfl, rfl⟩⟩
    rintro (_ | n) msg hgiven
    · have hresult := Exchange.given_zero h.legible hparse hgiven
      rw [← Option.some.inj hresult]
      rfl
    · obtain ⟨next, hnext, -⟩ := Exchange.given_succ h.legible hparse hgiven
      exact absurd hnext List.not_mem_nil

/-! ## Whole transfers -/

/-- How the option for the block with this number is read. Without the flag, sixteen octets at a
    number that is a multiple of sixteen, the number is read one octet too low. -/
theorem readInt_last {k temp : Nat} (hk : k < 2 ^ 12) (htemp : temp ≤ 6) :
    readInt (blockOption k false temp) =
      if temp = 0 ∧ k % 16 = 0 then k / 16 else blockOption k false temp := by
  by_cases hmis : temp = 0 ∧ k % 16 = 0
  · have hoption : blockOption k false temp = k / 16 * 2 ^ 8 := by
      simp only [blockOption, Bool.false_eq_true, if_false]
      omega
    rw [if_pos hmis, hoption, readInt_of_high (by omega)]
  · rw [if_neg hmis]
    refine readInt_of_low ?_ ?_ <;> simp only [blockOption, Bool.false_eq_true, if_false] <;> omega

theorem pow_le_of_temp {temp temp' : Nat} (h : temp ≤ temp') : 2 ^ (temp + 4) ≤ 2 ^ (temp' + 4) :=
  Nat.pow_le_pow_right (by decide) (by omega)

/-- Behind a block with the flag comes the next one, in blocks as large as the receiver takes. -/
theorem At.next {k temp : Nat} (h : At payload t k temp) (hlen : payload.length < 2 ^ 16)
    (hinside : 2 ^ (temp + 4) * (k + 1) ≤ payload.length) {temp' : Nat}
    (htemp' : temp' = min temp (snCoapConvertBlockSize t.here.coap.blockDataSize)) :
    ∃ t', t.Round t' ∧ At payload t' (k + 1) temp' ∧
      t'.here.coap.blockwiseReceivedPayloads = t.here.coap.arrived t.peer.addr t.msg.read ∧
      t'.Same t ∧ (Conveyed t.peer.coap.blockDataSize t.msg t.msg.read → t.Arrived t') ∧
      (2 ^ (temp' + 4) ≤ t.peer.coap.blockDataSize →
        Conveyed t.peer.coap.blockDataSize t'.msg t'.msg.read) := by
  have htemp : temp < 8 := by
    have := h.temp_le
    omega
  have hread : readInt (blockOption k (decide (2 ^ (temp + 4) * (k + 1) ≤ payload.length)) temp) =
      blockOption k true temp := by
    rw [decide_eq_true hinside, readInt_more (h.lt hlen) (by omega)]
  have hpow : 2 ^ (temp' + 4) ≤ 2 ^ (temp + 4) := pow_le_of_temp (by omega)
  refine h.round hlen hread (blockMore_blockOption _ _ htemp) ?_ ?_
    ((Nat.mul_le_mul_right (k + 1) hpow).trans hinside)
  · rw [blockNumber_blockOption _ _ htemp]
  · rw [blockTemp_blockOption _ _ htemp, htemp']

/-- The number is read as an option that has the flag. -/
def Misread (k temp : Nat) : Prop := temp = 0 ∧ k % 16 = 0 ∧ k / 128 % 2 = 1

/-- The last block that is read with the flag has another one follow, of what has been sent already.
-/
theorem At.misread {k temp : Nat} (h : At payload t k temp) (hlen : payload.length < 2 ^ 16)
    (hlast : payload.length < 2 ^ (temp + 4) * (k + 1)) (hmis : Misread k temp) :
    ∃ t' k' temp', t.Round t' ∧ At payload t' k' temp' ∧
      t'.here.coap.blockwiseReceivedPayloads = t.here.coap.arrived t.peer.addr t.msg.read ∧
      t'.Same t ∧ 2 ^ (temp' + 4) * k' < payload.length := by
  obtain ⟨htemp, hk, hodd⟩ := hmis
  have hread : readInt (blockOption k (decide (2 ^ (temp + 4) * (k + 1) ≤ payload.length)) temp) =
      k / 16 := by
    rw [decide_eq_false (Nat.not_le.mpr hlast), readInt_last (h.lt hlen) h.temp_le,
      if_pos ⟨htemp, hk⟩]
  have hmore : blockMore (k / 16) = true := by
    rw [blockMore, beq_iff_eq]
    omega
  have hconvert := convert_le t.here.coap.blockDataSize
  have hpow :
      2 ^ (min (blockTemp (k / 16)) (snCoapConvertBlockSize t.here.coap.blockDataSize) + 4) ≤
        2 ^ (6 + 4) := pow_le_of_temp (by omega)
  have hmul := Nat.mul_le_mul_right (blockNumber (k / 16) + 1) hpow
  have hinside := h.inside
  subst htemp
  have hsmall : 2 ^ (6 + 4) * (blockNumber (k / 16) + 1) < payload.length := by
    simp only [blockNumber]
    omega
  obtain ⟨t', hround, hat, hpayloads, hsame, -, -⟩ := h.round hlen hread hmore rfl rfl
    (hmul.trans hsmall.le)
  exact ⟨t', _, _, hround, hat, hpayloads, hsame, hmul.trans_lt hsmall⟩

theorem At.blockMore_last {k temp : Nat} (h : At payload t k temp) (hlen : payload.length < 2 ^ 16)
    (hlast : payload.length < 2 ^ (temp + 4) * (k + 1)) (hmis : ¬Misread k temp) :
    blockMore (readInt (blockOption k
      (decide (2 ^ (temp + 4) * (k + 1) ≤ payload.length)) temp)) = false := by
  have htemp := h.temp_le
  rw [decide_eq_false (Nat.not_le.mpr hlast), readInt_last (h.lt hlen) htemp]
  by_cases hmul : temp = 0 ∧ k % 16 = 0
  · have heven : ¬k / 128 % 2 = 1 := fun hodd => hmis ⟨hmul.1, hmul.2, hodd⟩
    rw [if_pos hmul, blockMore, beq_eq_false_iff_ne]
    omega
  · rw [if_neg hmul, blockMore_blockOption _ _ (by omega)]

/-- A request is read as the last block, or there is another one. -/
theorem At.progress {k temp : Nat} (h : At payload t k temp) (hlen : payload.length < 2 ^ 16) :
    (∃ v, readInt (blockOption k
        (decide (2 ^ (temp + 4) * (k + 1) ≤ payload.length)) temp) = v ∧ blockMore v = false) ∨
      ∃ t' k' temp', t.Round t' ∧ At payload t' k' temp' ∧
        t'.here.coap.blockwiseReceivedPayloads = t.here.coap.arrived t.peer.addr t.msg.read ∧
        t'.Same t := by
  rcases Nat.lt_or_ge payload.length (2 ^ (temp + 4) * (k + 1)) with hlast | hinside
  · by_cases hmis : Misread k temp
    · obtain ⟨t', k', temp', hround, hat, hpayloads, hsame, -⟩ := h.misread hlen hlast hmis
      exact .inr ⟨t', k', temp', hround, hat, hpayloads, hsame⟩
    · exact .inl ⟨_, rfl, h.blockMore_last hlen hlast hmis⟩
  · obtain ⟨t', hround, hat, hpayloads, hsame, -, -⟩ := h.next hlen hinside rfl
    exact .inr ⟨t', _, _, hround, hat, hpayloads, hsame⟩

/-- What the application is given as a whole is not shorter than what has been stored. -/
theorem At.le_length {k temp : Nat} (h : At payload t k temp) (hlen : payload.length < 2 ^ 16)
    (hne : t.here.coap.NoneEmpty) {n : Nat} {msg : SnCoapHdr} (hgiven : t.Given n msg)
    (hstatus : msg.coapStatus = .parserBlockwiseMsgReceived) :
    ∃ whole, msg.payloadPtr = some whole ∧
      (wholePayload t.peer.addr (t.here.coap.arrived t.peer.addr t.msg.read)).length ≤
        whole.length := by
  -- over the messages that are still to come: each round takes two of them
  induction n using Nat.strongRecOn generalizing t k temp with
  | ind n ih =>
    rcases h.progress hlen with ⟨v, hread, hmore⟩ |
      ⟨t', k', temp', hround, hat, hpayloads, hsame⟩
    · exact ⟨_, (h.given_last hne hread hmore rfl).1 n msg hgiven, Nat.le_refl _⟩
    · have hne' : t'.here.coap.NoneEmpty := by
        intro q hq
        rw [hpayloads] at hq
        exact h.noneEmpty_arrived hne t.peer.addr q hq
      obtain ⟨m, rfl, hgiven'⟩ := hround hstatus hgiven
      obtain ⟨whole, hwhole, hle⟩ := ih m (by omega) hat hne' hgiven'
      refine ⟨whole, hwhole, le_trans ?_ hle⟩
      rw [hat.wholePayload_arrived, hpayloads, hsame.peer_addr, List.length_append]
      exact Nat.le_add_right _ _

/-- The blocks in front of this one have been stored, and nothing else; and it arrives. -/
structure Going (payload : List UInt8) (t : Exchange) (k temp : Nat) : Prop where
  request : At payload t k temp
  conveyed : Conveyed t.peer.coap.blockDataSize t.msg t.msg.read
  sent_size : 2 ^ (temp + 4) ≤ t.peer.coap.blockDataSize
  size : 2 ^ (temp + 4) ≤ t.here.coap.blockDataSize
  temp_le : temp ≤ snCoapConvertBlockSize t.here.coap.blockDataSize
  own : ∀ p ∈ t.here.coap.blockwiseReceivedPayloads,
    t.peer.addr.same p.addr = true ∧ p.payload ≠ []
  whole : wholePayload t.peer.addr t.here.coap.blockwiseReceivedPayloads =
    payload.take (2 ^ (temp + 4) * k)

theorem At.own_arrived {k temp : Nat} (h : At payload t k temp)
    (hown : ∀ p ∈ t.here.coap.blockwiseReceivedPayloads,
      t.peer.addr.same p.addr = true ∧ p.payload ≠ []) :
    ∀ p ∈ t.here.coap.arrived t.peer.addr t.msg.read,
      t.peer.addr.same p.addr = true ∧ p.payload ≠ [] := by
  obtain ⟨p, harrived, hp, -⟩ := h.arrived t.peer.addr
  rw [harrived]
  intro q hq
  rcases List.mem_append.mp hq with hq | hq
  · exact hown q hq
  · exact ⟨by rw [(hp q hq).1, SnNsdlAddr.same_self], (hp q hq).2⟩

/-- The block that arrives is the next part of the payload. -/
theorem Going.arrived {k temp : Nat} (h : Going payload t k temp) :
    wholePayload t.peer.addr (t.here.coap.arrived t.peer.addr t.msg.read) =
      payload.take (2 ^ (temp + 4) * (k + 1)) := by
  rw [h.request.wholePayload_arrived, h.whole, Nat.min_eq_left h.size, ← List.take_add,
    Nat.mul_succ]

theorem Going.next {k temp : Nat} (h : Going payload t k temp) (hlen : payload.length < 2 ^ 16)
    (hinside : 2 ^ (temp + 4) * (k + 1) ≤ payload.length) :
    ∃ t', t.Round t' ∧ t.Arrived t' ∧ Going payload t' (k + 1) temp := by
  obtain ⟨t', hround, hat, hpayloads, hsame, harrived, hconveyed⟩ := h.request.next hlen hinside
    (Nat.min_eq_left h.temp_le).symm
  refine ⟨t', hround, harrived h.conveyed, hat, ?_, ?_, ?_, ?_, ?_, ?_⟩
  · rw [hsame.peer_size]
    exact hconveyed h.sent_size
  · rw [hsame.peer_size]
    exact h.sent_size
  · rw [hsame.here_size]
    exact h.size
  · rw [hsame.here_size]
    exact h.temp_le
  · rw [hpayloads, hsame.peer_addr]
    exact h.request.own_arrived h.own
  · rw [hpayloads, hsame.peer_addr]
    exact h.arrived

/-- The last block. -/
theorem Going.last {k temp : Nat} (h : Going payload t k temp) (hlen : payload.length < 2 ^ 16)
    (hlast : payload.length < 2 ^ (temp + 4) * (k + 1)) :
    t.Delivered payload ↔ ¬Misread k temp := by
  have hne : t.here.coap.NoneEmpty := fun p hp => (h.own p hp).2
  have hwhole : wholePayload t.peer.addr (t.here.coap.arrived t.peer.addr t.msg.read) =
      payload := by
    rw [h.arrived, List.take_of_length_le hlast.le]
  constructor
  · -- what is stored twice makes the payload longer
    rintro ⟨n, msg, hgiven, hmsg⟩ hmis
    obtain ⟨t', k', temp', hround, hat, hpayloads, hsame, hinside⟩ :=
      h.request.misread hlen hlast hmis
    have hne' : t'.here.coap.NoneEmpty := by
      intro q hq
      rw [hpayloads] at hq
      exact h.request.noneEmpty_arrived hne t.peer.addr q hq
    obtain ⟨m, -, hgiven'⟩ := hround hmsg.status hgiven
    obtain ⟨whole, hptr, hle⟩ := hat.le_length hlen hne' hgiven' hmsg.status
    rw [hmsg.ptr] at hptr
    rw [hat.wholePayload_arrived, hpayloads, hsame.peer_addr, hwhole, ← Option.some.inj hptr,
      List.length_append, List.length_take, List.length_drop, hsame.here_size] at hle
    have hpos : 0 < 2 ^ (temp' + 4) := Nat.two_pow_pos _
    have hpos' : 0 < 2 ^ (temp + 4) := Nat.two_pow_pos _
    have hreceiver := h.size
    omega
  · intro hmis
    obtain ⟨-, hdelivered⟩ := h.request.given_last hne rfl
      (h.request.blockMore_last hlen hlast hmis) hwhole
    exact hdelivered hlen (overtaken_of_own fun p hp =>
      (h.request.own_arrived h.own p hp).1) h.conveyed

end Rounds

/-! ## Main results -/

section Main

variable {sender receiver : CoapS} {msg : SnCoapHdr} {payload : List UInt8}

/-- The sizes that `sn_coap_protocol_set_block_size` takes, but for zero. -/
def BlockSize (size : Nat) : Prop := size ∈ [16, 32, 64, 128, 256, 512, 1024]

theorem BlockSize.convert {size : Nat} (h : BlockSize size) :
    2 ^ (snCoapConvertBlockSize size + 4) = size := by
  have hall : ∀ s ∈ [16, 32, 64, 128, 256, 512, 1024], 2 ^ (snCoapConvertBlockSize s + 4) = s := by
    decide
  exact hall size h

/-- The message that is to be sent in blocks. -/
structure Blocks (sender : CoapS) (msg : SnCoapHdr) (payload : List UInt8) : Prop where
  source : Source msg payload
  long : sender.blockDataSize < payload.length
  sent : sender.blockwiseSentMsgs = []
  size : BlockSize sender.blockDataSize

theorem Blocks.code_lt (h : Blocks sender msg payload) : msg.msgCode < responseCreated := by
  have hcode := h.source.code.2
  rw [responseCreated]
  omega

theorem BlockSize.pos {size : Nat} (h : BlockSize size) : 0 < size := by
  rw [← h.convert]
  exact Nat.two_pow_pos _

/-- The message may get an ID. -/
theorem giveMsgId_eq (s : CoapS) (m : SnCoapHdr) :
    ∃ messageId msgId, s.giveMsgId m = ({ s with messageId }, { m with msgId }) ∧
      (s.messageId < 2 ^ 16 → messageId < 2 ^ 16) := by
  rw [CoapS.giveMsgId]
  split
  · exact ⟨_, _, rfl, fun _ => nextMessageId_lt s⟩
  · exact ⟨_, _, rfl, id⟩

/-- What is built is the message with its first block, and what is kept is its copy. -/
theorem Blocks.built (h : Blocks sender msg payload) {dst : SnNsdlAddr} {packet : List UInt8}
    {request : SnCoapHdr} {sender' : CoapS}
    (hbuild : sender.protocolBuild dst (sender.prepareBlockwiseMessage msg) =
      some (.ok packet, request, sender')) :
    ∃ options resending messageId ts,
      Source { request with payloadLen := payload.length } payload ∧
      request.payloadLen = sender.blockDataSize ∧ request.optionsList = some options ∧
      options.useSize1 = true ∧ options.size1 = payload.length ∧
      options.block1 = some (blockOption 0 true (snCoapConvertBlockSize sender.blockDataSize)) ∧
      snCoapBuilder2 request sender.blockDataSize = some (.ok packet) ∧
      sender' = { sender with
        blockwiseSentMsgs := [⟨ts, { copyHeader request with
          payloadLen := payload.length
          payloadPtr := some payload }⟩]
        resending
        messageId } ∧
      (sender.messageId < 2 ^ 16 → messageId < 2 ^ 16) := by
  have hblockwise : sender.Blockwise msg := ⟨h.source.len ▸ h.long, h.size.pos⟩
  rw [CoapS.prepareBlockwiseMessage, if_pos hblockwise] at hbuild
  simp only [if_pos h.code_lt] at hbuild
  generalize hoptions : ({ msg.allocOptions with
      block1 := some (blockOption 0 true (snCoapConvertBlockSize sender.blockDataSize))
      useSize1 := true
      useSize2 := false
      size1 := msg.payloadLen } : SnCoapOptionsList) = options at hbuild
  obtain ⟨messageId, msgId, hgiven, hlt⟩ := giveMsgId_eq sender
    { msg with optionsList := some options }
  have hstill : CoapS.Blockwise { sender with messageId }
      { msg with optionsList := some options, msgId } := hblockwise
  rw [CoapS.protocolBuild, hgiven] at hbuild
  simp only [if_pos hstill] at hbuild
  obtain ⟨built, hbuilt, hbuild⟩ := Option.bind_eq_some_iff.mp hbuild
  cases built with
  | error e =>
    simp only [Option.some.injEq, Prod.mk.injEq, reduceCtorEq, false_and] at hbuild
  | ok octets =>
    simp only at hbuild
    by_cases hlong : 2 ^ 15 ≤ octets.length % 2 ^ 16
    · simp only [if_pos hlong, Option.some.injEq, Prod.mk.injEq, reduceCtorEq, false_and] at hbuild
    · rw [if_neg hlong] at hbuild
      simp only [Option.some.injEq, Prod.mk.injEq, Except.ok.injEq] at hbuild
      obtain ⟨rfl, rfl, rfl⟩ := hbuild
      have hkept : sender.blockDataSize < msg.payloadLen ∧ 0 < sender.blockDataSize := hblockwise
      have hptr : msg.payloadPtr.map (·.take msg.payloadLen) = some payload := by
        rw [h.source.ptr, Option.map_some,
          List.take_of_length_le (Nat.le_of_eq h.source.len.symm)]
      refine ⟨options, sender.resending.build dst msg.msgType octets (msg.uriPath.getD []),
        messageId, (sender.resending.build dst msg.msgType octets (msg.uriPath.getD [])).systemTime,
        ⟨h.source.ptr, rfl, h.source.code, h.source.status⟩, rfl, rfl, ?_, ?_, ?_, hbuilt, ?_, hlt⟩
      · rw [← hoptions]
      · rw [← hoptions]
        exact h.source.len
      · rw [← hoptions]
      · have hstill' : CoapS.Blockwise { sender with
            resending := sender.resending.build dst msg.msgType octets (msg.uriPath.getD [])
            messageId } { msg with optionsList := some options, msgId } := hblockwise
        rw [if_pos hstill']
        simp only [CoapS.storeBlockwise, if_pos hkept, h.sent, List.nil_append, hptr]
        rw [h.source.len]

/-- A packet of the message that is read arrives. -/
theorem Canonical.conveyed_of_built {m : SnCoapHdr} {size : Nat} {octets : List UInt8}
    (hm : Canonical m.read) (hptr : m.payloadPtr = none → m.payloadLen = 0)
    (hclosed : Closed m.read) (hbuild : snCoapBuilder2 m size = some (.ok octets))
    (hcount : octets.length = snCoapBuilderCalcNeededPacketDataSize2 m size)
    (hlt : octets.length < 2 ^ 15 - 2 ^ 8) : Conveyed size m m.read := by
  have hoctets := (hm.built (snCoapBuilder2_read hptr hbuild)).2
  rw [← List.append_assoc] at hoctets
  exact ⟨octets, hbuild, hcount, exists_packet hm hoctets hlt,
    hm.legible hptr hclosed size octets hbuild⟩

/-- The first block is on its way, and arrives. -/
theorem Blocks.at (h : Blocks sender msg payload) (hlen : payload.length < 2 ^ 16)
    (hid : sender.messageId < 2 ^ 16) (receiver : CoapS) {a b dst : SnNsdlAddr}
    {packet : List UInt8} {request : SnCoapHdr} {sender' : CoapS}
    (hbuild : sender.protocolBuild dst (sender.prepareBlockwiseMessage msg) =
      some (.ok packet, request, sender')) (hread : Canonical request.read)
    (hcount : packet.length =
      snCoapBuilderCalcNeededPacketDataSize2 request sender.blockDataSize)
    (hshort : packet.length < 2 ^ 15 - 2 ^ 9) :
    At payload ⟨⟨b, receiver⟩, ⟨a, sender'⟩, request⟩ 0
        (snCoapConvertBlockSize sender.blockDataSize) ∧
      Conveyed sender'.blockDataSize request request.read ∧
      sender'.blockDataSize = sender.blockDataSize := by
  obtain ⟨options, resending, messageId, ts, hsource, hfull, hoptions, hused, hsize1, hblock1,
    hbuilt, rfl, hmessageId⟩ := h.built hbuild
  have hconvert := h.size.convert
  have hpos := h.size.pos
  have hlong := h.long
  have hcodes := (request_codes hsource.code.1 hsource.code.2).1
  have hptr : request.payloadPtr = some payload := hsource.ptr
  have hfirst : First request sender.blockDataSize :=
    ⟨hread, ⟨options, hoptions, hused⟩, ⟨payload, hptr⟩, ⟨hfull, hpos⟩, hcodes⟩
  have hkept := hfirst.kept hbuilt hcount (by omega)
  have hnone : request.payloadPtr = none → request.payloadLen = 0 := fun hnone =>
    absurd (hptr.symm.trans hnone) (Option.some_ne_none payload)
  have hclosed : Closed request.read := by
    refine .inl ?_
    simp only [SnCoapHdr.read, hptr, Option.map_some]
    rw [if_neg (by omega)]
    exact Option.some_ne_none _
  refine ⟨?_, hread.conveyed_of_built hnone hclosed hbuilt hcount (by omega), rfl⟩
  exact {
    stored := ⟨ts, _, rfl, ⟨rfl, rfl, hsource.code, hsource.status⟩, rfl,
      ⟨hkept.token, hkept.useSize1, hkept.legible, hkept.conveyed⟩⟩
    messageId := hmessageId hid
    legible := hread.legible hnone hclosed
    token := hread.token
    msgId := hread.msgId_lt
    size1 := by
      have hle := readInt_le options.size1
      rw [read_allocOptions hoptions]
      show (if options.useSize1 then readInt options.size1 else 0) < 2 ^ 16
      rw [hused, if_pos rfl]
      omega
    code := hsource.code
    status := hsource.status
    temp_le := convert_le _
    inside := Nat.zero_le _
    option := by
      rw [hconvert, decide_eq_true (by omega), SnCoapHdr.allocOptions, hoptions]
      exact hblock1
    ptr := by
      rw [Nat.mul_zero]
      exact hptr
    len := by
      rw [hconvert]
      show request.payloadLen = _
      omega }

theorem min_convert {size size' : Nat} (h : BlockSize size) (h' : BlockSize size') :
    2 ^ (min (snCoapConvertBlockSize size) (snCoapConvertBlockSize size') + 4) =
      min size size' := by
  have hsize := h.convert
  have hsize' := h'.convert
  rcases Nat.le_total (snCoapConvertBlockSize size) (snCoapConvertBlockSize size') with hle | hle
  · have hpow := pow_le_of_temp hle
    rw [Nat.min_eq_left hle]
    omega
  · have hpow := pow_le_of_temp hle
    rw [Nat.min_eq_right hle]
    omega

/-- The first block is sent in the sender's size, and all others in the smaller one. -/
theorem Blocks.first (h : Blocks sender msg payload) (hlen : payload.length < 2 ^ 16)
    (hid : sender.messageId < 2 ^ 16) {a b dst : SnNsdlAddr} {packet : List UInt8}
    {request : SnCoapHdr} {sender' : CoapS}
    (hbuild : sender.protocolBuild dst (sender.prepareBlockwiseMessage msg) =
      some (.ok packet, request, sender')) (hread : Canonical request.read)
    (hcount : packet.length =
      snCoapBuilderCalcNeededPacketDataSize2 request sender.blockDataSize)
    (hshort : packet.length < 2 ^ 15 - 2 ^ 9) (hsize : BlockSize receiver.blockDataSize)
    (hreceived : receiver.blockwiseReceivedPayloads = []) {t : Exchange}
    (ht : t = ⟨⟨b, receiver⟩, ⟨a, sender'⟩, request⟩) :
    ∃ t', t.Round t' ∧ t.Arrived t' ∧ Going payload t' 1
      (min (snCoapConvertBlockSize sender.blockDataSize)
        (snCoapConvertBlockSize receiver.blockDataSize)) := by
  obtain ⟨hat, hconveyed, hsender⟩ := h.at hlen hid receiver (a := a) (b := b) hbuild hread hcount
    hshort
  rw [← ht] at hat
  subst ht
  have hconvert := h.size.convert
  have hlong := h.long
  have hmin := min_convert h.size hsize
  have hnone : ∀ p ∈ receiver.blockwiseReceivedPayloads, a.same p.addr = true ∧ p.payload ≠ [] := by
    intro p hp
    rw [hreceived] at hp
    exact absurd hp List.not_mem_nil
  obtain ⟨t', hround, hnext, hpayloads, hsame, harrived, hnextConveyed⟩ := hat.next hlen
    (by rw [hconvert]; omega) rfl
  have hsent : 2 ^ (min (snCoapConvertBlockSize sender.blockDataSize)
      (snCoapConvertBlockSize receiver.blockDataSize) + 4) ≤ sender'.blockDataSize := by
    rw [hmin, hsender]
    exact Nat.min_le_left _ _
  refine ⟨t', hround, harrived hconveyed, hnext, ?_, ?_, ?_, ?_, ?_, ?_⟩
  · rw [hsame.peer_size]
    exact hnextConveyed hsent
  · rw [hsame.peer_size]
    exact hsent
  · rw [hsame.here_size, hmin]
    exact Nat.min_le_right _ _
  · rw [hsame.here_size]
    exact Nat.min_le_right _ _
  · rw [hpayloads, hsame.peer_addr]
    exact hat.own_arrived hnone
  · have hempty : wholePayload a receiver.blockwiseReceivedPayloads = [] := by
      rw [hreceived]
      rfl
    rw [hpayloads, hsame.peer_addr, hat.wholePayload_arrived, hempty, hconvert, hmin,
      List.nil_append, Nat.mul_zero, Nat.mul_one]
    rfl

end Main

end LibCoap
end LightDuer
