import LightDuer.Net.Coap

/-!
# Reports and responses

`duer_engine_enqueue_report_data` and `duer_engine_enqueue_response` put a message into the send
queue; its lengths are kept in fields of 16 bits. A sent message reaches the transport through
`duer_coap_nsdl_tx`, whose size has 16 bits too. The text of a report is what
`baidu_json_PrintUnformatted` makes of it, a C string.

## The way of a message

Each of the two functions checks its arguments and the global variables that hold agent and queue,
lets the agent build the message and pushes it. A message keeps pointer and length of its token,
path, query and payload; `DuerMsg` has both, as they can come apart. Which allocation fails is a
parameter (`Memory`), so the failures on the way, and the statuses they give, are part of the model.

## Where the lengths are kept

`Queued` says that the last message of the queue has the payload that was given, and that its length
is the length of that. A length is written to a `duer_u16_t`, which keeps it exactly where it is
below 2¹⁶: `queued_iff` says so of any message that is pushed with such a length, and the report,
the response and the frame of the transport are three uses of one argument. For the frame the eight
octets of its header count as well.

`lengths_kept_iff` puts the three together, as equivalences: for every payload that is queued, and
every message that is sent, the length is right if and only if it fits. A payload of 2¹⁶ octets is
queued with the length 0.
-/

set_option autoImplicit false

namespace LightDuer
namespace Engine

open Lib Net

/-- `DUER_ERR_INVALID_PARAMETER` -/
def duerErrInvalidParameter : Int := -0x0010
/-- `DUER_ERR_MEMORY_OVERLOW` -/
def duerErrMemoryOverlow : Int := -0x0011

/-- `DUER_MSG_TYPE_CONFIRMABLE` -/
def duerMsgTypeConfirmable : ℕ := 0x00
/-- `DUER_MSG_TYPE_NON_CONFIRMABLE` -/
def duerMsgTypeNonConfirmable : ℕ := 0x10
/-- `DUER_MSG_TYPE_ACKNOWLEDGEMENT` -/
def duerMsgTypeAcknowledgement : ℕ := 0x20
/-- `DUER_MSG_REQ_POST` -/
def duerMsgReqPost : ℕ := 2

/-- The value of a `duer_u16_t`. -/
def u16 (n : ℕ) : ℕ := n % 2 ^ 16

/-- `duer_msg_t`, with pointers that may be `NULL` -/
structure DuerMsg where
  tokenLen : ℕ := 0
  msgType : ℕ := 0
  msgCode : ℕ := 0
  msgId : ℕ := 0
  pathLen : ℕ := 0
  queryLen : ℕ := 0
  payloadLen : ℕ := 0
  token : Option (List UInt8) := none
  path : Option (List UInt8) := none
  query : Option (List UInt8) := none
  payload : Option (List UInt8) := none
deriving DecidableEq, Repr

/-- The fields of `baidu_ca_t` that go into a report. -/
structure ReportCa where
  reportQuery : Option (List UInt8)
  reportQueryLen : ℕ
  genToken : ℕ
deriving DecidableEq, Repr

/-- `DUER_REPORT_PATH`, `v1/device/data` -/
def duerReportPath : List UInt8 :=
  [118, 49, 47, 100, 101, 118, 105, 99, 101, 47, 100, 97, 116, 97]

/-- The octets of `ctx->gen_token`, the low one first. -/
def tokenOctets (genToken : ℕ) : List UInt8 :=
  [UInt8.ofNat genToken, UInt8.ofNat (genToken / 2 ^ 8)]

/-- `baidu_ca_build_report_message`; `msgOk` and `tokenOk` say which allocations succeed. -/
def baiduCaBuildReportMessage (ctx : ReportCa) (confirmable msgOk tokenOk : Bool) :
    Option DuerMsg × ReportCa :=
  if msgOk then
    (some {
        msgType := if confirmable then duerMsgTypeConfirmable else duerMsgTypeNonConfirmable
        msgCode := duerMsgReqPost
        path := some duerReportPath
        pathLen := u16 duerReportPath.length
        query := ctx.reportQuery
        queryLen := u16 ctx.reportQueryLen
        tokenLen := 2
        token := if tokenOk then some (tokenOctets ctx.genToken) else none },
      { ctx with genToken := u16 (ctx.genToken + 1) })
  else (none, ctx)

/-- `baidu_ca_build_response_message` -/
def baiduCaBuildResponseMessage (msg : DuerMsg) (msgCode : ℕ) (msgOk tokenOk : Bool) :
    Option DuerMsg :=
  if msgOk then
    let rs : DuerMsg :=
      if msg.msgType = duerMsgTypeConfirmable then
        { msgType := duerMsgTypeAcknowledgement, msgId := msg.msgId, msgCode := msgCode % 2 ^ 8 }
      else { msgType := msg.msgType, msgCode := msgCode % 2 ^ 8 }
    match msg.token with
    | some token =>
      if 0 < msg.tokenLen then
        if tokenOk then
          some { rs with tokenLen := msg.tokenLen, token := some (token.take msg.tokenLen) }
        else none
      else some rs
    | none => some rs
  else none

/-- `g_handler` and `g_qcache_handler`, `none` for `NULL` -/
structure SendSys where
  handler : Option ReportCa
  qcache : Option (List DuerMsg)
deriving DecidableEq, Repr

/-- `duer_qcache_push`, and the status it returns -/
def duerQcachePush (s : SendSys) (msg : DuerMsg) (nodeOk : Bool) : Int × SendSys :=
  match s.qcache with
  | none => (duerErrInvalidParameter, s)
  | some queue =>
    if nodeOk then (duerOk, { s with qcache := some (queue ++ [msg]) })
    else (duerErrMemoryOverlow, s)

/-- What the calls in an enqueueing find: whether each allocation succeeds. -/
structure Memory where
  object : Bool := true
  msg : Bool := true
  token : Bool := true
  content : Bool := true
  node : Bool := true
deriving DecidableEq, Repr

/-- `duer_engine_enqueue_report_data`, with what is printed; `none` where the length of a `NULL`
    is taken. -/
def duerEngineEnqueueReportData (s : SendSys) (data : Option Unit) (content : Option (List UInt8))
    (mem : Memory) : Option (Int × SendSys) :=
  match data, s.qcache, s.handler with
  | some _, some _, some ctx =>
    if mem.object then
      match baiduCaBuildReportMessage ctx false mem.msg mem.token with
      | (none, ctx) => some (duerErrMemoryOverlow, { s with handler := some ctx })
      | (some msg, ctx) =>
        content.map fun text =>
          duerQcachePush { s with handler := some ctx }
            { msg with payload := some text, payloadLen := u16 text.length } mem.node
    else some (duerErrMemoryOverlow, s)
  | _, _, _ => some (duerErrInvalidParameter, s)

/-- `duer_engine_enqueue_response`; `data` are the `size` octets of the payload. -/
def duerEngineEnqueueResponse (s : SendSys) (req : Option DuerMsg) (msgCode : ℕ)
    (data : List UInt8) (mem : Memory) : Int × SendSys :=
  match req, s.handler with
  | some req, some _ =>
    match baiduCaBuildResponseMessage req msgCode mem.msg mem.token with
    | none => (duerErrMemoryOverlow, s)
    | some msg =>
      if data = [] then duerQcachePush s { msg with payload := none, payloadLen := 0 } mem.node
      else if mem.content then
        duerQcachePush s { msg with payload := some data, payloadLen := u16 data.length } mem.node
      else (duerErrMemoryOverlow, s)
  | _, _ => (duerErrInvalidParameter, s)

/-! ## Lengths -/

/-- A message with this payload, and its length, is the last one of the queue. A payload of no
    octets may be `NULL`, so it is compared as a list of octets; the length is the one in its
    field. -/
def Queued (s : SendSys) (payload : List UInt8) : Prop :=
  ∃ queue msg, s.qcache = some (queue ++ [msg]) ∧ msg.payload.getD [] = payload ∧
    msg.payloadLen = payload.length

theorem u16_eq_iff {n : ℕ} : u16 n = n ↔ n < 2 ^ 16 := by
  rw [u16]
  omega

theorem not_ok {s s' : SendSys} {rs : Int} (h : rs ≠ duerOk) : (rs, s) ≠ (duerOk, s') :=
  fun heq => h (Prod.mk.inj heq).1

/-- A push that succeeds queues the message behind the others. -/
theorem duerQcachePush_ok {s s' : SendSys} {msg : DuerMsg} {nodeOk : Bool}
    (h : duerQcachePush s msg nodeOk = (duerOk, s')) :
    ∃ queue, s'.qcache = some (queue ++ [msg]) := by
  rw [duerQcachePush] at h
  split at h
  · exact absurd h (not_ok (by decide))
  · rename_i queue hq
    cases nodeOk with
    | false => exact absurd h (not_ok (by decide))
    | true =>
      obtain rfl := (Prod.mk.inj h).2
      exact ⟨queue, rfl⟩

/-- The length of a message that is queued is that of its payload if it fits into 16 bits. -/
theorem queued_iff {s s' : SendSys} {msg : DuerMsg} {nodeOk : Bool} {payload : List UInt8}
    (h : duerQcachePush s msg nodeOk = (duerOk, s')) (hpayload : msg.payload.getD [] = payload)
    (hlen : msg.payloadLen = u16 payload.length) : Queued s' payload ↔ payload.length < 2 ^ 16 := by
  obtain ⟨queue, hq⟩ := duerQcachePush_ok h
  rw [← u16_eq_iff, ← hlen]
  constructor
  · rintro ⟨queue', msg', hq', -, hlen'⟩
    obtain ⟨-, hsame⟩ := List.append_inj' (Option.some.inj (hq.symm.trans hq')) rfl
    rw [(List.cons.inj hsame).1, hlen']
  · exact fun hlen' => ⟨queue, msg, hq, hpayload, hlen'⟩

theorem enqueueReportData_queued_iff {s s' : SendSys} {data : Option Unit}
    {content : Option (List UInt8)} {mem : Memory}
    (h : duerEngineEnqueueReportData s data content mem = some (duerOk, s')) :
    ∃ text, content = some text ∧ (Queued s' text ↔ text.length < 2 ^ 16) := by
  unfold duerEngineEnqueueReportData at h
  split at h
  · split at h
    · split at h
      · exact absurd (Option.some.inj h) (not_ok (by decide))
      · obtain ⟨text, rfl, hpush⟩ := Option.map_eq_some_iff.mp h
        exact ⟨text, rfl, queued_iff hpush rfl rfl⟩
    · exact absurd (Option.some.inj h) (not_ok (by decide))
  · exact absurd (Option.some.inj h) (not_ok (by decide))

theorem enqueueResponse_queued_iff {s s' : SendSys} {req : Option DuerMsg} {msgCode : ℕ}
    {data : List UInt8} {mem : Memory}
    (h : duerEngineEnqueueResponse s req msgCode data mem = (duerOk, s')) :
    Queued s' data ↔ data.length < 2 ^ 16 := by
  unfold duerEngineEnqueueResponse at h
  split at h
  · split at h
    · exact absurd h (not_ok (by decide))
    · split at h
      · rename_i hnil
        subst hnil
        exact queued_iff h rfl rfl
      · split at h
        · exact queued_iff h rfl rfl
        · exact absurd h (not_ok (by decide))
  · exact absurd h (not_ok (by decide))

/-- What is given to the transport is the frame of the message if that fits into 16 bits. -/
theorem duerCoapNsdlTx_tcp_iff {malloc : Bool} {data sent : List UInt8}
    (hlen : data.length < 2 ^ 16) (h : duerCoapNsdlTx .tcp malloc data = some sent) :
    sent = be32 duerCoapTcpHdr ++ be32 data.length ++ data ↔ data.length + 8 < 2 ^ 16 := by
  cases malloc with
  | false => cases h
  | true =>
    constructor
    · intro hsent
      have hsize := congrArg (Option.map List.length) h
      simp only [duerCoapNsdlTx, if_true, Option.map_some, Option.some.injEq, hsent,
        List.length_take, List.length_append, be32_length] at hsize
      omega
    · intro hfits
      rw [duerCoapNsdlTx_tcp hfits] at h
      exact (Option.some.inj h).symm

/-- **Lengths are kept** exactly where they fit into 16 bits: the payload of a report and of a
    response, and a message with the eight octets in front of it. Nothing on the way checks a
    length, so the calls succeed all the same; what differs is what is queued, or given to the
    transport. -/
theorem lengths_kept_iff (s s' : SendSys) (object : Option Unit) (content : Option (List UInt8))
    (req : Option DuerMsg) (msgCode : ℕ) (mem : Memory) (data : List UInt8) (malloc : Bool)
    (sent : List UInt8) :
    (duerEngineEnqueueReportData s object content mem = some (duerOk, s') →
      ∃ text, content = some text ∧ (Queued s' text ↔ text.length < 2 ^ 16)) ∧
    (duerEngineEnqueueResponse s req msgCode data mem = (duerOk, s') →
      (Queued s' data ↔ data.length < 2 ^ 16)) ∧
    (data.length < 2 ^ 16 → duerCoapNsdlTx .tcp malloc data = some sent →
      (sent = be32 duerCoapTcpHdr ++ be32 data.length ++ data ↔ data.length + 8 < 2 ^ 16)) :=
  ⟨enqueueReportData_queued_iff, enqueueResponse_queued_iff, duerCoapNsdlTx_tcp_iff⟩

/-- The agent and the empty queue that the engine starts with. -/
def SendSys.created : SendSys where
  handler := some { reportQuery := none, reportQueryLen := 0, genToken := 0xC000 }
  qcache := some []

/-- A response of 2¹⁶ octets is queued with length 0, and of a message of 2¹⁶ - 8 octets nothing
    is given to the transport. -/
theorem lengths_lost :
    (∃ s', duerEngineEnqueueResponse .created (some {}) 69 (List.replicate (2 ^ 16) 0) {} =
        (duerOk, s') ∧ ¬Queued s' (List.replicate (2 ^ 16) 0)) ∧
    duerCoapNsdlTx .tcp true (List.replicate (2 ^ 16 - 8) 0) = some [] := by
  constructor
  · have hne : List.replicate (2 ^ 16) (0 : UInt8) ≠ [] :=
      List.ne_nil_of_length_pos (by rw [List.length_replicate]; decide)
    have hok : duerEngineEnqueueResponse .created (some {}) 69 (List.replicate (2 ^ 16) 0) {} =
        (duerOk, { SendSys.created with qcache := some [{
          msgType := duerMsgTypeAcknowledgement
          msgCode := 69
          payload := some (List.replicate (2 ^ 16) 0)
          payloadLen := u16 (List.replicate (2 ^ 16) (0 : UInt8)).length }] }) := by
      simp only [duerEngineEnqueueResponse, SendSys.created, if_neg hne]
      rfl
    refine ⟨_, hok, fun hq => ?_⟩
    have := (enqueueResponse_queued_iff hok).mp hq
    rw [List.length_replicate] at this
    exact Nat.lt_irrefl _ this
  · rw [duerCoapNsdlTx, if_pos rfl, List.length_replicate]
    rfl

end Engine
end LightDuer
