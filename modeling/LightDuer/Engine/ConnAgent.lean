import LightDuer.Engine.Model
import LightDuer.Net.Coap
import Mathlib.Logic.Relation

/-!
# The connection agent

`lightduer_ca.c`: the state `ctx->state` of a connection on its way up, from `baidu_ca_start`
through the service-router connection and the registration to `DUER_ST_STARTED`, and the CoAP handle
`ctx->sr` that `baidu_ca_send_data` and `baidu_ca_data_available` use. A frame is received as
`duer_coap_recv` does it, octet for octet. What the transport answers, and what the CoAP library
makes of a message, comes from a `Wire`.

What other threads and the application can see of the agent is recorded in `Agent.seen`: every value
written to `ctx->state`, and every event of the connection.

## The way up

`baidu_ca_do_start` calls `baidu_ca_run` as long as the connection is not started and the last pass
has returned `DUER_OK`. A pass does what the state asks for; `baidu_ca_create_service_router` is the
one that meets the network, and it goes on from state to state as far as the results allow. A pass
that gets stuck returns the result that stopped it, and the state says where the next one resumes.
The loop has `fuel` in the model and none in the code, and what it does without end is a subject of
its own.

## What the functions report

Two kinds of facts are proved here, once for each function, and everything else about sessions goes
through them.

* `Agent.Moves` is what the agent has done: a sequence of single changes, each with what it shows.
  The codes of the responses that the library passes on are a parameter.
* `Reports` and `Completes` are what a returned status says of the state that is left: what can be
  carried on has left the start-up suspended in one of three states, and a success of the whole
  start-up has started the connection.
-/

set_option autoImplicit false

namespace LightDuer
namespace Engine

open Lib Net Relation

/-- `DUER_ERR_REG_FAIL` -/
def duerErrRegFail : Int := -0x0033
/-- `DUER_MSG_RSP_CONTENT`, 2.05 -/
def duerMsgRspContent : Nat := 69

/-- The enumeration value, by which `lightduer_ca.c` compares states. -/
def CaState.value : CaState → Nat
  | .stoped => 0
  | .unregistered => 1
  | .registerConnected => 2
  | .registered => 3
  | .srConnecting => 4
  | .srDataSending => 5
  | .srDataReceiving => 6
  | .srInitialized => 7
  | .rptConnected => 8
  | .rptInitialized => 9
  | .started => 10
  | .reporting => 11
  | .reported => 12
  | .registerFail => 13

/-! ## What the agent meets -/

/-- A result of the transport: a status, which is no count, or the octets it took or gave. -/
inductive TransResult where
  | status (rs : Int) (nonpos : rs ≤ 0)
  | octets (b : List UInt8)
deriving DecidableEq, Repr

/-- What the CoAP library makes of a message: `SN_NSDL_SUCCESS` or `SN_NSDL_FAILURE`, and the code
    of the response if it passes one to `duer_coap_nsdl_rx`. The two are given independently of each
    other. -/
structure NsdlResult where
  ok : Bool
  response : Option Nat
deriving DecidableEq, Repr

def NsdlResult.status (r : NsdlResult) : Int := if r.ok then 0 else -1

/-- The transport under the CoAP handle and the library in it. A call that returns `none` has not
    returned. -/
structure Wire (σ : Type) extends Transport σ where
  /-- whether `duer_coap_acquire` succeeds -/
  acquire : σ → Bool
  /-- `duer_trans_connect` -/
  connect : σ → Option (Int × σ)
  /-- `duer_trans_send` -/
  send : σ → Option (Int × σ)
  library : σ → List UInt8 → NsdlResult

/-- What can be seen of the agent. -/
inductive Seen where
  /-- written to `ctx->state` -/
  | state (st : CaState)
  /-- `duer_coap_connect` returned `DUER_OK` -/
  | connected
  /-- the registration request was sent -/
  | registration
  /-- a response was passed to `duer_engine_coap_handler` -/
  | response (code : Nat)
  /-- a message of the send queue was handed to the transport -/
  | message (m : Nat)
  /-- `DUER_EVENT_STARTED` was notified -/
  | started
deriving DecidableEq, Repr

/-- `baidu_ca_t` -/
structure Agent where
  state : CaState
  /-- `ctx->sr` is not `NULL` -/
  sr : Bool
  /-- `ctx->res_list` is not `NULL` -/
  resList : Bool := false
  /-- `ctx->res_size`, the number of resources that are staged -/
  resSize : Nat := 0
  seen : List Seen
deriving DecidableEq, Repr

/-- `baidu_ca_acquire` -/
def Agent.acquired : Agent where
  state := .stoped
  sr := false
  seen := []

def Agent.observe (a : Agent) (o : Seen) : Agent := { a with seen := a.seen ++ [o] }

def Agent.setState (a : Agent) (st : CaState) : Agent :=
  { a with state := st, seen := a.seen ++ [.state st] }

@[simp] theorem Agent.observe_state (a : Agent) (o : Seen) : (a.observe o).state = a.state := rfl
@[simp] theorem Agent.setState_state (a : Agent) (st : CaState) : (a.setState st).state = st := rfl

/-! ## The agent's functions -/

section Functions

variable {σ : Type} (w : Wire σ)

/-- `duer_engine_coap_handler` -/
def duerEngineCoapHandler (a : Agent) (code : Nat) : Agent :=
  let a := a.observe (.response code)
  if a.state = .srDataReceiving then
    if code = duerMsgRspContent then a.setState .srInitialized else a.setState .registerFail
  else a

/-- `duer_coap_send`: the library reports success where the transport took octets. -/
def duerCoapSend (io : σ) : Option (Int × σ) := do
  let (retval, io) ← w.send io
  some (if retval ≤ 0 then retval else 0, io)

/-- `duer_coap_nsdl_rx`, if the library calls it for the message handed over. -/
def duerCoapNsdlRx (a : Agent) (io : σ) (handed : Option (List UInt8)) : Agent :=
  match handed.bind fun msg => (w.library io msg).response with
  | some code => duerEngineCoapHandler a code
  | none => a

/-- `duer_coap_data_available` of `ctx->sr`; every octet of its buffer that is read has been
    received. -/
def srDataAvailable (a : Agent) (io : σ) : Option (Int × Agent × σ) := do
  let coap : DuerCoap σ :=
    { trans := io, remote := .tcp, nsdl := fun msg => (w.library io msg).status }
  let (rs, handed, coap) ← duerCoapDataAvailable w.toTransport coap (Buffer.fill _ 0)
  some (rs, duerCoapNsdlRx w a io handed, coap.trans)

/-- The loop of `baidu_ca_add_resources` comes to its end from this value of its counter, which is
    a `duer_u8_t`, in so many rounds. -/
def resLoopEnds (size : Nat) : Nat → Nat → Bool
  | 0, _ => false
  | fuel + 1, i => if i < size then resLoopEnds size fuel ((i + 1) % 2 ^ 8) else true

/-- `baidu_ca_create_service_router` in `DUER_ST_SR_INITIALIZED`: the staged resources are added,
    and their list is freed. The counter has 2⁸ values, so a loop that has not ended in as many
    rounds never does, and the call does not return. Nor does it where the list has been lost by a
    `DUER_REALLOC` that failed and its size has not: `duer_coap_resource_add` refuses a `NULL`, but
    reads what would be the next element. -/
def Agent.addStaged (a : Agent) : Option Agent :=
  if a.state = .srInitialized then
    if resLoopEnds a.resSize (2 ^ 8) 0 then
      if a.resList then some { a with resList := false, resSize := 0 }
      else if a.resSize ≤ 1 then some a
      else none
    else none
  else some a

/-- What is staged cannot be added: it is too much, or its list has been lost. -/
def Agent.StagedFails (a : Agent) : Prop :=
  2 ^ 8 ≤ a.resSize ∨ (a.resList = false ∧ 2 ≤ a.resSize)

/-! `baidu_ca_create_service_router` goes from state to state as far as the results allow. -/

/-- in `DUER_ST_SR_DATA_RECEIVING` -/
def srReceive (a : Agent) (io : σ) : Option (Int × Agent × σ) := do
  let (rs, a, io) ← srDataAvailable w a io
  if rs < 0 then some (rs, a, io)
  else do
    let a ← a.addStaged
    some (if a.state = .registerFail then duerErrRegFail else rs, a, io)

/-- in `DUER_ST_SR_DATA_SENDING` -/
def srRegister (a : Agent) (io : σ) : Option (Int × Agent × σ) := do
  let (rs, io) ← duerCoapSend w io
  if rs < 0 then some (rs, a, io)
  else srReceive w ((a.observe .registration).setState .srDataReceiving) io

/-- in `DUER_ST_SR_CONNECTING` -/
def srConnect (a : Agent) (io : σ) : Option (Int × Agent × σ) := do
  let (rs, io) ← w.connect io
  if rs = 0 then srRegister w ((a.observe .connected).setState .srDataSending) io
  else some (rs, a, io)

/-- `baidu_ca_create_service_router` -/
def baiduCaCreateServiceRouter (a : Agent) (io : σ) : Option (Int × Agent × σ) :=
  if a.sr = false ∧ w.acquire io = false then some (duerErrFailed, a, io)
  else
    let a := { a with sr := true }
    match a.state with
    | .srConnecting => srConnect w a io
    | .srDataSending => srRegister w a io
    | .srDataReceiving => srReceive w a io
    | .srInitialized => a.addStaged.map fun a => (duerErrFailed, a, io)
    | .registerFail => some (duerErrRegFail, a, io)
    | _ => some (duerErrFailed, a, io)

/-- `baidu_ca_run` -/
def baiduCaRun (a : Agent) (io : σ) : Option (Int × Agent × σ) :=
  match a.state with
  | .unregistered => some (0, a.setState .registerConnected, io)
  | .registerConnected => some (0, a.setState .registered, io)
  | .registered => some (0, a.setState .srConnecting, io)
  | .srConnecting | .srDataSending | .srDataReceiving => baiduCaCreateServiceRouter w a io
  | .srInitialized | .rptInitialized => some (0, a.setState .started, io)
  | .stoped => some (duerErrFailed, a, io)
  | .started => some (0, a, io)
  | _ => some (duerErrFailed, a, io)

/-- The loop of `baidu_ca_do_start`, with the status of the last pass. -/
def doStartLoop : Nat → Int → Agent → σ → Option (Int × Agent × σ)
  | fuel, rs, a, io =>
    if a.state ≠ .started ∧ rs = 0 then
      match fuel with
      | 0 => none
      | fuel + 1 => do
        let (rs, a, io) ← baiduCaRun w a io
        doStartLoop fuel rs a io
    else some (rs, a, io)

/-- `baidu_ca_do_start` -/
def baiduCaDoStart (fuel : Nat) (a : Agent) (io : σ) : Option (Int × Agent × σ) :=
  doStartLoop w fuel 0 a io

/-- `baidu_ca_start` -/
def baiduCaStart (fuel : Nat) (a : Agent) (io : σ) : Option (Int × Agent × σ) :=
  let a := if a.state = .stoped then a.setState .unregistered else a
  if a.state = .registerFail then some (duerErrRegFail, a, io)
  else baiduCaDoStart w fuel a io

/-- `baidu_ca_data_available` -/
def baiduCaDataAvailable (fuel : Nat) (a : Agent) (io : σ) : Option (Int × Agent × σ) := do
  let (rs, a, io) ←
    (if CaState.srInitialized.value ≤ a.state.value ∧ a.sr = true then srDataAvailable w a io
      else some (duerErrFailed, a, io))
  if a.state.value < CaState.started.value then baiduCaDoStart w fuel a io
  else some (rs, a, io)

/-- `baidu_ca_send_data` -/
def baiduCaSendData (a : Agent) (m : Nat) (io : σ) : Option (Int × Agent × σ) :=
  if a.sr then do
    let (rs, io) ← duerCoapSend w io
    some (rs, a.observe (.message m), io)
  else some (duerErrFailed, a, io)

/-- `baidu_ca_stop` -/
def baiduCaStop (a : Agent) : Agent :=
  if a.state = .stoped then a else { a.setState .stoped with sr := false }

end Functions

/-! ## What the agent can do -/

/-- The states in which a start-up can be suspended. -/
def CaState.suspended : CaState → Bool
  | .srConnecting | .srDataSending | .srDataReceiving => true
  | _ => false

/-- One change of the agent on its way up, with responses of these codes. -/
inductive Agent.Move (codes : Nat → Prop) : Agent → Agent → Prop
  | acquire (a : Agent) (h : a.state.suspended = true) : Move codes a { a with sr := true }
  | start (a : Agent) (h : a.state = .stoped) : Move codes a (a.setState .unregistered)
  | unregistered (a : Agent) (h : a.state = .unregistered) :
      Move codes a (a.setState .registerConnected)
  | registerConnected (a : Agent) (h : a.state = .registerConnected) :
      Move codes a (a.setState .registered)
  | registered (a : Agent) (h : a.state = .registered) : Move codes a (a.setState .srConnecting)
  | connect (a : Agent) (h : a.state = .srConnecting) :
      Move codes a ((a.observe .connected).setState .srDataSending)
  | register (a : Agent) (h : a.state = .srDataSending) :
      Move codes a ((a.observe .registration).setState .srDataReceiving)
  | content (a : Agent) (h : a.state = .srDataReceiving) :
      Move codes a ((a.observe (.response duerMsgRspContent)).setState .srInitialized)
  | reject (a : Agent) (h : a.state = .srDataReceiving) (code : Nat)
      (hcode : code ≠ duerMsgRspContent) (hrsp : codes code) :
      Move codes a ((a.observe (.response code)).setState .registerFail)
  | response (a : Agent) (h : a.state ≠ .srDataReceiving) (code : Nat) :
      Move codes a (a.observe (.response code))
  | staged (a : Agent) (h : a.state = .srInitialized) :
      Move codes a { a with resList := false, resSize := 0 }
  | initialized (a : Agent) (h : a.state = .srInitialized ∨ a.state = .rptInitialized) :
      Move codes a (a.setState .started)

abbrev Agent.Moves (codes : Nat → Prop) : Agent → Agent → Prop :=
  ReflTransGen (Agent.Move codes)

theorem duerEngineCoapHandler_moves {codes : Nat → Prop} (a : Agent) {code : Nat}
    (hrsp : codes code) : a.Moves codes (duerEngineCoapHandler a code) := by
  by_cases hst : a.state = .srDataReceiving
  · by_cases hcode : code = duerMsgRspContent
    · subst hcode
      simp only [duerEngineCoapHandler, Agent.observe_state, if_pos hst, if_true]
      exact .single (.content a hst)
    · simp only [duerEngineCoapHandler, Agent.observe_state, if_pos hst, if_neg hcode]
      exact .single (.reject a hst code hcode hrsp)
  · simp only [duerEngineCoapHandler, Agent.observe_state, hst, if_false]
    exact .single (.response a hst code)

/-- Adding what is staged changes nothing else, and happens in no other state. -/
theorem Agent.addStaged_moves {codes : Nat → Prop} {a a' : Agent} (h : a.addStaged = some a') :
    a.Moves codes a' ∧ a'.state = a.state := by
  unfold Agent.addStaged at h
  split at h
  · rename_i hst
    split at h
    · split at h
      · obtain rfl := Option.some.inj h
        exact ⟨.single (.staged a hst), rfl⟩
      · split at h
        · obtain rfl := Option.some.inj h
          exact ⟨.refl, rfl⟩
        · exact absurd h (by simp)
    · exact absurd h (by simp)
  · obtain rfl := Option.some.inj h
    exact ⟨.refl, rfl⟩

theorem Agent.addStaged_of_ne {a : Agent} (h : a.state ≠ .srInitialized) :
    a.addStaged = some a := if_neg h

/-- A counter that can reach the size does so, -/
theorem resLoopEnds_of_lt {size fuel i : Nat} (hsize : size < 2 ^ 8) (hi : i ≤ size)
    (hfuel : size - i < fuel) : resLoopEnds size fuel i = true := by
  induction fuel generalizing i with
  | zero => omega
  | succ fuel ih =>
    rw [resLoopEnds]
    split
    · rw [Nat.mod_eq_of_lt (by omega)]
      exact ih (by omega) (by omega)
    · rfl

/-- and one that cannot stays below it for ever. -/
theorem resLoopEnds_of_le {size fuel i : Nat} (hsize : 2 ^ 8 ≤ size) (hi : i < 2 ^ 8) :
    resLoopEnds size fuel i = false := by
  induction fuel generalizing i with
  | zero => rfl
  | succ fuel ih =>
    rw [resLoopEnds, if_pos (by omega)]
    exact ih (Nat.mod_lt _ (by decide))

/-- The call does not return where what is staged cannot be added. -/
theorem Agent.addStaged_eq_none_iff {a : Agent} :
    a.addStaged = none ↔ a.state = .srInitialized ∧ a.StagedFails := by
  unfold Agent.addStaged Agent.StagedFails
  split
  · rename_i hst
    by_cases hsize : a.resSize < 2 ^ 8
    · rw [resLoopEnds_of_lt hsize (Nat.zero_le _) (by omega), if_pos rfl]
      cases hlist : a.resList with
      | true =>
        refine iff_of_false (by simp) ?_
        rintro ⟨-, hmany | ⟨hlost, -⟩⟩
        · omega
        · exact absurd hlost (by simp)
      | false =>
        rw [if_neg Bool.false_ne_true]
        by_cases hone : a.resSize ≤ 1
        · rw [if_pos hone]
          refine iff_of_false (by simp) ?_
          rintro ⟨-, hmany | ⟨-, hmore⟩⟩ <;> omega
        · rw [if_neg hone]
          exact iff_of_true rfl ⟨hst, .inr ⟨rfl, by omega⟩⟩
    · rw [resLoopEnds_of_le (by omega) (by decide), if_neg Bool.false_ne_true]
      exact iff_of_true rfl ⟨hst, .inl (by omega)⟩
  · rename_i hst
    simp [hst]

section Specs

variable {σ : Type} {w : Wire σ} {codes : Nat → Prop} {a a' : Agent} {io io' : σ} {rs : Int}

/-- The library passes on responses of these codes only. -/
def Wire.Responds (w : Wire σ) (codes : Nat → Prop) : Prop :=
  ∀ io msg code, (w.library io msg).response = some code → codes code

theorem Wire.responds_any (w : Wire σ) : w.Responds fun _ => True := fun _ _ _ _ => trivial

/-- A message that is handed over gives the call its status. -/
theorem duerCoapDataAvailable_handed {t : Transport σ} {coap coap' : DuerCoap σ}
    {stack : Buffer duerBufferSize} {handed : Option (List UInt8)}
    (h : duerCoapDataAvailable t coap stack = some (rs, handed, coap')) {msg : List UInt8}
    (hmsg : handed = some msg) : rs = coap.nsdl msg := by
  have hmessage (coap₁ : DuerCoap σ) {cap : Nat} {data : Buffer cap} {n : Nat}
      (hn : coap₁.nsdl = coap.nsdl)
      (h : duerCoapRecvMessage t coap₁ data n = some (rs, handed, coap')) :
      rs = coap.nsdl msg := by
    obtain ⟨⟨rs₁, data₁, tr⟩, -, h⟩ := Option.bind_eq_some_iff.mp h
    by_cases hpos : 0 < rs₁
    · simp only [if_pos hpos] at h
      obtain ⟨m, -, h⟩ := Option.bind_eq_some_iff.mp h
      simp only [Option.some.injEq, Prod.mk.injEq] at h
      obtain ⟨rfl, rfl, -⟩ := h
      obtain rfl : m = msg := by simpa using hmsg
      rw [hn]
    · simp only [if_neg hpos, Option.some.injEq, Prod.mk.injEq] at h
      exact absurd (h.2.1.trans hmsg) (by simp)
  unfold duerCoapDataAvailable duerCoapRecv at h
  cases hr : coap.remote with
  | udp => exact hmessage coap rfl (by simpa only [hr] using h)
  | tcp =>
    simp only [hr] at h
    obtain ⟨⟨rs₁, value, tr⟩, -, h⟩ := Option.bind_eq_some_iff.mp h
    by_cases hrej : rs₁ ≠ 8 ∨ ofBe32 value.bytes ≠ duerCoapTcpHdr ∨
        duerBufferSize < ofBe32 (value.bytes.drop 4)
    · simp only [if_pos hrej, Option.some.injEq, Prod.mk.injEq] at h
      exact absurd (h.2.1.trans hmsg) (by simp)
    · simp only [if_neg hrej] at h
      exact hmessage { trans := tr, remote := .tcp, nsdl := coap.nsdl } rfl h

/-- An arrival leaves the agent alone, or a response reaches the handler with the status of the
    library. -/
theorem srDataAvailable_cases (hw : w.Responds codes)
    (h : srDataAvailable w a io = some (rs, a', io')) :
    a' = a ∨ ∃ code, codes code ∧ a' = duerEngineCoapHandler a code ∧ (rs = 0 ∨ rs = -1) := by
  obtain ⟨⟨rs₁, handed, coap⟩, hcall, h⟩ := Option.bind_eq_some_iff.mp h
  simp only [Option.some.injEq, Prod.mk.injEq] at h
  obtain ⟨rfl, rfl, -⟩ := h
  unfold duerCoapNsdlRx
  cases hresp : handed.bind fun msg => (w.library io msg).response with
  | none => exact .inl rfl
  | some code =>
    obtain ⟨msg, hmsg, hlibrary⟩ := Option.bind_eq_some_iff.mp hresp
    refine .inr ⟨code, hw io msg code hlibrary, rfl, ?_⟩
    rw [duerCoapDataAvailable_handed hcall hmsg]
    simp only [NsdlResult.status]
    split
    · exact .inl rfl
    · exact .inr rfl

/-- What a call reports of the state it leaves: a success is no refused registration, and what
    can be carried on has left the start-up suspended. -/
def Reports (rs : Int) (a : Agent) : Prop :=
  (rs = 0 → a.state ≠ .registerFail) ∧
    (rs = duerErrTransWouldBlock ∨ 0 < rs → a.state.suspended = true)

theorem srReceive_spec (hw : w.Responds codes) (hst : a.state = .srDataReceiving)
    (h : srReceive w a io = some (rs, a', io')) : a.Moves codes a' ∧ Reports rs a' := by
  obtain ⟨⟨rs₁, a₁, io₁⟩, hcall, hrest⟩ := Option.bind_eq_some_iff.mp h
  clear h
  rcases srDataAvailable_cases hw hcall with rfl | ⟨code, hrsp, hcode, hrs⟩
  · -- nothing reached the handler
    have hreports : Reports rs₁ a₁ := ⟨fun _ => by simp [hst], fun _ => by simp [hst]; rfl⟩
    by_cases hneg : rs₁ < 0
    · simp only [if_pos hneg, Option.some.injEq, Prod.mk.injEq] at hrest
      obtain ⟨rfl, rfl, -⟩ := hrest
      exact ⟨.refl, hreports⟩
    · have hstaged : a₁.addStaged = some a₁ := Agent.addStaged_of_ne (by simp [hst])
      simp only [if_neg hneg, hstaged, Option.bind_eq_bind, Option.bind_some, hst, reduceCtorEq,
        if_false, Option.some.injEq, Prod.mk.injEq] at hrest
      obtain ⟨rfl, rfl, -⟩ := hrest
      exact ⟨.refl, hreports⟩
  · have hmoves : a.Moves codes a₁ := hcode ▸ duerEngineCoapHandler_moves a hrsp
    by_cases hneg : rs₁ < 0
    · simp only [if_pos hneg, Option.some.injEq, Prod.mk.injEq] at hrest
      obtain ⟨rfl, rfl, -⟩ := hrest
      obtain rfl : rs₁ = -1 := by omega
      exact ⟨hmoves, fun h0 => absurd h0 (by decide), fun hpos => absurd hpos (by decide)⟩
    · simp only [if_neg hneg] at hrest
      obtain ⟨a₂, hstaged, hrest⟩ := Option.bind_eq_some_iff.mp hrest
      obtain ⟨hmoves', hstate⟩ := @Agent.addStaged_moves codes _ _ hstaged
      simp only [Option.some.injEq, Prod.mk.injEq] at hrest
      obtain ⟨rfl, rfl, -⟩ := hrest
      obtain rfl : rs₁ = 0 := by omega
      refine ⟨hmoves.trans hmoves', ?_, ?_⟩
      · intro h0 hfail
        rw [if_pos hfail] at h0
        exact absurd h0 (by decide)
      · intro hpos
        split at hpos
        · exact absurd hpos (by decide)
        · exact absurd hpos (by decide)

theorem srRegister_spec (hw : w.Responds codes) (hst : a.state = .srDataSending)
    (h : srRegister w a io = some (rs, a', io')) : a.Moves codes a' ∧ Reports rs a' := by
  obtain ⟨⟨rs₁, io₁⟩, -, h⟩ := Option.bind_eq_some_iff.mp h
  by_cases hneg : rs₁ < 0
  · simp only [if_pos hneg, Option.some.injEq, Prod.mk.injEq] at h
    obtain ⟨rfl, rfl, -⟩ := h
    exact ⟨.refl, fun _ => by simp [hst], fun _ => by rw [hst]; rfl⟩
  · simp only [if_neg hneg] at h
    obtain ⟨hmoves, hreports⟩ := srReceive_spec hw rfl h
    exact ⟨.head (.register a hst) hmoves, hreports⟩

theorem srConnect_spec (hw : w.Responds codes) (hst : a.state = .srConnecting)
    (h : srConnect w a io = some (rs, a', io')) : a.Moves codes a' ∧ Reports rs a' := by
  obtain ⟨⟨rs₁, io₁⟩, -, h⟩ := Option.bind_eq_some_iff.mp h
  by_cases hok : rs₁ = 0
  · simp only [if_pos hok] at h
    obtain ⟨hmoves, hreports⟩ := srRegister_spec hw rfl h
    exact ⟨.head (.connect a hst) hmoves, hreports⟩
  · simp only [if_neg hok, Option.some.injEq, Prod.mk.injEq] at h
    obtain ⟨rfl, rfl, -⟩ := h
    exact ⟨.refl, fun _ => by simp [hst], fun _ => by rw [hst]; rfl⟩

theorem baiduCaCreateServiceRouter_spec (hw : w.Responds codes)
    (hst : a.state.suspended = true)
    (h : baiduCaCreateServiceRouter w a io = some (rs, a', io')) :
    a.Moves codes a' ∧ Reports rs a' := by
  unfold baiduCaCreateServiceRouter at h
  split at h
  · simp only [Option.some.injEq, Prod.mk.injEq] at h
    obtain ⟨rfl, rfl, -⟩ := h
    exact ⟨.refl, fun h0 => absurd h0 (by decide), fun _ => hst⟩
  · have hacquire : a.Moves codes { a with sr := true } :=
      .single (.acquire a hst)
    have hst' : ({ a with sr := true } : Agent).state.suspended = true := hst
    generalize ({ a with sr := true } : Agent) = b at h hacquire hst'
    cases hs : b.state with
    | srConnecting =>
      simp only [hs] at h
      obtain ⟨hmoves, hreports⟩ := srConnect_spec hw hs h
      exact ⟨hacquire.trans hmoves, hreports⟩
    | srDataSending =>
      simp only [hs] at h
      obtain ⟨hmoves, hreports⟩ := srRegister_spec hw hs h
      exact ⟨hacquire.trans hmoves, hreports⟩
    | srDataReceiving =>
      simp only [hs] at h
      obtain ⟨hmoves, hreports⟩ := srReceive_spec hw hs h
      exact ⟨hacquire.trans hmoves, hreports⟩
    | _ => exact absurd hst' (by simp [hs, CaState.suspended])

/-- **One pass of the start-up.** Whatever it has met, the agent has moved along the way up only,
    and what it reports fits the state that it leaves: it is `DUER_OK` with no refused registration,
    or something to be carried on with the start-up suspended, or an error. -/
theorem baiduCaRun_spec (hw : w.Responds codes)
    (h : baiduCaRun w a io = some (rs, a', io')) :
    a.Moves codes a' ∧ Reports rs a' := by
  have hfailed {a : Agent} (hrs : rs = duerErrFailed) : Reports rs a := by
    subst hrs
    exact ⟨fun h0 => absurd h0 (by decide), fun hpos => absurd hpos (by decide)⟩
  have hok {st : CaState} (hrs : rs = 0) (hst : st ≠ .registerFail) :
      Reports rs (a.setState st) := by
    subst hrs
    exact ⟨fun _ => hst, fun hpos => absurd hpos (by decide)⟩
  unfold baiduCaRun at h
  cases hst : a.state with
  | unregistered =>
    simp only [hst, Option.some.injEq, Prod.mk.injEq] at h
    obtain ⟨hrs, rfl, -⟩ := h
    exact ⟨.single (.unregistered a hst), hok hrs.symm (by simp)⟩
  | registerConnected =>
    simp only [hst, Option.some.injEq, Prod.mk.injEq] at h
    obtain ⟨hrs, rfl, -⟩ := h
    exact ⟨.single (.registerConnected a hst), hok hrs.symm (by simp)⟩
  | registered =>
    simp only [hst, Option.some.injEq, Prod.mk.injEq] at h
    obtain ⟨hrs, rfl, -⟩ := h
    exact ⟨.single (.registered a hst), hok hrs.symm (by simp)⟩
  | srConnecting | srDataSending | srDataReceiving =>
    simp only [hst] at h
    exact baiduCaCreateServiceRouter_spec hw (by rw [hst]; rfl) h
  | srInitialized =>
    simp only [hst, Option.some.injEq, Prod.mk.injEq] at h
    obtain ⟨hrs, rfl, -⟩ := h
    exact ⟨.single (.initialized a (.inl hst)), hok hrs.symm (by simp)⟩
  | rptInitialized =>
    simp only [hst, Option.some.injEq, Prod.mk.injEq] at h
    obtain ⟨hrs, rfl, -⟩ := h
    exact ⟨.single (.initialized a (.inr hst)), hok hrs.symm (by simp)⟩
  | started =>
    simp only [hst, Option.some.injEq, Prod.mk.injEq] at h
    obtain ⟨rfl, rfl, -⟩ := h
    exact ⟨.refl, fun _ => by simp [hst], fun hpos => absurd hpos (by decide)⟩
  | stoped | rptConnected | reporting | reported | registerFail =>
    simp only [hst, Option.some.injEq, Prod.mk.injEq] at h
    obtain ⟨hrs, rfl, -⟩ := h
    exact ⟨.refl, hfailed hrs.symm⟩

/-- What `baidu_ca_do_start` reports: a success has started the connection. -/
def Completes (rs : Int) (a : Agent) : Prop :=
  (rs = 0 → a.state = .started) ∧
    (rs = duerErrTransWouldBlock ∨ 0 < rs → a.state.suspended = true)

/-- **The whole start-up**: passes as long as they succeed. The induction is on the fuel, from the
    status of the pass before; where the loop has ended with `DUER_OK` it has ended because the
    connection is started. -/
theorem doStartLoop_spec (hw : w.Responds codes) {fuel : Nat} (hrep : Reports rs a) {rs' : Int}
    (h : doStartLoop w fuel rs a io = some (rs', a', io')) :
    a.Moves codes a' ∧ Completes rs' a' := by
  have hdone (hexit : ¬ (a.state ≠ .started ∧ rs = 0)) : Completes rs a := by
    refine ⟨fun h0 => ?_, hrep.2⟩
    exact Decidable.of_not_not fun hns => hexit ⟨hns, h0⟩
  induction fuel generalizing rs a io with
  | zero =>
    unfold doStartLoop at h
    split at h
    · exact absurd h (by simp)
    · simp only [Option.some.injEq, Prod.mk.injEq] at h
      obtain ⟨rfl, rfl, -⟩ := h
      exact ⟨.refl, hdone ‹_›⟩
  | succ fuel ih =>
    unfold doStartLoop at h
    split at h
    · obtain ⟨⟨rs₁, a₁, io₁⟩, hrun, h⟩ := Option.bind_eq_some_iff.mp h
      obtain ⟨hmoves, hrep₁⟩ := baiduCaRun_spec hw hrun
      obtain ⟨hmoves', hcomplete⟩ := ih hrep₁ h fun hexit => by
        refine ⟨fun h0 => ?_, hrep₁.2⟩
        exact Decidable.of_not_not fun hns => hexit ⟨hns, h0⟩
      exact ⟨hmoves.trans hmoves', hcomplete⟩
    · simp only [Option.some.injEq, Prod.mk.injEq] at h
      obtain ⟨rfl, rfl, -⟩ := h
      exact ⟨.refl, hdone ‹_›⟩

/-- A start of a connection that is stopped, or suspended on its way up. -/
theorem baiduCaStart_spec (hw : w.Responds codes) {fuel : Nat}
    (hst : a.state = .stoped ∨ a.state.suspended = true)
    (h : baiduCaStart w fuel a io = some (rs, a', io')) :
    a.Moves codes a' ∧ Completes rs a' := by
  have hstart {b : Agent} (hb : b.state ≠ .registerFail)
      (h : baiduCaDoStart w fuel b io = some (rs, a', io')) :
      b.Moves codes a' ∧ Completes rs a' :=
    doStartLoop_spec hw ⟨fun _ => hb, fun hpos => absurd hpos (by decide)⟩ h
  unfold baiduCaStart at h
  rcases hst with hst | hst
  · simp only [if_pos hst, Agent.setState_state, reduceCtorEq, if_false] at h
    obtain ⟨hmoves, hcomplete⟩ := hstart (by simp) h
    exact ⟨.head (.start a hst) hmoves, hcomplete⟩
  · have hns : a.state ≠ .stoped := fun hs => absurd hst (by simp [hs, CaState.suspended])
    have hnf : a.state ≠ .registerFail := fun hs => absurd hst (by simp [hs, CaState.suspended])
    simp only [if_neg hns, if_neg hnf] at h
    exact hstart hnf h

/-- Data on a connection that is suspended on its way up: the start-up goes on. -/
theorem baiduCaDataAvailable_eq_doStart {fuel : Nat} (hst : a.state.suspended = true) :
    baiduCaDataAvailable w fuel a io = baiduCaDoStart w fuel a io := by
  have hlow : ¬ (CaState.srInitialized.value ≤ a.state.value ∧ a.sr = true) ∧
      a.state.value < CaState.started.value := by
    cases hs : a.state with
    | srConnecting | srDataSending | srDataReceiving => simp [CaState.value]
    | _ => exact absurd hst (by simp [hs, CaState.suspended])
  simp only [baiduCaDataAvailable, if_neg hlow.1, Option.bind_eq_bind, Option.bind_some,
    if_pos hlow.2]

theorem baiduCaDataAvailable_suspended (hw : w.Responds codes) {fuel : Nat}
    (hst : a.state.suspended = true)
    (h : baiduCaDataAvailable w fuel a io = some (rs, a', io')) :
    a.Moves codes a' ∧ Completes rs a' := by
  have hnf : a.state ≠ .registerFail := fun hs => absurd hst (by simp [hs, CaState.suspended])
  rw [baiduCaDataAvailable_eq_doStart hst] at h
  exact doStartLoop_spec hw ⟨fun _ => hnf, fun hpos => absurd hpos (by decide)⟩ h

/-- Data on a started connection: a response may be passed on. -/
theorem baiduCaDataAvailable_started {fuel : Nat} (hst : a.state = .started)
    (h : baiduCaDataAvailable w fuel a io = some (rs, a', io')) :
    a' = a ∨ ∃ code, a' = a.observe (.response code) := by
  unfold baiduCaDataAvailable at h
  obtain ⟨⟨rs₁, a₁, io₁⟩, hcall, h⟩ := Option.bind_eq_some_iff.mp h
  have hreached : a₁.state = .started ∧ (a₁ = a ∨ ∃ code, a₁ = a.observe (.response code)) := by
    split at hcall
    · rcases srDataAvailable_cases w.responds_any hcall with rfl | ⟨code, -, rfl, -⟩
      · exact ⟨hst, .inl rfl⟩
      · have hhandler : duerEngineCoapHandler a code = a.observe (.response code) := by
          simp [duerEngineCoapHandler, hst]
        rw [hhandler]
        exact ⟨hst, .inr ⟨code, rfl⟩⟩
    · simp only [Option.some.injEq, Prod.mk.injEq] at hcall
      obtain ⟨-, rfl, -⟩ := hcall
      exact ⟨hst, .inl rfl⟩
  have hnlt : ¬ a₁.state.value < CaState.started.value := by
    rw [hreached.1]
    exact Nat.lt_irrefl _
  simp only [if_neg hnlt, Option.some.injEq, Prod.mk.injEq] at h
  obtain ⟨-, rfl, -⟩ := h
  exact hreached.2

/-- A message goes to the transport where the connection has a handle. -/
theorem baiduCaSendData_cases {m : Nat}
    (h : baiduCaSendData w a m io = some (rs, a', io')) :
    (a.sr = true ∧ a' = a.observe (.message m)) ∨ (a.sr = false ∧ a' = a ∧ rs = duerErrFailed) := by
  unfold baiduCaSendData at h
  cases hsr : a.sr with
  | true =>
    simp only [hsr, if_true] at h
    obtain ⟨_, -, h⟩ := Option.bind_eq_some_iff.mp h
    simp only [Option.some.injEq, Prod.mk.injEq] at h
    exact .inl ⟨rfl, h.2.1.symm⟩
  | false =>
    simp only [hsr, Bool.false_eq_true, if_false, Option.some.injEq, Prod.mk.injEq] at h
    exact .inr ⟨rfl, h.2.1.symm, h.1.symm⟩

end Specs

end Engine
end LightDuer
