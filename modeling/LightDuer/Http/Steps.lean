import LightDuer.Http.Ending
import LightDuer.Lib.Transition

/-!
# A download in steps

`duer_http_client_get` as a machine: a stage says where in the nested loops the download is, and a
step goes to the next one. The loops that a peer can keep running, and that hand nothing over or
hand over by rules of their own, are part of a step. They take fuel, and the fuel is the action:
a step with too little of it ends in the stage `stuck`, with what has been done so far in the
client, and no step follows. So does one that has run past the receive buffer.

A stage has what its loop keeps in local variables: the attempts left, the result of the last one,
the octets of the response in the buffer, the collected part of a chunked body.

The machine adds nothing to the functions. `download_run` shows that a download that returns is a
run of it, which ends in the stage `finished` with the result and in the client that the function
gives. What holds of all runs of the machine therefore holds of all downloads, and a condition on
the states of a run can name the place in the code where something goes wrong.
-/

set_option autoImplicit false

namespace LightDuer
namespace Http

open Lib

/-- Where a download is. -/
inductive Stage where
  /-- before the memory for the buffer -/
  | begin
  /-- at the head of the loop over the attempts, with the last result -/
  | attempts (left : Nat) (ret : HttpResult)
  /-- `http_client_connect` has succeeded, with `remain` octets of the body in the buffer -/
  | connected (left remain : Nat)
  /-- at the head of the loop over the chunks -/
  | chunks (left : Nat) (chunkBuf : List UInt8)
  /-- at `RET` of `http_client_recv_chunk` -/
  | chunksOver (left : Nat) (res : HttpResult) (chunkBuf : List UInt8)
  /-- `duer_http_client_get_data` has returned -/
  | received (left : Nat) (res : HttpResult)
  /-- at `RET` of `duer_http_client_get` -/
  | ret (res : HttpResult)
  /-- it has returned -/
  | finished (res : HttpResult)
  /-- in an inner loop, or past the end of the buffer -/
  | stuck (out : Outcome)
deriving DecidableEq

/-- A download under way. -/
structure Download where
  stage : Stage
  client : HttpClient

/-- Where a function that has ended goes on, and where one that has not is left. -/
def Outcome.stage (next : HttpResult → Stage) : Outcome → Stage
  | .done res => next res
  | out => .stuck out

/-- Behind an attempt comes another one where the connection failed. -/
def afterAttempt (left : Nat) (res : HttpResult) (c : HttpClient) : Download :=
  if res = .conn ∨ res = .timeout then
    ⟨.attempts left res, { c with resumeRetryCount := c.resumeRetryCount + 1 }⟩
  else ⟨.ret res, c⟩

/-- What `RET` of `http_client_recv_chunk` does before it returns: where no error occurred, what is
    left in `p_chunk_buf` is handed over as `DATA_MID`. -/
def chunkRet (res : HttpResult) (chunkBuf : List UInt8) (c : HttpClient) : HttpClient :=
  if res = .ok then
    let c := { c with dataPos := .mid }
    if c.dataHdlrCb then c.handle chunkBuf else c
  else c

/-- One step, with this fuel for the inner loops. -/
def step (s : Download) (fuel : Nat) : Option Download :=
  let c := s.client
  match s.stage with
  | .begin =>
    match c.malloc with
    | (false, c) => some ⟨.ret .failed, c⟩
    | (true, c) => some ⟨.attempts (hcMaxRetryResumeCount + 1) .ok, c⟩
  | .attempts 0 ret => some ⟨.ret ret, c⟩
  | .attempts (left + 1) ret =>
    match c.checkStop with
    | (true, c) => some ⟨.ret ret, c⟩
    | (false, c) =>
      match httpClientConnect fuel c with
      | (.done .ok, remain, c) => some ⟨.connected left remain, c⟩
      | (.done res, _, c) => some (afterAttempt left res c)
      | (out, _, c) => some ⟨.stuck out, c⟩
  | .connected left remain =>
    let c := { c with buf := c.buf.take remain }
    if c.isChunked then
      if hcChunkSize - 1 < c.buf.length then some ⟨.received left .failed, c⟩
      else some ⟨.chunks left [], c⟩
    else
      match httpClientRecvContentData fuel c (hcChunkSize - 1) with
      | (out, c) => some ⟨out.stage (.received left), c⟩
  | .chunks left chunkBuf =>
    match chunkPass (hcChunkSize - 1) fuel c chunkBuf with
    | (none, chunkBuf, c) => some ⟨.chunks left chunkBuf, c⟩
    | (some out, chunkBuf, c) => some ⟨out.stage (.chunksOver left · chunkBuf), c⟩
  | .chunksOver left res chunkBuf => some ⟨.received left res, chunkRet res chunkBuf c⟩
  | .received left res => some (afterAttempt left res c)
  | .ret res => some ⟨.finished res, getRet c⟩
  | .finished _ => none
  | .stuck _ => none

/-- A call of `duer_http_client_get`. -/
def Download.start (c : HttpClient) (pos : Nat) : Download := ⟨.begin, c.start pos⟩

/-! ## A download is a run -/

/-- Some run leads from the one to the other. -/
def Leads (s s' : Download) : Prop := ∃ as, runFrom step s as = some s'

section Runs

variable {s s₁ s' : Download} {c c' : HttpClient} {fuel left remain : Nat}

theorem Leads.next (h : Leads s₁ s') (fuel : Nat) (hstep : step s fuel = some s₁) : Leads s s' := by
  obtain ⟨as, has⟩ := h
  refine ⟨fuel :: as, ?_⟩
  rw [runFrom, hstep]
  exact has

theorem httpClientRecvChunk_eq (hle : c.buf.length ≤ hcChunkSize - 1) :
    httpClientRecvChunk fuel c (hcChunkSize - 1) =
      match recvChunkLoop (hcChunkSize - 1) fuel c [] with
      | (.done res, chunkBuf, c) => (.done res, chunkRet res chunkBuf c)
      | (out, _, c) => (out, c) := by
  rw [httpClientRecvChunk, if_neg (Nat.not_lt.mpr hle)]
  rcases recvChunkLoop (hcChunkSize - 1) fuel c [] with ⟨out, chunkBuf, c₁⟩
  rcases out with res | _ | _
  · cases res <;> rfl
  · rfl
  · rfl

/-- The passes over the chunks, by induction on the fuel, which each of them uses up some of. -/
theorem chunks_run {res : HttpResult} {chunkBuf chunkBuf' : List UInt8}
    (h : recvChunkLoop (hcChunkSize - 1) fuel c chunkBuf = (.done res, chunkBuf', c'))
    (hrest : Leads ⟨.chunksOver left res chunkBuf', c'⟩ s') :
    Leads ⟨.chunks left chunkBuf, c⟩ s' := by
  induction fuel generalizing c chunkBuf with
  | zero => simp [recvChunkLoop] at h
  | succ fuel ih =>
    rw [recvChunkLoop_succ] at h
    rcases hpass : chunkPass (hcChunkSize - 1) fuel c chunkBuf with ⟨out, chunkBuf₁, c₁⟩
    rw [hpass] at h
    cases out with
    | none =>
      refine (ih h).next fuel ?_
      simp only [step, hpass]
    | some out =>
      obtain ⟨rfl, hbuf, rfl⟩ := (Prod.mk.inj h).imp_right Prod.mk.inj
      obtain rfl : chunkBuf₁ = chunkBuf' := hbuf
      refine hrest.next fuel ?_
      simp only [step, hpass, Outcome.stage]

/-- The data of a response. -/
theorem data_run {res : HttpResult} (h : duerHttpClientGetData fuel c remain = (.done res, c'))
    (hrest : Leads ⟨.received left res, c'⟩ s') : Leads ⟨.connected left remain, c⟩ s' := by
  rw [duerHttpClientGetData] at h
  by_cases hchunked : c.isChunked = true
  · simp only [if_pos hchunked] at h
    by_cases hlong : hcChunkSize - 1 < (c.buf.take remain).length
    · rw [httpClientRecvChunk, if_pos hlong] at h
      obtain ⟨hres, rfl⟩ := Prod.mk.inj h
      obtain rfl := Outcome.done.inj hres
      refine hrest.next fuel ?_
      simp only [step, if_pos hchunked, if_pos hlong]
    · rw [httpClientRecvChunk_eq (Nat.le_of_not_lt hlong)] at h
      rcases hloop : recvChunkLoop (hcChunkSize - 1) fuel { c with buf := c.buf.take remain } []
        with ⟨out, chunkBuf, c₁⟩
      rw [hloop] at h
      rcases out with res₁ | _ | _
      · obtain ⟨hres, rfl⟩ := Prod.mk.inj h
        obtain rfl := Outcome.done.inj hres
        have hover : Leads ⟨.chunksOver left res₁ chunkBuf, c₁⟩ s' := hrest.next fuel rfl
        refine (chunks_run hloop hover).next fuel ?_
        simp only [step, if_pos hchunked, if_neg hlong]
      · exact absurd (Prod.mk.inj h).1 (by simp)
      · exact absurd (Prod.mk.inj h).1 (by simp)
  · simp only [if_neg hchunked] at h
    refine hrest.next fuel ?_
    simp only [step, if_neg hchunked, h, Outcome.stage]

/-- The attempts, by induction on their number. -/
theorem getLoop_run {ret res : HttpResult} (h : getLoop fuel left ret c = (.done res, c')) :
    Leads ⟨.attempts left ret, c⟩ ⟨.finished res, getRet c'⟩ := by
  have hover (res : HttpResult) (c : HttpClient) : Leads ⟨.ret res, c⟩ ⟨.finished res, getRet c⟩ :=
    Leads.next ⟨[], rfl⟩ fuel rfl
  induction left generalizing ret c with
  | zero =>
    obtain ⟨hres, rfl⟩ := Prod.mk.inj h
    obtain rfl := Outcome.done.inj hres
    exact (hover ret c).next fuel rfl
  | succ left ih =>
    -- what follows an attempt that ends with a result
    have htail {res₁ : HttpResult} {c₁ : HttpClient}
        (h : getTail left fuel (.done res₁, c₁) = (.done res, c')) :
        Leads (afterAttempt left res₁ c₁) ⟨.finished res, getRet c'⟩ := by
      simp only [getTail] at h
      unfold afterAttempt
      split at h <;> rename_i hagain
      · rw [if_pos hagain]
        exact ih h
      · rw [if_neg hagain]
        obtain ⟨hres, rfl⟩ := Prod.mk.inj h
        obtain rfl := Outcome.done.inj hres
        exact hover res₁ c₁
    rw [getLoop_succ] at h
    rcases hcheck : c.checkStop with ⟨stop, c₁⟩
    rw [hcheck] at h
    cases stop with
    | true =>
      obtain ⟨hres, rfl⟩ := Prod.mk.inj h
      obtain rfl := Outcome.done.inj hres
      refine (hover ret c₁).next fuel ?_
      simp only [step, hcheck]
    | false =>
      simp only [attempt] at h
      rcases hconnect : httpClientConnect fuel c₁ with ⟨out, remain, c₂⟩
      rw [hconnect] at h
      by_cases hok : out = .done .ok
      · subst hok
        simp only [attemptTail] at h
        rcases hdata : duerHttpClientGetData fuel c₂ remain with ⟨out, c₃⟩
        rw [hdata] at h
        rcases out with res₁ | _ | _
        · have hreceived : Leads ⟨.received left res₁, c₃⟩ ⟨.finished res, getRet c'⟩ :=
            (htail h).next fuel rfl
          refine (data_run hdata hreceived).next fuel ?_
          simp only [step, hcheck, hconnect]
        · exact absurd (Prod.mk.inj h).1 (by simp)
        · exact absurd (Prod.mk.inj h).1 (by simp)
      · rcases out with res₁ | _ | _
        · have hlast : attemptTail fuel (.done res₁, remain, c₂) = (.done res₁, c₂) := by
            cases res₁ <;> first | rfl | exact absurd rfl hok
          rw [hlast] at h
          refine (htail h).next fuel ?_
          simp only [step, hcheck, hconnect]
          cases res₁ <;> first | rfl | exact absurd rfl hok
        · exact absurd (Prod.mk.inj h).1 (by simp)
        · exact absurd (Prod.mk.inj h).1 (by simp)

/-- **A download that returns** is a run to the stage `finished`, with its result and its client. So
    what holds in every stage of every run holds when the function returns, and the stages are no
    invention beside it. -/
theorem download_run {pos : Nat} {res : HttpResult}
    (h : duerHttpClientGet fuel c pos = (.done res, c')) :
    Leads (.start c pos) ⟨.finished res, c'⟩ := by
  rw [duerHttpClientGet_eq] at h
  rcases hmalloc : (c.start pos).malloc with ⟨ok, c₁⟩
  rw [hmalloc] at h
  cases ok with
  | false =>
    obtain ⟨hres, rfl⟩ := Prod.mk.inj h
    obtain rfl := Outcome.done.inj hres
    have hover : Leads ⟨.ret .failed, c₁⟩ ⟨.finished .failed, getRet c₁⟩ :=
      Leads.next ⟨[], rfl⟩ fuel rfl
    refine hover.next fuel ?_
    simp only [Download.start, step, hmalloc]
  | true =>
    simp only at h
    rcases hloop : getLoop fuel (hcMaxRetryResumeCount + 1) .ok c₁ with ⟨out, c₂⟩
    rw [hloop] at h
    rcases out with res₁ | _ | _
    · obtain ⟨hres, rfl⟩ := Prod.mk.inj h
      obtain rfl := Outcome.done.inj hres
      refine (getLoop_run hloop).next fuel ?_
      simp only [Download.start, step, hmalloc]
    · exact absurd (Prod.mk.inj h).1 (by simp)
    · exact absurd (Prod.mk.inj h).1 (by simp)

end Runs

end Http
end LightDuer
