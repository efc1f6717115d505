import LightDuer.Lib.Transition
import LightDuer.Net.Transport

/-!
# The life of a TLS transport

`lightduer_net_trans_encrypted.c`, with `duer_trans_release` of the transport wrapper. A transport
keeps a pointer to its secure context. A call that finds none builds one; closing frees the context
and leaves the pointer as it was. Contexts are numbered in the order they are built, and a freed one
keeps its number. What the heap, the socket and mbedTLS answer is given with each call; a call that
uses a context that is not there ends in a fault.

## The two faults

`duer_trans_get_context` is lazy: the context is built by the first call that needs it. Connecting
takes the pointer it returns. Sending and receiving read `trans->secure` before they prepare the
transport, and the preparation is what may build the context; so a transport that has not been
connected is used through a pointer that was read when it was still `NULL`. The second fault is the
other end of the life: after a close the pointer is not cleared, so every later call finds a
context, and it is the one that was freed.

## The proof

`Trans.At p status` is a transport with a live context. Each function has a lemma for this case: it
comes back, keeps the context, and returns what the answers make it return. A transport without a
context is brought to it by `getContext_of_ready`. `Usable` covers both, and `Kept` says what a call
leaves of such a transport. A transport that points to what was freed is `Dangling`, and every call
on it is a fault, `Dangling.handle`.

`Life` is a run, with a flag for a connection that was made with a context from before the last
close. The run lemma is the rule of the two regions: a guarded call keeps a good life good, and any
other ends it.
-/

set_option autoImplicit false

namespace LightDuer
namespace Net
namespace Tls

open Lib

/-- `duer_trans_status_e` -/
inductive Status where
  | disconnected | connected | handshaked
deriving DecidableEq, Repr

inductive Fault where
  /-- It is used and was never created. -/
  | notCreated
  /-- It is used and has been freed. -/
  | freed
  | freedTwice
  /-- The loop of `duer_trans_encrypted_prepare` has no fuel left. -/
  | outOfFuel
deriving DecidableEq, Repr

inductive Creation where
  | noMemory
  /-- One of the calls of mbedTLS fails, and what was allocated is freed. -/
  | setupFails
  | ready
deriving DecidableEq, Repr

/-- What is answered during a call. -/
structure Answers where
  creation : Creation
  /-- by `duer_trans_wrapper_connect`, in turn -/
  connects : List Int
  /-- by `mbedtls_ssl_handshake`, in turn -/
  handshakes : List Int
  /-- by `mbedtls_ssl_write` or `mbedtls_ssl_read` -/
  transfer : Int
deriving DecidableEq, Repr

/-- The heap, the socket and mbedTLS do what they are asked. -/
def Answers.fine : Answers := ⟨.ready, [duerOk], [duerOk], 1⟩

/-- `duer_trans_t` with the contexts it has had, and what the current call is still answered. -/
structure Trans where
  secure : Option Nat
  /-- `status` of each; none once it is freed -/
  contexts : List (Option Status)
  answers : Answers
deriving DecidableEq, Repr

def mbedtlsErrSslTimeout : Int := -0x6800
def mbedtlsErrSslWantRead : Int := -0x6900
def mbedtlsErrSslWantWrite : Int := -0x6880

/-- `duer_trans_mbedtls2status` -/
def mbedtls2status (status : Int) : Int :=
  if status = mbedtlsErrSslTimeout then duerErrTransTimeout
  else if status = mbedtlsErrSslWantRead ∨ status = mbedtlsErrSslWantWrite then
    duerErrTransWouldBlock
  else if status < 0 then duerErrTransInternalError
  else status

namespace Trans

/-- `duer_trans_wrapper_connect` -/
def wrapperConnect (t : Trans) : Int × Trans :=
  (t.answers.connects.headD duerErrFailed,
    { t with answers := { t.answers with connects := t.answers.connects.tail } })

/-- `mbedtls_ssl_handshake` -/
def sslHandshake (t : Trans) : Int × Trans :=
  (t.answers.handshakes.headD duerErrFailed,
    { t with answers := { t.answers with handshakes := t.answers.handshakes.tail } })

/-- `ptr->status`, or any other use of the context. -/
def use (t : Trans) (ptr : Option Nat) : Except Fault Status :=
  match ptr.bind (t.contexts[·]?) with
  | none => .error .notCreated
  | some none => .error .freed
  | some (some status) => .ok status

/-- `ptr->status = status` -/
def setStatus (t : Trans) (p : Nat) (status : Status) : Except Fault Trans := do
  let _ ← t.use (some p)
  .ok { t with contexts := t.contexts.set p (some status) }

/-- `DUER_FREE(ptr)` -/
def free (t : Trans) (p : Nat) : Except Fault Trans :=
  match t.contexts[p]? with
  | none => .error .notCreated
  | some none => .error .freedTwice
  | some (some _) => .ok { t with contexts := t.contexts.set p none }

/-- `duer_trans_get_context` -/
def getContext (t : Trans) : Option Nat × Trans :=
  match t.secure with
  | some p => (some p, t)
  | none =>
    match t.answers.creation with
    | .noMemory => (none, t)
    | .setupFails => (none, { t with contexts := t.contexts ++ [none] })
    | .ready =>
      (some t.contexts.length,
        { t with
          secure := some t.contexts.length
          contexts := t.contexts ++ [some .disconnected] })

/-- `duer_trans_encrypted_handshake` -/
def handshake (t : Trans) : Except Fault (Int × Trans) :=
  match t.secure with
  | none => .ok (duerErrFailed, t)
  | some p => do
    let _ ← t.use (some p)
    let (rs, t) := t.sslHandshake
    let rs := mbedtls2status rs
    if rs = duerOk then
      let t ← t.setStatus p .handshaked
      .ok (rs, t)
    else .ok (rs, t)

/-- `duer_trans_encrypted_do_connect` -/
def doConnect (t : Trans) : Except Fault (Int × Trans) :=
  match t.getContext with
  | (none, t) => .ok (duerErrFailed, t)
  | (some p, t) => do
    let (rs, t) := t.wrapperConnect
    if rs = duerOk then
      let t ← t.setStatus p .connected
      .ok (rs, t)
    else .ok (rs, t)

/-- `duer_trans_encrypted_do_prepare` -/
def doPrepare (t : Trans) : Except Fault (Int × Trans) :=
  match t.getContext with
  | (none, t) => .ok (duerErrFailed, t)
  | (some p, t) => do
    match ← t.use (some p) with
    | .disconnected => t.doConnect
    | .connected => t.handshake
    | .handshaked => .ok (duerOk, t)

/-- The loop of `duer_trans_encrypted_prepare`, on `ptr`. -/
def prepareLoop (p : Nat) : Nat → Int → Trans → Except Fault (Int × Trans)
  | 0, _, _ => .error .outOfFuel
  | fuel + 1, rs, t => do
    let status ← t.use (some p)
    if status ≠ .handshaked ∧ rs = duerOk then
      let (rs, t) ← t.doPrepare
      prepareLoop p fuel rs t
    else .ok (rs, t)

/-- `duer_trans_encrypted_prepare`; `prepare_handled` is why two rounds and the last look are
    enough. -/
def prepare (t : Trans) : Except Fault (Int × Trans) :=
  match t.getContext with
  | (none, t) => .ok (duerErrFailed, t)
  | (some p, t) => prepareLoop p 3 duerOk t

/-- `duer_trans_encrypted_connect` -/
def connect (t : Trans) : Except Fault (Int × Trans) :=
  match t.getContext with
  | (none, t) => .ok (duerErrFailed, t)
  | (some p, t) => do
    if (← t.use (some p)) = .disconnected then
      let (rs, t) ← t.doConnect
      if rs < duerOk then .ok (rs, t) else t.prepare
    else t.prepare

/-- What `duer_trans_encrypted_send` and `duer_trans_encrypted_recv` share: `ptr` is read before
    the context is prepared. -/
def transfer (t : Trans) : Except Fault (Int × Trans) := do
  let ptr := t.secure
  let (rs, t) ← t.prepare
  if rs < duerOk then .ok (rs, t)
  else
    let _ ← t.use ptr
    .ok (mbedtls2status t.answers.transfer, t)

/-- `duer_trans_encrypted_send` -/
def send (t : Trans) : Except Fault (Int × Trans) := t.transfer

/-- `duer_trans_encrypted_recv` -/
def recv (t : Trans) : Except Fault (Int × Trans) := t.transfer

/-- `duer_trans_encrypted_close` -/
def close (t : Trans) : Except Fault (Int × Trans) :=
  match t.secure with
  | none => .ok (duerOk, t)
  | some p => do
    -- the notification, the reset of the session and the parts of the context
    let _ ← t.use (some p)
    let t ← t.free p
    .ok (duerOk, t)

end Trans

/-! ## Runs -/

inductive Op where
  | connect | send | recv | close
  /-- `duer_trans_release` -/
  | release
deriving DecidableEq, Repr

structure Call where
  op : Op
  answers : Answers
deriving DecidableEq, Repr

/-- What a call does to a transport. Releasing it closes it first. -/
def Trans.handle (t : Trans) : Op → Except Fault (Int × Trans)
  | .connect => t.connect
  | .send => t.send
  | .recv => t.recv
  | .close | .release => t.close

structure Life where
  trans : Trans
  /-- The transport itself is freed. -/
  released : Bool
  fault : Option Fault
  /-- how many contexts there had been at the last close -/
  closedAt : Option Nat
  /-- A call of connect after it could build a context, and has been left without one or with one
      from before. -/
  stale : Bool
deriving DecidableEq, Repr

/-- `duer_trans_acquire` -/
def Life.acquired : Life :=
  { trans := { secure := none, contexts := [], answers := ⟨.noMemory, [], [], 0⟩ }
    released := false, fault := none, closedAt := none, stale := false }

/-- The transport has a context that has been built since the first `n`. -/
def Trans.Fresh (t : Trans) (n : Nat) : Prop := ∃ p ∈ t.secure, n ≤ p

instance (t : Trans) (n : Nat) : Decidable (t.Fresh n) :=
  inferInstanceAs (Decidable (∃ p ∈ t.secure, n ≤ p))

/-- The call has come back, and has left the transport like this. -/
def Life.after (l : Life) (c : Call) (t : Trans) : Life :=
  match c.op with
  | .connect =>
    { l with
      trans := t
      stale := l.stale || decide (c.answers.creation = .ready ∧ ∃ n ∈ l.closedAt, ¬t.Fresh n) }
  | .send | .recv => { l with trans := t }
  | .close => { l with trans := t, closedAt := some t.contexts.length }
  | .release => { l with trans := t, released := true }

def Life.called (l : Life) (c : Call) : Trans := { l.trans with answers := c.answers }

/-- Nothing is called after a fault, nor on a transport that has been freed. -/
def Life.step (l : Life) (c : Call) : Option Life :=
  if l.released = true ∨ l.fault ≠ none then none
  else
    match (l.called c).handle c.op with
    | .error fault => some { l with fault := some fault }
    | .ok (_, t) => some (l.after c t)

/-- No context has been used that was freed or never created, none was freed twice, and connecting
    after a close has built a new one. -/
def Life.Safe (l : Life) : Prop := l.fault = none ∧ l.stale = false

/-! ## The condition -/

/-- Preparing a transport that has no context does not get to the end of the handshake. -/
def Answers.PrepareFails (a : Answers) : Prop :=
  a.creation ≠ .ready ∨ a.connects.headD duerErrFailed < 0 ∨
    (a.connects.headD duerErrFailed = 0 ∧ a.handshakes.headD duerErrFailed < 0)

instance (a : Answers) : Decidable a.PrepareFails :=
  inferInstanceAs (Decidable (_ ∨ _ ∨ _ ∧ _))

/-- The transport still points to the context that was freed. -/
def Trans.Dangling (t : Trans) : Prop := ∃ p ∈ t.secure, t.contexts[p]? = some none

instance (t : Trans) : Decidable t.Dangling :=
  inferInstanceAs (Decidable (∃ p ∈ t.secure, t.contexts[p]? = some none))

/-- No context has been closed before, and what is sent or received first on a transport without one
    fails while it is prepared. -/
def Life.Guard (l : Life) (c : Call) : Prop :=
  ¬l.trans.Dangling ∧
    (c.op = .send ∨ c.op = .recv → l.trans.secure = none → c.answers.PrepareFails)

instance (l : Life) (c : Call) : Decidable (l.Guard c) :=
  inferInstanceAs (Decidable (¬_ ∧ (_ ∨ _ → _ → _)))

/-! ## A transport with a context -/

/-- The context of the transport, in this status. -/
def Trans.At (t : Trans) (p : Nat) (status : Status) : Prop :=
  t.secure = some p ∧ t.contexts[p]? = some (some status)

@[simp] theorem ok_bind {α β : Type} (a : α) (f : α → Except Fault β) :
    (Except.ok a >>= f) = f a := rfl

@[simp] theorem error_bind {α β : Type} (fault : Fault) (f : α → Except Fault β) :
    (Except.error fault >>= f) = .error fault := rfl

theorem mbedtls2status_neg_iff (status : Int) : mbedtls2status status < 0 ↔ status < 0 := by
  unfold mbedtls2status mbedtlsErrSslTimeout mbedtlsErrSslWantRead mbedtlsErrSslWantWrite
    duerErrTransTimeout duerErrTransWouldBlock duerErrTransInternalError
  split_ifs <;> omega

namespace Trans

variable {t : Trans} {p : Nat} {status : Status}

theorem At.use (h : t.At p status) : t.use (some p) = .ok status := by
  simp [Trans.use, h.2]

theorem At.getContext (h : t.At p status) : t.getContext = (some p, t) := by
  simp [Trans.getContext, h.1]

theorem At.setStatus (h : t.At p status) (status' : Status) :
    ∃ t', t.setStatus p status' = .ok t' ∧ t'.At p status' ∧ t'.answers = t.answers ∧
      t'.contexts.length = t.contexts.length := by
  obtain ⟨hlt, -⟩ := List.getElem?_eq_some_iff.mp h.2
  refine ⟨{ t with contexts := t.contexts.set p (some status') }, ?_, ⟨h.1, ?_⟩, rfl, ?_⟩
  · simp [Trans.setStatus, h.use]
  · simp [hlt]
  · simp

theorem At.doConnect (h : t.At p status) :
    ∃ t', t.doConnect = .ok (t.wrapperConnect.1, t') ∧
      t'.At p (if t.wrapperConnect.1 = duerOk then .connected else status) ∧
      t'.answers = t.wrapperConnect.2.answers ∧
      t'.contexts.length = t.contexts.length := by
  have hnext : t.wrapperConnect.2.At p status := h
  unfold Trans.doConnect
  rw [h.getContext]
  by_cases hr : t.wrapperConnect.1 = duerOk
  · obtain ⟨t', hset, hat, hans, hlen⟩ := hnext.setStatus .connected
    refine ⟨t', ?_, by rwa [if_pos hr], hans, hlen⟩
    simp only [hr, if_true, hset, ok_bind]
  · refine ⟨t.wrapperConnect.2, ?_, by rwa [if_neg hr], rfl, rfl⟩
    simp only [hr, if_false]

theorem At.handshake (h : t.At p status) :
    ∃ t' status', t.handshake = .ok (mbedtls2status t.sslHandshake.1, t') ∧ t'.At p status' ∧
      (mbedtls2status t.sslHandshake.1 = duerOk → status' = .handshaked) ∧
      t'.contexts.length = t.contexts.length := by
  have hnext : t.sslHandshake.2.At p status := h
  unfold Trans.handshake
  rw [h.1]
  by_cases hr : mbedtls2status t.sslHandshake.1 = duerOk
  · obtain ⟨t', hset, hat, -, hlen⟩ := hnext.setStatus .handshaked
    refine ⟨t', .handshaked, ?_, hat, fun _ => rfl, hlen⟩
    simp only [h.use, hr, if_true, hset, ok_bind]
  · refine ⟨t.sslHandshake.2, status, ?_, hnext, fun hok => absurd hok hr, rfl⟩
    simp only [h.use, hr, if_false, ok_bind]

/-- The loop ends on a context that is ready, and where a round did not go well. -/
theorem At.prepareLoop_end (h : t.At p status) (fuel : ℕ) {rs : Int}
    (hend : status = .handshaked ∨ rs ≠ duerOk) :
    prepareLoop p (fuel + 1) rs t = .ok (rs, t) := by
  have hgo : ¬(status ≠ .handshaked ∧ rs = duerOk) := fun hgo => hend.elim hgo.1 (· hgo.2)
  simp only [prepareLoop, h.use, ok_bind, hgo, if_false]

theorem At.prepareLoop_round (h : t.At p status) (fuel : ℕ) (hgo : status ≠ .handshaked) :
    prepareLoop p (fuel + 1) duerOk t =
      t.doPrepare >>= fun r => prepareLoop p fuel r.1 r.2 := by
  simp only [prepareLoop, h.use, ok_bind, hgo, ne_eq, not_false_eq_true, and_self, if_true]

theorem At.doPrepare (h : t.At p status) :
    t.doPrepare =
      match status with
      | .disconnected => t.doConnect
      | .connected => t.handshake
      | .handshaked => .ok (duerOk, t) := by
  unfold Trans.doPrepare
  rw [h.getContext]
  simp only [h.use, ok_bind]
  cases status <;> rfl

theorem At.prepareLoop_connected (h : t.At p .connected) (fuel : ℕ) :
    ∃ t' status', prepareLoop p (fuel + 2) duerOk t = .ok (mbedtls2status t.sslHandshake.1, t') ∧
      t'.At p status' ∧ t'.contexts.length = t.contexts.length := by
  obtain ⟨t', status', hround, hat, hok, hlen⟩ := h.handshake
  refine ⟨t', status', ?_, hat, hlen⟩
  rw [h.prepareLoop_round (fuel + 1) (by decide), h.doPrepare]
  simp only [hround, ok_bind]
  by_cases hr : mbedtls2status t.sslHandshake.1 = duerOk
  · exact hat.prepareLoop_end fuel (.inl (hok hr))
  · exact hat.prepareLoop_end fuel (.inr hr)

/-- What preparing a transport returns that is not connected. -/
def prepared (t : Trans) : Int :=
  if t.wrapperConnect.1 = duerOk then mbedtls2status t.sslHandshake.1 else t.wrapperConnect.1

theorem At.prepareLoop_disconnected (h : t.At p .disconnected) (fuel : ℕ) :
    ∃ t' status', prepareLoop p (fuel + 3) duerOk t = .ok (t.prepared, t') ∧
      t'.At p status' ∧ t'.contexts.length = t.contexts.length := by
  obtain ⟨t₁, hround, hat, hans, hlen⟩ := h.doConnect
  rw [h.prepareLoop_round (fuel + 2) (by decide), h.doPrepare]
  simp only [hround, ok_bind, prepared]
  by_cases hr : t.wrapperConnect.1 = duerOk
  · rw [if_pos hr] at hat
    obtain ⟨t', status', hloop, hat', hlen'⟩ := hat.prepareLoop_connected fuel
    have hnext : t₁.sslHandshake.1 = t.sslHandshake.1 := by
      simp [sslHandshake, hans, wrapperConnect]
    rw [hr, if_pos rfl, hloop, hnext]
    exact ⟨t', status', rfl, hat', hlen'.trans hlen⟩
  · rw [if_neg hr] at hat ⊢
    exact ⟨t₁, .disconnected, hat.prepareLoop_end (fuel + 1) (.inr hr), hat, hlen⟩

/-- **Preparing a transport that has a context** ends, and keeps the context. How far the
    preparation gets is up to the answers; no outcome of it frees anything. -/
theorem At.prepare (h : t.At p status) :
    ∃ rs t' status', t.prepare = .ok (rs, t') ∧ t'.At p status' ∧
      t'.contexts.length = t.contexts.length ∧ (status = .disconnected → rs = t.prepared) := by
  unfold Trans.prepare
  rw [h.getContext]
  cases status with
  | disconnected =>
    obtain ⟨t', status', hloop, hat, hlen⟩ := h.prepareLoop_disconnected 0
    exact ⟨_, t', status', hloop, hat, hlen, fun _ => rfl⟩
  | connected =>
    obtain ⟨t', status', hloop, hat, hlen⟩ := h.prepareLoop_connected 1
    exact ⟨_, t', status', hloop, hat, hlen, fun heq => absurd heq (by decide)⟩
  | handshaked =>
    exact ⟨_, t, _, h.prepareLoop_end 2 (.inl rfl), h, rfl, fun heq => absurd heq (by decide)⟩

theorem At.connect (h : t.At p status) :
    ∃ rs t' status', t.connect = .ok (rs, t') ∧ t'.At p status' ∧
      t'.contexts.length = t.contexts.length := by
  obtain ⟨rs, t', status', hprep, hat, hlen, -⟩ := h.prepare
  unfold Trans.connect
  rw [h.getContext]
  by_cases hst : status = .disconnected
  · obtain ⟨t₁, hdo, hat₁, -, hlen₁⟩ := h.doConnect
    by_cases hr : t.wrapperConnect.1 < duerOk
    · refine ⟨t.wrapperConnect.1, t₁, _, ?_, hat₁, hlen₁⟩
      simp only [h.use, hst, hdo, ok_bind, hr, if_true]
    · obtain ⟨rs, t', status', hprep, hat, hlen, -⟩ := hat₁.prepare
      refine ⟨rs, t', status', ?_, hat, hlen.trans hlen₁⟩
      simp only [h.use, hst, hdo, ok_bind, hr, if_true, if_false, hprep]
  · refine ⟨rs, t', status', ?_, hat, hlen⟩
    simp only [h.use, hst, ok_bind, if_false, hprep]

theorem At.transfer (h : t.At p status) :
    ∃ rs t' status', t.transfer = .ok (rs, t') ∧ t'.At p status' ∧
      t'.contexts.length = t.contexts.length := by
  obtain ⟨rs, t', status', hprep, hat, hlen, -⟩ := h.prepare
  unfold Trans.transfer
  by_cases hr : rs < duerOk
  · refine ⟨rs, t', status', ?_, hat, hlen⟩
    simp only [hprep, ok_bind, hr, if_true]
  · refine ⟨mbedtls2status t'.answers.transfer, t', status', ?_, hat, hlen⟩
    simp only [hprep, ok_bind, hr, if_false, h.1, hat.use]

theorem At.close (h : t.At p status) :
    t.close = .ok (duerOk, { t with contexts := t.contexts.set p none }) := by
  unfold Trans.close
  simp only [h.1, h.use, ok_bind, Trans.free, h.2]

/-- Once the context is closed, the transport points to what was freed. -/
theorem At.dangling (h : t.At p status) :
    Dangling { t with contexts := t.contexts.set p none } := by
  obtain ⟨hlt, -⟩ := List.getElem?_eq_some_iff.mp h.2
  exact ⟨p, h.1, by simp [hlt]⟩

theorem At.not_dangling (h : t.At p status) : ¬t.Dangling := by
  rintro ⟨q, hq, hfreed⟩
  obtain rfl : p = q := by simpa [h.1] using hq
  simp [h.2] at hfreed

/-- **Every call on a context that was freed is a fault.** Nothing clears the pointer, and a context
    is built only where there is none, so a transport never gets out of this state. -/
theorem Dangling.handle (h : t.Dangling) (op : Op) : t.handle op = .error .freed := by
  obtain ⟨p, hp, hfreed⟩ := h
  have hget : t.getContext = (some p, t) := by simp [Trans.getContext, Option.mem_def.mp hp]
  have huse : t.use (some p) = .error .freed := by simp [Trans.use, hfreed]
  have hprep : t.prepare = .error .freed := by
    simp only [Trans.prepare, hget, prepareLoop, huse, error_bind]
  cases op with
  | connect => simp only [Trans.handle, Trans.connect, hget, huse, error_bind]
  | send | recv =>
    simp only [Trans.handle, Trans.send, Trans.recv, Trans.transfer, hprep, error_bind]
  | close | release =>
    simp only [Trans.handle, Trans.close, Option.mem_def.mp hp, huse, error_bind]

/-! ## A transport without a context -/

theorem getContext_none_of_not_ready (h : t.secure = none) (hnot : t.answers.creation ≠ .ready) :
    ∃ t', t.getContext = (none, t') ∧ t'.secure = none ∧
      t.contexts.length ≤ t'.contexts.length := by
  unfold Trans.getContext
  rw [h]
  cases hc : t.answers.creation with
  | noMemory => exact ⟨t, rfl, h, Nat.le_refl _⟩
  | setupFails => exact ⟨_, rfl, rfl, by simp⟩
  | ready => exact absurd hc hnot

def withContext (t : Trans) : Trans :=
  { t with
    secure := some t.contexts.length
    contexts := t.contexts ++ [some .disconnected] }

theorem withContext_at (t : Trans) : t.withContext.At t.contexts.length .disconnected :=
  ⟨rfl, by simp [withContext]⟩

theorem getContext_of_ready (h : t.secure = none) (hready : t.answers.creation = .ready) :
    t.getContext = (some t.contexts.length, t.withContext) := by
  simp [Trans.getContext, h, hready, withContext]

theorem prepare_of_ready (h : t.secure = none) (hready : t.answers.creation = .ready) :
    t.prepare = t.withContext.prepare := by
  unfold Trans.prepare
  rw [getContext_of_ready h hready, t.withContext_at.getContext]

theorem connect_of_ready (h : t.secure = none) (hready : t.answers.creation = .ready) :
    t.connect = t.withContext.connect := by
  unfold Trans.connect
  rw [getContext_of_ready h hready, t.withContext_at.getContext]

/-- What a call leaves of the transport it finds: the context, or without one at most a new one. -/
structure Kept (t t' : Trans) : Prop where
  length_le : t.contexts.length ≤ t'.contexts.length
  same : ∀ {p status}, t.At p status → ∃ status', t'.At p status'
  built : t.secure = none → (t'.secure = none ∧ t.answers.creation ≠ .ready) ∨
    ∃ status, t'.At t.contexts.length status

theorem Kept.of_at {t' : Trans} {status' : Status} (h : t.At p status) (h' : t'.At p status')
    (hlen : t'.contexts.length = t.contexts.length) : t.Kept t' where
  length_le := Nat.le_of_eq hlen.symm
  same := by
    intro q _ hq
    obtain rfl : p = q := by simpa [h.1] using hq.1
    exact ⟨status', h'⟩
  built := fun hnone => absurd h.1 (by simp [hnone])

theorem Kept.of_none {t' : Trans} (h : t.secure = none) (h' : t'.secure = none)
    (hnot : t.answers.creation ≠ .ready) (hle : t.contexts.length ≤ t'.contexts.length) :
    t.Kept t' where
  length_le := hle
  same := fun hat => absurd hat.1 (by simp [h])
  built := fun _ => .inl ⟨h', hnot⟩

theorem Kept.of_withContext {t' : Trans} (h : t.secure = none)
    (hat : t'.At t.contexts.length status)
    (hlen : t'.contexts.length = t.withContext.contexts.length) : t.Kept t' where
  length_le := by rw [hlen]; simp [withContext]
  same := fun hat => absurd hat.1 (by simp [h])
  built := fun _ => .inr ⟨status, hat⟩

def Usable (t : Trans) : Prop := t.secure = none ∨ ∃ p status, t.At p status

theorem Kept.usable {t' : Trans} (hkept : t.Kept t') (h : t.Usable) : t'.Usable := by
  rcases h with hnone | ⟨p, status, hat⟩
  · rcases hkept.built hnone with ⟨hnone', -⟩ | ⟨status', hat'⟩
    · exact .inl hnone'
    · exact .inr ⟨_, _, hat'⟩
  · obtain ⟨status', hat'⟩ := hkept.same hat
    exact .inr ⟨_, _, hat'⟩

/-- **Connecting** never is a fault on a usable transport. Where there is no context it builds one,
    and if that fails it leaves none. -/
theorem Usable.connect (h : t.Usable) : ∃ rs t', t.connect = .ok (rs, t') ∧ t.Kept t' := by
  rcases h with hnone | ⟨p, status, hat⟩
  · by_cases hready : t.answers.creation = .ready
    · rw [connect_of_ready hnone hready]
      obtain ⟨rs, t', status', hok, hat', hlen⟩ := t.withContext_at.connect
      exact ⟨rs, t', hok, .of_withContext hnone hat' hlen⟩
    · obtain ⟨t', hget, hnone', hle⟩ := getContext_none_of_not_ready hnone hready
      refine ⟨duerErrFailed, t', ?_, .of_none hnone hnone' hready hle⟩
      simp only [Trans.connect, hget]
  · obtain ⟨rs, t', status', hok, hat', hlen⟩ := hat.connect
    exact ⟨rs, t', hok, .of_at hat hat' hlen⟩

theorem prepared_neg_iff (t : Trans) :
    t.prepared < duerOk ↔ t.answers.connects.headD duerErrFailed < 0 ∨
      (t.answers.connects.headD duerErrFailed = 0 ∧
        t.answers.handshakes.headD duerErrFailed < 0) := by
  have hstatus := mbedtls2status_neg_iff t.sslHandshake.1
  simp only [prepared, wrapperConnect, sslHandshake, duerOk] at hstatus ⊢
  split_ifs with hr
  · omega
  · omega

theorem prepare_of_none (h : t.secure = none) :
    ∃ rs t', t.prepare = .ok (rs, t') ∧ t.Kept t' ∧ (rs < duerOk ↔ t.answers.PrepareFails) := by
  by_cases hready : t.answers.creation = .ready
  · rw [prepare_of_ready h hready]
    obtain ⟨rs, t', status', hok, hat', hlen, hrs⟩ := t.withContext_at.prepare
    refine ⟨rs, t', hok, .of_withContext h hat' hlen, ?_⟩
    rw [hrs rfl, prepared_neg_iff]
    simp [Answers.PrepareFails, hready, withContext]
  · obtain ⟨t', hget, hnone', hle⟩ := getContext_none_of_not_ready h hready
    refine ⟨duerErrFailed, t', ?_, .of_none h hnone' hready hle, ?_⟩
    · simp only [Trans.prepare, hget]
    · simp [Answers.PrepareFails, hready, duerErrFailed, duerOk]

theorem Usable.transfer (h : t.Usable) (hfails : t.secure = none → t.answers.PrepareFails) :
    ∃ rs t', t.transfer = .ok (rs, t') ∧ t.Kept t' := by
  rcases h with hnone | ⟨p, status, hat⟩
  · obtain ⟨rs, t', hprep, hkept, hiff⟩ := prepare_of_none hnone
    refine ⟨rs, t', ?_, hkept⟩
    simp only [Trans.transfer, hprep, ok_bind, hiff.mpr (hfails hnone), if_true]
  · obtain ⟨rs, t', status', hok, hat', hlen⟩ := hat.transfer
    exact ⟨rs, t', hok, .of_at hat hat' hlen⟩

/-- Where the context is built in between, the pointer that was read before is used. -/
theorem transfer_fault (h : t.secure = none) (hnot : ¬t.answers.PrepareFails) :
    t.transfer = .error .notCreated := by
  obtain ⟨rs, t', hprep, -, hiff⟩ := prepare_of_none h
  simp only [Trans.transfer, hprep, ok_bind, mt hiff.mp hnot, if_false, h, Trans.use,
    Option.bind_none, error_bind]

structure Shut (t t' : Trans) : Prop where
  length_eq : t'.contexts.length = t.contexts.length
  context : t'.secure = none ∨ t'.Dangling

theorem Usable.close (h : t.Usable) : ∃ rs t', t.close = .ok (rs, t') ∧ t.Shut t' := by
  rcases h with hnone | ⟨p, status, hat⟩
  · refine ⟨duerOk, t, ?_, rfl, .inl hnone⟩
    simp only [Trans.close, hnone]
  · exact ⟨duerOk, _, hat.close, by simp, .inr hat.dangling⟩

/-- What a call leaves of a transport that it finds usable. -/
@[simp] def Leaves (t t' : Trans) : Op → Prop
  | .connect | .send | .recv => t.Kept t'
  | .close | .release => t.Shut t'

/-- **Every call on a usable transport comes back**, if what it sends or receives first on one
    without a context fails. -/
theorem Usable.handle (h : t.Usable) {op : Op}
    (hfails : op = .send ∨ op = .recv → t.secure = none → t.answers.PrepareFails) :
    ∃ rs t', t.handle op = .ok (rs, t') ∧ t.Leaves t' op := by
  cases op with
  | connect => exact h.connect
  | send => exact h.transfer (hfails (.inl rfl))
  | recv => exact h.transfer (hfails (.inr rfl))
  | close => exact h.close
  | release => exact h.close

/-- The context of the transport, if there is one, is not among the first `n`. -/
def Since (t : Trans) (n : Nat) : Prop :=
  n ≤ t.contexts.length ∧ ∀ p status, t.At p status → n ≤ p

variable {t' : Trans} {n : Nat}

theorem Since.kept (h : t.Since n) (hkept : t.Kept t') (huse : t.Usable) : t'.Since n := by
  obtain ⟨hle, hlater⟩ := h
  refine ⟨Nat.le_trans hle hkept.length_le, ?_⟩
  intro p status hat
  rcases huse with hnone | ⟨q, status₀, hq⟩
  · rcases hkept.built hnone with ⟨hnone', -⟩ | ⟨status', hat'⟩
    · exact absurd hat.1 (by simp [hnone'])
    · obtain rfl : t.contexts.length = p := by simpa [hat'.1] using hat.1
      exact hle
  · obtain ⟨status', hat'⟩ := hkept.same hq
    obtain rfl : q = p := by simpa [hat'.1] using hat.1
    exact hlater q status₀ hq

/-- A call that keeps the transport, and could build a context, leaves it with one. -/
theorem Since.fresh (h : t.Since n) (hkept : t.Kept t') (huse : t.Usable)
    (hready : t.answers.creation = .ready) : t'.Fresh n := by
  obtain ⟨p, status, hat⟩ : ∃ p status, t'.At p status := by
    rcases huse with hnone | ⟨p, status, hat⟩
    · rcases hkept.built hnone with ⟨-, hnot⟩ | ⟨status', hat'⟩
      · exact absurd hready hnot
      · exact ⟨_, _, hat'⟩
    · obtain ⟨status', hat'⟩ := hkept.same hat
      exact ⟨_, _, hat'⟩
  exact ⟨p, hat.1, (h.kept hkept huse).2 p status hat⟩

theorem Shut.since (h : t.Shut t') (hle : n ≤ t'.contexts.length) : t'.Since n := by
  refine ⟨hle, ?_⟩
  intro p status hat
  rcases h.context with hnone | hdangling
  · exact absurd hat.1 (by simp [hnone])
  · exact absurd hdangling hat.not_dangling

end Trans

/-! ## Every run -/

namespace Life

variable {l l' : Life} {c : Call}

theorem step_cases (h : l.step c = some l') :
    l.fault = none ∧
      ((∃ fault, (l.called c).handle c.op = .error fault ∧ l' = { l with fault := some fault }) ∨
        ∃ rs t, (l.called c).handle c.op = .ok (rs, t) ∧ l' = l.after c t) := by
  unfold step at h
  split_ifs at h with hover
  obtain ⟨-, hfault⟩ := not_or.mp hover
  refine ⟨not_not.mp hfault, ?_⟩
  cases hrun : (l.called c).handle c.op with
  | error fault =>
    rw [hrun] at h
    exact .inl ⟨fault, rfl, (Option.some.inj h).symm⟩
  | ok r =>
    rw [hrun] at h
    exact .inr ⟨r.1, r.2, rfl, (Option.some.inj h).symm⟩

structure Good (l : Life) : Prop where
  fault : l.fault = none
  stale : l.stale = false
  context : l.trans.Usable ∨ l.trans.Dangling
  renewed : ∀ n ∈ l.closedAt, l.trans.Since n

theorem good_acquired : acquired.Good where
  fault := rfl
  stale := rfl
  context := .inl (.inl rfl)
  renewed := by
    intro n hn
    exact absurd hn (by simp [acquired])

/-- **A guarded call comes back** and keeps the transport: no fault has happened, and what has been
    freed is used by nobody. -/
theorem Good.step_guarded (h : l.Good) (hguard : l.Guard c) (hstep : l.step c = some l') :
    l'.Good := by
  have huse : (l.called c).Usable := h.context.resolve_right hguard.1
  have hsince : ∀ n ∈ l.closedAt, (l.called c).Since n := h.renewed
  obtain ⟨rs, t, hok, hleaves⟩ := huse.handle hguard.2
  obtain ⟨-, ⟨fault, hrun, -⟩ | ⟨rs', t', hrun, rfl⟩⟩ := step_cases hstep
  · exact absurd (hrun.symm.trans hok) (by simp)
  obtain ⟨-, rfl⟩ : rs' = rs ∧ t' = t := by simpa using hrun.symm.trans hok
  unfold after
  cases hop : c.op with
  | connect =>
    have hkept : (l.called c).Kept t' := by simpa [hop] using hleaves
    have hstale : ¬(c.answers.creation = .ready ∧ ∃ n ∈ l.closedAt, ¬t'.Fresh n) := by
      rintro ⟨hready, n, hn, hnot⟩
      exact hnot ((hsince n hn).fresh hkept huse hready)
    refine ⟨h.fault, ?_, .inl (hkept.usable huse), fun n hn => (hsince n hn).kept hkept huse⟩
    simpa [h.stale] using hstale
  | send | recv =>
    have hkept : (l.called c).Kept t' := by simpa [hop] using hleaves
    exact ⟨h.fault, h.stale, .inl (hkept.usable huse), fun n hn => (hsince n hn).kept hkept huse⟩
  | close =>
    have hshut : (l.called c).Shut t' := by simpa [hop] using hleaves
    refine ⟨h.fault, h.stale, hshut.context.imp_left .inl, ?_⟩
    rintro _ ⟨⟩
    exact hshut.since (Nat.le_refl _)
  | release =>
    have hshut : (l.called c).Shut t' := by simpa [hop] using hleaves
    refine ⟨h.fault, h.stale, hshut.context.imp_left .inl, ?_⟩
    intro n hn
    exact hshut.since (Nat.le_trans (hsince n hn).1 (Nat.le_of_eq hshut.length_eq.symm))

/-- **Any other call is a fault.** The two ways to it are both caught on the spot, so a run is safe
    exactly if each of its calls is guarded when it is made. -/
theorem step_unguarded (hguard : ¬l.Guard c) (hstep : l.step c = some l') :
    l'.fault ≠ none := by
  have hfault : ∃ fault, (l.called c).handle c.op = .error fault := by
    by_cases hdangling : (l.called c).Dangling
    · exact ⟨_, hdangling.handle c.op⟩
    · obtain ⟨hop, hnone, hnot⟩ : (c.op = .send ∨ c.op = .recv) ∧ l.trans.secure = none ∧
          ¬c.answers.PrepareFails := by
        by_contra hcontra
        refine hguard ⟨hdangling, fun hop hnone => ?_⟩
        by_contra hnot
        exact hcontra ⟨hop, hnone, hnot⟩
      have htransfer : (l.called c).transfer = .error .notCreated :=
        Trans.transfer_fault hnone hnot
      refine ⟨.notCreated, ?_⟩
      rcases hop with hop | hop
      · rw [hop]
        exact htransfer
      · rw [hop]
        exact htransfer
  obtain ⟨fault, hrun⟩ := hfault
  obtain ⟨-, ⟨fault', -, rfl⟩ | ⟨rs, t, hok, -⟩⟩ := step_cases hstep
  · simp
  · exact absurd (hrun.symm.trans hok) (by simp)

/-- **The life of a TLS transport.** In a run of any calls, with any answers, no context that is
    freed or was never created is used and none is freed twice, and connecting after a close builds
    a new one, if and only if no call follows the close of a context, and nothing that is sent or
    received gets through the preparation of a transport that had none. -/
theorem safe_iff (calls : List Call) {l : Life}
    (h : runFrom step acquired calls = some l) :
    l.Safe ↔ admits step Guard acquired calls := by
  rcases runFrom_admits_or_bad Good (fun l => l.fault ≠ none) Good.step_guarded
    (fun _ => step_unguarded) (fun hbad hstep => absurd (step_cases hstep).1 hbad) good_acquired h
    with ⟨hgood, hadm⟩ | ⟨hbad, hnot⟩
  · exact iff_of_true ⟨hgood.fault, hgood.stale⟩ hadm
  · exact iff_of_false (fun hsafe => hbad hsafe.1) hnot

theorem safe_connected :
    ∃ l, runFrom step acquired
        [⟨.connect, .fine⟩, ⟨.send, .fine⟩, ⟨.recv, .fine⟩, ⟨.release, .fine⟩] = some l ∧
      l.Safe := by
  let calls : List Call :=
    [⟨.connect, .fine⟩, ⟨.send, .fine⟩, ⟨.recv, .fine⟩, ⟨.release, .fine⟩]
  obtain ⟨l, hl⟩ : ∃ l, runFrom step acquired calls = some l :=
    Option.isSome_iff_exists.mp (by decide)
  refine ⟨l, hl, (safe_iff calls hl).mpr ?_⟩
  decide

/-- **Two runs that are not safe**: connecting again after a close, and sending before
    connecting. -/
theorem unsafe_runs :
    (∃ l, runFrom step acquired
        [⟨.connect, .fine⟩, ⟨.close, .fine⟩, ⟨.connect, .fine⟩] = some l ∧
      l.fault = some .freed) ∧
    (∃ l, runFrom step acquired [⟨.send, .fine⟩] = some l ∧ l.fault = some .notCreated) := by
  constructor
  · exact ⟨_, rfl, by decide⟩
  · exact ⟨_, rfl, by decide⟩

end Life

end Tls
end Net
end LightDuer
