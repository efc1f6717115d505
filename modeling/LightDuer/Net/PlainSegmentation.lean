import LightDuer.Net.Coap

/-!
# Receiving over a plain TCP transport

Without encryption `duer_trans_recv` is the socket itself, and `duer_coap_recv` keeps nothing
between its calls: a header that does not arrive in one piece, or a body that does not follow it at
once and whole, is lost together with its place in the stream. `wholeReads` is the condition on the
segmentation under which this does not happen, and it is exact.

## The condition

`wholeReads` goes through the results of the receive calls alongside the frames that are still to
come. A result that gives nothing where a header is expected is passed over; one that gives anything
must grant the eight octets of the header, and the next one the whole body. It looks at what the
socket grants and at the lengths of the frames, and not at anything that the receiver computes. It
is a function with values in `Bool`, so that a given segmentation can be judged by evaluating it.

## Why it is exact

That whole reads lose nothing is an induction over the calls: between any two the receiver stands at
a frame. The other direction cannot follow the receiver, since once it has lost its place it may
take anything for a header. Instead octets are counted. A call that hands something over has spent
eight octets for a header and the octets it hands over, whatever these are
(`duerCoapDataAvailable_plain_budget`); so a run that takes the whole stream and hands over all
payloads has spent every octet on a frame, and the first read that was not whole would have left one
too few.
-/

set_option autoImplicit false

namespace LightDuer
namespace Net

open Lib

/-- `s_duer_trans_callbacks[DUER_TRANS_NORMAL]`: the wrapper's own receive function. -/
def plainTransport : Transport Source where
  recv := duerTransWrapperRecv

/-- A message that fits the receive buffer. -/
structure PlainFrame where
  payload : List UInt8
  payload_pos : 1 ≤ payload.length
  payload_le : payload.length ≤ 2048

namespace PlainFrame

/-- The frame on the wire: magic number, length, payload. -/
def wire (f : PlainFrame) : List UInt8 :=
  be32 duerCoapTcpHdr ++ be32 f.payload.length ++ f.payload

def wires (fs : List PlainFrame) : List UInt8 := fs.flatMap wire

@[simp] theorem wire_length (f : PlainFrame) : f.wire.length = 8 + f.payload.length := by
  simp [wire]
  omega

theorem wires_length (fs : List PlainFrame) :
    (wires fs).length = (fs.map (fun f => f.wire.length)).sum := by
  simp [wires]

theorem wires_cons_length (f : PlainFrame) (fs : List PlainFrame) :
    (wires (f :: fs)).length = 8 + f.payload.length + (wires fs).length := by
  rw [wires, List.flatMap_cons, List.length_append, wire_length, ← wires]

end PlainFrame

open PlainFrame

/-- The segmentations the receiver survives, for the frames still to come, the results of the
    receive calls and the number of calls of `duer_coap_recv`: whenever a header call gives
    anything it gives all eight octets, and the body call right after it the whole body. -/
def wholeReads : List PlainFrame → List (Except RecvError Nat) → Nat → Bool
  | _, _, 0 => true
  | [], _, _ + 1 => true
  | _ :: _, [], _ + 1 => true
  | f :: fs, r :: rs, n + 1 =>
      if Source.idle r then wholeReads (f :: fs) rs n
      else decide (8 ≤ Source.granted r) &&
        decide (f.payload.length ≤ (rs.head?.map Source.granted).getD 0) &&
        wholeReads fs rs.tail n

/-! ## One call -/

section Call

variable (coap : DuerCoap Source) (stack : Buffer duerBufferSize)

/-- The wrapper's call when its result grants octets. -/
theorem duerTransWrapperRecv_grant {cap k need : Nat} {sock : Source}
    {rest : List (Except RecvError Nat)} (data : Buffer cap) (hneed : need ≤ cap)
    (hr : sock.results = .ok k :: rest) (hn : min k (min need sock.stream.length) ≠ 0) :
    ∃ data' : Buffer cap,
      data'.bytes.take (min k (min need sock.stream.length)) =
        sock.stream.take (min k (min need sock.stream.length)) ∧
      duerTransWrapperRecv sock data need =
        some (((min k (min need sock.stream.length) : Nat) : Int), data',
          { stream := sock.stream.drop (min k (min need sock.stream.length))
            results := rest }) := by
  have hlen : (sock.stream.take (min k (min need sock.stream.length))).length =
      min k (min need sock.stream.length) := by simp
  obtain ⟨data', hst, htake⟩ := data.store_zero
    (show (sock.stream.take (min k (min need sock.stream.length))).length ≤ cap by omega)
  rw [hlen] at htake
  refine ⟨data', htake, ?_⟩
  simp only [duerTransWrapperRecv, Source.recv_grant hr hn, hst, Option.bind_eq_bind,
    Option.bind_some, hlen]

/-- The message half never fails either, and spends what it hands over. -/
theorem duerCoapRecvMessage_plain_budget {size : Nat} (hsize : size ≤ duerBufferSize) :
    ∃ rs handed sock, duerCoapRecvMessage plainTransport coap stack size =
        some (rs, handed, { coap with trans := sock }) ∧
      (handed.map List.length).getD 0 + sock.stream.length ≤ coap.trans.stream.length := by
  rcases duerTransWrapperRecv_cases coap.trans stack size hsize with
    ⟨rs, hrs, hs, hrecv⟩ | ⟨got, data', hne, hle, hs, htake, hrecv⟩
  · exact ⟨rs, none, _, duerCoapRecvMessage_none hrecv hrs, by simp [hs]⟩
  · refine ⟨_, some got, _, duerCoapRecvMessage_some hrecv hne (by omega) htake, ?_⟩
    rw [hs, List.length_append]
    simp

/-- **No call fails**, and a call that hands something over has spent the eight octets of a
    header and the octets it hands over. -/
theorem duerCoapDataAvailable_plain_budget (hr : coap.remote = .tcp) :
    ∃ rs handed sock, duerCoapDataAvailable plainTransport coap stack =
        some (rs, handed, { coap with trans := sock }) ∧
      (handed.map (8 + List.length ·)).getD 0 + sock.stream.length ≤
        coap.trans.stream.length := by
  rcases duerTransWrapperRecv_cases coap.trans (Buffer.fill 8 0) 8 (Nat.le_refl 8) with
    ⟨rs, hrs, hs, hrecv⟩ | ⟨got, value, hne, hle, hs, htake, hrecv⟩
  · exact ⟨rs, none, _, duerCoapRecv_reject hr hrecv (.inl (by omega)), by simp [hs]⟩
  · have hlen := congrArg List.length hs
    rw [List.length_append] at hlen
    by_cases hrej : (got.length : Int) ≠ 8 ∨ ofBe32 value.bytes ≠ duerCoapTcpHdr ∨
        duerBufferSize < ofBe32 (value.bytes.drop 4)
    · refine ⟨_, none, _, duerCoapRecv_reject hr hrecv hrej, ?_⟩
      simp only [Option.map_none, Option.getD_none]
      omega
    · have hacc : duerCoapDataAvailable plainTransport coap stack = _ :=
        duerCoapRecv_accept hr hrecv hrej
      rw [not_or, not_or, Decidable.not_not, Decidable.not_not] at hrej
      obtain ⟨rs, handed, sock, hmsg, hbudget⟩ := duerCoapRecvMessage_plain_budget
        { coap with trans := (coap.trans.recv 8).2 } stack (Nat.le_of_not_lt hrej.2.2)
      refine ⟨rs, handed, sock, hacc.trans hmsg, ?_⟩
      cases handed with
      | none => simp at hbudget ⊢; omega
      | some m => simp at hbudget ⊢; omega

/-- A call whose header read gives nothing changes nothing. -/
theorem duerCoapDataAvailable_plain_idle (hr : coap.remote = .tcp)
    (hidle : ∀ r ∈ coap.trans.results.head?, Source.idle r = true) :
    ∃ st, duerCoapDataAvailable plainTransport coap stack = some (st, none,
      { coap with trans := { coap.trans with results := coap.trans.results.tail } }) := by
  obtain ⟨e, he⟩ := Source.recv_idle hidle 8
  have hrecv : plainTransport.recv coap.trans (Buffer.fill 8 0) 8 = some (recvStatus e,
      Buffer.fill 8 0, { coap.trans with results := coap.trans.results.tail }) := by
    simp only [plainTransport, duerTransWrapperRecv, he]
  have hle := recvStatus_le e
  exact ⟨_, duerCoapRecv_reject hr hrecv (.inl (by omega))⟩

/-- A header cut short is lost: nothing is handed over, and octets of the stream are gone. -/
theorem duerCoapDataAvailable_plain_cutHeader (hr : coap.remote = .tcp) {k : Nat}
    {rs : List (Except RecvError Nat)} (hres : coap.trans.results = .ok k :: rs)
    (hk : 0 < k) (hk8 : k < 8) (hs : 0 < coap.trans.stream.length) :
    ∃ st sock, duerCoapDataAvailable plainTransport coap stack =
        some (st, none, { coap with trans := sock }) ∧
      sock.stream.length < coap.trans.stream.length := by
  obtain ⟨value, -, hrecv⟩ := duerTransWrapperRecv_grant (Buffer.fill 8 0) (Nat.le_refl 8) hres
    (show min k (min 8 coap.trans.stream.length) ≠ 0 by omega)
  refine ⟨_, _, duerCoapRecv_reject hr hrecv (.inl (by omega)), ?_⟩
  simp only [List.length_drop]
  omega

/-- At a frame, with a header read of all eight octets, the body read decides. -/
theorem duerCoapDataAvailable_plain_header (hr : coap.remote = .tcp) {k : Nat}
    {rs : List (Except RecvError Nat)} {f : PlainFrame} {tail : List UInt8}
    (hres : coap.trans.results = .ok k :: rs) (hk8 : 8 ≤ k)
    (hs : coap.trans.stream = f.wire ++ tail) :
    duerCoapDataAvailable plainTransport coap stack =
      duerCoapRecvMessage plainTransport
        { coap with trans := { stream := f.payload ++ tail, results := rs } } stack
        f.payload.length := by
  have hlen : coap.trans.stream.length = 8 + f.payload.length + tail.length := by
    rw [hs, List.length_append, wire_length]
  have hmin : min k (min 8 coap.trans.stream.length) = 8 := by omega
  obtain ⟨value, hvalue, hrecv⟩ :=
    duerTransWrapperRecv_grant (Buffer.fill 8 0) (Nat.le_refl 8) hres (by omega)
  have hsplit : coap.trans.stream =
      (be32 duerCoapTcpHdr ++ be32 f.payload.length) ++ (f.payload ++ tail) := by
    rw [hs, wire, List.append_assoc]
  have h8 : (be32 duerCoapTcpHdr ++ be32 f.payload.length).length = 8 := by simp
  rw [hmin, List.take_of_length_le (by simp), hsplit, List.take_left' h8] at hvalue
  rw [hmin, hsplit, List.drop_left' h8] at hrecv
  have hle := f.payload_le
  exact duerCoapRecv_header hr hrecv hvalue hle (by omega)

/-- The body read gives octets: as many of the payload as it gives are handed over. -/
theorem duerCoapRecvMessage_plain_grant {k : Nat} {rs : List (Except RecvError Nat)}
    {f : PlainFrame} {tail : List UInt8} (hres : coap.trans.results = .ok k :: rs) (hk : 0 < k)
    (hs : coap.trans.stream = f.payload ++ tail) :
    ∃ st, duerCoapRecvMessage plainTransport coap stack f.payload.length =
      some (st, some (f.payload.take k), { coap with
        trans := { stream := f.payload.drop k ++ tail, results := rs } }) := by
  have hpos := f.payload_pos
  have hlen : coap.trans.stream.length = f.payload.length + tail.length := by
    rw [hs, List.length_append]
  have hmin : min k (min f.payload.length coap.trans.stream.length) =
      (f.payload.take k).length := by
    rw [List.length_take]
    omega
  obtain ⟨data, hdata, hrecv⟩ := duerTransWrapperRecv_grant stack
    (show f.payload.length ≤ duerBufferSize from f.payload_le) hres (by omega)
  have hsplit : coap.trans.stream = f.payload.take k ++ (f.payload.drop k ++ tail) := by
    rw [← List.append_assoc, List.take_append_drop, hs]
  rw [hmin, hsplit, List.take_left' rfl] at hdata
  rw [hmin, hsplit, List.drop_left' rfl] at hrecv
  have hne : f.payload.take k ≠ [] := by
    rw [← List.length_pos_iff, List.length_take]
    omega
  refine ⟨_, duerCoapRecvMessage_some hrecv hne ?_ hdata⟩
  have hle := f.payload_le
  rw [List.length_take]
  unfold duerBufferSize
  omega

/-- The body read gives nothing: the header is lost. -/
theorem duerCoapRecvMessage_plain_idle (size : Nat)
    (hidle : ∀ r ∈ coap.trans.results.head?, Source.idle r = true) :
    ∃ st, duerCoapRecvMessage plainTransport coap stack size = some (st, none,
      { coap with trans := { coap.trans with results := coap.trans.results.tail } }) := by
  obtain ⟨e, he⟩ := Source.recv_idle hidle size
  have hrecv : plainTransport.recv coap.trans stack size = some (recvStatus e, stack,
      { coap.trans with results := coap.trans.results.tail }) := by
    simp only [plainTransport, duerTransWrapperRecv, he]
  exact ⟨_, duerCoapRecvMessage_none hrecv (recvStatus_le _)⟩

end Call

/-! ## Runs -/

/-- No run fails, and what it hands over has been paid for in octets of the stream. -/
theorem dataAvailableRun_plain_budget (calls : List (Buffer duerBufferSize)) :
    ∀ (coap : DuerCoap Source), coap.remote = .tcp →
      ∃ msgs coap', dataAvailableRun plainTransport coap calls = some (msgs, coap') ∧
        (msgs.map (8 + List.length ·)).sum + coap'.trans.stream.length ≤
          coap.trans.stream.length := by
  induction calls with
  | nil => exact fun coap _ => ⟨[], coap, rfl, by simp⟩
  | cons stack calls ih =>
    intro coap hr
    obtain ⟨rs, handed, sock, hcall, hbudget⟩ := duerCoapDataAvailable_plain_budget coap stack hr
    obtain ⟨msgs, coap', hrun, hrest⟩ := ih { coap with trans := sock } hr
    simp only at hrest
    refine ⟨_, coap', dataAvailableRun_cons hcall hrun, ?_⟩
    cases handed with
    | none =>
      simp only [Option.map_none, Option.getD_none] at hbudget
      simp only [Option.toList_none, List.nil_append]
      omega
    | some m =>
      simp only [Option.map_some, Option.getD_some] at hbudget
      simp only [Option.toList_some, List.cons_append, List.nil_append, List.map_cons,
        List.sum_cons]
      omega

@[simp] theorem wholeReads_nil (results : List (Except RecvError Nat)) (n : Nat) :
    wholeReads [] results n = true := by
  cases n <;> cases results <;> rfl

theorem wholeReads_idle {fs : List PlainFrame} {results : List (Except RecvError Nat)} {n : Nat}
    (h : ∀ r ∈ results.head?, Source.idle r = true) :
    wholeReads fs results (n + 1) = wholeReads fs results.tail n := by
  cases fs with
  | nil => simp
  | cons f fs =>
    cases results with
    | nil => cases n <;> rfl
    | cons r rs =>
      have hr : Source.idle r = true := h r rfl
      rw [wholeReads, if_pos hr, List.tail_cons]

theorem wholeReads_grant {f : PlainFrame} {fs : List PlainFrame} {k n : Nat}
    {rs : List (Except RecvError Nat)} (hk : 0 < k) :
    wholeReads (f :: fs) (.ok k :: rs) (n + 1) = true ↔
      8 ≤ k ∧ ∃ k' rs', rs = .ok k' :: rs' ∧ f.payload.length ≤ k' ∧
        wholeReads fs rs' n = true := by
  have hidle : ¬ Source.idle (.ok k) = true := by
    simp [Source.idle, Source.granted]
    omega
  have hpos := f.payload_pos
  rw [wholeReads, if_neg hidle, Bool.and_eq_true, Bool.and_eq_true, decide_eq_true_eq,
    decide_eq_true_eq, and_assoc, Source.granted]
  refine and_congr_right fun _ => ⟨?_, ?_⟩
  · rintro ⟨hlen, hwhole⟩
    cases rs with
    | nil => exact absurd (Nat.le_trans hpos hlen) (by decide)
    | cons r rs =>
      cases r with
      | error e => exact absurd (Nat.le_trans hpos hlen) (by simp [Source.granted])
      | ok k' => exact ⟨k', rs, rfl, hlen, hwhole⟩
  · rintro ⟨k', rs', rfl, hlen, hwhole⟩
    exact ⟨hlen, hwhole⟩

/-- **Whole reads lose nothing**: between any two calls the receiver stands at a frame. So a run of
    whole reads is a split of the frames, without any state of the receiver to be carried along. -/
theorem dataAvailableRun_plain_whole (calls : List (Buffer duerBufferSize)) :
    ∀ {frames : List PlainFrame} (coap : DuerCoap Source), coap.remote = .tcp →
      coap.trans.stream = wires frames →
      wholeReads frames coap.trans.results calls.length = true →
      ∃ done rest coap', dataAvailableRun plainTransport coap calls =
          some (done.map payload, coap') ∧ frames = done ++ rest ∧
        coap'.trans.stream = wires rest := by
  induction calls with
  | nil => exact fun {frames} coap _ hs _ => ⟨[], frames, coap, rfl, rfl, hs⟩
  | cons stack calls ih =>
    intro frames coap hr hs hwhole
    rw [List.length_cons] at hwhole
    by_cases hidle : ∀ r ∈ coap.trans.results.head?, Source.idle r = true
    · obtain ⟨st, hcall⟩ := duerCoapDataAvailable_plain_idle coap stack hr hidle
      rw [wholeReads_idle hidle] at hwhole
      obtain ⟨done, rest, coap', hrun, hsplit, hs'⟩ :=
        ih { coap with trans := { coap.trans with results := coap.trans.results.tail } } hr hs
          hwhole
      exact ⟨done, rest, coap', dataAvailableRun_cons hcall hrun, hsplit, hs'⟩
    · obtain ⟨k, rs, hres, hk⟩ := Source.exists_grant hidle
      cases frames with
      | nil =>
        -- the stream is empty, so the budget allows no message
        obtain ⟨st, handed, sock, hcall, hbudget⟩ :=
          duerCoapDataAvailable_plain_budget coap stack hr
        rw [hs] at hbudget
        cases handed with
        | some m => simp [wires] at hbudget
        | none =>
          have hnil : sock.stream = [] := by simpa [wires] using hbudget
          obtain ⟨done, rest, coap', hrun, hsplit, hs'⟩ :=
            @ih [] { coap with trans := sock } hr hnil (by simp)
          exact ⟨done, rest, coap', dataAvailableRun_cons hcall hrun, hsplit, hs'⟩
      | cons f fs =>
        rw [hres, wholeReads_grant hk] at hwhole
        obtain ⟨hk8, k', rs', rfl, hk', hwhole'⟩ := hwhole
        have hpos := f.payload_pos
        obtain ⟨st, hmsg⟩ := duerCoapRecvMessage_plain_grant
          { coap with trans := { stream := f.payload ++ wires fs, results := .ok k' :: rs' } }
          stack rfl (by omega) rfl
        have hcall := (duerCoapDataAvailable_plain_header coap stack hr hres hk8 hs).trans hmsg
        rw [List.take_of_length_le hk', List.drop_of_length_le hk', List.nil_append] at hcall
        obtain ⟨done, rest, coap', hrun, rfl, hs'⟩ :=
          ih { coap with trans := { stream := wires fs, results := rs' } } hr rfl hwhole'
        exact ⟨f :: done, rest, coap', dataAvailableRun_cons hcall hrun, rfl, hs'⟩

/-- **Anything else loses something**: a run that takes the whole stream and hands over every
    payload met whole reads only. Each octet lost would be missing in the end. -/
theorem wholeReads_of_run (calls : List (Buffer duerBufferSize)) :
    ∀ {frames : List PlainFrame} (coap : DuerCoap Source) {coap' : DuerCoap Source},
      coap.remote = .tcp → coap.trans.stream = wires frames →
      dataAvailableRun plainTransport coap calls = some (frames.map payload, coap') →
      wholeReads frames coap.trans.results calls.length = true := by
  induction calls with
  | nil => exact fun {frames} coap {coap'} _ _ _ => by simp [wholeReads]
  | cons stack calls ih =>
    intro frames coap coap' hr hs hrun
    rw [List.length_cons]
    -- whatever a call hands over, the rest of the run stays within its budget
    have hrest : ∀ {st : Int} {handed : Option (List UInt8)} {sock : Source},
        duerCoapDataAvailable plainTransport coap stack =
          some (st, handed, { coap with trans := sock }) →
        ∃ msgs, frames.map payload = handed.toList ++ msgs ∧
          dataAvailableRun plainTransport { coap with trans := sock } calls =
            some (msgs, coap') ∧ (msgs.map (8 + List.length ·)).sum ≤ sock.stream.length := by
      intro st handed sock hcall
      obtain ⟨msgs, coap₁, hrun₁, hbudget⟩ :=
        dataAvailableRun_plain_budget calls { coap with trans := sock } hr
      have heq := (dataAvailableRun_cons hcall hrun₁).symm.trans hrun
      simp only [Option.some.injEq, Prod.mk.injEq] at heq
      simp only at hbudget
      exact ⟨msgs, heq.1.symm, heq.2 ▸ hrun₁, by omega⟩
    by_cases hidle : ∀ r ∈ coap.trans.results.head?, Source.idle r = true
    · obtain ⟨st, hcall⟩ := duerCoapDataAvailable_plain_idle coap stack hr hidle
      obtain ⟨msgs, heq, hrun', -⟩ := hrest hcall
      rw [Option.toList_none, List.nil_append] at heq
      rw [wholeReads_idle hidle]
      exact ih { coap with trans := { coap.trans with results := coap.trans.results.tail } }
        hr hs (heq ▸ hrun')
    · obtain ⟨k, rs, hres, hk⟩ := Source.exists_grant hidle
      cases frames with
      | nil => simp
      | cons f fs =>
        have htotal : (((f :: fs).map payload).map (8 + List.length ·)).sum =
            coap.trans.stream.length := by
          rw [hs, wires_length, List.map_map]
          simp [Function.comp_def]
        have hpos := f.payload_pos
        rw [hres, wholeReads_grant hk]
        by_cases hk8 : 8 ≤ k
        · have hheader := duerCoapDataAvailable_plain_header coap stack hr hres hk8 hs
          by_cases hidle' : ∀ r ∈ rs.head?, Source.idle r = true
          · -- the body would block: its header is gone
            obtain ⟨st, hmsg⟩ := duerCoapRecvMessage_plain_idle
              { coap with trans := { stream := f.payload ++ wires fs, results := rs } } stack
              f.payload.length hidle'
            obtain ⟨msgs, heq, -, hle⟩ := hrest (hheader.trans hmsg)
            rw [Option.toList_none, List.nil_append] at heq
            rw [← heq, htotal, hs, wires_cons_length, List.length_append] at hle
            omega
          · obtain ⟨k', rs', rfl, hk'⟩ := Source.exists_grant hidle'
            obtain ⟨st, hmsg⟩ := duerCoapRecvMessage_plain_grant
              { coap with trans := { stream := f.payload ++ wires fs, results := .ok k' :: rs' } }
              stack rfl hk' rfl
            obtain ⟨msgs, heq, hrun', -⟩ := hrest (hheader.trans hmsg)
            simp only [List.map_cons, Option.toList_some, List.cons_append, List.nil_append,
              List.cons.injEq] at heq
            obtain ⟨htake, rfl⟩ := heq
            -- the message handed over is the payload only if all of it was read
            have hlen := congrArg List.length htake
            rw [List.length_take] at hlen
            have hle : f.payload.length ≤ k' := by omega
            rw [List.drop_of_length_le hle, List.nil_append] at hrun'
            exact ⟨hk8, k', rs', rfl, hle,
              ih { coap with trans := { stream := wires fs, results := rs' } } hr rfl hrun'⟩
        · -- part of the header is gone
          obtain ⟨st, sock, hcall, hlt⟩ := duerCoapDataAvailable_plain_cutHeader coap stack hr
            hres hk (by omega) (by rw [hs, wires_cons_length]; omega)
          obtain ⟨msgs, heq, -, hle⟩ := hrest hcall
          rw [Option.toList_none, List.nil_append] at heq
          rw [← heq] at hle
          omega

/-- **Receiving over a plain transport: exactly when segmentation does not matter.** No run
    accesses memory outside a buffer. While all reads are whole, what was handed over is what
    lies wholly inside the octets taken so far. And a run that takes the whole stream hands
    over exactly the payloads, in order, if and only if all its reads were whole. -/
theorem plain_recv_iff_wholeReads (frames : List PlainFrame)
    (results : List (Except RecvError Nat)) (nsdl : List UInt8 → Int)
    (calls : List (Buffer duerBufferSize)) :
    ∃ msgs coap', dataAvailableRun plainTransport
        { trans := ⟨wires frames, results⟩, remote := .tcp, nsdl } calls = some (msgs, coap') ∧
      (wholeReads frames results calls.length = true →
        msgs = (within (fun f => f.wire.length) frames
          ((wires frames).length - coap'.trans.stream.length)).map payload) ∧
      (coap'.trans.stream = [] →
        (msgs = frames.map payload ↔ wholeReads frames results calls.length = true)) := by
  obtain ⟨msgs, coap', hrun, -⟩ := dataAvailableRun_plain_budget calls
    { trans := ⟨wires frames, results⟩, remote := .tcp, nsdl } rfl
  have hwithin : wholeReads frames results calls.length = true →
      msgs = (within (fun f => f.wire.length) frames
        ((wires frames).length - coap'.trans.stream.length)).map payload := by
    intro hwhole
    obtain ⟨done, rest, coap₁, hrun₁, rfl, hs⟩ := dataAvailableRun_plain_whole calls
      { trans := ⟨wires frames, results⟩, remote := .tcp, nsdl } rfl rfl hwhole
    simp only [hrun, Option.some.injEq, Prod.mk.injEq] at hrun₁
    obtain ⟨rfl, rfl⟩ := hrun₁
    congr 1
    have htaken : (wires (done ++ rest)).length - coap'.trans.stream.length =
        (done.map (fun f => f.wire.length)).sum := by
      rw [hs, ← wires_length]
      simp only [wires, List.flatMap_append, List.length_append]
      omega
    rw [htaken]
    cases rest with
    | nil => rw [List.append_nil, within_all]
    | cons f fs =>
      exact (within_append (fun g : PlainFrame => g.wire.length)
        (show 0 < f.wire.length by rw [wire_length]; omega)).symm
  refine ⟨msgs, coap', hrun, hwithin, fun hnil => ⟨?_, fun hwhole => ?_⟩⟩
  · rintro rfl
    exact wholeReads_of_run calls { trans := ⟨wires frames, results⟩, remote := .tcp, nsdl }
      rfl rfl hrun
  · rw [hwithin hwhole, hnil, List.length_nil, Nat.sub_zero, wires_length, within_all]

/-! ### Two runs -/

/-- A payload of three octets. -/
def threeOctets : PlainFrame where
  payload := [0x60, 0x45, 0x01]
  payload_pos := by decide
  payload_le := by decide

/-- Two frames read whole, with a call in between that would block. -/
theorem plain_recv_iff_wholeReads_two :
    ∃ msgs coap', dataAvailableRun plainTransport
        { trans := ⟨wires [threeOctets, threeOctets],
            [.ok 8, .ok 3, .error .wouldBlock, .ok 8, .ok 3]⟩, remote := .tcp, nsdl := fun _ => 0 }
        (List.replicate 3 (Buffer.fill duerBufferSize 0)) = some (msgs, coap') ∧
      coap'.trans.stream = [] ∧ msgs = [[0x60, 0x45, 0x01], [0x60, 0x45, 0x01]] := by
  obtain ⟨msgs, coap', hrun, -, hiff⟩ := plain_recv_iff_wholeReads [threeOctets, threeOctets]
    [.ok 8, .ok 3, .error .wouldBlock, .ok 8, .ok 3] (fun _ => 0)
    (List.replicate 3 (Buffer.fill duerBufferSize 0))
  have hnil : coap'.trans.stream = [] := by
    have h : ∃ m c, dataAvailableRun plainTransport
        { trans := ⟨wires [threeOctets, threeOctets],
            [.ok 8, .ok 3, .error .wouldBlock, .ok 8, .ok 3]⟩, remote := .tcp, nsdl := fun _ => 0 }
        (List.replicate 3 (Buffer.fill duerBufferSize 0)) = some (m, c) ∧ c.trans.stream = [] :=
      ⟨_, _, rfl, rfl⟩
    obtain ⟨m, c, hmc, hc⟩ := h
    rw [hmc, Option.some.injEq, Prod.mk.injEq] at hrun
    rw [← hrun.2, hc]
  exact ⟨msgs, coap', hrun, hnil, (hiff hnil).mpr (by decide)⟩

/-- **A header cut after three octets**: the stream is taken whole and nothing handed over. The
    three octets are no header and are dropped with their call; what follows is taken from the
    middle of the frame. -/
theorem plain_recv_header_cut :
    ∃ coap', dataAvailableRun plainTransport
        { trans := ⟨wires [threeOctets], [.ok 3, .ok 8]⟩, remote := .tcp, nsdl := fun _ => 0 }
        (List.replicate 2 (Buffer.fill duerBufferSize 0)) = some ([], coap') ∧
      coap'.trans.stream = [] ∧ [threeOctets].map payload ≠ [] := by
  exact ⟨_, rfl, rfl, by decide⟩

end Net
end LightDuer
