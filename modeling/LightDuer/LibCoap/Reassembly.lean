import LightDuer.Lib.Transition
import LightDuer.LibCoap.Protocol

/-!
# Putting blocks together

The payloads of all peers wait in one list. The loop behind the last block of a peer copies the
first payload of that peer and removes the first of the list; these are the same as long as none of
another peer stands in front. What is copied then is what is kept of the peer, in the order in which
it arrived, and is as long as was counted.

What is kept is not all that the peer has sent. A block is dropped when it has been kept for more
than ten seconds (`CoapS.blockwiseRemoveOldData`, which `CoapS.protocolExec` calls), or when the
application has it removed (`CoapS.blockRemove`), and a block of a request is cut to the own size as
it is stored; the number in the option of a block is not looked at. So a payload can be put
together that was never sent. What is shown here is that of what is kept nothing is lost, doubled
or taken from another peer.
-/

set_option autoImplicit false

namespace LightDuer
namespace LibCoap

open Lib

/-- What is kept of a peer, one payload behind the other. -/
def wholePayload (src : SnNsdlAddr) (ps : List CoapBlockwisePayload) : List UInt8 :=
  (ps.filter (src.same ·.addr)).flatMap (·.payload)

/-- A payload of another peer stands in front of one of this. -/
def overtaken (src : SnNsdlAddr) (ps : List CoapBlockwisePayload) : Bool :=
  (ps.dropWhile (src.same ·.addr)).any (src.same ·.addr)

/-! ## The loop -/

section Copy

variable {src : SnNsdlAddr} {p : CoapBlockwisePayload} {ps : List CoapBlockwisePayload}

theorem wholePayload_cons_own (h : src.same p.addr = true) :
    wholePayload src (p :: ps) = p.payload ++ wholePayload src ps := by
  simp [wholePayload, h]

theorem wholePayload_cons_other (h : src.same p.addr = false) :
    wholePayload src (p :: ps) = wholePayload src ps := by
  simp [wholePayload, h]

theorem wholePayload_of_none (h : ∀ p ∈ ps, src.same p.addr = false) :
    wholePayload src ps = [] := by
  have hfilter : ps.filter (src.same ·.addr) = [] :=
    List.filter_eq_nil_iff.mpr fun p hp => by rw [h p hp]; exact Bool.false_ne_true
  rw [wholePayload, hfilter, List.flatMap_nil]

theorem length_wholePayload (src : SnNsdlAddr) (ps : List CoapBlockwisePayload) :
    (wholePayload src ps).length =
      ((ps.filter (src.same ·.addr)).map (·.payload.length)).sum := by
  rw [wholePayload, List.length_flatMap]

/-- There is nothing of this peer. -/
theorem copyPayloads_of_none (h : ∀ p ∈ ps, src.same p.addr = false) :
    CoapS.copyPayloads src ps = ([], ps) := by
  cases ps with
  | nil => rfl
  | cons p ps =>
    have hfind : (p :: ps).find? (src.same ·.addr) = none :=
      List.find?_eq_none.mpr fun q hq => by rw [h q hq]; exact Bool.false_ne_true
    rw [CoapS.copyPayloads, hfind]

theorem copyPayloads_cons_own (h : src.same p.addr = true) :
    CoapS.copyPayloads src (p :: ps) =
      (p.payload ++ (CoapS.copyPayloads src ps).1, (CoapS.copyPayloads src ps).2) := by
  have hfind : (p :: ps).find? (src.same ·.addr) = some p := List.find?_cons_of_pos h
  rw [CoapS.copyPayloads, hfind]

/-- Where none has been overtaken, what is copied is what is kept of the peer. -/
theorem copyPayloads_eq (h : overtaken src ps = false) :
    CoapS.copyPayloads src ps = (wholePayload src ps, ps.filter (!src.same ·.addr)) := by
  induction ps with
  | nil => rfl
  | cons p ps ih =>
    cases hp : src.same p.addr with
    | true =>
      have hrest : overtaken src ps = false := by simpa [overtaken, hp] using h
      rw [copyPayloads_cons_own hp, ih hrest, wholePayload_cons_own hp]
      simp [hp]
    | false =>
      have hnone : ∀ q ∈ p :: ps, src.same q.addr = false := by
        simpa [overtaken, hp] using h
      rw [copyPayloads_of_none hnone, wholePayload_of_none hnone]
      have hfilter : (p :: ps).filter (!src.same ·.addr) = p :: ps :=
        List.filter_eq_self.mpr fun q hq => by rw [hnone q hq]; rfl
      rw [hfilter]

/-- What is copied is not shorter than what is kept of the peer. -/
theorem le_length_copyPayloads (src : SnNsdlAddr) (ps : List CoapBlockwisePayload) :
    (wholePayload src ps).length ≤ (CoapS.copyPayloads src ps).1.length := by
  induction ps with
  | nil => exact Nat.le_refl 0
  | cons p ps ih =>
    cases hp : src.same p.addr with
    | true =>
      rw [wholePayload_cons_own hp, copyPayloads_cons_own hp, List.length_append,
        List.length_append]
      exact Nat.add_le_add_left ih _
    | false =>
      rw [wholePayload_cons_other hp, CoapS.copyPayloads]
      cases hfind : (p :: ps).find? (src.same ·.addr) with
      | none =>
        have hnone : ∀ q ∈ ps, src.same q.addr = false := fun q hq => by
          simpa using List.find?_eq_none.mp hfind q (List.mem_cons_of_mem p hq)
        rw [wholePayload_of_none hnone]
      | some found =>
        rw [List.length_append]
        exact ih.trans (Nat.le_add_left _ _)

/-- Where one has been overtaken, a payload is copied once more for each round in which one of
    another peer is removed. -/
theorem lt_length_copyPayloads (hne : ∀ p ∈ ps, p.payload ≠ []) (h : overtaken src ps = true) :
    (wholePayload src ps).length < (CoapS.copyPayloads src ps).1.length := by
  induction ps with
  | nil => exact absurd h Bool.false_ne_true
  | cons p ps ih =>
    cases hp : src.same p.addr with
    | true =>
      have hrest : overtaken src ps = true := by simpa [overtaken, hp] using h
      rw [wholePayload_cons_own hp, copyPayloads_cons_own hp, List.length_append,
        List.length_append]
      exact Nat.add_lt_add_left (ih (fun q hq => hne q (List.mem_cons_of_mem p hq)) hrest) _
    | false =>
      obtain ⟨q, hq, hown⟩ : ∃ q ∈ ps, src.same q.addr = true := by
        simpa [overtaken, hp] using h
      rw [wholePayload_cons_other hp, CoapS.copyPayloads]
      cases hfind : (p :: ps).find? (src.same ·.addr) with
      | none =>
        have := List.find?_eq_none.mp hfind q (List.mem_cons_of_mem p hq)
        exact absurd hown this
      | some found =>
        have hpos := List.length_pos_iff.mpr (hne found (List.mem_of_find?_eq_some hfind))
        rw [List.length_append]
        have hle := le_length_copyPayloads src ps
        omega

end Copy

/-! ## Runs -/

/-- What the application, the network and the clock have the library do. -/
inductive CoapAction
  | build (dst : SnNsdlAddr) (msg : SnCoapHdr)
  | parse (src : SnNsdlAddr) (coapVersion : Nat) (received : SnCoapHdr)
  | exec (now : Nat)
  | blockRemove (src : SnNsdlAddr) (payload : List UInt8)
  | setBlockSize (blockSize : Nat)
  | delete (msgId : Nat)
  | clear
  | setParameters (resendingCount resendingIntervall : Nat)
  | setBuffer (bufferSizeMessages bufferSizeBytes : Nat)

namespace CoapS

/-- The state then, if the behaviour is defined. -/
def step? (s : CoapS) : CoapAction → Option CoapS
  | .build dst msg => (s.protocolBuild dst msg).map (·.2.2)
  | .parse src coapVersion received =>
      (s.protocolParse src coapVersion received).map (·.coap)
  | .exec now => some (s.protocolExec now).1
  | .blockRemove src payload => some (s.blockRemove src payload)
  | .setBlockSize blockSize => some (s.setBlockSize blockSize).1
  | .delete msgId =>
      some { s with resending := (s.resending.deleteRetransmission msgId).1 }
  | .clear => some { s with resending := s.resending.clearRetransmissionBuffer }
  | .setParameters count intervall =>
      some { s with resending := (s.resending.setRetransmissionParameters count intervall).1 }
  | .setBuffer msgs bytes =>
      some { s with resending := (s.resending.setRetransmissionBuffer msgs bytes).1 }

/-- A message is as the parser makes it: no payload is empty. -/
def Parsed (_ : CoapS) : CoapAction → Prop
  | .parse _ _ received => received.payloadPtr ≠ some []
  | _ => True

/-- The states of all runs. -/
def Reached : CoapS → Prop :=
  ReachableBy (fun s => s.blockwiseReceivedPayloads = []) step? Parsed

/-- No payload that waits is empty. -/
def NoneEmpty (s : CoapS) : Prop := ∀ p ∈ s.blockwiseReceivedPayloads, p.payload ≠ []

end CoapS

section Kept

variable {s : CoapS}

open CoapS

theorem CoapS.NoneEmpty.of_subset {s' : CoapS} (h : NoneEmpty s)
    (hsub : s'.blockwiseReceivedPayloads ⊆ s.blockwiseReceivedPayloads) : NoneEmpty s' :=
  fun p hp => h p (hsub hp)

theorem CoapS.NoneEmpty.payloadStore (h : NoneEmpty s) {ptr : Option (List UInt8)}
    (hptr : ptr ≠ some []) (addr : SnNsdlAddr) (len : Nat) :
    NoneEmpty (s.blockwisePayloadStore addr len ptr) := by
  cases ptr with
  | none => exact h
  | some octets =>
    rw [blockwisePayloadStore]
    by_cases hlen : len = 0
    · simp only [if_pos hlen]
      exact h
    · simp only [if_neg hlen]
      intro p hp
      rcases List.mem_append.mp hp with hp | hp
      · exact h p hp
      · rw [List.mem_singleton.mp hp]
        have hoctets : octets ≠ [] := fun heq => hptr (congrArg some heq)
        simpa [List.take_eq_nil_iff] using ⟨hlen, hoctets⟩

theorem copyPayloads_subset (src : SnNsdlAddr) (ps : List CoapBlockwisePayload) :
    (CoapS.copyPayloads src ps).2 ⊆ ps := by
  induction ps with
  | nil => exact List.Subset.refl _
  | cons p ps ih =>
    rw [CoapS.copyPayloads]
    cases (p :: ps).find? (src.same ·.addr) with
    | none => exact List.Subset.refl _
    | some found => exact List.Subset.trans ih (List.subset_cons_self p ps)

theorem CoapS.NoneEmpty.assemble (h : NoneEmpty s) {src : SnNsdlAddr} {len : Nat}
    {r : List UInt8 × CoapS} (hr : s.assemble src len = some r) : NoneEmpty r.2 := by
  simp only [CoapS.assemble] at hr
  split at hr
  · exact absurd hr.symm (Option.some_ne_none r)
  · rw [← Option.some.inj hr]
    exact h.of_subset (copyPayloads_subset src _)

theorem sendBlock1_payloads (s : CoapS) (received : SnCoapHdr) (block1 : Nat) :
    (s.sendBlock1 received block1).coap.blockwiseReceivedPayloads ⊆
      s.blockwiseReceivedPayloads := by
  rw [sendBlock1]
  split
  · split
    · exact List.Subset.refl _
    · exact List.Subset.refl _
  · exact List.Subset.refl _

theorem sendBlock2_payloads (s : CoapS) (received : SnCoapHdr) (block2 : Nat) :
    (s.sendBlock2 received block2).coap.blockwiseReceivedPayloads ⊆
      s.blockwiseReceivedPayloads := by
  rw [sendBlock2]
  split
  · exact List.Subset.refl _
  · exact List.Subset.refl _

theorem CoapS.NoneEmpty.receiveBlock1 (h : NoneEmpty s) {src : SnNsdlAddr}
    {received : SnCoapHdr} {block1 : Nat} (hptr : received.payloadPtr ≠ some []) {r : Handled}
    (hr : s.receiveBlock1 src received block1 = some r) : NoneEmpty r.coap := by
  simp only [CoapS.receiveBlock1] at hr
  have hstored := h.payloadStore hptr src (min received.payloadLen s.blockDataSize)
  split at hr
  · rw [← Option.some.inj hr]
    exact hstored
  split at hr
  · rw [← Option.some.inj hr]
    exact hstored
  · obtain ⟨whole, hwhole, rfl⟩ := Option.map_eq_some_iff.mp hr
    exact hstored.assemble hwhole

theorem CoapS.NoneEmpty.receiveBlock2 (h : NoneEmpty s) {src : SnNsdlAddr}
    {received : SnCoapHdr} {block2 : Nat} (hptr : received.payloadPtr ≠ some []) {r : Handled}
    (hr : s.receiveBlock2 src received block2 = some r) : NoneEmpty r.coap := by
  simp only [CoapS.receiveBlock2] at hr
  have hstored := h.payloadStore hptr src received.payloadLen
  split at hr
  · split at hr
    · rw [← Option.some.inj hr]
      exact hstored
    · obtain ⟨packet, -, hr⟩ := Option.bind_eq_some_iff.mp hr
      cases packet with
      | error e =>
        rw [← Option.some.inj hr]
        exact hstored
      | ok packet =>
        rw [← Option.some.inj hr]
        exact hstored
  · obtain ⟨whole, hwhole, rfl⟩ := Option.map_eq_some_iff.mp hr
    exact hstored.assemble hwhole

theorem CoapS.NoneEmpty.handle (h : NoneEmpty s) {src : SnNsdlAddr} {received : SnCoapHdr}
    (hptr : received.payloadPtr ≠ some []) {r : Handled}
    (hr : s.handleBlockwiseMessage src received = some r) : NoneEmpty r.coap := by
  rw [handleBlockwiseMessage] at hr
  split at hr
  · split at hr
    · rw [← Option.some.inj hr]
      exact h.of_subset (sendBlock1_payloads s received _)
    · exact h.receiveBlock1 hptr hr
  · split at hr
    · exact h.receiveBlock2 hptr hr
    · rw [← Option.some.inj hr]
      exact h.of_subset (sendBlock2_payloads s received _)
  · rw [← Option.some.inj hr]
    exact h

theorem CoapS.NoneEmpty.parse (h : NoneEmpty s) {src : SnNsdlAddr} {coapVersion : Nat}
    {received : SnCoapHdr} (hptr : received.payloadPtr ≠ some []) {r : Handled}
    (hr : s.protocolParse src coapVersion received = some r) : NoneEmpty r.coap := by
  rw [protocolParse] at hr
  split at hr
  · rw [← Option.some.inj hr]
    exact h
  split at hr
  · rw [← Option.some.inj hr]
    exact h
  split at hr
  · rw [← Option.some.inj hr]
    exact h
  obtain ⟨handled, hhandled, rfl⟩ := Option.map_eq_some_iff.mp hr
  have hkept : NoneEmpty handled.coap := by
    rw [handleBlocks] at hhandled
    split at hhandled
    · exact h.handle hptr hhandled
    · rw [← Option.some.inj hhandled]
      exact h
  split
  · exact hkept
  · exact hkept

end Kept

/-! ## Main results -/

section Main

variable {s : CoapS} {src : SnNsdlAddr} {received : SnCoapHdr}

/-- The state with the block that arrives; a block of a request is cut to the own size. -/
def CoapS.store (s : CoapS) (src : SnNsdlAddr) (received : SnCoapHdr) : CoapS :=
  s.blockwisePayloadStore src
    (if received.allocOptions.block1.isSome then min received.payloadLen s.blockDataSize
      else received.payloadLen) received.payloadPtr

def CoapS.arrived (s : CoapS) (src : SnNsdlAddr) (received : SnCoapHdr) :
    List CoapBlockwisePayload := (s.store src received).blockwiseReceivedPayloads

/-- Nothing else is touched. -/
theorem CoapS.store_eq (s : CoapS) (src : SnNsdlAddr) (received : SnCoapHdr) :
    s.store src received = { s with blockwiseReceivedPayloads := s.arrived src received } := by
  rw [arrived, store]
  generalize (if received.allocOptions.block1.isSome then min received.payloadLen s.blockDataSize
    else received.payloadLen) = len
  cases received.payloadPtr with
  | none => rfl
  | some octets =>
    simp only [blockwisePayloadStore]
    split
    · rfl
    · rfl

/-- The message with what has been put together. -/
def SnCoapHdr.withWhole (msg : SnCoapHdr) (payload : List UInt8) : SnCoapHdr :=
  { msg with
    payloadLen := payload.length
    payloadPtr := some payload
    coapStatus := .parserBlockwiseMsgReceived }

/-- Putting together, in as many octets as are counted modulo some number. -/
theorem assemble_eq (src : SnNsdlAddr) {ps : List CoapBlockwisePayload}
    (hps : s.blockwiseReceivedPayloads = ps) (hne : s.NoneEmpty) {len : Nat}
    (hlen : len ≤ (wholePayload src ps).length) :
    s.assemble src len =
      if overtaken src ps = true ∨ len < (wholePayload src ps).length then none
      else some (wholePayload src ps,
        { s with blockwiseReceivedPayloads := ps.filter (!src.same ·.addr) }) := by
  subst hps
  simp only [CoapS.assemble]
  cases hover : overtaken src s.blockwiseReceivedPayloads with
  | true =>
    rw [if_pos (hlen.trans_lt (lt_length_copyPayloads hne hover)), if_pos (.inl rfl)]
  | false =>
    rw [copyPayloads_eq hover]
    by_cases hlt : len < (wholePayload src s.blockwiseReceivedPayloads).length
    · rw [if_pos hlt, if_pos (.inr hlt)]
    · rw [if_neg hlt, if_neg (not_or.mpr ⟨Bool.false_ne_true, hlt⟩)]

/-- The last block of a request. -/
theorem CoapS.NoneEmpty.handle_block1 (h : s.NoneEmpty) (hptr : received.payloadPtr ≠ some [])
    {block1 : Nat} (hblock : received.allocOptions.block1 = some block1)
    (hcode : received.msgCode ≤ 4) (hmore : blockMore block1 = false) :
    s.handleBlockwiseMessage src received =
      if 2 ^ 16 ≤ (wholePayload src (s.arrived src received)).length then
        some ⟨s.store src received, [], none⟩
      else if overtaken src (s.arrived src received) = true then none
      else some ⟨{ s.store src received with
        blockwiseReceivedPayloads := (s.arrived src received).filter (!src.same ·.addr) },
          [], some (received.withWhole (wholePayload src (s.arrived src received)))⟩ := by
  have hstore : s.blockwisePayloadStore src (min received.payloadLen s.blockDataSize)
      received.payloadPtr = s.store src received := by
    rw [CoapS.store, hblock]
    rfl
  have hne : (s.store src received).NoneEmpty := hstore ▸ h.payloadStore hptr src _
  have hlen : (s.store src received).blockwisePayloadsGetLen src =
      (wholePayload src (s.arrived src received)).length := (length_wholePayload src _).symm
  have hassemble := assemble_eq src
    (show _ = s.arrived src received from rfl) hne (Nat.le_refl _)
  simp only [CoapS.handleBlockwiseMessage, hblock, if_neg (Nat.not_lt.mpr hcode),
    CoapS.receiveBlock1, hmore, Bool.false_eq_true, if_false, hstore, hlen, hassemble,
    Nat.lt_irrefl, or_false]
  split
  · rfl
  split
  · rfl
  · rfl

end Main

end LibCoap
end LightDuer
