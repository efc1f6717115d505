import LightDuer.LibCoap.Canonical

/-!
# What is built is parsed

A message that the builder takes, with its strings and integers as the parser would store them, is
parsed back from its packet. The parser reads one octet behind the packet, where the packet ends
with a string and the head of that is extended; what it finds there can make the packet fail.

## The parts of the proof

The packet is a header, a token, the code of the fields and a payload, and the parser reads the four
with a function each. So there is one lemma for what is built (`Canonical.built`) and one for each
of the four parts that are parsed, all of them about a memory that holds the octets in question with
anything behind them.

The options are the part with a loop. `optionsLoop_fields` is an induction over the fields: the
round at a field stores it (`step?_field`), moves the pointer to the next one, and leaves a state of
the same form. For this the numbers of the fields must increase, since an option that is given a
second time is refused, and what follows a field must not be taken for another part of it; the head
of the next field has a difference that is not zero, and so does the octet in front of a payload.

## What is behind the packet

The last field has nothing behind it if there is no payload. `TailEnds b` says that with the octet
`b` there the counting of its parts ends where it should, and both cases are in the result: with it
the message comes back, without it the parser fails. The memory is not assumed to be zero or
anything else there, which is why the packet carries it.
-/

set_option autoImplicit false

namespace LightDuer
namespace LibCoap

open Lib

/-! ## Fields one after the other -/

/-- The code of these fields. -/
def codeOf (prev : Nat) (fields : List Field) : List UInt8 :=
  Options.encode prev (fields.flatMap Field.options)

/-- With such an octet behind the packet the last string is counted to its end. -/
def TailEnds (b : Nat) : Nat → List Field → Prop
  | _, [] => True
  | prev, [f] => f.1.format = .parts → Packet.CountEnds b (f.headExtra prev)
  | _, f :: g :: fields => TailEnds b f.1.number (g :: fields)

instance decidableTailEnds (b : Nat) : ∀ prev fields, Decidable (TailEnds b prev fields)
  | _, [] => .isTrue trivial
  | prev, [f] =>
      inferInstanceAs (Decidable (f.1.format = .parts → Packet.CountEnds b (f.headExtra prev)))
  | _, f :: g :: fields => decidableTailEnds b f.1.number (g :: fields)

section Fields

variable {prev : Nat} {f : Field} {fields : List Field}

@[simp] theorem codeOf_nil (prev : Nat) : codeOf prev [] = [] := rfl

theorem codeOf_cons (prev : Nat) (f : Field) (fields : List Field) :
    codeOf prev (f :: fields) = Options.encode prev f.options ++ codeOf f.1.number fields := by
  obtain ⟨part, parts, hparts, -⟩ := f.options_eq prev
  have hlast : Options.last prev f.options = f.1.number := by
    rw [Field.options, hparts]
    clear hparts
    induction parts generalizing prev part with
    | nil => rfl
    | cons next parts ih =>
      rw [List.map_cons, Options.last_cons]
      exact ih f.1.number next
  rw [codeOf, List.flatMap_cons, Options.encode_append, hlast, codeOf]

/-- The head of another option. -/
theorem codeOf_octet {mem : Nat → UInt8} {pos : Nat} {rest : List UInt8}
    (h : Holds mem pos (codeOf prev (f :: fields) ++ rest)) (hprev : prev < f.1.number) :
    16 ≤ (mem pos).toNat := by
  obtain ⟨part, parts, -, hcode, -⟩ := f.options_eq prev
  have hpos : 1 ≤ Options.nibble (f.1.number - prev) := by
    unfold Options.nibble
    split
    · omega
    · split <;> decide
  rw [codeOf_cons, hcode] at h
  rw [h.1, Options.head_first_toNat]
  omega

theorem Field.headExtra_le (hf : f.Readable) (hformat : f.1.format = .parts) :
    f.headExtra prev ≤ 2 := by
  obtain ⟨part, parts, hparts, -⟩ := f.options_eq prev
  have hnumber := f.1.number_le
  unfold Field.Readable at hf
  rw [hformat] at hf
  have hpart : part ∈ f.2.splitOn f.1.separator := by
    rw [← Field.parts_of_format hformat, hparts]
    exact List.mem_cons_self
  have hfits := (Field.partFits hformat (hf.1 part hpart)).2.2
  have hdelta : (Options.extension (f.1.number - prev)).length ≤ 1 :=
    Options.extension_length_le (by omega)
  have hlen : (Options.extension part.length).length ≤ 1 :=
    Options.extension_length_le (by omega)
  rw [Field.headExtra, hparts]
  exact Nat.add_le_add hdelta hlen

end Fields

namespace Packet

variable {packet : Packet}

/-- **Fields are read one after the other**, and the last one to the end of the packet or to what
    marks the payload. -/
theorem optionsLoop_fields {fields : List Field} (s : ParseState) {behind : List UInt8}
    (hread : ∀ f ∈ fields, f.Readable) (hnew : ∀ f ∈ fields, given s.msg f.1 = false)
    (hsorted : (s.previousOptionNumber :: fields.map (·.1.number)).Pairwise (· < ·))
    (hleft : s.messageLeft = packet.len - s.pos)
    (hmem : Holds packet.mem s.pos (codeOf s.previousOptionNumber fields ++ behind))
    (hlen : packet.len = s.pos + (codeOf s.previousOptionNumber fields ++ behind).length)
    (hbehind : behind = [] ∨ ∃ payload, behind = 0xff :: payload) :
    ∃ last, Settles (fun n => packet.optionsLoop n s) (some
      (if behind ≠ [] ∨ TailEnds (packet.mem packet.len).toNat s.previousOptionNumber fields then
        some ⟨packet.len - behind.length, last, behind.length,
          fields.foldl (fun msg f => store msg f.1 f.2) s.msg⟩
      else none)) := by
  induction fields generalizing s with
  | nil =>
    rw [codeOf_nil, List.nil_append] at hmem hlen
    refine ⟨s.previousOptionNumber, .of_succ (.of_forall fun n => ?_)⟩
    have hended : packet.optionsRound s = .ended := by
      rw [optionsRound, if_pos]
      rcases hbehind with rfl | ⟨payload, rfl⟩
      · exact .inl (by rw [hleft, hlen]; simp)
      · exact .inr hmem.1
    have hs : s = ⟨packet.len - behind.length, s.previousOptionNumber, behind.length, s.msg⟩ := by
      rw [hlen, Nat.add_sub_cancel, show behind.length = s.messageLeft by omega]
    rw [optionsLoop, hended, if_pos (.inr trivial)]
    exact congrArg (some ∘ some) hs
  | cons f fields ih =>
    rw [codeOf_cons, List.append_assoc] at hmem hlen
    have hf := hread f List.mem_cons_self
    have hlt : s.previousOptionNumber < f.1.number :=
      (List.pairwise_cons.mp hsorted).1 _ (by simp)
    have hsorted' := (List.pairwise_cons.mp hsorted).2
    generalize hpos : s.pos + (Options.encode s.previousOptionNumber f.options).length = pos
    have hrest : Holds packet.mem pos (codeOf f.1.number fields ++ behind) := hpos ▸ hmem.right
    have hlen' : packet.len = pos + (codeOf f.1.number fields ++ behind).length := by
      rw [List.length_append] at hlen
      omega
    -- what is behind this field, but for the last one of a packet with no payload
    have hoctet : fields ≠ [] ∨ behind ≠ [] → 16 ≤ (packet.mem pos).toNat := by
      intro hmore
      cases fields with
      | nil =>
        rcases hbehind with rfl | ⟨payload, rfl⟩
        · exact absurd hmore (by simp)
        · rw [hrest.1]
          decide
      | cons g fields =>
        exact codeOf_octet hrest ((List.pairwise_cons.mp hsorted').1 _ (by simp))
    have hnothing : fields = [] ∧ behind = [] → pos = packet.len := by
      rintro ⟨rfl, rfl⟩
      exact hlen'.symm
    have htail : (behind ≠ [] ∨ TailEnds (packet.mem packet.len).toNat s.previousOptionNumber
        (f :: fields)) ↔ (f.1.format = .parts → CountEnds (packet.mem pos).toNat
          (packet.len - pos + f.headExtra s.previousOptionNumber)) ∧
        (behind ≠ [] ∨ TailEnds (packet.mem packet.len).toNat f.1.number fields) := by
      by_cases hmore : fields ≠ [] ∨ behind ≠ []
      · have hends : CountEnds (packet.mem pos).toNat
            (packet.len - pos + f.headExtra s.previousOptionNumber) := .inr (.inl (hoctet hmore))
        cases fields with
        | nil => simp [hends, hmore.resolve_left (fun h => h rfl)]
        | cons g fields => simp [hends, TailEnds]
      · obtain ⟨hnil, hnone⟩ := not_or.mp hmore
        have hfields := not_not.mp hnil
        have hempty := not_not.mp hnone
        have heq := hnothing ⟨hfields, hempty⟩
        simp [hfields, hempty, heq, TailEnds]
    by_cases hend : f.1.format = .parts → CountEnds (packet.mem pos).toNat
        (packet.len - pos + f.headExtra s.previousOptionNumber)
    · have hstep := step?_field hf (hnew f List.mem_cons_self) hlt hleft hmem.left hpos.symm
        (hlen' ▸ Nat.le_add_right _ _) hend
      have hnew' : ∀ g ∈ fields, given (store s.msg f.1 f.2) g.1 = false := by
        intro g hg
        refine given_store ?_ ?_ (hnew g (List.mem_cons_of_mem f hg))
        · intro heq
          have hless : f.1.number < g.1.number :=
            (List.pairwise_cons.mp hsorted').1 _ (List.mem_map_of_mem hg)
          rw [heq] at hless
          exact absurd hless (Nat.lt_irrefl _)
        · intro hetag
          have hformat : f.1.format = .parts := by rw [hetag]; rfl
          unfold Field.Readable at hf
          rw [hformat] at hf
          exact hf.2.2 hetag
      obtain ⟨last, hsettles⟩ := ih ⟨pos, f.1.number, packet.len - pos, store s.msg f.1 f.2⟩
        (fun g hg => hread g (List.mem_cons_of_mem f hg)) hnew' hsorted' rfl hrest hlen'
      refine ⟨last, (optionsLoop_next hstep).settles ?_⟩
      have hcond := htail.trans (and_iff_right hend)
      simp only [hcond]
      exact hsettles
    · obtain ⟨hformat, hcount⟩ := Classical.not_imp.mp hend
      have hmore : ¬(fields ≠ [] ∨ behind ≠ []) := fun hmore =>
        hcount (.inr (.inl (hoctet hmore)))
      obtain ⟨hnil, hnone⟩ := not_or.mp hmore
      have heq := hnothing ⟨not_not.mp hnil, not_not.mp hnone⟩
      rw [heq, Nat.sub_self, Nat.zero_add] at hcount
      have hfailed := optionsRound_field_failed hf hlt hleft hmem.left (heq ▸ hpos.symm) hformat
        (f.headExtra_le hf hformat) hcount
      refine ⟨0, .of_succ (.of_forall fun n => ?_)⟩
      rw [optionsLoop, hfailed, if_neg fun h => hend (htail.mp h).1]

end Packet

/-! ## The packet -/

/-- What is built for the payload. -/
def payloadCode (msg : SnCoapHdr) : List UInt8 := msg.payloadPtr.elim [] (0xff :: ·)

/-- The header as it is built. -/
def headerCode (msg : SnCoapHdr) : List UInt8 :=
  [UInt8.ofNat (coapVersion1 + msg.msgType.value + msg.tokenLen), UInt8.ofNat msg.msgCode,
    UInt8.ofNat (msg.msgId / 256), UInt8.ofNat msg.msgId]

section Built

variable {msg : SnCoapHdr} {size : Nat} {p : List UInt8}

theorem HasLength.readOctets {octets : List UInt8} {len : Nat}
    (h : HasLength (some octets) len) : readOctets octets 0 len = some octets := by
  rw [LibCoap.readOctets, ← h.2, if_pos (by omega), List.drop_zero, List.take_length]

theorem Canonical.payloadBuild_eq (hm : Canonical msg) (packet : List UInt8) :
    payloadBuild packet msg = some (packet ++ payloadCode msg) := by
  have hcounted := hm.payload
  rw [payloadBuild, payloadCode]
  cases hptr : msg.payloadPtr with
  | none => simp
  | some payload =>
    rw [hptr] at hcounted
    have hne : msg.payloadLen ≠ 0 := by
      rw [← hcounted.2]
      exact fun h => hcounted.1 (List.length_eq_zero_iff.mp h)
    simp only [if_neg hne, hcounted.readOctets]
    rfl

theorem Canonical.tokenBuild_eq (hm : Canonical msg) :
    tokenBuild msg = some (msg.tokenPtr.getD []) := by
  have hcounted := hm.token.1
  rw [tokenBuild]
  cases hptr : msg.tokenPtr with
  | none =>
    rw [hptr] at hcounted
    have hzero : msg.tokenLen = 0 := hcounted
    simp [hzero]
  | some token =>
    rw [hptr] at hcounted
    exact hcounted.readOctets

/-- **The packet that is built** for such a message. -/
theorem Canonical.built (hm : Canonical msg) (h : snCoapBuilder2 msg size = some (.ok p)) :
    msg.msgCode ∈ validCodes ∧ p = headerCode msg ++ (msg.tokenPtr.getD [] ++
      (codeOf 0 (fieldsOf msg) ++ payloadCode msg)) := by
  unfold snCoapBuilder2 at h
  split at h
  · cases h
  cases hheader : headerBuild msg with
  | none =>
    rw [hheader] at h
    cases h
  | some header =>
    rw [hheader] at h
    unfold headerBuild at hheader
    split at hheader
    · next hvalid =>
      cases hheader
      have hcode : msg.msgCode ∈ validCodes := by
        simpa [snCoapHeaderValidityCheck] using hvalid
      refine ⟨hcode, ?_⟩
      simp only at h
      split at h
      · next hreset =>
        obtain ⟨htoken, hpayload, hfields⟩ := hm.reset hreset
        cases h
        rw [htoken, hfields, payloadCode, hpayload]
        rfl
      · have htoken : msg.tokenPtr = none → msg.tokenLen = 0 := fun hnone => by
          have := hm.token.1
          rw [hnone] at this
          exact this
        have hoptions := optionsBuild_eq (headerCode msg) htoken
        rw [hm.tokenBuild_eq, Option.bind_some, hm.optionsOfGroups_groupsOf, Option.map_some]
          at hoptions
        rw [← headerCode, hoptions] at h
        have h' : (payloadBuild (headerCode msg ++ msg.tokenPtr.getD [] ++
            codeOf 0 (fieldsOf msg)) msg).bind (fun packet => some (Except.ok packet)) =
            some (.ok p) := h
        rw [hm.payloadBuild_eq, Option.bind_some] at h'
        cases h'
        simp only [List.append_assoc]
    · cases hheader

end Built

section Parsed

variable {msg : SnCoapHdr} {packet : Packet} {rest : List UInt8}

/-- The header is parsed back. -/
theorem Canonical.headerParse_eq (hm : Canonical msg) (hcode : msg.msgCode ∈ validCodes)
    (hmem : Holds packet.mem 0 (headerCode msg ++ rest)) :
    (packet.mem 0).toNat % 16 = msg.tokenLen ∧ packet.headerParse = (coapVersion1,
      { msgType := msg.msgType, msgCode := msg.msgCode, msgId := msg.msgId }) := by
  obtain ⟨h0, h1, h2, h3, -⟩ := hmem
  have hlen := hm.token.2
  have hid := hm.msgId_lt
  have htype := msg.msgType.value_le
  have hversion : coapVersion1 = 0x40 := rfl
  have hmod : msg.msgType.value % 16 = 0 := by cases msg.msgType <;> rfl
  have h0' : (packet.mem 0).toNat = coapVersion1 + msg.msgType.value + msg.tokenLen := by
    rw [h0, UInt8.toNat_ofNat', Nat.mod_eq_of_lt (by omega)]
  have h1' : (packet.mem 1).toNat = msg.msgCode := by
    rw [show (1 : Nat) = 0 + 1 from rfl, h1, UInt8.toNat_ofNat',
      Nat.mod_eq_of_lt (validCodes_lt hcode)]
  have h2' : (packet.mem 2).toNat = msg.msgId / 256 := by
    rw [show (2 : Nat) = 0 + 1 + 1 from rfl, h2, UInt8.toNat_ofNat', Nat.mod_eq_of_lt (by omega)]
  have h3' : (packet.mem 3).toNat = msg.msgId % 256 := by
    rw [show (3 : Nat) = 0 + 1 + 1 + 1 from rfl, h3, UInt8.toNat_ofNat']
  refine ⟨by omega, ?_⟩
  rw [Packet.headerParse, h0', h1', h2', h3', MsgType.ofOctet_value msg.msgType rfl (by omega),
    show msg.msgId / 256 * 2 ^ 8 + msg.msgId % 256 = msg.msgId by omega,
    show (coapVersion1 + msg.msgType.value + msg.tokenLen) / 0x40 * 0x40 = coapVersion1 by omega]

/-- The token is parsed back. -/
theorem Canonical.tokenParse_eq (hm : Canonical msg) (hcode : msg.msgCode ∈ validCodes)
    (hmem : Holds packet.mem 0 (headerCode msg ++ (msg.tokenPtr.getD [] ++ rest)))
    (hlen : 4 + msg.tokenLen ≤ packet.len) :
    packet.tokenParse = some ⟨4 + msg.tokenLen, 0, packet.len - (4 + msg.tokenLen),
      headerOf msg⟩ := by
  obtain ⟨hoctet, hheader⟩ := hm.headerParse_eq hcode hmem
  have hbound := packet.len_lt
  have htoken : (if msg.tokenLen = 0 then none else some (window packet.mem 4 msg.tokenLen)) =
      msg.tokenPtr := by
    have hcounted := hm.token.1
    have hwindow : Holds packet.mem 4 (msg.tokenPtr.getD []) := hmem.right.left
    cases hptr : msg.tokenPtr with
    | none =>
      rw [hptr] at hcounted
      exact if_pos hcounted
    | some token =>
      rw [hptr] at hcounted hwindow
      rw [← hcounted.2, if_neg fun h => hcounted.1 (List.length_eq_zero_iff.mp h)]
      exact congrArg some hwindow.window_eq
  rw [Packet.tokenParse, hheader, hoctet]
  simp only [htoken]
  rw [if_neg (Nat.not_lt.mpr hm.token.2),
    show (packet.len + 2 ^ 16 - (4 + msg.tokenLen)) % 2 ^ 16 = packet.len - (4 + msg.tokenLen) by
      omega]
  rfl

/-- The payload is parsed back. -/
theorem Canonical.payloadParse_eq (hm : Canonical msg) {pos last left : Nat}
    (hmem : Holds packet.mem pos (payloadCode msg))
    (hpos : packet.len = pos + (payloadCode msg).length) :
    packet.payloadParse ⟨pos, last, left, { msg with payloadLen := 0, payloadPtr := none }⟩ =
      some msg := by
  have hcounted := hm.payload
  unfold payloadCode at hmem hpos
  cases hptr : msg.payloadPtr with
  | none =>
    rw [hptr] at hcounted hpos
    have hzero : msg.payloadLen = 0 := hcounted
    rw [Packet.payloadParse, if_neg (by simp [hpos])]
    cases msg
    cases hzero
    cases hptr
    rfl
  | some payload =>
    rw [hptr] at hcounted hmem hpos
    obtain ⟨hmark, hpayload⟩ := hmem
    have hlen : packet.len = pos + (payload.length + 1) := hpos
    have hpositive := List.length_pos_iff.mpr hcounted.1
    have hrest : packet.len - (pos + 1) = payload.length := by omega
    rw [Packet.payloadParse, if_pos (show pos < packet.len by omega), if_pos hmark,
      if_neg (show packet.len ≠ pos + 1 by omega)]
    simp only [hrest, hpayload.window_eq]
    rw [hcounted.2, ← hptr]

/-- **What is built is parsed** to the same message; but where the packet ends with a string whose
    head is extended, some octets behind the packet make it fail. -/
theorem Canonical.parsed (hm : Canonical msg) {size : Nat} {p : List UInt8}
    (hbuild : snCoapBuilder2 msg size = some (.ok p)) (hlen : packet.len = p.length)
    (hmem : Holds packet.mem 0 p) :
    Settles packet.snCoapParser (some (coapVersion1,
      if msg.payloadPtr ≠ none ∨ TailEnds (packet.mem packet.len).toNat 0 (fieldsOf msg) then msg
      else packet.parserError)) := by
  obtain ⟨hcode, rfl⟩ := hm.built hbuild
  have htokenLen : (msg.tokenPtr.getD []).length = msg.tokenLen := by
    have hcounted := hm.token.1
    cases hptr : msg.tokenPtr with
    | none =>
      rw [hptr] at hcounted
      exact hcounted.symm
    | some token =>
      rw [hptr] at hcounted
      exact hcounted.2
  have hsize : packet.len = 4 + msg.tokenLen +
      (codeOf 0 (fieldsOf msg) ++ payloadCode msg).length := by
    rw [hlen, List.length_append, List.length_append, htokenLen, Nat.add_assoc]
    rfl
  have hfields : Holds packet.mem (4 + msg.tokenLen)
      (codeOf 0 (fieldsOf msg) ++ payloadCode msg) := by
    have hright := hmem.right.right
    rwa [htokenLen] at hright
  have hpayload : payloadCode msg ≠ [] ↔ msg.payloadPtr ≠ none := by
    unfold payloadCode
    cases msg.payloadPtr <;> simp
  have hnew : ∀ f ∈ fieldsOf msg, given (headerOf msg) f.1 = false := by
    rintro ⟨o, value⟩ -
    cases o <;> rfl
  obtain ⟨last, hloop⟩ := Packet.optionsLoop_fields
    ⟨4 + msg.tokenLen, 0, packet.len - (4 + msg.tokenLen), headerOf msg⟩
    hm.fields hnew (fieldsOf_sorted msg) rfl hfields hsize
    (by unfold payloadCode; cases msg.payloadPtr <;> simp)
  have hversion := (hm.headerParse_eq hcode hmem).2
  have hparser : packet.snCoapParser = fun n => (packet.optionsLoop n
      ⟨4 + msg.tokenLen, 0, packet.len - (4 + msg.tokenLen), headerOf msg⟩).map fun r =>
        (packet.headerParse.1, packet.parserResult r) := by
    funext n
    rw [Packet.snCoapParser, hm.tokenParse_eq hcode hmem (by omega)]
  have hsettles := hloop.map fun r => r.map fun r => (packet.headerParse.1, packet.parserResult r)
  rw [← hparser] at hsettles
  simp only [hpayload, hm.foldl_store] at hsettles
  rw [Option.map_some, hversion] at hsettles
  by_cases hends : msg.payloadPtr ≠ none ∨
      TailEnds (packet.mem packet.len).toNat 0 (fieldsOf msg)
  · have hend : packet.len = packet.len - (payloadCode msg).length + (payloadCode msg).length := by
      rw [List.length_append] at hsize
      omega
    have hmark : Holds packet.mem (packet.len - (payloadCode msg).length) (payloadCode msg) := by
      have hright := hfields.right
      rw [List.length_append] at hsize
      rwa [show packet.len - (payloadCode msg).length =
        4 + msg.tokenLen + (codeOf 0 (fieldsOf msg)).length by omega]
    rw [if_pos hends] at hsettles ⊢
    rw [Packet.parserResult, hm.payloadParse_eq hmark hend] at hsettles
    exact hsettles
  · rw [if_neg hends] at hsettles ⊢
    exact hsettles

end Parsed

/-- A packet in a memory that holds the one octet behind it. -/
def Packet.ofList (octets : List UInt8) (behind : UInt8) (h : octets.length < 2 ^ 15 - 2 ^ 8)
    (htoken : 4 + (octets.getD 0 behind).toNat % 16 ≤ octets.length) : Packet where
  mem i := octets.getD i behind
  len := octets.length
  len_lt := h
  token_le := fun _ => htoken

theorem Packet.holds_ofList (octets : List UInt8) (behind : UInt8)
    (h : octets.length < 2 ^ 15 - 2 ^ 8)
    (htoken : 4 + (octets.getD 0 behind).toNat % 16 ≤ octets.length) :
    Holds (ofList octets behind h htoken).mem 0 octets :=
  holds_getD [] octets behind

end LibCoap
end LightDuer
