import LightDuer.LibCoap.Exchange
import LightDuer.LibCoap.Size

/-!
# What arrives of the messages of a transfer

A message arrives as it is read if that is one the parser can make, and if its packet has as many
octets as are counted and is not too long. Of all messages of a transfer this follows from the first
one: those that come behind it have its options, but for the one of the block, and a part of its
payload.

## From a message to its packet

`Canonical.conveyed` puts the round trip and the count together. The caller of
`sn_coap_protocol_build` allocates what is counted, so a packet is only sent as it was built where
`snCoapBuilder2_length_eq_iff` applies, and it is only parsed as it was built where it ends with
something that cannot be taken for the beginning of more. `Closed` is the second condition: the last
option is not a string of several parts, or a payload follows.

## From the first block to the others

The library keeps a copy of the message that an application sends, and makes each later block of it
by `copyHeader` and a new Block1, message ID and payload; the acknowledgements are made from
nothing. `withBlock` is such a later block. Its slots are those of the first message, or empty, or
the one of the block (`mem_slotsOf_withBlock`), so that its fields can be read if those of the first
can and its packet is no longer. That the sizes are gone from it, and with them the ETag's
neighbours, is what `copyHeader` does.

`First` are the conditions on the first message, and everything else is derived: the theorem on
transfers asks nothing about the blocks behind it.
-/

set_option autoImplicit false

namespace LightDuer
namespace LibCoap

open Lib

/-! ## Messages that arrive -/

/-- A packet that ends with another option than a string of several parts ends where it ends. -/
theorem tailEnds_of_last {b prev : Nat} {fields : List Field}
    (h : ∀ f ∈ fields.getLast?, f.1.format ≠ .parts) : TailEnds b prev fields := by
  induction fields generalizing prev with
  | nil => trivial
  | cons f fields ih =>
    cases fields with
    | nil => exact fun hparts => absurd hparts (h f rfl)
    | cons g fields => exact ih h

section Arrives

variable {msg : SnCoapHdr} {size : Nat}

/-- The last option of a message is not a string of several parts, or there is a payload behind it.
-/
def Closed (msg : SnCoapHdr) : Prop :=
  msg.payloadPtr ≠ none ∨ ∀ f ∈ (fieldsOf msg).getLast?, f.1.format ≠ .parts

theorem Canonical.legible (hm : Canonical msg.read)
    (hptr : msg.payloadPtr = none → msg.payloadLen = 0) (hclosed : Closed msg.read) :
    Legible msg := by
  intro size octets hbuild packet ⟨hlen, hmem⟩
  have hsettles := snCoapParser_read hptr hm hbuild hlen hmem
  rwa [if_pos (hclosed.imp_right tailEnds_of_last)] at hsettles

/-- What is built, if the count of octets does not wrap to zero. -/
theorem Canonical.builds (hm : Canonical msg.read) (hcode : msg.msgCode ∈ validCodes)
    (htype : msg.msgType ≠ .reset) {n : Nat} (hneeded : calcNeeded msg size = some n)
    (hn : n % 2 ^ 16 ≠ 0) :
    snCoapBuilder2 msg size = some (.ok (headerCode msg ++ msg.tokenPtr.getD [] ++
      codeOf 0 (fieldsOf msg.read) ++ payloadCode msg.read)) := by
  have hheader : headerBuild msg = some (headerCode msg) :=
    if_pos (by simpa [snCoapHeaderValidityCheck] using hcode)
  have htoken : msg.read.tokenPtr = none → msg.read.tokenLen = 0 := by
    intro hnone
    have hlength := hm.token.1
    rwa [hnone] at hlength
  have hoptions : optionsBuild (headerCode msg) msg =
      some (headerCode msg ++ msg.tokenPtr.getD [] ++ codeOf 0 (fieldsOf msg.read)) := by
    rw [← optionsBuild_read, optionsBuild_eq _ htoken, hm.tokenBuild_eq,
      hm.optionsOfGroups_groupsOf]
    rfl
  have hcount : snCoapBuilderCalcNeededPacketDataSize2 msg size ≠ 0 := by
    rw [snCoapBuilderCalcNeededPacketDataSize2, hneeded]
    exact hn
  rw [snCoapBuilder2, if_neg hcount, hheader]
  simp only [if_neg htype, hoptions, Option.bind_eq_bind, Option.bind_some]
  rw [← payloadBuild_read, hm.payloadBuild_eq]
  rfl

theorem Canonical.length_token (hm : Canonical msg) :
    (msg.tokenPtr.getD []).length = msg.tokenLen := by
  have hlength := hm.token.1
  cases hptr : msg.tokenPtr with
  | none =>
    rw [hptr] at hlength
    exact hlength.symm
  | some token =>
    rw [hptr] at hlength
    exact hlength.2

/-- The packet holds the header, and the token that its first octet announces. -/
theorem exists_packet {octets rest : List UInt8} (hm : Canonical msg.read)
    (heq : octets = headerCode msg ++ msg.tokenPtr.getD [] ++ rest)
    (hlt : octets.length < 2 ^ 15 - 2 ^ 8) : ∃ packet : Packet, packet.Of octets := by
  have htoken : (msg.tokenPtr.getD []).length = msg.tokenLen := hm.length_token
  have hle : msg.tokenLen ≤ 8 := hm.token.2
  have htype := msg.msgType.value_le
  have hmod : msg.msgType.value % 16 = 0 := by cases msg.msgType <;> rfl
  have hversion : coapVersion1 = 0x40 := rfl
  have hfirst : (octets.getD 0 0).toNat % 16 = msg.tokenLen := by
    rw [heq]
    show (UInt8.ofNat (coapVersion1 + msg.msgType.value + msg.tokenLen)).toNat % 16 = _
    rw [UInt8.toNat_ofNat']
    omega
  have hlength : octets.length = 4 + msg.tokenLen + rest.length := by
    rw [heq, List.length_append, List.length_append, htoken]
    rfl
  exact ⟨.ofList octets 0 hlt (by omega), rfl, Packet.holds_ofList ..⟩

/-- **A message arrives** as the one that is read, if the octets it needs are counted and are not
    too many. -/
theorem Canonical.conveyed (hm : Canonical msg.read) (hsound : msg.Sound size)
    (hclosed : Closed msg.read) (hcode : msg.msgCode ∈ validCodes)
    (htype : msg.msgType ≠ .reset)
    (hproxy : ∀ options ∈ msg.optionsList, ∀ uri ∈ options.proxyUri, uri.length ≠ 269)
    {n : Nat} (hneeded : calcNeeded msg size = some n) (hpos : 0 < n)
    (hlt : n < 2 ^ 15 - 2 ^ 8) : Conveyed size msg msg.read := by
  have hbuild := hm.builds hcode htype hneeded (by omega)
  obtain ⟨n', hneeded', hlength⟩ := snCoapBuilder2_length hsound htype hbuild
  obtain rfl := Option.some.inj (hneeded.symm.trans hneeded')
  have hmissed : msg.optionsList.elim 0 (fun options => proxyUriMissed options.proxyUri) = 0 := by
    cases hlist : msg.optionsList with
    | none => rfl
    | some options =>
      cases huri : options.proxyUri with
      | none => simp [huri, proxyUriMissed]
      | some uri => simp [huri, proxyUriMissed, hproxy options hlist uri huri]
  have hjump : ¬JumpMissed msg := by
    rintro ⟨options, hlist, hobserve, hpath, -⟩
    have hnone : msg.uriPath = none := hm.uriPath (by
      have hread : msg.read.optionsList = some options.read := congrArg (Option.map _) hlist
      rw [SnCoapHdr.allocOptions, hread]
      show options.observe.map readInt ≠ none
      rw [ne_eq, Option.map_eq_none_iff]
      exact Option.isSome_iff_ne_none.mp hobserve)
    rw [hnone] at hpath
    exact absurd hpath Bool.false_ne_true
  rw [hmissed, if_neg hjump] at hlength
  refine ⟨_, hbuild, ?_, exists_packet hm (List.append_assoc ..) (by omega), ?_⟩
  · rw [hlength, snCoapBuilderCalcNeededPacketDataSize2, hneeded, Option.getD_some]
    omega
  · exact hm.legible hsound.payload hclosed size _ hbuild

end Arrives

/-! ## The blocks behind the first one -/

theorem uintOptionPayload_length_of_lt {v : Nat} (h : v < 2 ^ 24) :
    (uintOptionPayload v).length ≤ 3 := by
  have hzero : UInt8.ofNat (v / 2 ^ 24) = 0 := by
    rw [Nat.div_eq_of_lt h]
    rfl
  rw [uintOptionPayload_eq (by omega), be32, hzero, List.filter_cons_of_neg (by decide)]
  exact (List.length_filter_le _ _).trans (Nat.le_refl 3)

/-- A message with another block of a payload, as `sn_coap_handle_blockwise_message` makes it of
    the one that is kept. -/
def SnCoapHdr.withBlock (msg : SnCoapHdr) (block1 msgId payloadLen : Nat)
    (payload : List UInt8) : SnCoapHdr :=
  { msg with
    optionsList := some { msg.allocOptions with block1 := some block1, block2 := none }
    msgId
    payloadLen
    payloadPtr := some payload }

section Fields

variable {first : SnCoapHdr} {options : SnCoapOptionsList}

/-- What is kept of the options of a message with a Size1: there is no ETag then. -/
theorem copyHeader_options (hoptions : first.optionsList = some options)
    (hetag : options.etagPtr = none) :
    (copyHeader first).allocOptions = { options with
      etagLen := 0
      useSize1 := false
      useSize2 := false
      size1 := 0
      size2 := 0 } := by
  rw [SnCoapHdr.allocOptions]
  simp only [copyHeader, hoptions, Option.map_some, Option.getD_some, hetag, Option.map_none,
    if_true]

variable (block1 msgId payloadLen : Nat) (payload : List UInt8)

/-- The options of another block, as they are read. -/
theorem withBlock_options (hoptions : first.optionsList = some options)
    (hetag : options.etagPtr = none) :
    ((copyHeader first).withBlock block1 msgId payloadLen payload).read.allocOptions =
      { options.read with
        etagLen := 0
        useSize1 := false
        useSize2 := false
        size1 := 0
        size2 := 0
        block1 := some (readInt block1)
        block2 := none } := by
  have hkept := copyHeader_options hoptions hetag
  rw [SnCoapHdr.withBlock, SnCoapHdr.allocOptions, SnCoapHdr.read, hkept]
  rfl

theorem read_allocOptions (hoptions : first.optionsList = some options) :
    first.read.allocOptions = options.read := by
  rw [SnCoapHdr.allocOptions, SnCoapHdr.read, hoptions]
  rfl

/-- They are those of the first one, but for the block and the sizes. -/
theorem mem_slotsOf_withBlock (hoptions : first.optionsList = some options)
    (hetag : options.etagPtr = none) {slot : Slot} (hslot : slot ∈
      slotsOf ((copyHeader first).withBlock block1 msgId payloadLen payload).read) :
    slot ∈ slotsOf first.read ∨ slot.2 = none ∨
      slot = (.block1, some (uintOptionPayload (readInt block1))) := by
  rw [slotsOf, withBlock_options _ _ _ _ hoptions hetag] at hslot
  rw [slotsOf, read_allocOptions hoptions]
  simp only [SnCoapOptionsList.firstSlots, SnCoapOptionsList.lastSlots, List.cons_append,
    List.nil_append, List.mem_cons, List.not_mem_nil, or_false] at hslot ⊢
  rcases hslot with rfl | rfl | rfl | rfl | rfl | rfl | rfl | rfl | rfl | rfl | rfl | rfl | rfl |
    rfl | rfl | rfl <;> simp [SnCoapHdr.read, copyHeader, SnCoapHdr.withBlock,
      SnCoapOptionsList.maxAgeOption, SnCoapOptionsList.size1Option, SnCoapOptionsList.size2Option]

theorem mem_fieldsOf_withBlock (hoptions : first.optionsList = some options)
    (hetag : options.etagPtr = none) {f : Field} (hf : f ∈
      fieldsOf ((copyHeader first).withBlock block1 msgId payloadLen payload).read) :
    f ∈ fieldsOf first.read ∨ f = (.block1, uintOptionPayload (readInt block1)) := by
  obtain ⟨slot, hslot, hf⟩ := List.mem_flatMap.mp hf
  rcases mem_slotsOf_withBlock _ _ _ _ hoptions hetag hslot with hfirst | hnone | hblock
  · exact .inl (List.mem_flatMap.mpr ⟨slot, hfirst, hf⟩)
  · rw [Slot.fields, hnone] at hf
    exact absurd hf List.not_mem_nil
  · rw [hblock] at hf
    exact .inr (List.mem_singleton.mp hf)

theorem mem_integersOf_withBlock (hoptions : first.optionsList = some options)
    (hetag : options.etagPtr = none) {value : Option Nat} (hvalue : value ∈
      integersOf ((copyHeader first).withBlock block1 msgId payloadLen payload).read) :
    value ∈ integersOf first.read ∨ value = none ∨ value = some (readInt block1) := by
  rw [integersOf, withBlock_options _ _ _ _ hoptions hetag] at hvalue
  rw [integersOf, read_allocOptions hoptions]
  simp only [List.mem_cons, List.not_mem_nil, or_false] at hvalue ⊢
  rcases hvalue with rfl | rfl | rfl | rfl | rfl | rfl | rfl | rfl | rfl <;>
    simp [SnCoapHdr.read, copyHeader, SnCoapHdr.withBlock, SnCoapOptionsList.maxAgeOption,
      SnCoapOptionsList.size1Option, SnCoapOptionsList.size2Option]

/-- Its last option is that of the block or a Proxy-Uri. -/
theorem closed_withBlock (hoptions : first.optionsList = some options)
    (hetag : options.etagPtr = none) :
    Closed ((copyHeader first).withBlock block1 msgId payloadLen payload).read := by
  have hlast : ∃ front, fieldsOf ((copyHeader first).withBlock block1 msgId payloadLen
      payload).read = front ++ (.block1, uintOptionPayload (readInt block1)) ::
        options.proxyUri.toList.map (CoapOption.proxyUri, ·) := by
    rw [fieldsOf, slotsOf, withBlock_options _ _ _ _ hoptions hetag, ← List.append_assoc]
    simp only [SnCoapOptionsList.lastSlots]
    rw [List.flatMap_append]
    simp only [List.flatMap_cons, List.flatMap_nil, Slot.fields, SnCoapOptionsList.size1Option,
      SnCoapOptionsList.size2Option, Bool.false_eq_true, if_false, Option.map_some,
      Option.map_none, Option.toList_some, Option.toList_none, List.map_cons, List.map_nil,
      List.append_nil, List.nil_append]
    rw [← List.append_assoc, ← List.append_assoc, ← List.append_assoc, ← List.append_assoc]
    exact ⟨_, rfl⟩
  obtain ⟨front, hfields⟩ := hlast
  refine .inr fun f hf => ?_
  rw [hfields, List.getLast?_append_of_ne_nil _ (List.cons_ne_nil _ _)] at hf
  cases huri : options.proxyUri with
  | none =>
    rw [huri] at hf
    obtain rfl := Option.some.inj hf
    exact show CoapOption.block1.format ≠ .parts by decide
  | some uri =>
    rw [huri] at hf
    obtain rfl := Option.some.inj hf
    exact show CoapOption.proxyUri.format ≠ .parts by decide

end Fields

/-- The first message of a transfer: it has a Size1 and is full, and it arrives. -/
structure First (first : SnCoapHdr) (size : Nat) : Prop where
  canonical : Canonical first.read
  options : ∃ options, first.optionsList = some options ∧ options.useSize1 = true
  payload : ∃ payload, first.payloadPtr = some payload
  full : first.payloadLen = size ∧ 0 < size
  code : first.msgCode ∈ validCodes

namespace First

variable {first : SnCoapHdr} {size : Nat}

/-- With a Size1 the parser makes no message with an ETag. -/
theorem noEtag (h : First first size) :
    ∃ options, first.optionsList = some options ∧ options.etagPtr = none := by
  obtain ⟨options, hoptions, hused⟩ := h.options
  refine ⟨options, hoptions, ?_⟩
  have hetag := h.canonical.etag.2
  rw [read_allocOptions hoptions] at hetag
  by_contra hne
  exact Bool.false_ne_true ((hetag hne).1.symm.trans hused)

theorem token_eq (h : First first size) :
    (copyHeader first).tokenPtr = first.tokenPtr ∧
      (copyHeader first).tokenLen = first.tokenLen := by
  have hlength : HasLength first.tokenPtr first.tokenLen := h.canonical.token.1
  simp only [copyHeader]
  cases hptr : first.tokenPtr with
  | none =>
    rw [hptr] at hlength
    exact ⟨rfl, (if_pos rfl).trans hlength.symm⟩
  | some token =>
    rw [hptr] at hlength
    refine ⟨?_, if_neg (Option.some_ne_none token)⟩
    rw [Option.map_some, List.take_of_length_le (Nat.le_of_eq hlength.2)]

theorem not_reset (h : First first size) : first.msgType ≠ .reset := by
  intro hreset
  obtain ⟨payload, hpayload⟩ := h.payload
  have hnone := (h.canonical.reset hreset).2.1
  obtain ⟨hfull, hpos⟩ := h.full
  simp only [SnCoapHdr.read, hpayload, Option.map_some] at hnone
  rw [if_neg (by omega)] at hnone
  exact Option.some_ne_none _ hnone

/-- The blocks behind the first one are read as messages that the parser can make. -/
theorem canonical_withBlock (h : First first size) {block1 msgId payloadLen : Nat}
    {payload : List UInt8} (hblock : block1 < 2 ^ 24) (hid : msgId < 2 ^ 16)
    (hlen : payloadLen ≤ payload.length) :
    Canonical ((copyHeader first).withBlock block1 msgId payloadLen payload).read := by
  obtain ⟨options, hoptions, hetag⟩ := h.noEtag
  obtain ⟨htokenPtr, htokenLen⟩ := h.token_eq
  have hm := h.canonical
  have hnext := withBlock_options block1 msgId payloadLen payload hoptions hetag
  have hfirst := read_allocOptions hoptions
  have hpath : first.read.allocOptions.observe ≠ none → first.uriPath = none := hm.uriPath
  exact {
    status := hm.status
    msgId_lt := hid
    token := by
      show HasLength (copyHeader first).tokenPtr (copyHeader first).tokenLen ∧
        (copyHeader first).tokenLen ≤ 8
      rw [htokenPtr, htokenLen]
      exact hm.token
    payload := by
      show HasLength (if payloadLen = 0 then none else some (payload.take payloadLen))
        (if some payload = none then 0 else payloadLen)
      rw [if_neg (Option.some_ne_none payload)]
      by_cases hzero : payloadLen = 0
      · rw [if_pos hzero]
        exact hzero
      · rw [if_neg hzero]
        have hlength : (payload.take payloadLen).length = payloadLen := by
          rw [List.length_take, Nat.min_eq_left hlen]
        refine ⟨fun hnil => hzero ?_, hlength⟩
        rw [← hlength, hnil]
        rfl
    optionsList := fun hempty => by
      rw [SnCoapHdr.allocOptions, hempty] at hnext
      exact Option.some_ne_none _ (congrArg SnCoapOptionsList.block1 hnext).symm
    etag := by
      rw [hnext]
      exact ⟨hetag ▸ rfl, fun hne => absurd hetag hne⟩
    size1 := fun _ => by rw [hnext]
    size2 := fun _ => by rw [hnext]
    uriPath := fun hobserve => by
      rw [hnext] at hobserve
      rw [hfirst] at hpath
      exact hpath hobserve
    integers := fun value hvalue v hv => by
      rcases mem_integersOf_withBlock _ _ _ _ hoptions hetag hvalue with hmem | hnone | hread
      · exact hm.integers value hmem v hv
      · rw [hnone] at hv
        exact absurd hv.symm (Option.some_ne_none v)
      · rw [hread] at hv
        rw [← Option.some.inj hv]
        exact ⟨readInt_lt block1, compact_readInt block1⟩
    fields := fun f hf => by
      rcases mem_fieldsOf_withBlock _ _ _ _ hoptions hetag hf with hmem | rfl
      · exact hm.fields f hmem
      · show (uintOptionPayload (readInt block1)).length ≤ 3
        rw [uintOptionPayload_readInt]
        exact uintOptionPayload_length_of_lt hblock
    head := fun f hf hformat => by
      rcases mem_fieldsOf_withBlock _ _ _ _ hoptions hetag hf with hmem | rfl
      · exact hm.head f hmem hformat
      · exact absurd hformat (show CoapOption.block1.format ≠ .parts by decide)
    reset := fun hreset => absurd hreset h.not_reset }

end First

/-! ## Counting their octets -/

theorem jumpOver_le (options : List (Bool × CoapOption)) (state : Nat × Nat) :
    (options.foldl jumpOver state).2 ≤ state.2 + options.length := by
  induction options generalizing state with
  | nil => exact Nat.le_refl _
  | cons option options ih =>
    have hone : (jumpOver state option).2 ≤ state.2 + 1 := by
      rw [jumpOver]
      split
      · dsimp only
        split <;> omega
      · exact Nat.le_succ _
    have hrest := ih (jumpOver state option)
    rw [List.foldl_cons, List.length_cons]
    omega

theorem optionsCalculateJumpNeed_le (msg : SnCoapHdr) : optionsCalculateJumpNeed msg ≤ 9 := by
  rw [optionsCalculateJumpNeed]
  split
  · exact Nat.zero_le 9
  · split
    · exact (jumpOver_le _ _).trans (Nat.le_of_eq (Nat.zero_add 9))
    · exact Nat.zero_le 9

/-- An option for a block is counted with at most five octets. -/
theorem calcUint_block {block1 : Nat} (h : block1 < 2 ^ 24) :
    ∃ n, calcUint (some block1) 0xffffff = some n ∧ n ≤ 5 := by
  refine ⟨_, if_neg (by omega), ?_⟩
  have hle := uintOptionPayload_length_le block1
  omega

/-- The options of another block need no more octets than those of the first one, but for the
    block. -/
theorem calcOptions_withBlock {first : SnCoapHdr} {options : SnCoapOptionsList} {block1 n : Nat}
    (hoptions : first.optionsList = some options) (hetag : options.etagPtr = none)
    (hblock : block1 < 2 ^ 24) (h : calcOptions (some options) = some n) :
    ∃ n', calcOptions (some { (copyHeader first).allocOptions with
      block1 := some block1, block2 := none }) = some n' ∧ n' ≤ n + 5 := by
  rw [copyHeader_options hoptions hetag]
  obtain ⟨nblock1, hnblock1, hle⟩ := calcUint_block hblock
  rw [calcOptions] at h
  obtain ⟨accept, haccept, h⟩ := Option.bind_eq_some_iff.mp h
  obtain ⟨maxAge, hmaxAge, h⟩ := Option.bind_eq_some_iff.mp h
  obtain ⟨proxyUri, hproxyUri, h⟩ := Option.bind_eq_some_iff.mp h
  obtain ⟨etag, -, h⟩ := Option.bind_eq_some_iff.mp h
  obtain ⟨uriHost, huriHost, h⟩ := Option.bind_eq_some_iff.mp h
  obtain ⟨locationPath, hlocationPath, h⟩ := Option.bind_eq_some_iff.mp h
  obtain ⟨uriPort, huriPort, h⟩ := Option.bind_eq_some_iff.mp h
  obtain ⟨locationQuery, hlocationQuery, h⟩ := Option.bind_eq_some_iff.mp h
  obtain ⟨observe, hobserve, h⟩ := Option.bind_eq_some_iff.mp h
  obtain ⟨uriQuery, huriQuery, h⟩ := Option.bind_eq_some_iff.mp h
  obtain ⟨nfirst, -, h⟩ := Option.bind_eq_some_iff.mp h
  obtain ⟨size1, -, h⟩ := Option.bind_eq_some_iff.mp h
  obtain ⟨block2, -, h⟩ := Option.bind_eq_some_iff.mp h
  obtain ⟨size2, -, h⟩ := Option.bind_eq_some_iff.mp h
  have hsum := Option.some.inj h
  have hnone : calcMultiple ({ options with
      etagLen := 0
      useSize1 := false
      useSize2 := false
      size1 := 0
      size2 := 0
      block1 := some block1
      block2 := none } : SnCoapOptionsList).etagCounted .etag = some 0 := by
    rw [SnCoapOptionsList.etagCounted, hetag]
    rfl
  refine ⟨accept + maxAge + proxyUri + 0 + uriHost + locationPath + uriPort + locationQuery +
    observe + uriQuery + nblock1 + 0 + 0 + 0, ?_, by omega⟩
  refine Option.bind_eq_some_iff.mpr ⟨accept, haccept, ?_⟩
  refine Option.bind_eq_some_iff.mpr ⟨maxAge, hmaxAge, ?_⟩
  refine Option.bind_eq_some_iff.mpr ⟨proxyUri, hproxyUri, ?_⟩
  refine Option.bind_eq_some_iff.mpr ⟨0, hnone, ?_⟩
  refine Option.bind_eq_some_iff.mpr ⟨uriHost, huriHost, ?_⟩
  refine Option.bind_eq_some_iff.mpr ⟨locationPath, hlocationPath, ?_⟩
  refine Option.bind_eq_some_iff.mpr ⟨uriPort, huriPort, ?_⟩
  refine Option.bind_eq_some_iff.mpr ⟨locationQuery, hlocationQuery, ?_⟩
  refine Option.bind_eq_some_iff.mpr ⟨observe, hobserve, ?_⟩
  refine Option.bind_eq_some_iff.mpr ⟨uriQuery, huriQuery, ?_⟩
  exact Option.bind_eq_some_iff.mpr ⟨nblock1, hnblock1, rfl⟩

namespace First

variable {first : SnCoapHdr} {size : Nat}

theorem calcToken_congr {msg msg' : SnCoapHdr} (hptr : msg.tokenPtr = msg'.tokenPtr)
    (hlen : msg.tokenLen = msg'.tokenLen) : calcToken msg = calcToken msg' := by
  rw [calcToken, calcToken, hptr, hlen]

theorem calcPayload_le {payloadLen : Nat} (h : payloadLen ≤ size) (hpos : 0 < size) :
    calcPayload payloadLen size ≤ calcPayload size size := by
  have hshort : ¬(size < payloadLen ∧ 0 < size) := by omega
  have hsame : ¬(size < size ∧ 0 < size) := fun h => Nat.lt_irrefl size h.1
  rw [calcPayload, calcPayload, if_neg hshort, if_neg hsame, if_neg (show size ≠ 0 by omega)]
  split <;> omega

/-- Another block needs at most fourteen octets more than the first one. -/
theorem calcNeeded_withBlock (h : First first size) {n : Nat}
    (hneeded : calcNeeded first size = some n) {block1 : Nat} (hblock : block1 < 2 ^ 24)
    (msgId : Nat) {payloadLen : Nat} (hlen : payloadLen ≤ size) (payload : List UInt8) :
    ∃ n', calcNeeded ((copyHeader first).withBlock block1 msgId payloadLen payload) size =
      some n' ∧ 0 < n' ∧ n' ≤ n + 14 := by
  obtain ⟨options, hoptions, hetag⟩ := h.noEtag
  obtain ⟨htokenPtr, htokenLen⟩ := h.token_eq
  obtain ⟨hfull, hpos⟩ := h.full
  generalize hnext : (copyHeader first).withBlock block1 msgId payloadLen payload = next
  have htype : next.msgType ≠ .reset := by
    subst hnext
    exact h.not_reset
  rw [calcNeeded, if_neg h.not_reset] at hneeded
  obtain ⟨token, htoken, hneeded⟩ := Option.bind_eq_some_iff.mp hneeded
  obtain ⟨uriPath, huriPath, hneeded⟩ := Option.bind_eq_some_iff.mp hneeded
  obtain ⟨format, hformat, hneeded⟩ := Option.bind_eq_some_iff.mp hneeded
  obtain ⟨n₁, hn₁, hneeded⟩ := Option.bind_eq_some_iff.mp hneeded
  rw [hoptions] at hn₁
  obtain ⟨n₂, hn₂, hle⟩ := calcOptions_withBlock hoptions hetag hblock hn₁
  have hsum := Option.some.inj hneeded
  have htoken' : calcToken next = some token := by
    subst hnext
    rw [← htoken]
    exact calcToken_congr htokenPtr htokenLen
  have hpath : next.uriPathSource = first.uriPathSource := by
    subst hnext
    have hkept := copyHeader_options hoptions hetag
    simp only [SnCoapHdr.uriPathSource, SnCoapHdr.withBlock, hkept, hoptions]
    rfl
  have hformat' : next.contentFormat = first.contentFormat := by
    subst hnext
    rfl
  have hlist : next.optionsList = some { (copyHeader first).allocOptions with
      block1 := some block1, block2 := none } := by
    subst hnext
    rfl
  have hpayload : calcPayload next.payloadLen size ≤ calcPayload first.payloadLen size := by
    have hnextLen : next.payloadLen = payloadLen := by
      subst hnext
      rfl
    rw [hnextLen, hfull]
    exact calcPayload_le hlen hpos
  have hjump := optionsCalculateJumpNeed_le next
  refine ⟨4 + token + uriPath + format + n₂ + calcPayload next.payloadLen size +
    optionsCalculateJumpNeed next, ?_, ?_, ?_⟩
  · rw [calcNeeded, if_neg htype, hpath, hformat', hlist]
    refine Option.bind_eq_some_iff.mpr ⟨token, htoken', ?_⟩
    refine Option.bind_eq_some_iff.mpr ⟨uriPath, huriPath, ?_⟩
    refine Option.bind_eq_some_iff.mpr ⟨format, hformat, ?_⟩
    exact Option.bind_eq_some_iff.mpr ⟨n₂, hn₂, rfl⟩
  · omega
  · omega

theorem sound (h : First first size) : first.Sound size := by
  obtain ⟨options, hoptions, hetag⟩ := h.noEtag
  obtain ⟨payload, hpayload⟩ := h.payload
  have hlength : HasLength first.tokenPtr first.tokenLen := h.canonical.token.1
  exact {
    token := fun hnone => by rwa [hnone] at hlength
    etag := fun options' hoptions' ptr hptr => by
      rw [hoptions] at hoptions'
      rw [← Option.some.inj hoptions', hetag] at hptr
      exact absurd hptr.symm (Option.some_ne_none ptr)
    payload := fun hnone => absurd (hpayload.symm.trans hnone) (Option.some_ne_none payload)
    block := .inl (Nat.le_of_eq h.full.1) }

end First

/-- Of the message that is kept, all blocks arrive that are not larger than the sender's. -/
structure Kept (size : Nat) (msg : SnCoapHdr) : Prop where
  token : HasLength msg.tokenPtr msg.tokenLen ∧ msg.tokenLen ≤ 8
  useSize1 : msg.allocOptions.useSize1 = false
  legible : ∀ {block1 msgId payloadLen : Nat} {payload : List UInt8}, block1 < 2 ^ 24 →
    msgId < 2 ^ 16 → payloadLen ≤ payload.length →
      Legible (msg.withBlock block1 msgId payloadLen payload)
  conveyed : ∀ {block1 msgId payloadLen : Nat} {payload : List UInt8}, block1 < 2 ^ 24 →
    msgId < 2 ^ 16 → payloadLen ≤ payload.length → payloadLen ≤ size →
      Conveyed size (msg.withBlock block1 msgId payloadLen payload)
        (msg.withBlock block1 msgId payloadLen payload).read

/-- **All blocks arrive** if the first one does, and is not so long that another one could be too
    long. -/
theorem First.kept {first : SnCoapHdr} {size : Nat} (h : First first size) {octets : List UInt8}
    (hbuild : snCoapBuilder2 first size = some (.ok octets))
    (hcount : octets.length = snCoapBuilderCalcNeededPacketDataSize2 first size)
    (hlt : octets.length + 14 < 2 ^ 15 - 2 ^ 8) : Kept size (copyHeader first) := by
  obtain ⟨options, hoptions, hetag⟩ := h.noEtag
  obtain ⟨htokenPtr, htokenLen⟩ := h.token_eq
  have hkept := copyHeader_options hoptions hetag
  have hlegible : ∀ {block1 msgId payloadLen : Nat} {payload : List UInt8}, block1 < 2 ^ 24 →
      msgId < 2 ^ 16 → payloadLen ≤ payload.length →
        Legible ((copyHeader first).withBlock block1 msgId payloadLen payload) :=
    fun hblock hid hlen => (h.canonical_withBlock hblock hid hlen).legible
      (fun hnone => absurd hnone.symm (Option.some_ne_none _).symm)
      (closed_withBlock _ _ _ _ hoptions hetag)
  refine ⟨?_, by rw [hkept], hlegible, ?_⟩
  · rw [htokenPtr, htokenLen]
    exact h.canonical.token
  · intro block1 msgId payloadLen payload hblock hid hlen hsize
    obtain ⟨n, hneeded, hlength⟩ := snCoapBuilder2_length h.sound h.not_reset hbuild
    obtain ⟨n', hneeded', hpos, hle⟩ := h.calcNeeded_withBlock hneeded hblock msgId hsize payload
    have hproxy := (((snCoapBuilder2_length_eq_iff h.sound hbuild).2.mp hcount).resolve_left
      h.not_reset).2.1
    refine (h.canonical_withBlock hblock hid hlen).conveyed ?_
      (closed_withBlock _ _ _ _ hoptions hetag) h.code h.not_reset ?_ hneeded' hpos (by omega)
    · exact {
        token := fun hnone => if_pos (Option.map_eq_none_iff.mp hnone)
        etag := fun options' hoptions' ptr hptr => by
          rw [← Option.some.inj hoptions', hkept] at hptr
          exact absurd (hetag.symm.trans hptr).symm (Option.some_ne_none ptr)
        payload := fun hnone => absurd hnone (Option.some_ne_none payload)
        block := .inl hsize }
    · intro options' hoptions' uri huri
      rw [← Option.some.inj hoptions', hkept] at huri
      exact hproxy options hoptions uri huri

/-! ## Messages of nothing but a block -/

/-- A message with a token, and with no other options than those for blocks. -/
structure Bare (msg : SnCoapHdr) (block1 block2 : Option Nat) : Prop where
  status : msg.coapStatus = .ok
  uriPath : msg.uriPath = none
  contentFormat : msg.contentFormat = none
  payload : msg.payloadPtr = none ∧ msg.payloadLen = 0
  options : msg.optionsList = some { block1, block2 }
  some_block : block1 ≠ none ∨ block2 ≠ none
  lt : ∀ value ∈ [block1, block2], ∀ v ∈ value, v < 2 ^ 24
  token : HasLength msg.tokenPtr msg.tokenLen ∧ msg.tokenLen ≤ 8
  msgId_lt : msg.msgId < 2 ^ 16
  code : msg.msgCode ∈ validCodes
  not_reset : msg.msgType ≠ .reset

namespace Bare

variable {msg : SnCoapHdr} {block1 block2 : Option Nat}

theorem read_options (h : Bare msg block1 block2) :
    msg.read.optionsList =
      some { block1 := block1.map readInt, block2 := block2.map readInt } := by
  rw [SnCoapHdr.read, h.options]
  rfl

theorem slotsOf_read (h : Bare msg block1 block2) {slot : Slot} (hslot : slot ∈ slotsOf msg.read) :
    slot.2 = none ∨ ∃ v ∈ [block1, block2], slot.2 = (v.map readInt).map uintOptionPayload ∧
      slot.1.format = .integer 3 := by
  have hpath : msg.read.uriPath = none := h.uriPath
  have hformat : msg.read.contentFormat = none := by
    rw [SnCoapHdr.read, h.contentFormat]
    rfl
  rw [slotsOf, SnCoapHdr.allocOptions, h.read_options, hpath, hformat] at hslot
  simp only [SnCoapOptionsList.firstSlots, SnCoapOptionsList.lastSlots, List.cons_append,
    List.nil_append, List.mem_cons, List.not_mem_nil, or_false] at hslot
  rcases hslot with rfl | rfl | rfl | rfl | rfl | rfl | rfl | rfl | rfl | rfl | rfl | rfl | rfl |
    rfl | rfl | rfl
  all_goals first
    | exact .inl rfl
    | exact .inr ⟨block2, by simp, rfl, rfl⟩
    | exact .inr ⟨block1, by simp, rfl, rfl⟩

theorem fieldsOf_read (h : Bare msg block1 block2) {f : Field} (hf : f ∈ fieldsOf msg.read) :
    f.Readable ∧ f.1.format ≠ .parts := by
  obtain ⟨⟨o, value⟩, hslot, hf⟩ := List.mem_flatMap.mp hf
  obtain ⟨octets, hoctets, rfl⟩ := List.mem_map.mp hf
  have hsome : value = some octets := Option.mem_toList.mp hoctets
  rcases h.slotsOf_read hslot with hnone | ⟨v, hv, hvalue, hformat⟩
  · exact absurd (hsome.symm.trans hnone) (Option.some_ne_none octets)
  have hformat' : o.format = .integer 3 := hformat
  refine ⟨?_, by rw [hformat']; exact Format.noConfusion⟩
  cases v with
  | none => exact absurd (hsome.symm.trans hvalue) (Option.some_ne_none octets)
  | some v =>
    obtain rfl : octets = uintOptionPayload (readInt v) :=
      Option.some.inj (hsome.symm.trans hvalue)
    unfold Field.Readable
    rw [hformat', uintOptionPayload_readInt]
    exact uintOptionPayload_length_of_lt (h.lt _ hv v rfl)

theorem canonical (h : Bare msg block1 block2) : Canonical msg.read := by
  have halloc : msg.read.allocOptions =
      { block1 := block1.map readInt, block2 := block2.map readInt } := by
    rw [SnCoapHdr.allocOptions, h.read_options]
    rfl
  have hformat : msg.read.contentFormat = none := by
    rw [SnCoapHdr.read, h.contentFormat]
    rfl
  have hint : ∀ value : Option Nat, ∀ v ∈ value.map readInt, v < 2 ^ 32 ∧ Compact v := by
    rintro (_ | value) v hv
    · exact absurd hv.symm (Option.some_ne_none v)
    · rw [← Option.some.inj hv]
      exact ⟨readInt_lt value, compact_readInt value⟩
  exact {
    status := h.status
    msgId_lt := h.msgId_lt
    token := h.token
    payload := by
      rw [SnCoapHdr.read, h.payload.1, h.payload.2]
      rfl
    optionsList := fun hempty => by
      have hoptions := Option.some.inj (h.read_options.symm.trans hempty)
      have hblock1 : block1.map readInt = none := congrArg SnCoapOptionsList.block1 hoptions
      have hblock2 : block2.map readInt = none := congrArg SnCoapOptionsList.block2 hoptions
      rw [Option.map_eq_none_iff] at hblock1 hblock2
      exact h.some_block.elim (fun hne => hne hblock1) (fun hne => hne hblock2)
    etag := by
      rw [halloc]
      exact ⟨rfl, fun hne => absurd rfl hne⟩
    size1 := fun _ => by rw [halloc]
    size2 := fun _ => by rw [halloc]
    uriPath := fun _ => h.uriPath
    integers := fun value hvalue v hv => by
      rw [integersOf, halloc, hformat] at hvalue
      simp only [List.mem_cons, List.not_mem_nil, or_false] at hvalue
      rcases hvalue with rfl | rfl | rfl | rfl | rfl | rfl | rfl | rfl | rfl
      case inr.inr.inr.inr.inr.inl => exact hint block2 v hv
      case inr.inr.inr.inr.inr.inr.inl => exact hint block1 v hv
      all_goals exact absurd hv.symm (Option.some_ne_none v)
    fields := fun _ hf => (h.fieldsOf_read hf).1
    head := fun _ hf hparts => absurd hparts (h.fieldsOf_read hf).2
    reset := fun hreset => absurd hreset h.not_reset }

theorem closed (h : Bare msg block1 block2) : Closed msg.read :=
  .inr fun _ hf => (h.fieldsOf_read (List.mem_of_getLast? hf)).2

theorem legible (h : Bare msg block1 block2) : Legible msg :=
  h.canonical.legible (fun _ => h.payload.2) h.closed

theorem calcNeeded_le (h : Bare msg block1 block2) (size : Nat) :
    ∃ n, calcNeeded msg size = some n ∧ 0 < n ∧ n ≤ 31 := by
  have hblock : ∀ value ∈ [block1, block2], ∃ n, calcUint value 0xffffff = some n ∧ n ≤ 5 := by
    intro value hvalue
    cases value with
    | none => exact ⟨0, rfl, by decide⟩
    | some v => exact calcUint_block (h.lt _ hvalue v rfl)
  obtain ⟨n₁, hn₁, hle₁⟩ := hblock block1 (by simp)
  obtain ⟨n₂, hn₂, hle₂⟩ := hblock block2 (by simp)
  have htoken : ∃ n, calcToken msg = some n ∧ n ≤ 8 := by
    obtain ⟨hlength, hle⟩ := h.token
    rw [calcToken]
    cases hptr : msg.tokenPtr with
    | none => exact ⟨0, rfl, by decide⟩
    | some token =>
      rw [hptr] at hlength
      have hpos := List.length_pos_iff.mpr hlength.1
      have hcount := hlength.2
      exact ⟨msg.tokenLen, if_neg (by omega), hle⟩
  obtain ⟨n₀, hn₀, hle₀⟩ := htoken
  have hpath : calcMultiple msg.uriPathSource .uriPath = some 0 := by
    rw [SnCoapHdr.uriPathSource, h.options, h.uriPath]
    rfl
  have hformat : calcUint msg.contentFormat 0xffff = some 0 := by
    rw [h.contentFormat]
    rfl
  have hoptions : calcOptions msg.optionsList = some (0 + 0 + 0 + 0 + 0 + 0 + 0 + 0 + 0 + 0 + n₁ +
      0 + n₂ + 0) := by
    rw [h.options, calcOptions, hn₁, hn₂]
    rfl
  have hjump := optionsCalculateJumpNeed_le msg
  have hpayload : calcPayload msg.payloadLen size = 0 := by
    rw [h.payload.2, calcPayload, if_neg (by omega)]
    rfl
  refine ⟨4 + n₀ + 0 + 0 + (0 + 0 + 0 + 0 + 0 + 0 + 0 + 0 + 0 + 0 + n₁ + 0 + n₂ + 0) +
    calcPayload msg.payloadLen size + optionsCalculateJumpNeed msg, ?_, by omega, by omega⟩
  rw [calcNeeded, if_neg h.not_reset]
  refine Option.bind_eq_some_iff.mpr ⟨n₀, hn₀, ?_⟩
  refine Option.bind_eq_some_iff.mpr ⟨0, hpath, ?_⟩
  refine Option.bind_eq_some_iff.mpr ⟨0, hformat, ?_⟩
  exact Option.bind_eq_some_iff.mpr ⟨_, hoptions, rfl⟩

/-- Such a message always arrives. -/
theorem conveyed (h : Bare msg block1 block2) (size : Nat) : Conveyed size msg msg.read := by
  obtain ⟨n, hneeded, hpos, hle⟩ := h.calcNeeded_le size
  have hlength := h.token.1
  refine h.canonical.conveyed ?_ h.closed h.code h.not_reset ?_ hneeded hpos (by omega)
  · exact {
      token := fun hnone => by rwa [hnone] at hlength
      etag := fun options hoptions ptr hptr => by
        rw [h.options] at hoptions
        rw [← Option.some.inj hoptions] at hptr
        exact absurd hptr.symm (Option.some_ne_none ptr)
      payload := fun _ => h.payload.2
      block := .inl (h.payload.2 ▸ Nat.zero_le size) }
  · intro options hoptions uri huri
    rw [h.options] at hoptions
    rw [← Option.some.inj hoptions] at huri
    exact absurd huri.symm (Option.some_ne_none uri)

end Bare

end LibCoap
end LightDuer
