import LightDuer.LibCoap.Protocol
import LightDuer.LibCoap.RoundTrip

/-!
# What the peer reads

A message is not always read as it was built. The octets that are zero are lost from its integers,
and a payload of no octets is none. What is read, `SnCoapHdr.read`, is built to the same packet.

## Why reading comes first

`Canonical` describes the messages that the parser can make, and the round trip is proved for these.
A message of the application need not be one: its integers may have zeros in the middle, its payload
may be longer than the length that is set. Instead of a second round trip for such messages there is
a function, `read`, that takes a message to what its packet says, and `snCoapBuilder2_read` says
that the packet does not change by it. With that, the round trip for any message is the one for
`msg.read`, of which it is asked that it is canonical.

`read` is idempotent where it matters: an integer that was read loses no octet when it is written
again (`compact_readInt`), and is written to the same ones (`uintOptionPayload_readInt`). Max-Age is
left as it is, since the value 60 is not written at all, and a value that is read as 60 would then
vanish from the packet.

## What is read of an integer

`readInt` is the number that the remaining octets stand for. It is never larger than the integer
(`readInt_le`), and an integer of two octets is read as itself unless its second octet is zero and
its first is not: then it is divided by 256 (`readInt_of_low`, `readInt_of_high`). This is what
becomes of the number of a block.
-/

set_option autoImplicit false

namespace LightDuer
namespace LibCoap

open Lib

/-! ## Integers -/

/-- An integer as it is read. -/
def readInt (v : Nat) : Nat := Options.ofOctets (uintOptionPayload v)

section Integers

variable {v : Nat}

theorem readInt_of_compact (h : v < 2 ^ 32) (hv : Compact v) : readInt v = v :=
  (ofOctets_uintOptionPayload_iff h).mpr hv

/-- The octets of an integer of two. -/
theorem be32_of_lt (h : v < 2 ^ 16) :
    be32 v = [0, 0, UInt8.ofNat (v / 2 ^ 8), UInt8.ofNat v] := by
  have h₃ : v / 2 ^ 24 = 0 := by omega
  have h₂ : v / 2 ^ 16 = 0 := by omega
  rw [be32, h₃, h₂]
  rfl

theorem ofNat_ne_zero {n : Nat} (h : n % 2 ^ 8 ≠ 0) : UInt8.ofNat n ≠ 0 := by
  intro heq
  have := congrArg UInt8.toNat heq
  rw [UInt8.toNat_ofNat', UInt8.toNat_zero] at this
  exact h this

theorem not_mem_dropWhile_of_low {high low : UInt8} (h : low ≠ 0) :
    0 ∉ [0, 0, high, low].dropWhile (· == 0) := by
  have hlow : (low == 0) = false := beq_eq_false_iff_ne.mpr h
  by_cases hhigh : high = 0
  · subst hhigh
    simp [List.dropWhile, hlow, h.symm]
  · have hbeq : (high == 0) = false := beq_eq_false_iff_ne.mpr hhigh
    simp [List.dropWhile, hbeq, Ne.symm hhigh, h.symm]

/-- **An integer of two octets** loses the second if it is zero. -/
theorem readInt_of_low (h : v < 2 ^ 16) (hlow : v % 2 ^ 8 ≠ 0) : readInt v = v := by
  refine readInt_of_compact (by omega) ?_
  rw [Compact, be32_of_lt h]
  exact not_mem_dropWhile_of_low (ofNat_ne_zero hlow)

theorem readInt_of_high (h : v < 2 ^ 8) : readInt (v * 2 ^ 8) = v := by
  by_cases hv : v = 0
  · subst hv
    rfl
  have hlt : v * 2 ^ 8 < 2 ^ 16 := by omega
  have hhigh : UInt8.ofNat (v * 2 ^ 8 / 2 ^ 8) ≠ 0 := ofNat_ne_zero (by omega)
  have hlow : UInt8.ofNat (v * 2 ^ 8) = 0 := by
    apply UInt8.toNat_inj.mp
    rw [UInt8.toNat_ofNat', UInt8.toNat_zero]
    omega
  have hoctets : uintOptionPayload (v * 2 ^ 8) = [UInt8.ofNat (v * 2 ^ 8 / 2 ^ 8)] := by
    rw [uintOptionPayload_eq (by omega), be32_of_lt hlt, hlow]
    generalize UInt8.ofNat (v * 2 ^ 8 / 2 ^ 8) = high at hhigh
    simp [hhigh]
  rw [readInt, hoctets]
  show 0 * 2 ^ 8 + (UInt8.ofNat (v * 2 ^ 8 / 2 ^ 8)).toNat = v
  rw [UInt8.toNat_ofNat']
  omega

theorem ofOctets_filter_le (l : List UInt8) :
    Options.ofOctets (l.filter (· != 0)) ≤ Options.ofOctets l := by
  induction l using List.reverseRecOn with
  | nil => exact Nat.le_refl 0
  | append_singleton l b ih =>
    rw [List.filter_append, Options.ofOctets_append_singleton]
    by_cases hb : b = 0
    · subst hb
      have hdrop : [(0 : UInt8)].filter (· != 0) = [] := rfl
      rw [hdrop, List.append_nil]
      omega
    · have hkeep : [b].filter (· != 0) = [b] := by simp [hb]
      rw [hkeep, Options.ofOctets_append_singleton]
      omega

theorem ofOctets_be32 (h : v < 2 ^ 32) : Options.ofOctets (be32 v) = v := by
  have hfour : Options.ofOctets (be32 v) = ofBe32 (be32 v) := by
    simp only [be32, ofBe32, Options.ofOctets, List.foldl_cons, List.foldl_nil]
    omega
  rw [hfour, ofBe32_be32 h]

theorem readInt_mod (v : Nat) : readInt (v % 2 ^ 32) = readInt v :=
  congrArg (fun w => Options.ofOctets (uintPayload 4 w)) (Nat.mod_mod v (2 ^ 32))

theorem readInt_le (v : Nat) : readInt v ≤ v % 2 ^ 32 := by
  have hlt : v % 2 ^ 32 < 2 ^ 32 := Nat.mod_lt _ (Nat.two_pow_pos 32)
  rw [← readInt_mod, readInt, uintOptionPayload_eq hlt]
  exact (ofOctets_filter_le _).trans (Nat.le_of_eq (ofOctets_be32 hlt))

theorem not_mem_uintOptionPayload (v : Nat) : 0 ∉ uintOptionPayload v := by
  have hlt : v % 2 ^ 32 < 2 ^ 32 := Nat.mod_lt _ (Nat.two_pow_pos 32)
  have hmod : uintOptionPayload v = uintOptionPayload (v % 2 ^ 32) :=
    congrArg (uintPayload 4) (Nat.mod_mod v (2 ^ 32)).symm
  rw [hmod, uintOptionPayload_eq hlt]
  intro hmem
  simpa using (List.mem_filter.mp hmem).2

theorem uintOptionPayload_head (v : Nat) : (uintOptionPayload v).head? ≠ some 0 :=
  fun hhead => not_mem_uintOptionPayload v (List.mem_of_head? hhead)

theorem readInt_lt (v : Nat) : readInt v < 2 ^ 32 :=
  (readInt_le v).trans_lt (Nat.mod_lt _ (Nat.two_pow_pos 32))

/-- Without the zeros in front the octets of an integer that was read are those it was read from.
-/
theorem dropWhile_be32_readInt (v : Nat) :
    (be32 (readInt v)).dropWhile (· == 0) = uintOptionPayload v := by
  refine Options.ofOctets_inj ?_ (uintOptionPayload_head v) ?_
  · intro hhead
    have hnot := List.head?_dropWhile_not (· == 0) (be32 (readInt v))
    rw [hhead] at hnot
    simp at hnot
  · rw [Options.ofOctets_dropWhile, ofOctets_be32 (readInt_lt v), readInt]

/-- An integer that was read loses no octet. -/
theorem compact_readInt (v : Nat) : Compact (readInt v) := by
  rw [Compact, dropWhile_be32_readInt]
  exact not_mem_uintOptionPayload v

/-- An integer that was read is written to the same octets. -/
theorem uintOptionPayload_readInt (v : Nat) :
    uintOptionPayload (readInt v) = uintOptionPayload v :=
  Options.ofOctets_inj (uintOptionPayload_head _) (uintOptionPayload_head v)
    (readInt_of_compact (readInt_lt v) (compact_readInt v))

end Integers

/-! ## Messages -/

/-- The integers as they are read, but for a Max-Age, which may become the one that is not written.
-/
def SnCoapOptionsList.read (options : SnCoapOptionsList) : SnCoapOptionsList :=
  { options with
    accept := options.accept.map readInt
    uriPort := options.uriPort.map readInt
    observe := options.observe.map readInt
    block1 := options.block1.map readInt
    block2 := options.block2.map readInt
    size1 := if options.useSize1 then readInt options.size1 else 0
    size2 := if options.useSize2 then readInt options.size2 else 0 }

/-- The message as the peer reads it. -/
def SnCoapHdr.read (msg : SnCoapHdr) : SnCoapHdr :=
  { msg with
    contentFormat := msg.contentFormat.map readInt
    payloadLen := if msg.payloadPtr = none then 0 else msg.payloadLen
    payloadPtr := if msg.payloadLen = 0 then none else msg.payloadPtr.map (·.take msg.payloadLen)
    optionsList := msg.optionsList.map (·.read) }

section Built

variable {options : SnCoapOptionsList} {msg : SnCoapHdr}

@[simp] theorem SnCoapOptionsList.read_size1Option :
    options.read.size1Option = options.size1Option.map readInt := by
  unfold read size1Option
  cases options.useSize1 <;> rfl

@[simp] theorem SnCoapOptionsList.read_size2Option :
    options.read.size2Option = options.size2Option.map readInt := by
  unfold read size2Option
  cases options.useSize2 <;> rfl

theorem optionsBuildAddUintOption_readInt (w : Writer) (value : Option Nat) (o : CoapOption) :
    optionsBuildAddUintOption w (value.map readInt) o = optionsBuildAddUintOption w value o := by
  cases value with
  | none => rfl
  | some v =>
    simp only [optionsBuildAddUintOption, Option.map_some, uintOptionPayload_readInt]

theorem calcUint_readInt {value : Option Nat} {max n : Nat} (h : calcUint value max = some n) :
    calcUint (value.map readInt) max = some n := by
  cases value with
  | none => exact h
  | some v =>
    simp only [calcUint, Option.map_some, uintOptionPayload_readInt] at h ⊢
    by_cases hlt : max < v
    · rw [if_pos hlt] at h
      exact absurd h.symm (Option.some_ne_none n)
    · have hle := (readInt_le v).trans (Nat.mod_le v _)
      rw [if_neg hlt] at h
      rw [if_neg (by omega)]
      exact h

theorem optionsBuildFirst_read (w : Writer) (o : Option SnCoapOptionsList) :
    optionsBuildFirst w (o.map (·.read)) = optionsBuildFirst w o := by
  cases o with
  | none => rfl
  | some options =>
    have hobserve : options.read.observe = options.observe.map readInt := rfl
    have huriPort : options.read.uriPort = options.uriPort.map readInt := rfl
    simp only [Option.map_some, optionsBuildFirst, hobserve, huriPort,
      optionsBuildAddUintOption_readInt]
    rfl

theorem optionsBuildLast_read (w : Writer) (o : Option SnCoapOptionsList) :
    optionsBuildLast w (o.map (·.read)) = optionsBuildLast w o := by
  cases o with
  | none => rfl
  | some options =>
    have haccept : options.read.accept = options.accept.map readInt := rfl
    have hblock1 : options.read.block1 = options.block1.map readInt := rfl
    have hblock2 : options.read.block2 = options.block2.map readInt := rfl
    simp only [Option.map_some, optionsBuildLast, haccept, hblock1, hblock2,
      SnCoapOptionsList.read_size1Option, SnCoapOptionsList.read_size2Option,
      optionsBuildAddUintOption_readInt]
    rfl

theorem uriPathSource_read (msg : SnCoapHdr) : msg.read.uriPathSource = msg.uriPathSource := by
  simp only [SnCoapHdr.uriPathSource, SnCoapHdr.read]
  cases msg.optionsList with
  | none => rfl
  | some options => simp only [Option.map_some, SnCoapOptionsList.read, Option.map_eq_none_iff]

theorem optionsBuild_read (packet : List UInt8) (msg : SnCoapHdr) :
    optionsBuild packet msg.read = optionsBuild packet msg := by
  have hnone : msg.optionsList.map (·.read) = none ↔ msg.optionsList = none := by
    cases msg.optionsList <;> simp
  have hpath := uriPathSource_read msg
  have htoken : tokenBuild msg.read = tokenBuild msg := rfl
  have hlist : msg.read.optionsList = msg.optionsList.map (·.read) := rfl
  have hformat : msg.read.contentFormat = msg.contentFormat.map readInt := rfl
  rw [optionsBuild, optionsBuild, hlist, htoken, hpath, hformat]
  simp only [hnone, optionsBuildFirst_read, optionsBuildLast_read, Option.map_eq_none_iff,
    optionsBuildAddUintOption_readInt]
  rfl

theorem payloadBuild_read (packet : List UInt8) (msg : SnCoapHdr) :
    payloadBuild packet msg.read = payloadBuild packet msg := by
  rcases hptr : msg.payloadPtr with _ | octets
  · simp only [payloadBuild, SnCoapHdr.read, hptr, Option.map_none, ite_self]
  · by_cases hlen : msg.payloadLen = 0
    · simp [payloadBuild, SnCoapHdr.read, hptr, hlen]
    · simp [payloadBuild, SnCoapHdr.read, hptr, hlen, readOctets, List.take_take]

theorem optionsCalculateJumpNeed_read (msg : SnCoapHdr) :
    optionsCalculateJumpNeed msg.read = optionsCalculateJumpNeed msg := by
  simp only [optionsCalculateJumpNeed, SnCoapHdr.read]
  cases msg.optionsList with
  | none => rfl
  | some options =>
    have hhigh : jumpHigh options.read = jumpHigh options := by
      simp only [jumpHigh, SnCoapOptionsList.read, Option.isSome_map]
      rfl
    have hlow : jumpLow msg.read options.read = jumpLow msg options := by
      simp only [jumpLow, SnCoapHdr.read, SnCoapOptionsList.read, Option.isSome_map]
    simp only [Option.map_some, hhigh, ← hlow]
    rfl

theorem calcOptions_read {o : Option SnCoapOptionsList} {n : Nat} (h : calcOptions o = some n) :
    calcOptions (o.map (·.read)) = some n := by
  cases o with
  | none => exact h
  | some options =>
    rw [calcOptions] at h
    obtain ⟨accept, haccept, h⟩ := Option.bind_eq_some_iff.mp h
    obtain ⟨maxAge, hmaxAge, h⟩ := Option.bind_eq_some_iff.mp h
    obtain ⟨proxyUri, hproxyUri, h⟩ := Option.bind_eq_some_iff.mp h
    obtain ⟨etag, hetag, h⟩ := Option.bind_eq_some_iff.mp h
    obtain ⟨uriHost, huriHost, h⟩ := Option.bind_eq_some_iff.mp h
    obtain ⟨locationPath, hlocationPath, h⟩ := Option.bind_eq_some_iff.mp h
    obtain ⟨uriPort, huriPort, h⟩ := Option.bind_eq_some_iff.mp h
    obtain ⟨locationQuery, hlocationQuery, h⟩ := Option.bind_eq_some_iff.mp h
    obtain ⟨observe, hobserve, h⟩ := Option.bind_eq_some_iff.mp h
    obtain ⟨uriQuery, huriQuery, h⟩ := Option.bind_eq_some_iff.mp h
    obtain ⟨block1, hblock1, h⟩ := Option.bind_eq_some_iff.mp h
    obtain ⟨size1, hsize1, h⟩ := Option.bind_eq_some_iff.mp h
    obtain ⟨block2, hblock2, h⟩ := Option.bind_eq_some_iff.mp h
    obtain ⟨size2, hsize2, h⟩ := Option.bind_eq_some_iff.mp h
    have haccept' : calcUint options.read.accept 0xffff = some accept := calcUint_readInt haccept
    have huriPort' : calcUint options.read.uriPort 0xffff = some uriPort :=
      calcUint_readInt huriPort
    have hobserve' : calcUint options.read.observe 0xffffff = some observe :=
      calcUint_readInt hobserve
    have hblock1' : calcUint options.read.block1 0xffffff = some block1 := calcUint_readInt hblock1
    have hblock2' : calcUint options.read.block2 0xffffff = some block2 := calcUint_readInt hblock2
    have hsize1' := calcUint_readInt hsize1
    have hsize2' := calcUint_readInt hsize2
    rw [← SnCoapOptionsList.read_size1Option] at hsize1'
    rw [← SnCoapOptionsList.read_size2Option] at hsize2'
    refine Option.bind_eq_some_iff.mpr ⟨accept, haccept', ?_⟩
    refine Option.bind_eq_some_iff.mpr ⟨maxAge, hmaxAge, ?_⟩
    refine Option.bind_eq_some_iff.mpr ⟨proxyUri, hproxyUri, ?_⟩
    refine Option.bind_eq_some_iff.mpr ⟨etag, hetag, ?_⟩
    refine Option.bind_eq_some_iff.mpr ⟨uriHost, huriHost, ?_⟩
    refine Option.bind_eq_some_iff.mpr ⟨locationPath, hlocationPath, ?_⟩
    refine Option.bind_eq_some_iff.mpr ⟨uriPort, huriPort', ?_⟩
    refine Option.bind_eq_some_iff.mpr ⟨locationQuery, hlocationQuery, ?_⟩
    refine Option.bind_eq_some_iff.mpr ⟨observe, hobserve', ?_⟩
    refine Option.bind_eq_some_iff.mpr ⟨uriQuery, huriQuery, ?_⟩
    refine Option.bind_eq_some_iff.mpr ⟨block1, hblock1', ?_⟩
    refine Option.bind_eq_some_iff.mpr ⟨size1, hsize1', ?_⟩
    refine Option.bind_eq_some_iff.mpr ⟨block2, hblock2', ?_⟩
    exact Option.bind_eq_some_iff.mpr ⟨size2, hsize2', h⟩

theorem calcNeeded_read (hptr : msg.payloadPtr = none → msg.payloadLen = 0) {size n : Nat}
    (h : calcNeeded msg size = some n) : calcNeeded msg.read size = some n := by
  have hlen : msg.read.payloadLen = msg.payloadLen := by
    by_cases hnone : msg.payloadPtr = none
    · simp only [SnCoapHdr.read, if_pos hnone, hptr hnone]
    · simp only [SnCoapHdr.read, if_neg hnone]
  have htype : msg.read.msgType = msg.msgType := rfl
  rw [calcNeeded] at h ⊢
  by_cases hreset : msg.msgType = .reset
  · rw [if_pos hreset] at h
    rw [htype, if_pos hreset]
    exact h
  rw [if_neg hreset] at h
  rw [htype, if_neg hreset, uriPathSource_read, hlen, optionsCalculateJumpNeed_read]
  obtain ⟨token, htoken, h⟩ := Option.bind_eq_some_iff.mp h
  obtain ⟨uriPath, huriPath, h⟩ := Option.bind_eq_some_iff.mp h
  obtain ⟨format, hformat, h⟩ := Option.bind_eq_some_iff.mp h
  obtain ⟨options, hoptions, h⟩ := Option.bind_eq_some_iff.mp h
  refine Option.bind_eq_some_iff.mpr ⟨token, htoken, ?_⟩
  refine Option.bind_eq_some_iff.mpr ⟨uriPath, huriPath, ?_⟩
  refine Option.bind_eq_some_iff.mpr ⟨format, calcUint_readInt hformat, ?_⟩
  exact Option.bind_eq_some_iff.mpr ⟨options, calcOptions_read hoptions, h⟩

/-- **The message that is read is built to the same packet.** So of what a sender gives the builder
    nothing goes over the wire but what the peer reads. -/
theorem snCoapBuilder2_read (hptr : msg.payloadPtr = none → msg.payloadLen = 0) {size : Nat}
    {p : List UInt8} (h : snCoapBuilder2 msg size = some (.ok p)) :
    snCoapBuilder2 msg.read size = some (.ok p) := by
  have hheader : headerBuild msg.read = headerBuild msg := rfl
  have htype : msg.read.msgType = msg.msgType := rfl
  rw [snCoapBuilder2] at h ⊢
  have hneeded : snCoapBuilderCalcNeededPacketDataSize2 msg.read size =
      snCoapBuilderCalcNeededPacketDataSize2 msg size := by
    rw [snCoapBuilderCalcNeededPacketDataSize2, snCoapBuilderCalcNeededPacketDataSize2]
    cases hcalc : calcNeeded msg size with
    | none =>
      rw [snCoapBuilderCalcNeededPacketDataSize2, hcalc] at h
      have hfailed : some (Except.error (-1)) = some (Except.ok p) := h
      cases hfailed
    | some n => rw [calcNeeded_read hptr hcalc]
  rw [hneeded, hheader, htype]
  simp only [optionsBuild_read, payloadBuild_read]
  exact h

/-- **What is built is parsed** to the message as the peer reads it, where that is one that the
    parser can make; but where the packet ends with a string whose head is extended, some octets
    behind the packet make it fail. -/
theorem snCoapParser_read (hptr : msg.payloadPtr = none → msg.payloadLen = 0)
    (hm : Canonical msg.read) {size : Nat} {p : List UInt8}
    (hbuild : snCoapBuilder2 msg size = some (.ok p)) {packet : Packet}
    (hlen : packet.len = p.length) (hmem : Holds packet.mem 0 p) :
    Settles packet.snCoapParser (some (coapVersion1,
      if msg.read.payloadPtr ≠ none ∨
          TailEnds (packet.mem packet.len).toNat 0 (fieldsOf msg.read) then msg.read
      else packet.parserError)) :=
  hm.parsed (snCoapBuilder2_read hptr hbuild) hlen hmem

end Built

/-- A GET with a Uri-Path of thirteen octets. -/
def getOfLongPath : SnCoapHdr where
  msgCode := 1
  msgId := 0x1234
  uriPath := some (List.replicate 13 97)

/-- Its Uri-Path is at the end of the packet, and behind it is what is no head. -/
theorem snCoapParser_read_behind :
    let packet := Packet.ofList ([0x40, 1, 0x12, 0x34, 0xbd, 0] ++ List.replicate 13 97) 0x0f
      (by decide) (by decide)
    Settles packet.snCoapParser (some (coapVersion1, packet.parserError)) := by
  have hm : Canonical getOfLongPath.read := by decide +kernel
  have hbuild : snCoapBuilder2 getOfLongPath 1024 =
      some (.ok ([0x40, 1, 0x12, 0x34, 0xbd, 0] ++ List.replicate 13 97)) := by
    decide +kernel
  intro packet
  have hends : ¬(getOfLongPath.read.payloadPtr ≠ none ∨
      TailEnds (packet.mem packet.len).toNat 0 (fieldsOf getOfLongPath.read)) := by
    decide +kernel
  have hsettles := snCoapParser_read (by decide) hm hbuild (show packet.len = _ from rfl)
    (Packet.holds_ofList _ _ _ _)
  rwa [if_neg hends] at hsettles

end LibCoap
end LightDuer
