import LightDuer.LibCoap.Layout
import Mathlib.Algebra.Order.BigOperators.Group.List

/-!
# As many octets as were counted

The caller of `sn_coap_builder_2` allocates as many octets as
`sn_coap_builder_calc_needed_packet_data_size_2` counts, and sends as many. The two do not always
agree: a Proxy-Uri of 269 octets has one more octet in its head than is counted, and a notification,
whose Uri-Path is not written, may need one more in front of an option that is far from the one
before.

## How the comparison is made

Both functions go through the options in the same order, but the count of the heads is split: what
an option needs by its length is added where the option is counted, and what it needs by the
distance to the one before is added at the end, by `sn_coap_builder_options_calculate_jump_need`,
which goes through all of them once more. `Options.encode_length` splits the length of what is
written in the same way, into the sizes of the options as if each stood behind one of the same
number, and the gaps.

The first part is compared option by option: `Counted` says of a group of options that its size is
what is counted, and that it is written exactly where the count takes it for used. All groups are
`Counted` but the Proxy-Uri, whose missed octet is carried along. For the gaps only the numbers
matter, so `lowOptions_cases` checks by evaluation, for which of the options up to Content-Format
are used, what the path that is counted and not written does to the last of their numbers;
`JumpMissed` is the one case in which it shows.

`SnCoapHdr.Sound` is what the comparison needs of the message: lengths that are those of what is
there, and no more of a payload than a block. Without the last the builder is called with a payload
that it writes whole and counts by a block.
-/

set_option autoImplicit false

namespace LightDuer
namespace LibCoap

open Lib

/-! ## The size of the groups -/

namespace Group

def size (g : Group) : Nat := ((g.2.getD []).map Options.valueSize).sum

def present (g : Group) : Bool := g.2.getD [] != []

end Group

/-- The numbers of the options that are written. -/
def presentNumbers (gs : List Group) : List Nat := (gs.filter Group.present).map (·.1.number)

theorem optionsOfGroups_size {gs : List Group} {os : List (Nat × List UInt8)}
    (h : optionsOfGroups gs = some os) :
    (os.map fun o => Options.valueSize o.2).sum = (gs.map Group.size).sum ∧
      ∀ prev, Options.gaps prev (os.map (·.1)) = Options.gaps prev (presentNumbers gs) := by
  induction gs generalizing os with
  | nil =>
    obtain rfl := Option.some.inj h
    exact ⟨rfl, fun _ => rfl⟩
  | cons g gs ih =>
    obtain ⟨o, parts⟩ := g
    cases parts with
    | none => exact absurd h (by simp [optionsOfGroups, Group.options])
    | some parts =>
      obtain ⟨os', hrest, hos⟩ := Option.bind_eq_some_iff.mp h
      obtain rfl := Option.some.inj hos
      obtain ⟨hsize, hgaps⟩ := ih hrest
      constructor
      · rw [List.map_append, List.sum_append, hsize, List.map_cons, List.sum_cons, List.map_map]
        rfl
      · intro prev
        have hnumbers : (parts.map (o.number, ·)).map (·.1) =
            List.replicate parts.length o.number := by
          rw [List.map_map]
          exact List.map_const' ..
        show Options.gaps prev (((parts.map (o.number, ·)) ++ os').map (·.1)) = _
        rw [List.map_append, hnumbers]
        cases parts with
        | nil => exact hgaps prev
        | cons part parts =>
          rw [List.length_cons, Options.gaps_replicate, Options.gaps, hgaps]
          rfl

theorem isSome_of_optionsOfGroups {gs : List Group} {os : List (Nat × List UInt8)}
    (h : optionsOfGroups gs = some os) : ∀ g ∈ gs, g.2.isSome := by
  induction gs generalizing os with
  | nil => simp
  | cons g gs ih =>
    obtain ⟨os', hos', hos⟩ := Option.bind_eq_some_iff.mp h
    obtain ⟨os'', hrest, -⟩ := Option.bind_eq_some_iff.mp hos
    intro g' hg'
    rcases List.mem_cons.mp hg' with rfl | hg'
    · obtain ⟨parts, hparts, -⟩ := Option.map_eq_some_iff.mp hos'
      rw [hparts]
      rfl
    · exact ih hrest g' hg'

/-! ## What is counted for a group -/

/-- The count for the option agrees with what is written, and with whether it is used. Both are said
    only where there is a count: where a check fails there is none, and no packet is built. -/
structure Counted (g : Group) (count : Option Nat) (used : Bool) : Prop where
  size : ∀ c ∈ count, g.size = c
  present : ∀ _c ∈ count, g.present = used

theorem counted_uint (o : CoapOption) (value : Option Nat) (max : Nat) :
    Counted (.ofUint o value) (calcUint value max) value.isSome := by
  cases value with
  | none => exact ⟨fun c hc => by simpa [calcUint, Group.ofUint, Group.ofOne, Group.size] using hc,
      fun _ _ => rfl⟩
  | some v =>
    refine ⟨fun c hc => ?_, fun _ _ => rfl⟩
    have hle := uintOptionPayload_length_le v
    rw [calcUint] at hc
    split at hc
    · exact absurd hc (by simp)
    · have hext : (Options.extension (uintOptionPayload v).length).length = 0 := by
        rw [Options.extension_of_lt (by omega)]
        rfl
      obtain rfl := Option.some.inj hc
      show Options.valueSize (uintOptionPayload v) + 0 = _
      rw [Options.valueSize, hext, Nat.add_zero]

theorem valueSize_of_le {value : List UInt8} (h : value.length ≤ 12) :
    Options.valueSize value = 1 + value.length := by
  rw [Options.valueSize, Options.extension_of_lt (by omega)]
  rfl

theorem valueSize_of_lt {value : List UInt8} (h : 13 ≤ value.length) (h' : value.length < 269) :
    Options.valueSize value = 2 + value.length := by
  rw [Options.valueSize, Options.extension_of_ge h h']
  rfl

theorem counted_uriHost (src : Option (List UInt8)) :
    Counted (.ofOne .uriHost src) (calcUriHost src) src.isSome := by
  cases src with
  | none => exact ⟨fun c hc => Option.some.inj hc, fun _ _ => rfl⟩
  | some host =>
    refine ⟨fun c hc => ?_, fun _ _ => rfl⟩
    show Options.valueSize host + 0 = c
    rw [calcUriHost] at hc
    split at hc
    · rw [valueSize_of_le (by omega)]
      exact Option.some.inj hc
    · split at hc
      · rw [valueSize_of_lt (by omega) (by omega)]
        exact Option.some.inj hc
      · exact absurd hc (by simp)

/-- A Proxy-Uri of 269 octets is counted with one octet for its length, and written with two. -/
def proxyUriMissed (src : Option (List UInt8)) : Nat :=
  src.elim 0 fun uri => if uri.length = 269 then 1 else 0

theorem size_proxyUri (src : Option (List UInt8)) :
    ∀ c ∈ calcProxyUri src,
      Group.size (.ofOne .proxyUri src) = c + proxyUriMissed src := by
  cases src with
  | none =>
    intro c hc
    exact Option.some.inj hc
  | some uri =>
    intro c hc
    show Options.valueSize uri + 0 = c + if uri.length = 269 then 1 else 0
    rw [calcProxyUri] at hc
    split at hc
    · obtain rfl := Option.some.inj hc
      rw [valueSize_of_le (by omega), if_neg (by omega)]
    split at hc
    · obtain rfl := Option.some.inj hc
      rcases Nat.lt_or_ge uri.length 269 with hlt | hge
      · rw [valueSize_of_lt (by omega) hlt, if_neg (by omega)]
      · rw [Options.valueSize, Options.extension_length, if_neg (by omega), if_neg (by omega),
          if_pos (by omega)]
        omega
    split at hc
    · obtain rfl := Option.some.inj hc
      rw [Options.valueSize, Options.extension_length, if_neg (by omega), if_neg (by omega),
        if_neg (by omega)]
    · exact absurd hc (by simp)

/-! ### Strings of several parts -/

/-- The parts are as long as they are counted. -/
theorem length_of_mapM {query : List UInt8} {o : CoapOption} {is : List Nat}
    {parts : List (List UInt8)} (h : is.mapM (optionPart query o) = some parts) :
    parts.map List.length = is.map fun i => optionsGetOptionPartLength query i o := by
  induction is generalizing parts with
  | nil =>
    obtain rfl := Option.some.inj h
    rfl
  | cons i is ih =>
    rw [List.mapM_cons] at h
    obtain ⟨part, hpart, h⟩ := Option.bind_eq_some_iff.mp h
    obtain ⟨rest, hrest, h⟩ := Option.bind_eq_some_iff.mp h
    obtain rfl := Option.some.inj h
    rw [List.map_cons, List.map_cons, ih hrest]
    rw [optionPart, readOctets] at hpart
    split at hpart
    · obtain rfl := Option.some.inj hpart
      rw [List.length_take, List.length_drop, Nat.min_eq_left (by omega)]
    · exact absurd hpart (by simp)

theorem partSize_eq {part : List UInt8} (h : part.length ≤ 255) :
    partSize part.length = Options.valueSize part := by
  rw [partSize]
  split
  · rw [valueSize_of_le (by omega)]
  · rw [if_pos (by omega), valueSize_of_lt (by omega) (by omega)]

theorem length_le_of_partLengthOk {o : CoapOption} {len : Nat} (ho : o.repeatable = true)
    (h : partLengthOk o len = true) : len ≤ 255 := by
  cases o <;> simp [CoapOption.repeatable, partLengthOk] at ho h <;> omega

theorem counted_multiple {o : CoapOption} (ho : o.repeatable = true) {src : Option (List UInt8)}
    (h : (partsOf src o).isSome) :
    Counted (.ofMultiple o src) (calcMultiple src o) src.isSome := by
  cases src with
  | none => exact ⟨fun c hc => Option.some.inj hc, fun _ _ => rfl⟩
  | some query =>
    obtain ⟨parts, hparts⟩ := Option.isSome_iff_exists.mp h
    have hlengths := length_of_mapM hparts
    have hcount : parts.length < 2 ^ 8 := by
      have hlen := congrArg List.length hlengths
      rw [List.length_map, List.length_map, List.length_range] at hlen
      rw [hlen]
      exact Nat.mod_lt _ (by decide)
    have hgroup : Group.ofMultiple o (some query) = (o, some parts) := Prod.ext rfl hparts
    -- the sum does not leave its sixteen bits: 255 parts of 257 octets
    have hsum : optionsCalcOptionSize query o ≠ 0 →
        optionsCalcOptionSize query o = (parts.map Options.valueSize).sum := by
      intro hne
      simp only [optionsCalcOptionSize, ← hlengths, List.map_map] at hne ⊢
      split at hne
      · next hall =>
        have hok : ∀ part ∈ parts, part.length ≤ 255 := fun part hpart =>
          length_le_of_partLengthOk ho
            (List.all_eq_true.mp hall _ (List.mem_map_of_mem hpart))
        have hsizes : parts.map (partSize ∘ List.length) = parts.map Options.valueSize :=
          List.map_congr_left fun part hpart => partSize_eq (hok part hpart)
        have hpart : ∀ part ∈ parts, Options.valueSize part ≤ 257 := fun part hpart => by
          have hle := hok part hpart
          rcases Nat.lt_or_ge part.length 13 with hlt | hge
          · rw [valueSize_of_le (by omega)]
            omega
          · rw [valueSize_of_lt hge (by omega)]
            omega
        have hbound : (parts.map Options.valueSize).sum ≤ parts.length * 257 := by
          have hle := List.sum_le_card_nsmul (parts.map Options.valueSize) 257
            (List.forall_mem_map.mpr hpart)
          rw [List.length_map] at hle
          exact hle
        rw [if_pos hall, hsizes, Nat.mod_eq_of_lt (by omega)]
      · exact absurd rfl hne
    rw [hgroup]
    constructor
    · intro c hc
      rw [calcMultiple] at hc
      split at hc
      · exact absurd hc (by simp)
      · next hne =>
        obtain rfl := Option.some.inj hc
        exact (hsum hne).symm
    · intro c hc
      rw [calcMultiple] at hc
      split at hc
      · exact absurd hc (by simp)
      · next hne =>
        cases parts with
        | nil => exact absurd (hsum hne) hne
        | cons part parts => rfl

/-! ## The numbers that are far from the one before -/

section Jumps

theorem presentNumbers_append (gs gs' : List Group) :
    presentNumbers (gs ++ gs') = presentNumbers gs ++ presentNumbers gs' := by
  simp [presentNumbers]

/-- The numbers of the options that are marked as used. -/
def usedNumbers (options : List (Bool × CoapOption)) : List Nat :=
  (options.filter (·.1)).map (·.2.number)

theorem presentNumbers_eq {gs : List Group} {options : List (Bool × CoapOption)}
    (h : gs.map (fun g => (g.present, g.1)) = options) :
    presentNumbers gs = usedNumbers options := by
  rw [← h, presentNumbers, usedNumbers, List.filter_map, List.map_map]
  rfl

theorem extension_length_of_lt {n : Nat} (h : n < 269) :
    (Options.extension n).length = if 12 < n then 1 else 0 := by
  rw [Options.extension_length, if_pos h]
  rcases Nat.lt_or_ge n 13 with hn | hn
  · rw [if_pos hn, if_neg (by omega)]
  · rw [if_neg (by omega), if_pos (by omega)]

theorem foldl_jumpOver (options : List (Bool × CoapOption)) (prev need : Nat) :
    (options.foldl jumpOver (prev, need)).2 = need + Options.gaps prev (usedNumbers options) := by
  induction options generalizing prev need with
  | nil => rfl
  | cons o options ih =>
    obtain ⟨used, o⟩ := o
    cases used with
    | false => exact ih prev need
    | true =>
      have hext := extension_length_of_lt (n := o.number - prev) (by have := o.number_le; omega)
      have htail := ih o.number (need + if 12 < o.number - prev then 1 else 0)
      rw [← hext] at htail
      rw [List.foldl_cons]
      refine Eq.trans ?_ (htail.trans (Nat.add_assoc ..))
      rw [hext]
      rfl

/-- The options up to Content-Format, by which of them are used. -/
def lowOptions (uriHost etag observe uriPort locationPath uriPath contentFormat : Bool) :
    List (Bool × CoapOption) :=
  [(uriHost, .uriHost), (etag, .etag), (observe, .observe), (uriPort, .uriPort),
    (locationPath, .locationPath), (uriPath, .uriPath), (contentFormat, .contentFormat)]

/-- The number of the last option that is used. -/
def lastUsed (options : List (Bool × CoapOption)) : Nat := (usedNumbers options).getLast?.getD 0

/-- They are small, and a Uri-Path that is not written shows only where it would be the last. -/
theorem lowOptions_cases :
    ∀ uriHost etag observe uriPort locationPath uriPath contentFormat : Bool,
    lastUsed (lowOptions uriHost etag observe uriPort locationPath (uriPath && !observe)
          contentFormat) =
        lastUsed (lowOptions uriHost etag observe uriPort locationPath uriPath contentFormat) ∧
      ¬(observe ∧ uriPath ∧ contentFormat = false) ∨
    (observe ∧ uriPath ∧ contentFormat = false) ∧
      lastUsed (lowOptions uriHost etag observe uriPort locationPath (uriPath && !observe)
          contentFormat) = (if locationPath then 8 else if uriPort then 7 else 6) ∧
      lastUsed (lowOptions uriHost etag observe uriPort locationPath uriPath contentFormat) =
        11 := by
  decide

theorem usedNumbers_lowOptions_lt :
    ∀ uriHost etag observe uriPort locationPath uriPath contentFormat : Bool,
    ∀ n ∈ usedNumbers (lowOptions uriHost etag observe uriPort locationPath uriPath contentFormat),
      n < 13 := by
  decide

/-- Those of a message, with a Uri-Path or without. -/
def SnCoapHdr.low (msg : SnCoapHdr) (options : SnCoapOptionsList) (uriPath : Bool) :
    List (Bool × CoapOption) :=
  lowOptions options.uriHost.isSome options.etagPtr.isSome options.observe.isSome
    options.uriPort.isSome options.locationPath.isSome uriPath msg.contentFormat.isSome

/-- The number of the last option in front of a Uri-Path, in a notification. -/
def SnCoapOptionsList.beforePath (options : SnCoapOptionsList) : Nat :=
  if options.locationPath.isSome then 8 else if options.uriPort.isSome then 7 else 6

/-- A notification whose Uri-Path, which is not written, is taken for the option in front of one
    that is far from the option that is written in front of it. The jump is counted from the number
    of the Uri-Path, 11, and is made from that of an option further down, so that a difference above
    12 is taken for a smaller one and its octet is missed. -/
def JumpMissed (msg : SnCoapHdr) : Prop :=
  ∃ options ∈ msg.optionsList, options.observe.isSome ∧ msg.uriPath.isSome ∧
    msg.contentFormat = none ∧ ∃ n ∈ (usedNumbers (jumpHigh options)).head?,
      options.beforePath + 12 < n ∧ n ≤ 23

instance (msg : SnCoapHdr) : Decidable (JumpMissed msg) :=
  inferInstanceAs (Decidable (∃ _options ∈ msg.optionsList, _))

theorem uriPathSource_isSome {msg : SnCoapHdr} {options : SnCoapOptionsList}
    (h : msg.optionsList = some options) :
    msg.uriPathSource.isSome = (msg.uriPath.isSome && !options.observe.isSome) := by
  rw [SnCoapHdr.uriPathSource, h]
  cases hobserve : options.observe <;> simp [hobserve]

/-- The jump that is not counted. -/
theorem gaps_low {msg : SnCoapHdr} {options : SnCoapOptionsList}
    (h : msg.optionsList = some options) :
    Options.gaps (lastUsed (msg.low options msg.uriPathSource.isSome))
        (usedNumbers (jumpHigh options)) =
      Options.gaps (lastUsed (msg.low options msg.uriPath.isSome))
        (usedNumbers (jumpHigh options)) + if JumpMissed msg then 1 else 0 := by
  have hmissed : JumpMissed msg ↔ (options.observe.isSome ∧ msg.uriPath.isSome ∧
      msg.contentFormat.isSome = false) ∧ ∃ n ∈ (usedNumbers (jumpHigh options)).head?,
        options.beforePath + 12 < n ∧ n ≤ 23 := by
    simp [JumpMissed, h, and_assoc]
  have hnumbers : ∀ n ∈ usedNumbers (jumpHigh options), 14 ≤ n ∧ n ≤ 60 := by
    intro n hn
    obtain ⟨o, ho, rfl⟩ := List.mem_map.mp hn
    have hlow : ∀ o ∈ (jumpHigh options).map (·.2), 14 ≤ o.number :=
      show ∀ o ∈ [CoapOption.maxAge, .uriQuery, .accept, .locationQuery, .block2, .block1, .size2,
        .proxyUri, .size1], 14 ≤ o.number by decide
    exact ⟨hlow _ (List.mem_map_of_mem (List.mem_filter.mp ho).1), o.2.number_le⟩
  rw [uriPathSource_isSome h]
  rcases lowOptions_cases options.uriHost.isSome options.etagPtr.isSome options.observe.isSome
    options.uriPort.isSome options.locationPath.isSome msg.uriPath.isSome
    msg.contentFormat.isSome with ⟨heq, hno⟩ | ⟨hyes, hwritten, hcounted⟩
  · rw [SnCoapHdr.low, SnCoapHdr.low, heq, if_neg (fun hm => hno (hmissed.mp hm).1)]
    rfl
  · rw [SnCoapHdr.low, SnCoapHdr.low, hwritten, hcounted, ← SnCoapOptionsList.beforePath]
    have hle : 6 ≤ options.beforePath ∧ options.beforePath ≤ 8 := by
      unfold SnCoapOptionsList.beforePath
      split <;> [decide; (split <;> decide)]
    cases hhigh : usedNumbers (jumpHigh options) with
    | nil =>
      rw [if_neg (fun hm => ?_)]
      · rfl
      · obtain ⟨-, n, hn, -⟩ := hmissed.mp hm
        rw [hhigh] at hn
        exact absurd hn (by simp)
    | cons n ns =>
      have hn := hnumbers n (hhigh ▸ List.mem_cons_self)
      have hiff : JumpMissed msg ↔ options.beforePath + 12 < n ∧ n ≤ 23 := by
        rw [hmissed, hhigh]
        simpa using fun _ _ => hyes
      rw [Options.gaps, Options.gaps, extension_length_of_lt (by omega),
        extension_length_of_lt (by omega), if_congr hiff rfl rfl]
      split <;> split <;> split <;> omega

/-- The jumps that are counted. -/
theorem optionsCalculateJumpNeed_eq {msg : SnCoapHdr} {options : SnCoapOptionsList}
    (h : msg.optionsList = some options) :
    optionsCalculateJumpNeed msg = Options.gaps (lastUsed (msg.low options msg.uriPath.isSome))
      (usedNumbers (jumpHigh options)) := by
  have hlow : ((jumpLow msg options).filter (·.1)).getLast?.elim 0 (·.2.number) =
      lastUsed (msg.low options msg.uriPath.isSome) := by
    rw [lastUsed, usedNumbers, List.getLast?_map]
    show _ = (Option.map _ ((jumpLow msg options).filter (·.1)).getLast?).getD 0
    cases ((jumpLow msg options).filter (·.1)).getLast? <;> rfl
  simp only [optionsCalculateJumpNeed, h, hlow, foldl_jumpOver, Nat.zero_add]
  split
  · rfl
  · next hnone =>
    have hempty : usedNumbers (jumpHigh options) = [] := by
      rw [usedNumbers, List.map_eq_nil_iff, List.filter_eq_nil_iff]
      simpa using hnone
    rw [hempty, Options.gaps]

end Jumps

/-! ## The packet -/

/-- The lengths of a message are those of what its pointers point to, and no more of a payload is
    to be sent at once than a block. -/
structure SnCoapHdr.Sound (msg : SnCoapHdr) (blockwisePayloadSize : Nat) : Prop where
  token : msg.tokenPtr = none → msg.tokenLen = 0
  etag : ∀ options ∈ msg.optionsList, ∀ ptr ∈ options.etagPtr, ptr.length = options.etagLen
  payload : msg.payloadPtr = none → msg.payloadLen = 0
  block : msg.payloadLen ≤ blockwisePayloadSize ∨ blockwisePayloadSize = 0

instance (msg : SnCoapHdr) (size : Nat) : Decidable (msg.Sound size) :=
  decidable_of_iff ((msg.tokenPtr = none → msg.tokenLen = 0) ∧
    (∀ options ∈ msg.optionsList, ∀ ptr ∈ options.etagPtr, ptr.length = options.etagLen) ∧
      (msg.payloadPtr = none → msg.payloadLen = 0) ∧ (msg.payloadLen ≤ size ∨ size = 0))
    ⟨fun h => ⟨h.1, h.2.1, h.2.2.1, h.2.2.2⟩, fun h => ⟨h.token, h.etag, h.payload, h.block⟩⟩

section Packet

variable {msg : SnCoapHdr} {size : Nat}

/-- An ETag that can be read under its sixteen bits has none of the two flags beside it. -/
theorem etagGroup_eq {options : SnCoapOptionsList}
    (hetag : ∀ ptr ∈ options.etagPtr, ptr.length = options.etagLen)
    (h : options.etagGroup.2.isSome) :
    options.etagGroup = .ofMultiple .etag options.etagCounted ∧
      options.etagCounted.isSome = options.etagPtr.isSome := by
  cases hptr : options.etagPtr with
  | none => simp [SnCoapOptionsList.etagGroup, SnCoapOptionsList.etagSource,
      SnCoapOptionsList.etagCounted, hptr, Group.ofMultiple]
  | some ptr =>
    have hlen := hetag ptr hptr
    have hread : options.etagLen16 ≤ ptr.length := by
      by_contra hlt
      simp [SnCoapOptionsList.etagGroup, SnCoapOptionsList.etagSource, hptr, readOctets, hlt] at h
    have hlen16 : options.etagLen16 = options.etagLen := by
      unfold SnCoapOptionsList.etagLen16 at hread ⊢
      omega
    simp [SnCoapOptionsList.etagGroup, SnCoapOptionsList.etagSource,
      SnCoapOptionsList.etagCounted, hptr, readOctets, hlen16, hlen, Group.ofMultiple]

/-- What is counted for the list of options, and which of them are written. -/
theorem calcOptions_eq {options : SnCoapOptionsList} {n : Nat}
    (hetag : ∀ ptr ∈ options.etagPtr, ptr.length = options.etagLen)
    (hsome : ∀ g ∈ options.firstGroups ++ options.lastGroups, g.2.isSome)
    (h : calcOptions (some options) = some n) :
    (options.firstGroups.map Group.size).sum + (options.lastGroups.map Group.size).sum =
        n + proxyUriMissed options.proxyUri ∧
      options.firstGroups.map (fun g => (g.present, g.1)) =
        [(options.uriHost.isSome, .uriHost), (options.etagPtr.isSome, .etag),
          (options.observe.isSome, .observe), (options.uriPort.isSome, .uriPort),
          (options.locationPath.isSome, .locationPath)] ∧
      options.lastGroups.map (fun g => (g.present, g.1)) = jumpHigh options := by
  obtain ⟨hetagGroup, hetagUsed⟩ := etagGroup_eq hetag (hsome _ (by
    simp [SnCoapOptionsList.firstGroups]))
  rw [calcOptions] at h
  obtain ⟨accept, haccept, h⟩ := Option.bind_eq_some_iff.mp h
  obtain ⟨maxAge, hmaxAge, h⟩ := Option.bind_eq_some_iff.mp h
  obtain ⟨proxyUri, hproxyUri, h⟩ := Option.bind_eq_some_iff.mp h
  obtain ⟨etag, hetag', h⟩ := Option.bind_eq_some_iff.mp h
  obtain ⟨uriHost, huriHost, h⟩ := Option.bind_eq_some_iff.mp h
  obtain ⟨locationPath, hlocationPath, h⟩ := Option.bind_eq_some_iff.mp h
  obtain ⟨uriPort, huriPort, h⟩ := Option.bind_eq_some_iff.mp h
  obtain ⟨locationQuery, hlocationQuery, h⟩ := Option.bind_eq_some_iff.mp h
  obtain ⟨observe, hobserve, h⟩ := Option.bind_eq_some_iff.mp h
  obtain ⟨uriQuery, huriQuery, h⟩ := Option.bind_eq_some_iff.mp h
  obtain ⟨block1, hblock1, h⟩ := Option.bind_eq_some_iff.mp h
  obtain ⟨size1, hsize1, h⟩ := Option.bind_eq_some_iff.mp h
  obtain ⟨block2, hblock2, h⟩ := Option.bind_eq_some_iff.mp h
  obtain ⟨size2, hsize2, h⟩ := Option.bind_eq_some_iff.mp h
  obtain rfl := Option.some.inj h
  have hmultiple : ∀ {o : CoapOption} (src : Option (List UInt8)),
      Group.ofMultiple o src ∈ options.firstGroups ++ options.lastGroups → o.repeatable = true →
      Counted (.ofMultiple o src) (calcMultiple src o) src.isSome := fun _ hmem ho =>
    counted_multiple ho (hsome _ hmem)
  have cetag : Counted options.etagGroup (calcMultiple options.etagCounted .etag)
      options.etagPtr.isSome := by
    have hread := hsome options.etagGroup (by simp [SnCoapOptionsList.firstGroups])
    rw [hetagGroup] at hread ⊢
    rw [← hetagUsed]
    exact counted_multiple rfl hread
  have cuint : ∀ (o : CoapOption) (value : Option Nat) (max : Nat), Counted (.ofUint o value)
      (calcUint value max) value.isSome := counted_uint
  have clocationPath := hmultiple (o := .locationPath) options.locationPath
    (by simp [SnCoapOptionsList.firstGroups]) rfl
  have curiQuery := hmultiple (o := .uriQuery) options.uriQuery
    (by simp [SnCoapOptionsList.lastGroups]) rfl
  have clocationQuery := hmultiple (o := .locationQuery) options.locationQuery
    (by simp [SnCoapOptionsList.lastGroups]) rfl
  have hfirst : (options.firstGroups.map Group.size).sum =
      uriHost + etag + observe + uriPort + locationPath := by
    show Group.size _ + (Group.size _ + (Group.size _ + (Group.size _ + (Group.size _ + 0)))) = _
    rw [(counted_uriHost _).size _ huriHost, cetag.size _ hetag', (cuint ..).size _ hobserve,
      (cuint ..).size _ huriPort, clocationPath.size _ hlocationPath]
    omega
  have hlast : (options.lastGroups.map Group.size).sum = maxAge + uriQuery + accept +
      locationQuery + block2 + block1 + size2 + (proxyUri + proxyUriMissed options.proxyUri) +
        size1 := by
    show Group.size _ + (Group.size _ + (Group.size _ + (Group.size _ + (Group.size _ +
      (Group.size _ + (Group.size _ + (Group.size _ + (Group.size _ + 0)))))))) = _
    rw [(cuint ..).size _ hmaxAge, curiQuery.size _ huriQuery, (cuint ..).size _ haccept,
      clocationQuery.size _ hlocationQuery, (cuint ..).size _ hblock2, (cuint ..).size _ hblock1,
      (cuint ..).size _ hsize2, size_proxyUri _ _ hproxyUri, (cuint ..).size _ hsize1]
    omega
  refine ⟨by rw [hfirst, hlast]; omega, ?_, ?_⟩
  · show [(Group.present _, _), (Group.present _, _), (Group.present _, _), (Group.present _, _),
      (Group.present _, _)] = _
    rw [(counted_uriHost _).present _ huriHost, cetag.present _ hetag',
      (cuint ..).present _ hobserve, (cuint ..).present _ huriPort,
      clocationPath.present _ hlocationPath, hetagGroup]
    rfl
  · have hproxy : (Group.ofOne .proxyUri options.proxyUri).present = options.proxyUri.isSome := by
      cases options.proxyUri <;> rfl
    have hused₁ : options.size1Option.isSome = options.useSize1 := by
      cases hu : options.useSize1 <;> simp [SnCoapOptionsList.size1Option, hu]
    have hused₂ : options.size2Option.isSome = options.useSize2 := by
      cases hu : options.useSize2 <;> simp [SnCoapOptionsList.size2Option, hu]
    show [(Group.present _, _), (Group.present _, _), (Group.present _, _), (Group.present _, _),
      (Group.present _, _), (Group.present _, _), (Group.present _, _), (Group.present _, _),
      (Group.present _, _)] = _
    rw [(cuint ..).present _ hmaxAge, curiQuery.present _ huriQuery, (cuint ..).present _ haccept,
      clocationQuery.present _ hlocationQuery, (cuint ..).present _ hblock2,
      (cuint ..).present _ hblock1, (cuint ..).present _ hsize2, hproxy,
      (cuint ..).present _ hsize1, hused₁, hused₂]
    rfl

theorem readOctets_length {octets part : List UInt8} {offset len : Nat}
    (h : readOctets octets offset len = some part) : part.length = len := by
  rw [readOctets] at h
  split at h
  · obtain rfl := Option.some.inj h
    rw [List.length_take, List.length_drop, Nat.min_eq_left (by omega)]
  · exact absurd h (by simp)

theorem tokenBuild_length {token : List UInt8} (h : tokenBuild msg = some token) :
    token.length = msg.tokenLen := by
  rw [tokenBuild] at h
  split at h
  · exact readOctets_length h
  · obtain rfl := Option.some.inj h
    exact List.length_replicate

theorem payloadBuild_length {packet p : List UInt8} (hsound : msg.Sound size)
    (h : payloadBuild packet msg = some p) :
    p.length = packet.length + calcPayload msg.payloadLen size := by
  have hcount : calcPayload msg.payloadLen size =
      msg.payloadLen + if msg.payloadLen = 0 then 0 else 1 := by
    rw [calcPayload, if_neg]
    have hblock := hsound.block
    omega
  rw [payloadBuild] at h
  rw [hcount]
  split at h
  · next hptr =>
    obtain rfl := Option.some.inj h
    rw [hsound.payload hptr]
    rfl
  · split at h
    · next hzero =>
      obtain rfl := Option.some.inj h
      rw [hzero]
      rfl
    · next hne =>
      obtain ⟨payload, hpayload, rfl⟩ := Option.map_eq_some_iff.mp h
      rw [List.length_append, List.length_cons, readOctets_length hpayload, if_neg hne]

theorem headerBuild_length {header : List UInt8} (h : headerBuild msg = some header) :
    header.length = 4 := by
  rw [headerBuild] at h
  split at h
  · obtain rfl := Option.some.inj h
    rfl
  · exact absurd h (by simp)

/-- The octets of the options, by what is counted. -/
theorem encode_length_eq {os : List (Nat × List UInt8)} {path format options : Nat}
    (hsound : msg.Sound size) (hos : optionsOfGroups (groupsOf msg) = some os)
    (hpath : calcMultiple msg.uriPathSource .uriPath = some path)
    (hformat : calcUint msg.contentFormat 0xffff = some format)
    (hoptions : calcOptions msg.optionsList = some options) :
    (Options.encode 0 os).length = path + format + options + optionsCalculateJumpNeed msg +
      msg.optionsList.elim 0 (fun options => proxyUriMissed options.proxyUri) +
        if JumpMissed msg then 1 else 0 := by
  obtain ⟨hsize, hgaps⟩ := optionsOfGroups_size hos
  have hsome := isSome_of_optionsOfGroups hos
  have cpath : Counted (.ofMultiple .uriPath msg.uriPathSource) _ msg.uriPathSource.isSome :=
    counted_multiple rfl (hsome (.ofMultiple .uriPath msg.uriPathSource) (by simp [groupsOf]))
  have cformat := counted_uint .contentFormat msg.contentFormat 0xffff
  rw [Options.encode_length, hsize, hgaps]
  have hpathSize := cpath.size _ hpath
  have hformatSize := cformat.size _ hformat
  cases hlist : msg.optionsList with
  | none =>
    rw [hlist] at hoptions
    obtain rfl := Option.some.inj hoptions
    have hmissed : ¬JumpMissed msg := by simp [JumpMissed, hlist]
    have hneed : optionsCalculateJumpNeed msg = 0 := by rw [optionsCalculateJumpNeed, hlist]
    have hsmall : Options.gaps 0 (presentNumbers (groupsOf msg)) = 0 := by
      refine Options.gaps_of_lt fun n hn => ?_
      obtain ⟨g, hg, rfl⟩ := List.mem_map.mp hn
      have hmem : g ∈ groupsOf msg := (List.mem_filter.mp hg).1
      simp only [groupsOf, hlist, Option.elim_none, List.nil_append, List.append_nil,
        List.mem_cons, List.not_mem_nil, or_false] at hmem
      rcases hmem with rfl | rfl
      · exact show CoapOption.uriPath.number < 13 by decide
      · exact show CoapOption.contentFormat.number < 13 by decide
    rw [hsmall, hneed, if_neg hmissed, groupsOf, hlist]
    show Group.size _ + (Group.size _ + 0) + 0 = _
    rw [hpathSize, hformatSize]
    rfl
  | some list =>
    rw [hlist] at hoptions
    have hgroups : groupsOf msg = list.firstGroups ++
        ([.ofMultiple .uriPath msg.uriPathSource, .ofUint .contentFormat msg.contentFormat] ++
          list.lastGroups) := by rw [groupsOf, hlist]; rfl
    obtain ⟨hsizes, hfirst, hlast⟩ := calcOptions_eq (hsound.etag list hlist)
      (fun g hg => hsome g (by
        rw [hgroups]
        simp only [List.mem_append] at hg ⊢
        tauto)) hoptions
    -- the options up to Content-Format need no jump, the others are counted from the last of them
    have hlow : presentNumbers (list.firstGroups ++ [.ofMultiple .uriPath msg.uriPathSource,
        .ofUint .contentFormat msg.contentFormat]) =
        usedNumbers (msg.low list msg.uriPathSource.isSome) := by
      refine presentNumbers_eq ?_
      rw [List.map_append, hfirst]
      show _ ++ [(Group.present _, _), (Group.present _, _)] = _
      rw [cpath.present _ hpath, cformat.present _ hformat]
      rfl
    have hnumbers : presentNumbers (groupsOf msg) =
        usedNumbers (msg.low list msg.uriPathSource.isSome) ++ usedNumbers (jumpHigh list) := by
      rw [hgroups, ← List.append_assoc, presentNumbers_append, hlow, presentNumbers_eq hlast]
    have hsmall : Options.gaps 0 (usedNumbers (msg.low list msg.uriPathSource.isSome)) = 0 :=
      Options.gaps_of_lt (usedNumbers_lowOptions_lt _ _ _ _ _ _ _)
    rw [hnumbers, Options.gaps_append, ← lastUsed, hsmall, gaps_low hlist,
      ← optionsCalculateJumpNeed_eq hlist, hgroups, List.map_append, List.sum_append,
      List.map_append, List.sum_append]
    show _ + (Group.size _ + (Group.size _ + 0) + _) + _ = _ + _ + _ + _ + proxyUriMissed _ + _
    rw [hpathSize, hformatSize]
    omega

/-- What is written is what is counted, and the octets that are missed. -/
theorem snCoapBuilder2_length {p : List UInt8} (hsound : msg.Sound size)
    (hreset : msg.msgType ≠ .reset) (h : snCoapBuilder2 msg size = some (.ok p)) :
    ∃ n, calcNeeded msg size = some n ∧
      p.length = n + msg.optionsList.elim 0 (fun options => proxyUriMissed options.proxyUri) +
        if JumpMissed msg then 1 else 0 := by
  rw [snCoapBuilder2] at h
  split at h
  · exact absurd h (by simp)
  · next hne =>
    split at h
    · exact absurd h (by simp)
    · next header hheader =>
      rw [optionsBuild_eq header hsound.token] at h
      obtain ⟨packet, hpacket, h⟩ := Option.bind_eq_some_iff.mp h
      obtain ⟨p', hp', h⟩ := Option.bind_eq_some_iff.mp h
      obtain rfl : p' = p := Except.ok.inj (Option.some.inj h)
      obtain ⟨token, htoken, hpacket⟩ := Option.bind_eq_some_iff.mp hpacket
      obtain ⟨os, hos, rfl⟩ := Option.map_eq_some_iff.mp hpacket
      cases hneeded : calcNeeded msg size with
      | none =>
        rw [snCoapBuilderCalcNeededPacketDataSize2, hneeded] at hne
        exact absurd rfl hne
      | some n =>
        rw [calcNeeded, if_neg hreset] at hneeded
        obtain ⟨tokenCount, htokenCount, hneeded⟩ := Option.bind_eq_some_iff.mp hneeded
        obtain ⟨path, hpath, hneeded⟩ := Option.bind_eq_some_iff.mp hneeded
        obtain ⟨format, hformat, hneeded⟩ := Option.bind_eq_some_iff.mp hneeded
        obtain ⟨options, hoptions, hneeded⟩ := Option.bind_eq_some_iff.mp hneeded
        obtain rfl := Option.some.inj hneeded
        refine ⟨_, rfl, ?_⟩
        have htokenLen : msg.tokenLen = tokenCount := by
          rw [calcToken] at htokenCount
          split at htokenCount
          · next hptr => rw [hsound.token hptr, ← Option.some.inj htokenCount]
          · split at htokenCount
            · exact absurd htokenCount (by simp)
            · exact Option.some.inj htokenCount
        rw [payloadBuild_length hsound hp', List.length_append, List.length_append,
          headerBuild_length hheader, tokenBuild_length htoken, htokenLen,
          encode_length_eq hsound hos hpath hformat hoptions]
        omega

/-- **As many octets are written as were counted, or more**: as many if and only if the packet is a
    reset, or its length is one of sixteen bits, the Proxy-Uri has not 269 octets and the jump over
    the Uri-Path of a notification is not missed. -/
theorem snCoapBuilder2_length_eq_iff {p : List UInt8} (hsound : msg.Sound size)
    (h : snCoapBuilder2 msg size = some (.ok p)) :
    snCoapBuilderCalcNeededPacketDataSize2 msg size ≤ p.length ∧
      (p.length = snCoapBuilderCalcNeededPacketDataSize2 msg size ↔
        msg.msgType = .reset ∨ p.length < 2 ^ 16 ∧
          (∀ options ∈ msg.optionsList, ∀ uri ∈ options.proxyUri, uri.length ≠ 269) ∧
            ¬JumpMissed msg) := by
  by_cases hreset : msg.msgType = .reset
  · have hcalc : snCoapBuilderCalcNeededPacketDataSize2 msg size = 4 := by
      rw [snCoapBuilderCalcNeededPacketDataSize2, calcNeeded, if_pos hreset]
      rfl
    have hlength : p.length = 4 := by
      rw [snCoapBuilder2, hcalc, if_neg (by decide)] at h
      split at h
      · exact absurd h (by simp)
      · next header hheader =>
        rw [if_pos hreset] at h
        obtain rfl := Except.ok.inj (Option.some.inj h)
        exact headerBuild_length hheader
    exact ⟨Nat.le_of_eq (hcalc.trans hlength.symm),
      ⟨fun _ => .inl hreset, fun _ => hlength.trans hcalc.symm⟩⟩
  · obtain ⟨n, hneeded, hlength⟩ := snCoapBuilder2_length hsound hreset h
    have hproxy : (∀ options ∈ msg.optionsList, ∀ uri ∈ options.proxyUri, uri.length ≠ 269) ↔
        msg.optionsList.elim 0 (fun options => proxyUriMissed options.proxyUri) = 0 := by
      cases msg.optionsList with
      | none => simp
      | some options => cases huri : options.proxyUri <;> simp [proxyUriMissed, huri]
    have hjump : ¬JumpMissed msg ↔ (if JumpMissed msg then 1 else 0) = 0 := by
      split <;> simp_all
    have hmod := Nat.mod_le n (2 ^ 16)
    have hlt := Nat.mod_lt n (Nat.two_pow_pos 16)
    have hsmall : n < 2 ^ 16 → n % 2 ^ 16 = n := Nat.mod_eq_of_lt
    rw [snCoapBuilderCalcNeededPacketDataSize2, hneeded, Option.getD_some, hproxy, hjump]
    refine ⟨by omega, ⟨fun heq => .inr ⟨by omega, by omega, by omega⟩, ?_⟩⟩
    rintro (hreset' | ⟨hbits, hnone, hnot⟩)
    · exact absurd hreset' hreset
    · omega

end Packet

/-- A block of a notification whose Uri-Path is still set. -/
def blockOfNotification : SnCoapHdr where
  msgCode := 69
  msgId := 1
  uriPath := some [120]
  optionsList := some { observe := some 5, block2 := some 8 }

/-- One octet more is written than was counted. -/
theorem snCoapBuilder2_length_notification : ∃ p,
    snCoapBuilder2 blockOfNotification 1024 = some (.ok p) ∧
      snCoapBuilderCalcNeededPacketDataSize2 blockOfNotification 1024 < p.length := by
  have hbuild : snCoapBuilder2 blockOfNotification 1024 =
      some (.ok [64, 69, 0, 1, 97, 5, 209, 4, 8]) := by decide +kernel
  have hmissed : JumpMissed blockOfNotification := by decide +kernel
  obtain ⟨hle, hiff⟩ := snCoapBuilder2_length_eq_iff (by decide) hbuild
  refine ⟨_, hbuild, Nat.lt_of_le_of_ne hle fun heq => ?_⟩
  rcases hiff.mp heq.symm with hreset | ⟨-, -, hnot⟩
  · exact absurd hreset (by decide)
  · exact hnot hmissed

end LibCoap
end LightDuer
