import LightDuer.LibCoap.Store

/-!
# Messages and their fields

The fields of a message in the order of their numbers. They are what the builder writes, and storing
them one after the other gives the message again, if its integers and strings are as the parser
stores them.

A `Slot` is an option together with its value in a message, if there is one, and `slotsOf` lists all
of them, in the order in which the builder comes to them. Leaving out the empty ones gives the
fields. Both ends of the round trip are then statements about this one list:
`Canonical.optionsOfGroups_groupsOf` says that the builder writes the options of these fields, and
`Canonical.foldl_store` that storing the fields, from the first to the last, makes the message.

## What is canonical

`Canonical` collects what the parser guarantees of a message that it has made, as far as the round
trip needs it: every length is that of what it counts, a size that is not used is zero, an integer
is one that loses no octet when it is written, a string is cut into parts that can be read again.
Two of its conditions are not of that kind. A notification has no Uri-Path here, because the builder
does not write it, and an ETag has no size beside it, because the builder reads the flags of the
sizes as the upper half of its length. The predicate is decidable, so that a particular message can
be checked by evaluation.

## Storing

The message changes in two places, its list of options and what is outside of it. `merge` and
`mergeOutside` follow a slot into either, so that the fold over all slots can be computed for each
field of the message on its own.
-/

set_option autoImplicit false

namespace LightDuer
namespace LibCoap

open Lib

/-- An option and its value, if the message has one. -/
abbrev Slot := CoapOption × Option (List UInt8)

namespace Slot

def fields (slot : Slot) : List Field := slot.2.toList.map (slot.1, ·)

def store (msg : SnCoapHdr) (slot : Slot) : SnCoapHdr :=
  slot.2.elim msg fun value => LibCoap.store msg slot.1 value

theorem foldl_fields (msg : SnCoapHdr) (slot : Slot) :
    slot.fields.foldl (fun msg f => LibCoap.store msg f.1 f.2) msg = slot.store msg := by
  obtain ⟨o, value⟩ := slot
  cases value <;> rfl

theorem foldl_flatMap_fields (slots : List Slot) (msg : SnCoapHdr) :
    (slots.flatMap fields).foldl (fun msg f => LibCoap.store msg f.1 f.2) msg =
      slots.foldl store msg := by
  rw [List.foldl_flatMap]
  simp only [foldl_fields]

end Slot

namespace SnCoapOptionsList

/-- The slots in front of the Uri-Path. -/
def firstSlots (options : SnCoapOptionsList) : List Slot :=
  [(.uriHost, options.uriHost), (.etag, options.etagPtr),
    (.observe, options.observe.map uintOptionPayload),
    (.uriPort, options.uriPort.map uintOptionPayload), (.locationPath, options.locationPath)]

/-- The slots behind the Content-Format. -/
def lastSlots (options : SnCoapOptionsList) : List Slot :=
  [(.maxAge, options.maxAgeOption.map uintOptionPayload), (.uriQuery, options.uriQuery),
    (.accept, options.accept.map uintOptionPayload), (.locationQuery, options.locationQuery),
    (.block2, options.block2.map uintOptionPayload),
    (.block1, options.block1.map uintOptionPayload),
    (.size2, options.size2Option.map uintOptionPayload), (.proxyUri, options.proxyUri),
    (.size1, options.size1Option.map uintOptionPayload)]

end SnCoapOptionsList

/-- The options of a message, in the order of their numbers. -/
def slotsOf (msg : SnCoapHdr) : List Slot :=
  msg.allocOptions.firstSlots ++ ([(.uriPath, msg.uriPath),
    (.contentFormat, msg.contentFormat.map uintOptionPayload)] ++ msg.allocOptions.lastSlots)

def fieldsOf (msg : SnCoapHdr) : List Field := (slotsOf msg).flatMap Slot.fields

/-- The integers among them. -/
def integersOf (msg : SnCoapHdr) : List (Option Nat) :=
  let options := msg.allocOptions
  [options.observe, options.uriPort, msg.contentFormat, options.maxAgeOption, options.accept,
    options.block2, options.block1, options.size2Option, options.size1Option]

/-- A list of octets with its length, and none where the length is zero. -/
def HasLength (ptr : Option (List UInt8)) (len : Nat) : Prop :=
  match ptr with
  | none => len = 0
  | some octets => octets ≠ [] ∧ octets.length = len

instance (ptr : Option (List UInt8)) (len : Nat) : Decidable (HasLength ptr len) :=
  match ptr with
  | none => inferInstanceAs (Decidable (len = 0))
  | some octets => inferInstanceAs (Decidable (octets ≠ [] ∧ octets.length = len))

/-- A message as the parser could have made it: each length is that of what it counts, what is not
    used is zero, the integers lose no octet, the strings are made of parts. The Uri-Path of a
    notification is not written, and an ETag is not written with a size behind it. -/
structure Canonical (msg : SnCoapHdr) : Prop where
  status : msg.coapStatus = .ok
  msgId_lt : msg.msgId < 2 ^ 16
  token : HasLength msg.tokenPtr msg.tokenLen ∧ msg.tokenLen ≤ 8
  payload : HasLength msg.payloadPtr msg.payloadLen
  optionsList : msg.optionsList ≠ some {}
  etag : HasLength msg.allocOptions.etagPtr msg.allocOptions.etagLen ∧
    (msg.allocOptions.etagPtr ≠ none →
      msg.allocOptions.useSize1 = false ∧ msg.allocOptions.useSize2 = false)
  size1 : msg.allocOptions.useSize1 = false → msg.allocOptions.size1 = 0
  size2 : msg.allocOptions.useSize2 = false → msg.allocOptions.size2 = 0
  uriPath : msg.allocOptions.observe ≠ none → msg.uriPath = none
  integers : ∀ value ∈ integersOf msg, ∀ v ∈ value, v < 2 ^ 32 ∧ Compact v
  fields : ∀ f ∈ fieldsOf msg, f.Readable
  head : ∀ f ∈ fieldsOf msg, f.1.format = .parts → f.2.head? ≠ some 0
  reset : msg.msgType = .reset → msg.tokenPtr = none ∧ msg.payloadPtr = none ∧ fieldsOf msg = []

instance (msg : SnCoapHdr) : Decidable (Canonical msg) :=
  decidable_of_iff (msg.coapStatus = .ok ∧ msg.msgId < 2 ^ 16 ∧
      (HasLength msg.tokenPtr msg.tokenLen ∧ msg.tokenLen ≤ 8) ∧
      HasLength msg.payloadPtr msg.payloadLen ∧ msg.optionsList ≠ some {} ∧
      (HasLength msg.allocOptions.etagPtr msg.allocOptions.etagLen ∧
        (msg.allocOptions.etagPtr ≠ none →
          msg.allocOptions.useSize1 = false ∧ msg.allocOptions.useSize2 = false)) ∧
      (msg.allocOptions.useSize1 = false → msg.allocOptions.size1 = 0) ∧
      (msg.allocOptions.useSize2 = false → msg.allocOptions.size2 = 0) ∧
      (msg.allocOptions.observe ≠ none → msg.uriPath = none) ∧
      (∀ value ∈ integersOf msg, ∀ v ∈ value, v < 2 ^ 32 ∧ Compact v) ∧
      (∀ f ∈ fieldsOf msg, f.Readable) ∧
      (∀ f ∈ fieldsOf msg, f.1.format = .parts → f.2.head? ≠ some 0) ∧
      (msg.msgType = .reset → msg.tokenPtr = none ∧ msg.payloadPtr = none ∧ fieldsOf msg = []))
    ⟨fun ⟨status, id, token, payload, list, etag, size1, size2, path, integers, fields, head,
        reset⟩ => ⟨status, id, token, payload, list, etag, size1, size2, path, integers, fields,
          head, reset⟩,
      fun h => ⟨h.status, h.msgId_lt, h.token, h.payload, h.optionsList, h.etag, h.size1, h.size2,
        h.uriPath, h.integers, h.fields, h.head, h.reset⟩⟩

/-! ## In the order of their numbers -/

theorem fieldsOf_sorted (msg : SnCoapHdr) :
    (0 :: (fieldsOf msg).map (·.1.number)).Pairwise (· < ·) := by
  have hslots : ((slotsOf msg).map (·.1.number)).Pairwise (· < ·) := by
    show [3, 4, 6, 7, 8, 11, 12, 14, 15, 17, 20, 23, 27, 28, 35, 60].Pairwise (· < ·)
    decide
  have hsub : ∀ slots : List Slot, ((slots.flatMap Slot.fields).map (·.1.number)).Sublist
      (slots.map (·.1.number)) := by
    intro slots
    induction slots with
    | nil => exact .slnil
    | cons slot slots ih =>
      obtain ⟨o, value⟩ := slot
      cases value with
      | none => exact ih.cons _
      | some value => exact ih.cons_cons _
  refine List.pairwise_cons.mpr ⟨?_, hslots.sublist (hsub _)⟩
  intro n hn
  obtain ⟨f, -, rfl⟩ := List.mem_map.mp hn
  exact f.1.number_pos

/-! ## What the builder writes -/

/-- The options of a slot. -/
def Slot.options (slot : Slot) : List (Nat × List UInt8) := slot.fields.flatMap Field.options

theorem optionsOfGroups_eq {groups : List Group} {slots : List Slot}
    (h : List.Forall₂ (fun g s => g.options = some (Slot.options s)) groups slots) :
    optionsOfGroups groups = some (slots.flatMap Slot.options) := by
  induction h with
  | nil => rfl
  | cons hg _ ih =>
    rw [optionsOfGroups, hg, ih]
    rfl

section Groups

variable {o : CoapOption}

theorem ofOne_options (h : o.repeatable = false) (option : Option (List UInt8)) :
    (Group.ofOne o option).options = some (Slot.options (o, option)) := by
  cases option with
  | none => rfl
  | some value =>
    refine congrArg some ?_
    show [(o.number, value)] = Field.options (o, value) ++ []
    rw [List.append_nil, Field.options, Field.parts, h]
    rfl

theorem ofMultiple_options {src : Option (List UInt8)} (h : o.format = .parts)
    (hread : ∀ query ∈ src, Field.Readable (o, query) ∧ query.head? ≠ some 0) :
    (Group.ofMultiple o src).options = some (Slot.options (o, src)) := by
  cases src with
  | none => rfl
  | some query =>
    obtain ⟨hquery, hhead⟩ := hread query rfl
    unfold Field.Readable at hquery
    rw [h] at hquery
    have hparts : partsOf (some query) o = some (query.splitOn o.separator) := by
      have hjoin : [o.separator].intercalate (query.splitOn o.separator) = query :=
        List.intercalate_splitOn o.separator
      have := partsOf_intercalate (o := o)
        (fun part hpart => ⟨(hquery.1 part hpart).1, not_mem_of_mem_splitOn hpart⟩)
        (List.splitOn_ne_nil _ _) (Nat.lt_trans hquery.2.1 (by decide)) (by rw [hjoin]; exact hhead)
      rwa [hjoin] at this
    rw [Group.ofMultiple, Group.options, hparts]
    refine congrArg some ?_
    show _ = Field.options (o, query) ++ []
    rw [List.append_nil, Field.options, Field.parts_of_format h]

end Groups

theorem mem_fieldsOf {msg : SnCoapHdr} {o : CoapOption} {value : Option (List UInt8)}
    (h : (o, value) ∈ slotsOf msg) {v : List UInt8} (hv : v ∈ value) : (o, v) ∈ fieldsOf msg := by
  refine List.mem_flatMap.mpr ⟨(o, value), h, ?_⟩
  cases hv
  exact List.mem_singleton_self _

section Written

variable {msg : SnCoapHdr} (hm : Canonical msg)
include hm

theorem Canonical.multiple {o : CoapOption} (ho : o.format = .parts) (src : Option (List UInt8))
    (h : (o, src) ∈ slotsOf msg) :
    (Group.ofMultiple o src).options = some (Slot.options (o, src)) :=
  ofMultiple_options ho fun _ hquery =>
    have hmem := mem_fieldsOf h hquery
    ⟨hm.fields _ hmem, hm.head _ hmem ho⟩

theorem Canonical.etagGroup (h : (.etag, msg.allocOptions.etagPtr) ∈ slotsOf msg) :
    msg.allocOptions.etagGroup.options =
      some (Slot.options (.etag, msg.allocOptions.etagPtr)) := by
  rw [← hm.multiple rfl _ h]
  obtain ⟨hcounted, hflags⟩ := hm.etag
  unfold SnCoapOptionsList.etagGroup SnCoapOptionsList.etagSource SnCoapOptionsList.etagLen16
  cases hptr : msg.allocOptions.etagPtr with
  | none => rfl
  | some ptr =>
    obtain ⟨h1, h2⟩ := hflags (by rw [hptr]; exact Option.some_ne_none ptr)
    rw [hptr] at hcounted
    have hlen : ptr.length = msg.allocOptions.etagLen := hcounted.2
    have hread : readOctets ptr 0 msg.allocOptions.etagLen = some ptr := by
      rw [readOctets, ← hlen, if_pos (by omega), List.drop_zero, List.take_length]
    simp only [h1, h2, Bool.toNat_false, Nat.mul_zero, Nat.add_zero, hread]
    rfl

theorem Canonical.uriPathSource_eq : msg.uriPathSource = msg.uriPath := by
  have hpath := hm.uriPath
  unfold SnCoapHdr.uriPathSource
  unfold SnCoapHdr.allocOptions at hpath
  cases hoptions : msg.optionsList with
  | none => rfl
  | some options =>
    rw [hoptions] at hpath
    show (if options.observe = none then msg.uriPath else none) = msg.uriPath
    split
    · rfl
    · next hobserve => exact (hpath hobserve).symm

/-- **The fields are what the builder writes.** -/
theorem Canonical.optionsOfGroups_groupsOf :
    optionsOfGroups (groupsOf msg) = some ((fieldsOf msg).flatMap Field.options) := by
  have slots : (fieldsOf msg).flatMap Field.options = (slotsOf msg).flatMap Slot.options :=
    List.flatMap_assoc
  have hfirst : optionsOfGroups (msg.optionsList.elim [] SnCoapOptionsList.firstGroups) =
      some (msg.allocOptions.firstSlots.flatMap Slot.options) := by
    have mem : ∀ {slot}, slot ∈ msg.allocOptions.firstSlots → slot ∈ slotsOf msg :=
      fun h => List.mem_append_left _ h
    have hetag := hm.etagGroup (mem (by simp [SnCoapOptionsList.firstSlots]))
    have hpath := hm.multiple (o := .locationPath) rfl msg.allocOptions.locationPath
      (mem (by simp [SnCoapOptionsList.firstSlots]))
    unfold SnCoapHdr.allocOptions at hetag hpath ⊢
    cases hoptions : msg.optionsList with
    | none => rfl
    | some options =>
      rw [hoptions] at hetag hpath
      exact optionsOfGroups_eq (.cons (ofOne_options rfl _) (.cons hetag
        (.cons (ofOne_options rfl _) (.cons (ofOne_options rfl _) (.cons hpath .nil)))))
  have hlast : optionsOfGroups (msg.optionsList.elim [] SnCoapOptionsList.lastGroups) =
      some (msg.allocOptions.lastSlots.flatMap Slot.options) := by
    have mem : ∀ {slot}, slot ∈ msg.allocOptions.lastSlots → slot ∈ slotsOf msg :=
      fun h => List.mem_append_right _ (List.mem_append_right _ h)
    have hquery := hm.multiple (o := .uriQuery) rfl msg.allocOptions.uriQuery
      (mem (by simp [SnCoapOptionsList.lastSlots]))
    have hlocation := hm.multiple (o := .locationQuery) rfl msg.allocOptions.locationQuery
      (mem (by simp [SnCoapOptionsList.lastSlots]))
    unfold SnCoapHdr.allocOptions at hquery hlocation ⊢
    cases hoptions : msg.optionsList with
    | none => rfl
    | some options =>
      rw [hoptions] at hquery hlocation
      exact optionsOfGroups_eq (.cons (ofOne_options rfl _) (.cons hquery
        (.cons (ofOne_options rfl _) (.cons hlocation (.cons (ofOne_options rfl _)
          (.cons (ofOne_options rfl _) (.cons (ofOne_options rfl _)
            (.cons (ofOne_options rfl _) (.cons (ofOne_options rfl _) .nil)))))))))
  have hpath := hm.multiple (o := .uriPath) rfl msg.uriPath (by simp [slotsOf])
  have hmiddle : optionsOfGroups [.ofMultiple .uriPath msg.uriPathSource,
      .ofUint .contentFormat msg.contentFormat] = some (([(.uriPath, msg.uriPath),
        (.contentFormat, msg.contentFormat.map uintOptionPayload)] : List Slot).flatMap
          Slot.options) := by
    rw [hm.uriPathSource_eq]
    exact optionsOfGroups_eq (.cons hpath (.cons (ofOne_options rfl _) .nil))
  rw [slots, groupsOf, optionsOfGroups_append, optionsOfGroups_append, hfirst, hmiddle, hlast,
    slotsOf, List.flatMap_append, List.flatMap_append]
  rfl

end Written

/-! ## What the parser stores -/

/-- The list of options with the value of a slot, if it is one of the list. -/
def SnCoapOptionsList.merge (options : SnCoapOptionsList) : Slot → SnCoapOptionsList
  | (.uriHost, v) => { options with uriHost := v.or options.uriHost }
  | (.etag, v) => v.elim options fun value => options.storeEtag (some value)
  | (.observe, v) => { options with observe := (v.map Options.ofOctets).or options.observe }
  | (.uriPort, v) => { options with uriPort := (v.map Options.ofOctets).or options.uriPort }
  | (.locationPath, v) => { options with locationPath := v.or options.locationPath }
  | (.maxAge, v) => { options with maxAge := (v.map Options.ofOctets).getD options.maxAge }
  | (.uriQuery, v) => { options with uriQuery := v.or options.uriQuery }
  | (.accept, v) => { options with accept := (v.map Options.ofOctets).or options.accept }
  | (.locationQuery, v) => { options with locationQuery := v.or options.locationQuery }
  | (.block2, v) => { options with block2 := (v.map Options.ofOctets).or options.block2 }
  | (.block1, v) => { options with block1 := (v.map Options.ofOctets).or options.block1 }
  | (.size2, v) =>
      { options with
        useSize2 := v.isSome || options.useSize2
        size2 := (v.map Options.ofOctets).getD options.size2 }
  | (.proxyUri, v) => { options with proxyUri := v.or options.proxyUri }
  | (.size1, v) =>
      { options with
        useSize1 := v.isSome || options.useSize1
        size1 := (v.map Options.ofOctets).getD options.size1 }
  | _ => options

/-- The message but for its list of options. -/
def SnCoapHdr.outside (msg : SnCoapHdr) : SnCoapHdr := { msg with optionsList := none }

def SnCoapHdr.mergeOutside (msg : SnCoapHdr) : Slot → SnCoapHdr
  | (.uriPath, v) => { msg with uriPath := v.or msg.uriPath }
  | (.contentFormat, v) =>
      { msg with contentFormat := (v.map Options.ofOctets).or msg.contentFormat }
  | _ => msg

theorem Slot.store_allocOptions (msg : SnCoapHdr) (slot : Slot) :
    (slot.store msg).allocOptions = msg.allocOptions.merge slot := by
  obtain ⟨o, value⟩ := slot
  cases o <;> cases value <;> rfl

theorem Slot.store_outside (msg : SnCoapHdr) (slot : Slot) :
    (slot.store msg).outside = msg.outside.mergeOutside slot := by
  obtain ⟨o, value⟩ := slot
  cases o <;> cases value <;> rfl

theorem foldl_store_allocOptions (slots : List Slot) (msg : SnCoapHdr) :
    (slots.foldl Slot.store msg).allocOptions =
      slots.foldl SnCoapOptionsList.merge msg.allocOptions := by
  induction slots generalizing msg with
  | nil => rfl
  | cons slot slots ih => rw [List.foldl_cons, List.foldl_cons, ih, Slot.store_allocOptions]

theorem foldl_store_outside (slots : List Slot) (msg : SnCoapHdr) :
    (slots.foldl Slot.store msg).outside = slots.foldl SnCoapHdr.mergeOutside msg.outside := by
  induction slots generalizing msg with
  | nil => rfl
  | cons slot slots ih => rw [List.foldl_cons, List.foldl_cons, ih, Slot.store_outside]

/-- A list of options appears with the first value for it. -/
theorem foldl_store_none {slots : List Slot} {msg : SnCoapHdr} (hmsg : msg.optionsList = none)
    (h : ∀ slot ∈ slots, slot.1 ≠ .uriPath → slot.1 ≠ .contentFormat → slot.2 = none) :
    (slots.foldl Slot.store msg).optionsList = none := by
  induction slots generalizing msg with
  | nil => exact hmsg
  | cons slot slots ih =>
    refine ih ?_ fun slot' hslot => h slot' (List.mem_cons_of_mem slot hslot)
    obtain ⟨o, value⟩ := slot
    have hnone : o ≠ .uriPath → o ≠ .contentFormat → value = none :=
      h (o, value) List.mem_cons_self
    cases value with
    | none => exact hmsg
    | some value =>
      cases o
      case uriPath | contentFormat => exact hmsg
      all_goals exact absurd (hnone (by decide) (by decide)) (Option.some_ne_none value)

section Stored

variable {msg : SnCoapHdr} (hm : Canonical msg)
include hm

theorem Canonical.stored {value : Option Nat} (h : value ∈ integersOf msg) :
    (value.map uintOptionPayload).map Options.ofOctets = value := by
  cases value with
  | none => rfl
  | some v =>
    obtain ⟨hlt, hcompact⟩ := hm.integers _ h v rfl
    exact congrArg some ((ofOctets_uintOptionPayload_iff hlt).mpr hcompact)

theorem Canonical.merge_etag (host : Option (List UInt8)) :
    ({ uriHost := host } : SnCoapOptionsList).merge (.etag, msg.allocOptions.etagPtr) =
      { uriHost := host
        etagLen := msg.allocOptions.etagLen
        etagPtr := msg.allocOptions.etagPtr } := by
  have hcounted := hm.etag.1
  cases hetag : msg.allocOptions.etagPtr with
  | none =>
    rw [hetag] at hcounted
    have hzero : msg.allocOptions.etagLen = 0 := hcounted
    rw [hzero]
    rfl
  | some value =>
    rw [hetag] at hcounted
    have hmem : (CoapOption.etag, some value) ∈ slotsOf msg := by
      rw [← hetag]
      simp [slotsOf, SnCoapOptionsList.firstSlots]
    have hread := (hm.fields _ (mem_fieldsOf hmem rfl)).2.2 rfl
    have hlt : msg.allocOptions.etagLen < 2 ^ 8 := hcounted.2 ▸ hread
    have hflag : ∀ n, 2 ^ 8 ≤ n → (msg.allocOptions.etagLen / n % 2 == 1) = false := by
      intro n hn
      rw [Nat.div_eq_of_lt (by omega)]
      rfl
    show SnCoapOptionsList.storeEtag _ (some value) = _
    rw [SnCoapOptionsList.storeEtag]
    simp only [Option.getD_some, hcounted.2, hflag (2 ^ 8) (Nat.le_refl _),
      hflag (2 ^ 9) (by decide), Nat.mod_eq_of_lt hlt, Option.some_or]

/-- The values of all slots make the list of options. -/
theorem Canonical.foldl_merge :
    (slotsOf msg).foldl SnCoapOptionsList.merge {} = msg.allocOptions := by
  have hobserve := hm.stored (show msg.allocOptions.observe ∈ _ by simp [integersOf])
  have huriPort := hm.stored (show msg.allocOptions.uriPort ∈ _ by simp [integersOf])
  have haccept := hm.stored (show msg.allocOptions.accept ∈ _ by simp [integersOf])
  have hblock2 := hm.stored (show msg.allocOptions.block2 ∈ _ by simp [integersOf])
  have hblock1 := hm.stored (show msg.allocOptions.block1 ∈ _ by simp [integersOf])
  have hmaxAge : ((msg.allocOptions.maxAgeOption.map uintOptionPayload).map
      Options.ofOctets).getD maxAgeDefault = msg.allocOptions.maxAge := by
    rw [hm.stored (by simp [integersOf]), SnCoapOptionsList.maxAgeOption]
    split
    · next heq => exact heq.symm
    · rfl
  have hsize : ∀ (used : Bool) (size : Nat), (used = false → size = 0) →
      (if used then some size else none).isSome = used ∧
        (if used then some size else none).getD 0 = size := by
    intro used size hzero
    cases used with
    | false => exact ⟨rfl, (hzero rfl).symm⟩
    | true => exact ⟨rfl, rfl⟩
  have hsize1 := hsize _ _ hm.size1
  have hsize2 := hsize _ _ hm.size2
  have hstored1 := hm.stored (show msg.allocOptions.size1Option ∈ _ by simp [integersOf])
  have hstored2 := hm.stored (show msg.allocOptions.size2Option ∈ _ by simp [integersOf])
  rw [slotsOf, SnCoapOptionsList.firstSlots, SnCoapOptionsList.lastSlots]
  simp only [List.cons_append, List.nil_append, List.foldl_cons, List.foldl_nil]
  have hhost : ({} : SnCoapOptionsList).merge (.uriHost, msg.allocOptions.uriHost) =
      { uriHost := msg.allocOptions.uriHost } := by
    simp only [SnCoapOptionsList.merge, Option.or_none]
  rw [hhost, hm.merge_etag]
  simp only [SnCoapOptionsList.merge, hobserve, huriPort, haccept, hblock2, hblock1, hmaxAge,
    hstored1, hstored2, Option.isSome_map, Option.or_none, Bool.or_false]
  simp only [SnCoapOptionsList.size1Option, SnCoapOptionsList.size2Option, hsize1, hsize2]

theorem Canonical.foldl_mergeOutside {base : SnCoapHdr} (hpath : base.uriPath = none)
    (hformat : base.contentFormat = none) :
    (slotsOf msg).foldl SnCoapHdr.mergeOutside base =
      { base with uriPath := msg.uriPath, contentFormat := msg.contentFormat } := by
  have hstored := hm.stored (show msg.contentFormat ∈ _ by simp [integersOf])
  rw [slotsOf, SnCoapOptionsList.firstSlots, SnCoapOptionsList.lastSlots]
  simp only [List.cons_append, List.nil_append, List.foldl_cons, List.foldl_nil,
    SnCoapHdr.mergeOutside, hpath, hformat, hstored, Option.or_none]

theorem Canonical.foldl_optionsList (base : SnCoapHdr) (hbase : base.optionsList = none) :
    ((slotsOf msg).foldl Slot.store base).optionsList = msg.optionsList := by
  have halloc : ((slotsOf msg).foldl Slot.store base).allocOptions = msg.allocOptions := by
    have hempty : base.allocOptions = {} := by
      rw [SnCoapHdr.allocOptions, hbase]
      rfl
    rw [foldl_store_allocOptions, hempty, hm.foldl_merge]
  cases hoptions : msg.optionsList with
  | none =>
    refine foldl_store_none hbase ?_
    have hempty : msg.allocOptions = {} := by
      rw [SnCoapHdr.allocOptions, hoptions]
      rfl
    intro slot hslot hpath hformat
    simp only [slotsOf, hempty, SnCoapOptionsList.firstSlots, SnCoapOptionsList.lastSlots,
      SnCoapOptionsList.maxAgeOption, SnCoapOptionsList.size1Option,
      SnCoapOptionsList.size2Option] at hslot
    simp at hslot
    rcases hslot with rfl | rfl | rfl | rfl | rfl | rfl | rfl | rfl | rfl | rfl | rfl | rfl | rfl |
      rfl | rfl | rfl <;> first | rfl | exact absurd rfl hpath | exact absurd rfl hformat
  | some options =>
    cases hfinal : ((slotsOf msg).foldl Slot.store base).optionsList with
    | none =>
      rw [SnCoapHdr.allocOptions, SnCoapHdr.allocOptions, hfinal, hoptions] at halloc
      exact absurd (hoptions.trans (congrArg some halloc.symm)) hm.optionsList
    | some options' =>
      rw [SnCoapHdr.allocOptions, SnCoapHdr.allocOptions, hfinal, hoptions] at halloc
      exact congrArg some halloc

/-- The message with what its header and its token say. -/
def headerOf (msg : SnCoapHdr) : SnCoapHdr where
  msgType := msg.msgType
  msgCode := msg.msgCode
  msgId := msg.msgId
  tokenLen := msg.tokenLen
  tokenPtr := msg.tokenPtr

/-- **The fields are what the parser stores** to make the message, but for its payload. -/
theorem Canonical.foldl_store :
    (fieldsOf msg).foldl (fun msg f => store msg f.1 f.2) (headerOf msg) =
      { msg with payloadLen := 0, payloadPtr := none } := by
  rw [fieldsOf, Slot.foldl_flatMap_fields]
  have houtside := foldl_store_outside (slotsOf msg) (headerOf msg)
  rw [hm.foldl_mergeOutside rfl rfl] at houtside
  have hoptions := hm.foldl_optionsList (headerOf msg) rfl
  have hsplit : ∀ m : SnCoapHdr, m = { m.outside with optionsList := m.optionsList } :=
    fun _ => rfl
  rw [hsplit ((slotsOf msg).foldl Slot.store (headerOf msg)), houtside, hoptions]
  have hstatus := hm.status
  cases msg
  cases hstatus
  rfl

end Stored

end LibCoap
end LightDuer
