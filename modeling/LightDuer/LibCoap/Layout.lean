import LightDuer.LibCoap.Builder

/-!
# What a packet is built of

Behind its token a packet is the code of a list of options, each a number and a value. The builder
adds them one by one in the order of their numbers; the groups of a message, `groupsOf`, make the
list that it adds.

## Integers

`sn_coap_builder_options_build_add_uint_option` shifts the word out to the left and writes each
octet that comes out, if it is not zero. It means to leave out the zeros in front and leaves out
those behind, too: `uintOptionPayload_eq` says what it writes, and `Compact` are the integers that
keep their octets. The others are read by the peer as a smaller number, which later results have to
live with.

## One writer behind the other

The builder is a sequence of writers, each for one option, with a number that must not be below the
last one that was written. `Writes f lo hi gs` is the specification of such a part: behind numbers
up to `lo` it adds the options of the groups `gs`, and it leaves a number up to `hi`. Parts compose
by `Writes.andThen`, which asks for nothing but that the second may start where the first ends. So
the order of the option numbers is checked once for each neighbouring pair, in the type of a lemma,
and `optionsBuild_eq` at the end says in one equation what is written behind the header.

A group may have no options (one that is not used), one, or several (the parts of a string); it is
`none` where the parts cannot be read, and then so is the packet.
-/

set_option autoImplicit false

namespace LightDuer
namespace LibCoap

open Lib

/-! ## Integers -/

section Integers

/-- A round of the loop takes the first octet of the word. -/
theorem uintPayload_octet (n : Nat) {v v' : Nat} (b : UInt8) (r : Nat)
    (hv : v = b.toNat * 2 ^ 24 + r) (hr : r < 2 ^ 24) (hv' : v' = r * 2 ^ 8) :
    uintPayload (n + 1) v = [b].filter (· != 0) ++ uintPayload n v' := by
  have hb := b.toNat_lt
  have hdiv : v / 2 ^ 24 = b.toNat := by omega
  have hmod : v * 2 ^ 8 % 2 ^ 32 = v' := by omega
  have hzero : uintPayload n 0 = [] := by cases n <;> rfl
  rw [uintPayload, hdiv, hmod, UInt8.ofNat_toNat]
  by_cases hb0 : b = 0
  · subst hb0
    by_cases hr0 : v = 0
    · have hv'0 : v' = 0 := by
        rw [UInt8.toNat_zero] at hv
        omega
      rw [if_pos hr0, hv'0, hzero]
      rfl
    · rw [if_neg hr0]
      rfl
  · have hne : b.toNat ≠ 0 := fun h => hb0 (UInt8.toNat_inj.mp h)
    rw [if_neg (by omega), if_neg hne]
    simp [hb0]

theorem uintPayload_word (b₃ b₂ b₁ b₀ : UInt8) :
    uintPayload 4 (ofBe32 [b₃, b₂, b₁, b₀]) = [b₃, b₂, b₁, b₀].filter (· != 0) := by
  have h₂ := b₂.toNat_lt
  have h₁ := b₁.toNat_lt
  have h₀ := b₀.toNat_lt
  have round₃ := uintPayload_octet 3 b₃ (b₂.toNat * 2 ^ 16 + b₁.toNat * 2 ^ 8 + b₀.toNat)
    (v := ofBe32 [b₃, b₂, b₁, b₀]) (by simp only [ofBe32]; omega) (by omega) rfl
  have round₂ := uintPayload_octet 2 b₂ (b₁.toNat * 2 ^ 16 + b₀.toNat * 2 ^ 8)
    (v := (b₂.toNat * 2 ^ 16 + b₁.toNat * 2 ^ 8 + b₀.toNat) * 2 ^ 8) (by omega) (by omega) rfl
  have round₁ := uintPayload_octet 1 b₁ (b₀.toNat * 2 ^ 16)
    (v := (b₁.toNat * 2 ^ 16 + b₀.toNat * 2 ^ 8) * 2 ^ 8) (by omega) (by omega) rfl
  have round₀ := uintPayload_octet 0 b₀ 0 (v := b₀.toNat * 2 ^ 16 * 2 ^ 8) (by omega) (by omega) rfl
  have hdone : uintPayload 0 (0 * 2 ^ 8) = [] := rfl
  rw [round₃, round₂, round₁, round₀, hdone, List.append_nil, ← List.filter_append,
    ← List.filter_append, ← List.filter_append]
  rfl

/-- What is written for an integer are its octets without the zeros. -/
theorem uintOptionPayload_eq {v : Nat} (h : v < 2 ^ 32) :
    uintOptionPayload v = (be32 v).filter (· != 0) := by
  have hword : v % 2 ^ 32 = ofBe32 (be32 v) := by
    rw [ofBe32_be32 h, Nat.mod_eq_of_lt h]
  rw [uintOptionPayload, hword]
  exact uintPayload_word _ _ _ _

theorem uintOptionPayload_length_le (v : Nat) : (uintOptionPayload v).length ≤ 4 := by
  have hlt : v % 2 ^ 32 < 2 ^ 32 := Nat.mod_lt _ (Nat.two_pow_pos 32)
  have heq : uintOptionPayload v = uintOptionPayload (v % 2 ^ 32) :=
    congrArg (uintPayload 4) (Nat.mod_mod v (2 ^ 32)).symm
  rw [heq, uintOptionPayload_eq hlt]
  exact (List.length_filter_le _ _).trans (Nat.le_of_eq (be32_length _))

/-- The integer is not cut: no octet that is zero stands behind one that is not. -/
def Compact (v : Nat) : Prop := 0 ∉ (be32 v).dropWhile (· == 0)

instance (v : Nat) : Decidable (Compact v) := inferInstanceAs (Decidable (_ ∉ _))

/-- **An integer is what its octets make** if and only if none is lost. -/
theorem ofOctets_uintOptionPayload_iff {v : Nat} (h : v < 2 ^ 32) :
    Options.ofOctets (uintOptionPayload v) = v ↔ Compact v := by
  have hword : Options.ofOctets (be32 v) = v := by
    have hfour : Options.ofOctets (be32 v) = ofBe32 (be32 v) := by
      simp only [be32, ofBe32, Options.ofOctets, List.foldl_cons, List.foldl_nil]
      omega
    rw [hfour, ofBe32_be32 h]
  rw [uintOptionPayload_eq h, Compact, ← Options.ofOctets_filter_iff, hword]

end Integers

/-! ## Writing -/

namespace Writer

/-- Options written behind what is there. -/
def append (w : Writer) (os : List (Nat × List UInt8)) : Writer :=
  ⟨w.packet ++ Options.encode w.previous os, Options.last w.previous os⟩

@[simp] theorem append_nil (w : Writer) : w.append [] = w := by
  simp [append, Options.encode]

theorem append_append (w : Writer) (os os' : List (Nat × List UInt8)) :
    (w.append os).append os' = w.append (os ++ os') := by
  have hlast : Options.last w.previous (os ++ os') =
      Options.last (Options.last w.previous os) os' := by
    induction os generalizing w with
    | nil => rfl
    | cons o os ih => rw [List.cons_append, Options.last_cons, Options.last_cons, ih ⟨[], o.1⟩]
  simp only [append, hlast, Options.encode_append, List.append_assoc]

/-- Behind options of one number. -/
theorem append_previous_le {w : Writer} {o : CoapOption} (h : w.previous ≤ o.number)
    (parts : List (List UInt8)) : (w.append (parts.map (o.number, ·))).previous ≤ o.number := by
  show Options.last w.previous _ ≤ _
  induction parts generalizing w with
  | nil => exact h
  | cons part parts ih =>
    rw [List.map_cons, Options.last_cons]
    exact ih (w := ⟨[], o.number⟩) (Nat.le_refl _)

end Writer

section Write

variable {w : Writer} {o : CoapOption}

/-- The head as the code writes it. -/
theorem optionsBuildAddOneOption_some (h : w.previous ≤ o.number) (value : List UInt8) :
    optionsBuildAddOneOption w (some value) o = w.append [(o.number, value)] := by
  have ho := o.number_le
  have hdelta : (o.number + 2 ^ 16 - w.previous) % 2 ^ 16 = o.number - w.previous := by omega
  have hfirst : (if value.length ≤ 12 then value.length else if value.length < 269 then 0x0d
      else 0x0e) = Options.nibble value.length := if_congr (by omega) rfl rfl
  have hlen : (if value.length ≤ 12 then [] else if value.length < 269 then
      [UInt8.ofNat (value.length - 13)] else [UInt8.ofNat ((value.length - 269) / 256),
        UInt8.ofNat (value.length - 269)]) = Options.extension value.length :=
    if_congr (by omega) rfl rfl
  have hhead : ∀ d < 61, (if d ≤ 12 then [UInt8.ofNat (Options.nibble value.length + d * 16)]
      else if d < 269 then
        [UInt8.ofNat (Options.nibble value.length + 0xd0), UInt8.ofNat (d - 13)]
      else
        [UInt8.ofNat (Options.nibble value.length + 0xe0), UInt8.ofNat ((d - 269) / 256),
          UInt8.ofNat (d - 269)]) ++ Options.extension value.length =
      Options.head d value.length := by
    intro d hd
    rcases Nat.lt_or_ge d 13 with hd13 | hd13
    · rw [if_pos (by omega), Options.head, Options.nibble_of_lt hd13,
        Options.extension_of_lt hd13, Nat.mul_comm d]
      rfl
    · rw [if_neg (by omega), if_pos (by omega), Options.head,
        Options.nibble_of_ge hd13 (by omega), Options.extension_of_ge hd13 (by omega)]
      rfl
  have hpacket := hhead (o.number - w.previous) (by omega)
  simp only [optionsBuildAddOneOption, hdelta, hfirst, hlen, hpacket]
  rw [Writer.append, Options.encode_singleton, Options.encodeOne, Options.last_cons,
    Options.last_nil]

theorem optionsBuildAddOneOption_eq (h : w.previous ≤ o.number) (option : Option (List UInt8)) :
    optionsBuildAddOneOption w option o = w.append (option.toList.map (o.number, ·)) := by
  cases option with
  | none => simp [optionsBuildAddOneOption]
  | some value => exact optionsBuildAddOneOption_some h value

/-- The parts that a string is written as. -/
def partsOf (src : Option (List UInt8)) (o : CoapOption) : Option (List (List UInt8)) :=
  match src with
  | none => some []
  | some query => (List.range (optionsGetOptionPartCount query o)).mapM (optionPart query o)

theorem optionsBuildAddMultipleOption_eq (h : w.previous ≤ o.number) (src : Option (List UInt8)) :
    optionsBuildAddMultipleOption w src o =
      (partsOf src o).map fun parts => w.append (parts.map (o.number, ·)) := by
  cases src with
  | none => simp [optionsBuildAddMultipleOption, partsOf]
  | some query =>
    simp only [optionsBuildAddMultipleOption, partsOf]
    -- over the indexes: behind each part the number is that of the option
    induction List.range (optionsGetOptionPartCount query o) generalizing w with
    | nil => simp
    | cons i is ih =>
      rw [List.foldlM_cons, List.mapM_cons]
      cases hpart : optionPart query o i with
      | none => rfl
      | some part =>
        show List.foldlM _ (optionsBuildAddOneOption w (some part) o) is = _
        have hnext : (w.append [(o.number, part)]).previous ≤ o.number :=
          Writer.append_previous_le h [part]
        rw [optionsBuildAddOneOption_some h, ih hnext]
        cases is.mapM (optionPart query o) with
        | none => rfl
        | some parts => exact congrArg some (Writer.append_append ..)

end Write

/-! ## The list of options -/

/-- The values that are written for an option, if they can be read. -/
abbrev Group := CoapOption × Option (List (List UInt8))

namespace Group

def ofOne (o : CoapOption) (option : Option (List UInt8)) : Group := (o, some option.toList)

def ofUint (o : CoapOption) (value : Option Nat) : Group :=
  ofOne o (value.map uintOptionPayload)

def ofMultiple (o : CoapOption) (src : Option (List UInt8)) : Group := (o, partsOf src o)

/-- The options of a group. -/
def options (g : Group) : Option (List (Nat × List UInt8)) :=
  g.2.map fun parts => parts.map (g.1.number, ·)

end Group

/-- The options of these groups. -/
def optionsOfGroups : List Group → Option (List (Nat × List UInt8))
  | [] => some []
  | g :: gs => do
      let os ← g.options
      let os' ← optionsOfGroups gs
      some (os ++ os')

theorem optionsOfGroups_append (gs gs' : List Group) :
    optionsOfGroups (gs ++ gs') =
      (optionsOfGroups gs).bind fun os => (optionsOfGroups gs').map (os ++ ·) := by
  induction gs with
  | nil => simp [optionsOfGroups]
  | cons g gs ih =>
    simp only [List.cons_append, optionsOfGroups, ih, Option.bind_eq_bind]
    cases g.options with
    | none => rfl
    | some os =>
      cases optionsOfGroups gs with
      | none => rfl
      | some os' => cases optionsOfGroups gs' <;> simp

/-- Such a writer writes these groups behind numbers up to `lo`, and leaves a number up to `hi`. It
    is the invariant of the builder: the difference that goes into the head of an option is computed
    in unsigned arithmetic, and would be a large number if the one before were larger. -/
def Writes (f : Writer → Option Writer) (lo hi : Nat) (gs : List Group) : Prop :=
  ∀ w, w.previous ≤ lo → f w = (optionsOfGroups gs).map w.append ∧
    ∀ w' ∈ f w, w'.previous ≤ hi

namespace Writes

variable {f f' : Writer → Option Writer} {lo mid lo' hi : Nat} {gs gs' : List Group}

theorem andThen (h : Writes f lo mid gs) (h' : Writes f' lo' hi gs') (hle : mid ≤ lo') :
    Writes (fun w => (f w).bind f') lo hi (gs ++ gs') := by
  intro w hw
  obtain ⟨heq, hmid⟩ := h w hw
  rw [optionsOfGroups_append]
  cases hos : optionsOfGroups gs with
  | none =>
    rw [hos] at heq
    simp [heq]
  | some os =>
    rw [hos, Option.map_some] at heq
    obtain ⟨heq', hhi⟩ := h' _ (Nat.le_trans (hmid _ heq) hle)
    simp only [heq, Option.bind_some]
    refine ⟨?_, hhi⟩
    rw [heq']
    cases optionsOfGroups gs' with
    | none => rfl
    | some os' => exact congrArg some (Writer.append_append ..)

theorem nothing (n : Nat) : Writes some n n [] := fun w hw =>
  ⟨by simp [optionsOfGroups], fun w' hw' => Option.some.inj hw' ▸ hw⟩

theorem group {o : CoapOption} {parts : Option (List (List UInt8))}
    (h : ∀ w : Writer, w.previous ≤ o.number →
      f w = parts.map fun parts => w.append (parts.map (o.number, ·))) :
    Writes f o.number o.number [(o, parts)] := by
  intro w hw
  rw [h w hw]
  cases parts with
  | none => exact ⟨rfl, fun _ hw' => absurd hw' (by simp)⟩
  | some parts =>
    refine ⟨by simp [optionsOfGroups, Group.options], ?_⟩
    rintro w' ⟨⟩
    exact Writer.append_previous_le hw parts

theorem one (o : CoapOption) (option : Option (List UInt8)) :
    Writes (fun w => some (optionsBuildAddOneOption w option o)) o.number o.number
      [.ofOne o option] :=
  group fun _ hw => congrArg some (optionsBuildAddOneOption_eq hw option)

theorem uint (o : CoapOption) (value : Option Nat) :
    Writes (fun w => some (optionsBuildAddUintOption w value o)) o.number o.number
      [.ofUint o value] :=
  one o (value.map uintOptionPayload)

theorem multiple (o : CoapOption) (src : Option (List UInt8)) :
    Writes (fun w => optionsBuildAddMultipleOption w src o) o.number o.number
      [.ofMultiple o src] :=
  group fun _ hw => optionsBuildAddMultipleOption_eq hw src

end Writes

namespace SnCoapOptionsList

/-- The ETag, where the octets under its length can be read. -/
def etagGroup (options : SnCoapOptionsList) : Group :=
  (.etag, options.etagSource.bind fun etag => partsOf etag .etag)

def firstGroups (options : SnCoapOptionsList) : List Group :=
  [.ofOne .uriHost options.uriHost, options.etagGroup, .ofUint .observe options.observe,
    .ofUint .uriPort options.uriPort, .ofMultiple .locationPath options.locationPath]

def lastGroups (options : SnCoapOptionsList) : List Group :=
  [.ofUint .maxAge options.maxAgeOption, .ofMultiple .uriQuery options.uriQuery,
    .ofUint .accept options.accept, .ofMultiple .locationQuery options.locationQuery,
    .ofUint .block2 options.block2, .ofUint .block1 options.block1,
    .ofUint .size2 options.size2Option, .ofOne .proxyUri options.proxyUri,
    .ofUint .size1 options.size1Option]

end SnCoapOptionsList

/-- The groups of a message, in the order of their numbers. -/
def groupsOf (msg : SnCoapHdr) : List Group :=
  msg.optionsList.elim [] SnCoapOptionsList.firstGroups ++
    ([.ofMultiple .uriPath msg.uriPathSource, .ofUint .contentFormat msg.contentFormat] ++
      msg.optionsList.elim [] SnCoapOptionsList.lastGroups)

theorem writes_etag (options : SnCoapOptionsList) :
    Writes (fun w => etagBuild w options) CoapOption.etag.number CoapOption.etag.number
      [options.etagGroup] := by
  refine Writes.group fun w hw => ?_
  rw [etagBuild]
  cases options.etagSource with
  | none => rfl
  | some etag => exact optionsBuildAddMultipleOption_eq hw etag

theorem writes_first (options : SnCoapOptionsList) :
    Writes (fun w => optionsBuildFirst w (some options)) 3 8 options.firstGroups :=
  (Writes.one .uriHost options.uriHost).andThen ((writes_etag options).andThen
    ((Writes.uint .observe options.observe).andThen ((Writes.uint .uriPort options.uriPort).andThen
      (Writes.multiple .locationPath options.locationPath)
      (by decide)) (by decide)) (by decide)) (by decide)

theorem writes_last (options : SnCoapOptionsList) :
    Writes (fun w => optionsBuildLast w (some options)) 14 60 options.lastGroups :=
  (Writes.uint .maxAge options.maxAgeOption).andThen
    ((Writes.multiple .uriQuery options.uriQuery).andThen
      ((Writes.uint .accept options.accept).andThen
        ((Writes.multiple .locationQuery options.locationQuery).andThen
          ((Writes.uint .block2 options.block2).andThen
            ((Writes.uint .block1 options.block1).andThen
              ((Writes.uint .size2 options.size2Option).andThen
                ((Writes.one .proxyUri options.proxyUri).andThen
                  (Writes.uint .size1 options.size1Option)
                (by decide)) (by decide)) (by decide)) (by decide)) (by decide)) (by decide))
    (by decide)) (by decide)

theorem writes_first_of (options : Option SnCoapOptionsList) :
    Writes (fun w => optionsBuildFirst w options) 3 8
      (options.elim [] SnCoapOptionsList.firstGroups) := by
  cases options with
  | none => exact fun w hw => ⟨(Writes.nothing 3 w hw).1,
      fun w' hw' => Nat.le_trans ((Writes.nothing 3 w hw).2 w' hw') (by decide)⟩
  | some options => exact writes_first options

theorem writes_last_of (options : Option SnCoapOptionsList) :
    Writes (fun w => optionsBuildLast w options) 14 60
      (options.elim [] SnCoapOptionsList.lastGroups) := by
  cases options with
  | none => exact fun w hw => ⟨(Writes.nothing 14 w hw).1,
      fun w' hw' => Nat.le_trans ((Writes.nothing 14 w hw).2 w' hw') (by decide)⟩
  | some options => exact writes_last options

/-- **What is written behind the header**: the token, and the code of the options. The builder
    writes group after group, each with the number of the last option before it; the code is that of
    all of them as one list. -/
theorem optionsBuild_eq (packet : List UInt8) {msg : SnCoapHdr}
    (htoken : msg.tokenPtr = none → msg.tokenLen = 0) :
    optionsBuild packet msg = (tokenBuild msg).bind fun token =>
      (optionsOfGroups (groupsOf msg)).map fun os => packet ++ token ++ Options.encode 0 os := by
  by_cases h : msg.uriPath = none ∧ msg.tokenPtr = none ∧ msg.contentFormat = none ∧
      msg.optionsList = none
  · obtain ⟨hpath, hptr, hformat, hoptions⟩ := h
    have hgroups : optionsOfGroups (groupsOf msg) = some [] := by
      rw [groupsOf, SnCoapHdr.uriPathSource, hoptions, hformat, hpath]
      rfl
    rw [optionsBuild, if_pos ⟨hpath, hptr, hformat, hoptions⟩, hgroups, tokenBuild, hptr,
      htoken hptr]
    simp [Options.encode]
  have hall := (writes_first_of msg.optionsList).andThen
    (((Writes.multiple .uriPath msg.uriPathSource).andThen
      (Writes.uint .contentFormat msg.contentFormat) (by decide)).andThen
        (writes_last_of msg.optionsList) (by decide)) (by decide)
  rw [optionsBuild, if_neg h]
  cases htoken : tokenBuild msg with
  | none => rfl
  | some token =>
    have hwrites := (hall ⟨packet ++ token, 0⟩ (Nat.zero_le 3)).1
    have hwriter : (optionsBuildFirst ⟨packet ++ token, 0⟩ msg.optionsList).bind (fun w =>
        ((optionsBuildAddMultipleOption w msg.uriPathSource .uriPath).bind fun w =>
          some (optionsBuildAddUintOption w msg.contentFormat .contentFormat)).bind fun w =>
            optionsBuildLast w msg.optionsList) =
        (optionsOfGroups (groupsOf msg)).map (Writer.append ⟨packet ++ token, 0⟩) := hwrites
    have hpacket := congrArg (Option.map Writer.packet) hwriter
    rw [Option.map_map] at hpacket
    refine Eq.trans ?_ hpacket
    simp only [Option.map_eq_bind, Option.bind_assoc, Option.bind_eq_bind, Option.bind_some,
      Function.comp_def]

end LibCoap
end LightDuer
