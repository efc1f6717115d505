import LightDuer.LibCoap.Field

/-!
# Storing what was read

A field of a message, a number and the string or the octets of its value, is written as one option
or as the options of its parts. The parser reads it in one round of its loop, and stores it.

The switch of `sn_coap_parser_options_parse` has a case for each option, and the cases are of three
kinds: integers of so many octets, strings of so many octets, and strings of several parts.
`CoapOption.format` says which an option is, and `store` what each puts into the message. With these
the nineteen cases become three lemmas (`optionParse_integer`, `optionParse_string`,
`optionParse_parts`), and `step?_field` is one statement about any field: the round at it stores it
and goes on behind it.

Some options are refused when they come a second time. Which, and by what they are recognised, is
not the same for all of them: a Content-Format by its value, a list of parts by its pointer, others
not at all. `given` has the test of each as the source makes it, and `given_store` says that storing
one field does not make another one count as given, which is what the loop over distinct options
needs. A long ETag has to be excluded: its length is stored with sixteen bits over an octet and the
two flags of the sizes, which would count as given then.

`Readable` are the values that the parser takes. `optionsRound_field_failed` is the case in which it
does not take one that is readable: the last field of a packet, with the wrong octet behind it.
-/

set_option autoImplicit false

namespace LightDuer
namespace LibCoap

open Lib

/-- What the values of an option are. -/
inductive Format
  | integer (max : Nat)
  | string (max : Nat)
  | parts
  | unknown
deriving DecidableEq, Repr

namespace CoapOption

/-- The formats that the parser knows. -/
def format : CoapOption → Format
  | contentFormat | uriPort | observe | accept => .integer 2
  | block1 | block2 => .integer 3
  | maxAge | size1 | size2 => .integer 4
  | proxyUri => .string 1034
  | uriHost => .string 255
  | etag | locationPath | locationQuery | uriPath | uriQuery => .parts
  | ifMatch | ifNoneMatch | proxyScheme => .unknown

theorem format_max_le {o : CoapOption} {max : Nat}
    (h : o.format = .integer max ∨ o.format = .string max) : max ≤ 1034 := by
  cases o <;> rcases h with h | h <;> cases h <;> decide

theorem format_parts_iff (o : CoapOption) : o.format = .parts ↔ o.repeatable = true := by
  cases o <;> decide

end CoapOption

/-- A value as the parser stores it, in a message that has none for this option. -/
def store (msg : SnCoapHdr) (o : CoapOption) (value : List UInt8) : SnCoapHdr :=
  let options := msg.allocOptions
  match o with
  | .contentFormat => { msg with contentFormat := some (Options.ofOctets value) }
  | .uriPath => { msg with uriPath := some value }
  | .maxAge => { msg with optionsList := some { options with maxAge := Options.ofOctets value } }
  | .proxyUri => { msg with optionsList := some { options with proxyUri := some value } }
  | .etag => { msg with optionsList := some (options.storeEtag (some value)) }
  | .uriHost => { msg with optionsList := some { options with uriHost := some value } }
  | .locationPath => { msg with optionsList := some { options with locationPath := some value } }
  | .uriPort =>
      { msg with optionsList := some { options with uriPort := some (Options.ofOctets value) } }
  | .locationQuery => { msg with optionsList := some { options with locationQuery := some value } }
  | .observe =>
      { msg with optionsList := some { options with observe := some (Options.ofOctets value) } }
  | .uriQuery => { msg with optionsList := some { options with uriQuery := some value } }
  | .block2 =>
      { msg with optionsList := some { options with block2 := some (Options.ofOctets value) } }
  | .block1 =>
      { msg with optionsList := some { options with block1 := some (Options.ofOctets value) } }
  | .accept =>
      { msg with optionsList := some { options with accept := some (Options.ofOctets value) } }
  | .size1 =>
      { msg with
        optionsList := some { options with useSize1 := true, size1 := Options.ofOctets value } }
  | .size2 =>
      { msg with
        optionsList := some { options with useSize2 := true, size2 := Options.ofOctets value } }
  | .ifMatch | .ifNoneMatch | .proxyScheme => msg

/-- The options that the parser refuses a second time, and whether they have been given. -/
def given (msg : SnCoapHdr) : CoapOption → Bool
  | .contentFormat => msg.contentFormat.isSome
  | .proxyUri => msg.allocOptions.proxyUri.isSome
  | .uriHost => msg.allocOptions.uriHost.isSome
  | .locationPath => msg.allocOptions.locationPath.isSome
  | .uriPort => msg.allocOptions.uriPort.isSome
  | .observe => msg.allocOptions.observe.isSome
  | .block2 => msg.allocOptions.block2.isSome
  | .block1 => msg.allocOptions.block1.isSome
  | .accept => msg.allocOptions.accept.isSome
  | .size1 => msg.allocOptions.useSize1
  | .size2 => msg.allocOptions.useSize2
  | _ => false

/-- Another field does not count as given. -/
theorem given_store {msg : SnCoapHdr} {o o' : CoapOption} {value : List UInt8} (hne : o ≠ o')
    (hvalue : o = .etag → value.length < 2 ^ 8) (h : given msg o' = false) :
    given (store msg o value) o' = false := by
  cases o
  case etag =>
    have hlt := hvalue rfl
    have hflag : ∀ n, 2 ^ 8 ≤ n → (value.length / n % 2 == 1) = false := by
      intro n hn
      rw [Nat.div_eq_of_lt (by omega)]
      rfl
    cases o'
    case size1 => exact hflag (2 ^ 8) (Nat.le_refl _)
    case size2 => exact hflag (2 ^ 9) (by decide)
    all_goals exact h
  all_goals cases o' <;> first | exact h | exact absurd rfl hne

namespace Packet

variable {packet : Packet} {s : ParseState} {pos : Nat} {value : List UInt8} {o : CoapOption}

theorem integer_eq {max : Nat} (hmem : Holds packet.mem (pos + 1) value)
    (hle : value.length ≤ max) :
    packet.integer pos value.length max false =
      some (Options.ofOctets value, pos + 1 + value.length) := by
  rw [integer, if_neg (not_or.mpr ⟨Nat.not_lt.mpr hle, Bool.false_ne_true⟩), optionsParseUint,
    hmem.window_eq]
  rfl

theorem string_eq {max : Nat} (hmem : Holds packet.mem (pos + 1) value)
    (hle : value.length ≤ max) (hne : value ≠ []) :
    packet.string pos value.length max false = some (value, pos + 1 + value.length) := by
  have hpos := List.length_pos_iff.mpr hne
  have hneg : ¬(max < value.length ∨ value.length < 1 ∨ false = true) := by
    rintro (hlt | hlt | hgiven)
    · omega
    · omega
    · cases hgiven
  rw [string, if_neg hneg, hmem.window_eq]

/-! ## One round -/

theorem optionParse_integer {max : Nat} (hformat : o.format = .integer max)
    (hmem : Holds packet.mem (pos + 1) value) (hle : value.length ≤ max)
    (hnew : given s.msg o = false) :
    packet.optionParse s pos o.number value.length =
      some (store s.msg o value, pos + 1 + value.length) := by
  unfold optionParse
  rw [CoapOption.ofNumber?_number]
  cases o <;> cases hformat <;> simp only [given] at hnew <;>
    simp only [hnew, integer_eq hmem hle, Option.map_some] <;> rfl

theorem optionParse_string {max : Nat} (hformat : o.format = .string max)
    (hmem : Holds packet.mem (pos + 1) value) (hle : value.length ≤ max) (hne : value ≠ [])
    (hnew : given s.msg o = false) :
    packet.optionParse s pos o.number value.length =
      some (store s.msg o value, pos + 1 + value.length) := by
  unfold optionParse
  rw [CoapOption.ofNumber?_number]
  cases o <;> cases hformat <;> simp only [given] at hnew <;>
    simp only [hnew, string_eq hmem hle hne, Option.map_some] <;> rfl

theorem optionParse_parts {len pos' : Nat} (hformat : o.format = .parts)
    (hparse : packet.optionsParseMultipleOptions pos s.messageLeft o len =
      some (some value, pos')) (hnew : given s.msg o = false) :
    packet.optionParse s pos o.number len = some (store s.msg o value, pos') := by
  unfold optionParse
  rw [CoapOption.ofNumber?_number]
  cases o <;> cases hformat <;> simp only [given] at hnew <;>
    simp only [hnew, hparse, Option.map_some] <;> rfl

/-- A string that fails, or is read to another place, does so in the switch too. -/
theorem optionParse_parts_of {len pos' : Nat} {msg : SnCoapHdr} (hformat : o.format = .parts)
    (h : packet.optionParse s pos o.number len = some (msg, pos')) :
    ∃ parsed, packet.optionsParseMultipleOptions pos s.messageLeft o len =
      some (parsed, pos') := by
  unfold optionParse at h
  rw [CoapOption.ofNumber?_number] at h
  have parts : ∀ {f : Option (List UInt8) × Nat → SnCoapHdr},
      ((packet.optionsParseMultipleOptions pos s.messageLeft o len).map fun v => (f v, v.2)) =
        some (msg, pos') → ∃ parsed,
          packet.optionsParseMultipleOptions pos s.messageLeft o len = some (parsed, pos') := by
    intro f h
    obtain ⟨v, hv, heq⟩ := Option.map_eq_some_iff.mp h
    cases heq
    exact ⟨v.1, hv⟩
  cases o <;> cases hformat
  case locationPath =>
    simp only at h
    split at h
    · cases h
    · exact parts h
  all_goals exact parts h

/-- The head of an option that is in the memory. -/
theorem optionHead_head {previous number len : Nat} {rest : List UInt8}
    (hmem : Holds packet.mem pos (Options.head (number - previous) len ++ rest))
    (hprevious : previous ≤ number) (hnumber : number < 2 ^ 16) (hlen : len < 2 ^ 16) :
    packet.optionHead pos previous = some (number, len,
      pos + (Options.extension (number - previous)).length + (Options.extension len).length) := by
  obtain ⟨hfirst, hbehind⟩ := hmem
  have hb := Options.head_first_toNat (number - previous) len
  have hdelta := Options.nibble_le (number - previous)
  have hnib := Options.nibble_le len
  have hext := hbehind.left
  have hextLen : Holds packet.mem (pos + (Options.extension (number - previous)).length + 1)
      (Options.extension len) := by
    rw [Nat.add_right_comm]
    exact hext.right
  unfold optionHead
  rw [hfirst, hb]
  simp only
  rw [if_neg (by omega),
    show (Options.nibble len + 16 * Options.nibble (number - previous)) / 16 =
      Options.nibble (number - previous) by omega,
    show (Options.nibble len + 16 * Options.nibble (number - previous)) % 16 =
      Options.nibble len by omega,
    Options.extended_nibble (by omega) hext.left, Options.extended_nibble hlen hextLen,
    Nat.sub_add_cancel hprevious, Nat.mod_eq_of_lt hnumber]

end Packet

/-! ## A field -/

/-- An option and its value: the octets of an integer, or a string. -/
abbrev Field := CoapOption × List UInt8

namespace Field

/-- What is written as the value of an option each. -/
def parts (f : Field) : List (List UInt8) :=
  if f.1.repeatable then f.2.splitOn f.1.separator else [f.2]

def options (f : Field) : List (Nat × List UInt8) := f.parts.map (f.1.number, ·)

/-- The values that the parser takes, and stores without touching other fields. -/
def Readable (f : Field) : Prop :=
  match f.1.format with
  | .integer max => f.2.length ≤ max
  | .string max => f.2 ≠ [] ∧ f.2.length ≤ max
  | .parts =>
      (∀ part ∈ f.2.splitOn f.1.separator, part ≠ [] ∧ Packet.partTooLong f.1 part.length = false) ∧
        (f.2.splitOn f.1.separator).length < 2 ^ 7 ∧ (f.1 = .etag → f.2.length < 2 ^ 8)
  | .unknown => False

instance (f : Field) : Decidable f.Readable :=
  match h : f.1.format with
  | .integer max => decidable_of_iff (f.2.length ≤ max) (by rw [Readable, h])
  | .string max => decidable_of_iff (f.2 ≠ [] ∧ f.2.length ≤ max) (by rw [Readable, h])
  | .parts => decidable_of_iff
      ((∀ part ∈ f.2.splitOn f.1.separator,
          part ≠ [] ∧ Packet.partTooLong f.1 part.length = false) ∧
        (f.2.splitOn f.1.separator).length < 2 ^ 7 ∧ (f.1 = .etag → f.2.length < 2 ^ 8))
      (by rw [Readable, h])
  | .unknown => .isFalse (by rw [Readable, h]; exact id)

/-- The octets that extend its first head, behind an option with the number `prev`. -/
def headExtra (prev : Nat) (f : Field) : Nat :=
  (Options.extension (f.1.number - prev)).length +
    (Options.extension (f.parts.headD []).length).length

variable {f : Field}

theorem options_eq (f : Field) (prev : Nat) : ∃ part parts, f.parts = part :: parts ∧
    Options.encode prev f.options =
      Options.head (f.1.number - prev) part.length ++ (part ++ repeats parts) ∧
    (Options.encode prev f.options).length =
      1 + f.headExtra prev + (part ++ repeats parts).length := by
  have hne : f.parts ≠ [] := by
    unfold parts
    split
    · exact List.splitOn_ne_nil _ _
    · exact List.cons_ne_nil _ _
  obtain ⟨part, parts, hparts⟩ := List.exists_cons_of_ne_nil hne
  have hcode := encode_parts prev f.1.number part parts
  refine ⟨part, parts, hparts, by rw [options, hparts, hcode], ?_⟩
  rw [options, hparts, hcode, List.length_append, Options.head_length, headExtra, hparts]
  show _ + _ = 1 + ((Options.extension _).length + (Options.extension part.length).length) + _
  omega

theorem parts_of_format (h : f.1.format = .parts) : f.parts = f.2.splitOn f.1.separator :=
  if_pos ((CoapOption.format_parts_iff f.1).mp h)

theorem parts_of_format_ne (h : f.1.format ≠ .parts) : f.parts = [f.2] :=
  if_neg fun hrepeat => h ((CoapOption.format_parts_iff f.1).mpr hrepeat)

theorem partFits {part : List UInt8} (h : f.1.format = .parts)
    (hpart : part ≠ [] ∧ Packet.partTooLong f.1 part.length = false) :
    Packet.PartFits f.1 part := by
  refine ⟨hpart.1, hpart.2, ?_⟩
  have hlong := hpart.2
  cases ho : f.1 <;> rw [ho] at h hlong <;> cases h <;> simp [Packet.partTooLong] at hlong <;> omega

end Field

namespace Packet

variable {packet : Packet} {s : ParseState} {f : Field}

/-- What stands at a field: a head, and the parts. -/
theorem field_head {pos prev : Nat} (hprevious : prev < f.1.number)
    (hmem : Holds packet.mem pos (Options.encode prev f.options)) :
    ∃ part parts, f.parts = part :: parts ∧ packet.mem pos ≠ 0xff ∧
      (part.length < 2 ^ 16 → packet.optionHead pos prev =
        some (f.1.number, part.length, pos + f.headExtra prev)) ∧
      Holds packet.mem (pos + f.headExtra prev + 1) (part ++ repeats parts) ∧
      (Options.encode prev f.options).length =
        1 + f.headExtra prev + (part ++ repeats parts).length := by
  obtain ⟨part, parts, hparts, hcode, hsize⟩ := f.options_eq prev
  have hnumber := f.1.number_le
  rw [hcode] at hmem
  have hextra : f.headExtra prev = (Options.extension (f.1.number - prev)).length +
      (Options.extension part.length).length := by
    rw [Field.headExtra, hparts]
    rfl
  refine ⟨part, parts, hparts, ?_, ?_, ?_, hsize⟩
  · intro hff
    have hfirst := congrArg UInt8.toNat (hmem.1.symm.trans hff)
    have hdelta := Options.nibble_le (f.1.number - prev)
    have hlen := Options.nibble_le part.length
    rw [Options.head_first_toNat, show (0xff : UInt8).toNat = 255 from rfl] at hfirst
    omega
  · intro hlt
    rw [optionHead_head hmem (Nat.le_of_lt hprevious) (by omega) hlt, Nat.add_assoc, ← hextra]
  · have hright := hmem.right
    rwa [Options.head_length, show pos + (1 + (Options.extension (f.1.number - prev)).length +
      (Options.extension part.length).length) = pos + f.headExtra prev + 1 by omega] at hright

/-- **The round at a field** stores it. -/
theorem step?_field (hf : f.Readable) (hnew : given s.msg f.1 = false)
    (hprevious : s.previousOptionNumber < f.1.number)
    (hleft : s.messageLeft = packet.len - s.pos)
    (hmem : Holds packet.mem s.pos (Options.encode s.previousOptionNumber f.options))
    {pos : Nat} (hpos : pos = s.pos + (Options.encode s.previousOptionNumber f.options).length)
    (hle : pos ≤ packet.len)
    (hend : f.1.format = .parts → CountEnds (packet.mem pos).toNat
      (packet.len - pos + f.headExtra s.previousOptionNumber)) :
    packet.step? s = some ⟨pos, f.1.number, packet.len - pos, store s.msg f.1 f.2⟩ := by
  obtain ⟨part, parts, hparts, hff, hhead, hbody, hsize⟩ := field_head hprevious hmem
  have hnumber := f.1.number_le
  rw [hsize] at hpos
  suffices hparse : part.length < 2 ^ 16 ∧
      packet.optionParse s (s.pos + f.headExtra s.previousOptionNumber) f.1.number part.length =
        some (store s.msg f.1 f.2, pos) by
    refine step?_eq_some_iff.mpr
      ⟨by omega, hff, _, _, _, _, _, hhead hparse.1, hparse.2, hle, ?_⟩
    rw [Nat.mod_eq_of_lt (by omega)]
  have single : f.1.format ≠ .parts → part = f.2 ∧ parts = [] := by
    intro hne
    rw [Field.parts_of_format_ne hne] at hparts
    cases hparts
    exact ⟨rfl, rfl⟩
  unfold Field.Readable at hf
  cases hformat : f.1.format with
  | integer max =>
    rw [hformat] at hf
    obtain ⟨rfl, rfl⟩ := single (by rw [hformat]; exact fun h => by cases h)
    rw [repeats_nil, List.append_nil] at hbody hpos
    have hmax := CoapOption.format_max_le (.inl hformat)
    have hlt : f.2.length ≤ max := hf
    refine ⟨by omega, ?_⟩
    rw [optionParse_integer hformat hbody hf hnew]
    exact congrArg some (Prod.ext rfl (by show _ = pos; omega))
  | string max =>
    rw [hformat] at hf
    obtain ⟨rfl, rfl⟩ := single (by rw [hformat]; exact fun h => by cases h)
    rw [repeats_nil, List.append_nil] at hbody hpos
    have hmax := CoapOption.format_max_le (.inr hformat)
    have hlt : f.2.length ≤ max := hf.2
    refine ⟨by omega, ?_⟩
    rw [optionParse_string hformat hbody hf.2 hf.1 hnew]
    exact congrArg some (Prod.ext rfl (by show _ = pos; omega))
  | parts =>
    rw [hformat] at hf
    rw [Field.parts_of_format hformat] at hparts
    obtain ⟨hfits, hlt, -⟩ := hf
    have hall : ∀ p ∈ part :: parts, PartFits f.1 p := fun p hp =>
      Field.partFits hformat (hfits p (hparts ▸ hp))
    have hvalue : [f.1.separator].intercalate (part :: parts) = f.2 := by
      rw [← hparts, List.intercalate_splitOn]
    have hplace : s.pos + f.headExtra s.previousOptionNumber +
        (1 + (part ++ repeats parts).length) = pos := by omega
    have hends := hend hformat
    rw [← hplace] at hends
    refine ⟨Nat.lt_trans (hall part List.mem_cons_self).2.2 (by decide), ?_⟩
    have hshort := packet.len_lt
    have hparse := optionsParseMultipleOptions_parts ((CoapOption.format_parts_iff f.1).mp hformat)
      (show s.messageLeft < _ by omega) hall hbody
      (by rw [hparts] at hlt; exact hlt)
      (show s.messageLeft = _ by rw [hleft]; omega) hends
    rw [hvalue] at hparse
    rw [optionParse_parts hformat hparse hnew]
    exact congrArg some (Prod.ext rfl (by show _ = pos; omega))
  | unknown =>
    rw [hformat] at hf
    exact hf.elim

/-- The last field of a packet, a string whose counting does not end. -/
theorem optionsRound_field_failed (hf : f.Readable)
    (hprevious : s.previousOptionNumber < f.1.number)
    (hleft : s.messageLeft = packet.len - s.pos)
    (hmem : Holds packet.mem s.pos (Options.encode s.previousOptionNumber f.options))
    (hlen : packet.len = s.pos + (Options.encode s.previousOptionNumber f.options).length)
    (hformat : f.1.format = .parts) (hextra : f.headExtra s.previousOptionNumber ≤ 2)
    (hend : ¬CountEnds (packet.mem packet.len).toNat (f.headExtra s.previousOptionNumber)) :
    packet.optionsRound s = .failed := by
  obtain ⟨part, parts, hparts, hff, hhead, hbody, hsize⟩ := field_head hprevious hmem
  rw [hsize] at hlen
  unfold Field.Readable at hf
  rw [hformat] at hf
  rw [Field.parts_of_format hformat] at hparts
  obtain ⟨hfits, hlt, -⟩ := hf
  have hall : ∀ p ∈ part :: parts, PartFits f.1 p := fun p hp =>
    Field.partFits hformat (hfits p (hparts ▸ hp))
  have hplace : s.pos + f.headExtra s.previousOptionNumber +
      (1 + (part ++ repeats parts).length) = packet.len := by omega
  rw [← hplace] at hend
  have hstep : packet.step? s = none := by
    by_contra hsome
    obtain ⟨s', hs'⟩ := Option.ne_none_iff_exists'.mp hsome
    obtain ⟨-, -, number, len, pos, msg, pos', hhead', hparse, hle, -⟩ :=
      step?_eq_some_iff.mp hs'
    rw [hhead (Nat.lt_trans (hall part List.mem_cons_self).2.2 (by decide))] at hhead'
    cases hhead'
    obtain ⟨parsed, hmultiple⟩ := optionParse_parts_of hformat hparse
    have hplace' : s.messageLeft = 1 + (part ++ repeats parts).length +
        f.headExtra s.previousOptionNumber := by
      rw [hleft]
      omega
    have hshort := packet.len_lt
    have := optionsParseMultipleOptions_beyond ((CoapOption.format_parts_iff f.1).mp hformat)
      (show s.messageLeft < _ by omega) hall hbody
      (by rw [hparts] at hlt; exact hlt) hplace' hextra hend hmultiple
    omega
  unfold step? at hstep
  cases hround : packet.optionsRound s with
  | failed => rfl
  | ended =>
    unfold optionsRound at hround
    rw [if_neg (not_or.mpr ⟨by omega, hff⟩)] at hround
    split at hround
    · cases hround
    split at hround
    · cases hround
    split at hround <;> cases hround
  | next s' =>
    rw [hround] at hstep
    cases hstep

end Packet

end LibCoap
end LightDuer
