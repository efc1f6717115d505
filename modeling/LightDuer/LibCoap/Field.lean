import LightDuer.LibCoap.Endless
import LightDuer.LibCoap.Strings

/-!
# Reading what was written

How the parser reads an option, or the options of one string, that stand in the memory as the
builder writes them. A string is read twice: its parts are counted up to an option with another
number, and then copied. With no payload behind the last string the counting looks at what is behind
the packet.

## Counting

`sn_coap_parser_options_count_needed_memory_multiple_option` walks over the heads of the options to
come, until one has a difference that is not zero, and adds up their lengths. Its counters have
sixteen bits. `countParts` is the same walk with counters that have no width, and `countLoop_eq`
says that the width is not seen where the rest of a packet is shorter than 2^15 octets: the parts
that it lets pass are shorter than 256, so the index is never more than one part behind the end.
From there on only `countParts` is used.

What ends the counting behind the last part is described by `CountEnds`: an octet that is the head
of another option, or one that takes the index over the end of the packet. If the last head of a
string is extended, the index is one or two octets behind the pointer, the loop looks at octets
behind the packet, and what is there decides. Both outcomes are proved, the memory of the string by
`count_parts` and the other by `count_parts_lt`.

## Copying

`copyLoop` copies one part after the other with the separators in between; `joined` is what has been
copied, and that it is the string that the parts are cut from is a matter of `List.intercalate`. The
copying goes by the differences alone and does not look at what was counted but to check that the
memory is large enough.
-/

set_option autoImplicit false

namespace LightDuer
namespace LibCoap

open Lib

/-! ## The parts behind the first -/

/-- Options with the number of the one before. -/
def repeats (parts : List (List UInt8)) : List UInt8 := parts.flatMap (Options.encodeOne 0)

@[simp] theorem repeats_nil : repeats [] = [] := rfl

@[simp] theorem repeats_cons (part : List UInt8) (parts : List (List UInt8)) :
    repeats (part :: parts) = Options.encodeOne 0 part ++ repeats parts := rfl

theorem encode_repeats (n : Nat) (parts : List (List UInt8)) :
    Options.encode n (parts.map (n, ·)) = repeats parts := by
  induction parts with
  | nil => rfl
  | cons part parts ih =>
    rw [List.map_cons, Options.encode, Nat.sub_self, ih, repeats_cons]

/-- The code of parts, of which the first is at `delta`. -/
theorem encode_parts (prev n : Nat) (part : List UInt8) (parts : List (List UInt8)) :
    Options.encode prev ((part :: parts).map (n, ·)) =
      Options.head (n - prev) part.length ++ (part ++ repeats parts) := by
  rw [List.map_cons, Options.encode, encode_repeats, Options.encodeOne, List.append_assoc]

theorem repeats_length_ge (parts : List (List UInt8)) : parts.length ≤ (repeats parts).length := by
  induction parts with
  | nil => exact Nat.zero_le _
  | cons part parts ih =>
    rw [repeats_cons, List.length_append, Options.encodeOne, List.length_append,
      Options.head_length, List.length_cons]
    omega

/-- The octets of a head with a difference of zero. -/
theorem holds_encodeOne_zero {mem : Nat → UInt8} {pos : Nat} {part rest : List UInt8}
    (h : Holds mem pos (Options.encodeOne 0 part ++ rest)) (hlt : part.length < 2 ^ 16) :
    (mem pos).toNat / 16 = 0 ∧ (mem pos).toNat % 16 ≠ 15 ∧
      Options.extended mem pos ((mem pos).toNat % 16) =
        (part.length, (Options.extension part.length).length) ∧
      Holds mem (pos + (Options.extension part.length).length + 1) (part ++ rest) := by
  have hzero : Options.extension 0 = [] := rfl
  rw [Options.encodeOne, Options.head, hzero, List.nil_append, List.cons_append, List.cons_append,
    List.append_assoc] at h
  obtain ⟨hfirst, hbehind⟩ := h
  have hnibble := Options.nibble_le part.length
  have hoctet : (mem pos).toNat = Options.nibble part.length := by
    rw [hfirst, Options.head_first_toNat]
    exact Nat.add_zero _
  refine ⟨by omega, by omega, ?_, ?_⟩
  · rw [hoctet, Nat.mod_eq_of_lt (by omega), Options.extended_nibble hlt hbehind.left]
  · rw [Nat.add_right_comm]
    exact hbehind.right

namespace Packet

variable {packet : Packet}

/-! ## Counting -/

section Count

variable {option : CoapOption} {pos left : Nat}

/-- The length of a part that the counting lets pass. -/
def PartFits (option : CoapOption) (part : List UInt8) : Prop :=
  part ≠ [] ∧ partTooLong option part.length = false ∧ part.length < 2 ^ 8

/-- The counting with counters that have no width. -/
def countParts (packet : Packet) (pos left : Nat) (option : CoapOption) :
    Nat → Nat → Nat → Nat → Option Nat
  | 0, _, ret, _ => some (ret - 1)
  | fuel + 1, i, ret, len =>
      if i < left then
        if partTooLong option len then none
        else if left ≤ ret + len + 1 ∨ i + len = left then some (ret + len)
        else
          let b := (packet.mem (pos + (i + len))).toNat
          if b / 16 ≠ 0 then some (ret + len)
          else if b % 16 = 15 then none
          else
            let next := Options.extended packet.mem (pos + (i + len)) (b % 16)
            countParts packet pos left option fuel (i + len + next.2 + 1) (ret + len + 1) next.1
      else some (ret - 1)

/-- A round of the counting. -/
theorem countParts_succ {fuel i ret len : Nat} (hi : i < left)
    (hlen : partTooLong option len = false) :
    packet.countParts pos left option (fuel + 1) i ret len =
      if left ≤ ret + len + 1 ∨ i + len = left then some (ret + len)
      else
        let b := (packet.mem (pos + (i + len))).toNat
        if b / 16 ≠ 0 then some (ret + len)
        else if b % 16 = 15 then none
        else
          let next := Options.extended packet.mem (pos + (i + len)) (b % 16)
          packet.countParts pos left option fuel (i + len + next.2 + 1) (ret + len + 1) next.1 := by
  rw [countParts, if_pos hi, hlen]
  rfl

/-- The parts that are let pass are short. -/
theorem partTooLong_lt (hrepeat : option.repeatable = true) {len : Nat}
    (h : partTooLong option len = false) : len < 2 ^ 8 := by
  cases option <;> cases hrepeat <;> simp only [partTooLong, decide_eq_false_iff_not] at h <;> omega

/-- **The width of the counters is not seen** within a packet: `i` is behind the octets that are
    left by no more than one part, and what is counted is less than them or the counting ends. -/
theorem countLoop_eq (hrepeat : option.repeatable = true) (hleft : left < 2 ^ 15)
    (fuel i ret len : Nat) (hret : ret < 2 ^ 15) :
    packet.countLoop pos left option fuel i ret len =
      packet.countParts pos left option fuel i ret len := by
  induction fuel generalizing i ret len with
  | zero => rfl
  | succ fuel ih =>
    rw [countLoop, countParts]
    by_cases hi : i < left
    swap
    · rw [if_neg hi, if_neg hi]
    rw [if_pos hi, if_pos hi]
    cases hlen : partTooLong option len with
    | true => rfl
    | false =>
      have hlt := partTooLong_lt hrepeat hlen
      have hmod : (i + len) % 2 ^ 16 = i + len := Nat.mod_eq_of_lt (by omega)
      have hmod' : (ret + len + 1) % 2 ^ 16 = ret + len + 1 := Nat.mod_eq_of_lt (by omega)
      simp only [hmod, hmod', Bool.false_eq_true, if_false, Nat.add_sub_cancel]
      by_cases hends : left ≤ ret + len + 1 ∨ i + len = left
      · rw [if_pos hends, if_pos hends]
      rw [if_neg hends, if_neg hends]
      have hext := Options.extended_le packet.mem (pos + (i + len))
        ((packet.mem (pos + (i + len))).toNat % 16)
      have hmod'' : (i + len + (Options.extended packet.mem (pos + (i + len))
          ((packet.mem (pos + (i + len))).toNat % 16)).2 + 1) % 2 ^ 16 =
          i + len + (Options.extended packet.mem (pos + (i + len))
            ((packet.mem (pos + (i + len))).toNat % 16)).2 + 1 := Nat.mod_eq_of_lt (by omega)
      rw [hmod'', ih _ _ _ (by omega)]

/-- The counting up to the last part; what it counts there is not more than where it is. -/
theorem countParts_repeats {parts : List (List UInt8)} {part : List UInt8} (fuel i ret : Nat)
    (hfits : ∀ p ∈ part :: parts, PartFits option p)
    (hmem : Holds packet.mem (pos + i) (part ++ repeats parts))
    (hle : i + (part ++ repeats parts).length ≤ left) (hret : ret + 1 ≤ i) :
    ∃ i' ret', ∃ last ∈ part :: parts,
      packet.countParts pos left option (fuel + parts.length) i ret part.length =
        packet.countParts pos left option fuel i' ret' last.length ∧
      i' + last.length = i + (part ++ repeats parts).length ∧
      ret' + last.length = ret + ([option.separator].intercalate (part :: parts)).length ∧
      ret' + 1 ≤ i' := by
  induction parts generalizing part i ret with
  | nil => exact ⟨i, ret, part, List.mem_cons_self, rfl, by simp, by simp, hret⟩
  | cons next parts ih =>
    have hpart := hfits part List.mem_cons_self
    have hnext := hfits next (List.mem_cons_of_mem part List.mem_cons_self)
    have hlong := hpart.2.1
    have hlt := hnext.2.2
    have hpos := List.length_pos_iff.mpr hpart.1
    rw [repeats_cons] at hmem hle ⊢
    rw [List.length_append, List.length_append, Options.encodeOne, List.length_append,
      Options.head_length] at hle
    obtain ⟨hzero, hne, hextended, hrest⟩ := holds_encodeOne_zero hmem.right (by omega)
    rw [Nat.add_assoc] at hzero hne hextended
    have hi : pos + (i + part.length + (Options.extension next.length).length + 1) =
        pos + i + part.length + (Options.extension next.length).length + 1 := by omega
    obtain ⟨i', ret', last, hlast, heq, hend, hcount, hbound⟩ := ih
      (i + part.length + (Options.extension next.length).length + 1) (ret + part.length + 1)
      (fun p hp => hfits p (List.mem_cons_of_mem part hp)) (hi ▸ hrest)
      (by rw [List.length_append]; omega) (by omega)
    refine ⟨i', ret', last, List.mem_cons_of_mem part hlast, ?_, ?_, ?_, hbound⟩
    · rw [List.length_cons, ← Nat.add_assoc, countParts_succ (by omega) hlong, if_neg (by omega)]
      simp only [hzero, hne, hextended, ne_eq, not_true_eq_false, if_false]
      exact heq
    · rw [hend]
      simp only [List.length_append, Options.encodeOne, Options.head_length]
      have hext : (Options.extension 0).length = 0 := rfl
      omega
    · rw [hcount, List.intercalate_cons_cons]
      simp only [List.length_append, List.length_singleton]
      omega

/-- What the counting comes to at an octet behind the last part: it is the head of another option,
    or it is not in the packet and takes the counting to its end. -/
def CountEnds (b beyond : Nat) : Prop :=
  beyond = 0 ∨ 16 ≤ b ∨ b ≠ 15 ∧ (beyond = 1 ∨ beyond = 2 ∧ 13 ≤ b)

instance (b beyond : Nat) : Decidable (CountEnds b beyond) :=
  inferInstanceAs (Decidable (_ ∨ _ ∨ _ ∧ _))

/-- The counting never goes back. -/
theorem countParts_ge {fuel i ret len n : Nat}
    (h : packet.countParts pos left option fuel i ret len = some n) : ret - 1 ≤ n := by
  induction fuel generalizing i ret len with
  | zero =>
    cases h
    exact Nat.le_refl _
  | succ fuel ih =>
    by_cases hi : i < left
    · cases hlen : partTooLong option len with
      | true =>
        rw [countParts, if_pos hi, hlen] at h
        cases h
      | false =>
        rw [countParts_succ hi hlen] at h
        simp only at h
        split at h
        · cases h
          omega
        split at h
        · cases h
          omega
        split at h
        · cases h
        · have := ih h
          omega
    · rw [countParts, if_neg hi] at h
      cases h
      exact Nat.le_refl _

variable {parts : List (List UInt8)} {part : List UInt8}

/-- The counting from the last part on. -/
theorem count_last (hrepeat : option.repeatable = true) (hshort : left < 2 ^ 15)
    (hfits : ∀ p ∈ part :: parts, PartFits option p)
    (hmem : Holds packet.mem (pos + 1) (part ++ repeats parts))
    (hle : 1 + (part ++ repeats parts).length ≤ left) :
    ∃ fuel i ret, ∃ last ∈ part :: parts,
      packet.optionsCountNeededMemoryMultipleOption pos left option part.length =
        packet.countParts pos left option (fuel + 1) i ret last.length ∧
      i + last.length = 1 + (part ++ repeats parts).length ∧
      ret + last.length = ([option.separator].intercalate (part :: parts)).length ∧
      ret + 1 ≤ i ∧ left = fuel + 1 + parts.length := by
  have hlong := repeats_length_ge parts
  rw [List.length_append] at hle
  obtain ⟨fuel, hfuel⟩ : ∃ fuel, left = fuel + 1 + parts.length :=
    ⟨left - 1 - parts.length, by omega⟩
  obtain ⟨i, ret, last, hlast, heq, hend, hcount, hbound⟩ := countParts_repeats (fuel + 1) 1 0 hfits
    hmem (show _ ≤ left by rw [List.length_append]; exact hle) (Nat.le_refl 1)
  refine ⟨fuel, i, ret, last, hlast, ?_, hend, by omega, hbound, hfuel⟩
  rw [optionsCountNeededMemoryMultipleOption,
    countLoop_eq hrepeat hshort _ _ _ _ (by decide), ← heq, ← hfuel]

theorem countParts_end {fuel i ret len : Nat} (hi : left ≤ i) :
    packet.countParts pos left option fuel i ret len = some (ret - 1) := by
  cases fuel with
  | zero => rfl
  | succ fuel => rw [countParts, if_neg (Nat.not_lt.mpr hi)]

variable {beyond : Nat}

/-- **The memory is that of the string**, where the counting ends: the parts with a separator
    between any two of them. So what is allocated is what the string needs. -/
theorem count_parts (hrepeat : option.repeatable = true) (hshort : left < 2 ^ 15)
    (hfits : ∀ p ∈ part :: parts, PartFits option p)
    (hmem : Holds packet.mem (pos + 1) (part ++ repeats parts))
    (hleft : left = 1 + (part ++ repeats parts).length + beyond)
    (hend : CountEnds (packet.mem (pos + (1 + (part ++ repeats parts).length))).toNat beyond) :
    packet.optionsCountNeededMemoryMultipleOption pos left option part.length =
      some ([option.separator].intercalate (part :: parts)).length := by
  obtain ⟨fuel, i, ret, last, hlast, heq, hi, hret, hbound, -⟩ :=
    count_last hrepeat hshort hfits hmem (show _ ≤ left by omega)
  have hpos := List.length_pos_iff.mpr (hfits last hlast).1
  rw [heq, countParts_succ (by omega) (hfits last hlast).2.1, hi, hret]
  generalize (packet.mem (pos + (1 + (part ++ repeats parts).length))).toNat = b at hend ⊢
  split
  · rfl
  · next hmore =>
    simp only
    split
    · rfl
    · next hzero =>
      -- the octet is read as one more head, which leaves nothing to count
      have hb : b ≠ 15 ∧ (beyond = 1 ∨ beyond = 2 ∧ 13 ≤ b) := by
        rcases hend with h0 | h16 | hb <;> omega
      have hmod : b % 16 = b := by omega
      have hbehind : beyond ≤
          (Options.extended packet.mem (pos + (1 + (part ++ repeats parts).length)) b).2 + 1 := by
        rcases hb.2 with h1 | h13
        · omega
        · have hlast : b = 13 ∨ b = 14 := by omega
          rcases hlast with rfl | rfl
          · exact Nat.le_of_eq h13.1
          · exact Nat.le_trans (Nat.le_of_eq h13.1) (Nat.le_succ 2)
      rw [hmod, if_neg hb.1, countParts_end (by omega)]
      rfl

/-- Elsewhere it fails, or is too much. -/
theorem count_parts_lt (hrepeat : option.repeatable = true) (hshort : left < 2 ^ 15)
    (hfits : ∀ p ∈ part :: parts, PartFits option p)
    (hmem : Holds packet.mem (pos + 1) (part ++ repeats parts))
    (hleft : left = 1 + (part ++ repeats parts).length + beyond) (hbeyond : beyond ≤ 2)
    (hend : ¬CountEnds (packet.mem (pos + (1 + (part ++ repeats parts).length))).toNat beyond)
    {n : Nat}
    (hn : packet.optionsCountNeededMemoryMultipleOption pos left option part.length = some n) :
    ([option.separator].intercalate (part :: parts)).length < n := by
  obtain ⟨fuel, i, ret, last, hlast, heq, hi, hret, hbound, hfuel⟩ :=
    count_last hrepeat hshort hfits hmem (show _ ≤ left by omega)
  have hpos := List.length_pos_iff.mpr (hfits last hlast).1
  have hlong := repeats_length_ge parts
  rw [heq, countParts_succ (by omega) (hfits last hlast).2.1, hi, hret] at hn
  generalize (packet.mem (pos + (1 + (part ++ repeats parts).length))).toNat = b at hend hn
  obtain ⟨h0, hend⟩ := not_or.mp hend
  obtain ⟨h16, hb⟩ := not_or.mp hend
  have hzero : b / 16 = 0 := by omega
  have hmod : b % 16 = b := by omega
  rw [if_neg (by omega)] at hn
  simp only [hzero, hmod, ne_eq, not_true_eq_false, if_false] at hn
  split at hn
  · cases hn
  · next hne =>
    -- a part more of `b` octets is counted
    have hb : beyond = 2 ∧ b < 13 := by omega
    have hnext : Options.extended packet.mem (pos + (1 + (part ++ repeats parts).length)) b =
        (b, 0) := by rw [Options.extended, if_neg (by omega), if_neg (by omega)]
    rw [hnext] at hn
    obtain ⟨fuel, rfl⟩ : ∃ fuel', fuel = fuel' + 1 := by
      rw [List.length_append] at hleft
      exact ⟨fuel - 1, by omega⟩
    cases hlen : partTooLong option b with
    | true =>
      rw [countParts, if_pos (by omega), hlen] at hn
      cases hn
    | false =>
      rw [countParts_succ (by omega) hlen] at hn
      simp only at hn
      split at hn
      · cases hn
        omega
      split at hn
      · cases hn
        omega
      split at hn
      · cases hn
      · have := countParts_ge hn
        omega

end Count

/-! ## Copying -/

section Copy

variable {option : CoapOption} {heap fuel counter pos : Nat} {dst : List UInt8}
  {parts : List (List UInt8)} {part : List UInt8}

/-- A round of the copying. -/
theorem copyLoop_succ {len : Nat} (hdst : dst.length < heap)
    (hlen : (if 0 < counter then dst ++ [option.separator] else dst).length + len ≤ heap) :
    packet.copyLoop option heap (fuel + 1) counter pos dst len =
      let dst := (if 0 < counter then dst ++ [option.separator] else dst) ++
        window packet.mem (pos + 1) len
      let b := (packet.mem (pos + 1 + len)).toNat
      if heap ≤ dst.length ∨ b / 16 ≠ 0 then some (dst, pos + 1 + len, (counter + 1) % 2 ^ 8)
      else
        let next := Options.extended packet.mem (pos + 1 + len) (b % 16)
        packet.copyLoop option heap fuel ((counter + 1) % 2 ^ 8) (pos + 1 + len + next.2) dst
          next.1 := by
  rw [copyLoop, if_pos hdst]
  simp only
  rw [if_neg (Nat.not_lt.mpr hlen)]

/-- What has been copied with the last part. -/
def joined (option : CoapOption) (counter : Nat) (dst : List UInt8) (parts : List (List UInt8)) :
    List UInt8 :=
  (if 0 < counter then dst ++ [option.separator] else dst) ++
    [option.separator].intercalate parts

theorem joined_cons_cons {next : List UInt8} :
    joined option counter dst (part :: next :: parts) =
      joined option (counter + 1)
        ((if 0 < counter then dst ++ [option.separator] else dst) ++ part) (next :: parts) := by
  rw [joined, joined, if_pos (Nat.succ_pos counter), List.intercalate_cons_cons]
  simp only [List.append_assoc]

/-- The copying up to the last part. -/
theorem copyLoop_repeats (fuel counter : Nat) (dst : List UInt8)
    (hparts : ∀ p ∈ part :: parts, p ≠ [] ∧ p.length < 2 ^ 8)
    (hmem : Holds packet.mem (pos + 1) (part ++ repeats parts))
    (hheap : (joined option counter dst (part :: parts)).length ≤ heap)
    (hcounter : counter + parts.length + 1 < 2 ^ 8) :
    packet.copyLoop option heap (fuel + parts.length + 1) counter pos dst part.length =
      let dst := joined option counter dst (part :: parts)
      let pos := pos + 1 + (part ++ repeats parts).length
      let b := (packet.mem pos).toNat
      if heap ≤ dst.length ∨ b / 16 ≠ 0 then some (dst, pos, counter + parts.length + 1)
      else
        let next := Options.extended packet.mem pos (b % 16)
        packet.copyLoop option heap fuel (counter + parts.length + 1) (pos + next.2) dst
          next.1 := by
  induction parts generalizing part counter pos dst with
  | nil =>
    have hpos := List.length_pos_iff.mpr (hparts part List.mem_cons_self).1
    rw [repeats_nil, List.append_nil] at hmem ⊢
    rw [joined, List.intercalate_singleton] at hheap ⊢
    have hsep : dst.length ≤ (if 0 < counter then dst ++ [option.separator] else dst).length := by
      split <;> simp
    rw [List.length_append] at hheap
    rw [List.length_nil, Nat.add_zero, copyLoop_succ (by omega) hheap, hmem.window_eq,
      Nat.mod_eq_of_lt (by omega)]
  | cons next parts ih =>
    have hpos := List.length_pos_iff.mpr (hparts part List.mem_cons_self).1
    have hnext := hparts next (List.mem_cons_of_mem part List.mem_cons_self)
    rw [joined_cons_cons] at hheap ⊢
    rw [repeats_cons] at hmem ⊢
    obtain ⟨hzero, -, hextended, hrest⟩ := holds_encodeOne_zero hmem.right (by omega)
    have hsep : dst.length ≤ (if 0 < counter then dst ++ [option.separator] else dst).length := by
      split <;> simp
    have hmore : ((if 0 < counter then dst ++ [option.separator] else dst) ++ part).length <
        heap := by
      refine Nat.lt_of_lt_of_le ?_ hheap
      rw [joined, if_pos (Nat.succ_pos counter), List.length_append, List.length_append]
      simp
      omega
    have hlen := hmore
    rw [List.length_append] at hlen
    rw [List.length_cons] at hcounter ⊢
    have hrec := ih (counter + 1) ((if 0 < counter then dst ++ [option.separator] else dst) ++ part)
      (fun p hp => hparts p (List.mem_cons_of_mem part hp)) hrest hheap (by omega)
    have hend : pos + 1 + part.length + (Options.extension next.length).length + 1 +
        (next ++ repeats parts).length =
        pos + 1 + (part ++ (Options.encodeOne 0 next ++ repeats parts)).length := by
      have hext : (Options.extension 0).length = 0 := rfl
      simp only [List.length_append, Options.encodeOne, Options.head_length]
      omega
    rw [hend] at hrec
    rw [show fuel + (parts.length + 1) + 1 = fuel + parts.length + 1 + 1 by omega,
      copyLoop_succ (by omega) (by omega), hmem.left.window_eq]
    simp only [hzero, hextended]
    rw [if_neg (by omega), Nat.mod_eq_of_lt (by omega),
      show counter + (parts.length + 1) + 1 = counter + 1 + parts.length + 1 by omega]
    exact hrec

end Copy

/-! ## A string -/

section Multiple

variable {option : CoapOption} {pos left beyond : Nat} {parts : List (List UInt8)}
  {part : List UInt8}

theorem intercalate_length_gt (sep : UInt8) (hparts : ∀ p ∈ part :: parts, p ≠ []) :
    parts.length < ([sep].intercalate (part :: parts)).length := by
  induction parts generalizing part with
  | nil =>
    rw [List.intercalate_singleton]
    exact List.length_pos_iff.mpr (hparts part List.mem_cons_self)
  | cons next parts ih =>
    have := ih fun p hp => hparts p (List.mem_cons_of_mem part hp)
    rw [List.intercalate_cons_cons, List.length_append, List.length_append]
    simp only [List.length_cons, List.length_nil]
    omega

/-- A string is read where the counting of its parts ends. -/
theorem optionsParseMultipleOptions_parts (hrepeat : option.repeatable = true)
    (hshort : left < 2 ^ 15) (hfits : ∀ p ∈ part :: parts, PartFits option p)
    (hmem : Holds packet.mem (pos + 1) (part ++ repeats parts)) (hlt : parts.length + 1 < 2 ^ 7)
    (hleft : left = 1 + (part ++ repeats parts).length + beyond)
    (hend : CountEnds (packet.mem (pos + (1 + (part ++ repeats parts).length))).toNat beyond) :
    packet.optionsParseMultipleOptions pos left option part.length =
      some (some ([option.separator].intercalate (part :: parts)),
        pos + 1 + (part ++ repeats parts).length) := by
  have hcount := count_parts hrepeat hshort hfits hmem hleft hend
  have hgt := intercalate_length_gt option.separator fun p hp => (hfits p hp).1
  obtain ⟨heap, hheap⟩ : ∃ heap,
      ([option.separator].intercalate (part :: parts)).length = heap + 1 :=
    ⟨_, (Nat.succ_pred_eq_of_pos (Nat.zero_lt_of_lt hgt)).symm⟩
  have hcopy := copyLoop_repeats (heap + 1 - parts.length) 0 []
    (fun p hp => ⟨(hfits p hp).1, (hfits p hp).2.2⟩) hmem (Nat.le_of_eq hheap) (by omega)
  have hjoined : joined option 0 [] (part :: parts) =
      [option.separator].intercalate (part :: parts) := rfl
  rw [show heap + 1 - parts.length + parts.length + 1 = heap + 2 by omega, hjoined] at hcopy
  simp only [hheap, Nat.le_refl, true_or, if_true] at hcopy
  rw [hheap] at hcount
  simp only [optionsParseMultipleOptions, hcount, hcopy, Nat.zero_add]
  rw [if_pos hlt]

/-- Elsewhere more than the string is read, if anything. -/
theorem optionsParseMultipleOptions_beyond (hrepeat : option.repeatable = true)
    (hshort : left < 2 ^ 15) (hfits : ∀ p ∈ part :: parts, PartFits option p)
    (hmem : Holds packet.mem (pos + 1) (part ++ repeats parts)) (hlt : parts.length + 1 < 2 ^ 7)
    (hleft : left = 1 + (part ++ repeats parts).length + beyond) (hbeyond : beyond ≤ 2)
    (hend : ¬CountEnds (packet.mem (pos + (1 + (part ++ repeats parts).length))).toNat beyond)
    {parsed : Option (List UInt8)} {pos' : Nat}
    (h : packet.optionsParseMultipleOptions pos left option part.length = some (parsed, pos')) :
    pos + 1 + (part ++ repeats parts).length < pos' := by
  have hgt := intercalate_length_gt option.separator fun p hp => (hfits p hp).1
  unfold optionsParseMultipleOptions at h
  cases hcount : packet.optionsCountNeededMemoryMultipleOption pos left option part.length with
  | none =>
    rw [hcount] at h
    cases h
  | some n =>
    have hmore := count_parts_lt hrepeat hshort hfits hmem hleft hbeyond hend hcount
    obtain ⟨heap, rfl⟩ : ∃ heap, n = heap + 1 :=
      ⟨_, (Nat.succ_pred_eq_of_pos (Nat.zero_lt_of_lt hmore)).symm⟩
    have hcopy := copyLoop_repeats (heap + 1 - parts.length) 0 []
      (fun p hp => ⟨(hfits p hp).1, (hfits p hp).2.2⟩) hmem (Nat.le_of_lt hmore) (by omega)
    have hjoined : joined option 0 [] (part :: parts) =
        [option.separator].intercalate (part :: parts) := rfl
    have hzero : (packet.mem (pos + 1 + (part ++ repeats parts).length)).toNat / 16 = 0 := by
      rw [Nat.add_assoc]
      have h16 := (not_or.mp (not_or.mp hend).2).1
      omega
    rw [show heap + 1 - parts.length + parts.length + 1 = heap + 2 by omega, hjoined] at hcopy
    simp only [hzero, Nat.not_le.mpr hmore, ne_eq, not_true_eq_false, or_self, if_false] at hcopy
    rw [hcount] at h
    simp only [hcopy] at h
    split at h
    · next hrest =>
      split at h
      · cases h
        -- the copying goes on behind the string
        have := (copyLoop_pos hrest).2 hmore (by omega)
        omega
      · cases h
    · cases h

end Multiple

end Packet

end LibCoap
end LightDuer
