import Mathlib.Tactic.Common

/-!
# The hash code of a path

`duer_hashcode` (`lightduer_hashcode.c`): Murmur hash 2 of a text, or, of a long one, of its
beginning and of blocks taken from the rest. Whether `char` has a sign is up to the platform, and so
is a parameter.

The function is embedded so that a run on given paths can be evaluated; no result depends on what it
computes. Where paths are told apart by their hash codes the results are stated for any function in
its place, with a condition on the names that are in use. That condition is about collisions, and
this is the function that has them: 32 bits for texts of any length, and of a text longer than 4 KiB
only the beginning and some blocks of the rest are looked at.

The arithmetic is that of `duer_u32_t`, in `UInt32`. The octets of a text come as `char`, and where
`char` has a sign an octet from 128 on is extended with ones before it is shifted and joined with
the other three; so paths with such octets have different codes on different platforms. The loop
over the blocks of a long text starts at an offset that the code of its beginning gives; each round
goes on by an octet at least, so the length of the text is enough fuel.
-/

set_option autoImplicit false

namespace LightDuer
namespace Coap

/-- `DUER__STRHASH_SHORTSTRING` -/
def duerStrhashShortstring : Nat := 4096
/-- `DUER__STRHASH_MEDIUMSTRING` -/
def duerStrhashMediumstring : Nat := 256 * 1024
/-- `DUER__STRHASH_BLOCKSIZE` -/
def duerStrhashBlocksize : Nat := 256
/-- `DUER__SEED` -/
def duerSeed : UInt32 := 0x738b3f34
/-- `DUER__MAGIC_M` -/
def duerMagicM : UInt32 := 0x5bd1e995
/-- `DUER__MAGIC_R` -/
def duerMagicR : UInt32 := 24

/-- A `char` as a `duer_u32_t`. -/
def charU32 (signed : Bool) (c : UInt8) : UInt32 :=
  if signed ∧ 128 ≤ c then c.toUInt32 ||| 0xffffff00 else c.toUInt32

/-- The loop of `duer_hashcode_compute` and what it leaves over. -/
def hashcodeRounds (signed : Bool) : List UInt8 → UInt32 → UInt32
  | a :: b :: c :: d :: data, hash =>
      let k := charU32 signed a ||| (charU32 signed b <<< 8) ||| (charU32 signed c <<< 16) |||
        (charU32 signed d <<< 24)
      let k := k * duerMagicM
      let k := k ^^^ (k >>> duerMagicR)
      let k := k * duerMagicM
      hashcodeRounds signed data ((hash * duerMagicM) ^^^ k)
  | [a, b, c], hash =>
      (hash ^^^ (charU32 signed c <<< 16) ^^^ (charU32 signed b <<< 8) ^^^ charU32 signed a) *
        duerMagicM
  | [a, b], hash => (hash ^^^ (charU32 signed b <<< 8) ^^^ charU32 signed a) * duerMagicM
  | [a], hash => (hash ^^^ charU32 signed a) * duerMagicM
  | [], hash => hash

/-- `duer_hashcode_compute` -/
def duerHashcodeCompute (signed : Bool) (data : List UInt8) (seed : UInt32) : UInt32 :=
  let hash := hashcodeRounds signed data (seed ^^^ UInt32.ofNat data.length)
  let hash := hash ^^^ (hash >>> 13)
  let hash := hash * duerMagicM
  hash ^^^ (hash >>> 15)

/-- The loop over the blocks of a long text; each round goes on by an octet at least. -/
def hashcodeBlocks (signed : Bool) (data : List UInt8) (skip : Nat) (seed : UInt32) :
    Nat → Nat → UInt32 → UInt32
  | 0, _, hash => hash
  | n + 1, off, hash =>
      if off < data.length then
        let now := min (data.length - off) duerStrhashBlocksize
        hashcodeBlocks signed data skip seed n (off + skip)
          (hash ^^^ duerHashcodeCompute signed ((data.drop off).take now) seed)
      else hash

/-- `duer_hashcode` -/
def duerHashcode (signed : Bool) (data : List UInt8) (seed : UInt32) : UInt32 :=
  let strSeed := (if seed = 0 then duerSeed else seed) ^^^ UInt32.ofNat data.length
  if data.length ≤ duerStrhashShortstring then duerHashcodeCompute signed data strSeed
  else
    let skip := if data.length ≤ duerStrhashMediumstring then
      16 * duerStrhashBlocksize + duerStrhashBlocksize
      else 256 * duerStrhashBlocksize + duerStrhashBlocksize
    let hash := duerHashcodeCompute signed (data.take duerStrhashShortstring) strSeed
    let off := duerStrhashShortstring + skip * (hash % 256).toNat / 256
    hashcodeBlocks signed data skip strSeed data.length off hash

end Coap
end LightDuer
