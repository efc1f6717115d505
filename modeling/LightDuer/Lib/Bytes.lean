import Mathlib.Algebra.Group.Int.Defs
import Mathlib.Algebra.GroupWithZero.Nat
import Mathlib.Data.List.Basic
import Mathlib.Tactic.Common

/-!
# Octets, big-endian words and fixed buffers

What a byte-oriented protocol implementation in C is made of: 32-bit words written most significant
octet first, and arrays of a fixed capacity that are read and written at an offset. An access
outside an array is undefined behaviour in the source; here it is `none`, so a result `some _` says
that every access of the run was in bounds.

## Words

Numbers are `Nat` and `Int` throughout, and the width is applied where the code does: `u32` and
`int32` are the conversions to an unsigned and a signed word, `subU32` the subtraction that wraps.
The conversions are irreducible. Their definitions are remainders by `2 ^ 32`, which no proof wants
to see unfolded; `u32_of_lt` and `int32_of_lt` say when a conversion changes nothing, and `u32_add`
that it may be put off to the end of a sum.

`be32` and `ofBe32` write and read a word, the latter from the front of any list, so that a header
can be read without cutting it off first.

## Buffers

`Buffer cap` carries its capacity, as an array does: no operation changes how many octets there are.
`store` and `load` are partial, and come with lemmas in the two forms a proof uses: that an access
in bounds succeeds, with what it gives, and that a copy right behind a part that is held makes this
part longer (`store_extend`, `take_write`), which is the step of every loop that fills a buffer.
-/

set_option autoImplicit false

namespace Lib

/-! ## Words -/

/-- The four octets of a 32-bit word, most significant first. -/
def be32 (n : Nat) : List UInt8 :=
  [UInt8.ofNat (n / 2 ^ 24), UInt8.ofNat (n / 2 ^ 16), UInt8.ofNat (n / 2 ^ 8), UInt8.ofNat n]

/-- The word read from the first four octets (zero where there are fewer). -/
def ofBe32 : List UInt8 → Nat
  | b0 :: b1 :: b2 :: b3 :: _ =>
      b0.toNat * 2 ^ 24 + b1.toNat * 2 ^ 16 + b2.toNat * 2 ^ 8 + b3.toNat
  | _ => 0

@[simp] theorem be32_length (n : Nat) : (be32 n).length = 4 := rfl

/-- Reading back what was written, whatever follows it. -/
@[simp] theorem ofBe32_be32_append {n : Nat} (h : n < 2 ^ 32) (rest : List UInt8) :
    ofBe32 (be32 n ++ rest) = n := by
  simp only [be32, ofBe32, List.cons_append, UInt8.toNat_ofNat']
  omega

@[simp] theorem ofBe32_be32 {n : Nat} (h : n < 2 ^ 32) : ofBe32 (be32 n) = n := by
  simpa using ofBe32_be32_append h []

/-- What follows the four octets of a word does not change it. -/
theorem ofBe32_append {l : List UInt8} (h : 4 ≤ l.length) (rest : List UInt8) :
    ofBe32 (l ++ rest) = ofBe32 l := by
  rcases l with _ | ⟨b₀, _ | ⟨b₁, _ | ⟨b₂, _ | ⟨b₃, l⟩⟩⟩⟩
  · exact absurd h (by simp)
  · exact absurd h (by simp)
  · exact absurd h (by simp)
  · exact absurd h (by simp)
  · rfl

/-- The word read from the first four octets, least significant first. -/
def ofLe32 (bs : List UInt8) : Nat := ofBe32 (bs.take 4).reverse

/-- Subtraction of unsigned 32-bit words, which wraps around. -/
def subU32 (a b : Nat) : Nat := if b ≤ a then a - b else a + 2 ^ 32 - b

theorem subU32_of_le {a b : Nat} (h : b ≤ a) : subU32 a b = a - b := if_pos h

/-- An unsigned 32-bit word. -/
@[irreducible] def u32 (n : Nat) : Nat := n % 2 ^ 32

theorem u32_of_lt {n : Nat} (h : n < 2 ^ 32) : u32 n = n := by
  rw [u32, Nat.mod_eq_of_lt h]

/-- Wrapping before an addition changes nothing. -/
theorem u32_add (a b : Nat) : u32 (u32 a + b) = u32 (a + b) := by
  rw [u32, u32, u32, Nat.mod_add_mod]

/-- A signed 32-bit word. -/
@[irreducible] def int32 (x : Int) : Int := Int.bmod x (2 ^ 32)

theorem int32_of_lt {n : Nat} (h : n < 2 ^ 31) : int32 n = n := by
  rw [int32, Int.bmod_eq_of_le] <;> omega

theorem int32_bounds (x : Int) : -2 ^ 31 ≤ int32 x ∧ int32 x < 2 ^ 31 := by
  rw [int32]
  refine ⟨?_, ?_⟩
  · have h : -(((2 ^ 32 : Nat) : Int) / 2) ≤ Int.bmod x (2 ^ 32) := Int.le_bmod (by decide)
    omega
  · have h : Int.bmod x (2 ^ 32) < (((2 ^ 32 : Nat) : Int) + 1) / 2 := Int.bmod_lt (by decide)
    omega

/-- A signed word as an unsigned one. -/
@[irreducible] def u32OfInt (x : Int) : Nat := (x % 2 ^ 32).toNat

/-- A sum of unsigned words, kept as a signed one, gives a summand back. -/
theorem u32OfInt_int32_add_sub {m n : Nat} (hm : m < 2 ^ 32) :
    u32OfInt (int32 ((m : Int) + n) - n) = m := by
  have h : Int.bmod ((m : Int) + n) (2 ^ 32) % ((2 ^ 32 : Nat) : Int) =
      ((m : Int) + n) % ((2 ^ 32 : Nat) : Int) := Int.bmod_emod
  rw [u32OfInt, int32]
  generalize Int.bmod ((m : Int) + n) (2 ^ 32) = b at h
  omega

/-- The middle of three parts, cut out by its offset and length. -/
theorem take_drop_middle {α : Type} {a b c : List α} {off len : Nat} (ha : a.length = off)
    (hb : b.length = len) : ((a ++ (b ++ c)).drop off).take len = b := by
  rw [List.drop_left' ha, List.take_left' hb]

/-- A prefix stays one when as many elements are dropped of both. -/
theorem drop_isPrefix {α : Type} {a b : List α} (n : Nat) (h : a <+: b) :
    a.drop n <+: b.drop n := by
  obtain ⟨rest, rfl⟩ := h
  rw [List.drop_append]
  exact List.prefix_append _ _

/-! ## Arrays of a fixed capacity -/

/-- An array of `cap` octets. -/
structure Buffer (cap : Nat) where
  /-- The contents, first octet first. -/
  bytes : List UInt8
  /-- The capacity never changes. -/
  size_eq : bytes.length = cap
deriving DecidableEq

namespace Buffer

variable {cap : Nat}

@[ext] theorem ext {a b : Buffer cap} (h : a.bytes = b.bytes) : a = b := by
  cases a; cases b; congr

@[simp] theorem bytes_length (b : Buffer cap) : b.bytes.length = cap := b.size_eq

/-- An array with one octet everywhere (`memset`). -/
def fill (cap : Nat) (v : UInt8) : Buffer cap := ⟨List.replicate cap v, by simp⟩

/-- Copy `xs` into the array from offset `off` on. -/
def store (b : Buffer cap) (off : Nat) (xs : List UInt8) : Option (Buffer cap) :=
  if h : off + xs.length ≤ cap then
    some ⟨b.bytes.take off ++ xs ++ b.bytes.drop (off + xs.length), by simp; omega⟩
  else
    none

/-- A copy that is known to be in bounds. -/
def write (b : Buffer cap) (off : Nat) (xs : List UInt8) (h : off + xs.length ≤ cap) :
    Buffer cap :=
  ⟨b.bytes.take off ++ xs ++ b.bytes.drop (off + xs.length), by simp; omega⟩

/-- A copy of `xs` behind what is held leaves both there. -/
theorem take_write (b : Buffer cap) {off : Nat} {xs : List UInt8} (h : off + xs.length ≤ cap) :
    (b.write off xs h).bytes.take (off + xs.length) = b.bytes.take off ++ xs := by
  have hoff : (b.bytes.take off).length = off := by
    simp only [List.length_take, bytes_length]
    omega
  exact List.take_left' (by rw [List.length_append, hoff])

/-- A copy up to the end of the array. -/
theorem write_bytes_of_eq (b : Buffer cap) {off : Nat} {xs : List UInt8}
    (h : off + xs.length ≤ cap) (hend : off + xs.length = cap) :
    (b.write off xs h).bytes = b.bytes.take off ++ xs := by
  rw [← take_write b h, hend]
  exact (List.take_of_length_le (Nat.le_of_eq (bytes_length _))).symm

/-- Copy `len` octets out of the array from offset `off` on. -/
def load (b : Buffer cap) (off len : Nat) : Option (List UInt8) :=
  if off + len ≤ cap then some ((b.bytes.drop off).take len) else none

theorem store_eq_some (b : Buffer cap) {off : Nat} {xs : List UInt8}
    (h : off + xs.length ≤ cap) :
    ∃ b', b.store off xs = some b' ∧
      b'.bytes = b.bytes.take off ++ xs ++ b.bytes.drop (off + xs.length) := by
  simp [store, h]

/-- Writing at the start leaves exactly the written octets there. -/
theorem store_zero (b : Buffer cap) {xs : List UInt8} (h : xs.length ≤ cap) :
    ∃ b', b.store 0 xs = some b' ∧ b'.bytes.take xs.length = xs := by
  obtain ⟨b', hs, hb⟩ := b.store_eq_some (show 0 + xs.length ≤ cap by omega)
  exact ⟨b', hs, by simp [hb]⟩

/-- Writing over the whole array. -/
theorem store_full (b : Buffer cap) {xs : List UInt8} (h : xs.length = cap) :
    b.store 0 xs = some ⟨xs, h⟩ := by
  simp [store, h]

/-- Writing right after a part already held extends that part. -/
theorem store_extend (b : Buffer cap) {off : Nat} {xs : List UInt8}
    (h : off + xs.length ≤ cap) :
    ∃ b', b.store off xs = some b' ∧
      b'.bytes.take (off + xs.length) = b.bytes.take off ++ xs := by
  obtain ⟨b', hs, hb⟩ := b.store_eq_some h
  refine ⟨b', hs, ?_⟩
  have hoff : (b.bytes.take off).length = off := by simp; omega
  rw [hb, List.take_append_of_le_length (by simp [hoff])]
  exact List.take_of_length_le (by simp [hoff])

theorem load_eq_some (b : Buffer cap) {off len : Nat} (h : off + len ≤ cap) :
    b.load off len = some ((b.bytes.drop off).take len) := by
  simp [load, h]

theorem load_zero (b : Buffer cap) {len : Nat} (h : len ≤ cap) :
    b.load 0 len = some (b.bytes.take len) := by
  simp [load, h]

end Buffer

end Lib
