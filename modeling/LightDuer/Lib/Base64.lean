import Mathlib.Data.List.Basic
import Mathlib.Tactic.Common

/-!
# Base64

Octets as text, three of them in four digits, with padding for the last ones. What is encoded is
decoded again.

`encode` follows the shape of the text: the last one or two octets make a group with two or one
pads, and every other group has three octets. `decode` reads groups of four and gives `none` for a
digit outside the alphabet, a pad in any group but the last, and a group that is cut; bits of a
digit that a padded group has no use for are not looked at. The two have the same recursion, so the
round trip is one induction over the groups with no index in it.

The arithmetic is stated apart. A group of three octets `a b c` is four numbers below 64, and
`first_octet`, `second_octet` and `third_octet` each take one octet back out of two of them. They
are stated for any number in the place of the neighbouring octet (`n`, `m`), since a digit that two
octets share is read once for each; so the same three lemmas serve the whole groups and the two
kinds of padded ones.

The alphabet is a list and the digits are its positions; that distinct positions have distinct
digits is checked once, in `value_digit`.
-/

set_option autoImplicit false

namespace Lib
namespace Base64

def alphabet : List UInt8 :=
  "ABCDEFGHIJKLMNOPQRSTUVWXYZabcdefghijklmnopqrstuvwxyz0123456789+/".toList.map
    fun c => UInt8.ofNat c.toNat

/-- The digit for a number below 64. -/
def digit (n : Nat) : UInt8 := alphabet.getD n 0

/-- The number a digit stands for. -/
def value (c : UInt8) : Option Nat := alphabet.idxOf? c

/-- `=` -/
def pad : UInt8 := 61

theorem value_digit {n : Nat} (h : n < 64) : value (digit n) = some n ∧ digit n ≠ pad := by
  have hall : ∀ m : Fin 64, value (digit m) = some m.val ∧ digit m ≠ pad := by decide +kernel
  exact hall ⟨n, h⟩

def encode : List UInt8 → List UInt8
  | [] => []
  | [a] => [digit (a.toNat / 4), digit (a.toNat % 4 * 16), pad, pad]
  | [a, b] =>
    [digit (a.toNat / 4), digit (a.toNat % 4 * 16 + b.toNat / 16), digit (b.toNat % 16 * 4), pad]
  | a :: b :: c :: rest =>
    digit (a.toNat / 4) :: digit (a.toNat % 4 * 16 + b.toNat / 16) ::
      digit (b.toNat % 16 * 4 + c.toNat / 64) :: digit (c.toNat % 64) :: encode rest

def decode : List UInt8 → Option (List UInt8)
  | [] => some []
  | w :: x :: y :: z :: rest => do
    let p ← value w
    let q ← value x
    let a := UInt8.ofNat (p * 4 + q / 16)
    if z ≠ pad then
      let r ← value y
      let s ← value z
      let tail ← decode rest
      some (a :: UInt8.ofNat (q % 16 * 16 + r / 4) :: UInt8.ofNat (r % 4 * 64 + s) :: tail)
    else if rest ≠ [] then none
    else if y ≠ pad then
      let r ← value y
      some [a, UInt8.ofNat (q % 16 * 16 + r / 4)]
    else some [a]
  | _ => none

/-! The octets of a group, from the numbers its digits stand for. -/

theorem first_octet (a : UInt8) {n : Nat} (h : n < 16) :
    UInt8.ofNat (a.toNat / 4 * 4 + (a.toNat % 4 * 16 + n) / 16) = a := by
  rw [show a.toNat / 4 * 4 + (a.toNat % 4 * 16 + n) / 16 = a.toNat by omega, UInt8.ofNat_toNat]

theorem second_octet (m : Nat) (b : UInt8) {n : Nat} (h : n < 4) :
    UInt8.ofNat ((m * 16 + b.toNat / 16) % 16 * 16 + (b.toNat % 16 * 4 + n) / 4) = b := by
  have hb := b.toNat_lt
  rw [show (m * 16 + b.toNat / 16) % 16 * 16 + (b.toNat % 16 * 4 + n) / 4 = b.toNat by omega,
    UInt8.ofNat_toNat]

theorem third_octet (m : Nat) (c : UInt8) :
    UInt8.ofNat ((m * 4 + c.toNat / 64) % 4 * 64 + c.toNat % 64) = c := by
  have hc := c.toNat_lt
  rw [show (m * 4 + c.toNat / 64) % 4 * 64 + c.toNat % 64 = c.toNat by omega, UInt8.ofNat_toNat]

/-- **What is encoded is decoded.** -/
theorem decode_encode (bytes : List UInt8) : decode (encode bytes) = some bytes := by
  induction bytes using encode.induct with
  | case1 => rfl
  | case2 a =>
    have ha := a.toNat_lt
    obtain ⟨hp, -⟩ := value_digit (n := a.toNat / 4) (by omega)
    obtain ⟨hq, -⟩ := value_digit (n := a.toNat % 4 * 16) (by omega)
    have hfirst := first_octet a (n := 0) (by omega)
    simp only [Nat.add_zero] at hfirst
    simp only [encode, decode, hp, hq, ne_eq, not_true_eq_false, if_false, Option.bind_eq_bind,
      Option.bind_some, hfirst]
  | case3 a b =>
    have ha := a.toNat_lt
    have hb := b.toNat_lt
    obtain ⟨hp, -⟩ := value_digit (n := a.toNat / 4) (by omega)
    obtain ⟨hq, -⟩ := value_digit (n := a.toNat % 4 * 16 + b.toNat / 16) (by omega)
    obtain ⟨hr, hpad⟩ := value_digit (n := b.toNat % 16 * 4) (by omega)
    have hfirst := first_octet a (n := b.toNat / 16) (by omega)
    have hsecond := second_octet (a.toNat % 4) b (n := 0) (by omega)
    simp only [Nat.add_zero] at hsecond
    simp only [encode, decode, hp, hq, hr, ne_eq, hpad, not_true_eq_false, not_false_eq_true,
      if_false, if_true, Option.bind_eq_bind, Option.bind_some, hfirst, hsecond]
  | case4 a b c rest ih =>
    have ha := a.toNat_lt
    have hb := b.toNat_lt
    have hc := c.toNat_lt
    obtain ⟨hp, -⟩ := value_digit (n := a.toNat / 4) (by omega)
    obtain ⟨hq, -⟩ := value_digit (n := a.toNat % 4 * 16 + b.toNat / 16) (by omega)
    obtain ⟨hr, -⟩ := value_digit (n := b.toNat % 16 * 4 + c.toNat / 64) (by omega)
    obtain ⟨hs, hpad⟩ := value_digit (n := c.toNat % 64) (by omega)
    have hfirst := first_octet a (n := b.toNat / 16) (by omega)
    have hsecond := second_octet (a.toNat % 4) b (n := c.toNat / 64) (by omega)
    have hthird := third_octet (b.toNat % 16) c
    simp only [encode, decode, hp, hq, hr, hs, ne_eq, hpad, not_false_eq_true, if_true,
      Option.bind_eq_bind, Option.bind_some, ih, hfirst, hsecond, hthird]

end Base64
end Lib
