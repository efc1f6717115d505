import LightDuer.Lib.Bytes
import Mathlib.Data.List.Induction
import Mathlib.Data.Nat.Digits.Defs

/-!
# Delta-coded options

The tag-length-value format of a list of options whose numbers do not decrease. An option is one
octet with four bits for what its number adds to the one before and four for its length, octets that
extend either where four bits are too few, and the value. What is read back of the head of an option
are the two numbers, and where its value starts.

## The format

A number below 13 is its four bits; from 13 to 268 they are 13 and one octet follows, from 269 on
they are 14 and two octets follow. `nibble` and `extension` are these two parts for either number,
and the lemmas beside them state the three cases, so that no later proof has to split on them again.
Four bits of 15 are never written. `encode` is a whole list, each option behind the number of the
one before; how long it is depends on the numbers only by the octets that extend their differences,
which `gaps` counts apart from the values (`encode_length`).

## Reading

A reader has a memory and a position, and may look at octets behind the options it was given. So an
option that was written is described by `Holds mem pos xs`, these octets are in the memory from here
on, and what is behind them is left open. `Holds.left` and `Holds.right` take the parts of what was
written apart as the reader goes along, and `window` is the way back from a memory to a list.

## Integers

The value of an option that is an integer are its octets without the zeros in front. `ofOctets` is
the word that a list of octets stands for, and `ofOctets_filter_iff` says what is lost where a
writer leaves out every zero: nothing exactly where zeros stand in front only.
-/

set_option autoImplicit false

namespace Lib

/-! ## Octets in a memory -/

section Memory

variable {α : Type} {mem : Nat → α} {pos : Nat} {xs ys : List α}

/-- These are in the memory from `pos` on. -/
def Holds (mem : Nat → α) : Nat → List α → Prop
  | _, [] => True
  | pos, x :: xs => mem pos = x ∧ Holds mem (pos + 1) xs

/-- What is in the memory from `pos` on. -/
def window (mem : Nat → α) : Nat → Nat → List α
  | _, 0 => []
  | pos, n + 1 => mem pos :: window mem (pos + 1) n

@[simp] theorem window_length (mem : Nat → α) (pos n : Nat) : (window mem pos n).length = n := by
  induction n generalizing pos with
  | zero => rfl
  | succ n ih => simp [window, ih]

theorem Holds.append_iff : Holds mem pos (xs ++ ys) ↔
    Holds mem pos xs ∧ Holds mem (pos + xs.length) ys := by
  induction xs generalizing pos with
  | nil => simp [Holds]
  | cons x xs ih =>
    have hpos : pos + (x :: xs).length = pos + 1 + xs.length := by
      rw [List.length_cons]
      omega
    rw [List.cons_append, Holds, Holds, ih, hpos, and_assoc]

theorem Holds.left (h : Holds mem pos (xs ++ ys)) : Holds mem pos xs := (append_iff.mp h).1

theorem Holds.right (h : Holds mem pos (xs ++ ys)) : Holds mem (pos + xs.length) ys :=
  (append_iff.mp h).2

theorem Holds.window_eq (h : Holds mem pos xs) : window mem pos xs.length = xs := by
  induction xs generalizing pos with
  | nil => rfl
  | cons x xs ih => rw [List.length_cons, window, h.1, ih h.2]

/-- A list in a memory of its own. -/
theorem holds_getD (front xs : List α) (d : α) :
    Holds (fun i => (front ++ xs).getD i d) front.length xs := by
  induction xs generalizing front with
  | nil => trivial
  | cons x xs ih =>
    refine ⟨by simp, ?_⟩
    have hrest := ih (front ++ [x])
    rwa [List.append_assoc, List.length_append] at hrest

end Memory

namespace Options

/-! ## The head of an option -/

/-- The four bits for a number. -/
def nibble (n : Nat) : Nat := if n < 13 then n else if n < 269 then 13 else 14

/-- The octets that extend them. -/
def extension (n : Nat) : List UInt8 :=
  if n < 13 then []
  else if n < 269 then [UInt8.ofNat (n - 13)]
  else [UInt8.ofNat ((n - 269) / 256), UInt8.ofNat (n - 269)]

theorem nibble_le (n : Nat) : nibble n ≤ 14 := by
  unfold nibble
  split <;> [omega; (split <;> omega)]

theorem extension_of_lt {n : Nat} (h : n < 13) : extension n = [] := if_pos h

theorem nibble_of_lt {n : Nat} (h : n < 13) : nibble n = n := if_pos h

theorem extension_of_ge {n : Nat} (h : 13 ≤ n) (h' : n < 269) :
    extension n = [UInt8.ofNat (n - 13)] := by
  rw [extension, if_neg (Nat.not_lt.mpr h), if_pos h']

theorem nibble_of_ge {n : Nat} (h : 13 ≤ n) (h' : n < 269) : nibble n = 13 := by
  rw [nibble, if_neg (Nat.not_lt.mpr h), if_pos h']

/-- The two cases with one octet, and with two. -/
theorem extension_length (n : Nat) :
    (extension n).length = if n < 13 then 0 else if n < 269 then 1 else 2 := by
  unfold extension
  split <;> [rfl; (split <;> rfl)]

theorem extension_length_le {n : Nat} (h : n < 269) : (extension n).length ≤ 1 := by
  rw [extension_length]
  split
  · exact Nat.zero_le 1
  · exact Nat.le_refl 1

/-- What four bits stand for, with the octets behind the one at `pos`: the number, and how many of
    these extend it. -/
def extended (mem : Nat → UInt8) (pos nib : Nat) : Nat × Nat :=
  if nib = 13 then ((mem (pos + 1)).toNat + 13, 1)
  else if nib = 14 then
    (((mem (pos + 1)).toNat * 256 + (mem (pos + 2)).toNat + 269) % 2 ^ 16, 2)
  else (nib, 0)

/-- No more than two octets extend it. -/
theorem extended_le (mem : Nat → UInt8) (pos nib : Nat) : (extended mem pos nib).2 ≤ 2 := by
  unfold extended
  split
  · exact Nat.le_succ 1
  split
  · exact Nat.le_refl 2
  · exact Nat.zero_le 2

/-- **What was written for a number is read back.** -/
theorem extended_nibble {mem : Nat → UInt8} {pos n : Nat} (hn : n < 2 ^ 16)
    (h : Holds mem (pos + 1) (extension n)) :
    extended mem pos (nibble n) = (n, (extension n).length) := by
  rcases Nat.lt_or_ge n 13 with h₁ | h₁
  · have hne : n ≠ 13 ∧ n ≠ 14 := by omega
    rw [nibble_of_lt h₁, extension_of_lt h₁, extended, if_neg hne.1, if_neg hne.2]
    rfl
  rcases Nat.lt_or_ge n 269 with h₂ | h₂
  · rw [extension_of_ge h₁ h₂] at h ⊢
    rw [nibble_of_ge h₁ h₂, extended, if_pos rfl, h.1, UInt8.toNat_ofNat',
      Nat.mod_eq_of_lt (by omega)]
    exact Prod.ext (Nat.sub_add_cancel h₁) rfl
  · rw [extension, if_neg (Nat.not_lt.mpr h₁), if_neg (Nat.not_lt.mpr h₂)] at h ⊢
    rw [nibble, if_neg (Nat.not_lt.mpr h₁), if_neg (Nat.not_lt.mpr h₂), extended,
      if_neg (by omega), if_pos rfl, h.1, h.2.1, UInt8.toNat_ofNat', UInt8.toNat_ofNat']
    refine Prod.ext ?_ rfl
    show ((n - 269) / 256 % 2 ^ 8 * 256 + (n - 269) % 2 ^ 8 + 269) % 2 ^ 16 = n
    omega

/-- The head: the octet of the two nibbles, and what extends them. -/
def head (delta len : Nat) : List UInt8 :=
  UInt8.ofNat (nibble len + 16 * nibble delta) :: (extension delta ++ extension len)

theorem head_first_toNat (delta len : Nat) :
    (UInt8.ofNat (nibble len + 16 * nibble delta)).toNat = nibble len + 16 * nibble delta := by
  have h₁ := nibble_le delta
  have h₂ := nibble_le len
  rw [UInt8.toNat_ofNat', Nat.mod_eq_of_lt (by omega)]

theorem head_length (delta len : Nat) :
    (head delta len).length = 1 + (extension delta).length + (extension len).length := by
  rw [head, List.length_cons, List.length_append]
  omega

/-! ## Integers -/

/-- The word of these octets, most significant first. -/
def ofOctets (octets : List UInt8) : Nat := octets.foldl (fun v b => v * 2 ^ 8 + b.toNat) 0

theorem ofOctets_append_singleton (octets : List UInt8) (b : UInt8) :
    ofOctets (octets ++ [b]) = ofOctets octets * 2 ^ 8 + b.toNat := by
  simp [ofOctets]

theorem ofOctets_eq_ofDigits (octets : List UInt8) :
    ofOctets octets = Nat.ofDigits (2 ^ 8) (octets.reverse.map UInt8.toNat) := by
  induction octets using List.reverseRecOn with
  | nil => rfl
  | append_singleton octets b ih =>
    rw [ofOctets_append_singleton, ih, List.reverse_append, List.reverse_singleton,
      List.singleton_append, List.map_cons, Nat.ofDigits_cons]
    rw [Nat.add_comm, Nat.mul_comm]

/-- With no zero in front the octets are known from the word. -/
theorem ofOctets_inj {l l' : List UInt8} (hl : l.head? ≠ some 0) (hl' : l'.head? ≠ some 0)
    (h : ofOctets l = ofOctets l') : l = l' := by
  have digits : ∀ l : List UInt8, l.head? ≠ some 0 →
      Nat.digits (2 ^ 8) (ofOctets l) = l.reverse.map UInt8.toNat := by
    intro l hl
    rw [ofOctets_eq_ofDigits, Nat.digits_ofDigits (2 ^ 8) (by decide)]
    · intro d hd
      obtain ⟨b, -, rfl⟩ := List.mem_map.mp hd
      exact b.toNat_lt
    · intro hne hzero
      apply hl
      rw [List.getLast_map, ← UInt8.toNat_zero, UInt8.toNat_inj, List.getLast_reverse] at hzero
      rw [List.head?_eq_some_head (by simpa using hne), hzero]
  have hmap := (digits l hl).symm.trans ((congrArg _ h).trans (digits l' hl'))
  exact List.reverse_injective (List.map_injective_iff.mpr (fun a b => UInt8.toNat_inj.mp) hmap)

theorem ofOctets_zero_cons (l : List UInt8) : ofOctets (0 :: l) = ofOctets l := rfl

theorem ofOctets_dropWhile (l : List UInt8) : ofOctets (l.dropWhile (· == 0)) = ofOctets l := by
  induction l with
  | nil => rfl
  | cons b l ih =>
    by_cases hb : b = 0
    · subst hb
      rw [ofOctets_zero_cons, ← ih]
      rfl
    · rw [List.dropWhile_cons_of_neg (by simpa using hb)]

/-- **The octets that are not zero** make the same word exactly where zeros stand in front only. -/
theorem ofOctets_filter_iff (l : List UInt8) :
    ofOctets (l.filter (· != 0)) = ofOctets l ↔ 0 ∉ l.dropWhile (· == 0) := by
  have hdrop : ∀ l : List UInt8, (l.dropWhile (· == 0)).filter (· != 0) = l.filter (· != 0) := by
    intro l
    induction l with
    | nil => rfl
    | cons b l ih =>
      by_cases hb : b = 0
      · subst hb
        exact ih
      · rw [List.dropWhile_cons_of_neg (by simpa using hb)]
  constructor
  · intro h hmem
    have heq : l.filter (· != 0) = l.dropWhile (· == 0) := by
      apply ofOctets_inj
      · intro hhead
        have := List.mem_filter.mp (List.mem_of_head? hhead)
        simp at this
      · intro hhead
        have := List.head?_dropWhile_not (· == 0) l
        rw [hhead] at this
        simp at this
      · rw [h, ofOctets_dropWhile]
    rw [← heq] at hmem
    simpa using (List.mem_filter.mp hmem).2
  · intro h
    rw [← hdrop l, List.filter_eq_self.mpr, ofOctets_dropWhile]
    intro b hb
    have hne : b ≠ 0 := fun h0 => h (h0 ▸ hb)
    simpa using hne

/-! ## Lists of options -/

/-- An option, after one whose number is smaller by `delta`. -/
def encodeOne (delta : Nat) (value : List UInt8) : List UInt8 := head delta value.length ++ value

/-- Options, each a number and a value, after one with the number `prev`. -/
def encode : Nat → List (Nat × List UInt8) → List UInt8
  | _, [] => []
  | prev, o :: os => encodeOne (o.1 - prev) o.2 ++ encode o.1 os

/-- The number of the last option. -/
def last (prev : Nat) (os : List (Nat × List UInt8)) : Nat := (os.getLast?.map (·.1)).getD prev

@[simp] theorem last_nil (prev : Nat) : last prev [] = prev := rfl

@[simp] theorem last_cons (prev : Nat) (o : Nat × List UInt8) (os : List (Nat × List UInt8)) :
    last prev (o :: os) = last o.1 os := by
  cases os with
  | nil => rfl
  | cons o' os => simp [last, List.getLast?_cons]

theorem encode_append (prev : Nat) (os os' : List (Nat × List UInt8)) :
    encode prev (os ++ os') = encode prev os ++ encode (last prev os) os' := by
  induction os generalizing prev with
  | nil => rfl
  | cons o os ih => rw [List.cons_append, encode, encode, ih, List.append_assoc, last_cons]

@[simp] theorem encode_singleton (prev : Nat) (o : Nat × List UInt8) :
    encode prev [o] = encodeOne (o.1 - prev) o.2 := by
  rw [encode, encode, List.append_nil]

/-- The octets that extend the differences of these numbers. -/
def gaps : Nat → List Nat → Nat
  | _, [] => 0
  | prev, n :: ns => (extension (n - prev)).length + gaps n ns

/-- An option behind one of the same number. -/
def valueSize (value : List UInt8) : Nat := 1 + (extension value.length).length + value.length

theorem encode_length (prev : Nat) (os : List (Nat × List UInt8)) :
    (encode prev os).length = (os.map fun o => valueSize o.2).sum + gaps prev (os.map (·.1)) := by
  induction os generalizing prev with
  | nil => rfl
  | cons o os ih =>
    rw [encode, encodeOne, List.length_append, List.length_append, head_length, ih, List.map_cons,
      List.map_cons, List.sum_cons, gaps, valueSize]
    omega

theorem gaps_append (prev : Nat) (ns ns' : List Nat) :
    gaps prev (ns ++ ns') = gaps prev ns + gaps ((ns.getLast?).getD prev) ns' := by
  induction ns generalizing prev with
  | nil => simp [gaps]
  | cons n ns ih =>
    rw [List.cons_append, gaps, gaps, ih, List.getLast?_cons, Nat.add_assoc]
    rfl

/-- Small numbers need no extension. -/
theorem gaps_of_lt {prev : Nat} {ns : List Nat} (h : ∀ n ∈ ns, n < 13) : gaps prev ns = 0 := by
  induction ns generalizing prev with
  | nil => rfl
  | cons n ns ih =>
    have hn : n < 13 := h n List.mem_cons_self
    rw [gaps, extension_of_lt (by omega), ih fun m hm => h m (List.mem_cons_of_mem n hm)]
    rfl

/-- A number that is repeated is extended once. -/
theorem gaps_replicate (prev n k : Nat) (ns : List Nat) :
    gaps prev (List.replicate (k + 1) n ++ ns) = gaps prev (n :: ns) := by
  induction k generalizing prev with
  | zero => rfl
  | succ k ih =>
    rw [List.replicate_succ, List.cons_append, gaps, ih, gaps, gaps, Nat.sub_self]
    exact congrArg _ (Nat.zero_add _)

end Options

end Lib
