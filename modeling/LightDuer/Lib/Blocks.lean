import LightDuer.Lib.Keyed
import Mathlib.Algebra.GroupWithZero.Nat
import Mathlib.Algebra.Ring.Int.Defs

/-!
# Memory in blocks

What an allocator hands out: blocks of octets, in which words of any width are kept. A pointer is a
block and an offset from its start, which may leave the block; an access has a result where all of
it lies in a block that is allocated.

A block is a number and not an address: two blocks never overlap and nothing is said about their
order, so a program whose behaviour depended on that cannot be written in these terms. The offset of
a pointer is an integer, since a header in front of the memory that is handed out is reached by
subtraction; it is `load` and `store` that ask for it to be inside.

## The two views

`Blocks` is a list of numbers with their octets, no number twice. The list is there to be counted:
`sum` adds up a quantity over all blocks, and `sum_put` and `sum_of_bytes` say how one block
contributes to it, which is what a proof about counters of allocated memory needs. For everything
else a memory is the function `bytes`, and `bytes_put` and `bytes_erase` say that the operations
update it.

## Words

`leOctets n` writes a number as `n` octets, least significant first, and `ofLeOctets` reads it back
modulo `256 ^ n`; so a counter that wraps does so by the width it is stored with. `splice` replaces
octets inside a block; that it leaves what is in front and behind alone are `take_splice` and
`drop_splice`, the frame rules of a `store`.
-/

set_option autoImplicit false

namespace Lib

/-! ## Words -/

/-- The last `n` octets of a number, least significant first. -/
def leOctets : Nat → Nat → List UInt8
  | 0, _ => []
  | n + 1, v => UInt8.ofNat v :: leOctets n (v / 256)

def ofLeOctets : List UInt8 → Nat
  | [] => 0
  | b :: bs => b.toNat + 256 * ofLeOctets bs

@[simp] theorem leOctets_length (n v : Nat) : (leOctets n v).length = n := by
  induction n generalizing v with
  | zero => rfl
  | succ n ih => rw [leOctets, List.length_cons, ih]

theorem ofLeOctets_leOctets (n v : Nat) : ofLeOctets (leOctets n v) = v % 256 ^ n := by
  induction n generalizing v with
  | zero => exact (Nat.mod_one v).symm
  | succ n ih =>
    have hlow : (UInt8.ofNat v).toNat = v % 256 := UInt8.toNat_ofNat'
    rw [leOctets, ofLeOctets, ih, hlow, Nat.pow_succ', Nat.mod_mul]

/-! ## Blocks -/

structure Ptr where
  block : Nat
  offset : Int
deriving DecidableEq, Repr

namespace Ptr

def add (p : Ptr) (n : Int) : Ptr := ⟨p.block, p.offset + n⟩

@[simp] theorem add_block (p : Ptr) (n : Int) : (p.add n).block = p.block := rfl

@[simp] theorem add_offset (p : Ptr) (n : Int) : (p.add n).offset = p.offset + n := rfl

end Ptr

/-- The octets `v` in place of those from `off` on. -/
def splice (bytes : List UInt8) (off : Nat) (v : List UInt8) : List UInt8 :=
  bytes.take off ++ (v ++ bytes.drop (off + v.length))

section Splice

variable {bytes v : List UInt8} {off : Nat}

theorem splice_length (h : off + v.length ≤ bytes.length) :
    (splice bytes off v).length = bytes.length := by
  simp only [splice, List.length_append, List.length_take, List.length_drop]
  omega

/-- What is read where it was written. -/
theorem take_drop_splice (h : off + v.length ≤ bytes.length) :
    ((splice bytes off v).drop off).take v.length = v := by
  have hoff : (bytes.take off).length = off := by
    rw [List.length_take]
    omega
  rw [splice, List.drop_left' hoff, List.take_left' rfl]

/-- What lies behind is not changed. -/
theorem drop_splice {n : Nat} (h : off + v.length ≤ bytes.length) (hn : off + v.length ≤ n) :
    (splice bytes off v).drop n = bytes.drop n := by
  obtain ⟨k, rfl⟩ := Nat.exists_eq_add_of_le hn
  have hoff : (bytes.take off ++ v).length = off + v.length := by
    rw [List.length_append, List.length_take]
    omega
  rw [splice, ← List.append_assoc, ← List.drop_drop, List.drop_left' hoff, List.drop_drop]

/-- Nor what lies in front. -/
theorem take_splice {n : Nat} (h : off + v.length ≤ bytes.length) (hn : n ≤ off) :
    (splice bytes off v).take n = bytes.take n := by
  rw [splice, List.take_append_of_le_length (by rw [List.length_take]; omega), List.take_take,
    Nat.min_eq_left hn]

end Splice

/-- The blocks that are allocated, each with its octets. -/
structure Blocks where
  list : List (Nat × List UInt8)
  nodup : (list.map Prod.fst).Nodup

namespace Blocks

/-- The octets of a block. -/
def bytes (m : Blocks) (b : Nat) : Option (List UInt8) := (findKey Prod.fst m.list b).map Prod.snd

def erase (m : Blocks) (b : Nat) : Blocks := ⟨eraseKey Prod.fst m.list b, nodup_eraseKey m.nodup⟩

theorem nodup_put (m : Blocks) (b : Nat) (bs : List UInt8) :
    (((b, bs) :: (m.erase b).list).map Prod.fst).Nodup := by
  refine nodup_cons_of_findKey (m.erase b).nodup ?_
  rw [erase, findKey_eraseKey m.nodup]
  exact Function.update_self ..

/-- The block `b` with these octets, whether it was there or not. -/
def put (m : Blocks) (b : Nat) (bs : List UInt8) : Blocks :=
  ⟨(b, bs) :: (m.erase b).list, m.nodup_put b bs⟩

def empty : Blocks := ⟨[], List.nodup_nil⟩

def count (m : Blocks) : Nat := m.list.length

/-- The sum over all blocks. -/
def sum (m : Blocks) (f : List UInt8 → Nat) : Nat := (m.list.map fun e => f e.2).sum

/-- `n` octets at a pointer. -/
def load (m : Blocks) (p : Ptr) (n : Nat) : Option (List UInt8) := do
  let bs ← m.bytes p.block
  if 0 ≤ p.offset ∧ p.offset + n ≤ bs.length then some ((bs.drop p.offset.toNat).take n) else none

def store (m : Blocks) (p : Ptr) (v : List UInt8) : Option Blocks := do
  let bs ← m.bytes p.block
  if 0 ≤ p.offset ∧ p.offset + v.length ≤ bs.length then
    some (m.put p.block (splice bs p.offset.toNat v))
  else none

section Laws

variable {m : Blocks} {b : Nat} {bs : List UInt8}

theorem bytes_erase (m : Blocks) (b : Nat) :
    (m.erase b).bytes = Function.update m.bytes b none := by
  funext k
  rw [bytes, erase, findKey_eraseKey m.nodup]
  by_cases hk : k = b
  · rw [hk, Function.update_self, Function.update_self, Option.map_none]
  · rw [Function.update_of_ne hk, Function.update_of_ne hk, bytes]

theorem bytes_put (m : Blocks) (b : Nat) (bs : List UInt8) :
    (m.put b bs).bytes = Function.update m.bytes b (some bs) := by
  funext k
  have hcons : findKey Prod.fst ((b, bs) :: (m.erase b).list) k =
      Function.update (findKey Prod.fst (m.erase b).list) b (some (b, bs)) k :=
    congrFun (findKey_cons (b, bs) (m.erase b).list) k
  by_cases hk : k = b
  · subst hk
    rw [Function.update_self] at hcons
    rw [Function.update_self, bytes, put, hcons, Option.map_some]
  · rw [Function.update_of_ne hk] at hcons
    rw [Function.update_of_ne hk, bytes, put, hcons, ← bytes, bytes_erase,
      Function.update_of_ne hk]

@[simp] theorem bytes_put_self (m : Blocks) (b : Nat) (bs : List UInt8) :
    (m.put b bs).bytes b = some bs := by
  rw [bytes_put, Function.update_self]

/-- A block is one of the blocks. -/
theorem perm_of_bytes (h : m.bytes b = some bs) :
    m.list.Perm ((b, bs) :: (m.erase b).list) := by
  obtain ⟨⟨b', bs'⟩, hfind, hbs⟩ := Option.map_eq_some_iff.mp h
  obtain rfl : bs' = bs := hbs
  have hb : b' = b := by simpa using List.find?_some hfind
  subst hb
  obtain ⟨-, l₁, l₂, hl, hfirst⟩ := List.find?_eq_some_iff_append.mp hfind
  have herase : (m.erase b').list = l₁ ++ l₂ := by
    show m.list.eraseP _ = _
    rw [hl, List.eraseP_append_right _ fun e he => by simpa using hfirst e he]
    simp
  rw [herase, hl]
  exact List.perm_middle

theorem bytes_of_mem (h : (b, bs) ∈ m.list) : m.bytes b = some bs := by
  cases hfind : findKey Prod.fst m.list b with
  | none => exact absurd (List.mem_map_of_mem h) (findKey_eq_none.mp hfind)
  | some e =>
    have hmem : e ∈ m.list := List.mem_of_find?_eq_some hfind
    have hkey : e.1 = b := by simpa using List.find?_some hfind
    obtain rfl := List.inj_on_of_nodup_map m.nodup hmem h hkey
    rw [bytes, hfind, Option.map_some]

theorem sum_of_bytes (h : m.bytes b = some bs) (f : List UInt8 → Nat) :
    m.sum f = f bs + (m.erase b).sum f :=
  ((perm_of_bytes h).map fun e : Nat × List UInt8 => f e.2).sum_nat.trans List.sum_cons

theorem erase_of_none (h : m.bytes b = none) : m.erase b = m := by
  have hfind : findKey Prod.fst m.list b = none := Option.map_eq_none_iff.mp h
  have herase : eraseKey Prod.fst m.list b = m.list :=
    List.eraseP_of_forall_not fun e he => by simpa using List.find?_eq_none.mp hfind e he
  cases m
  simp only [erase, herase]

theorem sum_put (m : Blocks) (b : Nat) (bs : List UInt8) (f : List UInt8 → Nat) :
    (m.put b bs).sum f = f bs + (m.erase b).sum f :=
  List.sum_cons

theorem erase_put (m : Blocks) (b : Nat) (bs : List UInt8) : (m.put b bs).erase b = m.erase b := by
  simp [erase, put, eraseKey]

@[simp] theorem put_put (m : Blocks) (b : Nat) (bs bs' : List UInt8) :
    (m.put b bs).put b bs' = m.put b bs' := by
  have herase := congrArg Blocks.list (m.erase_put b bs)
  rw [put, Blocks.mk.injEq, herase]
  rfl

/-- A block is counted with the others. -/
theorem count_eq_sum (m : Blocks) : m.count = m.sum fun _ => 1 := by
  simp [count, sum]

/-- A bound on two sums, from one on each block. -/
theorem sum_add_sum_le {f g k : List UInt8 → Nat}
    (h : ∀ b bs, m.bytes b = some bs → f bs + g bs ≤ k bs) : m.sum f + m.sum g ≤ m.sum k := by
  have hlist : ∀ l : List (Nat × List UInt8), (∀ e ∈ l, f e.2 + g e.2 ≤ k e.2) →
      (l.map fun e => f e.2).sum + (l.map fun e => g e.2).sum ≤ (l.map fun e => k e.2).sum := by
    intro l
    induction l with
    | nil => exact fun _ => Nat.le_refl _
    | cons e l ih =>
      intro hl
      have hfirst := hl e List.mem_cons_self
      have hrest := ih fun e' he' => hl e' (List.mem_cons_of_mem e he')
      simp only [List.map_cons, List.sum_cons]
      omega
  exact hlist m.list fun e he => h e.1 e.2 (bytes_of_mem he)

theorem load_eq_some {p : Ptr} {n : Nat} (h : m.bytes p.block = some bs) (hle : 0 ≤ p.offset)
    (hn : p.offset + n ≤ bs.length) :
    m.load p n = some ((bs.drop p.offset.toNat).take n) := by
  simp only [load, h, Option.bind_eq_bind, Option.bind_some, if_pos (And.intro hle hn)]

theorem store_eq_some {p : Ptr} {v : List UInt8} (h : m.bytes p.block = some bs)
    (hle : 0 ≤ p.offset) (hn : p.offset + v.length ≤ bs.length) :
    m.store p v = some (m.put p.block (splice bs p.offset.toNat v)) := by
  simp only [store, h, Option.bind_eq_bind, Option.bind_some, if_pos (And.intro hle hn)]

/-- Nothing can be read in front of a block. -/
theorem load_eq_none_of_neg {p : Ptr} {n : Nat} (h : p.offset < 0) : m.load p n = none := by
  cases hbytes : m.bytes p.block with
  | none => simp only [load, hbytes, Option.bind_eq_bind, Option.bind_none]
  | some bs =>
    simp only [load, hbytes, Option.bind_eq_bind, Option.bind_some]
    exact if_neg fun hin => absurd hin.1 (Int.not_le.mpr h)

/-- Writing into the block that was put last. -/
theorem store_put (m : Blocks) (b : Nat) {n : Nat} {v : List UInt8}
    (h : n + v.length ≤ bs.length) :
    (m.put b bs).store ⟨b, n⟩ v = some (m.put b (splice bs n v)) := by
  have hstore := store_eq_some (p := ⟨b, n⟩) (v := v) (m.bytes_put_self b bs)
    (Int.natCast_nonneg n) (show (n : Int) + v.length ≤ bs.length by omega)
  rw [hstore, put_put, Int.toNat_natCast]

/-- And not behind its end. -/
theorem store_put_eq_none (m : Blocks) (b : Nat) {n : Nat} {v : List UInt8}
    (h : bs.length < n + v.length) : (m.put b bs).store ⟨b, n⟩ v = none := by
  simp only [store, bytes_put_self, Option.bind_eq_bind, Option.bind_some]
  exact if_neg fun hin => absurd hin.2 (by omega)

end Laws

end Blocks

end Lib
