import LightDuer.Lib.Blocks
import LightDuer.Lib.Transition

/-!
# Memory that is accounted for

`lightduer_memory.c` with `DUER_MEMORY_USAGE`: each block has a header in front of what the caller
gets, with a mask and the size, and `s_duer_memory` counts the blocks and their sizes. What the
allocator answers is a part of the call; the octets of a new block are what they happen to be. A
function has no result where it would read or write outside a block that is allocated, or give the
allocator back what it did not hand out.

## The machine

`Abi` is the width of a `size_t` and the order of its octets, and everything is proved for any of
them. Sizes are `BitVec`, since it is their wrapping that matters; the header is two words, the mask
with its padding and the size.

## What is promised, and when

`Allowed` is the contract with the surroundings. The caller passes `NULL` or a pointer that it was
given, and writes only into what it was given; the allocator answers with `NULL` or with a block of
the size it was asked for, which overlaps no other. `Guarded` is the condition under which the code
then does what `Faithful` says, and the two sides are proved to be equivalent along a run. It leaves
out three things: a size that wraps when the header is added, `realloc` without `f_realloc`, where
the old block is read for as long as the new one is, and `f_realloc` failing, where the block has
already been counted off.

## The invariant

The counters are those of the blocks modulo the width (`Inv`), and exactly, since every block takes
more room than is counted for it and all of them fit into the address space (`Inv.counted`). The
header of each block says how long it is, and a caller's writes lie behind it.
-/

set_option autoImplicit false

namespace LightDuer
namespace Framework
namespace Memory

open Lib

/-! ## The code -/

/-- The `size_t` of the machine, in octets, and their order. -/
structure Abi where
  word : Nat
  four_le : 4 ≤ word
  bigEndian : Bool

namespace Abi

variable (abi : Abi)

/-- `duer_size_t` -/
abbrev Size : Type := BitVec (8 * abi.word)

/-- A word of `n` octets in memory. -/
def octets (n v : Nat) : List UInt8 :=
  if abi.bigEndian then (leOctets n v).reverse else leOctets n v

def ofOctets (bytes : List UInt8) : Nat :=
  ofLeOctets (if abi.bigEndian then bytes.reverse else bytes)

/-- `sizeof(duer_memhdr_t)`: the mask, and `size` at the next multiple of its own size. -/
def hdr : Nat := 2 * abi.word

@[simp] theorem octets_length (n v : Nat) : (abi.octets n v).length = n := by
  unfold octets
  split
  · rw [List.length_reverse, leOctets_length]
  · exact leOctets_length n v

theorem ofOctets_octets (n v : Nat) : abi.ofOctets (abi.octets n v) = v % 256 ^ n := by
  unfold ofOctets octets
  split
  · rw [List.reverse_reverse, ofLeOctets_leOctets]
  · exact ofLeOctets_leOctets n v

end Abi

/-- `DUER_MEM_HDR_MASK` -/
def duerMemHdrMask : Nat := 0xFEDCBA98

/-- `duer_memory_t`: which functions are set, and the counters. -/
structure DuerMemory (abi : Abi) where
  fMalloc : Bool
  fRealloc : Bool
  fFree : Bool
  allocCounts : abi.Size
  allocSize : abi.Size
  maxSize : abi.Size

/-- `s_duer_memory`, and the blocks that the allocator has handed out. -/
structure Sys (abi : Abi) where
  memory : DuerMemory abi
  blocks : Blocks

/-- What the allocator answers: a block with its octets, or `NULL`. -/
abbrev Answer : Type := Option (Nat × List UInt8)

/-- `f_malloc` -/
def callMalloc (blocks : Blocks) : Answer → Option Ptr × Blocks
  | none => (none, blocks)
  | some (b, bytes) => (some ⟨b, 0⟩, blocks.put b bytes)

/-- `f_realloc`: the new block begins with what is kept of the old one. -/
def callRealloc (blocks : Blocks) (p : Option Ptr) (size : Nat) (answer : Answer) :
    Option (Option Ptr × Blocks) :=
  match p with
  | none => some (callMalloc blocks answer)
  | some p =>
    if p.offset = 0 then do
      let old ← blocks.bytes p.block
      match answer with
      | none => some (none, blocks)
      | some (b, bytes) =>
          some (some ⟨b, 0⟩,
            (blocks.erase p.block).put b (old.take size ++ bytes.drop old.length))
    else none

/-- `f_free` -/
def callFree (blocks : Blocks) : Option Ptr → Option Blocks
  | none => some blocks
  | some p =>
    if p.offset = 0 then do
      let _ ← blocks.bytes p.block
      some (blocks.erase p.block)
    else none

section Code

variable {abi : Abi}

/-- `duer_memdbg_acquire` -/
def duerMemdbgAcquire (s : Sys abi) (ptr : Option Ptr) (size : abi.Size) :
    Option (Option Ptr × Sys abi) :=
  match ptr with
  | none => some (none, s)
  | some p => do
      let blocks ← s.blocks.store p (abi.octets 4 duerMemHdrMask)
      let size := size - BitVec.ofNat _ abi.hdr
      let blocks ← blocks.store (p.add abi.word) (abi.octets abi.word size.toNat)
      let allocSize := s.memory.allocSize + size
      let memory := { s.memory with
        allocCounts := s.memory.allocCounts + 1
        allocSize
        maxSize := if s.memory.maxSize < allocSize then allocSize else s.memory.maxSize }
      some (some (p.add abi.hdr), ⟨memory, blocks⟩)

/-- `duer_memdbg_release`. A mask that is not there is only reported. -/
def duerMemdbgRelease (s : Sys abi) (ptr : Option Ptr) : Option (Sys abi) :=
  match ptr with
  | none => some s
  | some p => do
      let _mask ← s.blocks.load p 4
      let size ← s.blocks.load (p.add abi.word) abi.word
      some { s with memory := { s.memory with
        allocCounts := s.memory.allocCounts - 1
        allocSize := s.memory.allocSize - BitVec.ofNat _ (abi.ofOctets size) } }

/-- `DUER_MEM_CONVERT` -/
def duerMemConvert (abi : Abi) (ptr : Option Ptr) : Option Ptr := ptr.map fun p => p.add (-abi.hdr)

/-- `duer_malloc` -/
def duerMalloc (s : Sys abi) (size : abi.Size) (answer : Answer) :
    Option (Option Ptr × Sys abi) :=
  if s.memory.fMalloc then
    let size := size + BitVec.ofNat _ abi.hdr
    let rs := callMalloc s.blocks answer
    duerMemdbgAcquire { s with blocks := rs.2 } rs.1 size
  else some (none, s)

/-- `duer_free` -/
def duerFree (s : Sys abi) (ptr : Option Ptr) : Option (Sys abi) :=
  if s.memory.fFree then do
    let ptr := duerMemConvert abi ptr
    let s ← duerMemdbgRelease s ptr
    let blocks ← callFree s.blocks ptr
    some { s with blocks }
  else some s

/-- `DUER_MEMCPY` -/
def duerMemcpy (s : Sys abi) (dst : Ptr) (src : Option Ptr) (n : abi.Size) :
    Option (Sys abi) := do
  let src ← src
  let v ← s.blocks.load src n.toNat
  let blocks ← s.blocks.store dst v
  some { s with blocks }

/-- What is copied into a new block. -/
def copyOld (s : Sys abi) (rs ptr : Option Ptr) (size : abi.Size) : Option (Sys abi) :=
  match rs with
  | none => some s
  | some rs => duerMemcpy s rs ptr size

/-- `duer_realloc` where `f_realloc` is `NULL`. -/
def reallocByMalloc (s : Sys abi) (ptr : Option Ptr) (size : abi.Size) (answer : Answer) :
    Option (Option Ptr × Sys abi) := do
  let rs ← duerMalloc s size answer
  let s ← copyOld rs.2 rs.1 ptr size
  let s ← duerFree s ptr
  some (rs.1, s)

/-- `duer_realloc` -/
def duerRealloc (s : Sys abi) (ptr : Option Ptr) (size : abi.Size) (answer : Answer) :
    Option (Option Ptr × Sys abi) :=
  if s.memory.fRealloc || (s.memory.fMalloc && s.memory.fFree) then do
    let ptr := duerMemConvert abi ptr
    let size := size + BitVec.ofNat _ abi.hdr
    let s ← duerMemdbgRelease s ptr
    let rs ←
      if s.memory.fRealloc then
        (callRealloc s.blocks ptr size.toNat answer).map fun r => (r.1, { s with blocks := r.2 })
      else if s.memory.fMalloc && s.memory.fFree then reallocByMalloc s ptr size answer
      else some (none, s)
    duerMemdbgAcquire rs.2 rs.1 size
  else some (none, s)

end Code

/-! ## Calls -/

/-- A call, or a write of the caller into what it was given. -/
inductive Move (abi : Abi) where
  | malloc (size : abi.Size) (answer : Answer)
  | realloc (ptr : Option Ptr) (size : abi.Size) (answer : Answer)
  | free (ptr : Option Ptr)
  | write (p : Ptr) (v : List UInt8)

variable {abi : Abi}

/-- `baidu_ca_memory_init`, before there are blocks. -/
def Sys.init (abi : Abi) (fMalloc fRealloc fFree : Bool) : Sys abi :=
  ⟨⟨fMalloc, fRealloc, fFree, 0, 0, 0⟩, .empty⟩

/-- What a call returns. -/
def call (s : Sys abi) : Move abi → Option (Option Ptr × Sys abi)
  | .malloc size answer => duerMalloc s size answer
  | .realloc ptr size answer => duerRealloc s ptr size answer
  | .free ptr => (duerFree s ptr).map fun s => (none, s)
  | .write p v => (s.blocks.store p v).map fun blocks => (none, { s with blocks })

def step (s : Sys abi) (m : Move abi) : Option (Sys abi) := (call s m).map Prod.snd

/-- A pointer that the caller has been given, and has not given back. -/
def Live (s : Sys abi) (p : Ptr) : Prop := p.offset = abi.hdr ∧ (s.blocks.bytes p.block).isSome

/-- **What an allocator may answer** to a request: `NULL`, or a block of the size, which is no other
    block and for which there is room beside them. The functions that the application has registered
    are asked nothing more. -/
def MayAnswer (abi : Abi) (blocks : Blocks) (size : abi.Size) : Answer → Prop
  | none => True
  | some (b, bytes) => blocks.bytes b = none ∧ bytes.length = size.toNat ∧
      blocks.sum List.length + size.toNat < 2 ^ (8 * abi.word)

/-- The caller passes `NULL` or a pointer it has been given, and writes in what it was given; the
    allocator answers as it may. -/
def Allowed (s : Sys abi) : Move abi → Prop
  | .malloc size answer => MayAnswer abi s.blocks (size + BitVec.ofNat _ abi.hdr) answer
  | .realloc none size answer =>
      if s.memory.fRealloc then MayAnswer abi s.blocks (size + BitVec.ofNat _ abi.hdr) answer
      else MayAnswer abi s.blocks (size + BitVec.ofNat _ abi.hdr + BitVec.ofNat _ abi.hdr) answer
  | .realloc (some p) size answer => Live s p ∧
      if s.memory.fRealloc then
        MayAnswer abi (s.blocks.erase p.block) (size + BitVec.ofNat _ abi.hdr) answer
      else MayAnswer abi s.blocks (size + BitVec.ofNat _ abi.hdr + BitVec.ofNat _ abi.hdr) answer
  | .free none => True
  | .free (some p) => Live s p
  | .write p v => ∃ bytes, s.blocks.bytes p.block = some bytes ∧ abi.hdr ≤ p.offset ∧
      p.offset + v.length ≤ bytes.length

/-! ## What is promised -/

/-- The octets of a block that the caller sees. -/
def dataSize (abi : Abi) (bytes : List UInt8) : Nat := bytes.length - abi.hdr

/-- The counters are those of the blocks. -/
def Counted (s : Sys abi) : Prop :=
  s.memory.allocCounts.toNat = s.blocks.count ∧
    s.memory.allocSize.toNat = s.blocks.sum (dataSize abi)

/-- What the caller sees at a pointer. -/
def Sys.data (s : Sys abi) : Option Ptr → List UInt8
  | none => []
  | some p => ((s.blocks.bytes p.block).getD []).drop abi.hdr

/-- A block of the new size that begins with the old data, or nothing has changed. -/
def Resized (s : Sys abi) (ptr : Option Ptr) (size : abi.Size) (r : Option Ptr × Sys abi) : Prop :=
  match r.1 with
  | none => r.2 = s
  | some q => Live r.2 q ∧ (r.2.data (some q)).length = size.toNat ∧
      (r.2.data (some q)).take (min (s.data ptr).length size.toNat) =
        (s.data ptr).take (min (s.data ptr).length size.toNat)

/-- What a call returns. -/
def Promised (s : Sys abi) : Move abi → Option Ptr × Sys abi → Prop
  | .realloc ptr size _, r => Resized s ptr size r
  | _, _ => True

/-- **The call does what is promised**: it stays inside the blocks, the counters are right after it,
    and a `realloc` resizes. A call that leaves the blocks has no result, so that the first part is
    said by there being one. -/
def Faithful (s : Sys abi) (m : Move abi) : Prop :=
  ∃ r, call s m = some r ∧ Counted r.2 ∧ Promised s m r

/-- **When it does**: a block is asked for only where its size and the header fit a `duer_size_t`,
    or in vain; `realloc` has `f_realloc`, which does not fail on a block, or else gets `NULL`, and
    fails; or there are no functions for it. -/
def Guarded (s : Sys abi) : Move abi → Prop
  | .malloc size answer =>
      s.memory.fMalloc = true → answer = none ∨ size.toNat + abi.hdr < 2 ^ (8 * abi.word)
  | .realloc ptr size answer =>
      if s.memory.fRealloc then
        ptr = none ∧ answer = none ∨ answer ≠ none ∧ size.toNat + abi.hdr < 2 ^ (8 * abi.word)
      else s.memory.fMalloc = true → s.memory.fFree = true → ptr = none ∧ answer = none
  | _ => True

/-! ## The invariant -/

/-- The header says how long the block is. -/
structure Framed (abi : Abi) (bytes : List UInt8) : Prop where
  hdr_le : abi.hdr ≤ bytes.length
  size : BitVec.ofNat (8 * abi.word) (abi.ofOctets ((bytes.drop abi.word).take abi.word)) =
    BitVec.ofNat (8 * abi.word) (dataSize abi bytes)

/-- The counters count modulo the range of a `duer_size_t`, for which the blocks are few enough. -/
structure Inv (s : Sys abi) : Prop where
  framed : ∀ b bytes, s.blocks.bytes b = some bytes → Framed abi bytes
  fits : s.blocks.sum List.length < 2 ^ (8 * abi.word)
  counts : s.memory.allocCounts = BitVec.ofNat (8 * abi.word) s.blocks.count
  size : s.memory.allocSize = BitVec.ofNat (8 * abi.word) (s.blocks.sum (dataSize abi))

theorem Abi.hdr_pos (abi : Abi) : 8 ≤ abi.hdr := by
  have hword := abi.four_le
  unfold Abi.hdr
  omega

theorem Inv.init (abi : Abi) (fMalloc fRealloc fFree : Bool) :
    Inv (Sys.init abi fMalloc fRealloc fFree) :=
  ⟨fun _ _ h => absurd h (by simp [Sys.init, Blocks.bytes, Blocks.empty, findKey]),
    Nat.two_pow_pos _, rfl, rfl⟩

/-- **Counted exactly**, since each block takes more room than its data. The counters are sums over
    the live blocks; that they do not wrap follows from the room that there was for each block. -/
theorem Inv.counted {s : Sys abi} (h : Inv s) : Counted s := by
  have hroom : s.blocks.count + s.blocks.sum (dataSize abi) ≤ s.blocks.sum List.length := by
    rw [Blocks.count_eq_sum]
    refine Blocks.sum_add_sum_le fun b bytes hbytes => ?_
    have hle := (h.framed b bytes hbytes).hdr_le
    have hpos := abi.hdr_pos
    simp only [dataSize]
    omega
  have hfits := h.fits
  constructor
  · rw [h.counts, BitVec.toNat_ofNat]
    exact Nat.mod_eq_of_lt (by omega)
  · rw [h.size, BitVec.toNat_ofNat]
    exact Nat.mod_eq_of_lt (by omega)

/-! ## The header -/

/-- The header of `duer_memdbg_acquire`, written into a block. -/
def stamp (abi : Abi) (raw : List UInt8) (size : abi.Size) : List UInt8 :=
  splice (splice raw 0 (abi.octets 4 duerMemHdrMask)) abi.word (abi.octets abi.word size.toNat)

section Stamp

variable {raw : List UInt8} (size : abi.Size) (h : abi.hdr ≤ raw.length)

include h

theorem stamp_length : (stamp abi raw size).length = raw.length := by
  have hword := abi.four_le
  unfold Abi.hdr at h
  have hmask : (splice raw 0 (abi.octets 4 duerMemHdrMask)).length = raw.length :=
    splice_length (by rw [Abi.octets_length]; omega)
  rw [stamp, splice_length (by rw [Abi.octets_length, hmask]; omega), hmask]

theorem stamp_drop : (stamp abi raw size).drop abi.hdr = raw.drop abi.hdr := by
  have hword := abi.four_le
  unfold Abi.hdr at h ⊢
  have hmask : (splice raw 0 (abi.octets 4 duerMemHdrMask)).length = raw.length :=
    splice_length (by rw [Abi.octets_length]; omega)
  rw [stamp, drop_splice (by rw [Abi.octets_length, hmask]; omega)
      (by rw [Abi.octets_length]; omega),
    drop_splice (by rw [Abi.octets_length]; omega) (by rw [Abi.octets_length]; omega)]

theorem stamp_framed (hsize : size.toNat = dataSize abi raw) : Framed abi (stamp abi raw size) := by
  have hlength := stamp_length size h
  have hword := abi.four_le
  have hmask : (splice raw 0 (abi.octets 4 duerMemHdrMask)).length = raw.length :=
    splice_length (by rw [Abi.octets_length]; unfold Abi.hdr at h; omega)
  have hread : ((stamp abi raw size).drop abi.word).take (abi.octets abi.word size.toNat).length =
      abi.octets abi.word size.toNat :=
    take_drop_splice (by rw [Abi.octets_length, hmask]; unfold Abi.hdr at h; omega)
  have hrange : 256 ^ abi.word = 2 ^ (8 * abi.word) := (Nat.pow_mul 2 8 abi.word).symm
  rw [Abi.octets_length] at hread
  refine ⟨hlength ▸ h, ?_⟩
  rw [hread, Abi.ofOctets_octets, hrange, Nat.mod_eq_of_lt size.isLt, hsize, dataSize, dataSize,
    hlength]

end Stamp

/-! ## Acquiring and releasing -/

/-- The size that is asked for, where the header fits. -/
theorem toNat_add_hdr {size : abi.Size} (h : size.toNat + abi.hdr < 2 ^ (8 * abi.word)) :
    (size + BitVec.ofNat _ abi.hdr).toNat = size.toNat + abi.hdr := by
  rw [BitVec.toNat_add, BitVec.toNat_ofNat, Nat.add_mod_mod, Nat.mod_eq_of_lt h]

/-- And where it does not: too little for a header. -/
theorem toNat_add_hdr_lt {size : abi.Size} (h : 2 ^ (8 * abi.word) ≤ size.toNat + abi.hdr) :
    (size + BitVec.ofNat _ abi.hdr).toNat < abi.hdr := by
  have hlt := size.isLt
  rw [BitVec.toNat_add, BitVec.toNat_ofNat, Nat.add_mod_mod]
  by_cases hhdr : abi.hdr ≤ 2 ^ (8 * abi.word)
  · rw [Nat.mod_eq_sub_mod h, Nat.mod_eq_of_lt (by omega)]
    omega
  · exact Nat.lt_of_lt_of_le (Nat.mod_lt _ (Nat.two_pow_pos _)) (by omega)

theorem toNat_sub_hdr {size : abi.Size} (h : abi.hdr ≤ size.toNat) :
    (size - BitVec.ofNat _ abi.hdr).toNat = size.toNat - abi.hdr := by
  have hhdr : (BitVec.ofNat (8 * abi.word) abi.hdr).toNat = abi.hdr := by
    rw [BitVec.toNat_ofNat, Nat.mod_eq_of_lt (Nat.lt_of_le_of_lt h size.isLt)]
  rw [BitVec.toNat_sub_of_le (by rw [BitVec.le_def, hhdr]; exact h), hhdr]

section Acquire

variable {s : Sys abi} {b : Nat} {raw : List UInt8} {size : abi.Size}

/-- A block more. -/
def DuerMemory.more (memory : DuerMemory abi) (size : abi.Size) : DuerMemory abi :=
  { memory with
    allocCounts := memory.allocCounts + 1
    allocSize := memory.allocSize + size
    maxSize := if memory.maxSize < memory.allocSize + size then memory.allocSize + size
      else memory.maxSize }

/-- What is written into a block in which the header fits. -/
theorem duerMemdbgAcquire_put (memory : DuerMemory abi) (blocks : Blocks) (b : Nat)
    (size : abi.Size) (h : abi.hdr ≤ raw.length) :
    duerMemdbgAcquire ⟨memory, blocks.put b raw⟩ (some ⟨b, 0⟩) size =
      some (some ⟨b, abi.hdr⟩, ⟨memory.more (size - BitVec.ofNat _ abi.hdr),
        blocks.put b (stamp abi raw (size - BitVec.ofNat _ abi.hdr))⟩) := by
  have hword := abi.four_le
  unfold Abi.hdr at h
  have hmask : 0 + (abi.octets 4 duerMemHdrMask).length ≤ raw.length := by
    rw [Abi.octets_length]
    omega
  have hsize : ∀ n, abi.word + (abi.octets abi.word n).length ≤
      (splice raw 0 (abi.octets 4 duerMemHdrMask)).length := by
    intro n
    rw [Abi.octets_length, splice_length hmask]
    omega
  have hfirst := blocks.store_put b hmask
  have hsecond := blocks.store_put b (hsize (size - BitVec.ofNat _ abi.hdr).toNat)
  simp only [Int.natCast_zero] at hfirst
  simp only [duerMemdbgAcquire, Ptr.add, Int.zero_add, hfirst, hsecond, Option.bind_eq_bind,
    Option.bind_some]
  rfl

/-- In a block that is too small for it, the header does not fit. -/
theorem duerMemdbgAcquire_put_eq_none (memory : DuerMemory abi) (blocks : Blocks) (b : Nat)
    (size : abi.Size) (h : raw.length < abi.hdr) :
    duerMemdbgAcquire ⟨memory, blocks.put b raw⟩ (some ⟨b, 0⟩) size = none := by
  unfold Abi.hdr at h
  by_cases hmask : 0 + (abi.octets 4 duerMemHdrMask).length ≤ raw.length
  · have hsize : ∀ n, (splice raw 0 (abi.octets 4 duerMemHdrMask)).length <
        abi.word + (abi.octets abi.word n).length := by
      intro n
      rw [Abi.octets_length, splice_length hmask]
      omega
    have hfirst := blocks.store_put b hmask
    have hsecond := blocks.store_put_eq_none b (hsize (size - BitVec.ofNat _ abi.hdr).toNat)
    simp only [Int.natCast_zero] at hfirst
    simp only [duerMemdbgAcquire, Ptr.add, Int.zero_add, hfirst, hsecond, Option.bind_eq_bind,
      Option.bind_some, Option.bind_none]
  · have hfirst := blocks.store_put_eq_none b (Nat.lt_of_not_le hmask)
    simp only [Int.natCast_zero] at hfirst
    simp only [duerMemdbgAcquire, hfirst, Option.bind_eq_bind, Option.bind_none]

/-- A new block, which is not counted yet, with its header. -/
theorem Inv.acquire (h : Inv s) (hnone : s.blocks.bytes b = none) (hraw : raw.length = size.toNat)
    (hle : abi.hdr ≤ size.toNat)
    (hfits : s.blocks.sum List.length + size.toNat < 2 ^ (8 * abi.word)) :
    Inv ⟨s.memory.more (size - BitVec.ofNat _ abi.hdr),
      s.blocks.put b (stamp abi raw (size - BitVec.ofNat _ abi.hdr))⟩ := by
  have hhdr : abi.hdr ≤ raw.length := hraw ▸ hle
  have hsize : (size - BitVec.ofNat _ abi.hdr).toNat = dataSize abi raw := by
    rw [toNat_sub_hdr hle, dataSize, hraw]
  have hlength := stamp_length (size - BitVec.ofNat _ abi.hdr) hhdr
  have herase : s.blocks.erase b = s.blocks := Blocks.erase_of_none hnone
  refine ⟨?_, ?_, ?_, ?_⟩
  · intro b' bytes hbytes
    rw [Blocks.bytes_put] at hbytes
    by_cases hb : b' = b
    · rw [hb, Function.update_self] at hbytes
      exact Option.some.inj hbytes ▸ stamp_framed (size - BitVec.ofNat _ abi.hdr) hhdr hsize
    · rw [Function.update_of_ne hb] at hbytes
      exact h.framed b' bytes hbytes
  · rw [Blocks.sum_put, herase, hlength, hraw, Nat.add_comm]
    exact hfits
  · show s.memory.allocCounts + 1 = _
    rw [h.counts, Blocks.count_eq_sum, Blocks.count_eq_sum, Blocks.sum_put, herase, Nat.add_comm,
      BitVec.ofNat_add]
    rfl
  · show s.memory.allocSize + _ = _
    rw [h.size, Blocks.sum_put, herase, Nat.add_comm, BitVec.ofNat_add, dataSize, hlength,
      ← dataSize, ← hsize, BitVec.ofNat_toNat, BitVec.setWidth_eq]

/-- A block less. -/
def DuerMemory.less (memory : DuerMemory abi) (size : abi.Size) : DuerMemory abi :=
  { memory with
    allocCounts := memory.allocCounts - 1
    allocSize := memory.allocSize - size }

theorem Inv.release_eq (h : Inv s) {bytes : List UInt8} (hbytes : s.blocks.bytes b = some bytes) :
    duerMemdbgRelease s (some ⟨b, 0⟩) =
      some { s with memory := s.memory.less (BitVec.ofNat _ (dataSize abi bytes)) } := by
  have hframed := h.framed b bytes hbytes
  have hword := abi.four_le
  have hlength := hframed.hdr_le
  unfold Abi.hdr at hlength
  have hmask := Blocks.load_eq_some (p := ⟨b, 0⟩) (n := 4) hbytes (Int.le_refl 0)
    (show (0 : Int) + (4 : Nat) ≤ bytes.length by omega)
  have hsize := Blocks.load_eq_some (p := ⟨b, abi.word⟩) (n := abi.word) hbytes
    (Int.natCast_nonneg _) (show (abi.word : Int) + abi.word ≤ bytes.length by omega)
  simp only [Int.toNat_natCast] at hsize
  simp only [duerMemdbgRelease, Ptr.add, Int.zero_add, hmask, hsize, Option.bind_eq_bind,
    Option.bind_some, hframed.size]
  rfl

/-- In front of a block there is no header. -/
theorem duerMemdbgRelease_eq_none {p : Ptr} (h : p.offset < 0) :
    duerMemdbgRelease s (some p) = none := by
  simp only [duerMemdbgRelease, Blocks.load_eq_none_of_neg h, Option.bind_eq_bind, Option.bind_none]

/-- A block is given back. -/
theorem Inv.release (h : Inv s) {bytes : List UInt8} (hbytes : s.blocks.bytes b = some bytes) :
    Inv ⟨s.memory.less (BitVec.ofNat _ (dataSize abi bytes)), s.blocks.erase b⟩ := by
  refine ⟨?_, ?_, ?_, ?_⟩
  · intro b' bytes' hbytes'
    rw [Blocks.bytes_erase] at hbytes'
    by_cases hb : b' = b
    · rw [hb, Function.update_self] at hbytes'
      cases hbytes'
    · rw [Function.update_of_ne hb] at hbytes'
      exact h.framed b' bytes' hbytes'
  · have hfits := h.fits
    rw [Blocks.sum_of_bytes hbytes] at hfits
    exact Nat.lt_of_le_of_lt (Nat.le_add_left _ _) hfits
  · show s.memory.allocCounts - 1 = _
    rw [h.counts, Blocks.count_eq_sum, Blocks.count_eq_sum, Blocks.sum_of_bytes hbytes,
      Nat.add_comm, BitVec.ofNat_add]
    exact BitVec.add_sub_cancel _ _
  · show s.memory.allocSize - _ = _
    rw [h.size, Blocks.sum_of_bytes hbytes, Nat.add_comm, BitVec.ofNat_add]
    exact BitVec.add_sub_cancel _ _

end Acquire

/-! ## The calls -/

section Calls

variable {s : Sys abi} {size : abi.Size} {answer : Answer}

theorem duerMalloc_none (h : answer = none) : duerMalloc s size answer = some (none, s) := by
  subst h
  unfold duerMalloc
  split <;> rfl

/-- A block of this size, with its header. -/
theorem duerMalloc_some {b : Nat} {raw : List UInt8} (hmalloc : s.memory.fMalloc = true)
    (hraw : raw.length = (size + BitVec.ofNat _ abi.hdr).toNat)
    (hfit : size.toNat + abi.hdr < 2 ^ (8 * abi.word)) :
    duerMalloc s size (some (b, raw)) =
      some (some ⟨b, abi.hdr⟩, ⟨s.memory.more size, s.blocks.put b (stamp abi raw size)⟩) := by
  have hhdr : abi.hdr ≤ raw.length := by
    rw [hraw, toNat_add_hdr hfit]
    exact Nat.le_add_left _ _
  have hacquire := duerMemdbgAcquire_put s.memory s.blocks b (size + BitVec.ofNat _ abi.hdr) hhdr
  rw [BitVec.add_sub_cancel] at hacquire
  rw [duerMalloc, if_pos hmalloc]
  exact hacquire

/-- Where the size wraps around, the block is too small for the header. -/
theorem duerMalloc_eq_none {b : Nat} {raw : List UInt8} (hmalloc : s.memory.fMalloc = true)
    (hraw : raw.length = (size + BitVec.ofNat _ abi.hdr).toNat)
    (hfit : ¬size.toNat + abi.hdr < 2 ^ (8 * abi.word)) :
    duerMalloc s size (some (b, raw)) = none := by
  rw [duerMalloc, if_pos hmalloc]
  exact duerMemdbgAcquire_put_eq_none _ _ _ _ (hraw ▸ toNat_add_hdr_lt (Nat.le_of_not_lt hfit))

theorem Inv.malloc (h : Inv s) (hallowed : Allowed s (.malloc size answer))
    (hguard : Guarded s (.malloc size answer)) :
    ∃ r, duerMalloc s size answer = some r ∧ Inv r.2 := by
  cases answer with
  | none => exact ⟨(none, s), duerMalloc_none rfl, h⟩
  | some answer =>
    obtain ⟨b, raw⟩ := answer
    obtain ⟨hfresh, hraw, hfits⟩ := hallowed
    cases hmalloc : s.memory.fMalloc with
    | false =>
      refine ⟨(none, s), ?_, h⟩
      rw [duerMalloc, hmalloc]
      rfl
    | true =>
      have hfit := (hguard hmalloc).resolve_left (by simp)
      have hsum := toNat_add_hdr hfit
      have hacquired := h.acquire hfresh hraw (by omega) hfits
      rw [BitVec.add_sub_cancel] at hacquired
      exact ⟨_, duerMalloc_some hmalloc hraw hfit, hacquired⟩

/-- A pointer of the caller, converted. -/
theorem Live.convert {p : Ptr} (h : Live s p) :
    duerMemConvert abi (some p) = some ⟨p.block, 0⟩ ∧
      ∃ bytes, s.blocks.bytes p.block = some bytes := by
  refine ⟨?_, Option.isSome_iff_exists.mp h.2⟩
  simp only [duerMemConvert, Option.map_some, Ptr.add, h.1, Int.add_right_neg]

theorem Inv.free (h : Inv s) {ptr : Option Ptr} (hallowed : Allowed s (.free ptr)) :
    ∃ s', duerFree s ptr = some s' ∧ Inv s' := by
  cases hfree : s.memory.fFree with
  | false => exact ⟨s, by rw [duerFree, hfree]; rfl, h⟩
  | true =>
    cases ptr with
    | none => exact ⟨s, by rw [duerFree, hfree]; rfl, h⟩
    | some p =>
      obtain ⟨hconvert, bytes, hbytes⟩ := Live.convert hallowed
      refine ⟨_, ?_, h.release hbytes⟩
      simp only [duerFree, hfree, if_true, hconvert, h.release_eq hbytes, callFree, hbytes,
        Option.bind_eq_bind, Option.bind_some]

/-- Behind the header, a write leaves it as it is. -/
theorem Framed.splice {bytes v : List UInt8} {off : Nat} (h : Framed abi bytes)
    (hhdr : abi.hdr ≤ off) (hend : off + v.length ≤ bytes.length) :
    Framed abi (splice bytes off v) := by
  have hlength := splice_length hend
  have htake := take_splice hend hhdr
  have hread : ∀ l : List UInt8,
      (l.drop abi.word).take abi.word = (l.take abi.hdr).drop abi.word := by
    intro l
    rw [List.drop_take, Abi.hdr, Nat.two_mul, Nat.add_sub_cancel]
  refine ⟨hlength ▸ h.hdr_le, ?_⟩
  rw [hread, htake, ← hread, h.size, dataSize, dataSize, hlength]

theorem Inv.write (h : Inv s) {p : Ptr} {v : List UInt8} (hallowed : Allowed s (.write p v)) :
    ∃ blocks, s.blocks.store p v = some blocks ∧ Inv { s with blocks } := by
  obtain ⟨bytes, hbytes, hhdr, hend⟩ := hallowed
  have hin : p.offset.toNat + v.length ≤ bytes.length := by omega
  have hlength := splice_length hin
  have hsum : ∀ f : List UInt8 → Nat, f (splice bytes p.offset.toNat v) = f bytes →
      (s.blocks.put p.block (splice bytes p.offset.toNat v)).sum f = s.blocks.sum f := by
    intro f hf
    rw [Blocks.sum_put, Blocks.sum_of_bytes hbytes, hf]
  refine ⟨_, Blocks.store_eq_some hbytes (by omega) hend, ?_, ?_, ?_, ?_⟩
  · intro b bytes' hbytes'
    rw [Blocks.bytes_put] at hbytes'
    by_cases hb : b = p.block
    · rw [hb, Function.update_self] at hbytes'
      exact Option.some.inj hbytes' ▸ (h.framed _ _ hbytes).splice (by omega) hin
    · rw [Function.update_of_ne hb] at hbytes'
      exact h.framed b bytes' hbytes'
  · rw [hsum List.length hlength]
    exact h.fits
  · rw [Blocks.count_eq_sum, hsum _ rfl, ← Blocks.count_eq_sum]
    exact h.counts
  · rw [hsum _ (by rw [dataSize, dataSize, hlength])]
    exact h.size

/-- A failed `realloc` has taken the old block out of the count. -/
theorem less_ne (memory : DuerMemory abi) (size : abi.Size) : memory.less size ≠ memory := by
  intro h
  have hcounts : memory.allocCounts - 1#_ = memory.allocCounts :=
    congrArg DuerMemory.allocCounts h
  have hone := BitVec.add_right_eq_self.mp (BitVec.sub_eq_iff_eq_add.mp hcounts).symm
  have hword := abi.four_le
  have hwidth := BitVec.one_eq_zero_iff.mp hone
  omega

/-- The data of a block with a new header. -/
theorem data_put (memory : DuerMemory abi) (blocks : Blocks) (b : Nat) (size : abi.Size)
    {raw : List UInt8} (h : abi.hdr ≤ raw.length) :
    Live (⟨memory, blocks.put b (stamp abi raw size)⟩ : Sys abi) ⟨b, abi.hdr⟩ ∧
      (⟨memory, blocks.put b (stamp abi raw size)⟩ : Sys abi).data (some ⟨b, abi.hdr⟩) =
        raw.drop abi.hdr := by
  refine ⟨⟨rfl, by rw [Blocks.bytes_put_self]; rfl⟩, ?_⟩
  rw [Sys.data, Blocks.bytes_put_self, Option.getD_some, stamp_drop size h]

/-- The octets of a block that `f_realloc` has resized. -/
theorem take_drop_resized {old raw : List UInt8} {hdr n : Nat} (h : hdr ≤ old.length) :
    ((old.take (n + hdr) ++ raw).drop hdr).take (min (old.drop hdr).length n) =
      (old.drop hdr).take (min (old.drop hdr).length n) := by
  have hdata : (old.take (n + hdr)).drop hdr = (old.drop hdr).take n := by
    rw [List.drop_take, Nat.add_sub_cancel]
  rw [List.drop_append_of_le_length (by rw [List.length_take]; omega), hdata,
    List.take_append_of_le_length (by rw [List.length_take, Nat.min_comm]), List.take_take,
    Nat.min_assoc, Nat.min_self]

/-- Without a block, `f_realloc` is `f_malloc`. -/
theorem duerRealloc_null (hrealloc : s.memory.fRealloc = true) :
    duerRealloc s none size answer =
      let rs := callMalloc s.blocks answer
      duerMemdbgAcquire ⟨s.memory, rs.2⟩ rs.1 (size + BitVec.ofNat _ abi.hdr) := by
  simp only [duerRealloc, hrealloc, Bool.true_or, if_true, duerMemConvert, Option.map_none,
    duerMemdbgRelease, callRealloc, Option.bind_eq_bind, Option.bind_some, Option.map_some]

/-- **`f_realloc` is called** with the block taken out of the count. -/
theorem Inv.duerRealloc_live (h : Inv s) (hrealloc : s.memory.fRealloc = true) {p : Ptr}
    (hp : Live s p) {old : List UInt8} (hold : s.blocks.bytes p.block = some old)
    (size : abi.Size) (answer : Answer) :
    duerRealloc s (some p) size answer =
      let memory := s.memory.less (BitVec.ofNat _ (dataSize abi old))
      match answer with
      | none => some (none, ⟨memory, s.blocks⟩)
      | some (b, raw) =>
          duerMemdbgAcquire ⟨memory, (s.blocks.erase p.block).put b
            (old.take (size + BitVec.ofNat _ abi.hdr).toNat ++ raw.drop old.length)⟩
            (some ⟨b, 0⟩) (size + BitVec.ofNat _ abi.hdr) := by
  have hless : (s.memory.less (BitVec.ofNat _ (dataSize abi old))).fRealloc = true := hrealloc
  simp only [duerRealloc, hrealloc, Bool.true_or, if_true, hp.convert.1, h.release_eq hold, hless,
    callRealloc, hold, Option.bind_eq_bind, Option.bind_some]
  cases answer <;> rfl

/-- A new block from `f_realloc`. -/
theorem Inv.realloc_granted_null (h : Inv s) (hrealloc : s.memory.fRealloc = true) {b : Nat}
    {raw : List UInt8} (hallowed : Allowed s (.realloc none size (some (b, raw))))
    (hfit : size.toNat + abi.hdr < 2 ^ (8 * abi.word)) :
    ∃ r, duerRealloc s none size (some (b, raw)) = some r ∧ Inv r.2 ∧ Resized s none size r := by
  have hsum := toNat_add_hdr hfit
  simp only [Allowed, hrealloc, if_true] at hallowed
  obtain ⟨hfresh, hraw, hfits⟩ := hallowed
  have hhdr : abi.hdr ≤ raw.length := by omega
  have hinv := h.acquire hfresh hraw (by omega) hfits
  rw [BitVec.add_sub_cancel] at hinv
  obtain ⟨hlive, hdata⟩ := data_put (s.memory.more size) s.blocks b size hhdr
  have hcall : duerRealloc s none size (some (b, raw)) =
      some (some ⟨b, abi.hdr⟩, ⟨s.memory.more size, s.blocks.put b (stamp abi raw size)⟩) := by
    rw [duerRealloc_null hrealloc]
    show duerMemdbgAcquire ⟨s.memory, s.blocks.put b raw⟩ (some ⟨b, 0⟩) _ = _
    rw [duerMemdbgAcquire_put _ _ _ _ hhdr, BitVec.add_sub_cancel]
  refine ⟨_, hcall, hinv, hlive, ?_, ?_⟩
  · rw [hdata, List.length_drop, hraw, hsum, Nat.add_sub_cancel]
  · simp [Sys.data]

/-- A block that `f_realloc` resizes. -/
theorem Inv.realloc_granted_live (h : Inv s) (hrealloc : s.memory.fRealloc = true) {p : Ptr}
    {b : Nat} {raw : List UInt8} (hallowed : Allowed s (.realloc (some p) size (some (b, raw))))
    (hfit : size.toNat + abi.hdr < 2 ^ (8 * abi.word)) :
    ∃ r, duerRealloc s (some p) size (some (b, raw)) = some r ∧ Inv r.2 ∧
      Resized s (some p) size r := by
  have hsum := toNat_add_hdr hfit
  simp only [Allowed, hrealloc, if_true] at hallowed
  obtain ⟨hp, hfresh, hraw, hfits⟩ := hallowed
  obtain ⟨-, old, hold⟩ := hp.convert
  have holdhdr := (h.framed _ _ hold).hdr_le
  have hdataold : s.data (some p) = old.drop abi.hdr := by
    rw [Sys.data, hold, Option.getD_some]
  have hcall := h.duerRealloc_live hrealloc hp hold size (some (b, raw))
  simp only at hcall
  generalize hnew : old.take (size + BitVec.ofNat _ abi.hdr).toNat ++ raw.drop old.length = new
    at hcall
  have hlength : new.length = (size + BitVec.ofNat _ abi.hdr).toNat := by
    rw [← hnew, List.length_append, List.length_take, List.length_drop, hraw]
    omega
  have hhdr : abi.hdr ≤ new.length := by omega
  have hinv := (h.release hold).acquire hfresh hlength (by omega) hfits
  rw [BitVec.add_sub_cancel] at hinv
  obtain ⟨hlive, hdata⟩ :=
    data_put ((s.memory.less (BitVec.ofNat _ (dataSize abi old))).more size)
      (s.blocks.erase p.block) b size hhdr
  rw [duerMemdbgAcquire_put _ _ _ _ hhdr, BitVec.add_sub_cancel] at hcall
  refine ⟨_, hcall, hinv, hlive, ?_, ?_⟩
  · rw [hdata, List.length_drop, hlength, hsum, Nat.add_sub_cancel]
  · rw [hdata, hdataold, ← hnew, hsum]
    exact take_drop_resized holdhdr

/-- **Where `f_realloc` fails**, the old block is still there, and is no longer counted. The call
    has taken it out of the counters before it asked, and does not put it back. -/
theorem Inv.realloc_refused (h : Inv s) (hrealloc : s.memory.fRealloc = true) {p : Ptr}
    (hp : Live s p) :
    ∃ r, duerRealloc s (some p) size none = some r ∧ ¬Resized s (some p) size r := by
  obtain ⟨-, old, hold⟩ := hp.convert
  refine ⟨_, h.duerRealloc_live hrealloc hp hold size none, fun hresized => ?_⟩
  have hsame : (⟨s.memory.less (BitVec.ofNat _ (dataSize abi old)), s.blocks⟩ : Sys abi) = s :=
    hresized
  exact less_ne _ _ (congrArg Sys.memory hsame)

/-- Where the size wraps around, `realloc` fails to write the header. -/
theorem Inv.realloc_eq_none (h : Inv s) (hrealloc : s.memory.fRealloc = true) {ptr : Option Ptr}
    {b : Nat} {raw : List UInt8} (hallowed : Allowed s (.realloc ptr size (some (b, raw))))
    (hfit : ¬size.toNat + abi.hdr < 2 ^ (8 * abi.word)) :
    duerRealloc s ptr size (some (b, raw)) = none := by
  have hless := toNat_add_hdr_lt (Nat.le_of_not_lt hfit)
  cases ptr with
  | none =>
    simp only [Allowed, hrealloc, if_true] at hallowed
    rw [duerRealloc_null hrealloc]
    exact duerMemdbgAcquire_put_eq_none _ _ _ _ (hallowed.2.1 ▸ hless)
  | some p =>
    simp only [Allowed, hrealloc, if_true] at hallowed
    obtain ⟨hp, -, hraw, -⟩ := hallowed
    obtain ⟨-, old, hold⟩ := hp.convert
    rw [h.duerRealloc_live hrealloc hp hold]
    refine duerMemdbgAcquire_put_eq_none _ _ _ _ ?_
    rw [List.length_append, List.length_take, List.length_drop, hraw]
    omega

/-- The header of the header: `duer_free` looks for one in front of the block. -/
theorem duerFree_eq_none (hfree : s.memory.fFree = true) {p : Ptr} (hp : p.offset < abi.hdr) :
    duerFree s (some p) = none := by
  have hneg : (p.add (-abi.hdr)).offset < 0 := by
    rw [Ptr.add_offset]
    omega
  simp only [duerFree, hfree, if_true, duerMemConvert, Option.map_some,
    duerMemdbgRelease_eq_none hneg, Option.bind_eq_bind, Option.bind_none]

/-- What was acquired is not `NULL`, and the functions that are set stay. -/
theorem duerMemdbgAcquire_cases {ptr : Option Ptr} {r : Option Ptr × Sys abi}
    (h : duerMemdbgAcquire s ptr size = some r) :
    r.1.isSome = ptr.isSome ∧ r.2.memory.fFree = s.memory.fFree := by
  cases ptr with
  | none =>
    obtain rfl := Option.some.inj h
    exact ⟨rfl, rfl⟩
  | some p =>
    obtain ⟨_, -, h⟩ := Option.bind_eq_some_iff.mp h
    obtain ⟨_, -, h⟩ := Option.bind_eq_some_iff.mp h
    obtain rfl := Option.some.inj h
    exact ⟨rfl, rfl⟩

theorem duerMalloc_cases (hmalloc : s.memory.fMalloc = true) {r : Option Ptr × Sys abi}
    (h : duerMalloc s size answer = some r) :
    r.1.isSome = answer.isSome ∧ r.2.memory.fFree = s.memory.fFree := by
  rw [duerMalloc, if_pos hmalloc] at h
  cases answer with
  | none => exact duerMemdbgAcquire_cases h
  | some answer => exact duerMemdbgAcquire_cases h

theorem duerMemcpy_memory {s' : Sys abi} {dst : Ptr} {src : Option Ptr}
    (h : duerMemcpy s dst src size = some s') : s'.memory = s.memory := by
  obtain ⟨_, -, h⟩ := Option.bind_eq_some_iff.mp h
  obtain ⟨_, -, h⟩ := Option.bind_eq_some_iff.mp h
  obtain ⟨_, -, h⟩ := Option.bind_eq_some_iff.mp h
  obtain rfl := Option.some.inj h
  rfl

theorem copyOld_memory {s' : Sys abi} {rs ptr : Option Ptr}
    (h : copyOld s rs ptr size = some s') : s'.memory = s.memory := by
  cases rs with
  | none => exact congrArg Sys.memory (Option.some.inj h).symm
  | some rs => exact duerMemcpy_memory h

/-- The pointer to the header is given to `duer_free`, which looks in front of it. -/
theorem reallocByMalloc_eq_none_of_lt (hmalloc : s.memory.fMalloc = true)
    (hfree : s.memory.fFree = true) {p : Ptr} (hp : p.offset < abi.hdr) :
    reallocByMalloc s (some p) size answer = none := by
  refine Option.bind_eq_none_iff.mpr fun r hr => ?_
  have hset := (duerMalloc_cases hmalloc hr).2.trans hfree
  refine Option.bind_eq_none_iff.mpr fun s' hs' => ?_
  have hfree' : s'.memory.fFree = true := by
    rw [copyOld_memory hs']
    exact hset
  rw [duerFree_eq_none hfree' hp, Option.bind_eq_bind, Option.bind_none]

/-- A new block is filled from `NULL`. -/
theorem reallocByMalloc_eq_none_of_some (hmalloc : s.memory.fMalloc = true)
    (h : answer.isSome = true) : reallocByMalloc s none size answer = none := by
  refine Option.bind_eq_none_iff.mpr fun r hr => ?_
  obtain ⟨dst, hdst⟩ := Option.isSome_iff_exists.mp ((duerMalloc_cases hmalloc hr).1.trans h)
  rw [hdst]
  rfl

/-- **Without `f_realloc`**, a call that is given a block, or gets one, does not stay inside the
    blocks. -/
theorem Inv.realloc_emulated (h : Inv s) (hrealloc : s.memory.fRealloc = false)
    (hmalloc : s.memory.fMalloc = true) (hfree : s.memory.fFree = true) {ptr : Option Ptr}
    (hptr : ∀ p, ptr = some p → Live s p) (hnot : ¬(ptr = none ∧ answer = none)) :
    duerRealloc s ptr size answer = none := by
  cases ptr with
  | none =>
    have hsome : answer.isSome = true := by
      rw [Option.isSome_iff_ne_none]
      exact fun hnone => hnot ⟨rfl, hnone⟩
    simp only [duerRealloc, hrealloc, hmalloc, hfree, Bool.and_self, Bool.or_true, if_true,
      duerMemConvert, Option.map_none, duerMemdbgRelease, Option.bind_eq_bind, Option.bind_some,
      Bool.false_eq_true, if_false, reallocByMalloc_eq_none_of_some hmalloc hsome, Option.bind_none]
  | some p =>
    have hp := hptr p rfl
    obtain ⟨hconvert, old, hold⟩ := hp.convert
    have hpos := abi.hdr_pos
    have hnone : ∀ memory : DuerMemory abi, memory.fMalloc = true → memory.fFree = true →
        reallocByMalloc ⟨memory, s.blocks⟩ (some ⟨p.block, 0⟩) (size + BitVec.ofNat _ abi.hdr)
          answer = none :=
      fun memory hm hf => reallocByMalloc_eq_none_of_lt hm hf (show (0 : Int) < abi.hdr by omega)
    simp only [duerRealloc, hrealloc, hmalloc, hfree, Bool.and_self, Bool.or_true, if_true,
      hconvert, h.release_eq hold, DuerMemory.less, Option.bind_eq_bind, Option.bind_some,
      Bool.false_eq_true, if_false]
    exact congrArg (Option.bind · _) (hnone _ rfl rfl)

end Calls

/-- Without functions for it, or a block, `realloc` does nothing. -/
theorem duerRealloc_nothing {s : Sys abi} {ptr : Option Ptr} {size : abi.Size} {answer : Answer}
    (hrealloc : s.memory.fRealloc = false)
    (h : s.memory.fMalloc = true → s.memory.fFree = true → ptr = none ∧ answer = none) :
    duerRealloc s ptr size answer = some (none, s) := by
  by_cases hset : (s.memory.fMalloc && s.memory.fFree) = true
  · obtain ⟨hmalloc, hfree⟩ := Bool.and_eq_true_iff.mp hset
    obtain ⟨rfl, rfl⟩ := h hmalloc hfree
    have hnone : duerMalloc s (size + BitVec.ofNat _ abi.hdr) none = some (none, s) :=
      duerMalloc_none rfl
    simp only [duerRealloc, hrealloc, hmalloc, Bool.and_self, Bool.or_true, if_true,
      duerMemConvert, Option.map_none, duerMemdbgRelease, Bool.false_eq_true, if_false,
      reallocByMalloc, hnone, copyOld, duerFree, hfree, callFree, duerMemdbgAcquire,
      Option.bind_eq_bind, Option.bind_some]
  · simp only [duerRealloc, hrealloc, Bool.eq_false_iff.mpr hset, Bool.or_self, Bool.false_eq_true,
      if_false]

/-- **A guarded call** is faithful, and the invariant goes on. The calls are handled one by one;
    what they share is the block with its header, which is asked for, filled in and counted in the
    same way each time. -/
theorem Inv.call {s : Sys abi} (h : Inv s) {m : Move abi} (hallowed : Allowed s m)
    (hguard : Guarded s m) :
    ∃ r, call s m = some r ∧ Inv r.2 ∧ Promised s m r := by
  cases m with
  | malloc size answer =>
    obtain ⟨r, hr, hinv⟩ := h.malloc hallowed hguard
    exact ⟨r, hr, hinv, trivial⟩
  | realloc ptr size answer =>
    cases hrealloc : s.memory.fRealloc with
    | false =>
      simp only [Guarded, hrealloc, Bool.false_eq_true, if_false] at hguard
      exact ⟨(none, s), duerRealloc_nothing hrealloc hguard, h, rfl⟩
    | true =>
      simp only [Guarded, hrealloc, if_true] at hguard
      rcases hguard with ⟨rfl, rfl⟩ | ⟨hsome, hfit⟩
      · exact ⟨(none, s), duerRealloc_null hrealloc, h, rfl⟩
      · obtain ⟨⟨b, raw⟩, rfl⟩ := Option.ne_none_iff_exists'.mp hsome
        cases ptr with
        | none => exact h.realloc_granted_null hrealloc hallowed hfit
        | some p => exact h.realloc_granted_live hrealloc hallowed hfit
  | free ptr =>
    obtain ⟨s', hs', hinv⟩ := h.free hallowed
    exact ⟨(none, s'), by rw [Memory.call, hs', Option.map_some], hinv, trivial⟩
  | write p v =>
    obtain ⟨blocks, hblocks, hinv⟩ := h.write hallowed
    exact ⟨(none, { s with blocks }), by rw [Memory.call, hblocks, Option.map_some], hinv, trivial⟩

/-- **A call that is not guarded** is not faithful: it leaves the blocks, or it fails and has taken
    the old block out of the count. -/
theorem Inv.not_faithful {s : Sys abi} (h : Inv s) {m : Move abi} (hallowed : Allowed s m)
    (hguard : ¬Guarded s m) : ¬Faithful s m := by
  rintro ⟨r, hr, -, hresized⟩
  cases m with
  | malloc size answer =>
    simp only [Guarded, not_forall, not_or] at hguard
    obtain ⟨hmalloc, hsome, hfit⟩ := hguard
    obtain ⟨⟨b, raw⟩, rfl⟩ := Option.ne_none_iff_exists'.mp hsome
    have hnone : duerMalloc s size (some (b, raw)) = none :=
      duerMalloc_eq_none hmalloc hallowed.2.1 hfit
    exact absurd (hr.symm.trans hnone) (by simp)
  | realloc ptr size answer =>
    have hptr : ∀ p, ptr = some p → Live s p := by
      rintro p rfl
      exact hallowed.1
    cases hrealloc : s.memory.fRealloc with
    | false =>
      simp only [Guarded, hrealloc, Bool.false_eq_true, if_false, not_forall] at hguard
      obtain ⟨hmalloc, hfree, hnot⟩ := hguard
      have hnone : duerRealloc s ptr size answer = none :=
        h.realloc_emulated hrealloc hmalloc hfree hptr hnot
      exact absurd (hr.symm.trans hnone) (by simp)
    | true =>
      simp only [Guarded, hrealloc, if_true] at hguard
      cases answer with
      | none =>
        cases ptr with
        | none => exact hguard (.inl ⟨rfl, rfl⟩)
        | some p =>
          obtain ⟨r', hr', hnot⟩ := h.realloc_refused hrealloc (hptr p rfl)
          obtain rfl := Option.some.inj (hr'.symm.trans hr)
          exact hnot hresized
      | some answer =>
        obtain ⟨b, raw⟩ := answer
        have hnone := h.realloc_eq_none hrealloc hallowed fun hfit => hguard (.inr ⟨by simp, hfit⟩)
        exact absurd (hr.symm.trans hnone) (by simp)
  | free ptr => exact hguard trivial
  | write p v => exact hguard trivial

theorem Inv.step {s s' : Sys abi} (h : Inv s) {m : Move abi} (hallowed : Allowed s m)
    (hguard : Guarded s m) (hstep : step s m = some s') : Inv s' := by
  obtain ⟨r, hr, hinv, -⟩ := h.call hallowed hguard
  rw [Memory.step, hr] at hstep
  exact Option.some.inj hstep ▸ hinv

/-- **A call is faithful exactly where it is guarded.** The guard is a condition on the call and on
    the state before it, with no look at what the call does. -/
theorem Inv.faithful_iff {s : Sys abi} (h : Inv s) {m : Move abi} (hallowed : Allowed s m) :
    Faithful s m ↔ Guarded s m := by
  refine ⟨fun hfaithful => Classical.byContradiction fun hguard =>
    h.not_faithful hallowed hguard hfaithful, fun hguard => ?_⟩
  obtain ⟨r, hr, hinv, hresized⟩ := h.call hallowed hguard
  exact ⟨r, hr, hinv.counted, hresized⟩

/-- **Memory accounting and `realloc`** are as promised in a run exactly where each of its calls is
    guarded. The word size and the byte order of the machine are parameters, and so is which of the
    three functions the application has registered. -/
theorem faithful_iff_guarded (abi : Abi) (fMalloc fRealloc fFree : Bool) (ms : List (Move abi))
    (hallowed : admits step Allowed (Sys.init abi fMalloc fRealloc fFree) ms) :
    admits step Faithful (Sys.init abi fMalloc fRealloc fFree) ms ↔
      admits step Guarded (Sys.init abi fMalloc fRealloc fFree) ms :=
  admits_iff_of_invariant Inv (fun h hm => h.faithful_iff hm)
    (fun h hm hguard hstep => h.step hm hguard hstep) (Inv.init abi fMalloc fRealloc fFree) hallowed

/-- A machine with 32-bit addresses. -/
def abi32 : Abi := ⟨4, Nat.le_refl 4, false⟩

/-- Three octets, written and resized to five; then a block that is refused, and the end. -/
def sample : List (Move abi32) :=
  [.malloc 3 (some (1, List.replicate 11 0)), .write ⟨1, 9⟩ [7, 8],
    .realloc (some ⟨1, 8⟩) 5 (some (2, List.replicate 13 0)), .malloc 6 none, .free (some ⟨2, 8⟩)]

theorem faithful_sample : admits step Faithful (Sys.init abi32 true true true) sample :=
  (faithful_iff_guarded abi32 true true true sample
    ⟨⟨rfl, rfl, by decide⟩, ⟨_, rfl, by decide, by decide⟩, ⟨⟨rfl, rfl⟩, rfl, rfl, by decide⟩,
      trivial, ⟨rfl, rfl⟩, trivial⟩).mpr
    ⟨fun _ => .inr (by decide), trivial, .inr ⟨by decide, by decide⟩, fun _ => .inl rfl, trivial,
      trivial⟩

/-- A block of three octets that cannot be made larger. -/
def lost : List (Move abi32) :=
  [.malloc 3 (some (1, List.replicate 11 0)), .realloc (some ⟨1, 8⟩) 5 none]

/-- It is still there, and is no longer counted. -/
theorem not_counted_lost :
    admits step Allowed (Sys.init abi32 true true true) lost ∧
      ∃ s, runFrom step (Sys.init abi32 true true true) lost = some s ∧ ¬Counted s ∧
        s.blocks.count = 1 ∧ s.memory.allocCounts.toNat = 0 ∧
        s.blocks.sum (dataSize abi32) = 3 ∧ s.memory.allocSize.toNat = 0 :=
  ⟨⟨⟨rfl, rfl, by decide⟩, ⟨⟨rfl, rfl⟩, trivial⟩, trivial⟩, _, rfl,
    fun hcounted => absurd hcounted.1 (by decide), rfl, by decide, rfl, by decide⟩

end Memory
end Framework
end LightDuer
