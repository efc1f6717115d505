import LightDuer.Lib.Chain
import LightDuer.Lib.Loop
import LightDuer.Lib.Transition
import Mathlib.Data.List.Perm.Subperm
import Mathlib.Data.List.Range

/-!
# The queue cache

`lightduer_queue_cache.c`: a chain of nodes with a head, a tail and a length, each node from
`DUER_MALLOC`. A handle is `none` where it is `NULL`, and so is a `void *`. A function has no result
where it would follow a pointer to a node that is not allocated. A `size_t` has `bits` bits, and so
has an address.

## Two levels

`listCall` says what the queue is for: a list that is appended to at the end and removed from at the
front, with the results that the functions return for it. It is generic in what is queued, and a
`NULL` that was pushed is an entry like any other, which a caller of `duer_qcache_pop` cannot tell
from an empty queue. `fifo` is the refinement: every run of calls returns what it means for a list.

The two are connected by `Sys.Holds`: the queue is the chain of the nodes at some distinct
addresses, their contents are the list, the tail is the last of them and `_length` their number.
Each function has a lemma that keeps it, and `Sys.Holds.call` puts the four together for the
induction.

## The length

`_length` is a `size_t` and is counted up without a check. It cannot wrap, and this needs no
hypothesis: the nodes are at distinct addresses that are not zero, so there are fewer of them than a
`size_t` has values (`length_lt_of_addresses`). The only thing asked of the allocator is that an
address it gives is free.
-/

set_option autoImplicit false

namespace LightDuer
namespace Framework

open Lib

def duerOk : Int := 0
/-- `DUER_ERR_INVALID_PARAMETER` -/
def duerErrInvalidParameter : Int := -0x0010
/-- `DUER_ERR_MEMORY_OVERLOW` -/
def duerErrMemoryOverlow : Int := -0x0011

/-- `duer_qcnode_t` -/
structure DuerQcnode (α : Type) where
  data : Option α
  next : Option Nat
deriving DecidableEq, Repr

/-- `duer_qcache_t` -/
structure DuerQcache where
  head : Option Nat
  tail : Option Nat
  length : Nat
deriving DecidableEq, Repr

namespace Qcache

/-- The nodes that are allocated, of this queue and of others, and the queue. -/
structure Sys (α : Type) where
  heap : Heap (DuerQcnode α)
  cache : Option DuerQcache

variable {α : Type}

/-- `duer_qcache_create` -/
def duerQcacheCreate (heap : Heap (DuerQcnode α)) (malloc : Bool) : Sys α :=
  ⟨heap, if malloc then some ⟨none, none, 0⟩ else none⟩

/-- `duer_qcache_node_create` -/
def duerQcacheNodeCreate (heap : Heap (DuerQcnode α)) (data : Option α) (malloc : Option Nat) :
    Option Nat × Heap (DuerQcnode α) :=
  match malloc with
  | none => (none, heap)
  | some node => (some node, Function.update heap node (some ⟨data, none⟩))

/-- `duer_qcache_push` -/
def duerQcachePush (bits : Nat) (s : Sys α) (data : Option α) (malloc : Option Nat) :
    Option (Int × Sys α) :=
  match s.cache with
  | none => some (duerErrInvalidParameter, s)
  | some p =>
    match duerQcacheNodeCreate s.heap data malloc with
    | (none, heap) => some (duerErrMemoryOverlow, ⟨heap, some p⟩)
    | (some q, heap) =>
      let length := (p.length + 1) % 2 ^ bits
      match p.tail with
      | some tail => do
          let node ← heap tail
          some (duerOk, ⟨Function.update heap tail (some { node with next := some q }),
            some { p with tail := some q, length }⟩)
      | none => some (duerOk, ⟨heap, some ⟨some q, some q, length⟩⟩)

/-- `duer_qcache_length` -/
def duerQcacheLength (s : Sys α) : Nat :=
  match s.cache with
  | none => 0
  | some p => p.length

/-- `duer_qcache_top` -/
def duerQcacheTop (s : Sys α) : Option (Option α) :=
  match s.cache with
  | none => some none
  | some p =>
    match p.head with
    | none => some none
    | some q => (s.heap q).map DuerQcnode.data

/-- `duer_qcache_pop` -/
def duerQcachePop (bits : Nat) (s : Sys α) : Option (Option α × Sys α) :=
  match s.cache with
  | none => some (none, s)
  | some p =>
    match p.head with
    | none => some (none, s)
    | some q => do
        let node ← s.heap q
        let length := (p.length + 2 ^ bits - 1) % 2 ^ bits
        some (node.data, ⟨Function.update s.heap q none,
          some ⟨node.next, if length = 0 then none else p.tail, length⟩⟩)

/-- The loop of `duer_qcache_destroy`. -/
def destroyLoop : Nat → Heap (DuerQcnode α) → Option Nat → Option (Heap (DuerQcnode α))
  | 0, _, _ => none
  | _ + 1, heap, none => some heap
  | fuel + 1, heap, some r => do
      let node ← heap r
      destroyLoop fuel (Function.update heap r none) node.next

/-- `duer_qcache_destroy`: the nodes that are left. -/
def duerQcacheDestroy (fuel : Nat) (s : Sys α) : Option (Heap (DuerQcnode α)) :=
  destroyLoop fuel s.heap (s.cache.bind DuerQcache.head)

/-! ## Calls -/

inductive Op (α : Type) where
  /-- `malloc` is the answer to the call of `DUER_MALLOC`, if there is one. -/
  | push (data : Option α) (malloc : Option Nat)
  | top
  | pop
  | length
deriving DecidableEq, Repr

inductive Result (α : Type) where
  | status (rs : Int)
  | data (p : Option α)
  | length (n : Nat)
deriving DecidableEq, Repr

def call (bits : Nat) (s : Sys α) : Op α → Option (Result α × Sys α)
  | .push data malloc => (duerQcachePush bits s data malloc).map fun r => (.status r.1, r.2)
  | .top => (duerQcacheTop s).map fun data => (.data data, s)
  | .pop => (duerQcachePop bits s).map fun r => (.data r.1, r.2)
  | .length => some (.length (duerQcacheLength s), s)

/-- A call, with what the calls before it have returned. -/
def step (bits : Nat) (t : Sys α × List (Result α)) (op : Op α) :
    Option (Sys α × List (Result α)) :=
  (call bits t.1 op).map fun r => (r.2, t.2 ++ [r.1])

/-- `DUER_MALLOC` gives an address at which nothing is allocated. -/
def Fresh (bits : Nat) (t : Sys α × List (Result α)) : Op α → Prop
  | .push _ (some a) => 0 < a ∧ a < 2 ^ bits ∧ t.1.heap a = none
  | _ => True

/-! ## The list -/

/-- **What the calls mean**: a list that is appended to at the end and removed from at the front. It
    is the whole specification, on lists of any type; pointers, nodes and the width of the length
    have no part in it. A `NULL` can be an entry. -/
def listCall (l : List (Option α)) : Op α → Result α × List (Option α)
  | .push _ none => (.status duerErrMemoryOverlow, l)
  | .push data (some _) => (.status duerOk, l ++ [data])
  | .top => (.data l.head?.join, l)
  | .pop => (.data l.head?.join, l.tail)
  | .length => (.length l.length, l)

def listRun : List (Option α) → List (Op α) → List (Result α) × List (Option α)
  | l, [] => ([], l)
  | l, op :: ops =>
      let r := listCall l op
      let rest := listRun r.2 ops
      (r.1 :: rest.1, rest.2)

/-- The queue `p` is the chain of the nodes at `as`, and they hold `l`. -/
structure Sys.Holds (bits : Nat) (s : Sys α) (p : DuerQcache) (as : List Nat)
    (l : List (Option α)) : Prop where
  cache : s.cache = some p
  chain : Chain DuerQcnode.next s.heap p.head as
  length : as.length = p.length
  tail : p.tail = as.getLast?
  contents : as.map (fun a => (s.heap a).map DuerQcnode.data) = l.map some
  nodup : as.Nodup
  addresses : ∀ a ∈ as, 0 < a ∧ a < 2 ^ bits

section Holds

variable {bits : Nat} {s : Sys α} {p : DuerQcache} {as : List Nat} {l : List (Option α)}

theorem Sys.Holds.of_created (heap : Heap (DuerQcnode α)) :
    (duerQcacheCreate heap true).Holds bits ⟨none, none, 0⟩ [] [] :=
  ⟨rfl, rfl, rfl, rfl, rfl, List.nodup_nil, fun a ha => absurd ha (by simp)⟩

theorem Sys.Holds.length_eq (h : s.Holds bits p as l) : p.length = l.length := by
  have hmap := congrArg List.length h.contents
  rw [List.length_map, List.length_map] at hmap
  exact h.length.symm.trans hmap

/-- **The head is `NULL`** exactly when the queue is empty. The source asks the one or the other, as
    it finds convenient, so the two must not come apart. -/
theorem Sys.Holds.head_eq_none (h : s.Holds bits p as l) : p.head = none ↔ p.length = 0 := by
  rw [← h.length, List.length_eq_zero_iff]
  constructor
  · intro hhead
    have hchain := h.chain
    rw [hhead] at hchain
    exact hchain.eq_nil
  · intro hnil
    have hchain := h.chain
    rw [hnil] at hchain
    exact hchain

/-- A `size_t` counts as many nodes as there are addresses. -/
theorem length_lt_of_addresses (hnodup : as.Nodup) (haddr : ∀ a ∈ as, 0 < a ∧ a < 2 ^ bits) :
    as.length < 2 ^ bits := by
  have hzero : 0 ∉ as := fun hmem => absurd (haddr 0 hmem).1 (Nat.lt_irrefl 0)
  have hsub : 0 :: as ⊆ List.range (2 ^ bits) := by
    intro a ha
    rw [List.mem_range]
    rcases List.mem_cons.mp ha with rfl | ha
    · exact Nat.two_pow_pos bits
    · exact (haddr a ha).2
  have hle := (List.subperm_of_subset (List.nodup_cons.mpr ⟨hzero, hnodup⟩) hsub).length_le
  rw [List.length_cons, List.length_range] at hle
  exact hle

/-- One node less than what a `size_t` counts. -/
theorem length_of_pop {q : Nat} (hbound : as.length < 2 ^ bits) :
    as.length = ((q :: as).length + 2 ^ bits - 1) % 2 ^ bits := by
  have hcount : (q :: as).length + 2 ^ bits - 1 = as.length + 2 ^ bits := by
    rw [List.length_cons]
    omega
  rw [hcount, Nat.add_mod_right, Nat.mod_eq_of_lt hbound]

/-- A failed push changes nothing. -/
theorem Sys.Holds.push_failed (h : s.Holds bits p as l) (data : Option α) :
    call bits s (.push data none) = some (.status duerErrMemoryOverlow, s) := by
  obtain ⟨heap, cache⟩ := s
  obtain rfl : cache = some p := h.cache
  rfl

/-- Writes to other nodes leave the queue alone. -/
theorem Sys.Holds.of_heap (h : s.Holds bits p as l) {heap : Heap (DuerQcnode α)}
    (heq : ∀ a ∈ as, heap a = s.heap a) : (⟨heap, s.cache⟩ : Sys α).Holds bits p as l where
  cache := h.cache
  chain := h.chain.congr heq
  length := h.length
  tail := h.tail
  contents := (List.map_congr_left fun a ha => congrArg _ (heq a ha)).trans h.contents
  nodup := h.nodup
  addresses := h.addresses

/-- A node where nothing is allocated is another one, and is counted with the others. -/
theorem Sys.Holds.room (h : s.Holds bits p as l) {a : Nat} (hpos : 0 < a) (hlt : a < 2 ^ bits)
    (hfree : s.heap a = none) :
    a ∉ as ∧ (as ++ [a]).Nodup ∧ (∀ b ∈ as ++ [a], 0 < b ∧ b < 2 ^ bits) ∧
      (as ++ [a]).length = (p.length + 1) % 2 ^ bits := by
  have hnot : a ∉ as := by
    intro hmem
    obtain ⟨n, hn⟩ := h.chain.live a hmem
    exact absurd (hfree.symm.trans hn) (by simp)
  have hnodup : (as ++ [a]).Nodup := by
    rw [List.nodup_append]
    refine ⟨h.nodup, by simp, fun b hb c hc => ?_⟩
    rw [List.mem_singleton.mp hc]
    exact fun heq => hnot (heq ▸ hb)
  have haddr : ∀ b ∈ as ++ [a], 0 < b ∧ b < 2 ^ bits := by
    intro b hb
    rcases List.mem_append.mp hb with hb | hb
    · exact h.addresses b hb
    · rw [List.mem_singleton.mp hb]
      exact ⟨hpos, hlt⟩
  have hbound := length_lt_of_addresses hnodup haddr
  refine ⟨hnot, hnodup, haddr, ?_⟩
  rw [List.length_append, List.length_singleton, h.length] at hbound ⊢
  exact (Nat.mod_eq_of_lt hbound).symm

/-- What a new node at the end adds. -/
theorem Sys.Holds.contents_concat (h : s.Holds bits p as l) {a : Nat} {data : Option α}
    (hnew : (s.heap a).map DuerQcnode.data = some data) :
    (as ++ [a]).map (fun b => (s.heap b).map DuerQcnode.data) = (l ++ [data]).map some := by
  rw [List.map_append, List.map_append, h.contents, List.map_singleton, List.map_singleton, hnew]

theorem Sys.Holds.push (h : s.Holds bits p as l) {a : Nat} (hpos : 0 < a) (hlt : a < 2 ^ bits)
    (hfree : s.heap a = none) (data : Option α) :
    ∃ s' p', call bits s (.push data (some a)) = some (.status duerOk, s') ∧
      s'.Holds bits p' (as ++ [a]) (l ++ [data]) := by
  obtain ⟨hnot, hnodup, haddr, hlength⟩ := h.room hpos hlt hfree
  obtain ⟨heap, cache⟩ := s
  obtain rfl : cache = some p := h.cache
  have hnew : Function.update heap a (some (⟨data, none⟩ : DuerQcnode α)) a = some ⟨data, none⟩ :=
    Function.update_self ..
  have hkept := h.of_heap fun b hb =>
    Function.update_of_ne (fun heq : b = a => hnot (heq ▸ hb)) (some ⟨data, none⟩) heap
  generalize hheap : Function.update heap a (some (⟨data, none⟩ : DuerQcnode α)) = heap' at *
  have hdata : (heap' a).map DuerQcnode.data = some data := by rw [hnew]; rfl
  have hcontents := hkept.contents_concat hdata
  rcases List.eq_nil_or_concat' as with rfl | ⟨front, t, rfl⟩
  · -- the first node is both ends
    have htail : p.tail = none := h.tail
    refine ⟨⟨heap', some ⟨some a, some a, (p.length + 1) % 2 ^ bits⟩⟩,
      ⟨some a, some a, (p.length + 1) % 2 ^ bits⟩, ?_, rfl, ⟨rfl, _, hnew, rfl⟩, hlength,
      rfl, hcontents, hnodup, haddr⟩
    simp only [call, duerQcachePush, duerQcacheNodeCreate, htail, hheap]
    rfl
  · -- the node hangs behind the tail
    have htail : p.tail = some t := by rw [h.tail, List.getLast?_concat]
    obtain ⟨n, hn⟩ := hkept.chain.live t (by simp)
    have hn : heap' t = some n := hn
    refine ⟨⟨Function.update heap' t (some { n with next := some a }),
      some { p with tail := some a, length := (p.length + 1) % 2 ^ bits }⟩,
      { p with tail := some a, length := (p.length + 1) % 2 ^ bits }, ?_, rfl,
      hkept.chain.extend h.nodup rfl hnew rfl hnot, hlength, ?_, ?_, hnodup, haddr⟩
    · simp only [call, duerQcachePush, duerQcacheNodeCreate, htail, hheap, hn]
      rfl
    · rw [List.getLast?_append]
      rfl
    · refine (List.map_congr_left fun b _ => ?_).trans hcontents
      show (Function.update heap' t _ b).map _ = (heap' b).map _
      by_cases heq : b = t
      · rw [heq, Function.update_self, hn]
        rfl
      · rw [Function.update_of_ne heq]

theorem Sys.Holds.top (h : s.Holds bits p as l) :
    call bits s .top = some (.data l.head?.join, s) := by
  obtain ⟨heap, cache⟩ := s
  obtain rfl : cache = some p := h.cache
  rcases hhead : p.head with _ | q
  · have hempty : l = [] := by
      rw [← List.length_eq_zero_iff, ← h.length_eq]
      exact h.head_eq_none.mp hhead
    simp only [call, duerQcacheTop, hhead, hempty]
    rfl
  · have hchain := h.chain
    rw [hhead] at hchain
    obtain ⟨n, rest, rfl, hn, -⟩ := hchain.exists_cons
    have hn : heap q = some n := hn
    have hcontents := h.contents
    rcases l with _ | ⟨data, l⟩
    · exact absurd hcontents (by simp)
    · have hdata : (heap q).map DuerQcnode.data = some data := (List.cons.inj hcontents).1
      simp only [call, duerQcacheTop, hhead, hdata]
      rfl

theorem Sys.Holds.pop (h : s.Holds bits p as l) :
    ∃ s' p', call bits s .pop = some (.data l.head?.join, s') ∧
      s'.Holds bits p' as.tail l.tail := by
  obtain ⟨heap, cache⟩ := s
  obtain rfl : cache = some p := h.cache
  rcases hhead : p.head with _ | q
  · have hlength := h.head_eq_none.mp hhead
    have hempty : l = [] := by rw [← List.length_eq_zero_iff, ← h.length_eq, hlength]
    have hnil : as = [] := by rw [← List.length_eq_zero_iff, h.length, hlength]
    subst hempty hnil
    refine ⟨_, p, ?_, h⟩
    simp only [call, duerQcachePop, hhead]
    rfl
  · have hchain := h.chain
    rw [hhead] at hchain
    obtain ⟨n, rest, rfl, hn, hrest⟩ := hchain.exists_cons
    have hn : heap q = some n := hn
    obtain ⟨hnot, hnodup⟩ := List.nodup_cons.mp h.nodup
    have hold : ∀ b ∈ rest, Function.update heap q none b = heap b := by
      intro b hb
      exact Function.update_of_ne (fun heq : b = q => hnot (heq ▸ hb)) ..
    have haddr : ∀ b ∈ rest, 0 < b ∧ b < 2 ^ bits := fun b hb =>
      h.addresses b (List.mem_cons_of_mem q hb)
    have hlength : rest.length = (p.length + 2 ^ bits - 1) % 2 ^ bits := by
      rw [← h.length]
      exact length_of_pop (length_lt_of_addresses hnodup haddr)
    have hcontents := h.contents
    rcases l with _ | ⟨data, l⟩
    · exact absurd hcontents (by simp)
    obtain ⟨hfirst, hcontents⟩ := List.cons.inj hcontents
    have hfirst : (heap q).map DuerQcnode.data = some data := hfirst
    rw [hn] at hfirst
    have hdata : n.data = data := Option.some.inj hfirst
    refine ⟨⟨Function.update heap q none, some ⟨n.next, if rest.length = 0 then none else p.tail,
      rest.length⟩⟩, ⟨n.next, if rest.length = 0 then none else p.tail, rest.length⟩, ?_, rfl,
      hrest.congr hold, rfl, ?_, ?_, hnodup, haddr⟩
    · simp only [call, duerQcachePop, hhead, hn, Option.bind_eq_bind, Option.bind_some, ← hlength,
        hdata]
      rfl
    · show (if rest.length = 0 then none else p.tail) = rest.getLast?
      rw [h.tail]
      cases rest with
      | nil => rfl
      | cons b rest => exact if_neg (Nat.succ_ne_zero _)
    · refine (List.map_congr_left fun b hb => ?_).trans hcontents
      exact congrArg _ (hold b hb)

/-- **One call** does what it means for the list, and leaves a queue that holds the list behind it.
    Nodes are allocated at any address that is free, also at one that was used before. -/
theorem Sys.Holds.call (h : s.Holds bits p as l) {rs : List (Result α)} {op : Op α}
    (hfresh : Fresh bits (s, rs) op) :
    ∃ s' p' as', call bits s op = some ((listCall l op).1, s') ∧
      s'.Holds bits p' as' (listCall l op).2 := by
  cases op with
  | push data malloc =>
    cases malloc with
    | none => exact ⟨s, p, as, h.push_failed data, h⟩
    | some a =>
      obtain ⟨hpos, hlt, hfree⟩ := hfresh
      obtain ⟨s', p', hcall, hholds⟩ := h.push hpos hlt hfree data
      exact ⟨s', p', _, hcall, hholds⟩
  | top => exact ⟨s, p, as, h.top, h⟩
  | pop =>
    obtain ⟨s', p', hcall, hholds⟩ := h.pop
    exact ⟨s', p', _, hcall, hholds⟩
  | length =>
    refine ⟨s, p, as, ?_, h⟩
    simp only [Qcache.call, duerQcacheLength, h.cache, h.length_eq]
    rfl

theorem Sys.Holds.run {ops : List (Op α)} : ∀ {s : Sys α} {rs : List (Result α)} {p : DuerQcache}
    {as : List Nat} {l : List (Option α)}, s.Holds bits p as l →
    admits (step bits) (Fresh bits) (s, rs) ops →
      ∃ s' p' as', runFrom (step bits) (s, rs) ops = some (s', rs ++ (listRun l ops).1) ∧
        s'.Holds bits p' as' (listRun l ops).2 := by
  induction ops with
  | nil =>
    intro s rs p as l h _
    exact ⟨s, p, as, by simp [runFrom, listRun], h⟩
  | cons op ops ih =>
    intro s rs p as l h hadmits
    obtain ⟨hfresh, hrest⟩ := hadmits
    obtain ⟨s₁, p₁, as₁, hcall, h₁⟩ := h.call hfresh
    have hstep : step bits (s, rs) op = some (s₁, rs ++ [(listCall l op).1]) := by
      rw [step, hcall]
      rfl
    rw [hstep] at hrest
    obtain ⟨s', p', as', hrun, h'⟩ := ih h₁ hrest
    refine ⟨s', p', as', ?_, h'⟩
    rw [runFrom, hstep]
    exact hrun.trans (by simp [listRun])

end Holds

/-- **The queue is a FIFO**: every run of calls returns what it means for a list, and leaves a chain
    of as many nodes as `_length` says, which hold the list and the last of which is `_tail`. -/
theorem fifo (bits : Nat) (heap : Heap (DuerQcnode α)) (ops : List (Op α))
    (hfresh : admits (step bits) (Fresh bits) (duerQcacheCreate heap true, []) ops) :
    ∃ s p as, runFrom (step bits) (duerQcacheCreate heap true, []) ops =
        some (s, (listRun [] ops).1) ∧
      s.cache = some p ∧ Chain DuerQcnode.next s.heap p.head as ∧ as.length = p.length ∧
      p.tail = as.getLast? ∧ (p.head = none ↔ p.length = 0) ∧
      as.map (fun a => (s.heap a).map DuerQcnode.data) = (listRun [] ops).2.map some ∧
      ∀ data, call bits s (.push data none) = some (.status duerErrMemoryOverlow, s) := by
  obtain ⟨s, p, as, hrun, h⟩ := (Sys.Holds.of_created heap).run hfresh
  exact ⟨s, p, as, hrun, h.cache, h.chain, h.length, h.tail, h.head_eq_none, h.contents,
    h.push_failed⟩

/-- Two entries, with a push that fails between them; the first is taken out. -/
def sampleOps : List (Op Nat) :=
  [.push (some 5) (some 16), .push (some 6) none, .push none (some 32), .top, .pop, .length]

theorem fifo_sample :
    ∃ s p as, runFrom (step 32) (duerQcacheCreate (fun _ => none) true, []) sampleOps =
        some (s, [.status 0, .status (-17), .status 0, .data (some 5), .data (some 5), .length 1]) ∧
      s.cache = some p ∧ Chain DuerQcnode.next s.heap p.head as ∧ as.length = p.length ∧
      p.tail = as.getLast? := by
  obtain ⟨s, p, as, hrun, hcache, hchain, hlength, htail, -⟩ :=
    fifo 32 (fun _ => none) sampleOps
      ⟨⟨by decide, by decide, rfl⟩, trivial, ⟨by decide, by decide, rfl⟩, trivial, trivial, trivial,
        trivial⟩
  exact ⟨s, p, as, hrun, hcache, hchain, hlength, htail⟩

/-! ## The end of a queue -/

theorem destroyLoop_settles {as : List Nat} : ∀ {heap : Heap (DuerQcnode α)} {p : Option Nat},
    Chain DuerQcnode.next heap p as → as.Nodup →
      ∃ heap', Settles (fun fuel => destroyLoop fuel heap p) (some heap') ∧
        (∀ a ∈ as, heap' a = none) ∧ ∀ a, a ∉ as → heap' a = heap a := by
  induction as with
  | nil =>
    intro heap p hchain _
    obtain rfl : p = none := hchain
    exact ⟨heap, .of_succ (.of_forall fun _ => rfl), fun a ha => absurd ha (by simp),
      fun _ _ => rfl⟩
  | cons r rest ih =>
    intro heap p hchain hnodup
    obtain ⟨rfl, n, hn, hrest⟩ := hchain
    obtain ⟨hnot, hnodup⟩ := List.nodup_cons.mp hnodup
    have hold : ∀ b ∈ rest, Function.update heap r none b = heap b := by
      intro b hb
      exact Function.update_of_ne (fun heq : b = r => hnot (heq ▸ hb)) ..
    obtain ⟨heap', hsettles, hfreed, hothers⟩ := ih (hrest.congr hold) hnodup
    have hround : ∀ fuel, destroyLoop (fuel + 1) heap (some r) =
        destroyLoop fuel (Function.update heap r none) n.next := by
      intro fuel
      rw [destroyLoop, hn]
      rfl
    refine ⟨heap', .of_succ ?_, fun a ha => ?_, fun a ha => ?_⟩
    · simpa only [hround] using hsettles
    · by_cases hmem : a ∈ rest
      · exact hfreed a hmem
      · obtain rfl := (List.mem_cons.mp ha).resolve_right hmem
        rw [hothers a hnot, Function.update_self]
    · rw [List.mem_cons, not_or] at ha
      rw [hothers a ha.2, Function.update_of_ne ha.1]

/-- **Destroying a queue** ends, frees each of its nodes and leaves all others. That it ends is part
    of it: the loop follows pointers, and it stops because the chain is finite and no node is in it
    twice. -/
theorem Sys.Holds.destroy {bits : Nat} {s : Sys α} {p : DuerQcache} {as : List Nat}
    {l : List (Option α)} (h : s.Holds bits p as l) :
    ∃ heap, Settles (fun fuel => duerQcacheDestroy fuel s) (some heap) ∧
      (∀ a ∈ as, heap a = none) ∧ ∀ a, a ∉ as → heap a = s.heap a := by
  have hhead : s.cache.bind DuerQcache.head = p.head := by rw [h.cache]; rfl
  simp only [duerQcacheDestroy, hhead]
  exact destroyLoop_settles h.chain h.nodup

end Qcache

end Framework
end LightDuer
