import Mathlib.Data.List.Nodup
import Mathlib.Logic.Function.Basic
import Mathlib.Tactic.Common

/-!
# Linked lists in a heap

A heap maps addresses to the nodes that are allocated. `Chain link h p as` says that from the
pointer `p`, following `link` to the null pointer, one visits exactly the nodes at the addresses
`as`, all of them allocated.

The list of addresses is an index of the relation and not a result of following the links. A chain
is thus finite by construction, and a heap with a cycle, or with a link to a freed node, is one that
has no chain: a proof that a list in memory is well formed gives an `as`, and from then on the
induction is on `as`. That the addresses are distinct does not follow from the definition alone (a
chain is determined by its pointer, `unique`, which is what makes a repetition impossible), and is
stated where it is used.

## Changing the heap

A step of a program writes one node. Two lemmas carry chains over it. `of_links` is the frame rule:
a change that keeps the links of the nodes of a chain leaves the chain alone, whatever it does to
the other fields or to other nodes; `congr` is the case where the nodes are not changed at all.
`extend` is the one way in which a chain grows here, by a node that is hung behind the last one; it
asks that the addresses are distinct, since the write to the last node must not be one to an earlier
node.
-/

set_option autoImplicit false

namespace Lib

/-- The nodes allocated, by address. -/
abbrev Heap (α : Type) := Nat → Option α

variable {α : Type} {link : α → Option Nat} {h : Heap α}

/-- Following `link` from `p` visits the addresses `as` and ends. -/
def Chain (link : α → Option Nat) (h : Heap α) : Option Nat → List Nat → Prop
  | p, [] => p = none
  | p, a :: as => p = some a ∧ ∃ n, h a = some n ∧ Chain link h (link n) as

namespace Chain

theorem nil_iff {p : Option Nat} : Chain link h p [] ↔ p = none := Iff.rfl

/-- The first node of a chain that starts at `a`. -/
theorem exists_cons {a : Nat} {as : List Nat} (hc : Chain link h (some a) as) :
    ∃ n rest, as = a :: rest ∧ h a = some n ∧ Chain link h (link n) rest := by
  cases as with
  | nil => exact absurd (nil_iff.mp hc) (by simp)
  | cons b rest =>
    obtain ⟨hp, n, hn, hrest⟩ := hc
    obtain rfl := Option.some.inj hp
    exact ⟨n, rest, rfl, hn, hrest⟩

theorem eq_nil {as : List Nat} (hc : Chain link h none as) : as = [] := by
  cases as with
  | nil => rfl
  | cons b rest => exact absurd hc.1 (by simp)

/-- Every node visited is allocated. -/
theorem live {p : Option Nat} {as : List Nat} (hc : Chain link h p as) :
    ∀ a ∈ as, ∃ n, h a = some n := by
  induction as generalizing p with
  | nil => exact fun a ha => absurd ha (by simp)
  | cons b rest ih =>
    intro a ha
    obtain ⟨-, n, hn, hrest⟩ := hc
    rcases List.mem_cons.mp ha with rfl | ha
    · exact ⟨n, hn⟩
    · exact ih hrest a ha

/-- Changes that keep the links of its nodes leave a chain alone. -/
theorem of_links {h' : Heap α} {p : Option Nat} {as : List Nat} (hc : Chain link h p as)
    (heq : ∀ a ∈ as, (h' a).map link = (h a).map link) : Chain link h' p as := by
  induction as generalizing p with
  | nil => exact hc
  | cons b rest ih =>
    obtain ⟨hp, n, hn, hrest⟩ := hc
    have hlink : (h' b).map link = some (link n) := by rw [heq b (by simp), hn]; rfl
    obtain ⟨n', hn', heqlink⟩ := Option.map_eq_some_iff.mp hlink
    refine ⟨hp, n', hn', ?_⟩
    rw [heqlink]
    exact ih hrest fun a ha => heq a (by simp [ha])

/-- Changes elsewhere in the heap leave a chain alone. -/
theorem congr {h' : Heap α} {p : Option Nat} {as : List Nat} (hc : Chain link h p as)
    (heq : ∀ a ∈ as, h' a = h a) : Chain link h' p as :=
  hc.of_links fun a ha => by rw [heq a ha]

/-- A pointer starts one chain. -/
theorem unique {p : Option Nat} {as bs : List Nat} (ha : Chain link h p as)
    (hb : Chain link h p bs) : as = bs := by
  induction as generalizing p bs with
  | nil => exact (eq_nil (nil_iff.mp ha ▸ hb)).symm
  | cons a as ih =>
    obtain ⟨rfl, n, hn, hrest⟩ := ha
    obtain ⟨n', rest, rfl, hn', hrest'⟩ := hb.exists_cons
    obtain rfl := Option.some.inj (hn.symm.trans hn')
    rw [ih hrest hrest']

/-- Hanging the node at `m` behind the last node of a chain. -/
theorem extend {p : Option Nat} {as : List Nat} {b m : Nat} {nb nm : α}
    (hc : Chain link h p (as ++ [b])) (hnd : (as ++ [b]).Nodup) (hb : link nb = some m)
    (hm : h m = some nm) (hnm : link nm = none) (hne : m ∉ as ++ [b]) :
    Chain link (Function.update h b (some nb)) p (as ++ [b] ++ [m]) := by
  induction as generalizing p with
  | nil =>
    obtain ⟨hp, -, -, -⟩ := hc
    have hmb : m ≠ b := by simpa using hne
    exact ⟨hp, nb, Function.update_self .., hb, nm, by rw [Function.update_of_ne hmb, hm], hnm⟩
  | cons a as ih =>
    obtain ⟨hp, n, hn, hrest⟩ := hc
    rw [List.cons_append, List.nodup_cons] at hnd
    have hab : a ≠ b := fun heq => hnd.1 (by simp [heq])
    refine ⟨hp, n, by rw [Function.update_of_ne hab, hn], ih hrest hnd.2 ?_⟩
    exact fun hmem => hne (List.mem_cons_of_mem a hmem)

end Chain

end Lib
