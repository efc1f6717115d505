import LightDuer.Lib.Chain
import LightDuer.Lib.Loop
import LightDuer.Ota.Package

/-!
# The search for a node

`mbed_find_cjson_object` walks the nodes below an object: a loop over the siblings, which calls the
function again for the children of each. The nodes are in a heap, `child` and `next` are `NULL`
where they are `none`, and both loop and recursion are followed with fuel. A call has no result
where it runs out of fuel, or reads what is not there.

## Code and tree

The code knows pointers only. `Forest` is what they stand for: the nodes of a list of siblings, each
with its address and what is below it; and `Forest.At` says that the heap holds a forest from a
pointer on. A forest has no cycles, so the search in a heap that holds one ends.

`Forest.preorder` lists the nodes, each before what is below it, and `FirstNamed` is the
specification: the address of the first node of a list that has the name, ignoring the case of ASCII
letters, or `NULL` if no node has it.

## The proof

`mbed_str_case_cmp` is settled first, as it is a loop of its own, over octets that are turned into
lower case: its result is 0 exactly for strings that agree letter by letter. Then
`siblingsLoop_spec` goes by induction on the forest, with one lemma for each thing that can happen
at a node: it has the name, or what is below it has a node with the name, or the search goes on
beside it. `Settles` says that enough fuel gives the result, whatever the amount, so the fuel does
not show in the theorem.
-/

set_option autoImplicit false

namespace LightDuer
namespace Ota
namespace FindObject

open Lib
open Package (toLower)

/-! ## The code -/

/-- `cJSON`; `value` stands for the fields that the search does not look at. -/
structure CJson (β : Type) where
  string : Option CString
  value : β
  child : Option Nat
  next : Option Nat

/-- The loop of `mbed_str_case_cmp`. -/
def caseCmpLoop : List UInt8 → List UInt8 → Option Int
  | c₁ :: s₁, c₂ :: s₂ =>
      if toLower c₁ = toLower c₂ then if c₁ = 0 then some 0 else caseCmpLoop s₁ s₂
      else some ((toLower c₁).toNat - (toLower c₂).toNat)
  | _, _ => none

/-- `mbed_str_case_cmp` -/
def mbedStrCaseCmp (s1 s2 : Option CString) : Option Int :=
  match s1, s2 with
  | none, none => some 0
  | none, some _ => some 1
  | some _, none => some 1
  | some s1, some s2 => caseCmpLoop s1.array s2.array

section Code

variable {β : Type} (heap : Heap (CJson β)) (key : CString)

mutual

/-- `mbed_find_cjson_object` -/
def mbedFindCjsonObject : Nat → Nat → Option (Option Nat)
  | 0, _ => none
  | fuel + 1, object => do
      let node ← heap object
      siblingsLoop fuel node.child none

/-- Its loop, with `subitem` and `tmp`. -/
def siblingsLoop : Nat → Option Nat → Option Nat → Option (Option Nat)
  | 0, _, _ => none
  | _ + 1, none, _ => some none
  | fuel + 1, some subitem, tmp => do
      let node ← heap subitem
      let cmp ← mbedStrCaseCmp node.string (some key)
      if cmp = 0 then some (some subitem)
      else
        let tmp ← if node.child.isSome then mbedFindCjsonObject fuel subitem else some tmp
        match tmp with
        | some found => some (some found)
        | none => siblingsLoop fuel node.next tmp

end

end Code

/-! ## Names, ignoring case -/

/-- The same octet, or the same ASCII letter. -/
def SameLetter (x y : UInt8) : Prop :=
  x = y ∨ (65 ≤ x ∧ x ≤ 90 ∧ y = x + 32) ∨ (65 ≤ y ∧ y ≤ 90 ∧ x = y + 32)

/-- A node has this name, ignoring ASCII case. -/
def Named (key : CString) (string : Option CString) : Prop :=
  ∃ s, string = some s ∧ List.Forall₂ SameLetter s.bytes key.bytes

theorem not_named_none (key : CString) : ¬Named key none := by
  rintro ⟨s, hs, -⟩
  cases hs

theorem named_some {key s : CString} :
    Named key (some s) ↔ List.Forall₂ SameLetter s.bytes key.bytes := by
  refine ⟨?_, fun h => ⟨s, rfl, h⟩⟩
  rintro ⟨s', hs, h⟩
  obtain rfl := Option.some.inj hs
  exact h

theorem toLower_eq_iff (x y : UInt8) : toLower x = toLower y ↔ SameLetter x y := by
  unfold toLower SameLetter
  simp only [UInt8.le_iff_toNat_le, ← UInt8.toNat_inj]
  split <;> split <;> simp only [UInt8.toNat_add, UInt8.reduceToNat] at * <;> omega

theorem SameLetter.symm {x y : UInt8} (h : SameLetter x y) : SameLetter y x :=
  (toLower_eq_iff y x).mp ((toLower_eq_iff x y).mpr h).symm

/-- A NUL is no letter. -/
theorem SameLetter.eq_zero {y : UInt8} (h : SameLetter 0 y) : y = 0 := by
  rcases h with h | ⟨h, -⟩ | ⟨h₁, h₂, h⟩
  · exact h.symm
  · exact absurd h (by decide)
  · have hsum : (0 : UInt8).toNat = (y + 32).toNat := congrArg UInt8.toNat h
    rw [UInt8.le_iff_toNat_le] at h₁ h₂
    simp only [UInt8.toNat_add, UInt8.reduceToNat] at hsum h₁ h₂
    omega

/-- What is returned where two strings differ is not 0. -/
theorem sub_toLower_ne_zero {x y : UInt8} (h : ¬toLower x = toLower y) :
    ((toLower x).toNat - (toLower y).toNat : Int) ≠ 0 := by
  intro hzero
  exact h (UInt8.toNat_inj.mp (by omega))

/-- Two first octets that differ. -/
theorem caseCmpLoop_differ {x y : UInt8} (a b : List UInt8) (h : ¬SameLetter x y) :
    ∃ n, caseCmpLoop (x :: a) (y :: b) = some n ∧ n ≠ 0 := by
  have hlower : ¬toLower x = toLower y := (toLower_eq_iff x y).not.mpr h
  refine ⟨(toLower x).toNat - (toLower y).toNat, ?_, sub_toLower_ne_zero hlower⟩
  simp only [caseCmpLoop, if_neg hlower]

/-- The comparison of two strings without NULs, in their arrays. -/
theorem caseCmpLoop_spec {a : List UInt8} : ∀ {b : List UInt8}, 0 ∉ a → 0 ∉ b →
    ∃ n, caseCmpLoop (a ++ [0]) (b ++ [0]) = some n ∧ (n = 0 ↔ List.Forall₂ SameLetter a b) := by
  induction a with
  | nil =>
    intro b _ hb
    cases b with
    | nil => exact ⟨0, rfl, iff_of_true rfl .nil⟩
    | cons y b =>
      have hne : ¬SameLetter 0 y := fun h => hb (h.eq_zero ▸ List.mem_cons_self)
      obtain ⟨n, hcmp, hn⟩ := caseCmpLoop_differ [] (b ++ [0]) hne
      exact ⟨n, hcmp, iff_of_false hn (by simp)⟩
  | cons x a ih =>
    intro b ha hb
    have hx : x ≠ 0 := fun h => ha (h ▸ List.mem_cons_self)
    cases b with
    | nil =>
      -- The second string ends first, and a NUL is no letter.
      have hne : ¬SameLetter x 0 := fun h => hx h.symm.eq_zero
      obtain ⟨n, hcmp, hn⟩ := caseCmpLoop_differ (a ++ [0]) [] hne
      exact ⟨n, hcmp, iff_of_false hn (by simp)⟩
    | cons y b =>
      by_cases hsame : SameLetter x y
      · obtain ⟨n, hcmp, hn⟩ :=
          ih (fun h => ha (List.mem_cons_of_mem x h)) (fun h => hb (List.mem_cons_of_mem y h))
        refine ⟨n, ?_, hn.trans ⟨.cons hsame, fun h => (List.forall₂_cons.mp h).2⟩⟩
        simp only [List.cons_append, caseCmpLoop, if_pos ((toLower_eq_iff x y).mpr hsame),
          if_neg hx, hcmp]
      · obtain ⟨n, hcmp, hn⟩ := caseCmpLoop_differ (a ++ [0]) (b ++ [0]) hsame
        exact ⟨n, hcmp, iff_of_false hn fun h => hsame (List.forall₂_cons.mp h).1⟩

theorem mbedStrCaseCmp_spec (string : Option CString) (key : CString) :
    ∃ n, mbedStrCaseCmp string (some key) = some n ∧ (n = 0 ↔ Named key string) := by
  cases string with
  | none => exact ⟨1, rfl, iff_of_false (by decide) (not_named_none key)⟩
  | some s =>
    obtain ⟨n, hcmp, hn⟩ := caseCmpLoop_spec s.noNul key.noNul
    exact ⟨n, hcmp, hn.trans named_some.symm⟩

/-! ## The tree -/

/-- The nodes of a list of siblings, each at its address, with what is below it. -/
inductive Forest (β : Type)
  | nil
  | node (addr : Nat) (string : Option CString) (value : β) (below beside : Forest β)

namespace Forest

variable {β : Type}

/-- The nodes in depth-first pre-order: each before what is below it. -/
def preorder : Forest β → List (Nat × Option CString × β)
  | .nil => []
  | .node addr string value below beside =>
      (addr, string, value) :: (below.preorder ++ beside.preorder)

/-- The heap holds the forest, from this pointer on. -/
def At (heap : Heap (CJson β)) : Option Nat → Forest β → Prop
  | p, .nil => p = none
  | p, .node addr string value below beside =>
      p = some addr ∧ ∃ child next, heap addr = some ⟨string, value, child, next⟩ ∧
        below.At heap child ∧ beside.At heap next

end Forest

/-- The address of the first of these nodes with the name, or `NULL` if there is none. -/
def FirstNamed {β : Type} (key : CString) (nodes : List (Nat × Option CString × β)) :
    Option Nat → Prop
  | none => ∀ n ∈ nodes, ¬Named key n.2.1
  | some addr => ∃ before n after, nodes = before ++ n :: after ∧ n.1 = addr ∧ Named key n.2.1 ∧
      ∀ m ∈ before, ¬Named key m.2.1

namespace FirstNamed

variable {β : Type} {key : CString}

/-- The first node has the name. -/
theorem here {n : Nat × Option CString × β} (rest : List (Nat × Option CString × β))
    (h : Named key n.2.1) : FirstNamed key (n :: rest) (some n.1) :=
  ⟨[], n, rest, rfl, rfl, h, fun _ hm => absurd hm List.not_mem_nil⟩

/-- The first node does not have it. -/
theorem cons {n : Nat × Option CString × β} {rest : List (Nat × Option CString × β)}
    {r : Option Nat} (h : ¬Named key n.2.1) (hr : FirstNamed key rest r) :
    FirstNamed key (n :: rest) r := by
  cases r with
  | none => exact List.forall_mem_cons.mpr ⟨h, hr⟩
  | some addr =>
    obtain ⟨before, m, after, rfl, haddr, hm, hbefore⟩ := hr
    exact ⟨n :: before, m, after, rfl, haddr, hm, List.forall_mem_cons.mpr ⟨h, hbefore⟩⟩

/-- It is found in the first part. -/
theorem append_left {below : List (Nat × Option CString × β)} {addr : Nat}
    (h : FirstNamed key below (some addr)) (beside : List (Nat × Option CString × β)) :
    FirstNamed key (below ++ beside) (some addr) := by
  obtain ⟨before, m, after, rfl, haddr, hm, hbefore⟩ := h
  exact ⟨before, m, after ++ beside, by simp, haddr, hm, hbefore⟩

/-- It is not in the first part. -/
theorem append_right {below beside : List (Nat × Option CString × β)} {r : Option Nat}
    (h : FirstNamed key below none) (hr : FirstNamed key beside r) :
    FirstNamed key (below ++ beside) r := by
  cases r with
  | none => exact List.forall_mem_append.mpr ⟨h, hr⟩
  | some addr =>
    obtain ⟨before, m, after, rfl, haddr, hm, hbefore⟩ := hr
    refine ⟨below ++ before, m, after, by simp, haddr, hm, List.forall_mem_append.mpr ⟨h, hbefore⟩⟩

end FirstNamed

/-! ## The search -/

section Search

variable {β : Type} {heap : Heap (CJson β)} {key : CString}

/-- A call searches the children. -/
theorem settles_object {object : Nat} {node : CJson β} {r : Option Nat}
    (hnode : heap object = some node)
    (h : Settles (fun fuel => siblingsLoop heap key fuel node.child none) (some r)) :
    Settles (fun fuel => mbedFindCjsonObject heap key fuel object) (some r) := by
  refine .of_succ ?_
  simp only [mbedFindCjsonObject, hnode, Option.bind_eq_bind, Option.bind_some]
  exact h

/-- A node with the name ends the loop. -/
theorem settles_here {addr : Nat} {node : CJson β} (hnode : heap addr = some node)
    (h : Named key node.string) :
    Settles (fun fuel => siblingsLoop heap key fuel (some addr) none) (some (some addr)) := by
  obtain ⟨n, hcmp, hn⟩ := mbedStrCaseCmp_spec node.string key
  refine .of_succ (.of_forall fun fuel => ?_)
  simp only [siblingsLoop, hnode, Option.bind_eq_bind, Option.bind_some, hcmp, if_pos (hn.mpr h)]

/-- At another, the children are searched first, and then the siblings behind it. -/
theorem settles_next {addr : Nat} {node : CJson β} {found r : Option Nat}
    (hnode : heap addr = some node) (h : ¬Named key node.string)
    (hbelow : Settles (fun fuel => siblingsLoop heap key fuel node.child none) (some found))
    (hr : ∀ a, found = some a → r = some a)
    (hbeside : found = none →
      Settles (fun fuel => siblingsLoop heap key fuel node.next none) (some r)) :
    Settles (fun fuel => siblingsLoop heap key fuel (some addr) none) (some r) := by
  obtain ⟨n, hcmp, hn⟩ := mbedStrCaseCmp_spec node.string key
  refine .of_succ ?_
  simp only [siblingsLoop, hnode, Option.bind_eq_bind, Option.bind_some, hcmp,
    if_neg (hn.not.mpr h)]
  by_cases hchild : node.child.isSome = true
  · simp only [if_pos hchild]
    obtain ⟨N, hN⟩ := settles_object hnode hbelow
    cases found with
    | some a =>
      refine ⟨N, fun fuel hfuel => ?_⟩
      simp only [hN fuel hfuel, Option.bind_some, hr a rfl]
    | none =>
      obtain ⟨M, hM⟩ := hbeside rfl
      refine ⟨max N M, fun fuel hfuel => ?_⟩
      simp only [hN fuel (by omega), Option.bind_some]
      exact hM fuel (by omega)
  · -- Without children there is no call, and nothing below to find.
    simp only [if_neg hchild]
    have hnil : node.child = none := by simpa using hchild
    rw [hnil] at hbelow
    have hends : Settles (fun fuel => siblingsLoop heap key fuel none none) (some none) :=
      .of_succ (.of_forall fun _ => rfl)
    exact hbeside (Option.some.inj (hbelow.unique hends))

/-- **The loop finds the first node with the name, in pre-order.** It goes along the siblings and
    calls the search for the children of each; the induction is on the forest, which is what both
    follow. -/
theorem siblingsLoop_spec (key : CString) (forest : Forest β) : ∀ {p : Option Nat},
    forest.At heap p → ∃ r, Settles (fun fuel => siblingsLoop heap key fuel p none) (some r) ∧
      FirstNamed key forest.preorder r := by
  induction forest with
  | nil =>
    rintro p rfl
    exact ⟨none, .of_succ (.of_forall fun _ => rfl), fun n hn => absurd hn List.not_mem_nil⟩
  | node addr string value below beside ihbelow ihbeside =>
    rintro p ⟨rfl, child, next, hnode, hbelow, hbeside⟩
    by_cases hname : Named key string
    · exact ⟨some addr, settles_here hnode hname, .here _ hname⟩
    · obtain ⟨found, hfound, hfirst⟩ := ihbelow hbelow
      cases found with
      | some a =>
        exact ⟨some a, settles_next hnode hname hfound (fun _ h => h) (fun h => by cases h),
          .cons hname (hfirst.append_left _)⟩
      | none =>
        obtain ⟨r, hr, hlast⟩ := ihbeside hbeside
        exact ⟨r, settles_next hnode hname hfound (fun _ h => by cases h) fun _ => hr,
          .cons hname (hfirst.append_right hlast)⟩

/-- **The search ends with the first node below the object, in pre-order, that has the name.** -/
theorem finds_first (heap : Heap (CJson β)) (key : CString) (object : Nat) (node : CJson β)
    (forest : Forest β) (hnode : heap object = some node) (hbelow : forest.At heap node.child) :
    ∃ r, Settles (fun fuel => mbedFindCjsonObject heap key fuel object) (some r) ∧
      FirstNamed key forest.preorder r := by
  obtain ⟨r, hr, hfirst⟩ := siblingsLoop_spec key forest hbelow
  exact ⟨r, settles_object hnode hr, hfirst⟩

end Search

/-- Names that differ in case, below a node that has none. -/
def sample : Heap (CJson Nat)
  | 0 => some ⟨none, 0, some 1, none⟩
  | 1 => some ⟨none, 10, some 2, some 4⟩
  | 2 => some ⟨some (.lit "type"), 20, none, some 3⟩
  | 3 => some ⟨some (.lit "Update"), 30, none, none⟩
  | 4 => some ⟨some (.lit "update"), 40, none, none⟩
  | _ => none

def sampleForest : Forest Nat :=
  .node 1 none 10
    (.node 2 (some (.lit "type")) 20 .nil (.node 3 (some (.lit "Update")) 30 .nil .nil))
    (.node 4 (some (.lit "update")) 40 .nil .nil)

theorem finds_first_sample :
    ∃ r, Settles (fun fuel => mbedFindCjsonObject sample (.lit "UPDATE") fuel 0) (some r) ∧
      FirstNamed (.lit "UPDATE") sampleForest.preorder r :=
  finds_first sample (.lit "UPDATE") 0 ⟨none, 0, some 1, none⟩ sampleForest rfl
    ⟨rfl, some 2, some 4, rfl, ⟨rfl, none, some 3, rfl, rfl, rfl, none, none, rfl, rfl, rfl⟩,
      rfl, none, none, rfl, rfl, rfl⟩

/-! ## The search by value -/

/-- The forest of these children, each with its value. -/
def Forest.Of : Forest Json → List (Option CString × Json) → Prop
  | .nil, items => items = []
  | .node _ string value below beside, items =>
      ∃ rest, items = (string, value) :: rest ∧ below.Of value.children ∧ beside.Of rest

/-- What the search finds among these children. -/
def findItems (key : CString) : List (Option CString × Json) → Option Json
  | [] => none
  | (string, item) :: rest =>
      if Package.mbedStrCaseCmp string key then some item
      else (Package.mbedFindCjsonObject key item).or (findItems key rest)

theorem mbedFindCjsonObject_eq_findItems (key : CString) (v : Json) :
    Package.mbedFindCjsonObject key v = findItems key v.children := by
  cases v with
  | array items =>
    simp only [Package.mbedFindCjsonObject, Json.children]
    induction items with
    | nil => rfl
    | cons item rest ih =>
      simp only [Package.findInArray, List.map_cons, findItems, Package.mbedStrCaseCmp, ih,
        Bool.false_eq_true, if_false]
  | object items =>
    simp only [Package.mbedFindCjsonObject, Json.children]
    induction items with
    | nil => rfl
    | cons item rest ih =>
      obtain ⟨string, item⟩ := item
      simp only [Package.findInObject, List.map_cons, findItems, ih]
  | null => rfl
  | bool b => rfl
  | number n d => rfl
  | string s => rfl

theorem mbedStrCaseCmp_iff (string : Option CString) (key : CString) :
    Package.mbedStrCaseCmp string key = true ↔ Named key string := by
  cases string with
  | none => exact iff_of_false (by simp [Package.mbedStrCaseCmp]) (not_named_none key)
  | some s =>
    simp only [Package.mbedStrCaseCmp, Package.lower, beq_iff_eq, ← List.forall₂_eq_eq_eq,
      List.forall₂_map_left_iff, List.forall₂_map_right_iff, toLower_eq_iff, named_some]

theorem findItems_eq_find? (key : CString) (forest : Forest Json) :
    ∀ {items : List (Option CString × Json)}, forest.Of items →
      findItems key items =
        (forest.preorder.find? fun n => Package.mbedStrCaseCmp n.2.1 key).map fun n => n.2.2 := by
  induction forest with
  | nil =>
    rintro items rfl
    rfl
  | node addr string value below beside ihbelow ihbeside =>
    rintro items ⟨rest, rfl, hbelow, hbeside⟩
    simp only [findItems, Forest.preorder, List.find?_cons, List.find?_append]
    cases hcmp : Package.mbedStrCaseCmp string key with
    | true => rfl
    | false =>
      simp only [Bool.false_eq_true, if_false, Option.map_or, ← ihbelow hbelow, ← ihbeside hbeside,
        mbedFindCjsonObject_eq_findItems]

theorem FirstNamed.eq_find? {β : Type} {key : CString} {nodes : List (Nat × Option CString × β)}
    {r : Option Nat} (h : FirstNamed key nodes r) :
    r = (nodes.find? fun n => Package.mbedStrCaseCmp n.2.1 key).map fun n => n.1 := by
  have hname : ∀ n : Nat × Option CString × β, ¬Named key n.2.1 →
      ¬Package.mbedStrCaseCmp n.2.1 key = true := fun n => (mbedStrCaseCmp_iff n.2.1 key).not.mpr
  cases r with
  | none => rw [List.find?_eq_none.mpr fun n hn => hname n (h n hn), Option.map_none]
  | some addr =>
    obtain ⟨before, n, after, rfl, rfl, hn, hbefore⟩ := h
    rw [List.find?_append, List.find?_eq_none.mpr fun m hm => hname m (hbefore m hm),
      Option.none_or, List.find?_cons, (mbedStrCaseCmp_iff n.2.1 key).mpr hn, Option.map_some]

/-- The nodes of the forest are in the heap. -/
theorem Forest.At.value {β : Type} {heap : Heap (CJson β)} {forest : Forest β} :
    ∀ {p : Option Nat}, forest.At heap p →
      ∀ n ∈ forest.preorder, (heap n.1).map CJson.value = some n.2.2 := by
  induction forest with
  | nil => exact fun _ n hn => absurd hn List.not_mem_nil
  | node addr string value below beside ihbelow ihbeside =>
    rintro p ⟨-, child, next, hnode, hbelow, hbeside⟩ n hn
    rcases List.mem_cons.mp hn with rfl | hn
    · rw [hnode, Option.map_some]
    · rcases List.mem_append.mp hn with hn | hn
      · exact ihbelow hbelow n hn
      · exact ihbeside hbeside n hn

/-- **Over the nodes of a value, the search finds what the one by value does.** -/
theorem finds_value {heap : Heap (CJson Json)} (key : CString) {object : Nat} {node : CJson Json}
    {forest : Forest Json} (hnode : heap object = some node) (hbelow : forest.At heap node.child)
    (hof : forest.Of node.value.children) :
    ∃ r, Settles (fun fuel => mbedFindCjsonObject heap key fuel object) (some r) ∧
      r.bind (fun addr => (heap addr).map CJson.value) =
        Package.mbedFindCjsonObject key node.value := by
  obtain ⟨r, hr, hfirst⟩ := siblingsLoop_spec key forest hbelow
  refine ⟨r, settles_object hnode hr, ?_⟩
  rw [mbedFindCjsonObject_eq_findItems, findItems_eq_find? key forest hof, hfirst.eq_find?]
  cases hfind : forest.preorder.find? fun n => Package.mbedStrCaseCmp n.2.1 key with
  | none => rfl
  | some n => exact hbelow.value n (List.mem_of_find?_eq_some hfind)

end FindObject
end Ota
end LightDuer
