import Mathlib.Data.List.Nodup
import Mathlib.Logic.Function.Basic
import Mathlib.Tactic.Common

/-!
# Lists with keys

A list of entries that are looked up by a key, first match first, is a partial function. Putting an
entry in front updates it; where the keys are distinct, so does taking out the first match.

`findKey` and `eraseKey` are `List.find?` and `List.eraseP` for a test on the key. The lemmas state
what they do as equations between functions, with `Function.update`, so that a proof about a table
can rewrite the whole lookup at once and let the laws of `update` do the rest, instead of asking for
each key whether it is the one that was changed.

That the keys are distinct is a hypothesis and not part of the type: `findKey_cons` holds without it
(the entry in front hides the others), while `findKey_eraseKey` needs it, since the second entry
with the key would come to light. `nodup_cons_of_findKey` and `nodup_eraseKey` are what keeps the
hypothesis: an entry whose key was not found may be put in front, and erasing keeps what was
distinct.
-/

set_option autoImplicit false

namespace Lib

variable {α κ : Type} [DecidableEq κ] (key : α → κ)

/-- The first entry with the key. -/
def findKey (l : List α) (k : κ) : Option α := l.find? fun a => key a = k

/-- The list without it. -/
def eraseKey (l : List α) (k : κ) : List α := l.eraseP fun a => key a = k

section Keyed

variable {key} {l : List α} {k : κ} {a : α}

theorem findKey_cons (a : α) (l : List α) :
    findKey key (a :: l) = Function.update (findKey key l) (key a) (some a) := by
  funext k
  by_cases hk : key a = k
  · subst hk
    simp [findKey]
  · rw [Function.update_of_ne (Ne.symm hk)]
    simp [findKey, hk]

theorem findKey_eq_none : findKey key l k = none ↔ k ∉ l.map key := by
  simp [findKey, List.find?_eq_none]

theorem nodup_cons_of_findKey (hnd : (l.map key).Nodup) (h : findKey key l (key a) = none) :
    ((a :: l).map key).Nodup :=
  List.nodup_cons.mpr ⟨findKey_eq_none.mp h, hnd⟩

theorem nodup_eraseKey (hnd : (l.map key).Nodup) : ((eraseKey key l k).map key).Nodup :=
  hnd.sublist ((List.eraseP_sublist ..).map key)

/-- Taking out the first match, where it is the only one. -/
theorem findKey_eraseKey (hnd : (l.map key).Nodup) (k : κ) :
    findKey key (eraseKey key l k) = Function.update (findKey key l) k none := by
  induction l with
  | nil =>
    funext k'
    by_cases hk : k' = k
    · subst hk
      rw [Function.update_self]
      rfl
    · rw [Function.update_of_ne hk]
      rfl
  | cons a l ih =>
    obtain ⟨ha, hnd⟩ := List.nodup_cons.mp hnd
    by_cases hk : key a = k
    · subst hk
      have herase : eraseKey key (a :: l) (key a) = l := by simp [eraseKey]
      have hnone : findKey key l (key a) = none := findKey_eq_none.mpr ha
      rw [herase, findKey_cons, Function.update_idem, ← hnone, Function.update_eq_self]
    · have herase : eraseKey key (a :: l) k = a :: eraseKey key l k := by simp [eraseKey, hk]
      rw [herase, findKey_cons, findKey_cons, ih hnd, Function.update_comm hk]

end Keyed

end Lib
