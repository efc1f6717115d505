import Mathlib.Data.List.TakeDrop
import Mathlib.Tactic.Common

/-!
# Growing a block

A block that is reallocated to `n` slots is `l.takeD n a`: its old contents in front, then slots
that nothing has been written to, each of which stands for `a`. The same term covers a block that
shrinks, where the contents behind the new end are gone.

`List.takeD` comes with lemmas on its length and on appending, and with none on reading a slot or on
cutting it again, which is what a table that grows in steps needs:

* `getElem?_takeD` reads slot `k` of the new block. It is the old slot if there was one and the
  default otherwise, so a reader who knows what the old block held knows what the new one holds,
  without a case on which of the two is longer.
* `take_takeD` says that the part that fits into both blocks is untouched. A table whose slots in
  use all lie inside that part is the same table after the call.

Nothing here says when a block is grown, by how much, or what happens where the memory is refused;
these are matters of the code that calls it.
-/

set_option autoImplicit false

namespace Lib

variable {α : Type} {l : List α} {n k : ℕ}

theorem getElem?_takeD (a : α) (hk : k < n) : (l.takeD n a)[k]? = some (l[k]?.getD a) := by
  induction n generalizing l k with
  | zero => omega
  | succ n ih =>
    rw [List.takeD_succ]
    cases k with
    | zero => cases l <;> rfl
    | succ k =>
      rw [List.getElem?_cons_succ, ih (by omega)]
      cases l <;> rfl

/-- What fits into both blocks is kept. -/
theorem take_takeD (a : α) (hn : k ≤ n) (hl : k ≤ l.length) : (l.takeD n a).take k = l.take k := by
  refine List.ext_getElem? fun j => ?_
  by_cases hj : j < k
  · rw [List.getElem?_take_of_lt hj, List.getElem?_take_of_lt hj, getElem?_takeD a (by omega),
      List.getElem?_eq_getElem (by omega)]
    rfl
  · simp only [List.getElem?_take, if_neg hj]

end Lib
