import Mathlib.Data.List.DropRight

/-!
# What was seen, in order

A trace is the list of what a run shows, the latest last. `since reset` is the part of it behind the
last entry that resets, and `Preceded p Q` says that wherever `p` holds of an entry, `Q` holds of
all that was seen before it. Both are kept up as entries are added at the end.

They are for properties of the form "every one of these is preceded by those, in this order, with
nothing in between that undoes them". The trace then is a field of the state, the step adds to its
end, and the property is an invariant: `Preceded.concat` asks for `Q` of the trace only where the
entry that is added has `p`.

`Q` is mostly that certain entries are a sublist of `since reset`: they have come, in this order,
since the last reset. `sublist_since_concat` keeps such a fact while other entries come, and
`concat_sublist_since_concat` makes it grow by the next entry of the order. An entry that resets
makes it start from nothing, so that all it takes to carry a fact along a run is that no entry of it
resets.
-/

set_option autoImplicit false

namespace Lib

variable {α : Type}

/-- What was seen since the last reset. -/
def since (reset : α → Bool) (trace : List α) : List α :=
  trace.rtakeWhile fun o => !reset o

section Since

variable {reset : α → Bool} {trace : List α} {o : α}

theorem since_concat (h : reset o = false) :
    since reset (trace ++ [o]) = since reset trace ++ [o] :=
  List.rtakeWhile_concat_pos _ _ _ (by simp [h])

/-- What was seen is not lost by another entry that does not reset. -/
theorem sublist_since_concat {l : List α} (h : l.Sublist (since reset trace))
    (ho : reset o = false) : l.Sublist (since reset (trace ++ [o])) := by
  rw [since_concat ho]
  exact h.trans (List.sublist_append_left _ _)

/-- What was seen goes on with the new entry. -/
theorem concat_sublist_since_concat {l : List α} (h : l.Sublist (since reset trace))
    (ho : reset o = false) : (l ++ [o]).Sublist (since reset (trace ++ [o])) := by
  rw [since_concat ho]
  exact h.append (.refl _)

end Since

/-- Every entry with `p` comes behind a trace with `Q`. -/
def Preceded (p : α → Bool) (Q : List α → Prop) (trace : List α) : Prop :=
  ∀ before o after, trace = before ++ o :: after → p o = true → Q before

section Preceded

variable {p : α → Bool} {Q : List α → Prop} {trace : List α} {o : α}

theorem Preceded.nil : Preceded p Q [] := by
  intro before o after h
  exact absurd h (by simp)

theorem Preceded.concat (h : Preceded p Q trace) (ho : p o = true → Q trace) :
    Preceded p Q (trace ++ [o]) := by
  intro before o' after hsplit hp
  rcases List.eq_nil_or_concat after with rfl | ⟨after, last, rfl⟩
  · -- the entry is the new one
    obtain ⟨rfl, rfl⟩ : trace = before ∧ o = o' := by simpa using hsplit
    exact ho hp
  · refine h before o' after ?_ hp
    have happend : trace ++ [o] = (before ++ o' :: after) ++ [last] := by simpa using hsplit
    exact (List.append_inj' happend rfl).1

end Preceded

end Lib
