import LightDuer.LibCoap.Layout

/-!
# Strings of several parts

The application gives a Uri-Path, a query or the ETag as one string. The builder finds the parts
between its separators one by one, each time from the start of the string: their number, and for
each its place and its length. Where no part is empty these are the parts that the string is joined
of.

The three functions of the source scan the string with a state (the length of the part so far, the
index of the part), and reset it at a separator unless the part so far is empty. On a string that is
given as `[sep].intercalate parts` the scan over one part is a lemma (`partLengthLoop_append`,
`partPositionLoop_append`), and the scan over all parts in front of the one that is looked for is an
induction over them. The two loops do not agree on a string with an empty part, which is why `Parts`
asks for none.

Two more conditions are the code's own. The number of the parts is a `uint8_t`, so a string of 256
parts has none. And the first part is taken to begin at the second octet if the first is a NUL, so a
string must not begin with one. Under these `partsOf_intercalate` says that a string is written as
the parts that it is joined of, and in the other direction `List.splitOn` gives the parts of any
string.
-/

set_option autoImplicit false

namespace LightDuer
namespace LibCoap

open Lib

section Joined

variable {sep : UInt8} {parts : List (List UInt8)}

/-- Parts of a string: none is empty, and none holds the separator. -/
def Parts (sep : UInt8) (parts : List (List UInt8)) : Prop := ∀ part ∈ parts, part ≠ [] ∧ sep ∉ part

theorem Parts.head {part : List UInt8} (h : Parts sep (part :: parts)) : part ≠ [] ∧ sep ∉ part :=
  h part List.mem_cons_self

theorem Parts.tail {part : List UInt8} (h : Parts sep (part :: parts)) : Parts sep parts :=
  fun p hp => h p (List.mem_cons_of_mem part hp)

theorem intercalate_ne_nil (h : Parts sep parts) (hne : parts ≠ []) :
    [sep].intercalate parts ≠ [] := by
  cases parts with
  | nil => exact absurd rfl hne
  | cons part parts =>
    cases parts with
    | nil => simpa using h.head.1
    | cons next parts => simp

theorem not_mem_of_mem_splitOn {query part : List UInt8} (h : part ∈ query.splitOn sep) :
    sep ∉ part := by
  induction query generalizing part with
  | nil =>
    rw [List.splitOn_nil, List.mem_singleton] at h
    exact h ▸ List.not_mem_nil
  | cons c query ih =>
    rw [List.splitOn_cons_eq_if_modifyHead] at h
    obtain ⟨first, rest, heq⟩ := List.exists_cons_of_ne_nil (List.splitOn_ne_nil sep query)
    rw [heq] at h ih
    split at h
    · rcases List.mem_cons.mp h with rfl | hrest
      · exact List.not_mem_nil
      · exact ih hrest
    · next hne =>
      rw [List.modifyHead_cons] at h
      rcases List.mem_cons.mp h with rfl | hrest
      · intro hmem
        rcases List.mem_cons.mp hmem with hc | hfirst
        · exact hne (by simpa using hc.symm)
        · exact ih List.mem_cons_self hfirst
      · exact ih (List.mem_cons_of_mem first hrest)

/-- A string of two strings. -/
theorem intercalate_append {parts' : List (List UInt8)} (hne : parts ≠ []) (hne' : parts' ≠ []) :
    [sep].intercalate (parts ++ parts') =
      [sep].intercalate parts ++ sep :: [sep].intercalate parts' := by
  induction parts with
  | nil => exact absurd rfl hne
  | cons part parts ih =>
    cases parts with
    | nil =>
      rw [List.singleton_append, List.intercalate_cons_of_ne_nil hne', List.intercalate_singleton,
        List.append_assoc]
      rfl
    | cons next parts =>
      have hrest := ih (List.cons_ne_nil next parts)
      rw [List.cons_append] at hrest
      rw [List.cons_append, List.cons_append, List.intercalate_cons_cons,
        List.intercalate_cons_cons, hrest]
      simp only [List.append_assoc]

/-! ## Their number -/

theorem dropLast_intercalate_count (h : Parts sep parts) (hne : parts ≠ []) :
    ([sep].intercalate parts).dropLast.count sep + 1 = parts.length := by
  induction parts with
  | nil => exact absurd rfl hne
  | cons part parts ih =>
    have hfirst : part.count sep = 0 := List.count_eq_zero.mpr h.head.2
    cases parts with
    | nil =>
      rw [List.intercalate_singleton]
      exact congrArg (· + 1) (Nat.le_zero.mp ((List.dropLast_sublist part).count_le sep |>.trans
        (Nat.le_of_eq hfirst)))
    | cons next parts =>
      have hrest := intercalate_ne_nil h.tail (List.cons_ne_nil next parts)
      rw [List.intercalate_cons_cons, List.dropLast_append_of_ne_nil hrest, List.count_append,
        List.count_append, hfirst, List.length_cons, ← ih h.tail (List.cons_ne_nil _ _)]
      simp
      omega

theorem optionsGetOptionPartCount_intercalate {o : CoapOption} (h : Parts o.separator parts)
    (hne : parts ≠ []) (hlt : parts.length < 2 ^ 8) :
    optionsGetOptionPartCount ([o.separator].intercalate parts) o = parts.length := by
  have hcount := dropLast_intercalate_count h hne
  obtain ⟨c, query, hquery⟩ := List.exists_cons_of_ne_nil (intercalate_ne_nil h hne)
  have hc : c ≠ o.separator := by
    rintro rfl
    cases parts with
    | nil => exact absurd rfl hne
    | cons part parts =>
      obtain ⟨b, part', rfl⟩ := List.exists_cons_of_ne_nil h.head.1
      have hb : b = o.separator := by
        cases parts <;> simp at hquery <;> exact hquery.1
      exact h.head.2 (hb ▸ List.mem_cons_self)
  have hdrop : query.dropLast.count o.separator =
      (c :: query).dropLast.count o.separator := by
    cases query with
    | nil => rfl
    | cons b query => rw [List.dropLast_cons_of_ne_nil (List.cons_ne_nil b query),
        List.count_cons_of_ne hc]
  rw [hquery] at hcount
  rw [optionsGetOptionPartCount, hquery, List.drop_one, List.tail_cons, hdrop, hcount,
    Nat.mod_eq_of_lt hlt]

/-! ## Where a part is -/

theorem partLengthLoop_append {part : List UInt8} (h : sep ∉ part) (rest : List UInt8)
    (queryIndex len index : Nat) :
    partLengthLoop sep queryIndex (part ++ rest) len index =
      partLengthLoop sep queryIndex rest (len + part.length) index := by
  induction part generalizing len with
  | nil => rfl
  | cons c part ih =>
    obtain ⟨hc, hpart⟩ := List.ne_and_not_mem_of_not_mem_cons h
    rw [List.cons_append, partLengthLoop, if_neg (fun hand => hc hand.1.symm), if_pos hc.symm,
      ih hpart, List.length_cons, Nat.add_right_comm, Nat.add_assoc]

theorem partPositionLoop_append {part : List UInt8} (h : sep ∉ part) (rest : List UInt8)
    (queryIndex offset index : Nat) :
    partPositionLoop sep queryIndex (part ++ rest) offset index =
      partPositionLoop sep queryIndex rest (offset + part.length) index := by
  induction part generalizing offset with
  | nil => rfl
  | cons c part ih =>
    obtain ⟨hc, hpart⟩ := List.ne_and_not_mem_of_not_mem_cons h
    rw [List.cons_append, partPositionLoop, if_neg (fun hand => hc hand.1.symm), ih hpart,
      List.length_cons, Nat.add_right_comm, Nat.add_assoc]

/-- Over the parts in front of the one that is looked for. -/
theorem partLengthLoop_intercalate (h : Parts sep parts) {i : Nat} (hi : i < parts.length)
    (index : Nat) :
    partLengthLoop sep (index + i) ([sep].intercalate parts) 0 index = parts[i].length := by
  induction parts generalizing i index with
  | nil => exact absurd hi (Nat.not_lt_zero i)
  | cons part parts ih =>
    have hpos : 0 < 0 + part.length := by
      rw [Nat.zero_add]
      exact List.length_pos_iff.mpr h.head.1
    cases parts with
    | nil =>
      obtain rfl : i = 0 := by simpa using hi
      rw [List.intercalate_singleton, ← List.append_nil part,
        partLengthLoop_append h.head.2]
      simp [partLengthLoop]
    | cons next parts =>
      rw [List.intercalate_cons_cons, List.append_assoc, partLengthLoop_append h.head.2,
        List.singleton_append, partLengthLoop, if_pos ⟨rfl, hpos⟩]
      cases i with
      | zero =>
        rw [if_pos (Nat.add_zero index).symm, Nat.zero_add]
        rfl
      | succ i =>
        have hnext := ih h.tail (Nat.lt_of_succ_lt_succ hi) (index + 1)
        rw [if_neg (by omega), show index + (i + 1) = index + 1 + i by omega, hnext]
        rfl

theorem partPositionLoop_intercalate (h : Parts sep parts) (hne : parts ≠ []) (rest : List UInt8)
    (offset index : Nat) :
    partPositionLoop sep (index + parts.length) ([sep].intercalate parts ++ sep :: rest) offset
      index = offset + ([sep].intercalate parts).length + 1 := by
  induction parts generalizing offset index with
  | nil => exact absurd rfl hne
  | cons part parts ih =>
    have hpos : 0 < offset + part.length :=
      Nat.add_pos_right offset (List.length_pos_iff.mpr h.head.1)
    cases parts with
    | nil =>
      rw [List.intercalate_singleton, partPositionLoop_append h.head.2, partPositionLoop,
        if_pos ⟨rfl, hpos⟩, if_pos (by simp)]
    | cons next parts =>
      have hnext := ih h.tail (List.cons_ne_nil _ _) (offset + part.length + 1) (index + 1)
      rw [List.intercalate_cons_cons, List.append_assoc, List.append_assoc,
        partPositionLoop_append h.head.2, List.singleton_append, partPositionLoop,
        if_pos ⟨rfl, hpos⟩, if_neg (by simp),
        show index + (part :: next :: parts).length = index + 1 + (next :: parts).length by
          simp; omega, hnext]
      simp
      omega

end Joined

/-! ## Reading the parts -/

section Read

variable {o : CoapOption} {parts : List (List UInt8)}

/-- A part, with what is in front of it and what is behind. -/
theorem optionPart_intercalate (h : Parts o.separator parts)
    (hhead : ([o.separator].intercalate parts).head? ≠ some 0) {i : Nat} (hi : i < parts.length) :
    optionPart ([o.separator].intercalate parts) o i = some parts[i] := by
  have hlen : optionsGetOptionPartLength ([o.separator].intercalate parts) i o =
      parts[i].length := by
    have := partLengthLoop_intercalate h hi 0
    rwa [Nat.zero_add] at this
  obtain ⟨behind, hbehind⟩ : ∃ behind, [o.separator].intercalate (parts.drop i) =
      parts[i] ++ behind := by
    rw [List.drop_eq_getElem_cons hi]
    cases parts.drop (i + 1) with
    | nil => exact ⟨[], by simp⟩
    | cons next rest => exact ⟨_, by rw [List.intercalate_cons_cons, List.append_assoc]⟩
  suffices hplace : ∃ front, [o.separator].intercalate parts = front ++ (parts[i] ++ behind) ∧
      optionsGetOptionPartPosition ([o.separator].intercalate parts) i o = front.length by
    obtain ⟨front, heq, hpos⟩ := hplace
    rw [optionPart, hlen, hpos, readOctets, if_pos (by rw [heq]; simp), heq, List.drop_left,
      List.take_left]
  cases i with
  | zero =>
    refine ⟨[], by simpa using hbehind, ?_⟩
    have hsep : ([o.separator].intercalate parts).head? ≠ some o.separator := by
      obtain ⟨b, part', hpart⟩ := List.exists_cons_of_ne_nil (h _ (List.getElem_mem hi)).1
      have hb : b ≠ o.separator := fun heq =>
        (h _ (List.getElem_mem hi)).2 (hpart ▸ heq ▸ List.mem_cons_self)
      rw [List.drop_zero] at hbehind
      rw [hbehind, hpart]
      simpa using hb
    rw [optionsGetOptionPartPosition, if_pos rfl, if_neg (not_or.mpr ⟨hhead, hsep⟩)]
    rfl
  | succ i =>
    have hfront : parts.take (i + 1) ≠ [] := by
      intro hnil
      have hlen := congrArg List.length hnil
      rw [List.length_take, Nat.min_eq_left (Nat.le_of_lt hi)] at hlen
      exact Nat.succ_ne_zero i hlen
    have hlength : (parts.take (i + 1)).length = i + 1 := by
      rw [List.length_take, Nat.min_eq_left (Nat.le_of_lt hi)]
    have heq : [o.separator].intercalate parts =
        [o.separator].intercalate (parts.take (i + 1)) ++ o.separator ::
          [o.separator].intercalate (parts.drop (i + 1)) := by
      have hback : parts.drop (i + 1) ≠ [] := by simpa using hi
      rw [← intercalate_append hfront hback, List.take_append_drop]
    refine ⟨[o.separator].intercalate (parts.take (i + 1)) ++ [o.separator], ?_, ?_⟩
    · rw [heq, hbehind]
      simp
    · have hloop := partPositionLoop_intercalate
        (fun p hp => h p (List.mem_of_mem_take hp)) hfront
        ([o.separator].intercalate (parts.drop (i + 1))) 0 0
      rw [hlength, ← heq, Nat.zero_add, Nat.zero_add] at hloop
      rw [optionsGetOptionPartPosition, if_neg (Nat.succ_ne_zero i), hloop]
      simp

theorem mapM_eq_some_map {α β : Type} {f : α → Option β} {g : α → β} {l : List α}
    (h : ∀ a ∈ l, f a = some (g a)) : l.mapM f = some (l.map g) := by
  induction l with
  | nil => rfl
  | cons a l ih =>
    rw [List.mapM_cons, h a List.mem_cons_self, ih fun b hb => h b (List.mem_cons_of_mem a hb)]
    rfl

/-- **A string is written as the parts that it is joined of.** The separator stands between any two
    parts and in none of them, so they are found again. -/
theorem partsOf_intercalate (h : Parts o.separator parts) (hne : parts ≠ [])
    (hlt : parts.length < 2 ^ 8) (hhead : ([o.separator].intercalate parts).head? ≠ some 0) :
    partsOf (some ([o.separator].intercalate parts)) o = some parts := by
  show (List.range _).mapM _ = _
  rw [optionsGetOptionPartCount_intercalate h hne hlt]
  have hall : ∀ i ∈ List.range parts.length,
      optionPart ([o.separator].intercalate parts) o i = some (parts.getD i []) := by
    intro i hi
    have hi := List.mem_range.mp hi
    rw [optionPart_intercalate h hhead hi, List.getD_eq_getElem?_getD,
      List.getElem?_eq_getElem hi]
    rfl
  rw [mapM_eq_some_map hall]
  refine congrArg some (List.ext_getElem (by simp) fun i hi hi' => ?_)
  rw [List.getElem_map, List.getElem_range, List.getD_eq_getElem?_getD,
    List.getElem?_eq_getElem hi']
  rfl

end Read

end LibCoap
end LightDuer
