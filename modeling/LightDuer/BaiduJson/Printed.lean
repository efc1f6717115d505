import LightDuer.BaiduJson.Printer

/-!
# What is printed

`textOf` is the text of a tree, put together from the texts of its parts and without a size. The
printer prints exactly this (`printValue_eq`), for every tree whose text is no longer than `2 ^ 30`
less 64 octets and whose `valueint`s are of the range of `int`.

## Why there is a bound, and why it is this one

`print_string_ptr`, `print_array` and `print_object` add up in an `int` how much they will write.
What they count for a value is never less than what they write of it (`length_printChar`,
`sum_arraySizes`, `sum_objectSizes`), so with a counter that has no width the text would always fit.
With an `int` it has to be shown that the count stays one: it is at most twice the text and some
octets more, because between two elements at least a comma is printed. Half of the range of `int`
is therefore enough, and it is the bound that the printer into a buffer has anyway (`Buffered`:
there the size is made a power of two).

The induction is on the tree. Its hypothesis for a part is about the text of the part, which is not
longer than the whole (`length_le_composeArray`, `length_le_composeObject`).
-/

set_option autoImplicit false

namespace LightDuer
namespace BaiduJson

open Lib
open Ota (Json CString)

/-- Trees whose numbers are all of a kind. -/
inductive Numbers (p : Int → Option ℚ → Prop) : Json → Prop
  | null : Numbers p .null
  | bool (b : Bool) : Numbers p (.bool b)
  | number {n : Int} {d : Option ℚ} (h : p n d) : Numbers p (.number n d)
  | string (s : CString) : Numbers p (.string s)
  | array {items : List Json} (h : ∀ item ∈ items, Numbers p item) : Numbers p (.array items)
  | object {items : List (CString × Json)} (h : ∀ item ∈ items, Numbers p item.2) :
      Numbers p (.object items)

theorem Numbers.mono {p q : Int → Option ℚ → Prop} (hpq : ∀ n d, p n d → q n d) {v : Json}
    (h : Numbers p v) : Numbers q v := by
  induction h with
  | null => exact .null
  | bool b => exact .bool b
  | number h => exact .number (hpq _ _ h)
  | string s => exact .string s
  | array _ ih => exact .array ih
  | object _ ih => exact .object ih

/-- What fits into memory of so many octets, the NUL included. -/
theorem fill_eq {size : Nat} {text : List UInt8} (hint : size < 2 ^ 31) (h : text.length < size) :
    fill size text = some text := if_pos ⟨hint, h⟩

/-! ## Strings -/

/-- What is counted for a character is what is printed of it. -/
theorem length_printChar (c : UInt8) : (printChar c).length = 1 + escapeSize c :=
  forall_octet (P := fun c => (printChar c).length = 1 + escapeSize c) (by decide +kernel) c

theorem length_flatMap_printChar (s : List UInt8) :
    (s.flatMap printChar).length = (s.map fun c => 1 + escapeSize c).sum := by
  rw [List.length_flatMap]
  exact congrArg List.sum (List.map_congr_left fun c _ => length_printChar c)

theorem flatMap_printChar {s : List UInt8} (h : s.any escaped = false) :
    s.flatMap printChar = s := by
  have hone : ∀ c ∈ s, printChar c = [c] := fun c hc => by
    rw [printChar, if_neg]
    simpa using List.any_eq_false.mp h c hc
  rw [List.flatMap_congr hone, List.flatMap_singleton']

/-- A name, quoted. -/
def nameText (name : CString) : List UInt8 := 34 :: name.bytes.flatMap printChar ++ [34]

theorem length_nameText (name : CString) :
    (nameText name).length = (name.bytes.map fun c => 1 + escapeSize c).sum + 2 := by
  rw [nameText, List.length_append, List.length_cons, List.length_singleton,
    length_flatMap_printChar]

/-- Whether or not anything is escaped. -/
theorem printStringPtr_eq {str : CString} (hmax : (nameText str).length + 64 ≤ 2 ^ 30) :
    printStringPtr str = some (nameText str) := by
  have hlength := length_nameText str
  rw [printStringPtr]
  cases hany : str.bytes.any escaped with
  | true =>
    rw [if_pos rfl]
    exact fill_eq (by omega) (show (nameText str).length < _ by omega)
  | false =>
    have hplain : 34 :: str.bytes ++ [34] = nameText str := by
      rw [nameText, flatMap_printChar hany]
    have hstrlen : (nameText str).length = str.strlen + 2 := by
      rw [← hplain, List.length_append, List.length_cons, List.length_singleton, CString.strlen]
    rw [if_neg Bool.false_ne_true, hplain]
    exact fill_eq (by omega) (by omega)

/-! ## Numbers -/

/-- What `sprintf` writes of a double fits. -/
def Doubles.Fits (D : Doubles) : Prop := ∀ d, (D.write d).length < 64

/-- The values of an `int`. -/
def InInt (n : Int) : Prop := -2 ^ 31 ≤ n ∧ n < 2 ^ 31

theorem length_printInt {n : Int} (h : InInt n) : (printInt n).length < 21 := by
  have habs : n.natAbs < 10 ^ 19 := by
    have := h.1
    have := h.2
    omega
  have hdec := length_decimal_le (by decide) habs
  rw [printInt]
  split
  · rw [List.length_cons]
    omega
  · omega

/-- A number as it is printed: `0`, an `int`, or as `sprintf` writes a double. -/
def numberText (D : Doubles) (valueint : Int) (d : Option ℚ) : List UInt8 :=
  if d = some 0 then [48] else if isInt D valueint d then printInt valueint else D.write d

theorem printNumber_eq {D : Doubles} (hD : D.Fits) {n : Int} (hn : InInt n) (d : Option ℚ) :
    printNumber D n d = some (numberText D n d) := by
  rw [printNumber, numberText]
  split
  · exact fill_eq (by decide) (by decide)
  split
  · exact fill_eq (by decide) (length_printInt hn)
  · exact fill_eq (by decide) (hD d)

/-! ## Elements and members -/

section Compose

variable {fmt : Bool} {depth : Nat}

theorem forall_mem_whenFmt {P : UInt8 → Prop} {text : List UInt8} (h : ∀ c ∈ text, P c) :
    ∀ c ∈ whenFmt fmt text, P c := by
  cases fmt
  · exact List.forall_mem_nil _
  · exact h

theorem forall_mem_tabs {P : UInt8 → Prop} (h : P 9) (n : Nat) : ∀ c ∈ tabs n, P c :=
  fun _ hc => List.eq_of_mem_replicate hc ▸ h

theorem length_whenFmt (text : List UInt8) :
    (whenFmt fmt text).length = if fmt then text.length else 0 := by
  cases fmt
  · rfl
  · rfl

/-- An element is not longer than all of them. -/
theorem length_le_composeArray (fmt : Bool) {entries : List (List UInt8)} {entry : List UInt8}
    (h : entry ∈ entries) : entry.length ≤ (composeArray fmt entries).length := by
  induction entries with
  | nil => exact absurd h List.not_mem_nil
  | cons first entries ih =>
    rw [composeArray, List.length_append, List.length_append]
    rcases List.mem_cons.mp h with rfl | hmem
    · omega
    · exact (ih hmem).trans (Nat.le_add_left _ _)

/-- Nor is a name, or the value of a member. -/
theorem length_le_composeObject (fmt : Bool) (depth : Nat)
    {entries : List (List UInt8 × List UInt8)} {entry : List UInt8 × List UInt8}
    (h : entry ∈ entries) :
    entry.1.length + entry.2.length ≤ (composeObject fmt depth entries).length := by
  induction entries with
  | nil => exact absurd h List.not_mem_nil
  | cons first entries ih =>
    obtain ⟨name, value⟩ := first
    simp only [composeObject, List.length_append, List.length_cons]
    rcases List.mem_cons.mp h with rfl | hmem
    · show name.length + value.length ≤ _
      omega
    · exact (ih hmem).trans (Nat.le_add_left _ _)

/-- What `print_array` counts for the elements: not less than is written, and at most twice as much
    and three octets more. Behind each element but the last there is a comma, so the elements are no
    more than the octets and one. -/
theorem sum_arraySizes (fmt : Bool) {entries : List (List UInt8)} (hne : entries ≠ []) :
    (composeArray fmt entries).length ≤
        (entries.map fun entry => entry.length + 2 + if fmt then 1 else 0).sum ∧
      (entries.map fun entry => entry.length + 2 + if fmt then 1 else 0).sum ≤
        2 * (composeArray fmt entries).length + 3 := by
  induction entries with
  | nil => exact absurd rfl hne
  | cons entry entries ih =>
    rw [composeArray, List.map_cons, List.sum_cons, List.length_append, List.length_append]
    by_cases hlast : entries = []
    · subst hlast
      simp only [if_true, composeArray, List.map_nil, List.sum_nil, List.length_nil]
      cases fmt <;> simp only [Bool.false_eq_true, if_true, if_false] <;> omega
    · obtain ⟨hge, hle⟩ := ih hlast
      rw [if_neg hlast, List.length_cons, length_whenFmt, List.length_singleton]
      cases fmt <;> simp only [Bool.false_eq_true, if_true, if_false] at hge hle ⊢ <;> omega

/-- What `print_object` counts for the members is what is written, and the comma that the last one
    does not have. -/
theorem sum_objectSizes (fmt : Bool) (depth : Nat) {entries : List (List UInt8 × List UInt8)}
    (hne : entries ≠ []) :
    (entries.map fun (name, entry) =>
        entry.length + name.length + 2 + if fmt then 2 + depth else 0).sum =
      (composeObject fmt depth entries).length + 1 := by
  induction entries with
  | nil => exact absurd rfl hne
  | cons member entries ih =>
    obtain ⟨name, entry⟩ := member
    rw [composeObject, List.map_cons, List.sum_cons]
    simp only [List.length_append, List.length_cons, length_whenFmt, tabs, List.length_replicate,
      List.length_nil]
    by_cases hlast : entries = []
    · subst hlast
      simp only [if_true, composeObject, List.map_nil, List.sum_nil, List.length_nil]
      cases fmt <;> simp only [Bool.false_eq_true, if_true, if_false] <;> omega
    · rw [ih hlast, if_neg hlast, List.length_singleton]
      cases fmt <;> simp only [Bool.false_eq_true, if_true, if_false] <;> omega

/-- What is printed of an array, of no elements too. -/
def arrayText (fmt : Bool) (entries : List (List UInt8)) : List UInt8 :=
  91 :: composeArray fmt entries ++ [93]

theorem printArray_eq {entries : List (List UInt8)}
    (hmax : (arrayText fmt entries).length + 64 ≤ 2 ^ 30) :
    printArray fmt entries = some (arrayText fmt entries) := by
  rw [printArray]
  split
  next h =>
    rw [h]
    exact fill_eq (by decide) (by decide)
  next hne =>
    obtain ⟨hge, hle⟩ := sum_arraySizes fmt hne
    have hlength : (arrayText fmt entries).length = (composeArray fmt entries).length + 2 := by
      rw [arrayText, List.length_append, List.length_cons, List.length_singleton]
    exact fill_eq (by omega) (show (arrayText fmt entries).length < _ by omega)

/-- What is printed of an object, of no members too. -/
def objectText (fmt : Bool) (depth : Nat) (entries : List (List UInt8 × List UInt8)) :
    List UInt8 :=
  123 :: whenFmt fmt [10] ++ composeObject fmt (depth + 1) entries ++
    whenFmt fmt (tabs depth) ++ [125]

theorem length_objectText (fmt : Bool) (depth : Nat)
    (entries : List (List UInt8 × List UInt8)) :
    (objectText fmt depth entries).length =
      (composeObject fmt (depth + 1) entries).length + 2 + if fmt then depth + 1 else 0 := by
  simp only [objectText, List.length_append, List.length_cons, length_whenFmt, tabs,
    List.length_replicate, List.length_nil]
  cases fmt <;> simp only [Bool.false_eq_true, if_true, if_false] <;> omega

theorem printObject_eq {entries : List (List UInt8 × List UInt8)}
    (hmax : (objectText fmt depth entries).length + 64 ≤ 2 ^ 30) :
    printObject fmt depth entries = some (objectText fmt depth entries) := by
  have hlength := length_objectText fmt depth entries
  rw [printObject]
  split
  next h =>
    subst h
    have hempty : 123 :: whenFmt fmt (10 :: tabs depth) ++ [125] = objectText fmt depth [] := by
      cases fmt
      · rfl
      · simp [objectText, composeObject, whenFmt]
    rw [hempty]
    refine fill_eq ?_ ?_ <;>
      cases fmt <;> simp only [Bool.false_eq_true, if_true, if_false] at hlength ⊢ <;>
        simp only [composeObject, List.length_nil] at hlength <;> omega
  next hne =>
    have hsum := sum_objectSizes fmt (depth + 1) hne
    have hsize : 7 + (if fmt then depth + 1 else 0) +
        (entries.map fun (name, entry) =>
          entry.length + name.length + 2 + if fmt then 2 + (depth + 1) else 0).sum =
        (objectText fmt depth entries).length + 6 := by
      rw [hsum]
      omega
    rw [hsize]
    exact fill_eq (by omega) (show (objectText fmt depth entries).length < _ by omega)

end Compose

/-! ## Values -/

section Values

variable {D : Doubles} {fmt : Bool} {depth : Nat}

mutual

/-- The text of a value, of any length. -/
def textOf (D : Doubles) (fmt : Bool) : Nat → Json → List UInt8
  | _, .null => ascii "null"
  | _, .bool b => if b then ascii "true" else ascii "false"
  | _, .number valueint valuedouble => numberText D valueint valuedouble
  | _, .string s => nameText s
  | depth, .array items => arrayText fmt (itemTexts D fmt (depth + 1) items)
  | depth, .object items => objectText fmt depth (memberTexts D fmt (depth + 1) items)

def itemTexts (D : Doubles) (fmt : Bool) : Nat → List Json → List (List UInt8)
  | _, [] => []
  | depth, item :: items => textOf D fmt depth item :: itemTexts D fmt depth items

def memberTexts (D : Doubles) (fmt : Bool) :
    Nat → List (CString × Json) → List (List UInt8 × List UInt8)
  | _, [] => []
  | depth, (name, item) :: items =>
      (nameText name, textOf D fmt depth item) :: memberTexts D fmt depth items

end

theorem itemTexts_eq_map (items : List Json) :
    itemTexts D fmt depth items = items.map (textOf D fmt depth) := by
  induction items with
  | nil => rw [itemTexts, List.map_nil]
  | cons item items ih => rw [itemTexts, ih, List.map_cons]

theorem memberTexts_eq_map (items : List (CString × Json)) :
    memberTexts D fmt depth items =
      items.map fun item => (nameText item.1, textOf D fmt depth item.2) := by
  induction items with
  | nil => rw [memberTexts, List.map_nil]
  | cons item items ih =>
    obtain ⟨name, item⟩ := item
    rw [memberTexts, ih, List.map_cons]

theorem textOf_array (items : List Json) :
    textOf D fmt depth (.array items) =
      arrayText fmt (items.map (textOf D fmt (depth + 1))) := by
  rw [textOf, itemTexts_eq_map]

theorem textOf_object (items : List (CString × Json)) :
    textOf D fmt depth (.object items) = objectText fmt depth
      (items.map fun item => (nameText item.1, textOf D fmt (depth + 1) item.2)) := by
  rw [textOf, memberTexts_eq_map]

/-- An element's text is shorter than the array's. -/
theorem length_textOf_item (D : Doubles) (fmt : Bool) (depth : Nat) {items : List Json}
    {item : Json} (h : item ∈ items) :
    (textOf D fmt (depth + 1) item).length < (textOf D fmt depth (.array items)).length := by
  have hmem : textOf D fmt (depth + 1) item ∈ items.map (textOf D fmt (depth + 1)) :=
    List.mem_map_of_mem h
  have hle := length_le_composeArray fmt hmem
  rw [textOf_array, arrayText, List.length_append, List.length_cons]
  omega

/-- A member's name and the text of its value are shorter than the object's. -/
theorem length_textOf_member (D : Doubles) (fmt : Bool) (depth : Nat)
    {items : List (CString × Json)} {item : CString × Json} (h : item ∈ items) :
    (nameText item.1).length + (textOf D fmt (depth + 1) item.2).length <
      (textOf D fmt depth (.object items)).length := by
  have hmem : (nameText item.1, textOf D fmt (depth + 1) item.2) ∈
      items.map fun item => (nameText item.1, textOf D fmt (depth + 1) item.2) :=
    List.mem_map_of_mem h
  have hle : (nameText item.1).length + (textOf D fmt (depth + 1) item.2).length ≤ _ :=
    length_le_composeObject fmt (depth + 1) hmem
  rw [textOf_object, length_objectText]
  omega

theorem printItems_eq {items : List Json}
    (h : ∀ item ∈ items, printValue D fmt depth item = some (textOf D fmt depth item)) :
    printItems D fmt depth items = some (items.map (textOf D fmt depth)) := by
  induction items with
  | nil => rw [printItems, List.map_nil]
  | cons item items ih =>
    obtain ⟨hitem, hitems⟩ := List.forall_mem_cons.mp h
    rw [printItems, hitem, Option.bind_eq_bind, Option.bind_some, ih hitems, Option.bind_eq_bind,
      Option.bind_some, List.map_cons]

theorem printMembers_eq {items : List (CString × Json)}
    (hname : ∀ item ∈ items, printStringPtr item.1 = some (nameText item.1))
    (h : ∀ item ∈ items, printValue D fmt depth item.2 = some (textOf D fmt depth item.2)) :
    printMembers D fmt depth items =
      some (items.map fun item => (nameText item.1, textOf D fmt depth item.2)) := by
  induction items with
  | nil => rw [printMembers, List.map_nil]
  | cons item items ih =>
    obtain ⟨name, item⟩ := item
    obtain ⟨hitem, hitems⟩ := List.forall_mem_cons.mp h
    obtain ⟨hfirst, hnames⟩ := List.forall_mem_cons.mp hname
    rw [printMembers, hfirst, Option.bind_eq_bind, Option.bind_some, hitem,
      Option.bind_eq_bind, Option.bind_some, ih hnames hitems, Option.bind_some, List.map_cons]

/-- **What is printed of a tree is its text**, and it stays inside of what is allocated for it,
    if it is no longer than `2 ^ 30` less 64 octets. `textOf` is written down from the tree
    alone, without lengths and buffers; the induction is on the tree, with one case for each
    kind of node. -/
theorem printValue_eq (hD : D.Fits) {v : Json} (hv : Numbers (fun n _ => InInt n) v)
    (hmax : (textOf D fmt depth v).length + 64 ≤ 2 ^ 30) :
    printValue D fmt depth v = some (textOf D fmt depth v) := by
  induction hv generalizing depth with
  | null => rw [printValue, textOf]
  | bool b => cases b <;> rw [printValue, textOf] <;> rfl
  | number h => rw [printValue, textOf, printNumber_eq hD h]
  | string s =>
    rw [textOf] at hmax ⊢
    rw [printValue, printStringPtr_eq hmax]
  | @array items _ ih =>
    have hitems : ∀ item ∈ items,
        printValue D fmt (depth + 1) item = some (textOf D fmt (depth + 1) item) := by
      intro item hitem
      have hlt := length_textOf_item D fmt depth hitem
      exact ih item hitem (by omega)
    rw [textOf_array] at hmax ⊢
    rw [printValue, printItems_eq hitems, Option.bind_eq_bind, Option.bind_some,
      printArray_eq hmax]
  | @object items _ ih =>
    have hnames : ∀ item ∈ items, printStringPtr item.1 = some (nameText item.1) := by
      intro item hitem
      have hlt := length_textOf_member D fmt depth hitem
      exact printStringPtr_eq (by omega)
    have hitems : ∀ item ∈ items,
        printValue D fmt (depth + 1) item.2 = some (textOf D fmt (depth + 1) item.2) := by
      intro item hitem
      have hlt := length_textOf_member D fmt depth hitem
      exact ih item hitem (by omega)
    rw [textOf_object] at hmax ⊢
    rw [printValue, printMembers_eq hnames hitems, Option.bind_eq_bind, Option.bind_some,
      printObject_eq hmax]

end Values

end BaiduJson
end LightDuer
