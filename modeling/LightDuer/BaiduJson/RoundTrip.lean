import Mathlib.Algebra.Order.Ring.Cast
import Mathlib.Algebra.Order.Field.Rat
import Mathlib.Data.List.DropRight
import Mathlib.Tactic.NormNum
import Mathlib.Tactic.Ring
import LightDuer.BaiduJson.Strings

/-!
# Trees in JSON

What is printed of a tree, formatted or not, is parsed to the tree (`parse_printed`).

Two conditions are on the tree. **Its numbers are whole** and of the range of `int`: of any other
number `%f` prints six digits, and it comes back as another one. **Its text is no longer than
`2 ^ 30` less 64 octets**, in either form: the printer and `parse_string` count in an `int`.

The proof is about texts and not about the printer. `ReadAs D text v` says that `text` is read as
`v`, whatever follows it (a number must be followed by something that no number goes on with). There
is one lemma for each constructor of a tree, `ReadAs.null` to `ReadAs.object`, and for the two with
parts there is one for the loop over them (`parseItems_composeArray`, `parseMembers_composeObject`).
White space is all that formatted text has more, and the parser skips it wherever the printer writes
it. So `readAs_textOf` is an induction on the tree with nothing left to do in it.

The parser has fuel here. Twice the length of the text is enough: an element is read by two calls,
and it has at least one octet.
-/

set_option autoImplicit false

namespace LightDuer
namespace BaiduJson

open Lib
open Ota (Json CString)

/-! ## White space -/

section Skip

variable {text : List UInt8}

/-- A text goes on with something else than white space. -/
def Black (text : List UInt8) : Prop := 32 < char text

instance : Decidable (Black text) := inferInstanceAs (Decidable (_ < _))

theorem Black.skip (h : Black text) : skip text = text := by
  cases text with
  | nil => rfl
  | cons c text =>
    have hc : ¬c ≤ 32 := UInt8.not_le.mpr h
    exact List.dropWhile_cons_of_neg (by simpa using hc)

/-- White space is skipped. -/
theorem Black.skip_append (h : Black text) {space : List UInt8} (hspace : ∀ c ∈ space, c ≤ 32) :
    BaiduJson.skip (space ++ text) = text := by
  rw [BaiduJson.skip, List.dropWhile_append_of_pos (by simpa using hspace)]
  exact h.skip

theorem skip_skip (text : List UInt8) : skip (skip text) = skip text :=
  List.dropWhile_idempotent ..

theorem white_whenFmt_one {fmt : Bool} {c : UInt8} (hc : c ≤ 32) :
    ∀ d ∈ whenFmt fmt [c], d ≤ 32 := forall_mem_whenFmt (List.forall_mem_singleton.mpr hc)

theorem white_append {s t : List UInt8} (hs : ∀ c ∈ s, c ≤ 32) (ht : ∀ c ∈ t, c ≤ 32) :
    ∀ c ∈ s ++ t, c ≤ 32 := fun c hc => (List.mem_append.mp hc).elim (hs c) (ht c)

theorem white_whenFmt_tabs {fmt : Bool} (n : Nat) : ∀ c ∈ whenFmt fmt (tabs n), c ≤ 32 :=
  forall_mem_whenFmt (forall_mem_tabs (by decide) n)

end Skip

/-! ## Numbers -/

section Number

/-- A text does not go on with what a number could go on with. -/
def NumberEnds (rest : List UInt8) : Prop :=
  decDigit? (char rest) = none ∧ char rest ≠ 46 ∧ char rest ≠ 101 ∧ char rest ≠ 69

instance (rest : List UInt8) : Decidable (NumberEnds rest) :=
  inferInstanceAs (Decidable (_ ∧ _ ∧ _ ∧ _))

/-- White space does not go on with a number. -/
theorem NumberEnds.append {c : UInt8} (h : NumberEnds [c]) {space : List UInt8}
    (hspace : ∀ c ∈ space, c ≤ 32) (rest : List UInt8) : NumberEnds (space ++ c :: rest) := by
  cases space with
  | nil => exact h
  | cons d space =>
    exact forall_octet (P := fun d => d ≤ 32 → NumberEnds [d]) (by decide +kernel) d
      (hspace d List.mem_cons_self)

theorem takeDigits_append {α : Type} (next : α → Nat → α) {ds : List UInt8}
    (hds : ∀ d ∈ ds, (decDigit? d).isSome = true) {rest : List UInt8} (hrest : NumberEnds rest)
    (n : α) (count : Nat) :
    takeDigits next n count (ds ++ rest) =
      (ds.foldl (fun n d => next n ((decDigit? d).getD 0)) n, count + ds.length, rest) := by
  induction ds generalizing n count with
  | nil =>
    cases rest with
    | nil => rfl
    | cons c rest =>
      have hc : decDigit? c = none := hrest.1
      rw [List.nil_append, takeDigits, hc]
      rfl
  | cons d ds ih =>
    obtain ⟨hd, hds⟩ := List.forall_mem_cons.mp hds
    obtain ⟨digit, hdigit⟩ := Option.isSome_iff_exists.mp hd
    rw [List.cons_append, takeDigits, hdigit]
    simp only
    rw [ih hds, List.foldl_cons, hdigit, List.length_cons, Option.getD_some, Nat.add_assoc,
      Nat.add_comm 1]

/-- Whole numbers up to `2 ^ 53` are doubles, and ten to the power of zero is one. -/
structure Doubles.Whole (D : Doubles) : Prop where
  round_whole : ∀ n : Int, n.natAbs ≤ 2 ^ 53 → D.round (n : ℚ) = some (n : ℚ)
  pow10_zero : D.pow10 0 = some 1
  toInt_whole : ∀ n : Int, InInt n → D.toInt (some (n : ℚ)) = n

variable {D : Doubles}

theorem Doubles.Whole.next (h : D.Whole) {m d : Nat} (hle : m * 10 + d ≤ 2 ^ 53) :
    D.next (some (m : ℚ)) d = some ((m * 10 + d : Nat) : ℚ) := by
  have hten := h.round_whole (10 * m) (by omega)
  have hsum := h.round_whole (10 * m + d) (by omega)
  push_cast at hten hsum ⊢
  rw [Doubles.next]
  simp only [Option.bind_eq_bind, Option.bind_some, hten, hsum]
  rw [mul_comm (10 : ℚ)]

theorem takeInt_decimal (h : D.Whole) {m : Nat} (hle : m ≤ 2 ^ 53) {rest : List UInt8}
    (hrest : NumberEnds rest) : takeInt D (decimal m ++ rest) = (some (m : ℚ), rest) := by
  have hfold := foldl_decimal D.next (fun m => some (m : ℚ))
    (fun m d _ hle => h.next hle) hle
  rcases Nat.eq_zero_or_pos m with rfl | hpos
  · have hnot : ¬(isDigit (char rest) = true ∧ char rest ≠ 48) := by
      simp [isDigit, hrest.1]
    have hzero : decimal 0 = [48] := decimal_of_lt (by decide)
    have hchar : char (48 :: rest) = 48 := rfl
    simp only [takeInt, hzero, List.singleton_append, hchar, if_true, List.tail_cons, if_neg hnot,
      Nat.cast_zero]
  · obtain ⟨d, ds, hdec, hd, hlt⟩ := decimal_head hpos
    have hchar : char (decimal m ++ rest) = digitOctet d := by
      rw [hdec]
      rfl
    have hne : digitOctet d ≠ 48 := by
      have hall : ∀ d < 10, 0 < d → digitOctet d ≠ 48 := by decide
      exact hall d hlt hd
    have hdigit : isDigit (digitOctet d) = true := by
      rw [isDigit, decDigit?_digitOctet hlt]
      rfl
    rw [takeInt]
    simp only [hchar, if_neg hne]
    rw [if_pos ⟨hdigit, hne⟩, takeDigits_append D.next (isDigit_decimal m) hrest]
    simp only
    rw [show (some (0 : ℚ)) = some ((0 : Nat) : ℚ) by rw [Nat.cast_zero], hfold]

theorem parseNumber_printed (h : D.Whole) {n : Int} (hn : InInt n) {rest : List UInt8}
    (hrest : NumberEnds rest) :
    parseNumber D (printInt n ++ rest) = (.number n (some (n : ℚ)), rest) := by
  have habs : n.natAbs ≤ 2 ^ 53 := by
    have := hn.1
    have := hn.2
    omega
  have hint := takeInt_decimal h habs hrest
  have hfraction : ∀ q, takeFraction D q rest = (q, 0, rest) := fun q => by
    rw [takeFraction, if_neg fun hpoint => hrest.2.1 hpoint.1]
  have hexponent : takeExponent rest = (0, rest) := by
    rw [takeExponent, if_neg fun he => he.elim hrest.2.2.1 hrest.2.2.2]
  have hround := h.round_whole n habs
  have htoInt := h.toInt_whole n hn
  by_cases hneg : n < 0
  · have hvalue : (-1 : ℚ) * (n.natAbs : ℚ) * 1 = n := by
      have hcast : ((n.natAbs : Int) : ℚ) = ((-n : Int) : ℚ) := congrArg _ (by omega)
      rw [Int.cast_natCast, Int.cast_neg] at hcast
      rw [hcast]
      ring
    have hchar : char (45 :: (decimal n.natAbs ++ rest)) = 45 := rfl
    rw [parseNumber, printInt, if_pos hneg, List.cons_append, hchar, if_pos rfl]
    simp only [List.tail_cons, hint, hfraction, hexponent, add_zero, h.pow10_zero,
      Option.bind_eq_bind, Option.bind_some, hvalue, hround, htoInt]
  · have hvalue : (1 : ℚ) * (n.natAbs : ℚ) * 1 = n := by
      have hcast : ((n.natAbs : Int) : ℚ) = ((n : Int) : ℚ) := congrArg _ (by omega)
      rw [Int.cast_natCast] at hcast
      rw [hcast]
      ring
    have hchar : char (decimal n.natAbs ++ rest) ≠ 45 := by
      obtain ⟨d, ds, hdec⟩ := List.exists_cons_of_ne_nil (decimal_ne_nil n.natAbs)
      have hdigit := isDigit_decimal n.natAbs d (hdec ▸ List.mem_cons_self)
      rw [hdec]
      rintro rfl
      exact absurd hdigit (by decide)
    rw [parseNumber, printInt, if_neg hneg, if_neg hchar]
    simp only [hint, hfraction, hexponent, add_zero, h.pow10_zero,
      Option.bind_eq_bind, Option.bind_some, hvalue, hround, htoInt]

/-- A whole number is printed as one. -/
theorem numberText_whole (h : D.Whole) {n : Int} (hn : InInt n) :
    numberText D n (some (n : ℚ)) = printInt n := by
  rw [numberText]
  split
  next hzero =>
    obtain rfl : n = 0 := Int.cast_eq_zero.mp (Option.some.inj hzero)
    have htext : printInt 0 = [48] := decimal_of_lt (by decide)
    rw [htext]
  next =>
    have hround := h.round_whole 0 (by decide)
    have hint : isInt D n (some (n : ℚ)) = true := by
      have hle : (n : ℚ) ≤ 2 ^ 31 - 1 := by
        have hcast : (n : ℚ) ≤ ((2 ^ 31 - 1 : Int) : ℚ) := Int.cast_le.mpr (by have := hn.2; omega)
        exact hcast.trans_eq (by norm_num)
      have hge : (-2 ^ 31 : ℚ) ≤ n := by
        have hcast : ((-2 ^ 31 : Int) : ℚ) ≤ n := Int.cast_le.mpr hn.1
        exact le_trans (le_of_eq (by norm_num)) hcast
      rw [Int.cast_zero] at hround
      have heps : -dblEpsilon ≤ 0 ∧ 0 ≤ dblEpsilon := by
        rw [dblEpsilon]
        norm_num
      simp [isInt, hround, heps, hle, hge]
    rw [if_pos hint]

/-- What a whole number is kept as. -/
def IsWhole (n : Int) (d : Option ℚ) : Prop := InInt n ∧ d = some (n : ℚ)

theorem isDigit_toNat {c : UInt8} (h : isDigit c = true) : 48 ≤ c.toNat ∧ c.toNat < 58 :=
  forall_octet (P := fun c => isDigit c = true → 48 ≤ c.toNat ∧ c.toNat < 58) (by decide +kernel)
    c h

theorem char_printInt (n : Int) :
    char (printInt n) = 45 ∨ isDigit (char (printInt n)) = true := by
  rw [printInt]
  split
  · exact .inl rfl
  · obtain ⟨d, ds, hdec⟩ := List.exists_cons_of_ne_nil (decimal_ne_nil n.natAbs)
    rw [hdec]
    exact .inr (isDigit_decimal n.natAbs d (hdec ▸ List.mem_cons_self))

end Number

/-! ## Values -/

section Values

variable {D : Doubles} {fmt : Bool} {depth : Nat}

/-- A text is read as a value, with enough fuel and in front of what no number goes on with. -/
structure ReadAs (D : Doubles) (text : List UInt8) (v : Json) : Prop where
  black : 32 < char text
  notClosing : char text ≠ 93
  parse : ∀ rest, NumberEnds rest → ∀ fuel, 2 * text.length ≤ fuel + 1 →
    parseValue D fuel (text ++ rest) = some (v, rest)

theorem char_append {text : List UInt8} (h : 32 < char text) (rest : List UInt8) :
    char (text ++ rest) = char text := by
  cases text with
  | nil => exact absurd h (by decide)
  | cons c text => rfl

theorem ReadAs.length_pos {text : List UInt8} {v : Json} (h : ReadAs D text v) :
    0 < text.length := by
  cases text with
  | nil => exact absurd h.black (by decide)
  | cons c text => exact Nat.zero_lt_succ _

theorem ReadAs.skip_append {text : List UInt8} {v : Json} (h : ReadAs D text v)
    {space : List UInt8} (hspace : ∀ c ∈ space, c ≤ 32) (rest : List UInt8) :
    skip (space ++ (text ++ rest)) = text ++ rest := by
  have hblack : Black (text ++ rest) := by
    rw [Black, char_append h.black]
    exact h.black
  exact hblack.skip_append hspace

theorem composeArray_cons (entry : List UInt8) {entries : List (List UInt8)} (h : entries ≠ []) :
    composeArray fmt (entry :: entries) =
      entry ++ 44 :: (whenFmt fmt [32] ++ composeArray fmt entries) := by
  rw [composeArray, if_neg h, List.append_assoc]
  rfl

/-- The elements of an array that is not empty. -/
theorem parseItems_composeArray (fmt : Bool) {text : Json → List UInt8} {items : List Json}
    (hne : items ≠ []) (h : ∀ item ∈ items, ReadAs D (text item) item) {space : List UInt8}
    (hspace : ∀ c ∈ space, c ≤ 32) (rest : List UInt8) {fuel : Nat}
    (hfuel : 2 * (composeArray fmt (items.map text)).length ≤ fuel) :
    parseItems D fuel (space ++ (composeArray fmt (items.map text) ++ 93 :: rest)) =
      some (items, 93 :: rest) := by
  induction items generalizing space fuel with
  | nil => exact absurd rfl hne
  | cons item items ih =>
    obtain ⟨hitem, hitems⟩ := List.forall_mem_cons.mp h
    have hpos := hitem.length_pos
    by_cases hlast : items = []
    · subst hlast
      have hone : composeArray fmt ([item].map text) = text item := by
        simp [composeArray]
      have hends : NumberEnds (93 :: rest) := (by decide : NumberEnds [93])
      have hblack : Black (93 :: rest) := (by decide : Black [93])
      have hchar : char (93 :: rest) ≠ 44 := (by decide : (93 : UInt8) ≠ 44)
      rw [hone] at hfuel ⊢
      obtain ⟨fuel, rfl⟩ : ∃ n, fuel = n + 1 := ⟨fuel - 1, by omega⟩
      rw [parseItems, hitem.skip_append hspace, hitem.parse _ hends fuel (by omega)]
      simp only [Option.bind_eq_bind, Option.bind_some, hblack.skip, if_neg hchar]
    · have hmore : items.map text ≠ [] := by simpa using hlast
      rw [List.map_cons, composeArray_cons _ hmore] at hfuel ⊢
      simp only [List.length_append, List.length_cons] at hfuel
      obtain ⟨fuel, rfl⟩ : ∃ n, fuel = n + 1 := ⟨fuel - 1, by omega⟩
      have hwhite : ∀ c ∈ whenFmt fmt [32], c ≤ 32 := white_whenFmt_one (by decide)
      have hends : ∀ t, NumberEnds (44 :: t) := fun _ => (by decide : NumberEnds [44])
      have hblack : ∀ t, Black (44 :: t) := fun _ => (by decide : Black [44])
      have hchar : ∀ t : List UInt8, char (44 :: t) = 44 := fun _ => rfl
      rw [List.append_assoc, List.cons_append, List.append_assoc, parseItems,
        hitem.skip_append hspace, hitem.parse _ (hends _) fuel (by omega)]
      simp only [Option.bind_eq_bind, Option.bind_some, (hblack _).skip, hchar, if_true,
        List.tail_cons]
      rw [ih hlast hitems hwhite (by omega)]
      rfl

theorem skip_nameText {space : List UInt8} (hspace : ∀ c ∈ space, c ≤ 32) (name : CString)
    (rest : List UInt8) : skip (space ++ (nameText name ++ rest)) = nameText name ++ rest := by
  have hblack : Black (nameText name ++ rest) := (by decide : Black [34])
  exact hblack.skip_append hspace

theorem composeObject_last (name entry : List UInt8) :
    composeObject fmt depth [(name, entry)] =
      whenFmt fmt (tabs depth) ++ (name ++ 58 :: (whenFmt fmt [9] ++ (entry ++ whenFmt fmt [10])))
    := by
  simp [composeObject]

theorem composeObject_cons (name entry : List UInt8) {entries : List (List UInt8 × List UInt8)}
    (h : entries ≠ []) :
    composeObject fmt depth ((name, entry) :: entries) =
      whenFmt fmt (tabs depth) ++ (name ++ 58 :: (whenFmt fmt [9] ++
        (entry ++ 44 :: (whenFmt fmt [10] ++ composeObject fmt depth entries)))) := by
  simp [composeObject, h]

/-- One member, with white space in front of its name and of its value. -/
theorem parseMembers_member {text : List UInt8} {item : Json} (h : ReadAs D text item)
    {name : CString} (hname : (nameText name).length < 2 ^ 31) {fuel : Nat}
    (hfuel : 2 * text.length ≤ fuel + 1) {space gap : List UInt8}
    (hspace : ∀ c ∈ space, c ≤ 32) (hgap : ∀ c ∈ gap, c ≤ 32) {rest : List UInt8}
    (hrest : NumberEnds rest) :
    parseMembers D (fuel + 1) (space ++ (nameText name ++ 58 :: (gap ++ (text ++ rest)))) =
      if char (skip rest) = 44 then
        (parseMembers D fuel (skip rest).tail).map fun members =>
          ((name, item) :: members.1, members.2)
      else some ([(name, item)], skip rest) := by
  have hcolon : Black (58 :: (gap ++ (text ++ rest))) := (by decide : Black [58])
  have hchar : ¬char (58 :: (gap ++ (text ++ rest))) ≠ 58 := not_not_intro rfl
  rw [parseMembers, skip_nameText hspace, parseString_printed hname]
  simp only [Option.bind_eq_bind, Option.bind_some, hcolon.skip, if_neg hchar, List.tail_cons,
    h.skip_append hgap, h.parse rest hrest fuel hfuel]
  split
  · cases parseMembers D fuel (skip rest).tail with
    | none => rfl
    | some members => rfl
  · rfl

/-- The members of an object that is not empty. -/
theorem parseMembers_composeObject (fmt : Bool) (depth : Nat) {text : Json → List UInt8}
    {items : List (CString × Json)} (hne : items ≠ [])
    (hnames : ∀ item ∈ items, (nameText item.1).length < 2 ^ 31)
    (h : ∀ item ∈ items, ReadAs D (text item.2) item.2) {space after : List UInt8}
    (hspace : ∀ c ∈ space, c ≤ 32) (hafter : ∀ c ∈ after, c ≤ 32) (rest : List UInt8)
    {fuel : Nat} (hfuel : 2 * (composeObject fmt depth
      (items.map fun item => (nameText item.1, text item.2))).length ≤ fuel) :
    parseMembers D fuel (space ++ (composeObject fmt depth
        (items.map fun item => (nameText item.1, text item.2)) ++ (after ++ 125 :: rest))) =
      some (items, 125 :: rest) := by
  have htabs : ∀ c ∈ whenFmt fmt (tabs depth), c ≤ 32 := white_whenFmt_tabs depth
  have hgap : ∀ c ∈ whenFmt fmt [9], c ≤ 32 := white_whenFmt_one (by decide)
  have hnewline : ∀ c ∈ whenFmt fmt [10], c ≤ 32 := white_whenFmt_one (by decide)
  induction items generalizing space fuel with
  | nil => exact absurd rfl hne
  | cons item items ih =>
    obtain ⟨name, item⟩ := item
    obtain ⟨hitem, hitems⟩ := List.forall_mem_cons.mp h
    obtain ⟨hname, hnames⟩ := List.forall_mem_cons.mp hnames
    have hpos := hitem.length_pos
    have hindent := white_append hspace htabs
    by_cases hlast : items = []
    · subst hlast
      have hend := white_append hnewline hafter
      have hblack : Black (125 :: rest) := (by decide : Black [125])
      have hchar : char (125 :: rest) ≠ 44 := (by decide : (125 : UInt8) ≠ 44)
      rw [List.map_singleton, composeObject_last] at hfuel ⊢
      simp only [List.length_append, List.length_cons] at hfuel
      obtain ⟨fuel, rfl⟩ : ∃ n, fuel = n + 1 := ⟨fuel - 1, by omega⟩
      have hends : NumberEnds [125] := by decide
      have hmember := parseMembers_member hitem hname (show 2 * (text item).length ≤ fuel + 1 by
        omega) hindent hgap (hends.append hend rest)
      rw [hblack.skip_append hend, if_neg hchar] at hmember
      simpa only [List.append_assoc, List.cons_append] using hmember
    · have hmore : (items.map fun item => (nameText item.1, text item.2)) ≠ [] := by
        simpa using hlast
      rw [List.map_cons, composeObject_cons _ _ hmore] at hfuel ⊢
      simp only [List.length_append, List.length_cons] at hfuel
      obtain ⟨fuel, rfl⟩ : ∃ n, fuel = n + 1 := ⟨fuel - 1, by omega⟩
      have hends : ∀ t, NumberEnds (44 :: t) := fun _ => (by decide : NumberEnds [44])
      have hblack : ∀ t, Black (44 :: t) := fun _ => (by decide : Black [44])
      have hchar : ∀ t : List UInt8, char (44 :: t) = 44 := fun _ => rfl
      have hrest := ih hlast hnames hitems hnewline (show _ ≤ fuel by omega)
      have hmember := parseMembers_member hitem hname (show 2 * (text item).length ≤ fuel + 1 by
        omega) hindent hgap (hends (whenFmt fmt [10] ++ (composeObject fmt depth
          (items.map fun item => (nameText item.1, text item.2)) ++ (after ++ 125 :: rest))))
      rw [(hblack _).skip, hchar, if_pos rfl, List.tail_cons, hrest] at hmember
      simpa only [List.append_assoc, List.cons_append, Option.map_some] using hmember

theorem not_isPrefixOf {c : UInt8} {name text : List UInt8} (h : char text ≠ c) :
    (c :: name).isPrefixOf text = false := by
  cases text with
  | nil => rfl
  | cons d text =>
    have hne : (c == d) = false := beq_false_of_ne fun heq => h heq.symm
    rw [List.isPrefixOf, hne, Bool.false_and]

/-- A value that is none of the three words. -/
theorem parseValue_of_char {value : List UInt8} (hn : char value ≠ 110) (hf : char value ≠ 102)
    (ht : char value ≠ 116) (fuel : Nat) :
    parseValue D (fuel + 1) value =
      if char value = 34 then (parseString value).map fun (s, rest) => (.string s, rest)
      else if char value = 45 ∨ isDigit (char value) then some (parseNumber D value)
      else if char value = 91 then parseArray D fuel value
      else if char value = 123 then parseObject D fuel value
      else none := by
  have hnull : ¬(ascii "null").isPrefixOf value = true := by
    rw [show ascii "null" = 110 :: ascii "ull" from rfl, not_isPrefixOf hn]
    exact Bool.false_ne_true
  have hfalse : ¬(ascii "false").isPrefixOf value = true := by
    rw [show ascii "false" = 102 :: ascii "alse" from rfl, not_isPrefixOf hf]
    exact Bool.false_ne_true
  have htrue : ¬(ascii "true").isPrefixOf value = true := by
    rw [show ascii "true" = 116 :: ascii "rue" from rfl, not_isPrefixOf ht]
    exact Bool.false_ne_true
  rw [parseValue, if_neg hnull, if_neg hfalse, if_neg htrue]

theorem exists_fuel {text : List UInt8} {k fuel : Nat} (h : k ≤ 2 * text.length - 1)
    (hfuel : 2 * text.length ≤ fuel + 1) : ∃ n, fuel = n + k := ⟨fuel - k, by omega⟩

theorem ReadAs.null : ReadAs D (ascii "null") .null where
  black := by decide
  notClosing := by decide
  parse rest _ fuel hfuel := by
    obtain ⟨fuel, rfl⟩ := exists_fuel (show 1 ≤ 2 * (ascii "null").length - 1 by decide) hfuel
    rw [parseValue, if_pos]
    · rfl
    · rfl

theorem ReadAs.bool (b : Bool) : ReadAs D (if b then ascii "true" else ascii "false") (.bool b) :=
  by
  cases b with
  | false =>
    refine ⟨by decide, by decide, fun rest _ fuel hfuel => ?_⟩
    obtain ⟨fuel, rfl⟩ := exists_fuel (k := 1) (by decide) hfuel
    rw [parseValue, if_neg, if_pos]
    · rfl
    · rfl
    · exact Bool.false_ne_true
  | true =>
    refine ⟨by decide, by decide, fun rest _ fuel hfuel => ?_⟩
    obtain ⟨fuel, rfl⟩ := exists_fuel (k := 1) (by decide) hfuel
    rw [parseValue, if_neg, if_neg, if_pos]
    · rfl
    · rfl
    · exact Bool.false_ne_true
    · exact Bool.false_ne_true

theorem ReadAs.string {s : CString} (hshort : (nameText s).length < 2 ^ 31) :
    ReadAs D (nameText s) (.string s) where
  black := (by decide : Black [34])
  notClosing := (by decide : (34 : UInt8) ≠ 93)
  parse rest _ fuel hfuel := by
    have hlen : 1 ≤ 2 * (nameText s).length - 1 := by
      rw [nameText, List.cons_append, List.length_cons]
      omega
    obtain ⟨fuel, rfl⟩ := exists_fuel hlen hfuel
    have hchar : char (nameText s ++ rest) = 34 := rfl
    rw [parseValue_of_char (by rw [hchar]; decide) (by rw [hchar]; decide)
      (by rw [hchar]; decide), if_pos hchar, parseString_printed hshort]
    rfl

theorem ReadAs.number (h : D.Whole) {n : Int} (hn : InInt n) :
    ReadAs D (printInt n) (.number n (some (n : ℚ))) := by
  have hchar := char_printInt n
  have hrange : 44 < (char (printInt n)).toNat ∧ (char (printInt n)).toNat < 58 := by
    rcases hchar with hminus | hdigit
    · rw [hminus]
      decide
    · obtain ⟨hge, hlt⟩ := isDigit_toNat hdigit
      exact ⟨by omega, hlt⟩
  have hne : ∀ c : UInt8, c.toNat < 45 ∨ 57 < c.toNat → char (printInt n) ≠ c := by
    rintro c hc rfl
    omega
  have hblack : 32 < char (printInt n) := UInt8.lt_iff_toNat_lt.mpr (by
    have : (32 : UInt8).toNat = 32 := rfl
    omega)
  refine ⟨hblack, hne 93 (by decide), fun rest hrest fuel hfuel => ?_⟩
  have happend := char_append hblack rest
  have hpos : 0 < (printInt n).length := by
    cases hnil : printInt n with
    | nil =>
      rw [hnil] at hblack
      exact absurd hblack (by decide)
    | cons c text => exact Nat.zero_lt_succ _
  obtain ⟨fuel, rfl⟩ := exists_fuel (show 1 ≤ 2 * (printInt n).length - 1 by omega) hfuel
  rw [parseValue_of_char (happend ▸ hne 110 (by decide)) (happend ▸ hne 102 (by decide))
    (happend ▸ hne 116 (by decide)), happend, if_neg (hne 34 (by decide)), if_pos hchar,
    parseNumber_printed h hn hrest]

theorem char_composeArray (fmt : Bool) {text : Json → List UInt8} {items : List Json}
    (hne : items ≠ []) (h : ∀ item ∈ items, ReadAs D (text item) item) :
    32 < char (composeArray fmt (items.map text)) ∧
      char (composeArray fmt (items.map text)) ≠ 93 := by
  obtain ⟨item, items, rfl⟩ := List.exists_cons_of_ne_nil hne
  have hitem := h item List.mem_cons_self
  rw [List.map_cons, composeArray, List.append_assoc, char_append hitem.black]
  exact ⟨hitem.black, hitem.notClosing⟩

theorem char_skip_composeObject (fmt : Bool) (depth : Nat) {space : List UInt8}
    (hspace : ∀ c ∈ space, c ≤ 32)
    (name : CString) (entry : List UInt8) (entries : List (List UInt8 × List UInt8))
    (rest : List UInt8) :
    char (skip (space ++ (composeObject fmt depth ((nameText name, entry) :: entries) ++ rest))) =
      34 := by
  have hindent : ∀ c ∈ space ++ whenFmt fmt (tabs depth), c ≤ 32 :=
    white_append hspace (white_whenFmt_tabs depth)
  simp only [composeObject, List.append_assoc]
  rw [← List.append_assoc, skip_nameText hindent]
  rfl

theorem ReadAs.array {text : Json → List UInt8} {items : List Json}
    (h : ∀ item ∈ items, ReadAs D (text item) item) :
    ReadAs D (arrayText fmt (items.map text)) (.array items) where
  black := (by decide : Black [91])
  notClosing := (by decide : (91 : UInt8) ≠ 93)
  parse rest _ fuel hfuel := by
    rw [arrayText] at hfuel ⊢
    simp only [List.cons_append, List.length_cons, List.length_append, List.length_nil] at hfuel
    obtain ⟨fuel, rfl⟩ : ∃ n, fuel = n + 2 := ⟨fuel - 2, by omega⟩
    have hvalue : 91 :: composeArray fmt (items.map text) ++ [93] ++ rest =
        91 :: (composeArray fmt (items.map text) ++ 93 :: rest) := by
      simp only [List.cons_append, List.append_assoc, List.nil_append]
    have hchar : ∀ l : List UInt8, char (91 :: l) = 91 := fun _ => rfl
    rw [hvalue, parseValue_of_char (by rw [hchar]; decide) (by rw [hchar]; decide)
      (by rw [hchar]; decide), hchar, if_neg (by decide), if_neg (by decide), if_pos rfl,
      parseArray, List.tail_cons]
    by_cases hnil : items = []
    · subst hnil
      rfl
    · obtain ⟨hblack, hopen⟩ := char_composeArray fmt hnil h
      have happend := char_append hblack (93 :: rest)
      have hskip : Black (composeArray fmt (items.map text) ++ 93 :: rest) := by
        rw [Black, happend]
        exact hblack
      have hitems := parseItems_composeArray fmt hnil h (List.forall_mem_nil _) rest
        (show _ ≤ fuel by omega)
      rw [List.nil_append] at hitems
      simp only [hskip.skip, happend, if_neg hopen, hitems, Option.bind_eq_bind, Option.bind_some]
      rfl

theorem parseMembers_skip (fuel : Nat) (value : List UInt8) :
    parseMembers D fuel (skip value) = parseMembers D fuel value := by
  cases fuel with
  | zero => rfl
  | succ fuel => rw [parseMembers, parseMembers, skip_skip]

theorem ReadAs.object {text : Json → List UInt8} {items : List (CString × Json)}
    (hnames : ∀ item ∈ items, (nameText item.1).length < 2 ^ 31)
    (h : ∀ item ∈ items, ReadAs D (text item.2) item.2) :
    ReadAs D (objectText fmt depth (items.map fun item => (nameText item.1, text item.2)))
      (.object items) where
  black := (by decide : Black [123])
  notClosing := (by decide : (123 : UInt8) ≠ 93)
  parse rest _ fuel hfuel := by
    rw [objectText] at hfuel ⊢
    simp only [List.cons_append, List.length_cons, List.length_append, List.length_nil] at hfuel
    obtain ⟨fuel, rfl⟩ : ∃ n, fuel = n + 2 := ⟨fuel - 2, by omega⟩
    have hnewline : ∀ c ∈ whenFmt fmt [10], c ≤ 32 := white_whenFmt_one (by decide)
    have hclose : ∀ c ∈ whenFmt fmt (tabs depth), c ≤ 32 := white_whenFmt_tabs depth
    have hblack : Black (125 :: rest) := (by decide : Black [125])
    have hchar : ∀ l : List UInt8, char (123 :: l) = 123 := fun _ => rfl
    simp only [List.cons_append, List.append_assoc, List.nil_append]
    rw [parseValue_of_char (by rw [hchar]; decide) (by rw [hchar]; decide)
      (by rw [hchar]; decide), hchar, if_neg (by decide), if_neg (by decide), if_neg (by decide),
      if_pos rfl, parseObject, List.tail_cons]
    cases items with
    | nil =>
      rw [List.map_nil, composeObject, List.nil_append, ← List.append_assoc,
        hblack.skip_append (white_append hnewline hclose)]
      rfl
    | cons item items =>
      obtain ⟨name, item⟩ := item
      have hmembers := parseMembers_composeObject fmt (depth + 1)
        (List.cons_ne_nil _ _) hnames h hnewline hclose rest (show _ ≤ fuel by omega)
      have hquote := char_skip_composeObject fmt (depth + 1) hnewline name
        (text item) (items.map fun item => (nameText item.1, text item.2))
        (whenFmt fmt (tabs depth) ++ 125 :: rest)
      simp only [parseMembers_skip, hmembers, Option.bind_eq_bind, Option.bind_some]
      rw [if_neg (by rw [List.map_cons, hquote]; decide)]
      rfl

/-- A tree whose numbers are whole, in the text that is printed of it. -/
theorem readAs_textOf (hD : D.Whole) {v : Json} (hv : Numbers IsWhole v) (fmt : Bool)
    (depth : Nat) (hshort : (textOf D fmt depth v).length < 2 ^ 31) :
    ReadAs D (textOf D fmt depth v) v := by
  induction hv generalizing depth with
  | null =>
    rw [textOf]
    exact .null
  | bool b =>
    rw [textOf]
    exact .bool b
  | number h =>
    obtain ⟨hn, rfl⟩ := h
    rw [textOf, numberText_whole hD hn]
    exact .number hD hn
  | string s =>
    rw [textOf] at hshort ⊢
    exact .string hshort
  | @array items _ ih =>
    have hitems : ∀ item ∈ items, ReadAs D (textOf D fmt (depth + 1) item) item :=
      fun item hitem =>
        ih item hitem (depth + 1) ((length_textOf_item D fmt depth hitem).trans hshort)
    rw [textOf_array]
    exact .array hitems
  | @object items _ ih =>
    have hlt : ∀ item ∈ items,
        (nameText item.1).length + (textOf D fmt (depth + 1) item.2).length < 2 ^ 31 :=
      fun item hitem => (length_textOf_member D fmt depth hitem).trans hshort
    have hnames : ∀ item ∈ items, (nameText item.1).length < 2 ^ 31 := fun item hitem =>
      (Nat.le_add_right _ _).trans_lt (hlt item hitem)
    have hitems : ∀ item ∈ items, ReadAs D (textOf D fmt (depth + 1) item.2) item.2 :=
      fun item hitem =>
        ih item hitem (depth + 1) ((Nat.le_add_left _ _).trans_lt (hlt item hitem))
    rw [textOf_object]
    exact .object hnames hitems

/-- A tree that the printer can print, formatted and unformatted: no size is more than an `int`. -/
def Printable (D : Doubles) (v : Json) : Prop :=
  ∀ fmt, (textOf D fmt 0 v).length + 64 ≤ 2 ^ 30

/-- **What is printed of a tree is parsed to the tree**, formatted or not, if its numbers are whole
    and its texts are no longer than `2 ^ 30` less 64 octets. A number that is not whole is printed
    with so many digits only, and then what is read need not be what was printed. -/
theorem parse_printed (hfits : D.Fits) (hD : D.Whole) {v : Json} (hv : Numbers IsWhole v)
    (hmax : Printable D v) :
    (print D v).bind (parse D) = some v ∧ (printUnformatted D v).bind (parse D) = some v := by
  have hparse : ∀ fmt, (printValue D fmt 0 v).bind (parse D) = some v := by
    intro fmt
    have hlength := hmax fmt
    have hread := readAs_textOf hD hv fmt 0 (by omega)
    have hskip : skip (textOf D fmt 0 v) = textOf D fmt 0 v := Black.skip hread.black
    have hvalue := hread.parse [] (by decide) (2 * (textOf D fmt 0 v).length + 1) (by omega)
    rw [List.append_nil] at hvalue
    rw [printValue_eq hfits (hv.mono fun _ _ hn => hn.1) hlength, Option.bind_some, parse,
      parseWithOpts, hskip, hvalue]
    rfl
  exact ⟨hparse true, hparse false⟩

/-- Doubles that are not rounded. -/
def exactDoubles : Doubles where
  round := some
  pow10 := fun n => some (10 ^ n)
  toInt := fun d => (d.getD 0).num.tdiv (d.getD 0).den
  write := fun _ => []

theorem exactDoubles_fits : exactDoubles.Fits := fun _ => Nat.zero_lt_succ 63

theorem exactDoubles_whole : exactDoubles.Whole where
  round_whole _ _ := rfl
  pow10_zero := rfl
  toInt_whole n _ := by
    simp [exactDoubles]

/-- An object with an array in it. -/
def treeOfTwo : Json :=
  .object [(⟨[97], by decide⟩, .array [.number 1 (some 1), .number (-20) (some (-20))]),
    (⟨[98, 34], by decide⟩, .object [])]

theorem treeOfTwo_whole : Numbers IsWhole treeOfTwo := by
  refine .object (List.forall_mem_cons.mpr ⟨.array ?_, List.forall_mem_singleton.mpr (.object ?_)⟩)
  · refine List.forall_mem_cons.mpr ⟨.number ⟨by norm_num [InInt], by norm_num⟩, ?_⟩
    exact List.forall_mem_singleton.mpr (.number ⟨by norm_num [InInt], by norm_num⟩)
  · exact List.forall_mem_nil _

theorem treeOfTwo_printable : Printable exactDoubles treeOfTwo := by
  intro fmt
  cases fmt
  · decide +kernel
  · decide +kernel

theorem parse_printed_treeOfTwo :
    (print exactDoubles treeOfTwo).bind (parse exactDoubles) = some treeOfTwo ∧
      (printUnformatted exactDoubles treeOfTwo).bind (parse exactDoubles) = some treeOfTwo :=
  parse_printed exactDoubles_fits exactDoubles_whole treeOfTwo_whole treeOfTwo_printable

end Values

end BaiduJson
end LightDuer
