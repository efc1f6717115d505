import LightDuer.BaiduJson.RoundTrip

/-!
# Making a text shorter

`baidu_json_Minify` (`baidu_json.c`) takes white space and comments out of a text, in place, and
keeps strings as they are. To go on behind the NUL is undefined behaviour, `none`: it does so where
a comment or a string does not end, and a text that is printed has neither (`minify_printed`).

The loop reads only forwards, so what it makes of a text that is put together from parts is what it
makes of the parts, if no part ends in the middle of a string or a comment. `Minified text short`
says that of a part: in front of any rest, `text` becomes `short`. White space becomes nothing
(`Minified.blank`), what is neither white space nor a slash nor a quote stays (`Minified.plain`), a
quoted name stays (`Minified.nameText`), and the parts of arrays and objects are put together in the
way the printer does it. So the formatted and the unformatted text of a tree become the same.

The loop has fuel here, the length of the text; each turn takes an octet off
(`minifyLoop_fuel`).
-/

set_option autoImplicit false

namespace LightDuer
namespace BaiduJson

open Lib
open Ota (Json CString)

/-- The loop over a comment of several lines, and the step over its end. -/
def skipComment : List UInt8 → Option (List UInt8)
  | [] => none
  | c :: text => if c = 42 ∧ char text = 47 then some text.tail else skipComment text

/-- The loop over a string, and its quote at the end. -/
def copyString : List UInt8 → Option (List UInt8 × List UInt8)
  | [] => none
  | c :: text =>
      if c = 34 then some ([34], text)
      else if c = 92 then
        match text with
        | [] => none
        | e :: text => (copyString text).map fun (out, rest) => (92 :: e :: out, rest)
      else (copyString text).map fun (out, rest) => (c :: out, rest)

/-- White space, as far as `baidu_json_Minify` knows it. -/
def isBlank (c : UInt8) : Bool := c == 32 || c == 9 || c == 13 || c == 10

/-- The loop of `baidu_json_Minify`. -/
def minifyLoop : Nat → List UInt8 → Option (List UInt8)
  | _, [] => some []
  | 0, _ => none
  | fuel + 1, c :: text =>
      if isBlank c then minifyLoop fuel text
      else if c = 47 ∧ char text = 47 then minifyLoop fuel ((c :: text).dropWhile (· != 10))
      else if c = 47 ∧ char text = 42 then do minifyLoop fuel (← skipComment (c :: text))
      else if c = 34 then do
        let (out, rest) ← copyString text
        (minifyLoop fuel rest).map (34 :: out ++ ·)
      else (minifyLoop fuel text).map (c :: ·)

/-- `baidu_json_Minify` -/
def minify (json : List UInt8) : Option (List UInt8) := minifyLoop json.length json

/-! ## How far the loops go -/

section Fuel

theorem skipComment_length {text rest : List UInt8} (h : skipComment text = some rest) :
    rest.length < text.length := by
  induction text with
  | nil => exact absurd h.symm (Option.some_ne_none rest)
  | cons c text ih =>
    rw [skipComment] at h
    split at h
    · rw [← Option.some.inj h, List.length_tail, List.length_cons]
      omega
    · exact (ih h).trans (Nat.lt_succ_self _)

/-- A string is copied as it is. -/
theorem copyString_eq {text out rest : List UInt8} (h : copyString text = some (out, rest)) :
    text = out ++ rest ∧ out ≠ [] := by
  fun_induction copyString text generalizing out with
  | case1 => exact absurd h.symm (Option.some_ne_none _)
  | case2 =>
    obtain ⟨rfl, rfl⟩ := Prod.mk.inj (Option.some.inj h)
    exact ⟨rfl, List.cons_ne_nil _ _⟩
  | case3 => exact absurd h.symm (Option.some_ne_none _)
  | case4 =>
    rename_i ih
    obtain ⟨⟨out', rest'⟩, hcopy, heq⟩ := Option.map_eq_some_iff.mp h
    obtain ⟨rfl, rfl⟩ := Prod.mk.inj heq
    exact ⟨by rw [(ih hcopy).1]; rfl, List.cons_ne_nil _ _⟩
  | case5 =>
    rename_i ih
    obtain ⟨⟨out', rest'⟩, hcopy, heq⟩ := Option.map_eq_some_iff.mp h
    obtain ⟨rfl, rfl⟩ := Prod.mk.inj heq
    exact ⟨by rw [(ih hcopy).1]; rfl, List.cons_ne_nil _ _⟩

theorem copyString_length {text out rest : List UInt8} (h : copyString text = some (out, rest)) :
    out.length + rest.length = text.length ∧ 0 < out.length := by
  obtain ⟨htext, hne⟩ := copyString_eq h
  exact ⟨by rw [htext, List.length_append], List.length_pos_of_ne_nil hne⟩

/-- Each round reads a character at least. -/
theorem minifyLoop_fuel {text : List UInt8} {fuel fuel' : Nat} (h : text.length ≤ fuel)
    (h' : text.length ≤ fuel') : minifyLoop fuel text = minifyLoop fuel' text := by
  induction fuel generalizing fuel' text with
  | zero =>
    obtain rfl : text = [] := List.eq_nil_of_length_eq_zero (Nat.le_zero.mp h)
    rw [minifyLoop, minifyLoop]
  | succ fuel ih =>
    cases text with
    | nil => rw [minifyLoop, minifyLoop]
    | cons c text =>
      obtain ⟨fuel', rfl⟩ : ∃ n, fuel' = n + 1 := ⟨fuel' - 1, by
        rw [List.length_cons] at h'
        omega⟩
      have hle : text.length ≤ fuel := Nat.le_of_succ_le_succ h
      have hle' : text.length ≤ fuel' := Nat.le_of_succ_le_succ h'
      have hrest : ∀ {rest : List UInt8}, rest.length ≤ text.length →
          minifyLoop fuel rest = minifyLoop fuel' rest := fun hlen =>
        ih (hlen.trans hle) (hlen.trans hle')
      rw [minifyLoop, minifyLoop]
      split
      · exact hrest (Nat.le_refl _)
      split
      next hline =>
        have hdrop : (c :: text).dropWhile (· != 10) = text.dropWhile (· != 10) := by
          rw [hline.1]
          rfl
        rw [hdrop]
        exact hrest (List.dropWhile_suffix _).length_le
      split
      next =>
        cases hskip : skipComment (c :: text) with
        | none => rfl
        | some rest => exact hrest (Nat.le_of_lt_succ (skipComment_length hskip))
      split
      next =>
        cases hcopy : copyString text with
        | none => rfl
        | some copied =>
          obtain ⟨out, rest⟩ := copied
          obtain ⟨hlen, -⟩ := copyString_length hcopy
          have := hrest (show rest.length ≤ text.length by omega)
          simp only [Option.bind_eq_bind, Option.bind_some, this]
      next => rw [hrest (Nat.le_refl _)]

/-- What is written is no longer than what has been read, so that it is written in front of what is
    yet to be read. -/
theorem minifyLoop_length {text out : List UInt8} {fuel : Nat}
    (h : minifyLoop fuel text = some out) : out.length ≤ text.length := by
  induction fuel generalizing text out with
  | zero =>
    cases text with
    | nil =>
      rw [minifyLoop] at h
      rw [← Option.some.inj h]
    | cons c text => exact absurd h.symm (Option.some_ne_none out)
  | succ fuel ih =>
    cases text with
    | nil =>
      rw [minifyLoop] at h
      rw [← Option.some.inj h]
    | cons c text =>
      rw [minifyLoop] at h
      split at h
      · exact (ih h).trans (Nat.le_succ _)
      split at h
      · exact (ih h).trans (List.dropWhile_suffix _).length_le
      split at h
      next =>
        obtain ⟨rest, hskip, h⟩ := Option.bind_eq_some_iff.mp h
        exact (ih h).trans (Nat.le_of_lt (skipComment_length hskip))
      split at h
      next =>
        obtain ⟨⟨out', rest⟩, hcopy, h⟩ := Option.bind_eq_some_iff.mp h
        obtain ⟨more, hmore, rfl⟩ := Option.map_eq_some_iff.mp h
        obtain ⟨hlen, -⟩ := copyString_length hcopy
        have hle := ih hmore
        simp only [List.cons_append, List.length_cons, List.length_append]
        omega
      next =>
        obtain ⟨more, hmore, rfl⟩ := Option.map_eq_some_iff.mp h
        exact Nat.succ_le_succ (ih hmore)

end Fuel

/-! ## What is printed of a tree -/

section Printed

variable {text short : List UInt8}

/-- A text is made the short one, whatever follows. -/
def Minified (text short : List UInt8) : Prop :=
  ∀ rest, minify (text ++ rest) = (minify rest).map (short ++ ·)

theorem Minified.nil : Minified [] [] := fun rest => by
  cases h : minify rest with
  | none => rw [List.nil_append, h, Option.map_none]
  | some out => rw [List.nil_append, h, Option.map_some, List.nil_append]

theorem Minified.append {text' short' : List UInt8} (h : Minified text short)
    (h' : Minified text' short') : Minified (text ++ text') (short ++ short') := fun rest => by
  rw [List.append_assoc, h, h']
  cases minify rest with
  | none => rfl
  | some out => simp only [Option.map_some, List.append_assoc]

theorem Minified.blank (h : ∀ c ∈ text, isBlank c = true) : Minified text [] := by
  induction text with
  | nil => exact .nil
  | cons c text ih =>
    obtain ⟨hc, htext⟩ := List.forall_mem_cons.mp h
    intro rest
    rw [← ih htext rest, minify, List.cons_append, List.length_cons, minifyLoop, if_pos hc, minify]

/-- A character that is kept, wherever it stands outside of a string. -/
def isPlain (c : UInt8) : Bool := !isBlank c && c != 47 && c != 34

theorem Minified.plain (h : ∀ c ∈ text, isPlain c = true) : Minified text text := by
  induction text with
  | nil => exact .nil
  | cons c text ih =>
    obtain ⟨hc, htext⟩ := List.forall_mem_cons.mp h
    intro rest
    simp only [isPlain, Bool.and_eq_true, Bool.not_eq_true', bne_iff_ne] at hc
    obtain ⟨⟨hblank, hslash⟩, hquote⟩ := hc
    have hloop := ih htext rest
    rw [minify] at hloop
    rw [minify, List.cons_append, List.length_cons, minifyLoop,
      if_neg (Bool.not_eq_true _ ▸ hblank), if_neg fun h => hslash h.1, if_neg fun h => hslash h.1,
      if_neg hquote, hloop]
    cases minify rest with
    | none => rfl
    | some out => rfl

theorem copyString_plain {c : UInt8} (h34 : c ≠ 34) (h92 : c ≠ 92) (text : List UInt8) :
    copyString (c :: text) = (copyString text).map fun (out, rest) => (c :: out, rest) := by
  rw [copyString.eq_def]
  simp only [if_neg h34, if_neg h92]

theorem copyString_printChar (c : UInt8) (text : List UInt8) :
    copyString (printChar c ++ text) =
      (copyString text).map fun (out, rest) => (printChar c ++ out, rest) := by
  cases hc : escaped c with
  | false =>
    have h34 : c ≠ 34 := by
      rintro rfl
      exact absurd hc (by decide)
    have h92 : c ≠ 92 := by
      rintro rfl
      exact absurd hc (by decide)
    rw [printChar_of_not_escaped hc]
    exact copyString_plain h34 h92 text
  | true =>
    have hescape : ∀ (e : UInt8) (l : List UInt8), copyString (92 :: e :: l) =
        (copyString l).map fun (out, rest) => (92 :: e :: out, rest) := fun _ _ => rfl
    rcases printChar_of_escaped hc with ⟨letter, hprinted, -, -⟩ | ⟨hprinted, hlt⟩
    · rw [hprinted]
      exact hescape letter text
    · have hhex : ∀ d < 16, hexOctet d ≠ 34 ∧ hexOctet d ≠ 92 := by decide
      obtain ⟨h34, h92⟩ := hhex (c.toNat / 16) (by omega)
      obtain ⟨h34', h92'⟩ := hhex (c.toNat % 16) (Nat.mod_lt _ (by decide))
      have hzero : (48 : UInt8) ≠ 34 ∧ (48 : UInt8) ≠ 92 := by decide
      rw [hprinted]
      simp only [List.cons_append, List.nil_append]
      rw [hescape, copyString_plain hzero.1 hzero.2, copyString_plain hzero.1 hzero.2,
        copyString_plain h34 h92, copyString_plain h34' h92']
      cases copyString text with
      | none => rfl
      | some copied => rfl

theorem copyString_printed (bytes rest : List UInt8) :
    copyString (bytes.flatMap printChar ++ 34 :: rest) =
      some (bytes.flatMap printChar ++ [34], rest) := by
  induction bytes with
  | nil =>
    rw [List.flatMap_nil, List.nil_append, List.nil_append, copyString.eq_def]
    rfl
  | cons c bytes ih =>
    rw [List.flatMap_cons, List.append_assoc, copyString_printChar, ih, Option.map_some,
      List.append_assoc]

/-- A string is kept as it is. -/
theorem Minified.nameText (s : CString) : Minified (nameText s) (nameText s) := fun rest => by
  have htext : BaiduJson.nameText s ++ rest = 34 :: (s.bytes.flatMap printChar ++ 34 :: rest) := by
    rw [BaiduJson.nameText, List.cons_append, List.cons_append, List.append_assoc]
    rfl
  have hfuel : minifyLoop (s.bytes.flatMap printChar ++ 34 :: rest).length rest = minify rest :=
    minifyLoop_fuel (by simp only [List.length_append, List.length_cons]; omega) (Nat.le_refl _)
  have hquote : ¬isBlank 34 = true := by decide
  have hslash : ∀ p : Prop, ¬((34 : UInt8) = 47 ∧ p) := fun p h => absurd h.1 (by decide)
  rw [htext, minify, List.length_cons, minifyLoop, if_neg hquote, if_neg (hslash _),
    if_neg (hslash _), if_pos rfl, copyString_printed]
  simp only [Option.bind_eq_bind, Option.bind_some, hfuel]
  rfl

section Values

variable {D : Doubles} {fmt : Bool} {depth : Nat}

theorem Minified.one {c : UInt8} (h : isPlain c = true) : Minified [c] [c] :=
  .plain (List.forall_mem_singleton.mpr h)

theorem Minified.whenFmt {space : List UInt8} (h : ∀ c ∈ space, isBlank c = true) :
    Minified (whenFmt fmt space) [] := .blank (forall_mem_whenFmt h)

theorem Minified.composeArray {text short' : Json → List UInt8} {items : List Json}
    (h : ∀ item ∈ items, Minified (text item) (short' item)) :
    Minified (composeArray fmt (items.map text)) (composeArray false (items.map short')) := by
  induction items with
  | nil => exact .nil
  | cons item items ih =>
    obtain ⟨hitem, hitems⟩ := List.forall_mem_cons.mp h
    rw [List.map_cons, List.map_cons, BaiduJson.composeArray, BaiduJson.composeArray]
    refine (hitem.append ?_).append (ih hitems)
    cases items with
    | nil => exact .nil
    | cons item items =>
      have hcomma : Minified (44 :: BaiduJson.whenFmt fmt [32]) ([44] ++ []) :=
        (Minified.one (c := 44) rfl).append (.whenFmt (List.forall_mem_singleton.mpr rfl))
      exact hcomma

theorem Minified.composeObject (fmt : Bool) (depth depth' : Nat)
    {text short' : Json → List UInt8} {items : List (CString × Json)}
    (h : ∀ item ∈ items, Minified (text item.2) (short' item.2)) :
    Minified (composeObject fmt depth
        (items.map fun item => (BaiduJson.nameText item.1, text item.2)))
      (composeObject false depth'
        (items.map fun item => (BaiduJson.nameText item.1, short' item.2))) := by
  induction items with
  | nil => exact .nil
  | cons item items ih =>
    obtain ⟨name, item⟩ := item
    obtain ⟨hitem, hitems⟩ := List.forall_mem_cons.mp h
    have hindent : Minified (BaiduJson.whenFmt fmt (tabs depth)) [] :=
      .whenFmt (forall_mem_tabs (P := (isBlank ·)) rfl depth)
    have hcolon : Minified (58 :: BaiduJson.whenFmt fmt [9]) ([58] ++ []) :=
      (Minified.one (c := 58) rfl).append (.whenFmt (List.forall_mem_singleton.mpr rfl))
    have hnewline : Minified (BaiduJson.whenFmt fmt [10]) [] :=
      .whenFmt (List.forall_mem_singleton.mpr rfl)
    have hcomma : Minified
        (if (items.map fun item => (BaiduJson.nameText item.1, text item.2)) = [] then []
          else [44])
        (if (items.map fun item => (BaiduJson.nameText item.1, short' item.2)) = [] then []
          else [44]) := by
      cases items with
      | nil => exact .nil
      | cons item items => exact .one rfl
    have hall := (((((hindent.append (.nameText name)).append hcolon).append hitem).append
      hcomma).append hnewline).append (ih hitems)
    rw [List.map_cons, List.map_cons, BaiduJson.composeObject, BaiduJson.composeObject]
    simpa [BaiduJson.whenFmt] using hall

theorem isPlain_printInt (n : Int) : ∀ c ∈ printInt n, isPlain c = true := by
  have hdigit : ∀ c, isDigit c = true → isPlain c = true :=
    forall_octet (P := fun c => isDigit c = true → isPlain c = true) (by decide +kernel)
  have hdecimal : ∀ c ∈ decimal n.natAbs, isPlain c = true := fun c hc =>
    hdigit c (isDigit_decimal n.natAbs c hc)
  rw [printInt]
  split
  · exact List.forall_mem_cons.mpr ⟨rfl, hdecimal⟩
  · exact hdecimal

/-- What `sprintf` writes of a double has no white space, no slash and no quote in it. -/
def Doubles.WritesPlain (D : Doubles) : Prop := ∀ d, ∀ c ∈ D.write d, isPlain c = true

theorem Minified.number (hwrite : D.WritesPlain) (n : Int) (d : Option ℚ) :
    Minified (numberText D n d) (numberText D n d) := by
  rw [numberText]
  split
  · exact .plain (List.forall_mem_singleton.mpr rfl)
  split
  · exact .plain (isPlain_printInt n)
  · exact .plain (hwrite d)

/-- The text of a tree is made the unformatted text, of any length. -/
theorem minified_textOf (hwrite : D.WritesPlain) {v : Json}
    (hv : Numbers (fun n _ => InInt n) v) (fmt : Bool) (depth depth' : Nat) :
    Minified (textOf D fmt depth v) (textOf D false depth' v) := by
  induction hv generalizing depth depth' with
  | null =>
    rw [textOf, textOf]
    exact .plain (List.all_eq_true.mp (show (ascii "null").all isPlain = true from rfl))
  | bool b =>
    rw [textOf, textOf]
    cases b with
    | false =>
      exact .plain (List.all_eq_true.mp (show (ascii "false").all isPlain = true from rfl))
    | true =>
      exact .plain (List.all_eq_true.mp (show (ascii "true").all isPlain = true from rfl))
  | number h =>
    rw [textOf, textOf]
    exact .number hwrite _ _
  | string s =>
    rw [textOf, textOf]
    exact .nameText s
  | array _ ih =>
    rw [textOf_array, textOf_array, arrayText, arrayText]
    exact ((Minified.one (c := 91) rfl).append
      (.composeArray fun item hitem => ih item hitem _ _)).append (.one (c := 93) rfl)
  | @object items _ ih =>
    rw [textOf_object, textOf_object, objectText, objectText]
    have hopen : Minified (123 :: whenFmt fmt [10]) ([123] ++ []) :=
      (Minified.one (c := 123) rfl).append (.whenFmt (List.forall_mem_singleton.mpr rfl))
    have hclose : Minified (whenFmt fmt (tabs depth)) [] :=
      .whenFmt (forall_mem_tabs (P := (isBlank ·)) rfl depth)
    have hmembers := Minified.composeObject fmt (depth + 1) (depth' + 1)
      fun item (hitem : item ∈ items) => ih item hitem (depth + 1) (depth' + 1)
    have hall := ((hopen.append hmembers).append hclose).append (.one (c := 125) rfl)
    simpa [BaiduJson.whenFmt] using hall

/-- **A text that is printed, formatted or not, is made the unformatted one**, for every tree that
    can be printed in both forms. What is inside of a string is kept, also where it looks like white
    space or a comment; everything else that the two forms differ in is white space. -/
theorem minify_printed (hfits : D.Fits) (hwrite : D.WritesPlain) {v : Json}
    (hv : Numbers (fun n _ => InInt n) v) (hmax : Printable D v) :
    ∃ text, printUnformatted D v = some text ∧ (print D v).bind minify = some text ∧
      (printUnformatted D v).bind minify = some text := by
  have hminify : ∀ fmt, (printValue D fmt 0 v).bind minify = some (textOf D false 0 v) := by
    intro fmt
    have hnil : minify [] = some [] := by rw [minify, minifyLoop]
    have htext := minified_textOf hwrite hv fmt 0 0 []
    rw [List.append_nil, hnil, Option.map_some, List.append_nil] at htext
    rw [printValue_eq hfits hv (hmax fmt), Option.bind_some]
    exact htext
  exact ⟨_, printValue_eq hfits hv (hmax false), hminify true, hminify false⟩

theorem exactDoubles_writesPlain : exactDoubles.WritesPlain := fun _ => List.forall_mem_nil _

theorem minify_printed_treeOfTwo :
    ∃ text, printUnformatted exactDoubles treeOfTwo = some text ∧
      (print exactDoubles treeOfTwo).bind minify = some text ∧
      (printUnformatted exactDoubles treeOfTwo).bind minify = some text :=
  minify_printed exactDoubles_fits exactDoubles_writesPlain
    (treeOfTwo_whole.mono fun _ _ hn => hn.1) treeOfTwo_printable

end Values

end Printed

end BaiduJson
end LightDuer
