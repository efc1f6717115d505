import Mathlib.Data.List.TakeWhile
import LightDuer.Lib.Bytes
import LightDuer.Lib.Decimal
import LightDuer.Ota.Json

/-!
# The JSON parser

`baidu_json_Parse` and what it calls (`baidu_json.c`).

A pointer into the text is what is left of the text, up to its NUL, which is not in the list: to
read through a pointer is `char`, which is 0 at the end, and no function of the parser goes on from
there, so a text that ends in a NUL is never left. Three things are not the text's:

* **Memory is not short.** Every `malloc` of the parser is granted; a refused one is one more way
  to have no tree, and nothing below is about that.
* **The arithmetic of `double` is a parameter** (`Doubles`), and so are `pow` and the conversion to
  `int`. What a result needs of it is said where it is needed (`Doubles.Whole`).
* **The two counters of the parser are `int`** and are modelled with the width they have: the `len`
  of `parse_string`, whose increment is the condition of the loop at the same time, and the
  `subscale` of `parse_number`. So a string of `2 ^ 32` characters ends the count at 0 and not at
  its quote. `countString` is the loop without the width, and `scanString_of_count` says that the
  two agree as long as the count is below `2 ^ 32`.
-/

set_option autoImplicit false

namespace LightDuer
namespace BaiduJson

open Lib
open Ota (Json CString)

/-- The doubles: a number that is not finite is `none`. -/
structure Doubles where
  /-- The double that is nearest. -/
  round : ℚ → Option ℚ
  /-- `pow(10.0, n)` -/
  pow10 : Int → Option ℚ
  /-- `(int)d` -/
  toInt : Option ℚ → Int
  /-- What is printed of a number that is none of `int`. -/
  write : Option ℚ → List UInt8

/-- The character that a pointer points to. -/
def char (text : List UInt8) : UInt8 := text.headD 0

/-- `skip` -/
def skip (text : List UInt8) : List UInt8 := text.dropWhile (· ≤ 32)

/-! ## Numbers -/

/-- `n = (n * 10.0) + digit` -/
def Doubles.next (D : Doubles) (n : Option ℚ) (digit : Nat) : Option ℚ := do
  let shifted ← D.round (10 * (← n))
  D.round (shifted + digit)

/-- The digits in front, taken into a value, and how many they are. -/
def takeDigits {α : Type} (next : α → Nat → α) : α → Nat → List UInt8 → α × Nat × List UInt8
  | n, count, [] => (n, count, [])
  | n, count, c :: rest =>
      match decDigit? c with
      | some d => takeDigits next (next n d) (count + 1) rest
      | none => (n, count, c :: rest)

def isDigit (c : UInt8) : Bool := (decDigit? c).isSome

/-- The part in front of the point. -/
def takeInt (D : Doubles) (num : List UInt8) : Option ℚ × List UInt8 :=
  let num := if char num = 48 then num.tail else num
  if isDigit (char num) ∧ char num ≠ 48 then
    let digits := takeDigits D.next (some 0) 0 num
    (digits.1, digits.2.2)
  else (some 0, num)

/-- The fractional part, and the scale of the number with it. -/
def takeFraction (D : Doubles) (n : Option ℚ) (num : List UInt8) : Option ℚ × Int × List UInt8 :=
  if char num = 46 ∧ isDigit (char num.tail) then
    let digits := takeDigits D.next n 0 num.tail
    (digits.1, -digits.2.1, digits.2.2)
  else (n, 0, num)

/-- The exponent: `subscale * signsubscale`. Both are `int`, so an exponent that is too large for
    one is another exponent. -/
def takeExponent (num : List UInt8) : Int × List UInt8 :=
  if char num = 101 ∨ char num = 69 then
    let num := num.tail
    let (signsubscale, num) : Int × List UInt8 :=
      if char num = 43 then (1, num.tail)
      else if char num = 45 then (-1, num.tail)
      else (1, num)
    let digits := takeDigits (fun subscale d => int32 (subscale * 10 + d)) 0 0 num
    (int32 (digits.1 * signsubscale), digits.2.2)
  else (0, num)

/-- `parse_number` -/
def parseNumber (D : Doubles) (num : List UInt8) : Json × List UInt8 :=
  let (sign, num) : ℚ × List UInt8 := if char num = 45 then (-1, num.tail) else (1, num)
  let (n, num) := takeInt D num
  let (n, scale, num) := takeFraction D n num
  let (subscale, num) := takeExponent num
  let value : Option ℚ := do D.round (sign * (← n) * (← D.pow10 (scale + subscale)))
  (.number (D.toInt value) value, num)

/-! ## Strings -/

/-- `parse_hex4`, the rest of it. -/
def hexDigits : Nat → Nat → List UInt8 → Nat
  | 0, h, _ => h
  | n + 1, h, text =>
      match hexDigit? (char text) with
      | some d => hexDigits n (h * 16 + d) text.tail
      | none => 0

/-- `parse_hex4` -/
def parseHex4 (text : List UInt8) : Nat := hexDigits 4 0 text

/-- The octets of a character in UTF-8, of as many octets as it takes. -/
def utf8 (uc : Nat) : List UInt8 :=
  let trail (uc : Nat) : UInt8 := UInt8.ofNat ((uc ||| 0x80) &&& 0xbf)
  if uc < 0x80 then [UInt8.ofNat uc]
  else if uc < 0x800 then [UInt8.ofNat (uc / 64 ||| 0xc0), trail uc]
  else if uc < 0x10000 then [UInt8.ofNat (uc / 4096 ||| 0xe0), trail (uc / 64), trail uc]
  else [UInt8.ofNat (uc / 262144 ||| 0xf0), trail (uc / 4096), trail (uc / 64), trail uc]

/-- The character of a `\u`, behind which `text` is, and where the text goes on. -/
def parseUnicode (endLen : Nat) (text : List UInt8) : Option (Nat × List UInt8) :=
  let uc := parseHex4 text
  if (text.drop 3).length ≤ endLen then none
  else if (0xdc00 ≤ uc ∧ uc ≤ 0xdfff) ∨ uc = 0 then none
  else if 0xd800 ≤ uc ∧ uc ≤ 0xdbff then
    if (text.drop 3).length < endLen + 6 then none
    else if char (text.drop 4) ≠ 92 ∨ char (text.drop 5) ≠ 117 then none
    else
      let uc2 := parseHex4 (text.drop 6)
      if uc2 < 0xdc00 ∨ 0xdfff < uc2 then none
      else some (0x10000 + (uc % 0x400 * 0x400 ||| uc2 % 0x400), text.drop 10)
  else some (uc, text.drop 4)

/-- The character of an escape of two. -/
def unescape (c : UInt8) : UInt8 :=
  if c = 98 then 8
  else if c = 102 then 12
  else if c = 110 then 10
  else if c = 114 then 13
  else if c = 116 then 9
  else c

/-- The first loop of `parse_string`: how many characters there are, and `end_ptr`. The loop goes on
    while `++len` is not 0, and `len` is an `int`: after `2 ^ 32` characters it is 0 again. A
    backslash is not the last character. -/
def scanString : List UInt8 → Nat → Option (Nat × List UInt8)
  | [], len => some (len, [])
  | c :: text, len =>
      if c = 34 then some (len, c :: text)
      else if u32 (len + 1) = 0 then some (0, c :: text)
      else if c = 92 then
        match text with
        | [] => none
        | _ :: text => scanString text (u32 (len + 1))
      else scanString text (u32 (len + 1))

/-- The same loop with a counter that has no width. -/
def countString : List UInt8 → Nat → Option (Nat × List UInt8)
  | [], len => some (len, [])
  | c :: text, len =>
      if c = 34 then some (len, c :: text)
      else if c = 92 then
        match text with
        | [] => none
        | _ :: text => countString text (len + 1)
      else countString text (len + 1)

theorem countString_le {text endPtr : List UInt8} {len k : Nat}
    (h : countString text k = some (len, endPtr)) : k ≤ len := by
  fun_induction countString text k with
  | case1 k => exact Nat.le_of_eq (congrArg Prod.fst (Option.some.inj h))
  | case2 => exact Nat.le_of_eq (congrArg Prod.fst (Option.some.inj h))
  | case3 => exact absurd h.symm (Option.some_ne_none _)
  | case4 => rename_i ih; exact (Nat.le_succ _).trans (ih h)
  | case5 => rename_i ih; exact (Nat.le_succ _).trans (ih h)

/-- **The width of `len` is not seen** as long as the count is below `2 ^ 32`. -/
theorem scanString_of_count {text endPtr : List UInt8} {len k : Nat}
    (h : countString text k = some (len, endPtr)) (hlen : len < 2 ^ 32) :
    scanString text k = some (len, endPtr) := by
  fun_induction countString text k with
  | case1 => exact h
  | case2 =>
    rw [scanString.eq_def]
    exact h
  | case3 => exact absurd h.symm (Option.some_ne_none _)
  | case4 k _ text hquote ih =>
    have hu : u32 (k + 1) = k + 1 := u32_of_lt ((countString_le h).trans_lt hlen)
    rw [scanString.eq_def]
    simp only [if_neg hquote, hu, if_neg (Nat.succ_ne_zero k), if_true]
    exact ih h
  | case5 c text k hquote hescape ih =>
    have hu : u32 (k + 1) = k + 1 := u32_of_lt ((countString_le h).trans_lt hlen)
    rw [scanString.eq_def]
    simp only [if_neg hquote, if_neg hescape, hu, if_neg (Nat.succ_ne_zero k)]
    exact ih h

/-- Nor is it in a text that is shorter than that. -/
theorem scanString_of_length {text : List UInt8} {k : Nat} (h : k + text.length < 2 ^ 32) :
    scanString text k = countString text k := by
  fun_induction countString text k with
  | case1 => rfl
  | case2 =>
    rw [scanString.eq_def]
    exact if_pos rfl
  | case3 k hquote =>
    have hu : u32 (k + 1) = k + 1 := u32_of_lt h
    rw [scanString.eq_def]
    simp only [if_neg hquote, hu, if_neg (Nat.succ_ne_zero k), if_true]
  | case4 k _ text hquote ih =>
    simp only [List.length_cons] at h
    have hu : u32 (k + 1) = k + 1 := u32_of_lt (by omega)
    rw [scanString.eq_def]
    simp only [if_neg hquote, hu, if_neg (Nat.succ_ne_zero k), if_true]
    exact ih (by omega)
  | case5 c text k hquote hescape ih =>
    rw [List.length_cons] at h
    have hu : u32 (k + 1) = k + 1 := u32_of_lt (by omega)
    rw [scanString.eq_def]
    simp only [if_neg hquote, if_neg hescape, hu, if_neg (Nat.succ_ne_zero k)]
    exact ih (by omega)

/-- The second loop: what has been written to `out`, and the pointer behind the loop, if it comes to
    `end_ptr`. -/
def decodeString (endLen : Nat) : Nat → List UInt8 → List UInt8 → List UInt8 × Option (List UInt8)
  | 0, _, out => (out, none)
  | fuel + 1, ptr, out =>
      if ptr.length ≤ endLen then (out, some ptr)
      else if char ptr ≠ 92 then decodeString endLen fuel ptr.tail (out ++ [char ptr])
      else if char ptr.tail = 117 then
        match parseUnicode endLen ptr.tail.tail with
        | none => (out, none)
        | some (uc, ptr) => decodeString endLen fuel ptr (out ++ utf8 uc)
      else decodeString endLen fuel ptr.tail.tail (out ++ [unescape (char ptr.tail)])

/-- The string in an array. -/
def readCString (buf : List UInt8) : CString where
  bytes := cString buf
  noNul := fun h => by simpa using List.mem_takeWhile_imp h

/-- `parse_string`; `valuestring` has room for as many octets as there are characters, and a NUL. -/
def parseString (str : List UInt8) : Option (CString × List UInt8) :=
  if char str ≠ 34 then none
  else do
    let (_, endPtr) ← scanString str.tail 0
    let (out, ptr) := decodeString endPtr.length (str.length + 1) str.tail []
    let ptr ← ptr
    some (readCString out, if char ptr = 34 then ptr.tail else ptr)

/-! ## Values -/

section Values

variable (D : Doubles)

mutual

/-- `parse_value` -/
def parseValue : Nat → List UInt8 → Option (Json × List UInt8)
  | 0, _ => none
  | fuel + 1, value =>
      if (ascii "null").isPrefixOf value then some (.null, value.drop 4)
      else if (ascii "false").isPrefixOf value then some (.bool false, value.drop 5)
      else if (ascii "true").isPrefixOf value then some (.bool true, value.drop 4)
      else if char value = 34 then (parseString value).map fun (s, rest) => (.string s, rest)
      else if char value = 45 ∨ isDigit (char value) then some (parseNumber D value)
      else if char value = 91 then parseArray fuel value
      else if char value = 123 then parseObject fuel value
      else none

/-- `parse_array` -/
def parseArray : Nat → List UInt8 → Option (Json × List UInt8)
  | 0, _ => none
  | fuel + 1, value => do
      let value := skip value.tail
      if char value = 93 then some (.array [], value.tail)
      else
        let (items, value) ← parseItems fuel value
        if char value = 93 then some (.array items, value.tail) else none

/-- An element, and the loop behind it. -/
def parseItems : Nat → List UInt8 → Option (List Json × List UInt8)
  | 0, _ => none
  | fuel + 1, value => do
      let (item, value) ← parseValue fuel (skip value)
      let value := skip value
      if char value = 44 then
        let (items, value) ← parseItems fuel value.tail
        some (item :: items, value)
      else some ([item], value)

/-- `parse_object` -/
def parseObject : Nat → List UInt8 → Option (Json × List UInt8)
  | 0, _ => none
  | fuel + 1, value => do
      let value := skip value.tail
      if char value = 125 then some (.object [], value.tail)
      else
        let (items, value) ← parseMembers fuel value
        if char value = 125 then some (.object items, value.tail) else none

/-- A member, and the loop behind it. -/
def parseMembers : Nat → List UInt8 → Option (List (CString × Json) × List UInt8)
  | 0, _ => none
  | fuel + 1, value => do
      let (name, value) ← parseString (skip value)
      let value := skip value
      if char value ≠ 58 then none
      else
        let (item, value) ← parseValue fuel (skip value.tail)
        let value := skip value
        if char value = 44 then
          let (items, value) ← parseMembers fuel value.tail
          some ((name, item) :: items, value)
        else some ([(name, item)], value)

end

/-- `baidu_json_ParseWithOpts`: the tree, and where the text goes on. An array or an object calls
    for the next one of these functions twice before it has read a character more. -/
def parseWithOpts (value : List UInt8) (requireNullTerminated : Bool) :
    Option (Json × List UInt8) := do
  let (item, rest) ← parseValue D (2 * value.length + 1) (skip value)
  if requireNullTerminated then
    let rest := skip rest
    if rest = [] then some (item, rest) else none
  else some (item, rest)

/-- `baidu_json_Parse` -/
def parse (value : List UInt8) : Option Json := (parseWithOpts D value false).map (·.1)

end Values

end BaiduJson
end LightDuer
