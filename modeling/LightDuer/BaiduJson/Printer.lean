import LightDuer.Lib.Decimal
import LightDuer.BaiduJson.Parser

/-!
# The JSON printer

`baidu_json_Print` and `baidu_json_PrintUnformatted`, without a buffer (`baidu_json.c`).

Each value is printed to memory of its own, whose size is computed first from what has been printed
of its parts. Two things can go wrong on the way, and both are `none`:

* **the text does not fit** into what has been allocated for it, so that it is written behind it;
* **the size is no `int`.** The sizes are summed up in an `int len`, so a text of `2 ^ 31` octets
  has a size that is another number, or none.

Memory is not short: a refused `malloc` is a printer that prints nothing. `Printed` says for which
trees neither of the two happens.
-/

set_option autoImplicit false

namespace LightDuer
namespace BaiduJson

open Lib
open Ota (Json CString)

/-- Text and the NUL behind it, in so many octets, which are counted in an `int`. -/
def fill (size : Nat) (text : List UInt8) : Option (List UInt8) :=
  if size < 2 ^ 31 ∧ text.length < size then some text else none

/-! ## Strings -/

/-- A character that is not printed as it is. -/
def escaped (c : UInt8) : Bool := c ≤ 31 || c == 34 || c == 92

/-- The letter of an escape of two. -/
def escapeLetter? (c : UInt8) : Option UInt8 :=
  if c = 92 then some 92
  else if c = 34 then some 34
  else if c = 8 then some 98
  else if c = 12 then some 102
  else if c = 10 then some 110
  else if c = 13 then some 114
  else if c = 9 then some 116
  else none

def hexOctet (d : Nat) : UInt8 := UInt8.ofNat (if d < 10 then 48 + d else 87 + d)

/-- What is printed of a character. -/
def printChar (c : UInt8) : List UInt8 :=
  if escaped c then
    92 :: match escapeLetter? c with
      | some letter => [letter]
      | none => [117, 48, 48, hexOctet (c.toNat / 16), hexOctet (c.toNat % 16)]
  else [c]

/-- How much more than one octet is counted for a character. -/
def escapeSize (c : UInt8) : Nat :=
  if (escapeLetter? c).isSome then 1 else if c < 32 then 5 else 0

/-- `print_string_ptr` -/
def printStringPtr (str : CString) : Option (List UInt8) :=
  if str.bytes.any escaped then
    fill ((str.bytes.map fun c => 1 + escapeSize c).sum + 3)
      (34 :: str.bytes.flatMap printChar ++ [34])
  else fill (str.strlen + 3) (34 :: str.bytes ++ [34])

/-! ## Numbers -/

/-- `%d` -/
def printInt (n : Int) : List UInt8 :=
  if n < 0 then 45 :: decimal n.natAbs else decimal n.natAbs

/-- `DBL_EPSILON` -/
def dblEpsilon : ℚ := 1 / 2 ^ 52

/-- Whether the number is printed as an `int`. -/
def isInt (D : Doubles) (valueint : Int) (d : Option ℚ) : Bool :=
  match d with
  | none => false
  | some q =>
      (D.round (valueint - q)).any (fun diff => decide (-dblEpsilon ≤ diff ∧ diff ≤ dblEpsilon)) &&
        decide (q ≤ 2 ^ 31 - 1 ∧ -2 ^ 31 ≤ q)

/-- `print_number` -/
def printNumber (D : Doubles) (valueint : Int) (d : Option ℚ) : Option (List UInt8) :=
  if d = some 0 then fill 2 [48]
  else if isInt D valueint d then fill 21 (printInt valueint)
  else fill 64 (D.write d)

/-! ## Values -/

def tabs (n : Nat) : List UInt8 := List.replicate n 9

/-- What is written if the text is formatted. -/
def whenFmt (fmt : Bool) (text : List UInt8) : List UInt8 := if fmt then text else []

/-- The elements with what stands between them. -/
def composeArray (fmt : Bool) : List (List UInt8) → List UInt8
  | [] => []
  | entry :: entries =>
      entry ++ (if entries = [] then [] else 44 :: whenFmt fmt [32]) ++ composeArray fmt entries

/-- The members with what stands around them. -/
def composeObject (fmt : Bool) (depth : Nat) : List (List UInt8 × List UInt8) → List UInt8
  | [] => []
  | (name, entry) :: entries =>
      whenFmt fmt (tabs depth) ++ name ++ 58 :: whenFmt fmt [9] ++ entry ++
        (if entries = [] then [] else [44]) ++ whenFmt fmt [10] ++
        composeObject fmt depth entries

/-- The end of `print_array`. -/
def printArray (fmt : Bool) (entries : List (List UInt8)) : Option (List UInt8) :=
  if entries = [] then fill 3 (ascii "[]")
  else
    fill (5 + (entries.map fun entry => entry.length + 2 + if fmt then 1 else 0).sum)
      (91 :: composeArray fmt entries ++ [93])

/-- The end of `print_object`; there is a brace in front of as many tabs as the object stands
    behind. -/
def printObject (fmt : Bool) (depth : Nat) (entries : List (List UInt8 × List UInt8)) :
    Option (List UInt8) :=
  if entries = [] then
    fill (if fmt then depth + 4 else 3) (123 :: whenFmt fmt (10 :: tabs depth) ++ [125])
  else
    fill (7 + (if fmt then depth + 1 else 0) +
        (entries.map fun (name, entry) =>
          entry.length + name.length + 2 + if fmt then 2 + (depth + 1) else 0).sum)
      (123 :: whenFmt fmt [10] ++ composeObject fmt (depth + 1) entries ++
        whenFmt fmt (tabs depth) ++ [125])

section Values

variable (D : Doubles) (fmt : Bool)

mutual

/-- `print_value`, with `print_array` and `print_object` -/
def printValue : Nat → Json → Option (List UInt8)
  | _, .null => some (ascii "null")
  | _, .bool false => some (ascii "false")
  | _, .bool true => some (ascii "true")
  | _, .number valueint valuedouble => printNumber D valueint valuedouble
  | _, .string s => printStringPtr s
  | depth, .array items => do printArray fmt (← printItems (depth + 1) items)
  | depth, .object items => do printObject fmt depth (← printMembers (depth + 1) items)

def printItems : Nat → List Json → Option (List (List UInt8))
  | _, [] => some []
  | depth, item :: items => do
      let entry ← printValue depth item
      some (entry :: (← printItems depth items))

def printMembers : Nat → List (CString × Json) → Option (List (List UInt8 × List UInt8))
  | _, [] => some []
  | depth, (name, item) :: items => do
      let name ← printStringPtr name
      let entry ← printValue depth item
      some ((name, entry) :: (← printMembers depth items))

end

/-- `baidu_json_Print` -/
def print (item : Json) : Option (List UInt8) := printValue D true 0 item

/-- `baidu_json_PrintUnformatted` -/
def printUnformatted (item : Json) : Option (List UInt8) := printValue D false 0 item

end Values

end BaiduJson
end LightDuer
