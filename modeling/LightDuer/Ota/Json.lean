import LightDuer.Lib.Text
import Mathlib.Data.Rat.Defs

/-!
# JSON trees

What `baidu_json_Parse` and `cJSON_Parse` make of a text. The two parsers build the same nodes: a
node has its children in a list, a member of an object has a name in `string`, an element of an
array has `NULL` there; `valuestring` is `NULL` but for strings. Names may repeat.

## Strings

A `CString` is what the program takes for a string, the octets up to its NUL, and it carries the
proof that there is no NUL in it. What is in memory is `CString.array`, one octet longer. The
difference matters wherever a string is copied with a fixed length: `cString_take_append` says for
which lengths such a copy is the string again.

## Trees

The fields of a node are read without a look at its type. So `valuestring` and `valueint` are
functions of every node, with the value that the parser has left there: `NULL` and 0 where it has
set nothing, and 1 for `true`. Where a name repeats, loops over the children take the last child of
that name; `lastNamed` is that child, for any way of comparing names.
-/

set_option autoImplicit false

namespace LightDuer
namespace Ota

open Lib (ascii)

/-- A C string, without the NUL that ends it. -/
structure CString where
  bytes : List UInt8
  noNul : 0 ∉ bytes
deriving DecidableEq

namespace CString

/-- `strlen` -/
def strlen (s : CString) : Nat := s.bytes.length

/-- The array that holds the string. -/
def array (s : CString) : List UInt8 := s.bytes ++ [0]

@[simp] theorem array_length (s : CString) : s.array.length = s.strlen + 1 := by
  simp [array, strlen]

/-- The string of a literal. -/
def lit (s : String) : CString := ⟨(ascii s).filter (· ≠ 0), by simp⟩

/-- **Copied whole**, with the NUL or up to the end of it, into an array that ends in a NUL. -/
theorem cString_take_append {s : CString} {n : Nat} (h₁ : s.strlen ≤ n) (h₂ : n ≤ s.strlen + 1) :
    Lib.cString (s.array.take n ++ [0]) = s.bytes := by
  have hnul : ∀ b ∈ s.bytes, (b != 0) = true := fun b hb => by
    have hne : b ≠ 0 := fun h => s.noNul (h ▸ hb)
    simpa using hne
  have hcut : s.array.take n = s.bytes ++ [0].take (n - s.strlen) := by
    rw [array, List.take_append, List.take_of_length_le h₁]
    rfl
  rw [hcut, Lib.cString, List.append_assoc, List.takeWhile_append_of_pos hnul]
  rcases Nat.lt_or_ge s.strlen n with hn | hn
  · rw [List.take_of_length_le (by simp; omega)]
    simp
  · rw [Nat.sub_eq_zero_of_le hn]
    simp

end CString

/-- A node. A number that is not finite has no value. -/
inductive Json
  | null
  | bool (b : Bool)
  | number (valueint : Int) (valuedouble : Option ℚ)
  | string (valuestring : CString)
  | array (items : List Json)
  | object (items : List (CString × Json))

namespace Json

/-- The list at `child`, each node with its `string`. -/
def children : Json → List (Option CString × Json)
  | .array items => items.map fun item => (none, item)
  | .object items => items.map fun item => (some item.1, item.2)
  | _ => []

/-- The field `valuestring` -/
def valuestring : Json → Option CString
  | .string s => some s
  | _ => none

/-- The field `valueint` -/
def valueint : Json → Int
  | .number n _ => n
  | .bool true => 1
  | _ => 0

theorem valuestring_eq_some {v : Json} {s : CString} : v.valuestring = some s ↔ v = .string s := by
  cases v <;> simp [valuestring]

/-- The last child that a name is taken for. -/
def lastNamed (p : Option CString → Bool) (items : List (Option CString × Json)) : Option Json :=
  (items.reverse.find? fun item => p item.1).map (·.2)

section LastNamed

variable {p : Option CString → Bool} {items : List (Option CString × Json)}
  {item : Option CString × Json}

@[simp] theorem lastNamed_nil : lastNamed p [] = none := rfl

theorem lastNamed_append_of_pos (h : p item.1 = true) :
    lastNamed p (items ++ [item]) = some item.2 := by
  simp [lastNamed, h]

theorem lastNamed_append_of_neg (h : p item.1 = false) :
    lastNamed p (items ++ [item]) = lastNamed p items := by
  simp [lastNamed, h]

end LastNamed

end Json

end Ota
end LightDuer
