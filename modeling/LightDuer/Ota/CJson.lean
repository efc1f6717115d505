import LightDuer.BaiduJson.Parser

/-!
# The JSON parser of the unpacker

`cJSON_Parse` and `cJSON_Duplicate`, of the `cJSON.c` that the unpacker brings with it. It is an
older relative of `baidu_json.c`: `parse_string` has no `end_ptr`, so its second loop does not know
where its first one has ended, and an escape with a `\u` moves the pointer by four octets whatever
they are.

`parse_meta_data` gives it the meta region, behind which no NUL stands. So a pointer is here what is
left of the *region*, and to read where nothing is left is to read outside of it:

* **`outside`** is such an access. What the parser would do next depends on memory that is not the
  region's, and the model stops there.
* **`overrun`** is a character that `parse_string` writes behind what it has allocated.
* **`null`** is the parser's own failure, `NULL`.

## Memory

An allocation may be refused, and each is told from the others by the pointer at which it is asked
for: `Mallocs` answers for a node and for a string by how many octets of the region are left then.
No two nodes are asked for at one pointer, since there is a bracket or a comma between them, and
no two strings. A copy asks for its nodes and strings in order, and its answers are numbered.

A region is shorter than `2 ^ 32` octets (`meta_size` is a `uint32_t`), so that `len` in
`parse_string` does not come back to 0; where it leaves the `int`, `malloc` is asked for a size no
memory has.
-/

set_option autoImplicit false

namespace LightDuer
namespace Ota
namespace CJson

open Lib
open BaiduJson (Doubles isDigit unescape utf8 readCString)

/-- The answers to the allocations of the parser, by what is left of the region. -/
structure Mallocs where
  /-- for a node -/
  item : Nat → Bool
  /-- for a `valuestring` -/
  string : Nat → Bool

/-- What becomes of a call: nothing, because of an access, or `NULL`, or a result and the pointer
    behind it. -/
inductive Parsed (α : Type)
  | outside
  | overrun
  | null
  | done (result : α) (rest : List UInt8)
deriving DecidableEq

namespace Parsed

variable {α β : Type}

/-- Go on behind a result. -/
def andThen (p : Parsed α) (f : α → List UInt8 → Parsed β) : Parsed β :=
  match p with
  | .outside => .outside
  | .overrun => .overrun
  | .null => .null
  | .done a rest => f a rest

theorem andThen_eq_done {p : Parsed α} {f : α → List UInt8 → Parsed β} {b : β}
    {rest : List UInt8} :
    p.andThen f = .done b rest ↔ ∃ a r, p = .done a r ∧ f a r = .done b rest := by
  cases p with
  | done a r =>
    constructor
    · intro h
      exact ⟨a, r, rfl, h⟩
    · rintro ⟨a', r', heq, h⟩
      cases heq
      exact h
  | _ =>
    constructor
    · intro h
      cases h
    · rintro ⟨_, _, heq, -⟩
      cases heq

end Parsed

/-- Read through the pointer. -/
def look {α : Type} (text : List UInt8) (f : UInt8 → Parsed α) : Parsed α :=
  match text with
  | [] => .outside
  | c :: _ => f c

/-- `skip` -/
def skip : List UInt8 → Parsed Unit
  | [] => .outside
  | c :: text => if c ≠ 0 ∧ c ≤ 32 then skip text else .done () (c :: text)

/-- `strncmp` of the pointer and a word: no octet is read behind the first one that differs. -/
def strncmp : List UInt8 → List UInt8 → Parsed Bool
  | [], text => .done true text
  | w :: word, text => look text fun c => if c = w then strncmp word text.tail else .done false text

/-! ## Numbers -/

/-- The digits in front, taken into a value, and how many they are. -/
def readDigits {α : Type} (next : α → Nat → α) : α → Nat → List UInt8 → Parsed (α × Nat)
  | _, _, [] => .outside
  | n, count, c :: rest =>
      match decDigit? c with
      | some d => readDigits next (next n d) (count + 1) rest
      | none => .done (n, count) (c :: rest)

/-- The part in front of the point. -/
def readInt (D : Doubles) (num : List UInt8) : Parsed (Option ℚ) :=
  look num fun c =>
    let num := if c = 48 then num.tail else num
    look num fun c =>
      if isDigit c ∧ c ≠ 48 then
        (readDigits D.next (some 0) 0 num).andThen fun digits rest => .done digits.1 rest
      else .done (some 0) num

/-- The fractional part, and the scale of the number with it. -/
def readFraction (D : Doubles) (n : Option ℚ) (num : List UInt8) : Parsed (Option ℚ × Int) :=
  look num fun c =>
    if c = 46 then
      look num.tail fun d =>
        if isDigit d then
          (readDigits D.next n 0 num.tail).andThen fun digits rest =>
            .done (digits.1, -digits.2) rest
        else .done (n, 0) num
    else .done (n, 0) num

/-- The exponent, `subscale * signsubscale`. -/
def readExponent (num : List UInt8) : Parsed Int :=
  look num fun c =>
    if c = 101 ∨ c = 69 then
      look num.tail fun s =>
        let num := if s = 43 ∨ s = 45 then num.tail.tail else num.tail
        (readDigits (fun subscale d => int32 (subscale * 10 + d)) 0 0 num).andThen
          fun digits rest => .done (int32 (digits.1 * if s = 45 then -1 else 1)) rest
    else .done 0 num

/-- `parse_number` -/
def parseNumber (D : Doubles) (num : List UInt8) : Parsed Json :=
  look num fun c =>
    (readInt D (if c = 45 then num.tail else num)).andThen fun n num =>
      (readFraction D n num).andThen fun fraction num =>
        (readExponent num).andThen fun subscale rest =>
          let sign : ℚ := if c = 45 then -1 else 1
          let value : Option ℚ := do
            D.round (sign * (← fraction.1) * (← D.pow10 (fraction.2 + subscale)))
          .done (.number (D.toInt value) value) rest

/-! ## Strings -/

/-- `parse_hex4`, the rest of it: it stops at an octet that is no digit. -/
def hexDigits : Nat → Nat → List UInt8 → Parsed Nat
  | 0, h, text => .done h text
  | n + 1, h, text =>
      look text fun c =>
        match hexDigit? c with
        | some d => hexDigits n (h * 16 + d) text.tail
        | none => .done 0 text

/-- The character of a `\u`, in UTF-8, behind which `text` is; nothing is written for what is no
    character. The pointer moves on by four octets in any case, and by six more for a second
    half. -/
def readUnicode (text : List UInt8) : Parsed (List UInt8) :=
  (hexDigits 4 0 text).andThen fun uc _ =>
    if (0xdc00 ≤ uc ∧ uc ≤ 0xdfff) ∨ uc = 0 then .done [] (text.drop 4)
    else if 0xd800 ≤ uc ∧ uc ≤ 0xdbff then
      look (text.drop 4) fun c =>
        if c ≠ 92 then .done [] (text.drop 4)
        else
          look (text.drop 5) fun c =>
            if c ≠ 117 then .done [] (text.drop 4)
            else
              (hexDigits 4 0 (text.drop 6)).andThen fun uc2 _ =>
                if uc2 < 0xdc00 ∨ 0xdfff < uc2 then .done [] (text.drop 10)
                else .done (utf8 (0x10000 + (uc % 0x400 * 0x400 ||| uc2 % 0x400))) (text.drop 10)
    else .done (utf8 uc) (text.drop 4)

/-- The first loop of `parse_string`: how many characters there are up to the quote or the NUL. What
    is behind a backslash is passed, whatever it is. -/
def scanString : Nat → List UInt8 → Parsed Nat
  | _, [] => .outside
  | len, c :: text =>
      if c = 34 ∨ c = 0 then .done len (c :: text)
      else if c = 92 then
        match text with
        | [] => .outside
        | _ :: text => scanString (len + 1) text
      else scanString (len + 1) text

/-- The second loop, and the NUL behind it: what has been written to `out`, which has room for
    `len + 1` octets. -/
def decodeString (len : Nat) : Nat → List UInt8 → List UInt8 → Parsed (List UInt8)
  | 0, _, _ => .outside
  | fuel + 1, out, ptr =>
      look ptr fun c =>
        if c = 34 ∨ c = 0 then
          if out.length ≤ len then .done out ptr else .overrun
        else
          (if c ≠ 92 then .done [c] ptr.tail
            else look ptr.tail fun e =>
              if e = 117 then readUnicode ptr.tail.tail
              else .done [unescape e] ptr.tail.tail).andThen fun octets ptr =>
            if out.length + octets.length ≤ len + 1 then
              decodeString len fuel (out ++ octets) ptr
            else .overrun

/-- `parse_string` -/
def parseString (malloc : Mallocs) (str : List UInt8) : Parsed CString :=
  look str fun c =>
    if c ≠ 34 then .null
    else
      (scanString 0 str.tail).andThen fun len _ =>
        if malloc.string str.length = false then .null
        else
          (decodeString len str.length [] str.tail).andThen fun out ptr =>
            .done (readCString (out ++ [0])) (if ptr.head? = some 34 then ptr.tail else ptr)

/-! ## Values -/

section Values

variable (D : Doubles) (malloc : Mallocs)

mutual

/-- `parse_value` -/
def parseValue : Nat → List UInt8 → Parsed Json
  | 0, _ => .null
  | fuel + 1, value =>
      (strncmp (ascii "null") value).andThen fun isNull rest =>
        if isNull then .done .null rest
        else (strncmp (ascii "false") value).andThen fun isFalse rest =>
          if isFalse then .done (.bool false) rest
          else (strncmp (ascii "true") value).andThen fun isTrue rest =>
            if isTrue then .done (.bool true) rest
            else look value fun c =>
              if c = 34 then (parseString malloc value).andThen fun s rest => .done (.string s) rest
              else if c = 45 ∨ isDigit c then parseNumber D value
              else if c = 91 then parseArray fuel value
              else if c = 123 then parseObject fuel value
              else .null

/-- `parse_array` -/
def parseArray : Nat → List UInt8 → Parsed Json
  | 0, _ => .null
  | fuel + 1, value =>
      (skip value.tail).andThen fun _ value =>
        look value fun c =>
          if c = 93 then .done (.array []) value.tail
          else
            (parseItems fuel value).andThen fun items value =>
              look value fun c => if c = 93 then .done (.array items) value.tail else .null

/-- An element, and the loop behind it. -/
def parseItems : Nat → List UInt8 → Parsed (List Json)
  | 0, _ => .null
  | fuel + 1, value =>
      if malloc.item value.length = false then .null
      else
        (skip value).andThen fun _ value =>
          (parseValue fuel value).andThen fun item value =>
            (skip value).andThen fun _ value =>
              look value fun c =>
                if c = 44 then
                  (parseItems fuel value.tail).andThen fun items value =>
                    .done (item :: items) value
                else .done [item] value

/-- `parse_object` -/
def parseObject : Nat → List UInt8 → Parsed Json
  | 0, _ => .null
  | fuel + 1, value =>
      (skip value.tail).andThen fun _ value =>
        look value fun c =>
          if c = 125 then .done (.object []) value.tail
          else
            (parseMembers fuel value).andThen fun items value =>
              look value fun c => if c = 125 then .done (.object items) value.tail else .null

/-- A member, and the loop behind it. -/
def parseMembers : Nat → List UInt8 → Parsed (List (CString × Json))
  | 0, _ => .null
  | fuel + 1, value =>
      if malloc.item value.length = false then .null
      else
        (skip value).andThen fun _ value =>
          (parseString malloc value).andThen fun name value =>
            (skip value).andThen fun _ value =>
              look value fun c =>
                if c ≠ 58 then .null
                else
                  (skip value.tail).andThen fun _ value =>
                    (parseValue fuel value).andThen fun item value =>
                      (skip value).andThen fun _ value =>
                        look value fun c =>
                          if c = 44 then
                            (parseMembers fuel value.tail).andThen fun items value =>
                              .done ((name, item) :: items) value
                          else .done [(name, item)] value

end

/-- `cJSON_Parse` of a region. A bracket calls for three of the functions above before the next
    octet is read. -/
def cJsonParse (region : List UInt8) : Parsed Json :=
  if malloc.item region.length = false then .null
  else (skip region).andThen fun _ value => parseValue D malloc (3 * value.length + 1) value

end Values

/-! ## Copies -/

/-- Ask for the next allocation, if it is needed; it has this number. -/
def ask (malloc : Nat → Bool) (needed : Bool) (k : Nat) : Option Nat :=
  if needed then if malloc k then some (k + 1) else none else some k

mutual

/-- `cJSON_Duplicate` of a node with this `string`, with `recurse`: the number of the next
    allocation, or `NULL`. What is not `NULL` is the same tree. -/
def cJsonDuplicate (malloc : Nat → Bool) (string : Bool) : Json → Nat → Option Nat
  | .array items, k =>
      ((ask malloc true k).bind (ask malloc string)).bind (duplicateItems malloc items)
  | .object items, k =>
      ((ask malloc true k).bind (ask malloc string)).bind (duplicateMembers malloc items)
  | .string _, k =>
      ((ask malloc true k).bind (ask malloc true)).bind (ask malloc string)
  | _, k => (ask malloc true k).bind (ask malloc string)

/-- The loop over the children of an array. -/
def duplicateItems (malloc : Nat → Bool) : List Json → Nat → Option Nat
  | [], k => some k
  | item :: items, k =>
      (cJsonDuplicate malloc false item k).bind (duplicateItems malloc items)

/-- The loop over the children of an object. -/
def duplicateMembers (malloc : Nat → Bool) : List (CString × Json) → Nat → Option Nat
  | [], k => some k
  | item :: items, k =>
      (cJsonDuplicate malloc true item.2 k).bind (duplicateMembers malloc items)

end

/-! ## What a copy takes -/

mutual

/-- How many allocations a copy of a node with this `string` takes. -/
def copySize (string : Bool) : Json → Nat
  | .array items => 1 + string.toNat + itemsSize items
  | .object items => 1 + string.toNat + membersSize items
  | .string _ => 2 + string.toNat
  | _ => 1 + string.toNat

def itemsSize : List Json → Nat
  | [] => 0
  | item :: items => copySize false item + itemsSize items

def membersSize : List (CString × Json) → Nat
  | [] => 0
  | item :: items => copySize true item.2 + membersSize items

end

/-- The allocations from `k` on, as many as these, are granted. -/
def Granted (malloc : Nat → Bool) (k size : Nat) : Prop := ∀ i < size, malloc (k + i) = true

section Copies

variable {malloc : Nat → Bool} {k k' : Nat}

theorem granted_zero (malloc : Nat → Bool) (k : Nat) : Granted malloc k 0 :=
  fun _ hi => absurd hi (Nat.not_lt_zero _)

theorem granted_one : Granted malloc k 1 ↔ malloc k = true := by
  constructor
  · intro h
    exact h 0 Nat.zero_lt_one
  · intro h i hi
    obtain rfl : i = 0 := by omega
    exact h

theorem granted_add {m n : Nat} :
    Granted malloc k (m + n) ↔ Granted malloc k m ∧ Granted malloc (k + m) n := by
  constructor
  · intro h
    refine ⟨fun i hi => h i (by omega), fun i hi => ?_⟩
    rw [Nat.add_assoc]
    exact h (m + i) (by omega)
  · rintro ⟨hm, hn⟩ i hi
    rcases Nat.lt_or_ge i m with hlt | hge
    · exact hm i hlt
    · have hrest := hn (i - m) (by omega)
      rwa [Nat.add_assoc, Nat.add_sub_cancel' hge] at hrest

/-- A function that asks for this many allocations, one after the other. -/
def Takes (malloc : Nat → Bool) (size : Nat) (f : Nat → Option Nat) : Prop :=
  ∀ k k', f k = some k' ↔ Granted malloc k size ∧ k' = k + size

theorem takes_ask (needed : Bool) : Takes malloc needed.toNat (ask malloc needed) := by
  intro k k'
  cases needed with
  | false =>
    show some k = some k' ↔ _
    rw [Option.some.injEq, eq_comm]
    exact ⟨fun h => ⟨granted_zero _ _, h⟩, fun h => h.2⟩
  | true =>
    show (if malloc k then some (k + 1) else none) = some k' ↔ _
    rw [show Bool.true.toNat = 1 from rfl, granted_one]
    cases malloc k with
    | false => simp
    | true => simp [eq_comm]

theorem Takes.bind {m n : Nat} {f g : Nat → Option Nat} (hf : Takes malloc m f)
    (hg : Takes malloc n g) : Takes malloc (m + n) fun k => (f k).bind g := by
  intro k k'
  simp only [Option.bind_eq_some_iff, granted_add]
  constructor
  · rintro ⟨j, hj, hk⟩
    obtain ⟨hm, rfl⟩ := (hf k j).mp hj
    obtain ⟨hn, rfl⟩ := (hg _ k').mp hk
    exact ⟨⟨hm, hn⟩, (Nat.add_assoc _ _ _).symm ▸ rfl⟩
  · rintro ⟨⟨hm, hn⟩, rfl⟩
    exact ⟨k + m, (hf k _).mpr ⟨hm, rfl⟩, (hg _ _).mpr ⟨hn, (Nat.add_assoc _ _ _).symm⟩⟩

theorem takes_some : Takes malloc 0 some := by
  intro k k'
  rw [Option.some.injEq, eq_comm]
  exact ⟨fun h => ⟨granted_zero _ _, h⟩, fun h => h.2⟩

mutual

/-- **A copy is there** if and only if all that it takes is granted. What a tree takes is one
    request for each node and one for each of its texts, in the order in which `cJSON_Duplicate`
    comes to them. -/
theorem takes_cJsonDuplicate (string : Bool) : ∀ v : Json,
    Takes malloc (copySize string v) (cJsonDuplicate malloc string v)
  | .array items => ((takes_ask true).bind (takes_ask string)).bind (takes_duplicateItems items)
  | .object items =>
      ((takes_ask true).bind (takes_ask string)).bind (takes_duplicateMembers items)
  | .string _ => ((takes_ask true).bind (takes_ask true)).bind (takes_ask string)
  | .null => (takes_ask true).bind (takes_ask string)
  | .bool _ => (takes_ask true).bind (takes_ask string)
  | .number _ _ => (takes_ask true).bind (takes_ask string)

theorem takes_duplicateItems : ∀ items : List Json,
    Takes malloc (itemsSize items) (duplicateItems malloc items)
  | [] => takes_some
  | item :: items => (takes_cJsonDuplicate false item).bind (takes_duplicateItems items)

theorem takes_duplicateMembers : ∀ items : List (CString × Json),
    Takes malloc (membersSize items) (duplicateMembers malloc items)
  | [] => takes_some
  | item :: items => (takes_cJsonDuplicate true item.2).bind (takes_duplicateMembers items)

end

theorem cJsonDuplicate_isSome {string : Bool} {v : Json} :
    (cJsonDuplicate malloc string v 0).isSome = true ↔ Granted malloc 0 (copySize string v) := by
  rw [Option.isSome_iff_exists]
  constructor
  · rintro ⟨k, hk⟩
    exact ((takes_cJsonDuplicate string v 0 k).mp hk).1
  · intro h
    exact ⟨_, (takes_cJsonDuplicate string v 0 _).mpr ⟨h, rfl⟩⟩

end Copies

end CJson
end Ota
end LightDuer
