import Mathlib.Algebra.Group.Int.Defs
import Mathlib.Algebra.GroupWithZero.Nat
import Mathlib.Data.List.Basic
import Mathlib.Tactic.Common

/-!
# Text in octet arrays

What a C program reads out of a received line: the string before the first NUL, the first line end,
and the integers `sscanf` converts. Each reader comes with the lemma that says what it gives on text
of the expected form, whatever follows.

Arrays are lists of octets, of which the program may know the length while the functions of the C
library do not: they stop at a NUL. `cString` is that view, and a text with a NUL in it is where the
two differ.

## Line ends and searches

`crLfPos` finds the first line end in what has arrived so far. `crLfPos_of_isPrefix` is the lemma
for a reader that looks again after every piece: of a line without a CR in it, the end is found
exactly when enough of the stream is there, and at the same place whatever comes behind it. `strchr`
and `strstr` give positions; the `_parts` lemmas turn a position into the two texts on either side
of it, which is how it is used in proofs.

## Numbers

`scanInt`, `scanShort` and `scanHex` are `%d`, `%hu` and `%x` where `long` has 32 bits: white space,
a sign, digits as long as there are some, a value that is clamped to the range of the type and, for
a conversion that stores fewer bits, cut to these. `none` stands for a failed conversion, after
which `sscanf` leaves its argument alone. `scanDigits_numeral` is shared by the three; the digits
are a parameter, and all it needs is that what follows does not begin with one.
-/

set_option autoImplicit false

namespace Lib

/-- The octets of an ASCII string. -/
def ascii (s : String) : List UInt8 := s.toList.map fun c => UInt8.ofNat c.toNat

/-- What holds of all numbers below 256 holds of all octets. -/
theorem forall_octet {P : UInt8 → Prop} (h : ∀ n < 256, P (UInt8.ofNat n)) (c : UInt8) : P c := by
  have hc := h c.toNat c.toNat_lt
  rwa [UInt8.ofNat_toNat] at hc

/-- What a string function sees of an array: the octets before the first NUL. -/
def cString (buf : List UInt8) : List UInt8 := buf.takeWhile (· != 0)

/-- The line end. -/
def crLf : List UInt8 := [13, 10]

/-- The position of the first line end. -/
def crLfPos : List UInt8 → Option Nat
  | [] => none
  | b :: rest =>
      if b = 13 ∧ rest.head? = some 10 then some 0 else (crLfPos rest).map (· + 1)

/-- A line end found is inside the array. -/
theorem crLfPos_lt {buf : List UInt8} : ∀ {pos : Nat}, crLfPos buf = some pos →
    pos + 2 ≤ buf.length := by
  induction buf with
  | nil => exact fun h => absurd h (by simp [crLfPos])
  | cons b rest ih =>
    intro pos h
    simp only [crLfPos] at h
    split at h
    · rename_i hb
      obtain ⟨tail, rfl⟩ := List.head?_eq_some_iff.mp hb.2
      obtain rfl := Option.some.inj h
      simp
    · obtain ⟨p, hp, rfl⟩ := Option.map_eq_some_iff.mp h
      have hlen := ih hp
      simp only [List.length_cons]
      omega

/-- **The first line end** parts the text, and there is none before it. -/
theorem crLfPos_parts {seen : List UInt8} : ∀ {buf : List UInt8} {pos : Nat}, seen <+: buf →
    crLfPos seen = some pos →
      buf = buf.take pos ++ crLf ++ buf.drop (pos + 2) ∧ crLfPos (buf.take pos) = none := by
  induction seen with
  | nil => exact fun _ h => absurd h (by simp [crLfPos])
  | cons b rest ih =>
    rintro buf pos ⟨more, rfl⟩ h
    simp only [crLfPos] at h
    split at h
    · rename_i hb
      obtain ⟨tail, rfl⟩ := List.head?_eq_some_iff.mp hb.2
      obtain rfl := Option.some.inj h
      exact ⟨by simp [hb.1, crLf], rfl⟩
    · rename_i hb
      obtain ⟨p, hp, rfl⟩ := Option.map_eq_some_iff.mp h
      obtain ⟨hparts, hnone⟩ := ih (List.prefix_append rest more) hp
      refine ⟨?_, ?_⟩
      · simpa using hparts
      · have hhead : ((rest ++ more).take p).head? = some 10 → rest.head? = some 10 := by
          intro hten
          have hlen := crLfPos_lt hp
          cases rest with
          | nil => simp at hlen
          | cons r rest =>
            cases p with
            | zero => simp at hten
            | succ p => simpa using hten
        simp only [List.cons_append, List.take_succ_cons, crLfPos, hnone, Option.map_none]
        exact if_neg fun hten => hb ⟨hten.1, hhead hten.2⟩

/-- **The end of a line without a CR in it**, seen once enough of the stream is there. -/
theorem crLfPos_of_isPrefix {line rest : List UInt8} (hline : 13 ∉ line) :
    ∀ {buf : List UInt8}, buf <+: line ++ crLf ++ rest →
      crLfPos buf = if line.length + 2 ≤ buf.length then some line.length else none := by
  induction line with
  | nil =>
    intro buf hp
    rcases buf with _ | ⟨b, _ | ⟨b', buf⟩⟩
    · rfl
    · simp [crLfPos]
    · simp only [crLf, List.nil_append, List.cons_append, List.cons_prefix_cons] at hp
      simp [crLfPos, hp.1, hp.2.1]
  | cons l line ih =>
    intro buf hp
    cases buf with
    | nil => rfl
    | cons b buf =>
      simp only [List.cons_append, List.cons_prefix_cons] at hp
      obtain ⟨rfl, hp⟩ := hp
      have hb : b ≠ 13 := fun h => hline (by simp [h])
      have hline' : 13 ∉ line := fun h => hline (by simp [h])
      simp only [crLfPos, hb, false_and, if_false, ih hline' hp, List.length_cons,
        Nat.add_right_comm _ 1 2, Nat.add_le_add_iff_right]
      split <;> rfl

/-- Text before the first NUL is all of a text without one. -/
theorem cString_append_of_notMem {s : List UInt8} (h : 0 ∉ s) (rest : List UInt8) :
    cString (s ++ rest) = s ++ cString rest := by
  refine List.takeWhile_append_of_pos fun b hb => ?_
  have hne : b ≠ 0 := fun heq => h (heq ▸ hb)
  simpa using hne

theorem cString_isPrefix (buf : List UInt8) : cString buf <+: buf := List.takeWhile_prefix _

theorem mem_head?_of_cString {buf : List UInt8} {b : UInt8} (h : b ∈ (cString buf).head?) :
    b ∈ buf.head? := by
  obtain ⟨rest, hrest⟩ := cString_isPrefix buf
  rw [← hrest, List.head?_append]
  simp only [Option.mem_def] at h
  rw [h]
  rfl

/-! ## Searches -/

/-- `strchr`: where a character first stands. -/
def strchr (b : UInt8) (s : List UInt8) : Option Nat :=
  if b ∈ s then some (s.takeWhile (· != b)).length else none

/-- `strstr`: where a text first stands. -/
def strstr (needle : List UInt8) : List UInt8 → Option Nat
  | [] => if needle = [] then some 0 else none
  | b :: rest =>
      if needle <+: b :: rest then some 0 else (strstr needle rest).map (· + 1)

section Searches

variable {b : UInt8} {s rest needle : List UInt8}

theorem strchr_eq_none (h : b ∉ s) : strchr b s = none := if_neg h

theorem strchr_append_of_notMem (h : b ∉ s) (rest : List UInt8) :
    strchr b (s ++ rest) = (strchr b rest).map (s.length + ·) := by
  have hne : ∀ a ∈ s, (a != b) = true := fun a ha => by
    have hab : a ≠ b := fun heq => h (heq ▸ ha)
    simpa using hab
  rw [strchr, strchr, List.takeWhile_append_of_pos hne]
  by_cases hb : b ∈ rest
  · rw [if_pos hb, if_pos (List.mem_append_right s hb), List.length_append, Option.map_some]
  · rw [if_neg hb, if_neg (by simp [h, hb]), Option.map_none]

theorem strchr_cons_self (b : UInt8) (rest : List UInt8) : strchr b (b :: rest) = some 0 := by
  simp [strchr]

/-- The first place of a character behind a text without it. -/
theorem strchr_append_cons (h : b ∉ s) (rest : List UInt8) :
    strchr b (s ++ b :: rest) = some s.length := by
  rw [strchr_append_of_notMem h, strchr_cons_self]
  rfl

/-- A character found parts the text at its first place. -/
theorem strchr_parts {n : Nat} (h : strchr b s = some n) :
    ∃ before after, s = before ++ b :: after ∧ b ∉ before ∧ before.length = n := by
  by_cases hb : b ∈ s
  · obtain ⟨before, after, rfl, hbefore⟩ := List.eq_append_cons_of_mem hb
    rw [strchr_append_cons hbefore] at h
    exact ⟨before, after, rfl, hbefore, Option.some.inj h⟩
  · rw [strchr_eq_none hb] at h
    cases h

theorem strstr_parts {n : Nat} (h : strstr needle s = some n) :
    ∃ before after, s = before ++ needle ++ after ∧ before.length = n := by
  induction s generalizing n with
  | nil =>
    rw [strstr] at h
    split at h
    · rename_i hnil
      obtain rfl := Option.some.inj h
      exact ⟨[], [], by simp [hnil], rfl⟩
    · cases h
  | cons b rest ih =>
    rw [strstr] at h
    split at h
    · rename_i hprefix
      obtain ⟨after, hafter⟩ := hprefix
      obtain rfl := Option.some.inj h
      exact ⟨[], after, by simp [hafter], rfl⟩
    · obtain ⟨m, hm, rfl⟩ := Option.map_eq_some_iff.mp h
      obtain ⟨before, after, rfl, hlen⟩ := ih hm
      exact ⟨b :: before, after, by simp, by simp [hlen]⟩

end Searches

/-! ## Numerals -/

def decDigit? (b : UInt8) : Option Nat :=
  if 48 ≤ b.toNat ∧ b.toNat ≤ 57 then some (b.toNat - 48) else none

def hexDigit? (b : UInt8) : Option Nat :=
  if 48 ≤ b.toNat ∧ b.toNat ≤ 57 then some (b.toNat - 48)
  else if 97 ≤ b.toNat ∧ b.toNat ≤ 102 then some (b.toNat - 87)
  else if 65 ≤ b.toNat ∧ b.toNat ≤ 70 then some (b.toNat - 55)
  else none

def isSpace (b : UInt8) : Bool := b == 32 || (9 ≤ b.toNat && b.toNat ≤ 13)

/-- Read digits as long as there are some. -/
def scanDigits (digit : UInt8 → Option Nat) (base : Nat) : Nat → List UInt8 → Nat × List UInt8
  | acc, [] => (acc, [])
  | acc, b :: bs =>
      match digit b with
      | some d => scanDigits digit base (acc * base + d) bs
      | none => (acc, b :: bs)

/-- The number a string of digits stands for. -/
def numeral (digit : UInt8 → Option Nat) (base : Nat) (ds : List UInt8) : Nat :=
  (scanDigits digit base 0 ds).1

/-- A non-empty string of digits. -/
def IsNumeral (digit : UInt8 → Option Nat) (ds : List UInt8) : Prop :=
  ds ≠ [] ∧ ∀ b ∈ ds, (digit b).isSome = true

section Digits

variable {digit : UInt8 → Option Nat}

theorem scanDigits_append {base : Nat} {ds rest : List UInt8}
    (hds : ∀ b ∈ ds, (digit b).isSome = true) (hrest : ∀ b ∈ rest.head?, digit b = none)
    (acc : Nat) :
    scanDigits digit base acc (ds ++ rest) = ((scanDigits digit base acc ds).1, rest) := by
  induction ds generalizing acc with
  | nil =>
    cases rest with
    | nil => rfl
    | cons b bs => simp [scanDigits, hrest b (by simp)]
  | cons d ds ih =>
    obtain ⟨v, hv⟩ := Option.isSome_iff_exists.mp (hds d (by simp))
    simp only [List.cons_append, scanDigits, hv]
    exact ih (fun b hb => hds b (by simp [hb])) _

theorem scanDigits_numeral {ds rest : List UInt8} (base : Nat) (hds : IsNumeral digit ds)
    (hrest : ∀ b ∈ rest.head?, digit b = none) :
    scanDigits digit base 0 (ds ++ rest) = (numeral digit base ds, rest) :=
  scanDigits_append hds.2 hrest 0

end Digits

theorem decDigit_ge {b : UInt8} (h : (decDigit? b).isSome = true) : 48 ≤ b.toNat := by
  unfold decDigit? at h
  split at h
  · omega
  · exact absurd h (by simp)

theorem hexDigit_ge {b : UInt8} (h : (hexDigit? b).isSome = true) : 48 ≤ b.toNat := by
  unfold hexDigit? at h
  split at h
  · omega
  · split at h
    · omega
    · split at h
      · omega
      · exact absurd h (by simp)

/-- An optional sign. -/
def scanSign : List UInt8 → Bool × List UInt8
  | [] => (false, [])
  | b :: bs => if b = 45 then (true, bs) else if b = 43 then (false, bs) else (false, b :: bs)

/-- Where digits are neither white space nor signs, what reads a number comes to the first one. -/
theorem IsNumeral.start {digit : UInt8 → Option Nat} {space ds : List UInt8}
    (hds : IsNumeral digit ds) (hge : ∀ b, (digit b).isSome = true → 48 ≤ b.toNat)
    (hspace : ∀ b ∈ space, isSpace b = true) (rest : List UInt8) :
    (space ++ (ds ++ rest)).dropWhile isSpace = ds ++ rest ∧
      scanSign (ds ++ rest) = (false, ds ++ rest) ∧
      ((ds ++ rest).head?.bind digit).isSome = true := by
  obtain ⟨d, ds', rfl⟩ := List.exists_cons_of_ne_nil hds.1
  have hd : (digit d).isSome = true := hds.2 d (by simp)
  have hd48 : 48 ≤ d.toNat := hge d hd
  have hne : ∀ c : UInt8, c.toNat < 48 → d ≠ c := by
    rintro c hc rfl
    omega
  have hnot : isSpace d = false := by
    simp only [isSpace, Bool.or_eq_false_iff, beq_eq_false_iff_ne, Bool.and_eq_false_imp,
      decide_eq_true_eq, decide_eq_false_iff_not]
    exact ⟨hne 32 (by decide), fun _ hle => by omega⟩
  refine ⟨?_, ?_, by simpa using hd⟩
  · rw [List.dropWhile_append_of_pos hspace]
    simp [hnot]
  · simp only [scanSign, List.cons_append, hne 45 (by decide), hne 43 (by decide), if_false]

/-- `%d` of `sscanf`, for a 32-bit `long`: white space, a sign, digits; the value is clamped. -/
def scanInt (s : List UInt8) : Option (Int × List UInt8) :=
  let (neg, s) := scanSign (s.dropWhile isSpace)
  if (s.head?.bind decDigit?).isSome then
    let (n, rest) := scanDigits decDigit? 10 0 s
    some (if neg then max (-2 ^ 31) (-(n : Int)) else min (2 ^ 31 - 1) (n : Int), rest)
  else none

theorem scanInt_numeral {space ds rest : List UInt8} (hspace : ∀ b ∈ space, isSpace b = true)
    (hds : IsNumeral decDigit? ds) (hrest : ∀ b ∈ rest.head?, decDigit? b = none) :
    scanInt (space ++ ds ++ rest) =
      some (min (2 ^ 31 - 1) (numeral decDigit? 10 ds : Int), rest) := by
  obtain ⟨hskip, hsign, hhead⟩ := hds.start (fun _ => decDigit_ge) hspace rest
  have hscan := scanDigits_numeral 10 hds hrest
  simp only [scanInt, List.append_assoc, hskip, hsign, hhead, hscan, if_true, Bool.false_eq_true,
    if_false]

/-- `%hu` of `sscanf`, for a 32-bit `long`: white space, a sign, digits; the value is clamped to 32
    bits and its low 16 are kept. -/
def scanShort (s : List UInt8) : Option Nat :=
  let (neg, s) := scanSign (s.dropWhile isSpace)
  if (s.head?.bind decDigit?).isSome then
    let n := (scanDigits decDigit? 10 0 s).1
    some ((if 2 ^ 32 ≤ n then 2 ^ 32 - 1 else if neg then 2 ^ 32 - n else n) % 2 ^ 16)
  else none

theorem scanShort_numeral {ds rest : List UInt8} (hds : IsNumeral decDigit? ds)
    (hrest : ∀ b ∈ rest.head?, decDigit? b = none) (hlt : numeral decDigit? 10 ds < 2 ^ 16) :
    scanShort (ds ++ rest) = some (numeral decDigit? 10 ds) := by
  obtain ⟨hskip, hsign, hhead⟩ := hds.start (fun _ => decDigit_ge) (List.forall_mem_nil _) rest
  rw [List.nil_append] at hskip
  have hscan := scanDigits_numeral 10 hds hrest
  have hsmall : ¬2 ^ 32 ≤ numeral decDigit? 10 ds := by omega
  simp only [scanShort, hskip, hsign, hhead, hscan, if_true, Bool.false_eq_true, if_false,
    if_neg hsmall, Nat.mod_eq_of_lt hlt]

/-- An optional `0x`, which is one only before a digit: alone it is the digit `0`. -/
def skipHexMark : List UInt8 → List UInt8
  | b :: x :: d :: bs =>
      if b = 48 ∧ (x = 120 ∨ x = 88) ∧ (hexDigit? d).isSome then d :: bs else b :: x :: d :: bs
  | s => s

/-- `%x` of `sscanf` into a 32-bit word, as `strtoul` has it: white space, a sign, `0x`, digits.
    A number that does not fit is the largest one whatever its sign, and a minus sign negates any
    other modulo `2 ^ 32`. -/
def scanHex (s : List UInt8) : Option Nat :=
  let (neg, s) := scanSign (s.dropWhile isSpace)
  let s := skipHexMark s
  if (s.head?.bind hexDigit?).isSome then
    let n := (scanDigits hexDigit? 16 0 s).1
    some (if 2 ^ 32 ≤ n then 2 ^ 32 - 1 else if neg then (2 ^ 32 - n) % 2 ^ 32 else n)
  else none

/-- Digits that no `x` follows do not begin with `0x`. -/
theorem skipHexMark_numeral {ds rest : List UInt8} (hds : IsNumeral hexDigit? ds)
    (hrest : ∀ b ∈ rest.head?, b ≠ 120 ∧ b ≠ 88) : skipHexMark (ds ++ rest) = ds ++ rest := by
  obtain ⟨d, ds', rfl⟩ := List.exists_cons_of_ne_nil hds.1
  have hx : ∀ b ∈ (ds' ++ rest).head?, b ≠ 120 ∧ b ≠ 88 := by
    intro b hb
    cases ds' with
    | nil => exact hrest b hb
    | cons e ds' =>
      obtain rfl : e = b := by simpa using hb
      have he : (hexDigit? e).isSome = true := hds.2 e (by simp)
      exact ⟨fun heq => absurd he (by rw [heq]; decide),
        fun heq => absurd he (by rw [heq]; decide)⟩
  cases htail : ds' ++ rest with
  | nil => simp [skipHexMark, htail]
  | cons x bs =>
    have hne := hx x (by rw [htail]; rfl)
    cases bs with
    | nil => simp [skipHexMark, htail]
    | cons e bs => simp [skipHexMark, htail, hne.1, hne.2]

theorem scanHex_numeral {ds rest : List UInt8} (hds : IsNumeral hexDigit? ds)
    (hrest : ∀ b ∈ rest.head?, hexDigit? b = none ∧ b ≠ 120 ∧ b ≠ 88) :
    scanHex (ds ++ rest) = some (min (2 ^ 32 - 1) (numeral hexDigit? 16 ds)) := by
  obtain ⟨hskip, hsign, hhead⟩ := hds.start (fun _ => hexDigit_ge) (List.forall_mem_nil _) rest
  rw [List.nil_append] at hskip
  have hmark := skipHexMark_numeral hds fun b hb => (hrest b hb).2
  have hscan := scanDigits_numeral 16 hds fun b hb => (hrest b hb).1
  have hclamp : ∀ n : Nat, (if 2 ^ 32 ≤ n then 2 ^ 32 - 1 else n) = min (2 ^ 32 - 1) n := by
    intro n
    split <;> omega
  simp only [scanHex, hskip, hsign, hmark, hhead, hscan, if_true, Bool.false_eq_true, if_false,
    hclamp]

/-- A literal in a format. -/
def dropLit (lit s : List UInt8) : Option (List UInt8) :=
  if lit.isPrefixOf s then some (s.drop lit.length) else none

end Lib
