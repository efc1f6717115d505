import LightDuer.BaiduJson.Printed

/-!
# Strings in JSON

`parse_string` goes through a string twice: it counts the characters, and then it writes them to
what it has allocated for so many. The two loops do not read the string in the same way (a `\u` is
one character and four digits to the first and up to ten octets to the second), so that they fit
together has to be shown.

* `decodeString_count` is the argument, for a counter without a width: what the second loop writes
  from anywhere in the string is inside of what the first still counts from there, and where it
  comes to an end it is where the first has ended.
* `decodeString_scan` is that for the code's own counter, for a text that an `int` can count.
* `parseString_printed` is the way back: what `print_string_ptr` prints of a string is read as the
  string, whatever follows it.
-/

set_option autoImplicit false

namespace LightDuer
namespace BaiduJson

open Lib
open Ota (Json CString)

/-! ## Counting and writing -/

theorem hexDigits_ne_zero {n h : Nat} {text : List UInt8} (hne : hexDigits n h text ≠ 0) :
    ∃ ds rest, text = ds ++ rest ∧ ds.length = n ∧ ∀ d ∈ ds, (hexDigit? d).isSome = true := by
  induction n generalizing h text with
  | zero => exact ⟨[], text, rfl, rfl, List.forall_mem_nil _⟩
  | succ n ih =>
    rw [hexDigits] at hne
    cases hdigit : hexDigit? (char text) with
    | none =>
      rw [hdigit] at hne
      exact absurd rfl hne
    | some d =>
      rw [hdigit] at hne
      cases text with
      | nil =>
        have hnone : hexDigit? (char []) = none := by decide
        exact absurd (hnone.symm.trans hdigit).symm (Option.some_ne_none d)
      | cons c text =>
        obtain ⟨ds, rest, rfl, hlen, hds⟩ := ih hne
        refine ⟨c :: ds, rest, rfl, congrArg Nat.succ hlen, List.forall_mem_cons.mpr ⟨?_, hds⟩⟩
        rw [show c = char (c :: (ds ++ rest)) from rfl, hdigit]
        rfl

theorem exists_of_char {text : List UInt8} {c e : UInt8} (hc : c ≠ 0) (he : e ≠ 0)
    (h : char (text.drop 0) = c) (h' : char (text.drop 1) = e) :
    ∃ rest, text = c :: e :: rest := by
  rcases text with _ | ⟨a, _ | ⟨b, rest⟩⟩
  · exact absurd h.symm hc
  · exact absurd h'.symm he
  · exact ⟨rest, by rw [← h, ← h']; rfl⟩

section Scan

variable {text endPtr : List UInt8} {len k : Nat}

theorem countString_plain {c : UInt8} (h34 : c ≠ 34) (h92 : c ≠ 92) (text : List UInt8) (k : Nat) :
    countString (c :: text) k = countString text (k + 1) := by
  rw [countString.eq_def]
  simp only [if_neg h34, if_neg h92]

theorem countString_escape (e : UInt8) (text : List UInt8) (k : Nat) :
    countString (92 :: e :: text) k = countString text (k + 1) := rfl

theorem countString_quote (text : List UInt8) (k : Nat) :
    countString (34 :: text) k = some (k, 34 :: text) := by
  rw [countString.eq_def]
  rfl

theorem countString_suffix (h : countString text k = some (len, endPtr)) : endPtr <:+ text := by
  fun_induction countString text k with
  | case1 => exact (Prod.mk.inj (Option.some.inj h)).2 ▸ List.suffix_rfl
  | case2 => exact (Prod.mk.inj (Option.some.inj h)).2 ▸ List.suffix_rfl
  | case3 => exact absurd h.symm (Option.some_ne_none _)
  | case4 => rename_i ih; exact (ih h).trans ((List.suffix_cons _ _).trans (List.suffix_cons _ _))
  | case5 => rename_i ih; exact (ih h).trans (List.suffix_cons _ _)

/-- Hexadecimal digits are counted one by one. -/
theorem countString_hex {ds : List UInt8} (hds : ∀ d ∈ ds, (hexDigit? d).isSome = true)
    (text : List UInt8) (k : Nat) :
    countString (ds ++ text) k = countString text (k + ds.length) := by
  induction ds generalizing k with
  | nil => rfl
  | cons d ds ih =>
    obtain ⟨hd, hds⟩ := List.forall_mem_cons.mp hds
    have h34 : d ≠ 34 := fun heq => absurd hd (by rw [heq]; decide)
    have h92 : d ≠ 92 := fun heq => absurd hd (by rw [heq]; decide)
    rw [List.cons_append, countString_plain h34 h92, ih hds, List.length_cons]
    congr 1
    omega

theorem length_utf8_le (uc : Nat) : (utf8 uc).length ≤ 4 := by
  simp only [utf8]
  repeat' split
  all_goals simp only [List.length_cons, List.length_nil]; omega

/-- A `\u` is counted as four characters at least, behind the first one. -/
theorem parseUnicode_count {endLen uc : Nat} {rest : List UInt8}
    (h : parseUnicode endLen text = some (uc, rest)) (k : Nat) :
    ∃ n, 4 ≤ n ∧ countString text k = countString rest (k + n) := by
  simp only [parseUnicode] at h
  split at h
  · exact absurd h.symm (Option.some_ne_none _)
  split at h
  · exact absurd h.symm (Option.some_ne_none _)
  next hvalid =>
  obtain ⟨ds, rest₀, rfl, hlen, hds⟩ := hexDigits_ne_zero (not_or.mp hvalid).2
  have hdrop : ∀ n, (ds ++ rest₀).drop (4 + n) = rest₀.drop n := fun n => by
    rw [← hlen, ← List.drop_drop, List.drop_left]
  have hscan := countString_hex hds rest₀ k
  rw [hlen] at hscan
  split at h
  · split at h
    · exact absurd h.symm (Option.some_ne_none _)
    split at h
    · exact absurd h.symm (Option.some_ne_none _)
    next hsecond =>
    split at h
    · exact absurd h.symm (Option.some_ne_none _)
    next hlow =>
    rw [hdrop 0, hdrop 1] at hsecond
    rw [hdrop 2] at hlow
    rw [hdrop 6] at h
    -- the second half is behind a backslash and a letter
    obtain ⟨h92, h117⟩ := not_or.mp hsecond
    obtain ⟨rest₁, rfl⟩ := exists_of_char (by decide) (by decide) (Classical.not_not.mp h92)
      (Classical.not_not.mp h117)
    have hne : parseHex4 rest₁ ≠ 0 := fun hzero => hlow (.inl (hzero ▸ by decide))
    obtain ⟨ds', rest₂, rfl, hlen', hds'⟩ := hexDigits_ne_zero hne
    have hrest : (92 :: 117 :: (ds' ++ rest₂)).drop 6 = rest₂ := by
      rw [List.drop_succ_cons, List.drop_succ_cons, ← hlen', List.drop_left]
    obtain ⟨-, rfl⟩ := Prod.mk.inj (Option.some.inj h)
    refine ⟨9, by decide, ?_⟩
    rw [hscan, countString_escape, countString_hex hds', hlen', hrest]
  · rw [hdrop 0] at h
    obtain ⟨-, rfl⟩ := Prod.mk.inj (Option.some.inj h)
    exact ⟨4, Nat.le_refl 4, hscan⟩

/-- What is written is inside of what has been counted, also where the string is refused; and if it
    is not, both loops end at the same place. The induction is on the turns of the second loop, and
    what the two loops have to do with each other is that what is left to count is `len - k`. -/
theorem decodeString_count (h : countString text k = some (len, endPtr)) (fuel : Nat)
    (out : List UInt8) :
    (decodeString endPtr.length fuel text out).1.length ≤ out.length + (len - k) ∧
      ∀ ptr ∈ (decodeString endPtr.length fuel text out).2, ptr = endPtr := by
  induction fuel generalizing text k out with
  | zero => exact ⟨Nat.le_add_right _ _, fun ptr hptr => absurd hptr.symm (Option.some_ne_none ptr)⟩
  | succ fuel ih =>
    -- what is written of a character is not more than is counted for it
    have hstep : ∀ {rest : List UInt8} {k' : Nat} (c : List UInt8),
        countString rest k' = some (len, endPtr) → k + c.length ≤ k' →
        (decodeString endPtr.length fuel rest (out ++ c)).1.length ≤ out.length + (len - k) ∧
          ∀ ptr ∈ (decodeString endPtr.length fuel rest (out ++ c)).2, ptr = endPtr := by
      intro rest k' c hrest hk
      have hle := countString_le hrest
      obtain ⟨hlen, hptr⟩ := ih hrest (out ++ c)
      rw [List.length_append] at hlen
      exact ⟨by omega, hptr⟩
    rw [decodeString]
    split
    next hend =>
      refine ⟨Nat.le_add_right _ _, fun ptr hptr => ?_⟩
      rw [← Option.some.inj hptr]
      exact ((countString_suffix h).eq_of_length_le hend).symm
    next hmore =>
    cases text with
    | nil => exact absurd (Nat.zero_le _) hmore
    | cons c text =>
      have h34 : c ≠ 34 := by
        rintro rfl
        rw [countString_quote] at h
        rw [← (Prod.mk.inj (Option.some.inj h)).2] at hmore
        exact hmore (Nat.le_refl _)
      have hchar : char (c :: text) = c := rfl
      rw [hchar, List.tail_cons]
      by_cases h92 : c = 92
      · rw [if_neg (not_not_intro h92)]
        subst h92
        cases text with
        | nil => exact absurd h.symm (Option.some_ne_none _)
        | cons e text =>
          rw [countString_escape] at h
          have hchar : char (e :: text) = e := rfl
          rw [hchar, List.tail_cons]
          split
          · cases hunicode : parseUnicode endPtr.length text with
            | none =>
              exact ⟨Nat.le_add_right _ _,
                fun ptr hptr => absurd hptr.symm (Option.some_ne_none ptr)⟩
            | some found =>
              obtain ⟨uc, rest⟩ := found
              obtain ⟨n, hn, hscan⟩ := parseUnicode_count hunicode (k + 1)
              have hutf8 := length_utf8_le uc
              rw [hscan] at h
              exact hstep (utf8 uc) h (by omega)
          · exact hstep [unescape e] h (Nat.le_refl _)
      · rw [if_pos h92]
        rw [countString_plain h34 h92] at h
        exact hstep [c] h (Nat.le_refl _)

/-- **The second loop stays inside of what the first has counted**, for every text shorter than
    `2 ^ 31` octets: `len` is an `int`, and the room is for `len + 1`. -/
theorem decodeString_scan (hshort : text.length < 2 ^ 31)
    (h : scanString text 0 = some (len, endPtr)) (fuel : Nat) :
    (decodeString endPtr.length fuel text []).1.length ≤ len ∧
      ∀ ptr ∈ (decodeString endPtr.length fuel text []).2, ptr = endPtr := by
  have hcount : countString text 0 = some (len, endPtr) := by
    rw [← scanString_of_length (by omega)]
    exact h
  have hloop := decodeString_count hcount fuel []
  rwa [List.length_nil, Nat.zero_add, Nat.sub_zero] at hloop

/-- The euro sign as an escape: five characters are counted, and three octets are written. -/
theorem decodeString_scan_euro :
    let text : List UInt8 := [92, 117, 50, 48, 97, 99, 34]
    scanString text 0 = some (5, [34]) ∧
      (decodeString 1 8 text []).1.length ≤ 5 ∧
        ∀ ptr ∈ (decodeString 1 8 text []).2, ptr = [34] := by
  intro text
  have hcount : countString text 0 = some (5, [34]) := by decide
  have hscan : scanString text 0 = some (5, [34]) := scanString_of_count hcount (by decide)
  exact ⟨hscan, decodeString_scan (by decide) hscan 8⟩

end Scan

/-! ## Strings that are printed -/

section Printed

variable {c : UInt8}

theorem printChar_of_not_escaped (h : escaped c = false) : printChar c = [c] := by
  rw [printChar, h, if_neg Bool.false_ne_true]

/-- The two escapes that are printed. -/
theorem printChar_of_escaped (h : escaped c = true) :
    (∃ letter, printChar c = [92, letter] ∧ unescape letter = c ∧ letter ≠ 117) ∨
      (printChar c = [92, 117, 48, 48, hexOctet (c.toNat / 16), hexOctet (c.toNat % 16)] ∧
        c.toNat < 32) := by
  have hescape := forall_octet
    (P := fun c => ∀ letter ∈ escapeLetter? c, unescape letter = c ∧ letter ≠ 117)
    (by decide +kernel) c
  have hlow := forall_octet
    (P := fun c => escaped c = true → escapeLetter? c = none → c.toNat < 32) (by decide +kernel) c
  rw [printChar, if_pos h]
  cases hletter : escapeLetter? c with
  | some letter => exact .inl ⟨letter, rfl, hescape letter hletter⟩
  | none => exact .inr ⟨rfl, hlow h hletter⟩

theorem hexDigit?_hexOctet {d : Nat} (h : d < 16) : hexDigit? (hexOctet d) = some d := by
  have hall : ∀ d < 16, hexDigit? (hexOctet d) = some d := by decide
  exact hall d h

/-- A control character as it is read. -/
theorem parseHex4_printed (h : c.toNat < 32) (text : List UInt8) :
    parseHex4 (48 :: 48 :: hexOctet (c.toNat / 16) :: hexOctet (c.toNat % 16) :: text) =
      c.toNat := by
  have hzero : hexDigit? 48 = some 0 := by decide
  have hchar : ∀ (a : UInt8) (l : List UInt8), char (a :: l) = a := fun _ _ => rfl
  simp only [parseHex4, hexDigits, hchar, List.tail_cons, hzero,
    hexDigit?_hexOctet (show c.toNat / 16 < 16 by omega),
    hexDigit?_hexOctet (Nat.mod_lt c.toNat (by decide : 16 > 0))]
  omega

/-- What is printed of a character is counted as no more characters than it has octets. -/
theorem countString_printChar (c : UInt8) (text : List UInt8) (k : Nat) :
    ∃ n ≤ (printChar c).length,
      countString (printChar c ++ text) k = countString text (k + n) := by
  cases hc : escaped c with
  | false =>
    have hne : c ≠ 34 ∧ c ≠ 92 := by
      constructor
      · rintro rfl
        exact absurd hc (by decide)
      · rintro rfl
        exact absurd hc (by decide)
    rw [printChar_of_not_escaped hc]
    exact ⟨1, Nat.le_refl 1, countString_plain hne.1 hne.2 text k⟩
  | true =>
    rcases printChar_of_escaped hc with ⟨letter, hprinted, -, -⟩ | ⟨hprinted, hlt⟩
    · rw [hprinted]
      exact ⟨1, Nat.le_succ 1, countString_escape letter text k⟩
    · have hhex : ∀ d ∈ [48, 48, hexOctet (c.toNat / 16), hexOctet (c.toNat % 16)],
          (hexDigit? d).isSome = true := by
        intro d hd
        simp only [List.mem_cons, List.not_mem_nil, or_false] at hd
        rcases hd with rfl | rfl | rfl | rfl
        · decide
        · decide
        · rw [hexDigit?_hexOctet (by omega)]
          rfl
        · rw [hexDigit?_hexOctet (Nat.mod_lt _ (by decide))]
          rfl
      rw [hprinted]
      exact ⟨5, Nat.le_succ 5,
        (countString_escape 117 _ k).trans (countString_hex hhex text (k + 1))⟩

theorem utf8_of_lt {uc : Nat} (h : uc < 0x80) : utf8 uc = [UInt8.ofNat uc] := by
  simp only [utf8, if_pos h]

/-- What is printed of a character is read as it. -/
theorem decodeString_printChar (hc : c ≠ 0) {endLen : Nat} {text : List UInt8}
    (hend : endLen ≤ text.length) (fuel : Nat) (out : List UInt8) :
    decodeString endLen (fuel + 1) (printChar c ++ text) out =
      decodeString endLen fuel text (out ++ [c]) := by
  have hchar : ∀ (a : UInt8) (l : List UInt8), char (a :: l) = a := fun _ _ => rfl
  have hmore : ∀ (b : UInt8) (l : List UInt8), text.length ≤ l.length →
      ¬(b :: l).length ≤ endLen := fun b l hl => by
    rw [List.length_cons]
    omega
  cases hescaped : escaped c with
  | false =>
    have h92 : c ≠ 92 := by
      rintro rfl
      exact absurd hescaped (by decide)
    rw [printChar_of_not_escaped hescaped, List.singleton_append, decodeString,
      if_neg (hmore _ _ (Nat.le_refl _)), hchar, if_pos h92, List.tail_cons]
  | true =>
    rcases printChar_of_escaped hescaped with ⟨letter, hprinted, hletter, h117⟩ | ⟨hprinted, hlt⟩
    · rw [hprinted, List.cons_append, List.cons_append, List.nil_append, decodeString,
        if_neg (hmore _ _ (Nat.le_succ _)), hchar, if_neg (not_not_intro rfl), List.tail_cons,
        hchar, if_neg h117, List.tail_cons, hletter]
    · have hunicode : parseUnicode endLen
          (48 :: 48 :: hexOctet (c.toNat / 16) :: hexOctet (c.toNat % 16) :: text) =
            some (c.toNat, text) := by
        have hpos : c.toNat ≠ 0 := fun hzero => hc (UInt8.toNat_inj.mp hzero)
        simp only [parseUnicode, parseHex4_printed hlt, List.drop_succ_cons, List.drop_zero]
        rw [if_neg (hmore _ _ (Nat.le_refl _)), if_neg (by omega), if_neg (by omega)]
      rw [hprinted]
      simp only [List.cons_append, List.nil_append]
      have hlong : text.length ≤ (117 :: 48 :: 48 :: hexOctet (c.toNat / 16) ::
          hexOctet (c.toNat % 16) :: text).length := by
        simp only [List.length_cons]
        omega
      rw [decodeString, if_neg (hmore _ _ hlong), hchar, if_neg (not_not_intro rfl),
        List.tail_cons, hchar, if_pos rfl, List.tail_cons, hunicode]
      simp only [utf8_of_lt (show c.toNat < 0x80 by omega), UInt8.ofNat_toNat]

theorem countString_printed (bytes text : List UInt8) (k : Nat) :
    ∃ len ≤ k + (bytes.flatMap printChar).length,
      countString (bytes.flatMap printChar ++ 34 :: text) k = some (len, 34 :: text) := by
  induction bytes generalizing k with
  | nil => exact ⟨k, Nat.le_add_right k _, countString_quote text k⟩
  | cons c bytes ih =>
    rw [List.flatMap_cons, List.append_assoc]
    obtain ⟨n, hle, hn⟩ := countString_printChar c (bytes.flatMap printChar ++ 34 :: text) k
    obtain ⟨len, hlen, hcount⟩ := ih (k + n)
    refine ⟨len, ?_, hn.trans hcount⟩
    rw [List.length_append]
    omega

theorem decodeString_printed {bytes : List UInt8} (h : 0 ∉ bytes) (text : List UInt8) {fuel : Nat}
    (hfuel : bytes.length < fuel) (out : List UInt8) :
    decodeString (34 :: text).length fuel (bytes.flatMap printChar ++ 34 :: text) out =
      (out ++ bytes, some (34 :: text)) := by
  induction bytes generalizing fuel out with
  | nil =>
    obtain ⟨fuel, rfl⟩ : ∃ n, fuel = n + 1 := ⟨fuel - 1, by omega⟩
    rw [List.flatMap_nil, List.nil_append, decodeString, if_pos (Nat.le_refl _), List.append_nil]
  | cons c bytes ih =>
    obtain ⟨fuel, rfl⟩ : ∃ n, fuel = n + 1 := ⟨fuel - 1, by omega⟩
    have hc : c ≠ 0 := fun heq => h (heq ▸ List.mem_cons_self)
    have hbytes : 0 ∉ bytes := fun hmem => h (List.mem_cons_of_mem c hmem)
    rw [List.length_cons] at hfuel
    rw [List.flatMap_cons, List.append_assoc, decodeString_printChar hc ?_,
      ih hbytes (by omega), List.append_assoc]
    · rfl
    · rw [List.length_append]
      exact Nat.le_add_left _ _

theorem length_le_printed (bytes : List UInt8) :
    bytes.length ≤ (bytes.flatMap printChar).length := by
  induction bytes with
  | nil => exact Nat.le_refl 0
  | cons c bytes ih =>
    rw [List.flatMap_cons, List.length_append, List.length_cons, length_printChar]
    omega

/-- **What is printed of a string is read as the string**, whatever follows, if the count of its
    characters is an `int`. The induction is on the characters, each with its own form in the text:
    as it is, behind a backslash, or as a `\u` with four digits. -/
theorem parseString_printed {s : CString} (hshort : (nameText s).length < 2 ^ 31)
    (rest : List UInt8) : parseString (nameText s ++ rest) = some (s, rest) := by
  have htext : nameText s ++ rest = 34 :: (s.bytes.flatMap printChar ++ 34 :: rest) := by
    rw [nameText, List.cons_append, List.cons_append, List.append_assoc]
    rfl
  obtain ⟨len, hlen, hcount⟩ := countString_printed s.bytes rest 0
  have hquoted : (s.bytes.flatMap printChar).length < 2 ^ 31 := by
    rw [nameText, List.length_append, List.length_cons] at hshort
    omega
  have hscan := scanString_of_count hcount (by omega)
  have hfuel : s.bytes.length < (nameText s ++ rest).length + 1 := by
    have := length_le_printed s.bytes
    rw [htext, List.length_cons, List.length_append]
    omega
  have hread : readCString s.bytes = s := by
    have hnil : cString [] = [] := rfl
    have hbytes := cString_append_of_notMem s.noNul []
    rw [hnil, List.append_nil] at hbytes
    cases s
    simp only [readCString, CString.mk.injEq]
    exact hbytes
  have hdecode := decodeString_printed s.noNul rest hfuel []
  have hchar : ∀ (a : UInt8) (l : List UInt8), char (a :: l) = a := fun _ _ => rfl
  rw [parseString, htext, hchar, if_neg (not_not_intro rfl), List.tail_cons, hscan, ← htext]
  simp only [Option.bind_eq_bind, Option.bind_some, hdecode, hchar, if_true, List.tail_cons,
    List.nil_append, hread]

end Printed

end BaiduJson
end LightDuer
