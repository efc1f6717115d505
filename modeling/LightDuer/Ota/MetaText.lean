import LightDuer.Ota.CJson

/-!
# Texts that end inside of their region

Which octets `cJSON_Parse` reads to the end without leaving them. The parser is a set of loops that
find out where a text ends; here the text is described by what it is made of, with nothing of the
pointer but what is left behind it. `cJsonParse_iff` says that the two agree: the parser gives a
tree exactly where the region begins, behind white space, with a text of that tree (`Text`), and
then reads no octet that is not in the region.

Three things are not as in the grammar of JSON:

* **The two loops of `parse_string` need not agree.** `Chars` is a string as the second loop takes
  it, four octets behind a `\u` whatever they are, and `countChars` counts as the first loop does, a
  backslash with what is behind it as one. A string is read where both come to an end inside of
  the region and no more is written than was counted.
* **A string may end at a NUL**, without a quote.
* **A number is what its first octets make it** (`parseNumber` of the twin in `BaiduJson`, which is
  given a text that ends), so all that is asked for is that something stands behind it.
-/

set_option autoImplicit false

namespace LightDuer
namespace Ota
namespace CJson

open Lib
open BaiduJson (Doubles isDigit unescape utf8 readCString char takeDigits)

/-! ## Reading -/

section Reading

variable {α β : Type} {text rest : List UInt8}

theorem look_eq_done {f : UInt8 → Parsed α} {a : α} :
    look text f = .done a rest ↔ ∃ c t, text = c :: t ∧ f c = .done a rest := by
  cases text with
  | nil =>
    constructor
    · intro h
      cases h
    · rintro ⟨c, t, heq, -⟩
      cases heq
  | cons c t =>
    constructor
    · intro h
      exact ⟨c, t, rfl, h⟩
    · rintro ⟨c', t', heq, h⟩
      cases heq
      exact h

@[simp] theorem look_cons (c : UInt8) (f : UInt8 → Parsed α) : look (c :: text) f = f c := rfl

@[simp] theorem done_andThen (a : α) (f : α → List UInt8 → Parsed β) :
    (Parsed.done a rest).andThen f = f a rest := rfl

/-- The text behind the white space. -/
def skipBlank (text : List UInt8) : List UInt8 := text.dropWhile fun c => c ≠ 0 ∧ c ≤ 32

theorem skip_eq_done {u : Unit} : skip text = .done u rest ↔ skipBlank text = rest ∧ rest ≠ [] := by
  induction text with
  | nil =>
    constructor
    · intro h
      cases h
    · rintro ⟨rfl, hne⟩
      exact absurd rfl hne
  | cons c text ih =>
    rw [skip, skipBlank]
    by_cases hc : c ≠ 0 ∧ c ≤ 32
    · rw [if_pos hc, List.dropWhile_cons_of_pos (by simpa using hc)]
      exact ih
    · rw [if_neg hc, List.dropWhile_cons_of_neg (by simpa using hc)]
      constructor
      · intro h
        cases h
        exact ⟨rfl, List.cons_ne_nil _ _⟩
      · rintro ⟨rfl, -⟩
        rfl

theorem skip_of_cons {c : UInt8} (h : skipBlank text = c :: rest) :
    skip text = .done () (c :: rest) :=
  skip_eq_done.mpr ⟨h, List.cons_ne_nil _ _⟩

theorem strncmp_self (word : List UInt8) : strncmp word (word ++ rest) = .done true rest := by
  induction word with
  | nil => rfl
  | cons w word ih =>
    rw [List.cons_append, strncmp, look_cons, if_pos rfl]
    exact ih

theorem strncmp_ne {w c : UInt8} (word : List UInt8) (h : c ≠ w) :
    strncmp (w :: word) (c :: text) = .done false (c :: text) := by
  rw [strncmp, look_cons, if_neg h]

theorem strncmp_true {word : List UInt8} (h : strncmp word text = .done true rest) :
    text = word ++ rest := by
  induction word generalizing text with
  | nil =>
    cases h
    rfl
  | cons w word ih =>
    obtain ⟨c, t, rfl, h⟩ := look_eq_done.mp h
    by_cases hc : c = w
    · rw [if_pos hc] at h
      have ht : t = word ++ rest := ih h
      rw [hc, ht]
      rfl
    · rw [if_neg hc] at h
      cases h

end Reading

/-! ## Numbers -/

-- by `simp`, so that the conditions it rewrites keep their instances
theorem char_cons (c : UInt8) (text : List UInt8) : char (c :: text) = c := by
  simp [char]

section Numbers

variable {α : Type} {D : Doubles} {text rest : List UInt8}

theorem readDigits_eq_done {next : α → Nat → α} {n : α} {count : Nat} {r : α × Nat} :
    readDigits next n count text = .done r rest ↔
      takeDigits next n count text = (r.1, r.2, rest) ∧ rest ≠ [] := by
  induction text generalizing n count with
  | nil =>
    constructor
    · intro h
      cases h
    · rintro ⟨h, hne⟩
      rw [takeDigits, Prod.mk.injEq, Prod.mk.injEq] at h
      exact absurd h.2.2.symm hne
  | cons c text ih =>
    rw [readDigits, takeDigits]
    cases decDigit? c with
    | some d => exact ih
    | none =>
      constructor
      · intro h
        cases h
        exact ⟨rfl, List.cons_ne_nil _ _⟩
      · rintro ⟨h, -⟩
        simp only [Prod.mk.injEq] at h
        obtain ⟨hn, hcount, hrest⟩ := h
        rw [hn, hcount, hrest]

theorem readDigits_of_ne {next : α → Nat → α} {n : α} {count : Nat}
    (h : (takeDigits next n count text).2.2 ≠ []) :
    readDigits next n count text =
      .done ((takeDigits next n count text).1, (takeDigits next n count text).2.1)
        (takeDigits next n count text).2.2 :=
  readDigits_eq_done.mpr ⟨rfl, h⟩

theorem readInt_eq_done {n : Option ℚ} :
    readInt D text = .done n rest ↔ BaiduJson.takeInt D text = (n, rest) ∧ rest ≠ [] := by
  cases text with
  | nil =>
    constructor
    · intro h
      cases h
    · rintro ⟨h, hne⟩
      exact absurd (congrArg Prod.snd h).symm hne
  | cons c text =>
    rw [readInt, look_cons, BaiduJson.takeInt]
    simp only [char_cons, List.tail_cons]
    generalize (if c = 48 then text else c :: text) = num
    cases num with
    | nil =>
      constructor
      · intro h
        cases h
      · rintro ⟨h, hne⟩
        exact absurd (congrArg Prod.snd h).symm hne
    | cons d num =>
      simp only [look_cons, char_cons]
      by_cases hd : isDigit d = true ∧ d ≠ 48
      · rw [if_pos hd, if_pos hd, Parsed.andThen_eq_done]
        constructor
        · rintro ⟨digits, r, hdigits, h⟩
          cases h
          obtain ⟨htake, hne⟩ := readDigits_eq_done.mp hdigits
          exact ⟨by rw [htake], hne⟩
        · rintro ⟨h, hne⟩
          simp only [Prod.mk.injEq] at h
          obtain ⟨rfl, rfl⟩ := h
          exact ⟨_, _, readDigits_of_ne hne, rfl⟩
      · rw [if_neg hd, if_neg hd]
        constructor
        · intro h
          cases h
          exact ⟨rfl, List.cons_ne_nil _ _⟩
        · rintro ⟨h, -⟩
          simp only [Prod.mk.injEq] at h
          obtain ⟨rfl, rfl⟩ := h
          rfl

theorem readFraction_done {n : Option ℚ} {r : Option ℚ × Int}
    (h : readFraction D n text = .done r rest) :
    BaiduJson.takeFraction D n text = (r.1, r.2, rest) ∧ rest ≠ [] := by
  obtain ⟨c, t, rfl, h⟩ := look_eq_done.mp h
  rw [BaiduJson.takeFraction]
  simp only [char_cons, List.tail_cons] at h ⊢
  by_cases hc : c = 46
  · rw [if_pos hc] at h
    obtain ⟨d, t', rfl, h⟩ := look_eq_done.mp h
    simp only [char_cons, hc, true_and]
    by_cases hd : isDigit d = true
    · rw [if_pos hd] at h ⊢
      obtain ⟨digits, r', hdigits, h⟩ := Parsed.andThen_eq_done.mp h
      cases h
      obtain ⟨htake, hne⟩ := readDigits_eq_done.mp hdigits
      exact ⟨by rw [htake], hne⟩
    · rw [if_neg hd] at h ⊢
      cases h
      exact ⟨by rw [hc], List.cons_ne_nil _ _⟩
  · rw [if_neg hc] at h
    cases h
    exact ⟨if_neg fun hpoint => hc hpoint.1, List.cons_ne_nil _ _⟩

theorem readFraction_of_take {n m : Option ℚ} {scale : Int}
    (h : BaiduJson.takeFraction D n text = (m, scale, rest)) (hne : rest ≠ [])
    (hpoint : text ≠ [46]) : readFraction D n text = .done (m, scale) rest := by
  cases text with
  | nil => exact absurd (congrArg (·.2.2) h).symm hne
  | cons c t =>
    rw [BaiduJson.takeFraction] at h
    rw [readFraction, look_cons]
    simp only [char_cons, List.tail_cons] at h ⊢
    by_cases hc : c = 46
    · subst hc
      cases t with
      | nil => exact absurd rfl hpoint
      | cons d t =>
        simp only [if_true, look_cons, char_cons, true_and] at h ⊢
        by_cases hd : isDigit d = true
        · rw [if_pos hd] at h ⊢
          simp only [Prod.mk.injEq] at h
          obtain ⟨rfl, rfl, rfl⟩ := h
          rw [readDigits_of_ne hne]
          rfl
        · rw [if_neg hd] at h ⊢
          simp only [Prod.mk.injEq] at h
          obtain ⟨rfl, rfl, rfl⟩ := h
          rfl
    · rw [if_neg hc]
      rw [if_neg fun hpoint => hc hpoint.1] at h
      simp only [Prod.mk.injEq] at h
      obtain ⟨rfl, rfl, rfl⟩ := h
      rfl

theorem readExponent_eq_done {e : Int} :
    readExponent text = .done e rest ↔ BaiduJson.takeExponent text = (e, rest) ∧ rest ≠ [] := by
  cases text with
  | nil =>
    constructor
    · intro h
      cases h
    · rintro ⟨h, hne⟩
      exact absurd (congrArg Prod.snd h).symm hne
  | cons c text =>
    rw [readExponent, look_cons, BaiduJson.takeExponent]
    simp only [char_cons, List.tail_cons]
    by_cases hc : c = 101 ∨ c = 69
    swap
    · rw [if_neg hc, if_neg hc]
      constructor
      · intro h
        cases h
        exact ⟨rfl, List.cons_ne_nil _ _⟩
      · rintro ⟨h, -⟩
        simp only [Prod.mk.injEq] at h
        obtain ⟨rfl, rfl⟩ := h
        rfl
    rw [if_pos hc, if_pos hc]
    cases text with
    | nil =>
      constructor
      · intro h
        cases h
      · rintro ⟨h, hne⟩
        exact absurd (congrArg Prod.snd h).symm hne
    | cons s t =>
      simp only [look_cons, char_cons, List.tail_cons]
      have hsign : (if s = 43 then ((1 : Int), t) else if s = 45 then (-1, t) else (1, s :: t)) =
          (if s = 45 then -1 else 1, if s = 43 ∨ s = 45 then t else s :: t) := by
        by_cases hplus : s = 43
        · subst hplus
          rfl
        · by_cases hminus : s = 45
          · simp [hminus]
          · simp [hplus, hminus]
      rw [hsign]
      generalize (if s = 43 ∨ s = 45 then t else s :: t) = num
      rw [Parsed.andThen_eq_done]
      constructor
      · rintro ⟨digits, r, hdigits, h⟩
        cases h
        obtain ⟨htake, hne⟩ := readDigits_eq_done.mp hdigits
        exact ⟨by rw [htake], hne⟩
      · rintro ⟨h, hne⟩
        simp only [Prod.mk.injEq] at h
        obtain ⟨rfl, rfl⟩ := h
        exact ⟨_, _, readDigits_of_ne hne, rfl⟩

/-- A number is read as its twin reads it, and something is left behind it. -/
theorem parseNumber_done {v : Json} (h : parseNumber D text = .done v rest) :
    BaiduJson.parseNumber D text = (v, rest) ∧ rest ≠ [] := by
  obtain ⟨c, t, rfl, h⟩ := look_eq_done.mp h
  obtain ⟨n, r₁, hint, h⟩ := Parsed.andThen_eq_done.mp h
  obtain ⟨fraction, r₂, hfraction, h⟩ := Parsed.andThen_eq_done.mp h
  obtain ⟨subscale, r₃, hexponent, h⟩ := Parsed.andThen_eq_done.mp h
  obtain ⟨hint, -⟩ := readInt_eq_done.mp hint
  obtain ⟨hfraction, -⟩ := readFraction_done hfraction
  obtain ⟨hexponent, hne⟩ := readExponent_eq_done.mp hexponent
  cases h
  refine ⟨?_, hne⟩
  rw [BaiduJson.parseNumber]
  simp only [char_cons, List.tail_cons] at hint ⊢
  by_cases hc : c = 45
  · rw [if_pos hc] at hint
    simp only [if_pos hc, hint, hfraction, hexponent]
  · rw [if_neg hc] at hint
    simp only [if_neg hc, hint, hfraction, hexponent]

theorem parseNumber_of_twin {v : Json} (h : BaiduJson.parseNumber D text = (v, rest))
    (hne : rest ≠ []) (hpoint : rest ≠ [46]) : parseNumber D text = .done v rest := by
  have hexponentNil : BaiduJson.takeExponent [] = (0, []) := rfl
  have hfractionNil : ∀ n, BaiduJson.takeFraction D n [] = (n, 0, []) := fun _ => rfl
  have hexponentPoint : BaiduJson.takeExponent [46] = (0, [46]) := by decide
  have hfractionPoint : ∀ n, BaiduJson.takeFraction D n [46] = (n, 0, [46]) := fun _ => rfl
  cases text with
  | nil =>
    refine absurd (congrArg Prod.snd h).symm ?_
    exact hne
  | cons c t =>
    rw [BaiduJson.parseNumber] at h
    simp only [char_cons, List.tail_cons] at h
    rw [parseNumber, look_cons, List.tail_cons]
    have hsign : (if c = 45 then ((-1 : ℚ), t) else (1, c :: t)) =
        (if c = 45 then -1 else 1, if c = 45 then t else c :: t) := by
      split <;> rfl
    rw [hsign] at h
    generalize (if c = 45 then t else c :: t) = num at h ⊢
    generalize hint : BaiduJson.takeInt D num = int at h
    obtain ⟨n, r₁⟩ := int
    simp only at h
    generalize hfraction : BaiduJson.takeFraction D n r₁ = fraction at h
    obtain ⟨m, scale, r₂⟩ := fraction
    simp only at h
    generalize hexponent : BaiduJson.takeExponent r₂ = exponent at h
    obtain ⟨e, r₃⟩ := exponent
    simp only [Prod.mk.injEq] at h
    obtain ⟨rfl, rfl⟩ := h
    have hr₂ : r₂ ≠ [] := by
      rintro rfl
      rw [hexponentNil] at hexponent
      exact hne (congrArg Prod.snd hexponent).symm
    have hr₁ : r₁ ≠ [] := by
      rintro rfl
      rw [hfractionNil] at hfraction
      exact hr₂ (congrArg (·.2.2) hfraction).symm
    have hr₁' : r₁ ≠ [46] := by
      rintro rfl
      rw [hfractionPoint] at hfraction
      obtain rfl : [46] = r₂ := congrArg (·.2.2) hfraction
      rw [hexponentPoint] at hexponent
      exact hpoint (congrArg Prod.snd hexponent).symm
    rw [readInt_eq_done.mpr ⟨hint, hr₁⟩, done_andThen,
      readFraction_of_take hfraction hr₂ hr₁', done_andThen,
      readExponent_eq_done.mpr ⟨hexponent, hne⟩]
    rfl

theorem takeDigits_length_le {next : α → Nat → α} {n : α} {count : Nat} :
    (takeDigits next n count text).2.2.length ≤ text.length := by
  induction text generalizing n count with
  | nil => exact Nat.le_refl _
  | cons c text ih =>
    rw [takeDigits]
    cases decDigit? c with
    | some d => exact ih.trans (Nat.le_succ _)
    | none => exact Nat.le_refl _

theorem tail_length_le (text : List UInt8) : text.tail.length ≤ text.length := by
  rw [List.length_tail]
  exact Nat.sub_le _ _

theorem takeInt_length_le : (BaiduJson.takeInt D text).2.length ≤ text.length := by
  have hzero : (if char text = 48 then text.tail else text).length ≤ text.length := by
    split
    · exact tail_length_le text
    · exact Nat.le_refl _
  rw [BaiduJson.takeInt]
  simp only
  generalize (if char text = 48 then text.tail else text) = num at hzero ⊢
  split
  · exact takeDigits_length_le.trans hzero
  · exact hzero

theorem takeFraction_length_le {n : Option ℚ} :
    (BaiduJson.takeFraction D n text).2.2.length ≤ text.length := by
  rw [BaiduJson.takeFraction]
  split
  · exact takeDigits_length_le.trans (tail_length_le text)
  · exact Nat.le_refl _

theorem takeExponent_length_le : (BaiduJson.takeExponent text).2.length ≤ text.length := by
  rw [BaiduJson.takeExponent]
  split
  · have htail := tail_length_le text
    have hsign := tail_length_le text.tail
    simp only
    split
    · exact takeDigits_length_le.trans (hsign.trans htail)
    split
    · exact takeDigits_length_le.trans (hsign.trans htail)
    · exact takeDigits_length_le.trans htail
  · exact Nat.le_refl _

theorem parseNumber_length_le : (BaiduJson.parseNumber D text).2.length ≤ text.length := by
  have hsign : (if char text = 45 then ((-1 : ℚ), text.tail) else (1, text)).2.length ≤
      text.length := by
    split
    · exact tail_length_le text
    · exact Nat.le_refl _
  rw [BaiduJson.parseNumber]
  exact ((takeExponent_length_le.trans takeFraction_length_le).trans takeInt_length_le).trans hsign

end Numbers

/-! ## Strings -/

section Strings

variable {text rest : List UInt8}

theorem hexDigits_done {n h v : Nat} (hv : hexDigits n h text = .done v rest) :
    v = BaiduJson.hexDigits n h text := by
  induction n generalizing h text with
  | zero =>
    cases hv
    rfl
  | succ n ih =>
    obtain ⟨c, t, rfl, hv⟩ := look_eq_done.mp hv
    rw [BaiduJson.hexDigits]
    simp only [char_cons]
    cases hd : hexDigit? c with
    | none =>
      simp only [hd] at hv
      cases hv
      rfl
    | some d =>
      simp only [hd] at hv
      exact ih hv

theorem hexDigits_of_le {n h : Nat} (hlen : n ≤ text.length) :
    ∃ r, hexDigits n h text = .done (BaiduJson.hexDigits n h text) r := by
  induction n generalizing h text with
  | zero => exact ⟨text, rfl⟩
  | succ n ih =>
    cases text with
    | nil => exact absurd hlen (by simp)
    | cons c t =>
      rw [hexDigits, look_cons, BaiduJson.hexDigits]
      simp only [char_cons]
      cases hd : hexDigit? c with
      | none => exact ⟨_, rfl⟩
      | some d =>
        exact ih (by simpa using hlen)

/-- What is written for a `\u`, behind which `text` is, and where the string goes on. -/
def unicode (text : List UInt8) : List UInt8 × List UInt8 :=
  let uc := BaiduJson.parseHex4 text
  if (0xdc00 ≤ uc ∧ uc ≤ 0xdfff) ∨ uc = 0 then ([], text.drop 4)
  else if 0xd800 ≤ uc ∧ uc ≤ 0xdbff then
    if char (text.drop 4) ≠ 92 ∨ char (text.drop 5) ≠ 117 then ([], text.drop 4)
    else
      let uc2 := BaiduJson.parseHex4 (text.drop 6)
      if uc2 < 0xdc00 ∨ 0xdfff < uc2 then ([], text.drop 10)
      else (utf8 (0x10000 + (uc % 0x400 * 0x400 ||| uc2 % 0x400)), text.drop 10)
  else (utf8 uc, text.drop 4)

theorem readUnicode_done {octets : List UInt8} (h : readUnicode text = .done octets rest) :
    unicode text = (octets, rest) := by
  obtain ⟨uc, r, hhex, h⟩ := Parsed.andThen_eq_done.mp h
  obtain rfl : uc = BaiduJson.parseHex4 text := hexDigits_done hhex
  rw [unicode]
  simp only
  generalize BaiduJson.parseHex4 text = uc at h ⊢
  by_cases hdropped : (0xdc00 ≤ uc ∧ uc ≤ 0xdfff) ∨ uc = 0
  · rw [if_pos hdropped] at h ⊢
    cases h
    rfl
  rw [if_neg hdropped] at h ⊢
  by_cases hhigh : 0xd800 ≤ uc ∧ uc ≤ 0xdbff
  swap
  · rw [if_neg hhigh] at h ⊢
    cases h
    rfl
  rw [if_pos hhigh] at h ⊢
  obtain ⟨c, t, hc, h⟩ := look_eq_done.mp h
  rw [hc, char_cons]
  by_cases hslash : c = 92
  swap
  · rw [if_pos hslash] at h
    rw [if_pos (.inl hslash)]
    rw [hc] at h
    cases h
    rfl
  rw [if_neg (not_not_intro hslash)] at h
  obtain ⟨d, t', hd, h⟩ := look_eq_done.mp h
  rw [hd, char_cons]
  by_cases hu : d = 117
  swap
  · rw [if_pos hu] at h
    rw [if_pos (.inr hu)]
    rw [hc] at h
    cases h
    rfl
  rw [if_neg (not_not_intro hu)] at h
  rw [if_neg (by simp [hslash, hu])]
  obtain ⟨uc2, r', hhex2, h⟩ := Parsed.andThen_eq_done.mp h
  obtain rfl : uc2 = BaiduJson.parseHex4 (text.drop 6) := hexDigits_done hhex2
  generalize BaiduJson.parseHex4 (text.drop 6) = uc2 at h ⊢
  by_cases hlow : uc2 < 0xdc00 ∨ 0xdfff < uc2
  · rw [if_pos hlow] at h ⊢
    cases h
    rfl
  · rw [if_neg hlow] at h ⊢
    cases h
    rfl

theorem unicode_length (text : List UInt8) : (unicode text).2.length ≤ text.length - 4 := by
  have hfour : (text.drop 4).length = text.length - 4 := List.length_drop
  have hten : (text.drop 10).length ≤ text.length - 4 := by
    rw [List.length_drop]
    omega
  rw [unicode]
  simp only
  split
  · exact Nat.le_of_eq hfour
  split
  · split
    · exact Nat.le_of_eq hfour
    split
    · exact hten
    · exact hten
  · exact Nat.le_of_eq hfour

/-- The four octets are read, and the second half where there is one, if the string goes on behind
    them, and not with a backslash only. -/
theorem readUnicode_of_rest (hne : (unicode text).2 ≠ []) (hslash : (unicode text).2 ≠ [92]) :
    readUnicode text = .done (unicode text).1 (unicode text).2 := by
  have hlen : 4 < text.length := by
    have hpos := List.length_pos_iff.mpr hne
    have hle := unicode_length text
    omega
  obtain ⟨r, hhex⟩ : ∃ r, hexDigits 4 0 text = .done (BaiduJson.parseHex4 text) r :=
    hexDigits_of_le hlen.le
  rw [readUnicode, hhex, done_andThen]
  rw [unicode] at hne hslash ⊢
  simp only at hne hslash ⊢
  generalize BaiduJson.parseHex4 text = uc at hne hslash ⊢
  by_cases hdropped : (0xdc00 ≤ uc ∧ uc ≤ 0xdfff) ∨ uc = 0
  · rw [if_pos hdropped, if_pos hdropped]
  rw [if_neg hdropped] at hne hslash ⊢
  rw [if_neg hdropped]
  by_cases hhigh : 0xd800 ≤ uc ∧ uc ≤ 0xdbff
  swap
  · rw [if_neg hhigh, if_neg hhigh]
  rw [if_pos hhigh] at hne hslash ⊢
  rw [if_pos hhigh]
  cases hfour : text.drop 4 with
  | nil =>
    have hlength := congrArg List.length hfour
    rw [List.length_drop, List.length_nil] at hlength
    omega
  | cons c t =>
    rw [hfour] at hne hslash
    have hfive : text.drop 5 = t := by
      rw [show 5 = 4 + 1 from rfl, ← List.drop_drop, hfour]
      rfl
    rw [look_cons]
    simp only [char_cons] at hne hslash ⊢
    by_cases hc : c = 92
    swap
    · rw [if_pos hc, if_pos (.inl hc)]
    rw [if_neg (not_not_intro hc)]
    cases t with
    | nil =>
      rw [hfive] at hslash
      have hchar : char [] ≠ 117 := by decide
      rw [if_pos (.inr hchar), hc] at hslash
      exact absurd rfl hslash
    | cons d t =>
      rw [hfive, look_cons]
      rw [hfive] at hne
      simp only [char_cons] at hne ⊢
      by_cases hd : d = 117
      swap
      · rw [if_pos hd, if_pos (.inr hd)]
      have hboth : ¬(c ≠ 92 ∨ d ≠ 117) := by simp [hc, hd]
      rw [if_neg (not_not_intro hd), if_neg hboth]
      rw [if_neg hboth] at hne
      have hten : text.drop 10 ≠ [] := by
        intro hnil
        rw [hnil] at hne
        split at hne
        · exact hne rfl
        · exact hne rfl
      have hsix : 4 ≤ (text.drop 6).length := by
        have hpos := List.length_pos_iff.mpr hten
        rw [List.length_drop] at hpos ⊢
        omega
      obtain ⟨r', hhex2⟩ : ∃ r, hexDigits 4 0 (text.drop 6) =
          .done (BaiduJson.parseHex4 (text.drop 6)) r := hexDigits_of_le hsix
      rw [hhex2, done_andThen]
      split
      · rfl
      · rfl

/-- The characters of a string as the second loop takes them: what it writes, and the quote or the
    NUL it ends at. -/
inductive Chars : List UInt8 → List UInt8 → List UInt8 → Prop
  | close {c : UInt8} {rest : List UInt8} (h : c = 34 ∨ c = 0) : Chars (c :: rest) [] (c :: rest)
  | plain {c : UInt8} {text out rest : List UInt8} (h : ¬(c = 34 ∨ c = 0)) (hslash : c ≠ 92)
      (htail : Chars text out rest) : Chars (c :: text) (c :: out) rest
  | escape {c : UInt8} {text out rest : List UInt8} (h : c ≠ 117) (htail : Chars text out rest) :
      Chars (92 :: c :: text) (unescape c :: out) rest
  | unicode {text out rest : List UInt8} (htail : Chars (unicode text).2 out rest) :
      Chars (92 :: 117 :: text) ((unicode text).1 ++ out) rest

theorem Chars.start {out : List UInt8} (h : Chars text out rest) : text ≠ [] ∧ text ≠ [92] := by
  cases h with
  | close h =>
    refine ⟨List.cons_ne_nil _ _, fun heq => ?_⟩
    rw [List.head_eq_of_cons_eq heq] at h
    exact absurd h (by decide)
  | plain _ hslash _ =>
    exact ⟨List.cons_ne_nil _ _, fun heq => hslash (List.head_eq_of_cons_eq heq)⟩
  | escape _ _ => exact ⟨List.cons_ne_nil _ _, fun heq => by cases heq⟩
  | unicode _ => exact ⟨List.cons_ne_nil _ _, fun heq => by cases heq⟩

/-- How many characters the first loop counts, if it ends inside of the text. -/
def countChars : List UInt8 → Option Nat
  | [] => none
  | c :: text =>
      if c = 34 ∨ c = 0 then some 0
      else if c = 92 then
        match text with
        | [] => none
        | _ :: text => (countChars text).map (· + 1)
      else (countChars text).map (· + 1)

theorem scanString_iff {len k : Nat} :
    (∃ r, scanString k text = .done len r) ↔ ∃ n, countChars text = some n ∧ len = k + n := by
  fun_induction scanString k text with
  | case1 => simp [countChars]
  | case2 k c text h =>
    have hcount : countChars (c :: text) = some 0 := by
      rw [countChars.eq_def]
      exact if_pos h
    rw [hcount]
    simp [eq_comm]
  | case3 => simp [countChars]
  | case4 k e text h ih =>
    have hcount : countChars (92 :: e :: text) = (countChars text).map (· + 1) := by
      rw [countChars.eq_def]
      exact (if_neg h).trans (if_pos rfl)
    rw [ih, hcount]
    simp only [Option.map_eq_some_iff]
    constructor
    · rintro ⟨n, hn, rfl⟩
      exact ⟨n + 1, ⟨n, hn, rfl⟩, by omega⟩
    · rintro ⟨_, ⟨n, hn, rfl⟩, rfl⟩
      exact ⟨n, hn, by omega⟩
  | case5 k c text h hslash ih =>
    have hcount : countChars (c :: text) = (countChars text).map (· + 1) := by
      rw [countChars.eq_def]
      exact (if_neg h).trans (if_neg hslash)
    rw [ih, hcount]
    simp only [Option.map_eq_some_iff]
    constructor
    · rintro ⟨n, hn, rfl⟩
      exact ⟨n + 1, ⟨n, hn, rfl⟩, by omega⟩
    · rintro ⟨_, ⟨n, hn, rfl⟩, rfl⟩
      exact ⟨n, hn, by omega⟩

theorem decodeString_done {len fuel : Nat} {out res : List UInt8}
    (h : decodeString len fuel out text = .done res rest) :
    ∃ more, Chars text more rest ∧ res = out ++ more ∧ res.length ≤ len := by
  induction fuel generalizing out text with
  | zero => cases h
  | succ fuel ih =>
    obtain ⟨c, t, rfl, h⟩ := look_eq_done.mp h
    by_cases hclose : c = 34 ∨ c = 0
    · rw [if_pos hclose] at h
      by_cases hlen : out.length ≤ len
      · rw [if_pos hlen] at h
        cases h
        exact ⟨[], .close hclose, (List.append_nil _).symm, hlen⟩
      · rw [if_neg hlen] at h
        cases h
    rw [if_neg hclose] at h
    obtain ⟨octets, ptr, hoctets, h⟩ := Parsed.andThen_eq_done.mp h
    by_cases hroom : out.length + octets.length ≤ len + 1
    swap
    · rw [if_neg hroom] at h
      cases h
    rw [if_pos hroom] at h
    obtain ⟨more, hmore, rfl, hlen⟩ := ih h
    refine ⟨octets ++ more, ?_, List.append_assoc _ _ _, hlen⟩
    by_cases hslash : c = 92
    swap
    · rw [if_pos hslash] at hoctets
      cases hoctets
      exact .plain hclose hslash hmore
    rw [if_neg (not_not_intro hslash), hslash] at hoctets
    rw [hslash]
    obtain ⟨e, t', ht, hoctets⟩ := look_eq_done.mp hoctets
    rw [List.tail_cons] at ht
    subst ht
    by_cases hu : e = 117
    · rw [if_pos hu] at hoctets
      have hunicode := readUnicode_done hoctets
      simp only [List.tail_cons] at hunicode
      rw [hu]
      have hrest : (unicode t').2 = ptr := congrArg Prod.snd hunicode
      have hout : (unicode t').1 = octets := congrArg Prod.fst hunicode
      rw [← hout]
      exact .unicode (hrest ▸ hmore)
    · rw [if_neg hu] at hoctets
      cases hoctets
      exact .escape hu hmore

theorem decodeString_of_chars {len fuel : Nat} {out more : List UInt8} (h : Chars text more rest)
    (hlen : out.length + more.length ≤ len) (hfuel : text.length ≤ fuel) :
    decodeString len fuel out text = .done (out ++ more) rest := by
  induction h generalizing out fuel with
  | close hclose =>
    cases fuel with
    | zero => exact absurd hfuel (by simp)
    | succ fuel =>
      rw [decodeString, look_cons, if_pos hclose, if_pos (by simpa using hlen), List.append_nil]
  | @plain c text more rest hclose hslash htail ih =>
    cases fuel with
    | zero => exact absurd hfuel (by simp)
    | succ fuel =>
      rw [List.length_cons] at hlen hfuel
      rw [decodeString, look_cons, if_neg hclose, if_pos hslash, done_andThen,
        if_pos (by simp only [List.length_singleton]; omega), List.tail_cons,
        ih (by simp only [List.length_append, List.length_singleton]; omega) (by omega),
        List.append_assoc]
      rfl
  | @escape c text more rest hu htail ih =>
    cases fuel with
    | zero => exact absurd hfuel (by simp)
    | succ fuel =>
      simp only [List.length_cons] at hlen hfuel
      rw [decodeString, look_cons, if_neg (by decide), if_neg (by decide), List.tail_cons,
        look_cons, if_neg hu, List.tail_cons, done_andThen,
        if_pos (by simp only [List.length_singleton]; omega),
        ih (by simp only [List.length_append, List.length_singleton]; omega) (by omega),
        List.append_assoc]
      rfl
  | @unicode text more rest htail ih =>
    cases fuel with
    | zero => exact absurd hfuel (by simp)
    | succ fuel =>
      simp only [List.length_cons, List.length_append] at hlen hfuel
      have hle := unicode_length text
      rw [decodeString, look_cons, if_neg (by decide), if_neg (by decide), List.tail_cons,
        look_cons, if_pos rfl, List.tail_cons, readUnicode_of_rest htail.start.1 htail.start.2,
        done_andThen, if_pos (by omega),
        ih (by simp only [List.length_append]; omega) (by omega), List.append_assoc]

/-- A string: it is allocated, both loops end inside of the region, and what is written fits. -/
structure StringText (malloc : Mallocs) (str : List UInt8) (s : CString) (rest : List UInt8) :
    Prop where
  granted : malloc.string str.length = true
  text : ∃ body out close len, str = 34 :: body ∧ countChars body = some len ∧
    Chars body out close ∧ out.length ≤ len ∧ s = readCString (out ++ [0]) ∧
    rest = if close.head? = some 34 then close.tail else close

theorem parseString_eq_done {malloc : Mallocs} {s : CString} :
    parseString malloc text = .done s rest ↔ StringText malloc text s rest := by
  constructor
  · intro h
    obtain ⟨c, body, rfl, h⟩ := look_eq_done.mp h
    by_cases hc : c = 34
    swap
    · rw [if_pos hc] at h
      cases h
    rw [if_neg (not_not_intro hc)] at h
    obtain ⟨len, r, hscan, h⟩ := Parsed.andThen_eq_done.mp h
    cases hgranted : malloc.string (c :: body).length with
    | false =>
      rw [if_pos hgranted] at h
      cases h
    | true =>
      rw [if_neg (by rw [hgranted]; decide)] at h
      obtain ⟨out, close, hdecode, h⟩ := Parsed.andThen_eq_done.mp h
      obtain ⟨more, hchars, hout, hlen⟩ := decodeString_done hdecode
      rw [List.nil_append] at hout
      subst hout
      obtain ⟨n, hcount, hn⟩ := scanString_iff.mp ⟨r, hscan⟩
      rw [Nat.zero_add] at hn
      subst hn
      cases h
      exact ⟨hgranted, body, out, close, len, by rw [hc], hcount, hchars, hlen, rfl, rfl⟩
  · rintro ⟨hgranted, body, out, close, len, rfl, hcount, hchars, hlen, rfl, rfl⟩
    obtain ⟨r, hscan⟩ := scanString_iff.mpr ⟨len, hcount, (Nat.zero_add len).symm⟩
    rw [parseString, look_cons, if_neg (not_not_intro rfl), List.tail_cons, hscan, done_andThen,
      if_neg (by rw [hgranted]; decide),
      decodeString_of_chars hchars (by simpa using hlen) (by simp), done_andThen,
      List.nil_append]

theorem Chars.length_le {out : List UInt8} (h : Chars text out rest) :
    rest.length ≤ text.length := by
  induction h with
  | close _ => exact Nat.le_refl _
  | plain _ _ _ ih => exact ih.trans (Nat.le_succ _)
  | escape _ _ ih => exact ih.trans ((Nat.le_succ _).trans (Nat.le_succ _))
  | @unicode text _ _ _ ih =>
    have hle := unicode_length text
    simp only [List.length_cons]
    omega

theorem StringText.length_le {malloc : Mallocs} {s : CString} (h : StringText malloc text s rest) :
    rest.length ≤ text.length := by
  obtain ⟨body, out, close, len, rfl, -, hchars, -, -, rfl⟩ := h.text
  have hle := hchars.length_le
  rw [List.length_cons]
  split
  · rw [List.length_tail]
    omega
  · omega

end Strings

/-! ## Values -/

/-- What stands at a pointer: a value, or the elements of an array up to its bracket, or the
    members of an object up to its brace. -/
inductive Node
  | value (v : Json)
  | items (items : List Json)
  | members (items : List (CString × Json))

/-- The region goes on at a pointer with this, and with the last text behind it. Nodes and strings
    are allocated. -/
inductive Text (D : Doubles) (malloc : Mallocs) : Node → List UInt8 → List UInt8 → Prop
  | null {rest : List UInt8} : Text D malloc (.value .null) (ascii "null" ++ rest) rest
  | isFalse {rest : List UInt8} :
      Text D malloc (.value (.bool false)) (ascii "false" ++ rest) rest
  | isTrue {rest : List UInt8} : Text D malloc (.value (.bool true)) (ascii "true" ++ rest) rest
  | string {text rest : List UInt8} {s : CString} (h : StringText malloc text s rest) :
      Text D malloc (.value (.string s)) text rest
  | number {c : UInt8} {text rest : List UInt8} {v : Json} (hstart : c = 45 ∨ isDigit c = true)
      (h : BaiduJson.parseNumber D (c :: text) = (v, rest)) (hbehind : rest ≠ []) :
      Text D malloc (.value v) (c :: text) rest
  | emptyArray {text rest : List UInt8} (h : skipBlank text = 93 :: rest) :
      Text D malloc (.value (.array [])) (91 :: text) rest
  | array {text rest : List UInt8} {items : List Json} (hfirst : (skipBlank text).head? ≠ some 93)
      (h : Text D malloc (.items items) (skipBlank text) (93 :: rest)) :
      Text D malloc (.value (.array items)) (91 :: text) rest
  | emptyObject {text rest : List UInt8} (h : skipBlank text = 125 :: rest) :
      Text D malloc (.value (.object [])) (123 :: text) rest
  | object {text rest : List UInt8} {items : List (CString × Json)}
      (hfirst : (skipBlank text).head? ≠ some 125)
      (h : Text D malloc (.members items) (skipBlank text) (125 :: rest)) :
      Text D malloc (.value (.object items)) (123 :: text) rest
  | lastItem {text behind rest : List UInt8} {v : Json} (hitem : malloc.item text.length = true)
      (hv : Text D malloc (.value v) (skipBlank text) behind)
      (h : skipBlank behind = 93 :: rest) : Text D malloc (.items [v]) text (93 :: rest)
  | item {text behind more rest : List UInt8} {v : Json} {items : List Json}
      (hitem : malloc.item text.length = true)
      (hv : Text D malloc (.value v) (skipBlank text) behind)
      (h : skipBlank behind = 44 :: more) (hmore : Text D malloc (.items items) more rest) :
      Text D malloc (.items (v :: items)) text rest
  | lastMember {text name value behind rest : List UInt8} {s : CString} {v : Json}
      (hitem : malloc.item text.length = true)
      (hname : StringText malloc (skipBlank text) s name) (hcolon : skipBlank name = 58 :: value)
      (hv : Text D malloc (.value v) (skipBlank value) behind)
      (h : skipBlank behind = 125 :: rest) : Text D malloc (.members [(s, v)]) text (125 :: rest)
  | member {text name value behind more rest : List UInt8} {s : CString} {v : Json}
      {items : List (CString × Json)} (hitem : malloc.item text.length = true)
      (hname : StringText malloc (skipBlank text) s name) (hcolon : skipBlank name = 58 :: value)
      (hv : Text D malloc (.value v) (skipBlank value) behind)
      (h : skipBlank behind = 44 :: more) (hmore : Text D malloc (.members items) more rest) :
      Text D malloc (.members ((s, v) :: items)) text rest

/-- The region begins with a text of this tree. -/
structure RegionText (D : Doubles) (malloc : Mallocs) (region : List UInt8) (root : Json) :
    Prop where
  granted : malloc.item region.length = true
  text : ∃ rest, Text D malloc (.value root) (skipBlank region) rest

section Values

variable {D : Doubles} {malloc : Mallocs} {text rest : List UInt8}

theorem skip_andThen_eq_done {β : Type} {f : Unit → List UInt8 → Parsed β} {b : β} :
    (skip text).andThen f = .done b rest ↔
      skipBlank text ≠ [] ∧ f () (skipBlank text) = .done b rest := by
  rw [Parsed.andThen_eq_done]
  constructor
  · rintro ⟨u, r, hskip, h⟩
    obtain ⟨rfl, hne⟩ := skip_eq_done.mp hskip
    exact ⟨hne, h⟩
  · rintro ⟨hne, h⟩
    exact ⟨(), skipBlank text, skip_eq_done.mpr ⟨rfl, hne⟩, h⟩

/-- What the functions of the parser give for one amount of fuel. -/
structure Gives (D : Doubles) (malloc : Mallocs) (fuel : Nat) : Prop where
  value : ∀ {text v rest}, parseValue D malloc fuel text = .done v rest →
    Text D malloc (.value v) text rest
  array : ∀ {c text v rest}, parseArray D malloc fuel (c :: text) = .done v rest →
    Text D malloc (.value v) (91 :: text) rest
  items : ∀ {text items rest}, parseItems D malloc fuel text = .done items (93 :: rest) →
    Text D malloc (.items items) text (93 :: rest)
  object : ∀ {c text v rest}, parseObject D malloc fuel (c :: text) = .done v rest →
    Text D malloc (.value v) (123 :: text) rest
  members : ∀ {text items rest}, parseMembers D malloc fuel text = .done items (125 :: rest) →
    Text D malloc (.members items) text (125 :: rest)

theorem gives_zero : Gives D malloc 0 where
  value h := by cases h
  array h := by cases h
  items h := by cases h
  object h := by cases h
  members h := by cases h

theorem Gives.value_succ {fuel : Nat} (hg : Gives D malloc fuel) {v : Json}
    (h : parseValue D malloc (fuel + 1) text = .done v rest) :
    Text D malloc (.value v) text rest := by
  rw [parseValue] at h
  obtain ⟨isNull, r, hnull, h⟩ := Parsed.andThen_eq_done.mp h
  cases isNull with
  | true =>
    rw [strncmp_true hnull]
    cases h
    exact .null
  | false =>
    obtain ⟨isFalse, r, hfalse, h⟩ := Parsed.andThen_eq_done.mp h
    cases isFalse with
    | true =>
      rw [strncmp_true hfalse]
      cases h
      exact .isFalse
    | false =>
      obtain ⟨isTrue, r, htrue, h⟩ := Parsed.andThen_eq_done.mp h
      cases isTrue with
      | true =>
        rw [strncmp_true htrue]
        cases h
        exact .isTrue
      | false =>
        obtain ⟨c, t, rfl, h⟩ := look_eq_done.mp h
        by_cases hquote : c = 34
        · rw [if_pos hquote] at h
          obtain ⟨s, r, hs, h⟩ := Parsed.andThen_eq_done.mp h
          cases h
          exact .string (parseString_eq_done.mp hs)
        rw [if_neg hquote] at h
        by_cases hnumber : c = 45 ∨ isDigit c = true
        · rw [if_pos hnumber] at h
          obtain ⟨htwin, hne⟩ := parseNumber_done h
          exact .number hnumber htwin hne
        rw [if_neg hnumber] at h
        by_cases harray : c = 91
        · rw [if_pos harray] at h
          rw [harray]
          exact hg.array h
        rw [if_neg harray] at h
        by_cases hobject : c = 123
        · rw [if_pos hobject] at h
          rw [hobject]
          exact hg.object h
        · rw [if_neg hobject] at h
          cases h

theorem Gives.array_succ {fuel : Nat} (hg : Gives D malloc fuel) {c : UInt8} {v : Json}
    (h : parseArray D malloc (fuel + 1) (c :: text) = .done v rest) :
    Text D malloc (.value v) (91 :: text) rest := by
  rw [parseArray] at h
  obtain ⟨-, h⟩ := skip_andThen_eq_done.mp h
  obtain ⟨d, t, hd, h⟩ := look_eq_done.mp h
  rw [List.tail_cons] at hd h
  by_cases hclose : d = 93
  · subst hclose
    rw [if_pos rfl, hd] at h
    cases h
    exact .emptyArray hd
  rw [if_neg hclose] at h
  obtain ⟨items, r, hitems, h⟩ := Parsed.andThen_eq_done.mp h
  obtain ⟨e, t', rfl, h⟩ := look_eq_done.mp h
  by_cases hend : e = 93
  · rw [if_pos hend] at h
    cases h
    rw [hend] at hitems
    refine .array ?_ (hg.items hitems)
    rw [hd]
    exact fun hhead => hclose (Option.some.inj hhead)
  · rw [if_neg hend] at h
    cases h

theorem Gives.items_succ {fuel : Nat} (hg : Gives D malloc fuel) {items : List Json}
    (h : parseItems D malloc (fuel + 1) text = .done items (93 :: rest)) :
    Text D malloc (.items items) text (93 :: rest) := by
  rw [parseItems] at h
  by_cases hitem : malloc.item text.length = true
  swap
  · rw [if_pos (by simpa using hitem)] at h
    cases h
  rw [if_neg (by simp [hitem])] at h
  obtain ⟨-, h⟩ := skip_andThen_eq_done.mp h
  obtain ⟨v, behind, hv, h⟩ := Parsed.andThen_eq_done.mp h
  obtain ⟨-, h⟩ := skip_andThen_eq_done.mp h
  obtain ⟨c, t, hc, h⟩ := look_eq_done.mp h
  by_cases hcomma : c = 44
  · subst hcomma
    rw [if_pos rfl, hc] at h
    obtain ⟨more, r, hmore, h⟩ := Parsed.andThen_eq_done.mp h
    cases h
    exact .item hitem (hg.value hv) hc (hg.items hmore)
  · rw [if_neg hcomma] at h
    obtain ⟨rfl, hend⟩ := Parsed.done.inj h
    exact .lastItem hitem (hg.value hv) hend

theorem Gives.object_succ {fuel : Nat} (hg : Gives D malloc fuel) {c : UInt8} {v : Json}
    (h : parseObject D malloc (fuel + 1) (c :: text) = .done v rest) :
    Text D malloc (.value v) (123 :: text) rest := by
  rw [parseObject] at h
  obtain ⟨-, h⟩ := skip_andThen_eq_done.mp h
  obtain ⟨d, t, hd, h⟩ := look_eq_done.mp h
  rw [List.tail_cons] at hd h
  by_cases hclose : d = 125
  · subst hclose
    rw [if_pos rfl, hd] at h
    cases h
    exact .emptyObject hd
  rw [if_neg hclose] at h
  obtain ⟨items, r, hitems, h⟩ := Parsed.andThen_eq_done.mp h
  obtain ⟨e, t', rfl, h⟩ := look_eq_done.mp h
  by_cases hend : e = 125
  · rw [if_pos hend] at h
    cases h
    rw [hend] at hitems
    refine .object ?_ (hg.members hitems)
    rw [hd]
    exact fun hhead => hclose (Option.some.inj hhead)
  · rw [if_neg hend] at h
    cases h

theorem Gives.members_succ {fuel : Nat} (hg : Gives D malloc fuel)
    {items : List (CString × Json)}
    (h : parseMembers D malloc (fuel + 1) text = .done items (125 :: rest)) :
    Text D malloc (.members items) text (125 :: rest) := by
  rw [parseMembers] at h
  by_cases hitem : malloc.item text.length = true
  swap
  · rw [if_pos (by simpa using hitem)] at h
    cases h
  rw [if_neg (by simp [hitem])] at h
  obtain ⟨-, h⟩ := skip_andThen_eq_done.mp h
  obtain ⟨s, name, hname, h⟩ := Parsed.andThen_eq_done.mp h
  obtain ⟨-, h⟩ := skip_andThen_eq_done.mp h
  obtain ⟨colon, value, hvalue, h⟩ := look_eq_done.mp h
  by_cases hcolon : colon = 58
  swap
  · rw [if_pos hcolon] at h
    cases h
  subst hcolon
  rw [if_neg (not_not_intro rfl), hvalue, List.tail_cons] at h
  obtain ⟨-, h⟩ := skip_andThen_eq_done.mp h
  obtain ⟨v, behind, hv, h⟩ := Parsed.andThen_eq_done.mp h
  obtain ⟨-, h⟩ := skip_andThen_eq_done.mp h
  obtain ⟨c, t, hc, h⟩ := look_eq_done.mp h
  have hs := parseString_eq_done.mp hname
  by_cases hcomma : c = 44
  · subst hcomma
    rw [if_pos rfl, hc] at h
    obtain ⟨more, r, hmore, h⟩ := Parsed.andThen_eq_done.mp h
    cases h
    exact .member hitem hs hvalue (hg.value hv) hc (hg.members hmore)
  · rw [if_neg hcomma] at h
    obtain ⟨rfl, hend⟩ := Parsed.done.inj h
    exact .lastMember hitem hs hvalue (hg.value hv) hend

/-- **What the parser reads is a text.** Its functions call each other, so the statement is about
    all of them, by induction on the fuel they share. -/
theorem gives (D : Doubles) (malloc : Mallocs) (fuel : Nat) : Gives D malloc fuel := by
  induction fuel with
  | zero => exact gives_zero
  | succ fuel ih =>
    exact ⟨ih.value_succ, ih.array_succ, ih.items_succ, ih.object_succ, ih.members_succ⟩

/-! ## And the other way round -/

theorem skipBlank_length_le (text : List UInt8) : (skipBlank text).length ≤ text.length :=
  (List.dropWhile_sublist _).length_le

theorem length_of_skipBlank {c : UInt8} (h : skipBlank text = c :: rest) :
    rest.length + 1 ≤ text.length := by
  have hle := skipBlank_length_le text
  rwa [h, List.length_cons] at hle

theorem Text.length_le {node : Node} (h : Text D malloc node text rest) :
    rest.length ≤ text.length := by
  induction h with
  | null | isFalse | isTrue =>
    rw [List.length_append]
    exact Nat.le_add_left _ _
  | string h => exact h.length_le
  | @number c text _ _ _ h _ =>
    have hle := @parseNumber_length_le D (c :: text)
    rw [h] at hle
    exact hle
  | emptyArray h | emptyObject h =>
    have hle := length_of_skipBlank h
    rw [List.length_cons]
    omega
  | @array text _ _ _ _ ih | @object text _ _ _ _ ih =>
    have hle := skipBlank_length_le text
    rw [List.length_cons] at ih ⊢
    omega
  | @lastItem text behind _ _ _ _ h ih =>
    have hle := skipBlank_length_le text
    have hend := length_of_skipBlank h
    rw [List.length_cons]
    omega
  | @item text behind _ _ _ _ _ _ h _ ih ihmore =>
    have hle := skipBlank_length_le text
    have hcomma := length_of_skipBlank h
    omega
  | @lastMember text name value behind _ _ _ _ hname hcolon _ h ih =>
    have hle := skipBlank_length_le text
    have hname := hname.length_le
    have hcolon := length_of_skipBlank hcolon
    have hvalue := skipBlank_length_le value
    have hend := length_of_skipBlank h
    rw [List.length_cons]
    omega
  | @member text name value behind _ _ _ _ _ _ hname hcolon _ h _ ih ihmore =>
    have hle := skipBlank_length_le text
    have hname := hname.length_le
    have hcolon := length_of_skipBlank hcolon
    have hvalue := skipBlank_length_le value
    have hcomma := length_of_skipBlank h
    omega

theorem StringText.text_ne {s : CString} (h : StringText malloc text s rest) : text ≠ [] := by
  obtain ⟨body, -, -, -, rfl, -⟩ := h.text
  exact List.cons_ne_nil _ _

theorem Text.text_ne {v : Json} (h : Text D malloc (.value v) text rest) : text ≠ [] := by
  cases h with
  | null | isFalse | isTrue => exact fun h => by cases h
  | string h => exact h.text_ne
  | number | emptyArray | array | emptyObject | object => exact List.cons_ne_nil _ _

/-- A number is not left at a point that ends the region. -/
def NotAtPoint (v : Json) (rest : List UInt8) : Prop :=
  ∀ n d, v = .number n d → rest ≠ [46]

theorem notAtPoint_of_skip {v : Json} {c : UInt8} {behind : List UInt8} (hc : c ≠ 46)
    (h : skipBlank behind = c :: rest) : NotAtPoint v behind := by
  rintro - - - rfl
  exact hc (List.head_eq_of_cons_eq h).symm

theorem strncmp_three (text : List UInt8) {c : UInt8} (hn : c ≠ 110) (hf : c ≠ 102) (ht : c ≠ 116) :
    strncmp (ascii "null") (c :: text) = .done false (c :: text) ∧
      strncmp (ascii "false") (c :: text) = .done false (c :: text) ∧
        strncmp (ascii "true") (c :: text) = .done false (c :: text) :=
  ⟨strncmp_ne _ hn, strncmp_ne _ hf, strncmp_ne _ ht⟩

/-- What `parse_value` does with a first octet that begins no word. -/
theorem parseValue_of_first {fuel : Nat} {c : UInt8} (hn : c ≠ 110) (hf : c ≠ 102)
    (ht : c ≠ 116) :
    parseValue D malloc (fuel + 1) (c :: text) =
      if c = 34 then
        (parseString malloc (c :: text)).andThen fun s rest => .done (.string s) rest
      else if c = 45 ∨ isDigit c = true then parseNumber D (c :: text)
      else if c = 91 then parseArray D malloc fuel (c :: text)
      else if c = 123 then parseObject D malloc fuel (c :: text)
      else .null := by
  obtain ⟨hnull, hfalse, htrue⟩ := strncmp_three text hn hf ht
  rw [parseValue, hnull, done_andThen, if_neg Bool.false_ne_true, hfalse, done_andThen,
    if_neg Bool.false_ne_true, htrue, done_andThen, if_neg Bool.false_ne_true, look_cons]

theorem number_first {c : UInt8} (h : c = 45 ∨ isDigit c = true) :
    c ≠ 110 ∧ c ≠ 102 ∧ c ≠ 116 ∧ c ≠ 34 := by
  refine ⟨?_, ?_, ?_, ?_⟩
  all_goals
    rintro rfl
    exact absurd h (by decide)

/-- What is read of a node, with this much fuel. -/
def ReadAs (D : Doubles) (malloc : Mallocs) (fuel : Nat) :
    Node → List UInt8 → List UInt8 → Prop
  | .value v, text, rest => 3 * text.length + 1 ≤ fuel → NotAtPoint v rest →
      parseValue D malloc fuel text = .done v rest
  | .items items, text, rest => 3 * text.length + 2 ≤ fuel →
      parseItems D malloc fuel text = .done items rest
  | .members items, text, rest => 3 * text.length + 2 ≤ fuel →
      parseMembers D malloc fuel text = .done items rest

theorem Text.readAs {node : Node} (h : Text D malloc node text rest) (fuel : Nat) :
    ReadAs D malloc fuel node text rest := by
  induction h generalizing fuel with
  | @null rest =>
    intro hfuel _
    obtain ⟨fuel, rfl⟩ : ∃ n, fuel = n + 1 := ⟨fuel - 1, by omega⟩
    rw [parseValue, strncmp_self, done_andThen, if_pos rfl]
  | @isFalse rest =>
    intro hfuel _
    obtain ⟨fuel, rfl⟩ : ∃ n, fuel = n + 1 := ⟨fuel - 1, by omega⟩
    have hnull : strncmp (ascii "null") (ascii "false" ++ rest) =
        .done false (ascii "false" ++ rest) := strncmp_ne _ (by decide)
    rw [parseValue, hnull, done_andThen, if_neg Bool.false_ne_true, strncmp_self, done_andThen,
      if_pos rfl]
  | @isTrue rest =>
    intro hfuel _
    obtain ⟨fuel, rfl⟩ : ∃ n, fuel = n + 1 := ⟨fuel - 1, by omega⟩
    have hnull : strncmp (ascii "null") (ascii "true" ++ rest) =
        .done false (ascii "true" ++ rest) := strncmp_ne _ (by decide)
    have hfalse : strncmp (ascii "false") (ascii "true" ++ rest) =
        .done false (ascii "true" ++ rest) := strncmp_ne _ (by decide)
    rw [parseValue, hnull, done_andThen, if_neg Bool.false_ne_true, hfalse, done_andThen,
      if_neg Bool.false_ne_true, strncmp_self, done_andThen, if_pos rfl]
  | @string text rest s h =>
    intro hfuel _
    obtain ⟨fuel, rfl⟩ : ∃ n, fuel = n + 1 := ⟨fuel - 1, by omega⟩
    have hread := parseString_eq_done.mpr h
    obtain ⟨body, -, -, -, rfl, -⟩ := h.text
    rw [parseValue_of_first (by decide) (by decide) (by decide), if_pos rfl, hread, done_andThen]
  | @number c text rest v hstart h hbehind =>
    intro hfuel hpoint
    obtain ⟨fuel, rfl⟩ : ∃ n, fuel = n + 1 := ⟨fuel - 1, by omega⟩
    obtain ⟨hn, hf, ht, hquote⟩ := number_first hstart
    rw [parseValue_of_first hn hf ht, if_neg hquote, if_pos hstart]
    exact parseNumber_of_twin h hbehind (hpoint _ _ (congrArg Prod.fst h).symm)
  | @emptyArray text rest h =>
    intro hfuel _
    simp only [List.length_cons] at hfuel
    obtain ⟨fuel, rfl⟩ : ∃ n, fuel = n + 2 := ⟨fuel - 2, by omega⟩
    rw [parseValue_of_first (by decide) (by decide) (by decide), if_neg (by decide),
      if_neg (by decide), if_pos rfl, parseArray, List.tail_cons, skip_of_cons h, done_andThen,
      look_cons, if_pos rfl, List.tail_cons]
  | @array text rest items hfirst h ih =>
    intro hfuel _
    have hle := skipBlank_length_le text
    simp only [List.length_cons] at hfuel
    obtain ⟨fuel, rfl⟩ : ∃ n, fuel = n + 2 := ⟨fuel - 2, by omega⟩
    have hitems : parseItems D malloc fuel (skipBlank text) = .done items (93 :: rest) :=
      ih fuel (by omega)
    rw [parseValue_of_first (by decide) (by decide) (by decide), if_neg (by decide),
      if_neg (by decide), if_pos rfl, parseArray, List.tail_cons]
    cases hskip : skipBlank text with
    | nil =>
      have hlength := h.length_le
      rw [hskip] at hlength
      exact absurd hlength (by simp)
    | cons d t =>
      rw [hskip] at hfirst hitems
      rw [skip_of_cons hskip, done_andThen, look_cons,
        if_neg fun hd => hfirst (congrArg some hd), hitems, done_andThen, look_cons, if_pos rfl,
        List.tail_cons]
  | @emptyObject text rest h =>
    intro hfuel _
    simp only [List.length_cons] at hfuel
    obtain ⟨fuel, rfl⟩ : ∃ n, fuel = n + 2 := ⟨fuel - 2, by omega⟩
    rw [parseValue_of_first (by decide) (by decide) (by decide), if_neg (by decide),
      if_neg (by decide), if_neg (by decide), if_pos rfl, parseObject, List.tail_cons,
      skip_of_cons h, done_andThen, look_cons, if_pos rfl, List.tail_cons]
  | @object text rest items hfirst h ih =>
    intro hfuel _
    have hle := skipBlank_length_le text
    simp only [List.length_cons] at hfuel
    obtain ⟨fuel, rfl⟩ : ∃ n, fuel = n + 2 := ⟨fuel - 2, by omega⟩
    have hitems : parseMembers D malloc fuel (skipBlank text) = .done items (125 :: rest) :=
      ih fuel (by omega)
    rw [parseValue_of_first (by decide) (by decide) (by decide), if_neg (by decide),
      if_neg (by decide), if_neg (by decide), if_pos rfl, parseObject, List.tail_cons]
    cases hskip : skipBlank text with
    | nil =>
      have hlength := h.length_le
      rw [hskip] at hlength
      exact absurd hlength (by simp)
    | cons d t =>
      rw [hskip] at hfirst hitems
      rw [skip_of_cons hskip, done_andThen, look_cons,
        if_neg fun hd => hfirst (congrArg some hd), hitems, done_andThen, look_cons, if_pos rfl,
        List.tail_cons]
  | @lastItem text behind rest v hitem hv h ih =>
    intro hfuel
    have hle := skipBlank_length_le text
    obtain ⟨fuel, rfl⟩ : ∃ n, fuel = n + 1 := ⟨fuel - 1, by omega⟩
    have hvalue : parseValue D malloc fuel (skipBlank text) = .done v behind :=
      ih fuel (by omega) (notAtPoint_of_skip (by decide) h)
    rw [parseItems, if_neg (by simp [hitem]), skip_andThen_eq_done]
    refine ⟨hv.text_ne, ?_⟩
    rw [hvalue, done_andThen, skip_of_cons h, done_andThen, look_cons, if_neg (by decide)]
  | @item text behind more rest v items hitem hv h hmore ih ihmore =>
    intro hfuel
    have hle := skipBlank_length_le text
    have hbehind := hv.length_le
    have hcomma := length_of_skipBlank h
    obtain ⟨fuel, rfl⟩ : ∃ n, fuel = n + 1 := ⟨fuel - 1, by omega⟩
    have hvalue : parseValue D malloc fuel (skipBlank text) = .done v behind :=
      ih fuel (by omega) (notAtPoint_of_skip (by decide) h)
    have hitems : parseItems D malloc fuel more = .done items rest := ihmore fuel (by omega)
    rw [parseItems, if_neg (by simp [hitem]), skip_andThen_eq_done]
    refine ⟨hv.text_ne, ?_⟩
    rw [hvalue, done_andThen, skip_of_cons h, done_andThen, look_cons, if_pos rfl,
      List.tail_cons, hitems, done_andThen]
  | @lastMember text name value behind rest s v hitem hname hcolon hv h ih =>
    intro hfuel
    have hle := skipBlank_length_le text
    have hnameLe := hname.length_le
    have hcolonLe := length_of_skipBlank hcolon
    have hvalueLe := skipBlank_length_le value
    obtain ⟨fuel, rfl⟩ : ∃ n, fuel = n + 1 := ⟨fuel - 1, by omega⟩
    have hvalue : parseValue D malloc fuel (skipBlank value) = .done v behind :=
      ih fuel (by omega) (notAtPoint_of_skip (by decide) h)
    rw [parseMembers, if_neg (by simp [hitem]), skip_andThen_eq_done]
    refine ⟨hname.text_ne, ?_⟩
    rw [parseString_eq_done.mpr hname, done_andThen, skip_of_cons hcolon, done_andThen, look_cons,
      if_neg (not_not_intro rfl), List.tail_cons, skip_andThen_eq_done]
    refine ⟨hv.text_ne, ?_⟩
    rw [hvalue, done_andThen, skip_of_cons h, done_andThen, look_cons, if_neg (by decide)]
  | @member text name value behind more rest s v items hitem hname hcolon hv h hmore ih ihmore =>
    intro hfuel
    have hle := skipBlank_length_le text
    have hnameLe := hname.length_le
    have hcolonLe := length_of_skipBlank hcolon
    have hvalueLe := skipBlank_length_le value
    have hbehind := hv.length_le
    have hcomma := length_of_skipBlank h
    obtain ⟨fuel, rfl⟩ : ∃ n, fuel = n + 1 := ⟨fuel - 1, by omega⟩
    have hvalue : parseValue D malloc fuel (skipBlank value) = .done v behind :=
      ih fuel (by omega) (notAtPoint_of_skip (by decide) h)
    have hitems : parseMembers D malloc fuel more = .done items rest := ihmore fuel (by omega)
    rw [parseMembers, if_neg (by simp [hitem]), skip_andThen_eq_done]
    refine ⟨hname.text_ne, ?_⟩
    rw [parseString_eq_done.mpr hname, done_andThen, skip_of_cons hcolon, done_andThen, look_cons,
      if_neg (not_not_intro rfl), List.tail_cons, skip_andThen_eq_done]
    refine ⟨hv.text_ne, ?_⟩
    rw [hvalue, done_andThen, skip_of_cons h, done_andThen, look_cons, if_pos rfl,
      List.tail_cons, hitems, done_andThen]

/-- **The parser reads what is a text, and nothing else**: it gives an object exactly where the
    region begins with the text of it, and then stays inside of the region. What stands behind the
    text is not looked at. -/
theorem cJsonParse_iff {region : List UInt8} {members : List (CString × Json)} :
    (∃ rest, cJsonParse D malloc region = .done (.object members) rest) ↔
      RegionText D malloc region (.object members) := by
  constructor
  · rintro ⟨rest, h⟩
    rw [cJsonParse] at h
    by_cases hitem : malloc.item region.length = true
    · rw [if_neg (by simp [hitem])] at h
      obtain ⟨-, h⟩ := skip_andThen_eq_done.mp h
      exact ⟨hitem, rest, (gives D malloc _).value h⟩
    · rw [if_pos (by simpa using hitem)] at h
      cases h
  · rintro ⟨hitem, rest, h⟩
    refine ⟨rest, ?_⟩
    rw [cJsonParse, if_neg (by simp [hitem]), skip_andThen_eq_done]
    exact ⟨h.text_ne, h.readAs _ (Nat.le_refl _) fun n d hnumber => by cases hnumber⟩

end Values

end CJson
end Ota
end LightDuer
