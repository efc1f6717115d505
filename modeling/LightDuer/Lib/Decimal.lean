import LightDuer.Lib.Text

/-!
# Numbers in decimal

What `%d` writes of a number: its digits, of which there is at least one. Reading them gives the
number back, in whatever the reader counts.

The digits come from `Nat.toDigits`, which has no recursion that an induction could follow. The two
lemmas `decimal_of_lt` and `decimal_of_ge` give it one: a number below ten is a single digit, any
other is the number of its tens followed by its last digit. `decimal_induction` is the induction
that goes with them, and every fact below is an instance of it: that the digits are digits, that
there are some, that the first is not a zero unless the number is, and how many there are.

## Reading

A reader of digits is a fold, and readers differ in what they fold into: a natural number, a machine
word, a floating-point value. `foldl_decimal` is therefore about any type `α` and any `value : Nat →
α`. All it asks is that one step takes `value m` to `value (m * 10 + d)` as long as the number stays
within `bound`, which is where a reader may be exact only up to some size. A user instantiates
`step` with the body of the loop at hand and proves that one equation.
-/

set_option autoImplicit false

namespace Lib

/-- The digit for a number below ten. -/
def digitOctet (d : Nat) : UInt8 := UInt8.ofNat (48 + d)

/-- The digits of a number. -/
def decimal (n : Nat) : List UInt8 := (Nat.toDigits 10 n).map fun c => UInt8.ofNat c.toNat

section Decimal

variable {n : Nat}

theorem digitChar_octet (h : n < 10) : UInt8.ofNat n.digitChar.toNat = digitOctet n := by
  have hall : ∀ d < 10, UInt8.ofNat (Nat.digitChar d).toNat = digitOctet d := by decide
  exact hall n h

theorem decDigit?_digitOctet (h : n < 10) : decDigit? (digitOctet n) = some n := by
  have hall : ∀ d < 10, decDigit? (digitOctet d) = some d := by decide
  exact hall n h

theorem decimal_of_lt (h : n < 10) : decimal n = [digitOctet n] := by
  rw [decimal, Nat.toDigits_of_lt_base h, List.map_singleton, digitChar_octet h]

theorem decimal_of_ge (h : 10 ≤ n) : decimal n = decimal (n / 10) ++ [digitOctet (n % 10)] := by
  rw [decimal, Nat.toDigits_of_base_le (by decide) h, List.map_append, List.map_singleton,
    digitChar_octet (Nat.mod_lt n (by decide))]
  rfl

/-- The digits in front of the last are those of the tenth. -/
theorem decimal_induction {P : Nat → Prop} (lt : ∀ n, n < 10 → P n)
    (ge : ∀ n, 10 ≤ n → P (n / 10) → P n) (n : Nat) : P n := by
  induction n using Nat.strongRecOn with
  | ind n ih =>
    rcases Nat.lt_or_ge n 10 with hlt | hge
    · exact lt n hlt
    · exact ge n hge (ih (n / 10) (Nat.div_lt_self (by omega) (by decide)))

theorem isDigit_decimal (n : Nat) : ∀ b ∈ decimal n, (decDigit? b).isSome = true := by
  induction n using decimal_induction with
  | lt n h =>
    intro b hb
    rw [decimal_of_lt h, List.mem_singleton] at hb
    rw [hb, decDigit?_digitOctet h]
    rfl
  | ge n h ih =>
    intro b hb
    rw [decimal_of_ge h] at hb
    rcases List.mem_append.mp hb with hb | hb
    · exact ih b hb
    · rw [List.mem_singleton.mp hb, decDigit?_digitOctet (Nat.mod_lt n (by decide))]
      rfl

theorem decimal_ne_nil (n : Nat) : decimal n ≠ [] := by
  rcases Nat.lt_or_ge n 10 with hlt | hge
  · rw [decimal_of_lt hlt]
    exact List.cons_ne_nil _ _
  · rw [decimal_of_ge hge]
    exact List.append_ne_nil_of_right_ne_nil _ (List.cons_ne_nil _ _)

/-- The first digit of a number that is not zero is not zero. -/
theorem decimal_head (h : 0 < n) :
    ∃ d ds, decimal n = digitOctet d :: ds ∧ 0 < d ∧ d < 10 := by
  induction n using decimal_induction with
  | lt n hlt => exact ⟨n, [], decimal_of_lt hlt, h, hlt⟩
  | ge n hge ih =>
    obtain ⟨d, ds, heq, hpos, hlt⟩ := ih (by omega)
    exact ⟨d, ds ++ [digitOctet (n % 10)], by rw [decimal_of_ge hge, heq]; rfl, hpos, hlt⟩

theorem length_decimal_le {k : Nat} (hk : 0 < k) (h : n < 10 ^ k) : (decimal n).length ≤ k := by
  rw [decimal, List.length_map]
  exact (Nat.length_toDigits_le_iff (by decide) hk).mpr h

/-- **Reading the digits**, from the first on, in whatever `value` gives of a number: `step` takes
    the next digit. -/
theorem foldl_decimal {α : Type} (step : α → Nat → α) (value : Nat → α) {bound : Nat}
    (hstep : ∀ m d, d < 10 → m * 10 + d ≤ bound → step (value m) d = value (m * 10 + d))
    (h : n ≤ bound) :
    (decimal n).foldl (fun a b => step a ((decDigit? b).getD 0)) (value 0) = value n := by
  induction n using decimal_induction with
  | lt n hlt =>
    rw [decimal_of_lt hlt, List.foldl_cons, List.foldl_nil, decDigit?_digitOctet hlt,
      Option.getD_some, hstep 0 n hlt (by omega)]
    congr 1
    omega
  | ge n hge ih =>
    have hmod : n % 10 < 10 := Nat.mod_lt n (by decide)
    have hsum : n / 10 * 10 + n % 10 = n := by omega
    rw [decimal_of_ge hge, List.foldl_append, ih (by omega), List.foldl_cons, List.foldl_nil,
      decDigit?_digitOctet hmod, Option.getD_some, hstep _ _ hmod (by omega), hsum]

end Decimal

end Lib
