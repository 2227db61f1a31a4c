/-!
# Decimal numerals

Whole numbers written in ASCII digits.

* `digits`, `ofInt` — the canonical numeral of a number: no leading zero, a sign only if negative.
* `natural?` — the number that one or more digits stand for.
* `integer?` — the same after an optional sign.
* `int64?`, `uint64?` — the same within the range of a 64-bit word.
-/

namespace SoupQuery.Decimal

/-- The digits of a number in base ten, without leading zeros. -/
def digits (n : Nat) : List Char := Nat.toDigits 10 n

/-- The canonical numeral of an integer. -/
def ofInt (n : Int) : String :=
  String.ofList (if n < 0 then '-' :: digits n.natAbs else digits n.natAbs)

/-- The number that the digits stand for; there must be at least one, and nothing else. -/
def natural? (text : List Char) : Option Nat :=
  if text ≠ [] ∧ text.all Char.isDigit then some (Nat.ofDigitChars 10 text 0) else none

/-- Splits off an optional sign; the flag says whether it was a minus. -/
def splitSign : List Char → Bool × List Char
  | '-' :: rest => (true, rest)
  | '+' :: rest => (false, rest)
  | text => (false, text)

/-- The integer written as an optional sign and digits. -/
def integer? (text : List Char) : Option Int :=
  (natural? (splitSign text).2).map fun n => if (splitSign text).1 then -(n : Int) else n

/-- The integers that a signed 64-bit word holds. -/
def InInt64 (n : Int) : Prop := -9223372036854775808 ≤ n ∧ n ≤ 9223372036854775807

instance (n : Int) : Decidable (InInt64 n) := by unfold InInt64; infer_instance

/-- An integer that a signed 64-bit word holds. -/
def int64? (text : List Char) : Option Int := (integer? text).filter fun n => InInt64 n

/-- A natural number that an unsigned 64-bit word holds; a minus is refused, also before zero. -/
def uint64? (text : List Char) : Option Nat :=
  if (splitSign text).1 then none
  else (natural? (splitSign text).2).filter fun n => n ≤ 18446744073709551615

theorem isDigit_of_mem_digits {n : Nat} {c : Char} (h : c ∈ digits n) : c.isDigit = true :=
  Nat.isDigit_of_mem_toDigits (by decide) (by decide) h

theorem natural?_digits (n : Nat) : natural? (digits n) = some n := by
  have hall : (Nat.toDigits 10 n).all Char.isDigit = true :=
    List.all_eq_true.2 fun c hc => isDigit_of_mem_digits hc
  simp [natural?, digits, hall, Nat.ofDigitChars_toDigits]

end SoupQuery.Decimal
