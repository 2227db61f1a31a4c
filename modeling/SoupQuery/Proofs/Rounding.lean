import Mathlib.Data.List.TakeWhile
import Mathlib.Data.Nat.Digits.Defs
import Mathlib.Data.Rat.Lemmas
import SoupQuery.Compile.Literal

/-!
# Integers as doubles

The exact value of a double, and which integers keep their value as one. A magnitude is a
coefficient below `2⁵³` times a power of two; conversion finds that form again, so it keeps every
integer that is the value of some double, and all integers up to `2⁵³` are.

* `Binary64.value?` — the exact value of a finite number.
* `Scaled` — the forms `coefficient · 2 ^ shift` of magnitudes.
* `nearestRank_units` — **rounding a magnitude of the format changes nothing.**
* `value?_ofInt` — an integer that is the value of a double is converted to such a double.
* `exists_value?_of_natAbs_le` — every integer up to `2⁵³` is the value of a double.
* `doubleValue?_of_intValue?` — what reads as an integer reads as the double of that integer.
-/

namespace SoupQuery.Decimal

/-- The units of a sign and a rank. -/
def signedUnits (negative : Bool) (rank : Nat) : Int :=
  if negative then -(units rank : Int) else units rank

/-- The exact value of a number, if it is finite. -/
def Binary64.value? : Binary64 → Option Rat
  | .finite negative rank => some (mkRat (signedUnits negative rank) unitsInOne)
  | _ => none

/-! ## Magnitudes -/

theorem twoPow_eq (exponent : Nat) : twoPow exponent = 2 ^ exponent := rfl

theorem twoPow_pos (exponent : Nat) : 0 < twoPow exponent := Nat.two_pow_pos exponent

theorem twoPow_add (first second : Nat) :
    twoPow (first + second) = twoPow first * twoPow second := Nat.pow_add 2 first second

theorem blockSize_eq : blockSize = 2 ^ 52 := rfl

theorem unitsInOne_ne_zero : unitsInOne ≠ 0 := (twoPow_pos 1074).ne'

/-- The coefficient of a magnitude fits into 53 bits and, beyond the least spacing, needs them. -/
structure Scaled (coefficient shift : Nat) : Prop where
  lt : coefficient < 2 * blockSize
  le : shift = 0 ∨ blockSize ≤ coefficient

theorem exists_scaled (rank : Nat) :
    ∃ coefficient shift, Scaled coefficient shift ∧ rank = shift * blockSize + coefficient := by
  have hpos : 0 < blockSize := by rw [blockSize_eq]; decide
  have hrank := Nat.div_add_mod' rank blockSize
  have hrest := Nat.mod_lt rank hpos
  cases hquotient : rank / blockSize with
  | zero =>
    rw [hquotient] at hrank
    exact ⟨rank % blockSize, 0, ⟨by omega, .inl rfl⟩, by omega⟩
  | succ shift =>
    rw [hquotient, Nat.succ_mul] at hrank
    exact ⟨blockSize + rank % blockSize, shift, ⟨by omega, .inr (by omega)⟩, by omega⟩

namespace Scaled

variable {coefficient shift : Nat}

theorem units_eq (h : Scaled coefficient shift) :
    units (shift * blockSize + coefficient) = coefficient * twoPow shift := by
  have hpos : 0 < blockSize := by rw [blockSize_eq]; decide
  have hbinade : binade (shift * blockSize + coefficient) = shift := by
    unfold binade
    rw [Nat.add_comm, Nat.add_mul_div_right _ _ hpos]
    rcases h.le with rfl | hle
    · have hlt : coefficient / blockSize < 2 := (Nat.div_lt_iff_lt_mul hpos).2 h.lt
      omega
    · have hone : coefficient / blockSize = 1 := by
        refine Nat.div_eq_of_lt_le ?_ ?_
        · rwa [Nat.one_mul]
        · exact h.lt
      omega
  rw [units, hbinade, Nat.add_sub_cancel_left]

theorem log2_sub (h : Scaled coefficient shift) :
    (coefficient * twoPow shift).log2 - 52 = shift := by
  rw [twoPow_eq]
  have hlt := h.lt
  rw [blockSize_eq] at hlt
  rcases h.le with rfl | hle
  · rw [pow_zero, Nat.mul_one]
    by_cases hzero : coefficient = 0
    · subst hzero
      decide
    · have hlog : coefficient.log2 < 53 := (Nat.log2_lt hzero).2 (by omega)
      omega
  · rw [blockSize_eq] at hle
    have hpow : 0 < 2 ^ shift := Nat.two_pow_pos shift
    have hne : coefficient * 2 ^ shift ≠ 0 := Nat.mul_ne_zero (by omega) hpow.ne'
    have hlog : (coefficient * 2 ^ shift).log2 = 52 + shift := by
      rw [Nat.log2_eq_iff hne, Nat.pow_succ, Nat.pow_add]
      refine ⟨Nat.mul_le_mul_right _ hle, ?_⟩
      calc coefficient * 2 ^ shift < 2 * 2 ^ 52 * 2 ^ shift := Nat.mul_lt_mul_of_pos_right hlt hpow
        _ = 2 ^ 52 * 2 ^ shift * 2 := by rw [Nat.mul_comm 2, Nat.mul_right_comm]
    omega

theorem nearestRank_eq (h : Scaled coefficient shift) :
    nearestRank (coefficient * twoPow shift) 1 = shift * blockSize + coefficient := by
  have hpow : 0 < twoPow shift := Nat.two_pow_pos shift
  unfold nearestRank
  simp only [Nat.div_one, h.log2_sub, Nat.one_mul, Nat.mul_div_cancel _ hpow, Nat.mul_mod_left]
  rw [if_neg (by omega), Nat.add_zero]

end Scaled

/-- **Rounding a magnitude of the format changes nothing.** -/
theorem nearestRank_units (rank : Nat) : nearestRank (units rank) 1 = rank := by
  obtain ⟨coefficient, shift, hscaled, rfl⟩ := exists_scaled rank
  rw [hscaled.units_eq, hscaled.nearestRank_eq]

/-- An integer up to `2⁵³` has the form of a magnitude: it is shifted until it needs 53 bits. -/
theorem exists_scaled_of_le {m : Nat} (h : m ≤ 2 ^ 53) : ∃ coefficient shift,
    Scaled coefficient shift ∧ shift ≤ 1075 ∧ coefficient * twoPow shift = m * unitsInOne := by
  by_cases hzero : m = 0
  · subst hzero
    exact ⟨0, 0, ⟨by rw [blockSize_eq]; decide, .inl rfl⟩, by omega, by simp⟩
  by_cases htop : m = 2 ^ 53
  · subst htop
    refine ⟨2 ^ 52, 1 + 1074, ⟨by rw [blockSize_eq]; decide, .inr le_rfl⟩, by omega, ?_⟩
    rw [twoPow_add, ← Nat.mul_assoc, show 2 ^ 52 * twoPow 1 = 2 ^ 53 from rfl, unitsInOne]
  · have hlog : m.log2 < 53 := (Nat.log2_lt hzero).2 (by omega)
    obtain ⟨hlow, hhigh⟩ := (Nat.log2_eq_iff hzero).1 rfl
    have hsplit : twoPow (52 - m.log2) * twoPow (1022 + m.log2) = unitsInOne := by
      rw [← twoPow_add, show 52 - m.log2 + (1022 + m.log2) = 1074 by omega, unitsInOne]
    refine ⟨m * twoPow (52 - m.log2), 1022 + m.log2, ⟨?_, .inr ?_⟩, by omega, ?_⟩
    · calc m * twoPow (52 - m.log2)
          < 2 ^ (m.log2 + 1) * twoPow (52 - m.log2) :=
            Nat.mul_lt_mul_of_pos_right hhigh (twoPow_pos _)
        _ = twoPow 53 := by
          rw [← twoPow_eq, ← twoPow_add, show m.log2 + 1 + (52 - m.log2) = 53 by omega]
        _ = 2 * blockSize := rfl
    · calc blockSize = twoPow (m.log2 + (52 - m.log2)) := by
            rw [show m.log2 + (52 - m.log2) = 52 by omega]
            rfl
        _ = 2 ^ m.log2 * twoPow (52 - m.log2) := twoPow_add _ _
        _ ≤ m * twoPow (52 - m.log2) := Nat.mul_le_mul_right _ hlow
    · rw [Nat.mul_assoc, hsplit]

namespace Binary64

/-! ## Integers -/

theorem eq_signed_natAbs (n : Int) :
    n = if decide (n < 0) then -(n.natAbs : Int) else n.natAbs := by
  split <;> rename_i hsign <;> simp only [decide_eq_true_eq] at hsign <;> omega

theorem value?_eq_int {d : Binary64} {n : Int} :
    d.value? = some (n : Rat) ↔ ∃ negative rank, d = .finite negative rank ∧
      signedUnits negative rank = n * unitsInOne := by
  cases d with
  | finite negative rank =>
    have hone : (n : Rat) = mkRat n 1 := (Rat.mkRat_one n).symm
    rw [value?, Option.some.injEq, hone, Rat.mkRat_eq_iff unitsInOne_ne_zero Nat.one_ne_zero,
      Int.natCast_one, Int.mul_one]
    constructor
    · intro hunits
      exact ⟨negative, rank, rfl, hunits⟩
    · rintro ⟨_, _, heq, hunits⟩
      cases heq
      exact hunits
  | _ =>
    constructor
    · intro h
      cases h
    · rintro ⟨_, _, heq, _⟩
      cases heq

/-- A rank with the magnitude of an integer is the one that the integer is converted to, with
either sign if it is zero. -/
theorem value?_ofRank {n : Int} {rank : Nat} {negative : Bool} (hrank : rank < ranks)
    (hunits : units rank = n.natAbs * unitsInOne)
    (hsign : n = if negative then -(n.natAbs : Int) else n.natAbs) :
    (ofRank negative (nearestRank (n.natAbs * unitsInOne) 1)).value? = some (n : Rat) := by
  rw [← hunits, nearestRank_units, ofRank, dif_pos hrank, value?_eq_int]
  refine ⟨negative, ⟨rank, hrank⟩, rfl, ?_⟩
  rw [signedUnits]
  simp only [hunits]
  cases negative with
  | true =>
    rw [if_pos rfl] at hsign ⊢
    rw [Nat.cast_mul, ← Int.neg_mul, ← hsign]
  | false =>
    rw [if_neg Bool.false_ne_true] at hsign ⊢
    rw [Nat.cast_mul, ← hsign]

/-- The magnitude of a double whose value is an integer. -/
theorem exists_units_of_value? {d : Binary64} {n : Int} (h : d.value? = some (n : Rat)) :
    ∃ rank, rank < ranks ∧ units rank = n.natAbs * unitsInOne := by
  obtain ⟨negative, rank, -, hunits⟩ := value?_eq_int.1 h
  refine ⟨rank, rank.isLt, ?_⟩
  have habs := congrArg Int.natAbs hunits
  rw [Int.natAbs_mul, Int.natAbs_natCast] at habs
  rw [← habs, signedUnits]
  cases negative <;> simp

/-- **An integer that is the value of a double is converted to such a double.** -/
theorem value?_ofInt {d : Binary64} {n : Int} (h : d.value? = some (n : Rat)) :
    (ofInt n).value? = some (n : Rat) := by
  obtain ⟨rank, hrank, hunits⟩ := exists_units_of_value? h
  exact value?_ofRank hrank hunits (eq_signed_natAbs n)

/-- Every integer up to `2⁵³` is the value of a double. -/
theorem exists_value?_of_natAbs_le {n : Int} (h : n.natAbs ≤ 2 ^ 53) :
    ∃ d : Binary64, d.value? = some (n : Rat) := by
  obtain ⟨coefficient, shift, hscaled, hshift, hunits⟩ := exists_scaled_of_le h
  have hrank : shift * blockSize + coefficient < ranks := by
    have hlt := hscaled.lt
    have hmul : shift * blockSize ≤ 1075 * blockSize := Nat.mul_le_mul_right _ hshift
    unfold ranks
    omega
  rw [← hscaled.units_eq] at hunits
  exact ⟨ofInt n, value?_ofRank hrank hunits (eq_signed_natAbs n)⟩

/-! ## Reading -/

theorem isDigit_of_natural? {text : List Char} {m : Nat} (h : natural? text = some m) :
    text ≠ [] ∧ (∀ c ∈ text, c.isDigit = true) ∧ Nat.ofDigitChars 10 text 0 = m := by
  unfold natural? at h
  split at h
  · rename_i hdigits
    exact ⟨hdigits.1, List.all_eq_true.1 hdigits.2, Option.some.inj h⟩
  · cases h

theorem decimal?_of_natural? {text : List Char} {m : Nat} (h : natural? text = some m) :
    decimal? text = some (m, 0) := by
  obtain ⟨hne, hdigits, rfl⟩ := isDigit_of_natural? h
  have hwhole : text.takeWhile Char.isDigit = text := List.takeWhile_eq_self_iff.2 hdigits
  have hrest : text.dropWhile Char.isDigit = [] := List.dropWhile_eq_nil_iff.2 hdigits
  simp [decimal?, hwhole, hrest, splitFraction, hne, exponent?]

theorem toLower_of_isDigit {c : Char} (h : c.isDigit = true) : c.toLower = c := by
  unfold Char.toLower
  simp only [Char.isDigit, Bool.and_eq_true, decide_eq_true_eq] at h
  grind

/-- Digits are not the name of an infinity or of `nan`. -/
theorem ofList_toLower_ne {text : List Char} {m : Nat} (h : natural? text = some m)
    (name : String) (hname : name.toList.all Char.isDigit = false) :
    String.ofList (text.map Char.toLower) ≠ name := by
  obtain ⟨-, hdigits, -⟩ := isDigit_of_natural? h
  have hlower : text.map Char.toLower = text :=
    (List.map_congr_left fun c hc => toLower_of_isDigit (hdigits c hc)).trans (List.map_id text)
  rintro rfl
  rw [hlower, String.toList_ofList, List.all_eq_true.2 hdigits] at hname
  cases hname

/-- A numeral of a number that a word holds is within the range of exponents. -/
theorem ofDecimal_zero {m : Nat} (h : m < 10 ^ 20) (negative : Bool) :
    ofDecimal negative m 0 = ofRank negative (nearestRank (m * unitsInOne) 1) := by
  have hlength : (digits m).length ≤ 20 := Nat.toDigits_length 10 m 20 (by decide) h
  unfold ofDecimal
  by_cases hzero : m = 0
  · subst hzero
    have hnearest : nearestRank (0 * unitsInOne) 1 = 0 := by
      rw [Nat.zero_mul]
      exact nearestRank_units 0
    simp only [true_or, if_true, hnearest]
  · have hten : m * tenPow (Int.toNat 0) = m := Nat.mul_one m
    simp only [hzero, false_or]
    rw [if_neg (by omega), if_neg (by omega), if_pos le_rfl, hten]

/-- **What reads as a word reads as the double of the same integer**, with either sign if it is
zero. -/
theorem read?_of_int64? {text : List Char} {n : Int} (h : int64? text = some n) :
    ∃ negative, read? text = some (ofRank negative (nearestRank (n.natAbs * unitsInOne) 1)) ∧
      n = if negative then -(n.natAbs : Int) else n.natAbs := by
  obtain ⟨hinteger, hrange⟩ := Option.filter_eq_some_iff.1 h
  obtain ⟨_, hcast, hn⟩ := Option.map_eq_some_iff.1 hinteger
  obtain ⟨m, hnatural, hm⟩ := Option.bind_eq_some_iff.1 hcast
  cases hm
  have hrange' : InInt64 n := of_decide_eq_true hrange
  have habs : n.natAbs = m := by
    rw [← hn]
    split <;> simp
  refine ⟨(splitSign text).1, ?_, ?_⟩
  · have hm : m < 10 ^ 20 := by
      unfold InInt64 at hrange'
      omega
    unfold read?
    simp only [ofList_toLower_ne hnatural "inf" rfl,
      ofList_toLower_ne hnatural "infinity" rfl,
      ofList_toLower_ne hnatural "nan" rfl, or_self, if_false,
      decimal?_of_natural? hnatural, Option.map_some, habs, ofDecimal_zero hm]
  · rw [habs]
    exact hn.symm

end Binary64

end SoupQuery.Decimal

namespace SoupQuery.Compile

open SoupQuery.Decimal SoupQuery.GraphQL

/-- **What stands for an integer stands for a double**, of the same value if the integer is the
value of any double. -/
theorem doubleValue?_of_intValue? {value : Value} {n : Int} (h : intValue? value = some n) :
    ∃ d, doubleValue? value = some d ∧
      ∀ other : Binary64, other.value? = some (n : Rat) → d.value? = some (n : Rat) := by
  cases value with
  | int m =>
    cases h
    exact ⟨.ofInt n, rfl, fun _ hother => Binary64.value?_ofInt hother⟩
  | string text =>
    obtain ⟨negative, hread, hsign⟩ := Binary64.read?_of_int64? h
    refine ⟨_, hread, fun other hother => ?_⟩
    obtain ⟨rank, hrank, hunits⟩ := Binary64.exists_units_of_value? hother
    exact Binary64.value?_ofRank hrank hunits hsign
  | _ => cases h

end SoupQuery.Compile
