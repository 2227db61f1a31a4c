import SoupQuery.Decimal.Numeral

/-!
# Double-precision numbers

The values of the 64-bit binary floating-point format, by meaning. The magnitudes of the format
in ascending order are `0, 2⁻¹⁰⁷⁴, 2·2⁻¹⁰⁷⁴, …`; a finite number is a sign and the place of its
magnitude in that order, its *rank*.

* `units` — the magnitude of a rank as a multiple of `2⁻¹⁰⁷⁴`.
* `nearestRank` — the rank nearest to a quotient, a tie going to the even rank.
* `Binary64.ofInt`, `Binary64.ofDecimal` — correctly rounded conversions.
* `Binary64.read?` — reads the text of a number.
* `==` — equality of values: the two zeros are equal, and `nan` is not equal to itself.
-/

namespace SoupQuery.Decimal

def twoPow (exponent : Nat) : Nat := Nat.pow 2 exponent

def tenPow (exponent : Nat) : Nat := Nat.pow 10 exponent

/-- How many magnitudes with the same spacing follow each other. -/
def blockSize : Nat := twoPow 52

/-- How many finite magnitudes the format has. -/
def ranks : Nat := 2047 * blockSize

/-- A double-precision number. -/
inductive Binary64 where
  | nan
  | infinite (negative : Bool)
  | finite (negative : Bool) (rank : Fin ranks)
  deriving Repr, Inhabited

/-- The spacing at a rank is two to this power: the first two blocks have the same spacing, and
every later one has twice that of the block before. -/
def binade (rank : Nat) : Nat := rank / blockSize - 1

/-- The magnitude of a rank, counted in units of `2⁻¹⁰⁷⁴`. -/
def units (rank : Nat) : Nat := (rank - binade rank * blockSize) * twoPow (binade rank)

/-- The units in one. -/
def unitsInOne : Nat := twoPow 1074

/-- The rank whose magnitude is nearest to `num / den` units; a tie goes to the even rank.
Beyond the greatest magnitude the ranks go on, as if the format had no end. -/
def nearestRank (num den : Nat) : Nat :=
  let block := (num / den).log2 - 52
  let spacing := den * twoPow block
  let below := num / spacing
  let rest := num % spacing
  let up := if spacing < 2 * rest ∨ spacing = 2 * rest ∧ below % 2 = 1 then 1 else 0
  block * blockSize + below + up

namespace Binary64

/-- The number of a sign and a rank; a rank past the end is an infinity. -/
def ofRank (negative : Bool) (rank : Nat) : Binary64 :=
  if h : rank < ranks then .finite negative ⟨rank, h⟩ else .infinite negative

/-- The number nearest to an integer. -/
def ofInt (n : Int) : Binary64 :=
  ofRank (n < 0) (nearestRank (n.natAbs * unitsInOne) 1)

/-- The number nearest to `± coefficient · 10 ^ exponent`. A value of `10 ^ 310` or more is
beyond every magnitude, and one below `10⁻³²⁵` is nearest to zero: the power of ten is only
computed in between. -/
def ofDecimal (negative : Bool) (coefficient : Nat) (exponent : Int) : Binary64 :=
  let lead := exponent + (digits coefficient).length
  if coefficient = 0 ∨ lead < -324 then ofRank negative 0
  else if 310 < lead then .infinite negative
  else if 0 ≤ exponent then
    ofRank negative (nearestRank (coefficient * tenPow exponent.toNat * unitsInOne) 1)
  else ofRank negative (nearestRank (coefficient * unitsInOne) (tenPow (-exponent).toNat))

/-- Equality of values. -/
def same : Binary64 → Binary64 → Bool
  | .infinite a, .infinite b => a == b
  | .finite a r, .finite b s => r.val == s.val && (a == b || r.val == 0)
  | _, _ => false

instance : BEq Binary64 := ⟨same⟩

def isFinite : Binary64 → Bool
  | .finite _ _ => true
  | _ => false

/-- The exponent at the end of a number: nothing, or a letter `e` and an integer. -/
def exponent? : List Char → Option Int
  | [] => some 0
  | c :: rest => if c = 'e' ∨ c = 'E' then integer? rest else none

/-- Splits the digits after a point from what follows; without a point there are none. -/
def splitFraction : List Char → List Char × List Char
  | '.' :: rest => (rest.takeWhile Char.isDigit, rest.dropWhile Char.isDigit)
  | text => ([], text)

/-- The coefficient and the power of ten of an unsigned decimal such as `12.5e-3`. Digits may be
missing on one side of the point, not on both. -/
def decimal? (text : List Char) : Option (Nat × Int) :=
  let whole := text.takeWhile Char.isDigit
  let (fraction, rest) := splitFraction (text.dropWhile Char.isDigit)
  if whole = [] ∧ fraction = [] then none
  else (exponent? rest).map fun exponent =>
    (Nat.ofDigitChars 10 (whole ++ fraction) 0, exponent - fraction.length)

/-- Reads a number: an optional sign, then a decimal or, in any case, the name of an infinity or
of `nan`. -/
def read? (text : List Char) : Option Binary64 :=
  let (negative, magnitude) := splitSign text
  let name := String.ofList (magnitude.map Char.toLower)
  if name = "inf" ∨ name = "infinity" then some (.infinite negative)
  else if name = "nan" then some .nan
  else (decimal? magnitude).map fun (coefficient, exponent) =>
    ofDecimal negative coefficient exponent

end Binary64

end SoupQuery.Decimal
