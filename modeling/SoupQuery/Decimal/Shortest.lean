import SoupQuery.Decimal.Binary64

/-!
# The text of a double-precision number

A finite number is written with the fewest digits that read back to it, and of those with the
digits nearest to it.

* `Span` — the decimals that read back to a number, on one fixed grid.
* `Span.shortest` — the coarsest grid with a point in the span, and that point.
* `Layout` — which powers of ten are written plainly and which with an exponent.
* `Binary64.text` — the text of a number.
-/

namespace SoupQuery.Decimal

/-- The reals that round to a number of positive rank. All three bounds count units of
`2⁻¹⁰⁷⁵ · 10⁻⁴⁰⁰`, in which they are whole. -/
structure Span where
  /-- Half way to the number below. -/
  low : Nat
  /-- The number itself. -/
  middle : Nat
  /-- Half way to the number above. -/
  high : Nat
  /-- Whether the two bounds belong to the span. -/
  closed : Bool

namespace Span

/-- The span of a rank; a tie rounds to even, so an even rank owns both of its bounds. -/
def ofRank (rank : Nat) : Span where
  low := (units (rank - 1) + units rank) * tenPow 400
  middle := 2 * units rank * tenPow 400
  high := (units rank + units (rank + 1)) * tenPow 400
  closed := rank % 2 = 0

/-- The size of `10 ^ (place - 400)` in the units of a span. -/
def grid (place : Nat) : Nat := twoPow 1075 * tenPow place

def contains (span : Span) (point : Nat) : Bool :=
  if span.closed then span.low ≤ point && point ≤ span.high
  else span.low < point && point < span.high

/-- The multiple of the grid in the span that is nearest to its middle, a tie going up. -/
def onGrid? (span : Span) (place : Nat) : Option Nat :=
  let below := span.middle / grid place
  let above := below + 1
  let nearer := if 2 * (span.middle % grid place) < grid place then below else above
  let farther := if nearer = below then above else below
  if span.contains (nearer * grid place) then some nearer
  else if span.contains (farther * grid place) then some farther
  else none

/-- The first hit on the grids from `place` down to the finest one, with its place. -/
def search (span : Span) : Nat → Nat × Nat
  | 0 => ((span.onGrid? 0).getD (span.middle / grid 0), 0)
  | place + 1 =>
    match span.onGrid? (place + 1) with
    | some point => (point, place + 1)
    | none => span.search place

/-- The digits of the shortest decimal in the span, and the power of ten of the first of them. -/
def shortest (span : Span) : List Char × Int :=
  let (point, place) := span.search (digits (span.middle / grid 0)).length
  let written := digits point
  ((written.reverse.dropWhile (· = '0')).reverse, (place : Int) - 400 + written.length - 1)

end Span

/-- How digits are laid out, by the power of ten of the first digit. -/
structure Layout where
  /-- The least power that is written without an exponent. -/
  leastPlain : Int
  /-- The greatest power that is written without an exponent. -/
  greatestPlain : Int

/-- Numbers from `0.0001` up to `10 ^ 16` are written plainly. -/
def Layout.standard : Layout := ⟨-4, 15⟩

/-- The part after the point, which is never empty. -/
def fractionText (fraction : List Char) : List Char := if fraction = [] then ['0'] else fraction

/-- The digits with a point and as many zeros as their place needs. -/
def plainText (written : List Char) (lead : Int) : List Char :=
  if lead < 0 then ['0', '.'] ++ List.replicate (-lead - 1).toNat '0' ++ written
  else
    let size := lead.toNat + 1
    written.take size ++ List.replicate (size - written.length) '0' ++
      '.' :: fractionText (written.drop size)

/-- The digits with a point after the first, unless it is the last, and the exponent. -/
def scientificText (written : List Char) (lead : Int) : List Char :=
  let fraction := written.drop 1
  written.take 1 ++ (if fraction = [] then [] else '.' :: fraction) ++
    'e' :: (Decimal.ofInt lead).toList

def Layout.text (layout : Layout) (written : List Char) (lead : Int) : List Char :=
  if layout.leastPlain ≤ lead ∧ lead ≤ layout.greatestPlain then plainText written lead
  else scientificText written lead

def magnitudeText (rank : Nat) : List Char :=
  if rank = 0 then ['0', '.', '0']
  else
    let (written, lead) := (Span.ofRank rank).shortest
    Layout.standard.text written lead

/-- The text of a number: the shortest one that reads back to it. -/
def Binary64.text : Binary64 → String
  | .nan => "NaN"
  | .infinite negative => if negative then "-inf" else "inf"
  | .finite negative rank =>
    String.ofList (if negative then '-' :: magnitudeText rank else magnitudeText rank)

end SoupQuery.Decimal
