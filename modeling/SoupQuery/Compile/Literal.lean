import SoupQuery.Expression
import SoupQuery.GraphQL.Document
import SoupQuery.Schema
import SoupQuery.Text.CodePoint

/-!
# Literals of a filter

Which values a filter takes on a field of each kind, and the literals that they become.

* `isAllowed` — which operators a kind has.
* `scalarLiteral?`, `listLiteral?` — the literal of a value, and of a list of values.
* `isDateOnly` — a text of the form of a calendar day.
-/

namespace SoupQuery.Compile

open SoupQuery.Decimal SoupQuery.GraphQL SoupQuery.Text

/-- Whether an operator may be used on a kind: every kind has `eq` and `ne`, booleans have no
other, and only texts and references are matched by pattern. -/
def isAllowed (op : ComparisonOperator) (kind : FilterKind) : Bool :=
  match op, kind with
  | .eq, _ | .ne, _ => true
  | _, .boolean => false
  | .like, .text | .like, .reference => true
  | .like, _ => false
  | _, _ => true

/-- The integer that a value stands for; a text is trimmed and read. -/
def intValue? : Value → Option Int
  | .int value => some value
  | .string text => int64? (trim text.toList)
  | _ => none

/-- The double that a value stands for; a text is trimmed and read. -/
def doubleValue? : Value → Option Binary64
  | .int value => some (.ofInt value)
  | .float value => some value
  | .string text => Binary64.read? (trim text.toList)
  | _ => none

def textValue? : Value → Option String
  | .string text => some text
  | _ => none

def booleanValue? : Value → Option Bool
  | .boolean value => some value
  | _ => none

/-- The literal of a value on a field of the given kind. -/
def scalarLiteral? (kind : FilterKind) (value : Value) : Option Expression :=
  match kind with
  | .boolean => (booleanValue? value).map .boolean
  | .int => (intValue? value).map .int
  | .double => (doubleValue? value).map .double
  | .date => (textValue? value).map .date
  | .dateTime => (textValue? value).map .dateTime
  | .text | .id | .reference | .time => (textValue? value).map .string

/-- The literal of a list of values on a field of the given kind; numbers of both kinds are
compared as doubles. -/
def listLiteral? (kind : FilterKind) (items : List Value) : Option Expression :=
  match kind with
  | .boolean => none
  | .int | .double => (items.mapM doubleValue?).map .numbers
  | .text | .id | .reference | .time | .date | .dateTime => (items.mapM textValue?).map .strings

/-- Whether a text has the form of a calendar day, in decimal digits of any script. -/
def isDateOnly (text : String) : Bool :=
  match text.toList with
  | [a, b, c, d, '-', e, f, '-', g, h] => [a, b, c, d, e, f, g, h].all isDecimalDigit
  | _ => false

end SoupQuery.Compile
