import SoupQuery.Decimal.Binary64

/-!
# Expressions

The operands of predicates: a value read from a stored record, or a literal.

* `Expression` — the operands; `==` compares doubles by value.
* `ComparisonOperator` — the operators of a filter, with their names.
-/

namespace SoupQuery

open SoupQuery.Decimal

inductive Expression where
  /-- The value at `path` in the record of the row `rowName`. -/
  | extract (rowName path : String)
  | string (text : String)
  | int (value : Int)
  | double (value : Binary64)
  | boolean (value : Bool)
  | strings (texts : List String)
  | numbers (values : List Binary64)
  | date (text : String)
  | dateTime (text : String)
  | null
  deriving Repr, Inhabited

/-- Equality of expressions, in which doubles are equal if their values are. -/
def Expression.same : Expression → Expression → Bool
  | .extract rowName path, .extract rowName' path' => rowName == rowName' && path == path'
  | .string text, .string text' => text == text'
  | .int value, .int value' => value == value'
  | .double value, .double value' => value == value'
  | .boolean value, .boolean value' => value == value'
  | .strings texts, .strings texts' => texts == texts'
  | .numbers values, .numbers values' => values == values'
  | .date text, .date text' => text == text'
  | .dateTime text, .dateTime text' => text == text'
  | .null, .null => true
  | _, _ => false

instance : BEq Expression := ⟨Expression.same⟩

inductive ComparisonOperator where
  | eq
  | ne
  | lt
  | gt
  | lte
  | gte
  | like
  | oneOf
  | noneOf
  deriving DecidableEq, Repr, Inhabited

namespace ComparisonOperator

def name : ComparisonOperator → String
  | .eq => "eq"
  | .ne => "ne"
  | .lt => "lt"
  | .gt => "gt"
  | .lte => "lte"
  | .gte => "gte"
  | .like => "like"
  | .oneOf => "in"
  | .noneOf => "nin"

def all : List ComparisonOperator := [.eq, .ne, .lt, .gt, .lte, .gte, .like, .oneOf, .noneOf]

def ofName? (text : String) : Option ComparisonOperator := all.find? fun op => op.name = text

/-- Whether the right operand is a list. -/
def isSet : ComparisonOperator → Bool
  | .oneOf | .noneOf => true
  | _ => false

theorem ofName?_name (op : ComparisonOperator) : ofName? op.name = some op := by
  cases op <;> decide

end ComparisonOperator

end SoupQuery
