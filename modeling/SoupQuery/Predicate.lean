import SoupQuery.Expression
import SoupQuery.Schema

/-!
# Predicates

Conditions on rows, and the algebra that combines them.

* `Predicate` — the conditions; `==` compares doubles by value.
* `Predicate.combine` — joins conditions by a connective: nested uses of the same connective are
  flattened, repeated conditions are dropped, and a single condition stands for itself.
* `Predicate.isEmpty` — a compound of nothing, which restricts nothing.
* `Predicate.refersTo`, `Predicate.hasType` — the conditions behind joins and anchors.
-/

namespace SoupQuery

inductive Connective where
  | and
  | or
  deriving DecidableEq, Repr, Inhabited

def Connective.name : Connective → String
  | .and => "and"
  | .or => "or"

inductive Predicate where
  | comparison (left : Expression) (op : ComparisonOperator) (right : Expression)
  | compound (op : Connective) (operands : List Predicate)
  | negation (operand : Predicate)
  | isNull (operand : Expression)
  | isNotNull (operand : Expression)
  | between (operand start stop : Expression)
  /-- There is a row `rowName`, with rows `joinNames` joined to it, for which `body` holds. -/
  | existsRow (rowName : String) (joinNames : List String) (body : Predicate)
  deriving Repr, Inhabited

namespace Predicate

mutual

/-- Equality of predicates, in which doubles are equal if their values are. -/
def same : Predicate → Predicate → Bool
  | .comparison left op right, .comparison left' op' right' =>
    left == left' && op == op' && right == right'
  | .compound op operands, .compound op' operands' => op == op' && sameAll operands operands'
  | .negation operand, .negation operand' => same operand operand'
  | .isNull operand, .isNull operand' => operand == operand'
  | .isNotNull operand, .isNotNull operand' => operand == operand'
  | .between operand start stop, .between operand' start' stop' =>
    operand == operand' && start == start' && stop == stop'
  | .existsRow rowName joinNames body, .existsRow rowName' joinNames' body' =>
    rowName == rowName' && joinNames == joinNames' && same body body'
  | _, _ => false

/-- Equality of two lists of predicates, item by item. -/
def sameAll : List Predicate → List Predicate → Bool
  | [], [] => true
  | operand :: operands, operand' :: operands' =>
    same operand operand' && sameAll operands operands'
  | _, _ => false

end

instance : BEq Predicate := ⟨same⟩

/-- What a predicate contributes to a compound: its operands if it uses the same connective. -/
def operandsUnder (op : Connective) : Predicate → List Predicate
  | .compound op' operands => if op' = op then operands else [.compound op' operands]
  | predicate => [predicate]

/-- Joins predicates by a connective. -/
def combine (op : Connective) (predicates : List Predicate) : Predicate :=
  match (predicates.flatMap (operandsUnder op)).eraseDups with
  | [only] => only
  | operands => .compound op operands

/-- Whether a predicate is a compound of nothing. -/
def isEmpty : Predicate → Bool
  | .compound _ [] => true
  | _ => false

/-- The field `foreignKey` of the row `source` holds the identifier of the row `target`. -/
def refersTo (source target foreignKey : String) : Predicate :=
  .comparison (.extract source (fieldPath foreignKey .value)) .eq
    (.extract target (fieldPath idField .value))

/-- The row `rowName` holds a record of the given type. -/
def hasType (rowName type : String) : Predicate :=
  .comparison (.extract rowName (fieldPath apiNameField .value)) .eq (.string type)

end Predicate

end SoupQuery
