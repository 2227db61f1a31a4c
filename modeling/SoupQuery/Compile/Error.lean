import SoupQuery.Checked
import SoupQuery.Predicate

/-!
# Compile errors

Everything that can be wrong with a document in view of a schema, by cause.

* `CompileError` — the causes; `CompileError.message` — their wording.
* `Compiled` — a checked result of the compiler.
* `report`, `evaluationReport` — the text of several messages.
-/

namespace SoupQuery

/-- What is wrong with a document. -/
inductive CompileError where
  | missingObjectInfo (type : String)
  | operationNotQuery
  | fragmentDefinition (name : String)
  | noQuery
  | fragmentInQuery
  | whereNotObject (type : String)
  | connectiveNotList (op : Connective)
  | connectiveEntryNotObject (op : Connective)
  | negationNotObject
  | unknownField (field type : String)
  | relationshipFilterNotObject (relationship type : String)
  | fieldFilterNotObject (field type : String)
  | unknownOperator (operator field : String)
  | nullRefused (op : ComparisonOperator) (field : String)
  | operatorNotAllowed (op : ComparisonOperator) (kind : FilterKind)
  | operandMismatch (op : ComparisonOperator) (field : String) (kind : FilterKind)
  | scopeNotEnum (type : String)
  | scopeWithoutOwner (type : String)
  | scopeNotAppointment (type : String)
  | unknownScope (scope type : String)
  | orderByNotObjects (type : String)
  | orderByEntryNotObject (type : String)
  | orderByNotOneField (type : String)
  | orderByOptionsNotObject (field type : String)
  | orderByDirection
  | orderByNulls
  | unknownOrderByOption (option field : String)
  | firstNotNatural (type : String)
  | noNode (key type : String)
  | fragmentInSelections (type : String)
  | noSubfields (field type : String)
  | intrinsicWithSelection (field type : String)
  | noLeaves (field type : String)
  | fragmentOnField (field type : String)
  | unknownLeaf (field type leaf : String)
  deriving DecidableEq, Repr, Inhabited

/-- What an operator expects on its right, in words. -/
def expectedOperand (op : ComparisonOperator) (kind : FilterKind) : String :=
  if op.isSet then "list of " ++ kind.name else kind.name

def CompileError.message : CompileError → String
  | .missingObjectInfo type => "Missing object info for type " ++ type ++ "."
  | .operationNotQuery => "Only query operations are supported."
  | .fragmentDefinition name => "Fragment " ++ name ++ " is not supported."
  | .noQuery => "Query must select uiapi \x7b query \x7b ... \x7d \x7d."
  | .fragmentInQuery => "Fragments are not supported in uiapi.query."
  | .whereNotObject type => "The where argument on " ++ type ++ " must be an object."
  | .connectiveNotList op => "Operator " ++ op.name ++ " requires a list of objects."
  | .connectiveEntryNotObject op =>
    "Every entry of operator " ++ op.name ++ " must be an object."
  | .negationNotObject => "Operator not requires an object value."
  | .unknownField field type => "Field " ++ field ++ " for type " ++ type ++ " not found."
  | .relationshipFilterNotObject relationship type =>
    "Filter on relationship " ++ relationship ++ " of type " ++ type ++ " must be an object."
  | .fieldFilterNotObject field type =>
    "Filter on field " ++ field ++ " of type " ++ type ++
      " must be an object of comparison operators."
  | .unknownOperator operator field =>
    "Comparison operator " ++ operator ++ " is not supported on field " ++ field ++ "."
  | .nullRefused op field =>
    "Comparison operator " ++ op.name ++ " does not accept null on field " ++ field ++ "."
  | .operatorNotAllowed op kind =>
    "Comparison operator " ++ op.name ++ " is not supported for type " ++ kind.name ++ "."
  | .operandMismatch op field kind =>
    "Comparison operator " ++ op.name ++ " on field " ++ field ++ " expects a " ++
      expectedOperand op kind ++ " value."
  | .scopeNotEnum type => "The scope argument on " ++ type ++ " must be an enum value."
  | .scopeWithoutOwner type => "Scope MINE requires " ++ type ++ " to have an OwnerId field."
  | .scopeNotAppointment type =>
    "Scope ASSIGNEDTOME is only supported for ServiceAppointment, not " ++ type ++ "."
  | .unknownScope scope type => "Scope " ++ scope ++ " is not supported on " ++ type ++ "."
  | .orderByNotObjects type =>
    "The orderBy argument on " ++ type ++ " must be an object or a list of objects."
  | .orderByEntryNotObject type => "Every orderBy entry on " ++ type ++ " must be an object."
  | .orderByNotOneField type =>
    "Each orderBy entry on " ++ type ++
      " must name exactly one field; use a list to order by several fields."
  | .orderByOptionsNotObject field type =>
    "orderBy on field " ++ field ++ " of type " ++ type ++ " must be an object."
  | .orderByDirection => "orderBy option order must be ASC or DESC."
  | .orderByNulls => "orderBy option nulls must be FIRST or LAST."
  | .unknownOrderByOption option field =>
    "Unknown orderBy option " ++ option ++ " on field " ++ field ++ "."
  | .firstNotNatural type =>
    "The first argument on " ++ type ++ " must be a non-negative integer."
  | .noNode key type =>
    "Connection " ++ key ++ " of type " ++ type ++
      " must select edges \x7b node \x7b ... \x7d \x7d."
  | .fragmentInSelections type => "Fragments are not supported in selections on " ++ type ++ "."
  | .noSubfields field type =>
    "Field " ++ field ++ " of type " ++ type ++ " must select subfields."
  | .intrinsicWithSelection field type =>
    "Field " ++ field ++ " of type " ++ type ++ " does not take a selection."
  | .noLeaves field type =>
    "Field " ++ field ++ " of type " ++ type ++ " must select value or displayValue."
  | .fragmentOnField field type =>
    "Fragments are not supported on field " ++ field ++ " of type " ++ type ++ "."
  | .unknownLeaf field type leaf =>
    "Field " ++ field ++ " of type " ++ type ++ " selects " ++ leaf ++
      "; expected value or displayValue."

abbrev Compiled (α : Type) := Checked CompileError α

/-- The messages of a failed compilation, one to a line. -/
def report (messages : List String) : String := "\n".intercalate messages

/-- The message of a query that could not be evaluated because it does not compile. -/
def evaluationReport (messages : List String) : String :=
  "query failed to compile: " ++ " ".intercalate messages

end SoupQuery
