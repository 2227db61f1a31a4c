import SoupQuery.Decimal.Binary64

/-!
# GraphQL documents

The part of a GraphQL document that gives a query its meaning. Directives, variable definitions
and the names of operations have no effect on a query and are not kept.

* `Value` — the value of an argument; `Value.ofEntries` builds an object value.
* `Field`, `Selection` — a selected field with what is selected below it, or a fragment.
* `Definition`, `Document` — the operations and fragments of a document.
-/

namespace SoupQuery.GraphQL

/-- The value of an argument. The entries of an object have ascending, distinct keys when the
object comes from a document. -/
inductive Value where
  | variable (name : String)
  | int (value : Int)
  | float (value : Decimal.Binary64)
  | string (text : String)
  | boolean (value : Bool)
  | null
  | enum (name : String)
  | list (items : List Value)
  | object (entries : List (String × Value))
  deriving Repr, Inhabited

/-- Puts an entry at its place among ascending keys; an entry of the same key is replaced. -/
def insertEntry (key : String) (value : Value) : List (String × Value) → List (String × Value)
  | [] => [(key, value)]
  | entry :: rest =>
    if key < entry.1 then (key, value) :: entry :: rest
    else if key = entry.1 then (key, value) :: rest
    else entry :: insertEntry key value rest

/-- An object of entries in written order: keys are sorted, and of a repeated key the last
value stays. -/
def Value.ofEntries (entries : List (String × Value)) : Value :=
  .object (entries.foldl (fun sorted entry => insertEntry entry.1 entry.2 sorted) [])

/-- A word in the place of a value: one of the three constants, or the name of an enum value. -/
def Value.ofName (name : String) : Value :=
  if name = "true" then .boolean true
  else if name = "false" then .boolean false
  else if name = "null" then .null
  else .enum name

/-- What is written at a field, apart from the selections below it. -/
structure Field where
  alias? : Option String
  name : String
  arguments : List (String × Value)
  deriving Repr, Inhabited

/-- The key of a field in the response: its alias, or else its name. -/
def Field.responseKey (field : Field) : String := field.alias?.getD field.name

/-- The value of an argument; of several with the same name the first counts. -/
def Field.argument? (field : Field) (name : String) : Option Value := field.arguments.lookup name

/-- One selection. A field without a selection set has no selections below it. -/
inductive Selection where
  | field (head : Field) (selections : List Selection)
  | fragmentSpread (name : String)
  | inlineFragment (onType? : Option String) (selections : List Selection)
  deriving Repr, Inhabited

/-- The selections below the first field of the given name. -/
def Selection.below? (name : String) : List Selection → Option (List Selection)
  | [] => none
  | .field head selections :: rest =>
    if head.name = name then some selections else below? name rest
  | _ :: rest => below? name rest

inductive OperationKind where
  | query
  | mutation
  | subscription
  deriving DecidableEq, Repr, Inhabited

inductive Definition where
  | operation (kind : OperationKind) (selections : List Selection)
  | fragment (name : String) (onType : String) (selections : List Selection)
  deriving Repr, Inhabited

abbrev Document := List Definition

end SoupQuery.GraphQL
