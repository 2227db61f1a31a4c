import SoupQuery.Compile.Error
import SoupQuery.Compile.Literal
import SoupQuery.RecordQuery

/-!
# Filters

Compiles the `where` argument of a connection. An object is the conjunction of its entries; an
entry is a connective, a negation, a filter on a related record, or comparisons of one field.

* `RowFilter` — a compiled filter: a condition, and the joins that it reads through.
* `comparison` — one operator of one field.
* `filterEntry`, `filterEntries`, `filterItems` — the entries and items of a filter.
* `whereArgument` — the `where` argument.
-/

namespace SoupQuery.Compile

open SoupQuery.GraphQL

/-- A condition on a row, and the joins that it reads through. -/
structure RowFilter where
  predicate : Predicate
  joins : List Join
  deriving Repr, Inhabited

def RowFilter.combine (op : Connective) (filters : List RowFilter) : RowFilter :=
  ⟨Predicate.combine op (filters.map (·.predicate)), filters.flatMap (·.joins)⟩

/-- The negation of a filter; a filter that restricts nothing still restricts nothing. -/
def RowFilter.negate (filter : RowFilter) : RowFilter :=
  if filter.predicate.isEmpty then filter else ⟨.negation filter.predicate, filter.joins⟩

/-- A filter on a joined row, as a filter on the row that it is joined to. -/
def RowFilter.through (join : Join) (filter : RowFilter) : RowFilter :=
  ⟨filter.predicate, join :: filter.joins⟩

/-- All filters of a list under a connective, or all that is wrong with them. -/
def gatherFilters (op : Connective) (filters : List (Compiled RowFilter)) : Compiled RowFilter :=
  (Checked.partition filters).map (RowFilter.combine op)

/-! ## One field -/

/-- The condition of an operator and a value that is not null. On a date-time, equality with a
calendar day means any time of that day. -/
def valueComparison (field : String) (kind : FilterKind) (left : Expression)
    (op : ComparisonOperator) (value : Value) : Compiled Predicate :=
  let literal? := match value with
    | .list items => if op.isSet then listLiteral? kind items else none
    | value => if op.isSet then none else scalarLiteral? kind value
  match literal? with
  | none => Checked.fail (.operandMismatch op field kind)
  | some (.dateTime text) =>
    if op = .eq ∧ isDateOnly text then
      .ok (.between left (.dateTime (text ++ "T00:00:00.000Z"))
        (.dateTime (text ++ "T23:59:59.999Z")))
    else .ok (.comparison left op (.dateTime text))
  | some right => .ok (.comparison left op right)

def nullComparison (field : String) (left : Expression) (op : ComparisonOperator) :
    Compiled Predicate :=
  match op with
  | .eq => .ok (.isNull left)
  | .ne => .ok (.isNotNull left)
  | _ => Checked.fail (.nullRefused op field)

/-- The condition of one entry of a field filter. -/
def comparison (field : String) (kind : FilterKind) (left : Expression)
    (entry : String × Value) : Compiled Predicate :=
  match ComparisonOperator.ofName? entry.1 with
  | none => Checked.fail (.unknownOperator entry.1 field)
  | some op =>
    match entry.2 with
    | .null => nullComparison field left op
    | value =>
      if isAllowed op kind then valueComparison field kind left op value
      else Checked.fail (.operatorNotAllowed op kind)

def fieldValue (row : Row) (apiName : String) : Expression :=
  .extract row.name (fieldPath apiName .value)

/-- A filter on a field: the conjunction of its comparisons. -/
def fieldFilter (row : Row) (name : String) (field : FieldInfo) (value : Value) :
    Compiled RowFilter :=
  match value with
  | .object entries =>
    (Checked.partition (entries.map
      (comparison name field.filterKind (fieldValue row field.apiName)))).map fun predicates =>
        ⟨Predicate.combine .and predicates, []⟩
  | _ => Checked.fail (.fieldFilterNotObject name row.type)

/-! ## Objects -/

/-- What the key of an entry asks for. -/
inductive FilterKey where
  | connective (op : Connective)
  | negation
  | member
  deriving DecidableEq, Repr, Inhabited

/-- Three names are words of the filter language, all others name members of the record. -/
def FilterKey.ofName (name : String) : FilterKey :=
  if name = "and" then .connective .and
  else if name = "or" then .connective .or
  else if name = "not" then .negation
  else .member

mutual

def filterEntry (schema : Schema) (row : Row) (key : String) (value : Value) :
    Compiled RowFilter :=
  match FilterKey.ofName key with
  | .connective op =>
    match value with
    | .list items => gatherFilters op (filterItems schema row op items)
    | _ => Checked.fail (.connectiveNotList op)
  | .negation =>
    match value with
    | .object entries =>
      (gatherFilters .and (filterEntries schema row entries)).map RowFilter.negate
    | _ => Checked.fail .negationNotObject
  | .member =>
    match schema.member? row.type key with
    | none => Checked.fail (.unknownField key row.type)
    | some (.value field) => fieldFilter row key field value
    | some (.record reference) =>
      match value with
      | .object entries =>
        if schema.knows reference.target then
          (gatherFilters .and (filterEntries schema (row.join reference).row entries)).map
            (RowFilter.through (row.join reference))
        else Checked.fail (.missingObjectInfo reference.target)
      | _ => Checked.fail (.relationshipFilterNotObject reference.relationshipName row.type)

def filterEntries (schema : Schema) (row : Row) :
    List (String × Value) → List (Compiled RowFilter)
  | [] => []
  | (key, value) :: rest => filterEntry schema row key value :: filterEntries schema row rest

/-- The filters of the items of a connective, each of which is an object. -/
def filterItems (schema : Schema) (row : Row) (op : Connective) :
    List Value → List (Compiled RowFilter)
  | [] => []
  | .object entries :: rest =>
    gatherFilters .and (filterEntries schema row entries) :: filterItems schema row op rest
  | _ :: rest => Checked.fail (.connectiveEntryNotObject op) :: filterItems schema row op rest

end

/-- The filter of an object: the conjunction of its entries. -/
def filterObject (schema : Schema) (row : Row) (entries : List (String × Value)) :
    Compiled RowFilter :=
  gatherFilters .and (filterEntries schema row entries)

def whereArgument (schema : Schema) (row : Row) : Option Value → Compiled (Option RowFilter)
  | none => .ok none
  | some (.object entries) => (filterObject schema row entries).map some
  | some _ => Checked.fail (.whereNotObject row.type)

end SoupQuery.Compile
