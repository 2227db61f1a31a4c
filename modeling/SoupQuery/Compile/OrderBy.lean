import SoupQuery.Compile.Filter

/-!
# Orders

Compiles the `orderBy` argument of a connection. Each entry names one field, perhaps of a related
record, with options for the direction and the place of nulls.

* `RowOrder` — a sort key, and the joins that it reads through.
* `sortOption`, `sortKey` — the options of an entry.
* `orderEntry`, `orderMember` — one entry.
* `orderByArgument` — the `orderBy` argument.
-/

namespace SoupQuery.Compile

open SoupQuery.GraphQL

/-- A sort key of a row, and the joins that it reads through. -/
structure RowOrder where
  key : SortKey
  joins : List Join
  deriving Repr, Inhabited

inductive SortOption where
  | ascending (value : Bool)
  | nullsFirst (value : Bool)
  deriving DecidableEq, Repr, Inhabited

/-- A choice between two enum values, the first of which is `true`. -/
def choice? (first second : String) : Value → Option Bool
  | .enum name => if name = first then some true else if name = second then some false else none
  | _ => none

def sortOption (field : String) (entry : String × Value) : Compiled SortOption :=
  if entry.1 = "order" then
    match choice? "ASC" "DESC" entry.2 with
    | some value => .ok (.ascending value)
    | none => Checked.fail .orderByDirection
  else if entry.1 = "nulls" then
    match choice? "FIRST" "LAST" entry.2 with
    | some value => .ok (.nullsFirst value)
    | none => Checked.fail .orderByNulls
  else Checked.fail (.unknownOrderByOption entry.1 field)

def SortOption.apply (key : SortKey) : SortOption → SortKey
  | .ascending value => { key with ascending := value }
  | .nullsFirst value => { key with nullsFirst := value }

/-- Without options an order is ascending, with nulls last. -/
def sortKey (extract : Expression) (options : List SortOption) : SortKey :=
  options.foldl SortOption.apply ⟨true, false, extract⟩

mutual

/-- The order of an entry, which names exactly one field. -/
def orderEntry (schema : Schema) (row : Row) : List (String × Value) → Compiled RowOrder
  | [(name, value)] => orderMember schema row name value
  | _ => Checked.fail (.orderByNotOneField row.type)

/-- The order by one member of a record: a field with options, or an entry for the record that
the member leads to. -/
def orderMember (schema : Schema) (row : Row) (name : String) (value : Value) :
    Compiled RowOrder :=
  match schema.member? row.type name with
  | none => Checked.fail (.unknownField name row.type)
  | some member =>
    match value with
    | .object entries =>
      match member with
      | .record reference =>
        if schema.knows reference.target then
          (orderEntry schema (row.join reference).row entries).map fun order =>
            ⟨order.key, row.join reference :: order.joins⟩
        else Checked.fail (.missingObjectInfo reference.target)
      | .value field =>
        (Checked.partition (entries.map (sortOption name))).map fun options =>
          ⟨sortKey (fieldValue row field.apiName) options, []⟩
    | _ => Checked.fail (.orderByOptionsNotObject name row.type)

end

def orderItem (schema : Schema) (row : Row) : Value → Compiled RowOrder
  | .object entries => orderEntry schema row entries
  | _ => Checked.fail (.orderByEntryNotObject row.type)

/-- The orders of the `orderBy` argument: one of an object, one for each item of a list, none if
the argument is missing. -/
def orderByArgument (schema : Schema) (row : Row) : Option Value → Compiled (List RowOrder)
  | none => .ok []
  | some (.object entries) => (orderEntry schema row entries).map fun order => [order]
  | some (.list items) => Checked.partition (items.map (orderItem schema row))
  | some _ => Checked.fail (.orderByNotObjects row.type)

end SoupQuery.Compile
