import SoupQuery.Predicate

/-!
# Record queries

What a connection of a document asks for, ready to be written as SQL.

* `Row`, `Join` — the rows of a query, and the references that join them.
* `SortKey` — one key of an order.
* `RecordQuery`, `QueryField` — the query of one connection, and what it returns for each record.
-/

namespace SoupQuery

/-- A row of a query: its name, by which the query refers to it, and the type of its record. -/
structure Row where
  name : String
  type : String
  deriving DecidableEq, Repr, Inhabited

/-- The row that a relationship leads to; its name is a dotted path. -/
def Row.along (row : Row) (relationship type : String) : Row :=
  ⟨row.name ++ "." ++ relationship, type⟩

/-- A reference followed from one row to another. -/
structure Join where
  /-- The name of the row that holds the reference. -/
  source : String
  /-- The field that holds it. -/
  foreignKey : String
  /-- The row that it names. -/
  row : Row
  deriving DecidableEq, Repr, Inhabited

/-- The join along a reference of a row. -/
def Row.join (row : Row) (reference : Reference) : Join :=
  ⟨row.name, reference.apiName, row.along reference.relationshipName reference.target⟩

def Row.children (row : Row) (relationship : ChildRelationship) : Row :=
  row.along relationship.relationshipName relationship.child

/-- The two conditions that bind a joined row: the reference, and the type of the record. -/
def Join.conditions (join : Join) : List Predicate :=
  [.refersTo join.source join.row.name join.foreignKey, .hasType join.row.name join.row.type]

/-- The names of the joined rows, each once, in order of first use. -/
def joinNames (joins : List Join) : List String := (joins.map (·.row.name)).eraseDups

/-- The conditions of the joined rows, each once, in order of first use. -/
def joinConditions (joins : List Join) : List Predicate :=
  (joins.flatMap Join.conditions).eraseDups

structure SortKey where
  ascending : Bool
  nullsFirst : Bool
  extract : Expression
  deriving Repr, Inhabited

/-- One entry of the object returned for a record: a value at a path, or the edges of a nested
query. -/
inductive QueryField (Query : Type) where
  | scalar (path : String) (extract : Expression)
  | child (path : String) (connection : Query)
  deriving Repr, Inhabited

/-- The query of one connection. -/
structure RecordQuery where
  /-- Which rows are wanted; all of them if there is no condition. -/
  predicate? : Option Predicate
  /-- What is returned for each of them. -/
  fields : List (QueryField RecordQuery)
  /-- The row that stands for a record. -/
  row : Row
  /-- At most how many rows are wanted. -/
  first? : Option Nat
  /-- The names of the rows joined to it. -/
  joinNames : List String
  /-- The order of the rows. -/
  orderBy : List SortKey
  deriving Repr, Inhabited

end SoupQuery
