import SoupQuery.TableMapping

/-!
# Indices of the table of records

The statements that create the indices which speed up the look-ups of generated SQL: by key, by
type, and by identifier. Each does nothing if an index of its name exists.

* `Index` — an index: what its name ends in, and what it is an index of.
* `indexStatements` — the three statements.
-/

namespace SoupQuery

structure Index where
  name : String
  expression : String
  deriving DecidableEq, Repr, Inhabited

/-- The value at a path in the stored record of a row. -/
def storedValue (mapping : TableMapping) (path : String) : String :=
  "json_extract(" ++ mapping.column ++ ", '$." ++ path ++ "')"

/-- The indices by key, by type and by identifier. -/
def indices (mapping : TableMapping) : List Index :=
  [⟨mapping.table ++ "_" ++ mapping.key ++ "_idx", mapping.key⟩,
   ⟨mapping.table ++ "_api_name_idx", storedValue mapping "data.apiName"⟩,
   ⟨mapping.table ++ "_id_idx", storedValue mapping "data.id"⟩]

def Index.statement (mapping : TableMapping) (index : Index) : String :=
  "CREATE INDEX IF NOT EXISTS " ++ index.name ++ " ON " ++ mapping.table ++ " (" ++
    index.expression ++ ")"

def indexStatements (mapping : TableMapping) : List String :=
  (indices mapping).map (Index.statement mapping)

end SoupQuery
