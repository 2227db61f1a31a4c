import SoupQuery.Compile.Selection

/-!
# Documents

Compiles a document: every connection under `uiapi { query { … } }` of every query becomes a
record query.

* `queryOf` — the selections of a definition, which must be a query.
* `rootConnection` — one selection of a query.
* `rootConnections` — the connections of one query.
* `transform` — the connections of a document.
-/

namespace SoupQuery.Compile

open SoupQuery.GraphQL

/-- The selections of a definition, which must be a query. -/
def queryOf : Definition → Compiled (List Selection)
  | .operation .query selections => .ok selections
  | .operation _ _ => Checked.fail .operationNotQuery
  | .fragment name _ _ => Checked.fail (.fragmentDefinition name)

/-- The record query of one selection of a query: the name of the field is a type, and its
response key names the row. -/
def rootConnection (context : Context) : Selection → Option (Compiled RecordQuery)
  | .field head below =>
    if head.name = typeNameField then none
    else if context.schema.knows head.name then
      some (recordQuery context ⟨head.responseKey, head.name⟩
        [.hasType head.responseKey head.name] head below)
    else some (Checked.fail (.missingObjectInfo head.name))
  | _ => some (Checked.fail .fragmentInQuery)

def rootConnections (context : Context) (selections : List Selection) :
    Compiled (List RecordQuery) :=
  match (Selection.below? "uiapi" selections).bind (Selection.below? "query") with
  | none => Checked.fail .noQuery
  | some connections => Checked.partition (connections.filterMap (rootConnection context))

/-- The record queries of a document. That all definitions are queries is checked before any of
them is compiled. -/
def transform (context : Context) (document : Document) : Compiled (List RecordQuery) := do
  let queries ← Checked.partition (document.map queryOf)
  let connections ← Checked.partition (queries.map (rootConnections context))
  return connections.flatten

end SoupQuery.Compile
