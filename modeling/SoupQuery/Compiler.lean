import SoupQuery.Compile.Document
import SoupQuery.GraphQL.Grammar
import SoupQuery.Sql.Render

/-!
# From source text to SQL

* `compile` — the SQL statement of a source text, or why there is none.
-/

namespace SoupQuery

open SoupQuery.GraphQL

inductive SourceError where
  /-- The text is no document. -/
  | unreadable
  /-- The document does not fit the schema. -/
  | rejected (errors : List CompileError)
  deriving Repr, Inhabited

/-- The SQL statement of a source text. -/
def compile (context : Compile.Context) (mapping : TableMapping) (source : String) :
    Except SourceError String :=
  match Document.parse? source with
  | none => .error .unreadable
  | some document =>
    match Compile.transform context document with
    | .ok queries => .ok (statement mapping queries).text
    | .error errors => .error (.rejected errors)

end SoupQuery
