import SoupQuery.Text.Quoted

/-!
# Pieces of SQL

SQL text is put together from pieces of three kinds: code, which is written as it stands, and
quoted identifiers and strings, which may hold anything.

* `Piece`, `Sql` — the pieces, and a text made of them.
* `Piece.text`, `Sql.text` — the text.
* `jsonColumn`, `jsonPath` — the column of a row's record, and a path in it.
-/

namespace SoupQuery.Sql

inductive Piece where
  | code (text : String)
  | identifier (text : String)
  | string (text : String)
  deriving DecidableEq, Repr, Inhabited

/-- The text of a piece: identifiers stand between double quotes, strings between single ones. -/
def Piece.text : Piece → String
  | .code text => text
  | .identifier text => String.ofList (Text.quote '"' text.toList)
  | .string text => String.ofList (Text.quote '\'' text.toList)

end SoupQuery.Sql

namespace SoupQuery

abbrev Sql := List Sql.Piece

namespace Sql

def text (sql : Sql) : String := String.join (sql.map Piece.text)

def code (text : String) : Sql := [.code text]

def separated (separator : String) (items : List Sql) : Sql := (code separator).intercalate items

/-- The column that holds the record of the row `rowName`. -/
def jsonColumn (rowName : String) : Piece := .identifier (rowName ++ ".JSON")

def jsonPath (path : String) : Piece := .string ("$." ++ path)

/-- The empty JSON object, to which results are added. -/
def emptyObject : Piece := .string "\x7b\x7d"

end Sql

end SoupQuery
