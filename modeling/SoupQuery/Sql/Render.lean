import SoupQuery.Decimal.Shortest
import SoupQuery.RecordQuery
import SoupQuery.Sql.Piece
import SoupQuery.TableMapping

/-!
# Record queries as SQL

A record query becomes one statement over the table of records. The row of the query and each
joined row read the table once; what binds joined rows stands in the `WHERE` clause. The record of
a row is the column named for it.

* `Expression.sql`, `Predicate.sql` — operands and conditions.
* `selectRows` — the rows of a query.
* `RecordQuery.sql` — a statement that returns the edges of a connection as a JSON array.
* `statement` — one statement for all connections of a document.
-/

namespace SoupQuery

open SoupQuery.Decimal SoupQuery.Sql

/-! ## Operands and conditions -/

/-- The text of a double; SQL has no literal for the numbers that are not finite. -/
def doubleText (value : Binary64) : String := if value.isFinite then value.text else "NULL"

def Sql.tuple (items : List Sql) : Sql := code "(" ++ separated ", " items ++ code ")"

def Expression.sql : Expression → Sql
  | .extract rowName path =>
    [.code "json_extract(", jsonColumn rowName, .code ", ", jsonPath path, .code ")"]
  | .string text | .date text | .dateTime text => [.string text]
  | .int value => code (Decimal.ofInt value)
  | .double value => code (doubleText value)
  | .boolean value => code (if value then "true" else "false")
  | .strings texts => tuple (texts.map fun text => [.string text])
  | .numbers values => tuple (values.map fun value => code (doubleText value))
  | .null => code "NULL"

def ComparisonOperator.sql : ComparisonOperator → String
  | .eq => "="
  | .ne => "!="
  | .lt => "<"
  | .gt => ">"
  | .lte => "<="
  | .gte => ">="
  | .like => "like"
  | .oneOf => "IN"
  | .noneOf => "NOT IN"

/-- What stands between the operands of a connective. -/
def Connective.separator : Connective → String
  | .and => " AND "
  | .or => " OR "

/-- A connective of no operands: the empty conjunction is true, the empty disjunction false. -/
def Connective.neutral : Connective → String
  | .and => "1"
  | .or => "0"

/-- The rows of a query: the row `rowName` ranges over the records, each joined row over the whole
table. -/
def selectRows (mapping : TableMapping) (rowName : String) (joinNames : List String) : Sql :=
  code "SELECT " ++
    separated ", " ((rowName :: joinNames).map fun name =>
      [.identifier name, .code ("." ++ mapping.column ++ " as "), jsonColumn name]) ++
    [.code (" FROM (select * from " ++ mapping.table ++ " where " ++ mapping.key ++ " like "),
     .string recordKeyPattern, .code ") as ", .string rowName] ++
    joinNames.flatMap fun name => [.code (" join " ++ mapping.table ++ " as "), .string name]

mutual

def Predicate.sql (mapping : TableMapping) : Predicate → Sql
  | .comparison left op right => left.sql ++ code (" " ++ op.sql ++ " ") ++ right.sql
  | .compound op [] => code op.neutral
  | .compound op (first :: rest) =>
    code "(" ++ Predicate.sql mapping first ++ Predicate.sqlRest mapping op rest ++ code ")"
  | .negation operand => code "NOT (" ++ Predicate.sql mapping operand ++ code ")"
  | .isNull operand => operand.sql ++ code " IS NULL"
  | .isNotNull operand => operand.sql ++ code " IS NOT NULL"
  | .between operand start stop =>
    operand.sql ++ code " BETWEEN " ++ start.sql ++ code " AND " ++ stop.sql
  | .existsRow rowName joinNames body =>
    code "EXISTS (" ++ selectRows mapping rowName joinNames ++ code " WHERE " ++
      Predicate.sql mapping body ++ code ")"

/-- The SQL of the operands after the first, each with the connective before it. -/
def Predicate.sqlRest (mapping : TableMapping) (op : Connective) : List Predicate → Sql
  | [] => []
  | operand :: rest =>
    code op.separator ++ Predicate.sql mapping operand ++ Predicate.sqlRest mapping op rest

end

/-! ## Queries -/

def SortKey.sql (key : SortKey) : Sql :=
  key.extract.sql ++ code (if key.ascending then " ASC" else " DESC") ++
    code (if key.nullsFirst then " NULLS FIRST" else " NULLS LAST")

def whereClause (mapping : TableMapping) : Option Predicate → Sql
  | none => []
  | some predicate => code " WHERE " ++ predicate.sql mapping

def orderClause (keys : List SortKey) : Sql :=
  if keys.isEmpty then [] else code " ORDER BY " ++ separated ", " (keys.map SortKey.sql)

def limitClause : Option Nat → Sql
  | none => []
  | some count => code (" LIMIT " ++ String.ofList (digits count))

mutual

/-- A statement that returns the edges of a connection as a JSON array. -/
def RecordQuery.sql (mapping : TableMapping) : RecordQuery → Sql
  | ⟨predicate?, fields, row, first?, joinNames, orderBy⟩ =>
    [.code "SELECT json_group_array(json_set(", emptyObject] ++ fieldsSql mapping fields ++
      code ")) FROM (" ++ selectRows mapping row.name joinNames ++ whereClause mapping predicate? ++
      orderClause orderBy ++ limitClause first? ++ code ")"

/-- The assignments that build the object returned for a record. -/
def fieldsSql (mapping : TableMapping) : List (QueryField RecordQuery) → Sql
  | [] => []
  | .scalar path extract :: rest =>
    [.code ", ", jsonPath path, .code ", ("] ++ extract.sql ++ code ")" ++ fieldsSql mapping rest
  | .child path connection :: rest =>
    [.code ", ", jsonPath path, .code ", json(("] ++ RecordQuery.sql mapping connection ++
      code "))" ++ fieldsSql mapping rest

end

/-- The assignment of the edges of one connection in the result of a document. -/
def connectionSql (mapping : TableMapping) (query : RecordQuery) : Sql :=
  [.code ", ", jsonPath ("data.uiapi.query." ++ query.row.name ++ ".edges"), .code ", json(("] ++
    query.sql mapping ++ code "))"

/-- One statement for all connections of a document; its result is a single JSON value. -/
def statement (mapping : TableMapping) (queries : List RecordQuery) : Sql :=
  [.code "SELECT json_set(", emptyObject] ++ queries.flatMap (connectionSql mapping) ++
    code ") as json"

end SoupQuery
