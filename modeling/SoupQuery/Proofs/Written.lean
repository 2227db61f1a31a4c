import SoupQuery.Proofs.Predicate
import SoupQuery.Sql.Render

/-!
# What SQL keeps of a query

The SQL of a query shows neither the type of its row nor whether a text is a date. What it shows is
the query with these forgotten.

* `Expression.written`, `Predicate.written`, `RecordQuery.written` — what SQL keeps.
* `RecordQuery.sql_written` — **the SQL of a query is that of what it keeps.**
* `Predicate.Legible`, `RecordQuery.Legible` — no doubles, which share texts, and no compound of a
  single operand, whose connective has no place to stand.
-/

namespace SoupQuery

open SoupQuery.Sql

/-! ## What is kept -/

/-- The operand, in which a date is a text. -/
def Expression.written : Expression → Expression
  | .date text | .dateTime text => .string text
  | e => e

mutual

/-- The condition, in which a date is a text. -/
def Predicate.written : Predicate → Predicate
  | .comparison left op right => .comparison left.written op right.written
  | .compound op operands => .compound op (Predicate.writtenAll operands)
  | .negation operand => .negation operand.written
  | .isNull operand => .isNull operand.written
  | .isNotNull operand => .isNotNull operand.written
  | .between operand start stop => .between operand.written start.written stop.written
  | .existsRow rowName joinNames body => .existsRow rowName joinNames body.written

def Predicate.writtenAll : List Predicate → List Predicate
  | [] => []
  | operand :: operands => operand.written :: Predicate.writtenAll operands

end

def SortKey.written (key : SortKey) : SortKey :=
  ⟨key.ascending, key.nullsFirst, key.extract.written⟩

mutual

/-- The query without the type of its row, in which a date is a text. -/
def RecordQuery.written : RecordQuery → RecordQuery
  | ⟨predicate?, fields, row, first?, joinNames, orderBy⟩ =>
    ⟨predicate?.map Predicate.written, writtenFields fields, ⟨row.name, ""⟩, first?, joinNames,
      orderBy.map SortKey.written⟩

/-- What a query returns, without the types of rows. -/
def writtenFields : List (QueryField RecordQuery) → List (QueryField RecordQuery)
  | [] => []
  | .scalar path extract :: rest => .scalar path extract.written :: writtenFields rest
  | .child path connection :: rest => .child path connection.written :: writtenFields rest

end

def QueryField.written : QueryField RecordQuery → QueryField RecordQuery
  | .scalar path extract => .scalar path extract.written
  | .child path connection => .child path connection.written

theorem Predicate.writtenAll_eq_map (operands : List Predicate) :
    Predicate.writtenAll operands = operands.map Predicate.written := by
  induction operands with
  | nil => rfl
  | cons operand operands ih => rw [Predicate.writtenAll, List.map_cons, ih]

theorem writtenFields_eq_map (fields : List (QueryField RecordQuery)) :
    writtenFields fields = fields.map QueryField.written := by
  induction fields with
  | nil => rfl
  | cons field fields ih => cases field <;> simp only [writtenFields, List.map_cons, ih] <;> rfl

/-! ## SQL shows nothing else -/

theorem Expression.sql_written (e : Expression) : e.written.sql = e.sql := by
  cases e <;> rfl

mutual

theorem Predicate.sql_written (mapping : TableMapping) :
    ∀ p : Predicate, p.written.sql mapping = p.sql mapping
  | .comparison left op right => by
    simp only [Predicate.written, Predicate.sql, Expression.sql_written]
  | .compound op [] => rfl
  | .compound op (first :: rest) => by
    simp only [Predicate.written, Predicate.writtenAll, Predicate.sql,
      Predicate.sql_written mapping first, Predicate.sqlRest_written mapping op rest]
  | .negation operand => by
    simp only [Predicate.written, Predicate.sql, Predicate.sql_written mapping operand]
  | .isNull operand => by simp only [Predicate.written, Predicate.sql, Expression.sql_written]
  | .isNotNull operand => by simp only [Predicate.written, Predicate.sql, Expression.sql_written]
  | .between operand start stop => by
    simp only [Predicate.written, Predicate.sql, Expression.sql_written]
  | .existsRow rowName joinNames body => by
    simp only [Predicate.written, Predicate.sql, Predicate.sql_written mapping body]

theorem Predicate.sqlRest_written (mapping : TableMapping) (op : Connective) :
    ∀ ps : List Predicate,
      Predicate.sqlRest mapping op (Predicate.writtenAll ps) = Predicate.sqlRest mapping op ps
  | [] => rfl
  | p :: ps => by
    simp only [Predicate.writtenAll, Predicate.sqlRest, Predicate.sql_written mapping p,
      Predicate.sqlRest_written mapping op ps]

end

theorem SortKey.sql_written (key : SortKey) : key.written.sql = key.sql := by
  have hextract : key.written.extract.sql = key.extract.sql := key.extract.sql_written
  rw [SortKey.sql, hextract]
  rfl

theorem orderClause_written (keys : List SortKey) :
    orderClause (keys.map SortKey.written) = orderClause keys := by
  have hkeys : (keys.map SortKey.written).map SortKey.sql = keys.map SortKey.sql := by
    rw [List.map_map]
    exact List.map_congr_left fun key _ => key.sql_written
  simp only [orderClause, hkeys, List.isEmpty_map]

theorem whereClause_written (mapping : TableMapping) (predicate? : Option Predicate) :
    whereClause mapping (predicate?.map Predicate.written) = whereClause mapping predicate? := by
  cases predicate? with
  | none => rfl
  | some predicate => simp only [Option.map_some, whereClause, predicate.sql_written mapping]

mutual

/-- **The SQL of a query is that of what it keeps.** -/
theorem RecordQuery.sql_written (mapping : TableMapping) :
    ∀ query : RecordQuery, query.written.sql mapping = query.sql mapping
  | ⟨predicate?, fields, row, first?, joinNames, orderBy⟩ => by
    simp only [RecordQuery.written, RecordQuery.sql, whereClause_written, orderClause_written,
      fieldsSql_written mapping fields]

theorem fieldsSql_written (mapping : TableMapping) :
    ∀ fields : List (QueryField RecordQuery),
      fieldsSql mapping (writtenFields fields) = fieldsSql mapping fields
  | [] => rfl
  | .scalar path extract :: rest => by
    simp only [writtenFields, fieldsSql, Expression.sql_written, fieldsSql_written mapping rest]
  | .child path connection :: rest => by
    simp only [writtenFields, fieldsSql, RecordQuery.sql_written mapping connection,
      fieldsSql_written mapping rest]

end

/-! ## What can be read off SQL -/

/-- A condition without doubles, in which no compound has exactly one operand. -/
inductive Predicate.Legible : Predicate → Prop
  | comparison {left op right} : left.Exact → right.Exact → Legible (.comparison left op right)
  | compound {op operands} : operands.length ≠ 1 → (∀ p ∈ operands, Legible p) →
      Legible (.compound op operands)
  | negation {operand} : Legible operand → Legible (.negation operand)
  | isNull {operand} : operand.Exact → Legible (.isNull operand)
  | isNotNull {operand} : operand.Exact → Legible (.isNotNull operand)
  | between {operand start stop} : operand.Exact → start.Exact → stop.Exact →
      Legible (.between operand start stop)
  | existsRow {rowName joinNames body} : Legible body →
      Legible (.existsRow rowName joinNames body)

mutual

/-- A query without doubles, in which no compound has exactly one operand, at any depth. -/
inductive RecordQuery.Legible : RecordQuery → Prop
  | mk {predicate? fields row first? joinNames orderBy} :
      (∀ predicate, predicate? = some predicate → predicate.Legible) →
      (∀ field ∈ fields, QueryField.Legible field) →
      (∀ key ∈ orderBy, key.extract.Exact) →
      RecordQuery.Legible ⟨predicate?, fields, row, first?, joinNames, orderBy⟩

/-- An entry of what a query returns, legible likewise. -/
inductive QueryField.Legible : QueryField RecordQuery → Prop
  | scalar {path extract} : extract.Exact → QueryField.Legible (.scalar path extract)
  | child {path connection} : RecordQuery.Legible connection →
      QueryField.Legible (.child path connection)

end

end SoupQuery
