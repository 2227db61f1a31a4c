import SoupQuery.Proofs.Spacing

/-!
# What a statement quotes

The strings of a query reach SQL only as the text of tokens, whatever they hold.

* `Expression.tokens`, `Predicate.tokens`, `RecordQuery.tokens`, `documentTokens` — the tokens that
  a statement is meant to have, in the order of the statement.
* `Expression.blank`, `Predicate.blank`, `RecordQuery.blank` — a query without the contents of its
  strings.
* `scan?_statement` — **a statement scans to exactly the tokens that are meant, and what stands
  outside them does not depend on their texts.**
-/

namespace SoupQuery

open SoupQuery.Decimal SoupQuery.Sql

/-! ## The tokens that are meant -/

/-- A token between double quotes. -/
def Sql.Token.identifier (text : String) : Token := ⟨'"', text⟩

/-- A token between single quotes. -/
def Sql.Token.string (text : String) : Token := ⟨'\'', text⟩

/-- The tokens of an operand. -/
def Expression.tokens : Expression → List Token
  | .extract rowName path => [.identifier (rowName ++ ".JSON"), .string ("$." ++ path)]
  | .string text | .date text | .dateTime text => [.string text]
  | .strings texts => texts.map .string
  | .int _ | .double _ | .boolean _ | .numbers _ | .null => []

/-- The tokens of the rows of a query: each row with its record, the pattern of record keys, and
the name of each row once more. -/
def rowTokens (rowName : String) (joinNames : List String) : List Token :=
  ((rowName :: joinNames).flatMap fun name => [.identifier name, .identifier (name ++ ".JSON")]) ++
    .string recordKeyPattern :: (rowName :: joinNames).map .string

mutual

def Predicate.tokens : Predicate → List Token
  | .comparison left _ right => left.tokens ++ right.tokens
  | .compound _ operands => Predicate.allTokens operands
  | .negation operand => operand.tokens
  | .isNull operand => operand.tokens
  | .isNotNull operand => operand.tokens
  | .between operand start stop => operand.tokens ++ start.tokens ++ stop.tokens
  | .existsRow rowName joinNames body => rowTokens rowName joinNames ++ body.tokens

def Predicate.allTokens : List Predicate → List Token
  | [] => []
  | operand :: operands => operand.tokens ++ Predicate.allTokens operands

end

mutual

/-- The tokens of a query. -/
def RecordQuery.tokens : RecordQuery → List Token
  | ⟨predicate?, fields, row, _, joinNames, orderBy⟩ =>
    .string "\x7b\x7d" :: fieldTokens fields ++ rowTokens row.name joinNames ++
      (predicate?.map Predicate.tokens).getD [] ++ orderBy.flatMap (·.extract.tokens)

/-- The tokens of what a query returns. -/
def fieldTokens : List (QueryField RecordQuery) → List Token
  | [] => []
  | .scalar path extract :: rest => .string ("$." ++ path) :: extract.tokens ++ fieldTokens rest
  | .child path connection :: rest =>
    .string ("$." ++ path) :: connection.tokens ++ fieldTokens rest

end

/-- The tokens of a document: the place of each connection in the result, and its query. -/
def documentTokens (queries : List RecordQuery) : List Token :=
  .string "\x7b\x7d" :: queries.flatMap fun query =>
    .string ("$." ++ ("data.uiapi.query." ++ query.row.name ++ ".edges")) :: query.tokens

/-! ## Queries without the contents of their strings -/

/-- As many empty texts. -/
def blankTexts (texts : List String) : List String := texts.map fun _ => ""

/-- The operand with its strings emptied. -/
def Expression.blank : Expression → Expression
  | .extract _ _ => .extract "" ""
  | .string _ => .string ""
  | .date _ => .date ""
  | .dateTime _ => .dateTime ""
  | .strings texts => .strings (blankTexts texts)
  | .int value => .int value
  | .double value => .double value
  | .boolean value => .boolean value
  | .numbers values => .numbers values
  | .null => .null

mutual

/-- The condition with its strings emptied. -/
def Predicate.blank : Predicate → Predicate
  | .comparison left op right => .comparison left.blank op right.blank
  | .compound op operands => .compound op (Predicate.blankAll operands)
  | .negation operand => .negation operand.blank
  | .isNull operand => .isNull operand.blank
  | .isNotNull operand => .isNotNull operand.blank
  | .between operand start stop => .between operand.blank start.blank stop.blank
  | .existsRow _ joinNames body => .existsRow "" (blankTexts joinNames) body.blank

def Predicate.blankAll : List Predicate → List Predicate
  | [] => []
  | operand :: operands => operand.blank :: Predicate.blankAll operands

end

def SortKey.blank (key : SortKey) : SortKey := ⟨key.ascending, key.nullsFirst, key.extract.blank⟩

mutual

/-- The query with its strings emptied. -/
def RecordQuery.blank : RecordQuery → RecordQuery
  | ⟨predicate?, fields, _, first?, joinNames, orderBy⟩ =>
    ⟨predicate?.map Predicate.blank, blankFields fields, ⟨"", ""⟩, first?,
      blankTexts joinNames, orderBy.map SortKey.blank⟩

/-- What a query returns, with its strings emptied. -/
def blankFields : List (QueryField RecordQuery) → List (QueryField RecordQuery)
  | [] => []
  | .scalar _ extract :: rest => .scalar "" extract.blank :: blankFields rest
  | .child _ connection :: rest => .child "" connection.blank :: blankFields rest

end

/-! ## The tokens of pieces -/

/-- The tokens among the lexemes of pieces. -/
def Sql.quoted (sql : Sql) : List Token := tokens (sql.flatMap Piece.lexemes)

section Quoted

variable {t : String} {a b : Sql}

@[simp] theorem quoted_nil : Sql.quoted [] = [] := rfl

@[simp] theorem quoted_append : Sql.quoted (a ++ b) = Sql.quoted a ++ Sql.quoted b := by
  simp [Sql.quoted, tokens]

@[simp] theorem quoted_code : Sql.quoted (.code t :: b) = Sql.quoted b := by
  have hnone : (t.toList.map Lexeme.plain).filterMap Lexeme.token? = [] := by
    rw [List.filterMap_map, List.filterMap_eq_nil_iff]
    intro c _
    rfl
  simp [Sql.quoted, tokens, Piece.lexemes, hnone]

@[simp] theorem quoted_identifier :
    Sql.quoted (.identifier t :: b) = .identifier t :: Sql.quoted b := rfl

@[simp] theorem quoted_string : Sql.quoted (.string t :: b) = .string t :: Sql.quoted b := rfl

end Quoted

theorem quoted_separated (separator : String) : ∀ items : List Sql,
    Sql.quoted (separated separator items) = items.flatMap Sql.quoted
  | [] => rfl
  | [item] => by rw [separated_singleton, List.flatMap_singleton]
  | first :: second :: rest => by
    have hrest := quoted_separated separator (second :: rest)
    rw [separated_cons_cons, quoted_append, quoted_code, hrest]
    rfl

theorem Expression.quoted_sql (e : Expression) : e.sql.quoted = e.tokens := by
  cases e with
  | strings texts =>
    have htexts : (texts.map fun text => [Piece.string text]).flatMap Sql.quoted =
        texts.map Token.string := by
      rw [List.flatMap_map]
      exact List.map_eq_flatMap.symm
    rw [Expression.sql, tuple, quoted_append, quoted_append, quoted_separated, htexts]
    simp [code, Expression.tokens]
  | numbers values =>
    simp [Expression.sql, tuple, code, quoted_separated, Expression.tokens, List.flatMap_map]
  | _ => simp [Expression.sql, Expression.tokens, code, jsonColumn, jsonPath]

theorem quoted_selectRows (mapping : TableMapping) (rowName : String) (joinNames : List String) :
    (selectRows mapping rowName joinNames).quoted = rowTokens rowName joinNames := by
  have hjoins : Sql.quoted (joinNames.flatMap fun name =>
      [.code (" join " ++ mapping.table ++ " as "), .string name]) = joinNames.map .string := by
    induction joinNames with
    | nil => rfl
    | cons name names ih => simp [ih]
  unfold selectRows rowTokens
  simp [quoted_separated, List.flatMap_map, code, jsonColumn, hjoins]

mutual

theorem Predicate.quoted_sql (mapping : TableMapping) :
    ∀ p : Predicate, (p.sql mapping).quoted = p.tokens
  | .comparison left op right => by
    simp [Predicate.sql, Predicate.tokens, code, Expression.quoted_sql]
  | .compound op [] => by
    simp [Predicate.sql, Predicate.tokens, Predicate.allTokens, code]
  | .compound op (first :: rest) => by
    simp [Predicate.sql, Predicate.tokens, Predicate.allTokens, code,
      Predicate.quoted_sql mapping first, Predicate.quoted_sqlRest mapping op rest]
  | .negation operand => by
    simp [Predicate.sql, Predicate.tokens, code, Predicate.quoted_sql mapping operand]
  | .isNull operand => by
    simp [Predicate.sql, Predicate.tokens, code, Expression.quoted_sql]
  | .isNotNull operand => by
    simp [Predicate.sql, Predicate.tokens, code, Expression.quoted_sql]
  | .between operand start stop => by
    simp [Predicate.sql, Predicate.tokens, code, Expression.quoted_sql]
  | .existsRow rowName joinNames body => by
    simp [Predicate.sql, Predicate.tokens, code, quoted_selectRows,
      Predicate.quoted_sql mapping body]

theorem Predicate.quoted_sqlRest (mapping : TableMapping) (op : Connective) :
    ∀ ps : List Predicate, (Predicate.sqlRest mapping op ps).quoted = Predicate.allTokens ps
  | [] => by simp [Predicate.sqlRest, Predicate.allTokens]
  | p :: ps => by
    simp [Predicate.sqlRest, Predicate.allTokens, code, Predicate.quoted_sql mapping p,
      Predicate.quoted_sqlRest mapping op ps]

end

theorem quoted_whereClause (mapping : TableMapping) (predicate? : Option Predicate) :
    (whereClause mapping predicate?).quoted = (predicate?.map Predicate.tokens).getD [] := by
  cases predicate? with
  | none => rfl
  | some predicate => simp [whereClause, code, Predicate.quoted_sql]

theorem quoted_orderClause (keys : List SortKey) :
    (orderClause keys).quoted = keys.flatMap (·.extract.tokens) := by
  cases keys with
  | nil => rfl
  | cons key keys =>
    simp [orderClause, code, quoted_separated, List.flatMap_map, SortKey.sql,
      Expression.quoted_sql]

theorem quoted_limitClause (first? : Option Nat) : (limitClause first?).quoted = [] := by
  cases first? <;> simp [limitClause, code]

mutual

theorem RecordQuery.quoted_sql (mapping : TableMapping) :
    ∀ query : RecordQuery, (query.sql mapping).quoted = query.tokens
  | ⟨predicate?, fields, row, first?, joinNames, orderBy⟩ => by
    simp [RecordQuery.sql, RecordQuery.tokens, code, emptyObject, quoted_fieldsSql mapping fields,
      quoted_selectRows, quoted_whereClause, quoted_orderClause, quoted_limitClause]

theorem quoted_fieldsSql (mapping : TableMapping) :
    ∀ fields : List (QueryField RecordQuery), (fieldsSql mapping fields).quoted = fieldTokens fields
  | [] => by simp [fieldsSql, fieldTokens]
  | .scalar path extract :: rest => by
    simp [fieldsSql, fieldTokens, code, jsonPath, Expression.quoted_sql,
      quoted_fieldsSql mapping rest]
  | .child path connection :: rest => by
    simp [fieldsSql, fieldTokens, code, jsonPath, RecordQuery.quoted_sql mapping connection,
      quoted_fieldsSql mapping rest]

end

/-- **The tokens of a statement are those that are meant.** -/
theorem quoted_statement (mapping : TableMapping) (queries : List RecordQuery) :
    (statement mapping queries).quoted = documentTokens queries := by
  have hqueries : Sql.quoted (queries.flatMap (connectionSql mapping)) =
      queries.flatMap fun query =>
        .string ("$." ++ ("data.uiapi.query." ++ query.row.name ++ ".edges")) :: query.tokens := by
    induction queries with
    | nil => rfl
    | cons query queries ih =>
      simp [connectionSql, code, jsonPath, RecordQuery.quoted_sql, ih]
  simp [statement, documentTokens, code, emptyObject, hqueries]

/-! ## What stands outside -/

/-- The piece with its quoted text emptied. -/
def Sql.Piece.emptied : Piece → Piece
  | .code text => .code text
  | .identifier _ => .identifier ""
  | .string _ => .string ""

/-- The pieces with their quoted texts emptied. -/
def Sql.emptied (sql : Sql) : Sql := sql.map Piece.emptied

section Emptied

variable {t : String} {a b : Sql}

@[simp] theorem emptied_nil : Sql.emptied [] = [] := rfl

@[simp] theorem emptied_append : Sql.emptied (a ++ b) = Sql.emptied a ++ Sql.emptied b :=
  List.map_append

@[simp] theorem emptied_code : Sql.emptied (.code t :: b) = .code t :: Sql.emptied b := rfl

@[simp] theorem emptied_identifier :
    Sql.emptied (.identifier t :: b) = .identifier "" :: Sql.emptied b := rfl

@[simp] theorem emptied_string : Sql.emptied (.string t :: b) = .string "" :: Sql.emptied b := rfl

end Emptied

theorem outside_lexemes (sql : Sql) :
    outside (sql.flatMap Piece.lexemes) = sql.emptied.flatMap Piece.lexemes := by
  induction sql with
  | nil => rfl
  | cons piece rest ih =>
    have hcons : outside ((piece :: rest).flatMap Piece.lexemes) =
        outside piece.lexemes ++ outside (rest.flatMap Piece.lexemes) := by
      rw [List.flatMap_cons, outside, List.map_append]
      rfl
    rw [hcons, ih]
    cases piece with
    | code text => simp [outside, Piece.lexemes, Lexeme.emptied]
    | identifier text => rfl
    | string text => rfl

theorem emptied_separated (separator : String) : ∀ items : List Sql,
    Sql.emptied (separated separator items) = separated separator (items.map Sql.emptied)
  | [] => rfl
  | [item] => by rw [List.map_singleton, separated_singleton, separated_singleton]
  | first :: second :: rest => by
    have hrest := emptied_separated separator (second :: rest)
    rw [separated_cons_cons, emptied_append, emptied_code, hrest]
    exact (separated_cons_cons separator _ _ _).symm

section BlankTexts

variable {f : String → Sql} (hf : ∀ text, (f "").emptied = (f text).emptied)

include hf

theorem emptied_separated_blankTexts (separator : String) (texts : List String) :
    (separated separator ((blankTexts texts).map f)).emptied =
      (separated separator (texts.map f)).emptied := by
  have hitems : ((blankTexts texts).map f).map Sql.emptied = (texts.map f).map Sql.emptied := by
    induction texts with
    | nil => rfl
    | cons text texts ih =>
      rw [List.map_cons, List.map_cons, ← ih, ← hf text]
      rfl
  rw [emptied_separated, emptied_separated, hitems]

theorem emptied_flatMap_blankTexts (texts : List String) :
    Sql.emptied ((blankTexts texts).flatMap f) = Sql.emptied (texts.flatMap f) := by
  induction texts with
  | nil => rfl
  | cons text texts ih =>
    rw [List.flatMap_cons, emptied_append, ← ih, ← hf text, ← emptied_append]
    rfl

end BlankTexts

theorem Expression.emptied_sql (e : Expression) : e.blank.sql.emptied = e.sql.emptied := by
  cases e with
  | strings texts =>
    have hitems := emptied_separated_blankTexts (f := fun text => [.string text])
      (fun _ => rfl) ", " texts
    simp only [Expression.blank, Expression.sql, tuple, emptied_append, hitems]
  | _ => rfl

theorem emptied_selectRows (mapping : TableMapping) (rowName : String) (joinNames : List String) :
    (selectRows mapping "" (blankTexts joinNames)).emptied =
      (selectRows mapping rowName joinNames).emptied := by
  have hnames := emptied_separated_blankTexts (f := fun name =>
      [.identifier name, .code ("." ++ mapping.column ++ " as "), jsonColumn name])
    (fun _ => rfl) ", " (rowName :: joinNames)
  have hjoins := emptied_flatMap_blankTexts (f := fun name =>
      [.code (" join " ++ mapping.table ++ " as "), .string name]) (fun _ => rfl) joinNames
  have hblank : blankTexts (rowName :: joinNames) = "" :: blankTexts joinNames := rfl
  rw [hblank] at hnames
  simp only [selectRows, emptied_append, emptied_code, emptied_string, hnames, hjoins]

mutual

theorem Predicate.emptied_sql (mapping : TableMapping) :
    ∀ p : Predicate, (p.blank.sql mapping).emptied = (p.sql mapping).emptied
  | .comparison left op right => by
    simp [Predicate.blank, Predicate.sql, Expression.emptied_sql]
  | .compound op [] => by
    simp [Predicate.blank, Predicate.blankAll, Predicate.sql]
  | .compound op (first :: rest) => by
    simp [Predicate.blank, Predicate.blankAll, Predicate.sql,
      Predicate.emptied_sql mapping first, Predicate.emptied_sqlRest mapping op rest]
  | .negation operand => by
    simp [Predicate.blank, Predicate.sql, Predicate.emptied_sql mapping operand]
  | .isNull operand => by
    simp [Predicate.blank, Predicate.sql, Expression.emptied_sql]
  | .isNotNull operand => by
    simp [Predicate.blank, Predicate.sql, Expression.emptied_sql]
  | .between operand start stop => by
    simp [Predicate.blank, Predicate.sql, Expression.emptied_sql]
  | .existsRow rowName joinNames body => by
    simp [Predicate.blank, Predicate.sql, emptied_selectRows mapping rowName,
      Predicate.emptied_sql mapping body]

theorem Predicate.emptied_sqlRest (mapping : TableMapping) (op : Connective) :
    ∀ ps : List Predicate, (Predicate.sqlRest mapping op (Predicate.blankAll ps)).emptied =
      (Predicate.sqlRest mapping op ps).emptied
  | [] => by simp [Predicate.blankAll]
  | p :: ps => by
    simp [Predicate.blankAll, Predicate.sqlRest, Predicate.emptied_sql mapping p,
      Predicate.emptied_sqlRest mapping op ps]

end

theorem emptied_whereClause (mapping : TableMapping) (predicate? : Option Predicate) :
    (whereClause mapping (predicate?.map Predicate.blank)).emptied =
      (whereClause mapping predicate?).emptied := by
  cases predicate? with
  | none => rfl
  | some predicate => simp [whereClause, Predicate.emptied_sql]

theorem SortKey.emptied_sql (key : SortKey) : key.blank.sql.emptied = key.sql.emptied := by
  rw [SortKey.sql, SortKey.sql, emptied_append, emptied_append, emptied_append, emptied_append]
  show key.extract.blank.sql.emptied ++ _ ++ _ = _
  rw [key.extract.emptied_sql]
  rfl

theorem emptied_orderClause (keys : List SortKey) :
    (orderClause (keys.map SortKey.blank)).emptied = (orderClause keys).emptied := by
  cases keys with
  | nil => rfl
  | cons key keys =>
    simp [orderClause, emptied_separated, SortKey.emptied_sql, Function.comp_def]

mutual

theorem RecordQuery.emptied_sql (mapping : TableMapping) :
    ∀ query : RecordQuery, (query.blank.sql mapping).emptied = (query.sql mapping).emptied
  | ⟨predicate?, fields, row, first?, joinNames, orderBy⟩ => by
    simp [RecordQuery.blank, RecordQuery.sql, emptyObject, emptied_fieldsSql mapping fields,
      emptied_selectRows mapping row.name, emptied_whereClause, emptied_orderClause]

theorem emptied_fieldsSql (mapping : TableMapping) :
    ∀ fields : List (QueryField RecordQuery),
      (fieldsSql mapping (blankFields fields)).emptied = (fieldsSql mapping fields).emptied
  | [] => by simp [blankFields]
  | .scalar path extract :: rest => by
    simp [blankFields, fieldsSql, jsonPath, Expression.emptied_sql, emptied_fieldsSql mapping rest]
  | .child path connection :: rest => by
    simp [blankFields, fieldsSql, jsonPath, RecordQuery.emptied_sql mapping connection,
      emptied_fieldsSql mapping rest]

end

/-- **Without their quoted texts, the pieces of a statement do not depend on strings.** -/
theorem emptied_statement (mapping : TableMapping) (queries : List RecordQuery) :
    (statement mapping (queries.map RecordQuery.blank)).emptied =
      (statement mapping queries).emptied := by
  have hqueries :
      Sql.emptied ((queries.map RecordQuery.blank).flatMap (connectionSql mapping)) =
        Sql.emptied (queries.flatMap (connectionSql mapping)) := by
    induction queries with
    | nil => rfl
    | cons query queries ih => simp [connectionSql, jsonPath, RecordQuery.emptied_sql, ih]
  simp [statement, emptyObject, hqueries]

/-! ## Statements -/

/-- **A statement scans to exactly the tokens that are meant**, whatever the strings of the queries
hold: the scan ends outside any token, each token stands for the string that was put there, and what
stands outside the tokens is the same for all queries that differ only in their strings. -/
theorem scan?_statement {mapping : TableMapping} (hmapping : mapping.QuoteFree)
    (queries : List RecordQuery) :
    ∃ lexemes, scan? (statement mapping queries).text.toList = some lexemes ∧
      tokens lexemes = documentTokens queries ∧
      ∀ queries' : List RecordQuery,
        queries'.map RecordQuery.blank = queries.map RecordQuery.blank →
        ∃ lexemes', scan? (statement mapping queries').text.toList = some lexemes' ∧
          outside lexemes' = outside lexemes := by
  refine ⟨_, scan?_text (spaced_statement hmapping queries), quoted_statement mapping queries, ?_⟩
  intro queries' hblank
  refine ⟨_, scan?_text (spaced_statement hmapping queries'), ?_⟩
  rw [outside_lexemes, outside_lexemes, ← emptied_statement, hblank, emptied_statement]

/-- A query for the contact with a given identifier, by the name of its row. -/
def contactQuery (rowName identifier : String) : RecordQuery where
  predicate? := some (.comparison (.extract rowName "data.id") .eq (.string identifier))
  fields := [.scalar "node.Id" (.extract rowName "data.id")]
  row := ⟨rowName, "Contact"⟩
  first? := some 1
  joinNames := ["\""]
  orderBy := []

/-- A row named by a quote and an identifier that tries to end its token stay within their tokens,
and the rest of the statement is that of a harmless query. -/
theorem scan?_statement_contact : TableMapping.QuoteFree {} ∧
    ∃ lexemes, scan? (statement {} [contactQuery "'" "' OR '1'='1"]).text.toList = some lexemes ∧
      tokens lexemes =
        [.string "\x7b\x7d", .string "$.data.uiapi.query.'.edges", .string "\x7b\x7d",
         .string "$.node.Id", .identifier "'.JSON", .string "$.data.id",
         .identifier "'", .identifier "'.JSON", .identifier "\"", .identifier "\".JSON",
         .string recordKeyPattern, .string "'", .string "\"",
         .identifier "'.JSON", .string "$.data.id", .string "' OR '1'='1"] ∧
      ∃ lexemes', scan? (statement {} [contactQuery "c" ""]).text.toList = some lexemes' ∧
        outside lexemes' = outside lexemes := by
  have hmapping : TableMapping.QuoteFree {} := ⟨by decide, by decide, by decide⟩
  obtain ⟨lexemes, hscan, htokens, houtside⟩ :=
    scan?_statement hmapping [contactQuery "'" "' OR '1'='1"]
  refine ⟨hmapping, lexemes, hscan, ?_, houtside [contactQuery "c" ""] rfl⟩
  rw [htokens]
  decide

end SoupQuery
