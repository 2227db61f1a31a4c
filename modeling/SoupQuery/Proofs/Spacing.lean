import SoupQuery.Proofs.Scan
import SoupQuery.Sql.Render

/-!
# Statements are spaced

Every part of a statement is spaced: code has no quotes, and between two quoted pieces there is
always code.

* `TableMapping.QuoteFree` — names without quotes, which can be written as they stand.
* `quoteFree_ofInt`, `quoteFree_doubleText` — numbers have no quotes.
* `Predicate.spaced_sql`, `RecordQuery.spaced_sql` — conditions and queries, at any depth.
* `spaced_statement` — **statements are spaced.**
-/

namespace SoupQuery

open SoupQuery.Decimal SoupQuery.Sql

/-- Names without quotes. -/
structure TableMapping.QuoteFree (mapping : TableMapping) : Prop where
  table : Sql.QuoteFree mapping.table
  column : Sql.QuoteFree mapping.column
  key : Sql.QuoteFree mapping.key

/-! ## Numbers are plain -/

theorem plain_digits (n : Nat) : Plain (digits n) := by
  intro c hc
  have hdigit : c.isDigit = true := Nat.isDigit_of_mem_toDigits (by decide) (by decide) hc
  rintro (rfl | rfl)
  · revert hdigit; decide
  · revert hdigit; decide

theorem plain_replicate (n : Nat) {c : Char} (h : ¬ IsQuote c) : Plain (List.replicate n c) := by
  intro d hd
  rw [List.eq_of_mem_replicate hd]
  exact h

theorem Sql.Plain.take {cs : List Char} (h : Plain cs) (n : Nat) : Plain (cs.take n) :=
  fun c hc => h c (List.mem_of_mem_take hc)

theorem Sql.Plain.drop {cs : List Char} (h : Plain cs) (n : Nat) : Plain (cs.drop n) :=
  fun c hc => h c (List.mem_of_mem_drop hc)

theorem quoteFree_ofList {cs : List Char} (h : Plain cs) : QuoteFree (String.ofList cs) := by
  unfold QuoteFree
  rw [String.toList_ofList]
  exact h

theorem quoteFree_ofInt (n : Int) : QuoteFree (Decimal.ofInt n) := by
  unfold Decimal.ofInt
  split
  · exact quoteFree_ofList (.cons (by decide) (plain_digits _))
  · exact quoteFree_ofList (plain_digits _)

theorem plain_shortest (span : Span) : Plain span.shortest.1 := by
  unfold Span.shortest
  intro c hc
  have hmem := (List.dropWhile_sublist _).mem (List.mem_reverse.1 hc)
  exact plain_digits _ c (List.mem_reverse.1 hmem)

theorem plain_fractionText {cs : List Char} (h : Plain cs) : Plain (fractionText cs) := by
  unfold fractionText
  split
  · exact plain_replicate 1 (by decide)
  · exact h

theorem plain_plainText {written : List Char} (h : Plain written) (lead : Int) :
    Plain (plainText written lead) := by
  unfold plainText
  split
  · exact Plain.append (.cons (by decide) (.cons (by decide) (plain_replicate _ (by decide)))) h
  · exact ((h.take _).append (plain_replicate _ (by decide))).append
      (.cons (by decide) (plain_fractionText (h.drop _)))

theorem plain_scientificText {written : List Char} (h : Plain written) (lead : Int) :
    Plain (scientificText written lead) := by
  have hexponent : Plain ('e' :: (Decimal.ofInt lead).toList) :=
    .cons (by decide) (quoteFree_ofInt lead)
  unfold scientificText
  simp only
  split
  · exact ((h.take 1).append plain_nil).append hexponent
  · exact ((h.take 1).append (.cons (by decide) (h.drop 1))).append hexponent

theorem plain_layout (layout : Layout) {written : List Char} (h : Plain written) (lead : Int) :
    Plain (layout.text written lead) := by
  unfold Layout.text
  split
  · exact plain_plainText h lead
  · exact plain_scientificText h lead

theorem plain_magnitudeText (rank : Nat) : Plain (magnitudeText rank) := by
  by_cases hrank : rank = 0
  · rw [magnitudeText, if_pos hrank]
    exact .cons (by decide) (.cons (by decide) (plain_replicate 1 (by decide)))
  · rw [magnitudeText, if_neg hrank]
    have hwritten := plain_shortest (Span.ofRank rank)
    -- the digits are never computed: any text without quotes would do
    generalize (Span.ofRank rank).shortest = shortest at hwritten ⊢
    obtain ⟨written, lead⟩ := shortest
    exact plain_layout Layout.standard hwritten lead

theorem quoteFree_text (value : Binary64) : QuoteFree value.text := by
  cases value with
  | nan => decide
  | infinite negative => cases negative <;> decide
  | finite negative rank =>
    have hrank := plain_magnitudeText rank
    rw [Binary64.text]
    generalize magnitudeText rank = magnitude at hrank ⊢
    split
    · exact quoteFree_ofList (.cons (by decide) hrank)
    · exact quoteFree_ofList hrank

theorem quoteFree_doubleText (value : Binary64) : QuoteFree (doubleText value) := by
  unfold doubleText
  split
  · exact quoteFree_text value
  · decide

/-! ## Statements are spaced -/

theorem append_ne_empty {s : String} (hne : s ≠ "") (t : String) : s ++ t ≠ "" := by
  intro h
  exact hne (String.append_eq_empty_iff.1 h).1

theorem separated_cons_cons (separator : String) (first second : Sql) (rest : List Sql) :
    separated separator (first :: second :: rest) =
      first ++ .code separator :: separated separator (second :: rest) := by
  simp [separated, List.intercalate, code]

theorem separated_singleton (separator : String) (item : Sql) :
    separated separator [item] = item := by
  simp [separated, List.intercalate]

theorem spaced_separated {separator : String} (hfree : QuoteFree separator)
    (hne : separator ≠ "") :
    ∀ {items : List Sql}, (∀ item ∈ items, Spaced item) → Spaced (separated separator items)
  | [], _ => trivial
  | [item], h => by
    rw [separated_singleton]
    exact h item (List.mem_singleton.2 rfl)
  | first :: second :: rest, h => by
    rw [separated_cons_cons]
    have hrest := spaced_separated hfree hne fun item hitem =>
      h item (List.mem_cons_of_mem _ hitem)
    exact (h first (List.mem_cons_self ..)).append (follows_code hrest hfree hne)

theorem spaced_tuple {items : List Sql} (h : ∀ item ∈ items, Spaced item) :
    Spaced (tuple items) := by
  rw [tuple, List.append_assoc]
  refine spaced_code (?_)
  exact (spaced_separated (by decide) (by decide) h).append
    (follows_code trivial)

theorem Expression.spaced_sql (e : Expression) : Spaced e.sql := by
  cases e with
  | extract rowName path =>
    refine spaced_code (spaced_identifier (follows_code ?_))
    exact spaced_string (follows_code trivial)
  | string text => exact spaced_string follows_nil
  | date text => exact spaced_string follows_nil
  | dateTime text => exact spaced_string follows_nil
  | int value => exact spaced_code trivial (quoteFree_ofInt value)
  | double value => exact spaced_code trivial (quoteFree_doubleText value)
  | boolean value => cases value <;> exact spaced_code trivial
  | strings texts =>
    refine spaced_tuple fun item hitem => ?_
    obtain ⟨text, -, rfl⟩ := List.mem_map.1 hitem
    exact spaced_string follows_nil
  | numbers values =>
    refine spaced_tuple fun item hitem => ?_
    obtain ⟨value, -, rfl⟩ := List.mem_map.1 hitem
    exact spaced_code trivial (quoteFree_doubleText value)
  | null => exact spaced_code trivial

theorem SortKey.spaced_sql (key : SortKey) : Spaced key.sql := by
  unfold SortKey.sql
  rw [List.append_assoc]
  refine key.extract.spaced_sql.append (follows_code (spaced_code trivial ?_) ?_ ?_)
  · split <;> decide
  · split <;> decide
  · split <;> decide

theorem follows_orderClause (keys : List SortKey) : Follows (orderClause keys) := by
  unfold orderClause
  split
  · exact follows_nil
  · refine follows_code (spaced_separated (by decide) (by decide) ?_)
    intro item hitem
    obtain ⟨key, -, rfl⟩ := List.mem_map.1 hitem
    exact key.spaced_sql

theorem follows_limitClause (first? : Option Nat) : Follows (limitClause first?) := by
  cases first? with
  | none => exact follows_nil
  | some count =>
    have hcount := quoteFree_ofList (plain_digits count)
    exact follows_code trivial (QuoteFree.append (by decide) hcount) (append_ne_empty (by decide) _)

section Mapping

variable {mapping : TableMapping}

theorem follows_joins (h : QuoteFree mapping.table) (joinNames : List String) :
    Follows (joinNames.flatMap fun name =>
      [.code (" join " ++ mapping.table ++ " as "), .string name]) := by
  induction joinNames with
  | nil => exact follows_nil
  | cons name names ih =>
    refine follows_code (spaced_string ih) ?_ (append_ne_empty (append_ne_empty (by decide) _) _)
    exact (QuoteFree.append (by decide) h).append (by decide)

theorem spaced_selectRows (h : mapping.QuoteFree) (rowName : String) (joinNames : List String) :
    Spaced (selectRows mapping rowName joinNames) := by
  have hcolumn : QuoteFree ("." ++ mapping.column ++ " as ") :=
    (QuoteFree.append (by decide) h.column).append (by decide)
  have hfrom : QuoteFree
      (" FROM (select * from " ++ mapping.table ++ " where " ++ mapping.key ++ " like ") :=
    (((QuoteFree.append (by decide) h.table).append (by decide)).append h.key).append (by decide)
  have hnames : Spaced (separated ", " ((rowName :: joinNames).map fun name =>
      [.identifier name, .code ("." ++ mapping.column ++ " as "), jsonColumn name])) := by
    refine spaced_separated (by decide) (by decide) fun item hitem => ?_
    obtain ⟨name, -, rfl⟩ := List.mem_map.1 hitem
    refine spaced_identifier (follows_code (spaced_identifier follows_nil) hcolumn ?_)
    exact append_ne_empty (append_ne_empty (by decide) _) _
  have hrow := spaced_string (t := rowName) (follows_joins h.table joinNames)
  have hpattern := spaced_string (t := recordKeyPattern)
    (follows_code (t := ") as ") hrow)
  unfold selectRows
  rw [List.append_assoc, List.append_assoc]
  refine spaced_code (hnames.append (follows_code hpattern hfrom ?_))
  exact append_ne_empty (append_ne_empty (append_ne_empty (append_ne_empty (by decide) _) _) _) _

mutual

theorem Predicate.spaced_sql (h : mapping.QuoteFree) : ∀ p : Predicate, Spaced (p.sql mapping)
  | .comparison left op right => by
    have hop : QuoteFree (" " ++ op.sql ++ " ") := by cases op <;> decide
    rw [Predicate.sql, List.append_assoc]
    refine left.spaced_sql.append (follows_code right.spaced_sql hop ?_)
    exact append_ne_empty (append_ne_empty (by decide) _) _
  | .compound op [] => by
    rw [Predicate.sql]
    cases op <;> exact spaced_code trivial
  | .compound op (first :: rest) => by
    rw [Predicate.sql, List.append_assoc, List.append_assoc]
    refine spaced_code ((Predicate.spaced_sql h first).append ?_)
    exact (Predicate.follows_sqlRest h op rest).append (follows_code trivial)
  | .negation operand => by
    rw [Predicate.sql, List.append_assoc]
    refine spaced_code ((Predicate.spaced_sql h operand).append ?_)
    exact follows_code trivial
  | .isNull operand => by
    rw [Predicate.sql]
    exact operand.spaced_sql.append (follows_code trivial)
  | .isNotNull operand => by
    rw [Predicate.sql]
    exact operand.spaced_sql.append (follows_code trivial)
  | .between operand start stop => by
    have hstop := follows_code (t := " AND ") stop.spaced_sql
    rw [Predicate.sql, List.append_assoc, List.append_assoc, List.append_assoc]
    refine operand.spaced_sql.append (follows_code ?_)
    exact start.spaced_sql.append hstop
  | .existsRow rowName joinNames body => by
    have hrows := spaced_selectRows h rowName joinNames
    rw [Predicate.sql, List.append_assoc, List.append_assoc, List.append_assoc]
    refine spaced_code (hrows.append (follows_code ?_))
    exact (Predicate.spaced_sql h body).append (follows_code trivial)

theorem Predicate.follows_sqlRest (h : mapping.QuoteFree) (op : Connective) :
    ∀ ps : List Predicate, Follows (Predicate.sqlRest mapping op ps)
  | [] => follows_nil
  | p :: ps => by
    rw [Predicate.sqlRest, List.append_assoc]
    have hrest := (Predicate.spaced_sql h p).append (Predicate.follows_sqlRest h op ps)
    refine follows_code hrest ?_ ?_
    · cases op <;> decide
    · cases op <;> decide

end

theorem follows_whereClause (h : mapping.QuoteFree) (predicate? : Option Predicate) :
    Follows (whereClause mapping predicate?) := by
  cases predicate? with
  | none => exact follows_nil
  | some predicate => exact follows_code (predicate.spaced_sql h)

mutual

theorem RecordQuery.spaced_sql (h : mapping.QuoteFree) :
    ∀ query : RecordQuery, Spaced (query.sql mapping)
  | ⟨predicate?, fields, row, first?, joinNames, orderBy⟩ => by
    have hclose : Follows (code ")") := follows_code trivial
    have hclauses := (follows_whereClause h predicate?).append
      ((follows_orderClause orderBy).append ((follows_limitClause first?).append hclose))
    have hrows := (spaced_selectRows h row.name joinNames).append hclauses
    have hfields := (follows_fieldsSql h fields).append
      (follows_code (t := ")) FROM (") hrows)
    rw [RecordQuery.sql]
    simp only [List.append_assoc]
    exact spaced_code (spaced_string hfields)

theorem follows_fieldsSql (h : mapping.QuoteFree) :
    ∀ fields : List (QueryField RecordQuery), Follows (fieldsSql mapping fields)
  | [] => follows_nil
  | .scalar path extract :: rest => by
    have hrest := follows_code (t := ")") (follows_fieldsSql h rest).spaced
    rw [fieldsSql]
    simp only [List.append_assoc]
    refine follows_code (spaced_string ?_)
    exact follows_code (extract.spaced_sql.append hrest)
  | .child path connection :: rest => by
    have hrest := follows_code (t := "))") (follows_fieldsSql h rest).spaced
    rw [fieldsSql]
    simp only [List.append_assoc]
    refine follows_code (spaced_string ?_)
    exact follows_code ((RecordQuery.spaced_sql h connection).append hrest)

end

theorem follows_connections (h : mapping.QuoteFree) (queries : List RecordQuery) :
    Follows (queries.flatMap (connectionSql mapping)) := by
  induction queries with
  | nil => exact follows_nil
  | cons query queries ih =>
    have hrest := follows_code (t := "))") ih.spaced
    rw [List.flatMap_cons, connectionSql]
    simp only [List.append_assoc]
    refine follows_code (spaced_string ?_)
    exact follows_code ((query.spaced_sql h).append hrest)

/-- **Statements are spaced.** -/
theorem spaced_statement (h : mapping.QuoteFree) (queries : List RecordQuery) :
    Spaced (statement mapping queries) := by
  unfold statement
  rw [List.append_assoc]
  refine spaced_code (spaced_string ((follows_connections h queries).append ?_))
  exact follows_code trivial

end Mapping

end SoupQuery
