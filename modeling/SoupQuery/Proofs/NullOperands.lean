import SoupQuery.Proofs.Equality
import SoupQuery.Proofs.Scan
import SoupQuery.Sql.Render

/-!
# Operands that are written as null

A comparison with null is neither true nor false. Filters test for null by conditions of their own,
so that an operand is written as null only if it is a number that SQL has no literal for.

* `text_ne_null` — no finite number is written as null.
* `Expression.terms`, `Expression.WritesNull` — an operand and its items, and whether one of them is
  written as null.
* `Expression.text_eq_null` — what is written as null.
* `Predicate.comparedOperands`, `Predicate.ComparesNull` — the operands of all comparisons and
  ranges, and whether one of them is written as null.
* `EntryAsks`, `FilterAsks` — what a filter asks of a field, at any depth.
* `whereArgument_comparesNull` — **a filter compares with null exactly if it asks for a number that
  is not finite.**
-/

namespace SoupQuery

open SoupQuery.Decimal SoupQuery.Sql

/-! ## Texts of numbers -/

theorem mem_plainText (written : List Char) (lead : Int) : '.' ∈ plainText written lead := by
  unfold plainText
  split <;> simp

theorem mem_scientificText (written : List Char) (lead : Int) :
    'e' ∈ scientificText written lead := by
  simp [scientificText]

theorem mem_magnitudeText (rank : Nat) :
    '.' ∈ magnitudeText rank ∨ 'e' ∈ magnitudeText rank := by
  unfold magnitudeText
  split
  · exact .inl (by simp)
  · -- the digits are never computed: every layout has a point or an exponent
    generalize (Span.ofRank rank).shortest = shortest
    obtain ⟨written, lead⟩ := shortest
    simp only [Layout.text]
    split
    · exact .inl (mem_plainText written lead)
    · exact .inr (mem_scientificText written lead)

/-- No finite number is written as null. -/
theorem Decimal.Binary64.text_ne_null {d : Binary64} (h : d.isFinite = true) : d.text ≠ "NULL" := by
  intro hnull
  cases d with
  | nan => cases h
  | infinite negative => cases h
  | finite negative rank =>
    have hmagnitude := mem_magnitudeText rank
    rw [Binary64.text] at hnull
    generalize magnitudeText rank = magnitude at hmagnitude hnull
    have hlist := congrArg String.toList hnull
    rw [String.toList_ofList] at hlist
    have hmem : ∀ c, c ∈ magnitude → c ∈ "NULL".toList := by
      intro c hc
      rw [← hlist]
      cases negative <;> simp [hc]
    rcases hmagnitude with hpoint | hexponent
    · exact absurd (hmem _ hpoint) (by decide)
    · exact absurd (hmem _ hexponent) (by decide)

theorem doubleText_eq_null {d : Binary64} : doubleText d = "NULL" ↔ d.isFinite = false := by
  unfold doubleText
  cases hfinite : d.isFinite with
  | true => simpa using Binary64.text_ne_null hfinite
  | false => simp

theorem ofInt_ne_null (n : Int) : Decimal.ofInt n ≠ "NULL" := by
  intro hnull
  have hlist := congrArg String.toList hnull
  rw [Decimal.ofInt, String.toList_ofList] at hlist
  split at hlist
  · cases hlist
  · have hmem : 'N' ∈ digits n.natAbs := by
      rw [hlist]
      decide
    exact absurd (Nat.isDigit_of_mem_toDigits (by decide) (by decide) hmem) (by decide)

/-! ## Operands -/

namespace Expression

/-- An operand and, if it is a list, its items. -/
def terms (e : Expression) : List Expression := e :: e.items

/-- The operand or one of its items is written as null. -/
def WritesNull (e : Expression) : Prop := ∃ term ∈ e.terms, term.sql.text = "NULL"

theorem text_ne_null_of_head {first : Piece} {rest : Sql} {c : Char} {cs : List Char}
    (hfirst : first.text.toList = c :: cs) (hc : c ≠ 'N') : Sql.text (first :: rest) ≠ "NULL" := by
  intro hnull
  have hlist := congrArg String.toList hnull
  rw [text_cons, hfirst] at hlist
  exact hc (List.cons.inj hlist).1

/-- What is written as null: null itself, and the numbers that are not finite. -/
theorem text_eq_null {e : Expression} :
    e.sql.text = "NULL" ↔ e = .null ∨ ∃ d, e = .double d ∧ d.isFinite = false := by
  have hcode : ∀ text, (code text).text = text := by
    intro text
    simp [code, Sql.text, Piece.text]
  have hstring : ∀ text, Sql.text [.string text] ≠ "NULL" := by
    intro text
    exact text_ne_null_of_head (String.toList_ofList ..) (by decide)
  have htuple : ∀ items, (tuple items).text ≠ "NULL" := by
    intro items
    exact text_ne_null_of_head rfl (by decide)
  cases e with
  | double d => simp [sql, hcode, doubleText_eq_null]
  | null => simp [sql, hcode]
  | int n => simpa [sql, hcode] using ofInt_ne_null n
  | boolean b => cases b <;> simp [sql, hcode]
  | extract rowName path => simpa [sql] using text_ne_null_of_head rfl (by decide)
  | string text => simpa [sql] using hstring text
  | date text => simpa [sql] using hstring text
  | dateTime text => simpa [sql] using hstring text
  | strings texts => simpa [sql] using htuple _
  | numbers values => simpa [sql] using htuple _

/-- Whether an operand or an item of it is written as null. -/
def isNullish : Expression → Bool
  | .null => true
  | .double d => !d.isFinite
  | .numbers values => values.any fun d => !d.isFinite
  | _ => false

theorem writesNull_iff {e : Expression} : e.WritesNull ↔ e.isNullish = true := by
  simp only [WritesNull, text_eq_null, terms]
  cases e <;> simp [isNullish, items]

theorem isNullish_eq_of_beq {e e' : Expression} (h : (e == e') = true) :
    e.isNullish = e'.isNullish := by
  have hfinite : ∀ {d d' : Binary64}, (d == d') = true → d.isFinite = d'.isFinite := by
    intro d d' hd
    have hsame : d.same d' = true := hd
    cases d <;> cases d' <;> simp_all [Binary64.same, Binary64.isFinite]
  have hall : ∀ {ds ds' : List Binary64}, (ds == ds') = true →
      (ds.any fun d => !d.isFinite) = ds'.any fun d => !d.isFinite := by
    intro ds
    induction ds with
    | nil =>
      intro ds' hds
      cases ds' with
      | nil => rfl
      | cons d' ds' => cases hds
    | cons d ds ih =>
      intro ds' hds
      cases ds' with
      | nil => cases hds
      | cons d' ds' =>
        rw [List.cons_beq_cons, Bool.and_eq_true] at hds
        rw [List.any_cons, List.any_cons, hfinite hds.1, ih hds.2]
  have hsame : e.same e' = true := h
  cases e with
  | double d =>
    cases e' with
    | double d' => rw [isNullish, isNullish, hfinite hsame]
    | _ => simp [Expression.same] at hsame
  | numbers ds =>
    cases e' with
    | numbers ds' => exact hall hsame
    | _ => simp [Expression.same] at hsame
  | _ => cases e' <;> simp_all [Expression.same, isNullish]

end Expression

/-! ## Conditions -/

namespace Predicate

mutual

/-- The operands of all comparisons and ranges of a condition. -/
def comparedOperands : Predicate → List Expression
  | .comparison left _ right => [left, right]
  | .between operand start stop => [operand, start, stop]
  | .isNull _ | .isNotNull _ => []
  | .compound _ operands => comparedOperandsAll operands
  | .negation operand => comparedOperands operand
  | .existsRow _ _ body => comparedOperands body

def comparedOperandsAll : List Predicate → List Expression
  | [] => []
  | operand :: operands => comparedOperands operand ++ comparedOperandsAll operands

end

/-- An operand of a comparison or range is written as null. -/
def ComparesNull (p : Predicate) : Prop := ∃ operand ∈ p.comparedOperands, operand.WritesNull

theorem comparedOperandsAll_eq_flatMap (ps : List Predicate) :
    comparedOperandsAll ps = ps.flatMap comparedOperands := by
  induction ps with
  | nil => rfl
  | cons p ps ih => rw [comparedOperandsAll, ih, List.flatMap_cons]

theorem mem_comparedOperands_compound {op : Connective} {operands : List Predicate}
    {e : Expression} :
    e ∈ (compound op operands).comparedOperands ↔ ∃ p ∈ operands, e ∈ p.comparedOperands := by
  rw [comparedOperands, comparedOperandsAll_eq_flatMap, List.mem_flatMap]

theorem comparesNull_compound (op : Connective) (operands : List Predicate) :
    (compound op operands).ComparesNull ↔ ∃ p ∈ operands, p.ComparesNull := by
  simp only [ComparesNull, mem_comparedOperands_compound]
  constructor
  · rintro ⟨e, ⟨p, hp, he⟩, hnull⟩
    exact ⟨p, hp, e, he, hnull⟩
  · rintro ⟨p, hp, e, he, hnull⟩
    exact ⟨e, ⟨p, hp, he⟩, hnull⟩

theorem comparesNull_comparison {left right : Expression} {op : ComparisonOperator} :
    (comparison left op right).ComparesNull ↔
      left.isNullish = true ∨ right.isNullish = true := by
  simp [ComparesNull, comparedOperands, Expression.writesNull_iff]

theorem comparesNull_between {operand start stop : Expression} :
    (between operand start stop).ComparesNull ↔
      operand.isNullish = true ∨ start.isNullish = true ∨ stop.isNullish = true := by
  simp [ComparesNull, comparedOperands, Expression.writesNull_iff]

/-- Conditions that are equal compare with null alike. -/
theorem congruent_comparesNull : Congruent fun p q => p.ComparesNull ↔ q.ComparesNull where
  comparison op hleft hright := by
    rw [comparesNull_comparison, comparesNull_comparison, Expression.isNullish_eq_of_beq hleft,
      Expression.isNullish_eq_of_beq hright]
  compound op h := by
    rw [comparesNull_compound, comparesNull_compound]
    constructor
    · rintro ⟨p, hp, hnull⟩
      obtain ⟨q, hq, hpq⟩ := Compile.exists_of_forall₂_right h.flip p hp
      exact ⟨q, hq, hpq.1 hnull⟩
    · rintro ⟨q, hq, hnull⟩
      obtain ⟨p, hp, hpq⟩ := Compile.exists_of_forall₂_right h q hq
      exact ⟨p, hp, hpq.2 hnull⟩
  negation h := h
  isNull _ := Iff.rfl
  isNotNull _ := Iff.rfl
  between hoperand hstart hstop := by
    rw [comparesNull_between, comparesNull_between, Expression.isNullish_eq_of_beq hoperand,
      Expression.isNullish_eq_of_beq hstart, Expression.isNullish_eq_of_beq hstop]
  existsRow _ _ h := h

/-- A join compares with null if one of the joined conditions does. -/
theorem comparesNull_combine {op : Connective} {ps : List Predicate} :
    (combine op ps).ComparesNull ↔ ∃ p ∈ ps, p.ComparesNull :=
  combine_exists comparesNull_compound congruent_comparesNull.of_same

end Predicate

end SoupQuery

namespace SoupQuery.Compile

open SoupQuery.Decimal SoupQuery.GraphQL

variable {schema : Schema} {row : Row}

/-! ## What is asked -/

/-- An entry of a filter on a type asks something of a field: an operator and a value. Connectives
and negations stay on the type, references lead to another one. -/
inductive EntryAsks (schema : Schema) :
    String → String → Value → FieldInfo → String × Value → Prop
  | field {type key field operators operator} : FilterKey.ofName key = .member →
      schema.member? type key = some (.value field) → operator ∈ operators →
      EntryAsks schema type key (.object operators) field operator
  | record {type key inside entry reference field operator} : FilterKey.ofName key = .member →
      schema.member? type key = some (.record reference) → entry ∈ inside →
      EntryAsks schema reference.target entry.1 entry.2 field operator →
      EntryAsks schema type key (.object inside) field operator
  | connective {type key op items inside entry field operator} :
      FilterKey.ofName key = .connective op → .object inside ∈ items → entry ∈ inside →
      EntryAsks schema type entry.1 entry.2 field operator →
      EntryAsks schema type key (.list items) field operator
  | negation {type key inside entry field operator} : FilterKey.ofName key = .negation →
      entry ∈ inside → EntryAsks schema type entry.1 entry.2 field operator →
      EntryAsks schema type key (.object inside) field operator

/-- The filter of an object asks something of a field. -/
def FilterAsks (schema : Schema) (type : String) (entries : List (String × Value))
    (field : FieldInfo) (operator : String × Value) : Prop :=
  ∃ entry ∈ entries, EntryAsks schema type entry.1 entry.2 field operator

/-- The value stands for a double that is not finite. -/
def readsNonFinite (value : Value) : Bool := (doubleValue? value).any fun d => !d.isFinite

/-- A field of the kind is compared with a double that is not finite: with a single one if its
values are doubles, in a list also if they are integers. -/
def asksNonFinite (kind : FilterKind) : Value → Bool
  | .list items => (kind = .int || kind = .double) && items.any readsNonFinite
  | value => kind = .double && readsNonFinite value

section

variable {type key : String} {field : FieldInfo} {operator : String × Value}

theorem entryAsks_connective {op : Connective} {objects : List (List (String × Value))}
    (hkey : FilterKey.ofName key = .connective op) :
    EntryAsks schema type key (.list (objects.map .object)) field operator ↔
      ∃ entries ∈ objects, FilterAsks schema type entries field operator := by
  constructor
  · intro h
    cases h with
    | connective _ hitem hentry hasks =>
      obtain ⟨entries, hentries, heq⟩ := List.mem_map.1 hitem
      cases heq
      exact ⟨_, hentries, _, hentry, hasks⟩
  · rintro ⟨entries, hentries, entry, hentry, hasks⟩
    exact .connective hkey (List.mem_map_of_mem hentries) hentry hasks

theorem entryAsks_negation {inside : List (String × Value)}
    (hkey : FilterKey.ofName key = .negation) :
    EntryAsks schema type key (.object inside) field operator ↔
      FilterAsks schema type inside field operator := by
  constructor
  · intro h
    cases h with
    | negation _ hentry hasks => exact ⟨_, hentry, hasks⟩
    | field hmember _ _ => cases hkey.symm.trans hmember
    | record hmember _ _ _ => cases hkey.symm.trans hmember
  · rintro ⟨entry, hentry, hasks⟩
    exact .negation hkey hentry hasks

theorem entryAsks_field {operators : List (String × Value)} {found : FieldInfo}
    (hkey : FilterKey.ofName key = .member)
    (hmember : schema.member? type key = some (.value found)) :
    EntryAsks schema type key (.object operators) field operator ↔
      found = field ∧ operator ∈ operators := by
  constructor
  · intro h
    cases h with
    | field _ hfield hoperator =>
      cases hmember.symm.trans hfield
      exact ⟨rfl, hoperator⟩
    | record _ hrecord _ _ => cases hmember.symm.trans hrecord
    | negation hnegation _ _ => cases hkey.symm.trans hnegation
  · rintro ⟨rfl, hoperator⟩
    exact .field hkey hmember hoperator

theorem entryAsks_record {inside : List (String × Value)} {reference : Reference}
    (hkey : FilterKey.ofName key = .member)
    (hmember : schema.member? type key = some (.record reference)) :
    EntryAsks schema type key (.object inside) field operator ↔
      FilterAsks schema reference.target inside field operator := by
  constructor
  · intro h
    cases h with
    | field _ hfield _ => cases hmember.symm.trans hfield
    | record _ hrecord hentry hasks =>
      cases hmember.symm.trans hrecord
      exact ⟨_, hentry, hasks⟩
    | negation hnegation _ _ => cases hkey.symm.trans hnegation
  · rintro ⟨entry, hentry, hasks⟩
    exact .record hkey hmember hentry hasks

end

/-! ## Comparisons -/

section

variable {name : String} {kind : FilterKind} {literal : Expression} {value : Value} {p : Predicate}

theorem readsNonFinite_of_doubleValue? {d : Binary64} (h : doubleValue? value = some d) :
    readsNonFinite value = !d.isFinite := by
  rw [readsNonFinite, h, Option.any_some]

theorem isNullish_scalarLiteral? (h : scalarLiteral? kind value = some literal) :
    literal.isNullish = (decide (kind = .double) && readsNonFinite value) := by
  cases kind with
  | double =>
    obtain ⟨d, hd, rfl⟩ := Option.map_eq_some_iff.1 h
    rw [readsNonFinite_of_doubleValue? hd]
    rfl
  | _ =>
    obtain ⟨_, -, rfl⟩ := Option.map_eq_some_iff.1 h
    rfl

theorem isNullish_listLiteral? {items : List Value} (h : listLiteral? kind items = some literal) :
    literal.isNullish =
      ((decide (kind = .int) || decide (kind = .double)) && items.any readsNonFinite) := by
  have hnumbers : ∀ {ds : List Binary64}, items.mapM doubleValue? = some ds →
      (Expression.numbers ds).isNullish = items.any readsNonFinite := by
    intro ds hds
    have hmap : ds.map (fun d => !d.isFinite) = items.map readsNonFinite :=
      map_eq_map_of_mapM (fun item d hd => (readsNonFinite_of_doubleValue? hd).symm) hds
    have hany := congrArg (List.any · id) hmap
    simpa [Expression.isNullish, List.any_map] using hany
  cases kind with
  | boolean => cases h
  | int =>
    obtain ⟨ds, hds, rfl⟩ := Option.map_eq_some_iff.1 h
    exact hnumbers hds
  | double =>
    obtain ⟨ds, hds, rfl⟩ := Option.map_eq_some_iff.1 h
    exact hnumbers hds
  | _ =>
    obtain ⟨_, -, rfl⟩ := Option.map_eq_some_iff.1 h
    rfl

/-- A literal is written as null if it stands for a number that is not finite. -/
theorem isNullish_operandLiteral? {op : ComparisonOperator}
    (h : operandLiteral? kind op value = some literal) :
    literal.isNullish = asksNonFinite kind value := by
  unfold operandLiteral? at h
  split at h
  · split at h
    · exact isNullish_listLiteral? h
    · cases h
  · split at h
    · cases h
    · rw [isNullish_scalarLiteral? h]
      unfold asksNonFinite
      split
      · cases kind <;> cases h
      · rfl

/-- A comparison is with null exactly if its value stands for a number that is not finite. -/
theorem comparison_comparesNull {apiName : String} {entry : String × Value}
    (h : comparison name kind (fieldValue row apiName) entry = .ok p) :
    p.ComparesNull ↔ asksNonFinite kind entry.2 = true := by
  rcases comparison_forms h with ⟨hnull, rfl | rfl⟩ | ⟨op, literal, hliteral, rfl⟩
  · simp [Predicate.ComparesNull, Predicate.comparedOperands, hnull, asksNonFinite,
      readsNonFinite, doubleValue?]
  · simp [Predicate.ComparesNull, Predicate.comparedOperands, hnull, asksNonFinite,
      readsNonFinite, doubleValue?]
  · rw [← isNullish_operandLiteral? hliteral]
    have hplain : (Predicate.comparison (fieldValue row apiName) op literal).ComparesNull ↔
        literal.isNullish = true := by
      simp [Predicate.comparesNull_comparison, fieldValue, Expression.isNullish]
    cases literal with
    | dateTime text =>
      simp only [literalCondition]
      split
      · simp [timeOfDay, Predicate.comparesNull_between, fieldValue, Expression.isNullish]
      · exact hplain
    | _ => exact hplain

/-- No operand of a comparison is null itself. -/
theorem IsComparison.ne_null {left operand : Expression} (h : IsComparison kind left p)
    (hleft : left ≠ .null) (hoperand : operand ∈ p.comparedOperands) : operand ≠ .null := by
  cases h with
  | isNull => cases hoperand
  | isNotNull => cases hoperand
  | day =>
    simp only [Predicate.comparedOperands, List.mem_cons, List.not_mem_nil, or_false] at hoperand
    rcases hoperand with rfl | rfl | rfl
    · exact hleft
    · exact Expression.noConfusion
    · exact Expression.noConfusion
  | scalar _ hliteral =>
    rcases List.mem_pair.1 hoperand with rfl | rfl
    · exact hleft
    · rintro rfl
      cases kind <;> simp [scalarLiteral?] at hliteral
  | list _ hliteral =>
    rcases List.mem_pair.1 hoperand with rfl | rfl
    · exact hleft
    · rintro rfl
      cases kind <;> simp [listLiteral?] at hliteral

end

/-! ## Filters -/

/-- No operand of a comparison or range is null itself. -/
def NullFree (p : Predicate) : Prop := ∀ operand ∈ p.comparedOperands, operand ≠ .null

theorem nullFree_compound (op : Connective) (operands : List Predicate) :
    NullFree (.compound op operands) ↔ ∀ p ∈ operands, NullFree p := by
  simp only [NullFree, Predicate.mem_comparedOperands_compound]
  constructor
  · intro hall p hp e he
    exact hall e ⟨p, hp, he⟩
  · rintro hall e ⟨p, hp, he⟩
    exact hall p hp e he

/-- No operand is null itself, and one is written as null exactly if that is asked for. -/
structure Traces (asks : Prop) (p : Predicate) : Prop where
  nullFree : NullFree p
  comparesNull_iff : p.ComparesNull ↔ asks

theorem Traces.congr {asks asks' : Prop} {p : Predicate} (h : Traces asks p)
    (hasks : asks ↔ asks') : Traces asks' p :=
  ⟨h.nullFree, h.comparesNull_iff.trans hasks⟩

/-- **Joining keeps it**: a join is asked for null if one of the joined conditions is. -/
theorem traces_combine {α : Type} {op : Connective} {items : List α} {ps : List Predicate}
    {asks : α → Prop} (h : List.Forall₂ (fun item p => Traces (asks item) p) items ps) :
    Traces (∃ item ∈ items, asks item) (Predicate.combine op ps) := by
  refine ⟨Predicate.combine_closed nullFree_compound fun p hp => ?_, ?_⟩
  · obtain ⟨_, -, htraces⟩ := exists_of_forall₂_right h p hp
    exact htraces.nullFree
  · rw [Predicate.comparesNull_combine]
    constructor
    · rintro ⟨p, hp, hnull⟩
      obtain ⟨item, hitem, htraces⟩ := exists_of_forall₂_right h p hp
      exact ⟨item, hitem, htraces.comparesNull_iff.1 hnull⟩
    · rintro ⟨item, hitem, hasks⟩
      obtain ⟨p, hp, htraces⟩ := exists_of_forall₂_right h.flip item hitem
      exact ⟨p, hp, htraces.comparesNull_iff.2 hasks⟩

theorem RowFilter.traces_combine {α : Type} {op : Connective} {items : List α}
    {filters : List RowFilter} {asks : α → Prop}
    (h : List.Forall₂ (fun item filter => Traces (asks item) filter.predicate) items filters) :
    Traces (∃ item ∈ items, asks item) (RowFilter.combine op filters).predicate :=
  Compile.traces_combine (List.forall₂_map_right_iff.2 h)

theorem Traces.negate {asks : Prop} {filter : RowFilter} (h : Traces asks filter.predicate) :
    Traces asks filter.negate.predicate := by
  unfold RowFilter.negate
  split
  · exact h
  · exact ⟨h.nullFree, h.comparesNull_iff⟩

/-- An entry asks for a number that is not finite. -/
def EntryAsksNonFinite (schema : Schema) (type key : String) (value : Value) : Prop :=
  ∃ field operator, EntryAsks schema type key value field operator ∧
    asksNonFinite field.filterKind operator.2 = true

/-- A filter asks for a number that is not finite. -/
def FilterAsksNonFinite (schema : Schema) (type : String) (entries : List (String × Value)) :
    Prop :=
  ∃ field operator, FilterAsks schema type entries field operator ∧
    asksNonFinite field.filterKind operator.2 = true

theorem filterAsksNonFinite_iff {type : String} {entries : List (String × Value)} :
    FilterAsksNonFinite schema type entries ↔
      ∃ entry ∈ entries, EntryAsksNonFinite schema type entry.1 entry.2 := by
  constructor
  · rintro ⟨field, operator, ⟨entry, hentry, hasks⟩, hvalue⟩
    exact ⟨entry, hentry, field, operator, hasks, hvalue⟩
  · rintro ⟨entry, hentry, field, operator, hasks, hvalue⟩
    exact ⟨field, operator, ⟨entry, hentry, hasks⟩, hvalue⟩

/-- Every form of a filter is compiled to a condition that compares with null exactly if a number
that is not finite is asked for. -/
theorem filterInvariant_traces (schema : Schema) :
    FilterInvariant schema
      (fun row entries filter =>
        Traces (FilterAsksNonFinite schema row.type entries) filter.predicate)
      (fun row key value filter =>
        Traces (EntryAsksNonFinite schema row.type key value) filter.predicate) where
  object h := (RowFilter.traces_combine h).congr filterAsksNonFinite_iff.symm
  connective hkey h := by
    refine (RowFilter.traces_combine h).congr ?_
    simp only [EntryAsksNonFinite, FilterAsksNonFinite, entryAsks_connective hkey]
    constructor
    · rintro ⟨entries, hentries, field, operator, hasks, hvalue⟩
      exact ⟨field, operator, ⟨entries, hentries, hasks⟩, hvalue⟩
    · rintro ⟨field, operator, ⟨entries, hentries, hasks⟩, hvalue⟩
      exact ⟨entries, hentries, field, operator, hasks, hvalue⟩
  negation hkey h := by
    refine h.negate.congr ?_
    simp only [EntryAsksNonFinite, FilterAsksNonFinite, entryAsks_negation hkey]
  field := by
    intro row key field operators predicates hkey hmember h
    have htraces : List.Forall₂ (fun operator p =>
        Traces (asksNonFinite field.filterKind operator.2 = true) p) operators predicates := by
      refine h.imp fun operator p hp => ⟨fun operand hoperand => ?_, comparison_comparesNull hp⟩
      exact (comparison_ok hp).ne_null Expression.noConfusion hoperand
    refine (traces_combine htraces).congr ?_
    simp only [EntryAsksNonFinite, entryAsks_field hkey hmember]
    constructor
    · rintro ⟨operator, hoperator, hvalue⟩
      exact ⟨field, operator, ⟨rfl, hoperator⟩, hvalue⟩
    · rintro ⟨_, operator, ⟨rfl, hoperator⟩, hvalue⟩
      exact ⟨operator, hoperator, hvalue⟩
  record hkey hmember _ h := by
    refine h.congr ?_
    simp only [EntryAsksNonFinite, FilterAsksNonFinite, entryAsks_record hkey hmember]
    rfl

/-- **A filter compares with null exactly if it asks for a number that is not finite**, and what is
written as null is such a number: null itself is never an operand. -/
theorem whereArgument_comparesNull {value : Value} {filter : RowFilter}
    (h : whereArgument schema row (some value) = .ok (some filter)) :
    ∃ entries, value = .object entries ∧
      (∀ operand ∈ filter.predicate.comparedOperands, ∀ term ∈ operand.terms,
        term.sql.text = "NULL" → ∃ d : Binary64, term = .double d ∧ d.isFinite = false) ∧
      ((∃ operand ∈ filter.predicate.comparedOperands, ∃ term ∈ operand.terms,
          term.sql.text = "NULL") ↔
        ∃ field operator, FilterAsks schema row.type entries field operator ∧
          asksNonFinite field.filterKind operator.2 = true) := by
  obtain ⟨entries, _, rfl, heq, hfilter⟩ := whereArgument_eq_ok.1 h
  cases heq
  have htraces := (filterInvariant_traces schema).filterObject hfilter
  refine ⟨entries, rfl, fun operand hoperand term hterm hnull => ?_, htraces.comparesNull_iff⟩
  rcases Expression.text_eq_null.1 hnull with rfl | hdouble
  · -- an item of a list is a text or a number, so null would be the operand itself
    rcases List.mem_cons.1 hterm with rfl | hitem
    · exact absurd rfl (htraces.nullFree _ hoperand)
    · cases operand <;> simp [Expression.items] at hitem
  · exact hdouble

/-- Visits whose rating is not below infinity, which is written as null. -/
theorem unboundedRating_comparesNull :
    ∃ filter,
      whereArgument guestSchema ⟨"v", "Visit"⟩ (some (.object
        [("not", .object [("Rating", .object [("lt", .string "Infinity")])])])) =
          .ok (some filter) ∧
      ∃ operand ∈ filter.predicate.comparedOperands, ∃ term ∈ operand.terms,
        term.sql.text = "NULL" := by
  have hok : whereArgument guestSchema ⟨"v", "Visit"⟩ (some (.object
      [("not", .object [("Rating", .object [("lt", .string "Infinity")])])])) =
        .ok (some ⟨.negation (.comparison (.extract "v" "data.fields.Rating.value") .lt
          (.double (.infinite false))), []⟩) := rfl
  obtain ⟨entries, heq, -, hiff⟩ := whereArgument_comparesNull hok
  cases heq
  refine ⟨_, hok, hiff.2 ⟨.scalar "Rating" .double, ("lt", .string "Infinity"), ?_, rfl⟩⟩
  refine ⟨_, List.mem_singleton.2 rfl, .negation rfl (List.mem_singleton.2 rfl) ?_⟩
  exact .field rfl rfl (List.mem_singleton.2 rfl)

/-- **A filter can compare with null without asking for null**: a rating that is not a number is
written as null. -/
theorem nan_writes_null :
    ∃ filter,
      whereArgument guestSchema ⟨"v", "Visit"⟩
        (some (.object [("Rating", .object [("eq", .string "NaN")])])) = .ok (some filter) ∧
      ∃ operand ∈ filter.predicate.comparedOperands, operand.sql.text = "NULL" :=
  ⟨⟨.comparison (.extract "v" "data.fields.Rating.value") .eq (.double .nan), []⟩, rfl,
    .double .nan, List.mem_pair.2 (.inr rfl), rfl⟩

end SoupQuery.Compile
