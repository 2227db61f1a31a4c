import Mathlib.Logic.Function.Basic
import SoupQuery.Proofs.Rounding
import SoupQuery.Proofs.Scoping
import SoupQuery.Proofs.Truth

/-!
# Conditions on stored records

What a condition says of stored records, in the three-valued logic of the database: a comparison
with a value that is not there is neither true nor false.

* `Cell`, `Record`, `Soup` — a stored value, a record, and all records.
* `Cell.order?` — numbers are compared by value, texts by code points.
* `Rows`, `Soup.assignments` — a record for each row, and all ways to choose those of some rows.
* `Predicate.eval` — the truth value of a condition.
* `Soup.valuation`, `truth_valuation` — evaluation is a valuation of atoms, so joining conditions
  joins their truth values (`eval_combine`).
* `eval_congr` — **a condition depends on nothing but the rows that it reads.**
-/

namespace SoupQuery

open SoupQuery.Decimal

/-! ## Stored values -/

/-- What stands at a place of a record: nothing, a number or a text. A boolean is one or zero. -/
inductive Cell where
  | null
  | number (value : Rat)
  | text (value : String)
  deriving DecidableEq, Inhabited

/-- A stored record: what stands at each path. -/
abbrev Record := String → Cell

/-- The record with the given values at some paths, and nothing at the others. -/
def Record.ofPaths (cells : List (String × Cell)) : Record :=
  fun path => (cells.lookup path).getD .null

/-- The stored records, and how the database matches a value with a pattern. -/
structure Soup where
  records : List Record
  like : Cell → Cell → Truth

def Soup.empty : Soup := ⟨[], fun _ _ => .unknown⟩

/-- The truth value of a condition that is decided. -/
def Truth.ofBool (condition : Bool) : Truth := if condition then .holds else .fails

/-- The order of two values that are there: numbers by value, texts by code points, numbers before
texts. -/
def Cell.order? : Cell → Cell → Option Ordering
  | .null, _ | _, .null => none
  | .number a, .number b => some (compareOfLessAndEq a b)
  | .number _, .text _ => some .lt
  | .text _, .number _ => some .gt
  | .text a, .text b => some (compareOfLessAndEq a b)

/-- Whether the order of two values is as wanted; unknown if one of them is not there. -/
def Cell.compare (wanted : Ordering → Bool) (left right : Cell) : Truth :=
  match left.order? right with
  | none => .unknown
  | some order => .ofBool (wanted order)

/-- The orders that an operator wants of its operands. -/
def ComparisonOperator.wants : ComparisonOperator → Ordering → Bool
  | .eq => Ordering.isEq
  | .ne => Ordering.isNe
  | .lt => Ordering.isLT
  | .gt => Ordering.isGT
  | .lte => Ordering.isLE
  | .gte => Ordering.isGE
  | .like | .oneOf | .noneOf => fun _ => false

/-- Whether a value is one of several. -/
def Cell.isOneOf (cell : Cell) (cells : List Cell) : Truth :=
  .joined .or (cells.map (cell.compare Ordering.isEq))

/-! ## Operands and conditions -/

/-- The records that stand for the rows of a query. -/
abbrev Rows := String → Record

def Expression.items : Expression → List Expression
  | .strings texts => texts.map .string
  | .numbers values => values.map .double
  | _ => []

/-- The value of an operand. A number that is not finite is written as null; a list has no value of
its own. -/
def Expression.cell (rows : Rows) : Expression → Cell
  | .extract rowName path => rows rowName path
  | .string text | .date text | .dateTime text => .text text
  | .int value => .number value
  | .double value => value.value?.elim .null .number
  | .boolean value => .number (if value then 1 else 0)
  | .strings _ | .numbers _ | .null => .null

/-- The values of the items of an operand. -/
def Expression.cells (rows : Rows) (e : Expression) : List Cell := e.items.map (·.cell rows)

/-- The truth value of a comparison. -/
def ComparisonOperator.eval (op : ComparisonOperator) (soup : Soup) (rows : Rows)
    (left right : Expression) : Truth :=
  match op with
  | .like => soup.like (left.cell rows) (right.cell rows)
  | .oneOf => (left.cell rows).isOneOf (right.cells rows)
  | .noneOf => ((left.cell rows).isOneOf (right.cells rows)).not
  | op => (left.cell rows).compare op.wants (right.cell rows)

/-- All ways to choose records for the named rows; the other rows stay as they are. -/
def Soup.assignments (soup : Soup) : List String → Rows → List Rows
  | [], rows => [rows]
  | name :: names, rows =>
    soup.records.flatMap fun record => soup.assignments names (Function.update rows name record)

mutual

/-- The truth value of a condition. -/
def Predicate.eval (soup : Soup) : Predicate → Rows → Truth
  | .comparison left op right, rows => op.eval soup rows left right
  | .compound op operands, rows => .joined op (Predicate.evalAll soup operands rows)
  | .negation operand, rows => (Predicate.eval soup operand rows).not
  | .isNull operand, rows => .ofBool (operand.cell rows = .null)
  | .isNotNull operand, rows => .ofBool (operand.cell rows ≠ .null)
  | .between operand start stop, rows =>
    ((operand.cell rows).compare Ordering.isGE (start.cell rows)).and
      ((operand.cell rows).compare Ordering.isLE (stop.cell rows))
  | .existsRow rowName joinNames body, rows =>
    .ofBool ((soup.assignments (rowName :: joinNames) rows).any fun inner =>
      Predicate.eval soup body inner = .holds)

def Predicate.evalAll (soup : Soup) : List Predicate → Rows → List Truth
  | [], _ => []
  | operand :: operands, rows =>
    Predicate.eval soup operand rows :: Predicate.evalAll soup operands rows

end

/-! ## Truth values -/

theorem Truth.ofBool_eq_holds {condition : Bool} :
    Truth.ofBool condition = .holds ↔ condition = true := by
  cases condition <;> simp [Truth.ofBool]

theorem Truth.not_ofBool (condition : Bool) : (ofBool condition).not = ofBool !condition := by
  cases condition <;> rfl

theorem Truth.and_eq_holds {a b : Truth} : a.and b = .holds ↔ a = .holds ∧ b = .holds := by
  cases a <;> cases b <;> simp [Truth.and]

theorem Truth.or_eq_holds {a b : Truth} : a.or b = .holds ↔ a = .holds ∨ b = .holds := by
  cases a <;> cases b <;> simp [Truth.or]

theorem Truth.joined_singleton (op : Connective) (value : Truth) :
    Truth.joined op [value] = value := by
  cases op <;> cases value <;> rfl

/-- A disjunction holds if one of its operands does. -/
theorem Truth.joined_or_eq_holds {values : List Truth} :
    Truth.joined .or values = .holds ↔ .holds ∈ values := by
  induction values with
  | nil => simp [Truth.joined]
  | cons value values ih =>
    have hcons : Truth.joined .or (value :: values) = value.or (.joined .or values) := rfl
    rw [hcons, Truth.or_eq_holds, ih, List.mem_cons, eq_comm]

/-! ## Equal conditions -/

theorem Decimal.Binary64.value?_eq_of_beq {a b : Binary64} (h : (a == b) = true) :
    a.value? = b.value? := by
  have hsame : a.same b = true := h
  cases a with
  | nan => simp [Binary64.same] at hsame
  | infinite negative =>
    cases b <;> simp_all [Binary64.same, Binary64.value?]
  | finite negative rank =>
    cases b with
    | finite negative' rank' =>
      simp only [Binary64.same, Bool.and_eq_true, Bool.or_eq_true, beq_iff_eq] at hsame
      obtain ⟨hrank, hsign⟩ := hsame
      rw [Binary64.value?, Binary64.value?, ← hrank]
      rcases hsign with rfl | hzero
      · rfl
      · -- both zeros have the value zero
        have hunits : units rank = 0 := by rw [hzero]; rfl
        cases negative <;> cases negative' <;> simp [signedUnits, hunits]
    | _ => simp [Binary64.same] at hsame

theorem Expression.cell_eq_of_beq {e e' : Expression} (h : (e == e') = true) (rows : Rows) :
    e.cell rows = e'.cell rows := by
  have hsame : e.same e' = true := h
  cases e with
  | double value =>
    cases e' with
    | double value' => rw [cell, cell, Binary64.value?_eq_of_beq hsame]
    | _ => simp [Expression.same] at hsame
  | _ => cases e' <;> simp_all [Expression.same, cell]

theorem Expression.cells_numbers_eq_of_beq (rows : Rows) : ∀ {values values' : List Binary64},
    (values == values') = true →
      (Expression.numbers values).cells rows = (Expression.numbers values').cells rows
  | [], [], _ => rfl
  | [], _ :: _, h => by cases h
  | _ :: _, [], h => by cases h
  | value :: values, value' :: values', h => by
    rw [List.cons_beq_cons, Bool.and_eq_true] at h
    have hrest := cells_numbers_eq_of_beq rows h.2
    simp only [cells, items, List.map_cons] at hrest ⊢
    rw [hrest, cell, cell, Binary64.value?_eq_of_beq h.1]

theorem Expression.cells_eq_of_beq {e e' : Expression} (h : (e == e') = true) (rows : Rows) :
    e.cells rows = e'.cells rows := by
  have hsame : e.same e' = true := h
  cases e with
  | numbers values =>
    cases e' with
    | numbers values' => exact cells_numbers_eq_of_beq rows hsame
    | _ => simp [Expression.same] at hsame
  | _ => cases e' <;> simp_all [Expression.same, cells, items]

namespace Predicate

variable {soup : Soup} {rows rows' : Rows}

theorem evalAll_eq_map (soup : Soup) (ps : List Predicate) (rows : Rows) :
    evalAll soup ps rows = ps.map (eval soup · rows) := by
  induction ps with
  | nil => rfl
  | cons p ps ih => rw [evalAll, ih, List.map_cons]

theorem eval_compound (op : Connective) (operands : List Predicate) :
    (compound op operands).eval soup rows = .joined op (operands.map (eval soup · rows)) := by
  rw [eval, evalAll_eq_map]

/-- Conditions that are equal have the same truth value. -/
theorem congruent_eval (soup : Soup) :
    Congruent fun p q => ∀ rows, p.eval soup rows = q.eval soup rows where
  comparison op hleft hright rows := by
    rw [eval, eval]
    unfold ComparisonOperator.eval
    rw [Expression.cell_eq_of_beq hleft, Expression.cell_eq_of_beq hright,
      Expression.cells_eq_of_beq hright]
  compound op h rows := by
    rw [eval_compound, eval_compound]
    congr 1
    induction h with
    | nil => rfl
    | cons hpq _ ih => rw [List.map_cons, List.map_cons, hpq rows, ih]
  negation h rows := by rw [eval, eval, h rows]
  isNull h rows := by rw [eval, eval, Expression.cell_eq_of_beq h]
  isNotNull h rows := by rw [eval, eval, Expression.cell_eq_of_beq h]
  between hoperand hstart hstop rows := by
    rw [eval, eval, Expression.cell_eq_of_beq hoperand, Expression.cell_eq_of_beq hstart,
      Expression.cell_eq_of_beq hstop]
  existsRow rowName joinNames h rows := by
    rw [eval, eval]
    simp only [h]

end Predicate

/-! ## Evaluation as a valuation -/

/-- The truth values of atoms for the records of the rows. -/
def Soup.valuation (soup : Soup) (rows : Rows) : Valuation where
  value p := p.eval soup rows
  value_eq _ h := (Predicate.congruent_eval soup).of_same h rows

namespace Predicate

variable {soup : Soup} {rows rows' : Rows}

theorem truth_valuation (soup : Soup) (rows : Rows) (p : Predicate) :
    p.truth (soup.valuation rows) = p.eval soup rows := by
  refine interpret_eq _ (fun op operands => ?_) (fun operand => ?_) (fun p _ => rfl) p
  · rw [(soup.valuation rows).logic_joined]
    exact eval_compound op operands
  · rfl

/-- Joining conditions joins their truth values. -/
theorem eval_combine (op : Connective) (ps : List Predicate) :
    (combine op ps).eval soup rows = .joined op (ps.map (eval soup · rows)) := by
  have hmap : ps.map (truth (soup.valuation rows)) = ps.map (eval soup · rows) :=
    List.map_congr_left fun p _ => truth_valuation soup rows p
  rw [← truth_valuation, truth_combine, hmap]

end Predicate

/-! ## Rows that matter -/

/-- The chosen rows have stored records, and the others stay as they are. -/
theorem Soup.mem_assignments {soup : Soup} : ∀ {names : List String} {rows rows' : Rows},
    rows' ∈ soup.assignments names rows ↔
      (∀ name ∈ names, rows' name ∈ soup.records) ∧ ∀ name, name ∉ names → rows' name = rows name
  | [], rows, rows' => by
    simp only [assignments, List.mem_singleton, List.not_mem_nil, false_implies, implies_true,
      not_false_eq_true, true_implies, true_and]
    exact funext_iff
  | name :: names, rows, rows' => by
    simp only [assignments, List.mem_flatMap, mem_assignments]
    constructor
    · rintro ⟨record, hrecord, hchosen, hkept⟩
      refine ⟨fun other hother => ?_, fun other hother => ?_⟩
      · by_cases hmem : other ∈ names
        · exact hchosen other hmem
        · obtain rfl : other = name := (List.mem_cons.1 hother).resolve_right hmem
          rw [hkept other hmem, Function.update_self]
          exact hrecord
      · obtain ⟨hne, hmem⟩ := not_or.1 (mt List.mem_cons.2 hother)
        rw [hkept other hmem, Function.update_of_ne hne]
    · rintro ⟨hchosen, hkept⟩
      refine ⟨rows' name, hchosen name (List.mem_cons_self ..), fun other hother =>
        hchosen other (List.mem_cons_of_mem _ hother), fun other hother => ?_⟩
      by_cases hne : other = name
      · rw [hne, Function.update_self]
      · rw [Function.update_of_ne hne]
        exact hkept other fun hmem => (List.mem_cons.1 hmem).elim hne hother

/-- What is chosen beside some rows can be chosen beside others that agree with them. -/
theorem Soup.exists_assignment {soup : Soup} {names scope : List String} {rows rows' inner : Rows}
    (hagree : ∀ name ∈ scope, rows name = rows' name) (h : inner ∈ soup.assignments names rows) :
    ∃ inner' ∈ soup.assignments names rows', ∀ name ∈ names ++ scope, inner name = inner' name := by
  obtain ⟨hchosen, hkept⟩ := mem_assignments.1 h
  refine ⟨fun name => if name ∈ names then inner name else rows' name, mem_assignments.2 ⟨?_, ?_⟩,
    ?_⟩
  · intro name hname
    simpa only [hname, if_true] using hchosen name hname
  · intro name hname
    simp only [hname, if_false]
  · intro name hname
    by_cases hmem : name ∈ names
    · simp only [hmem, if_true]
    · simp only [hmem, if_false, hkept name hmem]
      exact hagree name ((List.mem_append.1 hname).resolve_left hmem)

theorem Expression.ReadsWithin.cell_congr {e : Expression} {scope : List String} {rows rows' : Rows}
    (h : e.ReadsWithin scope) (hagree : ∀ name ∈ scope, rows name = rows' name) :
    e.cell rows = e.cell rows' := by
  cases e with
  | extract rowName path => exact congrFun (hagree rowName h) path
  | _ => rfl

/-- The items of a list read no row. -/
theorem Expression.cells_congr (e : Expression) (rows rows' : Rows) :
    e.cells rows = e.cells rows' := by
  unfold cells items
  split
  · rw [List.map_map, List.map_map]
    rfl
  · rw [List.map_map, List.map_map]
    rfl
  · rfl

namespace Predicate

variable {soup : Soup}

/-- **A condition depends on nothing but the rows that it reads.** -/
theorem eval_congr {p : Predicate} {scope : List String} (h : p.ReadsWithin scope) :
    ∀ {rows rows' : Rows}, (∀ name ∈ scope, rows name = rows' name) →
      p.eval soup rows = p.eval soup rows' := by
  induction h with
  | @comparison scope left op right hleft hright =>
    intro rows rows' hagree
    rw [eval, eval]
    unfold ComparisonOperator.eval
    rw [hleft.cell_congr hagree, hright.cell_congr hagree, right.cells_congr rows rows']
  | compound _ ih =>
    intro rows rows' hagree
    rw [eval_compound, eval_compound]
    exact congrArg _ (List.map_congr_left fun p hp => ih p hp hagree)
  | negation _ ih =>
    intro rows rows' hagree
    rw [eval, eval, ih hagree]
  | isNull ho =>
    intro rows rows' hagree
    rw [eval, eval, ho.cell_congr hagree]
  | isNotNull ho =>
    intro rows rows' hagree
    rw [eval, eval, ho.cell_congr hagree]
  | between ho hs ht =>
    intro rows rows' hagree
    rw [eval, eval, ho.cell_congr hagree, hs.cell_congr hagree, ht.cell_congr hagree]
  | @existsRow scope rowName joinNames body _ ih =>
    intro rows rows' hagree
    -- what is chosen beside the one rows is chosen beside the others; the body sees no difference
    have himp : ∀ {rows rows' : Rows}, (∀ name ∈ scope, rows name = rows' name) →
        (∃ inner ∈ soup.assignments (rowName :: joinNames) rows,
          body.eval soup inner = .holds) →
        ∃ inner ∈ soup.assignments (rowName :: joinNames) rows', body.eval soup inner = .holds := by
      rintro rows rows' hagree ⟨inner, hinner, hholds⟩
      obtain ⟨inner', hinner', hsame⟩ := Soup.exists_assignment hagree hinner
      exact ⟨inner', hinner', (ih hsame).symm.trans hholds⟩
    rw [eval, eval]
    congr 1
    rw [Bool.eq_iff_iff]
    simp only [List.any_eq_true, decide_eq_true_eq]
    exact ⟨himp hagree, himp fun name hname => (hagree name hname).symm⟩

end Predicate

/-! ## Filters -/

/-- A disjunction of filters, as an object that asks for nothing else. -/
theorem Compile.RowFilter.eval_disjunction {soup : Soup} (filters : List RowFilter) (rows : Rows) :
    (RowFilter.combine .and [RowFilter.combine .or filters]).predicate.eval soup rows =
      .joined .or (filters.map fun filter => filter.predicate.eval soup rows) := by
  simp only [RowFilter.combine, Predicate.eval_combine, List.map_cons, List.map_nil,
    Truth.joined_singleton, List.map_map]
  rfl

end SoupQuery
