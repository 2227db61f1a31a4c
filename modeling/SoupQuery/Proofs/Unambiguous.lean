import SoupQuery.Proofs.Readable

/-!
# SQL determines the query

Comparisons stand in a conjunction without parentheses of their own, a range has an `AND` inside,
an empty compound looks like a number, and a list of texts opens like a group of conditions. Still
no text has two readings: how a condition starts says which form it has, and what may follow a
condition cannot be taken for a part of it.

* `Keyword`, `Opener`, `Predicate.start` — how conditions start.
* `start_inj` — **conditions that are written alike start alike.**
* `Predicate.readable`, `RecordQuery.readable` — conditions and queries are readable, at any depth.
* `RecordQuery.text_eq_iff` — **two queries have the same SQL exactly if they keep the same.**
-/

namespace SoupQuery

open SoupQuery.Decimal SoupQuery.Sql

/-! ## What follows -/

/-- The lexemes start with one of the texts. -/
def ClosedBy (texts : List String) (r : List Lexeme) : Prop := ∃ t ∈ texts, ∃ u, r = plain t ++ u

/-- What may follow a condition. -/
def closers : List String := [")", " AND ", " OR ", " ORDER BY ", " LIMIT "]

/-- The lexemes may follow a condition. -/
abbrev Closes (r : List Lexeme) : Prop := ClosedBy closers r

theorem closedBy_plain {texts : List String} {t : String} (r : List Lexeme)
    (h : t ∈ texts := by decide) : ClosedBy texts (plain t ++ r) := ⟨t, h, r, rfl⟩

theorem ClosedBy.ne {texts : List String} {r : List Lexeme} (h : ClosedBy texts r) {t : String}
    (hapart : ∀ c ∈ texts, Apart c t) (u : List Lexeme) : r ≠ plain t ++ u := by
  obtain ⟨c, hc, v, rfl⟩ := h
  exact (hapart c hc).plain_ne v u

theorem Closes.stops {r : List Lexeme} (h : Closes r) : Stops r := by
  obtain ⟨c, hc, u, rfl⟩ := h
  simp only [closers, List.mem_cons, List.not_mem_nil, or_false] at hc
  rcases hc with rfl | rfl | rfl | rfl | rfl <;> exact stops_plain (by decide) rfl u

/-! ## How conditions start -/

/-- What is said of an operand, by the word after it. -/
inductive Keyword where
  | compare (op : ComparisonOperator)
  | isNull
  | isNotNull
  | between
  deriving DecidableEq, Repr

/-- The word after an operand. -/
def Keyword.text : Keyword → String
  | .compare op => " " ++ op.sql ++ " "
  | .isNull => " IS NULL"
  | .isNotNull => " IS NOT NULL"
  | .between => " BETWEEN "

/-- All words that stand after an operand. -/
def Keyword.all : List Keyword :=
  ComparisonOperator.all.map .compare ++ [.isNull, .isNotNull, .between]

theorem Keyword.mem_all (k : Keyword) : k ∈ Keyword.all := by
  cases k with
  | compare op => cases op <;> decide
  | _ => decide

theorem Keyword.apart {k k' : Keyword} (h : k ≠ k') : Apart k.text k'.text := by
  have hall : ∀ k ∈ Keyword.all, ∀ k' ∈ Keyword.all, k ≠ k' → Apart k.text k'.text := by decide
  exact hall k k.mem_all k' k'.mem_all h

theorem Keyword.apart_of_mem (k : Keyword) : ∀ c ∈ ", " :: closers, Apart c k.text := by
  have hall : ∀ k ∈ Keyword.all, ∀ c ∈ ", " :: closers, Apart c k.text := by decide
  exact hall k k.mem_all

theorem Keyword.stops (k : Keyword) (r : List Lexeme) : Stops (plain k.text ++ r) := by
  cases k with
  | compare op => cases op <;> exact stops_plain (by decide) rfl r
  | _ => exact stops_plain (by decide) rfl r

/-- The form of a condition that does not start with an operand. A compound without operands stands
for a constant. -/
inductive Opener where
  | compound (constant? : Option Connective)
  | negation
  | existence
  deriving DecidableEq, Repr

/-- How such a condition starts. -/
def Opener.text : Opener → String
  | .compound (some op) => op.neutral
  | .compound none => "("
  | .negation => "NOT ("
  | .existence => "EXISTS ("

/-- All forms of conditions that do not start with an operand. -/
def Opener.all : List Opener :=
  [.compound (some .and), .compound (some .or), .compound none, .negation, .existence]

theorem Opener.mem_all (o : Opener) : o ∈ Opener.all := by
  cases o with
  | compound constant? =>
    cases constant? with
    | none => decide
    | some op => cases op <;> decide
  | _ => decide

theorem Opener.apart {o o' : Opener} (h : o ≠ o') : Apart o.text o'.text := by
  have hall : ∀ o ∈ Opener.all, ∀ o' ∈ Opener.all, o ≠ o' → Apart o.text o'.text := by decide
  exact hall o o.mem_all o' o'.mem_all h

theorem Opener.apart_close (o : Opener) : Apart o.text ")" := by
  have hall : ∀ o ∈ Opener.all, Apart o.text ")" := by decide
  exact hall o o.mem_all

/-- How a condition starts: with an operand and a word after it, or with a form of its own. -/
inductive Start where
  | operand (keyword : Keyword)
  | opened (opener : Opener)
  deriving DecidableEq, Repr

namespace Predicate

/-- The start of a condition. -/
def start : Predicate → Start
  | .comparison _ op _ => .operand (.compare op)
  | .compound op operands => .opened (.compound (if operands.isEmpty then some op else none))
  | .negation _ => .opened .negation
  | .isNull _ => .operand .isNull
  | .isNotNull _ => .operand .isNotNull
  | .between _ _ _ => .operand .between
  | .existsRow _ _ _ => .opened .existence

/-- The lexemes of a condition. -/
def lexemes (mapping : TableMapping) (p : Predicate) : List Lexeme := (p.sql mapping).lexemes

/-! ### The lexemes of each form -/

section Forms

variable {mapping : TableMapping}

theorem lexemes_comparison (left right : Expression) (op : ComparisonOperator) :
    (comparison left op right).lexemes mapping =
      left.sql.lexemes ++ (plain (Keyword.compare op).text ++ right.sql.lexemes) := by
  simp [lexemes, sql, Sql.code, Keyword.text]

theorem lexemes_isNull (operand : Expression) :
    (isNull operand).lexemes mapping = operand.sql.lexemes ++ plain Keyword.isNull.text := by
  simp [lexemes, sql, Sql.code, Keyword.text]

theorem lexemes_isNotNull (operand : Expression) :
    (isNotNull operand).lexemes mapping = operand.sql.lexemes ++ plain Keyword.isNotNull.text := by
  simp [lexemes, sql, Sql.code, Keyword.text]

theorem lexemes_between (operand start stop : Expression) :
    (between operand start stop).lexemes mapping = operand.sql.lexemes ++
      (plain Keyword.between.text ++
        (start.sql.lexemes ++ (plain " AND " ++ stop.sql.lexemes))) := by
  simp [lexemes, sql, Sql.code, Keyword.text]

theorem lexemes_constant (op : Connective) :
    (compound op []).lexemes mapping = plain op.neutral := by
  simp [lexemes, sql, Sql.code]

theorem lexemes_sqlRest (op : Connective) (ps : List Predicate) : (sqlRest mapping op ps).lexemes =
    ps.flatMap fun p => plain op.separator ++ p.lexemes mapping := by
  induction ps with
  | nil => rfl
  | cons p ps ih => simp [sqlRest, Sql.code, lexemes, ih]

theorem lexemes_group (op : Connective) (first : Predicate) (rest : List Predicate) :
    (compound op (first :: rest)).lexemes mapping = plain "(" ++ (first.lexemes mapping ++
      (rest.flatMap (fun p => plain op.separator ++ p.lexemes mapping) ++ plain ")")) := by
  rw [← lexemes_sqlRest]
  simp [lexemes, sql, Sql.code]

theorem lexemes_negation (operand : Predicate) :
    (negation operand).lexemes mapping =
      plain "NOT (" ++ (operand.lexemes mapping ++ plain ")") := by
  simp [lexemes, sql, Sql.code]

theorem lexemes_existsRow (rowName : String) (joinNames : List String) (body : Predicate) :
    (existsRow rowName joinNames body).lexemes mapping = plain "EXISTS (" ++
      ((selectRows mapping rowName joinNames).lexemes ++ (plain " WHERE " ++
        (body.lexemes mapping ++ plain ")"))) := by
  simp [lexemes, sql, Sql.code]

end Forms

end Predicate

section Predicates

variable {mapping : TableMapping} {p q : Predicate} {r s : List Lexeme}

open Predicate

theorem lexemes_of_operand (mapping : TableMapping) (hp : p.Legible) {k : Keyword}
    (h : p.start = .operand k) :
    ∃ e : Expression, e.Exact ∧
      ∃ after, p.lexemes mapping = e.sql.lexemes ++ (plain k.text ++ after) := by
  cases hp with
  | comparison hleft _ =>
    cases h
    exact ⟨_, hleft, _, lexemes_comparison ..⟩
  | isNull hoperand =>
    cases h
    exact ⟨_, hoperand, [], by rw [lexemes_isNull, List.append_nil]⟩
  | isNotNull hoperand =>
    cases h
    exact ⟨_, hoperand, [], by rw [lexemes_isNotNull, List.append_nil]⟩
  | between hoperand _ _ =>
    cases h
    exact ⟨_, hoperand, _, lexemes_between ..⟩
  | _ => cases h

theorem lexemes_of_opened (mapping : TableMapping) {o : Opener} (h : p.start = .opened o) :
    ∃ after, p.lexemes mapping = plain o.text ++ after := by
  cases p with
  | compound op operands =>
    cases operands with
    | nil =>
      cases h
      exact ⟨[], by rw [lexemes_constant, List.append_nil]; rfl⟩
    | cons first rest =>
      cases h
      exact ⟨_, lexemes_group ..⟩
  | negation operand =>
    cases h
    exact ⟨_, lexemes_negation ..⟩
  | existsRow rowName joinNames body =>
    cases h
    exact ⟨_, lexemes_existsRow ..⟩
  | _ => cases h

/-- A condition does not start like the inside of a list of texts: after a text it has a word, and
the list a comma or its end. -/
theorem lexemes_ne_texts (hp : p.Legible) (texts : List String) : p.lexemes mapping ++ r ≠
    (separated ", " (texts.map fun text => [.string text])).lexemes ++ (plain ")" ++ s) := by
  intro heq
  cases hstart : p.start with
  | operand k =>
    obtain ⟨e, he, after, hlexemes⟩ := lexemes_of_operand mapping hp hstart
    rw [hlexemes, List.append_assoc, List.append_assoc] at heq
    have hhead := e.head?_opening? he (plain k.text ++ (after ++ r))
    cases texts with
    | nil =>
      rw [heq] at hhead
      cases hhead
    | cons text texts =>
      rw [lexemes_separated_cons] at heq
      rw [heq] at hhead
      obtain ⟨text', hsql, -⟩ := Expression.eq_string_of_opening (Option.some.inj hhead).symm
      rw [hsql] at heq
      have hafter := (List.cons.inj heq).2
      -- what stands after the first text of the list
      cases texts with
      | nil => exact (k.apart_of_mem ")" (by decide)).plain_ne _ _ hafter.symm
      | cons next rest =>
        simp only [List.flatMap_cons, List.append_assoc] at hafter
        exact (k.apart_of_mem ", " (by decide)).plain_ne _ _ hafter.symm
  | opened o =>
    obtain ⟨after, hlexemes⟩ := lexemes_of_opened mapping hstart
    rw [hlexemes, List.append_assoc] at heq
    cases texts with
    | nil => exact o.apart_close.plain_ne _ _ heq
    | cons text texts =>
      rw [lexemes_separated_cons] at heq
      cases o with
      | compound constant? =>
        cases constant? with
        | none => cases heq
        | some op => cases op <;> cases heq
      | _ => cases heq

theorem exists_neutral_eq_ofInt (op : Connective) : ∃ n, op.neutral = Decimal.ofInt n := by
  cases op with
  | and => exact ⟨1, by decide⟩
  | or => exact ⟨0, by decide⟩

/-- No operand with a word after it is written like a condition that starts otherwise. -/
theorem operand_ne_opened {e : Expression} (he : e.Exact) {k : Keyword} (hq : q.Legible)
    {o : Opener} (hstart : q.start = .opened o) (hs : Closes s) :
    e.sql.lexemes ++ (plain k.text ++ r) ≠ q.lexemes mapping ++ s := by
  intro heq
  have hhead := e.head?_opening? he (plain k.text ++ r)
  cases hq with
  | @compound op operands _ hoperands =>
    cases operands with
    | nil =>
      -- an empty compound looks like a number, but no word follows it
      obtain ⟨n, hn⟩ := exists_neutral_eq_ofInt op
      have hnumber : (compound op []).lexemes mapping = (Expression.int n).sql.lexemes := by
        rw [lexemes_constant, hn, Expression.sql, Sql.code, lexemes_code, lexemes_nil,
          List.append_nil]
      rw [hnumber] at heq
      obtain ⟨-, hafter⟩ := e.readable he (.int n) trivial _ _ (k.stops r) hs.stops heq
      exact hs.ne (fun c hc => k.apart_of_mem c (List.mem_cons_of_mem _ hc)) r hafter.symm
    | cons first rest =>
      rw [lexemes_group, List.append_assoc] at heq
      rw [heq] at hhead
      obtain ⟨texts, rfl⟩ := Expression.eq_strings_of_opening he (Option.some.inj hhead).symm
      rw [lexemes_strings] at heq
      have hinside := List.append_cancel_left heq
      rw [List.append_assoc] at hinside
      exact lexemes_ne_texts (hoperands first (List.mem_cons_self ..)) texts hinside.symm
  | negation _ =>
    rw [lexemes_negation, List.append_assoc] at heq
    rw [heq] at hhead
    rw [Expression.eq_null_of_opening (Option.some.inj hhead).symm] at heq
    have hapart : Apart "NULL" "NOT (" := by decide
    exact hapart.plain_ne _ _ heq
  | existsRow _ =>
    rw [lexemes_existsRow, List.append_assoc] at heq
    rw [heq] at hhead
    cases hhead
  | _ => cases hstart

/-- **Conditions that are written alike start alike.** -/
theorem start_inj (hp : p.Legible) (hq : q.Legible) (hr : Closes r) (hs : Closes s)
    (heq : p.lexemes mapping ++ r = q.lexemes mapping ++ s) : p.start = q.start := by
  cases hpstart : p.start with
  | operand k =>
    obtain ⟨e, he, after, hlexemes⟩ := lexemes_of_operand mapping hp hpstart
    rw [hlexemes, List.append_assoc, List.append_assoc] at heq
    cases hqstart : q.start with
    | operand k' =>
      obtain ⟨e', he', after', hlexemes'⟩ := lexemes_of_operand mapping hq hqstart
      rw [hlexemes', List.append_assoc, List.append_assoc] at heq
      obtain ⟨-, hrest⟩ := e.readable he e' he' _ _ (k.stops _) (k'.stops _) heq
      by_cases hk : k = k'
      · rw [hk]
      · exact absurd hrest ((Keyword.apart hk).plain_ne _ _)
    | opened o => exact absurd heq (operand_ne_opened he hq hqstart hs)
  | opened o =>
    cases hqstart : q.start with
    | operand k' =>
      obtain ⟨e', he', after', hlexemes'⟩ := lexemes_of_operand mapping hq hqstart
      rw [hlexemes', List.append_assoc, List.append_assoc] at heq
      exact absurd heq.symm (operand_ne_opened he' hp hpstart hr)
    | opened o' =>
      obtain ⟨after, hlexemes⟩ := lexemes_of_opened mapping hpstart
      obtain ⟨after', hlexemes'⟩ := lexemes_of_opened mapping hqstart
      rw [hlexemes, hlexemes', List.append_assoc, List.append_assoc] at heq
      by_cases ho : o = o'
      · rw [ho]
      · exact absurd heq ((Opener.apart ho).plain_ne _ _)

/-! ## Conditions -/

theorem readable_name (mapping : TableMapping) (name : String) :
    Readable (fun name => Sql.lexemes
      [.identifier name, .code ("." ++ mapping.column ++ " as "), jsonColumn name]) id
      (fun _ => True) (fun _ => True) name := by
  intro name' _ r s _ _ heq
  simp only [jsonColumn, lexemes_identifier, lexemes_code, lexemes_nil, List.cons_append,
    List.append_assoc, List.cons.injEq, Lexeme.quoted.injEq, Token.mk.injEq, true_and,
    List.append_cancel_left_eq, List.nil_append] at heq
  exact ⟨heq.1, heq.2.2⟩

/-- An operand and what stands after the word that follows it are determined. -/
theorem operand_inj {e e' : Expression} {k : Keyword} (he : e.Exact) (he' : e'.Exact)
    (heq : e.sql.lexemes ++ (plain k.text ++ r) = e'.sql.lexemes ++ (plain k.text ++ s)) :
    e.written = e'.written ∧ r = s := by
  obtain ⟨hwritten, hrest⟩ := e.readable he e' he' _ _ (k.stops r) (k.stops s) heq
  exact ⟨hwritten, List.append_cancel_left hrest⟩

/-- The names of rows are determined: each is written once as the column of its row. -/
theorem selectRows_inj {rowName rowName' : String} {joinNames joinNames' : List String}
    (heq : (selectRows mapping rowName joinNames).lexemes ++ r =
      (selectRows mapping rowName' joinNames').lexemes ++ s) :
    rowName = rowName' ∧ joinNames = joinNames' ∧ r = s := by
  have hcolumns := heq
  have hfrom : ∀ u v : List Lexeme,
      plain (" FROM (select * from " ++ mapping.table ++ " where " ++ mapping.key ++ " like ") ++
        u ≠ plain ", " ++ v := by
    intro u v h
    simp [plain] at h
  simp only [selectRows, Sql.code, lexemes_append, lexemes_code, lexemes_nil, List.append_nil,
    List.append_assoc, List.append_cancel_left_eq] at hcolumns
  obtain ⟨hnames, -⟩ := Readable.separated (fun _ => trivial) trivial trivial (hfrom _) (hfrom _)
    (fun name _ => readable_name mapping name) (fun _ _ => trivial) hcolumns
  rw [List.map_id, List.map_id, List.cons.injEq] at hnames
  obtain ⟨rfl, rfl⟩ := hnames
  exact ⟨rfl, rfl, List.append_cancel_left heq⟩

theorem closes_separator (op : Connective) (r : List Lexeme) :
    Closes (plain op.separator ++ r) := by
  cases op <;> exact closedBy_plain r

theorem separator_apart : ∀ {op op' : Connective}, op ≠ op' → Apart op.separator op'.separator
  | .and, .and, h | .or, .or, h => absurd rfl h
  | .and, .or, _ | .or, .and, _ => by decide

theorem close_ne_separator (op : Connective) (r t : List Lexeme) :
    plain ")" ++ r ≠ plain op.separator ++ t := by
  have hapart : Apart ")" op.separator := by cases op <;> decide
  exact hapart.plain_ne r t

/-- No text has two readings as a condition. -/
abbrev Predicate.IsReadable (mapping : TableMapping) (p : Predicate) : Prop :=
  Readable (Predicate.lexemes mapping) Predicate.written Predicate.Legible Closes p

/-- The operands of a group and its connective are determined, if it has two operands or more. -/
theorem group_inj {op op' : Connective} {first first' second second' : Predicate}
    {rest rest' : List Predicate}
    (hp : ∀ p ∈ first :: second :: rest, p.IsReadable mapping)
    (hq : ∀ q ∈ first' :: second' :: rest', q.Legible)
    (heq : (compound op (first :: second :: rest)).lexemes mapping ++ r =
      (compound op' (first' :: second' :: rest')).lexemes mapping ++ s) :
    op = op' ∧ (first :: second :: rest).map Predicate.written =
      (first' :: second' :: rest').map Predicate.written ∧ r = s := by
  have hends : ∀ (op : Connective) (p : Predicate) (ps : List Predicate) (t : List Lexeme),
      Closes ((p :: ps).flatMap (fun p => plain op.separator ++ p.lexemes mapping) ++ t) := by
    intro op p ps t
    rw [List.flatMap_cons, List.append_assoc, List.append_assoc]
    exact closes_separator op _
  simp only [lexemes_group, List.append_assoc, List.append_cancel_left_eq] at heq
  obtain ⟨hfirst, hrest⟩ := hp first (List.mem_cons_self ..) first'
    (hq first' (List.mem_cons_self ..)) _ _ (hends op second rest _) (hends op' second' rest' _) heq
  by_cases hop : op = op'
  · subst hop
    obtain ⟨hmap, hclose⟩ := Readable.repeated (closes_separator op) (closedBy_plain r)
      (closedBy_plain s) (close_ne_separator op r) (close_ne_separator op s)
      (fun p hmem => hp p (List.mem_cons_of_mem _ hmem))
      (fun q hmem => hq q (List.mem_cons_of_mem _ hmem)) hrest
    exact ⟨rfl, List.cons_eq_cons.2 ⟨hfirst, hmap⟩, List.append_cancel_left hclose⟩
  · simp only [List.flatMap_cons, List.append_assoc] at hrest
    exact absurd hrest ((separator_apart hop).plain_ne _ _)

/-- **Conditions are readable.** -/
theorem Predicate.readable (mapping : TableMapping) (hp : p.Legible) : p.IsReadable mapping := by
  -- the other condition starts alike, which leaves one form for it
  induction hp with
  | @comparison left op right hleft hright =>
    intro q hq r s hr hs heq
    have hstart := start_inj (.comparison hleft hright) hq hr hs heq
    cases hq with
    | @comparison left' op' right' hleft' hright' =>
      cases hstart
      simp only [lexemes_comparison, List.append_assoc] at heq
      obtain ⟨hl, heq⟩ := operand_inj hleft hleft' heq
      obtain ⟨hr, hrs⟩ := right.readable hright right' hright' _ _ hr.stops hs.stops heq
      exact ⟨by rw [Predicate.written, Predicate.written, hl, hr], hrs⟩
    | _ => cases hstart
  | @compound op operands hlength hoperands ih =>
    intro q hq r s hr hs heq
    have hstart := start_inj (.compound hlength hoperands) hq hr hs heq
    cases hq with
    | @compound op' operands' hlength' hoperands' =>
      match operands, operands' with
      | [only], _ => exact absurd rfl hlength
      | _, [only] => exact absurd rfl hlength'
      | [], [] =>
        cases hstart
        exact ⟨rfl, List.append_cancel_left heq⟩
      | [], _ :: _ :: _ => cases hstart
      | _ :: _ :: _, [] => cases hstart
      | first :: second :: rest, first' :: second' :: rest' =>
        obtain ⟨rfl, hmap, hrs⟩ := group_inj ih hoperands' heq
        exact ⟨by simp only [Predicate.written, Predicate.writtenAll_eq_map, hmap], hrs⟩
    | _ => cases hstart
  | @negation operand hoperand ih =>
    intro q hq r s hr hs heq
    have hstart := start_inj (.negation hoperand) hq hr hs heq
    cases hq with
    | @negation operand' hoperand' =>
      simp only [lexemes_negation, List.append_assoc, List.append_cancel_left_eq] at heq
      obtain ⟨ho, hclose⟩ := ih operand' hoperand' _ _ (closedBy_plain r) (closedBy_plain s) heq
      exact ⟨by rw [Predicate.written, Predicate.written, ho], List.append_cancel_left hclose⟩
    | _ => cases hstart
  | @isNull operand hoperand =>
    intro q hq r s hr hs heq
    have hstart := start_inj (.isNull hoperand) hq hr hs heq
    cases hq with
    | @isNull operand' hoperand' =>
      simp only [lexemes_isNull, List.append_assoc] at heq
      obtain ⟨ho, hrs⟩ := operand_inj hoperand hoperand' heq
      exact ⟨by rw [Predicate.written, Predicate.written, ho], hrs⟩
    | _ => cases hstart
  | @isNotNull operand hoperand =>
    intro q hq r s hr hs heq
    have hstart := start_inj (.isNotNull hoperand) hq hr hs heq
    cases hq with
    | @isNotNull operand' hoperand' =>
      simp only [lexemes_isNotNull, List.append_assoc] at heq
      obtain ⟨ho, hrs⟩ := operand_inj hoperand hoperand' heq
      exact ⟨by rw [Predicate.written, Predicate.written, ho], hrs⟩
    | _ => cases hstart
  | @between operand start stop hoperand hfrom hto =>
    intro q hq r s hr hs heq
    have hstart := start_inj (.between hoperand hfrom hto) hq hr hs heq
    have hand : ∀ t, Stops (plain " AND " ++ t) := stops_plain (by decide) rfl
    cases hq with
    | @between operand' start' stop' hoperand' hfrom' hto' =>
      simp only [lexemes_between, List.append_assoc] at heq
      obtain ⟨ho, heq⟩ := operand_inj hoperand hoperand' heq
      obtain ⟨hf, heq⟩ := start.readable hfrom start' hfrom' _ _ (hand _) (hand _) heq
      obtain ⟨ht, hrs⟩ := stop.readable hto stop' hto' _ _ hr.stops hs.stops
        (List.append_cancel_left heq)
      exact ⟨by rw [Predicate.written, Predicate.written, ho, hf, ht], hrs⟩
    | _ => cases hstart
  | @existsRow rowName joinNames body hbody ih =>
    intro q hq r s hr hs heq
    have hstart := start_inj (.existsRow hbody) hq hr hs heq
    cases hq with
    | @existsRow rowName' joinNames' body' hbody' =>
      simp only [lexemes_existsRow, List.append_assoc, List.append_cancel_left_eq] at heq
      obtain ⟨rfl, rfl, hwhere⟩ := selectRows_inj heq
      have hbodies := List.append_cancel_left hwhere
      obtain ⟨hb, hclose⟩ := ih body' hbody' _ _ (closedBy_plain r) (closedBy_plain s) hbodies
      exact ⟨by rw [Predicate.written, Predicate.written, hb], List.append_cancel_left hclose⟩
    | _ => cases hstart

end Predicates

/-! ## Clauses -/

section Clauses

/-- What may follow an order. -/
def orderClosers : List String := [" LIMIT ", ")"]

theorem SortKey.readable {key : SortKey} (hkey : key.extract.Exact) :
    Readable (fun key : SortKey => key.sql.lexemes) SortKey.written (·.extract.Exact)
      (fun _ => True) key := by
  intro key' hkey' r s _ _ heq
  have hdirection : ∀ (b : Bool) (t : List Lexeme),
      Stops (plain (if b then " ASC" else " DESC") ++ t) := by
    intro b t
    cases b <;> exact stops_plain (by decide) rfl t
  obtain ⟨ascending, nullsFirst, extract⟩ := key
  obtain ⟨ascending', nullsFirst', extract'⟩ := key'
  simp only [SortKey.sql, Sql.code, lexemes_append, lexemes_code, lexemes_nil, List.append_nil,
    List.append_assoc] at heq
  obtain ⟨hextract, hwords⟩ := extract.readable hkey extract' hkey' _ _ (hdirection _ _)
    (hdirection _ _) heq
  obtain ⟨rfl, hnulls⟩ := bool_inj " ASC" " DESC" (by decide) hwords
  obtain ⟨rfl, hrs⟩ := bool_inj " NULLS FIRST" " NULLS LAST" (by decide) hnulls
  exact ⟨by rw [SortKey.written, SortKey.written, hextract], hrs⟩

theorem whereClause_readable (mapping : TableMapping) {predicate? : Option Predicate}
    (h : ∀ p, predicate? = some p → p.Legible) :
    Readable (fun predicate? => (whereClause mapping predicate?).lexemes)
      (Option.map Predicate.written) (∀ p, · = some p → p.Legible) Closes predicate? := by
  intro predicate?' h' r s hr hs heq
  have hwhere : ∀ c ∈ closers, Apart c " WHERE " := by decide
  cases predicate? with
  | none =>
    cases predicate?' with
    | none => exact ⟨rfl, heq⟩
    | some p' => exact absurd (heq.trans (List.append_assoc ..)) (hr.ne hwhere _)
  | some p =>
    cases predicate?' with
    | none => exact absurd (heq.symm.trans (List.append_assoc ..)) (hs.ne hwhere _)
    | some p' =>
      simp only [whereClause, Sql.code, List.singleton_append, lexemes_code, List.append_assoc,
        List.append_cancel_left_eq] at heq
      obtain ⟨hp, hrs⟩ := p.readable mapping (h p rfl) p' (h' p' rfl) r s hr hs heq
      exact ⟨congrArg some hp, hrs⟩

theorem orderClause_readable {keys : List SortKey} (h : ∀ key ∈ keys, key.extract.Exact) :
    Readable (fun keys => (orderClause keys).lexemes) (List.map SortKey.written)
      (∀ key ∈ ·, key.extract.Exact) (ClosedBy orderClosers) keys := by
  intro keys' h' r s hr hs heq
  have horder : ∀ c ∈ orderClosers, Apart c " ORDER BY " := by decide
  have hcomma : ∀ c ∈ orderClosers, Apart c ", " := by decide
  cases keys with
  | nil =>
    cases keys' with
    | nil => exact ⟨rfl, heq⟩
    | cons key' keys' => exact absurd (heq.trans (List.append_assoc ..)) (hr.ne horder _)
  | cons key keys =>
    cases keys' with
    | nil => exact absurd (heq.symm.trans (List.append_assoc ..)) (hs.ne horder _)
    | cons key' keys' =>
      simp only [orderClause, List.isEmpty_cons, Bool.false_eq_true, if_false, Sql.code,
        List.singleton_append, lexemes_code, List.append_assoc, List.append_cancel_left_eq] at heq
      exact Readable.separated (fun _ => trivial) trivial trivial (hr.ne hcomma) (hs.ne hcomma)
        (fun key hkey => SortKey.readable (h key hkey)) h' heq

theorem lexemes_limitClause (count : Nat) :
    (limitClause (some count)).lexemes = plain " LIMIT " ++ (digits count).map .plain := by
  simp [limitClause, Sql.code, plain, String.toList_ofList]

theorem limitClause_readable (first? : Option Nat) :
    Readable (fun first? => (limitClause first?).lexemes) id (fun _ => True) (ClosedBy [")"])
      first? := by
  intro first?' _ r s hr hs heq
  have hlimit : ∀ c ∈ [")"], Apart c " LIMIT " := by decide
  have hstops : ∀ {t : List Lexeme}, ClosedBy [")"] t → Stops t := by
    rintro t ⟨c, hc, u, rfl⟩
    rw [List.mem_singleton.1 hc]
    exact stops_plain (by decide) rfl u
  cases first? with
  | none =>
    cases first?' with
    | none => exact ⟨rfl, heq⟩
    | some count' =>
      simp only [lexemes_limitClause, List.append_assoc] at heq
      exact absurd heq (hr.ne hlimit _)
  | some count =>
    cases first?' with
    | none =>
      simp only [lexemes_limitClause, List.append_assoc] at heq
      exact absurd heq.symm (hs.ne hlimit _)
    | some count' =>
      simp only [lexemes_limitClause, List.append_assoc, List.append_cancel_left_eq] at heq
      obtain ⟨hcount, hrs⟩ := readable_digits count count' trivial r s (hstops hr) (hstops hs) heq
      exact ⟨congrArg some hcount, hrs⟩

theorem closedBy_limitClause (first? : Option Nat) (r : List Lexeme) :
    ClosedBy orderClosers ((limitClause first?).lexemes ++ (plain ")" ++ r)) := by
  cases first? with
  | none => exact closedBy_plain r
  | some count =>
    rw [lexemes_limitClause, List.append_assoc]
    exact closedBy_plain _

theorem closes_orderClause (keys : List SortKey) {r : List Lexeme} (hr : ClosedBy orderClosers r) :
    Closes ((orderClause keys).lexemes ++ r) := by
  cases keys with
  | nil =>
    obtain ⟨c, hc, u, rfl⟩ := hr
    exact closedBy_plain u ((by decide : ∀ c ∈ orderClosers, c ∈ closers) c hc)
  | cons key keys =>
    simp only [orderClause, List.isEmpty_cons, Bool.false_eq_true, if_false, Sql.code,
      List.singleton_append, lexemes_code, List.append_assoc]
    exact closedBy_plain _

end Clauses

/-! ## Queries -/

section Queries

variable (mapping : TableMapping)

/-- The lexemes of an entry of what a query returns. -/
def QueryField.lexemes : QueryField RecordQuery → List Lexeme
  | .scalar path extract =>
    .quoted ⟨'\'', "$." ++ path⟩ :: (plain ", (" ++ (extract.sql.lexemes ++ plain ")"))
  | .child path connection =>
    .quoted ⟨'\'', "$." ++ path⟩ ::
      (plain ", json((" ++ ((connection.sql mapping).lexemes ++ plain "))"))

theorem lexemes_fieldsSql (fields : List (QueryField RecordQuery)) :
    (fieldsSql mapping fields).lexemes =
      fields.flatMap fun field => plain ", " ++ field.lexemes mapping := by
  induction fields with
  | nil => rfl
  | cons field fields ih =>
    cases field <;> simp [fieldsSql, QueryField.lexemes, Sql.code, jsonPath, ih]

theorem RecordQuery.lexemes_sql (query : RecordQuery) : (query.sql mapping).lexemes =
    plain "SELECT json_group_array(json_set(" ++ (.quoted ⟨'\'', "\x7b\x7d"⟩ ::
      (query.fields.flatMap (fun field => plain ", " ++ field.lexemes mapping) ++
        (plain ")) FROM (" ++ ((selectRows mapping query.row.name query.joinNames).lexemes ++
          ((whereClause mapping query.predicate?).lexemes ++
            ((orderClause query.orderBy).lexemes ++
              ((limitClause query.first?).lexemes ++ plain ")"))))))) := by
  obtain ⟨predicate?, fields, row, first?, joinNames, orderBy⟩ := query
  rw [← lexemes_fieldsSql]
  simp [RecordQuery.sql, emptyObject, Sql.code]

theorem QueryField.readable_scalar (path : String) {extract : Expression}
    (hextract : extract.Exact) :
    Readable (QueryField.lexemes mapping) QueryField.written QueryField.Legible (fun _ => True)
      (.scalar path extract) := by
  intro field hfield r s _ _ heq
  have hclose : ∀ t, Stops (plain ")" ++ t) := stops_plain (by decide) rfl
  cases hfield with
  | @scalar path' extract' hextract' =>
    simp only [QueryField.lexemes, List.cons_append, List.append_assoc, List.cons.injEq,
      Lexeme.quoted.injEq, Token.mk.injEq, true_and, List.append_cancel_left_eq] at heq
    obtain ⟨hpath, hrest⟩ := heq
    obtain ⟨he, hrs⟩ := extract.readable hextract extract' hextract' _ _ (hclose r) (hclose s) hrest
    rw [QueryField.written, QueryField.written, (String.append_right_inj _).1 hpath, he]
    exact ⟨rfl, List.append_cancel_left hrs⟩
  | child _ =>
    simp only [QueryField.lexemes, List.cons_append, List.append_assoc] at heq
    exact absurd (List.cons.inj heq).2 (Apart.plain_ne (by decide) _ _)

theorem QueryField.readable_child (path : String) {connection : RecordQuery}
    (hconnection : Readable (fun query => (query.sql mapping).lexemes) RecordQuery.written
      RecordQuery.Legible (fun _ => True) connection) :
    Readable (QueryField.lexemes mapping) QueryField.written QueryField.Legible (fun _ => True)
      (.child path connection) := by
  intro field hfield r s _ _ heq
  cases hfield with
  | scalar _ =>
    simp only [QueryField.lexemes, List.cons_append, List.append_assoc] at heq
    exact absurd (List.cons.inj heq).2 (Apart.plain_ne (by decide) _ _)
  | @child path' connection' hconnection' =>
    simp only [QueryField.lexemes, List.cons_append, List.append_assoc, List.cons.injEq,
      Lexeme.quoted.injEq, Token.mk.injEq, true_and, List.append_cancel_left_eq] at heq
    obtain ⟨hpath, hrest⟩ := heq
    obtain ⟨hc, hrs⟩ := hconnection connection' hconnection' _ _ trivial trivial hrest
    rw [QueryField.written, QueryField.written, (String.append_right_inj _).1 hpath, hc]
    exact ⟨rfl, List.append_cancel_left hrs⟩

mutual

/-- **Queries are readable.** -/
theorem RecordQuery.readable : ∀ query : RecordQuery, query.Legible →
    Readable (fun query => (query.sql mapping).lexemes) RecordQuery.written RecordQuery.Legible
      (fun _ => True) query
  | ⟨predicate?, fields, row, first?, joinNames, orderBy⟩, .mk hpredicate hfields horder => by
    intro query' hquery' r s _ _ heq
    cases hquery' with
    | @mk predicate?' fields' row' first?' joinNames' orderBy' hpredicate' hfields' horder' =>
    simp only [RecordQuery.lexemes_sql, List.append_assoc, List.cons_append,
      List.append_cancel_left_eq, List.cons.injEq, true_and] at heq
    have hfrom : ∀ t u : List Lexeme, plain ")) FROM (" ++ t ≠ plain ", " ++ u :=
      Apart.plain_ne (by decide)
    -- the parts are read off from the left, each up to where the next one may start
    obtain ⟨hf, hrows⟩ := Readable.repeated (fun _ => trivial) trivial trivial (hfrom _) (hfrom _)
      (fields_readable fields hfields) hfields' heq
    obtain ⟨hrow, hjoins, hclauses⟩ := selectRows_inj (List.append_cancel_left hrows)
    obtain ⟨hp, horders⟩ := whereClause_readable mapping hpredicate predicate?' hpredicate' _ _
      (closes_orderClause _ (closedBy_limitClause _ _))
      (closes_orderClause _ (closedBy_limitClause _ _)) hclauses
    obtain ⟨ho, hlimit⟩ := orderClause_readable horder orderBy' horder' _ _
      (closedBy_limitClause _ _) (closedBy_limitClause _ _) horders
    obtain ⟨hfirst, hclose⟩ := limitClause_readable first? first?' trivial _ _
      (closedBy_plain _) (closedBy_plain _) hlimit
    refine ⟨?_, List.append_cancel_left hclose⟩
    simp only [RecordQuery.written, writtenFields_eq_map, hp, hf, hrow, hjoins, ho,
      show first? = first?' from hfirst]

theorem fields_readable : ∀ fields : List (QueryField RecordQuery),
    (∀ field ∈ fields, field.Legible) → ∀ field ∈ fields,
      Readable (QueryField.lexemes mapping) QueryField.written QueryField.Legible
        (fun _ => True) field
  | .scalar path extract :: fields, h, field, hmem => by
    rcases List.mem_cons.1 hmem with rfl | hmem
    · cases h _ (List.mem_cons_self ..) with
      | scalar hextract => exact QueryField.readable_scalar mapping path hextract
    · exact fields_readable fields (fun f hf => h f (List.mem_cons_of_mem _ hf)) field hmem
  | .child path connection :: fields, h, field, hmem => by
    rcases List.mem_cons.1 hmem with rfl | hmem
    · cases h _ (List.mem_cons_self ..) with
      | child hconnection =>
        exact QueryField.readable_child mapping path
          (RecordQuery.readable connection hconnection)
    · exact fields_readable fields (fun f hf => h f (List.mem_cons_of_mem _ hf)) field hmem

end

end Queries

/-- **Two queries have the same SQL exactly if they keep the same**: the text determines a query up
to the types of rows and up to which texts are dates. -/
theorem RecordQuery.text_eq_iff {mapping : TableMapping} (hmapping : mapping.QuoteFree)
    {query query' : RecordQuery} (hquery : query.Legible) (hquery' : query'.Legible) :
    (query.sql mapping).text = (query'.sql mapping).text ↔ query.written = query'.written := by
  constructor
  · intro htext
    have hscan := scan?_text (query.spaced_sql hmapping)
    rw [htext, scan?_text (query'.spaced_sql hmapping)] at hscan
    have hlexemes : (query.sql mapping).lexemes ++ [] = (query'.sql mapping).lexemes ++ [] :=
      congrArg (· ++ []) (Option.some.inj hscan).symm
    exact (query.readable mapping hquery query' hquery' [] [] trivial trivial hlexemes).1
  · intro hwritten
    rw [← query.sql_written mapping, hwritten, query'.sql_written mapping]

/-- A query with a range and one more condition, and with a nested query whose condition is the
negation of nothing. -/
def rangeQuery (type : String) (start : Expression) (condition : Predicate) : RecordQuery where
  predicate? := some (.compound .and
    [.between (.extract "Visit" "data.day") start (.string "' AND 0"), condition])
  fields := [.child "node.Notes.edges"
    { predicate? := some (.negation (.compound .or []))
      fields := []
      row := ⟨"Visit.Notes", "Note"⟩
      first? := some 1
      joinNames := []
      orderBy := [] }]
  row := ⟨"Visit", type⟩
  first? := none
  joinNames := ["Visit.Owner"]
  orderBy := [⟨true, false, .extract "Visit" "data.day"⟩]

theorem rangeQuery_legible (type : String) {start : Expression} (hstart : start.Exact)
    {condition : Predicate} (hcondition : condition.Legible) :
    (rangeQuery type start condition).Legible := by
  refine .mk ?_ ?_ ?_
  · intro p hp
    cases hp
    refine .compound (by simp) fun p hp => ?_
    simp only [List.mem_cons, List.not_mem_nil, or_false] at hp
    rcases hp with rfl | rfl
    · exact .between trivial hstart trivial
    · exact hcondition
  · intro field hfield
    rw [List.mem_singleton.1 hfield]
    refine .child (.mk ?_ (by simp) (by simp))
    intro p hp
    cases hp
    exact .negation (.compound (by decide) (by simp))
  · intro key hkey
    rw [List.mem_singleton.1 hkey]
    trivial

/-- The type of a row and a date in the place of a text leave no trace; that a range is followed by
an empty disjunction and not by a comparison of zero with itself is seen. -/
theorem rangeQuery_text :
    ((rangeQuery "Visit" (.date "2020") (.compound .or [])).sql {}).text =
      ((rangeQuery "Stay" (.string "2020") (.compound .or [])).sql {}).text ∧
    ((rangeQuery "Visit" (.date "2020") (.compound .or [])).sql {}).text ≠
      ((rangeQuery "Visit" (.date "2020") (.comparison (.int 0) .eq (.int 0))).sql {}).text := by
  have hmapping : TableMapping.QuoteFree {} := ⟨by decide, by decide, by decide⟩
  have hempty : (Predicate.compound .or []).Legible := .compound (by decide) (by simp)
  have hzero : (Predicate.comparison (.int 0) .eq (.int 0)).Legible := .comparison trivial trivial
  have hdate : (Expression.date "2020").Exact := trivial
  have hstring : (Expression.string "2020").Exact := trivial
  have hvisit := rangeQuery_legible "Visit" hdate hempty
  have hstay := rangeQuery_legible "Stay" hstring hempty
  constructor
  · exact (RecordQuery.text_eq_iff hmapping hvisit hstay).2 rfl
  · intro htext
    have hkept := (RecordQuery.text_eq_iff hmapping hvisit
      (rangeQuery_legible "Visit" hdate hzero)).1 htext
    cases hkept

end SoupQuery
