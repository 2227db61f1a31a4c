import SoupQuery.Proofs.Anchors
import SoupQuery.Proofs.Scoping

/-!
# Compiled conditions are in normal form

Joining predicates flattens one level only and unwraps a single operand, so it does not normalise
what it is given. But it keeps normal forms, and every part of the compiler hands it predicates that
are normal already.

* `beq_comm` — equality of predicates does not depend on the order, although a predicate with a
  double that is no number differs from itself.
* `Predicate.Normal` — no compound has exactly one operand, an operand of the same connective, or
  two operands that are equal.
* `normal_combine` — **joining normal predicates gives a normal one.**
* `filterInvariant_normal`, `scopeArgument_normal`, `Parts.Of.conditions_normal` — filters, scopes
  and connections are normal.
* `transform_normal` — every condition of a result is normal, at any depth.
-/

namespace SoupQuery

/-! ## Equality does not depend on the order -/

theorem list_beq_comm {α : Type} [BEq α] (h : ∀ a b : α, (a == b) = (b == a)) :
    ∀ xs ys : List α, (xs == ys) = (ys == xs)
  | [], [] => rfl
  | [], _ :: _ => rfl
  | _ :: _, [] => rfl
  | x :: xs, y :: ys => by
    rw [List.cons_beq_cons, List.cons_beq_cons, h x y, list_beq_comm h xs ys]

theorem Decimal.Binary64.beq_comm (a b : Decimal.Binary64) : (a == b) = (b == a) := by
  show same a b = same b a
  cases a with
  | nan => cases b <;> rfl
  | infinite negative =>
    cases b with
    | infinite negative' => exact BEq.comm
    | _ => rfl
  | finite negative rank =>
    cases b with
    | finite negative' rank' =>
      by_cases hrank : rank = rank'
      · subst hrank
        simp only [same, beq_self_eq_true, Bool.true_and, BEq.comm (a := negative)]
      · have hval : rank.val ≠ rank'.val := fun heq => hrank (Fin.ext heq)
        simp only [same, beq_eq_false_iff_ne.2 hval, beq_eq_false_iff_ne.2 hval.symm,
          Bool.false_and]
    | _ => rfl

theorem Expression.beq_comm (e e' : Expression) : (e == e') = (e' == e) := by
  show same e e' = same e' e
  cases e with
  | extract rowName path =>
    cases e' with
    | extract rowName' path' =>
      simp only [same, BEq.comm (a := rowName), BEq.comm (a := path)]
    | _ => rfl
  | double value =>
    cases e' with
    | double value' => exact value.beq_comm value'
    | _ => rfl
  | numbers values =>
    cases e' with
    | numbers values' => exact list_beq_comm Decimal.Binary64.beq_comm values values'
    | _ => rfl
  | null => cases e' <;> rfl
  | _ => cases e' <;> first | rfl | exact BEq.comm

namespace Predicate

mutual

theorem same_comm : ∀ p q : Predicate, same p q = same q p
  | .comparison left op right, q => by
    cases q with
    | comparison left' op' right' =>
      simp only [same, left.beq_comm left', BEq.comm (a := op), right.beq_comm right']
    | _ => rfl
  | .compound op operands, q => by
    cases q with
    | compound op' operands' =>
      simp only [same, BEq.comm (a := op), sameAll_comm operands operands']
    | _ => rfl
  | .negation operand, q => by
    cases q with
    | negation operand' => simp only [same, same_comm operand operand']
    | _ => rfl
  | .isNull operand, q => by
    cases q with
    | isNull operand' => exact operand.beq_comm operand'
    | _ => rfl
  | .isNotNull operand, q => by
    cases q with
    | isNotNull operand' => exact operand.beq_comm operand'
    | _ => rfl
  | .between operand start stop, q => by
    cases q with
    | between operand' start' stop' =>
      simp only [same, operand.beq_comm operand', start.beq_comm start', stop.beq_comm stop']
    | _ => rfl
  | .existsRow rowName joinNames body, q => by
    cases q with
    | existsRow rowName' joinNames' body' =>
      simp only [same, BEq.comm (a := rowName), BEq.comm (a := joinNames), same_comm body body']
    | _ => rfl

theorem sameAll_comm : ∀ ps qs : List Predicate, sameAll ps qs = sameAll qs ps
  | [], [] => rfl
  | [], _ :: _ => rfl
  | _ :: _, [] => rfl
  | p :: ps, q :: qs => by simp only [sameAll, same_comm p q, sameAll_comm ps qs]

end

theorem beq_comm (p q : Predicate) : (p == q) = (q == p) := same_comm p q

/-! ## Normal predicates -/

/-- The predicate is in normal form: each compound in it, also under negations and in existence
checks, has none or at least two operands, none of which is a compound of the same connective, and
no two of which are equal. -/
inductive Normal : Predicate → Prop
  | comparison {left op right} : Normal (.comparison left op right)
  | compound {op operands} : operands.length ≠ 1 → (∀ p ∈ operands, Normal p) →
      (∀ inner, .compound op inner ∉ operands) →
      operands.Pairwise (fun p q => (p == q) = false ∧ (q == p) = false) →
      Normal (.compound op operands)
  | negation {operand} : Normal operand → Normal (.negation operand)
  | isNull {operand} : Normal (.isNull operand)
  | isNotNull {operand} : Normal (.isNotNull operand)
  | between {operand start stop} : Normal (.between operand start stop)
  | existsRow {rowName joinNames body} : Normal body → Normal (.existsRow rowName joinNames body)

/-- What a normal predicate contributes to a compound is normal, and no compound of the same
connective. -/
theorem Normal.operandsUnder {op : Connective} {p q : Predicate} (hq : q.Normal)
    (hp : p ∈ operandsUnder op q) : p.Normal ∧ ∀ inner, p ≠ .compound op inner := by
  rcases mem_operandsUnder hp with rfl | ⟨operands, rfl, hmem⟩
  · refine ⟨hq, ?_⟩
    rintro inner rfl
    -- a compound of the connective contributes its operands, not itself
    cases hq with
    | compound _ _ hnested _ =>
      simp only [Predicate.operandsUnder, if_true] at hp
      exact hnested inner hp
  · cases hq with
    | compound _ hnormal hnested _ =>
      refine ⟨hnormal p hmem, ?_⟩
      rintro inner rfl
      exact hnested inner hmem

/-- **Joining normal predicates gives a normal one.** -/
theorem normal_combine {op : Connective} {predicates : List Predicate}
    (h : ∀ p ∈ predicates, p.Normal) : (combine op predicates).Normal := by
  have hkept : ∀ p ∈ (flattened op predicates).eraseDups,
      p.Normal ∧ ∀ inner, p ≠ .compound op inner := by
    intro p hp
    obtain ⟨q, hq, hpq⟩ := List.mem_flatMap.1 (mem_of_mem_eraseDups hp)
    exact (h q hq).operandsUnder hpq
  rcases combine_cases op predicates with hone | hmany
  · exact (hkept _ (hone ▸ List.mem_singleton.2 rfl)).1
  · rw [hmany]
    refine .compound (fun hlength => ?_) (fun p hp => (hkept p hp).1)
      (fun inner hinner => (hkept _ hinner).2 inner rfl) ?_
    · -- a single operand stands for itself, so it would be a compound of the connective
      obtain ⟨only, honly⟩ := List.length_eq_one_iff.1 hlength
      have hcombine : combine op predicates = only := by
        unfold combine
        rw [show (predicates.flatMap (Predicate.operandsUnder op)).eraseDups = [only] from honly]
      exact (hkept only (honly ▸ List.mem_singleton.2 rfl)).2 _ (hcombine.symm.trans hmany)
    · refine (pairwise_eraseDups _).imp fun {p q} hne => ⟨?_, hne⟩
      rw [beq_comm, hne]

end Predicate

theorem Join.conditions_normal {join : Join} {p : Predicate} (h : p ∈ join.conditions) :
    p.Normal := by
  rcases Join.mem_conditions.1 h with rfl | rfl
  · exact .comparison
  · exact .comparison

end SoupQuery

namespace SoupQuery.Compile

open SoupQuery.GraphQL

variable {schema : Schema} {context : Context} {document : Document} {row : Row}

/-! ## Filters and scopes -/

theorem IsComparison.normal {kind : FilterKind} {left : Expression} {p : Predicate}
    (h : IsComparison kind left p) : p.Normal := by
  cases h with
  | isNull => exact .isNull
  | isNotNull => exact .isNotNull
  | day => exact .between
  | scalar _ _ => exact .comparison
  | list _ _ => exact .comparison

theorem RowFilter.combine_normal {op : Connective} {filters : List RowFilter}
    (h : ∀ filter ∈ filters, filter.predicate.Normal) :
    (RowFilter.combine op filters).predicate.Normal := by
  refine Predicate.normal_combine fun p hp => ?_
  obtain ⟨filter, hfilter, rfl⟩ := List.mem_map.1 hp
  exact h filter hfilter

theorem RowFilter.negate_normal {filter : RowFilter} (h : filter.predicate.Normal) :
    filter.negate.predicate.Normal := by
  unfold RowFilter.negate
  split
  · exact h
  · exact .negation h

/-- Being normal is preserved by every form of a filter. -/
theorem filterInvariant_normal (schema : Schema) :
    FilterInvariant schema (fun _ _ filter => filter.predicate.Normal)
      (fun _ _ _ filter => filter.predicate.Normal) where
  object h := RowFilter.combine_normal (forall_of_forall₂_right h fun _ _ hfilter => hfilter)
  connective _ h := RowFilter.combine_normal (forall_of_forall₂_right h fun _ _ hfilter => hfilter)
  negation _ h := RowFilter.negate_normal h
  field _ _ h := Predicate.normal_combine
    (forall_of_forall₂_right h fun _ _ hcomparison => (comparison_ok hcomparison).normal)
  record _ _ _ h := h

theorem whereArgument_normal {value? : Option Value} {filter : RowFilter}
    (h : whereArgument schema row value? = .ok (some filter)) : filter.predicate.Normal := by
  unfold whereArgument at h
  split at h
  · cases h
  · obtain ⟨inner, hinner, heq⟩ := Checked.map_eq_ok.1 h
    cases heq
    exact (filterInvariant_normal schema).filterObject hinner
  · cases h

theorem scopeArgument_normal {userId : String} {value? : Option Value} {p : Predicate}
    (h : scopeArgument schema row userId value? = .ok (some p)) : p.Normal := by
  rcases scopeArgument_ok h with rfl | rfl
  · exact .comparison
  · refine .existsRow (Predicate.normal_combine fun q hq => ?_)
    simp only [List.mem_cons, List.not_mem_nil, or_false] at hq
    rcases hq with rfl | rfl | rfl | rfl | rfl <;> exact .comparison

/-! ## Queries -/

theorem Parts.Of.conditions_normal {field : Field} {below : List Selection} {parts : Parts}
    (h : parts.Of context row field below) {p : Predicate} (hp : p ∈ parts.conditions) :
    p.Normal := by
  rcases Parts.mem_conditions_cases hp with ⟨join, -, hp⟩ | ⟨filter, hfilter, rfl⟩ | hscope
  · exact Join.conditions_normal hp
  · exact whereArgument_normal (hfilter ▸ h.filter)
  · exact scopeArgument_normal (hscope ▸ h.scope)

theorem Origin.anchors_normal {origin : Origin} {head : Field} {p : Predicate}
    (h : p ∈ origin.anchors head) : p.Normal := by
  cases origin with
  | document =>
    rw [List.mem_singleton.1 h]
    exact .comparison
  | record parent relationship =>
    simp only [Origin.anchors, childAnchors, List.mem_cons, List.not_mem_nil, or_false] at h
    rcases h with rfl | rfl
    · exact .comparison
    · exact .comparison

/-- A connection with normal anchors has a normal condition. -/
theorem recordQuery_normal {anchors : List Predicate} {field : Field} {below : List Selection}
    {query : RecordQuery} (h : recordQuery context row anchors field below = .ok query)
    (hanchors : ∀ p ∈ anchors, p.Normal) {predicate : Predicate}
    (hpredicate : query.predicate? = some predicate) : predicate.Normal := by
  obtain ⟨parts, hparts, rfl⟩ := recordQuery_ok h
  rw [toQuery_predicate hpredicate]
  refine Predicate.normal_combine fun p hp => ?_
  rcases List.mem_append.1 hp with hp | hp
  · exact hanchors p hp
  · exact hparts.conditions_normal hp

/-- **Every condition of a result is in normal form**, at any depth. -/
theorem transform_normal {queries enclosing : List RecordQuery} {query : RecordQuery}
    (h : transform context document = .ok queries) (hquery : Occurs queries enclosing query) :
    ∃ predicate, query.predicate? = some predicate ∧ predicate.Normal := by
  obtain ⟨origin, head, below, -, hok, -⟩ := connection_of_occurs h hquery
  obtain ⟨-, predicate, hpredicate, -⟩ := recordQuery_anchored hok
  exact ⟨predicate, hpredicate, recordQuery_normal hok (fun p => Origin.anchors_normal) hpredicate⟩

/-- Products have a price. -/
def productsContext : Context where
  schema := [("Product", ⟨"Product", [("Price", .scalar "Price" .double)], []⟩)]
  userId := "u1"

/-- A filter that asks twice whether the price is no number, under a disjunction, and has a
conjunction in a conjunction. -/
def productsField : Field where
  alias? := none
  name := "Product"
  arguments := [("where", .object
    [("and", .list [.object [("and", .list [.object [("Price", .object [("ne", .null)])]])]]),
     ("or", .list [.object [("Price", .object [("eq", .string "nan")])],
       .object [("Price", .object [("eq", .string "nan")])]])])]

def productsDocument : Document :=
  [.operation .query [.field ⟨none, "uiapi", []⟩ [.field ⟨none, "query", []⟩
    [.field productsField (edgesNode [.field ⟨none, "Id", []⟩ []])]]]]

/-- The condition of the products. The two comparisons with `nan` differ, so both are kept. -/
def productsCondition : Predicate :=
  let isNaN : Predicate :=
    .comparison (.extract "Product" "data.fields.Price.value") .eq (.double .nan)
  .compound .and [.hasType "Product" "Product",
    .isNotNull (.extract "Product" "data.fields.Price.value"), .compound .or [isNaN, isNaN]]

def productsQuery : RecordQuery where
  predicate? := some productsCondition
  fields := [.scalar "node.Id" (.extract "Product" "data.id")]
  row := ⟨"Product", "Product"⟩
  first? := none
  joinNames := []
  orderBy := []

theorem transform_products : transform productsContext productsDocument = .ok [productsQuery] := rfl

theorem products_normal : transform productsContext productsDocument = .ok [productsQuery] ∧
    productsCondition.Normal := by
  obtain ⟨predicate, hpredicate, hnormal⟩ :=
    transform_normal transform_products (.root (List.mem_singleton.2 rfl))
  cases hpredicate
  exact ⟨transform_products, hnormal⟩

end SoupQuery.Compile
