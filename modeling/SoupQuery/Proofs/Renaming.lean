import Mathlib.Data.List.Basic
import SoupQuery.Proofs.Predicate
import SoupQuery.RecordQuery

/-!
# Queries under other names of rows

A query refers to its rows by names. Renaming the rows of a query changes the names wherever they
stand, and nothing else: neither texts, which may hold the same characters, nor paths.

* `Expression.renamed`, `Predicate.renamed`, `RecordQuery.renamed` — the same under other names.
* `Renaming` — different rows stay different, and a dotted name keeps its relationships.
* `Predicate.combine_renamed` — **joining predicates compares names, and does not look into them.**
* `RecordQuery.renamed_id`, `RecordQuery.renamed_renamed` — renaming by nothing, and twice.
-/

namespace SoupQuery

variable {f g : String → String}

/-! ## Other names -/

/-- The operand, read from the row of another name. -/
def Expression.renamed (f : String → String) : Expression → Expression
  | .extract rowName path => .extract (f rowName) path
  | e => e

mutual

/-- The condition on rows of other names. -/
def Predicate.renamed (f : String → String) : Predicate → Predicate
  | .comparison left op right => .comparison (left.renamed f) op (right.renamed f)
  | .compound op operands => .compound op (Predicate.renamedAll f operands)
  | .negation operand => .negation (operand.renamed f)
  | .isNull operand => .isNull (operand.renamed f)
  | .isNotNull operand => .isNotNull (operand.renamed f)
  | .between operand start stop =>
    .between (operand.renamed f) (start.renamed f) (stop.renamed f)
  | .existsRow rowName joinNames body =>
    .existsRow (f rowName) (joinNames.map f) (body.renamed f)

def Predicate.renamedAll (f : String → String) : List Predicate → List Predicate
  | [] => []
  | operand :: operands => operand.renamed f :: Predicate.renamedAll f operands

end

/-- The row under another name. -/
def Row.renamed (f : String → String) (row : Row) : Row := ⟨f row.name, row.type⟩

/-- The join between rows of other names. -/
def Join.renamed (f : String → String) (join : Join) : Join :=
  ⟨f join.source, join.foreignKey, join.row.renamed f⟩

def SortKey.renamed (f : String → String) (key : SortKey) : SortKey :=
  ⟨key.ascending, key.nullsFirst, key.extract.renamed f⟩

mutual

/-- The query under other names of its rows, and those of the queries inside it. -/
def RecordQuery.renamed (f : String → String) : RecordQuery → RecordQuery
  | ⟨predicate?, fields, row, first?, joinNames, orderBy⟩ =>
    ⟨predicate?.map (Predicate.renamed f), renamedFields f fields, row.renamed f, first?,
      joinNames.map f, orderBy.map (SortKey.renamed f)⟩

/-- What a query returns, under other names of rows. -/
def renamedFields (f : String → String) :
    List (QueryField RecordQuery) → List (QueryField RecordQuery)
  | [] => []
  | .scalar path extract :: rest => .scalar path (extract.renamed f) :: renamedFields f rest
  | .child path connection :: rest => .child path (connection.renamed f) :: renamedFields f rest

end

/-- One entry of what a query returns, under other names of rows. -/
def QueryField.renamed (f : String → String) : QueryField RecordQuery → QueryField RecordQuery
  | .scalar path extract => .scalar path (extract.renamed f)
  | .child path connection => .child path (connection.renamed f)

theorem Predicate.renamedAll_eq_map (f : String → String) (operands : List Predicate) :
    Predicate.renamedAll f operands = operands.map (Predicate.renamed f) := by
  induction operands with
  | nil => rfl
  | cons operand operands ih => rw [Predicate.renamedAll, List.map_cons, ih]

theorem renamedFields_eq_map (f : String → String) (fields : List (QueryField RecordQuery)) :
    renamedFields f fields = fields.map (QueryField.renamed f) := by
  induction fields with
  | nil => rfl
  | cons field fields ih => cases field <;> simp only [renamedFields, List.map_cons, ih] <;> rfl

/-! ## Renaming by nothing, and twice -/

theorem Expression.renamed_id (e : Expression) : e.renamed id = e := by
  cases e <;> rfl

theorem Expression.renamed_renamed (e : Expression) :
    (e.renamed f).renamed g = e.renamed (g ∘ f) := by
  cases e <;> rfl

mutual

theorem Predicate.renamed_id : ∀ p : Predicate, p.renamed id = p
  | .comparison left op right => by simp only [Predicate.renamed, Expression.renamed_id]
  | .compound op operands => by simp only [Predicate.renamed, Predicate.renamedAll_id operands]
  | .negation operand => by simp only [Predicate.renamed, Predicate.renamed_id operand]
  | .isNull operand => by simp only [Predicate.renamed, Expression.renamed_id]
  | .isNotNull operand => by simp only [Predicate.renamed, Expression.renamed_id]
  | .between operand start stop => by simp only [Predicate.renamed, Expression.renamed_id]
  | .existsRow rowName joinNames body => by
    simp only [Predicate.renamed, Predicate.renamed_id body, List.map_id, id_eq]

theorem Predicate.renamedAll_id : ∀ ps : List Predicate, Predicate.renamedAll id ps = ps
  | [] => rfl
  | p :: ps => by
    simp only [Predicate.renamedAll, Predicate.renamed_id p, Predicate.renamedAll_id ps]

end

mutual

theorem Predicate.renamed_renamed : ∀ p : Predicate,
    (p.renamed f).renamed g = p.renamed (g ∘ f)
  | .comparison left op right => by simp only [Predicate.renamed, Expression.renamed_renamed]
  | .compound op operands => by
    simp only [Predicate.renamed, Predicate.renamedAll_renamedAll operands]
  | .negation operand => by simp only [Predicate.renamed, Predicate.renamed_renamed operand]
  | .isNull operand => by simp only [Predicate.renamed, Expression.renamed_renamed]
  | .isNotNull operand => by simp only [Predicate.renamed, Expression.renamed_renamed]
  | .between operand start stop => by simp only [Predicate.renamed, Expression.renamed_renamed]
  | .existsRow rowName joinNames body => by
    simp only [Predicate.renamed, Predicate.renamed_renamed body, List.map_map,
      Function.comp_apply]

theorem Predicate.renamedAll_renamedAll : ∀ ps : List Predicate,
    Predicate.renamedAll g (Predicate.renamedAll f ps) = Predicate.renamedAll (g ∘ f) ps
  | [] => rfl
  | p :: ps => by
    simp only [Predicate.renamedAll, Predicate.renamed_renamed p,
      Predicate.renamedAll_renamedAll ps]

end

theorem SortKey.renamed_id (key : SortKey) : key.renamed id = key := by
  simp only [SortKey.renamed, Expression.renamed_id]

theorem SortKey.renamed_renamed (key : SortKey) :
    (key.renamed f).renamed g = key.renamed (g ∘ f) := by
  simp only [SortKey.renamed, Expression.renamed_renamed]

mutual

theorem RecordQuery.renamed_id : ∀ query : RecordQuery, query.renamed id = query
  | ⟨predicate?, fields, row, first?, joinNames, orderBy⟩ => by
    have hpredicate : Predicate.renamed id = id := funext Predicate.renamed_id
    have hkey : SortKey.renamed id = id := funext SortKey.renamed_id
    simp only [RecordQuery.renamed, renamedFields_id fields, hpredicate, hkey, Option.map_id,
      List.map_id, Row.renamed, id_eq]

theorem renamedFields_id : ∀ fields : List (QueryField RecordQuery),
    renamedFields id fields = fields
  | [] => rfl
  | .scalar path extract :: rest => by
    simp only [renamedFields, Expression.renamed_id, renamedFields_id rest]
  | .child path connection :: rest => by
    simp only [renamedFields, RecordQuery.renamed_id connection, renamedFields_id rest]

end

mutual

theorem RecordQuery.renamed_renamed : ∀ query : RecordQuery,
    (query.renamed f).renamed g = query.renamed (g ∘ f)
  | ⟨predicate?, fields, row, first?, joinNames, orderBy⟩ => by
    have hpredicate : Predicate.renamed g ∘ Predicate.renamed f = Predicate.renamed (g ∘ f) :=
      funext Predicate.renamed_renamed
    have hkey : SortKey.renamed g ∘ SortKey.renamed f = SortKey.renamed (g ∘ f) :=
      funext SortKey.renamed_renamed
    simp only [RecordQuery.renamed, renamedFields_renamedFields fields, hpredicate, hkey,
      Option.map_map, List.map_map, Row.renamed, Function.comp_apply]

theorem renamedFields_renamedFields : ∀ fields : List (QueryField RecordQuery),
    renamedFields g (renamedFields f fields) = renamedFields (g ∘ f) fields
  | [] => rfl
  | .scalar path extract :: rest => by
    simp only [renamedFields, Expression.renamed_renamed, renamedFields_renamedFields rest]
  | .child path connection :: rest => by
    simp only [renamedFields, RecordQuery.renamed_renamed connection,
      renamedFields_renamedFields rest]

end

/-! ## Different names stay different -/

/-- Different names stay different, and the name of a row that a relationship leads to keeps the
relationship. -/
structure Renaming (f : String → String) : Prop where
  injective : Function.Injective f
  along : ∀ name relationship, f (name ++ "." ++ relationship) = f name ++ "." ++ relationship

theorem renaming_id : Renaming id := ⟨Function.injective_id, fun _ _ => rfl⟩

/-- A text in front of all names is a renaming. -/
theorem renaming_append (text : String) : Renaming (text ++ ·) where
  injective := fun first second h => by
    have htext : text.toList ++ first.toList = text.toList ++ second.toList := by
      rw [← String.toList_append, ← String.toList_append]
      exact congrArg String.toList h
    exact String.toList_inj.1 (List.append_cancel_left htext)
  along := fun name relationship => by simp only [String.append_assoc]

namespace Renaming

theorem beq_eq (hf : Renaming f) (first second : String) :
    (f first == f second) = (first == second) := by
  rw [Bool.eq_iff_iff, beq_iff_eq, beq_iff_eq, hf.injective.eq_iff]

theorem map_beq (hf : Renaming f) (first second : List String) :
    (first.map f == second.map f) = (first == second) := by
  rw [Bool.eq_iff_iff, beq_iff_eq, beq_iff_eq, (List.map_injective_iff.2 hf.injective).eq_iff]

theorem expression_beq (hf : Renaming f) (e e' : Expression) :
    (e.renamed f == e'.renamed f) = (e == e') := by
  change (e.renamed f).same (e'.renamed f) = e.same e'
  cases e <;> cases e' <;> simp only [Expression.renamed, Expression.same, hf.beq_eq]

mutual

theorem predicate_same (hf : Renaming f) : ∀ p q : Predicate,
    Predicate.same (p.renamed f) (q.renamed f) = Predicate.same p q
  | .comparison left op right, q => by
    cases q <;> simp only [Predicate.renamed, Predicate.same, hf.expression_beq]
  | .compound op operands, q => by
    cases q <;> simp only [Predicate.renamed, Predicate.same]
    rw [predicate_sameAll hf operands]
  | .negation operand, q => by
    cases q <;> simp only [Predicate.renamed, Predicate.same]
    exact predicate_same hf operand _
  | .isNull operand, q => by
    cases q <;> simp only [Predicate.renamed, Predicate.same, hf.expression_beq]
  | .isNotNull operand, q => by
    cases q <;> simp only [Predicate.renamed, Predicate.same, hf.expression_beq]
  | .between operand start stop, q => by
    cases q <;> simp only [Predicate.renamed, Predicate.same, hf.expression_beq]
  | .existsRow rowName joinNames body, q => by
    cases q <;> simp only [Predicate.renamed, Predicate.same, hf.beq_eq, hf.map_beq]
    rw [predicate_same hf body]

theorem predicate_sameAll (hf : Renaming f) : ∀ ps qs : List Predicate,
    Predicate.sameAll (Predicate.renamedAll f ps) (Predicate.renamedAll f qs) =
      Predicate.sameAll ps qs
  | [], qs => by cases qs <;> simp only [Predicate.renamedAll, Predicate.sameAll]
  | p :: ps, qs => by
    cases qs <;> simp only [Predicate.renamedAll, Predicate.sameAll]
    rw [predicate_same hf p, predicate_sameAll hf ps]

end

end Renaming

/-! ## Joins of predicates -/

/-- What keeps items different can be done before repetitions are dropped, or after. -/
theorem eraseDups_map {α β : Type} [BEq α] [BEq β] {h : α → β}
    (hbeq : ∀ a b, (h a == h b) = (a == b)) : ∀ l : List α,
      (l.map h).eraseDups = l.eraseDups.map h
  | [] => rfl
  | a :: l => by
    have hfilter : (l.map h).filter (fun b => !b == h a) = (l.filter fun b => !b == a).map h := by
      rw [List.filter_map]
      congr 1
      exact congrArg (l.filter ·) (funext fun b => congrArg (!·) (hbeq b a))
    rw [List.map_cons, List.eraseDups_cons, List.eraseDups_cons, hfilter, eraseDups_map hbeq,
      List.map_cons]
termination_by l => l.length
decreasing_by exact Nat.lt_succ_of_le (List.length_filter_le _ _)

namespace Predicate

theorem operandsUnder_renamed (op : Connective) (p : Predicate) :
    operandsUnder op (p.renamed f) = (operandsUnder op p).map (renamed f) := by
  cases p with
  | compound op' operands =>
    rw [renamed, operandsUnder, operandsUnder, renamedAll_eq_map]
    split
    · rfl
    · rw [List.map_singleton, renamed, renamedAll_eq_map]
  | _ => rfl

theorem isEmpty_renamed (p : Predicate) : (p.renamed f).isEmpty = p.isEmpty := by
  cases p with
  | compound op operands => cases operands <;> rfl
  | _ => rfl

/-- **Joining predicates compares names, and does not look into them.** -/
theorem combine_renamed (hf : Renaming f) (op : Connective) (ps : List Predicate) :
    combine op (ps.map (renamed f)) = (combine op ps).renamed f := by
  have hflat : (ps.map (renamed f)).flatMap (operandsUnder op) =
      (ps.flatMap (operandsUnder op)).map (renamed f) := by
    rw [List.flatMap_map, List.map_flatMap]
    exact congrArg ps.flatMap (funext (operandsUnder_renamed op))
  rw [combine, combine, hflat, eraseDups_map hf.predicate_same]
  match (ps.flatMap (operandsUnder op)).eraseDups with
  | [] => rfl
  | [only] => rfl
  | first :: second :: rest =>
    rw [renamed, renamedAll_eq_map]
    rfl

end Predicate

/-! ## Joined rows -/

theorem Row.type_renamed (row : Row) : (row.renamed f).type = row.type := rfl

theorem Row.join_renamed (hf : Renaming f) (row : Row) (reference : Reference) :
    (row.renamed f).join reference = (row.join reference).renamed f := by
  simp only [Row.join, Row.along, Row.renamed, Join.renamed, hf.along]

theorem Row.children_renamed (hf : Renaming f) (row : Row) (relationship : ChildRelationship) :
    (row.renamed f).children relationship = (row.children relationship).renamed f := by
  simp only [Row.children, Row.along, Row.renamed, hf.along]

theorem Join.row_renamed (join : Join) : (join.renamed f).row = join.row.renamed f := rfl

theorem Join.conditions_renamed (join : Join) :
    (join.renamed f).conditions = join.conditions.map (Predicate.renamed f) := rfl

theorem joinNames_renamed (hf : Renaming f) (joins : List Join) :
    joinNames (joins.map (Join.renamed f)) = (joinNames joins).map f := by
  rw [joinNames, joinNames, ← eraseDups_map hf.beq_eq, List.map_map, List.map_map]
  rfl

theorem joinConditions_renamed (hf : Renaming f) (joins : List Join) :
    joinConditions (joins.map (Join.renamed f)) =
      (joinConditions joins).map (Predicate.renamed f) := by
  rw [joinConditions, joinConditions, ← eraseDups_map hf.predicate_same, List.flatMap_map,
    List.map_flatMap]
  simp only [Join.conditions_renamed]

end SoupQuery
