import SoupQuery.Proofs.Connection
import SoupQuery.Proofs.Predicate

/-!
# Anchors cannot be escaped

The conditions that bind a connection to its type, to the row that it hangs from and to the user
stand at the top of its predicate, whatever else is asked for. A filter can neither absorb them
nor move them under a disjunction or a negation.

* `IsAnchor` — the conditions that bind a connection.
* `Anchored` — a query has a predicate, with all anchors at its top.
* `recordQuery_anchored` — a connection that compiles is anchored.
* `transform_anchored` — in a document that compiles, every query belongs to a connection and is
  anchored, and every connection has such a query.
-/

namespace SoupQuery.Compile

open SoupQuery.GraphQL

variable {context : Context} {document : Document}

/-- The conditions that bind a connection read through the row: its type, for a child connection
the reference to the row that it hangs from, and what its scope asks for. -/
inductive IsAnchor (context : Context) (row : Row) (origin : Origin) (head : Field) :
    Predicate → Prop
  | type : IsAnchor context row origin head (.hasType row.name row.type)
  | parent {parent relationship} : origin = .record parent relationship →
      IsAnchor context row origin head (.refersTo row.name parent.name relationship.fieldName)
  | mine : head.argument? "scope" = some (.enum "MINE") →
      IsAnchor context row origin head (ownedBy row context.userId)
  | assignedToMe : head.argument? "scope" = some (.enum "ASSIGNEDTOME") →
      IsAnchor context row origin head (assignedTo row context.userId)

/-- The query has a predicate, and each anchor is that predicate or an operand of the conjunction
that it is. -/
def Anchored (context : Context) (origin : Origin) (head : Field) (query : RecordQuery) : Prop :=
  ∃ predicate, query.predicate? = some predicate ∧
    ∀ anchor, IsAnchor context query.row origin head anchor → predicate.HasConjunct anchor

/-! ## Anchors are single conditions without doubles -/

variable {row : Row} {origin : Origin} {head : Field} {anchor : Predicate}

theorem assignedTo_exact (row : Row) (userId : String) : (assignedTo row userId).Exact := by
  refine .existsRow (Predicate.combine_closed (fun _ _ => Predicate.exact_compound) ?_)
  intro p hp
  simp only [List.mem_cons, List.not_mem_nil, or_false] at hp
  rcases hp with rfl | rfl | rfl | rfl | rfl
  · exact Predicate.exact_refersTo _ _ _
  · exact Predicate.exact_refersTo _ _ _
  · exact .comparison trivial trivial
  · exact Predicate.exact_hasType _ _
  · exact Predicate.exact_hasType _ _

theorem IsAnchor.exact (h : IsAnchor context row origin head anchor) : anchor.Exact := by
  cases h with
  | type => exact Predicate.exact_hasType _ _
  | parent _ => exact Predicate.exact_refersTo _ _ _
  | mine _ => exact .comparison trivial trivial
  | assignedToMe _ => exact assignedTo_exact _ _

theorem IsAnchor.operandsUnder_eq (h : IsAnchor context row origin head anchor) :
    Predicate.operandsUnder .and anchor = [anchor] := by
  cases h <;> rfl

/-! ## Anchored queries -/

/-- Each anchor is one of the conditions that a connection is put together from. -/
theorem IsAnchor.mem {below : List Selection} {parts : Parts}
    (hparts : parts.Of context (origin.row head) head below)
    (h : IsAnchor context (origin.row head) origin head anchor) :
    anchor ∈ origin.anchors head ++ parts.conditions := by
  have hscope : ∀ p, parts.scope? = some p → p ∈ parts.conditions := by
    intro p hp
    simp only [Parts.conditions, List.mem_append, Option.mem_toList]
    exact .inl (.inl (.inr hp))
  have hargument := hparts.scope
  cases h with
  | type =>
    cases origin with
    | document => exact List.mem_append_left _ (List.mem_singleton.2 rfl)
    | record parent relationship =>
      exact List.mem_append_left _ (List.mem_cons_of_mem _ (List.mem_singleton.2 rfl))
  | parent horigin =>
    subst horigin
    exact List.mem_append_left _ (List.mem_cons_self ..)
  | mine hmine =>
    rw [hmine] at hargument
    simp only [scopeArgument, if_true] at hargument
    split at hargument
    · exact List.mem_append_right _ (hscope _ (Except.ok.inj hargument).symm)
    · cases hargument
  | assignedToMe hassigned =>
    rw [hassigned] at hargument
    simp only [scopeArgument, if_neg (show "ASSIGNEDTOME" ≠ "MINE" by decide), if_true] at hargument
    split at hargument
    · exact List.mem_append_right _ (hscope _ (Except.ok.inj hargument).symm)
    · cases hargument

theorem isEmpty_eq_false_of_hasConjunct {p condition : Predicate} (h : p.HasConjunct condition)
    (hcondition : condition.isEmpty = false) : p.isEmpty = false := by
  rcases h with rfl | ⟨operands, rfl, hmem⟩
  · exact hcondition
  · cases operands with
    | nil => cases hmem
    | cons _ _ => rfl

/-- **A connection that compiles is anchored**, whatever its filter, order and selections are. -/
theorem recordQuery_anchored {below : List Selection} {query : RecordQuery}
    (h : recordQuery context (origin.row head) (origin.anchors head) head below = .ok query) :
    query.row = origin.row head ∧ Anchored context origin head query := by
  obtain ⟨parts, hparts, rfl⟩ := recordQuery_ok h
  have hconjunct : ∀ anchor, IsAnchor context (origin.row head) origin head anchor →
      (Predicate.combine .and (origin.anchors head ++ parts.conditions)).HasConjunct anchor :=
    fun anchor hanchor =>
      Predicate.hasConjunct_combine (hanchor.mem hparts) hanchor.exact hanchor.operandsUnder_eq
  have hnonempty := isEmpty_eq_false_of_hasConjunct (hconjunct _ .type) rfl
  refine ⟨rfl, _, ?_, hconjunct⟩
  simp only [Parts.toQuery, Option.filter_eq_some_iff, true_and, Bool.not_eq_true']
  exact hnonempty

/-- **Anchors cannot be escaped.** In a document that compiles every query, at any depth, belongs
to a connection and is anchored; and every connection has such a query. -/
theorem transform_anchored {queries : List RecordQuery}
    (h : transform context document = .ok queries) :
    (∀ enclosing query, Occurs queries enclosing query →
      ∃ origin head below, Connection context.schema document origin head below ∧
        origin.HangsFrom enclosing ∧ query.row = origin.row head ∧
        recordQuery context (origin.row head) (origin.anchors head) head below = .ok query ∧
        Anchored context origin head query) ∧
    (∀ origin head below, Connection context.schema document origin head below →
      ∃ enclosing query, Occurs queries enclosing query ∧ query.row = origin.row head ∧
        recordQuery context (origin.row head) (origin.anchors head) head below = .ok query ∧
        Anchored context origin head query) := by
  constructor
  · intro enclosing query hquery
    obtain ⟨origin, head, below, hconnection, hok, hhangs⟩ := connection_of_occurs h hquery
    obtain ⟨hrow, hanchored⟩ := recordQuery_anchored hok
    exact ⟨origin, head, below, hconnection, hhangs, hrow, hok, hanchored⟩
  · intro origin head below hconnection
    obtain ⟨enclosing, query, hquery, hok⟩ := occurs_of_connection h hconnection
    obtain ⟨hrow, hanchored⟩ := recordQuery_anchored hok
    exact ⟨enclosing, query, hquery, hrow, hok, hanchored⟩

theorem visits_anchored : transform jobsContext jobsDocument = .ok [jobsQuery] ∧
    Connection jobsContext.schema jobsDocument
      (.record ⟨"jobs.Owner", "User"⟩ ⟨"VisitorId", "Visit", "Visits"⟩) visitsField
      (edgesNode [.field ⟨none, "Id", []⟩ []]) ∧
    Anchored jobsContext (.record ⟨"jobs.Owner", "User"⟩ ⟨"VisitorId", "Visit", "Visits"⟩)
      visitsField visitsQuery := by
  refine ⟨transform_jobs, connection_visits, ?_⟩
  obtain ⟨_, query, _, _, hok, hanchored⟩ :=
    (transform_anchored transform_jobs).2 _ _ _ connection_visits
  obtain rfl : visitsQuery = query := Except.ok.inj hok
  exact hanchored

end SoupQuery.Compile
