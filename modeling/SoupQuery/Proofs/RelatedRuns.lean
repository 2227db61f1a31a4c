import Mathlib.Data.List.Forall2
import SoupQuery.Proofs.Errors

/-!
# Related runs

Two runs of the compiler on the same document, in two contexts. A relation between results that
passes from the parts of a result to the whole need only be shown where the contexts differ.

* `Compositional` — a relation between the results of two runs that combined results inherit.
* `compositional_eq`, `compositional_errors` — being equal, and failing for the same reasons.
* `Compositional.rel_assemble`, `Compositional.rel_underEdges` — connections inherit it from their
  arguments and from the selections of their node.
* `Compositional.rel_transform` — a document inherits it from its connections.
-/

namespace SoupQuery.Compile

open SoupQuery.GraphQL

/-- The relation holds of a result and itself, and of combined results if it holds of the results
that are combined. -/
structure Compositional (R : (α : Type) → Compiled α → Compiled α → Prop) : Prop where
  refl : ∀ {α : Type} (result : Compiled α), R α result result
  map : ∀ {α β : Type} {result result' : Compiled α} (f : α → β), R α result result' →
    R β (Except.map f result) (Except.map f result')
  zip : ∀ {α β : Type} {first first' : Compiled α} {second second' : Compiled β},
    R α first first' → R β second second' →
    R (α × β) (Checked.zip first second) (Checked.zip first' second')
  partition : ∀ {α : Type} {results results' : List (Compiled α)},
    List.Forall₂ (R α) results results' →
    R (List α) (Checked.partition results) (Checked.partition results')

theorem compositional_eq : Compositional fun _ result result' => result = result' where
  refl _ := rfl
  map f h := congrArg (Except.map f) h
  zip h₁ h₂ := congrArg₂ Checked.zip h₁ h₂
  partition h := congrArg Checked.partition (List.forall₂_eq_eq_eq ▸ h)

theorem compositional_errors :
    Compositional fun _ result result' => result.errors = result'.errors where
  refl _ := rfl
  map f h := by rw [Checked.errors_map, Checked.errors_map, h]
  zip h₁ h₂ := by rw [Checked.errors_zip, Checked.errors_zip, h₁, h₂]
  partition h := by
    rw [Checked.errors_partition, Checked.errors_partition]
    induction h with
    | nil => rfl
    | cons hfirst _ ih => rw [List.flatMap_cons, List.flatMap_cons, hfirst, ih]

/-- Two results for each item of a list, related one by one. -/
theorem forall₂_filterMap {α β : Type} {P : β → β → Prop} {f g : α → Option β} {items : List α}
    (h : ∀ item ∈ items, Option.Rel P (f item) (g item)) :
    List.Forall₂ P (items.filterMap f) (items.filterMap g) := by
  have hsame : List.Forall₂ (fun item item' => item = item' ∧ item ∈ items) items items :=
    List.forall₂_same.2 fun item hitem => ⟨rfl, hitem⟩
  refine List.rel_filterMap ?_ hsame
  rintro item _ ⟨rfl, hitem⟩
  exact h item hitem

namespace Compositional

variable {R : (α : Type) → Compiled α → Compiled α → Prop} (hR : Compositional R)
  {context context' : Context} {row : Row} {below : List Selection}

include hR

/-! ## Connections -/

theorem rel_gatherFilters {op : Connective} {results results' : List (Compiled RowFilter)}
    (h : List.Forall₂ (R RowFilter) results results') :
    R RowFilter (gatherFilters op results) (gatherFilters op results') :=
  hR.map _ (hR.partition h)

theorem rel_gatherSelected {path : String}
    (h : ∀ s ∈ below, Option.Rel (R Selected) (selection context row path s)
      (selection context' row path s)) :
    R Selected (gatherSelected (selections context row path below))
      (gatherSelected (selections context' row path below)) := by
  rw [selections_eq_filterMap, selections_eq_filterMap]
  exact hR.map _ (hR.partition (forall₂_filterMap h))

theorem rel_underEdges (h : ∀ node, nodeOf? below = some node → ∀ s ∈ node,
      Option.Rel (R Selected) (selection context row "node" s) (selection context' row "node" s)) :
    Option.Rel (R Selected) (underEdges context row below)
      (underEdges context' row below) := by
  rw [underEdges_eq, underEdges_eq]
  cases hnode : nodeOf? below with
  | none => exact .none
  | some node => exact .some (hR.rel_gatherSelected (h node hnode))

theorem rel_assemble {head : Field}
    (hfilter : R (Option RowFilter)
      (whereArgument context.schema row (head.argument? "where"))
      (whereArgument context'.schema row (head.argument? "where")))
    (hscope : R (Option Predicate)
      (scopeArgument context.schema row context.userId (head.argument? "scope"))
      (scopeArgument context'.schema row context'.userId (head.argument? "scope")))
    (horders : R (List RowOrder)
      (orderByArgument context.schema row (head.argument? "orderBy"))
      (orderByArgument context'.schema row (head.argument? "orderBy")))
    {selected? selected?' : Option (Compiled Selected)}
    (hselected : Option.Rel (R Selected) selected? selected?') (anchors : List Predicate) :
    R RecordQuery (assemble context row anchors head selected?)
      (assemble context' row anchors head selected?') := by
  refine hR.map _ (hR.zip hfilter (hR.zip hscope (hR.zip horders (hR.zip (hR.refl _) ?_))))
  cases hselected with
  | none => exact hR.refl _
  | some h => exact h

/-! ## Documents -/

theorem rel_rootConnections {selections : List Selection}
    (h : ∀ connections,
      (Selection.below? "uiapi" selections).bind (Selection.below? "query") = some connections →
      ∀ s ∈ connections, Option.Rel (R RecordQuery) (rootConnection context s)
        (rootConnection context' s)) :
    R (List RecordQuery) (rootConnections context selections)
      (rootConnections context' selections) := by
  unfold rootConnections
  split
  · exact hR.refl _
  · rename_i connections hconnections
    exact hR.partition (forall₂_filterMap (h connections hconnections))

/-- **A document inherits the relation from its operations.** -/
theorem rel_transform {document : Document}
    (h : ∀ selections, .operation .query selections ∈ document →
      R (List RecordQuery) (rootConnections context selections)
        (rootConnections context' selections)) :
    R (List RecordQuery) (transform context document) (transform context' document) := by
  cases hqueries : Checked.partition (document.map queryOf) with
  | error errors =>
    -- Operations are told apart before any is compiled, in whatever context.
    have hfailed : ∀ context, transform context document = .error errors := by
      intro context
      rw [transform, hqueries]
      rfl
    rw [hfailed, hfailed]
    exact hR.refl _
  | ok queries =>
    rw [transform_of_queries hqueries, transform_of_queries hqueries]
    refine hR.map List.flatten (hR.partition ?_)
    rw [List.forall₂_map_left_iff, List.forall₂_map_right_iff, List.forall₂_same]
    intro selections hselections
    obtain ⟨definition, hdefinition, hquery⟩ :=
      List.mem_map.1 (Checked.mem_of_partition hqueries hselections)
    rw [queryOf_ok hquery] at hdefinition
    exact h selections hdefinition

end Compositional

end SoupQuery.Compile
