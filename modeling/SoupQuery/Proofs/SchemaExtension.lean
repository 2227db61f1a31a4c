import SoupQuery.Proofs.MetadataOrder
import SoupQuery.Proofs.RelatedRuns

/-!
# Further types do not matter

A schema may grow: what compiles against it compiles to the same queries against every schema that
has its types unchanged, and more. A document that does not compile may well do so against the
larger schema, if it asks for a type that was missing.

* `Schema.Extends` — the second schema describes every type of the first in the same way.
* `Schema.Extends.member?`, `Schema.Extends.child?` — on a type that the first schema knows, both
  give the same meaning to every name; on any other type the first gives none.
* `Kept` — a result without errors is the result of the second run too.
* `whereArgument_kept`, `orderByArgument_kept`, `selection_kept` — every part of the compiler keeps
  its results.
* `transform_extended` — **extending a schema keeps the queries of every document that compiles.**
-/

namespace SoupQuery

/-- Every type that the first schema knows is described in the same way by the second, which may
know more types. -/
def Schema.Extends (schema schema' : Schema) : Prop :=
  ∀ type info, schema.object? type = some info → schema'.object? type = some info

/-- A schema is extended by every schema that has its entries among others, under other keys. -/
theorem Schema.extends_of_subset {schema schema' : Schema} (hkeys : (schema'.map (·.1)).Nodup)
    (h : schema ⊆ schema') : schema.Extends schema' := by
  intro type info hinfo
  obtain ⟨before, after, heq, -⟩ := List.lookup_eq_some_iff.1 hinfo
  have hmem : (type, info) ∈ schema := by
    rw [heq]
    exact List.mem_append_right _ (List.mem_cons_self ..)
  exact (lookup_eq_some_iff_mem hkeys).2 (h hmem)

namespace Schema.Extends

variable {schema schema' : Schema} {type : String}

theorem knows (h : schema.Extends schema') (hknown : schema.knows type = true) :
    schema'.knows type = true := by
  obtain ⟨info, hinfo⟩ := Option.isSome_iff_exists.1 hknown
  rw [Schema.knows, h type info hinfo]
  rfl

theorem object? (h : schema.Extends schema') (hknown : schema.knows type = true) :
    schema'.object? type = schema.object? type := by
  obtain ⟨info, hinfo⟩ := Option.isSome_iff_exists.1 hknown
  rw [h type info hinfo, hinfo]

theorem field? (h : schema.Extends schema') (hknown : schema.knows type = true) (name : String) :
    schema'.field? type name = schema.field? type name := by
  rw [Schema.field?, Schema.field?, h.object? hknown]

theorem member? (h : schema.Extends schema') (hknown : schema.knows type = true) (name : String) :
    schema'.member? type name = schema.member? type name := by
  rw [Schema.member?, Schema.member?, h.field? hknown]

theorem child? (h : schema.Extends schema') (hknown : schema.knows type = true) (name : String) :
    schema'.child? type name = schema.child? type name := by
  rw [Schema.child?, Schema.child?, h.object? hknown]

end Schema.Extends

/-! ## Types that are not known -/

section Unknown

variable {schema : Schema} {type : String}

theorem Schema.object?_of_unknown (h : ¬ schema.knows type = true) :
    schema.object? type = none := by
  rwa [Schema.knows, Option.not_isSome_iff_eq_none] at h

theorem Schema.field?_of_unknown (h : ¬ schema.knows type = true) (name : String) :
    schema.field? type name = none := by
  rw [Schema.field?, object?_of_unknown h, Option.bind_none]

theorem Schema.member?_of_unknown (h : ¬ schema.knows type = true) (name : String) :
    schema.member? type name = none := by
  rw [Schema.member?, field?_of_unknown h, Option.map_none]

theorem Schema.child?_of_unknown (h : ¬ schema.knows type = true) (name : String) :
    schema.child? type name = none := by
  rw [Schema.child?, object?_of_unknown h, Option.bind_none]

end Unknown

end SoupQuery

namespace SoupQuery.Compile

open SoupQuery.GraphQL

/-! ## Results that are kept -/

/-- A result without errors is the result of the second run too. -/
def Kept (α : Type) (result result' : Compiled α) : Prop := result.errors = [] → result' = result

theorem compositional_kept : Compositional Kept where
  refl _ _ := rfl
  map f h herrors := by
    rw [Checked.errors_map] at herrors
    rw [h herrors]
  zip h₁ h₂ herrors := by
    rw [Checked.errors_zip, List.append_eq_nil_iff] at herrors
    rw [h₁ herrors.1, h₂ herrors.2]
  partition := by
    intro α results results' h herrors
    rw [Checked.errors_partition, List.flatMap_eq_nil_iff] at herrors
    have hsame : List.Forall₂ (fun result result' => result = result') results results' :=
      ((List.forall₂_and_left _ _).2 ⟨herrors, h⟩).imp fun _ _ hkept => (hkept.2 hkept.1).symm
    rw [List.forall₂_eq_eq_eq] at hsame
    rw [hsame]

theorem kept_fail {α : Type} (error : CompileError) (result : Compiled α) :
    Kept α (Checked.fail error) result := by
  intro herrors
  cases herrors

variable {schema schema' : Schema}

/-! ## Arguments -/

mutual

theorem filterEntry_kept (h : schema.Extends schema') :
    ∀ (row : Row) (key : String) (value : Value),
    Kept RowFilter (filterEntry schema row key value) (filterEntry schema' row key value)
  | row, key, value => by
    unfold filterEntry
    split
    · cases value with
      | list items =>
        exact compositional_kept.rel_gatherFilters (filterItems_kept h row _ items)
      | _ => exact compositional_kept.refl _
    · cases value with
      | object entries =>
        exact compositional_kept.map _
          (compositional_kept.rel_gatherFilters (filterEntries_kept h row entries))
      | _ => exact compositional_kept.refl _
    · by_cases hknown : schema.knows row.type = true
      · rw [h.member? hknown]
        split
        · exact compositional_kept.refl _
        · exact compositional_kept.refl _
        · rename_i reference _
          cases value with
          | object entries =>
            simp only
            split
            · rename_i htarget
              rw [if_pos (h.knows htarget)]
              exact compositional_kept.map _
                (compositional_kept.rel_gatherFilters (filterEntries_kept h _ entries))
            · exact kept_fail _ _
          | _ => exact compositional_kept.refl _
      · rw [Schema.member?_of_unknown hknown]
        exact kept_fail _ _

theorem filterEntries_kept (h : schema.Extends schema') :
    ∀ (row : Row) (entries : List (String × Value)),
    List.Forall₂ (Kept RowFilter) (filterEntries schema row entries)
      (filterEntries schema' row entries)
  | _, [] => .nil
  | row, (key, value) :: rest =>
    .cons (filterEntry_kept h row key value) (filterEntries_kept h row rest)

theorem filterItems_kept (h : schema.Extends schema') :
    ∀ (row : Row) (op : Connective) (items : List Value),
    List.Forall₂ (Kept RowFilter) (filterItems schema row op items)
      (filterItems schema' row op items)
  | _, _, [] => .nil
  | row, op, item :: rest => by
    have hrest := filterItems_kept h row op rest
    cases item with
    | object entries =>
      exact .cons (compositional_kept.rel_gatherFilters (filterEntries_kept h row entries)) hrest
    | _ => exact .cons (compositional_kept.refl _) hrest

end

theorem whereArgument_kept (h : schema.Extends schema') (row : Row)
    (value? : Option Value) :
    Kept (Option RowFilter) (whereArgument schema row value?)
      (whereArgument schema' row value?) := by
  unfold whereArgument
  split
  · exact compositional_kept.refl _
  · exact compositional_kept.map _
      (compositional_kept.rel_gatherFilters (filterEntries_kept h row _))
  · exact compositional_kept.refl _

theorem scopeArgument_kept (h : schema.Extends schema') (row : Row) (userId : String)
    (value? : Option Value) :
    Kept (Option Predicate) (scopeArgument schema row userId value?)
      (scopeArgument schema' row userId value?) := by
  unfold scopeArgument
  split
  · exact compositional_kept.refl _
  · split
    · by_cases hknown : schema.knows row.type = true
      · rw [h.field? hknown]
        exact compositional_kept.refl _
      · rw [Schema.field?_of_unknown hknown]
        exact kept_fail _ _
    · exact compositional_kept.refl _
  · exact compositional_kept.refl _

mutual

theorem orderEntry_kept (h : schema.Extends schema') :
    ∀ (row : Row) (entries : List (String × Value)),
    Kept RowOrder (orderEntry schema row entries) (orderEntry schema' row entries)
  | _, [] => compositional_kept.refl _
  | row, [(name, value)] => orderMember_kept h row name value
  | _, _ :: _ :: _ => compositional_kept.refl _

theorem orderMember_kept (h : schema.Extends schema') :
    ∀ (row : Row) (name : String) (value : Value),
    Kept RowOrder (orderMember schema row name value) (orderMember schema' row name value)
  | row, name, value => by
    unfold orderMember
    by_cases hknown : schema.knows row.type = true
    · rw [h.member? hknown]
      split
      · exact compositional_kept.refl _
      · rename_i member _
        cases value with
        | object entries =>
          cases member with
          | value field => exact compositional_kept.refl _
          | record reference =>
            simp only
            split
            · rename_i htarget
              rw [if_pos (h.knows htarget)]
              exact compositional_kept.map _ (orderEntry_kept h _ entries)
            · exact kept_fail _ _
        | _ => exact compositional_kept.refl _
    · rw [Schema.member?_of_unknown hknown]
      exact kept_fail _ _

end

theorem orderByArgument_kept (h : schema.Extends schema') (row : Row)
    (value? : Option Value) :
    Kept (List RowOrder) (orderByArgument schema row value?)
      (orderByArgument schema' row value?) := by
  unfold orderByArgument
  split
  · exact compositional_kept.refl _
  · exact compositional_kept.map _ (orderEntry_kept h row _)
  · refine compositional_kept.partition ?_
    rw [List.forall₂_map_left_iff, List.forall₂_map_right_iff, List.forall₂_same]
    intro item _
    cases item with
    | object entries => exact orderEntry_kept h row entries
    | _ => exact compositional_kept.refl _
  · exact compositional_kept.refl _

/-! ## Connections -/

theorem assemble_kept (h : schema.Extends schema') (userId : String) {row : Row} {head : Field}
    {below : List Selection}
    (hnode : ∀ node, nodeOf? below = some node → ∀ s ∈ node,
      Option.Rel (Kept Selected) (selection ⟨schema, userId⟩ row "node" s)
        (selection ⟨schema', userId⟩ row "node" s)) (anchors : List Predicate) :
    Kept RecordQuery
      (assemble ⟨schema, userId⟩ row anchors head (underEdges ⟨schema, userId⟩ row below))
      (assemble ⟨schema', userId⟩ row anchors head (underEdges ⟨schema', userId⟩ row below)) := by
  refine compositional_kept.rel_assemble ?_ ?_ ?_ ?_ anchors
  · exact whereArgument_kept h row _
  · exact scopeArgument_kept h row userId _
  · exact orderByArgument_kept h row _
  · exact compositional_kept.rel_underEdges hnode

/-- **What is selected of a record is kept**, at any depth. -/
theorem selection_kept (h : schema.Extends schema') (userId : String) :
    ∀ (s : Selection) (row : Row) (path : String),
    Option.Rel (Kept Selected) (selection ⟨schema, userId⟩ row path s)
      (selection ⟨schema', userId⟩ row path s) := by
  refine selectionInduction (fun head below hbelow hnode row path => ?_)
    (fun _ _ _ => .some (compositional_kept.refl _)) fun _ _ _ _ =>
      .some (compositional_kept.refl _)
  rw [selection, selection]
  split
  · exact .none
  · refine .some ?_
    simp only
    by_cases hknown : schema.knows row.type = true
    · rw [h.member? hknown, h.child? hknown]
      split
      · -- a reference must lead to a type that the first schema knows
        rename_i reference _
        by_cases htarget : schema.knows reference.target = true
        · rw [if_neg (not_not.2 htarget), if_neg (not_not.2 (h.knows htarget))]
          split
          · exact compositional_kept.refl _
          · exact compositional_kept.map _
              (compositional_kept.rel_gatherSelected fun s hs => hbelow s hs _ _)
        · rw [if_pos htarget]
          exact kept_fail _ _
      · exact compositional_kept.refl _
      · split
        · rename_i relationship _
          split
          · rename_i hchild
            rw [if_pos (h.knows hchild)]
            exact compositional_kept.map _
              (assemble_kept h userId (fun node hn s hs => hnode node hn s hs _ _) _)
          · exact kept_fail _ _
        · exact compositional_kept.refl _
    · rw [Schema.member?_of_unknown hknown, Schema.child?_of_unknown hknown]
      exact kept_fail _ _

theorem rootConnection_kept (h : schema.Extends schema') (userId : String) (s : Selection) :
    Option.Rel (Kept RecordQuery) (rootConnection ⟨schema, userId⟩ s)
      (rootConnection ⟨schema', userId⟩ s) := by
  cases s with
  | field head below =>
    rw [rootConnection, rootConnection]
    split
    · exact .none
    · simp only
      split
      · rename_i hknown
        rw [if_pos (h.knows hknown)]
        exact .some (assemble_kept h userId (fun _ _ s _ => selection_kept h userId s _ _) _)
      · split
        · exact .some (kept_fail _ _)
        · exact .some (kept_fail _ _)
  | _ => exact .some (compositional_kept.refl _)

/-- **Extending a schema keeps the queries of every document that compiles.** Types that the schema
does not have may be added; those that it has stay as they are. -/
theorem transform_extended (h : schema.Extends schema') {document : Document} {userId : String}
    {queries : List RecordQuery} (hok : transform ⟨schema, userId⟩ document = .ok queries) :
    transform ⟨schema', userId⟩ document = .ok queries := by
  have hkept : Kept (List RecordQuery) (transform ⟨schema, userId⟩ document)
      (transform ⟨schema', userId⟩ document) :=
    compositional_kept.rel_transform fun _ _ => compositional_kept.rel_rootConnections
      fun _ _ s _ => rootConnection_kept h userId s
  have herrors : (transform ⟨schema, userId⟩ document).errors = [] := by
    rw [hok]
    rfl
  exact (hkept herrors).trans hok

/-- The users of `staffSchema` and their visits, among other types. -/
def officeSchema : Schema :=
  ("Account", ⟨"Account", [("owner", .reference ⟨"OwnerId", "Owner", "User"⟩)], []⟩) ::
    staffSchema ++ [("Region", ⟨"Region", [], [("accounts", ⟨"RegionId", "Account", "Accounts"⟩)]⟩)]

theorem staff_extended : staffSchema.Extends officeSchema ∧
    transform ⟨staffSchema, "u1"⟩ staffDocument = .ok [staffQuery] ∧
    transform ⟨officeSchema, "u1"⟩ staffDocument = .ok [staffQuery] := by
  have hextends : staffSchema.Extends officeSchema := by
    refine Schema.extends_of_subset (by decide) fun entry hentry => ?_
    exact List.mem_cons_of_mem _ (List.mem_append_left _ hentry)
  have hok : transform ⟨staffSchema, "u1"⟩ staffDocument = .ok [staffQuery] := rfl
  exact ⟨hextends, hok, transform_extended hextends hok⟩

end SoupQuery.Compile
