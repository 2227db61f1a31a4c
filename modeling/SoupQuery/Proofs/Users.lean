import SoupQuery.Proofs.Names
import SoupQuery.Proofs.RelatedRuns

/-!
# Two users

A document is compiled for a user, who stands in the conditions of scopes. These conditions are
joined with others, so the user can change the shape of a query; but whether a document compiles,
and what is wrong with it, is the same for every user, and so is a query in which no scope is asked
for.

* `ScopeRelated` — the scope of a connection has related results for the two users.
* `selection_related` — what is selected of a record has related results, at any depth.
* `transform_related` — **a document has related results for two users, if all its scopes do.**
* `transform_noninterference` — **the user decides neither what compiles nor what is wrong**, and
  without scopes nothing at all.
-/

namespace SoupQuery.Compile

open SoupQuery.GraphQL

/-! ## Connections inside a connection -/

section Inside

variable {schema : Schema} {row : Row}

theorem Reaches.of_mem {s t : Selection} {below : List Selection} {inner : Row}
    (h : Reaches schema row [s] inner t) (hs : s ∈ below) : Reaches schema row below inner t := by
  cases h with
  | here hmem => exact .here (List.mem_singleton.1 hmem ▸ hs)
  | along hmem hname hmember hinner =>
    exact .along (List.mem_singleton.1 hmem ▸ hs) hname hmember hinner

/-- What is inside a child of a connection is inside the connection. -/
theorem Nested.of_child {origin origin' : Origin} {outer head head' : Field}
    {around node below below' : List Selection} {parent : Row} {relationship : ChildRelationship}
    {depth : Nat} (hnode : nodeOf? around = some node)
    (hreach : Reaches schema (origin.row outer) node parent (.field head below))
    (hchild : IsChild schema parent head relationship)
    (h : Nested schema (.record parent relationship) head below depth origin' head' below') :
    Nested schema origin outer around (depth + 1) origin' head' below' := by
  induction h with
  | self => exact .child .self hnode hreach hchild
  | child _ hnode' hreach' hchild' ih => exact .child ih hnode' hreach' hchild'

end Inside

/-! ## Related runs -/

section Related

variable (R : (α : Type) → Compiled α → Compiled α → Prop) (schema : Schema)
  (user other : String)

/-- The scope of a connection has related results for the two users. -/
def ScopeRelated (origin : Origin) (head : Field) : Prop :=
  R (Option Predicate) (scopeArgument schema (origin.row head) user (head.argument? "scope"))
    (scopeArgument schema (origin.row head) other (head.argument? "scope"))

/-- The scopes of all connections inside a connection have related results, its own included. -/
def ScopesRelated (origin : Origin) (outer : Field) (around : List Selection) : Prop :=
  ∀ depth origin' head below, Nested schema origin outer around depth origin' head below →
    ScopeRelated R schema user other origin' head

/-- So have the scopes of all connections that selections on the record of a row lead to. -/
def ScopesRelatedBelow (row : Row) (below : List Selection) : Prop :=
  ∀ parent head inside relationship, Reaches schema row below parent (.field head inside) →
    IsChild schema parent head relationship →
    ScopesRelated R schema user other (.record parent relationship) head inside

/-- The selection has related results on every record, if the scopes below it have. -/
def SelectionRelated (s : Selection) : Prop :=
  ∀ row path, ScopesRelatedBelow R schema user other row [s] →
    Option.Rel (R Selected) (selection ⟨schema, user⟩ row path s)
      (selection ⟨schema, other⟩ row path s)

variable {R schema user other} {document : Document} {row : Row}

/-- If the scopes inside a connection are related, so are those below its node. -/
theorem ScopesRelated.below {origin : Origin} {outer : Field} {around node : List Selection}
    (h : ScopesRelated R schema user other origin outer around)
    (hnode : nodeOf? around = some node) :
    ScopesRelatedBelow R schema user other (origin.row outer) node := by
  intro parent head inside relationship hreach hchild depth origin' head' below' hnested
  exact h _ _ _ _ (hnested.of_child hnode hreach hchild)

theorem ScopesRelatedBelow.of_mem {below : List Selection} {s : Selection}
    (h : ScopesRelatedBelow R schema user other row below) (hs : s ∈ below) :
    ScopesRelatedBelow R schema user other row [s] := by
  intro parent head inside relationship hreach hchild
  exact h _ _ _ _ (hreach.of_mem hs) hchild

variable (hR : Compositional R)

include hR

theorem gatherSelected_related {below : List Selection}
    (h : ∀ s ∈ below, SelectionRelated R schema user other s) (path : String)
    (hscopes : ScopesRelatedBelow R schema user other row below) :
    R Selected (gatherSelected (selections ⟨schema, user⟩ row path below))
      (gatherSelected (selections ⟨schema, other⟩ row path below)) :=
  hR.rel_gatherSelected fun s hs => h s hs row path (hscopes.of_mem hs)

theorem assemble_related {origin : Origin} {head : Field} {below : List Selection}
    (h : ∀ node, nodeOf? below = some node → ∀ s ∈ node, SelectionRelated R schema user other s)
    (hscopes : ScopesRelated R schema user other origin head below) (anchors : List Predicate) :
    R RecordQuery
      (assemble ⟨schema, user⟩ (origin.row head) anchors head
        (underEdges ⟨schema, user⟩ (origin.row head) below))
      (assemble ⟨schema, other⟩ (origin.row head) anchors head
        (underEdges ⟨schema, other⟩ (origin.row head) below)) := by
  refine hR.rel_assemble ?_ ?_ ?_ ?_ anchors
  · exact hR.refl _
  · exact hscopes _ _ _ _ .self
  · exact hR.refl _
  · exact hR.rel_underEdges fun node hnode s hs =>
      h node hnode s hs _ "node" ((hscopes.below hnode).of_mem hs)

/-- **What is selected of a record has related results**, at any depth. -/
theorem selection_related : ∀ s : Selection, SelectionRelated R schema user other s := by
  refine selectionInduction (fun head below hbelow hnode row path hscopes => ?_)
    (fun _ _ _ _ => .some (hR.refl _)) fun _ _ _ _ _ => .some (hR.refl _)
  rw [selection, selection]
  split
  · exact .none
  · rename_i hname
    refine .some ?_
    simp only
    cases hmember : schema.member? row.type head.name with
    | some member =>
      cases member with
      | value field => exact hR.refl _
      | record reference =>
        simp only
        split
        · exact hR.refl _
        · split
          · exact hR.refl _
          · -- What the selections on the referenced record lead to, this field leads to.
            refine hR.map _ (gatherSelected_related hR hbelow _ ?_)
            intro parent head' inside relationship hreach hchild
            exact hscopes _ _ _ _ (.along (List.mem_singleton.2 rfl) hname hmember hreach) hchild
    | none =>
      cases hchild : schema.child? row.type head.name with
      | none => exact hR.refl _
      | some relationship =>
        simp only
        split
        · have hinside : ScopesRelated R schema user other (.record row relationship) head below :=
            hscopes _ _ _ _ (.here (List.mem_singleton.2 rfl)) ⟨hname, hmember, hchild⟩
          exact hR.map _ (assemble_related hR hnode hinside _)
        · exact hR.refl _

/-- A connection has related results for two users, if the scopes inside it have. -/
theorem recordQuery_related {origin : Origin} {head : Field} {below : List Selection}
    (h : ScopesRelated R schema user other origin head below) (anchors : List Predicate) :
    R RecordQuery (recordQuery ⟨schema, user⟩ (origin.row head) anchors head below)
      (recordQuery ⟨schema, other⟩ (origin.row head) anchors head below) :=
  assemble_related hR (fun _ _ s _ => selection_related hR s) h anchors

theorem rootConnection_related {s : Selection}
    (h : ∀ head below, s = .field head below → head.name ≠ typeNameField →
      ScopesRelated R schema user other .document head below) :
    Option.Rel (R RecordQuery) (rootConnection ⟨schema, user⟩ s)
      (rootConnection ⟨schema, other⟩ s) := by
  cases s with
  | field head below =>
    rw [rootConnection, rootConnection]
    split
    · exact .none
    · rename_i hname
      simp only
      split
      · exact .some (recordQuery_related hR (h head below rfl hname) _)
      · exact .some (hR.refl _)
  | _ => exact .some (hR.refl _)

/-- **A document has related results for two users, if the scopes of all its connections have.** -/
theorem transform_related (h : ∀ origin head below, Connection schema document origin head below →
      ScopeRelated R schema user other origin head) :
    R (List RecordQuery) (transform ⟨schema, user⟩ document)
      (transform ⟨schema, other⟩ document) := by
  refine hR.rel_transform fun selections hselections => ?_
  refine hR.rel_rootConnections fun connections hconnections s hs => rootConnection_related hR ?_
  rintro head below rfl hname depth origin head' below' hnested
  exact h _ _ _ (hnested.connection (.root hselections hconnections hs hname))

end Related

/-! ## The results for two users -/

/-- What is wrong with a scope is the same for every user. -/
theorem errors_scopeArgument (schema : Schema) (row : Row) (user other : String)
    (value? : Option Value) : (scopeArgument schema row user value?).errors =
      (scopeArgument schema row other value?).errors := by
  unfold scopeArgument
  split
  · rfl
  · split
    · split <;> rfl
    · split
      · split <;> rfl
      · rfl
  · rfl

/-- What is wrong with a document is the same for every user. -/
theorem errors_transform (schema : Schema) (document : Document) (user other : String) :
    (transform ⟨schema, user⟩ document).errors = (transform ⟨schema, other⟩ document).errors :=
  transform_related compositional_errors fun _ _ _ _ => errors_scopeArgument _ _ _ _ _

/-- **The user decides neither what compiles nor what is wrong.** A document compiles for one user
exactly if it compiles for another, and otherwise it fails for both with the same errors. If no
connection of it, at any depth, has a scope, it comes to the same queries for both. -/
theorem transform_noninterference (schema : Schema) (document : Document) (user other : String) :
    ((∃ queries, transform ⟨schema, user⟩ document = .ok queries) ↔
      ∃ queries, transform ⟨schema, other⟩ document = .ok queries) ∧
    (∀ errors, transform ⟨schema, user⟩ document = .error errors ↔
      transform ⟨schema, other⟩ document = .error errors) ∧
    ((∀ origin head below, Connection schema document origin head below →
        head.argument? "scope" = none) →
      transform ⟨schema, user⟩ document = transform ⟨schema, other⟩ document) := by
  have herrors := errors_transform schema document user other
  have hreports := transform_reports ⟨schema, user⟩ document
  have hreports' := transform_reports ⟨schema, other⟩ document
  refine ⟨?_, fun errors => ?_, fun hscopes => ?_⟩
  · rw [hreports.exists_ok_iff, hreports'.exists_ok_iff, herrors]
  · rw [hreports.eq_error_iff, hreports'.eq_error_iff, herrors]
  · refine transform_related compositional_eq fun origin head below hconnection => ?_
    rw [ScopeRelated, hscopes origin head below hconnection]
    rfl

/-- The users and their visits, whoever asks. -/
def visitorsDocument : Document :=
  [.operation .query [.field ⟨none, "uiapi", []⟩ [.field ⟨none, "query", []⟩
    [.field ⟨none, "User", []⟩ (edgesNode
      [.field ⟨none, "Visits", [("first", .int 3)]⟩ (edgesNode [.field ⟨none, "Id", []⟩ []])])]]]]

def visitorsQuery : RecordQuery where
  predicate? := some (.hasType "User" "User")
  fields := [.child "node.Visits.edges"
    { predicate? := some (.compound .and
        [.refersTo "User.Visits" "User" "VisitorId", .hasType "User.Visits" "Visit"])
      fields := [.scalar "node.Id" (.extract "User.Visits" "data.id")]
      row := ⟨"User.Visits", "Visit"⟩
      first? := some 3
      joinNames := []
      orderBy := [] }]
  row := ⟨"User", "User"⟩
  first? := none
  joinNames := []
  orderBy := []

/-- A document that compiles with scopes, one that does not compile, and one without scopes, for
another user than theirs. -/
theorem users_noninterference :
    (∃ queries, transform ⟨jobsContext.schema, "u2"⟩ jobsDocument = .ok queries) ∧
    transform ⟨jobsContext.schema, "u2"⟩ usersDocument =
      .error [.firstNotNatural "User", .missingObjectInfo "Nothing"] ∧
    (∀ origin head below, Connection jobsContext.schema visitorsDocument origin head below →
      head.argument? "scope" = none) ∧
    transform ⟨jobsContext.schema, "u2"⟩ visitorsDocument = .ok [visitorsQuery] := by
  have hfields : ∀ set ∈ visitorsDocument.selectionSets, ∀ head ∈ set.filterMap Selection.head?,
      head.argument? "scope" = none := by decide
  have hscopes : ∀ origin head below,
      Connection jobsContext.schema visitorsDocument origin head below →
      head.argument? "scope" = none := by
    intro origin head below hconnection
    obtain ⟨set, hset, hfield⟩ := hconnection.holds
    exact hfields set hset head (List.mem_filterMap.2 ⟨_, hfield, rfl⟩)
  refine ⟨?_, ?_, hscopes, ?_⟩
  · exact (transform_noninterference jobsContext.schema jobsDocument "u2" "u1").1.2
      ⟨_, transform_jobs⟩
  · exact ((transform_noninterference jobsContext.schema usersDocument "u2" "u1").2.1 _).2 rfl
  · exact ((transform_noninterference jobsContext.schema visitorsDocument "u2" "u1").2.2
      hscopes).trans rfl

end SoupQuery.Compile
